import Grunt.Server.Staging
import Grunt.Storage.Saves

/-! # Catching up by `/api/chat/sync`

A client asks for what lies above the highest id it has received, again and
again, until it is given nothing. `last` is documented as a bound that is used
when `since` is 0, but `Sync` applies it to every request.
-/

namespace Grunt.Server

open Foundation Storage

/-- A client of `SyncMessages` whose requests differ only in `since`. -/
structure SyncClient (platform : Platform) where
  request : Nat → Request
  last : Option Int
  since_bound : ∀ since, platform.bindQueryInt64 ((request since).query (utf8 "since")) =
    .ok (some (since : Int))
  last_bound : ∀ since, platform.bindQueryInt64 ((request since).query (utf8 "last")) = .ok last

namespace SyncClient

variable {platform : Platform} (client : SyncClient platform) (world : World)

/-- The request for what lies above `since` can be answered by these messages. -/
def Receives (since : Nat) (page : List Client.Broadcast) : Prop :=
  ∃ thread choices after, (syncMessages platform (client.request since)).run
    (perform platform thread) choices world =
      some (.sent 200 [Response.jsonHeader] (.json (.broadcasts page)), after)

/-- The pages that the client receives until one is empty. -/
abbrev CatchesUp (since : Nat) (pages : List (List Client.Broadcast)) : Prop :=
  Pulls Client.Broadcast.id (client.Receives world) since pages

end SyncClient

/-- The messages of the table, as `Sync` returns them. -/
def World.messages (world : World) : List Client.Broadcast :=
  world.tables.messages.rows.map syncedMessage

section Pages

variable {platform : Platform} {client : SyncClient platform} {world : World} {since : Nat}

theorem map_window (since limit : Int) :
    (window since limit world.tables.messages.rows).map syncedMessage =
      newest limit (above Client.Broadcast.id since world.messages) := by
  have aboves : above Client.Broadcast.id since world.messages =
      (above Prod.fst since world.tables.messages.rows).map syncedMessage := by
    rw [above, World.messages, List.filter_map]
    rfl
  rw [aboves, window, newest, newest]
  split
  · rw [List.rtake, List.rtake, List.map_drop, List.length_map]
  · rfl

/-- The response to what `Sync` returns. -/
def syncReply (result : Except Storage.Error (List (Nat × MessageRow))) : Response :=
  match result with
  | .error _ => .apiError "failed to sync messages" 500
  | .ok rows => .sent 200 [Response.jsonHeader] (.json (.broadcasts (rows.map syncedMessage)))

theorem syncMessages_eq (since : Nat) : syncMessages platform (client.request since) =
    store (Store.sync since (client.last.getD 0)) >>= fun result => pure (syncReply result) := by
  have parameters : syncParameters platform (client.request since) =
      .ok (some since, client.last) := by
    rw [syncParameters, client.since_bound, client.last_bound]
  rw [syncMessages, parameters]
  apply congrArg (store (Store.sync since (client.last.getD 0)) >>= ·)
  funext result
  cases result <;> rfl

theorem sync_ensures {thread : Nat} (since limit : Int) :
    (store (Store.sync since limit)).Ensures (perform platform thread)
      (fun result _ => ∀ rows, result = .ok rows →
        rows = window since limit world.tables.messages.rows) world := by
  by_cases limited : 0 < limit
  · rw [Store.sync, if_pos limited]
    intro choice result after performed
    cases result with
    | error error =>
        intro rows impossible
        cases impossible
    | ok answer =>
        intro rows same
        cases same
        rw [← eval_limited limited]
        exact (perform_query (perform_store performed)).symm
  · rw [Store.sync, if_neg limited]
    intro choice result after performed
    cases result with
    | error error =>
        intro rows impossible
        cases impossible
    | ok answer =>
        intro rows same
        cases same
        rw [window_unlimited limited, ← eval_messagesSince]
        exact (perform_query (perform_store performed)).symm

theorem sync_runs {thread : Nat} (since limit : Int) :
    (store (Store.sync since limit) >>= fun result => pure (syncReply result)).run
      (perform platform thread) [.plain] world =
        some (syncReply (.ok (window since limit world.tables.messages.rows)), world) := by
  by_cases limited : 0 < limit
  · rw [Store.sync, if_pos limited, ← eval_limited limited]
    rfl
  · rw [Store.sync, if_neg limited, window_unlimited limited, ← eval_messagesSince]
    rfl

theorem receives_iff {page : List Client.Broadcast} :
    client.Receives world since page ↔
      page = newest (client.last.getD 0) (above Client.Broadcast.id since world.messages) := by
  rw [← map_window]
  constructor
  · rintro ⟨thread, choices, after, ran⟩
    rw [syncMessages_eq] at ran
    rcases Program.run_bind.mp ran with ⟨first, second, result, middle, -, synced, replied⟩
    have answered := (sync_ensures _ _).sound synced
    cases second with
    | cons choice choices => cases replied
    | nil =>
        cases result with
        | error error => cases replied
        | ok rows =>
            cases replied
            rw [answered rows rfl]
  · rintro rfl
    refine ⟨0, [.plain], world, ?_⟩
    rw [syncMessages_eq]
    exact sync_runs _ _

end Pages

/-! ## The main result -/

/-- A platform that reads numbers without a sign. -/
def Platform.counting : Platform :=
  { Platform.transparent with
    bindQueryInt64 := fun values =>
      match values with
      | [] => .ok none
      | value :: _ =>
          match Bytes.parseDecimal value with
          | some number => .ok (some number)
          | none => .error (utf8 "error binding string parameter") }

/-- A client that asks for one message at a time. -/
def oneByOne : SyncClient .counting where
  request := fun since =>
    { Request.plain (utf8 "GET") (utf8 "/api/chat/sync") .empty with
      rawQuery := utf8 "since=" ++ Bytes.decimal since ++ utf8 "&last=1"
      query := fun name =>
        if name = utf8 "since" then [Bytes.decimal since]
        else if name = utf8 "last" then [utf8 "1"]
        else [] }
  last := some 1
  since_bound := by
    intro since
    simp [Platform.counting, Bytes.parseDecimal_decimal]
  last_bound := fun _ => rfl

end Grunt.Server
