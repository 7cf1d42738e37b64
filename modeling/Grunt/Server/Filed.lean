import Grunt.Server.Broadcasts
import Grunt.Server.Staging

/-! # Every message is saved before it is sent

The messages on the broadcast channel are in the table, under the ids they
carry, and no message is sent twice.
-/

namespace Grunt.Server

open Foundation

def Item.messageID (item : Item) : Option Nat :=
  match item.payload with
  | .message message => some message.id
  | .event _ => none

def messageIDs (items : List Item) : List Nat := items.filterMap Item.messageID

/-! ## From saving to sending -/

def savedID (performed : List (Performed Op Op.Result)) : Option Nat :=
  match performed.getLast? with
  | some ⟨_, .store (.exec false (.insertMessage _)), .ok outcome⟩ => some outcome.lastInsertId
  | _ => none

def SendsSaved (op : Op) (seen : List (Performed Op Op.Result)) : Prop :=
  ∀ item id, op = .broadcast item → item.messageID = some id → savedID seen = some id

section Handlers

variable {platform : Platform} {thread : Nat} {seen : List (Performed Op Op.Result)}

theorem sendsSaved_of_silent {α : Type} {program : ServerProgram α}
    (only : program.Only fun op => op.isSilent = true) :
    Machine.Obeys thread SendsSaved (fun _ _ => True) program seen := by
  refine Machine.obeys_of_only only (fun op _ silent _ item id same => ?_)
    (fun _ _ _ _ => id) trivial
  subst same
  cases silent

theorem save_obeys (row : Storage.MessageRow) :
    Machine.Obeys thread SendsSaved
      (fun result seen => ∀ id, result = .ok id → savedID seen = some id)
      (store (Storage.Store.save row)) seen := by
  refine And.intro (fun item id same => by cases same) fun result => ?_
  cases result with
  | error error =>
      intro id saved
      cases saved
  | ok outcome =>
      intro id saved
      cases saved
      simp [savedID]

theorem saveAndBroadcast_obeys {userID content : ByteString} :
    Machine.Obeys thread SendsSaved (fun _ _ => True)
      (saveAndBroadcast platform userID content) seen := by
  have clock : now.Only fun op : Op => op.isSilent = true := ⟨rfl, fun _ => trivial⟩
  refine (sendsSaved_of_silent clock).bind fun timestamp seen _ => ?_
  refine (save_obeys _).bind fun result seen saved => ?_
  cases result with
  | error error => trivial
  | ok id =>
      dsimp only
      split
      · trivial
      · refine ⟨fun item sent same isMessage => ?_, fun _ => trivial⟩
        cases same
        cases isMessage
        exact saved id rfl

theorem sendMessage_obeys {request : Request} {identity : Identity} :
    Machine.Obeys thread SendsSaved (fun _ _ => True)
      (sendMessage platform request identity) seen := by
  unfold sendMessage
  split
  · trivial
  · split
    · trivial
    · dsimp only
      split
      · trivial
      · split
        · trivial
        · split
          · trivial
          · exact saveAndBroadcast_obeys

theorem serve_obeys (request : Request) :
    Machine.Obeys thread SendsSaved (fun _ _ => True) (serve platform request) [] := by
  have quiet : ∀ op : Op, op.isQuiet = true → op.isSilent = true :=
    fun _ => Op.isSilent_of_isQuiet
  refine (sendsSaved_of_silent (authenticate_only quiet)).bind fun identity seen _ => ?_
  by_cases sending : route platform request = .sendMessage
  · rw [sending]
    exact sendMessage_obeys
  · refine sendsSaved_of_silent (dispatch_only quiet _ fun op permitted => ?_)
    cases op with
    | broadcast item =>
        cases which : route platform request with
        | sendMessage => exact absurd which sending
        | _ =>
            rw [which] at permitted
            cases permitted
    | _ => rfl

end Handlers

/-- The message that a request has saved and is about to send. -/
def pending (config : ServerConfig) (thread : Nat) : Option Nat :=
  match config.threads thread with
  | .running _ (.perform (.broadcast item) _) => item.messageID
  | _ => none

def sentIDs (config : ServerConfig) : List Nat :=
  messageIDs (config.scene.world.hub.accepted.map Prod.snd)

section Step

variable {platform : Platform} {config after : ServerConfig}

theorem savedID_of_pending (tracked : Machine.Tracked (fun thread _ rest seen =>
      Machine.Obeys thread SendsSaved (fun _ _ => True) rest seen) config)
    {thread id : Nat} (waiting : pending config thread = some id) :
    savedID (config.scene.own thread) = some id := by
  unfold pending at waiting
  split at waiting
  case h_2 => cases waiting
  case h_1 request item rest running =>
    exact ((tracked thread).2 request _ running).1 item id rfl waiting

theorem mem_history_of_pending (tracked : Machine.Tracked (fun thread _ rest seen =>
      Machine.Obeys thread SendsSaved (fun _ _ => True) rest seen) config)
    {thread id : Nat} (waiting : pending config thread = some id) :
    thread ∈ config.scene.history.map Performed.thread := by
  have saved := savedID_of_pending tracked waiting
  cases last : (config.scene.own thread).getLast? with
  | none =>
      rw [savedID, last] at saved
      cases saved
  | some performed =>
      have member := List.mem_filter.mp (List.mem_of_getLast? last)
      exact List.mem_map.mpr ⟨performed, member.1, of_decide_eq_true member.2⟩

theorem savedID_snoc {seen : List (Performed Op Op.Result)} {thread id : Nat} {op : Op}
    {result : op.Result} (saved : savedID (seen ++ [⟨thread, op, result⟩]) = some id) :
    savedID [⟨thread, op, result⟩] = some id := by
  simpa [savedID] using saved

def World.savedIDs (world : World) : List Nat := world.tables.messages.rows.map Prod.fst

/-- The table of messages only gets longer, by rows with higher ids. -/
structure Appends (before after : World) : Prop where
  rows : before.tables.messages.rows <+: after.tables.messages.rows
  last : before.tables.messages.last ≤ after.tables.messages.last
  fresh : ∀ id ∈ after.savedIDs, id ∈ before.savedIDs ∨ before.tables.messages.last < id

theorem Appends.of_eq {before after : World}
    (same : after.tables.messages = before.tables.messages) : Appends before after := by
  constructor
  · rw [same]
  · rw [same]
  · intro id member
    rw [World.savedIDs, same] at member
    exact .inl member

theorem Appends.savedIDs {before after : World} (appends : Appends before after) {id : Nat}
    (saved : id ∈ before.savedIDs) : id ∈ after.savedIDs :=
  (appends.rows.map Prod.fst).subset saved

theorem le_last_of_saved {world : World} {id : Nat} (saved : id ∈ world.savedIDs) :
    id ≤ world.tables.messages.last := by
  rcases List.mem_map.mp saved with ⟨entry, member, rfl⟩
  exact world.tables.messages.bounded entry member

theorem appends_of_insert {before after : World} {row : Storage.MessageRow}
    (inserted : before.tables.messages.insert row = some after.tables.messages) :
    Appends before after := by
  rcases NumberedTable.insert_eq_some inserted with ⟨last, rows⟩
  constructor
  · exact ⟨_, rows.symm⟩
  · exact last ▸ Nat.le_succ _
  · intro id member
    rw [World.savedIDs, rows, List.map_append] at member
    rcases List.mem_append.mp member with old | new
    · exact .inl old
    · rw [List.mem_singleton.mp new]
      exact .inr (Nat.lt_succ_self _)

theorem appends_of_perform {thread : Nat} {op : Op} {result : op.Result}
    {choice : Storage.Choice} {world reached : World} (staged : world.store.Staged)
    (performed : perform platform thread op choice world = some (result, reached)) :
    Appends world reached := by
  cases changes_of_perform performed with
  | unchanged same => exact .of_eq (congrArg Storage.Tables.messages same)
  | statement idle applied =>
      rcases Storage.Statement.messages_of_apply applied with
        ⟨row, -, inserted⟩ | unchanged
      · exact appends_of_insert inserted
      · exact .of_eq unchanged
  | commit held =>
      have messages : reached.tables.messages = world.tables.messages :=
        (staged thread _ held).messages
      exact .of_eq messages

theorem appends_of_environment {happening : Happening} {world reached : World}
    (happened : environment platform happening world = some reached) :
    Appends world reached := by
  rcases environment_store happened with same | ⟨-, -, -, code, expiresAt, outcome, applied⟩
  · exact .of_eq (by rw [World.tables, same]; rfl)
  · rcases Storage.Statement.messages_of_apply applied with ⟨row, impossible, -⟩ | unchanged
    · cases impossible
    · exact .of_eq unchanged

theorem appends_of_next (serving : Serving platform config) {event : ServerEvent}
    (taken : next platform config event = some after) :
    Appends config.scene.world after.scene.world := by
  cases event with
  | arrive thread request =>
      rcases Machine.next_arrive taken with ⟨-, rfl⟩
      exact .of_eq rfl
  | step thread choice =>
      rcases Machine.next_step taken with ⟨request, op, rest, result, scene, -, observed, rfl⟩
      exact appends_of_perform serving.staged (Machine.observe_eq_some.mp observed).1
  | environment happening =>
      rcases Machine.next_environment taken with ⟨world, happened, rfl⟩
      exact appends_of_environment happened
  | restart =>
      rw [Machine.next_restart taken]
      exact .of_eq rfl

theorem savedID_of_perform {thread id : Nat} {op : Op} {result : op.Result}
    {choice : Storage.Choice} {world reached : World}
    (performed : perform platform thread op choice world = some (result, reached))
    (saved : savedID [⟨thread, op, result⟩] = some id) :
    world.tables.messages.last < id ∧ id ∈ reached.savedIDs := by
  rw [savedID] at saved
  split at saved
  case h_2 => cases saved
  case h_1 found =>
    cases found
    cases saved
    rcases Storage.perform_exec (perform_store performed) with
      ⟨-, error, impossible⟩ | ⟨-, outcome, tables, same, applied, stored⟩
    · cases impossible
    · cases same
      have reachedTables : reached.tables = tables := by
        rw [World.tables, stored]
        rfl
      simp only [Storage.Statement.apply] at applied
      split at applied <;> cases applied
      case h_1 messages inserted =>
        rcases NumberedTable.insert_eq_some inserted with ⟨last, rows⟩
        constructor
        · rw [last]
          exact Nat.lt_succ_self _
        · rw [World.savedIDs, reachedTables, rows, last, List.map_append]
          exact List.mem_append_right _ (List.mem_singleton_self _)

theorem accepted_of_perform {thread : Nat} {op : Op} {result : op.Result}
    {choice : Storage.Choice} {world reached : World} (silent : op.isSilent = true)
    (performed : perform platform thread op choice world = some (result, reached)) :
    reached.hub.accepted = world.hub.accepted := by
  by_cases leaves : op.leavesHub = true
  · rw [perform_hub leaves performed]
  · cases op with
    | broadcast item => cases silent
    | register subscriber =>
        exact (Hub.effect_of_register (perform_register performed)).1
    | store | nanoid | random | putToken | checkToken | writePump | renderContent | readFile =>
        exact absurd rfl leaves

theorem pending_set_other {scene : ServerScene} {threads : Nat → Thread Op Op.Result Request Response}
    {thread other : Nat} {status : Thread Op Op.Result Request Response}
    (different : other ≠ thread) :
    pending (Config.set ⟨scene, threads⟩ thread status) other = pending ⟨scene, threads⟩ other := by
  simp only [pending, Config.set, Function.update_of_ne different]

/-! ## What an event does to the messages under way -/

abbrev Saving (config : ServerConfig) : Prop :=
  Machine.Tracked (fun thread _ rest seen =>
    Machine.Obeys thread SendsSaved (fun _ _ => True) rest seen) config

theorem saving_of_next (saving : Saving config) {event : ServerEvent}
    (taken : next platform config event = some after) : Saving after :=
  saving.next (Machine.obeys_tracking fun _ request => serve_obeys request) taken

/-- What an event does to the messages on the channel and to those that are
about to be put there. -/
inductive Posts (config : ServerConfig) : ServerEvent → ServerConfig → Prop
  /-- A thread may have saved a message. -/
  | saves {event : ServerEvent} {after : ServerConfig} (thread : Nat) :
      sentIDs after = sentIDs config →
      (∀ other id, pending after other = some id → pending config other = some id ∨
        other = thread ∧ config.scene.world.tables.messages.last < id ∧
          id ∈ after.scene.world.savedIDs) → Posts config event after
  | sends {thread : Nat} {choice : Storage.Choice} {after : ServerConfig} (sent : Option Nat) :
      pending config thread = sent → sentIDs after = sentIDs config ++ sent.toList →
      (∀ other id, pending after other = some id →
        other ≠ thread ∧ pending config other = some id) →
      Posts config (.step thread choice) after
  | restarts {event : ServerEvent} {after : ServerConfig} : sentIDs after = [] →
      (∀ other, pending after other = none) → Posts config event after

theorem posts_of_step (saving : Saving config) {thread : Nat} {choice : Storage.Choice}
    (taken : next platform config (.step thread choice) = some after) :
    Posts config (.step thread choice) after := by
  have later := saving_of_next saving taken
  rcases Machine.next_step taken with ⟨request, op, rest, result, scene, running, observed, rfl⟩
  have performed : perform platform thread op choice config.scene.world =
      some (result, scene.world) := (Machine.observe_eq_some.mp observed).1
  have own : ∀ id, pending (Config.set { config with scene := scene } thread
      (.running request (rest result))) thread = some id →
      savedID [⟨thread, op, result⟩] = some id := by
    intro id waiting
    have saved := savedID_of_pending later waiting
    have history : (Config.set { config with scene := scene } thread
        (.running request (rest result))).scene.own thread =
        config.scene.own thread ++ [⟨thread, op, result⟩] := Machine.own_of_observe observed
    rw [history] at saved
    exact savedID_snoc saved
  by_cases silent : op.isSilent = true
  · apply Posts.saves thread
    · simp only [sentIDs, Config.set, accepted_of_perform silent performed]
    · intro other id waiting
      by_cases same : other = thread
      · subst other
        exact .inr ⟨rfl, savedID_of_perform performed (own id waiting)⟩
      · rw [pending_set_other same] at waiting
        exact .inl waiting
  · cases op with
    | broadcast item =>
        apply Posts.sends item.messageID
        · simp only [pending, running]
        · have accepted := Hub.accepted_of_send (perform_broadcast performed)
          simp only [sentIDs, Config.set, accepted, messageIDs, List.map_append,
            List.filterMap_append]
          cases identified : item.messageID <;> simp [identified]
        · intro other id waiting
          by_cases same : other = thread
          · subst other
            cases own id waiting
          · rw [pending_set_other same] at waiting
            exact ⟨same, waiting⟩
    | store | nanoid | random | putToken | checkToken | register | writePump
      | renderContent | readFile => exact absurd rfl silent

theorem posts_of_arrive (saving : Saving config) {thread : Nat} {request : Request}
    (taken : next platform config (.arrive thread request) = some after) :
    Posts config (.arrive thread request) after := by
  have later := saving_of_next saving taken
  rcases Machine.next_arrive taken with ⟨idle, rfl⟩
  apply Posts.saves thread
  · rfl
  · intro other id waiting
    by_cases same : other = thread
    · subst other
      have saved := savedID_of_pending later waiting
      have nothing : config.scene.own thread = [] := (saving thread).1 idle
      have fresh : (config.set thread (.running request
        (serve platform request))).scene.own thread = [] := nothing
      rw [fresh] at saved
      cases saved
    · rw [pending_set_other same] at waiting
      exact .inl waiting

theorem posts_of_environment {happening : Happening}
    (taken : next platform config (.environment happening) = some after) :
    Posts config (.environment happening) after := by
  rcases Machine.next_environment taken with ⟨world, happened, rfl⟩
  apply Posts.saves 0
  · rcases environment_hub happened with same | ⟨event, fault, -, changed⟩
    · simp only [sentIDs, same]
    · rcases (Hub.continues_of_happen changed).accepted with same | ⟨event, more⟩
      · simp only [sentIDs, same]
      · simp only [sentIDs, more]
        simp [messageIDs, Item.messageID, Item.ofEvent]
  · intro other id waiting
    exact .inl waiting

theorem posts_of_restart (taken : next platform config .restart = some after) :
    Posts config .restart after := by
  have restarted := Machine.next_restart taken
  subst restarted
  apply Posts.restarts
  · rfl
  · intro thread
    simp only [pending]
    cases config.threads thread with
    | idle => rfl
    | killed request => rfl
    | running request rest => cases rest <;> rfl

theorem posts_of_next (saving : Saving config) {event : ServerEvent}
    (taken : next platform config event = some after) : Posts config event after := by
  cases event with
  | arrive thread request => exact posts_of_arrive saving taken
  | step thread choice => exact posts_of_step saving taken
  | environment happening => exact posts_of_environment taken
  | restart => exact posts_of_restart taken

/-! ## The invariant of a run -/

/-- The messages on the channel, and those about to be put there, are saved,
and none is there twice. -/
structure Filed (platform : Platform) (config : ServerConfig) : Prop where
  serving : Serving platform config
  saving : Saving config
  sent : (sentIDs config).Nodup
  fresh : ∀ thread id, pending config thread = some id → id ∉ sentIDs config
  apart : ∀ one two id, pending config one = some id → pending config two = some id → one = two
  pendingSaved : ∀ thread id, pending config thread = some id →
    id ∈ config.scene.world.savedIDs
  sentSaved : ∀ id ∈ sentIDs config, id ∈ config.scene.world.savedIDs

theorem filed_start (tables : Storage.Tables) (clock : Instant) :
    Filed platform (start tables clock) where
  serving := serving_start tables clock
  saving := Machine.tracked_start
  sent := .nil
  fresh := nofun
  apart := nofun
  pendingSaved := nofun
  sentSaved := nofun

theorem Filed.pendingLast (filed : Filed platform config) {thread id : Nat}
    (waiting : pending config thread = some id) :
    id ≤ config.scene.world.tables.messages.last :=
  le_last_of_saved (filed.pendingSaved thread id waiting)

theorem Filed.sentLast (filed : Filed platform config) {id : Nat} (sent : id ∈ sentIDs config) :
    id ≤ config.scene.world.tables.messages.last :=
  le_last_of_saved (filed.sentSaved id sent)

theorem Filed.next (filed : Filed platform config) {event : ServerEvent}
    (taken : next platform config event = some after) : Filed platform after := by
  have appends := appends_of_next filed.serving taken
  have serving := filed.serving.next taken
  have saving := saving_of_next filed.saving taken
  cases posts_of_next filed.saving taken with
  | saves thread sent waits =>
      refine ⟨serving, saving, ?_, ?_, ?_, ?_, ?_⟩
      · rw [sent]
        exact filed.sent
      · intro other id waiting member
        rw [sent] at member
        rcases waits other id waiting with old | ⟨-, new, -⟩
        · exact filed.fresh other id old member
        · exact Nat.not_lt_of_le (filed.sentLast member) new
      · intro one two id first second
        rcases waits one id first with old | ⟨same, new, -⟩
        · rcases waits two id second with older | ⟨-, newer, -⟩
          · exact filed.apart one two id old older
          · exact absurd (filed.pendingLast old) (Nat.not_le_of_lt newer)
        · rcases waits two id second with older | ⟨alike, -, -⟩
          · exact absurd (filed.pendingLast older) (Nat.not_le_of_lt new)
          · rw [same, alike]
      · intro other id waiting
        rcases waits other id waiting with old | ⟨-, -, saved⟩
        · exact appends.savedIDs (filed.pendingSaved other id old)
        · exact saved
      · intro id member
        rw [sent] at member
        exact appends.savedIDs (filed.sentSaved id member)
  | @sends thread _ _ posted waited sent waits =>
      have known : ∀ id ∈ sentIDs after, id ∈ sentIDs config ∨
          pending config thread = some id := by
        intro id member
        rw [sent, List.mem_append, Option.mem_toList] at member
        exact member.imp_right fun same => waited.trans same
      refine ⟨serving, saving, ?_, ?_, ?_, ?_, ?_⟩
      · rw [sent, List.nodup_append]
        refine ⟨filed.sent, ?_, ?_⟩
        · cases posted with
          | none => exact List.nodup_nil
          | some id => exact List.nodup_singleton id
        · intro earlier member id new same
          rw [Option.mem_toList] at new
          rw [same] at member
          exact filed.fresh thread id (waited.trans new) member
      · intro other id waiting member
        rcases waits other id waiting with ⟨different, old⟩
        rcases known id member with already | own
        · exact filed.fresh other id old already
        · exact different (filed.apart other thread id old own)
      · intro one two id first second
        exact filed.apart one two id (waits one id first).2 (waits two id second).2
      · intro other id waiting
        exact appends.savedIDs (filed.pendingSaved other id (waits other id waiting).2)
      · intro id member
        apply appends.savedIDs
        rcases known id member with already | own
        · exact filed.sentSaved id already
        · exact filed.pendingSaved thread id own
  | restarts sent waits =>
      refine ⟨serving, saving, ?_, ?_, ?_, ?_, ?_⟩
      · rw [sent]
        exact List.nodup_nil
      · intro other id waiting
        cases (waits other).symm.trans waiting
      · intro one two id first
        cases (waits one).symm.trans first
      · intro other id waiting
        cases (waits other).symm.trans waiting
      · intro id member
        rw [sent] at member
        cases member

end Step

end Grunt.Server
