import Grunt.Server.Footprints
import Grunt.Server.Steps
import Grunt.Storage.Staging

/-! # What the server's steps do to the tables

The transactions of the server are those of the store, so its tables change in
the same two ways.
-/

namespace Grunt.Server

open Foundation Storage

/-- How an operation of a request changes the tables. -/
inductive Changes (thread : Nat) (before after : World) : (op : Op) → op.Result → Prop
  | unchanged {op : Op} {result : op.Result} :
      after.tables = before.tables → Changes thread before after op result
  | statement {statement : Statement} {outcome : Outcome} :
      before.store.database.writer = none →
      statement.apply before.store.clock before.tables = .ok (outcome, after.tables) →
      Changes thread before after (.store (.exec false statement))
        (.ok outcome : Except SqlError Outcome)
  | commit : before.store.database.writer = some (thread, after.tables) →
      Changes thread before after (.store .commit) (.ok () : Except SqlError Unit)

section Perform

variable {platform : Platform} {thread : Nat} {choice : Choice} {world after : World}

theorem perform_store {op : Storage.Op} {result : op.Result}
    (performed : perform platform thread (.store op) choice world = some (result, after)) :
    Storage.perform platform.toLibraries thread op choice world.store =
      some (result, after.store) := by
  obtain ⟨done, performedStore, same⟩ := Option.map_eq_some_iff.mp performed
  cases same
  exact performedStore

def Op.leavesStore : Op → Bool
  | .store _ => false
  | _ => true

theorem store_of_perform {op : Op} {result : op.Result} (leaves : op.leavesStore = true)
    (performed : perform platform thread op choice world = some (result, after)) :
    after.store = world.store := by
  cases touches_of_perform performed with
  | nothing | putToken | expire | broadcast | register => rfl
  | store => cases leaves

theorem store_of_quiet {op : Op} {result : op.Result} (quiet : op.isQuiet = true)
    (performed : perform platform thread op choice world = some (result, after)) :
    after.store = world.store := by
  cases op with
  | store op =>
      exact perform_read (Storage.Op.isRead_of_isPlainRead quiet) (perform_store performed)
  | nanoid | random | checkToken | writePump | renderContent | readFile =>
      exact store_of_perform rfl performed
  | putToken | broadcast | register => cases quiet

theorem changes_of_perform {op : Op} {result : op.Result}
    (performed : perform platform thread op choice world = some (result, after)) :
    Changes thread world after op result := by
  by_cases leaves : op.leavesStore = true
  · exact .unchanged (congrArg (fun store => store.database.committed)
      (store_of_perform leaves performed))
  · cases op with
    | store op =>
        cases Storage.changes_of_perform (perform_store performed) with
        | unchanged same => exact .unchanged same
        | statement idle applied => exact .statement idle applied
        | commit held => exact .commit held
    | nanoid | random | putToken | checkToken | broadcast | register | writePump
      | renderContent | readFile => exact absurd rfl leaves

def Op.isServed : Op → Bool
  | .store op => op.isServed
  | _ => true

theorem isServed_of_isRegistering {op : Storage.Op} (registering : isRegistering op = true) :
    op.isServed = true := by
  cases op with
  | exec inTx statement => cases inTx <;> cases statement <;> first | rfl | cases registering
  | _ => rfl

theorem isServed_of_permits {identity : Identity} {route : Route} {op : Op}
    (permitted : route.permits identity op) : op.isServed = true := by
  cases op with
  | store op =>
      cases op with
      | exec inTx statement =>
          cases inTx with
          | false => rfl
          | true =>
              cases route with
              | registerUser => exact isServed_of_isRegistering permitted
              | register => exact isServed_of_isRegistering permitted
              | _ => cases permitted
      | _ => rfl
  | _ => rfl

theorem isServed_of_reaches {request : Request} {op : Op}
    (reaches : Reaches platform request op) : op.isServed = true := by
  rcases reaches with quiet | ⟨identity, permitted⟩
  · cases op with
    | store op => cases op <;> first | rfl | cases quiet
    | _ => rfl
  · exact isServed_of_permits permitted

theorem staged_of_perform {op : Op} {result : op.Result} (staged : world.store.Staged)
    (served : op.isServed = true)
    (performed : perform platform thread op choice world = some (result, after)) :
    after.store.Staged := by
  by_cases leaves : op.leavesStore = true
  · rw [store_of_perform leaves performed]
    exact staged
  · cases op with
    | store op => exact staged.perform served (perform_store performed)
    | nanoid | random | putToken | checkToken | broadcast | register | writePump
      | renderContent | readFile => exact absurd rfl leaves

/-- What happens around the requests leaves the tables alone, except that a
start with no users adds an invite. -/
theorem environment_store {happening : Happening}
    (happened : environment platform happening world = some after) :
    after.store.database = world.store.database ∨
      (after.store.database.writer = none ∧ world.store.database.writer = none ∧
        world.tables.users.rows = [] ∧ ∃ code expiresAt outcome,
          (Statement.insertInvite code expiresAt []).apply world.store.clock world.tables =
            .ok (outcome, after.tables)) := by
  cases happening with
  | coldStart code =>
      have opened : world.coldStart code = some after := happened
      unfold World.coldStart at opened
      split at opened
      case isFalse => cases opened
      case isTrue nobody =>
        split at opened <;> cases opened
        case h_1 result store executed =>
          have performed : Storage.perform platform.toLibraries 0
              (.exec false (.insertInvite code (Calendar.unixSeconds
                (world.store.clock + World.inviteLifetime)) [])) .plain world.store =
              some (result, store) := executed
          rcases perform_exec performed with ⟨same, -⟩ | ⟨idle, outcome, tables, -, applied, rfl⟩
          · exact .inl (congrArg Storage.World.database same)
          · exact .inr ⟨rfl, idle, nobody, _, _, outcome, applied⟩
  | hub event fault =>
      obtain ⟨hub, -, rfl⟩ := Option.map_eq_some_iff.mp happened
      exact .inl rfl
  | advance elapsed => cases happened; exact .inl rfl
  | reload entries => cases happened; exact .inl rfl
  | files files => cases happened; exact .inl rfl

end Perform

/-! ## Runs -/

/-- The store's transactions in every state, and what the threads in flight
can still do. -/
structure Serving (platform : Platform) (config : ServerConfig) : Prop where
  staged : config.scene.world.store.Staged
  bounded : Machine.Bounded (Reaches platform) config

section Runs

variable {platform : Platform} {config after : ServerConfig}

theorem serving_start (tables : Tables) (clock : Instant) :
    Serving platform (start tables clock) where
  staged := World.staged_of_idle rfl
  bounded := Machine.tracked_start

theorem Serving.next (serving : Serving platform config) {event : ServerEvent}
    (taken : next platform config event = some after) : Serving platform after := by
  refine ⟨?_, serving.bounded.next (Machine.bounded_tracking (serve_only platform)) taken⟩
  cases event with
  | arrive thread request =>
      obtain ⟨-, rfl⟩ := Machine.next_arrive taken
      exact serving.staged
  | step thread choice =>
      obtain ⟨request, op, rest, result, scene, running, observed, rfl⟩ :=
        Machine.next_step taken
      have reaches := ((serving.bounded thread).2 request _ running).1
      exact staged_of_perform serving.staged (isServed_of_reaches reaches)
        (Machine.observe_eq_some.mp observed).1
  | environment happening =>
      obtain ⟨world, happened, rfl⟩ := Machine.next_environment taken
      rcases environment_store happened with same | ⟨idle, -⟩
      · intro thread tables held
        simp only [same] at held ⊢
        exact serving.staged thread tables held
      · exact World.staged_of_idle idle
  | restart =>
      rw [Machine.next_restart taken]
      exact World.staged_of_idle rfl

/-- The items that requests put on the channel are of the kind that their
programs can send. -/
abbrev SendsOnly (platform : Platform) (Sent : Item → Prop) : Prop :=
  ∀ request, (serve platform request).Only fun op => ∀ item, op = .broadcast item → Sent item

theorem sendsOnly_posts : SendsOnly platform fun item =>
    ∃ userID, userID ≠ [] ∧ item.PostedBy platform.location userID :=
  serve_posts platform

theorem sendsOnly_messages : SendsOnly platform fun item => item.eventType = utf8 "message" := by
  intro request
  apply (sendsOnly_posts request).mono
  intro op posts item same
  rcases posts item same with ⟨userID, -, posted⟩
  exact posted.isMessage

/-- The invariant rule for the hub: requests send items and register, and the
rest is up to `Run` and the pumps. -/
theorem hub_of_sends {allowed} {tables : Tables} {clock : Instant} {events : List ServerEvent}
    {Sent : Item → Prop} (sends : SendsOnly platform Sent)
    (Holds : Hub → Prop) (start : Holds Hub.start)
    (send : ∀ hub sender item after, Holds hub → Sent item →
      hub.send sender item = some after → Holds after)
    (register : ∀ hub thread subscriber after, Holds hub →
      hub.register thread subscriber = some after → Holds after)
    (happen : ∀ hub surroundings event after, Holds hub →
      surroundings.location = platform.location →
      hub.happen surroundings event = some after → Holds after)
    (run : Run (Server.next platform) allowed (Server.start tables clock) events config) :
    Holds config.scene.world.hub := by
  have tracking := Machine.bounded_tracking sends
  refine (run.invariant (fun config => Machine.Bounded (fun (_ : Request) (op : Op) =>
      ∀ item, op = .broadcast item → Sent item) config ∧ Holds config.scene.world.hub)
    (fun state event after held _ taken =>
      ⟨Machine.Tracked.next held.1 tracking taken, ?_⟩) ⟨Machine.tracked_start, start⟩).2
  rcases held with ⟨bounded, holds⟩
  cases event with
  | arrive thread request =>
      obtain ⟨-, rfl⟩ := Machine.next_arrive taken
      exact holds
  | step thread choice =>
      obtain ⟨request, op, rest, result, scene, running, observed, rfl⟩ :=
        Machine.next_step taken
      have performed : perform platform thread op choice state.scene.world =
          some (result, scene.world) := (Machine.observe_eq_some.mp observed).1
      have permitted := ((bounded thread).2 request _ running).1
      simp only [Config.set]
      by_cases leaves : op.leavesHub = true
      · rw [perform_hub leaves performed]
        exact holds
      · cases op with
        | broadcast item =>
            exact send _ thread item _ holds (permitted item rfl) (perform_broadcast performed)
        | register subscriber =>
            exact register _ thread subscriber _ holds (perform_register performed)
        | store | nanoid | random | putToken | checkToken | writePump | renderContent
          | readFile => exact absurd rfl leaves
  | environment happening =>
      obtain ⟨world, happened, rfl⟩ := Machine.next_environment taken
      rcases environment_hub happened with same | ⟨event, fault, -, changed⟩
      · rw [same]
        exact holds
      · exact happen _ _ event _ holds rfl changed
  | restart =>
      rw [Machine.next_restart taken]
      exact start

theorem hub_of_run {allowed} {tables : Tables} {clock : Instant} {events : List ServerEvent}
    (Holds : Hub → Prop) (start : Holds Hub.start)
    (send : ∀ hub sender item after, Holds hub → item.eventType = utf8 "message" →
      hub.send sender item = some after → Holds after)
    (register : ∀ hub thread subscriber after, Holds hub →
      hub.register thread subscriber = some after → Holds after)
    (happen : ∀ hub surroundings event after, Holds hub →
      hub.happen surroundings event = some after → Holds after)
    (run : Run (Server.next platform) allowed (Server.start tables clock) events config) :
    Holds config.scene.world.hub :=
  hub_of_sends sendsOnly_messages Holds start send register
    (fun hub surroundings event after holds _ => happen hub surroundings event after holds) run

end Runs

end Grunt.Server
