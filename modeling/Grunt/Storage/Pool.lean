import Grunt.Storage.Calls

/-! # The connection pool of an in-memory store

`New("")` opens the DSN `:memory:`, of which every connection is a database of
its own. A call takes an idle connection of the pool, or opens a further one
when all are busy, for each statement outside a transaction and for the whole
of a transaction. The same calls on one shared database are the reference.
-/

namespace Grunt.Storage.Pool

open Foundation

structure Connection where
  /-- `none` while no table has been created on this connection. -/
  database : Option (Database Tables)
  holder : Option Nat

structure World where
  connections : List Connection
  clock : Instant

inductive Op
  | acquire
  | release
  | run (op : Storage.Op)
deriving DecidableEq, Repr

def Op.Result : Op → Type
  | .acquire => Unit
  | .release => Unit
  | .run op => op.Result

/-- Which idle connection is taken, and what is decided about a statement. -/
structure Choice where
  connection : Nat
  outcome : Storage.Choice
deriving DecidableEq, Repr

/-- `database/sql` keeps this many idle connections. -/
def maxIdle : Nat := 2

/-- An operation on the database of one connection. Where no table has been
created, every statement and every query fails. -/
def runOn (libraries : Libraries) (thread : Nat) (op : Storage.Op) (choice : Storage.Choice)
    (clock : Instant) :
    Option (Database Tables) → Option (op.Result × Option (Database Tables))
  | some database =>
      (perform libraries thread op choice ⟨database, clock⟩).map
        fun outcome => (outcome.1, some outcome.2.database)
  | none =>
      match op with
      | .begin => some (faulty choice.fault (), none)
      | .query _ asked => some (.error (.noTable asked.table), none)
      | .exec _ statement => some (.error (.noTable statement.table), none)
      | .commit => some (.ok (), none)
      | .rollback => some ((), none)
      | .now => some (clock, none)
      | .bcrypt password => some (libraries.bcryptGenerate choice.random password, none)

def heldBy (thread : Nat) (connections : List Connection) : Option Nat :=
  connections.findIdx? fun connection => connection.holder = some thread

def runHeld (libraries : Libraries) (thread : Nat) (op : Storage.Op) (choice : Choice)
    (world : World) : Option (op.Result × World) :=
  match heldBy thread world.connections with
  | some index =>
      match world.connections[index]? with
      | some connection =>
          (runOn libraries thread op choice.outcome world.clock connection.database).map
            fun outcome => (outcome.1, ⟨world.connections.set index
              ⟨outcome.2, connection.holder⟩, world.clock⟩)
      | none => none
  | none => none

def performPool (libraries : Libraries) (thread : Nat) :
    (op : Op) → Choice → World → Option (op.Result × World)
  | .acquire, choice, world =>
      if world.connections.all fun connection => connection.holder.isSome then
        some ((), ⟨world.connections ++ [⟨none, some thread⟩], world.clock⟩)
      else
        match world.connections[choice.connection]? with
        | some ⟨database, none⟩ =>
            some ((), ⟨world.connections.set choice.connection ⟨database, some thread⟩,
              world.clock⟩)
        | _ => none
  | .release, _, world =>
      match heldBy thread world.connections with
      | some index =>
          if maxIdle ≤ world.connections.countP (fun connection => connection.holder.isNone)
          then some ((), ⟨world.connections.eraseIdx index, world.clock⟩)
          else some ((), ⟨world.connections.modify index
            fun connection => ⟨connection.database, none⟩, world.clock⟩)
      | none => some ((), world)
  | .run .now, _, world => some (world.clock, world)
  | .run (.bcrypt password), choice, world =>
      some (libraries.bcryptGenerate choice.outcome.random password, world)
  | .run op, choice, world => runHeld libraries thread op choice world

/-- The reference: every operation runs on the one shared database, and there
are no connections to wait for. -/
def performShared (libraries : Libraries) (thread : Nat) :
    (op : Op) → Choice → Storage.World → Option (op.Result × Storage.World)
  | .acquire, _, world => some ((), world)
  | .release, _, world => some ((), world)
  | .run op, choice, world => perform libraries thread op choice.outcome world

/-- A method with the connections it takes. The flag says whether it is in a
transaction; after its end a deferred rollback does nothing. -/
def onConnections {α : Type} : Bool → StoreProgram α → Program Op Op.Result α
  | _, .done value => .done value
  | _, .perform .begin next =>
      .perform .acquire fun _ => .perform (.run .begin) fun result =>
        match result with
        | .ok _ => onConnections true (next (.ok ()))
        | .error error => .perform .release fun _ =>
            onConnections false (next (.error error))
  | inTx, .perform (.query true asked) next =>
      .perform (.run (.query true asked)) fun result => onConnections inTx (next result)
  | inTx, .perform (.query false asked) next =>
      .perform .acquire fun _ => .perform (.run (.query false asked)) fun result =>
        .perform .release fun _ => onConnections inTx (next result)
  | inTx, .perform (.exec true statement) next =>
      .perform (.run (.exec true statement)) fun result => onConnections inTx (next result)
  | inTx, .perform (.exec false statement) next =>
      .perform .acquire fun _ => .perform (.run (.exec false statement)) fun result =>
        .perform .release fun _ => onConnections inTx (next result)
  | _, .perform .commit next =>
      .perform (.run .commit) fun result => .perform .release fun _ =>
        onConnections false (next result)
  | true, .perform .rollback next =>
      .perform (.run .rollback) fun result => .perform .release fun _ =>
        onConnections false (next result)
  | false, .perform .rollback next => onConnections false (next ())
  | inTx, .perform .now next =>
      .perform (.run .now) fun result => onConnections inTx (next result)
  | inTx, .perform (.bcrypt password) next =>
      .perform (.run (.bcrypt password)) fun result => onConnections inTx (next result)

/-- The pool after `New`: one idle connection, on which the tables were created. -/
def opened (clock : Instant) : World where
  connections := [⟨some ⟨Tables.created, none⟩, none⟩]
  clock := clock

def pool (libraries : Libraries) : Machine Op Op.Result World Choice Tick where
  perform := performPool libraries
  environment := fun tick world =>
    match tick with
    | .advance elapsed => some ⟨world.connections, world.clock + elapsed⟩
  restart := fun world => opened world.clock

def shared (libraries : Libraries) : Machine Op Op.Result Storage.World Choice Tick where
  perform := performShared libraries
  environment := fun tick world =>
    match tick with
    | .advance elapsed => some (world.advance elapsed)
  restart := fun world => ⟨⟨Tables.created, none⟩, world.clock⟩

def handler (libraries : Libraries) (call : Call) : Program Op Op.Result Reply :=
  onConnections false (call.run libraries)

abbrev PoolConfig := Config Op Op.Result World Call Reply
abbrev SharedConfig := Config Op Op.Result Storage.World Call Reply
abbrev PoolEvent := Event Call Choice Tick

abbrev nextPool (libraries : Libraries) : PoolConfig → PoolEvent → Option PoolConfig :=
  (pool libraries).next (handler libraries)

abbrev nextShared (libraries : Libraries) : SharedConfig → PoolEvent → Option SharedConfig :=
  (shared libraries).next (handler libraries)

def startPool (clock : Instant) : PoolConfig := Config.start (opened clock)

def startShared (clock : Instant) : SharedConfig :=
  Config.start ⟨⟨Tables.created, none⟩, clock⟩

/-! ## Calls that overlap -/

/-- What is claimed of the store: whatever the schedule, every call returns
what it returns on the one shared database. -/
def OneDatabase (libraries : Libraries) : Prop :=
  ∀ clock events config, AnyRun (nextPool libraries) (startPool clock) events config →
    ∃ reference, AnyRun (nextShared libraries) (startShared clock) events reference ∧
      ∀ thread, (reference.threads thread).response = (config.threads thread).response

/-- A connection is only asked for while no call holds one. -/
def alone (config : PoolConfig) : PoolEvent → Bool
  | .step thread _ =>
      match config.threads thread with
      | .running _ (.perform .acquire _) =>
          config.scene.world.connections.all fun connection => connection.holder.isNone
      | _ => true
  | _ => true

/-- The pool has one connection, and its database is the shared one. -/
def Alike (world : World) (reference : Storage.World) : Prop :=
  ∃ holder, world = ⟨[⟨some reference.database, holder⟩], reference.clock⟩

section Lockstep

variable {libraries : Libraries} {thread : Nat} {choice : Choice}
variable {world reached : World} {reference : Storage.World}

theorem heldBy_single {connection : Connection} {index : Nat}
    (held : heldBy thread [connection] = some index) :
    index = 0 ∧ connection.holder = some thread := by
  simp only [heldBy, List.findIdx?_cons] at held
  split at held
  case isTrue same =>
    cases held
    exact ⟨rfl, by simpa using same⟩
  case isFalse => simp at held

theorem acquire_alike {result : Unit} (alike : Alike world reference)
    (idle : (world.connections.all fun connection => connection.holder.isNone) = true)
    (performed : performPool libraries thread .acquire choice world =
      some (result, reached)) : Alike reached reference := by
  obtain ⟨holder, rfl⟩ := alike
  have free : holder = none := by simpa using idle
  subst free
  simp only [performPool, List.all_cons, List.all_nil, Option.isSome_none,
    Bool.false_and, Bool.false_eq_true, if_false] at performed
  split at performed
  case h_1 database found =>
    obtain ⟨inside, same⟩ := List.getElem?_eq_some_iff.mp found
    have first : choice.connection = 0 := by simpa using inside
    simp only [first, List.getElem_cons_zero, Connection.mk.injEq] at same
    cases performed
    exact ⟨some thread, by simp [first, same.1]⟩
  case h_2 => cases performed

theorem release_alike {result : Unit} (alike : Alike world reference)
    (performed : performPool libraries thread .release choice world =
      some (result, reached)) : Alike reached reference := by
  obtain ⟨holder, rfl⟩ := alike
  simp only [performPool] at performed
  split at performed
  case h_1 index held =>
    obtain ⟨rfl, holds⟩ := heldBy_single held
    simp only at holds
    subst holds
    simp only [List.countP_cons, List.countP_nil, Option.isNone_some, maxIdle] at performed
    cases performed
    exact ⟨none, rfl⟩
  case h_2 =>
    cases performed
    exact ⟨holder, rfl⟩

theorem runHeld_alike {op : Storage.Op} {result : op.Result} (alike : Alike world reference)
    (performed : runHeld libraries thread op choice world = some (result, reached)) :
    ∃ referenceReached, perform libraries thread op choice.outcome reference =
      some (result, referenceReached) ∧ Alike reached referenceReached := by
  obtain ⟨holder, rfl⟩ := alike
  unfold runHeld at performed
  split at performed
  case h_2 => cases performed
  case h_1 index found =>
    obtain ⟨rfl, -⟩ := heldBy_single found
    simp only [List.getElem?_cons_zero, runOn, Option.map_map] at performed
    obtain ⟨⟨value, after⟩, ran, same⟩ := Option.map_eq_some_iff.mp performed
    cases same
    refine ⟨after, ran, holder, ?_⟩
    simp only [List.set_cons_zero, perform_clock ran]

theorem run_alike {op : Storage.Op} {result : op.Result} (alike : Alike world reference)
    (performed : performPool libraries thread (.run op) choice world =
      some (result, reached)) :
    ∃ referenceReached, performShared libraries thread (.run op) choice reference =
      some (result, referenceReached) ∧ Alike reached referenceReached := by
  cases op with
  | now =>
      obtain ⟨holder, rfl⟩ := alike
      cases performed
      exact ⟨reference, rfl, holder, rfl⟩
  | bcrypt password =>
      obtain ⟨holder, rfl⟩ := alike
      cases performed
      exact ⟨reference, rfl, holder, rfl⟩
  | begin => exact runHeld_alike alike performed
  | query inTx asked => exact runHeld_alike alike performed
  | exec inTx statement => exact runHeld_alike alike performed
  | commit => exact runHeld_alike alike performed
  | rollback => exact runHeld_alike alike performed

end Lockstep

/-- As long as a connection is only asked for while no call holds one, the
pool is one database: it has one connection, and every call returns what it
returns on the shared database. -/
theorem alone_oneDatabase {libraries : Libraries} {clock : Instant}
    {events : List PoolEvent} {config : PoolConfig}
    (run : Run (nextPool libraries) (fun config event => alone config event = true)
      (startPool clock) events config) :
    ∃ reference, AnyRun (nextShared libraries) (startShared clock) events reference ∧
      reference.threads = config.threads ∧
      Alike config.scene.world reference.scene.world := by
  have matched : ∃ reference, AnyRun (nextShared libraries) (startShared clock) events
      reference ∧ Machine.Matched Alike config reference := by
    refine Machine.lockstep run ?_ ?_ ?_ ⟨⟨none, rfl⟩, rfl⟩
    · intro state thread choice op result reached reference permitted running alike performed
      have performed : performPool libraries thread op choice state.scene.world =
          some (result, reached) := performed
      cases op with
      | acquire =>
          obtain ⟨request, rest, status⟩ := running
          simp only [alone, status] at permitted
          exact ⟨reference, rfl, acquire_alike alike permitted performed⟩
      | release => exact ⟨reference, rfl, release_alike alike performed⟩
      | run op => exact run_alike alike performed
    · rintro tick world reference reached ⟨holder, rfl⟩ happened
      cases tick
      cases happened
      exact ⟨_, rfl, holder, rfl⟩
    · rintro world reference ⟨holder, rfl⟩
      exact ⟨none, rfl⟩
  obtain ⟨reference, referenceRun, alike, threads⟩ := matched
  exact ⟨reference, referenceRun, threads, alike⟩

/-- A message is saved and then read. -/
def oneByOne : List PoolEvent :=
  let step := fun thread => Event.step thread (Choice.mk 0 .plain)
  [.arrive 0 (.save ⟨utf8 "hello", [], utf8 "alice", 0⟩), .arrive 1 (.sync 0 0),
    step 0, step 0, step 0, step 1, step 1, step 1]

theorem oneByOne_oneDatabase : ∃ config : PoolConfig, ∃ reference,
    AnyRun (nextShared Libraries.transparent) (startShared 0) oneByOne reference ∧
      reference.threads = config.threads ∧
      Alike config.scene.world reference.scene.world ∧
      (config.threads 1).response =
        some (.messages (.ok [(1, ⟨utf8 "hello", [], utf8 "alice", 0⟩)])) := by
  have executed : (executeWhere (nextPool Libraries.transparent) alone (startPool 0)
      oneByOne).map (fun config => (config.threads 1).response) =
      some (some (.messages (.ok [(1, ⟨utf8 "hello", [], utf8 "alice", 0⟩)]))) := by rfl
  obtain ⟨config, reached, answer⟩ := Option.map_eq_some_iff.mp executed
  obtain ⟨reference, run, threads, alike⟩ :=
    alone_oneDatabase (run_of_executeWhere reached)
  exact ⟨config, reference, run, threads, alike, answer⟩

/-- A message is saved; then two calls of `Sync` overlap. -/
def overlap : List PoolEvent :=
  let step := fun thread => Event.step thread (Choice.mk 0 .plain)
  [.arrive 0 (.save ⟨utf8 "hello", [], utf8 "alice", 0⟩), step 0, step 0, step 0,
    .arrive 1 (.sync 0 0), .arrive 2 (.sync 0 0), step 1, step 2, step 1, step 2, step 2]

/-- The second of the two finds no table on the connection opened for it. -/
theorem not_oneDatabase : ¬ OneDatabase Libraries.transparent := by
  intro oneDatabase
  have executed : (execute (nextPool Libraries.transparent) (startPool 0) overlap).map
      (fun config => (config.threads 2).response) =
      some (some (.messages (.error (utf8 "SQL logic error: no such table: messages (1)")))) := by
    rfl
  have expected : (execute (nextShared Libraries.transparent) (startShared 0) overlap).map
      (fun config => (config.threads 2).response) =
      some (some (.messages (.ok [(1, ⟨utf8 "hello", [], utf8 "alice", 0⟩)]))) := by
    rfl
  obtain ⟨config, reached, missing⟩ := Option.map_eq_some_iff.mp executed
  obtain ⟨reference, run, same⟩ := oneDatabase 0 overlap config (run_of_execute reached)
  rw [execute_of_run run] at expected
  have different := (same 2).symm.trans (Option.some.inj expected)
  rw [missing] at different
  cases different

end Grunt.Storage.Pool
