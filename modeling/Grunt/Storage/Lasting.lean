import Grunt.Storage.Registration

/-! # Commits that leave their transaction open

A `COMMIT` that finds the database busy fails, and SQLite keeps the transaction.
For `database/sql` a transaction is done once `Commit` has been called: the
deferred `Rollback` does nothing then, and the connection goes back to the pool.
Whoever gets this connection next works inside the transaction, which ends when
the pool closes the connection.
-/

namespace Grunt.Storage.Lasting

open Foundation

structure World where
  store : Storage.World
  /-- The session whose transaction is open on a connection of the pool. -/
  abandoned : Option Nat

structure Choice where
  outcome : Storage.Choice
  /-- A `COMMIT`, if it fails, leaves its transaction open. -/
  lasting : Bool
  /-- The connection is the one with the abandoned transaction, if there is one. -/
  reused : Bool
deriving DecidableEq, Repr

/-- Nothing fails, on a connection without a transaction. -/
def Choice.plain : Choice where
  outcome := .plain
  lasting := false
  reused := false

/-- The transaction that is open on the connection a call gets. -/
def World.found (world : World) (choice : Choice) : Option Nat :=
  if choice.reused then world.abandoned else none

def World.run (libraries : Libraries) (session : Nat) (op : Op) (choice : Choice)
    (world : World) : Option (op.Result × World) :=
  (perform libraries session op choice.outcome world.store).map
    fun done => (done.1, { world with store := done.2 })

def performPooled (libraries : Libraries) (thread : Nat) :
    (op : Op) → Choice → World → Option (op.Result × World)
  | .begin, choice, world =>
      match world.found choice with
      | some _ => some (.error .nested, world)
      | none => world.run libraries thread .begin choice
  | .query false asked, choice, world =>
      match world.found choice with
      | some session => world.run libraries session (.query true asked) choice
      | none => world.run libraries thread (.query false asked) choice
  | .exec false statement, choice, world =>
      match world.found choice with
      | some session => world.run libraries session (.exec true statement) choice
      | none => world.run libraries thread (.exec false statement) choice
  | .commit, choice, world =>
      if choice.outcome.fault && choice.lasting then
        some (.error .fault, { world with abandoned := some thread })
      else world.run libraries thread .commit choice
  | .rollback, choice, world =>
      -- `sql.ErrTxDone`
      if world.abandoned = some thread then some ((), world)
      else world.run libraries thread .rollback choice
  | op, choice, world => world.run libraries thread op choice

inductive Happening
  | elapse (tick : Tick)
  /-- The pool closes its idle connections. -/
  | close

def World.close (world : World) : World where
  store :=
    match world.abandoned with
    | some session => world.store.without session
    | none => world.store
  abandoned := none

def pooled (libraries : Libraries) : Machine Op Op.Result World Choice Happening where
  perform := performPooled libraries
  environment := fun happening world =>
    match happening with
    | .elapse tick => ((machine libraries).environment tick world.store).map fun store =>
        { world with store := store }
    | .close => some world.close
  restart := fun world => ⟨world.store.recover, none⟩

abbrev PooledConfig := Config Op Op.Result World Call Reply
abbrev PooledEvent := Event Call Choice Happening

abbrev nextPooled (libraries : Libraries) : PooledConfig → PooledEvent → Option PooledConfig :=
  (pooled libraries).next (Call.run libraries)

def tidy (store : Storage.World) : World := ⟨store, none⟩

def startPooled (clock : Instant) : PooledConfig := (start clock).map tidy

def PooledConfig.tables (config : PooledConfig) : Tables :=
  config.scene.world.store.database.committed

/-! ## What is claimed -/

/-- No `COMMIT` that fails in this step leaves its transaction open. -/
abbrev Undone (event : PooledEvent) : Prop :=
  Machine.OnlyChoices (fun choice => choice.lasting = false) event

def LeavesCommitted (libraries : Libraries) (thread : Nat) (config : PooledConfig)
    (event : PooledEvent) : Prop :=
  event.thread = some thread → ∀ after, nextPooled libraries config event = some after →
    PooledConfig.tables after = PooledConfig.tables config

/-- What the calls of `RegisterWithInvite` in a run have done by its end. -/
structure Atomic (libraries : Libraries) (clock : Instant) (events : List PooledEvent)
    (config : PooledConfig) : Prop where
  /-- No two successful calls consumed the same code. -/
  singleUse : ∀ one two code oneUser onePassword twoUser twoPassword,
    config.threads one = .running (.registerWithInvite code oneUser onePassword)
      (.done (.bool (.ok true))) →
    config.threads two = .running (.registerWithInvite code twoUser twoPassword)
      (.done (.bool (.ok true))) →
    one = two
  /-- An invite that is used stays as it is. -/
  permanent : ∀ later (final : PooledConfig),
    Run (nextPooled libraries) (fun _ => Undone) config later final →
    ∀ row ∈ (PooledConfig.tables config).invites.rows, row.usedAt.isSome →
      row ∈ (PooledConfig.tables final).invites.rows
  /-- A successful call is the only one whose invite names its user. It took
  effect in one step, which marked an unexpired invite and created the user. -/
  success : ∀ thread code user password,
    config.threads thread = .running (.registerWithInvite code user password)
      (.done (.bool (.ok true))) →
    (∃ row ∈ (PooledConfig.tables config).invites.rows, row.code = code ∧
      row.usedAt.isSome ∧ row.usedByUser = some user ∧
      ∀ other ∈ (PooledConfig.tables config).invites.rows,
        other.usedByUser = some user → other = row) ∧
    ∃ earlier choice later before after,
      events = earlier ++ .step thread choice :: later ∧
      Run (nextPooled libraries) (LeavesCommitted libraries thread) (startPooled clock) earlier
        before ∧
      nextPooled libraries before (.step thread choice) = some after ∧
      Run (nextPooled libraries) (LeavesCommitted libraries thread) after later config ∧
      Registration thread code user (before.map World.store).scene (after.map World.store).scene
  /-- A call that fails never changes a table, and without it the run would
  have left the same tables and the same calls. -/
  failure : ∀ thread code user password error,
    config.threads thread = .running (.registerWithInvite code user password)
      (.done (.bool (.error error))) →
    Run (nextPooled libraries) (LeavesCommitted libraries thread) (startPooled clock) events
      config ∧
    ∃ shadow : PooledConfig, AnyRun (nextPooled libraries) (startPooled clock)
        (events.filter fun event => event.thread ≠ some thread) shadow ∧
      PooledConfig.tables shadow = PooledConfig.tables config ∧
      ∀ other, other ≠ thread → shadow.threads other = config.threads other

/-! ## Where every failed commit is undone -/

def Happening.tidied : Happening → Tick
  | .elapse tick => tick
  | .close => .advance 0

section Tidy

variable {libraries : Libraries}

theorem found_tidy (store : Storage.World) (choice : Choice) : (tidy store).found choice = none := by
  unfold World.found
  split <;> rfl

theorem embeds_tidy (libraries : Libraries) :
    Machine.Embeds (machine libraries) (pooled libraries) tidy Choice.outcome Happening.tidied
      (fun choice => choice.lasting = false) where
  perform := fun thread op choice store undone => by
    have run : ∀ op : Op, (tidy store).run libraries thread op choice =
        (perform libraries thread op choice.outcome store).map fun done =>
          (done.1, tidy done.2) := fun _ => rfl
    change performPooled libraries thread op choice (tidy store) =
      (perform libraries thread op choice.outcome store).map _
    cases op with
    | begin => rw [performPooled, found_tidy, run]
    | query inTx asked =>
        cases inTx with
        | false => rw [performPooled, found_tidy, run]
        | true => exact run _
    | exec inTx statement =>
        cases inTx with
        | false => rw [performPooled, found_tidy, run]
        | true => exact run _
    | commit => rw [performPooled, undone, Bool.and_false, if_neg Bool.false_ne_true, run]
    | rollback =>
        have kept : (tidy store).abandoned ≠ some thread := nofun
        rw [performPooled, if_neg kept, run]
    | now => exact run _
    | bcrypt password => exact run _
  environment := fun happening store => by
    cases happening with
    | elapse tick => rfl
    | close =>
        have still : store.advance 0 = store := by
          rw [Storage.World.advance]
          simp
        exact congrArg (fun later => some (tidy later)) still.symm
  restart := fun _ => rfl

variable {clock : Instant} {events : List PooledEvent} {config : PooledConfig}
variable {inner : StoreConfig} {thread : Nat}

abbrev tidied (events : List PooledEvent) : List StoreEvent :=
  events.map (Event.map Choice.outcome Happening.tidied)

theorem leavesCommitted_of_leaves {event : PooledEvent} (undone : Undone event)
    (leaves : Leaves libraries thread inner (event.map Choice.outcome Happening.tidied)) :
    LeavesCommitted libraries thread (inner.map tidy) event := by
  intro own after taken
  rw [nextPooled, (embeds_tidy libraries).next undone] at taken
  obtain ⟨later, innerTaken, rfl⟩ := Option.map_eq_some_iff.mp taken
  exact leaves ((Event.thread_map _ _ event).trans own) later innerTaken

theorem run_leavesCommitted {after : StoreConfig} (undone : ∀ event ∈ events, Undone event)
    (run : Run (next libraries) (Leaves libraries thread) inner (tidied events) after) :
    Run (nextPooled libraries) (LeavesCommitted libraries thread) (inner.map tidy) events
      (after.map tidy) :=
  (embeds_tidy libraries).run_outer run
    (fun _ event member => leavesCommitted_of_leaves (undone event member)) undone

theorem success_of_inner (undone : ∀ event ∈ events, Undone event)
    (run : AnyRun (next libraries) (start clock) (tidied events) inner)
    {code user password : ByteString} (succeeded : inner.threads thread =
      .running (.registerWithInvite code user password) (.done (.bool (.ok true)))) :
    ∃ earlier choice later before after,
      events = earlier ++ .step thread choice :: later ∧
      Run (nextPooled libraries) (LeavesCommitted libraries thread) (startPooled clock) earlier
        before ∧
      nextPooled libraries before (.step thread choice) = some after ∧
      Run (nextPooled libraries) (LeavesCommitted libraries thread) after later
        (inner.map tidy) ∧
      Registration thread code user (before.map World.store).scene
        (after.map World.store).scene := by
  obtain ⟨earlier, choice, later, before, after, split, first, taken, rest, registration⟩ :=
    commit_of_success run succeeded
  obtain ⟨early, others, rfl, rfl, tail⟩ := List.map_eq_append_iff.mp split
  obtain ⟨event, late, rfl, committed, rfl⟩ := List.map_eq_cons_iff.mp tail
  obtain ⟨outer, rfl, rfl⟩ : ∃ outer, event = .step thread outer ∧ outer.outcome = choice := by
    cases event with
    | step stepping outer =>
        cases committed
        exact ⟨outer, rfl, rfl⟩
    | arrive | environment | restart => cases committed
  have permitted := undone _ (List.mem_append_right early List.mem_cons_self)
  refine ⟨early, outer, late, before.map tidy, after.map tidy, rfl, ?_, ?_, ?_, registration⟩
  · exact run_leavesCommitted (fun event member =>
      undone event (List.mem_append_left _ member)) first
  · rw [nextPooled, (embeds_tidy libraries).next permitted]
    exact congrArg (Option.map (Config.map tidy)) taken
  · exact run_leavesCommitted (fun event member =>
      undone event (List.mem_append_right early (List.mem_cons_of_mem _ member))) rest

theorem failure_of_inner (undone : ∀ event ∈ events, Undone event)
    (run : AnyRun (next libraries) (start clock) (tidied events) inner)
    {code user password : ByteString} {error : Error} (failed : inner.threads thread =
      .running (.registerWithInvite code user password) (.done (.bool (.error error)))) :
    Run (nextPooled libraries) (LeavesCommitted libraries thread) (startPooled clock) events
        (inner.map tidy) ∧
      ∃ shadow : PooledConfig, AnyRun (nextPooled libraries) (startPooled clock)
          (events.filter fun event => event.thread ≠ some thread) shadow ∧
        PooledConfig.tables shadow = PooledConfig.tables (inner.map tidy) ∧
        ∀ other, other ≠ thread → shadow.threads other = inner.threads other := by
  obtain ⟨quiet, shadow, shadowRun, tables, threads⟩ := erased_of_failure run failed
  refine ⟨run_leavesCommitted undone quiet, shadow.map tidy, ?_, tables, threads⟩
  have remaining : (tidied events).filter (fun event => event.thread ≠ some thread) =
      tidied (events.filter fun event => event.thread ≠ some thread) := by
    rw [List.filter_map]
    congr 2
    funext event
    simp only [Function.comp_apply, Event.thread_map]
  rw [remaining] at shadowRun
  exact (embeds_tidy libraries).run_outer shadowRun (fun _ _ _ _ => trivial)
    fun event member => undone event (List.mem_filter.mp member).1

theorem undone_of_run {initial : PooledConfig}
    (run : Run (nextPooled libraries) (fun _ => Undone) initial events config) :
    ∀ event ∈ events, Undone event := by
  induction run with
  | nil => exact fun event member => absurd member List.not_mem_nil
  | cons permitted _ _ induction =>
      intro event member
      rcases List.mem_cons.mp member with rfl | later
      · exact permitted
      · exact induction event later

/-- Invites are single-use and registration is atomic, however the calls of the
store overlap, as long as every commit that fails is undone. -/
theorem registration_atomic
    (run : Run (nextPooled libraries) (fun _ => Undone) (startPooled clock) events config) :
    Atomic libraries clock events config := by
  have undone := undone_of_run run
  obtain ⟨inner, rfl, innerRun⟩ := (embeds_tidy libraries).run_inner run undone
  constructor
  · intro one two code oneUser onePassword twoUser twoPassword oneSucceeded twoSucceeded
    exact eq_of_success innerRun oneSucceeded twoSucceeded
  · intro later final rest row member used
    obtain ⟨innerFinal, rfl, innerRest⟩ :=
      (embeds_tidy libraries).run_inner rest (undone_of_run rest)
    exact used_of_run innerRun innerRest row member used
  · intro thread code user password succeeded
    exact ⟨invite_of_success innerRun succeeded, success_of_inner undone innerRun succeeded⟩
  · intro thread code user password error failed
    exact failure_of_inner undone innerRun failed

end Tidy

def race : List PooledEvent :=
  let alice := Call.registerWithInvite (utf8 "code") (utf8 "alice") (utf8 "secret")
  let bob := Call.registerWithInvite (utf8 "code") (utf8 "bob") []
  [.arrive 0 (.createInvite (utf8 "code") (600 * Calendar.second) []),
    .step 0 .plain, .arrive 1 alice, .arrive 2 bob] ++
  [1, 2, 1, 2, 1, 2, 1, 2, 1, 1, 1, 1, 1, 2, 2].map fun thread => .step thread .plain

theorem race_outcome : ∃ config : PooledConfig,
    Atomic Libraries.transparent 0 race config ∧
      (PooledConfig.tables config).users.rows.map UserRow.user = [utf8 "alice"] ∧
      (config.threads 1).response = some (.bool (.ok true)) ∧
      (config.threads 2).response =
        some (.bool (.error (utf8 "invite code already used"))) := by
  have executed : (execute (nextPooled Libraries.transparent) (startPooled 0) race).map
      (fun config => ((PooledConfig.tables config).users.rows.map UserRow.user,
        (config.threads 1).response, (config.threads 2).response)) =
      some ([utf8 "alice"], some (.bool (.ok true)),
        some (.bool (.error (utf8 "invite code already used")))) := by rfl
  obtain ⟨config, reached, outcome⟩ := Option.map_eq_some_iff.mp executed
  have undone : Run (nextPooled Libraries.transparent) (fun _ => Undone) (startPooled 0) race
      config := by
    refine (run_of_execute reached).restrict fun event member => ?_
    rintro thread choice rfl
    simp [race] at member
    have same : choice = .plain := by tauto
    rw [same]
    rfl
  refine ⟨config, registration_atomic undone, ?_⟩
  simpa only [Prod.mk.injEq] using outcome

/-! ## A commit that is not undone -/

/-- Alice's commit finds the database busy. Bob then registers with the same code,
on the connection that she has left. -/
def busy : List PooledEvent :=
  let alice := Call.registerWithInvite (utf8 "code") (utf8 "alice") []
  let bob := Call.registerWithInvite (utf8 "code") (utf8 "bob") []
  [.arrive 0 (.createInvite (utf8 "code") (600 * Calendar.second) []), .step 0 .plain,
    .arrive 1 alice] ++
  List.replicate 6 (.step 1 .plain) ++
  [.step 1 ⟨⟨true, []⟩, true, false⟩, .step 1 .plain, .arrive 2 bob,
    .step 2 ⟨.plain, false, true⟩]

/-- Alice gets an error, and Bob too, who would have got a transaction without
her. -/
theorem busy_not_atomic : ¬ ∀ libraries clock events config,
    AnyRun (nextPooled libraries) (startPooled clock) events config →
      Atomic libraries clock events config := by
  intro atomic
  have executed : (execute (nextPooled Libraries.transparent) (startPooled 0) busy).map
      (fun config => ((config.threads 1).request, (config.threads 1).response,
        (config.threads 2).response)) =
      some (some (.registerWithInvite (utf8 "code") (utf8 "alice") []),
        some (.bool (.error
          (utf8 "commit transaction: database is locked (5) (SQLITE_BUSY)"))),
        some (.bool (.error (utf8 "begin transaction: SQL logic error: " ++
          utf8 "cannot start a transaction within a transaction (1)")))) := by rfl
  obtain ⟨config, reached, outcome⟩ := Option.map_eq_some_iff.mp executed
  simp only [Prod.mk.injEq] at outcome
  obtain ⟨arrived, failed, refused⟩ := outcome
  have whole := atomic Libraries.transparent 0 busy config (run_of_execute reached)
  obtain ⟨-, shadow, run, -, others⟩ :=
    whole.failure 1 _ _ _ _ (Thread.eq_done arrived failed)
  have alone : (execute (nextPooled Libraries.transparent) (startPooled 0)
      (busy.filter fun event => event.thread ≠ some 1)).map
        (fun config => (config.threads 2).response) = some none := by rfl
  rw [execute_of_run run, Option.map_some, others 2 (by decide), refused] at alone
  cases alone

end Grunt.Storage.Lasting
