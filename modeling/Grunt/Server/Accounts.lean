import Grunt.Server.Staging
import Grunt.Storage.Roll

/-! # Accounts, admins and what refers to them

The invariant of the users while requests overlap, and what each operation
needs to keep it. How far a registration has come is read off the operations
that its thread has performed.
-/

namespace Grunt.Server

open Foundation Storage

/-! ## How far a registration has come -/

inductive Standing
  /-- No commit has succeeded. -/
  | fresh
  /-- The user has been created, and the users have not been counted since. -/
  | created
  /-- There was one user, whom the next statement makes an admin. -/
  | first
  | settled
deriving DecidableEq, Repr

namespace Standing

/-- After `CreateUserCount`. -/
def ofCount : Except SqlError Nat → Standing
  | .ok count => if count = 1 then .first else .settled
  | .error _ => .settled

def step : Standing → Performed Op Op.Result → Standing
  | .fresh, ⟨_, .store .commit, .ok _⟩ => .created
  | .created, ⟨_, .store (.query false .userCount), count⟩ => ofCount count
  | .first, ⟨_, .store (.exec false (.setUserAdmin _)), _⟩ => .settled
  | standing, _ => standing

def of (seen : List (Performed Op Op.Result)) : Standing := seen.foldl step .fresh

end Standing

def Op.isMarked : Op → Bool
  | .store .commit | .store (.query false .userCount) | .store (.exec false (.setUserAdmin _)) =>
      true
  | _ => false

namespace Standing

variable {standing : Standing} {thread : Nat} {op : Op} {result : op.Result}

theorem of_append (seen : List (Performed Op Op.Result)) (performed : Performed Op Op.Result) :
    of (seen ++ [performed]) = step (of seen) performed := by
  simp [of]

theorem step_of_unmarked (unmarked : op.isMarked = false) :
    step standing ⟨thread, op, result⟩ = standing := by
  cases op with
  | store op =>
      cases op with
      | commit => cases unmarked
      | query inTx asked =>
          cases inTx <;> cases asked <;> first | (cases standing <;> rfl) | cases unmarked
      | exec inTx statement =>
          cases inTx <;> cases statement <;> first | (cases standing <;> rfl) | cases unmarked
      | begin | rollback | now | bcrypt => cases standing <;> rfl
  | nanoid | random | putToken | checkToken | broadcast | register | writePump | renderContent
    | readFile => cases standing <;> rfl

theorem step_fresh (other : op ≠ .store .commit) :
    step .fresh ⟨thread, op, result⟩ = .fresh := by
  cases op with
  | store op =>
      cases op with
      | commit => exact absurd rfl other
      | query inTx asked => cases inTx <;> cases asked <;> rfl
      | exec inTx statement => cases inTx <;> cases statement <;> rfl
      | begin | rollback | now | bcrypt => rfl
  | nanoid | random | putToken | checkToken | broadcast | register | writePump | renderContent
    | readFile => rfl

theorem step_settled : step .settled ⟨thread, op, result⟩ = .settled := by
  cases op with
  | store op =>
      cases op with
      | query inTx asked => cases inTx <;> cases asked <;> rfl
      | exec inTx statement => cases inTx <;> cases statement <;> rfl
      | begin | commit | rollback | now | bcrypt => rfl
  | nanoid | random | putToken | checkToken | broadcast | register | writePump | renderContent
    | readFile => rfl

end Standing

namespace ServerScene

def tables (scene : ServerScene) : Tables := scene.world.tables

def standing (scene : ServerScene) (thread : Nat) : Standing := .of (scene.own thread)

end ServerScene

/-! ## The invariant -/

/-- What a run may be assumed to respect. -/
structure Terms where
  /-- A key is only made for a user. -/
  keys : Prop
  /-- Nothing gets between the first user and its grant. -/
  first : Prop

/-- Another registration may commit now without taking the grant from the first. -/
def Opens (scene : ServerScene) : Prop :=
  scene.tables.roll = [] ∨ scene.tables.admins ≠ [] ∨ ∃ other, scene.standing other = .first

def Terms.allow (terms : Terms) (op : Op) (choice : Choice) (scene : ServerScene) : Prop :=
  match op with
  | .store (.exec false (.insertAPIKey userID _ _ _)) =>
      terms.keys → choice.fault = false → scene.tables.HasUser userID
  | .store .commit => terms.first → choice.fault = false → Opens scene
  | .store (.query false .userCount) =>
      terms.first → choice.fault = true → scene.tables.roll.length ≠ 1 ∨ scene.tables.admins ≠ []
  | .store (.exec false (.setUserAdmin _)) => terms.first → choice.fault = false
  | _ => True

def Pending (scene : ServerScene) (thread : Nat) : Prop :=
  (scene.standing thread = .created ∧ scene.tables.roll.length = 1) ∨
    scene.standing thread = .first

structure Accounts (terms : Terms) (scene : ServerScene) : Prop where
  led : scene.tables.Led
  sessions : ∀ token entry, scene.world.tokens token = some entry →
    scene.tables.HasUser entry.userID
  created : ∀ thread, scene.standing thread ≠ .fresh → scene.tables.roll ≠ []
  keys : terms.keys → scene.tables.ForeignKeys
  /-- Without an admin, the registration that came first is on its way to the grant. -/
  first : terms.first → scene.tables.roll ≠ [] → scene.tables.admins = [] →
    ∃ thread, Pending scene thread

def Draft (thread : Nat) (added : List (ByteString × Bool)) (scene : ServerScene) : Prop :=
  ∀ tables, scene.world.store.database.writer = some (thread, tables) →
    tables.roll = scene.tables.roll ++ added ∧ tables.apiKeys = scene.tables.apiKeys

def Due (thread : Nat) (scene : ServerScene) : Op → Prop
  | .putToken _ userID _ => scene.tables.HasUser userID
  | .store (.exec false (.insertUser _ _)) => scene.tables.admins ≠ []
  | .store (.exec false (.setUserAdmin user)) => scene.tables.Heads user
  | .store (.exec false (.insertAPIKey _ adminUserID _ _)) => scene.tables.HasUser adminUserID
  | .store .commit => scene.standing thread = .fresh ∧
      scene.world.store.database.HeldBy thread ∧ ∃ user, Draft thread [(user, false)] scene
  | _ => True

/-! ## One operation -/

section Operations

variable {platform : Platform} {thread : Nat} {choice : Choice} {op : Op} {result : op.Result}

theorem tokens_of_perform {world after : World}
    (performed : perform platform thread op choice world = some (result, after))
    {token : ByteString} {entry : TokenEntry} (found : after.tokens token = some entry) :
    world.tokens token = some entry ∨ op = .putToken token entry.userID entry.expiry := by
  cases touches_of_perform performed with
  | nothing | store | broadcast | register => exact .inl found
  | @putToken put userID expiry =>
      by_cases same : token = put
      · subst same
        simp only [World.setTokens, Function.update_self, Option.some.injEq] at found
        exact .inr (by rw [← found])
      · simp only [World.setTokens, Function.update_of_ne same] at found
        exact .inl found
  | @expire checked expired =>
      by_cases same : token = checked
      · subst same
        simp [World.setTokens] at found
      · simp only [World.setTokens, Function.update_of_ne same] at found
        exact .inl found

variable {before after : ServerScene}

theorem performed_of_observe
    (observed : (machine platform).observe thread op choice before = some (result, after)) :
    perform platform thread op choice before.world = some (result, after.world) :=
  (Machine.observe_eq_some.mp observed).1

theorem standing_of_observe
    (observed : (machine platform).observe thread op choice before = some (result, after)) :
    after.standing thread = (before.standing thread).step ⟨thread, op, result⟩ := by
  rw [ServerScene.standing, Machine.own_of_observe observed, Standing.of_append]
  rfl

theorem standing_of_observe_other {other : Nat} (different : other ≠ thread)
    (observed : (machine platform).observe thread op choice before = some (result, after)) :
    after.standing other = before.standing other := by
  rw [ServerScene.standing, Machine.own_of_observe_other different observed]
  rfl

theorem standing_of_unmarked (unmarked : op.isMarked = false)
    (observed : (machine platform).observe thread op choice before = some (result, after))
    (other : Nat) : after.standing other = before.standing other := by
  by_cases same : other = thread
  · subst same
    rw [standing_of_observe observed, Standing.step_of_unmarked unmarked]
  · exact standing_of_observe_other same observed

/-- How the users change when a thread does what is due. -/
inductive Enrolment (before after : ServerScene) : Op → Prop
  | same {op : Op} : after.tables.roll = before.tables.roll → Enrolment before after op
  | insert {user : ByteString} {hash : Option ByteString} : before.tables.admins ≠ [] →
      after.tables.roll = before.tables.roll ++ [(user, false)] →
      Enrolment before after (.store (.exec false (.insertUser user hash)))
  | commit {user : ByteString} :
      after.tables.roll = before.tables.roll ++ [(user, false)] →
      Enrolment before after (.store .commit)
  | grant {user : ByteString} : before.tables.Heads user →
      after.tables.roll = before.tables.roll.map (Tables.grant user) →
      Enrolment before after (.store (.exec false (.setUserAdmin user)))

theorem Enrolment.grows (enrolment : Enrolment before after op) :
    before.tables.Grows after.tables := by
  cases enrolment with
  | same same => exact .of_roll_eq same
  | insert governed rows => exact .of_append rows
  | commit rows => exact .of_append rows
  | grant heads granted => exact Tables.grows_of_grant granted

theorem Enrolment.led (enrolment : Enrolment before after op) (led : before.tables.Led) :
    after.tables.Led := by
  cases enrolment with
  | same same => exact led.of_roll_eq same
  | insert governed rows => exact led.of_append rows (by simp)
  | commit rows => exact led.of_append rows (by simp)
  | grant heads granted => exact led.of_grant granted heads

theorem commit_of_observe {added : List (ByteString × Bool)} {result : Except SqlError Unit}
    (held : before.world.store.database.HeldBy thread) (draft : Draft thread added before)
    (observed : (machine platform).observe thread (.store .commit) choice before =
      some (result, after)) :
    (after.tables = before.tables ∧ ∃ error, result = .error error) ∨
      (result = .ok () ∧ choice.fault = false ∧
        after.tables.apiKeys = before.tables.apiKeys ∧
        after.tables.roll = before.tables.roll ++ added) := by
  obtain ⟨tables, writer⟩ := held
  have performed := perform_store (performed_of_observe observed)
  obtain ⟨roll, apiKeys⟩ := draft tables writer
  cases fault : choice.fault with
  | true =>
      rcases perform_commit performed with ⟨failed, same⟩ | ⟨succeeded, same⟩
      · refine .inl ⟨?_, _, failed⟩
        simp only [ServerScene.tables, World.tables, same, Storage.World.setDatabase_database,
          Database.rollback_committed]
      · simp only [Storage.perform, Storage.World.commit, fault, if_true] at performed
        rw [succeeded] at performed
        cases performed
  | false =>
      rcases perform_commit performed with ⟨failed, same⟩ | ⟨succeeded, same⟩
      · simp only [Storage.perform, Storage.World.commit, fault] at performed
        rw [failed] at performed
        cases performed
      · have committed : after.tables = tables := by
          simp only [ServerScene.tables, World.tables, same, Storage.World.setDatabase_database,
            Database.commit_of_held writer]
        exact .inr ⟨succeeded, rfl, committed ▸ apiKeys, committed ▸ roll⟩

theorem enrolment_of_observe (due : Due thread before op)
    (observed : (machine platform).observe thread op choice before = some (result, after)) :
    Enrolment before after op := by
  cases changes_of_perform (performed_of_observe observed) with
  | unchanged same => exact .same (congrArg Tables.roll same)
  | @statement statement outcome idle applied =>
      cases Statement.enrols_of_apply applied with
      | same same => exact .same same
      | insertUser rows => exact .insert due rows
      | setUserAdmin granted => exact .grant due granted
  | commit held =>
      obtain ⟨-, owned, user, draft⟩ := due
      rcases commit_of_observe owned draft observed with ⟨same, -⟩ | ⟨-, -, -, rows⟩
      · exact .same (congrArg Tables.roll same)
      · exact .commit rows

/-! ### Faults -/

theorem faultless_of_exec {statement : Statement} {outcome : Outcome} {world reached : World}
    (performed : perform platform thread (.store (.exec false statement)) choice world =
      some ((.ok outcome : Except SqlError Outcome), reached)) : choice.fault = false := by
  rcases exec_cases (perform_store performed) with ⟨-, failed, -⟩ | ⟨faultless, -⟩
  · cases failed
  · exact faultless

theorem admins_of_grant {user : ByteString} {result : Except SqlError Outcome}
    (heads : before.tables.Heads user) (faultless : choice.fault = false)
    (observed : (machine platform).observe thread (.store (.exec false (.setUserAdmin user))) choice
      before = some (result, after)) : after.tables.admins ≠ [] := by
  rcases exec_cases (perform_store (performed_of_observe observed)) with
    ⟨fault, -⟩ | ⟨-, -, ⟨outcome, tables, -, applied, same⟩ | ⟨_, -, applied, -⟩⟩
  · rw [faultless] at fault
    cases fault
  · have granted : after.tables.roll = before.tables.roll.map (Tables.grant user) := by
      simp only [ServerScene.tables, World.tables, same, Storage.World.setDatabase_database]
      exact Statement.roll_of_grant applied
    exact List.ne_nil_of_mem (Tables.admin_of_grant granted (Tables.hasUser_of_heads heads))
  · cases applied

theorem count_of_observe {result : Except SqlError Nat}
    (observed : (machine platform).observe thread (.store (.query false .userCount)) choice before =
      some (result, after)) :
    (choice.fault = true ∧ ∃ error, result = .error error) ∨
      (choice.fault = false ∧ result = .ok before.tables.roll.length) := by
  have answered : faulty choice.fault before.tables.users.rows.length = result :=
    congrArg Prod.fst (Option.some.inj (perform_store (performed_of_observe observed)))
  rw [← answered]
  unfold faulty
  cases choice.fault with
  | true => exact .inl ⟨rfl, _, rfl⟩
  | false => exact .inr ⟨rfl, by simp [Tables.roll]⟩

/-! ### The invariant -/

section Kept

variable {terms : Terms}

theorem Pending.of_same (pending : Pending before thread)
    (standing : after.standing thread = before.standing thread)
    (roll : after.tables.roll = before.tables.roll) : Pending after thread := by
  unfold Pending
  rw [standing, roll]
  exact pending

theorem pending_of_commit {result : Except SqlError Unit}
    (opens : choice.fault = false → Opens before)
    (pending : before.tables.roll ≠ [] → ∃ thread, Pending before thread)
    (nobody : before.tables.admins = [])
    (due : Due thread before (.store .commit))
    (observed : (machine platform).observe thread (.store .commit) choice before =
      some (result, after)) (some : after.tables.roll ≠ []) :
    ∃ thread, Pending after thread := by
  obtain ⟨fresh, held, user, draft⟩ := due
  have others : ∀ other, before.standing other ≠ .fresh →
      after.standing other = before.standing other := by
    intro other started
    refine standing_of_observe_other ?_ observed
    rintro rfl
    exact started fresh
  rcases commit_of_observe held draft observed with ⟨same, -⟩ | ⟨rfl, faultless, -, rows⟩
  · obtain ⟨other, waits⟩ := pending (same ▸ some)
    refine ⟨other, waits.of_same (others other ?_) (congrArg Tables.roll same)⟩
    rcases waits with ⟨created, -⟩ | first
    · simp [created]
    · simp [first]
  · rcases opens faultless with empty | governed | ⟨other, first⟩
    · refine ⟨thread, .inl ⟨?_, by simp [rows, empty]⟩⟩
      rw [standing_of_observe observed, fresh]
      rfl
    · exact absurd nobody governed
    · exact ⟨other, .inr ((others other (by simp [first])).trans first)⟩

theorem pending_of_count {result : Except SqlError Nat}
    (counts : choice.fault = true → before.tables.roll.length ≠ 1)
    (pending : before.tables.roll ≠ [] → ∃ thread, Pending before thread)
    (observed : (machine platform).observe thread (.store (.query false .userCount)) choice before =
      some (result, after)) (same : after.tables.roll = before.tables.roll)
    (some : after.tables.roll ≠ []) : ∃ thread, Pending after thread := by
  obtain ⟨other, waits⟩ := pending (same ▸ some)
  refine ⟨other, ?_⟩
  by_cases own : other = thread
  · subst own
    refine .inr ?_
    rw [standing_of_observe observed]
    rcases waits with ⟨created, single⟩ | first
    · rcases count_of_observe observed with ⟨fault, -⟩ | ⟨-, rfl⟩
      · exact absurd single (counts fault)
      · rw [created, single]
        rfl
    · rw [first]
      rfl
  · exact waits.of_same (standing_of_observe_other own observed) same

theorem pending_of_observe (accounts : Accounts terms before)
    (allowed : terms.allow op choice before) (due : Due thread before op)
    (observed : (machine platform).observe thread op choice before = some (result, after))
    (first : terms.first) (some : after.tables.roll ≠ []) (nobody : after.tables.admins = []) :
    ∃ thread, Pending after thread := by
  have enrolment := enrolment_of_observe due observed
  have ungoverned : before.tables.admins = [] := by
    by_contra governed
    exact enrolment.grows.governed governed nobody
  have pending : before.tables.roll ≠ [] → ∃ thread, Pending before thread :=
    fun some => accounts.first first some ungoverned
  by_cases committing : op = .store .commit
  · subst committing
    exact pending_of_commit (allowed first) pending ungoverned due observed some
  cases enrolment with
  | insert governed rows => exact absurd ungoverned governed
  | commit rows => exact absurd rfl committing
  | grant heads granted => exact absurd nobody (admins_of_grant heads (allowed first) observed)
  | same same =>
      by_cases unmarked : op.isMarked = false
      · obtain ⟨other, waits⟩ := pending (same ▸ some)
        exact ⟨other, waits.of_same (standing_of_unmarked unmarked observed other) same⟩
      · unfold Op.isMarked at unmarked
        split at unmarked
        · exact absurd rfl committing
        · refine pending_of_count (fun fault => ?_) pending observed same some
          exact (allowed first fault).resolve_right (not_not.mpr ungoverned)
        · exact absurd nobody (admins_of_grant due (allowed first) observed)
        · exact absurd rfl unmarked

theorem accounts_of_observe (accounts : Accounts terms before)
    (allowed : terms.allow op choice before) (due : Due thread before op)
    (observed : (machine platform).observe thread op choice before = some (result, after)) :
    Accounts terms after := by
  have enrolment := enrolment_of_observe due observed
  have performed := performed_of_observe observed
  refine ⟨enrolment.led accounts.led, ?_, ?_, ?_, pending_of_observe accounts allowed due observed⟩
  · intro token entry found
    rcases tokens_of_perform performed found with old | rfl
    · exact enrolment.grows.hasUser (accounts.sessions token entry old)
    · exact enrolment.grows.hasUser due
  · intro other started
    by_cases earlier : before.standing other = .fresh
    · have same : other = thread := by
        by_contra different
        exact started ((standing_of_observe_other different observed).trans earlier)
      subst same
      by_cases committing : op = .store .commit
      · subst committing
        obtain ⟨-, held, user, draft⟩ := due
        rcases commit_of_observe held draft observed with ⟨-, error, rfl⟩ | ⟨-, -, -, rows⟩
        · refine absurd ?_ started
          rw [standing_of_observe observed, earlier]
          rfl
        · simp [rows]
      · refine absurd ?_ started
        rw [standing_of_observe observed, earlier]
        exact Standing.step_fresh committing
    · exact enrolment.grows.nonempty (accounts.created other earlier)
  · intro keys
    have declared := accounts.keys keys
    cases changes_of_perform performed with
    | unchanged same =>
        rw [ServerScene.tables, same]
        exact declared
    | @statement statement outcome idle applied =>
        refine Statement.foreignKeys_of_apply applied declared ?_
        rintro userID adminUserID keyHash name rfl
        exact ⟨allowed keys (faultless_of_exec performed), due⟩
    | commit held =>
        obtain ⟨-, owned, user, draft⟩ := due
        rcases commit_of_observe owned draft observed with ⟨same, -⟩ | ⟨-, -, apiKeys, -⟩
        · rw [same]
          exact declared
        · intro entry member
          rw [apiKeys] at member
          exact ⟨enrolment.grows.hasUser (declared entry member).1,
            enrolment.grows.hasUser (declared entry member).2⟩

end Kept

end Operations

end Grunt.Server
