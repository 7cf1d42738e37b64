import Grunt.Storage.Store

/-! # Overlapping calls

Any number of calls of the store's methods on one shared database, taken
operation by operation in any order, with the clock advancing in between and
restarts that lose every open transaction.
-/

namespace Grunt.Storage

open Foundation

inductive Call
  | createUser (user password : ByteString)
  | registerWithInvite (code user password : ByteString)
  | createUserNoPassword (user : ByteString)
  | setUserAdmin (userID : ByteString)
  | isUserAdmin (userID : ByteString)
  | verifyUser (user password : ByteString)
  | changePassword (userID currentPassword newPassword : ByteString)
  | setAvatar (userID data : ByteString)
  | getAvatar (userID : ByteString)
  | hasAvatar (userID : ByteString)
  | createUserCount
  | createInvite (code : ByteString) (expiresAt : Instant) (createdBy : ByteString)
  | validateInvite (code : ByteString)
  | save (message : MessageRow)
  | sync (since limit : Int)
  | createAPIKey (userID adminUserID keyHash name : ByteString)
  | getAPIKeyByHash (keyHash : ByteString)
  | listAllAPIKeys
  | revokeAPIKey (keyID : Int)
  | listUsers

/-- What a call returns. -/
inductive Reply
  | unit (result : Except Error Unit)
  | bool (result : Except Error Bool)
  | admin (result : Bool × Option Error)
  | text (result : Except Error ByteString)
  | flag (result : Bool)
  | number (result : Except Error Nat)
  | messages (result : Except Error (List (Nat × MessageRow)))
  | keys (result : Except Error (List (Nat × APIKeyRow)))
  | users (result : Except Error (List UserRow))

def Call.run (libraries : Libraries) : Call → StoreProgram Reply
  | .createUser user password => do return .unit (← Store.createUser user password)
  | .registerWithInvite code user password => do
      return .bool (← Store.registerWithInvite libraries code user password)
  | .createUserNoPassword user => do return .unit (← Store.createUserNoPassword user)
  | .setUserAdmin userID => do return .unit (← Store.setUserAdmin userID)
  | .isUserAdmin userID => do return .admin (← Store.isUserAdmin userID)
  | .verifyUser user password => do
      return .bool (← Store.verifyUser libraries user password)
  | .changePassword userID currentPassword newPassword => do
      return .unit (← Store.changePassword libraries userID currentPassword newPassword)
  | .setAvatar userID data => do return .unit (← Store.setAvatar userID data)
  | .getAvatar userID => do return .text (← Store.getAvatar userID)
  | .hasAvatar userID => do return .flag (← Store.hasAvatar userID)
  | .createUserCount => do return .number (← Store.createUserCount)
  | .createInvite code expiresAt createdBy => do
      return .unit (← Store.createInvite code expiresAt createdBy)
  | .validateInvite code => do return .bool (← Store.validateInvite libraries code)
  | .save message => do return .number (← Store.save message)
  | .sync since limit => do return .messages (← Store.sync since limit)
  | .createAPIKey userID adminUserID keyHash name => do
      return .number (← Store.createAPIKey userID adminUserID keyHash name)
  | .getAPIKeyByHash keyHash => do return .text (← Store.getAPIKeyByHash keyHash)
  | .listAllAPIKeys => do return .keys (← Store.listAllAPIKeys)
  | .revokeAPIKey keyID => do return .unit (← Store.revokeAPIKey keyID)
  | .listUsers => do return .users (← Store.listUsers)

/-- The clock advances by some nanoseconds. -/
inductive Tick
  | advance (elapsed : Nat)

def World.advance (world : World) (elapsed : Nat) : World where
  database := world.database
  clock := world.clock + elapsed

def World.recover (world : World) : World :=
  world.setDatabase world.database.recover

def World.without (world : World) (thread : Nat) : World :=
  world.setDatabase (world.database.rollback thread)

section Without

variable {libraries : Libraries} {thread other : Nat} {world after : World}

theorem World.exec_without (different : other ≠ thread) {inTx fault : Bool}
    {statement : Statement} {result : Except SqlError Outcome}
    (executed : world.exec other inTx statement fault = some (result, after)) :
    (world.without thread).exec other inTx statement fault =
      some (result, after.without thread) := by
  unfold World.exec at executed ⊢
  split at executed
  case isTrue failing =>
    cases executed
    simp [failing]
  case isFalse working =>
    obtain ⟨⟨outcome, database⟩, ran, same⟩ := Option.map_eq_some_iff.mp executed
    cases same
    rw [if_neg working]
    refine Option.map_eq_some_iff.mpr ⟨(outcome, database.rollback thread), ?_, rfl⟩
    cases inTx
    · exact Database.execute_rollback ran
    · exact Database.executeIn_rollback different ran

theorem World.commit_without (different : other ≠ thread) (fault : Bool) :
    (world.without thread).commit other fault =
      ((world.commit other fault).1, (world.commit other fault).2.without thread) := by
  unfold World.commit
  split
  · simp [World.without, Database.rollback_rollback _ other]
  · simp [World.without, Database.rollback_commit different]

theorem perform_without {op : Op} {choice : Choice} {result : op.Result}
    (different : other ≠ thread)
    (performed : perform libraries other op choice world = some (result, after)) :
    perform libraries other op choice (world.without thread) =
      some (result, after.without thread) := by
  cases op with
  | begin => cases performed; rfl
  | now => cases performed; rfl
  | bcrypt password => cases performed; rfl
  | query inTx asked =>
      cases performed
      have view : (world.without thread).view other inTx = world.view other inTx := by
        cases inTx
        · exact Database.rollback_committed
        · exact Database.view_rollback different
      simp only [perform, view]
  | exec inTx statement => exact World.exec_without different performed
  | commit =>
      have committed : world.commit other choice.fault = (result, after) :=
        Option.some.inj performed
      have commute : (world.without thread).commit other choice.fault = _ :=
        World.commit_without different choice.fault
      rw [committed] at commute
      exact congrArg some commute
  | rollback =>
      cases performed
      have commute := Database.rollback_rollback world.database thread other
      simp only [perform, World.without, World.setDatabase_database,
        World.setDatabase_setDatabase, commute]

end Without

theorem without_of_own {libraries : Libraries} {thread : Nat} {op : Op}
    {choice : Choice} {world after : World} {result : op.Result}
    (performed : perform libraries thread op choice world = some (result, after))
    (same : after.database.committed = world.database.committed) :
    after.without thread = world.without thread := by
  have clock := perform_clock performed
  have free : ∀ database : Database Tables,
      (database.writer = none ∨ database.HeldBy thread) →
      database.rollback thread = ⟨database.committed, none⟩ := by
    rintro ⟨committed, writer⟩ (idle | ⟨tables, held⟩)
    · cases idle
      rfl
    · cases held
      simp [Database.rollback]
  suffices databases :
      after.database.rollback thread = world.database.rollback thread by
    simp only [World.without, databases, World.setDatabase, clock]
  cases op with
  | exec inTx statement =>
      cases inTx with
      | false =>
          rcases perform_exec performed with ⟨rfl, -⟩ | ⟨idle, _, tables, -, -, rfl⟩
          · rfl
          · rw [free _ (.inl rfl), free _ (.inl idle), same]
      | true =>
          rcases perform_txExec performed with ⟨rfl, -⟩ | ⟨idle, _, tables, -, -, rfl⟩
          · rfl
          · rw [free _ (.inr ⟨tables, rfl⟩), free _ idle, same]
  | commit =>
      rcases perform_commit performed with ⟨-, rfl⟩ | ⟨-, rfl⟩
      · exact Database.rollback_of_not_held Database.rollback_not_held
      · by_cases held : world.database.HeldBy thread
        · obtain ⟨tables, writer⟩ := held
          rw [World.setDatabase_database, Database.commit_of_held writer] at same ⊢
          rw [free _ (.inl rfl), free _ (.inr ⟨tables, writer⟩), same]
        · rw [World.setDatabase_database, Database.commit_of_not_held held]
  | rollback =>
      rw [perform_rollback performed]
      exact Database.rollback_of_not_held Database.rollback_not_held
  | begin => rw [perform_read rfl performed]
  | query => rw [perform_read rfl performed]
  | now => rw [perform_read rfl performed]
  | bcrypt => rw [perform_read rfl performed]

def machine (libraries : Libraries) : Machine Op Op.Result World Choice Tick where
  perform := perform libraries
  environment := fun tick world =>
    match tick with
    | .advance elapsed => some (world.advance elapsed)
  restart := World.recover

theorem performed_of_observe {libraries : Libraries} {thread : Nat} {op : Op}
    {choice : Choice} {before after : Scene Op Op.Result World} {result : op.Result}
    (observed : (machine libraries).observe thread op choice before =
      some (result, after)) :
    perform libraries thread op choice before.world = some (result, after.world) :=
  (Machine.observe_eq_some.mp observed).1

abbrev StoreConfig := Config Op Op.Result World Call Reply

abbrev StoreEvent := Event Call Choice Tick

/-- A store that `New` has just created. -/
def start (clock : Instant) : StoreConfig :=
  Config.start ⟨⟨Tables.created, none⟩, clock⟩

/-- The transitions of overlapping calls. -/
abbrev next (libraries : Libraries) : StoreConfig → StoreEvent → Option StoreConfig :=
  (machine libraries).next (Call.run libraries)

end Grunt.Storage
