import Grunt.Foundation.Interleaving
import Grunt.Foundation.Transactions
import Grunt.Storage.Sqlite

/-! # The store

Every method of `Store` as a program over database operations. One operation
is one statement, one query, a transaction boundary, a reading of the clock or
a bcrypt hash; between two of them anything else may happen.
-/

namespace Grunt.Storage

open Foundation

/-- What the store uses of the libraries around it. -/
structure Libraries where
  /-- `time.Local` -/
  location : Location
  /-- `bcrypt.GenerateFromPassword`, with the salt it draws. -/
  bcryptGenerate : (salt password : ByteString) → Except ByteString ByteString
  /-- `bcrypt.CompareHashAndPassword`, whether it returns `nil`. -/
  bcryptCompare : (hash password : ByteString) → Bool
  sha256 : ByteString → ByteString

/-- Libraries one can run by hand: UTC, and hashes that keep what they hash. -/
def Libraries.transparent : Libraries where
  location := ⟨fun _ => 0⟩
  bcryptGenerate := fun _ password =>
    if 72 < password.length then .error (utf8 "bcrypt: password length exceeds 72 bytes")
    else .ok (utf8 "$2a$10$" ++ password)
  bcryptCompare := fun hash password => hash = utf8 "$2a$10$" ++ password
  sha256 := id

inductive Op
  | begin
  | query (inTx : Bool) (query : Query)
  | exec (inTx : Bool) (statement : Statement)
  | commit
  | rollback
  /-- `time.Now()` -/
  | now
  /-- `bcrypt.GenerateFromPassword` -/
  | bcrypt (password : ByteString)
deriving DecidableEq, Repr

def Op.Result : Op → Type
  | .begin => Except SqlError Unit
  | .query _ asked => Except SqlError asked.Answer
  | .exec _ _ => Except SqlError Outcome
  | .commit => Except SqlError Unit
  | .rollback => Unit
  | .now => Instant
  | .bcrypt _ => Except ByteString ByteString

/-- What the scheduler and the outside decide about one operation: whether it
fails, and which random bytes it draws. -/
structure Choice where
  fault : Bool
  random : ByteString
deriving DecidableEq, Repr

namespace Choice

/-- Nothing fails and nothing random is drawn. -/
def plain : Choice where
  fault := false
  random := []

end Choice

structure World where
  database : Database Tables
  clock : Instant

namespace World

def setDatabase (world : World) (database : Database Tables) : World where
  database := database
  clock := world.clock

@[simp] theorem setDatabase_database (world : World) (database : Database Tables) :
    (world.setDatabase database).database = database := rfl

@[simp] theorem setDatabase_clock (world : World) (database : Database Tables) :
    (world.setDatabase database).clock = world.clock := rfl

@[simp] theorem setDatabase_setDatabase (world : World)
    (first second : Database Tables) :
    (world.setDatabase first).setDatabase second = world.setDatabase second := rfl

def view (world : World) (thread : Nat) (inTx : Bool) : Tables :=
  bif inTx then world.database.view thread else world.database.committed

end World

namespace World

/-- A statement that would have to wait for another writer is not enabled,
except to fail. -/
def exec (thread : Nat) (inTx : Bool) (statement : Statement) (fault : Bool)
    (world : World) : Option (Except SqlError Outcome × World) :=
  if fault then some (.error .fault, world)
  else
    let executed :=
      if inTx then world.database.executeIn thread (statement.apply world.clock)
      else world.database.execute (statement.apply world.clock)
    executed.map fun outcome => (outcome.1, world.setDatabase outcome.2)

/-- A `COMMIT` that fails is undone, as SQLite does where the disk is full. Those
that leave their transaction open are in `Storage.Lasting`. -/
def commit (thread : Nat) (fault : Bool) (world : World) :
    Except SqlError Unit × World :=
  if fault then (.error .full, world.setDatabase (world.database.rollback thread))
  else (.ok (), world.setDatabase (world.database.commit thread))

end World

def faulty {α : Type} (fault : Bool) (value : α) : Except SqlError α :=
  if fault then .error .fault else .ok value

def perform (libraries : Libraries) (thread : Nat) :
    (op : Op) → Choice → World → Option (op.Result × World)
  | .begin, choice, world => some (faulty choice.fault (), world)
  | .query inTx asked, choice, world =>
      some (faulty choice.fault (asked.eval (world.view thread inTx)), world)
  | .exec inTx statement, choice, world => world.exec thread inTx statement choice.fault
  | .commit, choice, world => some (world.commit thread choice.fault)
  | .rollback, _, world =>
      some ((), world.setDatabase (world.database.rollback thread))
  | .now, _, world => some (world.clock, world)
  | .bcrypt password, choice, world =>
      some (libraries.bcryptGenerate choice.random password, world)

section Inversion

variable {libraries : Libraries} {thread : Nat} {choice : Choice} {world after : World}

def Op.isRead : Op → Bool
  | .begin | .query _ _ | .now | .bcrypt _ => true
  | _ => false

theorem perform_read {op : Op} {result : op.Result} (read : op.isRead = true)
    (performed : perform libraries thread op choice world = some (result, after)) :
    after = world := by
  cases op with
  | exec => cases read
  | commit => cases read
  | rollback => cases read
  | begin => cases performed; rfl
  | query => cases performed; rfl
  | now => cases performed; rfl
  | bcrypt => cases performed; rfl

theorem faulty_ok {α : Type} {fault : Bool} {value answer : α}
    (answered : faulty fault value = .ok answer) : value = answer := by
  unfold faulty at answered
  split at answered <;> cases answered
  rfl

theorem perform_query {inTx : Bool} {asked : Query} {answer : asked.Answer}
    (performed : perform libraries thread (.query inTx asked) choice world =
      some (Except.ok answer, after)) :
    asked.eval (world.view thread inTx) = answer := by
  have answered : faulty choice.fault (asked.eval (world.view thread inTx)) =
      .ok answer := congrArg Prod.fst (Option.some.inj performed)
  exact faulty_ok answered

theorem perform_now {result : Instant}
    (performed : perform libraries thread .now choice world = some (result, after)) :
    result = world.clock := by
  cases performed
  rfl

/-- A statement of its own is a fault, or it waits for no writer and does what
it does to the committed tables. -/
theorem exec_cases {statement : Statement} {result : Except SqlError Outcome}
    (performed : perform libraries thread (.exec false statement) choice world =
      some (result, after)) :
    (choice.fault = true ∧ result = .error .fault ∧ after = world) ∨
      (choice.fault = false ∧ world.database.writer = none ∧
        ((∃ outcome tables, result = .ok outcome ∧
            statement.apply world.clock world.database.committed = .ok (outcome, tables) ∧
            after = world.setDatabase ⟨tables, none⟩) ∨
          ∃ error, result = .error error ∧
            statement.apply world.clock world.database.committed = .error error ∧
            after = world)) := by
  simp only [perform, World.exec, Bool.false_eq_true, if_false] at performed
  split at performed
  case isTrue fault =>
    cases performed
    exact .inl ⟨fault, rfl, rfl⟩
  case isFalse faultless =>
    obtain ⟨⟨outcome, database⟩, executed, same⟩ := Option.map_eq_some_iff.mp performed
    cases same
    refine .inr ⟨Bool.eq_false_iff.mpr faultless, ?_⟩
    rcases Database.execute_cases executed with
      ⟨idle, ⟨value, tables, succeeded, rfl, rfl⟩ | ⟨error, failed, rfl, rfl⟩⟩
    · exact ⟨idle, .inl ⟨value, tables, rfl, succeeded, rfl⟩⟩
    · exact ⟨idle, .inr ⟨error, rfl, failed, rfl⟩⟩

theorem perform_exec {statement : Statement} {result : Except SqlError Outcome}
    (performed : perform libraries thread (.exec false statement) choice world =
      some (result, after)) :
    (after = world ∧ ∃ error, result = .error error) ∨
      (world.database.writer = none ∧ ∃ outcome tables, result = .ok outcome ∧
        statement.apply world.clock world.database.committed = .ok (outcome, tables) ∧
        after = world.setDatabase ⟨tables, none⟩) := by
  rcases exec_cases performed with
    ⟨-, failed, same⟩ | ⟨-, idle, done | ⟨error, failed, -, same⟩⟩
  · exact .inl ⟨same, _, failed⟩
  · exact .inr ⟨idle, done⟩
  · exact .inl ⟨same, error, failed⟩

theorem perform_txExec {statement : Statement} {result : Except SqlError Outcome}
    (performed : perform libraries thread (.exec true statement) choice world =
      some (result, after)) :
    (after = world ∧ ∃ error, result = .error error) ∨
      ((world.database.writer = none ∨ world.database.HeldBy thread) ∧
        ∃ outcome tables, result = .ok outcome ∧
        statement.apply world.clock (world.database.view thread) = .ok (outcome, tables) ∧
        after = world.setDatabase ⟨world.database.committed, some (thread, tables)⟩) := by
  simp only [perform, World.exec, if_true] at performed
  split at performed
  case isTrue =>
    cases performed
    exact .inl ⟨rfl, _, rfl⟩
  case isFalse =>
    obtain ⟨⟨outcome, database⟩, executed, same⟩ := Option.map_eq_some_iff.mp performed
    cases same
    rcases Database.executeIn_cases executed with
      ⟨free, ⟨value, tables, succeeded, rfl, rfl⟩ | ⟨error, -, rfl, rfl⟩⟩
    · exact .inr ⟨free, value, tables, rfl, succeeded, rfl⟩
    · exact .inl ⟨rfl, error, rfl⟩

theorem perform_commit {result : Except SqlError Unit}
    (performed : perform libraries thread .commit choice world = some (result, after)) :
    (result = .error .full ∧ after = world.setDatabase (world.database.rollback thread)) ∨
      (result = .ok () ∧ after = world.setDatabase (world.database.commit thread)) := by
  simp only [perform, World.commit] at performed
  split at performed <;> cases performed
  · exact .inl ⟨rfl, rfl⟩
  · exact .inr ⟨rfl, rfl⟩

theorem perform_rollback {result : Unit}
    (performed : perform libraries thread .rollback choice world = some (result, after)) :
    after = world.setDatabase (world.database.rollback thread) := by
  cases performed
  rfl

@[simp] theorem perform_clock {op : Op} {result : op.Result}
    (performed : perform libraries thread op choice world = some (result, after)) :
    after.clock = world.clock := by
  cases op with
  | exec inTx statement =>
      cases inTx with
      | false =>
          rcases perform_exec performed with ⟨rfl, -⟩ | ⟨-, _, _, -, -, rfl⟩ <;> rfl
      | true =>
          rcases perform_txExec performed with ⟨rfl, -⟩ | ⟨-, _, _, -, -, rfl⟩ <;> rfl
  | commit => rcases perform_commit performed with ⟨-, rfl⟩ | ⟨-, rfl⟩ <;> rfl
  | rollback => rw [perform_rollback performed]; rfl
  | begin => rw [perform_read rfl performed]
  | query inTx asked => rw [perform_read rfl performed]
  | now => rw [perform_read rfl performed]
  | bcrypt password => rw [perform_read rfl performed]

theorem perform_other {op : Op} {result : op.Result} {other : Nat}
    (different : other ≠ thread)
    (performed : perform libraries thread op choice world = some (result, after)) :
    (world.database.HeldBy other → after.database = world.database) ∧
      (after.database.HeldBy other → world.database.HeldBy other) := by
  by_cases read : op.isRead = true
  · rw [perform_read read performed]
    exact ⟨fun _ => rfl, id⟩
  cases op with
  | exec inTx statement =>
      cases inTx with
      | false =>
          rcases perform_exec performed with ⟨rfl, -⟩ | ⟨idle, _, tables, -, -, rfl⟩
          · exact ⟨fun _ => rfl, id⟩
          · constructor
            · rintro ⟨_, writer⟩
              rw [idle] at writer
              cases writer
            · rintro ⟨_, writer⟩
              cases writer
      | true =>
          rcases perform_txExec performed with ⟨rfl, -⟩ | ⟨free, _, tables, -, -, rfl⟩
          · exact ⟨fun _ => rfl, id⟩
          · constructor
            · intro held
              rcases free with idle | own
              · obtain ⟨_, writer⟩ := held
                rw [idle] at writer
                cases writer
              · exact absurd (held.unique own) different
            · rintro ⟨_, writer⟩
              cases writer
              exact absurd rfl different
  | commit =>
      rcases perform_commit performed with ⟨-, rfl⟩ | ⟨-, rfl⟩
      · exact ⟨Database.rollback_of_held_other different, Database.HeldBy.of_rollback⟩
      · exact ⟨Database.commit_of_held_other different, Database.HeldBy.of_commit⟩
  | rollback =>
      rw [perform_rollback performed]
      exact ⟨Database.rollback_of_held_other different, Database.HeldBy.of_rollback⟩
  | begin => exact absurd rfl read
  | query => exact absurd rfl read
  | now => exact absurd rfl read
  | bcrypt => exact absurd rfl read

end Inversion

/-! ## The methods -/

abbrev Error := ByteString

abbrev StoreProgram := Program Op Op.Result

namespace Store

def begin : StoreProgram (Except SqlError Unit) := Program.call Op.begin
def commit : StoreProgram (Except SqlError Unit) := Program.call Op.commit
def rollback : StoreProgram Unit := Program.call Op.rollback
def now : StoreProgram Instant := Program.call Op.now

def query (asked : Query) : StoreProgram (Except SqlError asked.Answer) :=
  Program.call (Op.query false asked)

def exec (statement : Statement) : StoreProgram (Except SqlError Outcome) :=
  Program.call (Op.exec false statement)

def txQuery (asked : Query) : StoreProgram (Except SqlError asked.Answer) :=
  Program.call (Op.query true asked)

def txExec (statement : Statement) : StoreProgram (Except SqlError Outcome) :=
  Program.call (Op.exec true statement)

def generateFromPassword (password : ByteString) :
    StoreProgram (Except Error ByteString) :=
  Program.call (Op.bcrypt password)

/-- `fmt.Errorf("…: %w", err)` -/
def wrap (context : String) (cause : Error) : Error :=
  utf8 context ++ utf8 ": " ++ cause

def execOnly (statement : Statement) : StoreProgram (Except Error Unit) := do
  match ← exec statement with
  | .error error => return .error error.text
  | .ok _ => return .ok ()

def execInsert (statement : Statement) : StoreProgram (Except Error Nat) := do
  match ← exec statement with
  | .error error => return .error error.text
  | .ok outcome => return .ok outcome.lastInsertId

def hashPassword (password : ByteString) :
    StoreProgram (Except Error (Option ByteString)) := do
  if password = [] then return .ok none
  else
    match ← generateFromPassword password with
    | .error error => return .error (wrap "hash password" error)
    | .ok hash => return .ok (some hash)

def createUser (user password : ByteString) : StoreProgram (Except Error Unit) := do
  match ← hashPassword password with
  | .error error => return .error error
  | .ok hash => execOnly (.insertUser user hash)

def commitRegistration : StoreProgram (Except Error Bool) := do
  match ← commit with
  | .error error => return .error (wrap "commit transaction" error.text)
  | .ok _ => return .ok true

def insertAndCommit (user : ByteString) (hash : Option ByteString) :
    StoreProgram (Except Error Bool) := do
  match ← txExec (.insertUser user hash) with
  | .error error => return .error (wrap "create user" error.text)
  | .ok _ => commitRegistration

/-- The end of `RegisterWithInvite`: hash the password, create the user and
commit. -/
def createAndCommit (user password : ByteString) : StoreProgram (Except Error Bool) := do
  match ← hashPassword password with
  | .error error => return .error error
  | .ok hash => insertAndCommit user hash

/-- `RegisterWithInvite` from the `UPDATE` on. The row count is the single-use
guard. -/
def markAndCreate (code user password : ByteString) :
    StoreProgram (Except Error Bool) := do
  let usedAt ← now
  match ← txExec (.useInvite (Calendar.unixSeconds usedAt) user code) with
  | .error error => return .error (wrap "mark invite used" error.text)
  | .ok outcome =>
    if outcome.rowsAffected ≠ 1 then return .error (utf8 "invite code already used")
    else createAndCommit user password

/-- `RegisterWithInvite` between `Begin` and the deferred `Rollback`. -/
def registerInTransaction (libraries : Libraries) (code user password : ByteString) :
    StoreProgram (Except Error Bool) := do
  match ← txQuery (.inviteExpiry code) with
  | .error error => return .error (wrap "query invite" error.text)
  | .ok none => return .error (utf8 "invalid or expired invite code")
  | .ok (some expiresAt) =>
    match Calendar.parseRFC3339 libraries.location expiresAt with
    | .error error => return .error (wrap "parse expiry" error)
    | .ok expiry =>
      if ¬ (← now) < expiry then return .error (utf8 "invite code expired")
      else markAndCreate code user password

def registerWithInvite (libraries : Libraries) (code user password : ByteString) :
    StoreProgram (Except Error Bool) := do
  match ← begin with
  | .error error => return .error (wrap "begin transaction" error.text)
  | .ok _ =>
    let result ← registerInTransaction libraries code user password
    rollback
    return result

def createUserNoPassword (user : ByteString) : StoreProgram (Except Error Unit) :=
  execOnly (.insertUser user none)

def setUserAdmin (userID : ByteString) : StoreProgram (Except Error Unit) :=
  execOnly (.setUserAdmin userID)

/-- The Boolean is `false` beside an error. -/
def isUserAdmin (userID : ByteString) : StoreProgram (Bool × Option Error) := do
  match ← query (.isAdmin userID) with
  | .error error => return (false, some error.text)
  | .ok none => return (false, none)
  | .ok (some isAdmin) => return (isAdmin, none)

def verifyUser (libraries : Libraries) (user password : ByteString) :
    StoreProgram (Except Error Bool) := do
  match ← query (.passwordHash user) with
  | .error error => return .error error.text
  | .ok none => return .ok false
  | .ok (some none) => return .ok false
  | .ok (some (some hash)) => return .ok (libraries.bcryptCompare hash password)

def changePassword (libraries : Libraries)
    (userID currentPassword newPassword : ByteString) :
    StoreProgram (Except Error Unit) := do
  match ← verifyUser libraries userID currentPassword with
  | .error error => return .error (wrap "verify current password" error)
  | .ok false => return .error (utf8 "current password is incorrect")
  | .ok true =>
    match ← generateFromPassword newPassword with
    | .error error => return .error (wrap "hash new password" error)
    | .ok hash =>
      match ← exec (.setPassword userID hash) with
      | .error error => return .error (wrap "update password" error.text)
      | .ok _ => return .ok ()

def setAvatar (userID data : ByteString) : StoreProgram (Except Error Unit) :=
  execOnly (.setAvatar userID data)

/-- A `NULL` avatar scans as an empty slice. -/
def getAvatar (userID : ByteString) : StoreProgram (Except Error ByteString) := do
  match ← query (.avatar userID) with
  | .error error => return .error error.text
  | .ok none => return .error (utf8 "user not found")
  | .ok (some avatar) => return .ok (avatar.getD [])

def hasAvatar (userID : ByteString) : StoreProgram Bool := do
  match ← query (.avatar userID) with
  | .ok (some (some avatar)) => return !avatar.isEmpty
  | _ => return false

def createUserCount : StoreProgram (Except Error Nat) := do
  match ← query .userCount with
  | .error error => return .error error.text
  | .ok count => return .ok count

def createInvite (code : ByteString) (expiresAt : Instant) (createdBy : ByteString) :
    StoreProgram (Except Error Unit) :=
  execOnly (.insertInvite code (Calendar.unixSeconds expiresAt) createdBy)

def validateInvite (libraries : Libraries) (code : ByteString) :
    StoreProgram (Except Error Bool) := do
  match ← query (.inviteExpiry code) with
  | .error error => return .error error.text
  | .ok none => return .ok false
  | .ok (some expiresAt) =>
    match Calendar.parseRFC3339 libraries.location expiresAt with
    | .error error => return .error error
    | .ok expiry => return .ok (decide ((← now) < expiry))

def save (message : MessageRow) : StoreProgram (Except Error Nat) :=
  execInsert (.insertMessage message)

def sync (since limit : Int) : StoreProgram (Except Error (List (Nat × MessageRow))) := do
  if 0 < limit then
    match ← query (.lastMessages since limit.toNat) with
    | .error error => return .error error.text
    | .ok rows => return .ok rows
  else
    match ← query (.messagesSince since) with
    | .error error => return .error error.text
    | .ok rows => return .ok rows

def createAPIKey (userID adminUserID keyHash name : ByteString) :
    StoreProgram (Except Error Nat) :=
  execInsert (.insertAPIKey userID adminUserID keyHash name)

def getAPIKeyByHash (keyHash : ByteString) : StoreProgram (Except Error ByteString) := do
  match ← query (.apiKeyOwner keyHash) with
  | .error error => return .error error.text
  | .ok none => return .error (utf8 "key not found")
  | .ok (some userID) => return .ok userID

def listAllAPIKeys : StoreProgram (Except Error (List (Nat × APIKeyRow))) := do
  match ← query .apiKeys with
  | .error error => return .error error.text
  | .ok keys => return .ok keys

def revokeAPIKey (keyID : Int) : StoreProgram (Except Error Unit) :=
  execOnly (.deleteAPIKey keyID)

def listUsers : StoreProgram (Except Error (List UserRow)) := do
  match ← query .users with
  | .error error => return .error (wrap "list users" error.text)
  | .ok users => return .ok users

def hashAPIKey (libraries : Libraries) (key : ByteString) : ByteString :=
  Bytes.hexEncode (libraries.sha256 key)

end Store

end Grunt.Storage
