import Mathlib.Data.List.Sort
import Grunt.Foundation.Transactions
import Grunt.Storage.Schema

/-! # Statements and queries

The SQL texts of the store, each under a name, with their arguments. A
statement changes the tables or fails and changes nothing; a query only reads.
-/

namespace Grunt.Storage

open Foundation

inductive SqlError
  /-- A uniqueness constraint, with the column it is on. -/
  | unique (column : ByteString)
  /-- `AUTOINCREMENT` has no rowid left, or the disk is full. -/
  | full
  /-- `BEGIN` on a connection whose transaction is still open. -/
  | nested
  /-- The connection's database has no such table. -/
  | noTable (table : ByteString)
  /-- Anything else the database may answer: busy, an I/O error. -/
  | fault
deriving DecidableEq, Repr

namespace SqlError

def text : SqlError → ByteString
  | .unique column => utf8 "constraint failed: UNIQUE constraint failed: " ++ column
  | .full => utf8 "database or disk is full (13)"
  | .nested =>
      utf8 "SQL logic error: cannot start a transaction within a transaction (1)"
  | .noTable table => utf8 "SQL logic error: no such table: " ++ table ++ utf8 " (1)"
  | .fault => utf8 "database is locked (5) (SQLITE_BUSY)"

end SqlError

structure Outcome where
  rowsAffected : Nat
  lastInsertId : Nat
deriving DecidableEq, Repr

inductive Statement
  /-- `INSERT INTO users (user, password_hash) VALUES (?, ?)` -/
  | insertUser (user : ByteString) (hash : Option ByteString)
  /-- `UPDATE users SET is_admin = 1 WHERE user = ?` -/
  | setUserAdmin (user : ByteString)
  /-- `UPDATE users SET password_hash = ? WHERE user = ?` -/
  | setPassword (user hash : ByteString)
  /-- `UPDATE users SET avatar = ? WHERE user = ?` -/
  | setAvatar (user data : ByteString)
  /-- `INSERT INTO invites (code, expires_at, created_by_user) VALUES (?, ?, ?)` -/
  | insertInvite (code : ByteString) (expiresAt : Int) (createdBy : ByteString)
  /-- `UPDATE invites SET used_at = ?, used_by_user = ?
  WHERE code = ? AND used_at IS NULL` -/
  | useInvite (usedAt : Int) (user code : ByteString)
  /-- `INSERT INTO messages (content, client_id, user, timestamp) VALUES (?, ?, ?, ?)` -/
  | insertMessage (row : MessageRow)
  /-- `INSERT INTO api_keys (user_id, admin_user_id, key_hash, name) VALUES (?, ?, ?, ?)` -/
  | insertAPIKey (userID adminUserID keyHash name : ByteString)
  /-- `DELETE FROM api_keys WHERE id = ?` -/
  | deleteAPIKey (id : Int)
deriving DecidableEq, Repr

/-- Replace the matching rows of `users`. -/
def Tables.updateUsers (tables : Tables) (user : ByteString)
    (change : UserRow → UserRow) (keeps : ∀ row, (change row).user = row.user) :
    Tables where
  users := tables.users.update (fun row => row.user = user) change keeps
  invites := tables.invites
  messages := tables.messages
  apiKeys := tables.apiKeys

def Tables.markInvite (tables : Tables) (usedAt : Int) (user code : ByteString) :
    Tables where
  users := tables.users
  invites := tables.invites.update
    (fun row => row.code = code && row.usedAt.isNone)
    (fun row => { row with usedAt := some usedAt, usedByUser := some user })
    (fun _ => rfl)
  messages := tables.messages
  apiKeys := tables.apiKeys

namespace Statement

def table : Statement → ByteString
  | .insertUser _ _ | .setUserAdmin _ | .setPassword _ _ | .setAvatar _ _ => utf8 "users"
  | .insertInvite _ _ _ | .useInvite _ _ _ => utf8 "invites"
  | .insertMessage _ => utf8 "messages"
  | .insertAPIKey _ _ _ _ | .deleteAPIKey _ => utf8 "api_keys"

/-- The effect of a statement at a time, for `CURRENT_TIMESTAMP`. -/
def apply (now : Instant) : Statement → Tables → Except SqlError (Outcome × Tables)
  | .insertUser user hash, tables =>
      match tables.users.insert ⟨user, hash, false, none⟩ with
      | some users => .ok (⟨1, users.rows.length⟩, { tables with users := users })
      | none => .error (.unique (utf8 "users.user (1555)"))
  | .setUserAdmin user, tables =>
      .ok (⟨(tables.users.rows.filter fun row => row.user = user).length, 0⟩,
        tables.updateUsers user (fun row => { row with isAdmin := true }) fun _ => rfl)
  | .setPassword user hash, tables =>
      .ok (⟨(tables.users.rows.filter fun row => row.user = user).length, 0⟩,
        tables.updateUsers user (fun row => { row with passwordHash := some hash })
          fun _ => rfl)
  | .setAvatar user data, tables =>
      .ok (⟨(tables.users.rows.filter fun row => row.user = user).length, 0⟩,
        tables.updateUsers user (fun row => { row with avatar := some data }) fun _ => rfl)
  | .insertInvite code expiresAt createdBy, tables =>
      match tables.invites.insert ⟨code, expiresAt, createdBy, none, none⟩ with
      | some invites => .ok (⟨1, invites.rows.length⟩, { tables with invites := invites })
      | none => .error (.unique (utf8 "invites.code (2067)"))
  | .useInvite usedAt user code, tables =>
      .ok (⟨(tables.invites.rows.filter fun row =>
          row.code = code && row.usedAt.isNone).length, 0⟩,
        tables.markInvite usedAt user code)
  | .insertMessage row, tables =>
      match tables.messages.insert row with
      | some messages => .ok (⟨1, messages.last⟩, { tables with messages := messages })
      | none => .error .full
  | .insertAPIKey userID adminUserID keyHash name, tables =>
      match tables.apiKeys.insert
          ⟨userID, adminUserID, keyHash, some name, Calendar.unixSeconds now⟩ with
      | some apiKeys => .ok (⟨1, apiKeys.last⟩, { tables with apiKeys := apiKeys })
      | none => .error .full
  | .deleteAPIKey id, tables =>
      .ok (⟨(tables.apiKeys.rows.filter fun entry => (entry.1 : Int) = id).length, 0⟩,
        { tables with apiKeys := tables.apiKeys.remove fun number _ => (number : Int) = id })

end Statement

inductive Query
  /-- `SELECT expires_at FROM invites WHERE code = ? AND used_at IS NULL` -/
  | inviteExpiry (code : ByteString)
  /-- `SELECT password_hash FROM users WHERE user = ?` -/
  | passwordHash (user : ByteString)
  /-- `SELECT is_admin FROM users WHERE user = ?` -/
  | isAdmin (user : ByteString)
  /-- `SELECT avatar FROM users WHERE user = ?` -/
  | avatar (user : ByteString)
  /-- `SELECT COUNT(*) FROM users` -/
  | userCount
  /-- `SELECT … FROM (SELECT … FROM messages WHERE id > ? ORDER BY id DESC LIMIT ?)
  ORDER BY id ASC` -/
  | lastMessages (since : Int) (limit : Nat)
  /-- `SELECT … FROM messages WHERE id > ? ORDER BY id ASC` -/
  | messagesSince (since : Int)
  /-- `SELECT user_id FROM api_keys WHERE key_hash = ?` -/
  | apiKeyOwner (keyHash : ByteString)
  /-- `SELECT id, user_id, name, created_at FROM api_keys ORDER BY created_at DESC` -/
  | apiKeys
  /-- `SELECT user, is_admin FROM users ORDER BY user` -/
  | users
deriving DecidableEq, Repr

namespace Query

def table : Query → ByteString
  | .inviteExpiry _ => utf8 "invites"
  | .passwordHash _ | .isAdmin _ | .avatar _ | .userCount | .users => utf8 "users"
  | .lastMessages _ _ | .messagesSince _ => utf8 "messages"
  | .apiKeyOwner _ | .apiKeys => utf8 "api_keys"

/-- What a query answers. A query for one row answers `none` where `Scan`
reports `sql.ErrNoRows`. -/
def Answer : Query → Type
  | .inviteExpiry _ => Option Int
  | .passwordHash _ => Option (Option ByteString)
  | .isAdmin _ => Option Bool
  | .avatar _ => Option (Option ByteString)
  | .userCount => Nat
  | .lastMessages _ _ => List (Nat × MessageRow)
  | .messagesSince _ => List (Nat × MessageRow)
  | .apiKeyOwner _ => Option ByteString
  | .apiKeys => List (Nat × APIKeyRow)
  | .users => List UserRow

/-- `ORDER BY id ASC` -/
def orderAscending (rows : List (Nat × MessageRow)) : List (Nat × MessageRow) :=
  rows.insertionSort fun left right => left.1 ≤ right.1

/-- `ORDER BY id DESC` -/
def orderDescending (rows : List (Nat × MessageRow)) : List (Nat × MessageRow) :=
  rows.insertionSort fun left right => right.1 ≤ left.1

/-- `WHERE id > ?` -/
def after (since : Int) (rows : List (Nat × MessageRow)) : List (Nat × MessageRow) :=
  rows.filter fun entry => since < entry.1

def eval : (query : Query) → Tables → query.Answer
  | .inviteExpiry code, tables =>
      match tables.invites.find code with
      | some row => if row.usedAt = none then some row.expiresAt else none
      | none => none
  | .passwordHash user, tables => (tables.users.find user).map UserRow.passwordHash
  | .isAdmin user, tables => (tables.users.find user).map UserRow.isAdmin
  | .avatar user, tables => (tables.users.find user).map UserRow.avatar
  | .userCount, tables => tables.users.rows.length
  | .lastMessages since limit, tables =>
      orderAscending ((orderDescending (after since tables.messages.rows)).take limit)
  | .messagesSince since, tables => orderAscending (after since tables.messages.rows)
  | .apiKeyOwner keyHash, tables =>
      (tables.apiKeys.rows.find? fun entry => entry.2.keyHash = keyHash).map
        fun entry => entry.2.userID
  | .apiKeys, tables =>
      tables.apiKeys.rows.insertionSort fun left right =>
        right.2.createdAt ≤ left.2.createdAt
  | .users, tables =>
      tables.users.rows.insertionSort fun left right => ¬ right.user < left.user

end Query

end Grunt.Storage
