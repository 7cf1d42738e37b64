import Grunt.Foundation.Bytes
import Grunt.Foundation.Calendar
import Grunt.Foundation.Table

/-! # The tables

The four tables that `New` creates. Each carries the constraints that SQLite
enforces: the primary key of `users`, the unique code of `invites` and the
`AUTOINCREMENT` ids of `messages` and `api_keys`. The `FOREIGN KEY` clauses of
`api_keys` are not among them, as no connection switches `foreign_keys` on.
-/

namespace Grunt.Storage

open Foundation

structure UserRow where
  user : ByteString
  passwordHash : Option ByteString
  isAdmin : Bool
  avatar : Option ByteString
deriving DecidableEq, Repr

/-- Times are the Unix seconds of the RFC 3339 text in the column. -/
structure InviteRow where
  code : ByteString
  expiresAt : Int
  createdByUser : ByteString
  usedByUser : Option ByteString
  usedAt : Option Int
deriving DecidableEq, Repr

structure MessageRow where
  content : ByteString
  clientID : ByteString
  user : ByteString
  timestamp : Instant
deriving DecidableEq, Repr

structure APIKeyRow where
  userID : ByteString
  adminUserID : ByteString
  keyHash : ByteString
  name : Option ByteString
  createdAt : Int
deriving DecidableEq, Repr

/-- The largest rowid, after which `AUTOINCREMENT` inserts fail. -/
def maxRowid : Nat := 9223372036854775807

structure Tables where
  users : KeyedTable UserRow UserRow.user
  invites : KeyedTable InviteRow InviteRow.code
  messages : NumberedTable MessageRow maxRowid
  apiKeys : NumberedTable APIKeyRow maxRowid

namespace Tables

/-- What `New` leaves in a database that had no tables. -/
def created : Tables where
  users := .empty
  invites := .empty
  messages := .empty
  apiKeys := .empty

def HasUser (tables : Tables) (user : ByteString) : Prop :=
  user ∈ tables.users.rows.map UserRow.user

instance (tables : Tables) (user : ByteString) : Decidable (tables.HasUser user) :=
  inferInstanceAs (Decidable (user ∈ tables.users.rows.map UserRow.user))

/-- The users marked as admin, in the order their rows were inserted. -/
def admins (tables : Tables) : List ByteString :=
  (tables.users.rows.filter UserRow.isAdmin).map UserRow.user

/-- What the `FOREIGN KEY` clauses of `api_keys` declare. -/
def ForeignKeys (tables : Tables) : Prop :=
  ∀ entry ∈ tables.apiKeys.rows,
    tables.HasUser entry.2.userID ∧ tables.HasUser entry.2.adminUserID

end Tables

end Grunt.Storage
