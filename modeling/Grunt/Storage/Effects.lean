import Grunt.Storage.Calls

/-! # What the methods do

The effect of every statement on users and invites, and the operations each
method can reach. Callers use these and do not open the methods.
-/

namespace Grunt.Storage

open Foundation

namespace Tables

/-- Users are never removed. An invite keeps its code and expiry, a used one
keeps everything, and one is only ever marked for a user without an account. -/
structure Evolves (before after : Tables) : Prop where
  users : ∀ user, before.HasUser user → after.HasUser user
  used : ∀ row ∈ before.invites.rows, row.usedAt.isSome → row ∈ after.invites.rows
  invites : ∀ row ∈ before.invites.rows, ∃ later ∈ after.invites.rows,
    later.code = row.code ∧ later.expiresAt = row.expiresAt
  marked : ∀ row ∈ after.invites.rows, ∀ user, row.usedByUser = some user →
    row ∈ before.invites.rows ∨ ¬ before.HasUser user

theorem Evolves.refl (tables : Tables) : tables.Evolves tables where
  users := fun _ => id
  used := fun _ member _ => member
  invites := fun row member => ⟨row, member, rfl, rfl⟩
  marked := fun _ member _ _ => .inl member

theorem Evolves.trans {one two three : Tables} (first : one.Evolves two)
    (second : two.Evolves three) : one.Evolves three where
  users := fun user has => second.users user (first.users user has)
  used := fun row member used => second.used row (first.used row member used) used
  invites := fun row member => by
    obtain ⟨middle, middleMem, code, expiry⟩ := first.invites row member
    obtain ⟨later, laterMem, laterCode, laterExpiry⟩ := second.invites middle middleMem
    exact ⟨later, laterMem, laterCode.trans code, laterExpiry.trans expiry⟩
  marked := fun row member user used => by
    rcases second.marked row member user used with earlier | new
    · exact first.marked row earlier user used
    · exact .inr fun has => new (first.users user has)

/-- Every used invite names an account, and no two name the same. -/
structure Attributed (tables : Tables) : Prop where
  hasUser : ∀ row ∈ tables.invites.rows, ∀ user, row.usedByUser = some user →
    tables.HasUser user
  injective : ∀ row ∈ tables.invites.rows, ∀ other ∈ tables.invites.rows, ∀ user,
    row.usedByUser = some user → other.usedByUser = some user → row = other

theorem attributed_created : created.Attributed where
  hasUser := by simp [created, KeyedTable.empty]
  injective := by simp [created, KeyedTable.empty]

theorem hasUser_updateUsers {tables : Tables} {user : ByteString}
    {change : UserRow → UserRow} {keeps : ∀ row, (change row).user = row.user}
    (name : ByteString) :
    (tables.updateUsers user change keeps).HasUser name ↔ tables.HasUser name := by
  simp only [HasUser, updateUsers]
  rw [KeyedTable.update_keys]

theorem Evolves.of_invites_eq {before after : Tables}
    (users : ∀ user, before.HasUser user → after.HasUser user)
    (invites : after.invites = before.invites) : before.Evolves after where
  users := users
  used := fun _ member _ => invites ▸ member
  invites := fun row member => ⟨row, invites ▸ member, rfl, rfl⟩
  marked := fun _ member _ _ => .inl (invites ▸ member)

theorem Attributed.of_invites_eq {before after : Tables} (attributed : before.Attributed)
    (users : ∀ user, before.HasUser user → after.HasUser user)
    (invites : after.invites = before.invites) : after.Attributed where
  hasUser := fun row member user used =>
    users user (attributed.hasUser row (invites ▸ member) user used)
  injective := fun row member other otherMem =>
    attributed.injective row (invites ▸ member) other (invites ▸ otherMem)

/-- Marking an unused invite and creating the user it is marked for. -/
def register (tables : Tables) (code user : ByteString) (hash : Option ByteString)
    (usedAt : Int) : Option Tables :=
  (tables.users.insert ⟨user, hash, false, none⟩).map fun users =>
    { tables.markInvite usedAt user code with users := users }

section Register

variable {before after : Tables} {code user : ByteString} {hash : Option ByteString}
variable {usedAt : Int}

theorem register_eq_some :
    before.register code user hash usedAt = some after ↔
      ¬ before.HasUser user ∧
        after.users.rows = before.users.rows ++ [⟨user, hash, false, none⟩] ∧
        after.invites = (before.markInvite usedAt user code).invites ∧
        after.messages = before.messages ∧ after.apiKeys = before.apiKeys := by
  simp only [register, Option.map_eq_some_iff, KeyedTable.insert_eq_some]
  constructor
  · rintro ⟨users, ⟨free, rows⟩, rfl⟩
    exact ⟨free, rows, rfl, rfl, rfl⟩
  · rintro ⟨free, rows, invites, messages, apiKeys⟩
    refine ⟨after.users, ⟨free, rows⟩, ?_⟩
    cases after
    simp_all [markInvite]

theorem mem_markInvite {row : InviteRow} :
    row ∈ (before.markInvite usedAt user code).invites.rows ↔
      (∃ old ∈ before.invites.rows, old.code = code ∧ old.usedAt = none ∧
        row = { old with usedAt := some usedAt, usedByUser := some user }) ∨
      (row ∈ before.invites.rows ∧ (row.code = code → row.usedAt.isSome)) := by
  simp only [markInvite, KeyedTable.mem_update, Bool.and_eq_true, decide_eq_true_eq,
    Option.isNone_iff_eq_none, Bool.and_eq_false_iff, decide_eq_false_iff_not]
  constructor
  · rintro (⟨old, member, ⟨same, unused⟩, rfl⟩ | ⟨member, kept⟩)
    · exact .inl ⟨old, member, same, unused, rfl⟩
    · refine .inr ⟨member, fun same => ?_⟩
      rcases kept with different | used
      · exact absurd same different
      · simpa using used
  · rintro (⟨old, member, same, unused, rfl⟩ | ⟨member, kept⟩)
    · exact .inl ⟨old, member, ⟨same, unused⟩, rfl⟩
    · refine .inr ⟨member, ?_⟩
      by_cases same : row.code = code
      · exact .inr (by simpa using kept same)
      · exact .inl same

theorem hasUser_of_register (registered : before.register code user hash usedAt = some after)
    (name : ByteString) : after.HasUser name ↔ before.HasUser name ∨ name = user := by
  obtain ⟨-, rows, -⟩ := register_eq_some.mp registered
  simp [HasUser, rows]

theorem evolves_of_register
    (registered : before.register code user hash usedAt = some after) :
    before.Evolves after := by
  obtain ⟨free, -, invites, -⟩ := register_eq_some.mp registered
  refine ⟨fun name has => (hasUser_of_register registered name).mpr (.inl has), ?_, ?_, ?_⟩
  · intro row member used
    rw [invites, mem_markInvite]
    exact .inr ⟨member, fun _ => used⟩
  · intro row member
    rw [invites]
    by_cases matched : row.code = code ∧ row.usedAt = none
    · exact ⟨{ row with usedAt := some usedAt, usedByUser := some user },
        mem_markInvite.mpr (.inl ⟨row, member, matched.1, matched.2, rfl⟩), rfl, rfl⟩
    · refine ⟨row, mem_markInvite.mpr (.inr ⟨member, fun same => ?_⟩), rfl, rfl⟩
      exact Option.isSome_iff_ne_none.mpr fun unused => matched ⟨same, unused⟩
  · intro row member name used
    rw [invites, mem_markInvite] at member
    rcases member with ⟨old, _, _, _, rfl⟩ | ⟨member, _⟩
    · cases used
      exact .inr free
    · exact .inl member

theorem Attributed.register (attributed : before.Attributed)
    (registered : before.register code user hash usedAt = some after) :
    after.Attributed := by
  obtain ⟨free, -, invites, -⟩ := register_eq_some.mp registered
  constructor
  · intro row member name used
    rw [hasUser_of_register registered]
    rw [invites, mem_markInvite] at member
    rcases member with ⟨old, _, _, _, rfl⟩ | ⟨member, _⟩
    · cases used
      exact .inr rfl
    · exact .inl (attributed.hasUser row member name used)
  · intro row member other otherMem name used otherUsed
    rw [invites, mem_markInvite] at member otherMem
    rcases member with ⟨old, oldMem, oldCode, _, rfl⟩ | ⟨member, _⟩ <;>
      rcases otherMem with ⟨otherOld, otherOldMem, otherCode, _, rfl⟩ | ⟨otherMem, _⟩
    · rw [before.invites.eq_of_key_eq oldMem otherOldMem (oldCode.trans otherCode.symm)]
    · cases used
      exact absurd (attributed.hasUser other otherMem user otherUsed) free
    · cases otherUsed
      exact absurd (attributed.hasUser row member user used) free
    · exact attributed.injective row member other otherMem name used otherUsed

end Register

end Tables

namespace Statement

def isPlain : Statement → Bool
  | .useInvite _ _ _ => false
  | _ => true

variable {statement : Statement} {now : Instant} {before after : Tables} {outcome : Outcome}

theorem hasUser_of_apply (applied : statement.apply now before = .ok (outcome, after))
    {user : ByteString} (has : before.HasUser user) : after.HasUser user := by
  cases statement with
  | insertUser name hash =>
      simp only [apply] at applied
      split at applied <;> cases applied
      case h_1 users inserted =>
        simp only [Tables.HasUser, (KeyedTable.insert_eq_some.mp inserted).2,
          List.map_append, List.mem_append]
        exact .inl has
  | setUserAdmin name =>
      cases applied
      exact (Tables.hasUser_updateUsers user).mpr has
  | setPassword name hash =>
      cases applied
      exact (Tables.hasUser_updateUsers user).mpr has
  | setAvatar name data =>
      cases applied
      exact (Tables.hasUser_updateUsers user).mpr has
  | insertInvite code expiresAt createdBy =>
      simp only [apply] at applied
      split at applied <;> cases applied
      exact has
  | useInvite usedAt name code =>
      cases applied
      exact has
  | insertMessage row =>
      simp only [apply] at applied
      split at applied <;> cases applied
      exact has
  | insertAPIKey userID adminUserID keyHash name =>
      simp only [apply] at applied
      split at applied <;> cases applied
      exact has
  | deleteAPIKey id =>
      cases applied
      exact has

theorem messages_of_apply (applied : statement.apply now before = .ok (outcome, after)) :
    (∃ row, statement = .insertMessage row ∧ before.messages.insert row = some after.messages) ∨
      after.messages = before.messages := by
  cases statement with
  | insertMessage row =>
      simp only [apply] at applied
      split at applied <;> cases applied
      case h_1 messages inserted => exact .inl ⟨row, rfl, inserted⟩
  | insertUser user hash =>
      simp only [apply] at applied
      split at applied <;> cases applied
      exact .inr rfl
  | insertInvite code expiresAt createdBy =>
      simp only [apply] at applied
      split at applied <;> cases applied
      exact .inr rfl
  | insertAPIKey userID adminUserID keyHash name =>
      simp only [apply] at applied
      split at applied <;> cases applied
      exact .inr rfl
  | setUserAdmin user => cases applied; exact .inr rfl
  | setPassword user hash => cases applied; exact .inr rfl
  | setAvatar user data => cases applied; exact .inr rfl
  | useInvite usedAt user code => cases applied; exact .inr rfl
  | deleteAPIKey id => cases applied; exact .inr rfl

theorem invites_of_apply (plain : statement.isPlain = true)
    (applied : statement.apply now before = .ok (outcome, after)) :
    after.invites = before.invites ∨
      ∃ code expiresAt createdBy, statement = .insertInvite code expiresAt createdBy ∧
        after.invites.rows =
          before.invites.rows ++ [⟨code, expiresAt, createdBy, none, none⟩] := by
  cases statement with
  | insertInvite code expiresAt createdBy =>
      simp only [apply] at applied
      split at applied <;> cases applied
      case h_1 invites inserted =>
        exact .inr ⟨code, expiresAt, createdBy, rfl, (KeyedTable.insert_eq_some.mp inserted).2⟩
  | useInvite usedAt name code => cases plain
  | insertUser name hash =>
      simp only [apply] at applied
      split at applied <;> cases applied
      exact .inl rfl
  | insertMessage row =>
      simp only [apply] at applied
      split at applied <;> cases applied
      exact .inl rfl
  | insertAPIKey userID adminUserID keyHash name =>
      simp only [apply] at applied
      split at applied <;> cases applied
      exact .inl rfl
  | setUserAdmin name => cases applied; exact .inl rfl
  | setPassword name hash => cases applied; exact .inl rfl
  | setAvatar name data => cases applied; exact .inl rfl
  | deleteAPIKey id => cases applied; exact .inl rfl

theorem evolves_of_apply (plain : statement.isPlain = true)
    (applied : statement.apply now before = .ok (outcome, after)) :
    before.Evolves after := by
  have users : ∀ user, before.HasUser user → after.HasUser user :=
    fun user => hasUser_of_apply applied
  rcases invites_of_apply plain applied with same | ⟨code, expiresAt, createdBy, -, rows⟩
  · exact .of_invites_eq users same
  · refine ⟨users, ?_, ?_, ?_⟩
    · exact fun row member _ => rows ▸ List.mem_append_left _ member
    · exact fun row member => ⟨row, rows ▸ List.mem_append_left _ member, rfl, rfl⟩
    · intro row member user used
      rw [rows, List.mem_append, List.mem_singleton] at member
      rcases member with old | rfl
      · exact .inl old
      · cases used

theorem attributed_of_apply (plain : statement.isPlain = true)
    (applied : statement.apply now before = .ok (outcome, after))
    (attributed : before.Attributed) : after.Attributed := by
  have users : ∀ user, before.HasUser user → after.HasUser user :=
    fun user => hasUser_of_apply applied
  rcases invites_of_apply plain applied with same | ⟨code, expiresAt, createdBy, -, rows⟩
  · exact attributed.of_invites_eq users same
  · constructor
    · intro row member user used
      rw [rows, List.mem_append, List.mem_singleton] at member
      rcases member with old | rfl
      · exact users user (attributed.hasUser row old user used)
      · cases used
    · intro row member other otherMem user used otherUsed
      rw [rows, List.mem_append, List.mem_singleton] at member otherMem
      rcases member with old | rfl
      · rcases otherMem with otherOld | rfl
        · exact attributed.injective row old other otherOld user used otherUsed
        · cases otherUsed
      · cases used

end Statement

theorem Query.eval_inviteExpiry {tables : Tables} {code : ByteString} {expiresAt : Int}
    (answered : Query.eval (.inviteExpiry code) tables = some expiresAt) :
    ∃ invite ∈ tables.invites.rows, invite.code = code ∧ invite.expiresAt = expiresAt ∧
      invite.usedAt = none := by
  simp only [Query.eval] at answered
  split at answered
  case h_2 => cases answered
  case h_1 invite found =>
    have answered : (if invite.usedAt = none then some invite.expiresAt else none : Option Int) =
        some expiresAt := answered
    split at answered <;> cases answered
    case isTrue unused =>
      obtain ⟨member, sameCode⟩ := KeyedTable.find_eq_some.mp found
      exact ⟨invite, member, sameCode, rfl, unused⟩

/-! ## The operations a method reaches -/

def Query.isHistory : Query → Bool
  | .lastMessages _ _ | .messagesSince _ => true
  | _ => false

def Op.isPlainRead : Op → Bool
  | .begin | .now | .bcrypt _ => true
  | .query _ asked => !asked.isHistory
  | _ => false

def Op.isLookup : Op → Bool
  | .query inTx asked => !inTx && !asked.isHistory
  | .now | .bcrypt _ => true
  | _ => false

def Op.isOutside : Op → Bool
  | .exec inTx statement => !inTx && statement.isPlain
  | .query inTx _ => !inTx
  | .now | .bcrypt _ => true
  | _ => false

theorem Op.isOutside_of_isLookup {op : Op} (lookup : op.isLookup = true) :
    op.isOutside = true := by
  cases op <;> simp_all [isLookup, isOutside]

theorem Op.isPlainRead_of_isLookup {op : Op} (lookup : op.isLookup = true) :
    op.isPlainRead = true := by
  cases op <;> simp_all [isLookup, isPlainRead]

theorem Op.isRead_of_isPlainRead {op : Op} (read : op.isPlainRead = true) :
    op.isRead = true := by
  cases op <;> simp_all [isPlainRead, isRead]

namespace Store

variable {libraries : Libraries} {P : Op → Prop}

theorem execOnly_only {statement : Statement} (writes : P (.exec false statement)) :
    (execOnly statement).Only P := by
  refine ⟨writes, fun result => ?_⟩
  cases result <;> trivial

theorem execInsert_only {statement : Statement} (writes : P (.exec false statement)) :
    (execInsert statement).Only P := by
  refine ⟨writes, fun result => ?_⟩
  cases result <;> trivial

theorem sync_only (since limit : Int)
    (reads : ∀ asked : Query, asked.isHistory = true → P (.query false asked)) :
    (sync since limit).Only P := by
  unfold sync
  split
  all_goals
    refine ⟨reads _ rfl, fun result => ?_⟩
    cases result <;> trivial

theorem hashPassword_only {password : ByteString} (hashes : P (.bcrypt password)) :
    (hashPassword password).Only P := by
  unfold hashPassword
  split
  · trivial
  · refine ⟨hashes, fun result => ?_⟩
    cases result <;> trivial

section Lookups

variable (lookups : ∀ op : Op, op.isLookup = true → P op)
include lookups

theorem createUser_only {user password : ByteString}
    (writes : ∀ hash, P (.exec false (.insertUser user hash))) :
    (createUser user password).Only P := by
  refine (hashPassword_only (lookups _ rfl)).bind fun result => ?_
  cases result with
  | error error => trivial
  | ok hash => exact execOnly_only (writes hash)

theorem isUserAdmin_only (userID : ByteString) : (isUserAdmin userID).Only P := by
  refine ⟨lookups _ rfl, fun result => ?_⟩
  rcases result with error | none | isAdmin <;> trivial

theorem verifyUser_only (user password : ByteString) :
    (verifyUser libraries user password).Only P := by
  refine ⟨lookups _ rfl, fun result => ?_⟩
  rcases result with error | none | none | hash <;> trivial

theorem changePassword_only {userID currentPassword newPassword : ByteString}
    (writes : ∀ hash, P (.exec false (.setPassword userID hash))) :
    (changePassword libraries userID currentPassword newPassword).Only P := by
  refine (verifyUser_only lookups userID currentPassword).bind fun verified => ?_
  rcases verified with error | _ | _
  · trivial
  · trivial
  · refine ⟨lookups _ rfl, fun result => ?_⟩
    cases result with
    | error error => trivial
    | ok hash =>
        refine ⟨writes hash, fun result => ?_⟩
        cases result <;> trivial

theorem getAvatar_only (userID : ByteString) : (getAvatar userID).Only P := by
  refine ⟨lookups _ rfl, fun result => ?_⟩
  rcases result with error | none | avatar <;> trivial

theorem hasAvatar_only (userID : ByteString) : (hasAvatar userID).Only P := by
  refine ⟨lookups _ rfl, fun result => ?_⟩
  rcases result with error | none | none | avatar <;> trivial

theorem createUserCount_only : createUserCount.Only P := by
  refine ⟨lookups _ rfl, fun result => ?_⟩
  cases result <;> trivial

theorem validateInvite_only (code : ByteString) : (validateInvite libraries code).Only P := by
  refine ⟨lookups _ rfl, fun result => ?_⟩
  rcases result with error | none | expiresAt
  · trivial
  · trivial
  · dsimp only [Program.bind]
    cases Calendar.parseRFC3339 libraries.location expiresAt with
    | error error => trivial
    | ok expiry => exact ⟨lookups _ rfl, fun _ => trivial⟩

theorem getAPIKeyByHash_only (keyHash : ByteString) : (getAPIKeyByHash keyHash).Only P := by
  refine ⟨lookups _ rfl, fun result => ?_⟩
  rcases result with error | none | userID <;> trivial

theorem listAllAPIKeys_only : listAllAPIKeys.Only P := by
  refine ⟨lookups _ rfl, fun result => ?_⟩
  cases result <;> trivial

theorem listUsers_only : listUsers.Only P := by
  refine ⟨lookups _ rfl, fun result => ?_⟩
  cases result <;> trivial

end Lookups

section Reads

variable (reads : ∀ op : Op, op.isPlainRead = true → P op)
include reads

theorem createAndCommit_only {user : ByteString} (password : ByteString)
    (inserts : ∀ hash, P (.exec true (.insertUser user hash))) (commits : P .commit) :
    (createAndCommit user password).Only P := by
  refine (hashPassword_only (reads _ rfl)).bind fun hashed => ?_
  cases hashed with
  | error error => trivial
  | ok hash =>
    refine ⟨inserts hash, fun result => ?_⟩
    cases result with
    | error error => trivial
    | ok outcome =>
      refine ⟨commits, fun result => ?_⟩
      cases result <;> trivial

theorem markAndCreate_only {code user : ByteString} (password : ByteString)
    (marks : ∀ usedAt, P (.exec true (.useInvite usedAt user code)))
    (inserts : ∀ hash, P (.exec true (.insertUser user hash))) (commits : P .commit) :
    (markAndCreate code user password).Only P := by
  refine ⟨reads _ rfl, fun usedAt => ⟨marks _, fun result => ?_⟩⟩
  cases result with
  | error error => trivial
  | ok outcome =>
    dsimp only [Program.bind]
    split
    case isTrue => trivial
    case isFalse => exact createAndCommit_only reads password inserts commits

theorem registerInTransaction_only {code user password : ByteString}
    (marks : ∀ usedAt, P (.exec true (.useInvite usedAt user code)))
    (inserts : ∀ hash, P (.exec true (.insertUser user hash)))
    (commits : P .commit) :
    (registerInTransaction libraries code user password).Only P := by
  refine ⟨reads _ rfl, fun result => ?_⟩
  rcases result with error | none | expiresAt
  · trivial
  · trivial
  dsimp only [Program.bind]
  cases Calendar.parseRFC3339 libraries.location expiresAt with
  | error error => trivial
  | ok expiry =>
    refine ⟨reads _ rfl, fun checked => ?_⟩
    dsimp only [Program.bind]
    split
    case isTrue => trivial
    case isFalse => exact markAndCreate_only reads password marks inserts commits

theorem registerWithInvite_only {code user password : ByteString}
    (marks : ∀ usedAt, P (.exec true (.useInvite usedAt user code)))
    (inserts : ∀ hash, P (.exec true (.insertUser user hash)))
    (commits : P .commit) (rollbacks : P .rollback) :
    (registerWithInvite libraries code user password).Only P := by
  refine ⟨reads _ rfl, fun result => ?_⟩
  cases result with
  | error error => trivial
  | ok _ =>
    refine (registerInTransaction_only reads marks inserts commits).bind fun result => ?_
    exact ⟨rollbacks, fun _ => trivial⟩

end Reads

end Store

def Call.isRegistration : Call → Bool
  | .registerWithInvite _ _ _ => true
  | _ => false

def Call.permits : Call → Op → Prop
  | .createUser user _, .exec false (.insertUser name _) => name = user
  | .registerWithInvite code user _, .exec true (.useInvite _ name used) =>
      name = user ∧ used = code
  | .registerWithInvite _ user _, .exec true (.insertUser name _) => name = user
  | .registerWithInvite _ _ _, .query true asked => asked.isHistory = false
  | .registerWithInvite _ _ _, .begin => True
  | .registerWithInvite _ _ _, .commit => True
  | .registerWithInvite _ _ _, .rollback => True
  | .createUserNoPassword user, .exec false statement => statement = .insertUser user none
  | .setUserAdmin userID, .exec false statement => statement = .setUserAdmin userID
  | .changePassword userID _ _, .exec false (.setPassword user _) => user = userID
  | .setAvatar userID data, .exec false statement => statement = .setAvatar userID data
  | .createInvite code expiresAt createdBy, .exec false statement =>
      statement = .insertInvite code (Calendar.unixSeconds expiresAt) createdBy
  | .save message, .exec false statement => statement = .insertMessage message
  | .sync _ _, .query false asked => asked.isHistory = true
  | .createAPIKey userID adminUserID keyHash name, .exec false statement =>
      statement = .insertAPIKey userID adminUserID keyHash name
  | .revokeAPIKey keyID, .exec false statement => statement = .deleteAPIKey keyID
  | _, _ => False

theorem Call.run_only {libraries : Libraries} {P : Op → Prop}
    (lookups : ∀ op : Op, op.isLookup = true → P op) (call : Call)
    (permitted : ∀ op, call.permits op → P op) : (call.run libraries).Only P := by
  cases call with
  | createUser user password =>
      exact (Store.createUser_only lookups fun _ => permitted _ rfl).bind fun _ => trivial
  | registerWithInvite code user password =>
      have reads : ∀ op : Op, op.isPlainRead = true → P op := by
        intro op read
        cases op with
        | begin => exact permitted .begin trivial
        | now => exact lookups .now rfl
        | bcrypt password => exact lookups (.bcrypt password) rfl
        | exec inTx statement => cases read
        | commit => cases read
        | rollback => cases read
        | query inTx asked =>
            have other : asked.isHistory = false := by simpa [Op.isPlainRead] using read
            cases inTx with
            | false => exact lookups (.query false asked) (by simp [Op.isLookup, other])
            | true => exact permitted (.query true asked) other
      exact (Store.registerWithInvite_only reads (fun _ => permitted _ ⟨rfl, rfl⟩)
        (fun _ => permitted _ rfl) (permitted .commit trivial)
        (permitted .rollback trivial)).bind fun _ => trivial
  | createUserNoPassword user =>
      exact (Store.execOnly_only (permitted _ rfl)).bind fun _ => trivial
  | setUserAdmin userID => exact (Store.execOnly_only (permitted _ rfl)).bind fun _ => trivial
  | isUserAdmin userID => exact (Store.isUserAdmin_only lookups userID).bind fun _ => trivial
  | verifyUser user password =>
      exact (Store.verifyUser_only lookups user password).bind fun _ => trivial
  | changePassword userID currentPassword newPassword =>
      exact (Store.changePassword_only lookups fun _ => permitted _ rfl).bind fun _ => trivial
  | setAvatar userID data => exact (Store.execOnly_only (permitted _ rfl)).bind fun _ => trivial
  | getAvatar userID => exact (Store.getAvatar_only lookups userID).bind fun _ => trivial
  | hasAvatar userID => exact (Store.hasAvatar_only lookups userID).bind fun _ => trivial
  | createUserCount => exact (Store.createUserCount_only lookups).bind fun _ => trivial
  | createInvite code expiresAt createdBy =>
      exact (Store.execOnly_only (permitted _ rfl)).bind fun _ => trivial
  | validateInvite code => exact (Store.validateInvite_only lookups code).bind fun _ => trivial
  | save message => exact (Store.execInsert_only (permitted _ rfl)).bind fun _ => trivial
  | sync since limit =>
      exact (Store.sync_only since limit fun asked history =>
        permitted (.query false asked) history).bind fun _ => trivial
  | createAPIKey userID adminUserID keyHash name =>
      exact (Store.execInsert_only (permitted _ rfl)).bind fun _ => trivial
  | getAPIKeyByHash keyHash =>
      exact (Store.getAPIKeyByHash_only lookups keyHash).bind fun _ => trivial
  | listAllAPIKeys => exact (Store.listAllAPIKeys_only lookups).bind fun _ => trivial
  | revokeAPIKey keyID => exact (Store.execOnly_only (permitted _ rfl)).bind fun _ => trivial
  | listUsers => exact (Store.listUsers_only lookups).bind fun _ => trivial

theorem Call.run_outside {libraries : Libraries} {call : Call}
    (other : call.isRegistration = false) :
    (call.run libraries).Only fun op => op.isOutside = true := by
  apply Call.run_only fun _ => Op.isOutside_of_isLookup
  intro op permitted
  unfold Call.permits at permitted
  split at permitted <;>
    simp_all [Call.isRegistration, Op.isOutside, Statement.isPlain]

end Grunt.Storage
