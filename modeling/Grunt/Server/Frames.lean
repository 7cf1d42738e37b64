import Grunt.Storage.Alone
import Grunt.Server.Identities

/-! # What a request may write

A request that is handled to completion changes no more of the tables than the
identity behind it allows, or it is one registration.
-/

namespace Grunt.Server

open Foundation Storage

/-! ## The frame -/

def World.caller (platform : Platform) (world : World) (request : Request) : Option ByteString :=
  if extractToken request = [] then none else world.owner platform (extractToken request)

/-- The hash of a row is replaced by that of the request's new password, after
its current password has been verified. -/
def Replaces (platform : Platform) (request : Request) (old new : UserRow) : Prop :=
  ∃ field hash salt replacement,
    bodyFields request [utf8 "current_password", utf8 "new_password"] = some field ∧
    old.passwordHash = some hash ∧
    platform.bcryptCompare hash (field (utf8 "current_password")) = true ∧
    platform.bcryptGenerate salt (field (utf8 "new_password")) = .ok replacement ∧
    new.passwordHash = some replacement

/-- What becomes of a row of `users`. -/
structure RowFrame (platform : Platform) (request : Request) (identity : Identity)
    (old new : UserRow) : Prop where
  user : new.user = old.user
  isAdmin : new.isAdmin = old.isAdmin
  passwordHash : new.passwordHash = old.passwordHash ∨
    (identity.userID ≠ [] ∧ old.user = identity.userID ∧ Replaces platform request old new)
  avatar : new.avatar = old.avatar ∨ (identity.userID ≠ [] ∧ old.user = identity.userID)

structure WriteFrame (platform : Platform) (request : Request) (identity : Identity)
    (before after : Tables) : Prop where
  kept : ∀ (index : Nat) old, before.users.rows[index]? = some old →
    ∃ new, after.users.rows[index]? = some new ∧ RowFrame platform request identity old new
  added : ∀ (index : Nat) row, before.users.rows[index]? = none → after.users.rows[index]? = some row →
    identity.isAdmin = true ∧ row.isAdmin = false
  invites : ∃ added, after.invites.rows = before.invites.rows ++ added ∧ ∀ row ∈ added,
    identity.authenticated = true ∧ row.createdByUser = identity.userID ∧ row.usedAt = none
  messages : ∃ added, after.messages.rows = before.messages.rows ++ added ∧
    (added = [] → after.messages = before.messages) ∧ ∀ entry ∈ added,
      identity.userID ≠ [] ∧ entry.2.user = identity.userID
  apiKeys : after.apiKeys = before.apiKeys ∨ identity.isAdmin = true

def RegistersOne (world : Storage.World) (after : Tables) : Prop :=
  ∃ code user registered, Registers world code user registered ∧
    (after = registered ∨ (registered.users.rows.length = 1 ∧
      ∃ now outcome, (Statement.setUserAdmin user).apply now registered = .ok (outcome, after)))

section Frames

variable {platform : Platform} {request : Request} {identity : Identity}
variable {before after : Tables}

theorem RowFrame.refl (row : UserRow) : RowFrame platform request identity row row :=
  ⟨rfl, rfl, .inl rfl, .inl rfl⟩

theorem RowFrame.trans {one two three : UserRow}
    (first : RowFrame platform request identity one two)
    (second : RowFrame platform request identity two three) :
    RowFrame platform request identity one three where
  user := second.user.trans first.user
  isAdmin := second.isAdmin.trans first.isAdmin
  passwordHash := by
    rcases second.passwordHash with same | ⟨named, own, field, hash, salt, replacement, parsed,
      hashed, compared, generated, replaced⟩
    · rcases first.passwordHash with kept | ⟨named, own, field, hash, salt, replacement, parsed,
        hashed, compared, generated, replaced⟩
      · exact .inl (same.trans kept)
      · exact .inr ⟨named, own, field, hash, salt, replacement, parsed, hashed, compared,
          generated, same.trans replaced⟩
    · have ownFirst := first.user ▸ own
      rcases first.passwordHash with kept | ⟨-, -, field', hash', -, -, parsed', hashed',
        compared', -⟩
      · exact .inr ⟨named, ownFirst, field, hash, salt, replacement, parsed, kept ▸ hashed,
          compared, generated, replaced⟩
      · cases parsed.symm.trans parsed'
        exact .inr ⟨named, ownFirst, field, hash', salt, replacement, parsed, hashed',
          compared', generated, replaced⟩
  avatar := by
    rcases first.avatar with kept | own
    · rcases second.avatar with same | ⟨named, own⟩
      · exact .inl (same.trans kept)
      · exact .inr ⟨named, first.user ▸ own⟩
    · exact .inr own

theorem WriteFrame.refl (tables : Tables) : WriteFrame platform request identity tables tables where
  kept := fun _ old found => ⟨old, found, .refl old⟩
  added := fun _ _ missing found => by cases missing.symm.trans found
  invites := ⟨[], by simp, nofun⟩
  messages := ⟨[], by simp, fun _ => rfl, nofun⟩
  apiKeys := .inl rfl

theorem WriteFrame.trans {one two three : Tables} (first : WriteFrame platform request identity one two)
    (second : WriteFrame platform request identity two three) :
    WriteFrame platform request identity one three where
  kept := fun index old found => by
    obtain ⟨middle, reached, kept⟩ := first.kept index old found
    obtain ⟨new, ended, keptAgain⟩ := second.kept index middle reached
    exact ⟨new, ended, kept.trans keptAgain⟩
  added := fun index row missing found => by
    cases middle : two.users.rows[index]? with
    | none => exact second.added index row middle found
    | some earlier =>
        obtain ⟨isAdmin, plain⟩ := first.added index earlier missing middle
        obtain ⟨new, ended, kept⟩ := second.kept index earlier middle
        cases ended.symm.trans found
        exact ⟨isAdmin, kept.isAdmin.trans plain⟩
  invites := by
    obtain ⟨added, rows, own⟩ := first.invites
    obtain ⟨addedLater, rowsLater, ownLater⟩ := second.invites
    exact ⟨added ++ addedLater, by rw [rowsLater, rows, List.append_assoc], fun row member =>
      (List.mem_append.mp member).elim (own row) (ownLater row)⟩
  messages := by
    obtain ⟨added, rows, same, own⟩ := first.messages
    obtain ⟨addedLater, rowsLater, sameLater, ownLater⟩ := second.messages
    refine ⟨added ++ addedLater, by rw [rowsLater, rows, List.append_assoc], fun none => ?_,
      fun row member => (List.mem_append.mp member).elim (own row) (ownLater row)⟩
    obtain ⟨noneFirst, noneLater⟩ := List.append_eq_nil_iff.mp none
    exact (sameLater noneLater).trans (same noneFirst)
  apiKeys := by
    rcases second.apiKeys with same | isAdmin
    · exact first.apiKeys.imp same.trans id
    · exact .inr isAdmin

theorem WriteFrame.eq_of_anonymous (frame : WriteFrame platform request .anonymous before after) :
    after = before := by
  have users : after.users = before.users := by
    refine KeyedTable.ext (List.ext_getElem? fun index => ?_)
    cases found : before.users.rows[index]? with
    | none =>
        cases later : after.users.rows[index]? with
        | none => rfl
        | some row => cases (frame.added index row found later).1
    | some old =>
        obtain ⟨new, reached, user, isAdmin, passwordHash, avatar⟩ := frame.kept index old found
        rw [reached]
        have samePassword := passwordHash.resolve_right fun changed => changed.1 rfl
        have sameAvatar := avatar.resolve_right fun changed => changed.1 rfl
        cases old
        cases new
        simp_all
  have invites : after.invites = before.invites := by
    obtain ⟨added, rows, own⟩ := frame.invites
    have none : added = [] := List.eq_nil_iff_forall_not_mem.mpr fun row member => by
      cases (own row member).1
    exact KeyedTable.ext (by rw [rows, none, List.append_nil])
  have messages : after.messages = before.messages := by
    obtain ⟨added, -, same, own⟩ := frame.messages
    exact same (List.eq_nil_iff_forall_not_mem.mpr fun row member => (own row member).1 rfl)
  have apiKeys : after.apiKeys = before.apiKeys := frame.apiKeys.resolve_right nofun
  cases before
  cases after
  simp_all

/-! ### One statement -/

def Identity.may (identity : Identity) : Statement → Prop
  | .insertInvite _ _ createdBy =>
      identity.authenticated = true ∧ createdBy = identity.userID
  | .insertMessage row => identity.userID ≠ [] ∧ row.user = identity.userID
  | .setAvatar user _ => identity.userID ≠ [] ∧ user = identity.userID
  | .insertUser _ _ | .insertAPIKey _ _ _ _ | .deleteAPIKey _ => identity.isAdmin = true
  | _ => False

theorem WriteFrame.of_users (users : after.users = before.users)
    (invites : ∃ added, after.invites.rows = before.invites.rows ++ added ∧ ∀ row ∈ added,
      identity.authenticated = true ∧ row.createdByUser = identity.userID ∧ row.usedAt = none)
    (messages : ∃ added, after.messages.rows = before.messages.rows ++ added ∧
      (added = [] → after.messages = before.messages) ∧ ∀ entry ∈ added,
        identity.userID ≠ [] ∧ entry.2.user = identity.userID)
    (apiKeys : after.apiKeys = before.apiKeys ∨ identity.isAdmin = true) :
    WriteFrame platform request identity before after where
  kept := by
    have unchanged : WriteFrame platform request identity before before := .refl before
    rw [users]
    exact unchanged.kept
  added := by
    have unchanged : WriteFrame platform request identity before before := .refl before
    rw [users]
    exact unchanged.added
  invites := invites
  messages := messages
  apiKeys := apiKeys

theorem WriteFrame.of_change {user : ByteString} {change : UserRow → UserRow}
    {keeps : ∀ row, (change row).user = row.user}
    (framed : ∀ row ∈ before.users.rows, row.user = user →
      RowFrame platform request identity row (change row)) :
    WriteFrame platform request identity before (before.updateUsers user change keeps) where
  kept := fun index old found => by
    refine ⟨_, by
      rw [Tables.updateUsers, KeyedTable.update_rows, List.getElem?_map, found]
      rfl, ?_⟩
    change RowFrame platform request identity old
      (bif decide (old.user = user) then change old else old)
    cases matching : decide (old.user = user) with
    | true => exact framed old (List.mem_of_getElem? found) (of_decide_eq_true matching)
    | false => exact .refl old
  added := fun index row missing found => by
    rw [Tables.updateUsers, KeyedTable.update_rows, List.getElem?_map, missing] at found
    cases found
  invites := ⟨[], by simp [Tables.updateUsers], nofun⟩
  messages := ⟨[], by simp [Tables.updateUsers], fun _ => rfl, nofun⟩
  apiKeys := .inl rfl

theorem frame_of_apply {statement : Statement} {now : Instant} {outcome : Outcome}
    (may : identity.may statement)
    (applied : statement.apply now before = .ok (outcome, after)) :
    WriteFrame platform request identity before after := by
  have unchanged : WriteFrame platform request identity before before := .refl before
  cases statement with
  | insertInvite code expiresAt createdBy =>
      obtain ⟨authenticated, rfl⟩ := may
      simp only [Statement.apply] at applied
      split at applied <;> cases applied
      case h_1 invites inserted =>
        refine .of_users rfl ⟨_, (KeyedTable.insert_eq_some.mp inserted).2, ?_⟩
          unchanged.messages (.inl rfl)
        intro row member
        rw [List.mem_singleton.mp member]
        exact ⟨authenticated, rfl, rfl⟩
  | insertMessage message =>
      obtain ⟨named, own⟩ := may
      simp only [Statement.apply] at applied
      split at applied <;> cases applied
      case h_1 messages inserted =>
        refine .of_users rfl unchanged.invites
          ⟨_, (NumberedTable.insert_eq_some inserted).2,
            fun none => absurd none (List.cons_ne_nil _ _), ?_⟩ (.inl rfl)
        intro entry member
        rw [List.mem_singleton.mp member]
        exact ⟨named, own⟩
  | setAvatar user data =>
      obtain ⟨named, rfl⟩ := may
      cases applied
      exact .of_change fun row _ own => ⟨rfl, rfl, .inl rfl, .inr ⟨named, own⟩⟩
  | insertAPIKey userID adminUserID keyHash name =>
      simp only [Statement.apply] at applied
      split at applied <;> cases applied
      exact .of_users rfl unchanged.invites unchanged.messages (.inr may)
  | deleteAPIKey id =>
      cases applied
      exact .of_users rfl unchanged.invites unchanged.messages (.inr may)
  | insertUser user hash =>
      simp only [Statement.apply] at applied
      split at applied <;> cases applied
      case h_1 users inserted =>
        have rows := (KeyedTable.insert_eq_some.mp inserted).2
        refine ⟨?_, ?_, unchanged.invites, unchanged.messages, .inl rfl⟩
        · intro index old found
          obtain ⟨inside, -⟩ := List.getElem?_eq_some_iff.mp found
          exact ⟨old, by rw [rows, List.getElem?_append_left inside, found], .refl old⟩
        · intro index row missing found
          rw [rows, List.getElem?_append_right (List.getElem?_eq_none_iff.mp missing)] at found
          rw [List.mem_singleton.mp (List.mem_of_getElem? found)]
          exact ⟨may, rfl⟩
  | setUserAdmin | setPassword | useInvite => cases may

theorem frame_of_rehash {field : ByteString → ByteString}
    (parsed : bodyFields request [utf8 "current_password", utf8 "new_password"] = some field)
    (named : identity.userID ≠ [])
    (rehashes : Rehashes platform.toLibraries identity.userID (field (utf8 "current_password"))
      (field (utf8 "new_password")) before after) :
    WriteFrame platform request identity before after := by
  obtain ⟨row, member, hash, salt, replacement, own, hashed, compared, generated, now, outcome,
    applied⟩ := rehashes
  cases applied
  refine .of_change fun other otherMem otherOwn => ⟨rfl, rfl, .inr ⟨named, otherOwn, ?_⟩, .inl rfl⟩
  rw [before.users.eq_of_key_eq otherMem member (otherOwn.trans own.symm)]
  exact ⟨field, hash, salt, replacement, parsed, hashed, compared, generated, rfl⟩

end Frames

/-! ## A request that runs alone -/

section Alone

variable {platform : Platform} {thread : Nat} {world : World} {request : Request} {α : Type}

theorem tables_of_store {now : World} (same : now.store = world.store) :
    now.tables = world.tables := congrArg (fun store => store.database.committed) same

theorem store_alone {method : StoreProgram α} {Post : α → Storage.World → Prop}
    (ensures : method.Ensures (Storage.perform platform.toLibraries thread) Post world.store) :
    (store method).Ensures (perform platform thread)
      (fun value after => Post value after.store) world := by
  induction method generalizing world with
  | done value => exact ensures
  | perform op next induction =>
      exact fun choice result after performed =>
        induction result (ensures choice result after.store (perform_store performed))

theorem quiet_alone {program : ServerProgram α}
    (only : program.Only fun op => op.isQuiet = true) :
    program.Ensures (perform platform thread) (fun _ after => after.store = world.store) world :=
  only.ensures (fun _ _ _ _ _ quiet same performed =>
    (store_of_quiet quiet performed).trans same) rfl

def Bears (platform : Platform) (world : World) (request : Request) (identity : Identity) :
    Prop :=
  identity = .anonymous ∨
    (identity.authenticated = true ∧ world.caller platform request = some identity.userID ∧
      (identity.isAdmin = true → identity.userID ∈ world.tables.admins))

theorem authenticate_alone :
    (authenticate platform request).Ensures (perform platform thread)
      (fun identity after => Bears platform world request identity ∧ after.store = world.store)
      world := by
  unfold authenticate
  dsimp only
  split
  · exact ⟨.inl rfl, rfl⟩
  · next named =>
    have quiet : (validateToken platform (extractToken request)).Only fun op =>
        op.isQuiet = true := validateToken_only (fun _ => id) _
    refine ((validateToken_owner _).and (quiet_alone quiet)).bind fun valid reached known => ?_
    obtain ⟨owned, same⟩ := known
    cases valid with
    | none => exact ⟨.inl rfl, same⟩
    | some user =>
        intro choice answer after performed
        have kept : after.store = world.store := (store_of_quiet rfl performed).trans same
        have caller : world.caller platform request = some user := by
          rw [World.caller, if_neg named]
          exact owned user rfl
        rcases answer with error | none | isAdmin
        · exact ⟨.inr ⟨rfl, caller, nofun⟩, kept⟩
        · exact ⟨.inr ⟨rfl, caller, nofun⟩, kept⟩
        · refine ⟨.inr ⟨rfl, caller, fun isTrue => ?_⟩, kept⟩
          have answered := perform_query (perform_store performed)
          rw [same] at answered
          exact admin_of_query (answered.trans (congrArg some isTrue))

/-! ### The handlers -/

def Route.isFramed : Route → Bool
  | .registerUser | .register | .changePassword => false
  | _ => true

theorem may_of_permits {identity : Identity} {route : Route} {statement : Statement}
    (framed : route.isFramed = true)
    (permitted : route.permits identity (.store (.exec false statement))) :
    identity.may statement := by
  cases statement <;> cases route <;>
    first | exact permitted | exact permitted.1 | exact permitted.elim | cases framed

theorem frame_of_permits {identity : Identity} {route : Route} {op : Op} {choice : Choice}
    {result : op.Result} {before after : World} (framed : route.isFramed = true)
    (permitted : route.permits identity op)
    (performed : perform platform thread op choice before = some (result, after)) :
    WriteFrame platform request identity before.tables after.tables := by
  cases changes_of_perform performed with
  | unchanged same =>
      rw [same]
      exact .refl _
  | statement idle applied => exact frame_of_apply (may_of_permits framed permitted) applied
  | commit held => cases route <;> first | exact permitted.elim | cases framed

theorem framed_alone {identity : Identity} {route : Route} (framed : route.isFramed = true) :
    (dispatch platform request identity route).Ensures (perform platform thread)
      (fun _ after => WriteFrame platform request identity world.tables after.tables) world := by
  have only : (dispatch platform request identity route).Only fun op =>
      op.isQuiet = true ∨ route.permits identity op :=
    dispatch_only (fun _ => .inl) route fun _ => .inr
  refine only.ensures ?_ (WriteFrame.refl world.tables)
  rintro op choice now result after (quiet | permitted) frame performed
  · rw [tables_of_store (store_of_quiet quiet performed)]
    exact frame
  · exact frame.trans (frame_of_permits framed permitted performed)

theorem changePassword_framed {identity : Identity} :
    (changePassword platform request identity).Ensures (perform platform thread)
      (fun _ after => WriteFrame platform request identity world.tables after.tables) world := by
  unfold changePassword
  split
  · exact .refl _
  · next field parsed =>
    dsimp only
    split
    · exact .refl _
    · split
      · exact .refl _
      · next named =>
        refine (store_alone changePassword_alone).bind fun result after changed => ?_
        have frame : WriteFrame platform request identity world.tables after.tables := by
          rcases changed with same | rehashes
          · have tables : after.tables = world.tables := same
            rw [tables]
            exact .refl _
          · exact frame_of_rehash parsed named rehashes
        cases result with
        | error error =>
            dsimp only
            split <;> exact frame
        | ok _ => exact frame

def Concludes (world after : World) : Prop :=
  after.tables = world.tables ∨ RegistersOne world.store after.tables

theorem createUserCount_alone :
    (store Store.createUserCount).Ensures (perform platform thread)
      (fun count after => after.store = world.store ∧
        ∀ number, count = .ok number → world.tables.users.rows.length = number) world := by
  intro choice answer after performed
  have same : after.store = world.store := store_of_quiet rfl performed
  cases answer with
  | error error => exact ⟨same, nofun⟩
  | ok count =>
      refine ⟨same, fun number counted => ?_⟩
      cases counted
      exact perform_query (perform_store performed)

theorem setFirstAdmin_alone {code user : ByteString} {now : World}
    (registers : Registers world.store code user now.tables) :
    (setFirstAdmin user).Ensures (perform platform thread)
      (fun _ after => RegistersOne world.store after.tables) now := by
  refine createUserCount_alone.bind fun count counted known => ?_
  obtain ⟨same, number⟩ := known
  have tables := tables_of_store same
  have kept : RegistersOne world.store counted.tables :=
    ⟨code, user, now.tables, registers, .inl tables⟩
  split
  · intro choice granted ended performed
    rcases perform_exec (perform_store performed) with
      ⟨unchanged, error, rfl⟩ | ⟨-, outcome, written, rfl, applied, reached⟩
    · have ending := tables_of_store unchanged
      change RegistersOne world.store ended.tables
      rw [ending]
      exact kept
    · have ending : ended.tables = written := by
        rw [World.tables, reached]
        rfl
      refine ⟨code, user, now.tables, registers, .inr ⟨number 1 rfl,
        counted.store.clock, outcome, ?_⟩⟩
      rw [ending, ← tables]
      exact applied
  · exact kept

theorem startSession_alone {user : ByteString} {now : World} :
    (startSession user).Ensures (perform platform thread)
      (fun _ after => after.tables = now.tables) now := by
  have only : (startSession user).Only fun op => op.isQuiet = true ∨ op.leavesStore = true :=
    startSession_only (fun _ => .inl) fun _ _ => .inr rfl
  refine only.ensures ?_ rfl
  rintro op choice before result after (quiet | leaves) same performed
  · exact (tables_of_store (store_of_quiet quiet performed)).trans same
  · exact (tables_of_store (store_of_perform leaves performed)).trans same

theorem registerUser_alone (free : ¬ world.store.database.HeldBy thread) :
    (registerUser platform request).Ensures (perform platform thread)
      (fun _ => Concludes world) world := by
  unfold registerUser
  split
  · exact .inl rfl
  · dsimp only
    split
    · exact .inl rfl
    · refine (store_alone (registerWithInvite_alone _ free)).bind fun result after ended => ?_
      cases result with
      | error error => exact .inl ended.1.2
      | ok _ =>
          exact (setFirstAdmin_alone ended.1.2).bind fun _ _ registers => .inr registers

theorem handleRegisterSubmit_alone (free : ¬ world.store.database.HeldBy thread) :
    (handleRegisterSubmit platform request).Ensures (perform platform thread)
      (fun _ => Concludes world) world := by
  unfold handleRegisterSubmit
  split
  · exact .inl rfl
  · dsimp only
    split
    · exact .inl rfl
    · refine (store_alone (registerWithInvite_alone _ free)).bind fun result after ended => ?_
      cases result with
      | error error =>
          dsimp only
          split <;> exact .inl ended.1.2
      | ok _ =>
          refine (setFirstAdmin_alone ended.1.2).bind fun _ _ registers => ?_
          exact startSession_alone.mono fun _ _ same => .inr (same ▸ registers)

theorem dispatch_alone {identity : Identity} (free : ¬ world.store.database.HeldBy thread)
    (route : Route) :
    (dispatch platform request identity route).Ensures (perform platform thread)
      (fun _ after => WriteFrame platform request identity world.tables after.tables ∨
        RegistersOne world.store after.tables) world := by
  have concluded : ∀ after : World, Concludes world after →
      WriteFrame platform request identity world.tables after.tables ∨
        RegistersOne world.store after.tables := fun after => .imp (fun same => same ▸ .refl _) id
  cases route with
  | registerUser => exact (registerUser_alone free).mono fun _ => concluded
  | register => exact (handleRegisterSubmit_alone free).mono fun _ => concluded
  | changePassword => exact changePassword_framed.mono fun _ _ => .inl
  | getInvite | loginUser | index | sendMessage | streamMessages | syncMessages | adminCreateUser
    | adminListAPIKeys | adminCreateAPIKey | adminRevokeAPIKey | settings | logout | staticFiles
    | runtimeEmotes | avatarUpload | avatarGet | avatarGetUser | redirect =>
      exact (framed_alone rfl).mono fun _ _ => .inl

theorem serve_alone (free : ¬ world.store.database.HeldBy thread) :
    (serve platform request).Ensures (perform platform thread)
      (fun _ after => ∃ identity, Bears platform world request identity ∧
        (WriteFrame platform request identity world.tables after.tables ∨
          RegistersOne world.store after.tables)) world := by
  refine authenticate_alone.bind fun identity reached known => ?_
  obtain ⟨bears, same⟩ := known
  have tables := tables_of_store same
  refine (dispatch_alone (same ▸ free) _).mono fun _ after framed => ⟨identity, bears, ?_⟩
  rw [tables, same] at framed
  exact framed

end Alone

/-! ## The main result -/

/-- What a request handled to completion may have done, by the credential it carries. -/
structure RequestFrame (platform : Platform) (request : Request) (before after : World) :
    Prop where
  anonymous : before.caller platform request = none →
    after.tables = before.tables ∨ RegistersOne before.store after.tables
  user : ∀ user, before.caller platform request = some user → user ∉ before.tables.admins →
    WriteFrame platform request ⟨user, false, true⟩ before.tables after.tables ∨
      RegistersOne before.store after.tables
  keys : after.tables.apiKeys ≠ before.tables.apiKeys →
    ∃ user ∈ before.tables.admins, before.caller platform request = some user
  users : before.tables.users.rows.length < after.tables.users.rows.length →
    RegistersOne before.store after.tables ∨
      ∃ user ∈ before.tables.admins, before.caller platform request = some user

/-- Every request that is handled to completion from here stays in its frame,
and whoever is an admin, now or later, is the same user. -/
structure WritesFramed (platform : Platform) (config : ServerConfig) : Prop where
  requests : ∀ thread request choices response after, config.threads thread = .idle →
    (serve platform request).run (perform platform thread) choices config.scene.world =
      some (response, after) → RequestFrame platform request config.scene.world after
  admins : ∀ events later, AnyRun (next platform) config events later →
    ∀ one ∈ config.scene.world.tables.admins, ∀ two ∈ later.scene.world.tables.admins, one = two

section Main

variable {platform : Platform} {request : Request} {before after : World}

theorem apiKeys_of_registersOne {world : Storage.World} {tables : Tables}
    (registers : RegistersOne world tables) :
    tables.apiKeys = world.database.committed.apiKeys := by
  obtain ⟨code, user, registered, ⟨invite, -, hash, -, -, -, wrote⟩, same⟩ := registers
  obtain ⟨-, -, -, -, apiKeys⟩ := Tables.register_eq_some.mp wrote
  rcases same with rfl | ⟨-, now, outcome, applied⟩
  · exact apiKeys
  · cases applied
    exact apiKeys

theorem Bears.admin {identity : Identity} (bears : Bears platform before request identity)
    (isAdmin : identity.isAdmin = true) :
    ∃ user ∈ before.tables.admins, before.caller platform request = some user := by
  rcases bears with rfl | ⟨-, caller, admin⟩
  · cases isAdmin
  · exact ⟨identity.userID, admin isAdmin, caller⟩

theorem requestFrame_of_bears {identity : Identity}
    (bears : Bears platform before request identity)
    (framed : WriteFrame platform request identity before.tables after.tables ∨
      RegistersOne before.store after.tables) : RequestFrame platform request before after where
  anonymous := fun nobody => by
    rcases bears with rfl | ⟨-, caller, -⟩
    · exact framed.imp WriteFrame.eq_of_anonymous id
    · cases nobody.symm.trans caller
  user := fun user caller plain => by
    rcases bears with rfl | ⟨authenticated, named, admin⟩
    · refine framed.imp (fun frame => ?_) id
      rw [WriteFrame.eq_of_anonymous frame]
      exact .refl _
    · cases caller.symm.trans named
      obtain ⟨userID, isAdmin, _⟩ := identity
      cases authenticated
      cases isAdmin with
      | true => exact absurd (admin rfl) plain
      | false => exact framed
  keys := fun changed => by
    rcases framed with frame | registers
    · exact bears.admin (frame.apiKeys.resolve_left changed)
    · exact absurd (apiKeys_of_registersOne registers) changed
  users := fun longer => by
    refine framed.symm.imp id fun frame => bears.admin ?_
    have found := List.getElem?_eq_getElem longer
    exact (frame.added _ _ (List.getElem?_eq_none_iff.mpr (le_refl _)) found).1

def noTerms : Terms where
  keys := False
  first := False

theorem permits_noTerms (config : ServerConfig) (event : ServerEvent) :
    (accountRules noTerms).permits config event := by
  cases event with
  | arrive thread request => trivial
  | environment happening => trivial
  | restart => exact fun impossible => impossible.elim
  | step thread choice =>
      simp only [Rules.permits]
      split
      case h_2 => trivial
      case h_1 request op rest running =>
        change noTerms.allow op choice config.scene
        unfold Terms.allow
        split <;> first | exact fun impossible => impossible.elim | trivial

end Main

/-- In every state that is reached from a store without users, requests write
only what they may, and there is never a second admin. -/
theorem writes_framed {platform : Platform} {tables : Tables} {clock : Instant}
    {events : List ServerEvent} {config : ServerConfig} (nobody : tables.users.rows = [])
    (run : AnyRun (next platform) (start tables clock) events config) :
    WritesFramed platform config := by
  have unlimited : ∀ config (event : ServerEvent), True →
      (accountRules noTerms).permits config event := fun config event _ =>
    permits_noTerms config event
  have holds := accounts_of_run nobody False.elim (run.weaken unlimited)
  constructor
  · intro thread request choices response after idle completed
    have fresh := holds.2 thread
    rw [idle] at fresh
    obtain ⟨identity, bears, framed⟩ := (serve_alone fresh.2).sound completed
    exact requestFrame_of_bears bears framed
  · intro later final continued one isAdmin two isAdminLater
    have grows := grows_of_run holds (continued.weaken unlimited)
    have holdsLater := accountRules_valid.sound (continued.weaken unlimited) holds
    have first := holdsLater.1.led.heads (grows.admins one isAdmin)
    have second := holdsLater.1.led.heads isAdminLater
    exact Option.some.inj (first.symm.trans second)

theorem keyForAnn_framed : ∃ config : ServerConfig, WritesFramed .transparent config ∧
    config.owners = ([utf8 "ann"], [utf8 "ann"]) := by
  have executed : (execute (next .transparent) (start .created 0)
      (keyFor (utf8 "ann"))).map ServerConfig.owners =
        some ([utf8 "ann"], [utf8 "ann"]) := by
    decide +kernel
  obtain ⟨config, reached, owners⟩ := Option.map_eq_some_iff.mp executed
  exact ⟨config, writes_framed rfl (run_of_execute reached), owners⟩

end Grunt.Server
