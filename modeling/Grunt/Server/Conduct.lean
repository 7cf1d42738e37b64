import Grunt.Server.Accounts

/-! # Every handler keeps the accounts in order

The handlers against the interference of all the others. A registration is
followed step by step; the other handlers only need the table of what they
may do, and what they know of the identity they were given.
-/

namespace Grunt.Server

open Foundation Storage

/-! ## The rules -/

structure Around (thread : Nat) (before after : ServerScene) : Prop where
  own : after.own thread = before.own thread
  held : before.world.store.database.HeldBy thread →
    after.world.store.database = before.world.store.database
  free : after.world.store.database.HeldBy thread → before.world.store.database.HeldBy thread
  grows : before.tables.Grows after.tables

def Concluded (thread : Nat) (scene : ServerScene) : Prop :=
  scene.standing thread = .fresh ∨ scene.standing thread = .settled

def Terms.allowRestart (terms : Terms) (scene : ServerScene) : Prop :=
  terms.first → scene.tables.roll = [] ∨ scene.tables.admins ≠ []

def accountRules (terms : Terms) : Rules Op Op.Result World Storage.Choice Request Response where
  invariant := Accounts terms
  guarantee := fun _ (before after : ServerScene) => before.tables.Grows after.tables
  interference := Around
  allowed := fun _ => terms.allow
  restartAllowed := terms.allowRestart
  fresh := fun thread scene =>
    scene.own thread = [] ∧ ¬ scene.world.store.database.HeldBy thread
  finished := fun thread _ _ => Concluded thread
  lost := fun thread (scene : ServerScene) =>
    terms.first → scene.tables.admins ≠ [] ∨ scene.standing thread = .fresh

section Stable

variable {thread : Nat} {before after : ServerScene}

theorem Around.refl (thread : Nat) (scene : ServerScene) : Around thread scene scene :=
  ⟨rfl, fun _ => rfl, id, .refl _⟩

theorem Around.trans {one two three : ServerScene} (first : Around thread one two)
    (second : Around thread two three) : Around thread one three where
  own := second.own.trans first.own
  held := fun held => by
    have same := first.held held
    exact (second.held (same ▸ held)).trans same
  free := fun held => first.free (second.free held)
  grows := first.grows.trans second.grows

theorem Around.standing (around : Around thread before after) :
    after.standing thread = before.standing thread := by
  simp only [ServerScene.standing, around.own]

theorem Draft.stable {added : List (ByteString × Bool)} (draft : Draft thread added before)
    (around : Around thread before after) : Draft thread added after := by
  intro tables writer
  have same := around.held (around.free ⟨tables, writer⟩)
  simp only [ServerScene.tables, World.tables, same] at writer ⊢
  exact draft tables writer

end Stable

/-! ## Steps -/

section Steps

variable {platform : Platform} {terms : Terms} {thread : Nat} {scene : ServerScene} {α : Type}
variable {Post : α → ServerScene → Prop}

theorem keeps_of_due {op : Op} {choice : Storage.Choice} {result : op.Result}
    {before after : ServerScene} (accounts : Accounts terms before)
    (allowed : terms.allow op choice before) (due : Due thread before op)
    (observed : (machine platform).observe thread op choice before = some (result, after)) :
    (accountRules terms).Keeps thread before after :=
  ⟨accounts_of_observe accounts allowed due observed,
    (enrolment_of_observe due observed).grows⟩

def Stable (thread : Nat) (Kept : ServerScene → Prop) : Prop :=
  ∀ before now, Kept before → Around thread before now → Kept now

def Lasting (thread : Nat) (Kept : ServerScene → Prop) : Prop :=
  ∀ before after : ServerScene, Kept before → after.standing thread = before.standing thread →
    before.tables.Grows after.tables → Kept after

theorem Lasting.stable {Kept : ServerScene → Prop} (lasting : Lasting thread Kept) :
    Stable thread Kept := fun before now kept around =>
  lasting before now kept around.standing around.grows

theorem safe_store {Kept : ServerScene → Prop} {op : Storage.Op}
    {next : op.Result → StoreProgram α} (stable : Stable thread Kept) (holds : Kept scene)
    (due : ∀ now, Kept now → Due thread now (.store op))
    (rest : ∀ now choice result (after : ServerScene), Kept now →
      (machine platform).observe thread (.store op) choice now = some (result, after) →
      (accountRules terms).Safe (machine platform) thread Post (store (next result)) after) :
    (accountRules terms).Safe (machine platform) thread Post (store (.perform op next)) scene := by
  intro now around accounts choice result after allowed observed
  have kept := stable scene now holds around
  exact ⟨keeps_of_due accounts allowed (due now kept) observed,
    rest now choice result after kept observed⟩

/-! ### In a transaction -/

/-- The registration has not committed, and its transaction adds these users. -/
structure Drafting (thread : Nat) (added : List (ByteString × Bool)) (scene : ServerScene) :
    Prop where
  fresh : scene.standing thread = .fresh
  draft : Draft thread added scene

theorem drafting_stable (added : List (ByteString × Bool)) :
    Stable thread (Drafting thread added) := fun _ _ drafting around =>
  ⟨around.standing.trans drafting.fresh, drafting.draft.stable around⟩

theorem fresh_of_observe {op : Op} {choice : Storage.Choice} {result : op.Result}
    {before after : ServerScene} (fresh : before.standing thread = .fresh)
    (other : op ≠ .store .commit)
    (observed : (machine platform).observe thread op choice before = some (result, after)) :
    after.standing thread = .fresh := by
  rw [standing_of_observe observed, fresh]
  exact Standing.step_fresh other

theorem store_of_read {op : Storage.Op} {choice : Storage.Choice} {result : op.Result}
    {before after : ServerScene} (read : op.isRead = true)
    (observed : (machine platform).observe thread (.store op) choice before =
      some (result, after)) : after.world.store = before.world.store :=
  perform_read read (perform_store (performed_of_observe observed))

theorem tables_of_read {op : Storage.Op} {choice : Storage.Choice} {result : op.Result}
    {before after : ServerScene} (read : op.isRead = true)
    (observed : (machine platform).observe thread (.store op) choice before =
      some (result, after)) : after.tables = before.tables := by
  simp only [ServerScene.tables, World.tables, store_of_read read observed]

theorem due_of_read {op : Storage.Op} (read : op.isRead = true) (scene : ServerScene) :
    Due thread scene (.store op) := by
  cases op <;> trivial

theorem store_bind {β : Type} (method : StoreProgram α) (rest : α → StoreProgram β) :
    store (method >>= rest) = store method >>= fun value => store (rest value) :=
  Program.embed_bind method rest

theorem Drafting.observe {added : List (ByteString × Bool)} {op : Op} {choice : Storage.Choice}
    {result : op.Result} {before after : ServerScene} (drafting : Drafting thread added before)
    (other : op ≠ .store .commit) (same : after.world.store = before.world.store)
    (observed : (machine platform).observe thread op choice before = some (result, after)) :
    Drafting thread added after := by
  refine ⟨fresh_of_observe drafting.fresh other observed, ?_⟩
  intro tables writer
  simp only [ServerScene.tables, World.tables, same] at writer ⊢
  exact drafting.draft tables writer

theorem safe_read {added : List (ByteString × Bool)} {op : Storage.Op}
    {next : op.Result → StoreProgram α} (read : op.isRead = true)
    (drafting : Drafting thread added scene)
    (rest : ∀ result (after : ServerScene), Drafting thread added after →
      (accountRules terms).Safe (machine platform) thread Post (store (next result)) after) :
    (accountRules terms).Safe (machine platform) thread Post (store (.perform op next)) scene := by
  refine safe_store (drafting_stable added) drafting (fun now _ => due_of_read read now) ?_
  intro now choice result after held observed
  refine rest result after (held.observe ?_ (store_of_read read observed) observed)
  rintro ⟨⟩
  cases read

theorem Drafting.view (drafting : Drafting thread [] scene) :
    (scene.world.store.database.view thread).roll = scene.tables.roll ∧
      (scene.world.store.database.view thread).apiKeys = scene.tables.apiKeys := by
  rcases scene.world.store.database.view_cases thread with same | held
  · rw [same]
    exact ⟨rfl, rfl⟩
  · simpa using drafting.draft _ held

theorem drafting_of_txExec {added : List (ByteString × Bool)} {statement : Statement}
    {choice : Storage.Choice} {result : Except SqlError Outcome} {before after : ServerScene}
    (adds : ∀ {now tables outcome written}, statement.apply now tables = .ok (outcome, written) →
      written.roll = tables.roll ++ added ∧ written.apiKeys = tables.apiKeys)
    (drafting : Drafting thread [] before)
    (observed : (machine platform).observe thread (.store (.exec true statement)) choice before =
      some (result, after)) :
    after.standing thread = .fresh ∧ ((∃ error, result = .error error) ∨
      ∃ outcome, result = .ok outcome ∧ after.world.store.database.HeldBy thread ∧
        Draft thread added after) := by
  refine ⟨fresh_of_observe drafting.fresh (by simp) observed, ?_⟩
  rcases perform_txExec (perform_store (performed_of_observe observed)) with
    ⟨-, failed⟩ | ⟨-, outcome, written, succeeded, applied, same⟩
  · exact .inl failed
  · have writer : after.world.store.database.writer = some (thread, written) := by rw [same]; rfl
    refine .inr ⟨outcome, succeeded, ⟨written, writer⟩, ?_⟩
    obtain ⟨roll, apiKeys⟩ := adds applied
    intro tables held
    rw [writer] at held
    cases held
    simp only [ServerScene.tables, World.tables, same, Storage.World.setDatabase_database]
    exact ⟨roll.trans (by rw [drafting.view.1]; rfl), apiKeys.trans drafting.view.2⟩

end Steps

/-! ## Registration -/

section Registration

variable {platform : Platform} {terms : Terms} {thread : Nat} {scene : ServerScene}
variable {user : ByteString}

/-- What `RegisterWithInvite` returns is what has become of the user. -/
def Registered (thread : Nat) (user : ByteString) :
    Except Storage.Error Bool → ServerScene → Prop
  | .ok _, scene => scene.standing thread = .created ∧ scene.tables.HasUser user
  | .error _, scene => scene.standing thread = .fresh

theorem commit_safe (fresh : scene.standing thread = .fresh)
    (held : scene.world.store.database.HeldBy thread)
    (draft : Draft thread [(user, false)] scene) :
    (accountRules terms).Safe (machine platform) thread (Registered thread user)
      (store Store.commitRegistration) scene := by
  have stable : Stable thread fun now : ServerScene => now.standing thread = .fresh ∧
      now.world.store.database.HeldBy thread ∧ Draft thread [(user, false)] now :=
    fun before now known around => ⟨around.standing.trans known.1,
      around.held known.2.1 ▸ known.2.1, known.2.2.stable around⟩
  refine safe_store stable ⟨fresh, held, draft⟩
    (fun now known => ⟨known.1, known.2.1, user, known.2.2⟩) ?_
  rintro now choice result after ⟨fresh, held, draft⟩ observed
  have standing := standing_of_observe observed
  rw [fresh] at standing
  rcases commit_of_observe held draft observed with ⟨-, error, rfl⟩ | ⟨rfl, -, -, rows⟩
  · exact standing
  · refine ⟨standing, Tables.hasUser_iff.mpr ?_⟩
    simp [rows]

theorem insertAndCommit_safe (hash : Option ByteString) (drafting : Drafting thread [] scene) :
    (accountRules terms).Safe (machine platform) thread (Registered thread user)
      (store (Store.insertAndCommit user hash)) scene := by
  refine safe_store (drafting_stable []) drafting (fun _ _ => trivial) ?_
  intro now choice result after drafting observed
  rcases drafting_of_txExec Statement.roll_of_insertUser drafting observed with
    ⟨fresh, ⟨error, rfl⟩ | ⟨outcome, rfl, held, draft⟩⟩
  · exact fresh
  · exact commit_safe fresh held draft

theorem createAndCommit_safe (password : ByteString) (drafting : Drafting thread [] scene) :
    (accountRules terms).Safe (machine platform) thread (Registered thread user)
      (store (Store.createAndCommit user password)) scene := by
  unfold Store.createAndCommit Store.hashPassword
  split
  case isTrue => exact insertAndCommit_safe none drafting
  case isFalse =>
    refine safe_read rfl drafting fun result after drafting => ?_
    cases result with
    | error error => exact drafting.fresh
    | ok hash => exact insertAndCommit_safe (some hash) drafting

theorem markAndCreate_safe {code : ByteString} (password : ByteString)
    (drafting : Drafting thread [] scene) :
    (accountRules terms).Safe (machine platform) thread (Registered thread user)
      (store (Store.markAndCreate code user password)) scene := by
  refine safe_read rfl drafting fun usedAt after drafting => ?_
  refine safe_store (drafting_stable []) drafting (fun _ _ => trivial) ?_
  intro now choice result marked drafting observed
  rcases drafting_of_txExec Statement.roll_of_useInvite drafting observed with
    ⟨fresh, ⟨error, rfl⟩ | ⟨outcome, rfl, held, draft⟩⟩
  · exact fresh
  · dsimp only [Program.bind]
    split
    case isTrue => exact fresh
    case isFalse => exact createAndCommit_safe password ⟨fresh, draft⟩

theorem registerInTransaction_safe {code : ByteString} (password : ByteString)
    (drafting : Drafting thread [] scene) :
    (accountRules terms).Safe (machine platform) thread (Registered thread user)
      (store (Store.registerInTransaction platform.toLibraries code user password)) scene := by
  refine safe_read rfl drafting fun answer after drafting => ?_
  rcases answer with error | none | expiresAt
  · exact drafting.fresh
  · exact drafting.fresh
  dsimp only [Program.bind]
  cases Calendar.parseRFC3339 platform.location expiresAt with
  | error error => exact drafting.fresh
  | ok expiry =>
    refine safe_read rfl drafting fun checkedAt after drafting => ?_
    dsimp only [Program.bind]
    split
    case isTrue => exact drafting.fresh
    case isFalse => exact markAndCreate_safe password drafting

theorem registered_stable (result : Except Storage.Error Bool) :
    Stable thread (Registered thread user result) := by
  intro before now registered around
  cases result with
  | error error => exact around.standing.trans registered
  | ok _ => exact ⟨around.standing.trans registered.1, around.grows.hasUser registered.2⟩

theorem registerWithInvite_safe {code : ByteString} (password : ByteString)
    (drafting : Drafting thread [] scene) :
    (accountRules terms).Safe (machine platform) thread (Registered thread user)
      (store (Store.registerWithInvite platform.toLibraries code user password)) scene := by
  refine safe_read rfl drafting fun begun after drafting => ?_
  cases begun with
  | error error => exact drafting.fresh
  | ok _ =>
    -- the deferred rollback finds no transaction after a commit
    change (accountRules terms).Safe (machine platform) thread (Registered thread user)
      (store (Store.registerInTransaction platform.toLibraries code user password >>=
        fun result => Store.rollback >>= fun _ => pure result)) after
    rw [store_bind]
    refine (registerInTransaction_safe password drafting).bind fun result reached registered => ?_
    refine safe_store (registered_stable result) registered (fun _ _ => trivial) ?_
    intro now choice _ ended registered observed
    have standing : ended.standing thread = now.standing thread :=
      standing_of_unmarked rfl observed thread
    have tables : ended.tables = now.tables := by
      simp only [ServerScene.tables, World.tables,
        perform_rollback (perform_store (performed_of_observe observed)),
        Storage.World.setDatabase_database, Database.rollback_committed]
    cases result with
    | error error => exact standing.trans registered
    | ok _ => exact ⟨standing.trans registered.1, tables ▸ registered.2⟩

/-- The thread's registration stands here, and its user is there. -/
structure Known (thread : Nat) (standing : Standing) (user : ByteString) (scene : ServerScene) :
    Prop where
  standing : scene.standing thread = standing
  hasUser : scene.tables.HasUser user

theorem known_lasting (standing : Standing) : Lasting thread (Known thread standing user) :=
  fun _ _ known same grows => ⟨same.trans known.standing, grows.hasUser known.hasUser⟩

/-- What `CreateUserCount` returns decides on the grant. -/
def Counted (thread : Nat) (user : ByteString) (count : Except Storage.Error Nat)
    (scene : ServerScene) : Prop :=
  if count = .ok 1 then Known thread .first user scene ∧ scene.tables.Heads user
  else Known thread .settled user scene

theorem createUserCount_safe (known : Known thread .created user scene) :
    (accountRules terms).Safe (machine platform) thread (Counted thread user)
      (store Store.createUserCount) scene := by
  refine safe_store (known_lasting .created).stable known (fun _ _ => trivial) ?_
  intro now choice result after known observed
  have standing := standing_of_observe observed
  have tables := tables_of_read rfl observed
  rw [known.standing] at standing
  have hasUser : after.tables.HasUser user := tables ▸ known.hasUser
  rcases count_of_observe observed with ⟨-, error, rfl⟩ | ⟨-, rfl⟩
  · exact ⟨standing, hasUser⟩
  · by_cases single : now.tables.roll.length = 1
    · rw [single] at standing ⊢
      exact ⟨⟨standing, hasUser⟩, Tables.heads_of_single (tables ▸ single) hasUser⟩
    · have standing : after.standing thread = .settled := by
        rw [standing]
        exact if_neg single
      have other : (.ok now.tables.roll.length : Except Storage.Error Nat) ≠ .ok 1 := by
        simpa using single
      change Counted thread user (.ok now.tables.roll.length) after
      rw [Counted, if_neg other]
      exact ⟨standing, hasUser⟩

theorem grant_safe (known : Known thread .first user scene) (heads : scene.tables.Heads user) :
    (accountRules terms).Safe (machine platform) thread
      (fun _ => Known thread .settled user) (store (Store.setUserAdmin user)) scene := by
  have stable : Stable thread fun now : ServerScene =>
      Known thread .first user now ∧ now.tables.Heads user := fun before now held around =>
    ⟨(known_lasting .first).stable before now held.1 around, around.grows.heads held.2⟩
  refine safe_store stable ⟨known, heads⟩ (fun _ held => held.2) ?_
  rintro now choice result after ⟨known, heads⟩ observed
  have due : Due thread now (.store (.exec false (.setUserAdmin user))) := heads
  have standing := standing_of_observe observed
  rw [known.standing] at standing
  have settled : Known thread .settled user after :=
    ⟨standing, (enrolment_of_observe due observed).grows.hasUser known.hasUser⟩
  cases result <;> exact settled

theorem setFirstAdmin_safe (known : Known thread .created user scene) :
    (accountRules terms).Safe (machine platform) thread
      (fun _ => Known thread .settled user) (setFirstAdmin user) scene := by
  refine (createUserCount_safe known).bind fun count after counted => ?_
  unfold Counted at counted
  split
  · rw [if_pos rfl] at counted
    exact (grant_safe counted.1 counted.2).bind fun _ _ settled => settled
  · next other => rwa [if_neg other] at counted

end Registration

/-! ## Sessions and identities -/

section Routes

variable {platform : Platform} {terms : Terms} {thread : Nat} {scene : ServerScene}
variable {request : Request} {user : ByteString} {α : Type}

theorem concluded_of_observe {op : Op} {choice : Storage.Choice} {result : op.Result}
    {before after : ServerScene} (concluded : Concluded thread before)
    (other : op ≠ .store .commit)
    (observed : (machine platform).observe thread op choice before = some (result, after)) :
    after.standing thread = before.standing thread := by
  rw [standing_of_observe observed]
  rcases concluded with fresh | settled
  · rw [fresh]
    exact Standing.step_fresh other
  · rw [settled]
    exact Standing.step_settled

theorem safe_of_due {Permitted : Op → Prop} {Kept : ServerScene → Prop}
    {program : ServerProgram α} (only : program.Only Permitted) (lasting : Lasting thread Kept)
    (concluded : ∀ now, Kept now → Concluded thread now)
    (due : ∀ op now, Permitted op → Kept now → op ≠ .store .commit ∧ Due thread now op)
    (holds : Kept scene) :
    (accountRules terms).Safe (machine platform) thread (fun _ => Kept) program scene := by
  refine Rules.safe_of_only only (fun _ _ kept around => lasting.stable _ _ kept around) ?_ holds
  intro op choice now result after permitted kept accounts allowed observed
  obtain ⟨other, owed⟩ := due op now permitted kept
  have keeps := keeps_of_due accounts allowed owed observed
  exact ⟨keeps, lasting now after kept
    (concluded_of_observe (concluded now kept) other observed) keeps.2⟩

theorem due_of_quiet {op : Op} (quiet : op.isQuiet = true) (now : ServerScene) :
    op ≠ .store .commit ∧ Due thread now op := by
  cases op with
  | store op =>
      have read := Storage.Op.isRead_of_isPlainRead quiet
      refine ⟨?_, due_of_read read now⟩
      rintro ⟨⟩
      cases read
  | nanoid | random | checkToken | writePump | renderContent | readFile => exact ⟨nofun, trivial⟩
  | putToken | broadcast | register => cases quiet

def Issues (user : ByteString) (op : Op) : Prop :=
  op.isQuiet = true ∨ ∃ token expiry, op = .putToken token user expiry

theorem issues_safe {standing : Standing} {program : ServerProgram α}
    (only : program.Only (Issues user)) (ended : standing = .fresh ∨ standing = .settled)
    (known : Known thread standing user scene) :
    (accountRules terms).Safe (machine platform) thread
      (fun _ => Known thread standing user) program scene := by
  refine safe_of_due only (known_lasting standing) ?_ ?_ known
  · intro now known
    unfold Concluded
    rwa [known.standing]
  · rintro op now (quiet | ⟨token, expiry, rfl⟩) known
    · exact due_of_quiet quiet now
    · exact ⟨nofun, known.hasUser⟩

theorem generateToken_issues (user : ByteString) : (generateToken user).Only (Issues user) :=
  generateToken_only (fun _ => .inl) fun token expiry => .inr ⟨token, expiry, rfl⟩

theorem startSession_issues (user : ByteString) : (startSession user).Only (Issues user) :=
  startSession_only (fun _ => .inl) fun token expiry => .inr ⟨token, expiry, rfl⟩

/-- The thread registers nobody, and an admin's identity is that of one. -/
structure Bearing (thread : Nat) (identity : Identity) (scene : ServerScene) : Prop where
  fresh : scene.standing thread = .fresh
  admin : identity.isAdmin = true → identity.userID ∈ scene.tables.admins

theorem bearing_lasting (identity : Identity) : Lasting thread (Bearing thread identity) :=
  fun _ _ bearing same grows =>
    ⟨same.trans bearing.fresh, fun isAdmin => grows.admins _ (bearing.admin isAdmin)⟩

theorem admin_of_query {tables : Tables}
    (answered : Query.eval (.isAdmin user) tables = some true) : user ∈ tables.admins := by
  have answered : (tables.users.find user).map UserRow.isAdmin = some true := answered
  obtain ⟨row, found, isAdmin⟩ := Option.map_eq_some_iff.mp answered
  obtain ⟨member, rfl⟩ := KeyedTable.find_eq_some.mp found
  exact List.mem_map.mpr ⟨row, List.mem_filter.mpr ⟨member, isAdmin⟩, rfl⟩

theorem quiet_safe {added : List (ByteString × Bool)} {program : ServerProgram α}
    (only : program.Only fun op => op.isQuiet = true) (drafting : Drafting thread added scene) :
    (accountRules terms).Safe (machine platform) thread (fun _ => Drafting thread added)
      program scene := by
  refine Rules.safe_of_only only (fun _ _ held around => drafting_stable added _ _ held around)
    ?_ drafting
  intro op choice now result after quiet held accounts allowed observed
  obtain ⟨other, due⟩ := due_of_quiet quiet now
  exact ⟨keeps_of_due accounts allowed due observed,
    held.observe other (store_of_quiet quiet (performed_of_observe observed)) observed⟩

theorem isUserAdmin_safe (drafting : Drafting thread [] scene) :
    (accountRules terms).Safe (machine platform) thread
      (fun answer now => Bearing thread ⟨user, answer.1, true⟩ now ∧ Draft thread [] now)
      (store (Store.isUserAdmin user)) scene := by
  refine safe_store (drafting_stable []) drafting (fun _ _ => trivial) ?_
  intro now choice result after drafting observed
  obtain ⟨fresh, draft⟩ := drafting.observe (by simp) (store_of_read rfl observed) observed
  rcases result with error | none | isAdmin
  · exact ⟨⟨fresh, nofun⟩, draft⟩
  · exact ⟨⟨fresh, nofun⟩, draft⟩
  · refine ⟨⟨fresh, fun isTrue => ?_⟩, draft⟩
    have answered := perform_query (perform_store (performed_of_observe observed))
    rw [tables_of_read rfl observed]
    exact admin_of_query (answered.trans (congrArg some isTrue))

theorem authenticate_safe (drafting : Drafting thread [] scene) :
    (accountRules terms).Safe (machine platform) thread
      (fun identity now => Bearing thread identity now ∧ Draft thread [] now)
      (authenticate platform request) scene := by
  unfold authenticate
  dsimp only
  split
  · exact ⟨⟨drafting.fresh, nofun⟩, drafting.draft⟩
  · have quiet : (validateToken platform (extractToken request)).Only fun op =>
        op.isQuiet = true := validateToken_only (fun _ => id) _
    refine (quiet_safe quiet drafting).bind fun answer after drafting => ?_
    cases answer with
    | none => exact ⟨⟨drafting.fresh, nofun⟩, drafting.draft⟩
    | some user => exact (isUserAdmin_safe drafting).bind fun _ _ known => known

/-! ## The handlers -/

def Verified (thread : Nat) (user : ByteString) :
    Except Storage.Error Bool → ServerScene → Prop
  | .ok true, scene => Known thread .fresh user scene
  | _, scene => scene.standing thread = .fresh

theorem verifyUser_safe (password : ByteString) (fresh : scene.standing thread = .fresh) :
    (accountRules terms).Safe (machine platform) thread (Verified thread user)
      (store (Store.verifyUser platform.toLibraries user password)) scene := by
  have lasting : Lasting thread fun now : ServerScene => now.standing thread = .fresh :=
    fun _ _ fresh same _ => same.trans fresh
  refine safe_store lasting.stable fresh (fun _ _ => trivial) ?_
  intro now choice result after fresh observed
  have fresh := fresh_of_observe fresh (by simp) observed
  rcases result with error | none | none | hash
  · exact fresh
  · exact fresh
  · exact fresh
  · have answered := perform_query (perform_store (performed_of_observe observed))
    obtain ⟨row, found, -⟩ := Option.map_eq_some_iff.mp answered
    obtain ⟨member, rfl⟩ := KeyedTable.find_eq_some.mp found
    have hasUser : after.tables.HasUser row.user := by
      rw [tables_of_read rfl observed]
      exact List.mem_map_of_mem member
    change Verified thread row.user (.ok (platform.bcryptCompare hash password)) after
    cases platform.bcryptCompare hash password with
    | false => exact fresh
    | true => exact ⟨fresh, hasUser⟩

theorem loginUser_safe (fresh : scene.standing thread = .fresh) :
    (accountRules terms).Safe (machine platform) thread (fun _ => Concluded thread)
      (loginUser platform request) scene := by
  unfold loginUser
  split
  · exact .inl fresh
  · refine (verifyUser_safe _ fresh).bind fun verified after known => ?_
    rcases verified with error | _ | _
    · exact .inl known
    · exact .inl known
    · refine (issues_safe (generateToken_issues _) (.inl rfl) known).bind fun token after known => ?_
      cases token <;> exact .inl known.standing

theorem handleLoginSubmit_safe (fresh : scene.standing thread = .fresh) :
    (accountRules terms).Safe (machine platform) thread (fun _ => Concluded thread)
      (handleLoginSubmit platform request) scene := by
  unfold handleLoginSubmit
  split
  · exact .inl fresh
  · dsimp only
    split
    · exact .inl fresh
    · refine (verifyUser_safe _ fresh).bind fun verified after known => ?_
      rcases verified with error | _ | _
      · exact .inl known
      · exact .inl known
      · exact (issues_safe (startSession_issues _) (.inl rfl) known).mono
          fun _ _ known => .inl known.standing

theorem registerUser_safe (drafting : Drafting thread [] scene) :
    (accountRules terms).Safe (machine platform) thread (fun _ => Concluded thread)
      (registerUser platform request) scene := by
  unfold registerUser
  split
  · exact .inl drafting.fresh
  · dsimp only
    split
    · exact .inl drafting.fresh
    · refine (registerWithInvite_safe _ drafting).bind fun result after registered => ?_
      cases result with
      | error error => exact .inl registered
      | ok _ =>
          refine (setFirstAdmin_safe ⟨registered.1, registered.2⟩).bind fun _ _ settled => ?_
          exact .inr settled.standing

theorem handleRegisterSubmit_safe (drafting : Drafting thread [] scene) :
    (accountRules terms).Safe (machine platform) thread (fun _ => Concluded thread)
      (handleRegisterSubmit platform request) scene := by
  unfold handleRegisterSubmit
  split
  · exact .inl drafting.fresh
  · dsimp only
    split
    · exact .inl drafting.fresh
    · refine (registerWithInvite_safe _ drafting).bind fun result after registered => ?_
      cases result with
      | error error =>
          dsimp only
          split <;> exact .inl registered
      | ok _ =>
          refine (setFirstAdmin_safe ⟨registered.1, registered.2⟩).bind fun _ _ settled => ?_
          exact (issues_safe (startSession_issues _) (.inr rfl) settled).mono
            fun _ _ known => .inr known.standing

def Route.isPlain : Route → Bool
  | .registerUser | .register | .loginUser | .index => false
  | _ => true

theorem due_of_permits {route : Route} {identity : Identity} {op : Op} {now : ServerScene}
    (plain : route.isPlain = true) (permitted : route.permits identity op)
    (bearing : Bearing thread identity now) : op ≠ .store .commit ∧ Due thread now op := by
  unfold Route.permits at permitted
  split at permitted
  case h_13 => exact ⟨nofun, List.ne_nil_of_mem (bearing.admin permitted.1)⟩
  case h_14 =>
    exact ⟨nofun, permitted.2.2 ▸ Tables.hasUser_of_admin (bearing.admin permitted.1)⟩
  all_goals first | exact ⟨nofun, trivial⟩ | cases plain | cases permitted

theorem plain_safe {route : Route} {identity : Identity} (plain : route.isPlain = true)
    (bearing : Bearing thread identity scene) :
    (accountRules terms).Safe (machine platform) thread (fun _ => Concluded thread)
      (dispatch platform request identity route) scene := by
  have only : (dispatch platform request identity route).Only fun op =>
      op.isQuiet = true ∨ route.permits identity op :=
    dispatch_only (fun _ => .inl) route fun _ => .inr
  refine (safe_of_due only (bearing_lasting identity) (fun _ bearing => .inl bearing.fresh) ?_
    bearing).mono fun _ _ bearing => .inl bearing.fresh
  rintro op now (quiet | permitted) bearing
  · exact due_of_quiet quiet now
  · exact due_of_permits plain permitted bearing

theorem handleIndexOrLogin_safe {identity : Identity} (fresh : scene.standing thread = .fresh) :
    (accountRules terms).Safe (machine platform) thread (fun _ => Concluded thread)
      (handleIndexOrLogin platform request identity) scene := by
  have lasting : Lasting thread fun now : ServerScene => now.standing thread = .fresh :=
    fun _ _ fresh same _ => same.trans fresh
  unfold handleIndexOrLogin
  split
  · exact handleLoginSubmit_safe fresh
  · split
    · have only : (chatPage platform identity.userID).Only fun op =>
          op.isQuiet = true ∨ ∃ asked, op = .store (.query false asked) :=
        chatPage_only (fun _ => .inl) fun asked _ => .inr ⟨asked, rfl⟩
      refine (safe_of_due only lasting (fun _ => .inl) ?_ fresh).mono fun _ _ => .inl
      rintro op now (quiet | ⟨asked, rfl⟩) -
      · exact due_of_quiet quiet now
      · exact ⟨nofun, due_of_read rfl now⟩
    · exact .inl fresh

theorem dispatch_safe {identity : Identity} (bearing : Bearing thread identity scene)
    (draft : Draft thread [] scene) (route : Route) :
    (accountRules terms).Safe (machine platform) thread (fun _ => Concluded thread)
      (dispatch platform request identity route) scene := by
  cases route with
  | registerUser => exact registerUser_safe ⟨bearing.fresh, draft⟩
  | register => exact handleRegisterSubmit_safe ⟨bearing.fresh, draft⟩
  | loginUser => exact loginUser_safe bearing.fresh
  | index => exact handleIndexOrLogin_safe bearing.fresh
  | getInvite | changePassword | sendMessage | streamMessages | syncMessages | adminCreateUser
    | adminListAPIKeys | adminCreateAPIKey | adminRevokeAPIKey | settings | logout | staticFiles
    | runtimeEmotes | avatarUpload | avatarGet | avatarGetUser | redirect =>
      exact plain_safe rfl bearing

theorem serve_safe (own : scene.own thread = [])
    (free : ¬ scene.world.store.database.HeldBy thread) :
    (accountRules terms).Safe (machine platform) thread (fun _ => Concluded thread)
      (serve platform request) scene := by
  have drafting : Drafting thread [] scene := by
    refine ⟨?_, fun tables writer => absurd ⟨tables, writer⟩ free⟩
    simp only [ServerScene.standing, own]
    rfl
  exact (authenticate_safe drafting).bind fun identity after known =>
    dispatch_safe known.1 known.2 _

end Routes

/-! ## Every run -/

section Runs

variable {platform : Platform} {terms : Terms}

theorem around_of_observe {thread other : Nat} {op : Op} {choice : Storage.Choice}
    {result : op.Result} {before after : ServerScene} (different : other ≠ thread)
    (observed : (machine platform).observe thread op choice before = some (result, after))
    (grows : before.tables.Grows after.tables) : Around other before after := by
  have own := Machine.own_of_observe_other different observed
  have performed := performed_of_observe observed
  by_cases leaves : op.leavesStore = true
  · have same := store_of_perform leaves performed
    exact ⟨own, fun _ => by rw [same], fun held => by rwa [same] at held, grows⟩
  · cases op with
    | store op =>
        have others := perform_other different (perform_store performed)
        exact ⟨own, others.1, others.2, grows⟩
    | nanoid | random | putToken | checkToken | broadcast | register | writePump
      | renderContent | readFile => exact absurd rfl leaves

theorem tokens_of_environment {happening : Happening} {world after : World}
    (happened : environment platform happening world = some after) :
    after.tokens = world.tokens := by
  cases happening with
  | coldStart code =>
      have opened : world.coldStart code = some after := happened
      unfold World.coldStart at opened
      split at opened
      · split at opened <;> cases opened
        rfl
      · cases opened
  | hub event fault =>
      obtain ⟨hub, -, rfl⟩ := Option.map_eq_some_iff.mp happened
      rfl
  | advance elapsed => cases happened; rfl
  | reload entries => cases happened; rfl
  | files files => cases happened; rfl

theorem apiKeys_of_environment {world after : World} {happening : Happening}
    (happened : environment platform happening world = some after) :
    after.tables.apiKeys = world.tables.apiKeys := by
  rcases environment_store happened with
    same | ⟨-, -, -, code, expiresAt, outcome, applied⟩
  · simp only [World.tables, same]
  · exact (Statement.roll_of_insertInvite applied).2

theorem Accounts.of_same {before after : ServerScene} (accounts : Accounts terms before)
    (history : after.history = before.history)
    (roll : after.tables.roll = before.tables.roll)
    (apiKeys : after.tables.apiKeys = before.tables.apiKeys)
    (tokens : ∀ token entry, after.world.tokens token = some entry →
      before.world.tokens token = some entry) : Accounts terms after := by
  have standing : ∀ thread, after.standing thread = before.standing thread := fun thread => by
    simp only [ServerScene.standing, Scene.own, history]
  have grows : before.tables.Grows after.tables := .of_roll_eq roll
  have admins : after.tables.admins = [] ↔ before.tables.admins = [] := by
    rw [Tables.admins_eq_nil, Tables.admins_eq_nil, roll]
  refine ⟨accounts.led.of_roll_eq roll, ?_, ?_, ?_, ?_⟩
  · exact fun token entry found =>
      grows.hasUser (accounts.sessions token entry (tokens token entry found))
  · exact fun thread started => grows.nonempty (accounts.created thread (standing thread ▸ started))
  · intro keys entry member
    rw [apiKeys] at member
    exact (accounts.keys keys entry member).imp grows.hasUser grows.hasUser
  · intro first some nobody
    obtain ⟨thread, waits⟩ := accounts.first first (roll ▸ some) (admins.mp nobody)
    exact ⟨thread, waits.of_same (standing thread) roll⟩

theorem environment_accounts {happening : Happening} {scene : ServerScene} {world : World}
    (accounts : Accounts terms scene)
    (happened : environment platform happening scene.world = some world) :
    Accounts terms ⟨world, scene.history⟩ ∧
      ∀ thread, Around thread scene ⟨world, scene.history⟩ := by
  have tokens : ∀ token entry, world.tokens token = some entry →
      scene.world.tokens token = some entry := fun token entry found => by
    rwa [tokens_of_environment happened] at found
  rcases environment_store happened with
    same | ⟨ended, idle, -, code, expiresAt, outcome, applied⟩
  · have tables : world.tables = scene.tables := by
      simp only [ServerScene.tables, World.tables, same]
    refine ⟨accounts.of_same rfl (congrArg Tables.roll tables) (congrArg Tables.apiKeys tables)
      tokens, fun thread => ⟨rfl, fun _ => same, fun held => same ▸ held, ?_⟩⟩
    exact .of_roll_eq (congrArg Tables.roll tables)
  · obtain ⟨roll, apiKeys⟩ := Statement.roll_of_insertInvite applied
    have busy : ∀ thread, ¬ scene.world.store.database.HeldBy thread := by
      rintro thread ⟨tables, writer⟩
      rw [idle] at writer
      cases writer
    refine ⟨accounts.of_same rfl roll apiKeys tokens,
      fun thread => ⟨rfl, fun held => absurd held (busy thread), ?_, .of_roll_eq roll⟩⟩
    rintro ⟨tables, writer⟩
    rw [ended] at writer
    cases writer

theorem accountRules_valid : (accountRules terms).Valid (machine platform) (serve platform) where
  interference_refl := Around.refl
  interference_trans := fun _ _ _ _ => Around.trans
  guarantee_expected := fun _ _ _ _ _ _ _ different _ observed grows =>
    around_of_observe different observed grows
  fresh_stable := fun _ _ _ fresh around =>
    ⟨around.own.trans fresh.1, fun held => fresh.2 (around.free held)⟩
  finished_stable := fun thread _ _ before after finished around => by
    change Concluded thread after
    unfold Concluded
    rw [around.standing]
    exact finished
  lost_stable := fun thread before after lost around first => by
    rcases lost first with governed | fresh
    · exact .inl (around.grows.governed governed)
    · exact .inr (around.standing.trans fresh)
  environment := fun _ _ _ => environment_accounts
  restart_invariant := fun scene accounts _ =>
    accounts.of_same rfl rfl rfl fun _ _ found => by cases found
  restart_fresh := fun thread scene _ fresh => ⟨fresh.1, by rintro ⟨_, writer⟩; cases writer⟩
  restart_finished := fun _ _ _ _ _ => id
  restart_lost := fun thread scene accounts permitted first => by
    rcases permitted first with empty | governed
    · refine .inr (not_not.mp fun started => accounts.created thread started empty)
    · exact .inl governed
  safe := fun _ _ _ _ fresh => serve_safe fresh.1 fresh.2

variable {config after : ServerConfig} {events : List ServerEvent}

theorem accounts_start {tables : Tables} {clock : Instant} (nobody : tables.users.rows = [])
    (declared : terms.keys → tables.ForeignKeys) :
    (accountRules terms).Holds (machine platform) (start tables clock) := by
  have empty : tables.roll = [] := by simp [Tables.roll, nobody]
  have led : tables.Led := by simp [Tables.Led, empty]
  refine Rules.holds_start ⟨led, ?_, fun _ started => absurd rfl started, declared,
    fun _ some => absurd empty some⟩ fun thread => ⟨rfl, ?_⟩
  · intro token entry found
    cases found
  · rintro ⟨_, writer⟩
    cases writer

theorem accounts_of_run {tables : Tables} {clock : Instant} (nobody : tables.users.rows = [])
    (declared : terms.keys → tables.ForeignKeys)
    (run : Run (next platform) (accountRules terms).permits (start tables clock) events config) :
    (accountRules terms).Holds (machine platform) config :=
  accountRules_valid.sound run (accounts_start nobody declared)

theorem grows_of_next {event : ServerEvent}
    (holds : (accountRules terms).Holds (machine platform) config)
    (permitted : (accountRules terms).permits config event)
    (taken : next platform config event = some after) :
    config.scene.world.tables.Grows after.scene.world.tables := by
  cases event with
  | arrive thread request =>
      obtain ⟨-, rfl⟩ := Machine.next_arrive taken
      exact .refl _
  | step thread choice => exact Rules.guarantee_of_step holds permitted taken
  | environment happening =>
      obtain ⟨world, happened, rfl⟩ := Machine.next_environment taken
      exact ((environment_accounts holds.1 happened).2 0).grows
  | restart =>
      rw [Machine.next_restart taken]
      exact .refl _

theorem grows_of_run (holds : (accountRules terms).Holds (machine platform) config)
    (run : Run (next platform) (accountRules terms).permits config events after) :
    config.scene.world.tables.Grows after.scene.world.tables := by
  refine (run.along _ (fun _ _ _ holds permitted taken =>
      accountRules_valid.sound (Run.single permitted taken) holds) holds).relation
    (fun one two => one.scene.world.tables.Grows two.scene.world.tables)
    (fun _ => .refl _) (fun _ _ _ => .trans) fun _ _ _ permitted taken => ?_
  exact grows_of_next permitted.2 permitted.1 taken

end Runs

end Grunt.Server
