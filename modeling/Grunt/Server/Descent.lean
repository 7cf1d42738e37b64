import Grunt.Foundation.Provenance
import Grunt.Server.FirstAdmin
import Grunt.Server.Frames
import Grunt.Server.Identities
import Grunt.Storage.Drafts

/-! # Where accounts come from

Every account goes back to an invite that the server made while there was nobody:
through invites that somebody with an account asked for, and through accounts
that the admin made. Nobody else makes accounts without an invite or changes keys.
-/

namespace Grunt.Server

open Foundation Storage

/-! ## What a request has shown -/

/-- The user for whom a transaction has marked an invite and not ended. -/
def redeemer.step : Option ByteString → Performed Op Op.Result → Option ByteString
  | _, ⟨_, .store (.exec true (.useInvite _ user _)), .ok outcome⟩ =>
      if outcome.rowsAffected = 1 then some user else none
  | _, ⟨_, .store .commit, _⟩ => none
  | _, ⟨_, .store .rollback, _⟩ => none
  | marked, _ => marked

def redeemer (seen : List (Performed Op Op.Result)) : Option ByteString :=
  seen.foldl redeemer.step none

def Governs (thread : Nat) (user : ByteString) (seen : List (Performed Op Op.Result)) : Prop :=
  ⟨thread, .store (.query false (.isAdmin user)),
    (.ok (some true) : Except SqlError (Option Bool))⟩ ∈ seen

def Administers (platform : Platform) (thread : Nat) (request : Request) (user : ByteString)
    (seen : List (Performed Op Op.Result)) : Prop :=
  Vouched platform thread (extractToken request) user seen ∧ Governs thread user seen

/-- What a request has to have shown before it makes an invite or an account, or
touches the API keys. -/
def Backed (platform : Platform) (thread : Nat) (request : Request) :
    Op → List (Performed Op Op.Result) → Prop
  | .store (.exec false (.insertInvite _ _ createdBy)), seen =>
      route platform request = .getInvite ∧
        Vouched platform thread (extractToken request) createdBy seen
  | .store (.exec false (.insertUser _ hash)), seen =>
      route platform request = .adminCreateUser ∧ hash = none ∧
        ∃ admin, Administers platform thread request admin seen
  | .store (.exec false (.insertAPIKey _ adminUser _ _)), seen =>
      Administers platform thread request adminUser seen
  | .store (.exec false (.deleteAPIKey _)), seen =>
      ∃ admin, Administers platform thread request admin seen
  | .store (.exec true (.insertUser user _)), seen => redeemer seen = some user
  | _, _ => True

def Op.isUnbacked : Op → Bool
  | .store (.exec false (.insertInvite _ _ _)) | .store (.exec false (.insertUser _ _))
  | .store (.exec false (.insertAPIKey _ _ _ _)) | .store (.exec false (.deleteAPIKey _))
  | .store (.exec true (.insertUser _ _)) => false
  | _ => true

def Presented (platform : Platform) (thread : Nat) (request : Request) (identity : Identity)
    (seen : List (Performed Op Op.Result)) : Prop :=
  identity = .anonymous ∨
    (Vouched platform thread (extractToken request) identity.userID seen ∧
      (identity.isAdmin = true → Governs thread identity.userID seen))

section Handlers

variable {platform : Platform} {thread : Nat} {request : Request} {identity : Identity}
variable {seen : List (Performed Op Op.Result)} {user : ByteString}

theorem redeemer_append (seen : List (Performed Op Op.Result))
    (performed : Performed Op Op.Result) :
    redeemer (seen ++ [performed]) = redeemer.step (redeemer seen) performed := by
  simp [redeemer]

theorem backed_of_unbacked {op : Op} (free : op.isUnbacked = true) :
    Backed platform thread request op seen := by
  unfold Backed
  split
  · cases free
  · cases free
  · cases free
  · cases free
  · cases free
  · trivial

theorem unbacked_of_quiet {op : Op} (quiet : op.isQuiet = true) : op.isUnbacked = true := by
  unfold Op.isUnbacked
  split <;> first | cases quiet | rfl

theorem unbacked_obeys {α : Type} {program : ServerProgram α}
    (only : program.Only fun op => op.isUnbacked = true)
    {Kept : List (Performed Op Op.Result) → Prop}
    (kept : ∀ seen performed, Kept seen → Kept (seen ++ [performed])) (holds : Kept seen) :
    Machine.Obeys thread (Backed platform thread request) (fun _ => Kept) program seen :=
  Machine.obeys_of_only only (fun _ _ free _ => backed_of_unbacked free)
    (fun _ _ _ _ known => kept _ _ known) holds

theorem Presented.snoc (presented : Presented platform thread request identity seen)
    (performed : Performed Op Op.Result) :
    Presented platform thread request identity (seen ++ [performed]) := by
  rcases presented with nobody | ⟨vouched, governs⟩
  · exact .inl nobody
  · exact .inr ⟨vouched.snoc performed, fun isAdmin => List.mem_append_left _ (governs isAdmin)⟩

theorem validateToken_backed (token : ByteString) :
    Machine.Obeys thread (Backed platform thread request)
      (fun valid seen => ∀ user, valid = some user → Vouched platform thread token user seen)
      (validateToken platform token) seen :=
  (validateToken_obeys token).of_only (validateToken_only (fun _ => unbacked_of_quiet) token)
    fun _ _ => backed_of_unbacked

theorem authenticate_backed (request : Request) :
    Machine.Obeys thread (Backed platform thread request)
      (fun identity seen => Presented platform thread request identity seen)
      (authenticate platform request) seen := by
  unfold authenticate
  dsimp only
  split
  · exact .inl rfl
  · apply (validateToken_backed (extractToken request)).bind
    intro valid seen vouched
    cases valid with
    | none => exact .inl rfl
    | some user =>
        refine And.intro trivial fun answer => ?_
        rcases answer with error | none | isAdmin
        · exact .inr ⟨(vouched user rfl).snoc _, nofun⟩
        · exact .inr ⟨(vouched user rfl).snoc _, nofun⟩
        · refine .inr ⟨(vouched user rfl).snoc _, ?_⟩
          rintro rfl
          exact List.mem_append_right _ (List.mem_singleton_self _)

/-! ### Registration -/

theorem insertAndCommit_backed {hash : Option ByteString} (marked : redeemer seen = some user) :
    Machine.Obeys thread (Backed platform thread request) (fun _ _ => True)
      (store (Store.insertAndCommit user hash)) seen := by
  refine And.intro marked fun result => ?_
  cases result with
  | error error => trivial
  | ok outcome =>
      refine And.intro trivial fun result => ?_
      cases result <;> trivial

theorem createAndCommit_backed {password : ByteString} (marked : redeemer seen = some user) :
    Machine.Obeys thread (Backed platform thread request) (fun _ _ => True)
      (store (Store.createAndCommit user password)) seen := by
  unfold Store.createAndCommit Store.hashPassword
  split
  · exact insertAndCommit_backed marked
  · refine And.intro trivial fun result => ?_
    cases result with
    | error error => trivial
    | ok hash =>
        apply insertAndCommit_backed
        rw [redeemer_append, marked]
        rfl

theorem markAndCreate_backed {code password : ByteString} :
    Machine.Obeys thread (Backed platform thread request) (fun _ _ => True)
      (store (Store.markAndCreate code user password)) seen := by
  refine And.intro trivial fun usedAt => And.intro trivial fun result => ?_
  cases result with
  | error error => trivial
  | ok outcome =>
      dsimp only [Program.bind]
      split
      · trivial
      · next single =>
        apply createAndCommit_backed
        rw [redeemer_append]
        exact if_pos (not_not.mp single)

theorem registerInTransaction_backed {code password : ByteString} :
    Machine.Obeys thread (Backed platform thread request) (fun _ _ => True)
      (store (Store.registerInTransaction platform.toLibraries code user password)) seen := by
  refine And.intro trivial fun answer => ?_
  rcases answer with error | none | expiresAt
  · trivial
  · trivial
  · dsimp only [Program.bind]
    cases Calendar.parseRFC3339 platform.location expiresAt with
    | error error => trivial
    | ok expiry =>
        refine And.intro trivial fun checkedAt => ?_
        dsimp only [Program.bind]
        split
        · trivial
        · exact markAndCreate_backed

theorem registerWithInvite_backed {code password : ByteString} :
    Machine.Obeys thread (Backed platform thread request) (fun _ _ => True)
      (store (Store.registerWithInvite platform.toLibraries code user password)) seen := by
  refine And.intro trivial fun begun => ?_
  cases begun with
  | error error => trivial
  | ok _ =>
      change Machine.Obeys thread (Backed platform thread request) (fun _ _ => True)
        (store (Store.registerInTransaction platform.toLibraries code user password >>=
          fun result => Store.rollback >>= fun _ => pure result)) _
      rw [store_bind]
      apply registerInTransaction_backed.bind
      intro result seen _
      exact And.intro trivial fun _ => trivial

theorem setFirstAdmin_backed (user : ByteString) :
    Machine.Obeys thread (Backed platform thread request) (fun _ _ => True)
      (setFirstAdmin user) seen :=
  unbacked_obeys (setFirstAdmin_only (fun _ => unbacked_of_quiet) rfl) (fun _ _ => id) trivial

theorem startSession_backed (user : ByteString) :
    Machine.Obeys thread (Backed platform thread request) (fun _ _ => True)
      (startSession user) seen :=
  unbacked_obeys (startSession_only (fun _ => unbacked_of_quiet) fun _ _ => rfl)
    (fun _ _ => id) trivial

theorem registerUser_backed :
    Machine.Obeys thread (Backed platform thread request) (fun _ _ => True)
      (registerUser platform request) seen := by
  unfold registerUser
  split
  · trivial
  · dsimp only
    split
    · trivial
    · apply registerWithInvite_backed.bind
      intro result seen _
      cases result with
      | error error => trivial
      | ok value =>
          apply (setFirstAdmin_backed _).bind
          intro _ seen _
          trivial

theorem handleRegisterSubmit_backed :
    Machine.Obeys thread (Backed platform thread request) (fun _ _ => True)
      (handleRegisterSubmit platform request) seen := by
  unfold handleRegisterSubmit
  split
  · trivial
  · dsimp only
    split
    · trivial
    · apply registerWithInvite_backed.bind
      intro result seen _
      cases result with
      | error error =>
          dsimp only
          split <;> trivial
      | ok value =>
          apply (setFirstAdmin_backed _).bind
          intro _ seen _
          exact startSession_backed _

/-! ### Routes -/

theorem Presented.administers (presented : Presented platform thread request identity seen)
    (isAdmin : identity.isAdmin = true) :
    Administers platform thread request identity.userID seen := by
  rcases presented with rfl | ⟨vouched, governs⟩
  · cases isAdmin
  · exact ⟨vouched, governs isAdmin⟩

theorem backed_of_permits {asked : Route} {op : Op} (same : route platform request = asked)
    (plain : asked.isRegistration = false) (permitted : asked.permits identity op)
    (presented : Presented platform thread request identity seen) :
    Backed platform thread request op seen := by
  unfold Route.permits at permitted
  split at permitted
  case h_8 =>
      obtain ⟨authenticated, rfl⟩ := permitted
      rcases presented with rfl | ⟨vouched, -⟩
      · cases authenticated
      · exact ⟨same, vouched⟩
  case h_13 => exact ⟨same, permitted.2.2, _, presented.administers permitted.1⟩
  case h_14 =>
      obtain ⟨isAdmin, -, rfl⟩ := permitted
      exact presented.administers isAdmin
  case h_15 => exact ⟨_, presented.administers permitted⟩
  all_goals trivial

theorem dispatch_backed (presented : Presented platform thread request identity seen) :
    Machine.Obeys thread (Backed platform thread request) (fun _ _ => True)
      (dispatch platform request identity (route platform request)) seen := by
  cases registers : (route platform request).isRegistration with
  | true =>
      cases asked : route platform request with
      | registerUser => exact registerUser_backed
      | register => exact handleRegisterSubmit_backed
      | _ =>
          rw [asked] at registers
          cases registers
  | false =>
      have only : (dispatch platform request identity (route platform request)).Only fun op =>
          op.isQuiet = true ∨ (route platform request).permits identity op :=
        dispatch_only (fun _ => .inl) _ fun _ => .inr
      refine (Machine.obeys_of_only only ?_ (fun _ _ _ _ known => known.snoc _)
        presented).mono fun _ _ _ => trivial
      rintro op seen (quiet | permitted) presented
      · exact backed_of_unbacked (unbacked_of_quiet quiet)
      · exact backed_of_permits rfl registers permitted presented

theorem serve_backed (thread : Nat) (request : Request) :
    Machine.Obeys thread (Backed platform thread request) (fun _ _ => True)
      (serve platform request) [] := by
  apply (authenticate_backed request).bind
  intro identity seen presented
  exact dispatch_backed presented

end Handlers

theorem isPlain_of_reaches {platform : Platform} {request : Request} {statement : Statement}
    (reaches : Reaches platform request (.store (.exec false statement))) :
    statement.isPlain = true := by
  cases statement with
  | useInvite usedAt user code =>
      rcases reaches with quiet | ⟨identity, permitted⟩
      · cases quiet
      · revert permitted
        cases route platform request <;> exact nofun
  | _ => rfl

/-! ## The admin's statements -/

/-- The statements that have been executed outside transactions, or have failed. -/
def executions (history : List (Performed Op Op.Result)) : List (Nat × Statement) :=
  history.filterMap fun performed =>
    match performed with
    | ⟨thread, .store (.exec false statement), _⟩ => some (thread, statement)
    | _ => none

/-- Statements that only the admin's requests execute. -/
def isAdmins : Statement → Bool
  | .insertUser _ _ | .insertAPIKey _ _ _ _ | .deleteAPIKey _ => true
  | _ => false

def namedAdmin : Statement → Option ByteString
  | .insertAPIKey _ adminUser _ _ => some adminUser
  | _ => none

theorem administers_of_backed {platform : Platform} {thread : Nat} {request : Request}
    {statement : Statement} {seen : List (Performed Op Op.Result)}
    (administrative : isAdmins statement = true)
    (backed : Backed platform thread request (.store (.exec false statement)) seen) :
    ∃ admin, Administers platform thread request admin seen ∧
      ∀ other ∈ namedAdmin statement, other = admin := by
  cases statement with
  | insertUser user hash =>
      obtain ⟨-, -, admin, administers⟩ := backed
      exact ⟨admin, administers, nofun⟩
  | insertAPIKey userID adminUserID keyHash name =>
      exact ⟨adminUserID, backed, fun other same => (Option.some.inj same).symm⟩
  | deleteAPIKey id =>
      obtain ⟨admin, administers⟩ := backed
      exact ⟨admin, administers, nofun⟩
  | setUserAdmin | setPassword | setAvatar | insertInvite | useInvite | insertMessage =>
      cases administrative

theorem exists_of_mem_executions {history : List (Performed Op Op.Result)} {thread : Nat}
    {statement : Statement} (executed : (thread, statement) ∈ executions history) :
    ∃ result : Except SqlError Outcome,
      ⟨thread, .store (.exec false statement), result⟩ ∈ history := by
  obtain ⟨performed, member, same⟩ := List.mem_filterMap.mp executed
  split at same
  · cases same
    exact ⟨_, member⟩
  · cases same

theorem own_subset_history (config : ServerConfig) (thread : Nat) :
    config.scene.own thread ⊆ config.scene.history :=
  List.filter_subset_self _

def Governed (config : ServerConfig) : Prop :=
  ∀ thread user, Governs thread user config.scene.history →
    user ∈ config.scene.world.tables.admins

section Governed

variable {platform : Platform} {config after : ServerConfig}

theorem Governed.grow (governed : Governed config)
    (history : after.scene.history = config.scene.history)
    (grows : config.scene.world.tables.Grows after.scene.world.tables) : Governed after := by
  unfold Governed
  rw [history]
  exact fun thread user member => grows.admins user (governed thread user member)

theorem Governed.step (governed : Governed config) {thread : Nat} {op : Op} {choice : Choice}
    {result : op.Result}
    (grows : config.scene.world.tables.Grows after.scene.world.tables)
    (observed : (machine platform).observe thread op choice config.scene =
      some (result, after.scene)) : Governed after := by
  intro other user member
  rw [Governs, (Machine.observe_eq_some.mp observed).2] at member
  rcases List.mem_append.mp member with old | new
  · exact grows.admins user (governed other user old)
  · cases List.mem_singleton.mp new
    exact grows.admins user
      (admin_of_query (perform_query (perform_store (performed_of_observe observed))))

theorem Governed.next {terms : Terms} {event : ServerEvent} (governed : Governed config)
    (holds : (accountRules terms).Holds (machine platform) config)
    (permitted : (accountRules terms).permits config event)
    (taken : next platform config event = some after) : Governed after := by
  have grows := grows_of_next holds permitted taken
  cases event with
  | arrive thread request =>
      obtain ⟨-, rfl⟩ := Machine.next_arrive taken
      exact governed.grow rfl grows
  | step thread choice =>
      obtain ⟨_, _, _, _, scene, -, observed, rfl⟩ := Machine.next_step taken
      exact governed.step grows observed
  | environment happening =>
      obtain ⟨world, -, rfl⟩ := Machine.next_environment taken
      exact governed.grow rfl grows
  | restart =>
      rw [Machine.next_restart taken] at grows ⊢
      exact governed.grow rfl grows

/-- Accounts without an invite are made, and API keys made and revoked, by requests
of the user who came first, and by nobody else's. -/
theorem administered_of_run {tables : Tables} {clock : Instant} {events : List ServerEvent}
    (nobody : tables.users.rows = [])
    (run : AnyRun (Server.next platform) (start tables clock) events config) {thread : Nat}
    {statement : Statement} (executed : (thread, statement) ∈ executions config.scene.history)
    (administrative : isAdmins statement = true) :
    ∃ request user, (config.threads thread).request = some request ∧
      Vouched platform thread (extractToken request) user (config.scene.own thread) ∧
      config.scene.world.tables.Heads user ∧ config.scene.world.tables.admins = [user] ∧
      ∀ other ∈ namedAdmin statement, other = user := by
  have permitted := run.weaken fun config event (_ : True) => permits_noTerms config event
  have known := permitted.invariant (fun config =>
      (accountRules noTerms).Holds (machine platform) config ∧ Governed config)
    (fun _ _ _ held permitted taken => ⟨accountRules_valid.sound (.single permitted taken) held.1,
      held.2.next held.1 permitted taken⟩) ⟨accounts_start nobody False.elim, nofun⟩
  obtain ⟨result, member⟩ := exists_of_mem_executions executed
  obtain ⟨before, later, split⟩ := List.append_of_mem member
  obtain ⟨request, arrived, backed⟩ :=
    Machine.accounted_of_run serve_backed run before _ later split
  obtain ⟨user, ⟨vouched, governs⟩, names⟩ := administers_of_backed administrative backed
  have seen := Machine.before_subset_own split
  have isAdmin := known.2 thread user (own_subset_history _ _ (seen governs))
  have heads := known.1.1.led.heads isAdmin
  exact ⟨request, user, arrived, vouched.mono seen, heads,
    known.1.1.led.admins (List.ne_nil_of_mem isAdmin) heads, names⟩

end Governed

/-! ## Descent -/

def Did (platform : Platform) (config : ServerConfig) (Asked : Request → Prop)
    (user : ByteString) (statement : Statement) : Prop :=
  ∃ thread request before outcome later, (config.threads thread).request = some request ∧
    Asked request ∧ config.scene.own thread = before ++ ⟨thread, .store (.exec false statement),
      (.ok outcome : Except SqlError Outcome)⟩ :: later ∧
    Vouched platform thread (extractToken request) user before

def Invited (platform : Platform) (config : ServerConfig)
    (issue : ByteString × Int × ByteString) : Prop :=
  Did platform config (fun request => route platform request = .getInvite) issue.2.2
    (.insertInvite issue.1 issue.2.1 issue.2.2)

/-- The account goes back to a cold start of the server. -/
inductive Descends (platform : Platform) (events : List ServerEvent) (config : ServerConfig) :
    ByteString → Prop
  | coldStart {user : ByteString} {invite : InviteRow} :
      invite ∈ config.scene.world.tables.invites.rows → invite.ServedFor user →
      .environment (.coldStart invite.code) ∈ events →
      Descends platform events config user
  | invited {user : ByteString} {invite : InviteRow} :
      invite ∈ config.scene.world.tables.invites.rows → invite.ServedFor user →
      Invited platform config invite.issue →
      Descends platform events config invite.createdByUser →
      Descends platform events config user
  | created {admin user : ByteString} :
      Did platform config (fun request => route platform request = .adminCreateUser) admin
        (.insertUser user none) → admin ∈ config.scene.world.tables.admins →
      Descends platform events config admin → Descends platform events config user

def Issued (platform : Platform) (events : List ServerEvent) (config : ServerConfig)
    (issue : ByteString × Int × ByteString) : Prop :=
  .environment (.coldStart issue.1) ∈ events ∨
    (Invited platform config issue ∧ config.scene.world.tables.HasUser issue.2.2)

/-- Whom the answers of a run are about. -/
structure Answered (config : ServerConfig) : Prop where
  sessions : ∀ thread token user,
    ⟨thread, .checkToken token, (some user : Option ByteString)⟩ ∈ config.scene.history →
    config.scene.world.tables.HasUser user
  keys : ∀ thread keyHash user, ⟨thread, .store (.query false (.apiKeyOwner keyHash)),
      (.ok (some user) : Except SqlError (Option ByteString))⟩ ∈ config.scene.history →
    config.scene.world.tables.HasUser user
  admins : Governed config

/-- The invariant of a run in which every key is made for a user. -/
structure Rooted (platform : Platform) (config : ServerConfig) (events : List ServerEvent) :
    Prop where
  users : ∀ user, config.scene.world.tables.HasUser user → Descends platform events config user
  invites : ∀ invite ∈ config.scene.world.tables.invites.rows,
    Issued platform events config invite.issue
  draft : config.scene.world.store.Drafted Tables.Derives
  redeeming : ∀ thread user, (config.threads thread).inFlight = true →
    redeemer (config.scene.own thread) = some user →
    config.scene.world.store.Redeeming thread user
  answered : Answered config

section Answered

variable {platform : Platform} {config after : ServerConfig} {events : List ServerEvent}

theorem Answered.grow (answered : Answered config)
    (history : after.scene.history = config.scene.history)
    (grows : config.scene.world.tables.Grows after.scene.world.tables) : Answered after where
  sessions := by
    rw [history]
    exact fun thread token user member => grows.hasUser (answered.sessions thread token user member)
  keys := by
    rw [history]
    exact fun thread keyHash user member =>
      grows.hasUser (answered.keys thread keyHash user member)
  admins := answered.admins.grow history grows

theorem Answered.hasUser (answered : Answered config) {thread : Nat} {token user : ByteString}
    {seen : List (Performed Op Op.Result)} (past : seen ⊆ config.scene.history)
    (vouched : Vouched platform thread token user seen) :
    config.scene.world.tables.HasUser user := by
  cases vouched with
  | session member => exact answered.sessions thread token user (past member)
  | key _ member => exact answered.keys thread _ user (past member)

theorem Answered.step (answered : Answered config) (accounts : Accounts keyTerms config.scene)
    {thread : Nat} {op : Op} {choice : Choice} {result : op.Result}
    (grows : config.scene.world.tables.Grows after.scene.world.tables)
    (observed : (machine platform).observe thread op choice config.scene =
      some (result, after.scene)) : Answered after := by
  obtain ⟨performed, history⟩ := Machine.observe_eq_some.mp observed
  refine ⟨fun other token user member => ?_, fun other keyHash user member => ?_,
    answered.admins.step grows observed⟩
  · rw [history] at member
    rcases List.mem_append.mp member with old | new
    · exact grows.hasUser (answered.sessions other token user old)
    · cases List.mem_singleton.mp new
      have checked : config.scene.world.checkToken token = (some user, after.scene.world) :=
        Option.some.inj performed
      obtain ⟨entry, found, -, rfl⟩ := World.checkToken_eq_some.mp (congrArg Prod.fst checked)
      exact grows.hasUser (accounts.sessions token entry found)
  · rw [history] at member
    rcases List.mem_append.mp member with old | new
    · exact grows.hasUser (answered.keys other keyHash user old)
    · cases List.mem_singleton.mp new
      have owned := perform_query (perform_store (performed_of_observe observed))
      obtain ⟨entry, found, rfl⟩ := Option.map_eq_some_iff.mp owned
      exact grows.hasUser (accounts.keys trivial entry (List.mem_of_find?_eq_some found)).1

end Answered

/-! ## What lasts -/

/-- Nothing that an account goes back to is lost. -/
structure Lasts (platform : Platform) (events : List ServerEvent) (config : ServerConfig)
    (more : List ServerEvent) (after : ServerConfig) : Prop where
  events : events ⊆ more
  did : ∀ {Asked user statement}, Did platform config Asked user statement →
    Did platform after Asked user statement
  grows : config.scene.world.tables.Grows after.scene.world.tables
  used : ∀ invite ∈ config.scene.world.tables.invites.rows, invite.usedAt.isSome →
    invite ∈ after.scene.world.tables.invites.rows

section Lasts

variable {platform : Platform} {config after : ServerConfig} {events more : List ServerEvent}

theorem Did.next {Asked : Request → Prop} {user : ByteString} {statement : Statement}
    {event : ServerEvent} (did : Did platform config Asked user statement)
    (taken : next platform config event = some after) :
    Did platform after Asked user statement := by
  obtain ⟨thread, request, before, outcome, later, arrived, asked, own, vouched⟩ := did
  obtain ⟨added, grown⟩ := (Machine.history_of_next taken).filter fun performed =>
    decide (performed.thread = thread)
  refine ⟨thread, request, before, outcome, later ++ added,
    Machine.request_of_next arrived taken, asked, ?_, vouched⟩
  rw [Scene.own, ← grown]
  change config.scene.own thread ++ added = _
  rw [own]
  simp

theorem Descends.last {user : ByteString} (descends : Descends platform events config user)
    (lasts : Lasts platform events config more after) : Descends platform more after user := by
  induction descends with
  | coldStart member served started =>
      exact .coldStart (lasts.used _ member served.1) served (lasts.events started)
  | invited member served did _ induction =>
      exact .invited (lasts.used _ member served.1) served (lasts.did did) induction
  | created did isAdmin _ induction =>
      exact .created (lasts.did did) (lasts.grows.admins _ isAdmin) induction

theorem Issued.last {issue : ByteString × Int × ByteString}
    (issued : Issued platform events config issue) (lasts : Lasts platform events config more after) :
    Issued platform more after issue :=
  issued.imp (fun started => lasts.events started) fun ⟨did, has⟩ =>
    ⟨lasts.did did, lasts.grows.hasUser has⟩

theorem Rooted.redeemed (rooted : Rooted platform config events)
    (lasts : Lasts platform events config more after) {invite : InviteRow} {user : ByteString}
    (issued : Issued platform events config invite.issue)
    (member : invite ∈ after.scene.world.tables.invites.rows) (served : invite.ServedFor user) :
    Descends platform more after user := by
  rcases issued with started | ⟨did, has⟩
  · exact .coldStart member served (lasts.events started)
  · exact .invited member served (lasts.did did) ((rooted.users _ has).last lasts)

end Lasts

/-! ## One event -/

section Steps

variable {platform : Platform} {config after : ServerConfig} {events : List ServerEvent}
variable {thread : Nat} {request : Request} {choice : Choice} {op : Op} {result : op.Result}

theorem derives_of_perform {world reached : World} {seen : List (Performed Op Op.Result)}
    (draft : world.store.Drafted Tables.Derives) (reaches : Reaches platform request op)
    (backed : Backed platform thread request op seen)
    (redeeming : ∀ user, redeemer seen = some user → world.store.Redeeming thread user)
    (performed : perform platform thread op choice world = some (result, reached)) :
    reached.store.Drafted Tables.Derives := by
  by_cases leaves : op.leavesStore = true
  · exact draft.of_database (by rw [store_of_perform leaves performed])
  cases op with
  | store op =>
      refine draft.perform ?_ (perform_store performed)
      rintro statement outcome tables rfl applied
      have derives := draft.view Tables.Derives.refl thread
      cases statement with
      | useInvite usedAt user code =>
          cases applied
          exact derives.useInvite
      | insertUser user hash =>
          obtain ⟨written, writer, redeemed⟩ := redeeming user backed
          rw [Database.view_of_held writer] at applied derives
          exact derives.insertUser redeemed applied
      | setUserAdmin | setPassword | setAvatar | insertInvite | insertMessage | insertAPIKey
        | deleteAPIKey => cases isServed_of_reaches reaches
  | nanoid | random | putToken | checkToken | broadcast | register | writePump | renderContent
    | readFile => exact absurd rfl leaves

theorem redeeming_of_perform {world reached : World} {seen : List (Performed Op Op.Result)}
    (reaches : Reaches platform request op)
    (redeeming : ∀ user, redeemer seen = some user → world.store.Redeeming thread user)
    (performed : perform platform thread op choice world = some (result, reached))
    {user : ByteString} (marked : redeemer (seen ++ [⟨thread, op, result⟩]) = some user) :
    reached.store.Redeeming thread user := by
  have served := isServed_of_reaches reaches
  rw [redeemer_append] at marked
  by_cases leaves : op.leavesStore = true
  · have unmarked : redeemer.step (redeemer seen) ⟨thread, op, result⟩ = redeemer seen := by
      cases op with
      | store => cases leaves
      | _ => rfl
    rw [store_of_perform leaves performed]
    exact redeeming user (unmarked ▸ marked)
  cases op with
  | store op =>
      have stored := perform_store performed
      cases op with
      | commit | rollback => cases marked
      | begin | query | now | bcrypt =>
          exact (redeeming user marked).perform stored rfl ⟨nofun, nofun⟩
      | exec inTx statement =>
          cases inTx with
          | false => exact (redeeming user marked).perform stored rfl ⟨nofun, nofun⟩
          | true =>
              cases statement with
              | useInvite usedAt name code =>
                  cases result with
                  | error error => exact (redeeming user marked).perform stored rfl ⟨nofun, nofun⟩
                  | ok outcome =>
                      obtain ⟨single, same⟩ := Option.ite_none_right_eq_some.mp marked
                      cases same
                      exact World.redeeming_of_useInvite stored single
              | insertUser name hash =>
                  exact (redeeming user marked).perform stored rfl ⟨nofun, nofun⟩
              | setUserAdmin | setPassword | setAvatar | insertInvite | insertMessage
                | insertAPIKey | deleteAPIKey => cases served
  | nanoid | random | putToken | checkToken | broadcast | register | writePump | renderContent
    | readFile => exact absurd rfl leaves

theorem redeeming_of_other {world reached : World} {other : Nat} (different : other ≠ thread)
    (performed : perform platform thread op choice world = some (result, reached))
    {user : ByteString} (redeeming : world.store.Redeeming other user) :
    reached.store.Redeeming other user := by
  by_cases leaves : op.leavesStore = true
  · rw [store_of_perform leaves performed]
    exact redeeming
  cases op with
  | store op => exact redeeming.other different (perform_store performed)
  | nanoid | random | putToken | checkToken | broadcast | register | writePump | renderContent
    | readFile => exact absurd rfl leaves

variable {more : List ServerEvent}

theorem did_of_observe {Asked : Request → Prop} {statement : Statement} {outcome : Outcome}
    {user : ByteString} (arrived : (after.threads thread).request = some request)
    (asked : Asked request)
    (observed : (machine platform).observe thread (.store (.exec false statement)) choice
      config.scene = some ((.ok outcome : Except SqlError Outcome), after.scene))
    (vouched : Vouched platform thread (extractToken request) user (config.scene.own thread)) :
    Did platform after Asked user statement :=
  ⟨thread, request, _, outcome, [], arrived, asked, Machine.own_of_observe observed, vouched⟩

theorem Rooted.users_of_observe (rooted : Rooted platform config events)
    (lasts : Lasts platform events config more after)
    (arrived : (after.threads thread).request = some request)
    (backed : Backed platform thread request op (config.scene.own thread))
    (observed : (machine platform).observe thread op choice config.scene =
      some (result, after.scene)) {user : ByteString}
    (has : after.scene.world.tables.HasUser user) : Descends platform more after user := by
  have old (was : config.scene.world.tables.HasUser user) : Descends platform more after user :=
    (rooted.users user was).last lasts
  cases changes_of_perform (performed_of_observe observed) with
  | unchanged same => exact old (same ▸ has)
  | @statement statement outcome idle applied =>
      rw [Tables.hasUser_iff] at has
      cases Statement.enrols_of_apply applied with
      | same same => exact old (Tables.hasUser_iff.mpr (same ▸ has))
      | setUserAdmin granted =>
          rw [granted, List.map_map] at has
          exact old (Tables.hasUser_iff.mpr has)
      | insertUser rows =>
          rw [rows, List.map_append, List.mem_append] at has
          rcases has with was | new
          · exact old (Tables.hasUser_iff.mpr was)
          · cases List.mem_singleton.mp new
            obtain ⟨asked, rfl, admin, vouched, governs⟩ := backed
            have isAdmin := rooted.answered.admins thread admin (own_subset_history _ _ governs)
            exact .created (did_of_observe arrived asked observed vouched)
              (lasts.grows.admins admin isAdmin)
              ((rooted.users admin (Tables.hasUser_of_admin isAdmin)).last lasts)
  | commit held =>
      have derives := rooted.draft thread _ held
      rcases derives.users user has with was | ⟨invite, member, served⟩
      · exact old was
      · obtain ⟨before, beforeMem, same⟩ := derives.invites invite member
        exact rooted.redeemed lasts (same ▸ rooted.invites before beforeMem) member served

theorem Rooted.invites_of_observe (rooted : Rooted platform config events)
    (lasts : Lasts platform events config more after)
    (arrived : (after.threads thread).request = some request)
    (reaches : Reaches platform request op)
    (backed : Backed platform thread request op (config.scene.own thread))
    (observed : (machine platform).observe thread op choice config.scene =
      some (result, after.scene)) {invite : InviteRow}
    (member : invite ∈ after.scene.world.tables.invites.rows) :
    Issued platform more after invite.issue := by
  cases changes_of_perform (performed_of_observe observed) with
  | unchanged same => exact (rooted.invites invite (same ▸ member)).last lasts
  | @statement statement outcome idle applied =>
      rcases Statement.invites_of_apply (isPlain_of_reaches reaches) applied with
        same | ⟨code, expiresAt, createdBy, rfl, rows⟩
      · exact (rooted.invites invite (same ▸ member)).last lasts
      · rw [rows, List.mem_append, List.mem_singleton] at member
        rcases member with was | rfl
        · exact (rooted.invites invite was).last lasts
        · exact .inr ⟨did_of_observe arrived backed.1 observed backed.2, lasts.grows.hasUser
            (rooted.answered.hasUser (own_subset_history _ _) backed.2)⟩
  | commit held =>
      obtain ⟨before, beforeMem, same⟩ := (rooted.draft thread _ held).invites invite member
      exact same ▸ (rooted.invites before beforeMem).last lasts

theorem invites_of_environment {happening : Happening} {world reached : World}
    (happened : environment platform happening world = some reached) :
    reached.tables.invites = world.tables.invites ∨
      ∃ code expiresAt, happening = .coldStart code ∧ reached.tables.invites.rows =
        world.tables.invites.rows ++ [⟨code, expiresAt, [], none, none⟩] := by
  cases happening with
  | coldStart code =>
      have opened : world.coldStart code = some reached := happened
      unfold World.coldStart at opened
      split at opened
      case isFalse => cases opened
      case isTrue =>
        split at opened <;> cases opened
        case h_1 result store executed =>
          have performed : Storage.perform platform.toLibraries 0
              (.exec false (.insertInvite code (Calendar.unixSeconds
                (world.store.clock + World.inviteLifetime)) [])) .plain world.store =
              some (result, store) := executed
          rcases perform_exec performed with ⟨rfl, -⟩ | ⟨-, outcome, tables, -, applied, rfl⟩
          · exact .inl rfl
          · rcases Statement.invites_of_apply rfl applied with
              same | ⟨_, _, _, inserted, rows⟩
            · exact .inl same
            · cases inserted
              exact .inr ⟨_, _, rfl, rows⟩
  | hub event fault =>
      obtain ⟨hub, -, rfl⟩ := Option.map_eq_some_iff.mp happened
      exact .inl rfl
  | advance elapsed => cases happened; exact .inl rfl
  | reload entries => cases happened; exact .inl rfl
  | files files => cases happened; exact .inl rfl

abbrev Backing (platform : Platform) (config : ServerConfig) : Prop :=
  Machine.Tracked (fun thread request rest seen =>
    Machine.Obeys thread (Backed platform thread request) (fun _ _ => True) rest seen) config

theorem Rooted.step (rooted : Rooted platform config events)
    (bounded : Machine.Bounded (Reaches platform) config)
    (backing : Backing platform config) (accounts : Accounts keyTerms config.scene)
    (lasts : Lasts platform events config more after)
    (taken : next platform config (.step thread choice) = some after) :
    Rooted platform after more := by
  obtain ⟨request, op, rest, result, scene, running, observed, same⟩ := Machine.next_step taken
  have reaches := ((bounded thread).2 request _ running).1
  have backed := ((backing thread).2 request _ running).1
  have arrived : (after.threads thread).request = some request :=
    Machine.request_of_next (by rw [running]; rfl) taken
  have redeeming : ∀ user, redeemer (config.scene.own thread) = some user →
      config.scene.world.store.Redeeming thread user :=
    fun user => rooted.redeeming thread user (by rw [running]; rfl)
  have reached : after.scene = scene := by rw [same]; rfl
  rw [← reached] at observed
  have performed := performed_of_observe observed
  refine ⟨fun user => rooted.users_of_observe lasts arrived backed observed,
    fun invite => rooted.invites_of_observe lasts arrived reaches backed observed,
    derives_of_perform rooted.draft reaches backed redeeming performed, ?_,
    rooted.answered.step accounts lasts.grows observed⟩
  intro other user flying marked
  by_cases own : other = thread
  · subst own
    rw [Machine.own_of_observe observed] at marked
    exact redeeming_of_perform reaches redeeming performed marked
  · rw [Machine.own_of_observe_other own observed] at marked
    rw [same] at flying
    simp only [Config.set, Function.update_of_ne own] at flying
    exact redeeming_of_other own performed (rooted.redeeming other user flying marked)

theorem Rooted.environment {happening : Happening} (rooted : Rooted platform config events)
    (lasts : Lasts platform events config (events ++ [.environment happening]) after)
    (taken : next platform config (.environment happening) = some after) :
    Rooted platform after (events ++ [.environment happening]) := by
  obtain ⟨world, happened, rfl⟩ := Machine.next_environment taken
  refine ⟨fun user has => ?_, fun invite member => ?_, ?_, fun thread user flying marked => ?_,
    rooted.answered.grow rfl lasts.grows⟩
  · refine (rooted.users user ?_).last lasts
    rcases environment_store happened with same | ⟨-, -, -, code, expiresAt, outcome, applied⟩
    · simpa only [World.tables, same] using has
    · have roll := (Statement.roll_of_insertInvite applied).1
      rw [Tables.hasUser_iff] at has ⊢
      exact roll ▸ has
  · rcases invites_of_environment happened with same | ⟨code, expiresAt, rfl, rows⟩
    · exact (rooted.invites invite (same ▸ member)).last lasts
    · have added : invite ∈ world.tables.invites.rows := member
      rw [rows, List.mem_append, List.mem_singleton] at added
      rcases added with was | rfl
      · exact (rooted.invites invite was).last lasts
      · exact .inl (List.mem_append_right _ (List.mem_singleton_self _))
  · rcases environment_store happened with same | ⟨idle, -⟩
    · exact rooted.draft.of_database same
    · exact World.drafted_of_idle idle
  · obtain ⟨tables, writer, redeemed⟩ := rooted.redeeming thread user flying marked
    rcases environment_store happened with same | ⟨-, idle, -⟩
    · exact ⟨tables, same ▸ writer, redeemed⟩
    · rw [idle] at writer
      cases writer

end Steps

/-! ## Every run -/

section Runs

variable {platform : Platform} {config after : ServerConfig} {events : List ServerEvent}

theorem Rooted.arrive {thread : Nat} {request : Request} (rooted : Rooted platform config events)
    (tracked : Backing platform config)
    (lasts : Lasts platform events config (events ++ [.arrive thread request]) after)
    (taken : next platform config (.arrive thread request) = some after) :
    Rooted platform after (events ++ [.arrive thread request]) := by
  obtain ⟨idle, rfl⟩ := Machine.next_arrive taken
  refine ⟨fun user has => (rooted.users user has).last lasts,
    fun invite member => (rooted.invites invite member).last lasts, rooted.draft, ?_,
    rooted.answered.grow rfl lasts.grows⟩
  intro other user flying marked
  by_cases same : other = thread
  · subst same
    change redeemer (config.scene.own other) = some user at marked
    rw [(tracked other).1 idle] at marked
    cases marked
  · simp only [Config.set, Function.update_of_ne same] at flying
    exact rooted.redeeming other user flying marked

theorem Rooted.restart (rooted : Rooted platform config events)
    (lasts : Lasts platform events config (events ++ [.restart]) after)
    (taken : next platform config .restart = some after) :
    Rooted platform after (events ++ [.restart]) := by
  rw [Machine.next_restart taken] at lasts ⊢
  refine ⟨fun user has => (rooted.users user has).last lasts,
    fun invite member => (rooted.invites invite member).last lasts,
    World.drafted_of_idle rfl, fun thread user flying => ?_, rooted.answered.grow rfl lasts.grows⟩
  cases status : config.threads thread with
  | idle | killed => simp [status, Thread.kill, Thread.inFlight] at flying
  | running request rest => cases rest <;> simp [status, Thread.kill, Thread.inFlight] at flying

end Runs

/-- Ann registers on the initial invite, Bob on one of Ann's, and Ann, who is the
admin, makes an account for a bot. -/
def annsGuests : List ServerEvent :=
  let code := utf8 "0123456789abcdef"
  let session := "abcdefghijklmnopqrstuvwxyzABCDEF"
  let steps : Nat → Nat → List ServerEvent := fun thread count =>
    List.replicate count (.step thread .plain)
  let registration := fun (name : String) (invite : ByteString) =>
    Request.plain (utf8 "POST") (utf8 "/register")
      (.ofForm [(utf8 "user", utf8 name), (utf8 "password", utf8 "secret"),
        (utf8 "invite_code", invite)])
  let invitation := Request.plain (utf8 "GET") (utf8 "/api/user/invite") .empty
  let creation := Request.plain (utf8 "POST") (utf8 "/api/admin/users")
    (.ofForm [(utf8 "user", utf8 "bot")])
  [.environment (.coldStart code), .arrive 0 (registration "ann" code)] ++ steps 0 11 ++
    [.step 0 ⟨false, utf8 session⟩] ++ steps 0 2 ++
    [.arrive 1 (invitation.bearing session)] ++ steps 1 2 ++
    [.step 1 ⟨false, List.replicate 8 7⟩] ++ steps 1 2 ++
    [.arrive 2 (registration "bob" (Bytes.hexEncode (List.replicate 8 7)))] ++ steps 2 10 ++
    [.arrive 3 (creation.bearing session)] ++ steps 3 3

theorem annsGuests_administered : ∃ (config : ServerConfig) (request : Request) (user : ByteString),
    (config.threads 3).request = some request ∧
    Vouched .transparent 3 (extractToken request) user (config.scene.own 3) ∧
    config.scene.world.tables.admins = [user] := by
  have executed : (execute (next .transparent) (start .created 0) annsGuests).map
      (fun config => decide ((3, Statement.insertUser (utf8 "bot") none) ∈
        executions config.scene.history)) = some true := by
    decide +kernel
  obtain ⟨config, reached, member⟩ := Option.map_eq_some_iff.mp executed
  obtain ⟨request, user, arrived, vouched, -, admins, -⟩ :=
    administered_of_run rfl (run_of_execute reached) (of_decide_eq_true member) rfl
  exact ⟨config, request, user, arrived, vouched, admins⟩

end Grunt.Server
