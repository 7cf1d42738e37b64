import Grunt.Server.Conduct

/-! # Every identity is an account

Whom the server takes a caller for has an account, as long as nobody makes a
key for a user who does not exist. The `FOREIGN KEY` clauses of `api_keys` say
so, but no connection enforces them and `AdminCreateAPIKey` does not look.
-/

namespace Grunt.Server

open Foundation Storage

/-! ## Whom a token stands for -/

section Tokens

variable {platform : Platform} {world : World}

def World.keyOwner (platform : Platform) (world : World) (key : ByteString) : Option ByteString :=
  Query.eval (.apiKeyOwner (Store.hashAPIKey platform.toLibraries key)) world.tables

theorem World.checkToken_eq_some {token user : ByteString} :
    (world.checkToken token).1 = some user ↔
      ∃ entry, world.tokens token = some entry ∧ ¬ entry.expiry < world.store.clock ∧
        entry.userID = user := by
  unfold World.checkToken
  split
  case h_1 missing => simp [missing]
  case h_2 entry found =>
    split
    case isTrue expired => simp [found, expired]
    case isFalse live =>
      simp only [found, Option.some.injEq, exists_eq_left']
      exact ⟨fun same => ⟨live, same⟩, And.right⟩

/-- The user behind a token, where `ValidateToken` meets no fault. -/
def World.owner (platform : Platform) (world : World) (token : ByteString) : Option ByteString :=
  if Bytes.hasPrefix apiKeyPrefix token then world.keyOwner platform token
  else (world.checkToken token).1

/-- `ValidateToken` can return this user and `true`. -/
def Accepts (platform : Platform) (world : World) (token user : ByteString) : Prop :=
  ∃ thread choices after, (validateToken platform token).run (perform platform thread) choices
    world = some (some user, after)

theorem validateAPIKey_of_keyOwner {thread : Nat} {key user : ByteString}
    (owned : world.keyOwner platform key = some user) :
    (validateAPIKey platform key).run (perform platform thread) [.plain] world =
      some (some user, world) := by
  let asked := Query.apiKeyOwner (Store.hashAPIKey platform.toLibraries key)
  have answered : perform platform thread (.store (.query false asked)) .plain world =
      some ((.ok (some user) : Except SqlError (Option ByteString)), world) := by
    rw [← owned]
    rfl
  exact Program.run_perform answered rfl

theorem validateToken_owner {thread : Nat} (token : ByteString) :
    (validateToken platform token).Ensures (perform platform thread)
      (fun valid _ => ∀ user, valid = some user → world.owner platform token = some user)
      world := by
  unfold validateToken
  split
  · next key =>
    intro choice result middle performed
    rcases result with error | none | owner
    · exact nofun
    · exact nofun
    · rintro user ⟨⟩
      rw [World.owner, if_pos key]
      exact perform_query (perform_store performed)
  · next session =>
    intro choice result middle performed user valid
    rw [World.owner, if_neg session]
    have checked : world.checkToken token = (result, middle) := Option.some.inj performed
    rw [checked]
    exact valid

theorem accepts_iff {token user : ByteString} :
    Accepts platform world token user ↔ world.owner platform token = some user := by
  constructor
  · rintro ⟨thread, choices, after, validated⟩
    exact (validateToken_owner token).sound validated user rfl
  · intro owned
    unfold World.owner at owned
    unfold Accepts validateToken
    split at owned
    · next key =>
      rw [if_pos key]
      exact ⟨0, [.plain], world, validateAPIKey_of_keyOwner owned⟩
    · next session =>
      refine ⟨0, [.plain], (world.checkToken token).2, ?_⟩
      rw [if_neg session, ← owned]
      rfl

end Tokens

/-! ## Whom a request is taken for -/

/-- What shows that a token stands for a user. -/
inductive Vouched (platform : Platform) (thread : Nat) (token user : ByteString)
    (seen : List (Performed Op Op.Result)) : Prop
  | session : ⟨thread, .checkToken token, (some user : Option ByteString)⟩ ∈ seen →
      Vouched platform thread token user seen
  | key : Bytes.hasPrefix apiKeyPrefix token = true →
      ⟨thread, .store (.query false (.apiKeyOwner (Store.hashAPIKey platform.toLibraries token))),
        (.ok (some user) : Except SqlError (Option ByteString))⟩ ∈ seen →
      Vouched platform thread token user seen

/-- The identity that `authMiddleware` has put into the context of a request. -/
def Identified (platform : Platform) (config : ServerConfig) (thread : Nat)
    (identity : Identity) : Prop :=
  ∃ request earlier, (config.threads thread).request = some request ∧
    earlier <+: config.scene.own thread ∧
    Machine.Yields thread (authenticate platform request) earlier identity

section Requests

variable {platform : Platform} {thread : Nat} {seen : List (Performed Op Op.Result)}

theorem Vouched.snoc {token user : ByteString} (vouched : Vouched platform thread token user seen)
    (performed : Performed Op Op.Result) :
    Vouched platform thread token user (seen ++ [performed]) := by
  cases vouched with
  | session member => exact .session (List.mem_append_left _ member)
  | key isKey member => exact .key isKey (List.mem_append_left _ member)

theorem Vouched.mono {token user : ByteString} {later : List (Performed Op Op.Result)}
    (vouched : Vouched platform thread token user seen) (grown : seen ⊆ later) :
    Vouched platform thread token user later := by
  cases vouched with
  | session member => exact .session (grown member)
  | key isKey member => exact .key isKey (grown member)

theorem validateToken_obeys (token : ByteString) :
    Machine.Obeys thread (fun _ _ => True)
      (fun valid seen => ∀ user, valid = some user → Vouched platform thread token user seen)
      (validateToken platform token) seen := by
  unfold validateToken
  split
  case isTrue isKey =>
    refine And.intro trivial fun answer => ?_
    rcases answer with error | none | owner
    · exact nofun
    · exact nofun
    · rintro user ⟨⟩
      exact .key isKey (List.mem_append_right _ (List.mem_singleton_self _))
  case isFalse =>
    refine And.intro trivial fun valid => ?_
    rintro user ⟨⟩
    exact .session (List.mem_append_right _ (List.mem_singleton_self _))

theorem isUserAdmin_obeys {Kept : List (Performed Op Op.Result) → Prop}
    (kept : ∀ seen performed, Kept seen → Kept (seen ++ [performed])) (holds : Kept seen)
    (user : ByteString) :
    Machine.Obeys thread (fun _ _ => True) (fun _ => Kept) (store (Store.isUserAdmin user))
      seen := by
  refine And.intro trivial fun answer => ?_
  rcases answer with error | none | isAdmin <;> exact kept _ _ holds

theorem authenticate_obeys (request : Request) :
    Machine.Obeys thread (fun _ _ => True)
      (fun identity seen => identity = .anonymous ∨
        Vouched platform thread (extractToken request) identity.userID seen)
      (authenticate platform request) seen := by
  unfold authenticate
  dsimp only
  split
  · exact .inl rfl
  · refine (validateToken_obeys (extractToken request)).bind fun valid seen vouched => ?_
    cases valid with
    | none => exact .inl rfl
    | some user =>
        have kept : ∀ seen performed, Vouched platform thread (extractToken request) user seen →
            Vouched platform thread (extractToken request) user (seen ++ [performed]) :=
          fun _ performed vouched => vouched.snoc performed
        apply (isUserAdmin_obeys kept (vouched user rfl) user).bind
        intro answer seen still
        exact .inr still

theorem Identified.vouched {config : ServerConfig} {identity : Identity}
    (identified : Identified platform config thread identity)
    (authenticated : identity.authenticated = true) :
    ∃ request, (config.threads thread).request = some request ∧
      Vouched platform thread (extractToken request) identity.userID
        (config.scene.own thread) := by
  rcases identified with ⟨request, earlier, arrived, ⟨later, whole⟩, yields⟩
  have known := yields.post (authenticate_obeys request)
  rcases known with rfl | vouched
  · cases authenticated
  · refine ⟨request, arrived, ?_⟩
    rw [← whole]
    cases vouched with
    | session member => exact .session (List.mem_append_left _ member)
    | key isKey member => exact .key isKey (List.mem_append_left _ member)

end Requests

/-! ## Every run -/

/-- Every reference to a user and every accepted token is about an account. -/
structure Genuine (platform : Platform) (config : ServerConfig) : Prop where
  foreignKeys : config.scene.world.tables.ForeignKeys
  accepted : ∀ token user, Accepts platform config.scene.world token user →
    config.scene.world.tables.HasUser user

/-- In every run from an empty store everybody who is let in has an account. -/
def IdentitiesGenuine (platform : Platform) : Prop :=
  ∀ clock events config, AnyRun (next platform) (start .created clock) events config →
    Genuine platform config

/-- A key is only made for a user who exists. -/
def namesUser (config : ServerConfig) : ServerEvent → Bool
  | .step thread choice =>
      match config.threads thread with
      | .running _ (.perform (.store (.exec false (.insertAPIKey userID _ _ _))) _) =>
          choice.fault || decide (config.scene.world.tables.HasUser userID)
      | _ => true
  | _ => true

def keyTerms : Terms where
  keys := True
  first := False

section Runs

variable {platform : Platform} {config : ServerConfig}

theorem permits_of_namesUser (event : ServerEvent) (named : namesUser config event = true) :
    (accountRules keyTerms).permits config event := by
  cases event with
  | arrive thread request => trivial
  | environment happening => trivial
  | restart => exact fun impossible => impossible.elim
  | step thread choice =>
      simp only [Rules.permits]
      split
      case h_2 => trivial
      case h_1 request op rest running =>
        change keyTerms.allow op choice config.scene
        unfold Terms.allow
        split
        · next userID _ _ _ =>
          intro _ faultless
          have known : config.scene.world.tables.HasUser userID := by
            simpa [namesUser, running, faultless] using named
          exact known
        · exact fun impossible => impossible.elim
        · exact fun impossible => impossible.elim
        · exact fun impossible => impossible.elim
        · trivial

theorem Accounts.genuine (accounts : Accounts keyTerms config.scene) :
    Genuine platform config := by
  refine ⟨accounts.keys trivial, fun token user accepted => ?_⟩
  have owned := accepts_iff.mp accepted
  unfold World.owner at owned
  split at owned
  · obtain ⟨entry, found, rfl⟩ := Option.map_eq_some_iff.mp owned
    exact (accounts.keys trivial entry (List.mem_of_find?_eq_some found)).1
  · obtain ⟨entry, found, -, rfl⟩ := World.checkToken_eq_some.mp owned
    exact accounts.sessions token entry found

end Runs

def keyFor (user : ByteString) : List ServerEvent :=
  let step := Event.step 0 Storage.Choice.plain
  let code := utf8 "0123456789abcdef"
  let session := "abcdefghijklmnopqrstuvwxyzABCDEF"
  let registration := Request.plain (utf8 "POST") (utf8 "/register")
    (.ofForm [(utf8 "user", utf8 "ann"), (utf8 "password", utf8 "secret"),
      (utf8 "invite_code", code)])
  let creation := Request.plain (utf8 "POST") (utf8 "/api/admin/api-keys")
    (.ofForm [(utf8 "user_id", user), (utf8 "name", utf8 "bot")])
  [.environment (.coldStart code), .arrive 0 registration] ++ List.replicate 11 step ++
  [.step 0 ⟨false, utf8 session⟩, step, step, .arrive 1 (creation.bearing session),
    .step 1 .plain, .step 1 .plain, .step 1 ⟨false, List.replicate 32 7⟩, .step 1 .plain]

/-- The users and the owners of keys at the end of a run. -/
def ServerConfig.owners (config : ServerConfig) : List ByteString × List ByteString :=
  (config.scene.world.tables.users.rows.map UserRow.user,
    config.scene.world.tables.apiKeys.rows.map fun entry => entry.2.userID)

/-- As long as keys are made for users who exist, every identity is an account. -/
theorem namesUser_genuine {platform : Platform} {clock : Instant} {events : List ServerEvent}
    {config : ServerConfig}
    (run : Run (next platform) (fun config event => namesUser config event = true)
      (start .created clock) events config) : Genuine platform config := by
  have permitted := run.weaken fun _ event named => permits_of_namesUser event named
  have holds := accounts_of_run rfl (fun _ _ none => absurd none List.not_mem_nil) permitted
  exact Accounts.genuine holds.1

theorem keyForAnn_genuine : ∃ config : ServerConfig, Genuine .transparent config ∧
    config.owners = ([utf8 "ann"], [utf8 "ann"]) := by
  have executed : (executeWhere (next .transparent) namesUser (start .created 0)
      (keyFor (utf8 "ann"))).map ServerConfig.owners =
        some ([utf8 "ann"], [utf8 "ann"]) := by
    decide +kernel
  obtain ⟨config, reached, owners⟩ := Option.map_eq_some_iff.mp executed
  exact ⟨config, namesUser_genuine (run_of_executeWhere reached), owners⟩

/-- The admin makes a key for a name that nobody has registered. -/
theorem not_identitiesGenuine : ¬ IdentitiesGenuine .transparent := by
  intro genuine
  have executed : (execute (next .transparent) (start .created 0)
      (keyFor (utf8 "ghost"))).map ServerConfig.owners =
        some ([utf8 "ann"], [utf8 "ghost"]) := by
    decide +kernel
  obtain ⟨config, reached, owners⟩ := Option.map_eq_some_iff.mp executed
  obtain ⟨users, ghosts⟩ := Prod.mk.inj owners
  have keys := (genuine 0 _ config (run_of_execute reached)).foreignKeys
  have owner : utf8 "ghost" ∈
      config.scene.world.tables.apiKeys.rows.map fun entry => entry.2.userID := by
    rw [ghosts]
    exact List.mem_singleton_self _
  obtain ⟨entry, member, named⟩ := List.mem_map.mp owner
  have account := (keys entry member).1
  rw [named, Tables.HasUser, users] at account
  exact absurd account (by decide)

end Grunt.Server
