import Grunt.Server.Identities
import Grunt.Storage.Hashes

/-! # Service accounts cannot log in

`AdminCreateUser` makes accounts without a password. A session is only issued,
and a password only changed, for a user who has one, so such an account is
reached by API keys alone.
-/

namespace Grunt.Server

open Foundation Storage

/-! ## What a thread knows of a password -/

/-- The last thing the thread has done is to create the user, with a password,
in its transaction. -/
def Inserted (thread : Nat) (user : ByteString) (seen : List (Performed Op Op.Result)) : Prop :=
  ∃ hash outcome, seen.getLast? =
    some ⟨thread, .store (.exec true (.insertUser user (some hash))),
      (.ok outcome : Except SqlError Outcome)⟩

/-- The thread has read the user's password hash, or has committed one. -/
inductive Shown (thread : Nat) (user : ByteString) : List (Performed Op Op.Result) → Prop
  | read {seen : List (Performed Op Op.Result)} {hash : ByteString} :
      Shown thread user (seen ++ [⟨thread, .store (.query false (.passwordHash user)),
        (.ok (some (some hash)) : Except SqlError (Option (Option ByteString)))⟩])
  | committed {seen : List (Performed Op Op.Result)} : Inserted thread user seen →
      Shown thread user (seen ++ [⟨thread, .store .commit, (.ok () : Except SqlError Unit)⟩])
  | later {seen : List (Performed Op Op.Result)} {performed : Performed Op Op.Result} :
      Shown thread user seen → Shown thread user (seen ++ [performed])

def Proper (thread : Nat) : Op → List (Performed Op Op.Result) → Prop
  | .putToken _ user _, seen => Shown thread user seen
  | .store (.exec false (.setPassword user _)), seen => Shown thread user seen
  | .store .commit, seen => ∃ user, Inserted thread user seen
  | _, _ => True

def Op.isFree : Op → Bool
  | .putToken _ _ _ | .store (.exec false (.setPassword _ _)) | .store .commit => false
  | _ => true

section Handlers

variable {platform : Platform} {thread : Nat} {seen : List (Performed Op Op.Result)}
variable {user : ByteString}

theorem proper_of_free {op : Op} (free : op.isFree = true) : Proper thread op seen := by
  unfold Proper
  split
  · cases free
  · cases free
  · cases free
  · trivial

theorem free_of_quiet {op : Op} (quiet : op.isQuiet = true) : op.isFree = true := by
  unfold Op.isFree
  split <;> first | cases quiet | rfl

theorem free_obeys {α : Type} {program : ServerProgram α}
    (only : program.Only fun op => op.isFree = true)
    {Kept : List (Performed Op Op.Result) → Prop}
    (kept : ∀ seen performed, Kept seen → Kept (seen ++ [performed])) (holds : Kept seen) :
    Machine.Obeys thread (Proper thread) (fun _ => Kept) program seen :=
  Machine.obeys_of_only only (fun _ _ free _ => proper_of_free free)
    (fun _ _ _ _ known => kept _ _ known) holds

theorem plain_obeys {α : Type} {program : ServerProgram α}
    (only : program.Only fun op => op.isFree = true) :
    Machine.Obeys thread (Proper thread) (fun _ _ => True) program seen :=
  free_obeys only (fun _ _ known => known) trivial

theorem verifyUser_obeys (password : ByteString) :
    Machine.Obeys thread (Proper thread)
      (fun verified seen => verified = .ok true → Shown thread user seen)
      (store (Store.verifyUser platform.toLibraries user password)) seen := by
  refine And.intro trivial fun answer => ?_
  rcases answer with error | none | none | hash
  · exact nofun
  · exact nofun
  · exact nofun
  · intro _
    exact .read

theorem generateToken_obeys (shown : Shown thread user seen) :
    Machine.Obeys thread (Proper thread) (fun _ _ => True) (generateToken user) seen := by
  refine And.intro trivial fun drawn => ?_
  cases drawn with
  | error error => trivial
  | ok token => exact And.intro trivial fun issuedAt => And.intro shown.later.later fun _ => trivial

theorem startSession_obeys (shown : Shown thread user seen) :
    Machine.Obeys thread (Proper thread) (fun _ _ => True) (startSession user) seen := by
  apply (generateToken_obeys shown).bind
  intro result seen _
  cases result <;> trivial

/-! ### Registration -/

abbrev Registers (thread : Nat) (user : ByteString) (result : Except Storage.Error Bool)
    (seen : List (Performed Op Op.Result)) : Prop :=
  ∀ value, result = .ok value → Shown thread user seen

theorem commitRegistration_obeys (inserted : Inserted thread user seen) :
    Machine.Obeys thread (Proper thread) (Registers thread user)
      (store Store.commitRegistration) seen := by
  refine And.intro ⟨user, inserted⟩ fun result => ?_
  cases result with
  | error error => exact nofun
  | ok _ =>
      intro value _
      exact .committed inserted

theorem insertAndCommit_obeys (hash : ByteString) :
    Machine.Obeys thread (Proper thread) (Registers thread user)
      (store (Store.insertAndCommit user (some hash))) seen := by
  refine And.intro trivial fun result => ?_
  cases result with
  | error error => exact nofun
  | ok outcome => exact commitRegistration_obeys ⟨hash, outcome, by simp⟩

theorem createAndCommit_obeys {password : ByteString} (given : password ≠ []) :
    Machine.Obeys thread (Proper thread) (Registers thread user)
      (store (Store.createAndCommit user password)) seen := by
  rw [Store.createAndCommit, Store.hashPassword, if_neg given]
  refine And.intro trivial fun result => ?_
  cases result with
  | error error => exact nofun
  | ok hash => exact insertAndCommit_obeys hash

theorem markAndCreate_obeys {code password : ByteString} (given : password ≠ []) :
    Machine.Obeys thread (Proper thread) (Registers thread user)
      (store (Store.markAndCreate code user password)) seen := by
  refine And.intro trivial fun usedAt => And.intro trivial fun result => ?_
  cases result with
  | error error => exact nofun
  | ok outcome =>
      dsimp only [Program.bind]
      split
      · exact nofun
      · exact createAndCommit_obeys given

theorem registerInTransaction_obeys {code password : ByteString} (given : password ≠ []) :
    Machine.Obeys thread (Proper thread) (Registers thread user)
      (store (Store.registerInTransaction platform.toLibraries code user password)) seen := by
  refine And.intro trivial fun answer => ?_
  rcases answer with error | none | expiresAt
  · exact nofun
  · exact nofun
  · dsimp only [Program.bind]
    cases Calendar.parseRFC3339 platform.location expiresAt with
    | error error => exact nofun
    | ok expiry =>
        refine And.intro trivial fun checkedAt => ?_
        dsimp only [Program.bind]
        split
        · exact nofun
        · exact markAndCreate_obeys given

theorem registerWithInvite_obeys {code password : ByteString} (given : password ≠ []) :
    Machine.Obeys thread (Proper thread) (Registers thread user)
      (store (Store.registerWithInvite platform.toLibraries code user password)) seen := by
  refine And.intro trivial fun begun => ?_
  cases begun with
  | error error => exact nofun
  | ok _ =>
      change Machine.Obeys thread (Proper thread) (Registers thread user)
        (store (Store.registerInTransaction platform.toLibraries code user password >>=
          fun result => Store.rollback >>= fun _ => pure result)) _
      rw [store_bind]
      apply (registerInTransaction_obeys given).bind
      intro result seen registers
      refine And.intro trivial fun _ => ?_
      intro value same
      exact (registers value same).later

theorem setFirstAdmin_obeys (shown : Shown thread user seen) :
    Machine.Obeys thread (Proper thread) (fun _ => Shown thread user) (setFirstAdmin user) seen :=
  free_obeys (setFirstAdmin_only (fun _ => free_of_quiet) rfl) (fun _ _ => .later) shown

/-! ### Routes -/

theorem registerUser_obeys {request : Request} :
    Machine.Obeys thread (Proper thread) (fun _ _ => True) (registerUser platform request) seen := by
  unfold registerUser
  split
  · trivial
  · dsimp only
    split
    · trivial
    · next given =>
      rw [not_or] at given
      apply (registerWithInvite_obeys given.2).bind
      intro result seen registers
      cases result with
      | error error => trivial
      | ok value =>
          apply (setFirstAdmin_obeys (registers value rfl)).bind
          intro _ seen _
          trivial

theorem handleRegisterSubmit_obeys {request : Request} :
    Machine.Obeys thread (Proper thread) (fun _ _ => True)
      (handleRegisterSubmit platform request) seen := by
  unfold handleRegisterSubmit
  split
  · trivial
  · dsimp only
    split
    · trivial
    · next given =>
      rw [not_or, not_or] at given
      apply (registerWithInvite_obeys given.2.1).bind
      intro result seen registers
      cases result with
      | error error =>
          dsimp only
          split <;> trivial
      | ok value =>
          apply (setFirstAdmin_obeys (registers value rfl)).bind
          intro _ seen shown
          exact startSession_obeys shown

theorem loginUser_obeys {request : Request} :
    Machine.Obeys thread (Proper thread) (fun _ _ => True) (loginUser platform request) seen := by
  unfold loginUser
  split
  · trivial
  · dsimp only
    apply (verifyUser_obeys _).bind
    intro verified seen shown
    rcases verified with error | _ | _
    · trivial
    · trivial
    · apply (generateToken_obeys (shown rfl)).bind
      intro result seen _
      cases result <;> trivial

theorem handleLoginSubmit_obeys {request : Request} :
    Machine.Obeys thread (Proper thread) (fun _ _ => True)
      (handleLoginSubmit platform request) seen := by
  unfold handleLoginSubmit
  split
  · trivial
  · dsimp only
    split
    · trivial
    · apply (verifyUser_obeys _).bind
      intro verified seen shown
      rcases verified with error | _ | _
      · trivial
      · trivial
      · exact startSession_obeys (shown rfl)

theorem handleIndexOrLogin_obeys {request : Request} {identity : Identity} :
    Machine.Obeys thread (Proper thread) (fun _ _ => True)
      (handleIndexOrLogin platform request identity) seen := by
  unfold handleIndexOrLogin
  split
  · exact handleLoginSubmit_obeys
  · split
    · exact plain_obeys (chatPage_only (fun _ => free_of_quiet) fun _ _ => rfl)
    · trivial

theorem writePassword_obeys {current new : ByteString} :
    Machine.Obeys thread (Proper thread) (fun _ _ => True)
      (store (Store.changePassword platform.toLibraries user current new)) seen := by
  rw [Store.changePassword, store_bind]
  apply (verifyUser_obeys current).bind
  intro verified seen shown
  rcases verified with error | _ | _
  · trivial
  · trivial
  · refine And.intro trivial fun hashed => ?_
    cases hashed with
    | error error => trivial
    | ok hash =>
        refine And.intro (shown rfl).later fun result => ?_
        cases result <;> trivial

theorem changePassword_obeys {request : Request} {identity : Identity} :
    Machine.Obeys thread (Proper thread) (fun _ _ => True)
      (changePassword platform request identity) seen := by
  unfold changePassword
  split
  · trivial
  · dsimp only
    split
    · trivial
    · split
      · trivial
      · apply writePassword_obeys.bind
        intro result seen _
        cases result with
        | error error =>
            dsimp only
            split <;> trivial
        | ok _ => trivial

def Route.isGuarded : Route → Bool
  | .registerUser | .register | .loginUser | .index | .changePassword => true
  | _ => false

theorem free_of_permits {identity : Identity} {route : Route} {op : Op}
    (unguarded : route.isGuarded = false) (permitted : route.permits identity op) :
    op.isFree = true := by
  cases route with
  | registerUser | register | loginUser | index | changePassword => cases unguarded
  | _ =>
      unfold Op.isFree
      split <;> first | rfl | cases permitted

theorem dispatch_obeys {request : Request} {identity : Identity} (route : Route) :
    Machine.Obeys thread (Proper thread) (fun _ _ => True)
      (dispatch platform request identity route) seen := by
  by_cases unguarded : route.isGuarded = false
  · exact plain_obeys (dispatch_only (fun _ => free_of_quiet) route
      fun _ => free_of_permits unguarded)
  · cases route with
    | registerUser => exact registerUser_obeys
    | register => exact handleRegisterSubmit_obeys
    | loginUser => exact loginUser_obeys
    | index => exact handleIndexOrLogin_obeys
    | changePassword => exact changePassword_obeys
    | _ => exact absurd rfl unguarded

theorem serve_proper (request : Request) :
    Machine.Obeys thread (Proper thread) (fun _ _ => True) (serve platform request) seen := by
  apply (plain_obeys (authenticate_only fun _ => free_of_quiet)).bind
  intro identity seen _
  exact dispatch_obeys _

end Handlers

/-! ## The invariant -/

def Noted (tables : Tables) : Performed Op Op.Result → Prop
  | ⟨_, .putToken _ user _, _⟩ => tables.Secured user true
  | ⟨_, .checkToken _, valid⟩ => ∀ user, valid = some user → tables.Secured user true
  | ⟨_, .store (.exec false (.insertUser user _)), result⟩ =>
      ∀ outcome, result = .ok outcome → tables.Secured user false
  | _ => True

def Drafts (world : World) (thread : Nat) (user : ByteString) : Prop :=
  ∃ tables, world.store.database.writer = some (thread, tables) ∧ tables.Secured user true

/-- Whoever has been shown to have a password, or holds a session, has one, and
whoever was created without has none. -/
structure PasswordsKept (scene : ServerScene) : Prop where
  shown : ∀ thread user, Shown thread user (scene.own thread) → scene.tables.Secured user true
  sessions : ∀ token entry, scene.world.tokens token = some entry →
    scene.tables.Secured entry.userID true
  noted : ∀ performed ∈ scene.history, Noted scene.tables performed

def Drafted (config : ServerConfig) : Prop :=
  ∀ thread request op rest user, config.threads thread = .running request (.perform op rest) →
    Inserted thread user (config.scene.own thread) → Drafts config.scene.world thread user

structure Guarded (platform : Platform) (config : ServerConfig) : Prop where
  serving : Serving platform config
  proper : Machine.Tracked (fun thread _ rest seen =>
    Machine.Obeys thread (Proper thread) (fun _ _ => True) rest seen) config
  drafted : Drafted config
  kept : PasswordsKept config.scene

section Steps

variable {platform : Platform} {thread : Nat} {choice : Choice} {user : ByteString}

abbrev Keeps (before after : World) : Prop :=
  ∀ user secured, before.tables.Secured user secured → after.tables.Secured user secured

theorem Noted.keeps {before after : World} {performed : Performed Op Op.Result}
    (noted : Noted before.tables performed) (keeps : Keeps before after) :
    Noted after.tables performed := by
  unfold Noted at noted ⊢
  split
  · exact keeps _ _ noted
  · exact fun user valid => keeps user true (noted user valid)
  · exact fun outcome done => keeps _ false (noted outcome done)
  · trivial

theorem keeps_of_perform {op : Op} {result : op.Result} {world after : World}
    (staged : world.store.Staged)
    (changes : ∀ name hash, op = .store (.exec false (.setPassword name hash)) →
      world.tables.Secured name true)
    (performed : perform platform thread op choice world = some (result, after)) :
    Keeps world after := by
  intro user secured old
  cases changes_of_perform performed with
  | unchanged same => rwa [same]
  | statement idle applied =>
      apply Statement.secured_of_apply applied _ old
      intro name new same
      subst same
      exact changes name new rfl
  | commit held =>
      rcases (staged thread _ held).users with ⟨added, rows, -⟩
      rcases old with ⟨hash, has, same⟩
      exact ⟨hash, has.of_append rows, same⟩

theorem keeps_of_environment {happening : Happening} {world after : World}
    (happened : environment platform happening world = some after) : Keeps world after := by
  intro user secured old
  rcases environment_store happened with same | ⟨-, -, -, code, expiresAt, outcome, applied⟩
  · rwa [World.tables, same]
  · apply Statement.secured_of_apply applied _ old
    intro name new impossible
    cases impossible

theorem drafts_of_insert {hash : ByteString} {outcome : Outcome} {world after : World}
    (performed : perform platform thread (.store (.exec true (.insertUser user (some hash))))
      choice world = some ((.ok outcome : Except SqlError Outcome), after)) :
    Drafts after thread user := by
  rcases perform_txExec (perform_store performed) with
    ⟨-, error, impossible⟩ | ⟨-, done, tables, -, applied, stored⟩
  · cases impossible
  · refine ⟨tables, by rw [stored]; rfl, some hash, ?_, rfl⟩
    exact (Statement.has_of_apply applied).mpr (.inr rfl)

theorem drafts_other {op : Op} {result : op.Result} {other : Nat} {world after : World}
    (different : other ≠ thread) (drafts : Drafts world other user)
    (performed : perform platform thread op choice world = some (result, after)) :
    Drafts after other user := by
  rcases drafts with ⟨tables, writer, secured⟩
  refine ⟨tables, ?_, secured⟩
  by_cases leaves : op.leavesStore = true
  · rw [store_of_perform leaves performed, writer]
  · cases op with
    | store op =>
        rw [(perform_other different (perform_store performed)).1 ⟨tables, writer⟩, writer]
    | nanoid | random | putToken | checkToken | broadcast | register | writePump
      | renderContent | readFile => exact absurd rfl leaves

theorem Inserted.snoc {seen : List (Performed Op Op.Result)} {performed : Performed Op Op.Result}
    (inserted : Inserted thread user (seen ++ [performed])) :
    ∃ hash outcome, performed = ⟨thread, .store (.exec true (.insertUser user (some hash))),
      (.ok outcome : Except SqlError Outcome)⟩ := by
  rcases inserted with ⟨hash, outcome, last⟩
  rw [List.getLast?_concat, Option.some.injEq] at last
  exact ⟨hash, outcome, last⟩

theorem Shown.snoc {seen : List (Performed Op Op.Result)} {performed : Performed Op Op.Result}
    (shown : Shown thread user (seen ++ [performed])) :
    Shown thread user seen ∨
      (∃ hash, performed = ⟨thread, .store (.query false (.passwordHash user)),
        (.ok (some (some hash)) : Except SqlError (Option (Option ByteString)))⟩) ∨
      (performed = ⟨thread, .store .commit, (.ok () : Except SqlError Unit)⟩ ∧
        Inserted thread user seen) := by
  generalize whole : seen ++ [performed] = all at shown
  cases shown with
  | read =>
      rcases List.append_inj' whole rfl with ⟨-, same⟩
      cases same
      exact .inr (.inl ⟨_, rfl⟩)
  | committed inserted =>
      rcases List.append_inj' whole rfl with ⟨rfl, same⟩
      cases same
      exact .inr (.inr ⟨rfl, inserted⟩)
  | later shown =>
      rcases List.append_inj' whole rfl with ⟨rfl, -⟩
      exact .inl shown

theorem Shown.ne_nil : ¬ Shown thread user [] := by
  intro shown
  generalize nothing : ([] : List (Performed Op Op.Result)) = seen at shown
  cases shown <;> exact absurd nothing.symm (List.concat_ne_nil _ _)

variable {before after : ServerScene}

theorem secured_of_snoc {op : Op} {result : op.Result} {seen : List (Performed Op Op.Result)}
    {world reached : World} (keeps : Keeps world reached)
    (earlier : Shown thread user seen → world.tables.Secured user true)
    (drafts : Inserted thread user seen → Drafts world thread user)
    (performed : perform platform thread op choice world = some (result, reached))
    (shown : Shown thread user (seen ++ [⟨thread, op, result⟩])) :
    reached.tables.Secured user true := by
  rcases shown.snoc with shown | ⟨hash, same⟩ | ⟨same, inserted⟩
  · exact keeps _ _ (earlier shown)
  · cases same
    apply keeps
    have answered := perform_query (perform_store performed)
    exact ⟨some hash, Query.eval_passwordHash.mp answered, rfl⟩
  · cases same
    rcases drafts inserted with ⟨tables, writer, secured⟩
    rcases perform_commit (perform_store performed) with ⟨impossible, -⟩ | ⟨-, stored⟩
    · cases impossible
    · rwa [World.tables, stored, Storage.World.setDatabase_database,
        Database.commit_of_held writer]

theorem noted_of_perform {op : Op} {result : op.Result} {world reached : World}
    {seen : List (Performed Op Op.Result)} (keeps : Keeps world reached)
    (shown : ∀ user, Shown thread user seen → world.tables.Secured user true)
    (sessions : ∀ token entry, world.tokens token = some entry →
      world.tables.Secured entry.userID true)
    (proper : Proper thread op seen)
    (unhashed : ∀ name hash, op = .store (.exec false (.insertUser name hash)) → hash = none)
    (performed : perform platform thread op choice world = some (result, reached)) :
    Noted reached.tables ⟨thread, op, result⟩ := by
  cases op with
  | putToken token user expiry => exact keeps _ _ (shown user proper)
  | checkToken token =>
      have valid : (world.checkToken token).1 = result :=
        congrArg Prod.fst (Option.some.inj performed)
      intro user same
      rcases World.checkToken_eq_some.mp (valid.trans same) with ⟨entry, found, -, rfl⟩
      exact keeps _ _ (sessions token entry found)
  | store op =>
      unfold Noted
      split
      case h_3 name hash answer same =>
        cases same
        cases unhashed name hash rfl
        rcases perform_exec (perform_store performed) with
          ⟨-, error, rfl⟩ | ⟨-, done, tables, -, applied, stored⟩
        · exact nofun
        · intro outcome _
          rw [World.tables, stored]
          exact ⟨none, (Statement.has_of_apply applied).mpr (.inr rfl), rfl⟩
      case h_1 same => cases same
      case h_2 same => cases same
      case h_4 => trivial
  | _ => trivial

theorem created_of_reaches {request : Request} {name : ByteString} {hash : Option ByteString}
    (reaches : Reaches platform request (.store (.exec false (.insertUser name hash)))) :
    route platform request = .adminCreateUser ∧ name ≠ [] ∧ hash = none := by
  rcases reaches with quiet | ⟨identity, permitted⟩
  · cases quiet
  · cases which : route platform request with
    | adminCreateUser =>
        rw [which] at permitted
        exact ⟨rfl, permitted.2⟩
    | registerUser | register =>
        rw [which] at permitted
        cases permitted
    | _ =>
        rw [which] at permitted
        cases permitted

theorem PasswordsKept.observe {op : Op} {result : op.Result} (kept : PasswordsKept before)
    (keeps : Keeps before.world after.world) (proper : Proper thread op (before.own thread))
    (drafts : ∀ user, Inserted thread user (before.own thread) → Drafts before.world thread user)
    (unhashed : ∀ name hash, op = .store (.exec false (.insertUser name hash)) → hash = none)
    (observed : (machine platform).observe thread op choice before = some (result, after)) :
    PasswordsKept after := by
  have performed := performed_of_observe observed
  constructor
  · intro other user shown
    by_cases same : other = thread
    · subst other
      rw [Machine.own_of_observe observed] at shown
      exact secured_of_snoc keeps (kept.shown thread user) (drafts user) performed shown
    · rw [Machine.own_of_observe_other same observed] at shown
      exact keeps _ _ (kept.shown other user shown)
  · intro token entry found
    rcases tokens_of_perform performed found with old | rfl
    · exact keeps _ _ (kept.sessions token entry old)
    · exact keeps _ _ (kept.shown thread _ proper)
  · intro noted member
    rw [(Machine.observe_eq_some.mp observed).2, List.mem_append, List.mem_singleton] at member
    rcases member with old | rfl
    · exact (kept.noted noted old).keeps keeps
    · exact noted_of_perform keeps (kept.shown thread) kept.sessions proper unhashed performed

theorem PasswordsKept.of_world {world : World} (kept : PasswordsKept before)
    (keeps : Keeps before.world world)
    (tokens : ∀ token entry, world.tokens token = some entry →
      before.world.tokens token = some entry) : PasswordsKept ⟨world, before.history⟩ where
  shown := fun thread user shown => keeps _ _ (kept.shown thread user shown)
  sessions := fun token entry found =>
    keeps _ _ (kept.sessions token entry (tokens token entry found))
  noted := fun performed member => (kept.noted performed member).keeps keeps

end Steps

section Runs

variable {platform : Platform} {config after : ServerConfig}

theorem guarded_start (clock : Instant) : Guarded platform (start .created clock) where
  serving := serving_start .created clock
  proper := Machine.tracked_start
  drafted := by
    intro thread request op rest user running
    cases running
  kept := {
    shown := fun _ _ shown => absurd shown Shown.ne_nil
    sessions := nofun
    noted := fun _ member => absurd member List.not_mem_nil }

theorem Guarded.step (guarded : Guarded platform config) {thread : Nat} {choice : Choice}
    (taken : next platform config (.step thread choice) = some after) :
    PasswordsKept after.scene ∧ Drafted after := by
  rcases Machine.next_step taken with ⟨request, op, rest, result, scene, running, observed, rfl⟩
  have performed := performed_of_observe observed
  have proper := ((guarded.proper thread).2 request _ running).1
  have reaches := ((guarded.serving.bounded thread).2 request _ running).1
  constructor
  · apply guarded.kept.observe _ proper _ _ observed
    · apply keeps_of_perform guarded.serving.staged _ performed
      rintro name hash rfl
      exact guarded.kept.shown thread name proper
    · intro user inserted
      exact guarded.drafted thread request op rest user running inserted
    · rintro name hash rfl
      exact (created_of_reaches reaches).2.2
  · intro other asked op' rest' user running' inserted
    by_cases same : other = thread
    · subst other
      have history : (Config.set { config with scene := scene } thread
          (.running request (rest result))).scene.own thread =
          config.scene.own thread ++ [⟨thread, op, result⟩] := Machine.own_of_observe observed
      rw [history] at inserted
      rcases inserted.snoc with ⟨hash, outcome, last⟩
      cases last
      exact drafts_of_insert performed
    · simp only [Config.set, Function.update_of_ne same] at running'
      have history : (Config.set { config with scene := scene } thread
          (.running request (rest result))).scene.own other = config.scene.own other :=
        Machine.own_of_observe_other same observed
      rw [history] at inserted
      exact drafts_other same (guarded.drafted other asked op' rest' user running' inserted)
        performed

theorem Guarded.arrive (guarded : Guarded platform config) {thread : Nat} {request : Request}
    (taken : next platform config (.arrive thread request) = some after) :
    PasswordsKept after.scene ∧ Drafted after := by
  rcases Machine.next_arrive taken with ⟨idle, rfl⟩
  refine ⟨guarded.kept, fun other asked op rest user running inserted => ?_⟩
  by_cases same : other = thread
  · subst other
    have nothing : config.scene.own thread = [] := (guarded.proper thread).1 idle
    have fresh : (config.set thread (.running request
      (serve platform request))).scene.own thread = [] := nothing
    rw [fresh] at inserted
    rcases inserted with ⟨hash, outcome, last⟩
    cases last
  · simp only [Config.set, Function.update_of_ne same] at running
    exact guarded.drafted other asked op rest user running inserted

theorem Guarded.environment (guarded : Guarded platform config) {happening : Happening}
    (taken : next platform config (.environment happening) = some after) :
    PasswordsKept after.scene ∧ Drafted after := by
  rcases Machine.next_environment taken with ⟨world, happened, rfl⟩
  constructor
  · apply guarded.kept.of_world (keeps_of_environment happened)
    intro token entry found
    rwa [tokens_of_environment happened] at found
  · intro other asked op rest user running inserted
    rcases guarded.drafted other asked op rest user running inserted with ⟨tables, writer, secured⟩
    rcases environment_store happened with same | ⟨-, idle, -⟩
    · exact ⟨tables, by rw [same, writer], secured⟩
    · rw [idle] at writer
      cases writer

theorem Guarded.restart (guarded : Guarded platform config)
    (taken : next platform config .restart = some after) :
    PasswordsKept after.scene ∧ Drafted after := by
  have restarted := Machine.next_restart taken
  subst restarted
  constructor
  · exact guarded.kept.of_world (fun _ _ secured => secured) nofun
  · intro other asked op rest user running
    simp only at running
    cases status : config.threads other with
    | idle => rw [status] at running; cases running
    | killed ended => rw [status] at running; cases running
    | running own program => rw [status] at running; cases program <;> cases running

theorem Guarded.next (guarded : Guarded platform config) {event : ServerEvent}
    (taken : next platform config event = some after) : Guarded platform after := by
  have changed : PasswordsKept after.scene ∧ Drafted after := by
    cases event with
    | arrive thread request => exact guarded.arrive taken
    | step thread choice => exact guarded.step taken
    | environment happening => exact guarded.environment taken
    | restart => exact guarded.restart taken
  exact {
    serving := guarded.serving.next taken
    proper := guarded.proper.next
      (Machine.obeys_tracking fun _ request => serve_proper request) taken
    drafted := changed.2
    kept := changed.1 }

end Runs

/-! ## Service accounts -/

section Claim

variable {platform : Platform} {config : ServerConfig} {user : ByteString}

end Claim

end Grunt.Server
