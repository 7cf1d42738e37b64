import Grunt.Server.PageRows
import Grunt.Server.ServiceAccounts
import Grunt.Server.Steady
import Grunt.Storage.Names

/-! # Every name has a first letter

The pages and the hub take the first character of a name without a check. No
request writes an empty name, so none is read: not as the user of a session or
the owner of a key, not as the author of a message on a page or on the channel.
-/

namespace Grunt.Server

open Foundation Storage

/-! ## What a request writes -/

def Op.names : Op → List ByteString
  | .store (.exec _ statement) => statement.names
  | _ => []

def Op.Named (op : Op) : Prop := [] ∉ op.names

section Writes

variable {platform : Platform} {request : Request}

theorem named_of_quiet {op : Op} (quiet : op.isQuiet = true) : op.Named := by
  unfold Op.Named Op.names
  split
  · cases quiet
  · exact List.not_mem_nil

theorem named_of_names {op : Op} (none : op.names = []) : op.Named := by
  rw [Op.Named, none]
  exact List.not_mem_nil

theorem named_of_permits {identity : Identity} {route : Route} {op : Op}
    (unregistering : route ≠ .registerUser ∧ route ≠ .register)
    (permitted : route.permits identity op) : op.Named := by
  intro member
  unfold Route.permits at permitted
  split at permitted
  case h_1 => exact unregistering.1 rfl
  case h_2 => exact unregistering.2 rfl
  case h_10 row =>
    exact permitted.1 (permitted.2.symm.trans (List.mem_singleton.mp member).symm)
  case h_13 user hash => exact permitted.2.1 (List.mem_singleton.mp member).symm
  case h_14 user adminUser keyHash given =>
    exact permitted.2.1 (List.mem_singleton.mp member).symm
  case h_17 => exact permitted
  all_goals cases member

theorem registerWithInvite_named {code user password : ByteString} (given : user ≠ []) :
    (store (Store.registerWithInvite platform.toLibraries code user password)).Only Op.Named := by
  apply store_only
  apply Store.registerWithInvite_only
  · exact fun op read => named_of_quiet (show (Op.store op).isQuiet = true from read)
  · exact fun _ => named_of_names rfl
  · intro hash member
    exact given (List.mem_singleton.mp member).symm
  · exact named_of_names rfl
  · exact named_of_names rfl

theorem setFirstAdmin_named (user : ByteString) : (setFirstAdmin user).Only Op.Named :=
  setFirstAdmin_only (fun _ => named_of_quiet) (named_of_names rfl)

theorem registerUser_named : (registerUser platform request).Only Op.Named := by
  unfold registerUser
  split
  · trivial
  · dsimp only
    split
    · trivial
    · next given =>
      rw [not_or] at given
      refine (registerWithInvite_named given.1).bind fun result => ?_
      cases result with
      | error error => trivial
      | ok _ => exact (setFirstAdmin_named _).bind fun _ => trivial

theorem handleRegisterSubmit_named : (handleRegisterSubmit platform request).Only Op.Named := by
  unfold handleRegisterSubmit
  split
  · trivial
  · dsimp only
    split
    · trivial
    · next given =>
      rw [not_or] at given
      refine (registerWithInvite_named given.1).bind fun result => ?_
      cases result with
      | error error =>
          dsimp only
          split <;> trivial
      | ok _ =>
          refine (setFirstAdmin_named _).bind fun _ => ?_
          exact startSession_only (fun _ => named_of_quiet) fun _ _ => named_of_names rfl

theorem serve_named (platform : Platform) (request : Request) :
    (serve platform request).Only Op.Named := by
  refine (authenticate_only fun _ => named_of_quiet).bind fun identity => ?_
  by_cases registering : route platform request ≠ .registerUser ∧
      route platform request ≠ .register
  · exact dispatch_only (fun _ => named_of_quiet) _ fun op => named_of_permits registering
  · rw [not_and_or, not_not, not_not] at registering
    rcases registering with which | which
    · rw [which]
      exact registerUser_named
    · rw [which]
      exact handleRegisterSubmit_named

end Writes

/-! ## What a page needs -/

def shownNames : Performed Op Op.Result → List ByteString
  | ⟨_, .store (.query _ asked), .ok answer⟩ => asked.names answer
  | _ => []

def MeetsNameless (platform : Platform) (thread : Nat)
    (seen : List (Performed Op Op.Result)) : Prop :=
  (∃ token, Vouched platform thread token [] seen) ∨ ∃ performed ∈ seen, [] ∈ shownNames performed

def Route.isPage (route : Route) : Prop := route = .index ∨ route = .settings

section Pages

variable {platform : Platform} {thread : Nat} {seen : List (Performed Op Op.Result)}
variable {request : Request} {identity : Identity}

theorem MeetsNameless.snoc (meets : MeetsNameless platform thread seen)
    (performed : Performed Op Op.Result) : MeetsNameless platform thread (seen ++ [performed]) := by
  rcases meets with ⟨token, vouched⟩ | ⟨earlier, member, nameless⟩
  · exact .inl ⟨token, vouched.snoc performed⟩
  · exact .inr ⟨earlier, List.mem_append_left _ member, nameless⟩

abbrev Panics (platform : Platform) (thread : Nat) (response : Response)
    (seen : List (Performed Op Op.Result)) : Prop :=
  response = .aborted → MeetsNameless platform thread seen

theorem meets_sends {α : Type} (meets : MeetsNameless platform thread seen)
    (program : ServerProgram α) :
    Sends thread (fun _ => MeetsNameless platform thread) program seen :=
  Machine.obeys_of_only program.only_true (fun _ _ _ _ => trivial)
    (fun _ _ _ _ meets => meets.snoc _) meets

theorem authenticate_sends :
    Sends thread (fun identity seen => identity.authenticated = true → identity.userID = [] →
      MeetsNameless platform thread seen) (authenticate platform request) seen := by
  apply (authenticate_obeys request).mono
  intro identity seen known authenticated nameless
  rcases known with rfl | vouched
  · cases authenticated
  · exact .inl ⟨extractToken request, nameless ▸ vouched⟩

theorem sync_shows (since limit : Int) :
    Sends thread (fun result seen => ∀ rows, result = .ok rows →
        (∃ row ∈ rows, row.2.user = []) → MeetsNameless platform thread seen)
      (store (Store.sync since limit)) seen := by
  have shown : ∀ asked : Query, ∀ answer : asked.Answer, [] ∈ asked.names answer →
      MeetsNameless platform thread (seen ++ [⟨thread, .store (.query false asked),
        (.ok answer : Except SqlError asked.Answer)⟩]) :=
    fun asked answer member => .inr ⟨_, List.mem_append_right _ (List.mem_singleton_self _), member⟩
  unfold Store.sync
  split
  · refine And.intro trivial fun answer => ?_
    cases answer with
    | error error => exact nofun
    | ok answer =>
        rintro rows ⟨⟩ ⟨row, member, nameless⟩
        exact shown (.lastMessages _ _) answer (List.mem_map.mpr ⟨row, member, nameless⟩)
  · refine And.intro trivial fun answer => ?_
    cases answer with
    | error error => exact nofun
    | ok answer =>
        rintro rows ⟨⟩ ⟨row, member, nameless⟩
        exact shown (.messagesSince _) answer (List.mem_map.mpr ⟨row, member, nameless⟩)

theorem profileData_ne_none {userID url : ByteString} {hasAvatar : Bool} (named : userID ≠ []) :
    profileData userID url hasAvatar ≠ none := by
  intro none
  rw [profileData, Option.map_eq_none_iff, initialOf, Option.map_eq_none_iff,
    Bytes.firstRune_eq_none] at none
  exact named none

theorem chatPage_panics {userID : ByteString}
    (known : userID = [] → MeetsNameless platform thread seen) :
    Sends thread (Panics platform thread) (chatPage platform userID) seen := by
  by_cases meets : MeetsNameless platform thread seen
  · exact (meets_sends meets _).mono fun _ _ meets _ => meets
  have named : userID ≠ [] := fun nameless => meets (known nameless)
  unfold chatPage
  apply (sync_shows 0 50).bind
  intro result seen shown
  cases result with
  | error error => exact nofun
  | ok messages =>
      dsimp only
      rw [if_neg named]
      by_cases nameless : ∃ row ∈ messages, row.2.user = []
      · exact (meets_sends (shown messages rfl nameless) _).mono fun _ _ meets _ => meets
      · refine (sends_of_all (fun _ _ => trivial) _).bind fun hasAvatar seen _ => ?_
        have rows : Sends thread (fun _ _ => True)
            (chatRows platform none (messages.map syncedMessage)) seen :=
          sends_of_all (fun _ _ => trivial) _
        refine rows.and_returns.bind fun rows seen returned => ?_
        cases rows with
        | none =>
            rcases chatRows_none returned.2 with ⟨message, member, empty⟩
            rcases List.mem_map.mp member with ⟨row, stored, rfl⟩
            exact absurd ⟨row, stored, empty⟩ nameless
        | some rows =>
            dsimp only
            split
            case h_1 none => exact absurd none (profileData_ne_none named)
            case h_2 => exact nofun

theorem startSession_panics {user : ByteString} :
    Sends thread (Panics platform thread) (startSession user) seen := by
  refine (sends_of_all (fun _ _ => trivial) _).bind fun result seen _ => ?_
  cases result with
  | error error => exact nofun
  | ok token => exact nofun

theorem handleLoginSubmit_panics :
    Sends thread (Panics platform thread) (handleLoginSubmit platform request) seen := by
  unfold handleLoginSubmit
  split
  · exact nofun
  · dsimp only
    split
    · exact nofun
    · refine (sends_of_all (fun _ _ => trivial) _).bind fun result seen _ => ?_
      split
      · exact nofun
      · exact nofun
      · exact startSession_panics

theorem settingsFor_panics {profile : AvatarData} {isAdmin : Bool} :
    Sends thread (Panics platform thread) (settingsFor platform profile isAdmin) seen := by
  unfold settingsFor
  split
  · refine (sends_of_all (fun _ _ => trivial) _).bind fun users seen _ => ?_
    cases users with
    | error error => exact nofun
    | ok users =>
        refine (sends_of_all (fun _ _ => trivial) _).bind fun keys seen _ => ?_
        cases keys with
        | error error => exact nofun
        | ok keys => exact nofun
  · exact nofun

theorem handleSettings_panics
    (known : identity.authenticated = true → identity.userID = [] →
      MeetsNameless platform thread seen) :
    Sends thread (Panics platform thread) (handleSettings platform identity) seen := by
  unfold handleSettings
  split
  · exact nofun
  · next authenticated =>
    split
    · next nameless => exact fun _ => known (by simpa using authenticated) nameless
    · next named =>
      refine (sends_of_all (fun _ _ => trivial) _).bind fun hasAvatar seen _ => ?_
      split
      case h_1 none => exact absurd none (profileData_ne_none named)
      case h_2 => exact settingsFor_panics

theorem handleIndexOrLogin_panics
    (known : identity.authenticated = true → identity.userID = [] →
      MeetsNameless platform thread seen) :
    Sends thread (Panics platform thread) (handleIndexOrLogin platform request identity) seen := by
  unfold handleIndexOrLogin
  split
  · exact handleLoginSubmit_panics
  · split
    · next authenticated => exact chatPage_panics (known authenticated)
    · exact nofun

theorem serve_panics (platform : Platform) (thread : Nat) (request : Request) :
    Sends thread (fun response seen => (route platform request).isPage →
      Panics platform thread response seen) (serve platform request) [] := by
  refine authenticate_sends.bind fun identity seen known => ?_
  by_cases page : (route platform request).isPage
  · refine Machine.Obeys.mono ?_ fun _ _ panics _ => panics
    rcases page with index | settings
    · rw [index]
      exact handleIndexOrLogin_panics known
    · rw [settings]
      exact handleSettings_panics known
  · exact sends_of_all (fun _ _ other => absurd other page) _

end Pages

/-! ## Every run -/

/-- No empty name is in the tables, no request has been told of one, and none is
about to write one. -/
structure Nameful (platform : Platform) (config : ServerConfig) : Prop where
  guarded : Guarded platform config
  bounded : Machine.Bounded (fun (_ : Request) op => Op.Named op) config
  pages : Machine.Tracked (fun thread request rest seen =>
    Sends thread (fun response seen => (route platform request).isPage →
      Panics platform thread response seen) rest seen) config
  tables : config.scene.world.store.database.All fun tables => [] ∉ tables.names
  shown : ∀ performed ∈ config.scene.history, [] ∉ shownNames performed

section Runs

variable {platform : Platform} {config after : ServerConfig}

theorem named_of_perform {thread : Nat} {op : Op} {choice : Choice} {result : op.Result}
    {world reached : World} (named : op.Named)
    (tables : world.store.database.All fun tables => [] ∉ tables.names)
    (performed : perform platform thread op choice world = some (result, reached)) :
    reached.store.database.All fun tables => [] ∉ tables.names := by
  cases op with
  | store op =>
      apply all_of_perform tables _ (perform_store performed)
      rintro inTx statement now before outcome written rfl held applied member
      exact (Statement.mem_names_of_apply applied member).elim held named
  | nanoid | random | putToken | checkToken | broadcast | register | writePump | renderContent
  | readFile =>
      rw [store_of_perform rfl performed]
      exact tables

theorem shown_of_perform {thread : Nat} {op : Op} {choice : Choice} {result : op.Result}
    {world reached : World} (tables : world.store.database.All fun tables => [] ∉ tables.names)
    (performed : perform platform thread op choice world = some (result, reached)) :
    [] ∉ shownNames ⟨thread, op, result⟩ := by
  cases op with
  | store op =>
      cases op with
      | query inTx asked =>
          cases result with
          | error error => exact List.not_mem_nil
          | ok answer =>
              have answered := perform_query (perform_store performed)
              subst answered
              exact fun member =>
                World.holds_view tables thread inTx (Query.mem_names_of_eval member)
      | begin | exec | commit | rollback | now | bcrypt => exact List.not_mem_nil
  | nanoid | random | putToken | checkToken | broadcast | register | writePump | renderContent
  | readFile => exact List.not_mem_nil

theorem nameful_start (clock : Instant) : Nameful platform (start .created clock) where
  guarded := guarded_start clock
  bounded := Machine.tracked_start
  pages := Machine.tracked_start
  tables := ⟨List.not_mem_nil, nofun⟩
  shown := fun _ member => absurd member List.not_mem_nil

theorem Nameful.step (nameful : Nameful platform config) {thread : Nat} {choice : Choice}
    (taken : next platform config (.step thread choice) = some after) :
    (after.scene.world.store.database.All fun tables => [] ∉ tables.names) ∧
      ∀ performed ∈ after.scene.history, [] ∉ shownNames performed := by
  rcases Machine.next_step taken with ⟨request, op, rest, result, scene, running, observed, rfl⟩
  have performed := performed_of_observe observed
  have named : op.Named := ((nameful.bounded thread).2 request _ running).1
  refine ⟨named_of_perform named nameful.tables performed, ?_⟩
  intro earlier member
  rw [Config.set, (Machine.observe_eq_some.mp observed).2, List.mem_append] at member
  rcases member with old | new
  · exact nameful.shown earlier old
  · rw [List.mem_singleton.mp new]
    exact shown_of_perform nameful.tables performed

theorem Nameful.environment (nameful : Nameful platform config) {happening : Happening}
    {world : World} (happened : environment platform happening config.scene.world = some world) :
    world.store.database.All fun tables => [] ∉ tables.names := by
  rcases environment_store happened with same | ⟨idle, -, -, code, expiresAt, outcome, applied⟩
  · rw [same]
    exact nameful.tables
  · refine ⟨fun member => ?_, fun owner tables held => ?_⟩
    · exact (Statement.mem_names_of_apply applied member).elim nameful.tables.1 List.not_mem_nil
    · rw [idle] at held
      cases held

theorem Nameful.next (nameful : Nameful platform config) {event : ServerEvent}
    (taken : next platform config event = some after) : Nameful platform after := by
  have changed : (after.scene.world.store.database.All fun tables => [] ∉ tables.names) ∧
      ∀ performed ∈ after.scene.history, [] ∉ shownNames performed := by
    cases event with
    | arrive thread request =>
        rcases Machine.next_arrive taken with ⟨-, rfl⟩
        exact ⟨nameful.tables, nameful.shown⟩
    | step thread choice => exact nameful.step taken
    | environment happening =>
        rcases Machine.next_environment taken with ⟨world, happened, rfl⟩
        exact ⟨nameful.environment happened, nameful.shown⟩
    | restart =>
        rw [Machine.next_restart taken]
        exact ⟨nameful.tables.recover, nameful.shown⟩
  exact {
    guarded := nameful.guarded.next taken
    bounded := Machine.Tracked.next nameful.bounded
      (Machine.bounded_tracking (serve_named platform)) taken
    pages := nameful.pages.next
      (Machine.obeys_tracking fun thread request => serve_panics platform thread request) taken
    tables := changed.1
    shown := changed.2 }

theorem nameful_of_run {allowed} {clock : Instant} {events : List ServerEvent}
    (run : Run (Server.next platform) allowed (Server.start .created clock) events config) :
    Nameful platform config :=
  run.invariant (Nameful platform) (fun _ _ _ nameful _ taken => nameful.next taken)
    (nameful_start clock)

theorem Nameful.ne_nil_of_secured (nameful : Nameful platform config) {user : ByteString}
    (secured : config.scene.world.tables.Secured user true) : user ≠ [] := by
  rintro rfl
  rcases secured with ⟨hash, has, -⟩
  exact nameful.tables.1 (Tables.mem_names.mpr (.inl has.hasUser))

theorem Nameful.ne_nil_of_vouched (nameful : Nameful platform config) {thread : Nat}
    {token user : ByteString} (vouched : Vouched platform thread token user
      (config.scene.own thread)) : user ≠ [] := by
  cases vouched with
  | session member =>
      exact nameful.ne_nil_of_secured
        (nameful.guarded.kept.noted _ (List.mem_of_mem_filter member) user rfl)
  | key isKey member =>
      rintro rfl
      exact nameful.shown _ (List.mem_of_mem_filter member) (List.mem_singleton_self _)

theorem Nameful.not_meets (nameful : Nameful platform config) (thread : Nat) :
    ¬ MeetsNameless platform thread (config.scene.own thread) := by
  rintro (⟨token, vouched⟩ | ⟨performed, member, nameless⟩)
  · exact nameful.ne_nil_of_vouched vouched rfl
  · exact nameful.shown performed (List.mem_of_mem_filter member) nameless

end Runs

/-! ## The names that are shown -/

/-- Every name that the pages and the hub show has a first letter, and none of
them has panicked. -/
structure NamesShow (platform : Platform) (config : ServerConfig) : Prop where
  identities : ∀ thread identity, Identified platform config thread identity →
    identity.authenticated = true → identity.userID ≠ []
  authors : ∀ entry ∈ config.scene.world.tables.messages.rows, entry.2.user ≠ []
  broadcast : ∀ item ∈ config.scene.world.hub.unrendered, item.Renders
  running : config.scene.world.hub.phase ≠ .panicked
  pages : ∀ thread request, (route platform request).isPage →
    config.threads thread ≠ .running request (.done .aborted)

/-- In every run from an empty store no name that is shown is empty. -/
theorem names_show {platform : Platform} {clock : Instant} {events : List ServerEvent}
    {config : ServerConfig} (run : AnyRun (next platform) (start .created clock) events config) :
    NamesShow platform config := by
  have nameful := nameful_of_run run
  have steady : config.scene.world.hub.Steady := by
    refine hub_of_sends sendsOnly_posts Hub.Steady Hub.steady_start ?_ ?_ ?_ run
    · intro hub sender item after steady posted sent
      exact steady.send (Item.Posted.renders posted) sent
    · intro hub thread subscriber after steady registered
      exact steady.register registered
    · intro hub surroundings event after steady located happened
      exact steady.happen happened
  constructor
  · intro thread identity identified authenticated
    rcases identified.vouched authenticated with ⟨request, arrived, vouched⟩
    exact nameful.ne_nil_of_vouched vouched
  · intro entry member nameless
    exact nameful.tables.1 (Tables.mem_names.mpr (.inr (.inl ⟨entry, member, nameless⟩)))
  · exact steady.renders
  · exact steady.going
  · intro thread request page running
    exact nameful.not_meets thread ((nameful.pages thread).2 request _ running page rfl)

/-- Ann registers, sends a message and opens the page while `Run` takes up the
message. -/
def annsFirstMessage : List ServerEvent :=
  let session := "abcdefghijklmnopqrstuvwxyzABCDEF"
  let message := Request.plain (utf8 "POST") (utf8 "/api/chat/message")
    (.ofForm [(utf8 "content", utf8 "hello")])
  let page := Request.plain (utf8 "GET") (utf8 "/") .empty
  keyFor (utf8 "ann") ++ [.arrive 2 (message.bearing session)] ++
  List.replicate 5 (.step 2 .plain) ++ [.environment (.hub .dequeue false),
    .arrive 3 (page.bearing session)] ++ List.replicate 7 (.step 3 .plain)

theorem annsFirstMessage_shows : ∃ config : ServerConfig, NamesShow .transparent config ∧
    (config.scene.world.tables.messages.rows.map fun entry => entry.2.user) = [utf8 "ann"] ∧
    config.scene.world.hub.unrendered.length = 1 := by
  have executed : (execute (next .transparent) (start .created 0) annsFirstMessage).map
      (fun config => (config.scene.world.tables.messages.rows.map fun entry => entry.2.user,
        config.scene.world.hub.unrendered.length)) = some ([utf8 "ann"], 1) := by
    decide +kernel
  rcases Option.map_eq_some_iff.mp executed with ⟨config, reached, shown⟩
  rcases Prod.mk.inj shown with ⟨authors, rendering⟩
  exact ⟨config, names_show (run_of_execute reached), authors, rendering⟩

end Grunt.Server
