import Grunt.Server.Broadcasts
import Grunt.Server.Conduct
import Grunt.Server.Identities
import Grunt.Server.Requests

/-! # Where session tokens come from

A session token that is accepted was issued in the run, for the user that it is
accepted for, as long as no token is issued twice.
-/

namespace Grunt.Server

open Foundation Storage

def issuedBy : Performed Op Op.Result → Option (ByteString × ByteString)
  | ⟨_, .putToken token user _, _⟩ => some (token, user)
  | _ => none

def issued (history : List (Performed Op Op.Result)) : List (ByteString × ByteString) :=
  history.filterMap issuedBy

def newTokens (config : ServerConfig) : ServerEvent → Bool
  | .step thread _ =>
      match config.threads thread with
      | .running _ (.perform (.putToken token _ _) _) =>
          !((issued config.scene.history).map Prod.fst).contains token
      | _ => true
  | _ => true

def unkeyed (platform : Platform) (config : ServerConfig) : Bool :=
  (issued config.scene.history).all fun entry =>
    (config.scene.world.keyOwner platform entry.1).isNone

/-- The tokens of a run are new, and none stands for an API key. -/
def freshTokens (platform : Platform) (config : ServerConfig) (event : ServerEvent) : Bool :=
  newTokens config event && unkeyed platform config

/-- What is known of the tokens of a run. -/
structure Sessions (config : ServerConfig) : Prop where
  held : ∀ token entry, config.scene.world.tokens token = some entry →
    (token, entry.userID) ∈ issued config.scene.history
  accepted : ∀ thread token user,
    ⟨thread, .checkToken token, (some user : Option ByteString)⟩ ∈ config.scene.history →
    (token, user) ∈ issued config.scene.history
  distinct : ((issued config.scene.history).map Prod.fst).Nodup
  drawn : ∀ thread size text,
    ⟨thread, .nanoid size, (.ok text : Except ByteString ByteString)⟩ ∈ config.scene.history →
    suitsNanoid size text = true

section Sessions

variable {platform : Platform} {config after : ServerConfig}

theorem mem_issued {history : List (Performed Op Op.Result)} {thread : Nat}
    {token user : ByteString} {expiry : Instant}
    (put : ⟨thread, .putToken token user expiry, ()⟩ ∈ history) : (token, user) ∈ issued history :=
  List.mem_filterMap.mpr ⟨_, put, rfl⟩

theorem issued_snoc (history : List (Performed Op Op.Result)) (performed : Performed Op Op.Result) :
    issued (history ++ [performed]) = issued history ++ (issuedBy performed).toList := by
  rw [issued, List.filterMap_append, issued]
  cases put : issuedBy performed <;> simp [put]

theorem sessions_start (tables : Tables) (clock : Instant) : Sessions (start tables clock) where
  held := nofun
  accepted := nofun
  distinct := List.nodup_nil
  drawn := nofun

theorem Sessions.keep (sessions : Sessions config)
    (history : after.scene.history = config.scene.history)
    (tokens : ∀ token entry, after.scene.world.tokens token = some entry →
      config.scene.world.tokens token = some entry) : Sessions after where
  held := by
    rw [history]
    exact fun token entry found => sessions.held token entry (tokens token entry found)
  accepted := by
    rw [history]
    exact sessions.accepted
  distinct := by
    rw [history]
    exact sessions.distinct
  drawn := by
    rw [history]
    exact sessions.drawn

theorem new_of_newTokens {thread : Nat} {choice : Choice} {request : Request} {op : Op}
    {rest : op.Result → ServerProgram Response} {result : op.Result}
    (running : config.threads thread = .running request (.perform op rest))
    (new : newTokens config (.step thread choice) = true) {entry : ByteString × ByteString}
    (put : issuedBy ⟨thread, op, result⟩ = some entry) :
    entry.1 ∉ (issued config.scene.history).map Prod.fst := by
  cases op with
  | putToken token user expiry =>
      cases put
      simp only [newTokens, running, Bool.not_eq_true'] at new
      intro member
      rw [List.contains_iff_mem.mpr member] at new
      cases new
  | _ => cases put

theorem suitsNanoid_of_perform (platform : Platform) (thread : Nat) {size : Nat}
    {choice : Choice} {text : ByteString} {world reached : World}
    (performed : perform platform thread (.nanoid size) choice world =
      some ((.ok text : Except ByteString ByteString), reached)) : suitsNanoid size text = true := by
  obtain ⟨result, draws, same⟩ := Option.map_eq_some_iff.mp performed
  cases same
  unfold drawn at draws
  split at draws
  · cases draws
  · split at draws <;> cases draws
    next suits => exact suits

theorem Sessions.next (sessions : Sessions config) {event : ServerEvent}
    (fresh : newTokens config event = true)
    (taken : next platform config event = some after) : Sessions after := by
  cases event with
  | arrive thread request =>
      obtain ⟨-, rfl⟩ := Machine.next_arrive taken
      exact sessions.keep rfl fun _ _ found => found
  | environment happening =>
      obtain ⟨world, happened, rfl⟩ := Machine.next_environment taken
      refine sessions.keep rfl fun token entry found => ?_
      rwa [tokens_of_environment happened] at found
  | restart =>
      rw [Machine.next_restart taken]
      exact sessions.keep rfl nofun
  | step thread choice =>
      obtain ⟨request, op, rest, result, scene, running, observed, rfl⟩ := Machine.next_step taken
      obtain ⟨performed, history⟩ := Machine.observe_eq_some.mp observed
      have grown : ∀ entry ∈ issued config.scene.history, entry ∈ issued scene.history := by
        intro entry member
        rw [history, issued_snoc]
        exact List.mem_append_left _ member
      refine ⟨fun token entry found => ?_, fun other token user member => ?_, ?_, ?_⟩
      · rcases tokens_of_perform performed found with old | rfl
        · exact grown _ (sessions.held token entry old)
        · change _ ∈ issued scene.history
          rw [history, issued_snoc]
          exact List.mem_append_right _ (List.mem_singleton_self _)
      · change _ ∈ scene.history at member
        rw [history] at member
        rcases List.mem_append.mp member with old | new
        · exact grown _ (sessions.accepted other token user old)
        · cases List.mem_singleton.mp new
          have checked : config.scene.world.checkToken token = (some user, scene.world) :=
            Option.some.inj performed
          obtain ⟨entry, found, -, rfl⟩ := World.checkToken_eq_some.mp (congrArg Prod.fst checked)
          exact grown _ (sessions.held token entry found)
      · change ((issued scene.history).map Prod.fst).Nodup
        rw [history, issued_snoc]
        cases put : issuedBy ⟨thread, op, result⟩ with
        | none => simpa using sessions.distinct
        | some entry =>
            have new := new_of_newTokens running fresh put
            rw [Option.toList_some, List.map_append, List.map_singleton]
            exact List.nodup_append.mpr ⟨sessions.distinct, List.nodup_singleton _,
              fun token inside other same => by
                rw [List.mem_singleton.mp same]
                rintro rfl
                exact new inside⟩
      · intro other size text member
        change _ ∈ scene.history at member
        rw [history] at member
        rcases List.mem_append.mp member with old | new
        · exact sessions.drawn other size text old
        · cases List.mem_singleton.mp new
          exact suitsNanoid_of_perform platform thread performed

def NotAKey (platform : Platform) (token : ByteString) (seen : List (Performed Op Op.Result)) :
    Prop :=
  ∀ thread user, ⟨thread, .store (.query false (.apiKeyOwner (Store.hashAPIKey
    platform.toLibraries token))), (.ok (some user) : Except SqlError (Option ByteString))⟩ ∉ seen

theorem notAKey_of_next {token user : ByteString} {thread : Nat} {event : ServerEvent}
    (put : (token, user) ∈ issued config.scene.history) (unkeyed : unkeyed platform config = true)
    (notAKey : NotAKey platform token (config.scene.own thread))
    (taken : next platform config event = some after) :
    NotAKey platform token (after.scene.own thread) := by
  by_cases own : ∃ choice, event = .step thread choice
  · obtain ⟨choice, rfl⟩ := own
    obtain ⟨request, op, rest, result, scene, -, observed, rfl⟩ := Machine.next_step taken
    have mine : scene.own thread = config.scene.own thread ++ [⟨thread, op, result⟩] :=
      Machine.own_of_observe observed
    have performed : perform platform thread op choice config.scene.world =
        some (result, scene.world) := (Machine.observe_eq_some.mp observed).1
    intro other owner member
    change _ ∈ scene.own thread at member
    rw [mine] at member
    rcases List.mem_append.mp member with old | new
    · exact notAKey other owner old
    · cases List.mem_singleton.mp new
      have answered : config.scene.world.keyOwner platform token = some owner :=
        perform_query (perform_store performed)
      have missing := List.all_eq_true.mp unkeyed _ put
      rw [answered] at missing
      cases missing
  · rw [NotAKey, Machine.own_of_next (fun choice same => own ⟨choice, same⟩) taken]
    exact notAKey

theorem Sessions.owner (sessions : Sessions config) {thread : Nat} {token user owner : ByteString}
    {seen : List (Performed Op Op.Result)} (past : seen ⊆ config.scene.history)
    (vouched : Vouched platform thread token user seen) (notAKey : NotAKey platform token seen)
    (put : (token, owner) ∈ issued config.scene.history) : user = owner := by
  cases vouched with
  | session member =>
      have also := sessions.accepted thread token user (past member)
      exact congrArg Prod.snd (List.inj_on_of_nodup_map sessions.distinct also put rfl)
  | key _ member => exact absurd member (notAKey thread user)

variable {tables : Tables} {clock : Instant} {events : List ServerEvent}

theorem sessions_of_run
    (run : Run (Server.next platform) (fun config event => freshTokens platform config event = true)
      (start tables clock) events config) : Sessions config := by
  refine run.invariant _ (fun _ _ _ sessions fresh taken => ?_) (sessions_start tables clock)
  exact sessions.next (Bool.and_eq_true_iff.mp fresh).1 taken

end Sessions

/-! ## Logging in -/

/-- What `Login` makes of an answer. -/
def tokenOf (location : Location) : Response → Option ByteString
  | .sent 200 _ (.json document) => Client.readToken (document.body location)
  | _ => none

def SentToken (platform : Platform) (thread : Nat) (request : Request) (response : Response)
    (seen : List (Performed Op Op.Result)) : Prop :=
  route platform request = .loginUser → ∀ headers document,
    response = .sent 200 headers (.json document) →
    ∃ field token expiry, document = .token token ∧
      jsonFields request [utf8 "password", utf8 "user"] = some field ∧
      ⟨thread, .nanoid 32, (.ok token : Except ByteString ByteString)⟩ ∈ seen ∧
      ⟨thread, .putToken token (field (utf8 "user")) expiry, ()⟩ ∈ seen

section Login

variable {platform : Platform} {thread : Nat} {seen : List (Performed Op Op.Result)}

theorem generateToken_sends (user : ByteString) :
    Sends thread (fun result later => ∀ token, result = .ok token → ∃ expiry,
      ⟨thread, .nanoid 32, (.ok token : Except ByteString ByteString)⟩ ∈ later ∧
      ⟨thread, .putToken token user expiry, ()⟩ ∈ later) (generateToken user) seen := by
  refine And.intro trivial fun result => ?_
  cases result with
  | error error => exact nofun
  | ok token =>
      refine And.intro trivial fun issuedAt => And.intro trivial fun done => ?_
      rintro other ⟨⟩
      exact ⟨_, by simp, List.mem_append_right _ (List.mem_singleton_self _)⟩

theorem loginUser_sends (request : Request) :
    Sends thread (fun response later => ∀ headers document,
      response = .sent 200 headers (.json document) →
      ∃ field token expiry, document = .token token ∧
        jsonFields request [utf8 "password", utf8 "user"] = some field ∧
        ⟨thread, .nanoid 32, (.ok token : Except ByteString ByteString)⟩ ∈ later ∧
        ⟨thread, .putToken token (field (utf8 "user")) expiry, ()⟩ ∈ later)
      (loginUser platform request) seen := by
  unfold loginUser
  split
  · exact fun headers document impossible => nomatch impossible
  · next field fields =>
    have any : Sends thread (fun _ _ => True) (store (Store.verifyUser platform.toLibraries
        (field (utf8 "user")) (field (utf8 "password")))) seen :=
      sends_of_all (fun _ _ => trivial) _
    refine any.bind fun verified later _ => ?_
    rcases verified with error | _ | _
    · exact fun headers document impossible => nomatch impossible
    · exact fun headers document impossible => nomatch impossible
    · refine (generateToken_sends _).bind fun result later issues => ?_
      cases result with
      | error error => exact fun headers document impossible => nomatch impossible
      | ok token =>
          rintro headers document ⟨⟩
          obtain ⟨expiry, drawn, put⟩ := issues token rfl
          exact ⟨field, token, expiry, rfl, fields, drawn, put⟩

theorem serve_sendsToken (thread : Nat) (request : Request) :
    Sends thread (SentToken platform thread request) (serve platform request) [] := by
  have any : Sends thread (fun _ _ => True) (authenticate platform request) [] :=
    sends_of_all (fun _ _ => trivial) _
  refine any.bind fun identity later _ => ?_
  by_cases logging : route platform request = .loginUser
  · rw [logging]
    exact (loginUser_sends request).mono fun _ _ sent _ => sent
  · exact sends_of_all (fun response later other => absurd other logging) _

theorem toValidUTF8_nanoid {size : Nat} {text : ByteString}
    (suits : suitsNanoid size text = true) : Bytes.toValidUTF8 text = text := by
  have ascii : nanoidAlphabet.all (fun byte => byte < 0x80) = true := by decide
  apply Bytes.toValidUTF8_of_ascii
  intro byte member
  have inside := List.all_eq_true.mp (Bool.and_eq_true_iff.mp suits).2 byte member
  exact of_decide_eq_true (List.all_eq_true.mp ascii byte (List.contains_iff_mem.mp inside))

end Login

end Grunt.Server
