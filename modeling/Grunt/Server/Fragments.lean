import Grunt.Server.Scrollback
import Grunt.Server.Tags

/-! # Fragments

The answers of the handlers for htmx, which are tidy whatever they show.
-/

namespace Grunt.Server

open Foundation Markup

/-! ## Fragments -/

/-- The tags of the handlers, without what is in their quotes. -/
def fragmentTags : List ByteString :=
  [utf8 "p class=\"\"", utf8 "p style=\"\"", utf8 "/p", utf8 "div class=\"\"", utf8 "/div",
    utf8 "span", utf8 "span class=\"\"", utf8 "/span", utf8 "strong", utf8 "/strong",
    utf8 "small", utf8 "/small", utf8 "br", utf8 "table", utf8 "/table", utf8 "thead",
    utf8 "/thead", utf8 "tbody", utf8 "/tbody", utf8 "tr", utf8 "/tr", utf8 "th", utf8 "/th",
    utf8 "td", utf8 "/td", utf8 "/button",
    utf8 "button type=\"\" hx-delete=\"\" hx-target=\"\" hx-swap=\"\" hx-headers=''" ++
      utf8 " onclick=\"\""]

theorem fits_inviteFragment (platform : Platform) (code : ByteString) (expiresAt : Instant) :
    Fits fragmentTags (inviteFragment platform code expiresAt) := by
  let strong : State := ⟨[utf8 "strong", utf8 "p"], .text⟩
  let inside : State := ⟨[utf8 "p"], .text⟩
  refine read_append inside ?_ rfl
  refine read_append inside ?_ (read_text (less_not_mem_escapeString _) _)
  refine read_append strong ?_ rfl
  exact read_append strong rfl (read_text (less_not_mem_escapeString _) _)

theorem fits_renderUsersList (users : List UserInfo) :
    Fits fragmentTags (renderUsersList users) := by
  unfold renderUsersList
  split
  · rfl
  · refine read_flatMap fun user _ => ?_
    let row : State := ⟨[utf8 "div"], .text⟩
    let name : State := ⟨[utf8 "span", utf8 "div"], .text⟩
    refine read_append row ?_ rfl
    refine read_append row ?_ ?badge
    refine read_append name ?_ rfl
    exact read_append name rfl (read_text (less_not_mem_escapeString _) _)
    case badge => split <;> rfl

theorem fits_revokeButton (id : Nat) : Fits fragmentTags (revokeButton id) := by
  let path : State := ⟨[utf8 "td"],
    .tag (some Address.quote) (utf8 "button type=\"\" hx-delete=\"")⟩
  let headers : State := ⟨[utf8 "td"], .tag (some apostrophe)
    (utf8 "button type=\"\" hx-delete=\"\" hx-target=\"\" hx-swap=\"\" hx-headers='")⟩
  let click : State := ⟨[utf8 "td"], .tag (some Address.quote)
    (utf8 "button type=\"\" hx-delete=\"\" hx-target=\"\" hx-swap=\"\" hx-headers=''" ++
      utf8 " onclick=\"")⟩
  refine read_append click ?_ rfl
  refine read_append headers ?_ (by decide +kernel)
  refine read_append path ?_ (by decide +kernel)
  exact read_append path rfl (read_value (not_mem_of_unmarked (unmarked_decimal _)).1 _ _)

theorem fits_renderKeyRow (key : APIKeyInfoFull) : Fits fragmentTags (renderKeyRow key) := by
  let row : State := ⟨[utf8 "tr"], .text⟩
  let cell : State := ⟨[utf8 "td", utf8 "tr"], .text⟩
  refine read_append row ?_ rfl
  refine read_append row ?_ ((fits_revokeButton _).within _)
  refine read_append cell ?_ rfl
  refine read_append cell ?_ ?created
  refine read_append cell ?_ rfl
  refine read_append cell ?_ ?name
  refine read_append cell ?_ rfl
  refine read_append cell ?_ (read_text (less_not_mem_escapeString _) _)
  refine read_append cell ?_ rfl
  exact read_append cell rfl (read_text (not_mem_of_unmarked (unmarked_decimal _)).2 _)
  case created =>
    split
    · rfl
    · exact read_text (not_mem_of_unmarked (unmarked_formatDateClock _ _)).2 _
  case name =>
    split
    · exact read_text (less_not_mem_escapeString _) _
    · rfl

theorem fits_renderKeyTableHTML (keys : List APIKeyInfoFull) :
    Fits fragmentTags (renderKeyTableHTML keys) := by
  unfold renderKeyTableHTML
  split
  · rfl
  · let body : State := ⟨[utf8 "tbody", utf8 "table"], .text⟩
    have rows : Fits fragmentTags (keys.flatMap renderKeyRow) :=
      read_flatMap fun key _ => fits_renderKeyRow key
    refine read_append body ?_ rfl
    exact read_append body (by decide +kernel) (rows.within _)

theorem fits_newKeyFragment (rawKey name : ByteString) (keyID : Nat) :
    Fits fragmentTags (newKeyFragment rawKey name keyID) := by
  let shown : State := ⟨[utf8 "div"], .text⟩
  let small : State := ⟨[utf8 "small", utf8 "div"], .text⟩
  refine read_append small ?_ rfl
  refine read_append small ?_ (read_text (less_not_mem_escapeString _) _)
  refine read_append small ?_ rfl
  refine read_append small ?_ (read_text (not_mem_of_unmarked (unmarked_decimal _)).2 _)
  refine read_append shown ?_ rfl
  exact read_append shown rfl (read_text (less_not_mem_escapeString _) _)

/-- The text of an answer in HTML has no tags but those of the handlers. -/
def Response.Tidy (response : Response) : Prop :=
  ∀ status headers text, response = .sent status headers (.text text) →
    Response.htmlHeader ∈ headers → Fits fragmentTags text

def Tidies (program : ServerProgram Response) : Prop :=
  ∀ response, program.Returns response → response.Tidy

section Handlers

variable {platform : Platform} {request : Request} {identity : Identity}

theorem Response.tidy_fragment {text : ByteString} (fits : Fits fragmentTags text) :
    (Response.fragment text).Tidy := by
  rintro status headers other ⟨⟩ -
  exact fits

theorem Response.tidy_of_headers {status : Nat} {headers : List Header} {content : Content}
    (other : Response.htmlHeader ∉ headers) : (Response.sent status headers content).Tidy := by
  rintro _ _ text ⟨⟩ html
  exact absurd html other

theorem Response.tidy_error (message : ByteString) (status : Nat) :
    (Response.error message status).Tidy :=
  tidy_of_headers (by decide)

theorem Response.tidy_apiError (message : String) (status : Nat) :
    (Response.apiError message status).Tidy :=
  tidy_error _ status

theorem tidy_htmxError {fragment message : String} {status : Nat}
    (plain : less ∉ utf8 fragment) : (htmxError request fragment message status).Tidy := by
  unfold htmxError
  split
  · apply Response.tidy_fragment
    let inside : State := ⟨[utf8 "p"], .text⟩
    refine read_append inside ?_ rfl
    exact read_append inside rfl (read_text plain _)
  · exact Response.tidy_apiError message status

theorem tidies_pure {response : Response} (tidy : response.Tidy) : Tidies (pure response) := by
  rintro other ⟨⟩
  exact tidy

theorem tidies_bind {α : Type} {program : ServerProgram α} {rest : α → ServerProgram Response}
    (each : ∀ value, Tidies (rest value)) : Tidies (program >>= rest) := by
  intro response returns
  rcases Program.returns_bind.mp returns with ⟨value, -, later⟩
  exact each value response later

theorem tidies_apiError (message : String) (status : Nat) :
    Tidies (pure (.apiError message status)) :=
  tidies_pure (Response.tidy_apiError message status)

theorem getInvite_tidies : Tidies (getInvite platform request identity) := by
  unfold getInvite
  split
  · exact tidies_apiError _ _
  · refine tidies_bind fun drawn => ?_
    cases drawn with
    | error error => exact tidies_pure (tidy_htmxError (by decide))
    | ok bytes =>
        refine tidies_bind fun issuedAt => tidies_bind fun stored => ?_
        cases stored with
        | error error => exact tidies_pure (tidy_htmxError (by decide))
        | ok stored =>
            dsimp only
            split
            · exact tidies_pure (Response.tidy_fragment (fits_inviteFragment platform _ _))
            · exact tidies_pure (Response.tidy_of_headers (by decide))

theorem adminCreateUser_tidies : Tidies (adminCreateUser request identity) := by
  unfold adminCreateUser
  split
  · exact tidies_apiError _ _
  · split
    · split
      · exact tidies_apiError _ _
      · exact tidies_pure (tidy_htmxError (by decide))
    · dsimp only
      split
      · exact tidies_apiError _ _
      · refine tidies_bind fun created => ?_
        cases created with
        | error error => exact tidies_apiError _ _
        | ok created =>
            dsimp only
            split
            · refine tidies_bind fun users => ?_
              cases users with
              | error error => exact tidies_pure (Response.tidy_fragment rfl)
              | ok users =>
                  exact tidies_pure (Response.tidy_fragment (fits_renderUsersList _))
            · exact tidies_pure (Response.tidy_of_headers (by decide))

theorem reloadKeys_tidies {above : ByteString} (fits : Fits fragmentTags above) :
    Tidies (reloadKeys above) := by
  refine tidies_bind fun keys => ?_
  cases keys with
  | error error => exact tidies_pure (Response.tidy_fragment rfl)
  | ok keys =>
      exact tidies_pure (Response.tidy_fragment
        (read_append ⟨[], .text⟩ fits (fits_renderKeyTableHTML _)))

theorem createKey_tidies {adminID userID name : ByteString} :
    Tidies (createKey platform request adminID userID name) := by
  refine tidies_bind fun drawn => ?_
  cases drawn with
  | error error => exact tidies_pure (tidy_htmxError (by decide))
  | ok bytes =>
      refine tidies_bind fun stored => ?_
      cases stored with
      | error error => exact tidies_pure (tidy_htmxError (by decide))
      | ok keyID =>
          dsimp only
          split
          · exact reloadKeys_tidies (fits_newKeyFragment _ _ _)
          · exact tidies_pure (Response.tidy_of_headers (by decide))

theorem adminCreateAPIKey_tidies : Tidies (adminCreateAPIKey platform request identity) := by
  unfold adminCreateAPIKey
  split
  · exact tidies_apiError _ _
  · split
    · exact tidies_pure (tidy_htmxError (by decide))
    · split
      · exact tidies_pure (tidy_htmxError (by decide))
      · exact createKey_tidies

theorem adminRevokeAPIKey_tidies (keyId : ByteString) :
    Tidies (adminRevokeAPIKey platform request identity keyId) := by
  unfold adminRevokeAPIKey
  split
  · exact tidies_pure (Response.tidy_error _ _)
  · split
    · exact tidies_apiError _ _
    · refine tidies_bind fun revoked => ?_
      cases revoked with
      | error error => exact tidies_pure (tidy_htmxError (by decide))
      | ok revoked =>
          dsimp only
          split
          · exact reloadKeys_tidies rfl
          · exact tidies_pure (Response.tidy_of_headers (by decide))

theorem handleAvatarUpload_tidies : Tidies (handleAvatarUpload platform request identity) := by
  unfold handleAvatarUpload
  split
  · exact tidies_apiError _ _
  · split
    · exact tidies_apiError _ _
    · exact tidies_apiError _ _
    · split
      · exact tidies_pure (Response.tidy_error _ _)
      · refine tidies_bind fun stored => ?_
        cases stored with
        | error error => exact tidies_apiError _ _
        | ok stored =>
            dsimp only
            split
            · exact tidies_pure (Response.tidy_fragment rfl)
            · exact tidies_pure (Response.tidy_of_headers (by decide))

theorem registrationFailed_tidy (error : ByteString) : (registrationFailed error).Tidy := by
  unfold registrationFailed
  split
  · exact Response.tidy_of_headers (by decide)
  · exact Response.tidy_error _ _

theorem registerUser_tidies : Tidies (registerUser platform request) := by
  unfold registerUser
  split
  · exact tidies_apiError _ _
  · dsimp only
    split
    · exact tidies_apiError _ _
    · refine tidies_bind fun registered => ?_
      cases registered with
      | error error => exact tidies_pure (registrationFailed_tidy error)
      | ok registered =>
          exact tidies_bind fun _ => tidies_pure (Response.tidy_of_headers (by decide))

theorem loginUser_tidies : Tidies (loginUser platform request) := by
  unfold loginUser
  split
  · exact tidies_apiError _ _
  · refine tidies_bind fun verified => ?_
    rcases verified with error | (_ | _)
    · exact tidies_apiError _ _
    · exact tidies_apiError _ _
    · refine tidies_bind fun generated => ?_
      cases generated with
      | error error => exact tidies_apiError _ _
      | ok token => exact tidies_pure (Response.tidy_of_headers (by decide))

theorem changePassword_tidies : Tidies (changePassword platform request identity) := by
  unfold changePassword
  split
  · exact tidies_apiError _ _
  · dsimp only
    split
    · exact tidies_apiError _ _
    · split
      · exact tidies_apiError _ _
      · refine tidies_bind fun changed => ?_
        cases changed with
        | error error =>
            dsimp only
            split
            · exact tidies_apiError _ _
            · exact tidies_apiError _ _
        | ok changed => exact tidies_pure (Response.tidy_of_headers (by decide))

theorem saveAndBroadcast_tidies (userID content : ByteString) :
    Tidies (saveAndBroadcast platform userID content) := by
  refine tidies_bind fun timestamp => tidies_bind fun saved => ?_
  cases saved with
  | error error => exact tidies_apiError _ _
  | ok id =>
      dsimp only
      split
      · exact tidies_apiError _ _
      · exact tidies_bind fun _ => tidies_pure (Response.tidy_of_headers (by decide))

theorem sendMessage_tidies : Tidies (sendMessage platform request identity) := by
  unfold sendMessage
  split
  · exact tidies_apiError _ _
  · split
    · exact tidies_apiError _ _
    · dsimp only
      split
      · exact tidies_apiError _ _
      · split
        · exact tidies_apiError _ _
        · split
          · exact tidies_apiError _ _
          · exact saveAndBroadcast_tidies _ _

theorem streamMessages_tidies : Tidies (streamMessages request identity) := by
  unfold streamMessages
  split
  · exact tidies_apiError _ _
  · split
    · exact tidies_apiError _ _
    · refine tidies_bind fun drawn => ?_
      cases drawn with
      | error error => exact tidies_apiError _ _
      | ok clientID =>
          refine tidies_bind fun _ => tidies_bind fun _ => ?_
          exact tidies_pure (Response.tidy_of_headers (by decide))

theorem syncMessages_tidies : Tidies (syncMessages platform request) := by
  unfold syncMessages
  split
  case h_1 response malformed =>
    apply tidies_pure
    unfold syncParameters at malformed
    dsimp only at malformed
    split at malformed
    · cases malformed
      exact Response.tidy_error _ _
    · split at malformed <;> cases malformed
      exact Response.tidy_error _ _
  case h_2 =>
    refine tidies_bind fun rows => ?_
    cases rows with
    | error error => exact tidies_apiError _ _
    | ok rows => exact tidies_pure (Response.tidy_of_headers (by decide))

theorem adminListAPIKeys_tidies : Tidies (adminListAPIKeys identity) := by
  unfold adminListAPIKeys
  split
  · exact tidies_apiError _ _
  · refine tidies_bind fun keys => ?_
    cases keys with
    | error error => exact tidies_apiError _ _
    | ok keys => exact tidies_pure (Response.tidy_of_headers (by decide))

theorem serveAvatar_tidies (userID : ByteString) :
    Tidies (serveAvatar platform request userID) := by
  refine tidies_bind fun avatar => ?_
  cases avatar with
  | error error => exact tidies_apiError _ _
  | ok avatar =>
      dsimp only
      split
      · exact tidies_apiError _ _
      · split
        · exact tidies_pure (Response.tidy_of_headers (by decide))
        · have image : Response.htmlHeader ≠ (utf8 "Content-Type", utf8 "image/png") := by decide
          have cache : Response.htmlHeader.1 ≠ utf8 "Cache-Control" := by decide
          have etag : Response.htmlHeader.1 ≠ utf8 "ETag" := by decide
          apply tidies_pure
          apply Response.tidy_of_headers
          intro member
          rcases List.mem_cons.mp member with same | member
          · exact image same
          rcases List.mem_cons.mp member with same | member
          · exact cache (congrArg Prod.fst same)
          · exact etag (congrArg Prod.fst (List.mem_singleton.mp member))

theorem handleAvatarGet_tidies : Tidies (handleAvatarGet platform request identity) := by
  unfold handleAvatarGet
  split
  · exact tidies_apiError _ _
  · exact serveAvatar_tidies _

theorem handleAvatarGetUser_tidies : Tidies (handleAvatarGetUser platform request) := by
  unfold handleAvatarGetUser
  dsimp only
  split
  · exact tidies_apiError _ _
  · exact serveAvatar_tidies _

/-! ## Pages -/

theorem Response.tidy_of_content {status : Nat} {headers : List Header} {content : Content}
    (other : ∀ text, content ≠ .text text) : (Response.sent status headers content).Tidy := by
  rintro _ _ text ⟨⟩ -
  exact absurd rfl (other text)

theorem Response.tidy_aborted : Response.aborted.Tidy := by
  rintro _ _ _ ⟨⟩

theorem tidies_loginError (message : String) : Tidies (pure (loginError message)) :=
  tidies_pure (Response.tidy_of_headers (by decide))

theorem tidies_aborted : Tidies (pure .aborted) := tidies_pure Response.tidy_aborted

theorem startSession_tidies (user : ByteString) : Tidies (startSession user) := by
  refine tidies_bind fun generated => ?_
  cases generated with
  | error error => exact tidies_loginError _
  | ok token => exact tidies_pure (Response.tidy_of_content (by rintro text ⟨⟩))

theorem handleLoginSubmit_tidies : Tidies (handleLoginSubmit platform request) := by
  unfold handleLoginSubmit
  split
  · exact tidies_loginError _
  · dsimp only
    split
    · exact tidies_loginError _
    · refine tidies_bind fun verified => ?_
      rcases verified with error | (_ | _)
      · exact tidies_loginError _
      · exact tidies_loginError _
      · exact startSession_tidies _

theorem handleRegisterSubmit_tidies : Tidies (handleRegisterSubmit platform request) := by
  unfold handleRegisterSubmit
  split
  · exact tidies_loginError _
  · dsimp only
    split
    · exact tidies_loginError _
    · refine tidies_bind fun registered => ?_
      cases registered with
      | error error =>
          dsimp only
          split
          · exact tidies_loginError _
          · exact tidies_loginError _
      | ok registered => exact tidies_bind fun _ => startSession_tidies _

theorem chatPage_tidies (userID : ByteString) : Tidies (chatPage platform userID) := by
  refine tidies_bind fun loaded => ?_
  cases loaded with
  | error error => exact tidies_pure (Response.tidy_error _ _)
  | ok messages =>
      dsimp only
      split
      · exact tidies_aborted
      · refine tidies_bind fun hasAvatar => tidies_bind fun rows => ?_
        cases rows with
        | none => exact tidies_aborted
        | some rows =>
            dsimp only
            split
            · exact tidies_aborted
            · exact tidies_pure (Response.tidy_of_content (by rintro text ⟨⟩))

theorem handleIndexOrLogin_tidies : Tidies (handleIndexOrLogin platform request identity) := by
  unfold handleIndexOrLogin
  split
  · exact handleLoginSubmit_tidies
  · split
    · exact chatPage_tidies _
    · exact tidies_pure (Response.tidy_of_content (by rintro text ⟨⟩))

theorem settingsFor_tidies (profile : AvatarData) (isAdmin : Bool) :
    Tidies (settingsFor platform profile isAdmin) := by
  unfold settingsFor
  split
  · refine tidies_bind fun users => ?_
    cases users with
    | error error => exact tidies_pure (Response.tidy_error _ _)
    | ok users =>
        refine tidies_bind fun keys => ?_
        cases keys with
        | error error => exact tidies_pure (Response.tidy_error _ _)
        | ok keys => exact tidies_pure (Response.tidy_of_content (by rintro text ⟨⟩))
  · exact tidies_pure (Response.tidy_of_content (by rintro text ⟨⟩))

theorem handleSettings_tidies : Tidies (handleSettings platform identity) := by
  unfold handleSettings
  split
  · exact tidies_pure (Response.tidy_of_content (by rintro text ⟨⟩))
  · split
    · exact tidies_aborted
    · refine tidies_bind fun hasAvatar => ?_
      split
      · exact tidies_aborted
      · exact settingsFor_tidies _ _

theorem handleRuntimeEmotes_tidies : Tidies (handleRuntimeEmotes platform request) := by
  unfold handleRuntimeEmotes
  dsimp only
  split
  · exact tidies_pure (Response.tidy_error _ _)
  · exact tidies_bind fun _ => tidies_pure (Response.tidy_of_content (by rintro text ⟨⟩))

theorem dispatch_tidies {route : Route} (own : route ≠ .staticFiles) :
    Tidies (dispatch platform request identity route) := by
  cases route with
  | registerUser => exact registerUser_tidies
  | getInvite => exact getInvite_tidies
  | loginUser => exact loginUser_tidies
  | changePassword => exact changePassword_tidies
  | sendMessage => exact sendMessage_tidies
  | streamMessages => exact streamMessages_tidies
  | syncMessages => exact syncMessages_tidies
  | adminCreateUser => exact adminCreateUser_tidies
  | adminListAPIKeys => exact adminListAPIKeys_tidies
  | adminCreateAPIKey => exact adminCreateAPIKey_tidies
  | adminRevokeAPIKey keyId => exact adminRevokeAPIKey_tidies keyId
  | index => exact handleIndexOrLogin_tidies
  | register => exact handleRegisterSubmit_tidies
  | settings => exact handleSettings_tidies
  | logout => exact tidies_pure (Response.tidy_of_content (by rintro text ⟨⟩))
  | staticFiles => exact absurd rfl own
  | runtimeEmotes => exact handleRuntimeEmotes_tidies
  | avatarUpload => exact handleAvatarUpload_tidies
  | avatarGet => exact handleAvatarGet_tidies
  | avatarGetUser => exact handleAvatarGetUser_tidies
  | redirect path => exact tidies_pure (Response.tidy_of_content (by rintro text ⟨⟩))

theorem serve_tidies (own : route platform request ≠ .staticFiles) :
    Tidies (serve platform request) :=
  tidies_bind fun _ => dispatch_tidies own

end Handlers

section Runs

variable {platform : Platform} {tables : Storage.Tables} {clock : Instant}
variable {events : List ServerEvent} {config : ServerConfig}

/-- Whatever the tables hold and users send, an answer in HTML that is no file has no
tags and attributes but those of the handlers, properly nested. -/
theorem fragments_fit_of_run {allowed}
    (run : Run (next platform) allowed (start tables clock) events config)
    {thread : Nat} {request : Request} (own : route platform request ≠ .staticFiles)
    {status : Nat} {headers : List Header} {text : ByteString}
    (finished : config.threads thread =
      .running request (.done (.sent status headers (.text text))))
    (html : Response.htmlHeader ∈ headers) : Fits fragmentTags text := by
  have any : ∀ thread request, Sends thread (fun _ _ => True) (serve platform request) [] :=
    fun _ _ => sends_of_all (fun _ _ => trivial) _
  have returned := ((Machine.tracked_of_run (Machine.obeys_tracking fun thread request =>
    (any thread request).and_returns) run Machine.tracked_start) thread).2 request _ finished
  exact serve_tidies own _ returned.2 status headers text rfl html

def nameScript : List ServerEvent :=
  let request := Request.plain (utf8 "POST") (utf8 "/api/admin/users")
    (.ofForm [(utf8 "user", utf8 "<script>f()</script>")])
  .arrive 0 { request.bearing "gk_ann" with hxRequest := utf8 "true" } ::
    List.replicate 4 (.step 0 .plain)

def listedScript : ByteString :=
  utf8 "<div class=\"user-row\"><span>&lt;script&gt;f()&lt;/script&gt;</span>" ++
    utf8 "<span class=\"badge user\">User</span></div><div class=\"user-row\">" ++
    utf8 "<span>ann</span><span class=\"badge admin\">Admin</span></div>"

/-- The script is listed as text. -/
theorem nameScript_fits : ∃ config : ServerConfig,
    (config.threads 0).response = some (.fragment listedScript) ∧
    Fits fragmentTags listedScript := by
  let tables := { annsTables with
    users := ⟨[⟨utf8 "ann", none, true, none⟩], by decide⟩ }
  have executed : ((executeWhere (next .transparent) distinctClients (start tables 0)
      nameScript).bind fun config => (config.threads 0).request.map fun request =>
        (route .transparent request, (config.threads 0).response)) =
      some (.adminCreateUser, some (.fragment listedScript)) := by
    decide +kernel
  obtain ⟨config, reached, asked⟩ := Option.bind_eq_some_iff.mp executed
  obtain ⟨request, arrived, facts⟩ := Option.map_eq_some_iff.mp asked
  simp only [Prod.mk.injEq] at facts
  obtain ⟨routed, responded⟩ := facts
  have own : route .transparent request ≠ .staticFiles := by
    rw [routed]
    decide
  exact ⟨config, responded, fragments_fit_of_run (run_of_executeWhere reached) own
    (Thread.eq_done arrived responded) (List.mem_singleton_self _)⟩

end Runs

end Grunt.Server
