import Grunt.Server.Handlers

/-! # The pages and the route table -/

namespace Grunt.Server

open Foundation Storage

/-! ## Login and registration forms -/

def loginError (message : String) : Response := .ok (.login (some (utf8 message)) none)

def sessionCookie (token : ByteString) : Header :=
  (utf8 "Set-Cookie", utf8 "token=" ++ token ++ utf8 "; Path=/; HttpOnly; SameSite=Lax")

def startSession (user : ByteString) : ServerProgram Response := do
  match ← generateToken user with
  | .error _ => return loginError "Failed to generate token"
  | .ok token => return .redirect [sessionCookie token] (utf8 "/")

def handleLoginSubmit (platform : Platform) (request : Request) : ServerProgram Response := do
  match request.body.form with
  | none => return loginError "Invalid request body"
  | some field =>
    let user := field (utf8 "user")
    let password := field (utf8 "password")
    if user = [] ∨ password = [] then return loginError "User and password are required"
    else
      match ← store (Store.verifyUser platform.toLibraries user password) with
      | .error _ => return loginError "Failed to verify user"
      | .ok false => return loginError "Invalid credentials"
      | .ok true => startSession user

def handleRegisterSubmit (platform : Platform) (request : Request) :
    ServerProgram Response := do
  match request.body.form with
  | none => return loginError "Invalid request body"
  | some field =>
    let user := field (utf8 "user")
    let password := field (utf8 "password")
    let inviteCode := field (utf8 "invite_code")
    if user = [] ∨ password = [] ∨ inviteCode = [] then
      return loginError "User, password, and invite code are required"
    else
      match ← store (Store.registerWithInvite platform.toLibraries inviteCode user password) with
      | .error error =>
        if isDuplicateUser error then return loginError "User already exists"
        else return loginError "Invalid or expired invite code"
      | .ok _ =>
        setFirstAdmin user
        startSession user

def handleLogoutSubmit : Response :=
  .redirect [(utf8 "Set-Cookie", utf8 "token=; Path=/; Max-Age=0; HttpOnly")] (utf8 "/login")

/-! ## The chat page -/

/-- The picture in the header of a page. `none` where taking the initial panics. -/
def profileData (userID url : ByteString) (hasAvatar : Bool) : Option AvatarData :=
  (initialOf userID).map fun initial => {
    userID := userID
    url := url
    color := avatarColor userID
    textColor := avatarTextColor userID
    initial := initial
    hasAvatar := hasAvatar }

def chatDateHeader (platform : Platform) (previous : Option Client.Broadcast)
    (message : Client.Broadcast) : ServerProgram ByteString := do
  let date := currentDate platform.location message.timestamp
  if previous.any fun previous => date = currentDate platform.location previous.timestamp then
    return []
  else return formatDateHeader platform.location (← now) date

def chatRow (platform : Platform) (previous : Option Client.Broadcast)
    (message : Client.Broadcast) : ServerProgram (Option MessageTemplateData) := do
  let grouped := previous.any fun previous => previous.userID = message.userID
  let soon := previous.any fun previous =>
    message.timestamp - previous.timestamp ≤ Calendar.minute
  let dateHeader ← chatDateHeader platform previous message
  let rendered ← (Program.call (Op.renderContent message.content) : ServerProgram ByteString)
  match initialOf message.userID with
  | none => return none
  | some initial =>
    let hasAvatar ← store (Store.hasAvatar message.userID)
    return some {
      id := message.id
      user := message.userID
      content := message.content
      renderedContent := rendered
      timestamp := Calendar.formatClock platform.location message.timestamp
      color := avatarColor message.userID
      textColor := avatarTextColor message.userID
      initial := initial
      hasAvatar := hasAvatar
      showAvatar := !grouped
      showUsername := !grouped
      showTimestamp := !(grouped && soon)
      dateHeader := dateHeader }

def chatRows (platform : Platform) : Option Client.Broadcast → List Client.Broadcast →
    ServerProgram (Option (List MessageTemplateData))
  | _, [] => pure (some [])
  | previous, message :: rest => do
      match ← chatRow platform previous message with
      | none => return none
      | some row =>
        let rows ← chatRows platform (some message) rest
        return rows.map fun rows => row :: rows

def uncached : List Header :=
  [Response.htmlHeader,
    (utf8 "Cache-Control", utf8 "no-cache, no-store, must-revalidate"),
    (utf8 "Pragma", utf8 "no-cache"),
    (utf8 "Expires", utf8 "0")]

def chatPage (platform : Platform) (userID : ByteString) : ServerProgram Response := do
  match ← store (Store.sync 0 50) with
  | .error _ => return .error (utf8 "Failed to load messages") 500
  | .ok messages =>
    if userID = [] then return .aborted
    else
      let hasAvatar ← store (Store.hasAvatar userID)
      match ← chatRows platform none (messages.map syncedMessage) with
      | none => return .aborted
      | some rows =>
        match profileData userID (utf8 "/settings") hasAvatar with
        | none => return .aborted
        | some profile => return .sent 200 uncached (.chat ⟨rows, profile⟩)

def buildInfo (platform : Platform) : Build where
  version := platform.version
  timestamp := platform.timestamp
  commit := platform.commit

def handleIndexOrLogin (platform : Platform) (request : Request) (identity : Identity) :
    ServerProgram Response := do
  if isMethod "POST" request ∧ request.path = utf8 "/login" then
    handleLoginSubmit platform request
  else if identity.authenticated then chatPage platform identity.userID
  else return .sent 200 [Response.htmlHeader] (.login none (some (buildInfo platform)))

/-! ## The settings page -/

def settingsPage (platform : Platform) (profile : AvatarData) (isAdmin : Bool)
    (users : List UserInfo) (keys : List APIKeyInfoFull) : Response :=
  .sent 200 [Response.htmlHeader]
    (.settings ⟨profile, isAdmin, buildInfo platform, users, keys⟩)

def settingsFor (platform : Platform) (profile : AvatarData) (isAdmin : Bool) :
    ServerProgram Response := do
  if isAdmin then
    match ← store Store.listUsers with
    | .error _ => return .error (utf8 "Failed to load users") 500
    | .ok users =>
      match ← store Store.listAllAPIKeys with
      | .error _ => return .error (utf8 "Failed to load API keys") 500
      | .ok keys =>
        return settingsPage platform profile true (users.map userInfo) (keys.map apiKeyInfo)
  else return settingsPage platform profile false [] []

def handleSettings (platform : Platform) (identity : Identity) : ServerProgram Response := do
  if !identity.authenticated then return .redirect [] (utf8 "/login")
  else if identity.userID = [] then return .aborted
  else
    let hasAvatar ← store (Store.hasAvatar identity.userID)
    match profileData identity.userID (utf8 "/") hasAvatar with
    | none => return .aborted
    | some profile => settingsFor platform profile identity.isAdmin

/-! ## Files -/

def contentTypeOf (types : List (String × String)) (path : ByteString) : Option Header :=
  (types.find? fun type => Bytes.hasSuffix (utf8 type.1) path).map fun type =>
    (utf8 "Content-Type", utf8 type.2)

def staticTypes : List (String × String) :=
  [(".js", "application/javascript"), (".css", "text/css"), (".html", "text/html"),
    (".woff2", "font/woff2"), (".svg", "image/svg+xml"), ("", "application/octet-stream")]

def handleStatic (platform : Platform) (request : Request) : Response :=
  let filePath := Bytes.trimPrefix (utf8 "/static/") request.path
  if filePath = [] ∨ filePath = utf8 "/" then .error (utf8 "File not found") 404
  else
    match platform.staticFile (utf8 "static/" ++ filePath) with
    | none => .error (utf8 "File not found") 404
    | some content => .sent 200 (contentTypeOf staticTypes filePath).toList (.text content)

def emoteTypes : List (String × String) :=
  [(".svg", "image/svg+xml"), (".png", "image/png"), (".gif", "image/gif"),
    (".webp", "image/webp")]

/-- The file that a path below `/emotes/` names, if it may be served. -/
def runtimeEmotePath (emoteDir filename : ByteString) : Option ByteString :=
  if emoteDir = [] then none
  else if filename = [] ∨ Bytes.contains (utf8 "..") filename then none
  else
    let cleaned := Path.clean (Path.join [emoteDir, filename])
    if Bytes.hasPrefix (emoteDir ++ utf8 "/") cleaned ∨ cleaned = emoteDir then some cleaned
    else none

def handleRuntimeEmotes (platform : Platform) (request : Request) : ServerProgram Response := do
  let filename := Bytes.trimPrefix (utf8 "/emotes/") request.path
  match runtimeEmotePath platform.emoteDir filename with
  | none => return .notFound
  | some path =>
    let file ← (Program.call (Op.readFile path) : ServerProgram (Option ByteString))
    return .sent 200 (contentTypeOf emoteTypes filename).toList (.file path file)

/-! ## The server -/

def dispatch (platform : Platform) (request : Request) (identity : Identity) :
    Route → ServerProgram Response
  | .registerUser => registerUser platform request
  | .getInvite => getInvite platform request identity
  | .loginUser => loginUser platform request
  | .changePassword => changePassword platform request identity
  | .sendMessage => sendMessage platform request identity
  | .streamMessages => streamMessages request identity
  | .syncMessages => syncMessages platform request
  | .adminCreateUser => adminCreateUser request identity
  | .adminListAPIKeys => adminListAPIKeys identity
  | .adminCreateAPIKey => adminCreateAPIKey platform request identity
  | .adminRevokeAPIKey keyId => adminRevokeAPIKey platform request identity keyId
  | .index => handleIndexOrLogin platform request identity
  | .register => handleRegisterSubmit platform request
  | .settings => handleSettings platform identity
  | .logout => pure handleLogoutSubmit
  | .staticFiles => pure (handleStatic platform request)
  | .runtimeEmotes => handleRuntimeEmotes platform request
  | .avatarUpload => handleAvatarUpload platform request identity
  | .avatarGet => handleAvatarGet platform request identity
  | .avatarGetUser => handleAvatarGetUser platform request
  | .redirect path =>
      pure (.sent 307 [(utf8 "Location", request.location path)] .empty)

/-- `authMiddleware` around the mux. -/
def serve (platform : Platform) (request : Request) : ServerProgram Response := do
  let identity ← authenticate platform request
  dispatch platform request identity (route platform request)

abbrev ServerConfig := Config Op Op.Result World Request Response

abbrev ServerEvent := Event Request Storage.Choice Happening

abbrev ServerScene := Scene Op Op.Result World

abbrev next (platform : Platform) : ServerConfig → ServerEvent → Option ServerConfig :=
  (machine platform).next (serve platform)

def start (tables : Tables) (clock : Instant) : ServerConfig :=
  Config.start (World.start tables clock)

/-- Tables in which `ann` has an account and the API key `gk_ann`, where a hash
is what it hashes. -/
def annsTables : Tables where
  users := ⟨[⟨utf8 "ann", none, false, none⟩], by decide⟩
  invites := .empty
  messages := .empty
  apiKeys := {
    rows := [(1, ⟨utf8 "ann", utf8 "ann", Bytes.hexEncode (utf8 "gk_ann"), none, 0⟩)]
    last := 1
    ascending := by decide
    bounded := by decide
    last_le := by decide }

end Grunt.Server
