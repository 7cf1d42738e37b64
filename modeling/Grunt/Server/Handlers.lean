import Grunt.Server.Auth

/-! # The handlers of the API

Every handler as a program. It is given the request and the identity that
`authMiddleware` found.
-/

namespace Grunt.Server

open Foundation Storage

def jsonFields (request : Request) (names : List ByteString) :
    Option (ByteString → ByteString) :=
  (request.body.json names).map fun fields name => (fields name).getD []

def bodyFields (request : Request) (names : List ByteString) :
    Option (ByteString → ByteString) :=
  if request.isJson then jsonFields request names else request.body.form

def htmxError (request : Request) (fragment message : String) (status : Nat) : Response :=
  if request.isHTMXRequest then
    .fragment (utf8 "<p class=\"error\">" ++ utf8 fragment ++ utf8 "</p>")
  else .apiError message status

/-! ## Registration -/

def setFirstAdmin (user : ByteString) : ServerProgram Unit := do
  match ← store Store.createUserCount with
  | .ok 1 =>
    let _ ← store (Store.setUserAdmin user)
    return ()
  | _ => return ()

def isDuplicateUser (error : ByteString) : Bool :=
  Bytes.contains (utf8 "UNIQUE constraint") error

def registrationFailed (error : ByteString) : Response :=
  if isDuplicateUser error then .sent 409 [] (.json (.message (utf8 "user already exists")))
  else .error (Response.errorText (escapeString error)) 401

def registerUser (platform : Platform) (request : Request) : ServerProgram Response := do
  match jsonFields request [utf8 "user", utf8 "password", utf8 "invite_code"] with
  | none => return .apiError "missing user or password field" 400
  | some field =>
    let user := field (utf8 "user")
    let password := field (utf8 "password")
    if user = [] ∨ password = [] then return .apiError "user and password are required" 400
    else
      match ← store (Store.registerWithInvite platform.toLibraries
          (field (utf8 "invite_code")) user password) with
      | .error error => return registrationFailed error
      | .ok _ =>
        setFirstAdmin user
        return .sent 201 [] (.json (.message (utf8 "user created")))

/-! ## Invites -/

def inviteFragment (platform : Platform) (code : ByteString) (expiresAt : Instant) :
    ByteString :=
  utf8 "<p class=\"success\">New invite code: <strong>" ++ escapeString code ++
    utf8 "</strong> — expires " ++
    escapeString (Calendar.formatDateClock platform.location expiresAt) ++ utf8 "</p>"

def getInvite (platform : Platform) (request : Request) (identity : Identity) :
    ServerProgram Response := do
  if !identity.authenticated then return .apiError "unauthorized" 401
  else
    match ← (Program.call (Op.random 8) : ServerProgram (Except ByteString ByteString)) with
    | .error _ =>
      return htmxError request "Failed to generate invite code."
        "failed to generate invite code" 500
    | .ok bytes =>
      let code := Bytes.hexEncode bytes
      let issuedAt ← now
      let expiresAt := issuedAt + World.inviteLifetime
      match ← store (Store.createInvite code expiresAt identity.userID) with
      | .error _ =>
        return htmxError request "Failed to create invite code."
          "failed to create invite code" 500
      | .ok _ =>
        if request.isHTMXRequest then
          return .fragment (inviteFragment platform code expiresAt)
        else return .ok (.json (.invite code expiresAt))

/-! ## Passwords -/

def loginUser (platform : Platform) (request : Request) : ServerProgram Response := do
  match jsonFields request [utf8 "password", utf8 "user"] with
  | none => return .apiError "missing user or password field" 400
  | some field =>
    let user := field (utf8 "user")
    match ← store (Store.verifyUser platform.toLibraries user (field (utf8 "password"))) with
    | .error _ => return .apiError "failed to verify user" 500
    | .ok false => return .apiError "invalid credentials" 401
    | .ok true =>
      match ← generateToken user with
      | .error _ => return .apiError "failed to generate token" 500
      | .ok token => return .ok (.json (.token token))

def changePassword (platform : Platform) (request : Request) (identity : Identity) :
    ServerProgram Response := do
  match bodyFields request [utf8 "current_password", utf8 "new_password"] with
  | none =>
    return .apiError
      (if request.isJson then "missing current_password or new_password field"
        else "invalid request body") 400
  | some field =>
    let currentPassword := field (utf8 "current_password")
    let newPassword := field (utf8 "new_password")
    if currentPassword = [] ∨ newPassword = [] then
      return .apiError "current_password and new_password are required" 400
    else if identity.userID = [] then return .apiError "unauthorized" 401
    else
      match ← store (Store.changePassword platform.toLibraries identity.userID
          currentPassword newPassword) with
      | .error error =>
        if Bytes.contains (utf8 "incorrect") error then
          return .apiError "current password is incorrect" 401
        else return .apiError "failed to change password" 500
      | .ok _ => return .ok (.json (.message (utf8 "password changed")))

/-! ## Messages -/

/-- The parameters of `SyncMessages`, or the error for the one that is malformed. -/
def syncParameters (platform : Platform) (request : Request) :
    Except Response (Option Int × Option Int) :=
  let malformed := fun (name : String) (error : ByteString) =>
    Response.error (utf8 "Invalid format for parameter " ++ utf8 name ++ utf8 ": " ++ error) 400
  match platform.bindQueryInt64 (request.query (utf8 "since")) with
  | .error error => .error (malformed "since" error)
  | .ok since =>
    match platform.bindQueryInt64 (request.query (utf8 "last")) with
    | .error error => .error (malformed "last" error)
    | .ok last => .ok (since, last)

def syncMessages (platform : Platform) (request : Request) : ServerProgram Response := do
  match syncParameters platform request with
  | .error response => return response
  | .ok (since, last) =>
    match ← store (Store.sync (since.getD 0) (last.getD 0)) with
    | .error _ => return .apiError "failed to sync messages" 500
    | .ok rows =>
      return .sent 200 [Response.jsonHeader] (.json (.broadcasts (rows.map syncedMessage)))

def maxMessageLength : Nat := 10240

def saveAndBroadcast (platform : Platform) (userID content : ByteString) :
    ServerProgram Response := do
  let timestamp ← now
  match ← store (Store.save ⟨content, [], userID, timestamp⟩) with
  | .error _ => return .apiError "failed to save message" 500
  | .ok id =>
    let broadcast : Client.Broadcast := ⟨utf8 "message", id, content, [], userID, timestamp⟩
    match broadcast.marshal platform.location with
    | none => return .apiError "failed to broadcast message" 500
    | some data =>
      (Program.call (Op.broadcast ⟨data, .message broadcast.decoded⟩) : ServerProgram Unit)
      return .sent 200 [Response.jsonHeader] (.json (.sent id))

def sendMessage (platform : Platform) (request : Request) (identity : Identity) :
    ServerProgram Response := do
  if maxMessageLength < request.contentLength then return .apiError "content too large" 413
  else
    match bodyFields request [utf8 "content"] with
    | none => return .apiError "invalid request body" 400
    | some field =>
      let content := field (utf8 "content")
      if content = [] then return .apiError "content is required" 400
      else if maxMessageLength < content.length then
        return .apiError "content exceeds maximum length" 413
      else if identity.userID = [] then return .apiError "unauthorized" 401
      else saveAndBroadcast platform identity.userID content

/-- `Hub.HandleSSEStream` -/
def streamMessages (request : Request) (identity : Identity) : ServerProgram Response := do
  if request.accept ≠ [] ∧ !Bytes.contains (utf8 "text/event-stream") request.accept then
    return .apiError "SSE not supported" 400
  else if !identity.authenticated then return .apiError "unauthorized" 401
  else
    match ← (Program.call (Op.nanoid 16) : ServerProgram (Except ByteString ByteString)) with
    | .error _ => return .apiError "failed to generate client ID" 500
    | .ok clientID =>
      (Program.call (Op.register ⟨clientID, identity.userID,
        (request.query (utf8 "format")).headD [] = utf8 "html"⟩) : ServerProgram Unit)
      (Program.call Op.writePump : ServerProgram Unit)
      return .sent 200
        [(utf8 "Content-Type", utf8 "text/event-stream"), (utf8 "Cache-Control", utf8 "no-cache"),
          (utf8 "Connection", utf8 "keep-alive"), (utf8 "Access-Control-Allow-Origin", utf8 "*")]
        .stream

/-! ## Administration -/

def renderUsersList (users : List UserInfo) : ByteString :=
  if users = [] then utf8 "<p style=\"color: #888; margin-top: 0.5rem;\">No users found.</p>"
  else users.flatMap fun user =>
    utf8 "<div class=\"user-row\"><span>" ++ escapeString user.username ++ utf8 "</span>" ++
      (if user.isAdmin then utf8 "<span class=\"badge admin\">Admin</span>"
        else utf8 "<span class=\"badge user\">User</span>") ++
      utf8 "</div>"

def revokeButton (id : Nat) : ByteString :=
  utf8 "<td><button type=\"button\" hx-delete=\"/api/admin/api-keys/" ++ Bytes.decimal id ++
    utf8 "\" hx-target=\"#keys-table-container\" hx-swap=\"innerHTML\" hx-headers='" ++
    utf8 "\x7b\"Accept\": \"text/html\"\x7d' onclick=\"if(!confirm('Revoke this key?'))" ++
    utf8 "event.preventDefault()\">Revoke</button></td>"

/-- `CURRENT_TIMESTAMP` is in UTC. -/
def renderKeyRow (key : APIKeyInfoFull) : ByteString :=
  let createdAt := key.createdAt * Calendar.second
  utf8 "<tr><td>" ++ Bytes.decimal key.id ++ utf8 "</td><td>" ++ escapeString key.userID ++
    utf8 "</td><td>" ++
    (match key.name with
      | some name => escapeString name
      | none => utf8 "—") ++
    utf8 "</td><td>" ++
    (if createdAt = Calendar.zeroTime then utf8 "unknown"
      else Calendar.formatDateClock .utc createdAt) ++
    utf8 "</td>" ++ revokeButton key.id ++ utf8 "</tr>"

def renderKeyTableHTML (keys : List APIKeyInfoFull) : ByteString :=
  if keys = [] then
    utf8 "<p style=\"color: #888; margin-top: 0.5rem;\">No API keys created.</p>"
  else
    utf8 "<table><thead><tr><th>ID</th><th>User</th><th>Name</th><th>Created</th>" ++
      utf8 "<th></th></tr></thead><tbody>" ++ keys.flatMap renderKeyRow ++
      utf8 "</tbody></table>"

def adminCreateUser (request : Request) (identity : Identity) : ServerProgram Response := do
  if !identity.isAdmin then return .apiError "forbidden" 403
  else
    match bodyFields request [utf8 "user"] with
    | none =>
      return (if request.isJson then .apiError "invalid request body" 400
        else htmxError request "Invalid request body." "invalid request body" 400)
    | some field =>
      let user := field (utf8 "user")
      if user = [] then return .apiError "user is required" 400
      else
        match ← store (Store.createUserNoPassword user) with
        | .error _ => return .apiError "failed to create user" 500
        | .ok _ =>
          if request.isHTMXRequest then
            match ← store Store.listUsers with
            | .error _ =>
              return .fragment (utf8 "<p class=\"error\">Failed to reload users.</p>")
            | .ok users => return .fragment (renderUsersList (users.map userInfo))
          else return .sent 201 [] (.json (.message (utf8 "user created")))

def adminListAPIKeys (identity : Identity) : ServerProgram Response := do
  if !identity.isAdmin then return .apiError "forbidden" 403
  else
    match ← store Store.listAllAPIKeys with
    | .error _ => return .apiError "failed to list API keys" 500
    | .ok keys =>
      return .sent 200 [Response.jsonHeader] (.json (.apiKeys (keys.map apiKeyInfo)))

def reloadKeys (above : ByteString) : ServerProgram Response := do
  match ← store Store.listAllAPIKeys with
  | .error _ => return .fragment (utf8 "<p class=\"error\">Failed to reload keys.</p>")
  | .ok keys => return .fragment (above ++ renderKeyTableHTML (keys.map apiKeyInfo))

/-- `generateAPIKey` of the random bytes. -/
def apiKeyOf (bytes : ByteString) : ByteString := apiKeyPrefix ++ Bytes.hexEncode bytes

def newKeyFragment (rawKey name : ByteString) (keyID : Nat) : ByteString :=
  utf8 "<div class=\"success\"><strong>New API Key (shown once):</strong><br>" ++
    escapeString rawKey ++ utf8 "<br><small>ID: " ++ Bytes.decimal keyID ++ utf8 ", Name: " ++
    escapeString name ++ utf8 "</small></div>"

def createKey (platform : Platform) (request : Request) (adminID userID name : ByteString) :
    ServerProgram Response := do
  match ← (Program.call (Op.random 32) : ServerProgram (Except ByteString ByteString)) with
  | .error _ =>
    return htmxError request "Failed to generate API key." "failed to generate API key" 500
  | .ok bytes =>
    let rawKey := apiKeyOf bytes
    match ← store (Store.createAPIKey userID adminID
        (Store.hashAPIKey platform.toLibraries rawKey) name) with
    | .error _ =>
      return htmxError request "Failed to create API key." "failed to create API key" 500
    | .ok keyID =>
      if request.isHTMXRequest then reloadKeys (newKeyFragment rawKey name keyID)
      else return .sent 201 [] (.json (.apiKey keyID rawKey))

def adminCreateAPIKey (platform : Platform) (request : Request) (identity : Identity) :
    ServerProgram Response := do
  if !identity.isAdmin then return .apiError "forbidden" 403
  else
    match bodyFields request [utf8 "name", utf8 "user_id"] with
    | none => return htmxError request "Invalid request body." "invalid request body" 400
    | some field =>
      if field (utf8 "user_id") = [] then
        return htmxError request "User ID is required." "user_id is required" 400
      else
        createKey platform request identity.userID (field (utf8 "user_id"))
          (field (utf8 "name"))

def adminRevokeAPIKey (platform : Platform) (request : Request) (identity : Identity)
    (keyId : ByteString) : ServerProgram Response := do
  match platform.bindPathInt64 keyId with
  | .error error =>
    return .error (utf8 "Invalid format for parameter keyId: " ++ error) 400
  | .ok keyID =>
    if !identity.isAdmin then return .apiError "forbidden" 403
    else
      match ← store (Store.revokeAPIKey keyID) with
      | .error _ =>
        return htmxError request "Failed to revoke API key." "failed to revoke API key" 500
      | .ok _ =>
        if request.isHTMXRequest then reloadKeys []
        else
          return .sent 200 [Response.jsonHeader]
            (.json (.message (utf8 "API key revoked")))

/-! ## Avatars -/

def maxUpload : Nat := 2 * 2 ^ 20

def handleAvatarUpload (platform : Platform) (request : Request) (identity : Identity) :
    ServerProgram Response := do
  if identity.userID = [] then return .apiError "unauthorized" 401
  else
    match request.body.avatar with
    | .malformed => return .apiError "invalid upload — max 2MB" 400
    | .missing => return .apiError "no avatar file provided" 400
    | .file bytes =>
      match Avatars.processAvatar platform.images bytes maxUpload with
      | .error error => return .error (Response.errorText (escapeString error)) 400
      | .ok png =>
        match ← store (Store.setAvatar identity.userID png) with
        | .error _ => return .apiError "failed to save avatar" 500
        | .ok _ =>
          if request.isHTMXRequest then
            return .fragment (utf8 "<p class=\"success\">Profile picture updated.</p>")
          else return .ok (.json (.status (utf8 "ok")))

def serveAvatar (platform : Platform) (request : Request) (userID : ByteString) :
    ServerProgram Response := do
  match ← store (Store.getAvatar userID) with
  | .error _ => return .apiError "no avatar" 404
  | .ok avatar =>
    if avatar = [] then return .apiError "no avatar" 404
    else
      let etag := utf8 "\"sha256-" ++ Bytes.hexEncode (platform.sha256 avatar) ++ utf8 "\""
      if request.ifNoneMatch = etag then return .sent 304 [] .empty
      else
        return .sent 200
          [(utf8 "Content-Type", utf8 "image/png"),
            (utf8 "Cache-Control", utf8 "private, max-age=0, must-revalidate"),
            (utf8 "ETag", etag)]
          (.text avatar)

def handleAvatarGet (platform : Platform) (request : Request) (identity : Identity) :
    ServerProgram Response := do
  if identity.userID = [] then return .apiError "unauthorized" 401
  else serveAvatar platform request identity.userID

def handleAvatarGetUser (platform : Platform) (request : Request) :
    ServerProgram Response := do
  let userID := Bytes.trimPrefix (utf8 "/api/user/avatar/") request.path
  if userID = [] then return .apiError "user ID required" 400
  else serveAvatar platform request userID

end Grunt.Server
