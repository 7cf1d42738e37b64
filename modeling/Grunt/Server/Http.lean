import Grunt.Foundation.Path
import Grunt.Server.Machine

/-! # Requests, responses and routes

A request is what `net/http` has made of the bytes it received, with the body
in the forms in which handlers ask for it. A response is what a handler
writes; where a template or `encoding/json` turns a value into text, it is
that value.
-/

namespace Grunt.Server

open Foundation

/-! ## Requests -/

/-- The file in the form field `avatar`. -/
inductive AvatarUpload
  /-- `ParseMultipartForm` fails. -/
  | malformed
  /-- `FormFile` finds none. -/
  | missing
  | file (bytes : ByteString)

structure Body where
  /-- What `Decode` leaves in a struct with these string fields. -/
  json : List ByteString → Option (ByteString → Option ByteString)
  /-- `FormValue`, where `ParseForm` succeeds. -/
  form : Option (ByteString → ByteString)
  avatar : AvatarUpload

namespace Body

def empty : Body where
  json := fun _ => none
  form := some fun _ => []
  avatar := .malformed

def ofForm (fields : List (ByteString × ByteString)) : Body where
  json := fun _ => none
  form := some fun name => (fields.lookup name).getD []
  avatar := .malformed

def ofJson (fields : List (ByteString × ByteString)) : Body where
  json := fun names => some fun name => if name ∈ names then fields.lookup name else none
  form := some fun _ => []
  avatar := .malformed

end Body

structure Request where
  method : ByteString
  /-- `r.URL.Path` -/
  path : ByteString
  /-- `r.URL.EscapedPath()` -/
  escapedPath : ByteString
  rawQuery : ByteString
  query : ByteString → List ByteString
  authorization : ByteString
  tokenCookie : Option ByteString
  accept : ByteString
  contentType : ByteString
  hxRequest : ByteString
  ifNoneMatch : ByteString
  contentLength : Int
  body : Body

namespace Request

/-- A request for a plain path, without headers. -/
def plain (method path : ByteString) (body : Body) : Request where
  method := method
  path := path
  escapedPath := path
  rawQuery := []
  query := fun _ => []
  authorization := []
  tokenCookie := none
  accept := []
  contentType := []
  hxRequest := []
  ifNoneMatch := []
  contentLength := 0
  body := body

def bearing (request : Request) (token : String) : Request :=
  { request with authorization := utf8 "Bearer " ++ utf8 token }

/-- The text of a URL with this path and the query of the request. -/
def location (request : Request) (path : ByteString) : ByteString :=
  if request.rawQuery = [] then Path.escape path
  else Path.escape path ++ utf8 "?" ++ request.rawQuery

def isHTMXRequest (request : Request) : Bool := request.hxRequest = utf8 "true"

def isJson (request : Request) : Bool := Bytes.contains (utf8 "json") request.contentType

end Request

/-! ## Responses -/

structure UserInfo where
  username : ByteString
  isAdmin : Bool
deriving DecidableEq, Repr

structure APIKeyInfoFull where
  id : Nat
  userID : ByteString
  name : Option ByteString
  createdAt : Int
deriving DecidableEq, Repr

def userInfo (row : Storage.UserRow) : UserInfo where
  username := row.user
  isAdmin := row.isAdmin

def apiKeyInfo (entry : Nat × Storage.APIKeyRow) : APIKeyInfoFull where
  id := entry.1
  userID := entry.2.userID
  name := entry.2.name
  createdAt := entry.2.createdAt

/-- A message as `Sync` returns it. -/
def syncedMessage (entry : Nat × Storage.MessageRow) : Client.Broadcast where
  type := []
  id := entry.1
  content := entry.2.content
  clientID := entry.2.clientID
  userID := entry.2.user
  timestamp := entry.2.timestamp

/-- The values that are encoded as JSON. -/
inductive Document
  | message (message : ByteString)
  | invite (code : ByteString) (expiresAt : Instant)
  | token (token : ByteString)
  | sent (id : Nat)
  | broadcasts (messages : List Client.Broadcast)
  | apiKeys (keys : List APIKeyInfoFull)
  | apiKey (id : Nat) (secret : ByteString)
  | status (status : ByteString)
deriving DecidableEq, Repr

/-- `grunt.Version` and its companions. -/
structure Build where
  version : ByteString
  timestamp : ByteString
  commit : ByteString
deriving DecidableEq, Repr

structure SettingsData where
  profile : AvatarData
  isAdmin : Bool
  build : Build
  users : List UserInfo
  keys : List APIKeyInfoFull
deriving DecidableEq, Repr

inductive Content
  | empty
  | text (bytes : ByteString)
  | json (document : Document)
  | login (error : Option ByteString) (build : Option Build)
  | chat (data : ChatData)
  | settings (data : SettingsData)
  /-- `http.ServeFile` -/
  | file (path : ByteString) (bytes : Option ByteString)
  /-- What the write pump of the request has written. -/
  | stream
deriving DecidableEq, Repr

abbrev Header := ByteString × ByteString

inductive Response
  | sent (status : Nat) (headers : List Header) (content : Content)
  /-- The handler panicked. -/
  | aborted
deriving DecidableEq, Repr

namespace Response

def ok (content : Content) : Response := .sent 200 [] content

/-- `http.Error` -/
def error (message : ByteString) (status : Nat) : Response :=
  .sent status
    [(utf8 "Content-Type", utf8 "text/plain; charset=utf-8"),
      (utf8 "X-Content-Type-Options", utf8 "nosniff")]
    (.text (message ++ utf8 "\n"))

/-- An object with one member `error`. -/
def errorText (message : ByteString) : ByteString :=
  utf8 "\x7b\"error\":\"" ++ message ++ utf8 "\"\x7d"

def apiError (message : String) (status : Nat) : Response :=
  error (errorText (utf8 message)) status

def htmlHeader : Header := (utf8 "Content-Type", utf8 "text/html")

def jsonHeader : Header := (utf8 "Content-Type", utf8 "application/json")

def fragment (text : ByteString) : Response := .sent 200 [htmlHeader] (.text text)

/-- `http.Redirect` with `StatusFound`. -/
def redirect (headers : List Header) (location : ByteString) : Response :=
  .sent 302 (headers ++ [(utf8 "Location", location)]) .empty

/-- `http.NotFound` -/
def notFound : Response := error (utf8 "404 page not found") 404

end Response

/-! ## Routes -/

/-- `cleanPath` of `net/http`: a trailing slash is kept. -/
def cleanPath (path : ByteString) : ByteString :=
  let rooted := if Path.isRooted path then path else Path.slash :: path
  let cleaned := Path.clean rooted
  if rooted.getLast? = some Path.slash ∧ cleaned ≠ [Path.slash] then cleaned ++ [Path.slash]
  else cleaned

def pathSegments (path : ByteString) : List ByteString :=
  (Path.components (path.drop 1)).map fun segment => (Path.unescape segment).getD segment

inductive Route
  | registerUser
  | getInvite
  | loginUser
  | changePassword
  | sendMessage
  | streamMessages
  | syncMessages
  | adminCreateUser
  | adminListAPIKeys
  | adminCreateAPIKey
  | adminRevokeAPIKey (keyId : ByteString)
  | index
  | register
  | settings
  | logout
  | staticFiles
  | runtimeEmotes
  | avatarUpload
  | avatarGet
  | avatarGetUser
  | redirect (path : ByteString)
deriving DecidableEq, Repr

def isMethod (method : String) (request : Request) : Bool := request.method = utf8 method

/-- A pattern for `GET` matches `HEAD` as well. -/
def isGet (request : Request) : Bool := isMethod "GET" request || isMethod "HEAD" request

/-- The routes below `/api`, by method; what matches none is the index page. -/
def apiRoute (request : Request) (segments : List ByteString) : Route :=
  if segments = [utf8 "api", utf8 "user"] ∧ isMethod "POST" request then .registerUser
  else if segments = [utf8 "api", utf8 "user", utf8 "invite"] ∧ isGet request then .getInvite
  else if segments = [utf8 "api", utf8 "user", utf8 "login"] ∧ isMethod "POST" request then
    .loginUser
  else if segments = [utf8 "api", utf8 "user", utf8 "password"] ∧ isMethod "POST" request then
    .changePassword
  else if segments = [utf8 "api", utf8 "chat", utf8 "message"] ∧ isMethod "POST" request then
    .sendMessage
  else if segments = [utf8 "api", utf8 "chat", utf8 "stream"] ∧ isGet request then
    .streamMessages
  else if segments = [utf8 "api", utf8 "chat", utf8 "sync"] ∧ isGet request then .syncMessages
  else if segments = [utf8 "api", utf8 "admin", utf8 "users"] ∧ isMethod "POST" request then
    .adminCreateUser
  else if segments = [utf8 "api", utf8 "admin", utf8 "api-keys"] ∧ isGet request then
    .adminListAPIKeys
  else if segments = [utf8 "api", utf8 "admin", utf8 "api-keys"] ∧
      isMethod "POST" request then .adminCreateAPIKey
  else if segments = [utf8 "api", utf8 "user", utf8 "avatar"] ∧ isMethod "POST" request then
    .avatarUpload
  else if segments = [utf8 "api", utf8 "user", utf8 "avatar"] ∧ isGet request then .avatarGet
  else
    match segments with
    | [one, two, three, keyId] =>
        if [one, two, three] = [utf8 "api", utf8 "admin", utf8 "api-keys"] ∧ keyId ≠ [] ∧
            isMethod "DELETE" request then .adminRevokeAPIKey keyId
        else if [one, two, three] = [utf8 "api", utf8 "user", utf8 "avatar"] ∧
            isGet request then .avatarGetUser
        else .index
    | one :: two :: three :: _ :: _ =>
        if [one, two, three] = [utf8 "api", utf8 "user", utf8 "avatar"] ∧ isGet request then
          .avatarGetUser
        else .index
    | _ => .index

def muxRoute (platform : Platform) (request : Request) : Route :=
  match pathSegments request.escapedPath with
  | [single] =>
      if single = utf8 "register" then .register
      else if single = utf8 "settings" then .settings
      else if single = utf8 "logout" then .logout
      else if single = utf8 "static" then .redirect (utf8 "/static/")
      else if single = utf8 "emotes" ∧ platform.watchesEmotes then .redirect (utf8 "/emotes/")
      else .index
  | first :: rest =>
      if first = utf8 "static" then .staticFiles
      else if first = utf8 "emotes" ∧ platform.watchesEmotes then .runtimeEmotes
      else apiRoute request (first :: rest)
  | [] => .index

def route (platform : Platform) (request : Request) : Route :=
  if cleanPath request.escapedPath = request.escapedPath then muxRoute platform request
  else .redirect (cleanPath request.escapedPath)

end Grunt.Server
