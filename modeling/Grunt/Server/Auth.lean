import Grunt.Server.Http

/-! # Authentication -/

namespace Grunt.Server

open Foundation

def now : ServerProgram Instant := store Storage.Store.now

/-- The prefix that tells API keys from session tokens. -/
def apiKeyPrefix : ByteString := utf8 "gk_"

/-- Header, cookie and query parameter, in this order. A cookie counts even
when it is empty. -/
def extractToken (request : Request) : ByteString :=
  let bearer := utf8 "Bearer "
  if Bytes.hasPrefix bearer request.authorization ∧
      Bytes.trimPrefix bearer request.authorization ≠ [] then
    Bytes.trimPrefix bearer request.authorization
  else
    match request.tokenCookie with
    | some value => value
    | none => (request.query (utf8 "token")).headD []

def validateAPIKey (platform : Platform) (token : ByteString) :
    ServerProgram (Option ByteString) := do
  match ← store (Storage.Store.getAPIKeyByHash
      (Storage.Store.hashAPIKey platform.toLibraries token)) with
  | .error _ => return none
  | .ok userID => return some userID

def validateSession (token : ByteString) : ServerProgram (Option ByteString) :=
  Program.call (Op.checkToken token)

def validateToken (platform : Platform) (token : ByteString) :
    ServerProgram (Option ByteString) :=
  if Bytes.hasPrefix apiKeyPrefix token then validateAPIKey platform token
  else validateSession token

def tokenLifetime : Int := 24 * Calendar.hour

/-- `Hub.GenerateToken` -/
def generateToken (userID : ByteString) : ServerProgram (Except ByteString ByteString) := do
  match ← (Program.call (Op.nanoid 32) : ServerProgram (Except ByteString ByteString)) with
  | .error error => return .error error
  | .ok token =>
    let issuedAt ← now
    (Program.call (Op.putToken token userID (issuedAt + tokenLifetime)) : ServerProgram Unit)
    return .ok token

/-- What `authMiddleware` puts into the context of a request. -/
structure Identity where
  userID : ByteString
  isAdmin : Bool
  authenticated : Bool
deriving DecidableEq, Repr

namespace Identity

def anonymous : Identity where
  userID := []
  isAdmin := false
  authenticated := false

end Identity

/-- `authMiddleware`, up to the call of the handler. -/
def authenticate (platform : Platform) (request : Request) : ServerProgram Identity := do
  let token := extractToken request
  if token = [] then return .anonymous
  else
    match ← validateToken platform token with
    | none => return .anonymous
    | some userID =>
      let answer ← store (Storage.Store.isUserAdmin userID)
      return ⟨userID, answer.1, true⟩

end Grunt.Server
