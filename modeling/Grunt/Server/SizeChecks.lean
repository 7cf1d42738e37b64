import Grunt.Foundation.MediaType
import Grunt.Foundation.UrlEncoded
import Grunt.Server.Handlers

/-! # The size of a message

What is sent is a body in JSON or a form, with its length or without. One
check is on the length of the body, one on what it decodes to, and the parser
of forms has a limit of its own.
-/

namespace Grunt.Server

open Foundation Storage

/-! ## Bodies -/

/-- The largest form that is parsed. -/
def maxFormSize : Nat := 10485760

def formType : ByteString := utf8 "application/x-www-form-urlencoded"

/-- The body of a `POST`, as it is sent. -/
structure Posted where
  contentType : ByteString
  bytes : ByteString
  /-- There is a `Content-Length`, which is that of the body. -/
  declared : Bool

inductive FormError
  | tooLarge
  | malformed
deriving DecidableEq, Repr

namespace Posted

def isJson (posted : Posted) : Bool := Bytes.contains (utf8 "json") posted.contentType

/-- The type of the body, which is `application/octet-stream` where none is given. -/
def mediaType (posted : Posted) : Option ByteString :=
  MediaType.parse
    (if posted.contentType = [] then utf8 "application/octet-stream" else posted.contentType)

/-- `parsePostForm`. A body of another type is left alone. -/
def parsePostForm (posted : Posted) : Except FormError (List (ByteString × ByteString)) :=
  match posted.mediaType with
  | none => .error .malformed
  | some mediaType =>
      if mediaType ≠ formType then .ok []
      else if maxFormSize < posted.bytes.length then .error .tooLarge
      else
        match UrlEncoded.parse posted.bytes with
        | none => .error .malformed
        | some pairs => .ok pairs

/-- `ParseForm`: the pairs of the body and after them those of the query. -/
def parseForm (posted : Posted) (rawQuery : ByteString) :
    Except FormError (List (ByteString × ByteString)) := do
  let pairs ← posted.parsePostForm
  match UrlEncoded.parse rawQuery with
  | none => .error .malformed
  | some query => .ok (pairs ++ query)

/-- The request that arrives. Without a length it is sent in chunks. -/
def request (posted : Posted) (base : Request) : Request :=
  { base with
    method := utf8 "POST"
    contentType := posted.contentType
    contentLength := if posted.declared then posted.bytes.length else -1
    body := {
      json := fun names => Json.decodeStrings names posted.bytes
      form := (posted.parseForm base.rawQuery).toOption.map fun pairs name =>
        (pairs.lookup name).getD []
      avatar := .malformed } }

/-- The content that a body in JSON or a form stands for, however long it is. What
a form does not name is looked up in the query. -/
def content (posted : Posted) (base : Request) : Option ByteString :=
  if posted.isJson then
    (Json.decodeStrings [utf8 "content"] posted.bytes).map fun fields =>
      (fields (utf8 "content")).getD []
  else if posted.mediaType = some formType then do
    let pairs ← UrlEncoded.parse posted.bytes
    let query ← UrlEncoded.parse base.rawQuery
    some (((pairs ++ query).lookup (utf8 "content")).getD [])
  else none

end Posted

/-! ## Checks -/

section Checks

variable {platform : Platform} {posted : Posted} {base : Request} {content : ByteString}

end Checks

/-! ## The main result -/

end Grunt.Server
