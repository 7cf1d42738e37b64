import Grunt.Server.Callers
import Grunt.Server.Replies
import Grunt.Server.SizeChecks

/-! # What the client posts

The bodies that the methods of the client marshal, and what the handlers make of
them.
-/

namespace Grunt.Server

open Foundation Json

/-- `json.Marshal` of a map of strings. It writes the keys in their order. -/
def marshalMap (entries : List (String × ByteString)) : ByteString :=
  encodeObject (entries.map fun entry => Client.member entry.1 (Client.marshalString entry.2))

/-- A `POST` with a body in JSON. -/
def postJSON (path : String) (authorization payload : ByteString) : Request :=
  Posted.request ⟨utf8 "application/json", payload, true⟩
    { Request.plain (utf8 "POST") (utf8 path) .empty with authorization := authorization }

/-- The request of `Register`. -/
def registerRequest (user password inviteCode : ByteString) : Request :=
  postJSON "/api/user" []
    (marshalMap [("invite_code", inviteCode), ("password", password), ("user", user)])

/-- The request of `Login`. -/
def loginRequest (user password : ByteString) : Request :=
  postJSON "/api/user/login" [] (marshalMap [("password", password), ("user", user)])

/-- The request of `SendMessage`. -/
def Authentication.sendRequest (authentication : Authentication) (content : ByteString) :
    Request :=
  postJSON "/api/chat/message" authentication.authorization (marshalMap [("content", content)])

section Requests

variable {platform : Platform} {user password inviteCode content : ByteString}

theorem route_loginRequest : route platform (loginRequest user password) = .loginUser := by
  have clean : cleanPath (utf8 "/api/user/login") = utf8 "/api/user/login" := by decide
  rw [route]
  exact (if_pos clean).trans rfl

theorem route_sendRequest (authentication : Authentication) :
    route platform (authentication.sendRequest content) = .sendMessage := by
  have clean : cleanPath (utf8 "/api/chat/message") = utf8 "/api/chat/message" := by decide
  rw [route]
  exact (if_pos clean).trans rfl

theorem decodeStrings_objectText {names : List ByteString} (members : List (WrittenMember 0)) :
    decodeStrings names (objectText members) =
      (members.map WrittenMember.pair).foldlM (storeMember names) fun _ => none := by
  rw [decodeStrings, read_written ⟨_, _, Stands.object members⟩ (by decide)]

theorem jsonFields_postJSON {path : String} {authorization : ByteString}
    {names : List ByteString} (members : List (WrittenMember 0)) :
    jsonFields (postJSON path authorization (objectText members)) names =
      ((members.map WrittenMember.pair).foldlM (storeMember names) fun _ => none).map
        fun fields name => (fields name).getD [] := by
  rw [← decodeStrings_objectText]
  rfl

theorem jsonFields_loginRequest (user password : ByteString) :
    ∃ field, jsonFields (loginRequest user password) [utf8 "password", utf8 "user"] = some field ∧
      field (utf8 "user") = Bytes.toValidUTF8 user ∧
      field (utf8 "password") = Bytes.toValidUTF8 password := by
  let members := [Client.stringMember "password" (Bytes.forall_of_all (by decide)) password,
    Client.stringMember "user" Client.plain_user user]
  have payload : marshalMap [("password", password), ("user", user)] = objectText members := by
    rw [← encodeObject_entries, List.map_cons, List.map_singleton, Client.stringMember_entry,
      Client.stringMember_entry]
    rfl
  rw [loginRequest, payload, jsonFields_postJSON]
  exact ⟨_, rfl, rfl, rfl⟩

theorem bodyFields_sendRequest (authentication : Authentication) (content : ByteString) :
    ∃ field, bodyFields (authentication.sendRequest content) [utf8 "content"] = some field ∧
      field (utf8 "content") = Bytes.toValidUTF8 content := by
  have isJson : (authentication.sendRequest content).isJson = true := by
    change Bytes.contains (utf8 "json") (utf8 "application/json") = true
    decide
  have payload : marshalMap [("content", content)] =
      objectText [Client.stringMember "content" Client.plain_content content] := by
    rw [← encodeObject_entries, List.map_singleton, Client.stringMember_entry]
    rfl
  rw [bodyFields, if_pos isJson, Authentication.sendRequest, payload, jsonFields_postJSON]
  exact ⟨_, rfl, rfl⟩

theorem extractToken_sendRequest {token : ByteString} (issued : token ≠ []) :
    extractToken (Authentication.sendRequest ⟨[], token⟩ content) = token := by
  have header : (Authentication.sendRequest ⟨[], token⟩ content).authorization =
      utf8 "Bearer " ++ token := by
    change Authentication.authorization ⟨[], token⟩ = _
    rw [Authentication.authorization, if_neg (by simp), if_pos issued]
  have marked : Bytes.hasPrefix (utf8 "Bearer ") (utf8 "Bearer " ++ token) = true :=
    Bytes.hasPrefix_append _ _
  have trimmed : Bytes.trimPrefix (utf8 "Bearer ") (utf8 "Bearer " ++ token) = token := by
    rw [Bytes.trimPrefix, if_pos marked, List.drop_left]
  rw [extractToken, header, if_pos ⟨marked, by rwa [trimmed]⟩, trimmed]

end Requests

end Grunt.Server
