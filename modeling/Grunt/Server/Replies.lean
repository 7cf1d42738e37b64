import Grunt.Client.Printing
import Grunt.Server.Http

/-! # Answers on the wire

The text that `json.Encoder` gives an answer, and what the methods of the client
make of it.
-/

namespace Grunt.Server

open Foundation Json

/-! ## Encoding -/

def encodeObject (members : List ByteString) : ByteString :=
  utf8 "\x7b" ++ commas members ++ utf8 "\x7d"

def encodeArray (values : List ByteString) : ByteString := utf8 "[" ++ commas values ++ utf8 "]"

/-- A `Broadcast` of the API. Every pointer is set, so nothing is left out. -/
def encodeBroadcast (location : Location) (message : Client.Broadcast) : Option ByteString :=
  (Client.marshalTime location message.timestamp).map fun timestamp =>
    encodeObject [Client.member "client_id" (Client.marshalString message.clientID),
      Client.member "content" (Client.marshalString message.content),
      Client.member "id" (Bytes.decimal message.id), Client.member "timestamp" timestamp,
      Client.member "type" (Client.marshalString message.type),
      Client.member "user" (Client.marshalString message.userID)]

def encodeAPIKey (key : APIKeyInfoFull) : Option ByteString :=
  (Client.marshalTime .utc (key.createdAt * Calendar.second)).map fun createdAt =>
    encodeObject ([Client.member "id" (Bytes.decimal key.id),
      Client.member "user_id" (Client.marshalString key.userID)] ++
      (key.name.map fun name => Client.member "name" (Client.marshalString name)).toList ++
      [Client.member "created_at" createdAt])

namespace Document

/-- No document with a year of five digits can be encoded. A slice without keys
is `nil`, one without messages is not. -/
def encode (location : Location) : Document → Option ByteString
  | .message text => some (encodeObject [Client.member "message" (Client.marshalString text)])
  | .invite code expiresAt =>
      (Client.marshalTime location expiresAt).map fun expiresAt =>
        encodeObject [Client.member "code" (Client.marshalString code),
          Client.member "expires_at" expiresAt]
  | .token text => some (encodeObject [Client.member "token" (Client.marshalString text)])
  | .sent id => some (encodeObject [Client.member "id" (Bytes.decimal id)])
  | .broadcasts messages => (messages.mapM (encodeBroadcast location)).map encodeArray
  | .apiKeys keys =>
      if keys = [] then some (utf8 "null") else (keys.mapM encodeAPIKey).map encodeArray
  | .apiKey id secret =>
      some (encodeObject [Client.member "key_id" (Bytes.decimal id),
        Client.member "secret" (Client.marshalString secret)])
  | .status text => some (encodeObject [Client.member "status" (Client.marshalString text)])

/-- What is in the body: a line, or nothing where there was an error. -/
def body (location : Location) (document : Document) : ByteString :=
  match document.encode location with
  | some text => text ++ [Bytes.lineFeed]
  | none => []

theorem body_of_encode {location : Location} {document : Document} {text : ByteString}
    (encoded : document.encode location = some text) :
    document.body location = text ++ [Bytes.lineFeed] := by
  rw [body, encoded]

end Document

section Written

variable {location : Location}

theorem encodeObject_entries {depth : Nat} (members : List (WrittenMember depth)) :
    encodeObject (members.map WrittenMember.entry) = objectText members := by
  have opening : utf8 "\x7b" = [123] := by decide
  have closing : utf8 "\x7d" = [125] := by decide
  rw [encodeObject, opening, closing, objectText]
  rfl

theorem body_objectText {depth : Nat} {document : Document} {members : List (WrittenMember depth)}
    (encoded : document.encode location = some (objectText members))
    (deep : depth + 1 ≤ maxNestingDepth) :
    firstValue (document.body location) = some (objectText members) := by
  have blank : Delimited [Bytes.lineFeed] := by
    rintro byte ⟨⟩
    exact .inr (.inr (.inr (by decide)))
  rw [Document.body_of_encode encoded]
  exact firstValue_written ⟨_, _, Stands.object members⟩ deep blank

theorem readToken_body (token : ByteString) :
    Client.readToken ((Document.token token).body location) = some (Bytes.toValidUTF8 token) := by
  let member := Client.stringMember "token" (Bytes.forall_of_all (by decide)) token
  have encoded : (Document.token token).encode location = some (objectText [member]) := by
    rw [← encodeObject_entries, List.map_singleton, Client.stringMember_entry]
    rfl
  rw [Client.readToken, body_objectText encoded (by decide), Option.bind_some,
    decodeStruct_objectText _ (Nat.zero_le _)]
  change fill [utf8 "token"] (fun _ => storeString) []
    [(utf8 "token", 34 :: (Client.quoteFrom 0 token ++ [34]))] = _
  rw [fill_cons _ (by decide), storeString_quotes (Client.quotes_quoteFrom token)]
  rfl

/-! ## The history -/

end Written

end Grunt.Server
