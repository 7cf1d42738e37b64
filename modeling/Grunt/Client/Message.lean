import Grunt.Foundation.Calendar

/-! # Messages on the wire

The two structs that travel over the broadcast channel, and the text
`json.Marshal` gives them. Strings are byte strings; where they are not
well-formed UTF-8, `json.Marshal` writes U+FFFD for every malformed byte.
-/

namespace Grunt.Client

open Foundation

/-- A user message sent to all connected clients. -/
structure Broadcast where
  type : ByteString
  id : Nat
  content : ByteString
  clientID : ByteString
  userID : ByteString
  timestamp : Instant
deriving DecidableEq, Repr

/-- A server-to-client notification (join/leave). -/
structure Event where
  type : ByteString
  event : ByteString
  clientID : ByteString
  userID : ByteString
deriving DecidableEq, Repr

/-! ## JSON text -/

/-- A character below 0x80 inside a JSON string. Besides the control
characters, the quote and the backslash, `json.Marshal` escapes the
characters that matter to HTML. -/
def quoteASCII (byte : UInt8) : ByteString :=
  match byte.toNat with
  | 34 => utf8 "\\\""
  | 92 => utf8 "\\\\"
  | 8 => utf8 "\\b"
  | 12 => utf8 "\\f"
  | 10 => utf8 "\\n"
  | 13 => utf8 "\\r"
  | 9 => utf8 "\\t"
  | 38 | 60 | 62 => utf8 "\\u00" ++ Bytes.hexEncode [byte]
  | _ => if byte < 32 then utf8 "\\u00" ++ Bytes.hexEncode [byte] else [byte]

def quoteRune : ByteString → ByteString
  | [byte] => quoteASCII byte
  | [0xE2, 0x80, 0xA8] => utf8 "\\u2028"
  | [0xE2, 0x80, 0xA9] => utf8 "\\u2029"
  | rune => rune

def quoteFrom : Nat → ByteString → ByteString
  | _, [] => []
  | count + 1, _ :: rest => quoteFrom count rest
  | 0, byte :: rest =>
      match Bytes.runeWidth (byte :: rest) with
      | some width => quoteRune ((byte :: rest).take width) ++ quoteFrom (width - 1) rest
      | none => utf8 "\\ufffd" ++ quoteFrom 0 rest

def marshalString (text : ByteString) : ByteString :=
  utf8 "\"" ++ quoteFrom 0 text ++ utf8 "\""

/-- One member of an object, without the comma before it. -/
def member (name : String) (value : ByteString) : ByteString :=
  utf8 "\"" ++ utf8 name ++ utf8 "\":" ++ value

/-- A string member tagged `omitempty`, with the comma before it. -/
def optionalMember (name : String) (value : ByteString) : ByteString :=
  if value = [] then [] else utf8 "," ++ member name (marshalString value)

def marshalTime (location : Location) (instant : Instant) : Option ByteString :=
  if 0 ≤ Calendar.year location instant ∧ Calendar.year location instant ≤ 9999 then
    some (utf8 "\"" ++ Calendar.formatRFC3339Nano location instant ++ utf8 "\"")
  else none

namespace Broadcast

/-- The one field that can fail to marshal is the timestamp. -/
def marshal (location : Location) (message : Broadcast) : Option ByteString :=
  (marshalTime location message.timestamp).map fun timestamp =>
    utf8 "\x7b" ++ member "type" (marshalString message.type) ++
      utf8 "," ++ member "id" (Bytes.decimal message.id) ++
      optionalMember "content" message.content ++
      optionalMember "client_id" message.clientID ++
      optionalMember "user" message.userID ++
      utf8 "," ++ member "timestamp" timestamp ++
      utf8 "\x7d"

/-- What `json.Unmarshal` recovers from the marshalled message. The zone offset
is of whole minutes, so the text gives the instant back. -/
def decoded (message : Broadcast) : Broadcast where
  type := Bytes.toValidUTF8 message.type
  id := message.id
  content := Bytes.toValidUTF8 message.content
  clientID := Bytes.toValidUTF8 message.clientID
  userID := Bytes.toValidUTF8 message.userID
  timestamp := message.timestamp

end Broadcast

namespace Event

def marshal (event : Event) : ByteString :=
  utf8 "\x7b" ++ member "type" (marshalString event.type) ++
    utf8 "," ++ member "event" (marshalString event.event) ++
    utf8 "," ++ member "client_id" (marshalString event.clientID) ++
    utf8 "," ++ member "user" (marshalString event.userID) ++
    utf8 "\x7d"

/-- What `json.Unmarshal` recovers from the marshalled event. -/
def decoded (event : Event) : Event where
  type := Bytes.toValidUTF8 event.type
  event := Bytes.toValidUTF8 event.event
  clientID := Bytes.toValidUTF8 event.clientID
  userID := Bytes.toValidUTF8 event.userID

end Event

example : marshalString [97, 60, 10, 0xFF] = utf8 "\"a\\u003c\\n\\ufffd\"" := by decide

end Grunt.Client
