import Grunt.Client.Quoting
import Grunt.Foundation.JsonFields
import Grunt.Foundation.Rfc3339

/-! # Messages off the wire

The structs of the wire as `json.Unmarshal` fills them in, and what it makes of
what `json.Marshal` has written.
-/

namespace Grunt.Client

open Foundation Json

/-- What `time.Parse` makes of a text in its general way, which it comes to
where the parser of its own for RFC 3339 gives up. -/
abbrev GeneralParse := ByteString → Option (Instant × Int)

/-- `Time.UnmarshalJSON`. The text between the quotes is taken as it stands. -/
def storeTime (general : GeneralParse) (raw : ByteString) (held : Instant × Int) :
    Option (Instant × Int) :=
  match read raw with
  | some (.null, _) => some held
  | some (.string _, _) =>
      match Calendar.readRFC3339 (raw.drop 1).dropLast with
      | some time => some time
      | none => general (raw.drop 1).dropLast
  | _ => none

/-! ## Broadcasts -/

/-- A `Broadcast` on the receiving side. Its timestamp keeps the offset that was
written. -/
structure Received where
  type : ByteString
  id : Int
  content : ByteString
  clientID : ByteString
  userID : ByteString
  timestamp : Instant × Int
deriving DecidableEq, Repr

namespace Received

def zero : Received where
  type := []
  id := 0
  content := []
  clientID := []
  userID := []
  timestamp := (Calendar.zeroTime, 0)

def names : List ByteString :=
  [utf8 "type", utf8 "id", utf8 "content", utf8 "client_id", utf8 "user", utf8 "timestamp"]

def store (general : GeneralParse) (field raw : ByteString) (held : Received) :
    Option Received :=
  if field = utf8 "type" then
    (storeString raw held.type).map fun type => { held with type }
  else if field = utf8 "id" then
    (storeInt raw held.id).map fun id => { held with id }
  else if field = utf8 "content" then
    (storeString raw held.content).map fun content => { held with content }
  else if field = utf8 "client_id" then
    (storeString raw held.clientID).map fun clientID => { held with clientID }
  else if field = utf8 "user" then
    (storeString raw held.userID).map fun userID => { held with userID }
  else
    (storeTime general raw held.timestamp).map fun timestamp => { held with timestamp }

def decode (general : GeneralParse) (raw : ByteString) : Option Received :=
  decodeStruct names (store general) zero raw

def unmarshal (general : GeneralParse) (data : ByteString) : Option Received :=
  (wholeValue data).bind (decode general)

def ofBroadcast (message : Broadcast) (offset : Int) : Received where
  type := message.type
  id := message.id
  content := message.content
  clientID := message.clientID
  userID := message.userID
  timestamp := (message.timestamp, offset)

end Received

/-! ## Events, errors and the envelope -/

namespace Event

def zero : Event := ⟨[], [], [], []⟩

def names : List ByteString := [utf8 "type", utf8 "event", utf8 "client_id", utf8 "user"]

def store (field raw : ByteString) (held : Event) : Option Event :=
  if field = utf8 "type" then
    (storeString raw held.type).map fun type => { held with type }
  else if field = utf8 "event" then
    (storeString raw held.event).map fun event => { held with event }
  else if field = utf8 "client_id" then
    (storeString raw held.clientID).map fun clientID => { held with clientID }
  else (storeString raw held.userID).map fun userID => { held with userID }

def unmarshal (data : ByteString) : Option Event :=
  (wholeValue data).bind (decodeStruct names store zero)

end Event

/-- A server-to-client error notification. -/
structure Error where
  type : ByteString
  message : ByteString
deriving DecidableEq, Repr

namespace Error

def store (field raw : ByteString) (held : Error) : Option Error :=
  if field = utf8 "type" then
    (storeString raw held.type).map fun type => { held with type }
  else (storeString raw held.message).map fun message => { held with message }

def unmarshal (data : ByteString) : Option Error :=
  (wholeValue data).bind (decodeStruct [utf8 "type", utf8 "message"] store ⟨[], []⟩)

end Error

def unmarshalType (data : ByteString) : Option ByteString :=
  (wholeValue data).bind (decodeStruct [utf8 "type"] (fun _ => storeString) [])

/-! ## Answers -/

/-- The token that `Login` takes from the body of an answer. -/
def readToken (body : ByteString) : Option ByteString :=
  (firstValue body).bind (decodeStruct [utf8 "token"] (fun _ => storeString) [])

section Members

variable {name : String}

theorem quotes_name (named : ∀ byte ∈ utf8 name, Plain byte) :
    Quotes (utf8 name) (utf8 name) :=
  fun _ => readString_plain named

theorem marshalString_eq (text : ByteString) :
    marshalString text = 34 :: (quoteFrom 0 text ++ [34]) := by
  have quote : utf8 "\"" = [34] := by decide
  rw [marshalString, quote]
  rfl

theorem member_eq (name : String) (value : ByteString) :
    member name value = 34 :: (utf8 name ++ 34 :: 58 :: value) := by
  have quote : utf8 "\"" = [34] := by decide
  have colon : utf8 "\":" = [34, 58] := by decide
  rw [member, quote, colon]
  simp

def stringMember (name : String) (named : ∀ byte ∈ utf8 name, Plain byte) (text : ByteString) :
    WrittenMember 0 where
  text := 34 :: (quoteFrom 0 text ++ [34])
  value := .string (Bytes.toValidUTF8 text)
  stands := .string (quotes_quoteFrom text)
  quoted := utf8 name
  name := utf8 name
  quotes := quotes_name named

def decimalMember (name : String) (named : ∀ byte ∈ utf8 name, Plain byte) (number : Nat) :
    WrittenMember 0 where
  text := Bytes.decimal number
  value := .number
  stands := .decimal number
  quoted := utf8 name
  name := utf8 name
  quotes := quotes_name named

def plainMember (name : String) (named : ∀ byte ∈ utf8 name, Plain byte) (text : ByteString)
    (plain : ∀ byte ∈ text, Plain byte) : WrittenMember 0 where
  text := 34 :: (text ++ [34])
  value := .string text
  stands := .string fun _ => readString_plain plain
  quoted := utf8 name
  name := utf8 name
  quotes := quotes_name named

variable {named : ∀ byte ∈ utf8 name, Plain byte}

theorem stringMember_entry (text : ByteString) :
    (stringMember name named text).entry = member name (marshalString text) := by
  rw [member_eq, marshalString_eq]
  rfl

theorem decimalMember_entry (number : Nat) :
    (decimalMember name named number).entry = member name (Bytes.decimal number) := by
  rw [member_eq]
  rfl

end Members

/-! ## Written times -/

section Times

theorem plain_digit {digit : Nat} (small : digit < 10) : Plain (48 + UInt8.ofNat digit) := by
  have values : ∀ digit < 10, Plain (48 + UInt8.ofNat digit) := by decide
  exact values digit small

theorem plain_append {left right : ByteString} (first : ∀ byte ∈ left, Plain byte)
    (second : ∀ byte ∈ right, Plain byte) : ∀ byte ∈ left ++ right, Plain byte :=
  List.forall_mem_append.mpr ⟨first, second⟩

theorem plain_ite {condition : Prop} [Decidable condition] {left right : ByteString}
    (first : ∀ byte ∈ left, Plain byte) (second : ∀ byte ∈ right, Plain byte) :
    ∀ byte ∈ if condition then left else right, Plain byte := by
  split
  · exact first
  · exact second

theorem plain_twoDigits (number : Nat) : ∀ byte ∈ Bytes.twoDigits number, Plain byte :=
  Bytes.forall_twoDigits (fun _ => plain_digit) number

theorem plain_decimal (number : Nat) : ∀ byte ∈ Bytes.decimal number, Plain byte :=
  Bytes.forall_decimal (fun _ => plain_digit) number

theorem plain_formatDate (date : Calendar.Date) :
    ∀ byte ∈ Calendar.formatDate date, Plain byte := by
  have year : ∀ byte ∈ Calendar.formatYear date.year, Plain byte := by
    have digits : ∀ byte ∈ (if date.year.natAbs < 10000 then
        Bytes.twoDigits (date.year.natAbs / 100) ++ Bytes.twoDigits date.year.natAbs
      else Bytes.decimal date.year.natAbs), Plain byte :=
      plain_ite (plain_append (plain_twoDigits _) (plain_twoDigits _)) (plain_decimal _)
    exact plain_ite (plain_append (Bytes.forall_of_all (by decide)) digits) digits
  have dash : ∀ byte ∈ utf8 "-", Plain byte := Bytes.forall_of_all (by decide)
  exact plain_append (plain_append (plain_append (plain_append year dash) (plain_twoDigits _))
    dash) (plain_twoDigits _)

theorem plain_formatFraction (nanoseconds : Nat) :
    ∀ byte ∈ Calendar.formatFraction nanoseconds, Plain byte := by
  unfold Calendar.formatFraction
  dsimp only
  split
  case h_1 => simp
  case h_2 kept =>
    intro byte member
    rcases List.mem_cons.mp member with rfl | member
    · decide
    · have inside := List.mem_reverse.mp ((List.dropWhile_sublist _).mem
        (List.mem_reverse.mp member))
      rcases List.mem_map.mp inside with ⟨place, -, rfl⟩
      exact plain_digit (Nat.mod_lt _ (by decide))

theorem plain_formatOffset (offset : Int) :
    ∀ byte ∈ Calendar.formatOffset offset, Plain byte := by
  have sign : ∀ byte ∈ (if offset < 0 then utf8 "-" else utf8 "+"), Plain byte :=
    plain_ite (Bytes.forall_of_all (by decide)) (Bytes.forall_of_all (by decide))
  have zulu : ∀ byte ∈ utf8 "Z", Plain byte := Bytes.forall_of_all (by decide)
  have colon : ∀ byte ∈ utf8 ":", Plain byte := Bytes.forall_of_all (by decide)
  exact plain_ite zulu (plain_append (plain_append (plain_append sign
    (plain_twoDigits _)) colon) (plain_twoDigits _))

theorem plain_formatRFC3339Nano (location : Location) (instant : Instant) :
    ∀ byte ∈ Calendar.formatRFC3339Nano location instant, Plain byte := by
  have tee : ∀ byte ∈ utf8 "T", Plain byte := Bytes.forall_of_all (by decide)
  have colon : ∀ byte ∈ utf8 ":", Plain byte := Bytes.forall_of_all (by decide)
  have clock : ∀ hours minutes seconds, ∀ byte ∈ Bytes.twoDigits hours ++ utf8 ":" ++
      Bytes.twoDigits minutes ++ utf8 ":" ++ Bytes.twoDigits seconds, Plain byte :=
    fun hours minutes seconds => plain_append (plain_append (plain_append (plain_append
      (plain_twoDigits hours) colon) (plain_twoDigits minutes)) colon) (plain_twoDigits seconds)
  rw [Calendar.formatRFC3339Nano]
  have whole := plain_append (plain_append (plain_append (plain_append (plain_formatDate
      (Calendar.civilDate (Calendar.civilSeconds location instant / Calendar.secondsPerDay))) tee)
      (clock (Calendar.civilSeconds location instant % Calendar.secondsPerDay / 3600).toNat
        (Calendar.civilSeconds location instant % Calendar.secondsPerDay / 60 % 60).toNat
        (Calendar.civilSeconds location instant % Calendar.secondsPerDay % 60).toNat))
      (plain_formatFraction (instant % Calendar.second).toNat))
    (plain_formatOffset (location.offset (Calendar.unixSeconds instant)))
  simpa only [List.append_assoc] using whole

theorem storeTime_formatted {general : GeneralParse} {location : Location} {instant : Instant}
    (offset : Calendar.WritesOffset location instant)
    (written : 0 ≤ Calendar.year location instant ∧ Calendar.year location instant ≤ 9999)
    (held : Instant × Int) :
    storeTime general (34 :: (Calendar.formatRFC3339Nano location instant ++ [34])) held =
      some (instant, location.offset (Calendar.unixSeconds instant)) := by
  have plain := plain_formatRFC3339Nano location instant
  have value := read_written ⟨_, _, Stands.string fun _ => readString_plain plain⟩ (Nat.zero_le _)
  have inside : (List.drop 1 (34 :: (Calendar.formatRFC3339Nano location instant ++
      [34]))).dropLast = Calendar.formatRFC3339Nano location instant := by simp
  rw [storeTime, value]
  simp only [inside, Calendar.readRFC3339_formatRFC3339Nano offset written]

end Times

/-! ## Fields of a broadcast -/

namespace Received

variable {general : GeneralParse}

theorem named {name : ByteString} (member : name ∈ names) : fieldNamed names name = some name := by
  rw [fieldNamed, if_pos (List.contains_iff_mem.mpr member)]

theorem store_type (held : Received) (text : ByteString) :
    store general (utf8 "type") (34 :: (quoteFrom 0 text ++ [34])) held =
      some { held with type := Bytes.toValidUTF8 text } := by
  rw [store, if_pos rfl, storeString_quotes (quotes_quoteFrom _)]
  rfl

theorem store_id {id : Nat} (small : id < 2 ^ 63) (held : Received) :
    store general (utf8 "id") (Bytes.decimal id) held = some { held with id := id } := by
  rw [store, if_neg (by decide), if_pos rfl, storeInt_decimal small]
  rfl

theorem store_content (held : Received) (text : ByteString) :
    store general (utf8 "content") (34 :: (quoteFrom 0 text ++ [34])) held =
      some { held with content := Bytes.toValidUTF8 text } := by
  rw [store, if_neg (by decide), if_neg (by decide), if_pos rfl,
    storeString_quotes (quotes_quoteFrom _)]
  rfl

theorem store_clientID (held : Received) (text : ByteString) :
    store general (utf8 "client_id") (34 :: (quoteFrom 0 text ++ [34])) held =
      some { held with clientID := Bytes.toValidUTF8 text } := by
  rw [store, if_neg (by decide), if_neg (by decide), if_neg (by decide), if_pos rfl,
    storeString_quotes (quotes_quoteFrom _)]
  rfl

theorem store_userID (held : Received) (text : ByteString) :
    store general (utf8 "user") (34 :: (quoteFrom 0 text ++ [34])) held =
      some { held with userID := Bytes.toValidUTF8 text } := by
  rw [store, if_neg (by decide), if_neg (by decide), if_neg (by decide), if_neg (by decide),
    if_pos rfl, storeString_quotes (quotes_quoteFrom _)]
  rfl

theorem store_timestamp {location : Location} {instant : Instant}
    (offset : Calendar.WritesOffset location instant)
    (written : 0 ≤ Calendar.year location instant ∧ Calendar.year location instant ≤ 9999)
    (held : Received) :
    store general (utf8 "timestamp")
      (34 :: (Calendar.formatRFC3339Nano location instant ++ [34])) held =
      some { held with timestamp :=
        (instant, location.offset (Calendar.unixSeconds instant)) } := by
  rw [store, if_neg (by decide), if_neg (by decide), if_neg (by decide), if_neg (by decide),
    if_neg (by decide), storeTime_formatted offset written]
  rfl

end Received

/-! ## Round trips -/

theorem plain_type : ∀ byte ∈ utf8 "type", Plain byte := Bytes.forall_of_all (by decide)

theorem plain_id : ∀ byte ∈ utf8 "id", Plain byte := Bytes.forall_of_all (by decide)

theorem plain_content : ∀ byte ∈ utf8 "content", Plain byte := Bytes.forall_of_all (by decide)

theorem plain_clientID : ∀ byte ∈ utf8 "client_id", Plain byte := Bytes.forall_of_all (by decide)

theorem plain_user : ∀ byte ∈ utf8 "user", Plain byte := Bytes.forall_of_all (by decide)

theorem plain_timestamp : ∀ byte ∈ utf8 "timestamp", Plain byte := Bytes.forall_of_all (by decide)

namespace Broadcast

variable {location : Location} {message : Broadcast} {data : ByteString}

def optional (name : String) (named : ∀ byte ∈ utf8 name, Plain byte) (text : ByteString) :
    List (WrittenMember 0) :=
  if text = [] then [] else [stringMember name named text]

theorem commaEach_optional {name : String} {named : ∀ byte ∈ utf8 name, Plain byte}
    (text : ByteString) :
    commaEach ((optional name named text).map WrittenMember.entry) = optionalMember name text := by
  have comma : utf8 "," = [44] := by decide
  rw [optional, optionalMember]
  split
  · rfl
  · rw [List.map_singleton, stringMember_entry, comma]
    simp

def members (message : Broadcast) (timestamp : ByteString)
    (plain : ∀ byte ∈ timestamp, Plain byte) : List (WrittenMember 0) :=
  stringMember "type" plain_type message.type ::
    (decimalMember "id" plain_id message.id ::
      (optional "content" plain_content message.content ++
        optional "client_id" plain_clientID message.clientID ++
        optional "user" plain_user message.userID ++
        [plainMember "timestamp" plain_timestamp timestamp plain]))

theorem marshal_eq (marshalled : message.marshal location = some data) :
    (0 ≤ Calendar.year location message.timestamp ∧
      Calendar.year location message.timestamp ≤ 9999) ∧
    data = objectText (message.members (Calendar.formatRFC3339Nano location message.timestamp)
      (plain_formatRFC3339Nano location message.timestamp)) := by
  rcases Option.map_eq_some_iff.mp marshalled with ⟨timestamp, time, rfl⟩
  rcases Option.ite_none_right_eq_some.mp time with ⟨written, same⟩
  cases same
  have opening : utf8 "\x7b" = [123] := by decide
  have closing : utf8 "\x7d" = [125] := by decide
  have comma : utf8 "," = [44] := by decide
  have quote : utf8 "\"" = [34] := by decide
  have last : (plainMember "timestamp" plain_timestamp
      (Calendar.formatRFC3339Nano location message.timestamp)
      (plain_formatRFC3339Nano location message.timestamp)).entry =
        member "timestamp" (utf8 "\"" ++
          Calendar.formatRFC3339Nano location message.timestamp ++ utf8 "\"") := by
    rw [member_eq, quote]
    rfl
  refine ⟨written, ?_⟩
  rw [objectText, members]
  simp only [List.map_cons, List.map_append, List.map_nil, commas, commaEach_cons,
    commaEach_append, commaEach_nil, commaEach_optional, stringMember_entry, decimalMember_entry,
    last, opening, closing, comma]
  simp

theorem fill_optional {record : Type} {names : List ByteString}
    {store : ByteString → ByteString → record → Option record} {held : record} {name : String}
    {named : ∀ byte ∈ utf8 name, Plain byte} {set : ByteString → record}
    (known : fieldNamed names (utf8 name) = some (utf8 name))
    (stores : ∀ text, store (utf8 name) (34 :: (quoteFrom 0 text ++ [34])) held = some (set text))
    (empty : set [] = held) (text : ByteString) :
    fill names store held ((optional name named text).map WrittenMember.raw) =
      some (set text) := by
  rw [optional]
  split
  · next nothing =>
      rw [nothing, empty]
      rfl
  · rw [List.map_singleton]
    change fill names store held [(utf8 name, 34 :: (quoteFrom 0 text ++ [34]))] = _
    rw [fill_cons _ known, stores]
    rfl

theorem decode_members (general : GeneralParse)
    (offset : Calendar.WritesOffset location message.timestamp)
    (written : 0 ≤ Calendar.year location message.timestamp ∧
      Calendar.year location message.timestamp ≤ 9999) (small : message.id < 2 ^ 63) :
    Received.decode general (objectText (message.members
        (Calendar.formatRFC3339Nano location message.timestamp)
        (plain_formatRFC3339Nano location message.timestamp))) =
      some (.ofBroadcast message.decoded
        (location.offset (Calendar.unixSeconds message.timestamp))) := by
  rw [Received.decode, decodeStruct_objectText _ (Nat.zero_le _), members]
  simp only [List.map_cons, List.map_append, List.map_nil]
  -- the members in the order they are written
  change fill Received.names (Received.store general) Received.zero
    ((utf8 "type", 34 :: (quoteFrom 0 message.type ++ [34])) ::
      (utf8 "id", Bytes.decimal message.id) :: _) = _
  rw [fill_cons _ (Received.named (by decide)), Received.store_type, Option.bind_some,
    fill_cons _ (Received.named (by decide)), Received.store_id small, Option.bind_some,
    fill_append, fill_append, fill_append,
    fill_optional (Received.named (by decide)) (Received.store_content _) rfl, Option.bind_some,
    fill_optional (Received.named (by decide)) (Received.store_clientID _) rfl, Option.bind_some,
    fill_optional (Received.named (by decide)) (Received.store_userID _) rfl, Option.bind_some]
  change fill Received.names (Received.store general) _ [(utf8 "timestamp",
    34 :: (Calendar.formatRFC3339Nano location message.timestamp ++ [34]))] = _
  rw [fill_cons _ (Received.named (by decide)), Received.store_timestamp offset written,
    Option.bind_some]
  rfl

/-- A client gets back what was marshalled, well-formed where it was not, and
the offset of the server's zone. -/
theorem unmarshal_marshal (general : GeneralParse)
    (offset : Calendar.WritesOffset location message.timestamp)
    (marshalled : message.marshal location = some data) (small : message.id < 2 ^ 63)
    {rest : ByteString} (blank : Blank rest) :
    Received.unmarshal general (data ++ rest) =
      some (.ofBroadcast message.decoded
        (location.offset (Calendar.unixSeconds message.timestamp))) := by
  obtain ⟨written, rfl⟩ := marshal_eq marshalled
  rw [Received.unmarshal, wholeValue_written ⟨_, _, Stands.object _⟩ (by decide) blank,
    Option.bind_some, decode_members general offset written small]

end Broadcast

namespace Event

def members (event : Event) : List (WrittenMember 0) :=
  [stringMember "type" plain_type event.type,
    stringMember "event" (Bytes.forall_of_all (by decide)) event.event,
    stringMember "client_id" plain_clientID event.clientID,
    stringMember "user" plain_user event.userID]

theorem marshal_eq (event : Event) : event.marshal = objectText event.members := by
  have opening : utf8 "\x7b" = [123] := by decide
  have closing : utf8 "\x7d" = [125] := by decide
  have comma : utf8 "," = [44] := by decide
  rw [marshal, objectText, members]
  simp only [List.map_cons, List.map_nil, commas, commaEach_cons, commaEach_nil,
    stringMember_entry, opening, closing, comma]
  simp

theorem unmarshal_marshal (event : Event) {rest : ByteString} (blank : Blank rest) :
    unmarshal (event.marshal ++ rest) = some event.decoded := by
  rw [marshal_eq, unmarshal, wholeValue_written ⟨_, _, Stands.object _⟩ (by decide) blank,
    Option.bind_some, decodeStruct_objectText _ (Nat.zero_le _)]
  have stores : ∀ name ∈ names, fieldNamed names name = some name := by
    intro name member
    rw [fieldNamed, if_pos (List.contains_iff_mem.mpr member)]
  change fill names store zero [(utf8 "type", 34 :: (quoteFrom 0 event.type ++ [34])),
    (utf8 "event", 34 :: (quoteFrom 0 event.event ++ [34])),
    (utf8 "client_id", 34 :: (quoteFrom 0 event.clientID ++ [34])),
    (utf8 "user", 34 :: (quoteFrom 0 event.userID ++ [34]))] = _
  have type (held : Event) (text : ByteString) : store (utf8 "type")
      (34 :: (quoteFrom 0 text ++ [34])) held =
        some { held with type := Bytes.toValidUTF8 text } := by
    rw [store, if_pos rfl, storeString_quotes (quotes_quoteFrom _)]
    rfl
  have name (held : Event) (text : ByteString) : store (utf8 "event")
      (34 :: (quoteFrom 0 text ++ [34])) held =
        some { held with event := Bytes.toValidUTF8 text } := by
    rw [store, if_neg (by decide), if_pos rfl, storeString_quotes (quotes_quoteFrom _)]
    rfl
  have clientID (held : Event) (text : ByteString) : store (utf8 "client_id")
      (34 :: (quoteFrom 0 text ++ [34])) held =
        some { held with clientID := Bytes.toValidUTF8 text } := by
    rw [store, if_neg (by decide), if_neg (by decide), if_pos rfl,
      storeString_quotes (quotes_quoteFrom _)]
    rfl
  have userID (held : Event) (text : ByteString) : store (utf8 "user")
      (34 :: (quoteFrom 0 text ++ [34])) held =
        some { held with userID := Bytes.toValidUTF8 text } := by
    rw [store, if_neg (by decide), if_neg (by decide), if_neg (by decide),
      storeString_quotes (quotes_quoteFrom _)]
    rfl
  rw [fill_cons _ (stores _ (by decide)), type, Option.bind_some,
    fill_cons _ (stores _ (by decide)), name, Option.bind_some,
    fill_cons _ (stores _ (by decide)), clientID, Option.bind_some,
    fill_cons _ (stores _ (by decide)), userID, Option.bind_some]
  rfl

end Event

end Grunt.Client
