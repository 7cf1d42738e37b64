import Grunt.Client.Unmarshal

/-! # What `grunt recv` prints

A line for every message, with the time of day that its timestamp shows.
-/

namespace Grunt.Client

open Foundation Json

/-- The layout `15:04:05`, in the zone of the offset. -/
def formatTimeOfDay (timestamp : Instant × Int) : ByteString :=
  let ofDay := (Calendar.unixSeconds timestamp.1 + timestamp.2) % Calendar.secondsPerDay
  Bytes.twoDigits (ofDay / 3600).toNat ++ utf8 ":" ++ Bytes.twoDigits (ofDay / 60 % 60).toNat ++
    utf8 ":" ++ Bytes.twoDigits (ofDay % 60).toNat

namespace Received

def line (message : Received) : ByteString :=
  utf8 "[" ++ message.userID ++ utf8 "] " ++ formatTimeOfDay message.timestamp ++ utf8 ": " ++
    message.content ++ utf8 "\n"

end Received

namespace Event

def line (event : Event) : ByteString :=
  utf8 "[System] " ++ event.event ++ utf8 ": " ++ event.clientID ++ utf8 "\n"

end Event

namespace Error

def line (error : Error) : ByteString := utf8 "[Error] " ++ error.message ++ utf8 "\n"

end Error

def unknownLine (data : ByteString) : ByteString :=
  utf8 "Unknown message: " ++ data ++ utf8 "\n"

def recvLine (general : GeneralParse) (verbose : Bool) (data : ByteString) : ByteString :=
  match unmarshalType data with
  | none => unknownLine data
  | some type =>
      if type = utf8 "message" then
        match Received.unmarshal general data with
        | some message => if message.id ≠ 0 then message.line else []
        | none => []
      else if type = utf8 "event" then
        match Event.unmarshal data with
        | some event => if event.event ≠ [] ∧ verbose then event.line else []
        | none => []
      else if type = utf8 "error" then
        match Error.unmarshal data with
        | some error => if error.message ≠ [] then error.line else []
        | none => []
      else unknownLine data

/-! ## The envelope -/

theorem fill_strange {record : Type} {names : List ByteString}
    {store : ByteString → ByteString → record → Option record} {held : record}
    {members : List (ByteString × ByteString)}
    (strange : ∀ member ∈ members, fieldNamed names member.1 = none) :
    fill names store held members = some held := by
  induction members with
  | nil => rfl
  | cons member members induction =>
      rw [fill, List.foldlM_cons]
      simp only [strange member List.mem_cons_self]
      exact induction fun other inside => strange other (List.mem_cons_of_mem member inside)

theorem unmarshalType_objectText {type : ByteString} {named : ∀ byte ∈ utf8 "type", Plain byte}
    {members : List (WrittenMember 0)}
    (others : ∀ member ∈ members, fieldNamed [utf8 "type"] member.name = none)
    {rest : ByteString} (blank : Blank rest) :
    unmarshalType (objectText (stringMember "type" named type :: members) ++ rest) =
      some (Bytes.toValidUTF8 type) := by
  have known : fieldNamed [utf8 "type"] (utf8 "type") = some (utf8 "type") := by decide
  have strange : ∀ member ∈ members.map WrittenMember.raw,
      fieldNamed [utf8 "type"] member.1 = none := by
    intro member inside
    obtain ⟨written, from_, rfl⟩ := List.mem_map.mp inside
    exact others written from_
  rw [unmarshalType, wholeValue_written ⟨_, _, Stands.object _⟩ (by decide) blank,
    Option.bind_some, decodeStruct_objectText _ (Nat.zero_le _), List.map_cons]
  change fill _ _ _ ((utf8 "type", 34 :: (quoteFrom 0 type ++ [34])) :: _) = _
  rw [fill_cons _ known, storeString_quotes (quotes_quoteFrom type), Option.bind_some,
    fill_strange strange]

theorem unmarshalType_broadcast {location : Location} {message : Broadcast} {data : ByteString}
    (marshalled : message.marshal location = some data) {rest : ByteString} (blank : Blank rest) :
    unmarshalType (data ++ rest) = some (Bytes.toValidUTF8 message.type) := by
  obtain ⟨-, rfl⟩ := Broadcast.marshal_eq marshalled
  refine unmarshalType_objectText (fun member inside => ?_) blank
  have names : ∀ name ∈ [utf8 "id", utf8 "content", utf8 "client_id", utf8 "user",
      utf8 "timestamp"], fieldNamed [utf8 "type"] name = none := by decide
  have optional {name : String} {named : ∀ byte ∈ utf8 name, Plain byte} {text : ByteString}
      (member : WrittenMember 0) (inside : member ∈ Broadcast.optional name named text) :
      member.name = utf8 name := by
    unfold Broadcast.optional at inside
    split at inside
    · cases inside
    · rw [List.mem_singleton.mp inside]
      rfl
  apply names
  simp only [List.mem_cons, List.mem_append, List.not_mem_nil, or_false] at inside ⊢
  rcases inside with rfl | ((content | clientID) | userID) | rfl
  · exact .inl rfl
  · exact .inr (.inl (optional member content))
  · exact .inr (.inr (.inl (optional member clientID)))
  · exact .inr (.inr (.inr (.inl (optional member userID))))
  · exact .inr (.inr (.inr (.inr rfl)))

theorem unmarshalType_event (event : Event) {rest : ByteString} (blank : Blank rest) :
    unmarshalType (event.marshal ++ rest) = some (Bytes.toValidUTF8 event.type) := by
  rw [Event.marshal_eq]
  refine unmarshalType_objectText (fun member inside => ?_) blank
  simp only [List.mem_cons, List.not_mem_nil, or_false] at inside
  rcases inside with rfl | rfl | rfl
  · exact (by decide : fieldNamed [utf8 "type"] (utf8 "event") = none)
  · exact (by decide : fieldNamed [utf8 "type"] (utf8 "client_id") = none)
  · exact (by decide : fieldNamed [utf8 "type"] (utf8 "user") = none)

/-! ## The lines -/

theorem recvLine_broadcast {location : Location} {message : Broadcast} {data : ByteString}
    (general : GeneralParse) (verbose : Bool)
    (offset : Calendar.WritesOffset location message.timestamp)
    (marshalled : message.marshal location = some data) (type : message.type = utf8 "message")
    (positive : 0 < message.id) (small : message.id < 2 ^ 63) :
    recvLine general verbose (data ++ [Bytes.lineFeed]) =
      (Received.ofBroadcast message.decoded
        (location.offset (Calendar.unixSeconds message.timestamp))).line := by
  have typed : Bytes.toValidUTF8 (utf8 "message") = utf8 "message" := by decide
  have numbered : (Received.ofBroadcast message.decoded
      (location.offset (Calendar.unixSeconds message.timestamp))).id ≠ 0 := by
    change (message.id : Int) ≠ 0
    omega
  rw [recvLine, unmarshalType_broadcast marshalled blank_lineFeed, type, typed]
  simp only [if_true, Broadcast.unmarshal_marshal general offset marshalled small
    blank_lineFeed]
  exact if_pos numbered

theorem recvLine_event (general : GeneralParse) (verbose : Bool) {event : Event}
    (type : event.type = utf8 "event") (named : event.decoded.event ≠ []) :
    recvLine general verbose (event.marshal ++ [Bytes.lineFeed]) =
      if verbose then event.decoded.line else [] := by
  have typed : Bytes.toValidUTF8 (utf8 "event") = utf8 "event" := by decide
  have other : utf8 "event" ≠ utf8 "message" := by decide
  rw [recvLine, unmarshalType_event event blank_lineFeed, type, typed]
  simp only [if_neg other, if_true, Event.unmarshal_marshal event blank_lineFeed, named,
    ne_eq, not_false_eq_true, true_and]

end Grunt.Client
