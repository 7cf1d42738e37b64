import Mathlib.Data.List.DropRight
import Grunt.Foundation.EventStream

/-! # The client's end of the stream

`readPump` takes the body of the response line by line, in whatever chunks it
arrives, and puts the data of every event on the message channel. It stops at
the first read that fails. Closing the client or its listener only makes it
stop earlier.
-/

namespace Grunt.Client

open Foundation

/-! ## Reading lines -/

/-- A `bufio.Reader`: what it has read ahead, and what the reads of the body
are going to yield. -/
structure Reader where
  buffered : ByteString
  incoming : List ByteString
deriving DecidableEq, Repr

namespace Reader

def bytes (reader : Reader) : ByteString := reader.buffered ++ reader.incoming.flatten

def cutLine : ByteString → Option (ByteString × ByteString)
  | [] => none
  | byte :: text =>
      if byte = Bytes.lineFeed then some ([byte], text)
      else (cutLine text).map fun cut => (byte :: cut.1, cut.2)

def readFrom (buffered : ByteString) : List ByteString → Option (ByteString × Reader)
  | [] => (cutLine buffered).map fun cut => (cut.1, ⟨cut.2, []⟩)
  | chunk :: incoming =>
      match cutLine buffered with
      | some cut => some (cut.1, ⟨cut.2, chunk :: incoming⟩)
      | none => readFrom (buffered ++ chunk) incoming

/-- `ReadBytes('\n')`, which fails where the body ends before the line does. -/
def readBytes (reader : Reader) : Option (ByteString × Reader) :=
  readFrom reader.buffered reader.incoming

theorem cutLine_append {text : ByteString} {cut : ByteString × ByteString}
    (found : cutLine text = some cut) (more : ByteString) :
    cutLine (text ++ more) = some (cut.1, cut.2 ++ more) := by
  induction text generalizing cut with
  | nil => cases found
  | cons byte text induction =>
      rw [cutLine] at found
      rw [List.cons_append, cutLine]
      split at found
      case isTrue feed =>
        cases found
        exact if_pos feed
      case isFalse other =>
        rcases Option.map_eq_some_iff.mp found with ⟨inner, cutInner, rfl⟩
        rw [if_neg other, induction cutInner]
        rfl

theorem length_of_cutLine {text : ByteString} {cut : ByteString × ByteString}
    (found : cutLine text = some cut) : cut.2.length < text.length := by
  induction text generalizing cut with
  | nil => cases found
  | cons byte text induction =>
      rw [cutLine] at found
      split at found
      case isTrue =>
        cases found
        exact Nat.lt_succ_self _
      case isFalse =>
        rcases Option.map_eq_some_iff.mp found with ⟨inner, cutInner, rfl⟩
        have shorter : inner.2.length < text.length := induction cutInner
        exact Nat.lt_succ_of_lt shorter

theorem cutLine_line {line : ByteString} (unfed : Bytes.lineFeed ∉ line) (rest : ByteString) :
    cutLine (line ++ Bytes.lineFeed :: rest) = some (line ++ [Bytes.lineFeed], rest) := by
  induction line with
  | nil => exact if_pos rfl
  | cons byte line induction =>
      rw [List.mem_cons, not_or] at unfed
      rw [List.cons_append, cutLine, if_neg (Ne.symm unfed.1), induction unfed.2]
      rfl

theorem cutLine_of_not_mem {text : ByteString} (unfed : Bytes.lineFeed ∉ text) :
    cutLine text = none := by
  induction text with
  | nil => rfl
  | cons byte text induction =>
      rw [List.mem_cons, not_or] at unfed
      rw [cutLine, if_neg (Ne.symm unfed.1), induction unfed.2]
      rfl

theorem readFrom_eq (buffered : ByteString) (incoming : List ByteString) :
    (readFrom buffered incoming).map (fun read => (read.1, read.2.bytes)) =
      cutLine (buffered ++ incoming.flatten) := by
  induction incoming generalizing buffered with
  | nil =>
      rw [readFrom, List.flatten_nil, List.append_nil]
      cases cutLine buffered with
      | none => rfl
      | some cut => simp [bytes]
  | cons chunk incoming induction =>
      rw [readFrom, List.flatten_cons]
      cases found : cutLine buffered with
      | none => rw [← List.append_assoc, ← induction]
      | some cut => rw [cutLine_append found]; rfl

theorem readBytes_eq (reader : Reader) :
    reader.readBytes.map (fun read => (read.1, read.2.bytes)) = cutLine reader.bytes :=
  readFrom_eq reader.buffered reader.incoming

theorem length_of_readBytes {reader : Reader} {read : ByteString × Reader}
    (found : reader.readBytes = some read) : read.2.bytes.length < reader.bytes.length := by
  have cut := reader.readBytes_eq
  rw [found] at cut
  exact length_of_cutLine cut.symm

end Reader

theorem prefix_line_cases {text missing line rest : ByteString}
    (unfed : Bytes.lineFeed ∉ line) (whole : text ++ missing = line ++ Bytes.lineFeed :: rest) :
    Bytes.lineFeed ∉ text ∨
      ∃ behind, text = line ++ Bytes.lineFeed :: behind ∧ behind ++ missing = rest := by
  rcases List.append_eq_append_iff.mp whole with ⟨more, cut, -⟩ | ⟨more, reached, cut⟩
  · apply Or.inl
    intro member
    exact unfed (cut ▸ List.mem_append_left more member)
  · cases more with
    | nil =>
        rw [List.append_nil] at reached
        exact .inl (reached ▸ unfed)
    | cons byte behind =>
        rw [List.cons_append, List.cons.injEq] at cut
        exact .inr ⟨behind, cut.1 ▸ reached, cut.2.symm⟩

/-! ## The loop -/

/-- `strings.TrimRight(line, "\r\n")` -/
def trimLineEnd (line : ByteString) : ByteString :=
  line.rdropWhile fun byte => byte = Bytes.carriageReturn || byte = Bytes.lineFeed

/-- One line: what is put on the message channel, and `dataBuf` after it. -/
def handleLine (line dataBuf : ByteString) : Option ByteString × ByteString :=
  let lineStr := trimLineEnd line
  if lineStr = [] then (if dataBuf = [] then none else some dataBuf, [])
  else if Bytes.hasPrefix (utf8 "data:") lineStr then
    let data := Bytes.trimPrefix (utf8 "data:") lineStr
    let data := Bytes.trimPrefix (utf8 " ") data
    (none, dataBuf ++ data ++ [Bytes.lineFeed])
  else (none, dataBuf)

/-- Everything put on the message channel. -/
def readPump (dataBuf : ByteString) (reader : Reader) : List ByteString :=
  match _found : reader.readBytes with
  | none => []
  | some read =>
      (handleLine read.1 dataBuf).1.toList ++ readPump (handleLine read.1 dataBuf).2 read.2
termination_by reader.bytes.length
decreasing_by exact Reader.length_of_readBytes _found

theorem readPump_of_none {reader : Reader} (ended : Reader.cutLine reader.bytes = none)
    (dataBuf : ByteString) : readPump dataBuf reader = [] := by
  rw [← reader.readBytes_eq, Option.map_eq_none_iff] at ended
  rw [readPump]
  split
  case h_1 => rfl
  case h_2 read found =>
    rw [ended] at found
    cases found

theorem readPump_of_some {reader : Reader} {line rest : ByteString}
    (cut : Reader.cutLine reader.bytes = some (line, rest)) (dataBuf : ByteString) :
    ∃ after : Reader, after.bytes = rest ∧
      readPump dataBuf reader =
        (handleLine line dataBuf).1.toList ++ readPump (handleLine line dataBuf).2 after := by
  rw [← reader.readBytes_eq] at cut
  rcases Option.map_eq_some_iff.mp cut with ⟨read, found, same⟩
  cases same
  refine ⟨read.2, rfl, ?_⟩
  rw [readPump]
  split
  case h_1 failed =>
    rw [found] at failed
    cases failed
  case h_2 other again =>
    rw [found] at again
    cases again
    rfl

/-! ## One event -/

theorem trimLineEnd_line {text : ByteString} (oneLine : EventStream.OneLine text) :
    trimLineEnd (text ++ [Bytes.lineFeed]) = text := by
  have kept : trimLineEnd text = text := by
    apply List.rdropWhile_eq_self_iff.mpr
    intro nonempty
    have last := List.getLast_mem nonempty
    simp only [Bool.or_eq_true, decide_eq_true_eq, not_or]
    exact ⟨fun same => oneLine.2 (same ▸ last), fun same => oneLine.1 (same ▸ last)⟩
  rw [trimLineEnd, List.rdropWhile_concat_pos _ _ _ (by decide)]
  exact kept

theorem handleLine_event {type : ByteString} (oneLine : EventStream.OneLine type)
    (dataBuf : ByteString) :
    handleLine (utf8 "event: " ++ type ++ [Bytes.lineFeed]) dataBuf = (none, dataBuf) := by
  have whole : EventStream.OneLine (utf8 "event: " ++ type) :=
    EventStream.OneLine.append (by decide) oneLine
  unfold handleLine
  rw [trimLineEnd_line whole]
  rfl

theorem handleLine_data {data : ByteString} (oneLine : EventStream.OneLine data)
    (dataBuf : ByteString) :
    handleLine (utf8 "data: " ++ data ++ [Bytes.lineFeed]) dataBuf =
      (none, dataBuf ++ data ++ [Bytes.lineFeed]) := by
  have whole : EventStream.OneLine (utf8 "data: " ++ data) :=
    EventStream.OneLine.append (by decide) oneLine
  unfold handleLine
  rw [trimLineEnd_line whole]
  rfl

theorem handleLine_blank (dataBuf : ByteString) :
    handleLine [Bytes.lineFeed] dataBuf =
      (if dataBuf = [] then none else some dataBuf, []) := by
  rfl

def record (type data : ByteString) : ByteString :=
  utf8 "event: " ++ type ++ [Bytes.lineFeed] ++ (utf8 "data: " ++ data ++ [Bytes.lineFeed]) ++
    [Bytes.lineFeed]

section Record

variable {type data : ByteString} (oneType : EventStream.OneLine type)
  (oneData : EventStream.OneLine data)

include oneType oneData

theorem readPump_record {reader : Reader} {rest : ByteString}
    (bytes : reader.bytes = record type data ++ rest) :
    ∃ after : Reader, after.bytes = rest ∧
      readPump [] reader = (data ++ [Bytes.lineFeed]) :: readPump [] after := by
  have eventLine : EventStream.OneLine (utf8 "event: " ++ type) :=
    EventStream.OneLine.append (by decide) oneType
  have dataLine : EventStream.OneLine (utf8 "data: " ++ data) :=
    EventStream.OneLine.append (by decide) oneData
  have first : Reader.cutLine reader.bytes = some (utf8 "event: " ++ type ++ [Bytes.lineFeed],
      utf8 "data: " ++ data ++ Bytes.lineFeed :: (Bytes.lineFeed :: rest)) := by
    rw [bytes, ← Reader.cutLine_line eventLine.1]
    simp [record]
  rcases readPump_of_some first [] with ⟨reader, second, delivered⟩
  rw [handleLine_event oneType] at delivered
  rcases readPump_of_some (second ▸ Reader.cutLine_line dataLine.1 _) []
    with ⟨reader, third, nothing⟩
  rw [handleLine_data oneData] at nothing
  have blank : Reader.cutLine reader.bytes = some ([Bytes.lineFeed], rest) := by
    rw [third]
    exact if_pos rfl
  rcases readPump_of_some blank ([] ++ data ++ [Bytes.lineFeed]) with ⟨after, fourth, dispatched⟩
  rw [handleLine_blank, if_neg (by simp)] at dispatched
  refine ⟨after, fourth, ?_⟩
  rw [delivered, nothing, dispatched]
  simp

theorem readPump_cut {reader : Reader} {missing : ByteString}
    (bytes : reader.bytes ++ missing = record type data) (cut : missing ≠ []) :
    readPump [] reader = [] := by
  have eventLine : EventStream.OneLine (utf8 "event: " ++ type) :=
    EventStream.OneLine.append (by decide) oneType
  have dataLine : EventStream.OneLine (utf8 "data: " ++ data) :=
    EventStream.OneLine.append (by decide) oneData
  -- the blank line at the end is missing in any case
  have shorter : ∃ missing, reader.bytes ++ missing = (utf8 "event: " ++ type) ++
      Bytes.lineFeed :: (utf8 "data: " ++ data ++ [Bytes.lineFeed]) := by
    rcases List.eq_nil_or_concat missing with empty | ⟨before, last, rfl⟩
    · exact absurd empty cut
    · rw [List.concat_eq_append, ← List.append_assoc, record] at bytes
      have same := (List.append_inj' bytes rfl).1
      exact ⟨before, by rw [same]; simp⟩
  rcases shorter with ⟨missing, bytes⟩
  rcases prefix_line_cases eventLine.1 bytes with unfed | ⟨behind, split, bytes⟩
  · exact readPump_of_none (Reader.cutLine_of_not_mem unfed) []
  · rcases readPump_of_some (split ▸ Reader.cutLine_line eventLine.1 behind) []
      with ⟨reader, rfl, delivered⟩
    rw [handleLine_event oneType] at delivered
    rw [delivered]
    rcases prefix_line_cases dataLine.1 bytes with unfed | ⟨last, split, bytes⟩
    · exact readPump_of_none (Reader.cutLine_of_not_mem unfed) []
    · rcases readPump_of_some (split ▸ Reader.cutLine_line dataLine.1 last) []
        with ⟨reader, rfl, nothing⟩
      rw [handleLine_data oneData] at nothing
      have ended := (List.append_eq_nil_iff.mp bytes).1
      rw [Option.toList_none, List.nil_append, nothing,
        readPump_of_none (by rw [ended]; rfl)]
      rfl

end Record

/-! ## A stream of events -/

/-- The elements whose text ends within the first `count` bytes of the texts of
all. -/
def wholly {element : Type} (text : element → ByteString) : Nat → List element → List element
  | _, [] => []
  | count, first :: rest =>
      if (text first).length ≤ count then
        first :: wholly text (count - (text first).length) rest
      else []

theorem wholly_eq_self {element : Type} (text : element → ByteString)
    {elements : List element} {count : Nat} (enough : (elements.flatMap text).length ≤ count) :
    wholly text count elements = elements := by
  induction elements generalizing count with
  | nil => rfl
  | cons first rest induction =>
      rw [List.flatMap_cons, List.length_append] at enough
      have fits : (text first).length ≤ count := by omega
      have others : (rest.flatMap text).length ≤ count - (text first).length := by omega
      rw [wholly, if_pos fits, induction others]

theorem wholly_congr {element : Type} {text other : element → ByteString}
    {elements : List element} (same : ∀ value ∈ elements, text value = other value)
    {count : Nat} : wholly text count elements = wholly other count elements := by
  induction elements generalizing count with
  | nil => rfl
  | cons first rest induction =>
      rw [wholly, wholly, same first List.mem_cons_self,
        induction fun value member => same value (List.mem_cons_of_mem first member)]

theorem wholly_prefix {element : Type} (text : element → ByteString) (count : Nat)
    (elements : List element) : wholly text count elements <+: elements := by
  induction elements generalizing count with
  | nil => exact List.prefix_rfl
  | cons first rest induction =>
      rw [wholly]
      split
      · exact (List.prefix_cons_inj first).mpr (induction _)
      · exact List.nil_prefix

theorem readPump_records {element : Type} {type data : element → ByteString}
    {elements : List element}
    (oneType : ∀ value ∈ elements, EventStream.OneLine (type value))
    (oneData : ∀ value ∈ elements, EventStream.OneLine (data value))
    {count : Nat} {reader : Reader}
    (bytes : reader.bytes =
      (elements.flatMap fun value => record (type value) (data value)).take count) :
    readPump [] reader =
      (wholly (fun value => record (type value) (data value)) count elements).map
        fun value => data value ++ [Bytes.lineFeed] := by
  induction elements generalizing count reader with
  | nil =>
      rw [List.flatMap_nil, List.take_nil] at bytes
      exact readPump_of_none (by rw [bytes]; rfl) []
  | cons first rest induction =>
      have firstType := oneType first List.mem_cons_self
      have firstData := oneData first List.mem_cons_self
      rw [List.flatMap_cons, List.take_append] at bytes
      rw [wholly]
      split
      case isTrue fits =>
        rw [List.take_of_length_le fits] at bytes
        rcases readPump_record firstType firstData bytes with ⟨after, behind, delivered⟩
        rw [delivered, List.map_cons,
          induction (fun value member => oneType value (List.mem_cons_of_mem first member))
            (fun value member => oneData value (List.mem_cons_of_mem first member)) behind]
      case isFalse cut =>
        have short : count - (record (type first) (data first)).length = 0 := by omega
        rw [short, List.take_zero, List.append_nil] at bytes
        have whole : reader.bytes ++ (record (type first) (data first)).drop count =
            record (type first) (data first) := by
          rw [bytes, List.take_append_drop]
        apply readPump_cut firstType firstData whole
        intro empty
        have length := congrArg List.length empty
        rw [List.length_drop, List.length_nil] at length
        omega

end Grunt.Client
