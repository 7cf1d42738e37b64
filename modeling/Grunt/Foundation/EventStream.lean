import Grunt.Foundation.Bytes

/-! # Event streams

The parser every event-stream client runs, on bytes: a line ends at LF, CR or
CRLF, a field is what stands before the first colon, an empty line dispatches
what has been collected, and what is not complete at the end is discarded.
-/

namespace Grunt.Foundation.EventStream

open Bytes

def linesFrom (current : ByteString) : ByteString → List ByteString
  | [] => []
  | 13 :: 10 :: rest => current :: linesFrom [] rest
  | byte :: rest =>
      if byte = lineFeed ∨ byte = carriageReturn then current :: linesFrom [] rest
      else linesFrom (current ++ [byte]) rest

structure Event where
  type : ByteString
  data : ByteString
  lastEventID : ByteString
deriving DecidableEq, Repr

/-- The buffers of the parser. The values of the `data` fields are kept apart
until they are joined. -/
structure Buffers where
  type : ByteString
  data : List ByteString
  lastEventID : ByteString
deriving DecidableEq, Repr

namespace Buffers

def start : Buffers where
  type := []
  data := []
  lastEventID := []

def cleared (buffers : Buffers) : Buffers where
  type := []
  data := []
  lastEventID := buffers.lastEventID

end Buffers

def colon : UInt8 := 58
def space : UInt8 := 32

def splitField (line : ByteString) : ByteString × ByteString :=
  match line.dropWhile fun byte => byte ≠ colon with
  | [] => (line, [])
  | _ :: value =>
      (line.takeWhile fun byte => byte ≠ colon,
        match value with
        | 32 :: rest => rest
        | _ => value)

def field (name value : ByteString) (buffers : Buffers) : Buffers :=
  if name = utf8 "event" then { buffers with type := value }
  else if name = utf8 "data" then { buffers with data := buffers.data ++ [value] }
  else if name = utf8 "id" then
    if 0 ∈ value then buffers else { buffers with lastEventID := value }
  else buffers

def line (text : ByteString) (buffers : Buffers) : Option Event × Buffers :=
  match text with
  | [] =>
      if buffers.data = [] then (none, buffers.cleared)
      else
        (some {
          type := if buffers.type = [] then utf8 "message" else buffers.type
          data := [lineFeed].intercalate buffers.data
          lastEventID := buffers.lastEventID }, buffers.cleared)
  | first :: _ =>
      if first = colon then (none, buffers)
      else (none, field (splitField text).1 (splitField text).2 buffers)

def dispatch (buffers : Buffers) : List ByteString → List Event
  | [] => []
  | text :: rest =>
      (line text buffers).1.toList ++ dispatch (line text buffers).2 rest

def parse (stream : ByteString) : List Event :=
  dispatch .start (linesFrom [] stream)

/-! ## Writing -/

/-- One event: its type, a `data` field for every line of its data, and the
empty line that dispatches it. -/
def write (type data : ByteString) : ByteString :=
  utf8 "event: " ++ type ++ [lineFeed] ++
    ((splitLines data).flatMap fun text => utf8 "data: " ++ text ++ [lineFeed]) ++
    [lineFeed]

def OneLine (text : ByteString) : Prop := lineFeed ∉ text ∧ carriageReturn ∉ text

instance (text : ByteString) : Decidable (OneLine text) :=
  inferInstanceAs (Decidable (_ ∧ _))

theorem OneLine.append {left right : ByteString} (first : OneLine left)
    (second : OneLine right) : OneLine (left ++ right) := by
  constructor
  · simp [first.1, second.1]
  · simp [first.2, second.2]

theorem linesFrom_line {text : ByteString} (oneLine : OneLine text)
    (current rest : ByteString) :
    linesFrom current (text ++ lineFeed :: rest) = (current ++ text) :: linesFrom [] rest := by
  induction text generalizing current with
  | nil => simp [linesFrom, lineFeed]
  | cons byte text induction =>
      have tail : OneLine text :=
        ⟨fun member => oneLine.1 (List.mem_cons_of_mem _ member),
          fun member => oneLine.2 (List.mem_cons_of_mem _ member)⟩
      have notFeed : byte ≠ lineFeed := fun same => oneLine.1 (same ▸ List.mem_cons_self)
      have notReturn : byte ≠ carriageReturn :=
        fun same => oneLine.2 (same ▸ List.mem_cons_self)
      have step : linesFrom current (byte :: (text ++ lineFeed :: rest)) =
          linesFrom (current ++ [byte]) (text ++ lineFeed :: rest) := by
        rw [linesFrom]
        · simp [notFeed, notReturn]
        · intro after same
          exact absurd same notReturn
      rw [List.cons_append, step, induction tail]
      simp

theorem oneLine_of_mem_splitLines {data text : ByteString} (clean : carriageReturn ∉ data)
    (member : text ∈ splitLines data) : OneLine text := by
  exact ⟨lineFeed_not_mem_of_mem_splitLines member,
    fun inside => clean (mem_of_mem_splitLines member inside)⟩

theorem linesFrom_write {type data : ByteString} (oneLine : OneLine type)
    (clean : carriageReturn ∉ data) (rest : ByteString) :
    linesFrom [] (write type data ++ rest) =
      (utf8 "event: " ++ type) ::
        ((splitLines data).map fun text => utf8 "data: " ++ text) ++
        [] :: linesFrom [] rest := by
  have eventLine : OneLine (utf8 "event: " ++ type) := OneLine.append (by decide) oneLine
  have dataLines : ∀ (texts : List ByteString), (∀ text ∈ texts, OneLine text) →
      ∀ rest, linesFrom [] ((texts.flatMap fun text => utf8 "data: " ++ text ++ [lineFeed]) ++
        rest) = (texts.map fun text => utf8 "data: " ++ text) ++ linesFrom [] rest := by
    intro texts single rest
    induction texts with
    | nil => rfl
    | cons text texts induction =>
        have first : OneLine (utf8 "data: " ++ text) :=
          OneLine.append (by decide) (single text List.mem_cons_self)
        have others := induction fun other member =>
          single other (List.mem_cons_of_mem _ member)
        have split := linesFrom_line first []
          ((texts.flatMap fun text => utf8 "data: " ++ text ++ [lineFeed]) ++ rest)
        simp only [List.flatMap_cons, List.map_cons, List.append_assoc, List.cons_append,
          List.nil_append] at split ⊢
        rw [split]
        simp only [List.append_assoc] at others
        rw [others]
  have split := linesFrom_line eventLine []
    (((splitLines data).flatMap fun text => utf8 "data: " ++ text ++ [lineFeed]) ++
      lineFeed :: rest)
  rw [dataLines _ (fun text => oneLine_of_mem_splitLines clean)] at split
  have empty : OneLine [] := ⟨by simp, by simp⟩
  have last := linesFrom_line empty [] rest
  simp only [List.nil_append] at last split
  rw [last] at split
  have same : write type data ++ rest = utf8 "event: " ++ type ++
      lineFeed :: (((splitLines data).flatMap fun text =>
        utf8 "data: " ++ text ++ [lineFeed]) ++ lineFeed :: rest) := by
    simp [write]
  rw [same, split, List.cons_append]

theorem line_event (type : ByteString) (buffers : Buffers) :
    line (utf8 "event: " ++ type) buffers = (none, { buffers with type := type }) := by
  rfl

theorem line_data (text : ByteString) (buffers : Buffers) :
    line (utf8 "data: " ++ text) buffers =
      (none, { buffers with data := buffers.data ++ [text] }) := by
  rfl

theorem dispatch_data (texts rest : List ByteString) (buffers : Buffers) :
    dispatch buffers ((texts.map fun text => utf8 "data: " ++ text) ++ rest) =
      dispatch { buffers with data := buffers.data ++ texts } rest := by
  induction texts generalizing buffers with
  | nil => simp
  | cons text texts induction =>
      simp only [List.map_cons, List.cons_append, dispatch, line_data, Option.toList_none,
        List.nil_append, induction, List.append_assoc]

theorem parse_write {type data : ByteString} (oneLine : OneLine type) (named : type ≠ [])
    (clean : carriageReturn ∉ data) (rest : ByteString) :
    parse (write type data ++ rest) = ⟨type, data, []⟩ :: parse rest := by
  have nonempty : splitLines data ≠ [] := List.splitOn_ne_nil lineFeed data
  simp only [parse, linesFrom_write oneLine clean, List.cons_append, dispatch, line_event,
    Option.toList_none, List.nil_append, dispatch_data, Buffers.start]
  simp [line, nonempty, named, join_splitLines, Buffers.cleared]

theorem parse_flatMap_write {type : ByteString} (oneLine : OneLine type) (named : type ≠ [])
    (items : List ByteString) (clean : ∀ data ∈ items, carriageReturn ∉ data) :
    parse (items.flatMap fun data => write type data) =
      items.map fun data => ⟨type, data, []⟩ := by
  induction items with
  | nil => rfl
  | cons data items induction =>
      rw [List.flatMap_cons, parse_write oneLine named (clean data List.mem_cons_self),
        induction fun other member => clean other (List.mem_cons_of_mem _ member),
        List.map_cons]

/-! ## What no parsed event contains -/

theorem carriageReturn_not_mem_linesFrom (stream current : ByteString)
    (clean : carriageReturn ∉ current) :
    ∀ text ∈ linesFrom current stream, carriageReturn ∉ text := by
  fun_induction linesFrom current stream with
  | case1 current => simp
  | case2 current rest induction =>
      intro text member
      rcases List.mem_cons.mp member with same | later
      · exact same ▸ clean
      · exact induction (by simp) text later
  | case3 current byte rest unpaired ends induction =>
      intro text member
      rcases List.mem_cons.mp member with same | later
      · exact same ▸ clean
      · exact induction (by simp) text later
  | case4 current byte rest unpaired continues induction =>
      apply induction
      simp only [List.mem_append, List.mem_singleton, not_or]
      exact ⟨clean, fun same => continues (.inr same.symm)⟩

def Buffers.Clean (buffers : Buffers) : Prop :=
  ∀ value ∈ buffers.data, carriageReturn ∉ value

theorem carriageReturn_not_mem_value {text : ByteString} (clean : carriageReturn ∉ text) :
    carriageReturn ∉ (splitField text).2 := by
  have tail : ∀ byte ∈ text.dropWhile (fun byte => byte ≠ colon), byte ≠ carriageReturn :=
    fun byte member same => clean (same ▸ (List.dropWhile_sublist _).mem member)
  unfold splitField
  split
  · exact List.not_mem_nil
  · next first value found =>
      rw [found] at tail
      have valueClean : carriageReturn ∉ value := fun member =>
        tail _ (List.mem_cons_of_mem first member) rfl
      dsimp only
      split
      · exact fun member => valueClean (List.mem_cons_of_mem _ member)
      · exact valueClean

theorem Buffers.Clean.line {buffers : Buffers} (holds : buffers.Clean) {text : ByteString}
    (clean : carriageReturn ∉ text) : (line text buffers).2.Clean := by
  unfold EventStream.line
  split
  case h_1 =>
    split <;> simp [Buffers.Clean, Buffers.cleared]
  case h_2 first rest =>
    split
    case isTrue => exact holds
    case isFalse =>
      have value := carriageReturn_not_mem_value clean
      dsimp only [field]
      split
      · exact holds
      · split
        · intro other member
          rcases List.mem_append.mp member with old | new
          · exact holds other old
          · rw [List.mem_singleton.mp new]
            exact value
        · split
          · split <;> exact holds
          · exact holds

theorem Buffers.Clean.event {buffers : Buffers} (holds : buffers.Clean) {text : ByteString}
    {event : Event} (dispatched : (EventStream.line text buffers).1 = some event) :
    carriageReturn ∉ event.data := by
  unfold EventStream.line at dispatched
  split at dispatched
  case h_1 =>
    split at dispatched <;> cases dispatched
    intro member
    rcases mem_of_mem_intercalate member with inside | ⟨value, valueMem, inside⟩
    · exact absurd (List.mem_singleton.mp inside) (by decide)
    · exact holds value valueMem inside
  case h_2 => split at dispatched <;> cases dispatched

theorem carriageReturn_not_mem_data {stream : ByteString} {event : Event}
    (parsed : event ∈ parse stream) : carriageReturn ∉ event.data := by
  have lines := carriageReturn_not_mem_linesFrom stream [] (by simp)
  have each : ∀ (texts : List ByteString) (buffers : Buffers), buffers.Clean →
      (∀ text ∈ texts, carriageReturn ∉ text) →
      ∀ event ∈ dispatch buffers texts, carriageReturn ∉ event.data := by
    intro texts
    induction texts with
    | nil => simp [dispatch]
    | cons text texts induction =>
        intro buffers holds clean event member
        have textClean := clean text List.mem_cons_self
        rcases List.mem_append.mp member with now | later
        · exact holds.event (Option.mem_toList.mp now)
        · exact induction _ (holds.line textClean)
            (fun other otherMem => clean other (List.mem_cons_of_mem text otherMem)) event later
  exact each _ .start (by simp [Buffers.Clean, Buffers.start]) lines event parsed

theorem parse_flatMap_write_iff {type : ByteString} (oneLine : OneLine type)
    (named : type ≠ []) (items : List ByteString) :
    parse (items.flatMap fun data => write type data) =
      items.map (fun data => ⟨type, data, []⟩) ↔
        ∀ data ∈ items, carriageReturn ∉ data := by
  refine ⟨fun same data member => ?_, parse_flatMap_write oneLine named items⟩
  have parsed : (⟨type, data, []⟩ : Event) ∈
      parse (items.flatMap fun data => write type data) := by
    rw [same]
    exact List.mem_map.mpr ⟨data, member, rfl⟩
  exact carriageReturn_not_mem_data parsed

/-- A carriage return splits a line, and what follows it is a field of its own. -/
example : parse (write (utf8 "message") (utf8 "a\rdata: b")) =
    [⟨utf8 "message", utf8 "a\nb", []⟩] := by decide

end Grunt.Foundation.EventStream
