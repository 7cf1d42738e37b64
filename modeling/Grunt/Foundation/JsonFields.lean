import Mathlib.Data.List.TakeWhile
import Grunt.Foundation.JsonText

/-! # Structs from JSON

A value is kept as it is written until it is known what it is stored in. The
members of an object are stored one after another, each in the field of its
name.
-/

namespace Grunt.Foundation.Json

/-! ## Values as they are written -/

def readRaw (depth : Nat) (text : ByteString) : Option (ByteString × ByteString) :=
  (readValue (2 * text.length + 2) depth text).map fun read =>
    ((skipSpace text).take ((skipSpace text).length - read.2.length), read.2)

def readRawMembers (depth : Nat) :
    Nat → ByteString → Option (List (ByteString × ByteString) × ByteString)
  | 0, _ => none
  | fuel + 1, text =>
      match skipSpace text with
      | 34 :: rest => do
          let (name, rest) ← readString rest
          match skipSpace rest with
          | 58 :: rest => do
              let (raw, rest) ← readRaw depth rest
              match skipSpace rest with
              | 44 :: rest => do
                  let (members, rest) ← readRawMembers depth fuel rest
                  some ((name, raw) :: members, rest)
              | 125 :: rest => some ([(name, raw)], rest)
              | _ => none
          | _ => none
      | _ => none

/-- The members of an object. `null` stands for an object without any. -/
def rawMembers (depth : Nat) (text : ByteString) : Option (List (ByteString × ByteString)) :=
  match skipSpace text with
  | 123 :: rest =>
      match skipSpace rest with
      | 125 :: _ => some []
      | rest => (readRawMembers depth rest.length rest).map Prod.fst
  | rest => if Bytes.hasPrefix (utf8 "null") rest then some [] else none

/-- The value that `json.Unmarshal` takes apart, which is all of the text. -/
def wholeValue (text : ByteString) : Option ByteString :=
  (readRaw maxNestingDepth text).bind fun read =>
    if skipSpace read.2 = [] then some read.1 else none

/-- The value that `Decoder.Decode` takes apart. It does not look further. -/
def firstValue (text : ByteString) : Option ByteString :=
  (readRaw maxNestingDepth text).map Prod.fst

/-! ## Fields -/

/-- What a string field holds after a value. `null` changes nothing. -/
def storeString (raw held : ByteString) : Option ByteString :=
  match read raw with
  | some (.null, _) => some held
  | some (.string text, _) => some text
  | _ => none

/-- `strconv.ParseInt` to the base ten and with 64 bits, of a number. -/
def parseInt64 : ByteString → Option Int
  | 45 :: digits => (Bytes.parseDecimal digits).bind fun value =>
      if value ≤ 2 ^ 63 then some (-value) else none
  | digits => (Bytes.parseDecimal digits).bind fun value =>
      if value < 2 ^ 63 then some value else none

def storeInt (raw : ByteString) (held : Int) : Option Int :=
  match read raw with
  | some (.null, _) => some held
  | some (.number, _) => parseInt64 raw
  | _ => none

/-- A struct after members have been stored in it. A member that has no field
is passed over; one that does not fit its field fails the whole. -/
def fill {record : Type} (names : List ByteString)
    (store : ByteString → ByteString → record → Option record) (start : record)
    (members : List (ByteString × ByteString)) : Option record :=
  members.foldlM (fun held member =>
    match fieldNamed names member.1 with
    | none => some held
    | some field => store field member.2 held) start

def decodeStruct {record : Type} (names : List ByteString)
    (store : ByteString → ByteString → record → Option record) (start : record)
    (raw : ByteString) : Option record :=
  (rawMembers maxNestingDepth raw).bind (fill names store start)

/-! ## What has been written -/

section Written

variable {depth below : Nat}

theorem readRaw_written (written : Written depth) (deep : depth ≤ below) {rest : ByteString}
    (delimited : Delimited rest) :
    readRaw below (written.text ++ rest) = some (written.text, rest) := by
  have read := written.stands.reads (2 * (written.text ++ rest).length + 2)
    (by rw [List.length_append]; omega) deep delimited
  rw [readRaw, read, written.stands.skipSpace]
  simp

theorem readRawMembers_entries (fuel : Nat) (first : WrittenMember depth)
    (rest : List (WrittenMember depth))
    (enough : (commas ((first :: rest).map WrittenMember.entry)).length ≤ fuel)
    (deep : depth ≤ below) (after : ByteString) :
    readRawMembers below fuel
        (commas ((first :: rest).map WrittenMember.entry) ++ 125 :: after) =
      some ((first :: rest).map WrittenMember.raw, after) := by
  induction rest generalizing first fuel with
  | nil =>
      simp only [List.map_cons, List.map_nil, commas, commaEach, List.flatMap_nil, List.append_nil,
        WrittenMember.entry, List.length_cons, List.length_append] at enough ⊢
      obtain ⟨fuel, rfl⟩ : ∃ more, fuel = more + 1 := ⟨fuel - 1, by omega⟩
      have value := readRaw_written first.toWritten deep
        (delimited_cons (.inr (.inr rfl)) after)
      simp only [List.cons_append, List.append_assoc]
      rw [readRawMembers, skipSpace_cons quote_solid]
      simp [first.readString, skipSpace_cons colon_solid, value, skipSpace_cons brace_solid,
        WrittenMember.raw]
  | cons second rest induction =>
      have shape : commas ((first :: second :: rest).map WrittenMember.entry) =
          first.entry ++ 44 :: commas ((second :: rest).map WrittenMember.entry) := rfl
      rw [shape] at enough ⊢
      simp only [WrittenMember.entry, List.length_cons, List.length_append] at enough
      obtain ⟨fuel, rfl⟩ : ∃ more, fuel = more + 1 := ⟨fuel - 1, by omega⟩
      have later := induction fuel second (by omega)
      have value := readRaw_written first.toWritten deep (delimited_cons (.inl rfl)
        (commas ((second :: rest).map WrittenMember.entry) ++ 125 :: after))
      simp only [WrittenMember.entry, List.cons_append, List.append_assoc]
      rw [readRawMembers, skipSpace_cons quote_solid]
      simp only [first.readString, Option.bind_eq_bind, Option.bind_some,
        skipSpace_cons colon_solid, value, skipSpace_cons comma_solid, later]
      rfl

theorem rawMembers_objectText (members : List (WrittenMember depth)) (deep : depth ≤ below)
    (after : ByteString) :
    rawMembers below (objectText members ++ after) = some (members.map WrittenMember.raw) := by
  rw [rawMembers, objectText, List.cons_append, skipSpace_cons (by decide), List.append_assoc,
    List.singleton_append]
  cases members with
  | nil => simp [commas, skipSpace_cons brace_solid]
  | cons first members =>
      have read := readRawMembers_entries
        (commas ((first :: members).map WrittenMember.entry) ++ 125 :: after).length first members
        (by rw [List.length_append]; omega) deep after
      have opened : commas ((first :: members).map WrittenMember.entry) ++ 125 :: after =
          34 :: (first.quoted ++ 34 :: 58 :: (first.text ++
            (commaEach (members.map WrittenMember.entry) ++ 125 :: after))) := by
        simp [commas, WrittenMember.entry]
      rw [opened] at read ⊢
      simp only [skipSpace_cons quote_solid]
      exact congrArg (Option.map Prod.fst) read

theorem firstValue_written (written : Written depth) (deep : depth ≤ maxNestingDepth)
    {rest : ByteString} (delimited : Delimited rest) :
    firstValue (written.text ++ rest) = some written.text := by
  rw [firstValue, readRaw_written written deep delimited]
  rfl

def Blank (text : ByteString) : Prop := ∀ byte ∈ text, isSpace byte = true

theorem blank_nil : Blank [] := by
  intro byte member
  cases member

theorem blank_lineFeed : Blank [Bytes.lineFeed] := by
  intro byte member
  rw [List.mem_singleton.mp member]
  decide

theorem wholeValue_written (written : Written depth) (deep : depth ≤ maxNestingDepth)
    {rest : ByteString} (blank : Blank rest) :
    wholeValue (written.text ++ rest) = some written.text := by
  have delimited : Delimited rest := by
    intro byte head
    exact .inr (.inr (.inr (blank byte (List.mem_of_mem_head? head))))
  have empty : skipSpace rest = [] := List.dropWhile_eq_nil_iff.mpr blank
  rw [wholeValue, readRaw_written written deep delimited, Option.bind_some, if_pos empty]

theorem read_written (written : Written depth) (deep : depth ≤ maxNestingDepth) :
    read written.text = some (written.value, []) := by
  have reads := written.stands.reads (2 * written.text.length + 2) (by omega) deep
    delimited_nil
  rwa [List.append_nil] at reads

theorem decodeStruct_objectText {record : Type} {names : List ByteString}
    {store : ByteString → ByteString → record → Option record} {start : record}
    (members : List (WrittenMember depth)) (deep : depth ≤ maxNestingDepth) :
    decodeStruct names store start (objectText members) =
      fill names store start (members.map WrittenMember.raw) := by
  have read := rawMembers_objectText members deep []
  rw [List.append_nil] at read
  rw [decodeStruct, read, Option.bind_some]

end Written

theorem fill_append {record : Type} {names : List ByteString}
    {store : ByteString → ByteString → record → Option record} {start : record}
    (first second : List (ByteString × ByteString)) :
    fill names store start (first ++ second) =
      (fill names store start first).bind fun held => fill names store held second :=
  List.foldlM_append

theorem fill_cons {record : Type} {names : List ByteString}
    {store : ByteString → ByteString → record → Option record} {start : record}
    {name raw : ByteString} (members : List (ByteString × ByteString))
    (field : fieldNamed names name = some name) :
    fill names store start ((name, raw) :: members) =
      (store name raw start).bind fun held => fill names store held members := by
  rw [fill, List.foldlM_cons]
  simp only [field]
  rfl

theorem storeString_quotes {written text : ByteString} (quotes : Quotes written text)
    (held : ByteString) : storeString (34 :: (written ++ [34])) held = some text := by
  rw [storeString, read_written ⟨_, _, Stands.string quotes⟩ (Nat.zero_le _)]

theorem storeInt_decimal {number : Nat} (small : number < 2 ^ 63) (held : Int) :
    storeInt (Bytes.decimal number) held = some (number : Int) := by
  obtain ⟨first, rest, whole, digit, -, -⟩ := exists_decimal number
  have unsigned : first ≠ 45 := by
    rintro rfl
    exact absurd digit (by decide)
  have parsed : parseInt64 (Bytes.decimal number) = some (number : Int) := by
    have value := Bytes.parseDecimal_decimal number
    rw [whole] at value ⊢
    rw [parseInt64, value, Option.bind_some, if_pos small]
    exact fun _ same => unsigned (List.cons.inj same).1
  rw [storeInt, read_written ⟨_, _, Stands.decimal number⟩ (Nat.zero_le _)]
  exact parsed

end Grunt.Foundation.Json
