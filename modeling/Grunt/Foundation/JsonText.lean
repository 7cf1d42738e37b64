import Mathlib.Data.Nat.Digits.Lemmas
import Grunt.Foundation.Json
import Grunt.Foundation.Utf8

/-! # Writing JSON

What a written text stands for. A value is described by what a reader makes of
its text wherever it stands, so that the values of an array and the members of
an object can be put together from what is known of each.
-/

namespace Grunt.Foundation.Json

/-! ## Strings -/

/-- Written between quotes, `written` is read as `text`, before any repair of
what is not well-formed. -/
def Spells (written text : ByteString) : Prop :=
  ∃ elements : List Element,
    (∀ more rest after, readElements more = some (rest, after) →
      readElements (written ++ more) = some (elements ++ rest, after)) ∧
    ∀ rest, assemble (elements ++ rest) = text ++ assemble rest

/-- Written between quotes, `written` is read as `text`. -/
def Quotes (written text : ByteString) : Prop :=
  ∀ rest, readString (written ++ 34 :: rest) = some (text, rest)

namespace Spells

variable {written text : ByteString}

theorem nil : Spells [] [] :=
  ⟨[], fun _ _ _ read => read, fun _ => rfl⟩

theorem append {first second left right : ByteString} (one : Spells first left)
    (two : Spells second right) : Spells (first ++ second) (left ++ right) := by
  obtain ⟨elements, reads, assembles⟩ := one
  obtain ⟨others, readsOthers, assemblesOthers⟩ := two
  refine ⟨elements ++ others, ?_, ?_⟩
  · intro more rest after read
    rw [List.append_assoc, List.append_assoc]
    exact reads _ _ _ (readsOthers _ _ _ read)
  · intro rest
    rw [List.append_assoc, List.append_assoc, assembles, assemblesOthers]

theorem byte {byte : UInt8} (printable : ¬ byte < 32) (unquoted : byte ≠ 34)
    (unescaped : byte ≠ 92) : Spells [byte] [byte] := by
  refine ⟨[.byte byte], ?_, fun _ => rfl⟩
  intro more rest after read
  rw [List.singleton_append, readElements]
  · simp [printable, unescaped, read]
  · exact unquoted
  · intro _ _ _ _ _ same
    exact absurd same unescaped
  · intro _ _ same
    exact absurd same unescaped

theorem bytes (solid : ∀ byte ∈ text, ¬ byte < 32 ∧ byte ≠ 34 ∧ byte ≠ 92) :
    Spells text text := by
  induction text with
  | nil => exact nil
  | cons first text induction =>
      obtain ⟨printable, unquoted, unescaped⟩ := solid first List.mem_cons_self
      exact append (byte printable unquoted unescaped)
        (induction fun other member => solid other (List.mem_cons_of_mem first member))

theorem short {letter value : UInt8} (other : letter ≠ 117)
    (escape : shortEscape letter = some value) : Spells [92, letter] [value] := by
  refine ⟨[.byte value], ?_, fun _ => rfl⟩
  intro more rest after read
  rw [List.cons_append, List.singleton_append, readElements]
  · simp [escape, read]
  · intro _ _ _ _ _ same
    exact absurd same other

theorem assemble_unit {code : Nat} (alone : isHigh code = false) (rest : List Element) :
    assemble (.unit code :: rest) = encodeUnit code ++ assemble rest := by
  match rest with
  | [] => rfl
  | .byte _ :: _ => rfl
  | .unit low :: rest =>
      rw [assemble, alone]
      exact if_neg (by simp)

theorem unit {first second third fourth : UInt8} {one two three four : Nat}
    (firstValue : hexValue first = some one) (secondValue : hexValue second = some two)
    (thirdValue : hexValue third = some three) (fourthValue : hexValue fourth = some four)
    (alone : isHigh (one * 4096 + two * 256 + three * 16 + four) = false) :
    Spells [92, 117, first, second, third, fourth]
      (encodeUnit (one * 4096 + two * 256 + three * 16 + four)) := by
  refine ⟨[.unit (one * 4096 + two * 256 + three * 16 + four)], ?_, assemble_unit alone⟩
  intro more rest after read
  simp only [List.cons_append, List.nil_append]
  rw [readElements]
  simp [firstValue, secondValue, thirdValue, fourthValue, read]

theorem quotes (spells : Spells written text) : Quotes written (Bytes.toValidUTF8 text) := by
  obtain ⟨elements, reads, assembles⟩ := spells
  intro rest
  have read := reads (34 :: rest) [] rest rfl
  have assembled := assembles []
  rw [assemble, List.append_nil] at assembled
  rw [readString, read]
  simp [assembled]

end Spells

/-! ## Values -/

def Delimited (rest : ByteString) : Prop :=
  ∀ byte ∈ rest.head?, byte = 44 ∨ byte = 93 ∨ byte = 125 ∨ isSpace byte = true

theorem delimited_cons {byte : UInt8} (delimits : byte = 44 ∨ byte = 93 ∨ byte = 125)
    (rest : ByteString) : Delimited (byte :: rest) := by
  intro other head
  cases head
  rcases delimits with same | same | same
  · exact .inl same
  · exact .inr (.inl same)
  · exact .inr (.inr (.inl same))

theorem delimited_nil : Delimited [] :=
  fun _ head => absurd head (by simp)

/-- A text without blanks in front that is read as a value, wherever it stands
and whatever follows, with `depth` levels of arrays and objects inside. -/
structure Stands (depth : Nat) (text : ByteString) (value : Json) : Prop where
  solid : ∀ byte ∈ text.head?, isSpace byte = false
  nonempty : text ≠ []
  reads : ∀ fuel {below rest}, 2 * text.length ≤ fuel → depth ≤ below → Delimited rest →
    readValue fuel below (text ++ rest) = some (value, rest)

namespace Stands

theorem skipSpace {depth : Nat} {text : ByteString} {value : Json}
    (stands : Stands depth text value) (rest : ByteString) :
    Json.skipSpace (text ++ rest) = text ++ rest := by
  cases text with
  | nil => exact absurd rfl stands.nonempty
  | cons byte text => exact skipSpace_cons (stands.solid byte rfl)

theorem mono {depth more : Nat} {text : ByteString} {value : Json}
    (stands : Stands depth text value) (le : depth ≤ more) : Stands more text value where
  solid := stands.solid
  nonempty := stands.nonempty
  reads := fun fuel _ _ enough deep => stands.reads fuel enough (Nat.le_trans le deep)

theorem string {written text : ByteString} (quotes : Quotes written text) :
    Stands 0 (34 :: (written ++ [34])) (.string text) where
  solid := by
    intro byte head
    cases head
    exact quote_solid
  nonempty := List.cons_ne_nil _ _
  reads := by
    intro fuel below rest enough _ _
    rw [List.length_cons] at enough
    obtain ⟨fuel, rfl⟩ : ∃ more, fuel = more + 1 := ⟨fuel - 1, by omega⟩
    unfold readValue
    rw [List.cons_append, List.append_assoc, skipSpace_cons quote_solid]
    simp [quotes rest]

end Stands

/-! ## Numbers -/

theorem exists_decimal (number : Nat) :
    ∃ first rest, Bytes.decimal number = first :: rest ∧ Bytes.isDigit first = true ∧
      (∀ byte ∈ rest, Bytes.isDigit byte = true) ∧ (first = 48 → rest = []) := by
  unfold Bytes.decimal
  split
  · exact ⟨48, [], rfl, by decide, by simp, fun _ => rfl⟩
  · next nonzero =>
      have small : ∀ digit ∈ Nat.digits 10 number, digit < 10 :=
        fun digit => Nat.digits_lt_base (by decide)
      have nonempty : Nat.digits 10 number ≠ [] := nonzero
      obtain ⟨before, last, whole⟩ := (List.eq_nil_or_concat _).resolve_left nonempty
      rw [List.concat_eq_append] at whole
      have leading : last ≠ 0 := by
        have number_ne : number ≠ 0 := Nat.digits_ne_nil_iff_ne_zero.mp nonempty
        have nonzeroLast := Nat.getLast_digit_ne_zero 10 number_ne
        simpa [whole] using nonzeroLast
      have lastSmall := small last (by simp [whole])
      refine ⟨48 + UInt8.ofNat last, before.reverse.map fun digit => 48 + UInt8.ofNat digit,
        by simp [whole], (Bytes.digit_facts lastSmall).1, ?_, ?_⟩
      · intro byte member
        rcases List.mem_map.mp member with ⟨digit, inside, rfl⟩
        exact (Bytes.digit_facts (small digit (by simp_all))).1
      · intro zero
        have value := (Bytes.digit_facts lastSmall).2
        rw [zero] at value
        exact absurd value.symm leading

theorem readFraction_delimited {rest : ByteString} (delimited : Delimited rest) :
    readFraction rest = some rest := by
  cases rest with
  | nil => rfl
  | cons byte rest =>
      have delimits := delimited byte rfl
      have other : byte ≠ 46 ∧ byte ≠ 101 ∧ byte ≠ 69 := by
        refine ⟨?_, ?_, ?_⟩ <;>
        · rintro rfl
          simp [isSpace] at delimits
      rw [readFraction, readExponent]
      · exact fun _ same => other.2.1 (List.cons.inj same).1
      · exact fun _ same => other.2.2 (List.cons.inj same).1
      · exact fun _ same => other.1 (List.cons.inj same).1

theorem readNumber_decimal (number : Nat) {rest : ByteString} (delimited : Delimited rest) :
    readNumber (Bytes.decimal number ++ rest) = some rest := by
  obtain ⟨first, digits, whole, digit, others, zero⟩ := exists_decimal number
  have unsigned : first ≠ 45 := by
    rintro rfl
    exact absurd digit (by decide)
  have behind : (digits ++ rest).dropWhile Bytes.isDigit = rest := by
    rw [List.dropWhile_append_of_pos others]
    cases rest with
    | nil => rfl
    | cons byte rest =>
        have delimits := delimited byte rfl
        have other : Bytes.isDigit byte = false := by
          rcases delimits with rfl | rfl | rfl | blank
          · decide
          · decide
          · decide
          · simp only [isSpace, Bool.or_eq_true, decide_eq_true_eq] at blank
            rcases blank with ((rfl | rfl) | rfl) | rfl <;> decide
        rw [List.dropWhile_cons_of_neg (by simp [other])]
  rw [whole, List.cons_append]
  by_cases leading : first = 48
  · rw [zero leading, leading]
    exact readFraction_delimited delimited
  · rw [readNumber]
    · simp [digit, behind, readFraction_delimited delimited]
    · exact leading
    · exact fun _ same => unsigned (List.cons.inj same).1

theorem Stands.decimal (number : Nat) : Stands 0 (Bytes.decimal number) .number := by
  obtain ⟨first, digits, whole, digit, -, -⟩ := exists_decimal number
  have unlike (byte : UInt8) (undigit : Bytes.isDigit byte = false) : first ≠ byte := by
    rintro rfl
    exact absurd (digit.symm.trans undigit) (by simp)
  have solid : isSpace first = false := by
    simp only [isSpace, Bool.or_eq_false_iff, decide_eq_false_iff_not]
    exact ⟨⟨⟨unlike 32 (by decide), unlike 9 (by decide)⟩, unlike 10 (by decide)⟩,
      unlike 13 (by decide)⟩
  constructor
  · rw [whole]
    intro byte head
    cases head
    exact solid
  · rw [whole]
    exact List.cons_ne_nil _ _
  · rintro fuel below rest enough - delimited
    have read := readNumber_decimal number delimited
    rw [whole] at enough read ⊢
    obtain ⟨fuel, rfl⟩ : ∃ more, fuel = more + 1 :=
      ⟨fuel - 1, by rw [List.length_cons] at enough; omega⟩
    have literal (name : ByteString) (letter : UInt8) (more : ByteString)
        (spelled : name = letter :: more) (undigit : Bytes.isDigit letter = false) :
        Bytes.hasPrefix name (first :: digits ++ rest) = false := by
      rw [spelled, List.cons_append, Bytes.hasPrefix, List.isPrefixOf]
      simp [(unlike letter undigit).symm]
    unfold readValue
    rw [List.cons_append, skipSpace_cons solid, ← List.cons_append]
    split
    · next same => exact absurd (List.cons.inj same).1 (unlike 34 (by decide))
    · next same => exact absurd (List.cons.inj same).1 (unlike 91 (by decide))
    · next same => exact absurd (List.cons.inj same).1 (unlike 123 (by decide))
    · next same => exact absurd (List.cons.inj same).1 (unlike 91 (by decide))
    · next same => exact absurd (List.cons.inj same).1 (unlike 123 (by decide))
    · rw [readLiteral, literal (utf8 "null") 110 (utf8 "ull") (by decide) (by decide),
        literal (utf8 "true") 116 (utf8 "rue") (by decide) (by decide),
        literal (utf8 "false") 102 (utf8 "alse") (by decide) (by decide), read]
      rfl

/-! ## Objects and arrays -/

structure Written (depth : Nat) where
  text : ByteString
  value : Json
  stands : Stands depth text value

/-- A member: what is between the quotes of its name, and its value. -/
structure WrittenMember (depth : Nat) extends Written depth where
  quoted : ByteString
  name : ByteString
  quotes : Quotes quoted name

namespace WrittenMember

variable {depth : Nat}

def entry (member : WrittenMember depth) : ByteString :=
  34 :: (member.quoted ++ 34 :: 58 :: member.text)

def pair (member : WrittenMember depth) : ByteString × Json := (member.name, member.value)

def raw (member : WrittenMember depth) : ByteString × ByteString := (member.name, member.text)

theorem readString (member : WrittenMember depth) (rest : ByteString) :
    Json.readString (member.quoted ++ 34 :: rest) = some (member.name, rest) :=
  member.quotes rest

end WrittenMember

def commaEach (texts : List ByteString) : ByteString := texts.flatMap fun text => 44 :: text

@[simp] theorem commaEach_nil : commaEach [] = [] := rfl

@[simp] theorem commaEach_cons (text : ByteString) (texts : List ByteString) :
    commaEach (text :: texts) = 44 :: (text ++ commaEach texts) := by
  rw [commaEach, List.flatMap_cons]
  rfl

theorem commaEach_append (first second : List ByteString) :
    commaEach (first ++ second) = commaEach first ++ commaEach second :=
  List.flatMap_append

def commas : List ByteString → ByteString
  | [] => []
  | first :: rest => first ++ commaEach rest

def objectText {depth : Nat} (members : List (WrittenMember depth)) : ByteString :=
  123 :: (commas (members.map WrittenMember.entry) ++ [125])

def arrayText {depth : Nat} (values : List (Written depth)) : ByteString :=
  91 :: (commas (values.map Written.text) ++ [93])

section Reading

variable {depth below : Nat}

theorem comma_solid : isSpace 44 = false := by decide
theorem bracket_solid : isSpace 93 = false := by decide

theorem readMembers_entries (fuel : Nat) (first : WrittenMember depth)
    (rest : List (WrittenMember depth))
    (enough : 2 * (commas ((first :: rest).map WrittenMember.entry)).length ≤ fuel)
    (deep : depth ≤ below) (after : ByteString) :
    readMembers fuel below (commas ((first :: rest).map WrittenMember.entry) ++ 125 :: after) =
      some ((first :: rest).map WrittenMember.pair, after) := by
  induction rest generalizing first fuel with
  | nil =>
      simp only [List.map_cons, List.map_nil, commas, commaEach, List.flatMap_nil, List.append_nil,
        WrittenMember.entry, List.length_cons, List.length_append] at enough ⊢
      obtain ⟨fuel, rfl⟩ : ∃ more, fuel = more + 1 := ⟨fuel - 1, by omega⟩
      have value := first.stands.reads fuel (by omega) deep
        (delimited_cons (.inr (.inr rfl)) after)
      simp only [List.cons_append, List.append_assoc]
      rw [readMembers, skipSpace_cons quote_solid]
      simp [first.readString, skipSpace_cons colon_solid, value, skipSpace_cons brace_solid,
        WrittenMember.pair]
  | cons second rest induction =>
      have shape : commas ((first :: second :: rest).map WrittenMember.entry) =
          first.entry ++ 44 :: commas ((second :: rest).map WrittenMember.entry) := rfl
      rw [shape] at enough ⊢
      simp only [WrittenMember.entry, List.length_cons, List.length_append] at enough
      obtain ⟨fuel, rfl⟩ : ∃ more, fuel = more + 1 := ⟨fuel - 1, by omega⟩
      have later := induction fuel second (by omega)
      have value := first.stands.reads fuel (by omega) deep
        (delimited_cons (.inl rfl)
          (commas ((second :: rest).map WrittenMember.entry) ++ 125 :: after))
      simp only [WrittenMember.entry, List.cons_append, List.append_assoc]
      rw [readMembers, skipSpace_cons quote_solid]
      simp only [first.readString, Option.bind_eq_bind, Option.bind_some,
        skipSpace_cons colon_solid, value, skipSpace_cons comma_solid, later]
      rfl

theorem readValues_texts (fuel : Nat) (first : Written depth) (rest : List (Written depth))
    (enough : 2 * (commas ((first :: rest).map Written.text)).length < fuel)
    (deep : depth ≤ below) (after : ByteString) :
    readValues fuel below (commas ((first :: rest).map Written.text) ++ 93 :: after) =
      some ((first :: rest).map Written.value, after) := by
  induction rest generalizing first fuel with
  | nil =>
      simp only [List.map_cons, List.map_nil, commas, commaEach, List.flatMap_nil,
        List.append_nil] at enough ⊢
      obtain ⟨fuel, rfl⟩ : ∃ more, fuel = more + 1 := ⟨fuel - 1, by omega⟩
      have value := first.stands.reads fuel (by omega) deep
        (delimited_cons (.inr (.inl rfl)) after)
      rw [readValues]
      simp [value, skipSpace_cons bracket_solid]
  | cons second rest induction =>
      have shape : commas ((first :: second :: rest).map Written.text) =
          first.text ++ 44 :: commas ((second :: rest).map Written.text) := rfl
      rw [shape] at enough ⊢
      simp only [List.length_cons, List.length_append] at enough
      obtain ⟨fuel, rfl⟩ : ∃ more, fuel = more + 1 := ⟨fuel - 1, by omega⟩
      have later := induction fuel second (by omega)
      have value := first.stands.reads fuel (by omega) deep
        (delimited_cons (.inl rfl) (commas ((second :: rest).map Written.text) ++ 93 :: after))
      rw [readValues, List.append_assoc, List.cons_append]
      simp only [Option.bind_eq_bind, Option.bind_some, value, skipSpace_cons comma_solid, later]
      rfl

end Reading

theorem Stands.object {depth : Nat} (members : List (WrittenMember depth)) :
    Stands (depth + 1) (objectText members) (.object (members.map WrittenMember.pair)) where
  solid := by
    intro byte head
    cases head
    decide
  nonempty := List.cons_ne_nil _ _
  reads := by
    intro fuel below rest enough deep _
    rw [objectText, List.length_cons, List.length_append, List.length_singleton] at enough
    obtain ⟨fuel, rfl⟩ : ∃ more, fuel = more + 1 := ⟨fuel - 1, by omega⟩
    obtain ⟨below, rfl⟩ : ∃ more, below = more + 1 := ⟨below - 1, by omega⟩
    unfold readValue
    rw [objectText, List.cons_append, skipSpace_cons (by decide), List.append_assoc,
      List.singleton_append]
    cases members with
    | nil => simp [commas, skipSpace_cons brace_solid]
    | cons first members =>
        have deeper : depth ≤ below := by omega
        have read := readMembers_entries fuel first members (by omega) deeper rest
        have opened : commas ((first :: members).map WrittenMember.entry) ++ 125 :: rest =
            34 :: (first.quoted ++ 34 :: 58 :: (first.text ++
              (commaEach (members.map WrittenMember.entry) ++ 125 :: rest))) := by
          simp [commas, WrittenMember.entry]
        rw [opened] at read ⊢
        simp [skipSpace_cons quote_solid, read]

theorem readValue_bracket (fuel below : Nat) (rest : ByteString) :
    readValue fuel below (93 :: rest) = none := by
  cases fuel with
  | zero => rfl
  | succ fuel =>
      unfold readValue
      rw [skipSpace_cons bracket_solid]
      rfl

theorem Stands.unclosed {depth : Nat} {text : ByteString} {value : Json}
    (stands : Stands depth text value) (more : ByteString) : text ≠ 93 :: more := by
  rintro rfl
  have read := stands.reads _ (Nat.le_refl _) (Nat.le_refl depth) delimited_nil
  rw [List.cons_append, readValue_bracket] at read
  cases read

theorem Stands.array {depth : Nat} (values : List (Written depth)) :
    Stands (depth + 1) (arrayText values) (.array (values.map Written.value)) where
  solid := by
    intro byte head
    cases head
    decide
  nonempty := List.cons_ne_nil _ _
  reads := by
    intro fuel below rest enough deep _
    rw [arrayText, List.length_cons, List.length_append, List.length_singleton] at enough
    obtain ⟨fuel, rfl⟩ : ∃ more, fuel = more + 1 := ⟨fuel - 1, by omega⟩
    obtain ⟨below, rfl⟩ : ∃ more, below = more + 1 := ⟨below - 1, by omega⟩
    unfold readValue
    rw [arrayText, List.cons_append, skipSpace_cons (by decide), List.append_assoc,
      List.singleton_append]
    cases values with
    | nil => simp [commas, skipSpace_cons bracket_solid]
    | cons first values =>
        have deeper : depth ≤ below := by omega
        have read := readValues_texts fuel first values (by omega) deeper rest
        obtain ⟨byte, text, same⟩ := List.exists_cons_of_ne_nil first.stands.nonempty
        have opened : commas ((first :: values).map Written.text) ++ 93 :: rest =
            byte :: (text ++ (commaEach (values.map Written.text) ++ 93 :: rest)) := by
          simp [commas, same]
        have solid : isSpace byte = false := first.stands.solid byte (by rw [same]; rfl)
        have unclosed : byte ≠ 93 := by
          rintro rfl
          exact first.stands.unclosed text same
        rw [opened] at read ⊢
        simp [skipSpace_cons solid, unclosed, read]

end Grunt.Foundation.Json
