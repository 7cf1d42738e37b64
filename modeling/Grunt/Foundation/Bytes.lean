import Mathlib.Data.List.Infix
import Mathlib.Data.Nat.Digits.Defs

/-! # Byte strings

Strings as sequences of bytes, in no particular encoding, and the operations
on them that only look at single bytes or at fixed pieces.
-/

namespace Grunt.Foundation

abbrev ByteString := List UInt8

def utf8 (literal : String) : ByteString :=
  literal.toByteArray.data.toList

namespace Bytes

def lineFeed : UInt8 := 10
def carriageReturn : UInt8 := 13

/-! ## Pieces -/

def hasPrefix (piece text : ByteString) : Bool := piece.isPrefixOf text

@[simp] theorem hasPrefix_append (piece text : ByteString) :
    hasPrefix piece (piece ++ text) = true :=
  List.isPrefixOf_iff_prefix.mpr (List.prefix_append piece text)

def hasSuffix (piece text : ByteString) : Bool := piece.isSuffixOf text

def trimPrefix (piece text : ByteString) : ByteString :=
  if hasPrefix piece text then text.drop piece.length else text

def trimSuffix (piece text : ByteString) : ByteString :=
  if hasSuffix piece text then text.take (text.length - piece.length) else text

/-- `strings.ToLower`, on the characters whose lower case is ASCII. -/
def toLower : ByteString → ByteString
  | 0xC4 :: 0xB0 :: rest => 105 :: toLower rest
  | 0xE2 :: 0x84 :: 0xAA :: rest => 107 :: toLower rest
  | byte :: rest => (if 65 ≤ byte && byte ≤ 90 then byte + 32 else byte) :: toLower rest
  | [] => []

def contains (piece text : ByteString) : Bool :=
  text.tails.any fun tail => piece.isPrefixOf tail

theorem contains_iff_infix {piece text : ByteString} :
    contains piece text = true ↔ piece <:+: text := by
  unfold contains
  rw [List.any_eq_true, List.infix_iff_prefix_suffix]
  constructor
  · rintro ⟨tail, member, front⟩
    exact ⟨tail, List.isPrefixOf_iff_prefix.mp front, (List.mem_tails tail text).mp member⟩
  · rintro ⟨tail, front, rest⟩
    exact ⟨tail, (List.mem_tails tail text).mpr rest, List.isPrefixOf_iff_prefix.mpr front⟩

theorem forall_of_all {Holds : UInt8 → Prop} [DecidablePred Holds] {text : ByteString}
    (all : (text.all fun byte => decide (Holds byte)) = true) : ∀ byte ∈ text, Holds byte :=
  fun byte member => of_decide_eq_true (List.all_eq_true.mp all byte member)

def splitLines (text : ByteString) : List ByteString := text.splitOn lineFeed

theorem join_splitLines (text : ByteString) :
    [lineFeed].intercalate (splitLines text) = text :=
  List.intercalate_splitOn lineFeed

theorem mem_ite {condition : Prop} [Decidable condition] {left right : ByteString}
    {byte : UInt8} : byte ∈ (if condition then left else right) ↔
      (condition ∧ byte ∈ left) ∨ (¬ condition ∧ byte ∈ right) := by
  split <;> simp_all

theorem mem_intercalate {separator text : ByteString} {byte : UInt8} (inside : byte ∈ text) :
    ∀ {texts : List ByteString}, text ∈ texts → byte ∈ separator.intercalate texts
  | [only], member => by
      rw [List.mem_singleton.mp member] at inside
      simpa [List.intercalate] using inside
  | first :: second :: rest, member => by
      have joined : separator.intercalate (first :: second :: rest) =
          first ++ separator ++ separator.intercalate (second :: rest) := by
        simp [List.intercalate]
      rw [joined, List.mem_append, List.mem_append]
      rcases List.mem_cons.mp member with rfl | member
      · exact .inl (.inl inside)
      · exact .inr (mem_intercalate inside member)

theorem mem_of_mem_intercalate {separator : ByteString} {byte : UInt8} :
    ∀ {texts : List ByteString}, byte ∈ separator.intercalate texts →
      byte ∈ separator ∨ ∃ text ∈ texts, byte ∈ text
  | [], member => by simp at member
  | [only], member => .inr ⟨only, List.mem_singleton_self only, by simpa using member⟩
  | first :: second :: rest, member => by
      have joined : separator.intercalate (first :: second :: rest) =
          first ++ separator ++ separator.intercalate (second :: rest) := by
        simp [List.intercalate]
      rw [joined, List.mem_append, List.mem_append] at member
      rcases member with (inside | inside) | later
      · exact .inr ⟨first, List.mem_cons_self, inside⟩
      · exact .inl inside
      · rcases mem_of_mem_intercalate later with inside | ⟨text, textMem, inside⟩
        · exact .inl inside
        · exact .inr ⟨text, List.mem_cons_of_mem first textMem, inside⟩

theorem mem_of_mem_splitLines {text line : ByteString} {byte : UInt8}
    (member : line ∈ splitLines text) (inside : byte ∈ line) : byte ∈ text := by
  rw [← join_splitLines text]
  exact mem_intercalate inside member

theorem not_mem_of_mem_splitOn {separator : UInt8} {text : ByteString} :
    ∀ {piece : ByteString}, piece ∈ text.splitOn separator → separator ∉ piece := by
  induction text with
  | nil => simp
  | cons byte rest induction =>
      intro piece member
      simp only [List.splitOn_cons_eq_if_modifyHead] at member
      split at member
      case isTrue =>
        rcases List.mem_cons.mp member with rfl | member
        · exact List.not_mem_nil
        · exact induction member
      case isFalse different =>
        cases pieces : rest.splitOn separator with
        | nil => exact absurd pieces (List.splitOn_ne_nil separator rest)
        | cons head tail =>
            rw [pieces] at member induction
            rcases List.mem_cons.mp member with rfl | member
            · have headFree := induction List.mem_cons_self
              simp only [beq_iff_eq] at different
              simp [headFree, Ne.symm different]
            · exact induction (List.mem_cons_of_mem head member)

theorem infix_intercalate {separator text : ByteString} :
    ∀ {texts : List ByteString}, text ∈ texts → text <:+: separator.intercalate texts
  | [only], member => by
      rw [List.mem_singleton.mp member, List.intercalate_singleton]
  | first :: second :: rest, member => by
      rw [List.intercalate_cons_cons, List.append_assoc]
      rcases List.mem_cons.mp member with rfl | member
      · exact (List.prefix_append text _).isInfix
      · exact List.infix_append_of_infix_right
          (List.infix_append_of_infix_right (infix_intercalate member))

theorem infix_of_mem_splitOn {separator : UInt8} {text piece : ByteString}
    (member : piece ∈ text.splitOn separator) : piece <:+: text := by
  have inside := @infix_intercalate [separator] piece _ member
  rwa [List.intercalate_splitOn] at inside

theorem lineFeed_not_mem_of_mem_splitLines {text line : ByteString}
    (member : line ∈ splitLines text) : lineFeed ∉ line :=
  not_mem_of_mem_splitOn member

/-! ## Numbers -/

def decimal (number : Nat) : ByteString :=
  match Nat.digits 10 number with
  | [] => [48]
  | digits => digits.reverse.map fun digit => 48 + UInt8.ofNat digit

def isDigit (byte : UInt8) : Bool := 48 ≤ byte && byte ≤ 57

def parseDecimal (text : ByteString) : Option Nat :=
  if text ≠ [] ∧ text.all isDigit then
    some (Nat.ofDigits 10 (text.reverse.map fun byte => byte.toNat - 48))
  else none

theorem digit_facts {digit : Nat} (small : digit < 10) :
    isDigit (48 + UInt8.ofNat digit) = true ∧ (48 + UInt8.ofNat digit).toNat - 48 = digit := by
  have all : ∀ digit : Fin 10, isDigit (48 + UInt8.ofNat digit) = true ∧
      (48 + UInt8.ofNat digit).toNat - 48 = digit := by decide
  exact all ⟨digit, small⟩

theorem parseDecimal_decimal (number : Nat) : parseDecimal (decimal number) = some number := by
  by_cases zero : number = 0
  · subst zero
    decide
  · have digits : decimal number =
        (Nat.digits 10 number).reverse.map fun digit => 48 + UInt8.ofNat digit := by
      cases written : Nat.digits 10 number with
      | nil => exact absurd (Nat.digits_eq_nil_iff_eq_zero.mp written) zero
      | cons digit rest => rw [decimal, written]
    have small : ∀ digit ∈ Nat.digits 10 number, digit < 10 :=
      fun digit => Nat.digits_lt_base (by decide)
    have valid : decimal number ≠ [] ∧ (decimal number).all isDigit = true := by
      rw [digits]
      constructor
      · simpa [Nat.digits_eq_nil_iff_eq_zero] using zero
      · simp only [List.all_map, List.all_reverse, List.all_eq_true, Function.comp_apply]
        exact fun digit member => (digit_facts (small digit member)).1
    have values : (decimal number).reverse.map (fun byte => byte.toNat - 48) =
        Nat.digits 10 number := by
      rw [digits, ← List.map_reverse, List.reverse_reverse, List.map_map]
      calc _ = (Nat.digits 10 number).map id :=
            List.map_congr_left fun digit member => (digit_facts (small digit member)).2
        _ = Nat.digits 10 number := List.map_id _
    rw [parseDecimal, if_pos valid, values, Nat.ofDigits_digits]

def twoDigits (number : Nat) : ByteString :=
  [48 + UInt8.ofNat (number / 10 % 10), 48 + UInt8.ofNat (number % 10)]

section Digits

variable {Own : UInt8 → Prop} (digits : ∀ digit < 10, Own (48 + UInt8.ofNat digit))

include digits

theorem forall_decimal (number : Nat) : ∀ byte ∈ decimal number, Own byte := by
  unfold decimal
  split
  case h_1 =>
    intro byte member
    rw [List.mem_singleton.mp member]
    exact digits 0 (by decide)
  case h_2 =>
    intro byte member
    rcases List.mem_map.mp member with ⟨digit, inside, rfl⟩
    exact digits digit (Nat.digits_lt_base (by decide) (List.mem_reverse.mp inside))

theorem forall_twoDigits (number : Nat) : ∀ byte ∈ twoDigits number, Own byte := by
  intro byte member
  rcases List.mem_cons.mp member with rfl | member
  · exact digits _ (Nat.mod_lt _ (by decide))
  · rw [List.mem_singleton.mp member]
    exact digits _ (Nat.mod_lt _ (by decide))

end Digits

def hexDigit (digit : UInt8) : UInt8 :=
  if digit < 10 then 48 + digit else 87 + digit

def hexEncode (bytes : ByteString) : ByteString :=
  bytes.flatMap fun byte => [hexDigit (byte / 16), hexDigit (byte % 16)]

def unhexDigit (digit : UInt8) : UInt8 :=
  if digit < 58 then digit - 48 else digit - 87

theorem unhexDigit_hexDigit (byte : UInt8) :
    16 * unhexDigit (hexDigit (byte / 16)) + unhexDigit (hexDigit (byte % 16)) = byte := by
  have values : ∀ value : Fin 256, 16 * unhexDigit (hexDigit (UInt8.ofFin value / 16)) +
      unhexDigit (hexDigit (UInt8.ofFin value % 16)) = UInt8.ofFin value := by
    decide +kernel
  exact values byte.toFin

theorem hexEncode_injective : Function.Injective hexEncode := by
  intro left
  induction left with
  | nil =>
      intro right equal
      cases right with
      | nil => rfl
      | cons byte right => simp [hexEncode] at equal
  | cons head left induction =>
      intro right equal
      cases right with
      | nil => simp [hexEncode] at equal
      | cons byte right =>
          simp only [hexEncode, List.flatMap_cons, List.cons_append, List.nil_append,
            List.cons.injEq] at equal
          obtain ⟨high, low, rest⟩ := equal
          have same : head = byte := by
            rw [← unhexDigit_hexDigit head, high, low, unhexDigit_hexDigit]
          rw [same, induction rest]

/-! ## Escaping -/

def escape (table : UInt8 → Option ByteString) (text : ByteString) : ByteString :=
  text.flatMap fun byte => (table byte).getD [byte]

@[simp] theorem escape_nil (table : UInt8 → Option ByteString) :
    escape table [] = [] := rfl

@[simp] theorem escape_cons (table : UInt8 → Option ByteString) (byte : UInt8)
    (text : ByteString) :
    escape table (byte :: text) = (table byte).getD [byte] ++ escape table text := rfl

@[simp] theorem escape_append (table : UInt8 → Option ByteString)
    (left right : ByteString) :
    escape table (left ++ right) = escape table left ++ escape table right :=
  List.flatMap_append

theorem mem_escape_iff {table : UInt8 → Option ByteString} {byte : UInt8}
    (kept : table byte = none)
    (foreign : ∀ other piece, table other = some piece → byte ∉ piece)
    (text : ByteString) : byte ∈ escape table text ↔ byte ∈ text := by
  induction text with
  | nil => simp
  | cons head tail induction =>
      rw [escape_cons, List.mem_append, List.mem_cons, induction]
      cases replaced : table head with
      | none => simp
      | some piece =>
          have different : byte ≠ head := by
            rintro rfl
            rw [kept] at replaced
            cases replaced
          simp [foreign head piece replaced, different]

theorem not_mem_escape {table : UInt8 → Option ByteString} {byte : UInt8}
    {replacement : ByteString} (replaced : table byte = some replacement)
    (foreign : ∀ other piece, table other = some piece → byte ∉ piece)
    (text : ByteString) : byte ∉ escape table text := by
  induction text with
  | nil => exact List.not_mem_nil
  | cons head tail induction =>
      rw [escape_cons, List.mem_append, not_or]
      constructor
      · cases found : table head with
        | some piece => exact foreign head piece found
        | none =>
            intro member
            rw [List.mem_singleton.mp member, found] at replaced
            cases replaced
      · exact induction

theorem escape_of_unlisted {table : UInt8 → Option ByteString} {text : ByteString}
    (kept : ∀ byte ∈ text, table byte = none) : escape table text = text := by
  induction text with
  | nil => rfl
  | cons head tail induction =>
      rw [escape_cons, kept head List.mem_cons_self,
        induction fun byte member => kept byte (List.mem_cons_of_mem head member)]
      rfl

/-! ## UTF-8 -/

def isContinuation (byte : UInt8) : Bool := 0x80 ≤ byte && byte ≤ 0xBF

def runeWidth : ByteString → Option Nat
  | [] => none
  | first :: rest =>
      if first < 0x80 then some 1
      else if 0xC2 ≤ first && first ≤ 0xDF then
        match rest with
        | second :: _ => if isContinuation second then some 2 else none
        | _ => none
      else if 0xE0 ≤ first && first ≤ 0xEF then
        match rest with
        | second :: third :: _ =>
            let low : UInt8 := if first = 0xE0 then 0xA0 else 0x80
            let high : UInt8 := if first = 0xED then 0x9F else 0xBF
            if low ≤ second && second ≤ high && isContinuation third then some 3 else none
        | _ => none
      else if 0xF0 ≤ first && first ≤ 0xF4 then
        match rest with
        | second :: third :: fourth :: _ =>
            let low : UInt8 := if first = 0xF0 then 0x90 else 0x80
            let high : UInt8 := if first = 0xF4 then 0x8F else 0xBF
            if low ≤ second && second ≤ high && isContinuation third &&
              isContinuation fourth then some 4 else none
        | _ => none
      else none

def replacementRune : ByteString := [0xEF, 0xBF, 0xBD]

/-- Replace every byte that is not part of a well-formed encoding. The count
is of bytes still to be copied. -/
def validateFrom : Nat → ByteString → ByteString
  | _, [] => []
  | count + 1, byte :: rest => byte :: validateFrom count rest
  | 0, byte :: rest =>
      match runeWidth (byte :: rest) with
      | some width => byte :: validateFrom (width - 1) rest
      | none => replacementRune ++ validateFrom 0 rest

def toValidUTF8 (text : ByteString) : ByteString := validateFrom 0 text

def firstRune (text : ByteString) : Option ByteString :=
  match text with
  | [] => none
  | _ :: _ =>
      match runeWidth text with
      | some width => some (text.take width)
      | none => some replacementRune

theorem runeWidth_of_ascii {byte : UInt8} (ascii : byte < 0x80) (rest : ByteString) :
    runeWidth (byte :: rest) = some 1 := by
  simp [runeWidth, ascii]

theorem toValidUTF8_of_ascii {text : ByteString} (ascii : ∀ byte ∈ text, byte < 0x80) :
    toValidUTF8 text = text := by
  induction text with
  | nil => rfl
  | cons byte text induction =>
      have later := induction fun other member => ascii other (List.mem_cons_of_mem byte member)
      rw [toValidUTF8] at later ⊢
      simp only [validateFrom, runeWidth_of_ascii (ascii byte List.mem_cons_self) text,
        Nat.sub_self, later]

theorem toValidUTF8_eq_nil {text : ByteString} : toValidUTF8 text = [] ↔ text = [] := by
  cases text with
  | nil => simp [toValidUTF8, validateFrom]
  | cons head rest =>
      simp only [toValidUTF8, validateFrom]
      split <;> simp [replacementRune]

theorem firstRune_eq_none {text : ByteString} : firstRune text = none ↔ text = [] := by
  cases text with
  | nil => simp [firstRune]
  | cons head rest =>
      simp only [firstRune]
      split <;> simp

end Bytes

end Grunt.Foundation
