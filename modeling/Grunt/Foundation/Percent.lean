import Grunt.Foundation.Path

/-! # Percent-encoding

How long a text is once it is decoded, and what decoding does on the two
sides of a separator.
-/

namespace Grunt.Foundation.Path

def percent : UInt8 := 37

def hexPair : ByteString → Bool
  | first :: second :: _ => (unhex first).isSome && (unhex second).isSome
  | _ => false

theorem exists_of_hexPair {text : ByteString} (pair : hexPair text = true) :
    ∃ first second rest high low, text = first :: second :: rest ∧
      unhex first = some high ∧ unhex second = some low := by
  match text with
  | [] => cases pair
  | [_] => cases pair
  | first :: second :: rest =>
      have both := Bool.and_eq_true_iff.mp pair
      rcases Option.isSome_iff_exists.mp both.1 with ⟨high, isHigh⟩
      rcases Option.isSome_iff_exists.mp both.2 with ⟨low, isLow⟩
      exact ⟨first, second, rest, high, low, rfl, isHigh, isLow⟩

theorem hexPair_append {separator : UInt8} (plain : unhex separator = none)
    (left right : ByteString) : hexPair (left ++ separator :: right) = hexPair left := by
  match left with
  | [] => cases right <;> simp [hexPair, plain]
  | [first] => simp [hexPair, plain]
  | first :: second :: rest => rfl

theorem drop_two_append {left : ByteString} (pair : hexPair left = true)
    (right : ByteString) : (left ++ right).drop 2 = left.drop 2 ++ right := by
  rcases exists_of_hexPair pair with ⟨first, second, rest, -, -, rfl, -, -⟩
  rfl

/-! ## Decoding -/

theorem unescape_cons_of_ne {byte : UInt8} (plain : byte ≠ percent) (rest : ByteString) :
    unescape (byte :: rest) = (unescape rest).map fun tail => byte :: tail := by
  rw [unescape]
  · exact if_neg plain
  · exact fun first second tail same => absurd same plain

theorem unescape_of_not_hexPair {rest : ByteString} (single : hexPair rest = false) :
    unescape (percent :: rest) = none := by
  match rest with
  | [] => rfl
  | [_] => rfl
  | first :: second :: rest =>
      have either := Bool.and_eq_false_iff.mp single
      rw [percent, unescape]
      split
      case h_1 isHigh isLow => simp [isHigh, isLow] at either
      case h_2 => rfl

theorem unescape_pair {first second high low : UInt8} (isHigh : unhex first = some high)
    (isLow : unhex second = some low) (rest : ByteString) :
    unescape (percent :: first :: second :: rest) =
      (unescape rest).map fun tail => (high * 16 + low) :: tail := by
  rw [percent, unescape, isHigh, isLow]

theorem unescape_of_not_mem {text : ByteString} (plain : percent ∉ text) :
    unescape text = some text := by
  induction text with
  | nil => rfl
  | cons byte rest induction =>
      have here : byte ≠ percent := fun same => plain (same ▸ List.mem_cons_self)
      rw [unescape_cons_of_ne here,
        induction fun member => plain (List.mem_cons_of_mem byte member)]
      rfl

/-- The number of bytes that the text stands for; a percent sign without digits
stands for itself. -/
def decodedLength : ByteString → Nat
  | [] => 0
  | byte :: rest =>
      if byte = percent ∧ hexPair rest = true then decodedLength (rest.drop 2) + 1
      else decodedLength rest + 1
termination_by text => text.length
decreasing_by
  · simp only [List.length_cons, List.length_drop]
    omega
  · simp only [List.length_cons]
    omega

theorem length_of_unescape {text decoded : ByteString} (done : unescape text = some decoded) :
    decoded.length = decodedLength text := by
  induction text using decodedLength.induct generalizing decoded with
  | case1 =>
      cases done
      rw [decodedLength]
      rfl
  | case2 byte rest both induction =>
      rcases both with ⟨rfl, pair⟩
      rcases exists_of_hexPair pair with ⟨first, second, tail, high, low, rfl, one, two⟩
      rw [unescape_pair one two] at done
      rcases Option.map_eq_some_iff.mp done with ⟨later, decodes, rfl⟩
      rw [decodedLength, if_pos ⟨rfl, pair⟩, List.length_cons, induction decodes]
  | case3 byte rest single induction =>
      rw [decodedLength, if_neg single]
      by_cases sign : byte = percent
      · subst sign
        have alone : hexPair rest = false := Bool.eq_false_iff.mpr fun pair => single ⟨rfl, pair⟩
        rw [unescape_of_not_hexPair alone] at done
        cases done
      · rw [unescape_cons_of_ne sign] at done
        rcases Option.map_eq_some_iff.mp done with ⟨later, decodes, rfl⟩
        rw [List.length_cons, induction decodes]

theorem decodedLength_of_not_mem {text : ByteString} (plain : percent ∉ text) :
    decodedLength text = text.length :=
  (length_of_unescape (unescape_of_not_mem plain)).symm

theorem decodedLength_pair {first second : UInt8} (isHigh : (unhex first).isSome = true)
    (isLow : (unhex second).isSome = true) (rest : ByteString) :
    decodedLength (percent :: first :: second :: rest) = decodedLength rest + 1 := by
  have pair : hexPair (first :: second :: rest) = true :=
    Bool.and_eq_true_iff.mpr ⟨isHigh, isLow⟩
  rw [decodedLength, if_pos ⟨rfl, pair⟩]
  rfl

theorem decodedLength_cons_of_ne {byte : UInt8} (plain : byte ≠ percent) (rest : ByteString) :
    decodedLength (byte :: rest) = decodedLength rest + 1 := by
  rw [decodedLength, if_neg fun both => plain both.1]

section Separator

variable {separator : UInt8}

theorem decodedLength_append (plain : unhex separator = none) (other : separator ≠ percent)
    (left right : ByteString) :
    decodedLength (left ++ separator :: right) =
      decodedLength left + 1 + decodedLength right := by
  induction left using decodedLength.induct with
  | case1 =>
      rw [List.nil_append, decodedLength, decodedLength, if_neg fun both => other both.1]
      omega
  | case2 byte rest both induction =>
      rw [List.cons_append, decodedLength, decodedLength, hexPair_append plain, if_pos both,
        if_pos both, drop_two_append both.2, induction]
      omega
  | case3 byte rest single induction =>
      rw [List.cons_append, decodedLength, decodedLength, hexPair_append plain, if_neg single,
        if_neg single, induction]
      omega

theorem unescape_append (plain : unhex separator = none) (other : separator ≠ percent)
    (left right : ByteString) :
    unescape (left ++ separator :: right) =
      (unescape left).bind fun front => (unescape right).map fun back =>
        front ++ separator :: back := by
  induction left using decodedLength.induct with
  | case1 =>
      rw [List.nil_append, unescape_cons_of_ne other]
      rfl
  | case2 byte rest both induction =>
      rcases both with ⟨rfl, pair⟩
      rcases exists_of_hexPair pair with ⟨first, second, tail, high, low, rfl, one, two⟩
      simp only [List.drop_succ_cons, List.drop_zero] at induction
      rw [unescape_pair one two, List.cons_append, List.cons_append, List.cons_append,
        unescape_pair one two, induction]
      cases unescape tail <;> cases unescape right <;> rfl
  | case3 byte rest single induction =>
      rw [List.cons_append]
      by_cases sign : byte = percent
      · subst sign
        have alone : hexPair rest = false := Bool.eq_false_iff.mpr fun pair => single ⟨rfl, pair⟩
        rw [unescape_of_not_hexPair alone,
          unescape_of_not_hexPair ((hexPair_append plain rest right).trans alone)]
        rfl
      · rw [unescape_cons_of_ne sign, unescape_cons_of_ne sign, induction]
        cases unescape rest <;> cases unescape right <;> rfl

end Separator

/-! ## Encoding -/

theorem unhex_upperHexDigit (byte : UInt8) :
    ∃ high low, unhex (upperHexDigit (byte / 16)) = some high ∧
      unhex (upperHexDigit (byte % 16)) = some low ∧ high * 16 + low = byte := by
  have values : ∀ value : Fin 256,
      unhex (upperHexDigit (UInt8.ofFin value / 16)) = some (UInt8.ofFin value / 16) ∧
      unhex (upperHexDigit (UInt8.ofFin value % 16)) = some (UInt8.ofFin value % 16) ∧
      UInt8.ofFin value / 16 * 16 + UInt8.ofFin value % 16 = UInt8.ofFin value := by
    decide +kernel
  exact ⟨byte / 16, byte % 16, values byte.toFin⟩

theorem isPathByte_percent : isPathByte percent = false := by decide

@[simp] theorem escape_nil : escape [] = [] := rfl

theorem escape_cons (byte : UInt8) (rest : ByteString) :
    escape (byte :: rest) =
      (if isPathByte byte then [byte]
        else [percent, upperHexDigit (byte / 16), upperHexDigit (byte % 16)]) ++ escape rest :=
  rfl

theorem escape_append (left right : ByteString) :
    escape (left ++ right) = escape left ++ escape right :=
  List.flatMap_append

theorem unescape_escape (text : ByteString) : unescape (escape text) = some text := by
  induction text with
  | nil => rfl
  | cons byte rest induction =>
      rw [escape_cons]
      split
      case isTrue kept =>
        have plain : byte ≠ percent := by
          rintro rfl
          rw [isPathByte_percent] at kept
          cases kept
        rw [List.singleton_append, unescape_cons_of_ne plain, induction]
        rfl
      case isFalse =>
        rcases unhex_upperHexDigit byte with ⟨high, low, isHigh, isLow, whole⟩
        rw [List.cons_append, List.cons_append, List.singleton_append,
          unescape_pair isHigh isLow, induction, whole]
        rfl

theorem escape_intercalate (parts : List ByteString) :
    escape ([slash].intercalate parts) = [slash].intercalate (parts.map escape) := by
  induction parts with
  | nil => rfl
  | cons part rest induction =>
      cases rest with
      | nil => rw [List.intercalate_singleton, List.map_singleton, List.intercalate_singleton]
      | cons next rest =>
          rw [List.map_cons, List.map_cons, List.intercalate_cons_cons,
            List.intercalate_cons_cons, escape_append, escape_append, induction, List.map_cons]
          rfl

theorem mem_of_mem_escape {byte : UInt8} (plain : unhex byte = none) (other : byte ≠ percent)
    {text : ByteString} (inside : byte ∈ escape text) :
    byte ∈ text ∧ isPathByte byte = true := by
  rcases List.mem_flatMap.mp inside with ⟨origin, member, found⟩
  split at found
  case isTrue kept =>
    rw [List.mem_singleton.mp found]
    exact ⟨member, kept⟩
  case isFalse =>
    rcases unhex_upperHexDigit origin with ⟨high, low, isHigh, isLow, -⟩
    rcases List.mem_cons.mp found with rfl | found
    · exact absurd rfl other
    · rcases List.mem_cons.mp found with rfl | found
      · rw [plain] at isHigh
        cases isHigh
      · rw [List.mem_singleton.mp found] at plain
        rw [plain] at isLow
        cases isLow

def EscapeFree (text : ByteString) : Prop :=
  ∀ rest, percent :: rest <:+ text → hexPair rest = false

theorem escapeFree_nil : EscapeFree [] := fun rest suffix => by
  cases List.suffix_nil.mp suffix

theorem escapeFree_cons {byte : UInt8} {rest : ByteString} :
    EscapeFree (byte :: rest) ↔
      ¬ (byte = percent ∧ hexPair rest = true) ∧ EscapeFree rest := by
  unfold EscapeFree
  constructor
  · intro free
    constructor
    · rintro ⟨rfl, pair⟩
      rw [free rest List.suffix_rfl] at pair
      cases pair
    · exact fun tail suffix => free tail (suffix.trans (List.suffix_cons byte rest))
  · rintro ⟨single, free⟩ tail suffix
    rcases List.suffix_cons_iff.mp suffix with same | suffix
    · cases same
      exact Bool.eq_false_iff.mpr fun pair => single ⟨rfl, pair⟩
    · exact free tail suffix

theorem EscapeFree.of_infix {part text : ByteString} (free : EscapeFree text)
    (inside : part <:+: text) : EscapeFree part := by
  rcases inside with ⟨before, after, rfl⟩
  rintro rest ⟨front, rfl⟩
  have single := free (rest ++ after) ⟨before ++ front, by simp⟩
  cases pair : hexPair rest with
  | false => rfl
  | true =>
      rcases exists_of_hexPair pair with ⟨first, second, tail, high, low, rfl, one, two⟩
      exact pair.symm.trans single

theorem decodedLength_le (text : ByteString) : decodedLength text ≤ text.length := by
  induction text using decodedLength.induct with
  | case1 =>
      rw [decodedLength]
      exact Nat.le_refl 0
  | case2 byte rest both induction =>
      rw [decodedLength, if_pos both, List.length_cons]
      rw [List.length_drop] at induction
      omega
  | case3 byte rest single induction =>
      rw [decodedLength, if_neg single, List.length_cons]
      omega

theorem decodedLength_eq_length_iff (text : ByteString) :
    decodedLength text = text.length ↔ EscapeFree text := by
  induction text with
  | nil =>
      rw [decodedLength]
      exact iff_of_true rfl escapeFree_nil
  | cons byte rest induction =>
      rw [escapeFree_cons, decodedLength, List.length_cons, ← induction]
      by_cases both : byte = percent ∧ hexPair rest = true
      · have bound := decodedLength_le (rest.drop 2)
        rcases exists_of_hexPair both.2 with ⟨first, second, tail, -, -, rfl, -, -⟩
        rw [if_pos both]
        rw [List.length_drop] at bound
        simp only [List.length_cons] at bound ⊢
        constructor
        · intro same
          omega
        · exact fun free => absurd both free.1
      · rw [if_neg both]
        constructor
        · exact fun same => ⟨both, by omega⟩
        · exact fun free => by rw [free.2]

end Grunt.Foundation.Path
