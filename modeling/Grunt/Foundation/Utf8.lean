import Grunt.Foundation.Unicode

/-! # Texts of well-formed characters

A text is cut into well-formed characters and single bytes that belong to
none. Replacing the latter leaves a text that is well-formed throughout.
-/

namespace Grunt.Foundation.Bytes

variable {head : UInt8} {rest : ByteString} {width : Nat}

/-- The shapes of a well-formed character. -/
inductive Rune : ByteString → Prop
  | one {first : UInt8} : first < 0x80 → Rune [first]
  | two {first second : UInt8} : 0xC2 ≤ first → first ≤ 0xDF → isContinuation second = true →
      Rune [first, second]
  | three {first second third : UInt8} : 0xE0 ≤ first → first ≤ 0xEF →
      (if first = 0xE0 then (0xA0 : UInt8) else 0x80) ≤ second →
      second ≤ (if first = 0xED then (0x9F : UInt8) else 0xBF) →
      isContinuation third = true → Rune [first, second, third]
  | four {first second third fourth : UInt8} : 0xF0 ≤ first → first ≤ 0xF4 →
      (if first = 0xF0 then (0x90 : UInt8) else 0x80) ≤ second →
      second ≤ (if first = 0xF4 then (0x8F : UInt8) else 0xBF) →
      isContinuation third = true → isContinuation fourth = true →
      Rune [first, second, third, fourth]

theorem lt_of_le_of_lt {low byte limit : UInt8} (above : limit ≤ byte) (bound : low < limit) :
    ¬ byte < limit ∧ ¬ byte ≤ low := by
  rw [UInt8.le_iff_toNat_le] at above
  rw [UInt8.lt_iff_toNat_lt] at bound
  rw [UInt8.lt_iff_toNat_lt, UInt8.le_iff_toNat_le]
  omega

theorem Rune.runeWidth {rune : ByteString} (formed : Rune rune) (more : ByteString) :
    Bytes.runeWidth (rune ++ more) = some rune.length := by
  cases formed with
  | one ascii => simp [Bytes.runeWidth, ascii]
  | two low high continues =>
      have wide := (lt_of_le_of_lt low (by decide : (0x80 : UInt8) < 0xC2)).2
      have unascii : ¬ _ < (0x80 : UInt8) := fun ascii => wide (UInt8.le_of_lt ascii)
      simp [Bytes.runeWidth, unascii, low, high, continues]
  | three low high least most continues =>
      have wide := (lt_of_le_of_lt low (by decide : (0x80 : UInt8) < 0xE0)).2
      have two := (lt_of_le_of_lt low (by decide : (0xDF : UInt8) < 0xE0)).2
      have unascii : ¬ _ < (0x80 : UInt8) := fun ascii => wide (UInt8.le_of_lt ascii)
      simp [Bytes.runeWidth, unascii, two, low, high, least, most, continues]
  | four low high least most third fourth =>
      have wide := (lt_of_le_of_lt low (by decide : (0x80 : UInt8) < 0xF0)).2
      have two := (lt_of_le_of_lt low (by decide : (0xDF : UInt8) < 0xF0)).2
      have three := (lt_of_le_of_lt low (by decide : (0xEF : UInt8) < 0xF0)).2
      have unascii : ¬ _ < (0x80 : UInt8) := fun ascii => wide (UInt8.le_of_lt ascii)
      simp [Bytes.runeWidth, unascii, two, three, low, high, least, most, third, fourth]

theorem le_of_isContinuation {byte : UInt8} (continues : isContinuation byte = true) :
    0x80 ≤ byte := by
  unfold isContinuation at continues
  exact of_decide_eq_true (Bool.and_eq_true_iff.mp continues).1

theorem Rune.wide {first second : UInt8} {rest : ByteString}
    (formed : Rune (first :: second :: rest)) : ∀ byte ∈ first :: second :: rest, 0x80 ≤ byte := by
  have least {condition : Prop} [Decidable condition] {byte low : UInt8} (above : 0x80 ≤ low)
      (bound : (if condition then low else 0x80) ≤ byte) : 0x80 ≤ byte := by
    refine UInt8.le_trans ?_ bound
    split
    · exact above
    · exact UInt8.le_refl _
  cases formed with
  | two low high continues =>
      simp only [List.mem_cons, List.not_mem_nil, or_false, forall_eq_or_imp, forall_eq]
      exact ⟨UInt8.le_trans (by decide) low, le_of_isContinuation continues⟩
  | three low high second _ third =>
      simp only [List.mem_cons, List.not_mem_nil, or_false, forall_eq_or_imp, forall_eq]
      exact ⟨UInt8.le_trans (by decide) low, least (by decide) second,
        le_of_isContinuation third⟩
  | four low high second _ third fourth =>
      simp only [List.mem_cons, List.not_mem_nil, or_false, forall_eq_or_imp, forall_eq]
      exact ⟨UInt8.le_trans (by decide) low, least (by decide) second,
        le_of_isContinuation third, le_of_isContinuation fourth⟩

theorem exists_rune (formed : runeWidth (head :: rest) = some width) :
    ∃ rune tail, Rune rune ∧ head :: rest = rune ++ tail ∧ width = rune.length := by
  unfold runeWidth at formed
  dsimp only at formed
  split at formed
  case isTrue ascii =>
    cases formed
    exact ⟨[head], rest, .one ascii, rfl, rfl⟩
  case isFalse =>
    split at formed
    case isTrue two =>
      simp only [Bool.and_eq_true, decide_eq_true_eq] at two
      split at formed
      case h_2 => cases formed
      case h_1 second tail =>
        rcases Option.ite_none_right_eq_some.mp formed with ⟨continues, same⟩
        cases same
        exact ⟨[head, second], tail, .two two.1 two.2 continues, rfl, rfl⟩
    case isFalse =>
      split at formed
      case isTrue three =>
        simp only [Bool.and_eq_true, decide_eq_true_eq] at three
        split at formed
        case h_2 => cases formed
        case h_1 second third tail =>
          rcases Option.ite_none_right_eq_some.mp formed with ⟨bounds, same⟩
          cases same
          simp only [Bool.and_eq_true, decide_eq_true_eq] at bounds
          exact ⟨[head, second, third], tail,
            .three three.1 three.2 bounds.1.1 bounds.1.2 bounds.2, rfl, rfl⟩
      case isFalse =>
        split at formed
        case isFalse => cases formed
        case isTrue four =>
          simp only [Bool.and_eq_true, decide_eq_true_eq] at four
          split at formed
          case h_2 => cases formed
          case h_1 second third fourth tail =>
            rcases Option.ite_none_right_eq_some.mp formed with ⟨bounds, same⟩
            cases same
            simp only [Bool.and_eq_true, decide_eq_true_eq] at bounds
            exact ⟨[head, second, third, fourth], tail,
              .four four.1 four.2 bounds.1.1.1 bounds.1.1.2 bounds.1.2 bounds.2, rfl, rfl⟩

/-! ## Replacing what is malformed -/

theorem validateFrom_append (rune more : ByteString) :
    validateFrom rune.length (rune ++ more) = rune ++ validateFrom 0 more := by
  induction rune with
  | nil => rfl
  | cons byte rune induction =>
      rw [List.cons_append, List.length_cons, validateFrom, induction, List.cons_append]

theorem toValidUTF8_rune {rune : ByteString} (formed : Rune rune) (more : ByteString) :
    toValidUTF8 (rune ++ more) = rune ++ toValidUTF8 more := by
  have width := formed.runeWidth more
  cases rune with
  | nil => rfl
  | cons byte rune =>
      rw [List.cons_append] at width ⊢
      rw [toValidUTF8, validateFrom, width]
      simp only [List.length_cons, Nat.add_sub_cancel, validateFrom_append]
      rfl

theorem toValidUTF8_malformed (unformed : runeWidth (head :: rest) = none) :
    toValidUTF8 (head :: rest) = replacementRune ++ toValidUTF8 rest := by
  rw [toValidUTF8, validateFrom, unformed]
  rfl

theorem rune_replacementRune : Rune replacementRune :=
  .three (by decide) (by decide) (by decide) (by decide) (by decide)

/-- Induction along the characters of a text and the bytes that belong to none. -/
theorem rune_induction {Holds : ByteString → Prop} (nil : Holds [])
    (rune : ∀ rune rest, Rune rune → Holds rest → Holds (rune ++ rest))
    (malformed : ∀ head rest, runeWidth (head :: rest) = none → Holds rest →
      Holds (head :: rest)) : ∀ text, Holds text := by
  intro text
  induction size : text.length using Nat.strongRecOn generalizing text with
  | ind bound induction =>
      cases text with
      | nil => exact nil
      | cons head rest =>
          cases width : runeWidth (head :: rest) with
          | none => exact malformed head rest width (induction _ (by rw [← size]; simp) rest rfl)
          | some width' =>
              obtain ⟨first, tail, formed, same, -⟩ := exists_rune width
              have nonempty : 0 < first.length := by cases formed <;> exact Nat.succ_pos _
              rw [same] at size ⊢
              rw [List.length_append] at size
              exact rune first tail formed (induction _ (by omega) tail rfl)

theorem toValidUTF8_toValidUTF8 (text : ByteString) :
    toValidUTF8 (toValidUTF8 text) = toValidUTF8 text := by
  induction text using rune_induction with
  | nil => rfl
  | rune rune rest formed induction =>
      rw [toValidUTF8_rune formed, toValidUTF8_rune formed, induction]
  | malformed head rest unformed induction =>
      rw [toValidUTF8_malformed unformed, toValidUTF8_rune rune_replacementRune, induction]

end Grunt.Foundation.Bytes
