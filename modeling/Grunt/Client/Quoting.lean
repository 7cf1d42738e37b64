import Grunt.Client.Message
import Grunt.Foundation.JsonText

/-! # Strings through JSON

What `json.Marshal` writes for a string and what a JSON reader makes of it:
the string, with U+FFFD for every malformed byte.
-/

namespace Grunt.Client

open Foundation Json

-- `split` cannot take the literals of `quoteRune` apart when all of Mathlib is there
set_option linter.auxLemma false in
theorem quoteRune_kinds (first second : UInt8) (rest : ByteString) :
    (first :: second :: rest = [0xE2, 0x80, 0xA8] ∧
      quoteRune (first :: second :: rest) = utf8 "\\u2028") ∨
    (first :: second :: rest = [0xE2, 0x80, 0xA9] ∧
      quoteRune (first :: second :: rest) = utf8 "\\u2029") ∨
    quoteRune (first :: second :: rest) = first :: second :: rest := by
  delta quoteRune quoteRune.match_1
  by_cases middle : second = 0x80
  case neg => exact .inr (.inr (dif_neg middle))
  subst middle
  cases rest with
  | nil => exact .inr (.inr rfl)
  | cons third rest =>
      by_cases line : third = 0xA8
      · subst line
        cases rest with
        | cons => exact .inr (.inr rfl)
        | nil =>
            by_cases head : first = 0xE2
            · subst head
              exact .inl ⟨rfl, rfl⟩
            · exact .inr (.inr (dif_neg head))
      · by_cases paragraph : third = 0xA9
        · subst paragraph
          cases rest with
          | cons => exact .inr (.inr rfl)
          | nil =>
              by_cases head : first = 0xE2
              · subst head
                exact .inr (.inl ⟨rfl, rfl⟩)
              · exact .inr (.inr (dif_neg head))
        · exact .inr (.inr ((dif_neg line).trans (dif_neg paragraph)))

/-- The three ways of writing an ASCII character: as it is, as a backslash and
a letter, as a code unit. -/
theorem quoteASCII_kinds {byte : UInt8} (ascii : byte < 0x80) :
    (quoteASCII byte = [byte] ∧ ¬ byte < 32 ∧ byte ≠ 34 ∧ byte ≠ 92) ∨
    (∃ letter, quoteASCII byte = [92, letter] ∧ letter ≠ 117 ∧ shortEscape letter = some byte) ∨
    ∃ high low, quoteASCII byte = [92, 117, 48, 48, high, low] ∧
      ∃ one two, hexValue high = some one ∧ hexValue low = some two ∧ one < 8 ∧ two < 16 ∧
        byte = UInt8.ofNat (one * 16 + two) := by
  have values : ∀ value : Fin 128,
      let byte := UInt8.ofNat value
      let letter := (quoteASCII byte).getLastD 0
      (quoteASCII byte = [byte] ∧ ¬ byte < 32 ∧ byte ≠ 34 ∧ byte ≠ 92) ∨
      (quoteASCII byte = [92, letter] ∧ letter ≠ 117 ∧ shortEscape letter = some byte) ∨
      quoteASCII byte =
          [92, 117, 48, 48, Bytes.hexDigit (byte / 16), Bytes.hexDigit (byte % 16)] ∧
        hexValue (Bytes.hexDigit (byte / 16)) = some (byte / 16).toNat ∧
        hexValue (Bytes.hexDigit (byte % 16)) = some (byte % 16).toNat := by
    decide +kernel
  have small : byte.toNat < 128 := UInt8.lt_iff_toNat_lt.mp ascii
  have kinds := values ⟨byte.toNat, small⟩
  simp only [UInt8.ofNat_toNat] at kinds
  rcases kinds with same | ⟨written, other, escape⟩ | ⟨written, high, low⟩
  · exact .inl same
  · exact .inr (.inl ⟨_, written, other, escape⟩)
  · refine .inr (.inr ⟨_, _, written, _, _, high, low, ?_, ?_, ?_⟩)
    · rw [UInt8.toNat_div]
      exact Nat.div_lt_of_lt_mul small
    · rw [UInt8.toNat_mod]
      exact Nat.mod_lt _ (by decide)
    · rw [UInt8.toNat_div, UInt8.toNat_mod]
      have parts : byte.toNat / 16 * 16 + byte.toNat % 16 = byte.toNat := by omega
      exact (congrArg UInt8.ofNat parts ▸ (UInt8.ofNat_toNat).symm)

theorem encodeUnit_ascii {code : Nat} (ascii : code < 128) : encodeUnit code = [UInt8.ofNat code] := by
  have high : isHigh code = false := by simp [isHigh]; omega
  have low : isLow code = false := by simp [isLow]; omega
  rw [encodeUnit, high, low, Unicode.encode, if_pos ascii]
  rfl

theorem spells_quoteASCII {byte : UInt8} (ascii : byte < 0x80) :
    Spells (quoteASCII byte) [byte] := by
  rcases quoteASCII_kinds ascii with ⟨same, printable, unquoted, unescaped⟩ |
    ⟨letter, written, other, escape⟩ | ⟨high, low, written, one, two, first, second, small, less, same⟩
  · rw [same]
    exact .byte printable unquoted unescaped
  · rw [written]
    exact .short other escape
  · have zero : hexValue 48 = some 0 := by decide
    have alone : isHigh (0 * 4096 + 0 * 256 + one * 16 + two) = false := by
      simp [isHigh]
      omega
    have whole : 0 * 4096 + 0 * 256 + one * 16 + two = one * 16 + two := by omega
    have unit := Spells.unit zero zero first second alone
    rwa [whole, encodeUnit_ascii (by omega), ← same, ← written] at unit

theorem solid_of_rune {first second : UInt8} {rest : ByteString}
    (formed : Bytes.Rune (first :: second :: rest)) :
    ∀ byte ∈ first :: second :: rest, ¬ byte < 32 ∧ byte ≠ 34 ∧ byte ≠ 92 := by
  intro byte member
  have high := UInt8.le_iff_toNat_le.mp (formed.wide byte member)
  refine ⟨?_, ?_, ?_⟩
  · rw [UInt8.lt_iff_toNat_lt]
    exact Nat.not_lt.mpr (Nat.le_trans (by decide) high)
  · rintro rfl
    exact absurd high (by decide)
  · rintro rfl
    exact absurd high (by decide)

theorem spells_quoteRune {rune : ByteString} (formed : Bytes.Rune rune) :
    Spells (quoteRune rune) rune := by
  match rune, formed with
  | [byte], .one ascii => exact spells_quoteASCII ascii
  | first :: second :: rest, formed =>
      rcases quoteRune_kinds first second rest with ⟨same, written⟩ | ⟨same, written⟩ | written
      · have unit : Spells [92, 117, 50, 48, 50, 56] (encodeUnit (2 * 4096 + 0 * 256 + 2 * 16 + 8)) :=
          .unit (by decide) (by decide) (by decide) (by decide) (by decide)
        rw [written, same]
        exact unit
      · have unit : Spells [92, 117, 50, 48, 50, 57] (encodeUnit (2 * 4096 + 0 * 256 + 2 * 16 + 9)) :=
          .unit (by decide) (by decide) (by decide) (by decide) (by decide)
        rw [written, same]
        exact unit
      · rw [written]
        exact .bytes (solid_of_rune formed)

theorem quoteFrom_append (rune more : ByteString) :
    quoteFrom rune.length (rune ++ more) = quoteFrom 0 more := by
  induction rune with
  | nil => rfl
  | cons byte rune induction => exact induction

theorem quoteFrom_rune {rune : ByteString} (formed : Bytes.Rune rune) (more : ByteString) :
    quoteFrom 0 (rune ++ more) = quoteRune rune ++ quoteFrom 0 more := by
  have width := formed.runeWidth more
  cases rune with
  | nil => cases formed
  | cons byte rune =>
      rw [List.cons_append] at width ⊢
      rw [quoteFrom, width]
      simp only [List.length_cons, Nat.add_sub_cancel, quoteFrom_append]
      rw [List.take_succ_cons, List.take_left]

theorem spells_quoteFrom (text : ByteString) :
    Spells (quoteFrom 0 text) (Bytes.toValidUTF8 text) := by
  induction text using Bytes.rune_induction with
  | nil => exact .nil
  | rune rune rest formed induction =>
      rw [quoteFrom_rune formed, Bytes.toValidUTF8_rune formed]
      exact (spells_quoteRune formed).append induction
  | malformed head rest unformed induction =>
      rw [quoteFrom, unformed, Bytes.toValidUTF8_malformed unformed]
      have unit : Spells [92, 117, 102, 102, 102, 100] (encodeUnit (15 * 4096 + 15 * 256 + 15 * 16 + 13)) :=
        .unit (by decide) (by decide) (by decide) (by decide) (by decide)
      exact unit.append induction

theorem quotes_quoteFrom (text : ByteString) :
    Quotes (quoteFrom 0 text) (Bytes.toValidUTF8 text) := by
  rw [← Bytes.toValidUTF8_toValidUTF8]
  exact (spells_quoteFrom text).quotes

end Grunt.Client
