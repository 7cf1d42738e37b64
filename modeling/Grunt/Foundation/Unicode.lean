import Grunt.Foundation.Bytes

/-! # Characters

Code points, their UTF-8 encoding and the simple upper-case mapping of
Unicode 15.
-/

namespace Grunt.Foundation.Unicode

/-- The code points from `low` to `high`, every one or every second one, whose
upper case lies `delta` further. -/
structure CaseRange where
  low : Nat
  high : Nat
  stride : Nat
  delta : Int

namespace CaseRange

def contains (range : CaseRange) (code : Nat) : Bool :=
  range.low ≤ code && code ≤ range.high && (code - range.low) % range.stride = 0

end CaseRange

def upperRanges : List CaseRange :=
  [⟨97, 122, 1, -32⟩, ⟨181, 181, 1, 743⟩, ⟨224, 246, 1, -32⟩, ⟨248, 254, 1, -32⟩,
    ⟨255, 255, 1, 121⟩, ⟨257, 303, 2, -1⟩, ⟨305, 305, 1, -232⟩, ⟨307, 311, 2, -1⟩,
    ⟨314, 328, 2, -1⟩, ⟨331, 375, 2, -1⟩, ⟨378, 382, 2, -1⟩, ⟨383, 383, 1, -300⟩,
    ⟨384, 384, 1, 195⟩, ⟨387, 389, 2, -1⟩, ⟨392, 392, 1, -1⟩, ⟨396, 396, 1, -1⟩,
    ⟨402, 402, 1, -1⟩, ⟨405, 405, 1, 97⟩, ⟨409, 409, 1, -1⟩, ⟨410, 410, 1, 163⟩,
    ⟨414, 414, 1, 130⟩, ⟨417, 421, 2, -1⟩, ⟨424, 424, 1, -1⟩, ⟨429, 429, 1, -1⟩,
    ⟨432, 432, 1, -1⟩, ⟨436, 438, 2, -1⟩, ⟨441, 441, 1, -1⟩, ⟨445, 445, 1, -1⟩, ⟨447, 447, 1, 56⟩,
    ⟨453, 453, 1, -1⟩, ⟨454, 454, 1, -2⟩, ⟨456, 456, 1, -1⟩, ⟨457, 457, 1, -2⟩, ⟨459, 459, 1, -1⟩,
    ⟨460, 460, 1, -2⟩, ⟨462, 476, 2, -1⟩, ⟨477, 477, 1, -79⟩, ⟨479, 495, 2, -1⟩,
    ⟨498, 498, 1, -1⟩, ⟨499, 499, 1, -2⟩, ⟨501, 501, 1, -1⟩, ⟨505, 543, 2, -1⟩, ⟨547, 563, 2, -1⟩,
    ⟨572, 572, 1, -1⟩, ⟨575, 576, 1, 10815⟩, ⟨578, 578, 1, -1⟩, ⟨583, 591, 2, -1⟩,
    ⟨592, 592, 1, 10783⟩, ⟨593, 593, 1, 10780⟩, ⟨594, 594, 1, 10782⟩, ⟨595, 595, 1, -210⟩,
    ⟨596, 596, 1, -206⟩, ⟨598, 599, 1, -205⟩, ⟨601, 601, 1, -202⟩, ⟨603, 603, 1, -203⟩,
    ⟨604, 604, 1, 42319⟩, ⟨608, 608, 1, -205⟩, ⟨609, 609, 1, 42315⟩, ⟨611, 611, 1, -207⟩,
    ⟨613, 613, 1, 42280⟩, ⟨614, 614, 1, 42308⟩, ⟨616, 616, 1, -209⟩, ⟨617, 617, 1, -211⟩,
    ⟨618, 618, 1, 42308⟩, ⟨619, 619, 1, 10743⟩, ⟨620, 620, 1, 42305⟩, ⟨623, 623, 1, -211⟩,
    ⟨625, 625, 1, 10749⟩, ⟨626, 626, 1, -213⟩, ⟨629, 629, 1, -214⟩, ⟨637, 637, 1, 10727⟩,
    ⟨640, 640, 1, -218⟩, ⟨642, 642, 1, 42307⟩, ⟨643, 643, 1, -218⟩, ⟨647, 647, 1, 42282⟩,
    ⟨648, 648, 1, -218⟩, ⟨649, 649, 1, -69⟩, ⟨650, 651, 1, -217⟩, ⟨652, 652, 1, -71⟩,
    ⟨658, 658, 1, -219⟩, ⟨669, 669, 1, 42261⟩, ⟨670, 670, 1, 42258⟩, ⟨837, 837, 1, 84⟩,
    ⟨881, 883, 2, -1⟩, ⟨887, 887, 1, -1⟩, ⟨891, 893, 1, 130⟩, ⟨940, 940, 1, -38⟩,
    ⟨941, 943, 1, -37⟩, ⟨945, 961, 1, -32⟩, ⟨962, 962, 1, -31⟩, ⟨963, 971, 1, -32⟩,
    ⟨972, 972, 1, -64⟩, ⟨973, 974, 1, -63⟩, ⟨976, 976, 1, -62⟩, ⟨977, 977, 1, -57⟩,
    ⟨981, 981, 1, -47⟩, ⟨982, 982, 1, -54⟩, ⟨983, 983, 1, -8⟩, ⟨985, 1007, 2, -1⟩,
    ⟨1008, 1008, 1, -86⟩, ⟨1009, 1009, 1, -80⟩, ⟨1010, 1010, 1, 7⟩, ⟨1011, 1011, 1, -116⟩,
    ⟨1013, 1013, 1, -96⟩, ⟨1016, 1016, 1, -1⟩, ⟨1019, 1019, 1, -1⟩, ⟨1072, 1103, 1, -32⟩,
    ⟨1104, 1119, 1, -80⟩, ⟨1121, 1153, 2, -1⟩, ⟨1163, 1215, 2, -1⟩, ⟨1218, 1230, 2, -1⟩,
    ⟨1231, 1231, 1, -15⟩, ⟨1233, 1327, 2, -1⟩, ⟨1377, 1414, 1, -48⟩, ⟨4304, 4346, 1, 3008⟩,
    ⟨4349, 4351, 1, 3008⟩, ⟨5112, 5117, 1, -8⟩, ⟨7296, 7296, 1, -6254⟩, ⟨7297, 7297, 1, -6253⟩,
    ⟨7298, 7298, 1, -6244⟩, ⟨7299, 7300, 1, -6242⟩, ⟨7301, 7301, 1, -6243⟩,
    ⟨7302, 7302, 1, -6236⟩, ⟨7303, 7303, 1, -6181⟩, ⟨7304, 7304, 1, 35266⟩,
    ⟨7545, 7545, 1, 35332⟩, ⟨7549, 7549, 1, 3814⟩, ⟨7566, 7566, 1, 35384⟩, ⟨7681, 7829, 2, -1⟩,
    ⟨7835, 7835, 1, -59⟩, ⟨7841, 7935, 2, -1⟩, ⟨7936, 7943, 1, 8⟩, ⟨7952, 7957, 1, 8⟩,
    ⟨7968, 7975, 1, 8⟩, ⟨7984, 7991, 1, 8⟩, ⟨8000, 8005, 1, 8⟩, ⟨8017, 8023, 2, 8⟩,
    ⟨8032, 8039, 1, 8⟩, ⟨8048, 8049, 1, 74⟩, ⟨8050, 8053, 1, 86⟩, ⟨8054, 8055, 1, 100⟩,
    ⟨8056, 8057, 1, 128⟩, ⟨8058, 8059, 1, 112⟩, ⟨8060, 8061, 1, 126⟩, ⟨8064, 8071, 1, 8⟩,
    ⟨8080, 8087, 1, 8⟩, ⟨8096, 8103, 1, 8⟩, ⟨8112, 8113, 1, 8⟩, ⟨8115, 8115, 1, 9⟩,
    ⟨8126, 8126, 1, -7205⟩, ⟨8131, 8131, 1, 9⟩, ⟨8144, 8145, 1, 8⟩, ⟨8160, 8161, 1, 8⟩,
    ⟨8165, 8165, 1, 7⟩, ⟨8179, 8179, 1, 9⟩, ⟨8526, 8526, 1, -28⟩, ⟨8560, 8575, 1, -16⟩,
    ⟨8580, 8580, 1, -1⟩, ⟨9424, 9449, 1, -26⟩, ⟨11312, 11359, 1, -48⟩, ⟨11361, 11361, 1, -1⟩,
    ⟨11365, 11365, 1, -10795⟩, ⟨11366, 11366, 1, -10792⟩, ⟨11368, 11372, 2, -1⟩,
    ⟨11379, 11379, 1, -1⟩, ⟨11382, 11382, 1, -1⟩, ⟨11393, 11491, 2, -1⟩, ⟨11500, 11502, 2, -1⟩,
    ⟨11507, 11507, 1, -1⟩, ⟨11520, 11557, 1, -7264⟩, ⟨11559, 11559, 1, -7264⟩,
    ⟨11565, 11565, 1, -7264⟩, ⟨42561, 42605, 2, -1⟩, ⟨42625, 42651, 2, -1⟩, ⟨42787, 42799, 2, -1⟩,
    ⟨42803, 42863, 2, -1⟩, ⟨42874, 42876, 2, -1⟩, ⟨42879, 42887, 2, -1⟩, ⟨42892, 42892, 1, -1⟩,
    ⟨42897, 42899, 2, -1⟩, ⟨42900, 42900, 1, 48⟩, ⟨42903, 42921, 2, -1⟩, ⟨42933, 42947, 2, -1⟩,
    ⟨42952, 42954, 2, -1⟩, ⟨42961, 42961, 1, -1⟩, ⟨42967, 42969, 2, -1⟩, ⟨42998, 42998, 1, -1⟩,
    ⟨43859, 43859, 1, -928⟩, ⟨43888, 43967, 1, -38864⟩, ⟨65345, 65370, 1, -32⟩,
    ⟨66600, 66639, 1, -40⟩, ⟨66776, 66811, 1, -40⟩, ⟨66967, 66977, 1, -39⟩,
    ⟨66979, 66993, 1, -39⟩, ⟨66995, 67001, 1, -39⟩, ⟨67003, 67004, 1, -39⟩,
    ⟨68800, 68850, 1, -64⟩, ⟨71872, 71903, 1, -32⟩, ⟨93792, 93823, 1, -32⟩,
    ⟨125218, 125251, 1, -34⟩]

/-- `unicode.ToUpper` -/
def toUpper (code : Nat) : Nat :=
  match upperRanges.find? fun range => range.contains code with
  | some range => (code + range.delta).toNat
  | none => code

def decode : ByteString → Nat
  | [one] => one.toNat
  | [one, two] => one.toNat % 32 * 64 + two.toNat % 64
  | [one, two, three] => one.toNat % 16 * 4096 + two.toNat % 64 * 64 + three.toNat % 64
  | [one, two, three, four] =>
      one.toNat % 8 * 262144 + two.toNat % 64 * 4096 + three.toNat % 64 * 64 +
        four.toNat % 64
  | _ => 0

def leading (mark code : Nat) : UInt8 := UInt8.ofNat (mark + code)

def continuation (code : Nat) : UInt8 := UInt8.ofNat (128 + code % 64)

def encode (code : Nat) : ByteString :=
  if code < 0x80 then [UInt8.ofNat code]
  else if code < 0x800 then [leading 192 (code / 64), continuation code]
  else if code < 0x10000 then
    [leading 224 (code / 4096), continuation (code / 64), continuation code]
  else
    [leading 240 (code / 262144 % 8), continuation (code / 4096),
      continuation (code / 64), continuation code]

/-- `strings.ToUpper` of a text of one character. -/
def upperRune (rune : ByteString) : ByteString := encode (toUpper (decode rune))

example : upperRune (utf8 "é") = utf8 "É" := by decide

example : upperRune (utf8 "ß") = utf8 "ß" := by decide

/-! ## Control characters -/

theorem toUpper_of_small {code : Nat} (small : toUpper code < 32) : toUpper code = code := by
  have large : ∀ range ∈ upperRanges, (32 : Int) ≤ range.low + range.delta := by decide +kernel
  unfold toUpper at small ⊢
  split
  case h_1 range found =>
    have above := large range (List.mem_of_find?_eq_some found)
    have inside := List.find?_some found
    simp only [CaseRange.contains, Bool.and_eq_true, decide_eq_true_eq] at inside
    rw [found] at small
    simp only at small
    omega
  case h_2 => rfl

theorem not_small_of_mem_encode {code : Nat} {byte : UInt8} (large : 0x80 ≤ code)
    (member : byte ∈ encode code) : 0x80 ≤ byte.toNat := by
  have tail : ∀ code, 0x80 ≤ (continuation code).toNat := fun code => by
    simp only [continuation, UInt8.toNat_ofNat']
    omega
  have head : ∀ mark code, 0x80 ≤ mark → mark + code < 256 →
      0x80 ≤ (leading mark code).toNat := fun mark code high low => by
    simp only [leading, UInt8.toNat_ofNat']
    omega
  unfold encode at member
  rw [if_neg (by omega)] at member
  split at member
  · simp only [List.mem_cons, List.not_mem_nil, or_false] at member
    rcases member with rfl | rfl
    · exact head _ _ (by omega) (by omega)
    · exact tail _
  · split at member
    · simp only [List.mem_cons, List.not_mem_nil, or_false] at member
      rcases member with rfl | rfl | rfl
      · exact head _ _ (by omega) (by omega)
      all_goals exact tail _
    · simp only [List.mem_cons, List.not_mem_nil, or_false] at member
      rcases member with rfl | rfl | rfl | rfl
      · exact head _ _ (by omega) (by omega)
      all_goals exact tail _

/-- A control character is in the upper case of a character only if it is that
character. -/
theorem mem_upperRune_of_small {rune : ByteString} {byte : UInt8} (small : byte.toNat < 32)
    (member : byte ∈ upperRune rune) : decode rune = byte.toNat := by
  unfold upperRune at member
  by_cases large : 0x80 ≤ toUpper (decode rune)
  · have := not_small_of_mem_encode large member
    omega
  · rw [encode, if_pos (by omega), List.mem_singleton] at member
    have same : byte.toNat = toUpper (decode rune) := by
      rw [member, UInt8.toNat_ofNat']
      omega
    rw [same, toUpper_of_small (same ▸ small)]

theorem runeWidth_cases {head : UInt8} {rest : ByteString} {width : Nat}
    (found : Bytes.runeWidth (head :: rest) = some width) :
    width = 1 ∨
    (width = 2 ∧ 194 ≤ head.toNat ∧ head.toNat ≤ 223 ∧
      ∃ second tail, rest = second :: tail) ∨
    (width = 3 ∧ 224 ≤ head.toNat ∧ head.toNat ≤ 239 ∧
      ∃ second third tail, rest = second :: third :: tail ∧
        (head = 224 → 160 ≤ second.toNat) ∧ second.toNat ≤ 191) ∨
    (width = 4 ∧ 240 ≤ head.toNat ∧ head.toNat ≤ 244 ∧
      ∃ second third fourth tail, rest = second :: third :: fourth :: tail ∧
        (head = 240 → 144 ≤ second.toNat) ∧ second.toNat ≤ 191) := by
  have upper : ∀ (byte limit : UInt8) (condition : Prop) [Decidable condition],
      limit.toNat ≤ 191 → byte ≤ (if condition then limit else 191) → byte.toNat ≤ 191 := by
    intro byte limit condition _ low bound
    split at bound
    · exact le_trans (UInt8.le_iff_toNat_le.mp bound) low
    · exact UInt8.le_iff_toNat_le.mp bound
  unfold Bytes.runeWidth at found
  dsimp only at found
  by_cases ascii : head < 128
  · rw [if_pos ascii] at found
    exact .inl (Option.some.inj found).symm
  rw [if_neg ascii] at found
  by_cases two : (194 ≤ head && head ≤ 223) = true
  · rw [if_pos two] at found
    simp only [Bool.and_eq_true, decide_eq_true_eq, UInt8.le_iff_toNat_le] at two
    rcases rest with _ | ⟨second, tail⟩
    · cases found
    · dsimp only at found
      by_cases valid : Bytes.isContinuation second = true
      · rw [if_pos valid] at found
        exact .inr (.inl ⟨(Option.some.inj found).symm, two.1, two.2, second, tail, rfl⟩)
      · rw [if_neg valid] at found
        cases found
  rw [if_neg two] at found
  by_cases three : (224 ≤ head && head ≤ 239) = true
  · rw [if_pos three] at found
    simp only [Bool.and_eq_true, decide_eq_true_eq, UInt8.le_iff_toNat_le] at three
    rcases rest with _ | ⟨second, _ | ⟨third, tail⟩⟩
    · cases found
    · cases found
    · dsimp only at found
      by_cases valid : (((if head = 224 then (160 : UInt8) else 128) ≤ second &&
          second ≤ (if head = 237 then (159 : UInt8) else 191)) &&
          Bytes.isContinuation third) = true
      · rw [if_pos valid] at found
        simp only [Bool.and_eq_true, decide_eq_true_eq] at valid
        refine .inr (.inr (.inl ⟨(Option.some.inj found).symm, three.1, three.2, second, third,
          tail, rfl, fun lowest => ?_, upper second 159 (head = 237) (by decide) valid.1.2⟩))
        have bound := valid.1.1
        rw [if_pos lowest] at bound
        exact UInt8.le_iff_toNat_le.mp bound
      · rw [if_neg valid] at found
        cases found
  rw [if_neg three] at found
  by_cases four : (240 ≤ head && head ≤ 244) = true
  · rw [if_pos four] at found
    simp only [Bool.and_eq_true, decide_eq_true_eq, UInt8.le_iff_toNat_le] at four
    rcases rest with _ | ⟨second, _ | ⟨third, _ | ⟨fourth, tail⟩⟩⟩
    · cases found
    · cases found
    · cases found
    · dsimp only at found
      by_cases valid : ((((if head = 240 then (144 : UInt8) else 128) ≤ second &&
          second ≤ (if head = 244 then (143 : UInt8) else 191)) &&
          Bytes.isContinuation third) && Bytes.isContinuation fourth) = true
      · rw [if_pos valid] at found
        simp only [Bool.and_eq_true, decide_eq_true_eq] at valid
        refine .inr (.inr (.inr ⟨(Option.some.inj found).symm, four.1, four.2, second, third,
          fourth, tail, rfl, fun lowest => ?_,
          upper second 143 (head = 244) (by decide) valid.1.1.2⟩))
        have bound := valid.1.1.1
        rw [if_pos lowest] at bound
        exact UInt8.le_iff_toNat_le.mp bound
      · rw [if_neg valid] at found
        cases found
  · rw [if_neg four] at found
    cases found

theorem eq_head_of_decode_small {text rune : ByteString}
    (first : Bytes.firstRune text = some rune) (small : decode rune < 128) :
    ∃ byte rest, text = byte :: rest ∧ rune = [byte] := by
  cases text with
  | nil => cases first
  | cons head rest =>
      refine ⟨head, rest, rfl, ?_⟩
      simp only [Bytes.firstRune] at first
      split at first
      case h_2 =>
        cases first
        exact absurd small (by decide)
      case h_1 width found =>
        cases first
        rcases runeWidth_cases found with rfl | ⟨rfl, low, high, second, tail, rfl⟩ |
          ⟨rfl, low, high, second, third, tail, rfl, lowest, bound⟩ |
          ⟨rfl, low, high, second, third, fourth, tail, rfl, lowest, bound⟩
        · rfl
        · simp only [List.take, decode] at small
          omega
        · simp only [List.take, decode] at small
          by_cases same : head.toNat = 224
          · have := lowest (UInt8.toNat_inj.mp same)
            omega
          · omega
        · simp only [List.take, decode] at small
          by_cases same : head.toNat = 240
          · have := lowest (UInt8.toNat_inj.mp same)
            omega
          · omega

end Grunt.Foundation.Unicode
