import Mathlib.Data.List.DropRight
import Grunt.Foundation.Gregorian

/-! # Reading RFC 3339

The parser that `time.Parse` and `UnmarshalJSON` use for this format. It gives
an instant and the offset that was written, and it reads back what
`formatRFC3339Nano` writes.
-/

namespace Grunt.Foundation.Calendar

/-! ## The parser -/

/-- Digits at a fixed place that stand for a number within bounds. -/
def readField (text : ByteString) (start width low high : Nat) : Option Nat :=
  (Bytes.parseDecimal ((text.drop start).take width)).filter fun value =>
    low ≤ value && value ≤ high

def splitFraction : ByteString → ByteString × ByteString
  | 46 :: text =>
      if text.takeWhile Bytes.isDigit = [] then ([], 46 :: text)
      else (text.takeWhile Bytes.isDigit, text.dropWhile Bytes.isDigit)
  | text => ([], text)

def readNanoseconds (digits : ByteString) : Option Nat :=
  if digits = [] then some 0
  else (Bytes.parseDecimal (digits.take 9)).map fun value =>
    value * 10 ^ (9 - (digits.take 9).length)

def readOffset (text : ByteString) : Option Int :=
  if text = utf8 "Z" then some 0
  else if text.length ≠ 6 then none
  else do
    let hours ← readField text 1 2 0 23
    let minutes ← readField text 4 2 0 59
    let seconds : Int := (hours * 60 + minutes) * 60
    if text[3]? ≠ some 58 then none
    else if text[0]? = some 45 then some (-seconds)
    else if text[0]? = some 43 then some seconds
    else none

def separated (text : ByteString) : Bool :=
  [text[4]?, text[7]?, text[10]?, text[13]?, text[16]?] =
    [some 45, some 45, some 84, some 58, some 58]

def readRFC3339 (text : ByteString) : Option (Instant × Int) :=
  if text.length < 19 ∨ separated text = false then none
  else do
    let year ← readField text 0 4 0 9999
    let month ← readField text 5 2 1 12
    let day ← readField text 8 2 1 (daysIn month year)
    let hours ← readField text 11 2 0 23
    let minutes ← readField text 14 2 0 59
    let seconds ← readField text 17 2 0 59
    let nanoseconds ← readNanoseconds (splitFraction (text.drop 19)).1
    let offset ← readOffset (splitFraction (text.drop 19)).2
    let civil : Int := numberOf ⟨year, month, day⟩ * secondsPerDay + hours * 3600 +
      minutes * 60 + seconds
    some ((civil - offset) * second + nanoseconds, offset)

example : readRFC3339 (utf8 "1970-01-01T01:00:01.5+01:00") = some (1500000000, 3600) := by
  decide

/-! ## Digits -/

theorem parseDecimal_digits {digits : List Nat} (nonempty : digits ≠ [])
    (small : ∀ digit ∈ digits, digit < 10) :
    Bytes.parseDecimal (digits.map fun digit => 48 + UInt8.ofNat digit) =
      some (Nat.ofDigits 10 digits.reverse) := by
  have valid : (digits.map fun digit => 48 + UInt8.ofNat digit) ≠ [] ∧
      (digits.map fun digit => 48 + UInt8.ofNat digit).all Bytes.isDigit = true := by
    refine ⟨by simpa using nonempty, ?_⟩
    simp only [List.all_map, List.all_eq_true, Function.comp_apply]
    exact fun digit member => (Bytes.digit_facts (small digit member)).1
  rw [Bytes.parseDecimal, if_pos valid, ← List.map_reverse, List.map_map]
  congr 2
  calc _ = digits.reverse.map id := List.map_congr_left fun digit member =>
        (Bytes.digit_facts (small digit (List.mem_reverse.mp member))).2
    _ = digits.reverse := List.map_id _

theorem exists_twoDigits (number : Nat) (small : number < 100) :
    ∃ tens ones, Bytes.twoDigits number = [tens, ones] ∧
      Bytes.parseDecimal [tens, ones] = some number := by
  refine ⟨_, _, rfl, ?_⟩
  have read := @parseDecimal_digits [number / 10 % 10, number % 10] (by simp)
    (by simp only [List.mem_cons, List.not_mem_nil, or_false, forall_eq_or_imp, forall_eq]; omega)
  simp only [List.map_cons, List.map_nil, List.reverse_cons, List.reverse_nil, List.nil_append,
    List.cons_append, Nat.ofDigits_cons, Nat.ofDigits_nil] at read
  rw [read]
  congr 1
  push_cast
  omega

theorem exists_fourDigits (number : Nat) (small : number < 10000) :
    ∃ one two three four,
      Bytes.twoDigits (number / 100) ++ Bytes.twoDigits number = [one, two, three, four] ∧
      Bytes.parseDecimal [one, two, three, four] = some number := by
  refine ⟨_, _, _, _, rfl, ?_⟩
  have read := @parseDecimal_digits
    [number / 100 / 10 % 10, number / 100 % 10, number / 10 % 10, number % 10] (by simp)
    (by simp only [List.mem_cons, List.not_mem_nil, or_false, forall_eq_or_imp, forall_eq]; omega)
  simp only [List.map_cons, List.map_nil, List.reverse_cons, List.reverse_nil, List.nil_append,
    List.cons_append, Nat.ofDigits_cons, Nat.ofDigits_nil] at read
  rw [read]
  congr 1
  push_cast
  omega

/-! ## Fractions -/

def ninths (nanoseconds : Nat) : List Nat :=
  (List.range 9).map fun place => nanoseconds / 10 ^ (8 - place) % 10

theorem ninths_small (nanoseconds : Nat) : ∀ digit ∈ ninths nanoseconds, digit < 10 := by
  intro digit member
  rcases List.mem_map.mp member with ⟨place, -, rfl⟩
  exact Nat.mod_lt _ (by decide)

theorem ofDigits_ninths {nanoseconds : Nat} (small : nanoseconds < 1000000000) :
    Nat.ofDigits 10 (ninths nanoseconds).reverse = nanoseconds := by
  have digits : (ninths nanoseconds).reverse =
      [nanoseconds % 10, nanoseconds / 10 % 10, nanoseconds / 100 % 10, nanoseconds / 1000 % 10,
        nanoseconds / 10000 % 10, nanoseconds / 100000 % 10, nanoseconds / 1000000 % 10,
        nanoseconds / 10000000 % 10, nanoseconds / 100000000 % 10] := by
    simp [ninths, List.range_succ]
  rw [digits]
  simp only [Nat.ofDigits_cons, Nat.ofDigits_nil]
  omega

theorem exists_kept (digits : List Nat) :
    ∃ kept zeros, digits = kept ++ List.replicate zeros 0 ∧
      kept = digits.rdropWhile fun digit => digit = 0 := by
  induction digits using List.reverseRecOn with
  | nil => exact ⟨[], 0, rfl, rfl⟩
  | append_singleton digits last induction =>
      by_cases zero : last = 0
      · obtain ⟨kept, zeros, same, rest⟩ := induction
        refine ⟨kept, zeros + 1, ?_, ?_⟩
        · rw [List.replicate_succ', ← List.append_assoc, ← same, zero]
        · rw [List.rdropWhile_concat_pos _ _ _ (by simpa using zero)]
          exact rest
      · exact ⟨digits ++ [last], 0, (List.append_nil _).symm,
          (List.rdropWhile_concat_neg _ _ _ (by simpa using zero)).symm⟩

def digitByte (digit : Nat) : UInt8 := 48 + UInt8.ofNat digit

theorem digitByte_eq_zero_iff {digit : Nat} (small : digit < 10) :
    digitByte digit = 48 ↔ digit = 0 := by
  have values : ∀ digit : Fin 10, digitByte digit = 48 ↔ digit = 0 := by decide
  simpa [Fin.ext_iff] using values ⟨digit, small⟩

theorem rdropWhile_map_digitByte {digits : List Nat} (small : ∀ digit ∈ digits, digit < 10) :
    (digits.map digitByte).rdropWhile (fun byte => byte = 48) =
      (digits.rdropWhile fun digit => digit = 0).map digitByte := by
  induction digits using List.reverseRecOn with
  | nil => rfl
  | append_singleton digits last induction =>
      have before := induction fun digit member => small digit (List.mem_append_left _ member)
      have iff := digitByte_eq_zero_iff (small last (by simp))
      rw [List.map_append, List.map_singleton]
      by_cases zero : last = 0
      · rw [List.rdropWhile_concat_pos _ _ _ (by simpa using iff.mpr zero),
          List.rdropWhile_concat_pos _ _ _ (by simpa using zero), before]
      · rw [List.rdropWhile_concat_neg _ _ _ (by simpa using mt iff.mp zero),
          List.rdropWhile_concat_neg _ _ _ (by simpa using zero), List.map_append,
          List.map_singleton]

theorem formatFraction_eq (nanoseconds : Nat) :
    formatFraction nanoseconds =
      match ((ninths nanoseconds).rdropWhile fun digit => digit = 0).map digitByte with
      | [] => []
      | kept => 46 :: kept := by
  have digits : ((List.range 9).map fun place =>
      48 + UInt8.ofNat (nanoseconds / 10 ^ (8 - place) % 10)) =
        (ninths nanoseconds).map digitByte := by
    rw [ninths, List.map_map]
    rfl
  rw [← rdropWhile_map_digitByte (ninths_small nanoseconds), formatFraction, digits]
  rfl

def EndsFraction (text : ByteString) : Prop :=
  ∀ byte ∈ text.head?, Bytes.isDigit byte = false ∧ byte ≠ 46

theorem readNanoseconds_formatFraction (nanoseconds : Nat) (small : nanoseconds < 1000000000)
    {zone : ByteString} (ends : EndsFraction zone) :
    readNanoseconds (splitFraction (formatFraction nanoseconds ++ zone)).1 = some nanoseconds ∧
      (splitFraction (formatFraction nanoseconds ++ zone)).2 = zone := by
  obtain ⟨kept, zeros, whole, same⟩ := exists_kept (ninths nanoseconds)
  have length : kept.length + zeros = 9 := by
    have lengths := congrArg List.length whole
    simpa [ninths] using lengths.symm
  have value : Nat.ofDigits 10 kept.reverse * 10 ^ zeros = nanoseconds := by
    have all := ofDigits_ninths small
    rw [whole, List.reverse_append, List.reverse_replicate, Nat.ofDigits_append,
      Nat.ofDigits_replicate_zero, List.length_replicate, Nat.zero_add] at all
    rw [Nat.mul_comm]
    exact all
  have keptSmall : ∀ digit ∈ kept, digit < 10 := by
    intro digit member
    apply ninths_small nanoseconds digit
    rw [whole]
    exact List.mem_append_left _ member
  rw [formatFraction_eq, ← same]
  cases kept with
  | nil =>
      have none : nanoseconds = 0 := by simpa using value.symm
      cases zone with
      | nil => exact ⟨by rw [none]; rfl, rfl⟩
      | cons byte zone =>
          have other := (ends byte rfl).2
          have split : splitFraction (byte :: zone) = ([], byte :: zone) := by
            unfold splitFraction
            split
            · next same =>
                rw [List.cons.injEq] at same
                exact absurd same.1 other
            · rfl
          simp only [List.map_nil, List.nil_append, split]
          exact ⟨by rw [none]; rfl, trivial⟩
  | cons first rest =>
      have digits : ∀ byte ∈ (first :: rest).map digitByte, Bytes.isDigit byte = true := by
        intro byte member
        rcases List.mem_map.mp member with ⟨digit, inside, rfl⟩
        exact (Bytes.digit_facts (keptSmall digit inside)).1
      have taken : (((first :: rest).map digitByte) ++ zone).takeWhile Bytes.isDigit =
          (first :: rest).map digitByte := by
        rw [List.takeWhile_append_of_pos digits]
        cases zone with
        | nil => simp
        | cons byte zone => simp [(ends byte rfl).1]
      have dropped : (((first :: rest).map digitByte) ++ zone).dropWhile Bytes.isDigit =
          zone := by
        rw [List.dropWhile_append_of_pos digits]
        cases zone with
        | nil => simp
        | cons byte zone => simp [(ends byte rfl).1]
      have read := parseDecimal_digits (List.cons_ne_nil first rest) keptSmall
      have short : ((first :: rest).map digitByte).take 9 = (first :: rest).map digitByte :=
        List.take_of_length_le (by rw [List.length_map]; omega)
      have split : splitFraction (46 :: ((first :: rest).map digitByte ++ zone)) =
          ((first :: rest).map digitByte, zone) := by
        rw [splitFraction, taken, dropped, if_neg (by simp)]
      have places : 9 - ((first :: rest).map digitByte).length = zeros := by
        rw [List.length_map]
        omega
      refine ⟨?_, by exact congrArg Prod.snd split⟩
      change readNanoseconds (splitFraction (46 :: ((first :: rest).map digitByte ++ zone))).1 = _
      rw [split, readNanoseconds, if_neg (by simp), short, places]
      rw [show Bytes.parseDecimal ((first :: rest).map digitByte) = _ from read,
        Option.map_some, value]

/-! ## Offsets -/

def WritesOffset (location : Location) (instant : Instant) : Prop :=
  location.offset (unixSeconds instant) % 60 = 0 ∧
    (location.offset (unixSeconds instant)).natAbs < 86400

theorem writesOffset_utc (instant : Instant) : WritesOffset .utc instant :=
  ⟨rfl, (by decide : (0 : Int).natAbs < 86400)⟩

theorem endsFraction_formatOffset (offset : Int) : EndsFraction (formatOffset offset) := by
  have head : (formatOffset offset).head? ∈ [some 90, some 45, some 43] := by
    unfold formatOffset
    split
    · decide
    · split
      · exact List.mem_cons_of_mem _ List.mem_cons_self
      · exact List.mem_cons_of_mem _ (List.mem_cons_of_mem _ List.mem_cons_self)
  intro byte first
  simp only [Option.mem_def.mp first, List.mem_cons, Option.some.injEq, List.not_mem_nil,
    or_false] at head
  rcases head with rfl | rfl | rfl <;> decide

theorem readField_eq {text : ByteString} {start width low high value : Nat}
    (digits : Bytes.parseDecimal ((text.drop start).take width) = some value)
    (least : low ≤ value) (most : value ≤ high) :
    readField text start width low high = some value := by
  rw [readField, digits]
  simp [least, most]

theorem readOffset_formatOffset {offset : Int} (minutes : offset % 60 = 0)
    (day : offset.natAbs < 86400) : readOffset (formatOffset offset) = some offset := by
  by_cases zero : offset = 0
  · rw [zero]
    decide
  obtain ⟨h1, h2, hours, hoursRead⟩ :=
    exists_twoDigits (offset.natAbs / 3600) (by omega)
  obtain ⟨m1, m2, minute, minuteRead⟩ :=
    exists_twoDigits (offset.natAbs / 60 % 60) (by omega)
  have written (sign : UInt8) :
      readOffset [sign, h1, h2, 58, m1, m2] =
        if sign = 45 then some (-(offset.natAbs : Int))
        else if sign = 43 then some (offset.natAbs : Int) else none := by
    have unlike : [sign, h1, h2, 58, m1, m2] ≠ utf8 "Z" := by
      have z : utf8 "Z" = [90] := by decide
      simp [z]
    have first : readField [sign, h1, h2, 58, m1, m2] 1 2 0 23 = some _ :=
      readField_eq hoursRead (Nat.zero_le _) (by omega)
    have second : readField [sign, h1, h2, 58, m1, m2] 4 2 0 59 = some _ :=
      readField_eq minuteRead (Nat.zero_le _) (by omega)
    have whole : (((offset.natAbs / 3600 : Nat) : Int) * 60 + (offset.natAbs / 60 % 60 : Nat)) *
        60 = offset.natAbs := by omega
    rw [readOffset, if_neg unlike, if_neg (by simp), first, second]
    simp only [Option.bind_eq_bind, Option.bind_some, whole]
    simp
  have colon : utf8 ":" = [58] := by decide
  have minus : utf8 "-" = [45] := by decide
  have plus : utf8 "+" = [43] := by decide
  by_cases negative : offset < 0
  · have text : formatOffset offset = [45, h1, h2, 58, m1, m2] := by
      rw [formatOffset, if_neg zero, if_pos negative, hours, minute, colon, minus]
      rfl
    rw [text, written 45, if_pos rfl]
    congr 1
    omega
  · have text : formatOffset offset = [43, h1, h2, 58, m1, m2] := by
      rw [formatOffset, if_neg zero, if_neg negative, hours, minute, colon, plus]
      rfl
    rw [text, written 43, if_neg (by decide), if_pos rfl]
    congr 1
    omega

/-! ## Dates and times -/

section Written

variable {location : Location} {instant : Instant}

theorem exists_dateClock (written : 0 ≤ year location instant ∧ year location instant ≤ 9999) :
    ∃ y1 y2 y3 y4 m1 m2 d1 d2 h1 h2 n1 n2 s1 s2 : UInt8,
      formatRFC3339Nano location instant =
        [y1, y2, y3, y4, 45, m1, m2, 45, d1, d2, 84, h1, h2, 58, n1, n2, 58, s1, s2] ++
          (formatFraction (instant % second).toNat ++
            formatOffset (location.offset (unixSeconds instant))) ∧
      Bytes.parseDecimal [y1, y2, y3, y4] = some (year location instant).toNat ∧
      Bytes.parseDecimal [m1, m2] = some (civilDate (dayNumber location instant)).month ∧
      Bytes.parseDecimal [d1, d2] = some (civilDate (dayNumber location instant)).day ∧
      Bytes.parseDecimal [h1, h2] =
        some (civilSeconds location instant % secondsPerDay / 3600).toNat ∧
      Bytes.parseDecimal [n1, n2] =
        some (civilSeconds location instant % secondsPerDay / 60 % 60).toNat ∧
      Bytes.parseDecimal [s1, s2] =
        some (civilSeconds location instant % secondsPerDay % 60).toNat := by
  have valid := valid_civilDate (dayNumber location instant)
  have short : daysIn (civilDate (dayNumber location instant)).month
      (civilDate (dayNumber location instant)).year ≤ 31 := by
    unfold daysIn
    split
    · split <;> decide
    · split <;> decide
  have ofDay := Int.emod_nonneg (civilSeconds location instant)
    (by decide : secondsPerDay ≠ 0)
  have inDay := Int.emod_lt_of_pos (civilSeconds location instant)
    (by decide : 0 < secondsPerDay)
  rw [secondsPerDay] at inDay ofDay
  obtain ⟨y1, y2, y3, y4, years, yearRead⟩ :=
    exists_fourDigits ((year location instant).toNat) (by omega)
  obtain ⟨m1, m2, months, monthRead⟩ := exists_twoDigits
    ((civilDate (dayNumber location instant)).month) (by have := valid.month; omega)
  obtain ⟨d1, d2, days, dayRead⟩ := exists_twoDigits
    ((civilDate (dayNumber location instant)).day) (by have := valid.day; omega)
  obtain ⟨h1, h2, hours, hourRead⟩ := exists_twoDigits
    ((civilSeconds location instant % secondsPerDay / 3600).toNat)
    (by rw [secondsPerDay]; omega)
  obtain ⟨n1, n2, minutes, minuteRead⟩ := exists_twoDigits
    ((civilSeconds location instant % secondsPerDay / 60 % 60).toNat) (by omega)
  obtain ⟨s1, s2, seconds, secondRead⟩ := exists_twoDigits
    ((civilSeconds location instant % secondsPerDay % 60).toNat) (by omega)
  refine ⟨y1, y2, y3, y4, m1, m2, d1, d2, h1, h2, n1, n2, s1, s2, ?_, yearRead, monthRead,
    dayRead, hourRead, minuteRead, secondRead⟩
  have positive : ¬ year location instant < 0 := by omega
  have four : (year location instant).natAbs < 10000 := by omega
  have absolute : (year location instant).natAbs = (year location instant).toNat := by omega
  have yearText : formatYear (year location instant) = [y1, y2, y3, y4] := by
    rw [formatYear, if_neg positive, if_pos four, absolute, years]
  have date : formatDate (civilDate (civilSeconds location instant / secondsPerDay)) =
      [y1, y2, y3, y4] ++ utf8 "-" ++ [m1, m2] ++ utf8 "-" ++ [d1, d2] := by
    rw [formatDate]
    exact congrArg₂ _ (congrArg₂ _ (congrArg₂ _ (congrArg₂ _ yearText rfl) months) rfl) days
  have dash : utf8 "-" = [45] := by decide
  have tee : utf8 "T" = [84] := by decide
  have colon : utf8 ":" = [58] := by decide
  rw [formatRFC3339Nano]
  simp only [date, hours, minutes, seconds, dash, tee, colon, List.cons_append,
    List.nil_append]

theorem civilSeconds_eq (location : Location) (instant : Instant) :
    dayNumber location instant * secondsPerDay +
        (civilSeconds location instant % secondsPerDay / 3600).toNat * 3600 +
        (civilSeconds location instant % secondsPerDay / 60 % 60).toNat * 60 +
        (civilSeconds location instant % secondsPerDay % 60).toNat =
      civilSeconds location instant := by
  have ofDay := Int.emod_nonneg (civilSeconds location instant)
    (by decide : secondsPerDay ≠ 0)
  have day := Int.mul_ediv_add_emod (civilSeconds location instant) secondsPerDay
  rw [dayNumber]
  rw [Int.mul_comm] at day
  omega

theorem readRFC3339_eq {y1 y2 y3 y4 m1 m2 d1 d2 h1 h2 n1 n2 s1 s2 : UInt8} {behind : ByteString}
    {years months days hours minutes seconds nanoseconds : Nat} {offset : Int}
    (yearRead : Bytes.parseDecimal [y1, y2, y3, y4] = some years) (year_le : years ≤ 9999)
    (monthRead : Bytes.parseDecimal [m1, m2] = some months)
    (month_le : 1 ≤ months ∧ months ≤ 12)
    (dayRead : Bytes.parseDecimal [d1, d2] = some days)
    (day_le : 1 ≤ days ∧ days ≤ daysIn months years)
    (hourRead : Bytes.parseDecimal [h1, h2] = some hours) (hour_le : hours ≤ 23)
    (minuteRead : Bytes.parseDecimal [n1, n2] = some minutes) (minute_le : minutes ≤ 59)
    (secondRead : Bytes.parseDecimal [s1, s2] = some seconds) (second_le : seconds ≤ 59)
    (fractionRead : readNanoseconds (splitFraction behind).1 = some nanoseconds)
    (offsetRead : readOffset (splitFraction behind).2 = some offset) :
    readRFC3339 ([y1, y2, y3, y4, 45, m1, m2, 45, d1, d2, 84, h1, h2, 58, n1, n2, 58, s1, s2] ++
        behind) =
      some ((numberOf ⟨years, months, days⟩ * secondsPerDay + hours * 3600 + minutes * 60 +
        seconds - offset) * second + nanoseconds, offset) := by
  generalize whole : [y1, y2, y3, y4, 45, m1, m2, 45, d1, d2, 84, h1, h2, 58, n1, n2, 58, s1, s2] ++
    behind = text
  have enough : ¬ (text.length < 19 ∨ separated text = false) := by
    rw [← whole]
    simp [separated]
  have yearField : readField text 0 4 0 9999 = some years :=
    readField_eq (by rw [← whole]; exact yearRead) (Nat.zero_le _) year_le
  have monthField : readField text 5 2 1 12 = some months :=
    readField_eq (by rw [← whole]; exact monthRead) month_le.1 month_le.2
  have dayField : readField text 8 2 1 (daysIn months years) = some days :=
    readField_eq (by rw [← whole]; exact dayRead) day_le.1 day_le.2
  have hourField : readField text 11 2 0 23 = some hours :=
    readField_eq (by rw [← whole]; exact hourRead) (Nat.zero_le _) hour_le
  have minuteField : readField text 14 2 0 59 = some minutes :=
    readField_eq (by rw [← whole]; exact minuteRead) (Nat.zero_le _) minute_le
  have secondField : readField text 17 2 0 59 = some seconds :=
    readField_eq (by rw [← whole]; exact secondRead) (Nat.zero_le _) second_le
  have tail : text.drop 19 = behind := by
    rw [← whole]
    rfl
  rw [readRFC3339, if_neg enough]
  simp only [yearField, monthField, dayField, hourField, minuteField, secondField, tail,
    fractionRead, offsetRead, Option.bind_eq_bind, Option.bind_some]

/-- The text of an instant whose year has four digits gives the instant back,
and the offset. -/
theorem readRFC3339_formatRFC3339Nano (offset : WritesOffset location instant)
    (written : 0 ≤ year location instant ∧ year location instant ≤ 9999) :
    readRFC3339 (formatRFC3339Nano location instant) =
      some (instant, location.offset (unixSeconds instant)) := by
  obtain ⟨y1, y2, y3, y4, m1, m2, d1, d2, h1, h2, n1, n2, s1, s2, text, years, months, days, hours,
    minutes, seconds⟩ := exists_dateClock written
  have valid := valid_civilDate (dayNumber location instant)
  have inDay := Int.emod_lt_of_pos (civilSeconds location instant)
    (by decide : 0 < secondsPerDay)
  have nanos := Int.emod_nonneg instant (by decide : second ≠ 0)
  have fewer := Int.emod_lt_of_pos instant (by decide : 0 < second)
  have parts := Int.mul_ediv_add_emod instant second
  obtain ⟨minute, inside⟩ := offset
  obtain ⟨fraction, zone⟩ := readNanoseconds_formatFraction
    ((instant % second).toNat) (by rw [second] at nanos fewer ⊢; omega)
    (endsFraction_formatOffset (location.offset (unixSeconds instant)))
  have sameYear : ((year location instant).toNat : Int) =
      (civilDate (dayNumber location instant)).year := Int.toNat_of_nonneg written.1
  have number : numberOf ⟨((year location instant).toNat : Int),
      (civilDate (dayNumber location instant)).month,
      (civilDate (dayNumber location instant)).day⟩ = dayNumber location instant := by
    rw [sameYear]
    exact numberOf_civilDate (dayNumber location instant)
  have hour_le : (civilSeconds location instant % secondsPerDay / 3600).toNat ≤ 23 := by
    rw [secondsPerDay] at inDay ⊢
    omega
  rw [text, readRFC3339_eq years (by omega) months valid.month days (sameYear ▸ valid.day) hours
    hour_le minutes (by omega) seconds (by omega) fraction
    (zone.symm ▸ readOffset_formatOffset minute inside), number, civilSeconds_eq, civilSeconds,
    Int.add_sub_cancel, unixSeconds, Int.toNat_of_nonneg nanos, Int.mul_comm, parts]

end Written

end Grunt.Foundation.Calendar
