import Grunt.Foundation.Bytes

/-! # Instants and civil time

An instant counts nanoseconds since the Unix epoch. A location gives the
offset from UTC, in seconds, at every Unix second.
-/

namespace Grunt.Foundation

abbrev Instant := Int

structure Location where
  offset : Int → Int

namespace Location

def utc : Location where
  offset := fun _ => 0

end Location

namespace Calendar

def second : Int := 1000000000
def minute : Int := 60 * second
def hour : Int := 60 * minute

def secondsPerDay : Int := 86400

def unixSeconds (instant : Instant) : Int := instant / second

def civilSeconds (location : Location) (instant : Instant) : Int :=
  unixSeconds instant + location.offset (unixSeconds instant)

def dayNumber (location : Location) (instant : Instant) : Int :=
  civilSeconds location instant / secondsPerDay

/-- `time.Date`: the instant of a civil time. The offset is looked up twice, as
the first guess may lie on the other side of a zone transition. -/
def ofCivil (location : Location) (civil : Int) : Instant :=
  (civil - location.offset (civil - location.offset civil)) * second

/-- The instant at which a day begins. In a zone that skips it, `ofCivil` gives
an instant beside the gap. -/
def midnight (location : Location) (day : Int) : Instant :=
  ofCivil location (day * secondsPerDay)

/-- `AddDate(0, 0, days)`: the date moves and the clock stays. -/
def addDays (location : Location) (days : Int) (instant : Instant) : Instant :=
  ofCivil location (civilSeconds location instant + days * secondsPerDay) + instant % second

def HasMidnights (location : Location) : Prop :=
  ∀ day, civilSeconds location (midnight location day) = day * secondsPerDay

theorem HasMidnights.dayNumber {location : Location} (midnights : HasMidnights location)
    (day : Int) : dayNumber location (midnight location day) = day := by
  rw [Calendar.dayNumber, midnights]
  exact Int.mul_ediv_cancel _ (by decide)

theorem HasMidnights.addDays_midnight {location : Location} (midnights : HasMidnights location)
    (days day : Int) :
    addDays location days (midnight location day) = midnight location (day + days) := by
  have whole : midnight location day % second = 0 := Int.mul_emod_left _ _
  rw [addDays, midnights, whole, Int.add_zero, ← Int.add_mul]
  rfl

theorem hasMidnights_utc : HasMidnights .utc := by
  intro day
  have whole : day * secondsPerDay * second / second = day * secondsPerDay :=
    Int.mul_ediv_cancel _ (by decide)
  simp only [civilSeconds, unixSeconds, midnight, ofCivil, Location.utc, Int.sub_zero,
    Int.add_zero, whole]

structure Date where
  year : Int
  month : Nat
  day : Nat
deriving DecidableEq, Repr

def civilDate (number : Int) : Date :=
  let shifted := number + 719468
  let era := shifted / 146097
  let dayOfEra := shifted % 146097
  let yearOfEra := (dayOfEra - dayOfEra / 1460 + dayOfEra / 36524 - dayOfEra / 146096) / 365
  let dayOfYear := dayOfEra - (365 * yearOfEra + yearOfEra / 4 - yearOfEra / 100)
  let month := (5 * dayOfYear + 2) / 153
  let day := dayOfYear - (153 * month + 2) / 5 + 1
  let civilMonth := if month < 10 then month + 3 else month - 9
  { year := yearOfEra + era * 400 + (if civilMonth ≤ 2 then 1 else 0)
    month := civilMonth.toNat
    day := day.toNat }

example : civilDate 0 = ⟨1970, 1, 1⟩ := by decide

example : civilDate 19782 = ⟨2024, 2, 29⟩ := by decide

def weekdayName (number : Int) : ByteString :=
  match (number + 4) % 7 with
  | 0 => utf8 "Sunday"
  | 1 => utf8 "Monday"
  | 2 => utf8 "Tuesday"
  | 3 => utf8 "Wednesday"
  | 4 => utf8 "Thursday"
  | 5 => utf8 "Friday"
  | _ => utf8 "Saturday"

def monthName : Nat → ByteString
  | 1 => utf8 "January"
  | 2 => utf8 "February"
  | 3 => utf8 "March"
  | 4 => utf8 "April"
  | 5 => utf8 "May"
  | 6 => utf8 "June"
  | 7 => utf8 "July"
  | 8 => utf8 "August"
  | 9 => utf8 "September"
  | 10 => utf8 "October"
  | 11 => utf8 "November"
  | _ => utf8 "December"

/-- The layout `Monday, January 2`. -/
def formatWeekdayDate (location : Location) (instant : Instant) : ByteString :=
  let number := dayNumber location instant
  let date := civilDate number
  weekdayName number ++ utf8 ", " ++ monthName date.month ++ utf8 " " ++
    Bytes.decimal date.day

theorem length_formatWeekdayDate (location : Location) (instant : Instant) :
    12 ≤ (formatWeekdayDate location instant).length := by
  have weekday : ∀ number, 6 ≤ (weekdayName number).length := by
    intro number
    rw [weekdayName]
    split <;> decide
  have month : ∀ number, 3 ≤ (monthName number).length := by
    intro number
    unfold monthName
    split <;> decide
  have comma : (utf8 ", ").length = 2 := by decide
  have space : (utf8 " ").length = 1 := by decide
  have first := weekday (dayNumber location instant)
  have second := month (civilDate (dayNumber location instant)).month
  rw [formatWeekdayDate]
  simp only [List.length_append]
  omega

/-- The layout `15:04`. -/
def formatClock (location : Location) (instant : Instant) : ByteString :=
  let ofDay := civilSeconds location instant % secondsPerDay
  Bytes.twoDigits (ofDay / 3600).toNat ++ utf8 ":" ++
    Bytes.twoDigits (ofDay / 60 % 60).toNat

/-- The zero `time.Time`, the first instant of the year 1. -/
def zeroTime : Instant := -62135596800 * second

/-- The layout `2006`, in four digits or as many as the year has. -/
def formatYear (year : Int) : ByteString :=
  let digits :=
    if year.natAbs < 10000 then
      Bytes.twoDigits (year.natAbs / 100) ++ Bytes.twoDigits year.natAbs
    else Bytes.decimal year.natAbs
  if year < 0 then utf8 "-" ++ digits else digits

/-- The layout `2006-01-02`. -/
def formatDate (date : Date) : ByteString :=
  formatYear date.year ++ utf8 "-" ++ Bytes.twoDigits date.month ++ utf8 "-" ++
    Bytes.twoDigits date.day

/-- The layout `2006-01-02 15:04`. -/
def formatDateClock (location : Location) (instant : Instant) : ByteString :=
  formatDate (civilDate (dayNumber location instant)) ++ utf8 " " ++
    formatClock location instant

def formatFraction (nanoseconds : Nat) : ByteString :=
  let digits := (List.range 9).map fun place =>
    48 + UInt8.ofNat (nanoseconds / 10 ^ (8 - place) % 10)
  match (digits.reverse.dropWhile fun digit => digit = 48).reverse with
  | [] => []
  | kept => 46 :: kept

def formatOffset (offset : Int) : ByteString :=
  if offset = 0 then utf8 "Z"
  else
    (if offset < 0 then utf8 "-" else utf8 "+") ++
      Bytes.twoDigits (offset.natAbs / 3600) ++ utf8 ":" ++
      Bytes.twoDigits (offset.natAbs / 60 % 60)

def year (location : Location) (instant : Instant) : Int :=
  (civilDate (dayNumber location instant)).year

def formatRFC3339Nano (location : Location) (instant : Instant) : ByteString :=
  let civil := civilSeconds location instant
  let ofDay := civil % secondsPerDay
  formatDate (civilDate (civil / secondsPerDay)) ++ utf8 "T" ++
    Bytes.twoDigits (ofDay / 3600).toNat ++ utf8 ":" ++
    Bytes.twoDigits (ofDay / 60 % 60).toNat ++ utf8 ":" ++
    Bytes.twoDigits (ofDay % 60).toNat ++
    formatFraction (instant % second).toNat ++
    formatOffset (location.offset (unixSeconds instant))

def formatRFC3339 (location : Location) (seconds : Int) : ByteString :=
  formatRFC3339Nano location (seconds * second)

/-- `time.Parse(time.RFC3339, …)` of a text that `formatRFC3339` wrote. It
reads exactly four digits of the year. -/
def parseRFC3339 (location : Location) (seconds : Int) : Except ByteString Instant :=
  let written := formatRFC3339 location seconds
  let failed := fun (rest expected : ByteString) =>
    utf8 "parsing time \"" ++ written ++ utf8 "\" as \"2006-01-02T15:04:05Z07:00\"" ++
      utf8 ": cannot parse \"" ++ rest ++ utf8 "\" as \"" ++ expected ++ utf8 "\""
  if year location (seconds * second) < 0 then .error (failed written (utf8 "2006"))
  else if 9999 < year location (seconds * second) then
    .error (failed (written.drop 4) (utf8 "-"))
  else .ok (seconds * second)

theorem parseRFC3339_ok {location : Location} {seconds : Int} {instant : Instant}
    (parsed : parseRFC3339 location seconds = .ok instant) :
    instant = seconds * second := by
  unfold parseRFC3339 at parsed
  dsimp only at parsed
  split at parsed
  · cases parsed
  · split at parsed
    · cases parsed
    · cases parsed
      rfl

example : formatRFC3339Nano ⟨fun _ => 3600⟩ 1500000000 =
    utf8 "1970-01-01T01:00:01.5+01:00" := by decide

end Calendar

end Grunt.Foundation
