import Grunt.Client.Message
import Grunt.Foundation.EventStream

/-! # The bytes of a marshalled message

`json.Marshal` escapes control characters, so whatever the fields of a message
are, its text has no line end in it.
-/

namespace Grunt.Client

open Foundation

def Printable (text : ByteString) : Prop := ∀ byte ∈ text, 32 ≤ byte

instance (text : ByteString) : Decidable (Printable text) :=
  List.decidableBAll (fun byte => 32 ≤ byte) text

namespace Printable

theorem nil : Printable [] := fun _ member => absurd member List.not_mem_nil

theorem append {left right : ByteString} (first : Printable left) (second : Printable right) :
    Printable (left ++ right) := by
  intro byte member
  rcases List.mem_append.mp member with member | member
  · exact first byte member
  · exact second byte member

theorem ite {condition : Prop} [Decidable condition] {left right : ByteString}
    (first : Printable left) (second : Printable right) :
    Printable (if condition then left else right) := by
  split
  · exact first
  · exact second

theorem oneLine {text : ByteString} (printable : Printable text) :
    EventStream.OneLine text := by
  constructor
  · intro member
    exact absurd (printable _ member) (by decide)
  · intro member
    exact absurd (printable _ member) (by decide)

end Printable

/-! ## Strings -/

theorem printable_quoteASCII (byte : UInt8) : Printable (quoteASCII byte) := by
  have values : ∀ value : Fin 256,
      (quoteASCII (UInt8.ofFin value)).all (fun other => 32 ≤ other) = true := by
    decide +kernel
  intro other member
  exact of_decide_eq_true (List.all_eq_true.mp (values byte.toFin) other member)

theorem printable_cons {byte : UInt8} {text : ByteString} (first : 32 ≤ byte)
    (rest : Printable text) : Printable (byte :: text) := by
  intro other member
  rcases List.mem_cons.mp member with rfl | member
  · exact first
  · exact rest other member

theorem le_of_isContinuation {byte : UInt8} (continues : Bytes.isContinuation byte = true) :
    32 ≤ byte := by
  unfold Bytes.isContinuation at continues
  have high : 0x80 ≤ byte := of_decide_eq_true (Bool.and_eq_true_iff.mp continues).1
  exact UInt8.le_trans (by decide) high

theorem le_ite {condition : Prop} [Decidable condition] {bound left right : UInt8}
    (first : bound ≤ left) (second : bound ≤ right) :
    bound ≤ if condition then left else right := by
  split
  · exact first
  · exact second

theorem take_runeWidth {byte : UInt8} {rest : ByteString} {width : Nat}
    (formed : Bytes.runeWidth (byte :: rest) = some width) :
    (∃ only, (byte :: rest).take width = [only]) ∨ Printable ((byte :: rest).take width) := by
  simp only [Bytes.runeWidth] at formed
  split at formed
  case isTrue =>
    cases formed
    exact .inl ⟨byte, rfl⟩
  case isFalse wide =>
    have first : 32 ≤ byte := by
      rw [UInt8.not_lt] at wide
      exact UInt8.le_trans (by decide) wide
    apply Or.inr
    split at formed
    case isTrue =>
      split at formed
      case h_2 => cases formed
      case h_1 second _ =>
        split at formed <;> cases formed
        next continues =>
          exact printable_cons first (printable_cons (le_of_isContinuation continues) .nil)
    case isFalse =>
      split at formed
      case isTrue =>
        split at formed
        case h_2 => cases formed
        case h_1 second third _ =>
          rcases Option.ite_none_right_eq_some.mp formed with ⟨bounds, same⟩
          cases same
          rw [Bool.and_eq_true, Bool.and_eq_true, decide_eq_true_eq] at bounds
          rcases bounds with ⟨⟨low, -⟩, last⟩
          have middle : 32 ≤ second := UInt8.le_trans (le_ite (by decide) (by decide)) low
          exact printable_cons first (printable_cons middle
            (printable_cons (le_of_isContinuation last) .nil))
      case isFalse =>
        split at formed
        case isFalse => cases formed
        case isTrue =>
          split at formed
          case h_2 => cases formed
          case h_1 second third fourth _ =>
            rcases Option.ite_none_right_eq_some.mp formed with ⟨bounds, same⟩
            cases same
            rw [Bool.and_eq_true, Bool.and_eq_true, Bool.and_eq_true,
              decide_eq_true_eq] at bounds
            rcases bounds with ⟨⟨⟨low, -⟩, inner⟩, last⟩
            have middle : 32 ≤ second := UInt8.le_trans (le_ite (by decide) (by decide)) low
            exact printable_cons first (printable_cons middle
              (printable_cons (le_of_isContinuation inner)
                (printable_cons (le_of_isContinuation last) .nil)))

-- `split` cannot take the literals of `quoteRune` apart when all of Mathlib is there
set_option linter.auxLemma false in
theorem quoteRune_cases (first second : UInt8) (rest : ByteString) :
    quoteRune (first :: second :: rest) = utf8 "\\u2028" ∨
      quoteRune (first :: second :: rest) = utf8 "\\u2029" ∨
        quoteRune (first :: second :: rest) = first :: second :: rest := by
  delta quoteRune quoteRune.match_1
  by_cases middle : second = 0x80
  · subst middle
    cases rest with
    | nil => exact .inr (.inr rfl)
    | cons third rest =>
        by_cases line : third = 0xA8
        · subst line
          cases rest with
          | cons => exact .inr (.inr rfl)
          | nil =>
              by_cases head : first = 0xE2
              · subst head
                exact .inl rfl
              · exact .inr (.inr (dif_neg head))
        · by_cases paragraph : third = 0xA9
          · subst paragraph
            cases rest with
            | cons => exact .inr (.inr rfl)
            | nil =>
                by_cases head : first = 0xE2
                · subst head
                  exact .inr (.inl rfl)
                · exact .inr (.inr (dif_neg head))
          · exact .inr (.inr ((dif_neg line).trans (dif_neg paragraph)))
  · exact .inr (.inr (dif_neg middle))

theorem printable_quoteRune {rune : ByteString}
    (ascii : (∃ byte, rune = [byte]) ∨ Printable rune) : Printable (quoteRune rune) := by
  rcases ascii with ⟨byte, rfl⟩ | printable
  · exact printable_quoteASCII byte
  · match rune with
    | [] => exact Printable.nil
    | [byte] => exact printable_quoteASCII byte
    | first :: second :: rest =>
        rcases quoteRune_cases first second rest with escaped | escaped | same
        · rw [escaped]
          decide
        · rw [escaped]
          decide
        · rw [same]
          exact printable

theorem printable_quoteFrom (count : Nat) (text : ByteString) :
    Printable (quoteFrom count text) := by
  fun_induction quoteFrom count text with
  | case1 => exact Printable.nil
  | case2 count byte rest induction => exact induction
  | case3 byte rest width formed induction =>
      exact Printable.append (printable_quoteRune (take_runeWidth formed)) induction
  | case4 byte rest unformed induction =>
      exact Printable.append (by decide) induction

theorem printable_marshalString (text : ByteString) : Printable (marshalString text) := by
  apply Printable.append
  · exact Printable.append (by decide) (printable_quoteFrom 0 text)
  · decide

/-! ## Numbers and times -/

theorem printable_digit {digit : Nat} (small : digit < 10) : 32 ≤ 48 + UInt8.ofNat digit := by
  have values : ∀ digit < 10, 32 ≤ 48 + UInt8.ofNat digit := by decide
  exact values digit small

theorem printable_decimal (number : Nat) : Printable (Bytes.decimal number) :=
  Bytes.forall_decimal (fun _ => printable_digit) number

theorem printable_twoDigits (number : Nat) : Printable (Bytes.twoDigits number) :=
  Bytes.forall_twoDigits (fun _ => printable_digit) number

theorem printable_formatDate (date : Calendar.Date) : Printable (Calendar.formatDate date) := by
  have year : Printable (Calendar.formatYear date.year) := by
    have digits : Printable (if date.year.natAbs < 10000 then
        Bytes.twoDigits (date.year.natAbs / 100) ++ Bytes.twoDigits date.year.natAbs
      else Bytes.decimal date.year.natAbs) :=
      Printable.ite (Printable.append (printable_twoDigits _) (printable_twoDigits _))
        (printable_decimal _)
    exact Printable.ite (Printable.append (by decide) digits) digits
  unfold Calendar.formatDate
  exact (((year.append (by decide)).append (printable_twoDigits _)).append (by decide)).append
    (printable_twoDigits _)

theorem printable_formatFraction (nanoseconds : Nat) :
    Printable (Calendar.formatFraction nanoseconds) := by
  unfold Calendar.formatFraction
  dsimp only
  split
  case h_1 => exact Printable.nil
  case h_2 kept =>
    intro byte member
    rcases List.mem_cons.mp member with rfl | member
    · decide
    · have inside := List.mem_reverse.mp ((List.dropWhile_sublist _).mem
        (List.mem_reverse.mp member))
      rcases List.mem_map.mp inside with ⟨place, -, rfl⟩
      exact printable_digit (Nat.mod_lt _ (by decide))

theorem printable_formatOffset (offset : Int) : Printable (Calendar.formatOffset offset) := by
  unfold Calendar.formatOffset
  apply Printable.ite (by decide)
  exact (((Printable.ite (by decide) (by decide)).append (printable_twoDigits _)).append
    (by decide)).append (printable_twoDigits _)

theorem printable_formatRFC3339Nano (location : Location) (instant : Instant) :
    Printable (Calendar.formatRFC3339Nano location instant) := by
  unfold Calendar.formatRFC3339Nano
  exact ((((((((printable_formatDate _).append (by decide)).append
    (printable_twoDigits _)).append (by decide)).append (printable_twoDigits _)).append
    (by decide)).append (printable_twoDigits _)).append (printable_formatFraction _)).append
    (printable_formatOffset _)

/-! ## Messages and events -/

theorem printable_member {name : String} {value : ByteString} (named : Printable (utf8 name))
    (printable : Printable value) : Printable (member name value) := by
  unfold member
  exact (((by decide : Printable _).append named).append (by decide)).append printable

theorem printable_optionalMember {name : String} (named : Printable (utf8 name))
    (value : ByteString) : Printable (optionalMember name value) := by
  unfold optionalMember
  exact Printable.ite Printable.nil
    (Printable.append (by decide) (printable_member named (printable_marshalString value)))

theorem printable_marshalTime {location : Location} {instant : Instant} {text : ByteString}
    (marshalled : marshalTime location instant = some text) : Printable text := by
  unfold marshalTime at marshalled
  split at marshalled <;> cases marshalled
  exact ((by decide : Printable _).append (printable_formatRFC3339Nano location instant)).append
    (by decide)

theorem Broadcast.printable_marshal {location : Location} {message : Broadcast}
    {data : ByteString} (marshalled : message.marshal location = some data) :
    Printable data := by
  rcases Option.map_eq_some_iff.mp marshalled with ⟨timestamp, written, rfl⟩
  have time : Printable (member "timestamp" timestamp) :=
    printable_member (by decide) (printable_marshalTime written)
  have type : Printable (member "type" (marshalString message.type)) :=
    printable_member (by decide) (printable_marshalString message.type)
  have id : Printable (member "id" (Bytes.decimal message.id)) :=
    printable_member (by decide) (printable_decimal message.id)
  have opened : Printable (utf8 "\x7b") := by decide
  have comma : Printable (utf8 ",") := by decide
  exact ((((((((opened.append type).append comma).append id).append
    (printable_optionalMember (by decide) message.content)).append
    (printable_optionalMember (by decide) message.clientID)).append
    (printable_optionalMember (by decide) message.userID)).append comma).append time).append
    (by decide)

theorem Event.printable_marshal (event : Event) : Printable event.marshal := by
  have type : Printable (member "type" (marshalString event.type)) :=
    printable_member (by decide) (printable_marshalString event.type)
  have name : Printable (member "event" (marshalString event.event)) :=
    printable_member (by decide) (printable_marshalString event.event)
  have client : Printable (member "client_id" (marshalString event.clientID)) :=
    printable_member (by decide) (printable_marshalString event.clientID)
  have user : Printable (member "user" (marshalString event.userID)) :=
    printable_member (by decide) (printable_marshalString event.userID)
  have opened : Printable (utf8 "\x7b") := by decide
  have comma : Printable (utf8 ",") := by decide
  exact (((((((opened.append type).append comma).append name).append comma).append
    client).append comma).append user).append (by decide)

end Grunt.Client
