import Grunt.Server.Grouping

/-! # Date dividers

The list in a browser begins with the rows of a page and goes on with live
fragments. `formatDateHeader` is given the midnight of a message's date by the
page and its timestamp by `Run`, and the date before is that of the row above
on the page and that of the last message that was rendered in `Run`.
-/

namespace Grunt.Server

open Foundation

def dateOf (location : Location) (message : Client.Broadcast) : Int :=
  Calendar.dayNumber location message.timestamp

def dateLabel (location : Location) (now : Instant) (message : Client.Broadcast) : ByteString :=
  if dateOf location message = Calendar.dayNumber location now then utf8 "Today"
  else if dateOf location message = Calendar.dayNumber location now - 1 then utf8 "Yesterday"
  else Calendar.formatWeekdayDate location message.timestamp

/-! ## What formatDateHeader makes of an instant -/

/-- The midnight of today, and what `AddDate` takes from it to get yesterday: the
date of that midnight less one, at the clock of that midnight. -/
def todaysMidnight (location : Location) (now : Instant) : Instant :=
  Calendar.midnight location (Calendar.dayNumber location now)

def yesterdaysMidnight (location : Location) (now : Instant) : Instant :=
  Calendar.addDays location (-1) (todaysMidnight location now)

/-- An instant stands for the date of a message: it is the midnight of today or
of yesterday exactly if that is the date, and else has the weekday and the day
of the message. -/
structure StandsFor (location : Location) (now given : Instant) (message : Client.Broadcast) :
    Prop where
  today : dateOf location message = Calendar.dayNumber location now ↔
    given = todaysMidnight location now
  yesterday : dateOf location message = Calendar.dayNumber location now - 1 →
    given = yesterdaysMidnight location now
  other : dateOf location message ≠ Calendar.dayNumber location now →
    dateOf location message ≠ Calendar.dayNumber location now - 1 →
    given ≠ yesterdaysMidnight location now ∧
      Calendar.formatWeekdayDate location given =
        Calendar.formatWeekdayDate location message.timestamp

section Labels

variable {location : Location} {now given : Instant} {message : Client.Broadcast}

theorem formatDateHeader_eq : formatDateHeader location now given =
    if given = todaysMidnight location now then utf8 "Today"
    else if given = yesterdaysMidnight location now then utf8 "Yesterday"
    else Calendar.formatWeekdayDate location given := rfl

theorem formatDateHeader_ne_nil : formatDateHeader location now given ≠ [] := by
  intro empty
  have length := Calendar.length_formatWeekdayDate location given
  rw [formatDateHeader_eq] at empty
  split at empty
  · exact absurd empty (by decide)
  · split at empty
    · exact absurd empty (by decide)
    · rw [empty] at length
      exact absurd length (by decide)

theorem formatWeekdayDate_ne {label : ByteString} (short : label.length < 12) :
    Calendar.formatWeekdayDate location given ≠ label := by
  intro same
  have length := Calendar.length_formatWeekdayDate location given
  rw [same] at length
  exact absurd length (Nat.not_le_of_lt short)

theorem formatDateHeader_eq_iff :
    formatDateHeader location now given = dateLabel location now message ↔
      StandsFor location now given message := by
  have todays : utf8 "Today" ≠ utf8 "Yesterday" := by decide
  have apart : ∀ instant, Calendar.formatWeekdayDate location instant ≠ utf8 "Today" :=
    fun _ => formatWeekdayDate_ne (by decide)
  have distinct : ∀ instant, Calendar.formatWeekdayDate location instant ≠ utf8 "Yesterday" :=
    fun _ => formatWeekdayDate_ne (by decide)
  have before : Calendar.dayNumber location now - 1 ≠ Calendar.dayNumber location now := by
    omega
  constructor
  · intro same
    simp only [formatDateHeader_eq, dateLabel] at same
    by_cases today : dateOf location message = Calendar.dayNumber location now
    · rw [if_pos today] at same
      have atMidnight : given = todaysMidnight location now := by
        by_contra different
        rw [if_neg different] at same
        split at same
        · exact todays same.symm
        · exact apart _ same
      refine ⟨iff_of_true today atMidnight, ?_, fun different => absurd today different⟩
      intro yesterday
      exact absurd (yesterday.symm.trans today) before
    · rw [if_neg today] at same
      have elsewhere : given ≠ todaysMidnight location now := by
        intro atMidnight
        rw [if_pos atMidnight] at same
        split at same
        · exact todays same
        · exact apart _ same.symm
      rw [if_neg elsewhere] at same
      by_cases yesterday : dateOf location message = Calendar.dayNumber location now - 1
      · rw [if_pos yesterday] at same
        refine ⟨iff_of_false today elsewhere, ?_, fun _ different => absurd yesterday different⟩
        intro _
        by_contra different
        rw [if_neg different] at same
        exact distinct _ same
      · rw [if_neg yesterday] at same
        refine ⟨iff_of_false today elsewhere, fun equal => absurd equal yesterday, ?_⟩
        intro _ _
        have further : given ≠ yesterdaysMidnight location now := by
          intro atMidnight
          rw [if_pos atMidnight] at same
          exact distinct _ same.symm
        rw [if_neg further] at same
        exact ⟨further, same⟩
  · intro stands
    simp only [formatDateHeader_eq, dateLabel]
    by_cases today : dateOf location message = Calendar.dayNumber location now
    · rw [if_pos today, if_pos (stands.today.mp today)]
    · rw [if_neg today, if_neg (mt stands.today.mpr today)]
      by_cases yesterday : dateOf location message = Calendar.dayNumber location now - 1
      · rw [if_pos yesterday, if_pos (stands.yesterday yesterday)]
      · rw [if_neg yesterday, if_neg (stands.other today yesterday).1]
        exact (stands.other today yesterday).2

end Labels

/-! ## The list in a browser -/

/-- Where a row comes from: from a page, or from `Run`, which had rendered some
message last. -/
inductive RowSource
  | page
  | live (last : Option Client.Broadcast)

structure ListRow where
  message : Client.Broadcast
  now : Instant
  dateHeader : ByteString
  source : RowSource

def EachBelow (Holds : Option Client.Broadcast → ListRow → Prop) :
    Option Client.Broadcast → List ListRow → Prop
  | _, [] => True
  | above, row :: rows => Holds above row ∧ EachBelow Holds (some row.message) rows

def pageList (dated : List (Client.Broadcast × Instant)) (rows : List MessageTemplateData) :
    List ListRow :=
  List.zipWith (fun dated row => ⟨dated.1, dated.2, row.dateHeader, .page⟩) dated rows

/-- The live row of a message, after the messages that `Run` came to before. -/
def liveRow (before : List Processed) (entry : Processed) : ListRow where
  message := entry.message
  now := entry.surroundings.now
  dateHeader := entry.dateHeader
  source := .live ((lastRendered before).map Processed.message)

/-- What a browser can show: a page, and below it whatever `Run` has rendered,
before or after a restart. -/
inductive Displays (platform : Platform) : List ListRow → Prop
  | page {messages : List Client.Broadcast} {dated : List (Client.Broadcast × Instant)}
      {rows : List MessageTemplateData} :
      (chatRows platform none messages).Returns (some rows) → dated.map Prod.fst = messages →
      RowsFor platform.location none dated rows → Displays platform (pageList dated rows)
  | live {rows : List ListRow} {actions : List HubAction} {hub : Hub}
      {before rest : List Processed} {entry : Processed} : Displays platform rows →
      Run Hub.act (fun _ action => action.Sends (Item.Posted platform.location) ∧
        action.InZone platform.location) Hub.start actions hub →
      Hub.log actions = before ++ entry :: rest → entry.rendered = true →
      Displays platform (rows ++ [liveRow before entry])

def DateBegins (location : Location) (above : Option Client.Broadcast)
    (message : Client.Broadcast) : Prop :=
  ∀ previous, above = some previous → dateOf location previous ≠ dateOf location message

structure Divided (location : Location) (above : Option Client.Broadcast) (row : ListRow) :
    Prop where
  begins : DateBegins location above row.message →
    row.dateHeader = dateLabel location row.now row.message
  goesOn : ¬ DateBegins location above row.message → row.dateHeader = []

/-- What `lastMsgDate` is after a message. -/
def rememberedDate (location : Location) : Option Client.Broadcast → Instant
  | some last => currentDate location last.timestamp
  | none => Calendar.zeroTime

/-- When the divider above a row comes out right. On a page, dates that begin
are told by their midnights from the date before, and the midnight stands for
the date. In `Run`, the last message it rendered is of the same date exactly if
the row above is, and where a date begins the timestamp stands for it. -/
def DividesRight (location : Location) (above : Option Client.Broadcast) (row : ListRow) :
    Prop :=
  match row.source with
  | .page => DateBegins location above row.message →
      (∀ previous, above = some previous →
        currentDate location row.message.timestamp ≠ currentDate location previous.timestamp) ∧
      StandsFor location row.now (currentDate location row.message.timestamp) row.message
  | .live last =>
      (rememberedDate location last = currentDate location row.message.timestamp ↔
        ¬ DateBegins location above row.message) ∧
      (DateBegins location above row.message →
        StandsFor location row.now row.message.timestamp row.message)

def computedHeader (location : Location) (above : Option Client.Broadcast) (row : ListRow) :
    ByteString :=
  match row.source with
  | .page => pageDateHeader location above row.now row.message
  | .live last =>
      if rememberedDate location last = currentDate location row.message.timestamp then []
      else formatDateHeader location row.now row.message.timestamp

section Lists

variable {location : Location} {above : Option Client.Broadcast} {rows : List ListRow}
variable {Holds Weaker : Option Client.Broadcast → ListRow → Prop}

theorem EachBelow.mono (each : EachBelow Holds above rows)
    (weaker : ∀ above row, Holds above row → Weaker above row) :
    EachBelow Weaker above rows := by
  induction rows generalizing above with
  | nil => trivial
  | cons row rows induction => exact ⟨weaker above row each.1, induction each.2⟩

theorem EachBelow.snoc (each : EachBelow Holds above rows)
    {row : ListRow} (holds : ∀ above, Holds above row) :
    EachBelow Holds above (rows ++ [row]) := by
  induction rows generalizing above with
  | nil => exact ⟨holds above, trivial⟩
  | cons first rows induction => exact ⟨each.1, induction each.2⟩

theorem computed_of_page {dated : List (Client.Broadcast × Instant)}
    {rows : List MessageTemplateData} (isPage : RowsFor location above dated rows) :
    EachBelow (fun above row => row.dateHeader = computedHeader location above row) above
      (pageList dated rows) := by
  induction isPage with
  | nil => trivial
  | cons isRow _ induction => exact ⟨isRow.dateHeader, induction⟩

end Lists

section Rows

variable {location : Location} {above : Option Client.Broadcast} {row : ListRow}

theorem dateLabel_ne_nil {now : Instant} {message : Client.Broadcast} :
    dateLabel location now message ≠ [] := by
  rw [dateLabel]
  split
  · decide
  · split
    · decide
    · exact formatWeekdayDate_ne (by decide)

theorem divided_of_begins (begins : DateBegins location above row.message) :
    Divided location above row ↔
      row.dateHeader = dateLabel location row.now row.message := by
  constructor
  · intro divided
    exact divided.begins begins
  · intro labelled
    exact ⟨fun _ => labelled, absurd begins⟩

theorem divided_of_goesOn (goesOn : ¬ DateBegins location above row.message) :
    Divided location above row ↔ row.dateHeader = [] := by
  constructor
  · intro divided
    exact divided.goesOn goesOn
  · intro plain
    exact ⟨fun begins => absurd begins goesOn, fun _ => plain⟩

theorem pageDateHeader_eq_nil {now : Instant} {message : Client.Broadcast} :
    pageDateHeader location above now message = [] ↔
      ∃ previous, above = some previous ∧
        currentDate location message.timestamp = currentDate location previous.timestamp := by
  rw [pageDateHeader]
  cases above with
  | none => simp [formatDateHeader_ne_nil]
  | some previous => simp [formatDateHeader_ne_nil]

theorem pageDateHeader_of_ne {now : Instant} {message : Client.Broadcast}
    (shown : pageDateHeader location above now message ≠ []) :
    pageDateHeader location above now message =
      formatDateHeader location now (currentDate location message.timestamp) := by
  rw [pageDateHeader] at shown ⊢
  split at shown
  · exact absurd rfl shown
  · next different => rw [if_neg different]

theorem divided_iff_of_page (source : row.source = .page)
    (computed : row.dateHeader = computedHeader location above row) :
    Divided location above row ↔ DividesRight location above row := by
  have header : row.dateHeader = pageDateHeader location above row.now row.message := by
    rw [computed, computedHeader, source]
  rw [DividesRight, source]
  by_cases begins : DateBegins location above row.message
  · rw [divided_of_begins begins, header]
    by_cases shown : pageDateHeader location above row.now row.message = []
    · rcases pageDateHeader_eq_nil.mp shown with ⟨previous, isAbove, same⟩
      constructor
      · intro labelled
        exact absurd (labelled.symm.trans shown) dateLabel_ne_nil
      · intro right
        exact absurd same ((right begins).1 previous isAbove)
    · rw [pageDateHeader_of_ne shown, formatDateHeader_eq_iff]
      constructor
      · intro stands _
        refine ⟨fun previous isAbove same => ?_, stands⟩
        exact shown (pageDateHeader_eq_nil.mpr ⟨previous, isAbove, same⟩)
      · intro right
        exact (right begins).2
  · rw [divided_of_goesOn begins, header]
    apply iff_of_true
    · rw [DateBegins] at begins
      push Not at begins
      rcases begins with ⟨previous, isAbove, same⟩
      refine pageDateHeader_eq_nil.mpr ⟨previous, isAbove, ?_⟩
      exact congrArg (Calendar.midnight location) same.symm
    · intro begun
      exact absurd begun begins

theorem divided_iff_of_live {last : Option Client.Broadcast} (source : row.source = .live last)
    (computed : row.dateHeader = computedHeader location above row) :
    Divided location above row ↔ DividesRight location above row := by
  have header : row.dateHeader =
      if rememberedDate location last = currentDate location row.message.timestamp then []
      else formatDateHeader location row.now row.message.timestamp := by
    rw [computed, computedHeader, source]
  rw [DividesRight, source]
  by_cases begins : DateBegins location above row.message
  · rw [divided_of_begins begins, header]
    split
    case isTrue same =>
      constructor
      · intro labelled
        exact absurd labelled.symm dateLabel_ne_nil
      · intro right
        exact absurd begins (right.1.mp same)
    case isFalse different =>
      rw [formatDateHeader_eq_iff]
      constructor
      · intro stands
        exact ⟨iff_of_false different (not_not_intro begins), fun _ => stands⟩
      · intro right
        exact right.2 begins
  · rw [divided_of_goesOn begins, header]
    split
    case isTrue same =>
      exact iff_of_true rfl ⟨iff_of_true same begins, fun begun => absurd begun begins⟩
    case isFalse different =>
      constructor
      · intro plain
        exact absurd plain formatDateHeader_ne_nil
      · intro right
        exact absurd (right.1.mpr begins) different

end Rows

/-! ## What Run remembers of dates -/

namespace Hub

variable {hub : Hub} {location : Location} {actions : List HubAction}

theorem located_of_run
    (run : Run act (fun _ action => action.InZone location) start actions hub) :
    ∀ entry ∈ log actions, entry.surroundings.location = location := by
  refine run.traced processes
    (fun _ _ log => ∀ entry ∈ log, entry.surroundings.location = location) ?_ ?_
  · intro hub _ log action after located zone _ entry member
    rcases List.mem_append.mp member with earlier | now
    · exact located entry earlier
    · cases action with
      | send | register => cases now
      | happen surroundings event =>
          have here : surroundings.location = location := zone
          cases event with
          | render =>
              rw [processes] at now
              split at now
              · rcases List.mem_map.mp now with ⟨message, -, rfl⟩
                exact here
              · cases now
          | _ => cases now
  · intro entry member
    cases member

theorem liveRow_computed (run : Run act (fun _ action =>
      action.Sends (Item.Posted location) ∧ action.InZone location) start actions hub)
    {before rest : List Processed} {entry : Processed}
    (split : log actions = before ++ entry :: rest) (above : Option Client.Broadcast) :
    (liveRow before entry).dateHeader =
      computedHeader location above (liveRow before entry) := by
  have sends := run.weaken fun _ _ permitted => permitted.1
  have zone := run.weaken fun _ _ permitted => permitted.2
  have located := located_of_run zone
  rw [split] at located
  have here : entry.surroundings.location = location :=
    located entry (List.mem_append_right _ List.mem_cons_self)
  have date : entry.memory.date =
      rememberedDate location ((lastRendered before).map Processed.message) := by
    rw [((records_of_run sends).each before entry rest split).1, remembered]
    cases found : lastRendered before with
    | none => rfl
    | some last =>
        rcases lastRendered_eq_some_iff.mp found with ⟨-, earlier, unseen, parts, -⟩
        have there : last.surroundings.location = location := by
          apply located last
          rw [parts]
          simp
        rw [← there]
        rfl
  rw [liveRow, computedHeader, Processed.dateHeader, Memory.dateHeader, here, date]

end Hub

/-- In whatever list a browser shows, the divider above a row is right exactly
when the dates are told apart there: on a page by the midnights of the zone, in
live rows by the last message rendered and by the timestamp itself. -/
theorem divided_iff_of_displays {platform : Platform} {rows : List ListRow}
    (displays : Displays platform rows) :
    EachBelow (fun above row => Divided platform.location above row ↔
      DividesRight platform.location above row) none rows := by
  have computed : EachBelow (fun above row =>
      row.dateHeader = computedHeader platform.location above row) none rows := by
    induction displays with
    | page _ _ isPage => exact computed_of_page isPage
    | live _ run split _ induction => exact induction.snoc (Hub.liveRow_computed run split)
  apply computed.mono
  intro above row header
  cases source : row.source with
  | page => exact divided_iff_of_page source header
  | live last => exact divided_iff_of_live source header

/-! ## Where every date has a midnight -/

section Midnights

variable {location : Location} {above : Option Client.Broadcast} {row : ListRow}

theorem midnight_inj (midnights : Calendar.HasMidnights location) {one two : Int} :
    Calendar.midnight location one = Calendar.midnight location two ↔ one = two := by
  constructor
  · intro same
    rw [← midnights.dayNumber one, same, midnights.dayNumber two]
  · intro same
    rw [same]

theorem yesterdaysMidnight_eq (midnights : Calendar.HasMidnights location) (now : Instant) :
    yesterdaysMidnight location now =
      Calendar.midnight location (Calendar.dayNumber location now - 1) :=
  midnights.addDays_midnight (-1) _

theorem divided_of_page (midnights : Calendar.HasMidnights location)
    (source : row.source = .page)
    (computed : row.dateHeader = computedHeader location above row) :
    Divided location above row := by
  rw [divided_iff_of_page source computed, DividesRight, source]
  intro begins
  constructor
  · intro previous isAbove same
    exact begins previous isAbove ((midnight_inj midnights).mp same).symm
  · have before := yesterdaysMidnight_eq midnights row.now
    refine ⟨(midnight_inj midnights).symm, fun yesterday => ?_, fun _ different => ?_⟩
    · rw [before]
      exact congrArg _ yesterday
    · rw [before]
      refine ⟨mt (midnight_inj midnights).mp different, ?_⟩
      rw [Calendar.formatWeekdayDate, Calendar.formatWeekdayDate, currentDate,
        midnights.dayNumber]

/-- And there a timestamp stands for its date only if it is the midnight, or
from before yesterday or after today. -/
theorem standsFor_timestamp_iff (midnights : Calendar.HasMidnights location) {now : Instant}
    {message : Client.Broadcast} :
    StandsFor location now message.timestamp message ↔
      message.timestamp = currentDate location message.timestamp ∨
        dateOf location message ≠ Calendar.dayNumber location now ∧
        dateOf location message ≠ Calendar.dayNumber location now - 1 := by
  have dated : ∀ day, message.timestamp = Calendar.midnight location day →
      dateOf location message = day := by
    intro day same
    rw [dateOf, same, midnights.dayNumber]
  have before := yesterdaysMidnight_eq midnights now
  constructor
  · intro stands
    by_cases today : dateOf location message = Calendar.dayNumber location now
    · exact .inl ((stands.today.mp today).trans (congrArg (Calendar.midnight location) today.symm))
    · by_cases yesterday : dateOf location message = Calendar.dayNumber location now - 1
      · have atYesterday := (stands.yesterday yesterday).trans before
        exact .inl (atYesterday.trans (congrArg _ yesterday.symm))
      · exact .inr ⟨today, yesterday⟩
  · intro condition
    rcases condition with atMidnight | ⟨today, yesterday⟩
    · refine ⟨⟨fun today => ?_, dated _⟩, fun yesterday => ?_, fun _ different => ?_⟩
      · rw [todaysMidnight, ← today]
        exact atMidnight
      · rw [before, ← yesterday]
        exact atMidnight
      · exact ⟨fun same => different (dated _ (same.trans before)), rfl⟩
    · refine ⟨iff_of_false today (mt (dated _) today), fun same => absurd same yesterday, ?_⟩
      intro _ _
      exact ⟨fun same => yesterday (dated _ (same.trans before)), rfl⟩

end Midnights

/-! ## A message of today -/

namespace Hub

def writesAtEleven : List HubAction :=
  let surroundings := Surroundings.plain (12 * Calendar.hour)
  let carl : Entry := (utf8 "c", 0)
  [[.register 0 ⟨utf8 "c", utf8 "carl", true⟩, .happen surroundings .announce],
    delivers surroundings [carl],
    [.send 1 (itemOf surroundings.location (hiFrom "ann" 1 (11 * Calendar.hour)))],
    delivers surroundings [carl]].flatten

theorem writesAtEleven_run : ∃ hub : Hub, Run act (fun _ action =>
      action.Sends (Item.Posted Platform.transparent.location) ∧
        action.InZone Platform.transparent.location) start writesAtEleven hub := by
  have executed : (execute act start writesAtEleven).isSome = true := by decide +kernel
  rcases Option.isSome_iff_exists.mp executed with ⟨hub, reached⟩
  refine ⟨hub, (run_of_execute reached).restrict fun action member => ?_⟩
  have posted : (itemOf Platform.transparent.location
      (hiFrom "ann" 1 (11 * Calendar.hour))).Posted Platform.transparent.location :=
    posted_itemOf (by decide) (by decide)
  cases action with
  | send thread item =>
      have same : item = itemOf Platform.transparent.location
          (hiFrom "ann" 1 (11 * Calendar.hour)) := by
        simp [writesAtEleven, delivers] at member
        exact member.2
      rw [same]
      exact ⟨posted, trivial⟩
  | register thread subscriber => exact ⟨trivial, trivial⟩
  | happen surroundings event =>
      have same : surroundings = Surroundings.plain (12 * Calendar.hour) := by
        simp [writesAtEleven, delivers] at member
        tauto
      rw [same]
      exact ⟨trivial, rfl⟩

theorem writesAtEleven_log : (log writesAtEleven).map (fun entry =>
    (entry.message.timestamp, entry.surroundings.now, entry.rendered, entry.dateHeader)) =
    [(11 * Calendar.hour, 12 * Calendar.hour, true, utf8 "Thursday, January 1")] := by
  decide +kernel

theorem writesAtEleven_displays : ∃ row : ListRow, Displays .transparent [row] ∧
    row.message.timestamp = 11 * Calendar.hour ∧ row.now = 12 * Calendar.hour ∧
    row.dateHeader = utf8 "Thursday, January 1" := by
  rcases writesAtEleven_run with ⟨hub, run⟩
  rcases List.map_eq_cons_iff.mp writesAtEleven_log with ⟨entry, rest, split, shape, -⟩
  have loaded : (chatRows Platform.transparent none []).Returns (some []) := rfl
  have page : Displays .transparent (pageList [] []) := .page loaded rfl (.nil none)
  have splits : log writesAtEleven = [] ++ entry :: rest := split
  refine ⟨liveRow [] entry, page.live run splits (congrArg (fun row => row.2.2.1) shape), ?_⟩
  exact ⟨congrArg Prod.fst shape, congrArg (fun row => row.2.1) shape,
    congrArg (fun row => row.2.2.2) shape⟩

end Hub

/-- The divider names the weekday where it should say that it is today. -/
theorem writesAtEleven_mislabelled : ∃ rows : List ListRow, Displays .transparent rows ∧
    ¬ EachBelow (Divided Platform.transparent.location) none rows := by
  rcases Hub.writesAtEleven_displays with ⟨row, displays, timestamp, now, header⟩
  refine ⟨[row], displays, fun each => ?_⟩
  have begins : DateBegins Platform.transparent.location none row.message :=
    fun previous isAbove => absurd isAbove (Option.some_ne_none previous).symm
  have labelled := each.1.begins begins
  rw [header, dateLabel, dateOf, timestamp, now] at labelled
  exact absurd labelled (by decide)

theorem writesAtEleven_divided_iff : ∃ row : ListRow, Displays .transparent [row] ∧
    (Divided Platform.transparent.location none row ↔
      DividesRight Platform.transparent.location none row) := by
  rcases Hub.writesAtEleven_displays with ⟨row, displays, -⟩
  exact ⟨row, displays, (divided_iff_of_displays displays).1⟩

end Grunt.Server
