import Grunt.Client.Message
import Grunt.Foundation.Unicode
import Grunt.Server.Emotes

/-! # Rendering

The data of the page templates and the message template itself, with the
escaping that `html/template` puts at each of its holes.
-/

namespace Grunt.Server

open Foundation

/-! ## Escaping -/

/-- `html.EscapeString` -/
def escapeStringTable (byte : UInt8) : Option ByteString :=
  match byte.toNat with
  | 38 => some (utf8 "&amp;")
  | 39 => some (utf8 "&#39;")
  | 60 => some (utf8 "&lt;")
  | 62 => some (utf8 "&gt;")
  | 34 => some (utf8 "&#34;")
  | _ => none

def escapeString (text : ByteString) : ByteString := Bytes.escape escapeStringTable text

/-- The escaper of `html/template` for text and quoted attributes. -/
def htmlReplacementTable (byte : UInt8) : Option ByteString :=
  match byte.toNat with
  | 0 => some Bytes.replacementRune
  | 34 => some (utf8 "&#34;")
  | 38 => some (utf8 "&amp;")
  | 39 => some (utf8 "&#39;")
  | 43 => some (utf8 "&#43;")
  | 60 => some (utf8 "&lt;")
  | 62 => some (utf8 "&gt;")
  | _ => none

def htmlEscaper (text : ByteString) : ByteString := Bytes.escape htmlReplacementTable text

def isHex (byte : UInt8) : Bool :=
  (48 ≤ byte && byte ≤ 57) || (97 ≤ byte && byte ≤ 102) || (65 ≤ byte && byte ≤ 70)

def isURLByte (byte : UInt8) : Bool :=
  (97 ≤ byte && byte ≤ 122) || (65 ≤ byte && byte ≤ 90) || (48 ≤ byte && byte ≤ 57) ||
    (utf8 "!#$&*+,/:;=?@[]-._~").contains byte

def keepsURLByte (byte : UInt8) (rest : ByteString) : Bool :=
  isURLByte byte || (byte = 37 &&
    match rest with
    | first :: second :: _ => isHex first && isHex second
    | _ => false)

/-- The escaper of `html/template` inside the path of a URL. -/
def urlNormalizer : ByteString → ByteString
  | [] => []
  | byte :: rest =>
      (if keepsURLByte byte rest then [byte] else 37 :: Bytes.hexEncode [byte]) ++
        urlNormalizer rest

/-! ## Avatars -/

def fnv32a (text : ByteString) : UInt32 :=
  text.foldl (fun hash byte => (hash ^^^ byte.toUInt32) * 16777619) 2166136261

def avatarLightness (userID : ByteString) : Nat := 35 + ((fnv32a userID) >>> 8).toNat % 31

def avatarColor (userID : ByteString) : ByteString :=
  let hash := (fnv32a userID).toNat
  utf8 "hsl(" ++ Bytes.decimal (hash % 360) ++ utf8 "," ++
    Bytes.decimal (70 + hash % 25) ++ utf8 "%," ++
    Bytes.decimal (avatarLightness userID) ++ utf8 "%)"

def avatarTextColor (userID : ByteString) : ByteString :=
  if 50 < avatarLightness userID then utf8 "#000" else utf8 "#fff"

/-- `strings.ToUpper(string([]rune(userID)[0]))`, which panics on an empty name. -/
def initialOf (userID : ByteString) : Option ByteString :=
  (Bytes.firstRune userID).map Unicode.upperRune

structure AvatarData where
  userID : ByteString
  url : ByteString
  color : ByteString
  textColor : ByteString
  initial : ByteString
  hasAvatar : Bool
deriving DecidableEq, Repr

/-! ## Messages -/

structure MessageTemplateData where
  id : Nat
  user : ByteString
  content : ByteString
  renderedContent : ByteString
  timestamp : ByteString
  color : ByteString
  textColor : ByteString
  initial : ByteString
  hasAvatar : Bool
  showAvatar : Bool
  showUsername : Bool
  showTimestamp : Bool
  dateHeader : ByteString
deriving DecidableEq, Repr

structure ChatData where
  messages : List MessageTemplateData
  profile : AvatarData
deriving DecidableEq, Repr

/-- The emotes of a text, with its line feeds turned into breaks. -/
def renderContent (emotes : EmoteTable) (content : ByteString) : ByteString :=
  Bytes.escape (fun byte => if byte = Bytes.lineFeed then some (utf8 "<br>") else none)
    (replaceEmotes emotes content)

def currentDate (location : Location) (timestamp : Instant) : Instant :=
  Calendar.midnight location (Calendar.dayNumber location timestamp)

def formatDateHeader (location : Location) (now date : Instant) : ByteString :=
  let today := Calendar.midnight location (Calendar.dayNumber location now)
  let yesterday := Calendar.addDays location (-1) today
  if date = today then utf8 "Today"
  else if date = yesterday then utf8 "Yesterday"
  else Calendar.formatWeekdayDate location date

/-- `partials/date-divider.html` -/
def dateDivider (dateHeader : ByteString) : ByteString :=
  utf8 "<div class=\"date-divider\"><div class=\"divider-line\"></div>" ++
    utf8 "<span class=\"divider-label\">" ++ htmlEscaper dateHeader ++
    utf8 "</span><div class=\"divider-line\"></div></div>"

/-- `avatar_svg` with these fields. -/
def svgOf (color textColor initial : ByteString) : ByteString :=
  utf8 "<svg width=\"32\" height=\"32\" viewBox=\"0 0 32 32\"><circle cx=\"16\" cy=\"16\"" ++
    utf8 " r=\"15.5\" fill=\"" ++ htmlEscaper color ++ utf8 "\" /><text x=\"16\" y=\"16\"" ++
    utf8 " text-anchor=\"middle\" dominant-baseline=\"central\" fill=\"" ++
    htmlEscaper textColor ++
    utf8 "\" font-size=\"18\" font-weight=\"bold\" font-family=\"system-ui, sans-serif\">" ++
    htmlEscaper initial ++ utf8 "</text></svg>"

def avatarSvg (data : MessageTemplateData) : ByteString :=
  svgOf data.color data.textColor data.initial

def messageAvatar (data : MessageTemplateData) : ByteString :=
  utf8 "<div class=\"avatar\">\n      " ++
    (if data.hasAvatar then
      utf8 "<img src=\"/api/user/avatar/" ++ htmlEscaper (urlNormalizer data.user) ++
        utf8 "\" width=\"32\" height=\"32\" alt=\"\">\n      "
    else avatarSvg data) ++
    utf8 "</div>"

def avatarColumn (data : MessageTemplateData) : ByteString :=
  utf8 "<div class=\"message-row" ++
    (if data.showAvatar then [] else utf8 " message-row--grouped") ++
    utf8 "\">\n  <div class=\"avatar-col\">\n    " ++
    (if data.showAvatar then messageAvatar data else []) ++
    utf8 "\n    " ++
    (if data.showTimestamp then
      utf8 "<span class=\"timestamp\">" ++ htmlEscaper data.timestamp ++ utf8 "</span>"
    else []) ++
    utf8 "\n  </div>\n"

def bubbleColumn (data : MessageTemplateData) : ByteString :=
  utf8 "  <div class=\"username-bubble-wrapper\">\n    " ++
    (if data.showUsername then
      utf8 "<div class=\"msg-username\"><h4>" ++ htmlEscaper data.user ++ utf8 "</h4></div>"
    else []) ++
    utf8 "\n    <div class=\"message-bubble\" data-id=\"" ++ Bytes.decimal data.id ++
    utf8 "\"><p>" ++ data.renderedContent ++ utf8 "</p></div>\n  </div>\n</div>"

/-- `partials/message.html` -/
def messageTemplate (data : MessageTemplateData) : ByteString :=
  (if data.dateHeader = [] then [] else dateDivider data.dateHeader) ++
    avatarColumn data ++ bubbleColumn data

/-- The fields of a message row. `none` where taking the initial panics. -/
def messageData (location : Location) (emotes : EmoteTable) (hasAvatar : Bool)
    (id : Nat) (user content : ByteString) (timestamp : Instant)
    (showAvatar showUsername showTimestamp : Bool) (dateHeader : ByteString) :
    Option MessageTemplateData :=
  (initialOf user).map fun initial => {
    id := id
    user := user
    content := content
    renderedContent := renderContent emotes content
    timestamp := Calendar.formatClock location timestamp
    color := avatarColor user
    textColor := avatarTextColor user
    initial := initial
    hasAvatar := hasAvatar
    showAvatar := showAvatar
    showUsername := showUsername
    showTimestamp := showTimestamp
    dateHeader := dateHeader }

def renderMessageHTMLTemplate (location : Location) (emotes : EmoteTable) (hasAvatar : Bool)
    (message : Client.Broadcast) (showAvatar showUsername showTimestamp : Bool)
    (dateHeader : ByteString) : Option ByteString :=
  (messageData location emotes hasAvatar message.id message.userID message.content
    message.timestamp showAvatar showUsername showTimestamp dateHeader).map messageTemplate

theorem renderMessageHTMLTemplate_eq_none {location : Location} {emotes : EmoteTable}
    {hasAvatar : Bool} {message : Client.Broadcast}
    {showAvatar showUsername showTimestamp : Bool} {dateHeader : ByteString} :
    renderMessageHTMLTemplate location emotes hasAvatar message showAvatar showUsername
      showTimestamp dateHeader = none ↔ message.userID = [] := by
  rw [renderMessageHTMLTemplate, Option.map_eq_none_iff, messageData, Option.map_eq_none_iff,
    initialOf, Option.map_eq_none_iff, Bytes.firstRune_eq_none]

def renderEvent (event : Client.Event) : ByteString :=
  utf8 "<span class=\"sse-event\">" ++ escapeString event.event ++ utf8 ": " ++
    escapeString event.userID ++ utf8 "</span>"

example : renderEvent ⟨utf8 "event", utf8 "join", [], utf8 "a&b"⟩ =
    utf8 "<span class=\"sse-event\">join: a&amp;b</span>" := by decide

/-! ## Carriage returns

None of the escapers touches a carriage return, so the template has one
exactly where it shows a text that has one.
-/

theorem mem_escapeString (text : ByteString) :
    Bytes.carriageReturn ∈ escapeString text ↔ Bytes.carriageReturn ∈ text := by
  refine Bytes.mem_escape_iff rfl ?_ text
  intro byte piece escaped
  unfold escapeStringTable at escaped
  split at escaped <;> cases escaped <;> decide

theorem mem_htmlEscaper (text : ByteString) :
    Bytes.carriageReturn ∈ htmlEscaper text ↔ Bytes.carriageReturn ∈ text := by
  refine Bytes.mem_escape_iff rfl ?_ text
  intro byte piece escaped
  unfold htmlReplacementTable at escaped
  split at escaped <;> cases escaped <;> decide

theorem mem_renderContent (emotes : EmoteTable) (content : ByteString) :
    Bytes.carriageReturn ∈ renderContent emotes content ↔
      Bytes.carriageReturn ∈ content := by
  rw [renderContent, Bytes.mem_escape_iff (by decide), mem_replaceEmotes]
  intro byte piece escaped
  split at escaped <;> cases escaped
  decide

theorem carriageReturn_not_mem_hexEncode (byte : UInt8) :
    Bytes.carriageReturn ∉ Bytes.hexEncode [byte] := by
  have each : ∀ code < 256, Bytes.carriageReturn ∉ Bytes.hexEncode [UInt8.ofNat code] := by
    decide +kernel
  simpa using each byte.toNat byte.toNat_lt

theorem carriageReturn_not_mem_urlNormalizer (text : ByteString) :
    Bytes.carriageReturn ∉ urlNormalizer text := by
  induction text with
  | nil => exact List.not_mem_nil
  | cons byte rest induction =>
      have percent : Bytes.carriageReturn ≠ 37 := by decide
      rw [urlNormalizer, List.mem_append, not_or]
      refine ⟨?_, induction⟩
      split
      case isTrue kept =>
        rw [List.mem_singleton]
        rintro rfl
        have unkept : isURLByte Bytes.carriageReturn = false := by decide
        simp [keepsURLByte, unkept, percent] at kept
      case isFalse =>
        simp [percent, carriageReturn_not_mem_hexEncode]

theorem carriageReturn_ne_digit :
    ∀ digit < 10, Bytes.carriageReturn ≠ 48 + UInt8.ofNat digit := by
  decide

theorem carriageReturn_not_mem_decimal (number : Nat) :
    Bytes.carriageReturn ∉ Bytes.decimal number := fun member =>
  Bytes.forall_decimal carriageReturn_ne_digit number _ member rfl

theorem carriageReturn_not_mem_twoDigits (number : Nat) :
    Bytes.carriageReturn ∉ Bytes.twoDigits number := fun member =>
  Bytes.forall_twoDigits carriageReturn_ne_digit number _ member rfl

theorem carriageReturn_not_mem_formatClock (location : Location) (instant : Instant) :
    Bytes.carriageReturn ∉ Calendar.formatClock location instant := by
  simp +decide [Calendar.formatClock, carriageReturn_not_mem_twoDigits]

theorem carriageReturn_not_mem_formatDateHeader (location : Location) (now date : Instant) :
    Bytes.carriageReturn ∉ formatDateHeader location now date := by
  have weekday : ∀ number, Bytes.carriageReturn ∉ Calendar.weekdayName number := by
    intro number
    unfold Calendar.weekdayName
    split <;> decide
  have month : ∀ number, Bytes.carriageReturn ∉ Calendar.monthName number := by
    intro number
    unfold Calendar.monthName
    split <;> decide
  unfold formatDateHeader
  dsimp only
  split
  · decide
  · split
    · decide
    · simp +decide [Calendar.formatWeekdayDate, weekday, month,
        carriageReturn_not_mem_decimal]

theorem carriageReturn_not_mem_avatarColor (userID : ByteString) :
    Bytes.carriageReturn ∉ avatarColor userID := by
  simp +decide [avatarColor, carriageReturn_not_mem_decimal]

theorem carriageReturn_not_mem_avatarTextColor (userID : ByteString) :
    Bytes.carriageReturn ∉ avatarTextColor userID := by
  unfold avatarTextColor
  split <;> decide

theorem mem_of_mem_initialOf {userID initial : ByteString}
    (first : initialOf userID = some initial) (member : Bytes.carriageReturn ∈ initial) :
    Bytes.carriageReturn ∈ userID := by
  obtain ⟨rune, found, rfl⟩ := Option.map_eq_some_iff.mp first
  have code := Unicode.mem_upperRune_of_small (by decide) member
  obtain ⟨byte, rest, rfl, rfl⟩ := Unicode.eq_head_of_decode_small found (code ▸ by decide)
  have same : byte = Bytes.carriageReturn := UInt8.toNat_inj.mp code
  exact same ▸ List.mem_cons_self

theorem carriageReturn_not_mem_dateDivider {dateHeader : ByteString}
    (free : Bytes.carriageReturn ∉ dateHeader) :
    Bytes.carriageReturn ∉ dateDivider dateHeader := by
  simp +decide [dateDivider, mem_htmlEscaper, free]

section MessageTemplate

variable {data : MessageTemplateData}

theorem mem_avatarSvg (color : Bytes.carriageReturn ∉ data.color)
    (textColor : Bytes.carriageReturn ∉ data.textColor) :
    Bytes.carriageReturn ∈ avatarSvg data ↔ Bytes.carriageReturn ∈ data.initial := by
  simp +decide [avatarSvg, svgOf, mem_htmlEscaper, color, textColor]

theorem mem_messageAvatar
    (svg : Bytes.carriageReturn ∈ avatarSvg data ↔ Bytes.carriageReturn ∈ data.initial) :
    Bytes.carriageReturn ∈ messageAvatar data ↔
      data.hasAvatar = false ∧ Bytes.carriageReturn ∈ data.initial := by
  simp +decide [messageAvatar, Bytes.mem_ite, svg, mem_htmlEscaper,
    carriageReturn_not_mem_urlNormalizer]

theorem mem_avatarColumn (timestamp : Bytes.carriageReturn ∉ data.timestamp) :
    Bytes.carriageReturn ∈ avatarColumn data ↔
      data.showAvatar = true ∧ Bytes.carriageReturn ∈ messageAvatar data := by
  simp +decide [avatarColumn, mem_htmlEscaper, timestamp]

theorem mem_bubbleColumn :
    Bytes.carriageReturn ∈ bubbleColumn data ↔
      (data.showUsername = true ∧ Bytes.carriageReturn ∈ data.user) ∨
        Bytes.carriageReturn ∈ data.renderedContent := by
  simp +decide [bubbleColumn, mem_htmlEscaper, carriageReturn_not_mem_decimal]

theorem mem_messageTemplate (dateHeader : Bytes.carriageReturn ∉ data.dateHeader)
    (timestamp : Bytes.carriageReturn ∉ data.timestamp)
    (color : Bytes.carriageReturn ∉ data.color)
    (textColor : Bytes.carriageReturn ∉ data.textColor) :
    Bytes.carriageReturn ∈ messageTemplate data ↔
      Bytes.carriageReturn ∈ data.renderedContent ∨
      (data.showUsername = true ∧ Bytes.carriageReturn ∈ data.user) ∨
      (data.showAvatar = true ∧ data.hasAvatar = false ∧
        Bytes.carriageReturn ∈ data.initial) := by
  have header : Bytes.carriageReturn ∉
      (if data.dateHeader = [] then [] else dateDivider data.dateHeader) := by
    simp [carriageReturn_not_mem_dateDivider dateHeader]
  rw [messageTemplate, List.mem_append, List.mem_append, mem_avatarColumn timestamp,
    mem_messageAvatar (mem_avatarSvg color textColor), mem_bubbleColumn]
  tauto

end MessageTemplate

theorem mem_renderMessageHTMLTemplate {location : Location} {emotes : EmoteTable}
    {hasAvatar showName showTimestamp : Bool} {message : Client.Broadcast}
    {dateHeader fragment : ByteString} (header : Bytes.carriageReturn ∉ dateHeader)
    (rendered : renderMessageHTMLTemplate location emotes hasAvatar message showName showName
      showTimestamp dateHeader = some fragment) :
    Bytes.carriageReturn ∈ fragment ↔
      Bytes.carriageReturn ∈ message.content ∨
        (showName = true ∧ Bytes.carriageReturn ∈ message.userID) := by
  obtain ⟨data, built, rfl⟩ := Option.map_eq_some_iff.mp rendered
  obtain ⟨initial, first, rfl⟩ := Option.map_eq_some_iff.mp built
  rw [mem_messageTemplate header (carriageReturn_not_mem_formatClock _ _)
    (carriageReturn_not_mem_avatarColor _) (carriageReturn_not_mem_avatarTextColor _)]
  simp only [mem_renderContent]
  have shown := mem_of_mem_initialOf first
  tauto

theorem mem_renderEvent {event : Client.Event}
    (name : Bytes.carriageReturn ∉ event.event) :
    Bytes.carriageReturn ∈ renderEvent event ↔ Bytes.carriageReturn ∈ event.userID := by
  simp +decide [renderEvent, mem_escapeString, name]

end Grunt.Server
