import Grunt.Foundation.Markup
import Grunt.Server.AvatarURLs
import Grunt.Server.EmoteFiles
import Grunt.Server.EmoteTokens
import Grunt.Server.Terminal

/-! # Tags

Whatever users write and call themselves, what the browser of a subscriber gets
has no tags and no attributes but those of the templates, properly nested.
-/

namespace Grunt.Server

open Foundation Markup

/-- The tags of the templates and of an emote, without what is in their quotes. -/
def rowTags : List ByteString :=
  [utf8 "div class=\"\"", utf8 "div class=\"\" data-id=\"\"", utf8 "/div", utf8 "span class=\"\"",
    utf8 "/span", utf8 "svg width=\"\" height=\"\" viewBox=\"\"", utf8 "/svg",
    utf8 "circle cx=\"\" cy=\"\" r=\"\" fill=\"\" /",
    utf8 "text x=\"\" y=\"\" text-anchor=\"\" dominant-baseline=\"\" fill=\"\"" ++
      utf8 " font-size=\"\" font-weight=\"\" font-family=\"\"",
    utf8 "/text", utf8 "img src=\"\" width=\"\" height=\"\" alt=\"\"",
    utf8 "img src=\"\" alt=\"\" class=\"\"", utf8 "h4", utf8 "/h4", utf8 "p", utf8 "/p", utf8 "br"]

/-! ## Values -/

theorem less_not_mem_escapeString (text : ByteString) : less ∉ escapeString text := by
  refine Bytes.not_mem_escape rfl ?_ text
  intro other piece escaped
  unfold escapeStringTable at escaped
  split at escaped <;> cases escaped <;> decide

theorem not_mem_of_unmarked {text : ByteString} (unmarked : ∀ byte ∈ text, isMarkup byte = false) :
    Address.quote ∉ text ∧ less ∉ text := by
  have quote : isMarkup Address.quote = true := by decide
  have other : isMarkup less = true := by decide
  constructor
  · intro member
    cases quote.symm.trans (unmarked _ member)
  · intro member
    cases other.symm.trans (unmarked _ member)

theorem unmarked_digit : ∀ digit < 10, isMarkup (48 + UInt8.ofNat digit) = false := by decide

theorem unmarked_decimal (number : Nat) :
    ∀ byte ∈ Bytes.decimal number, isMarkup byte = false :=
  Bytes.forall_decimal unmarked_digit number

theorem unmarked_twoDigits (number : Nat) :
    ∀ byte ∈ Bytes.twoDigits number, isMarkup byte = false :=
  Bytes.forall_twoDigits unmarked_digit number

theorem unmarked_formatDateClock (location : Location) (instant : Instant) :
    ∀ byte ∈ Calendar.formatDateClock location instant, isMarkup byte = false := by
  have dash : ∀ byte ∈ utf8 "-", isMarkup byte = false := Bytes.forall_of_all (by decide)
  have space : ∀ byte ∈ utf8 " ", isMarkup byte = false := Bytes.forall_of_all (by decide)
  have colon : ∀ byte ∈ utf8 ":", isMarkup byte = false := Bytes.forall_of_all (by decide)
  have year : ∀ year : Int, ∀ byte ∈ Calendar.formatYear year, isMarkup byte = false := by
    intro year
    have digits : ∀ byte ∈ (if year.natAbs < 10000 then
        Bytes.twoDigits (year.natAbs / 100) ++ Bytes.twoDigits year.natAbs
      else Bytes.decimal year.natAbs), isMarkup byte = false := by
      split
      · exact List.forall_mem_append.mpr ⟨unmarked_twoDigits _, unmarked_twoDigits _⟩
      · exact unmarked_decimal _
    unfold Calendar.formatYear
    dsimp only
    split
    · exact List.forall_mem_append.mpr ⟨dash, digits⟩
    · exact digits
  unfold Calendar.formatDateClock Calendar.formatDate Calendar.formatClock
  simp only [List.forall_mem_append]
  exact ⟨⟨⟨⟨⟨⟨year _, dash⟩, unmarked_twoDigits _⟩, dash⟩, unmarked_twoDigits _⟩, space⟩,
    ⟨unmarked_twoDigits _, colon⟩, unmarked_twoDigits _⟩

/-! ## Rows -/

theorem fits_imgTag (name : EmoteName) (extension : ImageExtension) :
    Fits rowTags (imgTag name.text extension) := by
  have closed := fileName_bytes name extension
  rw [List.forall_mem_append] at closed
  have named : Address.quote ∉ name.text := fun member => (closed.1 _ member).2.2.1 rfl
  have extended : Address.quote ∉ extension.text := fun member => (closed.2 _ member).2.2.1 rfl
  let src : State := ⟨[], .tag (some Address.quote) (utf8 "img src=\"")⟩
  let alt : State := ⟨[], .tag (some Address.quote) (utf8 "img src=\"\" alt=\"")⟩
  refine read_append alt ?_ rfl
  refine read_append alt ?_ (read_value named _ _)
  refine read_append src ?_ rfl
  refine read_append src ?_ (read_value extended _ _)
  exact read_append src rfl (read_value named _ _)

theorem fits_safePiece {piece : ByteString} (safe : SafePiece piece) : Fits rowTags piece := by
  rcases safe with ⟨name, extension, rfl⟩ | rfl | unmarked
  · exact fits_imgTag name extension
  · rfl
  · refine read_text (fun member => ?_) []
    have marked := unmarked less member
    revert marked
    decide

theorem fits_renderContent (emotes : EmoteTable) (content : ByteString) :
    Fits rowTags (renderContent emotes content) := by
  rcases madeOfSafe_renderContent emotes content with ⟨pieces, whole, safe⟩
  rw [whole, ← List.flatMap_id]
  exact read_flatMap fun piece member => fits_safePiece (safe piece member)

theorem fits_renderEvent (event : Client.Event) : Fits rowTags (renderEvent event) := by
  let inside : State := ⟨[utf8 "span"], .text⟩
  refine read_append inside ?_ rfl
  refine read_append inside ?_ (read_text (less_not_mem_escapeString _) _)
  refine read_append inside ?_ rfl
  exact read_append inside rfl (read_text (less_not_mem_escapeString _) _)

theorem fits_dateDivider (dateHeader : ByteString) : Fits rowTags (dateDivider dateHeader) := by
  let outside : State := ⟨[utf8 "div"], .text⟩
  let label : State := ⟨[utf8 "span", utf8 "div"], .text⟩
  refine read_append label ?_ rfl
  exact read_append label (read_append outside rfl rfl) (read_text (not_mem_htmlEscaper _).2 _)

theorem fits_svgOf (color textColor initial : ByteString) :
    Fits rowTags (svgOf color textColor initial) := by
  let circle : State :=
    ⟨[utf8 "svg"], .tag (some Address.quote) (utf8 "circle cx=\"\" cy=\"\" r=\"\" fill=\"")⟩
  let begun : State := ⟨[utf8 "svg"], .tag none (utf8 "text x=\"\" y=\"\"")⟩
  let fill : State := ⟨[utf8 "svg"], .tag (some Address.quote)
    (utf8 "text x=\"\" y=\"\" text-anchor=\"\" dominant-baseline=\"\" fill=\"")⟩
  let letter : State := ⟨[utf8 "text", utf8 "svg"], .text⟩
  refine read_append letter ?_ rfl
  refine read_append letter ?_ (read_text (not_mem_htmlEscaper _).2 _)
  refine read_append fill ?_ (by decide +kernel)
  refine read_append fill ?_ (read_value (not_mem_htmlEscaper _).1 _ _)
  refine read_append begun ?_ (by decide +kernel)
  refine read_append circle ?_ rfl
  exact read_append circle (by decide +kernel) (read_value (not_mem_htmlEscaper _).1 _ _)

theorem fits_messageAvatar (data : MessageTemplateData) : Fits rowTags (messageAvatar data) := by
  let avatar : State := ⟨[utf8 "div"], .text⟩
  let src : State := ⟨[utf8 "div"], .tag (some Address.quote) (utf8 "img src=\"")⟩
  refine read_append avatar (read_append avatar rfl ?_) rfl
  split
  · refine read_append src ?_ rfl
    exact read_append src rfl (read_value (not_mem_htmlEscaper _).1 _ _)
  · exact (fits_svgOf _ _ _).within [utf8 "div"]

theorem read_avatarColumn (data : MessageTemplateData) :
    read rowTags ⟨[], .text⟩ (avatarColumn data) = some ⟨[utf8 "div"], .text⟩ := by
  let row : State := ⟨[], .tag (some Address.quote) (utf8 "div class=\"")⟩
  let column : State := ⟨[utf8 "div", utf8 "div"], .text⟩
  refine read_append column ?_ rfl
  refine read_append column ?_ ?timestamp
  refine read_append column ?_ rfl
  refine read_append column ?_ ?avatar
  refine read_append row ?_ rfl
  refine read_append row rfl ?grouped
  case timestamp =>
    split
    · let clock : State := ⟨[utf8 "span", utf8 "div", utf8 "div"], .text⟩
      refine read_append clock ?_ rfl
      exact read_append clock rfl (read_text (not_mem_htmlEscaper _).2 _)
    · rfl
  case avatar =>
    split
    · exact (fits_messageAvatar data).within [utf8 "div", utf8 "div"]
    · rfl
  case grouped => split <;> rfl

theorem read_bubbleColumn (data : MessageTemplateData)
    (rendered : Fits rowTags data.renderedContent) :
    read rowTags ⟨[utf8 "div"], .text⟩ (bubbleColumn data) = some ⟨[], .text⟩ := by
  let column : State := ⟨[utf8 "div", utf8 "div"], .text⟩
  let bubble : State :=
    ⟨[utf8 "div", utf8 "div"], .tag (some Address.quote) (utf8 "div class=\"\" data-id=\"")⟩
  let paragraph : State := ⟨[utf8 "p", utf8 "div", utf8 "div", utf8 "div"], .text⟩
  refine read_append paragraph ?_ rfl
  refine read_append paragraph ?_ (rendered.within _)
  refine read_append bubble ?_ rfl
  refine read_append bubble ?_ (read_value (not_mem_of_unmarked (unmarked_decimal _)).1 _ _)
  refine read_append column ?_ rfl
  refine read_append column rfl ?_
  split
  · let username : State :=
      ⟨[utf8 "h4", utf8 "div", utf8 "div", utf8 "div"], .text⟩
    refine read_append username ?_ rfl
    exact read_append username rfl (read_text (not_mem_htmlEscaper _).2 _)
  · rfl

theorem fits_messageTemplate (data : MessageTemplateData)
    (rendered : Fits rowTags data.renderedContent) : Fits rowTags (messageTemplate data) := by
  refine read_append ⟨[utf8 "div"], .text⟩ ?_ (read_bubbleColumn data rendered)
  refine read_append ⟨[], .text⟩ ?_ (read_avatarColumn data)
  split
  · rfl
  · exact fits_dateDivider data.dateHeader

theorem fits_renderMessageHTMLTemplate {location : Location} {emotes : EmoteTable}
    {hasAvatar : Bool} {message : Client.Broadcast} {showAvatar showUsername showTimestamp : Bool}
    {dateHeader fragment : ByteString}
    (rendered : renderMessageHTMLTemplate location emotes hasAvatar message showAvatar
      showUsername showTimestamp dateHeader = some fragment) : Fits rowTags fragment := by
  rcases Option.map_eq_some_iff.mp rendered with ⟨data, made, rfl⟩
  rcases Option.map_eq_some_iff.mp made with ⟨initial, -, rfl⟩
  exact fits_messageTemplate _ (fits_renderContent emotes message.content)

/-! ## The hub -/

/-- What is being sent round. -/
def Phase.fragment : Phase → ByteString
  | .fanningOut _ fragment _ _ => fragment
  | _ => []

namespace Hub

/-- HTML subscribers are sent no tags but those of the templates. -/
structure Tidy (hub : Hub) : Prop where
  fragment : Fits rowTags hub.phase.fragment
  pumps : ∀ thread pump, hub.pumps thread = some pump → pump.subscriber.renderHTML = true →
    ∀ offer ∈ pump.offers, Fits rowTags offer.frame.bytes

theorem tidy_start : start.Tidy := ⟨rfl, nofun⟩

section Steps

variable {hub after : Hub}

theorem Tidy.send (tidy : hub.Tidy) {sender : Nat} {item : Item}
    (sent : hub.send sender item = some after) : after.Tidy := by
  unfold Hub.send at sent
  split at sent <;> cases sent
  exact ⟨tidy.fragment, tidy.pumps⟩

theorem Tidy.register (tidy : hub.Tidy) {thread : Nat} {subscriber : Subscriber}
    (registered : hub.register thread subscriber = some after) : after.Tidy := by
  have pumps := (effect_of_register registered).2
  unfold Hub.register at registered
  split at registered <;> cases registered
  refine ⟨rfl, fun other pump found html => ?_⟩
  rw [pumps] at found
  by_cases same : other = thread
  · rw [same, Function.update_self, Option.some.injEq] at found
    subst found
    exact nofun
  · rw [Function.update_of_ne same] at found
    exact tidy.pumps other pump found html

theorem fits_of_render {surroundings : Surroundings}
    (rendered : hub.render surroundings = some after) : Fits rowTags after.phase.fragment := by
  unfold render at rendered
  split at rendered
  case h_2 => cases rendered
  case h_1 item phase =>
    split at rendered
    case isFalse =>
      cases rendered
      rfl
    case isTrue =>
      split at rendered <;> cases rendered
      case h_1 event payload => exact fits_renderEvent event
      case h_2 message payload =>
        unfold renderMessage
        dsimp only
        split
        case h_1 fragment made => exact fits_renderMessageHTMLTemplate made
        case h_2 => rfl

theorem Tidy.fragment_of_happen (tidy : hub.Tidy) {surroundings : Surroundings}
    {event : HubEvent} (happened : hub.happen surroundings event = some after) :
    Fits rowTags after.phase.fragment := by
  cases event with
  | announce =>
      simp only [happen, announce] at happened
      split at happened
      case h_2 => cases happened
      case h_1 => split at happened <;> cases happened <;> rfl
  | unregister thread =>
      simp only [happen, unregister] at happened
      split at happened
      case h_2 => cases happened
      case h_1 =>
        split at happened <;> cases happened
        change Fits rowTags (hub.leaving _).fragment
        unfold leaving
        split <;> rfl
  | dequeue =>
      simp only [happen, dequeue] at happened
      split at happened <;> cases happened
      rfl
  | render => exact fits_of_render happened
  | offer entry =>
      simp only [happen, offer] at happened
      split at happened
      case h_2 => cases happened
      case h_1 item fragment shown todo pump phase found =>
        have fits : Fits rowTags fragment := by
          have sending := tidy.fragment
          rw [phase] at sending
          exact sending
        split at happened
        case isFalse => cases happened
        case isTrue => split at happened <;> cases happened <;> exact fits
  | finish =>
      simp only [happen, finish] at happened
      split at happened <;> cases happened
      rfl
  | stop =>
      cases happened
      exact tidy.fragment
  | exit =>
      simp only [happen, exit] at happened
      split at happened
      case h_2 => cases happened
      case h_1 =>
        split at happened <;> cases happened
        rfl
  | write | cancel | close =>
      obtain ⟨thread, old, new, -, -, -, rfl⟩ := pump_of_happen rfl happened
      exact tidy.fragment

theorem Tidy.happen (tidy : hub.Tidy) {surroundings : Surroundings} {event : HubEvent}
    (happened : hub.happen surroundings event = some after) : after.Tidy := by
  refine ⟨tidy.fragment_of_happen happened, fun thread pump found html => ?_⟩
  rcases (continues_of_happen happened).pumps thread pump found with ⟨earlier, before, moves⟩
  rw [moves.subscriber] at html
  have old := tidy.pumps thread earlier before html
  cases moves with
  | stays => exact old
  | written wrote => exact (Pump.own_of_write wrote).offers ▸ old
  | stopped stopped => exact stopped.offers ▸ old
  | offered phase member =>
      intro offer inside
      rcases List.mem_append.mp inside with earlierOffer | new
      · exact old offer earlierOffer
      · have sending := tidy.fragment
        rw [phase] at sending
        rw [List.mem_singleton.mp new]
        simp only [html, if_true]
        exact sending

end Steps

end Hub

section Runs

variable {platform : Platform} {tables : Storage.Tables} {clock : Instant}
variable {events : List ServerEvent} {config : ServerConfig}

theorem tidy_of_next {after : ServerConfig} (tidy : config.scene.world.hub.Tidy)
    {event : ServerEvent} (taken : next platform config event = some after) :
    after.scene.world.hub.Tidy := by
  cases event with
  | arrive thread request =>
      obtain ⟨-, rfl⟩ := Machine.next_arrive taken
      exact tidy
  | step thread choice =>
      obtain ⟨request, op, rest, result, scene, -, observed, rfl⟩ := Machine.next_step taken
      have performed := performed_of_observe observed
      change scene.world.hub.Tidy
      by_cases leaves : op.leavesHub = true
      · exact perform_hub leaves performed ▸ tidy
      · cases op with
        | broadcast item => exact tidy.send (perform_broadcast performed)
        | register subscriber => exact tidy.register (perform_register performed)
        | store | nanoid | random | putToken | checkToken | writePump | renderContent
          | readFile => exact absurd rfl leaves
  | environment happening =>
      obtain ⟨world, happened, rfl⟩ := Machine.next_environment taken
      change world.hub.Tidy
      rcases environment_hub happened with same | ⟨event, fault, -, changed⟩
      · exact same ▸ tidy
      · exact tidy.happen changed
  | restart =>
      rw [Machine.next_restart taken]
      exact Hub.tidy_start

/-- Whatever users write and call themselves, what an HTML subscriber is sent are
texts without tags and attributes but those of the templates, properly nested. -/
theorem frames_fit_of_run {allowed}
    (run : Run (next platform) allowed (start tables clock) events config) {thread : Nat}
    {pump : Pump} (found : config.scene.world.hub.pumps thread = some pump)
    (html : pump.subscriber.renderHTML = true) :
    ∀ frame ∈ pump.queued, Fits rowTags frame.bytes := by
  have tidy := run.invariant (fun config => config.scene.world.hub.Tidy)
    (fun _ _ _ held _ taken => tidy_of_next held taken) Hub.tidy_start
  intro frame queued
  rcases List.mem_map.mp queued with ⟨offer, kept, rfl⟩
  exact tidy.pumps thread pump found html offer (List.mem_of_mem_filter kept)

def sendScript : List ServerEvent :=
  let step := fun thread => Event.step thread Storage.Choice.plain
  let hub := fun event => Event.environment (Happening.hub event false)
  let clientID := utf8 "0123456789abcdef"
  let stream : Request := { Request.plain (utf8 "GET") (utf8 "/api/chat/stream") .empty with
    query := fun name => if name = utf8 "format" then [utf8 "html"] else [] }
  let message := Request.plain (utf8 "POST") (utf8 "/api/chat/message")
    (.ofForm [(utf8 "content", utf8 "<script>f()</script>")])
  let delivery := [hub .dequeue, hub .render, hub (.offer (clientID, 0)), hub .finish]
  [.arrive 0 (stream.bearing "gk_ann"), step 0, step 0, .step 0 ⟨false, clientID⟩, step 0,
    hub .announce, .arrive 1 (message.bearing "gk_ann"),
    step 1, step 1, step 1, step 1, step 1] ++
  delivery ++ delivery

/-- The script is shown as text. -/
theorem sendScript_fits : ∃ (config : ServerConfig) (pump : Pump),
    config.scene.world.hub.pumps 0 = some pump ∧
    (pump.queued.map fun frame => Bytes.contains (utf8 "&lt;script&gt;") frame.bytes) =
      [false, true] ∧
    ∀ frame ∈ pump.queued, Fits rowTags frame.bytes := by
  have executed : ((executeWhere (next .transparent) distinctClients (start annsTables 0)
      sendScript).bind fun config => (config.scene.world.hub.pumps 0).map fun pump =>
        (pump.subscriber.renderHTML,
          pump.queued.map fun frame => Bytes.contains (utf8 "&lt;script&gt;") frame.bytes)) =
      some (true, [false, true]) := by
    decide +kernel
  obtain ⟨config, reached, pumped⟩ := Option.bind_eq_some_iff.mp executed
  obtain ⟨pump, found, facts⟩ := Option.map_eq_some_iff.mp pumped
  simp only [Prod.mk.injEq] at facts
  obtain ⟨html, shown⟩ := facts
  exact ⟨config, pump, found, shown, frames_fit_of_run (run_of_executeWhere reached) found html⟩

end Runs

end Grunt.Server
