import Grunt.Server.Staging

/-! # What an HTML subscriber reads

A fragment goes out line by line, and an event-stream parser puts the lines
together again. Both agree on what a line is except for carriage returns: the
pump leaves them in a line, and the parser ends the line there. So the stream
is read as it was meant exactly when none of the texts shown has one.
-/

namespace Grunt.Server

open Foundation

def Shows (fragment : ByteString) (shown : List ByteString) : Prop :=
  Bytes.carriageReturn ∈ fragment ↔ ∃ text ∈ shown, Bytes.carriageReturn ∈ text

def Item.Named (item : Item) : Prop :=
  ∀ event, item.payload = .event event → Bytes.carriageReturn ∉ event.event

/-- The event that `Run` is about to put on the channel is of this kind. -/
def Phase.Named : Phase → Prop
  | .announcing event => Bytes.carriageReturn ∉ event.decoded.event
  | .rendering item => item.Named
  | _ => True

theorem named_ofEvent {event : Client.Event}
    (named : Bytes.carriageReturn ∉ event.decoded.event) : (Item.ofEvent event).Named := by
  intro other same
  cases same
  exact named

theorem named_of_message {item : Item} (isMessage : item.eventType = utf8 "message") :
    item.Named := by
  intro event same
  have other : utf8 "event" = utf8 "message" := by
    simpa only [Item.eventType, same] using isMessage
  exact absurd other (by decide)

/-! ## The fragments in the hub -/

namespace Hub

structure Honest (hub : Hub) : Prop where
  frames : ∀ thread pump, hub.pumps thread = some pump → pump.subscriber.renderHTML = true →
    ∀ offer ∈ pump.offers, Shows offer.frame.bytes offer.frame.shown
  /-- Only HTML subscribers make `Run` render. -/
  fragment : ∀ item fragment shown todo, hub.phase = .fanningOut item fragment shown todo →
    todo ⊆ hub.subscribers ∧ (hub.hasHTMLSubs = true → Shows fragment shown)
  items : ∀ item ∈ hub.broadcast, item.Named
  phase : hub.phase.Named
  piped : ∀ thread pump, hub.pumps thread = some pump → pump.Piped

theorem honest_start : start.Honest where
  frames := by simp [start]
  fragment := by simp [start]
  items := by simp [start]
  phase := trivial
  piped := by simp [start]

section Steps

variable {hub after : Hub}

theorem hasHTMLSubs_of_mem {entry : Entry} {pump : Pump} (member : entry ∈ hub.subscribers)
    (found : hub.pumps entry.2 = some pump) (html : pump.subscriber.renderHTML = true) :
    hub.hasHTMLSubs = true :=
  List.any_eq_true.mpr ⟨entry, member, by simp [found, html]⟩

theorem Continues.hasHTMLSubs (continues : hub.Continues after)
    (subscribers : after.subscribers = hub.subscribers) (html : after.hasHTMLSubs = true) :
    hub.hasHTMLSubs = true := by
  obtain ⟨entry, member, wants⟩ := List.any_eq_true.mp html
  rw [subscribers] at member
  cases found : after.pumps entry.2 with
  | none => simp [found] at wants
  | some pump =>
      obtain ⟨earlier, earlierFound, moves⟩ := continues.pumps entry.2 pump found
      rw [found, Option.any_some, moves.subscriber] at wants
      exact hasHTMLSubs_of_mem member earlierFound wants

theorem Honest.frames_of_continues (honest : hub.Honest) (continues : hub.Continues after) :
    ∀ thread pump, after.pumps thread = some pump → pump.subscriber.renderHTML = true →
      ∀ offer ∈ pump.offers, Shows offer.frame.bytes offer.frame.shown := by
  intro thread pump found html
  obtain ⟨earlier, earlierFound, moves⟩ := continues.pumps thread pump found
  rw [moves.subscriber] at html
  have old := honest.frames thread earlier earlierFound html
  cases moves with
  | stays => exact old
  | written wrote =>
      rw [(Pump.own_of_write wrote).offers]
      exact old
  | stopped stopped =>
      rw [stopped.offers]
      exact old
  | offered phase member =>
      intro offer inside
      rcases List.mem_append.mp inside with earlierOffer | new
      · exact old offer earlierOffer
      · rw [List.mem_singleton.mp new]
        obtain ⟨subset, shows⟩ := honest.fragment _ _ _ _ phase
        simp only [html, if_true]
        exact shows (hasHTMLSubs_of_mem (subset member) earlierFound html)

theorem Honest.continue (honest : hub.Honest) (continues : hub.Continues after)
    (fragment : ∀ item fragment shown todo, after.phase = .fanningOut item fragment shown todo →
      todo ⊆ after.subscribers ∧ (after.hasHTMLSubs = true → Shows fragment shown))
    (items : ∀ item ∈ after.broadcast, item.Named) (phase : after.phase.Named) :
    after.Honest where
  frames := honest.frames_of_continues continues
  fragment := fragment
  items := items
  phase := phase
  piped := fun thread pump found => by
    obtain ⟨earlier, earlierFound, moves⟩ := continues.pumps thread pump found
    exact moves.piped (honest.piped thread earlier earlierFound)

theorem Honest.send (honest : hub.Honest) {sender : Nat} {item : Item} (named : item.Named)
    (sent : hub.send sender item = some after) : after.Honest := by
  unfold Hub.send at sent
  split at sent <;> cases sent
  refine ⟨honest.frames, honest.fragment, fun other member => ?_, honest.phase, honest.piped⟩
  rcases List.mem_append.mp member with old | new
  · exact honest.items other old
  · exact List.mem_singleton.mp new ▸ named

theorem Honest.announce (honest : hub.Honest) (announced : hub.announce = some after) :
    after.Honest := by
  have continues := continues_of_announce announced
  unfold Hub.announce at announced
  split at announced
  case h_2 => cases announced
  case h_1 event phase =>
    have named := honest.phase
    rw [phase] at named
    dsimp only at announced
    split at announced <;> cases announced
    · refine honest.continue continues (by simp [accept]) (fun item member => ?_) trivial
      rcases List.mem_append.mp member with old | new
      · exact honest.items item old
      · exact List.mem_singleton.mp new ▸ named_ofEvent named
    · exact honest.continue continues (by simp) honest.items trivial

theorem named_leaving (subscriber : Subscriber) : (hub.leaving subscriber).Named := by
  unfold leaving
  split
  · have name : Bytes.carriageReturn ∉ Bytes.toValidUTF8 (utf8 "leave") := by decide
    exact name
  · trivial

theorem Honest.unregister (honest : hub.Honest) {thread : Nat}
    (unregistered : hub.unregister thread = some after) : after.Honest := by
  have continues := continues_of_unregister unregistered
  unfold Hub.unregister at unregistered
  split at unregistered
  case h_2 => cases unregistered
  case h_1 pump phase found =>
    split at unregistered <;> cases unregistered
    refine honest.continue continues (fun item fragment shown todo fanningOut => ?_)
      honest.items (named_leaving _)
    have leaves : hub.leaving pump.subscriber = .fanningOut item fragment shown todo :=
      fanningOut
    have idle : (hub.leaving pump.subscriber).idle = true := idle_leaving
    rw [leaves] at idle
    cases idle

theorem Honest.dequeue (honest : hub.Honest) (dequeued : hub.dequeue = some after) :
    after.Honest := by
  have continues := continues_of_dequeue dequeued
  unfold Hub.dequeue at dequeued
  split at dequeued
  case h_2 => cases dequeued
  case h_1 item rest phase waiting =>
    cases dequeued
    have items := honest.items
    rw [waiting] at items
    exact honest.continue continues (by simp)
      (fun other member => items other (List.mem_cons_of_mem _ member))
      (items item List.mem_cons_self)

theorem Honest.fanOut (honest : hub.Honest) {item : Item} {fragment : ByteString}
    {shown : List ByteString} (shows : hub.hasHTMLSubs = true → Shows fragment shown) :
    (hub.fanOut item fragment shown).Honest := by
  refine honest.continue (.of_pumps_eq rfl rfl) ?_ honest.items trivial
  intro _ _ _ _ fanningOut
  cases fanningOut
  exact ⟨fun _ => id, shows⟩

theorem Honest.renderMessage (honest : hub.Honest) (surroundings : Surroundings) (item : Item)
    (message : Client.Broadcast) : (hub.renderMessage surroundings item message).Honest := by
  unfold Hub.renderMessage
  dsimp only
  split
  case h_2 => exact honest.continue (.of_pumps_eq rfl rfl) (by simp) honest.items trivial
  case h_1 fragment rendered =>
    have rest : Hub.Honest { hub with
        lastMsgUser := message.userID
        lastMsgTime := message.timestamp
        lastMsgDate := currentDate surroundings.location message.timestamp } :=
      ⟨honest.frames, honest.fragment, honest.items, honest.phase, honest.piped⟩
    refine rest.fanOut fun _ => ?_
    have header : Bytes.carriageReturn ∉
        (if hub.lastMsgDate = currentDate surroundings.location message.timestamp then []
        else formatDateHeader surroundings.location surroundings.now message.timestamp) := by
      simp [carriageReturn_not_mem_formatDateHeader]
    have shows := mem_renderMessageHTMLTemplate header rendered
    unfold Shows
    rw [shows]
    by_cases grouped : hub.lastMsgUser = message.userID <;> simp [grouped]

theorem Honest.render (honest : hub.Honest) {surroundings : Surroundings}
    (rendered : hub.render surroundings = some after) : after.Honest := by
  unfold Hub.render at rendered
  split at rendered
  case h_2 => cases rendered
  case h_1 item rendering =>
    have named := honest.phase
    rw [rendering] at named
    split at rendered
    · split at rendered <;> cases rendered
      case h_1 event payload =>
        refine honest.fanOut fun _ => ?_
        unfold Shows
        rw [mem_renderEvent (named event payload)]
        simp
      case h_2 message payload => exact honest.renderMessage surroundings item message
    · next nobody =>
      cases rendered
      exact honest.fanOut fun somebody => absurd somebody nobody

theorem Honest.offer (honest : hub.Honest) {entry : Entry}
    (offered : hub.offer entry = some after) : after.Honest := by
  have continues := continues_of_offer offered
  unfold Hub.offer at offered
  split at offered
  case h_2 => cases offered
  case h_1 item fragment shown todo pump phase found =>
    split at offered
    case isFalse => cases offered
    case isTrue member =>
      obtain ⟨subset, shows⟩ := honest.fragment item fragment shown todo phase
      have less : todo.erase entry ⊆ hub.subscribers := fun _ inside =>
        subset (List.mem_of_mem_erase inside)
      dsimp only at offered
      split at offered <;> cases offered
      all_goals
        refine honest.continue continues ?_ honest.items trivial
        intro _ _ _ _ fanningOut
        cases fanningOut
        exact ⟨less, fun html => shows (continues.hasHTMLSubs rfl html)⟩

theorem Honest.register (honest : hub.Honest) {thread : Nat} {subscriber : Subscriber}
    (registered : hub.register thread subscriber = some after) : after.Honest := by
  have effect := effect_of_register registered
  have pumps : ∀ other pump, after.pumps other = some pump →
      pump = Pump.start subscriber hub.taken.length ∨ hub.pumps other = some pump := by
    intro other pump present
    rw [effect.2] at present
    by_cases same : other = thread
    · subst other
      rw [Function.update_self, Option.some.injEq] at present
      exact .inl present.symm
    · rw [Function.update_of_ne same] at present
      exact .inr present
  unfold Hub.register at registered
  split at registered
  case h_2 => cases registered
  case h_1 phase free =>
    cases registered
    have name : Bytes.carriageReturn ∉ Bytes.toValidUTF8 (utf8 "join") := by decide
    refine ⟨fun other pump present html => ?_, by simp, honest.items, name, ?_⟩
    · rcases pumps other pump present with rfl | old
      · simp [Pump.start]
      · exact honest.frames other pump old html
    · intro other pump present
      rcases pumps other pump present with rfl | old
      · exact Pump.piped_start subscriber _
      · exact honest.piped other pump old

theorem Honest.setPump (honest : hub.Honest) {thread : Nat} {old new : Pump}
    (found : hub.pumps thread = some old) (moves : old.Moves hub thread new) :
    (hub.setPump thread new).Honest := by
  have continues : hub.Continues (hub.setPump thread new) := .of_setPump found moves rfl rfl
  refine honest.continue continues (fun item fragment shown todo phase => ?_) honest.items
    honest.phase
  obtain ⟨subset, shows⟩ := honest.fragment item fragment shown todo phase
  exact ⟨subset, fun html => shows (continues.hasHTMLSubs rfl html)⟩

theorem Honest.happen (honest : hub.Honest) {surroundings : Surroundings}
    {event : HubEvent} (happened : hub.happen surroundings event = some after) :
    after.Honest := by
  cases event with
  | announce => exact honest.announce happened
  | unregister thread => exact honest.unregister happened
  | dequeue => exact honest.dequeue happened
  | render => exact honest.render happened
  | offer entry => exact honest.offer happened
  | finish =>
      have continues := continues_of_happen happened
      simp only [Hub.happen, finish] at happened
      split at happened <;> cases happened
      exact honest.continue continues (by simp) honest.items trivial
  | stop =>
      cases happened
      exact ⟨honest.frames, honest.fragment, honest.items, honest.phase, honest.piped⟩
  | exit =>
      have continues := continues_of_happen happened
      simp only [Hub.happen, exit] at happened
      split at happened
      case h_2 => cases happened
      case h_1 =>
        split at happened <;> cases happened
        exact honest.continue continues (by simp) honest.items trivial
  | write | cancel | close =>
      obtain ⟨thread, old, new, found, moves, -, rfl⟩ := pump_of_happen rfl happened
      exact honest.setPump found moves

end Steps

end Hub

/-! ## The stream -/

namespace Pump

/-- A parser reads one `message` event for every frame, with the fragment as
its data. -/
def Lossless (pump : Pump) : Prop :=
  EventStream.parse pump.stream =
    pump.written.map fun frame => ⟨utf8 "message", frame.bytes, []⟩

def Plain (pump : Pump) : Prop :=
  ∀ frame ∈ pump.written, ∀ text ∈ frame.shown, Bytes.carriageReturn ∉ text

def Unbroken (pump : Pump) : Prop :=
  pump.stream = pump.written.flatMap (text pump.subscriber)

instance (pump : Pump) : Decidable pump.Plain :=
  inferInstanceAs (Decidable (∀ frame ∈ pump.written, ∀ text ∈ frame.shown,
    Bytes.carriageReturn ∉ text))

instance (pump : Pump) : Decidable pump.Unbroken :=
  inferInstanceAs (Decidable (_ = _))

theorem Piped.unbroken {pump : Pump} (piped : pump.Piped) (pumping : pump.phase = .pumping) :
    pump.Unbroken := by
  obtain ⟨lost, cut, broken⟩ := piped
  have whole : cut = [] := by
    rcases broken.failed with ⟨-, whole⟩ | ⟨stopped, -⟩
    · exact whole
    · exact absurd pumping stopped
  rw [Unbroken, broken.stream, whole, List.append_nil]

theorem mem_offers_of_written {pump : Pump} (piped : pump.Piped) {frame : Frame}
    (member : frame ∈ pump.written) : ∃ offer ∈ pump.offers, offer.frame = frame := by
  obtain ⟨lost, cut, broken⟩ := piped
  have queued : frame ∈ pump.queued := by
    rw [broken.queued, List.append_assoc]
    exact List.mem_append_left _ member
  obtain ⟨offer, inside, same⟩ := List.mem_map.mp queued
  exact ⟨offer, (List.mem_filter.mp inside).1, same⟩

theorem lossless_iff_bytes {pump : Pump} (html : pump.subscriber.renderHTML = true)
    (unbroken : pump.Unbroken) :
    pump.Lossless ↔ ∀ frame ∈ pump.written, Bytes.carriageReturn ∉ frame.bytes := by
  have texts : pump.stream = (pump.written.map Frame.bytes).flatMap fun data =>
      EventStream.write (utf8 "message") data := by
    rw [unbroken, List.flatMap_map]
    congr 1
    funext frame
    simp [text, html]
  have events : (pump.written.map fun frame =>
      (⟨utf8 "message", frame.bytes, []⟩ : EventStream.Event)) =
      (pump.written.map Frame.bytes).map fun data => ⟨utf8 "message", data, []⟩ := by
    rw [List.map_map]
    rfl
  rw [Lossless, texts, events,
    EventStream.parse_flatMap_write_iff (by decide) (by decide), List.forall_mem_map]

end Pump

theorem honest_of_run {platform : Platform} {allowed} {tables : Storage.Tables}
    {clock : Instant} {events : List ServerEvent} {config : ServerConfig}
    (run : Run (next platform) allowed (start tables clock) events config) :
    config.scene.world.hub.Honest :=
  hub_of_run Hub.Honest Hub.honest_start
    (fun _ _ _ _ honest isMessage sent => honest.send (named_of_message isMessage) sent)
    (fun _ _ _ _ honest registered => honest.register registered)
    (fun _ _ _ _ honest happened => honest.happen happened) run

/-- In every run, every HTML stream is read as it was meant. -/
def StreamsLossless (platform : Platform) : Prop :=
  ∀ tables clock events config, AnyRun (next platform) (start tables clock) events config →
    ∀ thread pump, config.scene.world.hub.pumps thread = some pump →
      pump.subscriber.renderHTML = true → pump.Unbroken → pump.Lossless

/-- An HTML stream is read as it was meant exactly when no text in it has a
carriage return. -/
theorem lossless_iff_plain {platform : Platform} {tables : Storage.Tables} {clock : Instant}
    {events : List ServerEvent} {config : ServerConfig}
    (run : AnyRun (next platform) (start tables clock) events config) {thread : Nat}
    {pump : Pump} (found : config.scene.world.hub.pumps thread = some pump)
    (html : pump.subscriber.renderHTML = true) (unbroken : pump.Unbroken) :
    pump.Lossless ↔ pump.Plain := by
  have honest := honest_of_run run
  have shows : ∀ frame ∈ pump.written, Shows frame.bytes frame.shown := by
    intro frame member
    obtain ⟨offer, inside, rfl⟩ :=
      Pump.mem_offers_of_written (honest.piped thread pump found) member
    exact honest.frames thread pump found html offer inside
  rw [Pump.lossless_iff_bytes html unbroken]
  constructor
  · intro clean frame member text inside carriageReturn
    exact clean frame member ((shows frame member).mpr ⟨text, inside, carriageReturn⟩)
  · intro plain frame member carriageReturn
    obtain ⟨text, inside, present⟩ := (shows frame member).mp carriageReturn
    exact plain frame member text inside present

def htmlStream (content : String) : List ServerEvent :=
  let step := fun thread => Event.step thread Storage.Choice.plain
  let hub := fun event => Event.environment (Happening.hub event false)
  let clientID := utf8 "0123456789abcdef"
  let stream := { Request.plain (utf8 "GET") (utf8 "/api/chat/stream") .empty with
    query := fun name => if name = utf8 "format" then [utf8 "html"] else [] }
  let message := Request.plain (utf8 "POST") (utf8 "/api/chat/message")
    (.ofForm [(utf8 "content", utf8 content)])
  let delivery := [hub .dequeue, hub .render, hub (.offer (clientID, 0)), hub .finish]
  [.arrive 0 (stream.bearing "gk_ann"), step 0, step 0, .step 0 ⟨false, clientID⟩, step 0,
    hub .announce, .arrive 1 (message.bearing "gk_ann"),
    step 1, step 1, step 1, step 1, step 1] ++
  delivery ++ delivery ++ [hub (.write 0 none), hub (.write 0 none)]

/-- A line feed in the text is no harm. -/
theorem htmlStream_lossless : ∃ (config : ServerConfig) (pump : Pump),
    config.scene.world.hub.pumps 0 = some pump ∧ pump.written.length = 2 ∧ pump.Lossless := by
  have executed : (execute (next .transparent) (start annsTables 0)
      (htmlStream "one\ntwo")).map (fun config => (config.scene.world.hub.pumps 0).map
        fun pump => (pump.written.length, pump.subscriber.renderHTML, decide pump.Unbroken,
          decide pump.Plain)) = some (some (2, true, true, true)) := by decide +kernel
  obtain ⟨config, reached, answer⟩ := Option.map_eq_some_iff.mp executed
  obtain ⟨pump, found, facts⟩ := Option.map_eq_some_iff.mp answer
  simp only [Prod.mk.injEq, decide_eq_true_eq] at facts
  obtain ⟨written, html, unbroken, plain⟩ := facts
  exact ⟨config, pump, found, written,
    (lossless_iff_plain (run_of_execute reached) found html unbroken).mpr plain⟩

/-- A carriage return ends the fragment early and lets the text go on as an
event of its own. -/
theorem not_streamsLossless : ¬ StreamsLossless .transparent := by
  intro lossless
  have executed : (execute (next .transparent) (start annsTables 0)
      (htmlStream "hi\r\rdata: forged\r\r")).map (fun config =>
        (config.scene.world.hub.pumps 0).map fun pump => (pump.written.length,
          pump.subscriber.renderHTML, decide pump.Unbroken,
          (EventStream.parse pump.stream)[2]?)) =
      some (some (2, true, true, some ⟨utf8 "message", utf8 "forged", []⟩)) := by
    decide +kernel
  obtain ⟨config, reached, answer⟩ := Option.map_eq_some_iff.mp executed
  obtain ⟨pump, found, facts⟩ := Option.map_eq_some_iff.mp answer
  simp only [Prod.mk.injEq, decide_eq_true_eq] at facts
  obtain ⟨written, html, unbroken, forged⟩ := facts
  have parsed : EventStream.parse pump.stream = pump.written.map fun frame =>
      ⟨utf8 "message", frame.bytes, []⟩ :=
    lossless annsTables 0 _ config (run_of_execute reached) 0 pump found html unbroken
  rw [parsed, List.getElem?_eq_none (by simp [written])] at forged
  cases forged

end Grunt.Server
