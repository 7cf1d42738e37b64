import Grunt.Client.Printing
import Grunt.Server.Lifecycle
import Grunt.Server.Listening
import Grunt.Server.Posting

/-! # From the channel to the terminal

The bytes on the broadcast channel are taken apart three times: by `Run`, by
the write pump and by a listening client. In a run of the server none of them
meets an error, and each gets what the item stands for.
-/

namespace Grunt.Server

open Foundation

/-! ## Announcements -/

def Announces (Known : Nat → Subscriber → Prop) (event : Client.Event) : Prop :=
  ∃ thread subscriber, Known thread subscriber ∧
    (event = subscriber.join ∨ event = subscriber.leave)

namespace Hub

section Steps

variable {hub after : Hub}

theorem accepted_of_happen {surroundings : Surroundings} {event : HubEvent}
    (happened : hub.happen surroundings event = some after) :
    after.accepted = hub.accepted ∨
      ∃ announced ∈ hub.pending, after.accepted = hub.accepted ++ [(none, .ofEvent announced)] := by
  cases event with
  | announce =>
      simp only [happen, announce] at happened
      split at happened
      case h_2 => cases happened
      case h_1 event phase =>
        split at happened <;> cases happened
        · exact .inr ⟨event, by simp [pending, phase], rfl⟩
        · exact .inl rfl
  | unregister thread =>
      simp only [happen, unregister] at happened
      split at happened
      · split at happened <;> cases happened
        exact .inl rfl
      · cases happened
  | dequeue =>
      simp only [happen, dequeue] at happened
      split at happened <;> cases happened
      exact .inl rfl
  | render =>
      simp only [happen, render] at happened
      split at happened
      case h_2 => cases happened
      case h_1 item phase =>
        split at happened
        · split at happened <;> cases happened
          · exact .inl rfl
          · unfold renderMessage
            dsimp only
            split <;> exact .inl rfl
        · cases happened
          exact .inl rfl
  | offer entry =>
      simp only [happen, offer] at happened
      split at happened
      case h_2 => cases happened
      case h_1 =>
        split at happened
        · split at happened <;> cases happened <;> exact .inl rfl
        · cases happened
  | finish =>
      simp only [happen, finish] at happened
      split at happened <;> cases happened
      exact .inl rfl
  | stop =>
      cases happened
      exact .inl rfl
  | exit =>
      simp only [happen, exit] at happened
      split at happened
      · split at happened <;> cases happened
        exact .inl rfl
      · cases happened
  | write | cancel | close =>
      obtain ⟨thread, old, new, -, -, -, rfl⟩ := pump_of_happen rfl happened
      exact .inl rfl

variable {Known Later : Nat → Subscriber → Prop}

/-- Who has a pump is known. What is due is the join or the leave of somebody
who is known, and so is what was put on the channel besides messages. -/
structure Proper (Known : Nat → Subscriber → Prop) (hub : Hub) : Prop where
  pumps : ∀ thread pump, hub.pumps thread = some pump → Known thread pump.subscriber
  pending : ∀ event ∈ hub.pending, Announces Known event
  accepted : ∀ entry ∈ hub.accepted, ∀ event, entry.2 = .ofEvent event → ∃ announced,
    Announces Known announced ∧ entry.2 = .ofEvent announced

theorem proper_start : start.Proper Known where
  pumps := nofun
  pending := nofun
  accepted := nofun

theorem Proper.mono (proper : hub.Proper Known)
    (grows : ∀ thread subscriber, Known thread subscriber → Later thread subscriber) :
    hub.Proper Later := by
  have announces : ∀ event, Announces Known event → Announces Later event := by
    rintro event ⟨thread, subscriber, known, announces⟩
    exact ⟨thread, subscriber, grows thread subscriber known, announces⟩
  refine ⟨fun thread pump found => grows _ _ (proper.pumps thread pump found),
    fun event due => announces event (proper.pending event due), fun entry member event same => ?_⟩
  obtain ⟨announced, known, item⟩ := proper.accepted entry member event same
  exact ⟨announced, announces announced known, item⟩

theorem Proper.send (proper : hub.Proper Known) {sender : Nat} {item : Item}
    (message : item.eventType = utf8 "message")
    (sent : hub.send sender item = some after) : after.Proper Known := by
  have accepted := accepted_of_send sent
  unfold Hub.send at sent
  split at sent <;> cases sent
  refine ⟨proper.pumps, proper.pending, fun entry member event same => ?_⟩
  rw [accepted] at member
  rcases List.mem_append.mp member with old | new
  · exact proper.accepted entry old event same
  · rw [List.mem_singleton.mp new] at same
    have announced : item = .ofEvent event := same
    rw [announced] at message
    exact absurd message (by decide : utf8 "event" ≠ utf8 "message")

theorem Proper.register (proper : hub.Proper Known) {thread : Nat} {subscriber : Subscriber}
    (known : Known thread subscriber)
    (registered : hub.register thread subscriber = some after) : after.Proper Known := by
  have pumps := (effect_of_register registered).2
  unfold Hub.register at registered
  split at registered <;> cases registered
  refine ⟨fun other pump found => ?_, fun event due => ?_, proper.accepted⟩
  · rw [pumps] at found
    by_cases same : other = thread
    · subst same
      rw [Function.update_self, Option.some.injEq] at found
      exact found ▸ known
    · rw [Function.update_of_ne same] at found
      exact proper.pumps other pump found
  · rw [List.mem_singleton.mp due]
    exact ⟨thread, subscriber, known, .inl rfl⟩

theorem eq_leave_of_leaving {subscriber : Subscriber} {event : Client.Event}
    (leaves : hub.leaving subscriber = .announcing event) : event = subscriber.leave := by
  unfold leaving at leaves
  split at leaves <;> cases leaves
  rfl

theorem Proper.happen (proper : hub.Proper Known) {surroundings : Surroundings}
    {event : HubEvent} (happened : hub.happen surroundings event = some after) :
    after.Proper Known := by
  constructor
  · intro thread pump found
    obtain ⟨earlier, before, moves⟩ := (continues_of_happen happened).pumps thread pump found
    exact moves.subscriber ▸ proper.pumps thread earlier before
  · intro announced due
    cases turns_of_happen happened with
    | announces _ _ nothing =>
        rw [nothing] at due
        cases due
    | goesOn _ _ _ same =>
        rw [same] at due
        exact proper.pending announced due
    | closes _ _ _ same =>
        rw [same] at due
        exact proper.pending announced due
    | @unregisters thread pump _ _ found _ _ phase =>
        rw [Hub.pending, phase] at due
        split at due
        · next leaves =>
          rw [List.mem_singleton.mp due]
          exact ⟨thread, pump.subscriber, proper.pumps thread pump found,
            .inr (eq_leave_of_leaving leaves)⟩
        · cases due
  · intro entry member announced same
    rcases accepted_of_happen happened with unchanged | ⟨new, due, more⟩
    · rw [unchanged] at member
      exact proper.accepted entry member announced same
    · rw [more] at member
      rcases List.mem_append.mp member with old | now
      · exact proper.accepted entry old announced same
      · rw [List.mem_singleton.mp now]
        exact ⟨new, proper.pending new due, rfl⟩

end Steps

end Hub

/-! ## What is on the channel -/

def Subscribed (history : List (Performed Op Op.Result)) (thread : Nat)
    (subscriber : Subscriber) : Prop :=
  ⟨thread, .register subscriber, ()⟩ ∈ history

/-- An item is made of an announcement, or of a row that was saved. -/
def Item.Genuine (location : Location) (scene : ServerScene) (item : Item) : Prop :=
  (∃ event, Announces (Subscribed scene.history) event ∧ item = .ofEvent event) ∨
    ∃ entry ∈ scene.world.tables.messages.rows, 0 < entry.1 ∧ item.Carries location entry

section Runs

variable {platform : Platform} {tables : Storage.Tables} {clock : Instant}
variable {events : List ServerEvent} {config : ServerConfig}

theorem proper_of_next {after : ServerConfig}
    (sends : Machine.Bounded (fun (_ : Request) (op : Op) =>
      ∀ item, op = .broadcast item → item.eventType = utf8 "message") config)
    (proper : config.scene.world.hub.Proper (Subscribed config.scene.history))
    {event : ServerEvent} (taken : next platform config event = some after) :
    after.scene.world.hub.Proper (Subscribed after.scene.history) := by
  cases event with
  | arrive thread request =>
      obtain ⟨-, rfl⟩ := Machine.next_arrive taken
      exact proper
  | step thread choice =>
      obtain ⟨request, op, rest, result, scene, running, observed, rfl⟩ := Machine.next_step taken
      have performed := performed_of_observe observed
      have history := (Machine.observe_eq_some.mp observed).2
      have grown : config.scene.world.hub.Proper (Subscribed scene.history) :=
        proper.mono fun thread subscriber registered => by
          rw [Subscribed, history]
          exact List.mem_append_left _ registered
      change scene.world.hub.Proper (Subscribed scene.history)
      by_cases leaves : op.leavesHub = true
      · exact perform_hub leaves performed ▸ grown
      · cases op with
        | broadcast item =>
            have message := ((sends thread).2 request _ running).1 item rfl
            exact grown.send message (perform_broadcast performed)
        | register subscriber =>
            refine grown.register ?_ (perform_register performed)
            rw [Subscribed, history]
            exact List.mem_append_right _ (List.mem_singleton_self _)
        | store | nanoid | random | putToken | checkToken | writePump | renderContent
          | readFile => exact absurd rfl leaves
  | environment happening =>
      obtain ⟨world, happened, rfl⟩ := Machine.next_environment taken
      rcases environment_hub happened with same | ⟨event, fault, -, changed⟩
      · change world.hub.Proper _
        rw [same]
        exact proper
      · exact proper.happen changed
  | restart =>
      rw [Machine.next_restart taken]
      exact Hub.proper_start

theorem proper_of_run {allowed}
    (run : Run (next platform) allowed (start tables clock) events config) :
    config.scene.world.hub.Proper (Subscribed config.scene.history) := by
  have both := run.invariant (fun config => Machine.Bounded (fun (_ : Request) (op : Op) =>
      ∀ item, op = .broadcast item → item.eventType = utf8 "message") config ∧
      config.scene.world.hub.Proper (Subscribed config.scene.history))
    (fun _ _ _ held _ taken => ⟨held.1.next (Machine.bounded_tracking sendsOnly_messages) taken,
      proper_of_next held.1 held.2 taken⟩) ⟨Machine.tracked_start, Hub.proper_start⟩
  exact both.2

theorem genuine_of_run {allowed}
    (run : Run (next platform) allowed (start tables clock) events config) :
    ∀ entry ∈ config.scene.world.hub.accepted,
      entry.2.Genuine platform.location config.scene := by
  intro entry member
  obtain ⟨rows, positive⟩ := messageRows_of_run run
  rcases carriesRows_of_run run entry member with ⟨event, same⟩ | ⟨row, saved, carried⟩
  · exact .inl ((proper_of_run run).accepted entry member event same)
  · refine .inr ⟨row, ?_, positive row saved, carried⟩
    change row ∈ config.scene.world.messageRows
    rw [rows]
    exact List.mem_append_right _ saved

end Runs

/-! ## Taking items apart -/

/-- What is read from the bytes of an item. -/
inductive Reading
  | message (message : Client.Received)
  | event (event : Client.Event)
deriving DecidableEq, Repr

/-- The offset of the zone at the time of every saved message can be written. -/
def WritesTimes (location : Location) (scene : ServerScene) : Prop :=
  ∀ entry ∈ scene.world.tables.messages.rows,
    Calendar.WritesOffset location (rowMessage entry).timestamp

theorem writesTimes_utc (scene : ServerScene) : WritesTimes .utc scene :=
  fun _ _ => Calendar.writesOffset_utc _

/-- What an item stands for, with the zone in which its time was written. -/
def Payload.reading (location : Location) : Payload → Reading
  | .message sent =>
      .message (.ofBroadcast sent (location.offset (Calendar.unixSeconds sent.timestamp)))
  | .event announced => .event announced

/-- What `grunt recv` prints. -/
def Reading.line (verbose : Bool) : Reading → ByteString
  | .message received => received.line
  | .event announced => if verbose then announced.line else []

section Items

variable {location : Location} {scene : ServerScene} {item : Item}

theorem Announces.facts {Known : Nat → Subscriber → Prop} {event : Client.Event}
    (announces : Announces Known event) :
    event.type = utf8 "event" ∧ event.decoded.event ≠ [] := by
  have join : Bytes.toValidUTF8 (utf8 "join") ≠ [] := by decide
  have leave : Bytes.toValidUTF8 (utf8 "leave") ≠ [] := by decide
  rcases announces with ⟨thread, subscriber, -, rfl | rfl⟩
  · exact ⟨rfl, join⟩
  · exact ⟨rfl, leave⟩

theorem id_lt {world : World} {entry : Nat × Storage.MessageRow}
    (saved : entry ∈ world.tables.messages.rows) : entry.1 < 2 ^ 63 := by
  have least := world.tables.messages.bounded entry saved
  have most := world.tables.messages.last_le
  have limit : Storage.maxRowid = 2 ^ 63 - 1 := by rfl
  omega

variable (general : Client.GeneralParse) (offsets : WritesTimes location scene)
  (genuine : item.Genuine location scene)

include offsets genuine

theorem Item.Genuine.recvLine (verbose : Bool) :
    Client.recvLine general verbose (item.data ++ [Bytes.lineFeed]) =
      (item.payload.reading location).line verbose := by
  rcases genuine with ⟨event, announces, rfl⟩ | ⟨entry, saved, positive, data, marshalled, rfl⟩
  · exact Client.recvLine_event general verbose announces.facts.1 announces.facts.2
  · exact Client.recvLine_broadcast general verbose (offsets entry saved) marshalled rfl
      positive (id_lt saved)

omit offsets in
theorem Item.Genuine.streamEvent : streamEvent item.data = some item.eventType := by
  rcases genuine with ⟨event, announces, rfl⟩ | ⟨entry, -, -, data, marshalled, rfl⟩
  · have type := Client.unmarshalType_event event Json.blank_nil
    have same : Bytes.toValidUTF8 (utf8 "event") = utf8 "event" := by decide
    rw [List.append_nil, announces.facts.1, same] at type
    rw [Server.streamEvent]
    change (Client.unmarshalType event.marshal).map _ = _
    rw [type, Option.map_some, if_pos rfl]
    rfl
  · have type := Client.unmarshalType_broadcast marshalled Json.blank_nil
    have same : Bytes.toValidUTF8 (utf8 "message") = utf8 "message" := by decide
    have other : utf8 "message" ≠ utf8 "event" := by decide
    rw [List.append_nil] at type
    rw [Server.streamEvent]
    change (Client.unmarshalType data).map _ = _
    rw [type, Option.map_some]
    change some (if Bytes.toValidUTF8 (utf8 "message") = utf8 "event" then _ else _) = _
    rw [same, if_neg other]
    rfl

end Items

/-! ## In a run of the server -/

section Runs

variable {platform : Platform} {tables : Storage.Tables} {clock : Instant}
variable {events : List ServerEvent} {config : ServerConfig}

theorem queued_of_run
    (run : Run (next platform) (fun config event => distinctClients config event = true)
      (start tables clock) events config)
    {thread : Nat} {pump : Pump} (found : config.scene.world.hub.pumps thread = some pump)
    (json : pump.subscriber.renderHTML = false) {frame : Frame} (queued : frame ∈ pump.queued) :
    frame.bytes = frame.item.data ∧
      frame.item ∈ config.scene.world.hub.accepted.map Prod.snd := by
  have sound := (delivering_of_run run).sound
  have pumpSound := sound.pump thread pump found
  obtain ⟨offer, kept, rfl⟩ := List.mem_map.mp queued
  have member := List.mem_of_mem_filter kept
  refine ⟨pumpSound.data json offer member, ?_⟩
  rw [sound.accepted]
  exact List.mem_append_left _ (List.mem_of_getElem? (pumpSound.items offer member))

theorem wholly_append {element : Type} (text : element → ByteString) {count : Nat}
    {first : List element} (second : List element) (enough : (first.flatMap text).length ≤ count) :
    first <+: Client.wholly text count (first ++ second) := by
  induction first generalizing count with
  | nil => exact List.nil_prefix
  | cons head rest induction =>
      rw [List.flatMap_cons, List.length_append] at enough
      rw [List.cons_append, Client.wholly, if_pos (by omega)]
      exact (List.prefix_cons_inj head).mpr (induction (by omega))

theorem written_prefix_received
    (run : Run (next platform) (fun config event => distinctClients config event = true)
      (start tables clock) events config)
    {thread : Nat} {pump : Pump} (found : config.scene.world.hub.pumps thread = some pump)
    (json : pump.subscriber.renderHTML = false) {chunks : List ByteString}
    (arrived : chunks.flatten = pump.stream) :
    pump.written.map Frame.received <+: Client.readPump [] ⟨[], chunks⟩ := by
  obtain ⟨lost, cut, broken⟩ := ((delivering_of_run run).sound.pump thread pump found).pipeline
  have payloads : ∀ frame ∈ pump.written ++ lost, IsPayload frame.bytes := by
    intro frame member
    have queued : frame ∈ pump.queued := by
      rw [broken.queued]
      exact List.mem_append_left _ member
    obtain ⟨same, accepted⟩ := queued_of_run run found json queued
    obtain ⟨entry, inside, item⟩ := List.mem_map.mp accepted
    rw [same, ← item]
    exact (allMarshalled_of_run run entry inside).payload
  have begun : pump.stream <+: (pump.written ++ lost).flatMap (Pump.text pump.subscriber) := by
    rw [broken.stream, List.flatMap_append, List.prefix_append_right_inj]
    rcases broken.failed with ⟨-, rfl⟩ | ⟨-, frame, count, rfl, rfl⟩
    · exact List.nil_prefix
    · rw [List.flatMap_singleton]
      exact List.take_prefix count _
  have bytes : (⟨[], chunks⟩ : Client.Reader).bytes =
      ((pump.written ++ lost).flatMap (Pump.text pump.subscriber)).take pump.stream.length := by
    change chunks.flatten = _
    rw [arrived]
    exact List.prefix_iff_eq_take.mp begun
  rw [readPump_frames json payloads bytes]
  refine (wholly_append _ lost ?_).map Frame.received
  rw [broken.stream, List.length_append]
  exact Nat.le_add_right _ _

/-- What `grunt recv` prints of a frame. -/
def Frame.line (location : Location) (verbose : Bool) (frame : Frame) : ByteString :=
  (frame.item.payload.reading location).line verbose

/-- What `grunt recv` prints of what has arrived of its stream. -/
def printed (general : Client.GeneralParse) (verbose : Bool) (chunks : List ByteString) :
    List ByteString :=
  (Client.readPump [] ⟨[], chunks⟩).map (Client.recvLine general verbose)

theorem recvLine_of_queued (general : Client.GeneralParse) (verbose : Bool)
    (run : Run (next platform) (fun config event => distinctClients config event = true)
      (start tables clock) events config)
    (offsets : WritesTimes platform.location config.scene)
    {thread : Nat} {pump : Pump} (found : config.scene.world.hub.pumps thread = some pump)
    (json : pump.subscriber.renderHTML = false) {frame : Frame} (queued : frame ∈ pump.queued) :
    Client.recvLine general verbose frame.received = frame.line platform.location verbose := by
  obtain ⟨bytes, accepted⟩ := queued_of_run run found json queued
  obtain ⟨entry, inside, item⟩ := List.mem_map.mp accepted
  rw [Frame.received, bytes, Frame.line, ← item]
  exact (genuine_of_run run entry inside).recvLine general offsets verbose

theorem printed_prefix_queued (general : Client.GeneralParse) (verbose : Bool)
    (run : Run (next platform) (fun config event => distinctClients config event = true)
      (start tables clock) events config)
    (offsets : WritesTimes platform.location config.scene)
    {thread : Nat} {pump : Pump} (found : config.scene.world.hub.pumps thread = some pump)
    (json : pump.subscriber.renderHTML = false) {chunks : List ByteString}
    (arrived : chunks.flatten <+: pump.stream) :
    printed general verbose chunks <+: pump.queued.map (Frame.line platform.location verbose) := by
  have received := (received_prefix_queued run found json arrived).map
    (Client.recvLine general verbose)
  have lined : pump.queued.map (Client.recvLine general verbose ∘ Frame.received) =
      pump.queued.map (Frame.line platform.location verbose) :=
    List.map_congr_left fun _ => recvLine_of_queued general verbose run offsets found json
  rwa [List.map_map, lined] at received

theorem written_prefix_printed (general : Client.GeneralParse) (verbose : Bool)
    (run : Run (next platform) (fun config event => distinctClients config event = true)
      (start tables clock) events config)
    (offsets : WritesTimes platform.location config.scene)
    {thread : Nat} {pump : Pump} (found : config.scene.world.hub.pumps thread = some pump)
    (json : pump.subscriber.renderHTML = false) {chunks : List ByteString}
    (arrived : chunks.flatten = pump.stream) :
    pump.written.map (Frame.line platform.location verbose) <+: printed general verbose chunks := by
  obtain ⟨lost, cut, broken⟩ := ((delivering_of_run run).sound.pump thread pump found).pipeline
  have received := (written_prefix_received run found json arrived).map
    (Client.recvLine general verbose)
  have lined : pump.written.map (Client.recvLine general verbose ∘ Frame.received) =
      pump.written.map (Frame.line platform.location verbose) := by
    refine List.map_congr_left fun frame member => ?_
    apply recvLine_of_queued general verbose run offsets found json
    rw [broken.queued]
    exact List.mem_append_left _ (List.mem_append_left _ member)
  rwa [List.map_map, lined] at received

/-- `grunt recv` prints a line for every message it was sent and none that says
it does not know what it has got. -/
theorem printed_of_run (general : Client.GeneralParse) (verbose : Bool)
    (run : Run (next platform) (fun config event => distinctClients config event = true)
      (start tables clock) events config)
    (offsets : WritesTimes platform.location config.scene)
    {thread : Nat} {pump : Pump} (found : config.scene.world.hub.pumps thread = some pump)
    (json : pump.subscriber.renderHTML = false) :
    (∀ chunks, chunks.flatten <+: pump.stream → printed general verbose chunks <+:
        pump.queued.map (Frame.line platform.location verbose)) ∧
      ∀ chunks, chunks.flatten = pump.stream →
        pump.written.map (Frame.line platform.location verbose) <+:
          printed general verbose chunks :=
  ⟨fun _ => printed_prefix_queued general verbose run offsets found json,
    fun _ => written_prefix_printed general verbose run offsets found json⟩

/-- The join is not shown, the message is. -/
theorem sendAndStream_printed : ∃ (config : ServerConfig) (pump : Pump),
    config.scene.world.hub.pumps 0 = some pump ∧
    printed (fun _ => none) false [pump.stream] = [[], utf8 "[ann] 00:00:00: hello\n"] := by
  have executed : ((executeWhere (next .transparent) distinctClients (start annsTables 0)
      sendAndStream).bind fun config => (config.scene.world.hub.pumps 0).map fun pump =>
        (pump.subscriber.renderHTML,
          pump.written.map (Frame.line .utc false), pump.queued.map (Frame.line .utc false))) =
      some (false, [[], utf8 "[ann] 00:00:00: hello\n"],
        [[], utf8 "[ann] 00:00:00: hello\n"]) := by
    decide +kernel
  obtain ⟨config, reached, pumped⟩ := Option.bind_eq_some_iff.mp executed
  obtain ⟨pump, found, facts⟩ := Option.map_eq_some_iff.mp pumped
  simp only [Prod.mk.injEq] at facts
  obtain ⟨json, written, queued⟩ := facts
  obtain ⟨atMost, atLeast⟩ := printed_of_run (fun _ => none) false
    (run_of_executeWhere reached) (writesTimes_utc config.scene) found json
  have whole : [pump.stream].flatten = pump.stream := by simp
  have most := atMost [pump.stream] (by rw [whole])
  have least := atLeast [pump.stream] whole
  refine ⟨config, pump, found, ?_⟩
  change _ <+: pump.queued.map (Frame.line .utc false) at most
  change pump.written.map (Frame.line .utc false) <+: _ at least
  rw [queued] at most
  rw [written] at least
  exact most.eq_of_length_le least.length_le

end Runs

end Grunt.Server
