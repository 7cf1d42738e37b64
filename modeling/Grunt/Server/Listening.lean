import Grunt.Client.Marshalled
import Grunt.Client.Printing
import Grunt.Client.ReadPump
import Grunt.Server.Broadcasts
import Grunt.Server.Staging

/-! # What a listening client receives

The write pump of a JSON subscriber and the client's `readPump` are the two
ends of one stream.
-/

namespace Grunt.Server

open Foundation

/-! ## The two ends -/

/-- What the client makes of a frame. -/
def Frame.received (frame : Frame) : ByteString := frame.bytes ++ [Bytes.lineFeed]

/-- What `json.Marshal` makes of a message, in whatever zone, or of an event. -/
def IsPayload (data : ByteString) : Prop :=
  (∃ location, ∃ message : Client.Broadcast, message.marshal location = some data) ∨
    ∃ event : Client.Event, event.marshal = data

theorem IsPayload.oneLine {data : ByteString} (payload : IsPayload data) :
    EventStream.OneLine data := by
  rcases payload with ⟨location, message, marshalled⟩ | ⟨event, rfl⟩
  · exact (Client.Broadcast.printable_marshal marshalled).oneLine
  · exact event.printable_marshal.oneLine

theorem IsPayload.exists_streamEvent {data : ByteString} (payload : IsPayload data) :
    ∃ eventType, streamEvent data = some eventType := by
  have typed : ∃ type, Client.unmarshalType data = some type := by
    rcases payload with ⟨location, message, marshalled⟩ | ⟨event, rfl⟩
    · have type := Client.unmarshalType_broadcast marshalled Json.blank_nil
      rw [List.append_nil] at type
      exact ⟨_, type⟩
    · have type := Client.unmarshalType_event event Json.blank_nil
      rw [List.append_nil] at type
      exact ⟨_, type⟩
  obtain ⟨type, read⟩ := typed
  exact ⟨_, congrArg (Option.map _) read⟩

theorem oneLine_streamEvent {data eventType : ByteString}
    (named : streamEvent data = some eventType) : EventStream.OneLine eventType := by
  obtain ⟨type, -, rfl⟩ := Option.map_eq_some_iff.mp named
  split <;> decide

def Frame.eventType (frame : Frame) : ByteString := (streamEvent frame.bytes).getD []

theorem Frame.oneLine_eventType (frame : Frame) : EventStream.OneLine frame.eventType := by
  rw [eventType]
  cases named : streamEvent frame.bytes with
  | none => exact (by decide : EventStream.OneLine [])
  | some eventType => exact oneLine_streamEvent named

theorem Pump.text_json {subscriber : Subscriber} (json : subscriber.renderHTML = false)
    {frame : Frame} (payload : IsPayload frame.bytes) :
    text subscriber frame = Client.record frame.eventType frame.bytes := by
  obtain ⟨eventType, named⟩ := payload.exists_streamEvent
  rw [text, json, if_neg Bool.false_ne_true, Frame.eventType, named, Client.record]
  have feed : utf8 "\n" = [Bytes.lineFeed] := by decide
  have feeds : utf8 "\n\n" = [Bytes.lineFeed] ++ [Bytes.lineFeed] := by decide
  rw [feed, feeds]
  simp only [Option.getD_some, List.append_assoc]

/-- A stream of frames, in whatever chunks it arrives and wherever it is cut,
gives the client the frames that came through in full. -/
theorem readPump_frames {subscriber : Subscriber} (json : subscriber.renderHTML = false)
    {frames : List Frame} (payloads : ∀ frame ∈ frames, IsPayload frame.bytes)
    {count : Nat} {reader : Client.Reader}
    (bytes : reader.bytes = (frames.flatMap (Pump.text subscriber)).take count) :
    Client.readPump [] reader =
      (Client.wholly (Pump.text subscriber) count frames).map Frame.received := by
  have same : ∀ frame ∈ frames,
      Pump.text subscriber frame = Client.record frame.eventType frame.bytes :=
    fun frame member => Pump.text_json json (payloads frame member)
  rw [List.flatMap_congr same] at bytes
  rw [Client.wholly_congr same]
  exact Client.readPump_records (fun frame _ => frame.oneLine_eventType)
    (fun frame member => (payloads frame member).oneLine) bytes

/-- The client receives exactly what was put on the send channel; of a stream
that breaks off, exactly the events whose last line has come through. -/
theorem jsonStream_received {subscriber : Subscriber} (json : subscriber.renderHTML = false)
    {frames : List Frame} (payloads : ∀ frame ∈ frames, IsPayload frame.bytes) :
    (∀ chunks : List ByteString,
      chunks.flatten = frames.flatMap (Pump.text subscriber) →
      Client.readPump [] ⟨[], chunks⟩ = frames.map Frame.received) ∧
    ∀ (count : Nat) (chunks : List ByteString),
      chunks.flatten = (frames.flatMap (Pump.text subscriber)).take count →
      Client.readPump [] ⟨[], chunks⟩ =
        (Client.wholly (Pump.text subscriber) count frames).map Frame.received := by
  constructor
  · intro chunks whole
    have bytes : (⟨[], chunks⟩ : Client.Reader).bytes =
        (frames.flatMap (Pump.text subscriber)).take
          (frames.flatMap (Pump.text subscriber)).length := by
      rw [List.take_length]
      exact whole
    rw [readPump_frames json payloads bytes, Client.wholly_eq_self _ (Nat.le_refl _)]
  · intro count chunks cut
    exact readPump_frames json payloads cut

def annsJoin : Frame :=
  let item := Item.ofEvent ⟨utf8 "event", utf8 "join", utf8 "abc", utf8 "ann"⟩
  { bytes := item.data, item := item, number := 0, shown := [] }

/-- The event arrives in two parts, cut inside the word `data`. -/
theorem annsJoin_received :
    Client.readPump [] ⟨[], [(Pump.text ⟨utf8 "abc", utf8 "ann", false⟩ annsJoin).take 15,
      (Pump.text ⟨utf8 "abc", utf8 "ann", false⟩ annsJoin).drop 15]⟩ = [annsJoin.received] := by
  have payloads : ∀ frame ∈ [annsJoin], IsPayload frame.bytes := by
    intro frame member
    rw [List.mem_singleton.mp member]
    exact .inr ⟨_, rfl⟩
  have received := (jsonStream_received
    (show Subscriber.renderHTML ⟨utf8 "abc", utf8 "ann", false⟩ = false from rfl) payloads).1
  apply received
  simp

/-! ## In a run of the server -/

/-- An item whose bytes were written by `json.Marshal`. -/
def Item.Marshalled (location : Location) (item : Item) : Prop :=
  (∃ userID, userID ≠ [] ∧ item.PostedBy location userID) ∨ ∃ event, item = .ofEvent event

theorem Item.Marshalled.payload {location : Location} {item : Item}
    (marshalled : item.Marshalled location) : IsPayload item.data := by
  rcases marshalled with ⟨userID, -, message, data, written, -, rfl⟩ | ⟨event, rfl⟩
  · exact .inl ⟨location, message, written⟩
  · exact .inr ⟨event, rfl⟩

def Hub.AllMarshalled (location : Location) (hub : Hub) : Prop :=
  ∀ entry ∈ hub.accepted, entry.2.Marshalled location

theorem allMarshalled_of_run {platform : Platform} {allowed} {tables : Storage.Tables}
    {clock : Instant} {events : List ServerEvent} {config : ServerConfig}
    (run : Run (next platform) allowed (start tables clock) events config) :
    config.scene.world.hub.AllMarshalled platform.location := by
  refine hub_of_sends sendsOnly_posts (Hub.AllMarshalled platform.location) ?_ ?_ ?_ ?_ run
  · intro entry member
    cases member
  · intro hub sender item after all posted sent entry member
    rw [Hub.accepted_of_send sent] at member
    rcases List.mem_append.mp member with earlier | now
    · exact all entry earlier
    · rw [List.mem_singleton.mp now]
      exact .inl posted
  · intro hub thread subscriber after all registered entry member
    rw [(Hub.effect_of_register registered).1] at member
    exact all entry member
  · intro hub surroundings event after all _ happened entry member
    rcases (Hub.continues_of_happen happened).accepted with same | ⟨announced, more⟩
    · rw [same] at member
      exact all entry member
    · rw [more] at member
      rcases List.mem_append.mp member with earlier | now
      · exact all entry earlier
      · rw [List.mem_singleton.mp now]
        exact .inr ⟨announced, rfl⟩

/-- What a client receives from a JSON stream of the server, however much of it
has arrived, is the beginning of what was put on its send channel. -/
theorem received_prefix_queued {platform : Platform} {tables : Storage.Tables}
    {clock : Instant} {events : List ServerEvent} {config : ServerConfig}
    (run : Run (next platform) (fun config event => distinctClients config event = true)
      (start tables clock) events config)
    {thread : Nat} {pump : Pump} (found : config.scene.world.hub.pumps thread = some pump)
    (json : pump.subscriber.renderHTML = false) {chunks : List ByteString}
    (arrived : chunks.flatten <+: pump.stream) :
    Client.readPump [] ⟨[], chunks⟩ <+: pump.queued.map Frame.received := by
  have sound := (delivering_of_run run).sound
  have pumpSound := sound.pump thread pump found
  have offered : ∀ offer ∈ pump.offers, IsPayload offer.frame.bytes := by
    intro offer member
    rw [pumpSound.data json offer member]
    have taken := List.mem_of_getElem? (pumpSound.items offer member)
    have accepted : offer.frame.item ∈ config.scene.world.hub.accepted.map Prod.snd := by
      rw [sound.accepted]
      exact List.mem_append_left _ taken
    rcases List.mem_map.mp accepted with ⟨entry, inside, same⟩
    rw [← same]
    exact (allMarshalled_of_run run entry inside).payload
  rcases pumpSound.pipeline with ⟨lost, cut, broken⟩
  have begun : pump.stream <+: (pump.written ++ lost).flatMap (Pump.text pump.subscriber) := by
    rw [broken.stream, List.flatMap_append, List.prefix_append_right_inj]
    rcases broken.failed with ⟨-, rfl⟩ | ⟨-, frame, count, rfl, rfl⟩
    · exact List.nil_prefix
    · rw [List.flatMap_singleton]
      exact List.take_prefix count _
  have queued : pump.written ++ lost <+: pump.queued := ⟨pump.send, broken.queued.symm⟩
  have payloads : ∀ frame ∈ pump.written ++ lost, IsPayload frame.bytes := by
    intro frame member
    rcases List.mem_map.mp (queued.subset member) with ⟨offer, kept, rfl⟩
    exact offered offer (List.mem_of_mem_filter kept)
  have bytes : (⟨[], chunks⟩ : Client.Reader).bytes =
      ((pump.written ++ lost).flatMap (Pump.text pump.subscriber)).take chunks.flatten.length :=
    List.prefix_iff_eq_take.mp (arrived.trans begun)
  rw [readPump_frames json payloads bytes]
  exact ((Client.wholly_prefix _ _ _).trans queued).map Frame.received

end Grunt.Server
