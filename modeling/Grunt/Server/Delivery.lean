import Grunt.Server.Hub

/-! # What the hub delivers

Every item goes through the channel once and in order. A subscriber is offered
exactly the items that `Run` dequeued between its registration and its
unregistration, is given those that its own buffer had room for, and is
written these in order.

All of it needs that no two subscribers have the same client id.
-/

namespace Grunt.Server

open Foundation

/-- `Run` is not busy with an item. -/
def Phase.idle : Phase → Bool
  | .selecting | .announcing _ | .stopped => true
  | _ => false

namespace Hub

/-- How many of the dequeued items `Run` is done with as far as an entry of
the subscriber map is concerned. -/
def processed (hub : Hub) (entry : Entry) : Nat :=
  match hub.phase with
  | .rendering _ | .panicked => hub.taken.length - 1
  | .fanningOut _ _ _ todo =>
      if entry ∈ todo then hub.taken.length - 1 else hub.taken.length
  | _ => hub.taken.length

/-- The item that `Run` is about to offer, and to whom. -/
def current (hub : Hub) : Option (Item × List Entry) :=
  match hub.phase with
  | .rendering item => some (item, hub.subscribers)
  | .fanningOut item _ _ todo => some (item, todo)
  | _ => none

end Hub

theorem Hub.current_of_idle {hub : Hub} (idle : hub.phase.idle = true) :
    hub.current = none := by
  unfold Hub.current
  split <;> simp_all [Phase.idle]

theorem Hub.processed_of_idle {hub : Hub} (idle : hub.phase.idle = true) (entry : Entry) :
    hub.processed entry = hub.taken.length := by
  unfold Hub.processed
  split <;> simp_all [Phase.idle]

theorem Hub.idle_leaving {hub : Hub} {subscriber : Subscriber} :
    (hub.leaving subscriber).idle = true := by
  unfold Hub.leaving
  split <;> rfl

namespace Pump

def lastOffered (pump : Pump) (processed : Nat) : Nat := pump.left.getD processed

/-- The frames put on the send channel that were neither written nor are still
in it: at most the one whose writing failed, of which `cut` was written. -/
structure Broken (pump : Pump) (lost : List Frame) (cut : ByteString) : Prop where
  queued : pump.queued = pump.written ++ lost ++ pump.send
  stream : pump.stream = pump.written.flatMap (text pump.subscriber) ++ cut
  failed : (lost = [] ∧ cut = []) ∨
    (pump.phase ≠ .pumping ∧ ∃ frame count, lost = [frame] ∧
      cut = (text pump.subscriber frame).take count)

def Piped (pump : Pump) : Prop := ∃ lost cut, pump.Broken lost cut

/-- The pump goes on in a phase in which it writes nothing. -/
structure Stopped (before after : Pump) : Prop where
  subscriber : after.subscriber = before.subscriber
  offers : after.offers = before.offers
  written : after.written = before.written
  send : after.send = before.send
  stream : after.stream = before.stream
  phase : after.phase ≠ .pumping

/-- What a pump remembers agrees with the items dequeued from the channel. -/
structure Sound (pump : Pump) (taken : List Item) (processed : Nat) : Prop where
  window : pump.joined + pump.offers.length = pump.lastOffered processed
  numbers : pump.offers.map (fun offer => offer.frame.number) =
    List.range' pump.joined pump.offers.length
  items : ∀ offer ∈ pump.offers,
    taken[offer.frame.number]? = some offer.frame.item
  data : pump.subscriber.renderHTML = false →
    ∀ offer ∈ pump.offers, offer.frame.bytes = offer.frame.item.data
  pipeline : pump.Piped
  open_iff : pump.left = none ↔ pump.phase = .pumping ∨ pump.phase = .unregistering

section Sound

variable {pump after : Pump} {taken : List Item} {processed : Nat}

theorem piped_start (subscriber : Subscriber) (joined : Nat) :
    (start subscriber joined).Piped := ⟨[], [], rfl, rfl, .inl ⟨rfl, rfl⟩⟩

theorem sound_start (subscriber : Subscriber) (taken : List Item) :
    (start subscriber taken.length).Sound taken taken.length where
  window := rfl
  numbers := rfl
  items := by simp [start]
  data := by simp [start]
  pipeline := piped_start subscriber taken.length
  open_iff := by simp [start]

theorem Sound.extend (sound : pump.Sound taken processed) {more : List Item}
    {later : Nat} (same : pump.left = none → later = processed) :
    pump.Sound (taken ++ more) later where
  window := by
    rw [sound.window]
    unfold lastOffered
    cases left : pump.left with
    | none => simp [same left]
    | some stopped => rfl
  numbers := sound.numbers
  items := fun offer member => by
    have found := sound.items offer member
    rw [List.getElem?_append_left (List.getElem?_eq_some_iff.mp found).1]
    exact found
  data := sound.data
  pipeline := sound.pipeline
  open_iff := sound.open_iff

theorem Sound.later (sound : pump.Sound taken processed) {later : Nat}
    (same : pump.left = none → later = processed) : pump.Sound taken later := by
  have extended : pump.Sound (taken ++ []) later := sound.extend same
  rwa [List.append_nil] at extended

theorem queued_offer (frame : Frame) :
    (pump.offer frame).queued = pump.queued ++
      (if pump.send.length < channelCapacity then [frame] else []) := by
  unfold queued offer
  simp only [List.filter_append, List.map_append]
  congr 1
  by_cases room : pump.send.length < channelCapacity <;> simp [Offer.kept, room]

theorem Piped.offer (piped : pump.Piped) (frame : Frame) : (pump.offer frame).Piped := by
  obtain ⟨lost, cut, broken⟩ := piped
  refine ⟨lost, cut, ?_, broken.stream, broken.failed⟩
  rw [queued_offer, broken.queued]
  unfold Pump.offer
  by_cases room : pump.send.length < channelCapacity <;> simp [room]

theorem Piped.write (piped : pump.Piped) {failure : Option Nat}
    (wrote : pump.write failure = some after) : after.Piped := by
  obtain ⟨lost, cut, broken⟩ := piped
  unfold Pump.write at wrote
  split at wrote
  case h_2 => cases wrote
  case h_1 frame rest pumping sending =>
    have whole : lost = [] ∧ cut = [] := by
      rcases broken.failed with whole | ⟨stopped, -⟩
      · exact whole
      · exact absurd pumping stopped
    obtain ⟨rfl, rfl⟩ := whole
    have queued := broken.queued
    have stream := broken.stream
    rw [List.append_nil] at queued stream
    split at wrote
    · cases wrote
      refine ⟨[], [], ?_, ?_, .inl ⟨rfl, rfl⟩⟩
      · exact queued.trans (by simp [sending])
      · simp [stream]
    · next count =>
      split at wrote <;> cases wrote
      refine ⟨[frame], _, ?_, ?_, .inr ⟨by simp, frame, count, rfl, rfl⟩⟩
      · exact queued.trans (by simp [sending])
      · simp [stream]

theorem Piped.stop (piped : pump.Piped) (stopped : Stopped pump after) : after.Piped := by
  obtain ⟨lost, cut, broken⟩ := piped
  have queued : after.queued = pump.queued := by rw [Pump.queued, stopped.offers, Pump.queued]
  refine ⟨lost, cut, ?_, ?_, ?_⟩
  · rw [queued, stopped.written, stopped.send, broken.queued]
  · rw [stopped.stream, stopped.written, stopped.subscriber, broken.stream]
  · rw [stopped.subscriber]
    rcases broken.failed with whole | ⟨-, failed⟩
    · exact .inl whole
    · exact .inr ⟨stopped.phase, failed⟩

theorem Sound.offer (sound : pump.Sound taken processed) (subscribed : pump.left = none)
    {frame : Frame} (number : frame.number = processed)
    (item : taken[processed]? = some frame.item)
    (data : pump.subscriber.renderHTML = false → frame.bytes = frame.item.data) :
    (pump.offer frame).Sound taken (processed + 1) where
  window := by
    have window := sound.window
    simp only [lastOffered, subscribed, Option.getD_none] at window
    simp only [lastOffered, Pump.offer, subscribed, Option.getD_none, List.length_append,
      List.length_singleton]
    omega
  numbers := by
    have window := sound.window
    simp only [lastOffered, subscribed, Option.getD_none] at window
    simp only [Pump.offer, List.map_append, List.map_cons, List.map_nil, sound.numbers,
      List.length_append, List.length_singleton, number]
    rw [List.range'_concat, Nat.one_mul, window]
  items := fun offer member => by
    rcases List.mem_append.mp member with old | new
    · exact sound.items offer old
    · rw [List.mem_singleton.mp new]
      simpa [number] using item
  data := fun json offer member => by
    rcases List.mem_append.mp member with old | new
    · exact sound.data json offer old
    · rw [List.mem_singleton.mp new]
      exact data json
  pipeline := sound.pipeline.offer frame
  open_iff := sound.open_iff

/-- The pump's own steps change neither its subscriber nor what it was offered. -/
structure Own (before after : Pump) : Prop where
  subscriber : after.subscriber = before.subscriber
  joined : after.joined = before.joined
  left : after.left = before.left
  offers : after.offers = before.offers

theorem Sound.own (sound : pump.Sound taken processed) (own : Own pump after)
    (pipeline : after.Piped)
    (open_iff : after.left = none ↔ after.phase = .pumping ∨ after.phase = .unregistering) :
    after.Sound taken processed where
  window := by
    rw [own.joined, own.offers, sound.window, lastOffered, lastOffered, own.left]
  numbers := by rw [own.offers, own.joined, sound.numbers]
  items := by rw [own.offers]; exact sound.items
  data := by rw [own.subscriber, own.offers]; exact sound.data
  pipeline := pipeline
  open_iff := open_iff

theorem own_of_write {failure : Option Nat} (wrote : pump.write failure = some after) :
    Own pump after := by
  unfold write at wrote
  split at wrote
  case h_2 => cases wrote
  case h_1 =>
    split at wrote
    · cases wrote
      exact ⟨rfl, rfl, rfl, rfl⟩
    · split at wrote <;> cases wrote
      exact ⟨rfl, rfl, rfl, rfl⟩

theorem Sound.write (sound : pump.Sound taken processed) {failure : Option Nat}
    (wrote : pump.write failure = some after) : after.Sound taken processed := by
  have own := own_of_write wrote
  refine sound.own own (sound.pipeline.write wrote) ?_
  rw [own.left, sound.open_iff]
  unfold Pump.write at wrote
  split at wrote
  case h_2 => cases wrote
  case h_1 frame rest pumping sending =>
    split at wrote
    · cases wrote
      simp [pumping]
    · split at wrote <;> cases wrote
      simp [pumping]

theorem Sound.cancel (sound : pump.Sound taken processed) (pumping : pump.phase = .pumping) :
    ({ pump with phase := .unregistering } : Pump).Sound taken processed := by
  refine sound.own ⟨rfl, rfl, rfl, rfl⟩ (sound.pipeline.stop ⟨rfl, rfl, rfl, rfl, rfl, ?_⟩) ?_
  · simp
  · exact sound.open_iff.trans (by simp [pumping])

theorem Sound.close (sound : pump.Sound taken processed) (closing : pump.phase = .closing) :
    ({ pump with phase := .exited } : Pump).Sound taken processed := by
  refine sound.own ⟨rfl, rfl, rfl, rfl⟩ (sound.pipeline.stop ⟨rfl, rfl, rfl, rfl, rfl, ?_⟩) ?_
  · simp
  · exact sound.open_iff.trans (by simp [closing])

theorem Sound.unregister (sound : pump.Sound taken processed)
    (waiting : pump.phase = .unregistering) :
    ({ pump with phase := .closing, left := some processed } : Pump).Sound taken
      processed where
  window := by
    have subscribed := sound.open_iff.mpr (.inr waiting)
    have window := sound.window
    simp only [lastOffered, subscribed, Option.getD_none] at window
    exact window
  numbers := sound.numbers
  items := sound.items
  data := sound.data
  pipeline := sound.pipeline.stop ⟨rfl, rfl, rfl, rfl, rfl, by simp⟩
  open_iff := by simp

end Sound

end Pump

namespace Hub

structure Sound (hub : Hub) : Prop where
  accepted : hub.accepted.map Prod.snd = hub.taken ++ hub.broadcast
  distinct : ∀ one two first second, hub.pumps one = some first →
    hub.pumps two = some second →
    first.subscriber.clientID = second.subscriber.clientID → one = two
  subscribed : ∀ entry, entry ∈ hub.subscribers ↔ ∃ pump, hub.pumps entry.2 = some pump ∧
    pump.subscriber.clientID = entry.1 ∧ pump.left = none
  nodup : hub.subscribers.Nodup
  offering : ∀ item todo, hub.current = some (item, todo) →
    (∃ earlier, hub.taken = earlier ++ [item]) ∧ todo.Nodup ∧ todo ⊆ hub.subscribers
  pump : ∀ thread pump, hub.pumps thread = some pump →
    pump.Sound hub.taken (hub.processed (pump.subscriber.clientID, thread))

theorem sound_start : start.Sound where
  accepted := rfl
  distinct := by simp [start]
  subscribed := by simp [start]
  nodup := List.nodup_nil
  offering := by simp [start, current]
  pump := by simp [start]

section Steps

variable {hub after : Hub}

/-- The pump at one place is replaced by another of the same subscriber that
is subscribed just as before. -/
theorem Sound.replace (sound : hub.Sound) {thread : Nat} {old new : Pump}
    (found : hub.pumps thread = some old) (subscriber : new.subscriber = old.subscriber)
    (left : new.left = old.left)
    (pumps : after.pumps = Function.update hub.pumps thread (some new))
    (subscribers : after.subscribers = hub.subscribers) (taken : after.taken = hub.taken)
    (accepted : after.accepted.map Prod.snd = after.taken ++ after.broadcast)
    (offering : ∀ item todo, after.current = some (item, todo) →
      (∃ earlier, after.taken = earlier ++ [item]) ∧ todo.Nodup ∧ todo ⊆ hub.subscribers)
    (newSound : new.Sound after.taken (after.processed (old.subscriber.clientID, thread)))
    (others : ∀ entry ∈ hub.subscribers, entry.2 ≠ thread →
      after.processed entry = hub.processed entry) : after.Sound := by
  have same : ∀ other pump, after.pumps other = some pump →
      ∃ earlier, hub.pumps other = some earlier ∧ pump.subscriber = earlier.subscriber := by
    intro other pump present
    rw [pumps] at present
    by_cases equal : other = thread
    · subst other
      rw [Function.update_self, Option.some.injEq] at present
      subst present
      exact ⟨old, found, subscriber⟩
    · rw [Function.update_of_ne equal] at present
      exact ⟨pump, present, rfl⟩
  refine ⟨accepted, ?_, ?_, subscribers ▸ sound.nodup, subscribers ▸ offering, ?_⟩
  · intro one two first second foundOne foundTwo equal
    obtain ⟨first', earlierOne, subscriberOne⟩ := same one first foundOne
    obtain ⟨second', earlierTwo, subscriberTwo⟩ := same two second foundTwo
    rw [subscriberOne, subscriberTwo] at equal
    exact sound.distinct one two first' second' earlierOne earlierTwo equal
  · intro entry
    rw [subscribers, pumps, sound.subscribed entry]
    by_cases equal : entry.2 = thread
    · simp only [equal, Function.update_self, found, Option.some.injEq, exists_eq_left',
        subscriber, left]
    · simp only [Function.update_of_ne equal]
  · intro other pump present
    rw [pumps] at present
    by_cases equal : other = thread
    · subst other
      rw [Function.update_self, Option.some.injEq] at present
      subst present
      rw [subscriber]
      exact newSound
    · rw [Function.update_of_ne equal] at present
      rw [taken]
      refine (sound.pump other pump present).later fun open' => ?_
      exact others _ ((sound.subscribed _).mpr ⟨pump, present, rfl, open'⟩) equal

theorem Sound.setPump (sound : hub.Sound) {thread : Nat} {old new : Pump}
    (found : hub.pumps thread = some old) (subscriber : new.subscriber = old.subscriber)
    (left : new.left = old.left)
    (newSound : new.Sound hub.taken (hub.processed (old.subscriber.clientID, thread))) :
    (hub.setPump thread new).Sound :=
  sound.replace found subscriber left rfl rfl rfl sound.accepted sound.offering newSound
    fun _ _ _ => rfl

theorem Sound.phase (sound : hub.Sound) (pumps : after.pumps = hub.pumps)
    (subscribers : after.subscribers = hub.subscribers) (taken : after.taken = hub.taken)
    (accepted : after.accepted.map Prod.snd = after.taken ++ after.broadcast)
    (current : after.current = hub.current ∨ after.current = none)
    (processed : ∀ entry, entry ∈ hub.subscribers → after.processed entry = hub.processed entry) :
    after.Sound := by
  constructor
  case accepted => exact accepted
  case distinct =>
    rw [pumps]
    exact sound.distinct
  case subscribed =>
    rw [pumps, subscribers]
    exact sound.subscribed
  case nodup =>
    rw [subscribers]
    exact sound.nodup
  case offering =>
    intro item todo offering
    rcases current with same | idle
    · rw [same] at offering
      rw [taken, subscribers]
      exact sound.offering item todo offering
    · rw [idle] at offering
      cases offering
  case pump =>
    intro thread pump found
    rw [pumps] at found
    rw [taken]
    refine (sound.pump thread pump found).later fun open' => ?_
    exact processed _ ((sound.subscribed _).mpr ⟨pump, found, rfl, open'⟩)

theorem Sound.send (sound : hub.Sound) {sender : Nat} {item : Item}
    (sent : hub.send sender item = some after) : after.Sound := by
  unfold Hub.send at sent
  split at sent <;> cases sent
  refine sound.phase rfl rfl rfl ?_ (.inl rfl) fun _ _ => rfl
  simp [accept, sound.accepted]

theorem Sound.announce (sound : hub.Sound) (announced : hub.announce = some after) :
    after.Sound := by
  unfold Hub.announce at announced
  split at announced
  case h_2 => cases announced
  case h_1 event phase =>
    dsimp only at announced
    split at announced <;> cases announced
    · refine sound.phase rfl rfl rfl ?_ (.inr rfl) fun _ _ => ?_
      · simp [accept, sound.accepted]
      · simp [processed, phase, accept]
    · refine sound.phase rfl rfl rfl sound.accepted (.inr rfl) fun _ _ => ?_
      simp [processed, phase]

theorem Sound.dequeue (sound : hub.Sound) (dequeued : hub.dequeue = some after) :
    after.Sound := by
  unfold Hub.dequeue at dequeued
  split at dequeued
  case h_2 => cases dequeued
  case h_1 item rest phase waiting =>
    cases dequeued
    refine ⟨?_, sound.distinct, sound.subscribed, sound.nodup, ?_, ?_⟩
    · simp [sound.accepted, waiting]
    · intro other todo offering
      cases offering
      exact ⟨⟨hub.taken, rfl⟩, sound.nodup, fun _ => id⟩
    · intro thread pump found
      refine (sound.pump thread pump found).extend fun _ => ?_
      simp [processed, phase]

theorem current_fanOut (item : Item) (fragment : ByteString) (shown : List ByteString) :
    (hub.fanOut item fragment shown).current = some (item, hub.subscribers) := rfl

theorem Sound.fanOut (sound : hub.Sound) {item : Item} (rendering : hub.phase = .rendering item)
    (fragment : ByteString) (shown : List ByteString) :
    (hub.fanOut item fragment shown).Sound := by
  refine sound.phase rfl rfl rfl sound.accepted (.inl ?_) fun entry member => ?_
  · rw [current_fanOut]
    simp [current, rendering]
  · simp [processed, rendering, Hub.fanOut, member]

theorem Sound.renderMessage (sound : hub.Sound) {item : Item}
    (rendering : hub.phase = .rendering item) (surroundings : Surroundings)
    (message : Client.Broadcast) : (hub.renderMessage surroundings item message).Sound := by
  unfold Hub.renderMessage
  dsimp only
  split
  · have rest : Hub.Sound { hub with
        lastMsgUser := message.userID
        lastMsgTime := message.timestamp
        lastMsgDate := currentDate surroundings.location message.timestamp } :=
      sound.phase rfl rfl rfl sound.accepted (.inl rfl) fun _ _ => rfl
    exact rest.fanOut rendering _ _
  · refine sound.phase rfl rfl rfl sound.accepted (.inr rfl) fun _ _ => ?_
    simp [processed, rendering]

theorem Sound.render (sound : hub.Sound) {surroundings : Surroundings}
    (rendered : hub.render surroundings = some after) : after.Sound := by
  unfold Hub.render at rendered
  split at rendered
  case h_2 => cases rendered
  case h_1 item rendering =>
    split at rendered
    · split at rendered <;> cases rendered
      · exact sound.fanOut rendering _ _
      · exact sound.renderMessage rendering surroundings _
    · cases rendered
      exact sound.fanOut rendering _ _

theorem Sound.offer (sound : hub.Sound) {entry : Entry}
    (offered : hub.offer entry = some after) : after.Sound := by
  unfold Hub.offer at offered
  split at offered
  case h_2 => cases offered
  case h_1 item fragment shown todo pump phase found =>
    split at offered
    case isFalse => cases offered
    case isTrue member =>
      have current : hub.current = some (item, todo) := by simp [Hub.current, phase]
      obtain ⟨⟨earlier, taken⟩, nodup, subset⟩ := sound.offering item todo current
      obtain ⟨same, sameFound, clientID, open'⟩ := (sound.subscribed entry).mp (subset member)
      rw [found] at sameFound
      cases sameFound
      have pumpSound := sound.pump entry.2 pump found
      have key : (pump.subscriber.clientID, entry.2) = entry := by rw [clientID]
      have before : hub.processed entry = earlier.length := by
        simp [processed, phase, member, taken]
      have running : pump.phase ≠ .exited := by
        rcases pumpSound.open_iff.mp open' with pumping | waiting
        · simp [pumping]
        · simp [waiting]
      dsimp only at offered
      rw [if_neg running] at offered
      cases offered
      have subscriber : (pump.offer ⟨if pump.subscriber.renderHTML then fragment else item.data,
          item, hub.taken.length - 1, shown⟩).subscriber = pump.subscriber := rfl
      refine sound.replace found subscriber rfl rfl rfl rfl sound.accepted ?_ ?_ ?_
      · intro other rest offering
        cases offering
        exact ⟨⟨earlier, taken⟩, nodup.erase entry, fun _ inside =>
          subset (List.mem_of_mem_erase inside)⟩
      · have processedAfter : ({ hub with
            phase := .fanningOut item fragment shown (todo.erase entry) }.setPump entry.2
              (pump.offer ⟨if pump.subscriber.renderHTML then fragment else item.data, item,
                hub.taken.length - 1, shown⟩)).processed entry = earlier.length + 1 := by
          simp [processed, Hub.setPump, nodup.not_mem_erase, taken]
        rw [key, processedAfter]
        rw [key, before] at pumpSound
        refine pumpSound.offer open' ?_ ?_ ?_
        · simp [taken]
        · simp [taken]
        · intro json
          simp [json]
      · intro other inside different
        have distinct : other ≠ entry := fun equal => different (equal ▸ rfl)
        simp [processed, Hub.setPump, phase, List.mem_erase_of_ne distinct]

theorem Sound.register (sound : hub.Sound) {thread : Nat} {subscriber : Subscriber}
    (fresh : ∀ other pump, hub.pumps other = some pump →
      pump.subscriber.clientID ≠ subscriber.clientID)
    (registered : hub.register thread subscriber = some after) : after.Sound := by
  unfold Hub.register at registered
  split at registered
  case h_2 => cases registered
  case h_1 phase free =>
    cases registered
    have others : ∀ entry ∈ hub.subscribers, entry.1 ≠ subscriber.clientID := by
      intro entry member
      obtain ⟨pump, found, clientID, -⟩ := (sound.subscribed entry).mp member
      rw [← clientID]
      exact fresh entry.2 pump found
    have kept : (hub.subscribers.filter fun entry => entry.1 ≠ subscriber.clientID) =
        hub.subscribers :=
      List.filter_eq_self.mpr fun entry member => decide_eq_true (others entry member)
    rw [kept]
    have update : ∀ other pump, Function.update hub.pumps thread
        (some (Pump.start subscriber hub.taken.length)) other = some pump →
        (other = thread ∧ pump = Pump.start subscriber hub.taken.length) ∨
          (other ≠ thread ∧ hub.pumps other = some pump) := by
      intro other pump present
      by_cases equal : other = thread
      · subst other
        rw [Function.update_self, Option.some.injEq] at present
        exact .inl ⟨rfl, present.symm⟩
      · rw [Function.update_of_ne equal] at present
        exact .inr ⟨equal, present⟩
    refine ⟨sound.accepted, ?_, ?_, ?_, ?_, ?_⟩
    · intro one two first second foundOne foundTwo equal
      rcases update one first foundOne with ⟨rfl, rfl⟩ | ⟨-, earlierOne⟩ <;>
        rcases update two second foundTwo with ⟨rfl, rfl⟩ | ⟨-, earlierTwo⟩
      · rfl
      · exact absurd equal.symm (fresh two second earlierTwo)
      · exact absurd equal (fresh one first earlierOne)
      · exact sound.distinct one two first second earlierOne earlierTwo equal
    · intro entry
      rw [List.mem_cons, sound.subscribed entry]
      constructor
      · rintro (rfl | ⟨pump, found, facts⟩)
        · exact ⟨Pump.start subscriber hub.taken.length,
            Function.update_self thread _ hub.pumps, rfl, rfl⟩
        · have different : entry.2 ≠ thread := fun equal => by
            rw [equal, free] at found
            cases found
          exact ⟨pump, (Function.update_of_ne different _ hub.pumps).trans found, facts⟩
      · rintro ⟨pump, found, clientID, open'⟩
        rcases update entry.2 pump found with ⟨same, rfl⟩ | ⟨-, earlier⟩
        · exact .inl (Prod.ext clientID.symm same)
        · exact .inr ⟨pump, earlier, clientID, open'⟩
    · exact List.nodup_cons.mpr ⟨fun member => others _ member rfl, sound.nodup⟩
    · intro item todo offering
      cases offering
    · intro other pump present
      rcases update other pump present with ⟨rfl, rfl⟩ | ⟨-, earlier⟩
      · exact Pump.sound_start subscriber hub.taken
      · refine (sound.pump other pump earlier).later fun _ => ?_
        simp [processed, phase, Hub.setPump]

theorem Sound.unregister (sound : hub.Sound) {thread : Nat}
    (unregistered : hub.unregister thread = some after) : after.Sound := by
  unfold Hub.unregister at unregistered
  split at unregistered
  case h_2 => cases unregistered
  case h_1 pump phase found =>
    split at unregistered <;> cases unregistered
    case isTrue waiting =>
      have processed_eq : ∀ entry, hub.processed entry = hub.taken.length := by
        simp [processed, phase]
      have update : ∀ other new, Function.update hub.pumps thread
          (some { pump with phase := .closing, left := some hub.taken.length }) other =
            some new →
          (other = thread ∧
            new = { pump with phase := .closing, left := some hub.taken.length }) ∨
            (other ≠ thread ∧ hub.pumps other = some new) := by
        intro other new present
        by_cases equal : other = thread
        · subst other
          rw [Function.update_self, Option.some.injEq] at present
          exact .inl ⟨rfl, present.symm⟩
        · rw [Function.update_of_ne equal] at present
          exact .inr ⟨equal, present⟩
      refine ⟨sound.accepted, ?_, ?_, sound.nodup.filter _, ?_, ?_⟩
      · intro one two first second foundOne foundTwo equal
        rcases update one first foundOne with ⟨rfl, rfl⟩ | ⟨-, earlierOne⟩ <;>
          rcases update two second foundTwo with ⟨rfl, rfl⟩ | ⟨-, earlierTwo⟩
        · rfl
        · exact sound.distinct one two pump second found earlierTwo equal
        · exact sound.distinct one two first pump earlierOne found equal
        · exact sound.distinct one two first second earlierOne earlierTwo equal
      · intro entry
        simp only [List.mem_filter, decide_eq_true_eq, sound.subscribed entry]
        constructor
        · rintro ⟨⟨other, earlier, clientID, open'⟩, different⟩
          have apart : entry.2 ≠ thread := fun equal => by
            rw [equal, found] at earlier
            cases earlier
            exact different clientID.symm
          exact ⟨other, (Function.update_of_ne apart _ hub.pumps).trans earlier, clientID,
            open'⟩
        · rintro ⟨other, present, clientID, open'⟩
          rcases update entry.2 other present with ⟨-, rfl⟩ | ⟨apart, earlier⟩
          · cases open'
          · refine ⟨⟨other, earlier, clientID, open'⟩, fun equal => apart ?_⟩
            exact sound.distinct entry.2 thread other pump earlier found
              (clientID.trans equal)
      · intro item todo offering
        rw [current_of_idle idle_leaving] at offering
        cases offering
      · intro other new present
        rw [processed_of_idle idle_leaving]
        rcases update other new present with ⟨rfl, rfl⟩ | ⟨-, earlier⟩
        · have pumpSound := sound.pump other pump found
          rw [processed_eq] at pumpSound
          exact pumpSound.unregister waiting
        · have pumpSound := sound.pump other new earlier
          rwa [processed_eq] at pumpSound

theorem Sound.finish (sound : hub.Sound) (finished : hub.finish = some after) :
    after.Sound := by
  unfold Hub.finish at finished
  split at finished
  case h_2 => cases finished
  case h_1 item fragment shown phase =>
    cases finished
    refine sound.phase rfl rfl rfl sound.accepted (.inr rfl) fun _ _ => ?_
    simp [processed, phase]

theorem Sound.stop (sound : hub.Sound) : hub.stop.Sound :=
  sound.phase rfl rfl rfl sound.accepted (.inl rfl) fun _ _ => rfl

theorem Sound.exit (sound : hub.Sound) (exited : hub.exit = some after) : after.Sound := by
  unfold Hub.exit at exited
  split at exited
  case h_2 => cases exited
  case h_1 phase =>
    split at exited <;> cases exited
    refine sound.phase rfl rfl rfl sound.accepted (.inr rfl) fun _ _ => ?_
    simp [processed, phase]

theorem Sound.write (sound : hub.Sound) {thread : Nat} {failure : Option Nat}
    (wrote : hub.write thread failure = some after) : after.Sound := by
  unfold Hub.write at wrote
  split at wrote
  case h_2 => cases wrote
  case h_1 pump found =>
    obtain ⟨new, written, rfl⟩ := Option.map_eq_some_iff.mp wrote
    have own := Pump.own_of_write written
    exact sound.setPump found own.subscriber own.left
      ((sound.pump thread pump found).write written)

theorem Sound.cancel (sound : hub.Sound) {thread : Nat}
    (cancelled : hub.cancel thread = some after) : after.Sound := by
  unfold Hub.cancel at cancelled
  split at cancelled
  case h_2 => cases cancelled
  case h_1 pump found =>
    split at cancelled <;> cases cancelled
    case isTrue pumping =>
      exact sound.setPump found rfl rfl ((sound.pump thread pump found).cancel pumping)

theorem Sound.close (sound : hub.Sound) {thread : Nat}
    (closed : hub.close thread = some after) : after.Sound := by
  unfold Hub.close at closed
  split at closed
  case h_2 => cases closed
  case h_1 pump found =>
    split at closed <;> cases closed
    case isTrue closing =>
      exact sound.setPump found rfl rfl ((sound.pump thread pump found).close closing)

theorem Sound.happen (sound : hub.Sound) {surroundings : Surroundings} {event : HubEvent}
    (happened : hub.happen surroundings event = some after) : after.Sound := by
  cases event with
  | announce => exact sound.announce happened
  | unregister thread => exact sound.unregister happened
  | dequeue => exact sound.dequeue happened
  | render => exact sound.render happened
  | offer entry => exact sound.offer happened
  | finish => exact sound.finish happened
  | stop =>
      cases happened
      exact sound.stop
  | exit => exact sound.exit happened
  | write thread failure => exact sound.write happened
  | cancel thread => exact sound.cancel happened
  | close thread => exact sound.close happened

end Steps

end Hub

end Grunt.Server
