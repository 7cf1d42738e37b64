import Grunt.Server.Joining
import Grunt.Server.Ordering

/-! # Streams without gaps

A subscriber is given the messages that `Run` dequeues from the moment it has
joined, one after the other, as long as there is room in its buffer. It may
share its client id with others: then it may be taken out of the map early, but
there is no gap in what it was given until then.
-/

namespace Grunt.Server

open Foundation

namespace Hub

/-- A message finds room in the buffer it is offered to. -/
def roomy (hub : Hub) : HubEvent → Bool
  | .offer entry =>
      match hub.phase, hub.pumps entry.2 with
      | .fanningOut item _ _ _, some pump =>
          item.messageID.isNone || pump.send.length < channelCapacity
      | _, _ => true
  | _ => true

def inFlight (hub : Hub) (entry : Entry) : List Item :=
  match hub.phase with
  | .rendering item => [item]
  | .fanningOut item _ _ todo => if entry ∈ todo then [item] else []
  | _ => []

/-- A subscriber has been given every message from when it joined up to some
point, which is the present for those in the subscriber map. -/
structure Gapless (hub : Hub) : Prop where
  accepted : hub.accepted.map Prod.snd = hub.taken ++ hub.broadcast
  joined : hub.Joined
  serves : ∀ entry ∈ hub.subscribers, ∃ pump, hub.pumps entry.2 = some pump ∧
    pump.subscriber.clientID = entry.1 ∧ (pump.phase = .pumping ∨ pump.phase = .unregistering)
  todo : ∀ item fragment shown todo, hub.phase = .fanningOut item fragment shown todo →
    todo ⊆ hub.subscribers
  window : ∀ thread pump, hub.pumps thread = some pump →
    pump.queuedIDs <+: messageIDs (hub.taken.drop pump.joined)
  current : hub.phase ≠ .panicked → ∀ entry ∈ hub.subscribers, ∀ pump,
    hub.pumps entry.2 = some pump →
    pump.queuedIDs ++ messageIDs (hub.inFlight entry) = messageIDs (hub.taken.drop pump.joined)

theorem gapless_start : start.Gapless where
  accepted := rfl
  joined := by
    intro thread pump found
    cases found
  serves := by
    intro entry member
    cases member
  todo := by
    intro item fragment shown todo phase
    cases phase
  window := by
    intro thread pump found
    cases found
  current := by
    intro _ entry member
    cases member

section Steps

variable {hub after : Hub}

theorem inFlight_of_idle (idle : hub.phase.idle = true) (entry : Entry) :
    hub.inFlight entry = [] := by
  unfold inFlight
  split <;> simp_all [Phase.idle]

theorem Gapless.phase (gapless : hub.Gapless) (pumps : after.pumps = hub.pumps)
    (subscribers : after.subscribers = hub.subscribers) (taken : after.taken = hub.taken)
    (accepted : after.accepted.map Prod.snd = after.taken ++ after.broadcast)
    (todo : ∀ item fragment shown todo, after.phase = .fanningOut item fragment shown todo →
      todo ⊆ hub.subscribers)
    (flight : after.phase ≠ .panicked → hub.phase ≠ .panicked ∧
      ∀ entry ∈ hub.subscribers, after.inFlight entry = hub.inFlight entry) :
    after.Gapless where
  accepted := accepted
  joined := by
    unfold Joined
    rw [pumps, taken]
    exact gapless.joined
  serves := by
    rw [subscribers, pumps]
    exact gapless.serves
  todo := by
    rw [subscribers]
    exact todo
  window := by
    rw [pumps, taken]
    exact gapless.window
  current := by
    intro running entry member pump found
    obtain ⟨before, same⟩ := flight running
    rw [subscribers] at member
    rw [pumps] at found
    rw [same entry member, taken]
    exact gapless.current before entry member pump found

theorem Gapless.replace (gapless : hub.Gapless) {thread : Nat} {old new : Pump}
    (found : hub.pumps thread = some old) (subscriber : new.subscriber = old.subscriber)
    (joined : new.joined = old.joined) (offers : new.offers = old.offers)
    (pumps : after.pumps = Function.update hub.pumps thread (some new))
    (subscribers : after.subscribers ⊆ hub.subscribers)
    (serving : ∀ entry ∈ after.subscribers, entry.2 = thread →
      new.phase = .pumping ∨ new.phase = .unregistering)
    (taken : after.taken = hub.taken)
    (accepted : after.accepted.map Prod.snd = after.taken ++ after.broadcast)
    (todo : ∀ item fragment shown todo, after.phase = .fanningOut item fragment shown todo →
      todo ⊆ after.subscribers)
    (flight : after.phase ≠ .panicked → hub.phase ≠ .panicked ∧
      ∀ entry ∈ hub.subscribers, after.inFlight entry = hub.inFlight entry) :
    after.Gapless := by
  have earlier : ∀ other pump, after.pumps other = some pump →
      ∃ before, hub.pumps other = some before ∧ pump.joined = before.joined ∧
        pump.queuedIDs = before.queuedIDs := by
    intro other pump present
    rw [pumps] at present
    by_cases same : other = thread
    · subst other
      rw [Function.update_self, Option.some.injEq] at present
      subst present
      refine ⟨old, found, joined, ?_⟩
      rw [Pump.queuedIDs, Pump.queued, offers, Pump.queuedIDs, Pump.queued]
    · rw [Function.update_of_ne same] at present
      exact ⟨pump, present, rfl, rfl⟩
  refine ⟨accepted, ?_, ?_, todo, ?_, ?_⟩
  · intro other pump present
    obtain ⟨before, there, joined, -⟩ := earlier other pump present
    rw [joined, taken]
    exact gapless.joined other before there
  · intro entry member
    obtain ⟨pump, there, clientID, served⟩ := gapless.serves entry (subscribers member)
    rw [pumps]
    by_cases same : entry.2 = thread
    · rw [same, found, Option.some.injEq] at there
      subst there
      rw [same, Function.update_self]
      exact ⟨new, rfl, by rw [subscriber, clientID], serving entry member same⟩
    · rw [Function.update_of_ne same]
      exact ⟨pump, there, clientID, served⟩
  · intro other pump present
    obtain ⟨before, there, joined, queued⟩ := earlier other pump present
    rw [joined, queued, taken]
    exact gapless.window other before there
  · intro running entry member pump present
    obtain ⟨before, there, joined, queued⟩ := earlier entry.2 pump present
    obtain ⟨ran, same⟩ := flight running
    rw [joined, queued, taken, same entry (subscribers member)]
    exact gapless.current ran entry (subscribers member) before there

theorem Gapless.send (gapless : hub.Gapless) {sender : Nat} {item : Item}
    (sent : hub.send sender item = some after) : after.Gapless := by
  unfold Hub.send at sent
  split at sent <;> cases sent
  refine gapless.phase rfl rfl rfl ?_ gapless.todo fun running => ⟨running, fun _ _ => rfl⟩
  simp [accept, gapless.accepted]

theorem Gapless.register (gapless : hub.Gapless) {thread : Nat} {subscriber : Subscriber}
    (registered : hub.register thread subscriber = some after) : after.Gapless := by
  have acted : hub.act (.register thread subscriber) = some after := registered
  have joined := gapless.joined.act acted
  unfold Hub.register at registered
  split at registered
  case h_2 => cases registered
  case h_1 phase free =>
    cases registered
    have waiting : hub.phase ≠ .panicked := by
      rw [phase]
      exact Phase.noConfusion
    have others : ∀ other pump, Function.update hub.pumps thread
        (some (Pump.start subscriber hub.taken.length)) other = some pump →
        pump = Pump.start subscriber hub.taken.length ∨
          other ≠ thread ∧ hub.pumps other = some pump := by
      intro other pump present
      by_cases same : other = thread
      · rw [same, Function.update_self, Option.some.injEq] at present
        exact .inl present.symm
      · rw [Function.update_of_ne same] at present
        exact .inr ⟨same, present⟩
    have fresh : (Pump.start subscriber hub.taken.length).queuedIDs =
        messageIDs (hub.taken.drop hub.taken.length) := by
      rw [List.drop_length]
      rfl
    refine ⟨gapless.accepted, joined, ?_, ?_, ?_, ?_⟩
    · intro entry member
      rcases List.mem_cons.mp member with rfl | old
      · exact ⟨_, Function.update_self thread _ hub.pumps, rfl, .inl rfl⟩
      · obtain ⟨pump, found, facts⟩ := gapless.serves entry (List.mem_of_mem_filter old)
        have different : entry.2 ≠ thread := by
          intro same
          rw [same, free] at found
          cases found
        exact ⟨pump, (Function.update_of_ne different _ hub.pumps).trans found, facts⟩
    · intro item fragment shown todo fanningOut
      cases fanningOut
    · intro other pump present
      rcases others other pump present with rfl | ⟨-, found⟩
      · rw [fresh]
        exact List.prefix_rfl
      · exact gapless.window other pump found
    · intro _ entry member pump present
      rcases others entry.2 pump present with rfl | ⟨different, found⟩
      · exact (List.append_nil _).trans fresh
      · rcases List.mem_cons.mp member with rfl | old
        · exact absurd rfl different
        · have same := gapless.current waiting entry (List.mem_of_mem_filter old) pump found
          rw [inFlight_of_idle (by rw [phase]; rfl)] at same
          exact same

theorem Gapless.announce (gapless : hub.Gapless) (announced : hub.announce = some after) :
    after.Gapless := by
  unfold Hub.announce at announced
  split at announced
  case h_2 => cases announced
  case h_1 event phase =>
    have idle : ∀ entry, hub.inFlight entry = [] := inFlight_of_idle (by rw [phase]; rfl)
    have waiting : hub.phase ≠ .panicked := by
      rw [phase]
      exact Phase.noConfusion
    dsimp only at announced
    split at announced <;> cases announced
    · refine gapless.phase rfl rfl rfl ?_ (by simp [accept]) fun _ => ⟨waiting, fun entry _ => ?_⟩
      · simp [accept, gapless.accepted]
      · rw [idle]
        rfl
    · refine gapless.phase rfl rfl rfl gapless.accepted (by simp) fun _ =>
        ⟨waiting, fun entry _ => ?_⟩
      rw [idle]
      rfl

theorem Gapless.unregister (gapless : hub.Gapless) {thread : Nat}
    (unregistered : hub.unregister thread = some after) : after.Gapless := by
  unfold Hub.unregister at unregistered
  split at unregistered
  case h_2 => cases unregistered
  case h_1 pump phase found =>
    split at unregistered <;> cases unregistered
    have idle : (hub.leaving pump.subscriber).idle = true := idle_leaving
    have subscriber : ({ pump with phase := .closing, left := some hub.taken.length } :
        Pump).subscriber = pump.subscriber := rfl
    refine gapless.replace found subscriber rfl rfl rfl List.filter_sublist.subset ?_ rfl
      gapless.accepted ?_ fun _ => ⟨?_, fun entry _ => ?_⟩
    · -- whoever had this subscriber's client id is no longer in the map
      intro entry member same
      obtain ⟨there, different⟩ := List.mem_filter.mp member
      obtain ⟨other, present, clientID, -⟩ := gapless.serves entry there
      rw [same, found, Option.some.injEq] at present
      subst present
      exact absurd clientID.symm (of_decide_eq_true different)
    · intro item fragment shown todo fanningOut
      have leaves : hub.leaving pump.subscriber = .fanningOut item fragment shown todo :=
        fanningOut
      rw [leaves] at idle
      cases idle
    · rw [phase]
      exact Phase.noConfusion
    · rw [inFlight_of_idle idle, inFlight_of_idle (by rw [phase]; rfl)]

theorem Gapless.dequeue (gapless : hub.Gapless) (dequeued : hub.dequeue = some after) :
    after.Gapless := by
  unfold Hub.dequeue at dequeued
  split at dequeued
  case h_2 => cases dequeued
  case h_1 item rest phase waiting =>
    cases dequeued
    have later : ∀ thread pump, hub.pumps thread = some pump →
        messageIDs ((hub.taken ++ [item]).drop pump.joined) =
          messageIDs (hub.taken.drop pump.joined) ++ messageIDs [item] := by
      intro thread pump found
      rw [List.drop_append_of_le_length (gapless.joined thread pump found), messageIDs_append]
    refine ⟨?_, ?_, gapless.serves, by simp, ?_, ?_⟩
    · rw [gapless.accepted, waiting]
      simp
    · intro thread pump found
      exact Nat.le_trans (gapless.joined thread pump found) (by simp)
    · intro thread pump found
      rw [later thread pump found]
      exact (gapless.window thread pump found).trans (List.prefix_append _ _)
    · intro _ entry member pump found
      have running : hub.phase ≠ .panicked := by
        rw [phase]
        exact Phase.noConfusion
      have same := gapless.current running entry member pump found
      rw [inFlight_of_idle (by rw [phase]; rfl)] at same
      rw [later entry.2 pump found, ← same, List.append_assoc]
      rfl

theorem Gapless.fanOut (gapless : hub.Gapless) {item : Item}
    (rendering : hub.phase = .rendering item) (fragment : ByteString)
    (shown : List ByteString) : (hub.fanOut item fragment shown).Gapless := by
  refine gapless.phase rfl rfl rfl gapless.accepted ?_ fun _ => ⟨?_, fun entry member => ?_⟩
  · intro other text texts todo phase
    cases phase
    exact fun _ => id
  · rw [rendering]
    exact Phase.noConfusion
  · simp [inFlight, Hub.fanOut, rendering, member]

theorem Gapless.renderMessage (gapless : hub.Gapless) {item : Item}
    (rendering : hub.phase = .rendering item) (surroundings : Surroundings)
    (message : Client.Broadcast) : (hub.renderMessage surroundings item message).Gapless := by
  unfold Hub.renderMessage
  dsimp only
  split
  · have rest : Hub.Gapless { hub with
        lastMsgUser := message.userID
        lastMsgTime := message.timestamp
        lastMsgDate := currentDate surroundings.location message.timestamp } :=
      gapless.phase rfl rfl rfl gapless.accepted gapless.todo fun running =>
        ⟨running, fun _ _ => rfl⟩
    exact rest.fanOut rendering _ _
  · exact gapless.phase rfl rfl rfl gapless.accepted (by simp) fun panicked => absurd rfl panicked

theorem Gapless.render (gapless : hub.Gapless) {surroundings : Surroundings}
    (rendered : hub.render surroundings = some after) : after.Gapless := by
  unfold Hub.render at rendered
  split at rendered
  case h_2 => cases rendered
  case h_1 item rendering =>
    split at rendered
    · split at rendered <;> cases rendered
      · exact gapless.fanOut rendering _ _
      · exact gapless.renderMessage rendering surroundings _
    · cases rendered
      exact gapless.fanOut rendering _ _

theorem queuedIDs_offer {pump : Pump} {frame : Frame}
    (room : frame.item.messageID.isNone = true ∨ pump.send.length < channelCapacity) :
    (pump.offer frame).queuedIDs = pump.queuedIDs ++ messageIDs [frame.item] := by
  rw [Pump.queuedIDs, Pump.queued_offer, List.map_append, messageIDs_append]
  congr 1
  by_cases kept : pump.send.length < channelCapacity
  · rw [if_pos kept]
    rfl
  · have event : frame.item.messageID = none :=
      Option.isNone_iff_eq_none.mp (room.resolve_right kept)
    rw [if_neg kept]
    simp [messageIDs, event]

theorem Orderly.eq_of_thread (orderly : hub.Orderly) {one two : Entry}
    (first : one ∈ hub.subscribers) (second : two ∈ hub.subscribers) (same : one.2 = two.2) :
    one = two :=
  List.inj_on_of_nodup_map orderly.subscribers first second same

/-- `Run` gives an entry that is in the map the item it has in hand. -/
structure Gives (hub after : Hub) (entry : Entry) (item : Item) (todo : List Entry)
    (pump new : Pump) : Prop where
  before : ∃ fragment shown, hub.phase = .fanningOut item fragment shown todo
  phase : ∃ fragment shown, after.phase = .fanningOut item fragment shown (todo.erase entry)
  waiting : entry ∈ todo
  found : hub.pumps entry.2 = some pump
  subscriber : new.subscriber = pump.subscriber
  joined : new.joined = pump.joined
  serving : new.phase = pump.phase
  queued : new.queuedIDs = pump.queuedIDs ++ messageIDs [item]
  pumps : after.pumps = Function.update hub.pumps entry.2 (some new)
  subscribers : after.subscribers = hub.subscribers
  taken : after.taken = hub.taken
  accepted : after.accepted = hub.accepted
  broadcast : after.broadcast = hub.broadcast

theorem gives_of_offer (gapless : hub.Gapless) {entry : Entry}
    (roomy : hub.roomy (.offer entry) = true) (offered : hub.offer entry = some after) :
    ∃ item todo pump new, hub.Gives after entry item todo pump new := by
  unfold Hub.offer at offered
  split at offered
  case h_2 => cases offered
  case h_1 item fragment shown todo pump phase found =>
    split at offered
    case isFalse => cases offered
    case isTrue member =>
      obtain ⟨same, there, -, served⟩ :=
        gapless.serves entry (gapless.todo item fragment shown todo phase member)
      rw [found, Option.some.injEq] at there
      subst there
      have open' : pump.phase ≠ .exited := by
        rcases served with phase | phase <;> rw [phase] <;> exact PumpPhase.noConfusion
      have room : item.messageID.isNone = true ∨ pump.send.length < channelCapacity := by
        simpa [Hub.roomy, phase, found] using roomy
      dsimp only at offered
      rw [if_neg open', Option.some.injEq] at offered
      subst offered
      let frame : Frame := ⟨if pump.subscriber.renderHTML then fragment else item.data, item,
        hub.taken.length - 1, shown⟩
      exact ⟨item, todo, pump, pump.offer frame, ⟨fragment, shown, phase⟩,
        ⟨fragment, shown, rfl⟩, member, found, rfl, rfl, rfl, queuedIDs_offer room, rfl, rfl,
        rfl, rfl, rfl⟩

section Gives

variable {entry : Entry} {item : Item} {todo : List Entry} {pump new : Pump}

theorem Gives.find (gives : hub.Gives after entry item todo pump new) {thread : Nat}
    {current : Pump} (present : after.pumps thread = some current) :
    (thread = entry.2 ∧ current = new) ∨
      thread ≠ entry.2 ∧ hub.pumps thread = some current := by
  rw [gives.pumps] at present
  by_cases equal : thread = entry.2
  · rw [equal, Function.update_self, Option.some.injEq] at present
    exact .inl ⟨equal, present.symm⟩
  · rw [Function.update_of_ne equal] at present
    exact .inr ⟨equal, present⟩

theorem Gives.running (gives : hub.Gives after entry item todo pump new) :
    hub.phase ≠ .panicked := by
  obtain ⟨fragment, shown, phase⟩ := gives.before
  rw [phase]
  exact Phase.noConfusion

theorem Gives.inFlight_before (gives : hub.Gives after entry item todo pump new) (other : Entry) :
    hub.inFlight other = if other ∈ todo then [item] else [] := by
  obtain ⟨fragment, shown, phase⟩ := gives.before
  rw [inFlight, phase]

theorem Gives.inFlight_after (gives : hub.Gives after entry item todo pump new) (other : Entry) :
    after.inFlight other = if other ∈ todo.erase entry then [item] else [] := by
  obtain ⟨fragment, shown, phase⟩ := gives.phase
  rw [inFlight, phase]

theorem Gives.inside (gives : hub.Gives after entry item todo pump new)
    (gapless : hub.Gapless) : todo ⊆ hub.subscribers := by
  obtain ⟨fragment, shown, phase⟩ := gives.before
  exact gapless.todo item fragment shown todo phase

theorem Gives.nodup (gives : hub.Gives after entry item todo pump new)
    (orderly : hub.Orderly) : todo.Nodup := by
  obtain ⟨fragment, shown, phase⟩ := gives.before
  exact (orderly.todo item fragment shown todo phase).of_map Prod.snd

theorem Gives.caughtUp (gives : hub.Gives after entry item todo pump new)
    (gapless : hub.Gapless) :
    new.queuedIDs = messageIDs (hub.taken.drop new.joined) := by
  have given := gapless.current gives.running entry (gives.inside gapless gives.waiting) pump
    gives.found
  rw [gives.inFlight_before, if_pos gives.waiting] at given
  rw [gives.queued, given, gives.joined]

end Gives

theorem Gapless.offer (gapless : hub.Gapless) (orderly : hub.Orderly) {entry : Entry}
    (roomy : hub.roomy (.offer entry) = true) (offered : hub.offer entry = some after) :
    after.Gapless := by
  obtain ⟨item, todo, pump, new, gives⟩ := gives_of_offer gapless roomy offered
  have inside := gives.inside gapless
  refine ⟨?_, ?_, ?_, ?_, ?_, ?_⟩
  · rw [gives.accepted, gives.taken, gives.broadcast]
    exact gapless.accepted
  · intro thread current present
    rw [gives.taken]
    rcases gives.find present with ⟨-, rfl⟩ | ⟨-, old⟩
    · rw [gives.joined]
      exact gapless.joined entry.2 pump gives.found
    · exact gapless.joined thread current old
  · intro other known
    rw [gives.subscribers] at known
    obtain ⟨earlier, there, clientID, served⟩ := gapless.serves other known
    rw [gives.pumps]
    by_cases equal : other.2 = entry.2
    · rw [equal, gives.found, Option.some.injEq] at there
      subst there
      rw [equal, Function.update_self]
      exact ⟨new, rfl, by rw [gives.subscriber, clientID], by rw [gives.serving]; exact served⟩
    · exact ⟨earlier, (Function.update_of_ne equal _ hub.pumps).trans there, clientID, served⟩
  · intro other text texts rest fanningOut
    obtain ⟨fragment, shown, phase⟩ := gives.phase
    rw [phase] at fanningOut
    cases fanningOut
    rw [gives.subscribers]
    exact fun _ left => inside (List.mem_of_mem_erase left)
  · intro thread current present
    rw [gives.taken]
    rcases gives.find present with ⟨-, rfl⟩ | ⟨-, old⟩
    · rw [gives.caughtUp gapless]
    · exact gapless.window thread current old
  · intro _ other known current present
    rw [gives.subscribers] at known
    rw [gives.taken, gives.inFlight_after]
    rcases gives.find present with ⟨equal, rfl⟩ | ⟨different, old⟩
    · have alike : other = entry :=
        orderly.eq_of_thread known (inside gives.waiting) equal
      rw [alike, if_neg (gives.nodup orderly).not_mem_erase, gives.caughtUp gapless]
      simp [messageIDs]
    · have apart : other ≠ entry := fun equal => different (congrArg Prod.snd equal)
      simp only [List.mem_erase_of_ne apart]
      rw [← gives.inFlight_before]
      exact gapless.current gives.running other known current old

theorem Gapless.setPump (gapless : hub.Gapless) {thread : Nat} {old new : Pump}
    (found : hub.pumps thread = some old) (own : Pump.Own old new)
    (serving : old.phase = .pumping ∨ old.phase = .unregistering →
      new.phase = .pumping ∨ new.phase = .unregistering) : (hub.setPump thread new).Gapless := by
  refine gapless.replace found own.subscriber own.joined own.offers rfl
    (List.Subset.refl _) ?_ rfl gapless.accepted gapless.todo fun running =>
      ⟨running, fun _ _ => rfl⟩
  intro entry member same
  obtain ⟨pump, there, -, served⟩ := gapless.serves entry member
  rw [same, found, Option.some.injEq] at there
  subst there
  exact serving served

theorem Gapless.write (gapless : hub.Gapless) {thread : Nat} {failure : Option Nat}
    (wrote : hub.write thread failure = some after) : after.Gapless := by
  unfold Hub.write at wrote
  split at wrote
  case h_2 => cases wrote
  case h_1 pump found =>
    obtain ⟨new, written, rfl⟩ := Option.map_eq_some_iff.mp wrote
    refine gapless.setPump found (Pump.own_of_write written) fun _ => ?_
    unfold Pump.write at written
    split at written
    case h_2 => cases written
    case h_1 frame rest pumping sending =>
      split at written
      · cases written
        exact .inl pumping
      · split at written <;> cases written
        exact .inr rfl

theorem Gapless.happen (gapless : hub.Gapless) (orderly : hub.Orderly)
    {surroundings : Surroundings} {event : HubEvent} (roomy : hub.roomy event = true)
    (happened : hub.happen surroundings event = some after) : after.Gapless := by
  cases event with
  | announce => exact gapless.announce happened
  | unregister thread => exact gapless.unregister happened
  | dequeue => exact gapless.dequeue happened
  | render => exact gapless.render happened
  | offer entry => exact gapless.offer orderly roomy happened
  | finish =>
      simp only [Hub.happen, finish] at happened
      split at happened
      case h_2 => cases happened
      case h_1 item fragment shown phase =>
        cases happened
        refine gapless.phase rfl rfl rfl gapless.accepted (by simp) fun _ =>
          ⟨?_, fun entry _ => ?_⟩
        · rw [phase]
          exact Phase.noConfusion
        · simp [inFlight, phase]
  | stop =>
      cases happened
      exact gapless.phase rfl rfl rfl gapless.accepted gapless.todo fun running =>
        ⟨running, fun _ _ => rfl⟩
  | exit =>
      simp only [Hub.happen, exit] at happened
      split at happened
      case h_2 => cases happened
      case h_1 phase =>
        split at happened <;> cases happened
        refine gapless.phase rfl rfl rfl gapless.accepted (by simp) fun _ =>
          ⟨?_, fun entry _ => ?_⟩
        · rw [phase]
          exact Phase.noConfusion
        · simp [inFlight, phase]
  | write thread failure => exact gapless.write happened
  | cancel thread =>
      simp only [Hub.happen, cancel] at happened
      split at happened
      case h_2 => cases happened
      case h_1 pump found =>
        split at happened <;> cases happened
        exact gapless.setPump found ⟨rfl, rfl, rfl, rfl⟩ fun _ => .inr rfl
  | close thread =>
      simp only [Hub.happen, close] at happened
      split at happened
      case h_2 => cases happened
      case h_1 pump found =>
        split at happened <;> cases happened
        next closing =>
          refine gapless.setPump found ⟨rfl, rfl, rfl, rfl⟩ fun served => ?_
          rw [closing] at served
          rcases served with impossible | impossible <;> cases impossible

theorem Orderly.act (orderly : hub.Orderly) {action : HubAction}
    (acted : hub.act action = some after) : after.Orderly := by
  cases action with
  | send sender item => exact orderly.send acted
  | register thread subscriber => exact orderly.register acted
  | happen surroundings event => exact orderly.happen acted

end Steps

end Hub

end Grunt.Server
