import Grunt.Server.Filed

/-! # The order of the live stream

Every subscriber is offered items in the order in which they were put on the
channel, whatever its client id. So the ids of the messages it is sent ascend
where those on the channel do, which is left to the order in which requests
come from saving a message to sending it.
-/

namespace Grunt.Server

open Foundation

/-- The ids of the messages that a subscriber was sent. -/
def Pump.received (pump : Pump) : List Nat := messageIDs (pump.written.map Frame.item)

/-! ## Order in the hub -/

namespace Hub

def offered (hub : Hub) (thread : Nat) : List Item :=
  match hub.pumps thread with
  | some pump => pump.offers.map fun offer => offer.frame.item
  | none => []

def ahead (hub : Hub) (thread : Nat) : List Item :=
  match hub.phase with
  | .rendering item => item :: hub.broadcast
  | .fanningOut item _ _ todo =>
      if thread ∈ todo.map Prod.snd then item :: hub.broadcast else hub.broadcast
  | _ => hub.broadcast

structure Orderly (hub : Hub) : Prop where
  items : ∀ thread,
    (hub.offered thread ++ hub.ahead thread).Sublist (hub.accepted.map Prod.snd)
  subscribers : (hub.subscribers.map Prod.snd).Nodup
  todo : ∀ item fragment shown todo, hub.phase = .fanningOut item fragment shown todo →
    (todo.map Prod.snd).Nodup
  known : ∀ entry ∈ hub.subscribers, hub.pumps entry.2 ≠ none
  piped : ∀ thread pump, hub.pumps thread = some pump → pump.Piped

theorem orderly_start : start.Orderly where
  items := fun _ => .slnil
  subscribers := List.nodup_nil
  todo := by simp [start]
  known := by simp [start]
  piped := by simp [start]

section Steps

variable {hub after : Hub}

theorem broadcast_sublist_ahead (hub : Hub) (thread : Nat) :
    hub.broadcast.Sublist (hub.ahead thread) := by
  unfold ahead
  split
  · exact List.sublist_cons_self _ _
  · split
    · exact List.sublist_cons_self _ _
    · exact .refl _
  · exact .refl _

theorem ahead_of_idle (idle : hub.phase.idle = true) (thread : Nat) :
    hub.ahead thread = hub.broadcast := by
  unfold ahead
  split <;> simp_all [Phase.idle]

theorem offered_eq_of_pumps (pumps : after.pumps = hub.pumps) (thread : Nat) :
    after.offered thread = hub.offered thread := by
  rw [offered, pumps, offered]

theorem offered_eq_of_update {thread : Nat} {old new : Pump}
    (found : hub.pumps thread = some old) (offers : new.offers = old.offers)
    (pumps : after.pumps = Function.update hub.pumps thread (some new)) (other : Nat) :
    after.offered other = hub.offered other := by
  unfold offered
  rw [pumps]
  by_cases same : other = thread
  · subst other
    rw [Function.update_self, found]
    simp only [offers]
  · rw [Function.update_of_ne same]

theorem Orderly.shrink (orderly : hub.Orderly) (continues : hub.Continues after)
    (offered : ∀ thread, after.offered thread = hub.offered thread)
    (ahead : ∀ thread, (after.ahead thread).Sublist (hub.ahead thread))
    (accepted : after.accepted = hub.accepted)
    (subscribers : after.subscribers.Sublist hub.subscribers)
    (todo : ∀ item fragment shown todo, after.phase = .fanningOut item fragment shown todo →
      (todo.map Prod.snd).Nodup)
    (known : ∀ thread, hub.pumps thread ≠ none → after.pumps thread ≠ none) :
    after.Orderly where
  items := fun thread => by
    rw [offered, accepted]
    exact ((List.Sublist.refl _).append (ahead thread)).trans (orderly.items thread)
  subscribers := orderly.subscribers.sublist (subscribers.map Prod.snd)
  todo := todo
  known := fun entry member => known _ (orderly.known entry (subscribers.subset member))
  piped := fun thread pump found => by
    obtain ⟨earlier, earlierFound, moves⟩ := continues.pumps thread pump found
    exact moves.piped (orderly.piped thread earlier earlierFound)

theorem Orderly.extend (orderly : hub.Orderly) (item : Item)
    (pumps : after.pumps = hub.pumps) (subscribers : after.subscribers = hub.subscribers)
    (ahead : ∀ thread, after.ahead thread = hub.ahead thread ++ [item])
    (accepted : after.accepted.map Prod.snd = hub.accepted.map Prod.snd ++ [item])
    (todo : ∀ item fragment shown todo, after.phase = .fanningOut item fragment shown todo →
      hub.phase = .fanningOut item fragment shown todo) : after.Orderly where
  items := fun thread => by
    rw [offered_eq_of_pumps pumps, ahead, accepted, ← List.append_assoc]
    exact (orderly.items thread).append (.refl _)
  subscribers := subscribers ▸ orderly.subscribers
  todo := fun item fragment shown rest phase =>
    orderly.todo item fragment shown rest (todo item fragment shown rest phase)
  known := by rw [subscribers, pumps]; exact orderly.known
  piped := by rw [pumps]; exact orderly.piped

theorem Orderly.send (orderly : hub.Orderly) {sender : Nat} {item : Item}
    (sent : hub.send sender item = some after) : after.Orderly := by
  unfold Hub.send at sent
  split at sent <;> cases sent
  refine orderly.extend item rfl rfl (fun thread => ?_) ?_ fun _ _ _ _ => id
  · unfold Hub.ahead accept
    dsimp only
    split
    · rfl
    · split <;> rfl
    · rfl
  · simp [accept]

theorem Orderly.announce (orderly : hub.Orderly) (announced : hub.announce = some after) :
    after.Orderly := by
  have continues := continues_of_announce announced
  unfold Hub.announce at announced
  split at announced
  case h_2 => cases announced
  case h_1 event phase =>
    have before : ∀ thread, hub.ahead thread = hub.broadcast :=
      ahead_of_idle (by rw [phase]; rfl)
    dsimp only at announced
    split at announced <;> cases announced
    · refine orderly.extend (.ofEvent event) rfl rfl (fun thread => ?_) ?_ (by simp [accept])
      · rw [before]
        rfl
      · simp [accept]
    · refine orderly.shrink continues (fun _ => rfl) (fun thread => ?_) rfl (.refl _)
        (by simp) fun _ => id
      rw [before]
      exact .refl _

theorem Orderly.unregister (orderly : hub.Orderly) {thread : Nat}
    (unregistered : hub.unregister thread = some after) : after.Orderly := by
  have continues := continues_of_unregister unregistered
  unfold Hub.unregister at unregistered
  split at unregistered
  case h_2 => cases unregistered
  case h_1 pump phase found =>
    split at unregistered <;> cases unregistered
    refine orderly.shrink continues (fun other => ?_) (fun other => ?_) rfl
      List.filter_sublist ?_ ?_
    · have offers : ({ pump with phase := .closing, left := some hub.taken.length } :
          Pump).offers = pump.offers := rfl
      exact offered_eq_of_update found offers rfl other
    · rw [ahead_of_idle idle_leaving]
      exact broadcast_sublist_ahead hub other
    · intro item fragment shown todo fanningOut
      have leaves : hub.leaving pump.subscriber = .fanningOut item fragment shown todo :=
        fanningOut
      have idle : (hub.leaving pump.subscriber).idle = true := idle_leaving
      rw [leaves] at idle
      cases idle
    · intro other present
      by_cases same : other = thread
      · simp [setPump, same]
      · simpa [setPump, Function.update_of_ne same] using present

theorem Orderly.dequeue (orderly : hub.Orderly) (dequeued : hub.dequeue = some after) :
    after.Orderly := by
  have continues := continues_of_dequeue dequeued
  unfold Hub.dequeue at dequeued
  split at dequeued
  case h_2 => cases dequeued
  case h_1 item rest phase waiting =>
    cases dequeued
    refine orderly.shrink continues (fun _ => rfl) (fun thread => ?_) rfl (.refl _)
      (by simp) fun _ => id
    have before : hub.ahead thread = hub.broadcast := ahead_of_idle (by rw [phase]; rfl) thread
    rw [before, waiting]
    exact .refl _

theorem Orderly.fanOut (orderly : hub.Orderly) {item : Item}
    (rendering : hub.phase = .rendering item) (fragment : ByteString)
    (shown : List ByteString) : (hub.fanOut item fragment shown).Orderly := by
  refine orderly.shrink (.of_pumps_eq rfl rfl) (fun _ => rfl) (fun thread => ?_) rfl (.refl _)
    (fun _ _ _ todo phase => ?_) fun _ => id
  · have before : hub.ahead thread = item :: hub.broadcast := by
      unfold Hub.ahead
      rw [rendering]
    rw [before]
    simp only [Hub.ahead, Hub.fanOut]
    split
    · exact .refl _
    · exact List.sublist_cons_self _ _
  · cases phase
    exact orderly.subscribers

theorem Orderly.renderMessage (orderly : hub.Orderly) {item : Item}
    (rendering : hub.phase = .rendering item) (surroundings : Surroundings)
    (message : Client.Broadcast) : (hub.renderMessage surroundings item message).Orderly := by
  unfold Hub.renderMessage
  dsimp only
  split
  · have rest : Hub.Orderly { hub with
        lastMsgUser := message.userID
        lastMsgTime := message.timestamp
        lastMsgDate := currentDate surroundings.location message.timestamp } :=
      ⟨orderly.items, orderly.subscribers, orderly.todo, orderly.known, orderly.piped⟩
    exact rest.fanOut rendering _ _
  · exact orderly.shrink (.of_pumps_eq rfl rfl) (fun _ => rfl)
      (fun thread => broadcast_sublist_ahead hub thread) rfl (.refl _) (by simp) fun _ => id

theorem Orderly.render (orderly : hub.Orderly) {surroundings : Surroundings}
    (rendered : hub.render surroundings = some after) : after.Orderly := by
  unfold Hub.render at rendered
  split at rendered
  case h_2 => cases rendered
  case h_1 item rendering =>
    split at rendered
    · split at rendered <;> cases rendered
      · exact orderly.fanOut rendering _ _
      · exact orderly.renderMessage rendering surroundings _
    · cases rendered
      exact orderly.fanOut rendering _ _

theorem not_mem_erase_threads {todo : List Entry} {entry : Entry}
    (nodup : (todo.map Prod.snd).Nodup) (member : entry ∈ todo) :
    entry.2 ∉ (todo.erase entry).map Prod.snd := by
  intro inside
  obtain ⟨other, otherMem, same⟩ := List.mem_map.mp inside
  have equal : other = entry :=
    List.inj_on_of_nodup_map nodup (List.mem_of_mem_erase otherMem) member same
  subst equal
  exact (nodup.of_map Prod.snd).not_mem_erase otherMem

theorem Orderly.offer (orderly : hub.Orderly) {entry : Entry}
    (offered : hub.offer entry = some after) : after.Orderly := by
  have continues := continues_of_offer offered
  unfold Hub.offer at offered
  split at offered
  case h_2 => cases offered
  case h_1 item fragment shown todo pump phase found =>
    split at offered
    case isFalse => cases offered
    case isTrue member =>
      have nodup := orderly.todo item fragment shown todo phase
      have erased : ((todo.erase entry).map Prod.snd).Sublist (todo.map Prod.snd) :=
        List.erase_sublist.map Prod.snd
      have rest : ∀ thread, (if thread ∈ (todo.erase entry).map Prod.snd then
          item :: hub.broadcast else hub.broadcast).Sublist (hub.ahead thread) := by
        intro thread
        unfold Hub.ahead
        rw [phase]
        dsimp only
        split
        · next inside => rw [if_pos (erased.subset inside)]
        · split
          · exact List.sublist_cons_self _ _
          · exact .refl _
      have todoNodup : ((todo.erase entry).map Prod.snd).Nodup := nodup.sublist erased
      dsimp only at offered
      split at offered <;> cases offered
      · refine orderly.shrink continues (fun _ => rfl) rest rfl (.refl _) ?_ fun _ => id
        intro _ _ _ _ fanningOut
        cases fanningOut
        exact todoNodup
      · refine ⟨fun thread => ?_, orderly.subscribers, ?_, ?_, ?_⟩
        · by_cases same : thread = entry.2
          · have before := orderly.items thread
            have inside : thread ∈ todo.map Prod.snd :=
              same ▸ List.mem_map_of_mem member
            have outside : thread ∉ (todo.erase entry).map Prod.snd :=
              same ▸ not_mem_erase_threads nodup member
            subst same
            simp only [Hub.offered, found, Hub.ahead, phase, inside, if_true] at before
            simp only [Hub.offered, Hub.ahead, setPump, Function.update_self, Pump.offer,
              outside, if_false, List.map_append, List.map_cons, List.map_nil,
              List.append_assoc, List.singleton_append]
            exact before
          · have before := orderly.items thread
            refine List.Sublist.trans ?_ before
            simp only [Hub.offered, setPump, Function.update_of_ne same]
            exact (List.Sublist.refl _).append (rest thread)
        · intro _ _ _ _ fanningOut
          cases fanningOut
          exact todoNodup
        · intro other inside
          by_cases same : other.2 = entry.2
          · simp [setPump, same]
          · simpa [setPump, Function.update_of_ne same] using orderly.known other inside
        · intro thread new present
          obtain ⟨earlier, earlierFound, moves⟩ := continues.pumps thread new present
          exact moves.piped (orderly.piped thread earlier earlierFound)

theorem Orderly.register (orderly : hub.Orderly) {thread : Nat} {subscriber : Subscriber}
    (registered : hub.register thread subscriber = some after) : after.Orderly := by
  have effect := effect_of_register registered
  unfold Hub.register at registered
  split at registered
  case h_2 => cases registered
  case h_1 phase free =>
    cases registered
    have before : ∀ other, hub.ahead other = hub.broadcast :=
      ahead_of_idle (by rw [phase]; rfl)
    refine ⟨fun other => ?_, ?_, by simp, ?_, ?_⟩
    · have items := orderly.items other
      rw [before] at items
      by_cases same : other = thread
      · subst other
        simp only [Hub.offered, free] at items
        simpa [Hub.offered, Hub.ahead, setPump, Pump.start] using items
      · simpa [Hub.offered, Hub.ahead, setPump, Function.update_of_ne same] using items
    · refine List.nodup_cons.mpr ⟨fun inside => ?_, ?_⟩
      · obtain ⟨entry, member, same⟩ := List.mem_map.mp inside
        have known := orderly.known entry (List.mem_filter.mp member).1
        rw [show entry.2 = thread from same] at known
        exact known free
      · exact orderly.subscribers.sublist (List.filter_sublist.map Prod.snd)
    · intro entry inside
      by_cases same : entry.2 = thread
      · simp [setPump, same]
      · rcases List.mem_cons.mp inside with rfl | old
        · exact absurd rfl same
        · simpa [setPump, Function.update_of_ne same] using
            orderly.known entry (List.mem_filter.mp old).1
    · intro other pump present
      by_cases same : other = thread
      · subst other
        rw [effect.2, Function.update_self, Option.some.injEq] at present
        exact present ▸ Pump.piped_start subscriber _
      · rw [effect.2, Function.update_of_ne same] at present
        exact orderly.piped other pump present

theorem Orderly.setPump (orderly : hub.Orderly) {thread : Nat} {old new : Pump}
    (found : hub.pumps thread = some old) (moves : old.Moves hub thread new)
    (offers : new.offers = old.offers) : (hub.setPump thread new).Orderly := by
  refine orderly.shrink (.of_setPump found moves rfl rfl)
    (offered_eq_of_update found offers rfl) (fun _ => .refl _) rfl (.refl _) orderly.todo ?_
  intro other present
  by_cases same : other = thread
  · simp [Hub.setPump, same]
  · simpa [Hub.setPump, Function.update_of_ne same] using present

theorem Orderly.happen (orderly : hub.Orderly) {surroundings : Surroundings}
    {event : HubEvent} (happened : hub.happen surroundings event = some after) :
    after.Orderly := by
  cases event with
  | announce => exact orderly.announce happened
  | unregister thread => exact orderly.unregister happened
  | dequeue => exact orderly.dequeue happened
  | render => exact orderly.render happened
  | offer entry => exact orderly.offer happened
  | finish =>
      have continues := continues_of_happen happened
      simp only [Hub.happen, finish] at happened
      split at happened <;> cases happened
      exact orderly.shrink continues (fun _ => rfl) (fun thread =>
        broadcast_sublist_ahead hub thread) rfl (.refl _) (by simp) fun _ => id
  | stop =>
      cases happened
      exact ⟨orderly.items, orderly.subscribers, orderly.todo, orderly.known, orderly.piped⟩
  | exit =>
      have continues := continues_of_happen happened
      simp only [Hub.happen, exit] at happened
      split at happened
      case h_2 => cases happened
      case h_1 =>
        split at happened <;> cases happened
        exact orderly.shrink continues (fun _ => rfl) (fun thread =>
          broadcast_sublist_ahead hub thread) rfl (.refl _) (by simp) fun _ => id
  | write | cancel | close =>
      obtain ⟨thread, old, new, found, moves, offers, rfl⟩ := pump_of_happen rfl happened
      exact orderly.setPump found moves offers

end Steps

end Hub

/-- A message is only sent while no request is about to send an earlier one. -/
def inTurn (config : ServerConfig) : ServerEvent → Bool
  | .step thread _ =>
      match pending config thread with
      | some id => (config.scene.history.map Performed.thread).all fun other =>
          (pending config other).all fun waiting => id ≤ waiting
      | none => true
  | _ => true

/-! ## The invariant of a run -/

structure Ascending (platform : Platform) (config : ServerConfig) : Prop where
  filed : Filed platform config
  sent : (sentIDs config).Pairwise (· < ·)
  below : ∀ thread id, pending config thread = some id → ∀ earlier ∈ sentIDs config,
    earlier < id

section Step

variable {platform : Platform} {config after : ServerConfig}

theorem least_of_inTurn (saving : Saving config) {thread : Nat} {choice : Storage.Choice}
    (turn : inTurn config (.step thread choice) = true) {id : Nat}
    (waited : pending config thread = some id) {other later : Nat}
    (waiting : pending config other = some later) : id ≤ later := by
  have all : ((config.scene.history.map Performed.thread).all fun other =>
      (pending config other).all fun waiting => id ≤ waiting) = true := by
    simpa only [inTurn, waited] using turn
  have least := List.all_eq_true.mp all other (mem_history_of_pending saving waiting)
  rw [waiting] at least
  exact of_decide_eq_true least

theorem Ascending.next (ascending : Ascending platform config) {event : ServerEvent}
    (turn : inTurn config event = true) (taken : next platform config event = some after) :
    Ascending platform after := by
  have filed := ascending.filed.next taken
  cases posts_of_next ascending.filed.saving taken with
  | saves thread sent waits =>
      refine ⟨filed, ?_, ?_⟩
      · rw [sent]
        exact ascending.sent
      · intro other id waiting earlier member
        rw [sent] at member
        rcases waits other id waiting with old | ⟨-, new, -⟩
        · exact ascending.below other id old earlier member
        · exact Nat.lt_of_le_of_lt (ascending.filed.sentLast member) new
  | @sends thread _ _ posted waited sent waits =>
      refine ⟨filed, ?_, ?_⟩
      · rw [sent, List.pairwise_append]
        refine ⟨ascending.sent, ?_, ?_⟩
        · cases posted with
          | none => exact .nil
          | some id => exact List.pairwise_singleton _ id
        · intro earlier member id new
          rw [Option.mem_toList] at new
          exact ascending.below thread id (waited.trans new) earlier member
      · intro other later waiting earlier member
        rcases waits other later waiting with ⟨different, old⟩
        rw [sent, List.mem_append, Option.mem_toList] at member
        rcases member with already | own
        · exact ascending.below other later old earlier already
        · have turned : pending config thread = some earlier := waited.trans own
          apply Nat.lt_of_le_of_ne (least_of_inTurn ascending.filed.saving turn turned old)
          intro same
          rw [← same] at old
          exact different (ascending.filed.apart other thread earlier old turned)
  | restarts sent waits =>
      refine ⟨filed, ?_, ?_⟩
      · rw [sent]
        exact .nil
      · intro other id waiting
        cases (waits other).symm.trans waiting

theorem ascending_start (tables : Storage.Tables) (clock : Instant) :
    Ascending platform (start tables clock) where
  filed := filed_start tables clock
  sent := .nil
  below := nofun

theorem received_sublist {pump : Pump} (piped : pump.Piped) :
    pump.received.Sublist (messageIDs (pump.offers.map fun offer => offer.frame.item)) := by
  obtain ⟨lost, cut, broken⟩ := piped
  have written : pump.written.Sublist pump.queued := by
    rw [broken.queued, List.append_assoc]
    exact List.sublist_append_left _ _
  have queued : pump.queued.Sublist (pump.offers.map Offer.frame) :=
    List.filter_sublist.map Offer.frame
  have items := (written.trans queued).map Frame.item
  rw [List.map_map] at items
  exact items.filterMap Item.messageID

theorem sent_of_found (orderly : config.scene.world.hub.Orderly) {thread : Nat} {pump : Pump}
    (found : config.scene.world.hub.pumps thread = some pump) :
    (pump.received ++ messageIDs (config.scene.world.hub.ahead thread)).Sublist
      (sentIDs config) := by
  have items := (orderly.items thread).filterMap Item.messageID
  simp only [Hub.offered, found, List.filterMap_append] at items
  exact ((received_sublist (orderly.piped thread pump found)).append (.refl _)).trans items

theorem Ascending.received (ascending : Ascending platform config)
    (orderly : config.scene.world.hub.Orderly) {thread : Nat} {pump : Pump}
    (found : config.scene.world.hub.pumps thread = some pump) :
    pump.received.Pairwise (· < ·) :=
  (List.pairwise_append.mp (ascending.sent.sublist (sent_of_found orderly found))).1

end Step

end Grunt.Server
