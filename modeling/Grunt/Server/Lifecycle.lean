import Grunt.Server.Broadcasts
import Grunt.Server.HubRuns

/-! # The life of a subscriber

A subscriber is registered by its request, announced, unregistered by its pump
when this ends, announced again, and then its channel is closed. `Run` sends
only to subscribers in its map, and these have their channels open.
-/

namespace Grunt.Server

open Foundation

/-! ## What one event changes -/

def HubEvent.isUneventful : HubEvent → Bool
  | .announce | .unregister _ | .close _ => false
  | _ => true

namespace Pump

def membership (pump : Pump) : Subscriber × Option Nat := (pump.subscriber, pump.left)

end Pump

namespace Hub

variable {hub after : Hub}

/-- The announcement that `Run` is about to offer to its channel. -/
def pending (hub : Hub) : List Client.Event :=
  match hub.phase with
  | .announcing event => [event]
  | _ => []

def Closed (hub : Hub) (thread : Nat) : Prop :=
  ∃ pump, hub.pumps thread = some pump ∧ pump.phase = .exited

def SameMembers (hub after : Hub) : Prop :=
  ∀ thread, (after.pumps thread).map Pump.membership = (hub.pumps thread).map Pump.membership

def SameClosed (hub after : Hub) : Prop :=
  ∀ thread, after.Closed thread ↔ hub.Closed thread

theorem sameMembers_of_pumps (pumps : after.pumps = hub.pumps) : hub.SameMembers after :=
  fun thread => by rw [pumps]

theorem sameClosed_of_pumps (pumps : after.pumps = hub.pumps) : hub.SameClosed after :=
  fun thread => by rw [Closed, Closed, pumps]

theorem sameMembers_of_update {thread : Nat} {old new : Pump}
    (found : hub.pumps thread = some old)
    (pumps : after.pumps = Function.update hub.pumps thread (some new))
    (same : new.membership = old.membership) : hub.SameMembers after := by
  intro other
  rw [pumps]
  by_cases equal : other = thread
  · rw [equal, Function.update_self, found, Option.map_some, Option.map_some, same]
  · rw [Function.update_of_ne equal]

theorem exists_of_update {thread : Nat} {new : Pump}
    (pumps : after.pumps = Function.update hub.pumps thread (some new)) (other : Nat)
    (Holds : Pump → Prop) :
    (∃ pump, after.pumps other = some pump ∧ Holds pump) ↔
      if other = thread then Holds new else ∃ pump, hub.pumps other = some pump ∧ Holds pump := by
  rw [pumps]
  by_cases equal : other = thread
  · rw [equal, Function.update_self, if_pos rfl]
    constructor
    · intro present
      rcases present with ⟨pump, same, holds⟩
      cases same
      exact holds
    · intro holds
      exact ⟨new, rfl, holds⟩
  · rw [Function.update_of_ne equal, if_neg equal]

theorem sameClosed_of_update {thread : Nat} {old new : Pump}
    (found : hub.pumps thread = some old)
    (pumps : after.pumps = Function.update hub.pumps thread (some new))
    (same : new.phase = .exited ↔ old.phase = .exited) : hub.SameClosed after := by
  intro other
  unfold Closed
  rw [exists_of_update pumps]
  split
  case isTrue equal =>
    rw [equal, same, found]
    simp
  case isFalse => exact Iff.rfl

/-- What an event does to the subscribers, to the closed channels and to the
announcement that is due. -/
inductive Turns (hub : Hub) : HubEvent → Hub → Prop
  | announces {after : Hub} : hub.SameMembers after → hub.SameClosed after →
      after.pending = [] → Turns hub .announce after
  | goesOn {event : HubEvent} {after : Hub} : event.isUneventful = true →
      hub.SameMembers after → hub.SameClosed after → after.pending = hub.pending →
      Turns hub event after
  | unregisters {thread : Nat} {pump : Pump} {after : Hub} : hub.phase = .selecting →
      hub.pumps thread = some pump → pump.phase = .unregistering →
      after.pumps = Function.update hub.pumps thread
        (some { pump with phase := .closing, left := some hub.taken.length }) →
      after.phase = hub.leaving pump.subscriber → Turns hub (.unregister thread) after
  | closes {thread : Nat} {pump : Pump} {after : Hub} :
      hub.pumps thread = some pump → pump.phase = .closing →
      after.pumps = Function.update hub.pumps thread (some { pump with phase := .exited }) →
      after.pending = hub.pending → Turns hub (.close thread) after

theorem turns_of_pumps {event : HubEvent} (uneventful : event.isUneventful = true)
    (pumps : after.pumps = hub.pumps) (pending : after.pending = hub.pending) :
    hub.Turns event after :=
  .goesOn uneventful (sameMembers_of_pumps pumps) (sameClosed_of_pumps pumps) pending

theorem turns_of_update {event : HubEvent} (uneventful : event.isUneventful = true)
    {thread : Nat} {old new : Pump} (found : hub.pumps thread = some old)
    (pumps : after.pumps = Function.update hub.pumps thread (some new))
    (members : new.membership = old.membership)
    (closed : new.phase = .exited ↔ old.phase = .exited)
    (pending : after.pending = hub.pending) : hub.Turns event after :=
  .goesOn uneventful (sameMembers_of_update found pumps members)
    (sameClosed_of_update found pumps closed) pending

theorem turns_of_render {surroundings : Surroundings}
    (rendered : hub.render surroundings = some after) : hub.Turns .render after := by
  unfold render at rendered
  split at rendered
  case h_2 => cases rendered
  case h_1 item phase =>
    have quiet : hub.pending = [] := by simp only [pending, phase]
    split at rendered
    case isFalse =>
      cases rendered
      exact turns_of_pumps rfl rfl quiet.symm
    case isTrue =>
      split at rendered
      case h_1 =>
        cases rendered
        exact turns_of_pumps rfl rfl quiet.symm
      case h_2 =>
        cases rendered
        unfold renderMessage
        dsimp only
        split
        · exact turns_of_pumps rfl rfl quiet.symm
        · exact turns_of_pumps rfl rfl quiet.symm

theorem turns_of_offer {entry : Entry} (offered : hub.offer entry = some after) :
    hub.Turns (.offer entry) after := by
  unfold offer at offered
  split at offered
  case h_2 => cases offered
  case h_1 item fragment shown todo pump phase found =>
    have quiet : hub.pending = [] := by simp only [pending, phase]
    split at offered
    case isFalse => cases offered
    case isTrue =>
      dsimp only at offered
      split at offered
      case isTrue =>
        cases offered
        exact turns_of_pumps rfl rfl quiet.symm
      case isFalse =>
        cases offered
        exact turns_of_update rfl found rfl rfl Iff.rfl quiet.symm

theorem turns_of_write {thread : Nat} {failure : Option Nat}
    (wrote : hub.write thread failure = some after) :
    hub.Turns (.write thread failure) after := by
  unfold write at wrote
  split at wrote
  case h_2 => cases wrote
  case h_1 pump found =>
    rcases Option.map_eq_some_iff.mp wrote with ⟨new, written, rfl⟩
    unfold Pump.write at written
    split at written
    case h_2 => cases written
    case h_1 frame rest pumping send =>
      split at written
      case h_1 =>
        cases written
        exact turns_of_update rfl found rfl rfl Iff.rfl rfl
      case h_2 =>
        split at written <;> cases written
        exact turns_of_update rfl found rfl rfl (by simp [pumping]) rfl

theorem turns_of_happen {surroundings : Surroundings} {event : HubEvent}
    (happened : hub.happen surroundings event = some after) : hub.Turns event after := by
  cases event with
  | announce =>
      simp only [happen, announce] at happened
      split at happened
      case h_2 => cases happened
      case h_1 event phase =>
        split at happened <;> cases happened <;>
          exact .announces (sameMembers_of_pumps rfl) (sameClosed_of_pumps rfl) rfl
  | unregister thread =>
      simp only [happen, unregister] at happened
      split at happened
      case h_2 => cases happened
      case h_1 pump phase found =>
        split at happened <;> cases happened
        next waiting => exact .unregisters phase found waiting rfl rfl
  | dequeue =>
      simp only [happen, dequeue] at happened
      split at happened <;> cases happened
      next phase _ => exact turns_of_pumps rfl rfl (by simp [pending, phase])
  | render => exact turns_of_render happened
  | offer entry => exact turns_of_offer happened
  | finish =>
      simp only [happen, finish] at happened
      split at happened <;> cases happened
      next phase => exact turns_of_pumps rfl rfl (by simp [pending, phase])
  | stop =>
      cases happened
      exact turns_of_pumps rfl rfl rfl
  | exit =>
      simp only [happen, exit] at happened
      split at happened
      case h_2 => cases happened
      case h_1 phase =>
        split at happened <;> cases happened
        exact turns_of_pumps rfl rfl (by simp [pending, phase])
  | write thread failure => exact turns_of_write happened
  | cancel thread =>
      simp only [happen, cancel] at happened
      split at happened
      case h_2 => cases happened
      case h_1 pump found =>
        split at happened <;> cases happened
        next pumping => exact turns_of_update rfl found rfl rfl (by simp [pumping]) rfl
  | close thread =>
      simp only [happen, close] at happened
      split at happened
      case h_2 => cases happened
      case h_1 pump found =>
        split at happened <;> cases happened
        next closing => exact .closes found closing rfl rfl

end Hub

/-! ## The life of every subscriber -/

namespace Subscriber

def join (subscriber : Subscriber) : Client.Event :=
  ⟨utf8 "event", utf8 "join", subscriber.clientID, subscriber.userID⟩

def leave (subscriber : Subscriber) : Client.Event :=
  ⟨utf8 "event", utf8 "leave", subscriber.clientID, subscriber.userID⟩

end Subscriber

def announcementsOf (clientID : ByteString) (events : List Client.Event) : List Client.Event :=
  events.filter fun event => event.clientID = clientID

/-- What `Run` offers to its own channel by an action. -/
def offeredEvents (hub : Hub) : HubAction → List Client.Event
  | .happen _ .announce => hub.pending
  | _ => []

/-- Everything `Run` offered to its own channel in a run. -/
def eventsOffered (actions : List HubAction) : List Client.Event :=
  trace Hub.act offeredEvents Hub.start actions

/-- How often the channel of a request's subscriber was closed. -/
def closes (thread : Nat) (actions : List HubAction) : Nat :=
  actions.countP (HubAction.isEvent (.close thread))

/-- `Run` has processed the unregistration of a request's subscriber. -/
def Unregistered (thread : Nat) (actions : List HubAction) : Prop :=
  ∃ surroundings, .happen surroundings (.unregister thread) ∈ actions

namespace Hub

def due (pump : Pump) : List Client.Event :=
  pump.subscriber.join :: if pump.left = none then [] else [pump.subscriber.leave]

structure Lives (hub : Hub) (past : List HubAction) (offered : List Client.Event) : Prop where
  sound : hub.Sound
  registered : ∀ thread subscriber, .register thread subscriber ∈ past ↔
    ∃ pump, hub.pumps thread = some pump ∧ pump.subscriber = subscriber
  unregistered : ∀ thread, Unregistered thread past ↔
    ∃ pump, hub.pumps thread = some pump ∧ pump.left ≠ none
  closed : ∀ thread, (closes thread past = 0 ∧ ¬ hub.Closed thread) ∨
    (closes thread past = 1 ∧ hub.Closed thread)
  announced : ∀ thread pump, hub.pumps thread = some pump →
    announcementsOf pump.subscriber.clientID (offered ++ hub.pending) = due pump
  known : ∀ event ∈ offered ++ hub.pending, ∃ thread pump, hub.pumps thread = some pump ∧
    pump.subscriber.clientID = event.clientID

theorem lives_start : start.Lives [] [] where
  sound := sound_start
  registered := by simp [start]
  unregistered := by simp [start, Unregistered]
  closed := fun thread => .inl ⟨rfl, by simp [Closed, start]⟩
  announced := by simp [start]
  known := by simp [start, pending]

section Steps

variable {hub after : Hub} {past : List HubAction} {offered : List Client.Event}

theorem SameMembers.exists_iff (same : hub.SameMembers after)
    (Holds : Subscriber → Option Nat → Prop) (thread : Nat) :
    (∃ pump, after.pumps thread = some pump ∧ Holds pump.subscriber pump.left) ↔
      ∃ pump, hub.pumps thread = some pump ∧ Holds pump.subscriber pump.left := by
  have transfer : ∀ one two : Hub, (two.pumps thread).map Pump.membership =
      (one.pumps thread).map Pump.membership →
      (∃ pump, one.pumps thread = some pump ∧ Holds pump.subscriber pump.left) →
      ∃ pump, two.pumps thread = some pump ∧ Holds pump.subscriber pump.left := by
    intro one two same found
    rcases found with ⟨pump, found, holds⟩
    rw [found, Option.map_some] at same
    rcases Option.map_eq_some_iff.mp same with ⟨other, present, equal⟩
    have subscriber : other.subscriber = pump.subscriber := congrArg Prod.fst equal
    have left : other.left = pump.left := congrArg Prod.snd equal
    exact ⟨other, present, by rw [subscriber, left]; exact holds⟩
  exact ⟨transfer after hub (same thread).symm, transfer hub after (same thread)⟩

theorem SameMembers.find (same : hub.SameMembers after) {thread : Nat} {pump : Pump}
    (found : after.pumps thread = some pump) :
    ∃ earlier, hub.pumps thread = some earlier ∧ earlier.subscriber = pump.subscriber ∧
      earlier.left = pump.left := by
  have members := same thread
  rw [found, Option.map_some] at members
  rcases Option.map_eq_some_iff.mp members.symm with ⟨earlier, present, equal⟩
  exact ⟨earlier, present, congrArg Prod.fst equal, congrArg Prod.snd equal⟩

theorem unregistered_snoc (thread : Nat) (past : List HubAction) (action : HubAction) :
    Unregistered thread (past ++ [action]) ↔
      Unregistered thread past ∨ action.isEvent (.unregister thread) = true := by
  unfold Unregistered
  constructor
  · intro found
    rcases found with ⟨surroundings, member⟩
    rcases List.mem_append.mp member with earlier | now
    · exact .inl ⟨surroundings, earlier⟩
    · rw [← List.mem_singleton.mp now]
      exact .inr (decide_eq_true rfl)
  · intro found
    rcases found with ⟨surroundings, member⟩ | now
    · exact ⟨surroundings, List.mem_append_left _ member⟩
    · cases action with
      | happen surroundings event =>
          have same : event = .unregister thread := of_decide_eq_true now
          exact ⟨surroundings, List.mem_append_right _ (by rw [same]; exact List.mem_singleton_self _)⟩
      | send => cases now
      | register => cases now

theorem closes_snoc (thread : Nat) (past : List HubAction) (action : HubAction) :
    closes thread (past ++ [action]) =
      closes thread past + if action.isEvent (.close thread) then 1 else 0 := by
  unfold closes
  rw [List.countP_append, List.countP_singleton]

theorem closes_snoc_of_other {thread : Nat} {action : HubAction} (past : List HubAction)
    (other : action.isEvent (.close thread) = false) :
    closes thread (past ++ [action]) = closes thread past := by
  rw [closes_snoc, other, if_neg Bool.false_ne_true, Nat.add_zero]

theorem Lives.pass (lives : hub.Lives past offered) {action : HubAction}
    {more : List Client.Event} (sound : after.Sound)
    (noRegister : ∀ thread subscriber, action ≠ .register thread subscriber)
    (noUnregister : ∀ thread, action.isEvent (.unregister thread) = false)
    (noClose : ∀ thread, action.isEvent (.close thread) = false)
    (members : hub.SameMembers after) (closed : hub.SameClosed after)
    (events : more ++ after.pending = hub.pending) :
    after.Lives (past ++ [action]) (offered ++ more) where
  sound := sound
  registered := by
    intro thread subscriber
    rw [List.mem_append, List.mem_singleton, lives.registered thread subscriber,
      members.exists_iff (fun found _ => found = subscriber) thread]
    exact or_iff_left (Ne.symm (noRegister thread subscriber))
  unregistered := by
    intro thread
    rw [unregistered_snoc, noUnregister thread, lives.unregistered thread,
      members.exists_iff (fun _ left => left ≠ none) thread]
    simp
  closed := by
    intro thread
    rw [closes_snoc_of_other past (noClose thread), closed thread]
    exact lives.closed thread
  announced := by
    intro thread pump found
    rcases members.find found with ⟨earlier, present, subscriber, left⟩
    have announced := lives.announced thread earlier present
    rw [List.append_assoc, events]
    rw [due, ← subscriber, ← left]
    exact announced
  known := by
    intro event member
    rw [List.append_assoc, events] at member
    rcases lives.known event member with ⟨thread, pump, found, clientID⟩
    have kept := (members.exists_iff
      (fun subscriber _ => subscriber.clientID = event.clientID) thread).mpr
        ⟨pump, found, clientID⟩
    exact ⟨thread, kept⟩

theorem eq_of_update {thread other : Nat} {new pump : Pump}
    (present : Function.update hub.pumps thread (some new) other = some pump) :
    (other = thread ∧ pump = new) ∨ (other ≠ thread ∧ hub.pumps other = some pump) := by
  by_cases equal : other = thread
  · rw [equal, Function.update_self, Option.some.injEq] at present
    exact .inl ⟨equal, present.symm⟩
  · rw [Function.update_of_ne equal] at present
    exact .inr ⟨equal, present⟩

theorem announcementsOf_append (clientID : ByteString) (first second : List Client.Event) :
    announcementsOf clientID (first ++ second) =
      announcementsOf clientID first ++ announcementsOf clientID second :=
  List.filter_append first second

theorem announcementsOf_other {clientID : ByteString} {events : List Client.Event}
    (other : ∀ event ∈ events, event.clientID ≠ clientID) :
    announcementsOf clientID events = [] :=
  List.filter_eq_nil_iff.mpr fun event member same =>
    other event member (of_decide_eq_true same)

structure Comes (hub after : Hub) (thread : Nat) (subscriber : Subscriber) : Prop where
  fresh : ∀ other pump, hub.pumps other = some pump →
    pump.subscriber.clientID ≠ subscriber.clientID
  free : hub.pumps thread = none
  quiet : hub.pending = []
  joins : after.pending = [subscriber.join]
  pumps : after.pumps = Function.update hub.pumps thread
    (some (Pump.start subscriber hub.taken.length))

theorem comes_of_register {thread : Nat} {subscriber : Subscriber}
    (fresh : ∀ other pump, hub.pumps other = some pump →
      pump.subscriber.clientID ≠ subscriber.clientID)
    (registered : hub.register thread subscriber = some after) :
    hub.Comes after thread subscriber := by
  have pumps := (effect_of_register registered).2
  unfold Hub.register at registered
  split at registered <;> cases registered
  next phase free => exact ⟨fresh, free, by simp only [pending, phase], rfl, pumps⟩

section Comes

variable {thread : Nat} {subscriber : Subscriber}

theorem Comes.vacant (comes : hub.Comes after thread subscriber) (Holds : Pump → Prop) :
    ¬ ∃ pump, hub.pumps thread = some pump ∧ Holds pump := by
  rintro ⟨pump, found, -⟩
  rw [comes.free] at found
  cases found

theorem Comes.announced (comes : hub.Comes after thread subscriber)
    (lives : hub.Lives past offered) (other : Nat) (pump : Pump)
    (found : after.pumps other = some pump) :
    announcementsOf pump.subscriber.clientID (offered ++ after.pending) = due pump := by
  have earlier : offered = offered ++ hub.pending := by rw [comes.quiet, List.append_nil]
  rw [comes.joins, announcementsOf_append]
  rw [comes.pumps] at found
  rcases eq_of_update found with ⟨rfl, rfl⟩ | ⟨-, present⟩
  · have others : ∀ event ∈ offered, event.clientID ≠ subscriber.clientID := by
      intro event member
      rw [earlier] at member
      rcases lives.known event member with ⟨another, pump, known, same⟩
      rw [← same]
      exact comes.fresh another pump known
    change announcementsOf subscriber.clientID offered ++
      announcementsOf subscriber.clientID [subscriber.join] = [subscriber.join]
    rw [announcementsOf_other others, announcementsOf]
    simp [Subscriber.join]
  · have others : ∀ event ∈ [subscriber.join],
        event.clientID ≠ pump.subscriber.clientID := by
      intro event member
      rw [List.mem_singleton.mp member]
      exact (comes.fresh other pump present).symm
    rw [announcementsOf_other others, List.append_nil, earlier]
    exact lives.announced other pump present

theorem Comes.known (comes : hub.Comes after thread subscriber)
    (lives : hub.Lives past offered) {event : Client.Event}
    (member : event ∈ offered ++ after.pending) :
    ∃ thread pump, after.pumps thread = some pump ∧
      pump.subscriber.clientID = event.clientID := by
  have earlier : offered = offered ++ hub.pending := by rw [comes.quiet, List.append_nil]
  rw [comes.joins] at member
  rw [comes.pumps]
  rcases List.mem_append.mp member with before | now
  · rw [earlier] at before
    rcases lives.known event before with ⟨other, pump, present, same⟩
    have different : other ≠ thread := by
      intro equal
      rw [equal, comes.free] at present
      cases present
    exact ⟨other, pump, (Function.update_of_ne different _ _).trans present, same⟩
  · rw [List.mem_singleton.mp now]
    exact ⟨thread, _, Function.update_self thread _ hub.pumps, rfl⟩

end Comes

theorem Lives.register (lives : hub.Lives past offered) {thread : Nat}
    {subscriber : Subscriber}
    (fresh : ∀ other pump, hub.pumps other = some pump →
      pump.subscriber.clientID ≠ subscriber.clientID)
    (registered : hub.register thread subscriber = some after) :
    after.Lives (past ++ [.register thread subscriber]) offered := by
  have comes := comes_of_register fresh registered
  constructor
  case sound => exact lives.sound.register fresh registered
  case registered =>
    intro other another
    rw [List.mem_append, List.mem_singleton, lives.registered other another,
      exists_of_update comes.pumps]
    split
    case isTrue equal =>
      rw [equal]
      constructor
      · intro known
        rcases known with present | now
        · exact absurd present (comes.vacant _)
        · cases now
          rfl
      · intro same
        exact .inr (by rw [← same]; rfl)
    case isFalse different =>
      apply or_iff_left
      intro now
      cases now
      exact different rfl
  case unregistered =>
    intro other
    rw [unregistered_snoc, lives.unregistered other, exists_of_update comes.pumps]
    split
    case isTrue equal =>
      rw [equal]
      exact iff_of_false (not_or.mpr ⟨comes.vacant _, Bool.false_ne_true⟩) fun left => left rfl
    case isFalse => exact or_iff_left Bool.false_ne_true
  case closed =>
    intro other
    unfold Closed
    rw [closes_snoc_of_other past rfl, exists_of_update comes.pumps]
    split
    case isTrue equal =>
      rcases lives.closed other with ⟨never, -⟩ | ⟨-, present⟩
      · exact .inl ⟨never, PumpPhase.noConfusion⟩
      · exact absurd (equal ▸ present) (comes.vacant _)
    case isFalse => exact lives.closed other
  case announced => exact comes.announced lives
  case known => exact fun _ => comes.known lives

theorem leaving_eq (sound : hub.Sound) {thread : Nat} {pump : Pump}
    (found : hub.pumps thread = some pump) (waiting : pump.phase = .unregistering) :
    hub.leaving pump.subscriber = .announcing pump.subscriber.leave := by
  have present : pump.left = none :=
    (sound.pump thread pump found).open_iff.mpr (.inr waiting)
  have member : (pump.subscriber.clientID, thread) ∈ hub.subscribers :=
    (sound.subscribed (pump.subscriber.clientID, thread)).mpr ⟨pump, found, rfl, present⟩
  exact if_pos (List.any_eq_true.mpr ⟨_, member, decide_eq_true rfl⟩)

structure Goes (hub after : Hub) (thread : Nat) (pump : Pump) : Prop where
  found : hub.pumps thread = some pump
  waiting : pump.phase = .unregistering
  quiet : hub.pending = []
  leaves : after.pending = [pump.subscriber.leave]
  pumps : after.pumps = Function.update hub.pumps thread
    (some { pump with phase := .closing, left := some hub.taken.length })

section Goes

variable {thread : Nat} {pump : Pump}

theorem Goes.announced (goes : hub.Goes after thread pump) (lives : hub.Lives past offered)
    (other : Nat) (current : Pump) (known : after.pumps other = some current) :
    announcementsOf current.subscriber.clientID (offered ++ after.pending) = due current := by
  have before : ∀ other earlier, hub.pumps other = some earlier →
      announcementsOf earlier.subscriber.clientID offered = due earlier := by
    intro other earlier known
    have announced := lives.announced other earlier known
    rwa [goes.quiet, List.append_nil] at announced
  have present : pump.left = none :=
    (lives.sound.pump thread pump goes.found).open_iff.mpr (.inr goes.waiting)
  rw [goes.leaves, announcementsOf_append]
  rw [goes.pumps] at known
  rcases eq_of_update known with ⟨rfl, rfl⟩ | ⟨different, earlier⟩
  · rw [before other pump goes.found, due, due, if_pos present,
      if_neg (Option.some_ne_none _), announcementsOf]
    simp [Subscriber.leave]
  · rw [before other current earlier]
    have others : ∀ event ∈ [pump.subscriber.leave],
        event.clientID ≠ current.subscriber.clientID := by
      intro event member same
      rw [List.mem_singleton.mp member] at same
      exact different
        (lives.sound.distinct other thread current pump earlier goes.found same.symm)
    rw [announcementsOf_other others, List.append_nil]

theorem Goes.known (goes : hub.Goes after thread pump) (lives : hub.Lives past offered)
    {event : Client.Event} (member : event ∈ offered ++ after.pending) :
    ∃ thread pump, after.pumps thread = some pump ∧
      pump.subscriber.clientID = event.clientID := by
  rw [goes.leaves] at member
  have known : ∃ other earlier, hub.pumps other = some earlier ∧
      earlier.subscriber.clientID = event.clientID := by
    rcases List.mem_append.mp member with old | now
    · exact lives.known event (List.mem_append_left _ old)
    · rw [List.mem_singleton.mp now]
      exact ⟨thread, pump, goes.found, rfl⟩
  rcases known with ⟨other, earlier, present, same⟩
  refine ⟨other, (exists_of_update goes.pumps other
    fun pump => pump.subscriber.clientID = event.clientID).mpr ?_⟩
  split
  case isTrue equal =>
    rw [equal, goes.found] at present
    cases present
    exact same
  case isFalse => exact ⟨earlier, present, same⟩

end Goes

theorem Lives.unregister (lives : hub.Lives past offered) {surroundings : Surroundings}
    {thread : Nat} {pump : Pump} (sound : after.Sound) (selecting : hub.phase = .selecting)
    (found : hub.pumps thread = some pump) (waiting : pump.phase = .unregistering)
    (pumps : after.pumps = Function.update hub.pumps thread
      (some { pump with phase := .closing, left := some hub.taken.length }))
    (phase : after.phase = hub.leaving pump.subscriber) :
    after.Lives (past ++ [.happen surroundings (.unregister thread)]) offered := by
  have goes : hub.Goes after thread pump := {
    found := found
    waiting := waiting
    quiet := by simp only [pending, selecting]
    leaves := by rw [pending, phase, leaving_eq lives.sound found waiting]
    pumps := pumps }
  constructor
  case sound => exact sound
  case registered =>
    intro other subscriber
    rw [List.mem_append, List.mem_singleton, lives.registered other subscriber,
      exists_of_update pumps]
    split
    case isTrue equal =>
      rw [equal, found]
      simp
    case isFalse => exact or_iff_left HubAction.noConfusion
  case unregistered =>
    intro other
    rw [unregistered_snoc, lives.unregistered other, exists_of_update pumps]
    split
    case isTrue equal => simp [equal, HubAction.isEvent]
    case isFalse different =>
      apply or_iff_left
      intro now
      have same : HubEvent.unregister thread = .unregister other := of_decide_eq_true now
      cases same
      exact different rfl
  case closed =>
    intro other
    unfold Closed
    rw [closes_snoc_of_other past rfl, exists_of_update pumps]
    split
    case isTrue equal =>
      rcases lives.closed other with ⟨never, -⟩ | ⟨-, closing, known, exited⟩
      · exact .inl ⟨never, PumpPhase.noConfusion⟩
      · rw [equal, found] at known
        cases known
        rw [waiting] at exited
        cases exited
    case isFalse => exact lives.closed other
  case announced => exact goes.announced lives
  case known => exact fun _ => goes.known lives

theorem Lives.close (lives : hub.Lives past offered) {surroundings : Surroundings}
    {thread : Nat} {pump : Pump} (sound : after.Sound) (found : hub.pumps thread = some pump)
    (closing : pump.phase = .closing)
    (pumps : after.pumps = Function.update hub.pumps thread
      (some { pump with phase := .exited }))
    (same : after.pending = hub.pending) :
    after.Lives (past ++ [.happen surroundings (.close thread)]) offered := by
  have members : hub.SameMembers after := sameMembers_of_update found pumps rfl
  constructor
  case sound => exact sound
  case registered =>
    intro other subscriber
    rw [List.mem_append, List.mem_singleton, lives.registered other subscriber,
      members.exists_iff (fun found _ => found = subscriber) other]
    exact or_iff_left HubAction.noConfusion
  case unregistered =>
    intro other
    rw [unregistered_snoc, lives.unregistered other,
      members.exists_iff (fun _ left => left ≠ none) other]
    exact or_iff_left Bool.false_ne_true
  case closed =>
    intro other
    unfold Closed
    rw [exists_of_update pumps]
    split
    case isTrue equal =>
      rw [equal, closes_snoc]
      rcases lives.closed thread with ⟨never, -⟩ | ⟨-, current, known, exited⟩
      · rw [never]
        exact .inr ⟨by simp [HubAction.isEvent], rfl⟩
      · rw [found] at known
        cases known
        rw [closing] at exited
        cases exited
    case isFalse different =>
      have apart : (HubAction.happen surroundings (.close thread)).isEvent (.close other) =
          false :=
        decide_eq_false fun equal => different (HubEvent.close.inj equal).symm
      rw [closes_snoc_of_other past apart]
      exact lives.closed other
  case announced =>
    intro other current present
    rw [same]
    rcases members.find present with ⟨earlier, known, subscriber, left⟩
    rw [due, ← subscriber, ← left]
    exact lives.announced other earlier known
  case known =>
    intro event member
    rw [same] at member
    rcases lives.known event member with ⟨other, current, present, clientID⟩
    have kept := (members.exists_iff
      (fun subscriber _ => subscriber.clientID = event.clientID) other).mpr
        ⟨current, present, clientID⟩
    exact ⟨other, kept⟩

theorem Lives.happen (lives : hub.Lives past offered) {surroundings : Surroundings}
    {event : HubEvent} (happened : hub.happen surroundings event = some after) :
    after.Lives (past ++ [.happen surroundings event])
      (offered ++ offeredEvents hub (.happen surroundings event)) := by
  have sound := lives.sound.happen happened
  cases turns_of_happen happened with
  | announces members closed pending =>
      refine lives.pass sound ?_ ?_ ?_ members closed ?_
      · intro thread subscriber
        exact HubAction.noConfusion
      · intro thread
        rfl
      · intro thread
        rfl
      · rw [pending, List.append_nil]
        rfl
  | goesOn uneventful members closed pending =>
      have nothing : offeredEvents hub (.happen surroundings event) = [] := by
        cases event with
        | announce => cases uneventful
        | _ => rfl
      rw [nothing]
      refine lives.pass sound ?_ ?_ ?_ members closed pending
      · intro thread subscriber
        exact HubAction.noConfusion
      · intro thread
        apply decide_eq_false
        intro same
        rw [same] at uneventful
        cases uneventful
      · intro thread
        apply decide_eq_false
        intro same
        rw [same] at uneventful
        cases uneventful
  | @unregisters thread pump _ selecting found waiting pumps phase =>
      have nothing : offeredEvents hub (.happen surroundings (.unregister thread)) = [] := rfl
      rw [nothing, List.append_nil]
      exact lives.unregister sound selecting found waiting pumps phase
  | @closes thread pump _ found closing pumps pending =>
      have nothing : offeredEvents hub (.happen surroundings (.close thread)) = [] := rfl
      rw [nothing, List.append_nil]
      exact lives.close sound found closing pumps pending

theorem Lives.act (lives : hub.Lives past offered) {action : HubAction}
    (distinct : (clientIDs (past ++ [action])).Nodup) (taken : hub.act action = some after) :
    after.Lives (past ++ [action]) (offered ++ offeredEvents hub action) := by
  cases action with
  | send thread item =>
      have sent : hub.send thread item = some after := taken
      have pumps := pumps_of_send sent
      have phase : after.pending = hub.pending := by
        unfold Hub.send at sent
        split at sent <;> cases sent
        rfl
      refine lives.pass (lives.sound.send sent) ?_ ?_ ?_ (sameMembers_of_pumps pumps)
        (sameClosed_of_pumps pumps) phase
      · intro thread subscriber
        exact HubAction.noConfusion
      · intro thread
        rfl
      · intro thread
        rfl
  | register thread subscriber =>
      have fresh : ∀ other pump, hub.pumps other = some pump →
          pump.subscriber.clientID ≠ subscriber.clientID := by
        intro other pump found same
        have known : HubAction.register other pump.subscriber ∈ past :=
          (lives.registered other pump.subscriber).mpr ⟨pump, found, rfl⟩
        unfold clientIDs at distinct
        rw [List.filterMap_append] at distinct
        exact List.disjoint_of_nodup_append distinct
          (List.mem_filterMap.mpr ⟨_, known, rfl⟩) (List.mem_singleton.mpr same)
      have nothing : offeredEvents hub (.register thread subscriber) = [] := rfl
      rw [nothing, List.append_nil]
      exact lives.register fresh taken
  | happen surroundings event => exact lives.happen taken

end Steps

theorem lives_of_run {allowed} {actions : List HubAction} {hub : Hub}
    (run : Run act allowed start actions hub) (distinct : (clientIDs actions).Nodup) :
    hub.Lives actions (eventsOffered actions) := by
  have kept := run.traced offeredEvents
    (fun hub past offered => (clientIDs past).Nodup → hub.Lives past offered)
    (fun _ _ _ _ _ lives _ taken distinct => by
      have earlier := distinct
      unfold clientIDs at earlier
      rw [List.filterMap_append] at earlier
      exact (lives (List.Nodup.of_append_left earlier)).act distinct taken)
    (fun _ => lives_start)
  exact kept distinct

theorem Sound.open_of_todo {hub : Hub} (sound : hub.Sound) {item : Item}
    {fragment : ByteString} {shown : List ByteString} {todo : List Entry}
    (phase : hub.phase = .fanningOut item fragment shown todo) {entry : Entry}
    (member : entry ∈ todo) :
    ∃ pump, hub.pumps entry.2 = some pump ∧
      (pump.phase = .pumping ∨ pump.phase = .unregistering) := by
  have current : hub.current = some (item, todo) := by simp only [Hub.current, phase]
  rcases sound.offering item todo current with ⟨-, -, inside⟩
  rcases (sound.subscribed entry).mp (inside member) with ⟨pump, found, -, present⟩
  exact ⟨pump, found, (sound.pump entry.2 pump found).open_iff.mp present⟩

/-- The life of every subscriber: the map holds those whose registration has
been processed and whose unregistration has not; every client is announced
once, and its leaving at most once, after its joining; no channel is closed
twice, and none that `Run` is going to send on is closed. -/
theorem lifecycle_of_run {actions : List HubAction} {hub : Hub}
    (run : AnyRun act start actions hub) (distinct : (clientIDs actions).Nodup) :
    (∀ entry, entry ∈ hub.subscribers ↔
      (∃ subscriber, .register entry.2 subscriber ∈ actions ∧
        subscriber.clientID = entry.1) ∧ ¬ Unregistered entry.2 actions) ∧
    (∀ thread subscriber, .register thread subscriber ∈ actions →
      ∃ leaves : List Client.Event,
        announcementsOf subscriber.clientID (eventsOffered actions ++ hub.pending) =
          subscriber.join :: leaves ∧
        (leaves = [subscriber.leave] ∧ Unregistered thread actions ∨
          leaves = [] ∧ ¬ Unregistered thread actions)) ∧
    (∀ event ∈ eventsOffered actions, ∃ thread subscriber,
      .register thread subscriber ∈ actions ∧ subscriber.clientID = event.clientID) ∧
    (∀ thread, closes thread actions ≤ 1) ∧
    ∀ item fragment shown todo, hub.phase = .fanningOut item fragment shown todo →
      ∀ entry ∈ todo, closes entry.2 actions = 0 := by
  have lives := lives_of_run run distinct
  refine ⟨?_, ?_, ?_, ?_, ?_⟩
  · intro entry
    rw [lives.sound.subscribed entry, lives.unregistered entry.2]
    constructor
    · intro present
      rcases present with ⟨pump, found, clientID, stays⟩
      refine ⟨⟨pump.subscriber, (lives.registered _ _).mpr ⟨pump, found, rfl⟩, clientID⟩, ?_⟩
      intro gone
      rcases gone with ⟨other, again, left⟩
      rw [found] at again
      cases again
      exact left stays
    · intro known
      rcases known with ⟨⟨subscriber, registered, clientID⟩, stays⟩
      rcases (lives.registered entry.2 subscriber).mp registered with ⟨pump, found, rfl⟩
      exact ⟨pump, found, clientID, by_contra fun left => stays ⟨pump, found, left⟩⟩
  · intro thread subscriber registered
    rcases (lives.registered thread subscriber).mp registered with ⟨pump, found, rfl⟩
    refine ⟨_, lives.announced thread pump found, ?_⟩
    rw [lives.unregistered thread]
    by_cases left : pump.left = none
    · rw [if_pos left]
      apply Or.inr
      refine ⟨rfl, fun gone => ?_⟩
      rcases gone with ⟨other, again, gone⟩
      rw [found] at again
      cases again
      exact gone left
    · rw [if_neg left]
      exact .inl ⟨rfl, pump, found, left⟩
  · intro event member
    rcases lives.known event (List.mem_append_left _ member) with ⟨thread, pump, found, same⟩
    exact ⟨thread, pump.subscriber, (lives.registered _ _).mpr ⟨pump, found, rfl⟩, same⟩
  · intro thread
    rcases lives.closed thread with ⟨never, -⟩ | ⟨once, -⟩ <;> omega
  · intro item fragment shown todo phase entry member
    rcases lives.sound.open_of_todo phase member with ⟨pump, found, opened⟩
    rcases lives.closed entry.2 with ⟨never, -⟩ | ⟨-, other, again, exited⟩
    · exact never
    · rw [found] at again
      cases again
      rw [exited] at opened
      rcases opened with opened | opened <;> cases opened

def comesAndGoes : List HubAction :=
  let surroundings := Surroundings.plain 0
  [.register 0 ⟨utf8 "abc", utf8 "ann", false⟩, .happen surroundings .announce,
    .happen surroundings (.cancel 0), .happen surroundings (.unregister 0),
    .happen surroundings .announce, .happen surroundings (.close 0)]

theorem comesAndGoes_lifecycle : ∃ hub : Hub, AnyRun act start comesAndGoes hub ∧
    hub.pending = [] ∧ (utf8 "abc", 0) ∉ hub.subscribers ∧
    closes 0 comesAndGoes = 1 ∧ closes 0 comesAndGoes ≤ 1 := by
  have executed : (execute act start comesAndGoes).map (fun hub => hub.pending) =
      some [] := by decide +kernel
  rcases Option.map_eq_some_iff.mp executed with ⟨hub, reached, quiet⟩
  have run := run_of_execute reached
  have lifecycle := lifecycle_of_run run (by decide)
  refine ⟨hub, run, quiet, fun member => ?_, by decide, lifecycle.2.2.2.1 0⟩
  apply ((lifecycle.1 _).mp member).2
  exact ⟨Surroundings.plain 0, by simp [comesAndGoes]⟩

end Hub

/-! ## In a run of the server -/

/-- A run of the hub in which these client ids are registered, none of them twice. -/
structure RegistersOnce (actions : List HubAction) (hub : Hub) (clients : List ByteString) :
    Prop where
  run : AnyRun Hub.act Hub.start actions hub
  nodup : (clientIDs actions).Nodup
  clients : clientIDs actions = clients

theorem clientIDs_snoc (actions : List HubAction) (action : HubAction) :
    clientIDs (actions ++ [action]) = clientIDs actions ++ action.clientID?.toList := by
  rw [clientIDs, List.filterMap_append, clientIDs]
  cases client : action.clientID? <;> simp [client]

theorem RegistersOnce.act {actions : List HubAction} {hub after : Hub}
    {clients : List ByteString} (registers : RegistersOnce actions hub clients)
    {action : HubAction} (acted : hub.act action = some after)
    (fresh : ∀ client, action.clientID? = some client → client ∉ clients) :
    RegistersOnce (actions ++ [action]) after (clients ++ action.clientID?.toList) where
  run := registers.run.append (.single trivial acted)
  nodup := by
    rw [clientIDs_snoc, registers.clients]
    have before := registers.clients ▸ registers.nodup
    cases client : action.clientID? with
    | none => simpa using before
    | some client' =>
        exact before.append (List.nodup_singleton _)
          (List.disjoint_singleton.mpr (fresh client' client))
  clients := by rw [clientIDs_snoc, registers.clients]

section Server

variable {platform : Platform} {config after : ServerConfig} {actions : List HubAction}

theorem RegistersOnce.step {thread : Nat} {choice : Storage.Choice}
    (registers : RegistersOnce actions config.scene.world.hub (ServerScene.clientIDs config.scene))
    (distinct : distinctClients config (.step thread choice) = true)
    (taken : next platform config (.step thread choice) = some after) :
    ∃ actions, RegistersOnce actions after.scene.world.hub (ServerScene.clientIDs after.scene) := by
  obtain ⟨request, op, rest, result, scene, running, observed, rfl⟩ := Machine.next_step taken
  have performed : perform platform thread op choice config.scene.world =
      some (result, scene.world) := (Machine.observe_eq_some.mp observed).1
  simp only [Config.set]
  rw [clientIDs_of_observe observed]
  by_cases leaves : op.leavesHub = true
  · rw [perform_hub leaves performed]
    cases op with
    | broadcast | register => cases leaves
    | _ => exact ⟨actions, (List.append_nil _).symm ▸ registers⟩
  · cases op with
    | broadcast item =>
        have acted : config.scene.world.hub.act (.send thread item) = some scene.world.hub :=
          perform_broadcast performed
        exact ⟨_, registers.act acted fun client impossible => (by cases impossible)⟩
    | register subscriber =>
        have acted : config.scene.world.hub.act (.register thread subscriber) =
            some scene.world.hub := perform_register performed
        refine ⟨_, registers.act acted fun client same => ?_⟩
        cases same
        simpa [distinctClients, running] using distinct
    | store | nanoid | random | putToken | checkToken | writePump | renderContent
      | readFile => exact absurd rfl leaves

theorem RegistersOnce.environment {happening : Happening}
    (registers : RegistersOnce actions config.scene.world.hub (ServerScene.clientIDs config.scene))
    (taken : next platform config (.environment happening) = some after) :
    ∃ actions, RegistersOnce actions after.scene.world.hub (ServerScene.clientIDs after.scene) := by
  obtain ⟨world, happened, rfl⟩ := Machine.next_environment taken
  rcases environment_hub happened with unchanged | ⟨event, fault, -, changed⟩
  · simp only [unchanged]
    exact ⟨actions, registers⟩
  · have acted : config.scene.world.hub.act
        (.happen (config.scene.world.surroundings platform fault) event) = some world.hub :=
      changed
    have more := registers.act acted fun client impossible => (by cases impossible)
    exact ⟨_, more.run, more.nodup, more.clients.trans (List.append_nil _)⟩

end Server

/-- With distinct client ids, every hub of the server is reached by a run of
the hub with these client ids. -/
theorem hubRun_of_distinct {platform : Platform} {tables : Storage.Tables} {clock : Instant}
    {events : List ServerEvent} {config : ServerConfig}
    (run : Run (next platform) (fun config event => distinctClients config event = true)
      (start tables clock) events config) :
    ∃ actions, AnyRun Hub.act Hub.start actions config.scene.world.hub ∧
      (clientIDs actions).Nodup ∧ clientIDs actions = ServerScene.clientIDs config.scene := by
  have reached : ∃ actions, RegistersOnce actions config.scene.world.hub
      (ServerScene.clientIDs config.scene) := by
    refine run.invariant (fun config => ∃ actions, RegistersOnce actions
      config.scene.world.hub (ServerScene.clientIDs config.scene)) ?_
      ⟨[], .nil _, List.nodup_nil, rfl⟩
    rintro config event after ⟨actions, registers⟩ distinct taken
    cases event with
    | restart => cases distinct
    | arrive thread request =>
        obtain ⟨-, rfl⟩ := Machine.next_arrive taken
        exact ⟨actions, registers⟩
    | step thread choice => exact registers.step distinct taken
    | environment happening => exact registers.environment taken
  obtain ⟨actions, registers⟩ := reached
  exact ⟨actions, registers.run, registers.nodup, registers.clients⟩

end Grunt.Server
