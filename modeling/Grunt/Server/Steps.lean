import Grunt.Server.Machine

/-! # What one step does to the hub

The operations and events of the server by what they change of the hub and of
its pumps.
-/

namespace Grunt.Server

open Foundation

/-! ## Operations -/

section Operations

variable {platform : Platform} {thread : Nat} {choice : Storage.Choice}
variable {world after : World}

/-- The part of the world that an operation writes. -/
inductive Touches (world : World) : Op → World → Prop
  | nothing {op : Op} : Touches world op world
  | store {op : Storage.Op} (store : Storage.World) :
      Touches world (.store op) (world.setStore store)
  | putToken {token userID : ByteString} {expiry : Instant} :
      Touches world (.putToken token userID expiry)
        (world.setTokens (Function.update world.tokens token (some ⟨userID, expiry⟩)))
  | expire {token : ByteString} {entry : TokenEntry} : world.tokens token = some entry →
      entry.expiry < world.store.clock →
      Touches world (.checkToken token)
        (world.setTokens (Function.update world.tokens token none))
  | broadcast {item : Item} (hub : Hub) : Touches world (.broadcast item) (world.setHub hub)
  | register {subscriber : Subscriber} (hub : Hub) :
      Touches world (.register subscriber) (world.setHub hub)

theorem touches_of_perform {op : Op} {result : op.Result}
    (performed : perform platform thread op choice world = some (result, after)) :
    Touches world op after := by
  cases op with
  | store op =>
      obtain ⟨done, -, same⟩ := Option.map_eq_some_iff.mp performed
      cases same
      exact .store done.2
  | nanoid size =>
      obtain ⟨drawn, -, same⟩ := Option.map_eq_some_iff.mp performed
      cases same
      exact .nothing
  | random size =>
      obtain ⟨drawn, -, same⟩ := Option.map_eq_some_iff.mp performed
      cases same
      exact .nothing
  | putToken token userID expiry =>
      cases performed
      exact .putToken
  | checkToken token =>
      have checked : world.checkToken token = (result, after) := Option.some.inj performed
      unfold World.checkToken at checked
      split at checked
      case h_1 =>
        cases checked
        exact .nothing
      case h_2 entry found =>
        split at checked
        case isTrue expired =>
          cases checked
          exact .expire found expired
        case isFalse =>
          cases checked
          exact .nothing
  | broadcast item =>
      obtain ⟨hub, -, same⟩ := Option.map_eq_some_iff.mp performed
      cases same
      exact .broadcast hub
  | register subscriber =>
      obtain ⟨hub, -, same⟩ := Option.map_eq_some_iff.mp performed
      cases same
      exact .register hub
  | writePump =>
      simp only [perform] at performed
      split at performed
      · split at performed <;> cases performed
        exact .nothing
      · cases performed
  | renderContent content =>
      cases performed
      exact .nothing
  | readFile path =>
      cases performed
      exact .nothing

def Op.leavesHub : Op → Bool
  | .broadcast _ | .register _ => false
  | _ => true

theorem perform_hub {op : Op} {result : op.Result} (leaves : op.leavesHub = true)
    (performed : perform platform thread op choice world = some (result, after)) :
    after.hub = world.hub := by
  cases touches_of_perform performed with
  | nothing | store | putToken | expire => rfl
  | broadcast | register => cases leaves

theorem perform_broadcast {item : Item} {result : Unit}
    (performed : perform platform thread (.broadcast item) choice world =
      some (result, after)) :
    world.hub.send thread item = some after.hub := by
  obtain ⟨hub, sent, same⟩ := Option.map_eq_some_iff.mp performed
  cases same
  exact sent

theorem perform_register {subscriber : Subscriber} {result : Unit}
    (performed : perform platform thread (.register subscriber) choice world =
      some (result, after)) :
    world.hub.register thread subscriber = some after.hub := by
  obtain ⟨hub, registered, same⟩ := Option.map_eq_some_iff.mp performed
  cases same
  exact registered

theorem environment_hub {happening : Happening}
    (happened : environment platform happening world = some after) :
    after.hub = world.hub ∨
      ∃ event fault, happening = .hub event fault ∧
        world.hub.happen (world.surroundings platform fault) event = some after.hub := by
  cases happening with
  | hub event fault =>
      obtain ⟨hub, done, rfl⟩ := Option.map_eq_some_iff.mp happened
      exact .inr ⟨event, fault, rfl, done⟩
  | coldStart code =>
      left
      have opened : world.coldStart code = some after := happened
      unfold World.coldStart at opened
      split at opened
      · split at opened <;> cases opened
        rfl
      · cases opened
  | advance elapsed => cases happened; exact .inl rfl
  | reload entries => cases happened; exact .inl rfl
  | files files => cases happened; exact .inl rfl

end Operations

/-! ## Pumps -/

namespace Pump

/-- What a step of the hub or of a pump can make of a pump. -/
inductive Moves (hub : Hub) (thread : Nat) (pump : Pump) : Pump → Prop
  | stays : Moves hub thread pump pump
  | offered {clientID : ByteString} {item : Item} {fragment : ByteString}
      {shown : List ByteString} {todo : List Entry} :
      hub.phase = .fanningOut item fragment shown todo → (clientID, thread) ∈ todo →
      Moves hub thread pump (pump.offer {
        bytes := if pump.subscriber.renderHTML then fragment else item.data
        item := item
        number := hub.taken.length - 1
        shown := shown })
  | written {failure : Option Nat} {after : Pump} :
      pump.write failure = some after → Moves hub thread pump after
  | stopped {after : Pump} : Stopped pump after → Moves hub thread pump after

variable {hub : Hub} {thread : Nat} {pump after : Pump}

theorem Moves.subscriber (moves : Moves hub thread pump after) :
    after.subscriber = pump.subscriber := by
  cases moves with
  | stays => rfl
  | offered phase member => rfl
  | written wrote => exact (own_of_write wrote).subscriber
  | stopped stopped => exact stopped.subscriber

theorem Moves.piped (moves : Moves hub thread pump after) (piped : pump.Piped) :
    after.Piped := by
  cases moves with
  | stays => exact piped
  | offered phase member => exact piped.offer _
  | written wrote => exact piped.write wrote
  | stopped stopped => exact piped.stop stopped

end Pump

namespace Hub

variable {hub after : Hub}

theorem accepted_of_send {sender : Nat} {item : Item}
    (sent : hub.send sender item = some after) :
    after.accepted = hub.accepted ++ [(some sender, item)] := by
  unfold Hub.send at sent
  split at sent <;> cases sent
  rfl

theorem pumps_of_send {sender : Nat} {item : Item}
    (sent : hub.send sender item = some after) : after.pumps = hub.pumps := by
  unfold Hub.send at sent
  split at sent <;> cases sent
  rfl

theorem effect_of_register {thread : Nat} {subscriber : Subscriber}
    (registered : hub.register thread subscriber = some after) :
    after.accepted = hub.accepted ∧
      after.pumps = Function.update hub.pumps thread
        (some (Pump.start subscriber hub.taken.length)) := by
  unfold Hub.register at registered
  split at registered <;> cases registered
  exact ⟨rfl, rfl⟩

/-- `Run` and the pumps put nothing on the channel but events, and move pumps
that are there. -/
structure Continues (before after : Hub) : Prop where
  accepted : after.accepted = before.accepted ∨
    ∃ event, after.accepted = before.accepted ++ [(none, .ofEvent event)]
  pumps : ∀ thread pump, after.pumps thread = some pump →
    ∃ earlier, before.pumps thread = some earlier ∧ earlier.Moves before thread pump

theorem Continues.of_pumps_eq (pumps : after.pumps = hub.pumps)
    (accepted : after.accepted = hub.accepted) : hub.Continues after where
  accepted := .inl accepted
  pumps := fun _ pump found => ⟨pump, pumps ▸ found, .stays⟩

theorem Continues.of_setPump {thread : Nat} {old new : Pump}
    (found : hub.pumps thread = some old) (moves : old.Moves hub thread new)
    (pumps : after.pumps = Function.update hub.pumps thread (some new))
    (accepted : after.accepted = hub.accepted) : hub.Continues after where
  accepted := .inl accepted
  pumps := fun other pump present => by
    rw [pumps] at present
    by_cases equal : other = thread
    · subst other
      rw [Function.update_self, Option.some.injEq] at present
      exact ⟨old, found, present ▸ moves⟩
    · rw [Function.update_of_ne equal] at present
      exact ⟨pump, present, .stays⟩

theorem continues_of_announce (announced : hub.announce = some after) :
    hub.Continues after := by
  unfold announce at announced
  split at announced
  case h_2 => cases announced
  case h_1 event phase =>
    dsimp only at announced
    split at announced <;> cases announced
    · exact ⟨.inr ⟨event, rfl⟩, fun _ pump found => ⟨pump, found, .stays⟩⟩
    · exact .of_pumps_eq rfl rfl

theorem continues_of_unregister {thread : Nat}
    (unregistered : hub.unregister thread = some after) : hub.Continues after := by
  unfold unregister at unregistered
  split at unregistered
  case h_2 => cases unregistered
  case h_1 pump phase found =>
    split at unregistered <;> cases unregistered
    have stopped : Pump.Stopped pump
      { pump with phase := .closing, left := some hub.taken.length } :=
        ⟨rfl, rfl, rfl, rfl, rfl, by simp⟩
    exact .of_setPump found (.stopped stopped) rfl rfl

theorem continues_of_dequeue (dequeued : hub.dequeue = some after) : hub.Continues after := by
  unfold dequeue at dequeued
  split at dequeued <;> cases dequeued
  exact .of_pumps_eq rfl rfl

theorem continues_of_render {surroundings : Surroundings}
    (rendered : hub.render surroundings = some after) : hub.Continues after := by
  unfold render at rendered
  split at rendered
  case h_2 => cases rendered
  case h_1 =>
    split at rendered
    · split at rendered <;> cases rendered
      · exact .of_pumps_eq rfl rfl
      · unfold renderMessage
        dsimp only
        split <;> exact .of_pumps_eq rfl rfl
    · cases rendered
      exact .of_pumps_eq rfl rfl

theorem continues_of_offer {entry : Entry} (offered : hub.offer entry = some after) :
    hub.Continues after := by
  unfold offer at offered
  split at offered
  case h_2 => cases offered
  case h_1 item fragment shown todo pump phase found =>
    split at offered
    case isFalse => cases offered
    case isTrue member =>
      dsimp only at offered
      split at offered <;> cases offered
      · exact .of_pumps_eq rfl rfl
      · exact .of_setPump found (.offered phase member) rfl rfl

end Hub

def HubEvent.isPumps : HubEvent → Bool
  | .write _ _ | .cancel _ | .close _ => true
  | _ => false

namespace Hub

variable {hub after : Hub}

theorem pump_of_happen {surroundings : Surroundings} {event : HubEvent}
    (pumps : event.isPumps = true) (happened : hub.happen surroundings event = some after) :
    ∃ thread old new, hub.pumps thread = some old ∧ old.Moves hub thread new ∧
      new.offers = old.offers ∧ after = hub.setPump thread new := by
  cases event with
  | write thread failure =>
      simp only [happen, write] at happened
      split at happened
      case h_2 => cases happened
      case h_1 pump found =>
        obtain ⟨new, wrote, rfl⟩ := Option.map_eq_some_iff.mp happened
        exact ⟨thread, pump, new, found, .written wrote, (Pump.own_of_write wrote).offers, rfl⟩
  | cancel thread =>
      simp only [happen, cancel] at happened
      split at happened
      case h_2 => cases happened
      case h_1 pump found =>
        split at happened <;> cases happened
        have stopped : Pump.Stopped pump { pump with phase := .unregistering } :=
          ⟨rfl, rfl, rfl, rfl, rfl, by simp⟩
        exact ⟨thread, pump, _, found, .stopped stopped, rfl, rfl⟩
  | close thread =>
      simp only [happen, close] at happened
      split at happened
      case h_2 => cases happened
      case h_1 pump found =>
        split at happened <;> cases happened
        have stopped : Pump.Stopped pump { pump with phase := .exited } :=
          ⟨rfl, rfl, rfl, rfl, rfl, by simp⟩
        exact ⟨thread, pump, _, found, .stopped stopped, rfl, rfl⟩
  | announce | unregister | dequeue | render | offer | finish | stop | exit => cases pumps

theorem continues_of_happen {surroundings : Surroundings} {event : HubEvent}
    (happened : hub.happen surroundings event = some after) : hub.Continues after := by
  cases event with
  | announce => exact continues_of_announce happened
  | unregister thread => exact continues_of_unregister happened
  | dequeue => exact continues_of_dequeue happened
  | render => exact continues_of_render happened
  | offer entry => exact continues_of_offer happened
  | finish =>
      simp only [happen, finish] at happened
      split at happened <;> cases happened
      exact .of_pumps_eq rfl rfl
  | stop =>
      cases happened
      exact .of_pumps_eq rfl rfl
  | exit =>
      simp only [happen, exit] at happened
      split at happened
      · split at happened <;> cases happened
        exact .of_pumps_eq rfl rfl
      · cases happened
  | write | cancel | close =>
      obtain ⟨thread, old, new, found, moves, -, rfl⟩ := pump_of_happen rfl happened
      exact .of_setPump found moves rfl rfl

end Hub

end Grunt.Server
