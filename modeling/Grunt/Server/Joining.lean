import Grunt.Server.Filed
import Grunt.Server.HubRuns

/-! # Before and after a subscriber has joined

What `Run` dequeued before it registered a subscriber is fixed from then on.
What it dequeues later it puts into the subscriber's buffer, as long as that
has room and the subscriber stays.
-/

namespace Grunt.Server

open Foundation

namespace Hub

variable {hub after : Hub}

/-- More items are dequeued, and who has joined has joined. -/
structure Advances (before after : Hub) : Prop where
  taken : before.taken <+: after.taken
  pumps : ∀ thread pump, before.pumps thread = some pump →
    ∃ later, after.pumps thread = some later ∧ later.joined = pump.joined

theorem Advances.of_pumps (taken : hub.taken <+: after.taken) (pumps : after.pumps = hub.pumps) :
    hub.Advances after where
  taken := taken
  pumps := fun thread pump found => ⟨pump, by rw [pumps, found], rfl⟩

theorem Advances.refl (hub : Hub) : hub.Advances hub := .of_pumps List.prefix_rfl rfl

theorem Advances.of_update {thread : Nat} {new : Pump} (taken : hub.taken <+: after.taken)
    (pumps : after.pumps = Function.update hub.pumps thread (some new))
    (joined : ∀ old, hub.pumps thread = some old → new.joined = old.joined) :
    hub.Advances after where
  taken := taken
  pumps := by
    intro other pump found
    rw [pumps]
    by_cases same : other = thread
    · subst other
      exact ⟨new, Function.update_self thread _ hub.pumps, joined pump found⟩
    · exact ⟨pump, (Function.update_of_ne same _ hub.pumps).trans found, rfl⟩

theorem advances_of_setPump {thread : Nat} {old new : Pump}
    (found : hub.pumps thread = some old) (taken : hub.taken <+: after.taken)
    (pumps : after.pumps = Function.update hub.pumps thread (some new))
    (joined : new.joined = old.joined) : hub.Advances after := by
  apply Advances.of_update taken pumps
  intro other same
  rw [found] at same
  cases same
  exact joined

theorem advances_of_render {surroundings : Surroundings}
    (rendered : hub.render surroundings = some after) : hub.Advances after := by
  rw [render] at rendered
  split at rendered
  case h_2 => cases rendered
  case h_1 =>
    split at rendered
    · split at rendered <;> cases rendered
      · exact .of_pumps List.prefix_rfl rfl
      · rw [renderMessage]
        split <;> exact .of_pumps List.prefix_rfl rfl
    · cases rendered
      exact .of_pumps List.prefix_rfl rfl

theorem advances_of_offer {entry : Entry} (offered : hub.offer entry = some after) :
    hub.Advances after := by
  rw [offer] at offered
  split at offered
  case h_2 => cases offered
  case h_1 item fragment shown todo pump phase found =>
    split at offered
    case isFalse => cases offered
    case isTrue =>
      dsimp only at offered
      split at offered <;> cases offered
      · exact .of_pumps List.prefix_rfl rfl
      · exact advances_of_setPump found List.prefix_rfl rfl rfl

theorem advances_of_happen {surroundings : Surroundings} {event : HubEvent}
    (happened : hub.happen surroundings event = some after) : hub.Advances after := by
  cases event with
  | announce =>
      simp only [happen, announce] at happened
      split at happened
      case h_2 => cases happened
      case h_1 =>
        split at happened <;> cases happened <;> exact .of_pumps List.prefix_rfl rfl
  | unregister thread =>
      simp only [happen, unregister] at happened
      split at happened
      case h_2 => cases happened
      case h_1 pump _ found =>
        split at happened <;> cases happened
        exact advances_of_setPump found List.prefix_rfl rfl rfl
  | dequeue =>
      simp only [happen, dequeue] at happened
      split at happened <;> cases happened
      exact .of_pumps (List.prefix_append _ _) rfl
  | render => exact advances_of_render happened
  | offer entry => exact advances_of_offer happened
  | finish =>
      simp only [happen, finish] at happened
      split at happened <;> cases happened
      exact .of_pumps List.prefix_rfl rfl
  | stop =>
      cases happened
      exact .of_pumps List.prefix_rfl rfl
  | exit =>
      simp only [happen, exit] at happened
      split at happened
      case h_2 => cases happened
      case h_1 =>
        split at happened <;> cases happened
        exact .of_pumps List.prefix_rfl rfl
  | write thread failure =>
      simp only [happen, write] at happened
      split at happened
      case h_2 => cases happened
      case h_1 pump found =>
        rcases Option.map_eq_some_iff.mp happened with ⟨new, wrote, rfl⟩
        exact advances_of_setPump found List.prefix_rfl rfl (Pump.own_of_write wrote).joined
  | cancel thread =>
      simp only [happen, cancel] at happened
      split at happened
      case h_2 => cases happened
      case h_1 pump found =>
        split at happened <;> cases happened
        exact advances_of_setPump found List.prefix_rfl rfl rfl
  | close thread =>
      simp only [happen, close] at happened
      split at happened
      case h_2 => cases happened
      case h_1 pump found =>
        split at happened <;> cases happened
        exact advances_of_setPump found List.prefix_rfl rfl rfl

theorem advances_of_act {action : HubAction} (taken : hub.act action = some after) :
    hub.Advances after := by
  cases action with
  | send thread item =>
      simp only [act, send] at taken
      split at taken <;> cases taken
      exact .of_pumps List.prefix_rfl rfl
  | register thread subscriber =>
      simp only [act, register] at taken
      split at taken <;> cases taken
      next free =>
        refine Advances.of_update List.prefix_rfl rfl fun old found => ?_
        rw [free] at found
        cases found
  | happen surroundings event => exact advances_of_happen taken

theorem start_of_act {action : HubAction} (taken : hub.act action = some after) {thread : Nat}
    {pump : Pump} (free : hub.pumps thread = none) (found : after.pumps thread = some pump) :
    ∃ subscriber, action = .register thread subscriber ∧
      pump = Pump.start subscriber hub.taken.length := by
  cases action with
  | send sender item =>
      rw [pumps_of_send taken, free] at found
      cases found
  | register other subscriber =>
      rw [(effect_of_register taken).2] at found
      by_cases same : thread = other
      · subst same
        rw [Function.update_self, Option.some.injEq] at found
        exact ⟨subscriber, rfl, found.symm⟩
      · rw [Function.update_of_ne same, free] at found
        cases found
  | happen surroundings event =>
      rcases (continues_of_happen taken).pumps thread pump found with ⟨earlier, before, -⟩
      rw [free] at before
      cases before

def Joined (hub : Hub) : Prop :=
  ∀ thread pump, hub.pumps thread = some pump → pump.joined ≤ hub.taken.length

theorem Joined.act (joined : hub.Joined) {action : HubAction}
    (taken : hub.act action = some after) : after.Joined := by
  have advances := advances_of_act taken
  intro thread pump found
  apply Nat.le_trans _ advances.taken.length_le
  cases before : hub.pumps thread with
  | none =>
      rcases start_of_act taken before found with ⟨subscriber, -, rfl⟩
      exact Nat.le_refl _
  | some old =>
      rcases advances.pumps thread old before with ⟨later, same, kept⟩
      rw [found] at same
      cases same
      rw [kept]
      exact joined thread old before

end Hub

section Step

variable {platform : Platform} {config after : ServerConfig}

/-- What an event of the server does to the hub: nothing, or one of its
actions, a registration only for the thread that takes a step. -/
theorem act_of_next {event : ServerEvent} (goesOn : event ≠ .restart)
    (taken : next platform config event = some after) :
    after.scene.world.hub = config.scene.world.hub ∨
      ∃ action, config.scene.world.hub.act action = some after.scene.world.hub ∧
        ∀ thread subscriber, action = .register thread subscriber →
          event.thread = some thread ∧ (config.threads thread).inFlight = true := by
  cases event with
  | arrive thread request =>
      rcases Machine.next_arrive taken with ⟨-, rfl⟩
      exact .inl rfl
  | step thread choice =>
      rcases Machine.next_step taken with ⟨request, op, rest, result, scene, running, observed, rfl⟩
      have performed : perform platform thread op choice config.scene.world =
          some (result, scene.world) := (Machine.observe_eq_some.mp observed).1
      by_cases leaves : op.leavesHub = true
      · exact .inl (perform_hub leaves performed)
      · apply Or.inr
        cases op with
        | broadcast item => exact ⟨.send thread item, perform_broadcast performed, nofun⟩
        | register subscriber =>
            refine ⟨.register thread subscriber, perform_register performed, ?_⟩
            intro other same equal
            cases equal
            exact ⟨rfl, by rw [running, Thread.inFlight]⟩
        | store | nanoid | random | putToken | checkToken | writePump | renderContent
          | readFile => exact absurd rfl leaves
  | environment happening =>
      rcases Machine.next_environment taken with ⟨world, happened, rfl⟩
      rcases environment_hub happened with same | ⟨event, fault, -, changed⟩
      · exact .inl same
      · exact .inr ⟨.happen _ event, changed, nofun⟩
  | restart => exact absurd rfl goesOn

theorem advances_of_next {event : ServerEvent} (goesOn : event ≠ .restart)
    (taken : next platform config event = some after) :
    config.scene.world.hub.Advances after.scene.world.hub := by
  rcases act_of_next goesOn taken with same | ⟨action, acted, -⟩
  · rw [same]
    exact .refl _
  · exact Hub.advances_of_act acted

theorem joined_of_next {event : ServerEvent} (joined : config.scene.world.hub.Joined)
    (goesOn : event ≠ .restart) (taken : next platform config event = some after) :
    after.scene.world.hub.Joined := by
  rcases act_of_next goesOn taken with same | ⟨action, acted, -⟩
  · rw [same]
    exact joined
  · exact joined.act acted

theorem free_of_next {event : ServerEvent} {thread : Nat} {request : Request}
    {response : Response} (finished : config.threads thread = .running request (.done response))
    (free : config.scene.world.hub.pumps thread = none) (goesOn : event ≠ .restart)
    (taken : next platform config event = some after) :
    after.scene.world.hub.pumps thread = none := by
  rcases act_of_next goesOn taken with same | ⟨action, acted, registers⟩
  · rw [same, free]
  · cases found : after.scene.world.hub.pumps thread with
    | none => rfl
    | some pump =>
        rcases Hub.start_of_act acted free found with ⟨subscriber, rfl, -⟩
        have flying := (registers thread subscriber rfl).2
        rw [finished] at flying
        cases flying

end Step

/-! ## The messages on a send channel -/

theorem messageIDs_append (first second : List Item) :
    messageIDs (first ++ second) = messageIDs first ++ messageIDs second :=
  List.filterMap_append

/-- The messages that were put on the send channel. -/
def Pump.queuedIDs (pump : Pump) : List Nat := messageIDs (pump.queued.map Frame.item)

/-- The buffer has had room for everything. -/
def Pump.NeverFull (pump : Pump) : Prop := ∀ offer ∈ pump.offers, offer.kept = true

namespace Hub

/-- The messages that `Run` is done with as far as a subscriber is concerned. -/
def processedIDs (hub : Hub) (entry : Entry) : List Nat :=
  messageIDs (hub.taken.take (hub.processed entry))

/-- The messages that `Run` had dequeued when it registered the subscriber. -/
def earlierIDs (hub : Hub) (pump : Pump) : List Nat := messageIDs (hub.taken.take pump.joined)

/-- The messages that `Run` has dealt with since it registered the subscriber. -/
def laterIDs (hub : Hub) (thread : Nat) (pump : Pump) : List Nat :=
  messageIDs ((hub.taken.take (hub.processed (pump.subscriber.clientID, thread))).drop pump.joined)

end Hub

section Channel

variable {hub : Hub} {thread : Nat} {pump : Pump}

theorem queued_of_neverFull (roomy : pump.NeverFull) :
    pump.queued = pump.offers.map Offer.frame := by
  rw [Pump.queued, List.filter_eq_self.mpr roomy]

theorem DeliversExactly.queuedIDs (delivers : DeliversExactly hub thread pump)
    (connected : pump.left = none) (roomy : pump.NeverFull) :
    pump.queuedIDs = hub.laterIDs thread pump := by
  have window := delivers.window
  rw [Pump.lastOffered, connected, Option.getD_none] at window
  rw [Pump.queuedIDs, queued_of_neverFull roomy, List.map_map, Hub.laterIDs, ← window]
  rfl

theorem Pump.Sound.processedIDs
    (sound : pump.Sound hub.taken (hub.processed (pump.subscriber.clientID, thread)))
    (connected : pump.left = none) :
    hub.processedIDs (pump.subscriber.clientID, thread) =
      hub.earlierIDs pump ++ hub.laterIDs thread pump := by
  have window := sound.window
  rw [Pump.lastOffered, connected, Option.getD_none] at window
  have inside : pump.joined ≤ hub.processed (pump.subscriber.clientID, thread) := by omega
  have earlier : (hub.taken.take (hub.processed (pump.subscriber.clientID, thread))).take
      pump.joined = hub.taken.take pump.joined := by
    rw [List.take_take, Nat.min_eq_left inside]
  rw [Hub.processedIDs, Hub.earlierIDs, Hub.laterIDs, ← messageIDs_append, ← earlier,
    List.take_append_drop]

end Channel

end Grunt.Server
