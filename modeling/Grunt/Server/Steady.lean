import Grunt.Server.Lifecycle

/-! # What keeps Run going

`Run` renders only messages that have an author, sends round only to
subscribers that are there, and never puts more into its buffer than that
holds.
-/

namespace Grunt.Server

open Foundation

/-- A message that some `SendMessage` handler posts. -/
def Item.Posted (location : Location) (item : Item) : Prop :=
  ∃ userID, userID ≠ [] ∧ item.PostedBy location userID

namespace Hub

/-- The subscribers a fragment has still to be sent to. -/
def todo (hub : Hub) : List Entry :=
  match hub.phase with
  | .fanningOut _ _ _ todo => todo
  | _ => []

def unrendered (hub : Hub) : List Item :=
  match hub.phase with
  | .rendering item => item :: hub.broadcast
  | _ => hub.broadcast

end Hub

def Item.Renders (item : Item) : Prop :=
  ∀ message, item.payload = .message message → message.userID ≠ []

theorem Item.Posted.renders {location : Location} {item : Item}
    (posted : item.Posted location) : item.Renders := by
  rcases posted with ⟨userID, present, message, data, -, author, rfl⟩
  intro decoded same
  cases same
  rw [← author] at present
  exact fun empty => present (Bytes.toValidUTF8_eq_nil.mp empty)

theorem Item.renders_ofEvent (event : Client.Event) : (Item.ofEvent event).Renders :=
  fun _ same => Payload.noConfusion same

namespace Hub

/-- `Run` has not panicked, and has what it needs to go on. -/
structure Steady (hub : Hub) : Prop where
  going : hub.phase ≠ .panicked
  renders : ∀ item ∈ hub.unrendered, item.Renders
  present : ∀ entry ∈ hub.subscribers ++ hub.todo, (hub.pumps entry.2).isSome = true
  room : hub.broadcast.length ≤ channelCapacity

theorem steady_start : start.Steady where
  going := Phase.noConfusion
  renders := fun _ member => absurd member List.not_mem_nil
  present := fun _ member => absurd member List.not_mem_nil
  room := Nat.zero_le _

section Steps

variable {hub after : Hub}

theorem isSome_of_happen {surroundings : Surroundings} {event : HubEvent}
    (happened : hub.happen surroundings event = some after) {thread : Nat}
    (present : (hub.pumps thread).isSome = true) : (after.pumps thread).isSome = true := by
  have kept : ∀ {other : Nat} {new : Pump},
      after.pumps = Function.update hub.pumps other (some new) →
      (after.pumps thread).isSome = true := by
    intro other new pumps
    rw [pumps]
    by_cases same : thread = other
    · rw [same, Function.update_self, Option.isSome_some]
    · rw [Function.update_of_ne same, present]
  have members : hub.SameMembers after → (after.pumps thread).isSome = true := by
    intro members
    rw [← Option.isSome_map, members thread, Option.isSome_map, present]
  cases turns_of_happen happened with
  | announces same => exact members same
  | goesOn _ same => exact members same
  | unregisters _ _ _ pumps => exact kept pumps
  | closes _ _ pumps => exact kept pumps

theorem Steady.mono (steady : hub.Steady) (going : after.phase ≠ .panicked)
    (renders : ∀ item ∈ after.unrendered, item ∈ hub.unrendered ∨ item.Renders)
    (entries : ∀ entry ∈ after.subscribers ++ after.todo, entry ∈ hub.subscribers ++ hub.todo)
    (pumps : ∀ thread, (hub.pumps thread).isSome = true → (after.pumps thread).isSome = true)
    (room : after.broadcast.length ≤ channelCapacity) : after.Steady where
  going := going
  renders := fun item member => (renders item member).elim (steady.renders item) id
  present := fun entry member => pumps entry.2 (steady.present entry (entries entry member))
  room := room

theorem unrendered_of_idle (idle : hub.phase.idle = true) : hub.unrendered = hub.broadcast := by
  unfold unrendered
  split
  case h_1 phase =>
    rw [phase] at idle
    cases idle
  case h_2 => rfl

theorem unrendered_of_phase {current : Phase} (phase : hub.phase = current)
    (idle : current.idle = true) : hub.unrendered = hub.broadcast :=
  unrendered_of_idle (phase ▸ idle)

theorem Steady.settle (steady : hub.Steady) (idle : after.phase.idle = true)
    (renders : ∀ item ∈ after.broadcast, item ∈ hub.unrendered ∨ item.Renders)
    (entries : ∀ entry ∈ after.subscribers, entry ∈ hub.subscribers)
    (pumps : ∀ thread, (hub.pumps thread).isSome = true → (after.pumps thread).isSome = true)
    (room : after.broadcast.length ≤ channelCapacity) : after.Steady := by
  refine steady.mono ?_ ?_ ?_ pumps room
  · intro panicked
    rw [panicked] at idle
    cases idle
  · rw [unrendered_of_idle idle]
    exact renders
  · have nothing : after.todo = [] := by
      unfold todo
      split
      case h_1 phase =>
        rw [phase] at idle
        cases idle
      case h_2 => rfl
    intro entry member
    rw [nothing, List.append_nil] at member
    exact List.mem_append_left _ (entries entry member)

theorem Steady.send (steady : hub.Steady) {sender : Nat} {item : Item}
    (renders : item.Renders) (sent : hub.send sender item = some after) : after.Steady := by
  unfold Hub.send at sent
  split at sent <;> cases sent
  next room =>
    refine steady.mono steady.going ?_ (fun _ member => member) (fun _ present => present) ?_
    · intro other member
      have known : other ∈ hub.unrendered ∨ other = item := by
        unfold unrendered at member ⊢
        dsimp only [accept] at member
        split at member
        · simp only [List.mem_cons, List.mem_append, List.not_mem_nil, or_false] at member ⊢
          tauto
        · simp only [List.mem_append, List.mem_singleton] at member
          exact member
      rcases known with old | rfl
      · exact .inl old
      · exact .inr renders
    · rw [accept, List.length_append]
      exact room

theorem Steady.register (steady : hub.Steady) {thread : Nat} {subscriber : Subscriber}
    (registered : hub.register thread subscriber = some after) : after.Steady := by
  have pumps := (effect_of_register registered).2
  unfold Hub.register at registered
  split at registered <;> cases registered
  next phase free =>
    refine ⟨Phase.noConfusion, ?_, ?_, steady.room⟩
    · intro item member
      apply steady.renders item
      rw [unrendered_of_phase phase rfl]
      exact member
    · intro entry member
      rw [pumps]
      by_cases same : entry.2 = thread
      · rw [same, Function.update_self, Option.isSome_some]
      · rw [Function.update_of_ne same]
        simp only [todo, List.append_nil, List.mem_cons] at member
        rcases member with rfl | member
        · exact absurd rfl same
        · exact steady.present entry (List.mem_append_left _ (List.mem_filter.mp member).1)

theorem Steady.render (steady : hub.Steady) {surroundings : Surroundings}
    (rendered : hub.render surroundings = some after) : after.Steady := by
  unfold Hub.render at rendered
  split at rendered
  case h_2 => cases rendered
  case h_1 item phase =>
    have shape : hub.unrendered = item :: hub.broadcast := by
      unfold unrendered
      rw [phase]
    have sendsRound : ∀ (memory : Hub) (fragment : ByteString) (shown : List ByteString),
        memory.subscribers = hub.subscribers → memory.pumps = hub.pumps →
        memory.broadcast = hub.broadcast → (memory.fanOut item fragment shown).Steady := by
      intro memory fragment shown subscribers pumps broadcast
      refine steady.mono Phase.noConfusion ?_ ?_ ?_ ?_
      · intro other member
        rw [shape]
        apply Or.inl
        apply List.mem_cons_of_mem
        rw [← broadcast]
        exact member
      · intro entry member
        simp only [fanOut, todo, List.mem_append, or_self, subscribers] at member
        exact List.mem_append_left _ member
      · intro thread present
        rw [fanOut, pumps]
        exact present
      · rw [fanOut, broadcast]
        exact steady.room
    split at rendered
    case isFalse =>
      cases rendered
      exact sendsRound hub [] [] rfl rfl rfl
    case isTrue =>
      split at rendered
      case h_1 event payload =>
        cases rendered
        exact sendsRound hub _ _ rfl rfl rfl
      case h_2 message payload =>
        cases rendered
        unfold renderMessage
        dsimp only
        split
        case h_1 => exact sendsRound _ _ _ rfl rfl rfl
        case h_2 panics =>
          have named := steady.renders item (by rw [shape]; exact List.mem_cons_self)
            message payload
          exact absurd (renderMessageHTMLTemplate_eq_none.mp panics) named

theorem Steady.offer (steady : hub.Steady) {entry : Entry}
    (offered : hub.offer entry = some after)
    (pumps : ∀ thread, (hub.pumps thread).isSome = true → (after.pumps thread).isSome = true) :
    after.Steady := by
  unfold Hub.offer at offered
  split at offered
  case h_2 => cases offered
  case h_1 item fragment shown todo pump phase found =>
    have left : hub.todo = todo := by
      unfold Hub.todo
      rw [phase]
    have items : hub.unrendered = hub.broadcast := by
      unfold unrendered
      rw [phase]
    have narrowed : ∀ other ∈ hub.subscribers ++ todo.erase entry,
        other ∈ hub.subscribers ++ hub.todo := by
      intro other member
      rw [left]
      exact (List.mem_append.mp member).elim (List.mem_append_left _)
        fun member => List.mem_append_right _ (List.mem_of_mem_erase member)
    split at offered
    case isFalse => cases offered
    case isTrue =>
      dsimp only at offered
      split at offered <;> cases offered
      · exact steady.mono Phase.noConfusion (fun _ member => .inl (items ▸ member)) narrowed
          pumps steady.room
      · exact steady.mono Phase.noConfusion (fun _ member => .inl (items ▸ member)) narrowed
          pumps steady.room

theorem Steady.happen (steady : hub.Steady) {surroundings : Surroundings} {event : HubEvent}
    (happened : hub.happen surroundings event = some after) : after.Steady := by
  have pumps : ∀ thread, (hub.pumps thread).isSome = true → (after.pumps thread).isSome = true :=
    fun _ => isSome_of_happen happened
  by_cases own : event.isPumps = true
  · rcases pump_of_happen own happened with ⟨thread, old, new, -, -, -, rfl⟩
    exact steady.mono steady.going (fun _ => .inl) (fun _ member => member) pumps steady.room
  cases event with
  | announce =>
      simp only [Hub.happen, Hub.announce] at happened
      split at happened
      case h_2 => cases happened
      case h_1 event phase =>
        have items := unrendered_of_phase phase rfl
        split at happened <;> cases happened
        next room =>
          refine steady.settle rfl ?_ (fun _ member => member) pumps ?_
          · intro item member
            rw [items]
            rcases List.mem_append.mp member with old | new
            · exact .inl old
            · rw [List.mem_singleton.mp new]
              exact .inr (Item.renders_ofEvent event)
          · rw [accept, List.length_append]
            exact room
        next =>
          exact steady.settle rfl (fun item member => .inl (items ▸ member))
            (fun _ member => member) pumps steady.room
  | unregister thread =>
      simp only [Hub.happen, Hub.unregister] at happened
      split at happened
      case h_2 => cases happened
      case h_1 pump phase found =>
        have items := unrendered_of_phase phase rfl
        split at happened <;> cases happened
        exact steady.settle idle_leaving (fun item member => .inl (items ▸ member))
          (fun _ member => (List.mem_filter.mp member).1) pumps steady.room
  | dequeue =>
      simp only [Hub.happen, Hub.dequeue] at happened
      split at happened <;> cases happened
      next item rest phase broadcast =>
        refine steady.mono Phase.noConfusion ?_ ?_ pumps ?_
        · intro other member
          rw [unrendered_of_phase phase rfl, broadcast]
          exact .inl member
        · intro entry member
          exact List.mem_append_left _ (by simpa [todo] using member)
        · have room := steady.room
          rw [broadcast] at room
          exact Nat.le_of_succ_le room
  | render => exact steady.render happened
  | offer entry => exact steady.offer happened pumps
  | finish =>
      simp only [Hub.happen, Hub.finish] at happened
      split at happened <;> cases happened
      next phase =>
        refine steady.settle rfl (fun item member => ?_) (fun _ member => member) pumps steady.room
        simp only [unrendered, phase]
        exact .inl member
  | stop =>
      cases happened
      exact steady.mono steady.going (fun _ => .inl) (fun _ member => member) pumps steady.room
  | exit =>
      simp only [Hub.happen, Hub.exit] at happened
      split at happened
      case h_2 => cases happened
      case h_1 phase =>
        have items := unrendered_of_phase phase rfl
        split at happened <;> cases happened
        exact steady.settle rfl (fun item member => .inl (items ▸ member))
          (fun _ member => member) pumps steady.room
  | write | cancel | close => exact absurd rfl own

theorem Steady.step {location : Location} (steady : hub.Steady) {action : HubAction}
    (sends : action.Sends (Item.Posted location)) (taken : hub.act action = some after) :
    after.Steady := by
  cases action with
  | send thread item =>
      have posted : item.Posted location := sends
      exact steady.send posted.renders taken
  | register thread subscriber => exact steady.register taken
  | happen surroundings event => exact steady.happen taken

theorem steady_of_run {location : Location} {actions : List HubAction}
    (run : Run act (fun _ action => action.Sends (Item.Posted location)) start actions hub) :
    hub.Steady :=
  run.invariant Steady (fun _ _ _ steady sends taken => steady.step sends taken) steady_start

end Steps

end Hub

end Grunt.Server
