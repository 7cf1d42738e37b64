import Grunt.Server.Steady

/-! # Who can be stuck

The goroutines that send to the hub: a stream handler on `register`, its pump
on `unregister`, a `SendMessage` handler on `broadcast`. As long as `Run` has
not returned it comes back to its `select` by itself, and there takes any of
them. Once it has returned nobody takes anything, and only what is still free
of the buffer is left.
-/

namespace Grunt.Server

open Foundation

/-- What `Run` does by itself between two rounds of its `select`. -/
def HubEvent.isRuns : HubEvent → Bool
  | .announce | .dequeue | .render | .offer _ | .finish => true
  | _ => false

/-- A goroutine at its send to the hub. -/
inductive Sending
  | register (thread : Nat) (subscriber : Subscriber)
  | unregister (thread : Nat)
  | broadcast (thread : Nat) (item : Item)

namespace Sending

def action (surroundings : Surroundings) : Sending → HubAction
  | register thread subscriber => .register thread subscriber
  | unregister thread => .happen surroundings (.unregister thread)
  | broadcast thread item => .send thread item

def isBroadcast : Sending → Bool
  | broadcast _ _ => true
  | _ => false

end Sending

namespace Hub

/-- Stream handlers register before they pump, and unregister after. -/
def AtSend (hub : Hub) : Sending → Prop
  | .register thread _ => hub.pumps thread = none
  | .unregister thread => ∃ pump, hub.pumps thread = some pump ∧ pump.phase = .unregistering
  | .broadcast _ _ => True

/-- Some continuation of the run lets the goroutine go on. -/
def CanSend (hub : Hub) (surroundings : Surroundings) (sending : Sending) : Prop :=
  ∃ actions after, AnyRun act hub actions after ∧
    (after.act (sending.action surroundings)).isSome = true

/-- `Run` waits in its `select`, or has returned, or can do its next step. -/
def RunGoesOn (hub : Hub) (surroundings : Surroundings) : Prop :=
  hub.phase = .selecting ∨ hub.phase = .stopped ∨
    ∃ event after, event.isRuns = true ∧ hub.happen surroundings event = some after

/-! ## Run comes back -/

/-- How many steps `Run` has before it at most, until it is in its `select`. -/
def busy (hub : Hub) : Nat :=
  match hub.phase with
  | .announcing _ => 1
  | .rendering _ => hub.subscribers.length + 2
  | .fanningOut _ _ _ todo => todo.length + 1
  | _ => 0

def SamePlaces (hub after : Hub) : Prop :=
  ∀ thread, (after.pumps thread).map Pump.phase = (hub.pumps thread).map Pump.phase

variable {hub after : Hub}

theorem samePlaces_of_pumps (pumps : after.pumps = hub.pumps) : hub.SamePlaces after :=
  fun thread => by rw [pumps]

theorem samePlaces_of_update {thread : Nat} {old new : Pump}
    (found : hub.pumps thread = some old)
    (pumps : after.pumps = Function.update hub.pumps thread (some new))
    (same : new.phase = old.phase) : hub.SamePlaces after := by
  intro other
  rw [pumps]
  by_cases equal : other = thread
  · rw [equal, Function.update_self, found, Option.map_some, Option.map_some, same]
  · rw [Function.update_of_ne equal]

theorem SamePlaces.trans {later : Hub} (first : hub.SamePlaces after)
    (second : after.SamePlaces later) : hub.SamePlaces later :=
  fun thread => (second thread).trans (first thread)

theorem AtSend.keep {sending : Sending} (atSend : hub.AtSend sending)
    (places : hub.SamePlaces after) : after.AtSend sending := by
  cases sending with
  | register thread subscriber =>
      have free : hub.pumps thread = none := atSend
      have place := places thread
      rw [free, Option.map_none, Option.map_eq_none_iff] at place
      exact place
  | unregister thread =>
      rcases atSend with ⟨pump, found, waiting⟩
      have place := places thread
      rw [found, Option.map_some, Option.map_eq_some_iff] at place
      rcases place with ⟨other, present, same⟩
      exact ⟨other, present, same.trans waiting⟩
  | broadcast thread item => trivial

/-- A step of `Run` towards its `select`. -/
structure Nears (surroundings : Surroundings) (hub : Hub) (event : HubEvent) (after : Hub) :
    Prop where
  own : event.isRuns = true
  happened : hub.happen surroundings event = some after
  running : after.phase ≠ .stopped
  less : after.busy < hub.busy
  places : hub.SamePlaces after

theorem nears_of_announcing {surroundings : Surroundings} {event : Client.Event}
    (phase : hub.phase = .announcing event) :
    ∃ after, hub.Nears surroundings .announce after := by
  have busy : hub.busy = 1 := by
    unfold Hub.busy
    rw [phase]
  have announced : ∃ after, hub.announce = some after ∧ after.phase = .selecting ∧
      after.pumps = hub.pumps := by
    unfold announce
    rw [phase]
    dsimp only
    split
    · exact ⟨_, rfl, rfl, rfl⟩
    · exact ⟨_, rfl, rfl, rfl⟩
  rcases announced with ⟨after, happened, selecting, pumps⟩
  refine ⟨after, rfl, happened, ?_, ?_, samePlaces_of_pumps pumps⟩
  · rw [selecting]
    exact Phase.noConfusion
  · rw [busy, Hub.busy, selecting]
    exact Nat.zero_lt_one

theorem Steady.nears_of_rendering (steady : hub.Steady) (surroundings : Surroundings)
    {item : Item} (phase : hub.phase = .rendering item) :
    ∃ after, hub.Nears surroundings .render after := by
  have busy : hub.busy = hub.subscribers.length + 2 := by
    unfold Hub.busy
    rw [phase]
  have rendered : ∃ after fragment shown, hub.render surroundings = some after ∧
      after.phase = .fanningOut item fragment shown hub.subscribers ∧
      after.pumps = hub.pumps := by
    unfold Hub.render
    rw [phase]
    dsimp only
    split
    case isFalse => exact ⟨_, [], [], rfl, rfl, rfl⟩
    case isTrue =>
      split
      case h_1 => exact ⟨_, _, _, rfl, rfl, rfl⟩
      case h_2 message payload =>
        have named := steady.renders item (by simp [unrendered, phase]) message payload
        unfold renderMessage
        dsimp only
        split
        case h_1 => exact ⟨_, _, _, rfl, rfl, rfl⟩
        case h_2 panics => exact absurd (renderMessageHTMLTemplate_eq_none.mp panics) named
  rcases rendered with ⟨after, fragment, shown, happened, sending, pumps⟩
  refine ⟨after, rfl, happened, ?_, ?_, samePlaces_of_pumps pumps⟩
  · rw [sending]
    exact Phase.noConfusion
  · rw [busy, Hub.busy, sending]
    exact Nat.lt_succ_self _

theorem nears_of_finished {surroundings : Surroundings} {item : Item} {fragment : ByteString}
    {shown : List ByteString} (phase : hub.phase = .fanningOut item fragment shown []) :
    ∃ after, hub.Nears surroundings .finish after := by
  have finished : hub.happen surroundings .finish = some { hub with phase := .selecting } := by
    rw [happen, finish, phase]
  refine ⟨_, rfl, finished, Phase.noConfusion, ?_, samePlaces_of_pumps rfl⟩
  rw [Hub.busy, Hub.busy, phase]
  exact Nat.zero_lt_one

theorem Steady.nears_of_fanningOut (steady : hub.Steady) (surroundings : Surroundings)
    {item : Item} {fragment : ByteString} {shown : List ByteString} {entry : Entry}
    {todo : List Entry} (phase : hub.phase = .fanningOut item fragment shown (entry :: todo)) :
    ∃ after, hub.Nears surroundings (.offer entry) after := by
  have busy : hub.busy = todo.length + 2 := by
    unfold Hub.busy
    rw [phase]
    rfl
  have waiting : entry ∈ hub.subscribers ++ hub.todo := by
    simp [Hub.todo, phase]
  rcases Option.isSome_iff_exists.mp (steady.present entry waiting) with ⟨pump, found⟩
  have offered : ∃ after, hub.offer entry = some after ∧
      after.phase = .fanningOut item fragment shown todo ∧ hub.SamePlaces after := by
    unfold Hub.offer
    rw [phase, found]
    dsimp only
    rw [if_pos List.mem_cons_self, List.erase_cons_head]
    split
    · exact ⟨_, rfl, rfl, samePlaces_of_pumps rfl⟩
    · exact ⟨_, rfl, rfl, samePlaces_of_update found rfl rfl⟩
  rcases offered with ⟨after, happened, sending, places⟩
  refine ⟨after, rfl, happened, ?_, ?_, places⟩
  · rw [sending]
    exact Phase.noConfusion
  · rw [busy, Hub.busy, sending]
    exact Nat.lt_succ_self _

theorem Steady.goesOn (steady : hub.Steady) (running : hub.phase ≠ .stopped)
    (surroundings : Surroundings) :
    hub.phase = .selecting ∨ ∃ event after, hub.Nears surroundings event after := by
  cases phase : hub.phase with
  | selecting => exact .inl rfl
  | announcing event => exact .inr ⟨_, nears_of_announcing phase⟩
  | rendering item => exact .inr ⟨_, steady.nears_of_rendering surroundings phase⟩
  | fanningOut item fragment shown todo =>
      cases todo with
      | nil => exact .inr ⟨_, nears_of_finished phase⟩
      | cons entry todo => exact .inr ⟨_, steady.nears_of_fanningOut surroundings phase⟩
  | stopped => exact absurd phase running
  | panicked => exact absurd phase steady.going

theorem Steady.reaches_selecting (steady : hub.Steady) (running : hub.phase ≠ .stopped)
    (surroundings : Surroundings) :
    ∃ actions after, AnyRun act hub actions after ∧ after.phase = .selecting ∧
      hub.SamePlaces after ∧ after.Steady := by
  have reached : ∃ actions after, AnyRun act hub actions after ∧
      (after.phase ≠ .stopped ∧ hub.SamePlaces after ∧ after.Steady) ∧
      after.phase = .selecting := by
    refine Run.reaches busy _ _ ?_ ⟨running, samePlaces_of_pumps rfl, steady⟩
    intro now holds
    rcases holds with ⟨running, places, steady⟩
    apply (steady.goesOn running surroundings).imp_right
    intro nearer
    rcases nearer with ⟨event, after, nears⟩
    exact ⟨.happen surroundings event, after, trivial, nears.happened,
      ⟨nears.running, places.trans nears.places, steady.happen nears.happened⟩, nears.less⟩
  rcases reached with ⟨actions, after, run, ⟨-, places, steady⟩, selecting⟩
  exact ⟨actions, after, run, selecting, places, steady⟩

/-! ## Run has returned -/

theorem stopped_of_act {action : HubAction} (stopped : hub.phase = .stopped)
    (taken : hub.act action = some after) :
    after.phase = .stopped ∧ hub.broadcast.length ≤ after.broadcast.length := by
  cases action with
  | send thread item =>
      simp only [act, Hub.send] at taken
      split at taken <;> cases taken
      exact ⟨stopped, by simp [accept]⟩
  | register thread subscriber => simp [act, Hub.register, stopped] at taken
  | happen surroundings event =>
      have happened : hub.happen surroundings event = some after := taken
      by_cases own : event.isPumps = true
      · rcases pump_of_happen own happened with ⟨thread, old, new, -, -, -, rfl⟩
        exact ⟨stopped, Nat.le_refl _⟩
      cases event with
      | stop =>
          cases happened
          exact ⟨stopped, Nat.le_refl _⟩
      | announce => simp [Hub.happen, Hub.announce, stopped] at happened
      | unregister thread => simp [Hub.happen, Hub.unregister, stopped] at happened
      | dequeue => simp [Hub.happen, Hub.dequeue, stopped] at happened
      | render => simp [Hub.happen, Hub.render, stopped] at happened
      | offer entry => simp [Hub.happen, Hub.offer, stopped] at happened
      | finish => simp [Hub.happen, Hub.finish, stopped] at happened
      | exit => simp [Hub.happen, Hub.exit, stopped] at happened
      | write | cancel | close => exact absurd rfl own

theorem stopped_of_run {actions : List HubAction} (stopped : hub.phase = .stopped)
    (run : AnyRun act hub actions after) :
    after.phase = .stopped ∧ hub.broadcast.length ≤ after.broadcast.length := by
  refine run.invariant (fun now => now.phase = .stopped ∧
    hub.broadcast.length ≤ now.broadcast.length) ?_ ⟨stopped, Nat.le_refl _⟩
  intro now action later holds _ taken
  have step := stopped_of_act holds.1 taken
  exact ⟨step.1, Nat.le_trans holds.2 step.2⟩

theorem canSend_of_stopped {surroundings : Surroundings} {sending : Sending}
    (stopped : hub.phase = .stopped) (canSend : hub.CanSend surroundings sending) :
    sending.isBroadcast = true ∧ hub.broadcast.length < channelCapacity := by
  rcases canSend with ⟨actions, after, run, enabled⟩
  rcases stopped_of_run stopped run with ⟨still, longer⟩
  cases sending with
  | register thread subscriber =>
      simp [Sending.action, act, Hub.register, still] at enabled
  | unregister thread =>
      simp [Sending.action, act, Hub.happen, Hub.unregister, still] at enabled
  | broadcast thread item =>
      refine ⟨rfl, Nat.lt_of_le_of_lt longer ?_⟩
      by_contra full
      simp [Sending.action, act, Hub.send, full] at enabled

/-! ## When a goroutine can go on -/

theorem act_of_selecting {surroundings : Surroundings} {sending : Sending}
    (selecting : hub.phase = .selecting) (atSend : hub.AtSend sending)
    (room : hub.broadcast.length < channelCapacity ∨ sending.isBroadcast = false) :
    (hub.act (sending.action surroundings)).isSome = true := by
  cases sending with
  | register thread subscriber =>
      have free : hub.pumps thread = none := atSend
      simp [Sending.action, act, Hub.register, selecting, free]
  | unregister thread =>
      rcases atSend with ⟨pump, found, waiting⟩
      simp [Sending.action, act, Hub.happen, Hub.unregister, selecting, found, waiting]
  | broadcast thread item =>
      rcases room with room | different
      · simp [Sending.action, act, Hub.send, room]
      · cases different

theorem Steady.canSend (steady : hub.Steady) (running : hub.phase ≠ .stopped)
    (surroundings : Surroundings) {sending : Sending} (atSend : hub.AtSend sending) :
    hub.CanSend surroundings sending := by
  rcases steady.reaches_selecting running surroundings with
    ⟨actions, waiting, run, selecting, places, later⟩
  by_cases room : waiting.broadcast.length < channelCapacity ∨ sending.isBroadcast = false
  · exact ⟨actions, waiting, run, act_of_selecting selecting (atSend.keep places) room⟩
  -- a full buffer is a reason for `Run` to take something from it
  rcases not_or.mp room with ⟨full, different⟩
  cases sending with
  | register | unregister => exact absurd rfl different
  | broadcast thread item =>
      cases buffer : waiting.broadcast with
      | nil =>
          rw [buffer] at full
          exact absurd (Nat.zero_lt_succ _) full
      | cons head rest =>
          have taken : waiting.act (.happen surroundings .dequeue) = some { waiting with
              broadcast := rest
              phase := .rendering head
              taken := waiting.taken ++ [head] } := by
            simp only [act, Hub.happen, Hub.dequeue, selecting, buffer]
          refine ⟨actions ++ [.happen surroundings .dequeue], _,
            run.append (.single trivial taken), ?_⟩
          have bound := later.room
          rw [buffer, List.length_cons] at bound
          simp only [Sending.action, act, Hub.send]
          rw [if_pos (Nat.lt_of_succ_le bound)]
          rfl

/-- A goroutine that sends to the hub can go on at some time exactly as long as
`Run` has not returned, or there is room in the buffer that it sends to; and
`Run` itself waits for nobody. -/
theorem canSend_iff_of_run {location : Location} {actions : List HubAction}
    (run : Run act (fun _ action => action.Sends (Item.Posted location)) start actions hub)
    (surroundings : Surroundings) :
    hub.RunGoesOn surroundings ∧ ∀ sending, hub.AtSend sending →
      (hub.CanSend surroundings sending ↔ hub.phase ≠ .stopped ∨
        sending.isBroadcast = true ∧ hub.broadcast.length < channelCapacity) := by
  have steady := steady_of_run run
  constructor
  · by_cases stopped : hub.phase = .stopped
    · exact .inr (.inl stopped)
    · rcases steady.goesOn stopped surroundings with selecting | ⟨event, after, nears⟩
      · exact .inl selecting
      · exact .inr (.inr ⟨event, after, nears.own, nears.happened⟩)
  · intro sending atSend
    constructor
    · intro canSend
      by_cases stopped : hub.phase = .stopped
      · exact .inr (canSend_of_stopped stopped canSend)
      · exact .inl stopped
    · intro condition
      rcases condition with running | ⟨isBroadcast, room⟩
      · exact steady.canSend running surroundings atSend
      · cases sending with
        | register | unregister => cases isBroadcast
        | broadcast thread item =>
            refine ⟨[], hub, .nil hub, ?_⟩
            simp only [Sending.action, act, Hub.send]
            rw [if_pos room]
            rfl

/-- Ann's stream is still open when the process is told to shut down: her
request ends when `Run` has returned. -/
def outlivesRun : List HubAction :=
  let surroundings := Surroundings.plain 0
  [.register 0 ⟨utf8 "abc", utf8 "ann", false⟩, .happen surroundings .announce,
    .happen surroundings .stop, .happen surroundings .exit, .happen surroundings (.cancel 0)]

theorem outlivesRun_run : ∃ hub : Hub,
    Run act (fun _ action => action.Sends (Item.Posted (Surroundings.plain 0).location)) start
      outlivesRun hub ∧ hub.phase = .stopped ∧
    (hub.pumps 0).map Pump.phase = some .unregistering := by
  have executed : (execute act start outlivesRun).map (fun hub =>
      (hub.phase, (hub.pumps 0).map Pump.phase)) =
      some (.stopped, some .unregistering) := by decide +kernel
  rcases Option.map_eq_some_iff.mp executed with ⟨hub, reached, shape⟩
  rcases Prod.mk.inj shape with ⟨stopped, waiting⟩
  have permitted : ∀ action ∈ outlivesRun,
      action.Sends (Item.Posted (Surroundings.plain 0).location) := by
    intro action member
    simp only [outlivesRun, List.mem_cons, List.not_mem_nil, or_false] at member
    rcases member with rfl | rfl | rfl | rfl | rfl <;> trivial
  exact ⟨hub, (run_of_execute reached).restrict permitted, stopped, waiting⟩

/-- Her pump is stuck. -/
theorem outlivesRun_stuck : ∃ hub : Hub,
    Run act (fun _ action => action.Sends (Item.Posted (Surroundings.plain 0).location)) start
      outlivesRun hub ∧ hub.AtSend (.unregister 0) ∧
    ∀ surroundings, ¬ hub.CanSend surroundings (.unregister 0) := by
  rcases outlivesRun_run with ⟨hub, run, stopped, place⟩
  rcases Option.map_eq_some_iff.mp place with ⟨pump, found, waiting⟩
  refine ⟨hub, run, ⟨pump, found, waiting⟩, fun surroundings canSend => ?_⟩
  exact Bool.false_ne_true (canSend_of_stopped stopped canSend).1

theorem outlivesRun_canSend_iff : ∃ hub : Hub,
    hub.RunGoesOn (Surroundings.plain 0) ∧ hub.AtSend (.unregister 0) ∧
    (hub.CanSend (Surroundings.plain 0) (.unregister 0) ↔ hub.phase ≠ .stopped ∨
      Sending.isBroadcast (.unregister 0) = true ∧ hub.broadcast.length < channelCapacity) := by
  rcases outlivesRun_run with ⟨hub, run, -, place⟩
  rcases Option.map_eq_some_iff.mp place with ⟨pump, found, waiting⟩
  have atSend : hub.AtSend (.unregister 0) := ⟨pump, found, waiting⟩
  have canSend := canSend_iff_of_run run (Surroundings.plain 0)
  exact ⟨hub, canSend.1, atSend, canSend.2 (.unregister 0) atSend⟩

end Hub

theorem canSend_of_serverRun {platform : Platform} {allowed} {tables : Storage.Tables}
    {clock : Instant} {events : List ServerEvent} {config : ServerConfig}
    (run : Run (next platform) allowed (start tables clock) events config)
    (running : config.scene.world.hub.phase ≠ .stopped) (surroundings : Surroundings)
    {sending : Sending} (atSend : config.scene.world.hub.AtSend sending) :
    config.scene.world.hub.CanSend surroundings sending := by
  rcases hubRun_of_run sendsOnly_posts run with ⟨actions, reached⟩
  have sends := reached.weaken fun _ _ permitted => permitted.1
  exact (Hub.steady_of_run sends).canSend running surroundings atSend

end Grunt.Server
