import Grunt.Foundation.Run

/-! # A party outside a system

The party goes through phases of its own. It looks at the system, and some of
its moves are events of the system as well.
-/

namespace Grunt.Foundation

/-- From a state of the system and a phase, a move leads to a phase and may
cause an event. -/
structure Party (State Event Phase Move : Type) where
  act : State → Phase → Move → Option (Phase × Option Event)

namespace Party

variable {State Event Phase Move : Type}

/-- An event of the system that the party has no part in, or a move. -/
inductive Step (Event Move : Type)
  | alone (event : Event)
  | move (move : Move)

variable (system : State → Event → Option State) (party : Party State Event Phase Move)

def next : State × Phase → Step Event Move → Option (State × Phase)
  | (state, phase), .alone event => (system state event).map fun after => (after, phase)
  | (state, phase), .move move =>
      match party.act state phase move with
      | some (later, some event) => (system state event).map fun after => (after, later)
      | some (later, none) => some (state, later)
      | none => none

/-- A side condition on the events of the system, whoever causes them. -/
def allows (allowed : State → Event → Bool) : State × Phase → Step Event Move → Bool
  | (state, _), .alone event => allowed state event
  | (state, phase), .move move =>
      match party.act state phase move with
      | some (_, some event) => allowed state event
      | _ => true

inductive Turn (state : State) (phase : Phase) : Step Event Move → State → Phase → Prop
  | alone {event : Event} {after : State} : system state event = some after →
      Turn state phase (.alone event) after phase
  | silent {move : Move} {later : Phase} : party.act state phase move = some (later, none) →
      Turn state phase (.move move) state later
  | acts {move : Move} {later : Phase} {event : Event} {after : State} :
      party.act state phase move = some (later, some event) → system state event = some after →
      Turn state phase (.move move) after later

variable {system} {party} {state after : State} {phase later : Phase} {step : Step Event Move}
variable {allowed : State → Event → Bool}

theorem turn_of_next (taken : party.next system (state, phase) step = some (after, later)) :
    Turn system party state phase step after later := by
  cases step with
  | alone event =>
      rcases Option.map_eq_some_iff.mp taken with ⟨reached, happened, same⟩
      cases same
      exact .alone happened
  | move move =>
      simp only [next] at taken
      split at taken
      case h_1 reached event acted =>
        rcases Option.map_eq_some_iff.mp taken with ⟨reached, happened, same⟩
        cases same
        exact .acts acted happened
      case h_2 reached acted =>
        cases taken
        exact .silent acted
      case h_3 => cases taken

theorem run_of_run {initial final : State × Phase} {steps : List (Step Event Move)}
    (run : Run (party.next system) (fun state step => party.allows allowed state step = true)
      initial steps final) :
    ∃ events, Run system (fun state event => allowed state event = true) initial.1 events
      final.1 := by
  induction run with
  | nil => exact ⟨[], .nil _⟩
  | @cons initial middle final step steps permitted taken _ induction =>
      rcases induction with ⟨events, rest⟩
      rcases initial with ⟨state, phase⟩
      rcases middle with ⟨after, later⟩
      cases turn_of_next taken with
      | alone happened => exact ⟨_, .cons permitted happened rest⟩
      | silent acted => exact ⟨events, rest⟩
      | acts acted happened =>
          simp only [allows, acted] at permitted
          exact ⟨_, .cons permitted happened rest⟩

end Party

end Grunt.Foundation
