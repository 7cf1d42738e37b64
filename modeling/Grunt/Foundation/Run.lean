import Mathlib.Logic.Basic
import Mathlib.Data.List.Basic

/-! # Runs of a transition function

A system is a partial transition function `next`. A run lists the events that
were taken, and `allowed` is a side condition on every one of them, read in
the state before the event. An unrestricted run allows everything.
-/

namespace Grunt.Foundation

variable {State Event : Type}

inductive Run (next : State → Event → Option State)
    (allowed : State → Event → Prop) : State → List Event → State → Prop
  | nil (state) : Run next allowed state [] state
  | cons {state middle final : State} {event : Event} {events : List Event} :
      allowed state event → next state event = some middle →
      Run next allowed middle events final →
      Run next allowed state (event :: events) final

/-- A run with no side condition. -/
abbrev AnyRun (next : State → Event → Option State) :=
  Run next fun _ _ => True

/-- What is observed along a run, each time in the state before an event. -/
def trace {Seen : Type} (next : State → Event → Option State)
    (observe : State → Event → List Seen) : State → List Event → List Seen
  | _, [] => []
  | state, event :: events =>
      observe state event ++
        match next state event with
        | some after => trace next observe after events
        | none => []

namespace Run

variable {next : State → Event → Option State}
variable {allowed stronger : State → Event → Prop}
variable {initial middle final : State} {first second : List Event}

theorem single {event : Event} (permitted : allowed initial event)
    (taken : next initial event = some final) :
    Run next allowed initial [event] final :=
  .cons permitted taken (.nil final)

theorem append (before : Run next allowed initial first middle)
    (after : Run next allowed middle second final) :
    Run next allowed initial (first ++ second) final := by
  induction before with
  | nil => exact after
  | cons permitted taken _ induction => exact .cons permitted taken (induction after)

theorem weaken (weaker : ∀ state event, stronger state event → allowed state event)
    (run : Run next stronger initial first final) :
    Run next allowed initial first final := by
  induction run with
  | nil => exact .nil _
  | cons permitted taken _ induction =>
      exact .cons (weaker _ _ permitted) taken induction

theorem restrict {Permitted : Event → Prop} (run : Run next allowed initial first final)
    (permitted : ∀ event ∈ first, Permitted event) :
    Run next (fun _ event => Permitted event) initial first final := by
  induction run with
  | nil => exact .nil _
  | cons _ taken _ induction =>
      exact .cons (permitted _ List.mem_cons_self) taken
        (induction fun event member => permitted event (List.mem_cons_of_mem _ member))

theorem any (run : Run next allowed initial first final) :
    AnyRun next initial first final :=
  run.weaken fun _ _ _ => trivial

/-- The invariant rule: what holds initially and is kept by every allowed
event holds at the end of every run. -/
theorem invariant (Holds : State → Prop)
    (kept : ∀ state event after, Holds state → allowed state event →
      next state event = some after → Holds after)
    (run : Run next allowed initial first final) (holds : Holds initial) :
    Holds final := by
  induction run with
  | nil => exact holds
  | cons permitted taken _ induction => exact induction (kept _ _ _ holds permitted taken)

/-- The invariant rule with a memory: what has been taken and observed so far. -/
theorem traced {Seen : Type} (observe : State → Event → List Seen)
    (Holds : State → List Event → List Seen → Prop)
    (kept : ∀ state past seen event after, Holds state past seen → allowed state event →
      next state event = some after →
      Holds after (past ++ [event]) (seen ++ observe state event))
    (run : Run next allowed initial first final) (holds : Holds initial [] []) :
    Holds final first (trace next observe initial first) := by
  have general : ∀ past seen, Holds initial past seen →
      Holds final (past ++ first) (seen ++ trace next observe initial first) := by
    clear holds
    induction run with
    | nil =>
        intro past seen holds
        rw [trace, List.append_nil, List.append_nil]
        exact holds
    | @cons state middle final event events permitted taken rest induction =>
        intro past seen holds
        have later := induction _ _ (kept state past seen event middle holds permitted taken)
        rw [trace, taken]
        rw [List.append_assoc, List.append_assoc] at later
        exact later
  exact general [] [] holds

theorem forall_trace_iff {Seen : Type} {observe : State → Event → List Seen} {Holds : Seen → Prop}
    (run : Run next allowed initial first final) :
    (∀ seen ∈ trace next observe initial first, Holds seen) ↔
      Run next (fun state event => ∀ seen ∈ observe state event, Holds seen) initial first
        final := by
  induction run with
  | nil state =>
      constructor
      · exact fun _ => .nil state
      · intro _ seen member
        cases member
  | cons permitted taken rest induction =>
      rw [trace, taken]
      simp only [List.mem_append, or_imp, forall_and]
      rw [induction]
      constructor
      · exact fun holds => .cons holds.1 taken holds.2
      · intro all
        cases all with
        | cons holds again others =>
            rw [taken] at again
            cases again
            exact ⟨holds, others⟩

theorem relation (Related : State → State → Prop)
    (reflexive : ∀ state, Related state state)
    (transitive : ∀ one two three, Related one two → Related two three →
      Related one three)
    (kept : ∀ state event after, allowed state event →
      next state event = some after → Related state after)
    (run : Run next allowed initial first final) : Related initial final := by
  induction run with
  | nil => exact reflexive _
  | cons permitted taken _ induction =>
      exact transitive _ _ _ (kept _ _ _ permitted taken) induction

theorem along (Holds : State → Prop)
    (kept : ∀ state event after, Holds state → allowed state event →
      next state event = some after → Holds after)
    (run : Run next allowed initial first final) (holds : Holds initial) :
    Run next (fun state event => allowed state event ∧ Holds state) initial first final := by
  induction run with
  | nil => exact .nil _
  | cons permitted taken _ induction =>
      exact .cons ⟨permitted, holds⟩ taken (induction (kept _ _ _ holds permitted taken))

theorem convert {other : State → Event → Prop} (Holds : State → Prop)
    (kept : ∀ state event after, Holds state → next state event = some after → Holds after)
    (follows : ∀ state event after, Holds state → next state event = some after →
      allowed state event → other state event)
    (run : Run next allowed initial first final) (holds : Holds initial) :
    Run next other initial first final := by
  induction run with
  | nil => exact .nil _
  | cons permitted taken _ induction =>
      exact .cons (follows _ _ _ holds taken permitted) taken
        (induction (kept _ _ _ holds taken))

theorem never (Changed : State → Prop)
    (kept : ∀ state event after, Changed state → allowed state event →
      next state event = some after → Changed after)
    (run : Run next allowed initial first final) (unchanged : ¬ Changed final) :
    ¬ Changed initial ∧ Run next (fun state event => allowed state event ∧
      ¬ Changed state ∧ ∀ after, next state event = some after → ¬ Changed after)
      initial first final := by
  induction run with
  | nil => exact ⟨unchanged, .nil _⟩
  | @cons state middle final event events permitted taken rest induction =>
      obtain ⟨middleUnchanged, quiet⟩ := induction unchanged
      have stateUnchanged : ¬ Changed state := fun changed =>
        middleUnchanged (kept state event middle changed permitted taken)
      refine ⟨stateUnchanged, .cons ⟨permitted, stateUnchanged, ?_⟩ taken quiet⟩
      intro after reached
      rw [taken] at reached
      cases reached
      exact middleUnchanged

theorem ahead (run : Run next allowed initial first final) :
    Run next (fun state event => allowed state event ∧
      ∃ events, Run next allowed state events final) initial first final := by
  induction run with
  | nil => exact .nil _
  | cons permitted taken rest induction =>
      exact .cons ⟨permitted, _, .cons permitted taken rest⟩ taken induction

theorem first_change (Changed : State → Prop)
    (run : Run next allowed initial first final)
    (unchanged : ¬ Changed initial) (changed : Changed final) :
    ∃ earlier event later one two, first = earlier ++ event :: later ∧
      Run next (fun state event => allowed state event ∧
        ∀ after, next state event = some after → ¬ Changed after) initial earlier one ∧
      ¬ Changed one ∧ allowed one event ∧ next one event = some two ∧ Changed two ∧
      Run next allowed two later final := by
  induction run with
  | nil => exact absurd changed unchanged
  | @cons state middle final event events permitted taken rest induction =>
      by_cases now : Changed middle
      · exact ⟨[], event, events, state, middle, rfl, .nil state, unchanged, permitted,
          taken, now, rest⟩
      · obtain ⟨earlier, change, later, one, two, rfl, quiet, facts⟩ := induction now changed
        refine ⟨event :: earlier, change, later, one, two, rfl, ?_, facts⟩
        refine .cons ⟨permitted, fun after reached => ?_⟩ taken quiet
        rw [taken] at reached
        cases reached
        exact now

theorem reaches (measure : State → Nat) (Goal Holds : State → Prop)
    (goesOn : ∀ state, Holds state → Goal state ∨ ∃ event after, allowed state event ∧
      next state event = some after ∧ Holds after ∧ measure after < measure state)
    (holds : Holds initial) :
    ∃ events final, Run next allowed initial events final ∧ Holds final ∧ Goal final := by
  induction size : measure initial using Nat.strongRecOn generalizing initial with
  | ind bound induction =>
      rcases goesOn initial holds with reached | ⟨event, after, permitted, taken, kept, less⟩
      · exact ⟨[], initial, .nil initial, holds, reached⟩
      · rw [size] at less
        rcases induction (measure after) less kept rfl with ⟨events, final, run, facts⟩
        exact ⟨event :: events, final, .cons permitted taken run, facts⟩

end Run

/-- Take the events one by one; `none` when one of them is not enabled. -/
def execute (next : State → Event → Option State) :
    State → List Event → Option State
  | state, [] => some state
  | state, event :: events =>
      match next state event with
      | some middle => execute next middle events
      | none => none

theorem run_of_execute {next : State → Event → Option State} :
    ∀ {events : List Event} {initial final : State},
      execute next initial events = some final → AnyRun next initial events final
  | [], initial, final, executed => by
      cases executed
      exact .nil initial
  | event :: events, initial, final, executed => by
      simp only [execute] at executed
      split at executed
      case h_1 middle taken => exact .cons trivial taken (run_of_execute executed)
      case h_2 => cases executed

def executeWhere (next : State → Event → Option State)
    (allowed : State → Event → Bool) : State → List Event → Option State
  | state, [] => some state
  | state, event :: events =>
      if allowed state event then
        match next state event with
        | some middle => executeWhere next allowed middle events
        | none => none
      else none

theorem run_of_executeWhere {next : State → Event → Option State}
    {allowed : State → Event → Bool} :
    ∀ {events : List Event} {initial final : State},
      executeWhere next allowed initial events = some final →
      Run next (fun state event => allowed state event = true) initial events final
  | [], initial, final, executed => by
      cases executed
      exact .nil initial
  | event :: events, initial, final, executed => by
      simp only [executeWhere] at executed
      split at executed
      case isTrue permitted =>
        split at executed
        case h_1 middle taken => exact .cons permitted taken (run_of_executeWhere executed)
        case h_2 => cases executed
      case isFalse => cases executed

theorem execute_of_run {next : State → Event → Option State} {initial final : State}
    {events : List Event} {allowed : State → Event → Prop}
    (run : Run next allowed initial events final) :
    execute next initial events = some final := by
  induction run with
  | nil => rfl
  | cons _ taken _ induction => simp only [execute, taken, induction]

end Grunt.Foundation
