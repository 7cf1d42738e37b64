import Grunt.Foundation.Interleaving

/-! # Where records come from

What a thread needs before it performs an operation held, in every run, of all
that it had performed by then. So a record that only some operation makes can
be traced to a request and to what that request had been answered before.
-/

namespace Grunt.Foundation.Machine

variable {Op : Type} {Result : Op → Type}
variable {World Choice Environment Request Response : Type}
variable {machine : Machine Op Result World Choice Environment}
variable {handler : Request → Program Op Result Response}
variable {config after : Config Op Result World Request Response}

def Throughout {Entry : Type} (Holds : List Entry → Entry → Prop) (history : List Entry) : Prop :=
  ∀ before entry later, history = before ++ entry :: later → Holds before entry

section Throughout

variable {Entry : Type} {Holds : List Entry → Entry → Prop} {history more : List Entry}

theorem throughout_nil : Throughout Holds [] := by
  intro before entry later same
  simp at same

theorem Throughout.snoc {entry : Entry} (throughout : Throughout Holds history)
    (holds : Holds history entry) : Throughout Holds (history ++ [entry]) := by
  intro before other later same
  rcases List.eq_nil_or_concat later with rfl | ⟨rest, last, rfl⟩
  · obtain ⟨earlier, ends⟩ := List.append_inj' same rfl
    cases earlier
    cases ends
    exact holds
  · rw [List.concat_eq_append, ← List.cons_append, ← List.append_assoc] at same
    exact throughout before other rest (List.append_inj' same rfl).1

theorem Throughout.of_append (throughout : Throughout Holds (history ++ more)) :
    Throughout Holds history := by
  intro before entry later same
  exact throughout before entry (later ++ more) (by rw [same]; simp)

theorem Throughout.last {entry : Entry} (throughout : Throughout Holds (history ++ [entry])) :
    Holds history entry :=
  throughout history entry [] rfl

end Throughout

def Accounted (Needs : Nat → Op → List (Performed Op Result) → Prop)
    (history : List (Performed Op Result)) : Prop :=
  Throughout (fun before performed => Needs performed.thread performed.op
    (before.filter fun earlier => earlier.thread = performed.thread)) history

theorem before_subset_own {scene : Scene Op Result World}
    {before later : List (Performed Op Result)} {performed : Performed Op Result}
    (split : scene.history = before ++ performed :: later) :
    (before.filter fun earlier => earlier.thread = performed.thread) ⊆
      scene.own performed.thread := by
  rw [Scene.own, split, List.filter_append]
  exact List.subset_append_left _ _

theorem Obeys.and {α : Type} {thread : Nat} {Needs Others : Op → List (Performed Op Result) → Prop}
    {Post Besides : α → List (Performed Op Result) → Prop} {program : Program Op Result α}
    {seen : List (Performed Op Result)} (first : Obeys thread Needs Post program seen)
    (second : Obeys thread Others Besides program seen) :
    Obeys thread Needs (fun value seen => Post value seen ∧ Besides value seen) program seen := by
  induction program generalizing seen with
  | done value => exact ⟨first, second⟩
  | perform op next induction =>
      exact ⟨first.1, fun result => induction result (first.2 result) (second.2 result)⟩

/-! ## The operations of a run -/

section Needs

variable {Needs : Nat → Request → Op → List (Performed Op Result) → Prop}
variable {Post : Nat → Request → Response → List (Performed Op Result) → Prop}

def Requested (Needs : Nat → Request → Op → List (Performed Op Result) → Prop)
    (config : Config Op Result World Request Response) (thread : Nat) (op : Op)
    (seen : List (Performed Op Result)) : Prop :=
  ∃ request, (config.threads thread).request = some request ∧ Needs thread request op seen

theorem tracking_obeys
    (obeys : ∀ thread request,
      Obeys thread (Needs thread request) (Post thread request) (handler request) []) :
    Tracking handler fun thread request rest seen =>
      Obeys thread (Needs thread request) (Post thread request) rest seen where
  initially := obeys
  kept := fun _ _ _ _ _ result held => held.2 result

theorem accounted_of_next
    (tracked : Tracked (fun thread request rest seen =>
      Obeys thread (Needs thread request) (Post thread request) rest seen) config)
    (accounted : Accounted (Requested Needs config) config.scene.history)
    {event : Event Request Choice Environment}
    (taken : machine.next handler config event = some after) :
    Accounted (Requested Needs after) after.scene.history := by
  have same : Accounted (Requested Needs after) config.scene.history := by
    intro before performed later split
    obtain ⟨request, arrived, needs⟩ := accounted before performed later split
    exact ⟨request, request_of_next arrived taken, needs⟩
  cases event with
  | arrive thread request =>
      obtain ⟨-, rfl⟩ := next_arrive taken
      exact same
  | step thread choice =>
      have still := taken
      obtain ⟨request, op, rest, result, scene, running, observed, rfl⟩ := next_step taken
      have arrived : (config.threads thread).request = some request := by rw [running]; rfl
      have history : scene.history = config.scene.history ++ [⟨thread, op, result⟩] :=
        (observe_eq_some.mp observed).2
      have needs := ((tracked thread).2 request _ running).1
      simp only [Config.set, history]
      exact Throughout.snoc same ⟨request, request_of_next arrived still, needs⟩
  | environment event =>
      obtain ⟨world, -, rfl⟩ := next_environment taken
      exact same
  | restart =>
      rw [next_restart taken] at same ⊢
      exact same

theorem accounted_of_run
    (obeys : ∀ thread request,
      Obeys thread (Needs thread request) (Post thread request) (handler request) [])
    {world : World} {allowed} {events : List (Event Request Choice Environment)}
    (run : Run (machine.next handler) allowed (Config.start world) events after) :
    Accounted (Requested Needs after) after.scene.history := by
  have both := run.invariant (fun config => Tracked (fun thread request rest seen =>
        Obeys thread (Needs thread request) (Post thread request) rest seen) config ∧
      Accounted (Requested Needs config) config.scene.history)
    (fun _ _ _ held _ taken => ⟨held.1.next (tracking_obeys obeys) taken,
      accounted_of_next held.1 held.2 taken⟩) ⟨tracked_start, throughout_nil⟩
  exact both.2

end Needs

end Grunt.Foundation.Machine
