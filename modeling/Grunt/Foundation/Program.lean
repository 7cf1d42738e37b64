import Mathlib.Logic.Basic

/-! # Programs over operations

A program is a finite tree: it either is done or performs one operation and
continues with that operation's result. The operations, their result types and
their meaning are parameters, so one program text serves for running alone,
for interleaving with others and for running against another backend.
-/

namespace Grunt.Foundation

inductive Program (Op : Type) (Result : Op → Type) (α : Type)
  | done (value : α)
  | perform (op : Op) (next : Result op → Program Op Result α)

namespace Program

variable {Op : Type} {Result : Op → Type} {α β γ : Type}

def bind : Program Op Result α → (α → Program Op Result β) → Program Op Result β
  | .done value, rest => rest value
  | .perform op next, rest => .perform op fun result => (next result).bind rest

instance : Monad (Program Op Result) where
  pure := .done
  bind := .bind

/-- The program that performs `op` and returns its result. -/
def call (op : Op) : Program Op Result (Result op) := .perform op .done

@[simp] theorem pure_eq (value : α) :
    (pure value : Program Op Result α) = .done value := rfl

@[simp] theorem done_bind (value : α) (rest : α → Program Op Result β) :
    (Program.done value >>= rest) = rest value := rfl

@[simp] theorem perform_bind (op : Op) (next : Result op → Program Op Result α)
    (rest : α → Program Op Result β) :
    (Program.perform op next >>= rest) =
      .perform op fun result => next result >>= rest := rfl

@[simp] theorem call_bind (op : Op) (rest : Result op → Program Op Result β) :
    (call op >>= rest) = .perform op rest := rfl

@[simp] theorem bind_done (program : Program Op Result α) :
    (program >>= fun value => .done value) = program := by
  induction program with
  | done value => rfl
  | perform op next induction =>
      rw [perform_bind]
      exact congrArg _ (funext induction)

/-- The program can return the value, given the right results. -/
def Returns : Program Op Result α → α → Prop
  | .done value, returned => value = returned
  | .perform _ next, returned => ∃ result, (next result).Returns returned

theorem returns_bind {program : Program Op Result α} {rest : α → Program Op Result β}
    {returned : β} :
    (program >>= rest).Returns returned ↔
      ∃ value, program.Returns value ∧ (rest value).Returns returned := by
  induction program with
  | done value => simp [Returns]
  | perform op next induction =>
      rw [perform_bind, Returns]
      constructor
      · intro returns
        rcases returns with ⟨result, returns⟩
        rcases (induction result).mp returns with ⟨value, first, second⟩
        exact ⟨value, ⟨result, first⟩, second⟩
      · intro returns
        rcases returns with ⟨value, ⟨result, first⟩, second⟩
        exact ⟨result, (induction result).mpr ⟨value, first, second⟩⟩

/-- Every operation the program can reach, whatever the results before it,
is permitted. -/
def Only (Permitted : Op → Prop) : Program Op Result α → Prop
  | .done _ => True
  | .perform op next => Permitted op ∧ ∀ result, (next result).Only Permitted

variable {Permitted Wider : Op → Prop}

@[simp] theorem only_done (value : α) :
    (Program.done value : Program Op Result α).Only Permitted := trivial

@[simp] theorem only_perform (op : Op) (next : Result op → Program Op Result α) :
    (Program.perform op next).Only Permitted ↔
      Permitted op ∧ ∀ result, (next result).Only Permitted := Iff.rfl

@[simp] theorem only_call (op : Op) :
    (call op : Program Op Result (Result op)).Only Permitted ↔ Permitted op := by
  simp [call]

theorem only_true (program : Program Op Result α) : program.Only fun _ => True := by
  induction program with
  | done value => trivial
  | perform op next induction => exact ⟨trivial, induction⟩

theorem Only.bind {program : Program Op Result α} {rest : α → Program Op Result β}
    (first : program.Only Permitted) (second : ∀ value, (rest value).Only Permitted) :
    (program >>= rest).Only Permitted := by
  induction program with
  | done value => exact second value
  | perform op next induction =>
      exact ⟨first.1, fun result => induction result (first.2 result)⟩

theorem Only.mono {program : Program Op Result α} (only : program.Only Permitted)
    (wider : ∀ op, Permitted op → Wider op) : program.Only Wider := by
  induction program with
  | done value => trivial
  | perform op next induction =>
      exact ⟨wider op only.1, fun result => induction result (only.2 result)⟩

/-! ## Programs over more operations -/

section Embed

variable {Outer : Type} {OuterResult : Outer → Type}
variable (inject : Op → Outer) (back : ∀ op, OuterResult (inject op) → Result op)

def embed : Program Op Result α → Program Outer OuterResult α
  | .done value => .done value
  | .perform op next => .perform (inject op) fun result => (next (back op result)).embed

variable {inject} {back}

theorem embed_bind (program : Program Op Result α) (rest : α → Program Op Result β) :
    ((program >>= rest).embed inject back : Program Outer OuterResult β) =
      program.embed inject back >>= fun value => (rest value).embed inject back := by
  induction program with
  | done value => rfl
  | perform op next induction => exact congrArg _ (funext fun result => induction _)

theorem Only.embed {Allowed : Outer → Prop} {program : Program Op Result α}
    (only : program.Only fun op => Allowed (inject op)) :
    (program.embed inject back : Program Outer OuterResult α).Only Allowed := by
  induction program with
  | done value => trivial
  | perform op next induction =>
      exact ⟨only.1, fun result => induction _ (only.2 _)⟩

end Embed

/-! ## Running a program alone -/

section Run

variable {World Choice : Type}
variable (meaning : (op : Op) → Choice → World → Option (Result op × World))

/-- Run the program to completion with one choice for every operation. -/
def run : Program Op Result α → List Choice → World → Option (α × World)
  | .done value, [], world => some (value, world)
  | .done _, _ :: _, _ => none
  | .perform _ _, [], _ => none
  | .perform op next, choice :: choices, world =>
      match meaning op choice world with
      | some (result, after) => (next result).run choices after
      | none => none

def runWith (choose : Op → Choice) : Program Op Result α → World → Option (α × World)
  | .done value, world => some (value, world)
  | .perform op next, world =>
      match meaning op (choose op) world with
      | some (result, after) => (next result).runWith choose after
      | none => none

variable {meaning} in
theorem runWith_perform {choose : Op → Choice} {op : Op} {next : Result op → Program Op Result α}
    {world middle : World} {result : Result op}
    (performed : meaning op (choose op) world = some (result, middle)) :
    (Program.perform op next).runWith meaning choose world =
      (next result).runWith meaning choose middle := by
  rw [runWith, performed]

variable {meaning} in
theorem runWith_none {choose : Op → Choice} {op : Op} {next : Result op → Program Op Result α}
    {world : World} (waits : meaning op (choose op) world = none) :
    (Program.perform op next).runWith meaning choose world = none := by
  rw [runWith, waits]

variable {meaning} in
theorem run_perform {op : Op} {next : Result op → Program Op Result α} {choice : Choice}
    {choices : List Choice} {world middle : World} {result : Result op}
    {completed : Option (α × World)} (performed : meaning op choice world = some (result, middle))
    (rest : (next result).run meaning choices middle = completed) :
    (Program.perform op next).run meaning (choice :: choices) world = completed := by
  simp only [run, performed]
  exact rest

variable {meaning} in
theorem run_done {value returned : α} {choices : List Choice} {world after : World} :
    (Program.done value : Program Op Result α).run meaning choices world =
      some (returned, after) ↔ choices = [] ∧ value = returned ∧ world = after := by
  cases choices <;> simp [run]

variable {meaning} in
theorem run_perform_iff {op : Op} {next : Result op → Program Op Result α}
    {choices : List Choice} {value : α} {world after : World} :
    (Program.perform op next).run meaning choices world = some (value, after) ↔
      ∃ choice later result middle, choices = choice :: later ∧
        meaning op choice world = some (result, middle) ∧
        (next result).run meaning later middle = some (value, after) := by
  constructor
  · intro completed
    cases choices with
    | nil => cases completed
    | cons choice later =>
        simp only [run] at completed
        split at completed
        case h_1 result middle performed =>
          exact ⟨choice, later, result, middle, rfl, performed, completed⟩
        case h_2 => cases completed
  · rintro ⟨choice, later, result, middle, rfl, performed, rest⟩
    exact run_perform performed rest

variable {meaning} in
theorem run_bind {program : Program Op Result α} {rest : α → Program Op Result β}
    {choices : List Choice} {world after : World} {value : β} :
    (program >>= rest).run meaning choices world = some (value, after) ↔
      ∃ first second result middle, choices = first ++ second ∧
        program.run meaning first world = some (result, middle) ∧
        (rest result).run meaning second middle = some (value, after) := by
  induction program generalizing choices world with
  | done result =>
      constructor
      · exact fun completed => ⟨[], choices, result, world, rfl, rfl, completed⟩
      · rintro ⟨first, second, result', middle, rfl, finished, completed⟩
        obtain ⟨rfl, rfl, rfl⟩ := run_done.mp finished
        exact completed
  | perform op next induction =>
      rw [perform_bind, run_perform_iff]
      constructor
      · rintro ⟨choice, later, result, middle, rfl, performed, completed⟩
        obtain ⟨first, second, value', reached, rfl, ran, rest⟩ :=
          (induction result).mp completed
        exact ⟨choice :: first, second, value', reached, rfl, run_perform performed ran, rest⟩
      · rintro ⟨first, second, value', reached, rfl, ran, rest⟩
        obtain ⟨choice, later, result, middle, rfl, performed, remaining⟩ :=
          run_perform_iff.mp ran
        exact ⟨choice, later ++ second, result, middle, rfl, performed,
          (induction result).mpr ⟨later, second, value', reached, rfl, remaining, rest⟩⟩

def Ensures (Post : α → World → Prop) : Program Op Result α → World → Prop
  | .done value, world => Post value world
  | .perform op next, world => ∀ choice result after,
      meaning op choice world = some (result, after) →
      (next result).Ensures Post after

variable {meaning} {Post Weaker : α → World → Prop}

theorem Ensures.sound {program : Program Op Result α} {world : World}
    (ensures : program.Ensures meaning Post world) :
    ∀ {choices : List Choice} {value : α} {after : World},
      program.run meaning choices world = some (value, after) → Post value after := by
  induction program generalizing world with
  | done value =>
      intro choices other after completed
      obtain ⟨-, rfl, rfl⟩ := run_done.mp completed
      exact ensures
  | perform op next induction =>
      intro choices value after completed
      obtain ⟨choice, later, result, middle, -, performed, rest⟩ := run_perform_iff.mp completed
      exact induction result (ensures choice result middle performed) rest

theorem Ensures.mono {program : Program Op Result α} {world : World}
    (ensures : program.Ensures meaning Post world)
    (weaker : ∀ value after, Post value after → Weaker value after) :
    program.Ensures meaning Weaker world := by
  induction program generalizing world with
  | done value => exact weaker value world ensures
  | perform op next induction =>
      exact fun choice result after performed =>
        induction result (ensures choice result after performed)

theorem Ensures.and {Other : α → World → Prop} {program : Program Op Result α} {world : World}
    (first : program.Ensures meaning Post world) (second : program.Ensures meaning Other world) :
    program.Ensures meaning (fun value after => Post value after ∧ Other value after) world := by
  induction program generalizing world with
  | done value => exact ⟨first, second⟩
  | perform op next induction =>
      exact fun choice result after performed => induction result
        (first choice result after performed) (second choice result after performed)

theorem Ensures.bind {Middle : α → World → Prop} {Final : β → World → Prop}
    {program : Program Op Result α} {rest : α → Program Op Result β} {world : World}
    (first : program.Ensures meaning Middle world)
    (second : ∀ value after, Middle value after →
      (rest value).Ensures meaning Final after) :
    (program >>= rest).Ensures meaning Final world := by
  induction program generalizing world with
  | done value => exact second value world first
  | perform op next induction =>
      exact fun choice result after performed =>
        induction result (first choice result after performed)

theorem Only.ensures {Kept : World → Prop} {program : Program Op Result α}
    (only : program.Only Permitted)
    (kept : ∀ op choice world result after, Permitted op → Kept world →
      meaning op choice world = some (result, after) → Kept after)
    {world : World} (holds : Kept world) :
    program.Ensures meaning (fun _ => Kept) world := by
  induction program generalizing world with
  | done value => exact holds
  | perform op next induction =>
      exact fun choice result after performed =>
        induction result (only.2 result) (kept op choice world result after only.1
          holds performed)

/-- Two worlds that the permitted operations cannot tell apart stay so, and
the program returns the same value in both. -/
theorem Only.run_agree {Alike : World → World → Prop} {program : Program Op Result α}
    (only : program.Only Permitted)
    (agree : ∀ op choice left right, Permitted op → Alike left right →
      ∀ result afterLeft, meaning op choice left = some (result, afterLeft) →
        ∃ afterRight, meaning op choice right = some (result, afterRight) ∧
          Alike afterLeft afterRight) :
    ∀ {choices : List Choice} {left right afterLeft : World} {value : α},
      Alike left right → program.run meaning choices left = some (value, afterLeft) →
      ∃ afterRight, program.run meaning choices right = some (value, afterRight) ∧
        Alike afterLeft afterRight := by
  induction program with
  | done value =>
      intro choices left right afterLeft other alike completed
      obtain ⟨rfl, rfl, rfl⟩ := run_done.mp completed
      exact ⟨right, rfl, alike⟩
  | perform op next induction =>
      intro choices left right afterLeft value alike completed
      obtain ⟨choice, later, result, middle, rfl, performed, rest⟩ :=
        run_perform_iff.mp completed
      obtain ⟨middleRight, performedRight, middleAlike⟩ :=
        agree op choice left right only.1 alike result middle performed
      obtain ⟨afterRight, completedRight, afterAlike⟩ :=
        induction result (only.2 result) middleAlike rest
      exact ⟨afterRight, run_perform performedRight completedRight, afterAlike⟩

end Run

end Program

end Grunt.Foundation
