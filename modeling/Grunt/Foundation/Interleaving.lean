import Mathlib.Logic.Function.Basic
import Grunt.Foundation.Program
import Grunt.Foundation.Run

/-! # Interleaved programs

Requests arrive at numbered threads. Every thread runs the program its handler
gives it, one operation at a time, between the operations of all others, the
events of an environment and restarts that end whatever is in flight. The
operations performed and their results are kept as a history.

The second half is a rely-guarantee logic for such systems: a thread is
proved against the interference it has to expect, and the soundness theorem
turns those proofs into facts about every configuration of every run.
-/

namespace Grunt.Foundation

structure Machine (Op : Type) (Result : Op → Type)
    (World Choice Environment : Type) where
  perform : Nat → (op : Op) → Choice → World → Option (Result op × World)
  environment : Environment → World → Option World
  restart : World → World

structure Performed (Op : Type) (Result : Op → Type) where
  thread : Nat
  op : Op
  result : Result op

/-- The shared state together with the operations that led to it. -/
structure Scene (Op : Type) (Result : Op → Type) (World : Type) where
  world : World
  history : List (Performed Op Result)

inductive Thread (Op : Type) (Result : Op → Type) (Request Response : Type)
  | idle
  | running (request : Request) (rest : Program Op Result Response)
  | killed (request : Request)

namespace Thread

variable {Op : Type} {Result : Op → Type} {Request Response : Type}

def kill : Thread Op Result Request Response → Thread Op Result Request Response
  | .idle => .idle
  | .running request (.done response) => .running request (.done response)
  | .running request (.perform _ _) => .killed request
  | .killed request => .killed request

def request : Thread Op Result Request Response → Option Request
  | .idle => none
  | .running request _ => some request
  | .killed request => some request

def inFlight : Thread Op Result Request Response → Bool
  | .running _ (.perform _ _) => true
  | _ => false

def response : Thread Op Result Request Response → Option Response
  | .running _ (.done response) => some response
  | _ => none

theorem eq_done {thread : Thread Op Result Request Response} {request : Request}
    {response : Response} (arrived : thread.request = some request)
    (responded : thread.response = some response) :
    thread = .running request (.done response) := by
  cases thread with
  | idle | killed => cases responded
  | running own rest =>
      cases rest with
      | perform op next => cases responded
      | done answer =>
          cases arrived
          cases responded
          rfl

end Thread

structure Config (Op : Type) (Result : Op → Type) (World Request Response : Type) where
  scene : Scene Op Result World
  threads : Nat → Thread Op Result Request Response

inductive Event (Request Choice Environment : Type)
  | arrive (thread : Nat) (request : Request)
  | step (thread : Nat) (choice : Choice)
  | environment (event : Environment)
  | restart

def Event.thread {Request Choice Environment : Type} :
    Event Request Choice Environment → Option Nat
  | .arrive thread _ => some thread
  | .step thread _ => some thread
  | .environment _ => none
  | .restart => none

variable {Op : Type} {Result : Op → Type}
variable {World World' Choice Environment Request Response α β : Type}

namespace Scene

/-- A world nothing has happened in. -/
def start (world : World) : Scene Op Result World where
  world := world
  history := []

def own (scene : Scene Op Result World) (thread : Nat) : List (Performed Op Result) :=
  scene.history.filter fun performed => performed.thread = thread

end Scene

namespace Config

/-- Nothing has arrived and nothing has happened. -/
def start (world : World) : Config Op Result World Request Response where
  scene := Scene.start world
  threads := fun _ => .idle

def set (config : Config Op Result World Request Response) (thread : Nat)
    (status : Thread Op Result Request Response) :
    Config Op Result World Request Response where
  scene := config.scene
  threads := Function.update config.threads thread status

end Config

namespace Machine

variable (machine : Machine Op Result World Choice Environment)
variable (handler : Request → Program Op Result Response)

def observe (thread : Nat) (op : Op) (choice : Choice) (scene : Scene Op Result World) :
    Option (Result op × Scene Op Result World) :=
  match machine.perform thread op choice scene.world with
  | some (result, world) =>
      some (result, ⟨world, scene.history ++ [⟨thread, op, result⟩]⟩)
  | none => none

def next (config : Config Op Result World Request Response) :
    Event Request Choice Environment → Option (Config Op Result World Request Response)
  | .arrive thread request =>
      match config.threads thread with
      | .idle => some (config.set thread (.running request (handler request)))
      | _ => none
  | .step thread choice =>
      match config.threads thread with
      | .running request (.perform op rest) =>
          match machine.observe thread op choice config.scene with
          | some (result, scene) =>
              some ({ config with scene := scene }.set thread
                (.running request (rest result)))
          | none => none
      | _ => none
  | .environment event =>
      match machine.environment event config.scene.world with
      | some world => some { config with scene := ⟨world, config.scene.history⟩ }
      | none => none
  | .restart =>
      some {
        scene := ⟨machine.restart config.scene.world, config.scene.history⟩
        threads := fun thread => (config.threads thread).kill }

variable {machine} {handler}

theorem observe_eq_some {thread : Nat} {op : Op} {choice : Choice}
    {scene after : Scene Op Result World} {result : Result op} :
    machine.observe thread op choice scene = some (result, after) ↔
      machine.perform thread op choice scene.world = some (result, after.world) ∧
        after.history = scene.history ++ [⟨thread, op, result⟩] := by
  unfold observe
  constructor
  · intro observed
    split at observed
    case h_1 performed =>
      cases observed
      exact ⟨performed, rfl⟩
    case h_2 => cases observed
  · rintro ⟨performed, noted⟩
    rw [performed]
    cases after
    cases noted
    rfl

theorem own_of_observe {thread : Nat} {op : Op} {choice : Choice}
    {scene after : Scene Op Result World} {result : Result op}
    (observed : machine.observe thread op choice scene = some (result, after)) :
    after.own thread = scene.own thread ++ [⟨thread, op, result⟩] := by
  simp [Scene.own, (observe_eq_some.mp observed).2]

theorem own_of_observe_other {thread other : Nat} (different : other ≠ thread)
    {op : Op} {choice : Choice} {scene after : Scene Op Result World} {result : Result op}
    (observed : machine.observe thread op choice scene = some (result, after)) :
    after.own other = scene.own other := by
  simp [Scene.own, (observe_eq_some.mp observed).2, different.symm]

section Inversion

variable {config after : Config Op Result World Request Response}

theorem next_arrive {thread : Nat} {request : Request}
    (taken : machine.next handler config (.arrive thread request) = some after) :
    config.threads thread = .idle ∧
      after = config.set thread (.running request (handler request)) := by
  simp only [next] at taken
  split at taken
  case h_1 idle =>
    cases taken
    exact ⟨idle, rfl⟩
  case h_2 => cases taken

theorem next_step {thread : Nat} {choice : Choice}
    (taken : machine.next handler config (.step thread choice) = some after) :
    ∃ request op rest result scene,
      config.threads thread = .running request (.perform op rest) ∧
      machine.observe thread op choice config.scene = some (result, scene) ∧
      after = { config with scene := scene }.set thread
        (.running request (rest result)) := by
  simp only [next] at taken
  split at taken
  case h_1 request op rest running =>
    split at taken
    case h_1 result scene observed =>
      cases taken
      exact ⟨request, op, rest, result, scene, running, observed, rfl⟩
    case h_2 => cases taken
  case h_2 => cases taken

theorem next_environment {event : Environment}
    (taken : machine.next handler config (.environment event) = some after) :
    ∃ world, machine.environment event config.scene.world = some world ∧
      after = { config with scene := ⟨world, config.scene.history⟩ } := by
  simp only [next] at taken
  split at taken
  case h_1 world happened =>
    cases taken
    exact ⟨world, happened, rfl⟩
  case h_2 => cases taken

theorem next_restart
    (taken : machine.next handler config .restart = some after) :
    after = {
      scene := ⟨machine.restart config.scene.world, config.scene.history⟩
      threads := fun thread => (config.threads thread).kill } := by
  cases taken
  rfl

theorem request_of_next {event : Event Request Choice Environment} {thread : Nat}
    {request : Request} (arrived : (config.threads thread).request = some request)
    (taken : machine.next handler config event = some after) :
    (after.threads thread).request = some request := by
  cases event with
  | arrive arriving incoming =>
      obtain ⟨idle, rfl⟩ := next_arrive taken
      by_cases same : thread = arriving
      · rw [same, idle] at arrived
        cases arrived
      · simpa only [Config.set, Function.update_of_ne same] using arrived
  | step stepping choice =>
      obtain ⟨own, op, next, result, scene, status, -, rfl⟩ := next_step taken
      by_cases same : thread = stepping
      · subst thread
        rw [status] at arrived
        simp only [Config.set, Function.update_self]
        exact arrived
      · simpa only [Config.set, Function.update_of_ne same] using arrived
  | environment event =>
      obtain ⟨world, -, rfl⟩ := next_environment taken
      exact arrived
  | restart =>
      rw [next_restart taken]
      simp only
      cases status : config.threads thread with
      | idle => rwa [status] at arrived
      | killed ended => rwa [status] at arrived
      | running own program =>
          rw [status] at arrived
          cases program <;> exact arrived

theorem request_of_run {allowed} {events : List (Event Request Choice Environment)}
    (run : Run (machine.next handler) allowed config events after) {thread : Nat}
    {request : Request} (arrived : (config.threads thread).request = some request) :
    (after.threads thread).request = some request :=
  run.invariant (fun config => (config.threads thread).request = some request)
    (fun _ _ _ arrived _ taken => request_of_next arrived taken) arrived

theorem finished_of_next {event : Event Request Choice Environment} {thread : Nat}
    {request : Request} {response : Response}
    (finished : config.threads thread = .running request (.done response))
    (taken : machine.next handler config event = some after) :
    after.threads thread = .running request (.done response) := by
  cases event with
  | arrive arriving incoming =>
      rcases next_arrive taken with ⟨idle, rfl⟩
      have different : thread ≠ arriving := by
        intro same
        rw [same, idle] at finished
        cases finished
      simpa only [Config.set, Function.update_of_ne different] using finished
  | step stepping choice =>
      rcases next_step taken with ⟨own, op, next, result, scene, running, -, rfl⟩
      have different : thread ≠ stepping := by
        intro same
        rw [same, running] at finished
        cases finished
      simpa only [Config.set, Function.update_of_ne different] using finished
  | environment event =>
      rcases next_environment taken with ⟨world, -, rfl⟩
      exact finished
  | restart =>
      rw [next_restart taken]
      simp only [finished, Thread.kill]

theorem idle_of_next {event : Event Request Choice Environment} {thread : Nat}
    (idle : config.threads thread = .idle) (foreign : ∀ request, event ≠ .arrive thread request)
    (taken : machine.next handler config event = some after) :
    after.threads thread = .idle := by
  cases event with
  | arrive arriving incoming =>
      obtain ⟨-, rfl⟩ := next_arrive taken
      have different : thread ≠ arriving := by
        rintro rfl
        exact foreign incoming rfl
      simpa only [Config.set, Function.update_of_ne different] using idle
  | step stepping choice =>
      obtain ⟨request, op, rest, _, _, running, _, rfl⟩ := next_step taken
      have different : thread ≠ stepping := by
        rintro rfl
        cases running.symm.trans idle
      simpa only [Config.set, Function.update_of_ne different] using idle
  | environment event =>
      obtain ⟨world, -, rfl⟩ := next_environment taken
      exact idle
  | restart =>
      rw [next_restart taken]
      simp only [idle, Thread.kill]

theorem idle_of_run {allowed} {events : List (Event Request Choice Environment)}
    (run : Run (machine.next handler) allowed config events after) {thread : Nat}
    (idle : config.threads thread = .idle)
    (foreign : ∀ request, .arrive thread request ∉ events) : after.threads thread = .idle := by
  induction run with
  | nil => exact idle
  | cons _ taken _ induction =>
      refine induction (idle_of_next idle (fun request same => ?_) taken) fun request member =>
        foreign request (List.mem_cons_of_mem _ member)
      exact foreign request (same ▸ List.mem_cons_self)

theorem history_of_next {event : Event Request Choice Environment}
    (taken : machine.next handler config event = some after) :
    config.scene.history <+: after.scene.history := by
  cases event with
  | arrive arriving incoming =>
      obtain ⟨-, rfl⟩ := next_arrive taken
      exact List.prefix_rfl
  | step stepping choice =>
      obtain ⟨_, _, _, _, scene, _, observed, rfl⟩ := next_step taken
      exact ⟨_, (observe_eq_some.mp observed).2.symm⟩
  | environment event =>
      obtain ⟨world, -, rfl⟩ := next_environment taken
      exact List.prefix_rfl
  | restart =>
      have restarted := next_restart taken
      subst restarted
      exact List.prefix_rfl

theorem history_of_run {allowed} {events : List (Event Request Choice Environment)}
    (run : Run (machine.next handler) allowed config events after) :
    config.scene.history <+: after.scene.history :=
  run.relation (fun one two => one.scene.history <+: two.scene.history)
    (fun _ => List.prefix_rfl) (fun _ _ _ => List.IsPrefix.trans)
    fun _ _ _ _ taken => history_of_next taken

theorem own_of_next {event : Event Request Choice Environment} {thread : Nat}
    (foreign : ∀ choice, event ≠ .step thread choice)
    (taken : machine.next handler config event = some after) :
    after.scene.own thread = config.scene.own thread := by
  cases event with
  | arrive arriving incoming =>
      obtain ⟨-, rfl⟩ := next_arrive taken
      rfl
  | step stepping choice =>
      obtain ⟨_, _, _, _, scene, _, observed, rfl⟩ := next_step taken
      have different : thread ≠ stepping := by
        rintro rfl
        exact foreign choice rfl
      exact own_of_observe_other different observed
  | environment event =>
      obtain ⟨world, -, rfl⟩ := next_environment taken
      rfl
  | restart =>
      rw [next_restart taken]
      rfl

end Inversion

/-! ## What is known of the threads of a run -/

/-- Every thread satisfies what `Tracks` says of the request, of what is left of
its program and of the operations the thread has performed. -/
def Tracked (Tracks : Nat → Request → Program Op Result Response →
      List (Performed Op Result) → Prop)
    (config : Config Op Result World Request Response) : Prop :=
  ∀ thread, (config.threads thread = .idle → config.scene.own thread = []) ∧
    ∀ request rest, config.threads thread = .running request rest →
      Tracks thread request rest (config.scene.own thread)

/-- It holds of every handler and is kept by every operation, whatever its
result. -/
structure Tracking (handler : Request → Program Op Result Response)
    (Tracks : Nat → Request → Program Op Result Response →
      List (Performed Op Result) → Prop) : Prop where
  initially : ∀ thread request, Tracks thread request (handler request) []
  kept : ∀ thread request op next seen result,
    Tracks thread request (.perform op next) seen →
    Tracks thread request (next result) (seen ++ [⟨thread, op, result⟩])

section Tracked

variable {Tracks : Nat → Request → Program Op Result Response →
  List (Performed Op Result) → Prop}
variable {config after : Config Op Result World Request Response}

theorem tracked_start {world : World} :
    Tracked Tracks (Config.start world : Config Op Result World Request Response) := by
  refine fun thread => ⟨fun _ => rfl, fun request rest running => ?_⟩
  cases running

theorem Tracked.next (tracked : Tracked Tracks config) (tracking : Tracking handler Tracks)
    {event : Event Request Choice Environment}
    (taken : machine.next handler config event = some after) : Tracked Tracks after := by
  intro thread
  cases event with
  | arrive arriving incoming =>
      obtain ⟨idle, rfl⟩ := next_arrive taken
      by_cases same : thread = arriving
      · subst thread
        simp only [Config.set, Function.update_self, reduceCtorEq, false_implies, true_and,
          Thread.running.injEq]
        rintro request rest ⟨rfl, rfl⟩
        rw [(tracked arriving).1 idle]
        exact tracking.initially arriving incoming
      · simp only [Config.set, Function.update_of_ne same]
        exact tracked thread
  | step stepping choice =>
      obtain ⟨own, op, next, result, scene, status, observed, rfl⟩ := next_step taken
      by_cases same : thread = stepping
      · subst thread
        simp only [Config.set, Function.update_self, reduceCtorEq, false_implies, true_and,
          Thread.running.injEq]
        rintro request rest ⟨rfl, rfl⟩
        rw [own_of_observe observed]
        exact tracking.kept _ own op next _ result ((tracked stepping).2 own _ status)
      · simp only [Config.set, Function.update_of_ne same]
        rw [own_of_observe_other same observed]
        exact tracked thread
  | environment event =>
      obtain ⟨world, -, rfl⟩ := next_environment taken
      exact tracked thread
  | restart =>
      have restarted := next_restart taken
      subst restarted
      simp only
      cases status : config.threads thread with
      | idle => exact ⟨fun _ => (tracked thread).1 status, nofun⟩
      | killed ended => exact ⟨nofun, nofun⟩
      | running own program =>
          cases program with
          | perform op next => exact ⟨nofun, nofun⟩
          | done response =>
              refine ⟨nofun, fun request rest running => ?_⟩
              exact (tracked thread).2 request rest (status.trans running)

theorem tracked_of_run {allowed} (tracking : Tracking handler Tracks)
    {events : List (Event Request Choice Environment)}
    (run : Run (machine.next handler) allowed config events after)
    (tracked : Tracked Tracks config) : Tracked Tracks after :=
  run.invariant _ (fun _ _ _ held _ taken => held.next tracking taken) tracked

end Tracked

theorem killed_of_next {config after : Config Op Result World Request Response}
    {event : Event Request Choice Environment} {thread : Nat} {request : Request}
    (killed : after.threads thread = .killed request)
    (taken : machine.next handler config event = some after) :
    after.scene.own thread = config.scene.own thread ∧
      (config.threads thread = .killed request ∨
        ∃ op next, config.threads thread = .running request (.perform op next)) := by
  cases event with
  | arrive arriving incoming =>
      rcases next_arrive taken with ⟨idle, rfl⟩
      by_cases same : thread = arriving
      · subst thread
        simp only [Config.set, Function.update_self, reduceCtorEq] at killed
      · simp only [Config.set, Function.update_of_ne same] at killed
        exact ⟨rfl, .inl killed⟩
  | step stepping choice =>
      rcases next_step taken with ⟨own, op, next, result, scene, status, observed, rfl⟩
      by_cases same : thread = stepping
      · subst thread
        simp only [Config.set, Function.update_self, reduceCtorEq] at killed
      · simp only [Config.set, Function.update_of_ne same] at killed
        exact ⟨own_of_observe_other same observed, .inl killed⟩
  | environment event =>
      rcases next_environment taken with ⟨world, -, rfl⟩
      exact ⟨rfl, .inl killed⟩
  | restart =>
      have restarted := next_restart taken
      subst restarted
      simp only at killed
      cases status : config.threads thread with
      | idle =>
          rw [status] at killed
          cases killed
      | killed ended =>
          rw [status] at killed
          exact ⟨rfl, .inl killed⟩
      | running own program =>
          rw [status] at killed
          cases program with
          | done response => cases killed
          | perform op next =>
              cases killed
              exact ⟨rfl, .inr ⟨op, next, rfl⟩⟩

def Ended (Lost : Nat → Request → List (Performed Op Result) → Prop)
    (config : Config Op Result World Request Response) : Prop :=
  ∀ thread request, config.threads thread = .killed request →
    Lost thread request (config.scene.own thread)

theorem Ended.next {Tracks : Nat → Request → Program Op Result Response →
      List (Performed Op Result) → Prop}
    {Lost : Nat → Request → List (Performed Op Result) → Prop}
    {config after : Config Op Result World Request Response} (ended : Ended Lost config)
    (tracked : Tracked Tracks config)
    (gives : ∀ thread request op next seen, Tracks thread request (.perform op next) seen →
      Lost thread request seen)
    {event : Event Request Choice Environment}
    (taken : machine.next handler config event = some after) : Ended Lost after := by
  intro thread request killed
  rcases killed_of_next killed taken with ⟨own, before | ⟨op, next, inFlight⟩⟩
  · rw [own]
    exact ended thread request before
  · rw [own]
    exact gives thread request op next _ ((tracked thread).2 request _ inFlight)

abbrev Bounded (Permitted : Request → Op → Prop) :
    Config Op Result World Request Response → Prop :=
  Tracked fun _ request rest _ => rest.Only (Permitted request)

theorem bounded_tracking {Permitted : Request → Op → Prop}
    (only : ∀ request, (handler request).Only (Permitted request)) :
    Tracking handler fun _ request rest _ => rest.Only (Permitted request) where
  initially := fun _ => only
  kept := fun _ _ _ _ _ result held => held.2 result

/-- Whatever the results, every operation of the program meets `Needs` and the
value it returns meets `Post`, given the operations performed before, which
follow those of `seen`. -/
def Obeys (thread : Nat) (Needs : Op → List (Performed Op Result) → Prop)
    (Post : α → List (Performed Op Result) → Prop) :
    Program Op Result α → List (Performed Op Result) → Prop
  | .done value, seen => Post value seen
  | .perform op next, seen => Needs op seen ∧
      ∀ result, Obeys thread Needs Post (next result) (seen ++ [⟨thread, op, result⟩])

section Obeys

variable {thread : Nat} {Needs : Op → List (Performed Op Result) → Prop}
variable {Post : α → List (Performed Op Result) → Prop}

theorem Obeys.bind {Middle : α → List (Performed Op Result) → Prop}
    {Final : β → List (Performed Op Result) → Prop} {program : Program Op Result α}
    {rest : α → Program Op Result β} {seen : List (Performed Op Result)}
    (first : Obeys thread Needs Middle program seen)
    (second : ∀ value seen, Middle value seen → Obeys thread Needs Final (rest value) seen) :
    Obeys thread Needs Final (program >>= rest) seen := by
  induction program generalizing seen with
  | done value => exact second value seen first
  | perform op next induction =>
      exact ⟨first.1, fun result => induction result (first.2 result)⟩

theorem obeys_of_only {Permitted : Op → Prop} {Kept : List (Performed Op Result) → Prop}
    {program : Program Op Result α} (only : program.Only Permitted)
    (meets : ∀ op seen, Permitted op → Kept seen → Needs op seen)
    (kept : ∀ op result seen, Permitted op → Kept seen → Kept (seen ++ [⟨thread, op, result⟩]))
    {seen : List (Performed Op Result)} (holds : Kept seen) :
    Obeys thread Needs (fun _ => Kept) program seen := by
  induction program generalizing seen with
  | done value => exact holds
  | perform op next induction =>
      exact ⟨meets op seen only.1 holds, fun result =>
        induction result (only.2 result) (kept op result seen only.1 holds)⟩

theorem Obeys.mono {Weaker : α → List (Performed Op Result) → Prop}
    {program : Program Op Result α} {seen : List (Performed Op Result)}
    (obeys : Obeys thread Needs Post program seen)
    (weaker : ∀ value seen, Post value seen → Weaker value seen) :
    Obeys thread Needs Weaker program seen := by
  induction program generalizing seen with
  | done value => exact weaker value seen obeys
  | perform op next induction => exact ⟨obeys.1, fun result => induction result (obeys.2 result)⟩

theorem Obeys.of_only {Permitted : Op → Prop} {Other : Op → List (Performed Op Result) → Prop}
    {program : Program Op Result α} {seen : List (Performed Op Result)}
    (obeys : Obeys thread Needs Post program seen) (only : program.Only Permitted)
    (meets : ∀ op seen, Permitted op → Other op seen) :
    Obeys thread Other Post program seen := by
  induction program generalizing seen with
  | done value => exact obeys
  | perform op next induction =>
      exact ⟨meets op seen only.1, fun result => induction result (obeys.2 result) (only.2 result)⟩

theorem Obeys.and_returns {program : Program Op Result α} {seen : List (Performed Op Result)}
    (obeys : Obeys thread Needs Post program seen) :
    Obeys thread Needs (fun value seen => Post value seen ∧ program.Returns value) program
      seen := by
  induction program generalizing seen with
  | done value => exact ⟨obeys, rfl⟩
  | perform op next induction =>
      refine ⟨obeys.1, fun result => (induction result (obeys.2 result)).mono ?_⟩
      intro value later holds
      exact ⟨holds.1, result, holds.2⟩

/-- The operations by which the program comes to return a value. -/
inductive Yields (thread : Nat) :
    Program Op Result α → List (Performed Op Result) → α → Prop
  | done (value : α) : Yields thread (.done value) [] value
  | perform {op : Op} {next : Result op → Program Op Result α} {result : Result op}
      {performed : List (Performed Op Result)} {value : α} :
      Yields thread (next result) performed value →
      Yields thread (.perform op next) (⟨thread, op, result⟩ :: performed) value

theorem Obeys.of_yields {program : Program Op Result α}
    {seen performed : List (Performed Op Result)}
    {value : α} (obeys : Obeys thread Needs Post program seen)
    (yields : Yields thread program performed value) : Post value (seen ++ performed) := by
  induction yields generalizing seen with
  | done value =>
      rw [List.append_nil]
      exact obeys
  | perform rest induction =>
      have holds := induction (obeys.2 _)
      rw [List.append_assoc] at holds
      exact holds

/-- What a program comes to return when it is the first thing the thread does. -/
theorem Yields.post {program : Program Op Result α} {performed : List (Performed Op Result)}
    {value : α} (yields : Yields thread program performed value)
    (obeys : Obeys thread Needs Post program []) : Post value performed := by
  have holds := obeys.of_yields yields
  rw [List.nil_append] at holds
  exact holds

theorem obeys_tracking {Needs : Nat → Op → List (Performed Op Result) → Prop}
    {Post : Nat → Request → Response → List (Performed Op Result) → Prop}
    (obeys : ∀ thread request,
      Obeys thread (Needs thread) (Post thread request) (handler request) []) :
    Tracking handler fun thread request rest seen =>
      Obeys thread (Needs thread) (Post thread request) rest seen where
  initially := obeys
  kept := fun _ _ _ _ _ result held => held.2 result

end Obeys

/-! ## Erasing a thread -/

/-- The configuration with the operations of `erased` left out, up to a
relation between the two worlds. -/
def Shadows (Alike : World → World → Prop) (erased : Nat)
    (config shadow : Config Op Result World Request Response) : Prop :=
  Alike config.scene.world shadow.scene.world ∧
    ∀ other, other ≠ erased → shadow.threads other = config.threads other

section Erase

variable {Alike : World → World → Prop} {erased : Nat}
variable {config after shadow : Config Op Result World Request Response}

theorem Shadows.arrive (shadows : Shadows Alike erased config shadow) {thread : Nat}
    (different : thread ≠ erased) {request : Request}
    (taken : machine.next handler config (.arrive thread request) = some after) :
    ∃ shadowAfter, machine.next handler shadow (.arrive thread request) = some shadowAfter ∧
      Shadows Alike erased after shadowAfter := by
  obtain ⟨idle, rfl⟩ := next_arrive taken
  refine ⟨shadow.set thread (.running request (handler request)), ?_, shadows.1, ?_⟩
  · simp only [Machine.next, shadows.2 thread different, idle]
  · intro other otherDifferent
    by_cases same : other = thread
    · subst other
      simp [Config.set]
    · simpa [Config.set, Function.update_of_ne same] using shadows.2 other otherDifferent

theorem Shadows.step (shadows : Shadows Alike erased config shadow) {thread : Nat}
    (different : thread ≠ erased) {choice : Choice}
    (simulate : ∀ op result reached,
      machine.perform thread op choice config.scene.world = some (result, reached) →
      ∃ shadowReached,
        machine.perform thread op choice shadow.scene.world = some (result, shadowReached) ∧
          Alike reached shadowReached)
    (taken : machine.next handler config (.step thread choice) = some after) :
    ∃ shadowAfter, machine.next handler shadow (.step thread choice) = some shadowAfter ∧
      Shadows Alike erased after shadowAfter := by
  obtain ⟨request, op, rest, result, scene, running, observed, rfl⟩ := next_step taken
  obtain ⟨performed, -⟩ := observe_eq_some.mp observed
  obtain ⟨shadowReached, shadowPerformed, alike⟩ := simulate op result scene.world performed
  have status := (shadows.2 thread different).trans running
  have shadowTaken : machine.next handler shadow (.step thread choice) =
      some (Config.set ⟨⟨shadowReached, shadow.scene.history ++ [⟨thread, op, result⟩]⟩,
        shadow.threads⟩ thread (.running request (rest result))) := by
    simp only [Machine.next, status, observe, shadowPerformed]
  refine ⟨_, shadowTaken, alike, ?_⟩
  intro other otherDifferent
  by_cases same : other = thread
  · subst other
    simp [Config.set]
  · simpa [Config.set, Function.update_of_ne same] using shadows.2 other otherDifferent

theorem Shadows.environment (shadows : Shadows Alike erased config shadow)
    {event : Environment}
    (simulate : ∀ reached, machine.environment event config.scene.world = some reached →
      ∃ shadowReached,
        machine.environment event shadow.scene.world = some shadowReached ∧
          Alike reached shadowReached)
    (taken : machine.next handler config (.environment event) = some after) :
    ∃ shadowAfter, machine.next handler shadow (.environment event) = some shadowAfter ∧
      Shadows Alike erased after shadowAfter := by
  obtain ⟨world, happened, rfl⟩ := next_environment taken
  obtain ⟨shadowReached, shadowHappened, alike⟩ := simulate world happened
  have shadowTaken : machine.next handler shadow (.environment event) =
      some ⟨⟨shadowReached, shadow.scene.history⟩, shadow.threads⟩ := by
    simp only [Machine.next, shadowHappened]
  exact ⟨_, shadowTaken, alike, shadows.2⟩

theorem Shadows.restart (shadows : Shadows Alike erased config shadow)
    (alike : Alike (machine.restart config.scene.world)
      (machine.restart shadow.scene.world))
    (taken : machine.next handler config .restart = some after) :
    ∃ shadowAfter, machine.next handler shadow .restart = some shadowAfter ∧
      Shadows Alike erased after shadowAfter := by
  have restarted := next_restart taken
  subst restarted
  exact ⟨_, rfl, alike, fun other different => congrArg Thread.kill
    (shadows.2 other different)⟩

/-- A thread whose own operations the relation does not notice can be erased
from a run: the other events, taken without it, are a run of their own. -/
theorem erase {allowed}
    {events : List (Event Request Choice Environment)}
    (run : Run (machine.next handler) allowed config events after)
    (own : ∀ config choice after shadowWorld, allowed config (.step erased choice) →
      machine.next handler config (.step erased choice) = some after →
      Alike config.scene.world shadowWorld → Alike after.scene.world shadowWorld)
    (others : ∀ thread op choice world shadowWorld result reached, thread ≠ erased →
      Alike world shadowWorld →
      machine.perform thread op choice world = some (result, reached) →
      ∃ shadowReached, machine.perform thread op choice shadowWorld =
        some (result, shadowReached) ∧ Alike reached shadowReached)
    (environment : ∀ event world shadowWorld reached, Alike world shadowWorld →
      machine.environment event world = some reached →
      ∃ shadowReached, machine.environment event shadowWorld = some shadowReached ∧
        Alike reached shadowReached)
    (restart : ∀ world shadowWorld, Alike world shadowWorld →
      Alike (machine.restart world) (machine.restart shadowWorld))
    (shadows : Shadows Alike erased config shadow) :
    ∃ shadowAfter, AnyRun (machine.next handler) shadow
        (events.filter fun event => event.thread ≠ some erased) shadowAfter ∧
      Shadows Alike erased after shadowAfter := by
  induction run generalizing shadow with
  | nil => exact ⟨shadow, .nil shadow, shadows⟩
  | @cons state middle final event events permitted taken rest induction =>
      by_cases concerned : event.thread = some erased
      · rw [List.filter_cons_of_neg (by simpa using concerned)]
        refine induction ?_
        cases event with
        | arrive thread request =>
            cases concerned
            obtain ⟨-, rfl⟩ := next_arrive taken
            exact ⟨shadows.1, fun other different => by
              rw [shadows.2 other different]
              simp [Config.set, Function.update_of_ne different]⟩
        | step thread choice =>
            cases concerned
            refine ⟨own state choice middle _ permitted taken shadows.1, ?_⟩
            obtain ⟨_, _, _, _, _, _, _, rfl⟩ := next_step taken
            exact fun other different => by
              rw [shadows.2 other different]
              simp [Config.set, Function.update_of_ne different]
        | environment event => cases concerned
        | restart => cases concerned
      · rw [List.filter_cons_of_pos (by simpa using concerned)]
        have stepped : ∃ shadowMiddle, machine.next handler shadow event =
            some shadowMiddle ∧ Shadows Alike erased middle shadowMiddle := by
          cases event with
          | arrive thread request =>
              exact shadows.arrive (fun same => concerned (congrArg some same)) taken
          | step thread choice =>
              have different : thread ≠ erased := fun same =>
                concerned (congrArg some same)
              exact shadows.step different (fun op result reached performed =>
                others thread op choice _ _ result reached different shadows.1 performed)
                taken
          | environment event =>
              exact shadows.environment (fun reached happened =>
                environment event _ _ reached shadows.1 happened) taken
          | restart => exact shadows.restart (restart _ _ shadows.1) taken
        obtain ⟨shadowMiddle, shadowTaken, middleShadows⟩ := stepped
        obtain ⟨shadowFinal, shadowRun, finalShadows⟩ := induction middleShadows
        exact ⟨shadowFinal, .cons trivial shadowTaken shadowRun, finalShadows⟩

end Erase

/-! ## Two machines in lockstep -/

section Lockstep

variable {other : Machine Op Result World' Choice Environment}
variable {Related : World → World' → Prop}

def Matched (Related : World → World' → Prop)
    (config : Config Op Result World Request Response)
    (otherConfig : Config Op Result World' Request Response) : Prop :=
  Related config.scene.world otherConfig.scene.world ∧
    otherConfig.threads = config.threads

/-- Where every operation that a run takes has the same result on the other
machine, the other machine can take the same run. -/
theorem lockstep {allowed}
    {config after : Config Op Result World Request Response}
    {otherConfig : Config Op Result World' Request Response}
    {events : List (Event Request Choice Environment)}
    (run : Run (machine.next handler) allowed config events after)
    (steps : ∀ config thread choice op result reached otherWorld,
      allowed config (.step thread choice) →
      (∃ request rest, config.threads thread = .running request (.perform op rest)) →
      Related config.scene.world otherWorld →
      machine.perform thread op choice config.scene.world = some (result, reached) →
      ∃ otherReached, other.perform thread op choice otherWorld =
        some (result, otherReached) ∧ Related reached otherReached)
    (environment : ∀ event world otherWorld reached, Related world otherWorld →
      machine.environment event world = some reached →
      ∃ otherReached, other.environment event otherWorld = some otherReached ∧
        Related reached otherReached)
    (restart : ∀ world otherWorld, Related world otherWorld →
      Related (machine.restart world) (other.restart otherWorld))
    (matched : Matched Related config otherConfig) :
    ∃ otherAfter, AnyRun (other.next handler) otherConfig events otherAfter ∧
      Matched Related after otherAfter := by
  induction run generalizing otherConfig with
  | nil => exact ⟨otherConfig, .nil _, matched⟩
  | @cons state middle final event events permitted taken _ induction =>
      obtain ⟨related, threads⟩ := matched
      have stepped : ∃ otherMiddle, other.next handler otherConfig event =
          some otherMiddle ∧ Matched Related middle otherMiddle := by
        cases event with
        | arrive thread request =>
            obtain ⟨idle, rfl⟩ := next_arrive taken
            refine ⟨otherConfig.set thread (.running request (handler request)), ?_,
              related, ?_⟩
            · simp only [Machine.next, threads, idle]
            · simp only [Config.set, threads]
        | step thread choice =>
            obtain ⟨request, op, rest, result, scene, running, observed, rfl⟩ :=
              next_step taken
            obtain ⟨reached, performed, reachedRelated⟩ :=
              steps state thread choice op result scene.world otherConfig.scene.world
                permitted ⟨request, rest, running⟩ related (observe_eq_some.mp observed).1
            have otherTaken : other.next handler otherConfig (.step thread choice) =
                some (Config.set ⟨⟨reached, otherConfig.scene.history ++
                  [⟨thread, op, result⟩]⟩, otherConfig.threads⟩ thread
                  (.running request (rest result))) := by
              simp only [Machine.next, threads, running, observe, performed]
            refine ⟨_, otherTaken, reachedRelated, ?_⟩
            simp only [Config.set, threads]
        | environment event =>
            obtain ⟨world, happened, rfl⟩ := next_environment taken
            obtain ⟨reached, otherHappened, reachedRelated⟩ :=
              environment event _ _ world related happened
            have otherTaken : other.next handler otherConfig (.environment event) =
                some ⟨⟨reached, otherConfig.scene.history⟩, otherConfig.threads⟩ := by
              simp only [Machine.next, otherHappened]
            exact ⟨_, otherTaken, reachedRelated, threads⟩
        | restart =>
            have restarted := next_restart taken
            subst restarted
            exact ⟨_, rfl, restart _ _ related, by simp only [threads]⟩
      obtain ⟨otherMiddle, otherTaken, middleMatched⟩ := stepped
      obtain ⟨otherFinal, otherRun, finalMatched⟩ := induction middleMatched
      exact ⟨otherFinal, .cons trivial otherTaken otherRun, finalMatched⟩

end Lockstep

end Machine

/-! ## A machine inside another -/

/-- The configuration with its world put into another. -/
def Config.map (embed : World → World')
    (config : Config Op Result World Request Response) : Config Op Result World' Request Response where
  scene := ⟨embed config.scene.world, config.scene.history⟩
  threads := config.threads

def Event.map {Choice' Environment' : Type} (choose : Choice' → Choice)
    (happen : Environment' → Environment) :
    Event Request Choice' Environment' → Event Request Choice Environment
  | .arrive thread request => .arrive thread request
  | .step thread choice => .step thread (choose choice)
  | .environment event => .environment (happen event)
  | .restart => .restart

@[simp] theorem Event.thread_map {Choice' Environment' : Type} (choose : Choice' → Choice)
    (happen : Environment' → Environment) (event : Event Request Choice' Environment') :
    (event.map choose happen).thread = event.thread := by
  cases event <;> rfl

namespace Machine

section Embedding

variable {Choice' Environment' : Type}

/-- As long as the choices are `Permitted`, the outer machine does in an embedded
world what the inner one does. -/
structure Embeds (machine : Machine Op Result World Choice Environment)
    (outer : Machine Op Result World' Choice' Environment') (embed : World → World')
    (choose : Choice' → Choice) (happen : Environment' → Environment)
    (Permitted : Choice' → Prop) : Prop where
  perform : ∀ thread op choice world, Permitted choice →
    outer.perform thread op choice (embed world) =
      (machine.perform thread op (choose choice) world).map fun done => (done.1, embed done.2)
  environment : ∀ event world, outer.environment event (embed world) =
    (machine.environment (happen event) world).map embed
  restart : ∀ world, outer.restart (embed world) = embed (machine.restart world)

def OnlyChoices (Permitted : Choice' → Prop) (event : Event Request Choice' Environment') :
    Prop :=
  ∀ thread choice, event = .step thread choice → Permitted choice

variable {machine : Machine Op Result World Choice Environment}
variable {outer : Machine Op Result World' Choice' Environment'} {embed : World → World'}
variable {choose : Choice' → Choice} {happen : Environment' → Environment}
variable {Permitted : Choice' → Prop} {handler : Request → Program Op Result Response}
variable {config after : Config Op Result World Request Response}
variable {final : Config Op Result World' Request Response}
variable {event : Event Request Choice' Environment'}
variable {events : List (Event Request Choice' Environment')}

theorem Embeds.next (embeds : Embeds machine outer embed choose happen Permitted)
    (permitted : OnlyChoices Permitted event) :
    outer.next handler (config.map embed) event =
      (machine.next handler config (event.map choose happen)).map (Config.map embed) := by
  cases event with
  | arrive thread request =>
      simp only [Machine.next, Event.map, Config.map]
      split <;> rfl
  | step thread choice =>
      simp only [Machine.next, Event.map, Config.map]
      split
      case h_1 request op rest running =>
        simp only [observe, embeds.perform thread op choice _ (permitted thread choice rfl)]
        cases machine.perform thread op (choose choice) config.scene.world with
        | none => rfl
        | some done => rfl
      case h_2 => rfl
  | environment event =>
      simp only [Machine.next, Event.map, Config.map, embeds.environment]
      cases machine.environment (happen event) config.scene.world with
      | none => rfl
      | some world => rfl
  | restart =>
      simp only [Machine.next, Event.map, Config.map, embeds.restart]
      rfl

theorem Embeds.run_inner {allowed}
    (embeds : Embeds machine outer embed choose happen Permitted)
    (run : Run (outer.next handler) allowed (config.map embed) events final)
    (permitted : ∀ event ∈ events, OnlyChoices Permitted event) :
    ∃ inner, final = inner.map embed ∧
      Run (machine.next handler) (fun _ _ => True) config (events.map (Event.map choose happen))
        inner := by
  generalize initial : config.map embed = outerConfig at run
  induction run generalizing config with
  | nil => exact ⟨config, initial.symm, .nil _⟩
  | @cons state middle final event events allows taken _ induction =>
      subst initial
      rw [embeds.next (permitted event List.mem_cons_self)] at taken
      obtain ⟨innerMiddle, innerTaken, rfl⟩ := Option.map_eq_some_iff.mp taken
      obtain ⟨inner, same, rest⟩ := induction
        (fun other member => permitted other (List.mem_cons_of_mem event member)) rfl
      exact ⟨inner, same, .cons trivial innerTaken rest⟩

theorem Embeds.run_outer {allowed}
    (embeds : Embeds machine outer embed choose happen Permitted)
    (run : Run (machine.next handler) allowed config (events.map (Event.map choose happen)) after)
    {allowed' : Config Op Result World' Request Response →
      Event Request Choice' Environment' → Prop}
    (weaker : ∀ state event, event ∈ events → allowed state (event.map choose happen) →
      allowed' (state.map embed) event)
    (permitted : ∀ event ∈ events, OnlyChoices Permitted event) :
    Run (outer.next handler) allowed' (config.map embed) events (after.map embed) := by
  induction events generalizing config with
  | nil =>
      cases run
      exact .nil _
  | cons event events induction =>
      cases run with
      | cons allows taken rest =>
          refine .cons (weaker _ event List.mem_cons_self allows) ?_
            (induction rest (fun state other member => weaker state other
              (List.mem_cons_of_mem event member))
              fun other member => permitted other (List.mem_cons_of_mem event member))
          rw [embeds.next (permitted event List.mem_cons_self), taken]
          rfl

end Embedding

end Machine

/-! ## Rely-guarantee -/

/-- The assertions of a proof about interleaved programs: what always holds,
what one operation of a thread may do, what a thread has to expect from
everyone else, which operations the run is assumed to take, and what is known
of threads that have not started, have finished or were ended by a restart. -/
structure Rules (Op : Type) (Result : Op → Type)
    (World Choice Request Response : Type) where
  invariant : Scene Op Result World → Prop
  guarantee : Nat → Scene Op Result World → Scene Op Result World → Prop
  interference : Nat → Scene Op Result World → Scene Op Result World → Prop
  allowed : Nat → (op : Op) → Choice → Scene Op Result World → Prop
  restartAllowed : Scene Op Result World → Prop
  fresh : Nat → Scene Op Result World → Prop
  finished : Nat → Request → Response → Scene Op Result World → Prop
  lost : Nat → Scene Op Result World → Prop

namespace Rules

variable (machine : Machine Op Result World Choice Environment)
variable (rules : Rules Op Result World Choice Request Response)

/-- One operation of `thread` keeps the invariant and its guarantee. -/
def Keeps (thread : Nat) (before after : Scene Op Result World) : Prop :=
  rules.invariant after ∧ rules.guarantee thread before after

/-- From this scene on, whatever the interference, every allowed operation of
the program is well behaved and its value satisfies `Post` when it returns. -/
def Safe (thread : Nat) (Post : α → Scene Op Result World → Prop) :
    Program Op Result α → Scene Op Result World → Prop
  | .done value, scene => Post value scene
  | .perform op next, scene => ∀ now, rules.interference thread scene now →
      rules.invariant now → ∀ choice result after,
      rules.allowed thread op choice now →
      machine.observe thread op choice now = some (result, after) →
      rules.Keeps thread now after ∧ Safe thread Post (next result) after

section SafeRules

variable {machine} {rules}
variable {thread : Nat} {Post Weaker : α → Scene Op Result World → Prop}

theorem Safe.mono {program : Program Op Result α} {scene : Scene Op Result World}
    (safe : rules.Safe machine thread Post program scene)
    (weaker : ∀ value after, Post value after → Weaker value after) :
    rules.Safe machine thread Weaker program scene := by
  induction program generalizing scene with
  | done value => exact weaker value scene safe
  | perform op next induction =>
      intro now interference invariant choice result after allowed observed
      have step := safe now interference invariant choice result after allowed observed
      exact ⟨step.1, induction result step.2⟩

theorem Safe.bind {Middle : α → Scene Op Result World → Prop}
    {Final : β → Scene Op Result World → Prop}
    {program : Program Op Result α} {rest : α → Program Op Result β}
    {scene : Scene Op Result World}
    (first : rules.Safe machine thread Middle program scene)
    (second : ∀ value after, Middle value after →
      rules.Safe machine thread Final (rest value) after) :
    rules.Safe machine thread Final (program >>= rest) scene := by
  induction program generalizing scene with
  | done value => exact second value scene first
  | perform op next induction =>
      intro now interference invariant choice result after allowed observed
      have step := first now interference invariant choice result after allowed observed
      exact ⟨step.1, induction result step.2⟩

/-- A program whose operations all keep the rules, and a thread assertion
`Kept` with them, is safe wherever `Kept` holds. -/
theorem safe_of_only {Permitted : Op → Prop} {Kept : Scene Op Result World → Prop}
    {program : Program Op Result α} (only : program.Only Permitted)
    (stable : ∀ before now, Kept before → rules.interference thread before now →
      Kept now)
    (kept : ∀ op choice now result after, Permitted op → Kept now →
      rules.invariant now → rules.allowed thread op choice now →
      machine.observe thread op choice now = some (result, after) →
      rules.Keeps thread now after ∧ Kept after)
    {scene : Scene Op Result World} (holds : Kept scene) :
    rules.Safe machine thread (fun _ => Kept) program scene := by
  induction program generalizing scene with
  | done value => exact holds
  | perform op next induction =>
      intro now interference invariant choice result after allowed observed
      have step := kept op choice now result after only.1
        (stable scene now holds interference) invariant allowed observed
      exact ⟨step.1, induction result (only.2 result) step.2⟩

end SafeRules

/-! ## Soundness -/

/-- The proof obligations of the rules for a machine and its handler. -/
structure Valid (handler : Request → Program Op Result Response) : Prop where
  interference_refl : ∀ thread scene, rules.interference thread scene scene
  interference_trans : ∀ thread one two three, rules.interference thread one two →
    rules.interference thread two three → rules.interference thread one three
  /-- What one thread guarantees is no more than the others expect. -/
  guarantee_expected : ∀ thread other op choice result before after, other ≠ thread →
    rules.invariant before →
    machine.observe thread op choice before = some (result, after) →
    rules.guarantee thread before after → rules.interference other before after
  fresh_stable : ∀ thread before after, rules.fresh thread before →
    rules.interference thread before after → rules.fresh thread after
  finished_stable : ∀ thread request response before after,
    rules.finished thread request response before →
    rules.interference thread before after →
    rules.finished thread request response after
  lost_stable : ∀ thread before after, rules.lost thread before →
    rules.interference thread before after → rules.lost thread after
  environment : ∀ event scene world, rules.invariant scene →
    machine.environment event scene.world = some world →
    rules.invariant ⟨world, scene.history⟩ ∧
      ∀ thread, rules.interference thread scene ⟨world, scene.history⟩
  restart_invariant : ∀ scene, rules.invariant scene → rules.restartAllowed scene →
    rules.invariant ⟨machine.restart scene.world, scene.history⟩
  restart_fresh : ∀ thread scene, rules.invariant scene → rules.fresh thread scene →
    rules.fresh thread ⟨machine.restart scene.world, scene.history⟩
  restart_finished : ∀ thread request response scene, rules.invariant scene →
    rules.finished thread request response scene →
    rules.finished thread request response ⟨machine.restart scene.world, scene.history⟩
  restart_lost : ∀ thread scene, rules.invariant scene → rules.restartAllowed scene →
    rules.lost thread ⟨machine.restart scene.world, scene.history⟩
  safe : ∀ thread request scene, rules.invariant scene → rules.fresh thread scene →
    rules.Safe machine thread (rules.finished thread request) (handler request) scene

def permits (config : Config Op Result World Request Response) :
    Event Request Choice Environment → Prop
  | .step thread choice =>
      match config.threads thread with
      | .running _ (.perform op _) => rules.allowed thread op choice config.scene
      | _ => True
  | .restart => rules.restartAllowed config.scene
  | _ => True

def ThreadHolds (thread : Nat) (scene : Scene Op Result World) :
    Thread Op Result Request Response → Prop
  | .idle => rules.fresh thread scene
  | .running request rest => ∃ earlier, rules.interference thread earlier scene ∧
      rules.Safe machine thread (rules.finished thread request) rest earlier
  | .killed _ => rules.lost thread scene

def Holds (config : Config Op Result World Request Response) : Prop :=
  rules.invariant config.scene ∧
    ∀ thread, rules.ThreadHolds machine thread config.scene (config.threads thread)

variable {machine} {rules}
variable {handler : Request → Program Op Result Response}
variable {config after : Config Op Result World Request Response}

theorem Valid.threadHolds_stable (valid : rules.Valid machine handler) {thread : Nat}
    {before now : Scene Op Result World} {status : Thread Op Result Request Response}
    (holds : rules.ThreadHolds machine thread before status)
    (interference : rules.interference thread before now) :
    rules.ThreadHolds machine thread now status := by
  cases status with
  | idle => exact valid.fresh_stable thread before now holds interference
  | running request rest =>
      obtain ⟨earlier, expected, safe⟩ := holds
      exact ⟨earlier, valid.interference_trans thread earlier before now expected
        interference, safe⟩
  | killed request => exact valid.lost_stable thread before now holds interference

theorem Valid.finished_of_holds (valid : rules.Valid machine handler)
    (holds : rules.Holds machine config) {thread : Nat} {request : Request}
    {response : Response}
    (status : config.threads thread = .running request (.done response)) :
    rules.finished thread request response config.scene := by
  have threadHolds := holds.2 thread
  rw [status] at threadHolds
  obtain ⟨earlier, interference, finished⟩ := threadHolds
  exact valid.finished_stable thread request response earlier config.scene finished
    interference

theorem Valid.arrive_holds (valid : rules.Valid machine handler)
    (holds : rules.Holds machine config) {thread : Nat} {request : Request}
    (taken : machine.next handler config (.arrive thread request) = some after) :
    rules.Holds machine after := by
  obtain ⟨idle, rfl⟩ := Machine.next_arrive taken
  refine ⟨holds.1, fun other => ?_⟩
  by_cases same : other = thread
  · subst other
    have fresh := holds.2 thread
    rw [idle] at fresh
    simp only [Config.set, Function.update_self]
    exact ⟨config.scene, valid.interference_refl thread config.scene,
      valid.safe thread request config.scene holds.1 fresh⟩
  · simpa only [Config.set, Function.update_of_ne same] using holds.2 other

theorem Valid.step_holds (valid : rules.Valid machine handler)
    (holds : rules.Holds machine config) {thread : Nat} {choice : Choice}
    (permitted : rules.permits config (.step thread choice : Event Request Choice Environment))
    (taken : machine.next handler config (.step thread choice) = some after) :
    rules.Holds machine after := by
  obtain ⟨request, op, rest, result, scene, running, observed, rfl⟩ :=
    Machine.next_step taken
  have threadHolds := holds.2 thread
  simp only [permits, running] at permitted
  rw [running] at threadHolds
  obtain ⟨earlier, interference, safe⟩ := threadHolds
  have step := safe config.scene interference holds.1 choice result scene permitted
    observed
  refine ⟨step.1.1, fun other => ?_⟩
  by_cases same : other = thread
  · subst other
    simp only [Config.set, Function.update_self]
    exact ⟨scene, valid.interference_refl thread scene, step.2⟩
  · simp only [Config.set, Function.update_of_ne same]
    exact valid.threadHolds_stable (holds.2 other)
      (valid.guarantee_expected thread other op choice result config.scene scene same
        holds.1 observed step.1.2)

theorem guarantee_of_step (holds : rules.Holds machine config) {thread : Nat}
    {choice : Choice}
    (permitted : rules.permits config (.step thread choice : Event Request Choice Environment))
    (taken : machine.next handler config (.step thread choice) = some after) :
    rules.guarantee thread config.scene after.scene := by
  obtain ⟨request, op, rest, result, scene, running, observed, rfl⟩ :=
    Machine.next_step taken
  have threadHolds := holds.2 thread
  simp only [permits, running] at permitted
  rw [running] at threadHolds
  obtain ⟨earlier, interference, safe⟩ := threadHolds
  exact (safe config.scene interference holds.1 choice result scene permitted
    observed).1.2

theorem Valid.environment_holds (valid : rules.Valid machine handler)
    (holds : rules.Holds machine config) {event : Environment}
    (taken : machine.next handler config (.environment event) = some after) :
    rules.Holds machine after := by
  obtain ⟨world, happened, rfl⟩ := Machine.next_environment taken
  have kept := valid.environment event config.scene world holds.1 happened
  exact ⟨kept.1, fun other => valid.threadHolds_stable (holds.2 other) (kept.2 other)⟩

theorem Valid.restart_holds (valid : rules.Valid machine handler)
    (holds : rules.Holds machine config)
    (permitted : rules.restartAllowed config.scene)
    (taken : machine.next handler config .restart = some after) :
    rules.Holds machine after := by
  have restarted := Machine.next_restart taken
  subst restarted
  refine ⟨valid.restart_invariant config.scene holds.1 permitted, fun thread => ?_⟩
  have threadHolds := holds.2 thread
  cases status : config.threads thread with
  | idle =>
      rw [status] at threadHolds
      simp only [status, Thread.kill]
      exact valid.restart_fresh thread config.scene holds.1 threadHolds
  | running request rest =>
      cases rest with
      | done response =>
          simp only [status, Thread.kill]
          exact ⟨_, valid.interference_refl thread _,
            valid.restart_finished thread request response config.scene holds.1
              (valid.finished_of_holds holds status)⟩
      | perform op next =>
          simp only [status, Thread.kill]
          exact valid.restart_lost thread config.scene holds.1 permitted
  | killed request =>
      simp only [status, Thread.kill]
      exact valid.restart_lost thread config.scene holds.1 permitted

theorem Valid.sound (valid : rules.Valid machine handler)
    {events : List (Event Request Choice Environment)}
    (run : Run (machine.next handler) rules.permits config events after)
    (holds : rules.Holds machine config) : rules.Holds machine after := by
  refine run.invariant (rules.Holds machine) ?_ holds
  intro state event final stateHolds permitted taken
  cases event with
  | arrive thread request => exact valid.arrive_holds stateHolds taken
  | step thread choice => exact valid.step_holds stateHolds permitted taken
  | environment event => exact valid.environment_holds stateHolds taken
  | restart => exact valid.restart_holds stateHolds permitted taken

theorem holds_start {world : World} (invariant : rules.invariant (Scene.start world))
    (fresh : ∀ thread, rules.fresh thread (Scene.start world)) :
    rules.Holds machine (Config.start world) :=
  ⟨invariant, fresh⟩

end Rules

end Grunt.Foundation
