import Grunt.Foundation.Provenance
import Grunt.Server.Identities
import Grunt.Server.Terminal

/-! # Who listens

A write pump sends a caller who has been let in the live messages, in the format
that the caller has asked for, and joins and leaves are announced of such callers.
-/

namespace Grunt.Server

open Foundation

def Request.asksHTML (request : Request) : Bool :=
  (request.query (utf8 "format")).headD [] = utf8 "html"

def Subscribing (platform : Platform) (thread : Nat) (request : Request) :
    Op → List (Performed Op Op.Result) → Prop
  | .register subscriber, seen =>
      route platform request = .streamMessages ∧ subscriber.renderHTML = request.asksHTML ∧
        Vouched platform thread (extractToken request) subscriber.userID seen
  | _, _ => True

def Op.subscribesNobody : Op → Bool
  | .register _ => false
  | _ => true

section Handlers

variable {platform : Platform} {thread : Nat} {request : Request} {identity : Identity}
variable {seen : List (Performed Op Op.Result)}

theorem subscribing_of_nobody {op : Op} (nobody : op.subscribesNobody = true) :
    Subscribing platform thread request op seen := by
  cases op with
  | register => cases nobody
  | _ => trivial

theorem subscribesNobody_of_quiet {op : Op} (quiet : op.isQuiet = true) :
    op.subscribesNobody = true := by
  cases op with
  | register => cases quiet
  | _ => rfl

theorem subscribesNobody_of_permits {asked : Route} {op : Op} (other : asked ≠ .streamMessages)
    (permitted : asked.permits identity op) : op.subscribesNobody = true := by
  cases op with
  | register =>
      cases asked with
      | streamMessages => exact absurd rfl other
      | _ => cases permitted
  | _ => rfl

theorem streamMessages_subscribing (asked : route platform request = .streamMessages)
    (known : identity = .anonymous ∨
      Vouched platform thread (extractToken request) identity.userID seen) :
    Machine.Obeys thread (Subscribing platform thread request) (fun _ _ => True)
      (streamMessages request identity) seen := by
  unfold streamMessages
  split
  · trivial
  · split
    · trivial
    · next authenticated =>
      have vouched := known.resolve_left fun nobody => authenticated (by rw [nobody]; rfl)
      refine And.intro trivial fun drawn => ?_
      cases drawn with
      | error error => trivial
      | ok clientID =>
          refine And.intro ⟨asked, rfl, vouched.snoc _⟩ fun _ => ?_
          exact And.intro trivial fun _ => trivial

theorem serve_subscribing (thread : Nat) (request : Request) :
    Machine.Obeys thread (Subscribing platform thread request) (fun _ _ => True)
      (serve platform request) [] := by
  have known : Machine.Obeys thread (Subscribing platform thread request)
      (fun identity seen => identity = .anonymous ∨
        Vouched platform thread (extractToken request) identity.userID seen)
      (authenticate platform request) [] :=
    (authenticate_obeys request).of_only (authenticate_only fun _ => subscribesNobody_of_quiet)
      fun _ _ => subscribing_of_nobody
  apply known.bind
  intro identity seen known
  by_cases streaming : route platform request = .streamMessages
  · rw [streaming]
    exact streamMessages_subscribing streaming known
  · have only : (dispatch platform request identity (route platform request)).Only
        fun op => op.subscribesNobody = true :=
      dispatch_only (fun _ => subscribesNobody_of_quiet) _
        fun _ => subscribesNobody_of_permits streaming
    exact Machine.obeys_of_only only (fun _ _ nobody _ => subscribing_of_nobody nobody)
      (fun _ _ _ _ => id) trivial

end Handlers

/-- The thread's request was let in as the subscriber, who gets what it asks for. -/
def LetIn (platform : Platform) (config : ServerConfig) (thread : Nat)
    (subscriber : Subscriber) : Prop :=
  ∃ request, (config.threads thread).request = some request ∧
    route platform request = .streamMessages ∧ subscriber.renderHTML = request.asksHTML ∧
    Vouched platform thread (extractToken request) subscriber.userID (config.scene.own thread)

section Runs

variable {platform : Platform} {tables : Storage.Tables} {clock : Instant}
variable {events : List ServerEvent} {config : ServerConfig}

theorem letIn_of_subscribed {allowed}
    (run : Run (next platform) allowed (start tables clock) events config) {thread : Nat}
    {subscriber : Subscriber} (subscribed : Subscribed config.scene.history thread subscriber) :
    LetIn platform config thread subscriber := by
  obtain ⟨before, later, split⟩ := List.append_of_mem subscribed
  obtain ⟨request, arrived, asked, format, vouched⟩ :=
    Machine.accounted_of_run serve_subscribing run before _ later split
  exact ⟨request, arrived, asked, format, vouched.mono (Machine.before_subset_own split)⟩

/-- Live messages go to nobody but callers who have been let in, and nobody else is
announced. -/
theorem subscribers_let_in_of_run {allowed}
    (run : Run (next platform) allowed (start tables clock) events config) :
    (∀ thread pump, config.scene.world.hub.pumps thread = some pump →
      LetIn platform config thread pump.subscriber) ∧
    ∀ entry ∈ config.scene.world.hub.accepted, ∀ event, entry.2 = .ofEvent event →
      ∃ thread subscriber, LetIn platform config thread subscriber ∧
        (entry.2 = .ofEvent subscriber.join ∨ entry.2 = .ofEvent subscriber.leave) := by
  have proper := proper_of_run run
  constructor
  · intro thread pump found
    exact letIn_of_subscribed run (proper.pumps thread pump found)
  · intro entry member event same
    obtain ⟨announced, ⟨thread, subscriber, subscribed, which⟩, item⟩ :=
      proper.accepted entry member event same
    refine ⟨thread, subscriber, letIn_of_subscribed run subscribed, ?_⟩
    rcases which with rfl | rfl
    · exact .inl item
    · exact .inr item

/-- The stream of `sendAndStream`. -/
theorem sendAndStream_let_in : ∃ config : ServerConfig,
    (config.scene.world.hub.pumps 0).map Pump.subscriber =
      some ⟨utf8 "0123456789abcdef", utf8 "ann", false⟩ ∧
    LetIn .transparent config 0 ⟨utf8 "0123456789abcdef", utf8 "ann", false⟩ := by
  have executed : (executeWhere (next .transparent) distinctClients (start annsTables 0)
      sendAndStream).map (fun config => (config.scene.world.hub.pumps 0).map Pump.subscriber) =
      some (some ⟨utf8 "0123456789abcdef", utf8 "ann", false⟩) := by decide +kernel
  obtain ⟨config, reached, subscriber⟩ := Option.map_eq_some_iff.mp executed
  obtain ⟨pump, found, same⟩ := Option.map_eq_some_iff.mp subscriber
  have letIn := (subscribers_let_in_of_run (run_of_executeWhere reached)).1 0 pump found
  exact ⟨config, subscriber, same ▸ letIn⟩

end Runs

end Grunt.Server
