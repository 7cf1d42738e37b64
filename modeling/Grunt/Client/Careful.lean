import Grunt.Client.Channels

/-! # Careful calls

Which calls of a client no interleaving makes panic: of those that take effect,
one `Close` and then one `StartListening` at most. Every other `Close` finds
`doneChan` closed or can take the response from a goroutine that has not begun,
and a second goroutine closes `messageChan` again.
-/

namespace Grunt.Client

open Foundation

/-! ## The calls that take effect -/

/-- The effective calls of `StartListening` and `Close`, from what `connected`
and `listening` are before all of them. -/
def effective : Bool → Bool → List Call → List Call
  | _, _, [] => []
  | connected, listening, .connect accepted :: calls =>
      effective (connected || accepted) listening calls
  | connected, listening, .startListening :: calls =>
      if connected && !listening then .startListening :: effective connected true calls
      else effective connected listening calls
  | connected, _, .stopListening :: calls => effective connected false calls
  | connected, listening, .receiveMessages :: calls => effective connected listening calls
  | connected, listening, .close :: calls =>
      if connected then .close :: effective false listening calls
      else effective connected listening calls

/-- At most one of each, and `Close` first. -/
def Careful (calls : List Call) : Prop :=
  (effective false false calls).Sublist [.close, .startListening]

instance (calls : List Call) : Decidable (Careful calls) :=
  inferInstanceAs (Decidable ((effective false false calls).Sublist _))

example : ¬ Careful [.connect true, .startListening, .close] := by decide

namespace System

def ahead (system : System) : List Call :=
  match system.caller with
  | .outside => effective system.client.connected system.client.listening system.calls
  | .requesting accepted =>
      effective (system.client.connected || accepted) system.client.listening system.calls
  | .closing => .close :: effective false system.client.listening system.calls
  | .closingBody | .disconnecting => effective false system.client.listening system.calls

/-- Those that can be made without harm. -/
def left (system : System) : List Call :=
  if system.pumps ≠ [] then []
  else if system.client.doneChan.closed then [.startListening]
  else [.close, .startListening]

/-- `Close` has found the client connected. -/
def IsClosing (system : System) : Prop :=
  system.caller = .closing ∨ system.caller = .closingBody ∨ system.caller = .disconnecting

/-- What careful calls keep. -/
structure Tame (system : System) : Prop where
  ahead : system.ahead.Sublist system.left
  alone : system.pumps.length ≤ 1
  closing : system.IsClosing → system.pumps = []
  response : system.client.connected = system.client.resp.isSome
  starting : .starting ∈ system.pumps → system.client.connected = true
  listening : system.client.listening = true → system.pumps ≠ []
  stopped : system.client.listenDone.closed = true →
    system.pumps ≠ [] ∧ system.client.listening = false
  delivered : system.client.messageChan.closed = true → system.pumps = [.returned]

namespace Tame

variable {system : System} {calls : List Call} {index : Nat} {old new : Pump}

theorem start (careful : Careful calls) : Tame (.start calls) where
  ahead := careful
  alone := Nat.zero_le 1
  closing _ := rfl
  response := rfl
  starting member := nomatch member
  listening listening := nomatch listening
  stopped closed := nomatch closed
  delivered closed := nomatch closed

theorem pumps_eq (tame : system.Tame) (found : system.pumps[index]? = some old) :
    index = 0 ∧ system.pumps = [old] := by
  have alone := tame.alone
  cases shape : system.pumps with
  | nil =>
      rw [shape] at found
      cases found
  | cons pump pumps =>
      rw [shape, List.length_cons] at alone
      have none : pumps = [] := List.length_eq_zero_iff.mp (by omega)
      subst none
      rw [shape] at found
      cases index with
      | zero =>
          cases found
          exact ⟨rfl, rfl⟩
      | succ index => cases found

theorem setPump (tame : system.Tame) (found : system.pumps[index]? = some old)
    (live : old ≠ .returned) (begun : new ≠ .starting) : (system.setPump index new).Tame := by
  rcases tame.pumps_eq found with ⟨rfl, only⟩
  have after : (system.setPump 0 new).pumps = [new] := by
    rw [System.setPump, only]
    rfl
  have nonempty : (system.setPump 0 new).pumps ≠ [] := by
    rw [after]
    exact List.cons_ne_nil new []
  have same : (system.setPump 0 new).left = system.left := by
    rw [left, left, if_pos nonempty, if_pos (only ▸ List.cons_ne_nil old [])]
  constructor
  case ahead =>
    rw [same]
    exact tame.ahead
  case alone => exact after ▸ Nat.le_refl 1
  case closing =>
    intro closing
    exact absurd (only.symm.trans (tame.closing closing)) (List.cons_ne_nil old [])
  case response => exact tame.response
  case starting =>
    intro member
    rw [after, List.mem_singleton] at member
    exact absurd member.symm begun
  case listening => exact fun _ => nonempty
  case stopped => exact fun closed => ⟨nonempty, (tame.stopped closed).2⟩
  case delivered =>
    intro closed
    exact absurd (List.cons.inj (only.symm.trans (tame.delivered closed))).1 live

/-! ## One step of a goroutine -/

variable {result : Except Panic System}

theorem openBody (tame : system.Tame) {incoming : List ByteString}
    (taken : system.openBody index incoming = some result) :
    ∃ after, result = .ok after ∧ after.Tame := by
  simp only [System.openBody] at taken
  split at taken
  case h_1 found =>
    have connected := tame.starting ((tame.pumps_eq found).2 ▸ List.mem_cons_self)
    rw [tame.response] at connected
    split at taken
    case h_1 none =>
      rw [none] at connected
      cases connected
    case h_2 =>
      cases taken
      exact ⟨_, rfl, tame.setPump found Pump.noConfusion Pump.noConfusion⟩
  case h_2 => cases taken

theorem read_ne_starting (closedBodies : List Nat) (loop : Loop) :
    loop.read closedBodies ≠ .starting := by
  unfold Loop.read
  split
  · exact Pump.noConfusion
  · split
    · exact Pump.noConfusion
    · exact Pump.noConfusion

theorem closeMessages (tame : system.Tame) (found : system.pumps[index]? = some .returning) :
    ∃ after, (system.client.messageChan.close.map fun messageChan =>
        { system with client := { system.client with messageChan := messageChan } }.setPump
          index .returned) = .ok after ∧ after.Tame := by
  rcases tame.pumps_eq found with ⟨rfl, only⟩
  have undelivered : system.client.messageChan.closed ≠ true := by
    intro closed
    cases only.symm.trans (tame.delivered closed)
  rw [Chan.close, if_neg undelivered]
  refine ⟨_, rfl, ?_⟩
  have after : (system.setPump 0 .returned).Tame :=
    tame.setPump found Pump.noConfusion Pump.noConfusion
  constructor
  case ahead => exact after.ahead
  case alone => exact after.alone
  case closing => exact after.closing
  case response => exact after.response
  case starting => exact after.starting
  case listening => exact after.listening
  case stopped => exact after.stopped
  case delivered =>
    intro _
    change system.pumps.set 0 .returned = [.returned]
    rw [only]
    rfl

theorem go (tame : system.Tame) (taken : system.go index = some result) :
    ∃ after, result = .ok after ∧ after.Tame := by
  simp only [System.go] at taken
  split at taken
  case h_1 loop found =>
    cases taken
    refine ⟨_, rfl, tame.setPump found Pump.noConfusion ?_⟩
    split
    · exact Pump.noConfusion
    · exact Pump.noConfusion
  case h_2 loop found =>
    cases taken
    exact ⟨_, rfl, tame.setPump found Pump.noConfusion (read_ne_starting _ loop)⟩
  case h_3 loop data found =>
    split at taken
    · cases taken
      exact ⟨_, rfl, tame.setPump found Pump.noConfusion Pump.noConfusion⟩
    · cases taken
  case h_4 found =>
    cases taken
    exact tame.closeMessages found
  case h_5 => cases taken

theorem send (tame : system.Tame) (taken : system.send index = some result) :
    ∃ after, result = .ok after ∧ after.Tame := by
  simp only [System.send] at taken
  split at taken
  case h_1 loop data found =>
    have only := (tame.pumps_eq found).2
    have undelivered : system.client.messageChan.closed ≠ true := by
      intro closed
      cases only.symm.trans (tame.delivered closed)
    have after : (system.setPump index (.selecting loop)).Tame :=
      tame.setPump found Pump.noConfusion Pump.noConfusion
    rw [Chan.send, if_neg undelivered] at taken
    split at taken
    · cases taken
      refine ⟨_, rfl, ?_⟩
      exact { after with delivered := fun closed => absurd closed undelivered }
    · cases taken
  case h_2 => cases taken

/-! ## One step of the caller -/

theorem left_of_pumps (empty : system.pumps = []) :
    system.left = if system.client.doneChan.closed then [.startListening]
      else [.close, .startListening] := by
  rw [left, if_neg (not_not.mpr empty)]

theorem pumps_of_ahead (tame : system.Tame) {call : Call} {rest : List Call}
    (ahead : system.ahead = call :: rest) : system.pumps = [] := by
  by_contra some
  have sublist := tame.ahead
  rw [ahead, left, if_pos some] at sublist
  cases sublist

theorem turn (tame : system.Tame) {after : System} (client : after.client = system.client)
    (pumps : after.pumps = system.pumps) (ahead : after.ahead = system.ahead)
    (closing : after.IsClosing → after.pumps = []) : after.Tame where
  ahead := by
    have left : after.left = system.left := by rw [System.left, System.left, pumps, client]
    rw [ahead, left]
    exact tame.ahead
  alone := pumps ▸ tame.alone
  closing := closing
  response := client ▸ tame.response
  starting := by
    rw [pumps, client]
    exact tame.starting
  listening := by
    rw [pumps, client]
    exact tame.listening
  stopped := by
    rw [pumps, client]
    exact tame.stopped
  delivered := by
    rw [pumps, client]
    exact tame.delivered

theorem not_isClosing (outside : system.caller = .outside) : ¬ system.IsClosing := by
  rintro (closing | closing | closing) <;> exact Caller.noConfusion (outside.symm.trans closing)

section Calls

variable {rest : List Call} (outside : system.caller = .outside)

include outside

theorem connect (tame : system.Tame) {accepted : Bool}
    (calls : system.calls = .connect accepted :: rest) :
    ({ system with calls := rest }.connect accepted).Tame := by
  have ahead : system.ahead =
      effective (system.client.connected || accepted) system.client.listening rest := by
    rw [System.ahead, outside, calls]
    rfl
  rw [System.connect]
  split
  case isTrue connected =>
    have connected : system.client.connected = true := connected
    refine tame.turn rfl rfl ?_ fun closing => absurd closing (not_isClosing outside)
    rw [ahead, System.ahead, connected, outside]
    rfl
  case isFalse =>
    refine tame.turn rfl rfl ahead.symm ?_
    rintro (closing | closing | closing) <;> cases closing

theorem startListening (tame : system.Tame) (calls : system.calls = .startListening :: rest) :
    ({ system with calls := rest }.startListening).Tame := by
  have ahead : system.ahead =
      if system.client.connected && !system.client.listening then
        .startListening :: effective system.client.connected true rest
      else effective system.client.connected system.client.listening rest := by
    rw [System.ahead, outside, calls]
    rfl
  have unchanged : (system.client.connected && !system.client.listening) = false →
      { system with calls := rest }.Tame := by
    intro none
    refine tame.turn rfl rfl ?_ fun closing => absurd closing (not_isClosing outside)
    rw [ahead, none, System.ahead, outside]
    rfl
  rw [System.startListening]
  split
  case isTrue unconnected =>
    have unconnected : (!system.client.connected) = true := unconnected
    rw [Bool.not_eq_true'] at unconnected
    exact unchanged (by rw [unconnected, Bool.false_and])
  case isFalse connected =>
    split
    case isTrue listening =>
      have listening : system.client.listening = true := listening
      exact unchanged (by rw [listening, Bool.not_true, Bool.and_false])
    case isFalse silent =>
      have connected : system.client.connected = true := by simpa using connected
      have silent : system.client.listening = false := by simpa using silent
      rw [connected, silent] at ahead
      have empty := tame.pumps_of_ahead ahead
      have last : (Call.startListening :: effective true true rest).Sublist
          [.startListening] := by
        have sublist := tame.ahead
        rw [ahead, left_of_pumps empty] at sublist
        by_cases closed : system.client.doneChan.closed = true
        · rw [if_pos closed] at sublist
          exact sublist
        · rw [if_neg closed] at sublist
          cases sublist with
          | cons _ shorter => exact shorter
      have pumps : system.pumps ++ [.starting] = [.starting] := by rw [empty, List.nil_append]
      dsimp only
      rw [pumps]
      constructor
      case ahead =>
        rw [left, if_pos (List.cons_ne_nil _ _), System.ahead, outside]
        dsimp only
        rw [connected]
        exact List.cons_sublist_cons.mp last
      case alone => exact Nat.le_refl 1
      case closing => exact fun closing => absurd closing (not_isClosing outside)
      case response => exact tame.response
      case starting => exact fun _ => connected
      case listening => exact fun _ => List.cons_ne_nil _ _
      case stopped => exact fun closed => absurd empty (tame.stopped closed).1
      case delivered =>
        intro closed
        cases empty.symm.trans (tame.delivered closed)

theorem stopListening (tame : system.Tame) (calls : system.calls = .stopListening :: rest) :
    ∃ after, { system with calls := rest }.stopListening = .ok after ∧ after.Tame := by
  have ahead : system.ahead = effective system.client.connected false rest := by
    rw [System.ahead, outside, calls]
    rfl
  rw [System.stopListening]
  split
  case isTrue silent =>
    have silent : (!system.client.listening) = true := silent
    rw [Bool.not_eq_true'] at silent
    refine ⟨_, rfl, tame.turn rfl rfl ?_ fun closing => absurd closing (not_isClosing outside)⟩
    rw [ahead, System.ahead, silent, outside]
  case isFalse listening =>
    have listening : system.client.listening = true := by simpa using listening
    have unclosed : system.client.listenDone.closed ≠ true := by
      intro closed
      cases listening.symm.trans (tame.stopped closed).2
    have nonempty := tame.listening listening
    dsimp only
    rw [Chan.close, if_neg unclosed]
    refine ⟨_, rfl, ?_⟩
    constructor
    case ahead =>
      have sublist := tame.ahead
      rw [ahead, left, if_pos nonempty] at sublist
      rw [left, if_pos nonempty, System.ahead, outside]
      exact sublist
    case alone => exact tame.alone
    case closing => exact tame.closing
    case response => exact tame.response
    case starting => exact tame.starting
    case listening => exact fun _ => nonempty
    case stopped => exact fun _ => ⟨nonempty, rfl⟩
    case delivered => exact tame.delivered

theorem close (tame : system.Tame) (calls : system.calls = .close :: rest) :
    ({ system with calls := rest }.close).Tame := by
  have ahead : system.ahead =
      if system.client.connected then .close :: effective false system.client.listening rest
      else effective system.client.connected system.client.listening rest := by
    rw [System.ahead, outside, calls]
    rfl
  rw [System.close]
  split
  case isTrue unconnected =>
    have unconnected : (!system.client.connected) = true := unconnected
    rw [Bool.not_eq_true'] at unconnected
    refine tame.turn rfl rfl ?_ fun closing => absurd closing (not_isClosing outside)
    rw [ahead, System.ahead, unconnected, outside]
    rfl
  case isFalse connected =>
    have connected : system.client.connected = true := by simpa using connected
    rw [connected, if_pos rfl] at ahead
    exact tame.turn rfl rfl ahead.symm fun _ => tame.pumps_of_ahead ahead

end Calls

theorem respond (tame : system.Tame) {accepted : Bool}
    (requesting : system.caller = .requesting accepted) : (system.respond accepted).Tame := by
  have ahead : system.ahead = effective (system.client.connected || accepted)
      system.client.listening system.calls := by
    rw [System.ahead, requesting]
  rw [System.respond]
  split
  case isTrue success =>
    rw [success, Bool.or_true] at ahead
    constructor
    case ahead =>
      have sublist := tame.ahead
      rw [ahead] at sublist
      exact sublist
    case alone => exact tame.alone
    case closing => exact fun closing => absurd closing (not_isClosing rfl)
    case response => rfl
    case starting => exact fun _ => rfl
    case listening => exact tame.listening
    case stopped => exact tame.stopped
    case delivered => exact tame.delivered
  case isFalse failure =>
    rw [Bool.not_eq_true] at failure
    rw [failure, Bool.or_false] at ahead
    exact tame.turn rfl rfl ahead.symm fun closing => absurd closing (not_isClosing rfl)

theorem closeDone (tame : system.Tame) (closing : system.caller = .closing) :
    ∃ after, system.closeDone = .ok after ∧ after.Tame := by
  have ahead : system.ahead =
      .close :: effective false system.client.listening system.calls := by
    rw [System.ahead, closing]
  have empty := tame.pumps_of_ahead ahead
  have sublist := tame.ahead
  rw [ahead, left_of_pumps empty] at sublist
  have unclosed : system.client.doneChan.closed ≠ true := by
    intro closed
    rw [if_pos closed] at sublist
    cases sublist with
    | cons _ shorter => cases shorter
  rw [if_neg unclosed] at sublist
  rw [System.closeDone, Chan.close, if_neg unclosed]
  refine ⟨_, rfl, ?_⟩
  exact { tame with
    ahead := by
      dsimp only
      rw [left_of_pumps (by exact empty), if_pos rfl]
      exact List.cons_sublist_cons.mp sublist
    closing := fun _ => empty }

theorem disconnect (tame : system.Tame) (disconnecting : system.caller = .disconnecting) :
    system.disconnect.Tame := by
  have empty := tame.closing (.inr (.inr disconnecting))
  exact { tame with
    ahead := by
      have sublist := tame.ahead
      rw [System.ahead, disconnecting] at sublist
      exact sublist
    closing := fun _ => empty
    response := rfl
    starting := fun member => by
      change Pump.starting ∈ system.pumps at member
      rw [empty] at member
      cases member }

/-! ## Runs -/

theorem callerStep (tame : system.Tame) (taken : system.callerStep = some result) :
    ∃ after, result = .ok after ∧ after.Tame := by
  simp only [System.callerStep] at taken
  split at taken
  case h_1 outside =>
    split at taken
    case h_1 => cases taken
    case h_2 call rest calls =>
      cases taken
      cases call with
      | connect accepted => exact ⟨_, rfl, tame.connect outside calls⟩
      | startListening => exact ⟨_, rfl, tame.startListening outside calls⟩
      | stopListening => exact tame.stopListening outside calls
      | receiveMessages =>
          refine ⟨_, rfl, tame.turn rfl rfl ?_ fun closing =>
            absurd closing (not_isClosing outside)⟩
          rw [System.ahead, System.ahead, outside, calls]
          rfl
      | close => exact ⟨_, rfl, tame.close outside calls⟩
  case h_2 accepted requesting =>
    cases taken
    exact ⟨_, rfl, tame.respond requesting⟩
  case h_3 closing =>
    cases taken
    exact tame.closeDone closing
  case h_4 closing =>
    cases taken
    refine ⟨_, rfl, tame.turn rfl rfl ?_ fun _ => tame.closing (.inr (.inl closing))⟩
    rw [System.ahead, System.ahead, closing]
    rfl
  case h_5 disconnecting =>
    cases taken
    exact ⟨_, rfl, tame.disconnect disconnecting⟩

theorem step (tame : system.Tame) {move : Move} (taken : system.step move = some result) :
    ∃ after, result = .ok after ∧ after.Tame := by
  cases move with
  | call => exact tame.callerStep taken
  | openBody index incoming => exact tame.openBody taken
  | go index => exact tame.go taken
  | send index => exact tame.send taken
  | receive =>
      cases taken
      exact ⟨_, rfl, { tame with }⟩

end Tame

end System

theorem neverPanics_of_careful {calls : List Call} (careful : Careful calls) :
    NeverPanics calls := by
  intro moves final run
  have holds : ∃ system, final = .ok system ∧ system.Tame := by
    refine run.invariant (fun state => ∃ system, state = .ok system ∧ system.Tame) ?_
      ⟨_, rfl, .start careful⟩
    rintro state move after ⟨system, rfl, tame⟩ - taken
    exact tame.step taken
  rcases holds with ⟨system, rfl, -⟩
  intro panic same
  cases same

/-! ## Other calls -/

def Panics (state : Except Panic System) : Prop :=
  ∃ moves panic, AnyRun next state moves (.error panic)

namespace Panics

variable {system : System} {rest : List Call}

theorem now (panic : Panic) : Panics (.error panic) := ⟨[], panic, .nil _⟩

theorem after {move : Move} {result : Except Panic System}
    (taken : system.step move = some result) (panics : Panics result) : Panics (.ok system) := by
  rcases panics with ⟨moves, panic, run⟩
  exact ⟨move :: moves, panic, .cons trivial taken run⟩

theorem of_closed (pumps : system.pumps = [.starting]) (closed : system.client.resp = none) :
    Panics (.ok system) := by
  have taken : system.step (.openBody 0 []) = some (.error .nilDereference) := by
    rw [System.step, System.openBody, pumps]
    simp only [List.getElem?_cons_zero, closed]
  exact .after taken (now _)

theorem of_starting {index response : Nat} (found : system.pumps[index]? = some .starting)
    (connected : system.client.resp = some response)
    (stopped : system.client.listenDone.closed = true)
    (later : system.client.messageChan.closed = false →
      Panics (.ok ({ system with
        client := { system.client with
          messageChan := { system.client.messageChan with closed := true } } }.setPump
            index .returned))) :
    Panics (.ok system) := by
  have within : index < system.pumps.length := (List.getElem?_eq_some_iff.mp found).1
  have ended : system.ended = true := by rw [System.ended, stopped, Bool.or_true]
  have at_index : ∀ pump, (system.setPump index pump).pumps[index]? = some pump := fun pump =>
    List.getElem?_set_self within
  have begun : system.step (.openBody index []) =
      some (.ok (system.setPump index (.selecting ⟨response, ⟨[], []⟩, []⟩))) := by
    simp only [System.step, System.openBody, found, connected]
  have left : (system.setPump index (.selecting ⟨response, ⟨[], []⟩, []⟩)).step (.go index) =
      some (.ok (system.setPump index .returning)) := by
    simp only [System.step, System.go, at_index, System.setPump_ended, System.setPump_setPump,
      ended, if_true]
  refine .after begun (.after left ?_)
  by_cases closed : system.client.messageChan.closed = true
  · have taken : (system.setPump index .returning).step (.go index) =
        some (.error .closeOfClosedChannel) := by
      simp only [System.step, System.go, at_index, Chan.close, System.setPump_client,
        closed, if_true]
      rfl
    exact .after taken (now _)
  · rw [Bool.not_eq_true] at closed
    have taken : (system.setPump index .returning).step (.go index) =
        some (.ok ({ system with
          client := { system.client with
            messageChan := { system.client.messageChan with closed := true } } }.setPump
              index .returned)) := by
      simp only [System.step, System.go, at_index, Chan.close, System.setPump_client,
        closed, Bool.false_eq_true, if_false]
      simp only [Except.map, System.setPump, List.set_set]
    exact .after taken (later closed)

theorem of_two (pumps : system.pumps = [.starting, .starting])
    (connected : system.client.resp.isSome = true)
    (stopped : system.client.listenDone.closed = true) : Panics (.ok system) := by
  rcases Option.isSome_iff_exists.mp connected with ⟨response, connected⟩
  have first : system.pumps[0]? = some .starting := by
    rw [pumps]
    rfl
  have second : (system.pumps.set 0 .returned)[1]? = some .starting := by
    rw [pumps]
    rfl
  refine of_starting first connected stopped fun _ => ?_
  exact of_starting second connected stopped fun unclosed => nomatch unclosed

theorem of_close (outside : system.caller = .outside) (calls : system.calls = .close :: rest)
    (connected : system.client.connected = true)
    (later : system.client.doneChan.closed = false →
      Panics (.ok { system with
        calls := rest
        client := { system.client with
          doneChan := { system.client.doneChan with closed := true }
          connected := false
          resp := none }
        closedBodies := system.client.resp.toList ++ system.closedBodies })) :
    Panics (.ok system) := by
  have entered : system.step .call =
      some (.ok { system with calls := rest, caller := .closing }) := by
    rw [System.step_call outside calls]
    simp only [System.enter, System.close, connected, Bool.not_true, Bool.false_eq_true, if_false]
  refine .after entered ?_
  by_cases closed : system.client.doneChan.closed = true
  · have taken : { system with calls := rest, caller := .closing }.step .call =
        some (.error .closeOfClosedChannel) := by
      simp only [System.step, System.callerStep, System.closeDone, Chan.close, if_pos closed]
      rfl
    exact .after taken (now _)
  · have taken : { system with calls := rest, caller := .closing }.step .call =
        some (.ok { system with
          calls := rest
          caller := .closingBody
          client := { system.client with
            doneChan := { system.client.doneChan with closed := true } } }) := by
      simp only [System.step, System.callerStep, System.closeDone, Chan.close, if_neg closed]
      rfl
    refine .after taken (.after (show System.step _ .call = some (.ok _) from rfl)
      (.after (show System.step _ .call = some (.ok _) from rfl) ?_))
    rw [Bool.not_eq_true] at closed
    have last := later closed
    rw [outside] at last
    exact last

end Panics

/-- Between two calls, with a goroutine at most, which has not begun. -/
structure Fresh (system : System) : Prop where
  outside : system.caller = .outside
  response : system.client.connected = system.client.resp.isSome
  pumps : (system.pumps = [] ∧ system.client.listening = false ∧
      system.client.listenDone.closed = false) ∨
    (system.pumps = [.starting] ∧ system.client.connected = true ∧
      system.client.listenDone.closed = !system.client.listening)

def Harmed (system : System) : Prop := ¬ system.ahead.Sublist system.left

theorem Fresh.start (calls : List Call) : Fresh (.start calls) :=
  ⟨rfl, rfl, .inl ⟨rfl, rfl, rfl⟩⟩

namespace Panics

variable {system : System} {rest : List Call}

def FollowsFrom (rest : List Call) : Prop :=
  ∀ system : System, system.calls = rest → Fresh system → Harmed system → Panics (.ok system)

variable (fresh : Fresh system) (harmed : Harmed system) (follows : FollowsFrom rest)

include fresh harmed follows

theorem of_unchanged {call : Call} (calls : system.calls = call :: rest)
    (entered : { system with calls := rest }.enter call = .ok { system with calls := rest })
    (ahead : system.ahead = { system with calls := rest }.ahead) : Panics (.ok system) := by
  have taken : system.step .call = some (.ok { system with calls := rest }) := by
    rw [System.step_call fresh.outside calls]
    exact congrArg some entered
  refine .after taken (follows _ rfl ⟨fresh.outside, fresh.response, fresh.pumps⟩ ?_)
  rw [Harmed, ← ahead]
  exact harmed

theorem of_connect {accepted : Bool} (calls : system.calls = .connect accepted :: rest) :
    Panics (.ok system) := by
  have ahead : system.ahead =
      effective (system.client.connected || accepted) system.client.listening rest := by
    rw [System.ahead, fresh.outside, calls]
    rfl
  by_cases connected : system.client.connected = true
  · apply of_unchanged fresh harmed follows calls
    · simp only [System.enter, System.connect, connected, if_true]
    · rw [ahead, System.ahead, fresh.outside, connected]
      rfl
  · rw [Bool.not_eq_true] at connected
    have entered : system.step .call =
        some (.ok { system with calls := rest, caller := .requesting accepted }) := by
      rw [System.step_call fresh.outside calls]
      simp only [System.enter, System.connect, connected, Bool.false_eq_true, if_false]
    have empty : system.pumps = [] ∧ system.client.listening = false ∧
        system.client.listenDone.closed = false :=
      fresh.pumps.resolve_right fun begun => Bool.false_ne_true (connected.symm.trans begun.2.1)
    refine .after entered ?_
    have answered : { system with calls := rest, caller := .requesting accepted }.step .call =
      some (.ok ({ system with calls := rest, caller := .requesting accepted }.respond accepted)) :=
      rfl
    refine .after answered ?_
    cases accepted with
    | true =>
        refine follows _ rfl ⟨rfl, rfl, .inl empty⟩ ?_
        rw [connected] at ahead
        rw [Harmed, ahead] at harmed
        exact harmed
    | false =>
        refine follows _ rfl ⟨rfl, fresh.response, fresh.pumps⟩ ?_
        rw [Bool.or_false] at ahead
        rw [Harmed, ahead] at harmed
        exact harmed

theorem of_startListening (calls : system.calls = .startListening :: rest) :
    Panics (.ok system) := by
  have ahead : system.ahead =
      if system.client.connected && !system.client.listening then
        .startListening :: effective system.client.connected true rest
      else effective system.client.connected system.client.listening rest := by
    rw [System.ahead, fresh.outside, calls]
    rfl
  by_cases effect : (system.client.connected && !system.client.listening) = true
  · have flags := Bool.and_eq_true_iff.mp effect
    rw [Bool.not_eq_true'] at flags
    rw [if_pos effect, flags.1] at ahead
    have entered : system.step .call = some (.ok { system with
        calls := rest
        client := { system.client with listening := true }
        pumps := system.pumps ++ [.starting] }) := by
      rw [System.step_call fresh.outside calls]
      simp only [System.enter, System.startListening, flags, Bool.not_true, Bool.false_eq_true,
        if_false]
    refine .after entered ?_
    rcases fresh.pumps with ⟨empty, -, unstopped⟩ | ⟨one, -, stopped⟩
    · refine follows _ rfl ⟨fresh.outside, fresh.response, ?_⟩ ?_
      · refine .inr ⟨?_, flags.1, unstopped⟩
        dsimp only
        rw [empty, List.nil_append]
      · intro sublist
        dsimp only at sublist
        rw [System.left, if_pos (by simp), System.ahead, fresh.outside] at sublist
        apply harmed
        rw [ahead, System.Tame.left_of_pumps empty]
        have last : (Call.startListening :: effective true true rest).Sublist
            [.startListening] :=
          List.cons_sublist_cons.mpr (flags.1 ▸ sublist)
        split
        · exact last
        · exact last.cons _
    · apply of_two
      · dsimp only
        rw [one]
        rfl
      · exact fresh.response.symm.trans flags.1
      · rw [flags.2] at stopped
        exact stopped
  · rw [if_neg effect] at ahead
    rw [Bool.not_eq_true] at effect
    apply of_unchanged fresh harmed follows calls
    · rcases Bool.and_eq_false_iff.mp effect with unconnected | listening
      · simp only [System.enter, System.startListening, unconnected, Bool.not_false, if_true]
      · rw [Bool.not_eq_false'] at listening
        simp only [System.enter, System.startListening, listening, if_true, ite_self]
    · rw [ahead, System.ahead, fresh.outside]

theorem of_stopListening (calls : system.calls = .stopListening :: rest) :
    Panics (.ok system) := by
  have ahead : system.ahead = effective system.client.connected false rest := by
    rw [System.ahead, fresh.outside, calls]
    rfl
  by_cases listening : system.client.listening = true
  · have one := fresh.pumps.resolve_left fun none =>
      Bool.false_ne_true (none.2.1.symm.trans listening)
    have unclosed : system.client.listenDone.closed = false := by
      rw [one.2.2, listening]
      rfl
    have entered : system.step .call = some (.ok { system with
        calls := rest
        client := { system.client with
          listening := false
          listenDone := { system.client.listenDone with closed := true } } }) := by
      rw [System.step_call fresh.outside calls]
      simp only [System.enter, System.stopListening, listening, Bool.not_true,
        Bool.false_eq_true, if_false, Chan.close, unclosed]
      rfl
    refine .after entered (follows _ rfl ⟨fresh.outside, fresh.response,
      .inr ⟨one.1, one.2.1, rfl⟩⟩ ?_)
    rw [Harmed, ahead] at harmed
    rw [Harmed, System.ahead, fresh.outside]
    exact harmed
  · rw [Bool.not_eq_true] at listening
    apply of_unchanged fresh harmed follows calls
    · simp only [System.enter, System.stopListening, listening, Bool.not_false, if_true]
    · rw [ahead, System.ahead, fresh.outside, listening]

theorem of_closing (calls : system.calls = .close :: rest) : Panics (.ok system) := by
  have ahead : system.ahead =
      if system.client.connected then .close :: effective false system.client.listening rest
      else effective system.client.connected system.client.listening rest := by
    rw [System.ahead, fresh.outside, calls]
    rfl
  by_cases connected : system.client.connected = true
  · rw [if_pos connected] at ahead
    apply of_close fresh.outside calls connected
    intro unclosed
    rcases fresh.pumps with ⟨empty, silent, unstopped⟩ | ⟨one, -, -⟩
    · refine follows _ rfl ⟨fresh.outside, rfl, .inl ⟨empty, silent, unstopped⟩⟩ ?_
      intro sublist
      dsimp only at sublist
      rw [System.Tame.left_of_pumps (by exact empty), if_pos rfl, System.ahead, fresh.outside]
        at sublist
      apply harmed
      rw [ahead, System.Tame.left_of_pumps empty, unclosed]
      exact List.cons_sublist_cons.mpr sublist
    · exact of_closed one rfl
  · rw [if_neg connected] at ahead
    rw [Bool.not_eq_true] at connected
    apply of_unchanged fresh harmed follows calls
    · simp only [System.enter, System.close, connected, Bool.not_false, if_true]
    · rw [ahead, System.ahead, fresh.outside]

end Panics

/-- A second goroutine, or one that begins too late, or a channel that is
closed again: one of them can be had. -/
theorem panics_of_harmed (calls : List Call) : Panics.FollowsFrom calls := by
  induction calls with
  | nil =>
      intro system calls fresh harmed
      rw [Harmed, System.ahead, fresh.outside, calls] at harmed
      exact absurd (List.nil_sublist _) harmed
  | cons call rest follows =>
      intro system calls fresh harmed
      cases call with
      | connect accepted => exact Panics.of_connect fresh harmed follows calls
      | startListening => exact Panics.of_startListening fresh harmed follows calls
      | stopListening => exact Panics.of_stopListening fresh harmed follows calls
      | receiveMessages =>
          apply Panics.of_unchanged fresh harmed follows calls rfl
          rw [System.ahead, System.ahead, fresh.outside, calls]
          rfl
      | close => exact Panics.of_closing fresh harmed follows calls

/-! ## The main result -/

/-- No interleaving panics just when the calls are careful. -/
theorem neverPanics_iff (calls : List Call) : NeverPanics calls ↔ Careful calls := by
  constructor
  · intro never
    by_contra careless
    rcases panics_of_harmed calls (.start calls) rfl (.start calls) careless
      with ⟨moves, panic, run⟩
    exact never moves _ run panic rfl
  · exact neverPanics_of_careful

/-- A client that is opened and closed twice. -/
theorem reopened_panics : ¬ ∀ calls, NeverPanics calls := by
  intro never
  have executed : execute next
      (.ok (.start [.connect true, .close, .connect true, .close])) (List.replicate 10 .call) =
        some (.error .closeOfClosedChannel) := by
    decide +kernel
  exact never _ _ _ (run_of_execute executed) _ rfl

end Grunt.Client
