import Grunt.Foundation.Run
import Grunt.Client.ReadPump

/-! # A client and its channels

One caller makes the public calls of a `Client`, one after the other, and every
`StartListening` that takes effect leaves a `readPump` behind. `Connect` and
`Close` let go of the lock between their checks and what they do. A panic ends
the program.
-/

namespace Grunt.Client

open Foundation

/-! ## Channels -/

inductive Panic
  | closeOfClosedChannel
  | sendOnClosedChannel
  | nilDereference
deriving DecidableEq, Repr

/-- A channel: the values that nobody has received, and whether it is closed. -/
structure Chan (Value : Type) where
  buffer : List Value
  closed : Bool
deriving DecidableEq, Repr

namespace Chan

variable {Value : Type}

def make : Chan Value := ⟨[], false⟩

def close (chan : Chan Value) : Except Panic (Chan Value) :=
  if chan.closed then .error .closeOfClosedChannel
  else .ok { chan with closed := true }

def send (capacity : Nat) (chan : Chan Value) (value : Value) :
    Option (Except Panic (Chan Value)) :=
  if chan.closed then some (.error .sendOnClosedChannel)
  else if chan.buffer.length < capacity then
    some (.ok { chan with buffer := chan.buffer ++ [value] })
  else none

def receive (chan : Chan Value) : Chan Value := { chan with buffer := chan.buffer.tail }

end Chan

/-! ## The client -/

/-- The internal state. A response has the number of the requests before it. -/
structure ClientState where
  messageChan : Chan ByteString
  doneChan : Chan Unit
  listenDone : Chan Unit
  connected : Bool
  listening : Bool
  resp : Option Nat
deriving DecidableEq, Repr

def newClient : ClientState where
  messageChan := .make
  doneChan := .make
  listenDone := .make
  connected := false
  listening := false
  resp := none

/-- The capacity of `messageChan`. -/
def messageCapacity : Nat := 100

/-- The public calls, `Connect` with whether the server is going to accept it. -/
inductive Call
  | connect (accepted : Bool)
  | startListening
  | stopListening
  | receiveMessages
  | close
deriving DecidableEq, Repr

inductive Caller
  /-- Between two calls. -/
  | outside
  /-- In `Connect`, before the response. -/
  | requesting (accepted : Bool)
  /-- In `Close`, before `close(c.doneChan)`. -/
  | closing
  /-- In `Close`, before `c.resp.Body.Close()`. -/
  | closingBody
  /-- In `Close`, before the lock is taken again. -/
  | disconnecting
deriving DecidableEq, Repr

/-- What `readPump` has in its variables. -/
structure Loop where
  /-- The response of which it reads the body. -/
  response : Nat
  reader : Reader
  dataBuf : ByteString
deriving DecidableEq, Repr

/-- Where a `readPump` is. -/
inductive Pump
  /-- Before it takes the body from `c.resp`. -/
  | starting
  /-- At the top of the loop. -/
  | selecting (loop : Loop)
  | reading (loop : Loop)
  /-- At the `select` with the send. -/
  | sending (loop : Loop) (data : ByteString)
  /-- Before the deferred `close(c.messageChan)`. -/
  | returning
  | returned
deriving DecidableEq, Repr

/-- The client, the calls that are still to be made and the goroutines. -/
structure System where
  client : ClientState
  calls : List Call
  caller : Caller
  pumps : List Pump
  /-- How many responses there have been. -/
  responses : Nat
  /-- The responses whose bodies have been closed. -/
  closedBodies : List Nat
deriving DecidableEq, Repr

namespace Loop

def source (closedBodies : List Nat) (loop : Loop) : Reader :=
  if closedBodies.contains loop.response then ⟨loop.reader.buffered, []⟩ else loop.reader

def read (closedBodies : List Nat) (loop : Loop) : Pump :=
  match (loop.source closedBodies).readBytes with
  | none => .returning
  | some (line, reader) =>
      match handleLine line loop.dataBuf with
      | (none, dataBuf) => .selecting { loop with reader := reader, dataBuf := dataBuf }
      | (some data, dataBuf) => .sending { loop with reader := reader, dataBuf := dataBuf } data

end Loop

inductive Move
  /-- The next step of the caller. -/
  | call
  /-- A `readPump` takes the body, of which it is going to read these chunks
  until it ends. -/
  | openBody (index : Nat) (incoming : List ByteString)
  /-- A `readPump` goes on. -/
  | go (index : Nat)
  /-- A `readPump` sends, where it can. -/
  | send (index : Nat)
  /-- Whoever holds the message channel receives from it. -/
  | receive
deriving DecidableEq, Repr

namespace System

def start (calls : List Call) : System where
  client := newClient
  calls := calls
  caller := .outside
  pumps := []
  responses := 0
  closedBodies := []

/-! ## The calls -/

/-- `Connect` up to the request. -/
def connect (system : System) (accepted : Bool) : System :=
  if system.client.connected then system
  else { system with caller := .requesting accepted }

/-- `Connect` from the response on. -/
def respond (system : System) (accepted : Bool) : System :=
  if accepted then
    { system with
      client := { system.client with resp := some system.responses, connected := true }
      caller := .outside
      responses := system.responses + 1 }
  else { system with caller := .outside }

def startListening (system : System) : System :=
  if !system.client.connected then system
  else if system.client.listening then system
  else
    { system with
      client := { system.client with listening := true }
      pumps := system.pumps ++ [.starting] }

def stopListening (system : System) : Except Panic System :=
  if !system.client.listening then .ok system
  else system.client.listenDone.close.map fun listenDone =>
    { system with
      client := { system.client with listening := false, listenDone := listenDone } }

/-- `Close` up to `close(c.doneChan)`. -/
def close (system : System) : System :=
  if !system.client.connected then system
  else { system with caller := .closing }

def closeDone (system : System) : Except Panic System :=
  system.client.doneChan.close.map fun doneChan =>
    { system with
      client := { system.client with doneChan := doneChan }
      caller := .closingBody }

def closeBody (system : System) : System :=
  { system with
    closedBodies := system.client.resp.toList ++ system.closedBodies
    caller := .disconnecting }

def disconnect (system : System) : System :=
  { system with
    client := { system.client with connected := false, resp := none }
    caller := .outside }

def enter (system : System) : Call → Except Panic System
  | .connect accepted => .ok (system.connect accepted)
  | .startListening => .ok system.startListening
  | .stopListening => system.stopListening
  | .receiveMessages => .ok system
  | .close => .ok system.close

def callerStep (system : System) : Option (Except Panic System) :=
  match system.caller with
  | .outside =>
      match system.calls with
      | [] => none
      | call :: calls => some ({ system with calls := calls }.enter call)
  | .requesting accepted => some (.ok (system.respond accepted))
  | .closing => some system.closeDone
  | .closingBody => some (.ok system.closeBody)
  | .disconnecting => some (.ok system.disconnect)

/-! ## The goroutines -/

def setPump (system : System) (index : Nat) (pump : Pump) : System :=
  { system with pumps := system.pumps.set index pump }

/-- `<-c.doneChan` or `<-c.listenDone` is ready. -/
def ended (system : System) : Bool :=
  system.client.doneChan.closed || system.client.listenDone.closed

@[simp]
theorem setPump_client (system : System) (index : Nat) (pump : Pump) :
    (system.setPump index pump).client = system.client := rfl

@[simp]
theorem setPump_setPump (system : System) (index : Nat) (one two : Pump) :
    (system.setPump index one).setPump index two = system.setPump index two := by
  simp only [setPump, List.set_set]

@[simp]
theorem setPump_ended (system : System) (index : Nat) (pump : Pump) :
    (system.setPump index pump).ended = system.ended := rfl

/-- `bufio.NewReader(c.resp.Body)` -/
def openBody (system : System) (index : Nat) (incoming : List ByteString) :
    Option (Except Panic System) :=
  match system.pumps[index]? with
  | some .starting =>
      match system.client.resp with
      | none => some (.error .nilDereference)
      | some response =>
          some (.ok (system.setPump index (.selecting ⟨response, ⟨[], incoming⟩, []⟩)))
  | _ => none

def go (system : System) (index : Nat) : Option (Except Panic System) :=
  match system.pumps[index]? with
  | some (.selecting loop) =>
      some (.ok (system.setPump index (if system.ended then .returning else .reading loop)))
  | some (.reading loop) =>
      some (.ok (system.setPump index (loop.read system.closedBodies)))
  | some (.sending _ _) =>
      if system.ended then some (.ok (system.setPump index .returning)) else none
  | some .returning =>
      some (system.client.messageChan.close.map fun messageChan =>
        { system with client := { system.client with messageChan := messageChan } }.setPump
          index .returned)
  | _ => none

def send (system : System) (index : Nat) : Option (Except Panic System) :=
  match system.pumps[index]? with
  | some (.sending loop data) =>
      (system.client.messageChan.send messageCapacity data).map fun sent =>
        sent.map fun messageChan =>
          { system with client := { system.client with messageChan := messageChan } }.setPump
            index (.selecting loop)
  | _ => none

def receive (system : System) : System :=
  { system with
    client := { system.client with messageChan := system.client.messageChan.receive } }

def step (system : System) : Move → Option (Except Panic System)
  | .call => system.callerStep
  | .openBody index incoming => system.openBody index incoming
  | .go index => system.go index
  | .send index => system.send index
  | .receive => some (.ok system.receive)

theorem step_call {system : System} {call : Call} {rest : List Call}
    (outside : system.caller = .outside) (calls : system.calls = call :: rest) :
    system.step .call = some ({ system with calls := rest }.enter call) := by
  rw [step, callerStep, outside, calls]

end System

def next : Except Panic System → Move → Option (Except Panic System)
  | .error _, _ => none
  | .ok system, move => system.step move

/-- However the calls and the goroutines are interleaved, nothing panics. -/
def NeverPanics (calls : List Call) : Prop :=
  ∀ moves final, AnyRun next (.ok (.start calls)) moves final → ∀ panic, final ≠ .error panic

end Grunt.Client
