import Mathlib.Logic.Function.Basic
import Grunt.Client.Unmarshal
import Grunt.Foundation.EventStream
import Grunt.Server.Html

/-! # The hub

The broadcast channel, the `Run` loop and the write pumps. `Run` is taken
apart where something else can happen in between: it waits in `select`, puts
its own join and leave events on the channel, renders what it has dequeued and
offers it to one subscriber after the other. A write pump belongs to the
request that opened the stream and goes by its number.

Besides what the program keeps, a hub remembers what was put on the channel
and what became of it. Nothing here reads that memory.
-/

namespace Grunt.Server

open Foundation

/-- The capacity of `broadcast` and of every `send`. -/
def channelCapacity : Nat := 256

structure Subscriber where
  clientID : ByteString
  userID : ByteString
  renderHTML : Bool
deriving DecidableEq, Repr

/-- What `json.Unmarshal` reads from an item of the broadcast channel. -/
inductive Payload
  | message (message : Client.Broadcast)
  | event (event : Client.Event)
deriving DecidableEq, Repr

/-- An item of the broadcast channel: its bytes and what they stand for. -/
structure Item where
  data : ByteString
  payload : Payload
deriving DecidableEq, Repr

namespace Item

def ofEvent (event : Client.Event) : Item where
  data := event.marshal
  payload := .event event.decoded

def eventType (item : Item) : ByteString :=
  match item.payload with
  | .event _ => utf8 "event"
  | .message _ => utf8 "message"

end Item

/-- What was put on a send channel: the bytes, the item they were made of, its
place among the items dequeued so far, and the texts a fragment shows. -/
structure Frame where
  bytes : ByteString
  item : Item
  number : Nat
  shown : List ByteString
deriving DecidableEq, Repr

/-- A frame and how many the buffer already held when it was offered. -/
structure Offer where
  frame : Frame
  held : Nat
deriving DecidableEq, Repr

namespace Offer

def kept (offer : Offer) : Bool := offer.held < channelCapacity

end Offer

/-- The name that the write pump gives to an event of the stream. -/
def streamEvent (data : ByteString) : Option ByteString :=
  (Client.unmarshalType data).map fun type =>
    if type = utf8 "event" then utf8 "event" else utf8 "message"

inductive PumpPhase
  | pumping
  /-- `s.hub.unregister <- s` -/
  | unregistering
  /-- `close(s.send)` -/
  | closing
  | exited
deriving DecidableEq, Repr

structure Pump where
  subscriber : Subscriber
  phase : PumpPhase
  send : List Frame
  /-- How many items had been dequeued when `Run` registered the subscriber. -/
  joined : Nat
  /-- How many when it processed the unregistration. -/
  left : Option Nat
  offers : List Offer
  /-- The frames that the pump is done with. -/
  written : List Frame
  stream : ByteString
deriving DecidableEq, Repr

namespace Pump

def start (subscriber : Subscriber) (joined : Nat) : Pump where
  subscriber := subscriber
  phase := .pumping
  send := []
  joined := joined
  left := none
  offers := []
  written := []
  stream := []

/-- Everything that was put on the send channel, in order. -/
def queued (pump : Pump) : List Frame :=
  (pump.offers.filter Offer.kept).map Offer.frame

/-- What the pump writes for one frame: nothing where it cannot read the type. -/
def text (subscriber : Subscriber) (frame : Frame) : ByteString :=
  if subscriber.renderHTML then EventStream.write (utf8 "message") frame.bytes
  else
    match streamEvent frame.bytes with
    | none => []
    | some eventType =>
        utf8 "event: " ++ eventType ++ utf8 "\n" ++
          (utf8 "data: " ++ frame.bytes ++ utf8 "\n\n")

/-- `select` with a `default`: a full buffer drops the frame. -/
def offer (frame : Frame) (pump : Pump) : Pump where
  subscriber := pump.subscriber
  phase := pump.phase
  send := if pump.send.length < channelCapacity then pump.send ++ [frame] else pump.send
  joined := pump.joined
  left := pump.left
  offers := pump.offers ++ [⟨frame, pump.send.length⟩]
  written := pump.written
  stream := pump.stream

/-- Receive a frame and write it, or fail after some of its bytes. There is no
failure where nothing is written. -/
def write (failure : Option Nat) (pump : Pump) : Option Pump :=
  match pump.phase, pump.send with
  | .pumping, frame :: rest =>
      match failure with
      | none => some { pump with
          send := rest
          written := pump.written ++ [frame]
          stream := pump.stream ++ text pump.subscriber frame }
      | some count =>
          if text pump.subscriber frame = [] then none
          else some { pump with
            send := rest
            phase := .unregistering
            stream := pump.stream ++ (text pump.subscriber frame).take count }
  | _, _ => none

end Pump

abbrev Entry := ByteString × Nat

instance : LawfulBEq Entry := inferInstance

inductive Phase
  | selecting
  /-- `broadcastEvent` -/
  | announcing (event : Client.Event)
  | rendering (item : Item)
  | fanningOut (item : Item) (fragment : ByteString) (shown : List ByteString)
      (todo : List Entry)
  | stopped
  | panicked
deriving DecidableEq, Repr

structure Hub where
  subscribers : List Entry
  broadcast : List Item
  phase : Phase
  /-- The channel `stop` is closed. -/
  stopping : Bool
  lastMsgUser : ByteString
  lastMsgTime : Instant
  lastMsgDate : Instant
  pumps : Nat → Option Pump
  /-- All items ever put on `broadcast`, with the request that sent them. -/
  accepted : List (Option Nat × Item)
  taken : List Item

/-- What rendering reads besides the hub. -/
structure Surroundings where
  location : Location
  emotes : EmoteTable
  now : Instant
  hasAvatar : ByteString → Bool

namespace Hub

/-- `NewHub`, with `Run` started. -/
def start : Hub where
  subscribers := []
  broadcast := []
  phase := .selecting
  stopping := false
  lastMsgUser := []
  lastMsgTime := Calendar.zeroTime
  lastMsgDate := Calendar.zeroTime
  pumps := fun _ => none
  accepted := []
  taken := []

def setPump (hub : Hub) (thread : Nat) (pump : Pump) : Hub :=
  { hub with pumps := Function.update hub.pumps thread (some pump) }

def accept (hub : Hub) (sender : Option Nat) (item : Item) : Hub :=
  { hub with
    broadcast := hub.broadcast ++ [item]
    accepted := hub.accepted ++ [(sender, item)] }

/-- `BroadcastMessage`, which waits for room. -/
def send (sender : Nat) (item : Item) (hub : Hub) : Option Hub :=
  if hub.broadcast.length < channelCapacity then some (hub.accept (some sender) item) else none

/-- `h.register <- sub`, received by `Run`. -/
def register (thread : Nat) (subscriber : Subscriber) (hub : Hub) : Option Hub :=
  match hub.phase, hub.pumps thread with
  | .selecting, none =>
      some { hub.setPump thread (Pump.start subscriber hub.taken.length) with
        subscribers := (subscriber.clientID, thread) ::
          hub.subscribers.filter fun entry => entry.1 ≠ subscriber.clientID
        phase := .announcing
          ⟨utf8 "event", utf8 "join", subscriber.clientID, subscriber.userID⟩ }
  | _, _ => none

/-- The send on `broadcast` in `broadcastEvent` drops the event when there is
no room. -/
def announce (hub : Hub) : Option Hub :=
  match hub.phase with
  | .announcing event =>
      let waiting := { hub with phase := .selecting }
      if hub.broadcast.length < channelCapacity then
        some (waiting.accept none (.ofEvent event))
      else some waiting
  | _ => none

/-- Where `Run` goes when a subscriber has left: there is an event only if it
was in the map. -/
def leaving (subscriber : Subscriber) (hub : Hub) : Phase :=
  if hub.subscribers.any fun entry => entry.1 = subscriber.clientID then
    .announcing ⟨utf8 "event", utf8 "leave", subscriber.clientID, subscriber.userID⟩
  else .selecting

/-- `s.hub.unregister <- s`, received by `Run`. -/
def unregister (thread : Nat) (hub : Hub) : Option Hub :=
  match hub.phase, hub.pumps thread with
  | .selecting, some pump =>
      if pump.phase = .unregistering then
        some { hub.setPump thread { pump with
            phase := .closing
            left := some hub.taken.length } with
          subscribers :=
            hub.subscribers.filter fun entry => entry.1 ≠ pump.subscriber.clientID
          phase := hub.leaving pump.subscriber }
      else none
  | _, _ => none

def dequeue (hub : Hub) : Option Hub :=
  match hub.phase, hub.broadcast with
  | .selecting, item :: rest =>
      some { hub with
        broadcast := rest
        phase := .rendering item
        taken := hub.taken ++ [item] }
  | _, _ => none

def hasHTMLSubs (hub : Hub) : Bool :=
  hub.subscribers.any fun entry =>
    (hub.pumps entry.2).any fun pump => pump.subscriber.renderHTML

def fanOut (hub : Hub) (item : Item) (fragment : ByteString) (shown : List ByteString) : Hub :=
  { hub with phase := .fanningOut item fragment shown hub.subscribers }

def renderMessage (surroundings : Surroundings) (item : Item) (message : Client.Broadcast)
    (hub : Hub) : Hub :=
  let grouped := hub.lastMsgUser = message.userID
  let soon := surroundings.now - hub.lastMsgTime ≤ Calendar.minute
  let date := currentDate surroundings.location message.timestamp
  let dateHeader :=
    if hub.lastMsgDate = date then []
    else formatDateHeader surroundings.location surroundings.now message.timestamp
  match renderMessageHTMLTemplate surroundings.location surroundings.emotes
      (surroundings.hasAvatar message.userID) message (!grouped) (!grouped)
      (!(grouped && soon)) dateHeader with
  | some fragment =>
      { hub with
        lastMsgUser := message.userID
        lastMsgTime := message.timestamp
        lastMsgDate := date }.fanOut item fragment
          (message.content :: if grouped then [] else [message.userID])
  | none => { hub with phase := .panicked }

def render (surroundings : Surroundings) (hub : Hub) : Option Hub :=
  match hub.phase with
  | .rendering item =>
      if hub.hasHTMLSubs then
        match item.payload with
        | .event event => some (hub.fanOut item (renderEvent event) [event.userID])
        | .message message => some (hub.renderMessage surroundings item message)
      else some (hub.fanOut item [] [])
  | _ => none

def offer (entry : Entry) (hub : Hub) : Option Hub :=
  match hub.phase, hub.pumps entry.2 with
  | .fanningOut item fragment shown todo, some pump =>
      if entry ∈ todo then
        let frame : Frame := {
          bytes := if pump.subscriber.renderHTML then fragment else item.data
          item := item
          number := hub.taken.length - 1
          shown := shown }
        let next := { hub with
          phase := .fanningOut item fragment shown (todo.erase entry) }
        -- a send on a closed channel panics, and the panic is recovered
        if pump.phase = .exited then some next
        else some (next.setPump entry.2 (pump.offer frame))
      else none
  | _, _ => none

def finish (hub : Hub) : Option Hub :=
  match hub.phase with
  | .fanningOut _ _ _ [] => some { hub with phase := .selecting }
  | _ => none

/-- `Stop` -/
def stop (hub : Hub) : Hub := { hub with stopping := true }

/-- `Run` returns. -/
def exit (hub : Hub) : Option Hub :=
  match hub.phase with
  | .selecting => if hub.stopping then some { hub with phase := .stopped } else none
  | _ => none

def write (thread : Nat) (failure : Option Nat) (hub : Hub) : Option Hub :=
  match hub.pumps thread with
  | some pump => (pump.write failure).map (hub.setPump thread)
  | none => none

def cancel (thread : Nat) (hub : Hub) : Option Hub :=
  match hub.pumps thread with
  | some pump =>
      if pump.phase = .pumping then
        some (hub.setPump thread { pump with phase := .unregistering })
      else none
  | none => none

def close (thread : Nat) (hub : Hub) : Option Hub :=
  match hub.pumps thread with
  | some pump =>
      if pump.phase = .closing then
        some (hub.setPump thread { pump with phase := .exited })
      else none
  | none => none

end Hub

/-- What `Run` and the pumps do by themselves. -/
inductive HubEvent
  | announce
  | unregister (thread : Nat)
  | dequeue
  | render
  | offer (entry : Entry)
  | finish
  | stop
  | exit
  | write (thread : Nat) (failure : Option Nat)
  | cancel (thread : Nat)
  | close (thread : Nat)
deriving DecidableEq, Repr

namespace Hub

def happen (surroundings : Surroundings) : HubEvent → Hub → Option Hub
  | .announce, hub => hub.announce
  | .unregister thread, hub => hub.unregister thread
  | .dequeue, hub => hub.dequeue
  | .render, hub => hub.render surroundings
  | .offer entry, hub => hub.offer entry
  | .finish, hub => hub.finish
  | .stop, hub => some hub.stop
  | .exit, hub => hub.exit
  | .write thread failure, hub => hub.write thread failure
  | .cancel thread, hub => hub.cancel thread
  | .close thread, hub => hub.close thread

end Hub

end Grunt.Server
