import Grunt.Server.Staging

/-! # Runs of the hub

The hub by itself: requests that send and register, whichever they are, and
what `Run` and the pumps do. Every hub that the server reaches is reached by
such a run.
-/

namespace Grunt.Server

open Foundation

/-- A step of the hub, or of a request on it. -/
inductive HubAction
  | send (thread : Nat) (item : Item)
  | register (thread : Nat) (subscriber : Subscriber)
  | happen (surroundings : Surroundings) (event : HubEvent)

namespace HubAction

/-- An item that the action puts on the channel is of a certain kind. -/
def Sends (Sent : Item → Prop) : HubAction → Prop
  | send _ item => Sent item
  | _ => True

/-- What `Run` and the pumps do, they do in this zone. -/
def InZone (location : Location) : HubAction → Prop
  | happen surroundings _ => surroundings.location = location
  | _ => True

def clientID? : HubAction → Option ByteString
  | register _ subscriber => some subscriber.clientID
  | _ => none

def isEvent (wanted : HubEvent) : HubAction → Bool
  | happen _ event => event = wanted
  | _ => false

end HubAction

/-- The client ids of all subscribers of a run. -/
def clientIDs (actions : List HubAction) : List ByteString :=
  actions.filterMap HubAction.clientID?

namespace Hub

def act (hub : Hub) : HubAction → Option Hub
  | .send thread item => hub.send thread item
  | .register thread subscriber => hub.register thread subscriber
  | .happen surroundings event => hub.happen surroundings event

end Hub

/-- Every hub of the server is reached by a run of the hub, to which requests
send nothing but what their programs can send. -/
theorem hubRun_of_run {platform : Platform} {Sent : Item → Prop}
    (sends : SendsOnly platform Sent) {allowed} {tables : Storage.Tables} {clock : Instant}
    {events : List ServerEvent} {config : ServerConfig}
    (run : Run (next platform) allowed (start tables clock) events config) :
    ∃ actions, Run Hub.act
      (fun _ action => action.Sends Sent ∧ action.InZone platform.location) Hub.start actions
      config.scene.world.hub := by
  have extended : ∀ (hub : Hub) (action : HubAction) (after : Hub),
      (∃ actions, Run Hub.act
        (fun _ action => action.Sends Sent ∧ action.InZone platform.location)
        Hub.start actions hub) →
      action.Sends Sent → action.InZone platform.location → hub.act action = some after →
      ∃ actions, Run Hub.act
        (fun _ action => action.Sends Sent ∧ action.InZone platform.location)
        Hub.start actions after := by
    intro hub action after reached permitted placed taken
    rcases reached with ⟨actions, before⟩
    exact ⟨actions ++ [action], before.append (.single ⟨permitted, placed⟩ taken)⟩
  refine hub_of_sends sends (fun hub => ∃ actions, Run Hub.act
    (fun _ action => action.Sends Sent ∧ action.InZone platform.location)
    Hub.start actions hub) ?_ ?_ ?_ ?_ run
  · exact ⟨[], .nil _⟩
  · intro hub sender item after reached posted sent
    exact extended hub (.send sender item) after reached posted trivial sent
  · intro hub thread subscriber after reached registered
    exact extended hub (.register thread subscriber) after reached trivial trivial registered
  · intro hub surroundings event after reached placed happened
    exact extended hub (.happen surroundings event) after reached trivial placed happened

/-- Surroundings one can run by hand: UTC, without avatars, at a given time. -/
def Surroundings.plain (now : Instant) : Surroundings where
  location := ⟨fun _ => 0⟩
  emotes := EmoteTable.builtin
  now := now
  hasAvatar := fun _ => false

end Grunt.Server
