import Grunt.Server.Gaps
import Grunt.Server.Scrollback
import Grunt.Server.Subscriptions

/-! # What `grunt recv` prints

The history and the stream together. When the server has caught up, every message
from the first of the history on has a line, and every line is one of a message
or of an announcement.
-/

namespace Grunt.Server

open Foundation Storage

section Rows

variable {platform : Platform} {tables : Storage.Tables} {clock : Instant}
variable {events : List ServerEvent} {config : ServerConfig}

end Rows

/-! ## The stream of `recv` -/

section Receiver

variable {platform : Platform} {authentication : Authentication}
variable {config after : ServerConfig}

/-- The stream is what `Connect` has asked for. -/
def Receiving.Streams (authentication : Authentication) (config : ServerConfig) :
    Receiving → Prop
  | .connecting stream | .connected stream | .listening stream | .syncing stream _
    | .synced stream _ _ =>
      (config.threads stream).request = some authentication.connectRequest
  | _ => True

theorem Receiving.Streams.next {phase : Receiving} (streams : phase.Streams authentication config)
    {event : ServerEvent} (taken : Server.next platform config event = some after) :
    phase.Streams authentication after := by
  cases phase with
  | loggedIn | failed => trivial
  | connecting | connected | listening | syncing | synced =>
      exact Machine.request_of_next streams taken

theorem CatchesUp.queued {stream joined : Nat} {known : List Nat} {phase : Receiving}
    (catches : CatchesUp platform authentication stream joined known config phase)
    {pump : Pump} (found : config.scene.world.hub.pumps stream = some pump)
    (connected : pump.left = none) (roomy : pump.NeverFull) {id : Nat}
    (fresh : id ∉ messageIDs (config.scene.world.hub.taken.take joined))
    (processed : id ∈ config.scene.world.hub.processedIDs (pump.subscriber.clientID, stream)) :
    id ∈ pump.queuedIDs := by
  obtain ⟨same, present, rfl⟩ := catches.pump
  rw [found] at present
  cases present
  have sound := catches.settled.delivering.sound.pump stream pump found
  rw [sound.processedIDs connected, ← sound.deliversExactly.queuedIDs connected roomy,
    List.mem_append] at processed
  exact processed.resolve_left fresh

theorem CatchesUp.finished {stream joined sync : Nat} {known : List Nat}
    {history messages : List Client.Broadcast} {headers : List Header}
    (catches : CatchesUp platform authentication stream joined known config
      (.synced stream sync (some history)))
    (answered : (config.threads sync).response =
      some (.sent 200 headers (.json (.broadcasts messages)))) :
    config.threads sync = .running authentication.syncRequest
        (.done (.sent 200 headers (.json (.broadcasts messages)))) ∧
      history.map Client.Broadcast.id = messages.map Client.Broadcast.id := by
  obtain ⟨-, -, answers⟩ := catches.caught
  obtain ⟨response, finished, decoded⟩ := answers history rfl
  rw [finished, Thread.response, Option.some.injEq] at answered
  subst answered
  obtain ⟨_, _, same, ids⟩ := historyOf_eq_some decoded
  cases same
  exact ⟨finished, ids⟩

end Receiver

end Grunt.Server
