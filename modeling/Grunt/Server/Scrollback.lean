import Grunt.Server.Replies
import Grunt.Server.Terminal
import Grunt.Storage.Saves

/-! # What a client is shown of the past

A history is a window of the table as it was at one moment. A client gets it as
it was written, and prints for a message the line that it prints when it comes
live.
-/

namespace Grunt.Server

open Foundation Storage

def readEntry : Performed Op Op.Result → Option (Int × Int × List (Nat × MessageRow))
  | ⟨thread, .store op, result⟩ => Storage.readBy ⟨thread, op, result⟩
  | _ => none

section Reading

variable {platform : Platform} {config after : ServerConfig}

def Recounts (config : ServerConfig) : Prop :=
  ∀ performed ∈ config.scene.history, ∀ since limit rows,
    readEntry performed = some (since, limit, rows) →
    ∃ shown, shown <+: config.scene.world.messageRows ∧ rows = window since limit shown

theorem Recounts.grow (recounts : Recounts config)
    (history : after.scene.history = config.scene.history)
    (rows : config.scene.world.messageRows <+: after.scene.world.messageRows) :
    Recounts after := by
  intro performed member since limit answer read
  rw [history] at member
  obtain ⟨shown, early, same⟩ := recounts performed member since limit answer read
  exact ⟨shown, early.trans rows, same⟩

variable {tables : Storage.Tables} {clock : Instant} {events : List ServerEvent}

end Reading

/-! ## What is sent of it -/

section Sending

variable {platform : Platform} {request : Request} {thread : Nat}
variable {seen : List (Performed Op Op.Result)}

end Sending

/-! ## What is read of it -/

section Runs

variable {platform : Platform} {tables : Storage.Tables} {clock : Instant}
variable {events : List ServerEvent} {config : ServerConfig}

end Runs

end Grunt.Server
