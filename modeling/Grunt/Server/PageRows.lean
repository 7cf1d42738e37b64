import Grunt.Server.Pages

/-! # The rows of the chat page

What a row of the page shows, given its message and the one before: a value
that the page has computed with whatever results its operations had.
-/

namespace Grunt.Server

open Foundation

/-- What a row shows besides the text and the date. -/
structure Flags where
  showAvatar : Bool
  showUsername : Bool
  showTimestamp : Bool
deriving DecidableEq, Repr

namespace MessageTemplateData

def flags (row : MessageTemplateData) : Flags :=
  ⟨row.showAvatar, row.showUsername, row.showTimestamp⟩

end MessageTemplateData

def pageFlags (previous : Option Client.Broadcast) (message : Client.Broadcast) : Flags :=
  let grouped := previous.any fun previous => previous.userID = message.userID
  let soon := previous.any fun previous =>
    message.timestamp - previous.timestamp ≤ Calendar.minute
  ⟨!grouped, !grouped, !(grouped && soon)⟩

def pageDateHeader (location : Location) (previous : Option Client.Broadcast) (now : Instant)
    (message : Client.Broadcast) : ByteString :=
  let date := currentDate location message.timestamp
  if previous.any fun previous => date = currentDate location previous.timestamp then []
  else formatDateHeader location now date

/-- The row of a message below the one before, computed at some time. -/
structure RowFor (location : Location) (previous : Option Client.Broadcast)
    (message : Client.Broadcast) (now : Instant) (row : MessageTemplateData) : Prop where
  id : row.id = message.id
  user : row.user = message.userID
  content : row.content = message.content
  flags : row.flags = pageFlags previous message
  dateHeader : row.dateHeader = pageDateHeader location previous now message

inductive RowsFor (location : Location) : Option Client.Broadcast →
    List (Client.Broadcast × Instant) → List MessageTemplateData → Prop
  | nil (previous : Option Client.Broadcast) : RowsFor location previous [] []
  | cons {previous : Option Client.Broadcast} {message : Client.Broadcast} {now : Instant}
      {row : MessageTemplateData} {messages : List (Client.Broadcast × Instant)}
      {rows : List MessageTemplateData} :
      RowFor location previous message now row → RowsFor location (some message) messages rows →
      RowsFor location previous ((message, now) :: messages) (row :: rows)

section Rows

variable {platform : Platform} {previous : Option Client.Broadcast}
variable {message : Client.Broadcast} {messages : List Client.Broadcast}

theorem chatDateHeader_returns {dateHeader : ByteString}
    (returns : (chatDateHeader platform previous message).Returns dateHeader) :
    ∃ now, dateHeader = pageDateHeader platform.location previous now message := by
  unfold chatDateHeader at returns
  dsimp only at returns
  unfold pageDateHeader
  split at returns
  case isTrue same =>
    refine ⟨0, ?_⟩
    rw [if_pos same]
    exact returns.symm
  case isFalse different =>
    rcases Program.returns_bind.mp returns with ⟨now, -, formatted⟩
    refine ⟨now, ?_⟩
    rw [if_neg different]
    exact formatted.symm

theorem chatRow_returns {row : MessageTemplateData}
    (returns : (chatRow platform previous message).Returns (some row)) :
    ∃ now, RowFor platform.location previous message now row := by
  unfold chatRow at returns
  dsimp only at returns
  rcases Program.returns_bind.mp returns with ⟨dateHeader, dated, returns⟩
  rcases chatDateHeader_returns dated with ⟨now, header⟩
  rcases Program.returns_bind.mp returns with ⟨rendered, -, returns⟩
  split at returns
  case h_1 => cases returns
  case h_2 initial named =>
    rcases Program.returns_bind.mp returns with ⟨hasAvatar, -, made⟩
    cases made
    exact ⟨now, rfl, rfl, rfl, rfl, header⟩

theorem chatRows_returns {rows : List MessageTemplateData}
    (returns : (chatRows platform previous messages).Returns (some rows)) :
    ∃ dated, dated.map Prod.fst = messages ∧
      RowsFor platform.location previous dated rows := by
  induction messages generalizing previous rows with
  | nil =>
      cases returns
      exact ⟨[], rfl, .nil previous⟩
  | cons message messages induction =>
      rcases Program.returns_bind.mp returns with ⟨first, made, returns⟩
      cases first with
      | none => cases returns
      | some row =>
          rcases Program.returns_bind.mp returns with ⟨others, remaining, joined⟩
          cases others with
          | none => cases joined
          | some others =>
              cases joined
              rcases chatRow_returns made with ⟨now, isRow⟩
              rcases induction remaining with ⟨dated, same, areRows⟩
              exact ⟨(message, now) :: dated, by rw [List.map_cons, same], .cons isRow areRows⟩

theorem chatRow_none (returns : (chatRow platform previous message).Returns none) :
    message.userID = [] := by
  unfold chatRow at returns
  dsimp only at returns
  rcases Program.returns_bind.mp returns with ⟨dateHeader, -, returns⟩
  rcases Program.returns_bind.mp returns with ⟨rendered, -, returns⟩
  split at returns
  case h_1 nameless =>
    rw [initialOf, Option.map_eq_none_iff, Bytes.firstRune_eq_none] at nameless
    exact nameless
  case h_2 initial named =>
    rcases Program.returns_bind.mp returns with ⟨hasAvatar, -, made⟩
    cases made

theorem chatRows_none (returns : (chatRows platform previous messages).Returns none) :
    ∃ message ∈ messages, message.userID = [] := by
  induction messages generalizing previous with
  | nil => cases returns
  | cons message messages induction =>
      rcases Program.returns_bind.mp returns with ⟨row, first, returns⟩
      cases row with
      | none => exact ⟨message, List.mem_cons_self, chatRow_none first⟩
      | some row =>
          rcases Program.returns_bind.mp returns with ⟨rows, others, made⟩
          cases rows with
          | none =>
              rcases induction others with ⟨nameless, member, same⟩
              exact ⟨nameless, List.mem_cons_of_mem message member, same⟩
          | some rows => cases made

section Positions

variable {location : Location} {dated : List (Client.Broadcast × Instant)}
variable {rows : List MessageTemplateData}

theorem RowsFor.length (isPage : RowsFor location previous dated rows) :
    rows.length = dated.length := by
  induction isPage with
  | nil => rfl
  | cons _ _ induction => rw [List.length_cons, List.length_cons, induction]

end Positions

end Rows

end Grunt.Server
