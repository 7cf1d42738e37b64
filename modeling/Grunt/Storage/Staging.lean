import Grunt.Storage.Effects

/-! # What transactions do to the tables

A transaction of the store marks invites and creates users, and nothing else.
So the tables change in two ways: by a statement of its own, or by the commit
of such a transaction.
-/

namespace Grunt.Storage

open Foundation

def Statement.isStaged : Statement → Bool
  | .useInvite _ _ _ | .insertUser _ _ => true
  | _ => false

def Op.isServed : Op → Bool
  | .exec true statement => statement.isStaged
  | _ => true

namespace Tables

/-- What a transaction has made of the tables that are committed. -/
structure Stages (committed tables : Tables) : Prop where
  users : ∃ added, tables.users.rows = committed.users.rows ++ added ∧
    ∀ row ∈ added, row.isAdmin = false
  messages : tables.messages = committed.messages
  apiKeys : tables.apiKeys = committed.apiKeys

theorem Stages.refl (tables : Tables) : tables.Stages tables where
  users := ⟨[], (List.append_nil _).symm, by simp⟩
  messages := rfl
  apiKeys := rfl

theorem Stages.apply {statement : Statement} {committed tables after : Tables} {now : Instant}
    {outcome : Outcome} (stages : committed.Stages tables)
    (staged : statement.isStaged = true)
    (applied : statement.apply now tables = .ok (outcome, after)) : committed.Stages after := by
  cases statement with
  | useInvite usedAt user code =>
      cases applied
      exact ⟨stages.users, stages.messages, stages.apiKeys⟩
  | insertUser user hash =>
      simp only [Statement.apply] at applied
      split at applied <;> cases applied
      case h_1 users inserted =>
        obtain ⟨added, rows, plain⟩ := stages.users
        refine ⟨⟨added ++ [⟨user, hash, false, none⟩], ?_, ?_⟩, stages.messages,
          stages.apiKeys⟩
        · rw [(KeyedTable.insert_eq_some.mp inserted).2, rows, List.append_assoc]
        · intro row member
          rcases List.mem_append.mp member with old | new
          · exact plain row old
          · rw [List.mem_singleton.mp new]
  | setUserAdmin user => cases staged
  | setPassword user hash => cases staged
  | setAvatar user data => cases staged
  | insertInvite code expiresAt createdBy => cases staged
  | insertMessage row => cases staged
  | insertAPIKey userID adminUserID keyHash name => cases staged
  | deleteAPIKey id => cases staged

end Tables

namespace World

def Staged (world : World) : Prop :=
  ∀ thread tables, world.database.writer = some (thread, tables) →
    world.database.committed.Stages tables

theorem Staged.view {world : World} (staged : world.Staged) (thread : Nat) :
    world.database.committed.Stages (world.database.view thread) := by
  rcases world.database.view_cases thread with same | held
  · rw [same]
    exact .refl _
  · exact staged thread _ held

theorem staged_of_idle {world : World} (idle : world.database.writer = none) :
    world.Staged := by
  intro thread tables held
  rw [idle] at held
  cases held

theorem Staged.rollback {world : World} (staged : world.Staged) (thread : Nat) :
    (world.setDatabase (world.database.rollback thread)).Staged := by
  intro owner tables held
  simp only [setDatabase_database, Database.rollback_committed] at held ⊢
  unfold Database.rollback at held
  split at held
  · split at held
    · cases held
    · exact staged owner tables held
  · exact staged owner tables held

end World

/-- How an operation of a thread changes the committed tables. -/
inductive Changes (thread : Nat) (before after : World) : (op : Op) → op.Result → Prop
  | unchanged {op : Op} {result : op.Result} :
      after.database.committed = before.database.committed →
      Changes thread before after op result
  | statement {statement : Statement} {outcome : Outcome} :
      before.database.writer = none →
      statement.apply before.clock before.database.committed =
        .ok (outcome, after.database.committed) →
      Changes thread before after (.exec false statement) (.ok outcome)
  | commit : before.database.writer = some (thread, after.database.committed) →
      Changes thread before after .commit (.ok ())

section Perform

variable {libraries : Libraries} {thread : Nat} {choice : Choice} {world after : World}

theorem changes_of_perform {op : Op} {result : op.Result}
    (performed : perform libraries thread op choice world = some (result, after)) :
    Changes thread world after op result := by
  by_cases read : op.isRead = true
  · exact .unchanged (by rw [perform_read read performed])
  cases op with
  | exec inTx statement =>
      cases inTx with
      | false =>
          rcases perform_exec performed with ⟨rfl, -⟩ | ⟨idle, outcome, tables, same, applied, rfl⟩
          · exact .unchanged rfl
          · rw [same]
            exact .statement idle applied
      | true =>
          rcases perform_txExec performed with ⟨rfl, -⟩ | ⟨-, _, _, -, -, rfl⟩ <;>
            exact .unchanged rfl
  | commit =>
      rcases perform_commit performed with ⟨-, rfl⟩ | ⟨same, rfl⟩
      · exact .unchanged Database.rollback_committed
      · by_cases held : world.database.HeldBy thread
        · obtain ⟨tables, writer⟩ := held
          rw [same]
          refine .commit ?_
          rw [World.setDatabase_database, Database.commit_of_held writer]
          exact writer
        · refine .unchanged ?_
          rw [World.setDatabase_database, Database.commit_of_not_held held]
  | rollback =>
      rw [perform_rollback performed]
      exact .unchanged Database.rollback_committed
  | begin => exact absurd rfl read
  | query => exact absurd rfl read
  | now => exact absurd rfl read
  | bcrypt => exact absurd rfl read

theorem World.Staged.perform {op : Op} {result : op.Result} (staged : world.Staged)
    (served : op.isServed = true)
    (performed : Storage.perform libraries thread op choice world = some (result, after)) :
    after.Staged := by
  by_cases read : op.isRead = true
  · rw [perform_read read performed]
    exact staged
  cases op with
  | exec inTx statement =>
      cases inTx with
      | false =>
          rcases perform_exec performed with ⟨rfl, -⟩ | ⟨-, _, _, -, -, rfl⟩
          · exact staged
          · exact staged_of_idle rfl
      | true =>
          rcases perform_txExec performed with ⟨rfl, -⟩ | ⟨-, _, tables, -, applied, rfl⟩
          · exact staged
          · intro owner written held
            cases held
            exact (staged.view thread).apply served applied
  | commit =>
      rcases perform_commit performed with ⟨-, rfl⟩ | ⟨-, rfl⟩
      · exact staged.rollback thread
      · by_cases held : world.database.HeldBy thread
        · obtain ⟨tables, writer⟩ := held
          refine staged_of_idle ?_
          rw [World.setDatabase_database, Database.commit_of_held writer]
        · rw [Database.commit_of_not_held held]
          exact staged
  | rollback =>
      rw [perform_rollback performed]
      exact staged.rollback thread
  | begin => exact absurd rfl read
  | query => exact absurd rfl read
  | now => exact absurd rfl read
  | bcrypt => exact absurd rfl read

end Perform

end Grunt.Storage
