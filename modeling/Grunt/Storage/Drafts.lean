import Grunt.Storage.Names
import Grunt.Storage.Staging

/-! # What a registration holds before its commit

The tables of an open transaction against those that are committed. Its invites
are those that were there, and a user whom it adds has used one of them.
-/

namespace Grunt.Storage

open Foundation

def InviteRow.issue (invite : InviteRow) : ByteString × Int × ByteString :=
  (invite.code, invite.expiresAt, invite.createdByUser)

def InviteRow.ServedFor (invite : InviteRow) (user : ByteString) : Prop :=
  invite.usedAt.isSome ∧ invite.usedByUser = some user

namespace Tables

def Redeemed (tables : Tables) (user : ByteString) : Prop :=
  ∃ invite ∈ tables.invites.rows, invite.ServedFor user

/-- What a transaction makes of the tables that are committed. -/
structure Derives (committed tables : Tables) : Prop where
  invites : ∀ invite ∈ tables.invites.rows,
    ∃ old ∈ committed.invites.rows, old.issue = invite.issue
  used : ∀ invite ∈ committed.invites.rows, invite.usedAt.isSome → invite ∈ tables.invites.rows
  users : ∀ user, tables.HasUser user → committed.HasUser user ∨ tables.Redeemed user

section Derives

variable {committed tables after : Tables} {now : Instant} {outcome : Outcome}

theorem Derives.refl (tables : Tables) : tables.Derives tables where
  invites := fun invite member => ⟨invite, member, rfl⟩
  used := fun _ member _ => member
  users := fun _ => .inl

theorem Redeemed.of_used {user : ByteString} (redeemed : tables.Redeemed user)
    (used : ∀ invite ∈ tables.invites.rows, invite.usedAt.isSome → invite ∈ after.invites.rows) :
    after.Redeemed user := by
  obtain ⟨invite, member, served⟩ := redeemed
  exact ⟨invite, used invite member served.1, served⟩

theorem used_markInvite {usedAt : Int} {user code : ByteString} :
    ∀ invite ∈ tables.invites.rows, invite.usedAt.isSome →
      invite ∈ (tables.markInvite usedAt user code).invites.rows :=
  fun _ member used => mem_markInvite.mpr (.inr ⟨member, fun _ => used⟩)

theorem Derives.useInvite {usedAt : Int} {user code : ByteString}
    (derives : committed.Derives tables) :
    committed.Derives (tables.markInvite usedAt user code) where
  invites := fun invite member => by
    rcases mem_markInvite.mp member with ⟨old, oldMem, -, -, rfl⟩ | ⟨member, -⟩
    · exact derives.invites old oldMem
    · exact derives.invites invite member
  used := fun invite member used => used_markInvite invite (derives.used invite member used) used
  users := fun name has =>
    (derives.users name has).imp id fun redeemed => redeemed.of_used used_markInvite

theorem Derives.insertUser {user : ByteString} {hash : Option ByteString}
    (derives : committed.Derives tables) (redeemed : tables.Redeemed user)
    (applied : (Statement.insertUser user hash).apply now tables = .ok (outcome, after)) :
    committed.Derives after := by
  have cases : ∀ name, after.HasUser name → tables.HasUser name ∨ name ∈ [user] :=
    fun name => Statement.hasUser_cases applied
  simp only [Statement.apply] at applied
  split at applied <;> cases applied
  refine ⟨derives.invites, derives.used, fun name has => ?_⟩
  rcases cases name has with old | new
  · exact derives.users name old
  · rw [List.mem_singleton.mp new]
    exact .inr redeemed

theorem redeemed_of_useInvite {usedAt : Int} {user code : ByteString}
    (applied : (Statement.useInvite usedAt user code).apply now tables = .ok (outcome, after))
    (marked : outcome.rowsAffected = 1) : after.Redeemed user := by
  cases applied
  have some : (tables.invites.rows.filter fun row =>
      row.code = code && row.usedAt.isNone) ≠ [] := by
    intro none
    rw [none] at marked
    cases marked
  obtain ⟨old, member⟩ := List.exists_mem_of_ne_nil _ some
  simp only [List.mem_filter, Bool.and_eq_true, decide_eq_true_eq,
    Option.isNone_iff_eq_none] at member
  exact ⟨_, mem_markInvite.mpr (.inl ⟨old, member.1, member.2.1, member.2.2, rfl⟩), rfl, rfl⟩

end Derives

end Tables

namespace World

def Drafted (Related : Tables → Tables → Prop) (world : World) : Prop :=
  ∀ thread tables, world.database.writer = some (thread, tables) →
    Related world.database.committed tables

def Redeeming (world : World) (thread : Nat) (user : ByteString) : Prop :=
  ∃ tables, world.database.writer = some (thread, tables) ∧ tables.Redeemed user

section Drafted

variable {Related : Tables → Tables → Prop} {world after : World} {thread : Nat}

theorem drafted_of_idle (idle : world.database.writer = none) : world.Drafted Related := by
  intro thread tables held
  rw [idle] at held
  cases held

theorem Drafted.of_database (drafted : world.Drafted Related)
    (same : after.database = world.database) : after.Drafted Related := by
  intro thread tables held
  rw [same] at held ⊢
  exact drafted thread tables held

theorem Drafted.view (drafted : world.Drafted Related) (refl : ∀ tables, Related tables tables)
    (thread : Nat) : Related world.database.committed (world.database.view thread) := by
  rcases world.database.view_cases thread with same | held
  · rw [same]
    exact refl _
  · exact drafted thread _ held

theorem Drafted.rollback (drafted : world.Drafted Related) (thread : Nat) :
    (world.setDatabase (world.database.rollback thread)).Drafted Related := by
  intro owner tables held
  simp only [setDatabase_database, Database.rollback_committed] at held ⊢
  unfold Database.rollback at held
  split at held
  · split at held
    · cases held
    · exact drafted owner tables held
  · exact drafted owner tables held

theorem Drafted.perform {libraries : Libraries} {choice : Choice} {op : Op} {result : op.Result}
    (drafted : world.Drafted Related)
    (executed : ∀ statement outcome tables, op = .exec true statement →
      statement.apply world.clock (world.database.view thread) = .ok (outcome, tables) →
      Related world.database.committed tables)
    (performed : Storage.perform libraries thread op choice world = some (result, after)) :
    after.Drafted Related := by
  by_cases read : op.isRead = true
  · rw [perform_read read performed]
    exact drafted
  cases op with
  | exec inTx statement =>
      cases inTx with
      | false =>
          rcases perform_exec performed with ⟨rfl, -⟩ | ⟨-, _, _, -, -, rfl⟩
          · exact drafted
          · exact drafted_of_idle rfl
      | true =>
          rcases perform_txExec performed with ⟨rfl, -⟩ | ⟨-, outcome, tables, -, applied, rfl⟩
          · exact drafted
          · intro owner written held
            cases held
            exact executed statement outcome tables rfl applied
  | commit =>
      rcases perform_commit performed with ⟨-, rfl⟩ | ⟨-, rfl⟩
      · exact drafted.rollback thread
      · by_cases held : world.database.HeldBy thread
        · obtain ⟨tables, writer⟩ := held
          refine drafted_of_idle ?_
          rw [setDatabase_database, Database.commit_of_held writer]
        · rw [Database.commit_of_not_held held]
          exact drafted
  | rollback =>
      rw [perform_rollback performed]
      exact drafted.rollback thread
  | begin | query | now | bcrypt => exact absurd rfl read

end Drafted

section Redeeming

variable {libraries : Libraries} {thread owner : Nat} {choice : Choice} {world after : World}
variable {user : ByteString} {op : Op} {result : op.Result}

theorem Redeeming.other (redeeming : world.Redeeming owner user) (different : owner ≠ thread)
    (performed : Storage.perform libraries thread op choice world = some (result, after)) :
    after.Redeeming owner user := by
  obtain ⟨tables, writer, redeemed⟩ := redeeming
  refine ⟨tables, ?_, redeemed⟩
  rw [(perform_other different performed).1 ⟨tables, writer⟩]
  exact writer

theorem Redeeming.perform (redeeming : world.Redeeming thread user)
    (performed : Storage.perform libraries thread op choice world = some (result, after))
    (served : op.isServed = true) (going : op ≠ .commit ∧ op ≠ .rollback) :
    after.Redeeming thread user := by
  by_cases read : op.isRead = true
  · rw [perform_read read performed]
    exact redeeming
  obtain ⟨tables, writer, redeemed⟩ := redeeming
  cases op with
  | exec inTx statement =>
      cases inTx with
      | false =>
          rcases perform_exec performed with ⟨rfl, -⟩ | ⟨idle, -⟩
          · exact ⟨tables, writer, redeemed⟩
          · rw [idle] at writer
            cases writer
      | true =>
          rcases perform_txExec performed with ⟨rfl, -⟩ | ⟨-, outcome, written, -, applied, rfl⟩
          · exact ⟨tables, writer, redeemed⟩
          · refine ⟨written, rfl, redeemed.of_used fun invite member used => ?_⟩
            rw [Database.view_of_held writer] at applied
            cases statement with
            | useInvite usedAt name code =>
                cases applied
                exact Tables.used_markInvite invite member used
            | insertUser name hash =>
                simp only [Statement.apply] at applied
                split at applied <;> cases applied
                exact member
            | setUserAdmin | setPassword | setAvatar | insertInvite | insertMessage
              | insertAPIKey | deleteAPIKey => cases served
  | commit => exact absurd rfl going.1
  | rollback => exact absurd rfl going.2
  | begin | query | now | bcrypt => exact absurd rfl read

theorem redeeming_of_useInvite {usedAt : Int} {code : ByteString} {outcome : Outcome}
    (performed : Storage.perform libraries thread (.exec true (.useInvite usedAt user code)) choice
      world = some ((.ok outcome : Except SqlError Outcome), after))
    (marked : outcome.rowsAffected = 1) : after.Redeeming thread user := by
  rcases perform_txExec performed with ⟨-, _, failed⟩ | ⟨-, _, tables, same, applied, rfl⟩
  · cases failed
  · cases same
    exact ⟨tables, rfl, Tables.redeemed_of_useInvite applied marked⟩

end Redeeming

end World

end Grunt.Storage
