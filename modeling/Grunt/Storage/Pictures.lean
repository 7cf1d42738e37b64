import Grunt.Storage.Drafts

/-! # The pictures in force

The avatar of a user is what the last `SetAvatar` that found the user has left.
-/

namespace Grunt.Storage

open Foundation

def Tables.avatarOf (tables : Tables) (user : ByteString) : Option ByteString :=
  (tables.users.find user).bind UserRow.avatar

def Statement.paints (user : ByteString) (outcome : Outcome) : Statement → Option ByteString
  | .setAvatar name data => if name = user ∧ outcome.rowsAffected ≠ 0 then some data else none
  | _ => none

section Pictures

variable {before after : Tables} {user : ByteString}

theorem Tables.avatarOf_updateUsers {name : ByteString} {change : UserRow → UserRow}
    {keeps : ∀ row, (change row).user = row.user}
    (plain : ∀ row, (change row).avatar = row.avatar) :
    (before.updateUsers name change keeps).avatarOf user = before.avatarOf user := by
  simp only [avatarOf, updateUsers]
  rw [KeyedTable.find_update]
  cases before.users.find user with
  | none => rfl
  | some row =>
      simp only [Option.map_some, Option.bind_some]
      cases decide (row.user = name) <;> simp [plain]

theorem Tables.avatarOf_insertUser {users : KeyedTable UserRow UserRow.user} {name : ByteString}
    {hash : Option ByteString} (inserted : before.users.insert ⟨name, hash, false, none⟩ = some users) :
    (users.find user).bind UserRow.avatar = before.avatarOf user := by
  rw [KeyedTable.find_insert inserted, avatarOf]
  split
  · next same =>
    have missing : before.users.find user = none := by
      refine List.find?_eq_none.mpr fun row member => ?_
      rw [decide_eq_true_eq]
      rintro rfl
      exact (KeyedTable.insert_eq_some.mp inserted).1 (same ▸ List.mem_map_of_mem member)
    rw [missing]
    rfl
  · rfl

theorem Tables.avatarOf_setAvatar {now : Instant} {name data : ByteString} {outcome : Outcome}
    (applied : (Statement.setAvatar name data).apply now before = .ok (outcome, after)) :
    after.avatarOf user =
      ((Statement.setAvatar name data).paints user outcome).or (before.avatarOf user) := by
  cases applied
  simp only [Statement.paints, Tables.avatarOf, Tables.updateUsers]
  rw [KeyedTable.find_update]
  cases found : before.users.find user with
  | none =>
      have nobody : ∀ row ∈ before.users.rows, row.user ≠ user := by
        intro row member same
        have none := List.find?_eq_none.mp found row member
        exact none (decide_eq_true same)
      have untouched : ¬ (name = user ∧
          (before.users.rows.filter fun row => row.user = name).length ≠ 0) := by
        rintro ⟨rfl, some⟩
        obtain ⟨row, member⟩ := List.exists_mem_of_length_pos (Nat.pos_of_ne_zero some)
        rw [List.mem_filter, decide_eq_true_eq] at member
        exact nobody row member.1 member.2
      rw [if_neg untouched]
      rfl
  | some row =>
      obtain ⟨member, rfl⟩ := KeyedTable.find_eq_some.mp found
      by_cases same : row.user = name
      · subst same
        have touched : (before.users.rows.filter fun other =>
            other.user = row.user).length ≠ 0 :=
          Nat.pos_iff_ne_zero.mp (List.length_pos_of_mem
            (List.mem_filter.mpr ⟨member, decide_eq_true rfl⟩))
        rw [if_pos ⟨rfl, touched⟩]
        simp
      · rw [if_neg fun both => same both.1.symm]
        simp [same]

theorem Statement.avatarOf_of_apply {statement : Statement} {now : Instant} {outcome : Outcome}
    (applied : statement.apply now before = .ok (outcome, after)) :
    after.avatarOf user = (statement.paints user outcome).or (before.avatarOf user) := by
  cases statement with
  | setAvatar name data => exact Tables.avatarOf_setAvatar applied
  | insertUser name hash =>
      simp only [apply] at applied
      split at applied <;> cases applied
      case h_1 users inserted => exact Tables.avatarOf_insertUser inserted
  | setUserAdmin | setPassword =>
      cases applied
      exact Tables.avatarOf_updateUsers fun _ => rfl
  | useInvite | deleteAPIKey =>
      cases applied
      rfl
  | insertInvite | insertMessage | insertAPIKey =>
      simp only [apply] at applied
      split at applied <;> cases applied
      rfl

theorem Query.eval_avatar {tables : Tables} {avatar : ByteString}
    (answered : Query.eval (.avatar user) tables = some (some avatar)) :
    tables.avatarOf user = some avatar := by
  have found : (tables.users.find user).map UserRow.avatar = some (some avatar) := answered
  obtain ⟨row, member, same⟩ := Option.map_eq_some_iff.mp found
  rw [Tables.avatarOf, member]
  exact same

def Tables.SamePictures (committed tables : Tables) : Prop :=
  ∀ user, tables.avatarOf user = committed.avatarOf user

theorem World.Drafted.samePictures {libraries : Libraries} {thread : Nat} {choice : Choice}
    {op : Op} {result : op.Result} {world reached : World}
    (drafted : world.Drafted Tables.SamePictures) (served : op.isServed = true)
    (performed : Storage.perform libraries thread op choice world = some (result, reached)) :
    reached.Drafted Tables.SamePictures := by
  refine drafted.perform ?_ performed
  rintro statement outcome tables rfl applied user
  have unpainted : statement.paints user outcome = none := by
    cases statement with
    | setAvatar => cases served
    | _ => rfl
  rw [Statement.avatarOf_of_apply applied, unpainted]
  exact drafted.view (fun _ _ => rfl) thread user

end Pictures

end Grunt.Storage
