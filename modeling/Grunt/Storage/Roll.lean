import Grunt.Storage.Effects

/-! # Who has an account

The users and their admin flags, in the order in which they were created, and
what the statements do to them and to the keys that refer to them.
-/

namespace Grunt.Storage

open Foundation

namespace Tables

/-- The users in the order of their rows, with `is_admin`. -/
def roll (tables : Tables) : List (ByteString × Bool) :=
  tables.users.rows.map fun row => (row.user, row.isAdmin)

variable {tables before after : Tables} {user : ByteString}

theorem roll_names (tables : Tables) :
    tables.roll.map Prod.fst = tables.users.rows.map UserRow.user := by
  simp [roll, Function.comp_def]

theorem hasUser_iff : tables.HasUser user ↔ user ∈ tables.roll.map Prod.fst := by
  rw [roll_names]
  rfl

theorem mem_admins : user ∈ tables.admins ↔ (user, true) ∈ tables.roll := by
  simp only [admins, roll, List.mem_map, List.mem_filter, Prod.mk.injEq]
  constructor
  · rintro ⟨row, ⟨member, isAdmin⟩, rfl⟩
    exact ⟨row, member, rfl, isAdmin⟩
  · rintro ⟨row, member, rfl, isAdmin⟩
    exact ⟨row, ⟨member, isAdmin⟩, rfl⟩

theorem admins_eq_nil : tables.admins = [] ↔ ∀ entry ∈ tables.roll, entry.2 = false := by
  rw [List.eq_nil_iff_forall_not_mem]
  constructor
  · rintro nobody ⟨name, isAdmin⟩ member
    cases isAdmin with
    | false => rfl
    | true => exact absurd (mem_admins.mpr member) (nobody name)
  · intro plain name isAdmin
    cases plain _ (mem_admins.mp isAdmin)

theorem hasUser_of_admin (isAdmin : user ∈ tables.admins) : tables.HasUser user :=
  hasUser_iff.mpr (List.mem_map.mpr ⟨(user, true), mem_admins.mp isAdmin, rfl⟩)

/-- The user whose row came first. -/
def Heads (tables : Tables) (user : ByteString) : Prop :=
  (tables.roll.map Prod.fst).head? = some user

def Led (tables : Tables) : Prop := ∀ entry ∈ tables.roll.tail, entry.2 = false

theorem Led.heads (led : tables.Led) (isAdmin : user ∈ tables.admins) : tables.Heads user := by
  have member := mem_admins.mp isAdmin
  unfold Led Heads at *
  cases shape : tables.roll with
  | nil =>
      rw [shape] at member
      cases member
  | cons first rest =>
      rw [shape] at member led
      rcases List.mem_cons.mp member with same | later
      · simp [← same]
      · cases led _ later

theorem exists_heads (somebody : tables.users.rows ≠ []) : ∃ user, tables.Heads user := by
  obtain ⟨row, rest, shape⟩ := List.exists_cons_of_ne_nil somebody
  exact ⟨row.user, by simp [Heads, roll, shape]⟩

theorem admins_eq (tables : Tables) :
    tables.admins = (tables.roll.filter Prod.snd).map Prod.fst := by
  simp [admins, roll, List.filter_map, Function.comp_def]

theorem Led.admins (led : tables.Led) (governed : tables.admins ≠ [])
    (heads : tables.Heads user) : tables.admins = [user] := by
  rw [admins_eq] at governed ⊢
  unfold Led Heads at *
  cases shape : tables.roll with
  | nil =>
      rw [shape] at heads
      cases heads
  | cons first rest =>
      rw [shape] at led heads governed
      have isFirst : first.1 = user := by simpa using heads
      have others : rest.filter Prod.snd = [] :=
        List.filter_eq_nil_iff.mpr fun entry member => by simp [led entry member]
      cases isAdmin : first.2 with
      | false => simp [isAdmin, others] at governed
      | true => simp [isAdmin, others, isFirst]

theorem heads_of_single (single : tables.roll.length = 1) (has : tables.HasUser user) :
    tables.Heads user := by
  obtain ⟨entry, shape⟩ := List.length_eq_one_iff.mp single
  rw [hasUser_iff, shape] at has
  unfold Heads
  rw [shape]
  simpa using (List.mem_singleton.mp has).symm

/-- Users are only added, at the end, and an admin stays one. -/
structure Grows (before after : Tables) : Prop where
  names : before.roll.map Prod.fst <+: after.roll.map Prod.fst
  admins : ∀ user ∈ before.admins, user ∈ after.admins

theorem Grows.refl (tables : Tables) : tables.Grows tables where
  names := List.prefix_rfl
  admins := fun _ => id

theorem Grows.trans {one two three : Tables} (first : one.Grows two) (second : two.Grows three) :
    one.Grows three where
  names := first.names.trans second.names
  admins := fun user isAdmin => second.admins user (first.admins user isAdmin)

theorem Grows.hasUser (grows : before.Grows after) (has : before.HasUser user) :
    after.HasUser user :=
  hasUser_iff.mpr (grows.names.subset (hasUser_iff.mp has))

theorem Grows.heads (grows : before.Grows after) (heads : before.Heads user) :
    after.Heads user := by
  obtain ⟨added, same⟩ := grows.names
  unfold Heads at *
  rw [← same, List.head?_append, heads]
  rfl

theorem Grows.nonempty (grows : before.Grows after) (some : before.roll ≠ []) :
    after.roll ≠ [] := by
  intro none
  obtain ⟨added, same⟩ := grows.names
  simp_all

theorem Grows.governed (grows : before.Grows after) (governed : before.admins ≠ []) :
    after.admins ≠ [] := by
  obtain ⟨user, isAdmin⟩ := List.exists_mem_of_ne_nil _ governed
  exact List.ne_nil_of_mem (grows.admins user isAdmin)

theorem Grows.of_roll_eq (same : after.roll = before.roll) : before.Grows after where
  names := by rw [same]
  admins := fun user isAdmin => mem_admins.mpr (same ▸ mem_admins.mp isAdmin)

theorem Grows.of_append {added : List (ByteString × Bool)}
    (rows : after.roll = before.roll ++ added) : before.Grows after where
  names := by
    rw [rows, List.map_append]
    exact List.prefix_append _ _
  admins := fun user isAdmin => by
    rw [mem_admins, rows]
    exact List.mem_append_left _ (mem_admins.mp isAdmin)

theorem Led.of_roll_eq (led : before.Led) (same : after.roll = before.roll) : after.Led := by
  unfold Led
  rw [same]
  exact led

theorem Led.of_append (led : before.Led) {added : List (ByteString × Bool)}
    (rows : after.roll = before.roll ++ added) (plain : ∀ entry ∈ added, entry.2 = false) :
    after.Led := by
  unfold Led at *
  rw [rows]
  cases shape : before.roll with
  | nil => exact fun entry member => plain entry (List.mem_of_mem_tail member)
  | cons first rest =>
      rw [shape] at led
      intro entry member
      rcases List.mem_append.mp member with old | new
      · exact led entry old
      · exact plain entry new

/-! ## The grant -/

/-- `UPDATE users SET is_admin = 1`, for one row. -/
def grant (user : ByteString) (entry : ByteString × Bool) : ByteString × Bool :=
  (entry.1, entry.2 || entry.1 = user)

theorem grows_of_grant (granted : after.roll = before.roll.map (grant user)) :
    before.Grows after where
  names := by
    rw [granted, List.map_map]
    exact List.prefix_rfl
  admins := fun name isAdmin => by
    rw [mem_admins, granted]
    exact List.mem_map.mpr ⟨(name, true), mem_admins.mp isAdmin, rfl⟩

theorem admin_of_grant (granted : after.roll = before.roll.map (grant user))
    (has : before.HasUser user) : user ∈ after.admins := by
  obtain ⟨entry, member, rfl⟩ := List.mem_map.mp (hasUser_iff.mp has)
  rw [mem_admins, granted]
  refine List.mem_map.mpr ⟨entry, member, ?_⟩
  simp [grant]

theorem hasUser_of_heads (heads : tables.Heads user) : tables.HasUser user :=
  hasUser_iff.mpr (List.mem_of_head? heads)

theorem Led.of_grant (led : before.Led) (granted : after.roll = before.roll.map (grant user))
    (heads : before.Heads user) : after.Led := by
  have unique : (before.roll.map Prod.fst).Nodup := by
    rw [roll_names]
    exact before.users.unique
  unfold Led Heads at *
  cases shape : before.roll with
  | nil =>
      rw [shape] at heads
      cases heads
  | cons first rest =>
      rw [shape] at led heads unique
      have isFirst : first.1 = user := by simpa using heads
      rw [granted, shape]
      intro entry member
      obtain ⟨old, oldMem, rfl⟩ := List.mem_map.mp member
      have different : old.1 ≠ user := by
        rintro rfl
        simp only [List.map_cons, List.nodup_cons] at unique
        exact unique.1 (isFirst ▸ List.mem_map_of_mem oldMem)
      simpa [grant, different] using led old oldMem

end Tables

/-! ## Statements -/

namespace Statement

variable {statement : Statement} {now : Instant} {before after : Tables} {outcome : Outcome}

inductive Enrols (before after : Tables) : Statement → Prop
  | same {statement : Statement} : after.roll = before.roll → Enrols before after statement
  | insertUser {user : ByteString} {hash : Option ByteString} :
      after.roll = before.roll ++ [(user, false)] → Enrols before after (.insertUser user hash)
  | setUserAdmin {user : ByteString} :
      after.roll = before.roll.map (Tables.grant user) →
      Enrols before after (.setUserAdmin user)

theorem roll_updateUsers {tables : Tables} {user : ByteString} {change : UserRow → UserRow}
    {keeps : ∀ row, (change row).user = row.user}
    (plain : ∀ row, (change row).isAdmin = row.isAdmin) :
    (tables.updateUsers user change keeps).roll = tables.roll := by
  simp only [Tables.roll, Tables.updateUsers, KeyedTable.update_rows, List.map_map]
  refine List.map_congr_left fun row _ => ?_
  simp only [Function.comp_apply]
  cases decide (row.user = user) <;> simp [keeps, plain]

theorem roll_of_insertUser {user : ByteString} {hash : Option ByteString}
    (applied : (insertUser user hash).apply now before = .ok (outcome, after)) :
    after.roll = before.roll ++ [(user, false)] ∧ after.apiKeys = before.apiKeys := by
  simp only [apply] at applied
  split at applied <;> cases applied
  case h_1 users inserted =>
    refine ⟨?_, rfl⟩
    simp [Tables.roll, (KeyedTable.insert_eq_some.mp inserted).2]

theorem roll_of_useInvite {user code : ByteString} {usedAt : Int}
    (applied : (useInvite usedAt user code).apply now before = .ok (outcome, after)) :
    after.roll = before.roll ++ [] ∧ after.apiKeys = before.apiKeys := by
  cases applied
  exact ⟨(List.append_nil _).symm, rfl⟩

theorem roll_of_insertInvite {code createdBy : ByteString} {expiresAt : Int}
    (applied : (insertInvite code expiresAt createdBy).apply now before = .ok (outcome, after)) :
    after.roll = before.roll ∧ after.apiKeys = before.apiKeys := by
  simp only [apply] at applied
  split at applied <;> cases applied
  exact ⟨rfl, rfl⟩

theorem roll_of_grant {user : ByteString}
    (applied : (setUserAdmin user).apply now before = .ok (outcome, after)) :
    after.roll = before.roll.map (Tables.grant user) := by
  cases applied
  simp only [Tables.roll, Tables.updateUsers, KeyedTable.update_rows, List.map_map]
  refine List.map_congr_left fun row _ => ?_
  simp only [Function.comp_apply, Tables.grant]
  cases decide (row.user = user) <;> simp

theorem enrols_of_apply (applied : statement.apply now before = .ok (outcome, after)) :
    Enrols before after statement := by
  cases statement with
  | insertUser user hash => exact .insertUser (roll_of_insertUser applied).1
  | setUserAdmin user => exact .setUserAdmin (roll_of_grant applied)
  | setPassword user hash =>
      cases applied
      exact .same (roll_updateUsers fun _ => rfl)
  | setAvatar user data =>
      cases applied
      exact .same (roll_updateUsers fun _ => rfl)
  | insertInvite code expiresAt createdBy => exact .same (roll_of_insertInvite applied).1
  | insertMessage row =>
      simp only [apply] at applied
      split at applied <;> cases applied
      exact .same rfl
  | insertAPIKey userID adminUserID keyHash name =>
      simp only [apply] at applied
      split at applied <;> cases applied
      exact .same rfl
  | useInvite usedAt user code => cases applied; exact .same rfl
  | deleteAPIKey id => cases applied; exact .same rfl

theorem Enrols.grows (enrols : Enrols before after statement) : before.Grows after := by
  cases enrols with
  | same same => exact .of_roll_eq same
  | insertUser rows => exact .of_append rows
  | setUserAdmin granted => exact Tables.grows_of_grant granted

theorem apiKeys_of_apply (applied : statement.apply now before = .ok (outcome, after)) :
    ∀ entry ∈ after.apiKeys.rows, entry ∈ before.apiKeys.rows ∨
      ∃ name, statement =
        .insertAPIKey entry.2.userID entry.2.adminUserID entry.2.keyHash name := by
  cases statement with
  | insertAPIKey userID adminUserID keyHash name =>
      simp only [apply] at applied
      split at applied <;> cases applied
      case h_1 apiKeys inserted =>
        intro entry member
        rw [(NumberedTable.insert_eq_some inserted).2, List.mem_append,
          List.mem_singleton] at member
        rcases member with old | rfl
        · exact .inl old
        · exact .inr ⟨name, rfl⟩
  | deleteAPIKey id =>
      cases applied
      exact fun entry member => .inl (NumberedTable.mem_remove.mp member).1
  | insertUser user hash =>
      simp only [apply] at applied
      split at applied <;> cases applied
      exact fun _ => .inl
  | insertInvite code expiresAt createdBy =>
      simp only [apply] at applied
      split at applied <;> cases applied
      exact fun _ => .inl
  | insertMessage row =>
      simp only [apply] at applied
      split at applied <;> cases applied
      exact fun _ => .inl
  | setUserAdmin | setPassword | setAvatar | useInvite =>
      cases applied
      exact fun _ => .inl

theorem foreignKeys_of_apply (applied : statement.apply now before = .ok (outcome, after))
    (declared : before.ForeignKeys)
    (names : ∀ userID adminUserID keyHash name,
      statement = .insertAPIKey userID adminUserID keyHash name →
      before.HasUser userID ∧ before.HasUser adminUserID) : after.ForeignKeys := by
  have grows := (enrols_of_apply applied).grows
  intro entry member
  rcases apiKeys_of_apply applied entry member with old | ⟨name, rfl⟩
  · exact ⟨grows.hasUser (declared entry old).1, grows.hasUser (declared entry old).2⟩
  · obtain ⟨owner, maker⟩ := names _ _ _ _ rfl
    exact ⟨grows.hasUser owner, grows.hasUser maker⟩

end Statement

end Grunt.Storage
