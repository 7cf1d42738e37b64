import Grunt.Storage.Staging

/-! # The password hashes in force

What statements and calls do to the password hash of one user.
-/

namespace Grunt.Storage

open Foundation

namespace Tables

def Has (tables : Tables) (user : ByteString) (hash : Option ByteString) : Prop :=
  ∃ row ∈ tables.users.rows, row.user = user ∧ row.passwordHash = hash

def hashOf (tables : Tables) (user : ByteString) : Option ByteString :=
  (tables.users.find user).bind UserRow.passwordHash

variable {tables after : Tables} {user : ByteString} {hash other : Option ByteString}

theorem Has.unique (has : tables.Has user hash) (again : tables.Has user other) :
    hash = other := by
  rcases has with ⟨row, member, rfl, rfl⟩
  rcases again with ⟨same, sameMem, key, rfl⟩
  rw [tables.users.eq_of_key_eq member sameMem key.symm]

theorem Has.hashOf (has : tables.Has user hash) : tables.hashOf user = hash := by
  rcases has with ⟨row, member, rfl, rfl⟩
  rw [Tables.hashOf, KeyedTable.find_eq_some.mpr ⟨member, rfl⟩, Option.bind_some]

theorem Has.hasUser (has : tables.Has user hash) : tables.HasUser user := by
  rcases has with ⟨row, member, rfl, -⟩
  exact List.mem_map_of_mem member

def Secured (tables : Tables) (user : ByteString) (secured : Bool) : Prop :=
  ∃ hash, tables.Has user hash ∧ hash.isSome = secured

theorem Secured.unique {secured again : Bool} (first : tables.Secured user secured)
    (second : tables.Secured user again) : secured = again := by
  rcases first with ⟨hash, has, rfl⟩
  rcases second with ⟨same, hasSame, rfl⟩
  rw [has.unique hasSame]

theorem has_insert {name : ByteString} {given : Option ByteString}
    (rows : after.users.rows = tables.users.rows ++ [⟨name, given, false, none⟩]) :
    after.Has user hash ↔ tables.Has user hash ∨ (name = user ∧ given = hash) := by
  simp only [Has, rows, List.mem_append, List.mem_singleton, or_and_right, exists_or,
    exists_eq_left]

theorem Has.of_append {added : List UserRow} (has : tables.Has user hash)
    (rows : after.users.rows = tables.users.rows ++ added) : after.Has user hash := by
  rcases has with ⟨row, member, same⟩
  refine ⟨row, ?_, same⟩
  rw [rows]
  exact List.mem_append_left _ member

end Tables

theorem Query.eval_passwordHash {tables : Tables} {user : ByteString} {hash : Option ByteString} :
    Query.eval (.passwordHash user) tables = some hash ↔ tables.Has user hash := by
  change (tables.users.find user).map UserRow.passwordHash = some hash ↔ _
  rw [Option.map_eq_some_iff]
  constructor
  · rintro ⟨row, found, rfl⟩
    rcases KeyedTable.find_eq_some.mp found with ⟨member, same⟩
    exact ⟨row, member, same, rfl⟩
  · rintro ⟨row, member, same, rfl⟩
    exact ⟨row, KeyedTable.find_eq_some.mpr ⟨member, same⟩, rfl⟩

/-! ## Statements -/

namespace Statement

def rehash (user : ByteString) (hash : Option ByteString) : Statement → Option ByteString
  | .setPassword name new => if name = user then some new else hash
  | _ => hash

variable {statement : Statement} {now : Instant} {before after : Tables} {outcome : Outcome}
variable {user : ByteString} {hash : Option ByteString}

theorem has_updateUsers {tables : Tables} {name : ByteString} {change : UserRow → UserRow}
    {keeps : ∀ row, (change row).user = row.user} (new : Option ByteString → Option ByteString)
    (changes : ∀ row, (change row).passwordHash = new row.passwordHash) :
    (tables.updateUsers name change keeps).Has user hash ↔
      ∃ old, tables.Has user old ∧ hash = if name = user then new old else old := by
  have same : (tables.updateUsers name change keeps).users.rows =
      tables.users.rows.map fun row => bif row.user = name then change row else row := rfl
  simp only [Tables.Has, same, List.mem_map]
  constructor
  · rintro ⟨_, ⟨row, member, rfl⟩, rfl, rfl⟩
    by_cases named : row.user = name
    · simp only [named, decide_true, cond_true, keeps, changes]
      exact ⟨_, ⟨row, member, named, rfl⟩, rfl⟩
    · simp only [named, decide_false, cond_false, Ne.symm named, if_false]
      exact ⟨_, ⟨row, member, rfl, rfl⟩, rfl⟩
  · rintro ⟨_, ⟨row, member, rfl, rfl⟩, rfl⟩
    refine ⟨_, ⟨row, member, rfl⟩, ?_⟩
    by_cases named : row.user = name
    · simp [named, keeps, changes]
    · simp [named, Ne.symm named]

theorem has_of_apply (applied : statement.apply now before = .ok (outcome, after)) :
    after.Has user hash ↔ (∃ old, before.Has user old ∧ hash = statement.rehash user old) ∨
      statement = .insertUser user hash := by
  have plain : ∀ {name change keeps},
      (∀ row : UserRow, (change row).passwordHash = row.passwordHash) →
      ((before.updateUsers name change keeps).Has user hash ↔
        ∃ old, before.Has user old ∧ hash = old) := by
    intro name change keeps unchanged
    rw [has_updateUsers id unchanged]
    simp
  have same : ∀ {tables : Tables}, tables.users = before.users →
      (tables.Has user hash ↔ ∃ old, before.Has user old ∧ hash = old) := by
    intro tables users
    simp [Tables.Has, users]
  cases statement with
  | insertUser name given =>
      simp only [apply] at applied
      split at applied <;> cases applied
      case h_1 users inserted =>
        rw [Tables.has_insert (KeyedTable.insert_eq_some.mp inserted).2]
        simp [rehash]
  | setUserAdmin name =>
      cases applied
      rw [plain]
      · simp [rehash]
      · intro row
        rfl
  | setPassword name given =>
      cases applied
      rw [has_updateUsers (fun _ => some given) fun _ => rfl]
      simp [rehash]
  | setAvatar name data =>
      cases applied
      rw [plain]
      · simp [rehash]
      · intro row
        rfl
  | insertInvite code expiresAt createdBy =>
      simp only [apply] at applied
      split at applied <;> cases applied
      rw [same]
      · simp [rehash]
      · rfl
  | useInvite usedAt name code =>
      cases applied
      rw [same]
      · simp [rehash]
      · rfl
  | insertMessage row =>
      simp only [apply] at applied
      split at applied <;> cases applied
      rw [same]
      · simp [rehash]
      · rfl
  | insertAPIKey userID adminUserID keyHash name =>
      simp only [apply] at applied
      split at applied <;> cases applied
      rw [same]
      · simp [rehash]
      · rfl
  | deleteAPIKey id =>
      cases applied
      rw [same]
      · simp [rehash]
      · rfl

theorem secured_of_apply (applied : statement.apply now before = .ok (outcome, after))
    (changes : ∀ name new, statement = .setPassword name new → before.Secured name true)
    {secured : Bool} (old : before.Secured user secured) : after.Secured user secured := by
  rcases old with ⟨hash, has, same⟩
  refine ⟨statement.rehash user hash, (has_of_apply applied).mpr (.inl ⟨hash, has, rfl⟩), ?_⟩
  rw [← same]
  cases statement with
  | setPassword name new =>
      by_cases named : name = user
      · subst named
        have changed := (changes name new rfl).unique ⟨hash, has, rfl⟩
        rw [rehash, if_pos rfl, ← changed]
        rfl
      · rw [rehash, if_neg named]
  | _ => rfl

end Statement

end Grunt.Storage
