import Mathlib.Logic.Basic

/-! # A database with one writer

Statements are atomic. A transaction reads the committed tables until its
first write; from then on it is the one writer, works on its own copy and
every other write has to wait. A commit makes the copy the committed tables,
a rollback drops it.
-/

namespace Grunt.Foundation

structure Database (Tables : Type) where
  committed : Tables
  /-- The session with uncommitted writes, and its tables. -/
  writer : Option (Nat × Tables)

namespace Database

variable {Tables Error α : Type}

def HeldBy (database : Database Tables) (session : Nat) : Prop :=
  ∃ tables, database.writer = some (session, tables)

def view (session : Nat) (database : Database Tables) : Tables :=
  match database.writer with
  | some (owner, tables) => if owner = session then tables else database.committed
  | none => database.committed

/-- A statement outside any transaction; `none` while a writer is active. -/
def execute (statement : Tables → Except Error (α × Tables))
    (database : Database Tables) : Option (Except Error α × Database Tables) :=
  match database.writer with
  | some _ => none
  | none =>
      match statement database.committed with
      | .ok (result, tables) => some (.ok result, { database with committed := tables })
      | .error error => some (.error error, database)

/-- A statement of a session's transaction; `none` while another writer is
active. A statement that fails leaves the transaction as it was. -/
def executeIn (session : Nat) (statement : Tables → Except Error (α × Tables))
    (database : Database Tables) : Option (Except Error α × Database Tables) :=
  match database.writer with
  | some (owner, tables) =>
      if owner = session then
        match statement tables with
        | .ok (result, written) =>
            some (.ok result, { database with writer := some (session, written) })
        | .error error => some (.error error, database)
      else none
  | none =>
      match statement database.committed with
      | .ok (result, written) =>
          some (.ok result, { database with writer := some (session, written) })
      | .error error => some (.error error, database)

def commit (session : Nat) (database : Database Tables) : Database Tables :=
  match database.writer with
  | some (owner, tables) =>
      if owner = session then ⟨tables, none⟩ else database
  | none => database

def rollback (session : Nat) (database : Database Tables) : Database Tables :=
  match database.writer with
  | some (owner, _) => if owner = session then ⟨database.committed, none⟩ else database
  | none => database

def recover (database : Database Tables) : Database Tables :=
  ⟨database.committed, none⟩

section Lemmas

variable {database after : Database Tables} {session other : Nat}
variable {statement : Tables → Except Error (α × Tables)} {result : Except Error α}

@[simp] theorem view_of_held {tables : Tables}
    (held : database.writer = some (session, tables)) : database.view session = tables := by
  simp [view, held]

theorem view_of_not_held (free : ¬ database.HeldBy session) :
    database.view session = database.committed := by
  unfold view
  split
  case h_1 owner tables held =>
    split
    case isTrue same => exact absurd ⟨tables, same ▸ held⟩ free
    case isFalse => rfl
  case h_2 => rfl

theorem view_cases (session : Nat) (database : Database Tables) :
    database.view session = database.committed ∨
      database.writer = some (session, database.view session) := by
  by_cases held : database.HeldBy session
  · obtain ⟨tables, writer⟩ := held
    exact .inr (by rw [view_of_held writer]; exact writer)
  · exact .inl (view_of_not_held held)

theorem execute_cases (executed : database.execute statement = some (result, after)) :
    database.writer = none ∧
      ((∃ value tables, statement database.committed = .ok (value, tables) ∧
          result = .ok value ∧ after = ⟨tables, none⟩) ∨
        (∃ error, statement database.committed = .error error ∧
          result = .error error ∧ after = database)) := by
  cases database with
  | mk committed writer =>
    unfold execute at executed
    split at executed
    case h_1 => cases executed
    case h_2 idle =>
      refine ⟨idle, ?_⟩
      simp only at idle
      subst idle
      split at executed
      case h_1 value tables succeeded =>
        cases executed
        exact .inl ⟨value, tables, succeeded, rfl, rfl⟩
      case h_2 error failed =>
        cases executed
        exact .inr ⟨error, failed, rfl, rfl⟩

theorem executeIn_cases
    (executed : database.executeIn session statement = some (result, after)) :
    (database.writer = none ∨ database.HeldBy session) ∧
      ((∃ value tables, statement (database.view session) = .ok (value, tables) ∧
          result = .ok value ∧
          after = ⟨database.committed, some (session, tables)⟩) ∨
        (∃ error, statement (database.view session) = .error error ∧
          result = .error error ∧ after = database)) := by
  cases database with
  | mk committed writer =>
    cases writer with
    | none =>
        refine ⟨.inl rfl, ?_⟩
        simp only [executeIn] at executed
        split at executed
        case h_1 value tables succeeded =>
          cases executed
          exact .inl ⟨value, tables, succeeded, rfl, rfl⟩
        case h_2 error failed =>
          cases executed
          exact .inr ⟨error, failed, rfl, rfl⟩
    | some entry =>
        obtain ⟨owner, current⟩ := entry
        simp only [executeIn] at executed
        split at executed
        case isFalse => cases executed
        case isTrue same =>
          subst same
          refine ⟨.inr ⟨current, rfl⟩, ?_⟩
          have reads : (Database.mk committed (some (owner, current))).view owner =
              current := view_of_held rfl
          rw [reads]
          split at executed
          case h_1 value tables succeeded =>
            cases executed
            exact .inl ⟨value, tables, succeeded, rfl, rfl⟩
          case h_2 error failed =>
            cases executed
            exact .inr ⟨error, failed, rfl, rfl⟩

theorem commit_of_held {tables : Tables}
    (held : database.writer = some (session, tables)) :
    database.commit session = ⟨tables, none⟩ := by
  simp [commit, held]

theorem commit_of_not_held (free : ¬ database.HeldBy session) :
    database.commit session = database := by
  unfold commit
  split
  case h_1 owner tables held =>
    split
    case isTrue same => exact absurd ⟨tables, same ▸ held⟩ free
    case isFalse => rfl
  case h_2 => rfl

@[simp] theorem rollback_committed : (database.rollback session).committed =
    database.committed := by
  unfold rollback
  split
  · split <;> rfl
  · rfl

theorem rollback_not_held : ¬ (database.rollback session).HeldBy session := by
  rintro ⟨tables, held⟩
  unfold rollback at held
  split at held
  case h_1 owner _ writer =>
    split at held
    case isTrue => cases held
    case isFalse different =>
      rw [writer] at held
      cases held
      exact different rfl
  case h_2 writer =>
    rw [writer] at held
    cases held

theorem rollback_of_not_held (free : ¬ database.HeldBy session) :
    database.rollback session = database := by
  unfold rollback
  split
  case h_1 owner tables held =>
    split
    case isTrue same => exact absurd ⟨tables, same ▸ held⟩ free
    case isFalse => rfl
  case h_2 => rfl

theorem commit_of_held_other (different : other ≠ session)
    (held : database.HeldBy other) : database.commit session = database := by
  obtain ⟨tables, writer⟩ := held
  simp [commit, writer, different]

theorem rollback_of_held_other (different : other ≠ session)
    (held : database.HeldBy other) : database.rollback session = database := by
  obtain ⟨tables, writer⟩ := held
  simp [rollback, writer, different]

theorem HeldBy.of_commit (held : (database.commit session).HeldBy other) :
    database.HeldBy other := by
  unfold commit at held
  split at held
  · split at held
    · obtain ⟨_, writer⟩ := held
      cases writer
    · exact held
  · exact held

theorem HeldBy.of_rollback (held : (database.rollback session).HeldBy other) :
    database.HeldBy other := by
  unfold rollback at held
  split at held
  · split at held
    · obtain ⟨_, writer⟩ := held
      cases writer
    · exact held
  · exact held

theorem HeldBy.unique (first : database.HeldBy session) (second : database.HeldBy other) :
    session = other := by
  obtain ⟨_, firstHeld⟩ := first
  obtain ⟨_, secondHeld⟩ := second
  rw [firstHeld] at secondHeld
  cases secondHeld
  rfl

/-! ### Without one session -/

theorem rollback_eq_self (free : ∀ tables, database.writer ≠ some (session, tables)) :
    database.rollback session = database :=
  rollback_of_not_held fun ⟨tables, held⟩ => free tables held

theorem rollback_own (committed tables : Tables) :
    (Database.mk committed (some (session, tables))).rollback session = ⟨committed, none⟩ := by
  simp [rollback]

theorem rollback_other {owner : Nat} (committed tables : Tables) (different : owner ≠ session) :
    (Database.mk committed (some (owner, tables))).rollback session =
      ⟨committed, some (owner, tables)⟩ := by
  simp [rollback, different]

theorem rollback_rollback (database : Database Tables) (session other : Nat) :
    (database.rollback session).rollback other = (database.rollback other).rollback session := by
  rcases database with ⟨committed, _ | ⟨owner, tables⟩⟩
  · rfl
  · by_cases first : owner = session
    · subst first
      by_cases second : owner = other
      · rw [second]
      · rw [rollback_own, rollback_other _ _ second, rollback_own]
        rfl
    · rw [rollback_other _ _ first]
      by_cases second : owner = other
      · subst second
        rw [rollback_own]
        rfl
      · rw [rollback_other _ _ second, rollback_other _ _ first]

theorem rollback_commit (different : other ≠ session) :
    (database.rollback session).commit other = (database.commit other).rollback session := by
  by_cases held : database.HeldBy session
  · obtain ⟨tables, writer⟩ := held
    rw [commit_of_held_other different.symm ⟨tables, writer⟩]
    exact commit_of_not_held fun otherHeld =>
      different (HeldBy.unique (HeldBy.of_rollback otherHeld) ⟨tables, writer⟩)
  · rw [rollback_of_not_held held]
    exact (rollback_of_not_held fun later => held (HeldBy.of_commit later)).symm

theorem view_rollback (different : other ≠ session) :
    (database.rollback session).view other = database.view other := by
  rcases database with ⟨committed, _ | ⟨owner, tables⟩⟩
  · rfl
  · by_cases first : owner = session
    · simp [rollback, view, first, different.symm]
    · simp [rollback, first]

theorem execute_rollback (executed : database.execute statement = some (result, after)) :
    (database.rollback session).execute statement =
      some (result, after.rollback session) := by
  obtain ⟨idle, outcome⟩ := execute_cases executed
  have same : database.rollback session = database :=
    rollback_eq_self (by simp [idle])
  have afterSame : after.rollback session = after := by
    rcases outcome with ⟨_, _, -, -, rfl⟩ | ⟨_, -, -, rfl⟩
    · rfl
    · exact same
  rw [same, afterSame, executed]

theorem executeIn_rollback (different : other ≠ session)
    (executed : database.executeIn other statement = some (result, after)) :
    (database.rollback session).executeIn other statement =
      some (result, after.rollback session) := by
  obtain ⟨free, outcome⟩ := executeIn_cases executed
  have same : database.rollback session = database := by
    refine rollback_of_not_held fun held => ?_
    rcases free with idle | own
    · obtain ⟨_, writer⟩ := held
      rw [idle] at writer
      cases writer
    · exact different (own.unique held)
  have afterSame : after.rollback session = after := by
    rcases outcome with ⟨_, _, -, -, rfl⟩ | ⟨_, -, -, rfl⟩
    · simp [rollback, different]
    · exact same
  rw [same, afterSame, executed]

@[simp] theorem recover_rollback : (database.rollback session).recover = database.recover := by
  simp [recover]

@[simp] theorem rollback_recover : database.recover.rollback session = database.recover := rfl

/-! ### Invariants of the tables -/

def All (Holds : Tables → Prop) (database : Database Tables) : Prop :=
  Holds database.committed ∧
    ∀ session tables, database.writer = some (session, tables) → Holds tables

variable {Holds : Tables → Prop}

theorem All.view (all : database.All Holds) (session : Nat) :
    Holds (database.view session) := by
  rcases view_cases session database with committed | held
  · rw [committed]
    exact all.1
  · exact all.2 session _ held

theorem All.commit (all : database.All Holds) (session : Nat) :
    (database.commit session).All Holds := by
  by_cases held : database.HeldBy session
  · obtain ⟨tables, writer⟩ := held
    rw [commit_of_held writer]
    exact ⟨all.2 session tables writer, by simp⟩
  · rw [commit_of_not_held held]
    exact all

theorem All.rollback (all : database.All Holds) (session : Nat) :
    (database.rollback session).All Holds := by
  refine ⟨by rw [rollback_committed]; exact all.1, ?_⟩
  intro owner tables writer
  unfold Database.rollback at writer
  split at writer
  · split at writer
    · cases writer
    · exact all.2 owner tables writer
  · exact all.2 owner tables writer

theorem All.recover (all : database.All Holds) : database.recover.All Holds :=
  ⟨all.1, by simp [Database.recover]⟩

end Lemmas

/-! ### A part of the tables -/

section Map

variable {Seen : Type} (see : Tables → Seen)

def map (database : Database Tables) : Database Seen where
  committed := see database.committed
  writer := database.writer.map fun held => (held.1, see held.2)

variable {see} {database : Database Tables} {session : Nat}
variable {statement : Tables → Except Error (α × Tables)}
variable {seen : Seen → Except Error (α × Seen)}

theorem view_map : (database.map see).view session = see (database.view session) := by
  obtain ⟨committed, writer⟩ := database
  cases writer with
  | none => rfl
  | some held =>
      simp only [view, map, Option.map_some]
      split <;> rfl

theorem execute_map (agree : ∀ tables, seen (see tables) =
      (statement tables).map fun done => (done.1, see done.2)) :
    (database.map see).execute seen =
      (database.execute statement).map fun done => (done.1, done.2.map see) := by
  obtain ⟨committed, writer⟩ := database
  cases writer with
  | some held => rfl
  | none =>
      simp only [execute, map, Option.map_none, agree]
      cases statement committed <;> rfl

theorem executeIn_map (agree : ∀ tables, seen (see tables) =
      (statement tables).map fun done => (done.1, see done.2)) :
    (database.map see).executeIn session seen =
      (database.executeIn session statement).map fun done => (done.1, done.2.map see) := by
  obtain ⟨committed, writer⟩ := database
  cases writer with
  | none =>
      simp only [executeIn, map, Option.map_none, agree]
      cases statement committed <;> rfl
  | some held =>
      simp only [executeIn, map, Option.map_some, agree]
      split
      · cases statement held.2 <;> rfl
      · rfl

theorem commit_map : (database.map see).commit session = (database.commit session).map see := by
  obtain ⟨committed, writer⟩ := database
  cases writer with
  | none => rfl
  | some held =>
      simp only [commit, map, Option.map_some]
      split <;> rfl

theorem rollback_map :
    (database.map see).rollback session = (database.rollback session).map see := by
  obtain ⟨committed, writer⟩ := database
  cases writer with
  | none => rfl
  | some held =>
      simp only [rollback, map, Option.map_some]
      split <;> rfl

end Map

end Database

end Grunt.Foundation
