import Grunt.Storage.Effects

/-! # The names in the tables

The users, the authors of messages and the owners of keys. A name is in the
tables because a statement has written it, and an answer shows only names that
are there.
-/

namespace Grunt.Storage

open Foundation

def Tables.names (tables : Tables) : List ByteString :=
  tables.users.rows.map UserRow.user ++ (tables.messages.rows.map fun entry => entry.2.user) ++
    tables.apiKeys.rows.map fun entry => entry.2.userID

namespace Tables

variable {tables : Tables} {name : ByteString}

theorem mem_names : name ∈ tables.names ↔ tables.HasUser name ∨
    (∃ entry ∈ tables.messages.rows, entry.2.user = name) ∨
      ∃ entry ∈ tables.apiKeys.rows, entry.2.userID = name := by
  simp only [names, HasUser, List.mem_append, List.mem_map, or_assoc]

end Tables

/-! ## Statements -/

namespace Statement

def names : Statement → List ByteString
  | .insertUser user _ => [user]
  | .insertMessage row => [row.user]
  | .insertAPIKey userID _ _ _ => [userID]
  | _ => []

variable {statement : Statement} {now : Instant} {before after : Tables} {outcome : Outcome}
variable {name : ByteString}

theorem hasUser_cases (applied : statement.apply now before = .ok (outcome, after))
    (has : after.HasUser name) : before.HasUser name ∨ name ∈ statement.names := by
  cases statement with
  | insertUser user hash =>
      simp only [apply] at applied
      split at applied <;> cases applied
      case h_1 users inserted =>
        rw [Tables.HasUser, (KeyedTable.insert_eq_some.mp inserted).2, List.map_append,
          List.mem_append] at has
        exact has
  | setUserAdmin | setPassword | setAvatar =>
      cases applied
      exact .inl ((Tables.hasUser_updateUsers name).mp has)
  | useInvite | deleteAPIKey =>
      cases applied
      exact .inl has
  | insertInvite | insertMessage | insertAPIKey =>
      simp only [apply] at applied
      split at applied <;> cases applied
      exact .inl has

theorem message_cases (applied : statement.apply now before = .ok (outcome, after))
    {entry : Nat × MessageRow} (member : entry ∈ after.messages.rows) :
    entry ∈ before.messages.rows ∨ entry.2.user ∈ statement.names := by
  rcases messages_of_apply applied with ⟨row, rfl, inserted⟩ | same
  · rw [(NumberedTable.insert_eq_some inserted).2, List.mem_append, List.mem_singleton] at member
    rcases member with old | rfl
    · exact .inl old
    · exact .inr (List.mem_singleton_self _)
  · exact .inl (same ▸ member)

theorem apiKey_cases (applied : statement.apply now before = .ok (outcome, after))
    {entry : Nat × APIKeyRow} (member : entry ∈ after.apiKeys.rows) :
    entry ∈ before.apiKeys.rows ∨ entry.2.userID ∈ statement.names := by
  cases statement with
  | insertAPIKey userID adminUserID keyHash given =>
      simp only [apply] at applied
      split at applied <;> cases applied
      case h_1 apiKeys inserted =>
        rw [(NumberedTable.insert_eq_some inserted).2, List.mem_append, List.mem_singleton]
          at member
        rcases member with old | rfl
        · exact .inl old
        · exact .inr (List.mem_singleton_self _)
  | deleteAPIKey id =>
      cases applied
      exact .inl (NumberedTable.mem_remove.mp member).1
  | setUserAdmin | setPassword | setAvatar | useInvite =>
      cases applied
      exact .inl member
  | insertUser | insertInvite | insertMessage =>
      simp only [apply] at applied
      split at applied <;> cases applied
      exact .inl member

theorem mem_names_of_apply (applied : statement.apply now before = .ok (outcome, after))
    (member : name ∈ after.names) : name ∈ before.names ∨ name ∈ statement.names := by
  rw [Tables.mem_names] at member ⊢
  rcases member with has | ⟨entry, member, rfl⟩ | ⟨entry, member, rfl⟩
  · exact (hasUser_cases applied has).imp_left .inl
  · exact (message_cases applied member).imp_left fun old => .inr (.inl ⟨entry, old, rfl⟩)
  · exact (apiKey_cases applied member).imp_left fun old => .inr (.inr ⟨entry, old, rfl⟩)

end Statement

/-! ## Queries -/

namespace Query

def names : (query : Query) → query.Answer → List ByteString
  | .lastMessages _ _, answer => answer.map fun entry : Nat × MessageRow => entry.2.user
  | .messagesSince _, answer => answer.map fun entry : Nat × MessageRow => entry.2.user
  | .apiKeyOwner _, answer => answer.toList
  | _, _ => []

theorem mem_of_mem_orderAscending {rows : List (Nat × MessageRow)} {entry : Nat × MessageRow}
    (member : entry ∈ orderAscending rows) : entry ∈ rows :=
  (List.mem_insertionSort _).mp member

theorem mem_of_mem_orderDescending {rows : List (Nat × MessageRow)} {entry : Nat × MessageRow}
    (member : entry ∈ orderDescending rows) : entry ∈ rows :=
  (List.mem_insertionSort _).mp member

theorem mem_names_of_eval {query : Query} {tables : Tables} {name : ByteString}
    (member : name ∈ query.names (query.eval tables)) : name ∈ tables.names := by
  rw [Tables.mem_names]
  cases query with
  | lastMessages since limit =>
      rcases List.mem_map.mp member with ⟨entry, answered, rfl⟩
      have taken := List.mem_of_mem_take (mem_of_mem_orderAscending answered)
      exact .inr (.inl ⟨entry, List.mem_of_mem_filter (mem_of_mem_orderDescending taken), rfl⟩)
  | messagesSince since =>
      rcases List.mem_map.mp member with ⟨entry, answered, rfl⟩
      exact .inr (.inl ⟨entry, List.mem_of_mem_filter (mem_of_mem_orderAscending answered), rfl⟩)
  | apiKeyOwner keyHash =>
      rcases Option.map_eq_some_iff.mp (Option.mem_toList.mp member) with ⟨entry, found, rfl⟩
      exact .inr (.inr ⟨entry, List.mem_of_find?_eq_some found, rfl⟩)
  | inviteExpiry | passwordHash | isAdmin | avatar | userCount | apiKeys | users => cases member

end Query

/-! ## Operations -/

theorem all_of_perform {libraries : Libraries} {thread : Nat} {op : Op} {choice : Choice}
    {result : op.Result} {world after : World} {Holds : Tables → Prop}
    (all : world.database.All Holds)
    (kept : ∀ inTx statement now tables outcome written, op = .exec inTx statement →
      Holds tables → statement.apply now tables = .ok (outcome, written) → Holds written)
    (performed : perform libraries thread op choice world = some (result, after)) :
    after.database.All Holds := by
  by_cases read : op.isRead = true
  · rw [perform_read read performed]
    exact all
  cases op with
  | exec inTx statement =>
      cases inTx with
      | false =>
          rcases perform_exec performed with ⟨rfl, -⟩ | ⟨-, _, tables, -, applied, rfl⟩
          · exact all
          · exact ⟨kept _ _ _ _ _ _ rfl all.1 applied, nofun⟩
      | true =>
          rcases perform_txExec performed with ⟨rfl, -⟩ | ⟨-, _, tables, -, applied, rfl⟩
          · exact all
          · refine ⟨all.1, fun owner written held => ?_⟩
            cases held
            exact kept _ _ _ _ _ _ rfl (all.view thread) applied
  | commit =>
      rcases perform_commit performed with ⟨-, rfl⟩ | ⟨-, rfl⟩
      · exact all.rollback thread
      · exact all.commit thread
  | rollback =>
      rw [perform_rollback performed]
      exact all.rollback thread
  | begin | query | now | bcrypt => exact absurd rfl read

theorem World.holds_view {world : World} {Holds : Tables → Prop}
    (all : world.database.All Holds) (thread : Nat) (inTx : Bool) :
    Holds (world.view thread inTx) := by
  cases inTx with
  | false => exact all.1
  | true => exact all.view thread

end Grunt.Storage
