import Grunt.Storage.Effects

/-! # Calls that run alone

What a registration and a change of password leave behind when nothing else
happens between their operations, and when the first registration succeeds.
-/

namespace Grunt.Storage

open Foundation

def Registers (world : World) (code user : ByteString) (after : Tables) : Prop :=
  ∃ invite ∈ world.database.committed.invites.rows, ∃ hash,
    invite.code = code ∧ invite.usedAt = none ∧
      world.clock < invite.expiresAt * Calendar.second ∧
      world.database.committed.register code user hash (Calendar.unixSeconds world.clock) =
        some after

def RegistrationEnds (world : World) (code user : ByteString) :
    Except Error Bool → World → Prop
  | .ok _, after => after.clock = world.clock ∧ Registers world code user after.database.committed
  | .error _, after =>
      after.clock = world.clock ∧ after.database.committed = world.database.committed

section Registration

variable {libraries : Libraries} {thread : Nat} {world now : World} {code user : ByteString}

structure MarkedAlone (thread : Nat) (world : World) (code user : ByteString) (now : World) :
    Prop where
  clock : now.clock = world.clock
  committed : now.database.committed = world.database.committed
  writer : now.database.writer = some (thread,
    world.database.committed.markInvite (Calendar.unixSeconds world.clock) user code)

theorem commit_alone {written : Tables} (clock : now.clock = world.clock)
    (committed : now.database.committed = world.database.committed)
    (writer : now.database.writer = some (thread, written))
    (registers : Registers world code user written) :
    Store.commitRegistration.Ensures (perform libraries thread)
      (RegistrationEnds world code user) now := by
  intro choice result after performed
  have ticked := (perform_clock performed).trans clock
  rcases perform_commit performed with ⟨rfl, same⟩ | ⟨rfl, same⟩
  · refine ⟨ticked, ?_⟩
    rw [same, World.setDatabase_database, Database.rollback_committed, committed]
  · refine ⟨ticked, ?_⟩
    rw [same, World.setDatabase_database, Database.commit_of_held writer]
    exact registers

theorem insertUser_alone {invite : InviteRow} (hash : Option ByteString)
    (marked : MarkedAlone thread world code user now)
    (member : invite ∈ world.database.committed.invites.rows) (coded : invite.code = code)
    (unused : invite.usedAt = none)
    (unexpired : world.clock < invite.expiresAt * Calendar.second) :
    (Store.insertAndCommit user hash).Ensures (perform libraries thread)
      (RegistrationEnds world code user) now := by
  intro choice result after performed
  have ticked := (perform_clock performed).trans marked.clock
  rcases perform_txExec performed with
    ⟨rfl, error, rfl⟩ | ⟨-, outcome, written, rfl, applied, same⟩
  · exact ⟨ticked, marked.committed⟩
  · rw [Database.view_of_held marked.writer, Statement.apply] at applied
    split at applied <;> cases applied
    case h_1 users inserted =>
      simp only [Tables.markInvite] at inserted
      refine commit_alone ticked (by rw [same]; exact marked.committed) (by rw [same]; rfl)
        ⟨invite, member, hash, coded, unused, unexpired, ?_⟩
      simp [Tables.register, Tables.markInvite, inserted]

theorem createAndCommit_alone {invite : InviteRow} (password : ByteString)
    (marked : MarkedAlone thread world code user now)
    (member : invite ∈ world.database.committed.invites.rows) (coded : invite.code = code)
    (unused : invite.usedAt = none)
    (unexpired : world.clock < invite.expiresAt * Calendar.second) :
    (Store.createAndCommit user password).Ensures (perform libraries thread)
      (RegistrationEnds world code user) now := by
  unfold Store.createAndCommit Store.hashPassword
  split
  case isTrue => exact insertUser_alone none marked member coded unused unexpired
  case isFalse =>
    intro choice result after performed
    cases perform_read rfl performed
    cases result with
    | error error => exact ⟨marked.clock, marked.committed⟩
    | ok hash => exact insertUser_alone (some hash) marked member coded unused unexpired

theorem markAndCreate_alone {invite : InviteRow} (password : ByteString)
    (free : ¬ world.database.HeldBy thread)
    (member : invite ∈ world.database.committed.invites.rows) (coded : invite.code = code)
    (unused : invite.usedAt = none)
    (unexpired : world.clock < invite.expiresAt * Calendar.second) :
    (Store.markAndCreate code user password).Ensures (perform libraries thread)
      (RegistrationEnds world code user) world := by
  intro choice usedAt reached read
  cases perform_now read
  cases perform_read rfl read
  intro choice result after performed
  have ticked := perform_clock performed
  rcases perform_txExec performed with
    ⟨rfl, error, rfl⟩ | ⟨-, outcome, written, rfl, applied, same⟩
  · exact ⟨rfl, rfl⟩
  · dsimp only [Program.bind]
    rw [Database.view_of_not_held free] at applied
    simp only [Statement.apply, Except.ok.injEq, Prod.mk.injEq] at applied
    obtain ⟨rfl, rfl⟩ := applied
    have committed : after.database.committed = world.database.committed := by
      rw [same]
      rfl
    split
    case isTrue => exact ⟨ticked, committed⟩
    case isFalse =>
      exact createAndCommit_alone password ⟨ticked, committed, by rw [same]; rfl⟩
        member coded unused unexpired

theorem registerInTransaction_alone (password : ByteString)
    (free : ¬ world.database.HeldBy thread) :
    (Store.registerInTransaction libraries code user password).Ensures
      (perform libraries thread) (RegistrationEnds world code user) world := by
  intro choice answer after performed
  cases perform_read rfl performed
  rcases answer with error | none | expiresAt
  · exact ⟨rfl, rfl⟩
  · exact ⟨rfl, rfl⟩
  have answered := perform_query performed
  simp only [World.view, cond_true, Database.view_of_not_held free] at answered
  obtain ⟨invite, member, coded, expiry, unused⟩ := Query.eval_inviteExpiry answered
  dsimp only [Program.bind]
  cases parsed : Calendar.parseRFC3339 libraries.location expiresAt with
  | error error => exact ⟨rfl, rfl⟩
  | ok parsedExpiry =>
    have expires := Calendar.parseRFC3339_ok parsed
    intro choice checkedAt reached read
    cases perform_now read
    cases perform_read rfl read
    dsimp only [Program.bind]
    split
    case isTrue => exact ⟨rfl, rfl⟩
    case isFalse unexpired =>
      refine markAndCreate_alone password free member coded unused ?_
      rw [expiry, ← expires]
      exact not_not.mp unexpired

theorem registerWithInvite_alone (password : ByteString)
    (free : ¬ world.database.HeldBy thread) :
    (Store.registerWithInvite libraries code user password).Ensures (perform libraries thread)
      (fun result after => RegistrationEnds world code user result after ∧
        ¬ after.database.HeldBy thread) world := by
  intro choice begun after performed
  cases perform_read rfl performed
  cases begun with
  | error error => exact ⟨⟨rfl, rfl⟩, free⟩
  | ok _ =>
    refine (registerInTransaction_alone password free).bind fun result reached ends => ?_
    intro choice _ ended rolledBack
    have same := perform_rollback rolledBack
    refine ⟨?_, by rw [same]; exact Database.rollback_not_held⟩
    cases result with
    | error error =>
        refine ⟨(perform_clock rolledBack).trans ends.1, ?_⟩
        rw [same, World.setDatabase_database, Database.rollback_committed]
        exact ends.2
    | ok _ =>
        refine ⟨(perform_clock rolledBack).trans ends.1, ?_⟩
        rw [same, World.setDatabase_database, Database.rollback_committed]
        exact ends.2

end Registration

/-! ## The first user -/

/-- `RegisterWithInvite` accepts the invite at this time. -/
def InviteRow.isOpen (location : Location) (now : Instant) (invite : InviteRow) : Bool :=
  invite.usedAt.isNone &&
    match Calendar.parseRFC3339 location invite.expiresAt with
    | .ok expiry => decide (now < expiry)
    | .error _ => false

theorem InviteRow.isOpen_iff {location : Location} {now : Instant} {invite : InviteRow} :
    invite.isOpen location now = true ↔ invite.usedAt = none ∧
      ∃ expiry, Calendar.parseRFC3339 location invite.expiresAt = .ok expiry ∧ now < expiry := by
  rw [isOpen, Bool.and_eq_true, Option.isNone_iff_eq_none]
  cases Calendar.parseRFC3339 location invite.expiresAt with
  | error error => simp
  | ok expiry => simp

section First

variable {libraries : Libraries} {thread : Nat} {world : World} {invite : InviteRow}
variable {tables : Tables} {clock : Instant}
variable {user password salt hash : ByteString}

/-- Run alone, the registration can return `true`. -/
def Succeeds (libraries : Libraries) (thread : Nat) (program : StoreProgram (Except Error Bool))
    (world : World) : Prop :=
  ∃ choices after, program.run (perform libraries thread) choices world = some (.ok true, after)

theorem succeeds_perform {op : Op} {next : op.Result → StoreProgram (Except Error Bool)}
    {middle : World} (choice : Choice) {result : op.Result}
    (performed : perform libraries thread op choice world = some (result, middle))
    (rest : Succeeds libraries thread (next result) middle) :
    Succeeds libraries thread (.perform op next) world := by
  rcases rest with ⟨choices, after, ran⟩
  exact ⟨choice :: choices, after, Program.run_perform performed ran⟩

theorem insertAndCommit_succeeds (nobody : tables.users.rows = []) {committed : Tables} :
    Succeeds libraries thread (Store.insertAndCommit user (some hash))
      ⟨⟨committed, some (thread, tables)⟩, clock⟩ := by
  have inserted : ∃ users, tables.users.insert ⟨user, some hash, false, none⟩ = some users := by
    cases result : tables.users.insert ⟨user, some hash, false, none⟩ with
    | some users => exact ⟨users, rfl⟩
    | none =>
        rw [KeyedTable.insert_eq_none, nobody] at result
        cases result
  rcases inserted with ⟨users, inserted⟩
  have applied : (Statement.insertUser user (some hash)).apply clock tables =
      .ok (⟨1, users.rows.length⟩, { tables with users := users }) := by
    rw [Statement.apply, inserted]
  apply succeeds_perform .plain
  · simp only [perform, World.exec, Choice.plain, Bool.false_eq_true, if_false, if_true,
      Database.executeIn, applied]
    rfl
  · exact ⟨[.plain], _, rfl⟩

theorem createAndCommit_succeeds (nobody : tables.users.rows = []) {committed : Tables}
    (given : password ≠ []) (hashed : libraries.bcryptGenerate salt password = .ok hash) :
    Succeeds libraries thread (Store.createAndCommit user password)
      ⟨⟨committed, some (thread, tables)⟩, clock⟩ := by
  rw [Store.createAndCommit, Store.hashPassword, if_neg given]
  have performed : perform libraries thread (.bcrypt password) ⟨false, salt⟩
      ⟨⟨committed, some (thread, tables)⟩, clock⟩ =
        some ((.ok hash : Except Error ByteString), ⟨⟨committed, some (thread, tables)⟩, clock⟩) := by
    rw [perform, hashed]
    rfl
  exact succeeds_perform _ performed (insertAndCommit_succeeds nobody)

theorem markAndCreate_succeeds (nobody : tables.users.rows = [])
    (member : invite ∈ tables.invites.rows) (unused : invite.usedAt = none)
    (given : password ≠ []) (hashed : libraries.bcryptGenerate salt password = .ok hash) :
    Succeeds libraries thread (Store.markAndCreate invite.code user password)
      ⟨⟨tables, none⟩, clock⟩ := by
  have single : (tables.invites.rows.filter fun row =>
      row.code = invite.code && row.usedAt.isNone) = [invite] := by
    apply filter_of_nodup tables.invites.unique member
    · simp [unused]
    · intro other matched
      simp only [Bool.and_eq_true, decide_eq_true_eq] at matched
      exact matched.1
  apply succeeds_perform .plain rfl
  apply succeeds_perform .plain rfl
  dsimp only [Program.bind]
  rw [single, if_neg fun different => different rfl]
  have still : (tables.markInvite (Calendar.unixSeconds clock) user invite.code).users.rows = [] :=
    nobody
  exact createAndCommit_succeeds still given hashed

theorem registerWithInvite_succeeds (nobody : tables.users.rows = [])
    (member : invite ∈ tables.invites.rows)
    (isOpen : invite.isOpen libraries.location clock = true) (given : password ≠ [])
    (hashed : libraries.bcryptGenerate salt password = .ok hash) :
    Succeeds libraries thread (Store.registerWithInvite libraries invite.code user password)
      ⟨⟨tables, none⟩, clock⟩ := by
  rcases InviteRow.isOpen_iff.mp isOpen with ⟨unused, expiry, parsed, unexpired⟩
  have found : tables.invites.find invite.code = some invite :=
    KeyedTable.find_eq_some.mpr ⟨member, rfl⟩
  have answered : Query.eval (.inviteExpiry invite.code) tables = some invite.expiresAt := by
    simp only [Query.eval, found]
    exact if_pos unused
  have registered : Succeeds libraries thread
      (Store.registerInTransaction libraries invite.code user password)
      ⟨⟨tables, none⟩, clock⟩ := by
    apply succeeds_perform .plain
    · exact congrArg (fun answer => some ((.ok answer : Except SqlError (Option Int)), _)) answered
    · dsimp only [Program.bind]
      rw [parsed]
      apply succeeds_perform .plain rfl
      dsimp only [Program.bind]
      rw [if_neg (not_not.mpr unexpired)]
      exact markAndCreate_succeeds nobody member unused given hashed
  apply succeeds_perform .plain rfl
  rcases registered with ⟨choices, after, ran⟩
  change Succeeds libraries thread (Store.registerInTransaction libraries invite.code user
    password >>= fun result => Store.rollback >>= fun _ => pure result) _
  exact ⟨choices ++ [.plain], _, Program.run_bind.mpr
    ⟨choices, [.plain], _, after, rfl, ran, rfl⟩⟩

end First

/-! ## A change of password -/

def Rehashes (libraries : Libraries) (userID currentPassword newPassword : ByteString)
    (before after : Tables) : Prop :=
  ∃ row ∈ before.users.rows, ∃ hash salt replacement, row.user = userID ∧
    row.passwordHash = some hash ∧ libraries.bcryptCompare hash currentPassword = true ∧
    libraries.bcryptGenerate salt newPassword = .ok replacement ∧
    ∃ now outcome, (Statement.setPassword userID replacement).apply now before =
      .ok (outcome, after)

section Password

variable {libraries : Libraries} {thread : Nat} {world : World}
variable {userID currentPassword newPassword : ByteString}

theorem verifyUser_alone :
    (Store.verifyUser libraries userID currentPassword).Ensures (perform libraries thread)
      (fun verified after => after = world ∧ (verified = .ok true →
        ∃ row ∈ world.database.committed.users.rows, ∃ hash, row.user = userID ∧
          row.passwordHash = some hash ∧
          libraries.bcryptCompare hash currentPassword = true)) world := by
  intro choice answer after performed
  cases perform_read rfl performed
  rcases answer with error | none | none | hash
  · exact ⟨rfl, nofun⟩
  · exact ⟨rfl, nofun⟩
  · exact ⟨rfl, nofun⟩
  · refine ⟨rfl, fun verified => ?_⟩
    have answered : (world.database.committed.users.find userID).map UserRow.passwordHash =
        some (some hash) := perform_query performed
    obtain ⟨row, found, hashed⟩ := Option.map_eq_some_iff.mp answered
    obtain ⟨member, named⟩ := KeyedTable.find_eq_some.mp found
    exact ⟨row, member, hash, named, hashed, Except.ok.inj verified⟩

theorem changePassword_alone :
    (Store.changePassword libraries userID currentPassword newPassword).Ensures
      (perform libraries thread) (fun _ after =>
        after.database.committed = world.database.committed ∨
          Rehashes libraries userID currentPassword newPassword world.database.committed
            after.database.committed) world := by
  refine verifyUser_alone.bind fun verified reached known => ?_
  obtain ⟨rfl, verifies⟩ := known
  rcases verified with error | _ | _
  · exact .inl rfl
  · exact .inl rfl
  obtain ⟨row, member, hash, named, hashed, compared⟩ := verifies rfl
  intro choice generated after performed
  cases perform_read rfl performed
  cases generated with
  | error error => exact .inl rfl
  | ok replacement =>
      have drawn : libraries.bcryptGenerate choice.random newPassword = .ok replacement :=
        congrArg Prod.fst (Option.some.inj performed)
      intro choice result after performed
      rcases perform_exec performed with ⟨rfl, error, rfl⟩ | ⟨-, outcome, tables, rfl, applied, rfl⟩
      · exact .inl rfl
      · exact .inr ⟨row, member, hash, _, replacement, named, hashed, compared, drawn, _, _,
          applied⟩

end Password

end Grunt.Storage
