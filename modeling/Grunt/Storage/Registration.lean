import Grunt.Storage.Effects

/-! # Registration is atomic

The proof that overlapping calls of `RegisterWithInvite` take effect at their
commit or not at all. What a call has done so far is read off the operations
in the history that are its own.
-/

namespace Grunt.Storage

open Foundation

abbrev StoreScene := Scene Op Op.Result World

namespace StoreScene

def tables (scene : StoreScene) : Tables := scene.world.database.committed

def readings (scene : StoreScene) (thread : Nat) : List Instant :=
  (scene.own thread).filterMap fun performed =>
    match performed with
    | ⟨_, .now, instant⟩ => some instant
    | _ => none

def claims (scene : StoreScene) (thread : Nat) : List (ByteString × ByteString) :=
  (scene.own thread).filterMap fun performed =>
    match performed with
    | ⟨_, .exec true (.useInvite _ user code), .ok _⟩ => some (code, user)
    | _ => none

def hasCommitted (scene : StoreScene) (thread : Nat) : Bool :=
  (scene.own thread).any fun performed =>
    match performed with
    | ⟨_, .commit, .ok _⟩ => true
    | _ => false

def registered (scene : StoreScene) (thread : Nat) : Option (ByteString × ByteString) :=
  if scene.hasCommitted thread then (scene.claims thread).getLast? else none

end StoreScene

/-! ## The rules -/

/-- A committed registration, in the scenes around its commit. -/
structure Registration (thread : Nat) (code user : ByteString)
    (before after : StoreScene) : Prop where
  unregistered : before.registered thread = none
  registered : after.registered thread = some (code, user)
  /-- One unexpired invite is marked and one user is created. -/
  effect : ∃ invite ∈ before.tables.invites.rows, ∃ checkedAt usedAt hash,
    invite.code = code ∧ invite.usedAt = none ∧
    before.readings thread = [checkedAt, usedAt] ∧
    checkedAt < invite.expiresAt * Calendar.second ∧
    before.tables.register code user hash (Calendar.unixSeconds usedAt) =
      some after.tables

/-- What is known of everything that has been committed. -/
structure Consistent (scene : StoreScene) : Prop where
  attributed : scene.tables.Attributed
  invite : ∀ thread code user, scene.registered thread = some (code, user) →
    ∃ row ∈ scene.tables.invites.rows, row.code = code ∧ row.usedAt.isSome ∧
      row.usedByUser = some user
  single : ∀ thread other code user otherUser,
    scene.registered thread = some (code, user) →
    scene.registered other = some (code, otherUser) → thread = other

/-- One operation leaves what is committed alone, is a statement outside any
transaction, or commits a registration. -/
def Guarantee (thread : Nat) (before after : StoreScene) : Prop :=
  (after.registered thread = before.registered thread ∧
    (after.tables = before.tables ∨
      (before.world.database.writer = none ∧ before.tables.Evolves after.tables ∧
        (before.tables.Attributed → after.tables.Attributed)))) ∨
  ∃ code user, Registration thread code user before after

structure Interference (thread : Nat) (before after : StoreScene) : Prop where
  own : after.own thread = before.own thread
  held : before.world.database.HeldBy thread →
    after.world.database = before.world.database
  free : after.world.database.HeldBy thread → before.world.database.HeldBy thread
  evolves : before.tables.Evolves after.tables

def Finished (thread : Nat) : Call → Reply → StoreScene → Prop
  | .registerWithInvite code user _, .bool (.ok true), scene =>
      scene.registered thread = some (code, user)
  | .registerWithInvite _ _ _, _, scene => scene.hasCommitted thread = false
  | _, _, _ => True

def registrationRules : Rules Op Op.Result World Choice Call Reply where
  invariant := Consistent
  guarantee := Guarantee
  interference := Interference
  allowed := fun _ _ _ _ => True
  restartAllowed := fun _ => True
  fresh := fun thread scene =>
    scene.own thread = [] ∧ ¬ scene.world.database.HeldBy thread
  finished := Finished
  lost := fun _ _ => True

section Own

variable {thread : Nat} {before after : StoreScene}

theorem readings_of_own (own : after.own thread = before.own thread) :
    after.readings thread = before.readings thread := by
  simp only [StoreScene.readings, own]

theorem claims_of_own (own : after.own thread = before.own thread) :
    after.claims thread = before.claims thread := by
  simp only [StoreScene.claims, own]

theorem hasCommitted_of_own (own : after.own thread = before.own thread) :
    after.hasCommitted thread = before.hasCommitted thread := by
  simp only [StoreScene.hasCommitted, own]

theorem registered_of_own (own : after.own thread = before.own thread) :
    after.registered thread = before.registered thread := by
  simp only [StoreScene.registered, claims_of_own own, hasCommitted_of_own own]

end Own

theorem Guarantee.evolves {thread : Nat} {before after : StoreScene}
    (guarantee : Guarantee thread before after) : before.tables.Evolves after.tables := by
  rcases guarantee with ⟨-, same | ⟨-, evolves, -⟩⟩ | ⟨code, user, registration⟩
  · rw [same]
    exact .refl _
  · exact evolves
  · obtain ⟨_, _, _, _, _, _, _, _, _, registered⟩ := registration.effect
    exact Tables.evolves_of_register registered

theorem Consistent.of_evolves {before after : StoreScene} (consistent : Consistent before)
    (evolves : before.tables.Evolves after.tables)
    (attributed : after.tables.Attributed)
    (same : ∀ thread, after.registered thread = before.registered thread) :
    Consistent after where
  attributed := attributed
  invite := fun thread code user registered => by
    rw [same] at registered
    obtain ⟨row, member, code, used, usedBy⟩ :=
      consistent.invite thread code user registered
    exact ⟨row, evolves.used row member used, code, used, usedBy⟩
  single := fun thread other code user otherUser registered otherRegistered =>
    consistent.single thread other code user otherUser
      (same thread ▸ registered) (same other ▸ otherRegistered)

theorem Consistent.of_registration {thread : Nat} {code user : ByteString}
    {before after : StoreScene} (consistent : Consistent before)
    (registration : Registration thread code user before after)
    (others : ∀ other, other ≠ thread → after.registered other = before.registered other) :
    Consistent after := by
  obtain ⟨invite, inviteMem, checkedAt, usedAt, hash, inviteCode, unused, -, -, registered⟩ :=
    registration.effect
  have evolves := Tables.evolves_of_register registered
  have marked := (Tables.register_eq_some.mp registered).2.2.1
  -- no earlier registration used this code, as its invite was still unused
  have new : ∀ other otherUser, before.registered other = some (code, otherUser) →
      False := by
    intro other otherUser earlier
    obtain ⟨row, member, rowCode, used, -⟩ := consistent.invite other code otherUser earlier
    have same := before.tables.invites.eq_of_key_eq member inviteMem
      (rowCode.trans inviteCode.symm)
    rw [same, unused] at used
    cases used
  refine ⟨consistent.attributed.register registered, ?_, ?_⟩
  · intro other otherCode otherUser otherRegistered
    by_cases same : other = thread
    · subst other
      rw [registration.registered] at otherRegistered
      cases otherRegistered
      rw [marked]
      exact ⟨_, Tables.mem_markInvite.mpr (.inl ⟨invite, inviteMem, inviteCode, unused, rfl⟩),
        inviteCode, rfl, rfl⟩
    · rw [others other same] at otherRegistered
      obtain ⟨row, member, rowCode, used, usedBy⟩ :=
        consistent.invite other otherCode otherUser otherRegistered
      exact ⟨row, evolves.used row member used, rowCode, used, usedBy⟩
  · intro one two shared oneUser twoUser oneRegistered twoRegistered
    by_cases oneSame : one = thread <;> by_cases twoSame : two = thread
    · rw [oneSame, twoSame]
    · subst one
      rw [registration.registered] at oneRegistered
      cases oneRegistered
      rw [others two twoSame] at twoRegistered
      exact (new two twoUser twoRegistered).elim
    · subst two
      rw [registration.registered] at twoRegistered
      cases twoRegistered
      rw [others one oneSame] at oneRegistered
      exact (new one oneUser oneRegistered).elim
    · rw [others one oneSame] at oneRegistered
      rw [others two twoSame] at twoRegistered
      exact consistent.single one two shared oneUser twoUser oneRegistered twoRegistered

theorem keeps_of_guarantee {libraries : Libraries} {thread : Nat} {op : Op}
    {choice : Choice} {before after : StoreScene} {result : op.Result}
    (consistent : Consistent before)
    (observed : (machine libraries).observe thread op choice before = some (result, after))
    (guarantee : Guarantee thread before after) :
    registrationRules.Keeps thread before after := by
  have others : ∀ other, other ≠ thread →
      after.registered other = before.registered other := fun other different =>
    registered_of_own (Machine.own_of_observe_other different observed)
  refine ⟨?_, guarantee⟩
  rcases guarantee with ⟨own, effect⟩ | ⟨code, user, registration⟩
  · have same : ∀ other, after.registered other = before.registered other := by
      intro other
      by_cases equal : other = thread
      · rw [equal, own]
      · exact others other equal
    rcases effect with unchanged | ⟨-, evolves, attributed⟩
    · exact consistent.of_evolves (unchanged ▸ .refl _)
        (unchanged ▸ consistent.attributed) same
    · exact consistent.of_evolves evolves (attributed consistent.attributed) same
  · exact consistent.of_registration registration others

/-! ## One operation -/

section Operations

variable {libraries : Libraries} {thread : Nat} {op : Op} {choice : Choice}
variable {before after : StoreScene} {result : op.Result}

/-- Operations that leave alone what is committed. -/
def Op.isPrivate : Op → Bool
  | .exec inTx _ => inTx
  | .commit => false
  | _ => true

theorem tables_of_private (isPrivate : op.isPrivate = true)
    (observed : (machine libraries).observe thread op choice before = some (result, after)) :
    after.tables = before.tables := by
  have performed := performed_of_observe observed
  unfold StoreScene.tables
  cases op with
  | exec inTx statement =>
      cases inTx with
      | false => cases isPrivate
      | true =>
          rcases perform_txExec performed with ⟨same, -⟩ | ⟨-, _, _, -, -, same⟩ <;> rw [same]
          rfl
  | commit => cases isPrivate
  | rollback => rw [perform_rollback performed, World.setDatabase_database,
      Database.rollback_committed]
  | begin => rw [perform_read rfl performed]
  | query => rw [perform_read rfl performed]
  | now => rw [perform_read rfl performed]
  | bcrypt => rw [perform_read rfl performed]

theorem hasCommitted_of_private (isPrivate : op.isPrivate = true)
    (observed : (machine libraries).observe thread op choice before = some (result, after)) :
    after.hasCommitted thread = before.hasCommitted thread := by
  unfold StoreScene.hasCommitted
  rw [Machine.own_of_observe observed, List.any_append]
  cases op with
  | commit => cases isPrivate
  | begin => simp
  | query => simp
  | exec => simp
  | rollback => simp
  | now => simp
  | bcrypt => simp

theorem registered_of_uncommitted {scene : StoreScene}
    (uncommitted : scene.hasCommitted thread = false) : scene.registered thread = none := by
  simp [StoreScene.registered, uncommitted]

theorem keeps_of_private (consistent : Consistent before) (isPrivate : op.isPrivate = true)
    (uncommitted : before.hasCommitted thread = false)
    (observed : (machine libraries).observe thread op choice before = some (result, after)) :
    registrationRules.Keeps thread before after := by
  refine keeps_of_guarantee consistent observed (.inl ⟨?_, .inl ?_⟩)
  · rw [registered_of_uncommitted uncommitted, registered_of_uncommitted]
    rw [hasCommitted_of_private isPrivate observed, uncommitted]
  · exact tables_of_private isPrivate observed

theorem claims_of_observe (observed : (machine libraries).observe thread op choice before =
    some (result, after)) (foreign : ∀ usedAt user code, op ≠ .exec true (.useInvite usedAt user code)) :
    after.claims thread = before.claims thread := by
  unfold StoreScene.claims
  rw [Machine.own_of_observe observed, List.filterMap_append, List.append_right_eq_self,
    List.filterMap_eq_nil_iff]
  intro performed member
  rw [List.mem_singleton.mp member]
  split
  case h_1 claim =>
    cases claim
    exact absurd rfl (foreign _ _ _)
  case h_2 => rfl

theorem registered_of_outside (outside : op.isOutside = true)
    (observed : (machine libraries).observe thread op choice before = some (result, after)) :
    after.registered thread = before.registered thread := by
  have committed : after.hasCommitted thread = before.hasCommitted thread := by
    unfold StoreScene.hasCommitted
    rw [Machine.own_of_observe observed, List.any_append]
    cases op with
    | commit => cases outside
    | begin => simp
    | query => simp
    | exec => simp
    | rollback => simp
    | now => simp
    | bcrypt => simp
  have claims := claims_of_observe observed (by
    rintro usedAt user code rfl
    cases outside)
  simp only [StoreScene.registered, committed, claims]

theorem keeps_of_outside (consistent : Consistent before) (outside : op.isOutside = true)
    (observed : (machine libraries).observe thread op choice before = some (result, after)) :
    registrationRules.Keeps thread before after := by
  refine keeps_of_guarantee consistent observed
    (.inl ⟨registered_of_outside outside observed, ?_⟩)
  have performed := performed_of_observe observed
  cases op with
  | exec inTx statement =>
      cases inTx with
      | true => cases outside
      | false =>
          rcases perform_exec performed with ⟨same, -⟩ | ⟨idle, _, tables, -, applied, same⟩
          · exact .inl (by simp only [StoreScene.tables, same])
          · refine .inr ⟨idle, ?_⟩
            simp only [StoreScene.tables, same, World.setDatabase_database]
            exact ⟨Statement.evolves_of_apply outside applied,
              Statement.attributed_of_apply outside applied⟩
  | query => exact .inl (tables_of_private rfl observed)
  | now => exact .inl (tables_of_private rfl observed)
  | bcrypt => exact .inl (tables_of_private rfl observed)
  | begin => cases outside
  | commit => cases outside
  | rollback => cases outside

end Operations

/-! ## The stages of a registration -/

/-- How far a transaction that has not committed has come. -/
structure Stage (thread : Nat) (readings : List Instant)
    (claims : List (ByteString × ByteString)) (scene : StoreScene) : Prop where
  readings : scene.readings thread = readings
  claims : scene.claims thread = claims
  uncommitted : scene.hasCommitted thread = false

def Invited (code : ByteString) (expiresAt : Int) (scene : StoreScene) : Prop :=
  ∃ invite ∈ scene.tables.invites.rows, invite.code = code ∧ invite.expiresAt = expiresAt

def Marked (thread : Nat) (code user : ByteString) (expiresAt usedAt : Int)
    (scene : StoreScene) : Prop :=
  scene.world.database.writer = some (thread, scene.tables.markInvite usedAt user code) ∧
    ∃ invite ∈ scene.tables.invites.rows, invite.code = code ∧
      invite.expiresAt = expiresAt ∧ invite.usedAt = none

def Prepared (thread : Nat) (code user : ByteString) (expiresAt usedAt : Int)
    (scene : StoreScene) : Prop :=
  (∃ hash written, scene.tables.register code user hash usedAt = some written ∧
    scene.world.database.writer = some (thread, written)) ∧
  ∃ invite ∈ scene.tables.invites.rows, invite.code = code ∧
    invite.expiresAt = expiresAt ∧ invite.usedAt = none

def Outcome.Reported (thread : Nat) (code user : ByteString) :
    Except Error Bool → StoreScene → Prop
  | .ok true, scene => scene.registered thread = some (code, user)
  | _, scene => scene.hasCommitted thread = false

section Stages

variable {libraries : Libraries} {thread : Nat} {op : Op} {choice : Choice}
variable {before after : StoreScene} {result : op.Result}
variable {readings : List Instant} {claims : List (ByteString × ByteString)}
variable {code user : ByteString} {expiresAt usedAt : Int}

theorem Stage.stable (stage : Stage thread readings claims before)
    (interference : Interference thread before after) :
    Stage thread readings claims after where
  readings := (readings_of_own interference.own).trans stage.readings
  claims := (claims_of_own interference.own).trans stage.claims
  uncommitted := (hasCommitted_of_own interference.own).trans stage.uncommitted

theorem Invited.stable (invited : Invited code expiresAt before)
    (interference : Interference thread before after) : Invited code expiresAt after := by
  obtain ⟨invite, member, sameCode, sameExpiry⟩ := invited
  obtain ⟨later, laterMem, laterCode, laterExpiry⟩ :=
    interference.evolves.invites invite member
  exact ⟨later, laterMem, laterCode.trans sameCode, laterExpiry.trans sameExpiry⟩

theorem Marked.stable (marked : Marked thread code user expiresAt usedAt before)
    (interference : Interference thread before after) :
    Marked thread code user expiresAt usedAt after := by
  have same := interference.held ⟨_, marked.1⟩
  simpa only [Marked, StoreScene.tables, same] using marked

theorem Prepared.stable (prepared : Prepared thread code user expiresAt usedAt before)
    (interference : Interference thread before after) :
    Prepared thread code user expiresAt usedAt after := by
  obtain ⟨_, _, _, writer⟩ := prepared.1
  have same := interference.held ⟨_, writer⟩
  simpa only [Prepared, StoreScene.tables, same] using prepared

theorem readings_of_observe (timeless : op ≠ .now)
    (observed : (machine libraries).observe thread op choice before = some (result, after)) :
    after.readings thread = before.readings thread := by
  unfold StoreScene.readings
  rw [Machine.own_of_observe observed, List.filterMap_append]
  cases op with
  | now => exact absurd rfl timeless
  | begin => simp
  | query => simp
  | exec => simp
  | commit => simp
  | rollback => simp
  | bcrypt => simp

theorem Stage.observe (stage : Stage thread readings claims before)
    (isPrivate : op.isPrivate = true) (timeless : op ≠ .now)
    (foreign : ∀ usedAt user code, op ≠ .exec true (.useInvite usedAt user code))
    (observed : (machine libraries).observe thread op choice before = some (result, after)) :
    Stage thread readings claims after where
  readings := (readings_of_observe timeless observed).trans stage.readings
  claims := (claims_of_observe observed foreign).trans stage.claims
  uncommitted := (hasCommitted_of_private isPrivate observed).trans stage.uncommitted

theorem Stage.observe_now {instant : Instant} (stage : Stage thread readings claims before)
    (observed : (machine libraries).observe thread .now choice before =
      some (instant, after)) :
    Stage thread (readings ++ [instant]) claims after where
  readings := by
    rw [← stage.readings]
    simp [StoreScene.readings, Machine.own_of_observe observed]
  claims := (claims_of_observe observed (by simp)).trans stage.claims
  uncommitted := (hasCommitted_of_private rfl observed).trans stage.uncommitted

end Stages

section Safe

variable {libraries : Libraries} {thread : Nat} {scene : StoreScene}
variable {code user : ByteString} {checkedAt usedAt : Instant} {expiresAt : Int}

theorem safe_perform {α : Type} {Post : α → StoreScene → Prop} {op : Op}
    {next : op.Result → StoreProgram α}
    (step : ∀ now : StoreScene, Interference thread scene now → Consistent now →
      ∀ choice result (after : StoreScene),
      (machine libraries).observe thread op choice now = some (result, after) →
      registrationRules.Keeps thread now after ∧
        registrationRules.Safe (machine libraries) thread Post (next result) after) :
    registrationRules.Safe (machine libraries) thread Post (.perform op next) scene :=
  fun now interference consistent choice result after _ observed =>
    step now interference consistent choice result after observed

theorem commit_safe
    (stage : Stage thread [checkedAt, usedAt] [(code, user)] scene)
    (prepared : Prepared thread code user expiresAt (Calendar.unixSeconds usedAt) scene)
    (unexpired : checkedAt < expiresAt * Calendar.second) :
    registrationRules.Safe (machine libraries) thread (Outcome.Reported thread code user)
      Store.commitRegistration scene := by
  refine safe_perform fun now interference consistent choice result after observed => ?_
  have nowStage := stage.stable interference
  obtain ⟨⟨hash, written, registered, writer⟩, invite, member, sameCode, sameExpiry, unused⟩ :=
    prepared.stable interference
  rcases perform_commit (performed_of_observe observed) with ⟨rfl, same⟩ | ⟨rfl, same⟩
  · have uncommitted : after.hasCommitted thread = false := by
      rw [← nowStage.uncommitted, StoreScene.hasCommitted, Machine.own_of_observe observed,
        List.any_append]
      simp [StoreScene.hasCommitted]
    have tables : after.tables = now.tables := by
      simp only [StoreScene.tables, same, World.setDatabase_database,
        Database.rollback_committed]
    refine ⟨keeps_of_guarantee consistent observed (.inl ⟨?_, .inl tables⟩), uncommitted⟩
    rw [registered_of_uncommitted uncommitted,
      registered_of_uncommitted nowStage.uncommitted]
  · have tables : after.tables = written := by
      simp only [StoreScene.tables, same, World.setDatabase_database,
        Database.commit_of_held writer]
    have reported : after.registered thread = some (code, user) := by
      have claims := (claims_of_observe observed (by simp)).trans nowStage.claims
      have committed : after.hasCommitted thread = true := by
        rw [StoreScene.hasCommitted, Machine.own_of_observe observed]
        simp
      simp [StoreScene.registered, claims, committed]
    refine ⟨keeps_of_guarantee consistent observed (.inr ⟨code, user, ?_, reported, ?_⟩),
      reported⟩
    · exact registered_of_uncommitted nowStage.uncommitted
    · exact ⟨invite, member, checkedAt, usedAt, hash, sameCode, unused, nowStage.readings,
        sameExpiry ▸ unexpired, tables ▸ registered⟩

theorem insertAndCommit_safe (hash : Option ByteString)
    (stage : Stage thread [checkedAt, usedAt] [(code, user)] scene)
    (marked : Marked thread code user expiresAt (Calendar.unixSeconds usedAt) scene)
    (unexpired : checkedAt < expiresAt * Calendar.second) :
    registrationRules.Safe (machine libraries) thread (Outcome.Reported thread code user)
      (Store.insertAndCommit user hash) scene := by
  refine safe_perform fun now interference consistent choice result after observed => ?_
  have nowStage := stage.stable interference
  obtain ⟨writer, invite, member, facts⟩ := marked.stable interference
  have afterStage := nowStage.observe rfl (by simp) (by simp) observed
  refine ⟨keeps_of_private consistent rfl nowStage.uncommitted observed, ?_⟩
  have tables := tables_of_private rfl observed
  rcases perform_txExec (performed_of_observe observed) with
    ⟨-, error, rfl⟩ | ⟨-, outcome, written, rfl, applied, same⟩
  · exact afterStage.uncommitted
  · refine commit_safe afterStage ⟨⟨hash, written, ?_, ?_⟩, ?_⟩ unexpired
    · rw [tables]
      simp only [Database.view_of_held writer, Statement.apply] at applied
      split at applied <;> cases applied
      case h_1 users inserted =>
        simp only [Tables.markInvite] at inserted
        simp [Tables.register, inserted]
    · rw [same]
      rfl
    · rw [tables]
      exact ⟨invite, member, facts⟩

/-- With the invite marked, the rest of the transaction either prepares and
commits the registration or leaves nothing. -/
theorem createAndCommit_safe (password : ByteString)
    (stage : Stage thread [checkedAt, usedAt] [(code, user)] scene)
    (marked : Marked thread code user expiresAt (Calendar.unixSeconds usedAt) scene)
    (unexpired : checkedAt < expiresAt * Calendar.second) :
    registrationRules.Safe (machine libraries) thread (Outcome.Reported thread code user)
      (Store.createAndCommit user password) scene := by
  unfold Store.createAndCommit Store.hashPassword
  split
  case isTrue => exact insertAndCommit_safe none stage marked unexpired
  case isFalse =>
    refine safe_perform fun now interference consistent choice result after observed => ?_
    have nowStage := stage.stable interference
    have afterStage := nowStage.observe rfl (by simp) (by simp) observed
    refine ⟨keeps_of_private consistent rfl nowStage.uncommitted observed, ?_⟩
    cases result with
    | error error => exact afterStage.uncommitted
    | ok hash =>
        refine insertAndCommit_safe (some hash) afterStage ?_ unexpired
        have same := perform_read rfl (performed_of_observe observed)
        simpa only [Marked, StoreScene.tables, same] using marked.stable interference

theorem markAndCreate_safe (password : ByteString)
    (stage : Stage thread [checkedAt] [] scene)
    (free : ¬ scene.world.database.HeldBy thread)
    (invited : Invited code expiresAt scene)
    (unexpired : checkedAt < expiresAt * Calendar.second) :
    registrationRules.Safe (machine libraries) thread (Outcome.Reported thread code user)
      (Store.markAndCreate code user password) scene := by
  refine safe_perform fun now interference consistent choice usedAt after observed => ?_
  have nowStage := stage.stable interference
  refine ⟨keeps_of_private consistent rfl nowStage.uncommitted observed, ?_⟩
  have clockStage := nowStage.observe_now observed
  have clockFree : ¬ after.world.database.HeldBy thread := by
    rw [perform_read rfl (performed_of_observe observed)]
    exact fun held => free (interference.free held)
  have clockInvited : Invited code expiresAt after := by
    have same := perform_read rfl (performed_of_observe observed)
    simpa only [Invited, StoreScene.tables, same] using invited.stable interference
  clear nowStage observed consistent interference
  refine safe_perform fun now interference consistent choice result marked observed => ?_
  have nowStage := clockStage.stable interference
  refine ⟨keeps_of_private consistent rfl nowStage.uncommitted observed, ?_⟩
  have uncommitted := (hasCommitted_of_private rfl observed).trans nowStage.uncommitted
  have tables := tables_of_private rfl observed
  rcases perform_txExec (performed_of_observe observed) with
    ⟨-, error, rfl⟩ | ⟨-, outcome, written, rfl, applied, same⟩
  · exact uncommitted
  · dsimp only [Program.bind]
    split
    case isTrue => exact uncommitted
    case isFalse single =>
      have nowFree : ¬ now.world.database.HeldBy thread := fun held =>
        clockFree (interference.free held)
      rw [Database.view_of_not_held nowFree] at applied
      simp only [Statement.apply, Except.ok.injEq, Prod.mk.injEq] at applied
      obtain ⟨rfl, rfl⟩ := applied
      obtain ⟨invite, member, inviteCode, expiry⟩ := clockInvited.stable interference
      have unused : invite.usedAt = none := by
        simp only [ne_eq, not_not] at single
        obtain ⟨row, only⟩ := List.length_eq_one_iff.mp single
        have rowMem : row ∈ List.filter _ now.world.database.committed.invites.rows :=
          only ▸ List.mem_singleton_self row
        obtain ⟨rowMem, matched⟩ := List.mem_filter.mp rowMem
        simp only [Bool.and_eq_true, decide_eq_true_eq, Option.isNone_iff_eq_none] at matched
        rw [now.tables.invites.eq_of_key_eq member rowMem (inviteCode.trans matched.1.symm)]
        exact matched.2
      have readings : marked.readings thread = [checkedAt, usedAt] :=
        (readings_of_observe (by simp) observed).trans nowStage.readings
      refine createAndCommit_safe password ⟨readings, ?_, uncommitted⟩ ⟨?_, ?_⟩ unexpired
      · rw [StoreScene.claims, Machine.own_of_observe observed, List.filterMap_append]
        exact congrArg (· ++ [(code, user)]) nowStage.claims
      · rw [tables, same]
        rfl
      · rw [tables]
        exact ⟨invite, member, inviteCode, expiry, unused⟩

theorem registerInTransaction_safe (password : ByteString)
    (stage : Stage thread [] [] scene) (free : ¬ scene.world.database.HeldBy thread) :
    registrationRules.Safe (machine libraries) thread (Outcome.Reported thread code user)
      (Store.registerInTransaction libraries code user password) scene := by
  refine safe_perform fun now interference consistent choice answer asked observed => ?_
  have nowStage := stage.stable interference
  refine ⟨keeps_of_private consistent rfl nowStage.uncommitted observed, ?_⟩
  have askedStage := nowStage.observe rfl (by simp) (by simp) observed
  have same := perform_read rfl (performed_of_observe observed)
  have nowFree : ¬ now.world.database.HeldBy thread := fun held =>
    free (interference.free held)
  rcases answer with error | none | expiresAt
  · exact askedStage.uncommitted
  · exact askedStage.uncommitted
  have askedFree : ¬ asked.world.database.HeldBy thread := same ▸ nowFree
  have invited : Invited code expiresAt asked := by
    have answered := perform_query (performed_of_observe observed)
    simp only [World.view, cond_true, Database.view_of_not_held nowFree] at answered
    obtain ⟨invite, member, sameCode, sameExpiry, -⟩ := Query.eval_inviteExpiry answered
    simp only [Invited, StoreScene.tables, same]
    exact ⟨invite, member, sameCode, sameExpiry⟩
  clear nowStage nowFree same observed consistent interference
  dsimp only [Program.bind]
  cases parsed : Calendar.parseRFC3339 libraries.location expiresAt with
  | error error => exact askedStage.uncommitted
  | ok expiry =>
    have expiryEq := Calendar.parseRFC3339_ok parsed
    subst expiryEq
    refine safe_perform fun now interference consistent choice checkedAt checked observed => ?_
    have nowStage := askedStage.stable interference
    refine ⟨keeps_of_private consistent rfl nowStage.uncommitted observed, ?_⟩
    have checkedStage := nowStage.observe_now observed
    have same := perform_read rfl (performed_of_observe observed)
    dsimp only [Program.bind]
    split
    case isTrue => exact checkedStage.uncommitted
    case isFalse unexpired =>
      refine markAndCreate_safe password checkedStage ?_ ?_ (not_not.mp unexpired)
      · exact same ▸ fun held => askedFree (interference.free held)
      · simpa only [Invited, StoreScene.tables, same] using invited.stable interference

theorem registerWithInvite_safe (password : ByteString)
    (stage : Stage thread [] [] scene) (free : ¬ scene.world.database.HeldBy thread) :
    registrationRules.Safe (machine libraries) thread (Outcome.Reported thread code user)
      (Store.registerWithInvite libraries code user password) scene := by
  refine safe_perform fun now interference consistent choice begun after observed => ?_
  have nowStage := stage.stable interference
  refine ⟨keeps_of_private consistent rfl nowStage.uncommitted observed, ?_⟩
  have afterStage := nowStage.observe rfl (by simp) (by simp) observed
  have same := perform_read rfl (performed_of_observe observed)
  cases begun with
  | error error => exact afterStage.uncommitted
  | ok _ =>
    have afterFree : ¬ after.world.database.HeldBy thread :=
      same ▸ fun held => free (interference.free held)
    refine (registerInTransaction_safe password afterStage afterFree).bind ?_
    intro result (reached : StoreScene) reported
    -- the deferred rollback finds no transaction after a commit
    refine safe_perform fun now interference consistent choice _ ended observed => ?_
    have tables := tables_of_private rfl observed
    have committed := (hasCommitted_of_private rfl observed).trans
      (hasCommitted_of_own interference.own)
    have registered : ended.registered thread = reached.registered thread := by
      simp only [StoreScene.registered, committed, claims_of_own interference.own,
        claims_of_observe observed (by simp)]
    refine ⟨keeps_of_guarantee consistent observed (.inl ⟨?_, .inl tables⟩), ?_⟩
    · rw [registered, registered_of_own interference.own]
    · rcases result with error | _ | _
      · exact committed.trans reported
      · exact committed.trans reported
      · exact registered.trans reported

end Safe

/-! ## Every call and every run -/

section Valid

variable {libraries : Libraries}

theorem Interference.refl (thread : Nat) (scene : StoreScene) :
    Interference thread scene scene :=
  ⟨rfl, fun _ => rfl, id, .refl _⟩

theorem Interference.trans {thread : Nat} {one two three : StoreScene}
    (first : Interference thread one two) (second : Interference thread two three) :
    Interference thread one three where
  own := second.own.trans first.own
  held := fun held => by
    have same := first.held held
    exact (second.held (same ▸ held)).trans same
  free := fun held => first.free (second.free held)
  evolves := first.evolves.trans second.evolves

theorem finished_stable {thread : Nat} {call : Call} {reply : Reply}
    {before after : StoreScene} (finished : Finished thread call reply before)
    (own : after.own thread = before.own thread) : Finished thread call reply after := by
  unfold Finished at finished ⊢
  split
  · exact (registered_of_own own).trans finished
  · simp only at finished
    exact (hasCommitted_of_own own).trans finished
  · trivial

theorem call_safe (thread : Nat) (call : Call) (scene : StoreScene)
    (own : scene.own thread = []) (free : ¬ scene.world.database.HeldBy thread) :
    registrationRules.Safe (machine libraries) thread (Finished thread call)
      (call.run libraries) scene := by
  cases other : call.isRegistration with
  | false =>
      have safe : registrationRules.Safe (machine libraries) thread (fun _ _ => True)
          (call.run libraries) scene :=
        Rules.safe_of_only (Call.run_outside other) (fun _ _ _ _ => trivial)
          (fun op choice now result after outside _ consistent _ observed =>
            ⟨keeps_of_outside consistent outside observed, trivial⟩) trivial
      refine safe.mono fun reply after _ => ?_
      cases call <;> trivial
  | true =>
      cases call with
      | registerWithInvite code user password =>
          have stage : Stage thread [] [] scene := by
            constructor <;>
              simp [StoreScene.readings, StoreScene.claims, StoreScene.hasCommitted, own]
          refine (registerWithInvite_safe password stage free).bind fun result after reported => ?_
          rcases result with error | _ | _ <;> exact reported
      | _ => cases other

theorem registrationRules_valid :
    registrationRules.Valid (machine libraries) (Call.run libraries) where
  interference_refl := Interference.refl
  interference_trans := fun _ _ _ _ => Interference.trans
  guarantee_expected := fun thread other op choice result before after different _ observed
      guarantee => by
    have others := perform_other different (performed_of_observe observed)
    exact ⟨Machine.own_of_observe_other different observed, others.1, others.2,
      Guarantee.evolves guarantee⟩
  fresh_stable := fun thread before after fresh interference =>
    ⟨interference.own.trans fresh.1, fun held => fresh.2 (interference.free held)⟩
  finished_stable := fun thread call reply before after finished interference =>
    finished_stable finished interference.own
  lost_stable := fun _ _ _ _ _ => trivial
  environment := fun tick scene world consistent happened => by
    cases tick
    cases happened
    exact ⟨⟨consistent.attributed, consistent.invite, consistent.single⟩,
      fun thread => ⟨rfl, fun _ => rfl, id, .refl _⟩⟩
  restart_invariant := fun scene consistent _ =>
    ⟨consistent.attributed, consistent.invite, consistent.single⟩
  restart_fresh := fun thread scene _ fresh => ⟨fresh.1, by rintro ⟨_, writer⟩; cases writer⟩
  restart_finished := fun thread call reply scene _ finished =>
    finished_stable finished rfl
  restart_lost := fun _ _ _ _ => trivial
  safe := fun thread call scene _ fresh => call_safe thread call scene fresh.1 fresh.2

end Valid

/-! ## Runs -/

section Runs

variable {libraries : Libraries} {clock : Instant}
variable {config after : StoreConfig} {events : List StoreEvent}

theorem permits_all (config : StoreConfig) (event : StoreEvent) :
    registrationRules.permits config event := by
  cases event with
  | step thread choice =>
      simp only [Rules.permits]
      split <;> trivial
  | restart => trivial
  | arrive => trivial
  | environment => trivial

theorem holds_of_next {event : StoreEvent}
    (holds : registrationRules.Holds (machine libraries) config)
    (taken : next libraries config event = some after) :
    registrationRules.Holds (machine libraries) after :=
  registrationRules_valid.sound (Run.single (permits_all config event) taken) holds

theorem holds_of_run (run : AnyRun (next libraries) (start clock) events config) :
    registrationRules.Holds (machine libraries) config := by
  refine registrationRules_valid.sound (run.weaken fun state event _ => permits_all state event)
    (Rules.holds_start ⟨Tables.attributed_created, ?_, ?_⟩ fun thread => ⟨rfl, ?_⟩)
  · intro thread code user registered
    cases registered
  · intro thread other code user otherUser registered
    cases registered
  · rintro ⟨_, writer⟩
    cases writer

theorem guarantee_of_next {thread : Nat} {choice : Choice}
    (holds : registrationRules.Holds (machine libraries) config)
    (taken : next libraries config (.step thread choice) = some after) :
    Guarantee thread config.scene after.scene :=
  Rules.guarantee_of_step holds (permits_all config _) taken

theorem evolves_of_next {event : StoreEvent}
    (holds : registrationRules.Holds (machine libraries) config)
    (taken : next libraries config event = some after) :
    StoreScene.tables config.scene |>.Evolves (StoreScene.tables after.scene) := by
  cases event with
  | arrive thread call =>
      obtain ⟨-, rfl⟩ := Machine.next_arrive taken
      exact .refl _
  | step thread choice => exact (guarantee_of_next holds taken).evolves
  | environment tick =>
      obtain ⟨world, happened, rfl⟩ := Machine.next_environment taken
      cases tick
      cases happened
      exact .refl _
  | restart =>
      rw [Machine.next_restart taken]
      exact .refl _

theorem evolves_of_run {final : StoreConfig}
    (holds : registrationRules.Holds (machine libraries) config)
    (run : AnyRun (next libraries) config events final) :
    StoreScene.tables config.scene |>.Evolves (StoreScene.tables final.scene) := by
  refine (run.along _ (fun _ _ _ holds _ taken => holds_of_next holds taken) holds).relation
    (fun one two => (StoreScene.tables one.scene).Evolves (StoreScene.tables two.scene))
    (fun _ => .refl _) (fun _ _ _ => .trans) fun _ _ _ permitted taken => ?_
  exact evolves_of_next permitted.2 taken

def Leaves (libraries : Libraries) (thread : Nat) (config : StoreConfig)
    (event : StoreEvent) : Prop :=
  event.thread = some thread → ∀ after, next libraries config event = some after →
    StoreScene.tables after.scene = StoreScene.tables config.scene

def Registering (call : Call) (op : Op) : Prop :=
  call.isRegistration = true → ∀ statement, op ≠ .exec false statement

theorem registering_only (call : Call) : (call.run libraries).Only (Registering call) := by
  cases call with
  | registerWithInvite code user password =>
      refine (Store.registerWithInvite_only (fun op read _ statement same => ?_)
        (fun _ _ _ => by simp) (fun _ _ _ => by simp) (fun _ _ => by simp)
        (fun _ _ => by simp)).bind fun _ => trivial
      rw [same] at read
      cases read
  | _ => exact (Call.run_outside rfl).mono fun _ _ registration => by cases registration

theorem leaves_of_registering {thread : Nat} {choice : Choice}
    (holds : registrationRules.Holds (machine libraries) config)
    (bounded : Machine.Bounded Registering config)
    {call : Call} (registration : call.isRegistration = true)
    (arrived : (config.threads thread).request = some call)
    (taken : next libraries config (.step thread choice) = some after)
    (same : StoreScene.registered after.scene thread =
      StoreScene.registered config.scene thread) :
    StoreScene.tables after.scene = StoreScene.tables config.scene := by
  have guarantee := guarantee_of_next holds taken
  obtain ⟨own, op, rest, result, scene, running, observed, rfl⟩ := Machine.next_step taken
  rw [running] at arrived
  cases arrived
  have inside := ((bounded thread).2 call _ running).1 registration
  rcases guarantee with ⟨-, unchanged | ⟨idle, -⟩⟩ | ⟨code, user, registered⟩
  · exact unchanged
  · cases op with
    | exec inTx statement =>
        cases inTx with
        | false => exact absurd rfl (inside statement)
        | true => exact tables_of_private rfl observed
    | commit =>
        have free : ¬ config.scene.world.database.HeldBy thread := by
          rintro ⟨_, writer⟩
          rw [idle] at writer
          cases writer
        simp only [StoreScene.tables, Config.set]
        rcases perform_commit (performed_of_observe observed) with ⟨-, same⟩ | ⟨-, same⟩
        · rw [same, World.setDatabase_database, Database.rollback_committed]
        · rw [same, World.setDatabase_database, Database.commit_of_not_held free]
    | begin => exact tables_of_private rfl observed
    | query => exact tables_of_private rfl observed
    | rollback => exact tables_of_private rfl observed
    | now => exact tables_of_private rfl observed
    | bcrypt => exact tables_of_private rfl observed
  · have impossible := registered.registered.symm.trans (same.trans registered.unregistered)
    cases impossible

theorem registered_of_next {event : StoreEvent} {thread : Nat} {claim : ByteString × ByteString}
    (holds : registrationRules.Holds (machine libraries) config)
    (taken : next libraries config event = some after)
    (registered : StoreScene.registered config.scene thread = some claim) :
    StoreScene.registered after.scene thread = some claim := by
  by_cases own : ∃ choice, event = .step thread choice
  · obtain ⟨choice, rfl⟩ := own
    rcases guarantee_of_next holds taken with ⟨same, -⟩ | ⟨code, user, registration⟩
    · exact same.trans registered
    · rw [registration.unregistered] at registered
      cases registered
  · exact (registered_of_own (Machine.own_of_next (fun choice same => own ⟨choice, same⟩)
      taken)).trans registered

/-- The configurations of a run in which this call is still to finish, with
everything that is known of them. -/
structure Awaited (libraries : Libraries) (thread : Nat) (call : Call)
    (config : StoreConfig) : Prop where
  holds : registrationRules.Holds (machine libraries) config
  bounded : Machine.Bounded Registering config
  arrived : ∀ call', (config.threads thread).request = some call' → call' = call

theorem awaited_of_run {thread : Nat} {call : Call}
    (run : AnyRun (next libraries) (start clock) events config)
    (arrived : (config.threads thread).request = some call) :
    Run (next libraries) (fun state _ => Awaited libraries thread call state)
      (start clock) events config := by
  have holds : registrationRules.Holds (machine libraries) (start clock) :=
    holds_of_run (.nil _)
  have known := (run.along (fun state => registrationRules.Holds (machine libraries) state ∧
      Machine.Bounded Registering state)
    (fun _ _ _ facts _ taken => ⟨holds_of_next facts.1 taken,
      facts.2.next (Machine.bounded_tracking registering_only) taken⟩)
    ⟨holds, Machine.tracked_start⟩).ahead
  refine known.weaken fun state event facts => ⟨facts.1.2.1, facts.1.2.2, ?_⟩
  intro call' arrived'
  obtain ⟨_, rest⟩ := facts.2
  have later := Machine.request_of_run rest arrived'
  rw [arrived] at later
  exact (Option.some.inj later).symm

theorem leaves_of_awaited {thread : Nat} {call : Call} {event : StoreEvent}
    (awaited : Awaited libraries thread call config)
    (registration : call.isRegistration = true)
    (same : ∀ after, next libraries config event = some after →
      StoreScene.registered after.scene thread =
        StoreScene.registered config.scene thread) :
    Leaves libraries thread config event := by
  intro concerned after taken
  cases event with
  | step stepping choice =>
      cases concerned
      obtain ⟨own, op, rest, result, scene, running, -⟩ := Machine.next_step taken
      have arrived : (config.threads thread).request = some own := by
        rw [running]
        rfl
      have equal := awaited.arrived own arrived
      subst equal
      exact leaves_of_registering awaited.holds awaited.bounded registration arrived taken
        (same after taken)
  | arrive arriving incoming =>
      obtain ⟨-, rfl⟩ := Machine.next_arrive taken
      rfl
  | environment tick => cases concerned
  | restart => cases concerned

theorem commit_of_success {thread : Nat} {code user password : ByteString}
    (run : AnyRun (next libraries) (start clock) events config)
    (succeeded : config.threads thread =
      .running (.registerWithInvite code user password) (.done (.bool (.ok true)))) :
    ∃ earlier choice later before after,
      events = earlier ++ .step thread choice :: later ∧
      Run (next libraries) (Leaves libraries thread) (start clock) earlier before ∧
      next libraries before (.step thread choice) = some after ∧
      Run (next libraries) (Leaves libraries thread) after later config ∧
      Registration thread code user before.scene after.scene := by
  have arrived : (config.threads thread).request =
      some (.registerWithInvite code user password) := by
    rw [succeeded]
    rfl
  have registered : StoreScene.registered config.scene thread = some (code, user) :=
    registrationRules_valid.finished_of_holds (holds_of_run run) succeeded
  have awaited := awaited_of_run run arrived
  obtain ⟨earlier, event, later, before, after, split, quiet, unregistered, beforeAwaited,
      taken, changed, rest⟩ :=
    awaited.first_change (fun state => StoreScene.registered state.scene thread ≠ none)
      (fun changed => changed rfl) (by rw [registered]; simp)
  simp only [ne_eq, not_not] at unregistered quiet
  have afterHolds := holds_of_next beforeAwaited.holds taken
  have persists : ∀ claim, StoreScene.registered after.scene thread = some claim →
      claim = (code, user) := by
    intro claim isClaim
    have final := (rest.along _ (fun _ _ _ holds _ taken => holds_of_next holds taken)
      afterHolds).invariant (fun state => StoreScene.registered state.scene thread = some claim)
      (fun _ _ _ isClaim permitted taken => registered_of_next permitted.2 taken isClaim) isClaim
    rw [registered] at final
    exact (Option.some.inj final).symm
  have own : ∃ choice, event = .step thread choice := by
    by_contra foreign
    refine changed ?_
    rw [← unregistered]
    exact registered_of_own (Machine.own_of_next (fun choice same => foreign ⟨choice, same⟩)
      taken)
  obtain ⟨choice, rfl⟩ := own
  refine ⟨earlier, choice, later, before, after, split, ?_, taken, ?_, ?_⟩
  · have none := quiet.along (fun state => StoreScene.registered state.scene thread = none)
      (fun _ _ after _ permitted taken => permitted.2 after taken) rfl
    refine none.weaken fun state event facts => ?_
    exact leaves_of_awaited facts.1.1 rfl fun reached stepped =>
      (facts.1.2 reached stepped).trans facts.2.symm
  · obtain ⟨claim, isClaim⟩ := Option.ne_none_iff_exists'.mp changed
    have some := rest.along
      (fun state => StoreScene.registered state.scene thread = some claim)
      (fun _ _ _ isClaim permitted taken =>
        registered_of_next permitted.holds taken isClaim) isClaim
    refine some.weaken fun state event facts => ?_
    exact leaves_of_awaited facts.1 rfl fun reached stepped =>
      (registered_of_next facts.1.holds stepped facts.2).trans facts.2.symm
  · rcases guarantee_of_next beforeAwaited.holds taken with
      ⟨same, -⟩ | ⟨otherCode, otherUser, registration⟩
    · exact absurd (same.trans unregistered) changed
    · cases persists _ registration.registered
      exact registration

def Erased (thread : Nat) (world shadow : World) : Prop := shadow = world.without thread

theorem erased_of_failure {thread : Nat} {code user password : ByteString} {error : Error}
    (run : AnyRun (next libraries) (start clock) events config)
    (failed : config.threads thread =
      .running (.registerWithInvite code user password) (.done (.bool (.error error)))) :
    Run (next libraries) (Leaves libraries thread) (start clock) events config ∧
      ∃ shadow, AnyRun (next libraries) (start clock)
          (events.filter fun event => event.thread ≠ some thread) shadow ∧
        StoreScene.tables shadow.scene = StoreScene.tables config.scene ∧
        ∀ other, other ≠ thread → shadow.threads other = config.threads other := by
  have arrived : (config.threads thread).request =
      some (.registerWithInvite code user password) := by
    rw [failed]
    rfl
  have uncommitted : StoreScene.hasCommitted config.scene thread = false :=
    registrationRules_valid.finished_of_holds (holds_of_run run) failed
  have unregistered : StoreScene.registered config.scene thread = none :=
    registered_of_uncommitted uncommitted
  have awaited := awaited_of_run run arrived
  obtain ⟨-, never⟩ := awaited.never
    (fun state => StoreScene.registered state.scene thread ≠ none)
    (fun state event after changed permitted taken => by
      obtain ⟨claim, isClaim⟩ := Option.ne_none_iff_exists'.mp changed
      rw [registered_of_next permitted.holds taken isClaim]
      simp)
    (not_not.mpr unregistered)
  simp only [ne_eq, not_not] at never
  have quiet : Run (next libraries) (Leaves libraries thread) (start clock) events config :=
    never.weaken fun state event facts => leaves_of_awaited facts.1 rfl
      fun after taken => (facts.2.2 after taken).trans facts.2.1.symm
  refine ⟨quiet, ?_⟩
  have shadows : ∃ shadow, AnyRun (next libraries) (start clock)
      (events.filter fun event => event.thread ≠ some thread) shadow ∧
      Machine.Shadows (Erased thread) thread config shadow := by
    refine Machine.erase quiet ?_ ?_ ?_ ?_ ⟨rfl, fun _ _ => rfl⟩
    · rintro state choice after shadowWorld leaves taken rfl
      have same := leaves rfl after taken
      obtain ⟨_, op, _, result, scene, _, observed, rfl⟩ := Machine.next_step taken
      exact (without_of_own (performed_of_observe observed) same).symm
    · rintro other op choice world shadowWorld result reached different rfl performed
      exact ⟨_, perform_without different performed, rfl⟩
    · rintro tick world shadowWorld reached rfl happened
      cases tick
      cases happened
      exact ⟨_, rfl, rfl⟩
    · rintro world shadowWorld rfl
      simp [Erased, machine, World.recover, World.without]
  obtain ⟨shadow, shadowRun, alike, threads⟩ := shadows
  refine ⟨shadow, shadowRun, ?_, threads⟩
  rw [Erased] at alike
  simp only [StoreScene.tables, alike]
  exact Database.rollback_committed

theorem registered_of_success (run : AnyRun (next libraries) (start clock) events config)
    {thread : Nat} {code user password : ByteString}
    (succeeded : config.threads thread =
      .running (.registerWithInvite code user password) (.done (.bool (.ok true)))) :
    StoreScene.registered config.scene thread = some (code, user) :=
  registrationRules_valid.finished_of_holds (holds_of_run run) succeeded

theorem eq_of_success (run : AnyRun (next libraries) (start clock) events config)
    {one two : Nat} {code oneUser onePassword twoUser twoPassword : ByteString}
    (oneSucceeded : config.threads one =
      .running (.registerWithInvite code oneUser onePassword) (.done (.bool (.ok true))))
    (twoSucceeded : config.threads two =
      .running (.registerWithInvite code twoUser twoPassword) (.done (.bool (.ok true)))) :
    one = two :=
  (holds_of_run run).1.single one two code oneUser twoUser
    (registered_of_success run oneSucceeded) (registered_of_success run twoSucceeded)

theorem invite_of_success (run : AnyRun (next libraries) (start clock) events config)
    {thread : Nat} {code user password : ByteString}
    (succeeded : config.threads thread =
      .running (.registerWithInvite code user password) (.done (.bool (.ok true)))) :
    ∃ row ∈ (StoreScene.tables config.scene).invites.rows, row.code = code ∧
      row.usedAt.isSome ∧ row.usedByUser = some user ∧
      ∀ other ∈ (StoreScene.tables config.scene).invites.rows,
        other.usedByUser = some user → other = row := by
  have consistent : Consistent config.scene := (holds_of_run run).1
  obtain ⟨row, member, rowCode, used, usedBy⟩ :=
    consistent.invite thread code user (registered_of_success run succeeded)
  refine ⟨row, member, rowCode, used, usedBy, ?_⟩
  exact fun other otherMem otherUsedBy =>
    consistent.attributed.injective other otherMem row member user otherUsedBy usedBy

theorem used_of_run (run : AnyRun (next libraries) (start clock) events config)
    {later : List StoreEvent} {final : StoreConfig}
    (rest : AnyRun (next libraries) config later final) :
    ∀ row ∈ (StoreScene.tables config.scene).invites.rows, row.usedAt.isSome →
      row ∈ (StoreScene.tables final.scene).invites.rows :=
  fun row member used => (evolves_of_run (holds_of_run run) rest).used row member used

end Runs

end Grunt.Storage
