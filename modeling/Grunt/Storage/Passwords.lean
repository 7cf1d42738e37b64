import Grunt.Storage.Hashes

/-! # Changes of passwords

`ChangePassword` reads the hash, hashes the new password and writes it, each in
a step of its own. What a call has read is followed through the writes of all
calls to the moment at which it writes.
-/

namespace Grunt.Storage

open Foundation

/-! ## What is changed in a run -/

/-- A password that a call has written, and the hash in force just before. -/
structure Change where
  thread : Nat
  user : ByteString
  currentPassword : ByteString
  before : Option ByteString
  hash : ByteString
deriving DecidableEq, Repr

def changed (config : StoreConfig) : StoreEvent → List Change
  | .step thread choice =>
      match config.threads thread with
      | .running (.changePassword _ currentPassword _)
          (.perform (.exec false (.setPassword user hash)) _) =>
          match config.scene.world.exec thread false (.setPassword user hash) choice.fault with
          | some (.ok _, _) =>
              [⟨thread, user, currentPassword,
                config.scene.world.database.committed.hashOf user, hash⟩]
          | _ => []
      | _ => []
  | _ => []

/-- The changes of a run, in order. -/
def changes (libraries : Libraries) (clock : Instant) (events : List StoreEvent) : List Change :=
  trace (next libraries) changed (start clock) events

def Change.Verified (libraries : Libraries) (change : Change) : Prop :=
  ∃ hash, change.before = some hash ∧
    libraries.bcryptCompare hash change.currentPassword = true

structure Linearizable (libraries : Libraries) (config : StoreConfig) (changes : List Change) :
    Prop where
  /-- A call that reports success has made a change. -/
  reported : ∀ thread userID currentPassword newPassword,
    config.threads thread =
      .running (.changePassword userID currentPassword newPassword) (.done (.unit (.ok ()))) →
    ∃ change ∈ changes, change.thread = thread ∧ change.user = userID ∧
      change.currentPassword = currentPassword
  verified : ∀ change ∈ changes, change.Verified libraries
  /-- Who changes a password next knows the one that was written. -/
  notOverwritten : ∀ earlier first between second later,
    changes = earlier ++ first :: between ++ second :: later → second.user = first.user →
    (∀ change ∈ between, change.user ≠ first.user) →
    libraries.bcryptCompare first.hash second.currentPassword = true

/-! ## What a call has read -/

/-- A hash that was read, and what was written over it since. -/
structure Followed where
  read : ByteString
  written : Option ByteString
deriving DecidableEq, Repr

namespace Followed

/-- The hash that is in force now. -/
def current (followed : Followed) : ByteString := followed.written.getD followed.read

def informs (libraries : Libraries) (followed : Followed) (password : ByteString) : Bool :=
  followed.written.all fun hash => libraries.bcryptCompare hash password

end Followed

/-- What one operation does to the hash of `user` that `thread` has read. -/
def follow (thread : Nat) (user : ByteString) (known : Option Followed) :
    Performed Op Op.Result → Option Followed
  | ⟨reader, .query false (.passwordHash name), .ok (some (some hash))⟩ =>
      if reader = thread ∧ name = user then some ⟨hash, none⟩ else known
  | ⟨_, .exec false (.setPassword name hash), .ok _⟩ =>
      if name = user then known.map fun followed => ⟨followed.read, some hash⟩ else known
  | _ => known

/-- The last hash of `user` that `thread` has read. -/
def followed (thread : Nat) (user : ByteString) (history : List (Performed Op Op.Result)) :
    Option Followed :=
  history.foldl (follow thread user) none

/-- A call that is about to write knows the password it writes over: nothing
has been written since it read the hash, or the last that was is verified by
the current password it was given. -/
def informed (libraries : Libraries) (config : StoreConfig) : StoreEvent → Bool
  | .step thread choice =>
      match config.threads thread with
      | .running (.changePassword _ currentPassword _)
          (.perform (.exec false (.setPassword user _)) _) =>
          choice.fault || (followed thread user config.scene.history).all fun followed =>
            followed.informs libraries currentPassword
      | _ => true
  | _ => true

section Follow

variable {thread : Nat} {user : ByteString}

theorem followed_snoc (history : List (Performed Op Op.Result))
    (performed : Performed Op Op.Result) :
    followed thread user (history ++ [performed]) =
      follow thread user (followed thread user history) performed := by
  rw [followed, List.foldl_append]
  rfl

theorem read_follow {known other : Option Followed} (performed : Performed Op Op.Result)
    (same : known.map Followed.read = other.map Followed.read) :
    (follow thread user known performed).map Followed.read =
      (follow thread user other performed).map Followed.read := by
  unfold follow
  split
  · split
    · rfl
    · exact same
  · split
    · rw [Option.map_map, Option.map_map]
      exact same
    · exact same
  · exact same

theorem read_follow_other {known : Option Followed} {performed : Performed Op Op.Result}
    (foreign : performed.thread ≠ thread) :
    (follow thread user known performed).map Followed.read = known.map Followed.read := by
  unfold follow
  split
  · rw [if_neg fun both => foreign both.1]
  · split
    · rw [Option.map_map]
      rfl
    · rfl
  · rfl

theorem read_followed (history : List (Performed Op Op.Result)) :
    (followed thread user history).map Followed.read =
      (followed thread user (history.filter (·.thread = thread))).map Followed.read := by
  induction history using List.reverseRecOn with
  | nil => rfl
  | append_singleton history performed induction =>
      rw [followed_snoc, List.filter_append]
      by_cases own : performed.thread = thread
      · rw [List.filter_singleton, decide_eq_true own, cond_true, followed_snoc]
        exact read_follow performed induction
      · rw [List.filter_singleton, decide_eq_false own, cond_false, List.append_nil, ← induction]
        exact read_follow_other own

end Follow

/-! ## What a call has done -/

def PasswordNeeds (libraries : Libraries) (thread : Nat) (call : Call) (op : Op)
    (seen : List (Performed Op Op.Result)) : Prop :=
  op.isServed = true ∧ ∀ user hash, op = .exec false (.setPassword user hash) →
    ∃ currentPassword newPassword read,
      call = .changePassword user currentPassword newPassword ∧
      followed thread user seen = some ⟨read, none⟩ ∧
      libraries.bcryptCompare read currentPassword = true

def PasswordDone (thread : Nat) (call : Call) (reply : Reply)
    (seen : List (Performed Op Op.Result)) : Prop :=
  ∀ userID currentPassword newPassword,
    call = .changePassword userID currentPassword newPassword → reply = .unit (.ok ()) →
    ∃ hash outcome, ⟨thread, .exec false (.setPassword userID hash), .ok outcome⟩ ∈ seen

def PasswordTracks (libraries : Libraries) (thread : Nat) (call : Call)
    (rest : StoreProgram Reply) (seen : List (Performed Op Op.Result)) : Prop :=
  Machine.Obeys thread (PasswordNeeds libraries thread call) (PasswordDone thread call) rest seen

section Calls

variable {libraries : Libraries} {thread : Nat}

theorem verifyUser_obeys (call : Call) (user password : ByteString) :
    Machine.Obeys thread (PasswordNeeds libraries thread call)
      (fun result seen => result = .ok true → ∃ read,
        followed thread user seen = some ⟨read, none⟩ ∧
          libraries.bcryptCompare read password = true)
      (Store.verifyUser libraries user password) [] := by
  refine ⟨⟨rfl, nofun⟩, fun result => ?_⟩
  rcases result with error | none | none | hash
  · exact nofun
  · exact nofun
  · exact nofun
  · intro verified
    exact ⟨hash, by simp [followed, follow], Except.ok.inj verified⟩

theorem changePassword_obeys (userID currentPassword newPassword : ByteString) :
    Machine.Obeys thread
      (PasswordNeeds libraries thread (.changePassword userID currentPassword newPassword))
      (fun result seen => result = .ok () → ∃ hash outcome,
        ⟨thread, .exec false (.setPassword userID hash), .ok outcome⟩ ∈ seen)
      (Store.changePassword libraries userID currentPassword newPassword) [] := by
  apply (verifyUser_obeys _ userID currentPassword).bind
  intro result seen verified
  rcases result with error | verdict | verdict
  · exact nofun
  · exact nofun
  · rcases verified rfl with ⟨read, reads, same⟩
    refine ⟨⟨rfl, nofun⟩, fun result => ?_⟩
    cases result with
    | error error => exact nofun
    | ok new =>
        refine ⟨⟨rfl, ?_⟩, fun result => ?_⟩
        · intro user hash writes
          cases writes
          refine ⟨currentPassword, newPassword, read, rfl, ?_, same⟩
          rw [followed_snoc, reads]
          rfl
        · cases result with
          | error error => exact nofun
          | ok outcome => exact fun _ => ⟨new, outcome, by simp⟩

theorem changePassword_tracks (userID currentPassword newPassword : ByteString) :
    PasswordTracks libraries thread (.changePassword userID currentPassword newPassword)
      (Call.run libraries (.changePassword userID currentPassword newPassword)) [] := by
  apply (changePassword_obeys userID currentPassword newPassword).bind
  intro result seen done user current new same success
  cases same
  cases success
  exact done rfl

def Op.keepsPasswords (op : Op) : Prop :=
  op.isServed = true ∧ ∀ user hash, op ≠ .exec false (.setPassword user hash)

theorem Op.keepsPasswords_of_isLookup {op : Op} (lookup : op.isLookup = true) :
    op.keepsPasswords := by
  constructor
  · cases op with
    | exec inTx statement => cases lookup
    | _ => rfl
  · rintro user hash rfl
    cases lookup

theorem Call.run_keepsPasswords {call : Call}
    (other : ∀ userID currentPassword newPassword,
      call ≠ .changePassword userID currentPassword newPassword) :
    (call.run libraries).Only Op.keepsPasswords := by
  apply Call.run_only fun _ => Op.keepsPasswords_of_isLookup
  intro op permitted
  unfold Call.permits at permitted
  split at permitted <;>
    simp_all [Op.keepsPasswords, Op.isServed, Statement.isStaged]

theorem passwords_tracking :
    Machine.Tracking (Call.run libraries) (PasswordTracks libraries) where
  initially := by
    intro thread call
    by_cases changing : ∃ userID current new, call = .changePassword userID current new
    · rcases changing with ⟨userID, current, new, rfl⟩
      exact changePassword_tracks userID current new
    · have other : ∀ userID current new, call ≠ .changePassword userID current new :=
        fun userID current new same => changing ⟨userID, current, new, same⟩
      have kept : Machine.Obeys thread (PasswordNeeds libraries thread call)
          (fun _ _ => True) (call.run libraries) [] :=
        Machine.obeys_of_only (Call.run_keepsPasswords other)
          (fun op _ keeps _ => ⟨keeps.1, fun user hash same => absurd same (keeps.2 user hash)⟩)
          (fun _ _ _ _ _ => trivial) trivial
      apply kept.mono
      intro reply seen _ userID current new same
      exact absurd same (other userID current new)
  kept := fun _ _ _ _ _ result tracks => tracks.2 result

end Calls

/-! ## The invariant of a run -/

/-- What is known of every state: what a thread has read and followed is what
is in force, and whoever has written a password has it among the changes. -/
structure Following (libraries : Libraries) (config : StoreConfig) : Prop where
  staged : config.scene.world.Staged
  tracked : Machine.Tracked (PasswordTracks libraries) config
  current : ∀ thread user known, followed thread user config.scene.history = some known →
    config.scene.world.database.committed.Has user (some known.current)

section Invariant

variable {libraries : Libraries} {thread : Nat} {choice : Choice} {world reached : World}
variable {user : ByteString}

theorem following_start (clock : Instant) : Following libraries (start clock) where
  staged := World.staged_of_idle rfl
  tracked := Machine.tracked_start
  current := nofun

def rehashed (user : ByteString) (hash : Option ByteString) :
    Performed Op Op.Result → Option ByteString
  | ⟨_, .exec false statement, .ok _⟩ => statement.rehash user hash
  | _ => hash

theorem has_of_perform {op : Op} {result : op.Result} {hash : Option ByteString}
    (staged : world.Staged)
    (performed : perform libraries thread op choice world = some (result, reached))
    (has : world.database.committed.Has user hash) :
    reached.database.committed.Has user (rehashed user hash ⟨thread, op, result⟩) := by
  by_cases writing : ∃ statement, op = .exec false statement
  · rcases writing with ⟨statement, rfl⟩
    rcases perform_exec performed with
      ⟨rfl, error, rfl⟩ | ⟨-, outcome, tables, rfl, applied, rfl⟩
    · exact has
    · exact (Statement.has_of_apply applied).mpr (.inl ⟨hash, has, rfl⟩)
  · have kept : rehashed user hash ⟨thread, op, result⟩ = hash := by
      unfold rehashed
      split
      case h_1 statement outcome same =>
        cases same
        exact absurd ⟨_, rfl⟩ writing
      case h_2 => rfl
    rw [kept]
    cases changes_of_perform performed with
    | unchanged same => rwa [same]
    | statement _ applied => exact absurd ⟨_, rfl⟩ writing
    | commit held =>
        rcases (staged _ _ held).users with ⟨added, rows, -⟩
        exact has.of_append rows

theorem current_of_perform {op : Op} {result : op.Result} {known : Option Followed}
    {reader : Nat} (staged : world.Staged)
    (performed : perform libraries thread op choice world = some (result, reached))
    (current : ∀ followed, known = some followed →
      world.database.committed.Has user (some followed.current)) :
    ∀ followed, follow reader user known ⟨thread, op, result⟩ = some followed →
      reached.database.committed.Has user (some followed.current) := by
  intro after same
  have rewritten : ∀ known, world.database.committed.Has user known →
      reached.database.committed.Has user (rehashed user known ⟨thread, op, result⟩) :=
    fun _ has => has_of_perform staged performed has
  unfold follow at same
  split at same
  case h_1 name hash read =>
    cases read
    have kept := perform_read rfl performed
    subst kept
    split at same
    case isTrue own =>
      cases same
      rw [← own.2]
      exact Query.eval_passwordHash.mp (perform_query performed)
    case isFalse => exact current after same
  case h_2 name hash outcome write =>
    cases write
    split at same
    case isTrue named =>
      rcases Option.map_eq_some_iff.mp same with ⟨before, rfl, rfl⟩
      have has := rewritten _ (current before rfl)
      simp only [rehashed, Statement.rehash, if_pos named] at has
      exact has
    case isFalse unnamed =>
      have has := rewritten _ (current after same)
      simpa only [rehashed, Statement.rehash, if_neg unnamed] using has
  case h_3 unread unwritten =>
    have has := rewritten _ (current after same)
    have kept : rehashed user (some after.current) ⟨thread, op, result⟩ =
        some after.current := by
      unfold rehashed
      split
      case h_1 statement outcome write =>
        cases statement with
        | setPassword name hash => exact absurd write (unwritten _ _ _ _)
        | _ => rfl
      case h_2 => rfl
    rwa [kept] at has

variable {config after : StoreConfig} {event : StoreEvent}

theorem Following.next (following : Following libraries config)
    (taken : Storage.next libraries config event = some after) :
    Following libraries after := by
  have tracked := following.tracked.next passwords_tracking taken
  cases event with
  | arrive thread call =>
      rcases Machine.next_arrive taken with ⟨-, rfl⟩
      exact ⟨following.staged, tracked, following.current⟩
  | step thread choice =>
      rcases Machine.next_step taken with ⟨call, op, rest, result, scene, running, observed, rfl⟩
      have performed := performed_of_observe observed
      have history := (Machine.observe_eq_some.mp observed).2
      have served := ((following.tracked thread).2 call _ running).1.1
      refine ⟨following.staged.perform served performed, tracked, ?_⟩
      intro reader user known same
      simp only [Config.set, history, followed_snoc] at same
      exact current_of_perform following.staged performed
        (fun followed read => following.current reader user followed read) known same
  | environment tick =>
      rcases Machine.next_environment taken with ⟨world, ticked, rfl⟩
      cases tick with
      | advance elapsed =>
          cases ticked
          exact ⟨following.staged, tracked, following.current⟩
  | restart =>
      have restarted := Machine.next_restart taken
      subst restarted
      exact ⟨World.staged_of_idle rfl, tracked, following.current⟩

theorem Following.reads (following : Following libraries config) {call : Call}
    {hash : ByteString} {rest : Except SqlError Outcome → StoreProgram Reply}
    (running : config.threads thread =
      .running call (.perform (.exec false (.setPassword user hash)) rest)) :
    ∃ currentPassword newPassword known,
      call = .changePassword user currentPassword newPassword ∧
      followed thread user config.scene.history = some known ∧
      libraries.bcryptCompare known.read currentPassword = true := by
  have needs := ((following.tracked thread).2 call _ running).1.2 user hash rfl
  rcases needs with ⟨currentPassword, newPassword, read, rfl, own, verified⟩
  have same : (followed thread user config.scene.history).map Followed.read =
      (followed thread user (config.scene.history.filter (·.thread = thread))).map
        Followed.read := read_followed config.scene.history
  rw [Scene.own] at own
  rw [own] at same
  rcases Option.map_eq_some_iff.mp same with ⟨known, reads, rfl⟩
  exact ⟨currentPassword, newPassword, known, rfl, reads, verified⟩

/-- A step that makes a change, and what the call has followed until then. -/
structure Writes (libraries : Libraries) (config : StoreConfig) (event : StoreEvent)
    (change : Change) (known : Followed) : Prop where
  event_eq : ∃ choice, event = .step change.thread choice
  running : ∃ newPassword rest, config.threads change.thread =
    .running (.changePassword change.user change.currentPassword newPassword)
      (.perform (.exec false (.setPassword change.user change.hash)) rest)
  verified : libraries.bcryptCompare known.read change.currentPassword = true
  has : config.scene.world.database.committed.Has change.user (some known.current)
  before : change.before = some known.current
  informed : informed libraries config event = known.informs libraries change.currentPassword

theorem changed_of_other {op : Op} {call : Call} {rest : op.Result → StoreProgram Reply}
    (running : config.threads thread = .running call (.perform op rest))
    (other : ∀ user hash, op ≠ .exec false (.setPassword user hash)) :
    changed config (.step thread choice) = [] ∧
      informed libraries config (.step thread choice) = true := by
  constructor
  · simp only [changed, running]
    split
    case h_1 _ _ _ user hash rest same =>
      cases same
      exact absurd rfl (other user hash)
    case h_2 => rfl
  · simp only [Storage.informed, running]
    split
    case h_1 _ _ _ user hash rest same =>
      cases same
      exact absurd rfl (other user hash)
    case h_2 => rfl

/-- What a step makes of the passwords: those of the users that it changes are
the new ones, and no others have been written. -/
structure Changing (config after : StoreConfig) (changes : List Change) : Prop where
  has : ∀ user hash, config.scene.world.database.committed.Has user hash →
    (∀ change ∈ changes, change.user ≠ user) →
    after.scene.world.database.committed.Has user hash
  changed : ∀ change ∈ changes,
    after.scene.world.database.committed.Has change.user (some change.hash)
  written : ∀ thread user hash outcome,
    ⟨thread, .exec false (.setPassword user hash), .ok outcome⟩ ∈ after.scene.history →
    ⟨thread, .exec false (.setPassword user hash), .ok outcome⟩ ∈ config.scene.history ∨
      ∃ change ∈ changes, change.thread = thread ∧ change.user = user

theorem changing_nil {op : Op} {result : op.Result} (staged : config.scene.world.Staged)
    (performed : perform libraries thread op choice config.scene.world =
      some (result, after.scene.world))
    (history : after.scene.history = config.scene.history ++ [⟨thread, op, result⟩])
    (quiet : ∀ user hash outcome, (⟨thread, op, result⟩ : Performed Op Op.Result) ≠
      ⟨thread, .exec false (.setPassword user hash), .ok outcome⟩) :
    Changing config after [] where
  has := by
    intro user hash has _
    have kept : rehashed user hash ⟨thread, op, result⟩ = hash := by
      unfold rehashed
      split
      case h_1 statement outcome write =>
        cases statement with
        | setPassword name new =>
            cases write
            exact absurd rfl (quiet name new _)
        | _ => rfl
      case h_2 => rfl
    have later := has_of_perform staged performed has
    rwa [kept] at later
  changed := nofun
  written := by
    intro other user hash outcome member
    rw [history, List.mem_append, List.mem_singleton] at member
    rcases member with earlier | new
    · exact .inl earlier
    · cases new
      exact absurd rfl (quiet user hash outcome)

theorem changing_one (change : Change) {old : Option ByteString} {outcome : Outcome}
    (staged : config.scene.world.Staged)
    (has : config.scene.world.database.committed.Has change.user old)
    (performed : perform libraries change.thread
      (.exec false (.setPassword change.user change.hash)) choice config.scene.world =
        some ((.ok outcome : Except SqlError Outcome), after.scene.world))
    (history : after.scene.history = config.scene.history ++
      [⟨change.thread, .exec false (.setPassword change.user change.hash),
        (.ok outcome : Except SqlError Outcome)⟩]) :
    Changing config after [change] where
  has := by
    intro name old before other
    have different := other _ List.mem_cons_self
    have later := has_of_perform staged performed before
    rwa [rehashed, Statement.rehash, if_neg different] at later
  changed := by
    intro other member
    rw [List.mem_singleton.mp member]
    have later := has_of_perform staged performed has
    rwa [rehashed, Statement.rehash, if_pos rfl] at later
  written := by
    intro other name given outcome member
    rw [history, List.mem_append, List.mem_singleton] at member
    rcases member with earlier | same
    · exact .inl earlier
    · cases same
      exact .inr ⟨change, List.mem_cons_self, rfl, rfl⟩

theorem Following.changed_cases (following : Following libraries config)
    (taken : Storage.next libraries config event = some after) :
    Changing config after (changed config event) ∧
      ((changed config event = [] ∧ informed libraries config event = true) ∨
        ∃ change known, changed config event = [change] ∧
          Writes libraries config event change known) := by
  cases event with
  | arrive thread call =>
      rcases Machine.next_arrive taken with ⟨-, rfl⟩
      exact ⟨⟨fun _ _ has _ => has, nofun, fun _ _ _ _ member => .inl member⟩, .inl ⟨rfl, rfl⟩⟩
  | environment tick =>
      rcases Machine.next_environment taken with ⟨world, ticked, rfl⟩
      cases tick with
      | advance elapsed =>
          cases ticked
          exact ⟨⟨fun _ _ has _ => has, nofun, fun _ _ _ _ member => .inl member⟩,
            .inl ⟨rfl, rfl⟩⟩
  | restart =>
      have restarted := Machine.next_restart taken
      subst restarted
      exact ⟨⟨fun _ _ has _ => has, nofun, fun _ _ _ _ member => .inl member⟩, .inl ⟨rfl, rfl⟩⟩
  | step thread choice =>
      rcases Machine.next_step taken with ⟨call, op, rest, result, scene, running, observed, rfl⟩
      have performed := performed_of_observe observed
      have history := (Machine.observe_eq_some.mp observed).2
      by_cases writing : ∃ user hash, op = .exec false (.setPassword user hash)
      · rcases writing with ⟨user, hash, rfl⟩
        rcases following.reads running with ⟨current, new, known, rfl, reads, verified⟩
        have has := following.current _ _ known reads
        have executed : config.scene.world.exec thread false (.setPassword user hash)
            choice.fault = some (result, scene.world) := performed
        rcases exec_cases performed with
          ⟨fault, rfl, -⟩ | ⟨healthy, -, ⟨outcome, tables, rfl, -⟩ | ⟨error, rfl, applied, -⟩⟩
        · have none : changed config (.step thread choice) = [] := by
            simp only [changed, running, executed]
          rw [none]
          refine ⟨changing_nil following.staged performed history nofun, .inl ⟨rfl, ?_⟩⟩
          simp [informed, running, fault]
        · have one : changed config (.step thread choice) =
              [⟨thread, user, current, some known.current, hash⟩] := by
            simp [changed, running, executed, has.hashOf]
          rw [one]
          refine ⟨changing_one _ following.staged has performed history,
            .inr ⟨_, known, rfl, ⟨choice, rfl⟩, ⟨new, rest, running⟩, verified, has, rfl, ?_⟩⟩
          simp [informed, running, reads, healthy]
        · cases applied
      · have other : ∀ user hash, op ≠ .exec false (.setPassword user hash) :=
          fun user hash same => writing ⟨user, hash, same⟩
        have quiet : changed config (.step thread choice) = [] ∧
            informed libraries config (.step thread choice) = true :=
          changed_of_other running other
        rw [quiet.1]
        refine ⟨changing_nil following.staged performed history ?_, .inl ⟨rfl, quiet.2⟩⟩
        intro user hash outcome same
        cases same
        exact other user hash rfl

theorem verified_iff {change : Change} {known : Followed}
    (writes : Writes libraries config event change known) :
    change.Verified libraries ↔ informed libraries config event = true := by
  rw [writes.informed, Change.Verified, writes.before, Followed.informs]
  have verified := writes.verified
  rcases known with ⟨read, none | hash⟩
  · simpa [Followed.current] using verified
  · simp [Followed.current]

theorem Following.changed_verified_iff (following : Following libraries config)
    (taken : Storage.next libraries config event = some after) :
    (∀ change ∈ changed config event, change.Verified libraries) ↔
      informed libraries config event = true := by
  rcases (following.changed_cases taken).2 with
    ⟨none, informs⟩ | ⟨change, known, one, writes⟩
  · rw [none]
    simpa using informs
  · rw [one]
    simpa using verified_iff writes

end Invariant

/-! ## The changes of a run -/

/-- The changes so far account for the passwords that were written and for the
hashes that were written over. -/
structure Chronicle (libraries : Libraries) (config : StoreConfig) (seen : List Change) :
    Prop where
  following : Following libraries config
  written : ∀ thread user hash outcome,
    ⟨thread, .exec false (.setPassword user hash), .ok outcome⟩ ∈ config.scene.history →
    ∃ change ∈ seen, change.thread = thread ∧ change.user = user
  own : ∀ change ∈ seen, ∃ newPassword, (config.threads change.thread).request =
    some (.changePassword change.user change.currentPassword newPassword)
  newest : ∀ earlier change later, seen = earlier ++ change :: later →
    (∀ other ∈ later, other.user ≠ change.user) →
    config.scene.world.database.committed.Has change.user (some change.hash)
  chained : ∀ earlier first between second later,
    seen = earlier ++ first :: between ++ second :: later → second.user = first.user →
    (∀ change ∈ between, change.user ≠ first.user) → second.before = some first.hash

section Chronicle

variable {libraries : Libraries} {config after : StoreConfig} {event : StoreEvent}
variable {seen : List Change}

theorem chronicle_start (clock : Instant) : Chronicle libraries (start clock) [] where
  following := following_start clock
  written := nofun
  own := nofun
  newest := by simp
  chained := by simp

theorem eq_or_of_append_cons {earlier later : List Change} {new change : Change}
    (parts : seen ++ [new] = earlier ++ change :: later) :
    (later = [] ∧ seen = earlier ∧ new = change) ∨
      ∃ front, later = front ++ [new] ∧ seen = earlier ++ change :: front := by
  rcases List.eq_nil_or_concat later with rfl | ⟨front, last, rfl⟩
  · rcases List.append_inj' parts rfl with ⟨rfl, same⟩
    cases same
    exact .inl ⟨rfl, rfl, rfl⟩
  · rw [List.concat_eq_append, ← List.cons_append, ← List.append_assoc] at parts
    rcases List.append_inj' parts rfl with ⟨rfl, same⟩
    cases same
    exact .inr ⟨front, List.concat_eq_append, rfl⟩

theorem Chronicle.written_next (chronicle : Chronicle libraries config seen)
    (changing : Changing config after (changed config event)) {thread : Nat}
    {user hash : ByteString} {outcome : Outcome}
    (member : ⟨thread, .exec false (.setPassword user hash), .ok outcome⟩ ∈ after.scene.history) :
    ∃ change ∈ seen ++ changed config event, change.thread = thread ∧ change.user = user := by
  rcases changing.written thread user hash outcome member with earlier | ⟨change, inside, own⟩
  · rcases chronicle.written thread user hash outcome earlier with ⟨change, inside, own⟩
    exact ⟨change, List.mem_append_left _ inside, own⟩
  · exact ⟨change, List.mem_append_right _ inside, own⟩

theorem Chronicle.own_next (chronicle : Chronicle libraries config seen)
    (taken : Storage.next libraries config event = some after) {change : Change}
    (member : change ∈ seen ++ changed config event) :
    ∃ newPassword, (after.threads change.thread).request =
      some (.changePassword change.user change.currentPassword newPassword) := by
  rcases List.mem_append.mp member with earlier | new
  · rcases chronicle.own change earlier with ⟨newPassword, arrived⟩
    exact ⟨newPassword, Machine.request_of_next arrived taken⟩
  · rcases (chronicle.following.changed_cases taken).2 with
      ⟨none, -⟩ | ⟨only, known, one, writes⟩
    · rw [none] at new
      cases new
    · rw [one, List.mem_singleton] at new
      subst new
      rcases writes.running with ⟨newPassword, rest, running⟩
      exact ⟨newPassword, Machine.request_of_next (by rw [running]; rfl) taken⟩

theorem Chronicle.next (chronicle : Chronicle libraries config seen)
    (taken : Storage.next libraries config event = some after) :
    Chronicle libraries after (seen ++ changed config event) := by
  rcases chronicle.following.changed_cases taken with ⟨changing, cases⟩
  refine ⟨chronicle.following.next taken, fun _ _ _ _ => chronicle.written_next changing,
    fun _ => chronicle.own_next taken, ?_, ?_⟩
  · intro earlier change later parts others
    rcases cases with ⟨none, -⟩ | ⟨new, known, one, writes⟩
    · rw [none, List.append_nil] at parts
      apply changing.has _ _ (chronicle.newest earlier change later parts others)
      simp [none]
    · rw [one] at parts
      rcases eq_or_of_append_cons parts with ⟨rfl, -, rfl⟩ | ⟨front, rfl, cut⟩
      · exact changing.changed new (by simp [one])
      · have before := chronicle.newest earlier change front cut fun other member =>
          others other (List.mem_append_left _ member)
        apply changing.has _ _ before
        simpa [one] using others new (by simp)
  · intro earlier first between second later parts same others
    rcases cases with ⟨none, -⟩ | ⟨new, known, one, writes⟩
    · rw [none, List.append_nil] at parts
      exact chronicle.chained earlier first between second later parts same others
    · rw [one] at parts
      rcases eq_or_of_append_cons parts with ⟨rfl, cut, rfl⟩ | ⟨front, rfl, cut⟩
      · have has := chronicle.newest earlier first between cut others
        have current := writes.has
        rw [same] at current
        rw [writes.before, current.unique has]
      · exact chronicle.chained earlier first between second front cut same others

theorem chronicle_of_run {clock : Instant} {events : List StoreEvent}
    (run : AnyRun (Storage.next libraries) (start clock) events config) :
    Chronicle libraries config (changes libraries clock events) :=
  run.traced changed (fun config _ seen => Chronicle libraries config seen)
    (fun _ _ _ _ _ chronicle _ taken => chronicle.next taken) (chronicle_start clock)

theorem Chronicle.reported (chronicle : Chronicle libraries config seen) {thread : Nat}
    {userID currentPassword newPassword : ByteString}
    (returned : config.threads thread =
      .running (.changePassword userID currentPassword newPassword) (.done (.unit (.ok ())))) :
    ∃ change ∈ seen, change.thread = thread ∧ change.user = userID ∧
      change.currentPassword = currentPassword := by
  have done : PasswordDone thread (.changePassword userID currentPassword newPassword)
      (.unit (.ok ())) (config.scene.own thread) :=
    (chronicle.following.tracked thread).2 _ _ returned
  rcases done _ _ _ rfl rfl with ⟨hash, outcome, member⟩
  rcases chronicle.written _ _ _ _ (List.mem_filter.mp member).1 with
    ⟨change, inside, rfl, rfl⟩
  rcases chronicle.own change inside with ⟨given, arrived⟩
  rw [returned] at arrived
  cases arrived
  exact ⟨change, inside, rfl, rfl, rfl⟩

theorem Chronicle.linearizable (chronicle : Chronicle libraries config seen)
    (verified : ∀ change ∈ seen, change.Verified libraries) :
    Linearizable libraries config seen where
  reported := fun _ _ _ _ => chronicle.reported
  verified := verified
  notOverwritten := by
    intro earlier first between second later parts same others
    have before := chronicle.chained earlier first between second later parts same others
    rcases verified second (by simp [parts]) with ⟨hash, current, verifies⟩
    rw [before] at current
    cases current
    exact verifies

end Chronicle

/-! ## The main result -/

/-- Changes of passwords are linearizable just when every call that writes one
is informed of what was written since it read. -/
theorem linearizable_iff {libraries : Libraries} {clock : Instant} {events : List StoreEvent}
    {config : StoreConfig} (run : AnyRun (next libraries) (start clock) events config) :
    Linearizable libraries config (changes libraries clock events) ↔
      Run (next libraries) (fun config event => informed libraries config event = true)
        (start clock) events config := by
  have kept : ∀ state event after, Following libraries state →
      next libraries state event = some after → Following libraries after :=
    fun _ _ _ following taken => following.next taken
  have initially : Following libraries (start clock) := following_start clock
  calc Linearizable libraries config (changes libraries clock events)
      ↔ ∀ change ∈ changes libraries clock events, change.Verified libraries :=
        ⟨Linearizable.verified, (chronicle_of_run run).linearizable⟩
    _ ↔ Run (next libraries)
          (fun config event => ∀ change ∈ changed config event, change.Verified libraries)
          (start clock) events config := run.forall_trace_iff
    _ ↔ Run (next libraries) (fun config event => informed libraries config event = true)
          (start clock) events config := by
        constructor
        · intro verified
          exact verified.convert (Following libraries) kept
            (fun _ _ _ following taken => (following.changed_verified_iff taken).mp) initially
        · intro informs
          exact informs.convert (Following libraries) kept
            (fun _ _ _ following taken => (following.changed_verified_iff taken).mpr) initially

/-- Ann changes her password, and a second change waits for it. -/
def oneAfterAnother : List StoreEvent :=
  [.arrive 0 (.createUser (utf8 "ann") (utf8 "old")), .step 0 .plain, .step 0 .plain,
    .arrive 1 (.changePassword (utf8 "ann") (utf8 "old") (utf8 "new")),
    .step 1 .plain, .step 1 .plain, .step 1 .plain,
    .arrive 2 (.changePassword (utf8 "ann") (utf8 "new") (utf8 "newer")),
    .step 2 .plain, .step 2 .plain, .step 2 .plain]

theorem oneAfterAnother_linearizable : ∃ config : StoreConfig,
    Linearizable .transparent config (changes .transparent 0 oneAfterAnother) ∧
      (config.threads 2).response = some (.unit (.ok ())) := by
  have executed : (executeWhere (next Libraries.transparent) (informed .transparent) (start 0)
      oneAfterAnother).map (fun config => (config.threads 2).response) =
        some (some (.unit (.ok ()))) := by
    rfl
  rcases Option.map_eq_some_iff.mp executed with ⟨config, reached, outcome⟩
  have run := run_of_executeWhere reached
  exact ⟨config, (linearizable_iff run.any).mpr run, outcome⟩

def bothVerified : List StoreEvent :=
  [.arrive 0 (.createUser (utf8 "ann") (utf8 "old")), .step 0 .plain, .step 0 .plain,
    .arrive 1 (.changePassword (utf8 "ann") (utf8 "old") (utf8 "mine")),
    .arrive 2 (.changePassword (utf8 "ann") (utf8 "old") (utf8 "yours"))] ++
  [1, 2, 1, 2, 1, 2].map fun thread => .step thread .plain

/-- Both report success, and the second has overwritten the first. -/
theorem bothVerified_not_linearizable :
    ¬ ∀ (events : List StoreEvent) (config : StoreConfig),
      AnyRun (next .transparent) (start 0) events config →
      Linearizable .transparent config (changes .transparent 0 events) := by
  intro all
  have executed : (execute (next Libraries.transparent) (start 0) bothVerified).isSome = true := by
    decide +kernel
  rcases Option.isSome_iff_exists.mp executed with ⟨config, reached⟩
  have linearizable := all bothVerified config (run_of_execute reached)
  have seen : changes .transparent 0 bothVerified =
      [⟨1, utf8 "ann", utf8 "old", some (utf8 "$2a$10$old"), utf8 "$2a$10$mine"⟩,
        ⟨2, utf8 "ann", utf8 "old", some (utf8 "$2a$10$mine"), utf8 "$2a$10$yours"⟩] := by
    decide +kernel
  rcases linearizable.verified _ (seen ▸ List.mem_cons_of_mem _ List.mem_cons_self) with
    ⟨hash, current, verified⟩
  cases current
  revert verified
  decide

end Grunt.Storage
