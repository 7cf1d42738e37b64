import Grunt.Server.Conduct

/-! # The first user becomes the admin

The grant comes two steps after the commit that creates the first user. It is
made unless something gets in between: a restart, the commit of another
registration, a failing statement. No other path makes an admin.
-/

namespace Grunt.Server

open Foundation Storage

def Route.isRegistration : Route → Bool
  | .registerUser | .register => true
  | _ => false

def Quiet (platform : Platform) (config : ServerConfig) : Prop :=
  ∀ thread request rest, config.threads thread = .running request rest →
    (config.threads thread).inFlight = true → (route platform request).isRegistration = false

def FirstUser (platform : Platform) (tables : Tables) (clock : Instant)
    (events : List ServerEvent) (user : ByteString) : Prop :=
  ∃ earlier event later before after, events = earlier ++ event :: later ∧
    AnyRun (next platform) (start tables clock) earlier before ∧
    before.scene.world.tables.users.rows = [] ∧
    next platform before event = some after ∧ after.scene.world.tables.Heads user

/-- Whenever no registration is in flight, the first user is the one admin. -/
def FirstIsAdmin (platform : Platform) (tables : Tables) (clock : Instant)
    (events : List ServerEvent) (config : ServerConfig) : Prop :=
  Quiet platform config → config.scene.world.tables.users.rows ≠ [] →
    ∃ user, FirstUser platform tables clock events user ∧
      config.scene.world.tables.admins = [user]

def AlwaysFirstIsAdmin (platform : Platform) : Prop :=
  ∀ tables clock events config, tables.users.rows = [] →
    AnyRun (next platform) (start tables clock) events config →
    FirstIsAdmin platform tables clock events config

/-! ## What must not come in between -/

/-- Nobody has registered yet, there is an admin, or a registration has counted
one user, which is enough for its grant. -/
def decided (scene : ServerScene) : Bool :=
  scene.world.tables.users.rows.isEmpty || !scene.world.tables.admins.isEmpty ||
    (scene.history.map Performed.thread).any fun other => scene.standing other = .first

/-- Between the commit of the first user and its grant there is no restart, no
other registration commits and no statement of the grant fails. -/
def undisturbed (config : ServerConfig) : ServerEvent → Bool
  | .step thread choice =>
      match config.threads thread with
      | .running _ (.perform (.store .commit) _) => choice.fault || decided config.scene
      | .running _ (.perform (.store (.query false .userCount)) _) =>
          !choice.fault || config.scene.world.tables.users.rows.length ≠ 1 ||
            !config.scene.world.tables.admins.isEmpty
      | .running _ (.perform (.store (.exec false (.setUserAdmin _))) _) => !choice.fault
      | _ => true
  | .restart =>
      config.scene.world.tables.users.rows.isEmpty || !config.scene.world.tables.admins.isEmpty
  | _ => true

def grantTerms : Terms where
  keys := False
  first := True

section Permits

variable {scene : ServerScene} {config : ServerConfig}

theorem roll_eq_nil {tables : Tables} : tables.roll = [] ↔ tables.users.rows = [] := by
  simp [Tables.roll]

theorem roll_length (tables : Tables) : tables.roll.length = tables.users.rows.length := by
  simp [Tables.roll]

theorem opens_of_decided (holds : decided scene = true) : Opens scene := by
  simp only [decided, Bool.or_eq_true, List.isEmpty_iff, Bool.not_eq_true', List.any_eq_true,
    decide_eq_true_eq, List.isEmpty_eq_false_iff] at holds
  rcases holds with (nobody | governed) | ⟨other, -, counted⟩
  · exact .inl (roll_eq_nil.mpr nobody)
  · exact .inr (.inl governed)
  · exact .inr (.inr ⟨other, counted⟩)

theorem permits_of_undisturbed (event : ServerEvent) (free : undisturbed config event = true) :
    (accountRules grantTerms).permits config event := by
  cases event with
  | arrive thread request => trivial
  | environment happening => trivial
  | restart =>
      intro _
      simp only [undisturbed, Bool.or_eq_true, List.isEmpty_iff, Bool.not_eq_true',
        List.isEmpty_eq_false_iff] at free
      exact free.imp roll_eq_nil.mpr id
  | step thread choice =>
      simp only [Rules.permits]
      split
      case h_2 => trivial
      case h_1 request op rest running =>
        change grantTerms.allow op choice config.scene
        unfold Terms.allow
        split
        · exact fun impossible => impossible.elim
        · intro _ faultless
          simp only [undisturbed, running, faultless, Bool.false_or] at free
          exact opens_of_decided free
        · intro _ fault
          simp only [undisturbed, running, fault, Bool.not_true, Bool.false_or, Bool.or_eq_true,
            decide_eq_true_eq, Bool.not_eq_true', List.isEmpty_eq_false_iff] at free
          exact free.imp (fun several => by rwa [roll_length]) id
        · intro _
          simpa only [undisturbed, running, Bool.not_eq_true'] using free
        · trivial

end Permits

/-! ## Who can be on the way to the grant -/

def Travelled (platform : Platform) (request : Request) (rest : ServerProgram Response)
    (seen : List (Performed Op Op.Result)) : Prop :=
  rest.Only (Reaches platform request) ∧
    ∀ performed ∈ seen, Reaches platform request performed.op

theorem travelled_tracking (platform : Platform) :
    Machine.Tracking (serve platform) fun _ => Travelled platform where
  initially := fun _ request => ⟨serve_only platform request, nofun⟩
  kept := fun _ request op next seen result travelled => by
    refine ⟨travelled.1.2 result, fun performed member => ?_⟩
    rcases List.mem_append.mp member with before | last
    · exact travelled.2 performed before
    · rw [List.mem_singleton.mp last]
      exact travelled.1.1

theorem Standing.of_uncommitted {seen : List (Performed Op Op.Result)}
    (none : ∀ performed ∈ seen, performed.op ≠ .store .commit) : Standing.of seen = .fresh := by
  induction seen using List.reverseRecOn with
  | nil => rfl
  | append_singleton seen performed induction =>
      rw [Standing.of_append, induction fun earlier member =>
        none earlier (List.mem_append_left _ member)]
      exact Standing.step_fresh (none performed (List.mem_append_right _ (.head _)))

theorem not_commit_of_reaches {platform : Platform} {request : Request} {op : Op}
    (other : (route platform request).isRegistration = false)
    (reaches : Reaches platform request op) : op ≠ .store .commit := by
  rintro rfl
  rcases reaches with quiet | ⟨identity, permitted⟩
  · cases quiet
  · revert permitted other
    cases route platform request <;> exact nofun

section Runs

variable {platform : Platform} {config : ServerConfig}

theorem not_pending (holds : (accountRules grantTerms).Holds (machine platform) config)
    (travelled : Machine.Tracked (fun _ => Travelled platform) config) (quiet : Quiet platform config)
    (ungoverned : config.scene.world.tables.admins = []) (thread : Nat) :
    ¬ Pending config.scene thread := by
  suffices concluded : Concluded thread config.scene by
    rintro (⟨created, -⟩ | first)
    · rcases concluded with fresh | settled
      · cases created.symm.trans fresh
      · cases created.symm.trans settled
    · rcases concluded with fresh | settled
      · cases first.symm.trans fresh
      · cases first.symm.trans settled
  have threadHolds := holds.2 thread
  cases status : config.threads thread with
  | idle =>
      rw [status] at threadHolds
      left
      rw [ServerScene.standing, threadHolds.1]
      rfl
  | killed request =>
      rw [status] at threadHolds
      exact .inl ((threadHolds trivial).resolve_left (not_not.mpr ungoverned))
  | running request rest =>
      cases rest with
      | done response => exact accountRules_valid.finished_of_holds holds status
      | perform op next =>
          have other := quiet thread request _ status (by rw [status]; rfl)
          have performed := ((travelled thread).2 request _ status).2
          exact .inl (Standing.of_uncommitted fun earlier member =>
            not_commit_of_reaches other (performed earlier member))

theorem Accounts.governed (holds : (accountRules grantTerms).Holds (machine platform) config)
    (travelled : Machine.Tracked (fun _ => Travelled platform) config) (quiet : Quiet platform config)
    (somebody : config.scene.world.tables.users.rows ≠ []) :
    config.scene.world.tables.admins ≠ [] := by
  intro ungoverned
  obtain ⟨thread, pending⟩ :=
    holds.1.first trivial (mt roll_eq_nil.mp somebody) ungoverned
  exact not_pending holds travelled quiet ungoverned thread pending

end Runs

/-! ## Two registrations -/

/-- Tables without users, with two invites. -/
def twoInvites : Tables :=
  let invite := fun code : String => InviteRow.mk (utf8 code) 600 [] none none
  { Tables.created with invites := ⟨[invite "one", invite "two"], by decide⟩ }

/-- Ann and Bob register through the API. Each takes nine steps to commit and end
the transaction; the order of their other steps is given. -/
def twoRegistrations (order : List Nat) : List ServerEvent :=
  let registration := fun (user code : String) =>
    Request.plain (utf8 "POST") (utf8 "/api/user")
      (.ofJson [(utf8 "user", utf8 user), (utf8 "password", utf8 "secret"),
        (utf8 "invite_code", utf8 code)])
  [.arrive 0 (registration "ann" "one"), .arrive 1 (registration "bob" "two")] ++
    order.map fun thread => .step thread .plain

/-- The admins at the end of a run, and whether the two registrations have ended. -/
def ServerConfig.governance (config : ServerConfig) : List ByteString × Bool × Bool :=
  (config.scene.world.tables.admins, (config.threads 0).inFlight, (config.threads 1).inFlight)

theorem quiet_of_registrations {platform : Platform} {tables : Tables} {order : List Nat}
    {config : ServerConfig} {admins : List ByteString}
    (run : AnyRun (next platform) (start tables 0) (twoRegistrations order) config)
    (ended : config.governance = (admins, false, false)) : Quiet platform config := by
  obtain ⟨-, flights⟩ := Prod.mk.inj ended
  obtain ⟨ann, bob⟩ := Prod.mk.inj flights
  rintro (_ | _ | thread) request rest running flying
  · cases flying.symm.trans ann
  · cases flying.symm.trans bob
  · have idle : config.threads (thread + 2) = .idle :=
      Machine.idle_of_run run rfl fun request arriving => by
        simp [twoRegistrations] at arriving
    cases running.symm.trans idle

/-! ## The main result -/

/-- Where nothing gets between the first user and its grant, it is the admin. -/
theorem undisturbed_firstIsAdmin {platform : Platform} {tables : Tables} {clock : Instant}
    {events : List ServerEvent} {config : ServerConfig} (nobody : tables.users.rows = [])
    (run : Run (next platform) (fun config event => undisturbed config event = true)
      (start tables clock) events config) :
    FirstIsAdmin platform tables clock events config := by
  intro quiet somebody
  have permitted := run.weaken fun _ event free => permits_of_undisturbed event free
  have initially : (accountRules grantTerms).Holds (machine platform) (start tables clock) :=
    accounts_start nobody fun impossible => impossible.elim
  have holds := accountRules_valid.sound permitted initially
  have travelled := Machine.tracked_of_run (travelled_tracking platform) run
    Machine.tracked_start
  have governed := Accounts.governed holds travelled quiet somebody
  obtain ⟨earlier, event, later, before, after, rfl, quietRun, empty, allowed, taken, filled,
    rest⟩ := permitted.first_change
      (fun config => config.scene.world.tables.users.rows ≠ []) (not_not.mpr nobody) somebody
  obtain ⟨user, heads⟩ := Tables.exists_heads filled
  have holdsBefore := accountRules_valid.sound
    (quietRun.weaken fun _ _ permitted => permitted.1) initially
  have holdsAfter := accountRules_valid.sound (Run.single allowed taken) holdsBefore
  have final := (grows_of_run holdsAfter rest).heads heads
  exact ⟨user, ⟨earlier, event, later, before, after, rfl, quietRun.any, not_not.mp empty,
    taken, heads⟩, holds.1.led.admins governed final⟩

/-- Bob commits after Ann's registration has counted the users, and Ann becomes
the admin. -/
theorem annFirst_isAdmin : ∃ (config : ServerConfig) (events : List ServerEvent),
    FirstIsAdmin .transparent twoInvites 0 events config ∧
      config.governance = ([utf8 "ann"], false, false) := by
  have executed : (executeWhere (next .transparent) undisturbed (start twoInvites 0)
      (twoRegistrations (List.replicate 9 0 ++ [1, 1, 1, 1, 0] ++ List.replicate 5 1 ++
        [1, 0]))).map ServerConfig.governance = some ([utf8 "ann"], false, false) := by
    decide +kernel
  obtain ⟨config, reached, ended⟩ := Option.map_eq_some_iff.mp executed
  exact ⟨config, _, undisturbed_firstIsAdmin rfl (run_of_executeWhere reached), ended⟩

/-- Both commit before either counts the users, and nobody becomes an admin. -/
theorem not_alwaysFirstIsAdmin : ¬ AlwaysFirstIsAdmin .transparent := by
  intro always
  have executed : (execute (next .transparent) (start twoInvites 0)
      (twoRegistrations (List.replicate 9 0 ++ List.replicate 9 1 ++ [0, 1]))).map
        (fun config => (config.governance, config.scene.world.tables.users.rows.length)) =
          some (([], false, false), 2) := by
    decide +kernel
  obtain ⟨config, reached, summary⟩ := Option.map_eq_some_iff.mp executed
  obtain ⟨ended, users⟩ := Prod.mk.inj summary
  have run := run_of_execute reached
  have somebody : config.scene.world.tables.users.rows ≠ [] := by
    intro none
    simp [none] at users
  obtain ⟨user, -, admins⟩ :=
    always twoInvites 0 _ config rfl run (quiet_of_registrations run ended) somebody
  have nobody : config.scene.world.tables.admins = [] := congrArg Prod.fst ended
  rw [nobody] at admins
  cases admins

end Grunt.Server
