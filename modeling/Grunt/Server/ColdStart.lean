import Grunt.Server.Unopened
import Grunt.Storage.Alone

/-! # Starting the server

`NewWithPort` makes an invite when there are no users, with a code of its own
or the one that `GRUNT_INITIAL_INVITE` fixes. An invite that an earlier start
has left behind keeps its code, so the fixed code serves for one start only.
-/

namespace Grunt.Server

open Foundation Storage

/-! ## `NewWithPort` -/

def generateInviteCode : ServerProgram (Except ByteString ByteString) := do
  match ← (Program.call (Op.random 8) : ServerProgram (Except ByteString ByteString)) with
  | .error error => return .error error
  | .ok bytes => return .ok (Bytes.hexEncode bytes)

def initialCode (setting : ByteString) : ServerProgram (Except ByteString ByteString) :=
  if setting = [] then generateInviteCode else pure (.ok setting)

def createInitialInvite (code : ByteString) : ServerProgram Bool := do
  let issuedAt ← now
  match ← store (Store.createInvite code (issuedAt + World.inviteLifetime) []) with
  | .error _ => return false
  | .ok _ => return true

def coldStart (setting : ByteString) : ServerProgram Bool := do
  match ← initialCode setting with
  | .error _ => return false
  | .ok code => createInitialInvite code

/-- `NewWithPort` on a database that has its tables, up to `NewHub`. It returns
`false` where the source ends the process with `os.Exit(1)`. -/
def newWithPort (setting : ByteString) : ServerProgram Bool := do
  match ← store Store.createUserCount with
  | .error _ => return false
  | .ok count =>
    if count = 0 then coldStart setting
    else return true

/-- What a start meets outside the program. -/
structure Boot where
  /-- `CreateUserCount` fails. -/
  countFails : Bool
  /-- `rand.Read` fails. -/
  drawFails : Bool
  /-- What `rand.Read` draws otherwise. -/
  drawn : ByteString
  /-- `CreateInvite` fails without a reason of its own. -/
  insertFails : Bool
deriving DecidableEq, Repr

namespace Boot

/-- The database and the random source work. -/
def plain (drawn : ByteString) : Boot where
  countFails := false
  drawFails := false
  drawn := drawn
  insertFails := false

def choice (boot : Boot) : Op → Choice
  | .random _ => ⟨boot.drawFails, boot.drawn⟩
  | .store (.query _ _) => ⟨boot.countFails, []⟩
  | .store (.exec _ _) => ⟨boot.insertFails, []⟩
  | _ => .plain

/-- The code that the start tries to insert. -/
def code (boot : Boot) (setting : ByteString) : ByteString :=
  if setting = [] then Bytes.hexEncode boot.drawn else setting

def works (boot : Boot) (setting : ByteString) : Bool :=
  !boot.countFails && !(setting = [] && boot.drawFails) && !boot.insertFails

end Boot

def boot (platform : Platform) (setting : ByteString) (starting : Boot) (world : World) :
    Option (Bool × World) :=
  (newWithPort setting).runWith (perform platform 0) starting.choice world

/-! ### What a start does -/

namespace World

def initialInvite (world : World) (code : ByteString) : InviteRow where
  code := code
  expiresAt := Calendar.unixSeconds (world.store.clock + inviteLifetime)
  createdByUser := []
  usedByUser := none
  usedAt := none

def invited (world : World) (code : ByteString) : Option World :=
  (world.tables.invites.insert (world.initialInvite code)).map fun invites =>
    world.setStore (world.store.setDatabase ⟨{ world.tables with invites := invites }, none⟩)

end World

section Boots

variable {platform : Platform} {setting code : ByteString} {starting : Boot}
variable {world after : World} {succeeded : Bool}

theorem createInitialInvite_eq : createInitialInvite code =
    .perform (.store .now) fun issuedAt =>
      .perform (.store (.exec false (.insertInvite code
        (Calendar.unixSeconds (Int.add issuedAt World.inviteLifetime)) []))) fun result =>
        match result with
        | .error _ => .done false
        | .ok _ => .done true := by
  apply congrArg (Program.perform _)
  funext issuedAt
  apply congrArg (Program.perform _)
  funext result
  cases result <;> rfl

theorem createInitialInvite_runWith (idle : world.store.database.writer = none) :
    (createInitialInvite code).runWith (perform platform 0) starting.choice world =
      match if starting.insertFails then none else world.invited code with
      | some after => some (true, after)
      | none => some (false, world) := by
  have same : world.setStore world.store = world := rfl
  rw [createInitialInvite_eq]
  simp only [Program.runWith, perform, Storage.perform, Boot.choice, Option.map_some, same,
    Storage.World.exec, Bool.false_eq_true, if_false, Database.execute, idle, Statement.apply]
  cases starting.insertFails with
  | true => rfl
  | false =>
      simp only [Bool.false_eq_true, if_false, World.invited, World.initialInvite, World.tables]
      cases world.store.database.committed.invites.insert ⟨code, Calendar.unixSeconds
          (world.store.clock + World.inviteLifetime), [], none, none⟩ <;> rfl

theorem generateInviteCode_bind {α : Type} (rest : Except ByteString ByteString → ServerProgram α) :
    (generateInviteCode >>= rest) = .perform (.random 8) fun drawn =>
      match drawn with
      | .error error => rest (.error error)
      | .ok bytes => rest (.ok (Bytes.hexEncode bytes)) := by
  apply congrArg (Program.perform _)
  funext drawn
  cases drawn <;> rfl

theorem coldStart_runWith (ran : (coldStart setting).runWith (perform platform 0) starting.choice
      world = some (succeeded, after)) :
    (if setting = [] && starting.drawFails then some (false, world)
      else (createInitialInvite (starting.code setting)).runWith (perform platform 0)
        starting.choice world) = some (succeeded, after) := by
  rw [Boot.code]
  by_cases unset : setting = []
  · subst unset
    rw [coldStart, initialCode, if_pos rfl, generateInviteCode_bind] at ran
    simp only [decide_true, Bool.true_and, if_true]
    rw [← ran]
    cases fails : starting.drawFails with
    | true =>
        have performed : perform platform 0 (.random 8) (starting.choice (.random 8)) world =
            some ((.error (utf8 "unexpected EOF") : Except ByteString ByteString), world) := by
          simp only [perform, Boot.choice, drawn, fails, if_true]
          rfl
        rw [Program.runWith_perform performed]
        rfl
    | false =>
        by_cases suits : starting.drawn.length = 8
        · have performed : perform platform 0 (.random 8) (starting.choice (.random 8)) world =
              some ((.ok starting.drawn : Except ByteString ByteString), world) := by
            simp only [perform, Boot.choice, drawn, fails, Bool.false_eq_true, if_false, suits,
              decide_true, if_true]
            rfl
          rw [Program.runWith_perform performed]
          rfl
        · have waits :
              perform platform 0 (.random 8) (starting.choice (.random 8)) world = none := by
            simp only [perform, Boot.choice, drawn, fails, Bool.false_eq_true, if_false, suits,
              decide_false]
            rfl
          rw [Program.runWith_none waits] at ran
          cases ran
  · simp only [unset, decide_false, Bool.false_and, Bool.false_eq_true, if_false]
    rw [coldStart, initialCode, if_neg unset] at ran
    exact ran

theorem boot_eq (nobody : ¬ world.Peopled) : boot platform setting starting world =
    if starting.countFails then some (false, world)
    else (coldStart setting).runWith (perform platform 0) starting.choice world := by
  have users : world.store.database.committed.users.rows = [] := not_not.mp nobody
  cases fails : starting.countFails with
  | true =>
      have performed : perform platform 0 (.store (.query false .userCount))
          (starting.choice (.store (.query false .userCount))) world =
          some ((.error .fault : Except SqlError Nat), world) := by
        simp only [perform, Storage.perform, Boot.choice, fails]
        rfl
      exact Program.runWith_perform performed
  | false =>
      have performed : perform platform 0 (.store (.query false .userCount))
          (starting.choice (.store (.query false .userCount))) world =
          some ((.ok 0 : Except SqlError Nat), world) := by
        simp only [perform, Storage.perform, Boot.choice, fails]
        change some ((.ok world.store.database.committed.users.rows.length : Except SqlError Nat),
          world) = _
        rw [users]
        rfl
      exact Program.runWith_perform performed

theorem boot_cases (idle : world.store.database.writer = none) (nobody : ¬ world.Peopled)
    (booted : boot platform setting starting world = some (succeeded, after)) :
    (starting.works setting = true ∧ world.invited (starting.code setting) = some after ∧
      succeeded = true) ∨
    ((starting.works setting = true → world.invited (starting.code setting) = none) ∧
      succeeded = false ∧ after = world) := by
  rw [boot_eq nobody] at booted
  rw [Boot.works]
  cases counts : starting.countFails with
  | true =>
      rw [counts] at booted
      cases booted
      exact .inr ⟨nofun, rfl, rfl⟩
  | false =>
      rw [counts] at booted
      have ran := coldStart_runWith booted
      cases draws : decide (setting = []) && starting.drawFails with
      | true =>
          rw [draws] at ran
          cases ran
          exact .inr ⟨nofun, rfl, rfl⟩
      | false =>
          rw [draws, if_neg Bool.false_ne_true, createInitialInvite_runWith idle] at ran
          cases inserts : starting.insertFails with
          | true =>
              rw [inserts] at ran
              cases ran
              exact .inr ⟨nofun, rfl, rfl⟩
          | false =>
              simp only [inserts, Bool.false_eq_true, if_false] at ran
              split at ran <;> cases ran
              next invited => exact .inl ⟨rfl, invited, rfl⟩
              next invited => exact .inr ⟨fun _ => invited, rfl, rfl⟩

end Boots

/-! ## An installation -/

/-- A database, and the server that runs on it or is down. -/
structure Installation where
  config : ServerConfig
  up : Bool

inductive Occurrence
  /-- What was running is gone, and the server is started. -/
  | start (boot : Boot)
  | elapse (duration : Nat)
  /-- What happens in a server that is up. -/
  | serve (event : ServerEvent)

def isServing : ServerEvent → Bool
  | .restart => false
  | .environment (.coldStart _) => false
  | _ => true

namespace Installation

/-- A database that nobody has used. -/
def fresh (clock : Instant) : Installation where
  config := Server.start .created clock
  up := false

def world (site : Installation) : World := site.config.scene.world

def stop (site : Installation) : ServerConfig where
  scene := ⟨site.world.restart, site.config.scene.history⟩
  threads := fun thread => (site.config.threads thread).kill

def next (platform : Platform) (setting : ByteString) (site : Installation) :
    Occurrence → Option Installation
  | .start starting =>
      match boot platform setting starting site.world.restart with
      | some (succeeded, world) =>
          some ⟨{ site.stop with scene := ⟨world, site.config.scene.history⟩ }, succeeded⟩
      | none => none
  | .elapse duration =>
      (Server.next platform site.config (.environment (.advance duration))).map
        fun config => ⟨config, site.up⟩
  | .serve event =>
      if site.up && isServing event then
        (Server.next platform site.config event).map fun config => ⟨config, true⟩
      else none

end Installation

/-- A start, with what it found and what it left. -/
structure Started where
  boot : Boot
  before : World
  succeeded : Bool
  after : World

def started (platform : Platform) (setting : ByteString) (site : Installation) :
    Occurrence → List Started
  | .start starting =>
      match boot platform setting starting site.world.restart with
      | some (succeeded, world) => [⟨starting, site.world.restart, succeeded, world⟩]
      | none => []
  | _ => []

/-- The starts of a run from an unused database. -/
def starts (platform : Platform) (setting : ByteString) (clock : Instant)
    (occurrences : List Occurrence) : List Started :=
  trace (Installation.next platform setting) (started platform setting) (.fresh clock) occurrences

def World.LetsIn (platform : Platform) (world : World) : Prop :=
  ∃ invite ∈ world.tables.invites.rows,
    invite.isOpen platform.location world.store.clock = true ∧
    ∀ user password salt hash, password ≠ [] →
      platform.bcryptGenerate salt password = .ok hash →
      Succeeds platform.toLibraries 0
        (Store.registerWithInvite platform.toLibraries invite.code user password) world.store

/-- The start has come through and left a way in. -/
def Started.Opens (platform : Platform) (start : Started) : Prop :=
  start.succeeded = true ∧ start.after.LetsIn platform

def World.codes (world : World) : List ByteString := world.tables.invites.rows.map InviteRow.code

namespace Started

def code (setting : ByteString) (start : Started) : ByteString := start.boot.code setting

/-- Nothing breaks, and RFC 3339 can write when the new invite expires, unless an
earlier one is still open. -/
def prepared (platform : Platform) (setting : ByteString) (start : Started) : Bool :=
  start.boot.works setting &&
    ((Calendar.parseRFC3339 platform.location
        (start.before.initialInvite (start.code setting)).expiresAt).isOk ||
      start.before.tables.invites.rows.any
        (InviteRow.isOpen platform.location start.before.store.clock))

end Started

/-- Nobody has registered before any of these. -/
abbrev WhileUnregistered (platform : Platform) (setting : ByteString) :=
  Run (Installation.next platform setting) fun site _ => ¬ site.world.Peopled

/-- On an unused database, where nothing breaks and nobody registers, every start
comes through and leaves a way in. -/
def AlwaysAWayIn (platform : Platform) : Prop :=
  ∀ setting clock occurrences final,
    WhileUnregistered platform setting (.fresh clock) occurrences final →
    (∀ starting, .start starting ∈ occurrences → starting.works setting = true) →
    ∀ start ∈ starts platform setting clock occurrences, start.Opens platform

/-! ## One start -/

section Start

variable {platform : Platform} {setting code : ByteString} {world after : World}

theorem invited_eq_some : world.invited code = some after ↔
    code ∉ world.codes ∧ ∃ invites : KeyedTable InviteRow InviteRow.code,
      invites.rows = world.tables.invites.rows ++ [world.initialInvite code] ∧
      after = world.setStore (world.store.setDatabase
        ⟨{ world.tables with invites := invites }, none⟩) := by
  rw [World.invited, Option.map_eq_some_iff]
  constructor
  · rintro ⟨invites, inserted, rfl⟩
    rcases KeyedTable.insert_eq_some.mp inserted with ⟨fresh, rows⟩
    exact ⟨fresh, invites, rows, rfl⟩
  · rintro ⟨fresh, invites, rows, rfl⟩
    exact ⟨invites, KeyedTable.insert_eq_some.mpr ⟨fresh, rows⟩, rfl⟩

theorem exists_invited (fresh : code ∉ world.codes) : ∃ after, world.invited code = some after := by
  cases inserted : world.tables.invites.insert (world.initialInvite code) with
  | none => exact absurd (KeyedTable.insert_eq_none.mp inserted) fresh
  | some invites => exact ⟨_, by rw [World.invited, inserted]; rfl⟩

theorem isOpen_initialInvite (location : Location) :
    (world.initialInvite code).isOpen location world.store.clock =
      (Calendar.parseRFC3339 location (world.initialInvite code).expiresAt).isOk := by
  cases parsed : Calendar.parseRFC3339 location (world.initialInvite code).expiresAt with
  | error error =>
      rw [InviteRow.isOpen, parsed]
      rfl
  | ok expiry =>
      have ahead : world.store.clock < expiry := by
        have later : ∀ now : Int, now < (now + 600000000000) / 1000000000 * 1000000000 := by
          intro now
          omega
        rw [Calendar.parseRFC3339_ok parsed]
        exact later world.store.clock
      rw [InviteRow.isOpen, parsed]
      exact decide_eq_true ahead

theorem letsIn_iff (idle : world.store.database.writer = none) (nobody : ¬ world.Peopled) :
    world.LetsIn platform ↔ ∃ invite ∈ world.tables.invites.rows,
      invite.isOpen platform.location world.store.clock = true := by
  constructor
  · rintro ⟨invite, member, isOpen, -⟩
    exact ⟨invite, member, isOpen⟩
  · rintro ⟨invite, member, isOpen⟩
    refine ⟨invite, member, isOpen, fun user password salt hash given hashed => ?_⟩
    have store : world.store = ⟨⟨world.tables, none⟩, world.store.clock⟩ := by
      rw [← idle]
      rfl
    rw [store]
    exact registerWithInvite_succeeds (not_not.mp nobody) member isOpen given hashed

theorem opens_iff {start : Started} (idle : start.before.store.database.writer = none)
    (nobody : ¬ start.before.Peopled)
    (booted : boot platform setting start.boot start.before = some (start.succeeded, start.after)) :
    start.Opens platform ↔
      start.code setting ∉ start.before.codes ∧ start.prepared platform setting = true := by
  rw [Started.Opens, Started.prepared, Bool.and_eq_true, Bool.or_eq_true, List.any_eq_true]
  rcases boot_cases idle nobody booted with
    ⟨works, invited, succeeded⟩ | ⟨refused, failed, same⟩
  · rcases invited_eq_some.mp invited with ⟨fresh, invites, rows, reached⟩
    have still : ¬ start.after.Peopled := by
      rw [reached]
      exact nobody
    have freed : start.after.store.database.writer = none := by
      rw [reached]
      rfl
    have clock : start.after.store.clock = start.before.store.clock := by
      rw [reached]
      rfl
    have after : start.after.tables.invites.rows =
        start.before.tables.invites.rows ++ [start.before.initialInvite (start.code setting)] := by
      rw [reached]
      exact rows
    rw [letsIn_iff freed still, clock, after]
    simp only [succeeded, true_and, works, List.mem_append, List.mem_singleton, or_and_right,
      exists_or, exists_eq_left, isOpen_initialInvite]
    rw [or_comm]
    exact (and_iff_right fresh).symm
  · constructor
    · rintro ⟨succeeded, -⟩
      rw [failed] at succeeded
      cases succeeded
    · rintro ⟨fresh, works, -⟩
      rcases exists_invited fresh with ⟨reached, invited⟩
      rw [Started.code, refused works] at invited
      cases invited

end Start

/-! ## Every run of an installation -/

section Runs

variable {platform : Platform} {setting : ByteString}

theorem codes_of_serve {config after : ServerConfig} (unopened : Unopened platform config)
    {event : ServerEvent} (serving : isServing event = true)
    (taken : next platform config event = some after) (nobody : ¬ after.scene.world.Peopled) :
    after.scene.world.codes = config.scene.world.codes := by
  cases event with
  | arrive thread request =>
      rcases Machine.next_arrive taken with ⟨-, rfl⟩
      rfl
  | step thread choice =>
      rcases Machine.next_step taken with ⟨request, op, rest, result, scene, running, observed, rfl⟩
      have performed := performed_of_observe observed
      have same := unopened.invites_of_perform running performed nobody
      exact congrArg (fun invites : KeyedTable InviteRow InviteRow.code =>
        invites.rows.map InviteRow.code) same
  | environment happening =>
      rcases Machine.next_environment taken with ⟨world, happened, rfl⟩
      cases happening with
      | coldStart code => cases serving
      | advance elapsed => cases happened; rfl
      | hub event fault =>
          rcases Option.map_eq_some_iff.mp happened with ⟨hub, -, rfl⟩
          rfl
      | reload entries => cases happened; rfl
      | files files => cases happened; rfl
  | restart => cases serving

theorem coldStart_of_invited {code : ByteString} {world after : World}
    (idle : world.store.database.writer = none) (nobody : ¬ world.Peopled)
    (invited : world.invited code = some after) : world.coldStart code = some after := by
  rcases Option.map_eq_some_iff.mp invited with ⟨invites, inserted, rfl⟩
  rw [World.coldStart, if_pos (not_not.mp nobody)]
  have inserts : world.store.database.committed.invites.insert ⟨code, Calendar.unixSeconds
      (world.store.clock + World.inviteLifetime), [], none, none⟩ = some invites := inserted
  simp only [Storage.World.exec, Bool.false_eq_true, if_false, Database.execute, idle,
    Statement.apply, inserts]
  rfl

theorem unopened_of_occurrence {site after : Installation} {occurrence : Occurrence}
    (unopened : Unopened platform site.config) (nobody : ¬ site.world.Peopled)
    (taken : Installation.next platform setting site occurrence = some after) :
    Unopened platform after.config := by
  cases occurrence with
  | start starting =>
      simp only [Installation.next] at taken
      split at taken <;> cases taken
      next succeeded world booted =>
        have stop : Server.next platform site.config .restart = some site.stop := rfl
        have stopped : Unopened platform site.stop := unopened.next stop
        have vacant : ¬ site.world.restart.Peopled := nobody
        rcases boot_cases rfl vacant booted with ⟨-, invited, -⟩ | ⟨-, -, rfl⟩
        · have started : (machine platform).environment (.coldStart (starting.code setting))
              site.stop.scene.world = some world := coldStart_of_invited rfl vacant invited
          have event : Server.next platform site.stop
              (.environment (.coldStart (starting.code setting))) =
              some { site.stop with scene := ⟨world, site.config.scene.history⟩ } := by
            simp only [Server.next, Machine.next, started]
            rfl
          exact stopped.next event
        · exact stopped
  | elapse duration =>
      simp only [Installation.next] at taken
      rcases Option.map_eq_some_iff.mp taken with ⟨config, elapsed, rfl⟩
      exact unopened.next elapsed
  | serve event =>
      simp only [Installation.next] at taken
      split at taken
      · rcases Option.map_eq_some_iff.mp taken with ⟨config, served, rfl⟩
        exact unopened.next served
      · cases taken

/-- The starts so far: the codes that are taken are theirs, and as long as all of
them have opened the server, all of theirs are taken. -/
structure Tally (platform : Platform) (setting : ByteString) (site : Installation)
    (seen : List Started) : Prop where
  unopened : Unopened platform site.config
  taken : ¬ site.world.Peopled →
    ∀ code ∈ site.world.codes, code ∈ seen.map (Started.code setting)
  left : ¬ site.world.Peopled → (∀ start ∈ seen, start.Opens platform) →
    ∀ code ∈ seen.map (Started.code setting), code ∈ site.world.codes
  opened : (∀ start ∈ seen, start.Opens platform) ↔
    (seen.map (Started.code setting)).Nodup ∧
      ∀ start ∈ seen, start.prepared platform setting = true

theorem tally_fresh (clock : Instant) : Tally platform setting (.fresh clock) [] where
  unopened := unopened_start clock
  taken := fun _ _ member => member
  left := fun _ _ _ => nofun
  opened := by simp

theorem Tally.of_codes {site after : Installation} {seen : List Started}
    (tally : Tally platform setting site seen) (unopened : Unopened platform after.config)
    (nobody : ¬ site.world.Peopled)
    (codes : ¬ after.world.Peopled → after.world.codes = site.world.codes) :
    Tally platform setting after seen where
  unopened := unopened
  taken := fun vacant => by
    rw [codes vacant]
    exact tally.taken nobody
  left := fun vacant opens => by
    rw [codes vacant]
    exact tally.left nobody opens
  opened := tally.opened

theorem Tally.start {site after : Installation} {seen : List Started} {start : Started}
    (tally : Tally platform setting site seen) (unopened : Unopened platform after.config)
    (nobody : ¬ site.world.Peopled) (found : start.before = site.world.restart)
    (leaves : start.after = after.world)
    (booted : boot platform setting start.boot start.before = some (start.succeeded, start.after)) :
    Tally platform setting after (seen ++ [start]) := by
  have idle : start.before.store.database.writer = none := by
    rw [found]
    rfl
  have vacant : ¬ start.before.Peopled := by
    rw [found]
    exact nobody
  have before : start.before.codes = site.world.codes := by
    rw [found]
    rfl
  have opens := opens_iff idle vacant booted
  rw [before] at opens
  have codes : (start.succeeded = false ∧ after.world.codes = site.world.codes) ∨
      after.world.codes = site.world.codes ++ [start.code setting] := by
    rw [← leaves, ← before]
    rcases boot_cases idle vacant booted with ⟨-, invited, -⟩ | ⟨-, failed, same⟩
    · rcases invited_eq_some.mp invited with ⟨-, invites, rows, reached⟩
      right
      have added : start.after.tables.invites.rows =
          start.before.tables.invites.rows ++
            [start.before.initialInvite (start.code setting)] := by
        rw [reached]
        exact rows
      rw [World.codes, added, List.map_append]
      rfl
    · rw [same]
      exact .inl ⟨failed, rfl⟩
  refine ⟨unopened, fun _ code member => ?_, fun _ opened code member => ?_, ?_⟩
  · rw [List.map_append, List.mem_append]
    rcases codes with ⟨-, same⟩ | added
    · rw [same] at member
      exact .inl (tally.taken nobody code member)
    · rw [added, List.mem_append] at member
      exact member.imp_left (tally.taken nobody code)
  · simp only [List.forall_mem_append, List.forall_mem_singleton] at opened
    rcases codes with ⟨failed, -⟩ | added
    · have succeeded := opened.2.1
      rw [failed] at succeeded
      cases succeeded
    · rw [List.map_append, List.mem_append] at member
      rw [added, List.mem_append]
      exact member.imp_left (tally.left nobody opened.1 code)
  · have distinct : ((seen ++ [start]).map (Started.code setting)).Nodup ↔
        start.code setting ∉ seen.map (Started.code setting) ∧
          (seen.map (Started.code setting)).Nodup := by
      rw [List.map_append, List.nodup_append_comm]
      exact List.nodup_cons
    rw [distinct, List.forall_mem_append, List.forall_mem_append, List.forall_mem_singleton,
      List.forall_mem_singleton, opens, tally.opened]
    constructor
    · rintro ⟨⟨nodup, prepared⟩, fresh, ready⟩
      have opened := tally.opened.mpr ⟨nodup, prepared⟩
      exact ⟨⟨fun member => fresh (tally.left nobody opened _ member), nodup⟩, prepared, ready⟩
    · rintro ⟨⟨fresh, nodup⟩, prepared, ready⟩
      exact ⟨⟨nodup, prepared⟩, fun member => fresh (tally.taken nobody _ member), ready⟩

theorem Tally.next {site after : Installation} {seen : List Started} {occurrence : Occurrence}
    (tally : Tally platform setting site seen) (nobody : ¬ site.world.Peopled)
    (taken : Installation.next platform setting site occurrence = some after) :
    Tally platform setting after (seen ++ started platform setting site occurrence) := by
  have unopened := unopened_of_occurrence tally.unopened nobody taken
  cases occurrence with
  | start starting =>
      simp only [Installation.next] at taken
      simp only [started]
      split at taken <;> cases taken
      next succeeded world booted =>
        exact tally.start unopened nobody rfl rfl booted
  | elapse duration =>
      simp only [Installation.next] at taken
      rcases Option.map_eq_some_iff.mp taken with ⟨config, elapsed, rfl⟩
      simp only [started, List.append_nil]
      apply tally.of_codes unopened nobody
      exact codes_of_serve tally.unopened rfl elapsed
  | serve event =>
      simp only [Installation.next] at taken
      split at taken
      case isTrue running =>
        rcases Option.map_eq_some_iff.mp taken with ⟨config, served, rfl⟩
        simp only [started, List.append_nil]
        apply tally.of_codes unopened nobody
        exact codes_of_serve tally.unopened (Bool.and_eq_true_iff.mp running).2 served
      case isFalse => cases taken

theorem tally_of_run {clock : Instant} {occurrences : List Occurrence} {final : Installation}
    (run : WhileUnregistered platform setting (.fresh clock) occurrences final) :
    Tally platform setting final (starts platform setting clock occurrences) :=
  run.traced (started platform setting) (fun site _ seen => Tally platform setting site seen)
    (fun _ _ _ _ _ tally nobody taken => tally.next nobody taken) (tally_fresh clock)

end Runs

/-- Every start comes through and leaves a way in exactly if no two use one code, and
each is prepared. -/
theorem allOpen_iff {platform : Platform} {setting : ByteString} {clock : Instant}
    {occurrences : List Occurrence} {final : Installation}
    (run : WhileUnregistered platform setting (.fresh clock) occurrences final) :
    (∀ start ∈ starts platform setting clock occurrences, start.Opens platform) ↔
      ((starts platform setting clock occurrences).map (Started.code setting)).Nodup ∧
        ∀ start ∈ starts platform setting clock occurrences,
          start.prepared platform setting = true :=
  (tally_of_run run).opened

/-- Two starts a minute apart. -/
def twoStarts (first second : ByteString) : List Occurrence :=
  [.start (.plain first), .elapse 60000000000, .start (.plain second)]

theorem unregistered_of_execute (platform : Platform) (setting : ByteString) (clock : Instant)
    (occurrences : List Occurrence)
    (executed : (executeWhere (Installation.next platform setting)
      (fun site _ => site.world.tables.users.rows.isEmpty) (.fresh clock) occurrences).isSome =
        true) :
    ∃ final, WhileUnregistered platform setting (.fresh clock) occurrences final := by
  rcases Option.isSome_iff_exists.mp executed with ⟨final, reached⟩
  refine ⟨final, (run_of_executeWhere reached).weaken ?_⟩
  intro site _ empty peopled
  exact peopled (List.isEmpty_iff.mp empty)

theorem twoDrawn_allOpen : ∃ final,
    WhileUnregistered .transparent [] (.fresh 0)
      (twoStarts (utf8 "01234567") (utf8 "89abcdef")) final ∧
    ∀ start ∈ starts .transparent [] 0 (twoStarts (utf8 "01234567") (utf8 "89abcdef")),
      start.Opens .transparent := by
  rcases unregistered_of_execute .transparent [] 0
    (twoStarts (utf8 "01234567") (utf8 "89abcdef")) (by decide +kernel) with ⟨final, run⟩
  refine ⟨final, run, (allOpen_iff run).mpr ⟨by decide +kernel, ?_⟩⟩
  exact List.all_eq_true.mp (by decide +kernel)

/-- A server with a fixed code that nobody has used cannot be started again. -/
theorem not_alwaysAWayIn : ¬ AlwaysAWayIn .transparent := by
  intro always
  rcases unregistered_of_execute .transparent (utf8 "test00000000000000") 0 (twoStarts [] [])
    (by decide +kernel) with ⟨final, run⟩
  have works : ∀ starting, .start starting ∈ twoStarts [] [] →
      starting.works (utf8 "test00000000000000") = true := by
    intro starting member
    simp only [twoStarts, List.mem_cons, Occurrence.start.injEq, List.not_mem_nil, or_false,
      reduceCtorEq, false_or, or_self] at member
    rw [member]
    decide
  have opened := always _ 0 _ final run works
  have outcomes : (starts .transparent (utf8 "test00000000000000") 0 (twoStarts [] [])).map
      Started.succeeded = [true, false] := by
    decide +kernel
  have failure : false ∈ (starts .transparent (utf8 "test00000000000000") 0 (twoStarts [] [])).map
      Started.succeeded := by
    rw [outcomes]
    exact List.mem_cons_of_mem _ (List.mem_singleton_self _)
  rcases List.mem_map.mp failure with ⟨start, member, failed⟩
  have succeeded := (opened start member).1
  rw [failed] at succeeded
  cases succeeded

end Grunt.Server
