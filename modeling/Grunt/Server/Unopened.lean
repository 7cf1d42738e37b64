import Grunt.Server.ServiceAccounts

/-! # A server without users

As long as nobody has registered nobody is let in, and then the requests leave
the invites and the API keys alone.
-/

namespace Grunt.Server

open Foundation Storage

/-! ## What only a caller can do -/

def Op.isCallers : Op → Bool
  | .store (.exec false (.insertInvite _ _ _)) => true
  | .store (.exec false (.insertAPIKey _ _ _ _)) => true
  | _ => false

def Called (platform : Platform) (thread : Nat) (op : Op) (seen : List (Performed Op Op.Result)) :
    Prop :=
  op.isCallers = true → ∃ token user, Vouched platform thread token user seen

section Handlers

variable {platform : Platform} {thread : Nat} {seen : List (Performed Op Op.Result)}

theorem isCallers_of_quiet {op : Op} (quiet : op.isQuiet = true) : op.isCallers = false := by
  unfold Op.isCallers
  split <;> first | rfl | cases quiet

theorem identity_of_permits {identity : Identity} {route : Route} {op : Op}
    (callers : op.isCallers = true) (permitted : route.permits identity op) :
    identity ≠ .anonymous := by
  rintro rfl
  unfold Op.isCallers at callers
  split at callers
  · cases route <;> first | cases permitted.1 | cases permitted
  · cases route <;> first | cases permitted.1 | cases permitted
  · cases callers

theorem serve_called (request : Request) :
    Machine.Obeys thread (Called platform thread) (fun _ _ => True) (serve platform request)
      seen := by
  have unasked : ∀ {op : Op} {seen : List (Performed Op Op.Result)}, op.isQuiet = true →
      Called platform thread op seen := by
    intro op seen quiet callers
    rw [isCallers_of_quiet quiet] at callers
    cases callers
  have authenticates : Machine.Obeys thread (Called platform thread)
      (fun identity seen => identity = .anonymous ∨
        Vouched platform thread (extractToken request) identity.userID seen)
      (authenticate platform request) seen :=
    (authenticate_obeys request).of_only (authenticate_only fun _ => id) fun _ _ => unasked
  apply authenticates.bind
  intro identity seen known
  have kept : ∀ (op : Op) (result : op.Result) (seen : List (Performed Op Op.Result)),
      (identity = .anonymous ∨
        Vouched platform thread (extractToken request) identity.userID seen) →
      identity = .anonymous ∨ Vouched platform thread (extractToken request) identity.userID
        (seen ++ [⟨thread, op, result⟩]) :=
    fun op result seen known => known.imp_right fun vouched => vouched.snoc _
  have permitted : (dispatch platform request identity (route platform request)).Only
      fun op => op.isCallers = true → identity ≠ .anonymous := by
    apply dispatch_only
    · intro op quiet callers
      rw [isCallers_of_quiet quiet] at callers
      cases callers
    · exact fun op permitted callers => identity_of_permits callers permitted
  apply (Machine.obeys_of_only permitted _ (fun op result seen _ => kept op result seen) known).mono
  · exact fun _ _ _ => trivial
  · intro op seen named known callers
    rcases known with nobody | vouched
    · exact absurd nobody (named callers)
    · exact ⟨_, _, vouched⟩

end Handlers

/-! ## Nobody is let in -/

def World.Peopled (world : World) : Prop := world.tables.users.rows ≠ []

/-- A key, and a look at one, come after the first user. -/
structure Keyless (scene : ServerScene) : Prop where
  keys : scene.world.tables.apiKeys.rows ≠ [] → scene.world.Peopled
  looked : ∀ thread keyHash user, ⟨thread, .store (.query false (.apiKeyOwner keyHash)),
    (.ok (some user) : Except SqlError (Option ByteString))⟩ ∈ scene.history →
    scene.world.Peopled

structure Unopened (platform : Platform) (config : ServerConfig) : Prop where
  guarded : Guarded platform config
  called : Machine.Tracked (fun thread _ rest seen =>
    Machine.Obeys thread (Called platform thread) (fun _ _ => True) rest seen) config
  keyless : Keyless config.scene

section Steps

variable {platform : Platform} {thread : Nat} {choice : Choice}

theorem peopled_of_secured {world : World} {user : ByteString} {secured : Bool}
    (known : world.tables.Secured user secured) : world.Peopled := by
  rcases known with ⟨hash, ⟨row, member, -⟩, -⟩
  exact List.ne_nil_of_mem member

theorem World.Peopled.keeps {world after : World} (peopled : world.Peopled)
    (keeps : Keeps world after) : after.Peopled := by
  rcases List.exists_mem_of_ne_nil _ peopled with ⟨row, member⟩
  exact peopled_of_secured (keeps row.user _ ⟨row.passwordHash, ⟨row, member, rfl, rfl⟩, rfl⟩)

variable {config after : ServerConfig}

theorem Unopened.peopled (unopened : Unopened platform config) {token user : ByteString}
    (vouched : Vouched platform thread token user (config.scene.own thread)) :
    config.scene.world.Peopled := by
  cases vouched with
  | session member =>
      have noted := unopened.guarded.kept.noted _ (List.mem_of_mem_filter member)
      exact peopled_of_secured (noted user rfl)
  | key isKey member =>
      exact unopened.keyless.looked thread _ user (List.mem_of_mem_filter member)

theorem Unopened.peopled_of_call (unopened : Unopened platform config) {request : Request}
    {op : Op} {rest : op.Result → ServerProgram Response}
    (running : config.threads thread = .running request (.perform op rest))
    (callers : op.isCallers = true) : config.scene.world.Peopled := by
  rcases ((unopened.called thread).2 request _ running).1 callers with ⟨token, user, vouched⟩
  exact unopened.peopled vouched

theorem plain_of_reaches {request : Request} {statement : Statement}
    (reaches : Reaches platform request (.store (.exec false statement))) :
    statement.isPlain = true := by
  cases statement with
  | useInvite usedAt user code =>
      rcases reaches with quiet | ⟨identity, permitted⟩
      · cases quiet
      · cases which : route platform request <;> rw [which] at permitted <;> cases permitted
  | _ => rfl

theorem Guarded.keeps (guarded : Guarded platform config) {request : Request} {op : Op}
    {rest : op.Result → ServerProgram Response} {result : op.Result} {reached : World}
    (running : config.threads thread = .running request (.perform op rest))
    (performed : perform platform thread op choice config.scene.world = some (result, reached)) :
    Keeps config.scene.world reached := by
  apply keeps_of_perform guarded.serving.staged _ performed
  rintro name hash rfl
  exact guarded.kept.shown thread name ((guarded.proper thread).2 request _ running).1

theorem Unopened.invites_of_perform (unopened : Unopened platform config) {request : Request}
    {op : Op} {rest : op.Result → ServerProgram Response} {result : op.Result} {reached : World}
    (running : config.threads thread = .running request (.perform op rest))
    (performed : perform platform thread op choice config.scene.world = some (result, reached))
    (nobody : ¬ reached.Peopled) : reached.tables.invites = config.scene.world.tables.invites := by
  have keeps := unopened.guarded.keeps running performed
  have proper := ((unopened.guarded.proper thread).2 request _ running).1
  have reaches := ((unopened.guarded.serving.bounded thread).2 request _ running).1
  cases changes_of_perform performed with
  | unchanged same => rw [same]
  | statement idle applied =>
      rcases Statement.invites_of_apply (plain_of_reaches reaches) applied with
        same | ⟨code, expiresAt, createdBy, rfl, -⟩
      · exact same
      · exact absurd ((unopened.peopled_of_call running rfl).keeps keeps) nobody
  | commit held =>
      rcases proper with ⟨user, inserted⟩
      rcases unopened.guarded.drafted thread request _ _ user running inserted with
        ⟨tables, writer, secured⟩
      rw [held] at writer
      cases writer
      exact absurd (peopled_of_secured secured) nobody

theorem Keyless.observe (unopened : Unopened platform config) {request : Request} {op : Op}
    {rest : op.Result → ServerProgram Response} {result : op.Result} {scene : ServerScene}
    (running : config.threads thread = .running request (.perform op rest))
    (observed : (machine platform).observe thread op choice config.scene = some (result, scene)) :
    Keyless scene := by
  have performed := performed_of_observe observed
  have keeps := unopened.guarded.keeps running performed
  constructor
  · intro some
    cases changes_of_perform performed with
    | unchanged same =>
        have old : config.scene.world.tables.apiKeys.rows ≠ [] := by
          rwa [same] at some
        exact (unopened.keyless.keys old).keeps keeps
    | statement idle applied =>
        rcases List.exists_mem_of_ne_nil _ some with ⟨key, member⟩
        rcases Statement.apiKeys_of_apply applied key member with old | ⟨name, rfl⟩
        · exact (unopened.keyless.keys (List.ne_nil_of_mem old)).keeps keeps
        · exact (unopened.peopled_of_call running rfl).keeps keeps
    | commit held =>
        have same := (unopened.guarded.serving.staged thread _ held).apiKeys
        have old : config.scene.world.tables.apiKeys.rows ≠ [] := by
          rwa [same] at some
        exact (unopened.keyless.keys old).keeps keeps
  · intro other keyHash user member
    rw [(Machine.observe_eq_some.mp observed).2, List.mem_append, List.mem_singleton] at member
    rcases member with old | same
    · exact (unopened.keyless.looked other keyHash user old).keeps keeps
    · cases same
      have answered := perform_query (perform_store performed)
      rcases Option.map_eq_some_iff.mp answered with ⟨key, found, -⟩
      exact (unopened.keyless.keys (List.ne_nil_of_mem (List.mem_of_find?_eq_some found))).keeps
        keeps

theorem Keyless.of_world {scene : ServerScene} {world : World} (keyless : Keyless scene)
    (keeps : Keeps scene.world world)
    (apiKeys : world.tables.apiKeys = scene.world.tables.apiKeys) :
    Keyless ⟨world, scene.history⟩ where
  keys := fun some => (keyless.keys (apiKeys ▸ some)).keeps keeps
  looked := fun thread keyHash user member =>
    (keyless.looked thread keyHash user member).keeps keeps

theorem unopened_start (clock : Instant) : Unopened platform (start .created clock) where
  guarded := guarded_start clock
  called := Machine.tracked_start
  keyless := {
    keys := fun some => absurd rfl some
    looked := nofun }

theorem Unopened.next (unopened : Unopened platform config) {event : ServerEvent}
    (taken : next platform config event = some after) : Unopened platform after := by
  refine ⟨unopened.guarded.next taken,
    unopened.called.next (Machine.obeys_tracking fun _ request => serve_called request) taken, ?_⟩
  cases event with
  | arrive thread request =>
      rcases Machine.next_arrive taken with ⟨-, rfl⟩
      exact unopened.keyless
  | step thread choice =>
      rcases Machine.next_step taken with ⟨request, op, rest, result, scene, running, observed, rfl⟩
      exact Keyless.observe unopened running observed
  | environment happening =>
      rcases Machine.next_environment taken with ⟨world, happened, rfl⟩
      exact unopened.keyless.of_world (keeps_of_environment happened)
        (apiKeys_of_environment happened)
  | restart =>
      have restarted := Machine.next_restart taken
      subst restarted
      exact unopened.keyless.of_world (fun _ _ secured => secured) rfl

end Steps

end Grunt.Server
