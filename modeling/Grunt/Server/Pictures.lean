import Grunt.Foundation.Provenance
import Grunt.Server.Broadcasts
import Grunt.Server.Identities
import Grunt.Storage.Pictures

/-! # Whose pictures are shown

A browser that asks for a user's picture shows the one that the user had uploaded
last when the server looked, also where it keeps a copy and the server only
confirms that.
-/

namespace Grunt.Server

open Foundation Storage

def Request.picture (platform : Platform) (request : Request) : Option ByteString :=
  match request.body.avatar with
  | .file bytes => (Avatars.processAvatar platform.images bytes maxUpload).toOption
  | _ => none

/-- The `ETag` of a picture. -/
def etag (platform : Platform) (avatar : ByteString) : ByteString :=
  utf8 "\"sha256-" ++ Bytes.hexEncode (platform.sha256 avatar) ++ utf8 "\""

/-- What a browser shows after an answer, given the copy that it holds. -/
def Response.shows (held : ByteString) : Response → Option ByteString
  | .sent 200 _ (.text body) => some body
  | .sent 304 _ _ => some held
  | _ => none

def Looked (thread : Nat) (user picture : ByteString) : Performed Op Op.Result :=
  ⟨thread, .store (.query false (.avatar user)),
    (.ok (some (some picture)) : Except SqlError (Option (Option ByteString)))⟩

/-- A browser asks without a copy, or for one that is newer than the copy it holds. -/
def Request.Holds (platform : Platform) (request : Request) (held : ByteString) : Prop :=
  request.ifNoneMatch = [] ∨ request.ifNoneMatch = etag platform held

section Handlers

variable {platform : Platform} {thread : Nat} {request : Request} {identity : Identity}
variable {seen : List (Performed Op Op.Result)}

end Handlers

/-! ## The pictures of a run -/

def painted (user : ByteString) : Performed Op Op.Result → Option ByteString
  | ⟨_, .store (.exec false statement), .ok outcome⟩ => statement.paints user outcome
  | _ => none

def uploads (user : ByteString) (history : List (Performed Op Op.Result)) : List ByteString :=
  history.filterMap (painted user)

/-- The last picture that has been set for the user, or else the one at the start. -/
def latest (tables : Tables) (user : ByteString) (history : List (Performed Op Op.Result)) :
    Option ByteString :=
  (uploads user history).getLast?.or (tables.avatarOf user)

/-- Pictures are in force, and read, as they were set. -/
structure Pictured (tables : Tables) (config : ServerConfig) : Prop where
  current : ∀ user, config.scene.world.tables.avatarOf user =
    latest tables user config.scene.history
  draft : config.scene.world.store.Drafted Tables.SamePictures
  read : Machine.Throughout (fun before performed => ∀ thread user picture,
    performed = Looked thread user picture → latest tables user before = some picture)
    config.scene.history

section Runs

variable {platform : Platform} {tables : Tables} {config after : ServerConfig}

theorem latest_snoc (user : ByteString) (history : List (Performed Op Op.Result))
    (performed : Performed Op Op.Result) :
    latest tables user (history ++ [performed]) =
      (painted user performed).or (latest tables user history) := by
  rw [latest, uploads, List.filterMap_append, List.getLast?_append]
  cases found : painted user performed with
  | none => simp [latest, uploads, found]
  | some picture => simp [found]

theorem painted_of_ne {thread : Nat} {op : Op} {result : op.Result} (user : ByteString)
    (other : ∀ statement, op ≠ .store (.exec false statement)) :
    painted user ⟨thread, op, result⟩ = none := by
  unfold painted
  split
  · next same =>
    cases same
    exact absurd rfl (other _)
  · rfl

theorem avatarOf_of_perform {thread : Nat} {op : Op} {choice : Storage.Choice}
    {result : op.Result} {world reached : World}
    (drafted : world.store.Drafted Tables.SamePictures)
    (performed : perform platform thread op choice world = some (result, reached))
    (user : ByteString) :
    reached.tables.avatarOf user =
      (painted user ⟨thread, op, result⟩).or (world.tables.avatarOf user) := by
  by_cases executes : ∃ statement, op = .store (.exec false statement)
  · obtain ⟨statement, rfl⟩ := executes
    rcases perform_exec (perform_store performed) with
      ⟨same, error, rfl⟩ | ⟨-, outcome, tables, rfl, applied, same⟩
    · rw [World.tables, same]
      rfl
    · rw [World.tables, same]
      exact Statement.avatarOf_of_apply applied
  · have other : ∀ statement, op ≠ .store (.exec false statement) :=
      fun statement same => executes ⟨statement, same⟩
    rw [painted_of_ne user other, Option.none_or]
    cases changes_of_perform performed with
    | unchanged same => rw [same]
    | statement => exact absurd rfl (other _)
    | commit held => exact drafted _ _ held user

theorem drafted_of_perform {thread : Nat} {op : Op} {choice : Storage.Choice}
    {result : op.Result} {world reached : World}
    (drafted : world.store.Drafted Tables.SamePictures) (served : op.isServed = true)
    (performed : perform platform thread op choice world = some (result, reached)) :
    reached.store.Drafted Tables.SamePictures := by
  by_cases leaves : op.leavesStore = true
  · rw [store_of_perform leaves performed]
    exact drafted
  · cases op with
    | store op => exact drafted.samePictures served (perform_store performed)
    | nanoid | random | putToken | checkToken | broadcast | register | writePump
      | renderContent | readFile => exact absurd rfl leaves

theorem Pictured.step (pictured : Pictured tables config) {thread : Nat} {op : Op}
    {choice : Storage.Choice} {result : op.Result} (served : op.isServed = true)
    (observed : (machine platform).observe thread op choice config.scene =
      some (result, after.scene)) : Pictured tables after := by
  have performed := performed_of_observe observed
  have history := (Machine.observe_eq_some.mp observed).2
  refine ⟨fun user => ?_, drafted_of_perform pictured.draft served performed, ?_⟩
  · rw [history, latest_snoc, avatarOf_of_perform pictured.draft performed, pictured.current]
  · rw [history]
    refine pictured.read.snoc fun other user picture looked => ?_
    cases looked
    rw [← pictured.current]
    exact Query.eval_avatar (perform_query (perform_store performed))

theorem Pictured.environment (pictured : Pictured tables config) {happening : Happening}
    (taken : next platform config (.environment happening) = some after) :
    Pictured tables after := by
  obtain ⟨world, happened, rfl⟩ := Machine.next_environment taken
  rcases environment_store happened with same | ⟨idle, -, -, code, expiresAt, outcome, applied⟩
  · refine ⟨fun user => ?_, pictured.draft.of_database same, pictured.read⟩
    rw [← pictured.current, World.tables, same]
    rfl
  · refine ⟨fun user => ?_, World.drafted_of_idle idle, pictured.read⟩
    rw [← pictured.current, Statement.avatarOf_of_apply applied]
    rfl

theorem Pictured.next (pictured : Pictured tables config) (serving : Serving platform config)
    {event : ServerEvent} (taken : next platform config event = some after) :
    Pictured tables after := by
  cases event with
  | arrive thread request =>
      obtain ⟨-, rfl⟩ := Machine.next_arrive taken
      exact ⟨pictured.current, pictured.draft, pictured.read⟩
  | step thread choice =>
      obtain ⟨request, op, rest, result, scene, running, observed, rfl⟩ := Machine.next_step taken
      have reaches := ((serving.bounded thread).2 request _ running).1
      exact pictured.step (isServed_of_reaches reaches) observed
  | environment happening => exact pictured.environment taken
  | restart =>
      rw [Machine.next_restart taken]
      exact ⟨pictured.current, World.drafted_of_idle rfl, pictured.read⟩

end Runs

end Grunt.Server
