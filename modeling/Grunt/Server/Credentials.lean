import Mathlib.Data.List.Forall2
import Grunt.Server.Identities

/-! # What credentials stand for

Sessions and API keys are issued, used, revoked and expire in any order. The
tables and the token store are compared with what was issued; the two families
of credentials are told apart by a prefix that a session token may have too.
-/

namespace Grunt.Server

open Foundation Storage

/-! ## The calls -/

inductive CredentialCall
  | generateToken (userID : ByteString)
  | adminCreateAPIKey (request : Request) (identity : Identity)
  | adminRevokeAPIKey (request : Request) (identity : Identity) (keyId : ByteString)
  | validateToken (token : ByteString)

/-- What a call returns. -/
inductive CredentialReply
  | token (result : Except ByteString ByteString)
  | response (response : Response)
  | user (user : Option ByteString)

def CredentialCall.run (platform : Platform) : CredentialCall → ServerProgram CredentialReply
  | .generateToken userID => do return .token (← Server.generateToken userID)
  | .adminCreateAPIKey request identity => do
      return .response (← Server.adminCreateAPIKey platform request identity)
  | .adminRevokeAPIKey request identity keyId => do
      return .response (← Server.adminRevokeAPIKey platform request identity keyId)
  | .validateToken token => do return .user (← Server.validateToken platform token)

abbrev CredentialConfig := Config Op Op.Result World CredentialCall CredentialReply

abbrev CredentialEvent := Event CredentialCall Storage.Choice Happening

/-- The transitions of overlapping calls. -/
abbrev credentialNext (platform : Platform) :
    CredentialConfig → CredentialEvent → Option CredentialConfig :=
  (machine platform).next (CredentialCall.run platform)

/-- The process is not restarted, which would end every session. -/
def isUninterrupted : CredentialEvent → Bool
  | .restart => false
  | _ => true

/-! ## What was issued -/

structure LiveKey where
  id : Nat
  /-- The call that created it. -/
  creator : Nat
  userID : ByteString
deriving DecidableEq

def liveKeysStep (live : List LiveKey) : Performed Op Op.Result → List LiveKey
  | ⟨thread, .store (.exec false (.insertAPIKey userID _ _ _)), .ok outcome⟩ =>
      live ++ [⟨outcome.lastInsertId, thread, userID⟩]
  | ⟨_, .store (.exec false (.deleteAPIKey id)), .ok _⟩ =>
      live.filter fun key => (key.id : Int) ≠ id
  | _ => live

def liveKeys (history : List (Performed Op Op.Result)) : List LiveKey :=
  history.foldl liveKeysStep []

def drawnSecret : Performed Op Op.Result → Option ByteString
  | ⟨_, .nanoid _, .ok token⟩ => some token
  | ⟨_, .random _, .ok bytes⟩ => some (apiKeyOf bytes)
  | _ => none

def SecretsDistinct (history : List (Performed Op Op.Result)) : Prop :=
  (history.filterMap drawnSecret).Nodup

/-- `GenerateToken` has returned this token for the user at most 24 hours ago. -/
def SessionOf (config : CredentialConfig) (token user : ByteString) : Prop :=
  ∃ thread issuedAt,
    config.threads thread = .running (.generateToken user) (.done (.token (.ok token))) ∧
    ⟨thread, .store .now, issuedAt⟩ ∈ config.scene.history ∧
    ¬ issuedAt + tokenLifetime < config.scene.world.store.clock

def HasDrawn (history : List (Performed Op Op.Result)) (thread : Nat) (bytes : ByteString) :
    Prop :=
  (history.find? fun performed => performed.thread = thread) =
    some ⟨thread, .random 32, (.ok bytes : Except ByteString ByteString)⟩

def KeyOf (config : CredentialConfig) (token user : ByteString) : Prop :=
  ∃ key ∈ liveKeys config.scene.history, key.userID = user ∧ ∃ bytes,
    HasDrawn config.scene.history key.creator bytes ∧ token = apiKeyOf bytes

/-- `ValidateToken` accepts exactly the sessions and keys that are in force. -/
def CredentialsMean (platform : Platform) (config : CredentialConfig) : Prop :=
  ∀ token user, Accepts platform config.scene.world token user ↔
    SessionOf config token user ∨ KeyOf config token user

/-! ## What each call does -/

/-- The operations of a `GenerateToken` that succeeds. -/
def issuance (thread : Nat) (token userID : ByteString) (issuedAt : Instant) :
    List (Performed Op Op.Result) :=
  [⟨thread, .nanoid 32, (.ok token : Except ByteString ByteString)⟩,
    ⟨thread, .store .now, issuedAt⟩,
    ⟨thread, .putToken token userID (issuedAt + tokenLifetime), ()⟩]

def Op.isPut : Op → Bool
  | .putToken _ _ _ => true
  | _ => false

def Unput (seen : List (Performed Op Op.Result)) : Prop :=
  ∀ performed ∈ seen, performed.op.isPut = false

def CallNeeds (platform : Platform) (thread : Nat) :
    Op → List (Performed Op Op.Result) → Prop
  | .putToken token userID expiry, seen => ∃ issuedAt,
      seen ++ [⟨thread, .putToken token userID expiry, ()⟩] =
        issuance thread token userID issuedAt
  | .store (.exec false (.insertAPIKey _ _ keyHash _)), seen => ∃ bytes,
      seen = [⟨thread, .random 32, (.ok bytes : Except ByteString ByteString)⟩] ∧
        keyHash = Store.hashAPIKey platform.toLibraries (apiKeyOf bytes)
  | .store (.exec false (.deleteAPIKey _)), _ => True
  | op, _ => op.isQuiet = true

def CallDone (thread : Nat) :
    CredentialCall → CredentialReply → List (Performed Op Op.Result) → Prop
  | .generateToken userID, .token (.ok token), seen =>
      ∃ issuedAt, seen = issuance thread token userID issuedAt
  | _, _, seen => Unput seen

/-- Only the end of a `GenerateToken` puts a token. -/
def CallTracks (platform : Platform) (thread : Nat) (call : CredentialCall)
    (rest : ServerProgram CredentialReply) (seen : List (Performed Op Op.Result)) : Prop :=
  Machine.Obeys thread (fun op seen => Unput seen ∧ CallNeeds platform thread op seen)
    (CallDone thread call) rest seen

section Calls

variable {platform : Platform} {thread : Nat}

theorem unput_nil : Unput [] := fun _ member => absurd member List.not_mem_nil

theorem unput_snoc {seen : List (Performed Op Op.Result)} {op : Op} {result : op.Result}
    (unput : Unput seen) (other : op.isPut = false) :
    Unput (seen ++ [⟨thread, op, result⟩]) := by
  intro performed member
  rcases List.mem_append.mp member with before | last
  · exact unput performed before
  · rw [List.mem_singleton.mp last]
    exact other

theorem obeys_of_quiet {α : Type} {program : ServerProgram α}
    {seen : List (Performed Op Op.Result)} (only : program.Only fun op => op.isQuiet = true)
    (unput : Unput seen) :
    Machine.Obeys thread (fun op seen => Unput seen ∧ CallNeeds platform thread op seen)
      (fun _ => Unput) program seen := by
  have quietly : ∀ (op : Op) seen, op.isQuiet = true → CallNeeds platform thread op seen := by
    intro op seen quiet
    cases op with
    | store op =>
        cases op with
        | exec inTx statement => cases quiet
        | begin | query | commit | rollback | now | bcrypt => exact quiet
    | putToken | broadcast | register => cases quiet
    | nanoid | random | checkToken | writePump | renderContent | readFile => rfl
  have unputting : ∀ op : Op, op.isQuiet = true → op.isPut = false := by
    intro op quiet
    cases op <;> first | rfl | cases quiet
  exact Machine.obeys_of_only only
    (fun op seen quiet unput => ⟨unput, quietly op seen quiet⟩)
    (fun op result seen quiet unput => unput_snoc unput (unputting op quiet)) unput

theorem generateToken_tracks (userID : ByteString) :
    CallTracks platform thread (.generateToken userID)
      (CredentialCall.run platform (.generateToken userID)) [] := by
  refine ⟨⟨unput_nil, rfl⟩, fun drawn => ?_⟩
  have unput : Unput _ := @unput_snoc thread [] (.nanoid 32) drawn unput_nil rfl
  cases drawn with
  | error error => exact unput
  | ok token =>
      exact ⟨⟨unput, rfl⟩, fun issuedAt =>
        ⟨⟨unput_snoc unput rfl, issuedAt, rfl⟩, fun _ => ⟨issuedAt, rfl⟩⟩⟩

theorem createKey_obeys (request : Request) (adminID userID name : ByteString) :
    Machine.Obeys thread
      (fun op seen => (∀ performed ∈ seen, performed.op.isPut = false) ∧
        CallNeeds platform thread op seen)
      (fun _ seen => ∀ performed ∈ seen, performed.op.isPut = false)
      (createKey platform request adminID userID name) [] := by
  refine ⟨⟨unput_nil, rfl⟩, fun drawn => ?_⟩
  have unput := @unput_snoc thread [] (.random 32) drawn unput_nil rfl
  cases drawn with
  | error error => exact unput
  | ok bytes =>
      refine ⟨⟨unput, bytes, rfl, rfl⟩, fun inserted => ?_⟩
      have unput := @unput_snoc thread _ _ inserted unput rfl
      cases inserted with
      | error error => exact unput
      | ok outcome =>
          by_cases htmx : request.isHTMXRequest = true
          · simp only [htmx, if_true]
            exact obeys_of_quiet (reloadKeys_only (fun _ => id) _) unput
          · simp only [htmx]
            exact unput

theorem adminCreateAPIKey_obeys (request : Request) (identity : Identity) :
    Machine.Obeys thread (fun op seen => Unput seen ∧ CallNeeds platform thread op seen)
      (fun _ => Unput) (adminCreateAPIKey platform request identity) [] := by
  unfold adminCreateAPIKey
  split
  · exact unput_nil
  · split
    · exact unput_nil
    · split
      · exact unput_nil
      · exact createKey_obeys request _ _ _

theorem adminRevokeAPIKey_obeys (request : Request) (identity : Identity) (keyId : ByteString) :
    Machine.Obeys thread (fun op seen => Unput seen ∧ CallNeeds platform thread op seen)
      (fun _ => Unput) (adminRevokeAPIKey platform request identity keyId) [] := by
  unfold adminRevokeAPIKey
  split
  · exact unput_nil
  · split
    · exact unput_nil
    · refine ⟨⟨unput_nil, trivial⟩, fun deleted => ?_⟩
      have unput : Unput _ := @unput_snoc thread [] _ deleted unput_nil rfl
      cases deleted with
      | error error => exact unput
      | ok outcome =>
          by_cases htmx : request.isHTMXRequest = true
          · simp only [htmx, if_true]
            exact obeys_of_quiet (reloadKeys_only (fun _ => id) _) unput
          · simp only [htmx]
            exact unput

theorem calls_track (call : CredentialCall) :
    CallTracks platform thread call (CredentialCall.run platform call) [] := by
  cases call with
  | generateToken userID => exact generateToken_tracks userID
  | adminCreateAPIKey request identity =>
      exact (adminCreateAPIKey_obeys request identity).bind fun _ _ unput => unput
  | adminRevokeAPIKey request identity keyId =>
      exact (adminRevokeAPIKey_obeys request identity keyId).bind fun _ _ unput => unput
  | validateToken token =>
      exact (obeys_of_quiet (validateToken_only (fun _ => id) token) unput_nil).bind
        fun _ _ unput => unput

theorem calls_tracking :
    Machine.Tracking (CredentialCall.run platform) (CallTracks platform) where
  initially := fun _ => calls_track
  kept := fun _ _ _ _ _ result tracks => tracks.2 result

end Calls

/-! ## The history of a run -/

section History

variable {history : List (Performed Op Op.Result)}

theorem liveKeys_snoc (performed : Performed Op Op.Result) :
    liveKeys (history ++ [performed]) = liveKeysStep (liveKeys history) performed := by
  simp [liveKeys]

theorem inserted_of_live {key : LiveKey} (live : key ∈ liveKeys history) :
    ∃ admin hash name result, (⟨key.creator,
      .store (.exec false (.insertAPIKey key.userID admin hash name)), result⟩ :
        Performed Op Op.Result) ∈ history := by
  induction history using List.reverseRecOn with
  | nil => cases live
  | append_singleton history performed induction =>
      rw [liveKeys_snoc] at live
      unfold liveKeysStep at live
      split at live
      case h_1 thread userID admin hash name outcome =>
        rcases List.mem_append.mp live with before | last
        · obtain ⟨admin, hash, name, result, member⟩ := induction before
          exact ⟨admin, hash, name, result, List.mem_append_left _ member⟩
        · rw [List.mem_singleton.mp last]
          exact ⟨admin, hash, name, _, List.mem_append_right _ (List.mem_singleton_self _)⟩
      case h_2 =>
        obtain ⟨admin, hash, name, result, member⟩ := induction (List.mem_filter.mp live).1
        exact ⟨admin, hash, name, result, List.mem_append_left _ member⟩
      case h_3 =>
        obtain ⟨admin, hash, name, result, member⟩ := induction live
        exact ⟨admin, hash, name, result, List.mem_append_left _ member⟩

theorem HasDrawn.append {thread : Nat} {bytes : ByteString} (drawn : HasDrawn history thread bytes)
    (later : List (Performed Op Op.Result)) : HasDrawn (history ++ later) thread bytes := by
  unfold HasDrawn at *
  rw [List.find?_append, drawn]
  rfl

theorem HasDrawn.mem {thread : Nat} {bytes : ByteString} (drawn : HasDrawn history thread bytes) :
    ⟨thread, .random 32, (.ok bytes : Except ByteString ByteString)⟩ ∈ history :=
  List.mem_of_find?_eq_some drawn

theorem HasDrawn.unique {thread : Nat} {one two : ByteString} (first : HasDrawn history thread one)
    (second : HasDrawn history thread two) : one = two := by
  cases first.symm.trans second
  rfl

theorem eq_of_drawn (distinct : SecretsDistinct history) {one two : Performed Op Op.Result}
    (oneMem : one ∈ history) (twoMem : two ∈ history) {secret : ByteString}
    (first : drawnSecret one = some secret) (second : drawnSecret two = some secret) :
    one = two := by
  induction history with
  | nil => cases oneMem
  | cons performed history induction =>
      have fresh : ∀ other ∈ history, drawnSecret performed = some secret →
          drawnSecret other ≠ some secret := by
        intro other member drawn again
        simp only [SecretsDistinct, List.filterMap_cons, drawn, List.nodup_cons] at distinct
        exact distinct.1 (List.mem_filterMap.mpr ⟨other, member, again⟩)
      have rest : SecretsDistinct history :=
        distinct.sublist ((List.sublist_cons_self _ _).filterMap _)
      rcases List.mem_cons.mp oneMem with rfl | oneLater <;>
        rcases List.mem_cons.mp twoMem with same | twoLater
      · exact same.symm
      · exact absurd second (fresh two twoLater first)
      · subst same
        exact absurd first (fresh one oneLater second)
      · exact induction rest oneLater twoLater

end History

/-! ## The invariant -/

/-- A row of `api_keys` holds the hash of what the call that made it has drawn. -/
def RowOf (platform : Platform) (history : List (Performed Op Op.Result))
    (entry : Nat × APIKeyRow) (key : LiveKey) : Prop :=
  entry.1 = key.id ∧ entry.2.userID = key.userID ∧ ∃ bytes,
    HasDrawn history key.creator bytes ∧
    entry.2.keyHash = Store.hashAPIKey platform.toLibraries (apiKeyOf bytes)

/-- The rows of `api_keys` are the live keys, with different hashes. -/
def KeysMatch (platform : Platform) (world : World)
    (history : List (Performed Op Op.Result)) : Prop :=
  List.Forall₂ (RowOf platform history) world.tables.apiKeys.rows (liveKeys history) ∧
    (world.tables.apiKeys.rows.map fun entry => entry.2.keyHash).Nodup

structure Credentials (platform : Platform) (config : CredentialConfig) : Prop where
  tracked : Machine.Tracked (CallTracks platform) config
  running : ∀ thread call, config.threads thread ≠ .killed call
  put : ∀ token entry, config.scene.world.tokens token = some entry → ∃ thread,
    ⟨thread, .putToken token entry.userID entry.expiry, ()⟩ ∈ config.scene.history
  kept : ∀ thread token user expiry,
    ⟨thread, .putToken token user expiry, ()⟩ ∈ config.scene.history →
    ¬ expiry < config.scene.world.store.clock →
    config.scene.world.tokens token = some ⟨user, expiry⟩
  keys : KeysMatch platform config.scene.world config.scene.history

section Invariant

variable {platform : Platform} {config after : CredentialConfig} {thread : Nat}

theorem mem_own {performed : Performed Op Op.Result}
    (member : performed ∈ config.scene.history) :
    performed ∈ config.scene.own performed.thread :=
  List.mem_filter.mpr ⟨member, decide_eq_true rfl⟩

theorem mem_history {performed : Performed Op Op.Result}
    (member : performed ∈ config.scene.own thread) : performed ∈ config.scene.history :=
  (List.mem_filter.mp member).1

theorem Credentials.issued (tracked : Machine.Tracked (CallTracks platform) config)
    (running : ∀ thread call, config.threads thread ≠ .killed call)
    {token user : ByteString} {expiry : Instant}
    (member : ⟨thread, .putToken token user expiry, ()⟩ ∈ config.scene.history) :
    ∃ issuedAt, expiry = issuedAt + tokenLifetime ∧
      config.threads thread = .running (.generateToken user) (.done (.token (.ok token))) ∧
      config.scene.own thread = issuance thread token user issuedAt := by
  have own := mem_own member
  cases status : config.threads thread with
  | idle =>
      rw [(tracked thread).1 status] at own
      cases own
  | killed call => exact absurd status (running thread call)
  | running call rest =>
      have tracks := (tracked thread).2 call rest status
      have unput : ¬ Unput (config.scene.own thread) := fun unput => by cases unput _ own
      cases rest with
      | perform op next => exact absurd tracks.1.1 unput
      | done reply =>
          change CallDone thread call reply _ at tracks
          unfold CallDone at tracks
          split at tracks
          case h_2 => exact absurd tracks unput
          case h_1 userID issued =>
            obtain ⟨issuedAt, shape⟩ := tracks
            rw [shape] at own
            simp only [issuance, List.mem_cons, List.not_mem_nil, or_false] at own
            rcases own with drawn | read | put
            · cases drawn
            · cases read
            · cases put
              exact ⟨issuedAt, rfl, rfl, shape⟩

theorem clock_of_perform {world reached : World} {op : Op} {choice : Choice} {result : op.Result}
    (performed : perform platform thread op choice world = some (result, reached)) :
    reached.store.clock = world.store.clock := by
  by_cases leaves : op.leavesStore = true
  · rw [store_of_perform leaves performed]
  · cases op with
    | store op => exact perform_clock (perform_store performed)
    | nanoid | random | putToken | checkToken | broadcast | register | writePump
      | renderContent | readFile => exact absurd rfl leaves

theorem token_of_perform {world reached : World} {op : Op} {choice : Choice}
    {result : op.Result} {token : ByteString} {entry : TokenEntry}
    (performed : perform platform thread op choice world = some (result, reached))
    (found : world.tokens token = some entry) (live : ¬ entry.expiry < world.store.clock)
    (other : ∀ user expiry, op ≠ .putToken token user expiry) :
    reached.tokens token = some entry := by
  cases touches_of_perform performed with
  | nothing | store | broadcast | register => exact found
  | @putToken put userID expiry =>
      have different : token ≠ put := by
        rintro rfl
        exact other userID expiry rfl
      simpa only [World.setTokens, Function.update_of_ne different] using found
  | @expire checked entry' found' expired =>
      have different : token ≠ checked := by
        rintro rfl
        rw [found] at found'
        cases found'
        exact live expired
      simpa only [World.setTokens, Function.update_of_ne different] using found

theorem rowOf_insert {entry : Nat × APIKeyRow} {key : LiveKey}
    {history : List (Performed Op Op.Result)} {performed : Performed Op Op.Result}
    (row : RowOf platform history entry key) :
    RowOf platform (history ++ [performed]) entry key := by
  obtain ⟨id, userID, bytes, drawn, hash⟩ := row
  exact ⟨id, userID, bytes, drawn.append _, hash⟩

theorem liveKeysStep_of_quiet {live : List LiveKey} {op : Op} {result : op.Result}
    (quiet : op.isQuiet = true) : liveKeysStep live ⟨thread, op, result⟩ = live := by
  cases op with
  | store op =>
      cases op with
      | exec inTx statement => cases quiet
      | begin | query | commit | rollback | now | bcrypt => rfl
  | nanoid | random | checkToken | writePump | renderContent | readFile => rfl
  | putToken | broadcast | register => cases quiet

theorem hashAPIKey_injective (injective : Function.Injective platform.sha256) :
    Function.Injective (Store.hashAPIKey platform.toLibraries) :=
  Bytes.hexEncode_injective.comp injective

theorem exists_live {rows : List (Nat × APIKeyRow)} {history : List (Performed Op Op.Result)}
    {live : List LiveKey} (keys : List.Forall₂ (RowOf platform history) rows live)
    {entry : Nat × APIKeyRow} (member : entry ∈ rows) :
    ∃ key ∈ live, RowOf platform history entry key := by
  induction keys with
  | nil => cases member
  | cons row _ induction =>
      rcases List.mem_cons.mp member with rfl | later
      · exact ⟨_, List.mem_cons_self, row⟩
      · obtain ⟨key, keyMem, found⟩ := induction later
        exact ⟨key, List.mem_cons_of_mem _ keyMem, found⟩

theorem exists_row {rows : List (Nat × APIKeyRow)} {history : List (Performed Op Op.Result)}
    {live : List LiveKey} (keys : List.Forall₂ (RowOf platform history) rows live)
    {key : LiveKey} (member : key ∈ live) :
    ∃ entry ∈ rows, RowOf platform history entry key := by
  induction keys with
  | nil => cases member
  | cons row _ induction =>
      rcases List.mem_cons.mp member with rfl | later
      · exact ⟨_, List.mem_cons_self, row⟩
      · obtain ⟨entry, entryMem, found⟩ := induction later
        exact ⟨entry, List.mem_cons_of_mem _ entryMem, found⟩

theorem KeysMatch.same {world reached : World} {history : List (Performed Op Op.Result)}
    {performed : Performed Op Op.Result} (keys : KeysMatch platform world history)
    (tables : reached.tables = world.tables)
    (live : liveKeysStep (liveKeys history) performed = liveKeys history) :
    KeysMatch platform reached (history ++ [performed]) := by
  unfold KeysMatch
  rw [tables, liveKeys_snoc, live]
  exact ⟨keys.1.imp fun _ _ => rowOf_insert, keys.2⟩

theorem KeysMatch.delete {world reached : World} {history : List (Performed Op Op.Result)}
    {id : Int} {choice : Choice} {result : Except SqlError Outcome}
    (keys : KeysMatch platform world history)
    (performed : perform platform thread (.store (.exec false (.deleteAPIKey id))) choice world =
      some (result, reached)) :
    KeysMatch platform reached
      (history ++ [⟨thread, .store (.exec false (.deleteAPIKey id)), result⟩]) := by
  rcases exec_cases (perform_store performed) with ⟨-, rfl, same⟩ |
    ⟨-, -, ⟨outcome, tables, rfl, applied, same⟩ | ⟨error, rfl, -, same⟩⟩
  · exact keys.same (congrArg (fun store => store.database.committed) same) rfl
  · cases applied
    have rows : reached.tables.apiKeys.rows =
        world.tables.apiKeys.rows.filter fun entry => !decide ((entry.1 : Int) = id) := by
      rw [World.tables, same]
      rfl
    unfold KeysMatch
    rw [liveKeys_snoc, rows]
    refine ⟨List.rel_filter (fun entry key row => ?_) (keys.1.imp fun _ _ => rowOf_insert),
      keys.2.sublist (List.filter_sublist.map _)⟩
    simp [row.1]
  · exact keys.same (congrArg (fun store => store.database.committed) same) rfl

theorem KeysMatch.insert {world reached : World} {history : List (Performed Op Op.Result)}
    {userID admin name bytes : ByteString} {choice : Choice} {result : Except SqlError Outcome}
    (injective : Function.Injective platform.sha256) (keys : KeysMatch platform world history)
    (distinct : SecretsDistinct history)
    (drawn : HasDrawn history thread bytes)
    (first : ∀ key ∈ liveKeys history, key.creator ≠ thread)
    (performed : perform platform thread (.store (.exec false (.insertAPIKey userID admin
      (Store.hashAPIKey platform.toLibraries (apiKeyOf bytes)) name))) choice world =
        some (result, reached)) :
    KeysMatch platform reached (history ++ [⟨thread, .store (.exec false (.insertAPIKey userID
      admin (Store.hashAPIKey platform.toLibraries (apiKeyOf bytes)) name)), result⟩]) := by
  rcases exec_cases (perform_store performed) with ⟨-, rfl, same⟩ |
    ⟨-, -, ⟨outcome, tables, rfl, applied, same⟩ | ⟨error, rfl, -, same⟩⟩
  · exact keys.same (congrArg (fun store => store.database.committed) same) rfl
  · simp only [Statement.apply] at applied
    split at applied
    case h_2 => cases applied
    case h_1 apiKeys inserted =>
      cases applied
      obtain ⟨last, rows⟩ := NumberedTable.insert_eq_some inserted
      have stored : reached.tables.apiKeys.rows = apiKeys.rows := by
        rw [World.tables, same]
        rfl
      unfold KeysMatch
      rw [liveKeys_snoc, stored, rows]
      constructor
      · refine List.rel_append (keys.1.imp fun _ _ => rowOf_insert) (.cons ?_ .nil)
        exact ⟨last.symm, rfl, bytes, drawn.append _, rfl⟩
      · rw [List.map_append]
        refine List.nodup_append.mpr ⟨keys.2, List.nodup_singleton _, ?_⟩
        intro hash member other otherMem equal
        obtain ⟨entry, entryMem, rfl⟩ := List.mem_map.mp member
        obtain ⟨key, live, row⟩ := exists_live keys.1 entryMem
        obtain ⟨-, -, bytes', drawn', hash'⟩ := row
        rw [List.mem_singleton.mp otherMem, hash'] at equal
        have raw : apiKeyOf bytes' = apiKeyOf bytes := hashAPIKey_injective injective equal
        have again := eq_of_drawn distinct drawn'.mem drawn.mem rfl (congrArg some raw.symm)
        exact first key live (congrArg Performed.thread again)
  · exact keys.same (congrArg (fun store => store.database.committed) same) rfl

theorem clock_of_environment {world reached : World} {happening : Happening}
    (happened : environment platform happening world = some reached) :
    world.store.clock ≤ reached.store.clock := by
  cases happening with
  | advance elapsed =>
      cases happened
      exact Int.le_add_of_nonneg_right (Int.natCast_nonneg elapsed)
  | coldStart code =>
      have opened : world.coldStart code = some reached := happened
      unfold World.coldStart at opened
      split at opened
      · split at opened
        case h_1 outcome store executed =>
          cases opened
          have performed : Storage.perform platform.toLibraries 0
              (.exec false (.insertInvite code (Calendar.unixSeconds
                (world.store.clock + World.inviteLifetime)) [])) .plain world.store =
              some (outcome, store) := executed
          exact le_of_eq (perform_clock performed).symm
        case h_2 => cases opened
      · cases opened
  | hub event fault =>
      obtain ⟨hub, -, rfl⟩ := Option.map_eq_some_iff.mp happened
      exact le_refl _
  | reload entries => cases happened; exact le_refl _
  | files files => cases happened; exact le_refl _

theorem running_of_next {event : CredentialEvent} (uninterrupted : isUninterrupted event = true)
    (running : ∀ thread call, config.threads thread ≠ .killed call)
    (taken : credentialNext platform config event = some after) (thread : Nat)
    (call : CredentialCall) : after.threads thread ≠ .killed call := by
  have kept : ∀ (stepping : Nat) (status : Thread Op Op.Result CredentialCall CredentialReply),
      (∀ call, status ≠ .killed call) →
      Function.update config.threads stepping status thread ≠ .killed call := by
    intro stepping status alive
    by_cases same : thread = stepping
    · rw [same, Function.update_self]
      exact alive call
    · rw [Function.update_of_ne same]
      exact running thread call
  cases event with
  | restart => cases uninterrupted
  | arrive arriving incoming =>
      obtain ⟨-, rfl⟩ := Machine.next_arrive taken
      exact kept arriving _ nofun
  | step stepping choice =>
      obtain ⟨_, _, _, _, _, -, -, rfl⟩ := Machine.next_step taken
      exact kept stepping _ nofun
  | environment happening =>
      obtain ⟨world, -, rfl⟩ := Machine.next_environment taken
      exact running thread call

theorem Credentials.sessions_step (credentials : Credentials platform config)
    {op : Op} {choice : Choice} {result : op.Result} {scene : ServerScene}
    (distinct : SecretsDistinct config.scene.history)
    (unput : Unput (config.scene.own thread))
    (needs : CallNeeds platform thread op (config.scene.own thread))
    (observed : (machine platform).observe thread op choice config.scene = some (result, scene)) :
    (∀ token entry, scene.world.tokens token = some entry → ∃ thread,
      ⟨thread, .putToken token entry.userID entry.expiry, ()⟩ ∈ scene.history) ∧
    ∀ thread token user expiry,
      ⟨thread, .putToken token user expiry, ()⟩ ∈ scene.history →
      ¬ expiry < scene.world.store.clock → scene.world.tokens token = some ⟨user, expiry⟩ := by
  obtain ⟨performed, history⟩ := Machine.observe_eq_some.mp observed
  rw [history, clock_of_perform performed]
  constructor
  · intro token entry found
    rcases tokens_of_perform performed found with old | rfl
    · obtain ⟨issuer, member⟩ := credentials.put token entry old
      exact ⟨issuer, List.mem_append_left _ member⟩
    · exact ⟨thread, List.mem_append_right _ (List.mem_singleton_self _)⟩
  · intro issuer token user expiry member live
    rcases List.mem_append.mp member with old | new
    · refine token_of_perform performed (credentials.kept issuer token user expiry old live)
        live ?_
      -- another session with the same token would take a second draw of it
      rintro other later rfl
      obtain ⟨issuedAt, shape⟩ := needs
      have own : ⟨thread, .nanoid 32, (.ok token : Except ByteString ByteString)⟩ ∈
          config.scene.own thread := by
        have first : ⟨thread, .nanoid 32, (.ok token : Except ByteString ByteString)⟩ ∈
            issuance thread token other issuedAt := List.mem_cons_self
        rw [← shape] at first
        refine (List.mem_append.mp first).resolve_right fun last => ?_
        cases List.mem_singleton.mp last
      obtain ⟨_, -, -, issued⟩ := Credentials.issued credentials.tracked credentials.running old
      have drawn : ⟨issuer, .nanoid 32, (.ok token : Except ByteString ByteString)⟩ ∈
          config.scene.own issuer := by
        rw [issued]
        exact List.mem_cons_self
      have same := eq_of_drawn distinct (mem_history drawn) (mem_history own) rfl rfl
      cases same
      cases unput _ (mem_own old)
    · cases List.mem_singleton.mp new
      have reached : scene.world = _ := (congrArg Prod.snd (Option.some.inj performed)).symm
      rw [reached]
      simp [World.setTokens]

theorem Credentials.keys_step (credentials : Credentials platform config)
    {op : Op} {choice : Choice} {result : op.Result} {scene : ServerScene}
    (injective : Function.Injective platform.sha256)
    (distinct : SecretsDistinct config.scene.history)
    (needs : CallNeeds platform thread op (config.scene.own thread))
    (observed : (machine platform).observe thread op choice config.scene = some (result, scene)) :
    KeysMatch platform scene.world scene.history := by
  have performed := performed_of_observe observed
  rw [(Machine.observe_eq_some.mp observed).2]
  by_cases quiet : op.isQuiet = true
  · exact credentials.keys.same
      (congrArg (fun store => store.database.committed) (store_of_quiet quiet performed))
      (liveKeysStep_of_quiet quiet)
  unfold CallNeeds at needs
  split at needs
  case h_1 token userID expiry =>
    exact credentials.keys.same
      (congrArg (fun store => store.database.committed) (store_of_perform rfl performed)) rfl
  case h_2 userID admin keyHash name =>
    obtain ⟨bytes, own, rfl⟩ := needs
    refine credentials.keys.insert injective distinct ?_ ?_ performed
    · rw [HasDrawn, ← List.head?_filter]
      exact congrArg List.head? own
    · rintro key live rfl
      obtain ⟨_, _, _, _, member⟩ := inserted_of_live live
      have inserted := mem_own member
      rw [own] at inserted
      cases List.mem_singleton.mp inserted
  case h_3 id => exact credentials.keys.delete performed
  case h_4 => exact absurd needs quiet

theorem Credentials.next {event : CredentialEvent} (credentials : Credentials platform config)
    (injective : Function.Injective platform.sha256)
    (distinct : SecretsDistinct config.scene.history)
    (uninterrupted : isUninterrupted event = true)
    (taken : credentialNext platform config event = some after) :
    Credentials platform after := by
  have tracked := credentials.tracked.next calls_tracking taken
  have running := running_of_next uninterrupted credentials.running taken
  cases event with
  | restart => cases uninterrupted
  | arrive arriving incoming =>
      obtain ⟨-, rfl⟩ := Machine.next_arrive taken
      exact ⟨tracked, running, credentials.put, credentials.kept, credentials.keys⟩
  | step stepping choice =>
      obtain ⟨call, op, rest, result, scene, status, observed, rfl⟩ := Machine.next_step taken
      obtain ⟨unput, needs⟩ := ((credentials.tracked stepping).2 call _ status).1
      obtain ⟨put, kept⟩ := credentials.sessions_step distinct unput needs observed
      exact ⟨tracked, running, put, kept,
        credentials.keys_step injective distinct needs observed⟩
  | environment happening =>
      obtain ⟨world, happened, rfl⟩ := Machine.next_environment taken
      have tokens := tokens_of_environment happened
      refine ⟨tracked, running, ?_, ?_, ?_⟩
      · intro token entry found
        exact credentials.put token entry (tokens ▸ found)
      · intro issuer token user expiry member live
        change world.tokens token = _
        rw [tokens]
        refine credentials.kept issuer token user expiry member fun expired => live ?_
        exact lt_of_lt_of_le expired (clock_of_environment happened)
      · obtain ⟨rows, hashes⟩ := credentials.keys
        have same := apiKeys_of_environment happened
        exact ⟨by rw [same]; exact rows, by rw [same]; exact hashes⟩

theorem credentials_start {tables : Tables} {clock : Instant} (none : tables.apiKeys.rows = []) :
    Credentials platform (Config.start (World.start tables clock)) where
  tracked := Machine.tracked_start
  running := nofun
  put := nofun
  kept := nofun
  keys := by
    have rows : (World.start tables clock).tables.apiKeys.rows = [] := none
    unfold KeysMatch
    rw [show (Config.start (World.start tables clock)).scene.world.tables.apiKeys.rows = []
      from none]
    exact ⟨.nil, List.nodup_nil⟩

theorem SecretsDistinct.of_prefix {earlier history : List (Performed Op Op.Result)}
    (distinct : SecretsDistinct history) (before : earlier <+: history) :
    SecretsDistinct earlier :=
  distinct.sublist (before.sublist.filterMap _)

theorem credentials_of_run {tables : Tables} {clock : Instant} {events : List CredentialEvent}
    (injective : Function.Injective platform.sha256) (none : tables.apiKeys.rows = [])
    (run : Run (credentialNext platform) (fun _ event => isUninterrupted event = true)
      (Config.start (World.start tables clock)) events config)
    (distinct : SecretsDistinct config.scene.history) : Credentials platform config := by
  refine run.ahead.invariant (Credentials platform) ?_ (credentials_start none)
  rintro now event after credentials ⟨uninterrupted, rest, later⟩ taken
  exact credentials.next injective (distinct.of_prefix (Machine.history_of_run later))
    uninterrupted taken

/-! ## What is accepted -/

theorem Credentials.session_iff (credentials : Credentials platform config)
    {token user : ByteString} :
    (config.scene.world.checkToken token).1 = some user ↔ SessionOf config token user := by
  constructor
  · intro known
    obtain ⟨entry, found, live, rfl⟩ := World.checkToken_eq_some.mp known
    obtain ⟨thread, member⟩ := credentials.put token entry found
    obtain ⟨issuedAt, expiry, returned, own⟩ :=
      Credentials.issued credentials.tracked credentials.running member
    have read : ⟨thread, .store .now, issuedAt⟩ ∈ config.scene.own thread := by
      rw [own]
      exact List.mem_cons_of_mem _ List.mem_cons_self
    exact ⟨thread, issuedAt, returned, mem_history read, expiry ▸ live⟩
  · rintro ⟨thread, issuedAt, returned, read, live⟩
    have tracks := (credentials.tracked thread).2 _ _ returned
    obtain ⟨readAt, own⟩ : ∃ readAt, config.scene.own thread =
      issuance thread token user readAt := tracks
    have readOwn := mem_own read
    rw [own] at readOwn
    have same : issuedAt = readAt := by
      simp only [issuance, List.mem_cons, List.not_mem_nil, or_false] at readOwn
      rcases readOwn with drawn | again | put
      · cases drawn
      · cases again
        rfl
      · cases put
    subst same
    have put : ⟨thread, .putToken token user (issuedAt + tokenLifetime), ()⟩ ∈
        config.scene.own thread := by
      rw [own]
      exact List.mem_cons_of_mem _ (List.mem_cons_of_mem _ List.mem_cons_self)
    exact World.checkToken_eq_some.mpr
      ⟨_, credentials.kept thread token user _ (mem_history put) live, live, rfl⟩

theorem Credentials.key_iff (credentials : Credentials platform config)
    (injective : Function.Injective platform.sha256) {token user : ByteString} :
    config.scene.world.keyOwner platform token = some user ↔ KeyOf config token user := by
  obtain ⟨rows, hashes⟩ := credentials.keys
  constructor
  · intro owned
    obtain ⟨entry, found, rfl⟩ := Option.map_eq_some_iff.mp owned
    obtain ⟨key, live, -, userID, bytes, drawn, hash⟩ :=
      exists_live rows (List.mem_of_find?_eq_some found)
    have matching : entry.2.keyHash = Store.hashAPIKey platform.toLibraries token := by
      simpa using List.find?_some found
    exact ⟨key, live, userID.symm, bytes, drawn,
      hashAPIKey_injective injective (matching.symm.trans hash)⟩
  · rintro ⟨key, live, rfl, bytes, drawn, rfl⟩
    obtain ⟨entry, member, -, userID, bytes', drawn', hash⟩ := exists_row rows live
    rw [drawn'.unique drawn] at hash
    refine Option.map_eq_some_iff.mpr ⟨entry, ?_, userID⟩
    rw [← hash]
    exact find?_of_nodup hashes member

theorem prefix_of_keyOf {token user : ByteString} (keyed : KeyOf config token user) :
    Bytes.hasPrefix apiKeyPrefix token = true := by
  obtain ⟨key, -, -, bytes, -, rfl⟩ := keyed
  exact Bytes.hasPrefix_append apiKeyPrefix _

theorem Credentials.drawn_of_session (credentials : Credentials platform config)
    {token user : ByteString} (session : SessionOf config token user) : ∃ thread,
    ⟨thread, .nanoid 32, (.ok token : Except ByteString ByteString)⟩ ∈ config.scene.history := by
  obtain ⟨thread, -, returned, -⟩ := session
  obtain ⟨issuedAt, own⟩ : ∃ issuedAt, config.scene.own thread =
    issuance thread token user issuedAt := (credentials.tracked thread).2 _ _ returned
  have drawn : ⟨thread, .nanoid 32, (.ok token : Except ByteString ByteString)⟩ ∈
      config.scene.own thread := by
    rw [own]
    exact List.mem_cons_self
  exact ⟨thread, mem_history drawn⟩

theorem Credentials.apart (distinct : SecretsDistinct config.scene.history)
    (credentials : Credentials platform config) {token user owner : ByteString}
    (session : SessionOf config token user) : ¬ KeyOf config token owner := by
  rintro ⟨key, -, -, bytes, drawnKey, rfl⟩
  obtain ⟨thread, drawn⟩ := credentials.drawn_of_session session
  cases eq_of_drawn distinct drawn drawnKey.mem rfl rfl

theorem Credentials.mean_iff (credentials : Credentials platform config)
    (injective : Function.Injective platform.sha256)
    (distinct : SecretsDistinct config.scene.history) :
    CredentialsMean platform config ↔ ∀ token user, SessionOf config token user →
      Bytes.hasPrefix apiKeyPrefix token = false := by
  constructor
  · intro means token user session
    refine Bool.eq_false_iff.mpr fun isKey => ?_
    have owned := accepts_iff.mp ((means token user).mpr (.inl session))
    rw [World.owner, if_pos isKey] at owned
    exact credentials.apart distinct session ((credentials.key_iff injective).mp owned)
  · intro plain token user
    rw [accepts_iff, World.owner]
    split
    · next isKey =>
      rw [credentials.key_iff injective]
      refine ⟨.inr, fun valid => valid.resolve_left fun session => ?_⟩
      cases isKey.symm.trans (plain token user session)
    · next notKey =>
      rw [credentials.session_iff]
      exact ⟨.inl, fun valid => valid.resolve_right fun keyed =>
        notKey (prefix_of_keyOf keyed)⟩

end Invariant

/-! ## The main result -/

/-- In every run a token is accepted exactly while it is a session or a key. -/
def AlwaysMean (platform : Platform) : Prop :=
  ∀ tables clock events config, tables.apiKeys.rows = [] →
    Run (credentialNext platform) (fun _ event => isUninterrupted event = true)
      (Config.start (World.start tables clock)) events config →
    SecretsDistinct config.scene.history → CredentialsMean platform config

def annsSession (token : ByteString) : List CredentialEvent :=
  [.arrive 0 (.generateToken (utf8 "ann")), .step 0 ⟨false, token⟩, .step 0 .plain,
    .step 0 .plain, .environment (.advance 3600000000000)]

/-- Whom the token is accepted for as a session, and the secrets that were drawn. -/
def CredentialConfig.summary (token : ByteString) (config : CredentialConfig) :
    Option ByteString × List ByteString :=
  ((config.scene.world.checkToken token).1, config.scene.history.filterMap drawnSecret)

/-- Credentials mean what they were issued for just when no session in force has
the prefix of the API keys. -/
theorem credentialsMean_iff {platform : Platform} {tables : Tables} {clock : Instant}
    {events : List CredentialEvent} {config : CredentialConfig}
    (injective : Function.Injective platform.sha256) (none : tables.apiKeys.rows = [])
    (run : Run (credentialNext platform) (fun _ event => isUninterrupted event = true)
      (Config.start (World.start tables clock)) events config)
    (distinct : SecretsDistinct config.scene.history) :
    CredentialsMean platform config ↔ ∀ token user, SessionOf config token user →
      Bytes.hasPrefix apiKeyPrefix token = false :=
  (credentials_of_run injective none run distinct).mean_iff injective distinct

theorem annsSession_means : ∃ config : CredentialConfig, CredentialsMean .transparent config ∧
    config.summary (utf8 "abcdefghijklmnopqrstuvwxyzABCDEF") =
      (some (utf8 "ann"), [utf8 "abcdefghijklmnopqrstuvwxyzABCDEF"]) := by
  have executed : (executeWhere (credentialNext .transparent) (fun _ => isUninterrupted)
      (Config.start (World.start .created 0))
      (annsSession (utf8 "abcdefghijklmnopqrstuvwxyzABCDEF"))).map
        (CredentialConfig.summary (utf8 "abcdefghijklmnopqrstuvwxyzABCDEF")) =
      some (some (utf8 "ann"), [utf8 "abcdefghijklmnopqrstuvwxyzABCDEF"]) := by
    decide +kernel
  obtain ⟨config, reached, summary⟩ := Option.map_eq_some_iff.mp executed
  have secrets : config.scene.history.filterMap drawnSecret = _ := congrArg Prod.snd summary
  have distinct : SecretsDistinct config.scene.history := by
    rw [SecretsDistinct, secrets]
    exact List.nodup_singleton _
  have run := run_of_executeWhere reached
  refine ⟨config, (credentialsMean_iff Function.injective_id rfl run distinct).mpr ?_, summary⟩
  intro token user session
  obtain ⟨thread, drawn⟩ := (credentials_of_run Function.injective_id rfl run
    distinct).drawn_of_session session
  have member : token ∈ config.scene.history.filterMap drawnSecret :=
    List.mem_filterMap.mpr ⟨_, drawn, rfl⟩
  rw [secrets] at member
  rw [List.mem_singleton.mp member]
  decide

/-- A session token may begin like an API key, and is then accepted for nobody. -/
theorem not_alwaysMean : ¬ AlwaysMean .transparent := by
  intro means
  have executed : (executeWhere (credentialNext .transparent) (fun _ => isUninterrupted)
      (Config.start (World.start .created 0))
      (annsSession (utf8 "gk_defghijklmnopqrstuvwxyzABCDEF"))).map
        (CredentialConfig.summary (utf8 "gk_defghijklmnopqrstuvwxyzABCDEF")) =
      some (some (utf8 "ann"), [utf8 "gk_defghijklmnopqrstuvwxyzABCDEF"]) := by
    decide +kernel
  obtain ⟨config, reached, summary⟩ := Option.map_eq_some_iff.mp executed
  obtain ⟨known, secrets⟩ := Prod.mk.inj summary
  have distinct : SecretsDistinct config.scene.history := by
    rw [SecretsDistinct, secrets]
    exact List.nodup_singleton _
  have run := run_of_executeWhere reached
  have credentials := credentials_of_run Function.injective_id rfl run distinct
  have plain := (credentials.mean_iff Function.injective_id distinct).mp
    (means .created 0 _ config rfl run distinct)
  cases plain _ _ (credentials.session_iff.mp known)

end Grunt.Server
