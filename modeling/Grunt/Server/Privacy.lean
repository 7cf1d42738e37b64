import Grunt.Server.Staging

/-! # What is disclosed without a credential

Two runs of one request over states that differ in the messages. An operation
that neither reads nor writes messages cannot tell them apart, and a handler
that is given no identity performs no others, but for `SyncMessages`, which
does not ask for one.
-/

namespace Grunt.Storage

open Foundation

def Query.isBeyond : Query → Bool
  | .lastMessages since _ | .messagesSince since => maxRowid ≤ since
  | _ => false

def Statement.isBlind : Statement → Bool
  | .insertMessage _ => false
  | _ => true

def Op.isBlind : Op → Bool
  | .query _ asked => !asked.isHistory || asked.isBeyond
  | .exec _ statement => statement.isBlind
  | _ => true

theorem Op.isBlind_of_isPlainRead {op : Op} (read : op.isPlainRead = true) :
    op.isBlind = true := by
  cases op <;> simp_all [isPlainRead, isBlind]

namespace Tables

def forget (tables : Tables) : Tables := { tables with messages := .empty }

theorem after_eq_nil (tables : Tables) {since : Int} (beyond : maxRowid ≤ since) :
    Query.after since tables.messages.rows = [] := by
  refine List.filter_eq_nil_iff.mpr fun entry member => ?_
  have bounded := tables.messages.bounded entry member
  have limit := tables.messages.last_le
  simp only [decide_eq_true_eq, not_lt]
  omega

end Tables

theorem Query.eval_forget {asked : Query} (blind : (!asked.isHistory || asked.isBeyond) = true)
    (tables : Tables) : asked.eval tables.forget = asked.eval tables := by
  cases asked with
  | lastMessages since limit =>
      have beyond : maxRowid ≤ since := by simpa [isHistory, isBeyond] using blind
      simp only [eval, Tables.after_eq_nil _ beyond]
      rfl
  | messagesSince since =>
      have beyond : maxRowid ≤ since := by simpa [isHistory, isBeyond] using blind
      simp only [eval, Tables.after_eq_nil _ beyond]
      rfl
  | inviteExpiry | passwordHash | isAdmin | avatar | userCount | apiKeyOwner | apiKeys
    | users => rfl

theorem Statement.apply_forget {statement : Statement} (blind : statement.isBlind = true)
    (now : Instant) (tables : Tables) : statement.apply now tables.forget =
      (statement.apply now tables).map fun done => (done.1, done.2.forget) := by
  cases statement with
  | insertUser user hash =>
      simp only [apply, Tables.forget]
      split <;> rfl
  | insertInvite code expiresAt createdBy =>
      simp only [apply, Tables.forget]
      split <;> rfl
  | insertAPIKey userID adminUserID keyHash name =>
      simp only [apply, Tables.forget]
      split <;> rfl
  | insertMessage row => cases blind
  | setUserAdmin | setPassword | setAvatar | useInvite | deleteAPIKey => rfl

namespace World

def forget (world : World) : World := world.setDatabase (world.database.map Tables.forget)

theorem view_forget (world : World) (thread : Nat) (inTx : Bool) :
    world.forget.view thread inTx = (world.view thread inTx).forget := by
  cases inTx
  · rfl
  · exact Database.view_map

theorem exec_forget {statement : Statement} (blind : statement.isBlind = true) (thread : Nat)
    (inTx fault : Bool) (world : World) :
    world.forget.exec thread inTx statement fault =
      (world.exec thread inTx statement fault).map fun done => (done.1, done.2.forget) := by
  have agree := Statement.apply_forget blind world.clock
  unfold exec
  split
  · rfl
  · cases inTx
    · simp only [forget, setDatabase_database, setDatabase_clock, Database.execute_map agree,
        Option.map_map, Bool.false_eq_true, if_false]
      rfl
    · simp only [forget, setDatabase_database, setDatabase_clock, Database.executeIn_map agree,
        Option.map_map, if_true]
      rfl

end World

theorem perform_forget {libraries : Libraries} {thread : Nat} {op : Op}
    (blind : op.isBlind = true) (choice : Choice) (world : World) :
    perform libraries thread op choice world.forget =
      (perform libraries thread op choice world).map fun done => (done.1, done.2.forget) := by
  cases op with
  | query inTx asked =>
      simp only [perform, World.view_forget, Query.eval_forget blind]
      rfl
  | exec inTx statement => exact World.exec_forget blind thread inTx choice.fault world
  | commit =>
      simp only [perform, World.commit]
      split
      · simp only [World.forget, World.setDatabase_database, Database.rollback_map]
        rfl
      · simp only [World.forget, World.setDatabase_database, Database.commit_map]
        rfl
  | rollback =>
      simp only [perform, World.forget, World.setDatabase_database, Database.rollback_map]
      rfl
  | begin | now | bcrypt => rfl

end Grunt.Storage

namespace Grunt.Server

open Foundation Storage

def Op.isBlind : Op → Bool
  | .store op => op.isBlind
  | _ => true

def World.forget (world : World) : World := world.setStore world.store.forget

theorem checkToken_forget (token : ByteString) (world : World) :
    world.forget.checkToken token =
      ((world.checkToken token).1, (world.checkToken token).2.forget) := by
  have tokens : world.forget.tokens = world.tokens := rfl
  have clock : world.forget.store.clock = world.store.clock := rfl
  unfold World.checkToken
  rw [tokens]
  cases world.tokens token with
  | none => rfl
  | some entry =>
      by_cases expired : entry.expiry < world.store.clock
      · simp only [clock, expired, if_true]
        rfl
      · simp only [clock, expired, if_false]

theorem perform_forget {platform : Platform} {thread : Nat} {op : Op}
    (blind : op.isBlind = true) (choice : Choice) (world : World) :
    perform platform thread op choice world.forget =
      (perform platform thread op choice world).map fun done => (done.1, done.2.forget) := by
  cases op with
  | store op =>
      simp only [perform, World.forget, World.setStore, Storage.perform_forget blind,
        Option.map_map]
      rfl
  | nanoid size =>
      simp only [perform]
      cases drawn (suitsNanoid size) choice <;> rfl
  | random size =>
      simp only [perform]
      cases drawn (fun bytes => bytes.length = size) choice <;> rfl
  | broadcast item =>
      simp only [perform, Option.map_map]
      rfl
  | register subscriber =>
      simp only [perform, Option.map_map]
      rfl
  | checkToken token =>
      simp only [perform, checkToken_forget]
      rfl
  | writePump =>
      simp only [perform, World.forget, World.setStore]
      split
      · split <;> rfl
      · rfl
  | putToken | renderContent | readFile => rfl

def SameButMessages (left right : World) : Prop := left.forget = right.forget

theorem agree_of_blind {platform : Platform} {thread : Nat} {op : Op}
    (blind : op.isBlind = true) {choice : Choice} {left right afterLeft : World}
    {result : op.Result} (same : SameButMessages left right)
    (performed : perform platform thread op choice left = some (result, afterLeft)) :
    ∃ afterRight, perform platform thread op choice right = some (result, afterRight) ∧
      SameButMessages afterLeft afterRight := by
  have forgotten : perform platform thread op choice left.forget = _ :=
    perform_forget blind choice left
  rw [same, perform_forget blind, performed] at forgotten
  obtain ⟨⟨answer, afterRight⟩, performedRight, equal⟩ := Option.map_eq_some_iff.mp forgotten
  obtain ⟨rfl, forgottenRight⟩ := Prod.mk.injEq _ _ _ _ ▸ equal
  exact ⟨afterRight, performedRight, forgottenRight.symm⟩

/-! ## What a handler does without an identity -/

theorem Op.isBlind_of_isQuiet {op : Op} (quiet : op.isQuiet = true) : op.isBlind = true := by
  cases op with
  | store op => exact Storage.Op.isBlind_of_isPlainRead quiet
  | _ => rfl

theorem isBlind_of_isRegistering {op : Storage.Op} (registering : isRegistering op = true) :
    op.isBlind = true := by
  cases op with
  | exec inTx statement => cases inTx <;> cases statement <;> first | rfl | cases registering
  | query => cases registering
  | _ => rfl

theorem isBlind_of_permits {route : Route} (other : route ≠ .syncMessages) {op : Op}
    (permitted : route.permits .anonymous op) : op.isBlind = true := by
  cases op with
  | store op =>
      cases op with
      | exec inTx statement =>
          cases statement with
          | insertMessage row =>
              cases route with
              | registerUser => exact isBlind_of_isRegistering permitted
              | register => exact isBlind_of_isRegistering permitted
              | sendMessage =>
                  cases inTx with
                  | true => cases permitted
                  | false => exact absurd rfl permitted.1
              | _ => cases inTx <;> cases permitted
          | _ => rfl
      | query inTx asked =>
          cases route with
          | registerUser => cases permitted
          | register => cases permitted
          | syncMessages => exact absurd rfl other
          | index =>
              cases inTx with
              | true => cases permitted
              | false => cases permitted.2
          | _ => cases inTx <;> cases permitted
      | _ => rfl
  | _ => rfl

section Requests

variable {platform : Platform} {request : Request}

/-- `SyncMessages` answers anybody whose parameters are well formed. -/
def Discloses (platform : Platform) (request : Request) : Prop :=
  route platform request = .syncMessages ∧
    ∃ since last, syncParameters platform request = .ok (since, last) ∧
      since.getD 0 < maxRowid

theorem syncMessages_blind (guarded : ∀ since last,
      syncParameters platform request = .ok (since, last) → ¬ since.getD 0 < maxRowid) :
    (syncMessages platform request).Only fun op => op.isBlind = true := by
  unfold syncMessages
  split
  · trivial
  · next since last parameters =>
    have beyond : maxRowid ≤ since.getD 0 := not_lt.mp (guarded since last parameters)
    have asks : ∀ asked : Query, asked.isBeyond = true →
        (Op.store (.query false asked)).isBlind = true := by
      intro asked above
      simp [Op.isBlind, Storage.Op.isBlind, above]
    have reads : (Store.sync (since.getD 0) (last.getD 0)).Only
        fun op => (Op.store op).isBlind = true := by
      unfold Store.sync
      split
      · exact ⟨asks _ (decide_eq_true beyond), fun result => by cases result <;> trivial⟩
      · exact ⟨asks _ (decide_eq_true beyond), fun result => by cases result <;> trivial⟩
    exact (store_only reads).bind fun result => by cases result <;> trivial

theorem dispatch_blind (guarded : ¬ Discloses platform request) :
    (dispatch platform request .anonymous (route platform request)).Only
      fun op => op.isBlind = true := by
  by_cases syncing : route platform request = .syncMessages
  · rw [syncing]
    exact syncMessages_blind fun since last parameters below =>
      guarded ⟨syncing, since, last, parameters, below⟩
  · exact dispatch_only (fun _ => Op.isBlind_of_isQuiet) _ fun op permitted =>
      isBlind_of_permits syncing permitted

/-! ## Requests that nobody vouches for -/

/-- `ValidateToken` does not accept what the request carries. -/
def Unauthenticated (platform : Platform) (request : Request) (world : World) : Prop :=
  extractToken request ≠ [] → ∀ thread choices user after,
    (validateToken platform (extractToken request)).run (perform platform thread) choices
      world ≠ some (some user, after)

theorem anonymous_of_run {world after : World} {thread : Nat} {choices : List Choice}
    {identity : Identity} (unauthenticated : Unauthenticated platform request world)
    (completed : (authenticate platform request).run (perform platform thread) choices world =
      some (identity, after)) : identity = .anonymous := by
  unfold authenticate at completed
  dsimp only at completed
  split at completed
  · exact (Program.run_done.mp completed).2.1.symm
  · next carries =>
    obtain ⟨first, second, valid, middle, rfl, validated, rest⟩ :=
      Program.run_bind.mp completed
    cases valid with
    | some user => exact absurd validated (unauthenticated carries thread first user middle)
    | none => exact (Program.run_done.mp rest).2.1.symm

/-- The response is the same in any two states that differ in the messages only. -/
def Private (platform : Platform) (request : Request) : Prop :=
  ∀ thread left right, SameButMessages left right → Unauthenticated platform request left →
    ∀ choices response after,
      (serve platform request).run (perform platform thread) choices left =
        some (response, after) →
      ∃ afterRight, (serve platform request).run (perform platform thread) choices right =
        some (response, afterRight)

theorem private_of_guarded (guarded : ¬ Discloses platform request) :
    Private platform request := by
  intro thread left right same unauthenticated choices response after completed
  obtain ⟨first, second, identity, middle, rfl, authenticated, rest⟩ :=
    Program.run_bind.mp completed
  have nobody : identity = .anonymous := anonymous_of_run unauthenticated authenticated
  subst nobody
  have agree : ∀ op choice left right, op.isBlind = true → SameButMessages left right →
      ∀ result afterLeft, perform platform thread op choice left = some (result, afterLeft) →
      ∃ afterRight, perform platform thread op choice right = some (result, afterRight) ∧
        SameButMessages afterLeft afterRight :=
    fun op choice left right blind same result afterLeft => agree_of_blind blind same
  have blind : (authenticate platform request).Only fun op => op.isBlind = true :=
    authenticate_only fun _ => Op.isBlind_of_isQuiet
  obtain ⟨middleRight, authenticatedRight, sameMiddle⟩ := blind.run_agree agree same authenticated
  obtain ⟨afterRight, restRight, -⟩ := (dispatch_blind guarded).run_agree agree sameMiddle rest
  exact ⟨afterRight, Program.run_bind.mpr ⟨first, second, .anonymous, middleRight, rfl,
    authenticatedRight, restRight⟩⟩

/-! ## The one route that does not ask -/

def onlyMessages (messages : NumberedTable MessageRow maxRowid) : World :=
  World.start { Tables.created with messages := messages } 0

theorem validateToken_onlyMessages (messages : NumberedTable MessageRow maxRowid) (thread : Nat)
    (choice : Choice) (token : ByteString) :
    (validateToken platform token).run (perform platform thread) [choice]
      (onlyMessages messages) = some (none, onlyMessages messages) := by
  unfold validateToken
  split
  · obtain ⟨fault, random⟩ := choice
    cases fault <;> rfl
  · rfl

theorem unauthenticated_onlyMessages (messages : NumberedTable MessageRow maxRowid) :
    Unauthenticated platform request (onlyMessages messages) := by
  intro _ thread choices user after validated
  have refuses : (validateToken platform (extractToken request)).Ensures
      (perform platform thread) (fun valid _ => valid = none) (onlyMessages messages) := by
    unfold validateToken
    split
    · intro choice result middle performed
      rcases result with error | owner
      · rfl
      · have answered := Storage.perform_query (perform_store performed)
        cases answered
        rfl
    · intro choice result middle performed
      cases performed
      rfl
  cases refuses.sound validated

/-- One choice for every operation of `authenticate`. -/
def plainChoices (request : Request) : List Choice :=
  if extractToken request = [] then [] else [.plain]

theorem authenticate_onlyMessages (messages : NumberedTable MessageRow maxRowid) (thread : Nat) :
    (authenticate platform request).run (perform platform thread) (plainChoices request)
      (onlyMessages messages) = some (.anonymous, onlyMessages messages) := by
  unfold authenticate plainChoices
  dsimp only
  split
  · rfl
  · exact Program.run_bind.mpr ⟨[.plain], [], none, onlyMessages messages, rfl,
      validateToken_onlyMessages messages thread .plain _, rfl⟩

/-- What `Sync` finds. -/
def found (messages : NumberedTable MessageRow maxRowid) (since last : Int) :
    List (Nat × MessageRow) :=
  if 0 < last then
    Query.orderAscending
      ((Query.orderDescending (Query.after since messages.rows)).take last.toNat)
  else Query.orderAscending (Query.after since messages.rows)

theorem serve_onlyMessages {since last : Option Int}
    (syncing : route platform request = .syncMessages)
    (parameters : syncParameters platform request = .ok (since, last))
    (messages : NumberedTable MessageRow maxRowid) (thread : Nat) :
    (serve platform request).run (perform platform thread) (plainChoices request ++ [.plain])
      (onlyMessages messages) = some (.sent 200 [Response.jsonHeader]
        (.json (.broadcasts ((found messages (since.getD 0) (last.getD 0)).map syncedMessage))),
        onlyMessages messages) := by
  refine Program.run_bind.mpr ⟨plainChoices request, [.plain], .anonymous,
    onlyMessages messages, rfl, authenticate_onlyMessages messages thread, ?_⟩
  rw [syncing]
  simp only [dispatch, syncMessages, parameters, Store.sync, found]
  by_cases limited : 0 < last.getD 0
  · simp only [limited, if_true]
    rfl
  · simp only [limited, if_false]
    rfl

def oneMessage (id : Nat) (bounded : id ≤ maxRowid) : NumberedTable MessageRow maxRowid where
  rows := [(id, ⟨utf8 "secret", [], utf8 "ann", 0⟩)]
  last := id
  ascending := by simp
  bounded := by simp
  last_le := bounded

theorem found_empty (since last : Int) : found .empty since last = [] := by
  have nothing : Query.after since (NumberedTable.empty : NumberedTable MessageRow maxRowid).rows =
      [] := rfl
  unfold found
  rw [nothing]
  split
  · rw [show Query.orderDescending [] = [] from rfl, List.take_nil]
    rfl
  · rfl

theorem found_oneMessage {id : Nat} (bounded : id ≤ maxRowid) {since last : Int}
    (above : since < id) : found (oneMessage id bounded) since last ≠ [] := by
  have kept : Query.after since (oneMessage id bounded).rows = (oneMessage id bounded).rows := by
    refine List.filter_eq_self.mpr fun entry member => ?_
    rw [List.mem_singleton.mp member]
    exact decide_eq_true above
  unfold found
  rw [kept]
  split
  · obtain ⟨limit, same⟩ : ∃ limit, last.toNat = limit + 1 := ⟨last.toNat - 1, by omega⟩
    have sorted : Query.orderDescending (oneMessage id bounded).rows =
        (oneMessage id bounded).rows := rfl
    rw [same, sorted]
    simp [oneMessage, Query.orderAscending]
  · exact List.cons_ne_nil _ _

theorem not_private_of_discloses (discloses : Discloses platform request) :
    ¬ Private platform request := by
  obtain ⟨syncing, since, last, parameters, below⟩ := discloses
  intro isPrivate
  have bounded : (since.getD 0).toNat + 1 ≤ maxRowid := by
    have limit : (0 : Int) < maxRowid := by decide
    omega
  have same : SameButMessages (onlyMessages .empty) (onlyMessages (oneMessage _ bounded)) := rfl
  obtain ⟨afterRight, ran⟩ := isPrivate 0 _ _ same (unauthenticated_onlyMessages .empty) _ _ _
    (serve_onlyMessages syncing parameters .empty 0)
  rw [serve_onlyMessages syncing parameters _ 0, found_empty] at ran
  simp only [Option.some.injEq, Prod.mk.injEq, Response.sent.injEq, Content.json.injEq,
    Document.broadcasts.injEq, List.map_nil, List.map_eq_nil_iff, true_and] at ran
  exact found_oneMessage bounded (by omega) ran.1

/-- A request learns nothing about the conversation exactly when it does not
reach the one handler that tells. -/
theorem private_iff : Private platform request ↔ ¬ Discloses platform request :=
  ⟨fun isPrivate discloses => not_private_of_discloses discloses isPrivate, private_of_guarded⟩

end Requests

/-- No request without an accepted credential learns about the conversation. -/
def ConversationPrivate (platform : Platform) : Prop :=
  ∀ request, Private platform request

/-- `GET /api/chat/sync` without any credential. -/
theorem not_conversationPrivate : ¬ ConversationPrivate .transparent := by
  intro isPrivate
  have syncing : route .transparent (Request.plain (utf8 "GET") (utf8 "/api/chat/sync") .empty) =
      .syncMessages := by decide
  exact not_private_of_discloses ⟨syncing, none, none, rfl, by decide⟩ (isPrivate _)

end Grunt.Server
