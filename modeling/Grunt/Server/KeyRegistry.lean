import Grunt.Foundation.Registry
import Grunt.Server.Frames

/-! # The registry of API keys

What the admin's requests for API keys amount to is compared with a registry
that gives every key an id of its own. The table and the registry agree as
long as keys without a name are not shown and unknown keys are not revoked.
-/

namespace Grunt.Server

open Foundation Storage

/-! ## Commands -/

def givenName (name : ByteString) : Option ByteString := if name = [] then none else some name

structure KeyEntry where
  userID : ByteString
  name : Option ByteString
deriving DecidableEq, Repr

inductive KeyCommand
  | list
  | create (entry : KeyEntry)
  | revoke (id : Int)
deriving DecidableEq, Repr

def keyCommand (platform : Platform) (request : Request) (identity : Identity) :
    Option KeyCommand :=
  if identity.isAdmin then
    match route platform request with
    | .adminListAPIKeys => some .list
    | .adminCreateAPIKey =>
        match bodyFields request [utf8 "name", utf8 "user_id"] with
        | some field =>
            if field (utf8 "user_id") = [] then none
            else some (.create ⟨field (utf8 "user_id"), givenName (field (utf8 "name"))⟩)
        | none => none
    | .adminRevokeAPIKey keyId =>
        match platform.bindPathInt64 keyId with
        | .ok id => some (.revoke id)
        | .error _ => none
    | _ => none
  else none

def Route.isKeys : Route → Bool
  | .adminListAPIKeys | .adminCreateAPIKey | .adminRevokeAPIKey _ => true
  | _ => false

/-! ## Sequences of requests -/

structure KeyExchange where
  request : Request
  /-- What `authMiddleware` has found. -/
  identity : Identity
  /-- What was decided about the operations of the handler. -/
  choices : List Storage.Choice
  response : Response

namespace KeyExchange

def command (platform : Platform) (exchange : KeyExchange) : Option KeyCommand :=
  keyCommand platform exchange.request exchange.identity

def faults (exchange : KeyExchange) : List Bool := exchange.choices.map Storage.Choice.fault

end KeyExchange

/-- `serve`, up to completion, where the request is one for the keys. -/
def serveKeys (platform : Platform) (thread : Nat) (request : Request)
    (authentication handling : List Storage.Choice) (world : World) :
    Option (KeyExchange × World) :=
  if (route platform request).isKeys then
    match (authenticate platform request).run (perform platform thread) authentication world with
    | some (identity, reached) =>
        match (dispatch platform request identity (route platform request)).run
            (perform platform thread) handling reached with
        | some (response, after) => some (⟨request, identity, handling, response⟩, after)
        | none => none
    | none => none
  else none

theorem serveKeys_eq_some {platform : Platform} {thread : Nat} {request : Request}
    {authentication handling : List Storage.Choice} {world after : World}
    {exchange : KeyExchange} :
    serveKeys platform thread request authentication handling world = some (exchange, after) ↔
      (route platform request).isKeys = true ∧ ∃ identity reached response,
        (authenticate platform request).run (perform platform thread) authentication world =
          some (identity, reached) ∧
        (dispatch platform request identity (route platform request)).run (perform platform thread)
          handling reached = some (response, after) ∧
        exchange = ⟨request, identity, handling, response⟩ := by
  unfold serveKeys
  split
  case isFalse other => simp [other]
  case isTrue keys =>
    constructor
    · intro served
      split at served
      case h_2 => cases served
      case h_1 identity reached authenticated =>
        split at served <;> cases served
        case h_1 response handled =>
          exact ⟨keys, identity, reached, response, authenticated, handled, rfl⟩
    · rintro ⟨-, identity, reached, response, authenticated, handled, rfl⟩
      simp only [authenticated, handled]

inductive KeyEvent
  | serve (thread : Nat) (request : Request) (authentication handling : List Storage.Choice)
  | happening (happening : Happening)
  | restart

/-- Requests for the keys one after the other, with anything that happens
without a request in between. -/
def keysNext (platform : Platform) (world : World) : KeyEvent → Option World
  | .serve thread request authentication handling =>
      (serveKeys platform thread request authentication handling world).map Prod.snd
  | .happening happening => environment platform happening world
  | .restart => some world.restart

/-- What an event lets the outside see. -/
def keysSeen (platform : Platform) (world : World) : KeyEvent → List KeyExchange
  | .serve thread request authentication handling =>
      ((serveKeys platform thread request authentication handling world).map Prod.fst).toList
  | .happening _ | .restart => []

/-! ## What a registry does -/

def Response.Refuses (response : Response) : Prop :=
  (∃ message status, 400 ≤ status ∧ response = .error message status) ∨
    ∃ text, response = .fragment (utf8 "<p class=\"error\">" ++ text ++ utf8 "</p>")

/-- What a list tells of a key. -/
def APIKeyInfoFull.entry (info : APIKeyInfoFull) : Nat × KeyEntry :=
  (info.id, ⟨info.userID, info.name⟩)

abbrev KeyRegistry := Registry Nat KeyEntry

def ShowsKeys (registry : KeyRegistry) (table : ByteString) : Prop :=
  ∃ infos, registry.Lists (infos.map APIKeyInfoFull.entry) ∧ table = renderKeyTableHTML infos

/-- The response to a create returns the id, for htmx above the table. -/
def Returns (registry : KeyRegistry) (id : Nat) (entry : KeyEntry) (exchange : KeyExchange) :
    Prop :=
  if exchange.request.isHTMXRequest then
    ∃ secret table, ShowsKeys registry table ∧
      exchange.response = .fragment (newKeyFragment secret (entry.name.getD []) id ++ table)
  else ∃ secret, exchange.response = .sent 201 [] (.json (.apiKey id secret))

def Confirms (registry : KeyRegistry) (exchange : KeyExchange) : Prop :=
  if exchange.request.isHTMXRequest then
    (∃ table, ShowsKeys registry table ∧ exchange.response = .fragment table) ∨
      (true ∈ exchange.faults ∧
        exchange.response = .fragment (utf8 "<p class=\"error\">Failed to reload keys.</p>"))
  else exchange.response =
    .sent 200 [Response.jsonHeader] (.json (.message (utf8 "API key revoked")))

/-- Why a registry may refuse: the request is no command, an operation failed
or there is no id left. -/
def Excused (platform : Platform) (registry : KeyRegistry) (exchange : KeyExchange) : Prop :=
  exchange.command platform = none ∨ true ∈ exchange.faults ∨
    (maxRowid ∈ registry.given ∧ ∃ entry, exchange.command platform = some (.create entry))

inductive Complies (platform : Platform) : KeyRegistry → KeyExchange → KeyRegistry → Prop
  | refused {registry : KeyRegistry} {exchange : KeyExchange} :
      Excused platform registry exchange → exchange.response.Refuses →
      Complies platform registry exchange registry
  | listed {registry : KeyRegistry} {exchange : KeyExchange} {infos : List APIKeyInfoFull} :
      exchange.command platform = some .list →
      registry.Lists (infos.map APIKeyInfoFull.entry) →
      exchange.response = .sent 200 [Response.jsonHeader] (.json (.apiKeys infos)) →
      Complies platform registry exchange registry
  | created {registry : KeyRegistry} {exchange : KeyExchange} {id : Nat} {entry : KeyEntry} :
      exchange.command platform = some (.create entry) → id ∉ registry.given →
      Returns (registry.create id entry) id entry exchange →
      Complies platform registry exchange (registry.create id entry)
  | revoked {registry : KeyRegistry} {exchange : KeyExchange} {id : Nat} :
      exchange.command platform = some (.revoke id) → registry.live id ≠ none →
      Confirms (registry.remove id) exchange →
      Complies platform registry exchange (registry.remove id)
  | missing {registry : KeyRegistry} {exchange : KeyExchange} {id : Int} {headers : List Header}
      {content : Content} :
      exchange.command platform = some (.revoke id) →
      (∀ number : Nat, (number : Int) = id → registry.live number = none) →
      exchange.response = .sent 404 headers content →
      Complies platform registry exchange registry

/-- The exchanges are those of a registry that has had no keys before. -/
inductive Behaves (platform : Platform) : List KeyExchange → KeyRegistry → Prop
  | nil : Behaves platform [] Registry.empty
  | snoc {seen : List KeyExchange} {before after : KeyRegistry} {exchange : KeyExchange} :
      Behaves platform seen before → Complies platform before exchange after →
      Behaves platform (seen ++ [exchange]) after

theorem behaves_nil {platform : Platform} {registry : KeyRegistry}
    (behaves : Behaves platform [] registry) : registry = Registry.empty := by
  generalize nothing : ([] : List KeyExchange) = seen at behaves
  cases behaves with
  | nil => rfl
  | snoc => simp at nothing

theorem behaves_snoc {platform : Platform} {seen : List KeyExchange} {exchange : KeyExchange}
    {after : KeyRegistry} (behaves : Behaves platform (seen ++ [exchange]) after) :
    ∃ before, Behaves platform seen before ∧ Complies platform before exchange after := by
  generalize all : seen ++ [exchange] = exchanges at behaves
  cases behaves with
  | nil => simp at all
  | snoc behaves complies =>
      obtain ⟨rfl, last⟩ := List.append_inj' all rfl
      cases last
      exact ⟨_, behaves, complies⟩

/-! ## When the table does -/

def Named (rows : List (Nat × APIKeyRow)) : Prop := ∀ entry ∈ rows, entry.2.name ≠ some []

/-- Where a list or a table is shown every key in it has a name, a new key is
answered with its id, and only a key that is there is revoked. With the last
operation of a request for htmx the table is read back. -/
def KeyExchange.Meets (platform : Platform) (rows : List (Nat × APIKeyRow))
    (exchange : KeyExchange) : Prop :=
  match exchange.command platform, exchange.faults with
  | some .list, [false] => Named rows
  | some (.create entry), [false, false, reload] =>
      reload = false ∧ entry.name ≠ none ∧ Named rows
  | some (.revoke id), [false] => ∃ entry ∈ rows, (entry.1 : Int) = id
  | some (.revoke id), [false, false] =>
      (∃ entry ∈ rows, (entry.1 : Int) = id) ∧
        Named (rows.filter fun entry => (entry.1 : Int) ≠ id)
  | _, _ => True

instance (rows : List (Nat × APIKeyRow)) : Decidable (Named rows) :=
  inferInstanceAs (Decidable (∀ entry ∈ rows, entry.2.name ≠ some []))

instance (platform : Platform) (rows : List (Nat × APIKeyRow)) (exchange : KeyExchange) :
    Decidable (exchange.Meets platform rows) := by
  unfold KeyExchange.Meets
  split <;> infer_instance

def keysMeet (platform : Platform) (world : World) (event : KeyEvent) : Prop :=
  ∀ exchange ∈ keysSeen platform world event,
    exchange.Meets platform world.tables.apiKeys.rows

instance (platform : Platform) (world : World) (event : KeyEvent) :
    Decidable (keysMeet platform world event) :=
  inferInstanceAs (Decidable (∀ exchange ∈ keysSeen platform world event, _))

/-! ## The operations of the handlers -/

/-- The rows that `ListAllAPIKeys` reads, in the order in which it does. -/
def listedKeys (tables : Tables) : List (Nat × APIKeyRow) := Query.apiKeys.eval tables

theorem listedKeys_perm (tables : Tables) : (listedKeys tables).Perm tables.apiKeys.rows :=
  List.perm_insertionSort _ _

section Operations

variable {platform : Platform} {thread : Nat} {world after : World}
variable {choices : List Storage.Choice} {response : Response}

theorem listAllAPIKeys_run
    {rest : Except Error (List (Nat × APIKeyRow)) → ServerProgram Response}
    (ran : (store Store.listAllAPIKeys >>= rest).run (perform platform thread) choices world =
      some (response, after)) :
    ∃ choice later, choices = choice :: later ∧
      (rest (if choice.fault then .error SqlError.fault.text
        else .ok (listedKeys world.tables))).run (perform platform thread) later world =
        some (response, after) := by
  obtain ⟨choice, later, result, middle, rfl, performed, ran⟩ := Program.run_perform_iff.mp ran
  refine ⟨choice, later, rfl, ?_⟩
  cases performed
  rw [faulty] at ran
  cases fault : choice.fault <;> rw [fault] at ran <;> exact ran

theorem exec_run {statement : Statement}
    {rest : Except SqlError Outcome → ServerProgram Response}
    (ran : (Program.perform (.store (.exec false statement)) rest).run (perform platform thread)
      choices world = some (response, after)) :
    ∃ choice later middle, choices = choice :: later ∧
      ((choice.fault = true ∧ middle.tables = world.tables ∧
          (rest (.error .fault)).run (perform platform thread) later middle =
            some (response, after)) ∨
        (choice.fault = false ∧ ∃ outcome tables, middle.tables = tables ∧
          statement.apply world.store.clock world.tables = .ok (outcome, tables) ∧
          (rest (.ok outcome)).run (perform platform thread) later middle =
            some (response, after)) ∨
        (choice.fault = false ∧ ∃ error, middle.tables = world.tables ∧
          statement.apply world.store.clock world.tables = .error error ∧
          (rest (.error error)).run (perform platform thread) later middle =
            some (response, after))) := by
  obtain ⟨choice, later, result, middle, rfl, performed, ran⟩ := Program.run_perform_iff.mp ran
  refine ⟨choice, later, middle, rfl, ?_⟩
  rcases exec_cases (perform_store performed) with ⟨fault, rfl, same⟩ |
    ⟨working, -, ⟨outcome, tables, rfl, applied, same⟩ | ⟨error, rfl, failed, same⟩⟩
  · exact .inl ⟨fault, tables_of_store same, ran⟩
  · have stored : middle.tables = tables := congrArg (fun store => store.database.committed) same
    exact .inr (.inl ⟨working, outcome, tables, stored, applied, ran⟩)
  · exact .inr (.inr ⟨working, error, tables_of_store same, failed, ran⟩)

theorem revokeAPIKey_run {id : Int} {rest : Except Error Unit → ServerProgram Response}
    (ran : (store (Store.revokeAPIKey id) >>= rest).run (perform platform thread) choices world =
      some (response, after)) :
    ∃ choice later middle, choices = choice :: later ∧
      ((choice.fault = true ∧ middle.tables = world.tables ∧ ∃ error,
          (rest (.error error)).run (perform platform thread) later middle =
            some (response, after)) ∨
        (choice.fault = false ∧
          middle.tables.apiKeys =
            world.tables.apiKeys.remove (fun number _ => (number : Int) = id) ∧
          (rest (.ok ())).run (perform platform thread) later middle =
            some (response, after))) := by
  obtain ⟨choice, later, middle, rfl, ⟨fault, same, ran⟩ |
    ⟨working, outcome, tables, same, applied, ran⟩ | ⟨-, error, -, failed, -⟩⟩ := exec_run ran
  · exact ⟨choice, later, middle, rfl, .inl ⟨fault, same, _, ran⟩⟩
  · cases applied
    exact ⟨choice, later, middle, rfl, .inr ⟨working, congrArg Tables.apiKeys same, ran⟩⟩
  · cases failed

theorem createAPIKey_run {userID adminID keyHash name : ByteString}
    {rest : Except Error Nat → ServerProgram Response}
    (ran : (store (Store.createAPIKey userID adminID keyHash name) >>= rest).run
      (perform platform thread) choices world = some (response, after)) :
    ∃ choice later middle row, choices = choice :: later ∧ row.userID = userID ∧
      row.name = some name ∧
      ((choice.fault = true ∧ middle.tables = world.tables ∧ ∃ error,
          (rest (.error error)).run (perform platform thread) later middle =
            some (response, after)) ∨
        (choice.fault = false ∧ world.tables.apiKeys.insert row = some middle.tables.apiKeys ∧
          (rest (.ok middle.tables.apiKeys.last)).run (perform platform thread) later middle =
            some (response, after)) ∨
        (choice.fault = false ∧ world.tables.apiKeys.insert row = none ∧
          middle.tables = world.tables ∧ ∃ error,
          (rest (.error error)).run (perform platform thread) later middle =
            some (response, after))) := by
  obtain ⟨choice, later, middle, rfl, executed⟩ := exec_run ran
  refine ⟨choice, later, middle,
    ⟨userID, adminID, keyHash, some name, Calendar.unixSeconds world.store.clock⟩, rfl, rfl, rfl, ?_⟩
  rcases executed with ⟨fault, same, ran⟩ | ⟨working, outcome, tables, same, applied, ran⟩ |
    ⟨working, error, same, failed, ran⟩
  · exact .inl ⟨fault, same, _, ran⟩
  · simp only [Statement.apply] at applied
    split at applied
    case h_1 keys inserted =>
      cases applied
      have stored : middle.tables.apiKeys = keys := congrArg Tables.apiKeys same
      rw [← stored] at inserted ran
      exact .inr (.inl ⟨working, inserted, ran⟩)
    case h_2 => cases applied
  · simp only [Statement.apply] at failed
    split at failed
    case h_1 => cases failed
    case h_2 full => exact .inr (.inr ⟨working, full, same, _, ran⟩)

theorem random_run {size : Nat} {rest : Except ByteString ByteString → ServerProgram Response}
    (ran : (Program.perform (.random size) rest).run (perform platform thread) choices world =
      some (response, after)) :
    ∃ choice later, choices = choice :: later ∧
      ((choice.fault = true ∧ ∃ error, (rest (.error error)).run (perform platform thread) later
          world = some (response, after)) ∨
        (choice.fault = false ∧ ∃ bytes, (rest (.ok bytes)).run (perform platform thread) later
          world = some (response, after))) := by
  obtain ⟨choice, later, result, middle, rfl, performed, ran⟩ := Program.run_perform_iff.mp ran
  refine ⟨choice, later, rfl, ?_⟩
  obtain ⟨result, suits, same⟩ := Option.map_eq_some_iff.mp performed
  cases same
  rw [drawn] at suits
  split at suits
  case isTrue fault =>
    cases suits
    exact .inl ⟨fault, _, ran⟩
  case isFalse working =>
    split at suits <;> cases suits
    exact .inr ⟨Bool.eq_false_iff.mpr working, _, ran⟩

theorem reloadKeys_run {above : ByteString}
    (ran : (reloadKeys above).run (perform platform thread) choices world =
      some (response, after)) :
    ∃ choice, choices = [choice] ∧ after = world ∧
      ((choice.fault = true ∧
          response = .fragment (utf8 "<p class=\"error\">Failed to reload keys.</p>")) ∨
        (choice.fault = false ∧ response = .fragment (above ++
          renderKeyTableHTML ((listedKeys world.tables).map apiKeyInfo)))) := by
  obtain ⟨choice, later, rfl, read⟩ := listAllAPIKeys_run ran
  cases fault : choice.fault <;> rw [fault] at read
  · obtain ⟨rfl, rfl, rfl⟩ := Program.run_done.mp read
    exact ⟨choice, rfl, rfl, .inr ⟨fault, rfl⟩⟩
  · obtain ⟨rfl, rfl, rfl⟩ := Program.run_done.mp read
    exact ⟨choice, rfl, rfl, .inl ⟨fault, rfl⟩⟩

end Operations

/-! ## The table as a registry -/

def keyEntry (row : APIKeyRow) : KeyEntry := ⟨row.userID, row.name.bind givenName⟩

theorem apiKeyInfo_entry {entry : Nat × APIKeyRow} (named : entry.2.name ≠ some []) :
    (apiKeyInfo entry).entry = (entry.1, keyEntry entry.2) := by
  obtain ⟨id, userID, adminUserID, keyHash, name, createdAt⟩ := entry
  cases name with
  | none => rfl
  | some name =>
      have given : givenName name = some name := if_neg fun empty => named (congrArg some empty)
      simp [apiKeyInfo, APIKeyInfoFull.entry, keyEntry, given]

section Follows

variable {platform : Platform} {thread : Nat} {world after : World}
variable {registry : KeyRegistry} {exchange : KeyExchange}

abbrev Kept (registry : KeyRegistry) (world : World) : Prop :=
  Registry.Reflects keyEntry registry world.tables.apiKeys

/-- What is read lists the registry exactly where every key has a name: the
empty name that is stored for a key without one is listed as a name. -/
theorem Kept.lists_iff (kept : Kept registry world) :
    registry.Lists (((listedKeys world.tables).map apiKeyInfo).map APIKeyInfoFull.entry) ↔
      Named world.tables.apiKeys.rows := by
  have rows := listedKeys_perm world.tables
  constructor
  · intro lists entry member nameless
    have listed : (entry.1, ⟨entry.2.userID, some []⟩) ∈
        ((listedKeys world.tables).map apiKeyInfo).map APIKeyInfoFull.entry := by
      rw [← nameless]
      exact List.mem_map_of_mem (List.mem_map_of_mem (rows.symm.subset member))
    obtain ⟨row, -, same⟩ := (kept.live _ _).mp ((lists.exact _ _).mp listed)
    obtain ⟨name, -, given⟩ := Option.bind_eq_some_iff.mp (congrArg KeyEntry.name same)
    unfold givenName at given
    split at given
    case isTrue => cases given
    case isFalse some => exact some (Option.some.inj given)
  intro named
  have entries : ((listedKeys world.tables).map apiKeyInfo).map APIKeyInfoFull.entry =
      (listedKeys world.tables).map fun entry => (entry.1, keyEntry entry.2) := by
    rw [List.map_map]
    apply List.map_congr_left
    intro entry member
    exact apiKeyInfo_entry (named entry (rows.subset member))
  rw [entries]
  exact Registry.Reflects.lists kept rows

theorem Kept.shows (kept : Kept registry world) (named : Named world.tables.apiKeys.rows) :
    ShowsKeys registry (renderKeyTableHTML ((listedKeys world.tables).map apiKeyInfo)) :=
  ⟨_, kept.lists_iff.mpr named, rfl⟩

theorem Kept.revoke (kept : Kept registry world) {number : Nat}
    (removed : after.tables.apiKeys =
      world.tables.apiKeys.remove fun other _ => (other : Int) = number) :
    Kept (registry.remove number) after := by
  rw [Kept, removed]
  exact Registry.Reflects.remove kept fun other row => by simp

/-! ## Refusals -/

theorem refuses_error (message : ByteString) {status : Nat} (high : 400 ≤ status) :
    (Response.error message status).Refuses := .inl ⟨message, status, high, rfl⟩

theorem refuses_htmxError (request : Request) (fragment message : String) {status : Nat}
    (high : 400 ≤ status) : (htmxError request fragment message status).Refuses := by
  unfold htmxError
  split
  · exact .inr ⟨utf8 fragment, rfl⟩
  · exact refuses_error _ high

def Follows (platform : Platform) (registry : KeyRegistry) (exchange : KeyExchange)
    (after : World) : Prop :=
  ∃ later, Complies platform registry exchange later ∧ Kept later after

theorem follows_of_refusal {middle : World} {refusal : Response} {later : List Storage.Choice}
    (kept : Kept registry world) (same : middle.tables = world.tables)
    (excused : Excused platform registry exchange) (refuses : refusal.Refuses)
    (ended : (Program.done refusal : ServerProgram Response).run (perform platform thread) later
      middle = some (exchange.response, after)) : Follows platform registry exchange after := by
  obtain ⟨-, answered, rfl⟩ := Program.run_done.mp ended
  rw [answered] at refuses
  refine ⟨registry, .refused excused refuses, ?_⟩
  rw [Kept, same]
  exact kept

theorem keyCommand_of_not_admin {request : Request} {identity : Identity}
    (plain : identity.isAdmin = false) : keyCommand platform request identity = none := by
  simp [keyCommand, plain]

/-! ## The handlers -/

theorem adminListAPIKeys_follows (kept : Kept registry world)
    (routed : route platform exchange.request = .adminListAPIKeys)
    (meets : exchange.Meets platform world.tables.apiKeys.rows)
    (ran : (adminListAPIKeys exchange.identity).run (perform platform thread) exchange.choices
      world = some (exchange.response, after)) :
    Follows platform registry exchange after := by
  obtain ⟨request, identity, choices, response⟩ := exchange
  simp only at routed
  unfold adminListAPIKeys at ran
  cases admin : identity.isAdmin with
  | false =>
      simp only [admin, Bool.not_false, if_true] at ran
      exact follows_of_refusal kept rfl (.inl (keyCommand_of_not_admin admin))
        (refuses_error _ (by decide)) ran
  | true =>
      have asked : keyCommand platform request identity = some .list := by
        simp [keyCommand, admin, routed]
      simp only [admin, Bool.not_true, Bool.false_eq_true, if_false] at ran
      obtain ⟨choice, later, rfl, read⟩ := listAllAPIKeys_run ran
      cases fault : choice.fault with
      | false =>
          rw [fault] at read
          obtain ⟨rfl, rfl, rfl⟩ := Program.run_done.mp read
          simp only [KeyExchange.Meets, KeyExchange.command, asked, KeyExchange.faults,
            List.map_cons, List.map_nil, fault] at meets
          exact ⟨registry, .listed asked (kept.lists_iff.mpr meets) rfl, kept⟩
      | true =>
          rw [fault] at read
          exact follows_of_refusal kept rfl (.inr (.inl (by simp [KeyExchange.faults, fault])))
            (refuses_error _ (by decide)) read

theorem reloadRevoked_follows {id : Int} {reload : Storage.Choice} (kept : Kept registry world)
    (asked : exchange.command platform = some (.revoke id))
    (htmx : exchange.request.isHTMXRequest = true)
    (faults : exchange.faults = [false, reload.fault])
    (meets : exchange.Meets platform world.tables.apiKeys.rows)
    (removed : after.tables.apiKeys =
      world.tables.apiKeys.remove fun number _ => (number : Int) = id)
    (answered : (reload.fault = true ∧
        exchange.response = .fragment (utf8 "<p class=\"error\">Failed to reload keys.</p>")) ∨
      (reload.fault = false ∧ exchange.response = .fragment
        (renderKeyTableHTML ((listedKeys after.tables).map apiKeyInfo)))) :
    Follows platform registry exchange after := by
  rcases answered with ⟨fault, lost⟩ | ⟨read, shown⟩
  · have failed : true ∈ exchange.faults := by simp [faults, fault]
    by_cases live : ∃ entry ∈ world.tables.apiKeys.rows, (entry.1 : Int) = id
    · obtain ⟨⟨number, row⟩, member, rfl⟩ := live
      refine ⟨registry.remove number, .revoked asked (kept.live_ne_none member) ?_,
        kept.revoke removed⟩
      rw [Confirms, if_pos htmx]
      exact .inr ⟨failed, lost⟩
    -- The registry is asked to remove what it does not have.
    · refine ⟨registry, .refused (.inr (.inl failed))
        (.inr ⟨utf8 "Failed to reload keys.", lost⟩), ?_⟩
      rw [Kept, removed]
      apply Registry.Reflects.remove_none kept
      intro entry member
      exact decide_eq_false fun same => live ⟨entry, member, same⟩
  · rw [KeyExchange.Meets, asked, faults, read] at meets
    obtain ⟨⟨⟨number, row⟩, member, rfl⟩, named⟩ := meets
    have reached := kept.revoke removed
    refine ⟨registry.remove number, .revoked asked (kept.live_ne_none member) ?_, reached⟩
    rw [Confirms, if_pos htmx]
    refine .inl ⟨_, reached.shows ?_, shown⟩
    intro entry stays
    rw [removed, NumberedTable.mem_remove] at stays
    apply named entry
    simpa using stays

theorem adminRevokeAPIKey_follows {keyId : ByteString} (kept : Kept registry world)
    (routed : route platform exchange.request = .adminRevokeAPIKey keyId)
    (meets : exchange.Meets platform world.tables.apiKeys.rows)
    (ran : (adminRevokeAPIKey platform exchange.request exchange.identity keyId).run
      (perform platform thread) exchange.choices world = some (exchange.response, after)) :
    Follows platform registry exchange after := by
  obtain ⟨request, identity, choices, response⟩ := exchange
  simp only at routed
  unfold adminRevokeAPIKey at ran
  split at ran
  case h_1 error malformed =>
    have unasked : keyCommand platform request identity = none := by
      simp [keyCommand, routed, malformed]
    exact follows_of_refusal kept rfl (.inl unasked) (refuses_error _ (by decide)) ran
  case h_2 id parsed =>
    cases admin : identity.isAdmin with
    | false =>
        simp only [admin, Bool.not_false, if_true] at ran
        exact follows_of_refusal kept rfl (.inl (keyCommand_of_not_admin admin))
          (refuses_error _ (by decide)) ran
    | true =>
        have asked : keyCommand platform request identity = some (.revoke id) := by
          simp [keyCommand, admin, routed, parsed]
        simp only [admin, Bool.not_true, Bool.false_eq_true, if_false] at ran
        obtain ⟨choice, later, middle, rfl, ⟨fault, same, error, failed⟩ |
          ⟨working, removed, done⟩⟩ := revokeAPIKey_run ran
        · exact follows_of_refusal kept same (.inr (.inl (by simp [KeyExchange.faults, fault])))
            (refuses_htmxError _ _ _ (by decide)) failed
        · cases htmx : request.isHTMXRequest with
          | false =>
              simp only [htmx, Bool.false_eq_true, if_false] at done
              obtain ⟨rfl, rfl, rfl⟩ := Program.run_done.mp done
              simp only [KeyExchange.Meets, KeyExchange.command, asked, KeyExchange.faults,
                List.map_cons, List.map_nil, working] at meets
              obtain ⟨⟨number, row⟩, member, rfl⟩ := meets
              refine ⟨registry.remove number, .revoked asked (kept.live_ne_none member) ?_,
                kept.revoke removed⟩
              simp [Confirms, htmx]
          | true =>
              simp only [htmx, if_true] at done
              obtain ⟨reload, rfl, rfl, answered⟩ := reloadKeys_run done
              exact reloadRevoked_follows kept asked htmx (by simp [KeyExchange.faults, working])
                meets removed answered

theorem givenName_getD (name : ByteString) : (givenName name).getD [] = name := by
  unfold givenName
  split
  case isTrue empty => rw [empty, Option.getD_none]
  case isFalse => rfl

theorem named_insert {table inserted : NumberedTable APIKeyRow maxRowid} {row : APIKeyRow}
    {name : ByteString} (insert : table.insert row = some inserted) (label : row.name = some name)
    (given : givenName name ≠ none) (named : Named table.rows) : Named inserted.rows := by
  rw [(NumberedTable.insert_eq_some insert).2]
  intro entry member
  rcases List.mem_append.mp member with old | new
  · exact named entry old
  · cases List.mem_singleton.mp new
    rw [label]
    intro empty
    exact given (if_pos (Option.some.inj empty))

theorem createKey_follows {request : Request} {identity : Identity}
    {choices : List Storage.Choice} {response : Response} {userID name : ByteString}
    (kept : Kept registry world)
    (asked : keyCommand platform request identity = some (.create ⟨userID, givenName name⟩))
    (meets : KeyExchange.Meets platform world.tables.apiKeys.rows
      ⟨request, identity, choices, response⟩)
    (ran : (createKey platform request identity.userID userID name).run (perform platform thread)
      choices world = some (response, after)) :
    Follows platform registry ⟨request, identity, choices, response⟩ after := by
  obtain ⟨draw, later, rfl, ⟨fault, error, failed⟩ | ⟨drawn, bytes, ran⟩⟩ := random_run ran
  · exact follows_of_refusal kept rfl (.inr (.inl (by simp [KeyExchange.faults, fault])))
      (refuses_htmxError _ _ _ (by decide)) failed
  obtain ⟨choice, rest, middle, row, rfl, owner, label, ⟨fault, same, error, failed⟩ |
    ⟨working, inserted, done⟩ | ⟨-, full, same, error, failed⟩⟩ := createAPIKey_run ran
  · exact follows_of_refusal kept same (.inr (.inl (by simp [KeyExchange.faults, fault])))
      (refuses_htmxError _ _ _ (by decide)) failed
  · have fresh : middle.tables.apiKeys.last ∉ registry.given := by
      rw [(NumberedTable.insert_eq_some inserted).1]
      exact kept.fresh
    have reached : Kept (registry.create middle.tables.apiKeys.last ⟨userID, givenName name⟩)
        middle := by
      have entry : keyEntry row = ⟨userID, givenName name⟩ := by simp [keyEntry, owner, label]
      rw [← entry]
      exact kept.insert inserted
    cases htmx : request.isHTMXRequest with
    | false =>
        simp only [htmx, Bool.false_eq_true, if_false] at done
        obtain ⟨-, rfl, rfl⟩ := Program.run_done.mp done
        refine ⟨_, .created asked fresh ?_, reached⟩
        simp [Returns, htmx]
    | true =>
        simp only [htmx, if_true] at done
        obtain ⟨reload, rfl, rfl, answered⟩ := reloadKeys_run done
        simp only [KeyExchange.Meets, KeyExchange.command, asked, KeyExchange.faults,
          List.map_cons, List.map_nil, drawn, working] at meets
        obtain ⟨read, given, named⟩ := meets
        rcases answered with ⟨fault, -⟩ | ⟨-, shown⟩
        · rw [read] at fault
          cases fault
        · refine ⟨_, .created asked fresh ?_, reached⟩
          simp only [Returns, htmx, if_true, givenName_getD]
          exact ⟨_, _, reached.shows (named_insert inserted label given named), shown⟩
  · exact follows_of_refusal kept same
      (.inr (.inr ⟨kept.full (by decide) full, _, asked⟩))
      (refuses_htmxError _ _ _ (by decide)) failed

theorem adminCreateAPIKey_follows (kept : Kept registry world)
    (routed : route platform exchange.request = .adminCreateAPIKey)
    (meets : exchange.Meets platform world.tables.apiKeys.rows)
    (ran : (adminCreateAPIKey platform exchange.request exchange.identity).run
      (perform platform thread) exchange.choices world = some (exchange.response, after)) :
    Follows platform registry exchange after := by
  obtain ⟨request, identity, choices, response⟩ := exchange
  simp only at routed
  unfold adminCreateAPIKey at ran
  cases admin : identity.isAdmin with
  | false =>
      simp only [admin, Bool.not_false, if_true] at ran
      exact follows_of_refusal kept rfl (.inl (keyCommand_of_not_admin admin))
        (refuses_error _ (by decide)) ran
  | true =>
      simp only [admin, Bool.not_true, Bool.false_eq_true, if_false] at ran
      split at ran
      case h_1 malformed =>
        have unasked : keyCommand platform request identity = none := by
          simp [keyCommand, routed, malformed]
        exact follows_of_refusal kept rfl (.inl unasked) (refuses_htmxError _ _ _ (by decide)) ran
      case h_2 field parsed =>
        split at ran
        case isTrue ownerless =>
          have unasked : keyCommand platform request identity = none := by
            simp [keyCommand, routed, parsed, ownerless]
          exact follows_of_refusal kept rfl (.inl unasked)
            (refuses_htmxError _ _ _ (by decide)) ran
        case isFalse owned =>
          have asked : keyCommand platform request identity =
              some (.create ⟨field (utf8 "user_id"), givenName (field (utf8 "name"))⟩) := by
            simp [keyCommand, admin, routed, parsed, owned]
          exact createKey_follows kept asked meets ran

theorem serveKeys_follows {request : Request} {authentication handling : List Storage.Choice}
    (kept : Kept registry world) (meets : exchange.Meets platform world.tables.apiKeys.rows)
    (served : serveKeys platform thread request authentication handling world =
      some (exchange, after)) : Follows platform registry exchange after := by
  obtain ⟨keys, identity, reached, response, authenticated, handled, rfl⟩ :=
    serveKeys_eq_some.mp served
  have same : reached.tables = world.tables :=
    tables_of_store (authenticate_alone.sound authenticated).2
  have standing : Kept registry reached := by
    rw [Kept, same]
    exact kept
  rw [← same] at meets
  cases routed : route platform request with
  | adminListAPIKeys =>
      rw [routed] at handled
      exact adminListAPIKeys_follows standing routed meets handled
  | adminCreateAPIKey =>
      rw [routed] at handled
      exact adminCreateAPIKey_follows standing routed meets handled
  | adminRevokeAPIKey keyId =>
      rw [routed] at handled
      exact adminRevokeAPIKey_follows standing routed meets handled
  | registerUser | getInvite | loginUser | changePassword | sendMessage | streamMessages
    | syncMessages | adminCreateUser | index | register | settings | logout | staticFiles
    | runtimeEmotes | avatarUpload | avatarGet | avatarGetUser | redirect =>
      rw [routed] at keys
      cases keys

theorem keysNext_follows {event : KeyEvent} (kept : Kept registry world)
    (meets : keysMeet platform world event) (taken : keysNext platform world event = some after) :
    (keysSeen platform world event = [] ∧ Kept registry after) ∨
      ∃ exchange, keysSeen platform world event = [exchange] ∧
        Follows platform registry exchange after := by
  cases event with
  | happening happening =>
      refine .inl ⟨rfl, ?_⟩
      rw [Kept, apiKeys_of_environment taken]
      exact kept
  | restart =>
      cases taken
      exact .inl ⟨rfl, kept⟩
  | serve thread request authentication handling =>
      obtain ⟨⟨exchange, reached⟩, served, same⟩ := Option.map_eq_some_iff.mp taken
      cases same
      have seen : keysSeen platform world (.serve thread request authentication handling) =
          [exchange] := by
        simp [keysSeen, served]
      exact .inr ⟨exchange, seen, serveKeys_follows kept
        (meets exchange (by rw [seen]; exact List.mem_singleton_self exchange)) served⟩

end Follows

/-! ## The main result -/

section Main

variable {platform : Platform} {world after : World} {events : List KeyEvent}

/-- The keys are a registry's in every run in which keys without a name are not
shown, new keys are answered with their ids and only live keys are revoked. -/
theorem keys_behave (unused : world.tables.apiKeys = .empty)
    (run : Run (keysNext platform) (keysMeet platform) world events after) :
    ∃ registry, Behaves platform (trace (keysNext platform) (keysSeen platform) world events)
      registry ∧ Kept registry after := by
  apply run.traced (keysSeen platform) fun world _ seen =>
    ∃ registry, Behaves platform seen registry ∧ Kept registry world
  · rintro world past seen event after ⟨registry, behaves, kept⟩ meets taken
    rcases keysNext_follows kept meets taken with ⟨quiet, kept⟩ | ⟨exchange, shown, follows⟩
    · rw [quiet, List.append_nil]
      exact ⟨registry, behaves, kept⟩
    · obtain ⟨later, complies, kept⟩ := follows
      rw [shown]
      exact ⟨later, behaves.snoc complies, kept⟩
  · refine ⟨Registry.empty, .nil, ?_⟩
    rw [Kept, unused]
    exact .empty

end Main

/-! ### Two runs -/

/-- A platform that reads two numbers. -/
def countingPlatform : Platform :=
  { Platform.transparent with
    bindPathInt64 := fun text =>
      if text = utf8 "1" then .ok 1
      else if text = utf8 "7" then .ok 7
      else .error (utf8 "error binding string parameter") }

/-- `ann` is an admin and logged in, and no key was ever created. -/
def annsWorld : World :=
  (World.start
    { Tables.created with users := ⟨[⟨utf8 "ann", none, true, none⟩], by decide⟩ } 0).setTokens
    fun token => if token = utf8 "session" then some ⟨utf8 "ann", 1⟩ else none

/-- A request of `ann`, handled with these choices. -/
def annsEvent (method path : String) (fields : List (ByteString × ByteString))
    (handling : List Storage.Choice) : KeyEvent :=
  .serve 0
    { (Request.plain (utf8 method) (utf8 path) (.ofJson fields)).bearing "session" with
      contentType := utf8 "application/json" }
    [.plain, .plain] handling

/-- A key with a name is created, listed and revoked. -/
def annsKeys : List KeyEvent :=
  [annsEvent "POST" "/api/admin/api-keys"
      [(utf8 "user_id", utf8 "bot"), (utf8 "name", utf8 "ci")]
      [⟨false, List.replicate 32 0⟩, .plain],
    annsEvent "GET" "/api/admin/api-keys" [] [.plain],
    annsEvent "DELETE" "/api/admin/api-keys/1" [] [.plain]]

theorem annsKeys_behave :
    ∃ after registry, Behaves countingPlatform
      (trace (keysNext countingPlatform) (keysSeen countingPlatform) annsWorld annsKeys) registry ∧
      Kept registry after := by
  have executed : (executeWhere (keysNext countingPlatform)
      (fun world event => decide (keysMeet countingPlatform world event))
      annsWorld annsKeys).isSome = true := by decide +kernel
  obtain ⟨after, executed⟩ := Option.isSome_iff_exists.mp executed
  have run := (run_of_executeWhere executed).weaken fun world event => of_decide_eq_true
  exact ⟨after, keys_behave rfl run⟩

/-- A key that never was is revoked, and the answer is the same as for a key. -/
def unknownKey : KeyEvent := annsEvent "DELETE" "/api/admin/api-keys/7" [] [.plain]

theorem unknownKey_not_behaves :
    annsWorld.tables.apiKeys = .empty ∧
      (∃ after, AnyRun (keysNext countingPlatform) annsWorld [unknownKey] after) ∧
      ¬ ∃ registry, Behaves countingPlatform
        (trace (keysNext countingPlatform) (keysSeen countingPlatform) annsWorld [unknownKey])
        registry := by
  have answered : ((keysSeen countingPlatform annsWorld unknownKey).map fun exchange =>
      (exchange.command countingPlatform, exchange.faults, exchange.response)) =
      [(some (.revoke 7), [false],
        .sent 200 [Response.jsonHeader] (.json (.message (utf8 "API key revoked"))))] := by
    decide +kernel
  have taken : (execute (keysNext countingPlatform) annsWorld [unknownKey]).isSome = true := by
    decide +kernel
  obtain ⟨after, executed⟩ := Option.isSome_iff_exists.mp taken
  refine ⟨rfl, ⟨after, run_of_execute executed⟩, ?_⟩
  rintro ⟨registry, behaves⟩
  obtain ⟨exchange, seen, same⟩ := List.map_eq_singleton_iff.mp answered
  simp only [Prod.mk.injEq] at same
  obtain ⟨asked, faultless, confirmed⟩ := same
  have whole : trace (keysNext countingPlatform) (keysSeen countingPlatform) annsWorld
      [unknownKey] = [] ++ [exchange] := by
    rw [trace, seen]
    split <;> rfl
  rw [whole] at behaves
  obtain ⟨before, earlier, complies⟩ := behaves_snoc behaves
  rw [behaves_nil earlier] at complies
  cases complies with
  | refused excused refuses =>
      rw [Excused, asked, faultless] at excused
      simp [Registry.empty] at excused
  | listed listing => cases asked.symm.trans listing
  | created creating => cases asked.symm.trans creating
  | revoked revoking live => exact live rfl
  | missing revoking dead notFound => cases confirmed.symm.trans notFound

end Grunt.Server
