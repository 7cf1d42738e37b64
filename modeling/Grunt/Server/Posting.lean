import Grunt.Foundation.Provenance
import Grunt.Server.Broadcasts
import Grunt.Server.Filed
import Grunt.Server.Identities
import Grunt.Storage.Saves

/-! # Who wrote what is on record

Every row of the messages was saved for a request whose own credential stood
for the author, from the content of its body. What is sent live is such a row.
-/

namespace Grunt.Server

open Foundation

/-! ## Saving and sending -/

def savedEntry : Performed Op Op.Result → Option (Nat × Storage.MessageRow)
  | ⟨thread, .store op, result⟩ => Storage.savedBy ⟨thread, op, result⟩
  | _ => none

def savedEntries (performed : List (Performed Op Op.Result)) : List (Nat × Storage.MessageRow) :=
  performed.filterMap savedEntry

/-- A row as `SendMessage` broadcasts it. -/
def rowMessage (entry : Nat × Storage.MessageRow) : Client.Broadcast where
  type := utf8 "message"
  id := entry.1
  content := entry.2.content
  clientID := entry.2.clientID
  userID := entry.2.user
  timestamp := entry.2.timestamp

def Item.Carries (location : Location) (item : Item) (entry : Nat × Storage.MessageRow) : Prop :=
  ∃ data, (rowMessage entry).marshal location = some data ∧
    item = ⟨data, .message (rowMessage entry).decoded⟩

/-- What holds of a request, and of what it has performed, when it saves a row. -/
structure Submits (platform : Platform) (thread : Nat) (request : Request)
    (row : Storage.MessageRow) (seen : List (Performed Op Op.Result)) : Prop where
  route : route platform request = .sendMessage
  vouched : Vouched platform thread (extractToken request) row.user seen
  named : row.user ≠ []
  content : (bodyFields request [utf8 "content"]).map (· (utf8 "content")) = some row.content
  nonempty : row.content ≠ []
  fits : row.content.length ≤ maxMessageLength
  client : row.clientID = []
  timed : ⟨thread, .store .now, row.timestamp⟩ ∈ seen

structure Posting (platform : Platform) (thread : Nat) (request : Request) (op : Op)
    (seen : List (Performed Op Op.Result)) : Prop where
  saves : ∀ row, op = .store (.exec false (.insertMessage row)) →
    savedEntries seen = [] ∧ Submits platform thread request row seen
  sends : ∀ item, op = .broadcast item → ∃ entry,
    seen.getLast?.bind savedEntry = some entry ∧ item.Carries platform.location entry

section Handlers

variable {platform : Platform} {thread : Nat} {request : Request}
variable {seen : List (Performed Op Op.Result)}

def Op.postsNothing : Op → Bool
  | .store (.exec false (.insertMessage _)) => false
  | .broadcast _ => false
  | _ => true

theorem savedEntry_of_postsNothing {performed : Performed Op Op.Result}
    (nothing : performed.op.postsNothing = true) : savedEntry performed = none := by
  obtain ⟨thread, op, result⟩ := performed
  cases op with
  | store op =>
      cases op with
      | exec inTx statement =>
          cases inTx with
          | true => rfl
          | false =>
              cases statement with
              | insertMessage row => cases nothing
              | _ => rfl
      | _ => rfl
  | nanoid | random | putToken | checkToken | broadcast | register | writePump | renderContent
    | readFile => rfl

theorem postsNothing_of_isQuiet {op : Op} (quiet : op.isQuiet = true) :
    op.postsNothing = true := by
  unfold Op.postsNothing
  split
  · cases quiet
  · cases quiet
  · rfl

theorem postsNothing_of_permits {route : Route} {identity : Identity} {op : Op}
    (other : route ≠ .sendMessage) (permitted : route.permits identity op) :
    op.postsNothing = true := by
  unfold Op.postsNothing
  split
  · cases route with
    | sendMessage => exact absurd rfl other
    | _ => cases permitted
  · cases route with
    | sendMessage => exact absurd rfl other
    | _ => cases permitted
  · rfl

theorem Posting.of_postsNothing {op : Op} (nothing : op.postsNothing = true) :
    Posting platform thread request op seen where
  saves := by
    rintro row rfl
    cases nothing
  sends := by
    rintro item rfl
    cases nothing

theorem savedEntries_snoc (seen : List (Performed Op Op.Result))
    (performed : Performed Op Op.Result) :
    savedEntries (seen ++ [performed]) = savedEntries seen ++ (savedEntry performed).toList := by
  rw [savedEntries, List.filterMap_append, savedEntries]
  cases saved : savedEntry performed <;> simp [saved]

theorem posting_of_only {α : Type} {program : ServerProgram α}
    (only : program.Only fun op => op.postsNothing = true) (unsaved : savedEntries seen = []) :
    Machine.Obeys thread (Posting platform thread request)
      (fun _ seen => savedEntries seen = []) program seen := by
  refine Machine.obeys_of_only only (fun op _ nothing _ => .of_postsNothing nothing) ?_ unsaved
  intro op result seen nothing unsaved
  rw [savedEntries_snoc, unsaved, savedEntry_of_postsNothing nothing]
  rfl

theorem now_posting (unsaved : savedEntries seen = []) :
    Machine.Obeys thread (Posting platform thread request)
      (fun timestamp later => later = seen ++ [⟨thread, .store .now, timestamp⟩] ∧
        savedEntries later = []) now seen := by
  refine And.intro (.of_postsNothing rfl) fun timestamp => ⟨rfl, ?_⟩
  rw [savedEntries_snoc, unsaved]
  rfl

theorem save_posting {row : Storage.MessageRow} (unsaved : savedEntries seen = [])
    (submits : Submits platform thread request row seen) :
    Machine.Obeys thread (Posting platform thread request)
      (fun result later => ∀ id, result = .ok id → savedEntries later = [(id, row)] ∧
        later.getLast?.bind savedEntry = some (id, row))
      (store (Storage.Store.save row)) seen := by
  refine And.intro ⟨fun other same => ?_, fun item same => by cases same⟩ fun result => ?_
  · cases same
    exact ⟨unsaved, submits⟩
  · cases result with
    | error error =>
        intro id saved
        cases saved
    | ok outcome =>
        intro id saved
        cases saved
        rw [savedEntries_snoc, unsaved, List.getLast?_concat, Option.bind_some]
        exact ⟨rfl, rfl⟩

def Acknowledged (response : Response) (seen : List (Performed Op Op.Result)) : Prop :=
  ∀ headers content, response = .sent 200 headers content → savedEntries seen ≠ []

theorem acknowledged_of_error (message : String) {status : Nat} (fails : status ≠ 200) :
    Acknowledged (.apiError message status) seen := by
  rintro headers content ⟨⟩
  exact absurd rfl fails

theorem saveAndBroadcast_posting {userID content : ByteString}
    (unsaved : savedEntries seen = [])
    (submits : ∀ timestamp, Submits platform thread request ⟨content, [], userID, timestamp⟩
      (seen ++ [⟨thread, .store .now, timestamp⟩])) :
    Machine.Obeys thread (Posting platform thread request) Acknowledged
      (saveAndBroadcast platform userID content) seen := by
  refine (now_posting unsaved).bind fun timestamp seen same => ?_
  have ready := submits timestamp
  rw [← same.1] at ready
  refine (save_posting same.2 ready).bind fun result seen saved => ?_
  cases result with
  | error error => exact acknowledged_of_error _ (by decide)
  | ok id =>
      obtain ⟨entries, last⟩ := saved id rfl
      dsimp only
      split
      · exact acknowledged_of_error _ (by decide)
      · next data marshalled =>
        refine ⟨⟨fun row same => (by cases same), fun item same => ?_⟩, ?_⟩
        · cases same
          exact ⟨(id, ⟨content, [], userID, timestamp⟩), last, data, marshalled, rfl⟩
        · rintro ⟨⟩ headers content ⟨⟩
          rw [savedEntries_snoc, entries]
          exact List.cons_ne_nil _ _

theorem sendMessage_posting {identity : Identity} (sending : route platform request = .sendMessage)
    (unsaved : savedEntries seen = [])
    (vouched : identity = .anonymous ∨
      Vouched platform thread (extractToken request) identity.userID seen) :
    Machine.Obeys thread (Posting platform thread request) Acknowledged
      (sendMessage platform request identity) seen := by
  unfold sendMessage
  split
  · exact acknowledged_of_error _ (by decide)
  · split
    · exact acknowledged_of_error _ (by decide)
    · next field fields =>
      dsimp only
      split
      · exact acknowledged_of_error _ (by decide)
      · next nonempty =>
        split
        · exact acknowledged_of_error _ (by decide)
        · next fits =>
          split
          · exact acknowledged_of_error _ (by decide)
          · next named =>
            refine saveAndBroadcast_posting unsaved fun timestamp => ?_
            have known : Vouched platform thread (extractToken request) identity.userID seen := by
              rcases vouched with rfl | vouched
              · exact absurd rfl named
              · exact vouched
            exact {
              route := sending
              vouched := known.snoc _
              named := named
              content := by rw [fields]; rfl
              nonempty := nonempty
              fits := Nat.le_of_not_lt fits
              client := rfl
              timed := List.mem_append_right _ (List.mem_singleton_self _) }

theorem serve_posting (thread : Nat) (request : Request) :
    Machine.Obeys thread (Posting platform thread request)
      (fun response seen => route platform request = .sendMessage → Acknowledged response seen)
      (serve platform request) [] := by
  have quiet : ∀ op : Op, op.isQuiet = true → op.postsNothing = true :=
    fun _ => postsNothing_of_isQuiet
  have unsaved : Machine.Obeys thread (Posting platform thread request)
      (fun _ seen => savedEntries seen = []) (authenticate platform request) [] :=
    posting_of_only (authenticate_only quiet) rfl
  have identifies : Machine.Obeys thread (Posting platform thread request)
      (fun identity seen => identity = .anonymous ∨
        Vouched platform thread (extractToken request) identity.userID seen)
      (authenticate platform request) [] :=
    (authenticate_obeys request).of_only (authenticate_only quiet)
      fun _ _ nothing => .of_postsNothing nothing
  refine (identifies.and unsaved).bind fun identity seen known => ?_
  by_cases sending : route platform request = .sendMessage
  · rw [sending]
    exact (sendMessage_posting sending known.2 known.1).mono fun _ _ acknowledged _ => acknowledged
  · refine (posting_of_only (dispatch_only quiet _ fun op permitted => ?_) known.2).mono
      fun _ _ _ other => absurd other sending
    exact postsNothing_of_permits sending permitted

end Handlers

/-! ## The table of messages -/

def World.messageRows (world : World) : List (Nat × Storage.MessageRow) :=
  world.tables.messages.rows

section Step

variable {platform : Platform} {config after : ServerConfig}

theorem savedEntry_eq_some {thread : Nat} {op : Op} {result : op.Result}
    {entry : Nat × Storage.MessageRow} (saved : savedEntry ⟨thread, op, result⟩ = some entry) :
    ∃ row outcome, op = .store (.exec false (.insertMessage row)) ∧
      result ≍ (.ok outcome : Except Storage.SqlError Storage.Outcome) ∧
      entry = (outcome.lastInsertId, row) := by
  cases op with
  | store op =>
      unfold savedEntry Storage.savedBy at saved
      dsimp only at saved
      split at saved
      · next row outcome same =>
        cases same
        cases saved
        exact ⟨row, outcome, rfl, .rfl, rfl⟩
      · cases saved
  | nanoid | random | putToken | checkToken | broadcast | register | writePump | renderContent
    | readFile => cases saved

theorem insert_of_savedEntry {performed : Performed Op Op.Result}
    {entry : Nat × Storage.MessageRow} (saved : savedEntry performed = some entry) :
    performed.op = .store (.exec false (.insertMessage entry.2)) := by
  obtain ⟨row, outcome, same, -, rfl⟩ := savedEntry_eq_some saved
  exact same

theorem positive_of_savedEntry {thread : Nat} {op : Op} {result : op.Result}
    {choice : Storage.Choice} {world reached : World}
    (performed : perform platform thread op choice world = some (result, reached))
    {entry : Nat × Storage.MessageRow} (saved : savedEntry ⟨thread, op, result⟩ = some entry) :
    0 < entry.1 := by
  obtain ⟨row, outcome, rfl, same, rfl⟩ := savedEntry_eq_some saved
  cases same
  rcases Storage.perform_exec (perform_store performed) with
    ⟨-, error, impossible⟩ | ⟨-, other, tables, made, applied, -⟩
  · cases impossible
  · cases made
    simp only [Storage.Statement.apply] at applied
    split at applied <;> cases applied
    next messages inserted =>
      rw [(NumberedTable.insert_eq_some inserted).1]
      exact Nat.succ_pos _

theorem messageRows_of_perform {thread : Nat} {op : Op} {result : op.Result}
    {choice : Storage.Choice} {world reached : World} (staged : world.store.Staged)
    (performed : perform platform thread op choice world = some (result, reached)) :
    reached.messageRows = world.messageRows ++ (savedEntry ⟨thread, op, result⟩).toList := by
  cases op with
  | store op => exact Storage.rows_of_perform staged (perform_store performed)
  | nanoid | random | putToken | checkToken | broadcast | register | writePump | renderContent
    | readFile =>
      cases changes_of_perform performed with
      | unchanged same =>
          rw [World.messageRows, same]
          exact (List.append_nil _).symm

theorem messageRows_of_environment {happening : Happening} {world reached : World}
    (happened : environment platform happening world = some reached) :
    reached.messageRows = world.messageRows := by
  rcases environment_store happened with same | ⟨-, -, -, code, expiresAt, outcome, applied⟩
  · rw [World.messageRows, World.tables, same]
    rfl
  · rcases Storage.Statement.messages_of_apply applied with ⟨row, impossible, -⟩ | same
    · cases impossible
    · rw [World.messageRows, same]
      rfl

theorem messageRows_of_next (serving : Serving platform config) {event : ServerEvent}
    (taken : next platform config event = some after) :
    ∃ performed, after.scene.history = config.scene.history ++ performed ∧
      after.scene.world.messageRows =
        config.scene.world.messageRows ++ savedEntries performed ∧
      ∀ entry ∈ savedEntries performed, 0 < entry.1 := by
  cases event with
  | arrive thread request =>
      obtain ⟨-, rfl⟩ := Machine.next_arrive taken
      exact ⟨[], (List.append_nil _).symm, (List.append_nil _).symm, nofun⟩
  | step thread choice =>
      obtain ⟨request, op, rest, result, scene, -, observed, rfl⟩ := Machine.next_step taken
      obtain ⟨performed, history⟩ := Machine.observe_eq_some.mp observed
      have rows := messageRows_of_perform serving.staged performed
      have same : savedEntries [⟨thread, op, result⟩] =
          (savedEntry ⟨thread, op, result⟩).toList := savedEntries_snoc [] _
      refine ⟨[⟨thread, op, result⟩], history, ?_, ?_⟩
      · rw [same]
        exact rows
      · rw [same]
        exact fun entry member => positive_of_savedEntry performed (Option.mem_toList.mp member)
  | environment happening =>
      obtain ⟨world, happened, rfl⟩ := Machine.next_environment taken
      refine ⟨[], (List.append_nil _).symm, ?_, nofun⟩
      exact (messageRows_of_environment happened).trans (List.append_nil _).symm
  | restart =>
      rw [Machine.next_restart taken]
      exact ⟨[], (List.append_nil _).symm, (List.append_nil _).symm, nofun⟩

end Step

/-! ## Runs -/

section Runs

variable {platform : Platform} {tables : Storage.Tables} {clock : Instant}
variable {events : List ServerEvent} {config : ServerConfig}

theorem messageRows_of_run {allowed}
    (run : Run (next platform) allowed (start tables clock) events config) :
    config.scene.world.messageRows = tables.messages.rows ++ savedEntries config.scene.history ∧
      ∀ entry ∈ savedEntries config.scene.history, 0 < entry.1 := by
  refine (run.invariant (fun config => Serving platform config ∧
      config.scene.world.messageRows =
        tables.messages.rows ++ savedEntries config.scene.history ∧
      ∀ entry ∈ savedEntries config.scene.history, 0 < entry.1) ?_
    ⟨serving_start tables clock, (List.append_nil _).symm, nofun⟩).2
  intro config event after held _ taken
  obtain ⟨serving, rows, positive⟩ := held
  obtain ⟨performed, history, added, more⟩ := messageRows_of_next serving taken
  refine ⟨serving.next taken, ?_, ?_⟩
  · rw [added, rows, history, savedEntries, savedEntries, savedEntries, List.filterMap_append,
      List.append_assoc]
  · intro entry member
    rw [history, savedEntries, List.filterMap_append] at member
    rcases List.mem_append.mp member with old | new
    · exact positive entry old
    · exact more entry new

theorem posting_of_run {allowed}
    (run : Run (next platform) allowed (start tables clock) events config) :
    Machine.Accounted (Machine.Requested (Posting platform) config) config.scene.history :=
  Machine.accounted_of_run serve_posting run

theorem Submits.mono {thread : Nat} {request : Request} {row : Storage.MessageRow}
    {seen later : List (Performed Op Op.Result)}
    (submits : Submits platform thread request row seen) (grown : seen ⊆ later) :
    Submits platform thread request row later :=
  { submits with
    vouched := submits.vouched.mono grown
    timed := grown submits.timed }

theorem savedEntries_own {history : List (Performed Op Op.Result)}
    (accounted : Machine.Accounted (Machine.Requested (Posting platform) config) history)
    (thread : Nat) :
    (savedEntries (history.filter fun performed => performed.thread = thread)).length ≤ 1 := by
  induction history using List.reverseRecOn with
  | nil => exact Nat.zero_le _
  | append_singleton history performed induction =>
      have earlier := induction (Machine.Throughout.of_append accounted)
      obtain ⟨request, -, posting⟩ := Machine.Throughout.last accounted
      rw [List.filter_append]
      by_cases own : performed.thread = thread
      · rw [List.filter_cons_of_pos (by simpa using own), List.filter_nil, savedEntries_snoc]
        cases saved : savedEntry performed with
        | none => simpa using earlier
        | some entry =>
            have first := (posting.saves _ (insert_of_savedEntry saved)).1
            rw [own] at first
            rw [first]
            exact Nat.le_refl _
      · rw [List.filter_cons_of_neg (by simpa using own), List.filter_nil, List.append_nil]
        exact earlier

/-- The row was saved for a request that had been let in as its author, and it
is the one row that the request has saved. -/
def Authored (platform : Platform) (config : ServerConfig)
    (entry : Nat × Storage.MessageRow) : Prop :=
  ∃ thread request, (config.threads thread).request = some request ∧
    savedEntries (config.scene.own thread) = [entry] ∧
    Submits platform thread request entry.2 (config.scene.own thread)

theorem submits_of_own {allowed}
    (run : Run (next platform) allowed (start tables clock) events config)
    {thread : Nat} {entry : Nat × Storage.MessageRow}
    (saved : entry ∈ savedEntries (config.scene.own thread)) :
    savedEntries (config.scene.own thread) = [entry] ∧
    ∃ request, (config.threads thread).request = some request ∧
      Submits platform thread request entry.2 (config.scene.own thread) := by
  have accounted := posting_of_run run
  constructor
  · obtain ⟨only, same⟩ := List.length_eq_one_iff.mp
      (Nat.le_antisymm (savedEntries_own accounted thread) (List.length_pos_of_mem saved))
    have single : savedEntries (config.scene.own thread) = [only] := same
    rw [single] at saved ⊢
    rw [List.mem_singleton.mp saved]
  · obtain ⟨performed, inside, made⟩ := List.mem_filterMap.mp saved
    obtain ⟨member, own⟩ := List.mem_filter.mp inside
    obtain ⟨before, later, parts⟩ := List.append_of_mem member
    obtain ⟨request, arrived, posting⟩ := accounted before performed later parts
    have submits := (posting.saves _ (insert_of_savedEntry made)).2
    rw [of_decide_eq_true own] at arrived submits
    exact ⟨request, arrived, submits.mono (of_decide_eq_true own ▸ Machine.before_subset_own parts)⟩

theorem authored_of_saved {allowed}
    (run : Run (next platform) allowed (start tables clock) events config)
    {entry : Nat × Storage.MessageRow} (member : entry ∈ savedEntries config.scene.history) :
    Authored platform config entry := by
  obtain ⟨performed, inside, saved⟩ := List.mem_filterMap.mp member
  have own : entry ∈ savedEntries (config.scene.own performed.thread) :=
    List.mem_filterMap.mpr ⟨performed, List.mem_filter.mpr ⟨inside, decide_eq_true rfl⟩, saved⟩
  obtain ⟨single, request, arrived, submits⟩ := submits_of_own run own
  exact ⟨performed.thread, request, arrived, single, submits⟩

/-- The history is only added to, by rows that requests have saved for their
own authors. -/
theorem messages_authored_of_run {allowed}
    (run : Run (next platform) allowed (start tables clock) events config) :
    ∃ added, config.scene.world.tables.messages.rows = tables.messages.rows ++ added ∧
      ∀ entry ∈ added, Authored platform config entry :=
  ⟨savedEntries config.scene.history, (messageRows_of_run run).1,
    fun _ member => authored_of_saved run member⟩

/-- The row of the one message that is sent in `sendAndStream`. -/
theorem sendAndStream_authored : ∃ config : ServerConfig,
    config.scene.world.tables.messages.rows = [(1, ⟨utf8 "hello", [], utf8 "ann", 0⟩)] ∧
    Authored .transparent config (1, ⟨utf8 "hello", [], utf8 "ann", 0⟩) := by
  have executed : (executeWhere (next .transparent) distinctClients (start annsTables 0)
      sendAndStream).map (fun config => config.scene.world.tables.messages.rows) =
      some [(1, ⟨utf8 "hello", [], utf8 "ann", 0⟩)] := by decide +kernel
  obtain ⟨config, reached, rows⟩ := Option.map_eq_some_iff.mp executed
  obtain ⟨added, same, authored⟩ := messages_authored_of_run (run_of_executeWhere reached)
  have empty : annsTables.messages.rows = [] := by decide
  rw [empty, List.nil_append] at same
  refine ⟨config, rows, authored _ ?_⟩
  rw [← same, rows]
  exact List.mem_singleton_self _

/-! ## What is sent live -/

def CarriesRows (platform : Platform) (config : ServerConfig) : Prop :=
  ∀ entry ∈ config.scene.world.hub.accepted, (∃ event, entry.2 = .ofEvent event) ∨
    ∃ row ∈ savedEntries config.scene.history, entry.2.Carries platform.location row

theorem CarriesRows.of_accepted {after : ServerConfig} (carries : CarriesRows platform config)
    (accepted : after.scene.world.hub.accepted = config.scene.world.hub.accepted)
    (history : config.scene.history <+: after.scene.history) : CarriesRows platform after := by
  intro entry member
  rw [accepted] at member
  exact (carries entry member).imp_right fun ⟨row, saved, carried⟩ =>
    ⟨row, (history.filterMap savedEntry).subset saved, carried⟩

theorem carriesRows_of_run {allowed}
    (run : Run (next platform) allowed (start tables clock) events config) :
    CarriesRows platform config := by
  refine (run.invariant (fun config => Machine.Tracked (fun thread request rest seen =>
      Machine.Obeys thread (Posting platform thread request) (fun response seen =>
        route platform request = .sendMessage → Acknowledged response seen) rest seen) config ∧
    CarriesRows platform config) ?_ ⟨Machine.tracked_start, nofun⟩).2
  intro config event after held _ taken
  obtain ⟨tracked, carries⟩ := held
  refine ⟨tracked.next (Machine.tracking_obeys serve_posting) taken, ?_⟩
  have history := Machine.history_of_next taken
  cases event with
  | arrive thread request =>
      obtain ⟨-, rfl⟩ := Machine.next_arrive taken
      exact carries
  | step thread choice =>
      obtain ⟨request, op, rest, result, scene, running, observed, rfl⟩ := Machine.next_step taken
      have performed : perform platform thread op choice config.scene.world =
          some (result, scene.world) := (Machine.observe_eq_some.mp observed).1
      by_cases silent : op.isSilent = true
      · exact carries.of_accepted (accepted_of_perform silent performed) history
      · cases op with
        | broadcast item =>
            intro entry member
            change entry ∈ scene.world.hub.accepted at member
            rw [Hub.accepted_of_send (perform_broadcast performed)] at member
            rcases List.mem_append.mp member with earlier | now
            · exact (carries entry earlier).imp_right fun ⟨row, saved, carried⟩ =>
                ⟨row, (history.filterMap savedEntry).subset saved, carried⟩
            · rw [List.mem_singleton.mp now]
              obtain ⟨row, last, carried⟩ := ((tracked thread).2 request _ running).1.sends item rfl
              obtain ⟨final, found, saved⟩ := Option.bind_eq_some_iff.mp last
              have own := List.mem_of_getLast? found
              refine .inr ⟨row, ?_, carried⟩
              exact (history.filterMap savedEntry).subset
                (List.mem_filterMap.mpr ⟨final, (List.mem_filter.mp own).1, saved⟩)
        | store | nanoid | random | putToken | checkToken | register | writePump | renderContent
          | readFile => exact absurd rfl silent
  | environment happening =>
      obtain ⟨world, happened, rfl⟩ := Machine.next_environment taken
      rcases environment_hub happened with same | ⟨event, fault, -, changed⟩
      · exact carries.of_accepted (congrArg Hub.accepted same) history
      · rcases (Hub.continues_of_happen changed).accepted with same | ⟨announced, more⟩
        · exact carries.of_accepted same history
        · intro entry member
          change entry ∈ world.hub.accepted at member
          rw [more] at member
          rcases List.mem_append.mp member with earlier | now
          · exact carries entry earlier
          · rw [List.mem_singleton.mp now]
            exact .inl ⟨announced, rfl⟩
  | restart =>
      rw [Machine.next_restart taken]
      exact nofun

end Runs

end Grunt.Server
