import Grunt.Server.Gaps

/-! # The page and its stream

The browser asks for the rows first and opens its stream when the page is
there. In between a message can be lost, and one can come twice: once as a row
and once as a fragment.
-/

namespace Grunt.Server

open Foundation

section Browser

variable {platform : Platform} {cookie : ByteString} {config after : ServerConfig}

/-! ## Where the rows come from -/

def Browsing.Fits (cookie : ByteString) (config : ServerConfig) : Browsing → Prop
  | .closed => True
  | .loading page => (config.threads page).request = some (pageRequest cookie)
  | .loaded page rows | .streaming page _ rows => ∃ headers data,
      config.threads page =
        .running (pageRequest cookie) (.done (.sent 200 headers (.chat data))) ∧
      data.messages = rows

theorem Browsing.Fits.next {phase : Browsing} (fits : phase.Fits cookie config)
    {event : ServerEvent} (taken : Server.next platform config event = some after) :
    phase.Fits cookie after := by
  cases phase with
  | closed => trivial
  | loading page => exact Machine.request_of_next fits taken
  | loaded | streaming =>
      rcases fits with ⟨headers, data, finished, same⟩
      exact ⟨headers, data, Machine.finished_of_next finished taken, same⟩

theorem fits_of_run {tables : Storage.Tables} {clock : Instant}
    {steps : List (Party.Step ServerEvent BrowserMove)} {phase : Browsing}
    (run : RunWith platform (browse cookie) (start tables clock, .closed) steps (config, phase)) :
    phase.Fits cookie config := by
  refine run.invariant (fun state => state.2.Fits cookie state.1) ?_ trivial
  intro state step after fits permitted taken
  rcases state with ⟨config, phase⟩
  rcases after with ⟨after, later⟩
  cases Party.turn_of_next taken with
  | alone happened => exact fits.next happened
  | silent acted =>
      cases browses_of_act acted with
      | @loads _ request headers data finished =>
          have arrived : (config.threads _).request = some (pageRequest cookie) := fits
          rw [finished, Thread.request, Option.some.injEq] at arrived
          subst arrived
          exact ⟨headers, data, finished, rfl⟩
  | acts acted happened =>
      cases browses_of_act acted with
      | opens page =>
          rcases Machine.next_arrive happened with ⟨-, rfl⟩
          simp only [Browsing.Fits, Config.set, Function.update_self, Thread.request]
      | connects page stream rows =>
          have loaded : (Browsing.loaded page rows).Fits cookie after := fits.next happened
          exact loaded

theorem own_of_run {events : List ServerEvent} {allowed}
    (run : Run (next platform) allowed config events after) (thread : Nat) :
    config.scene.own thread <+: after.scene.own thread :=
  (Machine.history_of_run run).filter _

/-- The request is about to query the messages for the page. -/
def queriesPage (config : ServerConfig) (page : Nat) : Bool :=
  match config.threads page with
  | .running _ (.perform op _) => op = newestQuery 50
  | _ => false

theorem rows_of_query {asked : ServerConfig} {choice : Storage.Choice} {page : Nat}
    (query : queriesPage asked page = true)
    (stepped : next platform asked (.step page choice) = some after)
    {messages : List (Nat × Storage.MessageRow)} {events : List ServerEvent} {allowed}
    (run : Run (next platform) allowed after events config)
    (answer : answers 50 (config.scene.own page) = [.ok messages]) :
    messages.map Prod.fst = Storage.answered 0 50 asked.scene.world.tables := by
  rcases Machine.next_step stepped with ⟨_, op, _, result, scene, running, observed, rfl⟩
  simp only [queriesPage, running, decide_eq_true_eq] at query
  subst query
  have performed : perform platform page (newestQuery 50) choice asked.scene.world =
      some (result, scene.world) := (Machine.observe_eq_some.mp observed).1
  have own : scene.own page = asked.scene.own page ++ [⟨page, newestQuery 50, result⟩] :=
    Machine.own_of_observe observed
  have member : ⟨page, newestQuery 50, result⟩ ∈ config.scene.own page := by
    apply (own_of_run run page).subset
    simp only [Config.set, own]
    exact List.mem_append_right _ (List.mem_singleton_self _)
  have listed := mem_answers member
  rw [answer] at listed
  have same : result = .ok messages := List.mem_singleton.mp listed
  subst same
  exact eval_of_answers performed (mem_answers (List.mem_singleton_self _))

/-! ## Once, twice or not at all -/

/-- How often a message appears in `#msg-list`. -/
def appearances (rows : List MessageTemplateData) (pump : Pump) (id : Nat) : Nat :=
  (rows.map MessageTemplateData.id).count id + pump.queuedIDs.count id

theorem appearances_eq_one_iff {rows : List MessageTemplateData} {pump : Pump} {id : Nat}
    (rowsOnce : (rows.map MessageTemplateData.id).Nodup) (queuedOnce : pump.queuedIDs.Nodup) :
    appearances rows pump id = 1 ↔
      (id ∈ rows.map MessageTemplateData.id ↔ id ∉ pump.queuedIDs) := by
  rw [appearances, rowsOnce.count, queuedOnce.count]
  by_cases shown : id ∈ rows.map MessageTemplateData.id <;>
    by_cases queued : id ∈ pump.queuedIDs <;> simp [shown, queued]

theorem Settled.nodup_processed (settled : Settled platform config) (entry : Entry) :
    (config.scene.world.hub.processedIDs entry).Nodup := by
  have sent := settled.filed.sent
  rw [sentIDs, settled.delivering.sound.accepted, messageIDs_append] at sent
  exact (List.Nodup.of_append_left sent).sublist ((List.take_sublist _ _).filterMap _)

theorem not_mem_later_iff {processed earlier later : List Nat}
    (parts : processed = earlier ++ later) (once : processed.Nodup) {id : Nat} :
    id ∉ later ↔ (id ∈ processed → id ∈ earlier) := by
  subst parts
  constructor
  · intro absent member
    exact (List.mem_append.mp member).resolve_right absent
  · intro before member
    exact List.disjoint_of_nodup_append once (before (List.mem_append_right _ member)) member

/-- A message that is newer than the oldest row has a row exactly if it was in
the table when the page was queried. -/
theorem row_iff_saved {rows : List MessageTemplateData} {tables : Storage.Tables} {id : Nat}
    (same : rows.map MessageTemplateData.id = Storage.answered 0 50 tables) (positive : 0 < id)
    (newer : ∀ oldest, rows.head? = some oldest → oldest.id < id) :
    id ∈ rows.map MessageTemplateData.id ↔ id ∈ tables.messages.rows.map Prod.fst := by
  rw [same]
  constructor
  · exact Storage.saved_of_answered
  · intro saved
    apply Storage.answered_of_newer saved (Int.natCast_pos.mpr positive)
    rw [← same]
    cases rows with
    | nil => exact .inl (by decide)
    | cons oldest rows =>
        exact .inr ⟨oldest.id, List.mem_cons_self, newer oldest rfl⟩

/-- Take any run of the server in which a browser loads the page and then opens
its stream, and in which its subscriber is connected and its buffer never fills
up. A message that is newer than the oldest row appears exactly once if and
only if it was saved before the page was queried exactly when `Run`, if it has
processed it, had dequeued it before it registered the subscriber. -/
theorem appears_once_iff_of_run {tables : Storage.Tables} {clock : Instant}
    (numbered : ∀ entry ∈ tables.messages.rows, 0 < entry.1)
    {before later : List (Party.Step ServerEvent BrowserMove)} {asked : ServerConfig}
    {page stream : Nat} {choice : Storage.Choice} {rows : List MessageTemplateData}
    (loading : RunWith platform (browse cookie) (start tables clock, .closed) before
      (asked, .loading page))
    (query : queriesPage asked page = true)
    (streaming : RunWith platform (browse cookie) (asked, .loading page)
      (.alone (.step page choice) :: later) (config, .streaming page stream rows))
    {pump : Pump} (found : config.scene.world.hub.pumps stream = some pump)
    (connected : pump.left = none) (roomy : pump.NeverFull) :
    ∀ id ∈ config.scene.world.savedIDs, (∀ oldest, rows.head? = some oldest → oldest.id < id) →
      (appearances rows pump id = 1 ↔
        (id ∈ asked.scene.world.savedIDs ↔
          (id ∈ config.scene.world.hub.processedIDs (pump.subscriber.clientID, stream) →
            id ∈ config.scene.world.hub.earlierIDs pump))) := by
  have whole := loading.append streaming
  rcases Party.run_of_run whole with ⟨events, run⟩
  have settled := settled_of_run numbered run
  have loads := Machine.tracked_of_run
    (Machine.obeys_tracking fun _ request => serve_loadsRows request)
    run Machine.tracked_start
  rcases fits_of_run whole with ⟨headers, data, finished, rfl⟩
  rcases (loads page).2 (pageRequest cookie) _ finished (route_pageRequest platform cookie) rfl
    headers data rfl with ⟨messages, answer, shown⟩
  have same : data.messages.map MessageTemplateData.id =
      Storage.answered 0 50 asked.scene.world.tables := by
    rw [shown]
    cases streaming with
    | @cons _ middle _ _ _ permitted taken rest =>
        rcases middle with ⟨after, phase⟩
        rcases Party.run_of_run rest with ⟨more, remaining⟩
        cases Party.turn_of_next taken with
        | alone stepped => exact rows_of_query query stepped remaining answer
  have sound := settled.delivering.sound.pump stream pump found
  have queued := sound.deliversExactly.queuedIDs connected roomy
  have parts := sound.processedIDs connected
  have processedOnce := settled.nodup_processed (pump.subscriber.clientID, stream)
  intro id saved newer
  have rowsOnce : (data.messages.map MessageTemplateData.id).Nodup := by
    rw [same]
    exact Storage.nodup_answered
  have queuedOnce : pump.queuedIDs.Nodup := by
    rw [parts, ← queued] at processedOnce
    exact List.Nodup.of_append_right processedOnce
  rw [appearances_eq_one_iff rowsOnce queuedOnce, queued,
    row_iff_saved same (settled.numbered id saved) newer, not_mem_later_iff parts processedOnce,
    World.savedIDs]

end Browser

/-- One message has been sent, and a browser is about to get it with the page. -/
def pageOpened : List (Party.Step ServerEvent BrowserMove) :=
  [sendsHello 1, fansOut [], [.move (.open 0)], serves [0, 0]].flatten

/-- Another message is sent before the page opens its stream. -/
def sentInBetween : List (Party.Step ServerEvent BrowserMove) :=
  [serves [0, 0, 0, 0], [.move .respond], sendsHello 2, fansOut [], [.move (.connect 3)],
    subscribes 3, fansOut [(annsClientID, 3)]].flatten

def Browsing.rowsOf (page stream : Nat) : Browsing → Option (List MessageTemplateData)
  | .streaming one two rows => if one = page ∧ two = stream then some rows else none
  | _ => none

theorem eq_of_rowsOf {phase : Browsing} {page stream : Nat} {rows : List MessageTemplateData}
    (shown : phase.rowsOf page stream = some rows) : phase = .streaming page stream rows := by
  unfold Browsing.rowsOf at shown
  split at shown
  case h_2 => cases shown
  case h_1 =>
    split at shown <;> cases shown
    next same =>
      rcases same with ⟨rfl, rfl⟩
      rfl

theorem sentInBetween_executed :
    ((executeWhere ((browse (utf8 "gk_ann")).next (next .transparent))
      ((browse (utf8 "gk_ann")).allows distinctClients) (start annsTables 0, .closed)
      pageOpened).bind fun asked =>
        (executeWhere ((browse (utf8 "gk_ann")).next (next .transparent))
          ((browse (utf8 "gk_ann")).allows distinctClients) asked
          (.alone (.step 0 .plain) :: sentInBetween)).bind fun final =>
            (final.1.scene.world.hub.pumps 3).bind fun pump =>
              (final.2.rowsOf 0 3).map fun rows =>
                (asked.2, queriesPage asked.1 0 && pump.left.isNone &&
                  pump.offers.all Offer.kept && final.1.scene.world.hub.broadcast.isEmpty,
                  final.1.scene.world.savedIDs, rows.map MessageTemplateData.id,
                  pump.queuedIDs)) =
      some (.loading 0, true, [1, 2], [1], []) := by
  decide +kernel

theorem sentInBetween_runs : ∃ (asked config : ServerConfig) (rows : List MessageTemplateData)
    (pump : Pump),
    RunWith .transparent (browse (utf8 "gk_ann")) (start annsTables 0, .closed) pageOpened
      (asked, .loading 0) ∧
    queriesPage asked 0 = true ∧
    RunWith .transparent (browse (utf8 "gk_ann")) (asked, .loading 0)
      (.alone (.step 0 .plain) :: sentInBetween) (config, .streaming 0 3 rows) ∧
    config.scene.world.hub.pumps 3 = some pump ∧ pump.left = none ∧ pump.NeverFull ∧
    config.scene.world.hub.broadcast = [] ∧ config.scene.world.savedIDs = [1, 2] ∧
    rows.map MessageTemplateData.id = [1] ∧ pump.queuedIDs = [] := by
  rcases Option.bind_eq_some_iff.mp sentInBetween_executed with ⟨⟨asked, phase⟩, began, rest⟩
  rcases Option.bind_eq_some_iff.mp rest with ⟨⟨config, later⟩, ended, rest⟩
  rcases Option.bind_eq_some_iff.mp rest with ⟨pump, found, rest⟩
  rcases Option.map_eq_some_iff.mp rest with ⟨rows, shown, outcome⟩
  simp only [Prod.mk.injEq, Bool.and_eq_true, Option.isNone_iff_eq_none, List.isEmpty_iff]
    at outcome
  rcases outcome with ⟨rfl, ⟨⟨⟨query, connected⟩, kept⟩, drained⟩, saved, ids, queued⟩
  have streams : later = .streaming 0 3 rows := eq_of_rowsOf shown
  subst streams
  exact ⟨asked, config, rows, pump, run_of_executeWhere began, query, run_of_executeWhere ended,
    found, connected, List.all_eq_true.mp kept, drained, saved, ids, queued⟩

theorem newer_of_ids {rows : List MessageTemplateData}
    (ids : rows.map MessageTemplateData.id = [1]) :
    ∀ oldest, rows.head? = some oldest → oldest.id < 2 := by
  intro oldest first
  rcases List.map_eq_cons_iff.mp ids with ⟨row, others, rfl, same, -⟩
  cases first
  rw [same]
  decide

/-- The second message is newer than the row of the page, and has been
processed, but it appears nowhere. -/
theorem sentInBetween_lost : ∃ (asked config : ServerConfig) (rows : List MessageTemplateData)
    (pump : Pump),
    RunWith .transparent (browse (utf8 "gk_ann")) (start annsTables 0, .closed) pageOpened
      (asked, .loading 0) ∧
    RunWith .transparent (browse (utf8 "gk_ann")) (asked, .loading 0)
      (.alone (.step 0 .plain) :: sentInBetween) (config, .streaming 0 3 rows) ∧
    config.scene.world.hub.pumps 3 = some pump ∧ pump.left = none ∧ pump.NeverFull ∧
    config.scene.world.hub.broadcast = [] ∧
    ¬ ∀ id ∈ config.scene.world.savedIDs,
      (∀ oldest, rows.head? = some oldest → oldest.id < id) → appearances rows pump id = 1 := by
  rcases sentInBetween_runs with ⟨asked, config, rows, pump, loading, -, streaming, found,
    connected, roomy, drained, saved, ids, queued⟩
  refine ⟨asked, config, rows, pump, loading, streaming, found, connected, roomy, drained, ?_⟩
  intro once
  have second := once 2 (by rw [saved]; decide) (newer_of_ids ids)
  rw [appearances, ids, queued] at second
  exact absurd second (by decide)

theorem sentInBetween_appears_iff : ∃ (asked config : ServerConfig)
    (rows : List MessageTemplateData) (pump : Pump),
    config.scene.world.hub.pumps 3 = some pump ∧
    (appearances rows pump 2 = 1 ↔
      (2 ∈ asked.scene.world.savedIDs ↔
        (2 ∈ config.scene.world.hub.processedIDs (pump.subscriber.clientID, 3) →
          2 ∈ config.scene.world.hub.earlierIDs pump))) := by
  rcases sentInBetween_runs with ⟨asked, config, rows, pump, loading, query, streaming, found,
    connected, roomy, -, saved, ids, -⟩
  have numbered : ∀ entry ∈ annsTables.messages.rows, 0 < entry.1 := by decide
  exact ⟨asked, config, rows, pump, found, appears_once_iff_of_run numbered loading query streaming
    found connected roomy 2 (by rw [saved]; decide) (newer_of_ids ids)⟩

end Grunt.Server
