import Grunt.Foundation.Paging
import Grunt.Storage.Newest
import Grunt.Storage.Staging

/-! # What is saved is what is read

`Save` and `Sync` among any other calls of the store. The table of messages is
compared with the list of what was saved, in the order of the saving.
-/

namespace Grunt.Storage

open Foundation

/-! ## The window -/

/-- The messages a reader asks for. -/
def window (since limit : Int) (saved : List (Nat × MessageRow)) : List (Nat × MessageRow) :=
  newest limit (above Prod.fst since saved)

/-- Of the saved messages above an id, in the order of their ids, those with
the largest ids up to a limit, or all. -/
structure IsWindow (since limit : Int) (saved rows : List (Nat × MessageRow)) : Prop where
  ascending : (rows.map Prod.fst).Pairwise (· < ·)
  mem : ∀ entry ∈ rows, entry ∈ saved ∧ since < entry.1
  all : limit ≤ 0 → ∀ entry ∈ saved, since < entry.1 → entry ∈ rows
  length : 0 < limit → rows.length = min limit.toNat (above Prod.fst since saved).length
  largest : ∀ entry ∈ saved, since < entry.1 → entry ∉ rows → ∀ kept ∈ rows, entry.1 < kept.1

section Window

variable {since limit : Int} {saved : List (Nat × MessageRow)}

theorem isWindow_window (ascending : (saved.map Prod.fst).Pairwise (· < ·)) :
    IsWindow since limit saved (window since limit saved) where
  ascending := (ascending_above ascending).sublist (newest_suffix.sublist.map Prod.fst)
  mem := fun entry member => mem_above.mp (newest_suffix.subset member)
  all := by
    intro unlimited entry member isAbove
    rw [window, newest_eq_self_iff.mpr (.inl unlimited)]
    exact mem_above.mpr ⟨member, isAbove⟩
  length := fun limited => length_newest limited
  largest := by
    intro entry member isAbove outside kept inside
    exact less_of_left_out (ascending_above ascending) inside
      (mem_above.mpr ⟨member, isAbove⟩) outside

theorem eval_limited {tables : Tables} (limited : 0 < limit) :
    Query.eval (.lastMessages since limit.toNat) tables =
      window since limit tables.messages.rows := by
  rw [eval_lastMessages, window, newest, if_pos limited]
  rfl

theorem eval_messagesSince {tables : Tables} :
    Query.eval (.messagesSince since) tables = window since 0 tables.messages.rows :=
  orderAscending_eq (.refl _) ascending_after

theorem window_unlimited (unlimited : ¬ 0 < limit) :
    window since limit saved = window since 0 saved := by
  rw [window, window, newest, newest, if_neg unlimited, if_neg (Int.lt_irrefl 0)]

theorem sync_alone {libraries : Libraries} {thread : Nat} {world : World} :
    (Store.sync since limit).run (perform libraries thread) [.plain] world =
      some (.ok (window since limit world.database.committed.messages.rows), world) := by
  by_cases limited : 0 < limit
  · rw [Store.sync, if_pos limited, ← eval_limited limited]
    rfl
  · rw [Store.sync, if_neg limited, window_unlimited limited, ← eval_messagesSince]
    rfl

end Window

/-! ## What was saved -/

def savedBy : Performed Op Op.Result → Option (Nat × MessageRow)
  | ⟨_, .exec false (.insertMessage row), .ok outcome⟩ => some (outcome.lastInsertId, row)
  | _ => none

def saves (history : List (Performed Op Op.Result)) : List (Nat × MessageRow) :=
  history.filterMap savedBy

def readBy : Performed Op Op.Result → Option (Int × Int × List (Nat × MessageRow))
  | ⟨_, .query false (.lastMessages since (limit + 1)), .ok rows⟩ =>
      some (since, (limit + 1 : Nat), rows)
  | ⟨_, .query false (.messagesSince since), .ok rows⟩ => some (since, 0, rows)
  | _ => none

def Op.isUnsaving : Op → Bool
  | .exec _ (.insertMessage _) => false
  | _ => true

theorem savedBy_of_isUnsaving {thread : Nat} {op : Op} {result : op.Result}
    (unsaving : op.isUnsaving = true) : savedBy ⟨thread, op, result⟩ = none := by
  cases op with
  | exec inTx statement =>
      cases statement with
      | insertMessage row => cases unsaving
      | _ => cases inTx <;> rfl
  | _ => rfl

theorem saves_snoc (seen : List (Performed Op Op.Result)) (performed : Performed Op Op.Result) :
    saves (seen ++ [performed]) = saves seen ++ (savedBy performed).toList := by
  rw [saves, saves, List.filterMap_append]
  cases saved : savedBy performed <;> simp [saved]

theorem saves_snoc_of_isUnsaving {seen : List (Performed Op Op.Result)} {thread : Nat} {op : Op}
    {result : op.Result} (unsaving : op.isUnsaving = true) :
    saves (seen ++ [⟨thread, op, result⟩]) = saves seen := by
  rw [saves_snoc, savedBy_of_isUnsaving unsaving]
  exact List.append_nil _

/-! ## What a call has done -/

/-- A call that is under way has saved nothing, and what it does in a
transaction is the store's. -/
def SaveNeeds (op : Op) (seen : List (Performed Op Op.Result)) : Prop :=
  saves seen = [] ∧ op.isServed = true

def SaveDone (call : Call) (reply : Reply) (seen : List (Performed Op Op.Result)) : Prop :=
  match call, reply with
  | .save message, .number (.ok id) => saves seen = [(id, message)]
  | .sync since limit, .messages (.ok rows) => saves seen = [] ∧
      ∃ performed ∈ seen, readBy performed = some (since, max limit 0, rows)
  | _, _ => saves seen = []

def SaveTracks (thread : Nat) (call : Call) (rest : StoreProgram Reply)
    (seen : List (Performed Op Op.Result)) : Prop :=
  Machine.Obeys thread SaveNeeds (SaveDone call) rest seen

section Calls

variable {libraries : Libraries} {thread : Nat}

theorem save_tracks (message : MessageRow) :
    SaveTracks thread (.save message) (Call.run libraries (.save message)) [] := by
  refine ⟨⟨rfl, rfl⟩, fun result => ?_⟩
  cases result with
  | error error => exact rfl
  | ok outcome => exact rfl

theorem sync_tracks (since limit : Int) :
    SaveTracks thread (.sync since limit) (Call.run libraries (.sync since limit)) [] := by
  by_cases limited : 0 < limit
  · rcases Int.eq_succ_of_zero_lt limited with ⟨count, rfl⟩
    rw [Call.run, Store.sync, if_pos limited]
    refine ⟨⟨rfl, rfl⟩, fun result => ?_⟩
    cases result with
    | error error => exact rfl
    | ok rows =>
        refine ⟨rfl, _, List.mem_singleton.mpr rfl, ?_⟩
        rw [max_eq_left limited.le]
        rfl
  · rw [Call.run, Store.sync, if_neg limited]
    refine ⟨⟨rfl, rfl⟩, fun result => ?_⟩
    cases result with
    | error error => exact rfl
    | ok rows =>
        refine ⟨rfl, _, List.mem_singleton.mpr rfl, ?_⟩
        rw [max_eq_right (not_lt.mp limited)]
        rfl

def Op.isBeside (op : Op) : Bool := op.isUnsaving && op.isServed

theorem Op.isBeside_of_isLookup {op : Op} (lookup : op.isLookup = true) : op.isBeside = true := by
  cases op with
  | exec inTx statement => cases lookup
  | _ => rfl

theorem Call.run_beside {call : Call} (noSave : ∀ message, call ≠ .save message) :
    (call.run libraries).Only fun op => op.isBeside = true := by
  apply Call.run_only fun _ => Op.isBeside_of_isLookup
  intro op permitted
  unfold Call.permits at permitted
  split at permitted <;>
    simp_all [Op.isBeside, Op.isUnsaving, Op.isServed, Statement.isStaged]

theorem beside_tracks {call : Call} (noSave : ∀ message, call ≠ .save message)
    (noSync : ∀ since limit, call ≠ .sync since limit) :
    SaveTracks thread call (call.run libraries) [] := by
  have kept : Machine.Obeys thread SaveNeeds (fun _ seen => saves seen = []) (call.run libraries)
      [] := by
    apply Machine.obeys_of_only (Call.run_beside noSave)
    · intro op seen beside nothing
      exact ⟨nothing, (Bool.and_eq_true_iff.mp beside).2⟩
    · intro op result seen beside nothing
      rw [saves_snoc_of_isUnsaving (Bool.and_eq_true_iff.mp beside).1]
      exact nothing
    · rfl
  apply kept.mono
  intro reply seen nothing
  unfold SaveDone
  split
  case h_1 message id => exact absurd rfl (noSave message)
  case h_2 since limit rows => exact absurd rfl (noSync since limit)
  case h_3 => exact nothing

theorem calls_track (call : Call) : SaveTracks thread call (call.run libraries) [] := by
  cases call with
  | save message => exact save_tracks message
  | sync since limit => exact sync_tracks since limit
  | _ => exact beside_tracks nofun nofun

theorem saves_tracking : Machine.Tracking (Call.run libraries) SaveTracks where
  initially := fun _ => calls_track
  kept := fun _ _ _ _ _ result tracks => tracks.2 result

end Calls

/-! ## The invariant of a run -/

/-- The table of messages is what was saved, and every query has answered from
what was saved before it. -/
structure Keeping (config : StoreConfig) : Prop where
  staged : config.scene.world.Staged
  tracked : Machine.Tracked SaveTracks config
  ended : Machine.Ended (fun _ _ seen => saves seen = []) config
  rows : config.scene.world.database.committed.messages.rows = saves config.scene.history
  reads : ∀ earlier performed later since limit rows,
    config.scene.history = earlier ++ performed :: later →
    readBy performed = some (since, limit, rows) → rows = window since limit (saves earlier)

section Invariant

variable {libraries : Libraries} {thread : Nat} {choice : Choice} {world reached : World}

theorem keeping_start (clock : Instant) : Keeping (start clock) where
  staged := World.staged_of_idle rfl
  tracked := Machine.tracked_start
  ended := nofun
  rows := rfl
  reads := by
    intro earlier performed later since limit rows parts
    cases earlier <;> cases parts

theorem rows_of_perform {op : Op} {result : op.Result} (staged : world.Staged)
    (performed : perform libraries thread op choice world = some (result, reached)) :
    reached.database.committed.messages.rows =
      world.database.committed.messages.rows ++ (savedBy ⟨thread, op, result⟩).toList := by
  by_cases saving : ∃ row, op = .exec false (.insertMessage row)
  · rcases saving with ⟨row, rfl⟩
    rcases perform_exec performed with
      ⟨rfl, error, rfl⟩ | ⟨-, outcome, tables, rfl, applied, rfl⟩
    · exact (List.append_nil _).symm
    · simp only [Statement.apply] at applied
      split at applied
      case h_1 messages inserted =>
        cases applied
        have added := NumberedTable.insert_eq_some inserted
        rw [World.setDatabase_database, added.2, ← added.1]
        rfl
      case h_2 => cases applied
  · have nothing : savedBy ⟨thread, op, result⟩ = none := by
      cases op with
      | exec inTx statement =>
          cases inTx with
          | true => rfl
          | false =>
              cases statement with
              | insertMessage row => exact absurd ⟨row, rfl⟩ saving
              | _ => rfl
      | _ => rfl
    rw [nothing, Option.toList_none, List.append_nil]
    cases changes_of_perform performed with
    | unchanged same => rw [same]
    | statement idle applied =>
        rcases Statement.messages_of_apply applied with ⟨row, rfl, -⟩ | same
        · exact absurd ⟨row, rfl⟩ saving
        · rw [same]
    | commit held => rw [(staged _ _ held).messages]

theorem window_of_perform {op : Op} {result : op.Result} {since limit : Int}
    {rows : List (Nat × MessageRow)}
    (performed : perform libraries thread op choice world = some (result, reached))
    (read : readBy ⟨thread, op, result⟩ = some (since, limit, rows)) :
    rows = window since limit world.database.committed.messages.rows := by
  cases op with
  | query inTx asked =>
      cases inTx with
      | true => cases asked <;> cases read
      | false =>
          cases asked with
          | lastMessages since count =>
              cases count with
              | zero => cases read
              | succ count =>
                  cases result with
                  | error error => cases read
                  | ok answer =>
                      cases read
                      rw [← perform_query performed]
                      exact eval_limited (Int.natCast_pos.mpr count.succ_pos)
          | messagesSince since =>
              cases result with
              | error error => cases read
              | ok answer =>
                  cases read
                  rw [← perform_query performed]
                  exact eval_messagesSince
          | _ => cases read
  | _ => cases read

variable {config after : StoreConfig} {events : List StoreEvent}

theorem reads_snoc {history : List (Performed Op Op.Result)} {new : Performed Op Op.Result}
    (reads : ∀ earlier performed later since limit rows,
      history = earlier ++ performed :: later →
      readBy performed = some (since, limit, rows) → rows = window since limit (saves earlier))
    (read : ∀ since limit rows, readBy new = some (since, limit, rows) →
      rows = window since limit (saves history)) :
    ∀ earlier performed later since limit rows,
      history ++ [new] = earlier ++ performed :: later →
      readBy performed = some (since, limit, rows) →
      rows = window since limit (saves earlier) := by
  intro earlier performed later since limit rows parts answered
  rcases List.eq_nil_or_concat later with rfl | ⟨front, last, rfl⟩
  · rcases List.append_inj' parts rfl with ⟨rfl, same⟩
    cases same
    exact read since limit rows answered
  · rw [List.concat_eq_append, ← List.cons_append, ← List.append_assoc] at parts
    exact reads earlier performed front since limit rows (List.append_inj' parts rfl).1 answered

theorem Keeping.step (keeping : Keeping config)
    (taken : next libraries config (.step thread choice) = some after) : Keeping after := by
  have tracked := keeping.tracked.next saves_tracking taken
  have ended := keeping.ended.next keeping.tracked (fun _ _ _ _ _ tracks => tracks.1.1) taken
  rcases Machine.next_step taken with ⟨call, op, rest, result, scene, running, observed, rfl⟩
  have performed := performed_of_observe observed
  have history := (Machine.observe_eq_some.mp observed).2
  have served := ((keeping.tracked thread).2 call _ running).1.2
  refine ⟨keeping.staged.perform served performed, tracked, ended, ?_, ?_⟩
  · simp only [Config.set, history]
    rw [rows_of_perform keeping.staged performed, keeping.rows, saves_snoc]
  · simp only [Config.set, history]
    apply reads_snoc keeping.reads
    intro since limit rows read
    rw [window_of_perform performed read, keeping.rows]

theorem Keeping.next {event : StoreEvent} (keeping : Keeping config)
    (taken : Storage.next libraries config event = some after) : Keeping after := by
  have tracked := keeping.tracked.next saves_tracking taken
  have ended := keeping.ended.next keeping.tracked (fun _ _ _ _ _ tracks => tracks.1.1) taken
  cases event with
  | step thread choice => exact keeping.step taken
  | arrive thread call =>
      rcases Machine.next_arrive taken with ⟨-, rfl⟩
      exact ⟨keeping.staged, tracked, ended, keeping.rows, keeping.reads⟩
  | environment tick =>
      rcases Machine.next_environment taken with ⟨world, ticked, rfl⟩
      cases tick with
      | advance elapsed =>
          cases ticked
          exact ⟨keeping.staged, tracked, ended, keeping.rows, keeping.reads⟩
  | restart =>
      have restarted := Machine.next_restart taken
      subst restarted
      exact ⟨World.staged_of_idle rfl, tracked, ended, keeping.rows, keeping.reads⟩

theorem keeping_of_run {clock : Instant}
    (run : AnyRun (Storage.next libraries) (start clock) events config) : Keeping config :=
  run.invariant Keeping (fun _ _ _ keeping _ taken => keeping.next taken) (keeping_start clock)

theorem Keeping.ascending (keeping : Keeping config) :
    ((saves config.scene.history).map Prod.fst).Pairwise (· < ·) := by
  rw [← keeping.rows]
  exact config.scene.world.database.committed.messages.ascending

theorem mem_saves {history : List (Performed Op Op.Result)} {entry : Nat × MessageRow} :
    entry ∈ saves history ↔ ∃ thread, entry ∈ saves (history.filter (·.thread = thread)) := by
  constructor
  · intro member
    rcases List.mem_filterMap.mp member with ⟨performed, inside, saved⟩
    exact ⟨performed.thread, List.mem_filterMap.mpr
      ⟨performed, List.mem_filter.mpr ⟨inside, decide_eq_true rfl⟩, saved⟩⟩
  · rintro ⟨thread, member⟩
    exact (List.filter_sublist.filterMap savedBy).subset member

theorem Keeping.saved_iff (keeping : Keeping config) {id : Nat} {message : MessageRow} :
    (id, message) ∈ saves config.scene.history ↔ ∃ thread,
      config.threads thread = .running (.save message) (.done (.number (.ok id))) := by
  rw [mem_saves]
  apply exists_congr
  intro thread
  have idle := (keeping.tracked thread).1
  have running := (keeping.tracked thread).2
  have killed := keeping.ended thread
  rw [Scene.own] at idle running killed
  cases status : config.threads thread with
  | idle =>
      rw [idle status]
      simp [saves]
  | killed call =>
      rw [killed call status]
      simp
  | running call program =>
      have tracks := running call program status
      cases program with
      | perform op rest =>
          rw [tracks.1.1]
          simp
      | done reply =>
          change SaveDone call reply _ at tracks
          unfold SaveDone at tracks
          split at tracks
          case h_1 saved given =>
            rw [tracks]
            simp only [List.mem_singleton, Prod.mk.injEq, Thread.running.injEq, Call.save.injEq,
              Program.done.injEq, Reply.number.injEq, Except.ok.injEq]
            exact ⟨fun same => ⟨same.2.symm, same.1.symm⟩, fun same => ⟨same.2.symm, same.1.symm⟩⟩
          case h_2 =>
            rw [tracks.1]
            simp
          case h_3 noSave noSync =>
            rw [tracks]
            simp only [List.not_mem_nil, Thread.running.injEq, Program.done.injEq, false_iff]
            rintro ⟨rfl, rfl⟩
            exact noSave message id rfl rfl

theorem Keeping.read (keeping : Keeping config) {since limit : Int}
    {rows : List (Nat × MessageRow)}
    (returned : config.threads thread =
      .running (.sync since limit) (.done (.messages (.ok rows)))) :
    ∃ earlier performed later, config.scene.history = earlier ++ performed :: later ∧
      performed.thread = thread ∧ rows = window since limit (saves earlier) := by
  have done : SaveDone (.sync since limit) (.messages (.ok rows)) (config.scene.own thread) :=
    (keeping.tracked thread).2 _ _ returned
  rcases done.2 with ⟨performed, member, read⟩
  rcases List.mem_filter.mp member with ⟨inside, own⟩
  rcases List.append_of_mem inside with ⟨earlier, later, parts⟩
  refine ⟨earlier, performed, later, parts, of_decide_eq_true own, ?_⟩
  have answered := keeping.reads earlier performed later since _ rows parts read
  by_cases limited : 0 < limit
  · rw [answered, max_eq_left limited.le]
  · rw [answered, max_eq_right (not_lt.mp limited), window_unlimited limited]

end Invariant

/-! ## The main result -/

/-- The messages that were saved, in the order of their ids, are what every
`Save` has returned and every `Sync` reads a window of. -/
structure Windowed (libraries : Libraries) (config : StoreConfig) : Prop where
  ascending : ((saves config.scene.history).map Prod.fst).Pairwise (· < ·)
  returned : ∀ id message, (id, message) ∈ saves config.scene.history ↔ ∃ thread,
    config.threads thread = .running (.save message) (.done (.number (.ok id)))
  /-- Now nothing fails or gets in between. -/
  now : ∀ thread since limit, ∃ rows,
    (Store.sync since limit).run (perform libraries thread) [.plain] config.scene.world =
      some (.ok rows, config.scene.world) ∧
    IsWindow since limit (saves config.scene.history) rows
  /-- Among other calls, what was saved at one moment of the call is read. -/
  overlapping : ∀ thread since limit rows,
    config.threads thread = .running (.sync since limit) (.done (.messages (.ok rows))) →
    ∃ earlier performed later, config.scene.history = earlier ++ performed :: later ∧
      performed.thread = thread ∧ IsWindow since limit (saves earlier) rows

/-- `Sync` returns exactly the window that is asked for. -/
theorem sync_windowed {libraries : Libraries} {clock : Instant} {events : List StoreEvent}
    {config : StoreConfig} (run : AnyRun (next libraries) (start clock) events config) :
    Windowed libraries config where
  ascending := (keeping_of_run run).ascending
  returned := fun _ _ => (keeping_of_run run).saved_iff
  now := by
    intro thread since limit
    have keeping := keeping_of_run run
    refine ⟨_, sync_alone, ?_⟩
    rw [keeping.rows]
    exact isWindow_window keeping.ascending
  overlapping := by
    intro thread since limit rows returned
    have keeping := keeping_of_run run
    rcases keeping.read returned with ⟨earlier, performed, later, parts, own, rfl⟩
    refine ⟨earlier, performed, later, parts, own, isWindow_window ?_⟩
    have before : earlier.Sublist config.scene.history := by
      rw [parts]
      exact List.sublist_append_left _ _
    exact List.Pairwise.sublist ((before.filterMap savedBy).map Prod.fst) keeping.ascending

def savesAndSync : List StoreEvent :=
  let message := fun content => MessageRow.mk (utf8 content) [] (utf8 "ann") 0
  [.arrive 0 (.save (message "one")), .arrive 1 (.save (message "two")), .arrive 2 (.sync 0 1),
    .step 1 .plain, .step 2 .plain, .step 0 .plain]

theorem savesAndSync_windowed : ∃ config : StoreConfig,
    Windowed .transparent config ∧
      (saves config.scene.history).map (fun entry => (entry.1, entry.2.content)) =
        [(1, utf8 "two"), (2, utf8 "one")] := by
  have executed : (execute (next Libraries.transparent) (start 0) savesAndSync).map
      (fun config => (saves config.scene.history).map fun entry =>
        (entry.1, entry.2.content)) = some [(1, utf8 "two"), (2, utf8 "one")] := by
    decide +kernel
  rcases Option.map_eq_some_iff.mp executed with ⟨config, reached, outcome⟩
  exact ⟨config, sync_windowed (run_of_execute reached), outcome⟩

end Grunt.Storage
