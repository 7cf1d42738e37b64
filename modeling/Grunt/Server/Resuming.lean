import Grunt.Server.Posting
import Grunt.Server.Syncing
import Grunt.Server.Windows

/-! # Resuming after the live stream

A client that resumes with the highest id it has received asks `Sync` for what
lies above it. It misses nothing where the stream has left nothing out: every
saved message goes on the channel, in the order of the ids, and there is room
in a buffer whenever `Run` offers it a message.
-/

namespace Grunt.Server

open Foundation

/-! ## From the table to the channel -/

def announcedIDs (config : ServerConfig) : List Nat :=
  messageIDs (broadcasts config.scene.history)

def lastSaved (performed : List (Performed Op Op.Result)) :
    Option (Nat × Storage.MessageRow) :=
  performed.getLast?.bind savedEntry

def SendsOn (op : Op) (seen : List (Performed Op Op.Result)) : Prop :=
  ∀ entry, lastSaved seen = some entry → ∃ item, op = .broadcast item ∧
    item.messageID = some entry.1

def EndsUnsent (platform : Platform) (seen : List (Performed Op Op.Result)) : Prop :=
  ∀ entry, lastSaved seen = some entry → (rowMessage entry).marshal platform.location = none

section Handlers

variable {platform : Platform} {thread : Nat} {seen : List (Performed Op Op.Result)}

theorem lastSaved_snoc (performed : Performed Op Op.Result) :
    lastSaved (seen ++ [performed]) = savedEntry performed := by
  rw [lastSaved, List.getLast?_concat, Option.bind_some]

theorem endsUnsent_of_none (unsaved : lastSaved seen = none) : EndsUnsent platform seen := by
  intro entry saved
  rw [unsaved] at saved
  cases saved

theorem sendsOn_of_none {op : Op} (unsaved : lastSaved seen = none) : SendsOn op seen := by
  intro entry saved
  rw [unsaved] at saved
  cases saved

theorem sendsOn_of_only {α : Type} {program : ServerProgram α}
    (only : program.Only fun op => op.postsNothing = true) (unsaved : lastSaved seen = none) :
    Machine.Obeys thread SendsOn (fun _ seen => lastSaved seen = none) program seen := by
  refine Machine.obeys_of_only only (fun op _ _ => sendsOn_of_none) ?_ unsaved
  intro op result seen nothing _
  rw [lastSaved_snoc]
  exact savedEntry_of_postsNothing nothing

theorem save_sendsOn {row : Storage.MessageRow} (unsaved : lastSaved seen = none) :
    Machine.Obeys thread SendsOn
      (fun result seen => lastSaved seen = result.toOption.map fun id => (id, row))
      (store (Storage.Store.save row)) seen := by
  refine And.intro (sendsOn_of_none unsaved) fun result => ?_
  cases result with
  | error error => exact lastSaved_snoc _
  | ok outcome => exact lastSaved_snoc _

theorem saveAndBroadcast_sendsOn {userID content : ByteString} (unsaved : lastSaved seen = none) :
    Machine.Obeys thread SendsOn (fun _ => EndsUnsent platform)
      (saveAndBroadcast platform userID content) seen := by
  have clock : now.Only fun op : Op => op.postsNothing = true := ⟨rfl, fun _ => trivial⟩
  refine (sendsOn_of_only clock unsaved).bind fun timestamp seen unsaved => ?_
  refine (save_sendsOn unsaved).bind fun result seen saved => ?_
  cases result with
  | error error => exact endsUnsent_of_none saved
  | ok id =>
      dsimp only
      split
      · next unmarshalled =>
        intro entry same
        cases saved.symm.trans same
        exact unmarshalled
      · next data marshalled =>
        refine ⟨fun entry same => ?_, fun done => endsUnsent_of_none (lastSaved_snoc _)⟩
        cases saved.symm.trans same
        exact ⟨_, rfl, rfl⟩

theorem sendMessage_sendsOn {request : Request} {identity : Identity}
    (unsaved : lastSaved seen = none) :
    Machine.Obeys thread SendsOn (fun _ => EndsUnsent platform)
      (sendMessage platform request identity) seen := by
  unfold sendMessage
  split
  · exact endsUnsent_of_none unsaved
  · split
    · exact endsUnsent_of_none unsaved
    · dsimp only
      split
      · exact endsUnsent_of_none unsaved
      · split
        · exact endsUnsent_of_none unsaved
        · split
          · exact endsUnsent_of_none unsaved
          · exact saveAndBroadcast_sendsOn unsaved

theorem serve_sendsOn (thread : Nat) (request : Request) :
    Machine.Obeys thread SendsOn (fun _ => EndsUnsent platform) (serve platform request) [] := by
  have quiet : ∀ op : Op, op.isQuiet = true → op.postsNothing = true :=
    fun _ => postsNothing_of_isQuiet
  refine (sendsOn_of_only (authenticate_only quiet) rfl).bind fun identity seen unsaved => ?_
  by_cases sending : route platform request = .sendMessage
  · rw [sending]
    exact sendMessage_sendsOn unsaved
  · refine (sendsOn_of_only (dispatch_only quiet _ fun op permitted => ?_) unsaved).mono
      fun _ _ => endsUnsent_of_none
    exact postsNothing_of_permits sending permitted

end Handlers

/-! ## A run without gaps -/

def marshals (platform : Platform) (config : ServerConfig) : ServerEvent → Bool
  | .step thread _ =>
      match config.threads thread with
      | .running _ (.perform (.store (.exec false (.insertMessage row))) _) =>
          (Client.marshalTime platform.location row.timestamp).isSome
      | _ => true
  | _ => true

def endsSent (config : ServerConfig) : ServerEvent → Bool
  | .restart => (config.scene.history.map Performed.thread).all fun thread =>
      (pending config thread).isNone
  | _ => true

def hasRoom (config : ServerConfig) : ServerEvent → Bool
  | .environment (.hub event _) => config.scene.world.hub.roomy event
  | _ => true

/-- Nothing comes between a message and its place in the streams. -/
def unhindered (platform : Platform) (config : ServerConfig) (event : ServerEvent) : Bool :=
  inTurn config event && marshals platform config event && endsSent config event &&
    hasRoom config event

/-- Every saved message was there from the start, has been put on a channel, or
is about to be. -/
def Accounted (tables : Storage.Tables) (config : ServerConfig) : Prop :=
  ∀ id ∈ config.scene.world.savedIDs, id ∈ tables.messages.rows.map Prod.fst ∨
    id ∈ announcedIDs config ∨ ∃ thread, pending config thread = some id

section Step

variable {platform : Platform} {tables : Storage.Tables} {config after : ServerConfig}

abbrev SendingOn (platform : Platform) (config : ServerConfig) : Prop :=
  Machine.Tracked (fun thread _ rest seen =>
    Machine.Obeys thread SendsOn (fun _ => EndsUnsent platform) rest seen) config

theorem pending_of_saved (sendingOn : SendingOn platform after) {thread : Nat}
    {request : Request} {rest : ServerProgram Response}
    (running : after.threads thread = .running request rest)
    {entry : Nat × Storage.MessageRow} (saved : lastSaved (after.scene.own thread) = some entry)
    (marshalled : (Client.marshalTime platform.location entry.2.timestamp).isSome = true) :
    pending after thread = some entry.1 := by
  have obeys := (sendingOn thread).2 request rest running
  cases rest with
  | done response =>
      have unsent : (rowMessage entry).marshal platform.location = none := obeys entry saved
      rw [Client.Broadcast.marshal, Option.map_eq_none_iff] at unsent
      rw [show (rowMessage entry).timestamp = entry.2.timestamp from rfl] at unsent
      rw [unsent] at marshalled
      cases marshalled
  | perform op next =>
      obtain ⟨item, rfl, sends⟩ := obeys.1 entry saved
      rw [pending, running]
      exact sends

theorem announcedIDs_of_observe {thread : Nat} {op : Op} {result : op.Result}
    {choice : Storage.Choice} {scene : ServerScene}
    {threads : Nat → Thread Op Op.Result Request Response}
    (observed : (machine platform).observe thread op choice config.scene = some (result, scene)) :
    announcedIDs ⟨scene, threads⟩ = announcedIDs config ++
      match op with
      | .broadcast item => messageIDs [item]
      | _ => [] := by
  rw [announcedIDs, (Machine.observe_eq_some.mp observed).2, broadcasts_snoc, messageIDs_append]
  cases op <;> rfl

theorem Accounted.step (accounted : Accounted tables config) (serving : Serving platform config)
    (sendingOn : SendingOn platform config) {thread : Nat} {choice : Storage.Choice}
    (marshalled : marshals platform config (.step thread choice) = true)
    (taken : next platform config (.step thread choice) = some after) :
    Accounted tables after := by
  have later := sendingOn.next (Machine.obeys_tracking serve_sendsOn) taken
  obtain ⟨request, op, rest, result, scene, running, observed, rfl⟩ := Machine.next_step taken
  have performed := (Machine.observe_eq_some.mp observed).1
  have announced : announcedIDs (Config.set { config with scene := scene } thread
      (.running request (rest result))) = _ := announcedIDs_of_observe observed
  have rows := messageRows_of_perform serving.staged performed
  intro id saved
  rw [World.savedIDs] at saved
  rw [show (Config.set { config with scene := scene } thread
    (.running request (rest result))).scene.world.tables.messages.rows =
      scene.world.messageRows from rfl, rows, List.map_append, List.mem_append] at saved
  rcases saved with old | new
  · rcases accounted id old with initial | sent | ⟨other, waiting⟩
    · exact .inl initial
    · exact .inr (.inl (announced ▸ List.mem_append_left _ sent))
    · by_cases same : other = thread
      · subst other
        simp only [pending, running] at waiting
        split at waiting
        · next item next same =>
          cases same
          refine .inr (.inl (announced ▸ List.mem_append_right _ ?_))
          simp [messageIDs, waiting]
        · cases waiting
      · exact .inr (.inr ⟨other, (pending_set_other same).trans waiting⟩)
  · obtain ⟨entry, inside, rfl⟩ := List.mem_map.mp new
    have saves : savedEntry ⟨thread, op, result⟩ = some entry := Option.mem_toList.mp inside
    have inserts := insert_of_savedEntry saves
    have own := Machine.own_of_observe observed
    refine .inr (.inr ⟨thread, pending_of_saved later (Function.update_self _ _ _) ?_ ?_⟩)
    · rw [show (Config.set { config with scene := scene } thread
        (.running request (rest result))).scene.own thread = scene.own thread from rfl, own,
        lastSaved_snoc]
      exact saves
    · dsimp only at inserts
      subst inserts
      simpa only [marshals, running] using marshalled

theorem Accounted.next (accounted : Accounted tables config) (filed : Filed platform config)
    (sendingOn : SendingOn platform config) {event : ServerEvent}
    (permitted : unhindered platform config event = true)
    (taken : next platform config event = some after) : Accounted tables after := by
  simp only [unhindered, Bool.and_eq_true] at permitted
  obtain ⟨⟨⟨-, marshalled⟩, sent⟩, -⟩ := permitted
  cases event with
  | arrive thread request =>
      obtain ⟨idle, rfl⟩ := Machine.next_arrive taken
      intro id saved
      refine (accounted id saved).imp_right (Or.imp_right ?_)
      rintro ⟨other, waiting⟩
      have different : other ≠ thread := by
        rintro rfl
        rw [pending, idle] at waiting
        cases waiting
      exact ⟨other, (pending_set_other different).trans waiting⟩
  | step thread choice => exact accounted.step filed.serving sendingOn marshalled taken
  | environment happening =>
      obtain ⟨world, happened, rfl⟩ := Machine.next_environment taken
      intro id saved
      have rows : world.messageRows = config.scene.world.messageRows :=
        messageRows_of_environment happened
      have same : world.savedIDs = config.scene.world.savedIDs := congrArg (List.map Prod.fst) rows
      have before : id ∈ config.scene.world.savedIDs := by
        rw [← same]
        exact saved
      exact accounted id before
  | restart =>
      have restarted := Machine.next_restart taken
      subst restarted
      intro id saved
      rcases accounted id saved with initial | announced | ⟨thread, waiting⟩
      · exact .inl initial
      · exact .inr (.inl announced)
      · have none := List.all_eq_true.mp sent thread
          (mem_history_of_pending filed.saving waiting)
        rw [waiting] at none
        cases none

theorem orderly_of_next (orderly : config.scene.world.hub.Orderly) {event : ServerEvent}
    (taken : next platform config event = some after) : after.scene.world.hub.Orderly := by
  by_cases restarts : event = .restart
  · rw [restarts] at taken
    rw [Machine.next_restart taken]
    exact Hub.orderly_start
  · rcases act_of_next restarts taken with same | ⟨action, acted, -⟩
    · rw [same]
      exact orderly
    · exact orderly.act acted

theorem gapless_of_next (gapless : config.scene.world.hub.Gapless)
    (orderly : config.scene.world.hub.Orderly) {event : ServerEvent}
    (room : hasRoom config event = true) (taken : next platform config event = some after) :
    after.scene.world.hub.Gapless := by
  cases event with
  | arrive thread request =>
      obtain ⟨-, rfl⟩ := Machine.next_arrive taken
      exact gapless
  | step thread choice =>
      obtain ⟨request, op, rest, result, scene, -, observed, rfl⟩ := Machine.next_step taken
      have performed : perform platform thread op choice config.scene.world =
          some (result, scene.world) := (Machine.observe_eq_some.mp observed).1
      simp only [Config.set]
      by_cases leaves : op.leavesHub = true
      · rw [perform_hub leaves performed]
        exact gapless
      · cases op with
        | broadcast item => exact gapless.send (perform_broadcast performed)
        | register subscriber => exact gapless.register (perform_register performed)
        | store | nanoid | random | putToken | checkToken | writePump | renderContent
          | readFile => exact absurd rfl leaves
  | environment happening =>
      obtain ⟨world, happened, rfl⟩ := Machine.next_environment taken
      rcases environment_hub happened with same | ⟨event, fault, rfl, changed⟩
      · simp only [same]
        exact gapless
      · exact gapless.happen orderly room changed
  | restart =>
      rw [Machine.next_restart taken]
      exact Hub.gapless_start

end Step

/-! ## The live stream and the history -/

/-- A message that comes before the stream of a subscriber: `Run` had dequeued
it when it registered the subscriber, or it belongs to an earlier process. -/
def Earlier (tables : Storage.Tables) (config : ServerConfig) (pump : Pump) (id : Nat) : Prop :=
  id ∈ config.scene.world.hub.earlierIDs pump ∨
    id ∉ sentIDs config ∧
      (id ∈ tables.messages.rows.map Prod.fst ∨ id ∈ announcedIDs config)

/-- The live stream agrees with the history: a subscriber is sent messages in
ascending order, as `Sync` returns them, and if it asks at any later time for
what lies above a message it has received, it is given whatever it has not
received since it joined. -/
structure InOrder (platform : Platform) (tables : Storage.Tables) (config : ServerConfig) :
    Prop where
  live : ∀ thread pump, config.scene.world.hub.pumps thread = some pump →
    pump.received.Pairwise (· < ·)
  listed : ∀ thread pump, config.scene.world.hub.pumps thread = some pump →
    ∀ client : SyncClient platform, client.last = none → ∀ since page,
      client.Receives config.scene.world since page →
      (pump.received.filter fun id => since < id).Sublist (page.map Client.Broadcast.id)
  resumes : ∀ thread pump, config.scene.world.hub.pumps thread = some pump →
    ∀ highest ∈ pump.received, ∀ events final, AnyRun (next platform) config events final →
    ∀ client : SyncClient platform, client.last = none → ∀ page,
      client.Receives final.scene.world highest page →
      ∀ message ∈ final.scene.world.messages, message ∈ page ∨
        message.id ∈ pump.received ∨ Earlier tables config pump message.id

section Resuming

variable {platform : Platform} {tables : Storage.Tables} {config final : ServerConfig}

theorem map_id_messages (world : World) :
    world.messages.map Client.Broadcast.id = world.savedIDs := by
  rw [World.messages, List.map_map]
  rfl

theorem map_id_above (world : World) (since : Int) :
    (above Client.Broadcast.id since world.messages).map Client.Broadcast.id =
      world.savedIDs.filter fun id : Nat => since < (id : Int) := by
  rw [← map_id_messages, List.filter_map, above]
  rfl

theorem receives_iff_of_unlimited {client : SyncClient platform} {world : World} {since : Nat}
    {page : List Client.Broadcast} (unlimited : client.last = none) :
    client.Receives world since page ↔
      page = above Client.Broadcast.id since world.messages := by
  rw [receives_iff, unlimited]
  rw [show newest ((none : Option Int).getD 0) _ = _ from
    newest_eq_self_iff.mpr (.inl (Int.le_refl 0))]

theorem fresh_of_run (serving : Serving platform config) {events : List ServerEvent}
    (run : AnyRun (next platform) config events final) :
    ∀ id ∈ final.scene.world.savedIDs,
      id ∈ config.scene.world.savedIDs ∨ config.scene.world.tables.messages.last < id := by
  refine (run.invariant (fun later => Serving platform later ∧
    config.scene.world.tables.messages.last ≤ later.scene.world.tables.messages.last ∧
    ∀ id ∈ later.scene.world.savedIDs, id ∈ config.scene.world.savedIDs ∨
      config.scene.world.tables.messages.last < id) ?_ ⟨serving, Nat.le_refl _, ?_⟩).2.2
  · intro state event after held _ taken
    obtain ⟨serves, last, fresh⟩ := held
    have appends := appends_of_next serves taken
    refine ⟨serves.next taken, Nat.le_trans last appends.last, fun id saved => ?_⟩
    rcases appends.fresh id saved with old | new
    · exact fresh id old
    · exact .inr (Nat.lt_of_le_of_lt last new)
  · exact fun id => .inl

/-- What the invariants of a run say together. -/
structure Following (platform : Platform) (tables : Storage.Tables) (config : ServerConfig) :
    Prop where
  ascending : Ascending platform config
  sendingOn : SendingOn platform config
  accounted : Accounted tables config
  orderly : config.scene.world.hub.Orderly
  gapless : config.scene.world.hub.Gapless

theorem following_start (tables : Storage.Tables) (clock : Instant) :
    Following platform tables (start tables clock) where
  ascending := ascending_start tables clock
  sendingOn := Machine.tracked_start
  accounted := fun _ => .inl
  orderly := Hub.orderly_start
  gapless := Hub.gapless_start

theorem Following.next (following : Following platform tables config) {event : ServerEvent}
    (permitted : unhindered platform config event = true)
    (taken : Server.next platform config event = some final) :
    Following platform tables final := by
  have parts := permitted
  simp only [unhindered, Bool.and_eq_true] at parts
  obtain ⟨⟨⟨turn, -⟩, -⟩, room⟩ := parts
  exact {
    ascending := following.ascending.next turn taken
    sendingOn := following.sendingOn.next (Machine.obeys_tracking serve_sendsOn) taken
    accounted := following.accounted.next following.ascending.filed following.sendingOn
      permitted taken
    orderly := orderly_of_next following.orderly taken
    gapless := gapless_of_next following.gapless following.orderly room taken }

theorem Following.covers (following : Following platform tables config) {thread : Nat}
    {pump : Pump} (found : config.scene.world.hub.pumps thread = some pump) {highest id : Nat}
    (received : highest ∈ pump.received) (saved : id ∈ config.scene.world.savedIDs)
    (below : id ≤ highest) : id ∈ pump.received ∨ Earlier tables config pump id := by
  have highestSent : highest ∈ sentIDs config :=
    (sent_of_found following.orderly found).subset (List.mem_append_left _ received)
  by_cases sent : id ∈ sentIDs config
  · -- the ids on the channel are those before the stream, those received and higher ones
    obtain ⟨lost, cut, broken⟩ := following.orderly.piped thread pump found
    obtain ⟨more, window⟩ := following.gapless.window thread pump found
    have queued : pump.queuedIDs = pump.received ++ messageIDs ((lost ++ pump.send).map Frame.item) := by
      rw [Pump.queuedIDs, broken.queued, List.append_assoc, List.map_append, messageIDs_append]
      rfl
    have parts : sentIDs config = config.scene.world.hub.earlierIDs pump ++ (pump.received ++
        (messageIDs ((lost ++ pump.send).map Frame.item) ++ (more ++
          messageIDs config.scene.world.hub.broadcast))) := by
      rw [sentIDs, following.gapless.accepted, messageIDs_append, Hub.earlierIDs]
      rw [← List.take_append_drop pump.joined config.scene.world.hub.taken, messageIDs_append,
        ← window, queued, List.take_append_drop]
      simp only [List.append_assoc]
    have ordered := following.ascending.sent
    rw [parts] at sent ordered
    rcases List.mem_append.mp sent with earlier | sent
    · exact .inr (.inl earlier)
    · rcases List.mem_append.mp sent with here | later
      · exact .inl here
      · have after := (List.pairwise_append.mp (List.pairwise_append.mp ordered).2.1).2.2
          highest received id later
        exact absurd below (Nat.not_le_of_lt after)
  · rcases following.accounted id saved with initial | announced | ⟨other, waiting⟩
    · exact .inr (.inr ⟨sent, .inl initial⟩)
    · exact .inr (.inr ⟨sent, .inr announced⟩)
    · have after := following.ascending.below other id waiting highest highestSent
      exact absurd below (Nat.not_le_of_lt after)

theorem Following.inOrder (following : Following platform tables config) :
    InOrder platform tables config where
  live := fun thread pump found => following.ascending.received following.orderly found
  listed := by
    intro thread pump found client unlimited since page received
    have ascending := following.ascending.received following.orderly found
    have saved : pump.received ⊆ config.scene.world.savedIDs := fun id member =>
      following.ascending.filed.sentSaved id
        ((sent_of_found following.orderly found).subset (List.mem_append_left _ member))
    rw [(receives_iff_of_unlimited unlimited).mp received, map_id_above]
    simp only [Int.ofNat_lt]
    apply List.Sublist.filter
    exact List.sublist_of_subperm_of_pairwise (List.subperm_of_subset ascending.nodup saved)
      ascending config.scene.world.tables.messages.ascending
  resumes := by
    intro thread pump found highest received events final run client unlimited page answered
      message listed
    rw [(receives_iff_of_unlimited unlimited).mp answered]
    by_cases higher : highest < message.id
    · exact .inl (mem_above.mpr ⟨listed, Int.ofNat_lt.mpr higher⟩)
    · have below := Nat.le_of_not_lt higher
      have sent := (sent_of_found following.orderly found).subset
        (List.mem_append_left _ received)
      have saved : message.id ∈ final.scene.world.savedIDs := by
        rw [← map_id_messages]
        exact List.mem_map_of_mem listed
      rcases fresh_of_run following.ascending.filed.serving run message.id saved with old | new
      · exact .inr (following.covers found received old below)
      · have last := following.ascending.filed.sentLast sent
        exact absurd (Nat.lt_of_le_of_lt last new) higher

end Resuming

/-! ## The main result -/

end Grunt.Server
