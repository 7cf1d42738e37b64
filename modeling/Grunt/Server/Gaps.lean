import Grunt.Server.Answers
import Grunt.Server.Joining

/-! # Between the history and the stream

A message is saved before it is put on the channel, and `recv` asks for the
history when its subscriber has joined. So what the history leaves out had not
been dequeued by then.
-/

namespace Grunt.Server

open Foundation

/-! ## The invariant of a run -/

section Settled

variable {platform : Platform} {config after : ServerConfig}

/-- What is known of a server that has not been restarted. -/
structure Settled (platform : Platform) (config : ServerConfig) : Prop where
  filed : Filed platform config
  delivering : Delivering config
  joined : config.scene.world.hub.Joined
  numbered : ∀ id ∈ config.scene.world.savedIDs, 0 < id

theorem settled_start {tables : Storage.Tables} (clock : Instant)
    (numbered : ∀ entry ∈ tables.messages.rows, 0 < entry.1) :
    Settled platform (start tables clock) where
  filed := filed_start tables clock
  delivering := delivering_start tables clock
  joined := nofun
  numbered := by
    intro id saved
    rcases List.mem_map.mp saved with ⟨entry, member, rfl⟩
    exact numbered entry member

theorem goesOn_of_distinct {event : ServerEvent}
    (distinct : distinctClients config event = true) : event ≠ .restart := by
  intro same
  subst same
  cases distinct

theorem Settled.next (settled : Settled platform config) {event : ServerEvent}
    (distinct : distinctClients config event = true)
    (taken : next platform config event = some after) : Settled platform after where
  filed := settled.filed.next taken
  delivering := settled.delivering.next distinct taken
  joined := joined_of_next settled.joined (goesOn_of_distinct distinct) taken
  numbered := by
    intro id saved
    rcases (appends_of_next settled.filed.serving taken).fresh id saved with old | new
    · exact settled.numbered id old
    · exact Nat.zero_lt_of_lt new

theorem settled_of_run {tables : Storage.Tables} {clock : Instant} {events : List ServerEvent}
    (numbered : ∀ entry ∈ tables.messages.rows, 0 < entry.1)
    (run : Run (Server.next platform) (fun config event => distinctClients config event = true)
      (start tables clock) events config) : Settled platform config :=
  run.invariant (Settled platform) (fun _ _ _ settled distinct taken => settled.next distinct taken)
    (settled_start clock numbered)

theorem Settled.dequeuedSaved (settled : Settled platform config) {id : Nat}
    (dequeued : id ∈ messageIDs config.scene.world.hub.taken) :
    id ∈ config.scene.world.savedIDs := by
  apply settled.filed.sentSaved
  rw [sentIDs, settled.delivering.sound.accepted, messageIDs_append]
  exact List.mem_append_left _ dequeued

end Settled

/-! ## What a history covers -/

/-- Of the messages that are newer than the first of a history, it has those
that were known, and `Run` has dequeued the others later than `joined` items. -/
def Covers (joined : Nat) (known history : List Nat) (config : ServerConfig) : Prop :=
  ∀ id ∈ config.scene.world.savedIDs, Storage.Newer 10 history id →
    id ∈ history ∨
      (id ∉ known ∧ id ∉ messageIDs (config.scene.world.hub.taken.take joined))

section Covers

variable {platform : Platform} {config after : ServerConfig} {joined : Nat}
variable {known history : List Nat}

theorem Settled.covers (settled : Settled platform config)
    (answer : history = Storage.answered 0 10 config.scene.world.tables) :
    Covers joined known history config := by
  intro id saved newer
  rw [answer] at newer ⊢
  exact .inl (Storage.answered_of_newer saved (Int.natCast_pos.mpr (settled.numbered id saved))
    newer)

theorem Covers.next (covers : Covers joined known history config)
    (settled : Settled platform config) (old : ∀ id ∈ known, id ∈ config.scene.world.savedIDs)
    (before : joined ≤ config.scene.world.hub.taken.length) {event : ServerEvent}
    (goesOn : event ≠ .restart) (taken : Server.next platform config event = some after) :
    Covers joined known history after := by
  have fixed : after.scene.world.hub.taken.take joined =
      config.scene.world.hub.taken.take joined := by
    rcases (advances_of_next goesOn taken).taken with ⟨more, same⟩
    rw [← same, List.take_append_of_le_length before]
  intro id saved newer
  rw [fixed]
  rcases (appends_of_next settled.filed.serving taken).fresh id saved with earlier | new
  · exact covers id earlier newer
  · -- the message has just been saved, so nobody has known it or sent it
    have unsaved : id ∉ config.scene.world.savedIDs := fun member =>
      Nat.not_le_of_lt new (le_last_of_saved member)
    refine .inr ⟨fun member => unsaved (old id member), fun member => unsaved ?_⟩
    exact settled.dequeuedSaved (((List.take_prefix _ _).sublist.filterMap _).subset member)

end Covers

/-! ## Up to the request for the history -/

abbrev RunWith {Phase Move : Type} (platform : Platform)
    (party : Party ServerConfig ServerEvent Phase Move) :=
  Run (party.next (next platform)) fun state step => party.allows distinctClients state step = true

def HasJoined (config : ServerConfig) (stream : Nat) : Prop :=
  (∃ pump, config.scene.world.hub.pumps stream = some pump) ∨
    ∃ request response, config.threads stream = .running request (.done response)

section Receiver

variable {platform : Platform} {authentication : Authentication}
variable {config after : ServerConfig}

theorem HasJoined.next {stream : Nat} (joined : HasJoined config stream)
    {event : ServerEvent} (goesOn : event ≠ .restart)
    (taken : Server.next platform config event = some after) : HasJoined after stream := by
  rcases joined with ⟨pump, found⟩ | ⟨request, response, finished⟩
  · rcases (advances_of_next goesOn taken).pumps stream pump found with ⟨later, there, -⟩
    exact .inl ⟨later, there⟩
  · exact .inr ⟨request, response, Machine.finished_of_next finished taken⟩

theorem hasJoined_of_status {stream status : Nat}
    (returned : statusOf config stream = some status) : HasJoined config stream := by
  rw [statusOf] at returned
  split at returned
  case h_1 request _ _ _ finished => exact .inr ⟨request, _, finished⟩
  case h_2 =>
    split at returned
    case h_1 pump found => exact .inl ⟨pump, found⟩
    case h_2 => cases returned
  case h_3 => cases returned

/-- When `Connect` has returned, the subscriber has joined. -/
def Receiving.Connected (config : ServerConfig) : Receiving → Prop
  | .connected stream | .listening stream | .syncing stream _ | .synced stream _ _ =>
      HasJoined config stream
  | _ => True

theorem Receiving.Connected.next {phase : Receiving} (connected : phase.Connected config)
    {event : ServerEvent} (goesOn : event ≠ .restart)
    (taken : Server.next platform config event = some after) : phase.Connected after := by
  cases phase with
  | loggedIn | connecting | failed => trivial
  | connected | listening | syncing | synced => exact HasJoined.next connected goesOn taken

theorem connected_of_run {tables : Storage.Tables} {clock : Instant}
    {steps : List (Party.Step ServerEvent ReceiverMove)} {phase : Receiving}
    (run : RunWith platform (recv authentication) (start tables clock, .loggedIn) steps
      (config, phase)) : phase.Connected config := by
  refine run.invariant (fun state => state.2.Connected state.1) ?_ trivial
  intro state step after connected permitted taken
  rcases state with ⟨config, phase⟩
  rcases after with ⟨after, later⟩
  cases Party.turn_of_next taken with
  | alone happened => exact connected.next (goesOn_of_distinct permitted) happened
  | silent acted =>
      cases receives_of_act acted with
      | refused | fails => trivial
      | connected returned => exact hasJoined_of_status returned
      | listens | answered | loses => exact connected
  | acts acted happened =>
      cases receives_of_act acted with
      | connects => trivial
      | asks => exact HasJoined.next connected (fun same => by cases same) happened

/-! ## From there to the history -/

/-- The request for the history is under way, and every history that a query
has answered leaves no gap. -/
structure Asked (authentication : Authentication) (joined : Nat) (known : List Nat)
    (config : ServerConfig) (sync : Nat) : Prop where
  request : (config.threads sync).request = some authentication.syncRequest
  covers : ∀ rows, .ok rows ∈ answers 10 (config.scene.own sync) →
    Covers joined known (rows.map Prod.fst) config

/-- Where `recv` can be after it has asked. -/
def Receiving.Caught (authentication : Authentication) (stream joined : Nat) (known : List Nat)
    (config : ServerConfig) : Receiving → Prop
  | .listening opened => opened = stream
  | .syncing opened sync =>
      opened = stream ∧ Asked authentication joined known config sync
  | .synced opened sync history =>
      opened = stream ∧ Asked authentication joined known config sync ∧
        ∀ messages, history = some messages → ∃ response,
          config.threads sync = .running authentication.syncRequest (.done response) ∧
            historyOf response = some messages
  | _ => False

structure CatchesUp (platform : Platform) (authentication : Authentication)
    (stream joined : Nat) (known : List Nat) (config : ServerConfig) (phase : Receiving) :
    Prop where
  settled : Settled platform config
  pump : ∃ pump, config.scene.world.hub.pumps stream = some pump ∧ pump.joined = joined
  saved : ∀ id ∈ known, id ∈ config.scene.world.savedIDs
  caught : phase.Caught authentication stream joined known config

section CatchesUp

variable {stream joined : Nat} {known : List Nat} {phase later : Receiving}

theorem CatchesUp.before (catches : CatchesUp platform authentication stream joined known config
    phase) : joined ≤ config.scene.world.hub.taken.length := by
  rcases catches.pump with ⟨pump, found, rfl⟩
  exact catches.settled.joined stream pump found

theorem Asked.next {sync : Nat} (asked : Asked authentication joined known config sync)
    (catches : CatchesUp platform authentication stream joined known config phase)
    {event : ServerEvent} (goesOn : event ≠ .restart)
    (taken : Server.next platform config event = some after) :
    Asked authentication joined known after sync where
  request := Machine.request_of_next asked.request taken
  covers := by
    intro rows answer
    have covers : Covers joined known (rows.map Prod.fst) config := by
      rcases answered_of_next taken answer with old | new
      · exact asked.covers rows old
      · exact catches.settled.covers new
    exact covers.next catches.settled catches.saved catches.before goesOn taken

theorem CatchesUp.next (catches : CatchesUp platform authentication stream joined known config
    phase) {event : ServerEvent} (distinct : distinctClients config event = true)
    (taken : Server.next platform config event = some after)
    (caught : later.Caught authentication stream joined known after) :
    CatchesUp platform authentication stream joined known after later where
  settled := catches.settled.next distinct taken
  pump := by
    rcases catches.pump with ⟨pump, found, rfl⟩
    exact (advances_of_next (goesOn_of_distinct distinct) taken).pumps stream pump found
  saved := fun id member =>
    (appends_of_next catches.settled.filed.serving taken).savedIDs (catches.saved id member)
  caught := caught

theorem CatchesUp.alone (catches : CatchesUp platform authentication stream joined known config
    phase) {event : ServerEvent} (distinct : distinctClients config event = true)
    (taken : Server.next platform config event = some after) :
    CatchesUp platform authentication stream joined known after phase := by
  apply catches.next distinct taken
  have goesOn := goesOn_of_distinct distinct
  have caught := catches.caught
  cases phase with
  | loggedIn | connecting | connected | failed => exact caught
  | listening => exact caught
  | syncing connected sync => exact ⟨caught.1, caught.2.next catches goesOn taken⟩
  | synced connected sync history =>
      refine ⟨caught.1, caught.2.1.next catches goesOn taken, ?_⟩
      intro messages same
      rcases caught.2.2 messages same with ⟨response, finished, decoded⟩
      exact ⟨response, Machine.finished_of_next finished taken, decoded⟩

theorem CatchesUp.asks (catches : CatchesUp platform authentication stream joined known config
    (.listening stream)) {sync : Nat}
    (taken : Server.next platform config (.arrive sync authentication.syncRequest) = some after) :
    CatchesUp platform authentication stream joined known after (.syncing stream sync) := by
  apply catches.next rfl taken
  rcases Machine.next_arrive taken with ⟨idle, rfl⟩
  refine ⟨rfl, ?_, ?_⟩
  · simp only [Config.set, Function.update_self, Thread.request]
  · intro rows answer
    have nothing : config.scene.own sync = [] := (catches.settled.filed.saving sync).1 idle
    simp only [Config.set, nothing, answers, List.filterMap_nil, List.not_mem_nil] at answer

theorem CatchesUp.silent (catches : CatchesUp platform authentication stream joined known config
    phase) (receives : Receives authentication config phase later none) :
    CatchesUp platform authentication stream joined known config later := by
  refine ⟨catches.settled, catches.pump, catches.saved, ?_⟩
  have caught := catches.caught
  cases receives with
  | refused | fails | connected | listens => exact caught.elim
  | @answered _ _ request response finished =>
      refine ⟨caught.1, caught.2, ?_⟩
      intro messages decoded
      have arrived := caught.2.request
      rw [finished, Thread.request, Option.some.injEq] at arrived
      subst arrived
      exact ⟨response, finished, decoded⟩
  | loses => exact ⟨caught.1, caught.2, nofun⟩

theorem catchesUp_of_run {early : ServerConfig}
    {steps : List (Party.Step ServerEvent ReceiverMove)}
    (catches : CatchesUp platform authentication stream joined known early (.listening stream))
    (run : RunWith platform (recv authentication) (early, .listening stream) steps
      (config, phase)) :
    CatchesUp platform authentication stream joined known config phase := by
  refine run.invariant (fun state => CatchesUp platform authentication stream joined known
    state.1 state.2) ?_ catches
  intro state step after catches permitted taken
  rcases state with ⟨config, phase⟩
  rcases after with ⟨after, later⟩
  cases Party.turn_of_next taken with
  | alone happened => exact catches.alone permitted happened
  | silent acted => exact catches.silent (receives_of_act acted)
  | acts acted happened =>
      cases receives_of_act acted with
      | connects => exact catches.caught.elim
      | asks connected sync =>
          have same : connected = stream := catches.caught
          subst same
          exact catches.asks happened

end CatchesUp

/-! ## No gap -/

theorem free_of_run {stream : Nat} {request : Request} {response : Response}
    {events : List ServerEvent}
    (run : Run (next platform) (fun config event => distinctClients config event = true)
      config events after)
    (finished : config.threads stream = .running request (.done response))
    (free : config.scene.world.hub.pumps stream = none) :
    after.scene.world.hub.pumps stream = none := by
  refine (run.invariant (fun config => config.threads stream = .running request (.done response) ∧
    config.scene.world.hub.pumps stream = none) ?_ ⟨finished, free⟩).2
  intro config event after held distinct taken
  exact ⟨Machine.finished_of_next held.1 taken,
    free_of_next held.1 held.2 (goesOn_of_distinct distinct) taken⟩

theorem pump_of_hasJoined {stream : Nat} (joined : HasJoined config stream)
    {events : List ServerEvent}
    (run : Run (next platform) (fun config event => distinctClients config event = true)
      config events after)
    {pump : Pump} (found : after.scene.world.hub.pumps stream = some pump) :
    ∃ first, config.scene.world.hub.pumps stream = some first := by
  rcases joined with present | ⟨request, response, finished⟩
  · exact present
  · cases first : config.scene.world.hub.pumps stream with
    | some joining => exact ⟨joining, rfl⟩
    | none =>
        rw [free_of_run run finished first] at found
        cases found

theorem CatchesUp.covers {stream joined sync : Nat} {known : List Nat}
    {history : List Client.Broadcast}
    (catches : CatchesUp platform authentication stream joined known config
      (.synced stream sync (some history)))
    (sends : Machine.Tracked (fun thread request rest seen =>
      Sends thread (SentHistory platform request) rest seen) config)
    (unset : platform.bindQueryInt64 [] = .ok none)
    (ten : platform.bindQueryInt64 [utf8 "10"] = .ok (some 10)) :
    Covers joined known (history.map Client.Broadcast.id) config := by
  rcases catches.caught with ⟨-, asked, answered⟩
  rcases answered history rfl with ⟨response, finished, decoded⟩
  rcases historyOf_eq_some decoded with ⟨headers, messages, rfl, same⟩
  have sent := (sends sync).2 authentication.syncRequest _ finished
  rcases sent (route_syncRequest platform authentication) 10 (by decide)
    (syncParameters_syncRequest unset ten) headers messages rfl with ⟨rows, answer, rfl⟩
  have ids : history.map Client.Broadcast.id = rows.map Prod.fst := by
    rw [same, List.map_map]
    rfl
  rw [ids]
  exact asked.covers rows answer

/-- `recv` misses nothing. Take any run of the server in which `recv` connects,
starts to listen and then asks for the history, and in which it stays connected
and its buffer never fills up. Of the messages that are newer than the first of
the history, it has those that were saved when it asked; the others it has too,
or `Run` puts them into the buffer when it processes them. -/
theorem recv_leaves_no_gap {tables : Storage.Tables} {clock : Instant}
    (numbered : ∀ entry ∈ tables.messages.rows, 0 < entry.1)
    (unset : platform.bindQueryInt64 [] = .ok none)
    (ten : platform.bindQueryInt64 [utf8 "10"] = .ok (some 10))
    {before later : List (Party.Step ServerEvent ReceiverMove)} {early : ServerConfig}
    {stream sync : Nat} {history : List Client.Broadcast}
    (listening : RunWith platform (recv authentication) (start tables clock, .loggedIn) before
      (early, .listening stream))
    (synced : RunWith platform (recv authentication) (early, .listening stream) later
      (config, .synced stream sync (some history)))
    {pump : Pump} (found : config.scene.world.hub.pumps stream = some pump)
    (connected : pump.left = none) (roomy : pump.NeverFull) :
    ∀ id ∈ config.scene.world.savedIDs,
      Storage.Newer 10 (history.map Client.Broadcast.id) id →
      id ∈ history.map Client.Broadcast.id ∨
        (id ∉ early.scene.world.savedIDs ∧
          (id ∈ config.scene.world.hub.processedIDs (pump.subscriber.clientID, stream) →
            id ∈ pump.queuedIDs)) := by
  rcases Party.run_of_run listening with ⟨events, first⟩
  rcases Party.run_of_run synced with ⟨more, second⟩
  have settled := settled_of_run numbered first
  rcases pump_of_hasJoined (connected_of_run listening) second found with ⟨joining, there⟩
  have catches : CatchesUp platform authentication stream joining.joined
      early.scene.world.savedIDs early (.listening stream) :=
    ⟨settled, ⟨joining, there, rfl⟩, fun _ member => member, rfl⟩
  have caught := catchesUp_of_run catches synced
  have sends := Machine.tracked_of_run
    (Machine.obeys_tracking fun _ request => serve_sendsHistory request)
    (first.append second) Machine.tracked_start
  have sound := caught.settled.delivering.sound.pump stream pump found
  rcases caught.pump with ⟨same, present, joined⟩
  rw [found] at present
  cases present
  intro id saved newer
  rcases caught.covers sends unset ten id saved newer with read | ⟨unknown, fresh⟩
  · exact .inl read
  · refine .inr ⟨unknown, fun processed => ?_⟩
    rw [← joined] at fresh
    rw [sound.processedIDs connected, ← sound.deliversExactly.queuedIDs connected roomy]
      at processed
    exact (List.mem_append.mp processed).resolve_left fresh

end Receiver

/-- A platform that parses the one number that `recv` sends. -/
def Platform.parsingTen : Platform :=
  { Platform.transparent with
    bindQueryInt64 := fun values => .ok (if values = [utf8 "10"] then some 10 else none) }

section Example

def annsKey : Authentication := ⟨utf8 "gk_ann", []⟩

def annsClientID : ByteString := utf8 "0123456789abcdef"

variable {Move : Type}

def serves (threads : List Nat) : List (Party.Step ServerEvent Move) :=
  threads.map fun thread => .alone (.step thread .plain)

def hubDoes (events : List HubEvent) : List (Party.Step ServerEvent Move) :=
  events.map fun event => .alone (.environment (.hub event false))

/-- A thread serves a `SendMessage` from beginning to end. -/
def sendsHello (thread : Nat) : List (Party.Step ServerEvent Move) :=
  let message := Request.plain (utf8 "POST") (utf8 "/api/chat/message")
    (.ofForm [(utf8 "content", utf8 "hello")])
  .alone (.arrive thread (message.bearing "gk_ann")) ::
    serves [thread, thread, thread, thread, thread]

/-- `Run` sends an item to these subscribers. -/
def fansOut (entries : List Entry) : List (Party.Step ServerEvent Move) :=
  hubDoes ([.dequeue, .render] ++ entries.map HubEvent.offer ++ [.finish])

def subscribes (thread : Nat) : List (Party.Step ServerEvent Move) :=
  [serves [thread, thread], [.alone (.step thread ⟨false, annsClientID⟩)], serves [thread],
    hubDoes [.announce]].flatten

/-- `recv` connects and listens. -/
def annsStart : List (Party.Step ServerEvent ReceiverMove) :=
  [[.move (.connect 0)], subscribes 0, fansOut [(annsClientID, 0)], hubDoes [.write 0 none],
    [.move .respond, .move .startListening]].flatten

/-- One message is sent before `recv` asks for the history and one after it. -/
def annsHistory : List (Party.Step ServerEvent ReceiverMove) :=
  [sendsHello 1, [.move (.syncHistory 2)], serves [2, 2, 2], [.move .respond], sendsHello 3,
    fansOut [(annsClientID, 0)], fansOut [(annsClientID, 0)]].flatten

/-- The first message as it comes back in the history. -/
def annsMessage : Client.Broadcast := ⟨[], 1, utf8 "hello", [], utf8 "ann", 0⟩

theorem annsHistory_executed :
    ((executeWhere ((recv annsKey).next (next .parsingTen)) ((recv annsKey).allows distinctClients)
      (start annsTables 0, .loggedIn) annsStart).bind fun early =>
        (executeWhere ((recv annsKey).next (next .parsingTen))
          ((recv annsKey).allows distinctClients) early annsHistory).bind fun final =>
            (final.1.scene.world.hub.pumps 0).map fun pump =>
              (early.2, final.2, final.1.scene.world.savedIDs,
                pump.left.isNone && pump.offers.all Offer.kept,
                final.1.scene.world.hub.processedIDs (pump.subscriber.clientID, 0))) =
      some (.listening 0, .synced 0 2 (some [annsMessage]), [1, 2], true, [1, 2]) := by
  decide +kernel

/-- The second message is in the buffer. -/
theorem annsHistory_queued : ∃ (early config : ServerConfig) (pump : Pump),
    RunWith .parsingTen (recv annsKey) (start annsTables 0, .loggedIn) annsStart
      (early, .listening 0) ∧
    RunWith .parsingTen (recv annsKey) (early, .listening 0) annsHistory
      (config, .synced 0 2 (some [annsMessage])) ∧
    config.scene.world.hub.pumps 0 = some pump ∧ 2 ∈ pump.queuedIDs := by
  rcases Option.bind_eq_some_iff.mp annsHistory_executed with ⟨⟨early, phase⟩, began, rest⟩
  rcases Option.bind_eq_some_iff.mp rest with ⟨⟨config, later⟩, ended, rest⟩
  rcases Option.map_eq_some_iff.mp rest with ⟨pump, found, outcome⟩
  simp only [Prod.mk.injEq, Bool.and_eq_true, Option.isNone_iff_eq_none] at outcome
  rcases outcome with ⟨rfl, rfl, saved, ⟨connected, kept⟩, processed⟩
  have listening : RunWith .parsingTen (recv annsKey) (start annsTables 0, .loggedIn) annsStart
      (early, .listening 0) := run_of_executeWhere began
  have synced : RunWith .parsingTen (recv annsKey) (early, .listening 0) annsHistory
      (config, .synced 0 2 (some [annsMessage])) := run_of_executeWhere ended
  have numbered : ∀ entry ∈ annsTables.messages.rows, 0 < entry.1 := by decide
  refine ⟨early, config, pump, listening, synced, found, ?_⟩
  rcases recv_leaves_no_gap numbered rfl rfl listening synced found connected
    (List.all_eq_true.mp kept) 2 (by rw [saved]; decide) (.inl (by decide)) with read | ⟨-, queued⟩
  · exact absurd read (by decide)
  · exact queued (by rw [processed]; decide)

end Example

end Grunt.Server
