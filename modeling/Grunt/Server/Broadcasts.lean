import Grunt.Server.Footprints
import Grunt.Server.Steps

/-! # From SendMessage to the subscribers

What the hub delivers, in every run of the server. A run is of one hub, so the
process is not restarted in it, and the client ids that are drawn differ.
-/

namespace Grunt.Server

open Foundation

namespace ServerScene

/-- The client ids of all subscribers that were ever registered. -/
def clientIDs (scene : ServerScene) : List ByteString :=
  scene.history.filterMap fun performed =>
    match performed with
    | ⟨_, .register subscriber, _⟩ => some subscriber.clientID
    | _ => none

end ServerScene

/-- The items a list of operations puts on the broadcast channel. -/
def broadcasts (performed : List (Performed Op Op.Result)) : List Item :=
  performed.filterMap fun performed =>
    match performed with
    | ⟨_, .broadcast item, _⟩ => some item
    | _ => none

namespace Hub

/-- What a request put on the broadcast channel. -/
def sentBy (hub : Hub) (thread : Nat) : List Item :=
  hub.accepted.filterMap fun entry => if entry.1 = some thread then some entry.2 else none

end Hub

/-- Every subscriber has a client id of its own, and the process goes on. -/
def distinctClients (config : ServerConfig) : ServerEvent → Bool
  | .step thread _ =>
      match config.threads thread with
      | .running _ (.perform (.register subscriber) _) =>
          !(ServerScene.clientIDs config.scene).contains subscriber.clientID
      | _ => true
  | .restart => false
  | _ => true

namespace Hub

variable {hub after : Hub}

theorem Continues.sentBy (continues : hub.Continues after) (thread : Nat) :
    after.sentBy thread = hub.sentBy thread := by
  unfold Hub.sentBy
  rcases continues.accepted with same | ⟨event, more⟩
  · rw [same]
  · simp [more]

theorem sentBy_of_send {sender : Nat} {item : Item}
    (sent : hub.send sender item = some after) (thread : Nat) :
    after.sentBy thread = hub.sentBy thread ++ if thread = sender then [item] else [] := by
  unfold Hub.sentBy
  rw [accepted_of_send sent, List.filterMap_append]
  congr 1
  by_cases same : thread = sender
  · simp [same]
  · simp [same, Ne.symm same]

end Hub

/-! ## The invariant of a run -/

structure Delivering (config : ServerConfig) : Prop where
  sound : config.scene.world.hub.Sound
  clients : ∀ thread pump, config.scene.world.hub.pumps thread = some pump →
    pump.subscriber.clientID ∈ ServerScene.clientIDs config.scene
  senders : ∀ thread, config.scene.world.hub.sentBy thread =
    broadcasts (config.scene.own thread)

theorem delivering_start (tables : Storage.Tables) (clock : Instant) :
    Delivering (start tables clock) where
  sound := Hub.sound_start
  clients := by
    intro thread pump found
    cases found
  senders := fun _ => rfl

section Step

variable {platform : Platform} {config after : ServerConfig}

theorem broadcasts_snoc (performed : List (Performed Op Op.Result)) (thread : Nat) (op : Op)
    (result : op.Result) :
    broadcasts (performed ++ [⟨thread, op, result⟩]) = broadcasts performed ++
      match op with
      | .broadcast item => [item]
      | _ => [] := by
  unfold broadcasts
  rw [List.filterMap_append]
  cases op <;> rfl

theorem clientIDs_of_observe {thread : Nat} {op : Op} {choice : Storage.Choice}
    {scene later : ServerScene} {result : op.Result}
    (observed : (machine platform).observe thread op choice scene = some (result, later)) :
    ServerScene.clientIDs later = ServerScene.clientIDs scene ++
      match op with
      | .register subscriber => [subscriber.clientID]
      | _ => [] := by
  unfold ServerScene.clientIDs
  rw [(Machine.observe_eq_some.mp observed).2, List.filterMap_append]
  cases op <;> rfl

theorem Delivering.step (delivering : Delivering config) {thread : Nat}
    {choice : Storage.Choice} (distinct : distinctClients config (.step thread choice) = true)
    (taken : next platform config (.step thread choice) = some after) : Delivering after := by
  obtain ⟨request, op, rest, result, scene, running, observed, rfl⟩ := Machine.next_step taken
  have performed : perform platform thread op choice config.scene.world =
      some (result, scene.world) := (Machine.observe_eq_some.mp observed).1
  have clientIDs := clientIDs_of_observe observed
  have senders : ∀ other, scene.own other = config.scene.own other ++
      if other = thread then [⟨thread, op, result⟩] else [] := by
    intro other
    by_cases same : other = thread
    · rw [if_pos same, same]
      exact Machine.own_of_observe observed
    · rw [if_neg same, List.append_nil]
      exact Machine.own_of_observe_other same observed
  by_cases leaves : op.leavesHub = true
  · have hub := perform_hub leaves performed
    refine ⟨?_, ?_, ?_⟩
    · simp only [Config.set, hub]
      exact delivering.sound
    · intro other pump found
      simp only [Config.set, hub] at found ⊢
      rw [clientIDs]
      exact List.mem_append_left _ (delivering.clients other pump found)
    · intro other
      simp only [Config.set, hub, senders, delivering.senders]
      split
      · rw [broadcasts_snoc]
        cases op <;> simp_all [Op.leavesHub]
      · rw [List.append_nil]
  · cases op with
    | broadcast item =>
        have sent := perform_broadcast performed
        refine ⟨delivering.sound.send sent, ?_, ?_⟩
        · intro other pump found
          simp only [Config.set, Hub.pumps_of_send sent] at found ⊢
          rw [clientIDs, List.append_nil]
          exact delivering.clients other pump found
        · intro other
          simp only [Config.set, Hub.sentBy_of_send sent, senders, delivering.senders]
          split
          · rw [broadcasts_snoc]
          · simp
    | register subscriber =>
        have registered := perform_register performed
        have effect := Hub.effect_of_register registered
        have fresh : subscriber.clientID ∉ ServerScene.clientIDs config.scene := by
          simpa [distinctClients, running] using distinct
        refine ⟨delivering.sound.register (fun other pump found same => fresh ?_) registered,
          ?_, ?_⟩
        · rw [← same]
          exact delivering.clients other pump found
        · intro other pump found
          simp only [Config.set, effect.2] at found ⊢
          rw [clientIDs]
          by_cases same : other = thread
          · subst other
            rw [Function.update_self, Option.some.injEq] at found
            rw [← found]
            exact List.mem_append_right _ (List.mem_singleton_self _)
          · rw [Function.update_of_ne same] at found
            exact List.mem_append_left _ (delivering.clients other pump found)
        · intro other
          have sentBy : scene.world.hub.sentBy other = config.scene.world.hub.sentBy other := by
            simp only [Hub.sentBy, effect.1]
          simp only [Config.set, sentBy, senders, delivering.senders]
          split
          · rw [broadcasts_snoc, List.append_nil]
          · rw [List.append_nil]
    | store | nanoid | random | putToken | checkToken | writePump | renderContent | readFile =>
        exact absurd rfl leaves

theorem Delivering.environment (delivering : Delivering config) {happening : Happening}
    (taken : next platform config (.environment happening) = some after) :
    Delivering after := by
  obtain ⟨world, happened, rfl⟩ := Machine.next_environment taken
  rcases environment_hub happened with same | ⟨event, fault, -, changed⟩
  · refine ⟨?_, ?_, ?_⟩
    · simp only [same]
      exact delivering.sound
    · simp only [same]
      exact delivering.clients
    · simp only [same]
      exact delivering.senders
  · have continues := Hub.continues_of_happen changed
    refine ⟨delivering.sound.happen changed, ?_, ?_⟩
    · intro thread pump found
      obtain ⟨earlier, earlierFound, moves⟩ := continues.pumps thread pump found
      rw [moves.subscriber]
      exact delivering.clients thread earlier earlierFound
    · intro thread
      exact (continues.sentBy thread).trans (delivering.senders thread)

theorem Delivering.next (delivering : Delivering config) {event : ServerEvent}
    (distinct : distinctClients config event = true)
    (taken : next platform config event = some after) : Delivering after := by
  cases event with
  | arrive thread request =>
      obtain ⟨-, rfl⟩ := Machine.next_arrive taken
      exact ⟨delivering.sound, delivering.clients, delivering.senders⟩
  | step thread choice => exact delivering.step distinct taken
  | environment happening => exact delivering.environment taken
  | restart => cases distinct

theorem delivering_of_run {tables : Storage.Tables} {clock : Instant}
    {events : List ServerEvent}
    (run : Run (Server.next platform) (fun config event => distinctClients config event = true)
      (start tables clock) events config) : Delivering config :=
  run.invariant Delivering (fun _ _ _ held distinct taken => held.next distinct taken)
    (delivering_start tables clock)

end Step

/-! ## SendMessage -/

/-- A `SendMessage` that reports success has put its message on the channel,
once. -/
def SentOnce (platform : Platform) (request : Request) (response : Response)
    (performed : List (Performed Op Op.Result)) : Prop :=
  route platform request = .sendMessage →
    ∀ headers content, response = .sent 200 headers content →
      ∃ (message : Client.Broadcast) (data : ByteString),
        message.marshal platform.location = some data ∧
        content = .json (.sent message.id) ∧
        broadcasts performed = [⟨data, .message message.decoded⟩]

section SendMessage

variable {platform : Platform} {thread : Nat} {seen : List (Performed Op Op.Result)}

def Op.isSilent : Op → Bool
  | .broadcast _ => false
  | _ => true

theorem Op.isSilent_of_isQuiet {op : Op} (quiet : op.isQuiet = true) :
    op.isSilent = true := by
  cases op <;> simp_all [isQuiet, isSilent]

/-- What a request has put on the channel when it returns. -/
abbrev Sends {α : Type} (thread : Nat) (Post : α → List (Performed Op Op.Result) → Prop) :
    ServerProgram α → List (Performed Op Op.Result) → Prop :=
  Machine.Obeys thread (fun _ _ => True) Post

theorem sends_of_silent {α : Type} {program : ServerProgram α} {items : List Item}
    (only : program.Only fun op => op.isSilent = true) (holds : broadcasts seen = items) :
    Sends thread (fun _ performed => broadcasts performed = items) program seen := by
  refine Machine.obeys_of_only only (fun _ _ _ _ => trivial)
    (fun op result performed silent same => ?_) holds
  rw [broadcasts_snoc, same]
  cases op <;> simp_all [Op.isSilent]

theorem sends_of_all {α : Type} {Post : α → List (Performed Op Op.Result) → Prop}
    (holds : ∀ value seen, Post value seen) (program : ServerProgram α) :
    Sends thread Post program seen := by
  have obeys : Sends thread (fun _ _ => True) program seen :=
    Machine.obeys_of_only program.only_true (fun _ _ _ _ => trivial)
      (fun _ _ _ _ _ => trivial) trivial
  exact obeys.mono fun value seen _ => holds value seen

theorem saveAndBroadcast_sends {request : Request} {userID content : ByteString}
    (nothing : broadcasts seen = []) :
    Sends thread (SentOnce platform request)
      (saveAndBroadcast platform userID content) seen := by
  have clock : now.Only fun op : Op => op.isSilent = true := ⟨rfl, fun _ => trivial⟩
  refine (sends_of_silent clock nothing).bind fun timestamp seen nothing => ?_
  have save : (store (Storage.Store.save ⟨content, [], userID, timestamp⟩)).Only
      fun op : Op => op.isSilent = true := store_only (Storage.Store.execInsert_only rfl)
  refine (sends_of_silent save nothing).bind fun result seen nothing => ?_
  cases result with
  | error error =>
      intro _ headers content same
      cases same
  | ok id =>
      dsimp only
      split
      · intro _ headers content same
        cases same
      · next data marshalled =>
        refine ⟨trivial, fun _ _ headers content same => ?_⟩
        cases same
        refine ⟨_, data, marshalled, rfl, ?_⟩
        rw [broadcasts_snoc, nothing]
        rfl

theorem sendMessage_sends {request : Request} {identity : Identity}
    (nothing : broadcasts seen = []) :
    Sends thread (SentOnce platform request)
      (sendMessage platform request identity) seen := by
  unfold sendMessage
  split
  · intro _ headers content same
    cases same
  · split
    · intro _ headers content same
      cases same
    · dsimp only
      split
      · intro _ headers content same
        cases same
      · split
        · intro _ headers content same
          cases same
        · split
          · intro _ headers content same
            cases same
          · exact saveAndBroadcast_sends nothing

theorem serve_sends (request : Request) :
    Sends thread (SentOnce platform request) (serve platform request) [] := by
  have quiet : ∀ op : Op, op.isQuiet = true → op.isSilent = true :=
    fun _ => Op.isSilent_of_isQuiet
  refine (sends_of_silent (authenticate_only quiet) rfl).bind fun identity seen nothing => ?_
  by_cases sending : route platform request = .sendMessage
  · rw [sending]
    exact sendMessage_sends nothing
  · exact sends_of_all (fun _ _ other => absurd other sending) _

end SendMessage

/-! ## The main result -/

/-- The items a pump was offered are those dequeued between its registration
and its unregistration, in this order; those queued are the ones its buffer
had room for; those written are a prefix of these. -/
structure DeliversExactly (hub : Hub) (thread : Nat) (pump : Pump) : Prop where
  window : pump.offers.map (fun offer => offer.frame.item) =
    (hub.taken.take (pump.lastOffered
      (hub.processed (pump.subscriber.clientID, thread)))).drop pump.joined
  ascending : (pump.queued.map Frame.number).Pairwise (· < ·)
  data : pump.subscriber.renderHTML = false →
    ∀ frame ∈ pump.queued, frame.bytes = frame.item.data
  dropped : ∀ offer ∈ pump.offers,
    offer.frame ∉ pump.queued → channelCapacity ≤ offer.held
  written : pump.written <+: pump.queued
  stream : ∃ cut, pump.stream = pump.written.flatMap (Pump.text pump.subscriber) ++ cut ∧
    (pump.phase = .pumping → cut = [])

theorem Pump.Sound.deliversExactly {hub : Hub} {thread : Nat} {pump : Pump}
    (sound : pump.Sound hub.taken (hub.processed (pump.subscriber.clientID, thread))) :
    DeliversExactly hub thread pump where
  window := by
    apply List.ext_getElem?
    intro index
    have numbers := congrArg (fun numbers => numbers[index]?) sound.numbers
    have window := sound.window
    simp only [List.getElem?_map] at numbers
    rw [List.getElem?_drop, List.getElem?_take, List.getElem?_map]
    by_cases inside : index < pump.offers.length
    · rw [List.getElem?_eq_getElem inside, List.getElem?_range' inside] at numbers
      simp only [Option.map_some, Option.some.injEq, Nat.one_mul] at numbers
      rw [List.getElem?_eq_getElem inside, if_pos (by omega), ← numbers,
        sound.items _ (List.getElem_mem inside)]
      rfl
    · rw [List.getElem?_eq_none (by omega), if_neg (by omega)]
      rfl
  ascending := by
    have sublist : (pump.queued.map Frame.number).Sublist
        (pump.offers.map fun offer => offer.frame.number) := by
      unfold Pump.queued
      rw [List.map_map]
      exact List.Sublist.map _ List.filter_sublist
    rw [sound.numbers] at sublist
    exact (List.pairwise_lt_range' ).sublist sublist
  data := fun json frame member => by
    obtain ⟨offer, inside, rfl⟩ := List.mem_map.mp member
    exact sound.data json offer (List.mem_filter.mp inside).1
  dropped := fun offer member absent => by
    by_contra room
    refine absent (List.mem_map.mpr ⟨offer, List.mem_filter.mpr ⟨member, ?_⟩, rfl⟩)
    exact decide_eq_true (by omega)
  written := by
    obtain ⟨lost, cut, broken⟩ := sound.pipeline
    exact ⟨lost ++ pump.send, by rw [broken.queued, List.append_assoc]⟩
  stream := by
    obtain ⟨lost, cut, broken⟩ := sound.pipeline
    refine ⟨cut, broken.stream, fun pumping => ?_⟩
    rcases broken.failed with ⟨-, whole⟩ | ⟨stopped, -⟩
    · exact whole
    · exact absurd pumping stopped

theorem sublist_pair_of_ascending {frames : List Frame}
    (ascending : (frames.map Frame.number).Pairwise (· < ·)) {one two : Frame}
    (oneMem : one ∈ frames) (twoMem : two ∈ frames) (before : one.number < two.number) :
    [one, two].Sublist frames := by
  induction frames with
  | nil => cases oneMem
  | cons frame frames induction =>
      rw [List.map_cons, List.pairwise_cons] at ascending
      rcases List.mem_cons.mp oneMem with rfl | oneLater
      · rcases List.mem_cons.mp twoMem with rfl | twoLater
        · omega
        · exact (List.singleton_sublist.mpr twoLater).cons_cons one
      · rcases List.mem_cons.mp twoMem with rfl | twoLater
        · have := ascending.1 one.number (List.mem_map_of_mem oneLater)
          omega
        · exact (induction ascending.2 oneLater twoLater).cons frame

/-- Two pumps never have two items in different orders. -/
def OrdersAgree (first second : Pump) : Prop :=
  ∀ one ∈ first.queued, ∀ two ∈ first.queued, [one, two].Sublist first.queued →
    ∀ one' ∈ second.queued, ∀ two' ∈ second.queued, one'.number = one.number →
      two'.number = two.number → [one', two'].Sublist second.queued

theorem DeliversExactly.ordersAgree {hub : Hub} {one two : Nat} {first second : Pump}
    (firstExact : DeliversExactly hub one first)
    (secondExact : DeliversExactly hub two second) : OrdersAgree first second := by
  intro a aMem b bMem inOrder a' aMem' b' bMem' sameA sameB
  have ordered := (List.Pairwise.sublist (inOrder.map Frame.number) firstExact.ascending)
  have before : a.number < b.number := by simpa using ordered
  exact sublist_pair_of_ascending secondExact.ascending aMem' bMem' (by omega)

/-- Delivery is exact up to overflow. -/
theorem delivery_exact {platform : Platform} {tables : Storage.Tables} {clock : Instant}
    {events : List ServerEvent} {config : ServerConfig}
    (run : Run (next platform) (fun config event => distinctClients config event = true)
      (start tables clock) events config) :
    (∀ thread request headers content,
      config.threads thread = .running request (.done (.sent 200 headers content)) →
      route platform request = .sendMessage →
      ∃ (message : Client.Broadcast) (data : ByteString),
        message.marshal platform.location = some data ∧
        content = .json (.sent message.id) ∧
        config.scene.world.hub.sentBy thread = [⟨data, .message message.decoded⟩]) ∧
    config.scene.world.hub.accepted.map Prod.snd =
      config.scene.world.hub.taken ++ config.scene.world.hub.broadcast ∧
    (∀ thread pump, config.scene.world.hub.pumps thread = some pump →
      DeliversExactly config.scene.world.hub thread pump) ∧
    (∀ one two first second, config.scene.world.hub.pumps one = some first →
      config.scene.world.hub.pumps two = some second → OrdersAgree first second) := by
  have delivering := delivering_of_run run
  have exact' : ∀ thread pump, config.scene.world.hub.pumps thread = some pump →
      DeliversExactly config.scene.world.hub thread pump := fun thread pump found =>
    (delivering.sound.pump thread pump found).deliversExactly
  refine ⟨?_, delivering.sound.accepted, exact', fun one two first second foundOne foundTwo =>
    (exact' one first foundOne).ordersAgree (exact' two second foundTwo)⟩
  intro thread request headers content finished sending
  have tracked := Machine.tracked_of_run
    (Machine.obeys_tracking fun _ request => serve_sends request) run Machine.tracked_start
  have sentOnce := (tracked thread).2 request _ finished sending headers content rfl
  rw [delivering.senders]
  exact sentOnce

/-- Ann opens a stream and sends a message, and the pump writes what it is
given. -/
def sendAndStream : List ServerEvent :=
  let step := fun thread => Event.step thread Storage.Choice.plain
  let hub := fun event => Event.environment (Happening.hub event false)
  let clientID := utf8 "0123456789abcdef"
  let stream := Request.plain (utf8 "GET") (utf8 "/api/chat/stream") .empty
  let message := Request.plain (utf8 "POST") (utf8 "/api/chat/message")
    (.ofForm [(utf8 "content", utf8 "hello")])
  let delivery := [hub .dequeue, hub .render, hub (.offer (clientID, 0)), hub .finish]
  [.arrive 0 (stream.bearing "gk_ann"), step 0, step 0, .step 0 ⟨false, clientID⟩, step 0,
    hub .announce, .arrive 1 (message.bearing "gk_ann"),
    step 1, step 1, step 1, step 1, step 1] ++
  delivery ++ delivery ++ [hub (.write 0 none), hub (.write 0 none)]

def annsStream : ByteString :=
  utf8 "event: event\ndata: \x7b\"type\":\"event\",\"event\":\"join\"," ++
  utf8 "\"client_id\":\"0123456789abcdef\",\"user\":\"ann\"\x7d\n\n" ++
  utf8 "event: message\ndata: \x7b\"type\":\"message\",\"id\":1,\"content\":\"hello\"," ++
  utf8 "\"user\":\"ann\",\"timestamp\":\"1970-01-01T00:00:00Z\"\x7d\n\n"

theorem sendAndStream_exact : ∃ (config : ServerConfig) (pump : Pump),
    config.scene.world.hub.pumps 0 = some pump ∧
    DeliversExactly config.scene.world.hub 0 pump ∧ pump.stream = annsStream := by
  have executed : (executeWhere (next .transparent) distinctClients (start annsTables 0)
      sendAndStream).map (fun config => (config.scene.world.hub.pumps 0).map Pump.stream) =
      some (some annsStream) := by decide +kernel
  obtain ⟨config, reached, streamed⟩ := Option.map_eq_some_iff.mp executed
  obtain ⟨pump, found, stream⟩ := Option.map_eq_some_iff.mp streamed
  obtain ⟨-, -, exact', -⟩ := delivery_exact (run_of_executeWhere reached)
  exact ⟨config, pump, found, exact' 0 pump found, stream⟩

end Grunt.Server
