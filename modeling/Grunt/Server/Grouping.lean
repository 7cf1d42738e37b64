import Grunt.Server.PageRows
import Grunt.Server.Steady

/-! # What Run remembers of the messages

`Run` leaves out the author, the time and the date of a message when the last
message that it rendered had the same. It renders a message only if some
subscriber wants HTML, so the last message it rendered need not be the one
before.
-/

namespace Grunt.Server

open Foundation

def Item.message? (item : Item) : Option Client.Broadcast :=
  match item.payload with
  | .message message => some message
  | .event _ => none

def messagesOf (items : List Item) : List Client.Broadcast := items.filterMap Item.message?

/-- `lastMsgUser`, `lastMsgTime` and `lastMsgDate` -/
structure Memory where
  user : ByteString
  time : Instant
  date : Instant
deriving DecidableEq, Repr

namespace Memory

def start : Memory := ⟨[], Calendar.zeroTime, Calendar.zeroTime⟩

def of (location : Location) (message : Client.Broadcast) : Memory :=
  ⟨message.userID, message.timestamp, currentDate location message.timestamp⟩

/-- The flags that `Run` computes. -/
def flags (memory : Memory) (now : Instant) (message : Client.Broadcast) : Flags :=
  let grouped := memory.user = message.userID
  let soon := now - memory.time ≤ Calendar.minute
  ⟨!grouped, !grouped, !(grouped && soon)⟩

/-- The date divider that `Run` puts above a message, if any. -/
def dateHeader (memory : Memory) (location : Location) (now : Instant)
    (message : Client.Broadcast) : ByteString :=
  if memory.date = currentDate location message.timestamp then []
  else formatDateHeader location now message.timestamp

end Memory

/-- A message that `Run` has come to: in what surroundings, whether anybody
wanted it rendered, and what was remembered of the messages before. -/
structure Processed where
  message : Client.Broadcast
  surroundings : Surroundings
  rendered : Bool
  memory : Memory

namespace Processed

def flags (entry : Processed) : Flags :=
  entry.memory.flags entry.surroundings.now entry.message

def dateHeader (entry : Processed) : ByteString :=
  entry.memory.dateHeader entry.surroundings.location entry.surroundings.now entry.message

def leaves (entry : Processed) : Memory :=
  if entry.rendered then .of entry.surroundings.location entry.message else entry.memory

end Processed

def lastRendered (log : List Processed) : Option Processed :=
  log.reverse.find? Processed.rendered

def remembered (log : List Processed) : Memory :=
  match lastRendered log with
  | some last => .of last.surroundings.location last.message
  | none => .start

theorem lastRendered_snoc (log : List Processed) (entry : Processed) :
    lastRendered (log ++ [entry]) =
      if entry.rendered then some entry else lastRendered log := by
  unfold lastRendered
  rw [List.reverse_append, List.reverse_singleton, List.singleton_append, List.find?_cons]
  cases entry.rendered <;> rfl

theorem lastRendered_eq_some_iff {log : List Processed} {last : Processed} :
    lastRendered log = some last ↔ last.rendered = true ∧ ∃ earlier unseen,
      log = earlier ++ last :: unseen ∧ ∀ entry ∈ unseen, entry.rendered = false := by
  rw [lastRendered, List.find?_eq_some_iff_append]
  constructor
  · intro found
    rcases found with ⟨rendered, unseen, earlier, reversed, unrendered⟩
    refine ⟨rendered, earlier.reverse, unseen.reverse, ?_, ?_⟩
    · rw [← List.reverse_reverse log, reversed]
      simp
    · intro entry member
      simpa using unrendered entry (List.mem_reverse.mp member)
  · intro found
    rcases found with ⟨rendered, earlier, unseen, rfl, unrendered⟩
    refine ⟨rendered, unseen.reverse, earlier.reverse, by simp, ?_⟩
    intro entry member
    simpa using unrendered entry (List.mem_reverse.mp member)

theorem remembered_snoc (log : List Processed) (entry : Processed)
    (same : entry.memory = remembered log) :
    remembered (log ++ [entry]) = entry.leaves := by
  unfold remembered
  rw [lastRendered_snoc, Processed.leaves]
  cases entry.rendered with
  | true => rfl
  | false => exact same.symm

namespace Hub

variable {hub after : Hub}

def memory (hub : Hub) : Memory := ⟨hub.lastMsgUser, hub.lastMsgTime, hub.lastMsgDate⟩

theorem renderMessage_eq (surroundings : Surroundings) (item : Item)
    (message : Client.Broadcast) (hub : Hub) :
    hub.renderMessage surroundings item message =
      match renderMessageHTMLTemplate surroundings.location surroundings.emotes
          (surroundings.hasAvatar message.userID) message
          (hub.memory.flags surroundings.now message).showAvatar
          (hub.memory.flags surroundings.now message).showUsername
          (hub.memory.flags surroundings.now message).showTimestamp
          (hub.memory.dateHeader surroundings.location surroundings.now message) with
      | some fragment =>
          { hub with
            lastMsgUser := message.userID
            lastMsgTime := message.timestamp
            lastMsgDate := currentDate surroundings.location message.timestamp }.fanOut item
              fragment (message.content ::
                if hub.lastMsgUser = message.userID then [] else [message.userID])
      | none => { hub with phase := .panicked } := rfl

/-- The message that `Run` comes to by an action. -/
def processes (hub : Hub) : HubAction → List Processed
  | .happen surroundings .render =>
      match hub.phase with
      | .rendering item =>
          item.message?.toList.map fun message =>
            ⟨message, surroundings, hub.hasHTMLSubs, hub.memory⟩
      | _ => []
  | _ => []

/-- The messages that `Run` has come to, in order. -/
def log (actions : List HubAction) : List Processed := trace act processes start actions

/-- The messages that were ever put on the channel. -/
def posted (hub : Hub) : List Client.Broadcast := messagesOf (hub.accepted.map Prod.snd)

/-- The messages that `Run` has still to come to. -/
def unprocessed (hub : Hub) : List Client.Broadcast := messagesOf hub.unrendered

/-- What an action does to the memory and to the messages ahead. -/
inductive Logs (hub : Hub) : List Processed → Hub → Prop
  | passes {after : Hub} (more : List Client.Broadcast) : after.posted = hub.posted ++ more →
      after.unprocessed = hub.unprocessed ++ more → after.memory = hub.memory →
      Logs hub [] after
  | processes {after : Hub} (entry : Processed) : entry.memory = hub.memory →
      entry.message.userID ≠ [] → after.posted = hub.posted →
      hub.unprocessed = entry.message :: after.unprocessed →
      after.memory = entry.leaves → Logs hub [entry] after

theorem logs_of_same (accepted : after.accepted = hub.accepted)
    (unrendered : after.unrendered = hub.unrendered) (memory : after.memory = hub.memory) :
    hub.Logs [] after := by
  refine .passes [] ?_ ?_ memory
  · rw [posted, posted, accepted, List.append_nil]
  · rw [unprocessed, unprocessed, unrendered, List.append_nil]

theorem logs_of_accept {sender : Option Nat} {item : Item}
    (accepted : after.accepted = hub.accepted ++ [(sender, item)])
    (unrendered : after.unrendered = hub.unrendered ++ [item])
    (memory : after.memory = hub.memory) : hub.Logs [] after := by
  refine .passes (messagesOf [item]) ?_ ?_ memory
  · rw [posted, posted, accepted, List.map_append, messagesOf, List.filterMap_append]
    rfl
  · rw [unprocessed, unprocessed, unrendered, messagesOf, List.filterMap_append]
    rfl

theorem logs_of_render (steady : hub.Steady) {surroundings : Surroundings}
    (rendered : hub.render surroundings = some after) :
    hub.Logs (hub.processes (.happen surroundings .render)) after := by
  unfold Hub.render at rendered
  split at rendered
  case h_2 => cases rendered
  case h_1 item phase =>
    have ahead : hub.unrendered = item :: hub.broadcast := by
      unfold unrendered
      rw [phase]
    have seen : hub.processes (.happen surroundings .render) =
        item.message?.toList.map fun message =>
          ⟨message, surroundings, hub.hasHTMLSubs, hub.memory⟩ := by
      unfold Hub.processes
      rw [phase]
    rw [seen]
    have unrenderedOf : ∀ (memory : Hub) (fragment : ByteString) (shown : List ByteString),
        (memory.fanOut item fragment shown).unrendered = memory.broadcast :=
      fun _ _ _ => rfl
    cases payload : item.payload with
    | event event =>
        have nothing : item.message? = none := by
          unfold Item.message?
          rw [payload]
        have skipped : hub.unprocessed = messagesOf hub.broadcast := by
          rw [unprocessed, ahead, messagesOf, List.filterMap_cons, nothing]
          rfl
        have fannedOut : after.accepted = hub.accepted ∧ after.unrendered = hub.broadcast ∧
            after.memory = hub.memory := by
          rw [payload] at rendered
          split at rendered <;> cases rendered <;> exact ⟨rfl, rfl, rfl⟩
        rw [nothing]
        refine .passes [] ?_ ?_ fannedOut.2.2
        · rw [posted, posted, fannedOut.1, List.append_nil]
        · rw [skipped, unprocessed, fannedOut.2.1, List.append_nil]
    | message message =>
        have something : item.message? = some message := by
          unfold Item.message?
          rw [payload]
        have named : message.userID ≠ [] :=
          steady.renders item (by rw [ahead]; exact List.mem_cons_self) message payload
        have first : hub.unprocessed = message :: messagesOf hub.broadcast := by
          rw [unprocessed, ahead, messagesOf, List.filterMap_cons, something]
          rfl
        rw [something]
        have fannedOut : after.accepted = hub.accepted ∧ after.unrendered = hub.broadcast ∧
            after.memory = Processed.leaves
              ⟨message, surroundings, hub.hasHTMLSubs, hub.memory⟩ := by
          unfold Processed.leaves
          rw [payload] at rendered
          split at rendered
          case isFalse unwanted =>
            cases rendered
            exact ⟨rfl, rfl, (if_neg unwanted).symm⟩
          case isTrue wanted =>
            cases rendered
            rw [renderMessage_eq]
            split
            case h_1 => exact ⟨rfl, rfl, (if_pos wanted).symm⟩
            case h_2 panics => exact absurd (renderMessageHTMLTemplate_eq_none.mp panics) named
        refine .processes _ rfl named ?_ ?_ fannedOut.2.2
        · rw [posted, posted, fannedOut.1]
        · rw [first, unprocessed, fannedOut.2.1]

theorem logs_of_happen (steady : hub.Steady) {surroundings : Surroundings} {event : HubEvent}
    (happened : hub.happen surroundings event = some after) :
    hub.Logs (hub.processes (.happen surroundings event)) after := by
  by_cases own : event.isPumps = true
  · have nothing : hub.processes (.happen surroundings event) = [] := by
      cases event <;> first | rfl | cases own
    rcases pump_of_happen own happened with ⟨thread, old, new, -, -, -, rfl⟩
    rw [nothing]
    exact logs_of_same rfl rfl rfl
  cases event with
  | render => exact logs_of_render steady happened
  | announce =>
      simp only [Hub.happen, Hub.announce] at happened
      split at happened
      case h_2 => cases happened
      case h_1 event phase =>
        have ahead := unrendered_of_phase phase rfl
        split at happened <;> cases happened
        · exact logs_of_accept rfl (by rw [ahead]; rfl) rfl
        · exact logs_of_same rfl ahead.symm rfl
  | unregister thread =>
      simp only [Hub.happen, Hub.unregister] at happened
      split at happened
      case h_2 => cases happened
      case h_1 pump phase found =>
        have ahead := unrendered_of_phase phase rfl
        split at happened <;> cases happened
        refine logs_of_same rfl ?_ rfl
        rw [ahead]
        exact unrendered_of_idle idle_leaving
  | dequeue =>
      simp only [Hub.happen, Hub.dequeue] at happened
      split at happened <;> cases happened
      next item rest phase broadcast =>
        refine logs_of_same rfl ?_ rfl
        rw [unrendered_of_phase phase rfl, broadcast]
        rfl
  | offer entry =>
      simp only [Hub.happen, Hub.offer] at happened
      split at happened
      case h_2 => cases happened
      case h_1 item fragment shown todo pump phase found =>
        have ahead : hub.unrendered = hub.broadcast := by
          unfold unrendered
          rw [phase]
        split at happened
        case isFalse => cases happened
        case isTrue =>
          split at happened <;> cases happened <;> exact logs_of_same rfl ahead.symm rfl
  | finish =>
      simp only [Hub.happen, Hub.finish] at happened
      split at happened <;> cases happened
      next phase =>
        refine logs_of_same rfl ?_ rfl
        unfold unrendered
        rw [phase]
  | stop =>
      cases happened
      exact logs_of_same rfl rfl rfl
  | exit =>
      simp only [Hub.happen, Hub.exit] at happened
      split at happened
      case h_2 => cases happened
      case h_1 phase =>
        have ahead := unrendered_of_phase phase rfl
        split at happened <;> cases happened
        exact logs_of_same rfl ahead.symm rfl
  | write | cancel | close => exact absurd rfl own

theorem logs_of_act (steady : hub.Steady) {action : HubAction}
    (taken : hub.act action = some after) : hub.Logs (hub.processes action) after := by
  cases action with
  | send thread item =>
      have sent : hub.send thread item = some after := taken
      have accepted := accepted_of_send sent
      unfold Hub.send at sent
      split at sent <;> cases sent
      refine logs_of_accept accepted ?_ rfl
      unfold unrendered accept
      dsimp only
      split <;> rfl
  | register thread subscriber =>
      have registered : hub.register thread subscriber = some after := taken
      have accepted := (effect_of_register registered).1
      unfold Hub.register at registered
      split at registered <;> cases registered
      next phase _ =>
        exact logs_of_same accepted
          (unrendered_of_phase phase rfl).symm rfl
  | happen surroundings event => exact logs_of_happen steady taken

/-! ## The invariant of a run -/

/-- What the log of a run says of its hub. -/
structure Records (hub : Hub) (log : List Processed) : Prop where
  steady : hub.Steady
  order : hub.posted = log.map Processed.message ++ hub.unprocessed
  memory : hub.memory = remembered log
  each : ∀ before entry rest, log = before ++ entry :: rest →
    entry.memory = remembered before ∧ entry.message.userID ≠ []

theorem records_start : start.Records [] where
  steady := steady_start
  order := rfl
  memory := rfl
  each := by simp

theorem Records.step {log more : List Processed} (records : hub.Records log)
    (steady : after.Steady) (logs : hub.Logs more after) : after.Records (log ++ more) := by
  cases logs with
  | passes more posted unprocessed memory =>
      refine ⟨steady, ?_, ?_, ?_⟩
      · rw [posted, unprocessed, records.order, List.append_nil, List.append_assoc]
      · rw [memory, records.memory, List.append_nil]
      · rw [List.append_nil]
        exact records.each
  | processes entry before named posted first memory =>
      have same : entry.memory = remembered log := before.trans records.memory
      refine ⟨steady, ?_, ?_, ?_⟩
      · rw [posted, records.order, first, List.map_append, List.append_assoc]
        rfl
      · rw [memory, remembered_snoc log entry same]
      · intro earlier other rest split
        rcases List.eq_nil_or_concat rest with rfl | ⟨rest, last, rfl⟩
        · rcases List.append_inj' split rfl with ⟨rfl, heads⟩
          cases heads
          exact ⟨same, named⟩
        · have parts : log ++ [entry] = (earlier ++ other :: rest) ++ [last] := by
            rw [split, List.append_assoc, List.concat_eq_append]
            rfl
          exact records.each earlier other rest (List.append_inj' parts rfl).1

theorem records_of_run {location : Location} {actions : List HubAction}
    (run : Run act (fun _ action => action.Sends (Item.Posted location)) start actions hub) :
    hub.Records (log actions) := by
  refine run.traced processes (fun hub _ log => hub.Records log) ?_ records_start
  intro hub _ log action after records sends taken
  exact records.step (records.steady.step sends taken) (logs_of_act records.steady taken)

/-! ## Whose row it is -/

/-- The message before is by the same author. -/
def FollowsOwn (before : List Processed) (entry : Processed) : Prop :=
  ∃ previous, before.getLast? = some previous ∧
    previous.message.userID = entry.message.userID

/-- After the last message that was rendered, which is by the user, there were
others that nobody wanted rendered, the last of them by somebody else. -/
def Overtaken (log : List Processed) (user : ByteString) : Prop :=
  ∃ earlier last unseen other, log = earlier ++ last :: unseen ++ [other] ∧
    last.rendered = true ∧ last.message.userID = user ∧
    (∀ entry ∈ unseen ++ [other], entry.rendered = false) ∧ other.message.userID ≠ user

theorem showUsername_eq_false {entry : Processed} :
    entry.flags.showUsername = false ↔ entry.memory.user = entry.message.userID := by
  simp [Processed.flags, Memory.flags]

theorem user_remembered {log : List Processed} {user : ByteString} (named : user ≠ []) :
    (remembered log).user = user ↔
      ∃ last, lastRendered log = some last ∧ last.message.userID = user := by
  unfold remembered
  cases lastRendered log with
  | none => simp [Memory.start, named.symm]
  | some last => simp [Memory.of]

/-- A row without an author stands below one by its author, unless others came
in between while nobody wanted messages rendered. -/
theorem followsOwn_iff {before : List Processed} {entry : Processed}
    (remembers : entry.memory = remembered before) (named : entry.message.userID ≠ []) :
    (entry.flags.showUsername = false → FollowsOwn before entry) ↔
      ¬ Overtaken before entry.message.userID := by
  rw [showUsername_eq_false, remembers, user_remembered named]
  constructor
  · intro follows overtaken
    rcases overtaken with ⟨earlier, last, unseen, other, rfl, rendered, author, hidden, foreign⟩
    have found : lastRendered (earlier ++ last :: unseen ++ [other]) = some last :=
      lastRendered_eq_some_iff.mpr
        ⟨rendered, earlier, unseen ++ [other], by simp, hidden⟩
    rcases follows ⟨last, found, author⟩ with ⟨previous, least, same⟩
    rw [List.getLast?_concat] at least
    cases least
    exact foreign same
  · intro apart remembered
    rcases remembered with ⟨last, found, author⟩
    rcases lastRendered_eq_some_iff.mp found with ⟨rendered, earlier, unseen, rfl, hidden⟩
    rcases List.eq_nil_or_concat unseen with rfl | ⟨unseen, other, rfl⟩
    · exact ⟨last, by rw [List.getLast?_concat], author⟩
    · rw [List.concat_eq_append] at hidden apart ⊢
      refine ⟨other, by rw [← List.cons_append, ← List.append_assoc, List.getLast?_concat], ?_⟩
      by_contra foreign
      exact apart ⟨earlier, last, unseen, other, by simp, rendered, author, hidden, foreign⟩

/-- In every run of the hub, `Run` comes to the messages in the order in which
they were put on the channel; and it leaves out the author of a message only
below a message of the same author, exactly when no others came in between
while nobody wanted messages rendered. -/
theorem followsOwn_iff_of_run {location : Location} {actions : List HubAction}
    (run : Run act (fun _ action => action.Sends (Item.Posted location)) start actions hub) :
    hub.posted = (log actions).map Processed.message ++ hub.unprocessed ∧
    ∀ before entry rest, log actions = before ++ entry :: rest → entry.rendered = true →
      ((entry.flags.showUsername = false → FollowsOwn before entry) ↔
        ¬ Overtaken before entry.message.userID) := by
  have records := records_of_run run
  refine ⟨records.order, fun before entry rest split _ => ?_⟩
  rcases records.each before entry rest split with ⟨remembers, named⟩
  exact followsOwn_iff remembers named

def itemOf (location : Location) (message : Client.Broadcast) : Item :=
  ⟨(message.marshal location).getD [], .message message.decoded⟩

theorem posted_itemOf {location : Location} {message : Client.Broadcast}
    (marshals : (message.marshal location).isSome = true) (named : message.userID ≠ []) :
    (itemOf location message).Posted location := by
  rcases Option.isSome_iff_exists.mp marshals with ⟨data, marshalled⟩
  refine ⟨message.userID, named, message, data, marshalled, rfl, ?_⟩
  rw [itemOf, marshalled, Option.getD_some]

def hiFrom (user : String) (id : Nat) (timestamp : Instant) : Client.Broadcast :=
  ⟨utf8 "message", id, utf8 "hi", [], utf8 user, timestamp⟩

/-- `Run` takes an item and sends it to these subscribers. -/
def delivers (surroundings : Surroundings) (entries : List Entry) : List HubAction :=
  [.happen surroundings .dequeue, .happen surroundings .render] ++
    entries.map (fun entry => .happen surroundings (.offer entry)) ++
    [.happen surroundings .finish]

/-- Ann writes while Carl's page is open, Bob while none is, and Ann again when
Dora's has been opened. -/
def whileNobodyLooks : List HubAction :=
  let surroundings := Surroundings.plain 0
  let carl : Entry := (utf8 "c", 0)
  let dora : Entry := (utf8 "d", 1)
  [[.register 0 ⟨utf8 "c", utf8 "carl", true⟩, .happen surroundings .announce],
    delivers surroundings [carl],
    [.send 2 (itemOf surroundings.location (hiFrom "ann" 1 0))],
    delivers surroundings [carl],
    [.happen surroundings (.cancel 0), .happen surroundings (.unregister 0),
      .happen surroundings .announce],
    delivers surroundings [],
    [.send 3 (itemOf surroundings.location (hiFrom "bob" 2 0))],
    delivers surroundings [],
    [.register 1 ⟨utf8 "d", utf8 "dora", true⟩, .happen surroundings .announce],
    delivers surroundings [dora],
    [.send 4 (itemOf surroundings.location (hiFrom "ann" 3 0))],
    delivers surroundings [dora]].flatten

theorem run_of_sends {Sent : Item → Prop} {actions : List HubAction}
    (executed : execute act start actions = some hub)
    (sent : ∀ thread item, .send thread item ∈ actions → Sent item) :
    Run act (fun _ action => action.Sends Sent) start actions hub := by
  apply (run_of_execute executed).restrict
  intro action member
  cases action with
  | send thread item => exact sent thread item member
  | register | happen => trivial

theorem whileNobodyLooks_run : ∃ hub : Hub,
    Run act (fun _ action => action.Sends (Item.Posted (Surroundings.plain 0).location)) start
      whileNobodyLooks hub := by
  have executed : (execute act start whileNobodyLooks).isSome = true := by decide +kernel
  rcases Option.isSome_iff_exists.mp executed with ⟨hub, reached⟩
  refine ⟨hub, run_of_sends reached fun thread item member => ?_⟩
  have some : item ∈ [hiFrom "ann" 1 0, hiFrom "bob" 2 0, hiFrom "ann" 3 0].map
      (itemOf (Surroundings.plain 0).location) := by
    simp [whileNobodyLooks, delivers] at member ⊢
    tauto
  rcases List.mem_map.mp some with ⟨message, listed, rfl⟩
  simp only [List.mem_cons, List.not_mem_nil, or_false] at listed
  rcases listed with rfl | rfl | rfl <;> exact posted_itemOf (by decide) (by decide)

theorem whileNobodyLooks_log : (log whileNobodyLooks).map (fun entry =>
    (entry.message.userID, entry.rendered, entry.flags.showUsername)) =
    [(utf8 "ann", true, true), (utf8 "bob", false, true), (utf8 "ann", true, false)] := by
  decide +kernel

theorem whileNobodyLooks_split : ∃ first second third : Processed,
    log whileNobodyLooks = [first, second, third] ∧ second.message.userID = utf8 "bob" ∧
    third.message.userID = utf8 "ann" ∧ third.rendered = true ∧
    third.flags.showUsername = false := by
  have shape := whileNobodyLooks_log
  rcases List.map_eq_cons_iff.mp shape with ⟨first, others, split, -, tail⟩
  rcases List.map_eq_cons_iff.mp tail with ⟨second, last, rfl, bob, tail⟩
  rcases List.map_eq_cons_iff.mp tail with ⟨third, nothing, rfl, ann, tail⟩
  rw [List.map_eq_nil_iff] at tail
  rw [tail] at split
  exact ⟨first, second, third, split, congrArg Prod.fst bob, congrArg Prod.fst ann,
    congrArg (fun row => row.2.1) ann, congrArg (fun row => row.2.2) ann⟩

/-- Ann's second message stands below Bob's as if it were his. -/
theorem whileNobodyLooks_misattributes : ∃ hub : Hub,
    Run act (fun _ action => action.Sends (Item.Posted (Surroundings.plain 0).location)) start
      whileNobodyLooks hub ∧
    ∃ before entry rest, log whileNobodyLooks = before ++ entry :: rest ∧
      entry.rendered = true ∧ entry.flags.showUsername = false ∧
      ¬ FollowsOwn before entry := by
  rcases whileNobodyLooks_run with ⟨hub, run⟩
  rcases whileNobodyLooks_split with ⟨first, second, third, split, bob, ann, rendered, hidden⟩
  refine ⟨hub, run, [first, second], third, [], split, rendered, hidden, fun follows => ?_⟩
  rcases follows with ⟨previous, least, author⟩
  cases least
  have one : utf8 "bob" = utf8 "ann" := bob.symm.trans (author.trans ann)
  exact absurd one (by decide)

theorem whileNobodyLooks_followsOwn_iff : ∃ before entry rest,
    log whileNobodyLooks = before ++ entry :: rest ∧ entry.rendered = true ∧
    ((entry.flags.showUsername = false → FollowsOwn before entry) ↔
      ¬ Overtaken before entry.message.userID) := by
  rcases whileNobodyLooks_run with ⟨hub, run⟩
  rcases whileNobodyLooks_split with ⟨first, second, third, split, -, -, rendered, -⟩
  have splits : log whileNobodyLooks = [first, second] ++ third :: [] := split
  exact ⟨[first, second], third, [], split, rendered,
    (followsOwn_iff_of_run run).2 [first, second] third [] splits rendered⟩

end Hub

end Grunt.Server
