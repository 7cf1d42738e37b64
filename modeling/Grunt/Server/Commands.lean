import Grunt.Server.Issued
import Grunt.Server.Posting
import Grunt.Server.Scrollback

/-! # `grunt send` and `grunt repl`

The two commands that send messages, each as a party outside the server. What
they report as sent is on record.
-/

namespace Grunt.Server

open Foundation Storage

/-! ## Lines -/

/-- The white space of `strings.TrimSpace`, in UTF-8. -/
def spaces : List ByteString :=
  [[9], [10], [11], [12], [13], [32], [0xC2, 0x85], [0xC2, 0xA0], [0xE1, 0x9A, 0x80],
    [0xE2, 0x80, 0x80], [0xE2, 0x80, 0x81], [0xE2, 0x80, 0x82], [0xE2, 0x80, 0x83],
    [0xE2, 0x80, 0x84], [0xE2, 0x80, 0x85], [0xE2, 0x80, 0x86], [0xE2, 0x80, 0x87],
    [0xE2, 0x80, 0x88], [0xE2, 0x80, 0x89], [0xE2, 0x80, 0x8A], [0xE2, 0x80, 0xA8],
    [0xE2, 0x80, 0xA9], [0xE2, 0x80, 0xAF], [0xE2, 0x81, 0x9F], [0xE3, 0x80, 0x80]]

def dropPieces (pieces : List ByteString) : Nat → ByteString → ByteString
  | 0, text => text
  | count + 1, text =>
      match pieces.find? fun piece => Bytes.hasPrefix piece text with
      | some piece => dropPieces pieces count (text.drop piece.length)
      | none => text

def trimSpace (text : ByteString) : ByteString :=
  let front := dropPieces spaces text.length text
  (dropPieces (spaces.map List.reverse) front.length front.reverse).reverse

/-- `strings.EqualFold` with a word that has no other case beyond ASCII. -/
def equalFold (text word : ByteString) : Bool :=
  text.map (fun byte => if 65 ≤ byte && byte ≤ 90 then byte + 32 else byte) = word

example : trimSpace (utf8 " \u00a0 hi there\u2003\n") = utf8 "hi there" := by decide

/-! ## The commands -/

inductive Command
  | send (message : ByteString)
  | repl
deriving DecidableEq, Repr

/-- What is sent for a line of input, or `none` where the command ends. -/
def Command.says : Command → ByteString → Option ByteString
  | .send message, _ => some message
  | .repl, line =>
      let line := trimSpace line
      if line = [] ∨ equalFold line (utf8 "quit") ∨ equalFold line (utf8 "exit") then none
      else some line

/-- The flags and the environment. -/
structure Login where
  user : ByteString
  password : ByteString
  inviteCode : ByteString
deriving DecidableEq, Repr

/-- Where a command is, with the requests it has sent. The messages that it has
reported as sent are each with its request. -/
inductive Chatting
  | started
  | registering (thread : Nat)
  | registered
  | loggingIn (thread : Nat)
  | loggedIn (token : ByteString)
  | connecting (token : ByteString) (stream : Nat)
  | ready (token : ByteString) (sent : List (Nat × ByteString))
  | sending (token : ByteString) (sent : List (Nat × ByteString)) (thread : Nat)
      (content : ByteString)
  | done (sent : List (Nat × ByteString))
  /-- `log.Fatalf` -/
  | failed (sent : List (Nat × ByteString))
deriving DecidableEq, Repr

namespace Chatting

def sent : Chatting → List (Nat × ByteString)
  | .ready _ sent | .sending _ sent _ _ | .done sent | .failed sent => sent
  | _ => []

end Chatting

/-- After `Login`. Only `send` connects. -/
def Command.loggedIn (command : Command) (token : ByteString) : Chatting :=
  match command with
  | .send _ => .loggedIn token
  | .repl => .ready token []

/-- After `SendMessage`. -/
def Command.told (command : Command) (token : ByteString) (sent : List (Nat × ByteString)) :
    Chatting :=
  match command with
  | .send _ => .done sent
  | .repl => .ready token sent

inductive ChatMove
  /-- The next of `Register`, `Login` and `Connect` begins. -/
  | request (thread : Nat)
  /-- A line is read and, where there is something to send, sent. -/
  | enter (line : ByteString) (thread : Nat)
  /-- There are no more lines. -/
  | hangUp
  | respond
  /-- The call fails with an error of this text. -/
  | lose (error : ByteString)
deriving DecidableEq, Repr

/-- After `Register` has failed. `sendCmd` takes any error whose text contains
409 for a conflict. -/
def Command.unregistered (command : Command) (error : ByteString) : Chatting :=
  match command with
  | .send _ => if Bytes.contains (utf8 "409") error then .registered else .failed []
  | .repl => .failed []

/-- `sendCmd` and `replCmd`. -/
def chat (location : Location) (login : Login) (command : Command) :
    Party ServerConfig ServerEvent Chatting ChatMove where
  act
    | _, .started, .request thread => some (.registering thread,
        some (.arrive thread (registerRequest login.user login.password login.inviteCode)))
    | config, .registering thread, .respond =>
        match (config.threads thread).response with
        | some (.sent status _ _) =>
            some (if status = 201 ∨ status = 409 then .registered else .failed [], none)
        -- an aborted answer is an error of its own text
        | some .aborted | none => none
    | _, .registered, .request thread =>
        some (.loggingIn thread, some (.arrive thread (loginRequest login.user login.password)))
    | config, .loggingIn thread, .respond =>
        match (config.threads thread).response with
        | some response =>
            match tokenOf location response with
            | some token => some (command.loggedIn token, none)
            | none => some (.failed [], none)
        | none => none
    | _, .loggedIn token, .request thread =>
        if token = [] then some (.failed [], none)
        else some (.connecting token thread,
          some (.arrive thread (Authentication.connectRequest ⟨[], token⟩)))
    | config, .connecting token stream, .respond =>
        match statusOf config stream with
        | some status => some (if status = 200 then .ready token [] else .failed [], none)
        | none => none
    | _, .ready token sent, .enter line thread =>
        match command.says line with
        | none => some (.done sent, none)
        | some content =>
            if token = [] then some (.failed sent, none)
            else some (.sending token sent thread content,
              some (.arrive thread (Authentication.sendRequest ⟨[], token⟩ content)))
    | _, .ready _ sent, .hangUp => if command = .repl then some (.done sent, none) else none
    | config, .sending token sent thread content, .respond =>
        match (config.threads thread).response with
        | some (.sent 200 _ _) => some (command.told token (sent ++ [(thread, content)]), none)
        | some _ => some (.failed sent, none)
        | none => none
    | _, .registering _, .lose error => some (command.unregistered error, none)
    | _, .loggingIn _, .lose _ => some (.failed [], none)
    | _, .connecting _ _, .lose _ => some (.failed [], none)
    | _, .sending _ sent _ _, .lose _ => some (.failed sent, none)
    | _, _, _ => none

/-- What a move of a command leads to, and what it sends. -/
inductive Chats (location : Location) (login : Login) (command : Command)
    (config : ServerConfig) : Chatting → Chatting → Option ServerEvent → Prop
  | registers (thread : Nat) : Chats location login command config .started (.registering thread)
      (some (.arrive thread (registerRequest login.user login.password login.inviteCode)))
  | registered (thread : Nat) :
      Chats location login command config (.registering thread) .registered none
  | logsIn (thread : Nat) : Chats location login command config .registered (.loggingIn thread)
      (some (.arrive thread (loginRequest login.user login.password)))
  | loggedIn {thread : Nat} {response : Response} {token : ByteString} :
      (config.threads thread).response = some response →
      tokenOf location response = some token →
      Chats location login command config (.loggingIn thread) (command.loggedIn token) none
  | connects (token : ByteString) (stream : Nat) :
      Chats location login command config (.loggedIn token) (.connecting token stream)
        (some (.arrive stream (Authentication.connectRequest ⟨[], token⟩)))
  | connected (token : ByteString) (stream : Nat) :
      Chats location login command config (.connecting token stream) (.ready token []) none
  | sends {token : ByteString} (sent : List (Nat × ByteString)) (thread : Nat)
      (content : ByteString) : token ≠ [] →
      Chats location login command config (.ready token sent) (.sending token sent thread content)
        (some (.arrive thread (Authentication.sendRequest ⟨[], token⟩ content)))
  | told {token content : ByteString} {sent : List (Nat × ByteString)} {thread : Nat}
      {headers : List Header} {answer : Content} :
      (config.threads thread).response = some (.sent 200 headers answer) →
      Chats location login command config (.sending token sent thread content)
        (command.told token (sent ++ [(thread, content)])) none
  | ends (token : ByteString) (sent : List (Nat × ByteString)) :
      Chats location login command config (.ready token sent) (.done sent) none
  | fails (phase : Chatting) :
      Chats location login command config phase (.failed phase.sent) none

/-- The message of a request is saved, once, and its author is the user. -/
structure OnRecord (user : ByteString) (config : ServerConfig) (said : Nat × ByteString)
    (entry : Nat × MessageRow) : Prop where
  finished : ∃ request response, config.threads said.1 = .running request (.done response)
  saved : savedEntries (config.scene.own said.1) = [entry]
  author : entry.2.user = Bytes.toValidUTF8 user
  content : entry.2.content = Bytes.toValidUTF8 said.2

def AllOnRecord (user : ByteString) (config : ServerConfig) (sent : List (Nat × ByteString))
    (entries : List (Nat × MessageRow)) : Prop :=
  List.Forall₂ (OnRecord user config) sent entries ∧
    entries.Sublist (savedEntries config.scene.history)

def Chatted (platform : Platform) (login : Login) (config : ServerConfig) : Chatting → Prop
  | .loggingIn thread =>
      (config.threads thread).request = some (loginRequest login.user login.password)
  | .loggedIn token | .connecting token _ =>
      (token, Bytes.toValidUTF8 login.user) ∈ issued config.scene.history
  | .ready token sent => (token, Bytes.toValidUTF8 login.user) ∈ issued config.scene.history ∧
      ∃ entries, AllOnRecord login.user config sent entries
  | .sending token sent thread content =>
      (token, Bytes.toValidUTF8 login.user) ∈ issued config.scene.history ∧ token ≠ [] ∧
      (config.threads thread).request =
        some (Authentication.sendRequest ⟨[], token⟩ content) ∧
      NotAKey platform token (config.scene.own thread) ∧
      ∃ entries, AllOnRecord login.user config sent entries ∧
        (entries ++ savedEntries (config.scene.own thread)).Sublist
          (savedEntries config.scene.history)
  | .done sent | .failed sent => ∃ entries, AllOnRecord login.user config sent entries
  | _ => True

section Kept

variable {platform : Platform} {login : Login} {command : Command}
variable {config after : ServerConfig} {event : ServerEvent}

theorem savedEntries_of_next (taken : next platform config event = some after) (thread : Nat) :
    ∃ more, savedEntries after.scene.history = savedEntries config.scene.history ++ more ∧
      (savedEntries (after.scene.own thread) = savedEntries (config.scene.own thread) ++ more ∨
        savedEntries (after.scene.own thread) = savedEntries (config.scene.own thread)) := by
  by_cases own : ∃ choice, event = .step thread choice
  · obtain ⟨choice, rfl⟩ := own
    obtain ⟨request, op, rest, result, scene, -, observed, rfl⟩ := Machine.next_step taken
    have mine : scene.own thread = config.scene.own thread ++ [⟨thread, op, result⟩] :=
      Machine.own_of_observe observed
    refine ⟨(savedEntry ⟨thread, op, result⟩).toList, ?_, .inl ?_⟩
    · change savedEntries scene.history = _
      rw [(Machine.observe_eq_some.mp observed).2, savedEntries_snoc]
    · change savedEntries (scene.own thread) = _
      rw [mine, savedEntries_snoc]
  · obtain ⟨more, grown⟩ := Machine.history_of_next taken
    refine ⟨savedEntries more, ?_, .inr ?_⟩
    · rw [← grown, savedEntries, List.filterMap_append]
      rfl
    · rw [Machine.own_of_next (fun choice same => own ⟨choice, same⟩) taken]

theorem OnRecord.next {said : Nat × ByteString} {entry : Nat × MessageRow}
    (recorded : OnRecord login.user config said entry)
    (taken : next platform config event = some after) :
    OnRecord login.user after said entry := by
  obtain ⟨request, response, finished⟩ := recorded.finished
  have same : after.scene.own said.1 = config.scene.own said.1 := by
    apply Machine.own_of_next _ taken
    rintro choice rfl
    obtain ⟨_, _, _, _, _, running, -, -⟩ := Machine.next_step taken
    cases running.symm.trans finished
  exact {
    finished := ⟨request, response, Machine.finished_of_next finished taken⟩
    saved := by rw [same, recorded.saved]
    author := recorded.author
    content := recorded.content }

theorem AllOnRecord.next {sent : List (Nat × ByteString)} {entries : List (Nat × MessageRow)}
    (all : AllOnRecord login.user config sent entries)
    (taken : next platform config event = some after) :
    AllOnRecord login.user after sent entries := by
  obtain ⟨more, grown, -⟩ := savedEntries_of_next taken 0
  refine ⟨all.1.imp fun _ _ recorded => recorded.next taken, ?_⟩
  rw [grown]
  exact all.2.trans (List.sublist_append_left _ _)

theorem issued_of_next (taken : next platform config event = some after) :
    issued config.scene.history ⊆ issued after.scene.history := by
  obtain ⟨more, grown⟩ := Machine.history_of_next taken
  rw [← grown, issued, issued, List.filterMap_append]
  exact List.subset_append_left _ _

theorem Chatted.next {phase : Chatting} (chatted : Chatted platform login config phase)
    (fresh : freshTokens platform config event = true)
    (taken : next platform config event = some after) : Chatted platform login after phase := by
  have issues := issued_of_next taken
  cases phase with
  | started | registering | registered => trivial
  | loggingIn thread => exact Machine.request_of_next chatted taken
  | loggedIn token => exact issues chatted
  | connecting token stream => exact issues chatted
  | ready token sent =>
      obtain ⟨granted, entries, all⟩ := chatted
      exact ⟨issues granted, entries, all.next taken⟩
  | done sent | failed sent =>
      obtain ⟨entries, all⟩ := chatted
      exact ⟨entries, all.next taken⟩
  | sending token sent thread content =>
      obtain ⟨granted, nonempty, arrived, notAKey, entries, all, behind⟩ := chatted
      refine ⟨issues granted, nonempty, Machine.request_of_next arrived taken,
        notAKey_of_next granted (Bool.and_eq_true_iff.mp fresh).2 notAKey taken, entries,
        all.next taken, ?_⟩
      obtain ⟨more, grown, mine | same⟩ := savedEntries_of_next taken thread
      · rw [grown, mine, ← List.append_assoc]
        exact behind.append (List.Sublist.refl more)
      · rw [grown, same]
        exact behind.trans (List.sublist_append_left _ _)

end Kept

/-! ## Runs -/

section Runs

variable {platform : Platform} {tables : Tables} {clock : Instant} {login : Login}
variable {command : Command} {events : List ServerEvent} {config after : ServerConfig}

abbrev FreshRun (platform : Platform) (tables : Tables) (clock : Instant) :=
  Run (next platform) (fun config event => freshTokens platform config event = true)
    (start tables clock)

theorem Chatted.onRecord {phase : Chatting} (chatted : Chatted platform login config phase) :
    ∃ entries, AllOnRecord login.user config phase.sent entries := by
  have nothing : ∃ entries, AllOnRecord login.user config [] entries :=
    ⟨[], .nil, List.nil_sublist _⟩
  cases phase with
  | started | registering | registered | loggingIn | loggedIn | connecting => exact nothing
  | ready token sent => exact chatted.2
  | done sent | failed sent => exact chatted
  | sending token sent thread content =>
      obtain ⟨-, -, -, -, entries, all, -⟩ := chatted
      exact ⟨entries, all⟩

theorem issued_of_tokenOf (run : FreshRun platform tables clock events config) {thread : Nat}
    (arrived : (config.threads thread).request = some (loginRequest login.user login.password))
    {response : Response} (responded : (config.threads thread).response = some response)
    {token : ByteString} (read : tokenOf platform.location response = some token) :
    (token, Bytes.toValidUTF8 login.user) ∈ issued config.scene.history := by
  have finished := Thread.eq_done arrived responded
  have sent := ((Machine.tracked_of_run (Machine.obeys_tracking serve_sendsToken) run
    Machine.tracked_start) thread).2 _ _ finished
  unfold tokenOf at read
  split at read
  case h_2 => cases read
  case h_1 headers document =>
    obtain ⟨field, other, expiry, rfl, fields, drawn, put⟩ :=
      sent route_loginRequest headers document rfl
    have suits := (sessions_of_run run).drawn thread 32 other (List.mem_filter.mp drawn).1
    rw [readToken_body, toValidUTF8_nanoid suits] at read
    cases read
    obtain ⟨same, decoded, user, -⟩ :=
      jsonFields_loginRequest login.user login.password
    rw [fields] at decoded
    cases decoded
    rw [← user]
    exact mem_issued (List.mem_filter.mp put).1

theorem onRecord_of_accepted (run : FreshRun platform tables clock events config)
    {token content : ByteString} (nonempty : token ≠ [])
    (granted : (token, Bytes.toValidUTF8 login.user) ∈ issued config.scene.history) {thread : Nat}
    (arrived : (config.threads thread).request =
      some (Authentication.sendRequest ⟨[], token⟩ content))
    (notAKey : NotAKey platform token (config.scene.own thread))
    {headers : List Header} {answer : Content}
    (responded : (config.threads thread).response = some (.sent 200 headers answer)) :
    ∃ entry, OnRecord login.user config (thread, content) entry := by
  have finished := Thread.eq_done arrived responded
  have acknowledged := ((Machine.tracked_of_run (Machine.tracking_obeys serve_posting) run
    Machine.tracked_start) thread).2 _ _ finished (route_sendRequest _) headers answer rfl
  obtain ⟨entry, member⟩ := List.exists_mem_of_ne_nil _ acknowledged
  obtain ⟨single, request, same, submits⟩ := submits_of_own run member
  rw [arrived] at same
  cases same
  have vouched := submits.vouched
  rw [extractToken_sendRequest nonempty] at vouched
  obtain ⟨field, fields, decoded⟩ := bodyFields_sendRequest ⟨[], token⟩ content
  have content := submits.content
  rw [fields] at content
  exact ⟨entry, ⟨_, _, finished⟩, single,
    (sessions_of_run run).owner (List.filter_subset_self _) vouched notAKey granted,
    (Option.some.inj content).symm.trans decoded⟩

theorem Chatted.silent {phase later : Chatting}
    (run : FreshRun platform tables clock events config) (chatted : Chatted platform login config phase)
    (chats : Chats platform.location login command config phase later none) :
    Chatted platform login config later := by
  have nothing : ∃ entries, AllOnRecord login.user config [] entries :=
    ⟨[], .nil, List.nil_sublist _⟩
  cases chats with
  | registered thread => trivial
  | loggedIn responded read =>
      have granted := issued_of_tokenOf run chatted responded read
      cases command with
      | send message => exact granted
      | repl => exact ⟨granted, nothing⟩
  | connected token stream => exact ⟨chatted, nothing⟩
  | ends token sent => exact chatted.2
  | fails phase => exact chatted.onRecord
  | @told token content sent thread headers answer responded =>
      obtain ⟨granted, nonempty, arrived, notAKey, entries, all, behind⟩ := chatted
      obtain ⟨entry, recorded⟩ :=
        onRecord_of_accepted run nonempty granted arrived notAKey responded
      have more : AllOnRecord login.user config (sent ++ [(thread, content)])
          (entries ++ [entry]) := by
        rw [recorded.saved] at behind
        exact ⟨List.rel_append all.1 (.cons recorded .nil), behind⟩
      cases command with
      | send message => exact ⟨_, more⟩
      | repl => exact ⟨granted, _, more⟩

theorem Chatted.act {phase later : Chatting} {event : ServerEvent}
    (run : FreshRun platform tables clock events config) (chatted : Chatted platform login config phase)
    (chats : Chats platform.location login command config phase later (some event))
    (taken : Server.next platform config event = some after) : Chatted platform login after later := by
  have issues := issued_of_next taken
  cases chats with
  | registers thread => trivial
  | logsIn thread =>
      obtain ⟨-, rfl⟩ := Machine.next_arrive taken
      simp [Chatted, Config.set, Thread.request]
  | connects token stream => exact issues chatted
  | sends sent thread content nonempty =>
      have idle := (Machine.next_arrive taken).1
      have none := ((Machine.tracked_of_run (Machine.tracking_obeys serve_posting) run
        Machine.tracked_start) thread).1 idle
      obtain ⟨granted, entries, all⟩ := chatted
      have still := all.next taken
      have own : after.scene.own thread = [] := by
        refine (Machine.own_of_next ?_ taken).trans none
        rintro choice ⟨⟩
      refine ⟨issues granted, nonempty, ?_, ?_, entries, still, ?_⟩
      · obtain ⟨-, rfl⟩ := Machine.next_arrive taken
        simp [Config.set, Thread.request]
      · rw [own]
        exact fun _ _ => List.not_mem_nil
      · rw [own]
        simpa [savedEntries] using still.2

end Runs

end Grunt.Server
