import Grunt.Foundation.Party
import Grunt.Server.Pages

/-! # The two clients

`grunt recv` and the chat page in a browser, each as a party outside the
server. `recv` opens its stream and then asks for the history; the page comes
with its rows and then opens its stream.
-/

namespace Grunt.Server

open Foundation

/-- The status that has come back from the server. `net/http` sends the header
with the first bytes of the body, and without a body when the handler returns. -/
def statusOf (config : ServerConfig) (thread : Nat) : Option Nat :=
  match config.threads thread with
  | .running _ (.done (.sent status _ _)) => some status
  | .running _ (.perform _ _) =>
      match config.scene.world.hub.pumps thread with
      | some pump => if pump.stream = [] then none else some 200
      | none => none
  | _ => none

/-! ## `grunt recv` -/

/-- What a `Client` authenticates with. -/
structure Authentication where
  apiKey : ByteString
  token : ByteString
deriving DecidableEq, Repr

namespace Authentication

def authorization (authentication : Authentication) : ByteString :=
  if authentication.apiKey ≠ [] then utf8 "Bearer " ++ authentication.apiKey
  else if authentication.token ≠ [] then utf8 "Bearer " ++ authentication.token
  else []

/-- The request of `Connect`. -/
def connectRequest (authentication : Authentication) : Request :=
  { Request.plain (utf8 "GET") (utf8 "/api/chat/stream") .empty with
    authorization := authentication.authorization
    accept := utf8 "text/event-stream" }

/-- The request of `SyncHistory(0)`. -/
def syncRequest (authentication : Authentication) : Request :=
  { Request.plain (utf8 "GET") (utf8 "/api/chat/sync") .empty with
    rawQuery := utf8 "last=10"
    query := fun name => if name = utf8 "last" then [utf8 "10"] else []
    authorization := authentication.authorization }

end Authentication

/-- What `SyncHistory` decodes, or `none` where it returns an error. -/
def historyOf : Response → Option (List Client.Broadcast)
  | .sent 200 _ (.json (.broadcasts messages)) => some (messages.map Client.Broadcast.decoded)
  | _ => none

/-- Where `recv` is, with the requests it has sent. -/
inductive Receiving
  | loggedIn
  /-- In `Connect`. -/
  | connecting (stream : Nat)
  | connected (stream : Nat)
  /-- After `StartListening`. -/
  | listening (stream : Nat)
  /-- In `SyncHistory`. -/
  | syncing (stream sync : Nat)
  | synced (stream sync : Nat) (history : Option (List Client.Broadcast))
  /-- `log.Fatalf` -/
  | failed
deriving DecidableEq, Repr

inductive ReceiverMove
  | connect (thread : Nat)
  | startListening
  | syncHistory (thread : Nat)
  /-- `HTTPClient.Do` returns a response. -/
  | respond
  /-- `HTTPClient.Do` returns an error. -/
  | lose
deriving DecidableEq, Repr

/-- `recvCmd` from `Connect` on. -/
def recv (authentication : Authentication) : Party ServerConfig ServerEvent Receiving ReceiverMove where
  act
    | _, .loggedIn, .connect thread =>
        if authentication.authorization = [] then some (.failed, none)
        else some (.connecting thread, some (.arrive thread authentication.connectRequest))
    | config, .connecting stream, .respond =>
        match statusOf config stream with
        | some status => some (if status = 200 then .connected stream else .failed, none)
        | none => none
    | _, .connecting _, .lose => some (.failed, none)
    | _, .connected stream, .startListening => some (.listening stream, none)
    | _, .listening stream, .syncHistory thread =>
        some (.syncing stream thread, some (.arrive thread authentication.syncRequest))
    | config, .syncing stream sync, .respond =>
        match config.threads sync with
        | .running _ (.done response) => some (.synced stream sync (historyOf response), none)
        | _ => none
    | _, .syncing stream sync, .lose => some (.synced stream sync none, none)
    | _, _, _ => none

/-- What a move of `recv` leads to, and what it sends. -/
inductive Receives (authentication : Authentication) (config : ServerConfig) :
    Receiving → Receiving → Option ServerEvent → Prop
  | refused : Receives authentication config .loggedIn .failed none
  | connects (thread : Nat) : Receives authentication config .loggedIn (.connecting thread)
      (some (.arrive thread authentication.connectRequest))
  | fails (stream : Nat) : Receives authentication config (.connecting stream) .failed none
  | connected {stream : Nat} : statusOf config stream = some 200 →
      Receives authentication config (.connecting stream) (.connected stream) none
  | listens (stream : Nat) :
      Receives authentication config (.connected stream) (.listening stream) none
  | asks (stream thread : Nat) :
      Receives authentication config (.listening stream) (.syncing stream thread)
        (some (.arrive thread authentication.syncRequest))
  | answered {stream sync : Nat} {request : Request} {response : Response} :
      config.threads sync = .running request (.done response) →
      Receives authentication config (.syncing stream sync)
        (.synced stream sync (historyOf response)) none
  | loses (stream sync : Nat) :
      Receives authentication config (.syncing stream sync) (.synced stream sync none) none

theorem receives_of_act {authentication : Authentication} {config : ServerConfig}
    {phase later : Receiving} {move : ReceiverMove} {event : Option ServerEvent}
    (acted : (recv authentication).act config phase move = some (later, event)) :
    Receives authentication config phase later event := by
  simp only [recv] at acted
  split at acted
  · split at acted <;> cases acted
    · exact .refused
    · exact .connects _
  · split at acted <;> cases acted
    next status returned =>
      split
      case isTrue same =>
        rw [same] at returned
        exact .connected returned
      case isFalse => exact .fails _
  · cases acted
    exact .fails _
  · cases acted
    exact .listens _
  · cases acted
    exact .asks _ _
  · split at acted <;> cases acted
    next finished => exact .answered finished
  · cases acted
    exact .loses _ _
  · cases acted

theorem route_syncRequest (platform : Platform) (authentication : Authentication) :
    route platform authentication.syncRequest = .syncMessages := by
  have clean : cleanPath (utf8 "/api/chat/sync") = utf8 "/api/chat/sync" := by decide
  rw [route]
  exact (if_pos clean).trans rfl

theorem syncParameters_syncRequest {platform : Platform} {authentication : Authentication}
    (unset : platform.bindQueryInt64 [] = .ok none)
    (ten : platform.bindQueryInt64 [utf8 "10"] = .ok (some 10)) :
    syncParameters platform authentication.syncRequest = .ok (none, some 10) := by
  have since : authentication.syncRequest.query (utf8 "since") = [] := by rfl
  have last : authentication.syncRequest.query (utf8 "last") = [utf8 "10"] := by rfl
  rw [syncParameters, since, last, unset, ten]

theorem historyOf_eq_some {response : Response} {history : List Client.Broadcast}
    (decoded : historyOf response = some history) :
    ∃ headers messages, response = .sent 200 headers (.json (.broadcasts messages)) ∧
      history.map Client.Broadcast.id = messages.map Client.Broadcast.id := by
  unfold historyOf at decoded
  split at decoded
  case h_1 headers messages =>
    cases decoded
    refine ⟨headers, messages, rfl, ?_⟩
    rw [List.map_map]
    rfl
  case h_2 => cases decoded

/-! ## The chat page -/

def pageRequest (cookie : ByteString) : Request :=
  { Request.plain (utf8 "GET") (utf8 "/") .empty with tokenCookie := some cookie }

/-- The request of `sse-connect`. -/
def fragmentsRequest (cookie : ByteString) : Request :=
  { Request.plain (utf8 "GET") (utf8 "/api/chat/stream") .empty with
    rawQuery := utf8 "format=html"
    query := fun name => if name = utf8 "format" then [utf8 "html"] else []
    tokenCookie := some cookie
    accept := utf8 "text/event-stream" }

/-- Where the browser is, with the requests it has sent and the rows of
`#msg-list` that the page has come with. -/
inductive Browsing
  | closed
  | loading (page : Nat)
  | loaded (page : Nat) (rows : List MessageTemplateData)
  | streaming (page stream : Nat) (rows : List MessageTemplateData)
deriving DecidableEq, Repr

inductive BrowserMove
  | open (thread : Nat)
  | respond
  | connect (thread : Nat)
deriving DecidableEq, Repr

def browse (cookie : ByteString) : Party ServerConfig ServerEvent Browsing BrowserMove where
  act
    | _, .closed, .open thread =>
        some (.loading thread, some (.arrive thread (pageRequest cookie)))
    | config, .loading page, .respond =>
        match config.threads page with
        | .running _ (.done (.sent 200 _ (.chat data))) => some (.loaded page data.messages, none)
        | _ => none
    | _, .loaded page rows, .connect thread =>
        some (.streaming page thread rows, some (.arrive thread (fragmentsRequest cookie)))
    | _, _, _ => none

/-- What a move of the browser leads to, and what it sends. -/
inductive Browses (cookie : ByteString) (config : ServerConfig) :
    Browsing → Browsing → Option ServerEvent → Prop
  | opens (thread : Nat) : Browses cookie config .closed (.loading thread)
      (some (.arrive thread (pageRequest cookie)))
  | loads {page : Nat} {request : Request} {headers : List Header} {data : ChatData} :
      config.threads page = .running request (.done (.sent 200 headers (.chat data))) →
      Browses cookie config (.loading page) (.loaded page data.messages) none
  | connects (page thread : Nat) (rows : List MessageTemplateData) :
      Browses cookie config (.loaded page rows) (.streaming page thread rows)
        (some (.arrive thread (fragmentsRequest cookie)))

theorem browses_of_act {cookie : ByteString} {config : ServerConfig} {phase later : Browsing}
    {move : BrowserMove} {event : Option ServerEvent}
    (acted : (browse cookie).act config phase move = some (later, event)) :
    Browses cookie config phase later event := by
  simp only [browse] at acted
  split at acted
  · cases acted
    exact .opens _
  · split at acted <;> cases acted
    next loaded => exact .loads loaded
  · cases acted
    exact .connects _ _ _
  · cases acted

theorem route_pageRequest (platform : Platform) (cookie : ByteString) :
    route platform (pageRequest cookie) = .index := by
  have clean : cleanPath (utf8 "/") = utf8 "/" := by decide
  rw [route]
  exact (if_pos clean).trans rfl

end Grunt.Server
