import Grunt.Server.Pages
import Grunt.Storage.Effects

/-! # What the handlers may do

For every route the operations its handler can reach besides reading, given
the identity of the request. Proofs about the server use this table and do not
open the handlers.
-/

namespace Grunt.Server

open Foundation Storage

namespace Op

def isQuiet : Op → Bool
  | .store op => op.isPlainRead
  | .nanoid _ | .random _ | .checkToken _ | .writePump | .renderContent _ | .readFile _ => true
  | .putToken _ _ _ | .broadcast _ | .register _ => false

end Op

def isRegistering : Storage.Op → Bool
  | .exec true (.useInvite _ _ _) => true
  | .exec true (.insertUser _ _) => true
  | .exec false (.setUserAdmin _) => true
  | .commit | .rollback => true
  | _ => false

def Route.permits (identity : Identity) : Route → Op → Prop
  | .registerUser, .store op => isRegistering op = true
  | .register, .store op => isRegistering op = true
  | .register, .putToken _ _ _ => True
  | .loginUser, .putToken _ _ _ => True
  | .index, .putToken _ _ _ => True
  | .index, .store (.query false asked) => asked.isHistory = true ∧ identity.authenticated = true
  | .syncMessages, .store (.query false asked) => asked.isHistory = true
  | .getInvite, .store (.exec false (.insertInvite _ _ createdBy)) =>
      identity.authenticated = true ∧ createdBy = identity.userID
  | .changePassword, .store (.exec false (.setPassword user _)) =>
      identity.userID ≠ [] ∧ user = identity.userID
  | .sendMessage, .store (.exec false (.insertMessage row)) =>
      identity.userID ≠ [] ∧ row.user = identity.userID
  | .sendMessage, .broadcast item => identity.userID ≠ [] ∧ item.eventType = utf8 "message"
  | .streamMessages, .register subscriber =>
      identity.authenticated = true ∧ subscriber.userID = identity.userID
  | .adminCreateUser, .store (.exec false (.insertUser user hash)) =>
      identity.isAdmin = true ∧ user ≠ [] ∧ hash = none
  | .adminCreateAPIKey, .store (.exec false (.insertAPIKey user adminUser _ _)) =>
      identity.isAdmin = true ∧ user ≠ [] ∧ adminUser = identity.userID
  | .adminRevokeAPIKey _, .store (.exec false (.deleteAPIKey _)) => identity.isAdmin = true
  | .avatarUpload, .store (.exec false (.setAvatar user _)) =>
      identity.userID ≠ [] ∧ user = identity.userID
  | _, _ => False

/-- An item that carries a message of a user, as `SendMessage` makes it. -/
def Item.PostedBy (location : Location) (userID : ByteString) (item : Item) : Prop :=
  ∃ (message : Client.Broadcast) (data : ByteString),
    message.marshal location = some data ∧ message.userID = userID ∧
      item = ⟨data, .message message.decoded⟩

theorem Item.PostedBy.isMessage {location : Location} {userID : ByteString} {item : Item}
    (posted : item.PostedBy location userID) : item.eventType = utf8 "message" := by
  rcases posted with ⟨message, data, -, -, rfl⟩
  rfl

theorem store_only {P : Op → Prop} {α : Type} {method : StoreProgram α}
    (only : method.Only fun op => P (.store op)) : (store method).Only P :=
  only.embed

section Handlers

variable {platform : Platform} {request : Request} {identity : Identity} {P : Op → Prop}
theorem syncMessages_only
    (history : ∀ asked : Query, asked.isHistory = true → P (.store (.query false asked))) :
    (syncMessages platform request).Only P := by
  unfold syncMessages
  split
  · trivial
  · refine (store_only (Store.sync_only _ _ history)).bind fun result => ?_
    cases result <;> trivial

theorem handleAvatarUpload_only
    (writes : identity.userID ≠ [] → ∀ data,
      P (.store (.exec false (.setAvatar identity.userID data)))) :
    (handleAvatarUpload platform request identity).Only P := by
  unfold handleAvatarUpload
  split
  · trivial
  · next named =>
    split
    · trivial
    · trivial
    · split
      · trivial
      · refine (store_only (Store.execOnly_only (writes named _))).bind fun result => ?_
        cases result with
        | error error => trivial
        | ok _ =>
            dsimp only
            split <;> trivial

variable (quiet : ∀ op : Op, op.isQuiet = true → P op)
include quiet

theorem lookups (op : Storage.Op) (lookup : op.isLookup = true) : P (.store op) :=
  quiet _ (Storage.Op.isPlainRead_of_isLookup lookup)

theorem now_only : now.Only P := ⟨quiet (.store .now) rfl, fun _ => trivial⟩

theorem validateToken_only (token : ByteString) : (validateToken platform token).Only P := by
  unfold validateToken
  split
  · refine (store_only (Store.getAPIKeyByHash_only (lookups quiet) _)).bind fun answer => ?_
    cases answer <;> trivial
  · exact ⟨quiet (.checkToken token) rfl, fun _ => trivial⟩

theorem authenticate_only : (authenticate platform request).Only P := by
  unfold authenticate
  dsimp only
  split
  · trivial
  · refine (validateToken_only quiet _).bind fun valid => ?_
    cases valid with
    | none => trivial
    | some userID =>
        exact (store_only (Store.isUserAdmin_only (lookups quiet) userID)).bind fun _ => trivial

theorem generateToken_only {userID : ByteString}
    (puts : ∀ token expiry, P (.putToken token userID expiry)) :
    (generateToken userID).Only P := by
  refine ⟨quiet _ rfl, fun drawn => ?_⟩
  cases drawn with
  | error error => trivial
  | ok token =>
      exact (now_only quiet).bind fun issuedAt => ⟨puts _ _, fun _ => trivial⟩

theorem setFirstAdmin_only {user : ByteString}
    (grants : P (.store (.exec false (.setUserAdmin user)))) : (setFirstAdmin user).Only P := by
  refine (store_only (Store.createUserCount_only (lookups quiet))).bind fun count => ?_
  split
  · exact (store_only (Store.execOnly_only grants)).bind fun _ => trivial
  · trivial

theorem registerWithInvite_only {code user password : ByteString}
    (registers : ∀ op : Storage.Op, isRegistering op = true → P (.store op)) :
    (store (Store.registerWithInvite platform.toLibraries code user password)).Only P :=
  store_only (Store.registerWithInvite_only (fun op read => quiet (.store op) read)
    (fun _ => registers _ rfl) (fun _ => registers _ rfl) (registers _ rfl) (registers _ rfl))

theorem registerUser_only
    (registers : ∀ op : Storage.Op, isRegistering op = true → P (.store op)) :
    (registerUser platform request).Only P := by
  unfold registerUser
  split
  · trivial
  · dsimp only
    split
    · trivial
    · refine (registerWithInvite_only quiet registers).bind fun result => ?_
      cases result with
      | error error => trivial
      | ok _ => exact (setFirstAdmin_only quiet (registers _ rfl)).bind fun _ => trivial

theorem startSession_only {user : ByteString}
    (puts : ∀ token expiry, P (.putToken token user expiry)) : (startSession user).Only P := by
  refine (generateToken_only quiet puts).bind fun result => ?_
  cases result <;> trivial

theorem handleRegisterSubmit_only
    (registers : ∀ op : Storage.Op, isRegistering op = true → P (.store op))
    (puts : ∀ token user expiry, P (.putToken token user expiry)) :
    (handleRegisterSubmit platform request).Only P := by
  unfold handleRegisterSubmit
  split
  · trivial
  · dsimp only
    split
    · trivial
    · refine (registerWithInvite_only quiet registers).bind fun result => ?_
      cases result with
      | error error =>
          dsimp only
          split <;> trivial
      | ok _ =>
          exact (setFirstAdmin_only quiet (registers _ rfl)).bind fun _ =>
            startSession_only quiet fun token expiry => puts token _ expiry

theorem getInvite_only
    (invites : identity.authenticated = true → ∀ code expiresAt,
      P (.store (.exec false (.insertInvite code expiresAt identity.userID)))) :
    (getInvite platform request identity).Only P := by
  unfold getInvite
  split
  · trivial
  · next authenticated =>
    refine ⟨quiet _ rfl, fun drawn => ?_⟩
    cases drawn with
    | error error => trivial
    | ok bytes =>
        refine (now_only quiet).bind fun issuedAt => ?_
        refine (store_only (Store.execOnly_only
          (invites (by simpa using authenticated) _ _))).bind fun result => ?_
        cases result with
        | error error => trivial
        | ok _ =>
            dsimp only
            split <;> trivial

theorem loginUser_only (puts : ∀ token user expiry, P (.putToken token user expiry)) :
    (loginUser platform request).Only P := by
  unfold loginUser
  split
  · trivial
  · refine (store_only (Store.verifyUser_only (lookups quiet) _ _)).bind fun verified => ?_
    rcases verified with error | _ | _
    · trivial
    · trivial
    · refine (generateToken_only quiet fun token expiry => puts token _ expiry).bind
        fun result => ?_
      cases result <;> trivial

theorem handleLoginSubmit_only (puts : ∀ token user expiry, P (.putToken token user expiry)) :
    (handleLoginSubmit platform request).Only P := by
  unfold handleLoginSubmit
  split
  · trivial
  · dsimp only
    split
    · trivial
    · refine (store_only (Store.verifyUser_only (lookups quiet) _ _)).bind fun verified => ?_
      rcases verified with error | _ | _
      · trivial
      · trivial
      · exact startSession_only quiet fun token expiry => puts token _ expiry

theorem changePassword_only
    (writes : identity.userID ≠ [] → ∀ hash,
      P (.store (.exec false (.setPassword identity.userID hash)))) :
    (changePassword platform request identity).Only P := by
  unfold changePassword
  split
  · trivial
  · dsimp only
    split
    · trivial
    · split
      · trivial
      · next named =>
        refine (store_only (Store.changePassword_only (lookups quiet) (writes named))).bind
          fun result => ?_
        cases result with
        | error error =>
            dsimp only
            split <;> trivial
        | ok _ => trivial

theorem saveAndBroadcast_only {userID content : ByteString}
    (saves : ∀ timestamp,
      P (.store (.exec false (.insertMessage ⟨content, [], userID, timestamp⟩))))
    (broadcasts : ∀ item : Item, item.PostedBy platform.location userID →
      P (.broadcast item)) :
    (saveAndBroadcast platform userID content).Only P := by
  refine (now_only quiet).bind fun timestamp => ?_
  refine (store_only (Store.execInsert_only (saves timestamp))).bind fun result => ?_
  cases result with
  | error error => trivial
  | ok id =>
      dsimp only
      split
      · trivial
      · next data marshalled =>
        exact ⟨broadcasts _ ⟨_, data, marshalled, rfl, rfl⟩, fun _ => trivial⟩

theorem sendMessage_only
    (saves : identity.userID ≠ [] → ∀ content timestamp,
      P (.store (.exec false (.insertMessage ⟨content, [], identity.userID, timestamp⟩))))
    (broadcasts : identity.userID ≠ [] → ∀ item : Item,
      item.PostedBy platform.location identity.userID → P (.broadcast item)) :
    (sendMessage platform request identity).Only P := by
  unfold sendMessage
  split
  · trivial
  · split
    · trivial
    · dsimp only
      split
      · trivial
      · split
        · trivial
        · split
          · trivial
          · next named =>
            exact saveAndBroadcast_only quiet (saves named _) (broadcasts named)

theorem streamMessages_only
    (registers : identity.authenticated = true → ∀ clientID renderHTML,
      P (.register ⟨clientID, identity.userID, renderHTML⟩)) :
    (streamMessages request identity).Only P := by
  unfold streamMessages
  split
  · trivial
  · split
    · trivial
    · next authenticated =>
      refine ⟨quiet _ rfl, fun drawn => ?_⟩
      cases drawn with
      | error error => trivial
      | ok clientID =>
          refine ⟨registers (by simpa using authenticated) _ _, fun _ => ?_⟩
          exact ⟨quiet _ rfl, fun _ => trivial⟩

theorem adminCreateUser_only
    (creates : identity.isAdmin = true → ∀ user, user ≠ [] →
      P (.store (.exec false (.insertUser user none)))) :
    (adminCreateUser request identity).Only P := by
  unfold adminCreateUser
  split
  · trivial
  · next admin =>
    split
    · split <;> trivial
    · dsimp only
      split
      · trivial
      · next named =>
        refine (store_only (Store.execOnly_only
          (creates (by simpa using admin) _ named))).bind fun result => ?_
        cases result with
        | error error => trivial
        | ok _ =>
            dsimp only
            split
            · refine (store_only (Store.listUsers_only (lookups quiet))).bind fun result => ?_
              cases result <;> trivial
            · trivial

theorem adminListAPIKeys_only : (adminListAPIKeys identity).Only P := by
  unfold adminListAPIKeys
  split
  · trivial
  · refine (store_only (Store.listAllAPIKeys_only (lookups quiet))).bind fun result => ?_
    cases result <;> trivial

theorem reloadKeys_only (above : ByteString) : (reloadKeys above).Only P := by
  refine (store_only (Store.listAllAPIKeys_only (lookups quiet))).bind fun result => ?_
  cases result <;> trivial

theorem adminCreateAPIKey_only
    (creates : identity.isAdmin = true → ∀ user keyHash name, user ≠ [] →
      P (.store (.exec false (.insertAPIKey user identity.userID keyHash name)))) :
    (adminCreateAPIKey platform request identity).Only P := by
  unfold adminCreateAPIKey
  split
  · trivial
  · next admin =>
    split
    · trivial
    · split
      · trivial
      · next named =>
        refine ⟨quiet _ rfl, fun drawn => ?_⟩
        cases drawn with
        | error error => trivial
        | ok bytes =>
            refine (store_only (Store.execInsert_only
              (creates (by simpa using admin) _ _ _ named))).bind fun result => ?_
            cases result with
            | error error => trivial
            | ok keyID =>
                dsimp only
                split
                · exact reloadKeys_only quiet _
                · trivial

theorem adminRevokeAPIKey_only {keyId : ByteString}
    (revokes : identity.isAdmin = true → ∀ id,
      P (.store (.exec false (.deleteAPIKey id)))) :
    (adminRevokeAPIKey platform request identity keyId).Only P := by
  unfold adminRevokeAPIKey
  split
  · trivial
  · split
    · trivial
    · next admin =>
      refine (store_only (Store.execOnly_only (revokes (by simpa using admin) _))).bind
        fun result => ?_
      cases result with
      | error error => trivial
      | ok _ =>
          dsimp only
          split
          · exact reloadKeys_only quiet _
          · trivial

theorem serveAvatar_only (userID : ByteString) : (serveAvatar platform request userID).Only P := by
  refine (store_only (Store.getAvatar_only (lookups quiet) userID)).bind fun result => ?_
  cases result with
  | error error => trivial
  | ok avatar =>
      dsimp only
      split
      · trivial
      · split <;> trivial

theorem handleAvatarGet_only : (handleAvatarGet platform request identity).Only P := by
  unfold handleAvatarGet
  split
  · trivial
  · exact serveAvatar_only quiet _

theorem handleAvatarGetUser_only : (handleAvatarGetUser platform request).Only P := by
  unfold handleAvatarGetUser
  dsimp only
  split
  · trivial
  · exact serveAvatar_only quiet _

theorem chatRow_only (previous : Option Client.Broadcast) (message : Client.Broadcast) :
    (chatRow platform previous message).Only P := by
  have header : (chatDateHeader platform previous message).Only P := by
    unfold chatDateHeader
    dsimp only
    split
    · trivial
    · exact (now_only quiet).bind fun _ => trivial
  refine header.bind fun _ => ⟨quiet _ rfl, fun _ => ?_⟩
  dsimp only [Program.bind]
  split
  · trivial
  · exact (store_only (Store.hasAvatar_only (lookups quiet) _)).bind fun _ => trivial

theorem chatRows_only (previous : Option Client.Broadcast) (messages : List Client.Broadcast) :
    (chatRows platform previous messages).Only P := by
  induction messages generalizing previous with
  | nil => trivial
  | cons message rest induction =>
      refine (chatRow_only quiet previous message).bind fun row => ?_
      cases row with
      | none => trivial
      | some row => exact (induction (some message)).bind fun _ => trivial

theorem chatPage_only {userID : ByteString}
    (history : ∀ asked : Query, asked.isHistory = true → P (.store (.query false asked))) :
    (chatPage platform userID).Only P := by
  refine (store_only (Store.sync_only _ _ history)).bind fun result => ?_
  cases result with
  | error error => trivial
  | ok messages =>
      dsimp only
      split
      · trivial
      · refine (store_only (Store.hasAvatar_only (lookups quiet) _)).bind fun _ => ?_
        refine (chatRows_only quiet _ _).bind fun rows => ?_
        cases rows with
        | none => trivial
        | some rows =>
            dsimp only
            split <;> trivial

theorem handleIndexOrLogin_only
    (puts : ∀ token user expiry, P (.putToken token user expiry))
    (history : identity.authenticated = true → ∀ asked : Query, asked.isHistory = true →
      P (.store (.query false asked))) :
    (handleIndexOrLogin platform request identity).Only P := by
  unfold handleIndexOrLogin
  split
  · exact handleLoginSubmit_only quiet puts
  · split
    · next authenticated => exact chatPage_only quiet (history authenticated)
    · trivial

theorem handleSettings_only : (handleSettings platform identity).Only P := by
  unfold handleSettings
  split
  · trivial
  · split
    · trivial
    · refine (store_only (Store.hasAvatar_only (lookups quiet) _)).bind fun _ => ?_
      split
      · trivial
      · unfold settingsFor
        split
        · refine (store_only (Store.listUsers_only (lookups quiet))).bind fun result => ?_
          cases result with
          | error error => trivial
          | ok users =>
              refine (store_only (Store.listAllAPIKeys_only (lookups quiet))).bind
                fun result => ?_
              cases result <;> trivial
        · trivial

theorem handleRuntimeEmotes_only : (handleRuntimeEmotes platform request).Only P := by
  unfold handleRuntimeEmotes
  dsimp only
  split
  · trivial
  · exact ⟨quiet _ rfl, fun _ => trivial⟩

theorem dispatch_only (route : Route)
    (permitted : ∀ op, route.permits identity op → P op) :
    (dispatch platform request identity route).Only P := by
  cases route with
  | registerUser => exact registerUser_only quiet fun op => permitted (.store op)
  | register =>
      exact handleRegisterSubmit_only quiet (fun op => permitted (.store op))
        fun _ _ _ => permitted _ trivial
  | getInvite =>
      exact getInvite_only quiet fun authenticated _ _ => permitted _ ⟨authenticated, rfl⟩
  | loginUser => exact loginUser_only quiet fun _ _ _ => permitted _ trivial
  | changePassword =>
      exact changePassword_only quiet fun named _ => permitted _ ⟨named, rfl⟩
  | sendMessage =>
      exact sendMessage_only quiet (fun named _ _ => permitted _ ⟨named, rfl⟩)
        fun named _ posted => permitted (.broadcast _) ⟨named, posted.isMessage⟩
  | streamMessages =>
      exact streamMessages_only quiet fun authenticated _ _ =>
        permitted (.register _) ⟨authenticated, rfl⟩
  | syncMessages =>
      exact syncMessages_only fun _ history => permitted (.store (.query false _)) history
  | adminCreateUser =>
      exact adminCreateUser_only quiet fun admin _ named => permitted _ ⟨admin, named, rfl⟩
  | adminListAPIKeys => exact adminListAPIKeys_only quiet
  | adminCreateAPIKey =>
      exact adminCreateAPIKey_only quiet fun admin _ _ _ named =>
        permitted _ ⟨admin, named, rfl⟩
  | adminRevokeAPIKey keyId =>
      exact adminRevokeAPIKey_only quiet fun admin _ =>
        permitted (.store (.exec false (.deleteAPIKey _))) admin
  | index =>
      exact handleIndexOrLogin_only quiet (fun _ _ _ => permitted _ trivial)
        fun authenticated _ history =>
          permitted (.store (.query false _)) ⟨history, authenticated⟩
  | settings => exact handleSettings_only quiet
  | logout => trivial
  | staticFiles => trivial
  | runtimeEmotes => exact handleRuntimeEmotes_only quiet
  | avatarUpload => exact handleAvatarUpload_only fun named _ => permitted _ ⟨named, rfl⟩
  | avatarGet => exact handleAvatarGet_only quiet
  | avatarGetUser => exact handleAvatarGetUser_only quiet
  | redirect path => trivial

end Handlers

theorem dispatch_posts (platform : Platform) (request : Request) (identity : Identity)
    (route : Route) :
    (dispatch platform request identity route).Only fun op => ∀ item, op = .broadcast item →
      identity.userID ≠ [] ∧ item.PostedBy platform.location identity.userID := by
  have silent : ∀ op : Op, op.isQuiet = true → ∀ item, op = .broadcast item →
      identity.userID ≠ [] ∧ item.PostedBy platform.location identity.userID := by
    intro op quiet item same
    rw [same] at quiet
    cases quiet
  by_cases sending : route = .sendMessage
  · subst sending
    apply sendMessage_only silent
    · intro named content timestamp item same
      cases same
    · intro named item posted other same
      cases same
      exact ⟨named, posted⟩
  · apply dispatch_only silent
    intro op permitted item same
    subst same
    cases route with
    | sendMessage => exact absurd rfl sending
    | _ => cases permitted

def Reaches (platform : Platform) (request : Request) (op : Op) : Prop :=
  op.isQuiet = true ∨ ∃ identity, (route platform request).permits identity op

theorem serve_posts (platform : Platform) (request : Request) :
    (serve platform request).Only fun op => ∀ item, op = .broadcast item →
      ∃ userID, userID ≠ [] ∧ item.PostedBy platform.location userID := by
  have silent : ∀ op : Op, op.isQuiet = true → ∀ item, op = .broadcast item →
      ∃ userID, userID ≠ [] ∧ item.PostedBy platform.location userID := by
    intro op quiet item same
    rw [same] at quiet
    cases quiet
  exact (authenticate_only silent).bind fun identity =>
    (dispatch_posts platform request identity _).mono fun op posts item same =>
      ⟨identity.userID, posts item same⟩

theorem serve_only (platform : Platform) (request : Request) :
    (serve platform request).Only (Reaches platform request) := by
  have quiet : ∀ op : Op, op.isQuiet = true → Reaches platform request op := fun _ => .inl
  exact (authenticate_only quiet).bind fun identity =>
    dispatch_only quiet _ fun op permitted => .inr ⟨identity, permitted⟩

end Grunt.Server
