import Grunt.Server.Avatars
import Grunt.Server.Delivery
import Grunt.Storage.Calls

/-! # The server's state and operations

The database, the session tokens, the hub and the emote table, and the steps
by which handlers and the loops of the process change them. A step is one
operation of the store, one section under a lock, one send on a channel or one
reading of the outside.
-/

namespace Grunt.Server

open Foundation

/-- What the server uses of the libraries and files around it. -/
structure Platform extends Storage.Libraries where
  emoteDir : ByteString
  /-- `emoteWatcher` is not `nil`. -/
  watchesEmotes : Bool
  /-- `staticFS` -/
  staticFile : ByteString → Option ByteString
  /-- What the image packages take for a colour. -/
  Color : Type
  images : ImagePackages Color
  /-- `BindQueryParameterWithOptions` for an optional `int64`. -/
  bindQueryInt64 : List ByteString → Except ByteString (Option Int)
  /-- `BindStyledParameterWithOptions` for an `int64` in the path. -/
  bindPathInt64 : ByteString → Except ByteString Int
  version : ByteString
  timestamp : ByteString
  commit : ByteString

/-- A platform one can run by hand, without files and without number parsing. -/
def Platform.transparent : Platform where
  toLibraries := Storage.Libraries.transparent
  emoteDir := []
  watchesEmotes := false
  staticFile := fun _ => none
  Color := ByteString
  images := .transparent
  bindQueryInt64 := fun _ => .ok none
  bindPathInt64 := fun _ => .error (utf8 "error binding string parameter")
  version := utf8 "dev"
  timestamp := []
  commit := []

/-- The alphabet that `gonanoid.Generate` is given. -/
def nanoidAlphabet : ByteString :=
  utf8 "_-0123456789abcdefghijklmnopqrstuvwxyzABCDEFGHIJKLMNOPQRSTUVWXYZ"

inductive Op
  | store (op : Storage.Op)
  /-- `gonanoid.Generate(nanoidAlphabet, size)` -/
  | nanoid (size : Nat)
  /-- `rand.Read` into `size` bytes -/
  | random (size : Nat)
  /-- The locked section of `GenerateToken`. -/
  | putToken (token userID : ByteString) (expiry : Instant)
  /-- The locked section of `ValidateToken`. -/
  | checkToken (token : ByteString)
  | broadcast (item : Item)
  | register (subscriber : Subscriber)
  /-- `writePump` has returned. -/
  | writePump
  /-- `ReplaceEmotes`, with the line feeds turned into breaks. -/
  | renderContent (content : ByteString)
  | readFile (path : ByteString)
deriving DecidableEq, Repr

namespace Op

def Result : Op → Type
  | .store op => op.Result
  | .nanoid _ => Except ByteString ByteString
  | .random _ => Except ByteString ByteString
  | .putToken _ _ _ => Unit
  | .checkToken _ => Option ByteString
  | .broadcast _ => Unit
  | .register _ => Unit
  | .writePump => Unit
  | .renderContent _ => ByteString
  | .readFile _ => Option ByteString

end Op

structure TokenEntry where
  userID : ByteString
  expiry : Instant
deriving DecidableEq, Repr

/-- `tokenStore.tokens` -/
abbrev TokenStore := ByteString → Option TokenEntry

structure World where
  store : Storage.World
  tokens : TokenStore
  hub : Hub
  emotes : EmoteTable
  files : ByteString → Option ByteString

namespace World

def tables (world : World) : Storage.Tables := world.store.database.committed

def setStore (world : World) (store : Storage.World) : World :=
  { world with store := store }

def setTokens (world : World) (tokens : TokenStore) : World :=
  { world with tokens := tokens }

def setHub (world : World) (hub : Hub) : World := { world with hub := hub }

def checkToken (token : ByteString) (world : World) : Option ByteString × World :=
  match world.tokens token with
  | none => (none, world)
  | some entry =>
      if entry.expiry < world.store.clock then
        (none, world.setTokens (Function.update world.tokens token none))
      else (some entry.userID, world)

end World

def drawn (suits : ByteString → Bool) (choice : Storage.Choice) :
    Option (Except ByteString ByteString) :=
  if choice.fault then some (.error (utf8 "unexpected EOF"))
  else if suits choice.random then some (.ok choice.random)
  else none

def suitsNanoid (size : Nat) (text : ByteString) : Bool :=
  text.length = size && text.all nanoidAlphabet.contains

def perform (platform : Platform) (thread : Nat) :
    (op : Op) → Storage.Choice → World → Option (op.Result × World)
  | .store op, choice, world =>
      (Storage.perform platform.toLibraries thread op choice world.store).map fun done =>
        (done.1, world.setStore done.2)
  | .nanoid size, choice, world =>
      (drawn (suitsNanoid size) choice).map fun result => (result, world)
  | .random size, choice, world =>
      (drawn (fun bytes => bytes.length = size) choice).map fun result => (result, world)
  | .putToken token userID expiry, _, world =>
      some ((), world.setTokens (Function.update world.tokens token (some ⟨userID, expiry⟩)))
  | .checkToken token, _, world => some (world.checkToken token)
  | .broadcast item, _, world =>
      (world.hub.send thread item).map fun hub => ((), world.setHub hub)
  | .register subscriber, _, world =>
      (world.hub.register thread subscriber).map fun hub => ((), world.setHub hub)
  | .writePump, _, world =>
      match world.hub.pumps thread with
      | some pump => if pump.phase = .exited then some ((), world) else none
      | none => none
  | .renderContent content, _, world => some (renderContent world.emotes content, world)
  | .readFile path, _, world => some (world.files path, world)

/-- What happens without a request. -/
inductive Happening
  | advance (elapsed : Nat)
  /-- A step of `Run` or of a write pump. The flag makes its query fail. -/
  | hub (event : HubEvent) (fault : Bool)
  /-- The emote watcher rescans the directory. -/
  | reload (entries : Option (List DirEntry))
  | files (files : ByteString → Option ByteString)
  /-- `NewWithPort` creates the initial invite, as there are no users. -/
  | coldStart (code : ByteString)

namespace World

/-- `HasAvatar`, as `Run` calls it. -/
def hasAvatar (world : World) (fault : Bool) (userID : ByteString) : Bool :=
  !fault &&
    match (world.tables.users.find userID).bind Storage.UserRow.avatar with
    | some avatar => !avatar.isEmpty
    | none => false

def surroundings (platform : Platform) (world : World) (fault : Bool) : Surroundings where
  location := platform.location
  emotes := world.emotes
  now := world.store.clock
  hasAvatar := world.hasAvatar fault

def inviteLifetime : Int := 10 * Calendar.minute

def coldStart (code : ByteString) (world : World) : Option World :=
  if world.tables.users.rows = [] then
    match world.store.exec 0 false (.insertInvite code
        (Calendar.unixSeconds (world.store.clock + inviteLifetime)) []) false with
    | some (_, store) => some (world.setStore store)
    | none => none
  else none

def restart (world : World) : World where
  store := world.store.recover
  tokens := fun _ => none
  hub := Hub.start
  emotes := world.emotes
  files := world.files

end World

def environment (platform : Platform) : Happening → World → Option World
  | .advance elapsed, world => some (world.setStore (world.store.advance elapsed))
  | .hub event fault, world =>
      (world.hub.happen (world.surroundings platform fault) event).map world.setHub
  | .reload entries, world =>
      some { world with emotes := scanImageEmotes entries world.emotes }
  | .files files, world => some { world with files := files }
  | .coldStart code, world => world.coldStart code

def machine (platform : Platform) :
    Machine Op Op.Result World Storage.Choice Happening where
  perform := perform platform
  environment := environment platform
  restart := World.restart

/-- The server on tables it has opened, before the first request. -/
def World.start (tables : Storage.Tables) (clock : Instant) : World where
  store := ⟨⟨tables, none⟩, clock⟩
  tokens := fun _ => none
  hub := Hub.start
  emotes := EmoteTable.builtin
  files := fun _ => none

abbrev ServerProgram := Program Op Op.Result

def store {α : Type} (method : Storage.StoreProgram α) : ServerProgram α :=
  method.embed Op.store fun _ result => result

end Grunt.Server
