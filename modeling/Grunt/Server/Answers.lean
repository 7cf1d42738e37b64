import Grunt.Server.Callers
import Grunt.Server.Filed
import Grunt.Server.PageRows
import Grunt.Storage.Newest

/-! # What a request has read of the messages

The history that `SyncMessages` sends and the rows of the page are what one
query has answered.
-/

namespace Grunt.Server

open Foundation Storage

def answers (limit : Nat) (performed : List (Performed Op Op.Result)) :
    List (Except SqlError (List (Nat × MessageRow))) :=
  performed.filterMap fun performed =>
    match performed with
    | ⟨_, .store (.query false (.lastMessages since asked)), result⟩ =>
        if since = 0 ∧ asked = limit then some result else none
    | _ => none

section Answers

variable {platform : Platform} {request : Request} {identity : Identity} {limit : Nat}
variable {thread : Nat} {seen : List (Performed Op Op.Result)}

theorem answers_append (limit : Nat) (first second : List (Performed Op Op.Result)) :
    answers limit (first ++ second) = answers limit first ++ answers limit second :=
  List.filterMap_append

abbrev newestQuery (limit : Nat) : Op := .store (.query false (.lastMessages 0 limit))

theorem answers_snoc (limit thread : Nat) (seen : List (Performed Op Op.Result))
    (result : Except SqlError (List (Nat × MessageRow))) :
    answers limit (seen ++ [⟨thread, newestQuery limit, result⟩]) =
      answers limit seen ++ [result] := by
  rw [answers_append]
  congr 1
  rw [answers, List.filterMap_cons]
  dsimp only
  rw [if_pos ⟨rfl, rfl⟩]
  rfl

theorem mem_answers {thread : Nat} {performed : List (Performed Op Op.Result)}
    {result : Except SqlError (List (Nat × MessageRow))}
    (member : ⟨thread, newestQuery limit, result⟩ ∈ performed) :
    result ∈ answers limit performed :=
  List.mem_filterMap.mpr ⟨_, member, if_pos ⟨rfl, rfl⟩⟩

theorem answers_of_isQuiet {op : Op} (quiet : op.isQuiet = true) (result : op.Result) :
    answers limit [⟨thread, op, result⟩] = [] := by
  cases op with
  | store op =>
      cases op with
      | query inTx asked =>
          cases inTx with
          | true => rfl
          | false =>
              cases asked with
              | lastMessages since asked => cases quiet
              | inviteExpiry | passwordHash | isAdmin | avatar | userCount | messagesSince
                | apiKeyOwner | apiKeys | users => rfl
      | begin | exec | commit | rollback | now | bcrypt => rfl
  | nanoid | random | putToken | checkToken | broadcast | register | writePump | renderContent
    | readFile => rfl

theorem answers_of_quiet {α : Type} {program : ServerProgram α}
    (only : program.Only fun op => op.isQuiet = true)
    {known : List (Except SqlError (List (Nat × MessageRow)))} (same : answers limit seen = known) :
    Sends thread (fun value later => answers limit later = known ∧ program.Returns value)
      program seen := by
  apply Machine.Obeys.and_returns
  apply Machine.obeys_of_only only (fun _ _ _ _ => trivial) _ same
  intro op result later quiet kept
  rw [answers_append, answers_of_isQuiet quiet, kept, List.append_nil]

theorem eval_of_answers {op : Op} {result : op.Result} {choice : Storage.Choice}
    {world reached : World}
    (performed : perform platform thread op choice world = some (result, reached))
    {rows : List (Nat × MessageRow)}
    (answer : .ok rows ∈ answers limit [⟨thread, op, result⟩]) :
    rows.map Prod.fst = answered 0 limit world.tables := by
  rcases List.mem_filterMap.mp answer with ⟨entry, member, noted⟩
  rw [List.mem_singleton] at member
  subst member
  split at noted
  case h_2 => cases noted
  case h_1 since asked found same =>
    cases same
    split at noted
    case isFalse => cases noted
    case isTrue newest =>
      rcases newest with ⟨rfl, rfl⟩
      cases noted
      rw [← Storage.perform_query (perform_store performed)]
      rfl

theorem answered_of_next {config after : ServerConfig} {event : ServerEvent}
    (taken : next platform config event = some after) {rows : List (Nat × MessageRow)}
    (answer : .ok rows ∈ answers limit (after.scene.own thread)) :
    .ok rows ∈ answers limit (config.scene.own thread) ∨
      rows.map Prod.fst = answered 0 limit config.scene.world.tables := by
  by_cases own : ∃ choice, event = .step thread choice
  · rcases own with ⟨choice, rfl⟩
    rcases Machine.next_step taken with ⟨request, op, rest, result, scene, -, observed, rfl⟩
    have history : (Config.set { config with scene := scene } thread
        (.running request (rest result))).scene.own thread =
        config.scene.own thread ++ [⟨thread, op, result⟩] := Machine.own_of_observe observed
    rw [history, answers_append] at answer
    rcases List.mem_append.mp answer with old | new
    · exact .inl old
    · exact .inr (eval_of_answers (Machine.observe_eq_some.mp observed).1 new)
  · rw [Machine.own_of_next (fun choice same => own ⟨choice, same⟩) taken] at answer
    exact .inl answer

/-! ## The history -/

def SentHistory (platform : Platform) (request : Request) (response : Response)
    (performed : List (Performed Op Op.Result)) : Prop :=
  route platform request = .syncMessages → ∀ limit : Nat, 0 < limit →
    syncParameters platform request = .ok (none, some (limit : Int)) →
    ∀ headers messages, response = .sent 200 headers (.json (.broadcasts messages)) →
      ∃ rows, .ok rows ∈ answers limit performed ∧ messages = rows.map syncedMessage

theorem sync_sends (positive : 0 < limit)
    {known : List (Except SqlError (List (Nat × MessageRow)))} (same : answers limit seen = known) :
    Sends thread (fun result later => ∀ rows, result = .ok rows →
      answers limit later = known ++ [.ok rows]) (store (Store.sync 0 (limit : Int))) seen := by
  have above : (0 : Int) < limit := Int.natCast_pos.mpr positive
  rw [Store.sync, if_pos above, Int.toNat_natCast]
  refine ⟨trivial, fun result => ?_⟩
  have noted := answers_snoc limit thread seen result
  rw [same] at noted
  cases result with
  | error error =>
      intro rows impossible
      cases impossible
  | ok answered =>
      intro rows answer
      cases answer
      exact noted

theorem syncMessages_sends :
    Sends thread (SentHistory platform request) (syncMessages platform request) seen := by
  by_cases asked : ∃ limit : Nat, 0 < limit ∧
      syncParameters platform request = .ok (none, some (limit : Int))
  · rcases asked with ⟨limit, positive, parameters⟩
    rw [syncMessages, parameters]
    apply (sync_sends positive rfl).bind
    intro result later known
    cases result with
    | error error =>
        intro _ _ _ _ headers messages impossible
        cases impossible
    | ok rows =>
        intro _ other _ same headers messages sent
        rw [parameters] at same
        cases same
        cases sent
        refine ⟨rows, ?_, rfl⟩
        rw [known rows rfl]
        exact List.mem_append_right _ (List.mem_singleton_self _)
  · apply sends_of_all
    intro response later _ limit positive parameters
    exact absurd ⟨limit, positive, parameters⟩ asked

theorem serve_sendsHistory (request : Request) :
    Sends thread (SentHistory platform request) (serve platform request) [] := by
  have any : Sends thread (fun _ _ => True) (authenticate platform request) [] :=
    sends_of_all (fun _ _ => trivial) _
  apply any.bind
  intro identity later _
  by_cases syncing : route platform request = .syncMessages
  · rw [syncing]
    exact syncMessages_sends
  · apply sends_of_all
    intro response later other
    exact absurd other syncing

/-! ## The page -/

def LoadedRows (platform : Platform) (request : Request) (response : Response)
    (performed : List (Performed Op Op.Result)) : Prop :=
  route platform request = .index → isMethod "POST" request = false →
    ∀ headers data, response = .sent 200 headers (.chat data) →
      ∃ rows, answers 50 performed = [.ok rows] ∧
        data.messages.map MessageTemplateData.id = rows.map Prod.fst

theorem RowsFor.ids {location : Location} {previous : Option Client.Broadcast}
    {dated : List (Client.Broadcast × Instant)} {rows : List MessageTemplateData}
    (isPage : RowsFor location previous dated rows) :
    rows.map MessageTemplateData.id = dated.map fun message => message.1.id := by
  induction isPage with
  | nil => rfl
  | cons isRow _ induction => rw [List.map_cons, List.map_cons, isRow.id, induction]

theorem ids_of_chatRows {messages : List (Nat × MessageRow)} {rows : List MessageTemplateData}
    (loaded : (chatRows platform none (messages.map syncedMessage)).Returns (some rows)) :
    rows.map MessageTemplateData.id = messages.map Prod.fst := by
  rcases chatRows_returns loaded with ⟨dated, same, isPage⟩
  calc rows.map MessageTemplateData.id
      = (dated.map Prod.fst).map Client.Broadcast.id := by
        rw [isPage.ids, List.map_map]
        rfl
    _ = messages.map Prod.fst := by
        rw [same, List.map_map]
        rfl

theorem chatPage_sends {userID : ByteString} (nothing : answers 50 seen = []) :
    Sends thread (fun response later => ∀ headers data,
      response = .sent 200 headers (.chat data) → ∃ rows, answers 50 later = [.ok rows] ∧
        data.messages.map MessageTemplateData.id = rows.map Prod.fst)
      (chatPage platform userID) seen := by
  have quiet : ∀ op : Op, op.isQuiet = true → op.isQuiet = true := fun _ => id
  have positive : 0 < 50 := by decide
  apply (sync_sends positive nothing).bind
  intro result later known
  cases result with
  | error error =>
      intro headers data impossible
      cases impossible
  | ok messages =>
      have answered := known messages rfl
      dsimp only
      split
      · intro headers data impossible
        cases impossible
      · have pictures : (store (Store.hasAvatar userID)).Only fun op => op.isQuiet = true :=
          store_only (Store.hasAvatar_only (lookups quiet) userID)
        apply (answers_of_quiet pictures answered).bind
        intro hasAvatar later answered
        apply (answers_of_quiet (chatRows_only quiet none _) answered.1).bind
        intro rows later answered
        cases rows with
        | none =>
            intro headers data impossible
            cases impossible
        | some rows =>
            dsimp only
            split
            · intro headers data impossible
              cases impossible
            · intro headers data sent
              cases sent
              exact ⟨messages, answered.1, ids_of_chatRows answered.2⟩

theorem serve_loadsRows (request : Request) :
    Sends thread (LoadedRows platform request) (serve platform request) [] := by
  have quiet : ∀ op : Op, op.isQuiet = true → op.isQuiet = true := fun _ => id
  have nothing : answers 50 [] = [] := rfl
  apply (answers_of_quiet (authenticate_only quiet) nothing).bind
  intro identity later answered
  by_cases index : route platform request = .index
  · rw [index]
    by_cases posting : isMethod "POST" request = true
    · apply sends_of_all
      intro response later _ getting
      rw [posting] at getting
      cases getting
    · have getting : ¬ (isMethod "POST" request = true ∧ request.path = utf8 "/login") :=
        fun login => posting login.1
      rw [dispatch, handleIndexOrLogin, if_neg getting]
      split
      · apply (chatPage_sends answered.1).mono
        intro response later loaded _ _
        exact loaded
      · intro _ _ headers data impossible
        cases impossible
  · apply sends_of_all
    intro response later other
    exact absurd other index

end Answers

end Grunt.Server
