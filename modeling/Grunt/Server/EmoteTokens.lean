import Grunt.Server.EmoteMap
import Grunt.Server.Html

/-! # Emote tokens

What the replacement of emotes is for, on the text as the user wrote it: the
text is cut into tokens and the runs between them, every run is escaped, and
every token that the map knows is replaced. The server escapes first and looks
for tokens in the result.
-/

namespace Grunt.Server

open Foundation

/-! ## Cutting a text -/

inductive Segment
  | plain (run : ByteString)
  | token (name : ByteString)
deriving DecidableEq, Repr

namespace Segment

def raw : Segment → ByteString
  | plain run => run
  | token name => colonByte :: name ++ [colonByte]

def rendered (map : EmoteMap) : Segment → ByteString
  | plain run => Bytes.escape htmlEscapeTable run
  | token name =>
      (map name).getD (Bytes.escape htmlEscapeTable (colonByte :: name ++ [colonByte]))

end Segment

def tokenAt : ByteString → Option (ByteString × ByteString)
  | [] => none
  | byte :: rest =>
      let name := rest.takeWhile isNameByte
      let after := rest.dropWhile isNameByte
      if byte = colonByte ∧ name ≠ [] ∧ after.head? = some colonByte then
        some (name, after.tail)
      else none

def plainByte (byte : UInt8) : List Segment → List Segment
  | .plain run :: rest => .plain (byte :: run) :: rest
  | rest => .plain [byte] :: rest

theorem length_of_tokenAt {text name after : ByteString}
    (found : tokenAt text = some (name, after)) : after.length < text.length := by
  cases text with
  | nil => cases found
  | cons byte rest =>
      dsimp only [tokenAt] at found
      split at found
      case isTrue =>
        cases found
        have dropped : (rest.dropWhile isNameByte).length ≤ rest.length :=
          List.length_dropWhile_le _ rest
        simp only [List.length_tail, List.length_cons]
        omega
      case isFalse => cases found

/-- The leftmost tokens of a text and the runs between them. -/
def segments : ByteString → List Segment
  | [] => []
  | byte :: rest =>
      match _found : tokenAt (byte :: rest) with
      | some (name, after) => .token name :: segments after
      | none => plainByte byte (segments rest)
termination_by text => text.length
decreasing_by
  · exact length_of_tokenAt _found
  · exact Nat.lt_succ_self _

theorem segments_of_token {text name after : ByteString}
    (found : tokenAt text = some (name, after)) :
    segments text = .token name :: segments after := by
  cases text with
  | nil => cases found
  | cons byte rest =>
      rw [segments]
      split
      case h_1 other rest same =>
        rw [found] at same
        cases same
        rfl
      case h_2 unfound =>
        rw [found] at unfound
        cases unfound

theorem segments_of_plain {byte : UInt8} {rest : ByteString}
    (unfound : tokenAt (byte :: rest) = none) :
    segments (byte :: rest) = plainByte byte (segments rest) := by
  rw [segments]
  split
  case h_1 found =>
    rw [unfound] at found
    cases found
  case h_2 => rfl

theorem segments_induction {motive : ByteString → Prop} (nil : motive [])
    (token : ∀ text name after, tokenAt text = some (name, after) → motive after → motive text)
    (plain : ∀ byte rest, tokenAt (byte :: rest) = none → motive rest → motive (byte :: rest))
    (text : ByteString) : motive text := by
  induction text using segments.induct with
  | case1 => exact nil
  | case2 byte rest name after found induction => exact token _ name after found induction
  | case3 byte rest unfound induction => exact plain byte rest unfound induction

/-! ## Tokens and names -/

theorem colonByte_not_name : isNameByte colonByte = false := by decide

theorem tokenAt_eq_some_iff {text name after : ByteString} :
    tokenAt text = some (name, after) ↔
      text = colonByte :: name ++ colonByte :: after ∧ name ≠ [] ∧
        ∀ byte ∈ name, isNameByte byte = true := by
  constructor
  · intro found
    cases text with
    | nil => cases found
    | cons byte rest =>
        dsimp only [tokenAt] at found
        split at found
        case isFalse => cases found
        case isTrue holds =>
          rcases holds with ⟨rfl, nonempty, closed⟩
          cases found
          refine ⟨?_, nonempty, fun byte member => List.mem_takeWhile_imp member⟩
          have whole := List.takeWhile_append_dropWhile (p := isNameByte) (l := rest)
          have tail := List.cons_head?_tail closed
          rw [List.cons_append, tail, whole]
  · rintro ⟨rfl, nonempty, valid⟩
    have taken : (name ++ colonByte :: after).takeWhile isNameByte = name := by
      rw [List.takeWhile_append_of_pos valid, List.takeWhile_cons, colonByte_not_name]
      simp
    have dropped : (name ++ colonByte :: after).dropWhile isNameByte = colonByte :: after := by
      rw [List.dropWhile_append_of_pos valid, List.dropWhile_cons, colonByte_not_name]
      simp
    rw [List.cons_append]
    simp only [tokenAt, taken, dropped]
    simp [nonempty]

/-! ## The search for tokens -/

section Search

variable (table : EmoteTable)

def tokenValue (name : ByteString) : ByteString :=
  ((table name).map Emote.html).getD (colonByte :: name ++ [colonByte])

theorem replaceFrom_name {run : ByteString} (valid : ∀ byte ∈ run, isNameByte byte = true)
    (name text : ByteString) :
    replaceFrom table (some name) (run ++ text) = replaceFrom table (some (name ++ run)) text := by
  induction run generalizing name with
  | nil => rw [List.append_nil, List.nil_append]
  | cons byte run induction =>
      have named := valid byte List.mem_cons_self
      have different : byte ≠ colonByte := by
        intro same
        rw [same, colonByte_not_name] at named
        cases named
      rw [List.cons_append, replaceFrom, if_neg different, if_pos named,
        induction fun other member => valid other (List.mem_cons_of_mem byte member),
        List.append_assoc, List.singleton_append]

theorem replaceFrom_run {run : ByteString} (free : colonByte ∉ run) (text : ByteString) :
    replaceFrom table none (run ++ text) = run ++ replaceFrom table none text := by
  induction run with
  | nil => rfl
  | cons byte run induction =>
      rw [List.mem_cons, not_or] at free
      rw [List.cons_append, replaceFrom, if_neg (Ne.symm free.1), induction free.2,
        List.cons_append]

theorem colonByte_not_mem_name {run : ByteString}
    (valid : ∀ byte ∈ run, isNameByte byte = true) : colonByte ∉ run := by
  intro member
  have named := valid colonByte member
  rw [colonByte_not_name] at named
  cases named

theorem replaceFrom_token {text name after : ByteString}
    (found : tokenAt text = some (name, after)) :
    replaceFrom table none text = tokenValue table name ++ replaceFrom table none after := by
  rcases tokenAt_eq_some_iff.mp found with ⟨rfl, nonempty, valid⟩
  rw [List.cons_append, replaceFrom, if_pos rfl, replaceFrom_name table valid, replaceFrom,
    if_pos rfl, List.nil_append, if_neg nonempty, tokenValue]
  cases table name <;> rfl

theorem replaceFrom_colon {text : ByteString} (unfound : tokenAt (colonByte :: text) = none) :
    replaceFrom table none (colonByte :: text) = colonByte :: replaceFrom table none text := by
  have whole := List.takeWhile_append_dropWhile (p := isNameByte) (l := text)
  have valid : ∀ byte ∈ text.takeWhile isNameByte, isNameByte byte = true :=
    fun byte member => List.mem_takeWhile_imp member
  have kept := replaceFrom_run table (colonByte_not_mem_name valid)
  rw [replaceFrom, if_pos rfl]
  cases behind : text.dropWhile isNameByte with
  | nil =>
      rw [behind] at whole
      rw [← whole, replaceFrom_name table valid, kept, replaceFrom, replaceFrom,
        List.nil_append, List.append_nil]
  | cons byte after =>
      have ends : isNameByte byte = false := by
        have head := List.head_dropWhile_not isNameByte (l := text) (by rw [behind]; simp)
        simpa only [behind, List.head_cons] using head
      rw [behind] at whole
      rw [← whole, replaceFrom_name table valid, List.nil_append, kept]
      by_cases colon : byte = colonByte
      · -- the run must be empty, for the two colons would enclose a token
        have empty : text.takeWhile isNameByte = [] := by
          by_contra nonempty
          rw [tokenAt, if_pos ⟨rfl, nonempty, by rw [behind, colon]; rfl⟩] at unfound
          cases unfound
        rw [empty, List.nil_append, replaceFrom, if_pos colon, replaceFrom, if_pos colon,
          if_pos rfl]
      · rw [replaceFrom, if_neg colon, replaceFrom, if_neg colon, ends,
          if_neg Bool.false_ne_true, List.cons_append]

end Search

/-! ## Escaping moves no token -/

theorem htmlEscapeTable_colonByte : htmlEscapeTable colonByte = none := by decide

theorem head_of_htmlEscapeTable {byte : UInt8} {piece : ByteString}
    (escaped : htmlEscapeTable byte = some piece) :
    ∃ head tail, piece = head :: tail ∧ isNameByte head = false ∧ head ≠ colonByte := by
  unfold htmlEscapeTable at escaped
  split at escaped <;> cases escaped <;> exact ⟨_, _, rfl, by decide, by decide⟩

theorem colonByte_not_mem_htmlEscapeTable {byte : UInt8} {piece : ByteString}
    (escaped : htmlEscapeTable byte = some piece) : colonByte ∉ piece := by
  unfold htmlEscapeTable at escaped
  split at escaped <;> cases escaped <;> decide

theorem eq_cons_of_escape {text after : ByteString} {byte : UInt8}
    (inside : isNameByte byte = true ∨ byte = colonByte)
    (escaped : Bytes.escape htmlEscapeTable text = byte :: after) :
    ∃ rest, text = byte :: rest ∧ Bytes.escape htmlEscapeTable rest = after := by
  cases text with
  | nil => cases escaped
  | cons head rest =>
      rw [Bytes.escape_cons] at escaped
      cases found : htmlEscapeTable head with
      | none =>
          rw [found] at escaped
          cases escaped
          exact ⟨rest, rfl, rfl⟩
      | some piece =>
          rcases head_of_htmlEscapeTable found with ⟨first, tail, rfl, unnamed, uncolon⟩
          rw [found] at escaped
          cases escaped
          rcases inside with named | colon
          · rw [unnamed] at named
            cases named
          · exact absurd colon uncolon

theorem eq_append_of_escape {name : ByteString} (valid : ∀ byte ∈ name, isNameByte byte = true)
    {text after : ByteString} (escaped : Bytes.escape htmlEscapeTable text = name ++ after) :
    ∃ rest, text = name ++ rest ∧ Bytes.escape htmlEscapeTable rest = after := by
  induction name generalizing text with
  | nil => exact ⟨text, rfl, escaped⟩
  | cons byte name induction =>
      rcases eq_cons_of_escape (.inl (valid byte List.mem_cons_self)) escaped with
        ⟨rest, rfl, remains⟩
      rcases induction (fun other member => valid other (List.mem_cons_of_mem byte member))
        remains with ⟨rest, rfl, behind⟩
      exact ⟨rest, rfl, behind⟩

theorem tokenAt_escape_of_some {text name after : ByteString}
    (found : tokenAt text = some (name, after)) :
    tokenAt (Bytes.escape htmlEscapeTable text) =
      some (name, Bytes.escape htmlEscapeTable after) := by
  rcases tokenAt_eq_some_iff.mp found with ⟨rfl, nonempty, valid⟩
  apply tokenAt_eq_some_iff.mpr
  refine ⟨?_, nonempty, valid⟩
  rw [Bytes.escape_append, Bytes.escape_cons, Bytes.escape_cons, htmlEscapeTable_colonByte,
    escape_of_isNameByte valid]
  rfl

theorem tokenAt_escape_of_none {text : ByteString} (unfound : tokenAt text = none) :
    tokenAt (Bytes.escape htmlEscapeTable text) = none := by
  cases found : tokenAt (Bytes.escape htmlEscapeTable text) with
  | none => rfl
  | some token =>
      rcases token with ⟨name, after⟩
      rcases tokenAt_eq_some_iff.mp found with ⟨escaped, nonempty, valid⟩
      rcases eq_cons_of_escape (.inr rfl) escaped with ⟨rest, rfl, remains⟩
      rcases eq_append_of_escape valid remains with ⟨rest, rfl, behind⟩
      rcases eq_cons_of_escape (.inr rfl) behind with ⟨rest, rfl, -⟩
      have token : tokenAt (colonByte :: name ++ colonByte :: rest) = some (name, rest) :=
        tokenAt_eq_some_iff.mpr ⟨rfl, nonempty, valid⟩
      rw [← List.cons_append, token] at unfound
      cases unfound

/-! ## The replacement meets its purpose -/

theorem flatMap_plainByte (map : EmoteMap) (byte : UInt8) (parts : List Segment) :
    (plainByte byte parts).flatMap (Segment.rendered map) =
      (htmlEscapeTable byte).getD [byte] ++ parts.flatMap (Segment.rendered map) := by
  unfold plainByte
  split
  · rw [List.flatMap_cons, List.flatMap_cons, Segment.rendered, Bytes.escape_cons,
      Segment.rendered, List.append_assoc]
  · rw [List.flatMap_cons, Segment.rendered, Bytes.escape_cons, Bytes.escape_nil,
      List.append_nil]

theorem tokenValue_eq {table : EmoteTable} {name : ByteString}
    (valid : ∀ byte ∈ name, isNameByte byte = true) :
    tokenValue table name = (Segment.token name).rendered (EmoteMap.ofTable table) := by
  rw [tokenValue, Segment.rendered, Bytes.escape_append, Bytes.escape_cons, Bytes.escape_cons,
    htmlEscapeTable_colonByte, escape_of_isNameByte valid]
  rfl

/-- Escaping first and replacing afterwards is replacing the tokens of the text
as it was written, and escaping the rest. -/
theorem replaceEmotes_eq (table : EmoteTable) (text : ByteString) :
    replaceEmotes table text =
      (segments text).flatMap (Segment.rendered (EmoteMap.ofTable table)) := by
  unfold replaceEmotes
  induction text using segments_induction with
  | nil => rw [segments]; rfl
  | token text name after found induction =>
      have valid := (tokenAt_eq_some_iff.mp found).2.2
      rw [replaceFrom_token table (tokenAt_escape_of_some found), segments_of_token found,
        List.flatMap_cons, induction, tokenValue_eq valid]
  | plain byte rest unfound induction =>
      rw [segments_of_plain unfound, flatMap_plainByte, ← induction]
      have escapedUnfound := tokenAt_escape_of_none unfound
      by_cases colon : byte = colonByte
      · subst colon
        rw [Bytes.escape_cons, htmlEscapeTable_colonByte] at escapedUnfound ⊢
        exact replaceFrom_colon table escapedUnfound
      · rw [Bytes.escape_cons]
        apply replaceFrom_run
        cases found : htmlEscapeTable byte with
        | none => exact fun member => colon (List.mem_singleton.mp member).symm
        | some piece => exact colonByte_not_mem_htmlEscapeTable found

/-! ## What the map holds -/

def imgTag (name : ByteString) (extension : ImageExtension) : ByteString :=
  utf8 "<img src=\"/emotes/" ++ name ++ extension.text ++ utf8 "\" alt=\":" ++ name ++
    utf8 ":\" class=\"emote\">"

def IsImgTag (value : ByteString) : Prop :=
  ∃ (name : EmoteName) (extension : ImageExtension), value = imgTag name.text extension

def EmoteTable.WellNamed (table : EmoteTable) : Prop :=
  ∀ name emote, table name = some emote →
    emote = .smile ∨ emote = .heart ∨
      ∃ image extension, emote = .image image extension ∧ image.text = name

theorem EmoteTable.wellNamed_builtin : EmoteTable.builtin.WellNamed := by
  intro name emote found
  unfold builtin at found
  split at found
  · cases found
    exact .inl rfl
  · split at found
    · cases found
      exact .inr (.inl rfl)
    · cases found

theorem wellNamed_scanImageEmotes {table : EmoteTable} (named : table.WellNamed)
    (entries : Option (List DirEntry)) : (scanImageEmotes entries table).WellNamed := by
  cases entries with
  | none => exact named
  | some entries =>
      intro name emote found
      dsimp only [scanImageEmotes] at found
      split at found
      case h_1 other loads =>
        cases found
        rcases image_of_loadedEmotes loads with ⟨-, -, image, -, same, rfl⟩
        exact .inr (.inr ⟨image.1, image.2, rfl, same⟩)
      case h_2 =>
        split at found
        · exact named name emote found
        · cases found

theorem wellNamed_scanned (scans : List (Option (List DirEntry))) :
    (EmoteTable.scanned scans).WellNamed := by
  induction scans using List.reverseRecOn with
  | nil => exact EmoteTable.wellNamed_builtin
  | append_singleton scans entries induction =>
      unfold EmoteTable.scanned at induction ⊢
      rw [List.foldl_append]
      exact wellNamed_scanImageEmotes induction entries

/-! ## What the rendering of a text is made of -/

/-- `<`, `>` and `"` -/
def isMarkup (byte : UInt8) : Bool := byte = 60 || byte = 62 || byte = 34

/-- The pieces between which a rendered text may be cut: images, breaks, and
texts without markup. -/
def SafePiece (piece : ByteString) : Prop :=
  IsImgTag piece ∨ piece = utf8 "<br>" ∨ ∀ byte ∈ piece, isMarkup byte = false

def MadeOfSafe (text : ByteString) : Prop :=
  ∃ pieces : List ByteString, text = pieces.flatten ∧ ∀ piece ∈ pieces, SafePiece piece

namespace MadeOfSafe

theorem nil : MadeOfSafe [] := ⟨[], rfl, fun _ member => absurd member List.not_mem_nil⟩

theorem single {piece : ByteString} (safe : SafePiece piece) : MadeOfSafe piece :=
  ⟨[piece], by simp, fun other member => by rw [List.mem_singleton.mp member]; exact safe⟩

theorem append {left right : ByteString} (first : MadeOfSafe left) (second : MadeOfSafe right) :
    MadeOfSafe (left ++ right) := by
  rcases first with ⟨before, rfl, beforeSafe⟩
  rcases second with ⟨after, rfl, afterSafe⟩
  refine ⟨before ++ after, List.flatten_append.symm, fun piece member => ?_⟩
  rcases List.mem_append.mp member with member | member
  · exact beforeSafe piece member
  · exact afterSafe piece member

theorem flatMap {element : Type} {elements : List element} {render : element → ByteString}
    (each : ∀ value ∈ elements, MadeOfSafe (render value)) :
    MadeOfSafe (elements.flatMap render) := by
  induction elements with
  | nil => exact nil
  | cons value elements induction =>
      exact append (each value List.mem_cons_self)
        (induction fun other member => each other (List.mem_cons_of_mem value member))

end MadeOfSafe

def lineBreakTable (byte : UInt8) : Option ByteString :=
  if byte = Bytes.lineFeed then some (utf8 "<br>") else none

theorem renderContent_eq (emotes : EmoteTable) (content : ByteString) :
    renderContent emotes content =
      (segments content).flatMap fun segment =>
        Bytes.escape lineBreakTable (segment.rendered (EmoteMap.ofTable emotes)) := by
  have broken : renderContent emotes content =
      Bytes.escape lineBreakTable (replaceEmotes emotes content) := rfl
  rw [broken, replaceEmotes_eq]
  unfold Bytes.escape
  rw [List.flatMap_assoc]

theorem isMarkup_of_htmlEscapeTable {byte : UInt8} :
    ∀ other ∈ (htmlEscapeTable byte).getD [byte], isMarkup other = false := by
  have values : ∀ value : Fin 256, ((htmlEscapeTable (UInt8.ofFin value)).getD
      [UInt8.ofFin value]).all (fun other => !isMarkup other) = true := by
    decide +kernel
  intro other member
  have each := List.all_eq_true.mp (values byte.toFin) other member
  exact Bool.not_eq_true' _ ▸ each

theorem madeOfSafe_byte (byte : UInt8) :
    MadeOfSafe (Bytes.escape lineBreakTable ((htmlEscapeTable byte).getD [byte])) := by
  apply MadeOfSafe.flatMap
  intro other member
  apply MadeOfSafe.single
  unfold lineBreakTable
  split
  · exact .inr (.inl rfl)
  · refine .inr (.inr fun inner inside => ?_)
    rw [List.mem_singleton.mp inside]
    exact isMarkup_of_htmlEscapeTable other member

theorem madeOfSafe_escape (run : ByteString) :
    MadeOfSafe (Bytes.escape lineBreakTable (Bytes.escape htmlEscapeTable run)) := by
  induction run with
  | nil => exact MadeOfSafe.nil
  | cons byte run induction =>
      rw [Bytes.escape_cons, Bytes.escape_append]
      exact MadeOfSafe.append (madeOfSafe_byte byte) induction

theorem lineFeed_not_mem_html (emote : Emote) : Bytes.lineFeed ∉ emote.html := by
  cases emote with
  | smile => decide
  | heart => decide
  | image name extension =>
      have unnamed : isNameByte Bytes.lineFeed = false := by decide
      have nameFree : Bytes.lineFeed ∉ name.text := by
        intro member
        rw [name.valid _ member] at unnamed
        cases unnamed
      have extensionFree : Bytes.lineFeed ∉ extension.text := by
        cases extension <;> decide
      simp only [Emote.html, List.mem_append, nameFree, extensionFree, or_false]
      decide

theorem escape_html (emote : Emote) :
    Bytes.escape lineBreakTable emote.html = emote.html := by
  apply Bytes.escape_of_unlisted
  intro byte member
  apply if_neg
  intro same
  exact lineFeed_not_mem_html emote (same ▸ member)

theorem safePiece_of_all {piece : ByteString}
    (unmarked : piece.all (fun byte => isMarkup byte = false) = true) : SafePiece piece :=
  .inr (.inr fun byte member => of_decide_eq_true (List.all_eq_true.mp unmarked byte member))

theorem safePiece_html (emote : Emote) : SafePiece emote.html := by
  cases emote with
  | smile => exact safePiece_of_all (by decide)
  | heart => exact safePiece_of_all (by decide)
  | image name extension => exact .inl ⟨name, extension, rfl⟩

theorem madeOfSafe_rendered (table : EmoteTable) (segment : Segment) :
    MadeOfSafe (Bytes.escape lineBreakTable
      (segment.rendered (EmoteMap.ofTable table))) := by
  cases segment with
  | plain run => exact madeOfSafe_escape run
  | token name =>
      rw [Segment.rendered, EmoteMap.ofTable]
      cases table name with
      | none => exact madeOfSafe_escape _
      | some emote =>
          rw [Option.map_some, Option.getD_some, escape_html]
          exact MadeOfSafe.single (safePiece_html emote)

theorem madeOfSafe_renderContent (emotes : EmoteTable) (content : ByteString) :
    MadeOfSafe (renderContent emotes content) := by
  rw [renderContent_eq]
  exact MadeOfSafe.flatMap fun segment _ => madeOfSafe_rendered emotes segment

theorem lineFeed_not_mem_renderContent (emotes : EmoteTable) (content : ByteString) :
    Bytes.lineFeed ∉ renderContent emotes content := by
  apply Bytes.not_mem_escape (if_pos rfl)
  intro other piece replaced
  split at replaced <;> cases replaced
  decide

/-! ## Rendering after any scans -/

/-- What the map may hold under a name. -/
def GoodValue (name value : ByteString) : Prop :=
  value = utf8 "😀" ∨ value = utf8 "❤️" ∨
    ∃ (image : EmoteName) (extension : ImageExtension),
      image.text = name ∧ value = imgTag name extension

theorem goodValue_of_scanned {scans : List (Option (List DirEntry))} {name value : ByteString}
    (found : EmoteMap.scanned scans name = some value) : GoodValue name value := by
  rw [EmoteMap.scanned_eq] at found
  rcases Option.map_eq_some_iff.mp found with ⟨emote, stands, rfl⟩
  rcases wellNamed_scanned scans name emote stands with
    rfl | rfl | ⟨image, extension, rfl, rfl⟩
  · exact .inl rfl
  · exact .inr (.inl rfl)
  · exact .inr (.inr ⟨image, extension, rfl, rfl⟩)

/-- The rendering of a text is what the map makes of its segments, the map
holds nothing but text emotes and tags, and no other markup comes through. -/
theorem rendering_meets_purpose (scans : List (Option (List DirEntry))) (text : ByteString) :
    replaceEmotes (EmoteTable.scanned scans) text =
        (segments text).flatMap (Segment.rendered (EmoteMap.scanned scans)) ∧
      (∀ name value, EmoteMap.scanned scans name = some value → GoodValue name value) ∧
      MadeOfSafe (renderContent (EmoteTable.scanned scans) text) ∧
      Bytes.lineFeed ∉ renderContent (EmoteTable.scanned scans) text := by
  rw [EmoteMap.scanned_eq]
  refine ⟨replaceEmotes_eq _ text, fun name value found => ?_,
    madeOfSafe_renderContent _ text, lineFeed_not_mem_renderContent _ text⟩
  rw [← EmoteMap.scanned_eq] at found
  exact goodValue_of_scanned found

end Grunt.Server
