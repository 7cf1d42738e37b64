import Mathlib.Data.List.TakeWhile
import Grunt.Foundation.Bytes

/-! # Emotes

The emote table, the directory scan that fills it and the replacement of
`:name:` tokens. The value of an emote is kept as what it is made of; `html`
is the text the table holds.
-/

namespace Grunt.Server

open Foundation

/-- `[a-zA-Z0-9_-]` -/
def isNameByte (byte : UInt8) : Bool :=
  (97 ≤ byte && byte ≤ 122) || (65 ≤ byte && byte ≤ 90) || (48 ≤ byte && byte ≤ 57) ||
    byte = 95 || byte = 45

/-- What `^[a-zA-Z0-9_-]+$` matches. -/
structure EmoteName where
  text : ByteString
  nonempty : text ≠ []
  valid : ∀ byte ∈ text, isNameByte byte = true

inductive ImageExtension
  | svg
  | png
  | gif
  | webp
deriving DecidableEq, Repr

namespace ImageExtension

def text : ImageExtension → ByteString
  | .svg => utf8 ".svg"
  | .png => utf8 ".png"
  | .gif => utf8 ".gif"
  | .webp => utf8 ".webp"

end ImageExtension

def imageEmoteExtensions (extension : ByteString) : Option ImageExtension :=
  if extension = ImageExtension.svg.text then some .svg
  else if extension = ImageExtension.png.text then some .png
  else if extension = ImageExtension.gif.text then some .gif
  else if extension = ImageExtension.webp.text then some .webp
  else none

inductive Emote
  | smile
  | heart
  | image (name : EmoteName) (extension : ImageExtension)

namespace Emote

/-- The value in `emoteMap`. The name of an image needs no escaping. -/
def html : Emote → ByteString
  | .smile => utf8 "😀"
  | .heart => utf8 "❤️"
  | .image name extension =>
      utf8 "<img src=\"/emotes/" ++ name.text ++ extension.text ++ utf8 "\" alt=\":" ++
        name.text ++ utf8 ":\" class=\"emote\">"

end Emote

/-- `emoteMap` -/
abbrev EmoteTable := ByteString → Option Emote

def textEmoteNames (name : ByteString) : Bool :=
  name = utf8 "smile" || name = utf8 "heart"

def EmoteTable.builtin : EmoteTable := fun name =>
  if name = utf8 "smile" then some .smile
  else if name = utf8 "heart" then some .heart
  else none

/-! ## Scanning a directory -/

structure DirEntry where
  name : ByteString
  isDir : Bool
deriving DecidableEq, Repr

/-- `filepath.Ext` of a name without a slash. -/
def fileExtension (name : ByteString) : ByteString :=
  let last := name.reverse.takeWhile fun byte => byte ≠ 46
  if last.length = name.length then [] else 46 :: last.reverse

/-- `^[a-zA-Z0-9_-]+$` -/
def emoteName (text : ByteString) : Option EmoteName :=
  if matched : text ≠ [] ∧ text.all isNameByte = true then
    some ⟨text, matched.1, List.all_eq_true.mp matched.2⟩
  else none

def imageEmote (entry : DirEntry) : Option (EmoteName × ImageExtension) :=
  if entry.isDir then none
  else
    match imageEmoteExtensions (Bytes.toLower (fileExtension entry.name)) with
    | none => none
    | some extension =>
        (emoteName (Bytes.trimSuffix extension.text entry.name)).map fun name =>
          (name, extension)

def loadedEmotes (entries : List DirEntry) : EmoteTable :=
  entries.foldl (fun loaded entry =>
    match imageEmote entry with
    | some (name, extension) =>
        fun wanted => if wanted = name.text then some (.image name extension) else loaded wanted
    | none => loaded) fun _ => none

/-- Every entry that is no text emote is dropped and the loaded ones are put
in. A directory that cannot be read changes nothing. -/
def scanImageEmotes (entries : Option (List DirEntry)) (table : EmoteTable) : EmoteTable :=
  match entries with
  | none => table
  | some entries => fun name =>
      match loadedEmotes entries name with
      | some emote => some emote
      | none => if textEmoteNames name then table name else none

theorem entry_of_imageEmote {entry : DirEntry} {name : EmoteName}
    {extension : ImageExtension} (loaded : imageEmote entry = some (name, extension)) :
    entry.name = name.text ++ extension.text := by
  have dotted : (46 : UInt8) ∉ name.text := fun member => by
    have valid := name.valid 46 member
    revert valid
    decide
  unfold imageEmote at loaded
  split at loaded
  case isTrue => cases loaded
  split at loaded
  case h_1 => cases loaded
  case h_2 found supported =>
    obtain ⟨other, matched, same⟩ := Option.map_eq_some_iff.mp loaded
    cases same
    unfold emoteName at matched
    split at matched <;> cases matched
    simp only [Bytes.trimSuffix] at dotted ⊢
    split
    case isTrue hasSuffix =>
      obtain ⟨front, whole⟩ := List.isSuffixOf_iff_suffix.mp hasSuffix
      rw [← whole]
      simp
    case isFalse other =>
      -- the name is whole, so it has no dot and its extension is empty
      rw [if_neg other] at dotted
      have whole : (entry.name.reverse.takeWhile fun byte => byte ≠ 46) =
          entry.name.reverse := by
        refine List.takeWhile_eq_self_iff.mpr fun byte member => ?_
        have inside := List.mem_reverse.mp member
        exact decide_eq_true fun same => dotted (same ▸ inside)
      have empty : fileExtension entry.name = [] := by
        unfold fileExtension
        rw [whole]
        exact if_pos (List.length_reverse)
      have unsupported : imageEmoteExtensions (Bytes.toLower []) = none := by decide
      rw [empty, unsupported] at supported
      cases supported

/-! ## Replacing tokens -/

/-- `:` -/
def colonByte : UInt8 := 58

/-- The matches of `:[a-zA-Z0-9_-]+:` from left to right, without overlap. What
has been read since an open colon is pending. -/
def replaceFrom (table : EmoteTable) : Option ByteString → ByteString → ByteString
  | none, [] => []
  | none, byte :: rest =>
      if byte = colonByte then replaceFrom table (some []) rest
      else byte :: replaceFrom table none rest
  | some name, [] => colonByte :: name
  | some name, byte :: rest =>
      if byte = colonByte then
        if name = [] then colonByte :: replaceFrom table (some []) rest
        else
          (match table name with
            | some emote => emote.html
            | none => colonByte :: name ++ [colonByte]) ++ replaceFrom table none rest
      else if isNameByte byte then replaceFrom table (some (name ++ [byte])) rest
      else colonByte :: name ++ byte :: replaceFrom table none rest

/-- `template.HTMLEscapeString` -/
def htmlEscapeTable (byte : UInt8) : Option ByteString :=
  match byte.toNat with
  | 0 => some Bytes.replacementRune
  | 34 => some (utf8 "&#34;")
  | 39 => some (utf8 "&#39;")
  | 38 => some (utf8 "&amp;")
  | 60 => some (utf8 "&lt;")
  | 62 => some (utf8 "&gt;")
  | _ => none

/-- The whole text is escaped first, and the tokens are found in the result. -/
def replaceEmotes (table : EmoteTable) (text : ByteString) : ByteString :=
  replaceFrom table none (Bytes.escape htmlEscapeTable text)

example : replaceEmotes EmoteTable.builtin (utf8 "a<b ::smile:heart:x:") =
    utf8 "a&lt;b :😀heart:x:" := by decide

/-! ## Line ends -/

theorem carriageReturn_not_name : isNameByte Bytes.carriageReturn = false := by decide

theorem carriageReturn_not_mem_html (emote : Emote) :
    Bytes.carriageReturn ∉ emote.html := by
  cases emote with
  | smile => decide
  | heart => decide
  | image name extension =>
      have nameFree : Bytes.carriageReturn ∉ name.text := fun member => by
        have valid := name.valid _ member
        rw [carriageReturn_not_name] at valid
        cases valid
      have extensionFree : Bytes.carriageReturn ∉ extension.text := by
        cases extension <;> decide
      simp only [Emote.html, List.mem_append, nameFree, extensionFree, or_false]
      decide

theorem mem_replaceFrom (table : EmoteTable) (pending : Option ByteString)
    (free : ∀ name, pending = some name → Bytes.carriageReturn ∉ name) (text : ByteString) :
    Bytes.carriageReturn ∈ replaceFrom table pending text ↔ Bytes.carriageReturn ∈ text := by
  have colon : Bytes.carriageReturn ≠ colonByte := by decide
  induction text generalizing pending with
  | nil =>
      cases pending with
      | none => rfl
      | some name => simp [replaceFrom, colon, free name rfl]
  | cons byte rest induction =>
      have closedMem : Bytes.carriageReturn ∈ replaceFrom table none rest ↔
          Bytes.carriageReturn ∈ rest := induction none (by simp)
      have openedMem : Bytes.carriageReturn ∈ replaceFrom table (some []) rest ↔
          Bytes.carriageReturn ∈ rest := induction (some []) (by simp)
      cases pending with
      | none =>
          unfold replaceFrom
          split
          case isTrue same => rw [openedMem, same]; simp [colon]
          case isFalse => rw [List.mem_cons, List.mem_cons, closedMem]
      | some name =>
          have nameFree := free name rfl
          unfold replaceFrom
          split
          case isTrue same =>
            subst same
            split
            case isTrue => rw [List.mem_cons, openedMem, List.mem_cons]
            case isFalse =>
              rw [List.mem_append, closedMem, List.mem_cons]
              split
              · simp [colon, carriageReturn_not_mem_html]
              · simp [colon, nameFree]
          case isFalse =>
            split
            case isTrue valid =>
              have different : Bytes.carriageReturn ≠ byte := by
                rintro rfl
                rw [carriageReturn_not_name] at valid
                cases valid
              have longerMem : Bytes.carriageReturn ∈
                  replaceFrom table (some (name ++ [byte])) rest ↔
                    Bytes.carriageReturn ∈ rest :=
                induction (some (name ++ [byte])) (by simp [nameFree, different])
              rw [longerMem]
              simp [different]
            case isFalse => simp [closedMem, colon, nameFree]

theorem htmlEscapeTable_carriageReturn : htmlEscapeTable Bytes.carriageReturn = none := by
  decide

theorem carriageReturn_not_mem_htmlEscapeTable (byte : UInt8) (piece : ByteString)
    (escaped : htmlEscapeTable byte = some piece) : Bytes.carriageReturn ∉ piece := by
  unfold htmlEscapeTable at escaped
  split at escaped <;> cases escaped <;> decide

theorem mem_replaceEmotes (table : EmoteTable) (text : ByteString) :
    Bytes.carriageReturn ∈ replaceEmotes table text ↔ Bytes.carriageReturn ∈ text := by
  rw [replaceEmotes, mem_replaceFrom table none (by simp),
    Bytes.mem_escape_iff htmlEscapeTable_carriageReturn carriageReturn_not_mem_htmlEscapeTable]

end Grunt.Server
