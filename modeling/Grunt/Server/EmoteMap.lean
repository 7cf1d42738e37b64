import Grunt.Server.Emotes

/-! # The emote map

`emoteMap` as the server keeps it, a text for every name, and what a sequence
of directory scans makes of it. The table of emotes that rendering works with
says what each of these texts is made of.
-/

namespace Grunt.Server

open Foundation

/-- The type of `emoteMap`. -/
abbrev EmoteMap := ByteString → Option ByteString

namespace EmoteMap

/-- The hard-coded text emotes. -/
def builtin : EmoteMap := fun name =>
  if name = utf8 "smile" then some (utf8 "😀")
  else if name = utf8 "heart" then some (utf8 "❤️")
  else none

def set (map : EmoteMap) (name value : ByteString) : EmoteMap := fun wanted =>
  if wanted = name then some value else map wanted

/-- The tag that shows the file of an entry. -/
def imageTag (entry : DirEntry) (name : ByteString) : ByteString :=
  let src := utf8 "/emotes/" ++ entry.name
  utf8 "<img src=\"" ++ src ++ utf8 "\" alt=\":" ++ Bytes.escape htmlEscapeTable name ++
    utf8 ":\" class=\"emote\">"

def load (loaded : EmoteMap) (entry : DirEntry) : EmoteMap :=
  if entry.isDir then loaded
  else
    let ext := Bytes.toLower (fileExtension entry.name)
    if (imageEmoteExtensions ext).isNone then loaded
    else
      let name := Bytes.trimSuffix ext entry.name
      if (emoteName name).isNone then loaded
      else loaded.set name (imageTag entry name)

/-- The image emotes that a directory holds. -/
def loaded (entries : List DirEntry) : EmoteMap := entries.foldl load fun _ => none

/-- `scanImageEmotes`; no entries where the directory cannot be read. -/
def scanImageEmotes (map : EmoteMap) (entries : Option (List DirEntry)) : EmoteMap :=
  match entries with
  | none => map
  | some entries => fun name =>
      match loaded entries name with
      | some value => some value
      | none => if textEmoteNames name then map name else none

/-- `emoteMap` after a sequence of scans. -/
def scanned (scans : List (Option (List DirEntry))) : EmoteMap :=
  scans.foldl scanImageEmotes builtin

/-! ## The table of emotes -/

def ofTable (table : EmoteTable) : EmoteMap := fun name => (table name).map Emote.html

theorem builtin_eq : builtin = ofTable EmoteTable.builtin := by
  funext name
  unfold builtin ofTable EmoteTable.builtin
  split
  · rfl
  · split <;> rfl

end EmoteMap

theorem htmlEscapeTable_of_isNameByte {byte : UInt8} (valid : isNameByte byte = true) :
    htmlEscapeTable byte = none := by
  have values : ∀ value : Fin 256, isNameByte (UInt8.ofFin value) = true →
      htmlEscapeTable (UInt8.ofFin value) = none := by
    decide +kernel
  exact values byte.toFin valid

theorem escape_of_isNameByte {text : ByteString}
    (valid : ∀ byte ∈ text, isNameByte byte = true) :
    Bytes.escape htmlEscapeTable text = text :=
  Bytes.escape_of_unlisted fun byte member => htmlEscapeTable_of_isNameByte (valid byte member)

theorem imageEmoteExtensions_text {ext : ByteString} {extension : ImageExtension}
    (supported : imageEmoteExtensions ext = some extension) : extension.text = ext := by
  unfold imageEmoteExtensions at supported
  split at supported
  case isTrue same => cases supported; exact same.symm
  split at supported
  case isTrue same => cases supported; exact same.symm
  split at supported
  case isTrue same => cases supported; exact same.symm
  split at supported
  case isTrue same => cases supported; exact same.symm
  case isFalse => cases supported

theorem emoteName_text {text : ByteString} {name : EmoteName}
    (matched : emoteName text = some name) : name.text = text := by
  unfold emoteName at matched
  split at matched
  · cases matched; rfl
  · cases matched

theorem loadedEmotes_append_of_none {entries : List DirEntry} {entry : DirEntry}
    {name : ByteString} (found : imageEmote entry = none) :
    loadedEmotes (entries ++ [entry]) name = loadedEmotes entries name := by
  unfold loadedEmotes
  rw [List.foldl_append]
  dsimp only [List.foldl_cons, List.foldl_nil]
  rw [found]

theorem loadedEmotes_append_of_some {entries : List DirEntry} {entry : DirEntry}
    {name : ByteString} {image : EmoteName × ImageExtension}
    (found : imageEmote entry = some image) :
    loadedEmotes (entries ++ [entry]) name =
      if name = image.1.text then some (.image image.1 image.2)
      else loadedEmotes entries name := by
  unfold loadedEmotes
  rw [List.foldl_append]
  dsimp only [List.foldl_cons, List.foldl_nil]
  rw [found]

namespace EmoteMap

theorem imageTag_eq {entry : DirEntry} {name : EmoteName} {extension : ImageExtension}
    (found : imageEmote entry = some (name, extension)) :
    imageTag entry name.text = (Emote.image name extension).html := by
  unfold imageTag Emote.html
  rw [escape_of_isNameByte name.valid, entry_of_imageEmote found]
  have joined : utf8 "<img src=\"/emotes/" = utf8 "<img src=\"" ++ utf8 "/emotes/" := by
    decide
  simp only [joined, List.append_assoc]

theorem load_of_none (map : EmoteMap) {entry : DirEntry}
    (found : imageEmote entry = none) : load map entry = map := by
  unfold imageEmote at found
  unfold load
  split at found
  case isTrue directory => exact if_pos directory
  case isFalse file =>
    rw [if_neg file]
    split at found
    case h_1 unsupported => simp only [unsupported, Option.isNone_none, if_true]
    case h_2 extension supported =>
      have unmatched := Option.map_eq_none_iff.mp found
      rw [imageEmoteExtensions_text supported] at unmatched
      simp only [supported, Option.isNone_some, Bool.false_eq_true, if_false, unmatched,
        Option.isNone_none, if_true]

theorem load_of_some (map : EmoteMap) {entry : DirEntry} {name : EmoteName}
    {extension : ImageExtension} (found : imageEmote entry = some (name, extension)) :
    load map entry = map.set name.text (Emote.image name extension).html := by
  rw [← imageTag_eq found]
  unfold imageEmote at found
  unfold load
  split at found
  case isTrue => cases found
  case isFalse file =>
    rw [if_neg file]
    split at found
    case h_1 => cases found
    case h_2 extension supported =>
      rcases Option.map_eq_some_iff.mp found with ⟨other, matched, same⟩
      cases same
      rw [imageEmoteExtensions_text supported] at matched
      simp only [supported, Option.isNone_some, Bool.false_eq_true, if_false, matched,
        emoteName_text matched]

theorem loaded_eq (entries : List DirEntry) :
    loaded entries = ofTable (loadedEmotes entries) := by
  induction entries using List.reverseRecOn with
  | nil => rfl
  | append_singleton entries entry induction =>
      unfold loaded at induction ⊢
      rw [List.foldl_append, induction]
      funext wanted
      cases found : imageEmote entry with
      | none =>
          rw [ofTable, loadedEmotes_append_of_none found]
          exact congrFun (load_of_none _ found) wanted
      | some image =>
          rw [ofTable, loadedEmotes_append_of_some found]
          rw [List.foldl_cons, List.foldl_nil, load_of_some _ found, set]
          split <;> rfl

theorem scanImageEmotes_ofTable (entries : Option (List DirEntry)) (table : EmoteTable) :
    scanImageEmotes (ofTable table) entries =
      ofTable (Server.scanImageEmotes entries table) := by
  cases entries with
  | none => rfl
  | some entries =>
      funext name
      simp only [scanImageEmotes, loaded_eq, ofTable, Server.scanImageEmotes]
      cases loadedEmotes entries name with
      | some emote => rfl
      | none =>
          dsimp only [Option.map_none]
          split <;> rfl

end EmoteMap

def EmoteTable.scanned (scans : List (Option (List DirEntry))) : EmoteTable :=
  scans.foldl (fun table entries => scanImageEmotes entries table) EmoteTable.builtin

namespace EmoteMap

theorem scanned_eq (scans : List (Option (List DirEntry))) :
    scanned scans = ofTable (EmoteTable.scanned scans) := by
  induction scans using List.reverseRecOn with
  | nil => exact builtin_eq
  | append_singleton scans entries induction =>
      unfold scanned EmoteTable.scanned at induction ⊢
      rw [List.foldl_append, List.foldl_append, induction]
      exact scanImageEmotes_ofTable entries _

/-! ## Reloading -/

/-- What the map should be for a directory, whatever was loaded before: the
text emotes, and the images of the directory. -/
def current (entries : List DirEntry) : EmoteMap := fun name =>
  if textEmoteNames name then builtin name else loaded entries name

/-- No image of the directory takes the name of a text emote. -/
def SparesText (entries : List DirEntry) : Prop :=
  ∀ entry ∈ entries, ∀ image, imageEmote entry = some image →
    textEmoteNames image.1.text = false

end EmoteMap

theorem image_of_loadedEmotes {entries : List DirEntry} {name : ByteString} {emote : Emote}
    (found : loadedEmotes entries name = some emote) :
    ∃ entry ∈ entries, ∃ image, imageEmote entry = some image ∧ image.1.text = name ∧
      emote = .image image.1 image.2 := by
  induction entries using List.reverseRecOn with
  | nil => cases found
  | append_singleton entries entry induction =>
      have earlier : loadedEmotes entries name = some emote → ∃ other ∈ entries ++ [entry],
          ∃ image, imageEmote other = some image ∧ image.1.text = name ∧
            emote = .image image.1 image.2 := by
        intro found
        rcases induction found with ⟨other, member, rest⟩
        exact ⟨other, List.mem_append_left [entry] member, rest⟩
      cases stands : imageEmote entry with
      | none =>
          rw [loadedEmotes_append_of_none stands] at found
          exact earlier found
      | some image =>
          rw [loadedEmotes_append_of_some stands] at found
          split at found
          case isTrue same =>
            cases found
            exact ⟨entry, List.mem_append_right entries (List.mem_singleton_self entry),
              image, stands, same.symm, rfl⟩
          case isFalse => exact earlier found

theorem loadedEmotes_ne_none {entries : List DirEntry} {entry : DirEntry}
    {image : EmoteName × ImageExtension} (member : entry ∈ entries)
    (stands : imageEmote entry = some image) : loadedEmotes entries image.1.text ≠ none := by
  induction entries using List.reverseRecOn with
  | nil => cases member
  | append_singleton entries last induction =>
      rcases List.mem_append.mp member with member | member
      · have kept := induction member
        cases found : imageEmote last with
        | none =>
            rw [loadedEmotes_append_of_none found]
            exact kept
        | some other =>
            rw [loadedEmotes_append_of_some found]
            split
            · exact Option.some_ne_none _
            · exact kept
      · rw [List.mem_singleton.mp member] at stands
        rw [loadedEmotes_append_of_some stands, if_pos rfl]
        exact Option.some_ne_none _

theorem EmoteTable.builtin_of_text {name : ByteString} (text : textEmoteNames name = true) :
    ∃ emote, EmoteTable.builtin name = some emote ∧ (emote = .smile ∨ emote = .heart) := by
  unfold textEmoteNames at text
  unfold EmoteTable.builtin
  rcases Bool.or_eq_true_iff.mp text with same | same
  · exact ⟨.smile, if_pos (of_decide_eq_true same), .inl rfl⟩
  · have other : name ≠ utf8 "smile" := by
      rw [of_decide_eq_true same]
      decide
    exact ⟨.heart, by rw [if_neg other, if_pos (of_decide_eq_true same)], .inr rfl⟩

theorem html_image_ne (name : EmoteName) (extension : ImageExtension) {emote : Emote}
    (text : emote = .smile ∨ emote = .heart) :
    (Emote.image name extension).html ≠ emote.html := by
  intro same
  have first := congrArg List.head? same
  rcases text with rfl | rfl
  · have image : (Emote.image name extension).html.head? = (utf8 "<").head? := rfl
    rw [image] at first
    revert first
    decide
  · have image : (Emote.image name extension).html.head? = (utf8 "<").head? := rfl
    rw [image] at first
    revert first
    decide

namespace EmoteMap

theorem loaded_eq_none_of_spares {entries : List DirEntry} (spares : SparesText entries)
    {name : ByteString} (text : textEmoteNames name = true) :
    loadedEmotes entries name = none := by
  cases found : loadedEmotes entries name with
  | none => rfl
  | some emote =>
      rcases image_of_loadedEmotes found with ⟨entry, member, image, stands, same, -⟩
      have spared := spares entry member image stands
      rw [same, text] at spared
      cases spared

theorem scanned_append (listings : List (List DirEntry)) (entries : List DirEntry)
    (name : ByteString) :
    EmoteTable.scanned ((listings ++ [entries]).map some) name =
      (loadedEmotes entries name).or
        (if textEmoteNames name then EmoteTable.scanned (listings.map some) name else none) := by
  unfold EmoteTable.scanned
  rw [List.map_append, List.foldl_append, List.map_singleton, List.foldl_cons, List.foldl_nil,
    Server.scanImageEmotes]
  beta_reduce
  cases loadedEmotes entries name <;> rfl

theorem scanned_text (listings : List (List DirEntry)) {name : ByteString}
    (text : textEmoteNames name = true) :
    ((∀ entries ∈ listings, loadedEmotes entries name = none) ∧
      EmoteTable.scanned (listings.map some) name = EmoteTable.builtin name) ∨
    ((∃ entries ∈ listings, loadedEmotes entries name ≠ none) ∧
      ∃ image extension,
        EmoteTable.scanned (listings.map some) name = some (.image image extension)) := by
  induction listings using List.reverseRecOn with
  | nil => exact .inl ⟨fun _ member => absurd member List.not_mem_nil, rfl⟩
  | append_singleton listings entries induction =>
      rw [scanned_append, text, if_pos rfl]
      cases found : loadedEmotes entries name with
      | some emote =>
          rcases image_of_loadedEmotes found with ⟨-, -, image, -, -, rfl⟩
          refine .inr ⟨⟨entries, List.mem_append_right listings
            (List.mem_singleton_self entries), ?_⟩, image.1, image.2, rfl⟩
          rw [found]
          exact Option.some_ne_none _
      | none =>
          rcases induction with ⟨free, kept⟩ | ⟨⟨other, member, loads⟩, kept⟩
          · refine .inl ⟨fun other member => ?_, kept⟩
            rcases List.mem_append.mp member with member | member
            · exact free other member
            · rw [List.mem_singleton.mp member]
              exact found
          · exact .inr ⟨⟨other, List.mem_append_left [entries] member, loads⟩, kept⟩

/-- After successful scans the map is the one for the last listing exactly
when none of the listings had an image with the name of a text emote. -/
theorem scanned_eq_current_iff (earlier : List (List DirEntry)) (last : List DirEntry) :
    scanned ((earlier ++ [last]).map some) = current last ↔
      ∀ entries ∈ earlier ++ [last], SparesText entries := by
  rw [scanned_eq]
  constructor
  · intro same entries member entry inside image stands
    cases text : textEmoteNames image.1.text with
    | false => rfl
    | true =>
        have loads := loadedEmotes_ne_none inside stands
        have kept := congrFun same image.1.text
        simp only [ofTable, current, text, if_true, builtin_eq] at kept
        rcases scanned_text (earlier ++ [last]) text with ⟨free, -⟩ | ⟨-, name, extension, value⟩
        · exact absurd (free entries member) loads
        · rcases EmoteTable.builtin_of_text text with ⟨emote, original, texts⟩
          rw [value, original] at kept
          exact absurd (Option.some.inj kept) (html_image_ne name extension texts)
  · intro spares
    funext name
    simp only [ofTable, current]
    cases text : textEmoteNames name with
    | true =>
        have free : ∀ entries ∈ earlier ++ [last], loadedEmotes entries name = none :=
          fun entries member => loaded_eq_none_of_spares (spares entries member) text
        rcases scanned_text (earlier ++ [last]) text with
          ⟨-, kept⟩ | ⟨⟨entries, member, loads⟩, -⟩
        · rw [kept, if_pos rfl, builtin_eq]
          rfl
        · exact absurd (free entries member) loads
    | false =>
        rw [scanned_append, text, if_neg Bool.false_ne_true, Option.or_none, loaded_eq,
          if_neg Bool.false_ne_true]
        rfl

/-- A file `smile.png` that has come and gone leaves its image behind. -/
theorem not_alwaysCurrent :
    ¬ ∀ (earlier : List (List DirEntry)) (last : List DirEntry),
      scanned ((earlier ++ [last]).map some) = current last := by
  intro always
  have same := congrFun (always [[⟨utf8 "smile.png", false⟩]] []) (utf8 "smile")
  revert same
  decide

end EmoteMap

end Grunt.Server
