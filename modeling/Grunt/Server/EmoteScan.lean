import Grunt.Foundation.Cleaning
import Grunt.Server.EmoteMap

/-! # The names of emote files

Which files a scan loads and which the watcher rescans for, against what the
name of a file says.
-/

namespace Grunt.Server

open Foundation

/-! ## The watcher -/

/-- `fsnotify.Event`, with the bits of its operation. -/
structure WatchEvent where
  name : ByteString
  create : Bool
  write : Bool
  remove : Bool
  rename : Bool
  chmod : Bool
deriving DecidableEq, Repr

namespace WatchEvent

def changes (event : WatchEvent) : Bool :=
  event.create || event.write || event.remove || event.rename

/-- `EmoteWatcher.run` reloads on this event. -/
def reloads (event : WatchEvent) : Bool :=
  let filename := Path.base event.name
  let ext := Bytes.toLower (fileExtension filename)
  if (imageEmoteExtensions ext).isNone then false
  else
    let name := Bytes.trimSuffix ext filename
    if (emoteName name).isNone then false
    else event.create || event.write || event.remove || event.rename

end WatchEvent

/-! ## Base names -/

/-- The name of the file is a base of name bytes and an extension that, but for
the case of its letters, is supported. -/
structure Denotes (file base ext : ByteString) : Prop where
  whole : file = base ++ ext
  supported : (imageEmoteExtensions (Bytes.toLower ext)).isSome = true
  nonempty : base ≠ []
  valid : ∀ byte ∈ base, isNameByte byte = true

/-- The extension is written as it is looked up. -/
def LowerCase (file : ByteString) : Prop :=
  ∀ base ext, Denotes file base ext → Bytes.toLower ext = ext

def extensionDot : UInt8 := 46

section Extensions

variable {file base ext : ByteString}

theorem mem_toLower {byte : UInt8} (small : byte < 65) {text : ByteString}
    (inside : byte ∈ text) : byte ∈ Bytes.toLower text := by
  induction text using Bytes.toLower.induct with
  | case1 rest induction =>
      rcases List.mem_cons.mp inside with rfl | inside
      · exact absurd small (by decide)
      · rcases List.mem_cons.mp inside with rfl | inside
        · exact absurd small (by decide)
        · exact List.mem_cons_of_mem _ (induction inside)
  | case2 rest induction =>
      rcases List.mem_cons.mp inside with rfl | inside
      · exact absurd small (by decide)
      · rcases List.mem_cons.mp inside with rfl | inside
        · exact absurd small (by decide)
        · rcases List.mem_cons.mp inside with rfl | inside
          · exact absurd small (by decide)
          · exact List.mem_cons_of_mem _ (induction inside)
  | case3 first rest one two induction =>
      have kept : (65 ≤ byte && byte ≤ 90) = false := by
        have below : ¬ 65 ≤ byte := UInt8.not_le.mpr small
        simp [below]
      rw [Bytes.toLower]
      · rcases List.mem_cons.mp inside with rfl | inside
        · rw [kept]
          exact List.mem_cons_self
        · exact List.mem_cons_of_mem _ (induction inside)
      · exact one
      · exact two
  | case4 => cases inside

theorem eq_cons_of_toLower {text lower : ByteString}
    (same : Bytes.toLower text = extensionDot :: lower) :
    ∃ rest, text = extensionDot :: rest ∧ Bytes.toLower rest = lower := by
  have values : ∀ value : Fin 256,
      (if 65 ≤ UInt8.ofFin value && UInt8.ofFin value ≤ 90 then UInt8.ofFin value + 32
        else UInt8.ofFin value) = extensionDot → UInt8.ofFin value = extensionDot := by
    decide +kernel
  induction text using Bytes.toLower.induct with
  | case1 rest _ => cases (List.cons.inj same).1
  | case2 rest _ => cases (List.cons.inj same).1
  | case3 byte rest first second _ =>
      rw [Bytes.toLower] at same
      · have parts := List.cons.inj same
        have dot : byte = extensionDot := values byte.toFin parts.1
        exact ⟨rest, congrArg (List.cons · rest) dot, parts.2⟩
      · exact first
      · exact second
  | case4 => cases same

theorem extension_of_supported (supported : (imageEmoteExtensions (Bytes.toLower ext)).isSome = true) :
    ∃ rest, ext = extensionDot :: rest ∧ extensionDot ∉ rest := by
  rcases Option.isSome_iff_exists.mp supported with ⟨extension, found⟩
  have text := imageEmoteExtensions_text found
  have shape : ∃ lower, extension.text = extensionDot :: lower ∧ extensionDot ∉ lower := by
    cases extension with
    | svg => exact ⟨utf8 "svg", by decide, by decide⟩
    | png => exact ⟨utf8 "png", by decide, by decide⟩
    | gif => exact ⟨utf8 "gif", by decide, by decide⟩
    | webp => exact ⟨utf8 "webp", by decide, by decide⟩
  rcases shape with ⟨lower, written, single⟩
  rcases eq_cons_of_toLower (text.symm.trans written) with ⟨rest, same, tail⟩
  exact ⟨rest, same, fun dotted => single (tail ▸ mem_toLower (by decide) dotted)⟩

theorem fileExtension_append (base : ByteString) {rest : ByteString}
    (single : extensionDot ∉ rest) :
    fileExtension (base ++ extensionDot :: rest) = extensionDot :: rest := by
  have last : (base ++ extensionDot :: rest).reverse.takeWhile (fun byte => byte ≠ 46) =
      rest.reverse := by
    rw [List.reverse_append, List.reverse_cons, List.append_assoc, List.takeWhile_append_of_pos]
    · simp [extensionDot]
    · intro byte member
      apply decide_eq_true
      rintro rfl
      exact single (List.mem_reverse.mp member)
  unfold fileExtension
  simp only [last]
  rw [if_neg, List.reverse_reverse]
  · rfl
  · rw [List.length_reverse, List.length_append, List.length_cons]
    omega

theorem Denotes.fileExtension (denotes : Denotes file base ext) :
    Server.fileExtension file = ext := by
  rcases extension_of_supported denotes.supported with ⟨rest, rfl, single⟩
  rw [denotes.whole, fileExtension_append base single]

theorem Denotes.slash_not_mem (denotes : Denotes file base ext) : Path.slash ∉ file := by
  rcases Option.isSome_iff_exists.mp denotes.supported with ⟨extension, supported⟩
  rw [denotes.whole, List.mem_append, not_or]
  constructor
  · intro member
    have valid := denotes.valid _ member
    revert valid
    decide
  · intro member
    have lower := mem_toLower (by decide) member
    rw [← imageEmoteExtensions_text supported] at lower
    revert lower
    cases extension <;> decide

theorem denotes_image (name : EmoteName) (extension : ImageExtension) :
    Denotes (name.text ++ extension.text) name.text extension.text where
  whole := rfl
  supported := by cases extension <;> decide
  nonempty := name.nonempty
  valid := name.valid

theorem toLower_extension (extension : ImageExtension) :
    Bytes.toLower extension.text = extension.text := by
  cases extension <;> decide

end Extensions

/-! ## Loading -/

section Loading

variable {entry : DirEntry} {base ext : ByteString}

theorem imageEmote_of_denotes (file : entry.isDir = false)
    (denotes : Denotes entry.name base ext) (lower : Bytes.toLower ext = ext) :
    ∃ image, imageEmote entry = some image ∧ image.1.text = base := by
  rcases Option.isSome_iff_exists.mp denotes.supported with ⟨extension, supported⟩
  have text := imageEmoteExtensions_text supported
  have trimmed : Bytes.trimSuffix extension.text entry.name = base := by
    unfold Bytes.trimSuffix Bytes.hasSuffix
    rw [text, lower, denotes.whole, if_pos (List.isSuffixOf_iff_suffix.mpr
      (List.suffix_append base ext)), List.length_append, Nat.add_sub_cancel, List.take_left]
  have matched : emoteName base = some ⟨base, denotes.nonempty, denotes.valid⟩ :=
    dif_pos ⟨denotes.nonempty, List.all_eq_true.mpr denotes.valid⟩
  refine ⟨(⟨base, denotes.nonempty, denotes.valid⟩, extension), ?_, rfl⟩
  unfold imageEmote
  rw [file, denotes.fileExtension, supported]
  simp only [Bool.false_eq_true, if_false, trimmed, matched, Option.map_some]

theorem denotes_of_imageEmote {image : EmoteName × ImageExtension}
    (stands : imageEmote entry = some image) :
    entry.isDir = false ∧ Denotes entry.name image.1.text image.2.text := by
  constructor
  · cases directory : entry.isDir with
    | false => rfl
    | true =>
        unfold imageEmote at stands
        rw [directory] at stands
        cases stands
  · rw [entry_of_imageEmote stands]
    exact denotes_image image.1 image.2

theorem lower_of_imageEmote {image : EmoteName × ImageExtension}
    (stands : imageEmote entry = some image) (denotes : Denotes entry.name base ext) :
    image.1.text = base ∧ Bytes.toLower ext = ext := by
  have own := (denotes_of_imageEmote stands).2
  have same : image.2.text = ext := own.fileExtension.symm.trans denotes.fileExtension
  constructor
  · have whole := own.whole.symm.trans denotes.whole
    rw [same] at whole
    exact List.append_cancel_right whole
  · rw [← same]
    exact toLower_extension image.2

end Loading

namespace EmoteMap

def Loads (entry : DirEntry) (name : ByteString) : Prop :=
  ∀ map, load map entry = map.set name (imageTag entry name)

theorem loads_iff {entry : DirEntry} {name : ByteString} :
    Loads entry name ↔ ∃ image, imageEmote entry = some image ∧ image.1.text = name := by
  constructor
  · intro loads
    have put := congrFun (loads fun _ => none) name
    unfold set at put
    rw [if_pos rfl] at put
    cases stands : imageEmote entry with
    | none =>
        rw [load_of_none _ stands] at put
        cases put
    | some image =>
        refine ⟨image, rfl, ?_⟩
        by_contra other
        rw [load_of_some _ stands, set, if_neg (Ne.symm other)] at put
        cases put
  · rintro ⟨image, stands, rfl⟩ map
    rw [load_of_some map stands, imageTag_eq stands]

/-- The scan of a listing goes by the names of its files: it loads those that
denote an image, and each base name is then shown by a file of that name. -/
structure ScansByName (entries : List DirEntry) : Prop where
  loads : ∀ entry ∈ entries, ∀ base, Loads entry base ↔
    entry.isDir = false ∧ ∃ ext, Denotes entry.name base ext
  keyed : ∀ entry ∈ entries, entry.isDir = false → ∀ base ext, Denotes entry.name base ext →
    ∀ map, ∃ shown ∈ entries, shown.isDir = false ∧ (∃ ext, Denotes shown.name base ext) ∧
      scanImageEmotes map (some entries) base = some (imageTag shown base)

theorem scansByName_iff (entries : List DirEntry) :
    ScansByName entries ↔ ∀ entry ∈ entries, entry.isDir = false → LowerCase entry.name := by
  constructor
  · intro scans entry member file base ext denotes
    have loads := (scans.loads entry member base).mpr ⟨file, ext, denotes⟩
    rcases loads_iff.mp loads with ⟨image, stands, -⟩
    exact (lower_of_imageEmote stands denotes).2
  · intro lower
    constructor
    · intro entry member base
      rw [loads_iff]
      constructor
      · rintro ⟨image, stands, rfl⟩
        have named := denotes_of_imageEmote stands
        exact ⟨named.1, image.2.text, named.2⟩
      · rintro ⟨file, ext, denotes⟩
        exact imageEmote_of_denotes file denotes (lower entry member file base ext denotes)
    · intro entry member file base ext denotes map
      rcases imageEmote_of_denotes file denotes (lower entry member file base ext denotes) with
        ⟨image, stands, rfl⟩
      rcases Option.ne_none_iff_exists'.mp (loadedEmotes_ne_none member stands) with
        ⟨emote, found⟩
      rcases image_of_loadedEmotes found with ⟨shown, inside, other, stood, same, rfl⟩
      have named := denotes_of_imageEmote stood
      refine ⟨shown, inside, named.1, ⟨other.2.text, same ▸ named.2⟩, ?_⟩
      unfold scanImageEmotes
      simp only [loaded_eq, ofTable, found, Option.map_some]
      rw [← same, imageTag_eq stood]

end EmoteMap

/-! ## Watching -/

namespace WatchEvent

theorem reloads_eq (event : WatchEvent) :
    event.reloads =
      ((imageEmote ⟨Path.base event.name, false⟩).isSome && event.changes) := by
  unfold reloads imageEmote
  dsimp only
  cases supported : imageEmoteExtensions (Bytes.toLower (fileExtension (Path.base event.name))) with
  | none => rfl
  | some extension =>
      have text := imageEmoteExtensions_text supported
      rw [← text]
      cases matched : emoteName (Bytes.trimSuffix extension.text (Path.base event.name)) <;>
        simp [changes, matched]

/-- For files of this name the watcher reloads just when the name denotes an image. -/
def WatchesByName (file : ByteString) : Prop :=
  ∀ event : WatchEvent, Path.base event.name = file → event.changes = true →
    (event.reloads = true ↔ ∃ base ext, Denotes file base ext)

theorem watchesByName_iff (file : ByteString) : WatchesByName file ↔ LowerCase file := by
  constructor
  · intro watches base ext denotes
    have present : file ≠ [] := by
      rw [denotes.whole]
      exact List.append_ne_nil_of_left_ne_nil denotes.nonempty ext
    have named := Path.base_of_not_mem present denotes.slash_not_mem
    have reloads := (watches ⟨file, true, false, false, false, false⟩ named rfl).mpr
      ⟨base, ext, denotes⟩
    rw [reloads_eq] at reloads
    have stands := (Bool.and_eq_true_iff.mp reloads).1
    rw [named] at stands
    rcases Option.isSome_iff_exists.mp stands with ⟨image, stands⟩
    exact (lower_of_imageEmote stands denotes).2
  · intro lower event same changes
    rw [reloads_eq, changes, Bool.and_true, same]
    constructor
    · intro stands
      rcases Option.isSome_iff_exists.mp stands with ⟨image, stands⟩
      exact ⟨_, _, (denotes_of_imageEmote stands).2⟩
    · rintro ⟨base, ext, denotes⟩
      rcases @imageEmote_of_denotes ⟨file, false⟩ base ext rfl denotes
        (lower base ext denotes) with ⟨image, stands, -⟩
      rw [stands]
      rfl

end WatchEvent

/-- The scan and the watcher go by the names of the files as long as these have
their extensions in lower case, and no longer. -/
theorem goByName_iff (entries : List DirEntry) (file : ByteString) :
    (EmoteMap.ScansByName entries ∧ WatchEvent.WatchesByName file) ↔
      (∀ entry ∈ entries, entry.isDir = false → LowerCase entry.name) ∧ LowerCase file :=
  and_congr (EmoteMap.scansByName_iff entries) (WatchEvent.watchesByName_iff file)

/-- `Wave.PNG` is neither loaded nor watched. -/
theorem upperCase_not_byName :
    ¬ EmoteMap.ScansByName [⟨utf8 "Wave.PNG", false⟩] ∧
      ¬ WatchEvent.WatchesByName (utf8 "Wave.PNG") := by
  have denotes : Denotes (utf8 "Wave.PNG") (utf8 "Wave") (utf8 ".PNG") := {
    whole := by decide
    supported := by decide
    nonempty := by decide
    valid := Bytes.forall_of_all (by decide) }
  have upper : ¬ LowerCase (utf8 "Wave.PNG") := fun lower =>
    absurd (lower _ _ denotes) (by decide)
  rw [EmoteMap.scansByName_iff, WatchEvent.watchesByName_iff]
  exact ⟨fun lower => upper (lower _ (List.mem_singleton_self _) rfl), upper⟩

end Grunt.Server
