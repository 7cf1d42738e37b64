import Grunt.Foundation.Cleaning
import Grunt.Server.Browsing
import Grunt.Server.EmoteMap

/-! # Emote files

Which files the handler below `/emotes/` opens, and whether the address in
the tag of an emote leads to the file of that emote.
-/

namespace Grunt.Server

open Foundation

/-! ## Containment -/

section Containment

variable {emoteDir filename path : ByteString}

theorem nonempty_of_runtimeEmotePath
    (served : runtimeEmotePath emoteDir filename = some path) :
    emoteDir ≠ [] ∧ filename ≠ [] := by
  unfold runtimeEmotePath at served
  split at served
  case isTrue => cases served
  case isFalse present =>
    split at served
    case isTrue => cases served
    case isFalse accepted => exact ⟨present, fun empty => accepted (.inl empty)⟩

theorem down_of_runtimeEmotePath (served : runtimeEmotePath emoteDir filename = some path) :
    Path.dotDot ∉ Path.components filename := by
  intro member
  unfold runtimeEmotePath at served
  split at served
  case isTrue => cases served
  case isFalse =>
    have dots : Bytes.contains (utf8 "..") filename = true :=
      Bytes.contains_iff_infix.mpr (Bytes.infix_of_mem_splitOn member)
    rw [if_pos (.inr dots)] at served
    cases served

theorem eq_clean_of_runtimeEmotePath
    (served : runtimeEmotePath emoteDir filename = some path) :
    path = Path.clean (emoteDir ++ Path.slash :: filename) := by
  rcases nonempty_of_runtimeEmotePath served with ⟨present, named⟩
  unfold runtimeEmotePath at served
  rw [if_neg present] at served
  split at served
  case isTrue => cases served
  case isFalse =>
    dsimp only at served
    split at served
    case isFalse => cases served
    case isTrue =>
      rw [Path.join_pair present named, Path.clean_clean] at served
      exact (Option.some.inj served).symm

theorem within_of_runtimeEmotePath
    (served : runtimeEmotePath emoteDir filename = some path) : Path.Within emoteDir path := by
  have present := (nonempty_of_runtimeEmotePath served).1
  have down := down_of_runtimeEmotePath served
  rw [eq_clean_of_runtimeEmotePath served]
  refine ⟨?_, (Path.components filename).filter Path.counts, ?_, fun member => ?_⟩
  · rw [Path.isRooted_clean, Path.isRooted_below present]
  · rw [Path.cleanComponents_clean, Path.cleanComponents_below present down]
  · exact down (List.mem_filter.mp member).1

end Containment

/-- Whatever the request, all that the handler does is open a file of the
emote directory or of a directory below it. -/
theorem handleRuntimeEmotes_within (platform : Platform) (request : Request) :
    (handleRuntimeEmotes platform request).Only fun op =>
      ∃ path, op = .readFile path ∧ Path.Within platform.emoteDir path := by
  unfold handleRuntimeEmotes
  dsimp only
  cases served : runtimeEmotePath platform.emoteDir
      (Bytes.trimPrefix (utf8 "/emotes/") request.path) with
  | none => exact Program.only_done _
  | some path =>
      exact Program.Only.bind
        ((Program.only_call _).mpr ⟨path, rfl, within_of_runtimeEmotePath served⟩)
        fun _ => Program.only_done _

/-! ## The emote directory -/

/-- The variables that are read; one that is not set is empty. -/
structure EmoteEnvironment where
  gruntEmoteDir : ByteString
  xdgDataHome : ByteString
  home : ByteString

def resolveEmotePath (environment : EmoteEnvironment) : ByteString :=
  if environment.gruntEmoteDir ≠ [] then environment.gruntEmoteDir
  else if environment.xdgDataHome ≠ [] then
    Path.join [environment.xdgDataHome, utf8 "grunt", utf8 "emotes"]
  else if environment.home ≠ [] then
    Path.join [environment.home, utf8 ".local", utf8 "share", utf8 "grunt", utf8 "emotes"]
  else utf8 "grunt/emotes"

/-- A platform whose emote directory `init` has resolved. -/
def Platform.resolved (platform : Platform) (environment : EmoteEnvironment) : Platform :=
  { platform with emoteDir := resolveEmotePath environment }

/-- A directory as cleaning writes it, other than the root and the working directory. -/
structure Tidy (dir : ByteString) : Prop where
  clean : Path.clean dir = dir
  notRoot : dir ≠ [Path.slash]
  notHere : dir ≠ Path.dot

theorem tidy_clean_name {dir name : ByteString} (nonempty : dir ≠ [])
    (named : Path.IsName name) : Tidy (Path.clean (dir ++ Path.slash :: name)) := by
  have parts : Path.cleanComponents (dir ++ Path.slash :: name) ≠ [] := by
    rw [Path.cleanComponents_name nonempty named]
    exact List.append_ne_nil_of_right_ne_nil _ (List.cons_ne_nil name [])
  exact ⟨Path.clean_clean _, fun root => parts ((Path.clean_eq_root_iff _).mp root).2,
    fun here => parts ((Path.clean_eq_dot_iff _).mp here).2⟩

theorem isName_emotes : Path.IsName (utf8 "emotes") := by
  constructor <;> decide

theorem tidy_join {first : ByteString} (nonempty : first ≠ []) {middle : List ByteString}
    (present : ∀ part ∈ middle, part ≠ []) :
    Tidy (Path.join (first :: (middle ++ [utf8 "emotes"]))) := by
  have kept : (first :: (middle ++ [utf8 "emotes"])).filter (fun element => element ≠ []) =
      first :: (middle ++ [utf8 "emotes"]) := by
    apply List.filter_eq_self.mpr
    intro part member
    apply decide_eq_true
    rcases List.mem_cons.mp member with rfl | member
    · exact nonempty
    · rcases List.mem_append.mp member with member | member
      · exact present part member
      · rw [List.mem_singleton.mp member]
        decide
  have joined : Path.join (first :: (middle ++ [utf8 "emotes"])) =
      Path.clean ([Path.slash].intercalate ((first :: middle) ++ [utf8 "emotes"])) := by
    unfold Path.join
    rw [kept]
    rfl
  rw [joined, Path.intercalate_concat (List.cons_ne_nil first middle)]
  apply tidy_clean_name _ isName_emotes
  intro empty
  have inside : first <:+: [Path.slash].intercalate (first :: middle) :=
    Bytes.infix_intercalate List.mem_cons_self
  rw [empty] at inside
  exact nonempty (List.infix_nil.mp inside)

theorem tidy_resolveEmotePath (environment : EmoteEnvironment) :
    Tidy (resolveEmotePath environment) ↔
      environment.gruntEmoteDir = [] ∨ Tidy environment.gruntEmoteDir := by
  unfold resolveEmotePath
  by_cases override : environment.gruntEmoteDir = []
  · rw [if_neg (not_not.mpr override), iff_true_right (.inl override)]
    split
    case isTrue xdg =>
      exact @tidy_join _ xdg [utf8 "grunt"] (by decide)
    case isFalse =>
      split
      case isTrue home =>
        exact @tidy_join _ home [utf8 ".local", utf8 "share", utf8 "grunt"] (by decide)
      case isFalse => exact @tidy_join (utf8 "grunt") (by decide) [] (by decide)
  · rw [if_pos override]
    exact (or_iff_right override).symm

theorem resolveEmotePath_ne_nil (environment : EmoteEnvironment) :
    resolveEmotePath environment ≠ [] := by
  by_cases override : environment.gruntEmoteDir = []
  · intro empty
    have tidy := (tidy_resolveEmotePath environment).mpr (.inl override)
    have cleaned := tidy.clean
    rw [empty] at cleaned
    exact absurd cleaned (by decide)
  · unfold resolveEmotePath
    rw [if_pos override]
    exact override

/-! ## The address of an emote -/

def Serves (platform : Platform) (request : Request) (path : ByteString) : Prop :=
  ∃ headers, ∀ identity, dispatch platform request identity (route platform request) =
    .perform (.readFile path) fun file => .done (.sent 200 headers (.file path file))

def Fetches (platform : Platform) (headers : Request) (tag path : ByteString) : Prop :=
  ∃ address request, Address.source tag = some address ∧
    Arrives platform headers address request ∧ Serves platform request path

section Fetching

variable {entry : DirEntry} {name : EmoteName} {extension : ImageExtension}

theorem fileName_bytes (name : EmoteName) (extension : ImageExtension) :
    ∀ byte ∈ name.text ++ extension.text, byte ≠ Path.slash ∧ byte ≠ Path.percent ∧
      byte ≠ Address.quote ∧ byte ≠ Address.ampersand ∧ Address.inPath byte = true := by
  have nameByte : ∀ byte, isNameByte byte = true → byte ≠ Path.slash ∧ byte ≠ Path.percent ∧
      byte ≠ Address.quote ∧ byte ≠ Address.ampersand ∧ Address.inPath byte = true := by
    intro byte
    have values : ∀ value : Fin 256, isNameByte (UInt8.ofFin value) = true →
        UInt8.ofFin value ≠ Path.slash ∧ UInt8.ofFin value ≠ Path.percent ∧
        UInt8.ofFin value ≠ Address.quote ∧ UInt8.ofFin value ≠ Address.ampersand ∧
        Address.inPath (UInt8.ofFin value) = true := by
      decide +kernel
    exact values byte.toFin
  have extensionByte : ∀ byte ∈ extension.text, byte ≠ Path.slash ∧ byte ≠ Path.percent ∧
      byte ≠ Address.quote ∧ byte ≠ Address.ampersand ∧ Address.inPath byte = true := by
    cases extension <;> exact Bytes.forall_of_all (by decide)
  intro byte member
  rcases List.mem_append.mp member with member | member
  · exact nameByte byte (name.valid byte member)
  · exact extensionByte byte member

theorem isName_fileName (name : EmoteName) (extension : ImageExtension) :
    Path.IsName (name.text ++ extension.text) := by
  have length : 5 ≤ (name.text ++ extension.text).length := by
    have named := List.length_pos_of_ne_nil name.nonempty
    have extended : 4 ≤ extension.text.length := by cases extension <;> decide
    rw [List.length_append]
    omega
  constructor
  · intro same
    rw [same] at length
    exact absurd length (by decide)
  · intro same
    rw [same] at length
    exact absurd length (by decide)
  · intro same
    rw [same] at length
    exact absurd length (by decide)
  · exact fun member => (fileName_bytes name extension _ member).1 rfl

theorem not_contains_fileName (name : EmoteName) (extension : ImageExtension) :
    Bytes.contains (utf8 "..") (name.text ++ extension.text) = false := by
  apply Bool.eq_false_iff.mpr
  intro dots
  have twice := (Bytes.contains_iff_infix.mp dots).sublist.count_le 46
  have named : name.text.count 46 = 0 := List.count_eq_zero.mpr fun member => by
    have valid := name.valid 46 member
    revert valid
    decide
  have once : extension.text.count 46 = 1 := by cases extension <;> decide
  rw [List.count_append, named, once] at twice
  exact absurd twice (by decide)

theorem get_emote (headers : Request) (name : EmoteName) (extension : ImageExtension) :
    ∃ request, headers.get (utf8 "/emotes/" ++ (name.text ++ extension.text)) = some request ∧
      request.path = utf8 "/emotes/" ++ (name.text ++ extension.text) ∧
      request.escapedPath =
        Address.ofSegments [utf8 "emotes", name.text ++ extension.text] := by
  have bytes := fileName_bytes name extension
  have named := isName_fileName name extension
  generalize name.text ++ extension.text = file at bytes named ⊢
  have written : utf8 "/emotes/" ++ file = Address.ofSegments [utf8 "emotes", file] := by
    rw [Address.ofSegments_cons (List.cons_ne_nil file []), Address.ofSegments_singleton]
    have front : utf8 "/emotes/" = Path.slash :: (utf8 "emotes" ++ [Path.slash]) := by decide
    rw [front, List.cons_append, List.append_assoc, List.singleton_append]
  have signless : Path.percent ∉ utf8 "/emotes/" ++ file := by
    rw [List.mem_append, not_or]
    exact ⟨by decide, fun member => (bytes _ member).2.1 rfl⟩
  have front : ∀ byte ∈ utf8 "/emotes/", Address.inPath byte = true :=
    Bytes.forall_of_all (by decide)
  have whole : Address.path (utf8 "/emotes/" ++ file) = utf8 "/emotes/" ++ file := by
    apply List.takeWhile_eq_self_iff.mpr
    intro byte member
    rcases List.mem_append.mp member with member | member
    · exact front byte member
    · exact (bytes byte member).2.2.2.2
  have decoded : Path.unescape file = some file :=
    Path.unescape_of_not_mem fun member => (bytes _ member).2.1 rfl
  have dotless : Address.isDots file = false := by
    simp [Address.isDots, Address.isSingleDot, Address.isDoubleDot, decoded, named.notDot,
      named.notDotDot]
  have requested : Address.requested (utf8 "/emotes/" ++ file) = [utf8 "emotes", file] := by
    apply Address.requested_eq (List.cons_ne_nil _ _) _ _ (whole.trans written)
    · intro segment member
      rcases List.mem_cons.mp member with rfl | member
      · decide
      · rw [List.mem_singleton.mp member]
        exact named.whole
    · intro segment member
      rcases List.mem_cons.mp member with rfl | member
      · decide
      · rw [List.mem_singleton.mp member]
        exact dotless
  unfold Request.get Address.target
  rw [requested, ← written, Path.unescape_of_not_mem signless]
  exact ⟨_, rfl, rfl, rfl⟩

theorem route_emote {platform : Platform} {request : Request} {file : ByteString}
    (named : Path.IsName file)
    (escaped : request.escapedPath = Address.ofSegments [utf8 "emotes", file]) :
    route platform request = if platform.watchesEmotes then .runtimeEmotes else .index := by
  have plain : Plain ([utf8 "emotes"] ++ [file]) := by
    constructor
    · intro segment member
      rcases List.mem_cons.mp member with rfl | member
      · decide
      · rw [List.mem_singleton.mp member]
        exact named.whole
    · simp [Ne.symm named.notDot]
      decide
    · simp [Ne.symm named.notDotDot]
      decide
  have clean : cleanPath request.escapedPath = request.escapedPath := by
    rw [escaped]
    exact (cleanPath_eq_self_iff plain).mpr (by decide)
  have segments : pathSegments request.escapedPath =
      [utf8 "emotes", (Path.unescape file).getD file] := by
    have whole : ∀ segment ∈ [utf8 "emotes", file], Path.slash ∉ segment := plain.whole
    rw [escaped, pathSegments_ofSegments (List.cons_ne_nil _ _) whole]
    rfl
  unfold route
  rw [if_pos clean, muxRoute_of_segments segments, if_neg (by decide),
    apiRoute_pair request (by decide)]
  simp only [true_and]

/-- The handler's check is passed in a tidy directory, and there only is the
path that is served the one of the file. -/
theorem runtimeEmotePath_eq_iff {dir : ByteString} (present : dir ≠ [])
    (name : EmoteName) (extension : ImageExtension) :
    runtimeEmotePath dir (name.text ++ extension.text) =
        some (dir ++ Path.slash :: (name.text ++ extension.text)) ↔ Tidy dir := by
  have named := isName_fileName name extension
  have single := not_contains_fileName name extension
  generalize name.text ++ extension.text = file at named single ⊢
  constructor
  · intro served
    have path := eq_clean_of_runtimeEmotePath served
    rw [Path.clean_name present named] at path
    split at path
    case isTrue root =>
      -- the path would be shorter than the directory and the file together
      exact absurd (List.append_left_eq_self.mp path) present
    case isFalse below =>
      split at path
      case isTrue here =>
        have length := congrArg List.length path
        rw [List.length_append, List.length_cons] at length
        omega
      case isFalse other =>
        have same := List.append_cancel_right path
        exact ⟨same.symm, fun root => below (same ▸ root), fun here => other (same ▸ here)⟩
  · intro tidy
    have path : Path.clean (dir ++ Path.slash :: file) = dir ++ Path.slash :: file := by
      rw [Path.clean_name present named, tidy.clean, if_neg tidy.notRoot,
        if_neg tidy.notHere]
    have below : Bytes.hasPrefix (dir ++ utf8 "/") (dir ++ Path.slash :: file) = true := by
      have split : dir ++ Path.slash :: file = (dir ++ utf8 "/") ++ file := by
        rw [List.append_assoc]
        rfl
      rw [split]
      exact Bytes.hasPrefix_append _ _
    unfold runtimeEmotePath
    rw [if_neg present, if_neg (by simp [named.nonempty, single]),
      Path.join_pair present named.nonempty]
    simp only [path, below, true_or, if_true]

theorem index_anonymous (platform : Platform) {request : Request}
    (read : request.method = utf8 "GET") :
    dispatch platform request ⟨[], false, false⟩ .index = .done
      (.sent 200 [Response.htmlHeader] (.login none (some (buildInfo platform)))) := by
  have other : ¬ (isMethod "POST" request = true ∧ request.path = utf8 "/login") := by
    intro posted
    have same := of_decide_eq_true posted.1
    rw [read] at same
    revert same
    decide
  unfold dispatch handleIndexOrLogin
  rw [if_neg other]
  rfl

theorem serves_iff {platform : Platform} {request : Request} {path : ByteString}
    (handled : route platform request =
      if platform.watchesEmotes then .runtimeEmotes else .index)
    (read : request.method = utf8 "GET") :
    Serves platform request path ↔ platform.watchesEmotes = true ∧
      runtimeEmotePath platform.emoteDir (Bytes.trimPrefix (utf8 "/emotes/") request.path) =
        some path := by
  unfold Serves
  rw [handled]
  cases watches : platform.watchesEmotes with
  | false =>
      rw [if_neg Bool.false_ne_true]
      constructor
      · rintro ⟨headers, serves⟩
        have login := serves ⟨[], false, false⟩
        rw [index_anonymous platform read] at login
        cases login
      · exact fun both => absurd both.1 Bool.false_ne_true
  | true =>
      rw [if_pos rfl, and_iff_right rfl]
      have opens : ∀ identity, dispatch platform request identity .runtimeEmotes =
          handleRuntimeEmotes platform request := fun _ => rfl
      simp only [opens]
      unfold handleRuntimeEmotes
      dsimp only
      cases runtimeEmotePath platform.emoteDir
          (Bytes.trimPrefix (utf8 "/emotes/") request.path) with
      | none =>
          constructor
          · rintro ⟨headers, serves⟩
            cases serves ⟨[], false, false⟩
          · exact fun same => absurd same.symm (Option.some_ne_none path)
      | some found =>
          constructor
          · rintro ⟨headers, serves⟩
            have same := (Program.perform.inj (serves ⟨[], false, false⟩)).1
            rw [Op.readFile.inj same]
          · intro same
            rw [Option.some.inj same]
            exact ⟨_, fun _ => rfl⟩

theorem source_emote (name : EmoteName) (extension : ImageExtension) :
    Address.source (Emote.image name extension).html =
      some (utf8 "/emotes/" ++ (name.text ++ extension.text)) := by
  have bytes := fileName_bytes name extension
  have split : (Emote.image name extension).html = Address.imageMarker ++
      (utf8 "/emotes/" ++ (name.text ++ extension.text)) ++ Address.quote ::
        (utf8 " alt=\":" ++ name.text ++ utf8 ":\" class=\"emote\">") := by
    have front : utf8 "<img src=\"/emotes/" = Address.imageMarker ++ utf8 "/emotes/" := by
      decide
    have middle : utf8 "\" alt=\":" = Address.quote :: utf8 " alt=\":" := by decide
    unfold Emote.html
    rw [front, middle]
    simp only [List.append_assoc, List.cons_append]
  generalize name.text ++ extension.text = file at bytes split ⊢
  have closed : Address.quote ∉ utf8 "/emotes/" ++ file := by
    rw [List.mem_append, not_or]
    exact ⟨by decide, fun member => (bytes _ member).2.2.1 rfl⟩
  have literal : Address.ampersand ∉ utf8 "/emotes/" ++ file := by
    rw [List.mem_append, not_or]
    exact ⟨by decide, fun member => (bytes _ member).2.2.2.1 rfl⟩
  rw [split, Address.source_image closed, Address.decodeReferences_of_not_mem literal]

theorem fetches_iff (platform : Platform) (present : platform.emoteDir ≠ [])
    (headers : Request) (name : EmoteName) (extension : ImageExtension) :
    Fetches platform headers (Emote.image name extension).html
        (platform.emoteDir ++ Path.slash :: (name.text ++ extension.text)) ↔
      platform.watchesEmotes = true ∧ Tidy platform.emoteDir := by
  rcases get_emote headers name extension with ⟨request, asked, path, escaped⟩
  have handled := @route_emote platform _ _ (isName_fileName name extension) escaped
  have stays : ∀ target, route platform request ≠ .redirect target := by
    intro target
    rw [handled]
    split <;> exact fun moved => by cases moved
  have trimmed : Bytes.trimPrefix (utf8 "/emotes/") request.path =
      name.text ++ extension.text := by
    unfold Bytes.trimPrefix
    rw [path, Bytes.hasPrefix_append, if_pos rfl, List.drop_left]
  have serves := @serves_iff platform request
    (platform.emoteDir ++ Path.slash :: (name.text ++ extension.text)) handled
    (Request.get_eq_some asked).2.2
  rw [trimmed, runtimeEmotePath_eq_iff present] at serves
  rw [← serves]
  unfold Fetches
  constructor
  · rintro ⟨address, last, found, arrives, served⟩
    rw [source_emote] at found
    cases found
    rw [(arrives_iff asked stays).mp arrives] at served
    exact served
  · exact fun served =>
      ⟨_, request, source_emote name extension, (arrives_iff asked stays).mpr rfl, served⟩

end Fetching

namespace EmoteMap

/-- The tag is that of a file of the listing, and a browser that shows it is
served that file of the directory. -/
def Available (platform : Platform) (environment : EmoteEnvironment) (headers : Request)
    (entries : List DirEntry) (name tag : ByteString) : Prop :=
  ∃ entry ∈ entries, tag = imageTag entry name ∧
    Fetches (platform.resolved environment) headers tag
      (resolveEmotePath environment ++ utf8 "/" ++ entry.name)

theorem imageTag_inj {left right : DirEntry} {name : ByteString}
    (same : imageTag left name = imageTag right name) : left.name = right.name := by
  unfold imageTag at same
  simp only [List.append_assoc] at same
  have values := List.append_cancel_left (List.append_cancel_left same)
  exact List.append_cancel_right values

theorem entry_of_loaded {entries : List DirEntry} {name tag : ByteString}
    (loads : loaded entries name = some tag) :
    ∃ entry ∈ entries, ∃ image, imageEmote entry = some image ∧
      tag = (Emote.image image.1 image.2).html ∧ tag = imageTag entry name ∧
      entry.name = image.1.text ++ image.2.text := by
  rw [loaded_eq] at loads
  rcases Option.map_eq_some_iff.mp loads with ⟨emote, found, rfl⟩
  rcases image_of_loadedEmotes found with ⟨entry, member, image, stands, rfl, rfl⟩
  exact ⟨entry, member, image, stands, rfl, (imageTag_eq stands).symm,
    entry_of_imageEmote stands⟩

theorem available_iff_tidy (platform : Platform) (environment : EmoteEnvironment)
    (headers : Request) {entries : List DirEntry} {name tag : ByteString}
    (loads : loaded entries name = some tag) :
    Available platform environment headers entries name tag ↔
      platform.watchesEmotes = true ∧ Tidy (resolveEmotePath environment) := by
  rcases entry_of_loaded loads with ⟨entry, member, image, -, written, tagged, file⟩
  have fetches := fetches_iff (platform.resolved environment)
    (resolveEmotePath_ne_nil environment) headers image.1 image.2
  have path : resolveEmotePath environment ++ utf8 "/" ++ entry.name =
      resolveEmotePath environment ++ Path.slash :: (image.1.text ++ image.2.text) := by
    rw [file, List.append_assoc]
    rfl
  have available : Available platform environment headers entries name tag ↔
      Fetches (platform.resolved environment) headers (Emote.image image.1 image.2).html
        (resolveEmotePath environment ++ Path.slash :: (image.1.text ++ image.2.text)) := by
    rw [← path, ← written]
    constructor
    · rintro ⟨other, -, same, served⟩
      rw [imageTag_inj (tagged.symm.trans same)]
      exact served
    · exact fun served => ⟨entry, member, tagged, served⟩
  rw [available]
  exact fetches

/-- Every image of the map is available when the watcher runs, and the directory
was not given or was given as cleaning writes it; else none is. -/
theorem available_iff (platform : Platform) (environment : EmoteEnvironment)
    (headers : Request) {entries : List DirEntry} {name tag : ByteString}
    (loads : loaded entries name = some tag) :
    Available platform environment headers entries name tag ↔
      platform.watchesEmotes = true ∧
        (environment.gruntEmoteDir = [] ∨ Tidy environment.gruntEmoteDir) := by
  rw [available_iff_tidy platform environment headers loads,
    tidy_resolveEmotePath environment]

def watching : Platform := { Platform.transparent with watchesEmotes := true }

/-- A request in which a browser sends nothing but the address. -/
def bareRequest : Request := .plain (utf8 "GET") [] .empty

def waveFile : DirEntry := ⟨utf8 "wave.png", false⟩

/-- A slash at the end of the variable is enough to serve no emote at all. -/
theorem trailingSlash_not_available :
    loaded [waveFile] (utf8 "wave") = some (imageTag waveFile (utf8 "wave")) ∧
      ¬ Available watching ⟨utf8 "/srv/emotes/", [], []⟩ bareRequest [waveFile] (utf8 "wave")
        (imageTag waveFile (utf8 "wave")) := by
  have loads : loaded [waveFile] (utf8 "wave") = some (imageTag waveFile (utf8 "wave")) := by
    decide
  refine ⟨loads, fun available => ?_⟩
  have tidy := ((available_iff_tidy _ _ _ loads).mp available).2
  have cleaned := tidy.clean
  revert cleaned
  decide

/-- With a home directory and nothing else set, they are served. -/
theorem home_available :
    Available watching ⟨[], [], utf8 "/home/ann"⟩ bareRequest [waveFile] (utf8 "wave")
      (imageTag waveFile (utf8 "wave")) :=
  (available_iff watching ⟨[], [], utf8 "/home/ann"⟩ bareRequest (by decide)).mpr
    ⟨rfl, .inl rfl⟩

end EmoteMap

end Grunt.Server
