import Grunt.Foundation.Address
import Grunt.Server.Pages

/-! # Browsing

The request that an address in a page leads to, over the redirects of the mux,
and which paths the mux leaves as they are.
-/

namespace Grunt.Server

open Foundation

def Request.get (headers : Request) (address : ByteString) : Option Request :=
  (Path.unescape (Address.target address)).map fun path =>
    { headers with
      method := utf8 "GET"
      path := path
      escapedPath := Address.target address
      rawQuery := Address.query address }

inductive Arrives (platform : Platform) (headers : Request) : ByteString → Request → Prop
  | directly {address : ByteString} {request : Request}
      (asked : headers.get address = some request)
      (handled : ∀ path, route platform request ≠ .redirect path) :
      Arrives platform headers address request
  | redirected {address path : ByteString} {request last : Request}
      (asked : headers.get address = some request)
      (moved : route platform request = .redirect path)
      (followed : Arrives platform headers (request.location path) last) :
      Arrives platform headers address last

/-! ## Clean paths -/

section CleanPath

variable {init : List ByteString} {last : ByteString}

/-- Segments as they come out of a browser: none leads up or stays in place. -/
structure Plain (segments : List ByteString) : Prop where
  whole : ∀ segment ∈ segments, Path.slash ∉ segment
  notDot : Path.dot ∉ segments
  notDotDot : Path.dotDot ∉ segments

theorem Plain.of_subset {segments fewer : List ByteString} (plain : Plain segments)
    (subset : fewer ⊆ segments) : Plain fewer :=
  ⟨fun segment member => plain.whole segment (subset member),
    fun member => plain.notDot (subset member), fun member => plain.notDotDot (subset member)⟩

theorem Plain.filter (plain : Plain (init ++ [last])) :
    Plain (init.filter Path.counts ++ [last]) :=
  plain.of_subset (List.filter_sublist.append_right [last]).subset

theorem exists_ofSegments_concat (init : List ByteString) (last : ByteString) :
    ∃ front, Address.ofSegments (init ++ [last]) = front ++ Path.slash :: last := by
  by_cases empty : init = []
  · exact ⟨[], by rw [empty, List.nil_append, Address.ofSegments_singleton]; rfl⟩
  · exact ⟨Address.ofSegments init, by
      unfold Address.ofSegments
      rw [Path.intercalate_concat empty]
      rfl⟩

theorem getLast_ofSegments (whole : Path.slash ∉ last) :
    (Address.ofSegments (init ++ [last])).getLast? = some Path.slash ↔ last = [] := by
  rcases exists_ofSegments_concat init last with ⟨front, written⟩
  rw [written, List.getLast?_append_cons]
  constructor
  · intro ends
    cases last with
    | nil => rfl
    | cons byte rest =>
        rw [List.getLast?_cons_cons] at ends
        exact absurd (List.mem_of_getLast? ends) whole
  · rintro rfl
    rfl

theorem clean_ofSegments {segments : List ByteString} (nonempty : segments ≠ [])
    (plain : Plain segments) :
    Path.clean (Address.ofSegments segments) =
      Address.ofSegments (segments.filter Path.counts) := by
  have parts : Path.components (Address.ofSegments segments) = [] :: segments := by
    have front := Path.components_append [] ([Path.slash].intercalate segments)
    rw [Path.components_intercalate nonempty plain.whole,
      Path.components_of_not_mem List.not_mem_nil] at front
    exact front
  have kept : Path.cleanComponents (Address.ofSegments segments) =
      segments.filter Path.counts := by
    unfold Path.cleanComponents
    rw [parts, List.foldl_cons, Path.cleanStep_of_not_counts _ [] rfl,
      Path.foldl_cleanStep plain.notDotDot, List.append_nil, List.reverse_reverse]
  have rooted : Path.isRooted (Address.ofSegments segments) = true := rfl
  rw [Path.clean_eq_render, kept, rooted]
  rfl

theorem ofSegments_ne_root {segments : List ByteString} (nonempty : segments ≠ [])
    (counted : ∀ segment ∈ segments, Path.counts segment = true) :
    Address.ofSegments segments ≠ [Path.slash] := by
  cases segments with
  | nil => exact absurd rfl nonempty
  | cons segment rest =>
      have present := (Path.counts_eq_true.mp (counted segment List.mem_cons_self)).1
      intro root
      by_cases more : rest = []
      · rw [more, Address.ofSegments_singleton] at root
        exact present (List.cons.inj root).2
      · rw [Address.ofSegments_cons more] at root
        exact present (List.append_eq_nil_iff.mp (List.cons.inj root).2).1

theorem cleanPath_ofSegments (plain : Plain (init ++ [last])) :
    cleanPath (Address.ofSegments (init ++ [last])) =
      Address.ofSegments (init.filter Path.counts ++ [last]) := by
  have rooted : Path.isRooted (Address.ofSegments (init ++ [last])) = true := rfl
  have inside : last ∈ init ++ [last] := List.mem_append_right init (List.mem_singleton_self last)
  have ends := @getLast_ofSegments init last (plain.whole last inside)
  have cleaned := clean_ofSegments (List.append_ne_nil_of_right_ne_nil init
    (List.cons_ne_nil last [])) plain
  unfold cleanPath
  simp only [rooted, if_true]
  rw [cleaned, List.filter_append]
  by_cases empty : last = []
  · subst empty
    have dropped : [([] : ByteString)].filter Path.counts = [] := rfl
    rw [dropped, List.append_nil]
    by_cases none : init.filter Path.counts = []
    · rw [none, if_neg fun both => both.2 rfl]
      rfl
    · have below := ofSegments_ne_root none fun segment member => (List.mem_filter.mp member).2
      rw [if_pos ⟨ends.mpr rfl, below⟩]
      unfold Address.ofSegments
      rw [Path.intercalate_concat none]
      rfl
  · have counted : Path.counts last = true :=
      Path.counts_eq_true.mpr ⟨empty, fun same => plain.notDot (same ▸ inside)⟩
    rw [if_neg fun both => empty (ends.mp both.1), List.filter_cons_of_pos counted,
      List.filter_nil]

theorem cleanPath_eq_self_iff (plain : Plain (init ++ [last])) :
    cleanPath (Address.ofSegments (init ++ [last])) = Address.ofSegments (init ++ [last]) ↔
      [] ∉ init := by
  rw [cleanPath_ofSegments plain]
  constructor
  · intro same empty
    have segments := Address.ofSegments_inj (by simp) (by simp) plain.filter.whole
      plain.whole same
    have kept := List.filter_eq_self.mp (List.append_cancel_right segments) [] empty
    cases kept
  · intro present
    rw [List.filter_eq_self.mpr]
    intro segment member
    have here : segment ≠ Path.dot := fun same =>
      plain.notDot (List.mem_append_left [last] (same ▸ member))
    exact Path.counts_eq_true.mpr ⟨fun empty => present (empty ▸ member), here⟩

theorem count_lt_of_unclean (plain : Plain (init ++ [last]))
    (unclean : cleanPath (Address.ofSegments (init ++ [last])) ≠
      Address.ofSegments (init ++ [last])) :
    (Address.ofSegments (init.filter Path.counts ++ [last])).count Path.slash <
      (Address.ofSegments (init ++ [last])).count Path.slash := by
  have nonempty : ∀ front : List ByteString, front ++ [last] ≠ [] := by simp
  rw [Ne, cleanPath_eq_self_iff plain, not_not] at unclean
  have fewer : (init.filter Path.counts).length < init.length :=
    List.length_filter_lt_length_iff_exists.mpr ⟨[], unclean, by decide⟩
  rw [Address.count_ofSegments (nonempty _) plain.filter.whole,
    Address.count_ofSegments (nonempty _) plain.whole, List.length_append, List.length_append]
  omega

end CleanPath

/-! ## Requests for addresses -/

section Requests

variable {platform : Platform} {headers request : Request} {address : ByteString}

theorem plain_requested (address : ByteString) : Plain (Address.requested address) where
  whole := fun _ => Address.slash_not_mem_of_mem_requested
  notDot := fun member => absurd (Address.isDots_of_mem_requested member) (by decide)
  notDotDot := fun member => absurd (Address.isDots_of_mem_requested member) (by decide)

theorem Request.get_eq_some (asked : headers.get address = some request) :
    Path.unescape (Address.target address) = some request.path ∧
      request.escapedPath = Address.target address ∧ request.method = utf8 "GET" := by
  rcases Option.map_eq_some_iff.mp asked with ⟨path, decodes, rfl⟩
  exact ⟨decodes, rfl, rfl⟩

theorem arrives_iff {last : Request} (asked : headers.get address = some request)
    (handled : ∀ path, route platform request ≠ .redirect path) :
    Arrives platform headers address last ↔ last = request := by
  constructor
  · intro arrives
    cases arrives with
    | directly found => exact Option.some.inj (found.symm.trans asked)
    | redirected found moved =>
        rw [Option.some.inj (found.symm.trans asked)] at moved
        exact absurd moved (handled _)
  · rintro rfl
    exact .directly asked handled

theorem pathSegments_ofSegments {segments : List ByteString} (nonempty : segments ≠ [])
    (whole : ∀ segment ∈ segments, Path.slash ∉ segment) :
    pathSegments (Address.ofSegments segments) =
      segments.map fun segment => (Path.unescape segment).getD segment := by
  unfold pathSegments
  rw [Address.components_ofSegments nonempty whole]

/-! ## Redirects -/

theorem isDots_escape {segment : ByteString} (notDot : segment ≠ Path.dot)
    (notDotDot : segment ≠ Path.dotDot) : Address.isDots (Path.escape segment) = false := by
  simp [Address.isDots, Address.isSingleDot, Address.isDoubleDot, Path.unescape_escape, notDot,
    notDotDot]

theorem escape_ofSegments (segments : List ByteString) :
    Path.escape (Address.ofSegments segments) =
      Address.ofSegments (segments.map Path.escape) := by
  have slash : Path.escape [Path.slash] = [Path.slash] := by decide
  unfold Address.ofSegments
  rw [← List.singleton_append, Path.escape_append, slash, Path.escape_intercalate]
  rfl

theorem Plain.escape {segments : List ByteString} (plain : Plain segments) :
    Plain (segments.map Path.escape) := by
  constructor
  · intro segment member
    rcases List.mem_map.mp member with ⟨origin, inside, rfl⟩
    exact fun slash => plain.whole origin inside
      (Path.mem_of_mem_escape (by decide) (by decide) slash).1
  · intro member
    rcases List.mem_map.mp member with ⟨origin, inside, same⟩
    have decoded := Path.unescape_escape origin
    rw [same] at decoded
    have own : Path.dot = origin := Option.some.inj decoded
    exact plain.notDot (own ▸ inside)
  · intro member
    rcases List.mem_map.mp member with ⟨origin, inside, same⟩
    have decoded := Path.unescape_escape origin
    rw [same] at decoded
    have own : Path.dotDot = origin := Option.some.inj decoded
    exact plain.notDotDot (own ▸ inside)

theorem clean_redirected {init : List ByteString} {last : ByteString}
    (plain : Plain (init ++ [last])) :
    cleanPath (Address.ofSegments ((init.filter Path.counts ++ [last]).map Path.escape)) =
      Address.ofSegments ((init.filter Path.counts ++ [last]).map Path.escape) := by
  have escapes := plain.filter.escape
  rw [List.map_append, List.map_singleton] at escapes ⊢
  rw [cleanPath_eq_self_iff escapes]
  intro empty
  rcases List.mem_map.mp empty with ⟨segment, member, same⟩
  have counted := (List.mem_filter.mp member).2
  have own := Path.unescape_escape segment
  rw [same] at own
  exact (Path.counts_eq_true.mp counted).1 (Option.some.inj own).symm

theorem inPath_of_mem_escape {path : ByteString} :
    ∀ byte ∈ Path.escape path, Address.inPath byte = true := by
  intro byte member
  cases inside : Address.inPath byte with
  | true => rfl
  | false =>
      have values : ∀ value : Fin 256, Address.inPath (UInt8.ofFin value) = false →
          Path.unhex (UInt8.ofFin value) = none ∧ UInt8.ofFin value ≠ Path.percent ∧
          Path.isPathByte (UInt8.ofFin value) = false := by
        decide +kernel
      rcases values byte.toFin inside with ⟨plain, other, encoded⟩
      have kept := (Path.mem_of_mem_escape plain other member).2
      rw [encoded] at kept
      cases kept

theorem path_location (request : Request) (path : ByteString) :
    Address.path (request.location path) = Path.escape path := by
  have whole : (Path.escape path).takeWhile Address.inPath = Path.escape path :=
    List.takeWhile_eq_self_iff.mpr inPath_of_mem_escape
  unfold Request.location Address.path
  split
  · exact whole
  · have mark : utf8 "?" = [63] := by decide
    rw [mark, List.append_assoc, List.takeWhile_append_of_pos inPath_of_mem_escape,
      List.singleton_append, List.takeWhile_cons_of_neg (by decide), List.append_nil]

theorem get_location (headers request : Request) {segments : List ByteString}
    (nonempty : segments ≠ []) (plain : Plain segments) :
    ∃ next, headers.get (request.location (Address.ofSegments segments)) = some next ∧
      next.path = Address.ofSegments segments ∧
      next.escapedPath = Address.ofSegments (segments.map Path.escape) := by
  have requested : Address.requested (request.location (Address.ofSegments segments)) =
      segments.map Path.escape := by
    apply Address.requested_eq _ plain.escape.whole
    · intro segment member
      rcases List.mem_map.mp member with ⟨origin, inside, rfl⟩
      exact isDots_escape (fun same => plain.notDot (same ▸ inside))
        (fun same => plain.notDotDot (same ▸ inside))
    · rw [path_location, escape_ofSegments]
    · simp [nonempty]
  have decoded : Path.unescape (Address.ofSegments (segments.map Path.escape)) =
      some (Address.ofSegments segments) := by
    rw [← escape_ofSegments, Path.unescape_escape]
  unfold Request.get Address.target
  rw [requested, decoded]
  exact ⟨_, rfl, rfl, rfl⟩

theorem muxRoute_of_segments {first second : ByteString} {rest : List ByteString}
    (segments : pathSegments request.escapedPath = first :: second :: rest) :
    muxRoute platform request =
      if first = utf8 "static" then .staticFiles
      else if first = utf8 "emotes" ∧ platform.watchesEmotes = true then .runtimeEmotes
      else apiRoute request (first :: second :: rest) := by
  unfold muxRoute
  rw [segments]

theorem apiRoute_pair (request : Request) {first : ByteString} (other : first ≠ utf8 "api")
    {second : ByteString} : apiRoute request [first, second] = .index := by
  simp [apiRoute, other]

end Requests

end Grunt.Server
