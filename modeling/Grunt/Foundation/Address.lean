import Mathlib.Data.List.TakeWhile
import Grunt.Foundation.Cleaning
import Grunt.Foundation.Percent

/-! # Addresses

What a browser makes of an address in the markup of a page: the value of an
attribute, the path without query and fragment, and the segments of that path
without those that stand for the place itself and the place above.
-/

namespace Grunt.Foundation

namespace Address

/-! ## Attributes -/

def decodeReferences : ByteString → ByteString
  | 38 :: 97 :: 109 :: 112 :: 59 :: rest => 38 :: decodeReferences rest
  | 38 :: 108 :: 116 :: 59 :: rest => 60 :: decodeReferences rest
  | 38 :: 103 :: 116 :: 59 :: rest => 62 :: decodeReferences rest
  | 38 :: 35 :: 51 :: 52 :: 59 :: rest => 34 :: decodeReferences rest
  | 38 :: 35 :: 51 :: 57 :: 59 :: rest => 39 :: decodeReferences rest
  | 38 :: 35 :: 52 :: 51 :: 59 :: rest => 43 :: decodeReferences rest
  | byte :: rest => byte :: decodeReferences rest
  | [] => []

example : decodeReferences (utf8 "a&amp;b &#34;&#43;&lt;&amp;lt;&") = utf8 "a&b \"+<&lt;&" := by
  decide

def ampersand : UInt8 := 38

theorem decodeReferences_cons {byte : UInt8} (plain : byte ≠ ampersand) (rest : ByteString) :
    decodeReferences (byte :: rest) = byte :: decodeReferences rest := by
  rw [decodeReferences]
  all_goals exact fun tail same => absurd same plain

theorem decodeReferences_of_not_mem {text : ByteString} (plain : ampersand ∉ text) :
    decodeReferences text = text := by
  induction text with
  | nil => rfl
  | cons byte rest induction =>
      have here : byte ≠ ampersand := fun same => plain (same ▸ List.mem_cons_self)
      rw [decodeReferences_cons here,
        induction fun member => plain (List.mem_cons_of_mem byte member)]

def quote : UInt8 := 34

def imageMarker : ByteString := utf8 "<img src=\""

def source : ByteString → Option ByteString
  | [] => none
  | byte :: rest =>
      if Bytes.hasPrefix imageMarker (byte :: rest) then
        some (decodeReferences ((rest.drop 9).takeWhile fun byte => byte ≠ quote))
      else source rest

example : source (utf8 "<p><img src=\"/a&amp;b\" alt=\"<img\">") = some (utf8 "/a&b") := by
  decide

def passes (text : ByteString) : Bool :=
  text.tails.all fun tail =>
    tail = [] || !(imageMarker.isPrefixOf tail || tail.isPrefixOf imageMarker)

theorem source_append {text : ByteString} (passed : passes text = true) (rest : ByteString) :
    source (text ++ rest) = source rest := by
  induction text with
  | nil => rfl
  | cons byte text induction =>
      unfold passes at passed induction
      rw [List.tails, List.all_cons, Bool.and_eq_true_iff] at passed
      have here : ¬ (imageMarker <+: byte :: text ∨ byte :: text <+: imageMarker) := by
        have apart : imageMarker.isPrefixOf (byte :: text) = false ∧
            (byte :: text).isPrefixOf imageMarker = false := by
          simpa using passed.1
        rintro (front | front)
        · rw [List.isPrefixOf_iff_prefix.mpr front] at apart
          cases apart.1
        · rw [List.isPrefixOf_iff_prefix.mpr front] at apart
          cases apart.2
      have none : Bytes.hasPrefix imageMarker (byte :: (text ++ rest)) = false := by
        apply Bool.eq_false_iff.mpr
        intro front
        exact here (List.prefix_or_prefix_of_prefix (List.isPrefixOf_iff_prefix.mp front)
          (List.prefix_append (byte :: text) rest))
      rw [List.cons_append, source, none, if_neg Bool.false_ne_true]
      exact induction passed.2

theorem source_append_of_not_mem {text : ByteString} (plain : (60 : UInt8) ∉ text)
    (rest : ByteString) : source (text ++ rest) = source rest := by
  induction text with
  | nil => rfl
  | cons byte text induction =>
      have other : byte ≠ 60 := fun same => plain (same ▸ List.mem_cons_self)
      have none : Bytes.hasPrefix imageMarker (byte :: (text ++ rest)) = false := by
        have marker : imageMarker = 60 :: imageMarker.tail := by decide
        rw [marker]
        simp [Bytes.hasPrefix, List.isPrefixOf, Ne.symm other]
      rw [List.cons_append, source, none, if_neg Bool.false_ne_true,
        induction fun member => plain (List.mem_cons_of_mem byte member)]

theorem source_image {value : ByteString} (closed : quote ∉ value) (after : ByteString) :
    source (imageMarker ++ value ++ quote :: after) = some (decodeReferences value) := by
  have front : imageMarker = [60, 105, 109, 103, 32, 115, 114, 99, 61, 34] := by decide
  have read : source (imageMarker ++ (value ++ quote :: after)) =
      some (decodeReferences ((value ++ quote :: after).takeWhile fun byte => byte ≠ quote)) := by
    rw [source.eq_def, front]
    rfl
  have up : (value ++ quote :: after).takeWhile (fun byte => decide (byte ≠ quote)) = value := by
    rw [List.takeWhile_append_of_pos]
    · simp
    · exact fun byte member => decide_eq_true fun same => closed (same ▸ member)
  rw [List.append_assoc, read, up]

/-! ## Segments -/

def ofSegments (segments : List ByteString) : ByteString :=
  Path.slash :: [Path.slash].intercalate segments

def isSingleDot (segment : ByteString) : Bool := Path.unescape segment = some Path.dot

def isDoubleDot (segment : ByteString) : Bool := Path.unescape segment = some Path.dotDot

/-- The segments of a path, read one by one on top of those before them. A path
that ends in dots ends in a slash. -/
def resolveFrom : List ByteString → List ByteString → List ByteString
  | stack, [] => stack
  | stack, segment :: rest =>
      let left := if isDoubleDot segment then stack.tail else stack
      if isDoubleDot segment ∨ isSingleDot segment then
        resolveFrom (if rest = [] then [] :: left else left) rest
      else resolveFrom (segment :: stack) rest

def isQuestionMark (byte : UInt8) : Bool := byte = 63

def isNumberSign (byte : UInt8) : Bool := byte = 35

def inPath (byte : UInt8) : Bool := !isQuestionMark byte && !isNumberSign byte

def path (address : ByteString) : ByteString := address.takeWhile inPath

def query (address : ByteString) : ByteString :=
  match address.dropWhile inPath with
  | [] => []
  | mark :: rest =>
      if isQuestionMark mark then rest.takeWhile fun byte => !isNumberSign byte else []

/-- The segments of an address that begins with a slash. -/
def written (address : ByteString) : List ByteString :=
  Path.components ((path address).drop 1)

/-- The segments that are asked for. The address is written in the bytes of
URLs, which no browser encodes. -/
def requested (address : ByteString) : List ByteString :=
  (resolveFrom [] (written address)).reverse

def target (address : ByteString) : ByteString := ofSegments (requested address)

example : target (utf8 "/a/b/%2E./c/./d/..?q#f") = utf8 "/a/c/" := by decide

example : query (utf8 "/a?q?r#f") = utf8 "q?r" := by decide

/-! ## Paths of segments -/

theorem components_ofSegments {segments : List ByteString} (nonempty : segments ≠ [])
    (whole : ∀ segment ∈ segments, Path.slash ∉ segment) :
    Path.components ((ofSegments segments).drop 1) = segments :=
  Path.components_intercalate nonempty whole

theorem ofSegments_components {text : ByteString} :
    ofSegments (Path.components text) = Path.slash :: text := by
  unfold ofSegments Path.components
  rw [List.intercalate_splitOn]

theorem ofSegments_cons {segment : ByteString} {rest : List ByteString} (more : rest ≠ []) :
    ofSegments (segment :: rest) = Path.slash :: (segment ++ ofSegments rest) := by
  cases rest with
  | nil => exact absurd rfl more
  | cons next rest =>
      unfold ofSegments
      rw [List.intercalate_cons_cons, List.append_assoc, List.singleton_append]

theorem ofSegments_singleton (segment : ByteString) :
    ofSegments [segment] = Path.slash :: segment := by
  unfold ofSegments
  rw [List.intercalate_singleton]

theorem ofSegments_inj {left right : List ByteString} (one : left ≠ []) (other : right ≠ [])
    (leftWhole : ∀ segment ∈ left, Path.slash ∉ segment)
    (rightWhole : ∀ segment ∈ right, Path.slash ∉ segment)
    (same : ofSegments left = ofSegments right) : left = right := by
  rw [← components_ofSegments one leftWhole, same, components_ofSegments other rightWhole]

def weight (segments : List ByteString) : Nat :=
  (segments.map fun segment => Path.decodedLength segment + 1).sum

@[simp] theorem weight_nil : weight [] = 0 := rfl

@[simp] theorem weight_cons (segment : ByteString) (rest : List ByteString) :
    weight (segment :: rest) = Path.decodedLength segment + 1 + weight rest := by
  unfold weight
  rw [List.map_cons, List.sum_cons]

theorem weight_reverse (segments : List ByteString) :
    weight segments.reverse = weight segments := by
  unfold weight
  rw [List.map_reverse, List.sum_reverse]

theorem decodedLength_slash (left right : ByteString) :
    Path.decodedLength (left ++ Path.slash :: right) =
      Path.decodedLength left + 1 + Path.decodedLength right :=
  Path.decodedLength_append (by decide) (by decide) left right

theorem decodedLength_ofSegments {segments : List ByteString} (nonempty : segments ≠ []) :
    Path.decodedLength (ofSegments segments) = weight segments := by
  have front := fun rest => decodedLength_slash [] rest
  have none : Path.decodedLength [] = 0 := by rw [Path.decodedLength]
  simp only [List.nil_append, none, Nat.zero_add] at front
  induction segments with
  | nil => exact absurd rfl nonempty
  | cons segment rest induction =>
      rw [weight_cons]
      by_cases more : rest = []
      · subst more
        rw [ofSegments_singleton, front, weight_nil]
        omega
      · rcases tail : ofSegments rest with - | ⟨byte, later⟩
        · cases tail
        · have slash : byte = Path.slash := (List.cons.inj tail).1.symm
          have length := induction more
          rw [tail, slash, front] at length
          rw [ofSegments_cons more, tail, slash, front, decodedLength_slash]
          omega

theorem eq_ofSegments_of_unescape {segments : List ByteString} (nonempty : segments ≠ [])
    {path : ByteString} (decoded : Path.unescape (ofSegments segments) = some path) :
    path = ofSegments (segments.map fun segment => (Path.unescape segment).getD segment) := by
  have slash : Path.slash ≠ Path.percent := by decide
  induction segments generalizing path with
  | nil => exact absurd rfl nonempty
  | cons segment rest induction =>
      by_cases more : rest = []
      · subst more
        rw [ofSegments_singleton, Path.unescape_cons_of_ne slash] at decoded
        rcases Option.map_eq_some_iff.mp decoded with ⟨own, found, rfl⟩
        rw [List.map_singleton, ofSegments_singleton, found, Option.getD_some]
      · have written : ofSegments rest = Path.slash :: (ofSegments rest).tail := rfl
        rw [ofSegments_cons more, Path.unescape_cons_of_ne slash, written,
          Path.unescape_append (by decide) slash] at decoded
        rcases Option.map_eq_some_iff.mp decoded with ⟨both, found, rfl⟩
        rcases Option.bind_eq_some_iff.mp found with ⟨own, first, found⟩
        rcases Option.map_eq_some_iff.mp found with ⟨later, second, rfl⟩
        have tail : Path.unescape (ofSegments rest) = some (Path.slash :: later) := by
          rw [written, Path.unescape_cons_of_ne slash, second]
          rfl
        rw [List.map_cons, ofSegments_cons (by simp [more]), ← induction more tail, first,
          Option.getD_some]

/-! ## Reading the segments -/

def isDots (segment : ByteString) : Bool := isSingleDot segment || isDoubleDot segment

theorem decodedLength_of_isDots {segment : ByteString} (dots : isDots segment = true) :
    1 ≤ Path.decodedLength segment := by
  rcases Bool.or_eq_true_iff.mp dots with single | double
  · rw [← Path.length_of_unescape (of_decide_eq_true single)]
    decide
  · rw [← Path.length_of_unescape (of_decide_eq_true double)]
    decide

theorem decodedLength_nil : Path.decodedLength [] = 0 := by
  rw [Path.decodedLength]

theorem weight_tail_le (segments : List ByteString) :
    weight segments.tail ≤ weight segments := by
  cases segments with
  | nil => exact Nat.le_refl _
  | cons segment rest =>
      rw [weight_cons]
      exact Nat.le_add_left _ _

structure AfterDots (stack rest next : List ByteString) : Prop where
  nonempty : rest = [] → next ≠ []
  kept : ∀ segment ∈ next, segment = [] ∨ segment ∈ stack
  length_le : next.length ≤ stack.length + 1
  weight_le : weight next ≤ weight stack + 1

theorem resolveFrom_of_dots {segment : ByteString} (dots : isDots segment = true)
    (stack rest : List ByteString) :
    ∃ next, resolveFrom stack (segment :: rest) = resolveFrom next rest ∧
      AfterDots stack rest next := by
  have either : isDoubleDot segment = true ∨ isSingleDot segment = true :=
    (Bool.or_eq_true_iff.mp dots).symm
  rw [resolveFrom, if_pos either]
  refine ⟨_, rfl, ?_⟩
  have kept : ∀ left, left = stack ∨ left = stack.tail → (∀ other ∈ left, other ∈ stack) ∧
      left.length ≤ stack.length ∧ weight left ≤ weight stack := by
    intro left same
    rcases same with rfl | rfl
    · exact ⟨fun _ member => member, Nat.le_refl _, Nat.le_refl _⟩
    · exact ⟨fun _ member => List.mem_of_mem_tail member, by simp, weight_tail_le stack⟩
  have chosen : (if isDoubleDot segment then stack.tail else stack) = stack ∨
      (if isDoubleDot segment then stack.tail else stack) = stack.tail := by
    split
    · exact .inr rfl
    · exact .inl rfl
  rcases kept _ chosen with ⟨members, length, weighs⟩
  split
  case isTrue empty =>
    refine ⟨fun _ => List.cons_ne_nil _ _, fun other member => ?_, ?_, ?_⟩
    · exact (List.mem_cons.mp member).imp_right (members other)
    · exact Nat.succ_le_succ length
    · rw [weight_cons, decodedLength_nil]
      omega
  case isFalse more =>
    exact ⟨fun empty => absurd empty more, fun other member => .inr (members other member),
      Nat.le_succ_of_le length, Nat.le_succ_of_le weighs⟩

theorem resolveFrom_of_not_dots {segment : ByteString} (named : isDots segment = false)
    (stack rest : List ByteString) :
    resolveFrom stack (segment :: rest) = resolveFrom (segment :: stack) rest := by
  have neither := Bool.or_eq_false_iff.mp named
  rw [resolveFrom, if_neg]
  rw [neither.1, neither.2]
  exact not_or.mpr ⟨Bool.false_ne_true, Bool.false_ne_true⟩

theorem resolveFrom_eq {segments : List ByteString}
    (named : ∀ segment ∈ segments, isDots segment = false) (stack : List ByteString) :
    resolveFrom stack segments = segments.reverse ++ stack := by
  induction segments generalizing stack with
  | nil => rfl
  | cons segment rest induction =>
      have later : ∀ other ∈ rest, isDots other = false :=
        fun other member => named other (List.mem_cons_of_mem segment member)
      rw [resolveFrom_of_not_dots (named segment List.mem_cons_self), induction later,
        List.reverse_cons, List.append_assoc, List.singleton_append]

theorem resolveFrom_ne_nil {segments : List ByteString} (nonempty : segments ≠ [])
    (stack : List ByteString) : resolveFrom stack segments ≠ [] := by
  have stays : ∀ {rest stack : List ByteString}, (rest = [] → stack ≠ []) →
      resolveFrom stack rest ≠ [] := by
    intro rest
    induction rest with
    | nil => exact fun nonempty => nonempty rfl
    | cons segment rest induction =>
        intro stack _
        cases dots : isDots segment with
        | false =>
            rw [resolveFrom_of_not_dots dots]
            exact induction fun _ => List.cons_ne_nil segment stack
        | true =>
            rcases resolveFrom_of_dots dots stack rest with ⟨next, same, after⟩
            rw [same]
            exact induction after.nonempty
  exact stays fun empty => absurd empty nonempty

theorem mem_of_mem_resolveFrom {segments stack : List ByteString} {segment : ByteString}
    (member : segment ∈ resolveFrom stack segments) :
    segment = [] ∨ segment ∈ stack ∨ (segment ∈ segments ∧ isDots segment = false) := by
  induction segments generalizing stack with
  | nil => exact .inr (.inl member)
  | cons head rest induction =>
      cases dots : isDots head with
      | false =>
          rw [resolveFrom_of_not_dots dots] at member
          rcases induction member with empty | inside | later
          · exact .inl empty
          · rcases List.mem_cons.mp inside with rfl | inside
            · exact .inr (.inr ⟨List.mem_cons_self, dots⟩)
            · exact .inr (.inl inside)
          · exact .inr (.inr ⟨List.mem_cons_of_mem head later.1, later.2⟩)
      | true =>
          rcases resolveFrom_of_dots dots stack rest with ⟨next, same, after⟩
          rw [same] at member
          rcases induction member with empty | inside | later
          · exact .inl empty
          · exact (after.kept segment inside).imp_right .inl
          · exact .inr (.inr ⟨List.mem_cons_of_mem head later.1, later.2⟩)

theorem length_resolveFrom_le (stack segments : List ByteString) :
    (resolveFrom stack segments).length ≤ stack.length + segments.length := by
  induction segments generalizing stack with
  | nil => exact Nat.le_refl _
  | cons segment rest induction =>
      rw [List.length_cons]
      cases dots : isDots segment with
      | false =>
          have later := induction (segment :: stack)
          rw [List.length_cons] at later
          rw [resolveFrom_of_not_dots dots]
          omega
      | true =>
          rcases resolveFrom_of_dots dots stack rest with ⟨next, same, after⟩
          have later := induction next
          have shorter := after.length_le
          rw [same]
          omega

theorem weight_resolveFrom_le (stack segments : List ByteString) :
    weight (resolveFrom stack segments) ≤ weight stack + weight segments := by
  induction segments generalizing stack with
  | nil => exact Nat.le_refl _
  | cons segment rest induction =>
      rw [weight_cons]
      cases dots : isDots segment with
      | false =>
          have later := induction (segment :: stack)
          rw [weight_cons] at later
          rw [resolveFrom_of_not_dots dots]
          omega
      | true =>
          rcases resolveFrom_of_dots dots stack rest with ⟨next, same, after⟩
          have later := induction next
          have lighter := after.weight_le
          rw [same]
          omega

theorem named_of_weight_resolveFrom {stack segments : List ByteString}
    (whole : weight (resolveFrom stack segments) = weight stack + weight segments) :
    ∀ segment ∈ segments, isDots segment = false := by
  induction segments generalizing stack with
  | nil => exact fun _ member => absurd member List.not_mem_nil
  | cons segment rest induction =>
      cases dots : isDots segment with
      | false =>
          rw [resolveFrom_of_not_dots dots, weight_cons] at whole
          have later := @induction (segment :: stack) (by rw [whole, weight_cons]; omega)
          intro other member
          rcases List.mem_cons.mp member with rfl | member
          · exact dots
          · exact later other member
      | true =>
          rcases resolveFrom_of_dots dots stack rest with ⟨next, same, after⟩
          have later := weight_resolveFrom_le next rest
          have lighter := after.weight_le
          have long := decodedLength_of_isDots dots
          rw [same, weight_cons] at whole
          omega

/-! ## The path that is asked for -/

theorem requested_ne_nil (address : ByteString) : requested address ≠ [] := by
  unfold requested
  rw [ne_eq, List.reverse_eq_nil_iff]
  exact resolveFrom_ne_nil (List.splitOn_ne_nil _ _) []

theorem slash_not_mem_of_mem_requested {address segment : ByteString}
    (member : segment ∈ requested address) : Path.slash ∉ segment := by
  rcases mem_of_mem_resolveFrom (List.mem_reverse.mp member) with rfl | inside | inside
  · exact List.not_mem_nil
  · cases inside
  · exact Path.slash_not_mem_of_mem_components inside.1

theorem isDots_of_mem_requested {address segment : ByteString}
    (member : segment ∈ requested address) : isDots segment = false := by
  rcases mem_of_mem_resolveFrom (List.mem_reverse.mp member) with rfl | inside | inside
  · rfl
  · cases inside
  · exact inside.2

theorem requested_eq {address : ByteString} {segments : List ByteString}
    (nonempty : segments ≠ []) (whole : ∀ segment ∈ segments, Path.slash ∉ segment)
    (named : ∀ segment ∈ segments, isDots segment = false)
    (same : path address = ofSegments segments) : requested address = segments := by
  unfold requested written
  rw [same, components_ofSegments nonempty whole, resolveFrom_eq named, List.append_nil,
    List.reverse_reverse]

theorem path_eq_or_lt (address : ByteString) :
    path address = address ∨
      Path.decodedLength (path address) < Path.decodedLength address := by
  have whole : path address ++ address.dropWhile inPath = address :=
    List.takeWhile_append_dropWhile
  rcases rest : address.dropWhile inPath with - | ⟨mark, tail⟩
  · rw [rest, List.append_nil] at whole
    exact .inl whole
  · have found : inPath mark = false := by
      have head := List.head_dropWhile_not inPath (l := address) (by rw [rest]; exact List.cons_ne_nil _ _)
      simpa only [rest, List.head_cons] using head
    have plain : Path.unhex mark = none ∧ mark ≠ Path.percent := by
      have values : ∀ value : Fin 256, inPath (UInt8.ofFin value) = false →
          Path.unhex (UInt8.ofFin value) = none ∧ UInt8.ofFin value ≠ Path.percent := by
        decide +kernel
      exact values mark.toFin found
    have length := Path.decodedLength_append plain.1 plain.2 (path address) tail
    rw [← rest, whole] at length
    exact .inr (by omega)

theorem length_components (text : ByteString) :
    (Path.components text).length = text.count Path.slash + 1 := by
  induction text with
  | nil => rfl
  | cons byte rest induction =>
      unfold Path.components at induction ⊢
      rw [List.splitOn_cons_eq_if_modifyHead, List.count_cons]
      split
      · rw [List.length_cons, induction]
      · rw [List.length_modifyHead, induction]

theorem count_ofSegments {segments : List ByteString} (nonempty : segments ≠ [])
    (whole : ∀ segment ∈ segments, Path.slash ∉ segment) :
    (ofSegments segments).count Path.slash = segments.length := by
  have length := length_components ((ofSegments segments).drop 1)
  rw [components_ofSegments nonempty whole] at length
  unfold ofSegments at length ⊢
  rw [List.count_cons_self, length]
  rfl

theorem written_ne_nil (address : ByteString) : written address ≠ [] :=
  List.splitOn_ne_nil _ _

section Rooted

variable (rest : ByteString)

theorem ofSegments_written :
    ofSegments (written (Path.slash :: rest)) = path (Path.slash :: rest) :=
  ofSegments_components

theorem weight_written :
    weight (written (Path.slash :: rest)) = Path.decodedLength (path (Path.slash :: rest)) := by
  rw [← decodedLength_ofSegments (written_ne_nil _), ofSegments_written]

theorem decodedLength_target (address : ByteString) :
    Path.decodedLength (target address) = weight (resolveFrom [] (written address)) := by
  unfold target
  rw [decodedLength_ofSegments (requested_ne_nil address)]
  exact weight_reverse _

theorem decodedLength_target_le_path :
    Path.decodedLength (target (Path.slash :: rest)) ≤
      Path.decodedLength (path (Path.slash :: rest)) := by
  have resolved := weight_resolveFrom_le [] (written (Path.slash :: rest))
  rwa [weight_written, weight_nil, Nat.zero_add, ← decodedLength_target] at resolved

theorem decodedLength_target_le :
    Path.decodedLength (target (Path.slash :: rest)) ≤
      Path.decodedLength (Path.slash :: rest) := by
  have resolved := decodedLength_target_le_path rest
  rcases path_eq_or_lt (Path.slash :: rest) with same | fewer
  · rwa [same] at resolved
  · omega

theorem of_decodedLength_target
    (whole : Path.decodedLength (target (Path.slash :: rest)) =
      Path.decodedLength (Path.slash :: rest)) :
    path (Path.slash :: rest) = Path.slash :: rest ∧
      ∀ segment ∈ Path.components rest, isDots segment = false := by
  have resolved := decodedLength_target_le_path rest
  rcases path_eq_or_lt (Path.slash :: rest) with same | fewer
  · have kept : weight (resolveFrom [] (written (Path.slash :: rest))) =
        weight [] + weight (written (Path.slash :: rest)) := by
      rw [← decodedLength_target, whole, weight_written, same, weight_nil, Nat.zero_add]
    have named := named_of_weight_resolveFrom kept
    unfold written at named
    rw [same] at named
    exact ⟨same, named⟩
  · omega

theorem requested_of_path (same : path (Path.slash :: rest) = Path.slash :: rest)
    (named : ∀ segment ∈ Path.components rest, isDots segment = false) :
    requested (Path.slash :: rest) = Path.components rest := by
  unfold requested written
  rw [same]
  exact (congrArg List.reverse (resolveFrom_eq named [])).trans (by simp)

theorem count_target_le :
    (target (Path.slash :: rest)).count Path.slash ≤ (Path.slash :: rest).count Path.slash := by
  have fewer := length_resolveFrom_le [] (written (Path.slash :: rest))
  have asked := count_ofSegments (requested_ne_nil (Path.slash :: rest))
    fun segment member => slash_not_mem_of_mem_requested member
  have all := count_ofSegments (written_ne_nil (Path.slash :: rest))
    fun segment member => Path.slash_not_mem_of_mem_components member
  have cut : (path (Path.slash :: rest)).count Path.slash ≤
      (Path.slash :: rest).count Path.slash :=
    (List.takeWhile_sublist inPath).count_le Path.slash
  have length : (requested (Path.slash :: rest)).length =
      (resolveFrom [] (written (Path.slash :: rest))).length :=
    List.length_reverse
  rw [ofSegments_written] at all
  rw [List.length_nil, Nat.zero_add] at fewer
  unfold target
  omega

end Rooted

end Address

end Grunt.Foundation
