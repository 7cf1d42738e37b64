import Mathlib.Data.List.TakeWhile
import Grunt.Foundation.Path

/-! # Cleaned paths

What lexical cleaning leaves of a path, told by its components: names, and
before them the `..` that lead out of a relative path.
-/

namespace Grunt.Foundation.Path

theorem components_append (left right : ByteString) :
    components (left ++ slash :: right) = components left ++ components right :=
  List.splitOn_append_cons_self left right

theorem slash_not_mem_of_mem_components {path component : ByteString}
    (member : component ∈ components path) : slash ∉ component :=
  Bytes.not_mem_of_mem_splitOn member

theorem components_of_not_mem {component : ByteString} (whole : slash ∉ component) :
    components component = [component] :=
  List.splitOn_eq_singleton whole

theorem components_intercalate {parts : List ByteString} (nonempty : parts ≠ [])
    (whole : ∀ part ∈ parts, slash ∉ part) :
    components ([slash].intercalate parts) = parts :=
  List.splitOn_intercalate slash whole nonempty

theorem isRooted_append {left : ByteString} (nonempty : left ≠ []) (right : ByteString) :
    isRooted (left ++ right) = isRooted left := by
  cases left with
  | nil => exact absurd rfl nonempty
  | cons byte rest => rfl

theorem base_of_not_mem {component : ByteString} (nonempty : component ≠ [])
    (whole : slash ∉ component) : base component = component := by
  have plain : ∀ byte ∈ component.reverse, byte ≠ slash := fun byte member same =>
    whole (same ▸ List.mem_reverse.mp member)
  have kept : component.reverse.takeWhile (fun byte => byte ≠ slash) = component.reverse :=
    List.takeWhile_eq_self_iff.mpr fun byte member => decide_eq_true (plain byte member)
  unfold base
  rw [if_neg nonempty]
  cases reversed : component.reverse with
  | nil => exact absurd (List.reverse_eq_nil_iff.mp reversed) nonempty
  | cons byte rest =>
      have first : byte ≠ slash := plain byte (reversed ▸ List.mem_cons_self)
      rw [List.dropWhile_cons_of_neg (by simp [first]), ← reversed]
      split
      case h_1 empty => exact absurd (List.reverse_eq_nil_iff.mp empty) nonempty
      case h_2 => rw [kept, List.reverse_reverse]

/-! ## Names -/

/-- A component that cleaning leaves where it is. -/
structure IsName (component : ByteString) : Prop where
  nonempty : component ≠ []
  notDot : component ≠ dot
  notDotDot : component ≠ dotDot
  whole : slash ∉ component

def counts (component : ByteString) : Bool := component ≠ [] ∧ component ≠ dot

theorem counts_eq_true {component : ByteString} :
    counts component = true ↔ component ≠ [] ∧ component ≠ dot := by
  simp [counts]

theorem cleanStep_of_not_counts (rooted : Bool) (stack : List ByteString)
    {component : ByteString} (silent : counts component = false) :
    cleanStep rooted stack component = stack := by
  have dropped : component = [] ∨ component = dot := by
    by_contra kept
    rw [not_or] at kept
    rw [counts_eq_true.mpr kept] at silent
    cases silent
  exact if_pos dropped

theorem cleanStep_of_counts (rooted : Bool) (stack : List ByteString) {component : ByteString}
    (counted : counts component = true) (down : component ≠ dotDot) :
    cleanStep rooted stack component = component :: stack := by
  have kept := counts_eq_true.mp counted
  unfold cleanStep
  rw [if_neg (not_or.mpr kept), if_neg down]

theorem foldl_cleanStep {parts : List ByteString} (down : dotDot ∉ parts) (rooted : Bool)
    (stack : List ByteString) :
    parts.foldl (cleanStep rooted) stack = (parts.filter counts).reverse ++ stack := by
  induction parts generalizing stack with
  | nil => rfl
  | cons part parts induction =>
      have here : part ≠ dotDot := fun same => down (same ▸ List.mem_cons_self)
      have later : dotDot ∉ parts := fun member => down (List.mem_cons_of_mem part member)
      rw [List.foldl_cons, induction later]
      cases counted : counts part with
      | false =>
          rw [cleanStep_of_not_counts rooted stack counted, List.filter_cons_of_neg]
          simp [counted]
      | true =>
          rw [cleanStep_of_counts rooted stack counted here, List.filter_cons_of_pos counted,
            List.reverse_cons, List.append_assoc, List.singleton_append]

/-! ## Stacks -/

/-- What is on the stack at any time: names over some `..`, of which a rooted
path has none. -/
structure Normal (rooted : Bool) (stack : List ByteString) : Prop where
  shape : ∃ names ups, stack = names ++ List.replicate ups dotDot ∧
    (∀ name ∈ names, IsName name) ∧ (rooted = true → ups = 0)

theorem normal_nil (rooted : Bool) : Normal rooted [] :=
  ⟨[], 0, rfl, fun _ member => absurd member List.not_mem_nil, fun _ => rfl⟩

theorem Normal.step {rooted : Bool} {stack : List ByteString} (normal : Normal rooted stack)
    {component : ByteString} (whole : slash ∉ component) :
    Normal rooted (cleanStep rooted stack component) := by
  rcases normal.shape with ⟨names, ups, rfl, named, grounded⟩
  cases counted : counts component with
  | false =>
      rw [cleanStep_of_not_counts rooted _ counted]
      exact normal
  | true =>
      have kept := counts_eq_true.mp counted
      by_cases down : component = dotDot
      · unfold cleanStep
        rw [if_neg (not_or.mpr kept), if_pos down]
        cases names with
        | cons name names =>
            have top : name ≠ dotDot := (named name List.mem_cons_self).notDotDot
            simp only [List.cons_append, if_neg top]
            exact ⟨names, ups, rfl,
              fun other member => named other (List.mem_cons_of_mem name member), grounded⟩
        | nil =>
            cases ups with
            | zero =>
                cases rooted with
                | true => exact normal_nil true
                | false => exact ⟨[], 1, rfl, named, fun absurd => by cases absurd⟩
            | succ ups =>
                have relative : rooted = true → ups + 2 = 0 := fun rooted => by
                  have none := grounded rooted
                  omega
                simp only [List.nil_append, List.replicate_succ, if_true]
                exact ⟨[], ups + 2, rfl, named, relative⟩
      · rw [cleanStep_of_counts rooted _ counted down]
        refine ⟨component :: names, ups, rfl, fun name member => ?_, grounded⟩
        rcases List.mem_cons.mp member with rfl | member
        · exact ⟨kept.1, kept.2, down, whole⟩
        · exact named name member

theorem normal_foldl {rooted : Bool} {parts stack : List ByteString}
    (normal : Normal rooted stack) (whole : ∀ part ∈ parts, slash ∉ part) :
    Normal rooted (parts.foldl (cleanStep rooted) stack) := by
  induction parts generalizing stack with
  | nil => exact normal
  | cons part parts induction =>
      exact induction (normal.step (whole part List.mem_cons_self))
        fun other member => whole other (List.mem_cons_of_mem part member)

theorem Normal.mem {rooted : Bool} {stack : List ByteString} (normal : Normal rooted stack)
    {component : ByteString} (member : component ∈ stack) :
    component ≠ [] ∧ component ≠ dot ∧ slash ∉ component := by
  rcases normal.shape with ⟨names, ups, rfl, named, -⟩
  rcases List.mem_append.mp member with member | member
  · have name := named component member
    exact ⟨name.nonempty, name.notDot, name.whole⟩
  · rw [(List.mem_replicate.mp member).2]
    decide

theorem Normal.foldl_reverse {rooted : Bool} {stack : List ByteString}
    (normal : Normal rooted stack) : stack.reverse.foldl (cleanStep rooted) [] = stack := by
  rcases normal.shape with ⟨names, ups, rfl, named, grounded⟩
  have climbed : (List.replicate ups dotDot).foldl (cleanStep rooted) [] =
      List.replicate ups dotDot := by
    clear normal
    induction ups with
    | zero => rfl
    | succ ups induction =>
        have relative : rooted = false := by
          cases rooted with
          | false => rfl
          | true => exact absurd (grounded rfl) (Nat.succ_ne_zero ups)
        subst relative
        rw [List.replicate_succ', List.foldl_append, induction (fun absurd => by cases absurd),
          ← List.replicate_succ', List.foldl_cons, List.foldl_nil]
        cases ups <;> rfl
  rw [List.reverse_append, List.reverse_replicate, List.foldl_append, climbed]
  have down : dotDot ∉ names.reverse := fun member =>
    (named dotDot (List.mem_reverse.mp member)).notDotDot rfl
  have counted : names.reverse.filter counts = names.reverse :=
    List.filter_eq_self.mpr fun name member =>
      have name := named name (List.mem_reverse.mp member)
      counts_eq_true.mpr ⟨name.nonempty, name.notDot⟩
  rw [foldl_cleanStep down, counted, List.reverse_reverse]

/-! ## Clean paths -/

def render (rooted : Bool) (parts : List ByteString) : ByteString :=
  if rooted then slash :: [slash].intercalate parts
  else
    match parts with
    | [] => dot
    | parts => [slash].intercalate parts

theorem clean_eq_render (path : ByteString) :
    clean path = render (isRooted path) (cleanComponents path) := by
  unfold clean render
  split <;> rfl

theorem normal_cleanComponents (path : ByteString) :
    Normal (isRooted path) (cleanComponents path).reverse := by
  unfold cleanComponents
  rw [List.reverse_reverse]
  exact normal_foldl (normal_nil _) fun part => slash_not_mem_of_mem_components

section Render

variable {rooted : Bool} {parts : List ByteString}

theorem components_render (normal : Normal rooted parts.reverse) (nonempty : parts ≠ []) :
    components (render rooted parts) = if rooted then [] :: parts else parts := by
  have whole : ∀ part ∈ parts, slash ∉ part := fun part member =>
    (normal.mem (List.mem_reverse.mpr member)).2.2
  have split := components_intercalate nonempty whole
  cases rooted with
  | true =>
      have front := components_append [] ([slash].intercalate parts)
      rw [split, components_of_not_mem List.not_mem_nil] at front
      exact front
  | false =>
      cases parts with
      | nil => exact absurd rfl nonempty
      | cons part rest => exact split

theorem isRooted_render (normal : Normal rooted parts.reverse) :
    isRooted (render rooted parts) = rooted := by
  cases rooted with
  | true => rfl
  | false =>
      cases parts with
      | nil => rfl
      | cons part rest =>
          have first := normal.mem (List.mem_reverse.mpr List.mem_cons_self)
          have written : render false (part :: rest) = [slash].intercalate (part :: rest) := rfl
          cases part with
          | nil => exact absurd rfl first.1
          | cons byte part =>
              have other : byte ≠ slash := fun same => first.2.2 (same ▸ List.mem_cons_self)
              rw [written]
              cases rest <;> simp [isRooted, other]

theorem cleanComponents_render (normal : Normal rooted parts.reverse) :
    cleanComponents (render rooted parts) = parts := by
  unfold cleanComponents
  rw [isRooted_render normal]
  by_cases empty : parts = []
  · subst empty
    cases rooted <;> rfl
  · have fixed := normal.foldl_reverse
    rw [List.reverse_reverse] at fixed
    rw [components_render normal empty]
    cases rooted with
    | true =>
        rw [if_pos rfl, List.foldl_cons, cleanStep_of_not_counts true [] rfl, fixed,
          List.reverse_reverse]
    | false => rw [if_neg Bool.false_ne_true, fixed, List.reverse_reverse]

end Render

@[simp] theorem isRooted_clean (path : ByteString) : isRooted (clean path) = isRooted path := by
  rw [clean_eq_render, isRooted_render (normal_cleanComponents path)]

@[simp] theorem cleanComponents_clean (path : ByteString) :
    cleanComponents (clean path) = cleanComponents path := by
  rw [clean_eq_render path, cleanComponents_render (normal_cleanComponents path)]

@[simp] theorem clean_clean (path : ByteString) : clean (clean path) = clean path := by
  rw [clean_eq_render (clean path), isRooted_clean, cleanComponents_clean, ← clean_eq_render]

/-! ## Below a directory -/

section Below

variable {dir : ByteString}

theorem isRooted_below (nonempty : dir ≠ []) (path : ByteString) :
    isRooted (dir ++ slash :: path) = isRooted dir :=
  isRooted_append nonempty (slash :: path)

/-- Without `..` the components of the directory stay and what counts is put
behind them. -/
theorem cleanComponents_below (nonempty : dir ≠ []) {path : ByteString}
    (down : dotDot ∉ components path) :
    cleanComponents (dir ++ slash :: path) =
      cleanComponents dir ++ (components path).filter counts := by
  unfold cleanComponents
  rw [isRooted_below nonempty, components_append, List.foldl_append, foldl_cleanStep down,
    List.reverse_append, List.reverse_reverse]

theorem cleanComponents_name (nonempty : dir ≠ []) {name : ByteString} (named : IsName name) :
    cleanComponents (dir ++ slash :: name) = cleanComponents dir ++ [name] := by
  have single := components_of_not_mem named.whole
  have down : dotDot ∉ components name := by
    rw [single]
    exact fun member => named.notDotDot (List.mem_singleton.mp member).symm
  have counted : counts name = true := counts_eq_true.mpr ⟨named.nonempty, named.notDot⟩
  rw [cleanComponents_below nonempty down, single, List.filter_cons_of_pos counted,
    List.filter_nil]

theorem clean_eq_root_iff (path : ByteString) :
    clean path = [slash] ↔ isRooted path = true ∧ cleanComponents path = [] := by
  constructor
  · intro root
    have rooted := isRooted_clean path
    have parts := cleanComponents_clean path
    rw [root] at rooted parts
    exact ⟨rooted.symm, parts.symm⟩
  · rintro ⟨rooted, parts⟩
    rw [clean_eq_render, rooted, parts]
    rfl

theorem clean_eq_dot_iff (path : ByteString) :
    clean path = dot ↔ isRooted path = false ∧ cleanComponents path = [] := by
  constructor
  · intro here
    have rooted := isRooted_clean path
    have parts := cleanComponents_clean path
    rw [here] at rooted parts
    exact ⟨rooted.symm, parts.symm⟩
  · rintro ⟨rooted, parts⟩
    rw [clean_eq_render, rooted, parts]
    rfl

theorem intercalate_concat {parts : List ByteString} (nonempty : parts ≠ [])
    (name : ByteString) :
    [slash].intercalate (parts ++ [name]) = [slash].intercalate parts ++ slash :: name := by
  induction parts with
  | nil => exact absurd rfl nonempty
  | cons part rest induction =>
      cases rest with
      | nil => simp
      | cons next rest =>
          rw [List.cons_append, List.cons_append, List.intercalate_cons_cons,
            List.intercalate_cons_cons, ← List.cons_append,
            induction (List.cons_ne_nil next rest)]
          simp

theorem clean_name (nonempty : dir ≠ []) {name : ByteString} (named : IsName name) :
    clean (dir ++ slash :: name) =
      if clean dir = [slash] then slash :: name
      else if clean dir = dot then name
      else clean dir ++ slash :: name := by
  rw [clean_eq_render (dir ++ slash :: name), isRooted_below nonempty,
    cleanComponents_name nonempty named]
  by_cases empty : cleanComponents dir = []
  · rw [empty]
    cases rooted : isRooted dir with
    | true => rw [if_pos ((clean_eq_root_iff dir).mpr ⟨rooted, empty⟩)]; simp [render]
    | false =>
        have relative : clean dir ≠ [slash] := fun root => by
          rw [((clean_eq_root_iff dir).mp root).1] at rooted
          cases rooted
        rw [if_neg relative, if_pos ((clean_eq_dot_iff dir).mpr ⟨rooted, empty⟩)]
        simp [render]
  · rw [if_neg fun root => empty ((clean_eq_root_iff dir).mp root).2,
      if_neg fun here => empty ((clean_eq_dot_iff dir).mp here).2, clean_eq_render]
    cases rooted : isRooted dir with
    | true => simp [render, intercalate_concat empty]
    | false =>
        cases parts : cleanComponents dir with
        | nil => exact absurd parts empty
        | cons part rest =>
            exact intercalate_concat (List.cons_ne_nil part rest) name

theorem join_pair (nonempty : dir ≠ []) {path : ByteString} (other : path ≠ []) :
    join [dir, path] = clean (dir ++ slash :: path) := by
  simp [join, nonempty, other]

end Below

/-- The path is the directory or lies below it: the same components lead to
both, and no `..` follows them. -/
def Within (dir path : ByteString) : Prop :=
  isRooted path = isRooted dir ∧
    ∃ below, cleanComponents path = cleanComponents dir ++ below ∧ dotDot ∉ below

end Grunt.Foundation.Path
