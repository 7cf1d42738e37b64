import Grunt.Foundation.Address

/-! # Markup

How a browser takes a text apart into tags, and the texts in which it finds none
but given ones, properly nested.
-/

namespace Grunt.Foundation.Markup

def less : UInt8 := 60
def greater : UInt8 := 62
def apostrophe : UInt8 := 39
def solidus : UInt8 := 47
def space : UInt8 := 32

inductive Place
  | text
  /-- Within a tag that has begun so, less what stands between its quotes, with
  the quote that is open. -/
  | tag (opened : Option UInt8) (begun : ByteString)
deriving DecidableEq, Repr

structure State where
  /-- The elements that are open, the innermost first. -/
  elements : List ByteString
  place : Place
deriving DecidableEq, Repr

def voidElements : List ByteString := [utf8 "br", utf8 "img"]

/-- The elements that are open behind a tag. `none` where it ends another one
than the innermost. -/
def nest (elements : List ByteString) (tag : ByteString) : Option (List ByteString) :=
  let name := tag.takeWhile fun byte => byte ≠ space
  if tag.head? = some solidus then
    if elements.head? = some tag.tail then some elements.tail else none
  else if tag.getLast? = some solidus ∨ voidElements.contains name then some elements
  else some (name :: elements)

/-- `none` at the end of a tag that is not one of these, or that ends another
element than the innermost. -/
def step (tags : List ByteString) (state : State) (byte : UInt8) : Option State :=
  match state.place with
  | .text => some (if byte = less then ⟨state.elements, .tag none []⟩ else state)
  | .tag (some mark) begun =>
      some (if byte = mark then ⟨state.elements, .tag none (begun ++ [byte])⟩ else state)
  | .tag none begun =>
      if byte = greater then
        if tags.contains begun then
          (nest state.elements begun).map fun elements => ⟨elements, .text⟩
        else none
      else
        let opened := if byte = Address.quote ∨ byte = apostrophe then some byte else none
        some ⟨state.elements, .tag opened (begun ++ [byte])⟩

def read (tags : List ByteString) (state : State) (text : ByteString) : Option State :=
  text.foldlM (step tags) state

/-- The text leaves no element and no tag open. -/
def Fits (tags : List ByteString) (text : ByteString) : Prop :=
  read tags ⟨[], .text⟩ text = some ⟨[], .text⟩

instance (tags : List ByteString) (text : ByteString) : Decidable (Fits tags text) :=
  inferInstanceAs (Decidable (_ = _))

example : Fits [utf8 "p", utf8 "/p", utf8 "br", utf8 "a href=\"\"", utf8 "/a"]
    (utf8 "<p>a<br>b<a href=\">\">c</a></p>") := by
  decide

example : ¬ Fits [utf8 "p", utf8 "/p", utf8 "br"] (utf8 "<p onclick=\"f()\">a</p>") := by
  decide

section Reading

variable {tags : List ByteString} {state after : State} {text rest : ByteString}

theorem read_append (middle : State) (first : read tags state text = some middle)
    (second : read tags middle rest = some after) :
    read tags state (text ++ rest) = some after := by
  unfold read at first second ⊢
  rw [List.foldlM_append, first]
  exact second

theorem read_text (plain : less ∉ text) (elements : List ByteString) :
    read tags ⟨elements, .text⟩ text = some ⟨elements, .text⟩ := by
  induction text with
  | nil => rfl
  | cons byte text induction =>
      have here : byte ≠ less := fun same => plain (same ▸ List.mem_cons_self)
      have stays : step tags ⟨elements, .text⟩ byte = some ⟨elements, .text⟩ :=
        congrArg some (if_neg here)
      rw [read, List.foldlM_cons, stays]
      exact induction fun member => plain (List.mem_cons_of_mem byte member)

theorem read_value {mark : UInt8} (closed : mark ∉ text) (elements : List ByteString)
    (begun : ByteString) :
    read tags ⟨elements, .tag (some mark) begun⟩ text =
      some ⟨elements, .tag (some mark) begun⟩ := by
  induction text with
  | nil => rfl
  | cons byte text induction =>
      have here : byte ≠ mark := fun same => closed (same ▸ List.mem_cons_self)
      have stays : step tags ⟨elements, .tag (some mark) begun⟩ byte =
          some ⟨elements, .tag (some mark) begun⟩ := congrArg some (if_neg here)
      rw [read, List.foldlM_cons, stays]
      exact induction fun member => closed (List.mem_cons_of_mem byte member)

theorem read_flatMap {Value : Type} {values : List Value} {render : Value → ByteString}
    (each : ∀ value ∈ values, read tags state (render value) = some state) :
    read tags state (values.flatMap render) = some state := by
  induction values with
  | nil => rfl
  | cons value values induction =>
      rw [List.flatMap_cons]
      exact read_append state (each value List.mem_cons_self)
        (induction fun other member => each other (List.mem_cons_of_mem value member))

/-! ## Elements around a text -/

theorem nest_append {elements inner : List ByteString} {tag : ByteString}
    (nested : nest elements tag = some inner) (around : List ByteString) :
    nest (elements ++ around) tag = some (inner ++ around) := by
  unfold nest at nested ⊢
  dsimp only at nested ⊢
  split at nested
  case isTrue ends =>
    rw [if_pos ends]
    split at nested
    case isFalse => cases nested
    case isTrue innermost =>
      cases elements with
      | nil => cases innermost
      | cons element elements =>
          cases nested
          exact if_pos innermost
  case isFalse begins =>
    rw [if_neg begins]
    split at nested <;> cases nested
    case isTrue stands => exact if_pos stands
    case isFalse opens => exact if_neg opens

def State.within (around : List ByteString) (state : State) : State :=
  ⟨state.elements ++ around, state.place⟩

theorem step_within {byte : UInt8} (stepped : step tags state byte = some after)
    (around : List ByteString) :
    step tags (state.within around) byte = some (after.within around) := by
  rcases state with ⟨elements, place⟩
  unfold step at stepped ⊢
  cases place with
  | text =>
      cases stepped
      dsimp only [State.within]
      split <;> rfl
  | tag opened begun =>
      cases opened with
      | some mark =>
          cases stepped
          dsimp only [State.within]
          split <;> rfl
      | none =>
          dsimp only [State.within] at stepped ⊢
          split at stepped
          case isTrue ends =>
            rw [if_pos ends]
            split at stepped
            case isFalse => cases stepped
            case isTrue known =>
              rcases Option.map_eq_some_iff.mp stepped with ⟨inner, nested, rfl⟩
              rw [if_pos known, nest_append nested]
              rfl
          case isFalse goesOn =>
            cases stepped
            rw [if_neg goesOn]

theorem read_within (found : read tags state text = some after) (around : List ByteString) :
    read tags (state.within around) text = some (after.within around) := by
  induction text generalizing state with
  | nil =>
      cases found
      rfl
  | cons byte text induction =>
      rw [read, List.foldlM_cons] at found ⊢
      rcases Option.bind_eq_some_iff.mp found with ⟨middle, stepped, later⟩
      rw [step_within stepped around]
      exact induction later

theorem Fits.within (fits : Fits tags text) (elements : List ByteString) :
    read tags ⟨elements, .text⟩ text = some ⟨elements, .text⟩ :=
  read_within fits elements

end Reading

end Grunt.Foundation.Markup
