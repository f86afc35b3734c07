import Mathlib.Data.List.Basic

/-
  This file defines parsed documents and the searches that
  an HTML library offers on them.

  A document is a sequence of nodes.  An element knows its
  position in the document, which is its identity, and the
  elements around it.  A search visits all the descendants
  of an element in document order; the elements that have
  the searched element as their nearest ancestor of a kind
  are also found by a walk that stops at that kind.

  Key definitions include:
    * `Tag`
    * `Forest`
    * `Element`
    * `Forest.elements`
    * `Element.nearest`
    * `Forest.direct`
    * `Forest.getText`

  Key theorems include:
    * `Forest.size_of_mem_elements`
    * `Forest.filter_nearest`
-/

------------------------------------------------------------
-- Documents
------------------------------------------------------------

namespace Markup

/- A start tag: its name and its attributes. -/
structure Tag where
  name : String
  attrs : List (String × String)

namespace Tag

/- `tag.get(key)` -/
def attr
    (tag : Tag)
    (key : String) : Option String :=
  tag.attrs.lookup key

/- `tag.has_attr(key)` -/
def has
    (tag : Tag)
    (key : String) : Bool :=
  (tag.attr key).isSome

end Tag

/-
  The classes of the strings of a document: text, comments,
  and what stands in an element with strings of its own.
-/
inductive StringKind
  | plain
  | comment
  | contained (name : String)
deriving DecidableEq

/- A sequence of sibling nodes. -/
inductive Forest
  | nil
  | text (kind : StringKind) (s : String) (rest : Forest)
  | element (tag : Tag) (children rest : Forest)

/- A position: the indices on the way up to the root. -/
abbrev Path := List Nat

/-
  An element in its place: `parents` are the positions and
  tags of the elements around it, the nearest one first.
-/
structure Element where
  path : Path
  tag : Tag
  children : Forest
  parents : List (Path × Tag)

/- The position of the nearest parent of a kind. -/
def nearestParent
    (kind : Tag → Bool)
    (parents : List (Path × Tag)) : Option Path :=
  (parents.find? (fun parent => kind parent.2)).map
    Prod.fst

/- The position of an element's nearest ancestor of a kind. -/
def Element.nearest
    (kind : Tag → Bool)
    (e : Element) : Option Path :=
  nearestParent kind e.parents

namespace Forest

/- The number of nodes. -/
def size : Forest → Nat
| .nil => 0
| .text _ _ rest => rest.size + 1
| .element _ children rest =>
    children.size + rest.size + 1

/-
  All elements in document order; the first node has index
  `i` below the position `path`.
-/
def elements
    (parents : List (Path × Tag))
    (path : Path) : Nat → Forest → List Element
| _, .nil => []
| i, .text _ _ rest => rest.elements parents path (i + 1)
| i, .element tag children rest =>
    ⟨i :: path, tag, children, parents⟩ ::
      (children.elements ((i :: path, tag) :: parents)
          (i :: path) 0 ++
        rest.elements parents path (i + 1))

/- The elements of a whole document. -/
def all (doc : Forest) : List Element :=
  doc.elements [] [] 0

end Forest

/- The descendants of an element in document order. -/
def Element.descendants (e : Element) : List Element :=
  e.children.elements ((e.path, e.tag) :: e.parents)
    e.path 0

------------------------------------------------------------
-- Strings
------------------------------------------------------------

/- The elements whose strings have a class of their own. -/
def stringContainers : List String :=
  ["rt", "rp", "style", "script", "template"]

/- The class of the strings that belong to a tag's text. -/
def Tag.mainStrings (tag : Tag) : StringKind :=
  if tag.name ∈ stringContainers then
    .contained tag.name
  else
    .plain

namespace Forest

/- All strings of one class in document order. -/
def strings
    (kind : StringKind) : Forest → List String
| .nil => []
| .text kind' s rest =>
    if kind' = kind then
      s :: rest.strings kind
    else
      rest.strings kind
| .element _ children rest =>
    children.strings kind ++ rest.strings kind

/- The only string of a chain of only children. -/
def string : Forest → Option String
| .text _ s .nil => some s
| .element _ children .nil => children.string
| _ => none

end Forest

namespace Element

/- `tag.get_text()` -/
def getText (e : Element) : String :=
  String.join (e.children.strings e.tag.mainStrings)

/- `tag.get_text(strip=True)` -/
def getTextStrip
    (strip : String → String)
    (e : Element) : String :=
  String.join
    (((e.children.strings e.tag.mainStrings).map
      strip).filter (· ≠ ""))

end Element

------------------------------------------------------------
-- Searches
------------------------------------------------------------

namespace Forest

/- Descendants are smaller than the document they are in. -/
theorem size_of_mem_elements
    {f : Forest}
    {parents : List (Path × Tag)}
    {path : Path}
    {i : Nat}
    {e : Element}
    (hMem : e ∈ f.elements parents path i) :
    e.children.size < f.size := by
  induction f generalizing parents path i with
  | nil => cases hMem
  | text _ _ rest ih =>
      have hRest := ih hMem
      simp only [size]
      omega
  | element tag children rest ihChildren ihRest =>
      simp only [elements, List.mem_cons,
        List.mem_append] at hMem
      simp only [size]
      rcases hMem with hHere | hChild | hRest
      · subst hHere
        dsimp
        omega
      · have hSmaller := ihChildren hChild
        omega
      · have hSmaller := ihRest hRest
        omega

/-
  The elements that are reached without passing through an
  element of a kind.
-/
def direct
    (kind : Tag → Bool)
    (parents : List (Path × Tag))
    (path : Path) : Nat → Forest → List Element
| _, .nil => []
| i, .text _ _ rest =>
    rest.direct kind parents path (i + 1)
| i, .element tag children rest =>
    ⟨i :: path, tag, children, parents⟩ ::
      ((if kind tag then
          []
        else
          children.direct kind
            ((i :: path, tag) :: parents) (i :: path) 0) ++
        rest.direct kind parents path (i + 1))

theorem nearestParent_cons
    (kind : Tag → Bool)
    (path : Path)
    (tag : Tag)
    (parents : List (Path × Tag)) :
    nearestParent kind ((path, tag) :: parents) =
      if kind tag then
        some path
      else
        nearestParent kind parents := by
  unfold nearestParent
  rw [List.find?_cons]
  cases kind tag <;> rfl

section Nearest

variable {kind : Tag → Bool}
variable {target : Option Path}

/- A deeper position is not the target. -/
theorem ne_of_deeper
    {path : Path}
    {i : Nat}
    (hDeep : ∀ q ∈ target, q.length ≤ path.length) :
    some (i :: path) ≠ target := by
  intro hSame
  have hLength := hDeep (i :: path) hSame.symm
  simp only [List.length_cons] at hLength
  omega

theorem deep_cons
    {path : Path}
    (i : Nat)
    (hDeep : ∀ q ∈ target, q.length ≤ path.length) :
    ∀ q ∈ target, q.length ≤ (i :: path).length := by
  intro q hTarget
  have hLength := hDeep q hTarget
  simp only [List.length_cons]
  omega

/- Below another scope nothing belongs to the target. -/
theorem filter_nearest_of_ne
    {f : Forest}
    {parents : List (Path × Tag)}
    {path : Path}
    {i : Nat}
    (hOther : nearestParent kind parents ≠ target)
    (hDeep : ∀ q ∈ target, q.length ≤ path.length) :
    (f.elements parents path i).filter
        (fun e => e.nearest kind = target) = [] := by
  induction f generalizing parents path i with
  | nil => rfl
  | text _ _ rest ih => exact ih hOther hDeep
  | element tag children rest ihChildren ihRest =>
      have hBelow :
          nearestParent kind ((i :: path, tag) :: parents) ≠
            target := by
        rw [nearestParent_cons]
        split
        · exact ne_of_deeper hDeep
        · exact hOther
      have hSelf :
          ¬ (Element.nearest kind
              ⟨i :: path, tag, children, parents⟩ =
            target) := hOther
      simp only [elements, List.filter_cons,
        List.filter_append, hSelf, decide_false]
      rw [ihChildren hBelow (deep_cons i hDeep),
        ihRest hOther hDeep]
      rfl

/- The elements that belong to the target: a direct walk. -/
theorem filter_nearest
    {f : Forest}
    {parents : List (Path × Tag)}
    {path : Path}
    {i : Nat}
    (hNearest : nearestParent kind parents = target)
    (hDeep : ∀ q ∈ target, q.length ≤ path.length) :
    (f.elements parents path i).filter
        (fun e => e.nearest kind = target) =
      f.direct kind parents path i := by
  induction f generalizing parents path i with
  | nil => rfl
  | text _ _ rest ih => exact ih hNearest hDeep
  | element tag children rest ihChildren ihRest =>
      have hSelf :
          Element.nearest kind
              ⟨i :: path, tag, children, parents⟩ =
            target := hNearest
      simp only [elements, direct, List.filter_cons,
        List.filter_append, hSelf, decide_true, if_true]
      rw [ihRest hNearest hDeep]
      congr 2
      cases hKind : kind tag with
      | true =>
          rw [if_pos rfl]
          apply filter_nearest_of_ne _ (deep_cons i hDeep)
          rw [nearestParent_cons, hKind, if_pos rfl]
          exact ne_of_deeper hDeep
      | false =>
          rw [if_neg (by simp)]
          apply ihChildren _ (deep_cons i hDeep)
          rw [nearestParent_cons, hKind, if_neg (by simp)]
          exact hNearest

end Nearest

end Forest

end Markup
