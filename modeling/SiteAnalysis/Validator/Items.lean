import SiteAnalysis.Validator.Extractor

/-
  This file defines the extraction of items as one walk over
  the document.

  The program searches all descendants of every item and
  keeps those that have the item as their nearest scope.
  The walk visits every node once: it assigns the properties
  it meets and does not look into nested items except for
  their values.

  Key definitions include:
    * `walk`
    * `Builder.Hom`

  Key theorems include:
    * `properties_eq`
    * `parseItem_eq_walk`
    * `extract_eq`
    * `extract_map`
-/

------------------------------------------------------------
-- Properties
------------------------------------------------------------

namespace SiteAnalysis.Validator

open Python Markup

variable {V W : Type}
variable {voc : Vocabulary}

/- The properties of an item are found by a direct walk. -/
theorem properties_eq
    {scope : Element}
    (hOpens : voc.opens scope.tag = true) :
    properties voc scope =
      (scope.children.direct voc.opens
        ((scope.path, scope.tag) :: scope.parents)
          scope.path 0).filter
            (fun e => e.tag.has voc.nameAttr) := by
  have hNearest :
      nearestParent voc.opens
          ((scope.path, scope.tag) :: scope.parents) =
        some scope.path := by
    rw [Forest.nearestParent_cons, hOpens, if_pos rfl]
  have hDeep :
      ∀ q ∈ some scope.path,
        q.length ≤ scope.path.length := by
    intro q hTarget
    cases hTarget
    exact Nat.le_refl _
  rw [properties, List.filter_comm, Element.descendants,
    Forest.filter_nearest hNearest hDeep]

/- The top items are found by a direct walk. -/
theorem extract_eq
    (voc : Vocabulary)
    (build : Builder V)
    (doc : Forest) :
    extract voc build doc =
      ((doc.direct voc.opens [] [] 0).filter
        (fun e => voc.opens e.tag)).map
          (parseItem voc build) := by
  have hDeep :
      ∀ q ∈ (none : Option Path),
        q.length ≤ ([] : Path).length := by
    intro q hTarget
    cases hTarget
  have hNearest : nearestParent voc.opens [] = none := rfl
  rw [extract, List.filter_comm, Forest.all,
    Forest.filter_nearest hNearest hDeep]

------------------------------------------------------------
-- One Walk
------------------------------------------------------------

section Walk

variable (voc : Vocabulary)
variable (build : Builder V)

/-
  The object of an item after the nodes of a forest that
  stands in the item.
-/
def walk
    (parents : List (Path × Tag))
    (path : Path) :
    Nat → Forest → Obj V → Obj V
| _, .nil, obj => obj
| i, .text _ _ rest, obj =>
    walk parents path (i + 1) rest obj
| i, .element tag children rest, obj =>
    let here := i :: path
    let inside := (here, tag) :: parents
    let value :=
      if voc.opens tag then
        build.item here
          (walk inside here 0 children
            (typedObj voc build tag))
      else
        build.text (voc.text ⟨here, tag, children, parents⟩)
    let obj :=
      if tag.has voc.nameAttr then
        assignAll (voc.names tag) value obj
      else
        obj
    let obj :=
      if voc.opens tag then
        obj
      else
        walk inside here 0 children obj
    walk parents path (i + 1) rest obj

/- The step of the loop of an item. -/
def assignProp
    (obj : Obj V)
    (prop : Element) : Obj V :=
  assignAll (voc.names prop.tag)
    (propValue voc build prop) obj

variable {voc build}

/- An item is a walk if the loop over its nodes is one. -/
theorem parseItem_of_foldl
    {scope : Element}
    (hOpens : voc.opens scope.tag = true)
    (hLoop :
      ∀ obj,
        ((scope.children.direct voc.opens
            ((scope.path, scope.tag) :: scope.parents)
              scope.path 0).filter
                (fun e => e.tag.has voc.nameAttr)).foldl
            (assignProp voc build) obj =
          walk voc build
            ((scope.path, scope.tag) :: scope.parents)
              scope.path 0 scope.children obj) :
    parseItem voc build scope =
      build.item scope.path
        (walk voc build
          ((scope.path, scope.tag) :: scope.parents)
            scope.path 0 scope.children
              (typedObj voc build scope.tag)) := by
  rw [parseItem_eq, properties_eq hOpens]
  exact congrArg (build.item scope.path) (hLoop _)

/- The loop over the properties in a forest is the walk. -/
theorem foldl_direct
    (f : Forest)
    (parents : List (Path × Tag))
    (path : Path)
    (i : Nat)
    (obj : Obj V) :
    ((f.direct voc.opens parents path i).filter
        (fun e => e.tag.has voc.nameAttr)).foldl
        (assignProp voc build) obj =
      walk voc build parents path i f obj := by
  induction f generalizing parents path i obj with
  | nil => rfl
  | text _ _ rest ih => exact ih parents path (i + 1) obj
  | element tag children rest ihChildren ihRest =>
      have hValue :
          propValue voc build
              ⟨i :: path, tag, children, parents⟩ =
            if voc.opens tag then
              build.item (i :: path)
                (walk voc build
                  ((i :: path, tag) :: parents) (i :: path)
                    0 children (typedObj voc build tag))
            else
              build.text
                (voc.text
                  ⟨i :: path, tag, children, parents⟩) := by
        unfold propValue
        split
        · rename_i hOpens
          rw [parseItem_of_foldl hOpens]
          exact ihChildren _ _ 0
        · rfl
      simp only [Forest.direct, walk, ← hValue]
      cases hProp : tag.has voc.nameAttr <;>
        cases hOpens : voc.opens tag <;>
          simp [List.foldl_append, hProp, ihChildren, ihRest,
            assignProp]

/- Every item is a walk over its nodes. -/
theorem parseItem_eq_walk
    {scope : Element}
    (hOpens : voc.opens scope.tag = true) :
    parseItem voc build scope =
      build.item scope.path
        (walk voc build
          ((scope.path, scope.tag) :: scope.parents)
            scope.path 0 scope.children
              (typedObj voc build scope.tag)) :=
  parseItem_of_foldl hOpens
    (foldl_direct scope.children _ _ 0)

end Walk

------------------------------------------------------------
-- Builders
------------------------------------------------------------

namespace Obj

/- The same object over other values. -/
def map
    (f : V → W)
    (obj : Obj V) : Obj W :=
  List.map (fun m => (m.1, m.2.map f)) obj

end Obj

theorem map_push
    (f : V → W)
    (entry : Entry V)
    (value : V) :
    (entry.push value).map f =
      (entry.map f).push (f value) := by
  cases entry <;> simp [Entry.push, Entry.map]

theorem map_assign
    (f : V → W)
    (name : String)
    (value : V)
    (obj : Obj V) :
    Obj.map f (assign name value obj) =
      assign name (f value) (Obj.map f obj) := by
  induction obj with
  | nil => rfl
  | cons m rest ih =>
      rcases m with ⟨key, entry⟩
      simp only [assign, Obj.map, List.map_cons]
      by_cases hSame : key = name
      · simp [hSame, map_push]
      · simpa [hSame, Obj.map] using ih

theorem map_assignAll
    (f : V → W)
    (names : List String)
    (value : V)
    (obj : Obj V) :
    Obj.map f (assignAll names value obj) =
      assignAll names (f value) (Obj.map f obj) := by
  induction names generalizing obj with
  | nil => rfl
  | cons name names ih =>
      have hRest := ih (assign name value obj)
      rw [map_assign] at hRest
      exact hRest

/- A map that takes the values of one builder to another's. -/
structure Builder.Hom
    (build : Builder V)
    (build' : Builder W)
    (f : V → W) : Prop where
  text : ∀ s, f (build.text s) = build'.text s
  item :
    ∀ path obj,
      f (build.item path obj) =
        build'.item path (Obj.map f obj)

section Hom

variable {build : Builder V} {build' : Builder W}
variable {f : V → W}

theorem map_typedObj
    (hHom : build.Hom build' f)
    (tag : Tag) :
    Obj.map f (typedObj voc build tag) =
      typedObj voc build' tag := by
  unfold typedObj
  cases shortType (tag.attr voc.typeAttr) with
  | none => rfl
  | some name =>
      simp [Obj.map, Entry.map, hHom.text]

theorem map_walk
    (hHom : build.Hom build' f)
    (nodes : Forest)
    (parents : List (Path × Tag))
    (path : Path)
    (i : Nat)
    (obj : Obj V) :
    Obj.map f (walk voc build parents path i nodes obj) =
      walk voc build' parents path i nodes
        (Obj.map f obj) := by
  induction nodes generalizing parents path i obj with
  | nil => rfl
  | text _ _ rest ih => exact ih parents path (i + 1) obj
  | element tag children rest ihChildren ihRest =>
      simp only [walk]
      rw [ihRest]
      cases hProp : tag.has voc.nameAttr <;>
        cases hOpens : voc.opens tag <;>
          simp [map_assignAll, ihChildren, hHom.text,
            hHom.item, map_typedObj hHom]

/- Extraction commutes with a map of builders. -/
theorem extract_map
    (hHom : build.Hom build' f)
    (doc : Forest) :
    (extract voc build doc).map f =
      extract voc build' doc := by
  rw [extract_eq, extract_eq, List.map_map]
  apply List.map_congr_left
  intro scope hMem
  have hOpens : voc.opens scope.tag = true := by
    simpa using (List.mem_filter.mp hMem).2
  rw [Function.comp_apply, parseItem_eq_walk hOpens,
    parseItem_eq_walk hOpens, hHom.item, map_walk hHom,
    map_typedObj hHom]

end Hom

end SiteAnalysis.Validator
