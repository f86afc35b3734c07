import SiteAnalysis.Validator.Items

/-
  This file determines which items of a page are in what is
  extracted from it.

  A traced value remembers the elements whose dicts it is
  built from.  An item inside another item is reached only
  if it is the value of a property, that is, if its element
  has a property name.

  Key definitions include:
    * `Traced`
    * `represented`
    * `Complete`
    * `NestedItemsNamed`

  Key theorems include:
    * `extract_traced`
    * `mem_origins_walk`
    * `complete_iff`
    * `no_item_dropped_iff`
-/

------------------------------------------------------------
-- Traced Values
------------------------------------------------------------

namespace SiteAnalysis.Validator

open Python Markup

/- A value and the elements that its dicts stand for. -/
structure Traced where
  json : Json
  origins : List Path

/- The elements of all values of an object. -/
def Obj.origins (obj : Obj Traced) : List Path :=
  List.flatMap
    (fun m => m.2.values.flatMap Traced.origins) obj

/- A dict stands for its element and holds its values'. -/
def tracedBuilder : Builder Traced where
  text := fun s => ⟨.str s, []⟩
  item := fun path obj =>
    { json := jsonBuilder.item path (Obj.map Traced.json obj)
      origins := path :: obj.origins }

/- Traced extraction extracts the values of the program. -/
theorem extract_traced
    (voc : Vocabulary)
    (doc : Forest) :
    (extract voc tracedBuilder doc).map Traced.json =
      extract voc jsonBuilder doc := by
  apply extract_map
  constructor
  · intro s
    rfl
  · intro path obj
    rfl

/- The elements that the extracted values stand for. -/
def represented
    (voc : Vocabulary)
    (doc : Forest) : List Path :=
  (extract voc tracedBuilder doc).flatMap Traced.origins

/- Every element that opens an item is represented. -/
def Complete
    (voc : Vocabulary)
    (doc : Forest) : Prop :=
  ∀ e ∈ doc.all,
    voc.opens e.tag = true → e.path ∈ represented voc doc

/-
  Every element that opens an item inside another item has
  a property name.
-/
def NestedItemsNamed
    (voc : Vocabulary)
    (doc : Forest) : Prop :=
  ∀ e ∈ doc.all,
    voc.opens e.tag = true →
      e.nearest voc.opens ≠ none → voc.names e.tag ≠ []

------------------------------------------------------------
-- Origins
------------------------------------------------------------

section Origins

variable {voc : Vocabulary}

theorem values_push
    {V : Type}
    (entry : Entry V)
    (value : V) :
    (entry.push value).values = entry.values ++ [value] := by
  cases entry <;> rfl

theorem mem_origins_assign
    (p : Path)
    (name : String)
    (value : Traced)
    (obj : Obj Traced) :
    p ∈ Obj.origins (assign name value obj) ↔
      p ∈ Obj.origins obj ∨ p ∈ value.origins := by
  induction obj with
  | nil =>
      simp [assign, Obj.origins, Entry.values]
  | cons m rest ih =>
      rcases m with ⟨key, entry⟩
      simp only [Obj.origins] at ih ⊢
      by_cases hSame : key = name
      · simp only [assign, if_pos hSame, List.flatMap_cons,
          values_push, List.flatMap_append, List.mem_append]
        tauto
      · simp [assign, hSame, ih, or_assoc]

/- A value is held if it is assigned under some name. -/
theorem mem_origins_assignAll
    (p : Path)
    (names : List String)
    (value : Traced)
    (obj : Obj Traced) :
    p ∈ Obj.origins (assignAll names value obj) ↔
      p ∈ Obj.origins obj ∨
        names ≠ [] ∧ p ∈ value.origins := by
  induction names generalizing obj with
  | nil => simp [assignAll]
  | cons name names ih =>
      have hRest := ih (assign name value obj)
      rw [mem_origins_assign] at hRest
      simp only [assignAll, List.foldl_cons] at hRest ⊢
      rw [hRest]
      simp only [ne_eq, reduceCtorEq, not_false_eq_true,
        true_and]
      by_cases hNames : names = []
      · simp [hNames]
      · simp [hNames]

theorem words_empty : words "" = [] := by decide

/- An element without the attribute has no names. -/
theorem names_of_has_eq_false
    {tag : Tag}
    (hNone : tag.has voc.nameAttr = false) :
    voc.names tag = [] := by
  have hAttr : tag.attr voc.nameAttr = none := by
    simpa [Tag.has] using hNone
  simp [Vocabulary.names, hAttr, words_empty]

theorem origins_typedObj
    (tag : Tag) :
    Obj.origins (typedObj voc tracedBuilder tag) = [] := by
  unfold typedObj
  cases shortType (tag.attr voc.typeAttr) <;> rfl

variable (voc)

/- The items that are reached from inside an item. -/
def reached (path : Path) : Nat → Forest → List Path
| _, .nil => []
| i, .text _ _ rest => reached path (i + 1) rest
| i, .element tag children rest =>
    (if voc.opens tag then
        if voc.names tag = [] then
          []
        else
          (i :: path) :: reached (i :: path) 0 children
      else
        reached (i :: path) 0 children) ++
      reached path (i + 1) rest

/- The items that are reached from the top. -/
def reachedTop (path : Path) : Nat → Forest → List Path
| _, .nil => []
| i, .text _ _ rest => reachedTop path (i + 1) rest
| i, .element tag children rest =>
    (if voc.opens tag then
        (i :: path) :: reached voc (i :: path) 0 children
      else
        reachedTop (i :: path) 0 children) ++
      reachedTop path (i + 1) rest

variable {voc}

theorem origins_text
    (s : String) :
    (tracedBuilder.text s).origins = [] := rfl

theorem origins_item
    (path : Path)
    (obj : Obj Traced) :
    (tracedBuilder.item path obj).origins =
      path :: obj.origins := rfl

/- A walk holds what it held and what it reaches. -/
theorem mem_origins_walk
    (p : Path)
    (f : Forest)
    (parents : List (Path × Tag))
    (path : Path)
    (i : Nat)
    (obj : Obj Traced) :
    p ∈ Obj.origins
        (walk voc tracedBuilder parents path i f obj) ↔
      p ∈ Obj.origins obj ∨ p ∈ reached voc path i f := by
  induction f generalizing parents path i obj with
  | nil => simp [walk, reached]
  | text _ _ rest ih => exact ih parents path (i + 1) obj
  | element tag children rest ihChildren ihRest =>
      have hAssign :
          ∀ value obj,
            p ∈ Obj.origins
                (if tag.has voc.nameAttr then
                  assignAll (voc.names tag) value obj
                else
                  obj) ↔
              p ∈ Obj.origins obj ∨
                voc.names tag ≠ [] ∧ p ∈ value.origins := by
        intro value obj
        split
        · exact mem_origins_assignAll p _ value obj
        · rename_i hNone
          have hEmpty :=
            names_of_has_eq_false (by simpa using hNone)
          simp [hEmpty]
      simp only [walk, reached, List.mem_append]
      rw [ihRest]
      cases hOpens : voc.opens tag with
      | true =>
          rw [if_pos rfl, if_pos rfl, hAssign, if_pos rfl,
            origins_item, List.mem_cons, ihChildren,
            origins_typedObj]
          by_cases hNames : voc.names tag = []
          · simp [hNames]
          · simp [hNames, or_assoc]
      | false =>
          simp only [Bool.false_eq_true, if_false]
          rw [ihChildren, hAssign, origins_text]
          simp [or_assoc]

/- The represented elements are those that are reached. -/
theorem mem_origins_direct
    (p : Path)
    (f : Forest)
    (parents : List (Path × Tag))
    (path : Path)
    (i : Nat) :
    p ∈ (((f.direct voc.opens parents path i).filter
        (fun e => voc.opens e.tag)).map
          (parseItem voc tracedBuilder)).flatMap
            Traced.origins ↔
      p ∈ reachedTop voc path i f := by
  induction f generalizing parents path i with
  | nil => simp [Forest.direct, reachedTop]
  | text _ _ rest ih => exact ih parents path (i + 1)
  | element tag children rest ihChildren ihRest =>
      simp only [Forest.direct, reachedTop]
      cases hOpens : voc.opens tag with
      | true =>
          rw [if_pos rfl, if_pos rfl, List.nil_append,
            List.filter_cons_of_pos (by simpa using hOpens),
            List.map_cons, List.flatMap_cons,
            List.mem_append, List.mem_append, ihRest,
            parseItem_eq_walk hOpens, origins_item,
            List.mem_cons, List.mem_cons, mem_origins_walk,
            origins_typedObj]
          simp
      | false =>
          simp only [Bool.false_eq_true, if_false]
          rw [List.filter_cons_of_neg (by simp [hOpens]),
            List.filter_append, List.map_append,
            List.flatMap_append, List.mem_append,
            List.mem_append, ihChildren, ihRest]

theorem mem_represented
    (p : Path)
    (doc : Forest) :
    p ∈ represented voc doc ↔ p ∈ reachedTop voc [] 0 doc := by
  rw [represented, extract_eq]
  exact mem_origins_direct p doc [] [] 0

end Origins

------------------------------------------------------------
-- Positions
------------------------------------------------------------

/- The position is that of a node from index `i` on. -/
def Below
    (path : Path)
    (i : Nat)
    (p : Path) : Prop :=
  ∃ front j, i ≤ j ∧ p = front ++ j :: path

section Positions

variable {path p : Path} {i : Nat}

theorem below_self
    (path : Path)
    (i : Nat) : Below path i (i :: path) :=
  ⟨[], i, Nat.le_refl i, rfl⟩

theorem below_of_below_child
    (hBelow : Below (i :: path) 0 p) :
    Below path i p := by
  rcases hBelow with ⟨front, j, _, rfl⟩
  exact ⟨front ++ [j], i, Nat.le_refl i, by simp⟩

theorem below_of_below_next
    (hBelow : Below path (i + 1) p) :
    Below path i p := by
  rcases hBelow with ⟨front, j, hLe, rfl⟩
  exact ⟨front, j, by omega, rfl⟩

/- An element, its descendants and what follows it differ. -/
theorem not_below_child_self :
    ¬ Below (i :: path) 0 (i :: path) := by
  intro hBelow
  rcases hBelow with ⟨front, j, _, hEq⟩
  have hLength := congrArg List.length hEq
  simp only [List.length_cons, List.length_append]
    at hLength
  omega

theorem not_below_next_self :
    ¬ Below path (i + 1) (i :: path) := by
  intro hBelow
  rcases hBelow with ⟨front, j, hLe, hEq⟩
  have hAppend :
      [] ++ (i :: path) = front ++ (j :: path) := hEq
  have hTail := List.append_inj_right' hAppend rfl
  simp only [List.cons.injEq] at hTail
  omega

theorem not_below_next_of_below_child
    (hChild : Below (i :: path) 0 p) :
    ¬ Below path (i + 1) p := by
  intro hNext
  rcases hChild with ⟨front, j, _, hP⟩
  rcases hNext with ⟨front', j', hLe, hP'⟩
  have hEq :
      (front ++ [j]) ++ i :: path =
        front' ++ j' :: path := by
    rw [← hP', hP]
    simp
  have hTail := List.append_inj_right' hEq rfl
  simp only [List.cons.injEq] at hTail
  omega

variable {voc : Vocabulary}

theorem below_of_mem_elements
    {f : Forest}
    {parents : List (Path × Tag)}
    {e : Element}
    (hMem : e ∈ f.elements parents path i) :
    Below path i e.path := by
  induction f generalizing parents path i with
  | nil => cases hMem
  | text _ _ rest ih => exact below_of_below_next (ih hMem)
  | element tag children rest ihChildren ihRest =>
      simp only [Forest.elements, List.mem_cons,
        List.mem_append] at hMem
      rcases hMem with hHere | hChild | hRest
      · subst hHere
        exact below_self path i
      · exact below_of_below_child (ihChildren hChild)
      · exact below_of_below_next (ihRest hRest)

theorem below_of_mem_reached
    {f : Forest}
    (hMem : p ∈ reached voc path i f) :
    Below path i p := by
  induction f generalizing path i with
  | nil => cases hMem
  | text _ _ rest ih => exact below_of_below_next (ih hMem)
  | element tag children rest ihChildren ihRest =>
      simp only [reached, List.mem_append] at hMem
      rcases hMem with hHere | hRest
      · split at hHere
        · split at hHere
          · cases hHere
          · rcases List.mem_cons.mp hHere with hSelf | hChild
            · rw [hSelf]
              exact below_self path i
            · exact below_of_below_child (ihChildren hChild)
        · exact below_of_below_child (ihChildren hHere)
      · exact below_of_below_next (ihRest hRest)

theorem below_of_mem_reachedTop
    {f : Forest}
    (hMem : p ∈ reachedTop voc path i f) :
    Below path i p := by
  induction f generalizing path i with
  | nil => cases hMem
  | text _ _ rest ih => exact below_of_below_next (ih hMem)
  | element tag children rest ihChildren ihRest =>
      simp only [reachedTop, List.mem_append] at hMem
      rcases hMem with hHere | hRest
      · split at hHere
        · rcases List.mem_cons.mp hHere with hSelf | hChild
          · rw [hSelf]
            exact below_self path i
          · exact
              below_of_below_child
                (below_of_mem_reached hChild)
        · exact below_of_below_child (ihChildren hHere)
      · exact below_of_below_next (ihRest hRest)

end Positions

------------------------------------------------------------
-- Completeness
------------------------------------------------------------

section Completeness

variable {voc : Vocabulary}
variable {path p : Path} {i : Nat}
variable {tag : Tag} {children rest : Forest}

theorem mem_reached_self :
    i :: path ∈
        reached voc path i (.element tag children rest) ↔
      voc.opens tag = true ∧ voc.names tag ≠ [] := by
  have hChild :
      i :: path ∉ reached voc (i :: path) 0 children :=
    fun hMem =>
      not_below_child_self (below_of_mem_reached hMem)
  have hNext :
      i :: path ∉ reached voc path (i + 1) rest :=
    fun hMem =>
      not_below_next_self (below_of_mem_reached hMem)
  cases hOpens : voc.opens tag <;>
    by_cases hNames : voc.names tag = [] <;>
      simp [reached, hOpens, hNames, hChild, hNext]

theorem mem_reached_child
    (hBelow : Below (i :: path) 0 p) :
    p ∈ reached voc path i (.element tag children rest) ↔
      (voc.opens tag = true → voc.names tag ≠ []) ∧
        p ∈ reached voc (i :: path) 0 children := by
  have hSelf : p ≠ i :: path := by
    intro hSame
    subst hSame
    exact not_below_child_self hBelow
  have hNext : p ∉ reached voc path (i + 1) rest :=
    fun hMem =>
      not_below_next_of_below_child hBelow
        (below_of_mem_reached hMem)
  cases hOpens : voc.opens tag <;>
    by_cases hNames : voc.names tag = [] <;>
      simp [reached, hOpens, hNames, hSelf, hNext]

theorem mem_reached_next
    (hBelow : Below path (i + 1) p) :
    p ∈ reached voc path i (.element tag children rest) ↔
      p ∈ reached voc path (i + 1) rest := by
  have hSelf : p ≠ i :: path := by
    intro hSame
    subst hSame
    exact not_below_next_self hBelow
  have hChild :
      p ∉ reached voc (i :: path) 0 children :=
    fun hMem =>
      not_below_next_of_below_child
        (below_of_mem_reached hMem) hBelow
  cases hOpens : voc.opens tag <;>
    by_cases hNames : voc.names tag = [] <;>
      simp [reached, hOpens, hNames, hSelf, hChild]

/- Inside an item every item needs a name to be reached. -/
theorem all_reached_iff
    (f : Forest)
    (parents : List (Path × Tag))
    (path : Path)
    (i : Nat) :
    (∀ e ∈ f.elements parents path i,
        voc.opens e.tag = true →
          e.path ∈ reached voc path i f) ↔
      ∀ e ∈ f.elements parents path i,
        voc.opens e.tag = true →
          voc.names e.tag ≠ [] := by
  induction f generalizing parents path i with
  | nil => simp [Forest.elements]
  | text _ _ rest ih => exact ih parents path (i + 1)
  | element tag children rest ihChildren ihRest =>
      have hChild :
          ∀ e ∈ children.elements
              ((i :: path, tag) :: parents) (i :: path) 0,
            Below (i :: path) 0 e.path :=
        fun e hMem => below_of_mem_elements hMem
      have hNext :
          ∀ e ∈ rest.elements parents path (i + 1),
            Below path (i + 1) e.path :=
        fun e hMem => below_of_mem_elements hMem
      have hChildren :=
        ihChildren ((i :: path, tag) :: parents)
          (i :: path) 0
      have hRest := ihRest parents path (i + 1)
      simp only [Forest.elements, List.forall_mem_cons,
        List.forall_mem_append]
      constructor
      · rintro ⟨hSelf, hIn, hAfter⟩
        refine ⟨?_, hChildren.mp ?_, hRest.mp ?_⟩
        · intro hOpens
          exact (mem_reached_self.mp (hSelf hOpens)).2
        · intro e hMem hOpens
          exact
            ((mem_reached_child (hChild e hMem)).mp
              (hIn e hMem hOpens)).2
        · intro e hMem hOpens
          exact
            (mem_reached_next (hNext e hMem)).mp
              (hAfter e hMem hOpens)
      · rintro ⟨hSelf, hIn, hAfter⟩
        refine ⟨?_, ?_, ?_⟩
        · intro hOpens
          exact
            mem_reached_self.mpr ⟨hOpens, hSelf hOpens⟩
        · intro e hMem hOpens
          exact
            (mem_reached_child (hChild e hMem)).mpr
              ⟨hSelf, hChildren.mpr hIn e hMem hOpens⟩
        · intro e hMem hOpens
          exact
            (mem_reached_next (hNext e hMem)).mpr
              (hRest.mpr hAfter e hMem hOpens)

theorem mem_reachedTop_self :
    i :: path ∈
        reachedTop voc path i
          (.element tag children rest) ↔
      voc.opens tag = true := by
  have hChild :
      i :: path ∉ reachedTop voc (i :: path) 0 children :=
    fun hMem =>
      not_below_child_self (below_of_mem_reachedTop hMem)
  have hNext :
      i :: path ∉ reachedTop voc path (i + 1) rest :=
    fun hMem =>
      not_below_next_self (below_of_mem_reachedTop hMem)
  cases hOpens : voc.opens tag <;>
    simp [reachedTop, hOpens, hChild, hNext]

theorem mem_reachedTop_child
    (hBelow : Below (i :: path) 0 p) :
    p ∈ reachedTop voc path i
        (.element tag children rest) ↔
      if voc.opens tag then
        p ∈ reached voc (i :: path) 0 children
      else
        p ∈ reachedTop voc (i :: path) 0 children := by
  have hSelf : p ≠ i :: path := by
    intro hSame
    subst hSame
    exact not_below_child_self hBelow
  have hNext : p ∉ reachedTop voc path (i + 1) rest :=
    fun hMem =>
      not_below_next_of_below_child hBelow
        (below_of_mem_reachedTop hMem)
  cases hOpens : voc.opens tag <;>
    simp [reachedTop, hOpens, hSelf, hNext]

theorem mem_reachedTop_next
    (hBelow : Below path (i + 1) p) :
    p ∈ reachedTop voc path i
        (.element tag children rest) ↔
      p ∈ reachedTop voc path (i + 1) rest := by
  have hSelf : p ≠ i :: path := by
    intro hSame
    subst hSame
    exact not_below_next_self hBelow
  have hInside :
      p ∉ reached voc (i :: path) 0 children :=
    fun hMem =>
      not_below_next_of_below_child
        (below_of_mem_reached hMem) hBelow
  have hChild :
      p ∉ reachedTop voc (i :: path) 0 children :=
    fun hMem =>
      not_below_next_of_below_child
        (below_of_mem_reachedTop hMem) hBelow
  cases hOpens : voc.opens tag <;>
    simp [reachedTop, hOpens, hSelf, hInside, hChild]

/- Everything below a scope has a nearest scope. -/
theorem nearest_ne_none
    {kind : Tag → Bool}
    {f : Forest}
    {parents : List (Path × Tag)}
    (hInside : nearestParent kind parents ≠ none)
    {e : Element}
    (hMem : e ∈ f.elements parents path i) :
    e.nearest kind ≠ none := by
  have hDeep :
      ∀ q ∈ (none : Option Path), q.length ≤ path.length := by
    intro q hTarget
    cases hTarget
  have hFilter :=
    Forest.filter_nearest_of_ne (f := f) (i := i) hInside
      hDeep
  rw [List.filter_eq_nil_iff] at hFilter
  simpa using hFilter e hMem

/- The same for the nodes of an element at the top. -/
theorem child_reachedTop_iff
    {parents : List (Path × Tag)}
    (hTop : nearestParent voc.opens parents = none)
    (hChildren :
      ∀ parents path i,
        nearestParent voc.opens parents = none →
          ((∀ e ∈ children.elements parents path i,
              voc.opens e.tag = true →
                e.path ∈ reachedTop voc path i children) ↔
            ∀ e ∈ children.elements parents path i,
              voc.opens e.tag = true →
                e.nearest voc.opens ≠ none →
                  voc.names e.tag ≠ [])) :
    (∀ e ∈ children.elements
          ((i :: path, tag) :: parents) (i :: path) 0,
        voc.opens e.tag = true →
          e.path ∈
            reachedTop voc path i
              (.element tag children rest)) ↔
      ∀ e ∈ children.elements
          ((i :: path, tag) :: parents) (i :: path) 0,
        voc.opens e.tag = true →
          e.nearest voc.opens ≠ none →
            voc.names e.tag ≠ [] := by
  have hBelow :
      ∀ e ∈ children.elements
          ((i :: path, tag) :: parents) (i :: path) 0,
        Below (i :: path) 0 e.path :=
    fun e hMem => below_of_mem_elements hMem
  have hParent :=
    Forest.nearestParent_cons voc.opens (i :: path) tag
      parents
  cases hScope : voc.opens tag with
  | true =>
      have hInside :
          nearestParent voc.opens
              ((i :: path, tag) :: parents) ≠ none := by
        simp [hParent, hScope]
      have hAll :=
        @all_reached_iff voc children
          ((i :: path, tag) :: parents) (i :: path) 0
      constructor
      · intro hReached e hMem hOpens _
        apply hAll.mp _ e hMem hOpens
        intro e hMem hOpens
        have hTopMem := hReached e hMem hOpens
        rw [mem_reachedTop_child (hBelow e hMem), hScope,
          if_pos rfl] at hTopMem
        exact hTopMem
      · intro hNamed e hMem hOpens
        rw [mem_reachedTop_child (hBelow e hMem), hScope,
          if_pos rfl]
        apply hAll.mpr _ e hMem hOpens
        intro e hMem hOpens
        exact
          hNamed e hMem hOpens (nearest_ne_none hInside hMem)
  | false =>
      have hStill :
          nearestParent voc.opens
              ((i :: path, tag) :: parents) = none := by
        simp [hParent, hScope, hTop]
      rw [← hChildren _ _ _ hStill]
      constructor
      · intro hReached e hMem hOpens
        have hTopMem := hReached e hMem hOpens
        rw [mem_reachedTop_child (hBelow e hMem), hScope]
          at hTopMem
        simpa using hTopMem
      · intro hReached e hMem hOpens
        rw [mem_reachedTop_child (hBelow e hMem), hScope]
        simpa using hReached e hMem hOpens

/- At the top only the items inside others need a name. -/
theorem all_reachedTop_iff
    (f : Forest)
    (parents : List (Path × Tag))
    (path : Path)
    (i : Nat)
    (hTop : nearestParent voc.opens parents = none) :
    (∀ e ∈ f.elements parents path i,
        voc.opens e.tag = true →
          e.path ∈ reachedTop voc path i f) ↔
      ∀ e ∈ f.elements parents path i,
        voc.opens e.tag = true →
          e.nearest voc.opens ≠ none →
            voc.names e.tag ≠ [] := by
  induction f generalizing parents path i with
  | nil => simp [Forest.elements]
  | text _ _ rest ih => exact ih parents path (i + 1) hTop
  | element tag children rest ihChildren ihRest =>
      have hNext :
          ∀ e ∈ rest.elements parents path (i + 1),
            Below path (i + 1) e.path :=
        fun e hMem => below_of_mem_elements hMem
      have hRest := ihRest parents path (i + 1) hTop
      have hIn :=
        @child_reachedTop_iff voc path i tag children rest
          parents hTop ihChildren
      simp only [Forest.elements, List.forall_mem_cons,
        List.forall_mem_append]
      constructor
      · rintro ⟨_, hChildren, hAfter⟩
        refine ⟨?_, hIn.mp hChildren, hRest.mp ?_⟩
        · intro _ hNearest
          exact absurd hTop hNearest
        · intro e hMem hOpens
          exact
            (mem_reachedTop_next (hNext e hMem)).mp
              (hAfter e hMem hOpens)
      · rintro ⟨_, hChildren, hAfter⟩
        refine ⟨?_, hIn.mpr hChildren, ?_⟩
        · intro hOpens
          exact mem_reachedTop_self.mpr hOpens
        · intro e hMem hOpens
          exact
            (mem_reachedTop_next (hNext e hMem)).mpr
              (hRest.mpr hAfter e hMem hOpens)

/- The extraction is complete if nested items have names. -/
theorem complete_iff
    (voc : Vocabulary)
    (doc : Forest) :
    Complete voc doc ↔ NestedItemsNamed voc doc := by
  unfold Complete NestedItemsNamed
  simp only [mem_represented]
  exact all_reachedTop_iff doc [] [] 0 rfl

end Completeness

------------------------------------------------------------
-- Both Vocabularies
------------------------------------------------------------

/- A review as an element inside a product. -/
def reviewTag : Tag where
  name := "div"
  attrs :=
    [("itemscope", ""),
      ("itemtype", "https://schema.org/Review")]

/- A product with a review that is no property of it. -/
def unnamedReview : Forest :=
  .element
    { name := "div"
      attrs :=
        [("itemscope", ""),
          ("itemtype", "https://schema.org/Product")] }
    (.element reviewTag .nil .nil)
    .nil

end SiteAnalysis.Validator
