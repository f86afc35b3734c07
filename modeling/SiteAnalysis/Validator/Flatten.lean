import SiteAnalysis.Validator.Schema

/-
  This file proves which nodes of a JSON-LD block survive its
  flattening.

  A block is walked through its arrays and the `@graph`
  containers of its objects.  A container is only entered
  when it is an array; otherwise its object is kept as it is.

  Key definitions include:
    * `typedNodes`
    * `NodeOf`
    * `Flattened`
    * `callsNeeded`
    * `flatObjects`
    * `plainGraphs`

  Key theorems include:
    * `blockInduction`
    * `flattenJsonLd_eq`
    * `flattened_flatObjects_iff`
    * `flattened_iff`
-/

------------------------------------------------------------
-- Blocks
------------------------------------------------------------

namespace SiteAnalysis.Validator

open Python

/- The container of an object, if it has one. -/
abbrev graphOf (fields : Fields) : Option Json :=
  Json.field "@graph" fields

/- The object carries a true `@type`. -/
def isTyped : Json → Bool
| .obj fields => ((Json.field "@type" fields).getD .null).truthy
| _ => false

/- `{k: v for k, v in parsed.items() if k != "@graph"}` -/
def withoutGraph (fields : Fields) : Fields :=
  fields.filter (fun m => m.1 ≠ "@graph")

/- The object itself, if it is typed. -/
def ownNode (fields : Fields) : List Json :=
  if isTyped (.obj fields) then
    [.obj (withoutGraph fields)]
  else
    []

mutual

/-
  The typed objects that arrays and containers lead to, each
  without its container.
-/
def typedNodes : Json → List Json
| .arr entries => typedNodesAll entries
| .obj fields => typedNodesIn fields ++ ownNode fields
| _ => []

def typedNodesAll : List Json → List Json
| [] => []
| v :: vs => typedNodes v ++ typedNodesAll vs

/- The typed objects in the container among the members. -/
def typedNodesIn : List (String × Json) → List Json
| [] => []
| (key, v) :: rest =>
    if key = "@graph" then typedNodes v else typedNodesIn rest

end

/- An object of a block. -/
inductive NodeOf : Json → Fields → Prop
  | self
      (fields : Fields) :
      NodeOf (.obj fields) fields
  | entry
      {entries : List Json}
      {v : Json}
      {node : Fields}
      (hMem : v ∈ entries)
      (hNode : NodeOf v node) :
      NodeOf (.arr entries) node
  | graph
      {fields node : Fields}
      {v : Json}
      (hGraph : graphOf fields = some v)
      (hNode : NodeOf v node) :
      NodeOf (.obj fields) node

/-
  The output has every typed object once, without its
  container, and only objects of the block.
-/
structure Flattened
    (value : Json)
    (out : List Json) : Prop where
  typed : (out.filter isTyped).Perm (typedNodes value)
  nodes :
    ∀ v ∈ out, ∃ fields, NodeOf value fields ∧
      (v = .obj fields ∨ v = .obj (withoutGraph fields))

------------------------------------------------------------
-- Calls
------------------------------------------------------------

mutual

/- The nesting of the calls on a value. -/
def callsNeeded : Json → Nat
| .arr entries => callsNeededAll entries + 1
| .obj fields => callsNeededIn fields + 1
| _ => 1

def callsNeededAll : List Json → Nat
| [] => 0
| v :: vs => max (callsNeeded v) (callsNeededAll vs)

/- The calls on the entries of an array container. -/
def callsNeededIn : List (String × Json) → Nat
| [] => 0
| (key, .arr entries) :: rest =>
    if key = "@graph" then
      callsNeededAll entries
    else
      callsNeededIn rest
| (key, _) :: rest =>
    if key = "@graph" then 0 else callsNeededIn rest

end

mutual

/- What the calls return when none is nested too deep. -/
def flatObjects : Json → List Json
| .arr entries => flatObjectsAll entries
| .obj fields =>
    match flatObjectsIn fields with
    | some out => out ++ ownNode fields
    | none => [.obj fields]
| _ => []

def flatObjectsAll : List Json → List Json
| [] => []
| v :: vs => flatObjects v ++ flatObjectsAll vs

/- The objects of the entries of an array container. -/
def flatObjectsIn :
    List (String × Json) → Option (List Json)
| [] => none
| (key, .arr entries) :: rest =>
    if key = "@graph" then
      some (flatObjectsAll entries)
    else
      flatObjectsIn rest
| (key, _) :: rest =>
    if key = "@graph" then none else flatObjectsIn rest

end

mutual

/-
  No object that the calls come to has a container that is
  no array, unless neither the object is typed nor any in the
  container.
-/
def plainGraphs : Json → Bool
| .arr entries => plainGraphsAll entries
| .obj fields => plainGraphsIn (isTyped (.obj fields)) fields
| _ => true

def plainGraphsAll : List Json → Bool
| [] => true
| v :: vs => plainGraphs v && plainGraphsAll vs

/- The same of the container of a typed or untyped object. -/
def plainGraphsIn
    (typed : Bool) : List (String × Json) → Bool
| [] => true
| (key, .arr entries) :: rest =>
    if key = "@graph" then
      plainGraphsAll entries
    else
      plainGraphsIn typed rest
| (key, v) :: rest =>
    if key = "@graph" then
      !typed && (typedNodes v).isEmpty
    else
      plainGraphsIn typed rest

end

------------------------------------------------------------
-- The Recursions by the Container
------------------------------------------------------------

variable {fields : Fields} {entries : List Json}
variable {value v : Json} {depth : Nat}

theorem graphOf_cons
    (key : String)
    (v : Json)
    (rest : Fields) :
    graphOf ((key, v) :: rest) =
      if key = "@graph" then some v else graphOf rest := by
  unfold graphOf Json.field
  rw [List.lookup_cons]
  by_cases hKey : key = "@graph"
  · simp [hKey]
  · have hNe : ("@graph" == key) = false := by
      simpa using Ne.symm hKey
    rw [hNe, if_neg hKey]

theorem typedNodesAll_eq :
    typedNodesAll entries = entries.flatMap typedNodes := by
  induction entries with
  | nil => rfl
  | cons v vs ih =>
      rw [typedNodesAll, ih, List.flatMap_cons]

theorem flatObjectsAll_eq :
    flatObjectsAll entries = entries.flatMap flatObjects := by
  induction entries with
  | nil => rfl
  | cons v vs ih =>
      rw [flatObjectsAll, ih, List.flatMap_cons]

theorem callsNeededAll_le :
    callsNeededAll entries ≤ depth ↔
      ∀ v ∈ entries, callsNeeded v ≤ depth := by
  induction entries with
  | nil => simp [callsNeededAll]
  | cons v vs ih =>
      rw [callsNeededAll, Nat.max_le, ih,
        List.forall_mem_cons]

theorem plainGraphsAll_iff :
    plainGraphsAll entries = true ↔
      ∀ v ∈ entries, plainGraphs v = true := by
  induction entries with
  | nil => simp [plainGraphsAll]
  | cons v vs ih =>
      rw [plainGraphsAll, Bool.and_eq_true, ih,
        List.forall_mem_cons]

theorem typedNodesIn_eq :
    typedNodesIn fields =
      ((graphOf fields).map typedNodes).getD [] := by
  induction fields with
  | nil => rfl
  | cons member rest ih =>
      rcases member with ⟨key, v⟩
      rw [graphOf_cons, typedNodesIn]
      split
      · rfl
      · exact ih

/- The part of an object that depends on its container. -/
theorem in_of_graphOf_none
    (hGraph : graphOf fields = none)
    (typed : Bool) :
    callsNeededIn fields = 0 ∧ flatObjectsIn fields = none ∧
      plainGraphsIn typed fields = true := by
  induction fields with
  | nil => exact ⟨rfl, rfl, rfl⟩
  | cons member rest ih =>
      rcases member with ⟨key, v⟩
      rw [graphOf_cons] at hGraph
      split at hGraph
      · cases hGraph
      · rename_i hKey
        cases v <;>
          simpa [callsNeededIn, flatObjectsIn,
            plainGraphsIn, hKey] using ih hGraph

theorem in_of_graphOf_arr
    (hGraph : graphOf fields = some (.arr entries))
    (typed : Bool) :
    callsNeededIn fields = callsNeededAll entries ∧
      flatObjectsIn fields = some (flatObjectsAll entries) ∧
        plainGraphsIn typed fields =
          plainGraphsAll entries := by
  induction fields with
  | nil => cases hGraph
  | cons member rest ih =>
      rcases member with ⟨key, v⟩
      rw [graphOf_cons] at hGraph
      split at hGraph
      · rename_i hKey
        cases hGraph
        simp [callsNeededIn, flatObjectsIn, plainGraphsIn,
          hKey]
      · rename_i hKey
        cases v <;>
          simpa [callsNeededIn, flatObjectsIn,
            plainGraphsIn, hKey] using ih hGraph

theorem in_of_graphOf_other
    (hGraph : graphOf fields = some v)
    (hOther : ∀ entries, v ≠ .arr entries)
    (typed : Bool) :
    callsNeededIn fields = 0 ∧ flatObjectsIn fields = none ∧
      plainGraphsIn typed fields =
        (!typed && (typedNodes v).isEmpty) := by
  induction fields with
  | nil => cases hGraph
  | cons member rest ih =>
      rcases member with ⟨key, w⟩
      rw [graphOf_cons] at hGraph
      split at hGraph
      · rename_i hKey
        have hSame : w = v := Option.some.inj hGraph
        subst hSame
        cases w with
        | arr entries => exact absurd rfl (hOther entries)
        | _ =>
            simp [callsNeededIn, flatObjectsIn,
              plainGraphsIn, hKey]
      · rename_i hKey
        cases w <;>
          simpa [callsNeededIn, flatObjectsIn,
            plainGraphsIn, hKey] using ih hGraph

/- The cases of the container of an object. -/
theorem graphOf_cases (fields : Fields) :
    graphOf fields = none ∨
      (∃ entries, graphOf fields = some (.arr entries)) ∨
        ∃ v, graphOf fields = some v ∧
          ∀ entries, v ≠ .arr entries := by
  cases hGraph : graphOf fields with
  | none => exact Or.inl rfl
  | some v =>
      cases v with
      | arr entries => exact Or.inr (Or.inl ⟨entries, rfl⟩)
      | _ =>
          exact
            Or.inr (Or.inr ⟨_, rfl, fun _ h => by cases h⟩)

theorem flatObjects_of_arr
    (hGraph : graphOf fields = some (.arr entries)) :
    flatObjects (.obj fields) =
      entries.flatMap flatObjects ++ ownNode fields := by
  rw [flatObjects, (in_of_graphOf_arr hGraph true).2.1,
    flatObjectsAll_eq]

theorem flatObjects_of_none
    (hNone : flatObjectsIn fields = none) :
    flatObjects (.obj fields) = [.obj fields] := by
  rw [flatObjects, hNone]

------------------------------------------------------------
-- Induction on Blocks
------------------------------------------------------------

theorem sizeOf_entry
    (hMem : v ∈ entries) :
    sizeOf v < sizeOf (Json.arr entries) := by
  have hLess := List.sizeOf_lt_of_mem hMem
  rw [Json.arr.sizeOf_spec]
  omega

theorem sizeOf_graph
    (hGraph : graphOf fields = some v) :
    sizeOf v < sizeOf (Json.obj fields) := by
  rcases List.lookup_eq_some_iff.mp hGraph with
    ⟨before, after, hSplit, _⟩
  have hMem : ("@graph", v) ∈ fields := by
    rw [hSplit]
    simp
  have hLess := List.sizeOf_lt_of_mem hMem
  rw [Prod.mk.sizeOf_spec] at hLess
  rw [Json.obj.sizeOf_spec]
  omega

/-
  A property of every value follows from the entries to their
  array and from the container, and its entries, to its
  object.
-/
theorem blockInduction
    {P : Json → Prop}
    (hArr : ∀ entries, (∀ v ∈ entries, P v) → P (.arr entries))
    (hObj :
      ∀ fields,
        (∀ v, graphOf fields = some v →
          P v ∧ ∀ entries, v = .arr entries →
            ∀ w ∈ entries, P w) →
          P (.obj fields))
    (hLeaf :
      ∀ v, (∀ entries, v ≠ .arr entries) →
        (∀ fields, v ≠ .obj fields) → P v)
    (value : Json) : P value := by
  generalize hSize : sizeOf value = size
  induction size using Nat.strong_induction_on
    generalizing value with
  | _ size ih =>
      cases value with
      | arr entries =>
          apply hArr
          intro v hMem
          exact ih _ (hSize ▸ sizeOf_entry hMem) v rfl
      | obj fields =>
          apply hObj
          intro v hGraph
          have hLess := sizeOf_graph hGraph
          rw [hSize] at hLess
          refine ⟨ih _ hLess v rfl, ?_⟩
          intro entries hSame w hMem
          have hEntry := sizeOf_entry hMem
          rw [← hSame] at hEntry
          exact ih _ (hEntry.trans hLess) w rfl
      | _ =>
          exact
            hLeaf _ (fun _ h => by cases h)
              (fun _ h => by cases h)

------------------------------------------------------------
-- The Output
------------------------------------------------------------

/- Nothing is flattened without a call. -/
theorem callsNeeded_pos (value : Json) :
    0 < callsNeeded value := by
  cases value <;> simp [callsNeeded]

/- The calls on the entries of an array. -/
theorem mapM_flattenJsonLd
    (hAll :
      ∀ v ∈ entries,
        flattenJsonLd depth v =
          if callsNeeded v ≤ depth then
            .ok (flatObjects v)
          else
            .error recursionError) :
    entries.mapM (flattenJsonLd depth) =
      if callsNeededAll entries ≤ depth then
        .ok (entries.map flatObjects)
      else
        .error recursionError := by
  induction entries with
  | nil => simp [callsNeededAll, pure, Except.pure]
  | cons v vs ih =>
      rw [List.forall_mem_cons] at hAll
      rw [List.mapM_cons, hAll.1, ih hAll.2, callsNeededAll]
      by_cases hHead : callsNeeded v ≤ depth
      · by_cases hTail : callsNeededAll vs ≤ depth
        · simp [hHead, hTail, bind, Except.bind, pure,
            Except.pure]
        · simp [hHead, hTail, bind, Except.bind]
      · simp [hHead, bind, Except.bind]

/- The branch of an array container. -/
theorem flattenJsonLd_graph
    (hGraph : graphOf fields = some (.arr entries)) :
    flattenJsonLd (depth + 1) (.obj fields) =
      (entries.mapM (flattenJsonLd depth)).map
        (fun out => out.flatten ++ ownNode fields) := by
  simp only [flattenJsonLd, hGraph]
  congr 1
  funext out
  by_cases hTyped : isTyped (.obj fields) = true
  · rw [ownNode, if_pos hTyped]
    exact if_pos hTyped
  · rw [ownNode, if_neg hTyped, List.append_nil]
    exact if_neg hTyped

/- `_flatten_json_ld` returns its objects, or runs too deep. -/
theorem flattenJsonLd_eq
    (depth : Nat)
    (value : Json) :
    flattenJsonLd depth value =
      if callsNeeded value ≤ depth then
        .ok (flatObjects value)
      else
        .error recursionError := by
  induction depth generalizing value with
  | zero =>
      have hPos := callsNeeded_pos value
      rw [flattenJsonLd, if_neg (by omega)]
  | succ depth ih =>
      cases value with
      | arr entries =>
          rw [flattenJsonLd,
            mapM_flattenJsonLd (fun v _ => ih v),
            callsNeeded, flatObjects, flatObjectsAll_eq]
          simp only [Nat.add_le_add_iff_right]
          split
          · simp [Except.map, List.flatMap_def]
          · rfl
      | obj fields =>
          rw [callsNeeded]
          simp only [Nat.add_le_add_iff_right]
          rcases graphOf_cases fields with
            hNone | ⟨entries, hGraph⟩ | ⟨v, hGraph, hOther⟩
          · have hIn := in_of_graphOf_none hNone true
            rw [hIn.1, flatObjects_of_none hIn.2.1]
            simp [flattenJsonLd, hNone]
          · have hIn := in_of_graphOf_arr hGraph true
            rw [hIn.1, flatObjects_of_arr hGraph]
            rw [flattenJsonLd_graph hGraph,
              mapM_flattenJsonLd (fun v _ => ih v)]
            by_cases hDeep : callsNeededAll entries ≤ depth
            · rw [if_pos hDeep, if_pos hDeep]
              rfl
            · rw [if_neg hDeep, if_neg hDeep]
              rfl
          · have hIn := in_of_graphOf_other hGraph hOther true
            rw [hIn.1, flatObjects_of_none hIn.2.1]
            cases v with
            | arr entries => exact absurd rfl (hOther entries)
            | _ => simp [flattenJsonLd, hGraph]
      | _ => simp [flattenJsonLd, callsNeeded, flatObjects]

------------------------------------------------------------
-- Objects Without Their Container
------------------------------------------------------------

theorem graphOf_withoutGraph (fields : Fields) :
    graphOf (withoutGraph fields) = none := by
  unfold graphOf Json.field withoutGraph
  rw [List.lookup_eq_none_iff]
  intro member hMem
  have hOther :=
    of_decide_eq_true (List.mem_filter.mp hMem).2
  exact bne_iff_ne.mpr (Ne.symm hOther)

theorem withoutGraph_eq_self
    (hGraph : graphOf fields = none) :
    withoutGraph fields = fields := by
  unfold graphOf Json.field at hGraph
  rw [List.lookup_eq_none_iff] at hGraph
  unfold withoutGraph
  rw [List.filter_eq_self]
  intro member hMem
  have hOther := bne_iff_ne.mp (hGraph member hMem)
  exact decide_eq_true (Ne.symm hOther)

/- The members other than the container stay as they are. -/
theorem field_withoutGraph
    {key : String}
    (hKey : key ≠ "@graph") :
    Json.field key (withoutGraph fields) =
      Json.field key fields := by
  unfold Json.field withoutGraph
  induction fields with
  | nil => rfl
  | cons member rest ih =>
      by_cases hGraph : member.1 = "@graph"
      · have hNe : (key == member.1) = false := by
          rw [hGraph]
          simpa using hKey
        rw [List.filter_cons_of_neg (by simpa using hGraph),
          ih, List.lookup_cons, hNe]
      · rw [List.filter_cons_of_pos (by simpa using hGraph),
          List.lookup_cons, List.lookup_cons, ih]

theorem isTyped_withoutGraph (fields : Fields) :
    isTyped (.obj (withoutGraph fields)) =
      isTyped (.obj fields) := by
  rw [isTyped, isTyped, field_withoutGraph (by decide)]

theorem filter_ownNode (fields : Fields) :
    (ownNode fields).filter isTyped = ownNode fields := by
  by_cases hTyped : isTyped (.obj fields) = true
  · rw [ownNode, if_pos hTyped, List.filter_eq_self]
    intro v hMem
    rw [List.mem_singleton.mp hMem, isTyped_withoutGraph]
    exact hTyped
  · rw [ownNode, if_neg hTyped, List.filter_nil]

/- The value is no object, or one without a container. -/
def isBare : Json → Bool
| .obj fields => (graphOf fields).isNone
| _ => true

theorem isBare_of_mem_ownNode
    (hMem : v ∈ ownNode fields) :
    isBare v = true := by
  unfold ownNode at hMem
  split at hMem
  · rw [List.mem_singleton.mp hMem, isBare,
      graphOf_withoutGraph]
    rfl
  · cases hMem

/- The typed nodes of an object with a container. -/
theorem typedNodes_of_graph
    (hGraph : graphOf fields = some v) :
    typedNodes (.obj fields) =
      typedNodes v ++ ownNode fields := by
  rw [typedNodes, typedNodesIn_eq, hGraph]
  rfl

theorem typedNodes_of_none
    (hGraph : graphOf fields = none) :
    typedNodes (.obj fields) = ownNode fields := by
  rw [typedNodes, typedNodesIn_eq, hGraph]
  rfl

theorem isBare_of_mem_typedNodes
    (hMem : v ∈ typedNodes value) :
    isBare v = true := by
  induction value using blockInduction generalizing v with
  | hArr entries ih =>
      rw [typedNodes, typedNodesAll_eq,
        List.mem_flatMap] at hMem
      rcases hMem with ⟨entry, hEntry, hNode⟩
      exact ih entry hEntry hNode
  | hObj fields ih =>
      cases hGraph : graphOf fields with
      | none =>
          rw [typedNodes_of_none hGraph] at hMem
          exact isBare_of_mem_ownNode hMem
      | some w =>
          rw [typedNodes_of_graph hGraph,
            List.mem_append] at hMem
          rcases hMem with hBelow | hOwn
          · exact (ih w hGraph).1 hBelow
          · exact isBare_of_mem_ownNode hOwn
  | hLeaf value hArr hObj =>
      cases value with
      | arr entries => exact absurd rfl (hArr entries)
      | obj fields => exact absurd rfl (hObj fields)
      | _ => cases hMem

------------------------------------------------------------
-- Which Typed Nodes Are Kept
------------------------------------------------------------

/- The typed objects of the output. -/
abbrev keptNodes (value : Json) : List Json :=
  (flatObjects value).filter isTyped

theorem keptNodes_arr (entries : List Json) :
    keptNodes (.arr entries) =
      entries.flatMap keptNodes := by
  rw [keptNodes, flatObjects, flatObjectsAll_eq,
    List.filter_flatMap]

theorem keptNodes_of_arr
    (hGraph : graphOf fields = some (.arr entries)) :
    keptNodes (.obj fields) =
      entries.flatMap keptNodes ++ ownNode fields := by
  rw [keptNodes, flatObjects_of_arr hGraph,
    List.filter_append, List.filter_flatMap,
    filter_ownNode]

/- An object that is kept as it is. -/
theorem keptNodes_of_none
    (hNone : flatObjectsIn fields = none) :
    keptNodes (.obj fields) =
      if isTyped (.obj fields) then [.obj fields] else [] := by
  rw [keptNodes, flatObjects_of_none hNone,
    List.filter_singleton, cond_eq_ite]

theorem length_ownNode (fields : Fields) :
    (ownNode fields).length =
      if isTyped (.obj fields) then 1 else 0 := by
  unfold ownNode
  split <;> rfl

theorem length_keptNodes_of_none
    (hNone : flatObjectsIn fields = none) :
    (keptNodes (.obj fields)).length =
      (ownNode fields).length := by
  rw [keptNodes_of_none hNone, length_ownNode]
  split <;> rfl

/- The typed nodes of the entries of an array container. -/
theorem typedNodes_of_arr
    (hGraph : graphOf fields = some (.arr entries)) :
    typedNodes (.obj fields) =
      entries.flatMap typedNodes ++ ownNode fields := by
  rw [typedNodes_of_graph hGraph, typedNodes,
    typedNodesAll_eq]

theorem plainGraphs_of_arr
    (hGraph : graphOf fields = some (.arr entries)) :
    plainGraphs (.obj fields) = plainGraphsAll entries := by
  rw [plainGraphs]
  exact (in_of_graphOf_arr hGraph _).2.2

/- Nothing is lost behind plain containers. -/
theorem keptNodes_of_plain
    (hPlain : plainGraphs value = true) :
    keptNodes value = typedNodes value := by
  induction value using blockInduction with
  | hArr entries ih =>
      rw [plainGraphs, plainGraphsAll_iff] at hPlain
      rw [keptNodes_arr, typedNodes, typedNodesAll_eq]
      exact
        List.flatMap_congr
          (fun v hMem => ih v hMem (hPlain v hMem))
  | hObj fields ih =>
      rcases graphOf_cases fields with
        hNone | ⟨entries, hGraph⟩ | ⟨v, hGraph, hOther⟩
      · have hIn := in_of_graphOf_none hNone true
        rw [keptNodes_of_none hIn.2.1,
          typedNodes_of_none hNone, ownNode,
          withoutGraph_eq_self hNone]
      · rw [plainGraphs_of_arr hGraph,
          plainGraphsAll_iff] at hPlain
        have hBelow := (ih _ hGraph).2 entries rfl
        rw [keptNodes_of_arr hGraph,
          typedNodes_of_arr hGraph]
        congr 1
        exact
          List.flatMap_congr
            (fun v hMem => hBelow v hMem (hPlain v hMem))
      · have hIn := in_of_graphOf_other hGraph hOther
        rw [plainGraphs, (hIn _).2.2, Bool.and_eq_true,
          Bool.not_eq_true', List.isEmpty_iff] at hPlain
        rw [keptNodes_of_none (hIn true).2.1,
          typedNodes_of_graph hGraph, ownNode, hPlain.1,
          hPlain.2]
        rfl
  | hLeaf value hArr hObj =>
      cases value with
      | arr entries => exact absurd rfl (hArr entries)
      | obj fields => exact absurd rfl (hObj fields)
      | _ => rfl

theorem length_flatMap_le
    {f g : Json → List Json}
    (hLe : ∀ v ∈ entries, (f v).length ≤ (g v).length) :
    (entries.flatMap f).length ≤
      (entries.flatMap g).length := by
  induction entries with
  | nil => exact le_rfl
  | cons v vs ih =>
      rw [List.forall_mem_cons] at hLe
      simp only [List.flatMap_cons, List.length_append]
      exact Nat.add_le_add hLe.1 (ih hLe.2)

/- Sums of terms that are not above others are only equal termwise. -/
theorem length_eq_of_flatMap
    {f g : Json → List Json}
    (hLe : ∀ v ∈ entries, (f v).length ≤ (g v).length)
    (hLength :
      (entries.flatMap f).length =
        (entries.flatMap g).length) :
    ∀ v ∈ entries, (f v).length = (g v).length := by
  induction entries with
  | nil => exact fun _ hMem => by cases hMem
  | cons v vs ih =>
      rw [List.forall_mem_cons] at hLe ⊢
      have hRest := length_flatMap_le hLe.2
      simp only [List.flatMap_cons,
        List.length_append] at hLength
      have hHead := hLe.1
      exact ⟨by omega, ih hLe.2 (by omega)⟩

/- No typed node is kept twice. -/
theorem length_keptNodes_le (value : Json) :
    (keptNodes value).length ≤
      (typedNodes value).length := by
  induction value using blockInduction with
  | hArr entries ih =>
      rw [keptNodes_arr, typedNodes, typedNodesAll_eq]
      exact length_flatMap_le ih
  | hObj fields ih =>
      rcases graphOf_cases fields with
        hNone | ⟨entries, hGraph⟩ | ⟨v, hGraph, hOther⟩
      · have hIn := in_of_graphOf_none hNone true
        rw [length_keptNodes_of_none hIn.2.1,
          typedNodes_of_none hNone]
      · have hBelow := (ih _ hGraph).2 entries rfl
        rw [keptNodes_of_arr hGraph,
          typedNodes_of_arr hGraph, List.length_append,
          List.length_append]
        exact
          Nat.add_le_add_right (length_flatMap_le hBelow) _
      · have hIn := in_of_graphOf_other hGraph hOther true
        rw [length_keptNodes_of_none hIn.2.1,
          typedNodes_of_graph hGraph, List.length_append]
        omega
  | hLeaf value hArr hObj =>
      cases value with
      | arr entries => exact absurd rfl (hArr entries)
      | obj fields => exact absurd rfl (hObj fields)
      | _ => exact le_rfl

/-
  When as many bare nodes are kept as there are, every
  container in the way is plain.
-/
theorem plain_of_length
    (hLength :
      (keptNodes value).length = (typedNodes value).length)
    (hBare : ∀ v ∈ keptNodes value, isBare v = true) :
    plainGraphs value = true := by
  induction value using blockInduction with
  | hArr entries ih =>
      rw [plainGraphs, plainGraphsAll_iff]
      rw [keptNodes_arr] at hLength hBare
      rw [typedNodes, typedNodesAll_eq] at hLength
      intro v hMem
      apply ih v hMem
      · exact
          length_eq_of_flatMap
            (fun w _ => length_keptNodes_le w) hLength v hMem
      · exact fun w hKept =>
          hBare w (List.mem_flatMap.mpr ⟨v, hMem, hKept⟩)
  | hObj fields ih =>
      rcases graphOf_cases fields with
        hNone | ⟨entries, hGraph⟩ | ⟨v, hGraph, hOther⟩
      · rw [plainGraphs]
        exact (in_of_graphOf_none hNone _).2.2
      · rw [plainGraphs_of_arr hGraph, plainGraphsAll_iff]
        rw [keptNodes_of_arr hGraph] at hLength hBare
        rw [typedNodes_of_arr hGraph, List.length_append,
          List.length_append,
          Nat.add_right_cancel_iff] at hLength
        intro v hMem
        apply (ih _ hGraph).2 entries rfl v hMem
        · exact
            length_eq_of_flatMap
              (fun w _ => length_keptNodes_le w) hLength v
              hMem
        · exact fun w hKept =>
            hBare w
              (List.mem_append_left _
                (List.mem_flatMap.mpr ⟨v, hMem, hKept⟩))
      · have hIn := in_of_graphOf_other hGraph hOther
        rw [plainGraphs, (hIn _).2.2]
        rw [length_keptNodes_of_none (hIn true).2.1,
          typedNodes_of_graph hGraph,
          List.length_append] at hLength
        have hEmpty : typedNodes v = [] :=
          List.eq_nil_of_length_eq_zero (by omega)
        rw [keptNodes_of_none (hIn true).2.1] at hBare
        by_cases hTyped : isTyped (.obj fields) = true
        · rw [if_pos hTyped] at hBare
          have hSelf := hBare _ (List.mem_singleton_self _)
          simp [isBare, hGraph] at hSelf
        · simp [hTyped, hEmpty]
  | hLeaf value hArr hObj =>
      cases value with
      | arr entries => exact absurd rfl (hArr entries)
      | obj fields => exact absurd rfl (hObj fields)
      | _ => rfl

------------------------------------------------------------
-- Flattened Blocks
------------------------------------------------------------

theorem nodeOf_of_mem_ownNode
    (hMem : v ∈ ownNode fields) :
    v = .obj (withoutGraph fields) := by
  unfold ownNode at hMem
  split at hMem
  · exact List.mem_singleton.mp hMem
  · cases hMem

/- Only objects of the block are returned. -/
theorem nodes_flatObjects
    (hMem : v ∈ flatObjects value) :
    ∃ fields, NodeOf value fields ∧
      (v = .obj fields ∨ v = .obj (withoutGraph fields)) := by
  induction value using blockInduction generalizing v with
  | hArr entries ih =>
      rw [flatObjects, flatObjectsAll_eq,
        List.mem_flatMap] at hMem
      rcases hMem with ⟨entry, hEntry, hOut⟩
      rcases ih entry hEntry hOut with ⟨node, hNode, hForm⟩
      exact ⟨node, .entry hEntry hNode, hForm⟩
  | hObj fields ih =>
      cases hIn : flatObjectsIn fields with
      | none =>
          rw [flatObjects_of_none hIn] at hMem
          exact
            ⟨fields, .self fields,
              Or.inl (List.mem_singleton.mp hMem)⟩
      | some out =>
          rcases graphOf_cases fields with
            hNone | ⟨entries, hGraph⟩ | ⟨w, hGraph, hOther⟩
          · rw [(in_of_graphOf_none hNone true).2.1] at hIn
            cases hIn
          · rw [flatObjects_of_arr hGraph, List.mem_append,
              List.mem_flatMap] at hMem
            rcases hMem with ⟨entry, hEntry, hOut⟩ | hOwn
            · rcases
                  (ih _ hGraph).2 entries rfl entry hEntry
                    hOut with
                ⟨node, hNode, hForm⟩
              exact
                ⟨node, .graph hGraph (.entry hEntry hNode),
                  hForm⟩
            · exact
                ⟨fields, .self fields,
                  Or.inr (nodeOf_of_mem_ownNode hOwn)⟩
          · rw [(in_of_graphOf_other hGraph hOther
              true).2.1] at hIn
            cases hIn
  | hLeaf value hArr hObj =>
      cases value with
      | arr entries => exact absurd rfl (hArr entries)
      | obj fields => exact absurd rfl (hObj fields)
      | _ => cases hMem

/- What the calls return is right behind plain containers. -/
theorem flattened_flatObjects_iff (value : Json) :
    Flattened value (flatObjects value) ↔
      plainGraphs value = true := by
  constructor
  · intro hFlat
    apply plain_of_length
    · exact hFlat.typed.length_eq
    · intro v hMem
      exact
        isBare_of_mem_typedNodes (hFlat.typed.mem_iff.mp hMem)
  · intro hPlain
    exact
      ⟨List.Perm.of_eq (keptNodes_of_plain hPlain),
        fun v hMem => nodes_flatObjects hMem⟩

/-
  `_flatten_json_ld` returns every typed object of a block
  exactly when its calls are not nested too deep and every
  container that is no array is plain.
-/
theorem flattened_iff
    (depth : Nat)
    (value : Json) :
    (∃ out, flattenJsonLd depth value = .ok out ∧
      Flattened value out) ↔
        callsNeeded value ≤ depth ∧
          plainGraphs value = true := by
  rw [flattenJsonLd_eq]
  by_cases hDepth : callsNeeded value ≤ depth
  · rw [if_pos hDepth, ← flattened_flatObjects_iff]
    constructor
    · rintro ⟨out, hOut, hFlat⟩
      cases hOut
      exact ⟨hDepth, hFlat⟩
    · rintro ⟨_, hFlat⟩
      exact ⟨flatObjects value, rfl, hFlat⟩
  · rw [if_neg hDepth]
    constructor
    · rintro ⟨out, hOut, _⟩
      cases hOut
    · exact fun hBoth => absurd hBoth.1 hDepth

/- The typed node of a single-object container is lost. -/
theorem graphObject_not_flattened :
    ¬ ∀ depth value,
      callsNeeded value ≤ depth →
        ∃ out, flattenJsonLd depth value = .ok out ∧
          Flattened value out := by
  intro hAll
  have hBoth :=
    hAll 2
      (.obj [("@graph", .obj [("@type", .str "Product")])])
      (by decide)
  rw [flattenJsonLd_eq, if_pos (by decide)] at hBoth
  rcases hBoth with ⟨out, hOut, hFlat⟩
  cases hOut
  have hLength := hFlat.typed.length_eq
  exact absurd hLength (by decide)

end SiteAnalysis.Validator
