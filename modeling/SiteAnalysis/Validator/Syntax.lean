import SiteAnalysis.Validator.Flatten
import SiteAnalysis.Validator.Rerun

/-
  This file determines on which pages the reported syntax
  errors are those of the JSON-LD blocks.

  A block that does not parse is handed on as an object with
  a marker key.  The page can carry the same key itself.

  Key definitions include:
    * `isSyntaxError`
    * `isMarked`
    * `KeptNode`
    * `Unmarked`
    * `brokenBlocks`
    * `syntaxReports`

  Key theorems include:
    * `isSyntaxError_validateSchema`
    * `isMarked_flatObjects_iff`
    * `isMarked_parseItem_iff`
    * `countMarked_extractAll_iff`
    * `syntaxReports_of_run`
-/

------------------------------------------------------------
-- Syntax Errors
------------------------------------------------------------

namespace SiteAnalysis.Validator

open Concurrency
open Relational
open Python Markup

/- The issue is an "Invalid JSON-LD syntax" error. -/
def isSyntaxError (issue : Issue) : Bool :=
  issue.severity = .error ∧
    "Invalid JSON-LD syntax".toList.isPrefixOf
      issue.message.toList

/- The object has the key of a block that did not parse. -/
def isMarked (data : Json) : Bool :=
  (Json.field parseErrorKey (members data)).isSome

/- The message begins with another letter. -/
def beginsElse (message : String) : Bool :=
  message.toList.head?.any (fun c => c ≠ 'I')

variable {message text : String}
variable {issue : Issue} {rule : SchemaRule} {data : Fields}

theorem beginsElse_append
    (hBegins : beginsElse message = true)
    (text : String) :
    beginsElse (message ++ text) = true := by
  unfold beginsElse at hBegins ⊢
  rw [String.toList_append]
  cases hChars : message.toList with
  | nil =>
      rw [hChars] at hBegins
      cases hBegins
  | cons c cs =>
      rw [hChars] at hBegins
      exact hBegins

theorem isSyntaxError_of_beginsElse
    (hBegins : beginsElse issue.message = true) :
    isSyntaxError issue = false := by
  unfold isSyntaxError
  apply decide_eq_false
  rintro ⟨_, hPrefix⟩
  unfold beginsElse at hBegins
  cases hChars : issue.message.toList with
  | nil =>
      rw [hChars] at hBegins
      cases hBegins
  | cons c cs =>
      rw [hChars] at hBegins hPrefix
      have hFirst : c = 'I' := by
        rw [List.isPrefixOf_iff_prefix] at hPrefix
        exact (List.cons_prefix_cons.mp hPrefix).1.symm
      rw [hFirst] at hBegins
      simp at hBegins

theorem isSyntaxError_parseErrorIssue
    (reason : String) :
    isSyntaxError (parseErrorIssue reason) = true := by
  unfold isSyntaxError parseErrorIssue
  apply decide_eq_true
  refine ⟨rfl, ?_⟩
  rw [String.toList_append, List.isPrefixOf_iff_prefix]
  have hText :
      "Invalid JSON-LD syntax: ".toList =
        "Invalid JSON-LD syntax".toList ++ ": ".toList := by
    decide
  rw [hText, List.append_assoc]
  exact List.prefix_append _ _

/- No list property begins like a syntax error. -/
theorem beginsElse_listProperty
    {prop : String}
    (hMem : rule ∈ rules.map Prod.snd)
    (hList : rule.listProperty = some prop) :
    beginsElse prop = true := by
  have hAll :
      ∀ rule ∈ rules.map Prod.snd,
        rule.listProperty.all beginsElse = true := by
    decide +kernel
  have hRule := hAll rule hMem
  rw [hList] at hRule
  exact hRule

/- What is said of an entry begins with its place. -/
theorem beginsElse_validateEntry
    {listProperty loc : String}
    {value : Json}
    (hLoc : beginsElse loc = true)
    (hMem : issue ∈ validateEntry rule listProperty loc value) :
    beginsElse issue.message = true := by
  have hPlace := fun text => beginsElse_append hLoc text
  cases value with
  | obj entry =>
      simp only [validateEntry, List.mem_append,
        List.mem_flatMap] at hMem
      rcases hMem with
        (hType | ⟨prop, _, hProp⟩) | ⟨nested, _, hNested⟩
      · unfold wrongEntryType at hType
        split at hType
        · split at hType
          · rw [List.mem_singleton.mp hType]
            simp only [String.append_assoc]
            exact hPlace _
          · cases hType
        · cases hType
      · unfold missingInEntry at hProp
        split at hProp
        · rw [List.mem_singleton.mp hProp]
          simp only [String.append_assoc]
          exact hPlace _
        · cases hProp
      · split at hNested
        · rcases List.mem_flatMap.mp hNested with
            ⟨sub, _, hSub⟩
          unfold missingInChild at hSub
          split at hSub
          · rw [List.mem_singleton.mp hSub]
            simp only [String.append_assoc]
            exact hPlace _
          · cases hSub
        · cases hNested
  | _ =>
      rw [List.mem_singleton.mp hMem]
      exact hPlace _

theorem beginsElse_validateList
    (hRule : rule ∈ rules.map Prod.snd)
    (hMem : issue ∈ validateList rule data) :
    beginsElse issue.message = true := by
  unfold validateList at hMem
  split at hMem
  · cases hMem
  · rename_i prop hList
    split at hMem
    · rcases List.mem_flatMap.mp hMem with
        ⟨entry, _, hEntry⟩
      apply beginsElse_validateEntry _ hEntry
      unfold location
      simp only [String.append_assoc]
      exact
        beginsElse_append
          (beginsElse_listProperty hRule hList) _
    · cases hMem

theorem beginsElse_recommendInside
    {parent : String}
    {subfields : List String}
    {value : Json}
    (hMem : issue ∈ recommendInside parent subfields value) :
    beginsElse issue.message = true := by
  unfold recommendInside at hMem
  split at hMem
  · rcases List.mem_map.mp hMem with ⟨sub, _, rfl⟩
    simp only [String.append_assoc]
    exact beginsElse_append (by decide) _
  · cases hMem

theorem beginsElse_validateObjectRecommended
    (hMem : issue ∈ validateObjectRecommended rule data) :
    beginsElse issue.message = true := by
  rcases List.mem_flatMap.mp hMem with ⟨nested, _, hNested⟩
  split at hNested
  · rcases List.mem_flatMap.mp hNested with
      ⟨candidate, _, hCandidate⟩
    exact beginsElse_recommendInside hCandidate
  · exact beginsElse_recommendInside hNested

/- No rule reports a syntax error. -/
theorem beginsElse_ruleIssues
    {name : String}
    (hRule : rule ∈ rules.map Prod.snd)
    (hMem : issue ∈ ruleIssues rule name data) :
    beginsElse issue.message = true := by
  simp only [ruleIssues, List.mem_append, List.mem_map]
    at hMem
  rcases hMem with
    (((⟨prop, _, rfl⟩ | ⟨prop, _, rfl⟩) | ⟨p, _, rfl⟩) |
        hList) |
      hNested
  · simp only [requiredIssue, String.append_assoc]
    exact beginsElse_append (by decide) _
  · simp only [recommendedIssue, String.append_assoc]
    exact beginsElse_append (by decide) _
  · simp only [wrongTypeIssue, String.append_assoc]
    exact beginsElse_append (by decide) _
  · exact beginsElse_validateList hRule hList
  · exact beginsElse_validateObjectRecommended hNested

/- A syntax error is reported exactly for the marker. -/
theorem isSyntaxError_validateSchema
    (repr : Json → String)
    (schemaType : Option String)
    (data : Fields) :
    (validateSchema repr schemaType data).issues.any
        isSyntaxError =
      (Json.field parseErrorKey data).isSome := by
  unfold validateSchema
  cases hMark : Json.field parseErrorKey data with
  | some reason =>
      simp [isSyntaxError_parseErrorIssue]
  | none =>
      have hNone :
          ∀ issues : List Issue,
            (∀ i ∈ issues, beginsElse i.message = true) →
              issues.any isSyntaxError = false := by
        intro issues hAll
        rw [List.any_eq_false]
        intro i hMem
        rw [isSyntaxError_of_beginsElse (hAll i hMem)]
        exact Bool.false_ne_true
      apply hNone
      simp only
      split
      · intro i hMem
        rw [List.mem_singleton.mp hMem]
        simp only [missingTypeIssue]
        exact beginsElse_append (by decide) _
      · split
        · intro i hMem
          rw [List.mem_singleton.mp hMem]
          simp only [noRuleIssue, String.append_assoc]
          exact beginsElse_append (by decide) _
        · rename_i hRule
          intro i hMem
          exact
            beginsElse_ruleIssues (getRule_of_mem hRule) hMem

theorem isSyntaxError_validateObject
    (platform : Platform)
    (data : Json) :
    (validateObject platform data).issues.any isSyntaxError =
      isMarked data :=
  isSyntaxError_validateSchema _ _ _

------------------------------------------------------------
-- Marked Objects of Blocks
------------------------------------------------------------

/-
  An object that the walk through arrays and array containers
  comes to and that becomes one of the results.
-/
inductive KeptNode : Json → Fields → Prop
  | self
      {fields : Fields}
      (hKept :
        isTyped (.obj fields) = true ∨
          ∀ entries, graphOf fields ≠ some (.arr entries)) :
      KeptNode (.obj fields) fields
  | entry
      {entries : List Json}
      {v : Json}
      {node : Fields}
      (hMem : v ∈ entries)
      (hNode : KeptNode v node) :
      KeptNode (.arr entries) node
  | graphEntry
      {fields node : Fields}
      {entries : List Json}
      {v : Json}
      (hGraph : graphOf fields = some (.arr entries))
      (hMem : v ∈ entries)
      (hNode : KeptNode v node) :
      KeptNode (.obj fields) node

variable {fields : Fields} {entries : List Json}

theorem keptNode_arr_iff
    {node : Fields} :
    KeptNode (.arr entries) node ↔
      ∃ v ∈ entries, KeptNode v node := by
  constructor
  · intro hNode
    cases hNode with
    | entry hMem hNode => exact ⟨_, hMem, hNode⟩
  · rintro ⟨v, hMem, hNode⟩
    exact .entry hMem hNode

theorem keptNode_of_arr_iff
    {node : Fields}
    (hGraph : graphOf fields = some (.arr entries)) :
    KeptNode (.obj fields) node ↔
      (∃ v ∈ entries, KeptNode v node) ∨
        isTyped (.obj fields) = true ∧ node = fields := by
  constructor
  · intro hNode
    cases hNode with
    | self hKept =>
        rcases hKept with hTyped | hOther
        · exact Or.inr ⟨hTyped, rfl⟩
        · exact absurd hGraph (hOther entries)
    | graphEntry hGraph' hMem hNode =>
        rw [hGraph] at hGraph'
        cases hGraph'
        exact Or.inl ⟨_, hMem, hNode⟩
  · rintro (⟨v, hMem, hNode⟩ | ⟨hTyped, rfl⟩)
    · exact .graphEntry hGraph hMem hNode
    · exact .self (Or.inl hTyped)

theorem keptNode_of_other_iff
    {node : Fields}
    (hOther :
      ∀ entries, graphOf fields ≠ some (.arr entries)) :
    KeptNode (.obj fields) node ↔ node = fields := by
  constructor
  · intro hNode
    cases hNode with
    | self hKept => rfl
    | graphEntry hGraph hMem hNode =>
        exact absurd hGraph (hOther _)
  · rintro rfl
    exact .self (Or.inr hOther)

/- The marker stays when the container is left out. -/
theorem isMarked_withoutGraph (fields : Fields) :
    isMarked (.obj (withoutGraph fields)) =
      isMarked (.obj fields) := by
  unfold isMarked members
  simp only
  rw [field_withoutGraph (by decide)]

theorem any_isMarked_ownNode (fields : Fields) :
    (ownNode fields).any isMarked =
      (isTyped (.obj fields) && isMarked (.obj fields)) := by
  unfold ownNode
  cases isTyped (.obj fields) with
  | true =>
      rw [if_pos rfl, List.any_cons, List.any_nil,
        Bool.or_false, isMarked_withoutGraph,
        Bool.true_and]
  | false => rfl

/- The result of a block has the markers of its objects. -/
theorem isMarked_flatObjects_iff (value : Json) :
    (flatObjects value).any isMarked = true ↔
      ∃ node, KeptNode value node ∧
        isMarked (.obj node) = true := by
  induction value using blockInduction with
  | hArr entries ih =>
      rw [flatObjects, flatObjectsAll_eq, List.any_flatMap,
        List.any_eq_true]
      simp only [keptNode_arr_iff]
      constructor
      · rintro ⟨v, hMem, hMarked⟩
        rcases (ih v hMem).mp hMarked with
          ⟨node, hNode, hMarked⟩
        exact ⟨node, ⟨v, hMem, hNode⟩, hMarked⟩
      · rintro ⟨node, ⟨v, hMem, hNode⟩, hMarked⟩
        exact
          ⟨v, hMem, (ih v hMem).mpr ⟨node, hNode, hMarked⟩⟩
  | hObj fields ih =>
      by_cases hArr :
          ∃ entries, graphOf fields = some (.arr entries)
      · rcases hArr with ⟨entries, hGraph⟩
        have hBelow := (ih _ hGraph).2 entries rfl
        rw [flatObjects_of_arr hGraph, List.any_append,
          Bool.or_eq_true, List.any_flatMap,
          List.any_eq_true, any_isMarked_ownNode,
          Bool.and_eq_true]
        simp only [keptNode_of_arr_iff hGraph]
        constructor
        · rintro (⟨v, hMem, hMarked⟩ | ⟨hTyped, hMarked⟩)
          · rcases (hBelow v hMem).mp hMarked with
              ⟨node, hNode, hMarked⟩
            exact ⟨node, Or.inl ⟨v, hMem, hNode⟩, hMarked⟩
          · exact ⟨fields, Or.inr ⟨hTyped, rfl⟩, hMarked⟩
        · rintro
            ⟨node, ⟨v, hMem, hNode⟩ | ⟨hTyped, rfl⟩,
              hMarked⟩
          · exact
              Or.inl
                ⟨v, hMem,
                  (hBelow v hMem).mpr ⟨node, hNode, hMarked⟩⟩
          · exact Or.inr ⟨hTyped, hMarked⟩
      · have hOther :
            ∀ entries, graphOf fields ≠ some (.arr entries) :=
          fun entries hGraph => hArr ⟨entries, hGraph⟩
        have hNone : flatObjectsIn fields = none := by
          rcases graphOf_cases fields with
            hNone | ⟨entries, hGraph⟩ | ⟨v, hGraph, hNoArr⟩
          · exact (in_of_graphOf_none hNone true).2.1
          · exact absurd hGraph (hOther entries)
          · exact (in_of_graphOf_other hGraph hNoArr true).2.1
        rw [flatObjects_of_none hNone]
        simp [keptNode_of_other_iff hOther]
  | hLeaf value hArr hObj =>
      constructor
      · intro hAny
        cases value with
        | arr entries => exact absurd rfl (hArr entries)
        | obj fields => exact absurd rfl (hObj fields)
        | _ => cases hAny
      · rintro ⟨node, hNode, _⟩
        cases hNode with
        | self _ => exact absurd rfl (hObj _)
        | entry _ _ => exact absurd rfl (hArr _)
        | graphEntry _ _ _ => exact absurd rfl (hObj _)

------------------------------------------------------------
-- Marked Items of the Document
------------------------------------------------------------

section Items

variable {V : Type} {voc : Vocabulary} {key name : String}
variable {value : V} {obj : Obj V}

/- The keys of an extracted object. -/
def Obj.keys (obj : Obj V) : List String :=
  List.map Prod.fst obj

theorem mem_keys_assign :
    key ∈ (assign name value obj).keys ↔
      key = name ∨ key ∈ obj.keys := by
  induction obj with
  | nil => simp [assign, Obj.keys]
  | cons m rest ih =>
      rcases m with ⟨k, entry⟩
      unfold assign
      split
      · rename_i hSame
        simp [Obj.keys, ← hSame]
      · unfold Obj.keys at ih ⊢
        simp only [List.map_cons, List.mem_cons, ih]
        tauto

theorem mem_keys_assignAll
    {names : List String} :
    key ∈ (assignAll names value obj).keys ↔
      key ∈ names ∨ key ∈ obj.keys := by
  unfold assignAll
  induction names generalizing obj with
  | nil => simp
  | cons name names ih =>
      rw [List.foldl_cons, ih, mem_keys_assign,
        List.mem_cons]
      tauto

variable {build : Builder V}

/- The keys of an item are the names of its properties. -/
theorem mem_keys_foldl
    {props : List Element} :
    key ∈
        (props.foldl
          (fun obj prop =>
            assignAll (voc.names prop.tag)
              (propValue voc build prop) obj)
          obj).keys ↔
      (∃ prop ∈ props, key ∈ voc.names prop.tag) ∨
        key ∈ obj.keys := by
  induction props generalizing obj with
  | nil => simp
  | cons prop props ih =>
      rw [List.foldl_cons, ih, mem_keys_assignAll,
        List.exists_mem_cons_iff, or_left_comm, or_assoc]

theorem parseErrorKey_typedObj
    (voc : Vocabulary)
    (tag : Tag) :
    parseErrorKey ∉
      (typedObj voc build tag).keys := by
  unfold typedObj
  split
  · intro hMem
    have hKey : parseErrorKey = "@type" :=
      List.mem_singleton.mp hMem
    exact absurd hKey (by decide)
  · exact List.not_mem_nil

end Items

theorem isSome_field_iff
    {key : String} :
    (Json.field key fields).isSome = true ↔
      key ∈ fields.map Prod.fst := by
  unfold Json.field
  induction fields with
  | nil => simp
  | cons member rest ih =>
      rw [List.lookup_cons]
      by_cases hKey : key = member.1
      · simp [hKey]
      · have hNe : (key == member.1) = false := by
          simpa using hKey
        rw [hNe, ih]
        simp [hKey]

/- An item is marked by a property of that name. -/
theorem isMarked_parseItem_iff
    (voc : Vocabulary)
    (scope : Element) :
    isMarked (parseItem voc jsonBuilder scope) = true ↔
      ∃ prop ∈ properties voc scope,
        parseErrorKey ∈ voc.names prop.tag := by
  rw [parseItem_eq, isMarked, jsonBuilder, members,
    isSome_field_iff, List.map_map]
  change parseErrorKey ∈ Obj.keys _ ↔ _
  rw [mem_keys_foldl]
  constructor
  · rintro (hProp | hType)
    · exact hProp
    · exact absurd hType (parseErrorKey_typedObj voc _)
  · exact Or.inl

------------------------------------------------------------
-- Unmarked Pages
------------------------------------------------------------

/- A block that is not empty and does not parse. -/
def isBroken
    (python : Interpreter)
    (script : Element) : Bool :=
  match loads python.loadsDepth (scriptText script) with
  | .error .valueError => scriptText script ≠ ""
  | _ => false

/- The JSON-LD blocks of the page that do not parse. -/
def brokenBlocks
    (platform : Platform)
    (html : String) : Nat :=
  ((platform.soup html).all.filter isJsonLdScript).countP
    (isBroken platform.python)

/- No object of a block that parses has the marker key. -/
def UnmarkedBlock
    (python : Interpreter)
    (script : Element) : Prop :=
  ∀ parsed, scriptText script ≠ "" →
    loads python.loadsDepth (scriptText script) =
        .ok parsed →
      ∀ node, KeptNode parsed node →
        isMarked (.obj node) = false

/- No item has a property of the name of the marker. -/
def UnmarkedItems
    (voc : Vocabulary)
    (doc : Forest) : Prop :=
  ∀ scope ∈ doc.all, voc.opens scope.tag = true →
    scope.nearest voc.opens = none →
      ∀ prop ∈ properties voc scope,
        parseErrorKey ∉ voc.names prop.tag

/- The page does not use the key of the marker. -/
structure Unmarked
    (platform : Platform)
    (html : String) : Prop where
  blocks :
    ∀ script ∈ (platform.soup html).all,
      isJsonLdScript script = true →
        UnmarkedBlock platform.python script
  microdata : UnmarkedItems microdata (platform.soup html)
  rdfa : UnmarkedItems rdfa (platform.soup html)

variable {python : Interpreter} {script : Element}
variable {out : List Json}

theorem countP_eq_zero_iff_any
    (objects : List Json) :
    objects.countP isMarked = 0 ↔
      ¬ objects.any isMarked = true := by
  rw [List.countP_eq_zero, List.any_eq_true]
  push Not
  rfl

/- An object that the block did not parse to is marked. -/
theorem isMarked_parseError
    (text : String) :
    isMarked (.obj [(parseErrorKey, .str text)]) = true := by
  unfold isMarked members
  simp only
  rw [isSome_field_iff]
  exact List.mem_singleton_self _

/-
  A block has a marker if it is broken, and no more exactly
  if it is unmarked.
-/
theorem countMarked_scriptItems
    (hItems : scriptItems python script = .ok out) :
    (isBroken python script).toNat ≤ out.countP isMarked ∧
      (out.countP isMarked =
          (isBroken python script).toNat ↔
        UnmarkedBlock python script) := by
  unfold scriptItems at hItems
  unfold isBroken UnmarkedBlock
  by_cases hEmpty : scriptText script = ""
  · rw [if_pos hEmpty] at hItems
    cases hItems
    have hFalse :
        ∀ answer : Except LoadsError Json,
          (match answer with
            | .error .valueError => decide (scriptText script ≠ "")
            | _ => false) = false := by
      intro answer
      split
      · exact decide_eq_false (fun hNe => hNe hEmpty)
      · rfl
    rw [hFalse]
    exact
      ⟨Nat.zero_le _, fun _ _ hNe => absurd hEmpty hNe,
        fun _ => rfl⟩
  · rw [if_neg hEmpty] at hItems
    cases hLoads :
        loads python.loadsDepth (scriptText script) with
    | ok parsed =>
        simp only [hLoads] at hItems ⊢
        rw [flattenJsonLd_eq] at hItems
        split at hItems
        · cases hItems
          refine ⟨Nat.zero_le _, ?_⟩
          rw [Bool.toNat_false, countP_eq_zero_iff_any,
            isMarked_flatObjects_iff]
          constructor
          · intro hNone parsed' _ hSame node hNode
            cases hSame
            rw [← Bool.not_eq_true]
            exact fun hMarked => hNone ⟨node, hNode, hMarked⟩
          · rintro hAll ⟨node, hNode, hMarked⟩
            rw [hAll parsed hEmpty rfl node hNode] at hMarked
            cases hMarked
        · cases hItems
    | error e =>
        cases e with
        | valueError =>
            simp only [hLoads] at hItems ⊢
            cases hItems
            simp [hEmpty, isMarked_parseError]
        | recursionError =>
            simp only [hLoads] at hItems
            cases hItems

/- The markers of all the blocks. -/
theorem countMarked_scripts
    {scripts : List Element}
    {outs : List (List Json)}
    (hItems : scripts.mapM (scriptItems python) = .ok outs) :
    scripts.countP (isBroken python) ≤
        outs.flatten.countP isMarked ∧
      (outs.flatten.countP isMarked =
          scripts.countP (isBroken python) ↔
        ∀ script ∈ scripts, UnmarkedBlock python script) := by
  induction scripts generalizing outs with
  | nil =>
      cases hItems
      simp
  | cons script scripts ih =>
      rw [List.mapM_cons, bind_eq_ok_iff] at hItems
      rcases hItems with ⟨out, hOut, hRest⟩
      rw [bind_eq_ok_iff] at hRest
      rcases hRest with ⟨rest, hRest, hAll⟩
      cases hAll
      have hHead := countMarked_scriptItems hOut
      have hTail := ih hRest
      have hCount :
          (script :: scripts).countP (isBroken python) =
            scripts.countP (isBroken python) +
              (isBroken python script).toNat := by
        rw [List.countP_cons]
        cases isBroken python script <;> rfl
      rw [hCount, List.flatten_cons, List.countP_append,
        List.forall_mem_cons, ← hHead.2, ← hTail.2]
      have hHeadLe := hHead.1
      have hTailLe := hTail.1
      omega

/- No item of the vocabulary is marked. -/
theorem countMarked_extract_iff
    (voc : Vocabulary)
    (doc : Forest) :
    (extract voc jsonBuilder doc).countP isMarked = 0 ↔
      UnmarkedItems voc doc := by
  unfold extract UnmarkedItems
  rw [List.countP_eq_zero]
  simp only [List.mem_map, List.mem_filter,
    decide_eq_true_eq, forall_exists_index, and_imp]
  constructor
  · intro hNone scope hMem hOpens hTop prop hProp hName
    apply hNone _ scope hMem hOpens hTop rfl
    exact
      (isMarked_parseItem_iff voc scope).mpr
        ⟨prop, hProp, hName⟩
  · rintro hAll _ scope hMem hOpens hTop rfl hMarked
    rcases (isMarked_parseItem_iff voc scope).mp hMarked with
      ⟨prop, hProp, hName⟩
    exact hAll scope hMem hOpens hTop prop hProp hName

/-
  The marked objects of a page are its broken blocks exactly
  if the page does not use the key.
-/
theorem countMarked_extractAll_iff
    {platform : Platform}
    {html : String}
    {objects : List (SchemaFormat × Json)}
    (hObjects : extractAll platform html = .ok objects) :
    objects.countP (fun o => isMarked o.2) =
        brokenBlocks platform html ↔
      Unmarked platform html := by
  unfold extractAll extractJsonLd at hObjects
  rw [bind_eq_ok_iff] at hObjects
  rcases hObjects with ⟨jsonLd, hJsonLd, hAll⟩
  cases hAll
  cases hOuts :
      ((platform.soup html).all.filter isJsonLdScript).mapM
        (scriptItems platform.python) with
  | error e =>
      rw [hOuts] at hJsonLd
      cases hJsonLd
  | ok outs =>
      rw [hOuts] at hJsonLd
      cases hJsonLd
      have hBlocks := countMarked_scripts hOuts
      have hMicrodata :=
        countMarked_extract_iff microdata
          (platform.soup html)
      have hRdfa :=
        countMarked_extract_iff rdfa (platform.soup html)
      have hCount :
          ∀ (format : SchemaFormat) (objects : List Json),
            (block format objects).countP
                (fun o => isMarked o.2) =
              objects.countP isMarked := by
        intro format objects
        unfold block
        rw [List.countP_map]
        rfl
      rw [List.countP_append, List.countP_append, hCount,
        hCount, hCount]
      unfold extractMicrodata extractRdfa brokenBlocks
      have hSum :
          outs.flatten.countP isMarked +
                (extract microdata jsonBuilder
                  (platform.soup html)).countP isMarked +
              (extract rdfa jsonBuilder
                (platform.soup html)).countP isMarked =
              ((platform.soup html).all.filter
                isJsonLdScript).countP
                  (isBroken platform.python) ↔
            outs.flatten.countP isMarked =
                ((platform.soup html).all.filter
                  isJsonLdScript).countP
                    (isBroken platform.python) ∧
              (extract microdata jsonBuilder
                (platform.soup html)).countP isMarked = 0 ∧
              (extract rdfa jsonBuilder
                (platform.soup html)).countP isMarked = 0 := by
        have hLe := hBlocks.1
        omega
      rw [hSum, hBlocks.2, hMicrodata, hRdfa]
      constructor
      · rintro ⟨hScripts, hMicro, hRdfa⟩
        refine ⟨?_, hMicro, hRdfa⟩
        intro script hMem hScript
        exact
          hScripts script (List.mem_filter.mpr ⟨hMem, hScript⟩)
      · intro hUnmarked
        refine ⟨?_, hUnmarked.microdata, hUnmarked.rdfa⟩
        intro script hMem
        have hBoth := List.mem_filter.mp hMem
        exact hUnmarked.blocks script hBoth.1 hBoth.2

------------------------------------------------------------
-- Recorded Syntax Errors
------------------------------------------------------------

/- An issue of the item is a syntax error. -/
def hasSyntaxError
    (d : Db)
    (job : JobId)
    (item : SchemaItem) : Bool :=
  (d.liveIssues job).any
    (fun s =>
      decide (s.schemaItem = item.id) &&
        isSyntaxError s.toIssue)

/- The items of the job with a recorded syntax error. -/
def syntaxReports
    (d : Db)
    (job : JobId) : Nat :=
  (d.liveItems job).countP (hasSyntaxError d job)

variable {platform : Platform} {run : Delivery}
variable {job : JobId} {d : Db} {w : RunWorld}
variable {objects : List (SchemaFormat × Json)}

/- The item of a marked object has the error. -/
theorem hasSyntaxError_of_reflects
    {item : SchemaItem}
    (hSound : d.Sound)
    (hReflects : Reflects platform job objects d)
    (hMem : item ∈ d.liveItems job) :
    hasSyntaxError d job item = isMarked item.rawData := by
  have hPairs :
      hasSyntaxError d job item =
        ((d.liveIssues job).map
            (fun s => (s.schemaItem, s.toIssue))).any
          (fun p =>
            decide (p.1 = item.id) &&
              isSyntaxError p.2) := by
    rw [List.any_map]
    rfl
  rw [Bool.eq_iff_iff, hPairs, hReflects.issues,
    List.any_flatMap, List.any_eq_true,
    ← isSyntaxError_validateObject platform]
  constructor
  · rintro ⟨other, hOther, hAny⟩
    unfold issuesOf at hAny
    rw [List.any_map, List.any_eq_true] at hAny
    rcases hAny with ⟨issue, hIssue, hBoth⟩
    rw [Function.comp_apply, Bool.and_eq_true,
      decide_eq_true_eq] at hBoth
    have hSame : other = item :=
      List.inj_on_of_nodup_map hSound.items
        (List.mem_of_mem_filter hOther)
        (List.mem_of_mem_filter hMem) hBoth.1
    rw [← hSame]
    exact List.any_eq_true.mpr ⟨issue, hIssue, hBoth.2⟩
  · intro hAny
    rcases List.any_eq_true.mp hAny with
      ⟨issue, hIssue, hSyntax⟩
    refine ⟨item, hMem, ?_⟩
    unfold issuesOf
    rw [List.any_map, List.any_eq_true]
    exact ⟨issue, hIssue, by simp [hSyntax]⟩

theorem syntaxReports_of_reflects
    (hSound : d.Sound)
    (hReflects : Reflects platform job objects d) :
    syntaxReports d job =
      objects.countP (fun o => isMarked o.2) := by
  rw [← hReflects.items, List.countP_map, syntaxReports]
  apply List.countP_congr
  intro item hMem
  rw [hasSyntaxError_of_reflects hSound hReflects hMem]
  rfl

/- What a completed run has recorded. -/
theorem syntaxReports_of_stored
    (hSound : d.Sound)
    (hStored : Stored platform run job d) :
    ∃ row html, d.find job = some row ∧
      run.client row.url = .text html ∧
        (syntaxReports d job = brokenBlocks platform html ↔
          Unmarked platform html) := by
  rcases hStored with
    ⟨row, html, objects, hFind, hPage, hObjects, hReflects⟩
  refine ⟨row, html, hFind, hPage, ?_⟩
  rw [syntaxReports_of_reflects hSound hReflects]
  exact countMarked_extractAll_iff hObjects

/- An undisturbed run is one of the runs. -/
theorem runs_of_completes
    {html : String}
    (hCompletes : Completes platform run job html d) :
    ∃ w, Runs platform run job d w ∧ Completed w := by
  rcases hCompletes with ⟨objects, s, hRun, _⟩
  exact
    ⟨_,
      Machine.reaches_of_run (undisturbed noAnswers) rfl hRun,
      World.put_threads_self _ _ 0 _⟩

/- Every page has one JSON-LD block with the text. -/
def scriptPlatform (text : String) : Platform where
  python := cpython
  soup := fun _ =>
    .element
      { name := "script"
        attrs := [("type", "application/ld+json")] }
      (.text (.contained "script") text .nil) .nil
  repr := fun _ => ""
  dumpDepth := 900

/- A block that parses and uses the key. -/
def markedPlatform : Platform :=
  scriptPlatform "\x7b\"@parseError\": \"quota\"\x7d"

theorem extractAll_marked :
    extractAll markedPlatform "" =
      .ok
        [(.jsonLd,
          .obj [("@parseError", .str "quota")])] := by
  rfl

theorem pageFits_marked : PageFits markedPlatform "" := by
  refine ⟨_, extractAll_marked, ?_, ?_⟩
  · intro o ho
    rw [List.mem_singleton.mp ho]
    constructor
    · intro name hName
      cases hName
    · decide
    · decide
    · intro issue hIssue
      have hParse : issue = parseErrorIssue "quota" :=
        List.mem_singleton.mp hIssue
      subst hParse
      refine ⟨by decide, by decide, ?_⟩
      intro text hText
      cases hText
      decide
  · exact ⟨by decide, by decide, by decide⟩

end SiteAnalysis.Validator
