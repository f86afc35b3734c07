import SiteAnalysis.Python.Alike
import SiteAnalysis.Validator.Flatten
import SiteAnalysis.Validator.Rerun

/-
  This file proves that the order in which a page lists the
  members of its JSON-LD objects makes no difference to what
  a validation stores.

  Only the message for a block that did not parse prints a
  value, and with it an order.

  Key definitions include:
    * `PlainMarker`
    * `SamePage`
    * `SameResults`

  Key theorems include:
    * `ruleIssues_of_alike`
    * `validateObject_of_alike`
    * `flatAlike_of_alike`
    * `stored_results_ignore_member_order`
-/

------------------------------------------------------------
-- Objects
------------------------------------------------------------

namespace SiteAnalysis.Validator

open Concurrency
open Relational
open Python Markup

variable {v w : Json} {data data' : Fields}

theorem firstTrue_of_alike
    (hAlike : Json.Alike v w) :
    Json.Alike (firstTrue v) (firstTrue w) := by
  cases hAlike with
  | arr hLength hItems =>
      apply
        Json.find_of_alike
          (fun _ _ hItem => Json.truthy_of_alike hItem)
      exact Json.forall₂_of_alike (.arr hLength hItems)
  | obj hKeys hValues => exact .obj hKeys hValues
  | null => exact .null
  | bool b => exact .bool b
  | int n => exact .int n
  | float x => exact .float x
  | str s => exact .str s

theorem resolveType_of_alike
    (hAlike : Json.AlikeFields data data') :
    resolveType data = resolveType data' := by
  have hType :=
    firstTrue_of_alike (Json.getD_of_alike "@type" hAlike)
  have hError :
      (Json.field parseErrorKey data).isSome =
        (Json.field parseErrorKey data').isSome := by
    cases hAlike with
    | obj hKeys hValues => exact hKeys parseErrorKey
  unfold resolveType
  rw [hError]
  generalize firstTrue
    ((Json.field "@type" data).getD .null) = x at *
  generalize firstTrue
    ((Json.field "@type" data').getD .null) = y at *
  cases hType <;> rfl

theorem isEmptyValue_of_alike
    (hAlike : Json.Alike v w) :
    isEmptyValue v = isEmptyValue w := by
  cases hAlike with
  | arr hLength hItems =>
      have hTruthy :=
        Json.truthy_of_alike (.arr hLength hItems)
      simpa [Json.truthy, isEmptyValue] using hTruthy
  | obj hKeys hValues =>
      exact Json.isEmpty_of_alikeFields (.obj hKeys hValues)
  | _ => rfl

theorem isMissing_of_alike
    (hAlike : Json.AlikeFields data data')
    (prop : String) :
    isMissing data prop = isMissing data' prop := by
  unfold isMissing
  rcases Json.field_of_alike prop hAlike with
    ⟨hFirst, hSecond⟩ | ⟨v, w, hFirst, hSecond, hValue⟩
  · rw [hFirst, hSecond]
  · rw [hFirst, hSecond]
    exact isEmptyValue_of_alike hValue

theorem looksLikeUrl_of_alike
    (hAlike : Json.Alike v w) :
    looksLikeUrl v = looksLikeUrl w := by
  cases hAlike <;> rfl

theorem oneOrAll_of_alike
    {p : Json → Bool}
    (hTest : ∀ v w, Json.Alike v w → p v = p w)
    (hAlike : Json.Alike v w) :
    oneOrAll p v = oneOrAll p w := by
  cases hAlike with
  | arr hLength hItems =>
      apply Json.all_of_alike hTest
      exact Json.forall₂_of_alike (.arr hLength hItems)
  | obj hKeys hValues => exact hTest _ _ (.obj hKeys hValues)
  | _ => rfl

theorem typeOk_of_alike
    (expected : Expected)
    (hAlike : Json.Alike v w) :
    typeOk v expected = typeOk w expected := by
  cases expected with
  | text =>
      apply oneOrAll_of_alike _ hAlike
      intro v w hItem
      cases hItem <;> rfl
  | image =>
      apply oneOrAll_of_alike _ hAlike
      intro v w hItem
      rw [looksLikeUrl_of_alike hItem,
        Json.isObject_of_alike hItem]
  | object =>
      apply oneOrAll_of_alike _ hAlike
      exact fun _ _ hItem => Json.isObject_of_alike hItem
  | _ => cases hAlike <;> rfl

theorem hasWrongType_of_alike
    (hAlike : Json.AlikeFields data data')
    (p : String × Expected) :
    hasWrongType data p = hasWrongType data' p := by
  unfold hasWrongType
  rcases Json.field_of_alike p.1 hAlike with
    ⟨hFirst, hSecond⟩ | ⟨v, w, hFirst, hSecond, hValue⟩
  · rw [hFirst, hSecond]
  · rw [hFirst, hSecond]
    simp only [isEmptyValue_of_alike hValue,
      typeOk_of_alike p.2 hValue]

------------------------------------------------------------
-- Lists and Nested Objects
------------------------------------------------------------

theorem validateEntry_of_alike
    (rule : SchemaRule)
    (listProperty loc : String)
    (hAlike : Json.Alike v w) :
    validateEntry rule listProperty loc v =
      validateEntry rule listProperty loc w := by
  cases hAlike with
  | @obj xs ys hKeys hValues =>
      have hEntry : Json.AlikeFields xs ys :=
        .obj hKeys hValues
      have hRequired :
          missingInEntry listProperty loc xs =
            missingInEntry listProperty loc ys := by
        funext prop
        rw [missingInEntry, missingInEntry,
          isMissing_of_alike hEntry]
      simp only [validateEntry, wrongEntryType,
        resolveType_of_alike hEntry, hRequired]
      congr 1
      apply List.flatMap_congr
      intro nested _
      rcases Json.field_of_alike nested.1 hEntry with
        ⟨hFirst, hSecond⟩ |
          ⟨v, w, hFirst, hSecond, hValue⟩
      · rw [hFirst, hSecond]
      · rw [hFirst, hSecond]
        cases hValue with
        | @obj child child' hKeys hValues =>
            have hChild :
                missingInChild loc nested.1 child =
                  missingInChild loc nested.1 child' := by
              funext sub
              rw [missingInChild, missingInChild,
                isMissing_of_alike (.obj hKeys hValues)]
            simp only [hChild]
        | _ => rfl
  | _ => rfl

theorem flatMap_of_alike
    {α : Type}
    {f : Json → List α}
    {vs ws : List Json}
    (hSame : ∀ v w, Json.Alike v w → f v = f w)
    (hAll : List.Forall₂ Json.Alike vs ws) :
    vs.flatMap f = ws.flatMap f := by
  induction hAll with
  | nil => rfl
  | @cons v w vs ws hHead _ ih =>
      rw [List.flatMap_cons, List.flatMap_cons,
        hSame v w hHead, ih]

/- The same for what also depends on the position. -/
theorem flatMap_zipIdx_of_alike
    {α : Type}
    {f : Nat → Json → List α}
    {vs ws : List Json}
    (hSame : ∀ i v w, Json.Alike v w → f i v = f i w)
    (hAll : List.Forall₂ Json.Alike vs ws)
    (start : Nat) :
    (vs.zipIdx start).flatMap (fun e => f e.2 e.1) =
      (ws.zipIdx start).flatMap (fun e => f e.2 e.1) := by
  induction hAll generalizing start with
  | nil => rfl
  | @cons v w vs ws hHead _ ih =>
      rw [List.zipIdx_cons, List.zipIdx_cons,
        List.flatMap_cons, List.flatMap_cons, ih,
        hSame start v w hHead]

theorem validateList_of_alike
    (rule : SchemaRule)
    (hAlike : Json.AlikeFields data data') :
    validateList rule data = validateList rule data' := by
  unfold validateList
  split
  · rfl
  · rename_i prop _
    rcases Json.field_of_alike prop hAlike with
      ⟨hFirst, hSecond⟩ |
        ⟨v, w, hFirst, hSecond, hValue⟩
    · rw [hFirst, hSecond]
    · rw [hFirst, hSecond]
      cases hValue with
      | @arr xs ys hLength hItems =>
          have hAll :=
            Json.forall₂_of_alike (.arr hLength hItems)
          exact
            flatMap_zipIdx_of_alike
              (f := fun i v =>
                validateEntry rule prop (location prop i) v)
              (fun i _ _ hItem =>
                validateEntry_of_alike rule prop _ hItem)
              hAll 0
      | _ => rfl

theorem recommendInside_of_alike
    (parent : String)
    (subfields : List String)
    (hAlike : Json.Alike v w) :
    recommendInside parent subfields v =
      recommendInside parent subfields w := by
  cases hAlike with
  | @obj xs ys hKeys hValues =>
      have hMissing : isMissing xs = isMissing ys := by
        funext prop
        exact isMissing_of_alike (.obj hKeys hValues) prop
      simp only [recommendInside, hMissing]
  | _ => rfl

theorem validateObjectRecommended_of_alike
    (rule : SchemaRule)
    (hAlike : Json.AlikeFields data data') :
    validateObjectRecommended rule data =
      validateObjectRecommended rule data' := by
  unfold validateObjectRecommended
  congr 1
  funext nested
  have hValue := Json.getD_of_alike nested.1 hAlike
  generalize (Json.field nested.1 data).getD .null = x at *
  generalize (Json.field nested.1 data').getD .null = y at *
  cases hValue with
  | arr hLength hItems =>
      apply flatMap_of_alike
      · intro v w hItem
        exact recommendInside_of_alike _ _ hItem
      · exact Json.forall₂_of_alike (.arr hLength hItems)
  | obj hKeys hValues =>
      exact recommendInside_of_alike _ _ (.obj hKeys hValues)
  | _ => rfl

------------------------------------------------------------
-- Results
------------------------------------------------------------

theorem ruleIssues_of_alike
    (rule : SchemaRule)
    (schemaType : String)
    (hAlike : Json.AlikeFields data data') :
    ruleIssues rule schemaType data =
      ruleIssues rule schemaType data' := by
  have hMissing : isMissing data = isMissing data' := by
    funext prop
    exact isMissing_of_alike hAlike prop
  have hWrong : hasWrongType data = hasWrongType data' := by
    funext p
    exact hasWrongType_of_alike hAlike p
  rw [ruleIssues, ruleIssues, hMissing, hWrong,
    validateList_of_alike rule hAlike,
    validateObjectRecommended_of_alike rule hAlike]

/-
  The marker of a syntax error, if the object has one, does
  not print members.
-/
def PlainMarker (v : Json) : Prop :=
  ∀ reason,
    Json.field parseErrorKey (members v) = some reason →
      reason.isScalar = true

theorem members_of_alike
    (hAlike : Json.Alike v w) :
    Json.AlikeFields (members v) (members w) := by
  cases hAlike with
  | obj hKeys hValues => exact .obj hKeys hValues
  | _ => exact Json.alike_refl _

theorem validateSchema_of_alike
    (repr : Json → String)
    (schemaType : Option String)
    (hAlike : Json.AlikeFields data data')
    (hMarker : PlainMarker (.obj data)) :
    validateSchema repr schemaType data =
      validateSchema repr schemaType data' := by
  have hIssues :
      ∀ rule schemaType,
        ruleIssues rule schemaType data =
          ruleIssues rule schemaType data' :=
    fun rule schemaType =>
      ruleIssues_of_alike rule schemaType hAlike
  have hRich :
      ∀ rule,
        isRichResultEligible rule data =
          isRichResultEligible rule data' := by
    intro rule
    simp only [isRichResultEligible,
      isMissing_of_alike hAlike]
  rcases Json.field_of_alike parseErrorKey hAlike with
    ⟨hFirst, hSecond⟩ | ⟨v, w, hFirst, hSecond, hValue⟩
  · simp only [validateSchema, hFirst, hSecond, hIssues,
      hRich]
  · have hSame : v = w :=
      Json.eq_of_alike hValue (hMarker v hFirst)
    simp only [validateSchema, hFirst, hSecond, hSame]

theorem validateObject_of_alike
    (platform : Platform)
    (hAlike : Json.Alike v w)
    (hMarker : PlainMarker v) :
    validateObject platform v = validateObject platform w := by
  have hMembers := members_of_alike hAlike
  rw [validateObject, validateObject,
    resolveType_of_alike hMembers]
  exact validateSchema_of_alike _ _ hMembers hMarker

------------------------------------------------------------
-- Blocks
------------------------------------------------------------

theorem isTyped_of_alike
    (hAlike : Json.AlikeFields data data') :
    isTyped (.obj data) = isTyped (.obj data') :=
  Json.truthy_of_alike (Json.getD_of_alike "@type" hAlike)

theorem ownNode_of_alike
    (hAlike : Json.AlikeFields data data') :
    List.Forall₂ Json.Alike (ownNode data)
      (ownNode data') := by
  rw [ownNode, ownNode, isTyped_of_alike hAlike]
  split
  · exact .cons (Json.alike_filter "@graph" hAlike) .nil
  · exact .nil

/- The same depth, and the same objects in the same order. -/
structure FlatAlike (v w : Json) : Prop where
  calls : callsNeeded v = callsNeeded w
  objects :
    List.Forall₂ Json.Alike (flatObjects v) (flatObjects w)

theorem flatAlike_all
    {vs ws : List Json}
    (hAll : List.Forall₂ FlatAlike vs ws) :
    callsNeededAll vs = callsNeededAll ws ∧
      List.Forall₂ Json.Alike (flatObjectsAll vs)
        (flatObjectsAll ws) := by
  induction hAll with
  | nil => exact ⟨rfl, .nil⟩
  | @cons v w vs ws hHead _ ih =>
      rw [callsNeededAll, callsNeededAll, flatObjectsAll,
        flatObjectsAll, hHead.calls, ih.1]
      exact ⟨rfl, List.rel_append hHead.objects ih.2⟩

/- Of an array only its entries count. -/
theorem flatAlike_arr_iff
    {vs ws : List Json} :
    FlatAlike (.arr vs) (.arr ws) ↔
      callsNeededAll vs = callsNeededAll ws ∧
        List.Forall₂ Json.Alike (flatObjectsAll vs)
          (flatObjectsAll ws) := by
  constructor
  · intro hFlat
    exact ⟨Nat.succ.inj hFlat.calls, hFlat.objects⟩
  · intro hAll
    exact ⟨congrArg Nat.succ hAll.1, hAll.2⟩

/- An object with a container of entries, or with none. -/
theorem flatAlike_obj
    (hAlike : Json.AlikeFields data data')
    (hGraph :
      ∀ v w, graphOf data = some v →
        graphOf data' = some w → FlatAlike v w) :
    FlatAlike (.obj data) (.obj data') := by
  have hNone :
      ∀ fields : Fields,
        (∀ entries,
          graphOf fields ≠ some (.arr entries)) →
          callsNeededIn fields = 0 ∧
            flatObjectsIn fields = none := by
    intro fields hOther
    rcases graphOf_cases fields with
      hNone | ⟨entries, hEntries⟩ | ⟨v, hValue, hNot⟩
    · have hIn := in_of_graphOf_none hNone true
      exact ⟨hIn.1, hIn.2.1⟩
    · exact absurd hEntries (hOther entries)
    · have hIn := in_of_graphOf_other hValue hNot true
      exact ⟨hIn.1, hIn.2.1⟩
  have hPlain :
      (∀ entries, graphOf data ≠ some (.arr entries)) →
        (∀ entries, graphOf data' ≠ some (.arr entries)) →
          FlatAlike (.obj data) (.obj data') := by
    intro hFirst hSecond
    have hIn := hNone data hFirst
    have hIn' := hNone data' hSecond
    refine ⟨?_, ?_⟩
    · rw [callsNeeded, callsNeeded, hIn.1, hIn'.1]
    · rw [flatObjects_of_none hIn.2,
        flatObjects_of_none hIn'.2]
      exact .cons hAlike .nil
  rcases Json.field_of_alike "@graph" hAlike with
    ⟨hFirst, hSecond⟩ | ⟨v, w, hFirst, hSecond, hValue⟩
  · apply hPlain
    · intro entries hSome
      rw [graphOf, hFirst] at hSome
      cases hSome
    · intro entries hSome
      rw [graphOf, hSecond] at hSome
      cases hSome
  · have hFlat := hGraph v w hFirst hSecond
    cases hValue with
    | @arr vs ws hLength hItems =>
        have hAll := flatAlike_arr_iff.mp hFlat
        have hIn := in_of_graphOf_arr hFirst true
        have hIn' := in_of_graphOf_arr hSecond true
        refine ⟨?_, ?_⟩
        · rw [callsNeeded, callsNeeded, hIn.1, hIn'.1,
            hAll.1]
        · rw [flatObjects_of_arr hFirst,
            flatObjects_of_arr hSecond,
            ← flatObjectsAll_eq, ← flatObjectsAll_eq]
          exact
            List.rel_append hAll.2
              (ownNode_of_alike hAlike)
    | _ =>
        apply hPlain
        · intro entries hSome
          rw [graphOf, hFirst] at hSome
          cases hSome
        · intro entries hSome
          rw [graphOf, hSecond] at hSome
          cases hSome

/- Values that are alike are flattened alike. -/
theorem flatAlike_of_alike
    (hAlike : Json.Alike v w) : FlatAlike v w := by
  induction hAlike with
  | @arr vs ws hLength hItems ih =>
      apply flatAlike_arr_iff.mpr
      apply flatAlike_all
      rw [List.forall₂_iff_get]
      refine ⟨hLength, ?_⟩
      intro i hFirst hSecond
      exact
        ih i _ _ (List.getElem?_eq_getElem hFirst)
          (List.getElem?_eq_getElem hSecond)
  | obj hKeys hValues ih =>
      apply flatAlike_obj (.obj hKeys hValues)
      intro v w hFirst hSecond
      exact ih "@graph" v w hFirst hSecond
  | _ => exact ⟨rfl, .nil⟩

------------------------------------------------------------
-- Pages
------------------------------------------------------------

/-
  The blocks have one text, or they parse to values that are
  alike.
-/
inductive SameBlock
    (python : Interpreter)
    (script script' : Element) : Prop
  | text (hText : scriptText script = scriptText script')
  | parsed
      {v w : Json}
      (hFirst : scriptText script ≠ "")
      (hSecond : scriptText script' ≠ "")
      (hLoads :
        loads python.loadsDepth (scriptText script) = .ok v)
      (hLoads' :
        loads python.loadsDepth (scriptText script') = .ok w)
      (hAlike : Json.Alike v w)
      (hMarker : ∀ o ∈ flatObjects v, PlainMarker o)

/-
  The pages differ at most in the order of the members of
  their JSON-LD objects.
-/
structure SamePage
    (platform : Platform)
    (html html' : String) : Prop where
  blocks :
    List.Forall₂ (SameBlock platform.python)
      ((platform.soup html).all.filter isJsonLdScript)
      ((platform.soup html').all.filter isJsonLdScript)
  microdata :
    extractMicrodata (platform.soup html) =
      extractMicrodata (platform.soup html')
  rdfa :
    extractRdfa (platform.soup html) =
      extractRdfa (platform.soup html')

/- The objects are alike, and are validated alike. -/
structure SameObject
    (platform : Platform)
    (v w : Json) : Prop where
  alike : Json.Alike v w
  result :
    validateObject platform v = validateObject platform w

variable {platform : Platform}

theorem SameObject.rfl : SameObject platform v v :=
  ⟨Json.alike_refl v, Eq.refl _⟩

theorem sameObjects_rfl
    (objects : List Json) :
    List.Forall₂ (SameObject platform) objects objects :=
  List.forall₂_same.mpr (fun _ _ => SameObject.rfl)

theorem sameObjects_of_alike
    {vs ws : List Json}
    (hAll : List.Forall₂ Json.Alike vs ws)
    (hMarker : ∀ v ∈ vs, PlainMarker v) :
    List.Forall₂ (SameObject platform) vs ws := by
  induction hAll with
  | nil => exact .nil
  | @cons v w vs ws hHead _ ih =>
      rw [List.forall_mem_cons] at hMarker
      refine .cons ⟨hHead, ?_⟩ (ih hMarker.2)
      exact validateObject_of_alike platform hHead hMarker.1

/- What the blocks are flattened to. -/
theorem scriptItems_of_same
    {script script' : Element}
    {out out' : List Json}
    (hSame : SameBlock platform.python script script')
    (hOut : scriptItems platform.python script = .ok out)
    (hOut' : scriptItems platform.python script' = .ok out') :
    List.Forall₂ (SameObject platform) out out' := by
  cases hSame with
  | text hText =>
      have hItems :
          scriptItems platform.python script =
            scriptItems platform.python script' := by
        unfold scriptItems
        rw [hText]
      rw [hItems, hOut'] at hOut
      cases hOut
      exact sameObjects_rfl out
  | @parsed v w hFirst hSecond hLoads hLoads' hAlike hMarker =>
      simp only [scriptItems, if_neg hFirst, hLoads] at hOut
      simp only [scriptItems, if_neg hSecond, hLoads'] at hOut'
      rw [flattenJsonLd_eq] at hOut hOut'
      split at hOut
      · split at hOut'
        · cases hOut
          cases hOut'
          exact
            sameObjects_of_alike
              (flatAlike_of_alike hAlike).objects hMarker
        · cases hOut'
      · cases hOut

theorem scripts_of_same
    {scripts scripts' : List Element}
    {outs outs' : List (List Json)}
    (hSame :
      List.Forall₂ (SameBlock platform.python) scripts
        scripts')
    (hOuts :
      scripts.mapM (scriptItems platform.python) = .ok outs)
    (hOuts' :
      scripts'.mapM (scriptItems platform.python) =
        .ok outs') :
    List.Forall₂ (SameObject platform) outs.flatten
      outs'.flatten := by
  induction hSame generalizing outs outs' with
  | nil =>
      cases hOuts
      cases hOuts'
      exact .nil
  | cons hHead _ ih =>
      rw [List.mapM_cons, bind_eq_ok_iff] at hOuts hOuts'
      rcases hOuts with ⟨out, hOut, hRest⟩
      rcases hOuts' with ⟨out', hOut', hRest'⟩
      rw [bind_eq_ok_iff] at hRest hRest'
      rcases hRest with ⟨rest, hRest, hAll⟩
      rcases hRest' with ⟨rest', hRest', hAll'⟩
      cases hAll
      cases hAll'
      rw [List.flatten_cons, List.flatten_cons]
      exact
        List.rel_append
          (scriptItems_of_same hHead hOut hOut')
          (ih hRest hRest')

/- The objects that the pages have, block by block. -/
theorem extractAll_of_same
    {html html' : String}
    {objects objects' : List (SchemaFormat × Json)}
    (hSame : SamePage platform html html')
    (hObjects : extractAll platform html = .ok objects)
    (hObjects' : extractAll platform html' = .ok objects') :
    List.Forall₂
      (fun o o' =>
        o.1 = o'.1 ∧ SameObject platform o.2 o'.2)
      objects objects' := by
  have hBlock :
      ∀ (format : SchemaFormat) (vs ws : List Json),
        List.Forall₂ (SameObject platform) vs ws →
          List.Forall₂
            (fun o o' : SchemaFormat × Json =>
              o.1 = o'.1 ∧ SameObject platform o.2 o'.2)
            (block format vs) (block format ws) := by
    intro format vs ws hAll
    rw [block, block, List.forall₂_map_left_iff,
      List.forall₂_map_right_iff]
    exact hAll.imp (fun _ _ hObject => ⟨rfl, hObject⟩)
  unfold extractAll extractJsonLd at hObjects hObjects'
  rw [bind_eq_ok_iff] at hObjects hObjects'
  rcases hObjects with ⟨jsonLd, hJsonLd, hAll⟩
  rcases hObjects' with ⟨jsonLd', hJsonLd', hAll'⟩
  cases hAll
  cases hAll'
  cases hOuts :
      ((platform.soup html).all.filter isJsonLdScript).mapM
        (scriptItems platform.python) with
  | error e =>
      rw [hOuts] at hJsonLd
      cases hJsonLd
  | ok outs =>
      cases hOuts' :
          ((platform.soup html').all.filter
            isJsonLdScript).mapM
              (scriptItems platform.python) with
      | error e =>
          rw [hOuts'] at hJsonLd'
          cases hJsonLd'
      | ok outs' =>
          rw [hOuts] at hJsonLd
          rw [hOuts'] at hJsonLd'
          cases hJsonLd
          cases hJsonLd'
          rw [hSame.microdata, hSame.rdfa]
          refine
            List.rel_append (List.rel_append ?_ ?_) ?_
          · exact
              hBlock .jsonLd _ _
                (scripts_of_same hSame.blocks hOuts hOuts')
          · exact hBlock .microdata _ _ (sameObjects_rfl _)
          · exact hBlock .rdfa _ _ (sameObjects_rfl _)

------------------------------------------------------------
-- Stored Results
------------------------------------------------------------

/- The stored issues of an item. -/
def issuesUnder
    (d : Db)
    (item : SchemaItem) : List Issue :=
  (d.issues.filter
    (fun s => s.schemaItem = item.id)).map
      SchemaIssue.toIssue

/- The items say the same of objects that are alike. -/
structure SameItem
    (d d' : Db)
    (item item' : SchemaItem) : Prop where
  schemaType : item.schemaType = item'.schemaType
  format : item.format = item'.format
  rawData : Json.Alike item.rawData item'.rawData
  isValid : item.isValid = item'.isValid
  richResultEligible :
    item.richResultEligible = item'.richResultEligible
  issues : issuesUnder d item = issuesUnder d' item'

/- What a job shows of its result. -/
def ValidationJob.result
    (row : ValidationJob) :
    Nat × Nat × Nat × Bool × Bool × Bool :=
  (row.totalSchemasFound, row.totalErrors,
    row.totalWarnings, row.hasJsonLd, row.hasMicrodata,
    row.hasRdfa)

/- The stored results say the same, item by item. -/
structure SameResults
    (job job' : JobId)
    (d d' : Db) : Prop where
  items :
    List.Forall₂ (SameItem d d') (d.liveItems job)
      (d'.liveItems job')
  row :
    (d.find job).map ValidationJob.result =
      (d'.find job').map ValidationJob.result

variable {job job' : JobId} {d d' : Db}
variable {objects objects' : List (SchemaFormat × Json)}

/- Of rows with their own keys, one has the key. -/
theorem filter_issuesOf
    {items : List SchemaItem}
    {item : SchemaItem}
    (hKeys : Table.Keyed SchemaItem.id items)
    (hMem : item ∈ items) :
    (items.flatMap (issuesOf platform)).filter
        (fun p => p.1 = item.id) =
      issuesOf platform item := by
  induction items with
  | nil => cases hMem
  | cons first rest ih =>
      have hOf :
          ∀ other : SchemaItem,
            (issuesOf platform other).filter
                (fun p => p.1 = item.id) =
              if other.id = item.id then
                issuesOf platform other
              else
                [] := by
        intro other
        unfold issuesOf
        rw [List.filter_map]
        by_cases hId : other.id = item.id <;>
          simp [Function.comp_def, hId]
      have hNodup :
          (first.id :: rest.map SchemaItem.id).Nodup := hKeys
      rw [List.nodup_cons] at hNodup
      rw [List.flatMap_cons, List.filter_append, hOf]
      rcases List.mem_cons.mp hMem with rfl | hRest
      · have hNone :
            (rest.flatMap (issuesOf platform)).filter
                (fun p => p.1 = item.id) =
              [] := by
          rw [List.filter_flatMap, List.flatMap_eq_nil_iff]
          intro other hOther
          rw [hOf, if_neg]
          intro hSame
          apply hNodup.1
          exact List.mem_map.mpr ⟨other, hOther, hSame⟩
        rw [if_pos rfl, hNone, List.append_nil]
      · have hNe : first.id ≠ item.id := by
          intro hSame
          apply hNodup.1
          exact
            List.mem_map.mpr ⟨item, hRest, hSame.symm⟩
        rw [if_neg hNe, List.nil_append]
        exact ih hNodup.2 hRest

/- The issues of an item are those of its object. -/
theorem issuesUnder_of_reflects
    {item : SchemaItem}
    (hSound : d.Sound)
    (hReflects : Reflects platform job objects d)
    (hMem : item ∈ d.liveItems job) :
    issuesUnder d item =
      (validateObject platform item.rawData).issues := by
  have hLive :
      d.issues.filter (fun s => s.schemaItem = item.id) =
        (d.liveIssues job).filter
          (fun s => s.schemaItem = item.id) := by
    rw [Db.liveIssues, List.filter_filter]
    apply List.filter_congr
    intro s _
    by_cases hId : s.schemaItem = item.id
    · have hOf : Db.issueOf (d.liveItems job) s = true :=
        List.any_eq_true.mpr ⟨item, hMem, by simp [hId]⟩
      simp [hId, hOf]
    · simp [hId]
  have hKeys :
      Table.Keyed SchemaItem.id (d.liveItems job) :=
    hSound.items.sublist
      (List.filter_sublist.map SchemaItem.id)
  have hPairs :
      ((d.liveIssues job).filter
          (fun s => s.schemaItem = item.id)).map
            (fun s => (s.schemaItem, s.toIssue)) =
        issuesOf platform item := by
    rw [← filter_issuesOf hKeys hMem, ← hReflects.issues,
      List.filter_map]
    rfl
  have hSeconds := congrArg (List.map Prod.snd) hPairs
  rw [issuesUnder, hLive]
  simpa [issuesOf, Function.comp_def] using hSeconds

/- All the issues of a job, in the order of its items. -/
theorem liveIssues_of_reflects
    (hReflects : Reflects platform job objects d) :
    (d.liveIssues job).map SchemaIssue.toIssue =
      objects.flatMap
        (fun o => (validateObject platform o.2).issues) := by
  have hSeconds :=
    congrArg (List.map Prod.snd) hReflects.issues
  rw [← hReflects.items, List.flatMap_map]
  simpa [issuesOf, Function.comp_def, List.map_flatMap]
    using hSeconds

theorem countP_hasSeverity
    (severity : IssueSeverity)
    (issues : List SchemaIssue) :
    issues.countP (hasSeverity severity) =
      (issues.map SchemaIssue.toIssue).countP
        (fun issue => issue.severity = severity) := by
  rw [List.countP_map]
  rfl

/- Stored results of objects that are alike. -/
theorem sameResults_of_reflects
    (hSound : d.Sound)
    (hSound' : d'.Sound)
    (hReflects : Reflects platform job objects d)
    (hReflects' : Reflects platform job' objects' d')
    (hSame :
      List.Forall₂
        (fun o o' =>
          o.1 = o'.1 ∧ SameObject platform o.2 o'.2)
        objects objects') :
    SameResults job job' d d' := by
  have hIssues :
      (d.liveIssues job).map SchemaIssue.toIssue =
        (d'.liveIssues job').map SchemaIssue.toIssue := by
    rw [liveIssues_of_reflects hReflects,
      liveIssues_of_reflects hReflects']
    clear hReflects hReflects'
    induction hSame with
    | nil => rfl
    | cons hHead _ ih =>
        rw [List.flatMap_cons, List.flatMap_cons, ih,
          hHead.2.result]
  have hFormats :
      ∀ format,
        hasFormat format objects =
          hasFormat format objects' := by
    intro format
    clear hReflects hReflects' hIssues
    unfold hasFormat
    induction hSame with
    | nil => rfl
    | cons hHead _ ih =>
        rw [List.any_cons, List.any_cons, ih, hHead.1]
  have hItems := hSame
  rw [← hReflects.items, ← hReflects'.items,
    List.forall₂_map_left_iff,
    List.forall₂_map_right_iff] at hItems
  have hLength := hItems.length_eq
  refine ⟨?_, ?_⟩
  · rw [List.forall₂_iff_zip] at hItems ⊢
    refine ⟨hItems.1, ?_⟩
    intro item item' hMem
    rcases List.of_mem_zip hMem with ⟨hFirst, hSecond⟩
    rcases hItems.2 hMem with ⟨hFormat, hObject⟩
    rcases hReflects.validated item hFirst with
      ⟨hType, hValid, hRich⟩
    rcases hReflects'.validated item' hSecond with
      ⟨hType', hValid', hRich'⟩
    refine ⟨?_, hFormat, hObject.alike, ?_, ?_, ?_⟩
    · rw [hType, hType', hObject.result]
    · rw [hValid, hValid', hObject.result]
    · rw [hRich, hRich', hObject.result]
    · rw [issuesUnder_of_reflects hSound hReflects hFirst,
        issuesUnder_of_reflects hSound' hReflects' hSecond,
        hObject.result]
  · rcases hReflects.row with
      ⟨row, hFind, hTotal, hErrors, hWarnings, hFlags⟩
    rcases hReflects'.row with
      ⟨row', hFind', hTotal', hErrors', hWarnings', hFlags'⟩
    rw [hFind, hFind', Option.map_some, Option.map_some,
      ValidationJob.result, ValidationJob.result, hTotal,
      hTotal', hErrors, hErrors', hWarnings, hWarnings',
      hFlags.1, hFlags.2.1, hFlags.2.2, hFlags'.1,
      hFlags'.2.1, hFlags'.2.2, hLength,
      countP_hasSeverity, countP_hasSeverity,
      countP_hasSeverity, countP_hasSeverity, hIssues,
      hFormats, hFormats, hFormats]

/-
  After any two histories whose last successful runs met
  pages that differ in no more than the order of members, the
  stored results say the same.
-/
theorem stored_results_ignore_member_order
    {run run' : Delivery}
    {d₀ d₀' : Db}
    (hSound : d₀.Sound)
    (hSound' : d₀'.Sound)
    (hHistory : History platform job d₀ (some run) d)
    (hHistory' : History platform job' d₀' (some run') d')
    (hPages :
      ∀ row row' html html', d.find job = some row →
        d'.find job' = some row' →
          run.client row.url = .text html →
            run'.client row'.url = .text html' →
              SamePage platform html html') :
    SameResults job job' d d' := by
  rcases stored_of_history hSound hHistory with
    ⟨hKeys, row, html, objects, hFind, hPage, hObjects,
      hReflects⟩
  rcases stored_of_history hSound' hHistory' with
    ⟨hKeys', row', html', objects', hFind', hPage',
      hObjects', hReflects'⟩
  have hSame :=
    hPages row row' html html' hFind hFind' hPage hPage'
  exact
    sameResults_of_reflects hKeys hKeys' hReflects
      hReflects' (extractAll_of_same hSame hObjects hObjects')

------------------------------------------------------------
-- Two Pages
------------------------------------------------------------

def namedThing : Fields :=
  [("@type", .str "Thing"), ("name", .str "x")]

def thingNamed : Fields :=
  [("name", .str "x"), ("@type", .str "Thing")]

/- A page with one JSON-LD block. -/
def blockPage (fields : Fields) : Forest :=
  .element
    { name := "script"
      attrs := [("type", "application/ld+json")] }
    (.text (.contained "script") (dumps (.obj fields)) .nil)
    .nil

/- One page lists the type first, every other the name. -/
def orderedPlatform : Platform where
  python := cpython
  soup := fun html =>
    if html = "typed" then
      blockPage namedThing
    else
      blockPage thingNamed
  repr := fun _ => ""
  dumpDepth := 900

/- The page is fetched. -/
def orderedRun (html : String) : Delivery where
  client := fun _ => .text html
  itemId := fun i => i
  issueId := fun i => i

theorem fresh_orderedRun
    (html : String) : (orderedRun html).Fresh newJobDb where
  itemIds := fun _ _ hSame => hSame
  issueIds := fun _ _ hSame => hSame
  items := fun _ _ hMem => by cases hMem
  issues := fun _ _ hMem => by cases hMem

/- The text of the block is read back. -/
theorem loads_blockPage
    {fields : Fields}
    {script : Element}
    (hTextual : (Json.obj fields).textual = true)
    (hNesting : (Json.obj fields).nesting ≤ 900)
    (hMem :
      script ∈ (blockPage fields).all.filter isJsonLdScript) :
    scriptText script ≠ "" ∧
      loads 900 (scriptText script) = .ok (.obj fields) := by
  have hOnly :
      (blockPage fields).all.filter isJsonLdScript =
        [_] := rfl
  have hLoads := loads_dumps hTextual hNesting
  have hText : dumps (.obj fields) ≠ "" := by
    intro hEmpty
    rw [hEmpty, loads_empty] at hLoads
    cases hLoads
  rw [hOnly] at hMem
  have hScript : scriptText script = dumps (.obj fields) := by
    rw [List.mem_singleton.mp hMem]
    simp [scriptText, Forest.string, hText,
      stripText_dumps_obj]
  rw [hScript]
  exact ⟨hText, hLoads⟩

/- The one object of either page. -/
theorem extractAll_blockPage
    {html : String}
    {fields : Fields}
    (hSoup : orderedPlatform.soup html = blockPage fields)
    (hTextual : (Json.obj fields).textual = true)
    (hNesting : (Json.obj fields).nesting ≤ 900)
    (hGraph : graphOf fields = none) :
    extractAll orderedPlatform html =
      .ok [(.jsonLd, .obj fields)] := by
  have hItems :
      ∀ script ∈
          (blockPage fields).all.filter isJsonLdScript,
        scriptItems cpython script = .ok [.obj fields] := by
    intro script hMem
    rcases loads_blockPage hTextual hNesting hMem with
      ⟨hText, hLoads⟩
    have hCpython : cpython.loadsDepth = 900 := rfl
    simp only [scriptItems, if_neg hText, hCpython, hLoads]
    have hDepth : cpython.callDepth = 899 + 1 := rfl
    rw [hDepth]
    simp [flattenJsonLd, hGraph]
  have hOnly :
      (blockPage fields).all.filter isJsonLdScript =
        [_] := rfl
  rw [hOnly, List.forall_mem_singleton] at hItems
  have hPlatform : orderedPlatform.python = cpython := rfl
  simp only [extractAll, hSoup, extractJsonLd, hPlatform]
  rw [hOnly]
  simp only [List.mapM_cons, hItems]
  rfl

theorem pageFits_blockPage
    {html : String}
    {fields : Fields}
    (hObjects :
      extractAll orderedPlatform html =
        .ok [(.jsonLd, .obj fields)])
    (hResult :
      validateObject orderedPlatform (.obj fields) =
        ⟨"Thing", true, false, [noRuleIssue "Thing"]⟩)
    (hType : resolveType fields = some "Thing")
    (hNesting : (Json.obj fields).nesting ≤ 900)
    (hStorable : (Json.obj fields).storable = true) :
    PageFits orderedPlatform html := by
  have hFits : (noRuleIssue "Thing").Fits := by
    refine ⟨by decide, by decide, ?_⟩
    intro text hText
    cases hText
  refine ⟨_, hObjects, ?_, ?_⟩
  · intro o ho
    rw [List.mem_singleton.mp ho]
    refine ⟨?_, hNesting, hStorable, ?_⟩
    · intro name hName
      change resolveType fields = some name at hName
      rw [hType] at hName
      cases hName
      decide
    · rw [hResult, List.forall_mem_singleton]
      exact hFits
  · constructor
    · change fitsInteger 1 = true
      decide
    · simp [countIssues, hResult, noRuleIssue]
      decide
    · simp [countIssues, hResult, noRuleIssue]
      decide

/- The page has been validated, and its result is stored. -/
theorem history_ordered
    {html : String}
    (hFits : PageFits orderedPlatform html) :
    ∃ d,
      History orderedPlatform 0 newJobDb
        (some (orderedRun html)) d := by
  have hCompletes :
      Completes orderedPlatform (orderedRun html) 0 html
        newJobDb :=
    completes_of_fits sound_newJobDb (fresh_orderedRun html)
      rfl rfl rfl rfl hFits
  rcases hCompletes with ⟨objects, s, hRun, _⟩
  have hRuns :
      Runs orderedPlatform (orderedRun html) 0 newJobDb _ :=
    Machine.reaches_of_run (undisturbed noAnswers) rfl hRun
  exact
    ⟨_, History.start.succeed hRuns
      (World.put_threads_self _ _ 0 _)⟩

theorem samePage_ordered :
    SamePage orderedPlatform "typed" "named" := by
  have hPerm : namedThing.Perm thingNamed := .swap _ _ _
  refine ⟨?_, rfl, rfl⟩
  have hFirst :
      ((orderedPlatform.soup "typed").all.filter
        isJsonLdScript) = [_] := rfl
  have hSecond :
      ((orderedPlatform.soup "named").all.filter
        isJsonLdScript) = [_] := rfl
  have hTyped :
      ∀ script ∈
          (orderedPlatform.soup "typed").all.filter
            isJsonLdScript,
        _ ∧ _ :=
    fun script hMem =>
      loads_blockPage (by decide) (by decide) hMem
  have hNamed :
      ∀ script ∈
          (orderedPlatform.soup "named").all.filter
            isJsonLdScript,
        _ ∧ _ :=
    fun script hMem =>
      loads_blockPage (by decide) (by decide) hMem
  rw [hFirst, List.forall_mem_singleton] at hTyped
  rw [hSecond, List.forall_mem_singleton] at hNamed
  rw [hFirst, hSecond]
  refine .cons ?_ .nil
  refine
    .parsed hTyped.1 hNamed.1 hTyped.2 hNamed.2
      (Json.alike_of_perm hPerm (by decide)) ?_
  intro o ho reason hReason
  have hObject : flatObjects (.obj namedThing) =
      [.obj namedThing] := rfl
  rw [hObject] at ho
  rw [List.mem_singleton.mp ho] at hReason
  cases hReason

/- The results for two orders of the members of one object. -/
theorem stored_results_two_orders :
    ∃ d d',
      History orderedPlatform 0 newJobDb
          (some (orderedRun "typed")) d ∧
        History orderedPlatform 0 newJobDb
          (some (orderedRun "named")) d' ∧
          SameResults 0 0 d d' := by
  have hTyped :
      PageFits orderedPlatform "typed" :=
    pageFits_blockPage
      (extractAll_blockPage rfl (by decide) (by decide) rfl)
      rfl (by decide) (by decide) (by decide)
  have hNamed :
      PageFits orderedPlatform "named" :=
    pageFits_blockPage
      (extractAll_blockPage rfl (by decide) (by decide) rfl)
      rfl (by decide) (by decide) (by decide)
  rcases history_ordered hTyped with ⟨d, hHistory⟩
  rcases history_ordered hNamed with ⟨d', hHistory'⟩
  refine ⟨d, d', hHistory, hHistory', ?_⟩
  apply
    stored_results_ignore_member_order sound_newJobDb
      sound_newJobDb hHistory hHistory'
  intro row row' html html' _ _ hPage hPage'
  cases hPage
  cases hPage'
  exact samePage_ordered

end SiteAnalysis.Validator
