import SiteAnalysis.FullReport.Produced
import SiteAnalysis.Python.Lists
import SiteAnalysis.Validator.Rerun

/-
  This file proves that the quick check of a page agrees with
  what a completed validation job has stored for it.

  The quick check counts in the loop that also fills two
  capped lists; the job counts while it builds its rows.

  Key definitions include:
    * `QuickSchemaCheck`
    * `quickSchemaCheck`
    * `Agrees`

  Key theorems include:
    * `quickSchemaCheck_eq`
    * `isValid_iff_no_error`
    * `quickSchemaCheck_agrees`
-/

------------------------------------------------------------
-- The Quick Check
------------------------------------------------------------

namespace SiteAnalysis.Validator

open Concurrency
open Relational
open Python
open FullReport (SchemaCounts SchemaSummary)

/- An entry of the listed schemas. -/
structure ListedSchema where
  schemaType : String
  format : SchemaFormat
  isValid : Bool
  errors : Nat
  warnings : Nat
  rich : Bool

/- An entry of the listed issues. -/
structure ListedIssue where
  schemaType : String
  severity : IssueSeverity
  field : String
  message : String

/- The dict that `quick_schema_check` returns. -/
structure QuickSchemaCheck extends SchemaSummary where
  schemas : List ListedSchema
  issues : List ListedIssue

/- The variables of the loop over the objects. -/
structure QuickState where
  counts : SchemaCounts
  schemas : List ListedSchema
  issues : List ListedIssue

def QuickState.empty : QuickState where
  counts := .zero
  schemas := []
  issues := []

/- The entry of an object. -/
def listedSchema
    (platform : Platform)
    (object : SchemaFormat × Json) : ListedSchema :=
  let result := validateObject platform object.2
  { schemaType := result.schemaType
    format := object.1
    isValid := result.isValid
    errors := FullReport.countIssues .error result
    warnings := FullReport.countIssues .warning result
    rich := result.richResultEligible }

/- The entry of an issue. -/
def listedIssue
    (schemaType : String)
    (issue : Issue) : ListedIssue where
  schemaType := schemaType
  severity := issue.severity
  field := issue.field
  message := issue.message

/- The inner loop over the issues of a result. -/
def listIssues
    (maxItems : Int)
    (result : SchemaResult)
    (issues : List ListedIssue) : List ListedIssue :=
  result.issues.foldl
    (fun issues issue =>
      if issue.severity = .info ∨
          maxItems ≤ issues.length then
        issues
      else
        issues ++ [listedIssue result.schemaType issue])
    issues

/- One round of the loop over the objects. -/
def QuickState.add
    (platform : Platform)
    (maxItems : Int)
    (st : QuickState)
    (object : SchemaFormat × Json) : QuickState where
  counts := st.counts.add (validateObject platform object.2)
  schemas :=
    appendCapped maxItems st.schemas
      (listedSchema platform object)
  issues :=
    listIssues maxItems (validateObject platform object.2)
      st.issues

/- `quick_schema_check` -/
def quickSchemaCheck
    (platform : Platform)
    (client : String → PageOutcome)
    (maxItems : Int)
    (url : String) : Except Exc QuickSchemaCheck := do
  let html ← fetchPage client url
  let objects ← extractAll platform html
  let st :=
    objects.foldl (QuickState.add platform maxItems) .empty
  pure
    { totalSchemas := objects.length
      validSchemas := st.counts.valid
      totalErrors := st.counts.errors
      totalWarnings := st.counts.warnings
      richResultEligible := st.counts.rich
      hasJsonLd := hasFormat .jsonLd objects
      hasMicrodata := hasFormat .microdata objects
      hasRdfa := hasFormat .rdfa objects
      schemas := st.schemas
      issues := st.issues }

------------------------------------------------------------
-- The Loop by Its Parts
------------------------------------------------------------

variable {platform : Platform} {run : Delivery}
variable {objects : List (SchemaFormat × Json)}

/- The issues of an object that are not just information. -/
def reportedIssues
    (platform : Platform)
    (object : SchemaFormat × Json) : List ListedIssue :=
  let result := validateObject platform object.2
  (result.issues.filter
    (fun issue => issue.severity ≠ .info)).map
      (listedIssue result.schemaType)

theorem listIssues_eq
    (maxItems : Int)
    (result : SchemaResult)
    (issues : List ListedIssue) :
    listIssues maxItems result issues =
      ((result.issues.filter
        (fun issue => issue.severity ≠ .info)).map
          (listedIssue result.schemaType)).foldl
        (appendCapped maxItems) issues := by
  unfold listIssues
  rw [List.foldl_map, List.foldl_filter]
  congr 1
  funext issues issue
  unfold appendCapped
  by_cases hInfo : issue.severity = .info
  · simp [hInfo]
  · by_cases hFull : maxItems ≤ issues.length
    · simp [hInfo, hFull, Int.not_lt.mpr hFull]
    · simp [hInfo, hFull, Int.not_le.mp hFull]

/- The three accumulators of the loop do not depend on each other. -/
theorem foldl_add_eq
    (maxItems : Int)
    (objects : List (SchemaFormat × Json))
    (st : QuickState) :
    objects.foldl (QuickState.add platform maxItems) st =
      { counts :=
          (objects.map
            (fun o => validateObject platform o.2)).foldl
              SchemaCounts.add st.counts
        schemas :=
          (objects.map (listedSchema platform)).foldl
            (appendCapped maxItems) st.schemas
        issues :=
          (objects.flatMap (reportedIssues platform)).foldl
            (appendCapped maxItems) st.issues } := by
  induction objects generalizing st with
  | nil => rfl
  | cons object objects ih =>
      rw [List.foldl_cons, ih]
      simp only [QuickState.add, List.map_cons,
        List.foldl_cons, List.flatMap_cons,
        List.foldl_append, listIssues_eq, reportedIssues]

/-
  The caps only cut the two lists; the totals are those of
  the check that the full report uses.
-/
theorem quickSchemaCheck_eq
    (platform : Platform)
    (client : String → PageOutcome)
    (maxItems : Int)
    (url : String) :
    quickSchemaCheck platform client maxItems url =
      (do
        let summary ←
          FullReport.quickSchemaCheck platform client url
        let html ← fetchPage client url
        let objects ← extractAll platform html
        pure
          { toSchemaSummary := summary
            schemas :=
              (objects.map (listedSchema platform)).take
                maxItems.toNat
            issues :=
              (objects.flatMap (reportedIssues platform)).take
                maxItems.toNat }) := by
  unfold quickSchemaCheck FullReport.quickSchemaCheck
  cases fetchPage client url with
  | error e => rfl
  | ok html =>
      cases hObjects : extractAll platform html with
      | error e => simp [bind, Except.bind, hObjects]
      | ok objects =>
          simp only [bind, Except.bind, hObjects, pure,
            Except.pure, foldl_add_eq, QuickState.empty,
            foldl_appendCapped, List.nil_append,
            List.length_nil, Nat.sub_zero]

------------------------------------------------------------
-- Verdicts
------------------------------------------------------------

/- On every path the verdict is that there is no error. -/
theorem isValid_iff_no_error
    (platform : Platform)
    (data : Json) :
    (validateObject platform data).isValid = true ↔
      FullReport.countIssues .error
        (validateObject platform data) = 0 := by
  constructor
  · unfold validateObject validateSchema
    intro hValid
    split at hValid
    · cases hValid
    · dsimp only at hValid ⊢
      split at hValid
      · cases hValid
      · rename_i hName
        rw [if_neg hName]
        split at hValid
        · rfl
        · unfold FullReport.countIssues
          rw [List.length_eq_zero_iff, List.filter_eq_nil_iff]
          intro issue hMem hError
          have hOther := List.all_eq_true.mp hValid issue hMem
          exact
            of_decide_eq_true hOther
              (of_decide_eq_true hError)
  · exact FullReport.isValid_of_no_error

/- The counters are sums over the results. -/
theorem foldl_schemaCounts
    (results : List SchemaResult)
    (counts : SchemaCounts) :
    results.foldl SchemaCounts.add counts =
      { errors :=
          counts.errors +
            (results.map
              (FullReport.countIssues .error)).sum
        warnings :=
          counts.warnings +
            (results.map
              (FullReport.countIssues .warning)).sum
        valid :=
          counts.valid +
            results.countP (fun r => r.isValid)
        rich :=
          counts.rich +
            results.countP
              (fun r => r.richResultEligible) } := by
  induction results generalizing counts with
  | nil => rfl
  | cons r results ih =>
      rw [List.foldl_cons, ih]
      simp only [SchemaCounts.add, List.map_cons,
        List.sum_cons, List.countP_cons,
        FullReport.SchemaCounts.mk.injEq]
      refine ⟨by omega, by omega, ?_, ?_⟩
      · split <;> omega
      · split <;> omega

/- No object has an error exactly if all are valid. -/
theorem sum_errors_eq_zero_iff
    (platform : Platform)
    (objects : List Json) :
    (objects.map
        (fun o =>
          FullReport.countIssues .error
            (validateObject platform o))).sum = 0 ↔
      objects.countP
          (fun o => (validateObject platform o).isValid) =
        objects.length := by
  rw [List.sum_eq_zero_iff, List.countP_eq_length,
    List.forall_mem_map]
  exact
    forall₂_congr
      (fun o _ => (isValid_iff_no_error platform o).symm)

------------------------------------------------------------
-- Stored Results
------------------------------------------------------------

variable {job : JobId} {d : Db}

/- The stored issues of a severity, object by object. -/
theorem countP_liveIssues
    (severity : IssueSeverity)
    (hReflects : Reflects platform job objects d) :
    (d.liveIssues job).countP (hasSeverity severity) =
      (objects.map
        (fun o =>
          FullReport.countIssues severity
            (validateObject platform o.2))).sum := by
  have hPairs :
      (d.liveIssues job).countP (hasSeverity severity) =
        ((d.liveIssues job).map
          (fun s => (s.schemaItem, s.toIssue))).countP
            (fun p => decide (p.2.severity = severity)) := by
    rw [List.countP_map]
    rfl
  rw [hPairs, hReflects.issues, List.countP_flatMap,
    ← hReflects.items, List.map_map]
  congr 1
  apply List.map_congr_left
  intro item _
  rw [Function.comp_apply, issuesOf, List.countP_map,
    List.countP_eq_length_filter]
  rfl

/- A flag of the stored items is that of the results. -/
theorem countP_liveItems
    {flag : SchemaItem → Bool}
    {verdict : SchemaResult → Bool}
    (hReflects : Reflects platform job objects d)
    (hFlag :
      ∀ item ∈ d.liveItems job,
        flag item =
          verdict (validateObject platform item.rawData)) :
    (d.liveItems job).countP flag =
      objects.countP
        (fun o => verdict (validateObject platform o.2)) := by
  rw [← hReflects.items, List.countP_map]
  apply List.countP_congr
  intro item hMem
  rw [hFlag item hMem]
  rfl

/-
  The summary has the totals and flags of the job, and counts
  its items.
-/
structure Agrees
    (d : Db)
    (row : ValidationJob)
    (q : QuickSchemaCheck) : Prop where
  total : q.totalSchemas = row.totalSchemasFound
  errors : q.totalErrors = row.totalErrors
  warnings : q.totalWarnings = row.totalWarnings
  jsonLd : q.hasJsonLd = row.hasJsonLd
  microdata : q.hasMicrodata = row.hasMicrodata
  rdfa : q.hasRdfa = row.hasRdfa
  valid :
    q.validSchemas =
      (d.liveItems row.id).countP (fun i => i.isValid)
  rich :
    q.richResultEligible =
      (d.liveItems row.id).countP
        (fun i => i.richResultEligible)
  noErrors :
    q.totalErrors = 0 ↔ q.validSchemas = q.totalSchemas

/- The quick check agrees with a result of the same objects. -/
theorem agrees_of_reflects
    {client : String → PageOutcome}
    {maxItems : Int}
    {url html : String}
    {row : ValidationJob}
    (hReflects : Reflects platform job objects d)
    (hFind : d.find job = some row)
    (hPage : client url = .text html)
    (hObjects : extractAll platform html = .ok objects) :
    ∃ q, quickSchemaCheck platform client maxItems url =
        .ok q ∧
      Agrees d row q ∧
        q.schemas =
            (objects.map (listedSchema platform)).take
              maxItems.toNat ∧
          q.issues =
            (objects.flatMap (reportedIssues platform)).take
              maxItems.toNat := by
  have hFetch : fetchPage client url = .ok html := by
    rw [fetchPage, hPage]
  have hId : row.id = job := Table.key_of_find hFind
  rcases hReflects.row with
    ⟨row', hFind', hTotal, hErrors, hWarnings, hJsonLd,
      hMicrodata, hRdfa⟩
  rw [hFind] at hFind'
  cases hFind'
  rw [quickSchemaCheck_eq]
  unfold FullReport.quickSchemaCheck
  simp only [hFetch, hObjects, bind, Except.bind, pure,
    Except.pure]
  refine ⟨_, rfl, ?_, rfl, rfl⟩
  rw [foldl_schemaCounts, List.map_map, List.map_map,
    List.countP_map, List.countP_map]
  simp only [SchemaCounts.zero, Nat.zero_add]
  have hLength :
      (d.liveItems job).length = objects.length := by
    rw [← hReflects.items, List.length_map]
  constructor
  · exact hLength.symm.trans hTotal.symm
  · rw [hErrors, countP_liveIssues .error hReflects]
    rfl
  · rw [hWarnings, countP_liveIssues .warning hReflects]
    rfl
  · exact hJsonLd.symm
  · exact hMicrodata.symm
  · exact hRdfa.symm
  · rw [hId,
      countP_liveItems hReflects
        (fun item hMem =>
          (hReflects.validated item hMem).2.1)]
    rfl
  · rw [hId,
      countP_liveItems hReflects
        (fun item hMem =>
          (hReflects.validated item hMem).2.2)]
    rfl
  · have hSum :=
      sum_errors_eq_zero_iff platform
        (objects.map Prod.snd)
    rw [List.map_map, List.countP_map,
      List.length_map] at hSum
    exact hSum

/-
  For every page that a job has completed on, the quick check
  of the same page agrees with what is stored; the caps only
  cut its two lists.
-/
theorem quickSchemaCheck_agrees
    {w : RunWorld}
    (hSound : d.Sound)
    (hRuns : Runs platform run job d w)
    (hCompleted : Completed w) :
    ∃ row html objects,
      w.shared.committed.find job = some row ∧
        run.client row.url = .text html ∧
          extractAll platform html = .ok objects ∧
            ∀ client url maxItems, client url = .text html →
              ∃ q, quickSchemaCheck platform client maxItems
                  url = .ok q ∧
                Agrees w.shared.committed row q ∧
                  q.schemas =
                      (objects.map
                        (listedSchema platform)).take
                        maxItems.toNat ∧
                    q.issues =
                      (objects.flatMap
                        (reportedIssues platform)).take
                        maxItems.toNat := by
  have hResult := result_of_run hSound hRuns
  rcases hResult.2.1 hCompleted with
    ⟨row, html, objects, hFind, hPage, hObjects, hReflects⟩
  refine ⟨row, html, objects, hFind, hPage, hObjects, ?_⟩
  intro client url maxItems hSame
  exact agrees_of_reflects hReflects hFind hSame hObjects

/- The page with one type has one valid schema. -/
theorem quickSchemaCheck_agrees_thing :
    ∃ w,
      Runs (typedPlatform thingType) typedRun 0 newJobDb w ∧
        ∃ row q,
          w.shared.committed.find 0 = some row ∧
            quickSchemaCheck (typedPlatform thingType)
                typedRun.client 15 row.url = .ok q ∧
              Agrees w.shared.committed row q := by
  rcases completes_typedRun with ⟨objects, s, hRun, _⟩
  have hRuns :
      Runs (typedPlatform thingType) typedRun 0 newJobDb _ :=
    Machine.reaches_of_run (undisturbed noAnswers) rfl hRun
  rcases
    quickSchemaCheck_agrees sound_newJobDb hRuns
      (World.put_threads_self _ _ 0 _) with
    ⟨row, html, found, hFind, hPage, _, hAgrees⟩
  rcases hAgrees typedRun.client row.url 15 hPage with
    ⟨q, hQuick, hSame, _⟩
  exact ⟨_, hRuns, row, q, hFind, hQuick, hSame⟩

end SiteAnalysis.Validator
