import SiteAnalysis.Relational.Solo
import SiteAnalysis.Validator.Findings
import SiteAnalysis.Validator.RoundTrip

/-
  This file proves which pages the processing of a validation
  job completes on when nothing disturbs it.

  Key definitions include:
    * `Writable`
    * `ObjectFits`
    * `PageFits`
    * `Completes`

  Key theorems include:
    * `ends_storeFindings`
    * `writable_iff`
    * `run_completes_iff`
-/

------------------------------------------------------------
-- Verdicts
------------------------------------------------------------

namespace SiteAnalysis.Validator

open Concurrency
open Relational
open Python

/- The items are accepted as new rows. -/
def ItemsWritable
    (dumpDepth : Nat)
    (d : Db)
    (items : List SchemaItem) : Prop :=
  (∀ i ∈ items, i.rawData.nesting ≤ dumpDepth) ∧
    FreshKeys SchemaItem.id d.items items ∧
      ∀ i ∈ items, i.check = .ok ()

/- The issues are accepted as new rows. -/
def IssuesWritable
    (d : Db)
    (issues : List SchemaIssue) : Prop :=
  FreshKeys SchemaIssue.id d.issues issues ∧
    ∀ i ∈ issues, i.check = .ok ()

theorem writeIf_verdict
    (check : Except Exc Unit)
    (change : Db → Db) :
    check = .ok () ∧
        writeIf check change = .done () none change ∨
      check ≠ .ok () ∧ (writeIf check change).Raises := by
  cases check with
  | ok u => exact Or.inl ⟨rfl, rfl⟩
  | error e =>
      exact
        Or.inr
          ⟨(fun hOk => by cases hOk), Or.inl ⟨e, rfl⟩⟩

theorem bulkCreateItems_verdict
    (dumpDepth : Nat)
    (d : Db)
    (items : List SchemaItem) :
    ItemsWritable dumpDepth d items ∧
        plan dumpDepth (.bulkCreateItems items) d =
          .done () none
            (fun d => { d with items := d.items ++ items }) ∨
      ¬ ItemsWritable dumpDepth d items ∧
        (plan dumpDepth (.bulkCreateItems items) d).Raises :=
    by
  simp only [plan]
  split
  · rename_i hDeep
    rw [List.any_eq_true] at hDeep
    rcases hDeep with ⟨item, hItem, hNesting⟩
    refine Or.inr ⟨?_, Or.inr ⟨_, rfl⟩⟩
    intro hWritable
    have hShallow := hWritable.1 item hItem
    simp only [decide_eq_true_eq] at hNesting
    omega
  · rename_i hShallow
    split
    · rename_i hFresh
      rcases
        writeIf_verdict (checkRows SchemaItem.check items)
          (fun d => { d with items := d.items ++ items }) with
        hDone | hRaises
      · refine Or.inl ⟨⟨?_, hFresh, ?_⟩, hDone.2⟩
        · simpa using hShallow
        · exact (checkRows_eq_ok _ _).mp hDone.1
      · refine Or.inr ⟨?_, hRaises.2⟩
        intro hWritable
        exact
          hRaises.1
            ((checkRows_eq_ok _ _).mpr hWritable.2.2)
    · rename_i hStale
      refine Or.inr ⟨?_, Or.inl ⟨_, rfl⟩⟩
      intro hWritable
      exact hStale hWritable.2.1

theorem bulkCreateIssues_verdict
    (dumpDepth : Nat)
    (d : Db)
    (issues : List SchemaIssue) :
    IssuesWritable d issues ∧
        plan dumpDepth (.bulkCreateIssues issues) d =
          .done () none
            (fun d =>
              { d with issues := d.issues ++ issues }) ∨
      ¬ IssuesWritable d issues ∧
        (plan dumpDepth (.bulkCreateIssues issues)
          d).Raises := by
  simp only [plan]
  split
  · rename_i hFresh
    rcases
      writeIf_verdict (checkRows SchemaIssue.check issues)
        (fun d =>
          { d with issues := d.issues ++ issues }) with
      hDone | hRaises
    · exact
        Or.inl
          ⟨⟨hFresh, (checkRows_eq_ok _ _).mp hDone.1⟩,
            hDone.2⟩
    · refine Or.inr ⟨?_, hRaises.2⟩
      intro hWritable
      exact
        hRaises.1 ((checkRows_eq_ok _ _).mpr hWritable.2)
  · rename_i hStale
    refine Or.inr ⟨?_, Or.inl ⟨_, rfl⟩⟩
    intro hWritable
    exact hStale hWritable.1

------------------------------------------------------------
-- The Transaction
------------------------------------------------------------

/- The rows of a run are accepted in place of the old ones. -/
structure Writable
    (dumpDepth : Nat)
    (d : Db)
    (found : Findings)
    (completed : ValidationJob) : Prop where
  items :
    ItemsWritable dumpDepth (removeItems completed.id d)
      found.items
  issues :
    IssuesWritable (removeItems completed.id d) found.issues
  job : completed.check = .ok ()

/- No statement is answered from outside. -/
def noAnswers : Statement → Option Empty := fun _ => none

variable {platform : Platform} {run : Delivery}
variable {job : JobId} {d : Db} {s : Store Db Empty}
variable {object completed : ValidationJob}
variable {found : Findings}

/- An undisturbed connection that is between transactions. -/
abbrev Settled
    (d : Db)
    (s : Store Db Empty) : Prop :=
  s.Ready 0 d []

/- The transaction goes through exactly when it can. -/
theorem ends_storeFindings
    (platform : Platform)
    (found : Findings)
    (completed : ValidationJob)
    (hJob : completed.id = object.id)
    (hReady : Settled d s) :
    (storeFindings object found completed).Ends
      ((backend platform.dumpDepth).alone 0 noAnswers)
      (fun _ s' =>
        Writable platform.dumpDepth d found completed ∧
          Settled (replaceResult found completed d) s')
      (fun _ s' =>
        ¬ Writable platform.dumpDepth d found completed ∧
          Settled d s')
      s := by
  apply Backend.ends_atomic hReady
  intro s₁ hReady₁
  apply Prog.ends_bind
  apply Backend.ends_done hReady₁ rfl rfl
  intro s₂ hReady₂
  apply Prog.ends_bind
  rw [← hJob] at hReady₂
  rcases
    bulkCreateItems_verdict platform.dumpDepth
      (removeItems completed.id d) found.items with
    hItems | hItems
  rotate_left
  · apply Backend.ends_raises hReady₂ rfl hItems.2
    intro e s' hAt
    refine ⟨_, hAt, ?_⟩
    intro s'' hReady''
    exact ⟨fun h => hItems.1 h.items, hReady''⟩
  apply Backend.ends_done hReady₂ rfl hItems.2
  intro s₃ hReady₃
  apply Prog.ends_bind
  rcases
    bulkCreateIssues_verdict platform.dumpDepth
      { removeItems completed.id d with
        items :=
          (removeItems completed.id d).items ++
            found.items }
      found.issues with
    hIssues | hIssues
  rotate_left
  · apply Backend.ends_raises hReady₃ rfl hIssues.2
    intro e s' hAt
    refine ⟨_, hAt, ?_⟩
    intro s'' hReady''
    exact ⟨fun h => hIssues.1 h.issues, hReady''⟩
  apply Backend.ends_done hReady₃ rfl hIssues.2
  intro s₄ hReady₄
  rcases
    writeIf_verdict completed.check
      (fun d =>
        { d with
          jobs :=
            Table.put ValidationJob.id completed d.jobs })
    with hSave | hSave
  rotate_left
  · apply Backend.ends_raises hReady₄ rfl hSave.2
    intro e s' hAt
    refine ⟨_, hAt, ?_⟩
    intro s'' hReady''
    exact ⟨fun h => hSave.1 h.job, hReady''⟩
  apply Backend.ends_done hReady₄ rfl hSave.2
  intro s₅ hReady₅
  refine ⟨_, hReady₅, ?_⟩
  intro s'' hReady''
  exact ⟨⟨hItems.1, hIssues.1, hSave.1⟩, hReady''⟩

------------------------------------------------------------
-- New Keys
------------------------------------------------------------

/- The run draws keys that no row has and none twice. -/
structure Delivery.Fresh
    (run : Delivery)
    (d : Db) : Prop where
  itemIds : Function.Injective run.itemId
  issueIds : Function.Injective run.issueId
  items : ∀ n, ∀ item ∈ d.items, item.id ≠ run.itemId n
  issues :
    ∀ n, ∀ issue ∈ d.issues, issue.id ≠ run.issueId n

/- The rows of the findings have the keys of the run. -/
structure Findings.KeyedBy
    (run : Delivery)
    (found : Findings) : Prop where
  items :
    found.items.map SchemaItem.id =
      (List.range found.items.length).map run.itemId
  issues :
    found.issues.map SchemaIssue.id =
      (List.range found.issues.length).map run.issueId

theorem keyedBy_addIssue
    (hKeyed : found.KeyedBy run)
    (item : ItemId)
    (issue : Issue) :
    (found.addIssue run item issue).KeyedBy run where
  items := hKeyed.items
  issues := by
    simp [Findings.addIssue, List.range_succ,
      hKeyed.issues]

theorem keyedBy_addIssues
    (hKeyed : found.KeyedBy run)
    (item : ItemId)
    (issues : List Issue) :
    (issues.foldl (Findings.addIssue run item)
      found).KeyedBy run := by
  induction issues generalizing found with
  | nil => exact hKeyed
  | cons issue issues ih =>
      exact ih (keyedBy_addIssue hKeyed item issue)

theorem keyedBy_addObject
    (hKeyed : found.KeyedBy run)
    (entry : SchemaFormat × Json) :
    (found.addObject platform run job entry).KeyedBy
      run := by
  apply keyedBy_addIssues
  refine ⟨?_, hKeyed.issues⟩
  simp [List.range_succ, hKeyed.items, Findings.newItem]

theorem keyedBy_collect
    (objects : List (SchemaFormat × Json)) :
    (collectFindings platform run job objects).KeyedBy run := by
  have hAll :
      ∀ found : Findings, found.KeyedBy run →
        (objects.foldl (Findings.addObject platform run job)
          found).KeyedBy run := by
    induction objects with
    | nil => exact fun _ hKeyed => hKeyed
    | cons entry objects ih =>
        intro found hKeyed
        exact ih _ (keyedBy_addObject hKeyed entry)
  exact hAll _ ⟨rfl, rfl⟩

/- Keys drawn in turn are new. -/
theorem freshKeys_of_drawn
    {ρ : Type}
    {key : ρ → Nat}
    {rows new : List ρ}
    {draw : Nat → Nat}
    (hInjective : Function.Injective draw)
    (hKeys :
      new.map key = (List.range new.length).map draw)
    (hNew : ∀ n, ∀ row ∈ rows, key row ≠ draw n) :
    FreshKeys key rows new := by
  constructor
  · rw [Table.Keyed, hKeys]
    exact List.nodup_range.map hInjective
  · intro row hRow
    rw [Table.find_eq_none_iff]
    intro old hOld hSame
    have hMem : key row ∈ (List.range new.length).map draw :=
      hKeys ▸ List.mem_map_of_mem hRow
    rcases List.mem_map.mp hMem with ⟨n, _, hDraw⟩
    exact hNew n old hOld (hSame.trans hDraw.symm)

/- The findings of a run with new keys are new rows. -/
theorem freshItems_collect
    (hFresh : run.Fresh d)
    (objects : List (SchemaFormat × Json)) :
    FreshKeys SchemaItem.id (removeItems job d).items
      (collectFindings platform run job objects).items := by
  apply
    freshKeys_of_drawn hFresh.itemIds
      (keyedBy_collect objects).items
  intro n item hMem
  exact hFresh.items n item (List.mem_of_mem_filter hMem)

theorem freshIssues_collect
    (hFresh : run.Fresh d)
    (objects : List (SchemaFormat × Json)) :
    FreshKeys SchemaIssue.id (removeItems job d).issues
      (collectFindings platform run job objects).issues := by
  apply
    freshKeys_of_drawn hFresh.issueIds
      (keyedBy_collect objects).issues
  intro n issue hMem
  exact hFresh.issues n issue (List.mem_of_mem_filter hMem)

------------------------------------------------------------
-- Pages That Fit
------------------------------------------------------------

/- The label and the texts of an issue fit their columns. -/
structure Issue.Fits (issue : Issue) : Prop where
  field : fitsChar 200 issue.field = true
  message : noNul issue.message = true
  suggestion :
    ∀ text, issue.suggestion = some text →
      noNul text = true

/-
  An extracted object that can be stored: its type is a short
  name, its values nest within the limit of the encoder and
  have neither NUL nor a number that JSON lacks, and what
  there is to say about it fits.
-/
structure ObjectFits
    (platform : Platform)
    (object : Json) : Prop where
  type :
    ∀ name, resolveType (members object) = some name →
      fitsChar 100 name = true
  nesting : object.nesting ≤ platform.dumpDepth
  storable : object.storable = true
  issues :
    ∀ issue ∈ (validateObject platform object).issues,
      issue.Fits

/- The issues of that severity in all the objects. -/
def countIssues
    (platform : Platform)
    (severity : IssueSeverity)
    (objects : List (SchemaFormat × Json)) : Nat :=
  (objects.flatMap
    (fun o => (validateObject platform o.2).issues)).countP
      (fun issue => issue.severity = severity)

/- The counters of a run fit their columns. -/
structure CountsFit
    (platform : Platform)
    (objects : List (SchemaFormat × Json)) : Prop where
  total : fitsInteger objects.length = true
  errors :
    fitsInteger (countIssues platform .error objects) = true
  warnings :
    fitsInteger (countIssues platform .warning objects) =
      true

/-
  The extraction stays within the stack, and every object and
  the counters fit.
-/
def PageFits
    (platform : Platform)
    (html : String) : Prop :=
  ∃ objects, extractAll platform html = .ok objects ∧
    (∀ o ∈ objects, ObjectFits platform o.2) ∧
      CountsFit platform objects

/- The type of an item is the resolved one, or "Unknown". -/
theorem fitsChar_schemaType_iff
    (object : Json) :
    fitsChar 100 (validateObject platform object).schemaType =
        true ↔
      ∀ name, resolveType (members object) = some name →
        fitsChar 100 name = true := by
  have hUnknown : fitsChar 100 unknownType = true := by
    decide
  have hEmpty : fitsChar 100 "" = true := by decide
  unfold validateObject validateSchema
  cases hReason :
      Json.field parseErrorKey (members object) with
  | some reason =>
      have hNone : resolveType (members object) = none := by
        simp [resolveType, hReason]
      simp [hNone, hUnknown]
  | none =>
      cases hType : resolveType (members object) with
      | none => simp [hUnknown]
      | some name =>
          by_cases hName : name = ""
          · simp [hName, hUnknown, hEmpty]
          · cases hRule : getRule name <;>
              simp [hName, hRule]

theorem issueCheck_iff
    (issue : SchemaIssue) :
    issue.check = .ok () ↔ issue.toIssue.Fits := by
  have hSeverity :
      fitsChar 10 issue.severity.value = true := by
    cases issue.severity <;> decide
  have hSuggestion :
      optionalTextColumn issue.suggestion = .ok () ↔
        ∀ text, issue.suggestion = some text →
          noNul text = true := by
    cases hText : issue.suggestion <;>
      simp [optionalTextColumn]
  simp only [SchemaIssue.check, check_bind_eq_ok,
    charColumn_eq_ok, textColumn_eq_ok, hSeverity,
    hSuggestion, true_and]
  constructor
  · rintro ⟨hField, hMessage, hRest⟩
    exact ⟨hField, hMessage, hRest⟩
  · intro hFits
    exact ⟨hFits.field, hFits.message, hFits.suggestion⟩

/- The columns of an item take its object. -/
def RawDataFits (object : Json) : Prop :=
  (∀ name, resolveType (members object) = some name →
    fitsChar 100 name = true) ∧
    object.storable = true

theorem itemCheck_iff
    {item : SchemaItem}
    (hValidated : item.Validated platform) :
    item.check = .ok () ↔ RawDataFits item.rawData := by
  have hFormat : fitsChar 10 item.format.value = true := by
    cases item.format <;> decide
  simp only [RawDataFits, SchemaItem.check, check_bind_eq_ok,
    charColumn_eq_ok, jsonColumn_eq_ok, hFormat, true_and,
    hValidated.1, fitsChar_schemaType_iff]

------------------------------------------------------------
-- Rows of Findings
------------------------------------------------------------

section Rows

variable {objects : List (SchemaFormat × Json)}

/- The issues of the findings are those of the objects. -/
theorem issues_of_covers
    (hCovers : found.Covers platform job objects) :
    found.issues.map SchemaIssue.toIssue =
      objects.flatMap
        (fun o => (validateObject platform o.2).issues) := by
  have hSnd :=
    congrArg (List.map Prod.snd) hCovers.issues
  rw [List.map_map] at hSnd
  have hLeft :
      found.issues.map SchemaIssue.toIssue =
        found.issues.map
          (Prod.snd ∘
            fun s : SchemaIssue =>
              (s.schemaItem, s.toIssue)) := rfl
  rw [hLeft, hSnd, ← hCovers.objects, List.map_flatMap,
    List.flatMap_map]
  simp [issuesOf, Function.comp_def]

theorem countIssues_of_covers
    (hCovers : found.Covers platform job objects)
    (severity : IssueSeverity) :
    found.issues.countP (hasSeverity severity) =
      countIssues platform severity objects := by
  rw [countIssues, ← issues_of_covers hCovers,
    List.countP_map]
  rfl

theorem length_of_covers
    (hCovers : found.Covers platform job objects) :
    found.items.length = objects.length := by
  rw [← hCovers.objects, List.length_map]

/- What holds of all the items holds of all the objects. -/
theorem forall_items_iff
    (P : Json → Prop)
    (hCovers : found.Covers platform job objects) :
    (∀ i ∈ found.items, P i.rawData) ↔
      ∀ o ∈ objects, P o.2 := by
  rw [← hCovers.objects]
  simp

theorem forall_issues_iff
    (hCovers : found.Covers platform job objects) :
    (∀ i ∈ found.issues, i.toIssue.Fits) ↔
      ∀ o ∈ objects,
        ∀ issue ∈ (validateObject platform o.2).issues,
          issue.Fits := by
  have hMap :
      (∀ i ∈ found.issues, i.toIssue.Fits) ↔
        ∀ issue ∈ found.issues.map SchemaIssue.toIssue,
          issue.Fits := by simp
  rw [hMap, issues_of_covers hCovers]
  simp only [List.mem_flatMap, forall_exists_index, and_imp]
  constructor
  · intro hAll o ho issue hIssue
    exact hAll issue o ho hIssue
  · intro hAll issue o ho hIssue
    exact hAll o ho issue hIssue

end Rows

/- The job is saved exactly when its counters fit. -/
theorem completedJob_check_iff
    (objects : List (SchemaFormat × Json))
    (hUrl : fitsChar 2048 object.url = true) :
    (completedJob object objects
        (collectFindings platform run object.id objects)).check =
          .ok () ↔
      CountsFit platform objects := by
  have hCovers :=
    covers_collect platform run object.id objects
  have hStatus :
      fitsChar 20 ValidationStatus.completed.value = true := by
    decide
  simp only [ValidationJob.check, completedJob,
    check_bind_eq_ok, charColumn_eq_ok, integerColumn_eq_ok,
    hUrl, hStatus, optionalTextColumn, true_and, and_true,
    hCovers.errors, hCovers.warnings,
    countIssues_of_covers hCovers,
    length_of_covers hCovers]
  constructor
  · rintro ⟨hTotal, hErrors, hWarnings⟩
    exact ⟨hTotal, hErrors, hWarnings⟩
  · intro hFit
    exact ⟨hFit.total, hFit.errors, hFit.warnings⟩

/- The transaction of a run goes through if the objects fit. -/
theorem writable_iff
    (objects : List (SchemaFormat × Json))
    (hFresh : run.Fresh d)
    (hUrl : fitsChar 2048 object.url = true) :
    Writable platform.dumpDepth d
        (collectFindings platform run object.id objects)
        (completedJob object objects
          (collectFindings platform run object.id objects)) ↔
      (∀ o ∈ objects, ObjectFits platform o.2) ∧
        CountsFit platform objects := by
  have hCovers :=
    covers_collect platform run object.id objects
  have hNests :=
    forall_items_iff
      (fun v => v.nesting ≤ platform.dumpDepth) hCovers
  have hStores := forall_items_iff RawDataFits hCovers
  constructor
  · intro hWritable
    refine
      ⟨?_, (completedJob_check_iff objects hUrl).mp
        hWritable.job⟩
    have hNesting := hNests.mp hWritable.items.1
    have hStored :=
      hStores.mp
        (fun i hi =>
          (itemCheck_iff (hCovers.validated i hi)).mp
            (hWritable.items.2.2 i hi))
    have hIssues :=
      (forall_issues_iff hCovers).mp
        (fun i hi =>
          (issueCheck_iff i).mp
            (hWritable.issues.2 i hi))
    intro o ho
    exact
      ⟨(hStored o ho).1, hNesting o ho, (hStored o ho).2,
        hIssues o ho⟩
  · rintro ⟨hObjects, hCounts⟩
    refine
      ⟨⟨?_, freshItems_collect hFresh objects, ?_⟩,
        ⟨freshIssues_collect hFresh objects, ?_⟩,
        (completedJob_check_iff objects hUrl).mpr hCounts⟩
    · exact
        hNests.mpr (fun o ho => (hObjects o ho).nesting)
    · intro i hi
      apply (itemCheck_iff (hCovers.validated i hi)).mpr
      exact
        hStores.mpr
          (fun o ho =>
            ⟨(hObjects o ho).type,
              (hObjects o ho).storable⟩)
          i hi
    · intro i hi
      exact
        (issueCheck_iff i).mpr
          ((forall_issues_iff hCovers).mpr
            (fun o ho => (hObjects o ho).issues) i hi)

------------------------------------------------------------
-- Whole Runs
------------------------------------------------------------

section Runs

variable {row : ValidationJob} {html : String}

/- The run has ended as the page lets it. -/
def EndsAsFits
    (platform : Platform)
    (job : JobId)
    (html : String)
    (outcome : ProcessOutcome)
    (s : Store Db Empty) : Prop :=
  (PageFits platform html ∧ outcome = .status .completed ∧
      ∃ objects, extractAll platform html = .ok objects ∧
        (s.committed.liveItems job).map
            (fun i => (i.format, i.rawData)) =
          objects) ∨
    (¬ PageFits platform html ∧
      outcome ≠ .status .completed)

/- The handler ends the run without a success. -/
theorem ends_failJob
    {e : Exc}
    (hReady : Settled d s)
    (hMisfit : ¬ PageFits platform html) :
    (failJob object e).Ends
      ((backend platform.dumpDepth).alone 0 noAnswers)
      (EndsAsFits platform job html)
      (fun _ _ => ¬ PageFits platform html) s := by
  have hVerdict :
      (∃ f, plan platform.dumpDepth
          (.saveJobFields
            { object with
              status := .failed
              errorMessage := some e.str }
            [.status, .errorMessage]) d =
          .done () none f) ∨
        (plan platform.dumpDepth
          (.saveJobFields
            { object with
              status := .failed
              errorMessage := some e.str }
            [.status, .errorMessage]) d).Raises := by
    simp only [plan]
    split
    · exact Or.inr (Or.inl ⟨_, rfl⟩)
    · rcases writeIf_verdict _ _ with hDone | hRaises
      · exact Or.inl ⟨_, hDone.2⟩
      · exact Or.inr hRaises.2
  unfold failJob
  apply Prog.ends_bind
  rcases hVerdict with ⟨f, hDone⟩ | hRaises
  · apply Backend.ends_done hReady rfl hDone
    intro s' _
    exact Or.inr ⟨hMisfit, by decide⟩
  · apply Backend.ends_raises hReady rfl hRaises
    intro e' s' _
    exact hMisfit

/- The `try` statement completes if the page fits. -/
theorem ends_validatePage
    (hReady : Settled d s)
    (hJob : object.id = job)
    (hSound : d.Sound)
    (hFresh : run.Fresh d)
    (hUrl : fitsChar 2048 object.url = true)
    (hPage : run.client object.url = .text html) :
    ((validatePage platform run object).tryCatch
        (failJob object)).Ends
      ((backend platform.dumpDepth).alone 0 noAnswers)
      (EndsAsFits platform job html)
      (fun _ _ => ¬ PageFits platform html) s := by
  apply Prog.ends_handle
  unfold validatePage fetchPage
  simp only [hPage]
  cases hObjects : extractAll platform html with
  | error e =>
      have hMisfit : ¬ PageFits platform html := by
        rintro ⟨objects, hOk, _⟩
        rw [hObjects] at hOk
        cases hOk
      simp only [Prog.ofExcept, bind, Prog.bind,
        Prog.handle_ret, hObjects]
      exact ends_failJob hReady hMisfit
  | ok objects =>
      have hFits :
          Writable platform.dumpDepth d
              (collectFindings platform run object.id objects)
              (completedJob object objects
                (collectFindings platform run object.id objects)) ↔
            PageFits platform html := by
        rw [writable_iff objects hFresh hUrl]
        constructor
        · intro hAll
          exact ⟨objects, hObjects, hAll⟩
        · rintro ⟨objects', hOk, hAll⟩
          rw [hObjects] at hOk
          cases hOk
          exact hAll
      simp only [Prog.ofExcept, bind, Prog.bind,
        Prog.handle_ret, hObjects]
      apply Prog.ends_handle
      have hStore :=
        ends_storeFindings platform
          (collectFindings platform run object.id objects)
          (completedJob object objects
            (collectFindings platform run object.id objects))
          (rfl : _ = object.id) hReady
      apply Prog.ends_mono hStore
      · rintro a s' ⟨hWritable, hReady'⟩
        refine
          Or.inl
            ⟨hFits.mp hWritable, rfl, objects, hObjects, ?_⟩
        rw [hReady'.at'.committed, ← hJob]
        exact
          (reflects_replaceResult hSound
            hWritable.items.2.1).items
      · rintro e s' ⟨hNot, hReady'⟩
        exact
          ends_failJob hReady'
            (fun hPageFits => hNot (hFits.mpr hPageFits))

/- The run completes if the page fits. -/
theorem ends_processValidation
    (hReady : Settled d s)
    (hSound : d.Sound)
    (hFresh : run.Fresh d)
    (hFind : d.find job = some row)
    (hShown : row.isDeleted = false)
    (hRow : row.check = .ok ())
    (hPage : run.client row.url = .text html) :
    (processValidation platform run job).Ends
      ((backend platform.dumpDepth).alone 0 noAnswers)
      (EndsAsFits platform job html)
      (fun _ _ => ¬ PageFits platform html) s := by
  have hId : row.id = job := Table.key_of_find hFind
  have hGet :
      plan platform.dumpDepth (.getJob job) d =
        .done row none id := by
    simp [plan, hFind, hShown, Verdict.read, Option.filter]
  let working := { row with status := .processing }
  have hWorking :
      (working.assign [.status] row).check = .ok () := by
    have hStatus :
        fitsChar 20 ValidationStatus.processing.value =
          true := by decide
    simp only [ValidationJob.check, check_bind_eq_ok,
      charColumn_eq_ok, integerColumn_eq_ok] at hRow
    simpa [ValidationJob.check, ValidationJob.assign,
      working, hStatus] using ⟨hRow.1, hRow.2.2⟩
  have hSave :
      plan platform.dumpDepth
          (.saveJobFields working [.status]) d =
        .done () none
          (fun d =>
            { d with
              jobs :=
                Table.update ValidationJob.id working.id
                  (working.assign [.status]) d.jobs }) := by
    have hFound : d.find working.id = some row := by
      rw [← hFind, ← hId]
    simp only [plan, hFound, writeIf, hWorking]
  apply Prog.ends_handle
  apply Backend.ends_done hReady rfl hGet
  intro s₁ hReady₁
  apply Prog.ends_bind
  apply Backend.ends_done hReady₁ rfl hSave
  intro s₂ hReady₂
  apply ends_validatePage hReady₂ hId
  · exact
      { jobs := Table.keyed_update (fun _ h => h) hSound.jobs
        items := hSound.items
        issues := hSound.issues }
  · exact
      ⟨hFresh.itemIds, hFresh.issueIds, hFresh.items,
        hFresh.issues⟩
  · have hUrl := hRow
    simp only [ValidationJob.check, check_bind_eq_ok,
      charColumn_eq_ok] at hUrl
    exact hUrl.1
  · exact hPage

/-
  The undisturbed run of the job returns `completed` and has
  stored one item for each extracted object.
-/
def Completes
    (platform : Platform)
    (run : Delivery)
    (job : JobId)
    (html : String)
    (d : Db) : Prop :=
  ∃ objects s,
    (processValidation platform run job).run
        ((backend platform.dumpDepth).alone 0 noAnswers)
        (Store.quiet d) =
      some (.ok (.status .completed), s) ∧
      extractAll platform html = .ok objects ∧
        (s.committed.liveItems job).map
            (fun i => (i.format, i.rawData)) =
          objects

/- A run that completes has met a page that fits. -/
theorem fits_of_completes
    (hSound : d.Sound)
    (hFresh : run.Fresh d)
    (hFind : d.find job = some row)
    (hShown : row.isDeleted = false)
    (hRow : row.check = .ok ())
    (hPage : run.client row.url = .text html)
    (hCompletes : Completes platform run job html d) :
    PageFits platform html := by
  have hEnds :=
    Prog.run_of_ends
      (ends_processValidation Store.ready_quiet hSound
        hFresh hFind hShown hRow hPage :
        (processValidation platform run job).Ends _ _ _ _)
  rcases hCompletes with ⟨objects, s, hRun, _⟩
  rcases hEnds with
    ⟨outcome, s', hRun', hFits | hMisfits⟩ |
      ⟨e, s', hRun', _⟩
  · exact hFits.1
  · rw [hRun] at hRun'
    cases hRun'
    exact absurd rfl hMisfits.2
  · rw [hRun] at hRun'
    cases hRun'

/- The run completes on a page that fits. -/
theorem completes_of_fits
    (hSound : d.Sound)
    (hFresh : run.Fresh d)
    (hFind : d.find job = some row)
    (hShown : row.isDeleted = false)
    (hRow : row.check = .ok ())
    (hPage : run.client row.url = .text html)
    (hFits : PageFits platform html) :
    Completes platform run job html d := by
  have hEnds :=
    Prog.run_of_ends
      (ends_processValidation Store.ready_quiet hSound
        hFresh hFind hShown hRow hPage :
        (processValidation platform run job).Ends _ _ _ _)
  rcases hEnds with
    ⟨outcome, s', hRun', hDone | hMisfits⟩ |
      ⟨e, s', hRun', hMisfit⟩
  · rcases hDone.2 with ⟨rfl, objects, hObjects, hItems⟩
    exact ⟨objects, s', hRun', hObjects, hItems⟩
  · exact absurd hFits hMisfits.1
  · exact absurd hFits hMisfit

end Runs

------------------------------------------------------------
-- Pages With One Type
------------------------------------------------------------

/- Every page has one JSON-LD object of the type. -/
def typedPlatform (type : TypeName) : Platform where
  python := cpython
  soup := fun _ => jsonLdDocument ⟨type, .nil⟩
  repr := fun _ => ""
  dumpDepth := 900

/- The request for the page succeeds. -/
def typedRun : Delivery where
  client := fun _ => .text ""
  itemId := fun i => i
  issueId := fun i => i

def newJob : ValidationJob where
  id := 0
  user := 0
  url := "https://example.com/"
  status := .pending
  totalSchemasFound := 0
  totalErrors := 0
  totalWarnings := 0
  hasJsonLd := false
  hasMicrodata := false
  hasRdfa := false
  errorMessage := none
  isDeleted := false

def newJobDb : Db where
  jobs := [newJob]
  items := []
  issues := []

theorem sound_newJobDb : newJobDb.Sound where
  jobs := List.nodup_singleton _
  items := List.nodup_nil
  issues := fun _ hMem => by cases hMem

theorem fresh_typedRun : typedRun.Fresh newJobDb where
  itemIds := fun _ _ hSame => hSame
  issueIds := fun _ _ hSame => hSame
  items := fun _ _ hMem => by cases hMem
  issues := fun _ _ hMem => by cases hMem

theorem extractAll_typed
    (type : TypeName) :
    extractAll (typedPlatform type) "" =
      .ok
        [(.jsonLd, .obj [("@type", .str type.name)])] := by
  let item : Item := ⟨type, .nil⟩
  have hNesting : item.toJson.nesting ≤ 900 := by
    change 1 ≤ 900
    decide
  have hJsonLd :
      extractJsonLd cpython (jsonLdDocument item) =
        .ok [.obj [("@type", .str type.name)]] :=
    extractJsonLd_renders (rendersJsonLd_dumps hNesting)
  simp only [extractAll, typedPlatform]
  rw [hJsonLd]
  rfl

def thingType : TypeName := ⟨"Thing", by decide +kernel⟩

theorem pageFits_thing :
    PageFits (typedPlatform thingType) "" := by
  refine ⟨_, extractAll_typed thingType, ?_, ?_⟩
  · intro o ho
    rw [List.mem_singleton.mp ho]
    constructor
    · intro name hName
      cases hName
      decide
    · decide
    · decide
    · intro issue hIssue
      have hNoRule : issue = noRuleIssue "Thing" :=
        List.mem_singleton.mp hIssue
      subst hNoRule
      refine ⟨by decide, by decide, ?_⟩
      intro text hText
      cases hText
  · exact ⟨by decide, by decide, by decide⟩

theorem completes_typedRun :
    Completes (typedPlatform thingType) typedRun 0 ""
      newJobDb :=
  completes_of_fits sound_newJobDb fresh_typedRun rfl rfl
    rfl rfl pageFits_thing

/- A name of 101 letters. -/
def longType : TypeName :=
  ⟨String.ofList (List.replicate 101 'A'),
    by decide +kernel⟩

end SiteAnalysis.Validator
