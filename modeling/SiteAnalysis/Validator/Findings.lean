import SiteAnalysis.Validator.Service

/-
  This file proves what the loop over the extracted objects
  builds, and what is stored after it has replaced an earlier
  result.

  Key definitions include:
    * `Findings.Covers`
    * `Reflects`
    * `replaceResult`

  Key theorems include:
    * `covers_collect`
    * `reflects_replaceResult`
    * `sound_replaceResult`
-/

------------------------------------------------------------
-- Collected Findings
------------------------------------------------------------

namespace SiteAnalysis.Validator

open Concurrency
open Relational
open Python

/- The issue has the severity. -/
def hasSeverity
    (severity : IssueSeverity)
    (issue : SchemaIssue) : Bool :=
  issue.severity = severity

/- The issues of an item, with the item that they are of. -/
def issuesOf
    (platform : Platform)
    (item : SchemaItem) : List (ItemId × Issue) :=
  (validateObject platform item.rawData).issues.map
    (fun issue => (item.id, issue))

/- The item carries what validation says of its object. -/
def SchemaItem.Validated
    (platform : Platform)
    (item : SchemaItem) : Prop :=
  let result := validateObject platform item.rawData
  item.schemaType = result.schemaType ∧
    item.isValid = result.isValid ∧
      item.richResultEligible = result.richResultEligible

/- The findings are those of the objects. -/
structure Findings.Covers
    (platform : Platform)
    (job : JobId)
    (found : Findings)
    (objects : List (SchemaFormat × Json)) : Prop where
  objects :
    found.items.map (fun i => (i.format, i.rawData)) =
      objects
  live : ∀ item ∈ found.items, item.isLive job = true
  validated :
    ∀ item ∈ found.items, item.Validated platform
  issues :
    found.issues.map (fun s => (s.schemaItem, s.toIssue)) =
      found.items.flatMap (issuesOf platform)
  errors :
    found.totalErrors =
      found.issues.countP (hasSeverity .error)
  warnings :
    found.totalWarnings =
      found.issues.countP (hasSeverity .warning)

variable {platform : Platform} {run : Delivery}
variable {job : JobId} {found : Findings}
variable {objects done : List (SchemaFormat × Json)}

/- Issues are added behind the earlier ones. -/
theorem addIssues_issues
    (item : ItemId)
    (issues : List Issue) :
    (issues.foldl (Findings.addIssue run item)
        found).issues.map
          (fun s => (s.schemaItem, s.toIssue)) =
      found.issues.map
          (fun s => (s.schemaItem, s.toIssue)) ++
        issues.map (fun issue => (item, issue)) := by
  induction issues generalizing found with
  | nil => simp
  | cons issue issues ih =>
      rw [List.foldl_cons, ih]
      simp [Findings.addIssue]

theorem addIssues_items
    (item : ItemId)
    (issues : List Issue) :
    (issues.foldl (Findings.addIssue run item)
      found).items = found.items := by
  induction issues generalizing found with
  | nil => rfl
  | cons issue issues ih =>
      rw [List.foldl_cons, ih]
      rfl

/- The counters count the issues. -/
theorem addIssues_totals
    (run : Delivery)
    (found : Findings)
    (item : ItemId)
    (issues : List Issue)
    (hErrors :
      found.totalErrors =
        found.issues.countP (hasSeverity .error))
    (hWarnings :
      found.totalWarnings =
        found.issues.countP (hasSeverity .warning)) :
    let after :=
      issues.foldl (Findings.addIssue run item) found
    after.totalErrors =
        after.issues.countP (hasSeverity .error) ∧
      after.totalWarnings =
        after.issues.countP (hasSeverity .warning) := by
  induction issues generalizing found with
  | nil => exact ⟨hErrors, hWarnings⟩
  | cons issue issues ih =>
      apply ih
      · by_cases hError : issue.severity = .error
        · simp [Findings.addIssue, hError, hErrors,
            hasSeverity, List.countP_append]
        · simp [Findings.addIssue, hError, hErrors,
            hasSeverity, List.countP_append]
      · by_cases hWarning : issue.severity = .warning
        · simp [Findings.addIssue, hWarning, hWarnings,
            hasSeverity, List.countP_append]
        · simp [Findings.addIssue, hWarning, hWarnings,
            hasSeverity, List.countP_append]

theorem covers_empty :
    Findings.empty.Covers platform job [] where
  objects := rfl
  live := fun _ hMem => by cases hMem
  validated := fun _ hMem => by cases hMem
  issues := rfl
  errors := rfl
  warnings := rfl

/- One more object is covered. -/
theorem covers_addObject
    (run : Delivery)
    (hCovers : found.Covers platform job done)
    (object : SchemaFormat × Json) :
    (found.addObject platform run job object).Covers
      platform job (done ++ [object]) := by
  unfold Findings.addObject
  have hTotals :=
    addIssues_totals run
      { found with
        items :=
          found.items ++
            [Findings.newItem platform job
              (run.itemId found.items.length) object] }
      (run.itemId found.items.length)
      (validateObject platform object.2).issues
      hCovers.errors hCovers.warnings
  refine ⟨?_, ?_, ?_, ?_, hTotals.1, hTotals.2⟩
  · rw [addIssues_items, List.map_append, hCovers.objects]
    rfl
  · rw [addIssues_items]
    intro item hMem
    rcases List.mem_append.mp hMem with hOld | hNew
    · exact hCovers.live item hOld
    · rw [List.mem_singleton.mp hNew]
      simp [SchemaItem.isLive, Findings.newItem]
  · rw [addIssues_items]
    intro item hMem
    rcases List.mem_append.mp hMem with hOld | hNew
    · exact hCovers.validated item hOld
    · rw [List.mem_singleton.mp hNew]
      exact ⟨rfl, rfl, rfl⟩
  · rw [addIssues_issues, addIssues_items, hCovers.issues,
      List.flatMap_append]
    simp [issuesOf, Findings.newItem]

/- The loop covers all the objects. -/
theorem covers_collect
    (platform : Platform)
    (run : Delivery)
    (job : JobId)
    (objects : List (SchemaFormat × Json)) :
    (collectFindings platform run job objects).Covers platform job
      objects := by
  have hAll :
      ∀ found done, Findings.Covers platform job found done →
        (objects.foldl (Findings.addObject platform run job)
          found).Covers platform job (done ++ objects) := by
    induction objects with
    | nil =>
        intro found done hCovers
        simpa using hCovers
    | cons object objects ih =>
        intro found done hCovers
        have hNext :=
          ih _ _ (covers_addObject run hCovers object)
        simpa using hNext
  exact hAll _ [] covers_empty

------------------------------------------------------------
-- Stored Results
------------------------------------------------------------

/- The stored result of the job is that of the objects. -/
structure Reflects
    (platform : Platform)
    (job : JobId)
    (objects : List (SchemaFormat × Json))
    (d : Db) : Prop where
  items :
    (d.liveItems job).map (fun i => (i.format, i.rawData)) =
      objects
  validated :
    ∀ item ∈ d.liveItems job, item.Validated platform
  issues :
    (d.liveIssues job).map
        (fun s => (s.schemaItem, s.toIssue)) =
      (d.liveItems job).flatMap (issuesOf platform)
  row :
    ∃ row, d.find job = some row ∧
      row.totalSchemasFound = (d.liveItems job).length ∧
      row.totalErrors =
        (d.liveIssues job).countP (hasSeverity .error) ∧
      row.totalWarnings =
        (d.liveIssues job).countP (hasSeverity .warning) ∧
      row.hasJsonLd = hasFormat .jsonLd objects ∧
      row.hasMicrodata = hasFormat .microdata objects ∧
      row.hasRdfa = hasFormat .rdfa objects

/- The four statements of the transaction. -/
def replaceResult
    (found : Findings)
    (completed : ValidationJob)
    (d : Db) : Db where
  jobs := Table.put ValidationJob.id completed d.jobs
  items := (removeItems completed.id d).items ++ found.items
  issues :=
    (removeItems completed.id d).issues ++ found.issues

variable {d : Db} {completed : ValidationJob}

/- The job is stored with its result. -/
theorem find_replaceResult
    (found : Findings)
    (completed : ValidationJob)
    (d : Db) :
    (replaceResult found completed d).find completed.id =
      some completed :=
  Table.find_put_self

/- The new items are all that is shown of the job. -/
theorem liveItems_replaceResult
    (d : Db)
    (completed : ValidationJob)
    (hLive :
      ∀ item ∈ found.items, item.isLive completed.id = true) :
    (replaceResult found completed d).liveItems
      completed.id = found.items := by
  have hOld :
      (d.items.filter
        (fun i => !i.isLive completed.id)).filter
          (SchemaItem.isLive completed.id) = [] := by
    rw [List.filter_filter, List.filter_eq_nil_iff]
    intro item _
    cases item.isLive completed.id <;> simp
  rw [Db.liveItems, replaceResult, List.filter_append,
    removeItems, hOld, List.nil_append,
    List.filter_eq_self.mpr hLive]

/- Every new issue is of a new item. -/
theorem issueOf_of_covers
    (hCovers : found.Covers platform job objects)
    {issue : SchemaIssue}
    (hMem : issue ∈ found.issues) :
    ∃ item ∈ found.items, item.id = issue.schemaItem := by
  have hPair :
      (issue.schemaItem, issue.toIssue) ∈
        found.items.flatMap (issuesOf platform) := by
    rw [← hCovers.issues]
    exact
      List.mem_map_of_mem
        (f := fun s : SchemaIssue =>
          (s.schemaItem, s.toIssue))
        hMem
  rcases List.mem_flatMap.mp hPair with ⟨item, hItem, hIn⟩
  rcases List.mem_map.mp hIn with ⟨_, _, hEq⟩
  exact ⟨item, hItem, congrArg Prod.fst hEq⟩

/- An issue that is kept is of an item that is kept. -/
theorem item_of_kept
    (hSound : d.Sound)
    {issue : SchemaIssue}
    (hMem : issue ∈ (removeItems job d).issues) :
    ∃ item ∈ (removeItems job d).items,
      item.id = issue.schemaItem := by
  rw [removeItems, List.mem_filter] at hMem
  rcases hSound.issues issue hMem.1 with ⟨item, hItem, hId⟩
  refine ⟨item, ?_, hId⟩
  rw [removeItems, List.mem_filter]
  refine ⟨hItem, ?_⟩
  by_contra hLive
  have hShown : item ∈ d.liveItems job := by
    rw [Db.liveItems, List.mem_filter]
    exact ⟨hItem, by simpa using hLive⟩
  have hOf : Db.issueOf (d.liveItems job) issue = true := by
    rw [Db.issueOf, List.any_eq_true]
    exact ⟨item, hShown, by simpa using hId⟩
  rw [hOf] at hMem
  cases hMem.2

/- The new issues are all that is shown of the job. -/
theorem liveIssues_replaceResult
    (completed : ValidationJob)
    (hSound : d.Sound)
    (hCovers : found.Covers platform completed.id objects)
    (hFresh :
      FreshKeys SchemaItem.id
        (removeItems completed.id d).items found.items) :
    (replaceResult found completed d).liveIssues
      completed.id = found.issues := by
  rw [Db.liveIssues, liveItems_replaceResult d completed hCovers.live,
    replaceResult, List.filter_append]
  have hOld :
      (removeItems completed.id d).issues.filter
        (Db.issueOf found.items) = [] := by
    rw [List.filter_eq_nil_iff]
    intro issue hMem hOf
    rw [Db.issueOf, List.any_eq_true] at hOf
    rcases hOf with ⟨new, hNew, hId⟩
    rcases item_of_kept hSound hMem with
      ⟨old, hOldMem, hOldId⟩
    have hNone := hFresh.2 new hNew
    rw [Table.find_eq_none_iff] at hNone
    exact
      hNone old hOldMem
        (hOldId.trans (of_decide_eq_true hId).symm)
  rw [hOld, List.nil_append, List.filter_eq_self]
  intro issue hMem
  rcases issueOf_of_covers hCovers hMem with
    ⟨item, hItem, hId⟩
  rw [Db.issueOf, List.any_eq_true]
  exact ⟨item, hItem, by simpa using hId⟩

/- The transaction keeps the keys of the tables. -/
theorem sound_replaceResult
    (hSound : d.Sound)
    (hCovers : found.Covers platform completed.id objects)
    (hFresh :
      FreshKeys SchemaItem.id
        (removeItems completed.id d).items found.items) :
    (replaceResult found completed d).Sound where
  jobs := Table.keyed_put hSound.jobs
  items := by
    rw [replaceResult, Table.Keyed, List.map_append]
    apply List.Nodup.append _ hFresh.1
    · intro key hOld hNew
      rcases List.mem_map.mp hOld with ⟨old, hOldMem, rfl⟩
      rcases List.mem_map.mp hNew with ⟨new, hNewMem, hId⟩
      have hNone := hFresh.2 new hNewMem
      rw [Table.find_eq_none_iff] at hNone
      exact hNone old hOldMem hId.symm
    · exact
        hSound.items.sublist
          (List.filter_sublist.map SchemaItem.id)
  issues := by
    intro issue hMem
    rcases List.mem_append.mp hMem with hOld | hNew
    · rcases item_of_kept hSound hOld with
        ⟨item, hItem, hId⟩
      exact ⟨item, List.mem_append_left _ hItem, hId⟩
    · rcases issueOf_of_covers hCovers hNew with
        ⟨item, hItem, hId⟩
      exact ⟨item, List.mem_append_right _ hItem, hId⟩

/- After the transaction the result is that of the objects. -/
theorem reflects_replaceResult
    {row : ValidationJob}
    (hSound : d.Sound)
    (hFresh :
      FreshKeys SchemaItem.id (removeItems row.id d).items
        (collectFindings platform run row.id objects).items) :
    Reflects platform row.id objects
      (replaceResult (collectFindings platform run row.id objects)
        (completedJob row objects
          (collectFindings platform run row.id objects))
        d) := by
  have hCovers :=
    covers_collect platform run row.id objects
  have hItems :=
    liveItems_replaceResult d
      (completedJob row objects
        (collectFindings platform run row.id objects))
      hCovers.live
  have hIssues :=
    liveIssues_replaceResult
      (completedJob row objects
        (collectFindings platform run row.id objects))
      hSound hCovers hFresh
  change Db.liveItems _ row.id = _ at hItems
  change Db.liveIssues _ row.id = _ at hIssues
  refine ⟨?_, ?_, ?_, ?_⟩
  · rw [hItems]
    exact hCovers.objects
  · rw [hItems]
    exact hCovers.validated
  · rw [hItems, hIssues]
    exact hCovers.issues
  · refine
      ⟨completedJob row objects
          (collectFindings platform run row.id objects),
        ?_, ?_⟩
    · exact find_replaceResult _ _ d
    · rw [hItems, hIssues]
      exact
        ⟨rfl, hCovers.errors, hCovers.warnings, rfl, rfl,
          rfl⟩

end SiteAnalysis.Validator
