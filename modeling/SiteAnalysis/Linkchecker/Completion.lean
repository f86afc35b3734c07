import SiteAnalysis.Linkchecker.Journey
import SiteAnalysis.Linkchecker.Links

/-
  This file proves which pages the check of a crawl job
  completes on when nothing disturbs it but the servers of
  the links.

  Key definitions include:
    * `LinkFits`
    * `PageFits`
    * `Rows`
    * `Completes`

  Key theorems include:
    * `ends_checkLinks`
    * `ends_processLinks`
    * `ends_runLinkCheck`
    * `completes_iff`
-/

------------------------------------------------------------
-- Pages That Fit
------------------------------------------------------------

namespace SiteAnalysis.Linkchecker

open Concurrency
open Relational
open Python Markup

variable {platform : Platform} {run : Delivery}
variable {job : JobId} {d : Db} {s : Store Db Empty}

/- The link can be checked and its result stored. -/
structure LinkFits
    (platform : Platform)
    (run : Delivery)
    (link : Link) : Prop where
  target : fitsChar 2048 link.targetUrl = true
  anchor : fitsChar 500 link.anchorText = true
  journey : JourneyFits platform run link.targetUrl
  elapsed : fitsInteger (run.elapsed link.targetUrl) = true

/-
  All attributes of the page resolve, and the links that are
  checked fit.
-/
structure PageFits
    (platform : Platform)
    (run : Delivery)
    (row : CrawlJob)
    (html : String) : Prop where
  resolves :
    ∀ element ∈ linkElements (platform.soup html),
      Resolves platform row.url
        (rawUrl element.1.2 element.2)
  links :
    ∀ links, extractLinks platform html row.url = .ok links →
      ∀ link ∈ links.take row.maxLinks,
        LinkFits platform run link

------------------------------------------------------------
-- The Pool
------------------------------------------------------------

section Pool

variable {object : CrawlJob}
variable {links : List Link} {futures : List Future}

theorem linkResult_check_iff
    (object : CrawlJob)
    (link : Link)
    (outcome : LinkOutcome)
    (hSource : fitsChar 2048 link.sourceUrl = true) :
    (linkResult object link outcome).check = .ok () ↔
      fitsChar 2048 link.targetUrl = true ∧
        fitsChar 500 link.anchorText = true ∧
          OutcomeFits outcome := by
  have hType : fitsChar 10 link.linkType.value = true := by
    cases link.linkType <;> decide
  have hCategory :
      fitsChar 10 outcome.statusCategory.value = true := by
    cases outcome.statusCategory <;> decide
  simp only [LinkResult.check, linkResult, check_bind_eq_ok,
    charColumn_eq_ok, integerColumn_eq_ok, hSource, hType,
    hCategory, true_and]
  constructor
  · rintro
      ⟨hTarget, hAnchor, hStatus, hElapsed, hUrl, hDetail⟩
    exact
      ⟨hTarget, hAnchor, hStatus, hElapsed, hUrl, hDetail⟩
  · rintro ⟨hTarget, hAnchor, hFits⟩
    exact
      ⟨hTarget, hAnchor, hFits.status, hFits.elapsed,
        hFits.url, hFits.detail⟩

/- The future has a result that can be stored. -/
def FutureFits
    (object : CrawlJob)
    (future : Future) : Prop :=
  ∃ outcome, future.2 = .ok outcome ∧
    (linkResult object future.1 outcome).check = .ok ()

theorem futureFits_checked
    {link : Link}
    {outcome : LinkOutcome}
    (object : CrawlJob)
    (hSource : fitsChar 2048 link.sourceUrl = true)
    (hChecked :
      Checked platform run link.targetUrl d outcome s) :
    FutureFits object (link, .ok outcome) ↔
      LinkFits platform run link := by
  have hRow :
      FutureFits object (link, .ok outcome) ↔
        (linkResult object link outcome).check = .ok () := by
    simp [FutureFits]
  rw [hRow, linkResult_check_iff object link outcome hSource,
    hChecked.1]
  constructor
  · rintro ⟨hTarget, hAnchor, hJourney, hElapsed⟩
    exact ⟨hTarget, hAnchor, hJourney, hElapsed⟩
  · intro hFits
    exact
      ⟨hFits.target, hFits.anchor, hFits.journey,
        hFits.elapsed⟩

theorem futureFits_unchecked
    {link : Link}
    {e : Exc}
    (object : CrawlJob)
    (hUnchecked :
      Unchecked platform run link.targetUrl d e s) :
    FutureFits object (link, .error e) ↔
      LinkFits platform run link := by
  constructor
  · rintro ⟨outcome, hSame, _⟩
    cases hSame
  · intro hFits
    exact absurd hFits.journey hUnchecked.1

/- The futures of links, each with the fate of its link. -/
structure Submitted
    (platform : Platform)
    (run : Delivery)
    (object : CrawlJob)
    (links : List Link)
    (futures : List Future) : Prop where
  links : futures.map Prod.fst = links
  fits :
    ∀ future ∈ futures,
      (FutureFits object future ↔
        LinkFits platform run future.1)

theorem Submitted.cons
    {future : Future}
    (hSubmitted :
      Submitted platform run object links futures)
    (hFits :
      FutureFits object future ↔
        LinkFits platform run future.1) :
    Submitted platform run object (future.1 :: links)
      (future :: futures) where
  links := by
    rw [List.map_cons, hSubmitted.links]
  fits := by
    intro other hMem
    rcases List.mem_cons.mp hMem with hHead | hTail
    · rw [hHead]
      exact hFits
    · exact hSubmitted.fits other hTail

/- The pool waits for all of its futures. -/
theorem ends_runPool
    (object : CrawlJob)
    (hSource :
      ∀ link ∈ links, fitsChar 2048 link.sourceUrl = true)
    (hSettled : Settled d s) :
    (runPool platform links).Ends run.machine
      (fun futures s' =>
        Submitted platform run object links futures ∧
          Settled d s')
      (fun _ _ => False) s := by
  induction links generalizing s with
  | nil =>
      refine ⟨⟨rfl, ?_⟩, hSettled⟩
      intro future hMem
      cases hMem
  | cons link links ih =>
      have hLink := hSource link List.mem_cons_self
      have hRest :=
        fun l hMem => hSource l (List.mem_cons_of_mem _ hMem)
      apply Prog.ends_handle
      apply Prog.ends_mono (ends_checkSingleLink hSettled)
      · intro outcome s₁ hChecked
        apply Prog.ends_bind
        apply Prog.ends_mono (ih hRest hChecked.2)
        · rintro futures s₂ ⟨hSubmitted, hSettled₂⟩
          exact
            ⟨hSubmitted.cons
                (futureFits_checked object hLink hChecked),
              hSettled₂⟩
        · exact fun _ _ hFalse => hFalse
      · intro e s₁ hUnchecked
        apply Prog.ends_bind
        apply Prog.ends_mono (ih hRest hUnchecked.2)
        · rintro futures s₂ ⟨hSubmitted, hSettled₂⟩
          exact
            ⟨hSubmitted.cons
                (futureFits_unchecked object hUnchecked),
              hSettled₂⟩
        · exact fun _ _ hFalse => hFalse

/- The row of a future that has a result. -/
def futureResult
    (object : CrawlJob) : Future → Option LinkResult
| (link, .ok outcome) => some (linkResult object link outcome)
| (_, .error _) => none

/- Only the counters of jobs have changed. -/
def Stable
    (d : Db)
    (s : Store Db Empty) : Prop :=
  ∃ d', Settled d' s ∧ d'.links = d.links

/- The progress of the job is updated. -/
theorem ends_reportProgress
    {checked : Nat}
    {Q : Unit → Store Db Empty → Prop}
    {E : Exc → Store Db Empty → Prop}
    (hBound : checked ≤ 2147483647)
    (hStable : Stable d s)
    (hDone : ∀ s', Stable d s' → Q () s') :
    (reportProgress object checked).Ends run.machine Q E
      s := by
  unfold reportProgress
  split
  · rcases hStable with ⟨d', hSettled, hLinks⟩
    have hColumn : integerColumn checked = .ok () := by
      simp only [integerColumn_eq_ok, fitsInteger,
        decide_eq_true_eq]
      omega
    apply ends_statement hSettled rfl
    · simp only [plan, hColumn, Verdict.writeIf]
      rfl
    · intro s' hSettled'
      exact hDone s' ⟨_, hSettled', hLinks⟩
  · exact hDone s hStable

/- The loop over the futures. -/
theorem ends_collectResults
    {results : List LinkResult}
    {checked : Nat}
    (hBound : checked + futures.length ≤ 2147483647)
    (hStable : Stable d s) :
    (collectResults object futures results checked).Ends
      run.machine
      (fun all s' =>
        (all = results ++
            futures.filterMap (futureResult object) ∧
          ∀ future ∈ futures,
            ∃ outcome, future.2 = .ok outcome) ∧
          Stable d s')
      (fun _ s' =>
        (∃ future ∈ futures, ∃ e, future.2 = .error e) ∧
          Stable d s')
      s := by
  induction futures generalizing results checked s with
  | nil =>
      refine ⟨⟨by simp, ?_⟩, hStable⟩
      intro future hMem
      cases hMem
  | cons future futures ih =>
      rw [List.length_cons] at hBound
      rcases future with ⟨link, outcome | outcome⟩
      · exact
          ⟨⟨_, List.mem_cons_self, outcome, rfl⟩, hStable⟩
      · apply Prog.ends_bind
        apply ends_reportProgress (by omega) hStable
        intro s₁ hStable₁
        apply Prog.ends_mono (ih (by omega) hStable₁)
        · rintro all s₂ ⟨⟨hAll, hOk⟩, hStable₂⟩
          refine ⟨⟨?_, ?_⟩, hStable₂⟩
          · rw [hAll]
            simp [futureResult]
          · intro future hMem
            rcases List.mem_cons.mp hMem with hHead | hTail
            · rw [hHead]
              exact ⟨outcome, rfl⟩
            · exact hOk future hTail
        · rintro e s₂ ⟨⟨future, hMem, hError⟩, hStable₂⟩
          exact
            ⟨⟨future, List.mem_cons_of_mem _ hMem, hError⟩,
              hStable₂⟩

theorem filterMap_range
    (futures : List Future) :
    (List.range futures.length).filterMap
        (fun i => futures[i]?) = futures := by
  induction futures with
  | nil => rfl
  | cons future futures ih =>
      rw [List.length_cons, List.range_succ_eq_map,
        List.filterMap_cons]
      simpa [List.filterMap_map, Function.comp_def] using ih

/- Each future is completed once. -/
theorem perm_completionOrder
    (futures : List Future)
    (order : Order futures.length) :
    (completionOrder futures order).Perm futures := by
  have hPerm :=
    order.property.filterMap (fun i => futures[i]?)
  rwa [filterMap_range] at hPerm

/- The rows of the links, which fit if the links do. -/
structure Rows
    (platform : Platform)
    (run : Delivery)
    (object : CrawlJob)
    (links : List Link)
    (rows : List LinkResult) : Prop where
  targets :
    (rows.map LinkResult.targetUrl).Perm
      (links.map Link.targetUrl)
  owner : ∀ row ∈ rows, row.crawlJob = object.id
  fits :
    (∀ row ∈ rows, row.check = .ok ()) ↔
      ∀ link ∈ links, LinkFits platform run link

/- All futures of the pool have a result. -/
theorem rows_of_futures
    {done : List Future}
    (hSubmitted :
      Submitted platform run object links futures)
    (hPerm : done.Perm futures)
    (hOk :
      ∀ future ∈ done, ∃ outcome, future.2 = .ok outcome) :
    Rows platform run object links
      (done.filterMap (futureResult object)) := by
  have hResult :
      ∀ row, row ∈ done.filterMap (futureResult object) ↔
        ∃ link outcome,
          (link, Except.ok outcome) ∈ done ∧
            row = linkResult object link outcome := by
    intro row
    rw [List.mem_filterMap]
    constructor
    · rintro ⟨⟨link, outcome | outcome⟩, hMem, hRow⟩
      · cases hRow
      · cases hRow
        exact ⟨link, outcome, hMem, rfl⟩
    · rintro ⟨link, outcome, hMem, rfl⟩
      exact ⟨_, hMem, rfl⟩
  have hTargets :
      ∀ futures : List Future,
        (∀ future ∈ futures,
          ∃ outcome, future.2 = .ok outcome) →
          (futures.filterMap (futureResult object)).map
              LinkResult.targetUrl =
            futures.map (fun f => f.1.targetUrl) := by
    intro futures hAll
    induction futures with
    | nil => rfl
    | cons future futures ih =>
        rcases future with ⟨link, r⟩
        rcases hAll _ List.mem_cons_self with
          ⟨outcome, hSame⟩
        cases hSame
        have hRest :=
          ih (fun f hMem =>
            hAll f (List.mem_cons_of_mem _ hMem))
        simp only [List.filterMap_cons, futureResult,
          List.map_cons, hRest]
        rfl
  constructor
  · rw [hTargets done hOk, ← hSubmitted.links, List.map_map]
    exact hPerm.map _
  · intro row hMem
    rcases (hResult row).mp hMem with
      ⟨link, outcome, _, rfl⟩
    rfl
  · rw [← hSubmitted.links]
    constructor
    · intro hChecks link hMem
      rcases List.mem_map.mp hMem with
        ⟨⟨link', r⟩, hFuture, rfl⟩
      rcases hOk _ (hPerm.mem_iff.mpr hFuture) with
        ⟨outcome, hSame⟩
      cases hSame
      apply (hSubmitted.fits _ hFuture).mp
      refine ⟨outcome, rfl, hChecks _ ?_⟩
      exact
        (hResult _).mpr
          ⟨link', outcome, hPerm.mem_iff.mpr hFuture, rfl⟩
    · intro hFits row hMem
      rcases (hResult row).mp hMem with
        ⟨link, outcome, hDone, rfl⟩
      have hFuture := hPerm.mem_iff.mp hDone
      rcases
        (hSubmitted.fits _ hFuture).mpr
          (hFits _ (List.mem_map_of_mem hFuture)) with
        ⟨outcome', hSame, hCheck⟩
      cases hSame
      exact hCheck

/- A future without a result has a link that does not fit. -/
theorem not_fits_of_error
    {done : List Future}
    (hSubmitted :
      Submitted platform run object links futures)
    (hPerm : done.Perm futures)
    (hError :
      ∃ future ∈ done, ∃ e, future.2 = .error e) :
    ¬ ∀ link ∈ links, LinkFits platform run link := by
  intro hFits
  rcases hError with ⟨future, hMem, e, hSame⟩
  have hFuture := hPerm.mem_iff.mp hMem
  have hLink : future.1 ∈ links := by
    rw [← hSubmitted.links]
    exact List.mem_map_of_mem hFuture
  rcases
    (hSubmitted.fits _ hFuture).mpr (hFits _ hLink) with
    ⟨outcome, hOk, _⟩
  rw [hSame] at hOk
  cases hOk

/- The results of the links. -/
theorem ends_checkLinks
    (object : CrawlJob)
    (hSource :
      ∀ link ∈ links, fitsChar 2048 link.sourceUrl = true)
    (hBound : links.length ≤ 2147483647)
    (hSettled : Settled d s) :
    (checkLinks platform object links).Ends run.machine
      (fun rows s' =>
        Rows platform run object links rows ∧ Stable d s')
      (fun _ s' =>
        (¬ ∀ link ∈ links, LinkFits platform run link) ∧
          Stable d s')
      s := by
  unfold checkLinks
  apply Prog.ends_bind
  apply
    Prog.ends_mono (ends_runPool object hSource hSettled)
  · rintro futures s₁ ⟨hSubmitted, hSettled₁⟩
    apply Prog.ends_bind
    let order := run.order futures.length
    have hPerm := perm_completionOrder futures order
    have hLength :
        (completionOrder futures order).length =
          links.length := by
      rw [hPerm.length_eq, ← hSubmitted.links,
        List.length_map]
    apply ends_answered hSettled₁ rfl
    · intro d'
      have hOrder :
          reply (.asCompleted futures.length)
              (.order order.val) d' =
            some (order, d'.request []) := by
        simp only [reply, order.property, dif_pos]
        rw [request_nil]
      exact hOrder
    · intro s₂ hSettled₂
      apply
        Prog.ends_mono
          (ends_collectResults (by omega)
            ⟨d, hSettled₂, rfl⟩)
      · rintro rows s₃ ⟨⟨hRows, hOk⟩, hStable⟩
        refine ⟨?_, hStable⟩
        rw [hRows, List.nil_append]
        exact rows_of_futures hSubmitted hPerm hOk
      · rintro e s₃ ⟨hError, hStable⟩
        exact
          ⟨not_fits_of_error hSubmitted hPerm hError,
            hStable⟩
  · exact fun _ _ hFalse => hFalse.elim

end Pool

------------------------------------------------------------
-- The Task
------------------------------------------------------------

section Task

variable {object row : CrawlJob} {links : List Link}
variable {html : String}

/- The columns of a job that a run does not compute. -/
structure ColumnsFit (row : CrawlJob) : Prop where
  url : fitsChar 2048 row.url = true
  maxLinks : fitsInteger row.maxLinks = true

theorem columnsFit_of_check
    (hCheck : row.check = .ok ()) : ColumnsFit row := by
  simp only [CrawlJob.check, check_bind_eq_ok,
    charColumn_eq_ok, integerColumn_eq_ok] at hCheck
  exact ⟨hCheck.1, hCheck.2.2.2.2.2.2.2.2.1⟩

theorem fitsInteger_le
    {n m : Nat}
    (hMax : fitsInteger m = true)
    (hLe : n ≤ m) : fitsInteger n = true := by
  simp only [fitsInteger, decide_eq_true_eq] at *
  omega

/- Saving the status, or the number of links with it. -/
theorem check_assign_checking
    (object : CrawlJob)
    (hCheck : row.check = .ok ())
    (hCount : fitsInteger links.length = true) :
    ((checkingJob object links).assign
        [.totalLinksFound, .status] row).check =
      .ok () := by
  have hStatus :
      fitsChar 20 CrawlStatus.checkingLinks.value = true := by
    decide
  simp only [CrawlJob.check, check_bind_eq_ok,
    charColumn_eq_ok, integerColumn_eq_ok,
    textColumn_eq_ok] at hCheck
  simpa [CrawlJob.check, CrawlJob.assign, checkingJob,
    hStatus, hCount] using ⟨hCheck.1, hCheck.2.2.2⟩

theorem check_assign_crawling
    (object : CrawlJob)
    (hCheck : row.check = .ok ()) :
    (CrawlJob.assign [.status]
        { object with status := .crawling } row).check =
      .ok () := by
  have hStatus :
      fitsChar 20 CrawlStatus.crawling.value = true := by
    decide
  simp only [CrawlJob.check, check_bind_eq_ok,
    charColumn_eq_ok, integerColumn_eq_ok,
    textColumn_eq_ok] at hCheck
  simpa [CrawlJob.check, CrawlJob.assign, hStatus] using
    ⟨hCheck.1, hCheck.2.2⟩

/- The totals of a run fit their columns. -/
theorem check_completedJob
    {rows : List LinkResult}
    (hFits : ColumnsFit object)
    (hLinks : links.length ≤ object.maxLinks)
    (hRows : rows.length ≤ object.maxLinks) :
    (completedJob (checkingJob object links) rows).check =
      .ok () := by
  have hStatus :
      fitsChar 20 CrawlStatus.completed.value = true := by
    decide
  have hMessage : noNul "" = true := by decide
  have hCounts :
      ∀ category,
        fitsInteger (countCategory category rows) = true := by
    intro category
    apply fitsInteger_le hFits.maxLinks
    exact Nat.le_trans List.countP_le_length hRows
  simp [CrawlJob.check, completedJob, checkingJob,
    hFits.url, hFits.maxLinks, hStatus, hMessage, hCounts,
    fitsInteger_le hFits.maxLinks hLinks,
    fitsInteger_le hFits.maxLinks hRows]

/- The rows of the links and the totals are stored. -/
def CrawlStored
    (platform : Platform)
    (run : Delivery)
    (object : CrawlJob)
    (links : List Link)
    (before : List LinkResult)
    (s : Store Db Empty) : Prop :=
  ∃ d' rows, Settled d' s ∧
    Rows platform run object links rows ∧
      d'.links = before ++ rows ∧
        d'.find object.id =
          some (completedJob (checkingJob object links) rows)

/- A job that is saved is found. -/
theorem find_saved
    (object : CrawlJob)
    (d : Db) :
    Db.find
        { d with
          jobs := Table.put CrawlJob.id object d.jobs }
        object.id = some object :=
  Table.find_put_self

/- A job of which columns are saved by name is found. -/
theorem find_assigned
    (object : CrawlJob)
    (fields : List JobField)
    (hFind : d.find object.id = some row) :
    Db.find
        { d with
          jobs :=
            Table.update CrawlJob.id object.id
              (object.assign fields) d.jobs }
        object.id = some (object.assign fields row) := by
  have hKeep :
      ∀ r : CrawlJob, r.id = object.id →
        (object.assign fields r).id = object.id :=
    fun _ h => h
  have hFound :
      Table.find CrawlJob.id object.id d.jobs = some row :=
    hFind
  rw [Db.find, Table.find_update_self hKeep, hFound]
  rfl

theorem saveJobFields_accepted
    (object : CrawlJob)
    {fields : List JobField}
    (hFind : d.find object.id = some row)
    (hCheck : (object.assign fields row).check = .ok ()) :
    plan (.saveJobFields object fields) d =
      .done () none
        (fun d =>
          { d with
            jobs :=
              Table.update CrawlJob.id object.id
                (object.assign fields) d.jobs }) := by
  simp only [plan, hFind, hCheck, Verdict.writeIf]

/- Rows are created exactly when they all fit. -/
theorem bulkCreate_dichotomy
    (job : JobId)
    (rows : List LinkResult)
    (d : Db) :
    (∀ row ∈ rows, row.check = .ok ()) ∧
        plan (.bulkCreate job rows) d =
          .done () none
            (fun d => { d with links := d.links ++ rows }) ∨
      (¬ ∀ row ∈ rows, row.check = .ok ()) ∧
        (plan (.bulkCreate job rows) d).Raises := by
  rw [← checkRows_eq_ok]
  exact Verdict.writeIf_dichotomy _ _

/- The links are checked and stored if they fit. -/
theorem ends_processLinks
    (hFind : d.find object.id = some row)
    (hRow : row.check = .ok ())
    (hObject : ColumnsFit object)
    (hCount : links.length ≤ object.maxLinks)
    (hSource :
      ∀ link ∈ links, fitsChar 2048 link.sourceUrl = true)
    (hSettled : Settled d s) :
    (processLinks platform object links).Ends run.machine
      (fun outcome s' =>
        outcome = .status .completed ∧
          (∀ link ∈ links, LinkFits platform run link) ∧
            CrawlStored platform run object links d.links
              s')
      (fun _ s' =>
        (¬ ∀ link ∈ links, LinkFits platform run link) ∧
          ∃ d', Settled d' s')
      s := by
  have hMax := hObject.maxLinks
  have hLimit : object.maxLinks ≤ 2147483647 := by
    simp only [fitsInteger, decide_eq_true_eq] at hMax
    omega
  have hChecking :=
    check_assign_checking object hRow
      (fitsInteger_le hMax hCount)
  have hSave :=
    saveJobFields_accepted (checkingJob object links)
      hFind hChecking
  unfold processLinks
  apply Prog.ends_bind
  apply ends_statement hSettled rfl hSave
  intro s₁ hSettled₁
  apply Prog.ends_bind
  apply
    Prog.ends_mono
      (ends_checkLinks (checkingJob object links) hSource
        (Nat.le_trans hCount hLimit) hSettled₁)
  rotate_left
  · rintro e s₂ ⟨hNot, d₂, hSettled₂, _⟩
    exact ⟨hNot, d₂, hSettled₂⟩
  rintro rows s₂ ⟨hRows, d₂, hSettled₂, hLinks⟩
  have hLength : rows.length ≤ object.maxLinks := by
    have hSame := hRows.targets.length_eq
    rw [List.length_map, List.length_map] at hSame
    omega
  apply Prog.ends_bind
  rcases bulkCreate_dichotomy object.id rows d₂ with
    ⟨hChecked, hDone⟩ | ⟨hUnchecked, hRaises⟩
  rotate_left
  · apply ends_raising hSettled₂ rfl hRaises
    intro e s₃ hSettled₃
    refine ⟨?_, _, hSettled₃⟩
    intro hFits
    exact hUnchecked (hRows.fits.mpr hFits)
  apply ends_statement hSettled₂ rfl hDone
  intro s₃ hSettled₃
  apply Prog.ends_bind
  have hCompleted :=
    check_completedJob hObject hCount hLength
  apply ends_statement hSettled₃ rfl
  · simp only [plan, hCompleted, Verdict.writeIf]
    rfl
  intro s₄ hSettled₄
  refine ⟨rfl, ?_, _, rows, hSettled₄, ?_, ?_, ?_⟩
  · exact hRows.fits.mp hChecked
  · exact ⟨hRows.targets, hRows.owner, hRows.fits⟩
  · rw [hLinks]
  · exact find_saved (completedJob _ rows) _

/- What becomes of the `robots.txt` of the page. -/
theorem ends_allowed
    (hSettled : Settled d s) :
    (isAllowedByRobots platform object.url).Ends run.machine
      (fun allowed s' =>
        run.allowed platform object = .ok allowed ∧
          Settled d s')
      (fun e s' =>
        run.allowed platform object = .error e ∧
          Settled d s')
      s := by
  unfold Delivery.allowed isAllowedByRobots
  apply Prog.ends_bind
  cases hParsed :
      fromPython (platform.urlparse object.url) with
  | error e => exact ⟨rfl, hSettled⟩
  | ok parsed =>
      simp only [bind, Except.bind]
      apply Prog.ends_handle
      apply
        Prog.ends_mono (ends_send hSettled rfl (Or.inl rfl))
      · rintro response s₁ ⟨hReceived, hSettled₁⟩
        simp only [hReceived]
        split
        · exact ⟨rfl, hSettled₁⟩
        · cases fromPython
              (platform.canFetch response.text
                object.url) with
          | error e => exact ⟨rfl, hSettled₁⟩
          | ok allowed => exact ⟨rfl, hSettled₁⟩
      · rintro e s₁ ⟨hReceived, hSettled₁⟩
        simp only [hReceived]
        cases e with
        | request kind m => exact ⟨rfl, hSettled₁⟩
        | _ => exact ⟨rfl, hSettled₁⟩

/- `robots.txt` permits the page. -/
theorem ends_isAllowedByRobots
    (hAllowed : run.allowed platform object = .ok true)
    (hSettled : Settled d s) :
    (isAllowedByRobots platform object.url).Ends run.machine
      (fun allowed s' => allowed = true ∧ Settled d s')
      (fun _ _ => False) s := by
  apply Prog.ends_mono (ends_allowed hSettled)
  · rintro allowed s₁ ⟨hSame, hSettled₁⟩
    rw [hAllowed] at hSame
    cases hSame
    exact ⟨rfl, hSettled₁⟩
  · rintro e s₁ ⟨hSame, _⟩
    rw [hAllowed] at hSame
    cases hSame

/- What becomes of the page. -/
theorem ends_html
    (hSettled : Settled d s) :
    (pageHtml platform object).Ends run.machine
      (fun text s' =>
        run.html platform object = .ok text ∧ Settled d s')
      (fun e s' =>
        run.html platform object = .error e ∧ Settled d s')
      s := by
  unfold Delivery.html pageHtml
  by_cases hRender : object.renderJs = true
  · rw [if_pos hRender, if_pos hRender]
    apply Prog.ends_bind
    apply ends_answered hSettled rfl
    · intro d'
      rfl
    · intro s₁ hSettled₁
      cases rendered run.render with
      | error e => exact ⟨rfl, hSettled₁⟩
      | ok text => exact ⟨rfl, hSettled₁⟩
  · rw [if_neg hRender, if_neg hRender]
    apply Prog.ends_bind
    apply
      Prog.ends_mono (ends_send hSettled rfl (Or.inr rfl))
    · rintro response s₁ ⟨hReceived, hSettled₁⟩
      simp only [hReceived, bind, Except.bind]
      apply Prog.ends_bind
      cases raiseForStatus platform object.url response with
      | error e => exact ⟨rfl, hSettled₁⟩
      | ok u => exact ⟨rfl, hSettled₁⟩
    · rintro e s₁ ⟨hReceived, hSettled₁⟩
      simp only [hReceived, bind, Except.bind]
      exact ⟨trivial, hSettled₁⟩

/- The page is fetched. -/
theorem ends_pageHtml
    (hPage : run.html platform object = .ok html)
    (hSettled : Settled d s) :
    (pageHtml platform object).Ends run.machine
      (fun text s' => text = html ∧ Settled d s')
      (fun _ _ => False) s := by
  apply Prog.ends_mono (ends_html hSettled)
  · rintro text s₁ ⟨hSame, hSettled₁⟩
    rw [hPage] at hSame
    cases hSame
    exact ⟨rfl, hSettled₁⟩
  · rintro e s₁ ⟨hSame, _⟩
    rw [hPage] at hSame
    cases hSame

/- The run has ended as the page lets it. -/
def EndsAsFits
    (platform : Platform)
    (run : Delivery)
    (object : CrawlJob)
    (html : String)
    (before : List LinkResult)
    (outcome : CheckOutcome)
    (s : Store Db Empty) : Prop :=
  (PageFits platform run object html ∧
      outcome = .status .completed ∧
        ∃ links,
          extractLinks platform html object.url =
              .ok links ∧
            CrawlStored platform run object
              (links.take object.maxLinks) before s) ∨
    (¬ PageFits platform run object html ∧
      outcome ≠ .status .completed)

/- The handler ends the run without a success. -/
theorem ends_failJob
    {e : Exc}
    (hSettled : Settled d s)
    (hMisfit : ¬ PageFits platform run object html)
    (before : List LinkResult) :
    (failJob object e).Ends run.machine
      (EndsAsFits platform run object html before)
      (fun _ _ => ¬ PageFits platform run object html)
      s := by
  let failed :=
    { object with
      status := .failed
      errorMessage := e.str }
  have hVerdict :
      (∃ f, plan (.saveJobFields failed
          [.status, .errorMessage]) d = .done () none f) ∨
        (plan (.saveJobFields failed
          [.status, .errorMessage]) d).Raises := by
    simp only [plan]
    split
    · exact Or.inr (Or.inl ⟨_, rfl⟩)
    · rcases Verdict.writeIf_dichotomy _ _ with
        hDone | hRaises
      · exact Or.inl ⟨_, hDone.2⟩
      · exact Or.inr hRaises.2
  unfold failJob
  apply Prog.ends_bind
  rcases hVerdict with ⟨f, hDone⟩ | hRaises
  · apply ends_statement hSettled rfl hDone
    intro s' _
    exact Or.inr ⟨hMisfit, by decide⟩
  · apply ends_raising hSettled rfl hRaises
    intro e' s' _
    exact hMisfit

/- The `try` statement completes if the page fits. -/
theorem ends_crawlPage
    (hFind : d.find object.id = some row)
    (hRow : row.check = .ok ())
    (hObject : ColumnsFit object)
    (hAllowed : run.allowed platform object = .ok true)
    (hPage : run.html platform object = .ok html)
    (hSettled : Settled d s) :
    ((crawlPage platform object).tryCatch
        (failJob object)).Ends run.machine
      (EndsAsFits platform run object html d.links)
      (fun _ _ => ¬ PageFits platform run object html)
      s := by
  have hBase :
      ∃ base, platform.urlparse object.url = .ok base := by
    unfold Delivery.allowed at hAllowed
    cases hParsed : platform.urlparse object.url with
    | error e =>
        simp [hParsed, fromPython, bind, Except.bind]
          at hAllowed
    | ok base => exact ⟨base, rfl⟩
  rcases hBase with ⟨base, hBase⟩
  have hIsOk := extractLinks_isOk html hBase
  apply Prog.ends_handle
  unfold crawlPage
  apply Prog.ends_bind
  apply
    Prog.ends_mono
      (ends_isAllowedByRobots hAllowed hSettled)
  rotate_left
  · exact fun _ _ hFalse => hFalse.elim
  rintro allowed s₁ ⟨rfl, hSettled₁⟩
  apply Prog.ends_bind
  apply Prog.ends_bind
  apply Prog.ends_mono (ends_pageHtml hPage hSettled₁)
  rotate_left
  · exact fun _ _ hFalse => hFalse.elim
  rintro text s₂ ⟨rfl, hSettled₂⟩
  apply Prog.ends_bind
  cases hLinks : extractLinks platform text object.url with
  | error e =>
      apply ends_failJob hSettled₂
      intro hFits
      rcases hIsOk.mpr hFits.resolves with ⟨links, hOk⟩
      rw [hLinks] at hOk
      cases hOk
  | ok links =>
      have hExtracted := extracted_of_page hLinks
      have hFits :
          PageFits platform run object text ↔
            ∀ link ∈ links.take object.maxLinks,
              LinkFits platform run link := by
        constructor
        · intro hPageFits
          exact hPageFits.links links hLinks
        · intro hAll
          refine ⟨hIsOk.mp ⟨links, hLinks⟩, ?_⟩
          intro links' hLinks'
          rw [hLinks] at hLinks'
          cases hLinks'
          exact hAll
      have hSource :
          ∀ link ∈ links.take object.maxLinks,
            fitsChar 2048 link.sourceUrl = true := by
        intro link hMem
        rw [(hExtracted.take _).source link hMem]
        exact hObject.url
      apply
        Prog.ends_mono
          (ends_processLinks hFind hRow hObject
            (List.length_take_le _ _) hSource hSettled₂)
      · rintro outcome s₃ ⟨hOutcome, hAll, hStored⟩
        exact
          Or.inl
            ⟨hFits.mpr hAll, hOutcome, links, hLinks,
              hStored⟩
      · rintro e s₃ ⟨hNot, d₃, hSettled₃⟩
        exact
          ends_failJob hSettled₃
            (fun hPageFits => hNot (hFits.mp hPageFits))
            d.links

/- The job while its page is fetched. -/
abbrev crawling (row : CrawlJob) : CrawlJob :=
  { row with status := .crawling }

/- The run completes if the page fits. -/
theorem ends_runLinkCheck
    (hFind : d.find job = some row)
    (hShown : row.isDeleted = false)
    (hRow : row.check = .ok ())
    (hAllowed : run.allowed platform row = .ok true)
    (hPage : run.html platform row = .ok html)
    (hSettled : Settled d s) :
    (runLinkCheck platform job).Ends run.machine
      (EndsAsFits platform run (crawling row) html d.links)
      (fun _ _ =>
        ¬ PageFits platform run (crawling row) html)
      s := by
  have hId : row.id = job := Table.key_of_find hFind
  subst hId
  have hGet :
      plan (.getJob row.id) d = .done row none id := by
    simp [plan, hFind, hShown, Verdict.read, Option.filter]
  have hCrawling := check_assign_crawling row hRow
  have hSave :=
    saveJobFields_accepted (crawling row) hFind hCrawling
  have hFind' :=
    find_assigned (crawling row) [.status] hFind
  apply Prog.ends_handle
  apply ends_statement hSettled rfl hGet
  intro s₁ hSettled₁
  apply Prog.ends_bind
  apply ends_statement hSettled₁ rfl hSave
  intro s₂ hSettled₂
  have hFits := columnsFit_of_check hRow
  have hEnds :=
    ends_crawlPage hFind' hCrawling
      ⟨hFits.url, hFits.maxLinks⟩ hAllowed hPage hSettled₂
  exact hEnds

/-
  The undisturbed run of the job returns `completed`; the job
  is completed, and it has one more result for each of the
  destinations, which are distinct.
-/
def Completes
    (platform : Platform)
    (run : Delivery)
    (row : CrawlJob)
    (html : String)
    (d : Db) : Prop :=
  ∃ links rows stored s,
    (runLinkCheck platform row.id).run run.machine
        (Store.quiet d) =
      some (.ok (.status .completed), s) ∧
      extractLinks platform html row.url = .ok links ∧
        s.committed.find row.id = some stored ∧
          stored.status = .completed ∧
            s.committed.links = d.links ++ rows ∧
              (∀ r ∈ rows, r.crawlJob = row.id) ∧
                (rows.map LinkResult.targetUrl).Perm
                    ((links.take row.maxLinks).map
                      Link.targetUrl) ∧
                  (rows.map LinkResult.targetUrl).Nodup

theorem pageFits_crawling :
    PageFits platform run (crawling row) html ↔
      PageFits platform run row html := by
  constructor
  · intro hFits
    exact ⟨hFits.resolves, hFits.links⟩
  · intro hFits
    exact ⟨hFits.resolves, hFits.links⟩

theorem settled_quiet
    (d : Db) : Settled d (Store.quiet d) := by
  refine ⟨[], ?_⟩
  rw [request_nil]
  exact Store.ready_quiet

/- A run that completes has met a page that fits. -/
theorem fits_of_completes
    (hFind : d.find row.id = some row)
    (hShown : row.isDeleted = false)
    (hRow : row.check = .ok ())
    (hAllowed : run.allowed platform row = .ok true)
    (hPage : run.html platform row = .ok html)
    (hCompletes : Completes platform run row html d) :
    PageFits platform run row html := by
  have hEnds :=
    Prog.run_of_ends
      (ends_runLinkCheck hFind hShown hRow hAllowed hPage
        (settled_quiet d))
  rcases hCompletes with ⟨links, rows, stored, s, hRun, _⟩
  rcases hEnds with
    ⟨outcome, s', hRun', hFits | hMisfits⟩ |
      ⟨e, s', hRun', _⟩
  · exact pageFits_crawling.mp hFits.1
  · rw [hRun] at hRun'
    cases hRun'
    exact absurd rfl hMisfits.2
  · rw [hRun] at hRun'
    cases hRun'

/- On a page that fits the run stores its results. -/
theorem stored_of_fits
    (hFind : d.find row.id = some row)
    (hShown : row.isDeleted = false)
    (hRow : row.check = .ok ())
    (hAllowed : run.allowed platform row = .ok true)
    (hPage : run.html platform row = .ok html)
    (hFits : PageFits platform run row html) :
    ∃ links s,
      (runLinkCheck platform row.id).run run.machine
          (Store.quiet d) =
        some (.ok (.status .completed), s) ∧
        extractLinks platform html row.url = .ok links ∧
          CrawlStored platform run (crawling row)
            (links.take row.maxLinks) d.links s := by
  have hEnds :=
    Prog.run_of_ends
      (ends_runLinkCheck hFind hShown hRow hAllowed hPage
        (settled_quiet d))
  have hFits' := pageFits_crawling.mpr hFits
  rcases hEnds with
    ⟨outcome, s, hRun, hDone | hMisfits⟩ |
      ⟨e, s, hRun, hMisfit⟩
  · rcases hDone.2 with ⟨rfl, links, hLinks, hStored⟩
    exact ⟨links, s, hRun, hLinks, hStored⟩
  · exact absurd hFits' hMisfits.1
  · exact absurd hFits' hMisfit

/- The run completes on a page that fits. -/
theorem completes_of_fits
    (hFind : d.find row.id = some row)
    (hShown : row.isDeleted = false)
    (hRow : row.check = .ok ())
    (hAllowed : run.allowed platform row = .ok true)
    (hPage : run.html platform row = .ok html)
    (hFits : PageFits platform run row html) :
    Completes platform run row html d := by
  rcases
    stored_of_fits hFind hShown hRow hAllowed hPage hFits
    with
    ⟨links, s, hRun, hLinks, d', rows, hSettled, hRows,
      hStored, hFound⟩
  rcases hSettled with ⟨urls, hReady⟩
  have hData := hReady.at'.committed
  refine
    ⟨links, rows,
      completedJob
        (checkingJob (crawling row)
          (links.take row.maxLinks))
        rows,
      s, hRun, hLinks, ?_, rfl, ?_, hRows.owner,
      hRows.targets, ?_⟩
  · rw [hData]
    exact hFound
  · rw [hData]
    exact hStored
  · rw [hRows.targets.nodup_iff]
    exact ((extracted_of_page hLinks).take _).targets

/-
  When the page is permitted and fetched, the run completes
  exactly when the page fits.
-/
theorem completes_iff
    (hFind : d.find row.id = some row)
    (hShown : row.isDeleted = false)
    (hRow : row.check = .ok ())
    (hAllowed : run.allowed platform row = .ok true)
    (hPage : run.html platform row = .ok html) :
    Completes platform run row html d ↔
      PageFits platform run row html := by
  constructor
  · exact
      fits_of_completes hFind hShown hRow hAllowed hPage
  · exact
      completes_of_fits hFind hShown hRow hAllowed hPage

end Task

------------------------------------------------------------
-- Pages With One Link
------------------------------------------------------------

/- Every page has one link, on the one host there is. -/
def linkPlatform (href : String) : Platform where
  lower := lower
  urljoin := fun _ url =>
    if url = "http://[" then
      .error (.valueError "Invalid IPv6 URL")
    else
      .ok url
  urlparse := fun _ =>
    .ok { scheme := "https", netloc := "example.com" }
  soup := fun _ =>
    .element ⟨"a", [("href", href)]⟩ .nil .nil
  canFetch := fun _ _ => .ok true
  statusMessage := fun _ _ => ""

def emptyResponse (status : Fin 1000) : HttpxOutcome :=
  .response
    { statusCode := status
      location := none
      text := "" }

/- The statuses of an answer and of a redirect. -/
def okStatus : Fin 1000 := 200

def foundStatus : Fin 1000 := 302

/- There is no `robots.txt`, and the pages are found. -/
def plainRun : Delivery where
  robots := emptyResponse 404
  redirects := []
  page := emptyResponse 200
  loads := []
  render := .content ""
  head := fun _ _ _ => emptyResponse 200
  get := fun _ _ _ => emptyResponse 200
  elapsed := fun _ => 0
  order := fun count => ⟨List.range count, .refl _⟩

def newJob : CrawlJob where
  id := 0
  url := "https://example.com/"
  status := .pending
  totalLinksFound := 0
  totalChecked := 0
  totalHealthy := 0
  totalBroken := 0
  totalRedirects := 0
  totalTimeouts := 0
  maxLinks := 500
  renderJs := false
  errorMessage := ""
  isDeleted := false

def newJobDb : Db where
  jobs := [newJob]
  links := []
  requests := []

def pageLink : Link where
  sourceUrl := "https://example.com/"
  targetUrl := "https://example.com/a"
  anchorText := ""
  linkType := .internal

theorem extractLinks_page :
    extractLinks (linkPlatform "https://example.com/a") ""
        newJob.url =
      .ok [pageLink] := by
  rfl

/- The link of the page is reached at once. -/
theorem pageFits_page :
    PageFits (linkPlatform "https://example.com/a") plainRun
      newJob "" := by
  constructor
  · apply (extractLinks_isOk "" rfl).mp
    exact ⟨_, extractLinks_page⟩
  · intro links hLinks link hMem
    rw [extractLinks_page] at hLinks
    cases hLinks
    have hLink : link = pageLink := List.mem_singleton.mp hMem
    subst hLink
    constructor
    · decide
    · decide
    · intro hop url _ hVisits
      cases hVisits with
      | start =>
          intro hLater
          exact absurd rfl hLater
      | follow hBefore hAnswer hRedirect hNext =>
          cases hAnswer
          cases hRedirect
    · decide

theorem completes_page :
    Completes (linkPlatform "https://example.com/a") plainRun
      newJob "" newJobDb :=
  completes_of_fits rfl rfl rfl rfl rfl pageFits_page

theorem completes_iff_page :
    Completes (linkPlatform "https://example.com/a") plainRun
        newJob "" newJobDb ↔
      PageFits (linkPlatform "https://example.com/a")
        plainRun newJob "" :=
  completes_iff rfl rfl rfl rfl rfl

/- One link with a malformed host fails the whole crawl. -/
theorem malformed_host_fails :
    plainRun.allowed (linkPlatform "http://[") newJob =
        .ok true ∧
      plainRun.html (linkPlatform "http://[") newJob =
          .ok "" ∧
        ¬ Completes (linkPlatform "http://[") plainRun
          newJob "" newJobDb := by
  refine ⟨rfl, rfl, ?_⟩
  intro hCompletes
  have hFits :=
    fits_of_completes rfl rfl rfl rfl rfl hCompletes
  rcases (extractLinks_isOk "" rfl).mpr hFits.resolves with
    ⟨links, hLinks⟩
  have hError :
      extractLinks (linkPlatform "http://[") "" newJob.url =
        .error
          (.python (.valueError "Invalid IPv6 URL")) := by
    rfl
  rw [hError] at hLinks
  cases hLinks

end SiteAnalysis.Linkchecker
