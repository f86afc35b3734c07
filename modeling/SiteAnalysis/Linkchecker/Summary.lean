import SiteAnalysis.FullReport.Tools
import SiteAnalysis.Linkchecker.Checks
import SiteAnalysis.Python.Lists

/-
  This file proves that the quick check of the links of a page
  agrees with what a crawl job stores for the same page, and
  that neither depends on the order in which the links are
  done.

  The quick check counts one outcome after another and keeps
  a capped sample; the job counts its rows once for each
  category.

  Key definitions include:
    * `QuickLinkCheck`
    * `quickLinkCheck`
    * `checkedLinks`
    * `storedRows`
    * `Summarizes`

  Key theorems include:
    * `collectQuick_eq`
    * `ends_runLinkCheck_rows`
    * `crawl_of_completed`
    * `summaries_agree`
-/

------------------------------------------------------------
-- The Quick Check
------------------------------------------------------------

namespace SiteAnalysis.Linkchecker

open Concurrency
open Relational
open Python

/- An entry of `broken_links`. -/
structure BrokenLink where
  targetUrl : String
  httpStatus : Option Nat
deriving DecidableEq

/- The dict that `quick_link_check` returns. -/
structure QuickLinkCheck extends FullReport.LinkSummary where
  brokenLinks : List BrokenLink

/- The variables of the loop over the futures. -/
structure QuickState where
  counts : StatusCategory → Nat
  brokenSample : List BrokenLink

/- `{c: 0 for c in StatusCategory.values}` -/
def QuickState.empty : QuickState where
  counts := fun _ => 0
  brokenSample := []

/- One round of the loop. -/
def QuickState.add
    (st : QuickState)
    (link : Link)
    (outcome : LinkOutcome) : QuickState where
  counts :=
    Function.update st.counts outcome.statusCategory
      (st.counts outcome.statusCategory + 1)
  brokenSample :=
    if outcome.statusCategory = .broken then
      appendCapped 15 st.brokenSample
        { targetUrl := link.targetUrl
          httpStatus := outcome.httpStatus }
    else
      st.brokenSample

/- The loop; the exception of a future is raised. -/
def collectQuick :
    List Future → QuickState → Except Exc QuickState
| [], st => .ok st
| (_, .error e) :: _, _ => .error e
| (link, .ok outcome) :: rest, st =>
    collectQuick rest (st.add link outcome)

/- The futures of the links, with what their checks come to. -/
def checkedLinks
    (check : String → Except Exc LinkOutcome)
    (links : List Link) : List Future :=
  links.map (fun link => (link, check link.targetUrl))

/- `quick_link_check` -/
def quickLinkCheck
    (platform : Platform)
    (page : Except Exc String)
    (check : String → Except Exc LinkOutcome)
    (order : (count : Nat) → Order count)
    (url : String)
    (maxLinks : Nat) : Except Exc QuickLinkCheck := do
  let html ← page
  let extracted ← extractLinks platform html url
  let links := extracted.take maxLinks
  let futures := checkedLinks check links
  let st ←
    collectQuick
      (completionOrder futures (order futures.length)) .empty
  pure
    { totalLinks := links.length
      healthy := st.counts .healthy
      broken := st.counts .broken
      redirects := st.counts .redirect
      timeouts := st.counts .timeout
      errors := st.counts .error
      brokenLinks := st.brokenSample }

------------------------------------------------------------
-- The Loop of the Quick Check
------------------------------------------------------------

variable {platform : Platform} {run : Delivery}
variable {object : CrawlJob} {links : List Link}
variable {futures : List Future} {d : Db}
variable {s : Store Db Empty}

/- Every future has a result. -/
def AllDone (futures : List Future) : Prop :=
  ∀ future ∈ futures, ∃ outcome, future.2 = .ok outcome

/- The entry of a row. -/
def brokenLink (row : LinkResult) : BrokenLink where
  targetUrl := row.targetUrl
  httpStatus := row.httpStatus

/- The row is of the category. -/
def hasCategory
    (category : StatusCategory)
    (row : LinkResult) : Bool :=
  row.statusCategory = category

/- The loop counts the rows that the job has of the futures. -/
theorem collectQuick_eq
    (object : CrawlJob)
    (st : QuickState)
    (hDone : AllDone futures) :
    collectQuick futures st =
      .ok
        { counts := fun category =>
            st.counts category +
              countCategory category
                (futures.filterMap (futureResult object))
          brokenSample :=
            (((futures.filterMap
              (futureResult object)).filter
                (hasCategory .broken)).map
                  brokenLink).foldl
              (appendCapped 15) st.brokenSample } := by
  induction futures generalizing st with
  | nil => rfl
  | cons future futures ih =>
      rcases future with ⟨link, result⟩
      rcases hDone _ List.mem_cons_self with ⟨outcome, hSame⟩
      change result = .ok outcome at hSame
      subst hSame
      have hRest : AllDone futures :=
        fun f hMem => hDone f (List.mem_cons_of_mem _ hMem)
      rw [collectQuick, ih _ hRest]
      simp only [List.filterMap_cons, futureResult,
        Except.ok.injEq, QuickState.mk.injEq]
      constructor
      · funext category
        unfold countCategory QuickState.add
        rw [List.countP_cons]
        by_cases hSame : outcome.statusCategory = category
        · subst hSame
          simp only [Function.update_self, linkResult,
            decide_true, if_true]
          omega
        · simp only [Function.update_of_ne (Ne.symm hSame),
            linkResult, hSame, decide_false,
            Bool.false_eq_true, if_false]
          omega
      · unfold QuickState.add
        by_cases hBroken : outcome.statusCategory = .broken
        · have hRow :
              hasCategory .broken
                  (linkResult object link outcome) = true :=
            decide_eq_true hBroken
          rw [if_pos hBroken, List.filter_cons_of_pos hRow,
            List.map_cons, List.foldl_cons]
          rfl
        · have hRow :
              ¬ hasCategory .broken
                  (linkResult object link outcome) = true :=
            fun hTrue => hBroken (of_decide_eq_true hTrue)
          rw [if_neg hBroken, List.filter_cons_of_neg hRow]

/- Each row is of one category. -/
theorem sum_countCategory (rows : List LinkResult) :
    countCategory .healthy rows +
            countCategory .broken rows +
          countCategory .redirect rows +
        countCategory .timeout rows +
      countCategory .error rows = rows.length := by
  unfold countCategory
  induction rows with
  | nil => rfl
  | cons row rows ih =>
      simp only [List.countP_cons, List.length_cons]
      cases row.statusCategory <;> simp <;> omega

theorem countCategory_perm
    {rows rows' : List LinkResult}
    (category : StatusCategory)
    (hPerm : rows.Perm rows') :
    countCategory category rows =
      countCategory category rows' :=
  hPerm.countP_eq _

/- The totals of a job do not depend on the order of its rows. -/
theorem completedJob_perm
    {rows rows' : List LinkResult}
    (object : CrawlJob)
    (hPerm : rows.Perm rows') :
    completedJob object rows = completedJob object rows' := by
  unfold completedJob
  rw [hPerm.length_eq, countCategory_perm .healthy hPerm,
    countCategory_perm .broken hPerm,
    countCategory_perm .redirect hPerm,
    countCategory_perm .timeout hPerm]

------------------------------------------------------------
-- The Rows of a Job
------------------------------------------------------------

/- The futures of the pool of a run. -/
abbrev poolFutures
    (platform : Platform)
    (run : Delivery)
    (links : List Link) : List Future :=
  checkedLinks (checkResult platform run) links

/- The rows of the links, in the order of completion. -/
def storedRows
    (platform : Platform)
    (run : Delivery)
    (object : CrawlJob)
    (links : List Link) : List LinkResult :=
  let futures := poolFutures platform run links
  (completionOrder futures (run.order futures.length)).filterMap
    (futureResult object)

/- The rows are those of the links, whatever the order. -/
theorem storedRows_perm
    (platform : Platform)
    (run : Delivery)
    (object : CrawlJob)
    (links : List Link) :
    (storedRows platform run object links).Perm
      ((poolFutures platform run links).filterMap
        (futureResult object)) :=
  (perm_completionOrder _ _).filterMap _

theorem length_filterMap_futureResult
    (object : CrawlJob)
    (hDone : AllDone futures) :
    (futures.filterMap (futureResult object)).length =
      futures.length := by
  induction futures with
  | nil => rfl
  | cons future futures ih =>
      rcases future with ⟨link, result⟩
      rcases hDone _ List.mem_cons_self with ⟨outcome, hSame⟩
      change result = .ok outcome at hSame
      subst hSame
      have hRest : AllDone futures :=
        fun f hMem => hDone f (List.mem_cons_of_mem _ hMem)
      rw [List.filterMap_cons]
      simp only [futureResult, List.length_cons, ih hRest]

/- The pool comes back with the results of the checks. -/
theorem ends_runPool_results
    (hSettled : Settled d s) :
    (runPool platform links).Ends run.machine
      (fun futures s' =>
        futures = poolFutures platform run links ∧
          Settled d s')
      (fun _ _ => False) s := by
  induction links generalizing s with
  | nil => exact ⟨rfl, hSettled⟩
  | cons link links ih =>
      have hCheck :
          (checkSingleLink platform link.targetUrl).Ends
            run.machine
            (fun outcome s' =>
              checkResult platform run link.targetUrl =
                  .ok outcome ∧ Settled d s')
            (fun e s' =>
              checkResult platform run link.targetUrl =
                  .error e ∧ Settled d s')
            s := by
        rcases hSettled with ⟨before, hReady⟩
        have hIssued : Issued (d.request before) 0 s := by
          refine ⟨[], Nat.le_refl _, ?_⟩
          rw [request_nil]
          exact hReady
        have hSettled' :
            ∀ count s', Issued (d.request before) count s' →
              Settled d s' := by
          rintro count s' ⟨urls, _, hReady'⟩
          rw [request_request] at hReady'
          exact ⟨before ++ urls, hReady'⟩
        apply
          Prog.ends_mono
            (ends_checkResult platform run link.targetUrl
              hIssued)
        · rintro outcome s' ⟨hResult, hIssued'⟩
          exact ⟨hResult, hSettled' _ _ hIssued'⟩
        · rintro e s' ⟨hResult, hIssued'⟩
          exact ⟨hResult, hSettled' _ _ hIssued'⟩
      apply Prog.ends_handle
      apply Prog.ends_mono hCheck
      · rintro outcome s₁ ⟨hResult, hSettled₁⟩
        apply Prog.ends_bind
        apply Prog.ends_mono (ih hSettled₁)
        · rintro futures s₂ ⟨rfl, hSettled₂⟩
          refine ⟨?_, hSettled₂⟩
          unfold poolFutures checkedLinks
          rw [List.map_cons, hResult]
        · exact fun _ _ hFalse => hFalse
      · rintro e s₁ ⟨hResult, hSettled₁⟩
        apply Prog.ends_bind
        apply Prog.ends_mono (ih hSettled₁)
        · rintro futures s₂ ⟨rfl, hSettled₂⟩
          refine ⟨?_, hSettled₂⟩
          unfold poolFutures checkedLinks
          rw [List.map_cons, hResult]
        · exact fun _ _ hFalse => hFalse

/- The links are checked; all the results are collected. -/
theorem ends_checkLinks_rows
    (object : CrawlJob)
    (hBound : links.length ≤ 2147483647)
    (hSettled : Settled d s) :
    (checkLinks platform object links).Ends run.machine
      (fun rows s' =>
        (rows = storedRows platform run object links ∧
          AllDone (poolFutures platform run links)) ∧
          Stable d s')
      (fun _ s' => Stable d s') s := by
  unfold checkLinks
  apply Prog.ends_bind
  apply Prog.ends_mono (ends_runPool_results hSettled)
  rotate_left
  · exact fun _ _ hFalse => hFalse.elim
  rintro futures s₁ ⟨rfl, hSettled₁⟩
  let futures := poolFutures platform run links
  let order := run.order futures.length
  have hPerm := perm_completionOrder futures order
  have hLength :
      (completionOrder futures order).length =
        links.length := by
    rw [hPerm.length_eq]
    exact List.length_map _
  apply Prog.ends_bind
  apply ends_answered hSettled₁ rfl
  · intro d'
    have hOrder :
        reply (.asCompleted futures.length)
            (.order order.val) d' =
          some (order, d'.request []) := by
      simp only [reply, order.property, dif_pos]
      rw [request_nil]
    exact hOrder
  · intro s₂ hSettled₂
    apply
      Prog.ends_mono
        (ends_collectResults
          (by rw [hLength, Nat.zero_add]; exact hBound)
          ⟨d, hSettled₂, rfl⟩)
    · rintro rows s₃ ⟨⟨hRows, hOk⟩, hStable⟩
      refine ⟨⟨?_, ?_⟩, hStable⟩
      · rw [hRows, List.nil_append]
        rfl
      · exact fun f hMem => hOk f (hPerm.mem_iff.mpr hMem)
    · rintro e s₃ ⟨_, hStable⟩
      exact hStable

/-
  A statement of the database: it is carried out, or the run
  goes on with an exception.
-/
theorem ends_inside
    {q : Statement}
    {Q : q.Answer → Store Db Empty → Prop}
    {E : Exc → Store Db Empty → Prop}
    (hSettled : Settled d s)
    (hInside : run.answers q = none)
    (hDone :
      ∀ a f s', plan q d = .done a none f →
        Settled (f d) s' → Q a s')
    (hRaise : ∀ e s', Settled d s' → E e s') :
    (query q).Ends run.machine Q E s := by
  cases hPlan : plan q d with
  | refuse e =>
      exact
        ends_raising hSettled hInside
          (Or.inl ⟨e, hPlan⟩) hRaise
  | miss e =>
      exact
        ends_raising hSettled hInside
          (Or.inr ⟨e, hPlan⟩) hRaise
  | done a lock f =>
      cases lock with
      | some lock => cases lock
      | none =>
          exact
            ends_statement hSettled hInside hPlan
              (fun s' => hDone a f s' hPlan)
  | outside =>
      cases q with
      | request r => cases r <;> cases hInside
      | render job => cases hInside
      | elapsed link => cases hInside
      | asCompleted count => cases hInside
      | getJob job =>
          simp only [plan] at hPlan
          split at hPlan <;> cases hPlan
      | saveJobFields object fields =>
          simp only [plan, Verdict.writeIf] at hPlan
          split at hPlan
          · cases hPlan
          · split at hPlan <;> cases hPlan
      | saveJob object =>
          simp only [plan, Verdict.writeIf] at hPlan
          split at hPlan <;> cases hPlan
      | setChecked job checked =>
          simp only [plan, Verdict.writeIf] at hPlan
          split at hPlan <;> cases hPlan
      | bulkCreate job rows =>
          simp only [plan, Verdict.writeIf] at hPlan
          split at hPlan <;> cases hPlan

/- The rows of the links and the totals of the job are there. -/
structure Crawled
    (platform : Platform)
    (run : Delivery)
    (object : CrawlJob)
    (links : List Link)
    (before : List LinkResult)
    (d : Db) : Prop where
  done : AllDone (poolFutures platform run links)
  rows :
    d.links =
      before ++ storedRows platform run object links
  job :
    d.find object.id =
      some
        (completedJob (checkingJob object links)
          (storedRows platform run object links))

/- The rows do not depend on the progress of the job. -/
theorem storedRows_checking
    (object : CrawlJob) :
    storedRows platform run (checkingJob object links)
        links =
      storedRows platform run object links := rfl

/- The links are checked and the results stored. -/
theorem ends_processLinks_rows
    (hBound : links.length ≤ 2147483647)
    (hSettled : Settled d s) :
    (processLinks platform object links).Ends run.machine
      (fun outcome s' =>
        outcome = .status .completed ∧
          ∃ d', Settled d' s' ∧
            Crawled platform run object links d.links d')
      (fun _ s' => ∃ d', Settled d' s') s := by
  unfold processLinks
  apply Prog.ends_bind
  apply ends_inside hSettled rfl
  rotate_left
  · exact fun _ s' hSettled' => ⟨d, hSettled'⟩
  intro _ save s₁ hSave hSettled₁
  have hLinks₁ : (save d).links = d.links := by
    simp only [plan] at hSave
    split at hSave
    · cases hSave
    · rw [(Verdict.writeIf_eq_done hSave).2]
  apply Prog.ends_bind
  apply
    Prog.ends_mono
      (ends_checkLinks_rows (checkingJob object links) hBound
        hSettled₁)
  rotate_left
  · rintro e s₂ ⟨d₂, hSettled₂, _⟩
    exact ⟨d₂, hSettled₂⟩
  rintro rows s₂ ⟨⟨rfl, hDone⟩, d₂, hSettled₂, hLinks₂⟩
  rw [storedRows_checking]
  apply Prog.ends_bind
  apply ends_inside hSettled₂ rfl
  rotate_left
  · exact fun _ s' hSettled' => ⟨d₂, hSettled'⟩
  intro _ create s₃ hCreate hSettled₃
  have hCreated := (Verdict.writeIf_eq_done hCreate).2
  subst hCreated
  apply Prog.ends_bind
  apply ends_inside hSettled₃ rfl
  rotate_left
  · exact fun _ s' hSettled' => ⟨_, hSettled'⟩
  intro _ finish s₄ hFinish hSettled₄
  have hFinished := (Verdict.writeIf_eq_done hFinish).2
  subst hFinished
  refine ⟨rfl, _, hSettled₄, hDone, ?_, ?_⟩
  · simp only
    rw [hLinks₂, hLinks₁]
  · exact find_saved (completedJob _ _) _

------------------------------------------------------------
-- Runs That Complete
------------------------------------------------------------

section Runs

variable {row : CrawlJob} {job : JobId}

/- The handler ends the run without a success. -/
theorem ends_failJob_status
    {e : Exc}
    (hSettled : Settled d s) :
    (failJob object e).Ends run.machine
      (fun outcome _ => outcome = .status .failed)
      (fun _ _ => True) s := by
  unfold failJob
  apply Prog.ends_bind
  apply ends_inside hSettled rfl
  · exact fun _ _ _ _ _ => rfl
  · exact fun _ _ _ => trivial

/- What a page with its links leaves behind. -/
structure PageCrawled
    (platform : Platform)
    (run : Delivery)
    (object : CrawlJob)
    (before : List LinkResult)
    (d : Db) : Prop where
  allowed : run.allowed platform object = .ok true
  crawled :
    ∃ html links, run.html platform object = .ok html ∧
      extractLinks platform html object.url = .ok links ∧
        Crawled platform run object
          (links.take object.maxLinks) before d

/- The `try` statement completes with the rows stored. -/
theorem ends_crawlPage_rows
    (object : CrawlJob)
    (hBound : object.maxLinks ≤ 2147483647)
    (hSettled : Settled d s) :
    ((crawlPage platform object).tryCatch
        (failJob object)).Ends run.machine
      (fun outcome s' =>
        outcome = .status .completed →
          ∃ d', Settled d' s' ∧
            PageCrawled platform run object d.links d')
      (fun _ _ => True) s := by
  have hFailed :
      ∀ e s', (∃ d', Settled d' s') →
        (failJob object e).Ends run.machine
          (fun outcome s' =>
            outcome = .status .completed →
              ∃ d', Settled d' s' ∧
                PageCrawled platform run object d.links d')
          (fun _ _ => True) s' := by
    rintro e s' ⟨d', hSettled'⟩
    apply Prog.ends_mono (ends_failJob_status hSettled')
    · rintro outcome s'' rfl hCompleted
      cases hCompleted
    · exact fun _ _ h => h
  apply Prog.ends_handle
  unfold crawlPage
  apply Prog.ends_bind
  apply Prog.ends_mono (ends_allowed hSettled)
  rotate_left
  · rintro e s₁ ⟨_, hSettled₁⟩
    exact hFailed e s₁ ⟨d, hSettled₁⟩
  rintro allowed s₁ ⟨hAllowed, hSettled₁⟩
  apply Prog.ends_bind
  cases allowed with
  | false => exact hFailed _ s₁ ⟨d, hSettled₁⟩
  | true =>
      apply Prog.ends_bind
      apply Prog.ends_mono (ends_html hSettled₁)
      rotate_left
      · rintro e s₂ ⟨_, hSettled₂⟩
        exact hFailed e s₂ ⟨d, hSettled₂⟩
      rintro html s₂ ⟨hHtml, hSettled₂⟩
      apply Prog.ends_bind
      cases hLinks :
          extractLinks platform html object.url with
      | error e => exact hFailed e s₂ ⟨d, hSettled₂⟩
      | ok links =>
          have hCount :
              (links.take object.maxLinks).length ≤
                2147483647 :=
            Nat.le_trans (List.length_take_le _ _) hBound
          apply
            Prog.ends_mono
              (ends_processLinks_rows hCount hSettled₂)
          · rintro outcome s₃ ⟨_, d₃, hSettled₃, hCrawled⟩ _
            exact
              ⟨d₃, hSettled₃, hAllowed, html, links, hHtml,
                hLinks, hCrawled⟩
          · intro e s₃ hSettled₃
            exact hFailed e s₃ hSettled₃

/- A run that completes has read the job and crawled its page. -/
theorem ends_runLinkCheck_rows
    (hFind : d.find job = some row)
    (hBound : row.maxLinks ≤ 2147483647)
    (hSettled : Settled d s) :
    (runLinkCheck platform job).Ends run.machine
      (fun outcome s' =>
        outcome = .status .completed →
          row.isDeleted = false ∧
            ∃ d', Settled d' s' ∧
              PageCrawled platform run (crawling row)
                d.links d')
      (fun _ _ => True) s := by
  unfold runLinkCheck
  apply Prog.ends_handle
  cases hShown : row.isDeleted with
  | true =>
      have hMiss :
          plan (.getJob job) d =
            .miss (.doesNotExist "CrawlJob") := by
        simp [plan, hFind, hShown, Option.filter]
      rcases hSettled with ⟨urls, hReady⟩
      apply Backend.ends_miss hReady rfl
      · rw [List.foldr_nil]
        exact (plan_request _ d urls).trans hMiss
      · intro s₁ _ hCompleted
        cases hCompleted
  | false =>
      have hGet :
          plan (.getJob job) d = .done row none id := by
        simp [plan, hFind, hShown, Verdict.read,
          Option.filter]
      apply ends_statement hSettled rfl hGet
      intro s₁ hSettled₁
      unfold crawlJob
      apply Prog.ends_bind
      apply ends_inside hSettled₁ rfl
      rotate_left
      · exact fun _ _ _ => trivial
      intro _ save s₂ hSave hSettled₂
      have hLinks : (save d).links = d.links := by
        simp only [id, plan] at hSave
        split at hSave
        · cases hSave
        · rw [(Verdict.writeIf_eq_done hSave).2]
      apply
        Prog.ends_mono
          (ends_crawlPage_rows (crawling row) hBound
            hSettled₂)
      · intro outcome s₃ hCrawled hCompleted
        rcases hCrawled hCompleted with
          ⟨d₃, hSettled₃, hPage⟩
        rw [← hLinks]
        exact ⟨rfl, d₃, hSettled₃, hPage⟩
      · exact fun _ _ h => h

/- An undisturbed run of the job completes. -/
def CompletesIn
    (platform : Platform)
    (run : Delivery)
    (job : JobId)
    (d : Db)
    (s : Store Db Empty) : Prop :=
  (runLinkCheck platform job).run run.machine
      (Store.quiet d) =
    some (.ok (.status .completed), s)

/- What a completed run has stored. -/
theorem crawl_of_completed
    (hFind : d.find job = some row)
    (hBound : row.maxLinks ≤ 2147483647)
    (hCompletes : CompletesIn platform run job d s) :
    row.isDeleted = false ∧
      PageCrawled platform run (crawling row) d.links
        s.committed := by
  rcases
    Prog.run_of_ends
      (ends_runLinkCheck_rows hFind hBound
        (settled_quiet d)) with
    ⟨outcome, s', hRun, hCrawled⟩ | ⟨e, s', hRun, _⟩
  · rw [hCompletes] at hRun
    cases hRun
    rcases hCrawled rfl with
      ⟨hShown, d', ⟨urls, hReady⟩, hPage⟩
    refine ⟨hShown, ?_⟩
    rw [hReady.at'.committed]
    rcases hPage with ⟨hAllowed, html, links, hHtml, hLinks, hCrawl⟩
    exact
      ⟨hAllowed, html, links, hHtml, hLinks,
        ⟨hCrawl.done, hCrawl.rows, hCrawl.job⟩⟩
  · rw [hCompletes] at hRun
    cases hRun

end Runs

------------------------------------------------------------
-- Agreement
------------------------------------------------------------

/- The run with another order of completion. -/
def Delivery.reordered
    (run : Delivery)
    (order : (count : Nat) → Order count) : Delivery :=
  { run with order := order }

/-
  The summary has the totals of the job, which leave the rows
  with errors out, and a sample of its broken rows.
-/
structure Summarizes
    (stored : CrawlJob)
    (rows : List LinkResult)
    (q : QuickLinkCheck) : Prop where
  total : q.totalLinks = stored.totalLinksFound
  sum :
    q.healthy + q.broken + q.redirects + q.timeouts +
        q.errors =
      q.totalLinks
  healthy : q.healthy = stored.totalHealthy
  broken : q.broken = stored.totalBroken
  redirects : q.redirects = stored.totalRedirects
  timeouts : q.timeouts = stored.totalTimeouts
  errors : q.errors = countCategory .error rows
  sample :
    ∀ link ∈ q.brokenLinks, ∃ row ∈ rows,
      row.statusCategory = .broken ∧ brokenLink row = link
  capped : q.brokenLinks.length = min 15 q.broken

variable {html : String}

/- The quick check in any order of its futures. -/
theorem quickLinkCheck_agrees
    (object : CrawlJob)
    {before : List LinkResult}
    (order : (count : Nat) → Order count)
    (hLinks :
      extractLinks platform html object.url = .ok links)
    (hCrawled :
      Crawled platform run object
        (links.take object.maxLinks) before d) :
    ∃ q,
      quickLinkCheck platform (.ok html)
          (checkResult platform run) order object.url
          object.maxLinks =
        .ok q ∧
        Summarizes
          (completedJob
            (checkingJob object (links.take object.maxLinks))
            (storedRows platform run object
              (links.take object.maxLinks)))
          (storedRows platform run object
            (links.take object.maxLinks))
          q := by
  let taken := links.take object.maxLinks
  let futures := poolFutures platform run taken
  let done := completionOrder futures (order futures.length)
  let rows := done.filterMap (futureResult object)
  have hPerm : done.Perm futures :=
    perm_completionOrder futures (order futures.length)
  have hDone : AllDone done :=
    fun f hMem => hCrawled.done f (hPerm.mem_iff.mp hMem)
  have hRows :
      rows.Perm (storedRows platform run object taken) :=
    (hPerm.filterMap _).trans
      (storedRows_perm platform run object taken).symm
  have hLength : rows.length = taken.length := by
    rw [length_filterMap_futureResult object hDone,
      hPerm.length_eq]
    exact List.length_map _
  have hLoop := collectQuick_eq object .empty hDone
  unfold quickLinkCheck
  simp only [hLinks, bind, Except.bind]
  rw [hLoop]
  refine ⟨_, rfl, ?_⟩
  have hSample :
      List.foldl (appendCapped 15) QuickState.empty.brokenSample
          ((rows.filter (hasCategory .broken)).map
            brokenLink) =
        ((rows.filter (hasCategory .broken)).map
          brokenLink).take 15 := by
    rw [foldl_appendCapped]
    rfl
  constructor
  · rfl
  · simp only [QuickState.empty, Nat.zero_add]
    rw [sum_countCategory, hLength]
  · simp only [QuickState.empty, Nat.zero_add]
    exact countCategory_perm .healthy hRows
  · simp only [QuickState.empty, Nat.zero_add]
    exact countCategory_perm .broken hRows
  · simp only [QuickState.empty, Nat.zero_add]
    exact countCategory_perm .redirect hRows
  · simp only [QuickState.empty, Nat.zero_add]
    exact countCategory_perm .timeout hRows
  · simp only [QuickState.empty, Nat.zero_add]
    exact countCategory_perm .error hRows
  · intro link hMem
    simp only at hMem
    rw [hSample] at hMem
    rcases List.mem_map.mp (List.mem_of_mem_take hMem) with
      ⟨row, hRow, hSame⟩
    have hBoth := List.mem_filter.mp hRow
    exact
      ⟨row, hRows.mem_iff.mp hBoth.1,
        of_decide_eq_true hBoth.2, hSame⟩
  · simp only
    rw [hSample, List.length_take, List.length_map,
      ← List.countP_eq_length_filter]
    simp only [QuickState.empty, Nat.zero_add]
    rfl

------------------------------------------------------------
-- Orders of Completion
------------------------------------------------------------

section Orders

variable {row : CrawlJob}
variable {order : (count : Nat) → Order count}

/- The redirects do not depend on the order. -/
theorem visits_reordered
    {link url : String}
    {hop : Nat}
    (hVisits : run.Visits platform link hop url) :
    (run.reordered order).Visits platform link hop url := by
  induction hVisits with
  | start => exact .start
  | follow hBefore hAnswer hRedirect hNext ih =>
      exact ih.follow hAnswer hRedirect hNext

theorem pageFits_reordered
    (hFits : PageFits platform run object html) :
    PageFits platform (run.reordered order) object html where
  resolves := hFits.resolves
  links := by
    intro links hLinks link hMem
    have hLink := hFits.links links hLinks link hMem
    refine ⟨hLink.target, hLink.anchor, ?_, hLink.elapsed⟩
    intro hop url hLe hVisits
    have hBack :
        ((run.reordered order).reordered run.order).Visits
          platform link.targetUrl hop url :=
      visits_reordered hVisits
    exact hLink.journey hop url hLe hBack

theorem journey_reordered
    (link : String)
    (rounds hop : Nat)
    (at' : Position) :
    journey platform (run.reordered order) link rounds hop
        at' =
      journey platform run link rounds hop at' := by
  induction rounds generalizing hop at' with
  | zero => rfl
  | succ rounds ih =>
      unfold journey
      simp only [ih]
      rfl

/- Nor do the results of the checks. -/
theorem checkResult_reordered :
    checkResult platform (run.reordered order) =
      checkResult platform run := by
  funext link
  unfold checkResult
  rw [journey_reordered]
  rfl

/- The rows are the same but for their order. -/
theorem storedRows_reordered
    (platform : Platform)
    (run : Delivery)
    (order : (count : Nat) → Order count)
    (object : CrawlJob)
    (links : List Link) :
    (storedRows platform (run.reordered order) object
        links).Perm
      (storedRows platform run object links) := by
  have hOther :=
    storedRows_perm platform (run.reordered order) object
      links
  rw [poolFutures, checkResult_reordered] at hOther
  exact
    hOther.trans
      (storedRows_perm platform run object links).symm

/- A run that completes does so in every order. -/
theorem completes_reordered
    (order : (count : Nat) → Order count)
    (hFind : d.find row.id = some row)
    (hRow : row.check = .ok ())
    (hShown : row.isDeleted = false)
    (hAllowed : run.allowed platform row = .ok true)
    (hPage : run.html platform row = .ok html)
    (hCompletes : CompletesIn platform run row.id d s) :
    ∃ s',
      CompletesIn platform (run.reordered order) row.id d
        s' := by
  have hFits : PageFits platform run (crawling row) html := by
    rcases
      Prog.run_of_ends
        (ends_runLinkCheck hFind hShown hRow hAllowed hPage
          (settled_quiet d)) with
      ⟨outcome, s', hRun, hFits | hMisfits⟩ |
        ⟨e, s', hRun, _⟩
    · exact hFits.1
    · rw [hCompletes] at hRun
      cases hRun
      exact absurd rfl hMisfits.2
    · rw [hCompletes] at hRun
      cases hRun
  have hOther :
      Completes platform (run.reordered order) row html d :=
    completes_of_fits hFind hShown hRow hAllowed hPage
      (pageFits_reordered (pageFits_crawling.mp hFits))
  rcases hOther with ⟨links, rows, stored, s', hRun, _⟩
  exact ⟨s', hRun⟩

end Orders

end SiteAnalysis.Linkchecker
