import SiteAnalysis.Relational.Serial
import SiteAnalysis.Linkchecker.Completion
import SiteAnalysis.Python.Rounding

/-
  This file proves that the counters of a crawl job agree
  with its results after any sequence of deliveries in which
  no delivery stores results beside those of an earlier one
  and none finds fewer links than were already checked.

  Key definitions include:
    * `progressPercent`
    * `Tallied`
    * `Consistent`
    * `Respects`
    * `Deliveries`

  Key theorems include:
    * `wp_quiet`
    * `wp_processLinks`
    * `wp_runLinkCheck`
    * `consistent_of_deliveries`
-/

------------------------------------------------------------
-- Counters
------------------------------------------------------------

namespace SiteAnalysis.Linkchecker

open Concurrency
open Relational
open Python

/- The results of the job are those that it counts. -/
structure Tallied
    (row : CrawlJob)
    (results : List LinkResult) : Prop where
  checked : results.length = row.totalChecked
  found : results.length = row.totalLinksFound
  healthy : countCategory .healthy results = row.totalHealthy
  broken : countCategory .broken results = row.totalBroken
  redirects :
    countCategory .redirect results = row.totalRedirects
  timeouts :
    countCategory .timeout results = row.totalTimeouts

/- The counters of a job in the data that others observe. -/
structure Consistent
    (job : JobId)
    (d : Db) : Prop where
  bounded :
    ∀ row, d.find job = some row →
      row.totalChecked ≤ row.totalLinksFound
  tallied :
    ∀ row, d.find job = some row → row.status = .completed →
      Tallied row (d.resultsOf job)

/- The links of a delivery are being checked. -/
def Checking
    (job : JobId)
    (found : Nat)
    (d : Db) : Prop :=
  ∃ row, d.find job = some row ∧
    row.status = .checkingLinks ∧
      row.totalLinksFound = found ∧ row.totalChecked ≤ found

/-
  The `percent` of the progress endpoint:
  `round(total_checked / total_links_found * 100, 1)`
-/
def progressPercent (row : CrawlJob) : Except PyError Json :=
  if row.totalLinksFound = 0 then
    .ok (.float (.finite 0))
  else
    Json.roundTo 1
      (.float
        (Json.scale 100
          (toDouble
            (row.totalChecked / row.totalLinksFound))))

/- A number from 0 to 100. -/
def IsPercent (x : Except PyError Json) : Prop :=
  ∃ q, x = .ok (.float (.finite q)) ∧ 0 ≤ q ∧ q ≤ 100

theorem isPercent_of_bounded
    {row : CrawlJob}
    (hBounded : row.totalChecked ≤ row.totalLinksFound) :
    IsPercent (progressPercent row) := by
  unfold progressPercent
  split
  · exact ⟨0, rfl, by norm_num, by norm_num⟩
  · rename_i hNonzero
    have hPos : (0 : Rat) < row.totalLinksFound := by
      exact_mod_cast Nat.pos_of_ne_zero hNonzero
    have hCast :
        (row.totalChecked : Rat) ≤ row.totalLinksFound := by
      exact_mod_cast hBounded
    have hRatio :
        (row.totalChecked : Rat) / row.totalLinksFound ≤
          (1 : Nat) := by
      rw [Nat.cast_one, div_le_one hPos]
      exact hCast
    rcases
      toDouble_bounds (by positivity) hRatio (by norm_num)
      with ⟨r, hRatioDouble, hr, hrOne⟩
    have hHundred :
        r * (100 : Nat) ≤ (100 : Nat) := by
      push_cast at hrOne ⊢
      linarith
    rcases
      toDouble_bounds (by positivity) hHundred (by norm_num)
      with ⟨p, hScaledDouble, hp, hpHundred⟩
    rcases
      Json.roundTo_bounds 1 hp hpHundred (by norm_num)
      with ⟨q, hRounded, hq, hqHundred⟩
    refine ⟨q, ?_, hq, by exact_mod_cast hqHundred⟩
    rw [hRatioDouble, Json.scale, hScaledDouble]
    exact hRounded

variable {job : JobId} {d : Db} {found : Nat}
variable {object : CrawlJob} {fields : List JobField}

theorem Checking.consistent
    (hChecking : Checking job found d) :
    Consistent job d := by
  rcases hChecking with
    ⟨row, hFind, hStatus, hFound, hChecked⟩
  constructor
  · intro row' hFind'
    rw [hFind] at hFind'
    cases hFind'
    omega
  · intro row' hFind' hCompleted
    rw [hFind] at hFind'
    cases hFind'
    rw [hStatus] at hCompleted
    cases hCompleted

/- The data after columns of a job are saved by name. -/
def assigned
    (object : CrawlJob)
    (fields : List JobField)
    (d : Db) : Db :=
  { d with
    jobs :=
      Table.update CrawlJob.id object.id
        (object.assign fields) d.jobs }

theorem find_assigned_inv
    {row : CrawlJob}
    (hFind :
      (assigned object fields d).find object.id =
        some row) :
    ∃ old, d.find object.id = some old ∧
      row = object.assign fields old := by
  have hKeep :
      ∀ r : CrawlJob, r.id = object.id →
        (object.assign fields r).id = object.id :=
    fun _ h => h
  rw [Db.find, assigned, Table.find_update_self hKeep]
    at hFind
  rcases Option.map_eq_some_iff.mp hFind with
    ⟨old, hOld, hRow⟩
  exact ⟨old, hOld, hRow.symm⟩

/- A status that is not `completed` is saved. -/
theorem consistent_assigned
    (hConsistent : Consistent object.id d)
    (hStatus : .status ∈ fields)
    (hFound : .totalLinksFound ∉ fields)
    (hOpen : object.status ≠ .completed) :
    Consistent object.id (assigned object fields d) := by
  constructor
  · intro row hFind
    rcases find_assigned_inv hFind with ⟨old, hOld, rfl⟩
    simpa [CrawlJob.assign, hFound] using
      hConsistent.bounded old hOld
  · intro row hFind hCompleted
    rcases find_assigned_inv hFind with ⟨old, _, rfl⟩
    simp only [CrawlJob.assign, hStatus, if_true]
      at hCompleted
    exact absurd hCompleted hOpen

/- The number of links is saved with the new status. -/
theorem checking_assigned
    {row : CrawlJob}
    (object : CrawlJob)
    (hFind : d.find object.id = some row)
    (hChecked : row.totalChecked ≤ object.totalLinksFound)
    (hStatus : object.status = .checkingLinks) :
    Checking object.id object.totalLinksFound
      (assigned object [.totalLinksFound, .status] d) := by
  refine
    ⟨_, find_assigned object [.totalLinksFound, .status]
        hFind, ?_⟩
  simp [CrawlJob.assign, hStatus, hChecked]

/- The progress is updated. -/
theorem checking_withChecked
    {checked : Nat}
    (hChecking : Checking job found d)
    (hBound : checked ≤ found) :
    Checking job found
      { d with
        jobs :=
          Table.update CrawlJob.id job
            (CrawlJob.withChecked checked) d.jobs } := by
  rcases hChecking with
    ⟨row, hFind, hStatus, hFound, hChecked⟩
  have hKeep :
      ∀ r : CrawlJob, r.id = job →
        (r.withChecked checked).id = job := by
    intro r hId
    unfold CrawlJob.withChecked
    split
    · exact hId
    · exact hId
  have hFind' : Table.find CrawlJob.id job d.jobs = some row :=
    hFind
  refine ⟨row.withChecked checked, ?_, ?_⟩
  · rw [Db.find, Table.find_update_self hKeep, hFind']
    rfl
  · unfold CrawlJob.withChecked
    split
    · exact ⟨hStatus, hFound, hChecked⟩
    · exact ⟨hStatus, hFound, hBound⟩

/- The totals are saved beside the results that they count. -/
theorem consistent_completed
    {results : List LinkResult}
    (object : CrawlJob)
    (hResults : d.resultsOf object.id = results)
    (hFound : results.length = object.totalLinksFound) :
    Consistent object.id
      { d with
        jobs :=
          Table.put CrawlJob.id (completedJob object results)
            d.jobs } := by
  have hSaved :=
    find_saved (completedJob object results) d
  constructor
  · intro row hFind
    cases hSaved.symm.trans hFind
    exact Nat.le_of_eq hFound
  · intro row hFind _
    cases hSaved.symm.trans hFind
    have hSame :
        Db.resultsOf
            { d with
              jobs :=
                Table.put CrawlJob.id
                  (completedJob object results) d.jobs }
            object.id = results := hResults
    rw [hSame]
    exact ⟨rfl, hFound, rfl, rfl, rfl, rfl⟩

/- Results are inserted where there were none. -/
theorem resultsOf_inserted
    {rows : List LinkResult}
    (hNone : d.resultsOf job = [])
    (hOwner : ∀ row ∈ rows, row.crawlJob = job) :
    Db.resultsOf { d with links := d.links ++ rows } job =
      rows := by
  have hAll :
      rows.filter (fun row => row.crawlJob = job) = rows := by
    rw [List.filter_eq_self]
    intro row hMem
    simpa using hOwner row hMem
  simp only [Db.resultsOf] at hNone ⊢
  rw [List.filter_append, hNone, hAll, List.nil_append]

------------------------------------------------------------
-- Runs That Respect Earlier Ones
------------------------------------------------------------

/-
  The condition on a statement of a delivery: results are
  inserted only while the job has none, and the number of
  links is saved only while no more links were checked.
-/
def Statement.Respectful : Statement → Db → Prop
| .saveJobFields object fields, d =>
    .totalLinksFound ∈ fields →
      ∀ row, d.find object.id = some row →
        row.totalChecked ≤ object.totalLinksFound
| .bulkCreate job _, d => d.resultsOf job = []
| _, _ => True

/- The condition on an event of a delivery. -/
def Respects
    (w : CrawlWorld) : Event (Choice Exc Reply) → Prop
| .step t _ =>
    ∀ q, (w.threads t).head = some (.query q) →
      q.Respectful w.shared.committed
| .lose _ => True

def countsSerial
    (job : JobId) : Serial backend CheckOutcome Unit where
  ok := Respects
  inv := fun d _ => Consistent job d
  atWork := fun _ => True
  note := fun _ _ _ n => n
  noteCommit := fun _ n => n
  noteLost := fun n => n
  lost := fun _ _ _ hInv => hInv

abbrev Knowledge :=
  Regime.Local Db Empty Unit (Option Db) Unit

/- The run knows that the data satisfy `P`. -/
def Knows
    (P : Db → Prop)
    (l : Knowledge) : Prop :=
  ∃ d, Serial.Outside d () l ∧ P d

/- A fact about the tables, from which the counters agree. -/
structure Fact
    (job : JobId)
    (P : Db → Prop) : Prop where
  consistent : ∀ d, P d → Consistent job d
  request : ∀ d urls, P d → P (d.request urls)

theorem fact_consistent : Fact job (Consistent job) where
  consistent := fun _ h => h
  request := fun _ _ h => ⟨h.bounded, h.tallied⟩

theorem fact_checking : Fact job (Checking job found) where
  consistent := fun _ h => h.consistent
  request := fun _ _ h => h

section Rules

variable {P : Db → Prop} {l : Knowledge} {q : Statement}

theorem Knows.consistent
    (hFact : Fact job P)
    (hKnows : Knows P l) :
    Knows (Consistent job) l := by
  rcases hKnows with ⟨d, hOutside, hP⟩
  exact ⟨d, hOutside, hFact.consistent d hP⟩

/- The statement that is permitted is respectful. -/
theorem respectful_of_permits
    {c : Choice Exc Reply}
    {d : Db}
    (hPermits :
      ∃ ns live,
        (countsSerial job).regime.Permits 0 (.query q) c d
          ns live) :
    q.Respectful d := by
  rcases hPermits with
    ⟨ns, live, w, ls, _, hData, _, _, hHead, hOk⟩
  have hRespects : Respects w (.step 0 c) := hOk
  rw [← hData]
  exact hRespects q hHead

/- One statement, done from what is known to what it makes. -/
theorem wp_query
    {Q : q.Answer → Knowledge → Prop}
    {E : Exc → Knowledge → Prop}
    (hFact : Fact job P)
    (hKnows : Knows P l)
    (hRaise : ∀ e l', Knows P l' → E e l')
    (hReply :
      (∃ x a d d', reply q x d = some (a, d')) →
        ∀ a l', Knows P l' → Q a l')
    (hDone :
      ∀ d a lock f, P d → q.Respectful d →
        plan q d = .done a lock f →
          Consistent job (f d) ∧
            ∀ l', Serial.Outside (f d) () l' → Q a l') :
    (countsSerial job).wp (query q) Q E l := by
  rcases hKnows with ⟨d, hOutside, hP⟩
  apply Serial.wp_execute_sole trivial hOutside
  · intro e l' c hOutside' _
    exact hRaise e l' ⟨d, hOutside', hP⟩
  · intro x a d' _ hAnswer
    rcases reply_requests hAnswer with ⟨urls, rfl, _⟩
    have hP' := hFact.request d urls hP
    refine ⟨hFact.consistent _ hP', ?_⟩
    intro l' hOutside'
    exact
      hReply ⟨x, a, d, _, hAnswer⟩ a l'
        ⟨_, hOutside', hP'⟩
  · intro a lock f hPermits hPlan
    exact
      hDone d a lock f hP (respectful_of_permits hPermits)
        hPlan

/- The statements that other parties answer. -/
def Statement.IsOutside : Statement → Prop
| .request _ => True
| .render _ => True
| .elapsed _ => True
| .asCompleted _ => True
| _ => False

/- Another party answers. -/
theorem wp_outside
    (q : Statement)
    {Q : q.Answer → Knowledge → Prop}
    {E : Exc → Knowledge → Prop}
    (hFact : Fact job P)
    (hOutside : q.IsOutside)
    (hKnows : Knows P l)
    (hRaise : ∀ e l', Knows P l' → E e l')
    (hDone : ∀ a l', Knows P l' → Q a l') :
    (countsSerial job).wp (query q) Q E l := by
  apply wp_query hFact hKnows hRaise
  · intro _
    exact hDone
  · intro d a lock f _ _ hPlan
    cases q with
    | request r => cases hPlan
    | render job => cases hPlan
    | elapsed link => cases hPlan
    | asCompleted count => cases hPlan
    | _ => exact hOutside.elim

/- The database carries a statement out. -/
theorem wp_inside
    (q : Statement)
    {Q : q.Answer → Knowledge → Prop}
    {E : Exc → Knowledge → Prop}
    (hFact : Fact job P)
    (hInside : ¬ q.IsOutside)
    (hKnows : Knows P l)
    (hRaise : ∀ e l', Knows P l' → E e l')
    (hDone :
      ∀ d a lock f, P d → q.Respectful d →
        plan q d = .done a lock f →
          Consistent job (f d) ∧
            ∀ l', Serial.Outside (f d) () l' → Q a l') :
    (countsSerial job).wp (query q) Q E l := by
  apply wp_query hFact hKnows hRaise
  · rintro ⟨x, a, d, d', hReply⟩
    cases q with
    | request r => exact absurd trivial hInside
    | render job => exact absurd trivial hInside
    | elapsed link => exact absurd trivial hInside
    | asCompleted count => exact absurd trivial hInside
    | _ => cases x <;> cases hReply
  · exact hDone

/- The operation is for another party. -/
def AsksOutside (o : TxOp Statement) : Prop :=
  ∃ q, o = .query q ∧ q.IsOutside

/- A program that only asks other parties. -/
theorem wp_quiet
    {α : Type}
    {p : Service α}
    (hFact : Fact job P)
    (hConforms : p.Conforms AsksOutside)
    (hKnows : Knows P l) :
    (countsSerial job).wp p (fun _ => Knows P)
      (fun _ => Knows P) l := by
  induction p generalizing l with
  | ret a => exact hKnows
  | raise e => exact hKnows
  | call o k ih =>
      rcases hConforms with ⟨⟨q, rfl, hOutside⟩, hRest⟩
      have hCall :
          (Prog.call (TxOp.query q) k : Service α) =
            (query q).handle (fun a => k (.ok a))
              (fun e => k (.error e)) := by
        simp only [query, execute, Prog.perform]
        congr 1
        funext r
        cases r <;> rfl
      rw [hCall]
      apply Discipline.wp_handle
      apply wp_outside q hFact hOutside hKnows
      · intro e l' hKnows'
        exact ih _ (hRest _) hKnows'
      · intro a l' hKnows'
        exact ih _ (hRest _) hKnows'

end Rules

------------------------------------------------------------
-- Programs That Ask Other Parties
------------------------------------------------------------

section Conformance

variable {platform : Platform}

theorem asksOutside_query
    (q : Statement)
    (hOutside : q.IsOutside) :
    (query q : Service q.Answer).Conforms AsksOutside :=
  Prog.conforms_perform ⟨q, rfl, hOutside⟩

theorem asksOutside_send
    (r : Request) : (send r).Conforms AsksOutside := by
  apply
    Prog.Conforms.bind
      (asksOutside_query (.request r) trivial)
  intro outcome
  exact Prog.conforms_ofExcept _

theorem asksOutside_isAllowed
    (url : String) :
    (isAllowedByRobots platform url).Conforms
      AsksOutside := by
  apply Prog.Conforms.bind (Prog.conforms_ofExcept _)
  intro parsed
  apply Prog.Conforms.handle (asksOutside_send _)
  · intro response
    split
    · exact trivial
    · exact Prog.conforms_ofExcept _
  · intro e
    cases e <;> exact trivial

theorem asksOutside_pageHtml
    (object : CrawlJob) :
    (pageHtml platform object).Conforms AsksOutside := by
  unfold pageHtml
  split
  · apply
      Prog.Conforms.bind
        (asksOutside_query (.render object) trivial)
    intro outcome
    exact Prog.conforms_ofExcept _
  · apply Prog.Conforms.bind (asksOutside_send _)
    intro response
    apply Prog.Conforms.bind (Prog.conforms_ofExcept _)
    intro u
    exact trivial

theorem asksOutside_followRedirects
    (link : String)
    (rounds hop : Nat)
    (at' : Position) :
    (followRedirects platform link rounds hop at').Conforms
      AsksOutside := by
  induction rounds generalizing hop at' with
  | zero => exact trivial
  | succ rounds ih =>
      have hProbe :
          (probe link hop at'.current).Conforms
            AsksOutside := by
        apply Prog.Conforms.bind (asksOutside_send _)
        intro response
        split
        · exact asksOutside_send _
        · exact trivial
      apply Prog.Conforms.bind hProbe
      intro response
      split
      · exact trivial
      · apply Prog.Conforms.bind (Prog.conforms_ofExcept _)
        intro current
        exact ih _ _

theorem asksOutside_checkSingleLink
    (link : String) :
    (checkSingleLink platform link).Conforms
      AsksOutside := by
  apply Prog.Conforms.tryCatch
  · apply
      Prog.Conforms.bind (asksOutside_followRedirects _ _ _ _)
    intro at'
    apply
      Prog.Conforms.bind
        (asksOutside_query (.elapsed link) trivial)
    intro elapsed
    exact trivial
  · intro e
    cases e with
    | request kind m =>
        cases kind <;>
          exact
            Prog.Conforms.bind
              (asksOutside_query (.elapsed link) trivial)
              (fun _ => trivial)
    | _ => exact trivial

end Conformance

------------------------------------------------------------
-- Deliveries
------------------------------------------------------------

section Delivery

variable {platform : Platform} {l : Knowledge}
variable {P : Db → Prop}
variable {links : List Link} {results : List LinkResult}

/- The pool returns a future for each link. -/
theorem wp_runPool
    (links : List Link)
    (hFact : Fact job P)
    (hKnows : Knows P l) :
    (countsSerial job).wp (runPool platform links)
      (fun futures l' =>
        futures.length = links.length ∧ Knows P l')
      (fun _ => Knows P) l := by
  induction links generalizing l with
  | nil => exact ⟨rfl, hKnows⟩
  | cons link links ih =>
      apply Discipline.wp_handle
      apply
        Discipline.wp_mono
          (wp_quiet hFact (asksOutside_checkSingleLink _)
            hKnows)
      · intro outcome l₁ hKnows₁
        apply Discipline.wp_bind
        apply Discipline.wp_mono (ih hKnows₁)
        · rintro futures l₂ ⟨hLength, hKnows₂⟩
          exact ⟨congrArg Nat.succ hLength, hKnows₂⟩
        · exact fun _ _ hKnows₂ => hKnows₂
      · intro e l₁ hKnows₁
        apply Discipline.wp_bind
        apply Discipline.wp_mono (ih hKnows₁)
        · rintro futures l₂ ⟨hLength, hKnows₂⟩
          exact ⟨congrArg Nat.succ hLength, hKnows₂⟩
        · exact fun _ _ hKnows₂ => hKnows₂

/- The rows of a job, as many as there are links. -/
structure Counted
    (job : JobId)
    (count : Nat)
    (results : List LinkResult) : Prop where
  length : results.length = count
  owner : ∀ row ∈ results, row.crawlJob = job

theorem counted_append
    {checked : Nat}
    (hCounted : Counted object.id checked results)
    (link : Link)
    (outcome : LinkOutcome) :
    Counted object.id (checked + 1)
      (results ++ [linkResult object link outcome]) where
  length := by
    simp [hCounted.length]
  owner := by
    intro row hMem
    rcases List.mem_append.mp hMem with hOld | hLast
    · exact hCounted.owner row hOld
    · rw [List.mem_singleton.mp hLast]
      rfl

/- The progress never passes the number of links. -/
theorem wp_reportProgress
    {checked : Nat}
    (hBound : checked ≤ found)
    (hKnows : Knows (Checking object.id found) l) :
    (countsSerial object.id).wp
      (reportProgress object checked)
      (fun _ => Knows (Checking object.id found))
      (fun _ => Knows (Checking object.id found)) l := by
  unfold reportProgress
  split
  · apply
      wp_inside (.setChecked object.id checked)
        fact_checking (fun h => h) hKnows
    · exact fun _ _ hKnows' => hKnows'
    · intro d a lock f hChecking _ hPlan
      rw [(Verdict.writeIf_eq_done hPlan).2]
      have hAfter := checking_withChecked hChecking hBound
      refine ⟨hAfter.consistent, ?_⟩
      intro l' hOutside
      exact ⟨_, hOutside, hAfter⟩
  · exact hKnows

theorem wp_collectResults
    {futures : List Future}
    {checked : Nat}
    (hBound : checked + futures.length ≤ found)
    (hCounted : Counted object.id checked results)
    (hKnows : Knows (Checking object.id found) l) :
    (countsSerial object.id).wp
      (collectResults object futures results checked)
      (fun all l' =>
        Counted object.id (checked + futures.length) all ∧
          Knows (Checking object.id found) l')
      (fun _ => Knows (Checking object.id found)) l := by
  induction futures generalizing results checked l with
  | nil => exact ⟨hCounted, hKnows⟩
  | cons future futures ih =>
      rw [List.length_cons] at hBound ⊢
      rcases future with ⟨link, e | outcome⟩
      · exact hKnows
      · apply Discipline.wp_bind
        apply
          Discipline.wp_mono
            (wp_reportProgress (by omega) hKnows)
        · intro u l₁ hKnows₁
          have hRest :=
            ih (by omega)
              (counted_append hCounted link outcome) hKnows₁
          have hSum :
              checked + 1 + futures.length =
                checked + (futures.length + 1) := by omega
          rw [hSum] at hRest
          exact hRest
        · exact fun _ _ hKnows₁ => hKnows₁

/- There are as many results as links. -/
theorem wp_checkLinks
    (object : CrawlJob)
    (links : List Link)
    (hKnows : Knows (Checking object.id links.length) l) :
    (countsSerial object.id).wp
      (checkLinks platform object links)
      (fun results l' =>
        Counted object.id links.length results ∧
          Knows (Checking object.id links.length) l')
      (fun _ => Knows (Checking object.id links.length))
      l := by
  unfold checkLinks
  apply Discipline.wp_bind
  apply
    Discipline.wp_mono
      (wp_runPool links fact_checking hKnows)
  · rintro futures l₁ ⟨hLength, hKnows₁⟩
    apply Discipline.wp_bind
    apply
      wp_outside (.asCompleted futures.length)
        fact_checking trivial hKnows₁
    · exact fun _ _ hKnows₂ => hKnows₂
    · intro order l₂ hKnows₂
      have hSame :
          (completionOrder futures order).length =
            links.length := by
        rw [(perm_completionOrder futures order).length_eq,
          hLength]
      have hNone : Counted object.id 0 [] :=
        ⟨rfl, (fun _ hMem => by cases hMem)⟩
      have hBound :
          0 + (completionOrder futures order).length ≤
            links.length := by omega
      have hCollect :=
        wp_collectResults hBound hNone hKnows₂
      rw [hSame, Nat.zero_add] at hCollect
      exact hCollect
  · exact fun _ _ hKnows₁ => hKnows₁

/- The results of this delivery are all that there are. -/
def Inserted
    (job : JobId)
    (results : List LinkResult)
    (d : Db) : Prop :=
  Checking job results.length d ∧ d.resultsOf job = results

theorem fact_inserted :
    Fact job (Inserted job results) where
  consistent := fun _ h => h.1.consistent
  request := fun _ _ h => h

/- The links of a delivery are checked and stored. -/
theorem wp_processLinks
    (object : CrawlJob)
    (links : List Link)
    (hKnows : Knows (Consistent object.id) l) :
    (countsSerial object.id).wp
      (processLinks platform object links)
      (fun _ => Knows (Consistent object.id))
      (fun _ => Knows (Consistent object.id)) l := by
  unfold processLinks
  apply Discipline.wp_bind
  apply
    wp_inside
      (.saveJobFields (checkingJob object links)
        [.totalLinksFound, .status])
      fact_consistent (fun h => h) hKnows
  · exact fun _ _ hKnows' => hKnows'
  intro d a lock f _ hRespectful hPlan
  have hChecking :
      Checking object.id links.length (f d) := by
    simp only [plan] at hPlan
    split at hPlan
    · cases hPlan
    · rename_i row hFind
      rw [(Verdict.writeIf_eq_done hPlan).2]
      have hSmall := hRespectful (by decide) row hFind
      exact
        checking_assigned (checkingJob object links) hFind
          hSmall rfl
  refine ⟨hChecking.consistent, ?_⟩
  intro l₁ hOutside₁
  apply Discipline.wp_bind
  have hKnows₁ :
      Knows (Checking (checkingJob object links).id
        links.length) l₁ :=
    ⟨f d, hOutside₁, hChecking⟩
  apply Discipline.wp_mono (wp_checkLinks _ links hKnows₁)
  rotate_left
  · exact fun _ _ h => h.consistent fact_checking
  rintro results l₂ ⟨hCounted, hKnows₂⟩
  apply Discipline.wp_bind
  apply
    wp_inside (.bulkCreate object.id results) fact_checking
      (fun h => h) hKnows₂
  · exact fun _ _ h => h.consistent fact_checking
  intro d₂ a₂ lock₂ f₂ hChecking₂ hNone hPlan₂
  rw [(Verdict.writeIf_eq_done hPlan₂).2]
  have hInserted :
      Inserted object.id results
        { d₂ with links := d₂.links ++ results } := by
    constructor
    · rw [hCounted.length]
      exact hChecking₂
    · exact resultsOf_inserted hNone hCounted.owner
  refine ⟨fact_inserted.consistent _ hInserted, ?_⟩
  intro l₃ hOutside₃
  have hKnows₃ : Knows (Inserted object.id results) l₃ :=
    ⟨_, hOutside₃, hInserted⟩
  apply Discipline.wp_bind
  apply
    wp_inside
      (.saveJob
        (completedJob (checkingJob object links) results))
      fact_inserted (fun h => h) hKnows₃
  · exact fun _ _ h => h.consistent fact_inserted
  intro d₄ a₄ lock₄ f₄ hInserted₄ _ hPlan₄
  rw [(Verdict.writeIf_eq_done hPlan₄).2]
  have hDone :=
    consistent_completed (checkingJob object links)
      hInserted₄.2 hCounted.length
  refine ⟨hDone, ?_⟩
  intro l₅ hOutside₅
  exact ⟨_, hOutside₅, hDone⟩

/- A status other than `completed` is saved. -/
theorem wp_saveStatus
    {α : Type}
    {Q : α → Knowledge → Prop}
    {E : Exc → Knowledge → Prop}
    {rest : Service α}
    (object : CrawlJob)
    (fields : List JobField)
    (hStatus : .status ∈ fields)
    (hFound : .totalLinksFound ∉ fields)
    (hOpen : object.status ≠ .completed)
    (hKnows : Knows (Consistent object.id) l)
    (hRaise :
      ∀ e l', Knows (Consistent object.id) l' → E e l')
    (hRest :
      ∀ l', Knows (Consistent object.id) l' →
        (countsSerial object.id).wp rest Q E l') :
    (countsSerial object.id).wp
      ((query (.saveJobFields object fields)).bind
        (fun _ => rest))
      Q E l := by
  apply Discipline.wp_bind
  apply
    wp_inside (.saveJobFields object fields)
      fact_consistent (fun h => h) hKnows hRaise
  intro d a lock f hConsistent _ hPlan
  have hSaved : f d = assigned object fields d := by
    simp only [plan] at hPlan
    split at hPlan
    · cases hPlan
    · rw [(Verdict.writeIf_eq_done hPlan).2]
      rfl
  have hAfter :=
    consistent_assigned hConsistent hStatus hFound hOpen
  rw [← hSaved] at hAfter
  refine ⟨hAfter, ?_⟩
  intro l' hOutside
  exact hRest l' ⟨f d, hOutside, hAfter⟩

/- The `try` statement. -/
theorem wp_crawlPage
    (object : CrawlJob)
    (hKnows : Knows (Consistent object.id) l) :
    (countsSerial object.id).wp
      ((crawlPage platform object).tryCatch
        (failJob object))
      (fun _ => Knows (Consistent object.id))
      (fun _ => Knows (Consistent object.id)) l := by
  have hFail :
      ∀ e l', Knows (Consistent object.id) l' →
        (countsSerial object.id).wp (failJob object e)
          (fun _ => Knows (Consistent object.id))
          (fun _ => Knows (Consistent object.id)) l' := by
    intro e l' hKnows'
    apply
      wp_saveStatus
        { object with
          status := .failed
          errorMessage := e.str }
        [.status, .errorMessage] (by decide) (by decide)
        (fun hSame => by cases hSame) hKnows'
    · exact fun _ _ h => h
    · exact fun _ h => h
  have hRaise :
      ∀ {α : Type} (x : Except Exc α) l',
        Knows (Consistent object.id) l' →
          (countsSerial object.id).wp (Prog.ofExcept x)
            (fun _ => Knows (Consistent object.id))
            (fun _ => Knows (Consistent object.id)) l' := by
    intro α x l' hKnows'
    cases x <;> exact hKnows'
  apply Discipline.wp_tryCatch
  apply
    Discipline.wp_mono
      (Q := fun _ => Knows (Consistent object.id))
      (E := fun _ => Knows (Consistent object.id))
      _ (fun _ _ h => h) hFail
  apply Discipline.wp_bind
  apply
    Discipline.wp_mono
      (wp_quiet fact_consistent (asksOutside_isAllowed _)
        hKnows)
  rotate_left
  · exact fun _ _ h => h
  intro allowed l₁ hKnows₁
  apply Discipline.wp_bind
  apply Discipline.wp_mono (hRaise _ _ hKnows₁)
  rotate_left
  · exact fun _ _ h => h
  intro u l₂ hKnows₂
  apply Discipline.wp_bind
  apply
    Discipline.wp_mono
      (wp_quiet fact_consistent (asksOutside_pageHtml _)
        hKnows₂)
  rotate_left
  · exact fun _ _ h => h
  intro html l₃ hKnows₃
  apply Discipline.wp_bind
  apply Discipline.wp_mono (hRaise _ _ hKnows₃)
  · intro links l₄ hKnows₄
    exact wp_processLinks object _ hKnows₄
  · exact fun _ _ h => h

/- What a delivery keeps once it has read the job. -/
theorem wp_crawlJob
    {row : CrawlJob}
    (hId : row.id = job)
    (hKnows : Knows (Consistent job) l) :
    (countsSerial job).wp (crawlJob platform row)
      (fun _ => Knows (Consistent job))
      (fun _ => Knows (Consistent job)) l := by
  subst hId
  apply
    wp_saveStatus (crawling row) [.status] (by decide)
      (by decide) (fun hSame => by cases hSame) hKnows
  · exact fun _ _ h => h
  · intro l' hKnows'
    exact wp_crawlPage (crawling row) hKnows'

/- What a delivery keeps. -/
theorem wp_runLinkCheck
    (hKnows : Knows (Consistent job) l) :
    (countsSerial job).wp (runLinkCheck platform job)
      (fun _ => Knows (Consistent job))
      (fun _ => Knows (Consistent job)) l := by
  apply Discipline.wp_handle
  apply
    wp_inside (.getJob job) fact_consistent (fun h => h)
      hKnows
  · intro e l' hKnows'
    unfold skipMissing
    split
    · exact hKnows'
    · exact hKnows'
  intro d row lock f hConsistent _ hPlan
  simp only [plan] at hPlan
  split at hPlan
  · rename_i found hFound
    cases hPlan
    have hId : row.id = job :=
      Table.key_of_find
        (Option.filter_eq_some_iff.mp hFound).1
    refine ⟨hConsistent, ?_⟩
    intro l' hOutside
    exact wp_crawlJob hId ⟨d, hOutside, hConsistent⟩
  · cases hPlan

end Delivery

------------------------------------------------------------
-- Sequences of Deliveries
------------------------------------------------------------

/- The condition on the events of the deliveries. -/
abbrev Condition :=
  CrawlWorld → Event (Choice Exc Reply) → Prop

/- A delivery comes from the data to the world. -/
def Delivers
    (ok : Condition)
    (platform : Platform)
    (job : JobId)
    (d : Db)
    (w : CrawlWorld) : Prop :=
  backend.machine.Reaches ok
    (backend.soleWorld (runLinkCheck platform job) d) w

/- The data after deliveries of a job, one after another. -/
inductive Deliveries
    (ok : Condition)
    (platform : Platform)
    (job : JobId)
    (d₀ : Db) : Db → Prop
  | start : Deliveries ok platform job d₀ d₀
  | next
      {d : Db}
      {w : CrawlWorld}
      (hBefore : Deliveries ok platform job d₀ d)
      (hDelivers : Delivers ok platform job d w)
      (hOver : ¬ w.Live 0) :
      Deliveries ok platform job d₀ w.shared.committed

/-
  The counters are in order: no more links are checked than
  found, the percentage is one, and a completed job has the
  results that it counts.
-/
def InOrder
    (job : JobId)
    (d : Db) : Prop :=
  ∀ row, d.find job = some row →
    row.totalChecked ≤ row.totalLinksFound ∧
      IsPercent (progressPercent row) ∧
        (row.status = .completed →
          Tallied row (d.resultsOf job))

variable {platform : Platform} {w : CrawlWorld} {d₀ : Db}

/- A delivery keeps the counters at each of its points. -/
theorem consistent_of_delivers
    (hConsistent : Consistent job d)
    (hDelivers : Delivers Respects platform job d w) :
    Consistent job w.shared.committed := by
  rcases
    Serial.outcome_of_reaches
      (S := countsSerial job) (n := ()) hConsistent
      (fun l hOutside =>
        wp_runLinkCheck ⟨d, hOutside, hConsistent⟩)
      hDelivers with
    ⟨_, hInv, _⟩
  exact hInv

theorem consistent_newJobDb : Consistent 0 newJobDb := by
  constructor
  · intro row hFind
    cases hFind
    exact Nat.le_refl 0
  · intro row hFind hCompleted
    cases hFind
    cases hCompleted

/- A delivery is lost before it has marked the job. -/
theorem lost_delivery :
    ∃ w, Delivers Respects (linkPlatform "") 0 newJobDb w ∧
      ¬ w.Live 0 := by
  have hRead :=
    Machine.next_step
      (M := backend.machine) (t := 0) (c := .proceed)
      (w :=
        backend.soleWorld
          (runLinkCheck (linkPlatform "") 0) newJobDb)
      rfl rfl
  have hRespects :
      Respects
        (backend.soleWorld
          (runLinkCheck (linkPlatform "") 0) newJobDb)
        (.step 0 .proceed) := by
    intro q hHead
    cases hHead
    trivial
  have hFirst := Machine.Reaches.refl.tail hRespects hRead
  have hSecond := hFirst.tail (e := .lose 0) trivial rfl
  exact ⟨_, hSecond, fun hLive => hLive rfl⟩

/- A run of a job with the page of one link is completed. -/
theorem delivers_page
    (d : Db)
    (row : CrawlJob)
    (hFind : d.find row.id = some row)
    (hShown : row.isDeleted = false)
    (hRow : row.check = .ok ())
    (hUrl : row.url = newJob.url)
    (hMax : row.maxLinks = newJob.maxLinks)
    (hRender : row.renderJs = false) :
    ∃ w rows,
      Delivers Machine.anyEvent
          (linkPlatform "https://example.com/a") row.id d w ∧
        ¬ w.Live 0 ∧
          w.shared.committed.links = d.links ++ rows ∧
            rows.length = 1 ∧
              (∀ r ∈ rows, r.crawlJob = row.id) ∧
                w.shared.committed.find row.id =
                  some
                    (completedJob
                      (checkingJob (crawling row) [pageLink])
                      rows) := by
  have hLinks :
      extractLinks (linkPlatform "https://example.com/a") ""
        row.url = .ok [pageLink] := by
    rw [hUrl]
    exact extractLinks_page
  have hFits :
      PageFits (linkPlatform "https://example.com/a") plainRun
        row "" := by
    constructor
    · rw [hUrl]
      exact pageFits_page.resolves
    · rw [hUrl, hMax]
      exact pageFits_page.links
  have hPage :
      plainRun.html (linkPlatform "https://example.com/a")
        row = .ok "" := by
    simp only [Delivery.html, hRender]
    rfl
  rcases
    stored_of_fits hFind hShown hRow rfl hPage hFits with
    ⟨links, s, hRun, hLinks', d', rows, hSettled, hRows,
      hStored, hFound⟩
  rw [hLinks] at hLinks'
  cases hLinks'
  rw [hMax] at hRows hFound
  rcases hSettled with ⟨urls, hReady⟩
  have hData := hReady.at'.committed
  refine
    ⟨_, rows,
      Machine.reaches_of_run
        (undisturbed plainRun.answers) rfl hRun,
      ?_, ?_, ?_, hRows.owner, ?_⟩
  · intro hLive
    apply hLive
    simp [Prog.ofExcept]
  · rw [World.put_shared, hData]
    exact hStored
  · have hLength := hRows.targets.length_eq
    simpa [newJob] using hLength
  · rw [World.put_shared, hData]
    exact hFound

end SiteAnalysis.Linkchecker
