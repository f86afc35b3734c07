import SiteAnalysis.Relational.Separate
import SiteAnalysis.Validator.Rerun

/-
  This file proves that validation runs of different jobs,
  interleaved in any way, leave for each job what its own run
  would leave alone.

  The runs draw item ids that no other run draws and no row
  has, so that every row belongs to one job.  The rows of the
  job are the part of the data that its run works on.

  Key definitions include:
    * `Db.ofJob`
    * `ConcernsJob`
    * `Worker`
    * `startWorkers`
    * `Apart`

  Key theorems include:
    * `localizes_validation`
    * `keeps_validation`
    * `alone_of_workers`
    * `parallel_results`
-/

------------------------------------------------------------
-- Parts
------------------------------------------------------------

namespace SiteAnalysis.Validator

open Concurrency
open Relational
open Python

/- Every item belongs to the job that its id was drawn for. -/
def Owned
    (owner : ItemId → JobId)
    (d : Db) : Prop :=
  ∀ item ∈ d.items, owner item.id = item.job

/- The rows of the job. -/
def Db.ofJob
    (owner : ItemId → JobId)
    (job : JobId)
    (d : Db) : Db where
  jobs := d.jobs.filter (fun row => row.id = job)
  items := d.items.filter (fun item => item.job = job)
  issues :=
    d.issues.filter
      (fun issue => owner issue.schemaItem = job)

variable {owner : ItemId → JobId} {job job' : JobId}
variable {d d' : Db} {platform : Platform}
variable {dumpDepth : Nat}

theorem find_ofJob :
    (d.ofJob owner job).find job = d.find job :=
  Table.find_filter _ (fun _ hKey => decide_eq_true hKey)

/- The items that are shown of the job are in its part. -/
theorem liveItems_ofJob :
    (d.ofJob owner job).liveItems job =
      d.liveItems job := by
  rw [Db.liveItems, Db.liveItems, Db.ofJob,
    List.filter_filter]
  apply List.filter_congr
  intro item _
  by_cases hJob : item.job = job
  · simp [hJob]
  · simp [SchemaItem.isLive, hJob]

/- An issue of an item of the job belongs to the job. -/
theorem owner_of_issueOf
    {issue : SchemaIssue}
    (hOwned : Owned owner d)
    (hIssue : Db.issueOf (d.liveItems job) issue = true) :
    owner issue.schemaItem = job := by
  rw [Db.issueOf, List.any_eq_true] at hIssue
  rcases hIssue with ⟨item, hLive, hSame⟩
  rw [Db.liveItems, List.mem_filter] at hLive
  have hJob := hOwned item hLive.1
  rw [of_decide_eq_true hSame] at hJob
  rw [hJob]
  exact (of_decide_eq_true hLive.2).1

theorem liveIssues_ofJob
    (hOwned : Owned owner d) :
    (d.ofJob owner job).liveIssues job =
      d.liveIssues job := by
  rw [Db.liveIssues, Db.liveIssues, liveItems_ofJob,
    Db.ofJob, List.filter_filter]
  apply List.filter_congr
  intro issue _
  cases hIssue : Db.issueOf (d.liveItems job) issue with
  | false => rfl
  | true => simp [owner_of_issueOf hOwned hIssue]

/- The keys of a part are those of all the data. -/
theorem sound_ofJob
    (hSound : d.Sound)
    (hOwned : Owned owner d) :
    (d.ofJob owner job).Sound where
  jobs := Table.keyed_filter _ hSound.jobs
  items := Table.keyed_filter _ hSound.items
  issues := by
    intro issue hIssue
    rw [Db.ofJob, List.mem_filter] at hIssue
    rcases hSound.issues issue hIssue.1 with
      ⟨item, hItem, hSame⟩
    have hJob := hOwned item hItem
    rw [hSame, of_decide_eq_true hIssue.2] at hJob
    refine ⟨item, ?_, hSame⟩
    exact
      List.mem_filter.mpr
        ⟨hItem, decide_eq_true hJob.symm⟩

------------------------------------------------------------
-- Statements
------------------------------------------------------------

/- The statements of a run of the job. -/
def ConcernsJob
    (owner : ItemId → JobId)
    (job : JobId) : Statement → Prop
| .getJob job' => job' = job
| .saveJobFields object _ => object.id = job
| .saveJob object => object.id = job
| .deleteItems job' => job' = job
| .bulkCreateItems items =>
    ∀ item ∈ items, item.job = job ∧ owner item.id = job
| .bulkCreateIssues issues =>
    ∀ issue ∈ issues, owner issue.schemaItem = job

/- The row that is read is that of the job. -/
def ShowsJob : (q : Statement) → q.Answer → Prop
| .getJob job, row => row.id = job
| _, _ => True

/- Deleting the items of the job deletes them in its part. -/
theorem removeItems_ofJob :
    (removeItems job d).ofJob owner job =
      removeItems job (d.ofJob owner job) := by
  have hLive :
      (d.ofJob owner job).liveItems job =
        d.liveItems job :=
    liveItems_ofJob
  unfold removeItems
  rw [hLive]
  unfold Db.ofJob
  rw [List.filter_comm, List.filter_comm _ _ d.issues]

/- The other parts stay. -/
theorem removeItems_ofJob_of_ne
    (hOwned : Owned owner d)
    (hNe : job' ≠ job) :
    (removeItems job d).ofJob owner job' =
      d.ofJob owner job' := by
  unfold removeItems Db.ofJob
  rw [Table.filter_filter_not, Table.filter_filter_not]
  · intro issue _ hIssue
    have hOwner := owner_of_issueOf hOwned hIssue
    rw [hOwner]
    exact decide_eq_false (Ne.symm hNe)
  · intro item _ hLive
    rw [(of_decide_eq_true hLive).1]
    exact decide_eq_false (Ne.symm hNe)

/- The part of data with other job rows. -/
theorem ofJob_withJobs
    {rows picked : List ValidationJob}
    (hPicked :
      rows.filter (fun row => row.id = job) = picked) :
    Db.ofJob owner job { d with jobs := rows } =
      { d.ofJob owner job with jobs := picked } := by
  rw [← hPicked]
  rfl

/- A row of a job is not in the part of another one. -/
theorem not_picked_of_ne
    (hNe : job' ≠ job)
    (row : ValidationJob)
    (hKey : row.id = job) :
    decide (row.id = job') = false := by
  rw [hKey]
  exact decide_eq_false (Ne.symm hNe)

/- New items of a job are in its part. -/
theorem addItems_ofJob
    {items : List SchemaItem}
    (hItems : ∀ item ∈ items, item.job = job) :
    Db.ofJob owner job' { d with items := d.items ++ items } =
      if job' = job then
        { d.ofJob owner job with
          items := (d.ofJob owner job).items ++ items }
      else
        d.ofJob owner job' := by
  unfold Db.ofJob
  rw [Table.filter_append_owned SchemaItem.job hItems job']
  split
  · rename_i hSame
    rw [hSame]
  · rfl

theorem addIssues_ofJob
    {issues : List SchemaIssue}
    (hIssues :
      ∀ issue ∈ issues, owner issue.schemaItem = job) :
    Db.ofJob owner job'
        { d with issues := d.issues ++ issues } =
      if job' = job then
        { d.ofJob owner job with
          issues := (d.ofJob owner job).issues ++ issues }
      else
        d.ofJob owner job' := by
  unfold Db.ofJob
  rw [Table.filter_append_owned
    (fun s : SchemaIssue => owner s.schemaItem) hIssues job']
  split
  · rename_i hSame
    rw [hSame]
  · rfl

/- A write that is accepted writes any change. -/
theorem writeIf_done
    {check : Except Exc Unit}
    {change f : Db → Db}
    {a : Unit}
    {lock : Option Empty}
    (change' : Db → Db)
    (hWrite : writeIf check change = .done a lock f) :
    writeIf check change' = .done a lock change' := by
  unfold writeIf at hWrite ⊢
  split at hWrite
  · cases hWrite
  · cases hWrite
    rfl

/- A write is accepted or refused. -/
theorem writeIf_ne_miss
    {check : Except Exc Unit}
    {change : Db → Db}
    {e : Exc} : writeIf check change ≠ .miss e := by
  intro hWrite
  unfold writeIf at hWrite
  split at hWrite <;> cases hWrite

/- Keys that are fresh are fresh in a part. -/
theorem freshKeys_filter
    {ρ : Type}
    {key : ρ → Nat}
    {rows new : List ρ}
    (p : ρ → Bool)
    (hFresh : FreshKeys key rows new) :
    FreshKeys key (rows.filter p) new := by
  refine ⟨hFresh.1, ?_⟩
  intro row hRow
  have hNone := hFresh.2 row hRow
  rw [Table.find_eq_none_iff] at hNone ⊢
  intro old hOld
  exact hNone old (List.mem_of_mem_filter hOld)

/-
  The statements of a run of the job come to the same on the
  part of the job.
-/
theorem localizes_validation :
    (backend dumpDepth).Localizes (Owned owner)
      (Db.ofJob owner job) (ConcernsJob owner job) where
  done := by
    intro q d a lock f hConcerns hOwned hPlan
    cases q with
    | getJob job' =>
        cases hConcerns
        simp only [backend, plan, find_ofJob] at hPlan ⊢
        split at hPlan
        · cases hPlan
          exact ⟨id, rfl, fun _ _ => rfl⟩
        · cases hPlan
    | saveJobFields object fields =>
        cases hConcerns
        simp only [backend, plan, find_ofJob] at hPlan ⊢
        split at hPlan
        · cases hPlan
        · refine ⟨_, writeIf_done _ hPlan, ?_⟩
          rw [(writeIf_eq_done hPlan).2]
          intro d' _
          exact
            ofJob_withJobs
              (Table.update_filter _ (fun _ _ => rfl))
    | saveJob object =>
        cases hConcerns
        refine ⟨_, writeIf_done _ hPlan, ?_⟩
        rw [(writeIf_eq_done hPlan).2]
        intro d' _
        exact
          ofJob_withJobs
            (Table.put_filter _
              (fun _ hKey => decide_eq_true hKey))
    | deleteItems job' =>
        cases hConcerns
        cases hPlan
        exact ⟨_, rfl, fun _ _ => removeItems_ofJob⟩
    | bulkCreateItems items =>
        simp only [backend, plan] at hPlan ⊢
        split at hPlan
        · cases hPlan
        · rename_i hFits
          split at hPlan
          · rename_i hFresh
            have hFresh' :
                FreshKeys SchemaItem.id
                  (d.ofJob owner job).items items :=
              freshKeys_filter _ hFresh
            rw [if_neg hFits, if_pos hFresh']
            refine ⟨_, writeIf_done _ hPlan, ?_⟩
            rw [(writeIf_eq_done hPlan).2]
            intro d' _
            have hItems :
                ∀ item ∈ items, item.job = job :=
              fun item hItem => (hConcerns item hItem).1
            exact (addItems_ofJob hItems).trans (if_pos rfl)
          · cases hPlan
    | bulkCreateIssues issues =>
        simp only [backend, plan] at hPlan ⊢
        split at hPlan
        · rename_i hFresh
          have hFresh' :
              FreshKeys SchemaIssue.id
                (d.ofJob owner job).issues issues :=
            freshKeys_filter _ hFresh
          rw [if_pos hFresh']
          refine ⟨_, writeIf_done _ hPlan, ?_⟩
          rw [(writeIf_eq_done hPlan).2]
          intro d' _
          exact
            (addIssues_ofJob hConcerns).trans (if_pos rfl)
        · cases hPlan
  miss := by
    intro q d e hConcerns hOwned hPlan
    cases q with
    | getJob job' =>
        cases hConcerns
        simp only [backend, plan, find_ofJob] at hPlan ⊢
        exact hPlan
    | saveJobFields object fields =>
        simp only [backend, plan] at hPlan
        split at hPlan
        · cases hPlan
        · exact absurd hPlan writeIf_ne_miss
    | saveJob object => exact absurd hPlan writeIf_ne_miss
    | deleteItems job' => cases hPlan
    | bulkCreateItems items =>
        simp only [backend, plan] at hPlan ⊢
        split at hPlan
        · rename_i hDeep
          rw [if_pos hDeep]
          exact hPlan
        · split at hPlan
          · exact absurd hPlan writeIf_ne_miss
          · cases hPlan
    | bulkCreateIssues issues =>
        simp only [backend, plan] at hPlan
        split at hPlan
        · exact absurd hPlan writeIf_ne_miss
        · cases hPlan
  reply := by
    intro q x
    cases x

/-
  What a statement of the job writes keeps the rows of the
  other jobs, and every row that of its job.
-/
theorem spares_of_concerns
    {q : Statement}
    {a : q.Answer}
    {lock : Option Empty}
    {f : Db → Db}
    (hConcerns : ConcernsJob owner job q)
    (hPlan : plan dumpDepth q d = .done a lock f)
    (hOwned : Owned owner d') :
    Owned owner (f d') ∧
      ∀ job', job' ≠ job →
        (f d').ofJob owner job' = d'.ofJob owner job' := by
  cases q with
  | getJob j =>
      simp only [plan] at hPlan
      split at hPlan
      · cases hPlan
        exact ⟨hOwned, fun _ _ => rfl⟩
      · cases hPlan
  | saveJobFields object fields =>
      simp only [plan] at hPlan
      split at hPlan
      · cases hPlan
      · rw [(writeIf_eq_done hPlan).2]
        cases hConcerns
        refine ⟨hOwned, ?_⟩
        intro job' hNe
        have hOther := not_picked_of_ne hNe
        exact
          ofJob_withJobs
            (Table.filter_update _ hOther hOther)
  | saveJob object =>
      rw [(writeIf_eq_done hPlan).2]
      cases hConcerns
      refine ⟨hOwned, ?_⟩
      intro job' hNe
      exact
        ofJob_withJobs
          (Table.filter_put _ (not_picked_of_ne hNe))
  | deleteItems j =>
      cases hConcerns
      cases hPlan
      refine ⟨?_, ?_⟩
      · intro item hItem
        exact hOwned item (List.mem_of_mem_filter hItem)
      · intro job' hNe
        exact removeItems_ofJob_of_ne hOwned hNe
  | bulkCreateItems items =>
      rw [(bulkCreateItems_eq_done hPlan).2]
      refine ⟨?_, ?_⟩
      · intro item hItem
        rcases List.mem_append.mp hItem with hOld | hNew
        · exact hOwned item hOld
        · have hJob := hConcerns item hNew
          rw [hJob.1, hJob.2]
      · intro job' hNe
        have hItems : ∀ item ∈ items, item.job = job :=
          fun item hItem => (hConcerns item hItem).1
        exact (addItems_ofJob hItems).trans (if_neg hNe)
  | bulkCreateIssues issues =>
      rw [bulkCreateIssues_eq_done hPlan]
      refine ⟨hOwned, ?_⟩
      intro job' hNe
      exact (addIssues_ofJob hConcerns).trans (if_neg hNe)

------------------------------------------------------------
-- Programs
------------------------------------------------------------

/- The findings of a run concern its job. -/
theorem concerns_findings
    (platform : Platform)
    {run : Delivery}
    (hDrawn : ∀ n, owner (run.itemId n) = job)
    (objects : List (SchemaFormat × Json)) :
    let found := collectFindings platform run job objects
    ConcernsJob owner job (.bulkCreateItems found.items) ∧
      ConcernsJob owner job
        (.bulkCreateIssues found.issues) := by
  intro found
  have hCovers := covers_collect platform run job objects
  have hKeyed :
      found.items.map SchemaItem.id =
        (List.range found.items.length).map run.itemId :=
    (keyedBy_collect objects).items
  have hItems :
      ∀ item ∈ found.items,
        item.job = job ∧ owner item.id = job := by
    intro item hItem
    refine ⟨?_, ?_⟩
    · have hLive := hCovers.live item hItem
      exact (of_decide_eq_true hLive).1
    · have hId : item.id ∈ found.items.map SchemaItem.id :=
        List.mem_map_of_mem hItem
      rw [hKeyed] at hId
      rcases List.mem_map.mp hId with ⟨n, _, hDraw⟩
      rw [← hDraw]
      exact hDrawn n
  refine ⟨hItems, ?_⟩
  intro issue hIssue
  rcases issueOf_of_covers hCovers hIssue with
    ⟨item, hItem, hSame⟩
  rw [← hSame]
  exact (hItems item hItem).2

/- What a run of the job may execute, and what it trusts. -/
abbrev BehavesFor
    {α : Type}
    (owner : ItemId → JobId)
    (job : JobId)
    (n : Nat)
    (p : Service α) : Prop :=
  p.Behaves (ConcernsJob owner job) (fun _ => False)
    ShowsJob n (fun _ => True) n

theorem behaves_query
    {q : Statement}
    {n : Nat}
    (hConcerns : ConcernsJob owner job q) :
    BehavesFor owner job n (query q) :=
  (Prog.behaves_execute (Or.inl hConcerns)).mono
    (fun _ _ => trivial)

/- Values that need no statement. -/
theorem behaves_ofExcept
    {α β : Type}
    {r : Except Exc α}
    {f : α → Service β}
    {n : Nat}
    (hRest :
      ∀ a, r = .ok a → BehavesFor owner job n (f a)) :
    BehavesFor owner job n (Prog.ofExcept r >>= f) := by
  cases r with
  | error e => rfl
  | ok a => exact hRest a rfl

/- A failure is recorded on the job of the run. -/
theorem behaves_failJob
    {object : ValidationJob}
    {e : Exc}
    (hJob : object.id = job) :
    BehavesFor owner job 0 (failJob object e) := by
  refine Prog.Behaves.bind (behaves_query hJob) ?_
  intro _ _
  exact ⟨rfl, trivial⟩

/- The transaction stores the findings of the job. -/
theorem behaves_storeFindings
    {run : Delivery}
    {object completed : ValidationJob}
    (hDrawn : ∀ n, owner (run.itemId n) = job)
    (hJob : object.id = job)
    (hCompleted : completed.id = job)
    (objects : List (SchemaFormat × Json)) :
    BehavesFor owner job 0
      (storeFindings object
        (collectFindings platform run job objects)
        completed) := by
  have hFound := concerns_findings platform hDrawn objects
  apply Prog.behaves_atomic
  refine Prog.Behaves.bind (behaves_query hJob) ?_
  intro _ _
  refine Prog.Behaves.bind (behaves_query hFound.1) ?_
  intro _ _
  refine Prog.Behaves.bind (behaves_query hFound.2) ?_
  intro _ _
  exact behaves_query hCompleted

theorem behaves_validatePage
    {run : Delivery}
    {object : ValidationJob}
    (hDrawn : ∀ n, owner (run.itemId n) = job)
    (hJob : object.id = job) :
    BehavesFor owner job 0
      (validatePage platform run object) := by
  subst hJob
  refine behaves_ofExcept ?_
  intro html _
  refine behaves_ofExcept ?_
  intro objects _
  have hCompleted :
      ∀ found,
        (completedJob object objects found).id = object.id :=
    fun _ => rfl
  refine
    Prog.Behaves.bind
      (behaves_storeFindings hDrawn rfl (hCompleted _)
        objects) ?_
  intro _ _
  exact ⟨rfl, trivial⟩

/- A run only touches its job. -/
theorem behaves_processValidation
    {run : Delivery}
    (hDrawn : ∀ n, owner (run.itemId n) = job) :
    BehavesFor owner job 0
      (processValidation platform run job) := by
  refine
    Prog.Behaves.handle
      (Prog.behaves_execute (Or.inl rfl)) ?_ ?_
  · intro row hRow
    refine Prog.Behaves.bind (behaves_query hRow) ?_
    intro _ _
    refine
      Prog.Behaves.handle (behaves_validatePage hDrawn hRow)
        ?_ ?_
    · intro _ _
      exact ⟨rfl, trivial⟩
    · intro e
      exact behaves_failJob hRow
  · intro e
    unfold skipMissing
    split
    · exact ⟨rfl, trivial⟩
    · rfl

------------------------------------------------------------
-- Workers
------------------------------------------------------------

/- A worker of the task, with what its run meets. -/
structure Worker where
  job : JobId
  run : Delivery

/- The threads with a worker are about to process its job. -/
def startWorkers
    (platform : Platform)
    (workers : Tid → Option Worker)
    (d : Db) : RunWorld where
  shared := Store.quiet d
  threads := fun t =>
    match workers t with
    | some x =>
        .live (processValidation platform x.run x.job)
    | none => .lost

/-
  The workers process different jobs, no two of them draw the
  same item id, and no row has an id that is drawn.
-/
structure Apart
    (workers : Tid → Option Worker)
    (d : Db) : Prop where
  jobs :
    ∀ t t' x x', workers t = some x → workers t' = some x' →
      x.job = x'.job → t = t'
  drawn :
    ∀ t t' x x' n n', workers t = some x →
      workers t' = some x' →
        x.run.itemId n = x'.run.itemId n' → t = t'
  fresh :
    ∀ t x n, workers t = some x →
      ∀ item ∈ d.items, item.id ≠ x.run.itemId n

variable {workers : Tid → Option Worker} {w : RunWorld}
variable {t : Tid} {x : Worker}

/- No two jobs have rows or runs with the item id. -/
theorem exists_job
    (hSound : d.Sound)
    (hApart : Apart workers d)
    (id : ItemId) :
    ∃ job,
      (∀ item ∈ d.items, item.id = id → item.job = job) ∧
        ∀ t x n, workers t = some x →
          x.run.itemId n = id → x.job = job := by
  by_cases hDrawn :
      ∃ t x n, workers t = some x ∧ x.run.itemId n = id
  · rcases hDrawn with ⟨t, x, n, hWorker, rfl⟩
    refine ⟨x.job, ?_, ?_⟩
    · intro item hItem hSame
      exact
        absurd hSame (hApart.fresh t x n hWorker item hItem)
    · intro t' x' n' hWorker' hSame
      have hThread :=
        hApart.drawn t' t x' x n' n hWorker' hWorker hSame
      rw [hThread, hWorker] at hWorker'
      rw [Option.some.inj hWorker']
  · have hNone :
        ∀ t x n, workers t = some x →
          x.run.itemId n ≠ id := by
      intro t x n hWorker hSame
      exact hDrawn ⟨t, x, n, hWorker, hSame⟩
    cases hFind : Table.find SchemaItem.id id d.items with
    | none =>
        rw [Table.find_eq_none_iff] at hFind
        refine ⟨0, ?_, ?_⟩
        · intro item hItem hSame
          exact absurd hSame (hFind item hItem)
        · intro t x n hWorker hSame
          exact absurd hSame (hNone t x n hWorker)
    | some row =>
        refine ⟨row.job, ?_, ?_⟩
        · intro item hItem hSame
          have hRow := Table.find_of_mem hSound.items hItem
          rw [hSame, hFind] at hRow
          rw [Option.some.inj hRow]
        · intro t x n hWorker hSame
          exact absurd hSame (hNone t x n hWorker)

/- Every item id belongs to a job. -/
theorem exists_owner
    (hSound : d.Sound)
    (hApart : Apart workers d) :
    ∃ owner, Owned owner d ∧
      ∀ t x, workers t = some x →
        ∀ n, owner (x.run.itemId n) = x.job := by
  choose owner hOwner using exists_job hSound hApart
  refine ⟨owner, ?_, ?_⟩
  · intro item hItem
    exact ((hOwner item.id).1 item hItem rfl).symm
  · intro t x hWorker n
    exact ((hOwner _).2 t x n hWorker rfl).symm

/- The statements of the worker. -/
def Concerns
    (owner : ItemId → JobId) :
    Option Worker → Statement → Prop
| some x, q => ConcernsJob owner x.job q
| none, _ => False

/- The rows of all jobs but the worker's stay. -/
def SparesJobs
    (owner : ItemId → JobId)
    (worker : Option Worker)
    (d d' : Db) : Prop :=
  ∀ job, (∀ x, worker = some x → job ≠ x.job) →
    d'.ofJob owner job = d.ofJob owner job

/- Workers keep to the rows of their jobs. -/
theorem keeps_validation :
    (backend dumpDepth).Keeps (Owned owner)
      (fun t => SparesJobs owner (workers t))
      (fun t => Concerns owner (workers t))
      (fun _ _ => False) ShowsJob where
  refl := fun _ _ _ _ => rfl
  trans := by
    intro t d d' d'' hFirst hSecond job hOther
    rw [hSecond job hOther, hFirst job hOther]
  steadily := by
    intro t q d a lock f hConcerns hOwned hPlan
    refine ⟨?_, ?_⟩
    · cases q with
      | getJob job =>
          simp only [backend, plan] at hPlan
          split at hPlan
          · rename_i row hFound
            cases hPlan
            exact
              Table.key_of_find
                (Option.filter_eq_some_iff.mp hFound).1
          · cases hPlan
      | _ => trivial
    · intro d' hOwned'
      cases hWorker : workers t with
      | none =>
          rw [hWorker] at hConcerns
          exact hConcerns.elim
      | some x =>
          rw [hWorker] at hConcerns
          have hAfter :=
            spares_of_concerns hConcerns hPlan hOwned'
          refine ⟨hAfter.1, ?_⟩
          intro job hOther
          exact hAfter.2 job (hOther x rfl)
  instantly := fun _ _ _ _ _ _ hInstant => hInstant.elim
  reply := by
    intro t q x
    cases x

theorem heeding_startWorkers
    (hOwned : Owned owner d)
    (hDrawn :
      ∀ t x, workers t = some x →
        ∀ n, owner (x.run.itemId n) = x.job) :
    Backend.Heeding (Owned owner)
      (fun t => SparesJobs owner (workers t))
      (fun t => Concerns owner (workers t))
      (fun _ _ => False) ShowsJob
      (startWorkers platform workers d) := by
  apply Backend.heeding_of_quiet rfl hOwned
  intro t p hLive
  simp only [startWorkers] at hLive
  split at hLive
  · rename_i x hWorker
    cases hLive
    rw [hWorker]
    exact behaves_processValidation (hDrawn t x hWorker)
  · cases hLive

/-
  Whatever the workers come to, each of them alone on the
  rows of its job comes to the same.
-/
theorem alone_of_workers
    (hOwned : Owned owner d)
    (hDrawn :
      ∀ t x, workers t = some x →
        ∀ n, owner (x.run.itemId n) = x.job)
    (hApart : Apart workers d)
    (hReach :
      (backend platform.dumpDepth).machine.Reaches
        Machine.anyEvent (startWorkers platform workers d) w)
    (hWorker : workers t = some x) :
    ∃ v,
      Runs platform x.run x.job (d.ofJob owner x.job) v ∧
        v.threads 0 = w.threads t ∧
        v.shared.committed =
          w.shared.committed.ofJob owner x.job := by
  have hLocal :
      (backend platform.dumpDepth).Localizes (Owned owner)
        (Db.ofJob owner x.job)
        (Concerns owner (workers t)) := by
    rw [hWorker]
    exact localizes_validation
  have hSpare :
      ∀ t' d₁ d₂, t' ≠ t →
        SparesJobs owner (workers t') d₁ d₂ →
          d₂.ofJob owner x.job = d₁.ofJob owner x.job := by
    intro t' d₁ d₂ hNe hSpares
    apply hSpares
    intro x' hWorker' hJob
    exact
      hNe
        (hApart.jobs t' t x' x hWorker' hWorker hJob.symm)
  have hThread :
      (startWorkers platform workers d).threads t =
        .live (processValidation platform x.run x.job) := by
    simp only [startWorkers, hWorker]
  exact
    Backend.alone_of_reaches keeps_validation hLocal hSpare
      (heeding_startWorkers hOwned hDrawn) rfl hThread
      hReach

/- The rows of a job that nobody processes stay. -/
theorem ofJob_of_workers
    (hOwned : Owned owner d)
    (hDrawn :
      ∀ t x, workers t = some x →
        ∀ n, owner (x.run.itemId n) = x.job)
    (hReach :
      (backend platform.dumpDepth).machine.Reaches
        Machine.anyEvent (startWorkers platform workers d) w)
    (hOther : ∀ t x, workers t = some x → job ≠ x.job) :
    w.shared.committed.ofJob owner job =
      d.ofJob owner job := by
  refine
    Backend.some_keep_of_reaches
      (fun d d' => d'.ofJob owner job = d.ofJob owner job)
      keeps_validation (heeding_startWorkers hOwned hDrawn)
      (fun _ => rfl) ?_ ?_ hReach
  · intro d d' d'' hFirst hSecond
    exact Eq.trans hSecond hFirst
  · intro t d d' hSpares
    exact hSpares job (hOther t)

------------------------------------------------------------
-- Results
------------------------------------------------------------

/- What is shown of the job is the same in both. -/
structure SameView
    (job : JobId)
    (d d' : Db) : Prop where
  row : d'.find job = d.find job
  items : d'.liveItems job = d.liveItems job
  issues : d'.liveIssues job = d.liveIssues job

/-
  What is shown of the job differs at most in its status and
  its message.
-/
structure SameFindings
    (job : JobId)
    (d d' : Db) : Prop where
  row :
    (d'.find job).map ValidationJob.blank =
      (d.find job).map ValidationJob.blank
  items : d'.liveItems job = d.liveItems job
  issues : d'.liveIssues job = d.liveIssues job

theorem sameView_ofJob
    (hOwned : Owned owner d) :
    SameView job (d.ofJob owner job) d where
  row := find_ofJob.symm
  items := liveItems_ofJob.symm
  issues := (liveIssues_ofJob hOwned).symm

theorem SameView.symm
    (hSame : SameView job d d') : SameView job d' d :=
  ⟨hSame.row.symm, hSame.items.symm, hSame.issues.symm⟩

theorem SameView.trans
    {d'' : Db}
    (hFirst : SameView job d d')
    (hSecond : SameView job d' d'') :
    SameView job d d'' :=
  ⟨hSecond.row.trans hFirst.row,
    hSecond.items.trans hFirst.items,
    hSecond.issues.trans hFirst.issues⟩

/- A result is stored wherever the job looks the same. -/
theorem Stored.of_view
    {run : Delivery}
    (hStored : Stored platform run job d)
    (hSame : SameView job d d') :
    Stored platform run job d' := by
  rcases hStored with
    ⟨row, html, objects, hFind, hPage, hObjects, hReflects⟩
  refine
    ⟨row, html, objects, hSame.row.trans hFind, hPage,
      hObjects, ?_⟩
  refine ⟨?_, ?_, ?_, ?_⟩
  · rw [hSame.items]
    exact hReflects.items
  · rw [hSame.items]
    exact hReflects.validated
  · rw [hSame.items, hSame.issues]
    exact hReflects.issues
  · rw [hSame.row, hSame.items, hSame.issues]
    exact hReflects.row

/- The result of a job is what its part has of it. -/
theorem sameFindings_of_result
    (hBefore : Owned owner d)
    (hAfter : Owned owner d')
    (hSame :
      SameResult job (d.ofJob owner job)
        (d'.ofJob owner job)) :
    SameFindings job d d' := by
  have hRow := hSame.find
  have hItems :
      (d'.ofJob owner job).liveItems job =
        (d.ofJob owner job).liveItems job := by
    rw [Db.liveItems, Db.liveItems, hSame.items]
  have hIssues :
      (d'.ofJob owner job).liveIssues job =
        (d.ofJob owner job).liveIssues job := by
    rw [Db.liveIssues, Db.liveIssues, hItems, hSame.issues]
  rw [find_ofJob, find_ofJob] at hRow
  rw [liveItems_ofJob, liveItems_ofJob] at hItems
  rw [liveIssues_ofJob hAfter, liveIssues_ofJob hBefore]
    at hIssues
  exact ⟨hRow, hItems, hIssues⟩

/-
  However the runs are interleaved and whatever fails or is
  lost, a run that returns `completed` has stored the result
  of its page for its job, one that does not changes no more
  than the status and the message of its job, and the other
  jobs stay as they are.
-/
theorem parallel_results
    (hSound : d.Sound)
    (hApart : Apart workers d)
    (hReach :
      (backend platform.dumpDepth).machine.Reaches
        Machine.anyEvent
        (startWorkers platform workers d) w) :
    (∀ t x, workers t = some x →
      (w.threads t = .live (.ret (.status .completed)) →
        Stored platform x.run x.job w.shared.committed) ∧
        (w.threads t ≠ .live (.ret (.status .completed)) →
          SameFindings x.job d w.shared.committed)) ∧
      ∀ job, (∀ t x, workers t = some x → job ≠ x.job) →
        SameView job d w.shared.committed := by
  rcases exists_owner hSound hApart with
    ⟨owner, hOwned, hDrawn⟩
  have hAfter : Owned owner w.shared.committed :=
    (Backend.heeding_of_reaches keeps_validation
      (heeding_startWorkers hOwned hDrawn) hReach).committed
  refine ⟨?_, ?_⟩
  · intro t x hWorker
    rcases
      alone_of_workers hOwned hDrawn hApart hReach hWorker
        with
      ⟨v, hRuns, hThread, hPart⟩
    have hResult :=
      result_of_run (sound_ofJob hSound hOwned) hRuns
    rw [hPart, Completed, hThread] at hResult
    refine ⟨?_, ?_⟩
    · intro hCompleted
      exact
        (hResult.2.1 hCompleted).of_view
          (sameView_ofJob hAfter)
    · intro hFailed
      exact
        sameFindings_of_result hOwned hAfter
          (hResult.2.2 hFailed)
  · intro job hOther
    have hSame :=
      ofJob_of_workers hOwned hDrawn hReach hOther
    have hNow : SameView job _ w.shared.committed :=
      sameView_ofJob hAfter
    rw [hSame] at hNow
    exact (sameView_ofJob hOwned).symm.trans hNow

------------------------------------------------------------
-- Two Workers
------------------------------------------------------------

/- Two jobs, which have the numbers of their workers. -/
def twoJobsDb : Db where
  jobs := [newJob, { newJob with id := 1 }]
  items := []
  issues := []

/- The first run draws the even ids, the second the odd. -/
def alternatingRun (t : Nat) : Delivery where
  client := fun _ => .text ""
  itemId := fun n => 2 * n + t
  issueId := fun n => n

def twoWorkers (t : Tid) : Option Worker :=
  if t < 2 then
    some ⟨t, alternatingRun t⟩
  else
    none

theorem eq_of_alternating
    {t t' n n' : Nat}
    (hLt : t < 2)
    (hLt' : t' < 2)
    (hSame : 2 * n + t = 2 * n' + t') : t = t' := by
  omega

theorem sound_twoJobsDb : twoJobsDb.Sound where
  jobs := by
    change [0, 1].Nodup
    decide
  items := List.nodup_nil
  issues := fun _ hMem => by cases hMem

theorem apart_twoWorkers :
    Apart twoWorkers twoJobsDb where
  jobs := by
    intro t t' x x' hWorker hWorker' hJob
    unfold twoWorkers at hWorker hWorker'
    split at hWorker <;> cases hWorker
    split at hWorker' <;> cases hWorker'
    exact hJob
  drawn := by
    intro t t' x x' n n' hWorker hWorker' hDrawn
    unfold twoWorkers at hWorker hWorker'
    split at hWorker <;> cases hWorker
    split at hWorker' <;> cases hWorker'
    rename_i hLt hLt'
    exact eq_of_alternating hLt hLt' hDrawn
  fresh := fun _ _ _ _ _ hMem => by cases hMem

theorem fresh_alternatingRun
    (t : Nat) : (alternatingRun t).Fresh twoJobsDb where
  itemIds := by
    intro n n' hSame
    have hSum : 2 * n + t = 2 * n' + t := hSame
    omega
  issueIds := fun _ _ hSame => hSame
  items := fun _ _ hMem => by cases hMem
  issues := fun _ _ hMem => by cases hMem

theorem completes_alternatingRun :
    Completes (typedPlatform thingType) (alternatingRun 0) 0
      "" twoJobsDb :=
  completes_of_fits sound_twoJobsDb (fresh_alternatingRun 0)
    rfl rfl rfl rfl pageFits_thing

/- A run executes a statement before it returns. -/
theorem processValidation_ne_ret
    {run : Delivery}
    {outcome : ProcessOutcome} :
    processValidation platform run job ≠ .ret outcome := by
  intro hSame
  cases hSame

/- The first worker completes before the second begins. -/
theorem first_completes :
    ∃ w,
      (backend (typedPlatform
          thingType).dumpDepth).machine.Reaches
        Machine.anyEvent
        (startWorkers (typedPlatform thingType) twoWorkers
          twoJobsDb) w ∧
        w.threads 0 = .live (.ret (.status .completed)) ∧
          w.threads 1 =
            .live
              (processValidation (typedPlatform thingType)
                (alternatingRun 1) 1) := by
  rcases completes_alternatingRun with ⟨objects, s, hRun, _⟩
  have hThread :
      (startWorkers (typedPlatform thingType) twoWorkers
          twoJobsDb).threads 0 =
        .live
          (processValidation (typedPlatform thingType)
            (alternatingRun 0) 0) := rfl
  refine
    ⟨_,
      Machine.reaches_of_run (undisturbed noAnswers) hThread
        hRun,
      World.put_threads_self _ _ 0 _, ?_⟩
  rw [World.put_threads_of_ne _ _ _ Nat.one_ne_zero]
  rfl

/-
  The first worker has stored its result, and the job of the
  second is as it was.
-/
theorem parallel_results_two :
    ∃ d,
      Stored (typedPlatform thingType) (alternatingRun 0) 0
          d ∧
        SameFindings 1 twoJobsDb d := by
  rcases first_completes with
    ⟨w, hReach, hFirst, hSecond⟩
  have hResults :=
    (parallel_results sound_twoJobsDb apart_twoWorkers
      hReach).1
  have hBegun :
      w.threads 1 ≠ .live (.ret (.status .completed)) := by
    rw [hSecond]
    intro hSame
    exact processValidation_ne_ret (Thread.live.inj hSame)
  exact
    ⟨w.shared.committed, (hResults 0 _ rfl).1 hFirst,
      (hResults 1 _ rfl).2 hBegun⟩

end SiteAnalysis.Validator
