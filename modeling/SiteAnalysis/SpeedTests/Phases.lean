import SiteAnalysis.Reports.Keeping
import SiteAnalysis.SpeedTests.Service

/-
  This file defines the phases of a submission and what the
  threads of the system keep of them.

  Before the commit of the outermost block nothing is stored
  for the others to see and nothing is sent.  The commit
  stores the speed test with its two reports, and the tasks
  are sent one after the other from then on.

  Key definitions include:
    * `start`
    * `BrokerAccepts`
    * `Before`
    * `After`
    * `Keeps`
    * `submissionRegime`

  Key theorems include:
    * `Consistent.keeps`
    * `kept_asks`
    * `calm_rollUp`
-/

------------------------------------------------------------
-- One Submission and its Workers
------------------------------------------------------------

namespace SiteAnalysis.SpeedTests

open Concurrency
open Relational
open Python
open Reports

/- How a thread ends. -/
inductive Finished
  | submitted (row : SpeedTest)
  | delivered (task : Task) (outcome : TaskOutcome)

abbrev SubmissionWorld :=
  World (Store Db HistoryKey) (TxOp Statement)
    (TxOp.Res Statement.Answer) Exc Finished

def program
    (tools : Tools)
    (s : Submission)
    (attempts : Tid → Attempt)
    (t : Tid) : Service Finished :=
  if t = 0 then do
    let row ← submitSpeedTest s
    pure (.submitted row)
  else do
    let done ← deliver tools (attempts t)
    pure (.delivered done.1 done.2)

/- Thread 0 submits; every other thread is a worker. -/
def start
    (tools : Tools)
    (s : Submission)
    (attempts : Tid → Attempt)
    (d : Db) : SubmissionWorld where
  shared := Store.quiet d
  threads := fun t => .live (program tools s attempts t)

/- No dispatch fails; any other statement may raise. -/
def BrokerAccepts
    (w : SubmissionWorld) : Event (Choice Exc Reply) → Prop
| .step t (.fault _) =>
    ∀ task,
      (w.threads t).head ≠ some (.query (.delay task))
| _ => True

/- The row of the speed test. -/
def Submission.row (s : Submission) : SpeedTest where
  id := s.speedTestId
  user := s.user
  url := s.url
  strategy := s.strategy
  googleReport := some s.googleId
  gtmetrixReport := some s.gtmetrixId
  isDeleted := false
  deletedAt := none

/- The tasks, in the order in which they are sent. -/
def Submission.tasks (s : Submission) : List Task :=
  [.analysis s.googleId, .gtmetrix s.gtmetrixId]

------------------------------------------------------------
-- Stored Rows
------------------------------------------------------------

/- The keys of the stored reports. -/
def ids
    (d : Db)
    (kind : ReportKind) : List ReportId :=
  (d.base.reports kind).map Report.id

/- The lookup of the report finds it. -/
def Shown
    (d : Db)
    (kind : ReportKind)
    (reportId : ReportId) : Prop :=
  ∃ row, d.base.find kind reportId = some row ∧
    row.isDeleted = false

/- Nothing has been stored or sent since `d₀`. -/
structure Before (d₀ d : Db) : Prop where
  speedTests : d.speedTests = d₀.speedTests
  ids : ∀ kind, ids d kind = ids d₀ kind
  dispatched : d.dispatched = d₀.dispatched

/- The new rows are stored, and no others. -/
structure Committed
    (s : Submission)
    (d₀ d : Db) : Prop where
  speedTests : d.speedTests = d₀.speedTests ++ [s.row]
  analysis :
    ids d .analysis = ids d₀ .analysis ++ [s.googleId]
  gtmetrix :
    ids d .gtmetrix = ids d₀ .gtmetrix ++ [s.gtmetrixId]
  ssl : ids d .ssl = ids d₀ .ssl
  google : Shown d .analysis s.googleId
  shown : Shown d .gtmetrix s.gtmetrixId

/- The rows are stored, and some of the tasks are sent. -/
structure After
    (s : Submission)
    (d₀ : Db)
    (sent : Nat)
    (d : Db) : Prop extends Committed s d₀ d where
  dispatched :
    d.dispatched = d₀.dispatched ++ s.tasks.take sent

/- The rows and the queue are not touched. -/
structure Keeps (d d' : Db) : Prop where
  speedTests : d'.speedTests = d.speedTests
  dispatched : d'.dispatched = d.dispatched
  ids : ∀ kind, ids d' kind = ids d kind
  shown :
    ∀ kind reportId, Shown d kind reportId →
      Shown d' kind reportId

variable {s : Submission} {d₀ d d' : Db}

/- A key of a table is found in it. -/
theorem find_of_mem_ids
    {kind : ReportKind}
    {reportId : ReportId}
    (hMem : reportId ∈ ids d kind) :
    ∃ row, d.base.find kind reportId = some row := by
  cases hFind : d.base.find kind reportId with
  | some row => exact ⟨row, rfl⟩
  | none =>
      rcases List.mem_map.mp hMem with ⟨row, hRow, hKey⟩
      exact
        absurd hKey (Table.find_eq_none_iff.mp hFind row hRow)

theorem mem_ids_of_find
    {kind : ReportKind}
    {reportId : ReportId}
    {row : Report kind}
    (hFind : d.base.find kind reportId = some row) :
    reportId ∈ ids d kind :=
  List.mem_map.mpr
    ⟨row, Table.mem_of_find hFind, Table.key_of_find hFind⟩

theorem keeps_refl
    (d : Db) : Keeps d d where
  speedTests := rfl
  dispatched := rfl
  ids := fun _ => rfl
  shown := fun _ _ hShown => hShown

theorem keeps_trans
    (d d' d'' : Db)
    (hLeft : Keeps d d')
    (hRight : Keeps d' d'') : Keeps d d'' where
  speedTests := hRight.speedTests.trans hLeft.speedTests
  dispatched := hRight.dispatched.trans hLeft.dispatched
  ids := fun kind =>
    (hRight.ids kind).trans (hLeft.ids kind)
  shown := fun kind reportId hShown =>
    hRight.shown kind reportId
      (hLeft.shown kind reportId hShown)

/- The reports have not changed. -/
theorem keeps_of_reports
    {f : Reports.Db → Reports.Db}
    (hReports : (f d.base).reports = d.base.reports) :
    Keeps d (onBase f d) where
  speedTests := rfl
  dispatched := rfl
  ids := by
    intro kind
    simp only [SpeedTests.ids, onBase, hReports]
  shown := by
    intro kind reportId hShown
    simpa only [Shown, onBase, Reports.Db.find, hReports]
      using hShown

/- A stored report is saved, and is not deleted by that. -/
theorem keeps_putReport
    {kind : ReportKind}
    {row old : Report kind}
    (hFind : d.base.find kind row.id = some old)
    (hDeleted :
      old.isDeleted = false → row.isDeleted = false) :
    Keeps d (onBase (putReport row) d) where
  speedTests := rfl
  dispatched := rfl
  ids := by
    intro kind'
    have hOld :
        Table.find Report.id row.id (d.base.reports kind) =
          some old := hFind
    by_cases hKind : kind' = kind
    · subst hKind
      simp only [SpeedTests.ids, onBase, putReport,
        Function.update_self, putRow, hOld]
      exact Table.update_keys (fun _ _ => rfl)
    · simp only [SpeedTests.ids, onBase, putReport,
        Function.update_of_ne hKind]
  shown := by
    rintro kind' reportId ⟨row', hFind', hLive⟩
    by_cases hSame : kind' = kind ∧ reportId = row.id
    · rcases hSame with ⟨rfl, rfl⟩
      rw [hFind] at hFind'
      cases hFind'
      exact
        ⟨row, find_putReport_self row d.base,
          hDeleted hLive⟩
    · refine ⟨row', ?_, hLive⟩
      change
        (putReport row d.base).find kind' reportId =
          some row'
      rw [find_putReport_of_ne d.base]
      · exact hFind'
      · intro hKind hId
        exact hSame ⟨hKind, hId⟩

------------------------------------------------------------
-- Phases
------------------------------------------------------------

theorem Before.keeps
    (hBefore : Before d₀ d)
    (hKeeps : Keeps d d') : Before d₀ d' where
  speedTests := hKeeps.speedTests.trans hBefore.speedTests
  ids := fun kind =>
    (hKeeps.ids kind).trans (hBefore.ids kind)
  dispatched := hKeeps.dispatched.trans hBefore.dispatched

theorem Committed.keeps
    (hCommitted : Committed s d₀ d)
    (hKeeps : Keeps d d') : Committed s d₀ d' where
  speedTests :=
    hKeeps.speedTests.trans hCommitted.speedTests
  analysis := (hKeeps.ids _).trans hCommitted.analysis
  gtmetrix := (hKeeps.ids _).trans hCommitted.gtmetrix
  ssl := (hKeeps.ids _).trans hCommitted.ssl
  google := hKeeps.shown _ _ hCommitted.google
  shown := hKeeps.shown _ _ hCommitted.shown

theorem After.keeps
    {sent : Nat}
    (hAfter : After s d₀ sent d)
    (hKeeps : Keeps d d') : After s d₀ sent d' where
  toCommitted := hAfter.toCommitted.keeps hKeeps
  dispatched := hKeeps.dispatched.trans hAfter.dispatched

/- The report of a task. -/
def Task.kind : Task → ReportKind
| .analysis _ => .analysis
| .gtmetrix _ => .gtmetrix

def Task.report : Task → ReportId
| .analysis reportId => reportId
| .gtmetrix reportId => reportId

/- The reports of the tasks are stored. -/
theorem Committed.shown_of_task
    {task : Task}
    (hCommitted : Committed s d₀ d)
    (hTask : task ∈ s.tasks) :
    Shown d task.kind task.report := by
  simp only [Submission.tasks, List.mem_cons,
    List.not_mem_nil, or_false] at hTask
  rcases hTask with rfl | rfl
  · exact hCommitted.google
  · exact hCommitted.shown

------------------------------------------------------------
-- The Regime
------------------------------------------------------------

/-
  What is noted of a thread: how far the submission has come,
  or what a worker has received and loaded.
-/
inductive Note
  | opened
  | sent (tasks : Nat)
  | idle
  | received (task : Task)
  | loaded (kind : ReportKind) (reportId : ReportId)

/- A worker has its task from the queue, and its report. -/
def Note.Holds (d : Db) : Note → Prop
| .received task => task ∈ d.dispatched
| .loaded kind reportId => reportId ∈ ids d kind
| _ => True

def Note.Phase
    (s : Submission)
    (d₀ d : Db) : Note → Prop
| .opened => Before d₀ d
| .sent tasks => After s d₀ tasks d
| _ => False

structure Consistent
    (s : Submission)
    (d₀ d : Db)
    (ns : Tid → Note) : Prop where
  phase : (ns 0).Phase s d₀ d
  workers : ∀ t, (ns t).Holds d

def noteStatement :
    (q : Statement) → q.Answer → Note → Note
| .delay _, _, .sent tasks => .sent (tasks + 1)
| .receive, task, .idle => .received task
| .report (.getReport kind reportId), _, .received _ =>
    .loaded kind reportId
| _, _, n => n

/- A worker loads the report of the task it has received. -/
def Heeded (n : Note) : Statement → Prop
| .report (.getReport kind reportId) =>
    ∃ task, n = .received task ∧ task.kind = kind ∧
      task.report = reportId
| _ => True

def submissionRegime
    (repr : Json → String)
    (s : Submission)
    (d₀ : Db) :
    Regime (backend repr) Finished Unit Unit Note where
  ok := BrokerAccepts
  frag := fun _ _ => ()
  own := fun _ _ => ()
  inv := fun d ns _ => Consistent s d₀ d ns
  antitone := fun _ _ _ _ _ hInv => hInv
  guar := fun _ _ _ => True
  guar_refl := fun _ _ => trivial
  shape := fun l o =>
    ∀ q, o = some (.query q) → Heeded l.note q
  note := fun _ q a _ n => noteStatement q a n
  noteError := fun _ n => n
  inv_error := by
    intro t q d ns live hInv
    rw [Function.update_eq_self]
    exact hInv
  noteCommit := fun t _ n => if t = 0 then .sent 0 else n
  noteLost := fun n => n

------------------------------------------------------------
-- Statements on the Reports
------------------------------------------------------------

variable {repr : Json → String} {t : Tid}
variable {ns : Tid → Note}

theorem Consistent.keeps
    (hConsistent : Consistent s d₀ d ns)
    (hKeeps : Keeps d d') : Consistent s d₀ d' ns where
  phase := by
    have hPhase := hConsistent.phase
    cases hNote : ns 0 with
    | opened =>
        rw [hNote] at hPhase
        exact Before.keeps hPhase hKeeps
    | sent tasks =>
        rw [hNote] at hPhase
        exact After.keeps hPhase hKeeps
    | _ =>
        rw [hNote] at hPhase
        exact hPhase.elim
  workers := by
    intro t
    have hHolds := hConsistent.workers t
    cases hNote : ns t with
    | received task =>
        rw [hNote] at hHolds
        change task ∈ d'.dispatched
        rw [hKeeps.dispatched]
        exact hHolds
    | loaded kind reportId =>
        rw [hNote] at hHolds
        change reportId ∈ ids d' kind
        rw [hKeeps.ids]
        exact hHolds
    | _ => trivial

theorem follows_keeps
    (hWorker : t ≠ 0) :
    (submissionRegime repr s d₀).Follows Keeps t where
  refl := keeps_refl
  trans := keeps_trans
  inv := fun _ _ _ _ hKeeps hInv => hInv.keeps hKeeps
  guar := fun _ _ _ => trivial
  own := fun _ _ _ => rfl
  frag := fun _ _ _ _ => rfl
  shape := by
    intro l o hOther q hQuery
    exact absurd (Option.some.inj hQuery) (hOther q)
  noteCommit := fun _ _ => if_neg hWorker

/- A party outside does not touch rows or queue. -/
theorem keeps_of_reply
    {q : Reports.Statement}
    {x : Reply}
    {a : q.Answer}
    (hReply : reply (.report q) x d = some (a, d')) :
    Keeps d d' := by
  cases x with
  | report x =>
      rcases hAnswer : Reports.reply q x d.base with
        _ | ⟨b, base⟩
      · simp [reply, hAnswer] at hReply
      · simp only [reply, hAnswer, Option.map_some,
          Option.some.injEq, Prod.mk.injEq] at hReply
        rw [← hReply.2]
        exact
          keeps_of_reports (f := fun _ => base)
            (reports_of_reply hAnswer)
  | _ => cases hReply

/- A save of some fields of a report. -/
theorem keeps_saveFields
    {kind : ReportKind}
    {object row : Report kind}
    {fields : List ReportField}
    {a : Unit}
    {lock : Option HistoryKey}
    {f : Reports.Db → Reports.Db}
    (hFields : .isDeleted ∉ fields)
    (hFind : d.base.find kind object.id = some row)
    (hWrite :
      writeReport repr (object.assign fields row) =
        .done a lock f) :
    Keeps d (onBase f d) := by
  rcases writeReport_eq_done hWrite with
    ⟨_, saved, hPrepare, _, rfl⟩
  have hEq := Report.eq_of_prepare hPrepare
  have hRowId : row.id = object.id := id_of_find hFind
  have hId : saved.id = object.id := by
    rw [hEq]
    exact hRowId
  have hFound : d.base.find kind saved.id = some row := by
    rw [hId]
    exact hFind
  apply keeps_putReport hFound
  intro hLive
  rw [hEq]
  simpa [Report.assign, hFields] using hLive

/- A report that is not asked for from the queue. -/
theorem unnoted_report
    {q : Reports.Statement}
    (hOther : ∀ kind reportId, q ≠ .getReport kind reportId) :
    (submissionRegime repr s d₀).Unnoted t (.report q) where
  shape := by
    intro l q' hQuery
    cases hQuery
    cases q with
    | getReport kind reportId =>
        exact absurd rfl (hOther kind reportId)
    | _ => trivial
  note := by
    intro a d n
    cases q with
    | getReport kind reportId =>
        exact absurd rfl (hOther kind reportId)
    | _ => rfl
  noteError := fun _ => rfl

/- What a worker asks others. -/
theorem kept_asks
    {q : Reports.Statement}
    (hAsks : Asks q) :
    (submissionRegime repr s d₀).KeptQuery Keeps t
      (.report q) where
  toUnnoted := by
    apply unnoted_report
    rintro kind reportId rfl
    exact hAsks
  reply := fun _ _ _ _ hReply => keeps_of_reply hReply
  plan := by
    intro d ns live _ a lock f hPlan
    rcases Verdict.embed_eq_done hPlan with ⟨g, hDone, rfl⟩
    cases q with
    | saveReportFields kind object fields =>
        simp only [Reports.plan] at hDone
        split at hDone
        · cases hDone
        · rename_i row hFind
          refine keeps_saveFields ?_ hFind hDone
          rcases hAsks with ⟨hFields, _⟩ | hFields
          · simp [hFields]
          · simp [hFields]
    | _ => first | exact False.elim hAsks | cases hDone

/- A rollup. -/
theorem calm_rollUp
    {q : Reports.Statement}
    (hRollsUp : RollsUp q) :
    (submissionRegime repr s d₀).CalmQuery Keeps t
      (.report q) where
  toUnnoted := by
    apply unnoted_report
    rintro kind reportId rfl
    exact hRollsUp
  reply := fun _ _ _ _ hReply => keeps_of_reply hReply
  plan := by
    intro d a lock f hPlan d'
    rcases Verdict.embed_eq_done hPlan with ⟨g, hDone, rfl⟩
    exact
      keeps_of_reports
        (reports_of_rollsUp hRollsUp hDone d'.base)

end SiteAnalysis.SpeedTests
