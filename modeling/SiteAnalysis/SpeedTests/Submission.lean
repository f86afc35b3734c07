import SiteAnalysis.Reports.Deletion
import SiteAnalysis.SpeedTests.Delivery

/-
  This file proves that a submission is all or nothing.

  Key definitions include:
    * `AllOrNothing`

  Key theorems include:
    * `wp_insertReport`
    * `wp_createSpeedTest`
    * `wp_sendAll`
    * `submission_all_or_nothing`
-/

------------------------------------------------------------
-- The Outermost Block
------------------------------------------------------------

namespace SiteAnalysis.SpeedTests

open Concurrency
open Relational
open Python
open Reports

variable {s : Submission} {d₀ d d' : Db}
variable {repr : Json → String} {t : Tid}
variable {ns : Tid → Note} {l : Knows}

/- A transaction that is open, with one frame. -/
structure Opened
    (l : Knows)
    (fr : Frame Db HistoryKey) : Prop where
  frames : l.session.frames = [fr]
  intact : fr.broken = false
  note : l.note = .opened

theorem Opened.abandons
    {fr : Frame Db HistoryKey}
    (hOpened : Opened l fr) :
    Regime.Abandons () .opened l where
  frames := ⟨fr, hOpened.frames⟩
  own := rfl
  note := hOpened.note

/- A row of the object is inserted with no other. -/
structure Inserts
    (d₀ : Db)
    {kind : ReportKind}
    (object row : Report kind) : Prop where
  id : row.id = object.id
  isDeleted : row.isDeleted = object.isDeleted
  fresh : object.id ∉ ids d₀ kind

/- The outermost block has not been committed. -/
theorem before_of_fits
    {live : Tid → Prop}
    (hFits :
      (submissionRegime repr s d₀).Fits 0 l d ns live)
    (hNote : l.note = .opened) :
    Before d₀ d := by
  have hPhase := hFits.inv.phase
  rw [hFits.note, hNote] at hPhase
  exact hPhase

/- The savepoint in which a row is inserted. -/
def inserting
    {kind : ReportKind}
    (row : Report kind) : Frame Db HistoryKey where
  pending := insertReport row
  locks := []
  broken := false

/- The insertion is one more pending write of the block. -/
def Inserted
    (d₀ : Db)
    {kind : ReportKind}
    (object : Report kind)
    (fr : Frame Db HistoryKey)
    (l : Knows) : Prop :=
  ∃ row fr', Inserts d₀ object row ∧ Opened l fr' ∧
    ∀ d, fr'.pending d = insertReport row (fr.pending d)

section Insertions

variable {kind : ReportKind} {object row : Report kind}
variable {fr : Frame Db HistoryKey}

/- A statement that is not a query is always allowed. -/
theorem shape_of_other
    {l : Knows}
    {o : TxOp Statement}
    (hOther : ∀ q, o ≠ .query q) :
    (submissionRegime repr s d₀).shape l (some o) := by
  intro q hQuery
  exact absurd (Option.some.inj hQuery) (hOther q)

/- The savepoint of the insertion is ready to be merged. -/
theorem merges_insert
    {E : Exc → Knows → Prop}
    {l' : Knows}
    (hOpened : Opened l fr)
    (hInserts : Inserts d₀ object row)
    (hSession :
      l'.session = l.session.begin.write (insertReport row))
    (hNote : l'.note = .opened)
    (hRaise :
      ∀ e l'', Regime.Abandons () .opened l'' → E e l'') :
    (submissionRegime repr s d₀).Merges 0 E
      (Inserted d₀ object fr) fr [] l' (inserting row) := by
  have hFrames :
      l'.session.frames = [inserting row, fr] := by
    rw [hSession, Session.begin, hOpened.frames]
    rfl
  constructor
  · apply shape_of_other
    intro q hSame
    cases hSame
  · exact hFrames
  · rfl
  · intro e _
    apply hRaise
    refine ⟨⟨fr, ?_⟩, rfl, hNote⟩
    simp [Session.rollback, hFrames]
  · refine
      ⟨row, fr.absorb (inserting row), hInserts, ?_,
        fun _ => rfl⟩
    refine ⟨?_, hOpened.intact, hNote⟩
    simp [Session.merge, hFrames]

/- The service that inserts a report, in its savepoint. -/
theorem wp_insertReport
    {tasks : List Task}
    (hOpened : Opened l fr)
    (hSeen :
      ∀ d, (fr.pending d).base.reports kind =
        d.base.reports kind) :
    (submissionRegime repr s d₀).wp 0
      (atomic
        (do
          query (.insertReport kind object)
          pure (object, tasks)))
      (fun a l' =>
        a = (object, tasks) ∧ Inserted d₀ object fr l')
      (fun _ => Regime.Abandons () .opened) l := by
  have hFrames :
      l.session.begin.frames = [Frame.fresh, fr] := by
    rw [Session.begin, hOpened.frames]
  have hRollback :
      (submissionRegime repr s d₀).shape
        { l with session := l.session.begin }
        (some .rollback) := by
    apply shape_of_other
    intro q hSame
    cases hSame
  apply Regime.wp_savepoint
  · apply shape_of_other
    intro q hSame
    cases hSame
  · intro e _
    exact hOpened.abandons
  apply Discipline.wp_bind
  apply Regime.wp_execute_open ?_ hFrames rfl
  · intro e _
    refine ⟨hRollback, ⟨fr, ?_⟩, rfl, hOpened.note⟩
    simp [Session.fail, Session.rollback, hFrames]
  · intro d ns live _ x a d' _ hReply
    cases x <;> cases hReply
  · intro d ns live hFits _
    have hBefore := before_of_fits hFits hOpened.note
    have hView :
        l.session.begin.view d = fr.pending d := by
      simp [Session.view, hFrames, Frame.fresh]
    have hFind :
        (fr.pending d).base.find kind object.id =
          d.base.find kind object.id := by
      rw [Reports.Db.find, hSeen, Reports.Db.find]
    simp only [backend, plan]
    split
    · refine ⟨hRollback, ⟨fr, ?_⟩, rfl, hOpened.note⟩
      simp [Session.rollback, hFrames]
    · rename_i row hPrepare
      have hEq := Report.eq_of_prepare hPrepare
      have hId : row.id = object.id := by rw [hEq]
      rw [hView, hId, hFind]
      split
      · trivial
      · rename_i hNone
        split
        · trivial
        · have hInserts : Inserts d₀ object row := by
            refine ⟨hId, by rw [hEq], ?_⟩
            rw [← hBefore.ids]
            intro hMem
            rcases find_of_mem_ids hMem with ⟨old, hOld⟩
            rw [hNone] at hOld
            cases hOld
          refine
            ⟨Regime.inv_same hFits.inv hFits.note, ?_⟩
          have hMerges :
              (submissionRegime repr s d₀).Merges 0
                (fun _ => Regime.Abandons () .opened)
                (Inserted d₀ object fr) fr []
                { l with
                  session :=
                    l.session.begin.write
                      (insertReport row) }
                (inserting row) :=
            merges_insert hOpened hInserts rfl hOpened.note
              (fun _ _ hAbandons => hAbandons)
          exact
            ⟨inserting row, hMerges.shape, hMerges.frames,
              rfl, hMerges.fault, rfl, hMerges.done⟩
  · rintro q hQuery
    cases hQuery
    trivial

end Insertions

/- The keys after an insertion. -/
theorem ids_insertReport
    {kind : ReportKind}
    (row : Report kind)
    (d : Db)
    (kind' : ReportKind) :
    ids (insertReport row d) kind' =
      ids d kind' ++
        (if kind' = kind then [row.id] else []) := by
  by_cases hKind : kind' = kind
  · subst hKind
    simp [ids, insertReport]
  · simp [ids, insertReport, hKind]

/- A row with a new key is found after its insertion. -/
theorem shown_insertReport
    {kind : ReportKind}
    {object row : Report kind}
    (hInserts : Inserts d₀ object row)
    (hIds : ids d kind = ids d₀ kind)
    (hLive : object.isDeleted = false) :
    Shown (insertReport row d) kind object.id := by
  have hNone : d.base.find kind row.id = none := by
    cases hFind : d.base.find kind row.id with
    | none => rfl
    | some old =>
        have hMem := mem_ids_of_find hFind
        rw [hIds, hInserts.id] at hMem
        exact absurd hMem hInserts.fresh
  refine ⟨row, ?_, hInserts.isDeleted.trans hLive⟩
  rw [← hInserts.id]
  simp only [Reports.Db.find, insertReport,
    Function.update_self]
  exact Table.find_append_self hNone

/- An insertion shows what was shown before. -/
theorem Shown.insertReport
    {kind kind' : ReportKind}
    {row : Report kind'}
    {reportId : ReportId}
    (hShown : Shown d kind reportId) :
    Shown (insertReport row d) kind reportId := by
  rcases hShown with ⟨old, hFind, hLive⟩
  refine ⟨old, ?_, hLive⟩
  by_cases hKind : kind = kind'
  · subst hKind
    simp only [Reports.Db.find, SpeedTests.insertReport,
      Function.update_self, Table.find, List.find?_append]
    rw [Reports.Db.find, Table.find] at hFind
    rw [hFind]
    rfl
  · simpa [Reports.Db.find, SpeedTests.insertReport, hKind]
      using hFind

/- The submission advances; rows and queue only grow. -/
theorem Consistent.advance
    {tasks : Nat}
    (hConsistent : Consistent s d₀ d ns)
    (hAfter : After s d₀ tasks d')
    (hQueue :
      ∀ task, task ∈ d.dispatched → task ∈ d'.dispatched)
    (hIds :
      ∀ kind reportId, reportId ∈ ids d kind →
        reportId ∈ ids d' kind) :
    Consistent s d₀ d'
      (Function.update ns 0 (.sent tasks)) where
  phase := by
    rw [Function.update_self]
    exact hAfter
  workers := by
    intro t
    by_cases hSame : t = 0
    · subst hSame
      rw [Function.update_self]
      trivial
    · rw [Function.update_of_ne hSame]
      have hHolds := hConsistent.workers t
      cases hNote : ns t with
      | received task =>
          rw [hNote] at hHolds
          exact hQueue task hHolds
      | loaded kind reportId =>
          rw [hNote] at hHolds
          exact hIds kind reportId hHolds
      | _ => trivial

/- What the outermost block commits. -/
theorem after_of_before
    {google : AnalysisReport}
    {gtmetrix : GTmetrixReport}
    (hBefore : Before d₀ d)
    (hGoogle :
      Inserts d₀
        (pendingAnalysis s.googleId s.user s.url s.strategy)
        google)
    (hGtmetrix :
      Inserts d₀
        (pendingGtmetrix s.gtmetrixId s.user s.url)
        gtmetrix) :
    After s d₀ 0
      (insertSpeedTest s.row
        (insertReport gtmetrix (insertReport google d))) where
  speedTests := by
    change d.speedTests ++ [s.row] = _
    rw [hBefore.speedTests]
  analysis := by
    have hId : google.id = s.googleId := hGoogle.id
    change ids (insertReport gtmetrix _) _ = _
    simp [ids_insertReport, hBefore.ids, hId]
  gtmetrix := by
    have hId : gtmetrix.id = s.gtmetrixId := hGtmetrix.id
    change ids (insertReport gtmetrix _) _ = _
    simp [ids_insertReport, hBefore.ids, hId]
  ssl := by
    change ids (insertReport gtmetrix _) _ = _
    simp [ids_insertReport, hBefore.ids]
  google := by
    have hShown :=
      shown_insertReport hGoogle (hBefore.ids _) rfl
    have hBoth :
        Shown
          (insertReport gtmetrix (insertReport google d))
          .analysis s.googleId := hShown.insertReport
    exact hBoth
  shown := by
    apply shown_insertReport hGtmetrix _ rfl
    rw [ids_insertReport]
    simp [hBefore.ids]
  dispatched := by
    change d.dispatched = _
    rw [hBefore.dispatched]
    simp

/- The block is committed, and no task has been sent. -/
def Created
    (s : Submission)
    (a : SpeedTest × List Task)
    (l : Knows) : Prop :=
  a = (s.row, s.tasks) ∧ Regime.Resting () (.sent 0) l

theorem concludes_created
    {google : AnalysisReport}
    {gtmetrix : GTmetrixReport}
    {fr : Frame Db HistoryKey}
    (hGoogle :
      Inserts d₀
        (pendingAnalysis s.googleId s.user s.url s.strategy)
        google)
    (hGtmetrix :
      Inserts d₀
        (pendingGtmetrix s.gtmetrixId s.user s.url)
        gtmetrix)
    (hFrames : l.session.frames = [fr])
    (hIntact : fr.broken = false)
    (hNote : l.note = .opened)
    (hPending :
      ∀ d, fr.pending d =
        insertSpeedTest s.row
          (insertReport gtmetrix (insertReport google d))) :
    (submissionRegime repr s d₀).Concludes 0 () .opened
      (Created s (s.row, s.tasks)) l fr where
  frames := hFrames
  intact := hIntact
  own := rfl
  note := hNote
  publish := by
    intro d ns live hFits
    have hAfter :=
      after_of_before (before_of_fits hFits hNote) hGoogle
        hGtmetrix
    rw [hPending]
    refine
      ⟨⟨?_, trivial, fun _ _ => rfl, fun _ _ => rfl⟩, ?_⟩
    · apply hFits.inv.advance hAfter
      · intro task hTask
        exact hTask
      · intro kind reportId hMem
        change reportId ∈ ids (insertReport gtmetrix _) kind
        simp only [ids_insertReport, List.mem_append]
        exact Or.inl (Or.inl hMem)
    · intro l' hRest
      exact ⟨rfl, hRest⟩

theorem wp_createSpeedTest
    (hSession : l.session = Session.begin Session.idle)
    (hNote : l.note = .opened) :
    (submissionRegime repr s d₀).wp 0 (createSpeedTest s)
      (fun a l' =>
        ∃ fr,
          (submissionRegime repr s d₀).Concludes 0 ()
            .opened (Created s a) l' fr)
      (fun _ => Regime.Abandons () .opened) l := by
  have hOpened : Opened l Frame.fresh := by
    refine ⟨?_, rfl, hNote⟩
    rw [hSession]
    rfl
  apply Discipline.wp_bind
  apply
    Discipline.wp_mono (wp_insertReport hOpened (fun _ => rfl))
  · rintro _ l₁
      ⟨rfl, google, fr₁, hGoogle, hOpened₁, hFr₁⟩
    apply Discipline.wp_bind
    have hSeen :
        ∀ d, (fr₁.pending d).base.reports .gtmetrix =
          d.base.reports .gtmetrix := by
      intro d
      rw [hFr₁]
      rfl
    apply
      Discipline.wp_mono (wp_insertReport hOpened₁ hSeen)
    · rintro _ l₂
        ⟨rfl, gtmetrix, fr₂, hGtmetrix, hOpened₂, hFr₂⟩
      apply Discipline.wp_bind
      apply
        Regime.wp_execute_open ?_ hOpened₂.frames
          hOpened₂.intact
      · intro e _
        exact hOpened₂.abandons.fail
      · intro d ns live _ x a d' _ hReply
        cases x <;> cases hReply
      · intro d ns live hFits _
        simp only [backend, plan]
        split
        · trivial
        · unfold Verdict.writeIf
          split
          · trivial
          · refine
              ⟨Regime.inv_same hFits.inv hFits.note, ?_⟩
            refine
              ⟨{ fr₂ with
                 pending :=
                   insertSpeedTest s.row ∘ fr₂.pending },
                ?_⟩
            apply concludes_created hGoogle hGtmetrix
            · rw [Session.write, hOpened₂.frames]
              rfl
            · exact hOpened₂.intact
            · exact hOpened₂.note
            · intro d'
              change insertSpeedTest s.row (fr₂.pending d') = _
              rw [hFr₂, hFr₁]
              rfl
      · rintro q hQuery
        cases hQuery
        trivial
    · intro e l' hAbandons
      exact hAbandons
  · intro e l' hAbandons
    exact hAbandons

/- The next task is sent. -/
theorem After.send
    {sent rest : List Task}
    {task : Task}
    (hAfter : After s d₀ sent.length d)
    (hTasks : sent ++ task :: rest = s.tasks) :
    After s d₀ (sent.length + 1)
      { d with dispatched := d.dispatched ++ [task] } where
  toCommitted :=
    { speedTests := hAfter.speedTests
      analysis := hAfter.analysis
      gtmetrix := hAfter.gtmetrix
      ssl := hAfter.ssl
      google := hAfter.google
      shown := hAfter.shown }
  dispatched := by
    change d.dispatched ++ [task] = _
    rw [hAfter.dispatched, ← hTasks, List.append_assoc,
      List.take_left, List.take_length_add_append]
    rfl

/- The tasks are sent one after the other. -/
theorem wp_sendAll
    {E : Exc → Knows → Prop}
    (sent tasks : List Task)
    (hTasks : sent ++ tasks = s.tasks)
    (hRest : Regime.Resting () (.sent sent.length) l) :
    (submissionRegime repr s d₀).wp 0 (sendAll tasks)
      (fun _ => Regime.Resting () (.sent s.tasks.length)) E
      l := by
  induction tasks generalizing l sent with
  | nil =>
      rw [← hTasks, List.append_nil]
      exact hRest
  | cons task tasks ih =>
      apply Discipline.wp_bind
      apply Regime.wp_execute_rest _ hRest
      · rintro e l' _ (hFault | hRefuse)
        · rcases hFault with ⟨d, ns, live, _, hPermits⟩
          rcases hPermits.world with
            ⟨w, ls, _, _, _, _, hHead, hOk⟩
          exact absurd hHead (hOk task)
        · rcases hRefuse with ⟨d, ns, live, _, _, hPlan⟩
          cases hPlan
      · intro d ns live hRests x a d' _ hReply
        cases x with
        | accepted =>
            cases hReply
            have hPhase := hRests.inv.phase
            rw [hRests.note] at hPhase
            have hAfter := After.send hPhase hTasks
            refine
              ⟨⟨?_, trivial, fun _ _ => rfl,
                fun _ _ => rfl⟩, ?_⟩
            · apply hRests.inv.advance hAfter
              · intro task' hTask'
                exact List.mem_append_left _ hTask'
              · intro kind reportId hMem
                exact hMem
            · intro l' hRest'
              apply ih (sent ++ [task])
              · rw [← hTasks, List.append_assoc]
                rfl
              · rw [List.length_append]
                exact hRest'
        | _ => cases hReply
      · intro d ns live _ _
        trivial
      · rintro q hQuery
        cases hQuery
        trivial

/- The outermost block, and the tasks after its commit. -/
theorem wp_submitSpeedTest
    (hRest : Regime.Resting () .opened l) :
    (submissionRegime repr s d₀).wp 0 (submitSpeedTest s)
      (fun row l' =>
        row = s.row ∧
          Regime.Resting () (.sent s.tasks.length) l')
      (fun _ l' => l'.note = .opened) l := by
  have hOther :
      ∀ {l' : Knows} {o}, (∀ q, o ≠ TxOp.query q) →
        (submissionRegime repr s d₀).shape l' (some o) :=
    fun hSame => shape_of_other hSame
  apply Discipline.wp_bind
  refine
    Regime.wp_atomic_rest
      (hOther (fun q hSame => by cases hSame)) hRest ?_ ?_
  · intro e l' hRest' _
    exact hRest'.note
  · intro l₀ hSession _ hNote
    apply
      Discipline.wp_mono (wp_createSpeedTest hSession hNote)
    · rintro a l' ⟨fr, hConcludes⟩
      refine
        ⟨hOther (fun q hSame => by cases hSame), fr, .opened,
          ⟨hConcludes.frames, hConcludes.intact,
            hConcludes.own, hConcludes.note, ?_⟩,
          fun e l'' _ hRest' => hRest'.note⟩
      intro d ns live hFits
      have hPublish := hConcludes.publish d ns live hFits
      refine ⟨hPublish.1, ?_⟩
      intro l'' hRest''
      rcases hPublish.2 l'' hRest'' with ⟨rfl, hSent⟩
      apply Discipline.wp_bind
      apply
        Discipline.wp_mono (wp_sendAll [] s.tasks rfl hSent)
      · intro _ l₃ hRest₃
        exact ⟨rfl, hRest₃⟩
      · intro e l₃ hNote₃
        exact hNote₃
    · intro e l' hAbandons
      exact
        ⟨hOther (fun q hSame => by cases hSame), .opened,
          hAbandons, fun l'' hRest' => hRest'.note⟩

------------------------------------------------------------
-- Runs
------------------------------------------------------------

/-
  Either the rows are stored and then the tasks are sent, or
  there is neither row nor task.  A worker that is about to
  look for the report of a new task will find it.
-/
structure AllOrNothing
    (s : Submission)
    (d₀ : Db)
    (w : SubmissionWorld) : Prop where
  phase :
    Before d₀ w.shared.committed ∨
      ∃ sent, After s d₀ sent w.shared.committed
  returned :
    ∀ r, w.threads 0 = .live (.ret r) →
      r = .submitted s.row ∧
        Committed s d₀ w.shared.committed ∧
          w.shared.committed.dispatched =
            d₀.dispatched ++ s.tasks
  raised :
    ∀ e, w.threads 0 = .live (.raise e) →
      Before d₀ w.shared.committed
  found :
    ∀ t, ∀ task ∈ s.tasks, task ∉ d₀.dispatched →
      (w.threads t).head =
          some
            (.query
              (.report
                (.getReport task.kind task.report))) →
        Shown w.shared.committed task.kind task.report

/- How the threads end. -/
def Ended
    (s : Submission)
    (t : Tid)
    (r : Finished)
    (l : Knows) : Prop :=
  t = 0 →
    r = .submitted s.row ∧ l.note = .sent s.tasks.length

/- How they fail. -/
def Failed
    (t : Tid)
    (_ : Exc)
    (l : Knows) : Prop :=
  t = 0 → l.note = .opened

/- The thread of the submission has done nothing yet. -/
def firstNote (t : Tid) : Note :=
  if t = 0 then .opened else .idle

variable {tools : Tools} {attempts : Tid → Attempt}

theorem verified_start :
    (submissionRegime repr s d₀).Verified (Ended s) Failed
      d₀ firstNote (start tools s attempts d₀) where
  quiet := rfl
  inv := by
    constructor
    · exact ⟨rfl, fun _ => rfl, rfl⟩
    · intro t
      unfold firstNote
      split <;> trivial
  threads := by
    intro t
    refine ⟨program tools s attempts t, rfl, ?_⟩
    unfold program firstNote
    split
    · rename_i hSubmits
      subst hSubmits
      apply Discipline.wp_bind
      apply
        Discipline.wp_mono
          (wp_submitSpeedTest ⟨rfl, rfl, rfl⟩)
      · rintro row l ⟨rfl, hRest⟩ _
        exact ⟨rfl, hRest.note⟩
      · intro e l hNote _
        exact hNote
    · rename_i hWorker
      apply Discipline.wp_bind
      apply
        Discipline.wp_mono
          (wp_deliver hWorker ⟨rfl, rfl, rfl⟩)
      · intro done l _ hSubmits
        exact absurd hSubmits hWorker
      · intro e l _ hSubmits
        exact absurd hSubmits hWorker
  ret := by
    intro t r l _ q hQuery
    cases hQuery
  raise := by
    intro t e l _ q hQuery
    cases hQuery
  lose := by
    intro w ls t hHolds _ _
    refine ⟨Regime.inv_same hHolds.1.1 rfl, ?_⟩
    intro q hQuery
    cases hQuery

/- A task is its report. -/
theorem eq_of_report
    {task task' : Task}
    (hKind : task.kind = task'.kind)
    (hReport : task.report = task'.report) :
    task = task' := by
  cases task <;> cases task' <;>
    simp_all [Task.kind, Task.report]

/- The submission is all or nothing, at every moment. -/
theorem submission_all_or_nothing
    {w : SubmissionWorld}
    (hReach :
      (backend repr).machine.Reaches BrokerAccepts
        (start tools s attempts d₀) w) :
    AllOrNothing s d₀ w := by
  have hVerified :
      (submissionRegime repr s d₀).Verified (Ended s) Failed
        d₀ firstNote (start tools s attempts d₀) :=
    verified_start
  rcases hVerified.holds_of_reaches hReach with
    ⟨ls, hInv, hShape⟩
  have hConsistent :
      Consistent s d₀ w.shared.committed
        (fun t => (ls t).note) := hInv.1
  have hPhase := hConsistent.phase
  constructor
  · cases hNote : (ls 0).note with
    | opened =>
        rw [hNote] at hPhase
        exact Or.inl hPhase
    | sent tasks =>
        rw [hNote] at hPhase
        exact Or.inr ⟨tasks, hPhase⟩
    | _ =>
        rw [hNote] at hPhase
        exact hPhase.elim
  · intro r hRet
    rcases hVerified.inv_of_ret hReach hRet with
      ⟨l, ns, hEnded, hNote, hHolds⟩
    rcases hEnded rfl with ⟨hRow, hSent⟩
    have hLast := hHolds.phase
    rw [hNote, hSent] at hLast
    refine ⟨hRow, hLast.toCommitted, ?_⟩
    have hQueue := hLast.dispatched
    rw [List.take_length] at hQueue
    exact hQueue
  · intro e hRaise
    rcases hVerified.inv_of_raise hReach hRaise with
      ⟨l, ns, hFailed, hNote, hHolds⟩
    have hLast := hHolds.phase
    rw [hNote, hFailed rfl] at hLast
    exact hLast
  · intro t task hTask hFresh hHead
    rcases hShape t _ hHead with
      ⟨task', hNote, hKind, hReport⟩
    have hSame := eq_of_report hKind hReport
    subst hSame
    have hQueued := hConsistent.workers t
    rw [hNote] at hQueued
    cases hFirst : (ls 0).note with
    | opened =>
        rw [hFirst] at hPhase
        have hBefore : Before d₀ w.shared.committed := hPhase
        change task' ∈ w.shared.committed.dispatched
          at hQueued
        rw [hBefore.dispatched] at hQueued
        exact absurd hQueued hFresh
    | sent tasks =>
        rw [hFirst] at hPhase
        exact hPhase.toCommitted.shown_of_task hTask
    | _ =>
        rw [hFirst] at hPhase
        exact hPhase.elim

------------------------------------------------------------
-- A Submission with One Delivery
------------------------------------------------------------

def noRows : Db where
  base :=
    { reports := fun _ => []
      histories := []
      cache := fun _ => none
      posts := [] }
  speedTests := []
  dispatched := []

def guestSubmission : Submission where
  user := none
  url := "https://example.com"
  strategy := "mobile"
  googleId := 1
  gtmetrixId := 2
  speedTestId := 3

abbrev opening : SubmissionWorld :=
  start someTools guestSubmission (fun _ => ⟨0, 0, 0⟩) noRows

/- Three blocks, two tasks, and one of them is delivered. -/
def firstDelivery : List (Event (Choice Exc Reply)) :=
  List.replicate 9 (.step 0 .proceed) ++
    [.step 0 (.reply .accepted), .step 0 (.reply .accepted),
      .step 1 (.reply (.delivered (.analysis 1)))]

abbrev delivered : SubmissionWorld :=
  ((backend someTools.repr).machine.replay opening
    firstDelivery).getD opening

/- The worker will find the report of its task. -/
theorem submission_all_or_nothing_delivered :
    delivered.shared.committed.dispatched =
        [.analysis 1, .gtmetrix 2] ∧
      Shown delivered.shared.committed .analysis 1 := by
  have hReach :
      (backend someTools.repr).machine.Reaches BrokerAccepts
        opening delivered := by
    apply Machine.reaches_of_replay_where firstDelivery
    · intro v e hEvent
      simp only [firstDelivery, List.mem_append,
        List.mem_replicate, List.mem_cons,
        List.not_mem_nil, or_false] at hEvent
      rcases hEvent with ⟨_, rfl⟩ | rfl | rfl | rfl
      · trivial
      · trivial
      · trivial
      · trivial
    · rfl
  have hAll := submission_all_or_nothing hReach
  refine ⟨rfl, ?_⟩
  apply hAll.found 1 (.analysis 1)
  · decide
  · intro hQueued
    cases hQueued
  · rfl

end SiteAnalysis.SpeedTests
