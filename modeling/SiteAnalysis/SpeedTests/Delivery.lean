import SiteAnalysis.SpeedTests.Phases

/-
  This file proves that the workers keep the phase of a
  submission.

  Key theorems include:
    * `wp_asks`
    * `wp_getReport`
    * `wp_saveReport`
    * `wp_deliver`
-/

------------------------------------------------------------
-- Statements of a Worker
------------------------------------------------------------

namespace SiteAnalysis.SpeedTests

open Concurrency
open Relational
open Python
open Reports

variable {s : Submission} {d₀ d : Db}
variable {repr : Json → String} {t : Tid}
variable {ns : Tid → Note}

/- What a thread of the system knows. -/
abbrev Knows :=
  Regime.Local Db HistoryKey Unit Unit Note

variable {l : Knows} {n : Note}

/- One statement on the reports. -/
theorem ofReports_query
    (q : Reports.Statement) :
    Service.ofReports (Reports.query q) =
      query (.report q) := by
  change Prog.call _ _ = Prog.call _ _
  congr 1
  funext r
  cases r <;> rfl

/- A part of an attempt that asks others. -/
theorem wp_asks
    {β : Type}
    {p : Reports.Service β}
    (hWorker : t ≠ 0)
    (hAsks : p.Conforms AsksOp)
    (hRest : Regime.Resting () n l) :
    (submissionRegime repr s d₀).wp t (Service.ofReports p)
      (fun _ => Regime.Resting () n)
      (fun _ => Regime.Resting () n) l := by
  apply Regime.wp_kept (follows_keeps hWorker).toBears _ hRest
  apply hAsks.embed
  rintro o ⟨q, rfl, hQuery⟩
  exact ⟨.report q, rfl, kept_asks hQuery⟩

/- A new note that holds of the data. -/
theorem Consistent.update
    (hWorker : t ≠ 0)
    (hConsistent : Consistent s d₀ d ns)
    (hNote : n.Holds d) :
    Consistent s d₀ d (Function.update ns t n) where
  phase := by
    rw [Function.update_of_ne (Ne.symm hWorker)]
    exact hConsistent.phase
  workers := by
    intro t'
    by_cases hSame : t' = t
    · subst hSame
      rw [Function.update_self]
      exact hNote
    · rw [Function.update_of_ne hSame]
      exact hConsistent.workers t'

/- The statement that loads the report of the task. -/
theorem wp_getReport
    {task : Task}
    {E : Exc → Knows → Prop}
    (hWorker : t ≠ 0)
    (hRest : Regime.Resting () (.received task) l)
    (hRaise : ∀ e l', E e l') :
    (submissionRegime repr s d₀).wp t
      (query (.report (.getReport task.kind task.report)))
      (fun row l' =>
        row.id = task.report ∧ row.isDeleted = false ∧
          Regime.Resting ()
            (.loaded task.kind task.report) l')
      E l := by
  apply Regime.wp_execute_rest _ hRest
  · intro e l' _ _
    exact hRaise e l'
  · intro d ns live _ x a d' _ hReply
    cases x with
    | report x => cases hReply
    | _ => cases hReply
  · intro d ns live hRests _
    simp only [backend, plan, Reports.plan]
    split
    · rename_i row hRow
      rcases Option.filter_eq_some_iff.mp hRow with
        ⟨hFind, hShown⟩
      have hLive : row.isDeleted = false := by
        simpa [liveReport] using hShown
      change
        (submissionRegime repr s d₀).Publishable t ns live
            _ d d (.loaded task.kind task.report) ∧
          _
      refine ⟨Regime.publishable_refl ?_, ?_⟩
      · exact hRests.inv.update hWorker (mem_ids_of_find hFind)
      · intro l' hRest'
        exact ⟨id_of_find hFind, hLive, hRest'⟩
    · intro l' _
      exact hRaise _ l'
  · rintro q hQuery
    cases hQuery
    exact ⟨task, hRest.note, rfl, rfl⟩

/- The loaded report is saved. -/
theorem wp_saveReport
    {kind : ReportKind}
    {reportId : ReportId}
    {object : Report kind}
    {E : Exc → Knows → Prop}
    (hWorker : t ≠ 0)
    (hRest : Regime.Resting () (.loaded kind reportId) l)
    (hId : object.id = reportId)
    (hLive : object.isDeleted = false)
    (hRaise : ∀ e l', E e l') :
    (submissionRegime repr s d₀).wp t
      (query (.report (.saveReport kind object)))
      (fun _ => Regime.Resting () (.loaded kind reportId)) E
      l := by
  apply Regime.wp_execute_rest _ hRest
  · intro e l' _ _
    exact hRaise e l'
  · intro d ns live _ x a d' _ hReply
    cases x with
    | report x => cases hReply
    | _ => cases hReply
  · intro d ns live hRests _
    have hFollows : (submissionRegime repr s d₀).Follows
        Keeps t := follows_keeps hWorker
    cases hPlan :
      (backend repr).plan (.report (.saveReport kind object))
        d with
    | refuse e => trivial
    | outside => trivial
    | miss e =>
        intro l' _
        exact hRaise e l'
    | done a lock f =>
        rcases Verdict.embed_eq_done hPlan with
          ⟨g, hDone, rfl⟩
        rcases writeReport_eq_done hDone with
          ⟨_, saved, hPrepare, _, rfl⟩
        have hEq := Report.eq_of_prepare hPrepare
        have hSavedId : saved.id = reportId := by
          rw [hEq]
          exact hId
        have hStored := hRests.inv.workers t
        rw [hRests.note] at hStored
        rcases find_of_mem_ids hStored with ⟨old, hOld⟩
        have hFound :
            d.base.find kind saved.id = some old := by
          rw [hSavedId]
          exact hOld
        have hKeeps :
            Keeps d (onBase (putReport saved) d) := by
          apply keeps_putReport hFound
          intro _
          rw [hEq]
          exact hLive
        refine
          ⟨hFollows.publishable hRests.inv hRests.note
              hKeeps,
            ?_⟩
        intro l' hRest'
        exact hRest'
  · rintro q hQuery
    cases hQuery
    trivial

theorem wp_rollUp
    {β : Type}
    {p : Reports.Service β}
    (hWorker : t ≠ 0)
    (hRollsUp : p.Conforms RollsUpOp)
    (hRest : Regime.Resting () n l) :
    (submissionRegime repr s d₀).wp t (Service.ofReports p)
      (fun _ _ => True) (fun _ _ => True) l := by
  have hCalm :
      (submissionRegime repr s d₀).wp t
        (Service.ofReports p)
        (fun _ l' => Regime.Calm Keeps l'.session.frames)
        (fun _ l' => Regime.Calm Keeps l'.session.frames)
        l := by
    apply Regime.wp_calm (follows_keeps hWorker)
    · apply hRollsUp.embed
      intro o hOp
      cases o with
      | query q => exact calm_rollUp hOp
      | _ => trivial
    · rw [hRest.session]
      exact Regime.calm_nil
  apply Discipline.wp_mono hCalm
  · intro _ _ _
    trivial
  · intro _ _ _
    trivial

section Attempts

variable {β γ : Type}

theorem wp_ofReports_handle
    {p : Reports.Service β}
    {f : β → Reports.Service γ}
    {h : Exc → Reports.Service γ}
    {Q : γ → Knows → Prop}
    {E : Exc → Knows → Prop}
    (hWp :
      (submissionRegime repr s d₀).wp t (Service.ofReports p)
        (fun b l' =>
          (submissionRegime repr s d₀).wp t
            (Service.ofReports (f b)) Q E l')
        (fun e l' =>
          (submissionRegime repr s d₀).wp t
            (Service.ofReports (h e)) Q E l')
        l) :
    (submissionRegime repr s d₀).wp t
      (Service.ofReports (p.handle f h)) Q E l := by
  unfold Service.ofReports
  rw [Prog.embed_handle]
  exact Discipline.wp_handle hWp

theorem wp_ofReports_bind
    {p : Reports.Service β}
    {f : β → Reports.Service γ}
    {Q : γ → Knows → Prop}
    {E : Exc → Knows → Prop}
    (hWp :
      (submissionRegime repr s d₀).wp t (Service.ofReports p)
        (fun b l' =>
          (submissionRegime repr s d₀).wp t
            (Service.ofReports (f b)) Q E l')
        E l) :
    (submissionRegime repr s d₀).wp t
      (Service.ofReports (p.bind f)) Q E l :=
  wp_ofReports_handle hWp

/- A handler of a task executes nothing. -/
theorem wp_handled
    {p : Reports.Service β}
    {f : β → Reports.Service γ}
    {h : Exc → Reports.Service γ}
    (hWp :
      (submissionRegime repr s d₀).wp t (Service.ofReports p)
        (fun _ _ => True) (fun _ _ => True) l)
    (hRet : ∀ b, (f b).Conforms (fun _ => False))
    (hRaise : ∀ e, (h e).Conforms (fun _ => False)) :
    (submissionRegime repr s d₀).wp t
      (Service.ofReports (p.handle f h)) (fun _ _ => True)
      (fun _ _ => True) l := by
  have hDone :
      ∀ {q : Reports.Service γ} {l'},
        q.Conforms (fun _ => False) →
          (submissionRegime repr s d₀).wp t
            (Service.ofReports q) (fun _ _ => True)
            (fun _ _ => True) l' := by
    intro q l' hConforms
    cases q with
    | ret c => trivial
    | raise e => trivial
    | call o k => exact hConforms.1.elim
  apply wp_ofReports_handle
  apply Discipline.wp_mono hWp
  · intro b l' _
    exact hDone (hRet b)
  · intro e l' _
    exact hDone (hRaise e)

variable {reportId : ReportId}

theorem wp_runPagespeedAnalysis
    {settings : Analysis.PagespeedSettings}
    {repr' : Json → String}
    {retries : Nat}
    {now : Time}
    (hWorker : t ≠ 0)
    (hRest :
      Regime.Resting () (.received (.analysis reportId)) l) :
    (submissionRegime repr s d₀).wp t
      (Service.ofReports
        (Analysis.runPagespeedAnalysis settings repr'
          retries reportId now))
      (fun _ _ => True) (fun _ _ => True) l := by
  apply wp_handled
  · apply wp_ofReports_bind
    rw [ofReports_query]
    refine
      Discipline.wp_mono
        (wp_getReport hWorker hRest (fun _ _ => trivial)) ?_
        (fun _ _ _ => trivial)
    rintro report l₁ ⟨hId, hLive, hRest₁⟩
    apply wp_ofReports_bind
    refine
      Discipline.wp_mono
        (wp_asks hWorker
          (asks_tryCatch report
            (asks_fetchPagespeed _ _ _ _))
          hRest₁)
        ?_ (fun _ _ _ => trivial)
    intro raw l₂ hRest₂
    apply wp_ofReports_bind
    refine
      Discipline.wp_mono
        (wp_asks hWorker (Prog.conforms_ofExcept _) hRest₂)
        ?_ (fun _ _ _ => trivial)
    intro metrics l₃ hRest₃
    apply wp_ofReports_bind
    rw [ofReports_query]
    refine
      Discipline.wp_mono
        (wp_saveReport hWorker hRest₃ hId hLive
          (fun _ _ => trivial))
        ?_ (fun _ _ _ => trivial)
    intro _ l₄ hRest₄
    apply wp_ofReports_bind
    exact
      Discipline.wp_mono
        (wp_rollUp hWorker (rollsUp_rollUp _ now) hRest₄)
        (fun _ _ _ => trivial) (fun _ _ _ => trivial)
  · intro report
    trivial
  · intro e
    unfold Analysis.handleFailure
    repeat' split
    all_goals trivial

theorem wp_runGtmetrixAnalysis
    {settings : Gtmetrix.GtmetrixSettings}
    {repr' : Json → String}
    {rounds retries : Nat}
    (hWorker : t ≠ 0)
    (hRest :
      Regime.Resting () (.received (.gtmetrix reportId)) l) :
    (submissionRegime repr s d₀).wp t
      (Service.ofReports
        (Gtmetrix.runGtmetrixAnalysis settings repr' rounds
          retries reportId))
      (fun _ _ => True) (fun _ _ => True) l := by
  apply wp_handled
  · apply wp_ofReports_bind
    rw [ofReports_query]
    refine
      Discipline.wp_mono
        (wp_getReport hWorker hRest (fun _ _ => trivial)) ?_
        (fun _ _ _ => trivial)
    rintro report l₁ ⟨hId, hLive, hRest₁⟩
    apply wp_ofReports_bind
    refine
      Discipline.wp_mono
        (wp_asks hWorker
          (asks_tryCatch report (asks_runTest _ _ _ _))
          hRest₁)
        ?_ (fun _ _ _ => trivial)
    intro result l₂ hRest₂
    apply wp_ofReports_bind
    rw [ofReports_query]
    refine
      Discipline.wp_mono
        (wp_saveReport hWorker hRest₂ hId hLive
          (fun _ _ => trivial))
        ?_ (fun _ _ _ => trivial)
    intro _ l₃ hRest₃
    trivial
  · intro report
    trivial
  · intro e
    unfold Gtmetrix.handleFailure
    repeat' split
    all_goals trivial

/- A worker keeps the phase of the submission. -/
theorem wp_deliver
    {tools : Tools}
    {a : Attempt}
    (hWorker : t ≠ 0)
    (hRest : Regime.Resting () .idle l) :
    (submissionRegime repr s d₀).wp t (deliver tools a)
      (fun _ _ => True) (fun _ _ => True) l := by
  apply Discipline.wp_bind
  apply Regime.wp_execute_rest _ hRest
  · intro e l' _ _
    trivial
  · intro d ns live hRests x task d' _ hReply
    cases x with
    | delivered queued =>
        simp only [backend, reply] at hReply
        split at hReply
        · rename_i hQueued
          cases hReply
          refine ⟨Regime.publishable_refl ?_, ?_⟩
          · exact hRests.inv.update hWorker hQueued
          · intro l' hRest'
            apply Discipline.wp_bind
            cases task with
            | analysis reportId =>
                exact
                  Discipline.wp_mono
                    (wp_runPagespeedAnalysis hWorker hRest')
                    (fun _ _ _ => trivial)
                    (fun _ _ _ => trivial)
            | gtmetrix reportId =>
                exact
                  Discipline.wp_mono
                    (wp_runGtmetrixAnalysis hWorker hRest')
                    (fun _ _ _ => trivial)
                    (fun _ _ _ => trivial)
        · cases hReply
    | _ => cases hReply
  · intro d ns live _ _
    trivial
  · rintro q hQuery
    cases hQuery
    trivial

end Attempts

end SiteAnalysis.SpeedTests
