import SiteAnalysis.Relational.Calm
import SiteAnalysis.Reports.Workers

/-
  This file proves a rule for the attempts of the tasks: what
  their statements keep, the attempts keep.

  The statements outside a transaction have to keep it on the
  data that they see, and the statements of a rollup on any
  data.

  Key definitions include:
    * `WorksKeeping`

  Key theorems include:
    * `wp_works`
    * `wp_rollUp`
    * `wp_worker`
-/

------------------------------------------------------------
-- Statements
------------------------------------------------------------

namespace SiteAnalysis.Reports

open Concurrency
open Relational
open Python

variable {repr : Json → String} {d d' : Db}

/- No answer from outside changes a report. -/
theorem reports_of_reply
    {q : Statement}
    {x : Reply}
    {a : q.Answer}
    (hReply : reply q x d = some (a, d')) :
    d'.reports = d.reports := by
  cases q with
  | httpRequest method url auth timeout json =>
      cases x with
      | http outcome accepted =>
          simp only [reply, Option.some.injEq,
            Prod.mk.injEq] at hReply
          rw [← hReply.2]
          split <;> rfl
      | _ => cases hReply
  | _ => cases x <;> cases hReply <;> rfl

/- The statements of a rollup do not touch the reports. -/
theorem reports_of_rollsUp
    {q : Statement}
    {a : q.Answer}
    {lock : Option HistoryKey}
    {f : Db → Db}
    (hRollsUp : RollsUp q)
    (hPlan : plan repr q d = .done a lock f)
    (d' : Db) : (f d').reports = d'.reports := by
  cases q with
  | getHistory key =>
      simp only [plan] at hPlan
      split at hPlan
      · cases hPlan
        rfl
      · cases hPlan
  | createHistory row =>
      simp only [plan] at hPlan
      split at hPlan
      · cases hPlan
      · split at hPlan
        · cases hPlan
        · cases hPlan
          rfl
  | incrementHistory key now =>
      simp only [plan] at hPlan
      split at hPlan
      · cases hPlan
        rfl
      · split at hPlan
        · cases hPlan
        · cases hPlan
          rfl
  | _ => first | exact False.elim hRollsUp | cases hPlan

------------------------------------------------------------
-- Programs
------------------------------------------------------------

variable {α φ Ω N : Type}
variable {R : Regime (backend repr) α φ Ω N}
variable {keep : Db → Db → Prop} {t : Tid}

/- The statements of an attempt keep the relation. -/
structure WorksKeeping
    (R : Regime (backend repr) α φ Ω N)
    (keep : Db → Db → Prop)
    (t : Tid) : Prop extends R.Follows keep t where
  works : ∀ q, Works q → R.KeptQuery keep t q
  rollsUp : ∀ q, RollsUp q → R.CalmQuery keep t q

variable {l : Regime.Local Db HistoryKey φ Ω N}
variable {o : Ω} {n : N}

/- A part of an attempt outside a transaction. -/
theorem wp_works
    {β : Type}
    {p : Service β}
    (hKeeping : WorksKeeping R keep t)
    (hWorks : p.Conforms WorksOp)
    (hRest : Regime.Resting o n l) :
    R.wp t p (fun _ => Regime.Resting o n)
      (fun _ => Regime.Resting o n) l := by
  apply Regime.wp_kept hKeeping.toBears _ hRest
  apply hWorks.mono
  rintro x ⟨q, rfl, hQuery⟩
  exact ⟨q, rfl, hKeeping.works q hQuery⟩

theorem wp_rollUp
    {report : AnalysisReport}
    {now : Time}
    (hKeeping : WorksKeeping R keep t)
    (hRest : Regime.Resting o n l) :
    R.wp t (Analysis.rollUp report now) (fun _ _ => True)
      (fun _ _ => True) l := by
  have hCalm :
      R.wp t (Analysis.rollUp report now)
        (fun _ l' => Regime.Calm keep l'.session.frames)
        (fun _ l' => Regime.Calm keep l'.session.frames)
        l := by
    apply Regime.wp_calm hKeeping.toFollows
    · apply (rollsUp_rollUp report now).mono
      intro x hRollsUp
      cases x with
      | query q => exact hKeeping.rollsUp q hRollsUp
      | _ => trivial
    · rw [hRest.session]
      exact Regime.calm_nil
  apply Discipline.wp_mono hCalm
  · intro _ _ _
    trivial
  · intro _ _ _
    trivial

theorem wp_processAnalysis
    {settings : Analysis.PagespeedSettings}
    {repr' : Json → String}
    {reportId : ReportId}
    {now : Time}
    (hKeeping : WorksKeeping R keep t)
    (hRest : Regime.Resting o n l) :
    R.wp t
      (Analysis.processAnalysis settings repr' reportId now)
      (fun _ _ => True) (fun _ _ => True) l := by
  have hPart :
      ∀ {β : Type} {p : Service β}
        {Q : β → Regime.Local Db HistoryKey φ Ω N → Prop}
        {l},
        p.Conforms WorksOp → Regime.Resting o n l →
          (∀ b l', Regime.Resting o n l' → Q b l') →
            R.wp t p Q (fun _ _ => True) l := by
    intro β p Q l hWorks hRest' hNext
    apply
      Discipline.wp_mono (wp_works hKeeping hWorks hRest')
    · exact hNext
    · intro _ _ _
      trivial
  apply Discipline.wp_bind
  refine hPart (works_query ?_) hRest ?_
  · trivial
  intro report l₁ hRest₁
  apply Discipline.wp_bind
  apply
    hPart
      ((asks_tryCatch report
        (asks_fetchPagespeed _ _ _ _)).mono
        (fun _ => worksOp_of_asksOp)) hRest₁
  intro raw l₂ hRest₂
  apply Discipline.wp_bind
  apply hPart (Prog.conforms_ofExcept _) hRest₂
  intro metrics l₃ hRest₃
  apply Discipline.wp_bind
  refine hPart (works_query ?_) hRest₃ ?_
  · exact ⟨rfl, rfl⟩
  intro _ l₄ hRest₄
  apply Discipline.wp_bind
  apply Discipline.wp_mono (wp_rollUp hKeeping hRest₄)
  · intro _ _ _
    trivial
  · intro _ _ _
    trivial

/- A handler of a task executes nothing. -/
theorem wp_handled
    {β γ : Type}
    {p : Service β}
    {f : β → Service γ}
    {h : Exc → Service γ}
    (hWp :
      R.wp t p (fun _ _ => True) (fun _ _ => True) l)
    (hRet :
      ∀ b, (f b).Conforms (fun _ => False))
    (hRaise :
      ∀ e, (h e).Conforms (fun _ => False)) :
    R.wp t (p.handle f h) (fun _ _ => True)
      (fun _ _ => True) l := by
  have hDone :
      ∀ {q : Service γ} {l'},
        q.Conforms (fun _ => False) →
          R.wp t q (fun _ _ => True) (fun _ _ => True)
            l' := by
    intro q l' hConforms
    cases q with
    | ret c => trivial
    | raise e => trivial
    | call o k => exact hConforms.1.elim
  apply Discipline.wp_handle
  apply Discipline.wp_mono hWp
  · intro b l' _
    exact hDone (hRet b)
  · intro e l' _
    exact hDone (hRaise e)

/- An attempt keeps what its statements keep. -/
theorem wp_worker
    {tools : Tools}
    (hKeeping : WorksKeeping R keep t)
    (worker : Worker)
    (hRest : Regime.Resting o n l) :
    R.wp t (worker.program tools) (fun _ _ => True)
      (fun _ _ => True) l := by
  have hWeaken :
      ∀ {β : Type} {p : Service β},
        p.Conforms WorksOp →
          R.wp t p (fun _ _ => True) (fun _ _ => True)
            l := by
    intro β p hWorks
    apply
      Discipline.wp_mono (wp_works hKeeping hWorks hRest)
    · intro _ _ _
      trivial
    · intro _ _ _
      trivial
  cases worker with
  | analysis retries reportId now =>
      apply wp_handled (wp_processAnalysis hKeeping hRest)
      · intro report
        trivial
      · intro e
        unfold Analysis.handleFailure
        repeat' split
        all_goals trivial
  | gtmetrix rounds retries reportId =>
      apply wp_handled (hWeaken (works_processGtmetrix _ _ _ _))
      · intro report
        trivial
      · intro e
        unfold Gtmetrix.handleFailure
        repeat' split
        all_goals trivial
  | ssl retries reportId =>
      apply wp_handled (hWeaken (works_processSslCheck _ _))
      · intro report
        trivial
      · intro e
        unfold Ssl.handleFailure
        repeat' split
        all_goals trivial

end SiteAnalysis.Reports
