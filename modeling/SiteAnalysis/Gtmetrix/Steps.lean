import SiteAnalysis.Gtmetrix.Service
import SiteAnalysis.Relational.Rest

/-
  This file proves the rules for the steps of a GTmetrix
  attempt from rules for their statements.

  Key definitions include:
    * `Steps`

  Key theorems include:
    * `wp_pollAndFetch`
    * `wp_ensureTest`
    * `wp_runTest`
-/

------------------------------------------------------------
-- Statements
------------------------------------------------------------

namespace SiteAnalysis.Gtmetrix

open Concurrency
open Relational
open Python
open Reports

variable {repr : Json → String} {α φ Ω N : Type}

/-
  While an attempt goes on `going` holds, and `stopped` holds
  once something has been raised.
-/
structure Steps
    (R : Regime (backend repr) α φ Ω N)
    (t : Tid)
    (settings : GtmetrixSettings)
    (going : Regime.Local Db HistoryKey φ Ω N → Prop)
    (stopped :
      Exc → Regime.Local Db HistoryKey φ Ω N → Prop) :
    Prop where
  raise : ∀ e l, going l → stopped e l
  get :
    ∀ path l, going l →
      R.wp t (request settings repr "GET" path none)
        (fun _ => going) stopped l
  saveTestId :
    ∀ object l, going l →
      R.wp t
        (query
          (.saveReportFields .gtmetrix object [.testId]))
        (fun _ => going) stopped l
  monotonic :
    ∀ l, going l →
      R.wp t (query .monotonic) (fun _ => going) stopped l
  sleep :
    ∀ seconds l, going l →
      R.wp t (query (.sleep seconds)) (fun _ => going)
        stopped l
  cutOff :
    ∀ l, going l →
      R.wp t (query .cutOff) (fun _ => going) stopped l

variable {R : Regime (backend repr) α φ Ω N} {t : Tid}
variable {settings : GtmetrixSettings}
variable {going : Regime.Local Db HistoryKey φ Ω N → Prop}
variable
  {stopped :
    Exc → Regime.Local Db HistoryKey φ Ω N → Prop}
variable {l : Regime.Local Db HistoryKey φ Ω N}

------------------------------------------------------------
-- Programs
------------------------------------------------------------

/- A step, and what follows it. -/
theorem wp_next
    {β γ : Type}
    {p : Service β}
    {f : β → Service γ}
    {Q : γ → Regime.Local Db HistoryKey φ Ω N → Prop}
    (hLeft : R.wp t p (fun _ => going) stopped l)
    (hRight :
      ∀ b l', going l' → R.wp t (f b) Q stopped l') :
    R.wp t (p.bind f) Q stopped l := by
  apply Discipline.wp_bind
  apply Discipline.wp_mono hLeft
  · intro b l' hGoing
    exact hRight b l' hGoing
  · intro e l' hStopped
    exact hStopped

theorem wp_read
    {β : Type}
    (hSteps : Steps R t settings going stopped)
    (hGoing : going l)
    (r : Except Exc β) :
    R.wp t (Prog.ofExcept r) (fun _ => going) stopped l := by
  cases r with
  | ok b => exact hGoing
  | error e => exact hSteps.raise e l hGoing

/- The polls of one attempt. -/
theorem wp_pollTest
    (testId : Json)
    (deadline : Rat)
    (rounds : Nat)
    (hSteps : Steps R t settings going stopped)
    (hGoing : going l) :
    R.wp t (pollTest settings repr testId deadline rounds)
      (fun _ => going) stopped l := by
  induction rounds generalizing l with
  | zero =>
      apply wp_next (hSteps.cutOff l hGoing)
      intro never
      exact Empty.elim never
  | succ rounds ih =>
      apply wp_next (hSteps.get _ l hGoing)
      intro testJson l₁ hGoing₁
      apply wp_next (wp_read hSteps hGoing₁ _)
      intro state l₂ hGoing₂
      split
      · exact hGoing₂
      · split
        · apply wp_next (wp_read hSteps hGoing₂ _)
          intro error l₃ hGoing₃
          exact hSteps.raise error l₃ hGoing₃
        · apply wp_next (hSteps.monotonic l₂ hGoing₂)
          intro now l₃ hGoing₃
          split
          · exact hSteps.raise _ l₃ hGoing₃
          · apply wp_next (hSteps.sleep _ l₃ hGoing₃)
            intro _ l₄ hGoing₄
            exact ih hGoing₄

theorem wp_pollAndFetch
    (rounds : Nat)
    (testId : Json)
    (hSteps : Steps R t settings going stopped)
    (hGoing : going l) :
    R.wp t (pollAndFetch settings repr rounds testId)
      (fun _ => going) stopped l := by
  apply wp_next (hSteps.monotonic l hGoing)
  intro start l₁ hGoing₁
  apply wp_next (wp_pollTest testId _ rounds hSteps hGoing₁)
  intro testJson l₂ hGoing₂
  apply wp_next (wp_read hSteps hGoing₂ _)
  intro reportId l₃ hGoing₃
  apply wp_next (hSteps.get _ l₃ hGoing₃)
  intro reportJson l₄ hGoing₄
  apply wp_next (wp_read hSteps hGoing₄ _)
  intro metrics l₅ hGoing₅
  exact hGoing₅

/- The block that may start the test. -/
theorem wp_ensureTest
    (report : GTmetrixReport)
    (hSteps : Steps R t settings going stopped)
    (hOwn : (testIdOf report).truthy = true → going l)
    (hStart :
      (testIdOf report).truthy = false →
        R.wp t
          (request settings repr "POST" "tests"
            (some (testPayload report.url)))
          (fun _ => going) stopped l) :
    R.wp t (ensureTest settings repr report)
      (fun _ => going) stopped l := by
  unfold ensureTest
  split
  · rename_i hTest
    exact hOwn hTest
  · rename_i hTest
    have hStarted :
        R.wp t (startTest settings repr report.url)
          (fun _ => going) stopped l := by
      apply wp_next (hStart (Bool.eq_false_iff.mpr hTest))
      intro data l₁ hGoing₁
      exact wp_read hSteps hGoing₁ _
    apply wp_next hStarted
    intro testId l₁ hGoing₁
    apply wp_next (hSteps.saveTestId _ l₁ hGoing₁)
    intro _ l₂ hGoing₂
    exact hGoing₂

/- The `try` block of the service. -/
theorem wp_runTest
    (rounds : Nat)
    (report : GTmetrixReport)
    (hSteps : Steps R t settings going stopped)
    (hOwn : (testIdOf report).truthy = true → going l)
    (hStart :
      (testIdOf report).truthy = false →
        R.wp t
          (request settings repr "POST" "tests"
            (some (testPayload report.url)))
          (fun _ => going) stopped l) :
    R.wp t (runTest settings repr rounds report)
      (fun _ => going) stopped l := by
  apply wp_next (wp_ensureTest report hSteps hOwn hStart)
  intro testId l₁ hGoing₁
  exact wp_pollAndFetch rounds testId hSteps hGoing₁

end SiteAnalysis.Gtmetrix
