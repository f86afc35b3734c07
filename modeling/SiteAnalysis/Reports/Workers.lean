import SiteAnalysis.Analysis.Service
import SiteAnalysis.Gtmetrix.Service
import SiteAnalysis.Ssl.Service

/-
  This file defines the attempts of the three report tasks
  and the statements that they execute.

  Key definitions include:
    * `Tools`
    * `Asks`
    * `Works`
    * `RollsUp`
    * `Worker`

  Key theorems include:
    * `asks_fetchPagespeed`
    * `asks_runTest`
    * `works_processGtmetrix`
    * `works_processSslCheck`
    * `rollsUp_rollUp`
-/

------------------------------------------------------------
-- Statements
------------------------------------------------------------

namespace SiteAnalysis.Reports

open Concurrency
open Relational
open Python

/-
  The statements of a worker while it asks others: it saves a
  failure or the id of its test.
-/
def Asks : Statement → Prop
| .saveReportFields _ object fields =>
    (fields = [.status, .errorMessage] ∧
        object.status = .failed) ∨
      fields = [.testId]
| .httpGet _ _ _ => True
| .httpRequest _ _ _ _ _ => True
| .scan _ _ => True
| .monotonic => True
| .sleep _ => True
| .cutOff => True
| _ => False

/-
  The statements of a worker outside a transaction.  It loads
  its report first, and saves it completed.
-/
def Works : Statement → Prop
| .getReport _ _ => True
| .saveReport _ object =>
    object.status = .completed ∧ object.errorMessage = ""
| q => Asks q

/- The statements of a rollup, in its transaction. -/
def RollsUp : Statement → Prop
| .getHistory _ => True
| .createHistory _ => True
| .incrementHistory _ _ => True
| .cacheDelete _ => True
| _ => False

/- Every operation is a statement of a worker. -/
abbrev WorksOp (o : TxOp Statement) : Prop :=
  ∃ q, o = .query q ∧ Works q

abbrev AsksOp (o : TxOp Statement) : Prop :=
  ∃ q, o = .query q ∧ Asks q

/- Every statement is one of a rollup. -/
def RollsUpOp : TxOp Statement → Prop
| .query q => RollsUp q
| _ => True

section Programs

variable {α β : Type}

theorem asks_query
    {q : Statement}
    (hAsks : Asks q) :
    (query q : Service q.Answer).Conforms AsksOp :=
  Prog.conforms_perform ⟨q, rfl, hAsks⟩

theorem asks_failReport
    {kind : ReportKind}
    (report : Report kind)
    (e : Exc) :
    (failReport kind report e : Service α).Conforms
      AsksOp := by
  apply Prog.Conforms.bind
  · exact asks_query (Or.inl ⟨rfl, rfl⟩)
  · intro _
    trivial

theorem works_query
    {q : Statement}
    (hWorks : Works q) :
    (query q : Service q.Answer).Conforms WorksOp :=
  Prog.conforms_perform ⟨q, rfl, hWorks⟩

theorem worksOp_of_asksOp
    {o : TxOp Statement}
    (hAsks : AsksOp o) : WorksOp o := by
  rcases hAsks with ⟨q, rfl, hAsks⟩
  refine ⟨q, rfl, ?_⟩
  cases q <;> first | exact hAsks | exact hAsks.elim

/- A step of a worker, with the handler around it. -/
theorem asks_tryCatch
    {kind : ReportKind}
    {p : Service α}
    (report : Report kind)
    (hAsks : p.Conforms AsksOp) :
    (p.tryCatch (failReport kind report)).Conforms
      AsksOp :=
  hAsks.tryCatch (fun e => asks_failReport report e)

------------------------------------------------------------
-- PageSpeed
------------------------------------------------------------

theorem asks_attemptPagespeed
    (settings : Analysis.PagespeedSettings)
    (repr : Json → String)
    (params : List (String × String))
    (attempt left : Nat) :
    (Analysis.attemptPagespeed settings repr params attempt
      left).Conforms AsksOp := by
  induction left generalizing attempt with
  | zero => trivial
  | succ left ih =>
      apply Prog.Conforms.bind
      · exact asks_query trivial
      intro outcome
      apply Prog.Conforms.bind
      · exact Prog.conforms_ofExcept _
      intro round
      cases round with
      | inl value => trivial
      | inr failed =>
          dsimp only
          split
          · trivial
          · apply Prog.Conforms.bind
            · exact asks_query trivial
            · intro _
              exact ih (attempt + 1)

theorem asks_fetchPagespeed
    (settings : Analysis.PagespeedSettings)
    (repr : Json → String)
    (url strategy : String) :
    (Analysis.fetchPagespeed settings repr url
      strategy).Conforms AsksOp := by
  unfold Analysis.fetchPagespeed
  split
  · trivial
  · exact asks_attemptPagespeed _ _ _ _ _

------------------------------------------------------------
-- GTmetrix
------------------------------------------------------------

theorem asks_request
    (settings : Gtmetrix.GtmetrixSettings)
    (repr : Json → String)
    (method path : String)
    (json : Option Json) :
    (Gtmetrix.request settings repr method path
      json).Conforms AsksOp := by
  unfold Gtmetrix.request
  split
  · trivial
  · apply Prog.Conforms.bind
    · exact asks_query trivial
    · intro outcome
      exact Prog.conforms_ofExcept _

theorem asks_ensureTest
    (settings : Gtmetrix.GtmetrixSettings)
    (repr : Json → String)
    (report : GTmetrixReport) :
    (Gtmetrix.ensureTest settings repr report).Conforms
      AsksOp := by
  unfold Gtmetrix.ensureTest
  split
  · trivial
  · apply Prog.Conforms.bind
    · apply Prog.Conforms.bind
      · exact asks_request _ _ _ _ _
      · intro data
        exact Prog.conforms_ofExcept _
    intro testId
    apply Prog.Conforms.bind
    · exact asks_query (Or.inr rfl)
    · intro _
      trivial

theorem asks_pollTest
    (settings : Gtmetrix.GtmetrixSettings)
    (repr : Json → String)
    (testId : Json)
    (deadline : Rat)
    (rounds : Nat) :
    (Gtmetrix.pollTest settings repr testId deadline
      rounds).Conforms AsksOp := by
  induction rounds with
  | zero =>
      apply Prog.Conforms.bind
      · exact asks_query trivial
      · intro never
        exact Empty.elim never
  | succ rounds ih =>
      apply Prog.Conforms.bind
      · exact asks_request _ _ _ _ _
      intro testJson
      apply Prog.Conforms.bind
      · exact Prog.conforms_ofExcept _
      intro state
      split
      · trivial
      · split
        · apply Prog.Conforms.bind
          · exact Prog.conforms_ofExcept _
          · intro error
            trivial
        · apply Prog.Conforms.bind
          · exact asks_query trivial
          intro now
          split
          · trivial
          · apply Prog.Conforms.bind
            · exact asks_query trivial
            · intro _
              exact ih

theorem asks_pollAndFetch
    (settings : Gtmetrix.GtmetrixSettings)
    (repr : Json → String)
    (rounds : Nat)
    (testId : Json) :
    (Gtmetrix.pollAndFetch settings repr rounds
      testId).Conforms AsksOp := by
  apply Prog.Conforms.bind
  · exact asks_query trivial
  intro start
  apply Prog.Conforms.bind
  · exact asks_pollTest _ _ _ _ _
  intro testJson
  apply Prog.Conforms.bind
  · exact Prog.conforms_ofExcept _
  intro reportId
  apply Prog.Conforms.bind
  · exact asks_request _ _ _ _ _
  intro reportJson
  apply Prog.Conforms.bind
  · exact Prog.conforms_ofExcept _
  · intro metrics
    trivial

theorem asks_runTest
    (settings : Gtmetrix.GtmetrixSettings)
    (repr : Json → String)
    (rounds : Nat)
    (report : GTmetrixReport) :
    (Gtmetrix.runTest settings repr rounds report).Conforms
      AsksOp := by
  apply Prog.Conforms.bind
  · exact asks_ensureTest _ _ _
  · intro testId
    exact asks_pollAndFetch _ _ _ _

theorem works_processGtmetrix
    (settings : Gtmetrix.GtmetrixSettings)
    (repr : Json → String)
    (rounds : Nat)
    (reportId : ReportId) :
    (Gtmetrix.processGtmetrix settings repr rounds
      reportId).Conforms WorksOp := by
  apply Prog.Conforms.bind
  · exact works_query trivial
  intro report
  apply Prog.Conforms.bind
  · exact
      (asks_tryCatch report (asks_runTest _ _ _ _)).mono
        (fun _ => worksOp_of_asksOp)
  intro result
  apply Prog.Conforms.bind
  · exact works_query ⟨rfl, rfl⟩
  · intro _
    trivial

------------------------------------------------------------
-- TLS
------------------------------------------------------------

theorem asks_runSslScan
    (isoformat : Time → String)
    (host : String)
    (port : Nat) :
    (Ssl.runSslScan isoformat host port).Conforms
      AsksOp := by
  apply Prog.Conforms.bind
  · exact asks_query trivial
  · intro answer
    exact Prog.conforms_ofExcept _

theorem works_processSslCheck
    (isoformat : Time → String)
    (reportId : ReportId) :
    (Ssl.processSslCheck isoformat reportId).Conforms
      WorksOp := by
  apply Prog.Conforms.bind
  · exact works_query trivial
  intro report
  apply Prog.Conforms.bind
  · exact
      (asks_tryCatch report (asks_runSslScan _ _ _)).mono
        (fun _ => worksOp_of_asksOp)
  intro result
  apply Prog.Conforms.bind
  · exact works_query ⟨rfl, rfl⟩
  · intro _
    trivial

------------------------------------------------------------
-- Rollups
------------------------------------------------------------

theorem rollsUp_query
    {q : Statement}
    (hRollsUp : RollsUp q) :
    (query q : Service q.Answer).Conforms RollsUpOp :=
  Prog.conforms_perform hRollsUp

theorem rollsUp_atomic
    {p : Service α}
    (hRollsUp : p.Conforms RollsUpOp) :
    (atomic p).Conforms RollsUpOp := by
  refine ⟨trivial, ?_⟩
  intro r
  cases r with
  | error e => trivial
  | ok u =>
      apply hRollsUp.handle
      · intro a
        refine ⟨trivial, ?_⟩
        intro r
        cases r <;> trivial
      · intro e
        refine ⟨trivial, ?_⟩
        intro r
        trivial

theorem rollsUp_getOrCreateHistory
    (key : HistoryKey)
    (now : Time) :
    (Analysis.getOrCreateHistory key now).Conforms
      RollsUpOp := by
  apply Prog.Conforms.handle
  · exact rollsUp_query trivial
  · intro row
    trivial
  intro e
  split
  · apply Prog.Conforms.handle
    · apply rollsUp_atomic
      exact rollsUp_query trivial
    · intro row
      trivial
    intro e'
    split
    · apply Prog.Conforms.handle
      · exact rollsUp_query trivial
      · intro row
        trivial
      · intro e''
        split <;> trivial
    · trivial
  · trivial

theorem rollsUp_upsertHistory
    (key : HistoryKey)
    (now : Time) :
    (Analysis.upsertHistory key now).Conforms
      RollsUpOp := by
  apply rollsUp_atomic
  apply Prog.Conforms.bind
  · exact rollsUp_getOrCreateHistory key now
  intro found
  apply Prog.Conforms.bind
  · rcases found with ⟨row, created⟩
    cases created with
    | true => trivial
    | false => exact rollsUp_query trivial
  · intro _
    exact rollsUp_query trivial

theorem rollsUp_rollUp
    (report : AnalysisReport)
    (now : Time) :
    (Analysis.rollUp report now).Conforms RollsUpOp := by
  unfold Analysis.rollUp
  split
  · trivial
  · exact rollsUp_upsertHistory _ now

end Programs

------------------------------------------------------------
-- Attempts
------------------------------------------------------------

/- What the tasks are configured with. -/
structure Tools where
  repr : Json → String
  isoformat : Time → String
  pagespeed : Analysis.PagespeedSettings
  gtmetrix : Gtmetrix.GtmetrixSettings

/-
  An attempt of a report task; `retries` is the number that
  Celery passes to it.
-/
inductive Worker
  | analysis
      (retries : Nat)
      (reportId : ReportId)
      (now : Time)
  | gtmetrix
      (rounds retries : Nat)
      (reportId : ReportId)
  | ssl
      (retries : Nat)
      (reportId : ReportId)

def Worker.program
    (tools : Tools) : Worker → Service TaskOutcome
| .analysis retries reportId now =>
    Analysis.runPagespeedAnalysis tools.pagespeed tools.repr
      retries reportId now
| .gtmetrix rounds retries reportId =>
    Gtmetrix.runGtmetrixAnalysis tools.gtmetrix tools.repr
      rounds retries reportId
| .ssl retries reportId =>
    Ssl.runSslScanTask tools.isoformat retries reportId

end SiteAnalysis.Reports
