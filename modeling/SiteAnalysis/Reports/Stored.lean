import SiteAnalysis.Relational.Solo
import SiteAnalysis.Reports.Processing

/-
  This file specifies the saves of a report on a connection
  that nothing disturbs.

  A stored row has been prepared and checked, so a save of
  its status and its message only depends on the message.

  Key definitions include:
    * `Writable`
    * `Stored`
    * `IsCompleted`

  Key theorems include:
    * `writeReport_dichotomy`
    * `stored_of_prepare_check`
    * `isLocal_of_writeReport`
    * `ends_failReport`
-/

------------------------------------------------------------
-- Rows
------------------------------------------------------------

namespace SiteAnalysis.Reports

open Concurrency
open Relational
open Python

variable {kind : ReportKind} {repr : Json → String}
variable {row object : Report kind}

/- The database takes the object as a row. -/
def Writable
    (repr : Json → String)
    (object : Report kind) : Prop :=
  ∃ row, object.prepare repr = .ok row ∧
    row.check = .ok ()

/- The write of a row is done, or it raises. -/
theorem writeReport_dichotomy
    (repr : Json → String)
    (object : Report kind) :
    (∃ row, object.prepare repr = .ok row ∧
        row.check = .ok () ∧
          writeReport repr object =
            .done () none (putReport row)) ∨
      (¬ Writable repr object ∧
        (writeReport repr object).Raises) := by
  unfold writeReport
  cases hPrepare : object.prepare repr with
  | error e =>
      right
      refine ⟨?_, Or.inr ⟨e, rfl⟩⟩
      rintro ⟨row, hRow, _⟩
      rw [hPrepare] at hRow
      cases hRow
  | ok row =>
      cases hCheck : row.check with
      | error e =>
          right
          refine ⟨?_, Or.inl ⟨e, by simp [hCheck]⟩⟩
          rintro ⟨row', hRow, hOk⟩
          rw [hPrepare] at hRow
          cases hRow
          rw [hCheck] at hOk
          cases hOk
      | ok u =>
          left
          exact ⟨row, rfl, hCheck, by simp [hCheck]⟩

/- A row as the table holds it. -/
structure Stored
    (repr : Json → String)
    (row : Report kind) : Prop where
  prepare : row.prepare repr = .ok row
  check : row.check = .ok ()

/- A prepared value is prepared to itself. -/
theorem prepare_prepared
    {field : Field}
    {v w : Json}
    (hPrepare : field.prepare repr v = .ok w) :
    field.prepare repr w = .ok w := by
  rcases field with ⟨name, type, nullable⟩
  by_cases hNull : v = .null
  · subst hNull
    cases hPrepare
    rfl
  · have hFields :
        Field.prepare repr ⟨name, type, nullable⟩ v =
          match type with
          | .char _ => .ok (.str (v.toStr repr))
          | .integer =>
              Field.number repr ⟨name, type, nullable⟩ v .int
                v.toInt
          | .bigInteger =>
              Field.number repr ⟨name, type, nullable⟩ v .int
                v.toInt
          | .float =>
              Field.number repr ⟨name, type, nullable⟩ v
                .float v.toFloat := by
      cases v <;> cases type <;>
        first | rfl | exact absurd rfl hNull
    rw [hFields] at hPrepare
    cases type with
    | char max =>
        cases hPrepare
        rfl
    | integer =>
        rcases Field.number_eq_ok.mp hPrepare with
          ⟨n, _, rfl⟩
        rfl
    | bigInteger =>
        rcases Field.number_eq_ok.mp hPrepare with
          ⟨n, _, rfl⟩
        rfl
    | float =>
        rcases Field.number_eq_ok.mp hPrepare with
          ⟨x, _, rfl⟩
        rfl

/- The prepared values of a record are prepared. -/
theorem prepareAll_stored
    {F : Type}
    {field : F → Field}
    {values : F → Json}
    {fs : List F}
    (hPrepare : prepareAll repr field values fs = .ok ()) :
    prepareAll repr field (stored repr field values) fs =
      .ok () := by
  rw [prepareAll_eq_ok] at hPrepare ⊢
  intro f hMem
  rcases hPrepare f hMem with ⟨w, hw⟩
  rw [stored_of_prepare hw]
  exact ⟨w, prepare_prepared hw⟩

/- Prepared values are stored as they are. -/
theorem stored_stored
    {F : Type}
    {field : F → Field}
    {values : F → Json}
    {fs : List F}
    (hPrepare : prepareAll repr field values fs = .ok ())
    (hAll : ∀ f, f ∈ fs) :
    stored repr field (stored repr field values) =
      stored repr field values := by
  rw [prepareAll_eq_ok] at hPrepare
  funext f
  rcases hPrepare f (hAll f) with ⟨w, hw⟩
  have hStored := stored_of_prepare hw
  rw [hStored]
  apply stored_of_prepare
  rw [hStored]
  exact prepare_prepared hw

theorem AnalysisField.mem_all
    (f : AnalysisField) : f ∈ AnalysisField.all := by
  cases f <;> simp [AnalysisField.all]

theorem GTmetrixField.mem_all
    (f : GTmetrixField) : f ∈ GTmetrixField.all := by
  cases f <;> simp [GTmetrixField.all]

theorem prepareColumns_prepared
    {c c' : Columns kind}
    (hPrepare : prepareColumns repr kind c = .ok c') :
    prepareColumns repr kind c' = .ok c' := by
  cases kind with
  | analysis =>
      simp only [prepareColumns, bind_eq_ok_iff] at hPrepare
      rcases hPrepare with ⟨_, hAll, hPure⟩
      cases hPure
      have hSame :=
        stored_stored hAll AnalysisField.mem_all
      simp only [prepareColumns, bind_eq_ok_iff]
      refine ⟨(), prepareAll_stored hAll, ?_⟩
      simp only [hSame]
      rfl
  | gtmetrix =>
      simp only [prepareColumns, bind_eq_ok_iff] at hPrepare
      rcases hPrepare with ⟨_, hAll, hPure⟩
      cases hPure
      have hSame :=
        stored_stored hAll GTmetrixField.mem_all
      simp only [prepareColumns, bind_eq_ok_iff]
      refine ⟨(), prepareAll_stored hAll, ?_⟩
      simp only [hSame]
      rfl
  | ssl =>
      cases hPrepare
      rfl

/- What a write leaves is a stored row. -/
theorem stored_of_prepare_check
    (hPrepare : object.prepare repr = .ok row)
    (hCheck : row.check = .ok ()) : Stored repr row where
  prepare := by
    simp only [Report.prepare, bind_eq_ok_iff] at hPrepare ⊢
    rcases hPrepare with ⟨columns, hColumns, hPure⟩
    cases hPure
    exact
      ⟨columns, prepareColumns_prepared hColumns, rfl⟩
  check := hCheck

------------------------------------------------------------
-- Failures
------------------------------------------------------------

/- The row after its failure has been recorded. -/
def failedRow
    (row : Report kind)
    (message : String) : Report kind :=
  { row with
    status := .failed
    errorMessage := message }

/- The status and the message are all that is saved. -/
theorem assign_failedReport
    (object row : Report kind)
    (e : Exc) :
    (failedReport object e).assign
        [.status, .errorMessage] row =
      failedRow row e.str := by
  cases kind <;>
    simp [Report.assign, failedReport, failedRow,
      assignColumns]

/- A row with another status and message is prepared. -/
theorem prepare_failedRow
    {message : String}
    (hStored : Stored repr row) :
    (failedRow row message).prepare repr =
      .ok (failedRow row message) := by
  have hPrepare := hStored.prepare
  simp only [Report.prepare, bind_eq_ok_iff] at hPrepare ⊢
  rcases hPrepare with ⟨columns, hColumns, hPure⟩
  have hSame : columns = row.columns := by
    have hRow := Except.ok.inj hPure
    exact congrArg Report.columns hRow
  subst hSame
  exact ⟨row.columns, hColumns, rfl⟩

/- A stored row can fail with any text as its message. -/
theorem check_failedRow
    {message : String}
    (hStored : Stored repr row)
    (hText : noNul message = true) :
    (failedRow row message).check = .ok () := by
  have hFailed : fitsChar 10 "failed" = true := by decide
  have hCheck := hStored.check
  simp only [Report.check, check_bind_eq_ok,
    charColumn_eq_ok, textColumn_eq_ok, jsonColumn_eq_ok]
    at hCheck ⊢
  exact
    ⟨hCheck.1, hFailed, hText, hCheck.2.2.2.1,
      hCheck.2.2.2.2⟩

theorem stored_failedRow
    {message : String}
    (hStored : Stored repr row)
    (hText : noNul message = true) :
    Stored repr (failedRow row message) where
  prepare := prepare_failedRow hStored
  check := check_failedRow hStored hText

/- The stored report is completed. -/
def IsCompleted
    (kind : ReportKind)
    (reportId : ReportId)
    (d : Db) : Prop :=
  ∃ row, d.find kind reportId = some row ∧
    row.status = .completed

------------------------------------------------------------
-- Refusals
------------------------------------------------------------

section Refusals

variable {kind : ReportKind} {repr : Json → String}

theorem raisesLocal_prepare
    (object : Report kind) :
    RaisesLocal (object.prepare repr) := by
  have hColumns :
      RaisesLocal (prepareColumns repr kind object.columns) := by
    cases kind with
    | analysis =>
        apply raisesLocal_bind (raisesLocal_prepareAll _ _ _)
        intro _
        exact raisesLocal_ok _
    | gtmetrix =>
        apply raisesLocal_bind (raisesLocal_prepareAll _ _ _)
        intro _
        exact raisesLocal_ok _
    | ssl => exact raisesLocal_ok _
  apply raisesLocal_bind hColumns
  intro _
  exact raisesLocal_ok _

theorem raisesLocal_checkColumns
    (kind : ReportKind)
    (columns : Columns kind) :
    RaisesLocal (checkColumns kind columns) := by
  have hJson : ∀ v, RaisesLocal (jsonColumn v) :=
    fun _ => raisesLocal_require _ rfl
  cases kind with
  | analysis =>
      apply raisesLocal_bind (raisesLocal_charColumn _ _)
      intro _
      apply raisesLocal_bind (raisesLocal_checkAll _ _ _)
      intro _
      unfold performanceScoreRange
      split
      · exact raisesLocal_require _ rfl
      · exact raisesLocal_ok _
  | gtmetrix => exact raisesLocal_checkAll _ _ _
  | ssl =>
      have hDays :
          ∀ n, RaisesLocal (optionalIntegerColumn n) := by
        intro n
        cases n with
        | none => exact raisesLocal_ok _
        | some n => exact raisesLocal_require _ rfl
      apply raisesLocal_bind (raisesLocal_charColumn _ _)
      intro _
      apply raisesLocal_bind (raisesLocal_charColumn _ _)
      intro _
      apply raisesLocal_bind (raisesLocal_charColumn _ _)
      intro _
      apply raisesLocal_bind (raisesLocal_charColumn _ _)
      intro _
      apply raisesLocal_bind (raisesLocal_charColumn _ _)
      intro _
      apply raisesLocal_bind (raisesLocal_charColumn _ _)
      intro _
      apply raisesLocal_bind (hDays _)
      intro _
      apply raisesLocal_bind (hJson _)
      intro _
      exact hJson _

theorem raisesLocal_check
    (row : Report kind) : RaisesLocal row.check := by
  apply raisesLocal_bind (raisesLocal_charColumn _ _)
  intro _
  apply raisesLocal_bind (raisesLocal_charColumn _ _)
  intro _
  apply raisesLocal_bind (raisesLocal_require _ rfl)
  intro _
  apply raisesLocal_bind (raisesLocal_require _ rfl)
  intro _
  exact raisesLocal_checkColumns kind row.columns

/- What a write that is not done raises. -/
theorem isLocal_of_writeReport
    {object : Report kind}
    {e : Exc}
    (hWrite :
      writeReport repr object = .refuse e ∨
        writeReport repr object = .miss e) :
    e.isLocal = true := by
  unfold writeReport at hWrite
  split at hWrite
  · rename_i e' hPrepare
    rcases hWrite with hWrite | hWrite
    · cases hWrite
    · cases hWrite
      exact raisesLocal_prepare object e hPrepare
  · rename_i row hPrepare
    split at hWrite
    · rename_i e' hCheck
      rcases hWrite with hWrite | hWrite
      · cases hWrite
        exact raisesLocal_check row e hCheck
      · cases hWrite
    · rcases hWrite with hWrite | hWrite
      · cases hWrite
      · cases hWrite

end Refusals

------------------------------------------------------------
-- Runs
------------------------------------------------------------

section Runs

variable {t : Tid} {d : Db} {s : Store Db HistoryKey}
variable {answers : Statement → Option Reply} {α : Type}

/- A report that is not deleted is loaded. -/
theorem plan_getReport
    {reportId : ReportId}
    (hFind : d.find kind reportId = some row)
    (hShown : row.isDeleted = false) :
    (backend repr).plan (.getReport kind reportId) d =
      .done row none id := by
  simp [backend, plan, hFind, Option.filter, liveReport,
    hShown, Verdict.read]

/- The handler records the failure and raises again. -/
theorem ends_failReport
    {Q : α → Store Db HistoryKey → Prop}
    {E : Exc → Store Db HistoryKey → Prop}
    {e : Exc}
    (hReady : s.Ready t d [])
    (hInside :
      ∀ object fields,
        answers (.saveReportFields kind object fields) =
          none)
    (hFind : d.find kind object.id = some row)
    (hStored : Stored repr row)
    (hText : Printable e)
    (hRaise :
      ∀ s' : Store Db HistoryKey,
        s'.Ready t (putReport (failedRow row e.str) d) [] →
          E e s') :
    (failReport kind object e).Ends
      ((backend repr).alone t answers) Q E s := by
  have hPlan :
      (backend repr).plan
          (.saveReportFields kind (failedReport object e)
            [.status, .errorMessage])
          d =
        .done () none (putReport (failedRow row e.str)) := by
    have hFound :
        d.find kind (failedReport object e).id = some row :=
      hFind
    simp [backend, plan, hFound, writeReport,
      assign_failedReport, prepare_failedRow hStored,
      check_failedRow hStored hText]
  apply Prog.ends_bind
  apply Backend.ends_done hReady (hInside _ _) hPlan
  intro s' hReady'
  exact hRaise s' hReady'

end Runs

end SiteAnalysis.Reports
