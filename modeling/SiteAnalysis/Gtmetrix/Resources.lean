import SiteAnalysis.Gtmetrix.Service
import SiteAnalysis.Python.Paths
import SiteAnalysis.Reports.Stored

/-
  This file characterizes the report resources of GTmetrix
  that can be flattened into columns, and those whose values
  the columns take.

  Key definitions include:
    * `isReadable`
    * `metricsOf`
    * `ReportFits`

  Key theorems include:
    * `parseReport_eq_ok`
    * `writable_completedReport_iff`
-/

------------------------------------------------------------
-- Reading
------------------------------------------------------------

namespace SiteAnalysis.Gtmetrix

open Concurrency
open Relational
open Python
open Reports

/- The place of an attribute of a resource. -/
def attributePath (name : String) : List String :=
  ["data", "attributes", name]

/- The place of the link to the PDF of a report. -/
def linkPath : List String :=
  ["data", "links", "report_pdf"]

/- Attributes and links are objects or missing. -/
def isReadable (report : Json) : Bool :=
  report.nested (attributePath "report_url") &&
    report.nested linkPath

/- The value that the report's URL column gets. -/
def reportUrlOf (report : Json) : Json :=
  (report.place linkPath).or
    ((report.place (attributePath "report_url")).or
      (.str ""))

/- The values that the columns get. -/
def metricsOf
    (report : Json) : List (GTmetrixField × Json) :=
  reportAttributes.map
      (fun f =>
        (f, report.place (attributePath f.field.name))) ++
    [(.reportUrl, reportUrlOf report)]

variable {report attributes : Json}
variable {metrics : List (GTmetrixField × Json)}

/- The attributes of an object are read one by one. -/
theorem readAttributes_of_object
    (fields : List GTmetrixField)
    (hObject : attributes.isObject = true) :
    readAttributes attributes fields =
      .ok
        (fields.map
          (fun f =>
            (f, attributes.place [f.field.name]))) := by
  induction fields with
  | nil => rfl
  | cons f fields ih =>
      have hGet :
          attributes.get f.field.name .null =
            .ok (attributes.place [f.field.name]) := by
        rw [Json.get_eq_ok]
        exact ⟨hObject, rfl⟩
      rw [readAttributes, hGet, ih]
      rfl

/- The object of a part of a resource. -/
def partOf
    (report : Json)
    (part : String) : Json :=
  ((report.member "data").getD (.obj [])).member part
    |>.getD (.obj [])

theorem nested_part
    (part leaf : String) :
    report.nested ["data", part, leaf] = true ↔
      (report.isObject = true ∧
        ((report.member "data").getD
          (.obj [])).isObject = true) ∧
        (partOf report part).isObject = true := by
  rw [Json.nested_cons, Json.nested_cons,
    Json.nested_cons, Json.nested_nil, ← and_assoc]
  simp only [and_true]
  rfl

theorem place_part
    (report : Json)
    (part leaf : String) :
    report.place ["data", part, leaf] =
      (partOf report part).place [leaf] := by
  rw [Json.place_cons, Json.place_cons]
  rfl

/- `attrs.get("report_url", "") or ""` -/
theorem reportUrl_or
    (attributes : Json) :
    ((attributes.member "report_url").getD (.str "")).or
        (.str "") =
      (attributes.place ["report_url"]).or (.str "") := by
  rw [Json.place, Json.place_nil]
  cases attributes.member "report_url" with
  | none => rfl
  | some v => rfl

/- Attributes can be read of an object only. -/
theorem isObject_of_readAttributes
    {values : List (GTmetrixField × Json)}
    (hRead :
      readAttributes attributes reportAttributes =
        .ok values) :
    attributes.isObject = true := by
  simp only [reportAttributes, readAttributes,
    bind_eq_ok_iff, Json.get_eq_ok] at hRead
  rcases hRead with ⟨_, ⟨hObject, _⟩, _⟩
  exact hObject

/- The end of `parse_report`. -/
theorem reportUrl_eq_ok
    {pdf : Json}
    {values : List (GTmetrixField × Json)}
    (hObject : attributes.isObject = true) :
    (if pdf.truthy then
        (pure (values ++ [(.reportUrl, pdf)]) :
          Except PyError (List (GTmetrixField × Json)))
      else do
        let reportUrl ←
          attributes.get "report_url" (.str "")
        pure
          (values ++
            [(.reportUrl, reportUrl.or (.str ""))])) =
      .ok
        (values ++
          [(.reportUrl,
            pdf.or
              ((attributes.place ["report_url"]).or
                (.str "")))]) := by
  have hGet :
      attributes.get "report_url" (.str "") =
        .ok
          ((attributes.member "report_url").getD
            (.str "")) := by
    rw [Json.get_eq_ok]
    exact ⟨hObject, rfl⟩
  by_cases hPdf : pdf.truthy = true
  · rw [if_pos hPdf, Json.or, if_pos hPdf]
    rfl
  · rw [if_neg hPdf, Json.or, if_neg hPdf, hGet,
      ← reportUrl_or]
    rfl

/- A readable report is flattened, and no other is. -/
theorem parseReport_eq_ok :
    parseReport report = .ok metrics ↔
      isReadable report = true ∧
        metrics = metricsOf report := by
  have hAttributes :=
    fun name => place_part report "attributes" name
  have hLink :=
    place_part report "links" "report_pdf"
  simp only [isReadable, attributePath, linkPath,
    Bool.and_eq_true, nested_part]
  simp only [metricsOf, reportUrlOf, attributePath,
    linkPath, hAttributes, hLink]
  simp only [parseReport, bind_eq_ok_iff, Json.get_eq_ok]
  constructor
  · rintro
      ⟨_, ⟨hRaw, rfl⟩, _, ⟨hData, rfl⟩, values, hValues, _,
        ⟨_, rfl⟩, _, ⟨hLinks, rfl⟩, hRest⟩
    have hObject := isObject_of_readAttributes hValues
    rw [readAttributes_of_object _ hObject] at hValues
    cases hValues
    rw [reportUrl_eq_ok hObject] at hRest
    cases hRest
    exact
      ⟨⟨⟨⟨hRaw, hData⟩, hObject⟩, ⟨hRaw, hData⟩, hLinks⟩,
        rfl⟩
  · rintro
      ⟨⟨⟨⟨hRaw, hData⟩, hObject⟩, _, hLinks⟩, rfl⟩
    exact
      ⟨_, ⟨hRaw, rfl⟩, _, ⟨hData, rfl⟩, _,
        readAttributes_of_object _ hObject, _, ⟨hData, rfl⟩,
        _, ⟨hLinks, rfl⟩, reportUrl_eq_ok hObject⟩

------------------------------------------------------------
-- Columns
------------------------------------------------------------

/- The values fit, and the resource itself can be stored. -/
structure ReportFits
    (repr : Json → String)
    (report : Json) : Prop where
  payload : report.storable = true
  attributes :
    ∀ f ∈ reportAttributes,
      f.field.Takes repr
        (report.place (attributePath f.field.name))
  url :
    fitsChar 2048 ((reportUrlOf report).toStr repr) = true

section Columns

variable {repr : Json → String} {testId : Json}
variable {object row : GTmetrixReport}

/- A test id that its column takes. -/
def TestIdFits
    (repr : Json → String)
    (testId : Json) : Prop :=
  GTmetrixField.testId.field.Takes repr testId

/- What the table asks of an object. -/
structure Storable
    (repr : Json → String)
    (object : GTmetrixReport) : Prop where
  url : fitsChar 2048 object.url = true
  status : fitsChar 10 object.status.value = true
  message : noNul object.errorMessage = true
  payload : object.rawResponse.storable = true
  takes :
    ∀ f ∈ GTmetrixField.all,
      f.field.Takes repr (object.columns.values f)

/- The row of an object whose values could be prepared. -/
def preparedReport
    (repr : Json → String)
    (object : GTmetrixReport) : GTmetrixReport :=
  { object with
    columns :=
      { values :=
          stored repr GTmetrixField.field
            object.columns.values } }

theorem prepare_eq_ok :
    object.prepare repr = .ok row ↔
      prepareAll repr GTmetrixField.field
          object.columns.values GTmetrixField.all =
        .ok () ∧
        row = preparedReport repr object := by
  simp only [Report.prepare, prepareColumns, bind_eq_ok_iff]
  constructor
  · rintro ⟨_, ⟨_, hAll, hColumns⟩, hRow⟩
    cases hColumns
    cases hRow
    exact ⟨hAll, rfl⟩
  · rintro ⟨hAll, rfl⟩
    exact ⟨_, ⟨(), hAll, rfl⟩, rfl⟩

theorem writable_iff_storable
    (object : GTmetrixReport) :
    Writable repr object ↔ Storable repr object := by
  constructor
  · rintro ⟨row, hPrepare, hCheck⟩
    rcases prepare_eq_ok.mp hPrepare with ⟨hAll, rfl⟩
    simp only [preparedReport, Report.check, checkColumns,
      check_bind_eq_ok, charColumn_eq_ok, textColumn_eq_ok,
      jsonColumn_eq_ok] at hCheck
    rcases hCheck with
      ⟨hUrl, hStatus, hMessage, hPayload, hTakes⟩
    exact
      ⟨hUrl, hStatus, hMessage, hPayload,
        accepted_iff.mp ⟨hAll, hTakes⟩⟩
  · rintro ⟨hUrl, hStatus, hMessage, hPayload, hTakes⟩
    rcases accepted_iff.mpr hTakes with ⟨hAll, hChecked⟩
    refine ⟨_, prepare_eq_ok.mpr ⟨hAll, rfl⟩, ?_⟩
    simp only [preparedReport, Report.check, checkColumns,
      check_bind_eq_ok, charColumn_eq_ok, textColumn_eq_ok,
      jsonColumn_eq_ok]
    exact ⟨hUrl, hStatus, hMessage, hPayload, hChecked⟩

/- A stored row meets what the table asks. -/
theorem storable_of_stored
    (hStored : Stored repr row) : Storable repr row :=
  (writable_iff_storable row).mp
    ⟨row, hStored.prepare, hStored.check⟩

theorem plain_field
    (f : GTmetrixField) : f.field.Plain where
  name := by
    cases f <;> decide
  max := by
    intro n hType
    cases f <;> cases hType <;> decide

/- What the table raises can be stored as a message. -/
theorem clean_check
    (row : GTmetrixReport) : Clean row.check := by
  have hUrl : noNul (toString 2048) = true := by decide
  have hStatus : noNul (toString 10) = true := by decide
  apply clean_bind (clean_charColumn hUrl _)
  apply clean_bind (clean_charColumn hStatus _)
  apply clean_bind (clean_textColumn _)
  apply clean_bind (clean_jsonColumn _)
  exact clean_checkAll (fun f _ => plain_field f)

/- The URL column never gets null. -/
theorem takes_reportUrl_iff :
    GTmetrixField.reportUrl.field.Takes repr
        (reportUrlOf report) ↔
      fitsChar 2048 ((reportUrlOf report).toStr repr) =
        true := by
  have hUrl : reportUrlOf report ≠ .null := by
    unfold reportUrlOf Json.or
    split
    · rename_i hTruthy
      intro hNull
      rw [hNull] at hTruthy
      cases hTruthy
    · split
      · rename_i hTruthy
        intro hNull
        rw [hNull] at hTruthy
        cases hTruthy
      · intro hNull
        cases hNull
  simp [Field.Takes, hUrl, GTmetrixField.field,
    FieldType.Fits]

/- The object of a fetched report. -/
def fetched
    (testId report : Json) : FetchedReport where
  testId := testId
  metrics := metricsOf report
  raw := report

/- The value that a column of the completed object gets. -/
theorem values_completedReport
    (f : GTmetrixField) :
    (completedReport row
          (fetched testId report)).columns.values f =
      if f = .testId then
        testId
      else if f = .reportUrl then
        reportUrlOf report
      else
        report.place (attributePath f.field.name) := by
  cases f <;> rfl

/- The completed object is stored when its values fit. -/
theorem writable_completedReport_iff
    (hStored : Stored repr row)
    (hTestId : TestIdFits repr testId) :
    Writable repr
        (completedReport row (fetched testId report)) ↔
      ReportFits repr report := by
  have hRow := storable_of_stored hStored
  have hCompleted : fitsChar 10 "completed" = true := by
    decide
  have hEmpty : noNul "" = true := by decide
  rw [writable_iff_storable]
  constructor
  · intro hStorable
    have hTakes :
        ∀ f : GTmetrixField, f.field.Takes repr
          ((completedReport row
            (fetched testId report)).columns.values f) :=
      fun f => hStorable.takes f (GTmetrixField.mem_all f)
    refine ⟨hStorable.payload, ?_, ?_⟩
    · intro f hMem
      have hField := hTakes f
      rw [values_completedReport] at hField
      have hOther : f ≠ .testId ∧ f ≠ .reportUrl := by
        constructor
        · rintro rfl
          simp [reportAttributes] at hMem
        · rintro rfl
          simp [reportAttributes] at hMem
      rwa [if_neg hOther.1, if_neg hOther.2] at hField
    · have hField := hTakes .reportUrl
      rw [values_completedReport] at hField
      exact takes_reportUrl_iff.mp hField
  · intro hFits
    refine
      ⟨hRow.url, hCompleted, hEmpty, hFits.payload, ?_⟩
    intro f _
    rw [values_completedReport]
    split
    · rename_i hSame
      subst hSame
      exact hTestId
    · split
      · rename_i hSame
        subst hSame
        exact takes_reportUrl_iff.mpr hFits.url
      · rename_i hId hUrl
        apply hFits.attributes
        cases f <;>
          first
            | exact absurd rfl hId
            | exact absurd rfl hUrl
            | simp [reportAttributes]

end Columns

end SiteAnalysis.Gtmetrix
