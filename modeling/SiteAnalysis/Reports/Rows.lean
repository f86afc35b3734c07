import SiteAnalysis.Common.Fields

/-
  This file defines the report models of the analysis,
  gtmetrix and ssl_check apps, and the rows that the database
  stores for their objects.

  The three models share the columns of `BaseModel` and of a
  submission.  The other columns depend on the model.

  Key definitions include:
    * `ReportKind`
    * `Columns`
    * `Report`
    * `Report.assign`
    * `Report.prepare`
    * `Report.check`
    * `AnalysisHistory`

  Key theorems include:
    * `Report.eq_of_prepare`
-/

------------------------------------------------------------
-- Models
------------------------------------------------------------

namespace SiteAnalysis.Reports

open Python

abbrev UserId := Nat

/- The value of a fresh `uuid4`. -/
abbrev ReportId := Nat

/- A point in time, in microseconds. -/
abbrev Time := Int

/- `AnalysisReport`, `GTmetrixReport` and `SSLReport`. -/
inductive ReportKind
  | analysis
  | gtmetrix
  | ssl
deriving DecidableEq

def ReportKind.model : ReportKind → String
| .analysis => "AnalysisReport"
| .gtmetrix => "GTmetrixReport"
| .ssl => "SSLReport"

inductive ReportStatus
  | pending
  | completed
  | failed
deriving DecidableEq

def ReportStatus.value : ReportStatus → String
| .pending => "pending"
| .completed => "completed"
| .failed => "failed"

/- The metric fields of `AnalysisReport`. -/
inductive AnalysisField
  | performanceScore
  | accessibilityScore
  | bestPracticesScore
  | seoScore
  | firstContentfulPaint
  | largestContentfulPaint
  | totalBlockingTime
  | cumulativeLayoutShift
  | speedIndex
  | timeToInteractive
deriving DecidableEq

namespace AnalysisField

def all : List AnalysisField :=
  [.performanceScore, .accessibilityScore,
    .bestPracticesScore, .seoScore, .firstContentfulPaint,
    .largestContentfulPaint, .totalBlockingTime,
    .cumulativeLayoutShift, .speedIndex, .timeToInteractive]

def field : AnalysisField → Field
| .performanceScore => ⟨"performance_score", .integer, true⟩
| .accessibilityScore =>
    ⟨"accessibility_score", .integer, true⟩
| .bestPracticesScore =>
    ⟨"best_practices_score", .integer, true⟩
| .seoScore => ⟨"seo_score", .integer, true⟩
| .firstContentfulPaint =>
    ⟨"first_contentful_paint", .float, true⟩
| .largestContentfulPaint =>
    ⟨"largest_contentful_paint", .float, true⟩
| .totalBlockingTime =>
    ⟨"total_blocking_time", .float, true⟩
| .cumulativeLayoutShift =>
    ⟨"cumulative_layout_shift", .float, true⟩
| .speedIndex => ⟨"speed_index", .float, true⟩
| .timeToInteractive =>
    ⟨"time_to_interactive", .float, true⟩

end AnalysisField

structure AnalysisColumns where
  strategy : String
  metrics : AnalysisField → Json

/-
  The fields of `GTmetrixReport` that take what GTmetrix has
  answered.
-/
inductive GTmetrixField
  | testId
  | reportUrl
  | gtmetrixGrade
  | performanceScore
  | structureScore
  | firstContentfulPaint
  | largestContentfulPaint
  | cumulativeLayoutShift
  | totalBlockingTime
  | timeToInteractive
  | speedIndex
  | onloadTime
  | fullyLoadedTime
  | pageBytes
  | pageRequests
deriving DecidableEq

namespace GTmetrixField

def all : List GTmetrixField :=
  [.testId, .reportUrl, .gtmetrixGrade, .performanceScore,
    .structureScore, .firstContentfulPaint,
    .largestContentfulPaint, .cumulativeLayoutShift,
    .totalBlockingTime, .timeToInteractive, .speedIndex,
    .onloadTime, .fullyLoadedTime, .pageBytes,
    .pageRequests]

def field : GTmetrixField → Field
| .testId => ⟨"test_id", .char 64, false⟩
| .reportUrl => ⟨"report_url", .char 2048, false⟩
| .gtmetrixGrade => ⟨"gtmetrix_grade", .char 4, false⟩
| .performanceScore => ⟨"performance_score", .integer, true⟩
| .structureScore => ⟨"structure_score", .integer, true⟩
| .firstContentfulPaint =>
    ⟨"first_contentful_paint", .float, true⟩
| .largestContentfulPaint =>
    ⟨"largest_contentful_paint", .float, true⟩
| .cumulativeLayoutShift =>
    ⟨"cumulative_layout_shift", .float, true⟩
| .totalBlockingTime =>
    ⟨"total_blocking_time", .float, true⟩
| .timeToInteractive =>
    ⟨"time_to_interactive", .float, true⟩
| .speedIndex => ⟨"speed_index", .float, true⟩
| .onloadTime => ⟨"onload_time", .float, true⟩
| .fullyLoadedTime => ⟨"fully_loaded_time", .float, true⟩
| .pageBytes => ⟨"page_bytes", .bigInteger, true⟩
| .pageRequests => ⟨"page_requests", .integer, true⟩

/- The columns of a new report. -/
def initial : GTmetrixField → Json
| .testId => .str ""
| .reportUrl => .str ""
| .gtmetrixGrade => .str ""
| _ => .null

end GTmetrixField

structure GTmetrixColumns where
  values : GTmetrixField → Json

structure SSLColumns where
  host : String
  grade : String
  hasWarnings : Bool
  ipAddress : String
  serverName : String
  certSubject : String
  certIssuer : String
  certValidFrom : Option Time
  certValidTo : Option Time
  certExpiresInDays : Option Int
  certIsTrusted : Option Bool
  protocols : Json
  vulnerabilities : Json

/- The columns that only one model has. -/
abbrev Columns : ReportKind → Type
| .analysis => AnalysisColumns
| .gtmetrix => GTmetrixColumns
| .ssl => SSLColumns

/- An object of a model, or a row of its table. -/
structure Report (kind : ReportKind) where
  id : ReportId
  user : Option UserId
  url : String
  status : ReportStatus
  errorMessage : String
  rawResponse : Json
  isDeleted : Bool
  deletedAt : Option Time
  columns : Columns kind

abbrev AnalysisReport := Report .analysis
abbrev GTmetrixReport := Report .gtmetrix
abbrev SSLReport := Report .ssl

structure AnalysisHistory where
  user : UserId
  url : String
  reportsCount : Int
  lastAnalyzedAt : Time
  isDeleted : Bool
deriving DecidableEq

------------------------------------------------------------
-- Partial Saves
------------------------------------------------------------

/- The columns that are saved by name. -/
inductive ReportField
  | status
  | errorMessage
  | testId
  | isDeleted
  | deletedAt
deriving DecidableEq

/- The own columns of the model that are saved by name. -/
def assignColumns
    (fields : List ReportField) :
    (kind : ReportKind) →
      Columns kind → Columns kind → Columns kind
| .analysis, _, stored => stored
| .gtmetrix, object, stored =>
    if .testId ∈ fields then
      { values :=
          Function.update stored.values .testId
            (object.values .testId) }
    else
      stored
| .ssl, _, stored => stored

/- `UPDATE` of the listed columns from the object. -/
def Report.assign
    {kind : ReportKind}
    (fields : List ReportField)
    (object stored : Report kind) : Report kind :=
  { stored with
    status :=
      if .status ∈ fields then
        object.status
      else
        stored.status
    errorMessage :=
      if .errorMessage ∈ fields then
        object.errorMessage
      else
        stored.errorMessage
    isDeleted :=
      if .isDeleted ∈ fields then
        object.isDeleted
      else
        stored.isDeleted
    deletedAt :=
      if .deletedAt ∈ fields then
        object.deletedAt
      else
        stored.deletedAt
    columns :=
      assignColumns fields kind object.columns
        stored.columns }

------------------------------------------------------------
-- Stored Rows
------------------------------------------------------------

/- The own columns as the client library prepares them. -/
def prepareColumns
    (repr : Json → String) :
    (kind : ReportKind) →
      Columns kind → Except Exc (Columns kind)
| .analysis, c => do
    prepareAll repr AnalysisField.field c.metrics
      AnalysisField.all
    pure
      { c with
        metrics :=
          stored repr AnalysisField.field c.metrics }
| .gtmetrix, c => do
    prepareAll repr GTmetrixField.field c.values
      GTmetrixField.all
    pure
      { values := stored repr GTmetrixField.field c.values }
| .ssl, c => pure c

/- `report_performance_score_range` -/
def performanceScoreRange : Json → Except Exc Unit
| .int n =>
    require (0 ≤ n ∧ n ≤ 100)
      (.database .integrityError
        ("violates check constraint " ++
          "\"report_performance_score_range\""))
| _ => .ok ()

/- A nullable `IntegerField`. -/
def optionalIntegerColumn : Option Int → Except Exc Unit
| none => .ok ()
| some n => integerColumn n

/- What the database accepts of prepared own columns. -/
def checkColumns :
    (kind : ReportKind) → Columns kind → Except Exc Unit
| .analysis, c => do
    charColumn 10 c.strategy
    checkAll AnalysisField.field c.metrics
      AnalysisField.all
    performanceScoreRange (c.metrics .performanceScore)
| .gtmetrix, c =>
    checkAll GTmetrixField.field c.values
      GTmetrixField.all
| .ssl, c => do
    charColumn 255 c.host
    charColumn 4 c.grade
    charColumn 45 c.ipAddress
    charColumn 255 c.serverName
    charColumn 512 c.certSubject
    charColumn 512 c.certIssuer
    optionalIntegerColumn c.certExpiresInDays
    jsonColumn c.protocols
    jsonColumn c.vulnerabilities

namespace Report

variable {kind : ReportKind}

/- The row that is sent to the database for an object. -/
def prepare
    (repr : Json → String)
    (object : Report kind) : Except Exc (Report kind) := do
  let columns ← prepareColumns repr kind object.columns
  pure { object with columns := columns }

/- Preparing an object changes its own columns only. -/
theorem eq_of_prepare
    {repr : Json → String}
    {object row : Report kind}
    (hPrepare : object.prepare repr = .ok row) :
    row = { object with columns := row.columns } := by
  unfold prepare at hPrepare
  cases hColumns : prepareColumns repr kind object.columns with
  | error e =>
      rw [hColumns] at hPrepare
      cases hPrepare
  | ok columns =>
      rw [hColumns] at hPrepare
      cases hPrepare
      rfl

/- What the database accepts of a row. -/
def check
    (row : Report kind) : Except Exc Unit := do
  charColumn 2048 row.url
  charColumn 10 row.status.value
  textColumn row.errorMessage
  jsonColumn row.rawResponse
  checkColumns kind row.columns

end Report

end SiteAnalysis.Reports
