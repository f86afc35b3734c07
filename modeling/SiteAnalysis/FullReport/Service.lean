import SiteAnalysis.FullReport.Database

/-
  This file defines the task that produces a full report and
  the view that shows it.

  Key definitions include:
    * `Combined`
    * `Tooling`
    * `produceReport`
    * `runFullReportTask`
    * `getDownloadUrl`
    * `getFullReport`
-/

------------------------------------------------------------
-- The Task
------------------------------------------------------------

namespace SiteAnalysis.FullReport

open Concurrency
open Relational
open Python
open Reports

/- The dictionary of a run of the tools. -/
structure Combined where
  url : String
  strategy : String
  generatedAt : Time
  tools : Report
  cells : Cells

/-
  The libraries of the tools, `FULL_REPORT_TOOLS`, and the
  rendering of a dictionary in a language.
-/
structure Tooling where
  platform : Platform
  setting : List String
  buildReportPdf : Combined → String → Except Exc Pdf

def Tooling.combine
    (tooling : Tooling)
    (report : FullReportRow)
    (run : ToolRun) : Combined where
  url := report.url
  strategy := report.strategy
  generatedAt := run.generatedAt
  tools :=
    runFullReport tooling.platform tooling.setting
      run.answers report.url
  cells := run.cells

/- `result[key]["status"]` -/
def ToolResult.status {D : Type} : ToolResult D → String
| .ok _ => "ok"
| .failed _ => "failed"
| .skipped => "skipped"

/- `report.tools_status` of a completed report -/
def toolsStatus (report : Report) : Json :=
  .obj
    [("pagespeed", .str report.pagespeed.status),
      ("gtmetrix", .str report.gtmetrix.status),
      ("accessibility", .str report.accessibility.status),
      ("ssl", .str report.ssl.status),
      ("links", .str report.links.status),
      ("structured_data", .str report.structuredData.status)]

/- `(hostname or "site").replace(".", "-")` -/
def hostLabel (hostname : Option String) : String :=
  let host := (hostname.filter (fun h => h ≠ "")).getD "site"
  String.ofList
    (host.toList.map (fun c => if c = '.' then '-' else c))

def reportFilename
    (hostname : Option String)
    (lang : String) : String :=
  "analysis-" ++ hostLabel hostname ++ "-" ++ lang ++ ".pdf"

/- `report_upload_to` -/
def reportUploadTo
    (report : FullReportRow)
    (filename : String) : String :=
  "reports/" ++ toString report.id ++ "/" ++ filename

/- The object that the successful path saves. -/
def completedReport
    (report : FullReportRow)
    (file : String)
    (result : Combined) : FullReportRow :=
  { report with
    status := .completed
    file := some file
    toolsStatus := toolsStatus result.tools
    errorMessage := "" }

/- The body of the `try` statement. -/
def produceReport
    (tooling : Tooling)
    (report : FullReportRow) : Service FullReportRow := do
  let run : ToolRun ←
    query (.runTools report.url report.strategy)
  let result := tooling.combine report run
  let pdf ←
    Prog.ofExcept (tooling.buildReportPdf result report.lang)
  let hostname ←
    Prog.ofExcept (fromPython run.answers.hostname)
  let filename := reportFilename hostname report.lang
  let file : String ←
    query (.storeFile (reportUploadTo report filename) pdf)
  let completed := completedReport report file result
  query (.saveReport completed)
  pure completed

/- The object that the `except` clause saves. -/
def failedReport
    (report : FullReportRow)
    (e : Exc) : FullReportRow :=
  { report with
    status := .failed
    errorMessage := e.str }

/- The `except` clause. -/
def failReport
    (report : FullReportRow)
    (e : Exc) : Service String := do
  query
    (.saveReportFields (failedReport report e)
      [.status, .errorMessage])
  pure "failed"

/- The task after it has read the report. -/
def processReport
    (tooling : Tooling)
    (report : FullReportRow) : Service String := do
  let started := { report with status := .processing }
  query (.saveReportFields started [.status])
  (produceReport tooling started).handle
    (fun completed => pure completed.status.value)
    (failReport started)

def runFullReportTask
    (tooling : Tooling)
    (reportId : ReportId) : Service String :=
  (query (.getReport reportId)).handle
    (processReport tooling)
    fun
    | .doesNotExist _ => pure "missing"
    | e => .raise e

------------------------------------------------------------
-- The View
------------------------------------------------------------

/- `request.build_absolute_uri` and the URL of the storage. -/
structure Links where
  storageUrl : String → String
  buildAbsoluteUri : Option (String → String)

/- `get_download_url` -/
def getDownloadUrl
    (links : Links)
    (obj : FullReportRow) : Option String :=
  match obj.file.filter (fun name => name ≠ "") with
  | none => none
  | some name =>
      match links.buildAbsoluteUri with
      | some absolute => some (absolute (links.storageUrl name))
      | none => some (links.storageUrl name)

/- The fields of `FullReportSerializer`. -/
structure FullReportData where
  id : ReportId
  url : String
  strategy : String
  lang : String
  status : FullReportStatus
  toolsStatus : Json
  downloadUrl : Option String
  errorMessage : String

def serializeReport
    (links : Links)
    (obj : FullReportRow) : FullReportData where
  id := obj.id
  url := obj.url
  strategy := obj.strategy
  lang := obj.lang
  status := obj.status
  toolsStatus := obj.toolsStatus
  downloadUrl := getDownloadUrl links obj
  errorMessage := obj.errorMessage

/- `FullReportDetailView.get`; no report is a 404. -/
def getFullReport
    (links : Links)
    (d : Db)
    (pk : ReportId) : Option FullReportData :=
  ((d.find pk).filter FullReportRow.isLive).map
    (serializeReport links)

end SiteAnalysis.FullReport
