import SiteAnalysis.Analysis.PageSpeed
import SiteAnalysis.Audits.Wave
import SiteAnalysis.Gtmetrix.Client
import SiteAnalysis.Ssl.Scanner
import SiteAnalysis.Linkchecker.Service
import SiteAnalysis.Validator.Service

/-
  This file defines the tools of a full report: each enabled
  tool runs once, and its data or its error become one part
  of the report.  Nothing is stored.

  Key definitions include:
    * `ToolResult`
    * `quickLinkCheck`
    * `quickSchemaCheck`
    * `enabledTools`
    * `Report`
    * `runFullReport`
-/

------------------------------------------------------------
-- Results
------------------------------------------------------------

namespace SiteAnalysis.FullReport

open Python
open Reports

/- The dictionary of one tool, by its status. -/
inductive ToolResult (D : Type)
  | ok (data : D)
  | failed (error : String)
  | skipped

/- `try: return _ok(...)` and `except: return _failed(exc)` -/
def attempt
    {D : Type} : Except Exc D → ToolResult D
| .ok data => .ok data
| .error e => .failed e.str

/- `d.get(field)` -/
def metric
    {F : Type}
    [DecidableEq F]
    (data : List (F × Json))
    (field : F) : Json :=
  (data.lookup field).getD .null

------------------------------------------------------------
-- Links
------------------------------------------------------------

/- The counts that `quick_link_check` returns. -/
structure LinkSummary where
  totalLinks : Nat
  healthy : Nat
  broken : Nat
  redirects : Nat
  timeouts : Nat
  errors : Nat

/- `counts[category]` -/
def countOf
    (category : Linkchecker.StatusCategory)
    (outcomes : List Linkchecker.LinkOutcome) : Nat :=
  (outcomes.filter
    (fun o => o.statusCategory = category)).length

/-
  `quick_link_check`; the counts do not depend on the order
  in which the links are checked.
-/
def quickLinkCheck
    (platform : Linkchecker.Platform)
    (page : Except Exc String)
    (check : String → Except Exc Linkchecker.LinkOutcome)
    (url : String)
    (maxLinks : Nat) : Except Exc LinkSummary := do
  let html ← page
  let extracted ← Linkchecker.extractLinks platform html url
  let links := extracted.take maxLinks
  let outcomes ← links.mapM (fun link => check link.targetUrl)
  pure
    { totalLinks := links.length
      healthy := countOf .healthy outcomes
      broken := countOf .broken outcomes
      redirects := countOf .redirect outcomes
      timeouts := countOf .timeout outcomes
      errors := countOf .error outcomes }

------------------------------------------------------------
-- Structured Data
------------------------------------------------------------

/- The counts that `quick_schema_check` returns. -/
structure SchemaSummary where
  totalSchemas : Nat
  validSchemas : Nat
  totalErrors : Nat
  totalWarnings : Nat
  richResultEligible : Nat
  hasJsonLd : Bool
  hasMicrodata : Bool
  hasRdfa : Bool

/- `sum(1 for i in issues if i["severity"] == severity)` -/
def countIssues
    (severity : Validator.IssueSeverity)
    (result : Validator.SchemaResult) : Nat :=
  (result.issues.filter
    (fun issue => issue.severity = severity)).length

/- The counters of the loop over the objects. -/
structure SchemaCounts where
  errors : Nat
  warnings : Nat
  valid : Nat
  rich : Nat

/- One round of the loop. -/
def SchemaCounts.add
    (counts : SchemaCounts)
    (result : Validator.SchemaResult) : SchemaCounts where
  errors := counts.errors + countIssues .error result
  warnings := counts.warnings + countIssues .warning result
  valid :=
    if result.isValid then counts.valid + 1 else counts.valid
  rich :=
    if result.richResultEligible then
      counts.rich + 1
    else
      counts.rich

def SchemaCounts.zero : SchemaCounts where
  errors := 0
  warnings := 0
  valid := 0
  rich := 0

/- `quick_schema_check` -/
def quickSchemaCheck
    (platform : Validator.Platform)
    (client : String → Validator.PageOutcome)
    (url : String) : Except Exc SchemaSummary := do
  let html ← Validator.fetchPage client url
  let objects ← Validator.extractAll platform html
  let counts :=
    (objects.map
      (fun object =>
        Validator.validateObject platform object.2)).foldl
      SchemaCounts.add SchemaCounts.zero
  pure
    { totalSchemas := objects.length
      validSchemas := counts.valid
      totalErrors := counts.errors
      totalWarnings := counts.warnings
      richResultEligible := counts.rich
      hasJsonLd := Validator.hasFormat .jsonLd objects
      hasMicrodata := Validator.hasFormat .microdata objects
      hasRdfa := Validator.hasFormat .rdfa objects }

------------------------------------------------------------
-- Reports
------------------------------------------------------------

/- The canonical keys, in the order of `_TOOL_RUNNERS`. -/
inductive Tool
  | pagespeed
  | gtmetrix
  | accessibility
  | ssl
  | links
  | structuredData
deriving DecidableEq

def Tool.all : List Tool :=
  [.pagespeed, .gtmetrix, .accessibility, .ssl, .links,
    .structuredData]

def Tool.key : Tool → String
| .pagespeed => "pagespeed"
| .gtmetrix => "gtmetrix"
| .accessibility => "accessibility"
| .ssl => "ssl"
| .links => "links"
| .structuredData => "structured_data"

/- `enabled_tools`; the setting is `FULL_REPORT_TOOLS`. -/
def enabledTools (setting : List String) : List Tool :=
  Tool.all.filter
    (fun tool => tool.key ∈ setting.map stripText)

/- The libraries that the tools use. -/
structure Platform where
  repr : Json → String
  isoformat : Time → String
  links : Linkchecker.Platform
  schemas : Validator.Platform

/-
  What the services, servers and scanners that a report asks
  come back with; `pageHtml` is the page of the link check,
  and `hostname` that of the URL.
-/
structure Answers where
  pagespeed : Except Exc Json
  gtmetrix : Except Exc Gtmetrix.FetchedReport
  wave : Except Exc Json
  hostname : Except PyError (Option String)
  scan : String → Except Exc (Option Ssl.ServerScanResult)
  now : Time
  pageHtml : Except Exc String
  checkLink : String → Except Exc Linkchecker.LinkOutcome
  client : String → Validator.PageOutcome

/-
  The dictionary that `run_full_report` returns.  Of the data
  of `accessibility` the totals are kept.
-/
structure Report where
  pagespeed : ToolResult (List (AnalysisField × Json))
  gtmetrix : ToolResult (List (GTmetrixField × Json))
  accessibility : ToolResult Audits.Totals
  ssl : ToolResult SSLColumns
  links : ToolResult LinkSummary
  structuredData : ToolResult SchemaSummary

/- `_run_pagespeed` -/
def runPagespeed
    (answers : Answers) :
    ToolResult (List (AnalysisField × Json)) :=
  attempt do
    let raw ← answers.pagespeed
    fromPython (Analysis.parsePagespeed raw)

/- `_run_gtmetrix` -/
def runGtmetrix
    (answers : Answers) :
    ToolResult (List (GTmetrixField × Json)) :=
  attempt do
    let result ← answers.gtmetrix
    pure result.metrics

/- `_run_wave` -/
def runWave
    (answers : Answers) : ToolResult Audits.Totals :=
  attempt do
    let raw ← answers.wave
    let parsed ← fromPython (Audits.parseWave raw)
    pure parsed.totals

/- `_run_ssl`; the host is the URL where it has none. -/
def runSsl
    (platform : Platform)
    (answers : Answers)
    (url : String) : ToolResult SSLColumns :=
  attempt do
    let hostname ← fromPython answers.hostname
    let host :=
      (hostname.filter (fun h => h ≠ "")).getD url
    let result ← answers.scan host
    let parsed ←
      Ssl.readScan platform.isoformat answers.now host 443
        result
    pure parsed.columns

/- `_run_links` -/
def runLinks
    (platform : Platform)
    (answers : Answers)
    (url : String) : ToolResult LinkSummary :=
  attempt
    (quickLinkCheck platform.links answers.pageHtml
      answers.checkLink url 1000)

/- `_run_schema` -/
def runSchema
    (platform : Platform)
    (answers : Answers)
    (url : String) : ToolResult SchemaSummary :=
  attempt
    (quickSchemaCheck platform.schemas answers.client url)

/- `results.get(key, _skipped())` -/
def resultOf
    {D : Type}
    (active : List Tool)
    (tool : Tool)
    (result : ToolResult D) : ToolResult D :=
  if tool ∈ active then result else .skipped

/- `run_full_report` -/
def runFullReport
    (platform : Platform)
    (setting : List String)
    (answers : Answers)
    (url : String) : Report :=
  let active := enabledTools setting
  { pagespeed :=
      resultOf active .pagespeed (runPagespeed answers)
    gtmetrix := resultOf active .gtmetrix (runGtmetrix answers)
    accessibility :=
      resultOf active .accessibility (runWave answers)
    ssl := resultOf active .ssl (runSsl platform answers url)
    links :=
      resultOf active .links (runLinks platform answers url)
    structuredData :=
      resultOf active .structuredData
        (runSchema platform answers url) }

end SiteAnalysis.FullReport
