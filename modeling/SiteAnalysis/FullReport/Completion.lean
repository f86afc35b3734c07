import SiteAnalysis.FullReport.Downloads
import SiteAnalysis.FullReport.Printing
import SiteAnalysis.FullReport.Storage
import SiteAnalysis.Relational.Solo

/-
  This file proves that a delivery of an English report whose
  texts hold no broken markup completes it, whatever the
  tools came back with.

  Key definitions include:
    * `answering`
    * `PlainTexts`
    * `Published`

  Key theorems include:
    * `plain_reports_are_published`
-/

------------------------------------------------------------
-- Produced Data
------------------------------------------------------------

namespace SiteAnalysis.FullReport

open Concurrency
open Relational
open Markup
open Python
open Reports

/- Protocols are listed by their labels. -/
theorem joined_protocolsJson
    (protocols : List Ssl.Protocol) :
    ∃ text,
      joined ((Ssl.protocolsJson protocols).or (.arr [])) =
          .ok text ∧
        IsMarkup text := by
  have hLabel : ∀ p : Ssl.Protocol, IsMarkup p.label := by
    intro p
    cases p <;> exact isMarkup_literal _ (by decide)
  have hTexts :
      ∀ i,
        textsOf i
            (protocols.map (fun p => Json.str p.label)) =
          .ok (protocols.map Ssl.Protocol.label) := by
    induction protocols with
    | nil => exact fun _ => rfl
    | cons p rest ih =>
        intro i
        simp only [List.map_cons, textsOf, ih]
        rfl
  have hJoined :
      joined (Ssl.protocolsJson protocols) =
        .ok
          (", ".intercalate
            (protocols.map Ssl.Protocol.label)) := by
    simp only [Ssl.protocolsJson, joined, hTexts]
    rfl
  have hOr :
      joined ((Ssl.protocolsJson protocols).or (.arr [])) =
        joined (Ssl.protocolsJson protocols) := by
    cases protocols with
    | nil => rfl
    | cons p rest => rfl
  refine ⟨_, hOr.trans hJoined, ?_⟩
  apply isMarkup_intercalate
  intro text hMem
  rcases List.mem_map.mp hMem with ⟨p, -, rfl⟩
  exact hLabel p

theorem isMarkup_grade
    {grade : String}
    (hGrade : grade ∈ ["A+", "A", "B", "F", "T"]) :
    IsMarkup grade := by
  simp only [List.mem_cons, List.not_mem_nil, or_false]
    at hGrade
  rcases hGrade with rfl | rfl | rfl | rfl | rfl <;>
    exact isMarkup_literal _ (by decide)

theorem isMarkup_vulnerability
    {scan : Ssl.ScanResult}
    {v : String × Bool}
    (hMem : v ∈ Ssl.vulnerabilitiesOf scan) :
    IsMarkup v.1 := by
  have hName :
      v.1 = "heartbleed" ∨ v.1 = "openssl_ccs_injection" ∨
        v.1 = "robot" ∨ v.1 = "tls_compression_crime" ∨
          v.1 = "insecure_renegotiation" := by
    simp only [Ssl.vulnerabilitiesOf, List.mem_append,
      Option.mem_toList, Option.map_eq_some_iff] at hMem
    rcases hMem with
      (((⟨b, -, rfl⟩ | ⟨b, -, rfl⟩) | ⟨b, -, rfl⟩) |
        ⟨b, -, rfl⟩) | ⟨b, -, rfl⟩ <;> simp
  rcases hName with hName | hName | hName | hName | hName <;>
    rw [hName] <;> exact isMarkup_literal _ (by decide)

/- The items of what a scan found. -/
theorem items_vulnerabilitiesJson
    (vulnerabilities : Ssl.Vulnerabilities) :
    ((Ssl.vulnerabilitiesJson vulnerabilities).or
        (.obj [])).items =
      .ok (vulnerabilities.map (fun v => (v.1, .bool v.2))) := by
  cases vulnerabilities with
  | nil => rfl
  | cons v rest => rfl

/- The texts of a scan are those of the scanner. -/
theorem sslReads_readScan
    {isoformat : Time → String}
    {now : Time}
    {host : String}
    {port : Nat}
    {result : Option Ssl.ServerScanResult}
    {parsed : Ssl.ParsedScan}
    (hRead :
      Ssl.readScan isoformat now host port result =
        .ok parsed) :
    SslReads parsed.columns := by
  cases result with
  | none => cases hRead
  | some server =>
      simp only [Ssl.readScan] at hRead
      split at hRead
      · have hParse := fromPython_eq_ok.mp hRead
        rcases (bind_eq_ok_iff _ _ _).mp hParse with
          ⟨leaf, -, hSame⟩
        cases hSame
        constructor
        · exact
            isMarkup_grade (synthesiseGrade_mem _ _ _ _)
        · exact joined_protocolsJson _
        · refine ⟨_, items_vulnerabilitiesJson _, ?_⟩
          intro item hMem
          rcases List.mem_map.mp hMem with ⟨v, hV, rfl⟩
          exact isMarkup_vulnerability hV
      · cases hRead

------------------------------------------------------------
-- Plain Texts
------------------------------------------------------------

/- The error of a tool that failed is markup. -/
def ToolResult.FailsReadably
    {D : Type}
    (result : ToolResult D) : Prop :=
  ∀ error, result = .failed error → IsMarkup error

/-
  What of a run a paragraph shows as it came: the URL, the
  errors of the tools and the texts of GTmetrix are markup,
  and the rating is a number.
-/
structure PlainTexts
    {π : Type}
    (press : Press π)
    (result : Combined) : Prop where
  floats : ∀ x, IsMarkup (press.repr (.float x))
  url : IsMarkup result.url
  strategy : IsMarkup result.strategy
  generated : IsMarkup (press.strftime result.generatedAt)
  pagespeed : result.tools.pagespeed.FailsReadably
  gtmetrix :
    result.tools.gtmetrix.Reads (GtmetrixReads press.repr)
  accessibility : result.tools.accessibility.FailsReadably
  ssl : result.tools.ssl.FailsReadably
  links : result.tools.links.FailsReadably
  structuredData : result.tools.structuredData.FailsReadably
  score : ∃ score, overallScore result.tools = .ok score

theorem reads_of_failsReadably
    {D : Type}
    {P : D → Prop}
    {result : ToolResult D}
    (hFails : result.FailsReadably)
    (hData : ∀ d, result = .ok d → P d) :
    result.Reads P := by
  cases result with
  | ok d => exact hData d rfl
  | failed error => exact hFails error rfl
  | skipped => exact trivial

/- The data of the tools need no more than that. -/
theorem printable_combine
    {π : Type}
    {press : Press π}
    {tooling : Tooling}
    {row : FullReportRow}
    {run : ToolRun}
    (hPlain : PlainTexts press (tooling.combine row run)) :
    Printable press (tooling.combine row run) where
  floats := hPlain.floats
  url := hPlain.url
  strategy := hPlain.strategy
  generated := hPlain.generated
  pagespeed :=
    reads_of_failsReadably hPlain.pagespeed
      (wellFormed_runFullReport tooling.platform
        tooling.setting run.answers row.url).pagespeed
  gtmetrix := hPlain.gtmetrix
  accessibility :=
    reads_of_failsReadably hPlain.accessibility
      fun _ _ => trivial
  ssl := by
    apply reads_of_failsReadably hPlain.ssl
    intro c hOk
    have hRun := attempt_eq_ok hOk
    simp only [bind_eq_ok_iff] at hRun
    rcases hRun with
      ⟨hostname, -, result, -, parsed, hRead, hSame⟩
    cases hSame
    exact sslReads_readScan hRead
  links :=
    reads_of_failsReadably hPlain.links fun _ _ => trivial
  structuredData :=
    reads_of_failsReadably hPlain.structuredData
      fun _ _ => trivial
  score := hPlain.score

------------------------------------------------------------
-- The Task
------------------------------------------------------------

/- The tools of a report, with the builder of its PDF. -/
def Press.tooling
    {π : Type}
    (press : Press π)
    (platform : Platform)
    (setting : List String) : Tooling where
  platform := platform
  setting := setting
  buildReportPdf := buildReportPdf press

/- The answers of the tools and of the storage. -/
def answering
    (run : ToolRun)
    (name : String) : Statement → Option Reply
| .runTools _ _ => some (.ran run)
| .storeFile _ _ => some (.stored name)
| _ => none

/- Every story that is laid out is built. -/
def Press.Builds
    {π : Type}
    (press : Press π) : Prop :=
  ∀ story shapes, LaidOut .en story shapes →
    ∃ pdf, press.build story = .ok pdf

/- The report is completed with a file that is stored. -/
def Published
    (reportId : ReportId)
    (name : String)
    (d : Db) : Prop :=
  ∃ row pdf, d.find reportId = some row ∧
    row.status = .completed ∧ row.file = some name ∧
      (name, pdf) ∈ d.storage

/- The storage may give a file the name. -/
structure FreeName
    (name : String)
    (d : Db) : Prop where
  nonempty : name ≠ ""
  unused : name ∉ d.storage.map Prod.fst
  fits : fitsChar 100 name = true

section Deliveries

variable {π : Type} {press : Press π}
variable {row : FullReportRow} {run : ToolRun}
variable {reportId : ReportId} {name : String}
variable {t : Tid} {d : Db} {s : Store Db Empty}

/- An English report of plain texts is rendered. -/
theorem buildReportPdf_isOk
    {tooling : Tooling}
    {lang : String}
    (hLang : lang ≠ "ar")
    (hAccepts : press.Accepts)
    (hBuilds : press.Builds)
    (hCells : run.cells.Tabular)
    (hPlain : PlainTexts press (tooling.combine row run)) :
    ∃ pdf,
      FullReport.buildReportPdf press
          (tooling.combine row run) lang =
        .ok pdf := by
  have hEnglish : (press.writer lang).lang = .en :=
    if_neg hLang
  have hYields :
      Yields
        (Builds (press.writer lang) (tooling.combine row run))
        ((press.writer lang).story (tooling.combine row run))
        _ :=
    yields_story hCells
  rcases
      hYields.returns
        ⟨hEnglish, hAccepts, printable_combine hPlain⟩ with
    ⟨story, hStory, recs, -, hLayout⟩
  rw [hEnglish] at hLayout
  rcases hBuilds story _ hLayout with ⟨pdf, hPdf⟩
  refine ⟨pdf, ?_⟩
  rw [FullReport.buildReportPdf, hStory]
  exact hPdf

/- A row whose values fit is written. -/
theorem plan_saveReport
    (d : Db)
    (hCheck : row.check = .ok ()) :
    plan (.saveReport row) d =
      .done () none (putReport row) := by
  simp [plan, Verdict.writeIf, hCheck]

theorem ends_produceReport
    (started : FullReportRow)
    {platform : Platform}
    {setting : List String}
    (hAccepts : press.Accepts)
    (hBuilds : press.Builds)
    (hLang : started.lang ≠ "ar")
    (hCells : run.cells.Tabular)
    (hPlain :
      PlainTexts press
        ((press.tooling platform setting).combine started run))
    (hHostname : ∃ host, run.answers.hostname = .ok host)
    (hName : FreeName name d)
    (hCheck : started.check = .ok ())
    (hReady : s.Ready t d []) :
    (produceReport (press.tooling platform setting) started).Ends
      (backend.alone t (answering run name))
      (fun completed s' =>
        completed.status = .completed ∧
          Published started.id name s'.committed)
      (fun _ _ => False) s := by
  rcases
      buildReportPdf_isOk hLang hAccepts hBuilds hCells
        hPlain with
    ⟨pdf, hPdf⟩
  rcases hHostname with ⟨host, hHost⟩
  have hOutside :
      answering run name (.runTools started.url started.strategy) =
        some (.ran run) := rfl
  unfold produceReport
  apply Prog.ends_bind
  apply Backend.ends_reply hReady hOutside rfl
  intro s₁ hReady₁
  have hRendered :
      (press.tooling platform setting).buildReportPdf
          ((press.tooling platform setting).combine started run)
          started.lang =
        .ok pdf := hPdf
  dsimp only
  rw [hRendered, hHost]
  change
    Prog.Ends _
      (Prog.bind
        (query
          (.storeFile
            (reportUploadTo started
              (reportFilename host started.lang)) pdf)) _)
      _ _ _
  apply Prog.ends_bind
  have hStores :
      answering run name
          (.storeFile
            (reportUploadTo started
              (reportFilename host started.lang)) pdf) =
        some (.stored name) := rfl
  have hStored :
      reply
          (.storeFile
            (reportUploadTo started
              (reportFilename host started.lang)) pdf)
          (.stored name) d =
        some
          (name,
            { d with storage := d.storage ++ [(name, pdf)] }) :=
    if_pos ⟨hName.nonempty, hName.unused⟩
  apply Backend.ends_reply hReady₁ hStores hStored
  intro s₂ hReady₂
  have hFits :=
    check_completed
      ((press.tooling platform setting).combine started run)
      hCheck hName.fits
  have hSave := plan_saveReport
    { d with storage := d.storage ++ [(name, pdf)] } hFits
  apply Prog.ends_bind
  apply Backend.ends_done hReady₂ rfl hSave
  intro s₃ hReady₃
  refine ⟨rfl, ?_⟩
  rw [hReady₃.at'.committed]
  exact
    ⟨_, pdf, find_putReport_self _ _, rfl, rfl,
      List.mem_append_right _ List.mem_cons_self⟩

/-
  A delivery of an English report completes it when every
  text that is shown as it came is markup.
-/
theorem ends_runFullReportTask
    {platform : Platform}
    {setting : List String}
    (hAccepts : press.Accepts)
    (hBuilds : press.Builds)
    (hFind : d.find reportId = some row)
    (hLive : row.isDeleted = false)
    (hCheck : row.check = .ok ())
    (hLang : row.lang ≠ "ar")
    (hCells : run.cells.Tabular)
    (hPlain :
      PlainTexts press
        ((press.tooling platform setting).combine row run))
    (hHostname : ∃ host, run.answers.hostname = .ok host)
    (hName : FreeName name d)
    (hReady : s.Ready t d []) :
    (runFullReportTask (press.tooling platform setting)
        reportId).Ends
      (backend.alone t (answering run name))
      (fun outcome s' =>
        outcome = "completed" ∧
          Published reportId name s'.committed)
      (fun _ _ => False) s := by
  have hId : row.id = reportId := Table.key_of_find hFind
  have hShown :
      (d.find reportId).filter FullReportRow.isLive =
        some row := by
    rw [hFind]
    simp [Option.filter, FullReportRow.isLive, hLive]
  have hGet :
      plan (.getReport reportId) d = .done row none id := by
    simp only [plan, hShown]
    rfl
  unfold runFullReportTask
  apply Prog.ends_handle
  apply Backend.ends_done hReady rfl hGet
  intro s₁ hReady₁
  have hStarted :
      FullReportRow.check { row with status := .processing } =
        .ok () :=
    check_started hCheck
  have hSave :
      plan
          (.saveReportFields
            { row with status := .processing } [.status])
          d =
        .done () none
          (putReport { row with status := .processing }) := by
    have hRow :
        d.find { row with status := .processing }.id =
          some row := by
      rw [hId]
      exact hFind
    simp only [plan, hRow]
    exact plan_saveReport d hStarted
  unfold processReport
  apply Prog.ends_bind
  apply Backend.ends_done hReady₁ rfl hSave
  intro s₂ hReady₂
  have hFree :
      FreeName name
        (putReport { row with status := .processing } d) :=
    ⟨hName.nonempty, hName.unused, hName.fits⟩
  apply Prog.ends_handle
  apply
    Prog.ends_mono
      (ends_produceReport { row with status := .processing }
        hAccepts hBuilds hLang hCells hPlain hHostname hFree
        hStarted hReady₂)
  · rintro completed s₃ ⟨hStatus, hPublished⟩
    refine ⟨?_, hId ▸ hPublished⟩
    rw [hStatus]
    rfl
  · intro e s₃ hNone
    exact hNone.elim

end Deliveries

theorem blankPress_accepts : blankPress.Accepts :=
  fun _ _ _ => ⟨(), rfl⟩

theorem blankPress_builds : blankPress.Builds :=
  fun _ _ _ => ⟨_, rfl⟩

/- The texts of a site that cannot be reached. -/
theorem plainTexts_down :
    PlainTexts blankPress
      ((blankPress.tooling idlePlatform
        (Tool.all.map Tool.key)).combine queuedReport
          downRun) := by
  have hUnreachable : IsMarkup "unreachable" :=
    isMarkup_literal _ (by decide)
  constructor
  · exact fun _ => isMarkup_literal _ (by decide)
  · exact isMarkup_literal _ (by decide)
  · exact isMarkup_literal _ (by decide)
  · exact isMarkup_literal _ (by decide)
  · rintro error ⟨⟩
    exact hUnreachable
  · exact hUnreachable
  · rintro error ⟨⟩
    exact hUnreachable
  · rintro error ⟨⟩
    exact hUnreachable
  · rintro error ⟨⟩
    exact hUnreachable
  · rintro error ⟨⟩
    exact hUnreachable
  · exact ⟨none, rfl⟩

end SiteAnalysis.FullReport
