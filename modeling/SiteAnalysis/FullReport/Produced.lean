import SiteAnalysis.FullReport.Scores

/-
  This file proves what holds of the data in every report
  that `run_full_report` produces: the metrics of PageSpeed
  are numbers, the grade of a scan reflects its certificate,
  and objects without errors are valid.

  Key definitions include:
    * `WellFormed`

  Key theorems include:
    * `metric_of_parsePagespeed`
    * `readScan_grade`
    * `quickSchemaCheck_valid`
    * `wellFormed_runFullReport`
-/

------------------------------------------------------------
-- PageSpeed
------------------------------------------------------------

namespace SiteAnalysis.FullReport

open Python
open Reports

/- `None` or a number. -/
def IsMetric (value : Json) : Prop :=
  value = .null ∨ ∃ x, value.number? = some x

theorem isMetric_roundTo
    {digits : Nat}
    {value rounded : Json}
    (hRound : value.roundTo digits = .ok rounded) :
    IsMetric rounded := by
  right
  cases value with
  | bool b =>
      cases hRound
      exact ⟨_, rfl⟩
  | int n =>
      cases hRound
      exact ⟨_, rfl⟩
  | float x =>
      cases x with
      | finite q =>
          cases hRound
          exact ⟨_, rfl⟩
      | posInf =>
          cases hRound
          exact ⟨_, rfl⟩
      | negInf =>
          cases hRound
          exact ⟨_, rfl⟩
      | nan =>
          cases hRound
          exact ⟨_, rfl⟩
  | null => cases hRound
  | str s => cases hRound
  | arr items => cases hRound
  | obj fields => cases hRound

theorem isMetric_convert
    {value converted : Json}
    {unit : Analysis.MetricUnit}
    (hConvert : Analysis.convert value unit = .ok converted) :
    IsMetric converted := by
  unfold Analysis.convert at hConvert
  split at hConvert
  · cases hConvert
    exact Or.inl rfl
  · rcases (bind_eq_ok_iff _ _ _).mp hConvert with
      ⟨seconds, -, hRound⟩
    exact isMetric_roundTo hRound
  · exact isMetric_roundTo hConvert
  · exact isMetric_roundTo hConvert

theorem isMetric_percent
    {value score : Json}
    (hPercent : value.percent = .ok score) :
    IsMetric score := by
  right
  cases value with
  | bool b =>
      cases hPercent
      exact ⟨_, rfl⟩
  | int n =>
      cases hPercent
      exact ⟨_, rfl⟩
  | float x =>
      simp only [Json.percent] at hPercent
      cases hRound : Json.roundFloat (Json.scale 100 x) with
      | error e =>
          rw [hRound] at hPercent
          cases hPercent
      | ok n =>
          rw [hRound] at hPercent
          cases hPercent
          exact ⟨_, rfl⟩
  | null => cases hPercent
  | str s => cases hPercent
  | arr items => cases hPercent
  | obj fields => cases hPercent

theorem isMetric_parseCategory
    {categories value : Json}
    {key : String}
    (hParse :
      Analysis.parseCategory categories key = .ok value) :
    IsMetric value := by
  simp only [Analysis.parseCategory, bind_eq_ok_iff]
    at hParse
  rcases hParse with ⟨category, -, score, -, hScore⟩
  split at hScore
  · exact isMetric_percent hScore
  · cases hScore
    exact Or.inl rfl

theorem isMetric_parseAudit
    {audits value : Json}
    {key : String}
    {unit : Analysis.MetricUnit}
    (hParse :
      Analysis.parseAudit audits key unit = .ok value) :
    IsMetric value := by
  simp only [Analysis.parseAudit, bind_eq_ok_iff] at hParse
  rcases hParse with ⟨audit, -, numeric, -, hConvert⟩
  exact isMetric_convert hConvert

theorem isMetric_parseCategories
    {categories : Json}
    {entries : List (String × AnalysisField)}
    {values : List (AnalysisField × Json)}
    (hParse :
      Analysis.parseCategories categories entries =
        .ok values) :
    ∀ entry ∈ values, IsMetric entry.2 := by
  induction entries generalizing values with
  | nil =>
      cases hParse
      intro entry hMem
      cases hMem
  | cons entry entries ih =>
      simp only [Analysis.parseCategories, bind_eq_ok_iff]
        at hParse
      rcases hParse with ⟨value, hValue, rest, hRest, hSame⟩
      cases hSame
      intro other hMem
      rcases List.mem_cons.mp hMem with hFirst | hLater
      · rw [hFirst]
        exact isMetric_parseCategory hValue
      · exact ih hRest other hLater

theorem isMetric_parseAudits
    {audits : Json}
    {entries :
      List (String × AnalysisField × Analysis.MetricUnit)}
    {values : List (AnalysisField × Json)}
    (hParse :
      Analysis.parseAudits audits entries = .ok values) :
    ∀ entry ∈ values, IsMetric entry.2 := by
  induction entries generalizing values with
  | nil =>
      cases hParse
      intro entry hMem
      cases hMem
  | cons entry entries ih =>
      simp only [Analysis.parseAudits, bind_eq_ok_iff]
        at hParse
      rcases hParse with ⟨value, hValue, rest, hRest, hSame⟩
      cases hSame
      intro other hMem
      rcases List.mem_cons.mp hMem with hFirst | hLater
      · rw [hFirst]
        exact isMetric_parseAudit hValue
      · exact ih hRest other hLater

theorem isMetric_metric
    {F : Type}
    [DecidableEq F]
    {d : List (F × Json)}
    (hAll : ∀ entry ∈ d, IsMetric entry.2)
    (field : F) : IsMetric (metric d field) := by
  unfold metric
  cases hFound : d.lookup field with
  | none => exact Or.inl rfl
  | some value =>
      rcases List.lookup_eq_some_iff.mp hFound with
        ⟨before, after, hSplit, -⟩
      apply hAll (field, value)
      rw [hSplit]
      exact List.mem_append_right _ List.mem_cons_self

/- The fields of a parsed payload are `None` or numbers. -/
theorem metric_of_parsePagespeed
    {raw : Json}
    {d : List (AnalysisField × Json)}
    (hParse : Analysis.parsePagespeed raw = .ok d)
    (field : AnalysisField) : IsMetric (metric d field) := by
  simp only [Analysis.parsePagespeed, bind_eq_ok_iff]
    at hParse
  rcases hParse with
    ⟨lighthouse, -, categories, -, audits, -, scores, hScores,
      timings, hTimings, hSame⟩
  cases hSame
  apply isMetric_metric
  intro entry hMem
  rcases List.mem_append.mp hMem with hScore | hTiming
  · exact isMetric_parseCategories hScores entry hScore
  · exact isMetric_parseAudits hTimings entry hTiming

------------------------------------------------------------
-- Scans
------------------------------------------------------------

/- What the grade of a scan tells. -/
structure Graded (c : SSLColumns) : Prop where
  grade : gradeOf c ∈ ["A+", "A", "B", "F", "T"]
  untrusted :
    c.certIsTrusted = some false → gradeOf c ∈ ["F", "T"]
  items : ∃ entries, c.vulnerabilities = .obj entries

theorem synthesiseGrade_mem
    (protocols : List Ssl.Protocol)
    (vulnerabilities : Ssl.Vulnerabilities)
    (expiresInDays : Option Int)
    (isTrusted : Option Bool) :
    Ssl.synthesiseGrade protocols vulnerabilities
        expiresInDays isTrusted ∈
      ["A+", "A", "B", "F", "T"] := by
  unfold Ssl.synthesiseGrade
  dsimp only
  split
  · simp
  · split
    · simp
    · split
      · simp
      · split
        · simp
        · split
          · simp
          · simp

/- An untrusted certificate is graded `F` or `T`. -/
theorem synthesiseGrade_untrusted
    (protocols : List Ssl.Protocol)
    (vulnerabilities : Ssl.Vulnerabilities)
    (expiresInDays : Option Int) :
    Ssl.synthesiseGrade protocols vulnerabilities
        expiresInDays (some false) ∈ ["F", "T"] := by
  unfold Ssl.synthesiseGrade
  dsimp only
  split
  · simp
  · simp

/- The grades are in upper case. -/
theorem upper_grade
    {grade : String}
    (hGrade : grade ∈ ["A+", "A", "B", "F", "T"]) :
    String.ofList (grade.toList.map Char.toUpper) = grade := by
  have hAll :
      ∀ g ∈ ["A+", "A", "B", "F", "T"],
        String.ofList (g.toList.map Char.toUpper) = g := by
    decide
  exact hAll grade hGrade

theorem readScan_grade
    {isoformat : Time → String}
    {now : Time}
    {host : String}
    {port : Nat}
    {result : Option Ssl.ServerScanResult}
    {parsed : Ssl.ParsedScan}
    (hRead :
      Ssl.readScan isoformat now host port result =
        .ok parsed) :
    Graded parsed.columns := by
  cases result with
  | none => cases hRead
  | some server =>
      simp only [Ssl.readScan] at hRead
      split at hRead
      · have hParse := fromPython_eq_ok.mp hRead
        rcases (bind_eq_ok_iff _ _ _).mp hParse with
          ⟨leaf, -, hSame⟩
        cases hSame
        have hGrade :=
          synthesiseGrade_mem
            (Ssl.acceptedProtocols server.result)
            (Ssl.vulnerabilitiesOf server.result)
            leaf.expiresInDays leaf.isTrusted
        constructor
        · rw [gradeOf, upper_grade hGrade]
          exact hGrade
        · intro hUntrusted
          have hLeaf : leaf.isTrusted = some false := hUntrusted
          rw [gradeOf, upper_grade hGrade, hLeaf]
          exact synthesiseGrade_untrusted _ _ _
        · exact ⟨_, rfl⟩
      · cases hRead

------------------------------------------------------------
-- Structured Data
------------------------------------------------------------

/- An object without an error is valid. -/
theorem isValid_of_no_error
    {repr : Json → String}
    {schemaType : Option String}
    {data : Validator.Fields}
    (hNone :
      countIssues .error
        (Validator.validateSchema repr schemaType data) = 0) :
    (Validator.validateSchema repr schemaType data).isValid =
      true := by
  have hIssues :
      ∀ issue ∈
        (Validator.validateSchema repr schemaType data).issues,
        issue.severity ≠ .error := by
    intro issue hMem hError
    have hFiltered :
        issue ∈
          (Validator.validateSchema repr schemaType
            data).issues.filter
            (fun i => i.severity = .error) :=
      List.mem_filter.mpr ⟨hMem, decide_eq_true hError⟩
    rw [List.length_eq_zero_iff.mp hNone] at hFiltered
    cases hFiltered
  revert hIssues
  unfold Validator.validateSchema
  split
  · intro hIssues
    exact absurd rfl (hIssues _ List.mem_cons_self)
  · dsimp only
    split
    · intro hIssues
      exact absurd rfl (hIssues _ List.mem_cons_self)
    · split
      · intro hIssues
        rfl
      · intro hIssues
        apply List.all_eq_true.mpr
        intro issue hMem
        exact decide_eq_true (hIssues issue hMem)

/- The counters of the loop, over the results that follow. -/
theorem foldl_add_valid
    {results : List Validator.SchemaResult}
    (counts : SchemaCounts)
    (hValid :
      ∀ r ∈ results, countIssues .error r = 0 →
        r.isValid = true) :
    counts.errors ≤
        (results.foldl SchemaCounts.add counts).errors ∧
      ((results.foldl SchemaCounts.add counts).errors =
          counts.errors →
        (results.foldl SchemaCounts.add counts).valid =
          counts.valid + results.length) := by
  induction results generalizing counts with
  | nil => exact ⟨Nat.le_refl _, fun _ => rfl⟩
  | cons r results ih =>
      have hRest :=
        ih (counts.add r)
          (fun r' hMem =>
            hValid r' (List.mem_cons_of_mem _ hMem))
      have hErrors :
          (counts.add r).errors =
            counts.errors + countIssues .error r := rfl
      rw [List.foldl_cons]
      constructor
      · omega
      · intro hSame
        have hFirst := hValid r List.mem_cons_self (by omega)
        have hCount :
            (counts.add r).valid = counts.valid + 1 :=
          if_pos hFirst
        rw [hRest.2 (by omega), hCount, List.length_cons]
        omega

theorem quickSchemaCheck_valid
    {platform : Validator.Platform}
    {client : String → Validator.PageOutcome}
    {url : String}
    {d : SchemaSummary}
    (hCheck : quickSchemaCheck platform client url = .ok d)
    (hNone : d.totalErrors = 0) :
    d.validSchemas = d.totalSchemas := by
  simp only [quickSchemaCheck, bind_eq_ok_iff] at hCheck
  rcases hCheck with ⟨html, -, objects, -, hSame⟩
  cases hSame
  have hValid :
      ∀ r ∈
        objects.map
          (fun object =>
            Validator.validateObject platform object.2),
        countIssues .error r = 0 → r.isValid = true := by
    intro r hMem hZero
    rcases List.mem_map.mp hMem with ⟨object, -, rfl⟩
    exact isValid_of_no_error hZero
  have hCounts := (foldl_add_valid .zero hValid).2 hNone
  rw [List.length_map] at hCounts
  simpa [SchemaCounts.zero] using hCounts

------------------------------------------------------------
-- Reports
------------------------------------------------------------

/- What the data of a produced report satisfies. -/
structure WellFormed (report : Report) : Prop where
  pagespeed :
    ∀ d, report.pagespeed = .ok d →
      ∀ field, IsMetric (metric d field)
  ssl : ∀ c, report.ssl = .ok c → Graded c
  structuredData :
    ∀ d, report.structuredData = .ok d →
      d.totalErrors = 0 → d.validSchemas = d.totalSchemas

theorem attempt_eq_ok
    {D : Type}
    {active : List Tool}
    {tool : Tool}
    {r : Except Exc D}
    {d : D}
    (hResult : resultOf active tool (attempt r) = .ok d) :
    r = .ok d := by
  unfold resultOf at hResult
  split at hResult
  · cases r with
    | ok d' =>
        cases hResult
        rfl
    | error e => cases hResult
  · cases hResult

theorem wellFormed_runFullReport
    (platform : Platform)
    (setting : List String)
    (answers : Answers)
    (url : String) :
    WellFormed
      (runFullReport platform setting answers url) := by
  constructor
  · intro d hOk
    rcases (bind_eq_ok_iff _ _ _).mp (attempt_eq_ok hOk) with
      ⟨raw, -, hParse⟩
    exact
      metric_of_parsePagespeed
        (fromPython_eq_ok.mp hParse)
  · intro c hOk
    have hRun := attempt_eq_ok hOk
    simp only [bind_eq_ok_iff] at hRun
    rcases hRun with ⟨hostname, -, result, -, parsed, hRead,
      hSame⟩
    cases hSame
    exact readScan_grade hRead
  · intro d hOk
    exact quickSchemaCheck_valid (attempt_eq_ok hOk)

end SiteAnalysis.FullReport
