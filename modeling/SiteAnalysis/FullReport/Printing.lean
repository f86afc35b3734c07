import SiteAnalysis.FullReport.Stories

/-
  This file proves what the story of a report needs to be
  built, and that its shape does not depend on the language.

  Key definitions include:
    * `Printable`
    * `SameCount`

  Key theorems include:
    * `yields_story`
    * `stories_mirror_each_other`
-/

------------------------------------------------------------
-- Texts of Recommendations
------------------------------------------------------------

namespace SiteAnalysis.FullReport

open Markup
open Python
open Reports

/- What a template says around a value is text. -/
theorem isMarkup_format
    {value : String}
    (key : RecKey)
    (hValue : IsMarkup value) :
    IsMarkup ((english key).format value) := by
  cases key with
  | sslExpiry | links =>
      exact
        ((isMarkup_literal _ (by decide +kernel)).append
          hValue).append
          (isMarkup_literal _ (by decide +kernel))
  | sslGrade | sslVuln =>
      exact
        (((isMarkup_literal _ (by decide +kernel)).append
          (isMarkup_literal _ (by decide +kernel))).append
          hValue).append
          (isMarkup_literal _ (by decide +kernel))
  | sdMissing | sdRich | allGood =>
      exact
        ((isMarkup_literal _ (by decide +kernel)).append
          (isMarkup_literal _ (by decide +kernel))).append
          (isMarkup_literal _ (by decide +kernel))
  | _ =>
      exact
        ((isMarkup_literal _ (by decide +kernel)).append
          hValue).append
          ((isMarkup_literal _ (by decide +kernel)).append
            (isMarkup_literal _ (by decide +kernel)))

/- The rules return texts that are markup. -/
def Texts (m : Except PyError (List String)) : Prop :=
  Yields True m (fun recs => ∀ text ∈ recs, IsMarkup text)

section Rules

variable {repr : Json → String} {value : Json}

theorem texts_nil : Texts (.ok []) :=
  fun _ hMem => by cases hMem

theorem texts_one
    {value : String}
    (key : RecKey)
    (hValue : IsMarkup value) :
    Texts (.ok [recommendation "en" key value]) := by
  intro text hMem
  rw [List.mem_singleton.mp hMem]
  exact isMarkup_format key hValue

theorem texts_ite
    {value : String}
    (trips : Bool)
    (key : RecKey)
    (hValue : IsMarkup value) :
    Texts
      (.ok
        (if trips = true then
          [recommendation "en" key value]
        else
          [])) := by
  cases trips with
  | true => exact texts_one key hValue
  | false => exact texts_nil

/- Texts of one rule before those of others. -/
theorem Texts.then
    {m : Except PyError (List String)}
    {f : List String → Except PyError (List String)}
    (hFirst : Texts m)
    (hThen :
      ∀ recs, (∀ text ∈ recs, IsMarkup text) →
        Texts (f recs)) :
    Texts (m >>= f) :=
  yields_bind hFirst hThen

theorem texts_whenBelow
    (key : RecKey)
    (bound : Int)
    (hFloats : ∀ x, IsMarkup (repr (.float x)))
    (hMetric : IsMetric value) :
    Texts (whenBelow repr "en" key bound value) := by
  rcases hMetric with rfl | hNumber
  · exact texts_nil
  · rcases lessThan_of_isMetric bound hNumber with ⟨b, hb⟩
    have hText : IsMarkup (value.toStr repr) :=
      isMarkup_toStr hFloats (Or.inr hNumber)
    cases value with
    | null =>
        rcases hNumber with ⟨x, hx⟩
        cases hx
    | _ =>
        simp only [whenBelow, hb]
        exact texts_ite b key hText

theorem texts_whenAbove
    (key : RecKey)
    (literal : String)
    (bound : PyFloat)
    (hFloats : ∀ x, IsMarkup (repr (.float x)))
    (hMetric : IsMetric value) :
    Texts (whenAbove repr "en" key literal bound value) := by
  unfold whenAbove
  split
  · rename_i hTruthy
    rcases hMetric with rfl | hNumber
    · cases hTruthy
    · rcases exceeds_of_isMetric literal bound hNumber with
        ⟨b, hb⟩
      rw [hb]
      exact
        texts_ite b key
          (isMarkup_toStr hFloats (Or.inr hNumber))
  · exact texts_nil

theorem texts_whenPositive
    (key : RecKey)
    (n : Int) : Texts (.ok (whenPositive "en" key n)) := by
  unfold whenPositive
  split
  · exact texts_one key (isMarkup_int n)
  · exact texts_nil

theorem texts_append
    {recs recs' : List String}
    (hRecs : ∀ text ∈ recs, IsMarkup text)
    (hRecs' : ∀ text ∈ recs', IsMarkup text) :
    ∀ text ∈ recs ++ recs', IsMarkup text := by
  intro text hMem
  rcases List.mem_append.mp hMem with hOld | hNew
  · exact hRecs text hOld
  · exact hRecs' text hNew

theorem texts_accessibilityRecs
    (totals : Audits.Totals) :
    Texts (.ok (accessibilityRecs "en" totals)) :=
  texts_append
    (texts_whenPositive .a11yErrors totals.totalErrors)
    (texts_whenPositive .a11yContrast
      totals.totalContrastErrors)

theorem texts_pagespeedRecs
    {d : List (AnalysisField × Json)}
    (hFloats : ∀ x, IsMarkup (repr (.float x)))
    (hMetrics : ∀ field, IsMetric (metric d field)) :
    Texts (pagespeedRecs repr "en" d) := by
  have hPerformance :
      Texts
        (performanceRecs repr "en"
          (metric d .performanceScore)) := by
    refine
      (texts_whenBelow .perfPoor 50 hFloats
        (hMetrics _)).then ?_
    intro poor hPoor
    split
    · exact texts_whenBelow .perfMid 90 hFloats (hMetrics _)
    · exact yields_pure hPoor
  refine hPerformance.then ?_
  intro perf hPerf
  refine
    (texts_whenAbove .lcp _ _ hFloats (hMetrics _)).then ?_
  intro lcp hLcp
  refine
    (texts_whenAbove .tbt _ _ hFloats (hMetrics _)).then ?_
  intro tbt hTbt
  refine
    (texts_whenAbove .cls _ _ hFloats (hMetrics _)).then ?_
  intro cls hCls
  refine
    (texts_whenBelow .seo 90 hFloats (hMetrics _)).then ?_
  intro seo hSeo
  refine
    (texts_whenBelow .bp 90 hFloats (hMetrics _)).then ?_
  intro bp hBp
  exact
    yields_pure
      (texts_append
        (texts_append
          (texts_append
            (texts_append (texts_append hPerf hLcp) hTbt)
            hCls)
          hSeo)
        hBp)

theorem texts_sslRecs
    {c : SSLColumns}
    (hReads : SslReads c) : Texts (sslRecs "en" c) := by
  rcases hReads.vulnerabilities with ⟨items, hItems, hNames⟩
  have hGrade : Texts (.ok (gradeRecs "en" c)) := by
    unfold gradeRecs
    split
    · exact texts_one .sslGrade hReads.grade
    · exact texts_nil
  have hExpiry : Texts (.ok (expiryRecs "en" c)) := by
    unfold expiryRecs
    split
    · exact texts_nil
    · split
      · exact texts_one .sslExpiry (isMarkup_int _)
      · exact texts_nil
  have hVulns :
      Texts (.ok (vulnerabilityRecs "en" items)) := by
    unfold vulnerabilityRecs
    dsimp only
    split
    · exact texts_nil
    · exact texts_one .sslVuln (isMarkup_vulns hNames)
  unfold sslRecs
  rw [hItems]
  exact
    yields_pure
      (texts_append (texts_append hGrade hExpiry) hVulns)

theorem texts_structuredDataRecs
    (d : SchemaSummary) :
    Texts (.ok (structuredDataRecs "en" d)) := by
  have hNone : IsMarkup "" := isMarkup_literal _ (by decide)
  have hRich :
      Texts
        (.ok
          (if d.richResultEligible = 0 then
            [recommendation "en" .sdRich ""]
          else
            [])) := by
    split
    · exact texts_one .sdRich hNone
    · exact texts_nil
  unfold structuredDataRecs
  split
  · exact texts_one .sdMissing hNone
  · exact
      texts_append
        (texts_whenPositive .sdErrors d.totalErrors) hRich

/- The rules of a tool, where it ran. -/
theorem texts_recs
    {D : Type}
    {P : D → Prop}
    {rules : D → Except PyError (List String)}
    {result : ToolResult D}
    (hReads : result.Reads P)
    (hRules : ∀ d, P d → Texts (rules d)) :
    Texts (result.recs rules) := by
  cases result with
  | ok d => exact hRules d hReads
  | failed error => exact texts_nil
  | skipped => exact texts_nil

end Rules

------------------------------------------------------------
-- Printable Reports
------------------------------------------------------------

/-
  Every text of the dictionary that reaches a paragraph is
  markup, and the numbers are numbers.
-/
structure Printable
    {π : Type}
    (press : Press π)
    (result : Combined) : Prop where
  floats : ∀ x, IsMarkup (press.repr (.float x))
  url : IsMarkup result.url
  strategy : IsMarkup result.strategy
  generated : IsMarkup (press.strftime result.generatedAt)
  pagespeed :
    result.tools.pagespeed.Reads fun d =>
      ∀ field, IsMetric (metric d field)
  gtmetrix :
    result.tools.gtmetrix.Reads (GtmetrixReads press.repr)
  accessibility :
    result.tools.accessibility.Reads fun _ => True
  ssl : result.tools.ssl.Reads SslReads
  links : result.tools.links.Reads fun _ => True
  structuredData :
    result.tools.structuredData.Reads fun _ => True
  score : ∃ score, overallScore result.tools = .ok score

section Stories

variable {π : Type} {press : Press π} {result : Combined}

theorem Printable.recs
    (hPrintable : Printable press result) :
    ∃ recs,
      buildRecommendations press.repr "en" result.tools =
          .ok recs ∧
        ∀ text ∈ recs, IsMarkup text := by
  have hAll :
      Texts
        (buildRecommendations press.repr "en"
          result.tools) := by
    refine
      (texts_recs hPrintable.pagespeed fun d hMetrics =>
        texts_pagespeedRecs hPrintable.floats hMetrics).then
        ?_
    intro pagespeed hPagespeed
    refine
      (texts_recs hPrintable.accessibility fun d _ =>
        texts_accessibilityRecs d).then ?_
    intro wave hWave
    refine
      (texts_recs hPrintable.ssl fun c hReads =>
        texts_sslRecs hReads).then ?_
    intro ssl hSsl
    refine
      (texts_recs hPrintable.links fun d _ =>
        texts_whenPositive .links d.broken).then ?_
    intro links hLinks
    refine
      (texts_recs hPrintable.structuredData fun d _ =>
        texts_structuredDataRecs d).then ?_
    intro sd hSd
    refine yields_pure ?_
    split
    · exact
        texts_one .allGood (isMarkup_literal _ (by decide))
    · exact
        texts_append
          (texts_append
            (texts_append (texts_append hPagespeed hWave)
              hSsl)
            hLinks)
          hSd
  exact hAll.returns trivial

/-
  Where a report is in English, markup is accepted and every
  text of the report is markup, its story is built.
-/
structure Builds
    (w : Writer π)
    (result : Combined) : Prop where
  english : w.lang = .en
  accepts : w.press.Accepts
  printable : Printable w.press result

variable {w : Writer π}

theorem legible_builds : Legible (Builds w result) w where
  english := Builds.english
  accepts := Builds.accepts

theorem yields_preamble
    (result : Combined) :
    Yields (Builds w result) (w.preamble result)
      (fun pages =>
        LaidOut w.lang pages
          [.table 2 [174], .spacer 5, .paragraph, .paragraph,
            .paragraph, .spacer 4]) := by
  have hLine :
      ∀ key text style,
        (Builds w result → IsMarkup text) →
          Yields (Builds w result)
            (w.p ("<b>" ++ w.tr key ++ ":</b>  " ++ text) style)
            (fun _ => True) := by
    intro key text style hText
    refine yields_p legible_builds style fun hBuilds => ?_
    have hKey := legible_builds.isMarkup_tr key hBuilds
    have hColon : IsMarkup ":" :=
      isMarkup_literal _ (by decide)
    have hGap : IsMarkup "  " :=
      isMarkup_literal _ (by decide)
    have hBold :=
      isMarkup_bold (hKey.append hColon)
        (hGap.append (hText hBuilds))
    have hSame :
        "<b>" ++ (w.tr key ++ ":") ++ "</b>" ++
            ("  " ++ text) =
          "<b>" ++ w.tr key ++ ":</b>  " ++ text := by
      simp only [← String.toList_inj, String.toList_append,
        List.append_assoc]
      rfl
    rwa [hSame] at hBold
  refine yields_bind (yields_banner legible_builds) ?_
  intro banner hBanner
  refine
    yields_bind
      (hLine .url _ _ fun hBuilds =>
        hBuilds.printable.url) ?_
  intro url _
  refine
    yields_bind
      (hLine .strategy _ _ fun hBuilds =>
        hBuilds.printable.strategy) ?_
  intro strategy _
  refine
    yields_bind
      (hLine .generated _ _ fun hBuilds =>
        hBuilds.printable.generated) ?_
  intro generated _
  exact
    yields_pure
      ((((((laidOut_nil.spacer 4).paragraph
        generated).paragraph strategy).paragraph url).spacer
        5).cons hBanner)

theorem yields_recommendationPages
    (result : Combined) :
    Yields (Builds w result)
      (w.recommendationPages result.tools)
      (fun pages =>
        ∃ recs,
          buildRecommendations w.press.repr w.lang.code
              result.tools =
            .ok recs ∧
          LaidOut w.lang pages
            [.table 1 [174], .paragraph, .spacer 2,
              .table recs.length [174]]) := by
  refine
    yields_bind
      (yields_sectionTitle legible_builds 7 .recTitle) ?_
  intro head hHead
  refine
    yields_bind
      (yields_p legible_builds _ fun hBuilds => ?_) ?_
  · rw [hBuilds.english]
    exact
      (isMarkup_literal _ (by decide +kernel)).append
        (isMarkup_literal _ (by decide +kernel))
  intro intro' _
  refine
    yields_bind
      (yields_known
        (P := fun recs => ∀ text ∈ recs, IsMarkup text)
        fun hBuilds => ?_) ?_
  · rw [hBuilds.english]
    exact hBuilds.printable.recs
  rintro recs ⟨hRecs, hTexts⟩
  have hRows :
      Yields (Builds w result)
        ((recs.zipIdx 1).mapM w.recommendationRow)
        (fun rows =>
          rows.length = (recs.zipIdx 1).length ∧
            ∀ row ∈ rows, row.length = 1) := by
    apply yields_mapM
    intro item hMem
    refine
      yields_bind
        (yields_p legible_builds _ fun hBuilds =>
          ((isMarkup_nat item.2).append
            (isMarkup_literal _ (by decide))).append
            (hTexts hBuilds item.1
              (List.fst_mem_of_mem_zipIdx hMem))) ?_
    intro para _
    exact yields_pure rfl
  refine yields_bind hRows ?_
  rintro rows ⟨hLength, hCells⟩
  refine yields_pure ⟨recs, hRecs, ?_⟩
  have hCount : rows.length = recs.length := by
    rw [hLength, List.length_zipIdx]
  rw [← hCount]
  exact
    (((laidOut_nil.cons (fits_column hCells)).spacer
      2).paragraph intro').cons hHead

theorem yields_closing
    (result : Combined) :
    Yields (Builds w result) (w.closing result.tools)
      (fun pages =>
        LaidOut w.lang pages
          [.spacer 8, .table 3 [174]]) := by
  refine
    yields_bind
      (yields_known (C := Builds w result)
        (P := fun _ => True) fun hBuilds => ?_) ?_
  · rcases hBuilds.printable.score with ⟨score, hScore⟩
    exact ⟨score, hScore, trivial⟩
  · rintro score -
    refine
      yields_bind (yields_summaryBox legible_builds score) ?_
    intro box hBox
    exact yields_pure ((laidOut_nil.cons hBox).spacer 8)

/-
  The story has the layout of its report, and it is built
  where the report is printable.
-/
theorem yields_story
    (hCells : result.cells.Tabular) :
    Yields (Builds w result) (w.story result)
      (fun story =>
        ∃ recs,
          buildRecommendations w.press.repr w.lang.code
              result.tools =
            .ok recs ∧
          LaidOut w.lang story
            (layout recs.length result)) := by
  have hLegible : Legible (Builds w result) w :=
    legible_builds
  refine yields_bind (yields_preamble result) ?_
  intro top hTop
  refine
    yields_bind
      (yields_toolSection hLegible 1 .psTitle
        (fun h => h.printable.pagespeed)
        (fun d hMetrics =>
          yields_pagespeedPages hLegible
            (fun h => h.printable.floats) hMetrics)) ?_
  intro pagespeed hPagespeed
  refine
    yields_bind
      (yields_toolSection hLegible 2 .gtmTitle
        (fun h => h.printable.gtmetrix)
        (fun d hReads =>
          yields_gtmetrixPages hLegible hReads)) ?_
  intro gtmetrix hGtmetrix
  refine
    yields_bind
      (yields_toolSection hLegible 3 .waveTitle
        (fun h => h.printable.accessibility)
        (fun d _ =>
          yields_wavePages d hLegible hCells.topIssues)) ?_
  intro wave hWave
  refine
    yields_bind
      (yields_toolSection hLegible 4 .sslTitle
        (fun h => h.printable.ssl)
        (fun c hReads => yields_sslPages hLegible hReads)) ?_
  intro ssl hSsl
  refine
    yields_bind
      (yields_toolSection hLegible 5 .linksTitle
        (fun h => h.printable.links)
        (fun d _ =>
          yields_linksPages d hLegible
            hCells.brokenLinks)) ?_
  intro links hLinks
  refine
    yields_bind
      (yields_toolSection hLegible 6 .sdTitle
        (fun h => h.printable.structuredData)
        (fun d _ =>
          yields_schemaPages d hLegible hCells.schemas
            hCells.issues)) ?_
  intro sd hSd
  refine yields_bind (yields_recommendationPages result) ?_
  rintro recs ⟨items, hItems, hRecs⟩
  refine yields_bind (yields_closing result) ?_
  intro bottom hBottom
  refine yields_pure ⟨items, hItems, ?_⟩
  have hAll :=
    (((((((hTop.append hPagespeed).append hGtmetrix).append
      hWave).append hSsl).append hLinks).append hSd).append
      hRecs).append hBottom
  simpa only [layout, toolShapes, List.append_assoc,
    List.cons_append, List.nil_append] using hAll

end Stories

------------------------------------------------------------
-- Both Languages
------------------------------------------------------------

/- As many texts, or the same exception. -/
def SameCount (m m' : Except PyError (List String)) : Prop :=
  m.map List.length = m'.map List.length

section Counts

variable {repr : Json → String} {lang lang' : String}

theorem isEmpty_of_length
    {recs recs' : List String}
    (hLength : recs.length = recs'.length) :
    recs.isEmpty = recs'.isEmpty := by
  cases recs with
  | nil => cases recs' <;> simp_all
  | cons rec rest => cases recs' <;> simp_all

theorem sameCount_ok
    {recs recs' : List String}
    (hLength : recs.length = recs'.length) :
    SameCount (.ok recs) (.ok recs') :=
  congrArg Except.ok hLength

theorem SameCount.then
    {m m' : Except PyError (List String)}
    {f f' : List String → Except PyError (List String)}
    (hFirst : SameCount m m')
    (hThen :
      ∀ recs recs', recs.length = recs'.length →
        SameCount (f recs) (f' recs')) :
    SameCount (m >>= f) (m' >>= f') := by
  cases m with
  | error e =>
      cases m' with
      | error e' =>
          cases hFirst
          rfl
      | ok recs' => cases hFirst
  | ok recs =>
      cases m' with
      | error e' => cases hFirst
      | ok recs' => exact hThen recs recs' (Except.ok.inj hFirst)

theorem sameCount_whenBelow
    (key : RecKey)
    (bound : Int)
    (value : Json) :
    SameCount (whenBelow repr lang key bound value)
      (whenBelow repr lang' key bound value) := by
  cases value with
  | null => rfl
  | _ =>
      simp only [whenBelow]
      generalize Json.lessThan bound _ = below
      cases below with
      | error e => rfl
      | ok b => cases b <;> rfl

theorem sameCount_whenAbove
    (key : RecKey)
    (literal : String)
    (bound : PyFloat)
    (value : Json) :
    SameCount (whenAbove repr lang key literal bound value)
      (whenAbove repr lang' key literal bound value) := by
  unfold whenAbove
  split
  · cases value.exceeds literal bound with
    | error e => rfl
    | ok b => cases b <;> rfl
  · rfl

theorem length_whenPositive
    (lang lang' : String)
    (key : RecKey)
    (n : Int) :
    (whenPositive lang key n).length =
      (whenPositive lang' key n).length := by
  unfold whenPositive
  split <;> rfl

theorem length_accessibilityRecs
    (totals : Audits.Totals) :
    (accessibilityRecs lang totals).length =
      (accessibilityRecs lang' totals).length := by
  have hErrors :=
    length_whenPositive lang lang' .a11yErrors
      totals.totalErrors
  have hContrast :=
    length_whenPositive lang lang' .a11yContrast
      totals.totalContrastErrors
  simp only [accessibilityRecs, List.length_append, hErrors,
    hContrast]

theorem sameCount_pagespeedRecs
    (d : List (AnalysisField × Json)) :
    SameCount (pagespeedRecs repr lang d)
      (pagespeedRecs repr lang' d) := by
  have hPerformance :
      SameCount
        (performanceRecs repr lang
          (metric d .performanceScore))
        (performanceRecs repr lang'
          (metric d .performanceScore)) := by
    refine (sameCount_whenBelow .perfPoor 50 _).then ?_
    intro poor poor' hLength
    rw [isEmpty_of_length hLength]
    split
    · exact sameCount_whenBelow .perfMid 90 _
    · exact sameCount_ok hLength
  refine hPerformance.then ?_
  intro perf perf' hPerf
  refine (sameCount_whenAbove .lcp _ _ _).then ?_
  intro lcp lcp' hLcp
  refine (sameCount_whenAbove .tbt _ _ _).then ?_
  intro tbt tbt' hTbt
  refine (sameCount_whenAbove .cls _ _ _).then ?_
  intro cls cls' hCls
  refine (sameCount_whenBelow .seo 90 _).then ?_
  intro seo seo' hSeo
  refine (sameCount_whenBelow .bp 90 _).then ?_
  intro bp bp' hBp
  apply sameCount_ok
  simp only [List.length_append]
  omega

theorem sameCount_sslRecs
    (c : SSLColumns) :
    SameCount (sslRecs lang c) (sslRecs lang' c) := by
  have hGrade :
      (gradeRecs lang c).length =
        (gradeRecs lang' c).length := by
    unfold gradeRecs
    split <;> rfl
  have hExpiry :
      (expiryRecs lang c).length =
        (expiryRecs lang' c).length := by
    unfold expiryRecs
    split
    · rfl
    · split <;> rfl
  unfold sslRecs
  cases vulnerabilityItems c with
  | error e => rfl
  | ok items =>
      have hVulns :
          (vulnerabilityRecs lang items).length =
            (vulnerabilityRecs lang' items).length := by
        unfold vulnerabilityRecs
        dsimp only
        split <;> rfl
      apply sameCount_ok
      simp only [List.length_append]
      omega

theorem length_structuredDataRecs
    (d : SchemaSummary) :
    (structuredDataRecs lang d).length =
      (structuredDataRecs lang' d).length := by
  have hErrors :=
    length_whenPositive lang lang' .sdErrors d.totalErrors
  unfold structuredDataRecs
  split
  · rfl
  · split <;> simp [hErrors]

theorem sameCount_recs
    {D : Type}
    {rules rules' : D → Except PyError (List String)}
    (result : ToolResult D)
    (hRules : ∀ d, SameCount (rules d) (rules' d)) :
    SameCount (result.recs rules) (result.recs rules') := by
  cases result with
  | ok d => exact hRules d
  | failed error => rfl
  | skipped => rfl

/- A report gets as many recommendations in any language. -/
theorem sameCount_buildRecommendations
    (repr : Json → String)
    (lang lang' : String)
    (report : Report) :
    SameCount (buildRecommendations repr lang report)
      (buildRecommendations repr lang' report) := by
  refine
    (sameCount_recs report.pagespeed
      sameCount_pagespeedRecs).then ?_
  intro pagespeed pagespeed' hPagespeed
  refine
    (sameCount_recs report.accessibility fun d =>
      sameCount_ok (length_accessibilityRecs d)).then ?_
  intro wave wave' hWave
  refine
    (sameCount_recs report.ssl sameCount_sslRecs).then ?_
  intro ssl ssl' hSsl
  refine
    (sameCount_recs report.links fun d =>
      sameCount_ok (length_whenPositive _ _ .links _)).then ?_
  intro links links' hLinks
  refine
    (sameCount_recs report.structuredData fun d =>
      sameCount_ok (length_structuredDataRecs d)).then ?_
  intro sd sd' hSd
  have hAll :
      (pagespeed ++ wave ++ ssl ++ links ++ sd).length =
        (pagespeed' ++ wave' ++ ssl' ++ links' ++
          sd').length := by
    simp only [List.length_append]
    omega
  apply sameCount_ok
  rw [isEmpty_of_length hAll]
  split
  · rfl
  · exact hAll

end Counts

/- The packages, with paragraphs that keep nothing. -/
def blankPress : Press Unit where
  arabicFont := "Helvetica"
  shape := fun text => text
  repr := fun _ => "0.0"
  strftime := fun _ => "1970-01-01 00:00 UTC"
  paragraph := fun _ _ => .ok ()
  build := fun _ => .ok [37, 80, 68, 70]

/- The dictionary of a site that cannot be reached. -/
def downResult : Combined where
  url := "https://example.com/"
  strategy := "mobile"
  generatedAt := 0
  tools :=
    runFullReport idlePlatform (Tool.all.map Tool.key)
      downAnswers "https://example.com/"
  cells :=
    { topIssues := []
      brokenLinks := []
      schemas := []
      issues := [] }

theorem tabular_empty :
    Cells.Tabular ⟨[], [], [], []⟩ where
  topIssues := fun _ hMem => by cases hMem
  brokenLinks := fun _ hMem => by cases hMem
  schemas := fun _ hMem => by cases hMem
  issues := fun _ hMem => by cases hMem

end SiteAnalysis.FullReport
