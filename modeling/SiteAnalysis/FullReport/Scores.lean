import SiteAnalysis.FullReport.Recommendations

/-
  This file defines the overall rating of a full report: the
  data of each tool that ran is turned into a score, and the
  scores are averaged.

  Key definitions include:
    * `meanScore`
    * `clamp`
    * `subScores`
    * `overallScore`
    * `passThreshold`

  Key theorems include:
    * `overallScore_passes_iff`
-/

------------------------------------------------------------
-- Scores of Tools
------------------------------------------------------------

namespace SiteAnalysis.FullReport

open Python
open Reports

/- `_mean_score` -/
def meanScore
    (values : List Json) : Except PyError (Option Int) :=
  roundedMean (values.filter Json.isNumber)

/- `_clamp`, after `round`. -/
def clamp (value : Int) : Int :=
  max 0 (min 100 value)

/- `_pagespeed_score` -/
def pagespeedScore
    (d : List (AnalysisField × Json)) :
    Except PyError (Option Int) :=
  meanScore
    [metric d .performanceScore,
      metric d .accessibilityScore,
      metric d .bestPracticesScore, metric d .seoScore]

/- `_gtmetrix_score` -/
def gtmetrixScore
    (d : List (GTmetrixField × Json)) :
    Except PyError (Option Int) :=
  meanScore
    [metric d .performanceScore, metric d .structureScore]

/- `_accessibility_score` -/
def accessibilityScore (totals : Audits.Totals) : Int :=
  clamp
    (100 - 3 * totals.totalErrors -
      2 * totals.totalContrastErrors)

/- `_SSL_GRADE_SCORE` -/
def sslGradeScore : List (String × Int) :=
  [("A+", 100), ("A", 95), ("B", 80), ("C", 65), ("D", 50),
    ("F", 30), ("T", 30)]

/- `_ssl_score` -/
def sslScore
    (c : SSLColumns) : Except PyError (Option Int) :=
  match sslGradeScore.lookup (gradeOf c) with
  | none => .ok none
  | some base => do
      let items ← vulnerabilityItems c
      let trusted :=
        if c.certIsTrusted = some false then
          min base 40
        else
          base
      pure
        (some
          (if items.any (fun item => item.2.truthy) then
            min trusted 40
          else
            trusted))

/- `_links_score` -/
def linksScore
    (d : LinkSummary) : Except PyError (Option Int) :=
  if d.totalLinks = 0 then
    .ok none
  else do
    let quotient ←
      (Json.int (100 * ((d.totalLinks : Int) - d.broken))
        ).divideCount d.totalLinks
    let rounded ← Json.roundFloat quotient
    pure (some (clamp rounded))

/- `_structured_data_score` -/
def structuredDataScore
    (d : SchemaSummary) : Except PyError (Option Int) :=
  if d.totalSchemas = 0 then
    .ok none
  else do
    let quotient ←
      (Json.int (100 * d.validSchemas)).divideCount
        d.totalSchemas
    let penalty ← (Json.int (-(5 * d.totalErrors))).toFloat
    let rounded ← Json.roundFloat (quotient.add penalty)
    pure (some (clamp rounded))

------------------------------------------------------------
-- The Overall Score
------------------------------------------------------------

/- The score of a tool, where its status is `ok`. -/
def ToolResult.subScore
    {D : Type}
    (scorer : D → Except PyError (Option Int)) :
    ToolResult D → Except PyError (List Int)
| .ok data => (scorer data).map Option.toList
| _ => .ok []

/- The loop over `_TOOL_SCORERS`. -/
def subScores
    (report : Report) : Except PyError (List Int) := do
  let pagespeed ← report.pagespeed.subScore pagespeedScore
  let gtmetrix ← report.gtmetrix.subScore gtmetrixScore
  let accessibility ←
    report.accessibility.subScore
      (fun d => .ok (some (accessibilityScore d)))
  let ssl ← report.ssl.subScore sslScore
  let links ← report.links.subScore linksScore
  let structuredData ←
    report.structuredData.subScore structuredDataScore
  pure
    (pagespeed ++ gtmetrix ++ accessibility ++ ssl ++ links ++
      structuredData)

/- `_overall_score` -/
def overallScore
    (report : Report) : Except PyError (Option Int) := do
  let subs ← subScores report
  roundedMean (subs.map Json.int)

/- `PASS_THRESHOLD` -/
def passThreshold : Int := 70

------------------------------------------------------------
-- Passing Scores
------------------------------------------------------------

/- The scores of six tools at most, averaged. -/
def Passes (subs : List Int) : Prop :=
  subs ≠ [] ∧ 139 * (subs.length : Int) ≤ 2 * subs.sum

theorem represented_pass :
    Represented (-1) (139 / 2) where
  positive := by norm_num
  small := by norm_num
  exponent := by norm_num
  multiple := ⟨139, by norm_num⟩

theorem represented_fail :
    Represented (-6) (4443 / 64) where
  positive := by norm_num
  small := by norm_num
  exponent := by norm_num
  multiple := ⟨4443, by norm_num⟩

/- The mean is rounded to a passing score. -/
theorem passing_mean_iff
    {subs : List Int}
    {r : Rat}
    (hNonempty : subs ≠ [])
    (hFew : subs.length ≤ 6)
    (hDouble :
      toDouble ((subs.sum : Rat) / subs.length) =
        .finite r) :
    passThreshold ≤ roundHalfEven r ↔
      139 * (subs.length : Int) ≤ 2 * subs.sum := by
  have hLength : (0 : Rat) < subs.length := by
    exact_mod_cast List.length_pos_of_ne_nil hNonempty
  have hEven : passThreshold % 2 = 0 := by decide
  have hHalf :
      (passThreshold : Rat) - 1 / 2 = 139 / 2 := by
    norm_num [passThreshold]
  rw [le_roundHalfEven_iff hEven, hHalf]
  constructor
  · intro hReached
    by_contra hLess
    have hSum : 2 * subs.sum + 1 ≤ 139 * subs.length := by
      omega
    have hCast :
        2 * (subs.sum : Rat) + 1 ≤ 139 * subs.length := by
      exact_mod_cast hSum
    have hSix : (subs.length : Rat) ≤ 6 := by
      exact_mod_cast hFew
    have hBelow :
        (subs.sum : Rat) / subs.length ≤ 4443 / 64 := by
      rw [div_le_iff₀ hLength]
      linarith
    have hSmall := toDouble_le represented_fail hBelow hDouble
    linarith
  · intro hSum
    have hCast :
        139 * (subs.length : Rat) ≤ 2 * subs.sum := by
      exact_mod_cast hSum
    have hAbove :
        139 / 2 ≤ (subs.sum : Rat) / subs.length := by
      rw [le_div_iff₀ hLength]
      linarith
    exact le_toDouble represented_pass hAbove hDouble

/- The overall score of finite scores passes. -/
theorem overallScore_passes_iff
    {report : Report}
    {subs : List Int}
    (hSubs : subScores report = .ok subs)
    (hFew : subs.length ≤ 6)
    (hRange : ∀ n ∈ subs, |(n : Rat)| ≤ maxDouble) :
    (∃ s, overallScore report = .ok (some s) ∧
        passThreshold ≤ s) ↔
      Passes subs := by
  have hOverall :
      overallScore report =
        roundedMean (subs.map Json.int) := by
    rw [overallScore, hSubs]
    rfl
  rw [hOverall]
  by_cases hEmpty : subs = []
  · subst hEmpty
    constructor
    · rintro ⟨s, hSame, -⟩
      cases hSame
    · intro hPasses
      exact absurd rfl hPasses.1
  · rcases roundedMean_ints hEmpty hRange with
      ⟨r, hDouble, hMean⟩
    rw [hMean, Passes,
      ← passing_mean_iff hEmpty hFew hDouble]
    constructor
    · rintro ⟨s, hSame, hReached⟩
      cases hSame
      exact ⟨hEmpty, hReached⟩
    · intro hPasses
      exact ⟨_, rfl, hPasses.2⟩

end SiteAnalysis.FullReport
