import Mathlib.Algebra.Order.BigOperators.Group.List
import SiteAnalysis.FullReport.Consistency

/-
  This file defines the rating of a full report in exact
  arithmetic, and proves that it is a score of 0 to 100 which
  does not fall when the page improves.

  Key definitions include:
    * `exactOverallScore`
    * `Report.InRange`
    * `Report.NotWorse`

  Key theorems include:
    * `roundedQuotient_mono`
    * `subScore_notLower`
    * `exactOverallScore_improves`
-/

------------------------------------------------------------
-- Scores in Exact Arithmetic
------------------------------------------------------------

namespace SiteAnalysis.FullReport

open Python
open Reports

/- The value of a number as a fraction. -/
def exactValue : Json → Option Rat
| .bool b => some (if b then 1 else 0)
| .int n => some n
| .float (.finite q) => some q
| _ => none

/- `round(sum(nums) / len(nums)) if nums else None` -/
def roundedQuotient (nums : List Rat) : Option Int :=
  if nums = [] then
    none
  else
    some (roundHalfEven (nums.sum / nums.length))

/- `_mean_score` -/
def exactMeanScore (values : List Json) : Option Int :=
  roundedQuotient (values.filterMap exactValue)

/- The scores that `_pagespeed_score` reads. -/
def pagespeedScores : List AnalysisField :=
  [.performanceScore, .accessibilityScore,
    .bestPracticesScore, .seoScore]

/- `_pagespeed_score` -/
def exactPagespeedScore
    (d : List (AnalysisField × Json)) : Option Int :=
  exactMeanScore (pagespeedScores.map (metric d))

/- The scores that `_gtmetrix_score` reads. -/
def gtmetrixScores : List GTmetrixField :=
  [.performanceScore, .structureScore]

/- `_gtmetrix_score` -/
def exactGtmetrixScore
    (d : List (GTmetrixField × Json)) : Option Int :=
  exactMeanScore (gtmetrixScores.map (metric d))

/- `_links_score` -/
def exactLinksScore (d : LinkSummary) : Option Int :=
  if d.totalLinks = 0 then
    none
  else
    some
      (clamp
        (roundHalfEven
          (100 * ((d.totalLinks : Rat) - d.broken) /
            d.totalLinks)))

/- `_structured_data_score` -/
def exactStructuredDataScore
    (d : SchemaSummary) : Option Int :=
  if d.totalSchemas = 0 then
    none
  else
    some
      (clamp
        (roundHalfEven
          (100 * (d.validSchemas : Rat) / d.totalSchemas -
            5 * d.totalErrors)))

/- The loop over `_TOOL_SCORERS`. -/
def exactSubScores
    (report : Report) : Except PyError (List Int) := do
  let pagespeed ←
    report.pagespeed.subScore
      (fun d => .ok (exactPagespeedScore d))
  let gtmetrix ←
    report.gtmetrix.subScore
      (fun d => .ok (exactGtmetrixScore d))
  let accessibility ←
    report.accessibility.subScore
      (fun d => .ok (some (accessibilityScore d)))
  let ssl ← report.ssl.subScore sslScore
  let links ←
    report.links.subScore (fun d => .ok (exactLinksScore d))
  let structuredData ←
    report.structuredData.subScore
      (fun d => .ok (exactStructuredDataScore d))
  pure
    (pagespeed ++ gtmetrix ++ accessibility ++ ssl ++ links ++
      structuredData)

/- `_overall_score` -/
def exactOverallScore
    (report : Report) : Except PyError (Option Int) := do
  let subs ← exactSubScores report
  pure (roundedQuotient (subs.map (fun n : Int => (n : Rat))))

------------------------------------------------------------
-- Ranges and Improvements
------------------------------------------------------------

/- A score of 0 to 100, or none. -/
def ScoreInRange (value : Json) : Prop :=
  value = .null ∨
    ∃ q, exactValue value = some q ∧ 0 ≤ q ∧ q ≤ 100

/- The grade is one of the table, or there is none. -/
structure SslInRange (c : SSLColumns) : Prop where
  grade :
    gradeOf c = "" ∨
      ∃ base, sslGradeScore.lookup (gradeOf c) = some base
  vulnerabilities :
    ∃ entries, vulnerabilityItems c = .ok entries

/- The data of the tools are in the ranges of the producers. -/
structure Report.InRange (report : Report) : Prop where
  pagespeed :
    report.pagespeed.All fun d =>
      ∀ f ∈ pagespeedScores, ScoreInRange (metric d f)
  gtmetrix :
    report.gtmetrix.All fun d =>
      ∀ f ∈ gtmetrixScores, ScoreInRange (metric d f)
  accessibility :
    report.accessibility.All fun t =>
      0 ≤ t.totalErrors ∧ 0 ≤ t.totalContrastErrors
  ssl : report.ssl.All SslInRange
  links :
    report.links.All fun d => d.broken ≤ d.totalLinks
  structuredData :
    report.structuredData.All fun d =>
      d.validSchemas ≤ d.totalSchemas

/- Both scores are missing, or the second is not lower. -/
def ScoreNotLower (first second : Json) : Prop :=
  (first = .null ↔ second = .null) ∧
    ∀ q r, exactValue first = some q →
      exactValue second = some r → q ≤ r

/-
  The second grade is not worse in the table, the certificate
  is not newly untrusted, and no vulnerability is newly true.
-/
structure SslNotWorse
    (first second : SSLColumns) : Prop where
  present : gradeOf first = "" ↔ gradeOf second = ""
  grade :
    ∀ a b, sslGradeScore.lookup (gradeOf first) = some a →
      sslGradeScore.lookup (gradeOf second) = some b → a ≤ b
  trusted :
    second.certIsTrusted = some false →
      first.certIsTrusted = some false
  vulnerabilities :
    ∀ before after,
      vulnerabilityItems first = .ok before →
      vulnerabilityItems second = .ok after →
      ∀ name value, (name, value) ∈ after →
        value.truthy = true →
        ∃ old, (name, old) ∈ before ∧ old.truthy = true

/- The statuses agree, and so do the data where both are ok. -/
def ToolResult.Rel
    {D : Type}
    (related : D → D → Prop) :
    ToolResult D → ToolResult D → Prop
| .ok first, .ok second => related first second
| .failed _, .failed _ => True
| .skipped, .skipped => True
| _, _ => False

/-
  Every metric of the second report is at least as good, on
  the same tools, fields and totals.
-/
structure Report.NotWorse
    (first second : Report) : Prop where
  pagespeed :
    first.pagespeed.Rel
      (fun a b =>
        ∀ f ∈ pagespeedScores,
          ScoreNotLower (metric a f) (metric b f))
      second.pagespeed
  gtmetrix :
    first.gtmetrix.Rel
      (fun a b =>
        ∀ f ∈ gtmetrixScores,
          ScoreNotLower (metric a f) (metric b f))
      second.gtmetrix
  accessibility :
    first.accessibility.Rel
      (fun a b =>
        b.totalErrors ≤ a.totalErrors ∧
          b.totalContrastErrors ≤ a.totalContrastErrors)
      second.accessibility
  ssl : first.ssl.Rel SslNotWorse second.ssl
  links :
    first.links.Rel
      (fun a b =>
        a.totalLinks = b.totalLinks ∧ b.broken ≤ a.broken)
      second.links
  structuredData :
    first.structuredData.Rel
      (fun a b =>
        a.totalSchemas = b.totalSchemas ∧
          a.validSchemas ≤ b.validSchemas ∧
          b.totalErrors ≤ a.totalErrors)
      second.structuredData

/- A score of 0 to 100. -/
def IsScore (n : Int) : Prop :=
  0 ≤ n ∧ n ≤ 100

/- Neither run has a score, or the second is not lower. -/
def NotLower : Option Int → Option Int → Prop
| none, none => True
| some a, some b => a ≤ b
| _, _ => False

------------------------------------------------------------
-- Rounded Means
------------------------------------------------------------

/- A mean of numbers is one of the range they are in. -/
theorem roundedQuotient_isScore
    {nums : List Rat}
    (hRange : ∀ q ∈ nums, 0 ≤ q ∧ q ≤ 100) :
    ∀ n ∈ roundedQuotient nums, IsScore n := by
  intro n hMem
  unfold roundedQuotient at hMem
  split at hMem
  · contradiction
  · rename_i hNonempty
    cases hMem
    have hLength : (0 : Rat) < nums.length := by
      exact_mod_cast List.length_pos_of_ne_nil hNonempty
    have hNonneg : 0 ≤ nums.sum :=
      List.sum_nonneg (fun q hq => (hRange q hq).1)
    have hSum : nums.sum ≤ nums.length • (100 : Rat) :=
      List.sum_le_card_nsmul nums 100
        (fun q hq => (hRange q hq).2)
    rw [nsmul_eq_mul] at hSum
    constructor
    · apply le_roundHalfEven
      rw [Int.cast_zero]
      exact div_nonneg hNonneg (le_of_lt hLength)
    · apply roundHalfEven_le
      rw [div_le_iff₀ hLength]
      exact le_trans hSum (le_of_eq (mul_comm _ _))

/- The mean of numbers that are not lower. -/
theorem roundedQuotient_mono
    {first second : List Rat}
    (hNotLower : List.Forall₂ (· ≤ ·) first second) :
    NotLower (roundedQuotient first)
      (roundedQuotient second) := by
  have hLength := hNotLower.length_eq
  have hSum := hNotLower.sum_le_sum
  unfold roundedQuotient
  by_cases hEmpty : first = []
  · subst hEmpty
    cases hNotLower
    exact trivial
  · have hOther : second ≠ [] := by
      intro hNil
      subst hNil
      exact hEmpty (List.eq_nil_of_length_eq_zero hLength)
    rw [if_neg hEmpty, if_neg hOther, hLength]
    exact
      roundHalfEven_mono
        (div_le_div_of_nonneg_right hSum (Nat.cast_nonneg _))

------------------------------------------------------------
-- Scores of Tools
------------------------------------------------------------

theorem exactValue_isSome
    {value : Json}
    (hRange : ScoreInRange value)
    (hPresent : value ≠ .null) :
    ∃ q, exactValue value = some q ∧ 0 ≤ q ∧ q ≤ 100 :=
  hRange.resolve_left hPresent

/- The numbers of scores are in the range of the scores. -/
theorem exactValues_range
    {values : List Json}
    (hRange : ∀ v ∈ values, ScoreInRange v) :
    ∀ q ∈ values.filterMap exactValue,
      0 ≤ q ∧ q ≤ 100 := by
  intro q hMem
  rcases List.mem_filterMap.mp hMem with
    ⟨value, hValue, hExact⟩
  rcases hRange value hValue with hNull | hNumber
  · subst hNull
    contradiction
  · rcases hNumber with ⟨r, hSame, hBounds⟩
    rw [hExact] at hSame
    cases hSame
    exact hBounds

/- Scores that are not lower have numbers that are not lower. -/
theorem exactValues_notLower
    {first second : List Json}
    (hNotLower : List.Forall₂ ScoreNotLower first second)
    (hFirst : ∀ v ∈ first, ScoreInRange v)
    (hSecond : ∀ v ∈ second, ScoreInRange v) :
    List.Forall₂ (· ≤ ·) (first.filterMap exactValue)
      (second.filterMap exactValue) := by
  induction hNotLower with
  | nil => exact List.Forall₂.nil
  | @cons a b first second hHead _ ih =>
      have hRest :=
        ih (fun v hv => hFirst v (List.mem_cons_of_mem _ hv))
          (fun v hv => hSecond v (List.mem_cons_of_mem _ hv))
      by_cases hNull : a = .null
      · have hOther := hHead.1.mp hNull
        subst hNull
        subst hOther
        rw [List.filterMap_cons_none rfl,
          List.filterMap_cons_none rfl]
        exact hRest
      · have hOther : b ≠ .null :=
          fun hb => hNull (hHead.1.mpr hb)
        rcases exactValue_isSome
            (hFirst a List.mem_cons_self) hNull with
          ⟨q, hq, _⟩
        rcases exactValue_isSome
            (hSecond b List.mem_cons_self) hOther with
          ⟨r, hr, _⟩
        rw [List.filterMap_cons_some hq,
          List.filterMap_cons_some hr]
        exact List.Forall₂.cons (hHead.2 q r hq hr) hRest

/- The scores of the fields of a table. -/
theorem forall₂_metrics
    {F : Type}
    [DecidableEq F]
    {fields : List F}
    {a b : List (F × Json)}
    (hNotLower :
      ∀ f ∈ fields, ScoreNotLower (metric a f) (metric b f)) :
    List.Forall₂ ScoreNotLower (fields.map (metric a))
      (fields.map (metric b)) := by
  rw [List.forall₂_map_left_iff, List.forall₂_map_right_iff,
    List.forall₂_same]
  exact hNotLower

theorem forall_metrics
    {F : Type}
    [DecidableEq F]
    {fields : List F}
    {a : List (F × Json)}
    (hRange : ∀ f ∈ fields, ScoreInRange (metric a f)) :
    ∀ v ∈ fields.map (metric a), ScoreInRange v := by
  intro v hMem
  rcases List.mem_map.mp hMem with ⟨f, hField, rfl⟩
  exact hRange f hField

/- A mean of scores is a score. -/
theorem exactMeanScore_isScore
    {values : List Json}
    (hRange : ∀ v ∈ values, ScoreInRange v) :
    ∀ n ∈ exactMeanScore values, IsScore n :=
  roundedQuotient_isScore (exactValues_range hRange)

/- The mean does not fall when no score falls. -/
theorem exactMeanScore_notLower
    {first second : List Json}
    (hNotLower : List.Forall₂ ScoreNotLower first second)
    (hFirst : ∀ v ∈ first, ScoreInRange v)
    (hSecond : ∀ v ∈ second, ScoreInRange v) :
    NotLower (exactMeanScore first)
      (exactMeanScore second) :=
  roundedQuotient_mono
    (exactValues_notLower hNotLower hFirst hSecond)

theorem clamp_isScore
    (n : Int) : IsScore (clamp n) := by
  unfold IsScore clamp
  omega

theorem clamp_mono
    {n m : Int}
    (hLe : n ≤ m) : clamp n ≤ clamp m := by
  unfold clamp
  omega

theorem accessibilityScore_mono
    {a b : Audits.Totals}
    (hErrors : b.totalErrors ≤ a.totalErrors)
    (hContrast :
      b.totalContrastErrors ≤ a.totalContrastErrors) :
    accessibilityScore a ≤ accessibilityScore b := by
  apply clamp_mono
  omega

theorem exactLinksScore_notLower
    {a b : LinkSummary}
    (hTotal : a.totalLinks = b.totalLinks)
    (hBroken : b.broken ≤ a.broken) :
    NotLower (exactLinksScore a) (exactLinksScore b) := by
  unfold exactLinksScore
  rw [hTotal]
  by_cases hNone : b.totalLinks = 0
  · rw [if_pos hNone, if_pos hNone]
    exact trivial
  · rw [if_neg hNone, if_neg hNone]
    have hCast : (b.broken : Rat) ≤ a.broken := by
      exact_mod_cast hBroken
    apply clamp_mono
    apply roundHalfEven_mono
    apply div_le_div_of_nonneg_right _ (Nat.cast_nonneg _)
    linarith

theorem exactStructuredDataScore_notLower
    {a b : SchemaSummary}
    (hTotal : a.totalSchemas = b.totalSchemas)
    (hValid : a.validSchemas ≤ b.validSchemas)
    (hErrors : b.totalErrors ≤ a.totalErrors) :
    NotLower (exactStructuredDataScore a)
      (exactStructuredDataScore b) := by
  unfold exactStructuredDataScore
  rw [hTotal]
  by_cases hNone : b.totalSchemas = 0
  · rw [if_pos hNone, if_pos hNone]
    exact trivial
  · rw [if_neg hNone, if_neg hNone]
    have hCast : (a.validSchemas : Rat) ≤ b.validSchemas := by
      exact_mod_cast hValid
    have hPenalty : (b.totalErrors : Rat) ≤ a.totalErrors := by
      exact_mod_cast hErrors
    have hQuotient :
        100 * (a.validSchemas : Rat) / b.totalSchemas ≤
          100 * b.validSchemas / b.totalSchemas := by
      apply div_le_div_of_nonneg_right _ (Nat.cast_nonneg _)
      linarith
    apply clamp_mono
    apply roundHalfEven_mono
    linarith

------------------------------------------------------------
-- The Score of a Certificate
------------------------------------------------------------

/- The grades of the table are scores, and only they count. -/
theorem sslGradeScore_range
    {grade : String}
    {base : Int}
    (hBase : sslGradeScore.lookup grade = some base) :
    IsScore base := by
  have hAll :
      ∀ entry ∈ sslGradeScore, IsScore entry.2 := by
    unfold IsScore
    decide
  rcases List.lookup_eq_some_iff.mp hBase with
    ⟨before, after, hTable, _⟩
  apply hAll (grade, base)
  rw [hTable]
  exact List.mem_append_right _ List.mem_cons_self

theorem lookup_empty_grade :
    sslGradeScore.lookup "" = none := rfl

/- The score of a certificate whose entries can be read. -/
def cappedGrade
    (base : Int)
    (untrusted vulnerable : Bool) : Int :=
  let trusted := if untrusted then min base 40 else base
  if vulnerable then min trusted 40 else trusted

theorem sslScore_eq
    {c : SSLColumns}
    {entries : List (String × Json)}
    (hEntries : vulnerabilityItems c = .ok entries) :
    sslScore c =
      .ok
        ((sslGradeScore.lookup (gradeOf c)).map
          (fun base =>
            cappedGrade base (c.certIsTrusted = some false)
              (entries.any (fun item => item.2.truthy)))) := by
  unfold sslScore
  cases sslGradeScore.lookup (gradeOf c) with
  | none => rfl
  | some base =>
      rw [hEntries]
      simp [cappedGrade, Bind.bind, Except.bind, pure,
        Except.pure]

theorem cappedGrade_isScore
    {base : Int}
    (hBase : IsScore base)
    (untrusted vulnerable : Bool) :
    IsScore (cappedGrade base untrusted vulnerable) := by
  unfold IsScore at *
  unfold cappedGrade
  cases untrusted <;> cases vulnerable <;> simp <;> omega

/- A better grade with fewer caps is not lower. -/
theorem cappedGrade_mono
    {a b : Int}
    {untrusted untrusted' vulnerable vulnerable' : Bool}
    (hBase : a ≤ b)
    (hTrusted : untrusted' = true → untrusted = true)
    (hVulnerable : vulnerable' = true → vulnerable = true) :
    cappedGrade a untrusted vulnerable ≤
      cappedGrade b untrusted' vulnerable' := by
  unfold cappedGrade
  cases untrusted' <;> cases vulnerable' <;>
    cases untrusted <;> cases vulnerable <;>
      simp at * <;> omega

theorem sslScore_isScore
    {c : SSLColumns}
    (hRange : SslInRange c) :
    ∃ s, sslScore c = .ok s ∧ ∀ n ∈ s, IsScore n := by
  rcases hRange.vulnerabilities with ⟨entries, hEntries⟩
  refine ⟨_, sslScore_eq hEntries, ?_⟩
  intro n hMem
  rcases Option.map_eq_some_iff.mp hMem with
    ⟨base, hBase, rfl⟩
  exact cappedGrade_isScore (sslGradeScore_range hBase) _ _

theorem sslScore_notLower
    {a b : SSLColumns}
    (hFirst : SslInRange a)
    (hSecond : SslInRange b)
    (hNotWorse : SslNotWorse a b) :
    ∃ s t,
      sslScore a = .ok s ∧ sslScore b = .ok t ∧
        NotLower s t := by
  rcases hFirst.vulnerabilities with ⟨before, hBefore⟩
  rcases hSecond.vulnerabilities with ⟨after, hAfter⟩
  refine ⟨_, _, sslScore_eq hBefore, sslScore_eq hAfter, ?_⟩
  rcases hFirst.grade with hNone | ⟨base, hBase⟩
  · rw [hNone, hNotWorse.present.mp hNone,
      lookup_empty_grade]
    exact trivial
  · rcases hSecond.grade with hNone | ⟨better, hBetter⟩
    · rw [hNotWorse.present.mpr hNone, lookup_empty_grade]
        at hBase
      contradiction
    · rw [hBase, hBetter]
      apply cappedGrade_mono
      · exact hNotWorse.grade _ _ hBase hBetter
      · intro hUntrusted
        exact
          decide_eq_true
            (hNotWorse.trusted (of_decide_eq_true hUntrusted))
      · intro hVulnerable
        rcases List.any_eq_true.mp hVulnerable with
          ⟨item, hMem, hTruthy⟩
        rcases hNotWorse.vulnerabilities before after hBefore
            hAfter item.1 item.2 hMem hTruthy with
          ⟨old, hOld, hWas⟩
        exact List.any_eq_true.mpr ⟨(item.1, old), hOld, hWas⟩

------------------------------------------------------------
-- Scores of Reports
------------------------------------------------------------

/- What one tool contributes are scores. -/
theorem subScore_isScore
    {D : Type}
    (scorer : D → Except PyError (Option Int))
    {good : D → Prop}
    {tool : ToolResult D}
    (hTool : tool.All good)
    (hScorer :
      ∀ d, good d →
        ∃ s, scorer d = .ok s ∧ ∀ n ∈ s, IsScore n) :
    ∃ subs,
      tool.subScore scorer = .ok subs ∧
        ∀ n ∈ subs, IsScore n := by
  cases tool with
  | ok d =>
      rcases hScorer d (hTool d rfl) with ⟨s, hScore, hAll⟩
      refine ⟨s.toList, ?_, ?_⟩
      · rw [ToolResult.subScore, hScore]
        rfl
      · intro n hMem
        exact hAll n (Option.mem_toList.mp hMem)
  | failed m => exact ⟨[], rfl, by simp⟩
  | skipped => exact ⟨[], rfl, by simp⟩

theorem NotLower.toList
    {s t : Option Int}
    (hNotLower : NotLower s t) :
    List.Forall₂ (· ≤ ·) s.toList t.toList := by
  cases s with
  | none =>
      cases t with
      | none => exact List.Forall₂.nil
      | some b => exact hNotLower.elim
  | some a =>
      cases t with
      | none => exact hNotLower.elim
      | some b =>
          exact List.Forall₂.cons hNotLower List.Forall₂.nil

/- What one tool contributes does not fall. -/
theorem subScore_notLower
    {D : Type}
    (scorer : D → Except PyError (Option Int))
    {good : D → Prop}
    {related : D → D → Prop}
    {first second : ToolResult D}
    (hFirst : first.All good)
    (hSecond : second.All good)
    (hRel : first.Rel related second)
    (hScorer :
      ∀ a b, good a → good b → related a b →
        ∃ s t,
          scorer a = .ok s ∧ scorer b = .ok t ∧
            NotLower s t) :
    ∃ l m,
      first.subScore scorer = .ok l ∧
        second.subScore scorer = .ok m ∧
        List.Forall₂ (· ≤ ·) l m := by
  cases first with
  | ok a =>
      cases second with
      | ok b =>
          rcases hScorer a b (hFirst a rfl) (hSecond b rfl)
              hRel with
            ⟨s, t, hs, ht, hNotLower⟩
          refine
            ⟨s.toList, t.toList, ?_, ?_, hNotLower.toList⟩
          · rw [ToolResult.subScore, hs]
            rfl
          · rw [ToolResult.subScore, ht]
            rfl
      | failed m => exact hRel.elim
      | skipped => exact hRel.elim
  | failed m =>
      cases second with
      | failed m' => exact ⟨[], [], rfl, rfl, .nil⟩
      | ok b => exact hRel.elim
      | skipped => exact hRel.elim
  | skipped =>
      cases second with
      | skipped => exact ⟨[], [], rfl, rfl, .nil⟩
      | ok b => exact hRel.elim
      | failed m => exact hRel.elim

theorem exactSubScores_isScore
    {report : Report}
    (hRange : report.InRange) :
    ∃ subs,
      exactSubScores report = .ok subs ∧
        ∀ n ∈ subs, IsScore n := by
  rcases subScore_isScore (fun d => .ok (exactPagespeedScore d))
      hRange.pagespeed
      (fun d hd =>
        ⟨_, rfl, exactMeanScore_isScore (forall_metrics hd)⟩)
    with ⟨pagespeed, hPagespeed, hP⟩
  rcases subScore_isScore (fun d => .ok (exactGtmetrixScore d))
      hRange.gtmetrix
      (fun d hd =>
        ⟨_, rfl, exactMeanScore_isScore (forall_metrics hd)⟩)
    with ⟨gtmetrix, hGtmetrix, hG⟩
  rcases subScore_isScore (fun d => .ok (some (accessibilityScore d)))
      hRange.accessibility
      (fun d _ =>
        ⟨_, rfl, fun n hMem => by
          cases hMem
          exact clamp_isScore _⟩)
    with ⟨accessibility, hAccessibility, hA⟩
  rcases subScore_isScore sslScore hRange.ssl
      (fun c hc => sslScore_isScore hc)
    with ⟨ssl, hSsl, hS⟩
  rcases subScore_isScore (fun d => .ok (exactLinksScore d))
      hRange.links
      (fun d _ =>
        ⟨_, rfl, fun n hMem => by
          unfold exactLinksScore at hMem
          split at hMem
          · contradiction
          · cases hMem
            exact clamp_isScore _⟩)
    with ⟨links, hLinks, hL⟩
  rcases subScore_isScore (fun d => .ok (exactStructuredDataScore d))
      hRange.structuredData
      (fun d _ =>
        ⟨_, rfl, fun n hMem => by
          unfold exactStructuredDataScore at hMem
          split at hMem
          · contradiction
          · cases hMem
            exact clamp_isScore _⟩)
    with ⟨structuredData, hStructured, hD⟩
  refine
    ⟨pagespeed ++ gtmetrix ++ accessibility ++ ssl ++
      links ++ structuredData, ?_, ?_⟩
  · rw [exactSubScores, hPagespeed, hGtmetrix,
      hAccessibility, hSsl, hLinks, hStructured]
    rfl
  · intro n hMem
    simp only [List.mem_append] at hMem
    rcases hMem with
      ((((hMem | hMem) | hMem) | hMem) | hMem) | hMem
    · exact hP n hMem
    · exact hG n hMem
    · exact hA n hMem
    · exact hS n hMem
    · exact hL n hMem
    · exact hD n hMem

/- No tool contributes less to the better report. -/
theorem exactSubScores_notLower
    {first second : Report}
    (hFirst : first.InRange)
    (hSecond : second.InRange)
    (hNotWorse : first.NotWorse second) :
    ∃ l m,
      exactSubScores first = .ok l ∧
        exactSubScores second = .ok m ∧
        List.Forall₂ (· ≤ ·) l m := by
  rcases subScore_notLower (fun d => .ok (exactPagespeedScore d))
      hFirst.pagespeed hSecond.pagespeed
      hNotWorse.pagespeed
      (fun a b ha hb hRel =>
        ⟨_, _, rfl, rfl,
          exactMeanScore_notLower (forall₂_metrics hRel)
            (forall_metrics ha) (forall_metrics hb)⟩)
    with ⟨l₁, m₁, hl₁, hm₁, hRel₁⟩
  rcases subScore_notLower (fun d => .ok (exactGtmetrixScore d))
      hFirst.gtmetrix hSecond.gtmetrix
      hNotWorse.gtmetrix
      (fun a b ha hb hRel =>
        ⟨_, _, rfl, rfl,
          exactMeanScore_notLower (forall₂_metrics hRel)
            (forall_metrics ha) (forall_metrics hb)⟩)
    with ⟨l₂, m₂, hl₂, hm₂, hRel₂⟩
  rcases subScore_notLower (fun d => .ok (some (accessibilityScore d)))
      hFirst.accessibility hSecond.accessibility
      hNotWorse.accessibility
      (fun a b _ _ hRel =>
        ⟨_, _, rfl, rfl,
          accessibilityScore_mono hRel.1 hRel.2⟩)
    with ⟨l₃, m₃, hl₃, hm₃, hRel₃⟩
  rcases subScore_notLower sslScore hFirst.ssl hSecond.ssl
      hNotWorse.ssl
      (fun a b ha hb hRel => sslScore_notLower ha hb hRel)
    with ⟨l₄, m₄, hl₄, hm₄, hRel₄⟩
  rcases subScore_notLower (fun d => .ok (exactLinksScore d))
      hFirst.links hSecond.links
      hNotWorse.links
      (fun a b _ _ hRel =>
        ⟨_, _, rfl, rfl,
          exactLinksScore_notLower hRel.1 hRel.2⟩)
    with ⟨l₅, m₅, hl₅, hm₅, hRel₅⟩
  rcases subScore_notLower (fun d => .ok (exactStructuredDataScore d))
      hFirst.structuredData hSecond.structuredData
      hNotWorse.structuredData
      (fun a b _ _ hRel =>
        ⟨_, _, rfl, rfl,
          exactStructuredDataScore_notLower hRel.1 hRel.2.1
            hRel.2.2⟩)
    with ⟨l₆, m₆, hl₆, hm₆, hRel₆⟩
  refine
    ⟨l₁ ++ l₂ ++ l₃ ++ l₄ ++ l₅ ++ l₆,
      m₁ ++ m₂ ++ m₃ ++ m₄ ++ m₅ ++ m₆, ?_, ?_, ?_⟩
  · rw [exactSubScores, hl₁, hl₂, hl₃, hl₄, hl₅, hl₆]
    rfl
  · rw [exactSubScores, hm₁, hm₂, hm₃, hm₄, hm₅, hm₆]
    rfl
  · exact
      List.rel_append
        (List.rel_append
          (List.rel_append
            (List.rel_append (List.rel_append hRel₁ hRel₂)
              hRel₃) hRel₄) hRel₅) hRel₆

------------------------------------------------------------
-- Improvements
------------------------------------------------------------

/- The overall score is of 0 to 100, where there is one. -/
theorem exactOverallScore_isScore
    {report : Report}
    (hRange : report.InRange) :
    ∃ s, exactOverallScore report = .ok s ∧
      ∀ n ∈ s, IsScore n := by
  rcases exactSubScores_isScore hRange with
    ⟨subs, hSubs, hAll⟩
  refine
    ⟨roundedQuotient (subs.map (fun n : Int => (n : Rat))),
      ?_, ?_⟩
  · rw [exactOverallScore, hSubs]
    rfl
  · apply roundedQuotient_isScore
    intro q hMem
    rcases List.mem_map.mp hMem with ⟨n, hn, rfl⟩
    have hScore := hAll n hn
    exact
      ⟨by exact_mod_cast hScore.1,
        by exact_mod_cast hScore.2⟩

/-
  In exact arithmetic, every report in the ranges of the
  tools is rated from 0 to 100, where it is rated; and where
  no metric of a second report is worse, on the same tools,
  fields and totals, its rating is not lower.
-/
theorem exactOverallScore_improves :
    (∀ report : Report, report.InRange →
      ∃ s, exactOverallScore report = .ok s ∧
        ∀ n ∈ s, IsScore n) ∧
      ∀ first second : Report,
        first.InRange → second.InRange →
        first.NotWorse second →
          ∃ s t,
            exactOverallScore first = .ok s ∧
              exactOverallScore second = .ok t ∧
              NotLower s t := by
  constructor
  · intro report hRange
    exact exactOverallScore_isScore hRange
  · intro first second hFirst hSecond hNotWorse
    rcases exactSubScores_notLower hFirst hSecond hNotWorse
      with ⟨l, m, hl, hm, hRel⟩
    refine
      ⟨roundedQuotient (l.map (fun n : Int => (n : Rat))),
        roundedQuotient (m.map (fun n : Int => (n : Rat))),
        ?_, ?_, ?_⟩
    · rw [exactOverallScore, hl]
      rfl
    · rw [exactOverallScore, hm]
      rfl
    · apply roundedQuotient_mono
      rw [List.forall₂_map_left_iff,
        List.forall₂_map_right_iff]
      apply hRel.imp
      intro a b hLe
      exact_mod_cast hLe

/- A report on ten links, some of them broken. -/
def linkReport (broken : Nat) : Report where
  pagespeed := .skipped
  gtmetrix := .skipped
  accessibility := .skipped
  ssl := .skipped
  links :=
    .ok
      { totalLinks := 10
        healthy := 10 - broken
        broken := broken
        redirects := 0
        timeouts := 0
        errors := 0 }
  structuredData := .skipped

theorem linkReport_inRange
    {broken : Nat}
    (hBroken : broken ≤ 10) : (linkReport broken).InRange where
  pagespeed := by
    intro d hData
    cases hData
  gtmetrix := by
    intro d hData
    cases hData
  accessibility := by
    intro d hData
    cases hData
  ssl := by
    intro d hData
    cases hData
  links := by
    intro d hData
    cases hData
    exact hBroken
  structuredData := by
    intro d hData
    cases hData

/- A report with one broken link less is rated no lower. -/
theorem fewer_broken_links_not_lower :
    ∃ s t,
      exactOverallScore (linkReport 2) = .ok s ∧
        exactOverallScore (linkReport 1) = .ok t ∧
        NotLower s t := by
  have hNotWorse :
      (linkReport 2).NotWorse (linkReport 1) :=
    { pagespeed := trivial
      gtmetrix := trivial
      accessibility := trivial
      ssl := trivial
      links := ⟨rfl, by decide⟩
      structuredData := trivial }
  exact
    exactOverallScore_improves.2 (linkReport 2)
      (linkReport 1) (linkReport_inRange (by decide))
      (linkReport_inRange (by decide)) hNotWorse

end SiteAnalysis.FullReport
