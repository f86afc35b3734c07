import SiteAnalysis.FullReport.Produced

/-
  This file proves when the recommendations and the overall
  score of a full report agree: the report is praised only
  above a passing score.

  Key definitions include:
    * `Advises`
    * `Unimprovable`
    * `Sufficient`
    * `PraiseIsEarned`

  Key theorems include:
    * `buildRecommendations_praise_iff`
    * `subScores_of_unimprovable`
    * `praiseIsEarned_iff`
-/

------------------------------------------------------------
-- Rules That Trip
------------------------------------------------------------

namespace SiteAnalysis.FullReport

open Python
open Reports

/- A number below the bound. -/
def Below
    (bound : Int)
    (value : Json) : Prop :=
  value.lessThan bound = .ok true

/- A number that counts as true, above the bound. -/
def Above
    (literal : String)
    (bound : PyFloat)
    (value : Json) : Prop :=
  value.truthy = true ∧ value.exceeds literal bound = .ok true

structure PagespeedGood
    (d : List (AnalysisField × Json)) : Prop where
  performance : ¬ Below 90 (metric d .performanceScore)
  lcp :
    ¬ Above "float" (.finite (5 / 2))
      (metric d .largestContentfulPaint)
  tbt :
    ¬ Above "int" (.finite 200) (metric d .totalBlockingTime)
  cls :
    ¬ Above "float" (toDouble (1 / 10))
      (metric d .cumulativeLayoutShift)
  seo : ¬ Below 90 (metric d .seoScore)
  bestPractices : ¬ Below 90 (metric d .bestPracticesScore)

structure AccessibilityGood (t : Audits.Totals) : Prop where
  errors : t.totalErrors ≤ 0
  contrast : t.totalContrastErrors ≤ 0

structure SslGood (c : SSLColumns) : Prop where
  grade : gradeOf c ≠ "" → gradeOf c ∈ ["A+", "A"]
  expiry : ∀ days, c.certExpiresInDays = some days → 30 ≤ days
  vulnerabilities :
    ∀ entries, vulnerabilityItems c = .ok entries →
      ∀ entry ∈ entries, entry.2.truthy = false

structure StructuredDataGood (d : SchemaSummary) : Prop where
  found : d.totalSchemas ≠ 0
  errors : d.totalErrors = 0
  rich : d.richResultEligible ≠ 0

/- The data of a tool that ran satisfies the predicate. -/
def ToolResult.All
    {D : Type}
    (good : D → Prop)
    (tool : ToolResult D) : Prop :=
  ∀ d, tool = .ok d → good d

/- No threshold of a rule is passed. -/
structure Unimprovable (report : Report) : Prop where
  pagespeed : report.pagespeed.All PagespeedGood
  accessibility : report.accessibility.All AccessibilityGood
  ssl : report.ssl.All SslGood
  links : report.links.All (fun d => d.broken = 0)
  structuredData :
    report.structuredData.All StructuredDataGood

------------------------------------------------------------
-- Advice
------------------------------------------------------------

/- The praise of a report. -/
def praise (lang : String) : String :=
  recommendation lang .allGood ""

/- The rules return advice exactly when one is not met. -/
def Advises
    (lang : String)
    (good : Prop)
    (r : Except PyError (List String)) : Prop :=
  ∃ recs, r = .ok recs ∧ (recs = [] ↔ good) ∧
    praise lang ∉ recs

section Advice

variable {lang : String} {good good' : Prop}
variable {repr : Json → String}

theorem Advises.congr
    {r : Except PyError (List String)}
    (hAdvises : Advises lang good r)
    (hGood : good ↔ good') : Advises lang good' r := by
  rcases hAdvises with ⟨recs, hRecs, hEmpty, hPraise⟩
  exact ⟨recs, hRecs, hEmpty.trans hGood, hPraise⟩

/- The rules of one part after those of another. -/
theorem Advises.append
    {r r' : Except PyError (List String)}
    (hFirst : Advises lang good r)
    (hSecond : Advises lang good' r') :
    Advises lang (good ∧ good')
      (do
        let recs ← r
        let recs' ← r'
        pure (recs ++ recs')) := by
  rcases hFirst with ⟨recs, rfl, hEmpty, hPraise⟩
  rcases hSecond with ⟨recs', rfl, hEmpty', hPraise'⟩
  refine ⟨recs ++ recs', rfl, ?_, ?_⟩
  · rw [List.append_eq_nil_iff, hEmpty, hEmpty']
  · intro hMem
    rcases List.mem_append.mp hMem with hOld | hNew
    · exact hPraise hOld
    · exact hPraise' hNew

theorem advises_nil : Advises lang True (.ok []) :=
  ⟨[], rfl, by simp, List.not_mem_nil⟩

/- One text, unless the rule is met. -/
theorem advises_ite
    (lang : String)
    (trips : Prop)
    [Decidable trips]
    {key : RecKey}
    (value : String)
    (hKey : key ≠ .allGood) :
    Advises lang (¬ trips)
      (.ok
        (if trips then
          [recommendation lang key value]
        else
          [])) := by
  refine ⟨_, rfl, ?_, ?_⟩
  · by_cases hTrips : trips
    · simp [hTrips]
    · simp [hTrips]
  · split
    · intro hMem
      exact
        recommendation_ne_allGood lang value hKey
          (List.mem_singleton.mp hMem).symm
    · exact List.not_mem_nil

theorem lessThan_of_isMetric
    {value : Json}
    (bound : Int)
    (hMetric : ∃ x, value.number? = some x) :
    ∃ b, value.lessThan bound = .ok b := by
  rcases hMetric with ⟨x, hNumber⟩
  unfold Json.lessThan
  rw [hNumber]
  cases x with
  | finite q => exact ⟨_, rfl⟩
  | posInf => exact ⟨_, rfl⟩
  | negInf => exact ⟨_, rfl⟩
  | nan => exact ⟨_, rfl⟩

theorem exceeds_of_isMetric
    {value : Json}
    (literal : String)
    (bound : PyFloat)
    (hMetric : ∃ x, value.number? = some x) :
    ∃ b, value.exceeds literal bound = .ok b := by
  rcases hMetric with ⟨x, hNumber⟩
  unfold Json.exceeds
  rw [hNumber]
  cases x <;> cases bound <;> exact ⟨_, rfl⟩

theorem advises_whenBelow
    {value : Json}
    (lang : String)
    (repr : Json → String)
    (key : RecKey)
    (bound : Int)
    (hKey : key ≠ .allGood)
    (hMetric : IsMetric value) :
    Advises lang (¬ Below bound value)
      (whenBelow repr lang key bound value) := by
  rcases hMetric with rfl | hNumber
  · apply advises_nil.congr
    exact ⟨fun _ h => (by cases h), fun _ => trivial⟩
  · rcases lessThan_of_isMetric bound hNumber with ⟨b, hb⟩
    have hNonnull :
        whenBelow repr lang key bound value =
          .ok
            (if b = true then
              [recommendation lang key (value.toStr repr)]
            else
              []) := by
      cases value with
      | null =>
          rcases hNumber with ⟨x, hx⟩
          cases hx
      | _ => simp only [whenBelow, hb, bind, Except.bind, pure,
          Except.pure]
    rw [hNonnull]
    apply (advises_ite lang _ _ hKey).congr
    rw [Below, hb]
    simp

theorem advises_whenAbove
    {value : Json}
    (lang : String)
    (repr : Json → String)
    (key : RecKey)
    (literal : String)
    (bound : PyFloat)
    (hKey : key ≠ .allGood)
    (hMetric : IsMetric value) :
    Advises lang (¬ Above literal bound value)
      (whenAbove repr lang key literal bound value) := by
  unfold whenAbove
  by_cases hTruthy : value.truthy = true
  · rcases hMetric with rfl | hNumber
    · cases hTruthy
    · rcases exceeds_of_isMetric literal bound hNumber with
        ⟨b, hb⟩
      rw [if_pos hTruthy, hb]
      apply (advises_ite lang _ _ hKey).congr
      rw [Above, hb]
      simp [hTruthy]
  · rw [if_neg hTruthy]
    apply advises_nil.congr
    exact ⟨fun _ h => hTruthy h.1, fun _ => trivial⟩

/- A score below 50 is also below 90. -/
theorem below_of_le
    {value : Json}
    {bound bound' : Int}
    (hLe : bound ≤ bound')
    (hBelow : Below bound value) : Below bound' value := by
  unfold Below Json.lessThan at *
  cases hNumber : value.number? with
  | none =>
      rw [hNumber] at hBelow
      cases hBelow
  | some x =>
      rw [hNumber] at hBelow
      cases x with
      | finite q =>
          have hLess : q < bound := by simpa using hBelow
          have hCast : (bound : Rat) ≤ bound' := by
            exact_mod_cast hLe
          simp [lt_of_lt_of_le hLess hCast]
      | posInf => cases hBelow
      | negInf => exact rfl
      | nan => cases hBelow

theorem advises_performanceRecs
    {value : Json}
    (lang : String)
    (repr : Json → String)
    (hMetric : IsMetric value) :
    Advises lang (¬ Below 90 value)
      (performanceRecs repr lang value) := by
  rcases
    advises_whenBelow lang repr .perfPoor 50 (by decide)
      hMetric with
    ⟨poor, hPoor, hEmpty, hPraise⟩
  unfold performanceRecs
  rw [hPoor]
  change Advises lang _ (if poor.isEmpty then _ else _)
  by_cases hNone : poor = []
  · rw [hNone]
    exact
      advises_whenBelow lang repr .perfMid 90 (by decide)
        hMetric
  · rw [if_neg (by simpa using hNone)]
    refine ⟨poor, rfl, ?_, hPraise⟩
    constructor
    · intro hSame
      exact absurd hSame hNone
    · intro hGood
      exact
        hEmpty.mpr
          (fun hBelow =>
            hGood (below_of_le (by decide) hBelow))

theorem advises_pagespeedRecs
    {d : List (AnalysisField × Json)}
    (hMetric : ∀ field, IsMetric (metric d field)) :
    Advises lang (PagespeedGood d)
      (pagespeedRecs repr lang d) := by
  have hPerf :=
    advises_performanceRecs lang repr
      (hMetric .performanceScore)
  have hLcp :=
    advises_whenAbove lang repr .lcp "float" (.finite (5 / 2))
      (by decide) (hMetric .largestContentfulPaint)
  have hTbt :=
    advises_whenAbove lang repr .tbt "int" (.finite 200)
      (by decide) (hMetric .totalBlockingTime)
  have hCls :=
    advises_whenAbove lang repr .cls "float" (toDouble (1 / 10))
      (by decide) (hMetric .cumulativeLayoutShift)
  have hSeo :=
    advises_whenBelow lang repr .seo 90 (by decide)
      (hMetric .seoScore)
  have hBp :=
    advises_whenBelow lang repr .bp 90 (by decide)
      (hMetric .bestPracticesScore)
  rcases hPerf with ⟨perf, hPerf, hPerfGood, hPerfText⟩
  rcases hLcp with ⟨lcp, hLcp, hLcpGood, hLcpText⟩
  rcases hTbt with ⟨tbt, hTbt, hTbtGood, hTbtText⟩
  rcases hCls with ⟨cls, hCls, hClsGood, hClsText⟩
  rcases hSeo with ⟨seo, hSeo, hSeoGood, hSeoText⟩
  rcases hBp with ⟨bp, hBp, hBpGood, hBpText⟩
  refine ⟨perf ++ lcp ++ tbt ++ cls ++ seo ++ bp, ?_, ?_, ?_⟩
  · simp only [pagespeedRecs, hPerf, hLcp, hTbt, hCls, hSeo,
      hBp]
    rfl
  · simp only [List.append_eq_nil_iff, hPerfGood, hLcpGood,
      hTbtGood, hClsGood, hSeoGood, hBpGood]
    constructor
    · rintro ⟨⟨⟨⟨⟨h₁, h₂⟩, h₃⟩, h₄⟩, h₅⟩, h₆⟩
      exact ⟨h₁, h₂, h₃, h₄, h₅, h₆⟩
    · intro hGood
      exact
        ⟨⟨⟨⟨⟨hGood.performance, hGood.lcp⟩, hGood.tbt⟩,
          hGood.cls⟩, hGood.seo⟩, hGood.bestPractices⟩
  · simp only [List.mem_append, not_or]
    exact
      ⟨⟨⟨⟨⟨hPerfText, hLcpText⟩, hTbtText⟩, hClsText⟩,
        hSeoText⟩, hBpText⟩

theorem advises_whenPositive
    (lang : String)
    (key : RecKey)
    (n : Int)
    (hKey : key ≠ .allGood) :
    Advises lang (n ≤ 0) (.ok (whenPositive lang key n)) := by
  apply (advises_ite lang _ _ hKey).congr
  exact not_lt

theorem advises_accessibilityRecs
    (t : Audits.Totals) :
    Advises lang (AccessibilityGood t)
      (.ok (accessibilityRecs lang t)) := by
  have hErrors :=
    advises_whenPositive lang .a11yErrors t.totalErrors
      (by decide)
  have hContrast :=
    advises_whenPositive lang .a11yContrast
      t.totalContrastErrors (by decide)
  apply (hErrors.append hContrast).congr
  exact ⟨fun h => ⟨h.1, h.2⟩, fun h => ⟨h.1, h.2⟩⟩

theorem advises_gradeRecs
    (lang : String)
    (c : SSLColumns) :
    Advises lang
      (gradeOf c ≠ "" → gradeOf c ∈ ["A+", "A"])
      (.ok (gradeRecs lang c)) := by
  apply (advises_ite lang _ c.grade (by decide)).congr
  rw [not_and, not_not]

theorem advises_expiryRecs
    (c : SSLColumns) :
    Advises lang
      (∀ days, c.certExpiresInDays = some days → 30 ≤ days)
      (.ok (expiryRecs lang c)) := by
  unfold expiryRecs
  cases c.certExpiresInDays with
  | none =>
      apply advises_nil.congr
      exact ⟨fun _ days h => (by cases h), fun _ => trivial⟩
  | some days =>
      apply (advises_ite lang _ _ (by decide)).congr
      constructor
      · intro hLate days' hSame
        cases hSame
        omega
      · intro hAll
        have hLate := hAll days rfl
        omega

theorem advises_vulnerabilityRecs
    (entries : List (String × Json)) :
    Advises lang
      (∀ entry ∈ entries, entry.2.truthy = false)
      (.ok (vulnerabilityRecs lang entries)) := by
  have hIte :
      vulnerabilityRecs lang entries =
        if (∃ entry ∈ entries, entry.2.truthy = true) then
          [recommendation lang .sslVuln
            (", ".intercalate
              ((entries.filter
                (fun item => item.2.truthy)).map Prod.fst))]
        else
          [] := by
    unfold vulnerabilityRecs
    dsimp only
    by_cases hFound :
        ∃ entry ∈ entries, entry.2.truthy = true
    · rw [if_pos hFound, if_neg]
      rcases hFound with ⟨entry, hMem, hTruthy⟩
      intro hEmpty
      have hFilter :
          entries.filter (fun item => item.2.truthy) = [] := by
        simpa using hEmpty
      have hFalse :=
        List.filter_eq_nil_iff.mp hFilter entry hMem
      exact hFalse hTruthy
    · rw [if_neg hFound, if_pos]
      have hFilter :
          entries.filter (fun item => item.2.truthy) = [] := by
        apply List.filter_eq_nil_iff.mpr
        intro entry hMem hTruthy
        exact hFound ⟨entry, hMem, hTruthy⟩
      rw [hFilter]
      rfl
  rw [hIte]
  apply (advises_ite lang _ _ (by decide)).congr
  simp

theorem advises_sslRecs
    {c : SSLColumns}
    (hItems : ∃ entries, vulnerabilityItems c = .ok entries) :
    Advises lang (SslGood c) (sslRecs lang c) := by
  rcases hItems with ⟨entries, hEntries⟩
  have hParts :=
    ((advises_gradeRecs lang c).append
      (advises_expiryRecs c)).append
        (advises_vulnerabilityRecs entries)
  unfold sslRecs
  rw [hEntries]
  apply hParts.congr
  constructor
  · rintro ⟨⟨hGrade, hExpiry⟩, hNone⟩
    refine ⟨hGrade, hExpiry, ?_⟩
    intro entries' hSame
    rw [hEntries] at hSame
    cases hSame
    exact hNone
  · intro hGood
    exact
      ⟨⟨hGood.grade, hGood.expiry⟩,
        hGood.vulnerabilities entries hEntries⟩

theorem vulnerabilityItems_obj
    {c : SSLColumns}
    {entries : List (String × Json)}
    (hSame : c.vulnerabilities = .obj entries) :
    vulnerabilityItems c = .ok entries := by
  rw [vulnerabilityItems, hSame]
  cases entries with
  | nil => rfl
  | cons entry rest => rfl

theorem advises_linksRecs
    (d : LinkSummary) :
    Advises lang (d.broken = 0) (.ok (linksRecs lang d)) := by
  apply (advises_whenPositive lang .links _ (by decide)).congr
  omega

theorem advises_structuredDataRecs
    (d : SchemaSummary) :
    Advises lang (StructuredDataGood d)
      (.ok (structuredDataRecs lang d)) := by
  unfold structuredDataRecs
  by_cases hFound : d.totalSchemas = 0
  · rw [if_pos hFound]
    refine ⟨_, rfl, ?_, ?_⟩
    · constructor
      · intro hSame
        cases hSame
      · intro hGood
        exact absurd hFound hGood.found
    · intro hMem
      exact
        recommendation_ne_allGood lang ""
          (by decide : RecKey.sdMissing ≠ .allGood)
          (List.mem_singleton.mp hMem).symm
  · rw [if_neg hFound]
    have hErrors :=
      advises_whenPositive lang .sdErrors
        (d.totalErrors : Int) (by decide)
    have hRich :=
      advises_ite lang (d.richResultEligible = 0) ""
        (by decide : RecKey.sdRich ≠ .allGood)
    apply (hErrors.append hRich).congr
    constructor
    · rintro ⟨hNone, hSome⟩
      exact ⟨hFound, by omega, hSome⟩
    · intro hGood
      have hNone := hGood.errors
      exact ⟨by omega, hGood.rich⟩

/- The rules of a tool, where it ran. -/
theorem advises_tool
    {D : Type}
    {good : D → Prop}
    {rules : D → Except PyError (List String)}
    {tool : ToolResult D}
    (hRules :
      ∀ d, tool = .ok d → Advises lang (good d) (rules d)) :
    Advises lang (tool.All good) (tool.recs rules) := by
  cases tool with
  | ok d =>
      apply (hRules d rfl).congr
      constructor
      · intro hGood d' hSame
        cases hSame
        exact hGood
      · intro hAll
        exact hAll d rfl
  | failed m =>
      apply advises_nil.congr
      exact ⟨fun _ d h => (by cases h), fun _ => trivial⟩
  | skipped =>
      apply advises_nil.congr
      exact ⟨fun _ d h => (by cases h), fun _ => trivial⟩

end Advice

/- The praise is all that an unimprovable report gets. -/
theorem buildRecommendations_praise_iff
    {report : Report}
    (lang : String)
    (repr : Json → String)
    (hFormed : WellFormed report) :
    buildRecommendations repr lang report =
        .ok [praise lang] ↔
      Unimprovable report := by
  have hPagespeed :
      Advises lang (report.pagespeed.All PagespeedGood)
        (report.pagespeed.recs (pagespeedRecs repr lang)) := by
    apply advises_tool
    intro d hOk
    exact advises_pagespeedRecs (hFormed.pagespeed d hOk)
  have hWave :
      Advises lang (report.accessibility.All AccessibilityGood)
        (report.accessibility.recs
          (fun d => .ok (accessibilityRecs lang d))) := by
    apply advises_tool
    exact fun d _ => advises_accessibilityRecs d
  have hSsl :
      Advises lang (report.ssl.All SslGood)
        (report.ssl.recs (sslRecs lang)) := by
    apply advises_tool
    intro c hOk
    apply advises_sslRecs
    rcases (hFormed.ssl c hOk).items with ⟨entries, hSame⟩
    exact ⟨entries, vulnerabilityItems_obj hSame⟩
  have hLinks :
      Advises lang
        (report.links.All (fun d => d.broken = 0))
        (report.links.recs
          (fun d => .ok (linksRecs lang d))) := by
    apply advises_tool
    exact fun d _ => advises_linksRecs d
  have hSd :
      Advises lang
        (report.structuredData.All StructuredDataGood)
        (report.structuredData.recs
          (fun d => .ok (structuredDataRecs lang d))) := by
    apply advises_tool
    exact fun d _ => advises_structuredDataRecs d
  rcases hPagespeed with ⟨ps, hPs, hPsGood, hPsText⟩
  rcases hWave with ⟨wave, hWave, hWaveGood, hWaveText⟩
  rcases hSsl with ⟨ssl, hSsl, hSslGood, hSslText⟩
  rcases hLinks with ⟨links, hLinks, hLinksGood, hLinksText⟩
  rcases hSd with ⟨sd, hSd, hSdGood, hSdText⟩
  have hBuild :
      buildRecommendations repr lang report =
        .ok
          (if (ps ++ wave ++ ssl ++ links ++ sd).isEmpty then
            [praise lang]
          else
            ps ++ wave ++ ssl ++ links ++ sd) := by
    simp only [buildRecommendations, hPs, hWave, hSsl, hLinks,
      hSd]
    rfl
  have hEmpty :
      ps ++ wave ++ ssl ++ links ++ sd = [] ↔
        Unimprovable report := by
    simp only [List.append_eq_nil_iff, hPsGood, hWaveGood,
      hSslGood, hLinksGood, hSdGood]
    constructor
    · rintro ⟨⟨⟨⟨h₁, h₂⟩, h₃⟩, h₄⟩, h₅⟩
      exact ⟨h₁, h₂, h₃, h₄, h₅⟩
    · intro hGood
      exact
        ⟨⟨⟨⟨hGood.pagespeed, hGood.accessibility⟩,
          hGood.ssl⟩, hGood.links⟩, hGood.structuredData⟩
  rw [hBuild, ← hEmpty]
  constructor
  · intro hSame
    by_contra hNonempty
    rw [if_neg (by simpa using hNonempty)] at hSame
    have hMem :
        praise lang ∈ ps ++ wave ++ ssl ++ links ++ sd := by
      rw [Except.ok.inj hSame]
      exact List.mem_cons_self
    simp only [List.mem_append] at hMem
    rcases hMem with (((hIn | hIn) | hIn) | hIn) | hIn
    · exact hPsText hIn
    · exact hWaveText hIn
    · exact hSslText hIn
    · exact hLinksText hIn
    · exact hSdText hIn
  · intro hNone
    rw [hNone]
    rfl

------------------------------------------------------------
-- Scores Without Advice
------------------------------------------------------------

/- What the data of a tool adds, where it ran. -/
def ToolResult.list
    {D : Type}
    (f : D → List Int) : ToolResult D → List Int
| .ok d => f d
| _ => []

/- The scores that the rules keep high. -/
def safeScores (report : Report) : List Int :=
  report.accessibility.list (fun _ => [100]) ++
    report.ssl.list
      (fun c => if gradeOf c = "A+" then [100] else [95]) ++
    report.links.list
      (fun d => if d.totalLinks = 0 then [] else [100]) ++
    report.structuredData.list (fun _ => [100])

/-
  The means of the PageSpeed and of the GTmetrix scores, which
  no rule keeps high, do not spoil the overall mean.
-/
def Sufficient (report : Report) : Prop :=
  ∃ pagespeed gtmetrix,
    report.pagespeed.subScore pagespeedScore =
        .ok pagespeed ∧
      report.gtmetrix.subScore gtmetrixScore = .ok gtmetrix ∧
        Passes (pagespeed ++ gtmetrix ++ safeScores report)

theorem toDouble_hundred :
    toDouble 100 = .finite 100 := by
  decide +kernel

theorem roundFloat_hundred :
    Json.roundFloat (.finite 100) = .ok 100 :=
  congrArg Except.ok
    (by decide +kernel : roundHalfEven 100 = 100)

theorem hundred_in_range :
    |((100 : Int) : Rat)| ≤ maxDouble :=
  roundedMean_range
    (by
      decide +kernel :
        roundedMean [.int 100] = .ok (some 100))

theorem divideCount_all
    {n : Nat}
    (hNonzero : n ≠ 0) :
    (Json.int (100 * n)).divideCount n =
      .ok (.finite 100) := by
  have hCast : (n : Rat) ≠ 0 := by exact_mod_cast hNonzero
  have hQuotient : ((100 * n : Int) : Rat) / n = 100 := by
    push_cast
    exact mul_div_cancel_right₀ 100 hCast
  simp only [Json.divideCount, hQuotient, toDouble_hundred]

theorem accessibilityScore_good
    {t : Audits.Totals}
    (hGood : AccessibilityGood t) :
    accessibilityScore t = 100 := by
  have hErrors := hGood.errors
  have hContrast := hGood.contrast
  unfold accessibilityScore clamp
  omega

theorem sslScore_good
    {c : SSLColumns}
    (hGraded : Graded c)
    (hGood : SslGood c) :
    sslScore c =
      .ok (some (if gradeOf c = "A+" then 100 else 95)) := by
  have hNonempty : gradeOf c ≠ "" := by
    intro hEmpty
    have hMem := hGraded.grade
    rw [hEmpty] at hMem
    exact absurd hMem (by decide)
  have hGrade := hGood.grade hNonempty
  have hTrusted : c.certIsTrusted ≠ some false := by
    intro hUntrusted
    have hLow := hGraded.untrusted hUntrusted
    rcases List.mem_cons.mp hGrade with hSame | hSecond
    · rw [hSame] at hLow
      exact absurd hLow (by decide)
    · rw [List.mem_singleton.mp hSecond] at hLow
      exact absurd hLow (by decide)
  rcases hGraded.items with ⟨entries, hEntries⟩
  have hItems := vulnerabilityItems_obj hEntries
  have hNone :
      entries.any (fun item => item.2.truthy) = false :=
    List.any_eq_false.mpr
      (fun entry hMem => by
        rw [hGood.vulnerabilities entries hItems entry hMem]
        exact Bool.false_ne_true)
  have hScore :
      ∀ base : Int,
        sslGradeScore.lookup (gradeOf c) = some base →
          sslScore c = .ok (some base) := by
    intro base hBase
    simp [sslScore, hBase, hItems, hNone, hTrusted, bind,
      Except.bind, pure, Except.pure]
  rcases List.mem_cons.mp hGrade with hSame | hSecond
  · rw [if_pos hSame]
    apply hScore
    rw [hSame]
    rfl
  · have hSame := List.mem_singleton.mp hSecond
    rw [if_neg (by rw [hSame]; decide)]
    apply hScore
    rw [hSame]
    rfl

theorem linksScore_good
    {d : LinkSummary}
    (hGood : d.broken = 0) :
    linksScore d =
      .ok (if d.totalLinks = 0 then none else some 100) := by
  unfold linksScore
  by_cases hZero : d.totalLinks = 0
  · rw [if_pos hZero, if_pos hZero]
  · rw [if_neg hZero, if_neg hZero, hGood]
    have hSub :
        (d.totalLinks : Int) - (0 : Nat) = d.totalLinks := by
      omega
    rw [hSub, divideCount_all hZero]
    simp only [bind, Except.bind, roundFloat_hundred]
    rfl

theorem structuredDataScore_good
    {d : SchemaSummary}
    (hGood : StructuredDataGood d)
    (hValid : d.validSchemas = d.totalSchemas) :
    structuredDataScore d = .ok (some 100) := by
  unfold structuredDataScore
  rw [if_neg hGood.found, hValid, hGood.errors,
    divideCount_all hGood.found]
  have hPenalty :
      (Json.int (-(5 * ((0 : Nat) : Int)))).toFloat =
        .ok (.finite 0) := rfl
  have hSum :
      PyFloat.add (.finite 100) (.finite 0) = .finite 100 := by
    decide +kernel
  rw [hPenalty]
  simp only [bind, Except.bind, hSum, roundFloat_hundred]
  rfl

theorem subScore_eq_list
    {D : Type}
    {tool : ToolResult D}
    {scorer : D → Except PyError (Option Int)}
    {f : D → List Int}
    (hScore :
      ∀ d, tool = .ok d →
        (scorer d).map Option.toList = .ok (f d)) :
    tool.subScore scorer = .ok (tool.list f) := by
  cases tool with
  | ok d => exact hScore d rfl
  | failed m => rfl
  | skipped => rfl

/- Without advice, all other scores are the safe ones. -/
theorem subScores_of_unimprovable
    {report : Report}
    {pagespeed gtmetrix : List Int}
    (hFormed : WellFormed report)
    (hGood : Unimprovable report)
    (hPagespeed :
      report.pagespeed.subScore pagespeedScore =
        .ok pagespeed)
    (hGtmetrix :
      report.gtmetrix.subScore gtmetrixScore =
        .ok gtmetrix) :
    subScores report =
      .ok (pagespeed ++ gtmetrix ++ safeScores report) := by
  have hWave :
      report.accessibility.subScore
          (fun d => .ok (some (accessibilityScore d))) =
        .ok (report.accessibility.list (fun _ => [100])) := by
    apply subScore_eq_list
    intro t hTool
    rw [accessibilityScore_good (hGood.accessibility t hTool)]
    rfl
  have hSsl :
      report.ssl.subScore sslScore =
        .ok
          (report.ssl.list
            (fun c =>
              if gradeOf c = "A+" then [100] else [95])) := by
    apply subScore_eq_list
    intro c hTool
    rw [sslScore_good (hFormed.ssl c hTool)
      (hGood.ssl c hTool)]
    by_cases hBest : gradeOf c = "A+"
    · rw [if_pos hBest, if_pos hBest]
      rfl
    · rw [if_neg hBest, if_neg hBest]
      rfl
  have hLinks :
      report.links.subScore linksScore =
        .ok
          (report.links.list
            (fun d =>
              if d.totalLinks = 0 then [] else [100])) := by
    apply subScore_eq_list
    intro d hTool
    rw [linksScore_good (hGood.links d hTool)]
    by_cases hNone : d.totalLinks = 0
    · rw [if_pos hNone, if_pos hNone]
      rfl
    · rw [if_neg hNone, if_neg hNone]
      rfl
  have hSd :
      report.structuredData.subScore structuredDataScore =
        .ok (report.structuredData.list (fun _ => [100])) := by
    apply subScore_eq_list
    intro d hTool
    have hData := hGood.structuredData d hTool
    rw [structuredDataScore_good hData
      (hFormed.structuredData d hTool hData.errors)]
    rfl
  simp only [subScores, hPagespeed, hGtmetrix, hWave, hSsl,
    hLinks, hSd, safeScores, List.append_assoc]
  rfl

/- At most one score, in the range of the finite numbers. -/
structure AtMostOne (subs : List Int) : Prop where
  length : subs.length ≤ 1
  range : ∀ n ∈ subs, |(n : Rat)| ≤ maxDouble

theorem atMostOne_nil : AtMostOne [] where
  length := Nat.zero_le 1
  range := fun _ hMem => by cases hMem

theorem atMostOne_singleton
    {n : Int}
    (hRange : |(n : Rat)| ≤ maxDouble) : AtMostOne [n] where
  length := Nat.le_refl 1
  range := fun _ hMem => by
    rw [List.mem_singleton.mp hMem]
    exact hRange

theorem atMostOne_list
    {D : Type}
    {f : D → List Int}
    (tool : ToolResult D)
    (hAll : ∀ d, AtMostOne (f d)) :
    AtMostOne (tool.list f) := by
  cases tool with
  | ok d => exact hAll d
  | failed m => exact atMostOne_nil
  | skipped => exact atMostOne_nil

theorem atMostOne_subScore
    {D : Type}
    {tool : ToolResult D}
    {values : D → List Json}
    {subs : List Int}
    (hSubs :
      tool.subScore (fun d => meanScore (values d)) =
        .ok subs) :
    AtMostOne subs := by
  cases tool with
  | ok d =>
      cases hMean : meanScore (values d) with
      | error e =>
          rw [ToolResult.subScore, hMean] at hSubs
          cases hSubs
      | ok score =>
          rw [ToolResult.subScore, hMean] at hSubs
          cases hSubs
          cases score with
          | none => exact atMostOne_nil
          | some s =>
              exact
                atMostOne_singleton (roundedMean_range hMean)
  | failed m =>
      cases hSubs
      exact atMostOne_nil
  | skipped =>
      cases hSubs
      exact atMostOne_nil

theorem AtMostOne.append
    {n : Nat}
    {subs subs' : List Int}
    (hBefore :
      subs.length ≤ n ∧ ∀ s ∈ subs, |(s : Rat)| ≤ maxDouble)
    (hOne : AtMostOne subs') :
    (subs ++ subs').length ≤ n + 1 ∧
      ∀ s ∈ subs ++ subs', |(s : Rat)| ≤ maxDouble := by
  have hLength := hOne.length
  constructor
  · rw [List.length_append]
    omega
  · intro s hMem
    rcases List.mem_append.mp hMem with hOld | hNew
    · exact hBefore.2 s hOld
    · exact hOne.range s hNew

/- The scores of the six tools. -/
theorem scores_bounds
    {report : Report}
    {pagespeed gtmetrix : List Int}
    (hPagespeed :
      report.pagespeed.subScore pagespeedScore =
        .ok pagespeed)
    (hGtmetrix :
      report.gtmetrix.subScore gtmetrixScore =
        .ok gtmetrix) :
    (pagespeed ++ gtmetrix ++ safeScores report).length ≤ 6 ∧
      ∀ s ∈ pagespeed ++ gtmetrix ++ safeScores report,
        |(s : Rat)| ≤ maxDouble := by
  have hHundred := atMostOne_singleton hundred_in_range
  have hAlmost : |((95 : Int) : Rat)| ≤ maxDouble := by
    have hRange := hundred_in_range
    rw [abs_of_nonneg (by norm_num)] at hRange ⊢
    push_cast at hRange ⊢
    linarith
  have hP : AtMostOne pagespeed :=
    atMostOne_subScore hPagespeed
  have hG : AtMostOne gtmetrix := atMostOne_subScore hGtmetrix
  have hWave :=
    atMostOne_list report.accessibility
      (fun _ => hHundred)
  have hSsl :=
    atMostOne_list report.ssl
      (f := fun c =>
        if gradeOf c = "A+" then [100] else [95])
      (fun c => by
        split
        · exact hHundred
        · exact atMostOne_singleton hAlmost)
  have hLinks :=
    atMostOne_list report.links
      (f := fun d => if d.totalLinks = 0 then [] else [100])
      (fun d => by
        split
        · exact atMostOne_nil
        · exact hHundred)
  have hSd :=
    atMostOne_list report.structuredData
      (fun _ => hHundred)
  have hAll :=
    hSd.append
      (hLinks.append
        (hSsl.append
          (hWave.append
            (hG.append
              (n := 1) ⟨hP.length, hP.range⟩))))
  simp only [safeScores, ← List.append_assoc]
  exact hAll

------------------------------------------------------------
-- Praise
------------------------------------------------------------

/- Some tool ran with status `ok`. -/
def SomeToolRan (report : Report) : Prop :=
  (∃ d, report.pagespeed = .ok d) ∨
    (∃ d, report.gtmetrix = .ok d) ∨
      (∃ d, report.accessibility = .ok d) ∨
        (∃ c, report.ssl = .ok c) ∨
          (∃ d, report.links = .ok d) ∨
            ∃ d, report.structuredData = .ok d

/- A report that is praised has run a tool, and passes. -/
def PraiseIsEarned
    (repr : Json → String)
    (lang : String)
    (report : Report) : Prop :=
  buildRecommendations repr lang report = .ok [praise lang] →
    SomeToolRan report ∧
      ∃ s, overallScore report = .ok (some s) ∧
        passThreshold ≤ s

theorem someToolRan_of_scores
    {report : Report}
    {subs : List Int}
    (hSubs : subScores report = .ok subs)
    (hNonempty : subs ≠ []) : SomeToolRan report := by
  by_contra hNone
  simp only [SomeToolRan, not_or, not_exists] at hNone
  apply hNonempty
  have hSkip :
      ∀ {D : Type} {tool : ToolResult D}
        (scorer : D → Except PyError (Option Int)),
        (∀ d, tool ≠ .ok d) →
          tool.subScore scorer = .ok [] := by
    intro D tool scorer hTool
    cases tool with
    | ok d => exact absurd rfl (hTool d)
    | failed m => rfl
    | skipped => rfl
  simp only [subScores, hSkip _ hNone.1, hSkip _ hNone.2.1,
    hSkip _ hNone.2.2.1, hSkip _ hNone.2.2.2.1,
    hSkip _ hNone.2.2.2.2.1, hSkip _ hNone.2.2.2.2.2]
    at hSubs
  exact (Except.ok.inj hSubs).symm

/-
  The report that is produced keeps its praise for passing
  sites exactly when a rule is not met, or the scores that no
  rule looks at are high enough.
-/
theorem praiseIsEarned_iff
    (platform : Platform)
    (setting : List String)
    (answers : Answers)
    (url lang : String) :
    PraiseIsEarned platform.repr lang
        (runFullReport platform setting answers url) ↔
      (Unimprovable
          (runFullReport platform setting answers url) →
        Sufficient
          (runFullReport platform setting answers url)) := by
  generalize hReport :
    runFullReport platform setting answers url = report
  have hFormed : WellFormed report := by
    rw [← hReport]
    exact wellFormed_runFullReport platform setting answers url
  rw [PraiseIsEarned,
    buildRecommendations_praise_iff lang platform.repr hFormed]
  constructor
  · intro hEarned hGood
    rcases (hEarned hGood).2 with ⟨s, hScore, hPasses⟩
    rcases (bind_eq_ok_iff _ _ _).mp hScore with
      ⟨subs, hSubs, -⟩
    have hParts := hSubs
    simp only [subScores, bind_eq_ok_iff] at hParts
    rcases hParts with
      ⟨pagespeed, hPagespeed, gtmetrix, hGtmetrix, -⟩
    have hSame :=
      subScores_of_unimprovable hFormed hGood hPagespeed
        hGtmetrix
    have hBounds := scores_bounds hPagespeed hGtmetrix
    exact
      ⟨pagespeed, gtmetrix, hPagespeed, hGtmetrix,
        (overallScore_passes_iff hSame hBounds.1
          hBounds.2).mp ⟨s, hScore, hPasses⟩⟩
  · intro hEnough hGood
    rcases hEnough hGood with
      ⟨pagespeed, gtmetrix, hPagespeed, hGtmetrix, hPasses⟩
    have hSame :=
      subScores_of_unimprovable hFormed hGood hPagespeed
        hGtmetrix
    have hBounds := scores_bounds hPagespeed hGtmetrix
    exact
      ⟨someToolRan_of_scores hSame hPasses.1,
        (overallScore_passes_iff hSame hBounds.1
          hBounds.2).mpr hPasses⟩

/- No library is asked for anything. -/
def idlePlatform : Platform where
  repr := fun _ => ""
  isoformat := fun _ => ""
  links :=
    { lower := fun s => s
      urljoin := fun _ url => .ok url
      urlparse := fun _ => .ok { scheme := "", netloc := "" }
      soup := fun _ => .nil
      canFetch := fun _ _ => .ok true
      statusMessage := fun _ _ => "" }
  schemas :=
    { python :=
        { loadsDepth := 1
          callDepth := 1
          callable := Nat.one_pos
          loadsMessage := fun _ => "" }
      soup := fun _ => .nil
      repr := fun _ => ""
      dumpDepth := 0 }

/- Nothing can be reached. -/
def downAnswers : Answers where
  pagespeed := .error (.other "unreachable")
  gtmetrix := .error (.other "unreachable")
  wave := .error (.other "unreachable")
  hostname := .ok none
  scan := fun _ => .error (.other "unreachable")
  now := 0
  pageHtml := .error (.other "unreachable")
  checkLink := fun _ => .error (.other "unreachable")
  client := fun _ => .otherError "unreachable"

/- A site that is down is praised, without a score. -/
theorem unreachable_site_praised :
    ¬ PraiseIsEarned idlePlatform.repr "en"
      (runFullReport idlePlatform (Tool.all.map Tool.key)
        downAnswers "https://example.com/") := by
  intro hEarned
  have hPraise :
      buildRecommendations idlePlatform.repr "en"
          (runFullReport idlePlatform (Tool.all.map Tool.key)
            downAnswers "https://example.com/") =
        .ok [praise "en"] := by
    rfl
  rcases (hEarned hPraise).2 with ⟨s, hScore, -⟩
  have hNone :
      overallScore
          (runFullReport idlePlatform (Tool.all.map Tool.key)
            downAnswers "https://example.com/") =
        .ok none := by
    rfl
  rw [hNone] at hScore
  cases hScore

end SiteAnalysis.FullReport
