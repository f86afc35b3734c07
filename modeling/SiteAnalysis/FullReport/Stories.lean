import SiteAnalysis.FullReport.Rendering

/-
  This file proves that the PDF of an English report is
  built whatever the tools came back with, as long as their
  texts hold no broken markup, and that it is laid out as in
  Arabic, from the other side.

  Key definitions include:
    * `Printable`

  Key theorems include:
    * `yields_story`
-/

------------------------------------------------------------
-- Laid Out
------------------------------------------------------------

namespace SiteAnalysis.FullReport

open Markup
open Python
open Reports

section Layouts

variable {π : Type} {lang : Lang}
variable {pages pages' : List (Flowable π)}
variable {shapes shapes' : List Shape}

theorem laidOut_nil :
    LaidOut lang ([] : List (Flowable π)) [] :=
  List.Forall₂.nil

theorem LaidOut.cons
    {flowable : Flowable π}
    {shape : Shape}
    (hPages : LaidOut lang pages shapes)
    (hFirst : flowable.Fits (shape.turned lang)) :
    LaidOut lang (flowable :: pages) (shape :: shapes) :=
  List.Forall₂.cons hFirst hPages

theorem LaidOut.append
    (hPages : LaidOut lang pages shapes)
    (hPages' : LaidOut lang pages' shapes') :
    LaidOut lang (pages ++ pages') (shapes ++ shapes') := by
  unfold LaidOut
  rw [List.map_append]
  exact List.rel_append hPages hPages'

theorem LaidOut.spacer
    (height : Rat)
    (hPages : LaidOut lang pages shapes) :
    LaidOut lang (.spacer height :: pages)
      (.spacer height :: shapes) :=
  hPages.cons rfl

theorem LaidOut.paragraph
    (p : π)
    (hPages : LaidOut lang pages shapes) :
    LaidOut lang (.paragraph p :: pages)
      (.paragraph :: shapes) :=
  hPages.cons trivial

end Layouts

------------------------------------------------------------
-- Values
------------------------------------------------------------

section Values

variable {repr : Json → String}

theorem isMarkup_toStr
    {value : Json}
    (hFloats : ∀ x, IsMarkup (repr (.float x)))
    (hMetric : IsMetric value) :
    IsMarkup (value.toStr repr) := by
  rcases hMetric with rfl | ⟨x, hNumber⟩
  · exact isMarkup_literal _ (by decide)
  · cases value with
    | bool b =>
        cases b <;> exact isMarkup_literal _ (by decide)
    | int n => exact isMarkup_int n
    | float x => exact hFloats x
    | null => cases hNumber
    | str s => cases hNumber
    | arr items => cases hNumber
    | obj fields => cases hNumber

theorem isMarkup_fmt
    {suffix : String}
    {value : Json}
    (hSuffix : IsMarkup suffix)
    (hValue : IsMarkup (value.toStr repr)) :
    IsMarkup (fmt repr suffix value) := by
  cases value with
  | null => exact isMarkup_literal _ (by decide)
  | _ => exact hValue.append hSuffix

theorem isMarkup_orDash
    {text : String}
    (hText : IsMarkup text) : IsMarkup (orDash text) := by
  unfold orDash
  split
  · exact isMarkup_literal _ (by decide)
  · exact hText

theorem isMarkup_or
    {value : Json}
    (hValue : IsMarkup (value.toStr repr)) :
    IsMarkup ((value.or (.str "—")).toStr repr) := by
  unfold Json.or
  split
  · exact hValue
  · exact isMarkup_literal _ (by decide)

theorem atLeast_of_isMetric
    {value : Json}
    (bound : Int)
    (hMetric : ∃ x, value.number? = some x) :
    ∃ b, value.atLeast bound = .ok b := by
  rcases hMetric with ⟨x, hNumber⟩
  unfold Json.atLeast
  rw [hNumber]
  cases x with
  | finite q => exact ⟨_, rfl⟩
  | posInf => exact ⟨_, rfl⟩
  | negInf => exact ⟨_, rfl⟩
  | nan => exact ⟨_, rfl⟩

/- A number is rated by one of the labels. -/
theorem rating_of_isMetric
    {value : Json}
    (lang : Lang)
    (hMetric : IsMetric value) :
    ∃ key tints, rating lang value = .ok (label lang key, tints) := by
  rcases hMetric with rfl | hNumber
  · exact ⟨.na, _, rfl⟩
  · rcases atLeast_of_isMetric 90 hNumber with ⟨good, hGood⟩
    rcases atLeast_of_isMetric 50 hNumber with ⟨warn, hWarn⟩
    have hRating :
        rating lang value =
          .ok
            (if good = true then
              (label lang .good, .good, .goodBg)
            else if warn = true then
              (label lang .warn, .warn, .warnBg)
            else
              (label lang .poor, .poor, .poorBg)) := by
      cases value with
      | null =>
          rcases hNumber with ⟨x, hx⟩
          cases hx
      | _ =>
          simp only [rating, hGood, hWarn, bind, Except.bind]
          cases good <;> cases warn <;> rfl
    rw [hRating]
    cases good with
    | true => exact ⟨.good, _, rfl⟩
    | false =>
        cases warn with
        | true => exact ⟨.warn, _, rfl⟩
        | false => exact ⟨.poor, _, rfl⟩

end Values

------------------------------------------------------------
-- Blocks
------------------------------------------------------------

section Blocks

variable {π : Type} {w : Writer π} {C : Prop}

theorem yields_scoreCard
    {card : String × Json}
    (hLegible : Legible C w)
    (hFloats : C → ∀ x, IsMarkup (w.press.repr (.float x)))
    (hLabel : C → IsMarkup card.1)
    (hScore : C → IsMetric card.2) :
    Yields C (w.scoreCard card) (fun _ => True) := by
  have hRated :
      Yields C (rating w.lang card.2)
        (fun rated => C → IsMarkup rated.1) := by
    cases hRating : rating w.lang card.2 with
    | error e =>
        intro hC
        rcases rating_of_isMetric w.lang (hScore hC) with
          ⟨key, tints, hOk⟩
        rw [hRating] at hOk
        cases hOk
    | ok rated =>
        intro hC
        rcases rating_of_isMetric w.lang (hScore hC) with
          ⟨key, tints, hOk⟩
        rw [hRating] at hOk
        cases hOk
        exact hLegible.isMarkup_tr key hC
  refine yields_bind (yields_fromPython hRated) ?_
  intro rated hRate
  refine
    yields_bind
      (yields_paragraph hLegible _ fun hC =>
        isMarkup_coloured _
          (hLegible.isMarkup_t
            (fun hC =>
              isMarkup_fmt (isMarkup_literal _ (by decide))
                (isMarkup_toStr (hFloats hC) (hScore hC)))
            hC)) ?_
  intro number _
  refine
    yields_bind
      (yields_paragraph hLegible _ fun hC =>
        isMarkup_coloured _
          (hLegible.isMarkup_t hRate hC)) ?_
  intro rate _
  refine yields_bind (yields_p hLegible _ hLabel) ?_
  intro caption _
  exact yields_pure trivial

theorem yields_scoreCards
    {scores : List (String × Json)}
    (hLegible : Legible C w)
    (hFloats : C → ∀ x, IsMarkup (w.press.repr (.float x)))
    (hCards :
      ∀ card ∈ scores,
        (C → IsMarkup card.1) ∧ (C → IsMetric card.2)) :
    Yields C (w.scoreCards scores)
      (fun cards =>
        cards.Fits
          ((Shape.table 1
            (List.replicate scores.length
              (174 / scores.length))).turned w.lang)) := by
  refine
    yields_bind
      (yields_mapM scores fun card hMem =>
        yields_scoreCard hLegible hFloats
          (hCards card hMem).1 (hCards card hMem).2) ?_
  rintro cards ⟨hLength, -⟩
  refine
    yields_pure
      (fits_symmetric List.reverse_replicate ?_)
  intro row hMem
  rw [List.mem_singleton.mp hMem]
  simp [hLength]

/- A column of one cell in each row, as wide as the page. -/
theorem fits_column
    {rows : List (List (Block π))}
    {width : Rat}
    {marks : List Mark}
    (hCells : ∀ row ∈ rows, row.length = 1) :
    (Flowable.grid rows [width] marks).Fits
      ((Shape.table rows.length [width]).turned w.lang) :=
  fits_symmetric rfl hCells

theorem yields_sectionTitle
    (hLegible : Legible C w)
    (num : Nat)
    (key : LabelKey) :
    Yields C (w.sectionTitle num (w.tr key))
      (fun title =>
        title.Fits ((Shape.table 1 [174]).turned w.lang)) := by
  refine
    yields_bind
      (yields_p hLegible _ fun hC =>
        ((isMarkup_nat num).append
          (isMarkup_literal _ (by decide))).append
          (hLegible.isMarkup_tr key hC)) ?_
  intro para _
  exact yields_pure (fits_column (by simp))

theorem yields_banner
    (hLegible : Legible C w) :
    Yields C w.banner
      (fun banner =>
        banner.Fits ((Shape.table 2 [174]).turned w.lang)) := by
  refine yields_bind (yields_label hLegible .title _) ?_
  intro title _
  refine yields_bind (yields_label hLegible .subtitle _) ?_
  intro subtitle _
  exact yields_pure (fits_column (by simp))

theorem yields_gradeBadge
    {grade : String}
    (hLegible : Legible C w)
    (hGrade : C → IsMarkup grade) :
    Yields C (w.gradeBadge grade)
      (fun badge =>
        badge.Fits ((Shape.table 1 [55]).turned w.lang)) := by
  refine
    yields_bind
      (yields_paragraph hLegible _ fun hC =>
        isMarkup_coloured _
          (isMarkup_orDash (hGrade hC))) ?_
  intro number _
  refine yields_bind (yields_label hLegible .sslGrade _) ?_
  intro caption _
  exact yields_pure (fits_column (by simp))

theorem yields_summaryBox
    (hLegible : Legible C w)
    (score : Option Int) :
    Yields C (w.summaryBox score)
      (fun box =>
        box.Fits ((Shape.table 3 [174]).turned w.lang)) := by
  have hText : C → IsMarkup (w.scoreText score) := by
    intro hC
    cases score with
    | none => exact hLegible.isMarkup_tr .overallNa hC
    | some s =>
        exact
          (((hLegible.isMarkup_tr .overall hC).append
            (isMarkup_literal _ (by decide))).append
            (isMarkup_int s)).append
            (isMarkup_literal _ (by decide))
  refine yields_bind (yields_p hLegible _ hText) ?_
  intro head _
  refine yields_bind (yields_label hLegible .ratingsNote _) ?_
  intro note _
  refine yields_bind (yields_label hLegible .footer _) ?_
  intro foot _
  exact yields_pure (fits_column (by simp))

theorem yields_listing
    {header : List LabelKey}
    {rows : List (List String)}
    {widths : List Rat}
    (hLegible : Legible C w)
    (heading : LabelKey)
    (hHeader : header.length = widths.length)
    (hRows : ∀ row ∈ rows, row.length = widths.length) :
    Yields C (w.listing heading header rows widths)
      (fun pages =>
        LaidOut w.lang pages (listingShapes rows widths)) := by
  unfold Writer.listing listingShapes
  split
  · exact laidOut_nil
  · refine yields_bind (yields_label hLegible heading _) ?_
    intro note _
    have hTable :
        ∀ row ∈ header.map w.tr :: rows,
          row.length = widths.length := by
      intro row hMem
      rcases List.mem_cons.mp hMem with hFirst | hLater
      · rw [hFirst, List.length_map, hHeader]
      · exact hRows row hLater
    exact
      yields_pure
        (((laidOut_nil.cons (fits_kvTable hTable)).paragraph
          note).spacer 3)

end Blocks

------------------------------------------------------------
-- Sections
------------------------------------------------------------

/- The data satisfy the predicate, or the error is markup. -/
def ToolResult.Reads
    {D : Type}
    (P : D → Prop) : ToolResult D → Prop
| .ok d => P d
| .failed error => IsMarkup error
| .skipped => True

/- Texts of GTmetrix are markup, and the size is a number. -/
structure GtmetrixReads
    (repr : Json → String)
    (d : List (GTmetrixField × Json)) : Prop where
  texts : ∀ field, IsMarkup ((metric d field).toStr repr)
  size :
    ∃ text, pageSize (metric d .pageBytes) = .ok text ∧
      IsMarkup text

/- The texts of a scan are markup. -/
structure SslReads (c : SSLColumns) : Prop where
  grade : IsMarkup c.grade
  protocols :
    ∃ text, joined (c.protocols.or (.arr [])) = .ok text ∧
      IsMarkup text
  vulnerabilities :
    ∃ items, vulnerabilityItems c = .ok items ∧
      ∀ item ∈ items, IsMarkup item.1

section Sections

variable {π : Type} {w : Writer π} {C : Prop}

/- The result of a condition is known where it holds. -/
theorem yields_known
    {α : Type}
    {m : Except PyError α}
    {P : α → Prop}
    (hKnown : C → ∃ a, m = .ok a ∧ P a) :
    Yields C (fromPython m) (fun a => m = .ok a ∧ (C → P a)) := by
  cases hResult : m with
  | error e =>
      intro hC
      rcases hKnown hC with ⟨a, hOk, -⟩
      rw [hResult] at hOk
      cases hOk
  | ok a =>
      refine ⟨rfl, fun hC => ?_⟩
      rcases hKnown hC with ⟨b, hOk, hP⟩
      rw [hResult] at hOk
      cases hOk
      exact hP

theorem yields_pagespeedPages
    {d : List (AnalysisField × Json)}
    (hLegible : Legible C w)
    (hFloats : C → ∀ x, IsMarkup (w.press.repr (.float x)))
    (hMetrics : C → ∀ field, IsMetric (metric d field)) :
    Yields C (w.pagespeedPages d)
      (fun pages =>
        LaidOut w.lang pages
          [.table 1 (List.replicate 4 (174 / 4)), .spacer 3,
            metricsShape 9]) := by
  have hShown :
      ∀ field suffix, IsMarkup suffix → C →
        IsMarkup
          ((Json.str
            (fmt w.press.repr suffix
              (metric d field))).toStr w.press.repr) := by
    intro field suffix hSuffix hC
    exact
      isMarkup_fmt hSuffix
        (isMarkup_toStr (hFloats hC) (hMetrics hC field))
  have hNone : IsMarkup "" := isMarkup_literal _ (by decide)
  have hSeconds : IsMarkup " s" :=
    isMarkup_literal _ (by decide)
  have hMillis : IsMarkup " ms" :=
    isMarkup_literal _ (by decide)
  unfold Writer.pagespeedPages
  refine
    yields_bind
      (yields_scoreCards hLegible hFloats ?_) ?_
  · simp only [List.forall_mem_cons, List.not_mem_nil,
      false_imp_iff, implies_true, and_true]
    exact
      ⟨⟨hLegible.isMarkup_tr _, fun hC => hMetrics hC _⟩,
        ⟨hLegible.isMarkup_tr _, fun hC => hMetrics hC _⟩,
        ⟨hLegible.isMarkup_tr _, fun hC => hMetrics hC _⟩,
        ⟨hLegible.isMarkup_tr _, fun hC => hMetrics hC _⟩⟩
  · intro cards hCards
    refine yields_bind (yields_metrics hLegible ?_) ?_
    · simp only [List.forall_mem_cons, List.not_mem_nil,
        false_imp_iff, implies_true, and_true]
      exact
        ⟨hLegible.reads_entry _ _ (hShown _ _ hNone),
          hLegible.reads_entry _ _ (hShown _ _ hNone),
          hLegible.reads_entry _ _ (hShown _ _ hNone),
          hLegible.reads_entry _ _ (hShown _ _ hNone),
          hLegible.reads_entry _ _ (hShown _ _ hSeconds),
          hLegible.reads_entry _ _ (hShown _ _ hSeconds),
          hLegible.reads_entry _ _ (hShown _ _ hMillis),
          hLegible.reads_entry _ _ (hShown _ _ hNone),
          hLegible.reads_entry _ _ (hShown _ _ hSeconds)⟩
    · intro table hTable
      exact
        yields_pure
          (((laidOut_nil.cons hTable).spacer 3).cons hCards)

theorem yields_gtmetrixPages
    {d : List (GTmetrixField × Json)}
    (hLegible : Legible C w)
    (hReads : C → GtmetrixReads w.press.repr d) :
    Yields C (w.gtmetrixPages d)
      (fun pages =>
        LaidOut w.lang pages [metricsShape 8]) := by
  have hShown :
      ∀ field suffix, IsMarkup suffix → C →
        IsMarkup
          ((Json.str
            (fmt w.press.repr suffix
              (metric d field))).toStr w.press.repr) := by
    intro field suffix hSuffix hC
    exact isMarkup_fmt hSuffix ((hReads hC).texts field)
  have hNone : IsMarkup "" := isMarkup_literal _ (by decide)
  have hMillis : IsMarkup " ms" :=
    isMarkup_literal _ (by decide)
  unfold Writer.gtmetrixPages
  refine
    yields_bind (yields_known fun hC => (hReads hC).size) ?_
  rintro size ⟨-, hSize⟩
  refine yields_bind (yields_metrics hLegible ?_) ?_
  · simp only [List.forall_mem_cons, List.not_mem_nil,
      false_imp_iff, implies_true, and_true]
    exact
      ⟨hLegible.reads_entry _ _
          (fun hC => isMarkup_or ((hReads hC).texts _)),
        hLegible.reads_entry _ _ (hShown _ _ hNone),
        hLegible.reads_entry _ _ (hShown _ _ hNone),
        hLegible.reads_entry _ _ (hShown _ _ hMillis),
        hLegible.reads_entry _ _ (hShown _ _ hMillis),
        hLegible.reads_entry _ _ (hShown _ _ hMillis),
        hLegible.reads_entry _ _ hSize,
        hLegible.reads_entry _ _ (hShown _ _ hNone)⟩
  · intro table hTable
    exact yields_pure (laidOut_nil.cons hTable)

theorem yields_wavePages
    {topIssues : List (List String)}
    (d : Audits.Totals)
    (hLegible : Legible C w)
    (hRows : ∀ row ∈ topIssues, row.length = 3) :
    Yields C (w.wavePages topIssues d)
      (fun pages =>
        LaidOut w.lang pages
          (metricsShape 6 ::
            listingShapes topIssues [26, 128, 20])) := by
  have hShown : ∀ n : Int, C → IsMarkup (toString n) :=
    fun n _ => isMarkup_int n
  have hLevel :
      C →
        IsMarkup
          ((Audits.wcagLevel d.totalErrors
            d.totalContrastErrors).getD (w.tr .fails)) := by
    intro hC
    unfold Audits.wcagLevel
    split
    · exact hLegible.isMarkup_tr .fails hC
    · split
      · exact isMarkup_literal ['A'] (by decide)
      · exact isMarkup_literal ['A', 'A'] (by decide)
  unfold Writer.wavePages
  refine yields_bind (yields_metrics hLegible ?_) ?_
  · simp only [List.forall_mem_cons, List.not_mem_nil,
      false_imp_iff, implies_true, and_true]
    exact
      ⟨hLegible.reads_entry _ _ hLevel,
        hLegible.reads_entry _ _ (hShown _),
        hLegible.reads_entry _ _ (hShown _),
        hLegible.reads_entry _ _ (hShown _),
        hLegible.reads_entry _ _ (hShown _),
        hLegible.reads_entry _ _ (hShown _)⟩
  · intro table hTable
    refine
      yields_bind
        (yields_listing hLegible .topIssues rfl hRows) ?_
    intro top hTop
    exact yields_pure (hTop.cons hTable)

/- The names of the vulnerabilities that are true. -/
theorem isMarkup_vulns
    {items : List (String × Json)}
    (hItems : ∀ item ∈ items, IsMarkup item.1) :
    IsMarkup
      (", ".intercalate
        ((items.filter (fun item => item.2.truthy)).map
          Prod.fst)) := by
  apply isMarkup_intercalate
  intro text hMem
  rcases List.mem_map.mp hMem with ⟨item, hItem, rfl⟩
  exact hItems item (List.mem_filter.mp hItem).1

theorem yields_sslPages
    {c : SSLColumns}
    (hLegible : Legible C w)
    (hReads : C → SslReads c) :
    Yields C (w.sslPages c)
      (fun pages =>
        LaidOut w.lang pages
          [.table 1 [55], .spacer 3, metricsShape 4]) := by
  have hDash : IsMarkup "—" := isMarkup_literal _ (by decide)
  unfold Writer.sslPages
  refine
    yields_bind
      (yields_gradeBadge hLegible fun hC =>
        isMarkup_orDash (hReads hC).grade) ?_
  intro badge hBadge
  refine
    yields_bind
      (yields_known fun hC => (hReads hC).vulnerabilities) ?_
  rintro items ⟨-, hItems⟩
  refine
    yields_bind
      (yields_known fun hC => (hReads hC).protocols) ?_
  rintro protocols ⟨-, hProtocols⟩
  refine yields_bind (yields_metrics hLegible ?_) ?_
  · simp only [List.forall_mem_cons, List.not_mem_nil,
      false_imp_iff, implies_true, and_true]
    refine
      ⟨hLegible.reads_entry _ _
          (fun hC => isMarkup_orDash (hProtocols hC)),
        hLegible.reads_entry _ _ ?_,
        hLegible.reads_entry _ _ ?_,
        hLegible.reads_entry _ _ ?_⟩
    · intro hC
      cases c.certExpiresInDays with
      | none => exact hDash
      | some days =>
          exact
            ((isMarkup_int days).append
              (isMarkup_literal _ (by decide))).append
              (hLegible.isMarkup_tr .days hC)
    · intro hC
      cases c.certIsTrusted with
      | none => exact hDash
      | some trusted =>
          cases trusted with
          | true => exact hLegible.isMarkup_tr .yes hC
          | false => exact hLegible.isMarkup_tr .no hC
    · intro hC
      dsimp only [Json.toStr]
      split
      · exact hLegible.isMarkup_tr .noneFound hC
      · exact isMarkup_vulns (hItems hC)
  · intro table hTable
    exact
      yields_pure
        (((laidOut_nil.cons hTable).spacer 3).cons hBadge)

theorem yields_linksPages
    {brokenLinks : List (List String)}
    (d : LinkSummary)
    (hLegible : Legible C w)
    (hRows : ∀ row ∈ brokenLinks, row.length = 2) :
    Yields C (w.linksPages brokenLinks d)
      (fun pages =>
        LaidOut w.lang pages
          (metricsShape 5 ::
            listingShapes brokenLinks [24, 150])) := by
  have hShown : ∀ n : Nat, C → IsMarkup (toString n) :=
    fun n _ => isMarkup_nat n
  unfold Writer.linksPages
  refine yields_bind (yields_metrics hLegible ?_) ?_
  · simp only [List.forall_mem_cons, List.not_mem_nil,
      false_imp_iff, implies_true, and_true]
    exact
      ⟨hLegible.reads_entry _ _ (hShown _),
        hLegible.reads_entry _ _ (hShown _),
        hLegible.reads_entry _ _ (hShown _),
        hLegible.reads_entry _ _ (hShown _),
        hLegible.reads_entry _ _ (hShown _)⟩
  · intro table hTable
    refine
      yields_bind
        (yields_listing hLegible .linksBrokenList rfl
          hRows) ?_
    intro broken hBroken
    exact yields_pure (hBroken.cons hTable)

/- The formats are labels. -/
theorem isMarkup_formats
    (d : SchemaSummary)
    (hLegible : Legible C w)
    (hC : C) :
    IsMarkup (orDash (", ".intercalate (w.formats d))) := by
  apply isMarkup_orDash
  apply isMarkup_intercalate
  intro text hMem
  unfold Writer.formats at hMem
  simp only [List.mem_append, List.mem_ite_nil_right,
    List.mem_singleton] at hMem
  rcases hMem with (⟨-, rfl⟩ | ⟨-, rfl⟩) | ⟨-, rfl⟩
  · exact hLegible.isMarkup_tr .sdJsonLd hC
  · exact hLegible.isMarkup_tr .sdMicrodata hC
  · exact hLegible.isMarkup_tr .sdRdfa hC

theorem yields_schemaPages
    {schemas issues : List (List String)}
    (d : SchemaSummary)
    (hLegible : Legible C w)
    (hSchemas : ∀ row ∈ schemas, row.length = 3)
    (hIssues : ∀ row ∈ issues, row.length = 3) :
    Yields C (w.schemaPages schemas issues d)
      (fun pages =>
        LaidOut w.lang pages
          (schemaShapes schemas issues d)) := by
  have hShown : ∀ n : Nat, C → IsMarkup (toString n) :=
    fun n _ => isMarkup_nat n
  unfold Writer.schemaPages schemaShapes
  split
  · refine yields_bind (yields_label hLegible .sdNone _) ?_
    intro missing _
    exact yields_pure (laidOut_nil.paragraph missing)
  · refine yields_bind (yields_metrics hLegible ?_) ?_
    · simp only [List.forall_mem_cons, List.not_mem_nil,
        false_imp_iff, implies_true, and_true]
      exact
        ⟨hLegible.reads_entry _ _ (hShown _),
          hLegible.reads_entry _ _ (hShown _),
          hLegible.reads_entry _ _ (hShown _),
          hLegible.reads_entry _ _ (hShown _),
          hLegible.reads_entry _ _ (hShown _),
          hLegible.reads_entry _ _
            (isMarkup_formats d hLegible)⟩
    · intro table hTable
      refine
        yields_bind
          (yields_listing hLegible .sdTypesFound rfl
            hSchemas) ?_
      intro types hTypes
      refine
        yields_bind
          (yields_listing hLegible .sdIssuesList rfl
            hIssues) ?_
      intro found hFound
      exact yields_pure ((hTypes.cons hTable).append hFound)

/- A section has its pages, or a note in their place. -/
theorem yields_toolSection
    {D : Type}
    {P : D → Prop}
    {pages : D → Except Exc (List (Flowable π))}
    {shapes : D → List Shape}
    {result : ToolResult D}
    (hLegible : Legible C w)
    (num : Nat)
    (heading : LabelKey)
    (hReads : C → result.Reads P)
    (hPages :
      ∀ d, (C → P d) →
        Yields C (pages d)
          (fun ps => LaidOut w.lang ps (shapes d))) :
    Yields C (w.toolSection num heading pages result)
      (fun ps => LaidOut w.lang ps (result.shapes shapes)) := by
  have hBelow :
      LaidOut w.lang [(.spacer 5 : Flowable π)] [.spacer 5] :=
    laidOut_nil.spacer 5
  unfold Writer.toolSection
  refine
    yields_bind
      (yields_sectionTitle hLegible num heading) ?_
  intro head hHead
  cases result with
  | ok d =>
      refine yields_bind (hPages d hReads) ?_
      intro body hBody
      exact yields_pure ((hBody.cons hHead).append hBelow)
  | failed error =>
      have hNote :
          Yields C (w.failNote error) (fun _ => True) :=
        yields_p hLegible _ fun hC =>
          ((hLegible.isMarkup_tr .couldNotRun hC).append
            (isMarkup_literal _ (by decide))).append
            (hReads hC)
      refine yields_bind hNote ?_
      intro note _
      exact
        yields_pure
          (((laidOut_nil.paragraph note).cons hHead).append
            hBelow)
  | skipped =>
      refine
        yields_bind (yields_label hLegible .notIncluded _) ?_
      intro note _
      exact
        yields_pure
          (((laidOut_nil.paragraph note).cons hHead).append
            hBelow)

end Sections

end SiteAnalysis.FullReport
