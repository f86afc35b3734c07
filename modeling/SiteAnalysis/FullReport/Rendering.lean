import SiteAnalysis.FullReport.Consistency
import SiteAnalysis.FullReport.Pages
import SiteAnalysis.Python.Guarded

/-
  This file proves what is rendered of a report: which
  flowables make up its story, and that the story of an
  English report is built whatever the tools came back with,
  as long as their texts hold no broken markup.

  Key definitions include:
    * `KnownTag`
    * `Shape`
    * `layout`
    * `Legible`

  Key theorems include:
    * `yields_metrics`
    * `yields_story`
-/

------------------------------------------------------------
-- Markup
------------------------------------------------------------

namespace SiteAnalysis.FullReport

open Markup
open Python
open Reports

/- The tags that the builders write. -/
inductive KnownTag : List Char → List Char → Prop
  | bold : KnownTag "<b>".toList "</b>".toList
  | font (tint : Tint) :
      KnownTag
        ("<font color=\"" ++ tint.hexval ++ "\">").toList
        "</font>".toList

/- Well-formed markup over these tags. -/
def IsMarkup (text : String) : Prop :=
  Inline KnownTag text.toList

/- Well-formed markup is parsed, in every style. -/
def Press.Accepts
    {π : Type}
    (press : Press π) : Prop :=
  ∀ text style, IsMarkup text →
    ∃ p, press.paragraph text style = .ok p

theorem IsMarkup.append
    {text text' : String}
    (hText : IsMarkup text)
    (hText' : IsMarkup text') :
    IsMarkup (text ++ text') :=
  inline_append hText hText'

theorem isMarkup_literal
    (cs : List Char)
    (hText : isText cs = true) :
    IsMarkup (String.ofList cs) :=
  inline_literal cs hText

theorem isMarkup_label
    (key : LabelKey) : IsMarkup (label .en key) :=
  inline_label KnownTag key

theorem isMarkup_coloured
    {text : String}
    (tint : Tint)
    (hText : IsMarkup text) :
    IsMarkup (Writer.coloured tint text) := by
  unfold IsMarkup Writer.coloured
  rw [String.toList_append, String.toList_append]
  exact Inline.enclosed (.font tint) hText

theorem isMarkup_bold
    {text rest : String}
    (hText : IsMarkup text)
    (hRest : IsMarkup rest) :
    IsMarkup ("<b>" ++ text ++ "</b>" ++ rest) := by
  unfold IsMarkup
  rw [String.toList_append, String.toList_append,
    String.toList_append]
  exact .element .bold hText hRest

/- The digits of a number. -/
theorem isMarkup_nat
    (n : Nat) : IsMarkup (toString n) := by
  have hDigits :
      (toString n).toList = Nat.toDigits 10 n := by
    change (String.ofList (Nat.toDigits 10 n)).toList = _
    rw [String.toList_ofList]
  have hNot :
      ∀ c : Char, c.isDigit = false →
        c ∉ (toString n).toList := by
    intro c hOther hMem
    rw [hDigits] at hMem
    have hDigit :=
      Nat.isDigit_of_mem_toDigits (by decide) (by decide) hMem
    rw [hOther] at hDigit
    cases hDigit
  exact inline_of_plain (hNot '<' (by decide)) (hNot '&' (by decide))

theorem isMarkup_int
    (n : Int) : IsMarkup (toString n) := by
  cases n with
  | ofNat n => exact isMarkup_nat n
  | negSucc n =>
      change IsMarkup ("-" ++ toString (n + 1))
      exact
        (isMarkup_literal ['-'] (by decide)).append
          (isMarkup_nat (n + 1))

/- `", ".join` of markup is markup. -/
theorem isMarkup_intercalate
    {texts : List String}
    (hTexts : ∀ text ∈ texts, IsMarkup text) :
    IsMarkup (", ".intercalate texts) := by
  have hComma : IsMarkup ", " := isMarkup_literal _ (by decide)
  induction texts with
  | nil => exact .nil
  | cons text rest ih =>
      have hFirst := hTexts text List.mem_cons_self
      have hRest :=
        ih (fun later hMem =>
          hTexts later (List.mem_cons_of_mem _ hMem))
      cases rest with
      | nil =>
          rw [String.intercalate_singleton]
          exact hFirst
      | cons next rest =>
          rw [String.intercalate_cons_cons]
          exact (hFirst.append hComma).append hRest

------------------------------------------------------------
-- Shapes
------------------------------------------------------------

/- What a flowable takes up on the page. -/
inductive Shape
  | table (rows : Nat) (colWidths : List Rat)
  | paragraph
  | spacer (height : Rat)

/- A table has a cell for every column, in each of its rows. -/
def Flowable.Fits
    {π : Type} : Flowable π → Shape → Prop
| .metrics table, .table rows colWidths =>
    table.rows.length = rows ∧
      table.colWidths = colWidths ∧
        ∀ row ∈ table.rows, row.length = colWidths.length
| .grid cells widths _, .table rows colWidths =>
    cells.length = rows ∧ widths = colWidths ∧
      ∀ row ∈ cells, row.length = colWidths.length
| .paragraph _, .paragraph => True
| .spacer height, .spacer height' => height = height'
| _, _ => False

/- Columns are mirrored in Arabic. -/
def Shape.turned
    (lang : Lang) : Shape → Shape
| .table rows colWidths =>
    .table rows
      (if lang = .ar then colWidths.reverse else colWidths)
| shape => shape

/- A table of metrics: a header, and two rows for each. -/
def metricsShape (entries : Nat) : Shape :=
  .table (1 + 2 * entries) [95, 79]

def listingShapes
    (rows : List (List String))
    (widths : List Rat) : List Shape :=
  if rows.isEmpty then
    []
  else
    [.spacer 3, .paragraph, .table (rows.length + 1) widths]

/- A section, with the pages of its data or a note. -/
def ToolResult.shapes
    {D : Type}
    (pages : D → List Shape) : ToolResult D → List Shape
| .ok d => .table 1 [174] :: pages d ++ [.spacer 5]
| _ => [.table 1 [174], .paragraph, .spacer 5]

def schemaShapes
    (schemas issues : List (List String))
    (d : SchemaSummary) : List Shape :=
  if d.totalSchemas = 0 then
    [.paragraph]
  else
    metricsShape 6 ::
      listingShapes schemas [80, 64, 30] ++
      listingShapes issues [30, 50, 94]

/- The sections of the tools. -/
def toolShapes (result : Combined) : List Shape :=
  let tools := result.tools
  let cells := result.cells
  tools.pagespeed.shapes
      (fun _ =>
        [.table 1 (List.replicate 4 (174 / 4)), .spacer 3,
          metricsShape 9]) ++
    tools.gtmetrix.shapes (fun _ => [metricsShape 8]) ++
    tools.accessibility.shapes
      (fun _ =>
        metricsShape 6 ::
          listingShapes cells.topIssues [26, 128, 20]) ++
    tools.ssl.shapes
      (fun _ => [.table 1 [55], .spacer 3, metricsShape 4]) ++
    tools.links.shapes
      (fun _ =>
        metricsShape 5 ::
          listingShapes cells.brokenLinks [24, 150]) ++
    tools.structuredData.shapes
      (schemaShapes cells.schemas cells.issues)

/-
  The shapes of a story with a number of recommendations,
  from left to right.
-/
def layout
    (recs : Nat)
    (result : Combined) : List Shape :=
  [.table 2 [174], .spacer 5, .paragraph, .paragraph,
      .paragraph, .spacer 4] ++
    toolShapes result ++
    [.table 1 [174], .paragraph, .spacer 2,
      .table recs [174], .spacer 8, .table 3 [174]]

/- The story is laid out in the language. -/
def LaidOut
    {π : Type}
    (lang : Lang)
    (story : List (Flowable π))
    (shapes : List Shape) : Prop :=
  List.Forall₂ Flowable.Fits story
    (shapes.map (Shape.turned lang))

/- The rows of the listings have the cells that are written. -/
structure Cells.Tabular (cells : Cells) : Prop where
  topIssues : ∀ row ∈ cells.topIssues, row.length = 3
  brokenLinks : ∀ row ∈ cells.brokenLinks, row.length = 2
  schemas : ∀ row ∈ cells.schemas, row.length = 3
  issues : ∀ row ∈ cells.issues, row.length = 3

section Fitting

variable {π : Type} {w : Writer π}

theorem mirror_length
    {α : Type}
    (cells : List α) :
    (w.builder.mirror cells).length = cells.length := by
  unfold Builder.mirror
  split
  · exact List.length_reverse
  · rfl

theorem mirror_widths
    (widths : List Rat) :
    w.builder.mirror widths =
      if w.lang = .ar then widths.reverse else widths := by
  by_cases hArabic : w.lang = .ar <;>
    simp [Builder.mirror, Builder.rtl, Writer.builder, hArabic]

/- A listing is mirrored with its cells. -/
theorem fits_kvTable
    {rows : List (List String)}
    {widths : List Rat}
    (hCells : ∀ row ∈ rows, row.length = widths.length) :
    (w.kvTable rows widths).Fits
      ((Shape.table rows.length widths).turned w.lang) := by
  refine ⟨List.length_map .., mirror_widths widths, ?_⟩
  intro row hMem
  rcases List.mem_map.mp hMem with ⟨texts, hTexts, rfl⟩
  rw [mirror_length, List.length_map, hCells texts hTexts,
    ← mirror_widths, mirror_length]

/- A table whose columns read the same from both sides. -/
theorem fits_symmetric
    {rows : List (List (Block π))}
    {widths : List Rat}
    {marks : List Mark}
    (hSymmetric : widths.reverse = widths)
    (hCells : ∀ row ∈ rows, row.length = widths.length) :
    (Flowable.grid rows widths marks).Fits
      ((Shape.table rows.length widths).turned w.lang) := by
  have hTurned :
      (if w.lang = .ar then widths.reverse else widths) =
        widths := by
    rw [hSymmetric, ite_self]
  refine ⟨rfl, hTurned.symm, ?_⟩
  intro row hMem
  rw [hTurned]
  exact hCells row hMem

end Fitting

------------------------------------------------------------
-- Paragraphs
------------------------------------------------------------

/-
  Where the condition holds, the report is in English and
  markup is accepted.
-/
structure Legible
    {π : Type}
    (C : Prop)
    (w : Writer π) : Prop where
  english : C → w.lang = .en
  accepts : C → w.press.Accepts

section Paragraphs

variable {π : Type} {w : Writer π} {C : Prop}

theorem t_of_english
    (text : String)
    (hEnglish : w.lang = .en) : w.t text = text := by
  simp [Writer.t, Builder.t, Builder.rtl, Writer.builder,
    hEnglish, Json.toStr]

theorem Legible.isMarkup_t
    {text : String}
    (hLegible : Legible C w)
    (hText : C → IsMarkup text)
    (hC : C) : IsMarkup (w.t text) := by
  rw [t_of_english text (hLegible.english hC)]
  exact hText hC

theorem Legible.isMarkup_tr
    (hLegible : Legible C w)
    (key : LabelKey)
    (hC : C) : IsMarkup (w.tr key) := by
  rw [Writer.tr, hLegible.english hC]
  exact isMarkup_label key

theorem Legible.isMarkup_ex
    (hLegible : Legible C w)
    (key : ExplanationKey)
    (hC : C) : IsMarkup (w.ex key) := by
  rw [Writer.ex, hLegible.english hC]
  exact inline_explanation KnownTag key

theorem yields_paragraph
    {text : String}
    (hLegible : Legible C w)
    (style : TextStyle)
    (hText : C → IsMarkup text) :
    Yields C (w.press.paragraph text style)
      (fun _ => True) :=
  yields_of_returns fun hC =>
    hLegible.accepts hC text style (hText hC)

theorem yields_p
    {text : String}
    (hLegible : Legible C w)
    (style : TextStyle)
    (hText : C → IsMarkup text) :
    Yields C (w.p text style) (fun _ => True) :=
  yields_paragraph hLegible style
    (hLegible.isMarkup_t hText)

theorem yields_label
    (hLegible : Legible C w)
    (key : LabelKey)
    (style : TextStyle) :
    Yields C (w.p (w.tr key) style) (fun _ => True) :=
  yields_p hLegible style (hLegible.isMarkup_tr key)

/- A text after a label. -/
theorem yields_labelled
    {before between text : String}
    {key : LabelKey}
    (hLegible : Legible C w)
    (style : TextStyle)
    (hBefore : IsMarkup before)
    (hBetween : IsMarkup between)
    (hText : C → IsMarkup text) :
    Yields C (w.p (before ++ w.tr key ++ between ++ text) style)
      (fun _ => True) :=
  yields_p hLegible style fun hC =>
    ((hBefore.append (hLegible.isMarkup_tr key hC)).append
      hBetween).append (hText hC)

/- `fromPython` only renames what is raised. -/
theorem yields_fromPython
    {α : Type}
    {m : Except PyError α}
    {P : α → Prop}
    (hYields : Yields C m P) :
    Yields C (fromPython m) P := by
  cases m with
  | ok a => exact hYields
  | error e => exact hYields

end Paragraphs

------------------------------------------------------------
-- Tables
------------------------------------------------------------

/- An entry of texts that are markup where `C` holds. -/
structure Entry.Reads
    (repr : Json → String)
    (C : Prop)
    (entry : Entry) : Prop where
  label :
    ∃ text, entry.label = .str text ∧ (C → IsMarkup text)
  result : C → IsMarkup (entry.result.toStr repr)
  note :
    ∃ text, entry.note = .str text ∧ text ≠ "" ∧
      (C → IsMarkup text)

section Tables

variable {π : Type} {w : Writer π} {C : Prop}

theorem yields_builder_p
    {text : String}
    (hLegible : Legible C w)
    (style : ParagraphStyle)
    (hText : C → IsMarkup text) :
    Yields C (w.builder.p (.str text) style)
      (fun _ => True) :=
  yields_paragraph hLegible style.text
    (hLegible.isMarkup_t hText)

/- A round adds two rows of two cells. -/
theorem yields_addEntry
    {entry : Entry}
    {s : Layout π}
    (block : Nat)
    (hLegible : Legible C w)
    (hEntry : entry.Reads w.press.repr C)
    (hRows : ∀ row ∈ s.rows, row.length = 2) :
    Yields C (addEntry w.builder block entry s)
      (fun s' =>
        s'.rows.length = s.rows.length + 2 ∧
          ∀ row ∈ s'.rows, row.length = 2) := by
  rcases hEntry.label with ⟨text, hLabel, hText⟩
  rcases hEntry.note with ⟨note, hNote, hNonempty, hMarkup⟩
  have hTruthy : entry.note.truthy = true := by
    rw [hNote]
    exact decide_eq_true hNonempty
  unfold addEntry
  rw [hLabel]
  refine yields_bind (yields_builder_p hLegible _ hText) ?_
  intro label _
  refine
    yields_bind (yields_builder_p hLegible _ hEntry.result) ?_
  intro result _
  dsimp only
  rw [if_pos hTruthy, hNote]
  refine yields_bind (yields_builder_p hLegible _ hMarkup) ?_
  intro para _
  refine yields_pure ⟨by simp, ?_⟩
  intro row hMem
  rcases List.mem_append.mp hMem with hOld | hNew
  · exact hRows row hOld
  · rcases List.mem_pair.mp hNew with hSame | hSame
    · rw [hSame, mirror_length]
      rfl
    · rw [hSame]
      rfl

theorem yields_addEntries
    {entries : List Entry}
    {s : Layout π}
    (block : Nat)
    (hLegible : Legible C w)
    (hEntries :
      ∀ entry ∈ entries, entry.Reads w.press.repr C)
    (hRows : ∀ row ∈ s.rows, row.length = 2) :
    Yields C (addEntries w.builder block entries s)
      (fun s' =>
        s'.rows.length =
            s.rows.length + 2 * entries.length ∧
          ∀ row ∈ s'.rows, row.length = 2) := by
  induction entries generalizing block s with
  | nil => exact ⟨rfl, hRows⟩
  | cons entry rest ih =>
      have hFirst := hEntries entry List.mem_cons_self
      refine
        yields_bind
          (yields_addEntry block hLegible hFirst hRows) ?_
      rintro s' ⟨hLength, hRows'⟩
      refine
        (ih (block + 1)
          (fun later hMem =>
            hEntries later (List.mem_cons_of_mem _ hMem))
          hRows').mono ?_ id
      rintro s'' ⟨hLength', hRows''⟩
      refine ⟨?_, hRows''⟩
      rw [List.length_cons]
      omega

theorem yields_metrics
    {entries : List Entry}
    (hLegible : Legible C w)
    (hEntries :
      ∀ entry ∈ entries, entry.Reads w.press.repr C) :
    Yields C (w.metrics entries)
      (fun table =>
        table.Fits
          ((metricsShape entries.length).turned w.lang)) := by
  have hHeader :
      ∀ text style, (C → IsMarkup text) →
        Yields C (w.builder.p (.str text) style)
          (fun _ => True) :=
    fun _ style => yields_builder_p hLegible style
  have hTable :
      Yields C (metricTable w.builder entries [95, 79])
        (fun table : Table π Rat =>
          table.rows.length = 1 + 2 * entries.length ∧
            table.colWidths = w.builder.mirror [95, 79] ∧
              ∀ row ∈ table.rows, row.length = 2) := by
    unfold metricTable
    have hTr : w.builder.tr = ⟨w.tr .metric, w.tr .result⟩ :=
      labels_eq w.lang
    rw [hTr]
    refine
      yields_bind
        (hHeader _ _ (hLegible.isMarkup_tr .metric)) ?_
    intro metric _
    refine
      yields_bind
        (hHeader _ _ (hLegible.isMarkup_tr .result)) ?_
    intro result _
    refine
      yields_bind
        (yields_addEntries 0 hLegible hEntries ?_) ?_
    · intro row hMem
      rw [List.mem_singleton.mp hMem, mirror_length]
      rfl
    · rintro s ⟨hLength, hRows⟩
      exact yields_pure ⟨hLength, rfl, hRows⟩
  refine yields_bind hTable ?_
  rintro table ⟨hLength, hWidths, hRows⟩
  refine yields_pure ⟨hLength, ?_, ?_⟩
  · rw [hWidths]
    exact mirror_widths _
  · intro row hMem
    rw [hRows row hMem, ← mirror_widths, mirror_length]
    rfl

/- The entries of the sections, by their results. -/
theorem Legible.reads_entry
    {result : Json}
    (hLegible : Legible C w)
    (key : LabelKey)
    (note : ExplanationKey)
    (hResult : C → IsMarkup (result.toStr w.press.repr)) :
    (w.entry key result note).Reads w.press.repr C where
  label := ⟨_, rfl, hLegible.isMarkup_tr key⟩
  result := hResult
  note :=
    ⟨_, rfl, explanation_ne_empty w.lang note,
      hLegible.isMarkup_ex note⟩

end Tables

end SiteAnalysis.FullReport
