import SiteAnalysis.FullReport.Scores
import SiteAnalysis.FullReport.Service
import SiteAnalysis.FullReport.Texts

/-
  This file defines how the dictionary of a full report is
  rendered: the banner, one section for each tool, the
  recommendations and the overall rating, in the order of the
  pages.

  Paragraphs are parsed as inline markup and can raise; the
  cells of the listings are plain texts and cannot.

  Key definitions include:
    * `Press`
    * `Flowable`
    * `toolSection`
    * `buildStory`
    * `buildReportPdf`
-/

------------------------------------------------------------
-- Libraries
------------------------------------------------------------

namespace SiteAnalysis.FullReport

open Python
open Reports

/- The palette. -/
inductive Tint
  | navy
  | accent
  | muted
  | line
  | stripe
  | white
  | good
  | warn
  | poor
  | na
  | goodBg
  | warnBg
  | poorBg
  | naBg
deriving DecidableEq

/- The digits of a colour. -/
def Tint.hex : Tint → String
| .navy => "0f172a"
| .accent => "2563eb"
| .muted => "64748b"
| .line => "cbd5e1"
| .stripe => "f1f5f9"
| .white => "ffffff"
| .good => "16a34a"
| .warn => "d97706"
| .poor => "dc2626"
| .na => "64748b"
| .goodBg => "dcfce7"
| .warnBg => "ffedd5"
| .poorBg => "fee2e2"
| .naBg => "f1f5f9"

/- `colour.hexval()` -/
def Tint.hexval (tint : Tint) : String :=
  "0x" ++ tint.hex

def Colour.tint : Colour → Tint
| .white => .white
| .navy => .navy
| .muted => .muted
| .line => .line
| .stripe => .stripe

/- `TA_LEFT`, `TA_CENTER`, `TA_RIGHT` -/
inductive Placement
  | left
  | center
  | right
deriving DecidableEq

def Alignment.placement : Alignment → Placement
| .left => .left
| .right => .right

/- A `ParagraphStyle`; `none` is the library's default. -/
structure TextStyle where
  name : String
  fontName : String
  fontSize : Option Rat
  textColor : Option Tint
  alignment : Placement
  leading : Option Rat

def ParagraphStyle.text
    (style : ParagraphStyle) : TextStyle where
  name := style.name
  fontName := style.fontName
  fontSize := some style.fontSize
  textColor := some style.textColor.tint
  alignment := style.alignment.placement
  leading := style.leading

/- `b.lang` -/
def Lang.code : Lang → String
| .en => "en"
| .ar => "ar"

/- An argument of a command of a `TableStyle`. -/
inductive MarkArg
  | number (q : Rat)
  | tint (tint : Tint)
  | tints (tints : List Tint)
  | text (s : String)
deriving DecidableEq

/- A command between two corners, each a column and a row. -/
structure Mark where
  name : String
  start : Int × Int
  stop : Int × Int
  args : List MarkArg
deriving DecidableEq

/- The content of a cell. -/
inductive Block (π : Type)
  | text (s : String)
  | paragraph (p : π)
  | stack (ps : List π)

/- What a story consists of; lengths are in millimetres. -/
inductive Flowable (π : Type)
  | metrics (table : Table π Rat)
  | grid
      (rows : List (List (Block π)))
      (colWidths : List Rat)
      (marks : List Mark)
  | paragraph (p : π)
  | spacer (height : Rat)

/-
  The packages behind a PDF.  `paragraph` parses a text, and
  `build` lays out a story; both can raise.
-/
structure Press (π : Type) where
  arabicFont : String
  shape : String → String
  repr : Json → String
  strftime : Time → String
  paragraph : String → TextStyle → Except Exc π
  build : List (Flowable π) → Except Exc Pdf

def Press.typesetter
    {π : Type}
    (press : Press π) : Typesetter π where
  arabicFont := press.arabicFont
  shape := press.shape
  repr := press.repr
  paragraph := fun text style =>
    press.paragraph text style.text

------------------------------------------------------------
-- Paragraphs
------------------------------------------------------------

/- The builder of a report, with its packages. -/
structure Writer (π : Type) where
  press : Press π
  lang : Lang

namespace Writer

variable {π : Type}

def builder (w : Writer π) : Builder π where
  typesetter := w.press.typesetter
  lang := w.lang

def tr
    (w : Writer π)
    (key : LabelKey) : String :=
  label w.lang key

def ex
    (w : Writer π)
    (key : ExplanationKey) : String :=
  explanation w.lang key

/- `builder.t(text)` -/
def t
    (w : Writer π)
    (text : String) : String :=
  w.builder.t (.str text)

/- `builder.style(name, ...)`, bold or not. -/
def style
    (w : Writer π)
    (name : String)
    (bold : Bool)
    (fontSize : Option Rat)
    (textColor : Option Tint)
    (alignment : Option Placement)
    (leading : Option Rat) : TextStyle where
  name := name
  fontName :=
    if bold then w.builder.fontBold else w.builder.font
  fontSize := fontSize
  textColor := textColor
  alignment := alignment.getD w.builder.align.placement
  leading := leading

/- `builder.p(text, style)` -/
def p
    (w : Writer π)
    (text : String)
    (style : TextStyle) : Except Exc π :=
  w.press.paragraph (w.t text) style

/- A text between the tags of a colour. -/
def coloured
    (tint : Tint)
    (text : String) : String :=
  "<font color=\"" ++ tint.hexval ++ "\">" ++ text ++
    "</font>"

/- The style `muted` of the story. -/
def mutedStyle (w : Writer π) : TextStyle :=
  w.style "muted" false (some 9) (some .muted) none (some 13)

/- The style `meta` of the story. -/
def metaStyle (w : Writer π) : TextStyle :=
  w.style "meta" false (some 10) (some .navy) none (some 15)

/- `_fail_note` -/
def failNote
    (w : Writer π)
    (error : String) : Except Exc π :=
  w.p (w.tr .couldNotRun ++ ": " ++ error)
    (w.style "fail" false (some (19 / 2)) (some .poor) none
      none)

/- `_skip_note` -/
def skipNote (w : Writer π) : Except Exc π :=
  w.p (w.tr .notIncluded)
    (w.style "skip" false (some (19 / 2)) (some .muted) none
      none)

end Writer

------------------------------------------------------------
-- Values
------------------------------------------------------------

/- `_rating` -/
def rating
    (lang : Lang) :
    Json → Except PyError (String × Tint × Tint)
| .null => .ok (label lang .na, .na, .naBg)
| score => do
    if ← score.atLeast 90 then
      pure (label lang .good, .good, .goodBg)
    else if ← score.atLeast 50 then
      pure (label lang .warn, .warn, .warnBg)
    else
      pure (label lang .poor, .poor, .poorBg)

/- `_fmt` -/
def fmt
    (repr : Json → String)
    (suffix : String) : Json → String
| .null => "—"
| value => value.toStr repr ++ suffix

/- `f"{round(pb / 1024)} KB" if pb else "—"` -/
def pageSize (pb : Json) : Except PyError String :=
  if pb.truthy then do
    let quotient ← pb.divideCount 1024
    let rounded ← Json.roundFloat quotient
    pure (toString rounded ++ " KB")
  else
    .ok "—"

/- The texts that `str.join` expects. -/
def textsOf :
    Nat → List Json → Except PyError (List String)
| _, [] => .ok []
| i, .str s :: rest => do
    let later ← textsOf (i + 1) rest
    pure (s :: later)
| i, other :: _ =>
    .error
      (.typeError
        ("sequence item " ++ toString i ++
          ": expected str instance, " ++ other.typeName ++
          " found"))

/- `", ".join(value)` -/
def joined : Json → Except PyError String
| .arr items => do
    let texts ← textsOf 0 items
    pure (", ".intercalate texts)
| .str s =>
    .ok
      (", ".intercalate
        (s.toList.map (fun c => String.ofList [c])))
| .obj fields => .ok (", ".intercalate (fields.map Prod.fst))
| _ => .error (.typeError "can only join an iterable")

/- `text or "—"` -/
def orDash (text : String) : String :=
  if text = "" then "—" else text

/- `_ssl_grade_color` -/
def sslGradeColor (grade : String) : Tint × Tint :=
  let g := String.ofList (grade.toList.map Char.toUpper)
  if g ∈ ["A+", "A"] then
    (.good, .goodBg)
  else if g ∈ ["B", "C"] then
    (.warn, .warnBg)
  else
    (.poor, .poorBg)

/- `_summary_colors` -/
def summaryColors : Option Int → Tint × Tint
| none => (.muted, .naBg)
| some score =>
    if passThreshold ≤ score then
      (.good, .goodBg)
    else
      (.poor, .poorBg)

------------------------------------------------------------
-- Tables
------------------------------------------------------------

namespace Writer

variable {π : Type}

/- `_kv_table` -/
def kvTable
    (w : Writer π)
    (rows : List (List String))
    (widths : List Rat) : Flowable π :=
  .grid
    (rows.map fun row =>
      w.builder.mirror (row.map fun c => .text (w.t c)))
    (w.builder.mirror widths)
    [ ⟨"BACKGROUND", (0, 0), (-1, 0), [.tint .navy]⟩,
      ⟨"TEXTCOLOR", (0, 0), (-1, 0), [.tint .white]⟩,
      ⟨"FONTNAME", (0, 0), (-1, 0),
        [.text w.builder.fontBold]⟩,
      ⟨"FONTNAME", (0, 1), (-1, -1), [.text w.builder.font]⟩,
      ⟨"FONTSIZE", (0, 0), (-1, -1), [.number (19 / 2)]⟩,
      ⟨"ROWBACKGROUNDS", (0, 1), (-1, -1),
        [.tints [.white, .stripe]]⟩,
      ⟨"GRID", (0, 0), (-1, -1),
        [.number (2 / 5), .tint .line]⟩,
      ⟨"ALIGN", (0, 0), (-1, -1),
        [.text (if w.builder.rtl then "RIGHT" else "LEFT")]⟩,
      ⟨"VALIGN", (0, 0), (-1, -1), [.text "MIDDLE"]⟩,
      ⟨"LEFTPADDING", (0, 0), (-1, -1), [.number 7]⟩,
      ⟨"RIGHTPADDING", (0, 0), (-1, -1), [.number 7]⟩,
      ⟨"TOPPADDING", (0, 0), (-1, -1), [.number 5]⟩,
      ⟨"BOTTOMPADDING", (0, 0), (-1, -1), [.number 5]⟩ ]

/- `_metric_table` with its default widths. -/
def metrics
    (w : Writer π)
    (entries : List Entry) : Except Exc (Flowable π) := do
  let table ← metricTable w.builder entries [95, 79]
  pure (.metrics table)

/- `(tr[key], result, ex[note])` -/
def entry
    (w : Writer π)
    (key : LabelKey)
    (result : Json)
    (note : ExplanationKey) : Entry where
  label := .str (w.tr key)
  result := result
  note := .str (w.ex note)

/- `_banner` -/
def banner (w : Writer π) : Except Exc (Flowable π) := do
  let heading ←
    w.p (w.tr .title)
      (w.style "bt" true (some 20) (some .white)
        (some .center) (some 24))
  let subtitle ←
    w.p (w.tr .subtitle)
      (w.style "bs" false (some (21 / 2)) (some .line)
        (some .center) (some 14))
  pure
    (.grid [[.paragraph heading], [.paragraph subtitle]] [174]
      [ ⟨"BACKGROUND", (0, 0), (-1, -1), [.tint .navy]⟩,
        ⟨"LINEBELOW", (0, -1), (-1, -1),
          [.number 3, .tint .accent]⟩,
        ⟨"TOPPADDING", (0, 0), (-1, 0), [.number 12]⟩,
        ⟨"BOTTOMPADDING", (0, -1), (-1, -1), [.number 10]⟩,
        ⟨"LEFTPADDING", (0, 0), (-1, -1), [.number 10]⟩,
        ⟨"RIGHTPADDING", (0, 0), (-1, -1), [.number 10]⟩ ])

/- A card of `_score_cards`: its paragraphs and colours. -/
def scoreCard
    (w : Writer π)
    (card : String × Json) :
    Except Exc (Block π × Tint × Tint) := do
  let rated ← fromPython (rating w.lang card.2)
  let num := fmt w.press.repr "" card.2
  let number ←
    w.press.paragraph (coloured rated.2.1 (w.t num))
      (w.style "big" true (some 22) none (some .center)
        (some 24))
  let rate ←
    w.press.paragraph (coloured rated.2.1 (w.t rated.1))
      (w.style "rate" false (some 8) none (some .center)
        (some 10))
  let caption ←
    w.p card.1
      (w.style "lbl" false (some (17 / 2)) (some .navy)
        (some .center) (some 11))
  pure (.stack [number, caption, rate], rated.2)

/- The commands of the card in a column. -/
def cardMarks : (Tint × Tint) × Nat → List Mark
| ((colour, bg), i) =>
    [ ⟨"BACKGROUND", (i, 0), (i, 0), [.tint bg]⟩,
      ⟨"LINEBELOW", (i, 0), (i, 0),
        [.number (5 / 2), .tint colour]⟩ ]

/- `_score_cards` -/
def scoreCards
    (w : Writer π)
    (scores : List (String × Json)) :
    Except Exc (Flowable π) := do
  let cards ← scores.mapM w.scoreCard
  pure
    (.grid [cards.map Prod.fst]
      (List.replicate scores.length (174 / scores.length))
      ([ ⟨"VALIGN", (0, 0), (-1, -1), [.text "MIDDLE"]⟩,
        ⟨"TOPPADDING", (0, 0), (-1, -1), [.number 9]⟩,
        ⟨"BOTTOMPADDING", (0, 0), (-1, -1), [.number 9]⟩,
        ⟨"LEFTPADDING", (0, 0), (-1, -1), [.number 4]⟩,
        ⟨"RIGHTPADDING", (0, 0), (-1, -1), [.number 4]⟩ ] ++
        (cards.map Prod.snd).zipIdx.flatMap cardMarks))

/- `_section_title` -/
def sectionTitle
    (w : Writer π)
    (num : Nat)
    (text : String) : Except Exc (Flowable π) := do
  let para ←
    w.p (toString num ++ ".  " ++ text)
      (w.style "st" true (some 13) (some .navy) none (some 16))
  let side : Int × Int :=
    if w.builder.rtl then (-1, -1) else (0, 0)
  pure
    (.grid [[.paragraph para]] [174]
      [ ⟨"LINEBEFORE", side, side,
          [.number 4, .tint .accent]⟩,
        ⟨"LEFTPADDING", (0, 0), (-1, -1), [.number 8]⟩,
        ⟨"TOPPADDING", (0, 0), (-1, -1), [.number 6]⟩,
        ⟨"BOTTOMPADDING", (0, 0), (-1, -1), [.number 4]⟩ ])

/- `_grade_badge` -/
def gradeBadge
    (w : Writer π)
    (grade : String) : Except Exc (Flowable π) := do
  let colours := sslGradeColor grade
  let number ←
    w.press.paragraph (coloured colours.1 (orDash grade))
      (w.style "gb" true (some 22) none (some .center)
        (some 24))
  let caption ←
    w.p (w.tr .sslGrade)
      (w.style "gbl" false (some (17 / 2)) (some .navy)
        (some .center) (some 11))
  pure
    (.grid [[.stack [number, caption]]] [55]
      [ ⟨"BACKGROUND", (0, 0), (0, 0), [.tint colours.2]⟩,
        ⟨"LINEBELOW", (0, 0), (0, 0),
          [.number (5 / 2), .tint colours.1]⟩,
        ⟨"ALIGN", (0, 0), (-1, -1), [.text "CENTER"]⟩,
        ⟨"VALIGN", (0, 0), (-1, -1), [.text "MIDDLE"]⟩,
        ⟨"TOPPADDING", (0, 0), (-1, -1), [.number 8]⟩,
        ⟨"BOTTOMPADDING", (0, 0), (-1, -1), [.number 8]⟩ ])

/- The line of the overall rating. -/
def scoreText
    (w : Writer π) : Option Int → String
| some score =>
    w.tr .overall ++ ": " ++ toString score ++ " / 100"
| none => w.tr .overallNa

/- `_summary_box` -/
def summaryBox
    (w : Writer π)
    (score : Option Int) : Except Exc (Flowable π) := do
  let colours := summaryColors score
  let head ←
    w.p (w.scoreText score)
      (w.style "sbh" true (some 17) (some colours.1)
        (some .center) (some 22))
  let note ←
    w.p (w.tr .ratingsNote)
      (w.style "sbn" true (some 12) (some .navy)
        (some .center) (some 17))
  let foot ←
    w.p (w.tr .footer)
      (w.style "sbf" true (some 12) (some colours.1)
        (some .center) (some 17))
  pure
    (.grid
      [[.paragraph head], [.paragraph note],
        [.paragraph foot]]
      [174]
      [ ⟨"BACKGROUND", (0, 0), (-1, -1), [.tint colours.2]⟩,
        ⟨"BOX", (0, 0), (-1, -1),
          [.number (5 / 2), .tint colours.1]⟩,
        ⟨"VALIGN", (0, 0), (-1, -1), [.text "MIDDLE"]⟩,
        ⟨"TOPPADDING", (0, 0), (0, 0), [.number 10]⟩,
        ⟨"BOTTOMPADDING", (0, -1), (-1, -1), [.number 10]⟩,
        ⟨"TOPPADDING", (0, 1), (-1, -1), [.number 4]⟩,
        ⟨"LEFTPADDING", (0, 0), (-1, -1), [.number 10]⟩,
        ⟨"RIGHTPADDING", (0, 0), (-1, -1), [.number 10]⟩ ])

/- A listing under its title, where it has rows. -/
def listing
    (w : Writer π)
    (heading : LabelKey)
    (header : List LabelKey)
    (rows : List (List String))
    (widths : List Rat) : Except Exc (List (Flowable π)) :=
  if rows.isEmpty then
    .ok []
  else do
    let note ← w.p (w.tr heading) w.mutedStyle
    pure
      [.spacer 3, .paragraph note,
        w.kvTable (header.map w.tr :: rows) widths]

------------------------------------------------------------
-- Sections
------------------------------------------------------------

/- The section of PageSpeed, where it has data. -/
def pagespeedPages
    (w : Writer π)
    (d : List (AnalysisField × Json)) :
    Except Exc (List (Flowable π)) := do
  let shown := fun field suffix =>
    Json.str (fmt w.press.repr suffix (metric d field))
  let cards ←
    w.scoreCards
      [(w.tr .performance, metric d .performanceScore),
        (w.tr .accessibility, metric d .accessibilityScore),
        (w.tr .bestPractices, metric d .bestPracticesScore),
        (w.tr .seo, metric d .seoScore)]
  let table ←
    w.metrics
      [w.entry .performance (shown .performanceScore "")
          .performance,
        w.entry .accessibility (shown .accessibilityScore "")
          .accessibility,
        w.entry .bestPractices
          (shown .bestPracticesScore "") .bestPractices,
        w.entry .seo (shown .seoScore "") .seo,
        w.entry .fcp (shown .firstContentfulPaint " s") .fcp,
        w.entry .lcp (shown .largestContentfulPaint " s")
          .lcp,
        w.entry .tbt (shown .totalBlockingTime " ms") .tbt,
        w.entry .cls (shown .cumulativeLayoutShift "") .cls,
        w.entry .si (shown .speedIndex " s") .si]
  pure [cards, .spacer 3, table]

/- The section of GTmetrix, where it has data. -/
def gtmetrixPages
    (w : Writer π)
    (d : List (GTmetrixField × Json)) :
    Except Exc (List (Flowable π)) := do
  let shown := fun field suffix =>
    Json.str (fmt w.press.repr suffix (metric d field))
  let size ← fromPython (pageSize (metric d .pageBytes))
  let table ←
    w.metrics
      [w.entry .grade
          ((metric d .gtmetrixGrade).or (.str "—")) .grade,
        w.entry .performance (shown .performanceScore "")
          .performance,
        w.entry .structureScore (shown .structureScore "")
          .structureScore,
        w.entry .lcp (shown .largestContentfulPaint " ms")
          .lcp,
        w.entry .tbt (shown .totalBlockingTime " ms") .tbt,
        w.entry .fullyLoaded (shown .fullyLoadedTime " ms")
          .fullyLoaded,
        w.entry .pageSize (.str size) .pageSize,
        w.entry .requests (shown .pageRequests "") .requests]
  pure [table]

/- The section of WAVE, where it has data. -/
def wavePages
    (w : Writer π)
    (topIssues : List (List String))
    (d : Audits.Totals) :
    Except Exc (List (Flowable π)) := do
  let level :=
    Audits.wcagLevel d.totalErrors d.totalContrastErrors
  let shown := fun n : Int => Json.str (toString n)
  let table ←
    w.metrics
      [w.entry .wcag (.str (level.getD (w.tr .fails))) .wcag,
        w.entry .errors (shown d.totalErrors) .errors,
        w.entry .contrast (shown d.totalContrastErrors)
          .contrast,
        w.entry .alerts (shown d.totalAlerts) .alerts,
        w.entry .features (shown d.totalFeatures) .features,
        w.entry .structural (shown d.totalStructural)
          .structural]
  let top ←
    w.listing .topIssues [.type, .issue, .count] topIssues
      [26, 128, 20]
  pure (table :: top)

/- The section of the scan, where it has data. -/
def sslPages
    (w : Writer π)
    (c : SSLColumns) : Except Exc (List (Flowable π)) := do
  let badge ← w.gradeBadge (orDash c.grade)
  let items ← fromPython (vulnerabilityItems c)
  let vulns :=
    (items.filter (fun item => item.2.truthy)).map Prod.fst
  let protocols ←
    fromPython (joined (c.protocols.or (.arr [])))
  let expiry :=
    match c.certExpiresInDays with
    | some days => toString days ++ " " ++ w.tr .days
    | none => "—"
  let trusted :=
    match c.certIsTrusted with
    | some true => w.tr .yes
    | some false => w.tr .no
    | none => "—"
  let found :=
    if vulns.isEmpty then
      w.tr .noneFound
    else
      ", ".intercalate vulns
  let table ←
    w.metrics
      [w.entry .sslProtocols (.str (orDash protocols))
          .sslProtocols,
        w.entry .sslCertExpiry (.str expiry) .sslCertExpiry,
        w.entry .sslTrusted (.str trusted) .sslTrusted,
        w.entry .sslVulns (.str found) .sslVulns]
  pure [badge, .spacer 3, table]

/- The section of the links, where it has data. -/
def linksPages
    (w : Writer π)
    (brokenLinks : List (List String))
    (d : LinkSummary) : Except Exc (List (Flowable π)) := do
  let shown := fun n : Nat => Json.str (toString n)
  let table ←
    w.metrics
      [w.entry .linksTotal (shown d.totalLinks) .linksTotal,
        w.entry .linksHealthy (shown d.healthy)
          .linksHealthy,
        w.entry .linksBroken (shown d.broken) .linksBroken,
        w.entry .linksRedirects (shown d.redirects)
          .linksRedirects,
        w.entry .linksTimeouts (shown d.timeouts)
          .linksTimeouts]
  let broken ←
    w.listing .linksBrokenList [.statusCol, .linkCol]
      brokenLinks [24, 150]
  pure (table :: broken)

/- The formats of the structured data of a page. -/
def formats
    (w : Writer π)
    (d : SchemaSummary) : List String :=
  (if d.hasJsonLd then [w.tr .sdJsonLd] else []) ++
    (if d.hasMicrodata then [w.tr .sdMicrodata] else []) ++
      if d.hasRdfa then [w.tr .sdRdfa] else []

/- The section of structured data, where it has data. -/
def schemaPages
    (w : Writer π)
    (schemas issues : List (List String))
    (d : SchemaSummary) :
    Except Exc (List (Flowable π)) :=
  if d.totalSchemas = 0 then do
    let missing ← w.p (w.tr .sdNone) w.mutedStyle
    pure [.paragraph missing]
  else do
    let shown := fun n : Nat => Json.str (toString n)
    let table ←
      w.metrics
        [w.entry .sdTotal (shown d.totalSchemas) .sdTotal,
          w.entry .sdValid (shown d.validSchemas) .sdValid,
          w.entry .sdRich (shown d.richResultEligible)
            .sdRich,
          w.entry .sdErrors (shown d.totalErrors) .sdErrors,
          w.entry .sdWarnings (shown d.totalWarnings)
            .sdWarnings,
          w.entry .sdFormats
            (.str
              (orDash (", ".intercalate (w.formats d))))
            .sdFormats]
    let types ←
      w.listing .sdTypesFound
        [.sdTypeCol, .sdFormatCol, .sdValidCol] schemas
        [80, 64, 30]
    let found ←
      w.listing .sdIssuesList
        [.sdTypeCol, .sdFieldCol, .issue] issues [30, 50, 94]
    pure (table :: types ++ found)

/-
  The section of a tool: its title, what its status calls
  for, and the space below.
-/
def toolSection
    {D : Type}
    (w : Writer π)
    (num : Nat)
    (heading : LabelKey)
    (pages : D → Except Exc (List (Flowable π)))
    (result : ToolResult D) :
    Except Exc (List (Flowable π)) := do
  let head ← w.sectionTitle num (w.tr heading)
  let body ←
    match result with
    | .skipped => do
        let note ← w.skipNote
        pure [.paragraph note]
    | .failed error => do
        let note ← w.failNote error
        pure [.paragraph note]
    | .ok d => pages d
  pure (head :: body ++ [.spacer 5])

------------------------------------------------------------
-- The Story
------------------------------------------------------------

/- `recommendations_intro` -/
def recommendationsIntro : Lang → String
| .en =>
    "As a software company, here is how we can improve " ++
      "the experience and fix the issues found:"
| .ar =>
    "كشركة برمجيات، إليك كيف يمكننا تحسين التجربة وإصلاح " ++
      "المشاكل المكتشفة:"

/- The lines above the sections. -/
def preamble
    (w : Writer π)
    (result : Combined) :
    Except Exc (List (Flowable π)) := do
  let banner ← w.banner
  let url ←
    w.p ("<b>" ++ w.tr .url ++ ":</b>  " ++ result.url)
      w.metaStyle
  let strategy ←
    w.p
      ("<b>" ++ w.tr .strategy ++ ":</b>  " ++ result.strategy)
      w.metaStyle
  let generated ←
    w.p
      ("<b>" ++ w.tr .generated ++ ":</b>  " ++
        w.press.strftime result.generatedAt)
      w.mutedStyle
  pure
    [banner, .spacer 5, .paragraph url, .paragraph strategy,
      .paragraph generated, .spacer 4]

/- A numbered row of the recommendations. -/
def recommendationRow
    (w : Writer π)
    (item : String × Nat) : Except Exc (List (Block π)) := do
  let para ←
    w.p (toString item.2 ++ ".  " ++ item.1)
      (w.style "rec" false (some 10) (some .navy) none
        (some 15))
  pure [.paragraph para]

/- The section of the recommendations. -/
def recommendationPages
    (w : Writer π)
    (report : Report) :
    Except Exc (List (Flowable π)) := do
  let head ← w.sectionTitle 7 (w.tr .recTitle)
  let intro ← w.p (recommendationsIntro w.lang) w.mutedStyle
  let recs ←
    fromPython
      (buildRecommendations w.press.repr w.lang.code report)
  let rows ← (recs.zipIdx 1).mapM w.recommendationRow
  let side : Int × Int :=
    if w.builder.rtl then (-1, 0) else (0, 0)
  let side' : Int × Int :=
    if w.builder.rtl then (-1, -1) else (0, -1)
  pure
    [head, .paragraph intro, .spacer 2,
      .grid rows [174]
        [ ⟨"ROWBACKGROUNDS", (0, 0), (-1, -1),
            [.tints [.white, .stripe]]⟩,
          ⟨"LINEBEFORE", side, side',
            [.number 3, .tint .accent]⟩,
          ⟨"GRID", (0, 0), (-1, -1),
            [.number (2 / 5), .tint .line]⟩,
          ⟨"VALIGN", (0, 0), (-1, -1), [.text "MIDDLE"]⟩,
          ⟨"LEFTPADDING", (0, 0), (-1, -1), [.number 8]⟩,
          ⟨"RIGHTPADDING", (0, 0), (-1, -1), [.number 8]⟩,
          ⟨"TOPPADDING", (0, 0), (-1, -1), [.number 6]⟩,
          ⟨"BOTTOMPADDING", (0, 0), (-1, -1), [.number 6]⟩ ]]

/- The rating below the sections. -/
def closing
    (w : Writer π)
    (report : Report) :
    Except Exc (List (Flowable π)) := do
  let score ← fromPython (overallScore report)
  let box ← w.summaryBox score
  pure [.spacer 8, box]

/- The story that `build_report_pdf` appends up. -/
def story
    (w : Writer π)
    (result : Combined) :
    Except Exc (List (Flowable π)) := do
  let tools := result.tools
  let cells := result.cells
  let top ← w.preamble result
  let pagespeed ←
    w.toolSection 1 .psTitle w.pagespeedPages tools.pagespeed
  let gtmetrix ←
    w.toolSection 2 .gtmTitle w.gtmetrixPages tools.gtmetrix
  let wave ←
    w.toolSection 3 .waveTitle (w.wavePages cells.topIssues)
      tools.accessibility
  let ssl ← w.toolSection 4 .sslTitle w.sslPages tools.ssl
  let links ←
    w.toolSection 5 .linksTitle
      (w.linksPages cells.brokenLinks) tools.links
  let sd ←
    w.toolSection 6 .sdTitle
      (w.schemaPages cells.schemas cells.issues)
      tools.structuredData
  let recs ← w.recommendationPages tools
  let bottom ← w.closing tools
  pure
    (top ++ pagespeed ++ gtmetrix ++ wave ++ ssl ++ links ++
      sd ++ recs ++ bottom)

end Writer

/- The builder for a language. -/
def Press.writer
    {π : Type}
    (press : Press π)
    (lang : String) : Writer π where
  press := press
  lang := if lang = "ar" then .ar else .en

/- `build_report_pdf` -/
def buildReportPdf
    {π : Type}
    (press : Press π)
    (result : Combined)
    (lang : String) : Except Exc Pdf := do
  let story ← (press.writer lang).story result
  press.build story

end SiteAnalysis.FullReport
