import Mathlib.Algebra.GroupWithZero.Nat
import SiteAnalysis.Common.Exceptions

/-
  This file defines the table of metrics in the PDF of a
  report and proves that its row numbers are right.

  An entry takes one row, or two if it has an explanation.
  The rows are appended to the data of the table while a
  counter, advanced by hand, numbers them in the commands of
  its style.

  Key definitions include:
    * `Builder`
    * `Command`
    * `addEntry`
    * `metricTable`
    * `firstRow`
    * `Exact`

  Key theorems include:
    * `addEntries_spec`
    * `backgroundsOf_body`
    * `metricTable_exact`
-/

------------------------------------------------------------
-- Paragraphs
------------------------------------------------------------

namespace SiteAnalysis.FullReport

open Python

/- The languages of a report. -/
inductive Lang
  | en
  | ar
deriving DecidableEq

/- The palette, as far as the table uses it. -/
inductive Colour
  | white
  | navy
  | muted
  | line
  | stripe
deriving DecidableEq

/- `TA_LEFT`, `TA_RIGHT` -/
inductive Alignment
  | left
  | right

structure ParagraphStyle where
  name : String
  fontName : String
  fontSize : Rat
  textColor : Colour
  leading : Option Rat
  alignment : Alignment

/-
  The packages that set the text: the Arabic font that could
  be registered, the shaping of Arabic text, and the parsing
  of a text into a paragraph, which can raise.
-/
structure Typesetter (π : Type) where
  arabicFont : String
  shape : String → String
  repr : Json → String
  paragraph : String → ParagraphStyle → Except Exc π

/- `_Builder` -/
structure Builder (π : Type) where
  typesetter : Typesetter π
  lang : Lang

/- The labels of the header row. -/
structure Labels where
  metric : String
  result : String

def labels : Lang → Labels
| .en => ⟨"Metric", "Result"⟩
| .ar => ⟨"المقياس", "النتيجة"⟩

namespace Builder

variable {π : Type}

def rtl (b : Builder π) : Bool :=
  b.lang = .ar

def tr (b : Builder π) : Labels :=
  labels b.lang

def align (b : Builder π) : Alignment :=
  if b.rtl then .right else .left

def font (b : Builder π) : String :=
  if b.rtl then b.typesetter.arabicFont else "Helvetica"

def fontBold (b : Builder π) : String :=
  if b.font = "AR" then "AR-Bold" else "Helvetica-Bold"

/- The text in the order of its display. -/
def t
    (b : Builder π)
    (text : Json) : String :=
  let shown :=
    match text with
    | .null => ""
    | text => text.toStr b.typesetter.repr
  if b.rtl ∧ shown ≠ "" then
    b.typesetter.shape shown
  else
    shown

/- No font name means the font of the builder. -/
def style
    (b : Builder π)
    (name : String)
    (fontName : Option String)
    (fontSize : Rat)
    (textColor : Colour)
    (leading : Option Rat) : ParagraphStyle where
  name := name
  fontName := fontName.getD b.font
  fontSize := fontSize
  textColor := textColor
  leading := leading
  alignment := b.align

def p
    (b : Builder π)
    (text : Json)
    (style : ParagraphStyle) : Except Exc π :=
  b.typesetter.paragraph (b.t text) style

def hstyle (b : Builder π) : ParagraphStyle :=
  b.style "mh" (some b.fontBold) (19 / 2) .white none

def mstyle (b : Builder π) : ParagraphStyle :=
  b.style "ml" (some b.fontBold) (19 / 2) .navy none

def rstyle (b : Builder π) : ParagraphStyle :=
  b.style "mr" none (19 / 2) .navy none

def nstyle (b : Builder π) : ParagraphStyle :=
  b.style "mn" none 8 .muted (some (21 / 2))

/- Columns are mirrored from right to left. -/
def mirror
    {α : Type}
    (b : Builder π)
    (cells : List α) : List α :=
  if b.rtl then cells.reverse else cells

end Builder

------------------------------------------------------------
-- Tables
------------------------------------------------------------

inductive Cell (π : Type)
  | paragraph (p : π)
  | text (s : String)

/- What a command of a `TableStyle` does to its cells. -/
inductive Effect
  | background (colour : Colour)
  | span
  | box (weight : Rat) (colour : Colour)
  | lineBelow (weight : Rat) (colour : Colour)
  | valign (value : String)
  | align (value : String)
  | leftPadding (points : Nat)
  | rightPadding (points : Nat)
  | topPadding (points : Nat)
  | bottomPadding (points : Nat)
deriving DecidableEq

/-
  The effect on the cells between two corners, each a column
  and a row; negative numbers count from the end.
-/
structure Command where
  effect : Effect
  start : Int × Int
  stop : Int × Int
deriving DecidableEq

/- A command on whole rows. -/
def onRows
    (effect : Effect)
    (first last : Int) : Command where
  effect := effect
  start := (0, first)
  stop := (-1, last)

structure Table (π ω : Type) where
  rows : List (List (Cell π))
  colWidths : List ω
  commands : List Command

/- `(label, result, explanation)` -/
structure Entry where
  label : Json
  result : Json
  note : Json

/- The table under construction, and the row counter. -/
structure Layout (π : Type) where
  rows : List (List (Cell π))
  commands : List Command
  row : Nat

/- The colour of the entry at a position. -/
def blockColour (block : Nat) : Colour :=
  if block % 2 = 0 then .white else .stripe

/- The commands before the loop. -/
def headerCommands
    {π : Type}
    (b : Builder π) : List Command :=
  [ onRows (.background .navy) 0 0,
    onRows (.box (2 / 5) .line) 0 (-1),
    onRows (.lineBelow (2 / 5) .line) 0 0,
    onRows (.valign "MIDDLE") 0 (-1),
    onRows (.align (if b.rtl then "RIGHT" else "LEFT")) 0
      (-1),
    onRows (.leftPadding 7) 0 (-1),
    onRows (.rightPadding 7) 0 (-1),
    onRows (.topPadding 4) 0 (-1),
    onRows (.bottomPadding 4) 0 (-1) ]

/- The commands of an entry with an explanation. -/
def notedCommands
    (block row : Nat) : List Command :=
  [ onRows .span (row + 1) (row + 1),
    onRows (.background (blockColour block)) row (row + 1),
    onRows (.lineBelow (2 / 5) .line) (row + 1) (row + 1),
    onRows (.bottomPadding 1) row row,
    onRows (.topPadding 0) (row + 1) (row + 1) ]

/- The commands of an entry without one. -/
def plainCommands
    (block row : Nat) : List Command :=
  [ onRows (.background (blockColour block)) row row,
    onRows (.lineBelow (2 / 5) .line) row row ]

/- The body of the loop. -/
def addEntry
    {π : Type}
    (b : Builder π)
    (block : Nat)
    (entry : Entry)
    (s : Layout π) : Except Exc (Layout π) := do
  let label ← b.p entry.label b.mstyle
  let result ←
    b.p (.str (entry.result.toStr b.typesetter.repr))
      b.rstyle
  let mv := b.mirror [.paragraph label, .paragraph result]
  if entry.note.truthy then
    let note ← b.p entry.note b.nstyle
    pure
      { rows := s.rows ++ [mv, [.paragraph note, .text ""]]
        commands :=
          s.commands ++ notedCommands block s.row
        row := s.row + 2 }
  else
    pure
      { rows := s.rows ++ [mv]
        commands :=
          s.commands ++ plainCommands block s.row
        row := s.row + 1 }

/- The loop, from the entry at position `block` on. -/
def addEntries
    {π : Type}
    (b : Builder π) :
    Nat → List Entry → Layout π → Except Exc (Layout π)
| _, [], s => .ok s
| block, entry :: rest, s => do
    let s' ← addEntry b block entry s
    addEntries b (block + 1) rest s'

/- `_metric_table` -/
def metricTable
    {π ω : Type}
    (b : Builder π)
    (entries : List Entry)
    (widths : List ω) : Except Exc (Table π ω) := do
  let metric ← b.p (.str b.tr.metric) b.hstyle
  let result ← b.p (.str b.tr.result) b.hstyle
  let header :=
    b.mirror [.paragraph metric, .paragraph result]
  let s ←
    addEntries b 0 entries
      { rows := [header]
        commands := headerCommands b
        row := 1 }
  pure
    { rows := s.rows
      colWidths := b.mirror widths
      commands := s.commands }

------------------------------------------------------------
-- Exact Bookkeeping
------------------------------------------------------------

/- The rows that an entry takes. -/
def Entry.height (entry : Entry) : Nat :=
  if entry.note.truthy then 2 else 1

/- The first row of the entry at a position. -/
def firstRow
    (entries : List Entry)
    (i : Nat) : Nat :=
  1 + ((entries.take i).map Entry.height).sum

/- A row of a table, from the end if it is negative. -/
def rowNumber
    (rows : Nat)
    (n : Int) : Int :=
  if n < 0 then rows + n else n

/- The command has an effect on the row. -/
def Command.covers
    (rows : Nat)
    (c : Command)
    (r : Nat) : Bool :=
  rowNumber rows c.start.2 ≤ r ∧
    r ≤ rowNumber rows c.stop.2

def Effect.colour : Effect → Option Colour
| .background colour => some colour
| _ => none

/- The colours of the backgrounds on a row, in their order. -/
def backgroundsOf
    (rows : Nat)
    (commands : List Command)
    (r : Nat) : List Colour :=
  (commands.filter (fun c => c.covers rows r)).filterMap
    (fun c => c.effect.colour)

/- The command is on whole rows of the body of the table. -/
structure Command.InBody
    (rows : Nat)
    (c : Command) : Prop where
  whole : c.start.1 = 0 ∧ c.stop.1 = -1
  first : 1 ≤ c.start.2
  ordered : c.start.2 ≤ c.stop.2
  last : c.stop.2 < rows

/-
  The rows are those of the header and of the entries, every
  row below the header has one background, in the colour of
  its entry, the spanned rows are those of the explanations,
  and the commands of the entries are on rows that exist.
-/
structure Exact
    {π ω : Type}
    (b : Builder π)
    (entries : List Entry)
    (table : Table π ω) : Prop where
  rows :
    table.rows.length =
      1 + (entries.map Entry.height).sum
  labels :
    ∀ i entry, entries[i]? = some entry →
      ∃ label result,
        table.rows[firstRow entries i]? =
          some
            (b.mirror [.paragraph label, .paragraph result])
  notes :
    ∀ i entry, entries[i]? = some entry →
      entry.note.truthy = true →
        ∃ note,
          table.rows[firstRow entries i + 1]? =
            some [.paragraph note, .text ""]
  backgrounds :
    ∀ r, 1 ≤ r → r < table.rows.length →
      ∃ i entry, entries[i]? = some entry ∧
        firstRow entries i ≤ r ∧
          r < firstRow entries i + entry.height ∧
            backgroundsOf table.rows.length table.commands
                r =
              [blockColour i]
  spans :
    ∀ c, c ∈ table.commands ∧ c.effect = .span ↔
      ∃ i entry, entries[i]? = some entry ∧
        entry.note.truthy = true ∧
          c =
            onRows .span (firstRow entries i + 1)
              (firstRow entries i + 1)
  body :
    ∃ body, table.commands = headerCommands b ++ body ∧
      ∀ c ∈ body, c.InBody table.rows.length

------------------------------------------------------------
-- The Loop
------------------------------------------------------------

/- The commands of an entry that starts on the row. -/
def entryCommands
    (block row : Nat)
    (entry : Entry) : List Command :=
  if entry.note.truthy then
    notedCommands block row
  else
    plainCommands block row

/- The commands of the entries from a position on. -/
def bodyCommands : Nat → Nat → List Entry → List Command
| _, _, [] => []
| block, row, entry :: rest =>
    entryCommands block row entry ++
      bodyCommands (block + 1) (row + entry.height) rest

/- The rows of one entry. -/
inductive EntryRows
    {π : Type}
    (b : Builder π)
    (entry : Entry) : List (List (Cell π)) → Prop
  | noted
      (label result note : π)
      (hNote : entry.note.truthy = true) :
      EntryRows b entry
        [b.mirror [.paragraph label, .paragraph result],
          [.paragraph note, .text ""]]
  | plain
      (label result : π)
      (hNote : entry.note.truthy = false) :
      EntryRows b entry
        [b.mirror [.paragraph label, .paragraph result]]

/- A paragraph could not be parsed. -/
def Builder.Raises
    {π : Type}
    (b : Builder π)
    (e : Exc) : Prop :=
  ∃ text style, b.typesetter.paragraph text style = .error e

section Loop

variable {π ω : Type} {b : Builder π}
variable {entry : Entry} {entries : List Entry}
variable {block row r rows : Nat}
variable {s s' : Layout π} {e : Exc}

theorem EntryRows.length_eq
    {added : List (List (Cell π))}
    (hRows : EntryRows b entry added) :
    added.length = entry.height := by
  cases hRows with
  | noted label result note hNote =>
      simp [Entry.height, hNote]
  | plain label result hNote =>
      simp [Entry.height, hNote]

theorem raises_of_p
    {text : Json}
    {style : ParagraphStyle}
    (hError : b.p text style = .error e) : b.Raises e :=
  ⟨_, _, hError⟩

/- What one round of the loop appends. -/
theorem addEntry_spec
    (b : Builder π)
    (block : Nat)
    (entry : Entry)
    (s : Layout π) :
    (∃ e, addEntry b block entry s = .error e ∧
        b.Raises e) ∨
      ∃ added,
        EntryRows b entry added ∧
          addEntry b block entry s =
            .ok
              { rows := s.rows ++ added
                commands :=
                  s.commands ++
                    entryCommands block s.row entry
                row := s.row + entry.height } := by
  cases hLabel : b.p entry.label b.mstyle with
  | error e =>
      left
      refine ⟨e, ?_, raises_of_p hLabel⟩
      simp only [addEntry, hLabel]
      rfl
  | ok label =>
      cases hResult :
        b.p (.str (entry.result.toStr b.typesetter.repr))
          b.rstyle with
      | error e =>
          left
          refine ⟨e, ?_, raises_of_p hResult⟩
          simp only [addEntry, hLabel, hResult]
          rfl
      | ok result =>
          by_cases hNote : entry.note.truthy = true
          · cases hText : b.p entry.note b.nstyle with
            | error e =>
                left
                refine ⟨e, ?_, raises_of_p hText⟩
                simp only [addEntry, hLabel, hResult, hText,
                  hNote]
                rfl
            | ok note =>
                right
                refine
                  ⟨_, EntryRows.noted label result note hNote,
                    ?_⟩
                simp only [addEntry, hLabel, hResult, hText,
                  hNote, entryCommands, Entry.height, if_true]
                rfl
          · right
            have hFalse : entry.note.truthy = false :=
              Bool.eq_false_iff.mpr hNote
            refine
              ⟨_, EntryRows.plain label result hFalse, ?_⟩
            simp only [addEntry, hLabel, hResult, hFalse,
              entryCommands, Entry.height]
            rfl

/- What the whole loop appends. -/
theorem addEntries_spec
    (b : Builder π)
    (entries : List Entry)
    (block : Nat)
    (s : Layout π) :
    (∃ e, addEntries b block entries s = .error e ∧
        b.Raises e) ∨
      ∃ added,
        List.Forall₂ (EntryRows b) entries added ∧
          addEntries b block entries s =
            .ok
              { rows := s.rows ++ added.flatten
                commands :=
                  s.commands ++
                    bodyCommands block s.row entries
                row :=
                  s.row +
                    (entries.map Entry.height).sum } := by
  induction entries generalizing block s with
  | nil =>
      right
      refine ⟨[], List.Forall₂.nil, ?_⟩
      simp [addEntries, bodyCommands]
  | cons entry rest ih =>
      rcases addEntry_spec b block entry s with
        ⟨e, hError, hRaises⟩ | ⟨added, hRows, hOk⟩
      · left
        refine ⟨e, ?_, hRaises⟩
        simp only [addEntries, hError]
        rfl
      · rcases ih (block + 1)
            { rows := s.rows ++ added
              commands :=
                s.commands ++
                  entryCommands block s.row entry
              row := s.row + entry.height } with
          ⟨e, hError, hRaises⟩ | ⟨others, hOthers, hRest⟩
        · left
          refine ⟨e, ?_, hRaises⟩
          simp only [addEntries, hOk]
          exact hError
        · right
          refine
            ⟨added :: others,
              List.Forall₂.cons hRows hOthers, ?_⟩
          simp only [addEntries, hOk]
          refine hRest.trans ?_
          simp [bodyCommands, List.append_assoc,
            Nat.add_assoc]

/- The rows of one entry among all of them. -/
theorem rows_split
    {added : List (List (List (Cell π)))}
    {i : Nat}
    (hRows : List.Forall₂ (EntryRows b) entries added)
    (hEntry : entries[i]? = some entry)
    (front : List (List (Cell π))) :
    ∃ before own after,
      front ++ added.flatten = before ++ own ++ after ∧
        before.length =
            front.length +
              ((entries.take i).map Entry.height).sum ∧
          EntryRows b entry own := by
  induction hRows generalizing i front with
  | nil => simp at hEntry
  | @cons entry' added' rest others hHead hTail ih =>
      cases i with
      | zero =>
          cases hEntry
          refine
            ⟨front, added', others.flatten, ?_, rfl, hHead⟩
          simp
      | succ i =>
          rcases ih hEntry (front ++ added') with
            ⟨before, own, after, hSplit, hLength, hOwn⟩
          refine ⟨before, own, after, ?_, ?_, hOwn⟩
          · simpa using hSplit
          · rw [hLength, List.length_append,
              hHead.length_eq]
            simp [Nat.add_assoc]

theorem length_flatten_rows
    {added : List (List (List (Cell π)))}
    (hRows : List.Forall₂ (EntryRows b) entries added) :
    added.flatten.length =
      (entries.map Entry.height).sum := by
  induction hRows with
  | nil => rfl
  | cons hHead hTail ih => simp [hHead.length_eq, ih]

/- The commands of the loop are those of the entries. -/
theorem mem_bodyCommands
    {c : Command} :
    c ∈ bodyCommands block row entries ↔
      ∃ i entry, entries[i]? = some entry ∧
        c ∈
          entryCommands (block + i)
            (row + ((entries.take i).map Entry.height).sum)
            entry := by
  induction entries generalizing block row with
  | nil => simp [bodyCommands]
  | cons entry rest ih =>
      rw [bodyCommands, List.mem_append, ih]
      constructor
      · rintro (hHead | ⟨i, entry', hEntry, hMem⟩)
        · exact ⟨0, entry, rfl, hHead⟩
        · refine ⟨i + 1, entry', hEntry, ?_⟩
          simpa [Nat.add_assoc, Nat.add_comm 1 i] using hMem
      · rintro ⟨i, entry', hEntry, hMem⟩
        cases i with
        | zero =>
            cases hEntry
            exact Or.inl hMem
        | succ i =>
            right
            refine ⟨i, entry', hEntry, ?_⟩
            simpa [Nat.add_assoc, Nat.add_comm 1 i] using hMem

------------------------------------------------------------
-- Backgrounds
------------------------------------------------------------

theorem backgroundsOf_cons
    (rows : Nat)
    (c : Command)
    (commands : List Command)
    (r : Nat) :
    backgroundsOf rows (c :: commands) r =
      (if c.covers rows r then c.effect.colour.toList
        else []) ++
        backgroundsOf rows commands r := by
  unfold backgroundsOf
  by_cases hCovers : c.covers rows r = true
  · cases hColour : c.effect.colour <;>
      simp [hCovers, hColour]
  · simp [hCovers]

theorem backgroundsOf_append
    (rows : Nat)
    (left right : List Command)
    (r : Nat) :
    backgroundsOf rows (left ++ right) r =
      backgroundsOf rows left r ++
        backgroundsOf rows right r := by
  simp [backgroundsOf]

theorem covers_onRows
    {effect : Effect}
    {first last : Int}
    (hFirst : 0 ≤ first)
    (hLast : 0 ≤ last)
    (rows r : Nat) :
    (onRows effect first last).covers rows r =
      decide (first ≤ r ∧ r ≤ last) := by
  simp [Command.covers, onRows, rowNumber,
    not_lt.mpr hFirst, not_lt.mpr hLast]

/- A command that is no background. -/
theorem backgroundsOf_cons_of_none
    {c : Command}
    (hColour : c.effect.colour = none)
    (rows : Nat)
    (commands : List Command)
    (r : Nat) :
    backgroundsOf rows (c :: commands) r =
      backgroundsOf rows commands r := by
  rw [backgroundsOf_cons, hColour]
  simp

theorem backgroundsOf_of_none
    {commands : List Command}
    (hColours : ∀ c ∈ commands, c.effect.colour = none)
    (rows r : Nat) :
    backgroundsOf rows commands r = [] := by
  rw [backgroundsOf, List.filterMap_eq_nil_iff]
  intro c hMem
  exact hColours c (List.mem_filter.mp hMem).1

/- The header command is on the header row only. -/
theorem backgroundsOf_header
    (b : Builder π)
    (hRow : 1 ≤ r) :
    backgroundsOf rows (headerCommands b) r = [] := by
  have hBelow :
      (onRows (.background .navy) 0 0).covers rows r =
        false := by
    rw [covers_onRows (le_refl 0) (le_refl 0)]
    simp
    omega
  rw [headerCommands, backgroundsOf_cons, hBelow,
    backgroundsOf_of_none
      (by simp [onRows, Effect.colour])]
  rfl

/- An entry gives its rows one background, and no others. -/
theorem backgroundsOf_entry :
    backgroundsOf rows (entryCommands block row entry) r =
      if row ≤ r ∧ r < row + entry.height then
        [blockColour block]
      else
        [] := by
  have hFirst : (0 : Int) ≤ row := Int.natCast_nonneg row
  by_cases hNote : entry.note.truthy = true
  · have hLast : (0 : Int) ≤ row + 1 := by omega
    have hRows :
        ((row : Int) ≤ r ∧ (r : Int) ≤ row + 1) ↔
          row ≤ r ∧ r < row + 2 := by
      omega
    rw [entryCommands, if_pos hNote, notedCommands,
      backgroundsOf_cons_of_none rfl, backgroundsOf_cons,
      covers_onRows hFirst hLast,
      backgroundsOf_of_none (by simp [onRows, Effect.colour]),
      Entry.height, if_pos hNote]
    simp only [hRows, decide_eq_true_eq]
    split <;> rfl
  · have hRows :
        ((row : Int) ≤ r ∧ (r : Int) ≤ row) ↔
          row ≤ r ∧ r < row + 1 := by
      omega
    rw [entryCommands, if_neg hNote, plainCommands,
      backgroundsOf_cons, covers_onRows hFirst hFirst,
      backgroundsOf_of_none (by simp [onRows, Effect.colour]),
      Entry.height, if_neg hNote]
    simp only [hRows, decide_eq_true_eq]
    split <;> rfl

theorem backgroundsOf_body_of_lt
    (hRow : r < row) :
    backgroundsOf rows (bodyCommands block row entries) r =
      [] := by
  induction entries generalizing block row with
  | nil => rfl
  | cons entry rest ih =>
      have hOutside :
          ¬ (row ≤ r ∧ r < row + entry.height) := by
        omega
      rw [bodyCommands, backgroundsOf_append,
        backgroundsOf_entry, if_neg hOutside, ih (by omega),
        List.append_nil]

/- The background of a row is that of its entry. -/
theorem backgroundsOf_body
    (rows block : Nat)
    (hFirst : row ≤ r)
    (hLast :
      r < row + (entries.map Entry.height).sum) :
    ∃ i entry, entries[i]? = some entry ∧
      row + ((entries.take i).map Entry.height).sum ≤ r ∧
        r <
            row +
                ((entries.take i).map Entry.height).sum +
              entry.height ∧
          backgroundsOf rows
              (bodyCommands block row entries) r =
            [blockColour (block + i)] := by
  induction entries generalizing block row with
  | nil => simp at hLast; omega
  | cons entry rest ih =>
      rw [bodyCommands, backgroundsOf_append,
        backgroundsOf_entry]
      by_cases hHere : r < row + entry.height
      · refine ⟨0, entry, rfl, ?_, ?_, ?_⟩
        · simpa using hFirst
        · simpa using hHere
        · rw [if_pos ⟨hFirst, hHere⟩,
            backgroundsOf_body_of_lt hHere]
          rfl
      · have hLater : row + entry.height ≤ r := by omega
        rw [List.map_cons, List.sum_cons] at hLast
        rcases ih (block + 1) hLater (by omega) with
          ⟨i, entry', hEntry, hFrom, hTo, hColours⟩
        have hTaken :
            (((entry :: rest).take (i + 1)).map
                Entry.height).sum =
              entry.height +
                ((rest.take i).map Entry.height).sum := by
          simp
        refine ⟨i + 1, entry', hEntry, ?_, ?_, ?_⟩
        · rw [hTaken]
          omega
        · rw [hTaken]
          omega
        · rw [if_neg (fun hBoth => hHere hBoth.2), hColours,
            Nat.add_assoc block 1 i, Nat.add_comm 1 i]
          rfl

------------------------------------------------------------
-- Spans
------------------------------------------------------------

/- The spanned rows of one entry. -/
theorem span_mem_entry
    {c : Command} :
    c ∈ entryCommands block row entry ∧ c.effect = .span ↔
      entry.note.truthy = true ∧
        c = onRows .span (row + 1) (row + 1) := by
  by_cases hNote : entry.note.truthy = true
  · rw [entryCommands, if_pos hNote, notedCommands]
    constructor
    · rintro ⟨hMem, hSpan⟩
      refine ⟨hNote, ?_⟩
      simp only [List.mem_cons, List.not_mem_nil, or_false]
        at hMem
      rcases hMem with rfl | rfl | rfl | rfl | rfl
      · rfl
      all_goals cases hSpan
    · rintro ⟨_, rfl⟩
      exact ⟨List.mem_cons_self, rfl⟩
  · rw [entryCommands, if_neg hNote, plainCommands]
    constructor
    · rintro ⟨hMem, hSpan⟩
      simp only [List.mem_cons, List.not_mem_nil, or_false]
        at hMem
      rcases hMem with rfl | rfl
      all_goals cases hSpan
    · rintro ⟨hTrue, _⟩
      exact absurd hTrue hNote

theorem span_not_mem_header
    {c : Command}
    (b : Builder π)
    (hMem : c ∈ headerCommands b) :
    c.effect ≠ .span := by
  simp only [headerCommands, List.mem_cons,
    List.not_mem_nil, or_false] at hMem
  rcases hMem with rfl | rfl | rfl | rfl | rfl | rfl | rfl |
    rfl | rfl
  all_goals simp [onRows]

/- The commands of one entry are on its rows. -/
theorem inBody_entry
    {c : Command}
    (hMem : c ∈ entryCommands block row entry)
    (hFirst : 1 ≤ row)
    (hLast : row + entry.height ≤ rows) :
    c.InBody rows := by
  by_cases hNote : entry.note.truthy = true
  · rw [Entry.height, if_pos hNote] at hLast
    rw [entryCommands, if_pos hNote, notedCommands] at hMem
    simp only [List.mem_cons, List.not_mem_nil, or_false]
      at hMem
    rcases hMem with rfl | rfl | rfl | rfl | rfl
    all_goals
      refine ⟨⟨rfl, rfl⟩, ?_, ?_, ?_⟩ <;>
        simp only [onRows] <;> omega
  · rw [Entry.height, if_neg hNote] at hLast
    rw [entryCommands, if_neg hNote, plainCommands] at hMem
    simp only [List.mem_cons, List.not_mem_nil, or_false]
      at hMem
    rcases hMem with rfl | rfl
    all_goals
      refine ⟨⟨rfl, rfl⟩, ?_, ?_, ?_⟩ <;>
        simp only [onRows] <;> omega

/- An entry ends where the rows end, or before. -/
theorem rows_of_entry
    {i : Nat}
    (hEntry : entries[i]? = some entry) :
    ((entries.take i).map Entry.height).sum + entry.height ≤
      (entries.map Entry.height).sum := by
  induction entries generalizing i with
  | nil => simp at hEntry
  | cons entry' rest ih =>
      cases i with
      | zero =>
          cases hEntry
          simp
      | succ i =>
          have hRest := ih hEntry
          simp only [List.take_succ_cons, List.map_cons,
            List.sum_cons]
          omega

/- The table that the loop builds is exact. -/
theorem exact_of_rows
    {added : List (List (List (Cell π)))}
    (header : List (Cell π))
    (widths : List ω)
    (hRows : List.Forall₂ (EntryRows b) entries added) :
    Exact b entries
      { rows := [header] ++ added.flatten
        colWidths := widths
        commands :=
          headerCommands b ++ bodyCommands 0 1 entries } where
  rows := by
    rw [List.length_append, length_flatten_rows hRows]
    rfl
  labels := by
    intro i entry hEntry
    rcases rows_split hRows hEntry [header] with
      ⟨before, own, after, hSplit, hLength, hOwn⟩
    have hIndex : firstRow entries i = before.length :=
      hLength.symm
    rw [hSplit, hIndex]
    cases hOwn with
    | noted label result note hNote =>
        exact ⟨label, result, by simp⟩
    | plain label result hNote =>
        exact ⟨label, result, by simp⟩
  notes := by
    intro i entry hEntry hTrue
    rcases rows_split hRows hEntry [header] with
      ⟨before, own, after, hSplit, hLength, hOwn⟩
    have hIndex : firstRow entries i = before.length :=
      hLength.symm
    rw [hSplit, hIndex]
    cases hOwn with
    | noted label result note hNote =>
        exact ⟨note, by simp⟩
    | plain label result hNote =>
        rw [hNote] at hTrue
        cases hTrue
  backgrounds := by
    intro r hFirst hLast
    rw [List.length_append, length_flatten_rows hRows]
      at hLast
    rcases
      backgroundsOf_body ([header] ++ added.flatten).length 0
        hFirst hLast with
      ⟨i, entry, hEntry, hFrom, hTo, hColours⟩
    refine ⟨i, entry, hEntry, hFrom, hTo, ?_⟩
    rw [backgroundsOf_append,
      backgroundsOf_header b hFirst, List.nil_append,
      hColours, Nat.zero_add]
  spans := by
    intro c
    constructor
    · rintro ⟨hMem, hSpan⟩
      rcases List.mem_append.mp hMem with hHeader | hBody
      · exact absurd hSpan (span_not_mem_header b hHeader)
      · rcases mem_bodyCommands.mp hBody with
          ⟨i, entry, hEntry, hOwn⟩
        have hBoth := span_mem_entry.mp ⟨hOwn, hSpan⟩
        exact ⟨i, entry, hEntry, hBoth.1, hBoth.2⟩
    · rintro ⟨i, entry, hEntry, hNote, hCommand⟩
      have hOwn :
          c ∈
              entryCommands (0 + i) (firstRow entries i)
                entry ∧
            c.effect = .span :=
        span_mem_entry.mpr ⟨hNote, hCommand⟩
      have hBody :=
        mem_bodyCommands.mpr ⟨i, entry, hEntry, hOwn.1⟩
      exact ⟨List.mem_append_right _ hBody, hOwn.2⟩
  body := by
    refine ⟨_, rfl, ?_⟩
    intro c hMem
    rcases mem_bodyCommands.mp hMem with
      ⟨i, entry, hEntry, hOwn⟩
    apply inBody_entry hOwn (Nat.le_add_right 1 _)
    have hEnd := rows_of_entry hEntry
    rw [List.length_append, length_flatten_rows hRows,
      List.length_singleton]
    omega

end Loop

end SiteAnalysis.FullReport
