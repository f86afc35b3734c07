import SiteAnalysis.Python.Json

/-
  This file defines the operations of `str` that services
  apply to names and addresses.

  Key definitions include:
    * `stripText`
    * `words`
    * `rstripChar`
    * `lastPiece`
    * `firstPiece`
    * `lower`

  Key theorems include:
    * `words_of_word`
    * `lastPiece_append`
    * `rstripChar_append`
    * `strip_of_no_space`
    * `not_mem_lastPiece`
-/

------------------------------------------------------------
-- Pieces of Text
------------------------------------------------------------

namespace Python

/- `text.strip()` -/
def stripText (text : String) : String :=
  String.ofList (strip text.toList)

/- `text.split()` -/
def words (text : String) : List String :=
  ((text.toList.splitOnP isSpace).filter (· ≠ [])).map
    String.ofList

/- `text.rstrip(c)` on the characters of a text. -/
def rstripChar
    (c : Char)
    (cs : List Char) : List Char :=
  (cs.reverse.dropWhile (· = c)).reverse

/- `text.split(c)[-1]` on the characters of a text. -/
def lastPiece
    (c : Char)
    (cs : List Char) : List Char :=
  (cs.reverse.takeWhile (· ≠ c)).reverse

/- `text.split(c, 1)[0]` on the characters of a text. -/
def firstPiece
    (c : Char)
    (cs : List Char) : List Char :=
  cs.takeWhile (· ≠ c)

/-
  `text.lower()`, where it is compared with ASCII text: no
  other letter has a lower case that such a text contains.
-/
def lower (text : String) : String :=
  String.ofList (text.toList.map Char.toLower)

/- The text is one word. -/
def IsWord (text : String) : Prop :=
  text ≠ "" ∧ ∀ c ∈ text.toList, isSpace c = false

instance (text : String) : Decidable (IsWord text) :=
  decidable_of_iff
    (text ≠ "" ∧
      text.toList.all (fun c => !isSpace c) = true)
    (by simp [IsWord])

theorem toList_ne_nil
    {text : String}
    (hNonempty : text ≠ "") :
    text.toList ≠ [] := by
  intro hNil
  apply hNonempty
  rw [← String.ofList_toList (s := text), hNil]

/- A word is its only word. -/
theorem words_of_word
    {text : String}
    (hWord : IsWord text) :
    words text = [text] := by
  have hSplit :
      text.toList.splitOnP isSpace = [text.toList] := by
    apply List.splitOnP_eq_singleton
    intro c hMem
    simp [hWord.2 c hMem]
  have hNonempty := toList_ne_nil hWord.1
  simp [words, hSplit, hNonempty]

/- The last piece of a text that ends in other characters. -/
theorem lastPiece_append
    {c : Char}
    {tail : List Char}
    (hTail : c ∉ tail)
    (front : List Char) :
    lastPiece c (front ++ tail) =
      lastPiece c front ++ tail := by
  unfold lastPiece
  rw [List.reverse_append, List.takeWhile_append_of_pos,
    List.reverse_append, List.reverse_reverse]
  intro c' hMem
  have hNe : c' ≠ c := by
    intro hSame
    subst hSame
    exact hTail (List.mem_reverse.mp hMem)
  simp [hNe]

@[simp] theorem lastPiece_nil
    (c : Char) : lastPiece c [] = [] := rfl

/- The last piece after the separator itself is empty. -/
@[simp] theorem lastPiece_concat
    (c : Char)
    (front : List Char) :
    lastPiece c (front ++ [c]) = [] := by
  simp [lastPiece]

theorem lastPiece_of_not_mem
    {c : Char}
    {cs : List Char}
    (hAbsent : c ∉ cs) :
    lastPiece c cs = cs := by
  have hAppend := lastPiece_append hAbsent []
  simpa using hAppend

/- Nothing to strip at an end in other characters. -/
theorem rstripChar_append
    {c : Char}
    {tail : List Char}
    (hTail : c ∉ tail)
    (hNonempty : tail ≠ [])
    (front : List Char) :
    rstripChar c (front ++ tail) = front ++ tail := by
  unfold rstripChar
  rw [List.reverse_append]
  cases hReverse : tail.reverse with
  | nil =>
      exact
        absurd (List.reverse_eq_nil_iff.mp hReverse)
          hNonempty
  | cons last rest =>
      have hMem : last ∈ tail := by
        rw [← List.mem_reverse, hReverse]
        exact List.mem_cons_self
      have hNe : last ≠ c := by
        intro hSame
        subst hSame
        exact hTail hMem
      rw [List.cons_append, List.dropWhile_cons_of_neg
        (by simp [hNe]), ← List.cons_append, ← hReverse,
        ← List.reverse_append, List.reverse_reverse]

theorem rstripChar_of_not_mem
    {c : Char}
    {cs : List Char}
    (hAbsent : c ∉ cs) :
    rstripChar c cs = cs := by
  by_cases hEmpty : cs = []
  · rw [hEmpty]
    rfl
  · have hAppend := rstripChar_append hAbsent hEmpty []
    simpa using hAppend

/- Stripping and splitting only drop characters. -/
theorem mem_of_mem_rstripChar
    {c c' : Char}
    {cs : List Char}
    (hMem : c' ∈ rstripChar c cs) :
    c' ∈ cs := by
  have hKept := List.mem_reverse.mp hMem
  have hSuffix :
      cs.reverse.dropWhile (· = c) <:+ cs.reverse :=
    List.dropWhile_suffix _
  exact List.mem_reverse.mp (hSuffix.subset hKept)

theorem mem_of_mem_lastPiece
    {c c' : Char}
    {cs : List Char}
    (hMem : c' ∈ lastPiece c cs) :
    c' ∈ cs := by
  have hKept := List.mem_reverse.mp hMem
  have hPrefix :
      cs.reverse.takeWhile (· ≠ c) <+: cs.reverse :=
    List.takeWhile_prefix _
  exact List.mem_reverse.mp (hPrefix.subset hKept)

/- The last piece is free of the separator. -/
theorem not_mem_lastPiece
    (c : Char)
    (cs : List Char) :
    c ∉ lastPiece c cs := by
  intro hMem
  have hAll :=
    List.all_takeWhile (p := fun c' => decide (c' ≠ c))
      (l := cs.reverse)
  have hKept :=
    List.all_eq_true.mp hAll c (List.mem_reverse.mp hMem)
  simp at hKept

/- Without whitespace there is nothing to strip. -/
theorem strip_of_no_space
    {cs : List Char}
    (hSpace : ∀ c ∈ cs, isSpace c = false) :
    strip cs = cs := by
  have hDrop :
      ∀ cs' : List Char,
        (∀ c ∈ cs', isSpace c = false) →
          cs'.dropWhile isSpace = cs' := by
    intro cs' hFree
    cases cs' with
    | nil => rfl
    | cons c rest =>
        apply List.dropWhile_cons_of_neg
        simp [hFree c List.mem_cons_self]
  unfold strip
  rw [hDrop cs hSpace, hDrop cs.reverse, List.reverse_reverse]
  intro c hMem
  exact hSpace c (List.mem_reverse.mp hMem)

end Python
