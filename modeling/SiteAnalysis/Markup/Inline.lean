import Mathlib.Data.List.Basic

/-
  This file defines the texts that are well formed as inline
  markup: characters, and elements that close in the order in
  which they open.

  An ampersand stands for itself before a space.

  Key definitions include:
    * `Inline`
    * `isText`

  Key theorems include:
    * `Inline.append`
    * `inline_of_isText`
    * `inline_of_plain`
-/

------------------------------------------------------------
-- Well-Formed Markup
------------------------------------------------------------

namespace Markup

/- The texts over a set of pairs of tags. -/
inductive Inline
    (known : List Char → List Char → Prop) :
    List Char → Prop
  | nil : Inline known []
  | char
      {c : Char}
      {rest : List Char}
      (hOpens : c ≠ '<')
      (hRefers : c ≠ '&')
      (hRest : Inline known rest) :
      Inline known (c :: rest)
  | ampersand
      {rest : List Char}
      (hRest : Inline known rest) :
      Inline known ('&' :: ' ' :: rest)
  | element
      {start inner stop rest : List Char}
      (hKnown : known start stop)
      (hInner : Inline known inner)
      (hRest : Inline known rest) :
      Inline known (start ++ inner ++ stop ++ rest)

variable {known : List Char → List Char → Prop}
variable {text text' : List Char}

theorem Inline.append
    (hText : Inline known text)
    (hText' : Inline known text') :
    Inline known (text ++ text') := by
  induction hText with
  | nil => exact hText'
  | char hOpens hRefers hRest ih =>
      exact .char hOpens hRefers ih
  | ampersand hRest ih => exact .ampersand ih
  | element hKnown hInner hRest _ ih =>
      rw [List.append_assoc]
      exact .element hKnown hInner ih

theorem Inline.enclosed
    {start stop : List Char}
    (hKnown : known start stop)
    (hText : Inline known text) :
    Inline known (start ++ text ++ stop) := by
  rw [← List.append_nil (start ++ text ++ stop)]
  exact .element hKnown hText .nil

------------------------------------------------------------
-- Texts Without Markup
------------------------------------------------------------

/- No character starts a tag or a reference. -/
def isText : List Char → Bool
| [] => true
| '&' :: ' ' :: rest => isText rest
| c :: rest => c ≠ '<' && c ≠ '&' && isText rest

theorem inline_of_isText
    (hText : isText text = true) :
    Inline known text := by
  fun_induction isText text with
  | case1 => exact .nil
  | case2 rest ih => exact .ampersand (ih hText)
  | case3 c rest hOther ih =>
      simp only [Bool.and_eq_true, decide_eq_true_eq] at hText
      exact .char hText.1.1 hText.1.2 (ih hText.2)

theorem inline_of_plain
    (hOpens : '<' ∉ text)
    (hRefers : '&' ∉ text) :
    Inline known text := by
  induction text with
  | nil => exact .nil
  | cons c rest ih =>
      simp only [List.mem_cons, not_or] at hOpens hRefers
      exact
        .char (Ne.symm hOpens.1) (Ne.symm hRefers.1)
          (ih hOpens.2 hRefers.2)

end Markup
