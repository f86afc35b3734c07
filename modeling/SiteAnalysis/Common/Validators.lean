import SiteAnalysis.Common.Columns

/-
  This file defines the validation of submitted URLs.

  Key definitions include:
    * `validateNoLocalhost`
    * `admitsUrl`

  Key theorems include:
    * `validateNoLocalhost_iff`
    * `infix_of_not_mem`
-/

------------------------------------------------------------
-- URL Validators
------------------------------------------------------------

namespace SiteAnalysis

open Python

/- The blocked tokens of `validate_no_localhost`. -/
def blockedTokens : List String :=
  ["localhost", "127.0.0.1", "0.0.0.0", "::1", "169.254."]

/- `token in text` -/
def isInfix (token text : List Char) : Bool :=
  match text with
  | [] => token.isEmpty
  | _ :: rest => token.isPrefixOf text || isInfix token rest

/- `validate_no_localhost` does not raise. -/
def validateNoLocalhost (value : String) : Bool :=
  let lowered := value.toList.map Char.toLower
  !(blockedTokens.any fun token =>
    isInfix token.toList lowered)

/-
  The `url` field of an input serializer accepts the value;
  `isHttpUrl` is `URLValidator(schemes=["http", "https"])`.
-/
def admitsUrl
    (isHttpUrl : String → Bool)
    (url : String) : Bool :=
  fitsChar 2048 url && isHttpUrl url &&
    validateNoLocalhost url

theorem guard_of_admitsUrl
    {isHttpUrl : String → Bool}
    {url : String}
    (hAdmits : admitsUrl isHttpUrl url = true) :
    isHttpUrl url = true ∧ validateNoLocalhost url = true := by
  rw [admitsUrl, Bool.and_eq_true, Bool.and_eq_true]
    at hAdmits
  exact ⟨hAdmits.1.2, hAdmits.2⟩

theorem fitsChar_of_admitsUrl
    {isHttpUrl : String → Bool}
    {url : String}
    (hAdmits : admitsUrl isHttpUrl url = true) :
    fitsChar 2048 url = true := by
  rw [admitsUrl, Bool.and_eq_true, Bool.and_eq_true]
    at hAdmits
  exact hAdmits.1.1

------------------------------------------------------------
-- Texts That Pass
------------------------------------------------------------

theorem isInfix_iff
    (token text : List Char) :
    isInfix token text = true ↔ token <:+: text := by
  induction text with
  | nil => simp [isInfix]
  | cons c rest ih =>
      simp [isInfix, ih, List.infix_cons_iff]

/- No blocked token stands in the lowered text. -/
theorem validateNoLocalhost_iff
    (value : String) :
    validateNoLocalhost value = true ↔
      ∀ token ∈ blockedTokens,
        ¬ token.toList <:+:
          value.toList.map Char.toLower := by
  simp [validateNoLocalhost, ← isInfix_iff]

theorem prefix_of_not_mem
    {c : Char}
    {token right : List Char}
    (left : List Char)
    (hNotMem : c ∉ token)
    (hPrefix : token <+: left ++ c :: right) :
    token <+: left := by
  induction left generalizing token with
  | nil =>
      cases token with
      | nil => exact List.prefix_rfl
      | cons a token =>
          have hHead := (List.cons_prefix_cons.mp hPrefix).1
          subst hHead
          exact absurd List.mem_cons_self hNotMem
  | cons b left ih =>
      cases token with
      | nil => exact List.nil_prefix
      | cons a token =>
          have hParts := List.cons_prefix_cons.mp hPrefix
          apply List.cons_prefix_cons.mpr
          refine ⟨hParts.1, ih ?_ hParts.2⟩
          intro hMem
          exact hNotMem (List.mem_cons_of_mem _ hMem)

/- A token stands on one side of a character it lacks. -/
theorem infix_of_not_mem
    {c : Char}
    {token left right : List Char}
    (hNotMem : c ∉ token)
    (hInfix : token <:+: left ++ c :: right) :
    token <:+: left ∨ token <:+: right := by
  induction left with
  | nil =>
      rcases List.infix_cons_iff.mp hInfix with
        hPrefix | hRight
      · have hNil := prefix_of_not_mem [] hNotMem hPrefix
        exact Or.inl hNil.isInfix
      · exact Or.inr hRight
  | cons b left ih =>
      rcases List.infix_cons_iff.mp hInfix with
        hPrefix | hRest
      · have hLeft :=
          prefix_of_not_mem (b :: left) hNotMem hPrefix
        exact Or.inl hLeft.isInfix
      · rcases ih hRest with hLeft | hRight
        · exact Or.inl (List.infix_cons_iff.mpr (Or.inr hLeft))
        · exact Or.inr hRight

end SiteAnalysis
