import SiteAnalysis.Linkchecker.Service

/-
  This file proves which links a page has and which pages
  have an attribute that cannot be resolved.

  Key definitions include:
    * `Resolves`
    * `Extracted`

  Key theorems include:
    * `extracted_of_page`
    * `extractLinks_isOk`
-/

------------------------------------------------------------
-- Extracted Links
------------------------------------------------------------

namespace SiteAnalysis.Linkchecker

open Python Markup

variable {platform : Platform}

/- The attribute is skipped, or leads to some URL. -/
def Resolves
    (platform : Platform)
    (baseUrl raw : String) : Prop :=
  isSkipped raw = true ∨
    ∃ target parsed,
      platform.urljoin baseUrl raw = .ok target ∧
        platform.urlparse target = .ok parsed

section Extraction

variable {baseUrl baseHost : String}
variable {source : String × String} {e : Element}
variable {links all : List Link}

/- An element raises exactly when its attribute does. -/
theorem elementLink_isOk
    (baseHost : String) :
    (∃ link,
      elementLink platform baseUrl baseHost source e =
        .ok link) ↔
      Resolves platform baseUrl (rawUrl source.2 e) := by
  simp only [elementLink, Resolves]
  by_cases hSkipped : isSkipped (rawUrl source.2 e) = true
  · simp [hSkipped]
  · rw [if_neg hSkipped]
    simp only [isOk_bind_iff, fromPython_eq_ok, hSkipped,
      Bool.false_eq_true, false_or]
    constructor
    · rintro ⟨target, hTarget, parsed, hParsed, _⟩
      exact ⟨target, parsed, hTarget, hParsed⟩
    · rintro ⟨target, parsed, hTarget, hParsed⟩
      refine ⟨target, hTarget, parsed, hParsed, ?_⟩
      split
      · exact ⟨_, rfl⟩
      · exact ⟨_, rfl⟩

/- The loop raises exactly when an element does. -/
theorem collectLinks_isOk
    (elements : List ((String × String) × Element))
    (links : List Link) :
    (∃ all,
      collectLinks platform baseUrl baseHost elements links =
        .ok all) ↔
      ∀ element ∈ elements,
        Resolves platform baseUrl
          (rawUrl element.1.2 element.2) := by
  induction elements generalizing links with
  | nil => simp [collectLinks]
  | cons element rest ih =>
      rcases element with ⟨source, e⟩
      simp only [collectLinks, isOk_bind_iff, ih,
        List.forall_mem_cons]
      rw [← elementLink_isOk baseHost]
      constructor
      · rintro ⟨link, hLink, hRest⟩
        exact ⟨⟨link, hLink⟩, hRest⟩
      · rintro ⟨⟨link, hLink⟩, hRest⟩
        exact ⟨link, hLink, hRest⟩

/- The links have distinct destinations, from one page. -/
structure Extracted
    (baseUrl : String)
    (links : List Link) : Prop where
  source : ∀ link ∈ links, link.sourceUrl = baseUrl
  targets : (links.map Link.targetUrl).Nodup

theorem extracted_addLink
    {link : Option Link}
    (hExtracted : Extracted baseUrl links)
    (hSource : ∀ l, link = some l → l.sourceUrl = baseUrl) :
    Extracted baseUrl (addLink links link) := by
  cases link with
  | none => exact hExtracted
  | some link =>
      simp only [addLink]
      split
      · exact hExtracted
      · rename_i hNew
        simp only [List.any_eq_true, decide_eq_true_eq,
          not_exists, not_and] at hNew
        constructor
        · intro l hMem
          rcases List.mem_append.mp hMem with hOld | hLast
          · exact hExtracted.source l hOld
          · rw [List.mem_singleton.mp hLast]
            exact hSource link rfl
        · rw [List.map_append, List.nodup_append]
          refine
            ⟨hExtracted.targets, List.nodup_singleton _, ?_⟩
          intro a hOld b hLast hSame
          rcases List.mem_map.mp hOld with ⟨l, hl, rfl⟩
          apply hNew l hl
          rw [hSame]
          simpa using hLast

theorem sourceUrl_of_elementLink
    {link : Link}
    (hLink :
      elementLink platform baseUrl baseHost source e =
        .ok (some link)) :
    link.sourceUrl = baseUrl := by
  simp only [elementLink] at hLink
  split at hLink
  · cases hLink
  · cases hTarget :
        fromPython
          (platform.urljoin baseUrl (rawUrl source.2 e)) with
    | error e => simp [hTarget, bind, Except.bind] at hLink
    | ok target =>
        cases hParsed :
            fromPython (platform.urlparse target) with
        | error e =>
            simp [hTarget, hParsed, bind, Except.bind]
              at hLink
        | ok parsed =>
            simp only [hTarget, hParsed, bind, Except.bind]
              at hLink
            split at hLink
            · cases hLink
              rfl
            · cases hLink

theorem extracted_collectLinks
    {elements : List ((String × String) × Element)}
    (hExtracted : Extracted baseUrl links)
    (hAll :
      collectLinks platform baseUrl baseHost elements links =
        .ok all) :
    Extracted baseUrl all := by
  induction elements generalizing links with
  | nil =>
      cases hAll
      exact hExtracted
  | cons element rest ih =>
      rcases element with ⟨source, e⟩
      simp only [collectLinks] at hAll
      cases hLink :
          elementLink platform baseUrl baseHost source e with
      | error e' =>
          simp [hLink, bind, Except.bind] at hAll
      | ok link =>
          simp only [hLink, bind, Except.bind] at hAll
          apply ih _ hAll
          apply extracted_addLink hExtracted
          intro l hSome
          subst hSome
          exact sourceUrl_of_elementLink hLink

theorem extracted_of_page
    {html : String}
    (hLinks :
      extractLinks platform html baseUrl = .ok links) :
    Extracted baseUrl links := by
  unfold extractLinks at hLinks
  cases hBase :
      fromPython (platform.urlparse baseUrl) with
  | error e => simp [hBase, bind, Except.bind] at hLinks
  | ok base =>
      simp only [hBase, bind, Except.bind] at hLinks
      apply extracted_collectLinks _ hLinks
      exact ⟨(fun _ hMem => by cases hMem), List.nodup_nil⟩

/- The first links of a page. -/
theorem Extracted.take
    (hExtracted : Extracted baseUrl links)
    (count : Nat) :
    Extracted baseUrl (links.take count) where
  source := by
    intro link hMem
    exact hExtracted.source link (List.mem_of_mem_take hMem)
  targets := by
    rw [List.map_take]
    exact hExtracted.targets.sublist (List.take_sublist _ _)

theorem extractLinks_isOk
    {base : ParsedUrl}
    (html : String)
    (hBase : platform.urlparse baseUrl = .ok base) :
    (∃ links,
      extractLinks platform html baseUrl = .ok links) ↔
      ∀ element ∈ linkElements (platform.soup html),
        Resolves platform baseUrl
          (rawUrl element.1.2 element.2) := by
  unfold extractLinks
  simp only [hBase, fromPython, bind, Except.bind]
  exact collectLinks_isOk _ _

end Extraction

end SiteAnalysis.Linkchecker
