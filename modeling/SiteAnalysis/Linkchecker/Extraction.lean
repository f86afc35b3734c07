import Mathlib.Data.List.TakeWhile
import SiteAnalysis.Linkchecker.Links
import SiteAnalysis.Python.Lists

/-
  This file proves which links are read from a page: those of
  the elements that lead to a page, each destination once, as
  its first element has it.

  Key definitions include:
    * `LeadsTo`
    * `linkTo`
    * `linkOf`

  Key theorems include:
    * `linkOf_eq_some_iff`
    * `collectLinks_eq`
    * `links_are_first_occurrences`
-/

------------------------------------------------------------
-- Links of Elements
------------------------------------------------------------

namespace SiteAnalysis.Linkchecker

open Python Markup

variable {platform : Platform} {baseUrl baseHost : String}

/-
  The attribute `raw`, without its blanks, is a link to the
  page `target`.
-/
structure LeadsTo
    (platform : Platform)
    (baseUrl raw target : String)
    (parsed : ParsedUrl) : Prop where
  nonempty : raw ≠ ""
  plain :
    ∀ prefix' ∈ skipPrefixes,
      ¬ prefix'.toList <+: (lower raw).toList
  joined : platform.urljoin baseUrl raw = .ok target
  divided : platform.urlparse target = .ok parsed
  scheme : parsed.scheme = "http" ∨ parsed.scheme = "https"

/- The entry of an element that leads to `target`. -/
def linkTo
    (platform : Platform)
    (baseUrl baseHost target : String)
    (parsed : ParsedUrl)
    (element : (String × String) × Element) : Link where
  sourceUrl := baseUrl
  targetUrl := withoutFragment target
  anchorText := anchorText element.1.1 element.2
  linkType :=
    classifyHost baseHost (platform.lower parsed.netloc)

/- The entry of an element, if it leads to a page. -/
def linkOf
    (platform : Platform)
    (baseUrl baseHost : String)
    (element : (String × String) × Element) : Option Link :=
  match
    elementLink platform baseUrl baseHost element.1 element.2
    with
  | .ok link => link
  | .error _ => none

theorem isSkipped_eq_false_iff
    (raw : String) :
    isSkipped raw = false ↔
      raw ≠ "" ∧
        ∀ prefix' ∈ skipPrefixes,
          ¬ prefix'.toList <+: (lower raw).toList := by
  simp [isSkipped]

/- An element has an entry exactly when it leads to a page. -/
theorem linkOf_eq_some_iff
    {element : (String × String) × Element}
    {link : Link} :
    linkOf platform baseUrl baseHost element = some link ↔
      ∃ target parsed,
        LeadsTo platform baseUrl
            (rawUrl element.1.2 element.2) target parsed ∧
          link =
            linkTo platform baseUrl baseHost target parsed
              element := by
  constructor
  · intro hLink
    simp only [linkOf, elementLink] at hLink
    cases hSkipped :
        isSkipped (rawUrl element.1.2 element.2) with
    | true => simp [hSkipped] at hLink
    | false =>
        have hPlain := (isSkipped_eq_false_iff _).mp hSkipped
        cases hTarget :
            platform.urljoin baseUrl
              (rawUrl element.1.2 element.2) with
        | error e =>
            simp [hSkipped, hTarget, fromPython, bind,
              Except.bind] at hLink
        | ok target =>
            cases hParsed : platform.urlparse target with
            | error e =>
                simp [hSkipped, hTarget, hParsed, fromPython,
                  bind, Except.bind] at hLink
            | ok parsed =>
                simp only [hSkipped, hTarget, hParsed,
                  fromPython, bind, Except.bind,
                  Bool.false_eq_true, if_false] at hLink
                by_cases hScheme :
                    parsed.scheme = "http" ∨
                      parsed.scheme = "https"
                · rw [if_pos hScheme] at hLink
                  cases hLink
                  exact
                    ⟨target, parsed,
                      ⟨hPlain.1, hPlain.2, hTarget, hParsed,
                        hScheme⟩,
                      rfl⟩
                · rw [if_neg hScheme] at hLink
                  cases hLink
  · rintro ⟨target, parsed, hLeads, rfl⟩
    have hSkipped :
        isSkipped (rawUrl element.1.2 element.2) = false :=
      (isSkipped_eq_false_iff _).mpr
        ⟨hLeads.nonempty, hLeads.plain⟩
    simp only [linkOf, elementLink, hSkipped, hLeads.joined,
      hLeads.divided, fromPython, bind, Except.bind,
      Bool.false_eq_true, if_false]
    rw [if_pos hLeads.scheme]
    rfl

/- A destination has no fragment. -/
theorem hash_not_mem_withoutFragment
    (target : String) :
    '#' ∉ (withoutFragment target).toList := by
  intro hMem
  rw [withoutFragment, String.toList_ofList, firstPiece]
    at hMem
  have hNe := List.mem_takeWhile_imp hMem
  exact absurd hNe (by decide)

------------------------------------------------------------
-- The Loop
------------------------------------------------------------

theorem addLink_eq_appendNew
    (links : List Link)
    (link : Link) :
    addLink links (some link) =
      appendNew Link.targetUrl links link := rfl

/- The loop takes the entries with new destinations. -/
theorem collectLinks_eq
    (elements : List ((String × String) × Element))
    (links : List Link)
    (hTotal :
      ∀ element ∈ elements,
        Resolves platform baseUrl
          (rawUrl element.1.2 element.2)) :
    collectLinks platform baseUrl baseHost elements links =
      .ok
        ((elements.filterMap
            (linkOf platform baseUrl baseHost)).foldl
          (appendNew Link.targetUrl) links) := by
  induction elements generalizing links with
  | nil => rfl
  | cons element rest ih =>
      rw [List.forall_mem_cons] at hTotal
      rcases (elementLink_isOk baseHost).mpr hTotal.1 with
        ⟨link, hLink⟩
      rcases element with ⟨source, e⟩
      have hOf :
          linkOf platform baseUrl baseHost (source, e) =
            link := by
        simp only [linkOf, hLink]
      simp only [collectLinks, hLink, bind, Except.bind,
        List.filterMap_cons, hOf]
      rw [ih _ hTotal.2]
      cases link with
      | none => rfl
      | some link => rfl

------------------------------------------------------------
-- Pages
------------------------------------------------------------

/-
  The links of a page whose attributes can all be resolved
  are the first entries of their destinations.
-/
theorem links_are_first_occurrences
    {base : ParsedUrl}
    {html : String}
    (hBase : platform.urlparse baseUrl = .ok base)
    (hTotal :
      ∀ element ∈ linkElements (platform.soup html),
        Resolves platform baseUrl
          (rawUrl element.1.2 element.2)) :
    ∃ links,
      extractLinks platform html baseUrl = .ok links ∧
        links =
            firstBy Link.targetUrl
              ((linkElements (platform.soup html)).filterMap
                (linkOf platform baseUrl
                  (platform.lower base.netloc))) ∧
          (links.map Link.targetUrl).Nodup ∧
            (∀ link ∈ links,
              '#' ∉ link.targetUrl.toList) ∧
              (∀ url, url ∈ links.map Link.targetUrl ↔
                ∃ element ∈
                    linkElements (platform.soup html),
                  ∃ target parsed,
                    LeadsTo platform baseUrl
                        (rawUrl element.1.2 element.2)
                        target parsed ∧
                      url = withoutFragment target) ∧
                ∀ link ∈ links,
                  ∃ before element after target parsed,
                    linkElements (platform.soup html) =
                        before ++ element :: after ∧
                      LeadsTo platform baseUrl
                          (rawUrl element.1.2 element.2)
                          target parsed ∧
                        link =
                            linkTo platform baseUrl
                              (platform.lower base.netloc)
                              target parsed element ∧
                          ∀ earlier ∈ before,
                            ∀ target' parsed',
                              LeadsTo platform baseUrl
                                  (rawUrl earlier.1.2
                                    earlier.2)
                                  target' parsed' →
                                withoutFragment target' ≠
                                  link.targetUrl := by
  have hLinks :
      extractLinks platform html baseUrl =
        .ok
          (firstBy Link.targetUrl
            ((linkElements (platform.soup html)).filterMap
              (linkOf platform baseUrl
                (platform.lower base.netloc)))) := by
    simp only [extractLinks, hBase, fromPython, bind,
      Except.bind]
    rw [collectLinks_eq _ _ hTotal, foldl_appendNew]
    simp
  refine
    ⟨_, hLinks, rfl, nodup_firstBy _ _, ?_, ?_, ?_⟩
  · intro link hMem
    have hEntry := (sublist_firstBy _ _).subset hMem
    rcases List.mem_filterMap.mp hEntry with
      ⟨element, _, hOf⟩
    rcases linkOf_eq_some_iff.mp hOf with
      ⟨target, parsed, _, rfl⟩
    exact hash_not_mem_withoutFragment target
  · intro url
    rw [mem_map_firstBy, List.mem_map]
    constructor
    · rintro ⟨link, hEntry, rfl⟩
      rcases List.mem_filterMap.mp hEntry with
        ⟨element, hElement, hOf⟩
      rcases linkOf_eq_some_iff.mp hOf with
        ⟨target, parsed, hLeads, rfl⟩
      exact ⟨element, hElement, target, parsed, hLeads, rfl⟩
    · rintro ⟨element, hElement, target, parsed, hLeads,
        rfl⟩
      refine
        ⟨linkTo platform baseUrl (platform.lower base.netloc)
            target parsed element,
          ?_, rfl⟩
      apply List.mem_filterMap.mpr
      exact
        ⟨element, hElement,
          linkOf_eq_some_iff.mpr
            ⟨target, parsed, hLeads, rfl⟩⟩
  · intro link hMem
    rcases mem_firstBy_iff.mp hMem with
      ⟨entries, rest, hSplit, hNew⟩
    rcases List.filterMap_eq_append_iff.mp hSplit with
      ⟨front, back, hElements, hFront, hBack⟩
    rcases List.filterMap_eq_cons_iff.mp hBack with
      ⟨empty, element, after, hBack', hNone, hOf, _⟩
    rcases linkOf_eq_some_iff.mp hOf with
      ⟨target, parsed, hLeads, rfl⟩
    refine
      ⟨front ++ empty, element, after, target, parsed, ?_,
        hLeads, rfl, ?_⟩
    · rw [hElements, hBack', List.append_assoc]
    · intro earlier hEarlier target' parsed' hLeads'
      have hOf' :
          linkOf platform baseUrl
              (platform.lower base.netloc) earlier =
            some
              (linkTo platform baseUrl
                (platform.lower base.netloc) target' parsed'
                earlier) :=
        linkOf_eq_some_iff.mpr
          ⟨target', parsed', hLeads', rfl⟩
      rcases List.mem_append.mp hEarlier with hMem | hMem
      · apply hNew (linkTo _ _ _ target' parsed' earlier)
        rw [← hFront]
        exact List.mem_filterMap.mpr ⟨earlier, hMem, hOf'⟩
      · rw [hNone earlier hMem] at hOf'
        cases hOf'

------------------------------------------------------------
-- A Page With a Repeated Link
------------------------------------------------------------

/- Two links to one page, and an image. -/
def galleryPlatform : Platform where
  lower := lower
  urljoin := fun _ url => .ok url
  urlparse := fun _ =>
    .ok { scheme := "https", netloc := "example.com" }
  soup := fun _ =>
    .element ⟨"img", [("src", "https://example.com/c")]⟩ .nil
      (.element ⟨"a", [("href", "https://example.com/a#b")]⟩
        (.text .plain "first" .nil)
        (.element ⟨"a", [("href", "https://example.com/a")]⟩
          (.text .plain "second" .nil) .nil))
  canFetch := fun _ _ => .ok true
  statusMessage := fun _ _ => ""

theorem links_are_first_occurrences_gallery :
    ∃ links,
      extractLinks galleryPlatform "" "https://example.com/" =
          .ok links ∧
        links.map Link.targetUrl =
          ["https://example.com/a", "https://example.com/c"] := by
  have hTotal :
      ∀ element ∈ linkElements (galleryPlatform.soup ""),
        Resolves galleryPlatform "https://example.com/"
          (rawUrl element.1.2 element.2) :=
    fun _ _ => Or.inr ⟨_, _, rfl, rfl⟩
  have hBase :
      galleryPlatform.urlparse "https://example.com/" =
        .ok { scheme := "https", netloc := "example.com" } :=
    rfl
  rcases links_are_first_occurrences hBase hTotal with
    ⟨links, hLinks, hEntries, _⟩
  refine ⟨links, hLinks, ?_⟩
  rw [hEntries]
  rfl

end SiteAnalysis.Linkchecker
