import SiteAnalysis.Validator.Schema

/-
  This file relates the two ways in which a type name is
  shortened.

  A JSON-LD object keeps its type as it was written, and the
  validator shortens it; the type of a Microdata or RDFa item
  is shortened when the item is extracted, and the validator
  shortens the result once more.

  Key definitions include:
    * `pieceOf`
    * `withType`
    * `Untyped`
    * `Named`

  Key theorems include:
    * `resolveType_withType`
    * `shortType_of_no_space`
    * `pieceOf_idempotent`
    * `types_resolved_alike`
-/

------------------------------------------------------------
-- The Short Name
------------------------------------------------------------

namespace SiteAnalysis.Validator

open Python

/- What both ways cut out of a name. -/
def pieceOf (name : List Char) : List Char :=
  lastPiece '#' (lastPiece '/' (rstripChar '/' name))

/- An object with a type, if there is one to set. -/
def withType
    (type : Option String)
    (others : Fields) : Fields :=
  match type with
  | none => others
  | some name => ("@type", .str name) :: others

/- The extracted item, before its properties are read. -/
theorem item_typedObj
    (voc : Vocabulary)
    (path : Markup.Path)
    (tag : Markup.Tag) :
    jsonBuilder.item path (typedObj voc jsonBuilder tag) =
      .obj
        (withType (shortType (tag.attr voc.typeAttr)) []) := by
  unfold typedObj
  cases shortType (tag.attr voc.typeAttr) with
  | none => rfl
  | some name => rfl

/- `not schema_type` -/
def Untyped (type : Option String) : Prop :=
  type.getD "" = ""

/- A short name, which is not shortened any more. -/
structure Named
    (type : Option String)
    (name : String) : Prop where
  resolved : type = some name
  nonempty : name ≠ ""
  slash : '/' ∉ name.toList
  hash : '#' ∉ name.toList
  again : resolveType (withType (some name) []) = some name

variable {name : List Char} {s : String} {others : Fields}

theorem mem_of_mem_pieceOf
    {c : Char}
    (hMem : c ∈ pieceOf name) : c ∈ name :=
  mem_of_mem_rstripChar
    (mem_of_mem_lastPiece (mem_of_mem_lastPiece hMem))

theorem slash_not_mem_pieceOf
    (name : List Char) : '/' ∉ pieceOf name := by
  intro hMem
  exact not_mem_lastPiece '/' _ (mem_of_mem_lastPiece hMem)

theorem hash_not_mem_pieceOf
    (name : List Char) : '#' ∉ pieceOf name :=
  not_mem_lastPiece '#' _

/- A name without separators is not cut. -/
theorem pieceOf_idempotent
    (name : List Char) :
    pieceOf (pieceOf name) = pieceOf name := by
  have hSlash := slash_not_mem_pieceOf name
  have hHash := hash_not_mem_pieceOf name
  rw [pieceOf, rstripChar_of_not_mem hSlash,
    lastPiece_of_not_mem hSlash, lastPiece_of_not_mem hHash]

------------------------------------------------------------
-- The Two Ways
------------------------------------------------------------

/- `_short_type` of a text without whitespace. -/
theorem shortType_of_no_space
    (hSpace : ∀ c ∈ s.toList, isSpace c = false) :
    shortType (some s) =
      if pieceOf s.toList = [] then
        none
      else
        some (String.ofList (pieceOf s.toList)) := by
  by_cases hEmpty : s = ""
  · subst hEmpty
    rfl
  · have hWord : IsWord s := ⟨hEmpty, hSpace⟩
    simp only [shortType, if_neg hEmpty,
      words_of_word hWord, List.head?_cons, Option.getD_some]
    rfl

/- `resolve_type` of an object with such a type. -/
theorem resolveType_withType
    (hMarker : Json.field parseErrorKey others = none)
    (hSpace : ∀ c ∈ s.toList, isSpace c = false) :
    resolveType (withType (some s) others) =
      if s.toList = [] then
        none
      else
        some (String.ofList (pieceOf s.toList)) := by
  have hMarked :
      Json.field parseErrorKey
          (withType (some s) others) =
        none := hMarker
  have hType :
      Json.field "@type" (withType (some s) others) =
        some (.str s) := rfl
  simp only [resolveType, hMarked, Option.isSome_none,
    Bool.false_eq_true, if_false, hType, Option.getD_some,
    firstTrue, strip_of_no_space hSpace, pieceOf]

/- The marker of a broken block hides every type. -/
theorem resolveType_of_marker
    {type : Option String}
    (hMarker : Json.field parseErrorKey others ≠ none) :
    resolveType (withType type others) = none := by
  have hMarked :
      (Json.field parseErrorKey
          (withType type others)).isSome =
        true := by
    cases type with
    | none => exact Option.isSome_iff_ne_none.mpr hMarker
    | some name => exact Option.isSome_iff_ne_none.mpr hMarker
  simp [resolveType, hMarked]

theorem resolveType_untyped
    (hUntyped : Json.field "@type" others = none) :
    resolveType others = none := by
  simp [resolveType, hUntyped, firstTrue]

/- Untyped objects are validated alike. -/
theorem validateSchema_untyped
    {repr : Json → String}
    {left right : Option String}
    {data : Fields}
    (hLeft : Untyped left)
    (hRight : Untyped right) :
    validateSchema repr left data =
      validateSchema repr right data := by
  unfold Untyped at hLeft hRight
  simp only [validateSchema, hLeft, hRight]

/- A piece of a text without whitespace is without it, too. -/
theorem isSpace_pieceOf
    (hSpace : ∀ c ∈ s.toList, isSpace c = false) :
    ∀ c ∈ (String.ofList (pieceOf s.toList)).toList,
      isSpace c = false := by
  intro c hMem
  rw [String.toList_ofList] at hMem
  exact hSpace c (mem_of_mem_pieceOf hMem)

/- A piece is resolved to itself. -/
theorem resolveType_pieceOf
    (hMarker : Json.field parseErrorKey others = none)
    (hSpace : ∀ c ∈ s.toList, isSpace c = false)
    (hPiece : pieceOf s.toList ≠ []) :
    resolveType
        (withType (some (String.ofList (pieceOf s.toList)))
          others) =
      some (String.ofList (pieceOf s.toList)) := by
  rw [resolveType_withType hMarker (isSpace_pieceOf hSpace),
    String.toList_ofList, if_neg hPiece, pieceOf_idempotent]

/- The piece of a text is a short name, unless it is empty. -/
theorem named_pieceOf
    {type : Option String}
    (hSpace : ∀ c ∈ s.toList, isSpace c = false)
    (hPiece : pieceOf s.toList ≠ [])
    (hType :
      type = some (String.ofList (pieceOf s.toList))) :
    Named type (String.ofList (pieceOf s.toList)) where
  resolved := hType
  nonempty := by
    intro hEmpty
    apply hPiece
    rw [← String.toList_ofList (l := pieceOf s.toList),
      hEmpty]
    rfl
  slash := by
    rw [String.toList_ofList]
    exact slash_not_mem_pieceOf _
  hash := by
    rw [String.toList_ofList]
    exact hash_not_mem_pieceOf _
  again := resolveType_pieceOf rfl hSpace hPiece

/-
  The object and the item with the same other members are
  both untyped, or both have the same short name.
-/
theorem untyped_or_named
    (hSpace : ∀ c ∈ s.toList, isSpace c = false)
    (hUntyped : Json.field "@type" others = none) :
    (Untyped (resolveType (withType (some s) others)) ∧
        Untyped
          (resolveType
            (withType (shortType (some s)) others))) ∨
      ∃ name,
        Named (resolveType (withType (some s) others)) name ∧
          Named
            (resolveType
              (withType (shortType (some s)) others))
            name := by
  by_cases hMarker : Json.field parseErrorKey others = none
  · have hObject :=
      resolveType_withType (s := s) hMarker hSpace
    have hShort := shortType_of_no_space hSpace
    by_cases hPiece : pieceOf s.toList = []
    · left
      rw [if_pos hPiece] at hShort
      constructor
      · rw [hObject, hPiece]
        unfold Untyped
        split <;> rfl
      · rw [hShort]
        exact
          congrArg (fun type => type.getD "")
            (resolveType_untyped hUntyped)
    · right
      rw [if_neg hPiece] at hShort
      have hSome : s.toList ≠ [] := by
        intro hNil
        apply hPiece
        rw [hNil]
        rfl
      rw [if_neg hSome] at hObject
      refine
        ⟨_, named_pieceOf hSpace hPiece hObject,
          named_pieceOf hSpace hPiece ?_⟩
      rw [hShort]
      exact resolveType_pieceOf hMarker hSpace hPiece
  · left
    constructor
    · exact
        congrArg (fun type => type.getD "")
          (resolveType_of_marker hMarker)
    · exact
        congrArg (fun type => type.getD "")
          (resolveType_of_marker hMarker)

/-
  Whatever the text without whitespace and the other members,
  the validator decides alike on the object and on the item.
-/
theorem types_resolved_alike
    (hSpace : ∀ c ∈ s.toList, isSpace c = false)
    (hUntyped : Json.field "@type" others = none) :
    (∀ (repr : Json → String) (data : Fields),
      validateSchema repr
          (resolveType (withType (some s) others)) data =
        validateSchema repr
          (resolveType
            (withType (shortType (some s)) others))
          data) ∧
      ((Untyped (resolveType (withType (some s) others)) ∧
          Untyped
            (resolveType
              (withType (shortType (some s)) others))) ∨
        ∃ name,
          Named (resolveType (withType (some s) others))
              name ∧
            Named
              (resolveType
                (withType (shortType (some s)) others))
              name) := by
  have hBoth := untyped_or_named hSpace hUntyped
  refine ⟨?_, hBoth⟩
  intro repr data
  rcases hBoth with
    ⟨hLeft, hRight⟩ | ⟨name, hLeft, hRight⟩
  · exact validateSchema_untyped hLeft hRight
  · rw [hLeft.resolved, hRight.resolved]

theorem no_space_of_all
    {cs : List Char}
    (hAll : cs.all (fun c => !isSpace c) = true) :
    ∀ c ∈ cs, isSpace c = false := by
  simpa using hAll

/- An address with both separators at its end. -/
theorem types_resolved_alike_address :
    resolveType
          (withType (some "https://schema.org/#Product//")
            [("name", .str "x")]) =
        some "Product" ∧
      ((Untyped
            (resolveType
              (withType
                (some "https://schema.org/#Product//")
                [("name", .str "x")])) ∧
          Untyped
            (resolveType
              (withType
                (shortType
                  (some "https://schema.org/#Product//"))
                [("name", .str "x")]))) ∨
        ∃ name,
          Named
              (resolveType
                (withType
                  (some "https://schema.org/#Product//")
                  [("name", .str "x")]))
              name ∧
            Named
              (resolveType
                (withType
                  (shortType
                    (some "https://schema.org/#Product//"))
                  [("name", .str "x")]))
              name) :=
  ⟨by decide,
    (types_resolved_alike (no_space_of_all (by decide))
      rfl).2⟩

end SiteAnalysis.Validator
