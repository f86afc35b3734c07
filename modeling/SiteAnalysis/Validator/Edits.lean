import SiteAnalysis.Validator.Declared

/-
  This file proves what completing an object does to the
  verdict on it.

  A property that is missing gets a value of its type.  The
  errors about it go away and the others stay, so that a
  valid object stays valid, and an eligible one eligible.

  Key definitions include:
    * `setMember`
    * `subject`
    * `isAbout`

  Key theorems include:
    * `errors_ruleIssues_setMember`
    * `errors_setMember`
-/

------------------------------------------------------------
-- Members
------------------------------------------------------------

namespace SiteAnalysis.Validator

open Python

/- `data[prop] = value` -/
def setMember
    (prop : String)
    (value : Json) : Fields → Fields
| [] => [(prop, value)]
| (key, old) :: rest =>
    if key = prop then
      (key, value) :: rest
    else
      (key, old) :: setMember prop value rest

variable {rule : SchemaRule} {name : String} {data : Fields}
variable {repr : Json → String} {prop other : String}
variable {value : Json}

theorem field_setMember_self :
    Json.field prop (setMember prop value data) =
      some value := by
  induction data with
  | nil => simp [setMember, Json.field]
  | cons member rest ih =>
      unfold setMember
      split
      · rename_i hKey
        simp [Json.field, hKey]
      · rename_i hKey
        have hNe : (prop == member.1) = false := by
          simpa using Ne.symm hKey
        rw [Json.field, List.lookup_cons, hNe]
        exact ih

theorem field_setMember_of_ne
    (hNe : other ≠ prop) :
    Json.field other (setMember prop value data) =
      Json.field other data := by
  induction data with
  | nil =>
      have hOther : (other == prop) = false := by
        simpa using hNe
      rw [setMember, Json.field, List.lookup_cons, hOther]
      rfl
  | cons member rest ih =>
      simp only [Json.field] at ih
      unfold setMember
      split
      · rename_i hKey
        have hOther : (other == member.1) = false := by
          simpa [hKey] using hNe
        rw [Json.field, Json.field, List.lookup_cons,
          List.lookup_cons, hOther]
      · rw [Json.field, Json.field, List.lookup_cons,
          List.lookup_cons, ih]

theorem isMissing_setMember_self
    (hValue : isEmptyValue value = false) :
    isMissing (setMember prop value data) prop = false := by
  rw [isMissing, field_setMember_self]
  exact hValue

theorem isMissing_setMember_of_ne
    (hNe : other ≠ prop) :
    isMissing (setMember prop value data) other =
      isMissing data other := by
  rw [isMissing, isMissing, field_setMember_of_ne hNe]

theorem hasWrongType_of_missing
    {p : String × Expected}
    (hMissing : isMissing data p.1 = true) :
    hasWrongType data p = false := by
  unfold isMissing at hMissing
  unfold hasWrongType
  cases hField : Json.field p.1 data with
  | none => rfl
  | some value =>
      rw [hField] at hMissing
      simp [hMissing]

------------------------------------------------------------
-- Subjects
------------------------------------------------------------

/- The property at the head of a field path. -/
def subject (path : String) : String :=
  String.ofList
    (path.toList.takeWhile (fun c => c ≠ '[' && c ≠ '.'))

/- The properties that a rule names. -/
def SchemaRule.properties (rule : SchemaRule) : List String :=
  rule.required ++ rule.recommended ++
    rule.propertyTypes.map Prod.fst ++
      rule.listProperty.toList ++
        rule.objectRecommended.map Prod.fst

/- The issue is about the property of the rule. -/
def isAbout
    (rule : SchemaRule)
    (prop : String)
    (issue : Issue) : Bool :=
  prop ∈ rule.properties ∧ subject issue.field = prop

/- A property's name is a path of its own. -/
theorem subject_of_mem_properties
    (hRule : getRule name = some rule)
    (hProp : prop ∈ rule.properties) :
    subject prop = prop := by
  have hAll :
      ∀ rule ∈ rules.map Prod.snd,
        ∀ prop ∈ rule.properties, subject prop = prop := by
    decide +kernel
  exact hAll rule (getRule_of_mem hRule) prop hProp

/- No rule names the type. -/
theorem type_not_mem_properties
    (hRule : getRule name = some rule) :
    "@type" ∉ rule.properties := by
  have hAll :
      ∀ rule ∈ rules.map Prod.snd,
        "@type" ∉ rule.properties := by
    decide +kernel
  exact hAll rule (getRule_of_mem hRule)

theorem mem_properties_of_required
    (hProp : prop ∈ rule.required) :
    prop ∈ rule.properties := by
  simp [SchemaRule.properties, hProp]

theorem mem_properties_of_typed
    {p : String × Expected}
    (hTyped : p ∈ rule.propertyTypes) :
    p.1 ∈ rule.properties := by
  have hMem := List.mem_map_of_mem (f := Prod.fst) hTyped
  simp only [SchemaRule.properties, List.mem_append]
  exact Or.inl (Or.inl (Or.inr hMem))

theorem mem_properties_of_list
    (hList : rule.listProperty = some prop) :
    prop ∈ rule.properties := by
  simp [SchemaRule.properties, hList]

/- A path into an entry of a property. -/
theorem subject_location
    {index : Nat}
    (rest : String)
    (hName : subject prop = prop) :
    subject (location prop index ++ rest) = prop := by
  have hAll :
      prop.toList.takeWhile
          (fun c => c ≠ '[' && c ≠ '.') = prop.toList := by
    have hList := congrArg String.toList hName
    rwa [subject, String.toList_ofList] at hList
  have hPath :
      (location prop index ++ rest).toList =
        prop.toList ++
          '[' :: ((toString index).toList ++
            ']' :: rest.toList) := by
    simp [location]
  rw [subject, hPath, List.takeWhile_append, hAll]
  simp

------------------------------------------------------------
-- Issues of Entries
------------------------------------------------------------

/- The issues of an entry are in its location. -/
theorem field_of_validateEntry
    {loc : String}
    {issue : Issue}
    (hIssue : issue ∈ validateEntry rule prop loc value) :
    ∃ rest, issue.field = loc ++ rest := by
  cases value with
  | obj entry =>
      simp only [validateEntry, List.mem_append,
        List.mem_flatMap] at hIssue
      rcases hIssue with
        (hType | ⟨req, _, hReq⟩) | ⟨nested, _, hNested⟩
      · unfold wrongEntryType at hType
        split at hType
        · split at hType
          · rw [List.mem_singleton.mp hType]
            exact ⟨".@type", rfl⟩
          · cases hType
        · cases hType
      · unfold missingInEntry at hReq
        split at hReq
        · rw [List.mem_singleton.mp hReq]
          exact ⟨"." ++ req, String.append_assoc ..⟩
        · cases hReq
      · split at hNested
        · rcases List.mem_flatMap.mp hNested with
            ⟨sub, _, hSub⟩
          unfold missingInChild at hSub
          split at hSub
          · rw [List.mem_singleton.mp hSub]
            refine ⟨"." ++ nested.1 ++ "." ++ sub, ?_⟩
            simp only [String.append_assoc]
          · cases hSub
        · cases hNested
  | _ =>
      rw [List.mem_singleton.mp hIssue]
      exact ⟨"", (String.append_empty).symm⟩

/- The issues of the list property are about it. -/
theorem subject_of_validateList
    {issue : Issue}
    (hRule : getRule name = some rule)
    (hIssue : issue ∈ validateList rule data) :
    rule.listProperty = some (subject issue.field) := by
  unfold validateList at hIssue
  split at hIssue
  · cases hIssue
  · rename_i list hList
    split at hIssue
    · rcases List.mem_flatMap.mp hIssue with
        ⟨entry, _, hEntry⟩
      rcases field_of_validateEntry hEntry with ⟨rest, hPath⟩
      have hName :=
        subject_of_mem_properties hRule
          (mem_properties_of_list hList)
      rw [hPath, subject_location rest hName]
      exact hList
    · cases hIssue

------------------------------------------------------------
-- Completed Objects
------------------------------------------------------------

/- The issues that are not about the property. -/
def others
    (rule : SchemaRule)
    (prop : String)
    (issues : List Issue) : List Issue :=
  issues.filter (fun issue => !isAbout rule prop issue)

theorem others_append
    (left right : List Issue) :
    others rule prop (left ++ right) =
      others rule prop left ++ others rule prop right :=
  List.filter_append ..

/- The required properties that are still missing. -/
theorem required_setMember
    (hRule : getRule name = some rule)
    (hValue : isEmptyValue value = false) :
    (rule.required.filter
        (isMissing (setMember prop value data))).map
          (requiredIssue name) =
      others rule prop
        ((rule.required.filter (isMissing data)).map
          (requiredIssue name)) := by
  rw [others, List.filter_map, List.filter_filter]
  apply congrArg (List.map (requiredIssue name))
  apply List.filter_congr
  intro req hReq
  have hProperty := mem_properties_of_required hReq
  have hName := subject_of_mem_properties hRule hProperty
  by_cases hSame : req = prop
  · subst hSame
    have hAbout :
        isAbout rule req (requiredIssue name req) = true :=
      decide_eq_true ⟨hProperty, hName⟩
    simp [isMissing_setMember_self hValue, hAbout]
  · have hAbout :
        isAbout rule prop (requiredIssue name req) =
          false := by
      apply decide_eq_false
      rintro ⟨_, hSubject⟩
      exact hSame (hName.symm.trans hSubject)
    simp [isMissing_setMember_of_ne hSame, hAbout]

/- The properties with a wrong type. -/
theorem typed_setMember
    (hRule : getRule name = some rule)
    (hMissing : isMissing data prop = true)
    (hTyped :
      ∀ expected, (prop, expected) ∈ rule.propertyTypes →
        typeOk value expected = true) :
    (rule.propertyTypes.filter
        (hasWrongType (setMember prop value data))).map
          (fun p => wrongTypeIssue p.1 p.2) =
      others rule prop
        ((rule.propertyTypes.filter
          (hasWrongType data)).map
            (fun p => wrongTypeIssue p.1 p.2)) := by
  rw [others, List.filter_map, List.filter_filter]
  apply congrArg
  apply List.filter_congr
  intro p hp
  have hName :=
    subject_of_mem_properties hRule
      (mem_properties_of_typed hp)
  by_cases hSame : p.1 = prop
  · have hNew :
        hasWrongType (setMember prop value data) p =
          false := by
      have hOk := hTyped p.2 (hSame ▸ hp)
      rw [hasWrongType, hSame, field_setMember_self]
      simp [hOk]
    have hOld : hasWrongType data p = false := by
      rw [← hSame] at hMissing
      exact hasWrongType_of_missing hMissing
    simp [hNew, hOld]
  · have hSubject :
        isAbout rule prop (wrongTypeIssue p.1 p.2) =
          false := by
      apply decide_eq_false
      rintro ⟨_, hSubject⟩
      exact hSame (hName.symm.trans hSubject)
    have hKept :
        hasWrongType (setMember prop value data) p =
          hasWrongType data p := by
      rw [hasWrongType, hasWrongType,
        field_setMember_of_ne hSame]
    simp [hKept, hSubject]

/- The errors in the entries of the list property. -/
theorem listed_setMember
    (hRule : getRule name = some rule)
    (hMissing : isMissing data prop = true)
    (hList :
      rule.listProperty = some prop →
        ∀ entries, value = .arr entries →
          ∀ entry ∈ entries, entryOk rule entry = true) :
    errors
        (validateList rule (setMember prop value data)) =
      others rule prop (errors (validateList rule data)) := by
  by_cases hSame : rule.listProperty = some prop
  · have hNew :
        errors
            (validateList rule
              (setMember prop value data)) = [] := by
      rw [errors_validateList]
      intro prop' entries hProp hField
      rw [hSame] at hProp
      cases hProp
      rw [field_setMember_self] at hField
      exact hList hSame entries (Option.some.inj hField)
    have hOld : errors (validateList rule data) = [] := by
      rw [errors_validateList]
      intro prop' entries hProp hField entry hMem
      rw [hSame] at hProp
      cases hProp
      rw [isMissing, hField] at hMissing
      rw [List.isEmpty_iff.mp hMissing] at hMem
      cases hMem
    rw [hNew, hOld]
    rfl
  · have hKept :
        validateList rule (setMember prop value data) =
          validateList rule data := by
      unfold validateList
      cases hProperty : rule.listProperty with
      | none => rfl
      | some list =>
          have hNe : list ≠ prop := by
            rintro rfl
            exact hSame hProperty
          dsimp only
          rw [field_setMember_of_ne hNe]
    rw [hKept]
    symm
    apply List.filter_eq_self.mpr
    intro issue hIssue
    have hSubject :=
      subject_of_validateList hRule
        (List.mem_of_mem_filter hIssue)
    have hAbout : isAbout rule prop issue = false := by
      apply decide_eq_false
      rintro ⟨_, hProp⟩
      exact hSame (hSubject.trans (congrArg some hProp))
    simp [hAbout]

theorem errors_ruleIssues_setMember
    (hRule : getRule name = some rule)
    (hMissing : isMissing data prop = true)
    (hValue : isEmptyValue value = false)
    (hTyped :
      ∀ expected, (prop, expected) ∈ rule.propertyTypes →
        typeOk value expected = true)
    (hList :
      rule.listProperty = some prop →
        ∀ entries, value = .arr entries →
          ∀ entry ∈ entries, entryOk rule entry = true) :
    errors
        (ruleIssues rule name (setMember prop value data)) =
      others rule prop
        (errors (ruleIssues rule name data)) := by
  rw [errors_ruleIssues, errors_ruleIssues, others_append,
    others_append, required_setMember hRule hValue,
    typed_setMember hRule hMissing hTyped,
    listed_setMember hRule hMissing hList]

theorem isRichResultEligible_setMember
    (hValue : isEmptyValue value = false)
    (hRich : isRichResultEligible rule data = true) :
    isRichResultEligible rule (setMember prop value data) =
      true := by
  rw [isRichResultEligible, List.all_eq_true] at *
  intro rich hMem
  by_cases hSame : rich = prop
  · rw [hSame, isMissing_setMember_self hValue]
    rfl
  · rw [isMissing_setMember_of_ne hSame]
    exact hRich rich hMem

/-
  A missing property of an object gets a value with its type,
  and with entries that satisfy the list rules: what is wrong
  then is what was wrong with other properties, and neither
  validity nor eligibility is lost.
-/
theorem errors_setMember
    (hRule : getRule name = some rule)
    (hProp : prop ≠ parseErrorKey)
    (hMissing : isMissing data prop = true)
    (hValue : isEmptyValue value = false)
    (hTyped :
      ∀ expected, (prop, expected) ∈ rule.propertyTypes →
        typeOk value expected = true)
    (hList :
      rule.listProperty = some prop →
        ∀ entries, value = .arr entries →
          ∀ entry ∈ entries, entryOk rule entry = true) :
    let before := validateSchema repr (some name) data
    let after :=
      validateSchema repr (some name)
        (setMember prop value data)
    errors after.issues =
        (errors before.issues).filter
          (fun issue => !isAbout rule prop issue) ∧
      (before.isValid = true → after.isValid = true) ∧
        (before.richResultEligible = true →
          after.richResultEligible = true) := by
  have hKey :
      Json.field parseErrorKey (setMember prop value data) =
        Json.field parseErrorKey data :=
    field_setMember_of_ne (Ne.symm hProp)
  cases hParsed : Json.field parseErrorKey data with
  | some reason =>
      have hResult :
          ∀ d, Json.field parseErrorKey d = some reason →
            validateSchema repr (some name) d =
              ⟨unknownType, false, false,
                [parseErrorIssue (reason.toStr repr)]⟩ := by
        intro d hField
        simp only [validateSchema, hField]
      rw [hResult _ hParsed, hResult _ (hKey.trans hParsed)]
      refine ⟨?_, id, id⟩
      have hAbout :
          isAbout rule prop
              (parseErrorIssue (reason.toStr repr)) =
            false := by
        apply decide_eq_false
        rintro ⟨hMem, hSubject⟩
        have hType : subject "@type" = "@type" := by decide
        rw [← hSubject] at hMem
        exact
          type_not_mem_properties hRule (hType ▸ hMem)
      have hErrors :
          errors [parseErrorIssue (reason.toStr repr)] =
            [parseErrorIssue (reason.toStr repr)] := rfl
      dsimp only
      rw [hErrors, List.filter_cons, hAbout]
      rfl
  | none =>
      have hErrors :=
        errors_ruleIssues_setMember hRule hMissing hValue
          hTyped hList
      rw [validateSchema_of_getRule hRule hParsed,
        validateSchema_of_getRule hRule
          (hKey.trans hParsed)]
      have hKept :
          (errors (ruleIssues rule name data)).isEmpty =
              true →
            (errors
                (ruleIssues rule name
                  (setMember prop value data))).isEmpty =
              true := by
        intro hEmpty
        rw [hErrors, List.isEmpty_iff.mp hEmpty]
        rfl
      refine ⟨hErrors, hKept, ?_⟩
      intro hRich
      rw [Bool.and_eq_true] at hRich ⊢
      exact
        ⟨hKept hRich.1,
          isRichResultEligible_setMember hValue hRich.2⟩

/- A product without an image. -/
def bareProduct : Fields :=
  [("@type", .str "Product"), ("name", .str "Pen")]

def productImage : Json := .str "https://example.com/p.png"

/- Its image is added. -/
theorem errors_setMember_product :
    let before :=
      validateSchema (fun _ => "") (some "Product")
        bareProduct
    let after :=
      validateSchema (fun _ => "") (some "Product")
        (setMember "image" productImage bareProduct)
    errors after.issues =
        (errors before.issues).filter
          (fun issue => !isAbout productRule "image" issue) ∧
      (before.isValid = true → after.isValid = true) ∧
        (before.richResultEligible = true →
          after.richResultEligible = true) := by
  have hRule : getRule "Product" = some productRule := rfl
  apply errors_setMember hRule
  · decide
  · rfl
  · rfl
  · intro expected hMem
    have hImage : expected = .image := by
      simpa [productRule] using hMem
    subst hImage
    rfl
  · intro hList
    cases hList

end SiteAnalysis.Validator
