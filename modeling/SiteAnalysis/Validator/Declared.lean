import SiteAnalysis.Validator.Schema

/-
  This file proves what a valid object has of what the rule
  of its type declares.

  The verdict is that there is no error.  An error is about a
  required property, a typed property or an entry of the list
  property; of the values under a nested parent of an entry,
  only a single object is looked into.

  Key definitions include:
    * `errors`
    * `entryOk`
    * `Declared`
    * `ArraysComplete`

  Key theorems include:
    * `errors_ruleIssues`
    * `errors_validateList`
    * `isValid_iff`
    * `declared_iff_arraysComplete`
-/

------------------------------------------------------------
-- Errors
------------------------------------------------------------

namespace SiteAnalysis.Validator

open Python

/- The issues that are errors. -/
def errors (issues : List Issue) : List Issue :=
  issues.filter (fun i => i.severity = .error)

variable {rule : SchemaRule} {name : String} {data : Fields}
variable {repr : Json → String}

theorem errors_append
    (left right : List Issue) :
    errors (left ++ right) = errors left ++ errors right :=
  List.filter_append ..

theorem errors_eq_self
    {issues : List Issue}
    (hAll : ∀ i ∈ issues, i.severity = .error) :
    errors issues = issues := by
  apply List.filter_eq_self.mpr
  intro i hMem
  exact decide_eq_true (hAll i hMem)

theorem errors_eq_nil
    {issues : List Issue}
    (hNone : ∀ i ∈ issues, i.severity ≠ .error) :
    errors issues = [] := by
  apply List.filter_eq_nil_iff.mpr
  intro i hMem
  simpa using hNone i hMem

theorem errors_flatMap
    {α : Type}
    (f : α → List Issue)
    (values : List α) :
    errors (values.flatMap f) =
      values.flatMap (fun v => errors (f v)) :=
  List.filter_flatMap

theorem recommendInside_severity
    {parent : String}
    {subfields : List String}
    {value : Json} :
    ∀ i ∈ recommendInside parent subfields value,
      i.severity = .warning := by
  intro i hMem
  cases value with
  | obj candidate =>
      rcases List.mem_map.mp hMem with ⟨sub, _, rfl⟩
      rfl
  | _ => cases hMem

/- Nothing that is recommended is an error. -/
theorem errors_validateObjectRecommended :
    errors (validateObjectRecommended rule data) = [] := by
  apply errors_eq_nil
  intro i hMem hError
  have hWarning : i.severity = .warning := by
    rcases List.mem_flatMap.mp hMem with ⟨nested, _, hIn⟩
    split at hIn
    · rcases List.mem_flatMap.mp hIn with ⟨value, _, hIn'⟩
      exact recommendInside_severity i hIn'
    · exact recommendInside_severity i hIn
  rw [hWarning] at hError
  cases hError

/- Where the errors of an object come from. -/
theorem errors_ruleIssues :
    errors (ruleIssues rule name data) =
      (rule.required.filter (isMissing data)).map
          (requiredIssue name) ++
        (rule.propertyTypes.filter (hasWrongType data)).map
            (fun p => wrongTypeIssue p.1 p.2) ++
          errors (validateList rule data) := by
  have hRequired :
      errors
          ((rule.required.filter (isMissing data)).map
            (requiredIssue name)) =
        (rule.required.filter (isMissing data)).map
          (requiredIssue name) := by
    apply errors_eq_self
    intro i hMem
    rcases List.mem_map.mp hMem with ⟨prop, _, rfl⟩
    rfl
  have hRecommended :
      errors
          ((rule.recommended.filter (isMissing data)).map
            (recommendedIssue name)) = [] := by
    apply errors_eq_nil
    intro i hMem
    rcases List.mem_map.mp hMem with ⟨prop, _, rfl⟩
    intro hSame
    cases hSame
  have hTypes :
      errors
          ((rule.propertyTypes.filter
            (hasWrongType data)).map
              (fun p => wrongTypeIssue p.1 p.2)) =
        (rule.propertyTypes.filter (hasWrongType data)).map
          (fun p => wrongTypeIssue p.1 p.2) := by
    apply errors_eq_self
    intro i hMem
    rcases List.mem_map.mp hMem with ⟨p, _, rfl⟩
    rfl
  unfold ruleIssues
  rw [errors_append, errors_append, errors_append,
    errors_append, hRequired, hRecommended, hTypes,
    errors_validateObjectRecommended]
  simp

------------------------------------------------------------
-- Entries of the List Property
------------------------------------------------------------

/- A single object under a nested parent has its subfields. -/
def nestedOk
    (entry : Fields)
    (nested : String × List String) : Bool :=
  match Json.field nested.1 entry with
  | some (.obj child) =>
      nested.2.all (fun sub => !isMissing child sub)
  | _ => true

/- The list rules find no error in the entry. -/
def entryOk (rule : SchemaRule) : Json → Bool
| .obj entry =>
    rule.listItemRequired.all
        (fun prop => !isMissing entry prop) &&
      rule.listItemNested.all (nestedOk entry)
| _ => false

theorem errors_wrongEntryType
    {loc : String}
    {entry : Fields} :
    errors (wrongEntryType rule loc entry) = [] := by
  apply errors_eq_nil
  intro i hMem
  unfold wrongEntryType at hMem
  split at hMem
  · split at hMem
    · rw [List.mem_singleton.mp hMem]
      intro hSame
      cases hSame
    · cases hMem
  · cases hMem

theorem missingInEntry_eq_nil_iff
    {listProperty loc prop : String}
    {entry : Fields} :
    errors (missingInEntry listProperty loc entry prop) =
        [] ↔
      isMissing entry prop = false := by
  unfold missingInEntry
  cases isMissing entry prop with
  | true => simp [errors]
  | false => simp [errors]

theorem missingInChild_eq_nil_iff
    {loc parent sub : String}
    {child : Fields} :
    errors (missingInChild loc parent child sub) = [] ↔
      isMissing child sub = false := by
  unfold missingInChild
  cases isMissing child sub with
  | true => simp [errors]
  | false => simp [errors]

/- The errors of an entry. -/
theorem errors_validateEntry
    {listProperty loc : String}
    {value : Json} :
    errors (validateEntry rule listProperty loc value) =
        [] ↔
      entryOk rule value = true := by
  cases value with
  | obj entry =>
      have hNested :
          ∀ nested : String × List String,
            errors
                (match Json.field nested.1 entry with
                | some (.obj child) =>
                    nested.2.flatMap
                      (missingInChild loc nested.1 child)
                | _ => []) = [] ↔
              nestedOk entry nested = true := by
        intro nested
        unfold nestedOk
        split
        · rw [errors_flatMap, List.flatMap_eq_nil_iff,
            List.all_eq_true]
          simp only [missingInChild_eq_nil_iff,
            Bool.not_eq_true']
        · simp [errors]
      simp only [validateEntry, entryOk, errors_append,
        errors_wrongEntryType, errors_flatMap,
        List.nil_append, List.append_eq_nil_iff,
        List.flatMap_eq_nil_iff, missingInEntry_eq_nil_iff,
        Bool.and_eq_true, List.all_eq_true,
        Bool.not_eq_true']
      apply and_congr_right
      intro _
      exact forall₂_congr (fun nested _ => hNested nested)
  | _ => simp [validateEntry, entryOk, errors]

/- The errors of the list property. -/
theorem errors_validateList :
    errors (validateList rule data) = [] ↔
      ∀ prop entries, rule.listProperty = some prop →
        Json.field prop data = some (.arr entries) →
          ∀ entry ∈ entries, entryOk rule entry = true := by
  unfold validateList
  cases hProperty : rule.listProperty with
  | none => simp [errors]
  | some prop =>
      dsimp only
      split
      · rename_i entries hField
        rw [errors_flatMap, List.flatMap_eq_nil_iff]
        simp only [errors_validateEntry]
        constructor
        · intro hAll prop' entries' hSame hField' entry hMem
          cases hSame
          rw [hField] at hField'
          cases hField'
          rcases List.mem_iff_getElem.mp hMem with
            ⟨n, hn, rfl⟩
          exact
            hAll (entries[n], n)
              (List.mem_zipIdx_iff_getElem?.mpr
                (List.getElem?_eq_getElem hn))
        · intro hAll entry hMem
          apply hAll prop entries rfl hField
          exact (List.mem_zipIdx hMem).2.2 ▸
            List.getElem_mem _
      · rename_i hField
        constructor
        · intro _ prop' entries hSame hField'
          cases hSame
          exact absurd hField' (hField entries)
        · intro _
          rfl

------------------------------------------------------------
-- Valid Objects
------------------------------------------------------------

/- When an object of a registered type is valid. -/
structure Valid
    (rule : SchemaRule)
    (data : Fields) : Prop where
  parsed : Json.field parseErrorKey data = none
  required : ∀ prop ∈ rule.required, isMissing data prop = false
  typed :
    ∀ p ∈ rule.propertyTypes, hasWrongType data p = false
  listed :
    ∀ prop entries, rule.listProperty = some prop →
      Json.field prop data = some (.arr entries) →
        ∀ entry ∈ entries, entryOk rule entry = true

theorem errors_ruleIssues_eq_nil :
    errors (ruleIssues rule name data) = [] ↔
      (∀ prop ∈ rule.required, isMissing data prop = false) ∧
        (∀ p ∈ rule.propertyTypes,
          hasWrongType data p = false) ∧
        ∀ prop entries, rule.listProperty = some prop →
          Json.field prop data = some (.arr entries) →
            ∀ entry ∈ entries, entryOk rule entry = true := by
  rw [errors_ruleIssues, List.append_eq_nil_iff,
    List.append_eq_nil_iff, List.map_eq_nil_iff,
    List.map_eq_nil_iff, List.filter_eq_nil_iff,
    List.filter_eq_nil_iff, errors_validateList, and_assoc]
  simp

theorem name_ne_of_getRule
    (hRule : getRule name = some rule) : name ≠ "" := by
  rintro rfl
  cases hRule

/- The result for an object of a registered type. -/
theorem validateSchema_of_getRule
    (hRule : getRule name = some rule)
    (hParsed : Json.field parseErrorKey data = none) :
    validateSchema repr (some name) data =
      ⟨name, (errors (ruleIssues rule name data)).isEmpty,
        (errors (ruleIssues rule name data)).isEmpty &&
          isRichResultEligible rule data,
        ruleIssues rule name data⟩ := by
  have hNoError :
      (ruleIssues rule name data).all
          (fun i => i.severity ≠ .error) =
        (errors (ruleIssues rule name data)).isEmpty := by
    rw [Bool.eq_iff_iff, List.all_eq_true,
      List.isEmpty_iff, errors, List.filter_eq_nil_iff]
    simp
  have hName := name_ne_of_getRule hRule
  simp only [validateSchema, hParsed, Option.getD_some,
    if_neg hName, hRule, hNoError]

theorem isValid_iff
    (hRule : getRule name = some rule) :
    (validateSchema repr (some name) data).isValid = true ↔
      Valid rule data := by
  cases hParsed : Json.field parseErrorKey data with
  | some reason =>
      constructor
      · intro hValid
        simp only [validateSchema, hParsed] at hValid
        cases hValid
      · intro hValid
        rw [hValid.parsed] at hParsed
        cases hParsed
  | none =>
      rw [validateSchema_of_getRule hRule hParsed,
        List.isEmpty_iff, errors_ruleIssues_eq_nil]
      constructor
      · rintro ⟨hRequired, hTyped, hListed⟩
        exact ⟨hParsed, hRequired, hTyped, hListed⟩
      · intro hValid
        exact ⟨hValid.required, hValid.typed, hValid.listed⟩

------------------------------------------------------------
-- Declarations
------------------------------------------------------------

/- An object that an entry holds under a parent. -/
def HeldUnder
    (parent : String)
    (entry child : Fields) : Prop :=
  Json.field parent entry = some (.obj child) ∨
    ∃ values, Json.field parent entry = some (.arr values) ∧
      .obj child ∈ values

/- Every object under a nested parent has its subfields. -/
structure EntryComplete
    (rule : SchemaRule)
    (entry : Fields) : Prop where
  required :
    ∀ prop ∈ rule.listItemRequired,
      isMissing entry prop = false
  nested :
    ∀ nested ∈ rule.listItemNested, ∀ child,
      HeldUnder nested.1 entry child →
        ∀ sub ∈ nested.2, isMissing child sub = false

/-
  Everything that the rule declares of an object.  A property
  is present when it is not missing.
-/
structure Declared
    (rule : SchemaRule)
    (data : Fields) : Prop where
  required : ∀ prop ∈ rule.required, isMissing data prop = false
  typed :
    ∀ p ∈ rule.propertyTypes, isMissing data p.1 = false →
      ∃ value, Json.field p.1 data = some value ∧
        typeOk value p.2 = true
  listed :
    ∀ prop, rule.listProperty = some prop →
      ∃ entries, Json.field prop data = some (.arr entries) ∧
        ∀ value ∈ entries, ∃ entry, value = .obj entry ∧
          EntryComplete rule entry

/-
  The objects in the arrays under the nested parents of the
  entries have their subfields.
-/
def ArraysComplete
    (rule : SchemaRule)
    (data : Fields) : Prop :=
  ∀ prop entries, rule.listProperty = some prop →
    Json.field prop data = some (.arr entries) →
      ∀ entry, .obj entry ∈ entries →
        ∀ nested ∈ rule.listItemNested, ∀ values,
          Json.field nested.1 entry = some (.arr values) →
            ∀ child, .obj child ∈ values →
              ∀ sub ∈ nested.2, isMissing child sub = false

/- The list property is required, and an array. -/
theorem listProperty_declared :
    ∀ rule ∈ rules.map Prod.snd, ∀ prop,
      rule.listProperty = some prop →
        prop ∈ rule.required ∧
          (prop, .array) ∈ rule.propertyTypes := by
  intro rule hRule prop hProperty
  have hAll :
      ∀ rule ∈ rules.map Prod.snd,
        rule.listProperty.all
          (fun prop =>
            prop ∈ rule.required ∧
              (prop, .array) ∈ rule.propertyTypes) = true := by
    decide
  have hThis := hAll rule hRule
  rw [hProperty] at hThis
  exact of_decide_eq_true hThis

/- A value that is not missing. -/
theorem exists_of_not_missing
    {prop : String}
    (hPresent : isMissing data prop = false) :
    ∃ value, Json.field prop data = some value ∧
      isEmptyValue value = false := by
  unfold isMissing at hPresent
  split at hPresent
  · cases hPresent
  · rename_i value hField
    exact ⟨value, hField, hPresent⟩

theorem typed_of_valid
    (hValid : Valid rule data)
    {p : String × Expected}
    (hTyped : p ∈ rule.propertyTypes)
    (hPresent : isMissing data p.1 = false) :
    ∃ value, Json.field p.1 data = some value ∧
      typeOk value p.2 = true := by
  rcases exists_of_not_missing hPresent with
    ⟨value, hField, hEmpty⟩
  have hRight := hValid.typed p hTyped
  simp only [hasWrongType, hField, hEmpty, Bool.not_false,
    Bool.true_and, Bool.not_eq_false'] at hRight
  exact ⟨value, hField, hRight⟩

/- An entry without error, up to the arrays in it. -/
theorem entryComplete_of_entryOk
    {entry : Fields}
    (hOk : entryOk rule (.obj entry) = true)
    (hArrays :
      ∀ nested ∈ rule.listItemNested, ∀ values,
        Json.field nested.1 entry = some (.arr values) →
          ∀ child, .obj child ∈ values →
            ∀ sub ∈ nested.2, isMissing child sub = false) :
    EntryComplete rule entry := by
  simp only [entryOk, Bool.and_eq_true, List.all_eq_true,
    Bool.not_eq_true'] at hOk
  constructor
  · exact hOk.1
  · rintro nested hNested child
      (hSingle | ⟨values, hValues, hMem⟩)
    · have hSubs := hOk.2 nested hNested
      simp only [nestedOk, hSingle, List.all_eq_true,
        Bool.not_eq_true'] at hSubs
      exact hSubs
    · exact hArrays nested hNested values hValues child hMem

/-
  A valid object of a registered type has all that the rule
  declares exactly when the objects in the arrays under the
  nested parents have their subfields.
-/
theorem declared_iff_arraysComplete
    (hRule : getRule name = some rule)
    (hValid :
      (validateSchema repr (some name) data).isValid = true) :
    Declared rule data ↔ ArraysComplete rule data := by
  have hAll := (isValid_iff hRule).mp hValid
  constructor
  · intro hDeclared prop entries hProperty hField entry hMem
      nested hNested values hValues child hChild sub hSub
    rcases hDeclared.listed prop hProperty with
      ⟨entries', hField', hEntries⟩
    rw [hField] at hField'
    cases hField'
    rcases hEntries _ hMem with ⟨entry', hSame, hComplete⟩
    cases hSame
    exact
      hComplete.nested nested hNested child
        (Or.inr ⟨values, hValues, hChild⟩) sub hSub
  · intro hArrays
    refine ⟨hAll.required, ?_, ?_⟩
    · intro p hTyped hPresent
      exact typed_of_valid hAll hTyped hPresent
    · intro prop hProperty
      have hDecl :=
        listProperty_declared rule (getRule_of_mem hRule)
          prop hProperty
      rcases
        typed_of_valid hAll hDecl.2
          (hAll.required prop hDecl.1) with
        ⟨value, hField, hType⟩
      cases value with
      | arr entries =>
          refine ⟨entries, hField, ?_⟩
          intro value hMem
          have hOk :=
            hAll.listed prop entries hProperty hField value
              hMem
          cases value with
          | obj entry =>
              refine ⟨entry, rfl, ?_⟩
              exact
                entryComplete_of_entryOk hOk
                  (hArrays prop entries hProperty hField
                    entry hMem)
          | _ => cases hOk
      | _ => cases hType

------------------------------------------------------------
-- A Page of Questions
------------------------------------------------------------

/- A question with its answers. -/
def question (answers : Json) : Json :=
  .obj
    [("@type", .str "Question"), ("name", .str "Why?"),
      ("acceptedAnswer", answers)]

/- A page with one question. -/
def faqPage (answers : Json) : Fields :=
  [("@type", .str "FAQPage"),
    ("mainEntity", .arr [question answers])]

/- A single answer with a text. -/
def answered : Json :=
  .obj [("text", .str "Because.")]

/- A valid page whose one answer has a text. -/
theorem declared_faqPage :
    Declared faqPageRule (faqPage answered) ↔
      ArraysComplete faqPageRule (faqPage answered) := by
  have hRule : getRule "FAQPage" = some faqPageRule := rfl
  have hValid :
      (validateSchema (fun _ => "") (some "FAQPage")
        (faqPage answered)).isValid = true := rfl
  exact declared_iff_arraysComplete hRule hValid

/- A valid page whose one answer, in an array, has no text. -/
theorem unanswered_faqPage_valid :
    ¬ ∀ (repr : Json → String) (name : String)
      (rule : SchemaRule) (data : Fields),
      getRule name = some rule →
        (validateSchema repr (some name) data).isValid =
            true →
          Declared rule data := by
  intro hDeclares
  have hDeclared :=
    hDeclares (fun _ => "") "FAQPage" faqPageRule
      (faqPage (.arr [.obj [("@type", .str "Answer")]])) rfl
      rfl
  rcases hDeclared.listed "mainEntity" rfl with
    ⟨entries, hField, hEntries⟩
  cases hField
  rcases hEntries _ List.mem_cons_self with
    ⟨entry, hSame, hComplete⟩
  cases hSame
  have hText :=
    hComplete.nested ("acceptedAnswer", ["text"])
      List.mem_cons_self [("@type", .str "Answer")]
      (Or.inr ⟨_, rfl, List.mem_cons_self⟩) "text"
      List.mem_cons_self
  cases hText

end SiteAnalysis.Validator
