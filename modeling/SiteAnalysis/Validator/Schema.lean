import SiteAnalysis.Validator.Extractor
import SiteAnalysis.Validator.Rules

/-
  This file defines the validation of one structured-data
  object against the rule of its type.

  Key definitions include:
    * `Issue`
    * `SchemaResult`
    * `resolveType`
    * `typeOk`
    * `validateList`
    * `validateObjectRecommended`
    * `validateSchema`
-/

------------------------------------------------------------
-- Issues
------------------------------------------------------------

namespace SiteAnalysis.Validator

open Python

inductive IssueSeverity
  | error
  | warning
  | info
deriving DecidableEq

structure Issue where
  severity : IssueSeverity
  field : String
  message : String
  suggestion : Option String

structure SchemaResult where
  schemaType : String
  isValid : Bool
  richResultEligible : Bool
  issues : List Issue

/- `UNKNOWN_TYPE` -/
def unknownType : String := "Unknown"

/- The members of an object. -/
abbrev Fields := List (String × Json)

------------------------------------------------------------
-- Types of Objects
------------------------------------------------------------

/- The first true value of a list, or the value itself. -/
def firstTrue : Json → Json
| .arr values => (values.find? Json.truthy).getD .null
| value => value

/- `resolve_type` -/
def resolveType (data : Fields) : Option String :=
  if (Json.field parseErrorKey data).isSome then
    none
  else
    match firstTrue
        ((Json.field "@type" data).getD .null) with
    | .str value =>
        let stripped := strip value.toList
        if stripped = [] then
          none
        else
          some
            (String.ofList
              (lastPiece '#'
                (lastPiece '/' (rstripChar '/' stripped))))
    | _ => none

------------------------------------------------------------
-- Values of Properties
------------------------------------------------------------

/- A value that counts as absent. -/
def isEmptyValue : Json → Bool
| .null => true
| .str s => strip s.toList = []
| .arr values => values.isEmpty
| .obj fields => fields.isEmpty
| _ => false

/- `_is_missing` -/
def isMissing
    (data : Fields)
    (prop : String) : Bool :=
  match Json.field prop data with
  | none => true
  | some value => isEmptyValue value

/- The prefixes of `_looks_like_url`. -/
def urlPrefixes : List String :=
  ["http://", "https://", "//", "/"]

/- `_looks_like_url` -/
def looksLikeUrl : Json → Bool
| .str s =>
    let text := (strip s.toList).map Char.toLower
    urlPrefixes.any
      (fun start => start.toList.isPrefixOf text)
| _ => false

/- `_is_numeric` -/
def isNumeric : Json → Bool
| .int _ => true
| .float _ => true
| .str s =>
    (parseFloat
      (String.ofList
        (s.toList.filter (· ≠ ',')))).isSome
| _ => false

/- `\d` -/
def isDigit (c : Char) : Bool :=
  (digitValue c).isSome

/- The text starts with `\d{4}-\d{2}-\d{2}`. -/
def startsWithDate : List Char → Bool
| y₁ :: y₂ :: y₃ :: y₄ :: s₁ :: m₁ :: m₂ :: s₂ :: d₁ ::
    d₂ :: _ =>
    [y₁, y₂, y₃, y₄, m₁, m₂, d₁, d₂].all isDigit &&
      s₁ = '-' && s₂ = '-'
| _ => false

def isText : Json → Bool
| .str _ => true
| _ => false

/- A value, or a list of values, that all pass. -/
def oneOrAll
    (passes : Json → Bool) : Json → Bool
| .arr values => values.all passes
| value => passes value

/- `_type_ok` -/
def typeOk
    (value : Json) : Expected → Bool
| .text => oneOrAll isText value
| .url => looksLikeUrl value
| .number => isNumeric value
| .date =>
    match value with
    | .str s => startsWithDate (strip s.toList)
    | _ => false
| .datetime =>
    match value with
    | .str s => startsWithDate (strip s.toList)
    | _ => false
| .image =>
    oneOrAll (fun v => looksLikeUrl v || v.isObject) value
| .object => oneOrAll Json.isObject value
| .array =>
    match value with
    | .arr _ => true
    | _ => false
| .textOrObject =>
    match value with
    | .str _ => true
    | .obj _ => true
    | .arr _ => true
    | _ => false

------------------------------------------------------------
-- Lists and Nested Objects
------------------------------------------------------------

/- A required property of a list element. -/
def missingInEntry
    (listProperty loc : String)
    (entry : Fields)
    (prop : String) : List Issue :=
  if isMissing entry prop then
    [{ severity := .error
       field := loc ++ "." ++ prop
       message :=
         loc ++ " is missing required property \"" ++ prop ++
           "\"."
       suggestion :=
         some
           ("Add \"" ++ prop ++ "\" to each \"" ++
             listProperty ++ "\" entry.") }]
  else
    []

/- A required property inside a property of an element. -/
def missingInChild
    (loc parent : String)
    (child : Fields)
    (sub : String) : List Issue :=
  if isMissing child sub then
    [{ severity := .error
       field := loc ++ "." ++ parent ++ "." ++ sub
       message :=
         loc ++ "." ++ parent ++
           " is missing required property \"" ++ sub ++ "\"."
       suggestion :=
         some
           ("Add \"" ++ sub ++ "\" inside \"" ++ parent ++
             "\".") }]
  else
    []

/- The type of a list element differs from the rule's. -/
def wrongEntryType
    (rule : SchemaRule)
    (loc : String)
    (entry : Fields) : List Issue :=
  match rule.listItemType, resolveType entry with
  | some expected, some entryType =>
      if entryType ≠ "" ∧ entryType ≠ expected then
        [{ severity := .warning
           field := loc ++ ".@type"
           message :=
             loc ++ " should be of type \"" ++ expected ++
               "\", got \"" ++ entryType ++ "\"."
           suggestion :=
             some
               ("Set \"@type\": \"" ++ expected ++
                 "\" on each list item.") }]
      else
        []
  | _, _ => []

/- The issues of one element of a list-valued property. -/
def validateEntry
    (rule : SchemaRule)
    (listProperty loc : String) : Json → List Issue
| .obj entry =>
    wrongEntryType rule loc entry ++
      rule.listItemRequired.flatMap
        (missingInEntry listProperty loc entry) ++
        rule.listItemNested.flatMap
          (fun nested =>
            match Json.field nested.1 entry with
            | some (.obj child) =>
                nested.2.flatMap
                  (missingInChild loc nested.1 child)
            | _ => [])
| _ =>
    [{ severity := .error
       field := loc
       message := loc ++ " must be an object."
       suggestion := none }]

/- `f"{prop}[{index}]"` -/
def location
    (prop : String)
    (index : Nat) : String :=
  prop ++ "[" ++ toString index ++ "]"

/- `_validate_list` -/
def validateList
    (rule : SchemaRule)
    (data : Fields) : List Issue :=
  match rule.listProperty with
  | none => []
  | some prop =>
      match Json.field prop data with
      | some (.arr entries) =>
          entries.zipIdx.flatMap
            (fun entry =>
              validateEntry rule prop
                (location prop entry.2) entry.1)
      | _ => []

/- A recommended property of a nested object. -/
def recommendInside
    (parent : String)
    (subfields : List String) : Json → List Issue
| .obj candidate =>
    (subfields.filter (isMissing candidate)).map
      (fun sub =>
        { severity := .warning
          field := parent ++ "." ++ sub
          message :=
            "Recommended property \"" ++ parent ++ "." ++
              sub ++ "\" is missing."
          suggestion :=
            some
              ("Add \"" ++ sub ++ "\" inside \"" ++ parent ++
                "\" for richer results.") })
| _ => []

/- `_validate_object_recommended` -/
def validateObjectRecommended
    (rule : SchemaRule)
    (data : Fields) : List Issue :=
  rule.objectRecommended.flatMap
    (fun nested =>
      match (Json.field nested.1 data).getD .null with
      | .arr candidates =>
          candidates.flatMap
            (recommendInside nested.1 nested.2)
      | candidate =>
          recommendInside nested.1 nested.2 candidate)

------------------------------------------------------------
-- Objects
------------------------------------------------------------

/- The object of a JSON-LD block that did not parse. -/
def parseErrorIssue (reason : String) : Issue where
  severity := .error
  field := "@type"
  message := "Invalid JSON-LD syntax: " ++ reason
  suggestion :=
    some
      ("Fix the JSON so it parses (check quotes, commas " ++
        "and brackets).")

def missingTypeIssue : Issue where
  severity := .error
  field := "@type"
  message :=
    "Missing @type — the structured-data object has no " ++
      "Schema.org type."
  suggestion :=
    some "Add an \"@type\", e.g. \"@type\": \"Product\"."

def noRuleIssue (schemaType : String) : Issue where
  severity := .info
  field := "@type"
  message :=
    "No validation rules defined for type \"" ++
      schemaType ++ "\"."
  suggestion := none

def requiredIssue (schemaType prop : String) : Issue where
  severity := .error
  field := prop
  message :=
    "Missing required property \"" ++ prop ++ "\" for " ++
      schemaType ++ "."
  suggestion :=
    some
      ("Add the \"" ++ prop ++ "\" property to your " ++
        schemaType ++ " schema.")

def recommendedIssue (schemaType prop : String) : Issue where
  severity := .warning
  field := prop
  message :=
    "Recommended property \"" ++ prop ++
      "\" is missing for " ++ schemaType ++ "."
  suggestion :=
    some
      ("Add \"" ++ prop ++
        "\" to improve SEO and rich-result eligibility.")

def wrongTypeIssue
    (prop : String)
    (expected : Expected) : Issue where
  severity := .error
  field := prop
  message :=
    "Property \"" ++ prop ++ "\" should be " ++
      expected.label ++ "."
  suggestion :=
    some
      ("Provide \"" ++ prop ++ "\" as " ++ expected.label ++
        ".")

/- A property that is present with a wrong type. -/
def hasWrongType
    (data : Fields)
    (p : String × Expected) : Bool :=
  match Json.field p.1 data with
  | none => false
  | some value =>
      !isEmptyValue value && !typeOk value p.2

/- The issues of an object under the rule of its type. -/
def ruleIssues
    (rule : SchemaRule)
    (schemaType : String)
    (data : Fields) : List Issue :=
  (rule.required.filter (isMissing data)).map
      (requiredIssue schemaType) ++
    (rule.recommended.filter (isMissing data)).map
      (recommendedIssue schemaType) ++
    (rule.propertyTypes.filter (hasWrongType data)).map
      (fun p => wrongTypeIssue p.1 p.2) ++
    validateList rule data ++
    validateObjectRecommended rule data

/- `_rich_result_eligible` -/
def isRichResultEligible
    (rule : SchemaRule)
    (data : Fields) : Bool :=
  rule.richResultRequired.all
    (fun prop => !isMissing data prop)

/- `validate_schema`; `repr` prints what is no `str`. -/
def validateSchema
    (repr : Json → String)
    (schemaType : Option String)
    (data : Fields) : SchemaResult :=
  match Json.field parseErrorKey data with
  | some reason =>
      ⟨unknownType, false, false,
        [parseErrorIssue (reason.toStr repr)]⟩
  | none =>
      let name := schemaType.getD ""
      if name = "" then
        ⟨unknownType, false, false, [missingTypeIssue]⟩
      else
        match getRule name with
        | none => ⟨name, true, false, [noRuleIssue name]⟩
        | some rule =>
            let issues := ruleIssues rule name data
            let isValid :=
              issues.all (fun i => i.severity ≠ .error)
            ⟨name, isValid,
              isValid && isRichResultEligible rule data,
              issues⟩

end SiteAnalysis.Validator
