import SiteAnalysis.Billing.Database

/-
  This file defines the client of the WAVE API: the request,
  the reading of the response, and the flattening of a report
  into the columns of an audit.

  Key definitions include:
    * `readWave`
    * `fetchWave`
    * `parseWave`
    * `WellShaped`

  Key theorems include:
    * `readWave_of_success`
    * `parseWave_isOk_iff`
-/

------------------------------------------------------------
-- Requests
------------------------------------------------------------

namespace SiteAnalysis.Audits

open Concurrency
open Relational
open Python
open Billing

structure WaveSettings where
  apiKey : String
  baseUrl : String
  reportType : Int
  requestTimeout : Nat

/- `status.success` of a decoded answer. -/
def checkSuccess
    (repr : Json → String)
    (data : Json) : Except Exc Json := do
  let status ← fromPython (data.get "status" (.obj []))
  let success ← fromPython (status.get "success" (.bool false))
  if success.truthy then
    pure data
  else
    let error ← fromPython (status.get "error" .null)
    let reason :=
      error.or (.str "WAVE analysis was unsuccessful.")
    .error
      (ErrorKind.waveAPI.error (reason.toStr repr)
        [("wave_status",
          ((data.get "status" .null).toOption).getD .null)])

/- What `fetch_wave` makes of the response. -/
def readWave
    (repr : Json → String) :
    HttpOutcome → Except Exc Json
| .failure _ message =>
    .error
      (ErrorKind.waveAPI.error "" [("error", .str message)])
| .response r =>
    if r.raisesForStatus then
      .error
        (ErrorKind.waveAPI.error
          ("WAVE returned HTTP " ++ toString r.statusCode ++
            ".")
          [("status_code", .int r.statusCode)])
    else
      match r.body with
      | .json data => checkSuccess repr data
      | .notJson message =>
          .error
            (ErrorKind.waveAPI.error ""
              [("error", .str message)])
      | .empty =>
          .error
            (ErrorKind.waveAPI.error ""
              [("error",
                .str
                  "Expecting value: line 1 column 1 (char 0)")])

/- `reporttype or settings.WAVE_REPORT_TYPE` -/
def reportTypeOr
    (settings : WaveSettings) : Option Int → Int
| none => settings.reportType
| some n => if n = 0 then settings.reportType else n

def fetchWave
    (settings : WaveSettings)
    (repr : Json → String)
    (url : String)
    (reportType : Option Int) : Service Json :=
  if settings.apiKey = "" then
    raiseError (ErrorKind.waveConfig.error "" [])
  else do
    let params :=
      [("key", settings.apiKey), ("url", url),
        ("reporttype",
          toString (reportTypeOr settings reportType))]
    let outcome : HttpOutcome ←
      query
        (.httpGet settings.baseUrl params
          settings.requestTimeout)
    Prog.ofExcept (readWave repr outcome)

/- An answer whose `status.success` is true. -/
def Successful (data : Json) : Prop :=
  ∃ status,
    data.get "status" (.obj []) = .ok status ∧
      status.get "success" (.bool false) = .ok (.bool true)

/- A successful answer is passed on. -/
theorem readWave_of_success
    {repr : Json → String}
    {r : Response}
    {data : Json}
    (hStatus : r.raisesForStatus = false)
    (hBody : r.body = .json data)
    (hSuccess : Successful data) :
    readWave repr (.response r) = .ok data := by
  rcases hSuccess with ⟨status, hGet, hTrue⟩
  simp only [readWave, hStatus, hBody, Bool.false_eq_true,
    if_false, checkSuccess, hGet, fromPython]
  simp [bind, Except.bind, hTrue, Json.truthy, pure,
    Except.pure]

------------------------------------------------------------
-- Reports
------------------------------------------------------------

/- The total columns of an audit. -/
structure Totals where
  totalErrors : Int
  totalAlerts : Int
  totalFeatures : Int
  totalStructural : Int
  totalContrastErrors : Int
deriving DecidableEq

def Totals.zero : Totals where
  totalErrors := 0
  totalAlerts := 0
  totalFeatures := 0
  totalStructural := 0
  totalContrastErrors := 0

inductive TotalField
  | totalErrors
  | totalAlerts
  | totalFeatures
  | totalStructural
  | totalContrastErrors
deriving DecidableEq

/- `totals[field] = n` -/
def Totals.set
    (totals : Totals)
    (n : Int) : TotalField → Totals
| .totalErrors => { totals with totalErrors := n }
| .totalAlerts => { totals with totalAlerts := n }
| .totalFeatures => { totals with totalFeatures := n }
| .totalStructural => { totals with totalStructural := n }
| .totalContrastErrors =>
    { totals with totalContrastErrors := n }

/- `WAVE_CATEGORY_MAP` -/
def waveCategoryMap :
    List (String × IssueType × TotalField) :=
  [("error", .error, .totalErrors),
    ("alert", .alert, .totalAlerts),
    ("feature", .feature, .totalFeatures),
    ("structure", .structural, .totalStructural),
    ("contrast", .contrast, .totalContrastErrors)]

/- An entry of the `issues` list. -/
structure Issue where
  issueType : IssueType
  waveId : Json
  description : Json
  count : Int
  wcagReference : Option String

structure Parsed where
  totals : Totals
  wcagLevel : Option String
  issues : List Issue

/- The estimated level; any error fails. -/
def wcagLevel
    (totalErrors totalContrastErrors : Int) :
    Option String :=
  if 0 < totalErrors then
    none
  else if 0 < totalContrastErrors then
    some "A"
  else
    some "AA"

/- `int(value.get("count", 0) or 0)` -/
def countOf (value : Json) : Except PyError Int := do
  let count ← value.get "count" (.int 0)
  (count.or (.int 0)).toInt

def parseItem
    (issueType : IssueType) :
    String × Json → Except PyError Issue
| (waveId, item) => do
    let id ← item.get "id" (.str waveId)
    let description ← item.get "description" (.str "")
    let count ← countOf item
    pure
      { issueType := issueType
        waveId := id
        description := description
        count := count
        wcagReference := none }

/- One round of the loop over the categories. -/
def parseCategory
    (categories : Json)
    (totals : Totals)
    (issues : List Issue) :
    String × IssueType × TotalField →
      Except PyError (Totals × List Issue)
| (waveCategory, issueType, totalField) => do
    let found ← categories.get waveCategory (.obj [])
    let category := found.or (.obj [])
    let count ← countOf category
    let items ← category.get "items" (.obj [])
    let members ← (items.or (.obj [])).items
    let parsed ← members.mapM (parseItem issueType)
    pure (totals.set count totalField, issues ++ parsed)

/- The loop over the categories. -/
def parseCategories
    (categories : Json) :
    List (String × IssueType × TotalField) → Totals →
      List Issue → Except PyError (Totals × List Issue)
| [], totals, issues => pure (totals, issues)
| entry :: rest, totals, issues => do
    let next ← parseCategory categories totals issues entry
    parseCategories categories rest next.1 next.2

def parseWave (raw : Json) : Except PyError Parsed := do
  let categories ← raw.get "categories" (.obj [])
  let result ←
    parseCategories categories waveCategoryMap .zero []
  pure
    { totals := result.1
      wcagLevel :=
        wcagLevel result.1.totalErrors
          result.1.totalContrastErrors
      issues := result.2 }

------------------------------------------------------------
-- The Shape of a Report
------------------------------------------------------------

/- The member of an object, with a default. -/
def member
    (value : Json)
    (key : String)
    (default : Json) : Json :=
  match value with
  | .obj fields => (Json.field key fields).getD default
  | _ => default

/- The members of an object. -/
def members : Json → List (String × Json)
| .obj fields => fields
| _ => []

/- A count that `int` accepts. -/
def hasCount (value : Json) : Bool :=
  ((member value "count" (.int 0)).or (.int 0)).isIntLike

/- An object whose count is a number. -/
def isCounted (value : Json) : Bool :=
  value.isObject && hasCount value

/- A category: counted, with an object of counted items. -/
def isCategory (category : Json) : Bool :=
  isCounted category &&
    ((member category "items" (.obj [])).or
      (.obj [])).isObject &&
      (members
        ((member category "items" (.obj [])).or
          (.obj []))).all (fun item => isCounted item.2)

/-
  A report of objects where WAVE documents objects, with
  numbers for counts.
-/
def WellShaped (raw : Json) : Bool :=
  raw.isObject &&
    (member raw "categories" (.obj [])).isObject &&
      waveCategoryMap.all fun entry =>
        isCategory
          ((member (member raw "categories" (.obj []))
            entry.1 (.obj [])).or (.obj []))

section Shape

variable {value default : Json} {key : String}

theorem get_of_isObject
    (hObject : value.isObject = true) :
    value.get key default =
      .ok (member value key default) := by
  cases value <;> simp_all [Json.isObject, Json.get, member]

theorem items_of_isObject
    (hObject : value.isObject = true) :
    value.items = .ok (members value) := by
  cases value <;>
    simp_all [Json.isObject, Json.items, members]

theorem countOf_isOk_iff
    (value : Json) :
    (∃ n, countOf value = .ok n) ↔
      isCounted value = true := by
  rw [countOf, isOk_bind_iff, isCounted, Bool.and_eq_true]
  constructor
  · rintro ⟨count, hGet, hInt⟩
    have hObject :=
      (Json.get_isOk_iff value "count" (.int 0)).mp
        ⟨count, hGet⟩
    rw [get_of_isObject hObject] at hGet
    cases hGet
    exact ⟨hObject, (Json.toInt_isOk_iff _).mp hInt⟩
  · rintro ⟨hObject, hCount⟩
    exact
      ⟨_, get_of_isObject hObject,
        (Json.toInt_isOk_iff _).mpr hCount⟩

theorem parseItem_isOk_iff
    (issueType : IssueType)
    (entry : String × Json) :
    (∃ issue, parseItem issueType entry = .ok issue) ↔
      isCounted entry.2 = true := by
  rcases entry with ⟨waveId, item⟩
  rw [← countOf_isOk_iff]
  simp only [parseItem, isOk_bind_iff]
  constructor
  · rintro ⟨_, _, _, _, n, hCount, _⟩
    exact ⟨n, hCount⟩
  · rintro ⟨n, hCount⟩
    have hCounted :=
      (countOf_isOk_iff item).mp ⟨n, hCount⟩
    rw [isCounted, Bool.and_eq_true] at hCounted
    exact
      ⟨_, get_of_isObject hCounted.1, _,
        get_of_isObject hCounted.1, n, hCount, _, rfl⟩

theorem mapM_isOk_iff
    {α β : Type}
    (f : α → Except PyError β)
    (xs : List α) :
    (∃ ys, xs.mapM f = .ok ys) ↔
      ∀ x ∈ xs, ∃ y, f x = .ok y := by
  induction xs with
  | nil => simp [pure, Except.pure]
  | cons x xs ih =>
      rw [List.mapM_cons, isOk_bind_iff]
      constructor
      · rintro ⟨y, hHead, ys, hRest⟩ x' hMem
        rcases List.mem_cons.mp hMem with hSame | hTail
        · exact ⟨y, hSame ▸ hHead⟩
        · have hTailOk := (isOk_bind_iff _ _).mp ⟨ys, hRest⟩
          rcases hTailOk with ⟨zs, hZs, _⟩
          exact ih.mp ⟨zs, hZs⟩ x' hTail
      · intro hAll
        rcases hAll x List.mem_cons_self with ⟨y, hHead⟩
        have hTail :=
          ih.mpr (fun x' hMem =>
            hAll x' (List.mem_cons_of_mem _ hMem))
        rcases hTail with ⟨ys, hYs⟩
        refine ⟨y, hHead, ?_⟩
        rw [isOk_bind_iff]
        exact ⟨ys, hYs, _, rfl⟩

theorem parseCategory_isOk_iff
    {categories : Json}
    (hObject : categories.isObject = true)
    (totals : Totals)
    (issues : List Issue)
    (entry : String × IssueType × TotalField) :
    (∃ next,
      parseCategory categories totals issues entry =
        .ok next) ↔
      isCategory
          ((member categories entry.1 (.obj [])).or
            (.obj [])) =
        true := by
  rcases entry with ⟨waveCategory, issueType, totalField⟩
  simp only [parseCategory, get_of_isObject hObject,
    isOk_bind_iff]
  rw [isCategory, Bool.and_eq_true, Bool.and_eq_true,
    ← countOf_isOk_iff, List.all_eq_true]
  constructor
  · rintro
      ⟨_, hFound, n, hCount, items, hItems, fields, hFields,
        parsed, hParsed, _⟩
    cases hFound
    have hCounted :=
      (countOf_isOk_iff _).mp ⟨n, hCount⟩
    rw [isCounted, Bool.and_eq_true] at hCounted
    rw [get_of_isObject hCounted.1] at hItems
    cases hItems
    have hItemsObject :=
      (Json.items_isOk_iff _).mp ⟨fields, hFields⟩
    rw [items_of_isObject hItemsObject] at hFields
    cases hFields
    refine ⟨⟨⟨n, hCount⟩, hItemsObject⟩, ?_⟩
    intro item hMem
    rw [← parseItem_isOk_iff issueType]
    exact (mapM_isOk_iff _ _).mp ⟨parsed, hParsed⟩ item hMem
  · rintro ⟨⟨⟨n, hCount⟩, hItemsObject⟩, hAll⟩
    have hCounted :=
      (countOf_isOk_iff _).mp ⟨n, hCount⟩
    rw [isCounted, Bool.and_eq_true] at hCounted
    have hParsed :=
      (mapM_isOk_iff (parseItem issueType) _).mpr
        (fun item hMem =>
          (parseItem_isOk_iff issueType item).mpr
            (hAll item hMem))
    rcases hParsed with ⟨parsed, hParsed⟩
    exact
      ⟨_, rfl, n, hCount, _, get_of_isObject hCounted.1, _,
        items_of_isObject hItemsObject, parsed, hParsed, _,
        rfl⟩

theorem parseCategories_isOk_iff
    {categories : Json}
    (hObject : categories.isObject = true)
    (entries : List (String × IssueType × TotalField))
    (totals : Totals)
    (issues : List Issue) :
    (∃ result,
      parseCategories categories entries totals issues =
        .ok result) ↔
      ∀ entry ∈ entries,
        isCategory
            ((member categories entry.1 (.obj [])).or
              (.obj [])) =
          true := by
  induction entries generalizing totals issues with
  | nil => simp [parseCategories, pure, Except.pure]
  | cons entry rest ih =>
      rw [parseCategories, isOk_bind_iff,
        List.forall_mem_cons,
        ← parseCategory_isOk_iff hObject totals issues]
      constructor
      · rintro ⟨next, hNext, hRest⟩
        exact ⟨⟨next, hNext⟩, (ih _ _).mp hRest⟩
      · rintro ⟨⟨next, hNext⟩, hRest⟩
        exact ⟨next, hNext, (ih _ _).mpr hRest⟩

/- `parse_wave` returns exactly on well-shaped reports. -/
theorem parseWave_isOk_iff
    (raw : Json) :
    (∃ parsed, parseWave raw = .ok parsed) ↔
      WellShaped raw = true := by
  simp only [parseWave, isOk_bind_iff, WellShaped,
    Bool.and_eq_true, List.all_eq_true]
  constructor
  · rintro ⟨categories, hCategories, result, hResult, _⟩
    have hRaw :=
      (Json.get_isOk_iff raw "categories" (.obj [])).mp
        ⟨categories, hCategories⟩
    rw [get_of_isObject hRaw] at hCategories
    cases hCategories
    have hObject :
        (member raw "categories" (.obj [])).isObject =
          true := by
      rw [waveCategoryMap, parseCategories,
        parseCategory] at hResult
      rcases
        (isOk_bind_iff _ _).mp ⟨result, hResult⟩ with
        ⟨_, hFirst, _⟩
      rcases (isOk_bind_iff _ _).mp ⟨_, hFirst⟩ with
        ⟨found, hFound, _⟩
      exact (Json.get_isOk_iff _ _ _).mp ⟨found, hFound⟩
    exact
      ⟨⟨hRaw, hObject⟩,
        (parseCategories_isOk_iff hObject _ _ _).mp
          ⟨result, hResult⟩⟩
  · rintro ⟨⟨hRaw, hObject⟩, hAll⟩
    rcases
      (parseCategories_isOk_iff hObject waveCategoryMap .zero
        []).mpr hAll with
      ⟨result, hResult⟩
    exact
      ⟨_, get_of_isObject hRaw, result, hResult, _, rfl⟩

end Shape

end SiteAnalysis.Audits
