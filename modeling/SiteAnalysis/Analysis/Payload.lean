import SiteAnalysis.Analysis.PageSpeed
import SiteAnalysis.Python.Paths

/-
  This file characterizes the payloads that can be flattened
  into metrics, and those whose metrics can be stored.

  Key definitions include:
    * `Source`
    * `sources`
    * `Source.IsRead`
    * `Source.Fits`
    * `YieldsNone`

  Key theorems include:
    * `parsePagespeed_eq_ok`
    * `yieldsNone_iff`
    * `takes_iff`
-/

------------------------------------------------------------
-- Sources
------------------------------------------------------------

namespace SiteAnalysis.Analysis

open Python
open Reports

/- Where a metric comes from. -/
inductive Source
  | score (key : String) (field : AnalysisField)
  | timing
      (key : String)
      (field : AnalysisField)
      (unit : MetricUnit)

namespace Source

def field : Source → AnalysisField
| .score _ f => f
| .timing _ f _ => f

/- The place of the source in a payload. -/
def path : Source → List String
| .score key _ =>
    ["lighthouseResult", "categories", key, "score"]
| .timing key _ _ =>
    ["lighthouseResult", "audits", key, "numericValue"]

/- The value of a score. -/
def readScore (value : Json) : Except PyError Json :=
  if value.isNumber then
    value.percent
  else
    pure .null

/- The value of the metric. -/
def read (value : Json) : Source → Except PyError Json
| .score _ _ => readScore value
| .timing _ _ unit => convert value unit

/- The float is finite. -/
def isFinite : PyFloat → Bool
| .finite _ => true
| _ => false

/- A score that is missing or can be rounded. -/
def isScore : Json → Bool
| .null => true
| .bool _ => true
| .int _ => true
| .float x => isFinite (Json.scale 100 x)
| _ => false

/- A timing that is missing or can be converted. -/
def IsTiming
    (value : Json) : MetricUnit → Prop
| .msToS =>
    value = .null ∨
      (value.isNumber = true ∧ ∃ x, value.toFloat = .ok x)
| _ => value = .null ∨ value.isNumber = true

/- A value from which the metric can be computed. -/
def IsRead (value : Json) : Source → Prop
| .score _ _ => isScore value = true
| .timing _ _ unit => IsTiming value unit

/- The range of a score column. -/
def inRange (n : Int) : AnalysisField → Bool
| .performanceScore => 0 ≤ n ∧ n ≤ 100
| _ => fitsInteger n

/- A value whose metric fits the column of its field. -/
def Fits (value : Json) : Source → Prop
| .score _ f =>
    value = .null ∨
      ∃ n, value.percent = .ok (.int n) ∧
        inRange n f = true
| .timing _ _ _ =>
    value = .null ∨ ∃ x, value.toFloat = .ok x

end Source

/- The sources in the order of `parse_pagespeed`. -/
def sources : List Source :=
  categoryToField.map (fun e => .score e.1 e.2) ++
    auditToField.map (fun e => .timing e.1 e.2.1 e.2.2)

/- The metrics of the values at their places. -/
def metricsOf
    (raw : Json) :
    List Source →
      Except PyError (List (AnalysisField × Json))
| [] => .ok []
| source :: rest => do
    let value ← source.read (raw.place source.path)
    let values ← metricsOf raw rest
    pure ((source.field, value) :: values)

/- A metric is `None` exactly when its source is missing. -/
def YieldsNone
    (raw : Json)
    (metrics : List (AnalysisField × Json)) : Prop :=
  ∀ source ∈ sources, ∃ value,
    metrics.lookup source.field = some value ∧
      (value = .null ↔ raw.place source.path = .null)

------------------------------------------------------------
-- Parsing
------------------------------------------------------------

section Parsing

variable {raw categories audits v : Json} {key : String}
variable {unit : MetricUnit} {source : Source}
variable {metrics : List (AnalysisField × Json)}

theorem parseCategory_eq_ok :
    parseCategory categories key = .ok v ↔
      categories.nested [key, "score"] = true ∧
        Source.readScore (categories.place [key, "score"]) =
          .ok v := by
  simp only [parseCategory, bind_eq_ok_iff, Json.get_eq_ok,
    Json.nested_cons, Json.place_cons, Json.nested_nil,
    and_true]
  constructor
  · rintro ⟨_, ⟨hObject, rfl⟩, _, ⟨hInner, rfl⟩, hRead⟩
    exact ⟨⟨hObject, hInner⟩, hRead⟩
  · rintro ⟨⟨hObject, hInner⟩, hRead⟩
    exact ⟨_, ⟨hObject, rfl⟩, _, ⟨hInner, rfl⟩, hRead⟩

theorem parseAudit_eq_ok :
    parseAudit audits key unit = .ok v ↔
      audits.nested [key, "numericValue"] = true ∧
        convert (audits.place [key, "numericValue"]) unit =
          .ok v := by
  simp only [parseAudit, bind_eq_ok_iff, Json.get_eq_ok,
    Json.nested_cons, Json.place_cons, Json.nested_nil,
    and_true]
  constructor
  · rintro ⟨_, ⟨hObject, rfl⟩, _, ⟨hInner, rfl⟩, hRead⟩
    exact ⟨⟨hObject, hInner⟩, hRead⟩
  · rintro ⟨⟨hObject, hInner⟩, hRead⟩
    exact ⟨_, ⟨hObject, rfl⟩, _, ⟨hInner, rfl⟩, hRead⟩

/- One more source. -/
theorem metricsOf_cons_eq_ok
    {rest : List Source} :
    metricsOf raw (source :: rest) = .ok metrics ↔
      ∃ value values,
        source.read (raw.place source.path) = .ok value ∧
          metricsOf raw rest = .ok values ∧
            metrics = (source.field, value) :: values := by
  simp only [metricsOf, bind_eq_ok_iff]
  constructor
  · rintro ⟨value, hRead, values, hRest, hPure⟩
    cases hPure
    exact ⟨value, values, hRead, hRest, rfl⟩
  · rintro ⟨value, values, hRead, hRest, rfl⟩
    exact ⟨value, hRead, values, hRest, rfl⟩

theorem metricsOf_append_eq_ok
    {left right : List Source} :
    metricsOf raw (left ++ right) = .ok metrics ↔
      ∃ first second,
        metricsOf raw left = .ok first ∧
          metricsOf raw right = .ok second ∧
            metrics = first ++ second := by
  induction left generalizing metrics with
  | nil => simp [metricsOf]
  | cons source left ih =>
      simp only [List.cons_append, metricsOf_cons_eq_ok, ih]
      constructor
      · rintro
          ⟨value, _, hRead, ⟨first, second, hLeft, hRight,
            rfl⟩, rfl⟩
        exact
          ⟨_, second, ⟨value, first, hRead, hLeft, rfl⟩,
            hRight, rfl⟩
      · rintro
          ⟨_, second, ⟨value, first, hRead, hLeft, rfl⟩,
            hRight, rfl⟩
        exact
          ⟨value, _, hRead,
            ⟨first, second, hLeft, hRight, rfl⟩, rfl⟩

/- The first loop of `parse_pagespeed`. -/
theorem parseCategories_eq_ok
    (entries : List (String × AnalysisField))
    (metrics : List (AnalysisField × Json))
    (hPlace :
      ∀ key,
        raw.place
            ["lighthouseResult", "categories", key,
              "score"] =
          categories.place [key, "score"]) :
    parseCategories categories entries = .ok metrics ↔
      (∀ e ∈ entries,
        categories.nested [e.1, "score"] = true) ∧
        metricsOf raw
            (entries.map (fun e => .score e.1 e.2)) =
          .ok metrics := by
  induction entries generalizing metrics with
  | nil => simp [parseCategories, metricsOf]
  | cons entry rest ih =>
      rcases entry with ⟨key, field⟩
      simp only [parseCategories, bind_eq_ok_iff,
        parseCategory_eq_ok, ih, List.map_cons,
        List.forall_mem_cons, metricsOf_cons_eq_ok]
      simp only [Source.read, Source.path, Source.field,
        hPlace]
      constructor
      · rintro
          ⟨value, ⟨hNested, hRead⟩, values,
            ⟨hRest, hValues⟩, hPure⟩
        cases hPure
        exact
          ⟨⟨hNested, hRest⟩, value, values, hRead, hValues,
            rfl⟩
      · rintro
          ⟨⟨hNested, hRest⟩, value, values, hRead, hValues,
            rfl⟩
        exact
          ⟨value, ⟨hNested, hRead⟩, values,
            ⟨hRest, hValues⟩, rfl⟩

/- The second loop of `parse_pagespeed`. -/
theorem parseAudits_eq_ok
    (entries : List (String × AnalysisField × MetricUnit))
    (metrics : List (AnalysisField × Json))
    (hPlace :
      ∀ key,
        raw.place
            ["lighthouseResult", "audits", key,
              "numericValue"] =
          audits.place [key, "numericValue"]) :
    parseAudits audits entries = .ok metrics ↔
      (∀ e ∈ entries,
        audits.nested [e.1, "numericValue"] = true) ∧
        metricsOf raw
            (entries.map
              (fun e => .timing e.1 e.2.1 e.2.2)) =
          .ok metrics := by
  induction entries generalizing metrics with
  | nil => simp [parseAudits, metricsOf]
  | cons entry rest ih =>
      rcases entry with ⟨key, field, unit⟩
      simp only [parseAudits, bind_eq_ok_iff,
        parseAudit_eq_ok, ih, List.map_cons,
        List.forall_mem_cons, metricsOf_cons_eq_ok]
      simp only [Source.read, Source.path, Source.field,
        hPlace]
      constructor
      · rintro
          ⟨value, ⟨hNested, hRead⟩, values,
            ⟨hRest, hValues⟩, hPure⟩
        cases hPure
        exact
          ⟨⟨hNested, hRest⟩, value, values, hRead, hValues,
            rfl⟩
      · rintro
          ⟨⟨hNested, hRest⟩, value, values, hRead, hValues,
            rfl⟩
        exact
          ⟨value, ⟨hNested, hRead⟩, values,
            ⟨hRest, hValues⟩, rfl⟩

/- The object that holds the Lighthouse result. -/
def lighthouseOf (raw : Json) : Json :=
  (raw.member "lighthouseResult").getD (.obj [])

/- A part of the Lighthouse result. -/
def partOf
    (raw : Json)
    (part : String) : Json :=
  ((lighthouseOf raw).member part).getD (.obj [])

theorem nested_part
    (part key leaf : String) :
    raw.nested ["lighthouseResult", part, key, leaf] =
        true ↔
      (raw.isObject = true ∧
        (lighthouseOf raw).isObject = true) ∧
          (partOf raw part).nested [key, leaf] = true := by
  rw [Json.nested_cons, Json.nested_cons, ← and_assoc]
  rfl

theorem place_part
    (raw : Json)
    (part key leaf : String) :
    raw.place ["lighthouseResult", part, key, leaf] =
      (partOf raw part).place [key, leaf] := by
  rw [Json.place_cons, Json.place_cons]
  rfl

/-
  A payload can be flattened when nothing is in the way of
  its sources and every value can be read.
-/
theorem parsePagespeed_eq_ok :
    parsePagespeed raw = .ok metrics ↔
      (∀ source ∈ sources,
        raw.nested source.path = true) ∧
        metricsOf raw sources = .ok metrics := by
  have hScores :=
    fun first : List (AnalysisField × Json) =>
      parseCategories_eq_ok categoryToField first
        (place_part raw "categories" · "score")
  have hTimings :=
    fun second : List (AnalysisField × Json) =>
      parseAudits_eq_ok auditToField second
        (place_part raw "audits" · "numericValue")
  have hParse :
      parsePagespeed raw = .ok metrics ↔
        (raw.isObject = true ∧
          (lighthouseOf raw).isObject = true) ∧
          ∃ first second,
            parseCategories (partOf raw "categories")
                categoryToField =
              .ok first ∧
            parseAudits (partOf raw "audits") auditToField =
              .ok second ∧
            metrics = first ++ second := by
    simp only [parsePagespeed, bind_eq_ok_iff,
      Json.get_eq_ok]
    constructor
    · rintro
        ⟨_, ⟨hRaw, rfl⟩, _, ⟨hOuter, rfl⟩, _, ⟨_, rfl⟩,
          first, hFirst, second, hSecond, hPure⟩
      cases hPure
      exact
        ⟨⟨hRaw, hOuter⟩, first, second, hFirst, hSecond,
          rfl⟩
    · rintro
        ⟨⟨hRaw, hOuter⟩, first, second, hFirst, hSecond,
          rfl⟩
      exact
        ⟨_, ⟨hRaw, rfl⟩, _, ⟨hOuter, rfl⟩, _, ⟨hOuter, rfl⟩,
          first, hFirst, second, hSecond, rfl⟩
  rw [hParse, sources, metricsOf_append_eq_ok]
  simp only [hScores, hTimings, List.forall_mem_append,
    List.forall_mem_map, Source.path, nested_part]
  constructor
  · rintro
      ⟨hOuter, first, second, ⟨hCategories, hFirst⟩,
        ⟨hAudits, hSecond⟩, rfl⟩
    exact
      ⟨⟨fun e hMem => ⟨hOuter, hCategories e hMem⟩,
          fun e hMem => ⟨hOuter, hAudits e hMem⟩⟩,
        first, second, hFirst, hSecond, rfl⟩
  · rintro
      ⟨⟨hCategories, hAudits⟩, first, second, hFirst,
        hSecond, rfl⟩
    have hOuter :=
      (hCategories _ List.mem_cons_self).1
    exact
      ⟨hOuter, first, second,
        ⟨fun e hMem => (hCategories e hMem).2, hFirst⟩,
        ⟨fun e hMem => (hAudits e hMem).2, hSecond⟩, rfl⟩

/- The sources are read one by one. -/
theorem metricsOf_isOk_iff
    {rest : List Source} :
    (∃ values, metricsOf raw rest = .ok values) ↔
      ∀ source ∈ rest, ∃ value,
        source.read (raw.place source.path) = .ok value := by
  induction rest with
  | nil => simp [metricsOf]
  | cons source rest ih =>
      simp only [metricsOf_cons_eq_ok,
        List.forall_mem_cons, ← ih]
      constructor
      · rintro ⟨_, value, values, hRead, hRest, _⟩
        exact ⟨⟨value, hRead⟩, values, hRest⟩
      · rintro ⟨⟨value, hRead⟩, values, hRest⟩
        exact ⟨_, value, values, hRead, hRest, rfl⟩

/- The metric of a field is what its source was read as. -/
theorem lookup_metricsOf
    {rest : List Source}
    (hMetrics : metricsOf raw rest = .ok metrics)
    (hNodup : (rest.map Source.field).Nodup)
    (hMem : source ∈ rest) :
    ∃ value,
      source.read (raw.place source.path) = .ok value ∧
        metrics.lookup source.field = some value := by
  induction rest generalizing metrics with
  | nil => cases hMem
  | cons first rest ih =>
      rw [List.map_cons, List.nodup_cons] at hNodup
      rcases metricsOf_cons_eq_ok.mp hMetrics with
        ⟨value, values, hRead, hRest, rfl⟩
      rcases List.mem_cons.mp hMem with hSame | hTail
      · subst hSame
        exact ⟨value, hRead, List.lookup_cons_self⟩
      · rcases ih hRest hNodup.2 hTail with
          ⟨value', hRead', hLookup⟩
        have hNe : source.field ≠ first.field := by
          intro hSame
          apply hNodup.1
          rw [← hSame]
          exact List.mem_map_of_mem hTail
        refine ⟨value', hRead', ?_⟩
        rw [List.lookup_cons, beq_false_of_ne hNe]
        exact hLookup

end Parsing

------------------------------------------------------------
-- Missing Values
------------------------------------------------------------

/- Nothing is in the way, and every value can be read. -/
structure Parses (raw : Json) : Prop where
  nested :
    ∀ source ∈ sources, raw.nested source.path = true
  read :
    ∀ source ∈ sources,
      source.IsRead (raw.place source.path)

section Missing

variable {raw value : Json} {source : Source}
variable {unit : MetricUnit}

/- A score is `None` exactly when it is missing. -/
theorem readScore_iff :
    (∃ v, Source.readScore value = .ok v ∧
        (v = .null ↔ value = .null)) ↔
      Source.isScore value = true := by
  cases value with
  | float x =>
      cases hScaled : Json.scale 100 x <;>
        simp [Source.readScore, Source.isScore,
          Source.isFinite, Json.isNumber, Json.percent,
          Json.roundFloat, hScaled, Except.map]
  | _ =>
      simp [Source.readScore, Source.isScore,
        Json.isNumber, Json.percent, pure, Except.pure]

/- Seconds from milliseconds are a float. -/
theorem toSeconds_iff :
    (∃ v, (value.divide 1000 >>= Json.roundTo 3) = .ok v ∧
        v ≠ .null) ↔
      value.isNumber = true ∧
        ∃ x, value.toFloat = .ok x := by
  unfold Json.divide
  by_cases hNumber : value.isNumber = true
  · rw [if_pos hNumber]
    cases hFloat : value.toFloat with
    | error e => simp [bind, Except.bind]
    | ok x =>
        have hDivided :
            ∃ y,
              (match x with
                | .finite q =>
                    (pure (.float (toDouble (q / 1000))) :
                      Except PyError Json)
                | x => pure (.float x)) =
                .ok (.float y) := by
          cases x with
          | finite q => exact ⟨_, rfl⟩
          | _ => exact ⟨_, rfl⟩
        rcases hDivided with ⟨y, hy⟩
        rcases Json.roundTo_float 3 y with ⟨z, hz⟩
        constructor
        · intro _
          exact ⟨hNumber, x, rfl⟩
        · intro _
          refine ⟨.float z, ?_, fun h => by cases h⟩
          rw [bind_eq_ok_iff]
          exact ⟨.float y, hy, hz⟩
  · rw [if_neg hNumber]
    simp [bind, Except.bind, hNumber]

/- A rounded number is a number. -/
theorem roundTo_iff
    (digits : Nat) :
    (∃ v, value.roundTo digits = .ok v ∧ v ≠ .null) ↔
      value.isNumber = true := by
  cases value with
  | float x =>
      rcases Json.roundTo_float digits x with ⟨y, hy⟩
      simp [hy, Json.isNumber]
  | _ => simp [Json.roundTo, Json.isNumber]

/- The conversion of a value that is not missing. -/
def convertNumber
    (value : Json) : MetricUnit → Except PyError Json
| .msToS => value.divide 1000 >>= Json.roundTo 3
| .ms => value.roundTo 2
| .raw => value.roundTo 4

theorem convert_of_ne_null
    (hNull : value ≠ .null) :
    convert value unit = convertNumber value unit := by
  cases value <;> cases unit <;>
    first | rfl | exact absurd rfl hNull

/- A timing is `None` exactly when it is missing. -/
theorem convert_iff :
    (∃ v, convert value unit = .ok v ∧
        (v = .null ↔ value = .null)) ↔
      Source.IsTiming value unit := by
  by_cases hNull : value = .null
  · subst hNull
    cases unit <;> simp [convert, Source.IsTiming]
  · simp only [convert_of_ne_null hNull, hNull, iff_false]
    cases unit with
    | msToS =>
        simp only [Source.IsTiming, hNull, false_or]
        exact toSeconds_iff
    | ms =>
        simp only [Source.IsTiming, hNull, false_or]
        exact roundTo_iff 2
    | raw =>
        simp only [Source.IsTiming, hNull, false_or]
        exact roundTo_iff 4

theorem Source.read_iff :
    (∃ v, source.read value = .ok v ∧
        (v = .null ↔ value = .null)) ↔
      source.IsRead value := by
  cases source with
  | score key field => exact readScore_iff
  | timing key field unit => exact convert_iff

theorem nodup_sources :
    (sources.map Source.field).Nodup := by decide

/-
  A payload is flattened, with `None` exactly for what is
  missing, when it can be parsed in this way.
-/
theorem yieldsNone_iff :
    (∃ metrics, parsePagespeed raw = .ok metrics ∧
        YieldsNone raw metrics) ↔
      Parses raw := by
  constructor
  · rintro ⟨metrics, hParse, hNone⟩
    rcases parsePagespeed_eq_ok.mp hParse with
      ⟨hNested, hMetrics⟩
    refine ⟨hNested, ?_⟩
    intro source hMem
    rcases lookup_metricsOf hMetrics nodup_sources hMem with
      ⟨v, hRead, hLookup⟩
    rcases hNone source hMem with ⟨v', hLookup', hIff⟩
    rw [hLookup] at hLookup'
    cases hLookup'
    exact Source.read_iff.mp ⟨v, hRead, hIff⟩
  · intro hParses
    have hAll :
        ∀ source ∈ sources, ∃ v,
          source.read (raw.place source.path) = .ok v := by
      intro source hMem
      rcases Source.read_iff.mpr (hParses.read source hMem)
        with ⟨v, hRead, _⟩
      exact ⟨v, hRead⟩
    rcases metricsOf_isOk_iff.mpr hAll with
      ⟨metrics, hMetrics⟩
    refine
      ⟨metrics,
        parsePagespeed_eq_ok.mpr ⟨hParses.nested, hMetrics⟩,
        ?_⟩
    intro source hMem
    rcases lookup_metricsOf hMetrics nodup_sources hMem with
      ⟨v, hRead, hLookup⟩
    rcases Source.read_iff.mpr (hParses.read source hMem)
      with ⟨v', hRead', hIff⟩
    rw [hRead] at hRead'
    cases hRead'
    exact ⟨v, hLookup, hIff⟩

end Missing

------------------------------------------------------------
-- Columns
------------------------------------------------------------

/- The values fit, and the payload itself can be stored. -/
structure Stores (raw : Json) : Prop where
  payload : raw.storable = true
  values :
    ∀ source ∈ sources,
      source.Fits (raw.place source.path)

section Columns

variable {repr : Json → String} {value v : Json}
variable {source : Source} {unit : MetricUnit}
variable {key : String} {field : AnalysisField}

/- Scores are integers, timings are floats. -/
def Source.Typed : Source → Prop
| .score _ f =>
    f.field.type = .integer ∧ f.field.nullable = true
| .timing _ f _ =>
    f.field.type = .float ∧ f.field.nullable = true

theorem typed_of_mem
    (hMem : source ∈ sources) : source.Typed := by
  simp only [sources, categoryToField, auditToField,
    List.map_cons, List.map_nil, List.cons_append,
    List.nil_append, List.mem_cons, List.not_mem_nil,
    or_false] at hMem
  rcases hMem with
    rfl | rfl | rfl | rfl | rfl | rfl | rfl | rfl | rfl | rfl
  all_goals exact ⟨rfl, rfl⟩

/- What a score that is not missing is read as. -/
theorem readScore_eq_ok
    (hRead : Source.readScore value = .ok v) :
    v = .null ∨
      ∃ n, v = .int n ∧ value.percent = .ok (.int n) := by
  unfold Source.readScore at hRead
  split at hRead
  · right
    cases value with
    | bool b =>
        cases hRead
        exact ⟨_, rfl, rfl⟩
    | int n =>
        cases hRead
        exact ⟨_, rfl, rfl⟩
    | float x =>
        have hFloat :
            (Json.roundFloat (Json.scale 100 x)).map .int =
              .ok v := hRead
        have hPercent :
            (Json.float x).percent =
              (Json.roundFloat (Json.scale 100 x)).map
                .int := rfl
        cases hRound :
          Json.roundFloat (Json.scale 100 x) with
        | ok n =>
            rw [hRound] at hFloat hPercent
            cases hFloat
            exact ⟨n, rfl, hPercent⟩
        | error e =>
            rw [hRound] at hFloat
            cases hFloat
    | _ => cases hRead
  · cases hRead
    exact Or.inl rfl

/- What the check constraint says of a prepared score. -/
def scoreAllowed
    (f : AnalysisField)
    (v : Json) : Prop :=
  f = .performanceScore → performanceScoreRange v = .ok ()

theorem takes_score_iff
    (hRead : Source.readScore value = .ok v)
    (hNone : v = .null ↔ value = .null)
    (hTyped : (Source.score key field).Typed) :
    (field.field.Takes repr v ∧ scoreAllowed field v) ↔
      (Source.score key field).Fits value := by
  rcases hTyped with ⟨hType, hNullable⟩
  rcases readScore_eq_ok hRead with hNull | ⟨n, hInt, hPercent⟩
  · have hAllowed : scoreAllowed field v := by
      intro _
      rw [hNull]
      rfl
    have hValue := hNone.mp hNull
    simp only [Field.Takes, Source.Fits, hNull, hValue,
      hNullable, true_or, true_and, iff_true,
      and_self]
    exact hNull ▸ hAllowed
  · have hValue : value ≠ .null := by
      intro hNull
      have hv := hNone.mpr hNull
      rw [hInt] at hv
      cases hv
    subst hInt
    have hTakes :
        field.field.Takes repr (.int n) ↔
          fitsInteger n = true := by
      simp [Field.Takes, hType, FieldType.Fits, Json.toInt]
    have hFits :
        (Source.score key field).Fits value ↔
          Source.inRange n field = true := by
      simp [Source.Fits, hValue, hPercent]
    rw [hTakes, hFits]
    by_cases hField : field = .performanceScore
    · subst hField
      simp only [scoreAllowed, performanceScoreRange,
        require_eq_ok, Source.inRange, fitsInteger,
        decide_eq_true_eq, forall_const]
      omega
    · have hAllowed : scoreAllowed field (.int n) :=
        fun hSame => absurd hSame hField
      have hRange :
          Source.inRange n field = fitsInteger n := by
        cases field <;>
          first | rfl | exact absurd rfl hField
      rw [hRange]
      exact and_iff_left hAllowed

/- Seconds are a float when the milliseconds are. -/
theorem toFloat_of_toSeconds
    (hRead :
      (value.divide 1000 >>= Json.roundTo 3) = .ok v) :
    (∃ x, v.toFloat = .ok x) ∧
      ∃ x, value.toFloat = .ok x := by
  rw [bind_eq_ok_iff] at hRead
  rcases hRead with ⟨w, hDivide, hRound⟩
  unfold Json.divide at hDivide
  split at hDivide
  · rw [bind_eq_ok_iff] at hDivide
    rcases hDivide with ⟨x, hFloat, hWrap⟩
    refine ⟨?_, x, hFloat⟩
    have hw : ∃ y, w = .float y := by
      cases x <;> cases hWrap <;> exact ⟨_, rfl⟩
    rcases hw with ⟨y, rfl⟩
    rcases Json.roundTo_float 3 y with ⟨z, hz⟩
    rw [hz] at hRound
    cases hRound
    exact ⟨z, rfl⟩
  · cases hDivide

/- A rounded number is a float when the number is. -/
theorem toFloat_of_roundTo
    {digits : Nat}
    (hRead : value.roundTo digits = .ok v) :
    (∃ x, v.toFloat = .ok x) ↔
      ∃ x, value.toFloat = .ok x := by
  cases value with
  | bool b =>
      cases hRead
      cases b
      · have hZero : toDouble 0 = .finite 0 := rfl
        simp [Json.toFloat, hZero]
      · have hOne : toDouble 1 = .finite 1 := by
          decide +kernel
        simp [Json.toFloat, hOne]
  | int n => cases hRead; exact Iff.rfl
  | float x =>
      rcases Json.roundTo_float digits x with ⟨y, hy⟩
      rw [hy] at hRead
      cases hRead
      simp [Json.toFloat]
  | _ => cases hRead

/- A timing is stored exactly when it is a float. -/
theorem takes_timing_iff
    (hRead : convert value unit = .ok v)
    (hNone : v = .null ↔ value = .null)
    (hTyped : (Source.timing key field unit).Typed) :
    field.field.Takes repr v ↔
      (Source.timing key field unit).Fits value := by
  rcases hTyped with ⟨hType, hNullable⟩
  simp only [Field.Takes, Source.Fits, hType, hNullable,
    FieldType.Fits, hNone, and_true]
  by_cases hNull : value = .null
  · simp only [hNull, true_or]
  · have hFloat :
        (∃ x, v.toFloat = .ok x) ↔
          ∃ x, value.toFloat = .ok x := by
      rw [convert_of_ne_null hNull] at hRead
      cases unit with
      | msToS =>
          have hBoth := toFloat_of_toSeconds hRead
          exact iff_of_true hBoth.1 hBoth.2
      | ms => exact toFloat_of_roundTo hRead
      | raw => exact toFloat_of_roundTo hRead
    rw [hFloat]
    constructor
    · rintro (hv | ⟨_, hValue⟩)
      · exact absurd hv hNull
      · exact Or.inr hValue
    · rintro (hv | hValue)
      · exact absurd hv hNull
      · exact Or.inr ⟨fun hv => hNull (hNone.mp hv), hValue⟩

/- A metric fits its column exactly when its source does. -/
theorem takes_iff
    (hMem : source ∈ sources)
    (hRead : source.read value = .ok v)
    (hNone : v = .null ↔ value = .null) :
    (source.field.field.Takes repr v ∧
        scoreAllowed source.field v) ↔
      source.Fits value := by
  have hTyped := typed_of_mem hMem
  cases source with
  | score key field =>
      exact takes_score_iff hRead hNone hTyped
  | timing key field unit =>
      have hOther : field ≠ .performanceScore := by
        intro hSame
        rw [Source.Typed, hSame] at hTyped
        cases hTyped.1
      have hAllowed :
          scoreAllowed
            (Source.timing key field unit).field v :=
        fun hSame => absurd hSame hOther
      rw [and_iff_left hAllowed]
      exact takes_timing_iff hRead hNone hTyped

end Columns

end SiteAnalysis.Analysis
