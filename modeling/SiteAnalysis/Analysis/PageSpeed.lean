import SiteAnalysis.Reports.Database

/-
  This file defines the client of the PageSpeed API: the
  request with its retries, and the flattening of a
  Lighthouse payload into the metrics of a report.

  Key definitions include:
    * `readPagespeed`
    * `fetchPagespeed`
    * `convert`
    * `parsePagespeed`
-/

------------------------------------------------------------
-- Requests
------------------------------------------------------------

namespace SiteAnalysis.Analysis

open Concurrency
open Relational
open Python
open Reports

structure PagespeedSettings where
  apiKey : String
  requestTimeout : Nat
  maxRetries : Int
  retryBackoff : Rat

/- `PAGESPEED_ENDPOINT` -/
def pagespeedEndpoint : String :=
  "https://www.googleapis.com/pagespeedonline/v5/" ++
    "runPagespeed"

/- `PAGESPEED_CATEGORIES` -/
def pagespeedCategories : List String :=
  ["performance", "accessibility", "best-practices", "seo"]

/- `_RETRYABLE_STATUS` -/
def retryableStatus : List Nat :=
  [400, 408, 425, 429, 500, 502, 503, 504]

/- `_api_error_message` -/
def apiErrorMessage : Body → Except PyError Json
| .json body => do
    let error ← body.get "error" .null
    let message ← (error.or (.obj [])).get "message" .null
    pure (message.or .null)
| _ => .ok .null

/- A failed round: the error, and whether to try again. -/
structure Attempt where
  error : Exc
  retryable : Bool

/- The handler of `requests.HTTPError`. -/
def readHttpError
    (repr : Json → String)
    (r : Response) : Except Exc Attempt := do
  let message ← fromPython (apiErrorMessage r.body)
  let text :=
    "PageSpeed Insights returned HTTP " ++
      toString r.statusCode ++
        (if message.truthy then
          ": " ++ message.toStr repr
        else
          ".")
  pure
    { error :=
        ErrorKind.pageSpeedAPI.error text
          [("status_code", .int r.statusCode),
            ("api_message", message)]
      retryable := decide (r.statusCode ∈ retryableStatus) }

/- A network error or an answer that cannot be decoded. -/
def transientError (message : String) : Attempt where
  error :=
    ErrorKind.pageSpeedAPI.error ""
      [("error", .str message)]
  retryable := true

/- What one round makes of the response. -/
def readPagespeed
    (repr : Json → String) :
    HttpOutcome → Except Exc (Json ⊕ Attempt)
| .failure _ message => .ok (.inr (transientError message))
| .response r =>
    if r.raisesForStatus then
      (readHttpError repr r).map .inr
    else
      match r.body with
      | .json value => .ok (.inl value)
      | .notJson message =>
          .ok (.inr (transientError message))
      | .empty =>
          .ok
            (.inr
              (transientError
                "Expecting value: line 1 column 1 (char 0)"))

/- The parameters of the request. -/
def pagespeedParams
    (settings : PagespeedSettings)
    (url strategy : String) : List (String × String) :=
  [("url", url), ("strategy", strategy),
    ("key", settings.apiKey)] ++
    pagespeedCategories.map (fun c => ("category", c))

/- The loop over the attempts; `left` of them remain. -/
def attemptPagespeed
    (settings : PagespeedSettings)
    (repr : Json → String)
    (params : List (String × String))
    (attempt : Nat) : Nat → Service Json
| 0 => pure .null
| left + 1 => do
    let outcome : HttpOutcome ←
      query
        (.httpGet pagespeedEndpoint params
          settings.requestTimeout)
    let round ← Prog.ofExcept (readPagespeed repr outcome)
    match round with
    | .inl value => pure value
    | .inr failed =>
        if failed.retryable = false ∨ left = 0 then
          raiseError failed.error
        else do
          query (.sleep (settings.retryBackoff * attempt))
          attemptPagespeed settings repr params (attempt + 1)
            left

/- `max(1, settings.PAGESPEED_MAX_RETRIES + 1)` -/
def maxAttempts (settings : PagespeedSettings) : Nat :=
  (max 1 (settings.maxRetries + 1)).toNat

def fetchPagespeed
    (settings : PagespeedSettings)
    (repr : Json → String)
    (url strategy : String) : Service Json :=
  if settings.apiKey = "" then
    raiseError (ErrorKind.pageSpeedConfig.error "" [])
  else
    attemptPagespeed settings repr
      (pagespeedParams settings url strategy) 1
      (maxAttempts settings)

------------------------------------------------------------
-- Payloads
------------------------------------------------------------

/- The conversions of `AUDIT_TO_FIELD`. -/
inductive MetricUnit
  | msToS
  | ms
  | raw

/- `CATEGORY_TO_FIELD` -/
def categoryToField : List (String × AnalysisField) :=
  [("performance", .performanceScore),
    ("accessibility", .accessibilityScore),
    ("best-practices", .bestPracticesScore),
    ("seo", .seoScore)]

/- `AUDIT_TO_FIELD` -/
def auditToField :
    List (String × AnalysisField × MetricUnit) :=
  [("first-contentful-paint", .firstContentfulPaint, .msToS),
    ("largest-contentful-paint", .largestContentfulPaint,
      .msToS),
    ("total-blocking-time", .totalBlockingTime, .ms),
    ("cumulative-layout-shift", .cumulativeLayoutShift,
      .raw),
    ("speed-index", .speedIndex, .msToS),
    ("interactive", .timeToInteractive, .msToS)]

/- `_convert` -/
def convert
    (value : Json)
    (unit : MetricUnit) : Except PyError Json :=
  match value, unit with
  | .null, _ => .ok .null
  | v, .msToS => do
      let seconds ← v.divide 1000
      seconds.roundTo 3
  | v, .ms => v.roundTo 2
  | v, .raw => v.roundTo 4

/- The score of one category. -/
def parseCategory
    (categories : Json)
    (key : String) : Except PyError Json := do
  let category ← categories.get key (.obj [])
  let score ← category.get "score" .null
  if score.isNumber then
    score.percent
  else
    pure .null

/- The value of one audit. -/
def parseAudit
    (audits : Json)
    (key : String)
    (unit : MetricUnit) : Except PyError Json := do
  let audit ← audits.get key (.obj [])
  let value ← audit.get "numericValue" .null
  convert value unit

/- The first loop of `parse_pagespeed`. -/
def parseCategories
    (categories : Json) :
    List (String × AnalysisField) →
      Except PyError (List (AnalysisField × Json))
| [] => .ok []
| (key, field) :: rest => do
    let value ← parseCategory categories key
    let values ← parseCategories categories rest
    pure ((field, value) :: values)

/- The second loop of `parse_pagespeed`. -/
def parseAudits
    (audits : Json) :
    List (String × AnalysisField × MetricUnit) →
      Except PyError (List (AnalysisField × Json))
| [] => .ok []
| (key, field, unit) :: rest => do
    let value ← parseAudit audits key unit
    let values ← parseAudits audits rest
    pure ((field, value) :: values)

def parsePagespeed
    (raw : Json) :
    Except PyError (List (AnalysisField × Json)) := do
  let lighthouse ← raw.get "lighthouseResult" (.obj [])
  let categories ← lighthouse.get "categories" (.obj [])
  let audits ← lighthouse.get "audits" (.obj [])
  let scores ← parseCategories categories categoryToField
  let timings ← parseAudits audits auditToField
  pure (scores ++ timings)

end SiteAnalysis.Analysis
