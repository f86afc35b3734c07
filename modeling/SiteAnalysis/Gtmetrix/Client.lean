import SiteAnalysis.Reports.Database

/-
  This file defines the client of the GTmetrix API: requests
  and the reading of their answers, the polling of a test,
  and the flattening of a report into columns.

  Key definitions include:
    * `readResponse`
    * `startTest`
    * `pollTest`
    * `parseReport`
    * `pollAndFetch`
-/

------------------------------------------------------------
-- Requests
------------------------------------------------------------

namespace SiteAnalysis.Gtmetrix

open Concurrency
open Relational
open Python
open Reports

structure GtmetrixSettings where
  apiKey : String
  baseUrl : String
  requestTimeout : Nat
  pollInterval : Int
  pollMaxSeconds : Int

/- `text.lstrip("/")` on the characters of a text. -/
def stripSlashes (cs : List Char) : List Char :=
  cs.dropWhile (fun c => c = '/')

/- `text.rstrip("/")` on the characters of a text. -/
def stripTrailingSlashes (cs : List Char) : List Char :=
  (stripSlashes cs.reverse).reverse

/- `_url` -/
def apiUrl
    (settings : GtmetrixSettings)
    (path : String) : String :=
  String.ofList (stripTrailingSlashes settings.baseUrl.toList) ++
    "/" ++ String.ofList (stripSlashes path.toList)

/- The title of a decoded error answer. -/
def errorTitle (answer : Json) : Except PyError Json := do
  let errors ← answer.get "errors" (.arr [])
  if errors.truthy then
    let error ← errors.first
    let detail ← error.get "detail" .null
    if detail.truthy then
      pure detail
    else
      let title ← error.get "title" .null
      pure (title.or (.str ""))
  else
    pure (.str "")

/- The title of an error answer; other content has none. -/
def bodyTitle : Body → Except PyError Json
| .json answer => errorTitle answer
| _ => .ok (.str "")

/- `f"GTmetrix error {code}"` with the title, if any. -/
def errorMessage
    (repr : Json → String)
    (code : Nat)
    (title : Json) : String :=
  "GTmetrix error " ++ toString code ++
    (if title.truthy then ": " ++ title.toStr repr else "")

/- The handler of `requests.HTTPError`. -/
def readHttpError
    (repr : Json → String)
    (r : Response) : Except Exc Json := do
  let title ← fromPython (bodyTitle r.body)
  let message := errorMessage repr r.statusCode title
  let extra := [("status_code", Json.int r.statusCode)]
  if 400 ≤ r.statusCode ∧ r.statusCode < 500 ∧
      r.statusCode ≠ 429 then
    .error (ErrorKind.gtmetrixClient.error message extra)
  else
    .error (ErrorKind.gtmetrixAPI.error message extra)

/- What `_request` makes of the response. -/
def readResponse
    (repr : Json → String) :
    HttpOutcome → Except Exc Json
| .failure _ message =>
    .error
      (ErrorKind.gtmetrixAPI.error ""
        [("error", .str message)])
| .response r =>
    if r.raisesForStatus then
      readHttpError repr r
    else
      match r.body with
      | .empty => .ok (.obj [])
      | .json value => .ok value
      | .notJson message =>
          .error
            (ErrorKind.gtmetrixAPI.error ""
              [("error", .str message)])

/- `_request`; `_auth` raises without a key. -/
def request
    (settings : GtmetrixSettings)
    (repr : Json → String)
    (method path : String)
    (json : Option Json) : Service Json :=
  if settings.apiKey = "" then
    raiseError (ErrorKind.gtmetrixConfig.error "" [])
  else do
    let outcome : HttpOutcome ←
      query
        (.httpRequest method (apiUrl settings path)
          (settings.apiKey, "") settings.requestTimeout json)
    Prog.ofExcept (readResponse repr outcome)

/- The resource that asks for a test. -/
def testPayload (url : String) : Json :=
  .obj
    [("data",
      .obj
        [("type", .str "test"),
          ("attributes", .obj [("url", .str url)])])]

/- The test id of an answer to `start_test`. -/
def readTestId (data : Json) : Except Exc Json := do
  let resource ← fromPython (data.get "data" (.obj []))
  let testId ← fromPython (resource.get "id" .null)
  if testId.truthy then
    pure testId
  else
    .error
      (ErrorKind.gtmetrixAPI.error
        "GTmetrix did not return a test id."
        [("response", data)])

def startTest
    (settings : GtmetrixSettings)
    (repr : Json → String)
    (url : String) : Service Json := do
  let data ←
    request settings repr "POST" "tests"
      (some (testPayload url))
  Prog.ofExcept (readTestId data)

def getTest
    (settings : GtmetrixSettings)
    (repr : Json → String)
    (testId : Json) : Service Json :=
  request settings repr "GET"
    ("tests/" ++ testId.toStr repr) none

def getReport
    (settings : GtmetrixSettings)
    (repr : Json → String)
    (reportId : Json) : Service Json :=
  request settings repr "GET"
    ("reports/" ++ reportId.toStr repr) none

------------------------------------------------------------
-- Tests
------------------------------------------------------------

/- `test_json.get("data", {}).get("attributes", {})` -/
def attributesOf (testJson : Json) : Except PyError Json := do
  let data ← testJson.get "data" (.obj [])
  data.get "attributes" (.obj [])

/- `data.attributes.state` -/
def testState (testJson : Json) : Except PyError Json := do
  let attributes ← attributesOf testJson
  attributes.get "state" .null

/- `value == text` -/
def isText
    (value : Json)
    (text : String) : Bool :=
  match value with
  | .str s => s = text
  | _ => false

/- The error of a test in the state `error`. -/
def testErrored (testJson : Json) : Except PyError Exc := do
  let attributes ← attributesOf testJson
  let error ← attributes.get "error" (.str "")
  pure
    (ErrorKind.gtmetrixAPI.error "GTmetrix test errored."
      [("error", error)])

/- `link.rstrip("/").rsplit("/", 1)[-1]` -/
def lastSegment (link : String) : String :=
  String.ofList
    ((stripTrailingSlashes link.toList).reverse.takeWhile
      (fun c => c ≠ '/')).reverse

/- `_report_id_from_test` -/
def reportIdFromTest
    (testJson : Json) : Except PyError Json := do
  let data ← testJson.get "data" (.obj [])
  let relationships ← data.get "relationships" (.obj [])
  let report ← relationships.get "report" (.obj [])
  let relData ← report.get "data" .null
  let relId ← (relData.or (.obj [])).get "id" .null
  if relId.truthy then
    pure relId
  else
    let links ← data.get "links" (.obj [])
    let reportLink ← links.get "report" .null
    if reportLink.truthy then
      match reportLink with
      | .str link => pure (.str (lastSegment link))
      | other => .error (other.noAttribute "rstrip")
    else
      pure .null

/-
  The loop of `poll_and_fetch`: the resource of the completed
  test.  The loop itself has no bound; `rounds` bounds the
  polls that are looked at.
-/
def pollTest
    (settings : GtmetrixSettings)
    (repr : Json → String)
    (testId : Json)
    (deadline : Rat) : Nat → Service Json
| 0 => do
    let never : Empty ← query .cutOff
    nomatch never
| rounds + 1 => do
    let testJson ← getTest settings repr testId
    let state ← Prog.ofExcept (fromPython (testState testJson))
    if isText state "completed" then
      pure testJson
    else if isText state "error" then do
      let error ←
        Prog.ofExcept (fromPython (testErrored testJson))
      raiseError error
    else do
      let now : Rat ← query .monotonic
      if deadline ≤ now then
        raiseError
          (ErrorKind.gtmetrixTimeout.error ""
            [("test_id", testId), ("last_state", state)])
      else do
        query (.sleep (max settings.pollInterval 0))
        pollTest settings repr testId deadline rounds

------------------------------------------------------------
-- Reports
------------------------------------------------------------

/- The fields of `REPORT_ATTR_TO_FIELD`. -/
def reportAttributes : List GTmetrixField :=
  [.gtmetrixGrade, .performanceScore, .structureScore,
    .firstContentfulPaint, .largestContentfulPaint,
    .cumulativeLayoutShift, .totalBlockingTime,
    .timeToInteractive, .speedIndex, .onloadTime,
    .fullyLoadedTime, .pageBytes, .pageRequests]

/- The attributes of the listed fields, by their names. -/
def readAttributes
    (attributes : Json) :
    List GTmetrixField →
      Except PyError (List (GTmetrixField × Json))
| [] => .ok []
| field :: fields => do
    let value ← attributes.get field.field.name .null
    let values ← readAttributes attributes fields
    pure ((field, value) :: values)

/- `parse_report`: the fields that it returns values for. -/
def parseReport
    (reportJson : Json) :
    Except PyError (List (GTmetrixField × Json)) := do
  let data ← reportJson.get "data" (.obj [])
  let attributes ← data.get "attributes" (.obj [])
  let values ← readAttributes attributes reportAttributes
  let links ← data.get "links" (.obj [])
  let reportPdf ← links.get "report_pdf" .null
  if reportPdf.truthy then
    pure (values ++ [(.reportUrl, reportPdf)])
  else
    let reportUrl ← attributes.get "report_url" (.str "")
    pure
      (values ++ [(.reportUrl, reportUrl.or (.str ""))])

/- The dictionary that `poll_and_fetch` returns. -/
structure FetchedReport where
  testId : Json
  metrics : List (GTmetrixField × Json)
  raw : Json

def pollAndFetch
    (settings : GtmetrixSettings)
    (repr : Json → String)
    (rounds : Nat)
    (testId : Json) : Service FetchedReport := do
  let start : Rat ← query .monotonic
  let deadline := start + settings.pollMaxSeconds
  let testJson ←
    pollTest settings repr testId deadline rounds
  let reportId ←
    Prog.ofExcept (fromPython (reportIdFromTest testJson))
  let reportJson ←
    getReport settings repr (reportId.or testId)
  let metrics ←
    Prog.ofExcept (fromPython (parseReport reportJson))
  pure
    { testId := testId
      metrics := metrics
      raw := reportJson }

end SiteAnalysis.Gtmetrix
