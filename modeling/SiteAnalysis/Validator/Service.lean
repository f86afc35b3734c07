import SiteAnalysis.Validator.Database

/-
  This file defines the processing of a validation job: the
  page is fetched, its structured data is extracted and
  validated, and the result replaces the stored one.

  Key definitions include:
    * `Platform`
    * `Delivery`
    * `fetchPage`
    * `extractAll`
    * `validateObject`
    * `Findings`
    * `collectFindings`
    * `processValidation`
-/

------------------------------------------------------------
-- Pages
------------------------------------------------------------

namespace SiteAnalysis.Validator

open Concurrency
open Relational
open Python Markup

/- What `client.get(url)` and its response come to. -/
inductive PageOutcome
  | text (html : String)
  | httpError (message : String)
  | otherError (message : String)

/- The interpreter and the HTML parser. -/
structure Platform where
  python : Interpreter
  soup : String → Forest
  repr : Json → String
  dumpDepth : Nat

/-
  What one run of the task meets: the outcome of the request
  for the page, and the `uuid4`s that are drawn.
-/
structure Delivery where
  client : String → PageOutcome
  itemId : Nat → ItemId
  issueId : Nat → IssueId

/- `fetch_page` -/
def fetchPage
    (client : String → PageOutcome)
    (url : String) : Except Exc String :=
  match client url with
  | .text html => .ok html
  | .httpError m =>
      .error
        (ErrorKind.pageFetch.error
          ("Could not fetch the page: " ++ m)
          [("url", .str url)])
  | .otherError m => .error (.other m)

/- The objects of one block with their format. -/
def block
    (format : SchemaFormat)
    (extracted : List Json) : List (SchemaFormat × Json) :=
  extracted.map (fun data => (format, data))

/- The objects of the page, in the order of the blocks. -/
def extractAll
    (platform : Platform)
    (html : String) :
    Except Exc (List (SchemaFormat × Json)) := do
  let doc := platform.soup html
  let jsonLd ← extractJsonLd platform.python doc
  pure
    (block .jsonLd jsonLd ++
      block .microdata (extractMicrodata doc) ++
        block .rdfa (extractRdfa doc))

------------------------------------------------------------
-- Findings
------------------------------------------------------------

/- The members of an extracted object. -/
def members : Json → Fields
| .obj fields => fields
| _ => []

/- `validate_schema` for the resolved type. -/
def validateObject
    (platform : Platform)
    (data : Json) : SchemaResult :=
  validateSchema platform.repr (resolveType (members data))
    (members data)

/- What the loop over the extracted objects builds. -/
structure Findings where
  items : List SchemaItem
  issues : List SchemaIssue
  totalErrors : Nat
  totalWarnings : Nat

namespace Findings

def empty : Findings where
  items := []
  issues := []
  totalErrors := 0
  totalWarnings := 0

/- One more issue of an item. -/
def addIssue
    (run : Delivery)
    (item : ItemId)
    (found : Findings)
    (issue : Issue) : Findings where
  items := found.items
  issues :=
    found.issues ++
      [{ toIssue := issue
         id := run.issueId found.issues.length
         schemaItem := item }]
  totalErrors :=
    if issue.severity = .error then
      found.totalErrors + 1
    else
      found.totalErrors
  totalWarnings :=
    if issue.severity = .warning then
      found.totalWarnings + 1
    else
      found.totalWarnings

/- The item of an extracted object. -/
def newItem
    (platform : Platform)
    (job : JobId)
    (id : ItemId)
    (object : SchemaFormat × Json) : SchemaItem :=
  let result := validateObject platform object.2
  { id := id
    job := job
    schemaType := result.schemaType
    format := object.1
    rawData := object.2
    isValid := result.isValid
    richResultEligible := result.richResultEligible
    isDeleted := false }

/- One more object. -/
def addObject
    (platform : Platform)
    (run : Delivery)
    (job : JobId)
    (found : Findings)
    (object : SchemaFormat × Json) : Findings :=
  let item :=
    newItem platform job (run.itemId found.items.length)
      object
  (validateObject platform object.2).issues.foldl
    (addIssue run item.id)
    { found with items := found.items ++ [item] }

end Findings

/- The loop over the extracted objects. -/
def collectFindings
    (platform : Platform)
    (run : Delivery)
    (job : JobId)
    (objects : List (SchemaFormat × Json)) : Findings :=
  objects.foldl (Findings.addObject platform run job)
    Findings.empty

/- A block is not empty. -/
def hasFormat
    (format : SchemaFormat)
    (objects : List (SchemaFormat × Json)) : Bool :=
  objects.any (fun object => object.1 = format)

/- The job with the result of a run. -/
def completedJob
    (job : ValidationJob)
    (objects : List (SchemaFormat × Json))
    (found : Findings) : ValidationJob :=
  { job with
    totalSchemasFound := found.items.length
    totalErrors := found.totalErrors
    totalWarnings := found.totalWarnings
    hasJsonLd := hasFormat .jsonLd objects
    hasMicrodata := hasFormat .microdata objects
    hasRdfa := hasFormat .rdfa objects
    status := .completed
    errorMessage := none }

------------------------------------------------------------
-- Processing
------------------------------------------------------------

/- How `process_validation` returns. -/
inductive ProcessOutcome
  | missing
  | status (value : ValidationStatus)
deriving DecidableEq

/- The transaction that replaces the stored result. -/
def storeFindings
    (job : ValidationJob)
    (found : Findings)
    (completed : ValidationJob) : Service Unit :=
  atomic do
    query (.deleteItems job.id)
    query (.bulkCreateItems found.items)
    query (.bulkCreateIssues found.issues)
    query (.saveJob completed)

/- The body of the `try` statement. -/
def validatePage
    (platform : Platform)
    (run : Delivery)
    (job : ValidationJob) : Service ProcessOutcome := do
  let html ← Prog.ofExcept (fetchPage run.client job.url)
  let objects ← Prog.ofExcept (extractAll platform html)
  let found := collectFindings platform run job.id objects
  storeFindings job found (completedJob job objects found)
  pure (.status .completed)

/- The failure is recorded on the job. -/
def failJob
    (job : ValidationJob)
    (e : Exc) : Service ProcessOutcome := do
  query
    (.saveJobFields
      { job with
        status := .failed
        errorMessage := some e.str }
      [.status, .errorMessage])
  pure (.status .failed)

/- `process_validation` after the job has been read. -/
def processJob
    (platform : Platform)
    (run : Delivery)
    (row : ValidationJob) : Service ProcessOutcome := do
  let job := { row with status := .processing }
  query (.saveJobFields job [.status])
  (validatePage platform run job).tryCatch (failJob job)

/- `ValidationJob.DoesNotExist` -/
def skipMissing : Exc → Service ProcessOutcome
| .doesNotExist "ValidationJob" => pure .missing
| e => .raise e

/- `process_validation` -/
def processValidation
    (platform : Platform)
    (run : Delivery)
    (job : JobId) : Service ProcessOutcome :=
  (query (.getJob job)).handle (processJob platform run)
    skipMissing

end SiteAnalysis.Validator
