import SiteAnalysis.Linkchecker.Database
import SiteAnalysis.Markup.Tree
import SiteAnalysis.Python.Text

/-
  This file defines the task of the link checker: the page of
  a crawl job is fetched, its links are extracted and checked
  one by one, and the results are stored with their totals.

  Key definitions include:
    * `Platform`
    * `isAllowedByRobots`
    * `fetchPageHtml`
    * `renderPageHtml`
    * `extractLinks`
    * `checkSingleLink`
    * `checkLinks`
    * `runLinkCheck`
-/

------------------------------------------------------------
-- Platform
------------------------------------------------------------

namespace SiteAnalysis.Linkchecker

open Concurrency
open Relational
open Python Markup

/- What `urlparse` finds in a URL. -/
structure ParsedUrl where
  scheme : String
  netloc : String

/-
  The interpreter and its libraries: `canFetch` parses the
  text of a `robots.txt` and asks it for a URL, and
  `statusMessage` is the message of `raise_for_status`.
-/
structure Platform where
  lower : String → String
  urljoin : String → String → Except PyError String
  urlparse : String → Except PyError ParsedUrl
  soup : String → Forest
  canFetch : String → String → Except PyError Bool
  statusMessage : String → HttpxResponse → String

/- `text[:count]` -/
def truncate
    (count : Nat)
    (text : String) : String :=
  String.ofList (text.toList.take count)

/- The response, or the exception of the call is raised. -/
def received : HttpxOutcome → Except Exc HttpxResponse
| .response r => .ok r
| .timeout m => .error (.request .timeout m)
| .httpError m => .error (.request .other m)
| .otherError m => .error (.other m)

/- One request. -/
def send (r : Request) : Service HttpxResponse := do
  let outcome ← query (.request r)
  Prog.ofExcept (received outcome)

------------------------------------------------------------
-- Pages
------------------------------------------------------------

/- The URL of the `robots.txt` of a site. -/
def robotsUrl (parsed : ParsedUrl) : String :=
  parsed.scheme ++ "://" ++ parsed.netloc ++ "/robots.txt"

/- `except httpx.HTTPError`: the page is not blocked. -/
def failOpen : Exc → Service Bool
| .request _ _ => pure true
| e => .raise e

/- `is_allowed_by_robots` -/
def isAllowedByRobots
    (platform : Platform)
    (url : String) : Service Bool := do
  let parsed ←
    Prog.ofExcept (fromPython (platform.urlparse url))
  (send (.robots (robotsUrl parsed))).handle
    (fun response =>
      if 400 ≤ response.statusCode.val then
        pure true
      else
        Prog.ofExcept
          (fromPython (platform.canFetch response.text url)))
    failOpen

/- `response.raise_for_status()` -/
def raiseForStatus
    (platform : Platform)
    (url : String)
    (response : HttpxResponse) : Except Exc Unit :=
  if 200 ≤ response.statusCode.val ∧
      response.statusCode.val < 300 then
    .ok ()
  else
    .error
      (.request .other (platform.statusMessage url response))

/- `fetch_page_html` -/
def fetchPageHtml
    (platform : Platform)
    (job : CrawlJob) : Service String := do
  let response ← send (.page job)
  Prog.ofExcept (raiseForStatus platform job.url response)
  pure response.text

/- The HTML of the rendered page. -/
def rendered : RenderOutcome → Except Exc String
| .content html => .ok html
| .playwrightError m =>
    .error (.other ("Headless render failed: " ++ m))
| .otherError m => .error (.other m)

/- `render_page_html` -/
def renderPageHtml (job : CrawlJob) : Service String := do
  let outcome ← query (.render job)
  Prog.ofExcept (rendered outcome)

/- The HTML of the page of a job. -/
def pageHtml
    (platform : Platform)
    (job : CrawlJob) : Service String :=
  if job.renderJs then
    renderPageHtml job
  else
    fetchPageHtml platform job

------------------------------------------------------------
-- Links
------------------------------------------------------------

structure Link where
  sourceUrl : String
  targetUrl : String
  anchorText : String
  linkType : LinkType

/- `LINK_SOURCES` -/
def linkSources : List (String × String) :=
  [("a", "href"), ("img", "src"), ("script", "src"),
    ("link", "href")]

/- `_SKIP_PREFIXES` -/
def skipPrefixes : List String :=
  ["mailto:", "tel:", "javascript:", "data:", "#"]

/- An attribute value that names no page. -/
def isSkipped (raw : String) : Bool :=
  raw = "" ∨
    skipPrefixes.any
      (fun prefix' =>
        prefix'.toList.isPrefixOf (lower raw).toList)

/- The attribute of an element, without its blanks. -/
def rawUrl
    (attr : String)
    (e : Element) : String :=
  stripText ((e.tag.attr attr).getD "")

/- `target.split("#", 1)[0]` -/
def withoutFragment (target : String) : String :=
  String.ofList (firstPiece '#' target.toList)

/- `suffix` ends the text. -/
def endsWith
    (suffix text : String) : Bool :=
  suffix.toList.isSuffixOf text.toList

/- The host is the site's own, or below it. -/
def classifyHost
    (baseHost host : String) : LinkType :=
  if host = baseHost ∨
      endsWith ("." ++ baseHost) host = true then
    .internal
  else
    .external

/- `anchor` -/
def anchorText
    (tagName : String)
    (e : Element) : String :=
  if tagName = "a" then
    truncate 500 (stripText e.getText)
  else
    ""

/-
  The link of one element, if its attribute leads to a page;
  resolving it can raise.
-/
def elementLink
    (platform : Platform)
    (baseUrl baseHost : String)
    (source : String × String)
    (e : Element) : Except Exc (Option Link) :=
  let raw := rawUrl source.2 e
  if isSkipped raw then
    .ok none
  else do
    let target ← fromPython (platform.urljoin baseUrl raw)
    let parsed ← fromPython (platform.urlparse target)
    if parsed.scheme = "http" ∨ parsed.scheme = "https" then
      .ok
        (some
          { sourceUrl := baseUrl
            targetUrl := withoutFragment target
            anchorText := anchorText source.1 e
            linkType :=
              classifyHost baseHost
                (platform.lower parsed.netloc) })
    else
      .ok none

/- A link with a destination that was not seen before. -/
def addLink
    (links : List Link) : Option Link → List Link
| none => links
| some link =>
    if links.any (fun l => l.targetUrl = link.targetUrl) then
      links
    else
      links ++ [link]

/- The loop over the elements. -/
def collectLinks
    (platform : Platform)
    (baseUrl baseHost : String) :
    List ((String × String) × Element) → List Link →
      Except Exc (List Link)
| [], links => .ok links
| (source, e) :: rest, links => do
    let link ←
      elementLink platform baseUrl baseHost source e
    collectLinks platform baseUrl baseHost rest
      (addLink links link)

/- The elements with a URL, one kind after another. -/
def linkElements
    (doc : Forest) : List ((String × String) × Element) :=
  linkSources.flatMap
    (fun source =>
      (doc.all.filter
          (fun e => e.tag.name = source.1)).map
        (fun e => (source, e)))

/- `extract_links` -/
def extractLinks
    (platform : Platform)
    (html baseUrl : String) : Except Exc (List Link) := do
  let base ← fromPython (platform.urlparse baseUrl)
  collectLinks platform baseUrl (platform.lower base.netloc)
    (linkElements (platform.soup html)) []

------------------------------------------------------------
-- The Check of a Link
------------------------------------------------------------

/- The fields of a result that the check finds out. -/
structure LinkOutcome where
  httpStatus : Option Nat
  responseTimeMs : Nat
  statusCategory : StatusCategory
  redirectUrl : String
  errorDetail : String

/- `_classify` -/
def classify
    (status : Option Nat)
    (redirected : Bool) : StatusCategory :=
  match status with
  | none => .error
  | some code =>
      if 400 ≤ code ∧ code < 600 then
        .broken
      else if redirected then
        .redirect
      else if 200 ≤ code ∧ code < 300 then
        .healthy
      else
        .error

/- Where the redirects of a link have led so far. -/
structure Position where
  current : String
  status : Option Nat
  redirected : Bool

/- The response is to be followed to its `Location`. -/
def HttpxResponse.redirect
    (r : HttpxResponse) : Option String :=
  if 300 ≤ r.statusCode.val ∧ r.statusCode.val < 400 then
    r.location.filter (fun l => l ≠ "")
  else
    none

/- A `HEAD` request, with `GET` in its place on a 405. -/
def probe
    (link : String)
    (hop : Nat)
    (url : String) : Service HttpxResponse := do
  let response ← send (.head link hop url)
  if response.statusCode.val = 405 then
    send (.get link hop url)
  else
    pure response

/- The loop over the redirects, with the rounds it has left. -/
def followRedirects
    (platform : Platform)
    (link : String) :
    Nat → Nat → Position → Service Position
| 0, _, at' => pure at'
| rounds + 1, hop, at' => do
    let response ← probe link hop at'.current
    let status := some response.statusCode.val
    match response.redirect with
    | none => pure { at' with status := status }
    | some location => do
        let current ←
          Prog.ofExcept
            (fromPython
              (platform.urljoin at'.current location))
        followRedirects platform link rounds (hop + 1)
          { current := current
            status := status
            redirected := true }

/- The result of a link that was reached. -/
def reachedOutcome
    (at' : Position)
    (elapsed : Nat) : LinkOutcome where
  httpStatus := at'.status
  responseTimeMs := elapsed
  statusCategory := classify at'.status at'.redirected
  redirectUrl := if at'.redirected then at'.current else ""
  errorDetail := ""

/- The result of a link that was not reached. -/
def failedOutcome
    (category : StatusCategory)
    (message default : String)
    (elapsed : Nat) : LinkOutcome where
  httpStatus := none
  responseTimeMs := elapsed
  statusCategory := category
  redirectUrl := ""
  errorDetail :=
    truncate 500 (if message = "" then default else message)

/- The `except` clauses of the check. -/
def linkFailure
    (link : String) : Exc → Service LinkOutcome
| .request .timeout m => do
    let elapsed ← query (.elapsed link)
    pure
      (failedOutcome .timeout m "Request timed out" elapsed)
| .request _ m => do
    let elapsed ← query (.elapsed link)
    pure (failedOutcome .error m "Connection error" elapsed)
| e => .raise e

/- `check_single_link` -/
def checkSingleLink
    (platform : Platform)
    (link : String) : Service LinkOutcome :=
  Prog.tryCatch
    (do
      let at' ←
        followRedirects platform link (maxRedirects + 1) 0
          { current := link
            status := none
            redirected := false }
      let elapsed ← query (.elapsed link)
      pure (reachedOutcome at' elapsed))
    (linkFailure link)

------------------------------------------------------------
-- The Pool
------------------------------------------------------------

/- A future that is done, with its link. -/
abbrev Future := Link × Except Exc LinkOutcome

/- The pool checks the links; it waits for all of them. -/
def runPool
    (platform : Platform) : List Link → Service (List Future)
| [] => pure []
| link :: rest =>
    (checkSingleLink platform link.targetUrl).handle
      (fun outcome => do
        let futures ← runPool platform rest
        pure ((link, .ok outcome) :: futures))
      (fun e => do
        let futures ← runPool platform rest
        pure ((link, .error e) :: futures))

/- The row of a link. -/
def linkResult
    (job : CrawlJob)
    (link : Link)
    (outcome : LinkOutcome) : LinkResult where
  crawlJob := job.id
  sourceUrl := link.sourceUrl
  targetUrl := link.targetUrl
  anchorText := link.anchorText
  linkType := link.linkType
  httpStatus := outcome.httpStatus
  statusCategory := outcome.statusCategory
  responseTimeMs := outcome.responseTimeMs
  redirectUrl := outcome.redirectUrl
  errorDetail := outcome.errorDetail

/- The progress of the job is updated now and then. -/
def reportProgress
    (job : CrawlJob)
    (checked : Nat) : Service Unit :=
  if checked % progressEvery = 0 then
    query (.setChecked job.id checked)
  else
    pure ()

/- The loop over the futures as they are completed. -/
def collectResults
    (job : CrawlJob) :
    List Future → List LinkResult → Nat →
      Service (List LinkResult)
| [], results, _ => pure results
| (_, .error e) :: _, _, _ => .raise e
| (link, .ok outcome) :: rest, results, checked => do
    reportProgress job (checked + 1)
    collectResults job rest
      (results ++ [linkResult job link outcome])
      (checked + 1)

/- The futures in the order in which they are completed. -/
def completionOrder
    (futures : List Future)
    (order : Order futures.length) : List Future :=
  order.val.filterMap (fun i => futures[i]?)

/- The results of the links. -/
def checkLinks
    (platform : Platform)
    (job : CrawlJob)
    (links : List Link) : Service (List LinkResult) := do
  let futures ← runPool platform links
  let order ← query (.asCompleted futures.length)
  collectResults job (completionOrder futures order) [] 0

------------------------------------------------------------
-- The Task
------------------------------------------------------------

/- `_count` -/
def countCategory
    (category : StatusCategory)
    (results : List LinkResult) : Nat :=
  results.countP (fun r => r.statusCategory = category)

/- The job with the totals of its results. -/
def completedJob
    (job : CrawlJob)
    (results : List LinkResult) : CrawlJob :=
  { job with
    totalChecked := results.length
    totalHealthy := countCategory .healthy results
    totalBroken := countCategory .broken results
    totalRedirects := countCategory .redirect results
    totalTimeouts := countCategory .timeout results
    status := .completed
    errorMessage := "" }

/- The job while its links are checked. -/
def checkingJob
    (job : CrawlJob)
    (links : List Link) : CrawlJob :=
  { job with
    totalLinksFound := links.length
    status := .checkingLinks }

/- How `run_link_check` returns. -/
inductive CheckOutcome
  | missing
  | status (value : CrawlStatus)
deriving DecidableEq

/- `RobotsDisallowedError()`, unless the page is allowed. -/
def requireAllowed (allowed : Bool) : Except Exc Unit :=
  if allowed then
    .ok ()
  else
    .error (ErrorKind.robotsDisallowed.error "" [])

/- The links of a job are checked and the results stored. -/
def processLinks
    (platform : Platform)
    (job : CrawlJob)
    (links : List Link) : Service CheckOutcome := do
  let checking := checkingJob job links
  query
    (.saveJobFields checking [.totalLinksFound, .status])
  let results ← checkLinks platform checking links
  query (.bulkCreate job.id results)
  query (.saveJob (completedJob checking results))
  pure (.status .completed)

/- The body of the `try` statement. -/
def crawlPage
    (platform : Platform)
    (job : CrawlJob) : Service CheckOutcome := do
  let allowed ← isAllowedByRobots platform job.url
  Prog.ofExcept (requireAllowed allowed)
  let html ← pageHtml platform job
  let links ←
    Prog.ofExcept (extractLinks platform html job.url)
  processLinks platform job (links.take job.maxLinks)

/- The failure is recorded on the job. -/
def failJob
    (job : CrawlJob)
    (e : Exc) : Service CheckOutcome := do
  query
    (.saveJobFields
      { job with
        status := .failed
        errorMessage := e.str }
      [.status, .errorMessage])
  pure (.status .failed)

/- `run_link_check` after the job has been read. -/
def crawlJob
    (platform : Platform)
    (row : CrawlJob) : Service CheckOutcome := do
  let job := { row with status := .crawling }
  query (.saveJobFields job [.status])
  (crawlPage platform job).tryCatch (failJob job)

/- `CrawlJob.DoesNotExist` -/
def skipMissing : Exc → Service CheckOutcome
| .doesNotExist "CrawlJob" => pure .missing
| e => .raise e

/- `run_link_check` -/
def runLinkCheck
    (platform : Platform)
    (job : JobId) : Service CheckOutcome :=
  (query (.getJob job)).handle (crawlJob platform)
    skipMissing

/- Deliveries at work on the tables. -/
abbrev CrawlWorld :=
  World (Store Db Empty) (TxOp Statement)
    (TxOp.Res Statement.Answer) Exc CheckOutcome

end SiteAnalysis.Linkchecker
