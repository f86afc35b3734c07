import SiteAnalysis.Relational.Backend
import SiteAnalysis.Relational.Table
import SiteAnalysis.Common.Columns

/-
  This file defines the tables of the link checker, the
  requests that a crawl issues, and the statements that its
  task executes.

  Key definitions include:
    * `CrawlJob`
    * `LinkResult`
    * `Db`
    * `Db.resultsOf`
    * `Request`
    * `Statement`
    * `plan`
    * `reply`
    * `backend`

  Key theorems include:
    * `reply_requests`
    * `requests_of_done`
    * `job_of_done`
-/

------------------------------------------------------------
-- Rows
------------------------------------------------------------

namespace SiteAnalysis.Linkchecker

open Concurrency
open Relational
open Python

/- The values of fresh `uuid4`s. -/
abbrev JobId := Nat

inductive CrawlStatus
  | pending
  | crawling
  | checkingLinks
  | completed
  | failed
deriving DecidableEq

def CrawlStatus.value : CrawlStatus → String
| .pending => "pending"
| .crawling => "crawling"
| .checkingLinks => "checking_links"
| .completed => "completed"
| .failed => "failed"

inductive LinkType
  | internal
  | external
deriving DecidableEq

def LinkType.value : LinkType → String
| .internal => "internal"
| .external => "external"

inductive StatusCategory
  | healthy
  | broken
  | redirect
  | timeout
  | error
deriving DecidableEq

def StatusCategory.value : StatusCategory → String
| .healthy => "healthy"
| .broken => "broken"
| .redirect => "redirect"
| .timeout => "timeout"
| .error => "error"

/- `MAX_REDIRECTS` -/
def maxRedirects : Nat := 10

/- `PROGRESS_EVERY` -/
def progressEvery : Nat := 50

structure CrawlJob where
  id : JobId
  url : String
  status : CrawlStatus
  totalLinksFound : Nat
  totalChecked : Nat
  totalHealthy : Nat
  totalBroken : Nat
  totalRedirects : Nat
  totalTimeouts : Nat
  maxLinks : Nat
  renderJs : Bool
  errorMessage : String
  isDeleted : Bool

structure LinkResult where
  crawlJob : JobId
  sourceUrl : String
  targetUrl : String
  anchorText : String
  linkType : LinkType
  httpStatus : Option Nat
  statusCategory : StatusCategory
  responseTimeMs : Nat
  redirectUrl : String
  errorDetail : String

/-
  The tables, with the URLs that were requested so far as the
  servers have seen them.
-/
structure Db where
  jobs : List CrawlJob
  links : List LinkResult
  requests : List String

namespace Db

def find
    (d : Db)
    (job : JobId) : Option CrawlJob :=
  Table.find CrawlJob.id job d.jobs

/- `LinkResult.objects.filter(crawl_job=job)` -/
def resultsOf
    (d : Db)
    (job : JobId) : List LinkResult :=
  d.links.filter (fun row => row.crawlJob = job)

/- More URLs have been requested. -/
def request
    (d : Db)
    (urls : List String) : Db :=
  { d with requests := d.requests ++ urls }

end Db

------------------------------------------------------------
-- Columns
------------------------------------------------------------

def CrawlJob.check
    (row : CrawlJob) : Except Exc Unit := do
  charColumn 2048 row.url
  charColumn 20 row.status.value
  integerColumn row.totalLinksFound
  integerColumn row.totalChecked
  integerColumn row.totalHealthy
  integerColumn row.totalBroken
  integerColumn row.totalRedirects
  integerColumn row.totalTimeouts
  integerColumn row.maxLinks
  textColumn row.errorMessage

/- A nullable `IntegerField`. -/
def optionalIntegerColumn : Option Nat → Except Exc Unit
| none => .ok ()
| some n => integerColumn n

def LinkResult.check
    (row : LinkResult) : Except Exc Unit := do
  charColumn 2048 row.sourceUrl
  charColumn 2048 row.targetUrl
  charColumn 500 row.anchorText
  charColumn 10 row.linkType.value
  optionalIntegerColumn row.httpStatus
  charColumn 10 row.statusCategory.value
  integerColumn row.responseTimeMs
  charColumn 2048 row.redirectUrl
  charColumn 500 row.errorDetail

------------------------------------------------------------
-- Requests
------------------------------------------------------------

/-
  A request of the `httpx` client.  Those of the check of a
  link are numbered by the redirects before them, so that a
  server can answer the same URL differently each time.
-/
inductive Request
  | robots (url : String)
  | page (job : CrawlJob)
  | head (link : String) (hop : Nat) (url : String)
  | get (link : String) (hop : Nat) (url : String)

/- The URL that is requested. -/
def Request.url : Request → String
| .robots url => url
| .page job => job.url
| .head _ _ url => url
| .get _ _ url => url

/- The client follows redirects by itself. -/
def Request.follows : Request → Bool
| .page _ => true
| _ => false

structure HttpxResponse where
  statusCode : Fin 1000
  location : Option String
  text : String

/-
  A response, or the exception of the call: a
  `TimeoutException`, another `HTTPError`, or one that is no
  `HTTPError`, such as `InvalidURL`.
-/
inductive HttpxOutcome
  | response (r : HttpxResponse)
  | timeout (message : String)
  | httpError (message : String)
  | otherError (message : String)

/- What the headless browser makes of the page. -/
inductive RenderOutcome
  | content (html : String)
  | playwrightError (message : String)
  | otherError (message : String)

------------------------------------------------------------
-- Statements
------------------------------------------------------------

/- The columns of a job that are saved by name. -/
inductive JobField
  | status
  | totalLinksFound
  | errorMessage
deriving DecidableEq

/- `UPDATE` of the listed columns from the object. -/
def CrawlJob.assign
    (fields : List JobField)
    (object stored : CrawlJob) : CrawlJob :=
  { stored with
    status :=
      if .status ∈ fields then
        object.status
      else
        stored.status
    totalLinksFound :=
      if .totalLinksFound ∈ fields then
        object.totalLinksFound
      else
        stored.totalLinksFound
    errorMessage :=
      if .errorMessage ∈ fields then
        object.errorMessage
      else
        stored.errorMessage }

/- The row with its counter, if the manager shows it. -/
def CrawlJob.withChecked
    (checked : Nat)
    (row : CrawlJob) : CrawlJob :=
  if row.isDeleted then
    row
  else
    { row with totalChecked := checked }

/-
  The statements, with the operations that other parties
  answer: `elapsed` is the clock of the check of a link, in
  milliseconds since its start, and `asCompleted` the order
  in which that many futures are done.
-/
inductive Statement
  | getJob (job : JobId)
  | saveJobFields
      (object : CrawlJob)
      (fields : List JobField)
  | saveJob (object : CrawlJob)
  | setChecked (job : JobId) (checked : Nat)
  | bulkCreate (job : JobId) (rows : List LinkResult)
  | request (r : Request)
  | render (job : CrawlJob)
  | elapsed (link : String)
  | asCompleted (count : Nat)

/- The futures in some order. -/
abbrev Order (count : Nat) : Type :=
  { order : List Nat // order.Perm (List.range count) }

/- What a statement comes back with. -/
abbrev Statement.Answer : Statement → Type
| .getJob _ => CrawlJob
| .request _ => HttpxOutcome
| .render _ => RenderOutcome
| .elapsed _ => Nat
| .asCompleted count => Order count
| _ => Unit

def noRowUpdated : Exc :=
  .database .databaseError
    "Save with update_fields did not affect any rows."

/- What the database makes of each statement. -/
def plan :
    (q : Statement) → Db → Verdict Db Empty Exc q.Answer
| .getJob job, d =>
    match (d.find job).filter (fun row => !row.isDeleted) with
    | some row => .read row
    | none => .miss (.doesNotExist "CrawlJob")
| .saveJobFields object fields, d =>
    match d.find object.id with
    | none => .refuse noRowUpdated
    | some row =>
        .writeIf (object.assign fields row).check
          (fun d =>
            { d with
              jobs :=
                Table.update CrawlJob.id object.id
                  (object.assign fields) d.jobs })
| .saveJob object, _ =>
    .writeIf object.check
      (fun d =>
        { d with
          jobs := Table.put CrawlJob.id object d.jobs })
| .setChecked job checked, _ =>
    .writeIf (integerColumn checked)
      (fun d =>
        { d with
          jobs :=
            Table.update CrawlJob.id job
              (CrawlJob.withChecked checked) d.jobs })
| .bulkCreate _ rows, _ =>
    .writeIf (checkRows LinkResult.check rows)
      (fun d => { d with links := d.links ++ rows })
| .request _, _ => .outside
| .render _, _ => .outside
| .elapsed _, _ => .outside
| .asCompleted _, _ => .outside

/-
  The answers of other parties; a client that follows
  redirects and a browser request further URLs.
-/
inductive Reply
  | http (redirects : List String) (outcome : HttpxOutcome)
  | render (loads : List String) (outcome : RenderOutcome)
  | elapsed (milliseconds : Nat)
  | order (indices : List Nat)

def reply :
    (q : Statement) → Reply → Db → Option (q.Answer × Db)
| .request r, .http redirects outcome, d =>
    if redirects = [] ∨ r.follows = true then
      some (outcome, d.request (r.url :: redirects))
    else
      none
| .render job, .render loads outcome, d =>
    some (outcome, d.request (job.url :: loads))
| .elapsed _, .elapsed milliseconds, d =>
    some (milliseconds, d)
| .asCompleted count, .order indices, d =>
    if h : indices.Perm (List.range count) then
      some (⟨indices, h⟩, d)
    else
      none
| _, _, _ => none

/- The URLs that an answer makes the client request. -/
def Reply.urls : Reply → List String
| .http redirects _ => redirects
| .render loads _ => loads
| _ => []

/- The URL that a statement itself requests. -/
def Statement.url : Statement → Option String
| .request r => some r.url
| .render job => some job.url
| _ => none

def backend :
    Backend Db Empty Statement Statement.Answer Reply
      Exc where
  aborted :=
    .database .databaseError
      "current transaction is aborted"
  plan := plan
  reply := reply

/- A program over the statements. -/
abbrev Service (α : Type) :=
  Prog (TxOp Statement) (TxOp.Res Statement.Answer) Exc α

/- One statement. -/
abbrev query (q : Statement) : Service q.Answer :=
  execute q

------------------------------------------------------------
-- What Statements Change
------------------------------------------------------------

theorem request_nil
    (d : Db) : d.request [] = d := by
  simp [Db.request]

/- An answer from outside only adds to the requests. -/
theorem reply_requests
    {q : Statement}
    {x : Reply}
    {a : q.Answer}
    {d d' : Db}
    (hReply : reply q x d = some (a, d')) :
    ∃ urls, d' = d.request urls ∧
      ∀ url ∈ urls, url ∈ x.urls ∨ q.url = some url := by
  have hCons :
      ∀ (own : String) (more : List String),
        ∀ url ∈ own :: more,
          url ∈ more ∨ some own = some url := by
    intro own more url hMem
    rcases List.mem_cons.mp hMem with hOwn | hMore
    · exact Or.inr (congrArg some hOwn.symm)
    · exact Or.inl hMore
  cases q with
  | request r =>
      cases x with
      | http redirects outcome =>
          simp only [reply] at hReply
          split at hReply
          · cases hReply
            exact ⟨_, rfl, hCons _ _⟩
          · cases hReply
      | _ => cases hReply
  | render job =>
      cases x with
      | render loads outcome =>
          cases hReply
          exact ⟨_, rfl, hCons _ _⟩
      | _ => cases hReply
  | elapsed link =>
      cases x with
      | elapsed ms =>
          cases hReply
          refine ⟨[], (request_nil d).symm, ?_⟩
          exact fun _ hMem => by cases hMem
      | _ => cases hReply
  | asCompleted count =>
      cases x with
      | order indices =>
          simp only [reply] at hReply
          split at hReply
          · cases hReply
            refine ⟨[], (request_nil d).symm, ?_⟩
            exact fun _ hMem => by cases hMem
          · cases hReply
      | _ => cases hReply
  | _ => cases x <;> cases hReply

/- The statements of the database request nothing. -/
theorem requests_of_done
    {q : Statement}
    {a : q.Answer}
    {lock : Option Empty}
    {f : Db → Db}
    {d : Db}
    (hPlan : plan q d = .done a lock f)
    (d' : Db) : (f d').requests = d'.requests := by
  cases q with
  | getJob job =>
      simp only [plan] at hPlan
      split at hPlan
      · cases hPlan
        rfl
      · cases hPlan
  | saveJobFields object fields =>
      simp only [plan] at hPlan
      split at hPlan
      · cases hPlan
      · rw [(Verdict.writeIf_eq_done hPlan).2]
  | saveJob object =>
      rw [(Verdict.writeIf_eq_done hPlan).2]
  | setChecked job checked =>
      rw [(Verdict.writeIf_eq_done hPlan).2]
  | bulkCreate job rows =>
      rw [(Verdict.writeIf_eq_done hPlan).2]
  | request r => cases hPlan
  | render job => cases hPlan
  | elapsed link => cases hPlan
  | asCompleted count => cases hPlan

/- A row of a job has the URL of a row before, or is saved. -/
theorem job_of_done
    {q : Statement}
    {a : q.Answer}
    {lock : Option Empty}
    {f : Db → Db}
    {d : Db}
    {row : CrawlJob}
    (hPlan : plan q d = .done a lock f)
    (hMem : row ∈ (f d).jobs) :
    (∃ old ∈ d.jobs, row.url = old.url) ∨
      q = .saveJob row := by
  cases q with
  | getJob job =>
      simp only [plan] at hPlan
      split at hPlan
      · cases hPlan
        exact Or.inl ⟨row, hMem, rfl⟩
      · cases hPlan
  | saveJobFields object fields =>
      simp only [plan] at hPlan
      split at hPlan
      · cases hPlan
      · rw [(Verdict.writeIf_eq_done hPlan).2] at hMem
        rcases Table.mem_update hMem with
          ⟨hOld, _⟩ | ⟨old, hOld, _, rfl⟩
        · exact Or.inl ⟨row, hOld, rfl⟩
        · exact Or.inl ⟨old, hOld, rfl⟩
  | saveJob object =>
      rw [(Verdict.writeIf_eq_done hPlan).2] at hMem
      rcases Table.mem_put hMem with hOld | hNew
      · exact Or.inl ⟨row, hOld, rfl⟩
      · exact Or.inr (congrArg Statement.saveJob hNew.symm)
  | setChecked job checked =>
      rw [(Verdict.writeIf_eq_done hPlan).2] at hMem
      rcases Table.mem_update hMem with
        ⟨hOld, _⟩ | ⟨old, hOld, _, rfl⟩
      · exact Or.inl ⟨row, hOld, rfl⟩
      · refine Or.inl ⟨old, hOld, ?_⟩
        unfold CrawlJob.withChecked
        split
        · rfl
        · rfl
  | bulkCreate job rows =>
      rw [(Verdict.writeIf_eq_done hPlan).2] at hMem
      exact Or.inl ⟨row, hMem, rfl⟩
  | request r => cases hPlan
  | render job => cases hPlan
  | elapsed link => cases hPlan
  | asCompleted count => cases hPlan

end SiteAnalysis.Linkchecker
