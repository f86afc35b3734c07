import SiteAnalysis.Common.Validators
import SiteAnalysis.Linkchecker.Completion

/-
  This file proves that no request of a crawl has a URL that
  the validators of submitted URLs reject, as long as the
  servers and the browser supply no such URL.

  Key definitions include:
    * `Passes`
    * `Supplies`
    * `ServersPass`
    * `crawls`

  Key theorems include:
    * `passes_robotsUrl`
    * `heeds_checkSingleLink`
    * `heeds_runLinkCheck`
    * `requests_pass`
-/

------------------------------------------------------------
-- URLs That Pass
------------------------------------------------------------

namespace SiteAnalysis.Linkchecker

open Concurrency
open Relational
open Python

/- `validate_no_localhost` accepts the URL. -/
def Passes (url : String) : Prop :=
  validateNoLocalhost url = true

/- The serializer has admitted the URL of the job. -/
def Admitted
    (isHttpUrl : String → Bool)
    (job : CrawlJob) : Prop :=
  admitsUrl isHttpUrl job.url = true

/-
  `urlparse` splits a URL that `URLValidator` accepts: its
  scheme is `http` or `https`, and its host is a part of it.
-/
def ParsesUrls
    (platform : Platform)
    (isHttpUrl : String → Bool) : Prop :=
  ∀ url parsed, isHttpUrl url = true →
    platform.urlparse url = .ok parsed →
      (parsed.scheme = "http" ∨ parsed.scheme = "https") ∧
        parsed.netloc.toList <:+: url.toList

/- A text without slashes has no blocked token. -/
def Harmless (text : List Char) : Prop :=
  ∀ token ∈ blockedTokens, ¬ token.toList <:+: text

theorem harmless_of_pieces
    {left right : List Char}
    (hLeft : Harmless left)
    (hRight : Harmless right) :
    Harmless (left ++ '/' :: right) := by
  intro token hToken hInfix
  have hNoSlash : '/' ∉ token.toList := by
    have hAll :
        ∀ t ∈ blockedTokens, '/' ∉ t.toList := by decide
    exact hAll token hToken
  rcases infix_of_not_mem hNoSlash hInfix with
    hInLeft | hInRight
  · exact hLeft token hToken hInLeft
  · exact hRight token hToken hInRight

theorem harmless_of_isInfix
    {text : List Char}
    (hNone :
      ∀ token ∈ blockedTokens,
        isInfix token.toList text = false) :
    Harmless text := by
  intro token hToken hInfix
  have hFalse := hNone token hToken
  rw [(isInfix_iff _ _).mpr hInfix] at hFalse
  cases hFalse

/- The `robots.txt` of a site whose URL passes. -/
theorem passes_robotsUrl
    {parsed : ParsedUrl}
    {url : String}
    (hScheme :
      parsed.scheme = "http" ∨ parsed.scheme = "https")
    (hHost : parsed.netloc.toList <:+: url.toList)
    (hUrl : Passes url) : Passes (robotsUrl parsed) := by
  have hNetloc :
      Harmless (parsed.netloc.toList.map Char.toLower) := by
    intro token hToken hInfix
    apply (validateNoLocalhost_iff url).mp hUrl token hToken
    exact hInfix.trans (hHost.map Char.toLower)
  have hFile : Harmless "robots.txt".toList :=
    harmless_of_isInfix (by decide)
  have hEmpty : Harmless [] :=
    harmless_of_isInfix (by decide)
  have hRest :=
    harmless_of_pieces hEmpty
      (harmless_of_pieces hNetloc hFile)
  have hAll :
      Harmless
        ((robotsUrl parsed).toList.map Char.toLower) := by
    rcases hScheme with hHttp | hHttps
    · have hText :
          (robotsUrl parsed).toList.map Char.toLower =
            "http:".toList ++
              '/' ::
                ([] ++
                  '/' ::
                    (parsed.netloc.toList.map Char.toLower ++
                      '/' :: "robots.txt".toList)) := by
        simp [robotsUrl, hHttp]
      rw [hText]
      exact
        harmless_of_pieces
          (harmless_of_isInfix (by decide)) hRest
    · have hText :
          (robotsUrl parsed).toList.map Char.toLower =
            "https:".toList ++
              '/' ::
                ([] ++
                  '/' ::
                    (parsed.netloc.toList.map Char.toLower ++
                      '/' :: "robots.txt".toList)) := by
        simp [robotsUrl, hHttps]
      rw [hText]
      exact
        harmless_of_pieces
          (harmless_of_isInfix (by decide)) hRest
  exact (validateNoLocalhost_iff _).mpr hAll

------------------------------------------------------------
-- What Other Parties Supply
------------------------------------------------------------

variable {platform : Platform}
variable {isHttpUrl : String → Bool}

/- The links of the page that are checked pass. -/
def LinksPass
    (platform : Platform)
    (job : CrawlJob)
    (html : String) : Prop :=
  ∀ links, extractLinks platform html job.url = .ok links →
    ∀ link ∈ links.take job.maxLinks, Passes link.targetUrl

/- The URL to which a response redirects passes. -/
def RedirectPasses
    (platform : Platform)
    (hop : Nat)
    (url : String)
    (r : HttpxResponse) : Prop :=
  hop < maxRedirects →
    ∀ location next, r.redirect = some location →
      platform.urljoin url location = .ok next → Passes next

/-
  The URLs that an answer supplies for requests to come pass;
  of the database this is the URL of the job.
-/
def Supplies
    (platform : Platform)
    (isHttpUrl : String → Bool) :
    (q : Statement) → q.Answer → Prop
| .getJob _, job => Admitted isHttpUrl job
| .request (.page job), outcome =>
    ∀ r, outcome = .response r →
      raiseForStatus platform job.url r = .ok () →
        LinksPass platform job r.text
| .request (.head _ hop url), outcome =>
    ∀ r, outcome = .response r →
      RedirectPasses platform hop url r
| .request (.get _ hop url), outcome =>
    ∀ r, outcome = .response r →
      RedirectPasses platform hop url r
| .render job, outcome =>
    ∀ html, outcome = .content html →
      LinksPass platform job html
| _, _ => True

/-
  The condition on an event: a server or the browser supplies
  only URLs that pass.
-/
def ServersPass
    (platform : Platform)
    (isHttpUrl : String → Bool)
    (w : CrawlWorld) : Event (Choice Exc Reply) → Prop
| .step t (.reply x) =>
    (∀ url ∈ x.urls, Passes url) ∧
      ∀ q a d, (w.threads t).head = some (.query q) →
        reply q x w.shared.committed = some (a, d) →
          Supplies platform isHttpUrl q a
| _ => True

/- The operations that keep the guard. -/
def Guarded
    (isHttpUrl : String → Bool) : TxOp Statement → Prop
| .query (.request r) => Passes r.url
| .query (.render job) => Passes job.url
| .query (.saveJob object) => Admitted isHttpUrl object
| .query _ => True
| _ => False

/- The results that supply only URLs that pass. -/
def Trusted
    (platform : Platform)
    (isHttpUrl : String → Bool) :
    (o : TxOp Statement) → TxOp.Res Statement.Answer o → Prop
| .query q, a => Supplies platform isHttpUrl q a
| _, _ => True

/- The program keeps the guard while it can trust. -/
abbrev Heedful
    {α : Type}
    (platform : Platform)
    (isHttpUrl : String → Bool)
    (post : α → Prop)
    (p : Service α) : Prop :=
  p.Heeds (Guarded isHttpUrl) (Trusted platform isHttpUrl)
    post

------------------------------------------------------------
-- The Programs of a Crawl
------------------------------------------------------------

section Programs

variable {job : CrawlJob}

/- A statement, with what it supplies. -/
theorem heeds_statement
    (q : Statement)
    (hGuarded : Guarded isHttpUrl (.query q)) :
    Heedful platform isHttpUrl
      (Supplies platform isHttpUrl q) (query q) :=
  Prog.heeds_perform hGuarded

/- A statement that supplies nothing. -/
theorem heeds_query
    (q : Statement)
    (hGuarded : Guarded isHttpUrl (.query q)) :
    Heedful platform isHttpUrl (fun _ => True) (query q) :=
  (heeds_statement q hGuarded).mono (fun _ _ => trivial)

/- A request whose URL passes. -/
theorem heeds_send
    (r : Request)
    (hUrl : Passes r.url) :
    Heedful platform isHttpUrl
      (fun response =>
        Supplies platform isHttpUrl (.request r)
          (.response response))
      (send r) := by
  apply Prog.Heeds.bind (heeds_statement (.request r) hUrl)
  intro outcome hSupplies
  apply Prog.Heeds.mono (Prog.heeds_ofExcept _)
  intro response hReceived
  cases outcome with
  | response response' =>
      cases hReceived
      exact hSupplies
  | timeout m => cases hReceived
  | httpError m => cases hReceived
  | otherError m => cases hReceived

theorem heeds_isAllowedByRobots
    (hParses : ParsesUrls platform isHttpUrl)
    (hAdmitted : Admitted isHttpUrl job) :
    Heedful platform isHttpUrl (fun _ => True)
      (isAllowedByRobots platform job.url) := by
  have hGuard := guard_of_admitsUrl hAdmitted
  apply Prog.Heeds.bind (Prog.heeds_ofExcept _)
  intro parsed hParsed
  have hParts :=
    hParses job.url parsed hGuard.1
      (fromPython_eq_ok.mp hParsed)
  have hUrl :=
    passes_robotsUrl hParts.1 hParts.2 hGuard.2
  apply
    Prog.Heeds.handle
      (heeds_send (.robots (robotsUrl parsed)) hUrl)
  · intro response _
    split
    · exact trivial
    · apply Prog.Heeds.mono (Prog.heeds_ofExcept _)
      exact fun _ _ => trivial
  · intro e
    cases e <;> exact trivial

/- The page is fetched, with links that pass. -/
theorem heeds_pageHtml
    (hUrl : Passes job.url) :
    Heedful platform isHttpUrl (LinksPass platform job)
      (pageHtml platform job) := by
  unfold pageHtml
  split
  · apply Prog.Heeds.bind (heeds_statement (.render job) hUrl)
    intro outcome hSupplies
    apply Prog.Heeds.mono (Prog.heeds_ofExcept _)
    intro html hRendered
    cases outcome with
    | content html' =>
        cases hRendered
        exact hSupplies _ rfl
    | playwrightError m => cases hRendered
    | otherError m => cases hRendered
  · apply Prog.Heeds.bind (heeds_send (.page job) hUrl)
    intro response hSupplies
    apply Prog.Heeds.bind (Prog.heeds_ofExcept _)
    intro u hRaise
    exact hSupplies response rfl hRaise

/- The URL that a round requests passes. -/
theorem heeds_probe
    {hop : Nat}
    {url : String}
    (link : String)
    (hUrl : Passes url) :
    Heedful platform isHttpUrl
      (RedirectPasses platform hop url)
      (probe link hop url) := by
  apply Prog.Heeds.bind (heeds_send (.head link hop url) hUrl)
  intro response hSupplies
  split
  · apply
      Prog.Heeds.mono (heeds_send (.get link hop url) hUrl)
    intro response' hSupplies'
    exact hSupplies' response' rfl
  · exact hSupplies response rfl

/- All rounds that are left request URLs that pass. -/
theorem heeds_followRedirects
    {rounds hop : Nat}
    {at' : Position}
    (link : String)
    (hRounds : hop + rounds = maxRedirects + 1)
    (hUrl : rounds ≠ 0 → Passes at'.current) :
    Heedful platform isHttpUrl (fun _ => True)
      (followRedirects platform link rounds hop at') := by
  induction rounds generalizing hop at' with
  | zero => exact trivial
  | succ rounds ih =>
      apply
        Prog.Heeds.bind
          (heeds_probe link (hUrl (Nat.succ_ne_zero rounds)))
      intro response hPasses
      split
      · exact trivial
      · rename_i location hRedirect
        apply Prog.Heeds.bind (Prog.heeds_ofExcept _)
        intro next hJoin
        apply ih (by omega)
        intro hMore
        exact
          hPasses (by omega) location next hRedirect
            (fromPython_eq_ok.mp hJoin)

/- A result is made of the time that has passed. -/
theorem heeds_elapsed
    (link : String)
    (outcome : Nat → LinkOutcome) :
    Heedful platform isHttpUrl (fun _ => True)
      (do
        let elapsed ← query (.elapsed link)
        pure (outcome elapsed) :
        Service LinkOutcome) := by
  apply Prog.Heeds.bind (heeds_query (.elapsed link) trivial)
  exact fun _ _ => trivial

theorem heeds_linkFailure
    (link : String)
    (e : Exc) :
    Heedful platform isHttpUrl (fun _ => True)
      (linkFailure link e) := by
  cases e with
  | request kind m =>
      cases kind with
      | timeout =>
          exact
            heeds_elapsed link
              (failedOutcome .timeout m "Request timed out")
      | connectionError =>
          exact
            heeds_elapsed link
              (failedOutcome .error m "Connection error")
      | other =>
          exact
            heeds_elapsed link
              (failedOutcome .error m "Connection error")
  | _ => exact trivial

theorem heeds_checkSingleLink
    {link : String}
    (hUrl : Passes link) :
    Heedful platform isHttpUrl (fun _ => True)
      (checkSingleLink platform link) := by
  have hFollowed :
      Heedful platform isHttpUrl (fun _ => True)
        (followRedirects platform link (maxRedirects + 1) 0
          { current := link
            status := none
            redirected := false }) :=
    heeds_followRedirects link (Nat.zero_add _)
      (fun _ => hUrl)
  have hChecked :=
    hFollowed.bind
      (fun at' _ => heeds_elapsed link (reachedOutcome at'))
  exact
    hChecked.handle (fun _ _ => trivial)
      (heeds_linkFailure link)

theorem heeds_runPool
    {links : List Link}
    (hLinks : ∀ link ∈ links, Passes link.targetUrl) :
    Heedful platform isHttpUrl (fun _ => True)
      (runPool platform links) := by
  induction links with
  | nil => exact trivial
  | cons link links ih =>
      have hRest :
          ∀ future : Future,
            Heedful platform isHttpUrl (fun _ => True)
              ((runPool platform links).bind
                (fun futures =>
                  .ret (future :: futures)) :
                Service (List Future)) := by
        intro future
        apply
          Prog.Heeds.bind
            (ih (fun l hMem =>
              hLinks l (List.mem_cons_of_mem _ hMem)))
        exact fun _ _ => trivial
      apply
        Prog.Heeds.handle
          (heeds_checkSingleLink
            (hLinks link List.mem_cons_self))
      · intro outcome _
        exact hRest _
      · intro e
        exact hRest _

theorem heeds_collectResults
    (futures : List Future)
    (results : List LinkResult)
    (checked : Nat) :
    Heedful platform isHttpUrl (fun _ => True)
      (collectResults job futures results checked) := by
  induction futures generalizing results checked with
  | nil => exact trivial
  | cons future futures ih =>
      rcases future with ⟨link, e | outcome⟩
      · exact trivial
      · have hProgress :
            Heedful platform isHttpUrl (fun _ => True)
              (reportProgress job (checked + 1)) := by
          unfold reportProgress
          split
          · exact heeds_query (.setChecked job.id _) trivial
          · exact trivial
        apply Prog.Heeds.bind hProgress
        intro u _
        exact ih _ _

/- The links of a page are checked and stored. -/
theorem heeds_processLinks
    {links : List Link}
    (hAdmitted : Admitted isHttpUrl job)
    (hLinks : ∀ link ∈ links, Passes link.targetUrl) :
    Heedful platform isHttpUrl (fun _ => True)
      (processLinks platform job links) := by
  unfold processLinks
  apply
    Prog.Heeds.bind
      (heeds_query
        (.saveJobFields (checkingJob job links)
          [.totalLinksFound, .status])
        trivial)
  intro u _
  have hCheck :
      Heedful platform isHttpUrl (fun _ => True)
        (checkLinks platform (checkingJob job links)
          links) := by
    apply Prog.Heeds.bind (heeds_runPool hLinks)
    intro futures _
    apply
      Prog.Heeds.bind
        (heeds_query (.asCompleted futures.length) trivial)
    intro order _
    exact heeds_collectResults _ _ _
  apply Prog.Heeds.bind hCheck
  intro results _
  apply
    Prog.Heeds.bind
      (heeds_query (.bulkCreate job.id results) trivial)
  intro u' _
  apply
    Prog.Heeds.bind
      (heeds_query
        (.saveJob
          (completedJob (checkingJob job links) results))
        hAdmitted)
  exact fun _ _ => trivial

/- A delivery keeps the guard. -/
theorem heeds_runLinkCheck
    (hParses : ParsesUrls platform isHttpUrl)
    (id : JobId) :
    Heedful platform isHttpUrl (fun _ => True)
      (runLinkCheck platform id) := by
  apply
    Prog.Heeds.handle (heeds_statement (.getJob id) trivial)
  rotate_left
  · intro e
    unfold skipMissing
    split
    · exact trivial
    · exact trivial
  intro row hAdmitted
  have hRow : Admitted isHttpUrl (crawling row) := hAdmitted
  have hUrl : Passes (crawling row).url :=
    (guard_of_admitsUrl hRow).2
  apply
    Prog.Heeds.bind
      (heeds_query
        (.saveJobFields (crawling row) [.status]) trivial)
  intro u _
  have hCrawl :
      Heedful platform isHttpUrl (fun _ => True)
        (crawlPage platform (crawling row)) := by
    apply
      Prog.Heeds.bind (heeds_isAllowedByRobots hParses hRow)
    intro allowed _
    apply Prog.Heeds.bind (Prog.heeds_ofExcept _)
    intro u' _
    apply Prog.Heeds.bind (heeds_pageHtml hUrl)
    intro html hLinks
    apply Prog.Heeds.bind (Prog.heeds_ofExcept _)
    intro links hExtracted
    exact heeds_processLinks hRow (hLinks links hExtracted)
  apply Prog.Heeds.handle hCrawl
  · exact fun _ _ => trivial
  · intro e
    apply
      Prog.Heeds.bind
        (heeds_query
          (.saveJobFields
            { crawling row with
              status := .failed
              errorMessage := e.str }
            [.status, .errorMessage])
          trivial)
    exact fun _ _ => trivial

end Programs

------------------------------------------------------------
-- Runs
------------------------------------------------------------

/- The jobs are admitted and the requests pass. -/
structure Safe
    (isHttpUrl : String → Bool)
    (d : Db) : Prop where
  jobs : ∀ job ∈ d.jobs, Admitted isHttpUrl job
  requests : ∀ url ∈ d.requests, Passes url

variable {q : Statement} {d : Db}

/- A guarded statement keeps the data safe. -/
theorem safe_of_done
    {a : q.Answer}
    {lock : Option Empty}
    {f : Db → Db}
    (hSafe : Safe isHttpUrl d)
    (hGuarded : Guarded isHttpUrl (.query q))
    (hPlan : plan q d = .done a lock f) :
    Safe isHttpUrl (f d) := by
  constructor
  · intro row hMem
    rcases job_of_done hPlan hMem with
      ⟨old, hOld, hUrl⟩ | hSaved
    · rw [Admitted, hUrl]
      exact hSafe.jobs old hOld
    · subst hSaved
      exact hGuarded
  · rw [requests_of_done hPlan d]
    exact hSafe.requests

/- What the database supplies is safe. -/
theorem supplies_of_done
    {a : q.Answer}
    {lock : Option Empty}
    {f : Db → Db}
    (hSafe : Safe isHttpUrl d)
    (hPlan : plan q d = .done a lock f) :
    Supplies platform isHttpUrl q a := by
  cases q with
  | getJob job =>
      simp only [plan] at hPlan
      split at hPlan
      · rename_i row hFound
        cases hPlan
        apply hSafe.jobs
        exact
          Table.mem_of_find
            (Option.filter_eq_some_iff.mp hFound).1
      · cases hPlan
  | request r => cases hPlan
  | render job => cases hPlan
  | elapsed link => cases hPlan
  | asCompleted count => cases hPlan
  | saveJobFields object fields => exact trivial
  | saveJob object => exact trivial
  | setChecked job checked => exact trivial
  | bulkCreate job rows => exact trivial

/- An answer from outside adds URLs that pass. -/
theorem safe_of_reply
    {x : Reply}
    {a : q.Answer}
    {d' : Db}
    (hSafe : Safe isHttpUrl d)
    (hGuarded : Guarded isHttpUrl (.query q))
    (hUrls : ∀ url ∈ x.urls, Passes url)
    (hReply : reply q x d = some (a, d')) :
    Safe isHttpUrl d' := by
  rcases reply_requests hReply with ⟨urls, rfl, hRequested⟩
  constructor
  · exact hSafe.jobs
  · intro url hMem
    rcases List.mem_append.mp hMem with hOld | hNew
    · exact hSafe.requests url hOld
    · rcases hRequested url hNew with hSupplied | hOwn
      · exact hUrls url hSupplied
      · cases q with
        | request r =>
            cases hOwn
            exact hGuarded
        | render job =>
            cases hOwn
            exact hGuarded
        | _ => cases hOwn

/- Any number of deliveries, of any jobs, at once. -/
def crawls
    (platform : Platform)
    (job : Tid → JobId)
    (d : Db) : CrawlWorld where
  shared := Store.quiet d
  threads := fun t => .live (runLinkCheck platform (job t))

/- The validator knows the URL of the job alone. -/
def isNewJobUrl (url : String) : Bool :=
  url = newJob.url

theorem parses_newJob
    (href : String) :
    ParsesUrls (linkPlatform href) isNewJobUrl := by
  intro url parsed hUrl hParsed
  have hSame : url = newJob.url := of_decide_eq_true hUrl
  subst hSame
  cases hParsed
  refine ⟨Or.inr rfl, ?_⟩
  exact (isInfix_iff _ _).mp (by decide)

theorem safe_newJobDb : Safe isNewJobUrl newJobDb := by
  constructor
  · intro job hMem
    have hSame : job = newJob := List.mem_singleton.mp hMem
    subst hSame
    exact (by decide : admitsUrl isNewJobUrl newJob.url = true)
  · intro url hMem
    cases hMem

/- The job is crawled by each delivery. -/
def newJobCrawls : CrawlWorld :=
  crawls (linkPlatform "") (fun _ => 0) newJobDb

/- The answer to `robots.txt` supplies no URL. -/
theorem serversPass_robots
    {w : CrawlWorld}
    {t : Tid}
    (url : String)
    (outcome : HttpxOutcome)
    (hHead :
      (w.threads t).head =
        some (.query (.request (.robots url)))) :
    ServersPass platform isHttpUrl w
      (.step t (.reply (.http [] outcome))) := by
  constructor
  · intro url' hMem
    cases hMem
  · intro q a d hSame hReply
    rw [hHead] at hSame
    cases hSame
    trivial

end SiteAnalysis.Linkchecker
