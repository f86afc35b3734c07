import SiteAnalysis.Linkchecker.Completion

/-
  This file determines what the check of a link returns, from
  the answers of the servers that its redirects lead to.

  The loop over the redirects runs for a bounded number of
  rounds.  It ends at a server that does not redirect, at one
  that cannot be asked or followed, or with its last round.

  Key definitions include:
    * `journey`
    * `checkResult`
    * `Issued`
    * `JourneyHandled`
    * `Server`
    * `ChecksWell`
    * `ChainNamed`

  Key theorems include:
    * `run_checkSingleLink`
    * `journey_of_visits`
    * `journey_ends`
    * `checkSingleLink_returns_iff`
    * `checksWell_iff`
-/

------------------------------------------------------------
-- The Result of a Check
------------------------------------------------------------

namespace SiteAnalysis.Linkchecker

open Concurrency
open Relational
open Python

/- The position before the first request. -/
def departure (link : String) : Position where
  current := link
  status := none
  redirected := false

/- The loop over the redirects with the servers' answers. -/
def journey
    (platform : Platform)
    (run : Delivery)
    (link : String) :
    Nat → Nat → Position → Except Exc Position
| 0, _, at' => .ok at'
| rounds + 1, hop, at' => do
    let r ← run.answer link hop at'.current
    let status := some r.statusCode.val
    match r.redirect with
    | none => .ok { at' with status := status }
    | some location => do
        let current ←
          fromPython (platform.urljoin at'.current location)
        journey platform run link rounds (hop + 1)
          { current := current
            status := status
            redirected := true }

/- What becomes of the loop's exception. -/
def failureResult (elapsed : Nat) :
    Exc → Except Exc LinkOutcome
| .request .timeout m =>
    .ok (failedOutcome .timeout m "Request timed out" elapsed)
| .request _ m =>
    .ok (failedOutcome .error m "Connection error" elapsed)
| e => .error e

/- What the check returns or raises. -/
def checkResult
    (platform : Platform)
    (run : Delivery)
    (link : String) : Except Exc LinkOutcome :=
  match
    journey platform run link (maxRedirects + 1) 0
      (departure link) with
  | .ok at' => .ok (reachedOutcome at' (run.elapsed link))
  | .error e => failureResult (run.elapsed link) e

/- At most so many URLs have been requested since. -/
def Issued
    (d : Db)
    (count : Nat)
    (s : Store Db Empty) : Prop :=
  ∃ urls, urls.length ≤ count ∧
    s.Ready 0 (d.request urls) []

variable {platform : Platform} {run : Delivery}
variable {link url : String} {hop count rounds : Nat}
variable {d : Db} {s : Store Db Empty} {at' : Position}

theorem Issued.mono
    {more : Nat}
    (hIssued : Issued d count s)
    (hLe : count ≤ more) : Issued d more s := by
  rcases hIssued with ⟨urls, hLength, hReady⟩
  exact ⟨urls, hLength.trans hLe, hReady⟩

/- One more request. -/
theorem ends_send_issued
    {r : Request}
    {outcome : HttpxOutcome}
    (hIssued : Issued d count s)
    (hAnswer :
      run.answers (.request r) = some (.http [] outcome)) :
    (send r).Ends run.machine
      (fun response s' =>
        received outcome = .ok response ∧
          Issued d (count + 1) s')
      (fun e s' =>
        received outcome = .error e ∧
          Issued d (count + 1) s')
      s := by
  rcases hIssued with ⟨urls, hLength, hReady⟩
  unfold send
  apply Prog.ends_bind
  have hReply :
      reply (.request r) (.http [] outcome)
          (d.request urls) =
        some (outcome, (d.request urls).request [r.url]) := by
    simp [reply]
  apply Backend.ends_reply hReady hAnswer hReply
  intro s' hReady'
  have hIssued' : Issued d (count + 1) s' := by
    refine ⟨urls ++ [r.url], ?_, ?_⟩
    · rw [List.length_append]
      exact Nat.succ_le_succ hLength
    · rw [← request_request]
      exact hReady'
  cases hReceived : received outcome with
  | ok response => exact ⟨rfl, hIssued'⟩
  | error e => exact ⟨rfl, hIssued'⟩

/- A server is asked once or twice. -/
theorem ends_probe_issued
    (hIssued : Issued d count s) :
    (probe link hop url).Ends run.machine
      (fun r s' =>
        run.answer link hop url = .ok r ∧
          Issued d (count + 2) s')
      (fun e s' =>
        run.answer link hop url = .error e ∧
          Issued d (count + 2) s')
      s := by
  unfold probe
  apply Prog.ends_bind
  apply Prog.ends_mono (ends_send_issued hIssued rfl)
  · rintro response s₁ ⟨hHead, hIssued₁⟩
    have hAnswer :
        run.answer link hop url =
          if response.statusCode.val = 405 then
            received (run.get link hop url)
          else
            pure response := by
      simp [Delivery.answer, hHead, bind, Except.bind]
    rw [hAnswer]
    split
    · exact ends_send_issued hIssued₁ rfl
    · exact ⟨rfl, hIssued₁.mono (Nat.le_succ _)⟩
  · rintro e s₁ ⟨hHead, hIssued₁⟩
    refine ⟨?_, hIssued₁.mono (Nat.le_succ _)⟩
    simp [Delivery.answer, hHead, bind, Except.bind]

/- The loop, with two requests a round at most. -/
theorem ends_journey
    (platform : Platform)
    (link : String)
    (rounds hop : Nat)
    (at' : Position)
    (hIssued : Issued d count s) :
    (followRedirects platform link rounds hop at').Ends
      run.machine
      (fun p s' =>
        journey platform run link rounds hop at' = .ok p ∧
          Issued d (count + 2 * rounds) s')
      (fun e s' =>
        journey platform run link rounds hop at' =
            .error e ∧
          Issued d (count + 2 * rounds) s')
      s := by
  induction rounds generalizing count hop at' s with
  | zero => exact ⟨rfl, hIssued⟩
  | succ rounds ih =>
      have hRounds :
          count + 2 * (rounds + 1) =
            count + 2 + 2 * rounds := by omega
      unfold followRedirects journey
      rw [hRounds]
      apply Prog.ends_bind
      apply Prog.ends_mono (ends_probe_issued hIssued)
      · rintro r s₁ ⟨hAnswer, hIssued₁⟩
        simp only [hAnswer, bind, Except.bind]
        cases hRedirect : r.redirect with
        | none =>
            exact ⟨rfl, hIssued₁.mono (Nat.le_add_right _ _)⟩
        | some location =>
            apply Prog.ends_bind
            simp only
            cases hJoin :
                fromPython
                  (platform.urljoin at'.current location) with
            | error e =>
                exact
                  ⟨rfl, hIssued₁.mono (Nat.le_add_right _ _)⟩
            | ok next =>
                simp only
                exact ih _ _ hIssued₁
      · rintro e s₁ ⟨hAnswer, hIssued₁⟩
        simp only [hAnswer, bind, Except.bind, true_and]
        exact hIssued₁.mono (Nat.le_add_right _ _)

/- The clock is read without a request. -/
theorem ends_elapsed
    {Q : LinkOutcome → Store Db Empty → Prop}
    {E : Exc → Store Db Empty → Prop}
    {f : Nat → LinkOutcome}
    (hIssued : Issued d count s)
    (hDone :
      ∀ s', Issued d count s' → Q (f (run.elapsed link)) s') :
    ((query (.elapsed link)).bind
      (fun elapsed => .ret (f elapsed))).Ends run.machine Q E
        s := by
  rcases hIssued with ⟨urls, hLength, hReady⟩
  apply Prog.ends_bind
  have hAnswer :
      run.answers (.elapsed link) =
        some (.elapsed (run.elapsed link)) := rfl
  have hReply :
      backend.reply (.elapsed link)
          (.elapsed (run.elapsed link)) (d.request urls) =
        some (run.elapsed link, d.request urls) := rfl
  apply Backend.ends_reply hReady hAnswer hReply
  intro s' hReady'
  exact hDone s' ⟨urls, hLength, hReady'⟩

/- The `except` clauses. -/
theorem ends_failureResult
    {e : Exc}
    (hIssued : Issued d count s) :
    (linkFailure link e).Ends run.machine
      (fun outcome s' =>
        failureResult (run.elapsed link) e = .ok outcome ∧
          Issued d count s')
      (fun e' s' =>
        failureResult (run.elapsed link) e = .error e' ∧
          Issued d count s')
      s := by
  cases e with
  | request kind m =>
      cases kind with
      | timeout =>
          exact ends_elapsed hIssued (fun _ h => ⟨rfl, h⟩)
      | connectionError =>
          exact ends_elapsed hIssued (fun _ h => ⟨rfl, h⟩)
      | other =>
          exact ends_elapsed hIssued (fun _ h => ⟨rfl, h⟩)
  | _ => exact ⟨rfl, hIssued⟩

/- The check comes to its result with few requests. -/
theorem ends_checkResult
    (platform : Platform)
    (run : Delivery)
    (link : String)
    (hIssued : Issued d count s) :
    (checkSingleLink platform link).Ends run.machine
      (fun outcome s' =>
        checkResult platform run link = .ok outcome ∧
          Issued d (count + 2 * (maxRedirects + 1)) s')
      (fun e s' =>
        checkResult platform run link = .error e ∧
          Issued d (count + 2 * (maxRedirects + 1)) s')
      s := by
  unfold checkSingleLink checkResult
  apply Prog.ends_handle
  apply Prog.ends_bind
  apply
    Prog.ends_mono
      (ends_journey platform link (maxRedirects + 1) 0
        (departure link) hIssued)
  · rintro at' s₁ ⟨hJourney, hIssued₁⟩
    simp only [hJourney]
    exact ends_elapsed hIssued₁ (fun _ h => ⟨rfl, h⟩)
  · rintro e s₁ ⟨hJourney, hIssued₁⟩
    simp only [hJourney]
    exact ends_failureResult hIssued₁

theorem run_checkSingleLink
    (platform : Platform)
    (run : Delivery)
    (link : String)
    (d : Db) :
    ∃ s,
      (checkSingleLink platform link).run run.machine
          (Store.quiet d) =
        some (checkResult platform run link, s) ∧
        Issued d (2 * (maxRedirects + 1)) s := by
  have hQuiet : Issued d 0 (Store.quiet d) := by
    refine ⟨[], Nat.le_refl _, ?_⟩
    rw [request_nil]
    exact Store.ready_quiet
  rcases
    Prog.run_of_ends
      (ends_checkResult platform run link hQuiet) with
    ⟨outcome, s, hRun, hResult, hIssued⟩ |
      ⟨e, s, hRun, hResult, hIssued⟩
  · rw [Nat.zero_add] at hIssued
    exact ⟨s, hResult ▸ hRun, hIssued⟩
  · rw [Nat.zero_add] at hIssued
    exact ⟨s, hResult ▸ hRun, hIssued⟩

------------------------------------------------------------
-- How Journeys End
------------------------------------------------------------

variable {next location : String} {r : HttpxResponse}

/- A later visit comes after earlier ones. -/
theorem earlier_visits
    {later : Nat}
    (hVisits : run.Visits platform link later url)
    (hLe : hop ≤ later) :
    ∃ before, run.Visits platform link hop before := by
  induction hVisits with
  | start =>
      rw [Nat.le_zero.mp hLe]
      exact ⟨link, .start⟩
  | @follow later _ _ _ _ hBefore hAnswer hRedirect hNext ih =>
      rcases Nat.lt_or_eq_of_le hLe with hLess | hSame
      · exact ih (Nat.le_of_lt_succ hLess)
      · rw [hSame]
        exact ⟨_, hBefore.follow hAnswer hRedirect hNext⟩

/- The journey goes no further than this. -/
def Stops
    (platform : Platform)
    (run : Delivery)
    (link : String)
    (hop : Nat) : Prop :=
  ∀ next, ¬ run.Visits platform link (hop + 1) next

/- It stops somewhere or takes all the hops. -/
theorem stops_or_visits
    (platform : Platform)
    (run : Delivery)
    (link : String)
    (hops : Nat) :
    (∃ hop url, hop < hops ∧
        run.Visits platform link hop url ∧
          Stops platform run link hop) ∨
      ∃ url, run.Visits platform link hops url := by
  induction hops with
  | zero => exact Or.inr ⟨link, .start⟩
  | succ hops ih =>
      rcases ih with
        ⟨hop, url, hLess, hVisits, hStops⟩ | ⟨url, hVisits⟩
      · exact
          Or.inl
            ⟨hop, url, Nat.lt_succ_of_lt hLess, hVisits,
              hStops⟩
      · by_cases hNext :
            ∃ next, run.Visits platform link (hops + 1) next
        · exact Or.inr hNext
        · exact
            Or.inl
              ⟨hops, url, Nat.lt_succ_self _, hVisits,
                fun next hMore => hNext ⟨next, hMore⟩⟩

/- The loop's state at a URL that the redirects lead to. -/
structure At
    (platform : Platform)
    (run : Delivery)
    (link : String)
    (hop : Nat)
    (at' : Position) : Prop where
  visits : run.Visits platform link hop at'.current
  redirected : at'.redirected = decide (hop ≠ 0)
  status :
    ∀ before url r, hop = before + 1 →
      run.Visits platform link before url →
        run.answer link before url = .ok r →
          at'.status = some r.statusCode.val

/- The loop comes to every URL that the redirects lead to. -/
theorem journey_of_visits
    (hVisits : run.Visits platform link hop url)
    (rounds : Nat) :
    ∃ at', at'.current = url ∧
      At platform run link hop at' ∧
        journey platform run link (hop + rounds) 0
            (departure link) =
          journey platform run link rounds hop at' := by
  induction hVisits generalizing rounds with
  | start =>
      refine
        ⟨departure link, rfl, ⟨.start, rfl, ?_⟩,
          by rw [Nat.zero_add]⟩
      intro before url r hHop
      omega
  | @follow hop url location next r hBefore hAnswer hRedirect
      hNext ih =>
      rcases ih (rounds + 1) with ⟨at', hUrl, _, hJourney⟩
      refine
        ⟨{ current := next
           status := some r.statusCode.val
           redirected := true },
          rfl, ⟨?_, ?_, ?_⟩, ?_⟩
      · exact hBefore.follow hAnswer hRedirect hNext
      · simp
      · intro before url' r' hSame hVisits' hAnswer'
        have hHop : before = hop := by omega
        subst hHop
        have hUrls := visits_unique hVisits' hBefore
        subst hUrls
        rw [hAnswer] at hAnswer'
        cases hAnswer'
        rfl
      · have hRounds :
            hop + 1 + rounds = hop + (rounds + 1) := by omega
        have hJoin :
            fromPython (platform.urljoin url location) =
              .ok next := by
          rw [hNext]
          rfl
        rw [hRounds, hJourney, journey, hUrl]
        simp only [hAnswer, hRedirect, hJoin, bind,
          Except.bind]

/- The end of a journey that stops at a URL. -/
def stopResult
    (platform : Platform)
    (at' : Position)
    (answer : Except Exc HttpxResponse) :
    Except Exc Position := do
  let r ← answer
  match r.redirect with
  | none =>
      .ok { at' with status := some r.statusCode.val }
  | some location => do
      let _ ←
        fromPython (platform.urljoin at'.current location)
      .ok at'

/- The loop ends where the journey stops, or with its rounds. -/
theorem journey_ends
    (platform : Platform)
    (run : Delivery)
    (link : String)
    (hops : Nat) :
    (∃ hop at', hop < hops ∧ Stops platform run link hop ∧
        At platform run link hop at' ∧
          journey platform run link hops 0 (departure link) =
            stopResult platform at'
              (run.answer link hop at'.current)) ∨
      ∃ at', At platform run link hops at' ∧
        journey platform run link hops 0 (departure link) =
          .ok at' := by
  rcases stops_or_visits platform run link hops with
    ⟨hop, url, hLess, hVisits, hStops⟩ | ⟨url, hVisits⟩
  · left
    rcases journey_of_visits hVisits (hops - hop) with
      ⟨at', hUrl, hAt, hJourney⟩
    refine ⟨hop, at', hLess, hStops, hAt, ?_⟩
    have hRounds :
        hops - hop = (hops - hop - 1) + 1 := by omega
    have hHops : hop + (hops - hop) = hops := by omega
    rw [hHops, hRounds] at hJourney
    rw [hJourney, journey, stopResult, hUrl]
    cases hAnswer : run.answer link hop url with
    | error e => rfl
    | ok r =>
        simp only [bind, Except.bind]
        cases hRedirect : r.redirect with
        | none => rfl
        | some location =>
            cases hJoin : platform.urljoin url location with
            | error e => simp [fromPython, hJoin]
            | ok next =>
                exact
                  absurd
                    (hVisits.follow hAnswer hRedirect hJoin)
                    (hStops next)
  · right
    rcases journey_of_visits hVisits 0 with
      ⟨at', hUrl, hAt, hJourney⟩
    exact ⟨at', hAt, hJourney⟩

------------------------------------------------------------
-- Checks That Return
------------------------------------------------------------

/-
  The server's answer is a response or an `HTTPError`, and
  its `Location`, if it is to be followed, can be resolved.
-/
def HopHandled
    (platform : Platform)
    (run : Delivery)
    (link : String)
    (hop : Nat)
    (url : String) : Prop :=
  match run.answer link hop url with
  | .error e => ∃ kind m, e = .request kind m
  | .ok r =>
      ∀ location, r.redirect = some location →
        ∃ next, platform.urljoin url location = .ok next

/- This is so of all the servers that the check comes to. -/
def JourneyHandled
    (platform : Platform)
    (run : Delivery)
    (link : String) : Prop :=
  ∀ hop url, hop ≤ maxRedirects →
    run.Visits platform link hop url →
      HopHandled platform run link hop url

/- A hop that was followed was handled. -/
theorem handled_of_next
    (hVisits : run.Visits platform link hop url)
    (hNext : run.Visits platform link (hop + 1) next) :
    HopHandled platform run link hop url := by
  rcases next_of_visits hVisits hNext with
    ⟨r, location, hAnswer, hRedirect, hJoin⟩
  unfold HopHandled
  rw [hAnswer]
  intro location' hRedirect'
  rw [hRedirect] at hRedirect'
  cases hRedirect'
  exact ⟨next, hJoin⟩

/- Only the hop at which the journey stops is in question. -/
theorem journeyHandled_of_stops
    (hLess : hop < maxRedirects + 1)
    (hVisits : run.Visits platform link hop url)
    (hStops : Stops platform run link hop) :
    JourneyHandled platform run link ↔
      HopHandled platform run link hop url := by
  constructor
  · intro hHandled
    exact hHandled hop url (Nat.le_of_lt_succ hLess) hVisits
  · intro hHandled other url' _ hOther
    rcases Nat.lt_trichotomy other hop with
      hBefore | hSame | hAfter
    · rcases earlier_visits hVisits hBefore with
        ⟨next, hNext⟩
      exact handled_of_next hOther hNext
    · subst hSame
      rw [visits_unique hOther hVisits]
      exact hHandled
    · rcases earlier_visits hOther hAfter with ⟨next, hNext⟩
      exact absurd hNext (hStops next)

/- An exception is caught exactly if it is an `HTTPError`. -/
theorem failureResult_isOk
    (elapsed : Nat)
    (e : Exc) :
    (∃ outcome, failureResult elapsed e = .ok outcome) ↔
      ∃ kind m, e = .request kind m := by
  cases e with
  | request kind m =>
      cases kind <;> simp [failureResult]
  | _ => simp [failureResult]

/- The check returns if its servers are handled. -/
theorem checkResult_isOk
    (platform : Platform)
    (run : Delivery)
    (link : String) :
    (∃ outcome,
      checkResult platform run link = .ok outcome) ↔
      JourneyHandled platform run link := by
  unfold checkResult
  rcases
    journey_ends platform run link (maxRedirects + 1) with
    ⟨hop, at', hLess, hStops, hAt, hJourney⟩ |
      ⟨at', hAt, hJourney⟩
  · rw [hJourney,
      journeyHandled_of_stops hLess hAt.visits hStops]
    unfold HopHandled stopResult
    cases hAnswer : run.answer link hop at'.current with
    | error e => exact failureResult_isOk _ e
    | ok r =>
        simp only [bind, Except.bind]
        cases hRedirect : r.redirect with
        | none => simp
        | some location =>
            cases hJoin :
                platform.urljoin at'.current location with
            | error e => simp [fromPython, failureResult, hJoin]
            | ok next =>
                exact
                  absurd
                    (hAt.visits.follow hAnswer hRedirect
                      hJoin)
                    (hStops next)
  · rw [hJourney]
    constructor
    · intro _ hop url hLe hVisits
      rcases
        earlier_visits hAt.visits (Nat.succ_le_succ hLe) with
        ⟨next, hNext⟩
      exact handled_of_next hVisits hNext
    · intro _
      exact ⟨_, rfl⟩

/-
  `check_single_link` returns a result exactly when every
  server that it comes to answers or fails with an
  `HTTPError` and leads to a URL that can be resolved.
-/
theorem checkSingleLink_returns_iff
    (platform : Platform)
    (run : Delivery)
    (link : String)
    (d : Db) :
    (∃ outcome s,
      (checkSingleLink platform link).run run.machine
          (Store.quiet d) =
        some (.ok outcome, s)) ↔
      JourneyHandled platform run link := by
  rw [← checkResult_isOk]
  rcases run_checkSingleLink platform run link d with
    ⟨s, hRun, _⟩
  rw [hRun]
  constructor
  · rintro ⟨outcome, s', hSame⟩
    cases hResult : checkResult platform run link with
    | ok found => exact ⟨found, rfl⟩
    | error e =>
        rw [hResult] at hSame
        cases hSame
  · rintro ⟨outcome, hResult⟩
    exact ⟨outcome, s, by rw [hResult]⟩

/- Every server redirects to a malformed host. -/
def malformedRun : Delivery :=
  { plainRun with
    head := fun _ _ _ =>
      .response
        { statusCode := foundStatus
          location := some "http://["
          text := "" } }

/- The check of a link of a page raises. -/
theorem malformed_location_raises :
    ¬ ∀ platform run html baseUrl links link d,
      extractLinks platform html baseUrl = .ok links →
        link ∈ links →
          ∃ outcome s,
            (checkSingleLink platform link.targetUrl).run
                (Delivery.machine run) (Store.quiet d) =
              some (.ok outcome, s) := by
  intro hAll
  rcases
    hAll (linkPlatform "https://example.com/a") malformedRun
      "" newJob.url [pageLink] pageLink newJobDb
      extractLinks_page (List.mem_singleton_self _) with
    ⟨outcome, s, hReturns⟩
  rcases
    run_checkSingleLink (linkPlatform "https://example.com/a")
      malformedRun pageLink.targetUrl newJobDb with
    ⟨s', hRun, _⟩
  rw [hReturns] at hRun
  have hResult :
      checkResult (linkPlatform "https://example.com/a")
          malformedRun pageLink.targetUrl =
        .error (.python (.valueError "Invalid IPv6 URL")) :=
    rfl
  rw [hResult] at hRun
  cases hRun

------------------------------------------------------------
-- Servers Without Network Errors
------------------------------------------------------------

/- The answers to each method and URL. -/
structure Server where
  head : String → HttpxResponse
  get : String → HttpxResponse

namespace Server

/- The answer of a URL. -/
def answer
    (server : Server)
    (url : String) : HttpxResponse :=
  if (server.head url).statusCode.val = 405 then
    server.get url
  else
    server.head url

/- The status that a URL answers. -/
def status
    (server : Server)
    (url : String) : Nat :=
  (server.answer url).statusCode.val

/- The run that meets the server. -/
def met
    (server : Server)
    (run : Delivery) : Delivery :=
  { run with
    head := fun _ _ url => .response (server.head url)
    get := fun _ _ url => .response (server.get url) }

theorem answer_met
    (server : Server)
    (run : Delivery)
    (link : String)
    (hop : Nat)
    (url : String) :
    (server.met run).answer link hop url =
      .ok (server.answer url) := by
  unfold Delivery.answer answer
  simp only [met, received, bind, Except.bind]
  split <;> rfl

end Server

/- The URL that a result is about: the link, if it has none. -/
def shownUrl
    (link redirectUrl : String) : String :=
  if redirectUrl = "" then link else redirectUrl

/- The check asks the URL. -/
def Asked
    (platform : Platform)
    (server : Server)
    (run : Delivery)
    (link url : String) : Prop :=
  ∃ hop, hop ≤ maxRedirects ∧
    (server.met run).Visits platform link hop url

/-
  The check makes a bounded number of requests, and the
  status of its result is what the URL of the result has
  answered to it.
-/
def ChecksWell
    (platform : Platform)
    (server : Server)
    (run : Delivery)
    (link : String)
    (d : Db) : Prop :=
  ∃ result s,
    (checkSingleLink platform link).run
        (server.met run).machine (Store.quiet d) =
      some (result, s) ∧
      (∃ urls, urls.length ≤ 2 * (maxRedirects + 1) ∧
        s.committed = d.request urls) ∧
        ∀ outcome, result = .ok outcome →
          Asked platform server run link
              (shownUrl link outcome.redirectUrl) ∧
            outcome.httpStatus =
              some
                (server.status
                  (shownUrl link outcome.redirectUrl))

/-
  Where the redirects lead after the last hop was asked
  before and answers as the URL that leads there; and no
  answer stands under the empty URL.
-/
structure ChainNamed
    (platform : Platform)
    (server : Server)
    (run : Delivery)
    (link : String) : Prop where
  limit :
    ∀ url next,
      (server.met run).Visits platform link maxRedirects
          url →
        (server.met run).Visits platform link
            (maxRedirects + 1) next →
          Asked platform server run link
              (shownUrl link next) ∧
            server.status url =
              server.status (shownUrl link next)
  named :
    ∀ hop url, hop < maxRedirects →
      (server.met run).Visits platform link (hop + 1) url →
        (server.answer url).redirect = none →
          server.status url =
            server.status (shownUrl link url)

variable {server : Server}

/- The result of the check is about a URL with this status. -/
def Agrees
    (platform : Platform)
    (server : Server)
    (run : Delivery)
    (link : String)
    (at' : Position) : Prop :=
  let url :=
    shownUrl link
      (if at'.redirected then at'.current else "")
  Asked platform server run link url ∧
    at'.status = some (server.status url)

/- The result at a server that does not redirect. -/
theorem agrees_of_stop
    (hLe : hop ≤ maxRedirects)
    (hAt : At platform (server.met run) link hop at') :
    Agrees platform server run link
        { at' with
          status :=
            some
              (server.answer at'.current).statusCode.val } ↔
      (hop ≠ 0 →
        server.status at'.current =
          server.status (shownUrl link at'.current)) := by
  unfold Agrees
  simp only [hAt.redirected, decide_eq_true_eq]
  have hVisits := hAt.visits
  by_cases hFirst : hop = 0
  · subst hFirst
    have hLink : at'.current = link :=
      visits_unique hVisits .start
    rw [hLink] at hVisits
    simp only [ne_eq, not_true_eq_false, if_false, hLink,
      shownUrl, if_true, false_implies, iff_true]
    exact ⟨⟨0, Nat.zero_le _, hVisits⟩, rfl⟩
  · rw [if_pos hFirst]
    have hAsked :
        Asked platform server run link
          (shownUrl link at'.current) := by
      unfold shownUrl
      split
      · exact ⟨0, Nat.zero_le _, .start⟩
      · exact ⟨hop, hLe, hVisits⟩
    simp only [hAsked, true_and, Option.some.injEq]
    exact ⟨fun hSame _ => hSame, fun hAll => hAll hFirst⟩

/- The chain is named where the journey stops. -/
theorem chainNamed_of_stops
    (hLe : hop ≤ maxRedirects)
    (hVisits :
      (server.met run).Visits platform link hop url)
    (hStops : Stops platform (server.met run) link hop) :
    ChainNamed platform server run link ↔
      ((server.answer url).redirect = none → hop ≠ 0 →
        server.status url =
          server.status (shownUrl link url)) := by
  constructor
  · intro hChain hEnd hLater
    cases hop with
    | zero => exact absurd rfl hLater
    | succ before =>
        exact hChain.named before url hLe hVisits hEnd
  · intro hAll
    constructor
    · intro last next _ hNext
      rcases
        earlier_visits hNext (Nat.succ_le_succ hLe) with
        ⟨further, hFurther⟩
      exact absurd hFurther (hStops further)
    · intro before url' hLess hVisits' hEnd
      rcases Nat.lt_trichotomy (before + 1) hop with
        hBefore | hSame | hAfter
      · rcases earlier_visits hVisits hBefore with
          ⟨next, hNext⟩
        rcases next_of_visits hVisits' hNext with
          ⟨r, location, hAnswer, hRedirect, _⟩
        rw [Server.answer_met] at hAnswer
        cases hAnswer
        rw [hEnd] at hRedirect
        cases hRedirect
      · subst hSame
        have hUrls := visits_unique hVisits' hVisits
        subst hUrls
        exact hAll hEnd (Nat.succ_ne_zero _)
      · rcases earlier_visits hVisits' hAfter with
          ⟨next, hNext⟩
        exact absurd hNext (hStops next)

/- What the results of the check say of themselves. -/
theorem agrees_iff
    (platform : Platform)
    (server : Server)
    (run : Delivery)
    (link : String) :
    (∀ outcome,
      checkResult platform (server.met run) link =
          .ok outcome →
        Asked platform server run link
            (shownUrl link outcome.redirectUrl) ∧
          outcome.httpStatus =
            some
              (server.status
                (shownUrl link outcome.redirectUrl))) ↔
      ChainNamed platform server run link := by
  unfold checkResult
  rcases
    journey_ends platform (server.met run) link
      (maxRedirects + 1) with
    ⟨hop, at', hLess, hStops, hAt, hJourney⟩ |
      ⟨at', hAt, hJourney⟩
  · have hLe := Nat.le_of_lt_succ hLess
    rw [hJourney,
      chainNamed_of_stops hLe hAt.visits hStops, stopResult,
      Server.answer_met]
    simp only [bind, Except.bind]
    cases hRedirect :
        (server.answer at'.current).redirect with
    | none =>
        have hAgrees := agrees_of_stop hLe hAt
        simp only [Except.ok.injEq, forall_eq', true_implies]
        exact hAgrees
    | some location =>
        cases hJoin :
            platform.urljoin at'.current location with
        | error e =>
            simp [fromPython, failureResult, hJoin]
        | ok next =>
            exact
              absurd
                (hAt.visits.follow
                  (Server.answer_met server run link hop _)
                  hRedirect hJoin)
                (hStops next)
  · have hRedirected : at'.redirected = true := by
      rw [hAt.redirected]
      decide
    rcases
      earlier_visits hAt.visits (Nat.le_succ maxRedirects)
      with ⟨last, hLast⟩
    have hStatus :=
      hAt.status maxRedirects last _ rfl hLast
        (Server.answer_met server run link maxRedirects last)
    rw [hJourney]
    simp only [Except.ok.injEq, forall_eq', reachedOutcome,
      hRedirected, if_true, hStatus, Option.some.injEq]
    constructor
    · intro hBoth
      constructor
      · intro url next hUrl hNext
        rw [visits_unique hUrl hLast,
          visits_unique hNext hAt.visits]
        exact hBoth
      · intro before url hLess hVisits hEnd
        rcases
          earlier_visits hAt.visits
            (Nat.succ_le_succ hLess) with
          ⟨next, hNext⟩
        rcases next_of_visits hVisits hNext with
          ⟨r, location, hAnswer, hRedirect, _⟩
        rw [Server.answer_met] at hAnswer
        cases hAnswer
        rw [hEnd] at hRedirect
        cases hRedirect
    · intro hChain
      exact hChain.limit last at'.current hLast hAt.visits

/-
  On a server without network errors the check makes few
  requests and reports the status of the URL that it names,
  exactly when the chain of redirects is named.
-/
theorem checksWell_iff
    (platform : Platform)
    (server : Server)
    (run : Delivery)
    (link : String)
    (d : Db) :
    ChecksWell platform server run link d ↔
      ChainNamed platform server run link := by
  rw [← agrees_iff]
  rcases
    run_checkSingleLink platform (server.met run) link d with
    ⟨s, hRun, urls, hLength, hReady⟩
  constructor
  · rintro ⟨result, s', hSame, _, hAll⟩
    rw [hRun] at hSame
    cases hSame
    exact hAll
  · intro hAll
    exact
      ⟨_, s, hRun, ⟨urls, hLength, hReady.at'.committed⟩,
        hAll⟩

/- Every URL redirects to a longer one; the twelfth is found. -/
def longChain : Server where
  head := fun url =>
    { statusCode :=
        if url = "http://a.example/aaaaaaaaaaa" then
          okStatus
        else
          foundStatus
      location := some (url ++ "a")
      text := "" }
  get := fun _ =>
    { statusCode := okStatus
      location := none
      text := "" }

/- The result names a URL that was not asked. -/
theorem longChain_misreported :
    ¬ ∀ platform server run link d,
      ChecksWell platform server run link d := by
  intro hAll
  rcases
    hAll (linkPlatform "") longChain plainRun
      "http://a.example/" newJobDb with
    ⟨result, s, hRun, _, hAgrees⟩
  rcases
    run_checkSingleLink (linkPlatform "")
      (longChain.met plainRun) "http://a.example/"
      newJobDb with
    ⟨s', hRun', _⟩
  rw [hRun] at hRun'
  cases hRun'
  have hResult :
      checkResult (linkPlatform "") (longChain.met plainRun)
          "http://a.example/" =
        .ok
          { httpStatus := some 302
            responseTimeMs := 0
            statusCategory := .redirect
            redirectUrl := "http://a.example/aaaaaaaaaaa"
            errorDetail := "" } := by
    rfl
  have hStatus := (hAgrees _ hResult).2
  exact absurd hStatus (by decide)

end SiteAnalysis.Linkchecker
