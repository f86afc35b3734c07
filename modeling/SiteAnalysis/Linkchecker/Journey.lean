import SiteAnalysis.Relational.Solo
import SiteAnalysis.Linkchecker.Service

/-
  This file defines what one run of the task meets and proves
  what becomes of the check of a link when nothing disturbs
  it but the servers.

  Key definitions include:
    * `Delivery`
    * `Delivery.Visits`
    * `HopFits`
    * `JourneyFits`
    * `Settled`

  Key theorems include:
    * `visits_unique`
    * `journeyFits_of_end`
    * `ends_followRedirects`
    * `ends_checkSingleLink`
-/

------------------------------------------------------------
-- Deliveries
------------------------------------------------------------

namespace SiteAnalysis.Linkchecker

open Concurrency
open Relational
open Python

/-
  What one run of the task meets: the answers of the servers
  and of the browser with the further URLs that they make
  the client request, the clock, and the order in which the
  futures are completed.
-/
structure Delivery where
  robots : HttpxOutcome
  redirects : List String
  page : HttpxOutcome
  loads : List String
  render : RenderOutcome
  head : String → Nat → String → HttpxOutcome
  get : String → Nat → String → HttpxOutcome
  elapsed : String → Nat
  order : (count : Nat) → Order count

namespace Delivery

/- The answers to the statements of the run. -/
def answers (run : Delivery) : Statement → Option Reply
| .request (.robots _) => some (.http [] run.robots)
| .request (.page _) => some (.http run.redirects run.page)
| .request (.head link hop url) =>
    some (.http [] (run.head link hop url))
| .request (.get link hop url) =>
    some (.http [] (run.get link hop url))
| .render _ => some (.render run.loads run.render)
| .elapsed link => some (.elapsed (run.elapsed link))
| .asCompleted count =>
    some (.order (run.order count).val)
| _ => none

/- Whether `robots.txt` permits the page. -/
def allowed
    (run : Delivery)
    (platform : Platform)
    (job : CrawlJob) : Except Exc Bool := do
  let _ ← fromPython (platform.urlparse job.url)
  match received run.robots with
  | .ok response =>
      if 400 ≤ response.statusCode.val then
        pure true
      else
        fromPython
          (platform.canFetch response.text job.url)
  | .error (.request _ _) => pure true
  | .error e => .error e

/- The HTML of the page. -/
def html
    (run : Delivery)
    (platform : Platform)
    (job : CrawlJob) : Except Exc String :=
  if job.renderJs then
    rendered run.render
  else do
    let response ← received run.page
    raiseForStatus platform job.url response
    pure response.text

/- The answer of the server of a link after some redirects. -/
def answer
    (run : Delivery)
    (link : String)
    (hop : Nat)
    (url : String) : Except Exc HttpxResponse := do
  let response ← received (run.head link hop url)
  if response.statusCode.val = 405 then
    received (run.get link hop url)
  else
    pure response

/- The redirects of a link lead to the URL. -/
inductive Visits
    (run : Delivery)
    (platform : Platform)
    (link : String) : Nat → String → Prop
  | start : Visits run platform link 0 link
  | follow
      {hop : Nat}
      {url location next : String}
      {r : HttpxResponse}
      (hBefore : Visits run platform link hop url)
      (hAnswer : run.answer link hop url = .ok r)
      (hRedirect : r.redirect = some location)
      (hNext : platform.urljoin url location = .ok next) :
      Visits run platform link (hop + 1) next

end Delivery

variable {platform : Platform} {run : Delivery}
variable {job : JobId} {d : Db} {s : Store Db Empty}

/- The redirects lead to one URL at a time. -/
theorem visits_unique
    {link url url' : String}
    {hop : Nat}
    (hLeft : run.Visits platform link hop url)
    (hRight : run.Visits platform link hop url') :
    url = url' := by
  induction hLeft generalizing url' with
  | start =>
      cases hRight
      rfl
  | follow hBefore hAnswer hRedirect hNext ih =>
      cases hRight with
      | follow hBefore' hAnswer' hRedirect' hNext' =>
          have hSame := ih hBefore'
          subst hSame
          rw [hAnswer] at hAnswer'
          cases hAnswer'
          rw [hRedirect] at hRedirect'
          cases hRedirect'
          rw [hNext] at hNext'
          cases hNext'
          rfl

------------------------------------------------------------
-- Journeys That Fit
------------------------------------------------------------

/- An `HTTPError` with a message that can be stored. -/
def Reported (e : Exc) : Prop :=
  ∃ kind m, e = .request kind m ∧
    noNul (truncate 500 m) = true

/-
  The server answers the check, or fails with an `HTTPError`;
  where it redirects to can be resolved, and where the check
  ends after redirects fits its column.
-/
def HopFits
    (platform : Platform)
    (run : Delivery)
    (link : String)
    (hop : Nat)
    (url : String) : Prop :=
  match run.answer link hop url with
  | .error e => Reported e
  | .ok r =>
      match r.redirect with
      | none => hop ≠ 0 → fitsChar 2048 url = true
      | some location =>
          ∃ next, platform.urljoin url location = .ok next ∧
            (hop = maxRedirects →
              fitsChar 2048 next = true)

/- All the servers that the check comes to let it end. -/
def JourneyFits
    (platform : Platform)
    (run : Delivery)
    (link : String) : Prop :=
  ∀ hop url, hop ≤ maxRedirects →
    run.Visits platform link hop url →
      HopFits platform run link hop url

------------------------------------------------------------
-- Statements
------------------------------------------------------------

/- The data but for the URLs that were requested. -/
def Settled
    (d : Db)
    (s : Store Db Empty) : Prop :=
  ∃ urls, s.Ready 0 (d.request urls) []

/- The machine of the undisturbed run. -/
abbrev Delivery.machine
    (run : Delivery)
    (o : TxOp Statement)
    (s : Store Db Empty) :
    Option
      (Except Exc (TxOp.Res Statement.Answer o) ×
        Store Db Empty) :=
  backend.alone 0 run.answers o s

theorem request_request
    (d : Db)
    (urls more : List String) :
    (d.request urls).request more =
      d.request (urls ++ more) := by
  simp [Db.request]

/- No statement reads the requests. -/
theorem plan_request
    (q : Statement)
    (d : Db)
    (urls : List String) :
    plan q (d.request urls) = plan q d := by
  cases q <;> rfl

/- No statement changes the requests. -/
theorem request_of_done
    {q : Statement}
    {a : q.Answer}
    {lock : Option Empty}
    {f : Db → Db}
    (hPlan : plan q d = .done a lock f)
    (d' : Db)
    (urls : List String) :
    f (d'.request urls) = (f d').request urls := by
  cases q with
  | getJob job =>
      simp only [plan] at hPlan
      split at hPlan
      · cases hPlan
        rfl
      · cases hPlan
  | saveJobFields object fields =>
      simp only [plan] at hPlan
      split at hPlan
      · cases hPlan
      · rw [(Verdict.writeIf_eq_done hPlan).2]
        rfl
  | saveJob object =>
      rw [(Verdict.writeIf_eq_done hPlan).2]
      rfl
  | setChecked job checked =>
      rw [(Verdict.writeIf_eq_done hPlan).2]
      rfl
  | bulkCreate job rows =>
      rw [(Verdict.writeIf_eq_done hPlan).2]
      rfl
  | request r => cases hPlan
  | render job => cases hPlan
  | elapsed link => cases hPlan
  | asCompleted count => cases hPlan

section Rules

variable {q : Statement}
variable {Q : q.Answer → Store Db Empty → Prop}
variable {E : Exc → Store Db Empty → Prop}

/- A statement that the database carries out. -/
theorem ends_statement
    {a : q.Answer}
    {f : Db → Db}
    (hSettled : Settled d s)
    (hInside : run.answers q = none)
    (hPlan : plan q d = .done a none f)
    (hDone : ∀ s', Settled (f d) s' → Q a s') :
    (query q).Ends run.machine Q E s := by
  rcases hSettled with ⟨urls, hReady⟩
  have hSeen : plan q (d.request urls) = .done a none f := by
    rw [plan_request, hPlan]
  apply Backend.ends_done hReady hInside hSeen
  intro s' hReady'
  apply hDone
  refine ⟨urls, ?_⟩
  rw [← request_of_done hPlan]
  exact hReady'

/- A statement that raises. -/
theorem ends_raising
    (hSettled : Settled d s)
    (hInside : run.answers q = none)
    (hPlan : (plan q d).Raises)
    (hRaise : ∀ e s', Settled d s' → E e s') :
    (query q).Ends run.machine Q E s := by
  rcases hSettled with ⟨urls, hReady⟩
  apply Backend.ends_raises hReady hInside
  · rw [List.foldr_nil]
    change (plan q (d.request urls)).Raises
    rw [plan_request]
    exact hPlan
  · intro e s' hAt
    exact hRaise e s' ⟨urls, hAt.ready⟩

/- An answer from outside, with the URLs it requests. -/
theorem ends_answered
    {x : Reply}
    {a : q.Answer}
    {urls : List String}
    (hSettled : Settled d s)
    (hOutside : run.answers q = some x)
    (hReply :
      ∀ d, reply q x d = some (a, d.request urls))
    (hDone : ∀ s', Settled d s' → Q a s') :
    (query q).Ends run.machine Q E s := by
  rcases hSettled with ⟨before, hReady⟩
  apply Backend.ends_reply hReady hOutside (hReply _)
  intro s' hReady'
  apply hDone
  refine ⟨before ++ urls, ?_⟩
  rw [← request_request]
  exact hReady'

end Rules

/- A request with the answer that it gets. -/
theorem ends_send
    {r : Request}
    {redirects : List String}
    {outcome : HttpxOutcome}
    (hSettled : Settled d s)
    (hAnswer :
      run.answers (.request r) =
        some (.http redirects outcome))
    (hFollows : redirects = [] ∨ r.follows = true) :
    (send r).Ends run.machine
      (fun response s' =>
        received outcome = .ok response ∧ Settled d s')
      (fun e s' =>
        received outcome = .error e ∧ Settled d s') s := by
  unfold send
  apply Prog.ends_bind
  apply ends_answered hSettled hAnswer
  · intro d'
    simp only [reply, hFollows, if_true]
    rfl
  · intro s' hSettled'
    cases hReceived : received outcome with
    | ok response => exact ⟨rfl, hSettled'⟩
    | error e => exact ⟨rfl, hSettled'⟩

------------------------------------------------------------
-- The Check of a Link
------------------------------------------------------------

section Journeys

variable {link : String} {hop : Nat}

/- The server's answer after some redirects. -/
theorem ends_probe
    (url : String)
    (hSettled : Settled d s) :
    (probe link hop url).Ends run.machine
      (fun r s' =>
        run.answer link hop url = .ok r ∧ Settled d s')
      (fun e s' =>
        run.answer link hop url = .error e ∧ Settled d s')
      s := by
  unfold probe
  apply Prog.ends_bind
  apply Prog.ends_mono (ends_send hSettled rfl (Or.inl rfl))
  · rintro response s₁ ⟨hHead, hSettled₁⟩
    have hAnswer :
        run.answer link hop url =
          if response.statusCode.val = 405 then
            received (run.get link hop url)
          else
            pure response := by
      simp [Delivery.answer, hHead, bind, Except.bind]
    rw [hAnswer]
    split
    · exact ends_send hSettled₁ rfl (Or.inl rfl)
    · exact ⟨rfl, hSettled₁⟩
  · rintro e s₁ ⟨hHead, hSettled₁⟩
    refine ⟨?_, hSettled₁⟩
    simp [Delivery.answer, hHead, bind, Except.bind]

/- The servers met before the round let the check go on. -/
def EarlierFit
    (platform : Platform)
    (run : Delivery)
    (link : String)
    (hop : Nat) : Prop :=
  ∀ h url, h < hop → run.Visits platform link h url →
    HopFits platform run link h url

/- The status and the URL of a position fit their columns. -/
structure PositionFits (at' : Position) : Prop where
  status :
    ∀ code, at'.status = some code → fitsInteger code = true
  url :
    at'.redirected = true → fitsChar 2048 at'.current = true

theorem fitsInteger_statusCode
    (r : HttpxResponse) :
    fitsInteger r.statusCode.val = true := by
  have hThree := r.statusCode.isLt
  simp only [fitsInteger, decide_eq_true_eq]
  omega

/- The position after some redirects. -/
structure Arrived
    (platform : Platform)
    (run : Delivery)
    (link : String)
    (hop : Nat)
    (at' : Position) : Prop where
  visits : run.Visits platform link hop at'.current
  redirected : at'.redirected = true ↔ hop ≠ 0
  earlier : EarlierFit platform run link hop

/-
  The journey ends at a server: with its last round, or with
  an answer that leads nowhere.
-/
theorem journeyFits_of_end
    {url : String}
    (hHop : hop ≤ maxRedirects)
    (hVisits : run.Visits platform link hop url)
    (hEarlier : EarlierFit platform run link hop)
    (hEnd :
      hop = maxRedirects ∨
        ∀ next, ¬ run.Visits platform link (hop + 1) next) :
    JourneyFits platform run link ↔
      HopFits platform run link hop url := by
  have hNoLater :
      ∀ h u, run.Visits platform link h u →
        h ≤ maxRedirects → h ≤ hop := by
    intro h u hVisits'
    induction hVisits' with
    | start => exact fun _ => Nat.zero_le _
    | @follow h u location next r hBefore hAnswer hRedirect
        hNext ih =>
        intro hBound
        have hAfter := hBefore.follow hAnswer hRedirect hNext
        rcases hEnd with hLast | hNone
        · omega
        · rcases Nat.lt_or_eq_of_le (ih (by omega)) with
            hLess | hSame
          · exact hLess
          · subst hSame
            exact absurd hAfter (hNone next)
  constructor
  · intro hFits
    exact hFits hop url hHop hVisits
  · intro hFits h u hBound hVisits'
    rcases
      Nat.lt_or_eq_of_le (hNoLater h u hVisits' hBound) with
      hLess | hSame
    · exact hEarlier h u hLess hVisits'
    · subst hSame
      have hUrl := visits_unique hVisits' hVisits
      subst hUrl
      exact hFits

/- The next server, if the answer leads to one. -/
theorem next_of_visits
    {url next : String}
    (hVisits : run.Visits platform link hop url)
    (hNext : run.Visits platform link (hop + 1) next) :
    ∃ r location, run.answer link hop url = .ok r ∧
      r.redirect = some location ∧
        platform.urljoin url location = .ok next := by
  cases hNext with
  | follow hBefore hAnswer hRedirect hJoin =>
      have hUrl := visits_unique hBefore hVisits
      subst hUrl
      exact ⟨_, _, hAnswer, hRedirect, hJoin⟩

/- The loop returns a position that fits if the journey does. -/
abbrev Ended
    (platform : Platform)
    (run : Delivery)
    (link : String)
    (d : Db)
    (at' : Position)
    (s : Store Db Empty) : Prop :=
  (PositionFits at' ↔ JourneyFits platform run link) ∧
    Settled d s

/- It raises what is reported if the journey fits. -/
abbrev Escaped
    (platform : Platform)
    (run : Delivery)
    (link : String)
    (d : Db)
    (e : Exc)
    (s : Store Db Empty) : Prop :=
  (Reported e ↔ JourneyFits platform run link) ∧ Settled d s

/- One round of the loop, with the rounds after it. -/
theorem ends_round
    {rounds : Nat}
    {at' : Position}
    (hHop : hop ≤ maxRedirects)
    (hArrived : Arrived platform run link hop at')
    (hSettled : Settled d s)
    (hFollow :
      ∀ r location next s',
        run.answer link hop at'.current = .ok r →
          r.redirect = some location →
            platform.urljoin at'.current location =
                .ok next →
              Settled d s' →
                (followRedirects platform link rounds
                    (hop + 1)
                    { current := next
                      status := some r.statusCode.val
                      redirected := true }).Ends
                  run.machine (Ended platform run link d)
                  (Escaped platform run link d) s') :
    (followRedirects platform link (rounds + 1) hop
        at').Ends
      run.machine (Ended platform run link d)
      (Escaped platform run link d) s := by
  have hOver :
      (∀ next,
        ¬ run.Visits platform link (hop + 1) next) →
        (JourneyFits platform run link ↔
          HopFits platform run link hop at'.current) :=
    fun hNone =>
      journeyFits_of_end hHop hArrived.visits
        hArrived.earlier (Or.inr hNone)
  unfold followRedirects
  apply Prog.ends_bind
  apply Prog.ends_mono (ends_probe at'.current hSettled)
  · rintro r s₁ ⟨hAnswer, hSettled₁⟩
    cases hRedirect : r.redirect with
    | none =>
        have hJourney := hOver (by
          intro next hNext
          rcases next_of_visits hArrived.visits hNext with
            ⟨r', location, hAnswer', hRedirect', _⟩
          rw [hAnswer] at hAnswer'
          cases hAnswer'
          rw [hRedirect] at hRedirect'
          cases hRedirect')
        refine ⟨?_, hSettled₁⟩
        rw [hJourney]
        simp only [HopFits, hAnswer, hRedirect]
        constructor
        · intro hFits hLater
          exact hFits.url (hArrived.redirected.mpr hLater)
        · intro hUrl
          constructor
          · intro code hCode
            cases hCode
            exact fitsInteger_statusCode r
          · intro hRedirected
            exact hUrl (hArrived.redirected.mp hRedirected)
    | some location =>
        apply Prog.ends_bind
        cases hJoin :
            platform.urljoin at'.current location with
        | error e =>
            have hJourney := hOver (by
              intro next hNext
              rcases next_of_visits hArrived.visits hNext
                with
                ⟨r', location', hAnswer', hRedirect',
                  hJoin'⟩
              rw [hAnswer] at hAnswer'
              cases hAnswer'
              rw [hRedirect] at hRedirect'
              cases hRedirect'
              rw [hJoin] at hJoin'
              cases hJoin')
            refine ⟨?_, hSettled₁⟩
            rw [hJourney]
            simp only [HopFits, hAnswer, hRedirect, hJoin]
            constructor
            · rintro ⟨kind, m, hSame, _⟩
              cases hSame
            · rintro ⟨next, hSame, _⟩
              cases hSame
        | ok next =>
            exact
              hFollow r location next s₁ hAnswer hRedirect
                hJoin hSettled₁
  · rintro e s₁ ⟨hAnswer, hSettled₁⟩
    have hJourney := hOver (by
      intro next hNext
      rcases next_of_visits hArrived.visits hNext with
        ⟨r, location, hAnswer', _⟩
      rw [hAnswer] at hAnswer'
      cases hAnswer')
    refine ⟨?_, hSettled₁⟩
    rw [hJourney]
    simp only [HopFits, hAnswer]

/- The loop over the redirects. -/
theorem ends_followRedirects
    {rounds : Nat}
    {at' : Position}
    (hRounds : hop + rounds = maxRedirects)
    (hArrived : Arrived platform run link hop at')
    (hSettled : Settled d s) :
    (followRedirects platform link (rounds + 1) hop
        at').Ends
      run.machine (Ended platform run link d)
      (Escaped platform run link d) s := by
  induction rounds generalizing hop at' s with
  | zero =>
      apply ends_round (by omega) hArrived hSettled
      intro r location next s' hAnswer hRedirect hJoin
        hSettled'
      have hJourney :=
        journeyFits_of_end (by omega) hArrived.visits
          hArrived.earlier (Or.inl hRounds)
      refine ⟨?_, hSettled'⟩
      rw [hJourney]
      simp only [HopFits, hAnswer, hRedirect, hJoin]
      constructor
      · intro hFits
        exact ⟨next, rfl, fun _ => hFits.url rfl⟩
      · rintro ⟨next', hSame, hUrl⟩
        cases hSame
        constructor
        · intro code hCode
          cases hCode
          exact fitsInteger_statusCode r
        · intro _
          exact hUrl hRounds
  | succ rounds ih =>
      apply ends_round (by omega) hArrived hSettled
      intro r location next s' hAnswer hRedirect hJoin
        hSettled'
      apply ih (by omega) _ hSettled'
      constructor
      · exact hArrived.visits.follow hAnswer hRedirect hJoin
      · exact ⟨fun _ => Nat.succ_ne_zero _, fun _ => rfl⟩
      · intro h u hLess hVisits
        rcases Nat.lt_or_eq_of_le (Nat.le_of_lt_succ hLess)
          with hEarlier | hSame
        · exact hArrived.earlier h u hEarlier hVisits
        · subst hSame
          have hUrl := visits_unique hVisits hArrived.visits
          subst hUrl
          simp only [HopFits, hAnswer, hRedirect, hJoin]
          refine ⟨next, rfl, ?_⟩
          intro hLast
          omega

/- What the check finds out fits its columns. -/
structure OutcomeFits (outcome : LinkOutcome) : Prop where
  status : optionalIntegerColumn outcome.httpStatus = .ok ()
  elapsed : fitsInteger outcome.responseTimeMs = true
  url : fitsChar 2048 outcome.redirectUrl = true
  detail : fitsChar 500 outcome.errorDetail = true

theorem fitsChar_truncate
    (count : Nat)
    (text : String) :
    fitsChar count (truncate count text) = true ↔
      noNul (truncate count text) = true := by
  have hLength : (truncate count text).length ≤ count := by
    simp [truncate]
  simp [fitsChar, hLength]

theorem outcomeFits_reached
    (at' : Position)
    (elapsed : Nat) :
    OutcomeFits (reachedOutcome at' elapsed) ↔
      (∀ code, at'.status = some code →
        fitsInteger code = true) ∧
        (at'.redirected = true →
          fitsChar 2048 at'.current = true) ∧
          fitsInteger elapsed = true := by
  have hEmpty : fitsChar 2048 "" = true := by decide
  have hDetail : fitsChar 500 "" = true := by decide
  have hStatus :
      optionalIntegerColumn at'.status = .ok () ↔
        ∀ code, at'.status = some code →
          fitsInteger code = true := by
    cases at'.status <;> simp [optionalIntegerColumn]
  have hUrl :
      fitsChar 2048
          (if at'.redirected then at'.current else "") =
          true ↔
        (at'.redirected = true →
          fitsChar 2048 at'.current = true) := by
    cases at'.redirected <;> simp [hEmpty]
  rw [← hStatus, ← hUrl]
  constructor
  · intro hFits
    exact ⟨hFits.status, hFits.url, hFits.elapsed⟩
  · rintro ⟨hCode, hCurrent, hTime⟩
    exact ⟨hCode, hTime, hCurrent, hDetail⟩

theorem outcomeFits_failed
    {default : String}
    (category : StatusCategory)
    (m : String)
    (elapsed : Nat)
    (hDefault : noNul (truncate 500 default) = true) :
    OutcomeFits
        (failedOutcome category m default elapsed) ↔
      noNul (truncate 500 m) = true ∧
        fitsInteger elapsed = true := by
  have hUrl : fitsChar 2048 "" = true := by decide
  have hDetail :
      fitsChar 500
          (truncate 500
            (if m = "" then default else m)) = true ↔
        noNul (truncate 500 m) = true := by
    rw [fitsChar_truncate]
    by_cases hEmpty : m = ""
    · subst hEmpty
      rw [if_pos rfl, hDefault]
      decide
    · rw [if_neg hEmpty]
  rw [← hDetail]
  constructor
  · intro hFits
    exact ⟨hFits.detail, hFits.elapsed⟩
  · rintro ⟨hText, hTime⟩
    exact ⟨rfl, hTime, hUrl, hText⟩

/- The check returns what fits if the journey and clock do. -/
abbrev Checked
    (platform : Platform)
    (run : Delivery)
    (link : String)
    (d : Db)
    (outcome : LinkOutcome)
    (s : Store Db Empty) : Prop :=
  (OutcomeFits outcome ↔
    JourneyFits platform run link ∧
      fitsInteger (run.elapsed link) = true) ∧ Settled d s

/- It raises only if the journey does not fit. -/
abbrev Unchecked
    (platform : Platform)
    (run : Delivery)
    (link : String)
    (d : Db)
    (_ : Exc)
    (s : Store Db Empty) : Prop :=
  ¬ JourneyFits platform run link ∧ Settled d s

/- A failure with its message. -/
theorem ends_failedOutcome
    {kind : RequestKind}
    {m default : String}
    (category : StatusCategory)
    (hDefault : noNul (truncate 500 default) = true)
    (hEscaped :
      Escaped platform run link d (.request kind m) s) :
    ((query (.elapsed link)).bind
      (fun elapsed =>
        .ret
          (failedOutcome category m default elapsed))).Ends
      run.machine (Checked platform run link d)
      (Unchecked platform run link d) s := by
  have hReported :
      Reported (.request kind m) ↔
        noNul (truncate 500 m) = true := by
    constructor
    · rintro ⟨kind', m', hSame, hText⟩
      cases hSame
      exact hText
    · intro hText
      exact ⟨kind, m, rfl, hText⟩
  apply Prog.ends_bind
  apply ends_answered hEscaped.2 rfl
  · intro d'
    exact
      congrArg some
        (congrArg (Prod.mk (run.elapsed link))
          (request_nil d').symm)
  · intro s' hSettled'
    refine ⟨?_, hSettled'⟩
    rw [outcomeFits_failed category m _ hDefault,
      ← hReported, hEscaped.1]

/- The `except` clauses. -/
theorem ends_linkFailure
    {e : Exc}
    (hEscaped : Escaped platform run link d e s) :
    (linkFailure link e).Ends run.machine
      (Checked platform run link d)
      (Unchecked platform run link d) s := by
  have hOther :
      (∀ kind m, e ≠ .request kind m) →
        Unchecked platform run link d e s := by
    intro hNone
    refine ⟨?_, hEscaped.2⟩
    rw [← hEscaped.1]
    rintro ⟨kind, m, hSame, _⟩
    exact hNone kind m hSame
  cases e with
  | request kind m =>
      cases kind with
      | timeout =>
          exact ends_failedOutcome .timeout (by decide) hEscaped
      | connectionError =>
          exact ends_failedOutcome .error (by decide) hEscaped
      | other =>
          exact ends_failedOutcome .error (by decide) hEscaped
  | application e => exact hOther (by simp)
  | python e => exact hOther (by simp)
  | doesNotExist model => exact hOther (by simp)
  | database kind m => exact hOther (by simp)
  | other m => exact hOther (by simp)

/- The check of a link. -/
theorem ends_checkSingleLink
    (hSettled : Settled d s) :
    (checkSingleLink platform link).Ends run.machine
      (Checked platform run link d)
      (Unchecked platform run link d) s := by
  have hArrived :
      Arrived platform run link 0
        { current := link
          status := none
          redirected := false } := by
    constructor
    · exact .start
    · simp
    · intro h u hLess
      exact absurd hLess (Nat.not_lt_zero h)
  unfold checkSingleLink
  apply Prog.ends_handle
  apply Prog.ends_bind
  apply
    Prog.ends_mono
      (ends_followRedirects (Nat.zero_add _) hArrived
        hSettled)
  · rintro at' s₁ ⟨hJourney, hSettled₁⟩
    apply Prog.ends_bind
    apply ends_answered hSettled₁ rfl
    · intro d'
      exact
        congrArg some
          (congrArg (Prod.mk (run.elapsed link))
            (request_nil d').symm)
    · intro s' hSettled'
      refine ⟨?_, hSettled'⟩
      rw [outcomeFits_reached, ← hJourney]
      constructor
      · rintro ⟨hStatus, hUrl, hElapsed⟩
        exact ⟨⟨hStatus, hUrl⟩, hElapsed⟩
      · rintro ⟨hFits, hElapsed⟩
        exact ⟨hFits.status, hFits.url, hElapsed⟩
  · intro e s₁ hEscaped
    exact ends_linkFailure hEscaped

end Journeys

end SiteAnalysis.Linkchecker
