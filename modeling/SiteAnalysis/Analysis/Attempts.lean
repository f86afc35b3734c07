import Mathlib.Algebra.Order.Field.Rat
import Mathlib.Data.Nat.Cast.Order.Ring
import SiteAnalysis.Analysis.PageSpeed

/-
  This file proves what the PageSpeed client makes of a
  sequence of outcomes: how many requests it sends, how long
  it sleeps between them, and which outcome decides.

  Key definitions include:
    * `Journal`
    * `serve`
    * `Settles`
    * `Digestible`
    * `BuiltFrom`

  Key theorems include:
    * `run_attemptPagespeed`
    * `run_fetchPagespeed`
    * `fetchPagespeed_rounds`
-/

------------------------------------------------------------
-- Scripted Servers
------------------------------------------------------------

namespace SiteAnalysis.Analysis

open Concurrency
open Relational
open Python
open Reports

/- The requests that were sent and the times slept. -/
structure Journal where
  requests : List (String × List (String × String) × Nat)
  sleeps : List Rat

def Journal.start : Journal where
  requests := []
  sleeps := []

/-
  Request number `n` comes back with outcome number `n`, and
  `time.sleep` raises on negative times only.
-/
def serve
    (outcomes : Nat → HttpOutcome) :
    (o : TxOp Statement) → Journal →
      Option (Except Exc (TxOp.Res Statement.Answer o) ×
        Journal)
| .query (.httpGet url params timeout), j =>
    some
      (.ok (outcomes (j.requests.length + 1)),
        { j with
          requests := j.requests ++ [(url, params, timeout)] })
| .query (.sleep seconds), j =>
    if seconds < 0 then
      some
        (.error
          (.python
            (.valueError "sleep length must be non-negative")),
          j)
    else
      some (.ok (), { j with sleeps := j.sleeps ++ [seconds] })
| _, _ => none

------------------------------------------------------------
-- Outcomes
------------------------------------------------------------

/- What the client makes of the outcome that decides. -/
def verdict
    (repr : Json → String)
    (outcome : HttpOutcome) : Except Exc Json :=
  match readPagespeed repr outcome with
  | .error e => .error e
  | .ok (.inl value) => .ok value
  | .ok (.inr failed) => .error failed.error

/- The client does not ask again after the outcome. -/
def Stops
    (repr : Json → String)
    (outcome : HttpOutcome) : Prop :=
  ∀ failed, readPagespeed repr outcome = .ok (.inr failed) →
    failed.retryable = false

/-
  Round `n` decides: it is the first of the rounds from
  `first` on that is the last one or stops the client.
-/
structure Decides
    (stops : Nat → Prop)
    (first last n : Nat) : Prop where
  started : first ≤ n
  within : n ≤ last
  before : ∀ m, first ≤ m → m < n → ¬ stops m
  decided : n = last ∨ stops n

/- What the loop has added to the journal after round `n`. -/
def Journal.after
    (j : Journal)
    (request : String × List (String × String) × Nat)
    (backoff : Rat)
    (attempt n : Nat) : Journal where
  requests :=
    j.requests ++ List.replicate (n + 1 - attempt) request
  sleeps :=
    j.sleeps ++
      (List.range' attempt (n - attempt)).map
        (fun k : Nat => backoff * (k : Rat))

------------------------------------------------------------
-- Rounds
------------------------------------------------------------

section Rounds

variable {settings : PagespeedSettings}
variable {repr : Json → String}
variable {params : List (String × String)}
variable {outcomes : Nat → HttpOutcome}
variable {j : Journal}

/- The request that every round sends. -/
abbrev request
    (settings : PagespeedSettings)
    (params : List (String × String)) :
    String × List (String × String) × Nat :=
  (pagespeedEndpoint, params, settings.requestTimeout)

/- The journal after one more request. -/
abbrev asked
    (settings : PagespeedSettings)
    (params : List (String × String))
    (j : Journal) : Journal :=
  { j with
    requests := j.requests ++ [request settings params] }

/- What follows a request, by what the client makes of it. -/
def afterRound
    (settings : PagespeedSettings)
    (repr : Json → String)
    (params : List (String × String))
    (attempt left : Nat) :
    Except Exc (Json ⊕ Attempt) → Service Json
| .error e => raiseError e
| .ok (.inl value) => pure value
| .ok (.inr failed) =>
    if failed.retryable = false ∨ left = 0 then
      raiseError failed.error
    else do
      query (.sleep (settings.retryBackoff * attempt))
      attemptPagespeed settings repr params (attempt + 1) left

theorem run_round
    {attempt left : Nat}
    (hNext : j.requests.length + 1 = attempt) :
    (attemptPagespeed settings repr params attempt
        (left + 1)).run (serve outcomes) j =
      (afterRound settings repr params attempt left
        (readPagespeed repr (outcomes attempt))).run
          (serve outcomes) (asked settings params j) := by
  subst hNext
  rw [attemptPagespeed]
  change
    ((Prog.ofExcept
        (readPagespeed repr
          (outcomes (j.requests.length + 1)))).bind _).run
        (serve outcomes) (asked settings params j) = _
  cases readPagespeed repr
      (outcomes (j.requests.length + 1)) with
  | error e => rfl
  | ok round =>
      cases round with
      | inl value => rfl
      | inr failed => rfl

/- One round that ends the loop. -/
theorem run_last_round
    {attempt left : Nat}
    (hNext : j.requests.length + 1 = attempt)
    (hLast : left = 0 ∨ Stops repr (outcomes attempt)) :
    (attemptPagespeed settings repr params attempt
        (left + 1)).run (serve outcomes) j =
      some
        (verdict repr (outcomes attempt),
          asked settings params j) := by
  rw [run_round hNext, verdict]
  unfold Stops at hLast
  cases hRead : readPagespeed repr (outcomes attempt) with
  | error e => rfl
  | ok round =>
      cases round with
      | inl value => rfl
      | inr failed =>
          have hEnd : failed.retryable = false ∨ left = 0 :=
            hLast.symm.imp_left fun hStops =>
              hStops failed hRead
          rw [afterRound, if_pos hEnd]
          rfl

/- One round after which the client asks again. -/
theorem run_next_round
    {attempt left : Nat}
    (hBackoff : 0 ≤ settings.retryBackoff)
    (hNext : j.requests.length + 1 = attempt)
    (hMore : ¬ Stops repr (outcomes attempt)) :
    (attemptPagespeed settings repr params attempt
        (left + 1 + 1)).run (serve outcomes) j =
      (attemptPagespeed settings repr params (attempt + 1)
        (left + 1)).run (serve outcomes)
          { requests :=
              j.requests ++ [request settings params]
            sleeps :=
              j.sleeps ++
                [settings.retryBackoff * (attempt : Rat)] } := by
  simp only [Stops, not_forall, Bool.not_eq_false] at hMore
  rcases hMore with ⟨failed, hRead, hRetryable⟩
  rw [run_round hNext, hRead, afterRound, if_neg]
  · have hTime :
        ¬ settings.retryBackoff * (attempt : Rat) < 0 :=
      not_lt.mpr
        (mul_nonneg hBackoff (Nat.cast_nonneg attempt))
    have hSleep :
        serve outcomes
            (.query
              (.sleep (settings.retryBackoff * attempt)))
            (asked settings params j) =
          some
            (.ok (),
              { requests :=
                  j.requests ++ [request settings params]
                sleeps :=
                  j.sleeps ++
                    [settings.retryBackoff *
                      (attempt : Rat)] }) :=
      if_neg hTime
    exact Prog.run_call hSleep
  · rintro (hFinal | hNone)
    · rw [hRetryable] at hFinal
      contradiction
    · omega

/- The client cannot sleep a negative time. -/
theorem run_negative_backoff
    {attempt left : Nat}
    (hBackoff : settings.retryBackoff < 0)
    (hNext : j.requests.length + 1 = attempt)
    (hMore : ¬ Stops repr (outcomes attempt)) :
    (attemptPagespeed settings repr params attempt
        (left + 1 + 1)).run (serve outcomes) j =
      some
        (.error
          (.python
            (.valueError "sleep length must be non-negative")),
          asked settings params j) := by
  simp only [Stops, not_forall, Bool.not_eq_false] at hMore
  rcases hMore with ⟨failed, hRead, hRetryable⟩
  rw [run_round hNext, hRead, afterRound, if_neg]
  · have hPositive : (0 : Rat) < (attempt : Rat) := by
      exact_mod_cast (show 0 < attempt by omega)
    have hSleep :
        serve outcomes
            (.query
              (.sleep (settings.retryBackoff * attempt)))
            (asked settings params j) =
          some
            (.error
              (.python
                (.valueError
                  "sleep length must be non-negative")),
              asked settings params j) :=
      if_pos (mul_neg_of_neg_of_pos hBackoff hPositive)
    exact Prog.run_call hSleep
  · rintro (hFinal | hNone)
    · rw [hRetryable] at hFinal
      contradiction
    · omega

/- The journal of the rounds after the first one. -/
theorem after_next
    (request : String × List (String × String) × Nat)
    (backoff : Rat)
    {attempt n : Nat}
    (hLater : attempt + 1 ≤ n) :
    Journal.after
        { requests := j.requests ++ [request]
          sleeps := j.sleeps ++ [backoff * (attempt : Rat)] }
        request backoff (attempt + 1) n =
      j.after request backoff attempt n := by
  have hRequests :
      n + 1 - attempt = (n + 1 - (attempt + 1)) + 1 := by
    omega
  have hSleeps :
      n - attempt = (n - (attempt + 1)) + 1 := by
    omega
  unfold Journal.after
  rw [hRequests, hSleeps, List.replicate_succ,
    List.range'_succ, List.map_cons, List.append_assoc,
    List.append_assoc]
  rfl

theorem after_self
    (request : String × List (String × String) × Nat)
    (backoff : Rat)
    (attempt : Nat) :
    j.after request backoff attempt attempt =
      { j with requests := j.requests ++ [request] } := by
  have hOne : attempt + 1 - attempt = 1 := by omega
  simp [Journal.after, hOne]

/-
  The loop ends with the round that decides, and with what
  the client makes of its outcome.
-/
theorem run_attemptPagespeed
    (hBackoff : 0 ≤ settings.retryBackoff)
    {attempt : Nat}
    (left : Nat)
    (hNext : j.requests.length + 1 = attempt) :
    ∃ n,
      Decides (fun m => Stops repr (outcomes m)) attempt
          (attempt + left) n ∧
        (attemptPagespeed settings repr params attempt
            (left + 1)).run (serve outcomes) j =
          some
            (verdict repr (outcomes n),
              j.after (request settings params)
                settings.retryBackoff attempt n) := by
  induction left generalizing attempt j with
  | zero =>
      refine ⟨attempt, ⟨le_refl _, le_refl _, ?_, ?_⟩, ?_⟩
      · intro m hFirst hBefore
        omega
      · exact Or.inl rfl
      · rw [run_last_round hNext (Or.inl rfl), after_self]
  | succ left ih =>
      by_cases hStops : Stops repr (outcomes attempt)
      · refine
          ⟨attempt, ⟨le_refl _, by omega, ?_, ?_⟩, ?_⟩
        · intro m hFirst hBefore
          omega
        · exact Or.inr hStops
        · rw [run_last_round hNext (Or.inr hStops),
            after_self]
      · have hLength :
            (j.requests ++ [request settings params]).length +
                1 =
              attempt + 1 := by
          rw [List.length_append, List.length_singleton]
          omega
        rcases
            ih (j :=
              { requests :=
                  j.requests ++ [request settings params]
                sleeps :=
                  j.sleeps ++
                    [settings.retryBackoff *
                      (attempt : Rat)] }) hLength with
          ⟨n, hDecides, hRun⟩
        have hStarted := hDecides.started
        have hWithin := hDecides.within
        refine ⟨n, ⟨by omega, by omega, ?_, ?_⟩, ?_⟩
        · intro m hFirst hBefore
          rcases Nat.eq_or_lt_of_le hFirst with hSame | hAfter
          · subst hSame
            exact hStops
          · exact hDecides.before m hAfter hBefore
        · rcases hDecides.decided with hLast | hDone
          · exact Or.inl (by omega)
          · exact Or.inr hDone
        · rw [run_next_round hBackoff hNext hStops, hRun,
            after_next _ _ hStarted]

end Rounds

theorem maxAttempts_pos
    (settings : PagespeedSettings) :
    ∃ left, maxAttempts settings = left + 1 := by
  refine ⟨maxAttempts settings - 1, ?_⟩
  unfold maxAttempts
  omega

/- The client with a key, from its first request on. -/
theorem run_fetchPagespeed
    {settings : PagespeedSettings}
    (repr : Json → String)
    (url strategy : String)
    (outcomes : Nat → HttpOutcome)
    (hKey : settings.apiKey ≠ "")
    (hBackoff : 0 ≤ settings.retryBackoff) :
    ∃ n,
      Decides (fun m => Stops repr (outcomes m)) 1
          (maxAttempts settings) n ∧
        (fetchPagespeed settings repr url strategy).run
            (serve outcomes) .start =
          some
            (verdict repr (outcomes n),
              Journal.after .start
                (request settings
                  (pagespeedParams settings url strategy))
                settings.retryBackoff 1 n) := by
  rcases maxAttempts_pos settings with ⟨left, hLeft⟩
  have hLoop :
      ∃ n, Decides (fun m => Stops repr (outcomes m)) 1
          (1 + left) n ∧
        (attemptPagespeed settings repr
            (pagespeedParams settings url strategy) 1
            (left + 1)).run (serve outcomes) .start = _ :=
    run_attemptPagespeed hBackoff left rfl
  rcases hLoop with ⟨n, hDecides, hRun⟩
  refine ⟨n, ?_, ?_⟩
  · rw [hLeft, Nat.add_comm]
    exact hDecides
  · rw [fetchPagespeed, if_neg hKey, hLeft]
    exact hRun

------------------------------------------------------------
-- Error Bodies
------------------------------------------------------------

/-
  The body of an error response: no JSON, or an object whose
  `error` is absent, not true, or an object itself.
-/
def Digestible : Body → Prop
| .json (.obj fields) =>
    ∀ error, Json.field "error" fields = some error →
      error.truthy = true → ∃ inner, error = .obj inner
| .json _ => False
| _ => True

/- Exactly the digestible bodies give a message. -/
theorem apiErrorMessage_isOk_iff
    (body : Body) :
    (∃ message, apiErrorMessage body = .ok message) ↔
      Digestible body := by
  cases body with
  | empty => exact ⟨fun _ => trivial, fun _ => ⟨_, rfl⟩⟩
  | notJson m => exact ⟨fun _ => trivial, fun _ => ⟨_, rfl⟩⟩
  | json value =>
      cases value with
      | obj fields =>
          have hGet :
              Json.get (.obj fields) "error" .null =
                .ok
                  ((Json.field "error" fields).getD .null) :=
            rfl
          simp only [apiErrorMessage, hGet, bind, Except.bind]
          cases hField : Json.field "error" fields with
          | none =>
              constructor
              · intro _ error hSome
                rw [hField] at hSome
                cases hSome
              · intro _
                exact ⟨_, rfl⟩
          | some error =>
              rw [Option.getD_some]
              cases hTruthy : error.truthy with
              | false =>
                  constructor
                  · intro _ other hSome hTrue
                    rw [hField] at hSome
                    cases hSome
                    rw [hTruthy] at hTrue
                    contradiction
                  · intro _
                    rw [Json.or, hTruthy]
                    exact ⟨_, rfl⟩
              | true =>
                  have hOr :
                      error.or (.obj []) = error := by
                    rw [Json.or, if_pos hTruthy]
                  rw [hOr]
                  constructor
                  · rintro ⟨message, hOk⟩ other hSome _
                    rw [hField] at hSome
                    cases hSome
                    cases error with
                    | obj inner => exact ⟨inner, rfl⟩
                    | _ => cases hOk
                  · intro hDigestible
                    rcases
                        hDigestible error hField hTruthy with
                      ⟨inner, rfl⟩
                    exact ⟨_, rfl⟩
      | _ =>
          constructor
          · rintro ⟨message, hOk⟩
            cases hOk
          · intro hNever
            exact hNever.elim

/- An error response of the sequence can be read. -/
def Readable (outcome : HttpOutcome) : Prop :=
  ∀ r, outcome = .response r → r.raisesForStatus = true →
    Digestible r.body

/- A response that is decoded. -/
def Succeeds : HttpOutcome → Prop
| .response r =>
    r.raisesForStatus = false ∧
      ∃ value, r.body = .json value
| .failure _ _ => False

/- An HTTP error that is not worth another request. -/
def Refused : HttpOutcome → Prop
| .response r =>
    r.raisesForStatus = true ∧
      r.statusCode ∉ retryableStatus
| .failure _ _ => False

/- A success or an HTTP error that is not retried. -/
def Settles (outcome : HttpOutcome) : Prop :=
  Succeeds outcome ∨ Refused outcome

/- The text of the error about an HTTP status. -/
def httpErrorText
    (repr : Json → String)
    (statusCode : Nat)
    (message : Json) : String :=
  "PageSpeed Insights returned HTTP " ++
    toString statusCode ++
      (if message.truthy then
        ": " ++ message.toStr repr
      else
        ".")

/-
  The value of the outcome, or the `PageSpeedAPIError` that
  is built from it.
-/
def BuiltFrom
    (repr : Json → String) :
    HttpOutcome → Except Exc Json → Prop
| .failure _ message, result =>
    result =
      .error
        (ErrorKind.pageSpeedAPI.error ""
          [("error", .str message)])
| .response ⟨statusCode, body⟩, result =>
    if Response.raisesForStatus ⟨statusCode, body⟩ then
      ∃ message, apiErrorMessage body = .ok message ∧
        result =
          .error
            (ErrorKind.pageSpeedAPI.error
              (httpErrorText repr statusCode message)
              [("status_code", .int statusCode),
                ("api_message", message)])
    else
      match body with
      | .json value => result = .ok value
      | .notJson message =>
          result =
            .error
              (ErrorKind.pageSpeedAPI.error ""
                [("error", .str message)])
      | .empty =>
          result =
            .error
              (ErrorKind.pageSpeedAPI.error ""
                [("error",
                  .str
                    "Expecting value: line 1 column 1 (char 0)")])

/- What the client makes of an error response. -/
theorem readPagespeed_raising
    {repr : Json → String}
    {r : Response}
    {message : Json}
    (hRaises : r.raisesForStatus = true)
    (hMessage : apiErrorMessage r.body = .ok message) :
    readPagespeed repr (.response r) =
      .ok
        (.inr
          { error :=
              ErrorKind.pageSpeedAPI.error
                (httpErrorText repr r.statusCode message)
                [("status_code", .int r.statusCode),
                  ("api_message", message)]
            retryable :=
              decide (r.statusCode ∈ retryableStatus) }) := by
  simp only [readPagespeed, hRaises, if_true, readHttpError,
    hMessage, fromPython]
  rfl

/- A readable outcome stops the client when it settles. -/
theorem stops_iff_settles
    (repr : Json → String)
    {outcome : HttpOutcome}
    (hReadable : Readable outcome) :
    Stops repr outcome ↔ Settles outcome := by
  cases outcome with
  | failure kind message =>
      constructor
      · intro hStops
        have hFinal := hStops (transientError message) rfl
        contradiction
      · rintro (hNever | hNever)
        · exact hNever.elim
        · exact hNever.elim
  | response r =>
      cases hRaises : r.raisesForStatus with
      | true =>
          rcases
              (apiErrorMessage_isOk_iff r.body).mpr
                (hReadable r rfl hRaises) with
            ⟨message, hMessage⟩
          have hRead :
              readPagespeed repr (.response r) = _ :=
            readPagespeed_raising hRaises hMessage
          constructor
          · intro hStops
            have hFinal := hStops _ hRead
            exact
              Or.inr ⟨hRaises, of_decide_eq_false hFinal⟩
          · intro hSettles failed hSame
            rw [hRead] at hSame
            cases hSame
            rcases hSettles with hSuccess | hRefused
            · rw [hSuccess.1] at hRaises
              contradiction
            · exact decide_eq_false hRefused.2
      | false =>
          have hNotRefused : ¬ Refused (.response r) := by
            intro hRefused
            rw [hRefused.1] at hRaises
            contradiction
          cases hBody : r.body with
          | json value =>
              constructor
              · intro _
                exact Or.inl ⟨hRaises, value, hBody⟩
              · intro _ failed hSame
                simp [readPagespeed, hRaises, hBody] at hSame
          | notJson message =>
              constructor
              · intro hStops
                have hFinal :=
                  hStops (transientError message)
                    (by simp [readPagespeed, hRaises, hBody])
                contradiction
              · rintro (⟨_, value, hJson⟩ | hRefused)
                · rw [hBody] at hJson
                  cases hJson
                · exact absurd hRefused hNotRefused
          | empty =>
              constructor
              · intro hStops
                have hFinal :=
                  hStops (transientError _)
                    (by
                      simp only [readPagespeed, hRaises,
                        hBody]
                      rfl)
                contradiction
              · rintro (⟨_, value, hJson⟩ | hRefused)
                · rw [hBody] at hJson
                  cases hJson
                · exact absurd hRefused hNotRefused

/- The client's verdict is built from the outcome. -/
theorem verdict_builtFrom
    (repr : Json → String)
    {outcome : HttpOutcome}
    (hReadable : Readable outcome) :
    BuiltFrom repr outcome (verdict repr outcome) := by
  cases outcome with
  | failure kind message => exact rfl
  | response r =>
      rcases r with ⟨statusCode, body⟩
      unfold BuiltFrom
      cases hRaises :
          Response.raisesForStatus ⟨statusCode, body⟩ with
      | true =>
          rcases
              (apiErrorMessage_isOk_iff body).mpr
                (hReadable _ rfl hRaises) with
            ⟨message, hMessage⟩
          dsimp only
          rw [if_pos hRaises, verdict,
            readPagespeed_raising hRaises hMessage]
          exact ⟨message, hMessage, rfl⟩
      | false =>
          cases body with
          | json value => simp [verdict, readPagespeed, hRaises]
          | notJson message =>
              simp [verdict, readPagespeed, hRaises,
                transientError]
          | empty =>
              simp [verdict, readPagespeed, hRaises,
                transientError]

------------------------------------------------------------
-- The Requests of a Client
------------------------------------------------------------

/- The deciding round is the least of those that can decide. -/
theorem isLeast_of_decides
    {stops : Nat → Prop}
    {last n : Nat}
    (hDecides : Decides stops 1 last n) :
    IsLeast {m | 1 ≤ m ∧ (m = last ∨ stops m)} n := by
  refine ⟨⟨hDecides.started, hDecides.decided⟩, ?_⟩
  rintro m ⟨hFirst, hCan⟩
  by_contra hLess
  rw [not_le] at hLess
  have hWithin := hDecides.within
  rcases hCan with hLast | hStops
  · omega
  · exact hDecides.before m hFirst hLess hStops

/-
  With a key, a backoff that is not negative, and error
  responses that can be read: the client sends exactly `n`
  requests, where `n` is the smaller of the allowed number
  and the index of the first outcome that is a success or an
  HTTP error that is not retried.  It sleeps the backoff
  times 1 to `n - 1` in between, and it returns the value of
  outcome `n` or raises the error that is built from it.
-/
theorem fetchPagespeed_rounds
    {settings : PagespeedSettings}
    {outcomes : Nat → HttpOutcome}
    (repr : Json → String)
    (url strategy : String)
    (hKey : settings.apiKey ≠ "")
    (hBackoff : 0 ≤ settings.retryBackoff)
    (hReadable : ∀ m, Readable (outcomes m)) :
    ∃ (n : Nat) (result : Except Exc Json),
      IsLeast
          {m : Nat | 1 ≤ m ∧
            ((m : Int) = max 1 (settings.maxRetries + 1) ∨
              Settles (outcomes m))} n ∧
        BuiltFrom repr (outcomes n) result ∧
        (fetchPagespeed settings repr url strategy).run
            (serve outcomes) .start =
          some
            (result,
              { requests :=
                  List.replicate n
                    (pagespeedEndpoint,
                      pagespeedParams settings url strategy,
                      settings.requestTimeout)
                sleeps :=
                  (List.range' 1 (n - 1)).map
                    (fun k : Nat =>
                      settings.retryBackoff *
                        (k : Rat)) }) := by
  rcases
      run_fetchPagespeed repr url strategy outcomes hKey
        hBackoff with
    ⟨n, hDecides, hRun⟩
  have hLast :
      (maxAttempts settings : Int) =
        max 1 (settings.maxRetries + 1) := by
    unfold maxAttempts
    omega
  refine
    ⟨n, verdict repr (outcomes n), ?_,
      verdict_builtFrom repr (hReadable n), ?_⟩
  · have hLeast := isLeast_of_decides hDecides
    simp only [← hLast, Nat.cast_inj]
    simpa only [stops_iff_settles repr (hReadable _)]
      using hLeast
  · rw [hRun]
    simp [Journal.after, Journal.start, request]

/- A key, two retries and a backoff of two seconds. -/
def twoRetries : PagespeedSettings where
  apiKey := "key"
  requestTimeout := 60
  maxRetries := 2
  retryBackoff := 2

/- Lighthouse times out once. -/
def slowPage : Nat → HttpOutcome
| 1 =>
    .response
      ⟨400,
        .json
          (.obj
            [("error",
              .obj
                [("message", .str "Lighthouse timed out")])])⟩
| _ => .response ⟨200, .json (.obj [])⟩

/- The client asks for the slow page. -/
theorem fetchPagespeed_rounds_slowPage :
    ∃ (n : Nat) (result : Except Exc Json),
      IsLeast
          {m : Nat | 1 ≤ m ∧
            ((m : Int) = max 1 (twoRetries.maxRetries + 1) ∨
              Settles (slowPage m))} n ∧
        BuiltFrom (fun _ => "") (slowPage n) result ∧
        (fetchPagespeed twoRetries (fun _ => "")
            "https://slow.example" "desktop").run
            (serve slowPage) .start =
          some
            (result,
              { requests :=
                  List.replicate n
                    (pagespeedEndpoint,
                      pagespeedParams twoRetries
                        "https://slow.example" "desktop",
                      twoRetries.requestTimeout)
                sleeps :=
                  (List.range' 1 (n - 1)).map
                    (fun k : Nat =>
                      twoRetries.retryBackoff *
                        (k : Rat)) }) := by
  apply
    fetchPagespeed_rounds (fun _ => "")
      "https://slow.example" "desktop"
  · decide
  · decide
  · intro m r hOutcome hRaises
    unfold slowPage at hOutcome
    split at hOutcome
    · cases hOutcome
      intro error hField _
      cases hField
      exact ⟨_, rfl⟩
    · cases hOutcome
      cases hRaises

end SiteAnalysis.Analysis
