import SiteAnalysis.Analysis.Attempts
import SiteAnalysis.Audits.Wave

/-
  This file proves which exceptions the clients of PageSpeed
  and WAVE raise, whatever the servers answer.

  Key definitions include:
    * `OfKind`
    * `PagespeedTyped`
    * `PagespeedReadable`
    * `WaveTyped`
    * `WaveReadable`

  Key theorems include:
    * `pagespeedTyped_iff`
    * `waveTyped_iff`
    * `clients_typed_iff`
-/

------------------------------------------------------------
-- PageSpeed
------------------------------------------------------------

namespace SiteAnalysis

open Concurrency
open Relational
open Python

/- An application error of one of the kinds. -/
def OfKind
    (kinds : List ErrorKind)
    (e : Exc) : Prop :=
  ∃ error, e = .application error ∧ error.kind ∈ kinds

namespace Analysis

open Reports

/- What the docstring of the client promises. -/
def PagespeedTyped
    (settings : PagespeedSettings)
    (repr : Json → String)
    (url strategy : String)
    (outcomes : Nat → HttpOutcome) : Prop :=
  ∃ result j,
    (fetchPagespeed settings repr url strategy).run
        (serve outcomes) .start =
      some (result, j) ∧
      ∀ e, result = .error e →
        OfKind [.pageSpeedConfig, .pageSpeedAPI] e

/-
  Every error response that the client comes to is readable,
  and it does not sleep a negative time.
-/
def PagespeedReadable
    (settings : PagespeedSettings)
    (outcomes : Nat → HttpOutcome) : Prop :=
  ∀ m, 1 ≤ m → m ≤ maxAttempts settings →
    (∀ k, 1 ≤ k → k < m → ¬ Settles (outcomes k)) →
      Readable (outcomes m) ∧
        (m < maxAttempts settings →
          ¬ Settles (outcomes m) →
          0 ≤ settings.retryBackoff)

/- The verdict on an outcome is typed when it is readable. -/
theorem verdict_typed_iff
    (repr : Json → String)
    (outcome : HttpOutcome) :
    (∀ e, verdict repr outcome = .error e →
      OfKind [.pageSpeedConfig, .pageSpeedAPI] e) ↔
      Readable outcome := by
  constructor
  · intro hTyped r hOutcome hRaises
    by_contra hNot
    rw [← apiErrorMessage_isOk_iff] at hNot
    subst hOutcome
    cases hMessage : apiErrorMessage r.body with
    | ok message => exact hNot ⟨message, hMessage⟩
    | error e =>
        have hVerdict :
            verdict repr (.response r) =
              .error (.python e) := by
          simp [verdict, readPagespeed, hRaises,
            readHttpError, hMessage, fromPython, bind,
            Except.bind, Except.map]
        rcases hTyped _ hVerdict with ⟨error, hSame, _⟩
        cases hSame
  · intro hReadable e hError
    have hBuilt := verdict_builtFrom repr hReadable
    rw [hError] at hBuilt
    cases outcome with
    | failure kind message =>
        cases hBuilt
        exact ⟨_, rfl, by simp⟩
    | response r =>
        rcases r with ⟨statusCode, body⟩
        unfold BuiltFrom at hBuilt
        dsimp only at hBuilt
        split at hBuilt
        · rcases hBuilt with ⟨message, _, hSame⟩
          cases hSame
          exact ⟨_, rfl, by simp⟩
        · cases body with
          | json value => cases hBuilt
          | notJson message =>
              cases hBuilt
              exact ⟨_, rfl, by simp⟩
          | empty =>
              cases hBuilt
              exact ⟨_, rfl, by simp⟩

/- An outcome after which the client asks again is readable. -/
theorem readable_of_not_stops
    {repr : Json → String}
    {outcome : HttpOutcome}
    (hMore : ¬ Stops repr outcome) :
    Readable outcome := by
  intro r hOutcome hRaises
  rw [← apiErrorMessage_isOk_iff]
  subst hOutcome
  cases hMessage : apiErrorMessage r.body with
  | ok message => exact ⟨message, rfl⟩
  | error e =>
      exfalso
      apply hMore
      intro failed hRead
      simp [readPagespeed, hRaises, readHttpError, hMessage,
        fromPython, bind, Except.bind, Except.map] at hRead

/- The rounds before the deciding one settle nothing. -/
theorem readable_iff_of_decides
    {settings : PagespeedSettings}
    {repr : Json → String}
    {outcomes : Nat → HttpOutcome}
    {n : Nat}
    (hBackoff : 0 ≤ settings.retryBackoff)
    (hDecides :
      Decides (fun m => Stops repr (outcomes m)) 1
        (maxAttempts settings) n) :
    Readable (outcomes n) ↔
      PagespeedReadable settings outcomes := by
  constructor
  · intro hReadable m hFirst hLast hBefore
    refine ⟨?_, fun _ _ => hBackoff⟩
    rcases Nat.lt_trichotomy m n with hLess | hSame | hMore
    · exact
        readable_of_not_stops
          (hDecides.before m hFirst hLess)
    · subst hSame
      exact hReadable
    · exfalso
      have hUnsettled :=
        hBefore n hDecides.started hMore
      rw [← stops_iff_settles repr hReadable] at hUnsettled
      rcases hDecides.decided with hEnd | hStops
      · omega
      · exact hUnsettled hStops
  · intro hAll
    refine
      (hAll n hDecides.started hDecides.within ?_).1
    intro k hFirst hLess
    have hMore := hDecides.before k hFirst hLess
    rwa [stops_iff_settles repr
      (readable_of_not_stops hMore)] at hMore

/- What is typed of a run that is known. -/
theorem pagespeedTyped_of_run
    {settings : PagespeedSettings}
    {repr : Json → String}
    {url strategy : String}
    {outcomes : Nat → HttpOutcome}
    {result : Except Exc Json}
    {j : Journal}
    (hRun :
      (fetchPagespeed settings repr url strategy).run
          (serve outcomes) .start =
        some (result, j)) :
    PagespeedTyped settings repr url strategy outcomes ↔
      ∀ e, result = .error e →
        OfKind [.pageSpeedConfig, .pageSpeedAPI] e := by
  constructor
  · rintro ⟨result', j', hRun', hTyped⟩
    rw [hRun] at hRun'
    cases hRun'
    exact hTyped
  · intro hTyped
    exact ⟨result, j, hRun, hTyped⟩

/- With a negative backoff, the first round has to decide. -/
theorem pagespeedTyped_iff_of_negative
    {settings : PagespeedSettings}
    (repr : Json → String)
    (url strategy : String)
    (outcomes : Nat → HttpOutcome)
    (hKey : settings.apiKey ≠ "")
    (hBackoff : settings.retryBackoff < 0) :
    PagespeedTyped settings repr url strategy outcomes ↔
      PagespeedReadable settings outcomes := by
  rcases maxAttempts_pos settings with ⟨left, hLeft⟩
  have hFetch :
      fetchPagespeed settings repr url strategy =
        attemptPagespeed settings repr
          (pagespeedParams settings url strategy) 1
          (left + 1) := by
    rw [fetchPagespeed, if_neg hKey, hLeft]
  by_cases hEnd : left = 0 ∨ Stops repr (outcomes 1)
  · have hRun :
        (attemptPagespeed settings repr
            (pagespeedParams settings url strategy) 1
            (left + 1)).run (serve outcomes) .start = _ :=
      run_last_round rfl hEnd
    rw [← hFetch] at hRun
    rw [pagespeedTyped_of_run hRun, verdict_typed_iff]
    have hSettles :
        Readable (outcomes 1) → left ≠ 0 →
          Settles (outcomes 1) := by
      intro hReadable hMore
      rw [← stops_iff_settles repr hReadable]
      exact hEnd.resolve_left hMore
    constructor
    · intro hReadable m hFirst hLast hBefore
      rcases Nat.eq_or_lt_of_le hFirst with hSame | hLater
      · subst hSame
        refine ⟨hReadable, ?_⟩
        intro hMore hUnsettled
        exact
          absurd (hSettles hReadable (by omega)) hUnsettled
      · exact
          absurd (hSettles hReadable (by omega))
            (hBefore 1 (le_refl 1) hLater)
    · intro hAll
      refine (hAll 1 (le_refl 1) (by omega) ?_).1
      intro k hFirst hLess
      omega
  · rw [not_or] at hEnd
    rcases hEnd with ⟨hMore, hNot⟩
    rcases Nat.exists_eq_succ_of_ne_zero hMore with
      ⟨rest, hRest⟩
    subst hRest
    have hRun :
        (attemptPagespeed settings repr
            (pagespeedParams settings url strategy) 1
            (rest + 1 + 1)).run (serve outcomes) .start = _ :=
      run_negative_backoff hBackoff rfl hNot
    rw [← hFetch] at hRun
    rw [pagespeedTyped_of_run hRun]
    constructor
    · intro hTyped
      rcases hTyped _ rfl with ⟨error, hSame, _⟩
      cases hSame
    · intro hAll
      have hFirst :=
        hAll 1 (le_refl 1) (by omega)
          (fun k hk hLess => by omega)
      have hUnsettled : ¬ Settles (outcomes 1) := by
        rw [← stops_iff_settles repr hFirst.1]
        exact hNot
      have hNonneg := hFirst.2 (by omega) hUnsettled
      exact absurd hBackoff (not_lt.mpr hNonneg)

/-
  The client raises nothing but its own errors exactly when
  it has no key, or can read what it comes to.
-/
theorem pagespeedTyped_iff
    (settings : PagespeedSettings)
    (repr : Json → String)
    (url strategy : String)
    (outcomes : Nat → HttpOutcome) :
    PagespeedTyped settings repr url strategy outcomes ↔
      settings.apiKey = "" ∨
        PagespeedReadable settings outcomes := by
  by_cases hKey : settings.apiKey = ""
  · have hRun :
        (fetchPagespeed settings repr url strategy).run
            (serve outcomes) .start =
          some
            (.error (ErrorKind.pageSpeedConfig.error "" []),
              .start) := by
      rw [fetchPagespeed, if_pos hKey]
      rfl
    rw [pagespeedTyped_of_run hRun]
    constructor
    · intro _
      exact Or.inl hKey
    · intro _ e hError
      cases hError
      exact ⟨_, rfl, by simp⟩
  · rw [or_iff_right hKey]
    rcases le_or_gt 0 settings.retryBackoff with
      hNonneg | hNegative
    · rcases
          run_fetchPagespeed repr url strategy outcomes hKey
            hNonneg with
        ⟨n, hDecides, hRun⟩
      rw [pagespeedTyped_of_run hRun, verdict_typed_iff,
        readable_iff_of_decides hNonneg hDecides]
    · exact
        pagespeedTyped_iff_of_negative repr url strategy
          outcomes hKey hNegative

end Analysis

------------------------------------------------------------
-- WAVE
------------------------------------------------------------

namespace Audits

open Billing

/- The request comes back with the outcome. -/
def serveOnce
    (outcome : HttpOutcome) :
    (o : TxOp Statement) → Unit →
      Option (Except Exc (TxOp.Res Statement.Answer o) × Unit)
| .query (.httpGet _ _ _), _ => some (.ok outcome, ())
| _, _ => none

/- The answer is an object whose `status.success` is true. -/
def Reported (data : Json) : Prop :=
  ∃ fields status success,
    data = .obj fields ∧
      Json.field "status" fields = some (.obj status) ∧
      Json.field "success" status = some success ∧
      success.truthy = true

/- What the docstring of the client promises. -/
def WaveTyped
    (settings : WaveSettings)
    (repr : Json → String)
    (url : String)
    (reportType : Option Int)
    (outcome : HttpOutcome) : Prop :=
  ∃ result,
    (fetchWave settings repr url reportType).run
        (serveOnce outcome) () =
      some (result, ()) ∧
      (∀ e, result = .error e →
        OfKind [.waveConfig, .waveAPI] e) ∧
      ∀ data, result = .ok data → Reported data

/-
  A response that is decoded is an object whose `status` is
  absent or an object itself.
-/
def WaveReadable (outcome : HttpOutcome) : Prop :=
  ∀ r data, outcome = .response r →
    r.raisesForStatus = false → r.body = .json data →
      ∃ fields, data = .obj fields ∧
        ∀ status, Json.field "status" fields = some status →
          ∃ inner, status = .obj inner

/- What the client makes of a decoded object. -/
theorem checkSuccess_obj
    (repr : Json → String)
    {fields : List (String × Json)}
    (hStatus :
      ∀ status, Json.field "status" fields = some status →
        ∃ inner, status = .obj inner) :
    (∃ extra message,
        checkSuccess repr (.obj fields) =
          .error (ErrorKind.waveAPI.error message extra)) ∨
      (checkSuccess repr (.obj fields) =
          .ok (.obj fields) ∧
        Reported (.obj fields)) := by
  have hGet :
      Json.get (.obj fields) "status" (.obj []) =
        .ok ((Json.field "status" fields).getD (.obj [])) :=
    rfl
  cases hField : Json.field "status" fields with
  | none =>
      left
      rw [hField] at hGet
      exact ⟨_, _, by
        simp only [checkSuccess, hGet]
        rfl⟩
  | some status =>
      rcases hStatus status hField with ⟨inner, rfl⟩
      rw [hField, Option.getD_some] at hGet
      have hSuccess :
          Json.get (.obj inner) "success" (.bool false) =
            .ok
              ((Json.field "success" inner).getD
                (.bool false)) :=
        rfl
      cases hTruthy :
          ((Json.field "success" inner).getD
            (.bool false)).truthy with
      | false =>
          left
          exact ⟨_, _, by
            simp only [checkSuccess, hGet, fromPython, bind,
              Except.bind, hSuccess, hTruthy,
              Bool.false_eq_true, if_false]
            rfl⟩
      | true =>
          right
          constructor
          · simp only [checkSuccess, hGet, fromPython, bind,
              Except.bind, hSuccess, hTruthy, if_true]
            rfl
          · cases hFlag : Json.field "success" inner with
            | none =>
                rw [hFlag] at hTruthy
                cases hTruthy
            | some success =>
                rw [hFlag] at hTruthy
                exact
                  ⟨fields, inner, success, rfl, hField, hFlag,
                    hTruthy⟩

/- What the client makes of any other decoded value. -/
theorem checkSuccess_raises
    (repr : Json → String)
    {data : Json}
    (hNot :
      ¬ ∃ fields, data = .obj fields ∧
        ∀ status, Json.field "status" fields = some status →
          ∃ inner, status = .obj inner) :
    ∃ e, checkSuccess repr data = .error (.python e) := by
  cases data with
  | obj fields =>
      have hStatus :
          ∃ status,
            Json.field "status" fields = some status ∧
              ∀ inner, status ≠ .obj inner := by
        by_contra hNone
        apply hNot
        refine ⟨fields, rfl, ?_⟩
        intro status hField
        by_contra hOther
        exact
          hNone
            ⟨status, hField,
              fun inner hSame => hOther ⟨inner, hSame⟩⟩
      rcases hStatus with ⟨status, hField, hOther⟩
      have hGet :
          Json.get (.obj fields) "status" (.obj []) =
            .ok status := by
        simp [Json.get, hField]
      cases status with
      | obj inner => exact absurd rfl (hOther inner)
      | _ =>
          exact ⟨_, by
            simp only [checkSuccess, hGet]
            rfl⟩
  | _ => exact ⟨_, rfl⟩

/- What the client makes of the outcome is as promised. -/
theorem readWave_typed_iff
    (repr : Json → String)
    (outcome : HttpOutcome) :
    ((∀ e, readWave repr outcome = .error e →
        OfKind [.waveConfig, .waveAPI] e) ∧
      ∀ data, readWave repr outcome = .ok data →
        Reported data) ↔
      WaveReadable outcome := by
  have hTyped :
      ∀ message extra,
        readWave repr outcome =
            .error (ErrorKind.waveAPI.error message extra) →
          (∀ e, readWave repr outcome = .error e →
              OfKind [.waveConfig, .waveAPI] e) ∧
            ∀ data, readWave repr outcome = .ok data →
              Reported data := by
    intro message extra hRead
    rw [hRead]
    constructor
    · intro e hSame
      cases hSame
      exact ⟨_, rfl, by simp⟩
    · intro data hSame
      cases hSame
  cases hOutcome : outcome with
  | failure kind message =>
      subst hOutcome
      constructor
      · intro _ r data hSame
        cases hSame
      · intro _
        exact hTyped _ _ rfl
  | response r =>
      subst hOutcome
      cases hRaises : r.raisesForStatus with
      | true =>
          constructor
          · intro _ r' data hSame hNot
            cases hSame
            rw [hRaises] at hNot
            contradiction
          · intro _
            exact
              hTyped _ _
                (by
                  simp only [readWave, hRaises]
                  rfl)
      | false =>
          cases hBody : r.body with
          | empty =>
              constructor
              · intro _ r' data hSame _ hJson
                cases hSame
                rw [hBody] at hJson
                cases hJson
              · intro _
                exact
                  hTyped _ _
                    (by
                      simp only [readWave, hRaises, hBody]
                      rfl)
          | notJson message =>
              constructor
              · intro _ r' data hSame _ hJson
                cases hSame
                rw [hBody] at hJson
                cases hJson
              · intro _
                exact
                  hTyped _ _
                    (by
                      simp only [readWave, hRaises, hBody]
                      rfl)
          | json data =>
              have hRead :
                  readWave repr (.response r) =
                    checkSuccess repr data := by
                simp [readWave, hRaises, hBody]
              constructor
              · intro hBoth r' data' hSame _ hJson
                cases hSame
                rw [hBody] at hJson
                cases hJson
                by_contra hNot
                rcases checkSuccess_raises repr hNot with
                  ⟨e, hError⟩
                rw [← hRead] at hError
                rcases hBoth.1 _ hError with ⟨error, hSame, _⟩
                cases hSame
              · intro hReadable
                rcases hReadable r data rfl hRaises hBody with
                  ⟨fields, rfl, hStatus⟩
                rcases checkSuccess_obj repr hStatus with
                  ⟨extra, message, hError⟩ | ⟨hOk, hReport⟩
                · exact hTyped _ _ (hRead.trans hError)
                · rw [hRead, hOk]
                  constructor
                  · intro e hSame
                    cases hSame
                  · intro data hSame
                    cases hSame
                    exact hReport

theorem waveTyped_iff
    (settings : WaveSettings)
    (repr : Json → String)
    (url : String)
    (reportType : Option Int)
    (outcome : HttpOutcome) :
    WaveTyped settings repr url reportType outcome ↔
      settings.apiKey = "" ∨ WaveReadable outcome := by
  by_cases hKey : settings.apiKey = ""
  · have hRun :
        (fetchWave settings repr url reportType).run
            (serveOnce outcome) () =
          some
            (.error (ErrorKind.waveConfig.error "" []), ()) := by
      rw [fetchWave, if_pos hKey]
      rfl
    constructor
    · intro _
      exact Or.inl hKey
    · intro _
      refine ⟨_, hRun, ?_, ?_⟩
      · intro e hSame
        cases hSame
        exact ⟨_, rfl, by simp⟩
      · intro data hSame
        cases hSame
  · have hRun :
        (fetchWave settings repr url reportType).run
            (serveOnce outcome) () =
          some (readWave repr outcome, ()) := by
      rw [fetchWave, if_neg hKey]
      change
        (Prog.ofExcept (readWave repr outcome)).run
          (serveOnce outcome) () = _
      cases readWave repr outcome <;> rfl
    rw [or_iff_right hKey, ← readWave_typed_iff repr]
    constructor
    · rintro ⟨result, hRun', hBoth⟩
      rw [hRun] at hRun'
      cases hRun'
      exact hBoth
    · intro hBoth
      exact ⟨_, hRun, hBoth⟩

end Audits

------------------------------------------------------------
-- Both Clients
------------------------------------------------------------

/- The settings of a WAVE client with a key. -/
def waveKey : Audits.WaveSettings where
  apiKey := "key"
  baseUrl := "https://wave.webaim.org/api/request"
  reportType := 1
  requestTimeout := 60

/- An error response whose body is an empty list. -/
def listBody : HttpOutcome :=
  .response ⟨403, .json (.arr [])⟩

/- A decoded answer whose `status` is `null`. -/
def nullStatus : HttpOutcome :=
  .response ⟨200, .json (.obj [("status", .null)])⟩

end SiteAnalysis
