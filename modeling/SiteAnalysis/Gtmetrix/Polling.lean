import Mathlib.Data.Rat.Floor
import Mathlib.Tactic.Linarith
import SiteAnalysis.Gtmetrix.Client

/-
  This file proves how the polling of a test ends, for every
  sequence of states that the test may report and every clock
  that the sleeps of the loop move on.

  Key definitions include:
    * `WellFormed`
    * `Script`
    * `Watch`
    * `Ticks`
    * `pollBound`
    * `Ends`

  Key theorems include:
    * `deadline_reached`
    * `run_pollTest`
    * `run_pollAndFetch`
-/

------------------------------------------------------------
-- Test Resources
------------------------------------------------------------

namespace SiteAnalysis.Gtmetrix

open Concurrency
open Relational
open Python
open Reports

/-
  A resource of a test with the attributes.  Its report may
  be named by a relationship or by a link.
-/
def WellFormed
    (resource : Json)
    (attributes : List (String × Json)) : Prop :=
  ∃ top data,
    resource = .obj top ∧
      Json.field "data" top = some (.obj data) ∧
      Json.field "attributes" data =
        some (.obj attributes) ∧
      (∀ v, Json.field "relationships" data = some v →
        ∃ relationships, v = .obj relationships ∧
          ∀ v, Json.field "report" relationships = some v →
            ∃ report, v = .obj report ∧
              ∀ v, Json.field "data" report = some v →
                v = .null ∨ ∃ entry, v = .obj entry) ∧
      ∀ v, Json.field "links" data = some v →
        ∃ links, v = .obj links ∧
          ∀ v, Json.field "report" links = some v →
            v = .null ∨ ∃ link, v = .str link

/- The state among the attributes. -/
def stateOf (attributes : List (String × Json)) : Json :=
  (Json.field "state" attributes).getD .null

theorem get_field
    (key : String)
    (fields : List (String × Json))
    (default : Json) :
    Json.get (.obj fields) key default =
      .ok ((Json.field key fields).getD default) := rfl

section Resources

variable {resource : Json}
variable {attributes : List (String × Json)}

theorem attributesOf_wellFormed
    (hFormed : WellFormed resource attributes) :
    attributesOf resource = .ok (.obj attributes) := by
  rcases hFormed with
    ⟨top, data, rfl, hData, hAttributes, _⟩
  simp only [attributesOf, get_field, hData,
    Option.getD_some, bind, Except.bind, hAttributes]

theorem testState_wellFormed
    (hFormed : WellFormed resource attributes) :
    testState resource = .ok (stateOf attributes) := by
  simp only [testState, attributesOf_wellFormed hFormed,
    bind, Except.bind, get_field]
  rfl

theorem testErrored_wellFormed
    (hFormed : WellFormed resource attributes) :
    testErrored resource =
      .ok
        (ErrorKind.gtmetrixAPI.error "GTmetrix test errored."
          [("error",
            (Json.field "error" attributes).getD
              (.str ""))]) := by
  simp only [testErrored, attributesOf_wellFormed hFormed,
    bind, Except.bind, get_field]
  rfl

/- A member that is an object, or is left out. -/
theorem getD_obj
    {key : String}
    {fields : List (String × Json)}
    {P : List (String × Json) → Prop}
    (hEmpty : P [])
    (hMember :
      ∀ v, Json.field key fields = some v →
        ∃ o, v = .obj o ∧ P o) :
    ∃ o,
      (Json.field key fields).getD (.obj []) = .obj o ∧
        P o := by
  cases hField : Json.field key fields with
  | none => exact ⟨[], rfl, hEmpty⟩
  | some v => exact hMember v hField

/- The id of the report can be read. -/
theorem reportIdFromTest_wellFormed
    (hFormed : WellFormed resource attributes) :
    ∃ reportId, reportIdFromTest resource = .ok reportId := by
  rcases hFormed with
    ⟨top, data, rfl, hData, _, hRelations, hLinks⟩
  have hNone :
      ∀ key v, Json.field key [] = some v → False := by
    intro key v hSome
    cases hSome
  rcases
      getD_obj (fun v h => (hNone _ v h).elim) hRelations with
    ⟨relationships, hRelationships, hReport⟩
  rcases
      getD_obj (fun v h => (hNone _ v h).elim) hReport with
    ⟨report, hReportObj, hEntry⟩
  rcases
      getD_obj (fun v h => (hNone _ v h).elim) hLinks with
    ⟨links, hLinksObj, hLink⟩
  have hEntryObj :
      ∃ entry,
        ((Json.field "data" report).getD .null).or
            (.obj []) =
          .obj entry := by
    cases hField : Json.field "data" report with
    | none => exact ⟨[], rfl⟩
    | some v =>
        rcases hEntry v hField with rfl | ⟨entry, rfl⟩
        · exact ⟨[], rfl⟩
        · cases entry with
          | nil => exact ⟨[], rfl⟩
          | cons first rest => exact ⟨_, rfl⟩
  rcases hEntryObj with ⟨entry, hEntryObj⟩
  simp only [reportIdFromTest, get_field, hData,
    Option.getD_some, bind, Except.bind, hRelationships,
    hReportObj, hEntryObj, hLinksObj]
  split
  · exact ⟨_, rfl⟩
  · split
    · rename_i hNamed
      cases hField : Json.field "report" links with
      | none =>
          rw [hField] at hNamed
          cases hNamed
      | some v =>
          rcases hLink v hField with rfl | ⟨link, rfl⟩
          · rw [hField] at hNamed
            cases hNamed
          · exact ⟨_, rfl⟩
    · exact ⟨_, rfl⟩

end Resources

------------------------------------------------------------
-- Scripts
------------------------------------------------------------

/-
  What the servers and the clock answer: the resource that
  poll `k` comes back with, the reading `k` of the clock, and
  the outcome of the request of the report.
-/
structure Script where
  test : Nat → Json
  clock : Nat → Rat
  report : HttpOutcome

/- What has been asked so far. -/
structure Watch where
  polls : Nat
  readings : Nat
  sleeps : List Rat
  reports : List String

def Watch.start : Watch where
  polls := 0
  readings := 0
  sleeps := []
  reports := []

/- The URL of a test. -/
def testUrl
    (settings : GtmetrixSettings)
    (repr : Json → String)
    (testId : Json) : String :=
  apiUrl settings ("tests/" ++ testId.toStr repr)

/- The URL of a report. -/
def reportUrl
    (settings : GtmetrixSettings)
    (repr : Json → String)
    (reportId : Json) : String :=
  apiUrl settings ("reports/" ++ reportId.toStr repr)

/- Request the test, another URL, the time, or a rest. -/
def Script.serve
    (script : Script)
    (test : String) :
    (o : TxOp Statement) → Watch →
      Option (Except Exc (TxOp.Res Statement.Answer o) ×
        Watch)
| .query (.httpRequest _ url _ _ _), w =>
    if url = test then
      some
        (.ok
          (.response
            ⟨200, .json (script.test (w.polls + 1))⟩),
          { w with polls := w.polls + 1 })
    else
      some
        (.ok script.report,
          { w with reports := w.reports ++ [url] })
| .query .monotonic, w =>
    some
      (.ok (script.clock w.readings),
        { w with readings := w.readings + 1 })
| .query (.sleep seconds), w =>
    some (.ok (), { w with sleeps := w.sleeps ++ [seconds] })
| _, _ => none

/-
  The clock is read before the first poll and after each; it
  does not go back, and the sleep between two polls moves it
  on by the interval at least.
-/
structure Ticks
    (interval : Int)
    (clock : Nat → Rat) : Prop where
  first : clock 0 ≤ clock 1
  next : ∀ k, 1 ≤ k → clock k + interval ≤ clock (k + 1)

/- `ceil(budget / interval) + 1` -/
def pollBound (settings : GtmetrixSettings) : Nat :=
  ⌈(settings.pollMaxSeconds : Rat) /
      settings.pollInterval⌉₊ + 1

/- The clock after `k` polls. -/
theorem clock_after
    {interval : Int}
    {clock : Nat → Rat}
    (hTicks : Ticks interval clock)
    (k : Nat) :
    clock 0 + (k : Rat) * interval ≤ clock (k + 1) := by
  induction k with
  | zero => simpa using hTicks.first
  | succ k ih =>
      have hNext := hTicks.next (k + 1) (by omega)
      rw [Nat.cast_succ]
      linarith

/- The deadline is reached with the last poll of the bound. -/
theorem deadline_reached
    {settings : GtmetrixSettings}
    {clock : Nat → Rat}
    (hInterval : 0 < settings.pollInterval)
    (hTicks : Ticks settings.pollInterval clock)
    {k : Nat}
    (hLast : pollBound settings ≤ k) :
    clock 0 + settings.pollMaxSeconds ≤ clock k := by
  have hPositive : (0 : Rat) < settings.pollInterval := by
    exact_mod_cast hInterval
  rcases Nat.exists_eq_succ_of_ne_zero
      (show k ≠ 0 by unfold pollBound at hLast; omega) with
    ⟨polls, rfl⟩
  have hPolls :
      (settings.pollMaxSeconds : Rat) /
          settings.pollInterval ≤ polls := by
    apply Nat.ceil_le.mp
    unfold pollBound at hLast
    omega
  rw [div_le_iff₀ hPositive] at hPolls
  have hClock := clock_after hTicks polls
  linarith

------------------------------------------------------------
-- Polls
------------------------------------------------------------

section Polls

variable {settings : GtmetrixSettings}
variable {repr : Json → String}
variable {testId : Json}
variable {script : Script}
variable {attributes : Nat → List (String × Json)}
variable {w : Watch}

/- A request of the test comes back with the next resource. -/
theorem run_getTest
    {β : Type}
    (hKey : settings.apiKey ≠ "")
    (f : Json → Service β) :
    ((getTest settings repr testId).bind f).run
        (script.serve (testUrl settings repr testId)) w =
      (f (script.test (w.polls + 1))).run
        (script.serve (testUrl settings repr testId))
        { w with polls := w.polls + 1 } := by
  have hServe :
      script.serve (testUrl settings repr testId)
          (.query
            (.httpRequest "GET" (testUrl settings repr testId)
              (settings.apiKey, "") settings.requestTimeout
              none)) w =
        some
          (.ok
            (.response
              ⟨200, .json (script.test (w.polls + 1))⟩),
            { w with polls := w.polls + 1 }) :=
    if_pos rfl
  unfold getTest request
  rw [if_neg hKey]
  exact Prog.run_call hServe

/- The state that poll `k` reports is one of a finished test. -/
def FinishedAt
    (attributes : Nat → List (String × Json))
    (k : Nat) : Prop :=
  isText (stateOf (attributes k)) "completed" = true ∨
    isText (stateOf (attributes k)) "error" = true

/- The deadline of the loop, by the first reading. -/
def deadline
    (settings : GtmetrixSettings)
    (clock : Nat → Rat) : Rat :=
  clock 0 + settings.pollMaxSeconds

/- The error of a test that errored. -/
def erroredTest
    (attributes : List (String × Json)) : Exc :=
  ErrorKind.gtmetrixAPI.error "GTmetrix test errored."
    [("error",
      (Json.field "error" attributes).getD (.str ""))]

/- The error of a test that did not finish in time. -/
def unfinishedTest
    (testId : Json)
    (attributes : List (String × Json)) : Exc :=
  ErrorKind.gtmetrixTimeout.error ""
    [("test_id", testId), ("last_state", stateOf attributes)]

/- A poll of a completed test ends the loop. -/
theorem run_completed
    {rounds : Nat}
    (hKey : settings.apiKey ≠ "")
    (hFormed :
      WellFormed (script.test (w.polls + 1))
        (attributes (w.polls + 1)))
    (hState :
      isText (stateOf (attributes (w.polls + 1)))
        "completed" = true)
    (limit : Rat) :
    (pollTest settings repr testId limit (rounds + 1)).run
        (script.serve (testUrl settings repr testId)) w =
      some
        (.ok (script.test (w.polls + 1)),
          { w with polls := w.polls + 1 }) := by
  rw [pollTest]
  apply (run_getTest hKey _).trans
  rw [testState_wellFormed hFormed]
  change
    (if isText (stateOf (attributes (w.polls + 1)))
        "completed" then
      _
    else
      _ : Service Json).run _ _ = _
  rw [if_pos hState]
  rfl

/- A poll of a test that errored raises. -/
theorem run_errored
    {rounds : Nat}
    (hKey : settings.apiKey ≠ "")
    (hFormed :
      WellFormed (script.test (w.polls + 1))
        (attributes (w.polls + 1)))
    (hOther :
      ¬ isText (stateOf (attributes (w.polls + 1)))
        "completed" = true)
    (hState :
      isText (stateOf (attributes (w.polls + 1)))
        "error" = true)
    (limit : Rat) :
    (pollTest settings repr testId limit (rounds + 1)).run
        (script.serve (testUrl settings repr testId)) w =
      some
        (.error (erroredTest (attributes (w.polls + 1))),
          { w with polls := w.polls + 1 }) := by
  rw [pollTest]
  apply (run_getTest hKey _).trans
  rw [testState_wellFormed hFormed]
  change
    (if isText (stateOf (attributes (w.polls + 1)))
        "completed" then
      _
    else if isText (stateOf (attributes (w.polls + 1)))
        "error" then
      _
    else
      _ : Service Json).run _ _ = _
  rw [if_neg hOther, if_pos hState,
    testErrored_wellFormed hFormed]
  rfl

/- After a poll of an unfinished test the clock is read. -/
theorem run_unfinished
    {rounds : Nat}
    (hKey : settings.apiKey ≠ "")
    (hFormed :
      WellFormed (script.test (w.polls + 1))
        (attributes (w.polls + 1)))
    (hUnfinished : ¬ FinishedAt attributes (w.polls + 1))
    (limit : Rat) :
    (pollTest settings repr testId limit (rounds + 1)).run
        (script.serve (testUrl settings repr testId)) w =
      if limit ≤ script.clock w.readings then
        some
          (.error
            (unfinishedTest testId
              (attributes (w.polls + 1))),
            { w with
              polls := w.polls + 1
              readings := w.readings + 1 })
      else
        (pollTest settings repr testId limit rounds).run
          (script.serve (testUrl settings repr testId))
          { w with
            polls := w.polls + 1
            readings := w.readings + 1
            sleeps :=
              w.sleeps ++
                [max (settings.pollInterval : Rat) 0] } := by
  rw [FinishedAt, not_or] at hUnfinished
  rw [pollTest]
  apply (run_getTest hKey _).trans
  rw [testState_wellFormed hFormed]
  change
    (if isText (stateOf (attributes (w.polls + 1)))
        "completed" then
      _
    else if isText (stateOf (attributes (w.polls + 1)))
        "error" then
      _
    else
      _ : Service Json).run _ _ = _
  rw [if_neg hUnfinished.1, if_neg hUnfinished.2]
  change
    (if limit ≤ script.clock w.readings then
      _
    else
      _ : Service Json).run _ _ = _
  by_cases hReached : limit ≤ script.clock w.readings
  · rw [if_pos hReached, if_pos hReached]
    rfl
  · rw [if_neg hReached, if_neg hReached]
    rfl

/-
  What the loop comes to with poll `n`, and the number of
  readings of the clock.
-/
inductive Ending
    (settings : GtmetrixSettings)
    (testId : Json)
    (script : Script)
    (attributes : Nat → List (String × Json))
    (n : Nat) : Except Exc Json → Nat → Prop
  | completed
      (hState :
        isText (stateOf (attributes n)) "completed" = true) :
      Ending settings testId script attributes n
        (.ok (script.test n)) n
  | errored
      (hOther :
        ¬ isText (stateOf (attributes n)) "completed" = true)
      (hState :
        isText (stateOf (attributes n)) "error" = true) :
      Ending settings testId script attributes n
        (.error (erroredTest (attributes n))) n
  | timedOut
      (hUnfinished : ¬ FinishedAt attributes n)
      (hReached :
        deadline settings script.clock ≤ script.clock n) :
      Ending settings testId script attributes n
        (.error (unfinishedTest testId (attributes n)))
        (n + 1)

/-
  The loop from poll `k` on ends with a poll `n` of the
  bound; the polls before it found the test unfinished and
  the deadline ahead.
-/
theorem run_pollTest
    (hKey : settings.apiKey ≠ "")
    (hInterval : 0 < settings.pollInterval)
    (hTicks : Ticks settings.pollInterval script.clock)
    (hFormed :
      ∀ k, WellFormed (script.test k) (attributes k))
    (rounds : Nat)
    {k : Nat}
    (hPolls : w.polls + 1 = k)
    (hReadings : w.readings = k)
    (hEnough : pollBound settings + 1 ≤ k + rounds)
    (hWithin : k ≤ pollBound settings) :
    ∃ n result readings,
      k ≤ n ∧ n ≤ pollBound settings ∧
        (∀ m, k ≤ m → m < n →
          ¬ FinishedAt attributes m ∧
            script.clock m <
              deadline settings script.clock) ∧
        Ending settings testId script attributes n result
          readings ∧
        (pollTest settings repr testId
            (deadline settings script.clock) rounds).run
            (script.serve (testUrl settings repr testId)) w =
          some
            (result,
              { w with
                polls := n
                readings := readings
                sleeps :=
                  w.sleeps ++
                    List.replicate (n - k)
                      (max (settings.pollInterval : Rat)
                        0) }) := by
  induction rounds generalizing w k with
  | zero => omega
  | succ rounds ih =>
      subst hPolls
      have hHere := hFormed (w.polls + 1)
      have hNone :
          ∀ m, w.polls + 1 ≤ m → m < w.polls + 1 →
            ¬ FinishedAt attributes m ∧
              script.clock m <
                deadline settings script.clock := by
        intro m hFirst hLess
        omega
      by_cases hCompleted :
          isText (stateOf (attributes (w.polls + 1)))
            "completed" = true
      · refine
          ⟨w.polls + 1, _, _, le_refl _, hWithin, hNone,
            .completed hCompleted, ?_⟩
        rw [run_completed hKey hHere hCompleted, hReadings]
        simp
      · by_cases hErrored :
            isText (stateOf (attributes (w.polls + 1)))
              "error" = true
        · refine
            ⟨w.polls + 1, _, _, le_refl _, hWithin, hNone,
              .errored hCompleted hErrored, ?_⟩
          rw [run_errored hKey hHere hCompleted hErrored,
            hReadings]
          simp
        · have hUnfinished :
              ¬ FinishedAt attributes (w.polls + 1) :=
            not_or.mpr ⟨hCompleted, hErrored⟩
          rw [run_unfinished hKey hHere hUnfinished,
            hReadings]
          by_cases hReached :
              deadline settings script.clock ≤
                script.clock (w.polls + 1)
          · refine
              ⟨w.polls + 1, _, _, le_refl _, hWithin, hNone,
                .timedOut hUnfinished hReached, ?_⟩
            rw [if_pos hReached]
            simp
          · have hBefore :
                w.polls + 1 < pollBound settings := by
              by_contra hLast
              exact
                hReached
                  (deadline_reached hInterval hTicks
                    (not_lt.mp hLast))
            rw [if_neg hReached]
            rcases
                ih (k := w.polls + 1 + 1) (w :=
                  { w with
                    polls := w.polls + 1
                    readings := w.polls + 1 + 1
                    sleeps :=
                      w.sleeps ++
                        [max (settings.pollInterval : Rat)
                          0] })
                  rfl rfl (by omega) (by omega) with
              ⟨n, result, readings, hFirst, hLast, hSoFar,
                hEnding, hRun⟩
            refine
              ⟨n, result, readings, by omega, hLast, ?_,
                hEnding, ?_⟩
            · intro m hStarted hLess
              rcases Nat.eq_or_lt_of_le hStarted with
                hSame | hLater
              · subst hSame
                exact ⟨hUnfinished, not_le.mp hReached⟩
              · exact hSoFar m hLater hLess
            · have hSleeps :
                  n - (w.polls + 1) =
                    n - (w.polls + 1 + 1) + 1 := by
                omega
              rw [hRun, hSleeps, List.replicate_succ,
                List.append_assoc]
              rfl

------------------------------------------------------------
-- Reports
------------------------------------------------------------

/- The URL of a report is not that of a test. -/
theorem reportUrl_ne_testUrl
    (settings : GtmetrixSettings)
    (repr : Json → String)
    (reportId testId : Json) :
    reportUrl settings repr reportId ≠
      testUrl settings repr testId := by
  intro hSame
  have hChars := congrArg String.toList hSame
  simp only [reportUrl, testUrl, apiUrl, String.toList_append,
    String.toList_ofList] at hChars
  rw [List.append_assoc, List.append_assoc,
    List.append_cancel_left_eq, List.append_cancel_left_eq]
    at hChars
  have hReports :
      "reports/".toList =
        ['r', 'e', 'p', 'o', 'r', 't', 's', '/'] := rfl
  have hTests :
      "tests/".toList =
        ['t', 'e', 's', 't', 's', '/'] := rfl
  rw [hReports, hTests] at hChars
  simp [stripSlashes] at hChars

/- What is returned or raised after the report was asked for. -/
def fetchedReport
    (repr : Json → String)
    (testId : Json)
    (report : HttpOutcome) : Except Exc FetchedReport := do
  let reportJson ← readResponse repr report
  let metrics ← fromPython (parseReport reportJson)
  pure
    { testId := testId
      metrics := metrics
      raw := reportJson }

/- The request of a report, and what follows it. -/
theorem run_getReport
    (hKey : settings.apiKey ≠ "")
    (reportId : Json) :
    ((getReport settings repr reportId).bind
        (fun reportJson =>
          (Prog.ofExcept
            (fromPython (parseReport reportJson))).bind
            (fun metrics =>
              .ret
                { testId := testId
                  metrics := metrics
                  raw := reportJson }))).run
        (script.serve (testUrl settings repr testId)) w =
      some
        (fetchedReport repr testId script.report,
          { w with
            reports :=
              w.reports ++
                [reportUrl settings repr reportId] }) := by
  have hServe :
      script.serve (testUrl settings repr testId)
          (.query
            (.httpRequest "GET"
              (reportUrl settings repr reportId)
              (settings.apiKey, "") settings.requestTimeout
              none)) w =
        some
          (.ok script.report,
            { w with
              reports :=
                w.reports ++
                  [reportUrl settings repr reportId] }) :=
    if_neg (reportUrl_ne_testUrl settings repr _ _)
  unfold getReport request
  rw [if_neg hKey]
  apply (Prog.run_call hServe).trans
  change
    ((Prog.ofExcept
        (readResponse repr script.report)).bind _).run _ _ = _
  unfold fetchedReport
  cases readResponse repr script.report with
  | error e => rfl
  | ok reportJson =>
      change
        ((Prog.ofExcept
            (fromPython (parseReport reportJson))).bind _).run
            _ _ =
          some
            ((fromPython (parseReport reportJson)).bind _, _)
      cases fromPython (parseReport reportJson) with
      | error e => rfl
      | ok metrics => rfl

/- The call, once the loop has ended. -/
theorem run_after_loop
    {rounds : Nat}
    {result : Except Exc Json}
    (hKey : settings.apiKey ≠ "")
    (hLoop :
      (pollTest settings repr testId
          (deadline settings script.clock) rounds).run
          (script.serve (testUrl settings repr testId))
          { Watch.start with readings := 1 } =
        some (result, w)) :
    (∀ e, result = .error e →
      (pollAndFetch settings repr rounds testId).run
          (script.serve (testUrl settings repr testId))
          .start =
        some (.error e, w)) ∧
      ∀ resource reportId, result = .ok resource →
        reportIdFromTest resource = .ok reportId →
          (pollAndFetch settings repr rounds testId).run
              (script.serve (testUrl settings repr testId))
              .start =
            some
              (fetchedReport repr testId script.report,
                { w with
                  reports :=
                    w.reports ++
                      [reportUrl settings repr
                        (reportId.or testId)] }) := by
  have hStart :
      script.serve (testUrl settings repr testId)
          (.query .monotonic) .start =
        some
          (.ok (script.clock 0),
            { Watch.start with readings := 1 }) := rfl
  constructor
  · rintro e rfl
    unfold pollAndFetch
    apply (Prog.run_call hStart).trans
    change
      ((pollTest settings repr testId
          (script.clock 0 + settings.pollMaxSeconds)
          rounds).bind _).run _ _ = _
    apply (Prog.run_handle _ _ _ _ _).trans
    rw [deadline] at hLoop
    rw [hLoop]
    rfl
  · rintro resource reportId rfl hId
    unfold pollAndFetch
    apply (Prog.run_call hStart).trans
    change
      ((pollTest settings repr testId
          (script.clock 0 + settings.pollMaxSeconds)
          rounds).bind _).run _ _ = _
    apply (Prog.run_handle _ _ _ _ _).trans
    rw [deadline] at hLoop
    rw [hLoop]
    change
      ((Prog.ofExcept
          (fromPython (reportIdFromTest resource))).bind
            _).run _ _ = _
    rw [hId]
    exact run_getReport hKey (reportId.or testId)

end Polls

/-
  What is left of the call after `n` polls: the polls before
  the last found the test unfinished before the deadline; the
  report is asked for when the last one found the test
  completed, the call raises when it found an error, and it
  gives up when it found neither at the deadline.
-/
structure Polled
    (settings : GtmetrixSettings)
    (repr : Json → String)
    (testId : Json)
    (script : Script)
    (attributes : Nat → List (String × Json))
    (n : Nat)
    (result : Except Exc FetchedReport)
    (w : Watch) : Prop where
  polls : w.polls = n
  sleeps :
    w.sleeps =
      List.replicate (n - 1) (settings.pollInterval : Rat)
  started : 1 ≤ n
  bounded : n ≤ pollBound settings
  before :
    ∀ m, 1 ≤ m → m < n →
      ¬ FinishedAt attributes m ∧
        script.clock m < deadline settings script.clock
  proceeds :
    (∃ reportId,
        reportIdFromTest (script.test n) = .ok reportId ∧
          w.reports =
            [reportUrl settings repr (reportId.or testId)] ∧
          result = fetchedReport repr testId script.report) ↔
      isText (stateOf (attributes n)) "completed" = true
  errored :
    (w.reports = [] ∧
        result = .error (erroredTest (attributes n))) ↔
      isText (stateOf (attributes n)) "error" = true
  timedOut :
    (w.reports = [] ∧
        result =
          .error (unfinishedTest testId (attributes n))) ↔
      ¬ FinishedAt attributes n
  reached :
    ¬ FinishedAt attributes n →
      deadline settings script.clock ≤ script.clock n

/- No value is both texts. -/
theorem isText_completed_error
    (value : Json) :
    ¬ (isText value "completed" = true ∧
        isText value "error" = true) := by
  rintro ⟨hCompleted, hError⟩
  cases value with
  | str s =>
      have hFirst := of_decide_eq_true hCompleted
      have hSecond := of_decide_eq_true hError
      rw [hFirst] at hSecond
      contradiction
  | _ => cases hCompleted

/-
  With a positive interval and a budget, whatever states the
  test reports and however the clock moves on: the polling
  ends within `ceil(budget / interval) + 1` polls, as the
  last of them decides.
-/
theorem pollAndFetch_polled
    {settings : GtmetrixSettings}
    {script : Script}
    {attributes : Nat → List (String × Json)}
    {rounds : Nat}
    (repr : Json → String)
    (testId : Json)
    (hKey : settings.apiKey ≠ "")
    (hInterval : 0 < settings.pollInterval)
    (hTicks : Ticks settings.pollInterval script.clock)
    (hFormed :
      ∀ k, WellFormed (script.test k) (attributes k))
    (hRounds : pollBound settings ≤ rounds) :
    ∃ n result w,
      (pollAndFetch settings repr rounds testId).run
          (script.serve (testUrl settings repr testId))
          .start =
        some (result, w) ∧
        Polled settings repr testId script attributes n
          result w := by
  have hPositive : (0 : Rat) < settings.pollInterval := by
    exact_mod_cast hInterval
  rcases
      run_pollTest (k := 1)
        (w := { Watch.start with readings := 1 }) hKey
        hInterval hTicks hFormed rounds rfl rfl (by omega)
        (by unfold pollBound; omega) with
    ⟨n, loop, readings, hStarted, hBounded, hBefore,
      hEnding, hLoop⟩
  have hCall := run_after_loop hKey hLoop
  have hInterval' :
      max (settings.pollInterval : Rat) 0 =
        settings.pollInterval :=
    max_eq_left (le_of_lt hPositive)
  rw [hInterval'] at hCall
  cases hEnding with
  | completed hState =>
      rcases reportIdFromTest_wellFormed (hFormed n) with
        ⟨reportId, hId⟩
      refine
        ⟨n, _, _, hCall.2 _ _ rfl hId, rfl, rfl, hStarted,
          hBounded, hBefore, ?_, ?_, ?_, ?_⟩
      · exact
          ⟨fun _ => hState,
            fun _ => ⟨reportId, hId, rfl, rfl⟩⟩
      · constructor
        · rintro ⟨hNone, _⟩
          cases hNone
        · intro hError
          exact
            absurd ⟨hState, hError⟩
              (isText_completed_error _)
      · constructor
        · rintro ⟨hNone, _⟩
          cases hNone
        · intro hUnfinished
          exact absurd (Or.inl hState) hUnfinished
      · intro hUnfinished
        exact absurd (Or.inl hState) hUnfinished
  | errored hOther hState =>
      refine
        ⟨n, _, _, hCall.1 _ rfl, rfl, rfl, hStarted,
          hBounded, hBefore, ?_, ?_, ?_, ?_⟩
      · constructor
        · rintro ⟨reportId, _, hReports, _⟩
          cases hReports
        · intro hCompleted
          exact absurd hCompleted hOther
      · exact ⟨fun _ => hState, fun _ => ⟨rfl, rfl⟩⟩
      · constructor
        · rintro ⟨_, hSame⟩
          cases hSame
        · intro hUnfinished
          exact absurd (Or.inr hState) hUnfinished
      · intro hUnfinished
        exact absurd (Or.inr hState) hUnfinished
  | timedOut hUnfinished hReached =>
      refine
        ⟨n, _, _, hCall.1 _ rfl, rfl, rfl, hStarted,
          hBounded, hBefore, ?_, ?_, ?_, ?_⟩
      · constructor
        · rintro ⟨reportId, _, hReports, _⟩
          cases hReports
        · intro hCompleted
          exact absurd (Or.inl hCompleted) hUnfinished
      · constructor
        · rintro ⟨_, hSame⟩
          cases hSame
        · intro hError
          exact absurd (Or.inr hError) hUnfinished
      · exact ⟨fun _ => hUnfinished, fun _ => ⟨rfl, rfl⟩⟩
      · intro _
        exact hReached

/- A poll every three seconds, for a minute at most. -/
def minute : GtmetrixSettings where
  apiKey := "key"
  baseUrl := "https://gtmetrix.com/api/2.0"
  requestTimeout := 30
  pollInterval := 3
  pollMaxSeconds := 60

/- The test is queued at the first poll, and then completed. -/
def queuedOnce (k : Nat) : List (String × Json) :=
  [("state", .str (if k = 1 then "queued" else "completed"))]

/- The clock stands still but for the sleeps. -/
def queuedScript : Script where
  test := fun k =>
    .obj
      [("data", .obj [("attributes", .obj (queuedOnce k))])]
  clock := fun k => 3 * k
  report := .response ⟨200, .json (.obj [])⟩

/- The polls of the queued test. -/
theorem pollAndFetch_polled_queued :
    ∃ n result w,
      (pollAndFetch minute (fun _ => "") (pollBound minute)
          (.str "t")).run
          (queuedScript.serve
            (testUrl minute (fun _ => "") (.str "t")))
          .start =
        some (result, w) ∧
        Polled minute (fun _ => "") (.str "t") queuedScript
          queuedOnce n result w := by
  apply pollAndFetch_polled (fun _ => "") (.str "t")
  · decide
  · decide
  · constructor
    · norm_num [queuedScript]
    · intro k _
      simp only [queuedScript, minute, Nat.cast_add,
        Nat.cast_one, Int.cast_ofNat]
      linarith
  · intro k
    refine
      ⟨_, _, rfl, rfl, rfl, ?_, ?_⟩
    · intro v hField
      cases hField
    · intro v hField
      cases hField
  · exact le_refl _

end SiteAnalysis.Gtmetrix
