import SiteAnalysis.Gtmetrix.Completion
import SiteAnalysis.Gtmetrix.Polling
import SiteAnalysis.Gtmetrix.Retries
import SiteAnalysis.Relational.Journal

/-
  This file proves when no attempt at a report polls a test
  that an earlier attempt has been shown in the state
  `error`.

  The id of a test is saved before the test is polled, and no
  save takes it back.  Every later attempt polls that test.

  Key definitions include:
    * `Exchange`
    * `Course`
    * `Tested`
    * `Resumed`
    * `PollsNoErrored`

  Key theorems include:
    * `wp_attempt_resumed`
    * `polls_of_course`
    * `pollsNoErrored_iff`
-/

------------------------------------------------------------
-- Exchanges
------------------------------------------------------------

namespace SiteAnalysis.Gtmetrix

open Concurrency
open Relational
open Python
open Reports

/- A request that has been answered. -/
structure Exchange where
  method : String
  url : String
  outcome : HttpOutcome

/- What an answer records. -/
def exchanged : (q : Statement) → q.Answer → List Exchange
| .httpRequest method url _ _ _, outcome =>
    [⟨method, url, outcome⟩]
| _, _ => []

namespace Exchange

/- The request polls the test with the id. -/
def Polls
    (settings : GtmetrixSettings)
    (repr : Json → String)
    (testId : Json)
    (x : Exchange) : Prop :=
  x.method = "GET" ∧ x.url = testUrl settings repr testId

/- The answer shows a test in the state. -/
def Shows
    (repr : Json → String)
    (state : String)
    (x : Exchange) : Prop :=
  ∃ testJson value,
    readResponse repr x.outcome = .ok testJson ∧
      testState testJson = .ok value ∧
        isText value state = true

end Exchange

/-
  The attempts at a report, up to `w` in the run of the last
  one, with what each of them has exchanged.  Each starts on
  what the one before has left, when that one has asked for
  it.
-/
inductive Course
    (settings : GtmetrixSettings)
    (repr : Json → String)
    (ok : TaskWorld → Event (Choice Exc Reply) → Prop)
    (reportId : ReportId)
    (d : Db) :
    Nat → TaskWorld → List (List Exchange) → Prop
  | first
      {rounds : Nat}
      {w : TaskWorld}
      {js : List Exchange}
      (hRun :
        (backend repr).machine.Records ok
          (recordAnswer exchanged) 0
          ((backend repr).soleWorld
            (runGtmetrixAnalysis settings repr rounds 0
              reportId)
            d)
          w js) :
      Course settings repr ok reportId d 0 w [js]
  | again
      {retries rounds : Nat}
      {v w : TaskWorld}
      {countdown : Option Nat}
      {jss : List (List Exchange)}
      {js : List Exchange}
      (hBefore :
        Course settings repr ok reportId d retries v jss)
      (hRetry :
        v.threads 0 = .live (.ret (.retry countdown)))
      (hRun :
        (backend repr).machine.Records ok
          (recordAnswer exchanged) 0
          ((backend repr).soleWorld
            (runGtmetrixAnalysis settings repr rounds
              (retries + 1) reportId)
            v.shared.committed)
          w js) :
      Course settings repr ok reportId d (retries + 1) w
        (jss ++ [js])

------------------------------------------------------------
-- Tested Reports
------------------------------------------------------------

section Resumption

variable {settings : GtmetrixSettings}
variable {repr : Json → String} {reportId : ReportId}
variable {d d' : Db} {js : List Exchange} {url : String}

/- The report is shown, and has a test with the URL. -/
def Tested
    (settings : GtmetrixSettings)
    (repr : Json → String)
    (reportId : ReportId)
    (url : String)
    (d : Db) : Prop :=
  ∃ row, d.find .gtmetrix reportId = some row ∧
    row.isDeleted = false ∧
      (testIdOf row).truthy = true ∧
        testUrl settings repr (testIdOf row) = url

/- Only the test with the URL has been polled. -/
def PollsOnly
    (settings : GtmetrixSettings)
    (repr : Json → String)
    (url : String)
    (js : List Exchange) : Prop :=
  ∀ x ∈ js, ∀ testId, x.Polls settings repr testId →
    settings.apiKey ≠ "" ∧
      testUrl settings repr testId = url

/- The URL has been asked for. -/
def Asked
    (url : String)
    (js : List Exchange) : Prop :=
  ∃ x ∈ js, x.method = "GET" ∧ x.url = url

/- A test at the URL was shown to be completed. -/
def ShownCompleted
    (repr : Json → String)
    (url : String)
    (js : List Exchange) : Prop :=
  ∃ x ∈ js, x.method = "GET" ∧ x.url = url ∧
    x.Shows repr "completed"

/- The report's test is the only one that is polled. -/
structure Resumed
    (settings : GtmetrixSettings)
    (repr : Json → String)
    (reportId : ReportId)
    (url : String)
    (d : Db)
    (js : List Exchange) : Prop where
  tested : Tested settings repr reportId url d
  only : PollsOnly settings repr url js
  asked : settings.apiKey ≠ "" → Asked url js

/- No test is polled but that of the report. -/
def Consistent
    (settings : GtmetrixSettings)
    (repr : Json → String)
    (reportId : ReportId)
    (d : Db)
    (js : List Exchange) : Prop :=
  (∃ url, Tested settings repr reportId url d ∧
      PollsOnly settings repr url js) ∨
    ∀ x ∈ js, x.method ≠ "GET"

/- The property reads the report's test only. -/
def Stable
    (settings : GtmetrixSettings)
    (repr : Json → String)
    (reportId : ReportId)
    (P : Db → List Exchange → Prop) : Prop :=
  ∀ d d' js,
    (∀ url, Tested settings repr reportId url d →
        Tested settings repr reportId url d') →
      P d js → P d' js

theorem stable_resumed :
    Stable settings repr reportId
      (Resumed settings repr reportId url) :=
  fun _ _ _ hKept hResumed =>
    ⟨hKept url hResumed.tested, hResumed.only,
      hResumed.asked⟩

theorem stable_consistent :
    Stable settings repr reportId
      (Consistent settings repr reportId) := by
  rintro d d' js hKept (⟨url, hTested, hOnly⟩ | hNone)
  · exact Or.inl ⟨url, hKept url hTested, hOnly⟩
  · exact Or.inr hNone

/- A report has one test. -/
theorem Tested.unique
    {url' : String}
    (hTested : Tested settings repr reportId url d)
    (hOther : Tested settings repr reportId url' d) :
    url = url' := by
  rcases hTested with ⟨row, hFind, _, _, rfl⟩
  rcases hOther with ⟨row', hFind', _, _, rfl⟩
  rw [hFind] at hFind'
  cases hFind'
  rfl

theorem Tested.of_reports
    (hTested : Tested settings repr reportId url d)
    (hReports : d'.reports = d.reports) :
    Tested settings repr reportId url d' := by
  unfold Tested Db.find at hTested ⊢
  rw [hReports]
  exact hTested

/- The text of a test id that counts is not empty. -/
theorem toStr_ne_empty
    {testId : Json}
    (hRepr : ∀ v, repr v ≠ "")
    (hTruthy : testId.truthy = true) :
    testId.toStr repr ≠ "" := by
  cases testId with
  | null => cases hTruthy
  | bool b =>
      cases b with
      | false => cases hTruthy
      | true =>
          change "True" ≠ ""
          decide
  | int n =>
      intro hEmpty
      have hShown : n.repr = "" := hEmpty
      rw [Int.repr_eq_if] at hShown
      split at hShown
      · exact Nat.repr_ne_empty hShown
      · simp at hShown
  | str s =>
      simpa [Json.truthy, Json.toStr] using hTruthy
  | float x => exact hRepr _
  | arr items => exact hRepr _
  | obj fields => exact hRepr _

/- The test id is stored as text. -/
theorem testIdOf_of_prepare
    {object row : GTmetrixReport}
    (hPrepare : object.prepare repr = .ok row)
    (hTruthy : (testIdOf object).truthy = true) :
    testIdOf row = .str ((testIdOf object).toStr repr) := by
  simp only [Report.prepare, prepareColumns, bind_eq_ok_iff]
    at hPrepare
  rcases hPrepare with ⟨columns, ⟨_, _, hColumns⟩, hRow⟩
  cases hColumns
  cases hRow
  apply stored_of_prepare
  unfold testIdOf at hTruthy ⊢
  cases hId : object.columns.values .testId with
  | null =>
      rw [hId] at hTruthy
      cases hTruthy
  | _ => rfl

/- A saved report has the test that was assigned to it. -/
theorem tested_putReport
    (settings : GtmetrixSettings)
    {object row : GTmetrixReport}
    (hRepr : ∀ v, repr v ≠ "")
    (hPrepare : object.prepare repr = .ok row)
    (hShown : object.isDeleted = false)
    (hTruthy : (testIdOf object).truthy = true) :
    Tested settings repr object.id
      (testUrl settings repr (testIdOf object))
      (putReport row d) := by
  have hEq := Report.eq_of_prepare hPrepare
  have hTest := testIdOf_of_prepare hPrepare hTruthy
  have hId : row.id = object.id := by rw [hEq]
  refine ⟨row, ?_, ?_, ?_, ?_⟩
  · rw [← hId]
    exact find_putReport_self row d
  · rw [hEq]
    exact hShown
  · rw [hTest]
    simpa [Json.truthy] using toStr_ne_empty hRepr hTruthy
  · rw [hTest]
    rfl

------------------------------------------------------------
-- Statements
------------------------------------------------------------

/- An attempt, with what it exchanges. -/
abbrev attemptJournal
    (repr : Json → String) :
    Serial (backend repr) TaskOutcome (List Exchange) :=
  Serial.journal (backend repr) Answers exchanged

variable
  {l :
    Regime.Local Db HistoryKey Unit (Option Db)
      (List Exchange)}

/- The reports are those of `d`. -/
def Since
    (d : Db)
    (js : List Exchange)
    (l :
      Regime.Local Db HistoryKey Unit (Option Db)
        (List Exchange)) : Prop :=
  ∃ d', d'.reports = d.reports ∧ Serial.Outside d' js l

/- What the attempt has left satisfies `P`. -/
def Leaves
    (P : Db → List Exchange → Prop)
    (l :
      Regime.Local Db HistoryKey Unit (Option Db)
        (List Exchange)) : Prop :=
  ∃ d js, Serial.Outside d js l ∧ P d js

theorem answers_reliable
    (w : TaskWorld)
    (t : Tid)
    (e : Exc) : ¬ Answers w (.step t (.fault e)) :=
  fun hFault => hFault

/- The clock, a sleep, or the end of the look at a loop. -/
theorem wp_pause
    {q : Statement}
    {E : Exc →
      Regime.Local Db HistoryKey Unit (Option Db)
        (List Exchange) → Prop}
    (hSince : Since d js l)
    (hRecord : ∀ a, exchanged q a = [])
    (hOutside : ∀ d, plan repr q d = .outside) :
    (attemptJournal repr).wp (query q)
      (fun _ => Since d js) E l := by
  rcases hSince with ⟨d₁, hReports, hRest⟩
  apply Serial.wp_execute_journal answers_reliable hRest
  · intro x a d₂ hReply l' hRest'
    rw [hRecord, List.append_nil] at hRest'
    exact
      ⟨d₂, (reports_of_reply hReply).trans hReports, hRest'⟩
  · intro a lock f hCase
    cases (hOutside d₁).symm.trans hCase
  · intro e l' _ hCase
    rcases hCase with hCase | hCase
    · cases (hOutside d₁).symm.trans hCase
    · cases (hOutside d₁).symm.trans hCase

/- What is read raises, or goes on. -/
theorem wp_read_journal
    {β : Type}
    {Q : β →
      Regime.Local Db HistoryKey Unit (Option Db)
        (List Exchange) → Prop}
    {E : Exc →
      Regime.Local Db HistoryKey Unit (Option Db)
        (List Exchange) → Prop}
    (r : Except Exc β)
    (hRet : ∀ b, r = .ok b → Q b l)
    (hRaise : ∀ e, r = .error e → E e l) :
    (attemptJournal repr).wp (Prog.ofExcept r) Q E l := by
  cases r with
  | ok b => exact hRet b rfl
  | error e => exact hRaise e rfl

/- A request is answered, unless there is no key. -/
theorem wp_request_journal
    {method path : String}
    {json : Option Json}
    (hSince : Since d js l) :
    (attemptJournal repr).wp
      (request settings repr method path json)
      (fun value l' =>
        settings.apiKey ≠ "" ∧
          ∃ outcome,
            readResponse repr outcome = .ok value ∧
              Since d
                (js ++
                  [⟨method, apiUrl settings path, outcome⟩])
                l')
      (fun _ l' =>
        (settings.apiKey = "" ∧ Since d js l') ∨
          (settings.apiKey ≠ "" ∧
            ∃ outcome,
              Since d
                (js ++
                  [⟨method, apiUrl settings path, outcome⟩])
                l'))
      l := by
  unfold request
  split
  · rename_i hKey
    exact Or.inl ⟨hKey, hSince⟩
  · rename_i hKey
    rcases hSince with ⟨d₁, hReports, hRest⟩
    apply Discipline.wp_bind
    apply Serial.wp_execute_journal answers_reliable hRest
    · intro x outcome d₂ hReply l' hRest'
      have hSince' :
          Since d
            (js ++ [⟨method, apiUrl settings path, outcome⟩])
            l' :=
        ⟨d₂, (reports_of_reply hReply).trans hReports,
          hRest'⟩
      apply wp_read_journal
      · intro value hRead
        exact ⟨hKey, outcome, hRead, hSince'⟩
      · intro e _
        exact Or.inr ⟨hKey, outcome, hSince'⟩
    · intro a lock f hCase
      cases hCase
    · intro e l' _ hCase
      rcases hCase with hCase | hCase
      · cases hCase
      · cases hCase

------------------------------------------------------------
-- Journals
------------------------------------------------------------

theorem PollsOnly.poll
    {testId : Json}
    {outcome : HttpOutcome}
    (hOnly :
      PollsOnly settings repr
        (testUrl settings repr testId) js)
    (hKey : settings.apiKey ≠ "") :
    PollsOnly settings repr (testUrl settings repr testId)
      (js ++
        [⟨"GET", testUrl settings repr testId, outcome⟩]) := by
  intro x hMem testId' hPolls
  rcases List.mem_append.mp hMem with hMem | hMem
  · exact hOnly x hMem testId' hPolls
  · rw [List.mem_singleton.mp hMem] at hPolls
    exact ⟨hKey, hPolls.2.symm⟩

theorem PollsOnly.fetch
    {reportId : Json}
    {outcome : HttpOutcome}
    (hOnly : PollsOnly settings repr url js) :
    PollsOnly settings repr url
      (js ++
        [⟨"GET", reportUrl settings repr reportId,
          outcome⟩]) := by
  intro x hMem testId' hPolls
  rcases List.mem_append.mp hMem with hMem | hMem
  · exact hOnly x hMem testId' hPolls
  · rw [List.mem_singleton.mp hMem] at hPolls
    exact
      absurd hPolls.2 (reportUrl_ne_testUrl settings repr _ _)

/- Requests that are not polls. -/
theorem pollsOnly_of_methods
    (hNone : ∀ x ∈ js, x.method ≠ "GET") :
    PollsOnly settings repr url js :=
  fun x hMem _ hPolls => absurd hPolls.1 (hNone x hMem)

theorem Asked.append
    {more : List Exchange}
    (hAsked : Asked url js) : Asked url (js ++ more) := by
  rcases hAsked with ⟨x, hMem, hAsks⟩
  exact ⟨x, List.mem_append_left more hMem, hAsks⟩

theorem ShownCompleted.append
    {more : List Exchange}
    (hShown : ShownCompleted repr url js) :
    ShownCompleted repr url (js ++ more) := by
  rcases hShown with ⟨x, hMem, hShows⟩
  exact ⟨x, List.mem_append_left more hMem, hShows⟩

theorem asked_last
    {outcome : HttpOutcome} :
    Asked url (js ++ [⟨"GET", url, outcome⟩]) :=
  ⟨_, List.mem_append_right js (List.mem_singleton.mpr rfl),
    rfl, rfl⟩

theorem shownCompleted_last
    {outcome : HttpOutcome}
    (hShows :
      Exchange.Shows repr "completed" ⟨"GET", url, outcome⟩) :
    ShownCompleted repr url
      (js ++ [⟨"GET", url, outcome⟩]) :=
  ⟨_, List.mem_append_right js (List.mem_singleton.mpr rfl),
    rfl, rfl, hShows⟩

------------------------------------------------------------
-- Polls
------------------------------------------------------------

/- Only the test is polled, and it has been asked for. -/
structure PolledSince
    (settings : GtmetrixSettings)
    (repr : Json → String)
    (url : String)
    (d : Db)
    (js : List Exchange)
    (l :
      Regime.Local Db HistoryKey Unit (Option Db)
        (List Exchange)) : Prop where
  since : Since d js l
  only : PollsOnly settings repr url js
  asked : settings.apiKey ≠ "" → Asked url js

/- The loop polls one test, and ends when it is completed. -/
theorem wp_pollTest_journal
    {testId : Json}
    (deadline : Rat)
    (rounds : Nat)
    (hSince : Since d js l)
    (hOnly :
      PollsOnly settings repr
        (testUrl settings repr testId) js) :
    (attemptJournal repr).wp
      (pollTest settings repr testId deadline rounds)
      (fun _ l' => ∃ js',
        PolledSince settings repr
            (testUrl settings repr testId) d js' l' ∧
          ShownCompleted repr (testUrl settings repr testId)
            js')
      (fun _ l' => ∃ js',
        PolledSince settings repr
          (testUrl settings repr testId) d js' l')
      l := by
  induction rounds generalizing js l with
  | zero =>
      apply Discipline.wp_bind
      apply Discipline.wp_mono
        (wp_pause (E := fun _ _ => False) hSince
          (fun a => Empty.elim a) (fun _ => rfl))
      · intro never
        exact Empty.elim never
      · intro _ _ hFalse
        exact hFalse.elim
  | succ rounds ih =>
      apply Discipline.wp_bind
      apply Discipline.wp_mono (wp_request_journal hSince)
      · rintro testJson l₁ ⟨hKey, outcome, hRead, hSince₁⟩
        have hPolled :
            PolledSince settings repr
              (testUrl settings repr testId) d _ l₁ :=
          ⟨hSince₁, hOnly.poll hKey, fun _ => asked_last⟩
        apply Discipline.wp_bind
        apply wp_read_journal
        · intro state hState
          split
          · rename_i hCompleted
            refine ⟨_, hPolled, shownCompleted_last ?_⟩
            exact
              ⟨testJson, state, hRead,
                fromPython_eq_ok.mp hState, hCompleted⟩
          · split
            · apply Discipline.wp_bind
              apply wp_read_journal
              · intro error _
                exact ⟨_, hPolled⟩
              · intro e _
                exact ⟨_, hPolled⟩
            · apply Discipline.wp_bind
              apply Discipline.wp_mono
                (wp_pause (E := fun _ _ => False) hSince₁
                  (fun _ => rfl) (fun _ => rfl))
              · intro now l₂ hSince₂
                split
                · exact
                    ⟨_, hSince₂, hPolled.only, hPolled.asked⟩
                · apply Discipline.wp_bind
                  apply Discipline.wp_mono
                    (wp_pause (E := fun _ _ => False) hSince₂
                      (fun _ => rfl) (fun _ => rfl))
                  · intro _ l₃ hSince₃
                    exact ih hSince₃ hPolled.only
                  · intro _ _ hFalse
                    exact hFalse.elim
              · intro _ _ hFalse
                exact hFalse.elim
        · intro e _
          exact ⟨_, hPolled⟩
      · rintro e l₁ (⟨hKey, hSince₁⟩ |
          ⟨hKey, outcome, hSince₁⟩)
        · exact
            ⟨_, hSince₁, hOnly, fun hSome => absurd hKey hSome⟩
        · exact
            ⟨_, hSince₁, hOnly.poll hKey, fun _ => asked_last⟩

/- The test is polled, and its report is fetched. -/
theorem wp_pollAndFetch_journal
    {testId : Json}
    (rounds : Nat)
    (hSince : Since d js l)
    (hOnly :
      PollsOnly settings repr
        (testUrl settings repr testId) js) :
    (attemptJournal repr).wp
      (pollAndFetch settings repr rounds testId)
      (fun result l' => result.testId = testId ∧
        ∃ js',
          PolledSince settings repr
              (testUrl settings repr testId) d js' l' ∧
            ShownCompleted repr
              (testUrl settings repr testId) js')
      (fun _ l' => ∃ js',
        PolledSince settings repr
          (testUrl settings repr testId) d js' l')
      l := by
  apply Discipline.wp_bind
  apply Discipline.wp_mono
    (wp_pause (E := fun _ _ => False) hSince
      (fun _ => rfl) (fun _ => rfl))
  · intro start l₁ hSince₁
    apply Discipline.wp_bind
    apply Discipline.wp_mono
      (wp_pollTest_journal _ rounds hSince₁ hOnly)
    · rintro testJson l₂ ⟨js₂, hPolled, hShown⟩
      apply Discipline.wp_bind
      apply wp_read_journal
      · intro reportId _
        apply Discipline.wp_bind
        apply Discipline.wp_mono
          (wp_request_journal hPolled.since)
        · rintro reportJson l₃ ⟨_, outcome, _, hSince₃⟩
          have hFetched :
              PolledSince settings repr
                (testUrl settings repr testId) d _ l₃ :=
            ⟨hSince₃, hPolled.only.fetch,
              fun hKey => (hPolled.asked hKey).append⟩
          apply Discipline.wp_bind
          apply wp_read_journal
          · intro metrics _
            exact ⟨rfl, _, hFetched, hShown.append⟩
          · intro e _
            exact ⟨_, hFetched⟩
        · rintro e l₃ (⟨_, hSince₃⟩ | ⟨_, outcome, hSince₃⟩)
          · exact ⟨_, hSince₃, hPolled.only, hPolled.asked⟩
          · exact
              ⟨_, hSince₃, hPolled.only.fetch,
                fun hKey => (hPolled.asked hKey).append⟩
      · intro e _
        exact ⟨_, hPolled⟩
    · intro e l₂ hPolled
      exact hPolled
  · intro _ _ hFalse
    exact hFalse.elim

------------------------------------------------------------
-- One Attempt
------------------------------------------------------------

/- The report of the test has been fetched. -/
def Fetched
    (settings : GtmetrixSettings)
    (repr : Json → String)
    (reportId : ReportId)
    (P : Db → List Exchange → Prop)
    (result : FetchedReport)
    (l :
      Regime.Local Db HistoryKey Unit (Option Db)
        (List Exchange)) : Prop :=
  result.testId.truthy = true ∧
    Leaves
      (fun d js => P d js ∧
        Tested settings repr reportId
            (testUrl settings repr result.testId) d ∧
          ShownCompleted repr
            (testUrl settings repr result.testId) js)
      l

theorem PolledSince.leaves
    {P : Db → List Exchange → Prop}
    (hPolled : PolledSince settings repr url d js l)
    (hTested : Tested settings repr reportId url d)
    (hImp :
      ∀ d', Resumed settings repr reportId url d' js →
        P d' js) :
    Leaves P l := by
  rcases hPolled.since with ⟨d', hReports, hRest⟩
  refine ⟨d', js, hRest, hImp d' ?_⟩
  exact
    ⟨hTested.of_reports hReports, hPolled.only,
      hPolled.asked⟩

/- The polls of the report's test, and the fetch. -/
theorem wp_fetch_journal
    {P : Db → List Exchange → Prop}
    {testId : Json}
    (rounds : Nat)
    (hSince : Since d js l)
    (hTested :
      Tested settings repr reportId
        (testUrl settings repr testId) d)
    (hTruthy : testId.truthy = true)
    (hOnly :
      PollsOnly settings repr
        (testUrl settings repr testId) js)
    (hImp :
      ∀ d' js',
        Resumed settings repr reportId
            (testUrl settings repr testId) d' js' →
          P d' js') :
    (attemptJournal repr).wp
      (pollAndFetch settings repr rounds testId)
      (Fetched settings repr reportId P)
      (fun _ => Leaves P) l := by
  apply Discipline.wp_mono
    (wp_pollAndFetch_journal rounds hSince hOnly)
  · rintro result l' ⟨hId, js', hPolled, hShown⟩
    refine ⟨by rw [hId]; exact hTruthy, ?_⟩
    rw [hId]
    exact
      hPolled.leaves hTested
        (fun d' hResumed =>
          ⟨hImp d' js' hResumed, hResumed.tested, hShown⟩)
  · rintro e l' ⟨js', hPolled⟩
    exact
      hPolled.leaves hTested
        (fun d' hResumed => hImp d' js' hResumed)

/- An attempt at a report that has a test. -/
theorem wp_runTest_tested
    {row : GTmetrixReport}
    (rounds : Nat)
    (hRest : Serial.Outside d [] l)
    (hFind : d.find .gtmetrix reportId = some row)
    (hShown : row.isDeleted = false)
    (hTruthy : (testIdOf row).truthy = true) :
    (attemptJournal repr).wp
      (runTest settings repr rounds row)
      (Fetched settings repr reportId
        (Resumed settings repr reportId
          (testUrl settings repr (testIdOf row))))
      (fun _ =>
        Leaves
          (Resumed settings repr reportId
            (testUrl settings repr (testIdOf row))))
      l := by
  unfold runTest ensureTest
  rw [if_pos hTruthy]
  apply
    wp_fetch_journal rounds ⟨d, rfl, hRest⟩
      ⟨row, hFind, hShown, hTruthy, rfl⟩ hTruthy
      (pollsOnly_of_methods (fun x hMem => by cases hMem))
  intro d' js' hResumed
  exact hResumed

theorem testIdOf_setTestId
    (testId : Json)
    (report : GTmetrixReport) :
    testIdOf (setTestId testId report) = testId := by
  simp [testIdOf, setTestId]

/- The id of the test that was started is saved. -/
theorem wp_saveTestId_journal
    (settings : GtmetrixSettings)
    {row : GTmetrixReport}
    {testId : Json}
    (hRepr : ∀ v, repr v ≠ "")
    (hSince : Since d js l)
    (hFind : d.find .gtmetrix reportId = some row)
    (hShown : row.isDeleted = false)
    (hTruthy : testId.truthy = true) :
    (attemptJournal repr).wp
      (query
        (.saveReportFields .gtmetrix (setTestId testId row)
          [.testId]))
      (fun _ => Leaves
        (fun d' js' => js' = js ∧
          Tested settings repr reportId
            (testUrl settings repr testId) d'))
      (fun _ => Since d js) l := by
  rcases hSince with ⟨d₁, hReports, hRest⟩
  have hId : row.id = reportId := id_of_find hFind
  have hFound :
      d₁.find .gtmetrix (setTestId testId row).id =
        some row := by
    unfold Db.find at hFind ⊢
    rw [hReports]
    change Table.find Report.id row.id _ = _
    rw [hId]
    exact hFind
  apply Serial.wp_execute_journal answers_reliable hRest
  · intro x a d₂ hReply
    cases hReply
  · intro a lock f hCase l' hRest'
    simp only [backend, plan, hFound, assign_setTestId]
      at hCase
    rcases writeReport_eq_done hCase with
      ⟨_, stored, hPrepare, _, rfl⟩
    have hRest₂ :
        Serial.Outside (putReport stored d₁) js l' := by
      simpa [exchanged] using hRest'
    have hTested :=
      tested_putReport settings (d := d₁)
        hRepr hPrepare hShown
        (by rw [testIdOf_setTestId]; exact hTruthy)
    rw [testIdOf_setTestId] at hTested
    have hSame : (setTestId testId row).id = reportId := hId
    rw [hSame] at hTested
    exact ⟨_, js, hRest₂, rfl, hTested⟩
  · intro e l' hRest' _
    exact ⟨d₁, hReports, hRest'⟩

/- An attempt at a report that has no test. -/
theorem wp_runTest_fresh
    {row : GTmetrixReport}
    (rounds : Nat)
    (hRepr : ∀ v, repr v ≠ "")
    (hRest : Serial.Outside d [] l)
    (hFind : d.find .gtmetrix reportId = some row)
    (hShown : row.isDeleted = false)
    (hNone : (testIdOf row).truthy = false) :
    (attemptJournal repr).wp
      (runTest settings repr rounds row)
      (Fetched settings repr reportId
        (Consistent settings repr reportId))
      (fun _ =>
        Leaves (Consistent settings repr reportId))
      l := by
  have hFails :
      ∀ js l', (∀ x ∈ js, x.method ≠ "GET") →
        Since d js l' →
          Leaves (Consistent settings repr reportId) l' := by
    rintro js l' hMethods ⟨d', _, hRest'⟩
    exact ⟨d', js, hRest', Or.inr hMethods⟩
  have hPosted :
      ∀ outcome,
        ∀ x ∈ [(⟨"POST", apiUrl settings "tests", outcome⟩ :
            Exchange)],
          x.method ≠ "GET" := by
    intro outcome x hMem
    rw [List.mem_singleton.mp hMem]
    change "POST" ≠ "GET"
    decide
  unfold runTest ensureTest
  rw [if_neg (Bool.eq_false_iff.mp hNone)]
  apply Discipline.wp_bind
  apply Discipline.wp_bind
  apply Discipline.wp_bind
  apply Discipline.wp_mono
    (wp_request_journal ⟨d, rfl, hRest⟩)
  · rintro data l₁ ⟨_, outcome, _, hSince₁⟩
    apply wp_read_journal
    · intro testId hRead
      have hTruthy := truthy_of_readTestId hRead
      apply Discipline.wp_bind
      apply Discipline.wp_mono
        (wp_saveTestId_journal settings hRepr hSince₁ hFind
          hShown hTruthy)
      · rintro _ l₂ ⟨d₂, js₂, hRest₂, rfl, hTested⟩
        apply
          wp_fetch_journal rounds ⟨d₂, rfl, hRest₂⟩ hTested
            hTruthy (pollsOnly_of_methods (hPosted outcome))
        intro d' js' hResumed
        exact Or.inl ⟨_, hResumed.tested, hResumed.only⟩
      · intro e l₂ hSince₂
        exact hFails _ l₂ (hPosted outcome) hSince₂
    · intro e _
      exact hFails _ l₁ (hPosted outcome) hSince₁
  · rintro e l₁ (⟨_, hSince₁⟩ | ⟨_, outcome, hSince₁⟩)
    · exact hFails _ l₁ (fun x hMem => by cases hMem) hSince₁
    · exact hFails _ l₁ (hPosted outcome) hSince₁

/- A save that leaves the test, and does not delete. -/
theorem tested_saved
    {object row stored : GTmetrixReport}
    (hRepr : ∀ v, repr v ≠ "")
    (hFind : d.find .gtmetrix row.id = some row)
    (hPrepare : object.prepare repr = .ok stored)
    (hId : object.id = row.id)
    (hShown : object.isDeleted = row.isDeleted)
    (hTest :
      ∀ url, Tested settings repr row.id url d →
        (testIdOf object).truthy = true ∧
          testUrl settings repr (testIdOf object) = url)
    (hTested : Tested settings repr row.id url d) :
    Tested settings repr row.id url (putReport stored d) := by
  rcases hTest url hTested with ⟨hTruthy, hUrl⟩
  rcases hTested with ⟨row', hFind', hLive, _, _⟩
  rw [hFind] at hFind'
  cases hFind'
  have hSaved :=
    tested_putReport settings (d := d) hRepr
      hPrepare (hShown.trans hLive) hTruthy
  rw [hId, hUrl] at hSaved
  exact hSaved

/- The handler leaves the report's test. -/
theorem wp_failReport_journal
    {β : Type}
    {P : Db → List Exchange → Prop}
    {report : GTmetrixReport}
    {e : Exc}
    (hRepr : ∀ v, repr v ≠ "")
    (hStable : Stable settings repr reportId P)
    (hId : report.id = reportId)
    (hLeaves : Leaves P l) :
    (attemptJournal repr).wp
      (failReport .gtmetrix report e : Service β)
      (fun _ _ => False) (fun _ => Leaves P) l := by
  rcases hLeaves with ⟨d, js, hRest, hP⟩
  apply Discipline.wp_bind
  apply Serial.wp_execute_journal answers_reliable hRest
  · intro x a d' hReply
    cases hReply
  · intro a lock f hCase l' hRest'
    have hRest₁ : Serial.Outside (f d) js l' := by
      simpa [exchanged] using hRest'
    simp only [backend, plan] at hCase
    split at hCase
    · cases hCase
    · rename_i row hFind
      rcases writeReport_eq_done hCase with
        ⟨_, stored, hPrepare, _, rfl⟩
      have hRow : row.id = reportId :=
        (id_of_find hFind).trans hId
      have hFound : d.find .gtmetrix row.id = some row := by
        rw [hRow, ← hId]
        exact hFind
      refine ⟨_, js, hRest₁, hStable d _ js ?_ hP⟩
      intro url hTested
      rw [← hRow] at hTested ⊢
      rw [assign_failedReport] at hPrepare
      apply
        tested_saved hRepr hFound hPrepare rfl rfl _ hTested
      rintro url' ⟨row', hFind', _, hTruthy, hUrl⟩
      rw [hFound] at hFind'
      cases hFind'
      exact ⟨hTruthy, hUrl⟩
  · intro e' l' hRest' _
    exact ⟨d, js, hRest', hP⟩

/- What an attempt leaves when it returns. -/
def Concluded
    (settings : GtmetrixSettings)
    (repr : Json → String)
    (reportId : ReportId)
    (P : Db → List Exchange → Prop)
    (outcome : TaskOutcome)
    (l :
      Regime.Local Db HistoryKey Unit (Option Db)
        (List Exchange)) : Prop :=
  Leaves
    (fun d js => P d js ∧
      (outcome = .returned "completed" →
        ∃ url, Tested settings repr reportId url d ∧
          ShownCompleted repr url js))
    l

/- The service, from what its `try` block leaves. -/
theorem wp_processGtmetrix_journal
    {P : Db → List Exchange → Prop}
    {rounds : Nat}
    (hRepr : ∀ v, repr v ≠ "")
    (hStable : Stable settings repr reportId P)
    (hRest : Serial.Outside d [] l)
    (hMissing :
      (∀ row, d.find .gtmetrix reportId = some row →
          row.isDeleted = true) → P d [])
    (hRun :
      ∀ row l', d.find .gtmetrix reportId = some row →
        row.isDeleted = false → Serial.Outside d [] l' →
          (attemptJournal repr).wp
            (runTest settings repr rounds row)
            (Fetched settings repr reportId P)
            (fun _ => Leaves P) l') :
    (attemptJournal repr).wp
      (processGtmetrix settings repr rounds reportId)
      (fun report =>
        Concluded settings repr reportId P
          (.returned report.status.value))
      (fun _ => Leaves P) l := by
  apply Discipline.wp_bind
  apply Serial.wp_execute_journal answers_reliable hRest
  · intro x a d' hReply
    cases hReply
  · intro report lock f hCase l₁ hRest₁
    simp only [backend, plan] at hCase
    split at hCase
    · rename_i row hRow
      cases hCase
      rw [Option.filter_eq_some_iff] at hRow
      rcases hRow with ⟨hFind, hLive⟩
      have hShown : report.isDeleted = false := by
        simpa [liveReport] using hLive
      have hId : report.id = reportId := id_of_find hFind
      apply Discipline.wp_bind
      apply Discipline.wp_tryCatch
      apply
        Discipline.wp_mono
          (hRun report l₁ hFind hShown
            (by simpa [exchanged] using hRest₁))
      · rintro result l₂
          ⟨hTruthy, d₂, js, hRest₂, hP, hTested, hDone⟩
        apply Discipline.wp_bind
        apply Serial.wp_execute_journal answers_reliable hRest₂
        · intro x a d' hReply
          cases hReply
        · intro a lock f hWrite l₃ hRest₃
          rcases writeReport_eq_done hWrite with
            ⟨_, stored, hPrepare, _, rfl⟩
          have hTest :
              testIdOf (completedReport report result) =
                result.testId := by
            simp [testIdOf, completedReport]
          have hSame :
              (completedReport report result).id =
                reportId := hId
          have hSaved :=
            tested_putReport settings (d := d₂)
              hRepr hPrepare hShown
              (by rw [hTest]; exact hTruthy)
          rw [hTest, hSame] at hSaved
          refine
            ⟨_, js, by simpa [exchanged] using hRest₃, ?_,
              fun _ => ⟨_, hSaved, hDone⟩⟩
          apply hStable d₂ _ js _ hP
          intro url hOther
          rw [← hTested.unique hOther]
          exact hSaved
        · intro e l₃ hRest₃ _
          exact ⟨d₂, js, hRest₃, hP⟩
      · intro e l₂ hLeaves
        apply
          Discipline.wp_mono
            (wp_failReport_journal hRepr hStable hId hLeaves)
        · intro _ _ hFalse
          exact hFalse.elim
        · intro e' l₃ hLeaves'
          exact hLeaves'
    · cases hCase
  · intro e l' hRest' hCase
    refine ⟨d, [], hRest', hMissing ?_⟩
    intro row hFind
    by_contra hShown
    have hLive :
        (d.find .gtmetrix reportId).filter liveReport =
          some row := by
      rw [hFind]
      simp [Option.filter, liveReport, hShown]
    simp only [backend, plan, hLive] at hCase
    rcases hCase with hCase | hCase
    · cases hCase
    · cases hCase

/- One attempt, from what its service leaves. -/
theorem wp_attempt_journal
    {P : Db → List Exchange → Prop}
    {rounds : Nat}
    (retries : Nat)
    (hProcess :
      (attemptJournal repr).wp
        (processGtmetrix settings repr rounds reportId)
        (fun report =>
          Concluded settings repr reportId P
            (.returned report.status.value))
        (fun _ => Leaves P) l) :
    (attemptJournal repr).wp
      (runGtmetrixAnalysis settings repr rounds retries
        reportId)
      (Concluded settings repr reportId P)
      (fun _ => Leaves P) l := by
  apply Discipline.wp_handle
  apply Discipline.wp_mono hProcess
  · intro report l' hConcluded
    exact hConcluded
  · rintro e l' ⟨d, js, hRest, hP⟩
    have hOther :
        ∀ outcome, outcome ≠ .returned "completed" →
          Concluded settings repr reportId P outcome l' := by
      intro outcome hNe
      exact
        ⟨d, js, hRest, hP, fun hSame => absurd hSame hNe⟩
    unfold handleFailure
    split
    · exact hOther _ (by decide)
    · split
      · exact hOther _ (by decide)
      · split
        · split
          · exact hOther _ (by decide)
          · apply hOther
            intro hSame
            cases hSame
        · exact ⟨d, js, hRest, hP⟩

/- The only polls of an attempt are of the report's test. -/
theorem wp_attempt_consistent
    {rounds : Nat}
    (retries : Nat)
    (hRepr : ∀ v, repr v ≠ "")
    (hRest : Serial.Outside d [] l) :
    (attemptJournal repr).wp
      (runGtmetrixAnalysis settings repr rounds retries
        reportId)
      (Concluded settings repr reportId
        (Consistent settings repr reportId))
      (fun _ => Leaves (Consistent settings repr reportId))
      l := by
  apply wp_attempt_journal retries
  apply
    wp_processGtmetrix_journal hRepr stable_consistent hRest
  · intro _
    exact Or.inr (fun x hMem => by cases hMem)
  · intro row l' hFind hShown hRest'
    cases hTruthy : (testIdOf row).truthy with
    | false =>
        exact
          wp_runTest_fresh rounds hRepr hRest' hFind hShown
            hTruthy
    | true =>
        have hImp :
            ∀ d' js',
              Resumed settings repr reportId
                  (testUrl settings repr (testIdOf row)) d'
                  js' →
                Consistent settings repr reportId d' js' :=
          fun _ _ hResumed =>
            Or.inl ⟨_, hResumed.tested, hResumed.only⟩
        apply Discipline.wp_mono
          (wp_runTest_tested rounds hRest' hFind hShown
            hTruthy)
        · rintro result l₂ ⟨hId, d₂, js, hRest₂, hP, hDone⟩
          exact ⟨hId, d₂, js, hRest₂, hImp d₂ js hP, hDone⟩
        · rintro e l₂ ⟨d₂, js, hRest₂, hP⟩
          exact ⟨d₂, js, hRest₂, hImp d₂ js hP⟩

/- An attempt at a report that has a test asks for it. -/
theorem wp_attempt_resumed
    {rounds : Nat}
    (retries : Nat)
    (hRepr : ∀ v, repr v ≠ "")
    (hTested : Tested settings repr reportId url d)
    (hRest : Serial.Outside d [] l) :
    (attemptJournal repr).wp
      (runGtmetrixAnalysis settings repr rounds retries
        reportId)
      (Concluded settings repr reportId
        (Resumed settings repr reportId url))
      (fun _ => Leaves (Resumed settings repr reportId url))
      l := by
  rcases hTested with ⟨row, hFind, hShown, hTruthy, rfl⟩
  apply wp_attempt_journal retries
  apply wp_processGtmetrix_journal hRepr stable_resumed hRest
  · intro hDeleted
    rw [hDeleted row hFind] at hShown
    cases hShown
  · intro row' l' hFind' hShown' hRest'
    rw [hFind] at hFind'
    cases hFind'
    exact
      wp_runTest_tested rounds hRest' hFind hShown hTruthy

------------------------------------------------------------
-- Attempts
------------------------------------------------------------

variable {retries : Nat} {w : TaskWorld}
variable {jss : List (List Exchange)}
variable {result : Except Exc TaskOutcome}

/- What an attempt that has ended has left and exchanged. -/
theorem leaves_of_records
    {P : Db → List Exchange → Prop}
    {rounds : Nat}
    (hWp :
      ∀ l, Serial.Outside d [] l →
        (attemptJournal repr).wp
          (runGtmetrixAnalysis settings repr rounds retries
            reportId)
          (Concluded settings repr reportId P)
          (fun _ => Leaves P) l)
    (hRun :
      (backend repr).machine.Records Answers
        (recordAnswer exchanged) 0
        ((backend repr).soleWorld
          (runGtmetrixAnalysis settings repr rounds retries
            reportId)
          d)
        w js)
    (hEnded : w.threads 0 = .live (Prog.ofExcept result)) :
    P w.shared.committed js ∧
      (result = .ok (.returned "completed") →
        ∃ url,
          Tested settings repr reportId url
              w.shared.committed ∧
            ShownCompleted repr url js) := by
  rcases Serial.journal_of_records hWp hRun with
    ⟨ls, hSound, hNote⟩
  have hOwn : (ls 0).own = some w.shared.committed :=
    (hSound.inv.2 0).2
  cases result with
  | ok outcome =>
      rcases hSound.live 0 _ hEnded rfl with
        ⟨d', js', hRest, hP, hDone⟩
      have hData := hRest.own.symm.trans hOwn
      cases hData
      have hSame := hRest.note.symm.trans hNote
      subst hSame
      refine ⟨hP, ?_⟩
      intro hResult
      exact hDone (Except.ok.inj hResult)
  | error e =>
      rcases hSound.live 0 _ hEnded rfl with
        ⟨d', js', hRest, hP⟩
      have hData := hRest.own.symm.trans hOwn
      cases hData
      have hSame := hRest.note.symm.trans hNote
      subst hSame
      refine ⟨hP, ?_⟩
      intro hResult
      cases hResult

/- A poll of one attempt is repeated by every later one. -/
def PollsAgain
    (settings : GtmetrixSettings)
    (repr : Json → String)
    (js js' : List Exchange) : Prop :=
  ∀ x ∈ js, ∀ testId, x.Polls settings repr testId →
    ∃ y ∈ js', y.Polls settings repr testId

/-
  What the attempts have polled when the last one has ended:
  the test of the report only, and again in every attempt.
-/
structure Polling
    (settings : GtmetrixSettings)
    (repr : Json → String)
    (reportId : ReportId)
    (d : Db)
    (jss : List (List Exchange)) : Prop where
  tested :
    ∀ js ∈ jss, ∀ x ∈ js, ∀ testId,
      x.Polls settings repr testId →
        settings.apiKey ≠ "" ∧
          Tested settings repr reportId
            (testUrl settings repr testId) d
  again : jss.Pairwise (PollsAgain settings repr)

theorem Consistent.polls
    (hConsistent : Consistent settings repr reportId d js) :
    ∀ x ∈ js, ∀ testId, x.Polls settings repr testId →
      settings.apiKey ≠ "" ∧
        Tested settings repr reportId
          (testUrl settings repr testId) d := by
  intro x hMem testId hPolls
  rcases hConsistent with ⟨url, hTested, hOnly⟩ | hNone
  · have hBoth := hOnly x hMem testId hPolls
    rw [hBoth.2]
    exact ⟨hBoth.1, hTested⟩
  · exact absurd hPolls.1 (hNone x hMem)

/- The polls of every run of the attempts. -/
theorem polls_of_course
    (hRepr : ∀ v, repr v ≠ "")
    (hCourse :
      Course settings repr Answers reportId d retries w jss)
    (hEnded : w.threads 0 = .live (Prog.ofExcept result)) :
    Polling settings repr reportId w.shared.committed jss ∧
      (result = .ok (.returned "completed") →
        ∃ before js url, jss = before ++ [js] ∧
          Tested settings repr reportId url
              w.shared.committed ∧
            ShownCompleted repr url js) := by
  induction hCourse generalizing result with
  | @first rounds w js hRun =>
      have hLeft :=
        leaves_of_records
          (fun l hRest => wp_attempt_consistent 0 hRepr hRest)
          hRun hEnded
      refine ⟨⟨?_, List.pairwise_singleton _ _⟩, ?_⟩
      · intro js' hMem
        rw [List.mem_singleton.mp hMem]
        exact hLeft.1.polls
      · intro hResult
        rcases hLeft.2 hResult with ⟨url, hTested, hShown⟩
        exact ⟨[], js, url, rfl, hTested, hShown⟩
  | @again retries rounds v w countdown jss js _ hRetry hRun
      ih =>
      have hPolling := (@ih (.ok _) hRetry).1
      have hLeft :=
        leaves_of_records
          (fun l hRest =>
            wp_attempt_consistent (retries + 1) hRepr hRest)
          hRun hEnded
      have hEarlier :
          ∀ js' ∈ jss, ∀ x ∈ js', ∀ testId,
            x.Polls settings repr testId →
              Resumed settings repr reportId
                (testUrl settings repr testId)
                w.shared.committed js := by
        intro js' hMem x hx testId hPolls
        have hBoth :=
          hPolling.tested js' hMem x hx testId hPolls
        exact
          (leaves_of_records
            (fun l hRest =>
              wp_attempt_resumed (retries + 1) hRepr hBoth.2
                hRest)
            hRun hEnded).1
      refine ⟨⟨?_, ?_⟩, ?_⟩
      · intro js' hMem x hx testId hPolls
        rcases List.mem_append.mp hMem with hMem | hMem
        · have hBoth :=
            hPolling.tested js' hMem x hx testId hPolls
          exact
            ⟨hBoth.1,
              (hEarlier js' hMem x hx testId hPolls).tested⟩
        · rw [List.mem_singleton.mp hMem] at hx
          exact hLeft.1.polls x hx testId hPolls
      · rw [List.pairwise_append]
        refine
          ⟨hPolling.again, List.pairwise_singleton _ _, ?_⟩
        intro js' hMem js'' hLast x hx testId hPolls
        rw [List.mem_singleton.mp hLast]
        have hKey :=
          (hPolling.tested js' hMem x hx testId hPolls).1
        exact
          (hEarlier js' hMem x hx testId hPolls).asked hKey
      · intro hResult
        rcases hLeft.2 hResult with ⟨url, hTested, hShown⟩
        exact ⟨jss, js, url, rfl, hTested, hShown⟩

------------------------------------------------------------
-- Errored Tests
------------------------------------------------------------

/- The attempt has been shown the test in the state `error`. -/
def ShownErrored
    (settings : GtmetrixSettings)
    (repr : Json → String)
    (testId : Json)
    (js : List Exchange) : Prop :=
  ∃ x ∈ js, x.Polls settings repr testId ∧
    x.Shows repr "error"

/-
  No attempt polls a test that an earlier one has been shown
  in the state `error`.
-/
def PollsNoErrored
    (settings : GtmetrixSettings)
    (repr : Json → String)
    (jss : List (List Exchange)) : Prop :=
  ∀ (i j : Nat) (js js' : List Exchange), i < j →
    jss[i]? = some js → jss[j]? = some js' →
      ∀ testId, ShownErrored settings repr testId js →
        ∀ x ∈ js', ¬ x.Polls settings repr testId

/- At most the last attempt is shown an errored test. -/
def ErroredLast
    (settings : GtmetrixSettings)
    (repr : Json → String)
    (jss : List (List Exchange)) : Prop :=
  ∀ (i : Nat) (js : List Exchange), i + 1 < jss.length →
    jss[i]? = some js →
      ∀ testId, ¬ ShownErrored settings repr testId js

/- A test in a final state is not shown in another later. -/
def Exchange.Fixes
    (settings : GtmetrixSettings)
    (repr : Json → String)
    (x y : Exchange) : Prop :=
  ∀ testId state other,
    state = "completed" ∨ state = "error" →
      x.Polls settings repr testId →
        y.Polls settings repr testId →
          x.Shows repr state → y.Shows repr other →
            other = state

/- The states `completed` and `error` of a test are final. -/
def FinalStates
    (settings : GtmetrixSettings)
    (repr : Json → String)
    (js : List Exchange) : Prop :=
  js.Pairwise (Exchange.Fixes settings repr)

theorem pollsNoErrored_of_erroredLast
    (hLast : ErroredLast settings repr jss) :
    PollsNoErrored settings repr jss := by
  intro i j js js' hLess hLeft hRight testId hErrored
  have hLength : j < jss.length :=
    (List.getElem?_eq_some_iff.mp hRight).1
  exact absurd hErrored (hLast i js (by omega) hLeft testId)

/- Later attempts poll what an earlier one has polled. -/
theorem erroredLast_of_pollsNoErrored
    (hAgain : jss.Pairwise (PollsAgain settings repr))
    (hNo : PollsNoErrored settings repr jss) :
    ErroredLast settings repr jss := by
  intro i js hLength hLeft testId hErrored
  have hRight : jss[i + 1]? = some jss[i + 1] :=
    List.getElem?_eq_getElem hLength
  rcases List.getElem?_eq_some_iff.mp hLeft with
    ⟨hIndex, rfl⟩
  have hPolls :=
    List.pairwise_iff_getElem.mp hAgain i (i + 1) hIndex
      hLength (Nat.lt_succ_self i)
  rcases hErrored with ⟨x, hMem, hPolled, hShows⟩
  rcases hPolls x hMem testId hPolled with ⟨y, hy, hAgain'⟩
  exact
    hNo i (i + 1) _ _ (Nat.lt_succ_self i) hLeft hRight
      testId ⟨x, hMem, hPolled, hShows⟩ y hy hAgain'

/- An errored test is not completed by a later attempt. -/
theorem not_completed_of_errored
    (hPolling :
      Polling settings repr reportId d jss)
    (hFinal : FinalStates settings repr jss.flatten)
    (hNot : ¬ ErroredLast settings repr jss)
    {before : List (List Exchange)}
    (hLast : jss = before ++ [js])
    (hTested : Tested settings repr reportId url d) :
    ¬ ShownCompleted repr url js := by
  rintro ⟨y, hy, hMethod, hUrl, hCompleted⟩
  apply hNot
  intro i js' hLength hIndex testId hErrored
  rcases hErrored with ⟨x, hx, hPolls, hShows⟩
  have hBefore : js' ∈ before := by
    rw [hLast, List.length_append, List.length_singleton]
      at hLength
    rw [hLast, List.getElem?_append_left (by omega)] at hIndex
    exact List.mem_of_getElem? hIndex
  have hAll : js' ∈ jss := by
    rw [hLast]
    exact List.mem_append_left _ hBefore
  have hSame : testUrl settings repr testId = url :=
    (hPolling.tested js' hAll x hx testId hPolls).2.unique
      hTested
  have hFixes : x.Fixes settings repr y := by
    unfold FinalStates at hFinal
    rw [hLast, List.flatten_append, List.flatten_singleton,
      List.pairwise_append] at hFinal
    exact
      hFinal.2.2 x (List.mem_flatten.mpr ⟨js', hBefore, hx⟩)
        y hy
  have hOrder :=
    hFixes testId "error" "completed" (Or.inr rfl) hPolls
      ⟨hMethod, hUrl.trans hSame.symm⟩ hShows hCompleted
  exact absurd hOrder (by decide)

/-
  In every run of the attempts at a report, no attempt polls
  a test that an earlier one has been shown in the state
  `error`, if at most the last attempt has been shown one.
  When nothing fails by itself and the last attempt has
  ended, then only if; and an attempt after one that was
  shown an errored test does not complete the report.
-/
theorem pollsNoErrored_iff
    (reportId : ReportId)
    (settings : GtmetrixSettings)
    (d : Db)
    (hRepr : ∀ v, repr v ≠ "") :
    (∀ ok retries w jss,
      Course settings repr ok reportId d retries w jss →
        ErroredLast settings repr jss →
          PollsNoErrored settings repr jss) ∧
      ∀ retries w jss result,
        Course settings repr Answers reportId d retries w
            jss →
          w.threads 0 = .live (Prog.ofExcept result) →
            (PollsNoErrored settings repr jss ↔
                ErroredLast settings repr jss) ∧
              (FinalStates settings repr jss.flatten →
                ¬ ErroredLast settings repr jss →
                  result ≠ .ok (.returned "completed")) := by
  constructor
  · intro ok retries w jss _ hLast
    exact pollsNoErrored_of_erroredLast hLast
  · intro retries w jss result hCourse hEnded
    have hBoth := polls_of_course hRepr hCourse hEnded
    refine ⟨⟨?_, pollsNoErrored_of_erroredLast⟩, ?_⟩
    · intro hNo
      exact erroredLast_of_pollsNoErrored hBoth.1.again hNo
    · intro hFinal hNot hResult
      rcases hBoth.2 hResult with
        ⟨before, js, url, hLast, hTested, hShown⟩
      exact
        not_completed_of_errored hBoth.1 hFinal hNot hLast
          hTested hShown

end Resumption

------------------------------------------------------------
-- A Test That Errors
------------------------------------------------------------

/- How lists and objects are printed does not matter here. -/
def printed (_ : Json) : String := "[]"

/- The attempts at a report that has been submitted. -/
theorem pollsNoErrored_iff_submitted :
    (∀ ok retries w jss,
      Course someSettings printed ok 0 submitted retries w
          jss →
        ErroredLast someSettings printed jss →
          PollsNoErrored someSettings printed jss) ∧
      ∀ retries w jss result,
        Course someSettings printed Answers 0 submitted
            retries w jss →
          w.threads 0 = .live (Prog.ofExcept result) →
            (PollsNoErrored someSettings printed jss ↔
                ErroredLast someSettings printed jss) ∧
              (FinalStates someSettings printed
                  jss.flatten →
                ¬ ErroredLast someSettings printed jss →
                  result ≠ .ok (.returned "completed")) :=
  pollsNoErrored_iff 0 someSettings submitted
    (fun _ => by simp [printed])

/- The answer to a poll of a test that has errored. -/
def testErroredAnswer : HttpOutcome :=
  .response
    ⟨200,
      .json
        (.obj
          [("data",
            .obj
              [("attributes",
                .obj [("state", .str "error")])])])⟩

/- The report is read, and a test is started and polled. -/
def firstAttempt : List (Event (Choice Exc Reply)) :=
  [.step 0 .proceed,
    .step 0 (.reply (.http testQueued true)),
    .step 0 .proceed,
    .step 0 (.reply (.clock 0)),
    .step 0 (.reply (.http testErroredAnswer false)),
    .step 0 .proceed]

/- The report is read, and the test is polled. -/
def secondAttempt : List (Event (Choice Exc Reply)) :=
  [.step 0 .proceed,
    .step 0 (.reply (.clock 60)),
    .step 0 (.reply (.http testErroredAnswer false)),
    .step 0 .proceed]

def attemptWorld
    (retries : Nat)
    (d : Db) : TaskWorld :=
  (backend printed).soleWorld
    (runGtmetrixAnalysis someSettings printed 1 retries 0) d

/- The world after the events of an attempt. -/
def afterAttempt
    (w : TaskWorld)
    (es : List (Event (Choice Exc Reply))) : TaskWorld :=
  ((backend printed).machine.replay w es).getD w

def firstWorld : TaskWorld :=
  afterAttempt (attemptWorld 0 submitted) firstAttempt

def secondWorld : TaskWorld :=
  afterAttempt
    (attemptWorld 1 firstWorld.shared.committed)
    secondAttempt

/- The poll of the test `t1`, which has errored. -/
def erroredPoll : Exchange where
  method := "GET"
  url := testUrl someSettings printed (.str "t1")
  outcome := testErroredAnswer

def testStarted : Exchange where
  method := "POST"
  url := apiUrl someSettings "tests"
  outcome := testQueued

theorem answers_of_step
    {es : List (Event (Choice Exc Reply))}
    (hSteps :
      ∀ e ∈ es, e = .step 0 .proceed ∨
        ∃ x, e = .step 0 (.reply x)) :
    ∀ v, ∀ e ∈ es, Answers v e := by
  intro v e hMem
  rcases hSteps e hMem with rfl | ⟨x, rfl⟩
  · trivial
  · trivial

theorem records_first :
    (backend printed).machine.Records Answers
      (recordAnswer exchanged) 0 (attemptWorld 0 submitted)
      firstWorld [testStarted, erroredPoll] := by
  have hSteps : ∀ v, ∀ e ∈ firstAttempt, Answers v e := by
    apply answers_of_step
    simp [firstAttempt]
  exact
    Machine.records_of_replay (v := attemptWorld 0 submitted)
      firstAttempt hSteps rfl

theorem records_second :
    (backend printed).machine.Records Answers
      (recordAnswer exchanged) 0
      (attemptWorld 1 firstWorld.shared.committed)
      secondWorld [erroredPoll] := by
  have hSteps : ∀ v, ∀ e ∈ secondAttempt, Answers v e := by
    apply answers_of_step
    simp [secondAttempt]
  exact
    Machine.records_of_replay
      (v := attemptWorld 1 firstWorld.shared.committed)
      secondAttempt hSteps rfl

theorem state_of_erroredPoll
    {state : String}
    (hShows : erroredPoll.Shows printed state) :
    state = "error" := by
  rcases hShows with
    ⟨testJson, value, hRead, hState, hText⟩
  have hValue : value = .str "error" := by
    have hSame :
        (readResponse printed erroredPoll.outcome).map
            testState =
          .ok (.ok (.str "error")) := rfl
    rw [hRead] at hSame
    exact
      Except.ok.inj
        (hState.symm.trans (Except.ok.inj hSame))
  rw [hValue] at hText
  exact (of_decide_eq_true hText).symm

theorem erroredPoll_shows :
    erroredPoll.Shows printed "error" :=
  ⟨_, .str "error", rfl, rfl, rfl⟩

/-
  GTmetrix reports an error that is final, the attempt asks
  for another one, and that one polls the same test.
-/
theorem polls_errored_test_again :
    ¬ ∀ retries w jss,
      Course someSettings printed Answers 0 submitted retries
          w jss →
        FinalStates someSettings printed jss.flatten →
          PollsNoErrored someSettings printed jss := by
  intro hAll
  have hRetry :
      firstWorld.threads 0 =
        .live (.ret (.retry (some (retryCountdown 0)))) := rfl
  have hCourse :
      Course someSettings printed Answers 0 submitted 1
        secondWorld
        ([[testStarted, erroredPoll]] ++ [[erroredPoll]]) :=
    Course.again (Course.first records_first) hRetry
      records_second
  have hPolls :
      erroredPoll.Polls someSettings printed (.str "t1") :=
    ⟨rfl, rfl⟩
  have hStarted :
      ∀ y, testStarted.Fixes someSettings printed y := by
    intro y testId state other _ hStart
    have hMethod : "POST" = "GET" := hStart.1
    exact absurd hMethod (by decide)
  have hFinal :
      FinalStates someSettings printed
        [testStarted, erroredPoll, erroredPoll] := by
    apply List.Pairwise.cons (fun y _ => hStarted y)
    rw [List.pairwise_pair]
    intro testId state other _ _ _ hState hOther
    rw [state_of_erroredPoll hState,
      state_of_erroredPoll hOther]
  have hNo :=
    hAll 1 secondWorld _ hCourse hFinal 0 1 _ _
      Nat.zero_lt_one rfl rfl (.str "t1")
  apply hNo ⟨erroredPoll, _, hPolls, erroredPoll_shows⟩
    erroredPoll (List.mem_singleton.mpr rfl) hPolls
  exact List.mem_cons_of_mem _ (List.mem_singleton.mpr rfl)

end SiteAnalysis.Gtmetrix
