import SiteAnalysis.Gtmetrix.Steps
import SiteAnalysis.Gtmetrix.Submission
import SiteAnalysis.Python.Paths
import SiteAnalysis.Relational.Serial
import SiteAnalysis.Reports.Keeping
import SiteAnalysis.Reports.Stored

/-
  This file proves how the answers of GTmetrix are classified
  and how the attempts at a report come to an end.

  The handler of HTTP errors reads a title in the answer.
  The error is classified when that answer is not JSON, or
  has the form of a JSON:API error.

  Key definitions include:
    * `Classified`
    * `HasErrorForm`
    * `Attempted`
    * `Chain`
    * `Stops`

  Key theorems include:
    * `classified_iff`
    * `wp_attempt`
    * `chain_stops`
    * `answers_classified_iff`
-/

------------------------------------------------------------
-- Answers
------------------------------------------------------------

namespace SiteAnalysis.Gtmetrix

open Concurrency
open Relational
open Python
open Reports

/- A status of 400 to 499 other than 429. -/
def isClientError : HttpOutcome → Bool
| .response r =>
    400 ≤ r.statusCode && r.statusCode < 500 &&
      r.statusCode != 429
| .failure _ _ => false

/- An HTTP error, or no answer that can be read. -/
def isFailed : HttpOutcome → Bool
| .response ⟨_, .notJson _⟩ => true
| .response r => r.raisesForStatus
| .failure _ _ => true

/- The environment answers with `outcome`. -/
def answeredBy
    (outcome : HttpOutcome)
    (accepted : Bool) : Statement → Option Reply :=
  fun _ => some (.http outcome accepted)

/-
  `_request` comes to an end; it raises a client error for
  the client errors, an API error for every other failure,
  and nothing else.
-/
structure Classified
    (repr : Json → String)
    (p : Service Json)
    (t : Tid)
    (d : Db)
    (accepted : Bool)
    (outcome : HttpOutcome) : Prop where
  ends :
    ∃ result s,
      p.run ((backend repr).alone t
          (answeredBy outcome accepted)) (Store.quiet d) =
        some (result, s)
  client :
    (∃ e s,
      p.run ((backend repr).alone t
            (answeredBy outcome accepted)) (Store.quiet d) =
          some (.error e, s) ∧
        applicationKind e = some .gtmetrixClient) ↔
      isClientError outcome = true
  api :
    (∃ e s,
      p.run ((backend repr).alone t
            (answeredBy outcome accepted)) (Store.quiet d) =
          some (.error e, s) ∧
        applicationKind e = some .gtmetrixAPI) ↔
      isFailed outcome = true ∧
        isClientError outcome = false
  only :
    ∀ e s,
      p.run ((backend repr).alone t
            (answeredBy outcome accepted)) (Store.quiet d) =
          some (.error e, s) →
        applicationKind e = some .gtmetrixClient ∨
          applicationKind e = some .gtmetrixAPI

/-
  An object without errors, or with a list of them whose
  first member is an object.
-/
def HasErrorForm (answer : Json) : Prop :=
  ∃ fields, answer = .obj fields ∧
    (((Json.field "errors" fields).getD (.arr [])).truthy =
        false ∨
      ∃ error errors,
        (Json.field "errors" fields).getD (.arr []) =
          .arr (.obj error :: errors))

/- An HTTP error with a JSON body has that form. -/
def IsReadable (outcome : HttpOutcome) : Prop :=
  ∀ code answer,
    outcome = .response ⟨code, .json answer⟩ →
      400 ≤ code → code < 600 → HasErrorForm answer

section Classification

variable {repr : Json → String} {outcome : HttpOutcome}

/- The first of some errors is an object. -/
theorem first_isObject_iff
    (errors : Json) :
    (∃ error, errors.first = .ok error ∧
        error.isObject = true) ↔
      ∃ error rest, errors = .arr (.obj error :: rest) := by
  constructor
  · rintro ⟨error, hFirst, hObject⟩
    cases errors with
    | arr members =>
        cases members with
        | nil => cases hFirst
        | cons member members =>
            cases hFirst
            cases error with
            | obj fields => exact ⟨fields, members, rfl⟩
            | _ => cases hObject
    | str text =>
        simp only [Json.first] at hFirst
        split at hFirst
        · cases hFirst
          cases hObject
        · cases hFirst
    | _ => cases hFirst
  · rintro ⟨error, rest, rfl⟩
    exact ⟨.obj error, rfl, rfl⟩

/- The detail or the title of an object. -/
theorem memberTitle_isOk_iff
    (error : Json) :
    (∃ title,
        (do
          let detail ← error.get "detail" .null
          if detail.truthy then
            pure detail
          else
            let title ← error.get "title" .null
            pure (title.or (.str ""))) =
          (.ok title : Except PyError Json)) ↔
      error.isObject = true := by
  rw [isOk_bind_iff]
  constructor
  · rintro ⟨detail, hDetail, _⟩
    exact (Json.get_eq_ok.mp hDetail).1
  · intro hObject
    refine ⟨_, Json.get_eq_ok.mpr ⟨hObject, rfl⟩, ?_⟩
    split
    · exact ⟨_, rfl⟩
    · rw [isOk_bind_iff]
      exact
        ⟨_, Json.get_eq_ok.mpr ⟨hObject, rfl⟩, _, rfl⟩

/- A title is read in an answer of that form. -/
theorem errorTitle_isOk_iff
    (answer : Json) :
    (∃ title, errorTitle answer = .ok title) ↔
      HasErrorForm answer := by
  unfold errorTitle HasErrorForm
  rw [isOk_bind_iff]
  cases answer with
  | obj fields =>
      simp only [Json.get, Except.ok.injEq, Json.obj.injEq,
        exists_eq_left']
      generalize (Json.field "errors" fields).getD (.arr []) =
        errors
      cases hTruthy : errors.truthy with
      | false =>
          simp only [Bool.false_eq_true, if_false, true_or,
            iff_true]
          exact ⟨_, rfl⟩
      | true =>
          simp only [if_true, Bool.true_eq_false, false_or]
          rw [isOk_bind_iff, ← first_isObject_iff]
          constructor
          · rintro ⟨error, hFirst, hTitle⟩
            exact
              ⟨error, hFirst,
                (memberTitle_isOk_iff error).mp hTitle⟩
          · rintro ⟨error, hFirst, hObject⟩
            exact
              ⟨error, hFirst,
                (memberTitle_isOk_iff error).mpr hObject⟩
  | _ => simp [Json.get]

/- The handler of HTTP errors raises one of the two. -/
theorem readHttpError_readable
    {r : Response}
    {title : Json}
    (hTitle : bodyTitle r.body = .ok title) :
    ∃ e, readHttpError repr r = .error e ∧
      applicationKind e =
        some
          (if isClientError (.response r) then
            .gtmetrixClient
          else
            .gtmetrixAPI) := by
  unfold readHttpError
  rw [hTitle]
  by_cases hClient :
      400 ≤ r.statusCode ∧ r.statusCode < 500 ∧
        r.statusCode ≠ 429
  · have hIs : isClientError (.response r) = true := by
      simpa [isClientError, and_assoc] using hClient
    refine ⟨_, if_pos hClient, ?_⟩
    rw [if_pos hIs]
    rfl
  · have hIs : ¬ isClientError (.response r) = true := by
      simpa [isClientError, and_assoc] using hClient
    refine ⟨_, if_neg hClient, ?_⟩
    rw [if_neg hIs]
    rfl

/- What cannot be read raises, and is no known error. -/
theorem readHttpError_unreadable
    {r : Response}
    {e : PyError}
    (hTitle : bodyTitle r.body = .error e) :
    readHttpError repr r = .error (.python e) := by
  unfold readHttpError
  rw [hTitle]
  rfl

/- What is raised for an outcome that can be read. -/
theorem readResponse_readable
    (repr : Json → String)
    (hReadable : IsReadable outcome) :
    (isFailed outcome = false ∧
        isClientError outcome = false ∧
          ∃ value, readResponse repr outcome = .ok value) ∨
      (isFailed outcome = true ∧
        ∃ e, readResponse repr outcome = .error e ∧
          applicationKind e =
            some
              (if isClientError outcome then
                .gtmetrixClient
              else
                .gtmetrixAPI)) := by
  cases outcome with
  | failure kind message =>
      right
      exact ⟨rfl, _, rfl, rfl⟩
  | response r =>
      rcases r with ⟨code, body⟩
      by_cases hError :
          Response.raisesForStatus ⟨code, body⟩ = true
      · right
        have hFailed :
            isFailed (.response ⟨code, body⟩) = true := by
          cases body <;> first | exact hError | rfl
        have hTitle : ∃ title, bodyTitle body = .ok title := by
          cases body with
          | empty => exact ⟨_, rfl⟩
          | notJson message => exact ⟨_, rfl⟩
          | json answer =>
              have hRange : 400 ≤ code ∧ code < 600 := by
                simpa [Response.raisesForStatus] using hError
              exact
                (errorTitle_isOk_iff answer).mpr
                  (hReadable code answer rfl hRange.1
                    hRange.2)
        rcases hTitle with ⟨title, hTitle⟩
        refine ⟨hFailed, ?_⟩
        simp only [readResponse, hError, if_true]
        exact readHttpError_readable hTitle
      · have hClient :
            isClientError (.response ⟨code, body⟩) =
              false := by
          have hRange : ¬ (400 ≤ code ∧ code < 600) := by
            simpa [Response.raisesForStatus] using hError
          simp only [isClientError, Bool.and_eq_false_iff,
            decide_eq_false_iff_not]
          by_cases hLow : 400 ≤ code
          · exact Or.inl (Or.inr (by omega))
          · exact Or.inl (Or.inl hLow)
        cases body with
        | empty =>
            left
            refine
              ⟨Bool.eq_false_iff.mpr hError, hClient,
                .obj [], ?_⟩
            simp only [readResponse, hError, if_false,
              Bool.false_eq_true]
        | json value =>
            left
            refine
              ⟨Bool.eq_false_iff.mpr hError, hClient, value,
                ?_⟩
            simp only [readResponse, hError, if_false,
              Bool.false_eq_true]
        | notJson message =>
            right
            have hRead :
                readResponse repr
                    (.response ⟨code, .notJson message⟩) =
                  .error
                    (ErrorKind.gtmetrixAPI.error ""
                      [("error", .str message)]) := by
              simp only [readResponse, hError, if_false,
                Bool.false_eq_true]
            refine ⟨rfl, _, hRead, ?_⟩
            rw [hClient]
            rfl

/- An error body of another form is not read. -/
theorem readResponse_unreadable
    (repr : Json → String)
    (hUnreadable : ¬ IsReadable outcome) :
    ∃ e, readResponse repr outcome = .error (.python e) := by
  simp only [IsReadable, not_forall] at hUnreadable
  rcases hUnreadable with
    ⟨code, answer, rfl, hLow, hHigh, hForm⟩
  have hError :
      Response.raisesForStatus ⟨code, .json answer⟩ =
        true := by
    simp [Response.raisesForStatus, hLow, hHigh]
  cases hTitle : errorTitle answer with
  | ok title =>
      exact
        absurd ((errorTitle_isOk_iff answer).mp ⟨title, hTitle⟩)
          hForm
  | error e =>
      refine ⟨e, ?_⟩
      simp only [readResponse, hError, if_true]
      exact readHttpError_unreadable hTitle

/- `_request` passes on what is made of the answer. -/
theorem run_request
    {settings : GtmetrixSettings}
    (repr : Json → String)
    (method path : String)
    (json : Option Json)
    (t : Tid)
    (d : Db)
    (accepted : Bool)
    (outcome : HttpOutcome)
    (hKey : settings.apiKey ≠ "") :
    ∃ s,
      (request settings repr method path json).run
          ((backend repr).alone t
            (answeredBy outcome accepted))
          (Store.quiet d) =
        some (readResponse repr outcome, s) := by
  have hEnds :
      (request settings repr method path json).Ends
        ((backend repr).alone t
          (answeredBy outcome accepted))
        (fun value _ => readResponse repr outcome = .ok value)
        (fun e _ => readResponse repr outcome = .error e)
        (Store.quiet d) := by
    have hOutside :
        answeredBy outcome accepted
            (.httpRequest method (apiUrl settings path)
              (settings.apiKey, "") settings.requestTimeout
              json) =
          some (.http outcome accepted) := rfl
    unfold request
    rw [if_neg hKey]
    apply Prog.ends_bind
    apply
      Backend.ends_reply (Store.ready_quiet (t := t))
        hOutside rfl
    intro s' _
    cases hRead : readResponse repr outcome with
    | ok value => exact rfl
    | error e => exact rfl
  rcases Prog.run_of_ends hEnds with
    ⟨value, s, hRun, hRead⟩ | ⟨e, s, hRun, hRead⟩
  · rw [hRead]
    exact ⟨s, hRun⟩
  · rw [hRead]
    exact ⟨s, hRun⟩

/- The errors are classified when the outcome can be read. -/
theorem classified_iff
    {settings : GtmetrixSettings}
    {method path : String}
    {json : Option Json}
    (t : Tid)
    (d : Db)
    (accepted : Bool)
    (outcome : HttpOutcome)
    (hKey : settings.apiKey ≠ "") :
    Classified repr (request settings repr method path json)
        t d accepted outcome ↔
      IsReadable outcome := by
  rcases
    run_request repr method path json t d accepted outcome
      hKey with
    ⟨s, hRun⟩
  constructor
  · intro hClassified
    by_contra hUnreadable
    rcases readResponse_unreadable repr hUnreadable with
      ⟨e, hRead⟩
    rw [hRead] at hRun
    rcases hClassified.only _ _ hRun with hKind | hKind
    · cases hKind
    · cases hKind
  · intro hReadable
    rcases readResponse_readable repr hReadable with
      ⟨hFailed, hClient, value, hRead⟩ |
        ⟨hFailed, e, hRead, hKind⟩
    · rw [hRead] at hRun
      have hNone :
          ∀ e s',
            (request settings repr method path json).run
                ((backend repr).alone t
                  (answeredBy outcome accepted))
                (Store.quiet d) ≠
              some (.error e, s') := by
        intro e s' hRun'
        rw [hRun] at hRun'
        cases hRun'
      refine ⟨⟨_, _, hRun⟩, ?_, ?_, ?_⟩
      · rw [hClient]
        constructor
        · rintro ⟨e, s', hRun', _⟩
          exact absurd hRun' (hNone e s')
        · intro hFalse
          cases hFalse
      · rw [hFailed]
        constructor
        · rintro ⟨e, s', hRun', _⟩
          exact absurd hRun' (hNone e s')
        · exact fun hFalse => by cases hFalse.1
      · intro e s' hRun'
        exact absurd hRun' (hNone e s')
    · rw [hRead] at hRun
      have hOnly :
          ∀ e' s',
            (request settings repr method path json).run
                ((backend repr).alone t
                  (answeredBy outcome accepted))
                (Store.quiet d) =
              some (.error e', s') → e' = e := by
        intro e' s' hRun'
        rw [hRun] at hRun'
        cases hRun'
        rfl
      refine ⟨⟨_, _, hRun⟩, ?_, ?_, ?_⟩
      · constructor
        · rintro ⟨e', s', hRun', hKind'⟩
          rw [hOnly e' s' hRun', hKind] at hKind'
          by_contra hNot
          rw [if_neg hNot] at hKind'
          cases hKind'
        · intro hClient
          rw [if_pos hClient] at hKind
          exact ⟨e, s, hRun, hKind⟩
      · rw [hFailed]
        constructor
        · rintro ⟨e', s', hRun', hKind'⟩
          rw [hOnly e' s' hRun', hKind] at hKind'
          refine ⟨rfl, ?_⟩
          by_contra hNot
          rw [if_pos (Bool.eq_true_of_not_eq_false hNot)]
            at hKind'
          cases hKind'
        · rintro ⟨_, hClient⟩
          rw [hClient] at hKind
          exact ⟨e, s, hRun, hKind⟩
      · intro e' s' hRun'
        rw [hOnly e' s' hRun', hKind]
        split
        · exact Or.inl rfl
        · exact Or.inr rfl

end Classification

------------------------------------------------------------
-- One Attempt
------------------------------------------------------------

/- GTmetrix and the clock answer; nothing fails by itself. -/
def Answers
    (_ : TaskWorld) : Event (Choice Exc Reply) → Prop
| .step _ (.fault _) => False
| .step _ _ => True
| .lose _ => False

/- It is noted that an answer is a client error. -/
def noteAnswer :
    (q : Statement) → q.Answer → Bool → Bool
| .httpRequest _ _ _ _ _, outcome, n =>
    n || isClientError outcome
| .httpGet _ _ _, outcome, n => n || isClientError outcome
| _, _, n => n

/- An attempt, which is the only program at work. -/
def attemptSerial
    (repr : Json → String) :
    Serial (backend repr) TaskOutcome Bool where
  ok := Answers
  inv := fun _ _ => True
  atWork := fun _ => True
  note := fun q a _ n => noteAnswer q a n
  noteCommit := fun _ n => n
  noteLost := fun n => n
  lost := fun _ _ _ _ => trivial

section Attempt

variable {settings : GtmetrixSettings}
variable {repr : Json → String} {reportId : ReportId}
variable {d d' : Db} {n : Bool}
variable
  {l :
    Regime.Local Db HistoryKey Unit (Option Db) Bool}

/- No client error so far, and the report is unfinished. -/
def Going
    (reportId : ReportId)
    (l :
      Regime.Local Db HistoryKey Unit (Option Db) Bool) :
    Prop :=
  ∃ d, Serial.Outside d false l ∧
    ¬ IsCompleted .gtmetrix reportId d

/- What is raised after a client error is not retried. -/
def Stopped
    (reportId : ReportId)
    (e : Exc)
    (l :
      Regime.Local Db HistoryKey Unit (Option Db) Bool) :
    Prop :=
  ∃ d n, Serial.Outside d n l ∧
    ¬ IsCompleted .gtmetrix reportId d ∧
      (n = true → isRetryable e = false)

theorem isRetryable_of_local
    {e : Exc}
    (hLocal : e.isLocal = true) : isRetryable e = false := by
  cases e <;> first | rfl | cases hLocal

/- The reports have not changed. -/
theorem isCompleted_of_reports
    (hReports : d'.reports = d.reports) :
    IsCompleted .gtmetrix reportId d' ↔
      IsCompleted .gtmetrix reportId d := by
  unfold IsCompleted Db.find
  rw [hReports]

/- A statement that is not a request. -/
theorem wp_statement
    {q : Statement}
    {Q : q.Answer →
      Regime.Local Db HistoryKey Unit (Option Db) Bool → Prop}
    {E : Exc →
      Regime.Local Db HistoryKey Unit (Option Db) Bool → Prop}
    (hRest : Serial.Outside d n l)
    (hNote : ∀ a, noteAnswer q a n = n)
    (hReply :
      ∀ x a d', reply q x d = some (a, d') →
        ∀ l', Serial.Outside d' n l' → Q a l')
    (hPlan :
      ∀ a lock f, plan repr q d = .done a lock f →
        ∀ l', Serial.Outside (f d) n l' → Q a l')
    (hRaise :
      ∀ e l', Serial.Outside d n l' →
        (plan repr q d = .refuse e ∨
          plan repr q d = .miss e) → E e l') :
    (attemptSerial repr).wp (query q) Q E l := by
  apply Serial.wp_execute_failed trivial hRest
  · intro e l' c hRest' hFailed hPermits
    cases hFailed with
    | fault =>
        rcases hPermits with ⟨ns, live, hPermits⟩
        rcases hPermits.world with
          ⟨w, ls, _, _, _, _, _, hOk⟩
        exact hOk.elim
    | refuse hCase => exact hRaise e l' hRest' (Or.inl hCase)
    | miss hCase => exact hRaise e l' hRest' (Or.inr hCase)
  · intro x a d' _ hAnswer
    refine ⟨trivial, ?_⟩
    intro l' hRest'
    change Serial.Outside d' (noteAnswer q a n) l' at hRest'
    rw [hNote] at hRest'
    exact hReply x a d' hAnswer l' hRest'
  · intro a lock f _ hCase
    refine ⟨trivial, ?_⟩
    intro l' hRest'
    change
      Serial.Outside (f d) (noteAnswer q a n) l' at hRest'
    rw [hNote] at hRest'
    exact hPlan a lock f hCase l' hRest'

/- A statement that does not save the report. -/
theorem wp_going
    {q : Statement}
    (hGoing : Going reportId l)
    (hNote : ∀ a n, noteAnswer q a n = n)
    (hPlan :
      ∀ d a lock f, plan repr q d = .done a lock f →
        (f d).reports = d.reports) :
    (attemptSerial repr).wp (query q)
      (fun _ => Going reportId) (Stopped reportId) l := by
  rcases hGoing with ⟨d, hRest, hNot⟩
  apply wp_statement hRest (hNote · false)
  · intro x a d' hReply l' hRest'
    refine ⟨d', hRest', ?_⟩
    rw [isCompleted_of_reports (reports_of_reply hReply)]
    exact hNot
  · intro a lock f hCase l' hRest'
    refine ⟨f d, hRest', ?_⟩
    rw [isCompleted_of_reports (hPlan d a lock f hCase)]
    exact hNot
  · intro e l' hRest' _
    exact ⟨d, false, hRest', hNot, fun h => by cases h⟩

/- What a client error makes a request raise. -/
theorem readResponse_client
    (repr : Json → String)
    {outcome : HttpOutcome}
    (hClient : isClientError outcome = true) :
    ∃ e, readResponse repr outcome = .error e ∧
      isRetryable e = false := by
  by_cases hReadable : IsReadable outcome
  · rcases readResponse_readable repr hReadable
      with ⟨_, hNot, _⟩ | ⟨_, e, hRead, hKind⟩
    · rw [hNot] at hClient
      cases hClient
    · refine ⟨e, hRead, ?_⟩
      rw [if_pos hClient] at hKind
      cases e with
      | application e =>
          simp only [applicationKind, Option.some.injEq]
            at hKind
          simp [isRetryable, isConnectionError,
            applicationKind, hKind]
      | _ => cases hKind
  · rcases readResponse_unreadable repr hReadable
      with ⟨e, hRead⟩
    exact ⟨_, hRead, rfl⟩

/- A request. -/
theorem wp_request
    {method path : String}
    {json : Option Json}
    (hGoing : Going reportId l) :
    (attemptSerial repr).wp
      (request settings repr method path json)
      (fun _ => Going reportId) (Stopped reportId) l := by
  rcases hGoing with ⟨d, hRest, hNot⟩
  unfold request
  split
  · exact ⟨d, false, hRest, hNot, fun h => by cases h⟩
  · apply Discipline.wp_bind
    apply Serial.wp_execute_failed trivial hRest
    · intro e l' c hRest' _ _
      exact ⟨d, false, hRest', hNot, fun h => by cases h⟩
    · intro x outcome d' _ hReply
      refine ⟨trivial, ?_⟩
      intro l' hRest'
      change
        Serial.Outside d' (false || isClientError outcome) l'
          at hRest'
      rw [Bool.false_or] at hRest'
      have hNot' : ¬ IsCompleted .gtmetrix reportId d' := by
        rw [isCompleted_of_reports (reports_of_reply hReply)]
        exact hNot
      cases hRead : readResponse repr outcome with
      | ok value =>
          cases hClient : isClientError outcome with
          | false =>
              rw [hClient] at hRest'
              exact ⟨d', hRest', hNot'⟩
          | true =>
              rcases readResponse_client repr hClient
                with ⟨e, hError, _⟩
              rw [hError] at hRead
              cases hRead
      | error e =>
          refine ⟨d', _, hRest', hNot', ?_⟩
          intro hClient
          rcases readResponse_client repr hClient
            with ⟨e', hError, hStop⟩
          rw [hRead] at hError
          cases hError
          exact hStop
    · intro a lock f _ hCase
      cases hCase

/- The status of the report is not saved as completed. -/
theorem notCompleted_saveFields
    {object row : GTmetrixReport}
    {fields : List ReportField}
    {a : Unit}
    {lock : Option HistoryKey}
    {f : Db → Db}
    (hNot : ¬ IsCompleted .gtmetrix reportId d)
    (hFind : d.find .gtmetrix object.id = some row)
    (hStatus :
      .status ∉ fields ∨ object.status = .failed)
    (hWrite :
      writeReport repr (object.assign fields row) =
        .done a lock f) :
    ¬ IsCompleted .gtmetrix reportId (f d) := by
  rcases writeReport_eq_done hWrite with
    ⟨_, stored, hPrepare, _, rfl⟩
  have hEq := Report.eq_of_prepare hPrepare
  have hRowId : row.id = object.id := id_of_find hFind
  have hId : stored.id = object.id := by
    rw [hEq]
    exact hRowId
  rintro ⟨row', hFind', hCompleted⟩
  by_cases hSame : reportId = stored.id
  · subst hSame
    rw [find_putReport_self] at hFind'
    cases hFind'
    have hKept :
        stored.status = row.status ∨
          stored.status = .failed := by
      rw [hEq]
      by_cases hMem : .status ∈ fields
      · rcases hStatus with hOut | hFailed
        · exact absurd hMem hOut
        · exact Or.inr (by simp [Report.assign, hMem, hFailed])
      · exact Or.inl (by simp [Report.assign, hMem])
    rcases hKept with hKept | hFailed
    · apply hNot
      rw [hId]
      exact ⟨row, hFind, hKept.symm.trans hCompleted⟩
    · rw [hFailed] at hCompleted
      cases hCompleted
  · have hOther :
        ReportKind.gtmetrix = .gtmetrix →
          reportId ≠ stored.id := fun _ => hSame
    rw [find_putReport_of_ne d hOther] at hFind'
    exact hNot ⟨row', hFind', hCompleted⟩

theorem wp_saveTestId
    {object : GTmetrixReport}
    (hGoing : Going reportId l) :
    (attemptSerial repr).wp
      (query (.saveReportFields .gtmetrix object [.testId]))
      (fun _ => Going reportId) (Stopped reportId) l := by
  rcases hGoing with ⟨d, hRest, hNot⟩
  apply wp_statement hRest (fun _ => rfl)
  · intro x a d' hReply l' hRest'
    refine ⟨d', hRest', ?_⟩
    rw [isCompleted_of_reports (reports_of_reply hReply)]
    exact hNot
  · intro a lock f hCase l' hRest'
    simp only [plan] at hCase
    split at hCase
    · cases hCase
    · rename_i row hFind
      refine ⟨f d, hRest', ?_⟩
      exact
        notCompleted_saveFields hNot hFind
          (Or.inl (by simp)) hCase
  · intro e l' hRest' _
    exact ⟨d, false, hRest', hNot, fun h => by cases h⟩

theorem steps_going :
    Steps (attemptSerial repr).regime 0 settings
      (Going reportId) (Stopped reportId) where
  raise := by
    rintro e l ⟨d, hRest, hNot⟩
    exact ⟨d, false, hRest, hNot, fun h => by cases h⟩
  get := fun _ _ hGoing => wp_request hGoing
  saveTestId := fun _ _ hGoing => wp_saveTestId hGoing
  monotonic := fun _ hGoing =>
    wp_going hGoing (fun _ _ => rfl)
      (fun _ _ _ _ hCase => by cases hCase)
  sleep := fun _ _ hGoing =>
    wp_going hGoing (fun _ _ => rfl)
      (fun _ _ _ _ hCase => by cases hCase)
  cutOff := fun _ hGoing =>
    wp_going hGoing (fun a => Empty.elim a)
      (fun _ a => Empty.elim a)

/- The handler saves a failure and raises. -/
theorem wp_failReport
    {β : Type}
    {report : GTmetrixReport}
    {e : Exc}
    (hStopped : Stopped reportId e l) :
    (attemptSerial repr).wp
      (failReport .gtmetrix report e : Service β)
      (fun _ _ => False) (Stopped reportId) l := by
  rcases hStopped with ⟨d, n, hRest, hNot, hRetry⟩
  apply Discipline.wp_bind
  apply wp_statement hRest (fun _ => rfl)
  · intro x a d' hReply l' hRest'
    refine ⟨d', n, hRest', ?_, hRetry⟩
    rw [isCompleted_of_reports (reports_of_reply hReply)]
    exact hNot
  · intro a lock f hCase l' hRest'
    simp only [plan] at hCase
    split at hCase
    · cases hCase
    · rename_i row hFind
      refine ⟨f d, n, hRest', ?_, hRetry⟩
      exact
        notCompleted_saveFields hNot hFind (Or.inr rfl) hCase
  · intro e' l' hRest' hCase
    have hLocal : e'.isLocal = true := by
      simp only [plan] at hCase
      split at hCase
      · rcases hCase with hCase | hCase
        · cases hCase
          rfl
        · cases hCase
      · exact isLocal_of_writeReport hCase
    exact
      ⟨d, n, hRest', hNot,
        fun _ => isRetryable_of_local hLocal⟩

/- The service completes the report, or it raises. -/
theorem wp_processGtmetrix
    {rounds : Nat}
    (hGoing : Going reportId l) :
    (attemptSerial repr).wp
      (processGtmetrix settings repr rounds reportId)
      (fun report l' =>
        report.status = .completed ∧
          ∃ d, Serial.Outside d false l' ∧
            IsCompleted .gtmetrix reportId d)
      (Stopped reportId) l := by
  rcases hGoing with ⟨d, hRest, hNot⟩
  apply Discipline.wp_bind
  apply wp_statement hRest (fun _ => rfl)
  · intro x a d' hReply l' hRest'
    cases hReply
  · intro report lock f hCase l₁ hRest₁
    have hRead : f = id ∧ report.id = reportId := by
      simp only [plan] at hCase
      split at hCase
      · rename_i row hRow
        cases hCase
        rw [Option.filter_eq_some_iff] at hRow
        exact ⟨rfl, id_of_find hRow.1⟩
      · cases hCase
    rcases hRead with ⟨hSame, hReport⟩
    rw [hSame] at hRest₁
    have hGoing₁ : Going reportId l₁ := ⟨d, hRest₁, hNot⟩
    apply Discipline.wp_bind
    apply Discipline.wp_tryCatch
    apply
      Discipline.wp_mono
        (wp_runTest rounds report steps_going
          (fun _ => hGoing₁) (fun _ => wp_request hGoing₁))
    · intro result l₂ hGoing₂
      rcases hGoing₂ with ⟨d₂, hRest₂, hNot₂⟩
      apply Discipline.wp_bind
      apply wp_statement hRest₂ (fun _ => rfl)
      · intro x a d' hReply l' hRest'
        cases hReply
      · intro a lock f hWrite l₃ hRest₃
        rcases writeReport_eq_done hWrite with
          ⟨_, stored, hPrepare, _, rfl⟩
        have hEq := Report.eq_of_prepare hPrepare
        have hId : stored.id = reportId := by
          rw [hEq]
          exact hReport
        refine ⟨rfl, _, hRest₃, stored, ?_, ?_⟩
        · rw [← hId]
          exact find_putReport_self stored d₂
        · rw [hEq]
          rfl
      · intro e l' hRest' _
        exact ⟨d₂, false, hRest', hNot₂, fun h => by cases h⟩
    · intro e l₂ hStopped
      apply Discipline.wp_mono (wp_failReport hStopped)
      · intro _ _ hFalse
        exact hFalse.elim
      · intro e' l₃ hStopped'
        exact hStopped'
  · intro e l' hRest' _
    exact ⟨d, false, hRest', hNot, fun h => by cases h⟩

/- How an attempt ends without an exception. -/
def Ended
    (reportId : ReportId)
    (retries : Nat)
    (outcome : TaskOutcome)
    (l :
      Regime.Local Db HistoryKey Unit (Option Db) Bool) :
    Prop :=
  ∃ d n, Serial.Outside d n l ∧
    (IsCompleted .gtmetrix reportId d ↔
      outcome = .returned "completed") ∧
      ∀ c, outcome = .retry c →
        n = false ∧ retries < maxRetries

theorem wp_handleFailure
    {e : Exc}
    (retries : Nat)
    (hStopped : Stopped reportId e l) :
    (attemptSerial repr).wp (handleFailure retries e)
      (Ended reportId retries)
      (fun _ l' => ∃ e', Stopped reportId e' l') l := by
  rcases hStopped with ⟨d, n, hRest, hNot, hRetry⟩
  have hReturned :
      ∀ text, text ≠ "completed" →
        Ended reportId retries (.returned text) l := by
    intro text hText
    refine ⟨d, n, hRest, ?_, fun c h => by cases h⟩
    constructor
    · intro hCompleted
      exact absurd hCompleted hNot
    · intro hSame
      cases hSame
      exact absurd rfl hText
  unfold handleFailure
  split
  · exact hReturned "missing" (by decide)
  · split
    · exact hReturned "failed" (by decide)
    · split
      · rename_i hRetryable
        split
        · exact hReturned "failed" (by decide)
        · rename_i hLeft
          refine ⟨d, n, hRest, ?_, ?_⟩
          · constructor
            · intro hCompleted
              exact absurd hCompleted hNot
            · intro hSame
              cases hSame
          · intro c _
            refine ⟨?_, Nat.lt_of_not_le hLeft⟩
            cases hNote : n with
            | false => rfl
            | true =>
                rw [hRetry hNote] at hRetryable
                cases hRetryable
      · exact ⟨e, d, n, hRest, hNot, hRetry⟩

/- One attempt. -/
theorem wp_attempt
    {rounds : Nat}
    (retries : Nat)
    (hGoing : Going reportId l) :
    (attemptSerial repr).wp
      (runGtmetrixAnalysis settings repr rounds retries
        reportId)
      (Ended reportId retries)
      (fun _ l' => ∃ e', Stopped reportId e' l') l := by
  apply Discipline.wp_handle
  apply Discipline.wp_mono (wp_processGtmetrix hGoing)
  · rintro report l' ⟨hStatus, d, hRest, hCompleted⟩
    refine ⟨d, false, hRest, ?_, fun c h => by cases h⟩
    rw [hStatus]
    exact ⟨fun _ => rfl, fun _ => hCompleted⟩
  · intro _ _ hStopped
    exact wp_handleFailure retries hStopped

------------------------------------------------------------
-- Chains of Attempts
------------------------------------------------------------

/-
  An attempt on `d` starts as `v` and has ended as `w` with
  the result.
-/
structure Attempted
    (settings : GtmetrixSettings)
    (repr : Json → String)
    (reportId : ReportId)
    (retries : Nat)
    (d : Db)
    (v w : TaskWorld)
    (result : Except Exc TaskOutcome) : Prop where
  start :
    ∃ rounds,
      v =
        (backend repr).soleWorld
          (runGtmetrixAnalysis settings repr rounds retries
            reportId)
          d
  run : (backend repr).machine.Reaches Answers v w
  ended : w.threads 0 = .live (Prog.ofExcept result)

/-
  The attempts at a report: each starts on what the one
  before has left, when that one has asked for it.
-/
inductive Chain
    (settings : GtmetrixSettings)
    (repr : Json → String)
    (reportId : ReportId)
    (d : Db) :
    Nat → TaskWorld → TaskWorld →
      Except Exc TaskOutcome → Prop
  | first
      {v w : TaskWorld}
      {result : Except Exc TaskOutcome}
      (hAttempted :
        Attempted settings repr reportId 0 d v w result) :
      Chain settings repr reportId d 0 v w result
  | again
      {retries : Nat}
      {u u' v w : TaskWorld}
      {countdown : Option Nat}
      {result : Except Exc TaskOutcome}
      (hBefore :
        Chain settings repr reportId d retries u u'
          (.ok (.retry countdown)))
      (hAttempted :
        Attempted settings repr reportId (retries + 1)
          u'.shared.committed v w result) :
      Chain settings repr reportId d (retries + 1) v w
        result

/- From `v` to `w` a request is answered with `outcome`. -/
def Receives
    (repr : Json → String)
    (v w : TaskWorld)
    (outcome : HttpOutcome) : Prop :=
  ∃ u u' accepted,
    (backend repr).machine.Reaches Answers v u ∧
      (backend repr).machine.next u
          (.step 0 (.reply (.http outcome accepted))) =
          some u' ∧
        (backend repr).machine.Reaches Answers u' w

/-
  The last attempt of a chain: there are not too many, it is
  the last one if it has received a client error, and the
  report is completed if and only if it has succeeded.
-/
structure Stops
    (repr : Json → String)
    (reportId : ReportId)
    (retries : Nat)
    (v w : TaskWorld)
    (result : Except Exc TaskOutcome) : Prop where
  bound : retries ≤ maxRetries
  client :
    ∀ outcome, Receives repr v w outcome →
      isClientError outcome = true →
        ∀ countdown, result ≠ .ok (.retry countdown)
  status :
    IsCompleted .gtmetrix reportId w.shared.committed ↔
      result = .ok (.returned "completed")

section Chains

variable {retries : Nat} {v w : TaskWorld}
variable {result : Except Exc TaskOutcome}

/- What a finished attempt has come to. -/
theorem ended_of_sound
    {ls :
      Tid →
        Regime.Local Db HistoryKey Unit (Option Db) Bool}
    (hSound :
      (attemptSerial repr).regime.discipline.Sound
        (fun t a l => t = 0 → Ended reportId retries a l)
        (fun t _ l => t = 0 → ∃ e, Stopped reportId e l)
        w ls)
    (hEnded : w.threads 0 = .live (Prog.ofExcept result)) :
    (IsCompleted .gtmetrix reportId w.shared.committed ↔
        result = .ok (.returned "completed")) ∧
      ∀ countdown, result = .ok (.retry countdown) →
        (ls 0).note = false ∧ retries < maxRetries := by
  have hOwn : (ls 0).own = some w.shared.committed :=
    (hSound.inv.2 0).2
  cases result with
  | ok outcome =>
      rcases hSound.live 0 _ hEnded rfl with
        ⟨d, n, hRest, hIff, hRetry⟩
      have hSame := hRest.own.symm.trans hOwn
      cases hSame
      refine ⟨?_, ?_⟩
      · rw [hIff]
        simp
      · intro countdown hResult
        cases hResult
        have hBoth := hRetry countdown rfl
        exact ⟨hRest.note.trans hBoth.1, hBoth.2⟩
  | error e =>
      rcases hSound.live 0 _ hEnded rfl with
        ⟨e', d, n, hRest, hNot, _⟩
      have hSame := hRest.own.symm.trans hOwn
      cases hSame
      refine ⟨?_, fun _ hResult => by cases hResult⟩
      constructor
      · intro hCompleted
        exact absurd hCompleted hNot
      · intro hResult
        cases hResult

/- One attempt at an unfinished report. -/
theorem attempted_stops
    (hNot : ¬ IsCompleted .gtmetrix reportId d)
    (hAttempted :
      Attempted settings repr reportId retries d v w
        result) :
    (IsCompleted .gtmetrix reportId w.shared.committed ↔
        result = .ok (.returned "completed")) ∧
      (∀ outcome, Receives repr v w outcome →
        isClientError outcome = true →
          ∀ countdown, result ≠ .ok (.retry countdown)) ∧
        ∀ countdown, result = .ok (.retry countdown) →
          retries < maxRetries := by
  rcases hAttempted with ⟨⟨rounds, rfl⟩, hRun, hEnded⟩
  have hWp :
      ∀ l, Serial.Outside d false l →
        (attemptSerial repr).wp
          (runGtmetrixAnalysis settings repr rounds retries
            reportId)
          (Ended reportId retries)
          (fun _ l' => ∃ e, Stopped reportId e l') l := by
    intro l hRest
    exact wp_attempt retries ⟨d, hRest, hNot⟩
  have hInv : (attemptSerial repr).inv d false := trivial
  have hVerified := Serial.verified hInv hWp
  rcases
    Discipline.sound_of_reaches hVerified.final
      hVerified.losable hVerified.sound hRun with
    ⟨ls, hSound, _⟩
  have hBoth := ended_of_sound hSound hEnded
  refine
    ⟨hBoth.1, ?_, fun countdown hRetry =>
      (hBoth.2 countdown hRetry).2⟩
  rintro outcome ⟨u, u', accepted, hBefore, hNext, hLater⟩
    hClient countdown hRetry
  have hNoted :
      ∃ ls',
        (attemptSerial repr).regime.discipline.Sound
          (fun t a l => t = 0 → Ended reportId retries a l)
          (fun t _ l => t = 0 → ∃ e, Stopped reportId e l)
          w ls' ∧
          (ls' 0).note = true := by
    apply
      Serial.noted_of_reply (P := fun n => n = true) hInv hWp
        _ _ _ _ hBefore trivial hNext hLater
    · intro q a d' n hReply
      cases q with
      | httpRequest method url auth timeout json =>
          simp only [backend, reply, Option.some.injEq,
            Prod.mk.injEq] at hReply
          rw [← hReply.1]
          change (n || isClientError outcome) = true
          rw [hClient, Bool.or_true]
      | httpGet url params timeout =>
          cases hReply
          change (n || isClientError outcome) = true
          rw [hClient, Bool.or_true]
      | _ => cases hReply
    · intro q a d' n hNote
      cases q with
      | httpRequest method url auth timeout json =>
          change (n || _) = true
          rw [hNote, Bool.true_or]
      | httpGet url params timeout =>
          change (n || _) = true
          rw [hNote, Bool.true_or]
      | _ => exact hNote
    · intro _ _ hNote
      exact hNote
    · intro _ hNote
      exact hNote
  rcases hNoted with ⟨ls', hSound', hNote⟩
  have hClear :=
    ((ended_of_sound hSound' hEnded).2 countdown hRetry).1
  rw [hNote] at hClear
  cases hClear

/- Every chain of attempts at an unfinished report. -/
theorem chain_stops
    (hNot : ¬ IsCompleted .gtmetrix reportId d)
    (hChain :
      Chain settings repr reportId d retries v w result) :
    Stops repr reportId retries v w result ∧
      ∀ countdown, result = .ok (.retry countdown) →
        retries < maxRetries := by
  induction hChain with
  | first hAttempted =>
      rcases attempted_stops hNot hAttempted with
        ⟨hStatus, hClient, hLeft⟩
      exact ⟨⟨Nat.zero_le _, hClient, hStatus⟩, hLeft⟩
  | @again retries u u' v w countdown result _ hAttempted
      ih =>
      have hBefore := ih.2 countdown rfl
      have hUnfinished :
          ¬ IsCompleted .gtmetrix reportId
              u'.shared.committed := by
        rw [ih.1.status]
        intro hResult
        cases hResult
      rcases attempted_stops hUnfinished hAttempted with
        ⟨hStatus, hClient, hLeft⟩
      exact ⟨⟨hBefore, hClient, hStatus⟩, hLeft⟩

end Chains

end Attempt

------------------------------------------------------------
-- A List in Place of an Error
------------------------------------------------------------

theorem submitted_not_completed :
    ¬ IsCompleted .gtmetrix 0 submitted := by
  rintro ⟨row, hFind, hCompleted⟩
  cases hFind
  cases hCompleted

/- A server error whose body is an empty list. -/
def listError : HttpOutcome :=
  .response ⟨500, .json (.arr [])⟩

end SiteAnalysis.Gtmetrix
