import SiteAnalysis.Relational.Heeding
import SiteAnalysis.Reports.Deletion

/-
  This file proves that a report stays its owner's, and that
  nobody else deletes it, over every interleaving of requests
  and attempts of the tasks.

  A worker may save a whole object that it has read long ago;
  what it saves still has the owner and the URL of its row,
  and is not deleted.

  Key definitions include:
    * `ReportCall`
    * `startCalls`
    * `Report.origin`
    * `Hidden`
    * `Destroys`

  Key theorems include:
    * `keeps_ownership`
    * `behaves_worker`
    * `reports_stay_their_owners`
-/

------------------------------------------------------------
-- Requests and Attempts
------------------------------------------------------------

namespace SiteAnalysis.Reports

open Concurrency
open Relational
open Python

/-
  The requests of the report services: the detail, which is
  public by UUID, and the owner's `DELETE`.  An attempt of a
  task is a call too.
-/
inductive ReportCall
  | retrieve (kind : ReportKind) (reportId : ReportId)
  | destroy
      (kind : ReportKind)
      (user : UserId)
      (reportId : ReportId)
      (now : Time)
  | work (worker : Worker)

def ReportCall.program
    (tools : Tools) : Option ReportCall → Service Unit
| none => .ret ()
| some (.retrieve kind reportId) => do
    let _ ← query (.getReport kind reportId)
    pure ()
| some (.destroy kind user reportId now) =>
    destroyReport kind user reportId now
| some (.work worker) => do
    let _ ← worker.program tools
    pure ()

abbrev ReportWorld :=
  World (Store Db HistoryKey) (TxOp Statement)
    (TxOp.Res Statement.Answer) Exc Unit

def startCalls
    (tools : Tools)
    (calls : Tid → Option ReportCall)
    (d : Db) : ReportWorld where
  shared := Store.quiet d
  threads := fun t =>
    .live (ReportCall.program tools (calls t))

------------------------------------------------------------
-- Ownership
------------------------------------------------------------

/- Whose report it is, and of which page. -/
def Report.origin
    {kind : ReportKind}
    (row : Report kind) : Option UserId × String :=
  (row.user, row.url)

/- The default manager does not show the report any more. -/
def Hidden
    (kind : ReportKind)
    (reportId : ReportId)
    (d : Db) : Prop :=
  ∃ row, d.find kind reportId = some row ∧
    row.isDeleted = true

/- The call is the `DELETE` request of the report's owner. -/
def Destroys
    (call : Option ReportCall)
    (kind : ReportKind)
    (reportId : ReportId)
    (d : Db) : Prop :=
  ∃ user now row,
    call = some (.destroy kind user reportId now) ∧
      d.find kind reportId = some row ∧
        row.user = some user

/- The reports are those of the start, and their owners'. -/
def SameOrigins
    (d₀ d : Db) : Prop :=
  ∀ kind reportId,
    (d.find kind reportId).map Report.origin =
      (d₀.find kind reportId).map Report.origin

/- Nothing is hidden but what the call destroys. -/
def HidesOwn
    (call : Option ReportCall)
    (d₀ d d' : Db) : Prop :=
  ∀ kind reportId, Hidden kind reportId d' →
    Hidden kind reportId d ∨ Destroys call kind reportId d₀

/- The object comes from a report of the start. -/
def Original
    {kind : ReportKind}
    (d₀ : Db)
    (object : Report kind) : Prop :=
  (d₀.find kind object.id).map Report.origin =
    some object.origin

variable {tools : Tools} {repr : Json → String}
variable {calls : Tid → Option ReportCall}
variable {call : Option ReportCall}
variable {kind kind' : ReportKind}
variable {reportId : ReportId} {d₀ d d' : Db}

theorem hidesOwn_refl
    (d : Db) : HidesOwn call d₀ d d :=
  fun _ _ hHidden => Or.inl hHidden

theorem hidesOwn_trans
    (d d' d'' : Db)
    (hFirst : HidesOwn call d₀ d d')
    (hSecond : HidesOwn call d₀ d' d'') :
    HidesOwn call d₀ d d'' := by
  intro kind reportId hHidden
  rcases hSecond kind reportId hHidden with
    hMiddle | hDestroys
  · exact hFirst kind reportId hMiddle
  · exact Or.inr hDestroys

/- The reports have not changed. -/
theorem sustains_of_reports
    (hReports : d'.reports = d.reports) :
    Sustains (SameOrigins d₀) (HidesOwn call d₀) d d' := by
  intro hSame
  have hFind :
      ∀ kind reportId,
        d'.find kind reportId = d.find kind reportId := by
    intro kind reportId
    rw [Db.find, hReports]
    rfl
  refine ⟨?_, ?_⟩
  · intro kind reportId
    rw [hFind]
    exact hSame kind reportId
  · rintro kind reportId ⟨row, hRow, hDeleted⟩
    rw [hFind] at hRow
    exact Or.inl ⟨row, hRow, hDeleted⟩

theorem original_of_find
    {row : Report kind}
    (hSame : SameOrigins d₀ d)
    (hFind : d.find kind reportId = some row) :
    Original d₀ row := by
  have hRow := hSame kind reportId
  rw [hFind] at hRow
  rw [Original, id_of_find hFind, ← hRow]
  rfl

/- A row with its origin is written. -/
theorem sustains_putReport
    {row : Report kind}
    (hOriginal : Original d₀ row)
    (hShown :
      row.isDeleted = true →
        Hidden kind row.id d ∨
          Destroys call kind row.id d₀)
    (hSame : SameOrigins d₀ d) :
    SameOrigins d₀ (putReport row d) ∧
      HidesOwn call d₀ d (putReport row d) := by
  refine ⟨?_, ?_⟩
  · intro kind' reportId
    by_cases hPut : kind' = kind ∧ reportId = row.id
    · rcases hPut with ⟨rfl, rfl⟩
      rw [find_putReport_self]
      exact hOriginal.symm
    · rw [find_putReport_of_ne d (by
        intro hKind hId
        exact hPut ⟨hKind, hId⟩)]
      exact hSame kind' reportId
  · rintro kind' reportId ⟨found, hFind, hDeleted⟩
    by_cases hPut : kind' = kind ∧ reportId = row.id
    · rcases hPut with ⟨rfl, rfl⟩
      rw [find_putReport_self] at hFind
      cases hFind
      exact hShown hDeleted
    · rw [find_putReport_of_ne d (by
        intro hKind hId
        exact hPut ⟨hKind, hId⟩)] at hFind
      exact Or.inl ⟨found, hFind, hDeleted⟩

------------------------------------------------------------
-- Statements
------------------------------------------------------------

/- The statements that a call executes outside transactions. -/
def Instant
    (call : Option ReportCall)
    (d₀ : Db) : Statement → Prop
| .saveReport _ object =>
    Original d₀ object ∧ object.isDeleted = false
| .saveReportFields kind object fields =>
    .isDeleted ∈ fields → Destroys call kind object.id d₀
| .getReport _ _ => True
| .getOwnReport _ _ _ => True
| q => Asks q

/- What is known of a report that has been read. -/
def Loaded
    (d₀ : Db) : (q : Statement) → q.Answer → Prop
| .getReport _ reportId, row =>
    row.id = reportId ∧ row.isDeleted = false ∧
      Original d₀ row
| .getOwnReport _ user reportId, row =>
    row.id = reportId ∧ row.user = some user ∧
      Original d₀ row
| _, _ => True

/- A row that is prepared has the identity of its object. -/
theorem original_of_prepare
    {object row : Report kind}
    (hPrepare : object.prepare repr = .ok row)
    (hOriginal : Original d₀ object) :
    Original d₀ row := by
  rw [Report.eq_of_prepare hPrepare]
  exact hOriginal

/- A save of named columns, outside a transaction. -/
theorem saveFields_keeps
    {object row : Report kind}
    {fields : List ReportField}
    {a : Unit}
    {lock : Option HistoryKey}
    {f : Db → Db}
    (hAllowed :
      .isDeleted ∈ fields → Destroys call kind object.id d₀)
    (hSame : SameOrigins d₀ d)
    (hFind : d.find kind object.id = some row)
    (hWrite :
      writeReport repr (object.assign fields row) =
        .done a lock f) :
    SameOrigins d₀ (f d) ∧ HidesOwn call d₀ d (f d) := by
  rcases writeReport_eq_done hWrite with
    ⟨_, stored, hPrepare, _, rfl⟩
  have hEq := Report.eq_of_prepare hPrepare
  have hRow := original_of_find hSame hFind
  have hId : stored.id = object.id := by
    have hFound : row.id = object.id := id_of_find hFind
    rw [hEq]
    exact hFound
  apply sustains_putReport _ _ hSame
  · apply original_of_prepare hPrepare
    exact hRow
  · intro hDeleted
    rw [hId]
    by_cases hField : .isDeleted ∈ fields
    · exact Or.inr (hAllowed hField)
    · refine Or.inl ⟨row, hFind, ?_⟩
      rw [hEq] at hDeleted
      simpa [Report.assign, hField] using hDeleted

theorem keeps_ownership
    (repr : Json → String)
    (calls : Tid → Option ReportCall)
    (d₀ : Db) :
    (backend repr).Keeps (SameOrigins d₀)
      (fun t => HidesOwn (calls t) d₀) (fun _ => RollsUp)
      (fun t => Instant (calls t) d₀) (Loaded d₀) where
  refl := fun _ d => hidesOwn_refl d
  trans := fun _ d d' d'' => hidesOwn_trans d d' d''
  steadily := by
    intro t q d a lock f hRollsUp hSame hPlan
    refine ⟨?_, ?_⟩
    · cases q <;> trivial
    · intro d'
      exact
        sustains_of_reports
          (reports_of_rollsUp hRollsUp hPlan d')
  instantly := by
    intro t q d a lock f hInstant hSame hPlan
    cases q with
    | getReport kind report =>
        simp only [backend, plan] at hPlan
        split at hPlan
        · rename_i row hFound
          cases hPlan
          rw [Option.filter_eq_some_iff] at hFound
          refine
            ⟨⟨id_of_find hFound.1, ?_,
                original_of_find hSame hFound.1⟩,
              hSame, hidesOwn_refl d⟩
          simpa [liveReport] using hFound.2
        · cases hPlan
    | getOwnReport kind user report =>
        simp only [backend, plan] at hPlan
        split at hPlan
        · rename_i row hFound
          cases hPlan
          rw [Option.filter_eq_some_iff] at hFound
          refine
            ⟨⟨id_of_find hFound.1, ?_,
                original_of_find hSame hFound.1⟩,
              hSame, hidesOwn_refl d⟩
          have hOwn := hFound.2
          simp only [Bool.and_eq_true, beq_iff_eq] at hOwn
          exact hOwn.2
        · cases hPlan
    | saveReport kind object =>
        rcases writeReport_eq_done hPlan with
          ⟨_, row, hPrepare, _, rfl⟩
        refine ⟨trivial, ?_⟩
        apply
          sustains_putReport
            (original_of_prepare hPrepare hInstant.1) _ hSame
        intro hDeleted
        rw [Report.eq_of_prepare hPrepare] at hDeleted
        rw [hInstant.2] at hDeleted
        cases hDeleted
    | saveReportFields kind object fields =>
        simp only [backend, plan] at hPlan
        split at hPlan
        · cases hPlan
        · rename_i row hFind
          exact
            ⟨trivial,
              saveFields_keeps hInstant hSame hFind hPlan⟩
    | _ => first | exact False.elim hInstant | cases hPlan
  reply := by
    intro t q x d a d' hAllowed hSame hReply
    have hKept :
        SameOrigins d₀ d' ∧ HidesOwn (calls t) d₀ d d' :=
      sustains_of_reports (reports_of_reply hReply) hSame
    refine ⟨?_, hKept⟩
    cases q with
    | getReport kind report => cases x <;> cases hReply
    | getOwnReport kind user report =>
        cases x <;> cases hReply
    | _ => trivial

------------------------------------------------------------
-- Programs
------------------------------------------------------------

variable {α β : Type}

/- What a call may execute, and what it trusts. -/
abbrev BehavesFor
    (call : Option ReportCall)
    (d₀ : Db)
    (p : Service α)
    (post : α → Prop) : Prop :=
  p.Behaves RollsUp (Instant call d₀) (Loaded d₀) 0 post 0

theorem instant_of_asks
    {q : Statement}
    (hAsks : Asks q) : Instant call d₀ q := by
  cases q with
  | saveReportFields kind object fields =>
      intro hField
      rcases hAsks with ⟨hFields, _⟩ | hFields
      · simp [hFields] at hField
      · simp [hFields] at hField
  | _ => first | exact hAsks | exact hAsks.elim

theorem behaves_of_asks
    {p : Service α}
    (hAsks : p.Conforms AsksOp) :
    BehavesFor call d₀ p (fun _ => True) := by
  apply Prog.behaves_of_conforms
  apply hAsks.mono
  rintro o ⟨q, rfl, hQuery⟩
  exact ⟨q, rfl, Or.inr ⟨rfl, instant_of_asks hQuery⟩⟩

/- A report is read by its id. -/
theorem behaves_load
    {f : Report kind → Service β}
    (hRest :
      ∀ report, Original d₀ report →
        report.isDeleted = false →
          BehavesFor call d₀ (f report) (fun _ => True)) :
    BehavesFor call d₀
      (query (.getReport kind reportId) >>= f)
      (fun _ => True) := by
  refine
    Prog.Behaves.bind
      (Prog.behaves_execute (Or.inr ⟨rfl, trivial⟩)) ?_
  rintro report ⟨_, hShown, hOriginal⟩
  exact hRest report hOriginal hShown

/- An object that comes from a shown report is saved. -/
theorem behaves_save
    {object : Report kind}
    {f : Unit → Service β}
    (hOriginal : Original d₀ object)
    (hShown : object.isDeleted = false)
    (hRest :
      BehavesFor call d₀ (f ()) (fun _ => True)) :
    BehavesFor call d₀
      (query (.saveReport kind object) >>= f)
      (fun _ => True) := by
  refine
    Prog.Behaves.bind
      (Prog.behaves_execute
        (Or.inr ⟨rfl, hOriginal, hShown⟩)) ?_
  intro _ _
  exact hRest

section Rollups

variable {n : Nat}

/- A part of a rollup, with `n` frames open. -/
abbrev RollsUpAt
    (call : Option ReportCall)
    (d₀ : Db)
    (n : Nat)
    (p : Service α) : Prop :=
  p.Behaves RollsUp (Instant call d₀) (Loaded d₀) n
    (fun _ => True) n

theorem rollsUpAt_query
    {q : Statement}
    (hRollsUp : RollsUp q) :
    RollsUpAt call d₀ n (query q : Service q.Answer) :=
  (Prog.behaves_execute (Or.inl hRollsUp)).mono
    (fun _ _ => trivial)

theorem rollsUpAt_getOrCreateHistory
    (key : HistoryKey)
    (now : Time) :
    RollsUpAt call d₀ n
      (Analysis.getOrCreateHistory key now) := by
  apply Prog.Behaves.handle
  · exact rollsUpAt_query trivial
  · intro row _
    exact ⟨rfl, trivial⟩
  intro e
  split
  · apply Prog.Behaves.handle
    · apply Prog.behaves_atomic
      exact rollsUpAt_query trivial
    · intro row _
      exact ⟨rfl, trivial⟩
    intro e'
    split
    · apply Prog.Behaves.handle
      · exact rollsUpAt_query trivial
      · intro row _
        exact ⟨rfl, trivial⟩
      · intro e''
        split <;> rfl
    · rfl
  · rfl

theorem rollsUpAt_countExisting
    (now : Time)
    (found : AnalysisHistory × Bool) :
    RollsUpAt call d₀ n
      (Analysis.countExisting now found) := by
  rcases found with ⟨row, created⟩
  cases created with
  | true => exact ⟨rfl, trivial⟩
  | false => exact rollsUpAt_query trivial

theorem rollsUpAt_rollUp
    (report : AnalysisReport)
    (now : Time) :
    RollsUpAt call d₀ n (Analysis.rollUp report now) := by
  unfold Analysis.rollUp
  split
  · exact ⟨rfl, trivial⟩
  · apply Prog.behaves_atomic
    apply Prog.Behaves.bind
    · exact rollsUpAt_getOrCreateHistory _ now
    intro found _
    apply (rollsUpAt_countExisting now found).bind
    intro _ _
    exact rollsUpAt_query (q := .cacheDelete _) trivial

end Rollups

------------------------------------------------------------
-- Calls
------------------------------------------------------------

theorem behaves_processAnalysis
    (settings : Analysis.PagespeedSettings)
    (repr : Json → String)
    (reportId : ReportId)
    (now : Time) :
    BehavesFor call d₀
      (Analysis.processAnalysis settings repr reportId now)
      (fun _ => True) := by
  apply behaves_load
  intro report hOriginal hShown
  apply Prog.Behaves.bind
  · exact
      behaves_of_asks
        (asks_tryCatch report (asks_fetchPagespeed _ _ _ _))
  intro raw _
  apply Prog.Behaves.bind
  · exact behaves_of_asks (Prog.conforms_ofExcept _)
  intro metrics _
  apply behaves_save
  · exact hOriginal
  · exact hShown
  apply Prog.Behaves.bind
  · exact rollsUpAt_rollUp _ now
  · intro _ _
    exact ⟨rfl, trivial⟩

theorem behaves_processGtmetrix
    (settings : Gtmetrix.GtmetrixSettings)
    (repr : Json → String)
    (rounds : Nat)
    (reportId : ReportId) :
    BehavesFor call d₀
      (Gtmetrix.processGtmetrix settings repr rounds
        reportId)
      (fun _ => True) := by
  apply behaves_load
  intro report hOriginal hShown
  apply Prog.Behaves.bind
  · exact
      behaves_of_asks
        (asks_tryCatch report (asks_runTest _ _ _ _))
  intro result _
  apply behaves_save
  · exact hOriginal
  · exact hShown
  · exact ⟨rfl, trivial⟩

theorem behaves_processSslCheck
    (isoformat : Time → String)
    (reportId : ReportId) :
    BehavesFor call d₀
      (Ssl.processSslCheck isoformat reportId)
      (fun _ => True) := by
  apply behaves_load
  intro report hOriginal hShown
  apply Prog.Behaves.bind
  · exact
      behaves_of_asks
        (asks_tryCatch report (asks_runSslScan _ _ _))
  intro result _
  apply behaves_save
  · exact hOriginal
  · exact hShown
  · exact ⟨rfl, trivial⟩

/- The handlers of a task execute nothing. -/
theorem behaves_worker
    (tools : Tools)
    (worker : Worker) :
    BehavesFor call d₀ (worker.program tools)
      (fun _ => True) := by
  cases worker with
  | analysis retries reportId now =>
      apply (behaves_processAnalysis _ _ _ _).handle
      · intro report _
        exact ⟨rfl, trivial⟩
      · intro e
        unfold Analysis.handleFailure
        repeat' split
        all_goals first | exact ⟨rfl, trivial⟩ | rfl
  | gtmetrix rounds retries reportId =>
      apply (behaves_processGtmetrix _ _ _ _).handle
      · intro report _
        exact ⟨rfl, trivial⟩
      · intro e
        unfold Gtmetrix.handleFailure
        repeat' split
        all_goals first | exact ⟨rfl, trivial⟩ | rfl
  | ssl retries reportId =>
      apply (behaves_processSslCheck _ _).handle
      · intro report _
        exact ⟨rfl, trivial⟩
      · intro e
        unfold Ssl.handleFailure
        repeat' split
        all_goals first | exact ⟨rfl, trivial⟩ | rfl

/- The owner's request loads the report as the owner's. -/
theorem behaves_destroyReport
    {user : UserId}
    {now : Time} :
    BehavesFor (some (.destroy kind user reportId now)) d₀
      (destroyReport kind user reportId now)
      (fun _ => True) := by
  refine
    Prog.Behaves.bind
      (Prog.behaves_execute (Or.inr ⟨rfl, trivial⟩)) ?_
  rintro report ⟨hId, hUser, hOriginal⟩
  refine
    (Prog.behaves_execute (Or.inr ⟨rfl, ?_⟩)).mono
      (fun _ _ => trivial)
  intro _
  rw [Original, Option.map_eq_some_iff] at hOriginal
  rcases hOriginal with ⟨row, hFind, hSame⟩
  refine ⟨user, now, row, ?_, hFind, ?_⟩
  · rw [← hId]
  · have hOwner := congrArg Prod.fst hSame
    exact hOwner.trans hUser

theorem behaves_call
    (tools : Tools)
    (call : Option ReportCall) :
    BehavesFor call d₀ (ReportCall.program tools call)
      (fun _ => True) := by
  cases call with
  | none => exact ⟨rfl, trivial⟩
  | some c =>
      cases c with
      | retrieve kind reportId =>
          apply behaves_load
          intro _ _ _
          exact ⟨rfl, trivial⟩
      | destroy kind user reportId now =>
          exact behaves_destroyReport
      | work worker =>
          apply (behaves_worker tools worker).bind
          intro _ _
          exact ⟨rfl, trivial⟩

------------------------------------------------------------
-- Runs
------------------------------------------------------------

theorem heeding_startCalls
    (tools : Tools)
    (calls : Tid → Option ReportCall)
    (d : Db) :
    Backend.Heeding (SameOrigins d)
      (fun t => HidesOwn (calls t) d) (fun _ => RollsUp)
      (fun t => Instant (calls t) d) (Loaded d)
      (startCalls tools calls d) := by
  apply Backend.heeding_of_quiet rfl
  · exact fun _ _ => rfl
  · intro t p hLive
    cases hLive
    exact behaves_call tools (calls t)

variable {w w' : ReportWorld}
variable {e : Event (Choice Exc Reply)}

theorem heeding_of_calls
    (hReach :
      (backend tools.repr).machine.Reaches Machine.anyEvent
        (startCalls tools calls d) w) :
    Backend.Heeding (SameOrigins d)
      (fun t => HidesOwn (calls t) d) (fun _ => RollsUp)
      (fun t => Instant (calls t) d) (Loaded d) w :=
  Backend.heeding_of_reaches
    (keeps_ownership tools.repr calls d)
    (heeding_startCalls tools calls d) hReach

/- A report of another state is as much its owner's. -/
theorem destroys_of_sameOrigins
    (hSame : SameOrigins d d')
    (hDestroys : Destroys call kind reportId d) :
    Destroys call kind reportId d' := by
  rcases hDestroys with ⟨user, now, row, hCall, hFind, hUser⟩
  have hBoth := hSame kind reportId
  rw [hFind, Option.map_some, Option.map_eq_some_iff] at hBoth
  rcases hBoth with ⟨row', hFind', hOrigin⟩
  refine ⟨user, now, row', hCall, hFind', ?_⟩
  exact (congrArg Prod.fst hOrigin).trans hUser

/- What is hidden in a run has been, or is destroyed in it. -/
theorem hidden_of_reaches
    (hReach :
      (backend tools.repr).machine.Reaches Machine.anyEvent
        (startCalls tools calls d) w)
    (hHidden : Hidden kind reportId w.shared.committed) :
    Hidden kind reportId d ∨
      ∃ t, Destroys (calls t) kind reportId d := by
  have hRun :=
    Backend.some_keep_of_reaches
      (fun d₁ d₂ =>
        Hidden kind reportId d₂ →
          Hidden kind reportId d₁ ∨
            ∃ t, Destroys (calls t) kind reportId d)
      (keeps_ownership tools.repr calls d)
      (heeding_startCalls tools calls d)
      (fun _ hIs => Or.inl hIs)
      (fun _ _ _ hFirst hSecond hIs =>
        (hSecond hIs).elim hFirst Or.inr)
      (fun t _ _ hKeep hIs =>
        (hKeep kind reportId hIs).imp_right
          (fun hDestroys => ⟨t, hDestroys⟩))
      hReach
  exact hRun hHidden

/-
  Whatever the requests and the tasks are and however they
  interleave: no report changes its owner or its URL, a step
  hides a report only as a `DELETE` request of its owner, and
  a report that is not deleted and whose owner sends no such
  request, as every report without an owner, stays as shown.
-/
theorem reports_stay_their_owners
    (tools : Tools)
    (calls : Tid → Option ReportCall)
    (d : Db)
    (w : ReportWorld)
    (hReach :
      (backend tools.repr).machine.Reaches Machine.anyEvent
        (startCalls tools calls d) w) :
    (∀ kind reportId,
        (w.shared.committed.find kind reportId).map
            Report.origin =
          (d.find kind reportId).map Report.origin) ∧
      (∀ e w' kind reportId,
        (backend tools.repr).machine.next w e = some w' →
          Hidden kind reportId w'.shared.committed →
            Hidden kind reportId w.shared.committed ∨
              Destroys (calls e.thread) kind reportId
                w.shared.committed) ∧
        ∀ kind reportId row,
          d.find kind reportId = some row →
            row.isDeleted = false →
              (∀ t user now,
                calls t =
                    some (.destroy kind user reportId now) →
                  row.user ≠ some user) →
                ∃ row',
                  w.shared.committed.find kind reportId =
                      some row' ∧
                    row'.isDeleted = false ∧
                      row'.origin = row.origin := by
  have hHeeding := heeding_of_calls hReach
  have hSame := hHeeding.committed
  refine ⟨hSame, ?_, ?_⟩
  · intro e w' kind reportId hNext hHidden
    have hKeep :=
      (Backend.heeding_of_next
        (keeps_ownership tools.repr calls d) hHeeding
        hNext).2
    apply (hKeep kind reportId hHidden).imp_right
    exact destroys_of_sameOrigins hSame
  · intro kind reportId row hFind hShown hNobody
    have hBoth := hSame kind reportId
    rw [hFind, Option.map_some, Option.map_eq_some_iff]
      at hBoth
    rcases hBoth with ⟨row', hFind', hOrigin⟩
    refine ⟨row', hFind', ?_, hOrigin⟩
    rw [← Bool.not_eq_true]
    intro hDeleted
    rcases
      hidden_of_reaches hReach ⟨row', hFind', hDeleted⟩ with
      ⟨old, hOld, hWas⟩ | ⟨t, user, now, old, hCall, hOld,
        hUser⟩
    · rw [hFind] at hOld
      cases hOld
      rw [hShown] at hWas
      cases hWas
    · rw [hFind] at hOld
      cases hOld
      exact hNobody t user now hCall hUser

------------------------------------------------------------
-- A Stranger's Request
------------------------------------------------------------

/- User 1 asks for the deletion of a report of user 0. -/
def strangersCalls : Tid → Option ReportCall
| 0 => some (.destroy .ssl 1 0 7)
| 1 => some (.work (.ssl 0 0))
| _ => none

/- The scan fails; the report is there for its owner. -/
theorem reports_stay_their_owners_stranger :
    ∃ w : ReportWorld,
      (backend someTools.repr).machine.Reaches
          Machine.anyEvent
          (startCalls someTools strangersCalls submittedScans)
          w ∧
        w.threads 0 =
            .live (.raise (.doesNotExist "SSLReport")) ∧
          ∃ row,
            w.shared.committed.find .ssl 0 = some row ∧
              row.isDeleted = false ∧
                row.origin = (some 0, "https://a.io/") := by
  have hRun :
      ∃ w : ReportWorld,
        (backend someTools.repr).machine.Reaches
            Machine.anyEvent
            (startCalls someTools strangersCalls
              submittedScans) w ∧
          w.threads 0 =
            .live (.raise (.doesNotExist "SSLReport")) :=
    ⟨_,
      Machine.reaches_of_replay
        [.step 1 .proceed, .step 0 .proceed,
          .step 1 (.reply (.scanned none 8)),
          .step 1 .proceed]
        rfl,
      rfl⟩
  rcases hRun with ⟨w, hReach, hRaised⟩
  refine ⟨w, hReach, hRaised, ?_⟩
  apply
    (reports_stay_their_owners someTools strangersCalls
      submittedScans w hReach).2.2 .ssl 0 submittedScan rfl
      rfl
  intro t user now hCall hUser
  cases t with
  | zero =>
      cases hCall
      cases hUser
  | succ t =>
      cases t with
      | zero => cases hCall
      | succ t => cases hCall

end SiteAnalysis.Reports
