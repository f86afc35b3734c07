import SiteAnalysis.Relational.Serial
import SiteAnalysis.Validator.Completion

/-
  This file proves that the stored result of a validation job
  is that of its last successful run.

  The runs of the job come one after another.  Each of them
  draws its own `uuid4`s and meets its own page; each of its
  statements can fail, and the worker can be lost at any of
  them.

  Key definitions include:
    * `SameResult`
    * `History`

  Key theorems include:
    * `wp_processValidation`
    * `result_of_run`
    * `stored_result_of_history`
-/

------------------------------------------------------------
-- Results
------------------------------------------------------------

namespace SiteAnalysis.Validator

open Concurrency
open Relational
open Python

/- The row without the columns of a failure. -/
def ValidationJob.blank
    (row : ValidationJob) : ValidationJob :=
  { row with
    status := .pending
    errorMessage := none }

/- The data without the status and the message of the job. -/
def Db.result
    (d : Db)
    (job : JobId) : Db :=
  { d with
    jobs :=
      Table.update ValidationJob.id job ValidationJob.blank
        d.jobs }

/-
  The data differs at most in the status and the message of
  the job.
-/
structure SameResult
    (job : JobId)
    (d d' : Db) : Prop where
  result : d'.result job = d.result job

variable {platform : Platform} {run : Delivery}
variable {job : JobId} {d d₀ d' d'' : Db}
variable {object : ValidationJob}

theorem SameResult.refl : SameResult job d d := ⟨rfl⟩

theorem SameResult.trans
    (hLeft : SameResult job d d')
    (hRight : SameResult job d' d'') :
    SameResult job d d'' :=
  ⟨hRight.result.trans hLeft.result⟩

theorem SameResult.items
    (hSame : SameResult job d d') : d'.items = d.items :=
  congrArg (fun d => d.items) hSame.result

theorem SameResult.issues
    (hSame : SameResult job d d') : d'.issues = d.issues :=
  congrArg (fun d => d.issues) hSame.result

theorem find_blank
    (job : JobId)
    (rows : List ValidationJob) :
    Table.find ValidationJob.id job
        (Table.update ValidationJob.id job
          ValidationJob.blank rows) =
      (Table.find ValidationJob.id job rows).map
        ValidationJob.blank :=
  Table.find_update_self (fun _ h => h)

/- The row of the job keeps its other columns. -/
theorem SameResult.find
    (hSame : SameResult job d d') :
    (d'.find job).map ValidationJob.blank =
      (d.find job).map ValidationJob.blank := by
  have hJobs :
      Table.update ValidationJob.id job ValidationJob.blank
          d'.jobs =
        Table.update ValidationJob.id job
          ValidationJob.blank d.jobs :=
    congrArg (fun d => d.jobs) hSame.result
  have hFind :=
    congrArg (Table.find ValidationJob.id job) hJobs
  rw [find_blank, find_blank] at hFind
  exact hFind

/- The row that is found after such a change. -/
theorem SameResult.row
    {row : ValidationJob}
    (hSame : SameResult job d d')
    (hFind : d.find job = some row) :
    ∃ row', d'.find job = some row' ∧
      row'.blank = row.blank := by
  have hRow := hSame.find
  rw [hFind] at hRow
  cases hNew : d'.find job with
  | none =>
      rw [hNew] at hRow
      cases hRow
  | some row' =>
      rw [hNew] at hRow
      exact ⟨row', rfl, Option.some.inj hRow⟩

/- Saving the status and the message keeps the result. -/
theorem sameResult_assign
    (object : ValidationJob)
    (fields : List JobField) :
    SameResult object.id d
      { d with
        jobs :=
          Table.update ValidationJob.id object.id
            (object.assign fields) d.jobs } := by
  have hJobs :
      Table.update ValidationJob.id object.id
          ValidationJob.blank
          (Table.update ValidationJob.id object.id
            (object.assign fields) d.jobs) =
        Table.update ValidationJob.id object.id
          ValidationJob.blank d.jobs :=
    Table.update_update (fun _ h => h)
  exact ⟨congrArg (fun jobs => { d with jobs := jobs }) hJobs⟩

theorem sound_assign
    (hSound : d.Sound)
    (object : ValidationJob)
    (fields : List JobField) :
    Db.Sound
      { d with
        jobs :=
          Table.update ValidationJob.id object.id
            (object.assign fields) d.jobs } where
  jobs := Table.keyed_update (fun _ h => h) hSound.jobs
  items := hSound.items
  issues := hSound.issues

/- A result is kept by what keeps the other columns. -/
theorem Reflects.of_same
    {objects : List (SchemaFormat × Json)}
    (hReflects : Reflects platform job objects d)
    (hSame : SameResult job d d') :
    Reflects platform job objects d' := by
  have hItems : d'.liveItems job = d.liveItems job := by
    rw [Db.liveItems, Db.liveItems, hSame.items]
  have hIssues : d'.liveIssues job = d.liveIssues job := by
    rw [Db.liveIssues, Db.liveIssues, hItems, hSame.issues]
  refine ⟨?_, ?_, ?_, ?_⟩
  · rw [hItems]
    exact hReflects.items
  · rw [hItems]
    exact hReflects.validated
  · rw [hItems, hIssues]
    exact hReflects.issues
  · rcases hReflects.row with ⟨old, hFind, hOld⟩
    rcases hSame.row hFind with ⟨new, hNew, hBlank⟩
    simp only [ValidationJob.blank, ValidationJob.mk.injEq]
      at hBlank
    refine ⟨new, hNew, ?_⟩
    rw [hItems, hIssues]
    simpa [hBlank] using hOld

/- The result is that of a page that the run has fetched. -/
def Stored
    (platform : Platform)
    (run : Delivery)
    (job : JobId)
    (d : Db) : Prop :=
  ∃ row html objects, d.find job = some row ∧
    run.client row.url = .text html ∧
      extractAll platform html = .ok objects ∧
        Reflects platform job objects d

theorem Stored.of_same
    (hStored : Stored platform run job d)
    (hSame : SameResult job d d') :
    Stored platform run job d' := by
  rcases hStored with
    ⟨old, html, objects, hFind, hPage, hObjects, hReflects⟩
  rcases hSame.row hFind with ⟨new, hNew, hBlank⟩
  simp only [ValidationJob.blank, ValidationJob.mk.injEq]
    at hBlank
  refine
    ⟨new, html, objects, hNew, ?_, hObjects,
      hReflects.of_same hSame⟩
  rw [hBlank.2.2.1]
  exact hPage

------------------------------------------------------------
-- One Run
------------------------------------------------------------

/-
  Until the run has stored its result the earlier one is
  there; what is noted is whether it has.
-/
def runInvariant
    (platform : Platform)
    (run : Delivery)
    (job : JobId)
    (d₀ d : Db)
    (stored : Bool) : Prop :=
  d.Sound ∧
    if stored then
      Stored platform run job d
    else
      SameResult job d₀ d

def runSerial
    (platform : Platform)
    (run : Delivery)
    (job : JobId)
    (d₀ : Db) :
    Serial (backend platform.dumpDepth) ProcessOutcome
      Bool where
  ok := Machine.anyEvent
  inv := runInvariant platform run job d₀
  atWork := fun stored => stored = false
  note := fun _ _ _ stored => stored
  noteCommit := fun _ _ => true
  noteLost := fun _ => false
  lost := by
    intro d stored hWork hInv
    rw [hWork] at hInv
    exact hInv

/- A run has stored its result exactly when it succeeds. -/
abbrev Succeeds
    (outcome : ProcessOutcome)
    (l : Regime.Local Db Empty Unit (Option Db) Bool) :
    Prop :=
  l.note = true ↔ outcome = .status .completed

/- A run that raises has stored nothing. -/
abbrev Unstored
    (_ : Exc)
    (l : Regime.Local Db Empty Unit (Option Db) Bool) :
    Prop :=
  l.note = false

section Rules

variable {l : Regime.Local Db Empty Unit (Option Db) Bool}

/- A run between transactions that has stored nothing. -/
structure Pending
    (job : JobId)
    (d₀ d : Db)
    (l : Regime.Local Db Empty Unit (Option Db) Bool) :
    Prop where
  outside : Serial.Outside d false l
  sound : d.Sound
  same : SameResult job d₀ d

theorem Pending.inv
    (platform : Platform)
    (run : Delivery)
    (hPending : Pending job d₀ d l) :
    (runSerial platform run job d₀).inv d false :=
  ⟨hPending.sound, hPending.same⟩

/- A run that returns without a success. -/
theorem succeeds_of_other
    {outcome : ProcessOutcome}
    (hOther : outcome ≠ .status .completed)
    (hOutside : Serial.Outside d false l) :
    Succeeds outcome l := by
  apply iff_of_false _ hOther
  rw [hOutside.note]
  exact Bool.false_ne_true

/- Saving columns by name, with what comes next. -/
theorem wp_saveJobFields
    {α : Type}
    {fields : List JobField}
    {rest : Service α}
    {Q :
      α → Regime.Local Db Empty Unit (Option Db) Bool →
        Prop}
    (hJob : object.id = job)
    (hPending : Pending job d₀ d l)
    (hRest :
      ∀ d' l', Pending job d₀ d' l' →
        (runSerial platform run job d₀).wp rest Q Unstored
          l') :
    (runSerial platform run job d₀).wp
      (query (.saveJobFields object fields) >>=
        fun _ => rest)
      Q Unstored l := by
  apply Discipline.wp_bind
  apply Serial.wp_execute_sole rfl hPending.outside
  · intro e l' c hOutside _
    exact hOutside.note
  · intro x
    cases x
  · intro a lock f _ hPlan
    have hPlan' :
        plan platform.dumpDepth
            (.saveJobFields object fields) d =
          .done a lock f := hPlan
    have hData := saveJobFields_eq_done hPlan'
    have hSame : SameResult job d₀ (f d) := by
      rw [hData]
      apply hPending.same.trans
      rw [← hJob]
      exact sameResult_assign object fields
    have hSound : (f d).Sound := by
      rw [hData]
      exact sound_assign hPending.sound object fields
    refine ⟨⟨hSound, hSame⟩, ?_⟩
    intro l' hOutside
    exact hRest _ l' ⟨hOutside, hSound, hSame⟩

/- The handler stores nothing. -/
theorem wp_failJob
    {e : Exc}
    (hJob : object.id = job)
    (hPending : Pending job d₀ d l) :
    (runSerial platform run job d₀).wp (failJob object e)
      Succeeds Unstored l := by
  unfold failJob
  apply wp_saveJobFields
  · exact hJob
  · exact hPending
  · intro d' l' hPending'
    exact succeeds_of_other (by decide) hPending'.outside

/- A statement of the transaction. -/
theorem wp_statement
    {α : Type}
    {q : Statement}
    {p : Db → Db}
    {rest : q.Answer → Service α}
    {Q :
      α → Regime.Local Db Empty Unit (Option Db) Bool →
        Prop}
    (hInside : Serial.Inside d p false l)
    (hInv : runInvariant platform run job d₀ d false)
    (hRest :
      ∀ a lock f l',
        plan platform.dumpDepth q (p d) = .done a lock f →
          Serial.Inside d (f ∘ p) false l' →
            (runSerial platform run job d₀).wp (rest a) Q
              (fun _ => Regime.Abandons (some d) false)
              l') :
    (runSerial platform run job d₀).wp
      ((query q).bind rest) Q
      (fun _ => Regime.Abandons (some d) false) l := by
  apply Discipline.wp_bind
  apply Serial.wp_execute_inside rfl hInside hInv
  · intro e l' hAbandons
    exact hAbandons
  · intro x
    cases x
  · intro a lock f hPlan
    refine ⟨rfl, ?_⟩
    intro l' hInside'
    exact hRest a lock f l' hPlan hInside'

/- The transaction stores the result of the objects. -/
theorem wp_storeFindings
    {html : String}
    {objects : List (SchemaFormat × Json)}
    (hPage : run.client object.url = .text html)
    (hObjects : extractAll platform html = .ok objects)
    (hJob : object.id = job)
    (hPending : Pending job d₀ d l) :
    (runSerial platform run job d₀).wp
      (storeFindings object
        (collectFindings platform run object.id objects)
        (completedJob object objects
          (collectFindings platform run object.id objects)))
      (fun _ l' => l'.note = true)
      (fun _ => Serial.Outside d false) l := by
  apply Serial.wp_atomic_sole rfl hPending.outside
  · intro e l' hOutside
    exact hOutside
  intro l₀ hInside
  have hInv :
      runInvariant platform run job d₀ d false :=
    hPending.inv platform run
  apply wp_statement hInside hInv
  intro a₁ lock₁ f₁ l₁ hDelete hInside₁
  apply wp_statement hInside₁ hInv
  intro a₂ lock₂ f₂ l₂ hItems hInside₂
  apply wp_statement hInside₂ hInv
  intro a₃ lock₃ f₃ l₃ hIssues hInside₃
  apply Serial.wp_execute_inside rfl hInside₃ hInv
  · intro e l' hAbandons
    exact hAbandons
  · intro x
    cases x
  · intro a₄ lock₄ f₄ hSave
    refine ⟨rfl, ?_⟩
    intro l₄ hInside₄
    cases hDelete
    rcases bulkCreateItems_eq_done hItems with
      ⟨hFresh, rfl⟩
    have hIssuesEq := bulkCreateIssues_eq_done hIssues
    subst hIssuesEq
    rcases writeIf_eq_done hSave with ⟨_, rfl⟩
    refine ⟨_, hInside₄, ⟨?_, ?_⟩, ?_⟩
    · exact
        sound_replaceResult hPending.sound
          (covers_collect _ _ _ objects) hFresh
    · subst hJob
      refine
        ⟨completedJob object objects
            (collectFindings platform run object.id objects),
          html, objects, ?_, hPage, hObjects, ?_⟩
      · exact find_replaceResult _ _ d
      · exact
          reflects_replaceResult hPending.sound hFresh
    · intro l'' hOutside
      exact hOutside.note

/- The `try` statement. -/
theorem wp_validatePage
    (hJob : object.id = job)
    (hPending : Pending job d₀ d l) :
    (runSerial platform run job d₀).wp
      ((validatePage platform run object).tryCatch
        (failJob object))
      Succeeds Unstored l := by
  apply Discipline.wp_tryCatch
  unfold validatePage fetchPage
  cases hPage : run.client object.url with
  | httpError m => exact wp_failJob hJob hPending
  | otherError m => exact wp_failJob hJob hPending
  | text html =>
      cases hObjects : extractAll platform html with
      | error e =>
          have hRaise :
              (runSerial platform run job d₀).wp
                (Prog.raise e) Succeeds
                (fun e =>
                  (runSerial platform run job d₀).wp
                    (failJob object e) Succeeds Unstored)
                l :=
            wp_failJob hJob hPending
          simpa [Prog.ofExcept, bind, Prog.bind, hObjects]
            using hRaise
      | ok objects =>
          have hStore :=
            wp_storeFindings hPage hObjects hJob hPending
          simp only [Prog.ofExcept, bind, Prog.bind,
            Prog.handle_ret, hObjects]
          apply Discipline.wp_bind
          apply Discipline.wp_mono hStore
          · intro a l' hStored
            exact iff_of_true hStored rfl
          · intro e l' hOutside
            exact
              wp_failJob hJob
                ⟨hOutside, hPending.sound, hPending.same⟩

/- What a run of the task does. -/
theorem wp_processValidation
    (hPending : Pending job d₀ d l) :
    (runSerial platform run job d₀).wp
      (processValidation platform run job) Succeeds
      Unstored l := by
  apply Discipline.wp_handle
  apply Serial.wp_execute_sole rfl hPending.outside
  · intro e l' c hOutside _
    unfold skipMissing
    split
    · exact succeeds_of_other (by decide) hOutside
    · exact hOutside.note
  · intro x
    cases x
  · intro stored lock f _ hPlan
    simp only [backend, plan] at hPlan
    split at hPlan
    · rename_i found hFound
      cases hPlan
      have hId : stored.id = job :=
        Table.key_of_find
          (Option.filter_eq_some_iff.mp hFound).1
      refine
        ⟨⟨hPending.sound, hPending.same⟩, ?_⟩
      intro l' hOutside
      have hPending' : Pending job d₀ d l' :=
        ⟨hOutside, hPending.sound, hPending.same⟩
      change
        (runSerial platform run job d₀).wp
          (processJob platform run stored) Succeeds
          Unstored l'
      unfold processJob
      apply wp_saveJobFields
      · exact hId
      · exact hPending'
      · intro d' l'' hPending''
        exact wp_validatePage hId hPending''
    · cases hPlan

end Rules

------------------------------------------------------------
-- Histories
------------------------------------------------------------

abbrev RunWorld :=
  World (Store Db Empty) (TxOp Statement)
    (TxOp.Res Statement.Answer) Exc ProcessOutcome

/- A run of the job comes from the data to the world. -/
def Runs
    (platform : Platform)
    (run : Delivery)
    (job : JobId)
    (d : Db)
    (w : RunWorld) : Prop :=
  (backend platform.dumpDepth).machine.Reaches
    Machine.anyEvent
    ((backend platform.dumpDepth).soleWorld
      (processValidation platform run job) d)
    w

/- The run has returned `completed`. -/
def Completed (w : RunWorld) : Prop :=
  w.threads 0 = .live (.ret (.status .completed))

/-
  The data after runs of the job, one after another, with the
  last run that was successful.
-/
inductive History
    (platform : Platform)
    (job : JobId)
    (d₀ : Db) : Option Delivery → Db → Prop
  | start : History platform job d₀ none d₀
  | succeed
      {last : Option Delivery}
      {d : Db}
      {run : Delivery}
      {w : RunWorld}
      (hBefore : History platform job d₀ last d)
      (hRuns : Runs platform run job d w)
      (hCompleted : Completed w) :
      History platform job d₀ (some run) w.shared.committed
  | fail
      {last : Option Delivery}
      {d : Db}
      {run : Delivery}
      {w : RunWorld}
      (hBefore : History platform job d₀ last d)
      (hRuns : Runs platform run job d w)
      (hOver : ¬ w.Live 0)
      (hFailed : ¬ Completed w) :
      History platform job d₀ last w.shared.committed

/- The stored result of the job after the history. -/
def StoredBy
    (platform : Platform)
    (job : JobId)
    (d₀ d : Db) : Option Delivery → Prop
| none => SameResult job d₀ d
| some run => Stored platform run job d

variable {w : RunWorld} {last : Option Delivery}

/- What one run leaves at each of its points. -/
theorem result_of_run
    (hSound : d.Sound)
    (hRuns : Runs platform run job d w) :
    w.shared.committed.Sound ∧
      (Completed w →
        Stored platform run job w.shared.committed) ∧
        (¬ Completed w →
          SameResult job d w.shared.committed) := by
  rcases
    Serial.outcome_of_reaches
      (S := runSerial platform run job d) (n := false)
      ⟨hSound, SameResult.refl⟩
      (fun l hOutside =>
        wp_processValidation
          ⟨hOutside, hSound, SameResult.refl⟩)
      hRuns with
    ⟨stored, hInv, hRet, hRaise, hLost, hWork⟩
  refine ⟨hInv.1, ?_, ?_⟩
  · intro hCompleted
    rcases hRet _ hCompleted with ⟨l, hSucceeds, hNote⟩
    have hStored : stored = true := by
      rw [← hNote]
      exact hSucceeds.mpr rfl
    have hResult := hInv.2
    rwa [hStored, if_pos rfl] at hResult
  · intro hFailed
    have hStored : stored = false := by
      cases hThread : w.threads 0 with
      | lost =>
          rcases hLost hThread with ⟨m, hNote⟩
          exact hNote
      | live p =>
          cases p with
          | ret outcome =>
              rcases hRet outcome hThread with
                ⟨l, hSucceeds, hNote⟩
              rw [← hNote, ← Bool.not_eq_true]
              intro hTrue
              apply hFailed
              rw [Completed, hThread, hSucceeds.mp hTrue]
          | raise e =>
              rcases hRaise e hThread with
                ⟨l, hNone, hNote⟩
              rw [← hNote]
              exact hNone
          | call o k =>
              apply hWork
              simp [World.Live, hThread]
    have hResult := hInv.2
    rwa [hStored, if_neg Bool.false_ne_true] at hResult

/- A history keeps the keys and stores the last result. -/
theorem stored_of_history
    (hSound : d₀.Sound)
    (hHistory : History platform job d₀ last d) :
    d.Sound ∧ StoredBy platform job d₀ d last := by
  induction hHistory with
  | start => exact ⟨hSound, SameResult.refl⟩
  | succeed hBefore hRuns hCompleted ih =>
      have hRun := result_of_run ih.1 hRuns
      exact ⟨hRun.1, hRun.2.1 hCompleted⟩
  | @fail last d run w hBefore hRuns hOver hFailed ih =>
      have hRun := result_of_run ih.1 hRuns
      refine ⟨hRun.1, ?_⟩
      have hSame := hRun.2.2 hFailed
      cases last with
      | none => exact SameResult.trans ih.2 hSame
      | some run => exact Stored.of_same ih.2 hSame

/-
  After any history the stored result is that of the last
  successful run, and a run that does not succeed changes no
  more than the status and the message of the job.
-/
theorem stored_result_of_history
    (hSound : d₀.Sound)
    (hHistory : History platform job d₀ last d) :
    StoredBy platform job d₀ d last ∧
      ∀ run w, Runs platform run job d w → ¬ Completed w →
        SameResult job d w.shared.committed := by
  have hStored := stored_of_history hSound hHistory
  refine ⟨hStored.2, ?_⟩
  intro run w hRuns hFailed
  exact (result_of_run hStored.1 hRuns).2.2 hFailed

/- The result of a page with one object is stored. -/
theorem stored_result_thing :
    ∃ d,
      History (typedPlatform thingType) 0 newJobDb
          (some typedRun) d ∧
        Stored (typedPlatform thingType) typedRun 0 d := by
  rcases completes_typedRun with ⟨objects, s, hRun, _⟩
  have hRuns :
      Runs (typedPlatform thingType) typedRun 0 newJobDb _ :=
    Machine.reaches_of_run (undisturbed noAnswers) rfl hRun
  have hHistory :=
    History.start.succeed hRuns
      (World.put_threads_self _ _ 0 _)
  exact
    ⟨_, hHistory,
      (stored_result_of_history sound_newJobDb
        hHistory).1⟩

end SiteAnalysis.Validator
