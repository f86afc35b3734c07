import SiteAnalysis.FullReport.Storage
import SiteAnalysis.Relational.Single

/-
  This file proves when the purges of the full reports only
  remove what is finished and old enough.

  A purge compares the time at which a report was created,
  and looks neither at its status nor at the time at which
  its file was stored.  Creations, deliveries, soft deletions
  and purges go on in parallel, statement by statement.

  Key definitions include:
    * `startOperations`
    * `Unfinished`
    * `Timely`
    * `Punctual`
    * `Expiry.regime`

  Key theorems include:
    * `undisturbed_of_done`
    * `undisturbed_of_reply`
    * `purges_timely`
-/

------------------------------------------------------------
-- Schedules
------------------------------------------------------------

namespace SiteAnalysis.FullReport

open Concurrency
open Relational
open Python
open Reports

abbrev OperationWorld :=
  World (Store Archive Empty) (TxOp Retention.Statement)
    (TxOp.Res Retention.Statement.Answer) Exc Unit

/- A purge has the retention, and a cursor of its own. -/
def Operation.scheduled
    (retention : Time)
    (t : Tid) : Operation → Operation
| .purge _ _ => .purge retention t
| operation => operation

/- Operations in parallel. -/
def startOperations
    (tooling : Tooling)
    (retention : Time)
    (operation : Tid → Operation)
    (d : Archive) : OperationWorld where
  shared := Store.quiet d
  threads := fun t =>
    .live
      (((operation t).scheduled retention t).program tooling)

/- The job of the report is still pending or processing. -/
def Unfinished (row : FullReportRow) : Prop :=
  row.status = .pending ∨ row.status = .processing

/- Every file of the report was stored by the time. -/
def StoredBy
    (d : Archive)
    (time : Time)
    (report : ReportId) : Prop :=
  ∀ name stored, (name, stored) ∈ d.storedAt →
    InDirectory report name → stored ≤ time

/-
  A purge that has started at the time may remove the report:
  its job is finished, and its files are as old as the
  retention.
-/
structure Timely
    (retention : Time)
    (d : Archive)
    (started : Time)
    (report : ReportId) : Prop where
  finished :
    ∀ row, d.find report = some row → ¬ Unfinished row
  aged : StoredBy d (started - retention) report

/- The statement removes the row or a file of the report. -/
def Retention.Statement.Removes
    (started : Time)
    (report : ReportId) : Retention.Statement → Prop
| .deleteFile time _ name =>
    time = started ∧ InDirectory report name
| .deleteReport time removed =>
    time = started ∧ removed = report
| _ => False

/- A purge that is at work has listed the report. -/
def Listed
    (live : Tid → Prop)
    (d : Archive)
    (report : ReportId) : Prop :=
  ∃ t, live t ∧ (t, report) ∈ d.cursors

/-
  A purge lists its reports when each of those that were
  created before is finished, and has no later file; and no
  delivery starts on a listed report, or stores a file of it,
  while the purge is at work.
-/
def PunctualAt
    (live : Tid → Prop)
    (d : Archive) : Retention.Statement → Prop
| .filterExpired _ cutoff =>
    ∀ row ∈ d.expired cutoff,
      ¬ Unfinished row ∧ StoredBy d cutoff row.id
| .task (.saveReportFields object _) =>
    Unfinished object → ¬ Listed live d object.id
| .task (.storeFile name _) =>
    ∀ report, InDirectory report name →
      ¬ Listed live d report
| _ => True

def Punctual
    (w : OperationWorld) :
    Event (Choice Exc Retention.Reply) → Prop
| .step t _ =>
    ∀ q, (w.threads t).head = some (.query q) →
      PunctualAt w.Live w.shared.committed q
| .lose _ => True

------------------------------------------------------------
-- Undisturbed Reports
------------------------------------------------------------

/- The files of the reports are in their directories. -/
def Archive.Filed (d : Archive) : Prop :=
  ∀ row ∈ d.base.reports, ∀ name, row.file = some name →
    InDirectory row.id name

/-
  What a change leaves of the reports that purges at work
  have listed: none of them becomes unfinished, and no file
  of them is stored.
-/
structure Undisturbed
    (live : Tid → Prop)
    (d d' : Archive) : Prop where
  filed : d.Filed → d'.Filed
  cursors : ∀ x ∈ d.cursors, x ∈ d'.cursors
  created :
    ∀ report, d.createdAt report ≠ none →
      d'.createdAt report ≠ none
  finished :
    ∀ t report, live t → (t, report) ∈ d.cursors →
      d.createdAt report ≠ none →
        (∀ row, d.find report = some row → ¬ Unfinished row) →
          ∀ row, d'.find report = some row → ¬ Unfinished row
  stored :
    ∀ t report, live t → (t, report) ∈ d.cursors →
      ∀ time, StoredBy d time report → StoredBy d' time report

variable {d d' : Archive} {live : Tid → Prop}
variable {q : Retention.Statement}

/- The same reports with the same files. -/
theorem undisturbed_of_same
    (hReports : d'.base.reports = d.base.reports)
    (hCursors : ∀ x ∈ d.cursors, x ∈ d'.cursors)
    (hCreated : d'.createdAt = d.createdAt)
    (hStored : d'.storedAt = d.storedAt) :
    Undisturbed live d d' := by
  have hFind : ∀ report, d'.find report = d.find report := by
    intro report
    unfold Archive.find Db.find
    rw [hReports]
  refine ⟨?_, hCursors, ?_, ?_, ?_⟩
  · intro hFiled row hRow
    rw [hReports] at hRow
    exact hFiled row hRow
  · intro report hKey
    rw [hCreated]
    exact hKey
  · intro t report _ _ _ hFinished row hRow
    rw [hFind] at hRow
    exact hFinished row hRow
  · intro t report _ _ time hBy
    unfold StoredBy
    rw [hStored]
    exact hBy

/- A purge lists rows. -/
theorem undisturbed_open
    (cursor : Tid)
    (rows : List FullReportRow) :
    Undisturbed live d (openCursor cursor rows d) := by
  have hCursors :
      ∀ x ∈ d.cursors, x ∈ (openCursor cursor rows d).cursors :=
    fun x hMem => List.mem_append_left _ hMem
  exact undisturbed_of_same rfl hCursors rfl rfl

/- A row is put that is finished unless no purge lists it. -/
theorem undisturbed_put
    {row : FullReportRow}
    (hFile :
      d.Filed → ∀ name, row.file = some name →
        InDirectory row.id name)
    (hStatus :
      ∀ t, live t → (t, row.id) ∈ d.cursors →
        (∀ old, d.find row.id = some old →
          ¬ Unfinished old) →
          ¬ Unfinished row) :
    Undisturbed live d (d.onBase (putReport row)) := by
  have hSelf :
      (d.onBase (putReport row)).find row.id = some row :=
    find_putReport_self row d.base
  have hOther :
      ∀ report, report ≠ row.id →
        (d.onBase (putReport row)).find report =
          d.find report := by
    intro report hNe
    exact find_putReport_of_ne d.base hNe
  refine
    ⟨?_, fun _ hMem => hMem, fun _ hKey => hKey, ?_,
      fun _ _ _ _ _ hBy => hBy⟩
  · intro hFiled found hFound
    rcases Table.mem_put hFound with hOld | hNew
    · exact hFiled found hOld
    · subst hNew
      exact hFile hFiled
  · intro t report hLive hMem _ hFinished found hFound
    by_cases hSame : report = row.id
    · subst hSame
      rw [hSelf] at hFound
      cases hFound
      exact hStatus t hLive hMem hFinished
    · rw [hOther report hSame] at hFound
      exact hFinished found hFound

/- A soft deletion hides a row. -/
theorem undisturbed_hide
    (report : ReportId) :
    Undisturbed live d (d.onBase (hideReport report)) := by
  have hBefore :
      ∀ other row,
        (d.onBase (hideReport report)).find other = some row →
          ∃ old, d.find other = some old ∧
            row.status = old.status := by
    intro other row hFind
    by_cases hSame : other = report
    · subst hSame
      have hUpdate :
          (d.onBase (hideReport other)).find other =
            (d.find other).map
              (fun old => { old with isDeleted := true }) :=
        Table.find_update_self (fun _ hKey => hKey)
      rw [hUpdate] at hFind
      rcases Option.map_eq_some_iff.mp hFind with
        ⟨old, hOld, rfl⟩
      exact ⟨old, hOld, rfl⟩
    · have hUpdate :
          (d.onBase (hideReport report)).find other =
            d.find other :=
        Table.find_update_of_ne (fun _ hKey => hKey) hSame
      rw [hUpdate] at hFind
      exact ⟨row, hFind, rfl⟩
  refine
    ⟨?_, fun _ hMem => hMem, fun _ hKey => hKey, ?_,
      fun _ _ _ _ _ hBy => hBy⟩
  · intro hFiled row hRow
    rcases Table.mem_update hRow with
      ⟨hOld, _⟩ | ⟨old, hOld, _, rfl⟩
    · exact hFiled row hOld
    · exact hFiled old hOld
  · intro t other _ _ _ hFinished row hRow
    rcases hBefore other row hRow with ⟨old, hOld, hSame⟩
    have hDone := hFinished old hOld
    unfold Unfinished at hDone ⊢
    rw [hSame]
    exact hDone

/- A report is created under a key that no report has had. -/
theorem undisturbed_insert
    {row : FullReportRow}
    {now : Time}
    (hFresh : d.createdAt row.id = none)
    (hFile : row.file = none) :
    Undisturbed live d (insertReport row now d) := by
  have hOther :
      ∀ report, report ≠ row.id →
        (insertReport row now d).find report =
          d.find report := by
    intro report hNe
    exact Table.find_append_of_ne (Ne.symm hNe)
  refine
    ⟨?_, fun _ hMem => hMem, ?_, ?_,
      fun _ _ _ _ _ hBy => hBy⟩
  · intro hFiled found hFound
    rcases List.mem_append.mp hFound with hOld | hNew
    · exact hFiled found hOld
    · rw [List.mem_singleton.mp hNew, hFile]
      intro name hName
      cases hName
  · intro report hKey
    unfold insertReport
    by_cases hSame : report = row.id
    · simp [hSame]
    · simpa [hSame] using hKey
  · intro t report _ _ hKey hFinished found hFound
    have hNe : report ≠ row.id := by
      rintro rfl
      exact hKey hFresh
    rw [hOther report hNe] at hFound
    exact hFinished found hFound

/- A report is removed by a purge. -/
theorem undisturbed_remove
    (report : ReportId) :
    Undisturbed live d (d.onBase (removeReport report)) := by
  have hStays :
      ∀ other row,
        (d.onBase (removeReport report)).find other =
            some row →
          d.find other = some row := by
    intro other row hFind
    rw [find_removeReport] at hFind
    split at hFind
    · cases hFind
    · exact hFind
  refine
    ⟨?_, fun _ hMem => hMem, fun _ hKey => hKey, ?_,
      fun _ _ _ _ _ hBy => hBy⟩
  · intro hFiled row hRow
    exact hFiled row (List.mem_filter.mp hRow).1
  · intro t other _ _ _ hFinished row hRow
    exact hFinished row (hStays other row hRow)

/- A file is stored for a report that no purge has listed. -/
theorem undisturbed_store
    {wanted name : String}
    {content : Pdf}
    {now : Time}
    (hUnlisted :
      ∀ report, InDirectory report wanted →
        ¬ Listed live d report)
    (hSame : directory name = directory wanted) :
    Undisturbed live d (d.withFile name content now) := by
  refine
    ⟨fun hFiled => hFiled, fun _ hMem => hMem,
      fun _ hKey => hKey, fun _ _ _ _ _ hDone => hDone, ?_⟩
  intro t report hLive hMem time hBy stored at' hStored hIn
  rcases List.mem_append.mp hStored with hOld | hNew
  · exact hBy stored at' hOld hIn
  · have hEq := Prod.mk.inj (List.mem_singleton.mp hNew)
    rw [hEq.1] at hIn
    have hWanted := inDirectory_of_directory hIn hSame.symm
    exact absurd ⟨t, hLive, hMem⟩ (hUnlisted report hWanted)

/-
  A delivery saves as a whole a report that is completed, with
  a file in its directory, and no report is created with one.
-/
def Careful : Retention.Statement → Prop
| .task (.saveReport object) =>
    object.status = .completed ∧
      ∀ name, object.file = some name →
        InDirectory object.id name
| .createReport row _ => row.file = none
| _ => True

theorem undisturbed_of_done
    {a : q.Answer}
    {lock : Option Empty}
    {f : Archive → Archive}
    (hCareful : Careful q)
    (hPunctual : PunctualAt live d q)
    (hPlan : Retention.plan q d = .done a lock f) :
    Undisturbed live d (f d) := by
  cases q with
  | task q =>
      rcases Verdict.embed_eq_done hPlan with
        ⟨g, hBase, rfl⟩
      cases q with
      | getReport report =>
          simp only [plan] at hBase
          split at hBase
          · cases hBase
            exact
              undisturbed_of_same rfl (fun _ h => h) rfl rfl
          · cases hBase
      | saveReport object =>
          have hWrite := Verdict.writeIf_eq_done hBase
          rw [hWrite.2]
          apply undisturbed_put
          · exact fun _ => hCareful.2
          · intro t _ _ _ hUnfinished
            unfold Unfinished at hUnfinished
            simp [hCareful.1] at hUnfinished
      | saveReportFields object fields =>
          simp only [plan] at hBase
          split at hBase
          · cases hBase
          · rename_i row hFind
            have hWrite := Verdict.writeIf_eq_done hBase
            have hId : row.id = object.id :=
              Table.key_of_find hFind
            have hRow : d.find row.id = some row := by
              rw [hId]
              exact hFind
            rw [hWrite.2]
            apply undisturbed_put
            · intro hFiled
              exact hFiled row (Table.mem_of_find hFind)
            · intro t hLive hMem hFinished hUnfinished
              by_cases hField : .status ∈ fields
              · have hObject : Unfinished object := by
                  simpa [Unfinished, FullReportRow.assign,
                    hField] using hUnfinished
                apply hPunctual hObject
                rw [← hId]
                exact ⟨t, hLive, hMem⟩
              · apply hFinished row hRow
                simpa [Unfinished, FullReportRow.assign,
                  hField] using hUnfinished
      | runTools url strategy => cases hBase
      | storeFile name content => cases hBase
  | timezoneNow => cases hPlan
  | createReport row now =>
      simp only [Retention.plan] at hPlan
      split at hPlan
      · cases hPlan
      · rename_i hFresh
        have hWrite := Verdict.writeIf_eq_done hPlan
        rw [hWrite.2]
        exact undisturbed_insert hFresh hCareful
  | saveDeleted report =>
      simp only [Retention.plan] at hPlan
      split at hPlan
      · cases hPlan
      · cases hPlan
        exact undisturbed_hide report
  | filterExpired cursor cutoff =>
      cases hPlan
      exact undisturbed_open cursor _
  | deleteFile started report name => cases hPlan
  | deleteReport started report =>
      cases hPlan
      exact undisturbed_remove report

theorem undisturbed_of_reply
    {x : Retention.Reply}
    {a : q.Answer}
    (hPunctual : PunctualAt live d q)
    (hReply : Retention.reply q x d = some (a, d')) :
    Undisturbed live d d' := by
  cases q with
  | task q =>
      cases q with
      | storeFile wanted content =>
          rcases reply_storeFile hReply with
            ⟨now, rfl, hSame, _⟩
          exact undisturbed_store hPunctual hSame
      | runTools url strategy =>
          cases x with
          | task y now =>
              simp only [Retention.reply] at hReply
              split at hReply
              · cases y with
                | ran run =>
                    cases hReply
                    exact
                      undisturbed_of_same rfl (fun _ h => h)
                        rfl rfl
                | stored given => cases hReply
              · cases hReply
          | time now => cases hReply
          | removed => cases hReply
      | getReport report => cases x <;> cases hReply
      | saveReport object => cases x <;> cases hReply
      | saveReportFields object fields =>
          cases x <;> cases hReply
  | timezoneNow =>
      cases x with
      | time now =>
          simp only [Retention.reply] at hReply
          split at hReply
          · cases hReply
            exact
              undisturbed_of_same rfl (fun _ h => h) rfl rfl
          · cases hReply
      | task y now => cases hReply
      | removed => cases hReply
  | deleteFile started report name =>
      cases x with
      | removed =>
          cases hReply
          exact undisturbed_of_same rfl (fun _ h => h) rfl rfl
      | task y now => cases hReply
      | time now => cases hReply
  | createReport row now => cases x <;> cases hReply
  | saveDeleted report => cases x <;> cases hReply
  | filterExpired cursor cutoff =>
      cases x <;> cases hReply
  | deleteReport started report =>
      cases x <;> cases hReply

------------------------------------------------------------
-- The Regime
------------------------------------------------------------

/-
  What is noted of a purge: the time at which it has started
  and the rows that it has listed.
-/
abbrev Listing :=
  List (Time × FullReportRow)

variable {retention : Time} {t : Tid} {n : Listing}
variable {ns : Tid → Listing}

/- A listed report can be removed at any later time. -/
structure Awaits
    (retention : Time)
    (d : Archive)
    (t : Tid)
    (entry : Time × FullReportRow) : Prop where
  listed : (t, entry.2.id) ∈ d.cursors
  created : d.createdAt entry.2.id ≠ none
  filed :
    ∀ name, entry.2.file = some name →
      InDirectory entry.2.id name
  timely : Timely retention d entry.1 entry.2.id

/- A purge only removes what it has listed. -/
def Announced
    (n : Listing) : Retention.Statement → Prop
| .deleteFile started report name =>
    ∃ row, (started, row) ∈ n ∧ row.id = report ∧
      row.file = some name
| .deleteReport started report =>
    ∃ row, (started, row) ∈ n ∧ row.id = report
| _ => True

/- The rows are noted once they have been listed. -/
def noteListing
    (retention : Time) :
    (q : Retention.Statement) → q.Answer → Listing → Listing
| .filterExpired _ cutoff, rows, _ =>
    rows.map (fun row => (cutoff + retention, row))
| _, _, n => n

/- Every listed report is kept as it was listed. -/
def ListedKept
    (retention : Time)
    (d : Archive)
    (ns : Tid → Listing)
    (live : Tid → Prop) : Prop :=
  d.Filed ∧
    ∀ t, live t → ∀ entry ∈ ns t, Awaits retention d t entry

def expiryRegime
    (retention : Time) :
    Regime Retention.backend Unit Unit Unit Listing where
  ok := Punctual
  frag := fun _ _ => ()
  own := fun _ _ => ()
  inv := ListedKept retention
  antitone := fun _ _ _ _ hSub hInv =>
    ⟨hInv.1, fun t hLive => hInv.2 t (hSub t hLive)⟩
  guar := fun _ _ _ => True
  guar_refl := fun _ _ => trivial
  shape := fun l o =>
    ∀ q, o = some (.query q) → Announced l.note q
  note := fun _ q a _ n => noteListing retention q a n
  noteError := fun _ n => n
  inv_error := by
    intro t q d ns live hInv
    rw [Function.update_eq_self]
    exact hInv
  noteCommit := fun _ _ n => n
  noteLost := fun n => n

theorem listedKept_undisturbed
    (hKept : ListedKept retention d ns live)
    (hUndisturbed : Undisturbed live d d') :
    ListedKept retention d' ns live := by
  refine ⟨hUndisturbed.filed hKept.1, ?_⟩
  intro t hLive entry hMem
  have hAwaits := hKept.2 t hLive entry hMem
  exact
    { listed := hUndisturbed.cursors _ hAwaits.listed
      created := hUndisturbed.created _ hAwaits.created
      filed := hAwaits.filed
      timely :=
        { finished :=
            hUndisturbed.finished t _ hLive hAwaits.listed
              hAwaits.created hAwaits.timely.finished
          aged :=
            hUndisturbed.stored t _ hLive hAwaits.listed _
              hAwaits.timely.aged } }

/- A change that leaves the listed reports is published. -/
theorem publishable_undisturbed
    {mine : Empty → Prop}
    (hInv : (expiryRegime retention).inv d ns live)
    (hNote : ns t = n)
    (hUndisturbed : Undisturbed live d d') :
    (expiryRegime retention).Publishable t ns live mine d d'
      n where
  inv :=
    Regime.inv_same (listedKept_undisturbed hInv hUndisturbed)
      hNote
  guar := trivial
  own := fun _ _ => rfl
  frag := fun _ _ => rfl

/- The run is punctual at the statement. -/
theorem punctual_of_permits
    {c : Choice Exc Retention.Reply}
    (hPermits :
      (expiryRegime retention).Permits t (.query q) c d ns
        live) :
    PunctualAt live d q := by
  rcases hPermits.world with
    ⟨w, ls, _, rfl, _, rfl, hHead, hOk⟩
  exact hOk q hHead

/- A stored file is in the directory it was to be in. -/
def StoresInDirectory :
    (x : TxOp Retention.Statement) →
      TxOp.Res Retention.Statement.Answer x → Prop
| .query (.task (.storeFile wanted _)), name =>
    ∀ report, InDirectory report wanted →
      InDirectory report name
| _, _ => True

/- What an operation executes besides the listing. -/
structure Routine
    (n : Listing)
    (q : Retention.Statement) : Prop where
  careful : Careful q
  announced : Announced n q
  other : ∀ cursor cutoff, q ≠ .filterExpired cursor cutoff

theorem noteListing_of_routine
    (hRoutine : Routine n q)
    (a : q.Answer)
    (n' : Listing) :
    noteListing retention q a n' = n' := by
  cases q with
  | filterExpired cursor cutoff =>
      exact absurd rfl (hRoutine.other cursor cutoff)
  | _ => rfl

theorem trusted_of_reply
    {x : Retention.Reply}
    {a : q.Answer}
    (hReply : Retention.reply q x d = some (a, d')) :
    StoresInDirectory (.query q) a := by
  cases q with
  | task q =>
      cases q with
      | storeFile wanted content =>
          rcases reply_storeFile hReply with
            ⟨now, _, hSame, _⟩
          intro report hWanted
          exact inDirectory_of_directory hWanted hSame
      | _ => trivial
  | _ => trivial

theorem trusted_of_done
    {a : q.Answer}
    {lock : Option Empty}
    {f : Archive → Archive}
    (hPlan : Retention.plan q d = .done a lock f) :
    StoresInDirectory (.query q) a := by
  cases q with
  | task q =>
      cases q with
      | storeFile wanted content => cases hPlan
      | _ => trivial
  | _ => trivial

theorem minds_of_routine
    (hRoutine : Routine n q) :
    (expiryRegime retention).Minds t () n StoresInDirectory
      q where
  shape := by
    intro l hRest q' hSame
    cases hSame
    rw [hRest.note]
    exact hRoutine.announced
  note := fun a _ => noteListing_of_routine hRoutine a n
  noteError := rfl
  own := fun _ => rfl
  reply := by
    intro d ns live hRests x a d' hPermits hReply
    exact
      ⟨publishable_undisturbed hRests.inv hRests.note
          (undisturbed_of_reply (punctual_of_permits hPermits)
            hReply),
        trusted_of_reply hReply⟩
  plan := by
    intro d ns live hRests hPermits a lock f hPlan
    exact
      ⟨publishable_undisturbed hRests.inv hRests.note
          (undisturbed_of_done hRoutine.careful
            (punctual_of_permits hPermits) hPlan),
        trusted_of_done hPlan⟩

------------------------------------------------------------
-- Operations
------------------------------------------------------------

variable {tooling : Tooling}
variable {l : Regime.Local Archive Empty Unit Unit Listing}

/- A routine statement of a connection. -/
def RoutineOp
    (n : Listing)
    (x : TxOp Retention.Statement) : Prop :=
  ∃ q, x = .query q ∧ Routine n q

/- The program follows its routine. -/
abbrev Follows
    {α : Type}
    (n : Listing)
    (p : Retention.Service α) : Prop :=
  p.Heeds (RoutineOp n) StoresInDirectory (fun _ => True)

theorem wp_follows
    {α : Type}
    {p : Retention.Service α}
    (hFollows : Follows n p)
    (hRest : Regime.Resting () n l) :
    (expiryRegime retention).wp t p
      (fun _ => Regime.Resting () n)
      (fun _ => Regime.Resting () n) l := by
  apply Regime.wp_heeds _ hFollows hRest
  rintro x ⟨q, rfl, hRoutine⟩
  exact ⟨q, rfl, minds_of_routine hRoutine⟩

theorem follows_query
    (hRoutine : Routine n q) :
    Follows n (Retention.query q) :=
  (Prog.heeds_perform ⟨q, rfl, hRoutine⟩).mono
    (fun _ _ => trivial)

theorem follows_timezoneNow :
    Follows n (Retention.query .timezoneNow) :=
  follows_query
    ⟨trivial, trivial, fun _ _ hSame => by cases hSame⟩

theorem follows_createFullReport
    (new : NewReport) : Follows n (createFullReport new) := by
  unfold createFullReport
  apply follows_timezoneNow.bind
  intro now _
  exact
    follows_query
      ⟨rfl, trivial, fun _ _ hSame => by cases hSame⟩

theorem follows_softDelete
    (report : ReportId) : Follows n (softDelete report) :=
  follows_query
    ⟨trivial, trivial, fun _ _ hSame => by cases hSame⟩

/- A result of the storage, as the task sees it. -/
def StoresForTask :
    (o : TxOp Statement) → TxOp.Res Statement.Answer o → Prop
| .query (.storeFile wanted _), name =>
    ∀ report, InDirectory report wanted →
      InDirectory report name
| _, _ => True

theorem taskRules_routine :
    TaskRules (fun o => RoutineOp n (o.embed .task))
      StoresForTask := by
  have hPlain :
      ∀ q : Statement, Careful (.task q) →
        RoutineOp n ((TxOp.query q).embed .task) := by
    intro q hCareful
    exact
      ⟨.task q, rfl, hCareful, trivial,
        fun _ _ hSame => by cases hSame⟩
  constructor
  · exact fun report => hPlain (.getReport report) trivial
  · exact fun object fields _ _ =>
      hPlain (.saveReportFields object fields) trivial
  · exact fun url strategy =>
      hPlain (.runTools url strategy) trivial
  · exact fun name content =>
      hPlain (.storeFile name content) trivial
  · intro report filename pdf file result hStored
    apply hPlain (.saveReport _)
    refine ⟨rfl, ?_⟩
    intro name hName
    cases hName
    exact
      hStored report.id
        (inDirectory_reportUploadTo report filename)

theorem follows_deliverFullReport
    (report : ReportId) :
    Follows n (deliverFullReport tooling report) := by
  have hTask :
      (runFullReportTask tooling report).Heeds
        (fun o => RoutineOp n (o.embed .task)) StoresForTask
        (fun _ => True) :=
    heeds_task taskRules_routine report
  apply hTask.embed
  · exact fun _ hAllowed => hAllowed
  · intro o a hTrusted
    cases o with
    | query q =>
        cases q with
        | storeFile wanted content => exact hTrusted
        | _ => trivial
    | _ => trivial

/- The loop removes what has been listed. -/
theorem follows_purgeReports
    {started : Time}
    (rows : List FullReportRow)
    (removed : Nat)
    (hListed : ∀ row ∈ rows, (started, row) ∈ n) :
    Follows n (purgeReports started rows removed) := by
  induction rows generalizing removed with
  | nil => exact trivial
  | cons row rest ih =>
      have hRow := hListed row List.mem_cons_self
      have hFile : Follows n (deleteReportFile started row) := by
        unfold deleteReportFile
        cases hName :
            row.file.filter (fun name => name ≠ "") with
        | none => exact trivial
        | some name =>
            have hOwn := (Option.filter_eq_some_iff.mp hName).1
            exact
              follows_query
                ⟨trivial, ⟨row, hRow, rfl, hOwn⟩,
                  fun _ _ hSame => by cases hSame⟩
      unfold purgeReports
      apply hFile.bind
      intro _ _
      have hDelete :
          Follows n
            (Retention.query (.deleteReport started row.id)) :=
        follows_query
          ⟨trivial, ⟨row, hRow, rfl⟩,
            fun _ _ hSame => by cases hSame⟩
      apply hDelete.bind
      intro _ _
      apply ih
      intro row' hMem
      exact hListed row' (List.mem_cons_of_mem _ hMem)

/- The listing is published with what is noted of it. -/
theorem publishable_listing
    {cutoff : Time}
    (hInv : (expiryRegime retention).inv d ns live)
    (hPunctual :
      PunctualAt live d (.filterExpired t cutoff)) :
    (expiryRegime retention).Publishable t ns live
      (fun _ => False) d (openCursor t (d.expired cutoff) d)
      ((d.expired cutoff).map
        (fun row => (cutoff + retention, row))) := by
  have hKept :=
    listedKept_undisturbed hInv
      (undisturbed_open t (d.expired cutoff))
  refine
    { inv := ⟨hKept.1, ?_⟩
      guar := trivial
      own := fun _ _ => rfl
      frag := fun _ _ => rfl }
  intro t' hLive entry hMem
  by_cases hSame : t' = t
  · subst hSame
    rw [Function.update_self] at hMem
    rcases List.mem_map.mp hMem with ⟨row, hRow, rfl⟩
    have hExpired := Archive.mem_expired.mp hRow
    have hDone := hPunctual row hRow
    constructor
    · exact
        List.mem_append_right _
          (List.mem_map.mpr ⟨row, hRow, rfl⟩)
    · intro hNone
      have hBefore := hExpired.2
      simp only [openCursor] at hNone
      simp [Archive.createdBefore, hNone] at hBefore
    · exact hInv.1 row hExpired.1
    · constructor
      · intro found hFound
        have hId : found.id = row.id :=
          Table.key_of_find hFound
        apply (hPunctual found _).1
        apply Archive.mem_expired.mpr
        refine ⟨Table.mem_of_find hFound, ?_⟩
        rw [hId]
        exact hExpired.2
      · simpa [StoredBy, openCursor] using hDone.2
  · rw [Function.update_of_ne hSame] at hMem
    exact hKept.2 t' hLive entry hMem

theorem wp_purge
    (hRest : Regime.Resting () [] l) :
    (expiryRegime retention).wp t
      ((Operation.purge retention t).program tooling)
      (fun _ _ => True) (fun _ _ => True) l := by
  apply Discipline.wp_bind
  unfold purgeExpiredFullReports
  apply Discipline.wp_bind
  apply Discipline.wp_mono (wp_follows follows_timezoneNow hRest)
  · intro now l₁ hRest₁
    apply Discipline.wp_bind
    apply Regime.wp_execute_rest _ hRest₁
    · exact fun _ _ _ _ => trivial
    · intro d ns live _ x a d' _ hReply
      cases x <;> cases hReply
    · intro d ns live hRests hPermits
      have hListing :
          (expiryRegime retention).Publishable t ns live
            (fun _ => False) d
            (openCursor t (d.expired (now - retention)) d)
            ((d.expired (now - retention)).map
              (fun row => (now - retention + retention, row))) :=
        publishable_listing hRests.inv
          (punctual_of_permits hPermits)
      refine ⟨?_, ?_⟩
      · exact
          ⟨hListing.inv, trivial, fun _ _ => rfl,
            fun _ _ => rfl⟩
      · intro l₂ hRest₂
        apply
          Discipline.wp_mono
            (wp_follows
              (follows_purgeReports _ 0 _) hRest₂)
        · exact fun _ _ _ => trivial
        · exact fun _ _ _ => trivial
        · intro row hRow
          have hStarted :
              now - retention + retention = now :=
            Int.sub_add_cancel now retention
          apply List.mem_map.mpr
          exact ⟨row, hRow, by rw [hStarted]⟩
    · intro q hSame
      cases hSame
      trivial
  · exact fun _ _ _ => trivial

------------------------------------------------------------
-- Runs
------------------------------------------------------------

theorem wp_operation
    (operation : Operation)
    (hRest : Regime.Resting () [] l) :
    (expiryRegime retention).wp t
      ((operation.scheduled retention t).program tooling)
      (fun _ _ => True) (fun _ _ => True) l := by
  cases operation with
  | create new =>
      exact
        Discipline.wp_mono
          (wp_follows (follows_createFullReport new) hRest)
          (fun _ _ _ => trivial) (fun _ _ _ => trivial)
  | deliver report =>
      apply Discipline.wp_bind
      exact
        Discipline.wp_mono
          (wp_follows (follows_deliverFullReport report) hRest)
          (fun _ _ _ => trivial) (fun _ _ _ => trivial)
  | softDelete report =>
      exact
        Discipline.wp_mono
          (wp_follows (follows_softDelete report) hRest)
          (fun _ _ _ => trivial) (fun _ _ _ => trivial)
  | purge _ _ => exact wp_purge hRest

theorem verified_operations
    (operation : Tid → Operation)
    (hFiled : d.Filed) :
    (expiryRegime retention).Verified (fun _ _ _ => True)
      (fun _ _ _ => True) d (fun _ => [])
      (startOperations tooling retention operation d) where
  quiet := rfl
  inv := ⟨hFiled, fun _ _ _ hMem => by cases hMem⟩
  threads := fun t =>
    ⟨_, rfl, wp_operation (operation t) ⟨rfl, rfl, rfl⟩⟩
  ret := fun _ _ _ _ _ hSame => by cases hSame
  raise := fun _ _ _ _ _ hSame => by cases hSame
  lose := by
    intro w ls t hHolds hLive _
    refine ⟨?_, fun _ hSame => by cases hSame⟩
    have hInv := hHolds.1.1
    simp only [expiryRegime, Function.update_eq_self]
    exact ⟨hInv.1, fun t' hLive' => hInv.2 t' hLive'.2⟩

/-
  In every run in which a purge lists its reports when each
  of those that were created before the retention is finished
  and has no later file, and no delivery starts on a listed
  report or stores a file of it while the purge is at work:
  whatever report a purge is about to remove, or a file of
  it, is finished, and its files were stored the retention
  before the purge has started.
-/
theorem purges_timely
    {operation : Tid → Operation}
    {w : OperationWorld}
    (hFiled : d.Filed)
    (hReach :
      Retention.backend.machine.Reaches Punctual
        (startOperations tooling retention operation d) w) :
    ∀ t q started report,
      (w.threads t).head = some (.query q) →
        q.Removes started report →
          Timely retention w.shared.committed started
            report := by
  rcases
    (verified_operations operation hFiled).holds_of_reaches
      hReach with
    ⟨ls, hHolds⟩
  intro t q started report hHead hRemoves
  have hLive : w.Live t := by simp [World.Live, hHead]
  have hAnnounced := hHolds.2 t q hHead
  have hEntry :
      ∀ row, (started, row) ∈ (ls t).note →
        row.id = report →
          Timely retention w.shared.committed started
            report := by
    intro row hMem hId
    have hAwaits := hHolds.1.1.2 t hLive _ hMem
    have hTimely := hAwaits.timely
    rw [hId] at hTimely
    exact hTimely
  cases q with
  | deleteFile time removed name =>
      rcases hRemoves with ⟨rfl, hIn⟩
      rcases hAnnounced with ⟨row, hMem, rfl, hFile⟩
      have hAwaits := hHolds.1.1.2 t hLive _ hMem
      exact
        hEntry row hMem
          (inDirectory_unique (hAwaits.filed name hFile) hIn)
  | deleteReport time removed =>
      rcases hRemoves with ⟨rfl, rfl⟩
      rcases hAnnounced with ⟨row, hMem, hId⟩
      exact hEntry row hMem hId
  | _ => exact hRemoves.elim

------------------------------------------------------------
-- Reports That Are Removed
------------------------------------------------------------

/- The row of a report that was completed at the time 1. -/
def producedReport : FullReportRow :=
  { siteReport.row with
    status := .completed
    file := some firstFile }

def producedArchive : Archive where
  base :=
    { reports := [producedReport]
      storage := [(firstFile, [])] }
  createdAt := fun report => if report = 0 then some 0 else none
  storedAt := [(firstFile, 1)]
  cursors := []
  clock := 1

/- Purges of what was created five units before. -/
abbrev purges : OperationWorld :=
  startOperations blankTooling 5 (fun _ => .purge 5 0)
    producedArchive

/- One of them starts at the time 10 and lists the report. -/
abbrev listed : OperationWorld :=
  (Retention.backend.machine.replay purges
    [.step 0 (.reply (.time 10)), .step 0 .proceed]).getD
      purges

theorem inDirectory_firstFile : InDirectory 0 firstFile := by
  decide +kernel

theorem purges_timely_produced :
    Timely 5 listed.shared.committed 10 0 := by
  have hFiled : producedArchive.Filed := by
    intro row hRow name hName
    cases List.mem_singleton.mp hRow
    cases hName
    exact inDirectory_firstFile
  have hStarted :
      Retention.backend.machine.Reaches Punctual purges
        ((Retention.backend.machine.replay purges
          [.step 0 (.reply (.time 10))]).getD purges) := by
    apply
      Machine.Reaches.refl.tail
        (e := .step 0 (.reply (.time 10))) _ rfl
    intro q hHead
    cases hHead
    trivial
  have hReach :
      Retention.backend.machine.Reaches Punctual purges
        listed := by
    apply hStarted.tail (e := .step 0 .proceed) _ rfl
    intro q hHead
    cases hHead
    intro row hRow
    have hMem := (Archive.mem_expired.mp hRow).1
    cases List.mem_singleton.mp hMem
    constructor
    · intro hUnfinished
      rcases hUnfinished with hPending | hProcessing
      · cases hPending
      · cases hProcessing
    · intro name stored hStored _
      cases List.mem_singleton.mp hStored
      decide
  exact
    purges_timely hFiled hReach 0
      (.deleteFile 10 0 firstFile) 10 0 rfl
      ⟨rfl, inDirectory_firstFile⟩

/- A report is created, delivered and purged. -/
def siteOperations : Tid → Operation
| 0 => .create siteReport
| 1 => .deliver 0
| _ => .purge 5 0

abbrev siteWorld : OperationWorld :=
  startOperations blankTooling 5 siteOperations emptyArchive

/- The purge lists what was created at the time 0. -/
def latePurge : List (Event (Choice Exc Retention.Reply)) :=
  [.step 2 (.reply (.time 10)), .step 2 .proceed]

/- The file is stored at the time 9. -/
def lateDelivery : List (Event (Choice Exc Retention.Reply)) :=
  [.step 1 .proceed, .step 1 .proceed,
    .step 1 (.reply (.task (.ran downRun) 8)),
    .step 1 (.reply (.task (.stored firstFile) 9)),
    .step 1 .proceed]

/-
  A report that is still in the queue is removed, and so is a
  file that was stored just before.
-/
theorem purges_not_timely :
    (¬ ∀ w,
      Retention.backend.machine.Reaches Machine.anyEvent
          siteWorld w →
        ∀ t q started report,
          (w.threads t).head = some (.query q) →
            q.Removes started report →
              ∀ row, w.shared.committed.find report =
                some row → ¬ Unfinished row) ∧
      ¬ ∀ w,
        Retention.backend.machine.Reaches Machine.anyEvent
            siteWorld w →
          ∀ t q started report,
            (w.threads t).head = some (.query q) →
              q.Removes started report →
                StoredBy w.shared.committed (started - 5)
                  report := by
  constructor
  · intro hFinished
    have hReach :=
      Machine.reaches_of_replay
        (M := Retention.backend.machine) (w := siteWorld)
        (creation ++ latePurge) rfl
    exact
      hFinished _ hReach 2 (.deleteReport 10 0) 10 0 rfl
        ⟨rfl, rfl⟩ siteReport.row rfl (Or.inl rfl)
  · intro hAged
    have hReach :=
      Machine.reaches_of_replay
        (M := Retention.backend.machine) (w := siteWorld)
        (creation ++ lateDelivery ++ latePurge) rfl
    have hBy :=
      hAged _ hReach 2 (.deleteFile 10 0 firstFile) 10 0 rfl
        ⟨rfl, inDirectory_firstFile⟩
    have hStored : (9 : Time) ≤ 10 - 5 :=
      hBy firstFile 9 List.mem_cons_self inDirectory_firstFile
    exact absurd hStored (by decide)

end SiteAnalysis.FullReport
