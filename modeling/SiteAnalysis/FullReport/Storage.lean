import SiteAnalysis.FullReport.Downloads
import SiteAnalysis.FullReport.Retention
import SiteAnalysis.Relational.Single

/-
  This file proves when the files in the storage are those of
  the reports in the database.

  Reports are created, produced, soft-deleted and purged one
  after another, and each of these can fail or be lost at any
  statement.  A delivery stores a file before it saves the
  name of it: the file has a report as long as the save goes
  through, and as long as no earlier file of the report is
  left behind.

  Key definitions include:
    * `Archive.Owns`
    * `Archive.Kept`
    * `Operation`
    * `History`
    * `settled`

  Key theorems include:
    * `kept_of_shrinks`
    * `kept_completed`
    * `kept_of_run`
    * `stored_files_owned`
-/

------------------------------------------------------------
-- Files and Reports
------------------------------------------------------------

namespace SiteAnalysis.FullReport

open Concurrency
open Relational
open Python
open Reports

namespace Archive

/- The rows are as the database and the model keep them. -/
structure Sound (d : Archive) : Prop where
  keyed : Table.Keyed FullReportRow.id d.base.reports
  accepted :
    ∀ report row, d.find report = some row →
      row.check = .ok ()
  created :
    ∀ report row, d.find report = some row →
      d.createdAt report ≠ none

/-
  The files of a report are in its directory, where at most
  one is stored, and each stored file is that of a report.
-/
structure Kept (d : Archive) : Prop extends d.Sound where
  filed :
    ∀ report name, d.Owns report name →
      InDirectory report name
  single :
    ∀ report, ∀ name ∈ d.names, ∀ name' ∈ d.names,
      InDirectory report name →
        InDirectory report name' → name = name'
  owned : ∀ name ∈ d.names, ∃ report, d.Owns report name

/- No file of the report is stored. -/
def Vacant
    (d : Archive)
    (report : ReportId) : Prop :=
  ∀ name ∈ d.names, ¬ InDirectory report name

/-
  No file is stored and no report is given a file, and no
  file that is stored loses its report.
-/
structure Shrinks (d d' : Archive) : Prop where
  names : ∀ name ∈ d'.names, name ∈ d.names
  files :
    ∀ report name, d'.Owns report name → d.Owns report name
  owned :
    ∀ report, ∀ name ∈ d'.names, d.Owns report name →
      d'.Owns report name

end Archive

variable {d d' : Archive} {report : ReportId}
variable {row row' object : FullReportRow} {name : String}

/- Such a change keeps the files with their reports. -/
theorem kept_of_shrinks
    (hKept : d.Kept)
    (hShrinks : d.Shrinks d')
    (hSound : d'.Sound) : d'.Kept where
  toSound := hSound
  filed := fun report name hOwns =>
    hKept.filed report name (hShrinks.files report name hOwns)
  single := fun report name hName name' hName' =>
    hKept.single report name (hShrinks.names name hName) name'
      (hShrinks.names name' hName')
  owned := by
    intro name hName
    rcases hKept.owned name (hShrinks.names name hName) with
      ⟨report, hOwns⟩
    exact ⟨report, hShrinks.owned report name hName hOwns⟩

/- The reports and the storage are the same. -/
theorem kept_of_base
    (hKept : d.Kept)
    (hBase : d'.base = d.base)
    (hCreated : d'.createdAt = d.createdAt) : d'.Kept := by
  cases d with
  | mk base createdAt storedAt cursors clock =>
  cases d' with
  | mk base' createdAt' storedAt' cursors' clock' =>
  cases hBase
  cases hCreated
  exact
    ⟨⟨hKept.keyed, hKept.accepted, hKept.created⟩,
      hKept.filed, hKept.single, hKept.owned⟩

/- A file that is stored is that of one report only. -/
theorem owns_unique
    {report' : ReportId}
    (hKept : d.Kept)
    (hLeft : d.Owns report name)
    (hRight : d.Owns report' name) : report = report' :=
  inDirectory_unique (hKept.filed report name hLeft)
    (hKept.filed report' name hRight)

------------------------------------------------------------
-- Changes
------------------------------------------------------------

/- The rows after a row has been put. -/
theorem sound_put
    (hSound : d.Sound)
    (hFind : d.find row.id ≠ none)
    (hCheck : row.check = .ok ()) :
    (d.onBase (putReport row)).Sound where
  keyed := Table.keyed_put hSound.keyed
  accepted := by
    intro report found hFound
    by_cases hSame : report = row.id
    · subst hSame
      have hPut := find_putReport_self row d.base
      cases hFound.symm.trans hPut
      exact hCheck
    · exact
        hSound.accepted report found
          ((find_putReport_of_ne d.base hSame).symm.trans
            hFound)
  created := by
    intro report found hFound
    by_cases hSame : report = row.id
    · subst hSame
      cases hOld : d.find row.id with
      | none => exact absurd hOld hFind
      | some old => exact hSound.created row.id old hOld
    · exact
        hSound.created report found
          ((find_putReport_of_ne d.base hSame).symm.trans
            hFound)

/- A row is saved with the file that it has had. -/
theorem kept_put
    (hKept : d.Kept)
    (hFind : d.find row'.id = some row)
    (hFile : row'.file = row.file)
    (hCheck : row'.check = .ok ()) :
    (d.onBase (putReport row')).Kept := by
  have hSelf :
      (d.onBase (putReport row')).find row'.id = some row' :=
    find_putReport_self row' d.base
  have hSame :
      ∀ report name,
        (d.onBase (putReport row')).Owns report name ↔
          d.Owns report name := by
    intro report name
    by_cases hId : report = row'.id
    · subst hId
      unfold Archive.Owns
      rw [hSelf, hFind]
      simp [hFile]
    · have hOther :
          (d.onBase (putReport row')).find report =
            d.find report :=
        find_putReport_of_ne d.base hId
      unfold Archive.Owns
      rw [hOther]
  apply kept_of_shrinks hKept
  · exact
      ⟨fun _ hName => hName,
        fun report name => (hSame report name).mp,
        fun report name _ => (hSame report name).mpr⟩
  · apply sound_put hKept.toSound _ hCheck
    rw [hFind]
    exact Option.some_ne_none row

/- A report is soft-deleted. -/
theorem hideReport_eq_put
    (hKeyed : Table.Keyed FullReportRow.id d.base.reports)
    (hFind : d.find report = some row) :
    d.onBase (hideReport report) =
      d.onBase (putReport { row with isDeleted := true }) := by
  have hId : row.id = report := Table.key_of_find hFind
  have hRows :
      Table.update FullReportRow.id report
          (fun old => { old with isDeleted := true })
          d.base.reports =
        Table.update FullReportRow.id report
          (fun _ => { row with isDeleted := true })
          d.base.reports := by
    apply List.map_congr_left
    intro old hOld
    by_cases hKey : old.id = report
    · have hSame := Table.find_of_mem hKeyed hOld
      rw [hKey] at hSame
      have hRow : old = row :=
        Option.some.inj (hSame.symm.trans hFind)
      rw [hRow]
    · simp [hKey]
  have hFound :
      Table.find FullReportRow.id report d.base.reports =
        some row := hFind
  unfold Archive.onBase hideReport putReport Table.put
  simp only [hId, hFound, hRows]

theorem kept_removeReport
    (hKept : d.Kept)
    (hVacant : d.Vacant report) :
    (d.onBase (removeReport report)).Kept := by
  have hStays :
      ∀ report' found,
        (d.onBase (removeReport report)).find report' =
            some found →
          d.find report' = some found := by
    intro report' found hFound
    rw [find_removeReport] at hFound
    split at hFound
    · cases hFound
    · exact hFound
  apply kept_of_shrinks hKept
  · refine ⟨fun _ hName => hName, ?_, ?_⟩
    · rintro report' name ⟨found, hFound, hFile⟩
      exact ⟨found, hStays report' found hFound, hFile⟩
    · intro report' name hName hOwns
      have hNe : report' ≠ report := by
        rintro rfl
        exact hVacant name hName (hKept.filed _ name hOwns)
      rcases hOwns with ⟨found, hFound, hFile⟩
      refine ⟨found, ?_, hFile⟩
      rw [find_removeReport, if_neg hNe]
      exact hFound
  · refine ⟨?_, ?_, ?_⟩
    · exact
        List.Nodup.sublist
          (List.Sublist.map _ List.filter_sublist)
          hKept.keyed
    · intro report' found hFound
      exact hKept.accepted _ found (hStays _ found hFound)
    · intro report' found hFound
      exact hKept.created _ found (hStays _ found hFound)

/- A file is removed from the storage. -/
theorem mem_names_removeFile
    {name' : String} :
    name' ∈ (d.onBase (removeFile name)).names ↔
      name' ∈ d.names ∧ name' ≠ name := by
  simp [Archive.names, Archive.onBase, removeFile]

theorem kept_removeFile
    (hKept : d.Kept)
    (name : String) :
    (d.onBase (removeFile name)).Kept := by
  apply kept_of_shrinks hKept
  · exact
      ⟨fun _ hName => (mem_names_removeFile.mp hName).1,
        fun _ _ hOwns => hOwns, fun _ _ _ hOwns => hOwns⟩
  · exact ⟨hKept.keyed, hKept.accepted, hKept.created⟩

/- A report is created. -/
theorem kept_insertReport
    {now : Time}
    (hKept : d.Kept)
    (hFresh : d.createdAt row.id = none)
    (hFile : row.file = none)
    (hCheck : row.check = .ok ()) :
    (insertReport row now d).Kept := by
  have hNone : d.find row.id = none := by
    cases hFind : d.find row.id with
    | none => rfl
    | some old => exact absurd hFresh (hKept.created _ old hFind)
  have hSelf : (insertReport row now d).find row.id = some row :=
    Table.find_append_self hNone
  have hOther :
      ∀ report, report ≠ row.id →
        (insertReport row now d).find report =
          d.find report := by
    intro report hNe
    exact Table.find_append_of_ne (Ne.symm hNe)
  apply kept_of_shrinks hKept
  · refine ⟨fun _ hName => hName, ?_, ?_⟩
    · rintro report name ⟨found, hFound, hName⟩
      by_cases hSame : report = row.id
      · subst hSame
        rw [hSelf] at hFound
        cases hFound
        rw [hFile] at hName
        cases hName
      · rw [hOther report hSame] at hFound
        exact ⟨found, hFound, hName⟩
    · rintro report name _ ⟨found, hFound, hName⟩
      have hNe : report ≠ row.id := by
        rintro rfl
        rw [hNone] at hFound
        cases hFound
      rw [← hOther report hNe] at hFound
      exact ⟨found, hFound, hName⟩
  · refine ⟨Table.keyed_append hKept.keyed hNone, ?_, ?_⟩
    · intro report found hFound
      by_cases hSame : report = row.id
      · subst hSame
        rw [hSelf] at hFound
        cases hFound
        exact hCheck
      · rw [hOther report hSame] at hFound
        exact hKept.accepted report found hFound
    · intro report found hFound
      by_cases hSame : report = row.id
      · simp [insertReport, hSame]
      · rw [hOther report hSame] at hFound
        simpa [insertReport, hSame] using
          hKept.created report found hFound

------------------------------------------------------------
-- The Condition
------------------------------------------------------------

/-
  A delivery stores a file while no file of its report is
  stored, and nothing fails when it saves the report as a
  whole.
-/
def settledStep :
    Retention.Statement → Choice Exc Retention.Reply →
      Archive → Prop
| .task (.storeFile name _), _, d =>
    ∀ report, InDirectory report name → d.Vacant report
| .task (.saveReport _), c, _ => c = .proceed
| _, _, _ => True

/- Nothing is lost when it does so either. -/
def settledLose : Retention.Statement → Prop
| .task (.saveReport _) => False
| _ => True

def settled : Terms Retention.backend where
  step := settledStep
  lose := fun q _ => settledLose q

------------------------------------------------------------
-- Deliveries
------------------------------------------------------------

variable {tooling : Tooling}

/- The values of a report that is being processed fit. -/
theorem check_started
    (hCheck : row.check = .ok ()) :
    FullReportRow.check { row with status := .processing } =
      .ok () := by
  have hStatus :
      fitsChar 12 FullReportStatus.processing.value = true := by
    decide
  simp only [FullReportRow.check, check_bind_eq_ok,
    charColumn_eq_ok, jsonColumn_eq_ok, textColumn_eq_ok]
    at hCheck ⊢
  exact
    ⟨hCheck.1, hCheck.2.1, hCheck.2.2.1, hStatus,
      hCheck.2.2.2.2⟩

theorem noNul_status
    {D : Type}
    (result : ToolResult D) :
    noNul result.status = true := by
  have hOk : noNul "ok" = true := by decide
  have hFailed : noNul "failed" = true := by decide
  have hSkipped : noNul "skipped" = true := by decide
  cases result with
  | ok data => exact hOk
  | failed error => exact hFailed
  | skipped => exact hSkipped

theorem storable_toolsStatus
    (tools : Report) : (toolsStatus tools).storable = true := by
  simp [toolsStatus, Json.storable, Json.storableFields,
    noNul_status]
  decide

/- The values of a completed report fit. -/
theorem check_completed
    (result : Combined)
    (hCheck : row.check = .ok ())
    (hName : fitsChar 100 name = true) :
    (completedReport row name result).check = .ok () := by
  have hStatus :
      fitsChar 12 FullReportStatus.completed.value = true := by
    decide
  simp only [FullReportRow.check, check_bind_eq_ok,
    charColumn_eq_ok, jsonColumn_eq_ok, textColumn_eq_ok]
    at hCheck ⊢
  exact
    ⟨hCheck.1, hCheck.2.1, hCheck.2.2.1, hStatus,
      (charColumn_eq_ok 100 name).mpr hName,
      storable_toolsStatus _, rfl⟩

/- The statement of the task, over all the statements. -/
theorem leaves_task
    {T : Terms Retention.backend}
    {L : Archive → Prop}
    {q : Statement}
    {Q : q.Answer → Archive → Prop}
    {E : Exc → Archive → Prop}
    (hLose : T.lose (.task q) d → L d)
    (hFault : ∀ e, T.step (.task q) (.fault e) d → E e d)
    (hReply :
      ∀ x a d', T.step (.task q) (.reply x) d →
        Retention.reply (.task q) x d = some (a, d') →
          Q a d')
    (hPlan :
      T.step (.task q) .proceed d →
        Terms.Settles Q E d
          ((plan q d.base).embed Archive.onBase)) :
    T.Leaves L (Retention.ofTask (query q)) Q E d :=
  Terms.leaves_execute (T := T) hLose hFault hReply hPlan

/- Fields of a report are saved. -/
theorem leaves_saveFields
    {fields : List FullReportField}
    {Q : Unit → Archive → Prop}
    (hKept : d.Kept)
    (hDone :
      ∀ stored, d.find object.id = some stored →
        Archive.Kept
            (d.onBase
              (putReport (object.assign fields stored))) →
          Q ()
            (d.onBase
              (putReport (object.assign fields stored)))) :
    settled.Leaves Archive.Kept
      (Retention.ofTask
        (query (.saveReportFields object fields)))
      Q (fun _ => Archive.Kept) d := by
  apply leaves_task
  · exact fun _ => hKept
  · exact fun _ _ => hKept
  · intro x a d' _ hReply
    cases x <;> cases hReply
  · intro _
    simp only [plan]
    split
    · exact hKept
    · rename_i stored hFind
      have hId : stored.id = object.id :=
        Table.key_of_find hFind
      have hAssigned :
          d.find (object.assign fields stored).id =
            some stored := by
        change d.find stored.id = some stored
        rw [hId]
        exact hFind
      have hFile :
          (object.assign fields stored).file = stored.file :=
        rfl
      cases hCheck : (object.assign fields stored).check with
      | error e => exact hKept
      | ok u =>
          exact
            hDone stored hFind
              (kept_put hKept hAssigned hFile hCheck)

/-
  The report of a file that has just been stored is saved
  with it.
-/
theorem kept_completed
    {content : Pdf}
    {now : Time}
    (hKept : d.Kept)
    (hFind : d.find object.id ≠ none)
    (hFile : object.file = some name)
    (hName : InDirectory object.id name)
    (hVacant : d.Vacant object.id)
    (hCheck : object.check = .ok ()) :
    ((d.withFile name content now).onBase
      (putReport object)).Kept := by
  have hNames :
      ∀ stored,
        stored ∈
            ((d.withFile name content now).onBase
              (putReport object)).names ↔
          stored ∈ d.names ∨ stored = name := by
    intro stored
    simp [Archive.names, Archive.onBase, Archive.withFile,
      recordFile, putReport]
  have hSelf :
      ((d.withFile name content now).onBase
          (putReport object)).find object.id =
        some object :=
    find_putReport_self object _
  have hOther :
      ∀ report, report ≠ object.id →
        ((d.withFile name content now).onBase
            (putReport object)).find report =
          d.find report := by
    intro report hNe
    exact find_putReport_of_ne _ hNe
  have hSound := sound_put hKept.toSound hFind hCheck
  refine
    ⟨⟨hSound.keyed, hSound.accepted, hSound.created⟩, ?_, ?_,
      ?_⟩
  · rintro report stored ⟨found, hFound, hStored⟩
    by_cases hSame : report = object.id
    · subst hSame
      rw [hSelf] at hFound
      cases hFound
      rw [hFile] at hStored
      cases hStored
      exact hName
    · rw [hOther report hSame] at hFound
      exact hKept.filed report stored ⟨found, hFound, hStored⟩
  · intro report a hA b hB hInA hInB
    rcases (hNames a).mp hA with hOldA | hNewA
    · rcases (hNames b).mp hB with hOldB | hNewB
      · exact hKept.single report a hOldA b hOldB hInA hInB
      · subst hNewB
        have hSame := inDirectory_unique hInB hName
        subst hSame
        exact absurd hInA (hVacant a hOldA)
    · subst hNewA
      rcases (hNames b).mp hB with hOldB | hNewB
      · have hSame := inDirectory_unique hInA hName
        subst hSame
        exact absurd hInB (hVacant b hOldB)
      · exact hNewB.symm
  · intro stored hStored
    rcases (hNames stored).mp hStored with hOld | hNew
    · rcases hKept.owned stored hOld with
        ⟨report, hOwns⟩
      have hNe : report ≠ object.id := by
        rintro rfl
        exact hVacant stored hOld (hKept.filed _ _ hOwns)
      rcases hOwns with ⟨found, hFound, hHas⟩
      rw [← hOther report hNe] at hFound
      exact ⟨report, found, hFound, hHas⟩
    · subst hNew
      exact ⟨object.id, object, hSelf, hFile⟩

/- The body of the `try` statement. -/
theorem leaves_produceReport
    (tooling : Tooling)
    (row : FullReportRow)
    (hKept : d.Kept)
    (hFind : d.find row.id ≠ none)
    (hCheck : row.check = .ok ()) :
    settled.Leaves Archive.Kept
      (Retention.ofTask (produceReport tooling row))
      (fun _ => Archive.Kept) (fun _ => Archive.Kept) d := by
  unfold produceReport
  apply Terms.leaves_embed_bind
  apply leaves_task
  · exact fun _ => hKept
  · exact fun _ _ => hKept
  · intro x run d₁ _ hTools
    have hSame : d₁.base = d.base ∧
        d₁.createdAt = d.createdAt := by
      cases x with
      | task y now =>
          simp only [Retention.reply] at hTools
          split at hTools
          · cases y with
            | ran run' =>
                cases hTools
                exact ⟨rfl, rfl⟩
            | stored given => cases hTools
          · cases hTools
      | time now => cases hTools
      | removed => cases hTools
    have hKept₁ := kept_of_base hKept hSame.1 hSame.2
    have hFind₁ : d₁.find row.id ≠ none := by
      unfold Archive.find
      rw [hSame.1]
      exact hFind
    apply Terms.leaves_embed_bind
    cases hPdf :
        tooling.buildReportPdf (tooling.combine row run)
          row.lang with
    | error e => exact hKept₁
    | ok pdf =>
    apply Terms.leaves_embed_bind
    cases hHost : fromPython run.answers.hostname with
    | error e => exact hKept₁
    | ok hostname =>
    apply Terms.leaves_embed_bind
    apply leaves_task
    · exact fun _ => hKept₁
    · exact fun _ _ => hKept₁
    · intro x file d₂ hStep hStored
      rcases reply_storeFile hStored with
        ⟨now, rfl, hDirectory, hFits⟩
      have hWanted :=
        inDirectory_reportUploadTo row
          (reportFilename hostname row.lang)
      have hIn := inDirectory_of_directory hWanted hDirectory
      have hVacant : d₁.Vacant row.id := hStep row.id hWanted
      have hAccepted :=
        check_completed (tooling.combine row run) hCheck hFits
      apply Terms.leaves_embed_bind
      apply leaves_task
      · exact fun hLose => hLose.elim
      · intro e hFault
        cases hFault
      · intro y a d' hReply _
        cases hReply
      · intro _
        simp only [plan, hAccepted, Verdict.writeIf]
        exact
          kept_completed hKept₁ hFind₁ rfl hIn hVacant
            hAccepted
    · intro _
      trivial
  · intro _
    trivial

/- A delivery keeps the files with their reports. -/
theorem leaves_deliverFullReport
    (report : ReportId)
    (hKept : d.Kept) :
    settled.Leaves Archive.Kept
      (deliverFullReport tooling report)
      (fun _ => Archive.Kept) (fun _ => Archive.Kept) d := by
  unfold deliverFullReport runFullReportTask
  apply Terms.leaves_embed_handle
  apply leaves_task
  · exact fun _ => hKept
  · intro e _
    split
    · exact hKept
    · exact hKept
  · intro x a d' _ hReply
    cases x <;> cases hReply
  · intro _
    simp only [plan]
    split
    · rename_i row hLive
      have hFind : d.find report = some row :=
        (Option.filter_eq_some_iff.mp hLive).1
      have hId : row.id = report := Table.key_of_find hFind
      unfold processReport
      apply Terms.leaves_embed_bind
      apply leaves_saveFields
      · exact hKept
      · intro stored hStored hSaved
        have hNamed :
            (Archive.onBase
                (putReport
                  (FullReportRow.assign [.status]
                    { row with status := .processing }
                    stored))
                d).find row.id ≠ none := by
          have hSelf :
              row.id =
                (FullReportRow.assign [.status]
                  { row with status := .processing }
                  stored).id :=
            (Table.key_of_find hStored).symm
          rw [hSelf]
          have hPut :=
            find_putReport_self
              (FullReportRow.assign [.status]
                { row with status := .processing } stored)
              d.base
          intro hNone
          have hBoth := hPut.symm.trans hNone
          cases hBoth
        apply Terms.leaves_embed_handle
        have hBody :=
          leaves_produceReport tooling
            { row with status := .processing } hSaved hNamed
            (check_started (hKept.accepted _ row hFind))
        apply Terms.leaves_mono hBody
        · exact fun _ _ hDone => hDone
        · intro e d' hRaised
          unfold failReport
          apply Terms.leaves_embed_bind
          apply leaves_saveFields
          · exact hRaised
          · exact fun _ _ hFailed => hFailed
    · exact hKept

------------------------------------------------------------
-- Other Operations
------------------------------------------------------------

/- The clock is read. -/
theorem leaves_timezoneNow
    {Q : Time → Archive → Prop}
    (hKept : d.Kept)
    (hRead : ∀ now, Q now { d with clock := now }) :
    settled.Leaves Archive.Kept
      (Retention.query .timezoneNow) Q
      (fun _ => Archive.Kept) d := by
  apply Terms.leaves_execute
  · exact fun _ => hKept
  · exact fun _ _ => hKept
  · intro x now d' _ hReply
    cases x with
    | task y time => cases hReply
    | removed => cases hReply
    | time time =>
        simp only [Retention.backend, Retention.reply]
          at hReply
        split at hReply
        · cases hReply
          exact hRead now
        · cases hReply
  · intro _
    trivial

theorem leaves_createFullReport
    (new : NewReport)
    (hKept : d.Kept) :
    settled.Leaves Archive.Kept (createFullReport new)
      (fun _ => Archive.Kept) (fun _ => Archive.Kept) d := by
  unfold createFullReport
  apply Terms.leaves_bind
  apply leaves_timezoneNow hKept
  intro now
  have hKept' : Archive.Kept { d with clock := now } :=
    kept_of_base hKept rfl rfl
  apply Terms.leaves_execute
  · exact fun _ => hKept'
  · exact fun _ _ => hKept'
  · intro x a d' _ hReply
    cases x <;> cases hReply
  · intro _
    simp only [Retention.backend, Retention.plan]
    split
    · exact hKept'
    · rename_i hFresh
      cases hCheck : new.row.check with
      | error e => exact hKept'
      | ok u =>
          exact kept_insertReport hKept' hFresh rfl hCheck

theorem leaves_softDelete
    (report : ReportId)
    (hKept : d.Kept) :
    settled.Leaves Archive.Kept (softDelete report)
      (fun _ => Archive.Kept) (fun _ => Archive.Kept) d := by
  apply Terms.leaves_execute
  · exact fun _ => hKept
  · exact fun _ _ => hKept
  · intro x a d' _ hReply
    cases x <;> cases hReply
  · intro _
    simp only [Retention.backend, Retention.plan]
    split
    · exact hKept
    · rename_i row hFind
      change Archive.Kept (d.onBase (hideReport report))
      rw [hideReport_eq_put hKept.keyed hFind]
      have hId : row.id = report := Table.key_of_find hFind
      have hSame :
          d.find
              ({ row with isDeleted := true } :
                FullReportRow).id =
            some row := by
        change d.find row.id = some row
        rw [hId]
        exact hFind
      exact
        kept_put hKept hSame rfl
          (hKept.accepted report row hFind)

/- The rows that a purge has read are those of the table. -/
def Read
    (rows : List FullReportRow)
    (d : Archive) : Prop :=
  ∀ row ∈ rows, ∀ row', d.find row.id = some row' →
    row'.file = row.file

/- The file of a report is removed, if there is one. -/
theorem leaves_deleteReportFile
    {started : Time}
    {Q : Unit → Archive → Prop}
    (hKept : d.Kept)
    (hRow :
      ∀ row', d.find row.id = some row' →
        row'.file = row.file)
    (hDone :
      ∀ d' : Archive, d'.Kept → d'.Vacant row.id →
        d'.base.reports = d.base.reports → Q () d') :
    settled.Leaves Archive.Kept
      (deleteReportFile started row) Q
      (fun _ => Archive.Kept) d := by
  have hOwner :
      ∀ stored ∈ d.names, InDirectory row.id stored →
        row.file = some stored ∧ stored ≠ "" := by
    intro stored hStored hIn
    rcases hKept.owned stored hStored with ⟨report, hOwns⟩
    have hSame :=
      inDirectory_unique hIn (hKept.filed _ _ hOwns)
    subst hSame
    rcases hOwns with ⟨row', hFind, hFile⟩
    exact
      ⟨(hRow row' hFind).symm.trans hFile,
        ne_empty_of_inDirectory hIn⟩
  unfold deleteReportFile
  cases hName : row.file.filter (fun name => name ≠ "") with
  | none =>
      apply hDone d hKept _ rfl
      intro stored hStored hIn
      have hFile := hOwner stored hStored hIn
      rw [hFile.1] at hName
      simp [Option.filter, hFile.2] at hName
  | some name =>
      have hFile := (Option.filter_eq_some_iff.mp hName).1
      apply Terms.leaves_execute
      · exact fun _ => hKept
      · exact fun _ _ => hKept
      · intro x a d' _ hReply
        cases x with
        | task y time => cases hReply
        | time time => cases hReply
        | removed =>
            cases hReply
            apply hDone _ (kept_removeFile hKept name) _ rfl
            intro stored hStored hIn
            have hOld := mem_names_removeFile.mp hStored
            have hOwn := hOwner stored hOld.1 hIn
            rw [hFile] at hOwn
            exact hOld.2 (Option.some.inj hOwn.1).symm
      · intro _
        trivial

theorem leaves_purgeReports
    {started : Time}
    (rows : List FullReportRow)
    (removed : Nat)
    (hKept : d.Kept)
    (hRead : Read rows d) :
    settled.Leaves Archive.Kept
      (purgeReports started rows removed)
      (fun _ => Archive.Kept) (fun _ => Archive.Kept) d := by
  induction rows generalizing d removed with
  | nil => exact hKept
  | cons row rest ih =>
      unfold purgeReports
      apply Terms.leaves_bind
      apply leaves_deleteReportFile hKept
      · exact hRead row List.mem_cons_self
      · intro d₁ hKept₁ hVacant hReports
        apply Terms.leaves_bind
        apply Terms.leaves_execute
        · exact fun _ => hKept₁
        · exact fun _ _ => hKept₁
        · intro x a d' _ hReply
          cases x <;> cases hReply
        · intro _
          apply ih _ (kept_removeReport hKept₁ hVacant)
          intro row₁ hMem row' hFind
          rw [find_removeReport] at hFind
          split at hFind
          · cases hFind
          · apply
              hRead row₁ (List.mem_cons_of_mem _ hMem) row'
            unfold Archive.find Db.find at hFind ⊢
            rw [← hReports]
            exact hFind

theorem leaves_purgeExpiredFullReports
    (retention : Time)
    (cursor : Tid)
    (hKept : d.Kept) :
    settled.Leaves Archive.Kept
      (purgeExpiredFullReports retention cursor)
      (fun _ => Archive.Kept) (fun _ => Archive.Kept) d := by
  unfold purgeExpiredFullReports
  apply Terms.leaves_bind
  apply leaves_timezoneNow hKept
  intro now
  have hKept' : Archive.Kept { d with clock := now } :=
    kept_of_base hKept rfl rfl
  apply Terms.leaves_bind
  apply Terms.leaves_execute
  · exact fun _ => hKept'
  · exact fun _ _ => hKept'
  · intro x a d' _ hReply
    cases x <;> cases hReply
  · intro _
    apply leaves_purgeReports
    · exact kept_of_base hKept' rfl rfl
    · intro row hMem row' hFind
      have hRow := (Archive.mem_expired.mp hMem).1
      have hSame := Table.find_of_mem hKept.keyed hRow
      cases hSame.symm.trans hFind
      rfl

------------------------------------------------------------
-- Histories
------------------------------------------------------------

/- An operation comes from the data to the world. -/
def Runs
    (tooling : Tooling)
    (terms : Terms Retention.backend)
    (operation : Operation)
    (d : Archive)
    (w :
      World (Store Archive Empty) (TxOp Retention.Statement)
        (TxOp.Res Retention.Statement.Answer) Exc Unit) :
    Prop :=
  Retention.backend.machine.Reaches terms.ok
    (Retention.backend.soleWorld
      (operation.program tooling) d)
    w

/-
  The data after operations one after another, each of which
  has returned, has raised or has been lost.
-/
inductive History
    (tooling : Tooling)
    (terms : Terms Retention.backend)
    (d₀ : Archive) : Archive → Prop
  | start : History tooling terms d₀ d₀
  | run
      {d : Archive}
      {operation : Operation}
      {w :
        World (Store Archive Empty) (TxOp Retention.Statement)
          (TxOp.Res Retention.Statement.Answer) Exc Unit}
      (hBefore : History tooling terms d₀ d)
      (hRuns : Runs tooling terms operation d w)
      (hOver : ¬ w.Live 0) :
      History tooling terms d₀ w.shared.committed

/- Each operation keeps the files with their reports. -/
theorem leaves_operation
    (operation : Operation)
    (hKept : d.Kept) :
    settled.Leaves Archive.Kept (operation.program tooling)
      (fun _ => Archive.Kept) (fun _ => Archive.Kept) d := by
  cases operation with
  | create new => exact leaves_createFullReport new hKept
  | deliver report =>
      apply Terms.leaves_bind
      exact leaves_deliverFullReport report hKept
  | softDelete report => exact leaves_softDelete report hKept
  | purge retention cursor =>
      apply Terms.leaves_bind
      exact
        leaves_purgeExpiredFullReports retention cursor hKept

theorem kept_of_history
    {d₀ : Archive}
    (hStart : d₀.Kept)
    (hHistory : History tooling settled d₀ d) : d.Kept := by
  induction hHistory with
  | start => exact hStart
  | @run d operation w hBefore hRuns hOver ih =>
      exact
        Terms.left_of_reaches (leaves_operation operation ih)
          hRuns hOver

/- Every stored file is that of exactly one report. -/
def Archive.OwnedOnce (d : Archive) : Prop :=
  ∀ name ∈ d.names, ∃! report, d.Owns report name

/-
  In any sequence of creations, deliveries, soft deletions
  and purges, in which a delivery stores a file only while no
  file of its report is stored and its save then neither
  fails nor is lost: every stored file is that of exactly one
  report, and no file is left when no report is.
-/
theorem stored_files_owned
    {d₀ : Archive}
    (hStart : d₀.Kept)
    (hHistory : History tooling settled d₀ d) :
    d.OwnedOnce ∧ (d.base.reports = [] → d.names = []) := by
  have hKept := kept_of_history hStart hHistory
  constructor
  · intro name hName
    rcases hKept.owned name hName with ⟨report, hOwns⟩
    exact
      ⟨report, hOwns,
        fun other hOther => owns_unique hKept hOther hOwns⟩
  · intro hNone
    apply List.eq_nil_iff_forall_not_mem.mpr
    intro name hName
    rcases hKept.owned name hName with
      ⟨report, row, hFind, _⟩
    have hMem : row ∈ d.base.reports :=
      Table.mem_of_find hFind
    rw [hNone] at hMem
    cases hMem

------------------------------------------------------------
-- A Lost Delivery
------------------------------------------------------------

/- Nothing is stored yet. -/
def emptyArchive : Archive where
  base := { reports := [], storage := [] }
  createdAt := fun _ => none
  storedAt := []
  cursors := []
  clock := 0

theorem kept_emptyArchive : emptyArchive.Kept where
  keyed := List.nodup_nil
  accepted := fun _ _ hFind => by cases hFind
  created := fun _ _ hFind => by cases hFind
  filed := fun _ _ hOwns => by cases hOwns.choose_spec.1
  single := fun _ _ hName => by cases hName
  owned := fun _ hName => by cases hName

def siteReport : NewReport where
  id := 0
  user := none
  url := "https://example.com/"
  strategy := "mobile"
  lang := "en"

/- The world at the start of an operation. -/
abbrev operating
    (operation : Operation)
    (d : Archive) :
    World (Store Archive Empty) (TxOp Retention.Statement)
      (TxOp.Res Retention.Statement.Answer) Exc Unit :=
  Retention.backend.soleWorld
    (operation.program blankTooling) d

/- The world after the events of an operation. -/
abbrev operated
    (operation : Operation)
    (d : Archive)
    (events : List (Event (Choice Exc Retention.Reply))) :
    World (Store Archive Empty) (TxOp Retention.Statement)
      (TxOp.Res Retention.Statement.Answer) Exc Unit :=
  (Retention.backend.machine.replay (operating operation d)
    events).getD (operating operation d)

/- The data after them. -/
abbrev archiveAfter
    (operation : Operation)
    (d : Archive)
    (events : List (Event (Choice Exc Retention.Reply))) :
    Archive :=
  (operated operation d events).shared.committed

/- A report is created at the time 0. -/
def creation : List (Event (Choice Exc Retention.Reply)) :=
  [.step 0 (.reply (.time 0)), .step 0 .proceed]

/- A delivery up to the time at which its file is stored. -/
def storing
    (name : String)
    (now : Time) :
    List (Event (Choice Exc Retention.Reply)) :=
  [.step 0 .proceed, .step 0 .proceed,
    .step 0 (.reply (.task (.ran downRun) now)),
    .step 0 (.reply (.task (.stored name) now))]

/- A purge of one report with a file, at the time 10. -/
def purging : List (Event (Choice Exc Retention.Reply)) :=
  [.step 0 (.reply (.time 10)), .step 0 .proceed,
    .step 0 (.reply .removed), .step 0 .proceed]

def firstFile : String :=
  "reports/0/analysis-example-com-en.pdf"

/- The name that the storage gives while that is taken. -/
def secondFile : String :=
  "reports/0/analysis-example-com-en_x7Yk2aB.pdf"

abbrev createdArchive : Archive :=
  archiveAfter (.create siteReport) emptyArchive creation

/- A delivery that completes the report. -/
abbrev completion
    (name : String)
    (now : Time) :
    List (Event (Choice Exc Retention.Reply)) :=
  storing name now ++ [.step 0 .proceed]

/- One more step of an operation. -/
theorem runs_step
    {operation : Operation}
    {w v :
      World (Store Archive Empty) (TxOp Retention.Statement)
        (TxOp.Res Retention.Statement.Answer) Exc Unit}
    (c : Choice Exc Retention.Reply)
    (hRuns : Runs blankTooling settled operation d w)
    (hOk :
      ∀ q, (w.threads 0).head = some (.query q) →
        settledStep q c w.shared.committed)
    (hNext :
      Retention.backend.machine.next w (.step 0 c) = some v) :
    Runs blankTooling settled operation d v :=
  hRuns.tail (e := .step 0 c) hOk hNext

/- One delivery produces the report that has been created. -/
theorem stored_files_owned_produced :
    Archive.OwnedOnce
        (archiveAfter (.deliver 0) createdArchive
          (completion firstFile 1)) ∧
      (archiveAfter (.deliver 0) createdArchive
          (completion firstFile 1)).names = [firstFile] := by
  have hCreated :
      Runs blankTooling settled (.create siteReport)
        emptyArchive
        (operated (.create siteReport) emptyArchive
          creation) := by
    have hRead :
        Runs blankTooling settled (.create siteReport)
          emptyArchive
          (operated (.create siteReport) emptyArchive
            (creation.take 1)) := by
      apply runs_step (.reply (.time 0)) .refl _ rfl
      intro q hHead
      cases hHead
      trivial
    apply runs_step .proceed hRead _ rfl
    intro q hHead
    cases hHead
    trivial
  have hFound :
      Runs blankTooling settled (.deliver 0) createdArchive
        (operated (.deliver 0) createdArchive
          ((completion firstFile 1).take 1)) := by
    apply runs_step .proceed .refl _ rfl
    intro q hHead
    cases hHead
    trivial
  have hStarted :
      Runs blankTooling settled (.deliver 0) createdArchive
        (operated (.deliver 0) createdArchive
          ((completion firstFile 1).take 2)) := by
    apply runs_step .proceed hFound _ rfl
    intro q hHead
    cases hHead
    trivial
  have hRan :
      Runs blankTooling settled (.deliver 0) createdArchive
        (operated (.deliver 0) createdArchive
          ((completion firstFile 1).take 3)) := by
    apply
      runs_step (.reply (.task (.ran downRun) 1)) hStarted _
        rfl
    intro q hHead
    cases hHead
    trivial
  have hStored :
      Runs blankTooling settled (.deliver 0) createdArchive
        (operated (.deliver 0) createdArchive
          ((completion firstFile 1).take 4)) := by
    apply
      runs_step (.reply (.task (.stored firstFile) 1)) hRan _
        rfl
    intro q hHead
    cases hHead
    intro report _ stored hStored
    cases hStored
  have hCompleted :
      Runs blankTooling settled (.deliver 0) createdArchive
        (operated (.deliver 0) createdArchive
          (completion firstFile 1)) := by
    apply runs_step .proceed hStored _ rfl
    intro q hHead
    cases hHead
    rfl
  have hHistory :=
    (History.start.run hCreated (fun hLive => hLive rfl)).run
      hCompleted (fun hLive => hLive rfl)
  exact
    ⟨(stored_files_owned kept_emptyArchive hHistory).1, rfl⟩

/- Whatever can happen does. -/
def unrestricted : Terms Retention.backend where
  step := fun _ _ _ => True
  lose := fun _ _ => True

/- What happens in an operation. -/
structure Course where
  operation : Operation
  events : List (Event (Choice Exc Retention.Reply))

/- The data after the operation, if it is over by then. -/
def Course.after
    (course : Course)
    (d : Archive) : Option Archive :=
  match
    Retention.backend.machine.replay
      (operating course.operation d) course.events
  with
  | none => none
  | some w =>
      match (w.threads 0).head with
      | none => some w.shared.committed
      | some _ => none

/- The data after operations one after another. -/
def afterCourses
    (courses : List Course)
    (d : Archive) : Option Archive :=
  courses.foldlM (fun d course => course.after d) d

theorem history_of_courses
    {d₀ : Archive}
    (courses : List Course)
    (hBefore : History blankTooling unrestricted d₀ d)
    (hAfter : afterCourses courses d = some d') :
    History blankTooling unrestricted d₀ d' := by
  unfold afterCourses at hAfter
  induction courses generalizing d with
  | nil =>
      cases hAfter
      exact hBefore
  | cons course rest ih =>
      rw [List.foldlM_cons] at hAfter
      cases hFirst : course.after d with
      | none =>
          rw [hFirst] at hAfter
          cases hAfter
      | some d₁ =>
          rw [hFirst] at hAfter
          apply ih _ hAfter
          unfold Course.after at hFirst
          split at hFirst
          · cases hFirst
          · rename_i w hReplay
            split at hFirst
            · rename_i hOver
              cases hFirst
              apply hBefore.run _ (fun hLive => hLive hOver)
              · exact course.operation
              · apply
                  Machine.reaches_of_replay_where course.events
                    _ hReplay
                intro v e _
                cases e with
                | step t c => exact fun _ _ => trivial
                | lose t => exact fun _ _ => trivial
            · cases hFirst

/-
  A delivery is lost once it has stored its file, the next
  one stores another, and the report expires.
-/
def lostDelivery : List Course :=
  [⟨.create siteReport, creation⟩,
    ⟨.deliver 0, storing firstFile 1 ++ [.lose 0]⟩,
    ⟨.deliver 0, completion secondFile 2⟩,
    ⟨.purge 5 0, purging⟩]

/-
  The first file is that of no report, and it is still there
  after the purge.
-/
theorem lost_delivery_leaves_file :
    ¬ ∀ d,
      History blankTooling unrestricted emptyArchive d →
        d.OwnedOnce ∧
          (d.base.reports = [] → d.names = []) := by
  intro hOwned
  have hLeft :
      (afterCourses lostDelivery emptyArchive).map
          (fun d => (d.base.reports.length, d.names)) =
        some (0, [firstFile]) := by
    decide +kernel
  rcases Option.map_eq_some_iff.mp hLeft with
    ⟨d, hAfter, hFiles⟩
  have hHistory :=
    history_of_courses lostDelivery History.start hAfter
  have hReports : d.base.reports = [] :=
    List.length_eq_zero_iff.mp (Prod.mk.inj hFiles).1
  have hNone := (hOwned d hHistory).2 hReports
  rw [(Prod.mk.inj hFiles).2] at hNone
  cases hNone

end SiteAnalysis.FullReport
