import SiteAnalysis.Audits.Runs
import SiteAnalysis.Audits.Summary

/-
  This file proves when the summary of a user's audits is
  consistent, in every database that audits and deletions
  lead to.

  A deletion hides the audit from the counts, but the issues
  are joined to it all the same.

  Key definitions include:
    * `softDelete`
    * `History`
    * `Spared`

  Key theorems include:
    * `own_of_audited`
    * `unburdened_softDelete_iff`
    * `consistent_iff_spared`
    * `deleted_audit_listed`
-/

------------------------------------------------------------
-- Histories
------------------------------------------------------------

namespace SiteAnalysis.Audits

open Concurrency
open Relational
open Python
open Billing

/- `is_deleted = True` -/
def markDeleted
    (row : AccessibilityAudit) : AccessibilityAudit :=
  { row with isDeleted := true }

/- `soft_delete` of the audit, as `perform_destroy` does. -/
def softDelete
    (id : AuditId)
    (d : Db) : Db :=
  updateAudit id markDeleted d

/-
  Audits have run and audits have been deleted, in any order.
  Each deletion is listed with the database before it.
-/
inductive History
    (settings : WaveSettings)
    (repr : Json → String)
    (d₀ : Db) : List (AuditId × Db) → Db → Prop
  | start : History settings repr d₀ [] d₀
  | audits
      {deletions : List (AuditId × Db)}
      {d d' : Db}
      (history : History settings repr d₀ deletions d)
      (audited : Audited settings repr d d') :
      History settings repr d₀ deletions d'
  | delete
      {deletions : List (AuditId × Db)}
      {d : Db}
      (id : AuditId)
      (history : History settings repr d₀ deletions d) :
      History settings repr d₀ (deletions ++ [(id, d)])
        (softDelete id d)

/- No audit has been asked for. -/
structure Unaudited (d : Db) : Prop where
  audits : d.audits = []
  issues : d.issues = []

/- What is deleted is no audit of the user with issues. -/
def Spared
    (user : UserId)
    (deletion : AuditId × Db) : Prop :=
  ∀ row, deletion.2.find deletion.1 = some row →
    row.user = some user →
      deletion.2.issuesOf deletion.1 = []

section Histories

variable {settings : WaveSettings} {repr : Json → String}
variable {dialect : Dialect} {d d' d₀ : Db}
variable {deletions : List (AuditId × Db)}
variable {id id' : AuditId} {user : UserId}
variable {row : AccessibilityAudit}

------------------------------------------------------------
-- Issues and Audits
------------------------------------------------------------

/- Issues are there only once the audit is completed. -/
def Earned (o : Own) : Prop :=
  o.2 ≠ [] →
    ∃ row, o.1 = some row ∧ row.status = .completed

theorem lasts_earned
    (repr : Json → String) :
    Lasts repr (fun _ => Earned) where
  insert := by
    intro id account url issues hEarned hSome
    rcases hEarned hSome with ⟨row, hNone, _⟩
    cases hNone
  fail := fun _ _ _ _ _ _ hSome => absurd rfl hSome
  complete := fun _ _ _ _ _ _ _ => ⟨_, rfl, rfl⟩

theorem attached_of_earned
    (hKeyed : Table.Keyed AccessibilityAudit.id d.audits)
    (hEarned : ∀ id, Earned (own id d)) :
    Attached d where
  keyed := hKeyed
  completed := by
    intro issue hMem
    apply hEarned issue.audit
    apply List.ne_nil_of_mem (a := issue)
    rw [own, Db.issuesOf, List.mem_filter]
    exact ⟨hMem, decide_eq_true rfl⟩

theorem Attached.earned
    (hAttached : Attached d)
    (id : AuditId) : Earned (own id d) := by
  intro hSome
  rcases List.exists_mem_of_ne_nil _ hSome with
    ⟨issue, hMem⟩
  rw [own, Db.issuesOf, List.mem_filter] at hMem
  have hKey : issue.audit = id := of_decide_eq_true hMem.2
  rcases hAttached.completed issue hMem.1 with
    ⟨row, hFind, hStatus⟩
  rw [hKey] at hFind
  exact ⟨row, hFind, hStatus⟩

theorem attached_of_unaudited
    (hNew : Unaudited d) : Attached d where
  keyed := by
    rw [hNew.audits]
    exact List.nodup_nil
  completed := by
    intro issue hMem
    rw [hNew.issues] at hMem
    cases hMem

theorem attached_of_audited
    (hAttached : Attached d)
    (hAudited : Audited settings repr d d') :
    Attached d' :=
  attached_of_earned
    (kept_of_audited (keeps_keyed repr) hAttached.keyed
      hAudited)
    (kept_of_audited (keeps_own (lasts_earned repr))
      hAttached.earned hAudited)

------------------------------------------------------------
-- Deletions
------------------------------------------------------------

theorem own_softDelete_self :
    own id (softDelete id d) =
      ((d.find id).map markDeleted, d.issuesOf id) :=
  own_updateAudit_self (fun _ => rfl)

theorem own_softDelete_of_ne
    (hNe : id' ≠ id) :
    own id' (softDelete id d) = own id' d :=
  own_updateAudit_of_ne (fun _ => rfl) hNe

theorem attached_softDelete
    (hAttached : Attached d) :
    Attached (softDelete id d) := by
  apply attached_of_earned
  · exact
      Table.keyed_update (fun _ hKey => hKey)
        hAttached.keyed
  · intro id'
    have hEarned := hAttached.earned id'
    by_cases hSame : id' = id
    · subst hSame
      rw [own_softDelete_self]
      intro hSome
      rcases hEarned hSome with ⟨row, hFind, hStatus⟩
      have hRow : d.find id' = some row := hFind
      exact ⟨markDeleted row, by rw [hRow]; rfl, hStatus⟩
    · rw [own_softDelete_of_ne hSame]
      exact hEarned

/- A soft-deleted audit of the user has no issues. -/
def Light
    (user : UserId)
    (o : Own) : Prop :=
  ∀ row, o.1 = some row → row.user = some user →
    row.isDeleted = true → o.2 = []

theorem unburdened_iff_light :
    Unburdened d user ↔ ∀ id, Light user (own id d) :=
  Iff.rfl

theorem light_softDelete_iff :
    Light user (own id (softDelete id d)) ↔
      Spared user (id, d) := by
  rw [own_softDelete_self]
  constructor
  · intro hLight row hFind hUser
    have hRow : d.find id = some row := hFind
    apply hLight (markDeleted row) _ hUser rfl
    rw [hRow]
    rfl
  · intro hSpared row hFind hUser _
    rcases Option.map_eq_some_iff.mp hFind with
      ⟨row', hRow, rfl⟩
    exact hSpared row' hRow hUser

theorem light_of_spared
    (hSpared : Spared user (id, d)) :
    Light user (own id d) :=
  fun row hFind hUser _ => hSpared row hFind hUser

/- A deletion burdens the summary unless it is spared. -/
theorem unburdened_softDelete_iff :
    Unburdened (softDelete id d) user ↔
      Unburdened d user ∧ Spared user (id, d) := by
  rw [unburdened_iff_light, unburdened_iff_light]
  constructor
  · intro hAll
    have hSpared := light_softDelete_iff.mp (hAll id)
    refine ⟨?_, hSpared⟩
    intro id'
    by_cases hSame : id' = id
    · subst hSame
      exact light_of_spared hSpared
    · have hLight := hAll id'
      rw [own_softDelete_of_ne hSame] at hLight
      exact hLight
  · rintro ⟨hAll, hSpared⟩ id'
    by_cases hSame : id' = id
    · subst hSame
      exact light_softDelete_iff.mpr hSpared
    · rw [own_softDelete_of_ne hSame]
      exact hAll id'

------------------------------------------------------------
-- Audits after Deletions
------------------------------------------------------------

theorem lasts_light
    (repr : Json → String)
    (user : UserId) :
    Lasts repr (fun _ => Light user) where
  insert := by
    intro id account url issues _ row hFind _ hDeleted
    rw [← Option.some.inj hFind] at hDeleted
    cases hDeleted
  fail := fun _ _ _ _ _ _ _ _ _ _ => rfl
  complete := by
    intro id account url raw parsed _ row hFind _ hDeleted
    rw [← Option.some.inj hFind] at hDeleted
    cases hDeleted

/- The audit is as it was deleted. -/
def Buried
    (id₀ : AuditId)
    (o₀ : Own)
    (id : AuditId)
    (o : Own) : Prop :=
  id = id₀ → o = o₀

theorem lasts_buried
    (repr : Json → String)
    {issues : List AuditIssue}
    (hDeleted : row.isDeleted = true) :
    Lasts repr (Buried id (some row, issues)) := by
  have hOld :
      ∀ id' account url,
        row ≠ newAudit id' account url := by
    rintro id' account url rfl
    cases hDeleted
  refine ⟨?_, ?_, ?_⟩
  · intro id' account url issues' hBuried hSame
    have hNone := congrArg Prod.fst (hBuried hSame)
    cases hNone
  · intro id' account url row' hBuried _ hSame
    have hRow := congrArg Prod.fst (hBuried hSame)
    exact absurd (Option.some.inj hRow.symm) (hOld _ _ _)
  · intro id' account url raw parsed hBuried hSame
    have hRow := congrArg Prod.fst (hBuried hSame)
    exact absurd (Option.some.inj hRow.symm) (hOld _ _ _)

/- No audit touches what has been deleted. -/
theorem own_of_audited
    (hFind : d.find id = some row)
    (hDeleted : row.isDeleted = true)
    (hAudited : Audited settings repr d d') :
    own id d' = (some row, d.issuesOf id) := by
  have hBuried :
      ∀ id', Buried id (some row, d.issuesOf id) id'
        (own id' d) := by
    rintro id' rfl
    rw [own, hFind]
  exact
    kept_of_audited (keeps_own (lasts_buried repr hDeleted))
      hBuried hAudited id rfl

theorem unburdened_audited_iff
    (hAudited : Audited settings repr d d') :
    Unburdened d' user ↔ Unburdened d user := by
  constructor
  · intro hAll id row hFind hUser hDeleted
    have hOwn := own_of_audited hFind hDeleted hAudited
    have hIssues : d'.issuesOf id = d.issuesOf id :=
      congrArg Prod.snd hOwn
    rw [← hIssues]
    exact
      hAll id row (congrArg Prod.fst hOwn) hUser hDeleted
  · intro hAll
    exact
      kept_of_audited (keeps_own (lasts_light repr user))
        hAll hAudited

------------------------------------------------------------
-- Consistent Histories
------------------------------------------------------------

theorem attached_of_history
    (hNew : Unaudited d₀)
    (hHistory : History settings repr d₀ deletions d) :
    Attached d := by
  induction hHistory with
  | start => exact attached_of_unaudited hNew
  | audits _ hAudited ih =>
      exact attached_of_audited ih hAudited
  | delete id _ ih => exact attached_softDelete ih

theorem unburdened_of_history_iff
    (hNew : Unaudited d₀)
    (hHistory : History settings repr d₀ deletions d) :
    Unburdened d user ↔
      ∀ deletion ∈ deletions, Spared user deletion := by
  induction hHistory with
  | start =>
      have hNone : Unburdened d₀ user := by
        intro id row _ _ _
        rw [Db.issuesOf, hNew.issues]
        rfl
      simp [hNone]
  | audits _ hAudited ih =>
      rw [unburdened_audited_iff hAudited]
      exact ih
  | delete id _ ih =>
      rw [unburdened_softDelete_iff, ih,
        List.forall_mem_append]
      simp

/-
  In every database that audits and deletions lead to, the
  summary of a user is consistent exactly when no audit of
  the user has been deleted that had issues.
-/
theorem consistent_iff_spared
    (hNew : Unaudited d₀)
    (hHistory : History settings repr d₀ deletions d) :
    Consistent dialect d user ↔
      ∀ deletion ∈ deletions, Spared user deletion := by
  rw [
    consistent_iff_unburdened
      (attached_of_history hNew hHistory)]
  exact unburdened_of_history_iff hNew hHistory

end Histories

------------------------------------------------------------
-- A Deleted Audit
------------------------------------------------------------

/- A report with one finding. -/
def findingReport : Json :=
  .obj
    [("status", .obj [("success", .bool true)]),
      ("categories",
        .obj
          [("error",
            .obj
              [("count", .int 2),
                ("items",
                  .obj
                    [("alt_missing",
                      .obj
                        [("id", .str "alt_missing"),
                          ("count", .int 2)])])])])]

def findingParsed : Parsed where
  totals := { Totals.zero with totalErrors := 2 }
  wcagLevel := none
  issues :=
    [{ issueType := .error
       waveId := .str "alt_missing"
       description := .str ""
       count := 2
       wcagReference := none }]

/- The audit of user 0 is stored and paid for. -/
def findingDb : Db :=
  finalized (fun _ => "")
    (newAudit 0 (some 0) "https://a.io/") (some 0)
    "https://a.io/" findingReport findingParsed oneCredit
    (insertAudit (newAudit 0 (some 0) "https://a.io/")
      oneCreditDb)

/- Thread 0 audits a page for user 0. -/
def oneRequest : Tid → Option Request
| 0 => some ⟨some 0, "https://a.io/"⟩
| _ + 1 => none

theorem unaudited_oneCreditDb : Unaudited oneCreditDb where
  audits := rfl
  issues := rfl

theorem audited_findingDb :
    Audited someSettings (fun _ => "") oneCreditDb
      findingDb := by
  have hReach :=
    Machine.reaches_of_replay
      (M := (backend (fun _ => "")).machine)
      (w :=
        launch someSettings (fun _ => "") oneRequest
          oneCreditDb)
      (List.replicate 2 (.step 0 .proceed) ++
        [.step 0
          (.reply (.response ⟨200, .json findingReport⟩))] ++
          List.replicate 9 (.step 0 .proceed))
      rfl
  exact
    ⟨oneRequest, _, fun _ _ => ⟨rfl, rfl⟩, hReach, rfl⟩

theorem history_findingDb :
    History someSettings (fun _ => "") oneCreditDb
      [(0, findingDb)] (softDelete 0 findingDb) :=
  .delete 0 (.audits .start audited_findingDb)

/- Means are exact, and groups come as they are found. -/
def exactDialect : Dialect where
  mean := fun values =>
    toDouble ((values.sum : Rat) / (values.length : Rat))
  arrange := id
  perm := fun _ => List.Perm.refl _

/- As long as the audit is there the summary is consistent. -/
theorem consistent_iff_spared_kept :
    Consistent exactDialect findingDb 0 :=
  (consistent_iff_spared unaudited_oneCreditDb
    (.audits .start audited_findingDb)).mpr
    (fun _ hMem => by cases hMem)

/-
  After its deletion the summary counts no audit, and lists
  the finding.
-/
theorem deleted_audit_listed :
    History someSettings (fun _ => "") oneCreditDb
        [(0, findingDb)] (softDelete 0 findingDb) ∧
      ¬ Consistent exactDialect (softDelete 0 findingDb) 0 ∧
      ∃ summary,
        getAuditSummary exactDialect (softDelete 0 findingDb)
            0 =
          .ok summary ∧
          summary.totalAudits = 0 ∧
            summary.mostCommonIssues =
              [{ waveId := "alt_missing"
                 issueType := .error
                 occurrences := 1
                 totalCount := 2 }] := by
  refine ⟨history_findingDb, ?_, _, rfl, rfl, rfl⟩
  intro hConsistent
  have hLength :=
    congrArg List.length hConsistent.aggregated
  revert hLength
  decide

end SiteAnalysis.Audits
