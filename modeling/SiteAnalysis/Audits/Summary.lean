import Mathlib.Data.List.Sort
import SiteAnalysis.Billing.Database
import SiteAnalysis.Python.Lists
import SiteAnalysis.Python.Number

/-
  This file defines the summary of a user's audits, which is
  read from the audits and, by another query, from the
  issues, and says when the two queries see the same audits.

  Key definitions include:
    * `Dialect`
    * `getAuditSummary`
    * `Consistent`
    * `Unburdened`

  Key theorems include:
    * `topIssues_sorted`
    * `topIssues_largest`
    * `getAuditSummary_ok`
    * `consistent_iff_unburdened`
-/

------------------------------------------------------------
-- The Queries
------------------------------------------------------------

namespace SiteAnalysis.Audits

open Relational
open Python
open Billing

/- A row of the grouped issues. -/
structure IssueGroup where
  waveId : String
  issueType : IssueType
  occurrences : Nat
  totalCount : Int
deriving DecidableEq

/-
  What the database decides for itself: the mean of some
  integers as a `float`, and the order in which it delivers
  groups that `ORDER BY` does not tell apart.
-/
structure Dialect where
  mean : List Int → PyFloat
  arrange : List IssueGroup → List IssueGroup
  perm : ∀ groups, (arrange groups).Perm groups

/- `AccessibilityAudit.objects` -/
def liveAudits (d : Db) : List AccessibilityAudit :=
  d.audits.filter (fun row => !row.isDeleted)

/- The user's completed audits. -/
def countedAudits
    (d : Db)
    (user : UserId) : List AccessibilityAudit :=
  (liveAudits d).filter
    (fun row =>
      row.user = some user ∧ row.status = .completed)

/- `AuditIssue.objects.filter(audit__user=user)` -/
def userIssues
    (d : Db)
    (user : UserId) : List AuditIssue :=
  d.issues.filter
    (fun issue =>
      (d.find issue.audit).any
        (fun row => row.user = some user))

/- The columns of `values` -/
def groupKey (issue : AuditIssue) : String × IssueType :=
  (issue.waveId, issue.issueType)

/- The group of an issue among all the issues. -/
def groupOf
    (issues : List AuditIssue)
    (issue : AuditIssue) : IssueGroup where
  waveId := issue.waveId
  issueType := issue.issueType
  occurrences :=
    (issues.filter
      (fun other => groupKey other = groupKey issue)).length
  totalCount :=
    ((issues.filter
      (fun other => groupKey other = groupKey issue)).map
        AuditIssue.count).sum

/- `GROUP BY wave_id, issue_type` -/
def issueGroups
    (issues : List AuditIssue) : List IssueGroup :=
  (firstBy groupKey issues).map (groupOf issues)

/- `order_by("-total_count")[:10]` -/
def topIssues
    (dialect : Dialect)
    (issues : List AuditIssue) : List IssueGroup :=
  ((dialect.arrange (issueGroups issues)).insertionSort
    (fun a b => b.totalCount ≤ a.totalCount)).take 10

/- `Avg` of a column; of no rows it is null. -/
def average
    (dialect : Dialect)
    (values : List Int) : Json :=
  if values = [] then
    .null
  else
    .float (dialect.mean values)

structure AuditSummary where
  totalAudits : Nat
  avgErrors : Json
  avgContrastErrors : Json
  totalErrors : Int
  mostCommonIssues : List IssueGroup

def getAuditSummary
    (dialect : Dialect)
    (d : Db)
    (user : UserId) : Except PyError AuditSummary := do
  let audits := countedAudits d user
  let errors := audits.map AccessibilityAudit.totalErrors
  let contrast :=
    audits.map AccessibilityAudit.totalContrastErrors
  let avgErrors ←
    ((average dialect errors).or (.int 0)).roundTo 2
  let avgContrastErrors ←
    ((average dialect contrast).or (.int 0)).roundTo 2
  pure
    { totalAudits := audits.length
      avgErrors := avgErrors
      avgContrastErrors := avgContrastErrors
      totalErrors := errors.sum
      mostCommonIssues :=
        topIssues dialect (userIssues d user) }

------------------------------------------------------------
-- The Top Ten
------------------------------------------------------------

section TopTen

variable {dialect : Dialect} {issues : List AuditIssue}
variable {group other : IssueGroup}

/- Every group is among the sorted ones. -/
theorem mem_sorted_iff
    (dialect : Dialect) :
    group ∈
        (dialect.arrange (issueGroups issues)).insertionSort
          (fun a b => b.totalCount ≤ a.totalCount) ↔
      group ∈ issueGroups issues := by
  rw [List.mem_insertionSort, (dialect.perm _).mem_iff]

theorem pairwise_sorted
    (dialect : Dialect)
    (issues : List AuditIssue) :
    ((dialect.arrange (issueGroups issues)).insertionSort
        (fun a b =>
          b.totalCount ≤ a.totalCount)).Pairwise
      (fun a b => b.totalCount ≤ a.totalCount) := by
  have hTotal :
      Std.Total
        (fun a b : IssueGroup =>
          b.totalCount ≤ a.totalCount) :=
    ⟨fun a b => le_total b.totalCount a.totalCount⟩
  have hTrans :
      IsTrans IssueGroup
        (fun a b => b.totalCount ≤ a.totalCount) :=
    ⟨fun _ _ _ hLeft hRight => le_trans hRight hLeft⟩
  exact List.pairwise_insertionSort _ _

theorem topIssues_sorted :
    (topIssues dialect issues).Pairwise
      (fun a b => b.totalCount ≤ a.totalCount) :=
  (pairwise_sorted dialect issues).sublist
    (List.take_sublist _ _)

/- A group that is left out is not larger. -/
theorem topIssues_largest
    (hGroup : group ∈ issueGroups issues)
    (hOut : group ∉ topIssues dialect issues)
    (hTop : other ∈ topIssues dialect issues) :
    group.totalCount ≤ other.totalCount := by
  have hMem := (mem_sorted_iff dialect).mpr hGroup
  have hSorted := pairwise_sorted dialect issues
  rw [← List.take_append_drop 10 (List.insertionSort _ _)]
    at hMem hSorted
  rw [List.pairwise_append] at hSorted
  rcases List.mem_append.mp hMem with hTake | hDrop
  · exact absurd hTake hOut
  · exact hSorted.2.2 other hTop group hDrop

end TopTen

section Consistency

variable {dialect : Dialect} {d : Db} {user : UserId}

/- An average can always be rounded. -/
theorem round_average
    (dialect : Dialect)
    (values : List Int) :
    ∃ v,
      ((average dialect values).or (.int 0)).roundTo 2 =
        .ok v := by
  unfold average
  split
  · exact ⟨_, rfl⟩
  · rw [Json.or]
    split
    · rcases Json.roundTo_float 2 (dialect.mean values) with
        ⟨y, hRound⟩
      exact ⟨_, hRound⟩
    · exact ⟨_, rfl⟩

/- The summary never fails. -/
theorem getAuditSummary_ok :
    ∃ summary,
      getAuditSummary dialect d user = .ok summary ∧
        summary.totalAudits =
            (countedAudits d user).length ∧
          summary.mostCommonIssues =
            topIssues dialect (userIssues d user) := by
  rcases
    round_average dialect
      ((countedAudits d user).map
        AccessibilityAudit.totalErrors) with
    ⟨avgErrors, hErrors⟩
  rcases
    round_average dialect
      ((countedAudits d user).map
        AccessibilityAudit.totalContrastErrors) with
    ⟨avgContrastErrors, hContrast⟩
  simp only [getAuditSummary, hErrors, hContrast]
  exact ⟨_, rfl, rfl, rfl⟩

------------------------------------------------------------
-- Consistency
------------------------------------------------------------

/- The issues of the audits that the summary counts. -/
def countedIssues
    (d : Db)
    (user : UserId) : List AuditIssue :=
  d.issues.filter
    (fun issue =>
      (countedAudits d user).any
        (fun row => row.id = issue.audit))

/-
  The summary lists the top ten among exactly the issues of
  the audits that it counts.
-/
structure Consistent
    (dialect : Dialect)
    (d : Db)
    (user : UserId) : Prop where
  aggregated : userIssues d user = countedIssues d user
  top :
    ∃ summary,
      getAuditSummary dialect d user = .ok summary ∧
        summary.totalAudits =
            (countedAudits d user).length ∧
          summary.mostCommonIssues =
            topIssues dialect (countedIssues d user)

/- No soft-deleted audit of the user has issues. -/
def Unburdened
    (d : Db)
    (user : UserId) : Prop :=
  ∀ id row, d.find id = some row → row.user = some user →
    row.isDeleted = true → d.issuesOf id = []

/- Only completed audits have issues. -/
structure Attached (d : Db) : Prop where
  keyed : Table.Keyed AccessibilityAudit.id d.audits
  completed :
    ∀ issue ∈ d.issues, ∃ row,
      d.find issue.audit = some row ∧
        row.status = .completed

/- The counted audit of an issue is the audit it is found by. -/
theorem any_counted_iff
    {id : AuditId}
    (hKeyed : Table.Keyed AccessibilityAudit.id d.audits) :
    (countedAudits d user).any (fun row => row.id = id) =
        true ↔
      ∃ row, d.find id = some row ∧
        row.isDeleted = false ∧ row.user = some user ∧
          row.status = .completed := by
  simp only [List.any_eq_true, countedAudits, liveAudits,
    List.mem_filter, decide_eq_true_eq, Bool.not_eq_true']
  constructor
  · rintro ⟨row, ⟨⟨hMem, hLive⟩, hUser, hStatus⟩, rfl⟩
    exact
      ⟨row, Table.find_of_mem hKeyed hMem, hLive, hUser,
        hStatus⟩
  · rintro ⟨row, hFind, hLive, hUser, hStatus⟩
    exact
      ⟨row, ⟨⟨Table.mem_of_find hFind, hLive⟩, hUser, hStatus⟩,
        Table.key_of_find hFind⟩

/-
  The two queries see the issues of the same audits exactly
  when no soft-deleted audit of the user has any.
-/
theorem userIssues_eq_iff
    (hAttached : Attached d) :
    userIssues d user = countedIssues d user ↔
      Unburdened d user := by
  constructor
  · intro hSame id row hFind hUser hDeleted
    rw [Db.issuesOf, List.filter_eq_nil_iff]
    intro issue hMem hKey
    have hAudit : issue.audit = id :=
      of_decide_eq_true hKey
    have hJoined : issue ∈ userIssues d user := by
      rw [userIssues, List.mem_filter, hAudit, hFind]
      exact ⟨hMem, decide_eq_true hUser⟩
    rw [hSame, countedIssues, List.mem_filter,
      any_counted_iff hAttached.keyed, hAudit, hFind]
      at hJoined
    rcases hJoined with ⟨_, row', hRow, hLive, _⟩
    rw [← Option.some.inj hRow, hDeleted] at hLive
    cases hLive
  · intro hUnburdened
    apply List.filter_congr
    intro issue hMem
    rw [Bool.eq_iff_iff, any_counted_iff hAttached.keyed]
    rcases hAttached.completed issue hMem with
      ⟨row, hFind, hStatus⟩
    rw [hFind]
    constructor
    · intro hUser
      have hOwner : row.user = some user :=
        of_decide_eq_true hUser
      refine ⟨row, rfl, ?_, hOwner, hStatus⟩
      by_contra hDeleted
      have hNone :=
        hUnburdened issue.audit row hFind hOwner
          (Bool.eq_true_of_not_eq_false hDeleted)
      rw [Db.issuesOf, List.filter_eq_nil_iff] at hNone
      exact hNone issue hMem (decide_eq_true rfl)
    · rintro ⟨row', hRow, _, hOwner, _⟩
      rw [← Option.some.inj hRow] at hOwner
      exact decide_eq_true hOwner

theorem consistent_iff_unburdened
    (hAttached : Attached d) :
    Consistent dialect d user ↔ Unburdened d user := by
  constructor
  · intro hConsistent
    exact
      (userIssues_eq_iff hAttached).mp
        hConsistent.aggregated
  · intro hUnburdened
    have hSame :=
      (userIssues_eq_iff hAttached).mpr hUnburdened
    refine ⟨hSame, ?_⟩
    rw [← hSame]
    exact getAuditSummary_ok

end Consistency

end SiteAnalysis.Audits
