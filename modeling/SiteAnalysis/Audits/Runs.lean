import SiteAnalysis.Audits.Billing

/-
  This file defines what runs of the audit service can make
  of a database: any number of audits run at the same time,
  for accounts of any users, and each of them may have come
  to any point when the run is cut off.

  Key definitions include:
    * `Request`
    * `launch`
    * `Audited`
    * `Lasts`

  Key theorems include:
    * `kept_of_audited`
    * `keeps_own`
    * `keeps_keyed`
-/

------------------------------------------------------------
-- Runs of Audits
------------------------------------------------------------

namespace SiteAnalysis.Audits

open Concurrency
open Relational
open Python
open Billing
open Credits

/- A request for an audit. -/
structure Request where
  account : Option UserId
  url : String

/- The call of a thread; an idle thread makes none. -/
def callOf : Option Request → Call
| none => .audit none ""
| some request => .audit request.account request.url

/- What a thread is going to do. -/
def programOf
    (settings : WaveSettings)
    (repr : Json → String)
    (t : Tid) : Option Request → Service Unit
| none => .ret ()
| some request =>
    (callOf (some request)).program settings repr t

/- The threads with a request are about to serve it. -/
def launch
    (settings : WaveSettings)
    (repr : Json → String)
    (requests : Tid → Option Request)
    (d : Db) : AuditWorld where
  shared := Store.quiet d
  threads := fun t =>
    .live (programOf settings repr t (requests t))

/- No row has or refers to the identifier. -/
structure Fresh
    (d : Db)
    (id : AuditId) : Prop where
  find : d.find id = none
  issues : d.issuesOf id = []

/-
  Audits have run, whatever came of them.  Every request has
  drawn a fresh identifier, that of its thread.
-/
def Audited
    (settings : WaveSettings)
    (repr : Json → String)
    (d d' : Db) : Prop :=
  ∃ (requests : Tid → Option Request) (w : AuditWorld),
    (∀ t, requests t ≠ none → Fresh d t) ∧
      (backend repr).machine.Reaches Machine.anyEvent
          (launch settings repr requests d) w ∧
        w.shared.committed = d'

section Kept

variable {settings : WaveSettings} {repr : Json → String}
variable {requests : Tid → Option Request} {d d' : Db}
variable {inv : Db → Prop} {t : Tid}

theorem wp_programOf
    (hKeeps : Keeps repr inv)
    (hFresh : requests t ≠ none → Fresh d t) :
    (auditing repr (fun t => callOf (requests t)) inv).wp t
      (programOf settings repr t (requests t))
      (fun _ _ => True) (fun _ _ => True)
      ((auditing repr (fun t => callOf (requests t))
          inv).start t d ()) := by
  cases hRequest : requests t with
  | none => trivial
  | some request =>
      have hRest :
          Regime.Resting (own t d) ()
            ((auditing repr (fun t => callOf (requests t))
                inv).start t d ()) :=
        ⟨rfl, rfl, rfl⟩
      have hNew : Fresh d t := by
        apply hFresh
        rw [hRequest]
        exact Option.some_ne_none request
      rw [own, hNew.find, hNew.issues] at hRest
      apply Discipline.wp_bind
      apply wp_runAccessibilityAudit hKeeps _ hRest
      rw [hRequest]
      rfl

/- What every change of an audit keeps, all runs keep. -/
theorem kept_of_audited
    (hKeeps : Keeps repr inv)
    (hInv : inv d)
    (hAudited : Audited settings repr d d') : inv d' := by
  rcases hAudited with ⟨requests, w, hFresh, hReach, rfl⟩
  have hVerified :
      (auditing repr (fun t => callOf (requests t))
          inv).Verified
        (fun _ _ _ => True) (fun _ _ _ => True) d
        (fun _ => ()) (launch settings repr requests d) :=
    Regime.verified_plain rfl hInv
      (fun t => ⟨_, rfl, wp_programOf hKeeps (hFresh t)⟩)
  rcases hVerified.inv_of_reaches hReach with ⟨_, hKept⟩
  exact hKept

end Kept

------------------------------------------------------------
-- What Runs Keep
------------------------------------------------------------

/-
  The property of an audit and its issues lasts through a
  run: it holds of the rows of a new audit when it holds of
  none, and of those of a finished one when it holds of those
  of a new one.
-/
structure Lasts
    (repr : Json → String)
    (P : AuditId → Own → Prop) : Prop where
  insert :
    ∀ id account url issues,
      P id (none, issues) →
        P id (some (newAudit id account url), issues)
  fail :
    ∀ id account url row,
      P id (some (newAudit id account url), []) →
        row.status = .failed → P id (some row, [])
  complete :
    ∀ id account url raw parsed,
      P id (some (newAudit id account url), []) →
        P id
          (some
              (completedAudit (newAudit id account url) raw
                parsed (costOf account)),
            (issueObjects id parsed).map
              (fun issue => issue.row repr))

section Lasting

variable {repr : Json → String} {d : Db} {id : AuditId}
variable {account : Option UserId} {url : String}
variable {raw : Json} {parsed : Parsed}
variable {row : CreditBalance}
variable {f : AccessibilityAudit → AccessibilityAudit}

theorem own_insertAudit_self
    (hFresh : d.find id = none) :
    own id (insertAudit (newAudit id account url) d) =
      (some (newAudit id account url), d.issuesOf id) := by
  have hFreshRow :
      d.find (newAudit id account url).id = none := hFresh
  have hFind :
      (insertAudit (newAudit id account url) d).find id =
        some (newAudit id account url) :=
    Table.find_append_self hFreshRow
  rw [own, hFind]
  rfl

theorem own_updateAudit_self
    (hId : ∀ row, (f row).id = row.id) :
    own id (updateAudit id f d) =
      ((d.find id).map f, d.issuesOf id) := by
  have hFind :
      (updateAudit id f d).find id = (d.find id).map f :=
    Table.find_update_self
      (fun row hKey => (hId row).trans hKey)
  rw [own, hFind]
  rfl

theorem own_finalized_self
    (hFind : d.find id = some (newAudit id account url))
    (hNone : d.issuesOf id = []) :
    own id
        (finalized repr (newAudit id account url) account url
          raw parsed row d) =
      (some
          (completedAudit (newAudit id account url) raw
            parsed (costOf account)),
        (issueObjects id parsed).map
          (fun issue => issue.row repr)) := by
  have hSelf :
      (finalized repr (newAudit id account url) account url
          raw parsed row d).find id =
        (d.find id).map
          (fun _ =>
            completedAudit (newAudit id account url) raw
              parsed (costOf account)) := by
    rw [Db.find, finalized_audits_eq]
    exact Table.find_update_self (fun _ _ => rfl)
  rw [own, issuesOf_finalized_self hNone, hSelf, hFind]
  rfl

/- A lasting property of every audit is kept. -/
theorem keeps_own
    {P : AuditId → Own → Prop}
    (hLasts : Lasts repr P) :
    Keeps repr (fun d => ∀ id, P id (own id d)) where
  createBalance := fun d user hAll _ id => hAll id
  insertAudit := by
    intro d id account url hAll hFresh id'
    have hOld := hAll id'
    by_cases hSame : id' = id
    · subst hSame
      rw [own_insertAudit_self hFresh]
      rw [own, hFresh] at hOld
      exact hLasts.insert _ _ _ _ hOld
    · rw [own_insertAudit_of_ne hSame]
      exact hOld
  fail := by
    intro d id account url f hAll hFind hNone hId hStatus _
      id'
    have hOld := hAll id'
    by_cases hSame : id' = id
    · subst hSame
      rw [own, hFind, hNone] at hOld
      rw [own_updateAudit_self hId, hFind, hNone]
      exact hLasts.fail _ _ _ _ hOld hStatus
    · rw [own_updateAudit_of_ne hId hSame]
      exact hOld
  finalized := by
    intro d id account url raw parsed row hAll hFind hNone
      _ _ id'
    have hOld := hAll id'
    by_cases hSame : id' = id
    · subst hSame
      rw [own, hFind, hNone] at hOld
      rw [own_finalized_self hFind hNone]
      exact hLasts.complete _ _ _ _ _ hOld
    · rw [own_finalized_of_ne hSame]
      exact hOld

/- Identifiers stay unique. -/
theorem keeps_keyed
    (repr : Json → String) :
    Keeps repr
      (fun d => Table.Keyed AccessibilityAudit.id d.audits)
    where
  createBalance := fun _ _ hKeyed _ => hKeyed
  insertAudit := fun _ _ _ _ hKeyed hFresh =>
    Table.keyed_append hKeyed hFresh
  fail := fun _ _ _ _ _ hKeyed _ _ hId _ _ =>
    Table.keyed_update
      (fun row hKey => (hId row).trans hKey) hKeyed
  finalized := by
    intro d id account url raw parsed row hKeyed _ _ _ _
    rw [finalized_audits_eq]
    exact Table.keyed_update (fun _ _ => rfl) hKeyed

end Lasting

end SiteAnalysis.Audits
