import SiteAnalysis.Audits.Service
import SiteAnalysis.Credits.Alone
import SiteAnalysis.Common.Validators

/-
  This file specifies the audit service on a connection that
  nothing disturbs, for a given answer of WAVE.

  Key definitions include:
    * `answering`
    * `Admitted`
    * `Finalizable`

  Key theorems include:
    * `ends_checkAccount`
    * `ends_finalize`
    * `ends_runAccessibilityAudit`
-/

------------------------------------------------------------
-- The Environment
------------------------------------------------------------

namespace SiteAnalysis.Audits

open Concurrency
open Relational
open Python
open Billing
open Credits

/- WAVE answers the request with `r`. -/
def answering
    (r : Response) : Statement → Option HttpOutcome
| .httpGet _ _ _ => some (.response r)
| _ => none

theorem inside_answering
    (r : Response) : Inside (answering r) := by
  intro q outcome hAnswer
  cases q with
  | httpGet url params timeout =>
      exact ⟨url, params, timeout, rfl⟩
  | _ => cases hAnswer

------------------------------------------------------------
-- Admission
------------------------------------------------------------

/- The account can pay for one audit. -/
def Affords
    (d : Db) : Option UserId → Prop
| none => True
| some user =>
    ∃ row, liveBalance d user = some row ∧
      auditCreditCost ≤ row.balance

/- The service gets as far as inserting the audit. -/
structure Admitted
    (d : Db)
    (account : Option UserId)
    (url : String) : Prop where
  affords : Affords d account
  url : fitsChar 2048 url = true

section Runs

variable {repr : Json → String} {t : Tid}
variable {d : Db} {s : Store Db UserId}
variable {r : Response}

/- The row of an account, read without a lock. -/
theorem ends_getOrCreateBalance
    {user : UserId}
    (hReady : s.Ready t d []) :
    (getOrCreateBalance user).Ends
      ((backend repr).alone t (answering r))
      (fun row s' =>
        (liveBalance d user = some row ∧ s'.Ready t d []) ∨
          (liveBalance d user = none ∧ row = .zero ∧
            s'.Ready t (setBalance user .zero d) []))
      (fun _ s' =>
        liveBalance d user = none ∧ s'.Ready t d []) s := by
  have hInside := inside_answering r
  have hNone :
      liveBalance d user = none →
        (backend repr).plan (.getBalance user) d =
          .miss (.doesNotExist "CreditBalance") := by
    intro hLive
    simp only [backend, plan, hLive]
  apply Prog.ends_handle
  cases hLive : liveBalance d user with
  | some row =>
      have hPlan :
          (backend repr).plan (.getBalance user) d =
            .done row none id := by
        simp only [backend, plan, hLive, Verdict.read]
      apply Backend.ends_done hReady
        (hInside.none (by simp)) hPlan
      intro s' hReady'
      exact Or.inl ⟨rfl, hReady'⟩
  | none =>
      apply Backend.ends_miss hReady
        (hInside.none (by simp)) (hNone hLive)
      intro s₁ hReady₁
      apply Prog.ends_handle
      apply Backend.ends_atomic hReady₁
      intro s₂ hReady₂
      cases hRow : d.balances user with
      | none =>
          have hPlan :
              (backend repr).plan (.createBalance user) d =
                .done .zero (some user)
                  (setBalance user .zero) := by
            simp only [backend, plan, hRow]
          apply Backend.ends_done hReady₂
            (hInside.none (by simp)) hPlan
          intro s₃ hReady₃
          exact
            ⟨_, hReady₃, fun s₄ hReady₄ =>
              Or.inr ⟨rfl, rfl, hReady₄⟩⟩
      | some row =>
          have hPlan :
              (backend repr).plan (.createBalance user) d =
                .refuse duplicateKey := by
            simp only [backend, plan, hRow]
          apply Backend.ends_refuse hReady₂
            (hInside.none (by simp)) hPlan
          intro s₃ hAt₃
          refine ⟨_, hAt₃, ?_⟩
          intro s₄ hReady₄
          apply Prog.ends_handle
          apply Backend.ends_miss hReady₄
            (hInside.none (by simp)) (hNone hLive)
          intro s₅ hReady₅
          exact ⟨rfl, hReady₅⟩

/- The check before the audit. -/
theorem ends_checkAccount
    {account : Option UserId}
    (hReady : s.Ready t d []) :
    (checkAccount account).Ends
      ((backend repr).alone t (answering r))
      (fun _ s' => Affords d account ∧ s'.Ready t d [])
      (fun _ s' =>
        ¬ Affords d account ∧
          ∃ d', d'.audits = d.audits ∧ s'.Ready t d' [])
      s := by
  cases account with
  | none => exact ⟨trivial, hReady⟩
  | some user =>
      apply Prog.ends_bind
      apply Prog.ends_bind
      apply Prog.ends_mono (ends_getOrCreateBalance hReady)
      · rintro row s' (⟨hLive, hReady'⟩ | ⟨hLive, rfl, hReady'⟩)
        · by_cases hShort : row.balance < auditCreditCost
          · rw [if_pos hShort]
            refine ⟨?_, d, rfl, hReady'⟩
            rintro ⟨row', hLive', hCovered⟩
            rw [hLive] at hLive'
            cases hLive'
            omega
          · rw [if_neg hShort]
            exact
              ⟨⟨row, hLive, by omega⟩, hReady'⟩
        · have hShort :
              CreditBalance.zero.balance <
                auditCreditCost := by decide
          rw [if_pos hShort]
          refine
            ⟨?_, setBalance user .zero d, rfl, hReady'⟩
          rintro ⟨row', hLive', _⟩
          rw [hLive] at hLive'
          cases hLive'
      · rintro e s' ⟨hLive, hReady'⟩
        refine ⟨?_, d, rfl, hReady'⟩
        rintro ⟨row', hLive', _⟩
        rw [hLive] at hLive'
        cases hLive'

/- The insertion of the new audit. -/
theorem ends_createAudit
    {id : AuditId}
    {account : Option UserId}
    {url : String}
    (hReady : s.Ready t d [])
    (hFresh : d.find id = none) :
    (query (.createAudit (newAudit id account url))).Ends
      ((backend repr).alone t (answering r))
      (fun _ s' =>
        fitsChar 2048 url = true ∧
          s'.Ready t
            (insertAudit (newAudit id account url) d) [])
      (fun _ s' =>
        ¬ fitsChar 2048 url = true ∧ s'.Ready t d []) s := by
  have hInside := inside_answering r
  have hZero : fitsInteger 0 = true := by decide
  have hNul : noNul "" = true := by decide
  have hStorable : (Json.obj []).storable = true := by
    decide
  have hCheck :
      (newAudit id account url).check = .ok () ↔
        fitsChar 2048 url = true := by
    simp [AccessibilityAudit.check, newAudit,
      optionalCharColumn, hZero, hNul, hStorable]
  have hPlan :
      (backend repr).plan
          (.createAudit (newAudit id account url)) d =
        checked (newAudit id account url).check none
          (insertAudit (newAudit id account url)) := by
    have hFind :
        d.find (newAudit id account url).id = none := hFresh
    simp only [backend, plan, hFind]
  cases hResult : (newAudit id account url).check with
  | ok u =>
      rw [hResult] at hPlan
      apply Backend.ends_done hReady
        (hInside.none (by simp)) hPlan
      intro s' hReady'
      exact ⟨hCheck.mp hResult, hReady'⟩
  | error e =>
      rw [hResult] at hPlan
      apply Backend.ends_refuse hReady
        (hInside.none (by simp)) hPlan
      intro s' hAt
      refine ⟨?_, hAt.ready⟩
      intro hFits
      rw [hCheck.mpr hFits] at hResult
      cases hResult

/- A successful answer of WAVE is what the request returns. -/
theorem ends_fetchWave
    {settings : WaveSettings}
    {url : String}
    {raw : Json}
    {Q : Json → Store Db UserId → Prop}
    {E : Exc → Store Db UserId → Prop}
    (hKey : settings.apiKey ≠ "")
    (hStatus : r.raisesForStatus = false)
    (hBody : r.body = .json raw)
    (hSuccess : Successful raw)
    (hReady : s.Ready t d [])
    (hDone :
      ∀ s' : Store Db UserId, s'.Ready t d [] → Q raw s') :
    (fetchWave settings repr url none).Ends
      ((backend repr).alone t (answering r)) Q E s := by
  have hOutside :
      answering r
          (.httpGet settings.baseUrl
            [("key", settings.apiKey), ("url", url),
              ("reporttype",
                toString (reportTypeOr settings none))]
            settings.requestTimeout) =
        some (.response r) := rfl
  unfold fetchWave
  rw [if_neg hKey]
  apply Prog.ends_bind
  apply Backend.ends_reply hReady hOutside rfl
  intro s' hReady'
  rw [readWave_of_success hStatus hBody hSuccess]
  exact hDone s' hReady'

------------------------------------------------------------
-- The Final Block
------------------------------------------------------------

/- The charge of the account goes through. -/
def Payable
    (d : Db)
    (url : String)
    (row : CreditBalance) : Option UserId → Prop
| none => True
| some user =>
    Chargeable d user auditCreditCost (usageDescription url)
      row

/- The data after the charge of the account. -/
def pay
    (url : String)
    (row : CreditBalance) : Option UserId → Db → Db
| none => id
| some user =>
    enter user (charge auditCreditCost row)
      (chargeEntry user auditCreditCost
        (usageDescription url) row)

/- The credits that an audit of the account consumes. -/
def costOf : Option UserId → Int
| none => 0
| some _ => auditCreditCost

@[simp] theorem pay_audits
    (url : String)
    (row : CreditBalance)
    (account : Option UserId) :
    (pay url row account d).audits = d.audits := by
  cases account <;> rfl

@[simp] theorem pay_issues
    (url : String)
    (row : CreditBalance)
    (account : Option UserId) :
    (pay url row account d).issues = d.issues := by
  cases account <;> rfl

theorem ends_chargeAccount
    {account : Option UserId}
    {url : String}
    (hReady : s.Ready t d [id]) :
    (chargeAccount account url).Ends
      ((backend repr).alone t (answering r))
      (fun cost s' =>
        ∃ row, Payable d url row account ∧
          cost = costOf account ∧
            s'.Ready t d [pay url row account])
      (fun e s' =>
        Printable e ∧ (∀ row, ¬ Payable d url row account) ∧
          ∃ p, s'.At t d [p])
      s := by
  cases account with
  | none => exact ⟨.zero, trivial, rfl, hReady⟩
  | some user =>
      apply Prog.ends_bind
      apply Backend.ends_savepoint hReady
      intro s₁ hReady₁
      apply Prog.ends_mono
        (ends_deductCreditBody (inside_answering r) hReady₁)
      · rintro tx s₂ ⟨row, hChargeable, rfl, hReady₂⟩
        exact
          ⟨_, hReady₂, fun s₃ hReady₃ =>
            ⟨row, hChargeable, rfl, hReady₃⟩⟩
      · rintro e s₂ ⟨hPrintable, ⟨p, hAt₂⟩, hNone⟩
        exact
          ⟨p, hAt₂, fun s₃ hReady₃ =>
            ⟨hPrintable, hNone, id, hReady₃.at'⟩⟩

/- The final block goes through. -/
structure Finalizable
    (repr : Json → String)
    (d : Db)
    (audit : AccessibilityAudit)
    (account : Option UserId)
    (url : String)
    (raw : Json)
    (parsed : Parsed)
    (row : CreditBalance) : Prop where
  payable : Payable d url row account
  saved :
    (completedAudit audit raw parsed
      (costOf account)).check = .ok ()
  issues :
    checkIssues repr (issueObjects audit.id parsed) =
      .ok ()

/- The data after the final block. -/
def finalized
    (repr : Json → String)
    (audit : AccessibilityAudit)
    (account : Option UserId)
    (url : String)
    (raw : Json)
    (parsed : Parsed)
    (row : CreditBalance)
    (d : Db) : Db :=
  insertIssues
    ((issueObjects audit.id parsed).map (fun i => i.row repr))
    (updateAudit audit.id
      (fun _ =>
        completedAudit audit raw parsed (costOf account))
      (pay url row account d))

theorem ends_finalize
    {audit stored : AccessibilityAudit}
    {account : Option UserId}
    {url : String}
    {raw : Json}
    {parsed : Parsed}
    (hReady : s.Ready t d [])
    (hStored : d.find audit.id = some stored) :
    (atomic (finalizeBody audit account url raw
        parsed)).Ends
      ((backend repr).alone t (answering r))
      (fun a s' =>
        ∃ row,
          Finalizable repr d audit account url raw parsed
              row ∧
            a =
                completedAudit audit raw parsed
                  (costOf account) ∧
              s'.Ready t
                (finalized repr audit account url raw parsed
                  row d)
                [])
      (fun e s' =>
        Printable e ∧
          (∀ row,
            ¬ Finalizable repr d audit account url raw
              parsed row) ∧
            s'.Ready t d [])
      s := by
  have hInside := inside_answering r
  apply Backend.ends_atomic hReady
  intro s₁ hReady₁
  apply Prog.ends_bind
  apply Prog.ends_mono (ends_chargeAccount hReady₁)
  · rintro cost s₂ ⟨row, hPayable, rfl, hReady₂⟩
    have hFind :
        (pay url row account d).find audit.id =
          some stored := by
      rw [Db.find, pay_audits]
      exact hStored
    have hSave :
        (backend repr).plan
            (.saveAudit
              (completedAudit audit raw parsed
                (costOf account)))
            (viewOf [pay url row account] d) =
          checked
            (completedAudit audit raw parsed
              (costOf account)).check
            none
            (updateAudit audit.id
              (fun _ =>
                completedAudit audit raw parsed
                  (costOf account))) := by
      have hFind' :
          (viewOf [pay url row account] d).find
              (completedAudit audit raw parsed
                (costOf account)).id =
            some stored := hFind
      simp only [backend, plan, hFind']
      rfl
    apply Prog.ends_bind
    cases hAudit :
        (completedAudit audit raw parsed
          (costOf account)).check with
    | error e =>
        rw [hAudit] at hSave
        apply Backend.ends_refuse hReady₂
          (hInside.none (by simp)) hSave
        intro s₃ hAt₃
        refine
          ⟨_, hAt₃, fun s₄ hReady₄ =>
            ⟨AccessibilityAudit.clean_check _ e hAudit, ?_,
              hReady₄⟩⟩
        intro row' hFinalizable
        have hSaved := hFinalizable.saved
        rw [hAudit] at hSaved
        cases hSaved
    | ok u =>
        rw [hAudit] at hSave
        apply Backend.ends_done hReady₂
          (hInside.none (by simp)) hSave
        intro s₃ hReady₃
        apply Prog.ends_bind
        cases hIssues :
            checkIssues repr
              (issueObjects audit.id parsed) with
        | error e =>
            apply Backend.ends_refuse hReady₃
              (hInside.none (by simp))
              (by
                simp only [backend, plan, hIssues, checked]
                rfl)
            intro s₄ hAt₄
            refine
              ⟨_, hAt₄, fun s₅ hReady₅ =>
                ⟨clean_checkIssues repr _ e hIssues, ?_,
                  hReady₅⟩⟩
            intro row' hFinalizable
            have hAccepted := hFinalizable.issues
            rw [hIssues] at hAccepted
            cases hAccepted
        | ok u' =>
            apply Backend.ends_done hReady₃
              (hInside.none (by simp))
              (by
                simp only [backend, plan, hIssues, checked]
                rfl)
            intro s₄ hReady₄
            exact
              ⟨_, hReady₄, fun s₅ hReady₅ =>
                ⟨row, ⟨hPayable, hAudit, hIssues⟩, rfl,
                  hReady₅⟩⟩
  · rintro e s₂ ⟨hPrintable, hNone, p, hAt₂⟩
    refine
      ⟨p, hAt₂, fun s₃ hReady₃ =>
        ⟨hPrintable, ?_, hReady₃⟩⟩
    intro row hFinalizable
    exact hNone row hFinalizable.payable

/- The handler around the block records the failure. -/
theorem ends_failFinalize
    {α : Type}
    {id : AuditId}
    {account : Option UserId}
    {url : String}
    {e : Exc}
    (hReady : s.Ready t d [])
    (hStored :
      d.find id = some (newAudit id account url))
    (hUrl : fitsChar 2048 url = true)
    (hPrintable : Printable e) :
    (failFinalize (newAudit id account url) e :
        Service α).Ends
      ((backend repr).alone t (answering r))
      (fun _ _ => False)
      (fun _ s' =>
        ∃ f : AccessibilityAudit → AccessibilityAudit,
          (f (newAudit id account url)).status = .failed ∧
            (f (newAudit id account url)).id = id ∧
              s'.Ready t (updateAudit id f d) [])
      s := by
  have hInside := inside_answering r
  have hZero : fitsInteger 0 = true := by decide
  have hStorable : (Json.obj []).storable = true := by
    decide
  have hRefresh :
      (backend repr).plan (.refreshAudit id) d =
        .done (newAudit id account url) none
          (fun d => d) := by
    simp only [backend, plan, hStored, Verdict.read]
    rfl
  apply Prog.ends_bind
  apply Backend.ends_done hReady (hInside.none (by simp))
    hRefresh
  intro s₁ hReady₁
  apply Prog.ends_bind
  apply Backend.ends_done hReady₁ (hInside.none (by simp))
  · simp only [backend, plan]
    have hFind :
        d.find (newAudit id account url).id =
          some (newAudit id account url) := hStored
    simp only [Backend.pushCommitted, Backend.pushWrite,
      List.foldr_nil, hFind]
    have hCheck :
        (({ newAudit id account url with
              status := .failed
              errorMessage := e.str
              creditsConsumed := 0 } :
            AccessibilityAudit).assign
          [.status, .errorMessage, .creditsConsumed]
          (newAudit id account url)).check = .ok () := by
      simp [AccessibilityAudit.check, newAudit,
        AccessibilityAudit.assign, optionalCharColumn, hUrl,
        hZero, hStorable]
      exact hPrintable
    simp only [hCheck, checked]
    rfl
  · intro s₂ hReady₂
    refine ⟨_, ?_, ?_, hReady₂⟩
    · rfl
    · rfl

------------------------------------------------------------
-- The Whole Service
------------------------------------------------------------

/- The insertion of the audit touches nothing it pays with. -/
theorem affords_insertAudit
    {account : Option UserId}
    {row : AccessibilityAudit} :
    Affords (insertAudit row d) account ↔
      Affords d account := by
  cases account <;> rfl

theorem find_insertAudit
    {row : AccessibilityAudit}
    (hFresh : d.find row.id = none) :
    (insertAudit row d).find row.id = some row :=
  Table.find_append_self hFresh

/-
  How the service ends after a successful answer `raw`: it
  was not admitted, it could not parse the answer, the final
  block failed and was recorded, or the audit is completed.
-/
inductive Ended
    (repr : Json → String)
    (d : Db)
    (id : AuditId)
    (account : Option UserId)
    (url : String)
    (raw : Json) :
    Except Exc AccessibilityAudit → Db → Prop
  | refused
      (e : Exc)
      (d' : Db)
      (hRefused : ¬ Admitted d account url)
      (hAudits : d'.audits = d.audits) :
      Ended repr d id account url raw (.error e) d'
  | unparsed
      (e : Exc)
      (hAdmitted : Admitted d account url)
      (hParse : ∀ parsed, parseWave raw ≠ .ok parsed) :
      Ended repr d id account url raw (.error e)
        (insertAudit (newAudit id account url) d)
  | failed
      (e : Exc)
      (parsed : Parsed)
      (f : AccessibilityAudit → AccessibilityAudit)
      (hAdmitted : Admitted d account url)
      (hParse : parseWave raw = .ok parsed)
      (hRefused :
        ∀ row,
          ¬ Finalizable repr d (newAudit id account url)
            account url raw parsed row)
      (hStatus :
        (f (newAudit id account url)).status = .failed)
      (hId : (f (newAudit id account url)).id = id) :
      Ended repr d id account url raw (.error e)
        (updateAudit id f
          (insertAudit (newAudit id account url) d))
  | completed
      (parsed : Parsed)
      (row : CreditBalance)
      (hAdmitted : Admitted d account url)
      (hParse : parseWave raw = .ok parsed)
      (hFinalizable :
        Finalizable repr d (newAudit id account url) account
          url raw parsed row) :
      Ended repr d id account url raw
        (.ok
          (completedAudit (newAudit id account url) raw
            parsed (costOf account)))
        (finalized repr (newAudit id account url) account url
          raw parsed row
          (insertAudit (newAudit id account url) d))

/- The final block does not depend on the audits there are. -/
theorem finalizable_insertAudit
    {audit row' : AccessibilityAudit}
    {account : Option UserId}
    {url : String}
    {raw : Json}
    {parsed : Parsed}
    {row : CreditBalance} :
    Finalizable repr (insertAudit row' d) audit account url
        raw parsed row ↔
      Finalizable repr d audit account url raw parsed
        row := by
  have hPayable :
      Payable (insertAudit row' d) url row account ↔
        Payable d url row account := by
    cases account with
    | none => exact Iff.rfl
    | some user =>
        exact
          ⟨fun h =>
              ⟨h.found, h.positive, h.covered, h.object, h.tx⟩,
            fun h =>
              ⟨h.found, h.positive, h.covered, h.object,
                h.tx⟩⟩
  exact
    ⟨fun h => ⟨hPayable.mp h.payable, h.saved, h.issues⟩,
      fun h => ⟨hPayable.mpr h.payable, h.saved, h.issues⟩⟩

theorem ends_runAccessibilityAudit
    {settings : WaveSettings}
    {id : AuditId}
    {raw : Json}
    (repr : Json → String)
    (account : Option UserId)
    (url : String)
    (hReady : s.Ready t d [])
    (hKey : settings.apiKey ≠ "")
    (hStatus : r.raisesForStatus = false)
    (hBody : r.body = .json raw)
    (hSuccess : Successful raw)
    (hFresh : d.find id = none) :
    (runAccessibilityAudit settings repr id account
        url).Ends
      ((backend repr).alone t (answering r))
      (fun a s' =>
        Ended repr d id account url raw (.ok a)
          s'.committed)
      (fun e s' =>
        Ended repr d id account url raw (.error e)
          s'.committed)
      s := by
  apply Prog.ends_bind
  apply Prog.ends_mono (ends_checkAccount hReady)
  · rintro _ s₁ ⟨hAffords, hReady₁⟩
    apply Prog.ends_bind
    apply Prog.ends_mono (ends_createAudit hReady₁ hFresh)
    · rintro _ s₂ ⟨hUrl, hReady₂⟩
      have hAdmitted : Admitted d account url :=
        ⟨hAffords, hUrl⟩
      have hStored :
          (insertAudit (newAudit id account url) d).find id =
            some (newAudit id account url) := by
        exact find_insertAudit hFresh
      apply Prog.ends_bind
      apply Prog.ends_handle
      apply ends_fetchWave hKey hStatus hBody hSuccess
        hReady₂
      intro s₃ hReady₃
      apply Prog.ends_bind
      cases hParse : parseWave raw with
      | error e =>
          have hNone :
              ∀ parsed, parseWave raw ≠ .ok parsed := by
            intro parsed hOk
            rw [hParse] at hOk
            cases hOk
          have hCommitted := hReady₃.at'.committed
          change
            Ended repr d id account url raw _ s₃.committed
          rw [hCommitted]
          exact Ended.unparsed _ hAdmitted hNone
      | ok parsed =>
          apply Prog.ends_handle
          apply Prog.ends_mono
            (ends_finalize hReady₃ hStored)
          · rintro a s₄ ⟨row, hFinalizable, rfl, hReady₄⟩
            change
              Ended repr d id account url raw (.ok _)
                s₄.committed
            rw [hReady₄.at'.committed]
            exact
              Ended.completed parsed row hAdmitted hParse
                (finalizable_insertAudit.mp hFinalizable)
          · rintro e s₄ ⟨hPrintable, hNone, hReady₄⟩
            apply Prog.ends_mono
              (ends_failFinalize hReady₄ hStored hUrl
                hPrintable)
            · intro a s₅ hFalse
              exact False.elim hFalse
            · rintro e' s₅ ⟨f, hFailed, hId, hReady₅⟩
              have hRefused :
                  ∀ row,
                    ¬ Finalizable repr d
                      (newAudit id account url) account url
                      raw parsed row := by
                intro row hFinalizable
                exact
                  hNone row
                    (finalizable_insertAudit.mpr
                      hFinalizable)
              rw [hReady₅.at'.committed]
              exact
                Ended.failed e' parsed f hAdmitted hParse
                  hRefused hFailed hId
    · rintro e s₂ ⟨hUrl, hReady₂⟩
      exact
        Ended.refused e _
          (fun hAdmitted => hUrl hAdmitted.url)
          (congrArg Db.audits hReady₂.at'.committed)
  · rintro e s₁ ⟨hAffords, d', hAudits, hReady₁⟩
    refine
      Ended.refused e _
        (fun hAdmitted => hAffords hAdmitted.affords) ?_
    rw [hReady₁.at'.committed]
    exact hAudits

end Runs

end SiteAnalysis.Audits
