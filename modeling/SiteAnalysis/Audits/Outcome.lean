import SiteAnalysis.Audits.Alone

/-
  This file proves when an audit ends as it should.

  An audit that was stored is completed or failed exactly
  when the answer of WAVE can be parsed, and an audit that
  can be paid for is completed exactly when the text of its
  usage entry fits the ledger.

  Key definitions include:
    * `Terminal`
    * `WellFormed`
    * `CompletesWithOneCredit`

  Key theorems include:
    * `audit_terminal_iff`
    * `audit_completes_iff`
-/

------------------------------------------------------------
-- Stored Audits
------------------------------------------------------------

namespace SiteAnalysis.Audits

open Concurrency
open Relational
open Python
open Billing
open Credits

/- The audits that a call has stored are not pending. -/
def Terminal (d d' : Db) : Prop :=
  ∀ row ∈ d'.audits, d.find row.id = none →
    row.status = .completed ∨ row.status = .failed

section Terminal

variable {repr : Json → String} {d d' : Db}
variable {id : AuditId} {account : Option UserId}
variable {url : String} {raw : Json}
variable {row : AccessibilityAudit}

theorem find_of_mem_audits
    (hMem : row ∈ d.audits) : d.find row.id ≠ none := by
  intro hNone
  exact Table.find_eq_none_iff.mp hNone row hMem rfl

/- With one more row the call is judged by that row. -/
theorem terminal_append_iff
    (hFresh : d.find row.id = none)
    (hAudits : d'.audits = d.audits ++ [row]) :
    Terminal d d' ↔
      row.status = .completed ∨ row.status = .failed := by
  rw [Terminal, hAudits]
  constructor
  · intro hAll
    exact
      hAll row
        (List.mem_append_right _ List.mem_cons_self) hFresh
  · intro hRow row' hMem hNone
    rcases List.mem_append.mp hMem with hOld | hNew
    · exact absurd hNone (find_of_mem_audits hOld)
    · rw [List.mem_singleton.mp hNew]
      exact hRow

/- Updating the row that was just inserted. -/
theorem updateAudit_insertAudit
    {f : AccessibilityAudit → AccessibilityAudit}
    (hFresh : d.find row.id = none) :
    (updateAudit row.id f (insertAudit row d)).audits =
      d.audits ++ [f row] :=
  Table.update_append_self hFresh

/- The stored audit after the final block. -/
theorem finalized_audits
    {parsed : Parsed}
    {row : CreditBalance}
    (hFresh : d.find id = none) :
    (finalized repr (newAudit id account url) account url
        raw parsed row
        (insertAudit (newAudit id account url) d)).audits =
      d.audits ++
        [completedAudit (newAudit id account url) raw parsed
          (costOf account)] := by
  have hFreshRow :
      d.find (newAudit id account url).id = none := hFresh
  have hUpdate :=
    updateAudit_insertAudit (d := d)
      (f := fun _ =>
        completedAudit (newAudit id account url) raw parsed
          (costOf account))
      hFreshRow
  rw [← hUpdate]
  simp [finalized, insertIssues, updateAudit]

/- How the end of the service leaves its audit. -/
theorem terminal_of_ended
    {result : Except Exc AccessibilityAudit}
    (hFresh : d.find id = none)
    (hEnded : Ended repr d id account url raw result d') :
    Terminal d d' ↔
      WellShaped raw = true ∨ ¬ Admitted d account url := by
  have hFreshRow :
      d.find (newAudit id account url).id = none := hFresh
  cases hEnded with
  | refused e _ hRefused hAudits =>
      constructor
      · intro _
        exact Or.inr hRefused
      · intro _ row hMem hNone
        rw [hAudits] at hMem
        exact absurd hNone (find_of_mem_audits hMem)
  | unparsed e hAdmitted hParse =>
      rw [terminal_append_iff hFreshRow rfl]
      constructor
      · rintro (hStatus | hStatus)
        · cases hStatus
        · cases hStatus
      · rintro (hShaped | hRefused)
        · rcases (parseWave_isOk_iff raw).mpr hShaped with
            ⟨parsed, hOk⟩
          exact absurd hOk (hParse parsed)
        · exact absurd hAdmitted hRefused
  | failed e parsed f hAdmitted hParse hRefused hStatus hId =>
      have hFreshFailed :
          d.find (f (newAudit id account url)).id = none := by
        rw [hId]
        exact hFresh
      have hAudits :
          (updateAudit id f
              (insertAudit (newAudit id account url)
                d)).audits =
            d.audits ++ [f (newAudit id account url)] := by
        exact updateAudit_insertAudit hFreshRow
      rw [terminal_append_iff hFreshFailed hAudits]
      constructor
      · intro _
        exact
          Or.inl
            ((parseWave_isOk_iff raw).mp ⟨parsed, hParse⟩)
      · intro _
        exact Or.inr hStatus
  | completed parsed row hAdmitted hParse hFinalizable =>
      have hFreshCompleted :
          d.find
              (completedAudit (newAudit id account url) raw
                parsed (costOf account)).id =
            none := hFresh
      rw [terminal_append_iff hFreshCompleted
        (finalized_audits hFresh)]
      constructor
      · intro _
        exact
          Or.inl
            ((parseWave_isOk_iff raw).mp ⟨parsed, hParse⟩)
      · intro _
        exact Or.inl rfl

end Terminal

/- A report without a place for its categories. -/
def nullCategories : Json :=
  .obj
    [("status", .obj [("success", .bool true)]),
      ("categories", .null)]

def someSettings : WaveSettings where
  apiKey := "key"
  baseUrl := "https://wave.webaim.org/api/request"
  reportType := 2
  requestTimeout := 60

theorem successful_nullCategories :
    Successful nullCategories := ⟨_, rfl, rfl⟩

/- An issue whose texts are texts that fit their columns. -/
structure IssueFits (issue : Issue) : Prop where
  waveId :
    ∃ s, issue.waveId = .str s ∧ fitsChar 100 s = true
  description :
    ∃ s, issue.description = .str s ∧ noNul s = true
  count : fitsInteger issue.count = true

/-
  A report that can be parsed and whose values fit the
  columns that they are stored in.
-/
structure WellFormed
    (raw : Json)
    (parsed : Parsed) : Prop where
  parse : parseWave raw = .ok parsed
  storable : raw.storable = true
  errors : fitsInteger parsed.totals.totalErrors = true
  alerts : fitsInteger parsed.totals.totalAlerts = true
  features : fitsInteger parsed.totals.totalFeatures = true
  structural :
    fitsInteger parsed.totals.totalStructural = true
  contrast :
    fitsInteger parsed.totals.totalContrastErrors = true
  issues : ∀ issue ∈ parsed.issues, IssueFits issue

/- The estimated level fits its column. -/
theorem wcagLevel_fits
    (errors contrast : Int) :
    optionalCharColumn 3 (wcagLevel errors contrast) =
      .ok () := by
  unfold wcagLevel
  split
  · rfl
  · split
    · exact (charColumn_eq_ok 3 "A").mpr (by decide)
    · exact (charColumn_eq_ok 3 "AA").mpr (by decide)

theorem parsed_wcagLevel
    {raw : Json}
    {parsed : Parsed}
    (hParse : parseWave raw = .ok parsed) :
    parsed.wcagLevel =
      wcagLevel parsed.totals.totalErrors
        parsed.totals.totalContrastErrors := by
  simp only [parseWave, bind_eq_ok_iff] at hParse
  rcases hParse with ⟨categories, _, result, _, hPure⟩
  cases hPure
  rfl

/- The results of a list of computations. -/
theorem mem_of_mapM
    {α β : Type}
    {f : α → Except PyError β}
    {xs : List α}
    {ys : List β}
    {y : β}
    (hMap : xs.mapM f = .ok ys)
    (hMem : y ∈ ys) : ∃ x ∈ xs, f x = .ok y := by
  induction xs generalizing ys with
  | nil =>
      cases hMap
      cases hMem
  | cons x xs ih =>
      simp only [List.mapM_cons, bind_eq_ok_iff] at hMap
      rcases hMap with ⟨z, hHead, zs, hTail, hPure⟩
      cases hPure
      rcases List.mem_cons.mp hMem with hSame | hRest
      · exact ⟨x, List.mem_cons_self, hSame ▸ hHead⟩
      · rcases ih hTail hRest with ⟨x', hMem', hOk⟩
        exact ⟨x', List.mem_cons_of_mem _ hMem', hOk⟩

/- No parsed issue names a criterion. -/
def Unreferenced (issues : List Issue) : Prop :=
  ∀ issue ∈ issues, issue.wcagReference = none

theorem unreferenced_parseItem
    {issueType : IssueType}
    {entry : String × Json}
    {issue : Issue}
    (hParse : parseItem issueType entry = .ok issue) :
    issue.wcagReference = none := by
  rcases entry with ⟨waveId, item⟩
  simp only [parseItem, bind_eq_ok_iff] at hParse
  rcases hParse with ⟨id, _, description, _, n, _, hPure⟩
  cases hPure
  rfl

theorem unreferenced_parseCategory
    {categories : Json}
    {totals : Totals}
    {issues : List Issue}
    {entry : String × IssueType × TotalField}
    {next : Totals × List Issue}
    (hIssues : Unreferenced issues)
    (hParse :
      parseCategory categories totals issues entry =
        .ok next) :
    Unreferenced next.2 := by
  rcases entry with ⟨waveCategory, issueType, totalField⟩
  simp only [parseCategory, bind_eq_ok_iff] at hParse
  rcases hParse with
    ⟨found, _, n, _, items, _, fields, _, parsed, hMap,
      hPure⟩
  cases hPure
  intro issue hMem
  rcases List.mem_append.mp hMem with hOld | hNew
  · exact hIssues issue hOld
  · rcases mem_of_mapM hMap hNew with ⟨_, _, hItem⟩
    exact unreferenced_parseItem hItem

theorem unreferenced_parseCategories
    {categories : Json}
    {entries : List (String × IssueType × TotalField)}
    {totals : Totals}
    {issues : List Issue}
    {result : Totals × List Issue}
    (hIssues : Unreferenced issues)
    (hParse :
      parseCategories categories entries totals issues =
        .ok result) :
    Unreferenced result.2 := by
  induction entries generalizing totals issues with
  | nil =>
      cases hParse
      exact hIssues
  | cons entry rest ih =>
      simp only [parseCategories, bind_eq_ok_iff] at hParse
      rcases hParse with ⟨next, hNext, hRest⟩
      exact
        ih (unreferenced_parseCategory hIssues hNext) hRest

theorem unreferenced_parseWave
    {raw : Json}
    {parsed : Parsed}
    (hParse : parseWave raw = .ok parsed) :
    Unreferenced parsed.issues := by
  simp only [parseWave, bind_eq_ok_iff] at hParse
  rcases hParse with ⟨categories, _, result, hResult, hPure⟩
  cases hPure
  apply unreferenced_parseCategories _ hResult
  intro issue hMem
  cases hMem

/- A well-formed report passes the checks of its columns. -/
theorem checkIssues_of_wellFormed
    {repr : Json → String}
    {audit : AuditId}
    {issues : List Issue}
    (hFits : ∀ issue ∈ issues, IssueFits issue)
    (hUnreferenced : Unreferenced issues) :
    checkIssues repr (issues.map (issueObject audit)) =
      .ok () := by
  induction issues with
  | nil => rfl
  | cons issue rest ih =>
      have hRest :=
        ih
          (fun i hMem => hFits i (List.mem_cons_of_mem _ hMem))
          (fun i hMem =>
            hUnreferenced i (List.mem_cons_of_mem _ hMem))
      have hIssue := hFits issue List.mem_cons_self
      have hNone := hUnreferenced issue List.mem_cons_self
      rcases hIssue.waveId with ⟨id, hId, hIdFits⟩
      rcases hIssue.description with ⟨text, hText, hTextFits⟩
      simp [checkIssues, IssueObject.check, issueObject, hId,
        hText, hNone, hIdFits, hTextFits, hIssue.count,
        Json.toStr, optionalCharColumn, hRest]

theorem check_completedAudit
    {id : AuditId}
    {account : Option UserId}
    {url : String}
    {raw : Json}
    {parsed : Parsed}
    (hUrl : fitsChar 2048 url = true)
    (hReport : WellFormed raw parsed) :
    (completedAudit (newAudit id account url) raw parsed
      (costOf account)).check = .ok () := by
  have hCost : fitsInteger (costOf account) = true := by
    cases account <;> rfl
  have hNul : noNul "" = true := by decide
  have hLevel :
      optionalCharColumn 3 parsed.wcagLevel = .ok () := by
    rw [parsed_wcagLevel hReport.parse]
    exact wcagLevel_fits _ _
  simp [AccessibilityAudit.check, completedAudit, newAudit,
    hUrl, hReport.errors, hReport.alerts, hReport.features,
    hReport.structural, hReport.contrast, hReport.storable,
    hLevel, hNul, hCost]

/- The usage entry fits exactly when the URL is short. -/
theorem usageDescription_fits
    {url : String}
    (hUrl : fitsChar 2048 url = true) :
    fitsChar 255
        (orDefault (usageDescription url) "Credit usage") =
          true ↔
      url.length ≤ 234 := by
  have hNul : noNul url = true := by
    simp only [fitsChar, decide_eq_true_eq] at hUrl
    exact hUrl.1
  have hPrefix :
      noNul "Accessibility audit: " = true := by decide
  have hPrefixLength :
      "Accessibility audit: ".length = 21 := rfl
  have hLength :
      (usageDescription url).length = 21 + url.length :=
    (String.length_append _ _).trans
      (congrArg (fun n => n + url.length) hPrefixLength)
  have hText : noNul (usageDescription url) = true :=
    (noNul_append _ _).trans
      (Bool.and_eq_true_iff.mpr ⟨hPrefix, hNul⟩)
  have hNonempty : usageDescription url ≠ "" := by
    intro hEmpty
    rw [hEmpty, String.length_empty] at hLength
    omega
  rw [orDefault, if_neg hNonempty, fitsChar,
    decide_eq_true_eq, hText, hLength]
  simp only [true_and]
  omega

section Paid

variable {d : Db} {user : UserId} {row : CreditBalance}
variable {url : String} {raw : Json} {parsed : Parsed}
variable {id : AuditId}

/- What the ledger asks of an audit that can be paid for. -/
theorem payable_iff
    (hUrl : fitsChar 2048 url = true)
    (hFound : liveBalance d user = some row)
    (hValid : row.check = .ok ())
    (hCredit : auditCreditCost ≤ row.balance) :
    Payable d url row (some user) ↔
      url.length ≤ 234 ∧ row.totalUsed < 2147483647 := by
  have hUsage : fitsChar 10 "usage" = true := by decide
  have hAmount : fitsInteger (-auditCreditCost) = true := by
    decide
  have hUnit : auditCreditCost = 1 := rfl
  simp only [CreditBalance.check, check_bind_eq_ok,
    integerColumn_eq_ok, require_eq_ok] at hValid
  rcases hValid with ⟨hPurchased, hUsed, hBalance, hNonneg⟩
  have hUsedBounds := hUsed
  have hBalanceBounds := hBalance
  simp only [fitsInteger, decide_eq_true_eq]
    at hUsedBounds hBalanceBounds
  have hAfter :
      fitsInteger (row.balance - auditCreditCost) = true := by
    simp only [fitsInteger, decide_eq_true_eq]
    omega
  have hNonnegAfter :
      decide (0 ≤ row.balance - auditCreditCost) = true := by
    rw [decide_eq_true_eq]
    omega
  have hNext :
      fitsInteger (row.totalUsed + auditCreditCost) = true ↔
        row.totalUsed < 2147483647 := by
    simp only [fitsInteger, decide_eq_true_eq]
    omega
  have hObject :
      (charge auditCreditCost row).check = .ok () ↔
        row.totalUsed < 2147483647 := by
    rw [← hNext]
    simp only [CreditBalance.check, charge,
      check_bind_eq_ok, integerColumn_eq_ok, require_eq_ok]
    constructor
    · intro h
      exact h.2.1
    · intro h
      exact ⟨hPurchased, h, hAfter, hNonnegAfter⟩
  have hTx :
      (chargeEntry user auditCreditCost
          (usageDescription url) row).check = .ok () ↔
        url.length ≤ 234 := by
    rw [← usageDescription_fits hUrl]
    simp only [CreditTransaction.check, chargeEntry,
      check_bind_eq_ok, integerColumn_eq_ok,
      charColumn_eq_ok]
    constructor
    · intro h
      exact h.2.2.1
    · intro h
      exact ⟨hAmount, hUsage, h, hAfter⟩
  rw [← hObject, ← hTx]
  constructor
  · intro hPayable
    exact ⟨hPayable.tx, hPayable.object⟩
  · intro hBoth
    exact ⟨hFound, by decide, hCredit, hBoth.2, hBoth.1⟩

/- The audit is completed and one credit is gone. -/
def CompletesWithOneCredit
    (settings : WaveSettings)
    (repr : Json → String)
    (t : Tid)
    (id : AuditId)
    (user : UserId)
    (url : String)
    (r : Response)
    (d : Db)
    (row : CreditBalance) : Prop :=
  ∃ a s,
    (runAccessibilityAudit settings repr id (some user)
          url).run
        ((backend repr).alone t (answering r))
        (Store.quiet d) =
      some (.ok a, s) ∧
    a.status = .completed ∧ a.creditsConsumed = 1 ∧
    s.committed.find id = some a ∧
    s.committed.balances user =
      some
        { row with
          totalUsed := row.totalUsed + 1
          balance := row.balance - 1 } ∧
    (s.committed.ledger user).map
        CreditTransaction.amount =
      (d.ledger user).map CreditTransaction.amount ++ [-1]

/- What the final block leaves of a paid audit. -/
theorem completes_of_finalized
    {repr : Json → String}
    {settings : WaveSettings}
    {t : Tid}
    {r : Response}
    {s : Store Db UserId}
    (hRun :
      (runAccessibilityAudit settings repr id (some user)
            url).run
          ((backend repr).alone t (answering r))
          (Store.quiet d) =
        some
          (.ok
            (completedAudit (newAudit id (some user) url) raw
              parsed (costOf (some user))),
            s))
    (hCommitted :
      s.committed =
        finalized repr (newAudit id (some user) url)
          (some user) url raw parsed row
          (insertAudit (newAudit id (some user) url) d))
    (hFresh : d.find id = none) :
    CompletesWithOneCredit settings repr t id user url r d
      row := by
  refine ⟨_, s, hRun, rfl, rfl, ?_, ?_, ?_⟩
  · rw [hCommitted, Db.find, finalized_audits hFresh]
    have hFreshRow :
        Table.find AccessibilityAudit.id
            (completedAudit (newAudit id (some user) url) raw
              parsed (costOf (some user))).id
            d.audits =
          none := hFresh
    exact Table.find_append_self hFreshRow
  · rw [hCommitted]
    exact Function.update_self _ _ _
  · have hLedger :
        s.committed.ledger user =
          d.ledger user ++
            [chargeEntry user auditCreditCost
              (usageDescription url) row] := by
      rw [hCommitted]
      exact enter_ledger_self rfl
    rw [hLedger, List.map_append]
    rfl

/- The paid audit is completed if its ledger entry fits. -/
theorem completes_iff_payable
    {settings : WaveSettings}
    {r : Response}
    (repr : Json → String)
    (t : Tid)
    (hUrl : fitsChar 2048 url = true)
    (hFound : liveBalance d user = some row)
    (hCredit : auditCreditCost ≤ row.balance)
    (hReport : WellFormed raw parsed)
    (hKey : settings.apiKey ≠ "")
    (hStatus : r.raisesForStatus = false)
    (hBody : r.body = .json raw)
    (hSuccess : Successful raw)
    (hFresh : d.find id = none) :
    CompletesWithOneCredit settings repr t id user url r d
        row ↔
      Payable d url row (some user) := by
  have hAdmitted : Admitted d (some user) url :=
    ⟨⟨row, hFound, hCredit⟩, hUrl⟩
  have hEnds :=
    ends_runAccessibilityAudit repr (some user) url
      (Store.ready_quiet (t := t)) hKey hStatus hBody
      hSuccess hFresh
  constructor
  · rintro ⟨a, s, hRun, _⟩
    rcases Prog.run_of_ends hEnds with
      ⟨a', s', hRun', hEnded⟩ | ⟨e, s', hRun', _⟩
    · rw [hRun] at hRun'
      cases hRun'
      generalize hResult :
        (Except.ok a : Except Exc AccessibilityAudit) =
          result at hEnded
      generalize s.committed = d' at hEnded
      cases hEnded with
      | completed parsed' row' _ _ hFinalizable =>
          have hPaid := hFinalizable.payable
          have hSame : row' = row := by
            have hFound' := hPaid.found
            rw [hFound] at hFound'
            exact (Option.some.inj hFound').symm
          rw [← hSame]
          exact hPaid
      | _ => cases hResult
    · rw [hRun] at hRun'
      cases hRun'
  · intro hPaid
    have hFinalizable :
        Finalizable repr d (newAudit id (some user) url)
          (some user) url raw parsed row :=
      ⟨hPaid, check_completedAudit hUrl hReport,
        checkIssues_of_wellFormed hReport.issues
          (unreferenced_parseWave hReport.parse)⟩
    rcases Prog.run_of_ends hEnds with
      ⟨a, s, hRun, hEnded⟩ | ⟨e, s, hRun, hEnded⟩
    · generalize hResult :
        (Except.ok a : Except Exc AccessibilityAudit) =
          result at hEnded
      generalize hCommitted : s.committed = d' at hEnded
      cases hEnded with
      | completed parsed' row' _ hParse hFinalizable' =>
          have hSame : row' = row := by
            have hFound' := hFinalizable'.payable.found
            rw [hFound] at hFound'
            exact (Option.some.inj hFound').symm
          subst hSame
          cases hResult
          exact completes_of_finalized hRun hCommitted hFresh
      | _ => cases hResult
    · generalize hResult :
        (Except.error e : Except Exc AccessibilityAudit) =
          result at hEnded
      generalize s.committed = d' at hEnded
      cases hEnded with
      | refused _ _ hRefused _ => exact absurd hAdmitted hRefused
      | unparsed _ _ hParse =>
          exact absurd hReport.parse (hParse parsed)
      | failed _ parsed' _ _ hParse hRefused _ _ =>
          rw [hReport.parse] at hParse
          cases hParse
          exact absurd hFinalizable (hRefused row)
      | completed parsed' row' _ _ _ =>
          cases hResult

/-
  For a URL that the input serializer admits, a user with a
  credit and a well-formed report, the audit is completed for
  exactly one credit if and only if the URL has at most 234
  characters and the counter of used credits has room.
-/
theorem audit_completes_iff
    {isHttpUrl : String → Bool}
    {settings : WaveSettings}
    {r : Response}
    (repr : Json → String)
    (t : Tid)
    (hAdmits : admitsUrl isHttpUrl url = true)
    (hFound : liveBalance d user = some row)
    (hValid : row.check = .ok ())
    (hCredit : 1 ≤ row.balance)
    (hReport : WellFormed raw parsed)
    (hKey : settings.apiKey ≠ "")
    (hStatus : r.raisesForStatus = false)
    (hBody : r.body = .json raw)
    (hSuccess : Successful raw)
    (hFresh : d.find id = none) :
    CompletesWithOneCredit settings repr t id user url r d
        row ↔
      url.length ≤ 234 ∧ row.totalUsed < 2147483647 := by
  have hUrl := fitsChar_of_admitsUrl hAdmits
  rw [completes_iff_payable repr t hUrl hFound hCredit
    hReport hKey hStatus hBody hSuccess hFresh]
  exact payable_iff hUrl hFound hValid hCredit

end Paid

/- A prefix of the scheme pattern of the URL validator. -/
def startsSecure (url : String) : Bool :=
  ['h', 't', 't', 'p', 's', ':', '/', '/'].isPrefixOf
    url.toList

/- The admission of a URL by its characters. -/
theorem admitsUrl_ofList
    (isHttpUrl : String → Bool)
    (cs : List Char) :
    admitsUrl isHttpUrl (String.ofList cs) =
      (decide
          ((!cs.contains (Char.ofNat 0)) = true ∧
            cs.length ≤ 2048) &&
        isHttpUrl (String.ofList cs) &&
        !(blockedTokens.any fun token =>
          isInfix token.toList (cs.map Char.toLower))) := by
  simp only [admitsUrl, fitsChar, validateNoLocalhost, noNul,
    String.toList_ofList, String.length_ofList]

theorem startsSecure_ofList
    (cs : List Char) :
    startsSecure (String.ofList cs) =
      ['h', 't', 't', 'p', 's', ':', '/', '/'].isPrefixOf
        cs := by
  rw [startsSecure, String.toList_ofList]

/- The characters of `https://a.io/`. -/
def originChars : List Char :=
  ['h', 't', 't', 'p', 's', ':', '/', '/', 'a', '.', 'i',
    'o', '/']

/- A URL with a path of `n` letters. -/
def urlOfPath (n : Nat) : String :=
  String.ofList (originChars ++ List.replicate n 'a')

theorem length_urlOfPath
    (n : Nat) : (urlOfPath n).length = 13 + n := by
  rw [urlOfPath, String.length_ofList, List.length_append,
    List.length_replicate]
  rfl

/- A report without findings. -/
def emptyReport : Json :=
  .obj
    [("status", .obj [("success", .bool true)]),
      ("categories", .obj [])]

theorem successful_emptyReport :
    Successful emptyReport := ⟨_, rfl, rfl⟩

def emptyParsed : Parsed where
  totals := .zero
  wcagLevel := wcagLevel 0 0
  issues := []

theorem wellFormed_emptyReport :
    WellFormed emptyReport emptyParsed where
  parse := rfl
  storable := by decide
  errors := by decide
  alerts := by decide
  features := by decide
  structural := by decide
  contrast := by decide
  issues := by
    intro issue hMem
    cases hMem

/- The balance of a user who has bought one credit. -/
def oneCredit : CreditBalance where
  totalPurchased := 1
  totalUsed := 0
  balance := 1
  isDeleted := false

def oneCreditDb : Db :=
  { signup with balances := fun _ => some oneCredit }

theorem admits_urlOfPath_zero :
    admitsUrl startsSecure (urlOfPath 0) = true := by
  rw [urlOfPath, admitsUrl_ofList, startsSecure_ofList]
  decide +kernel

theorem admits_longUrl :
    admitsUrl startsSecure (urlOfPath 222) = true := by
  rw [urlOfPath, admitsUrl_ofList, startsSecure_ofList]
  decide +kernel

/- The equivalence for a short URL. -/
theorem audit_completes_iff_short :
    CompletesWithOneCredit someSettings (fun _ => "") 0 0 0
        (urlOfPath 0) ⟨200, .json emptyReport⟩ oneCreditDb
        oneCredit ↔
      (urlOfPath 0).length ≤ 234 ∧
        oneCredit.totalUsed < 2147483647 :=
  audit_completes_iff _ _ admits_urlOfPath_zero rfl rfl
    (by decide) wellFormed_emptyReport (by decide) rfl rfl
    successful_emptyReport rfl

/-
  The audit of a URL of 235 characters is admitted and never
  completed, whatever the credit.
-/
theorem longUrl_not_completed :
    admitsUrl startsSecure (urlOfPath 222) = true ∧
      liveBalance oneCreditDb 0 = some oneCredit ∧
      WellFormed emptyReport emptyParsed ∧
      Successful emptyReport ∧
      ¬ CompletesWithOneCredit someSettings (fun _ => "") 0
          0 0 (urlOfPath 222) ⟨200, .json emptyReport⟩
          oneCreditDb oneCredit := by
  refine
    ⟨admits_longUrl, rfl, wellFormed_emptyReport,
      successful_emptyReport, ?_⟩
  intro hCompletes
  have hUrl := fitsChar_of_admitsUrl admits_longUrl
  have hPayable :=
    (completes_iff_payable (fun _ => "") 0 hUrl rfl
      (by decide) wellFormed_emptyReport (by decide) rfl rfl
      successful_emptyReport rfl).mp hCompletes
  have hLength :=
    ((payable_iff hUrl rfl rfl (by decide)).mp hPayable).1
  rw [length_urlOfPath] at hLength
  omega

end SiteAnalysis.Audits
