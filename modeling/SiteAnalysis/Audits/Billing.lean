import SiteAnalysis.Audits.Books
import SiteAnalysis.Audits.Outcome
import SiteAnalysis.Relational.Rest

/-
  This file proves that audits and credits agree, whatever
  the audits and the purchases that run at the same time.

  Key definitions include:
    * `Call`
    * `start`
    * `regime`
    * `Charged`

  Key theorems include:
    * `wp_chargeAccount`
    * `wp_finalizeBody`
    * `wp_runAccessibilityAudit`
    * `audits_reconciled`
-/

------------------------------------------------------------
-- Concurrent Calls
------------------------------------------------------------

namespace SiteAnalysis.Audits

open Concurrency
open Relational
open Python
open Billing
open Credits

/- A request for an audit, or a purchase of credits. -/
inductive Call
  | audit
      (account : Option UserId)
      (url : String)
  | purchase
      (user : UserId)
      (amount : Int)
      (description : String)

/- `id` is the identifier that the call draws. -/
def Call.program
    (settings : WaveSettings)
    (repr : Json → String)
    (id : AuditId) : Call → Service Unit
| .audit account url => do
    let _ ←
      runAccessibilityAudit settings repr id account url
    pure ()
| .purchase user amount description => do
    let _ ← addCredits user amount description .purchase
    pure ()

/- The call has no account to charge. -/
def Call.Anonymous : Call → Prop
| .audit none _ => True
| _ => False

abbrev AuditWorld :=
  World (Store Db UserId) (TxOp Statement)
    (TxOp.Res Statement.Answer) Exc Unit

/- Every thread draws an identifier of its own. -/
def start
    (settings : WaveSettings)
    (repr : Json → String)
    (calls : Tid → Call)
    (d : Db) : AuditWorld where
  shared := Store.quiet d
  threads := fun t =>
    .live ((calls t).program settings repr t)

/- Balances are zero or missing, and nothing has happened. -/
structure Unused (d : Db) : Prop where
  balances :
    ∀ user,
      d.balances user = none ∨ d.balances user = some .zero
  transactions : d.transactions = []
  audits : d.audits = []
  issues : d.issues = []

theorem reconciled_of_unused
    {repr : Json → String}
    {d : Db}
    (hUnused : Unused d) :
    Reconciled repr d where
  keyed := by
    rw [hUnused.audits]
    exact List.nodup_nil
  settled := by
    intro row hMem
    rw [hUnused.audits] at hMem
    cases hMem
  counted := by
    intro user
    simp [paidAudits, usageRows, Db.ledger, hUnused.audits,
      hUnused.transactions]
  used := by
    intro user
    rcases hUnused.balances user with hNone | hZero
    · simp [usedBy, usageRows, Db.ledger, hNone,
        hUnused.transactions]
    · simp [usedBy, usageRows, Db.ledger, hZero,
        hUnused.transactions, CreditBalance.zero]

------------------------------------------------------------
-- The Regime
------------------------------------------------------------

/- What only the call of an audit writes. -/
abbrev Own := Option AccessibilityAudit × List AuditIssue

def own
    (id : AuditId)
    (d : Db) : Own :=
  (d.find id, d.issuesOf id)

/- Neither a balance nor the ledger has changed. -/
structure Uncharged (d d' : Db) : Prop where
  balances : d'.balances = d.balances
  transactions : d'.transactions = d.transactions

theorem Uncharged.account_eq
    {d d' : Db}
    (hSame : Uncharged d d')
    (user : UserId) : account user d' = account user d := by
  rw [account, account, Db.ledger, Db.ledger,
    hSame.balances, hSame.transactions]

/- The regime of the calls. -/
def regime
    (repr : Json → String)
    (calls : Tid → Call) :
    Regime (backend repr) Unit Account Own Unit :=
  accounts repr Unit own (Reconciled repr)
    (fun t d d' => (calls t).Anonymous → Uncharged d d')
    (fun _ _ _ => ⟨rfl, rfl⟩)

/- The same regime for another invariant. -/
def auditing
    (repr : Json → String)
    (calls : Tid → Call)
    (inv : Db → Prop) :
    Regime (backend repr) Unit Account Own Unit :=
  accounts repr Unit own inv
    (fun t d d' => (calls t).Anonymous → Uncharged d d')
    (fun _ _ _ => ⟨rfl, rfl⟩)

/- Every change that an audit commits keeps the invariant. -/
structure Keeps
    (repr : Json → String)
    (inv : Db → Prop) : Prop where
  createBalance :
    ∀ d user, inv d → d.balances user = none →
      inv (setBalance user .zero d)
  insertAudit :
    ∀ d id account url, inv d → d.find id = none →
      inv (insertAudit (newAudit id account url) d)
  fail :
    ∀ d id account url
      (f : AccessibilityAudit → AccessibilityAudit),
      inv d →
        d.find id = some (newAudit id account url) →
          d.issuesOf id = [] →
            (∀ row, (f row).id = row.id) →
              (f (newAudit id account url)).status =
                  .failed →
                (f
                      (newAudit id account
                        url)).creditsConsumed =
                    0 →
                  inv (updateAudit id f d)
  finalized :
    ∀ d id account url raw parsed row,
      inv d →
        d.find id = some (newAudit id account url) →
          d.issuesOf id = [] →
            parseWave raw = .ok parsed →
              Payable d url row account →
                inv
                  (finalized repr (newAudit id account url)
                    account url raw parsed row d)

theorem keeps_reconciled
    (repr : Json → String) :
    Keeps repr (Reconciled repr) where
  createBalance := fun _ _ hInv hNone =>
    reconciled_createBalance hInv hNone
  insertAudit := fun _ _ _ _ hInv hFresh =>
    reconciled_insertAudit hInv hFresh
  fail := fun _ _ _ _ _ hInv hFind _ hId hStatus hConsumed =>
    reconciled_fail hInv hFind rfl hId hStatus hConsumed
  finalized :=
    fun _ _ _ _ _ _ _ hInv hFind hNone hParse hPayable =>
      reconciled_finalized hInv hFind hNone hParse hPayable

section Calls

variable {settings : WaveSettings} {repr : Json → String}
variable {calls : Tid → Call} {t : Tid} {d d' : Db}
variable {account : Option UserId} {url : String}
variable {l : Knows Own}
variable {o : Own}
variable {inv : Db → Prop}

/- A change of the audits alone. -/
theorem publishable_uncharged
    {mine : UserId → Prop}
    {ns : Tid → Unit}
    {live : Tid → Prop}
    (hInv : inv d')
    (hSame : Uncharged d d')
    (hOwn : ∀ t', t' ≠ t → own t' d' = own t' d) :
    (auditing repr calls inv).Publishable t ns live mine d d' ()
    where
  inv := hInv
  guar := fun _ => hSame
  own := hOwn
  frag := fun user _ => hSame.account_eq user

/- The rows of other audits. -/
theorem own_insertAudit_of_ne
    {row : AccessibilityAudit}
    {id : AuditId}
    (hNe : id ≠ row.id) :
    own id (insertAudit row d) = own id d := by
  have hFind :
      (insertAudit row d).find id = d.find id :=
    Table.find_append_of_ne (Ne.symm hNe)
  rw [own, own, hFind]
  rfl

theorem own_updateAudit_of_ne
    {f : AccessibilityAudit → AccessibilityAudit}
    {id id' : AuditId}
    (hId : ∀ row, (f row).id = row.id)
    (hNe : id' ≠ id) :
    own id' (updateAudit id f d) = own id' d := by
  have hFind :
      (updateAudit id f d).find id' = d.find id' :=
    Table.find_update_of_ne
      (fun row hKey => (hId row).trans hKey) hNe
  rw [own, own, hFind]
  rfl

theorem own_finalized_of_ne
    {id id' : AuditId}
    {raw : Json}
    {parsed : Parsed}
    {row : CreditBalance}
    (hNe : id' ≠ id) :
    own id'
        (finalized repr (newAudit id account url) account url
          raw parsed row d) =
      own id' d := by
  have hFind :
      (finalized repr (newAudit id account url) account url
          raw parsed row d).find id' =
        d.find id' := by
    rw [Db.find, finalized_audits_eq]
    exact Table.find_update_of_ne (fun _ _ => rfl) hNe
  rw [own, hFind, issuesOf_finalized_of_ne hNe]
  rfl

/- Another user's account after a change of a balance. -/
theorem account_setBalance_of_ne
    {user user' : UserId}
    {row : CreditBalance}
    (hNe : user' ≠ user) :
    Credits.account user' (setBalance user row d) =
      Credits.account user' d := by
  simp [Credits.account, setBalance, Db.ledger, hNe]

------------------------------------------------------------
-- Before the Final Block
------------------------------------------------------------

/- Reading the balance row. -/
theorem wp_getBalance
    {user : UserId}
    {Q :
      CreditBalance →
        Knows Own → Prop}
    {E : Exc → Knows Own → Prop}
    (hRest : Regime.Resting o () l)
    (hRow : ∀ row l', Regime.Resting o () l' → Q row l')
    (hRaise : ∀ e l', Regime.Resting o () l' → E e l') :
    (auditing repr calls inv).wp t
      (query (.getBalance user)) Q E l := by
  apply Regime.wp_execute_rest trivial hRest
    (fun e l' hRest' _ => hRaise e l' hRest')
  · intro d ns live _ x a d' _ hReply
    cases hReply
  · intro d ns live hRests _
    have hInv := hRests.inv
    have hOwn := hRests.own
    cases hLive : liveBalance d user with
    | none =>
        simp only [backend, plan, hLive]
        exact hRaise _
    | some row =>
        simp only [backend, plan, hLive]
        refine ⟨Regime.publishable_refl hInv, ?_⟩
        intro l' hRest'
        apply hRow row l'
        rw [← hOwn]
        exact hRest'

/- The insertion of a missing row, in its savepoint. -/
theorem wp_createBalance
    {user : UserId}
    {Q :
      CreditBalance →
        Knows Own → Prop}
    (hKeeps : Keeps repr inv)
    (hCharged : ¬ (calls t).Anonymous)
    (hSession : l.session = Session.begin Session.idle)
    (hOwn : l.own = o)
    (hRow : ∀ row l', Regime.Resting o () l' → Q row l') :
    (auditing repr calls inv).wp t (query (.createBalance user))
      (fun row l' =>
        ∃ fr,
          (auditing repr calls inv).Concludes t o () (Q row) l'
            fr)
      (fun _ => Regime.Abandons o ()) l := by
  have hFrames : l.session.frames = [Frame.fresh] :=
    congrArg Session.frames hSession
  have hAbandons : Regime.Abandons o () l :=
    ⟨⟨_, hFrames⟩, hOwn, rfl⟩
  apply Regime.wp_execute_open trivial hFrames rfl
  · intro e _
    exact hAbandons.fail
  · intro d ns live _
    exact Regime.replyWp_of_none (fun _ => rfl)
  · intro d ns live hFits _
    have hView : l.session.view d = d := by
      rw [hSession]
      rfl
    rw [hView]
    cases hStored : d.balances user with
    | some row =>
        simp only [backend, plan, hStored]
        trivial
    | none =>
        simp only [backend, plan, hStored]
        have hLocked :
            (l.session.acquire user
                  ((auditing repr calls inv).frag user d)).write
                (setBalance user .zero) =
              { frames :=
                  [{ pending := setBalance user .zero
                     locks := [user]
                     broken := false }]
                held :=
                  Function.update (fun _ => none) user
                    (some (Credits.account user d)) } := by
          rw [hSession]
          rfl
        refine
          ⟨hFits.inv,
            { pending := setBalance user .zero
              locks := [user]
              broken := false },
            ?_, rfl, hOwn, rfl, ?_⟩
        · simp only [hLocked]
        · intro d₁ ns₁ live₁ hFits
          have hHeld :
              Credits.account user d₁ =
                Credits.account user d := by
            apply hFits.held user
            simp only [hLocked, Function.update_self]
          have hNone : d₁.balances user = none :=
            (congrArg Prod.fst hHeld).trans hStored
          have hSame : own t d₁ = o := hFits.own.trans hOwn
          refine ⟨⟨?_, ?_, ?_, ?_⟩, ?_⟩
          · exact hKeeps.createBalance d₁ user hFits.inv hNone
          · intro hAnonymous
            exact absurd hAnonymous hCharged
          · intro t' _
            rfl
          · intro user' hUser'
            have hNe : user' ≠ user := by
              rintro rfl
              apply hUser'
              simp [hLocked]
            exact account_setBalance_of_ne hNe
          · intro l' hRest'
            apply hRow
            rw [← hSame]
            exact hRest'

/- The row of an account, created if it is missing. -/
theorem wp_getOrCreateBalance
    {user : UserId}
    {Q :
      CreditBalance →
        Knows Own → Prop}
    (hKeeps : Keeps repr inv)
    (hCharged : ¬ (calls t).Anonymous)
    (hRest : Regime.Resting o () l)
    (hRow : ∀ row l', Regime.Resting o () l' → Q row l') :
    (auditing repr calls inv).wp t (getOrCreateBalance user) Q
      (fun _ _ => True) l := by
  apply Discipline.wp_tryCatch
  apply wp_getBalance hRest hRow
  intro e l₁ hRest₁
  split
  · apply Discipline.wp_tryCatch
    apply Regime.wp_atomic_plain hRest₁
    · intro e' l₂ hRest₂
      split
      · apply Discipline.wp_tryCatch
        apply wp_getBalance hRest₂ hRow
        intro e'' l₃ _
        split
        · trivial
        · trivial
      · trivial
    · intro l₀ hSession hOwn
      exact
        wp_createBalance hKeeps hCharged hSession hOwn hRow
  · trivial

/- The check before the audit. -/
theorem wp_checkAccount
    (hKeeps : Keeps repr inv)
    (hCall : calls t = .audit account url)
    (hRest : Regime.Resting o () l) :
    (auditing repr calls inv).wp t (checkAccount account)
      (fun _ => Regime.Resting o ()) (fun _ _ => True) l := by
  cases account with
  | none => exact hRest
  | some user =>
      have hCharged : ¬ (calls t).Anonymous := by
        rw [hCall]
        exact id
      apply Discipline.wp_bind
      apply Discipline.wp_bind
      apply wp_getOrCreateBalance hKeeps hCharged hRest
      intro row l' hRest'
      by_cases hShort : row.balance < auditCreditCost
      · rw [if_pos hShort]
        trivial
      · rw [if_neg hShort]
        exact hRest'

/- The insertion of the audit. -/
theorem wp_createAudit
    (hKeeps : Keeps repr inv)
    (hRest : Regime.Resting (none, []) () l) :
    (auditing repr calls inv).wp t
      (query (.createAudit (newAudit t account url)))
      (fun _ =>
        Regime.Resting (some (newAudit t account url), []) ())
      (fun _ _ => True) l := by
  apply Regime.wp_execute_rest trivial hRest
    (fun _ _ _ _ => trivial)
  · intro d ns live _ x a d' _ hReply
    cases hReply
  · intro d ns live hRests _
    have hInv := hRests.inv
    have hOwn := hRests.own
    have hFresh : d.find t = none := congrArg Prod.fst hOwn
    have hNone : d.issuesOf t = [] := congrArg Prod.snd hOwn
    have hFreshRow :
        d.find (newAudit t account url).id = none := hFresh
    simp only [backend, plan, hFreshRow]
    cases hCheck : (newAudit t account url).check with
    | error e => trivial
    | ok u =>
        refine
          ⟨publishable_uncharged
              (hKeeps.insertAudit d t account url hInv hFresh)
              ⟨rfl, rfl⟩
              (fun t' hNe => own_insertAudit_of_ne hNe),
            ?_⟩
        intro l' hRest'
        have hStored :
            own t (insertAudit (newAudit t account url) d) =
              (some (newAudit t account url), []) := by
          have hFind :
              (insertAudit (newAudit t account url) d).find
                  t =
                some (newAudit t account url) :=
            Table.find_append_self hFreshRow
          rw [own, hFind]
          exact congrArg (Prod.mk _) hNone
        rw [← hStored]
        exact hRest'

/- The request; no lock is held over it. -/
theorem wp_fetchWave
    {E : Exc → Knows Own → Prop}
    (hRest : Regime.Resting o () l)
    (hRaise : ∀ e l', Regime.Resting o () l' → E e l') :
    (auditing repr calls inv).wp t
      (fetchWave settings repr url none)
      (fun _ => Regime.Resting o ()) E l := by
  unfold fetchWave
  split
  · exact hRaise _ l hRest
  · apply Discipline.wp_bind
    apply Regime.wp_execute_rest trivial hRest
      (fun e l' hRest' _ => hRaise e l' hRest')
    · intro d ns live hRests x outcome d' _ hReply
      cases hReply
      refine ⟨Regime.publishable_refl hRests.inv, ?_⟩
      intro l' hRest'
      rw [hRests.own] at hRest'
      change
        (auditing repr calls inv).wp t
          (Prog.ofExcept (readWave repr x)) _ E l'
      cases readWave repr x with
      | ok raw => exact hRest'
      | error e => exact hRaise e l' hRest'
    · intro d ns live _ _
      trivial

/- Recording the failure of an audit. -/
theorem wp_saveFailed
    {failed : AccessibilityAudit}
    {fields : List AuditField}
    {Q : Unit → Knows Own → Prop}
    (hKeeps : Keeps repr inv)
    (hRest :
      Regime.Resting (some (newAudit t account url), []) () l)
    (hId : failed.id = t)
    (hStatus : failed.status = .failed)
    (hFields : .status ∈ fields)
    (hConsumed : failed.creditsConsumed = 0)
    (hDone : ∀ l', Q () l') :
    (auditing repr calls inv).wp t
      (query (.saveAuditFields failed fields)) Q
      (fun _ _ => True) l := by
  apply Regime.wp_execute_rest trivial hRest
    (fun _ _ _ _ => trivial)
  · intro d ns live _ x a d' _ hReply
    cases hReply
  · intro d ns live hRests _
    have hInv := hRests.inv
    have hOwn := hRests.own
    have hFind : d.find t = some (newAudit t account url) :=
      congrArg Prod.fst hOwn
    have hNone : d.issuesOf t = [] := congrArg Prod.snd hOwn
    simp only [backend, plan, hId, hFind]
    cases hCheck :
      (failed.assign fields (newAudit t account url)).check
      with
    | error e => trivial
    | ok u =>
        refine
          ⟨publishable_uncharged ?_ ⟨rfl, rfl⟩ ?_,
            fun l' _ => hDone l'⟩
        · apply
            hKeeps.fail d t account url
              (failed.assign fields) hInv hFind hNone
              (fun _ => rfl)
          · simp [AccessibilityAudit.assign, hFields,
              hStatus]
          · simp [AccessibilityAudit.assign, hConsumed,
              newAudit]
        · intro t' hNe
          exact own_updateAudit_of_ne (fun _ => rfl) hNe

------------------------------------------------------------
-- The Final Block
------------------------------------------------------------

/- The charge of the account is pending, if there is one. -/
structure Charged
    (account : Option UserId)
    (url : String)
    (o : Own)
    (row : CreditBalance)
    (l : Knows Own) : Prop where
  frames :
    ∃ locks,
      l.session.frames =
        [{ pending := pay url row account
           locks := locks
           broken := false }]
  own : l.own = o
  payable :
    ∀ d,
      (∀ user v, l.session.held user = some v →
        Credits.account user d = v) →
        Payable d url row account
  others :
    ∀ d user, l.session.held user = none →
      Credits.account user (pay url row account d) =
        Credits.account user d

/- A charge that a deduction has left in its savepoint. -/
theorem charged_of_enters
    {user : UserId}
    {tx : CreditTransaction}
    {l₁ l₂ : Knows Own}
    (hOwn : l₁.own = o)
    (hEnters :
      Enters user
        (Charges user auditCreditCost (usageDescription url))
        [Frame.fresh] l₁ tx l₂) :
    ∃ fr,
      l₂.session.frames = [fr, Frame.fresh] ∧
        fr.broken = false ∧
          ∃ row,
            Charged (some user) url o row
              { l₂ with session := l₂.session.merge } := by
  rcases hEnters with ⟨row, object, ledger, hCharges, rfl⟩
  have hLive := hCharges.entry.live
  have hPositive := hCharges.positive
  have hCovered := hCharges.covered
  have hObject := hCharges.entry.object
  have hTx := hCharges.entry.tx
  rcases hCharges with ⟨_, _, _, rfl, rfl⟩
  refine ⟨_, rfl, rfl, row, ⟨[user], rfl⟩, hOwn, ?_, ?_⟩
  · intro d hHeld
    have hAccount :
        Credits.account user d = (some row, ledger) := by
      apply hHeld user
      simp [entered, Session.merge]
    exact
      { found :=
          liveBalance_eq_some.mpr
            ⟨congrArg Prod.fst hAccount, hLive⟩
        positive := hPositive
        covered := hCovered
        object := hObject
        tx := hTx }
  · intro d user' hNone
    have hNe : user' ≠ user := by
      rintro rfl
      simp [entered, Session.merge] at hNone
    exact enter_account_of_ne rfl hNe

/- The charge of the account, inside the block. -/
theorem wp_chargeAccount
    (hSession : l.session = Session.begin Session.idle)
    (hOwn : l.own = o) :
    (auditing repr calls inv).wp t (chargeAccount account url)
      (fun cost l' =>
        cost = costOf account ∧
          ∃ row, Charged account url o row l')
      (fun _ => Regime.Abandons o ()) l := by
  have hFrames : l.session.frames = [Frame.fresh] :=
    congrArg Session.frames hSession
  have hHeld : l.session.held = fun _ => none :=
    congrArg Session.held hSession
  cases account with
  | none =>
      refine ⟨rfl, .zero, ⟨[], hFrames⟩, hOwn, ?_, ?_⟩
      · intro d _
        trivial
      · intro d user _
        rfl
  | some user =>
      apply Discipline.wp_bind
      apply Regime.wp_savepoint trivial
      · intro e _
        exact ⟨⟨_, hFrames⟩, hOwn, rfl⟩
      · have hInner :
            ({ l with session := l.session.begin } :
                Knows Own).session.frames =
              [Frame.fresh, Frame.fresh] := by
          simp [Session.begin, hFrames]
        apply Discipline.wp_mono
          (wp_deductCreditBody (fun _ => rfl) hInner hHeld)
        · intro tx l' hEnters
          rcases charged_of_enters hOwn hEnters with
            ⟨fr, hFrames', hIntact, row, hCharged⟩
          refine
            ⟨fr, trivial, hFrames', hIntact, ?_, rfl, row,
              hCharged⟩
          intro e _
          refine ⟨⟨Frame.fresh, ?_⟩, hCharged.own, rfl⟩
          simp [Session.rollback, hFrames']
        · intro e l' hUnwinds
          rcases hUnwinds.frames with ⟨fr, hFrames'⟩
          refine ⟨trivial, ⟨Frame.fresh, ?_⟩, ?_, rfl⟩
          · simp [Session.rollback, hFrames']
          · exact hUnwinds.own.trans hOwn

/- The insertion of the issues is one more pending write. -/
theorem wp_bulkCreateIssues
    {issues : List IssueObject}
    {p : Db → Db}
    {locks : List UserId}
    {Q : Unit → Knows Own → Prop}
    (hFrames :
      l.session.frames =
        [{ pending := p, locks := locks, broken := false }])
    (hOwn : l.own = o)
    (hDone :
      Q ()
        { l with
          session :=
            l.session.write
              (insertIssues
                (issues.map fun i => i.row repr)) }) :
    (auditing repr calls inv).wp t
      (query (.bulkCreateIssues issues)) Q
      (fun _ => Regime.Abandons o ()) l := by
  have hAbandons : Regime.Abandons o () l :=
    ⟨⟨_, hFrames⟩, hOwn, rfl⟩
  apply Regime.wp_execute_open trivial hFrames rfl
  · intro e _
    exact hAbandons.fail
  · intro d ns live _
    exact Regime.replyWp_of_none (fun _ => rfl)
  · intro d ns live hFits _
    simp only [backend, plan]
    cases hCheck : checkIssues repr issues with
    | error e => trivial
    | ok u => exact ⟨hFits.inv, hDone⟩

/- The whole result of the audit can be committed. -/
theorem publishable_finalized
    {raw : Json}
    {parsed : Parsed}
    {row : CreditBalance}
    (hKeeps : Keeps repr inv)
    (hCall : calls t = .audit account url)
    (hParse : parseWave raw = .ok parsed)
    (hInv : inv d)
    (hOwn : own t d = (some (newAudit t account url), []))
    (hPayable : Payable d url row account)
    {mine : UserId → Prop}
    {ns : Tid → Unit}
    {live : Tid → Prop}
    (hOthers :
      ∀ user, ¬ mine user →
        Credits.account user (pay url row account d) =
          Credits.account user d) :
    (auditing repr calls inv).Publishable t ns live mine d
      (finalized repr (newAudit t account url) account url
        raw parsed row d)
      () where
  inv :=
    hKeeps.finalized d t account url raw parsed row hInv
      (congrArg Prod.fst hOwn) (congrArg Prod.snd hOwn)
      hParse hPayable
  guar := by
    intro hAnonymous
    rw [hCall] at hAnonymous
    cases account with
    | none => exact ⟨rfl, rfl⟩
    | some user => exact absurd hAnonymous id
  own := fun _ hNe => own_finalized_of_ne hNe
  frag := hOthers

/- The block leaves the whole result of the audit pending. -/
theorem wp_finalizeBody
    {raw : Json}
    {parsed : Parsed}
    {Q :
      AccessibilityAudit →
        Knows Own → Prop}
    (hKeeps : Keeps repr inv)
    (hCall : calls t = .audit account url)
    (hParse : parseWave raw = .ok parsed)
    (hSession : l.session = Session.begin Session.idle)
    (hOwn : l.own = (some (newAudit t account url), []))
    (hDone : ∀ a l', Q a l') :
    (auditing repr calls inv).wp t
      (finalizeBody (newAudit t account url) account url raw
        parsed)
      (fun a l' =>
        ∃ fr,
          (auditing repr calls inv).Concludes t
            (some (newAudit t account url), []) () (Q a) l'
            fr)
      (fun _ =>
        Regime.Abandons (some (newAudit t account url), []) ())
      l := by
  apply Discipline.wp_bind
  apply Discipline.wp_mono (wp_chargeAccount hSession hOwn)
  · rintro cost l₁ ⟨rfl, row, hCharged⟩
    rcases hCharged.frames with ⟨locks, hFrames₁⟩
    have hAbandons₁ :
        Regime.Abandons (some (newAudit t account url), []) ()
          l₁ :=
      ⟨⟨_, hFrames₁⟩, hCharged.own, rfl⟩
    apply Discipline.wp_bind
    apply Regime.wp_execute_open trivial hFrames₁ rfl
    · intro e _
      exact hAbandons₁.fail
    · intro d ns live _
      exact Regime.replyWp_of_none (fun _ => rfl)
    · intro d ns live hFits _
      have hFind :
          (l₁.session.view d).find t =
            some (newAudit t account url) := by
        have hStored : d.find t = _ :=
          congrArg Prod.fst (hFits.own.trans hCharged.own)
        simp only [Session.view, hFrames₁, List.foldr_cons,
          List.foldr_nil, Db.find, pay_audits]
        exact hStored
      have hId :
          (completedAudit (newAudit t account url) raw parsed
            (costOf account)).id = t := rfl
      simp only [backend, plan, hId, hFind]
      cases hCheck :
        (completedAudit (newAudit t account url) raw parsed
          (costOf account)).check with
      | error e => trivial
      | ok u =>
          simp only [checked, Regime.OpenWp]
          refine ⟨hFits.inv, ?_⟩
          apply Discipline.wp_bind
          apply wp_bulkCreateIssues
          · simp only [Session.write, hFrames₁]
            rfl
          · exact hCharged.own
          · refine
              ⟨{ pending :=
                   finalized repr (newAudit t account url)
                     account url raw parsed row
                 locks := locks
                 broken := false },
                ?_, rfl, hCharged.own, rfl, ?_⟩
            · simp only [Session.write, hFrames₁]
              rfl
            · intro d₁ ns₁ live₁ hFits₁
              have hHeld :
                  ∀ user v, l₁.session.held user = some v →
                    Credits.account user d₁ = v := by
                intro user v hLock
                apply hFits₁.held user v
                simp only [Session.write, hFrames₁]
                exact hLock
              refine
                ⟨publishable_finalized hKeeps hCall hParse
                    hFits₁.inv
                    (hFits₁.own.trans hCharged.own)
                    (hCharged.payable d₁ hHeld) ?_,
                  fun l' _ => hDone _ l'⟩
              intro user hUser
              apply hCharged.others d₁ user
              simp only [Session.write, hFrames₁] at hUser
              exact not_not.mp hUser
  · intro e l' hAbandons
    exact hAbandons

/- The handler around the request. -/
theorem wp_failRequest
    {e : Exc}
    {Q : Json → Knows Own → Prop}
    (hKeeps : Keeps repr inv)
    (hRest :
      Regime.Resting (some (newAudit t account url), []) () l) :
    (auditing repr calls inv).wp t
      (failRequest (newAudit t account url) e) Q
      (fun _ _ => True) l := by
  apply Discipline.wp_bind
  apply wp_saveFailed hKeeps hRest rfl rfl (by simp) rfl
  intro l'
  trivial

/- The handler around the block finds the pending audit. -/
theorem wp_failFinalize
    {e : Exc}
    {Q :
      AccessibilityAudit →
        Knows Own → Prop}
    (hKeeps : Keeps repr inv)
    (hRest :
      Regime.Resting (some (newAudit t account url), []) () l) :
    (auditing repr calls inv).wp t
      (failFinalize (newAudit t account url) e) Q
      (fun _ _ => True) l := by
  apply Discipline.wp_bind
  apply Regime.wp_execute_rest trivial hRest
    (fun _ _ _ _ => trivial)
  · intro d ns live _ x a d' _ hReply
    cases hReply
  · intro d ns live hRests _
    have hInv := hRests.inv
    have hOwn := hRests.own
    have hId : (newAudit t account url).id = t := rfl
    have hFind : d.find t = some (newAudit t account url) :=
      congrArg Prod.fst hOwn
    simp only [backend, plan, hId, hFind]
    refine ⟨Regime.publishable_refl hInv, ?_⟩
    intro l' hRest'
    rw [show
      (auditing repr calls inv).own t (id d) = _ from hOwn]
      at hRest'
    apply Discipline.wp_bind
    apply wp_saveFailed hKeeps hRest' rfl rfl (by simp) rfl
    intro l''
    trivial

------------------------------------------------------------
-- Runs
------------------------------------------------------------

/- The service, among all the calls. -/
theorem wp_runAccessibilityAudit
    (hKeeps : Keeps repr inv)
    (hCall : calls t = .audit account url)
    (hRest : Regime.Resting (none, []) () l) :
    (auditing repr calls inv).wp t
      (runAccessibilityAudit settings repr t account url)
      (fun _ _ => True) (fun _ _ => True) l := by
  apply Discipline.wp_bind
  apply Discipline.wp_mono (wp_checkAccount hKeeps hCall hRest)
    _ (fun _ _ _ => trivial)
  intro _ l₁ hRest₁
  apply Discipline.wp_bind
  apply Discipline.wp_mono (wp_createAudit hKeeps hRest₁)
    _ (fun _ _ _ => trivial)
  intro _ l₂ hRest₂
  apply Discipline.wp_bind
  apply Discipline.wp_tryCatch
  apply Discipline.wp_mono
    (wp_fetchWave hRest₂
      (fun _ _ hRest' => wp_failRequest hKeeps hRest'))
    _ (fun _ _ hRequest => hRequest)
  intro raw l₃ hRest₃
  apply Discipline.wp_bind
  cases hParse : parseWave raw with
  | error e => trivial
  | ok parsed =>
      apply Discipline.wp_tryCatch
      apply Regime.wp_atomic_plain hRest₃
      · intro e l₄ hRest₄
        exact wp_failFinalize hKeeps hRest₄
      · intro l₀ hSession hOwn
        exact
          wp_finalizeBody hKeeps hCall hParse hSession
              hOwn
            (fun _ _ => trivial)

/- A purchase, among all the calls. -/
theorem wp_purchase
    {user : UserId}
    {amount : Int}
    {description : String}
    (hCall : calls t = .purchase user amount description)
    (hRest : Regime.Resting o () l) :
    (regime repr calls).wp t
      (addCredits user amount description .purchase)
      (fun _ _ => True) (fun _ _ => True) l := by
  apply wp_atomic_entry
    (P := Deposits user amount description .purchase)
    hRest.session (fun _ => trivial)
    (fun _ _ _ hDeposits => hDeposits.entry)
  · intro l₀ hSession
    exact
      wp_addCreditsBody (fun _ => rfl)
        (congrArg Session.frames hSession)
        (congrArg Session.held hSession)
  · intro d row object tx hReconciled hFound hDeposits
    refine ⟨⟨?_, ?_, fun _ => rfl⟩, trivial⟩
    · exact reconciled_purchase hReconciled hFound hDeposits
    · intro hAnonymous
      rw [hCall] at hAnonymous
      exact absurd hAnonymous id

theorem verified_start
    (hUnused : Unused d) :
    (regime repr calls).Verified (fun _ _ _ => True)
      (fun _ _ _ => True) d (fun _ => ())
      (start settings repr calls d) := by
  apply
    Regime.verified_plain rfl (reconciled_of_unused hUnused)
  · intro t
    refine ⟨_, rfl, ?_⟩
    have hRest :
        Regime.Resting (own t d) ()
          ((regime repr calls).start t d ()) :=
      ⟨rfl, rfl, rfl⟩
    cases hCall : calls t with
    | audit account url =>
        have hOwn : own t d = (none, []) := by
          rw [own, Db.find, Db.issuesOf, hUnused.audits,
            hUnused.issues]
          rfl
        rw [hOwn] at hRest
        apply Discipline.wp_bind
        exact
          wp_runAccessibilityAudit (keeps_reconciled repr)
            hCall hRest
    | purchase user amount description =>
        apply Discipline.wp_bind
        exact wp_purchase hCall hRest

/- In every state of a run audits and credits agree. -/
theorem reconciled_of_reaches
    {w : AuditWorld}
    (hUnused : Unused d)
    (hReach :
      (backend repr).machine.Reaches Machine.anyEvent
        (start settings repr calls d) w) :
    Reconciled repr w.shared.committed := by
  rcases
    (verified_start hUnused).inv_of_reaches hReach with
    ⟨_, hReconciled⟩
  exact hReconciled

/-
  In every committed state of every run, the paid audits of
  a user, the usage rows of the ledger and the used credits
  are the same in number; an audit that failed is free, and a
  completed audit of a user is paid for and has its issues;
  and no step of an anonymous audit changes a balance or the
  ledger.
-/
theorem audits_reconciled
    {w : AuditWorld}
    (hUnused : Unused d)
    (hReach :
      (backend repr).machine.Reaches Machine.anyEvent
        (start settings repr calls d) w) :
    (∀ user,
      (w.shared.committed.audits.filter
            (fun row =>
              row.user = some user ∧
                row.creditsConsumed = 1)).length =
          ((w.shared.committed.ledger user).filter
            (fun tx => tx.transactionType = .usage)).length ∧
        (((w.shared.committed.ledger user).filter
            (fun tx =>
              tx.transactionType = .usage)).length : Int) =
          usedBy w.shared.committed user) ∧
      (∀ row ∈ w.shared.committed.audits,
        row.status = .failed → row.creditsConsumed = 0) ∧
      (∀ row ∈ w.shared.committed.audits,
        row.status = .completed → row.user ≠ none →
          row.creditsConsumed = 1 ∧
            ∃ parsed,
              parseWave row.rawResponse = .ok parsed ∧
                w.shared.committed.issuesOf row.id =
                  (issueObjects row.id parsed).map
                    (fun issue => issue.row repr)) ∧
      ∀ (event : Event (Choice Exc HttpOutcome))
        (w' : AuditWorld),
        (backend repr).machine.next w event = some w' →
          (calls event.thread).Anonymous →
            w'.shared.committed.balances =
                w.shared.committed.balances ∧
              w'.shared.committed.transactions =
                w.shared.committed.transactions := by
  have hReconciled := reconciled_of_reaches hUnused hReach
  refine ⟨?_, ?_, ?_, ?_⟩
  · intro user
    have hCounted := hReconciled.counted user
    have hUsed := hReconciled.used user
    rw [paidAudits, usageRows, List.countP_eq_length_filter,
      List.countP_eq_length_filter] at hCounted
    rw [usageRows, List.countP_eq_length_filter] at hUsed
    exact ⟨hCounted, hUsed.symm⟩
  · intro row hMem hFailed
    apply (hReconciled.settled row hMem).free
    rw [hFailed]
    decide
  · intro row hMem hCompleted hUser
    have hSettled := hReconciled.settled row hMem
    refine ⟨?_, hSettled.issues hCompleted⟩
    rw [hSettled.paid hCompleted]
    cases hCase : row.user with
    | none => exact absurd hCase hUser
    | some user => rfl
  · intro event w' hNext hAnonymous
    have hSame :=
      (verified_start hUnused).guar_of_event hReach trivial
        hNext hAnonymous
    exact ⟨hSame.balances, hSame.transactions⟩

end Calls

theorem unused_signup : Unused signup where
  balances := fun _ => Or.inr rfl
  transactions := rfl
  audits := rfl
  issues := rfl

/- A purchase by user 0, and then audits for that user. -/
def purchaseThenAudits : Tid → Call
| 0 => .purchase 0 1 ""
| _ + 1 => .audit (some 0) "https://a.io/"

/- The first of these audits is paid for. -/
theorem audits_reconciled_paid :
    ∃ w : AuditWorld,
      (backend (fun _ => "")).machine.Reaches
          Machine.anyEvent
          (start someSettings (fun _ => "")
            purchaseThenAudits signup)
          w ∧
        w.shared.committed.audits.map
            AccessibilityAudit.creditsConsumed =
          [1] ∧
          usedBy w.shared.committed 0 = 1 := by
  have hReach :=
    Machine.reaches_of_replay
      (M := (backend (fun _ => "")).machine)
      (w :=
        start someSettings (fun _ => "") purchaseThenAudits
          signup)
      (List.replicate 5 (.step 0 .proceed) ++
        List.replicate 2 (.step 1 .proceed) ++
          [.step 1
            (.reply (.response ⟨200, .json emptyReport⟩))] ++
            List.replicate 9 (.step 1 .proceed))
      rfl
  have hAll := audits_reconciled unused_signup hReach
  refine ⟨_, hReach, rfl, ?_⟩
  rw [← (hAll.1 0).2]
  rfl

end SiteAnalysis.Audits
