import SiteAnalysis.Relational.Transaction

/-
  This file defines the machine of a database: statements on
  a transactional store, and the block that runs a program in
  a transaction.

  A statement is described by its verdict on the data that it
  sees: the database refuses it, the client library raises
  without touching the data, or it is done, with a result, a
  row lock and a change.  Statements that a party outside the
  database answers are left to the environment.

  Key definitions include:
    * `Verdict`
    * `TxOp`
    * `Backend`
    * `Backend.answer`
    * `Backend.machine`
    * `Backend.Answered`
    * `atomic`

  Key theorems include:
    * `Backend.answered_of_exec`
    * `Backend.exec_autocommit`
    * `Backend.invariant_of_heeds`
-/

------------------------------------------------------------
-- Statements
------------------------------------------------------------

namespace Relational

open Concurrency

/-
  What the database makes of a statement.  A refused
  statement breaks the transaction it is in.
-/
inductive Verdict (δ κ ε α : Type) : Type
  | refuse (e : ε)
  | miss (e : ε)
  | done (a : α) (lock : Option κ) (change : δ → δ)
  | outside

/- A read. -/
def Verdict.read
    {δ κ ε α : Type}
    (a : α) : Verdict δ κ ε α :=
  .done a none id

/- A write, unless its values are not accepted. -/
def Verdict.writeIf
    {δ κ ε : Type}
    (check : Except ε Unit)
    (change : δ → δ) : Verdict δ κ ε Unit :=
  match check with
  | .error e => .refuse e
  | .ok () => .done () none change

theorem Verdict.writeIf_eq_done
    {δ κ ε : Type}
    {check : Except ε Unit}
    {change f : δ → δ}
    {a : Unit}
    {lock : Option κ}
    (hWrite : writeIf check change = .done a lock f) :
    check = .ok () ∧ f = change := by
  unfold writeIf at hWrite
  split at hWrite
  · cases hWrite
  · cases hWrite
    exact ⟨rfl, rfl⟩

/- A verdict that takes no lock but `k`. -/
def Verdict.Within
    {δ κ ε α : Type}
    (k : κ) : Verdict δ κ ε α → Prop
| .refuse _ => True
| .miss _ => True
| .done _ none _ => True
| .done _ (some k') _ => k' = k
| .outside => False

/- The operations of a connection. -/
inductive TxOp (Q : Type) : Type
  | begin
  | commit
  | rollback
  | query (q : Q)

/- The results of the operations. -/
def TxOp.Res
    {Q : Type}
    (A : Q → Type) : TxOp Q → Type
| .begin => Unit
| .commit => Unit
| .rollback => Unit
| .query q => A q

/- The operations of a connection with more statements. -/
def TxOp.embed
    {Q Q' : Type}
    (up : Q → Q') : TxOp Q → TxOp Q'
| .begin => .begin
| .commit => .commit
| .rollback => .rollback
| .query q => .query (up q)

/- The results of such operations. -/
def TxOp.restrict
    {Q Q' : Type}
    {A : Q → Type}
    {A' : Q' → Type}
    {up : Q → Q'}
    (down : ∀ q, A' (up q) → A q) :
    (o : TxOp Q) → TxOp.Res A' (o.embed up) → TxOp.Res A o
| .begin, a => a
| .commit, a => a
| .rollback, a => a
| .query q, a => down q a

/- A verdict on a part of the data. -/
def Verdict.embed
    {δ δ' κ ε α : Type}
    (into : (δ → δ) → δ' → δ') :
    Verdict δ κ ε α → Verdict δ' κ ε α
| .refuse e => .refuse e
| .miss e => .miss e
| .done a lock change => .done a lock (into change)
| .outside => .outside

theorem Verdict.embed_eq_done
    {δ δ' κ ε α : Type}
    {into : (δ → δ) → δ' → δ'}
    {v : Verdict δ κ ε α}
    {a : α}
    {lock : Option κ}
    {f : δ' → δ'}
    (hDone : v.embed into = .done a lock f) :
    ∃ g, v = .done a lock g ∧ f = into g := by
  cases v with
  | done b k g =>
      cases hDone
      exact ⟨g, rfl, rfl⟩
  | _ => cases hDone

/-
  A database: its verdicts, the answers `reply` of parties
  outside it, and the exception `aborted` for statements in a
  broken transaction.  An outside party answers with what
  becomes of its own part of the data, at once and whatever
  the transaction comes to.
-/
structure Backend
    (δ κ Q : Type)
    (A : Q → Type)
    (ρ ε : Type) where
  aborted : ε
  plan : (q : Q) → δ → Verdict δ κ ε (A q)
  reply : (q : Q) → ρ → δ → Option (A q × δ)

namespace Backend

variable {δ κ Q : Type} {A : Q → Type} {ρ ε : Type}
variable [DecidableEq κ]

/-
  A statement goes through.  It waits while another
  connection holds its lock.
-/
def answer
    (B : Backend δ κ Q A ρ ε)
    (t : Tid)
    (q : Q)
    (s : Store δ κ) :
    Option (Except ε (A q) × Store δ κ) :=
  if s.broken t then
    some (.error B.aborted, s)
  else
    match B.plan q (s.view t) with
    | .refuse e => some (.error e, s.fail t)
    | .miss e => some (.error e, s)
    | .done a none change => some (.ok a, s.write t change)
    | .done a (some k) change =>
        if s.Available t k then
          some (.ok a, (s.acquire t k).write t change)
        else
          none
    | .outside => none

/-
  The machine of the database.  A commit that raises has
  rolled back; a rollback that raises has lost its connection
  and with it the transaction.
-/
def machine
    (B : Backend δ κ Q A ρ ε) :
    Machine (Store δ κ) (Choice ε ρ) (TxOp Q) (TxOp.Res A)
      ε where
  exec := fun t o c s =>
    match o, c with
    | .begin, .proceed => some (.ok (), s.begin t)
    | .begin, .fault e => some (.error e, s)
    | .commit, .proceed => some (s.commit B.aborted t)
    | .commit, .fault e => some (.error e, s.rollback t)
    | .rollback, .proceed => some (.ok (), s.rollback t)
    | .rollback, .fault e => some (.error e, s.rollback t)
    | .query q, .proceed => B.answer t q s
    | .query _, .fault e => some (.error e, s.fail t)
    | .query q, .reply r =>
        match B.reply q r s.committed with
        | some (a, d) =>
            some (.ok a, { s with committed := d })
        | none => none
    | _, .reply _ => none
  abandon := fun t s => s.abandon t

/-
  The result and the store that a statement can leave, by the
  choice of the environment.
-/
inductive Answered
    (B : Backend δ κ Q A ρ ε)
    (t : Tid)
    (q : Q)
    (s : Store δ κ) :
    Choice ε ρ → Except ε (A q) → Store δ κ → Prop
  | fault (e : ε) :
      Answered B t q s (.fault e) (.error e) (s.fail t)
  | reply
      (x : ρ)
      (a : A q)
      (d : δ)
      (hReply : B.reply q x s.committed = some (a, d)) :
      Answered B t q s (.reply x) (.ok a)
        { s with committed := d }
  | aborted
      (hBroken : s.broken t = true) :
      Answered B t q s .proceed (.error B.aborted) s
  | refuse
      (e : ε)
      (hPlan : B.plan q (s.view t) = .refuse e) :
      Answered B t q s .proceed (.error e) (s.fail t)
  | miss
      (e : ε)
      (hPlan : B.plan q (s.view t) = .miss e) :
      Answered B t q s .proceed (.error e) s
  | done
      (a : A q)
      (f : δ → δ)
      (hPlan : B.plan q (s.view t) = .done a none f) :
      Answered B t q s .proceed (.ok a) (s.write t f)
  | locked
      (a : A q)
      (k : κ)
      (f : δ → δ)
      (hPlan : B.plan q (s.view t) = .done a (some k) f)
      (hFree : s.Available t k) :
      Answered B t q s .proceed (.ok a)
        ((s.acquire t k).write t f)

theorem answered_of_answer
    {B : Backend δ κ Q A ρ ε}
    {t : Tid}
    {q : Q}
    {s s' : Store δ κ}
    {r : Except ε (A q)}
    (hAnswer : B.answer t q s = some (r, s')) :
    B.Answered t q s .proceed r s' := by
  unfold answer at hAnswer
  split at hAnswer
  · rename_i hBroken
    cases hAnswer
    exact Answered.aborted hBroken
  · split at hAnswer
    · rename_i e hPlan
      cases hAnswer
      exact Answered.refuse e hPlan
    · rename_i e hPlan
      cases hAnswer
      exact Answered.miss e hPlan
    · rename_i a f hPlan
      cases hAnswer
      exact Answered.done a f hPlan
    · rename_i a k f hPlan
      split at hAnswer
      · rename_i hFree
        cases hAnswer
        exact Answered.locked a k f hPlan hFree
      · cases hAnswer
    · cases hAnswer

/- A statement is answered if its lock is available. -/
theorem exec_of_within
    {B : Backend δ κ Q A ρ ε}
    {t : Tid}
    {q : Q}
    {s : Store δ κ}
    {k : κ}
    (hWithin : (B.plan q (s.view t)).Within k)
    (hFree : s.Available t k) :
    ∃ r s',
      B.machine.exec t (.query q) .proceed s =
        some (r, s') := by
  have hAnswer :
      ∃ r s', B.answer t q s = some (r, s') := by
    unfold answer
    split
    · exact ⟨_, _, rfl⟩
    · split
      · exact ⟨_, _, rfl⟩
      · exact ⟨_, _, rfl⟩
      · exact ⟨_, _, rfl⟩
      · rename_i a k' f hPlan
        rw [hPlan] at hWithin
        have hSame : k' = k := hWithin
        rw [hSame, if_pos hFree]
        exact ⟨_, _, rfl⟩
      · rename_i hPlan
        rw [hPlan] at hWithin
        exact hWithin.elim
  exact hAnswer

theorem answered_of_exec
    {B : Backend δ κ Q A ρ ε}
    {t : Tid}
    {q : Q}
    {c : Choice ε ρ}
    {s s' : Store δ κ}
    {r : Except ε (A q)}
    (hExec :
      B.machine.exec t (.query q) c s = some (r, s')) :
    B.Answered t q s c r s' := by
  cases c with
  | proceed => exact answered_of_answer hExec
  | fault e =>
      cases hExec
      exact Answered.fault e
  | reply x =>
      simp only [machine] at hExec
      split at hExec
      · rename_i a d hReply
        cases hExec
        exact Answered.reply x a d hReply
      · cases hExec

/-
  A statement of a connection that has no transaction open:
  it fails and leaves the store alone, a party outside the
  database answers, or it is done at once.
-/
theorem exec_autocommit
    {B : Backend δ κ Q A ρ ε}
    {t : Tid}
    {q : Q}
    {c : Choice ε ρ}
    {s s' : Store δ κ}
    {r : Except ε (A q)}
    (hFrames : s.frames t = [])
    (hExec :
      B.machine.exec t (.query q) c s = some (r, s')) :
    (∃ e, r = .error e ∧ s' = s) ∨
      (∃ x a d, c = .reply x ∧
        B.reply q x s.committed = some (a, d) ∧
          r = .ok a ∧ s' = { s with committed := d }) ∨
        ∃ a lock f, c = .proceed ∧
          B.plan q s.committed = .done a lock f ∧
            r = .ok a ∧
              s' = { s with committed := f s.committed } := by
  have hFail : s.fail t = s := by
    simp [Store.fail, hFrames]
  have hView : s.view t = s.committed := by
    simp [Store.view, hFrames]
  have hWrite :
      ∀ f, s.write t f =
        { s with committed := f s.committed } := by
    intro f
    simp [Store.write, hFrames]
  cases answered_of_exec hExec with
  | fault e => exact Or.inl ⟨e, rfl, hFail⟩
  | reply x a d hReply =>
      exact Or.inr (Or.inl ⟨x, a, d, rfl, hReply, rfl, rfl⟩)
  | aborted hBroken => exact Or.inl ⟨_, rfl, rfl⟩
  | refuse e hPlan => exact Or.inl ⟨e, rfl, hFail⟩
  | miss e hPlan => exact Or.inl ⟨e, rfl, rfl⟩
  | done a f hPlan =>
      rw [hView] at hPlan
      exact
        Or.inr
          (Or.inr ⟨a, none, f, rfl, hPlan, rfl, hWrite f⟩)
  | locked a k f hPlan hFree =>
      rw [hView] at hPlan
      have hAcquire : s.acquire t k = s := by
        simp [Store.acquire, hFrames]
      rw [hAcquire]
      exact
        Or.inr
          (Or.inr ⟨a, some k, f, rfl, hPlan, rfl, hWrite f⟩)

/-
  Threads that open no transaction and heed what is trusted
  keep an invariant of the committed data that every allowed
  statement keeps.
-/
theorem invariant_of_heeds
    {α : Type}
    {B : Backend δ κ Q A ρ ε}
    {ok :
      World (Store δ κ) (TxOp Q) (TxOp.Res A) ε α →
        Event (Choice ε ρ) → Prop}
    {w w' : World (Store δ κ) (TxOp Q) (TxOp.Res A) ε α}
    {P : δ → Prop}
    {d : δ}
    (allowed : TxOp Q → Prop)
    (trusted : (o : TxOp Q) → TxOp.Res A o → Prop)
    (hReach : B.machine.Reaches ok w w')
    (hQuiet : w.shared = Store.quiet d)
    (hStart : P d)
    (hAuto : ∀ o, allowed o → ∃ q, o = .query q)
    (hThreads :
      ∀ t p, w.threads t = .live p →
        p.Heeds allowed trusted (fun _ => True))
    (hReply :
      ∀ v t q x a d', P v.shared.committed →
        (v.threads t).head = some (.query q) →
          allowed (.query q) → ok v (.step t (.reply x)) →
            B.reply q x v.shared.committed = some (a, d') →
              P d' ∧ trusted (.query q) a)
    (hPlan :
      ∀ v t q a lock f, P v.shared.committed →
        (v.threads t).head = some (.query q) →
          allowed (.query q) → ok v (.step t .proceed) →
            B.plan q v.shared.committed = .done a lock f →
              P (f v.shared.committed) ∧
                trusted (.query q) a) :
    P w'.shared.committed := by
  have hKept :
      (∀ t, w'.shared.frames t = []) ∧
        P w'.shared.committed := by
    apply
      Machine.invariant_of_heeds
        (P := fun s : Store δ κ =>
          (∀ t, s.frames t = []) ∧ P s.committed)
        hReach _ hThreads
    · rintro v t o c r s ⟨hFrames, hBefore⟩ hHead hAllowed
        hOk hExec
      rcases hAuto o hAllowed with ⟨q, rfl⟩
      rcases exec_autocommit (hFrames t) hExec with
        ⟨e, rfl, rfl⟩ | ⟨x, a, d', rfl, hReplied, rfl, rfl⟩ |
          ⟨a, lock, f, rfl, hPlanned, rfl, rfl⟩
      · exact
          ⟨⟨hFrames, hBefore⟩, (fun a hSame => by cases hSame)⟩
      · have hAfter :=
          hReply v t q x a d' hBefore hHead hAllowed hOk
            hReplied
        refine ⟨⟨hFrames, hAfter.1⟩, ?_⟩
        intro a' hSame
        cases hSame
        exact hAfter.2
      · have hAfter :=
          hPlan v t q a lock f hBefore hHead hAllowed hOk
            hPlanned
        refine ⟨⟨hFrames, hAfter.1⟩, ?_⟩
        intro a' hSame
        cases hSame
        exact hAfter.2
    · rintro t s ⟨hFrames, hBefore⟩
      refine ⟨?_, hBefore⟩
      intro t'
      change (s.abandon t).frames t' = []
      by_cases hSame : t' = t
      · simp [Store.abandon, Store.setFrames, hSame]
      · simpa [Store.abandon, Store.setFrames, hSame,
          Store.release] using hFrames t'
    · rw [hQuiet]
      exact ⟨fun _ => rfl, hStart⟩
  exact hKept.2

end Backend

------------------------------------------------------------
-- Transactions
------------------------------------------------------------

/- Run a program in a transaction, or in a savepoint. -/
def atomic
    {Q : Type}
    {A : Q → Type}
    {ε α : Type}
    (body : Prog (TxOp Q) (TxOp.Res A) ε α) :
    Prog (TxOp Q) (TxOp.Res A) ε α :=
  Prog.bracket .begin .commit .rollback body

/- One statement. -/
def execute
    {Q : Type}
    {A : Q → Type}
    {ε : Type}
    (q : Q) : Prog (TxOp Q) (TxOp.Res A) ε (A q) :=
  Prog.perform (TxOp.query q)

end Relational
