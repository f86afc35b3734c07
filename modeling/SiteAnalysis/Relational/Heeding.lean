import SiteAnalysis.Relational.Calm
import SiteAnalysis.Relational.Confined

/-
  This file proves what a system of connections keeps, when
  all that is known of each is which statements it executes
  as long as the answers can be trusted.

  Every change has to keep an invariant of the data, and the
  relation that is expected of its connection.  A statement
  in a transaction is published later, so it has to do that
  on any data; outside a transaction, on what it sees.

  Key definitions include:
    * `Prog.Behaves`
    * `Backend.Keeps`
    * `Backend.Heeding`

  Key theorems include:
    * `behaves_atomic`
    * `Backend.heeding_of_next`
    * `Backend.heeding_of_reaches`
    * `Backend.some_keep_of_reaches`
-/

------------------------------------------------------------
-- Changes
------------------------------------------------------------

namespace Relational

open Concurrency
open Regime

variable {δ κ Q : Type} {A : Q → Type} {ρ ε α β : Type}

/- A change that keeps the invariant and the relation. -/
def Sustains
    (holds : δ → Prop)
    (keep : δ → δ → Prop)
    (d d' : δ) : Prop :=
  holds d → holds d' ∧ keep d d'

variable {holds : δ → Prop}

theorem sustains_trans
    {keep : δ → δ → Prop}
    (hTrans :
      ∀ d d' d'', keep d d' → keep d' d'' → keep d d'')
    (d d' d'' : δ)
    (hFirst : Sustains holds keep d d')
    (hSecond : Sustains holds keep d' d'') :
    Sustains holds keep d d'' := by
  intro hHolds
  have hMiddle := hFirst hHolds
  have hLast := hSecond hMiddle.1
  exact ⟨hLast.1, hTrans _ _ _ hMiddle.2 hLast.2⟩

/- What a connection sees holds if what is committed does. -/
theorem holds_of_frames
    {keep : δ → δ → Prop}
    {d : δ}
    {frames : List (Frame δ κ)}
    (hCalm : Calm (Sustains holds keep) frames)
    (hHolds : holds d) :
    holds (frames.foldr (fun fr d => fr.pending d) d) := by
  induction frames with
  | nil => exact hHolds
  | cons fr rest ih =>
      exact (hCalm.head _ (ih hCalm.tail)).1

------------------------------------------------------------
-- Programs
------------------------------------------------------------

/- The open frames after an operation, if `n` were before. -/
def depthAfter :
    (o : TxOp Q) → Except ε (TxOp.Res A o) → Nat → Nat
| .begin, .ok _, n => n + 1
| .begin, .error _, n => n
| .commit, _, n => n - 1
| .rollback, _, n => n - 1
| .query _, _, n => n

/-
  The statements allowed with `n` frames open: the steady ones
  anywhere, the others outside a transaction only.
-/
def AllowedAt
    (steady instant : Q → Prop)
    (n : Nat) : TxOp Q → Prop
| .query q => steady q ∨ n = 0 ∧ instant q
| _ => True

end Relational

namespace Concurrency

open Relational

namespace Prog

variable {Q : Type} {A : Q → Type} {ε α β : Type}

/-
  Started with so many frames open, the program only executes
  what is allowed, as long as the answers are trusted.  It
  never has fewer than `n₀` frames open, with which it ends,
  and what it returns satisfies `post`.
-/
def Behaves
    (steady instant : Q → Prop)
    (trusted : (q : Q) → A q → Prop)
    (n₀ : Nat)
    (post : α → Prop) :
    Prog (TxOp Q) (TxOp.Res A) ε α → Nat → Prop
| .ret a, n => n = n₀ ∧ post a
| .raise _, n => n = n₀
| .call o k, n =>
    n₀ ≤ n ∧
      AllowedAt steady instant n o ∧
        ∀ r, (∀ a, r = .ok a → Regime.Results trusted o a) →
          Behaves steady instant trusted n₀ post (k r)
            (depthAfter o r n)

variable {steady instant : Q → Prop}
variable {trusted : (q : Q) → A q → Prop}
variable {n₀ n₁ n : Nat}
variable {post : β → Prop} {post' : α → Prop}

theorem Behaves.handle_above
    {p : Prog (TxOp Q) (TxOp.Res A) ε α}
    {f : α → Prog (TxOp Q) (TxOp.Res A) ε β}
    {h : ε → Prog (TxOp Q) (TxOp.Res A) ε β}
    (hProg : p.Behaves steady instant trusted n₁ post' n)
    (hBase : n₀ ≤ n₁)
    (hRet :
      ∀ a, post' a →
        (f a).Behaves steady instant trusted n₀ post n₁)
    (hRaise :
      ∀ e,
        (h e).Behaves steady instant trusted n₀ post n₁) :
    (p.handle f h).Behaves steady instant trusted n₀ post
      n := by
  induction p generalizing n with
  | ret a =>
      rcases hProg with ⟨rfl, hPost⟩
      exact hRet a hPost
  | raise e =>
      have hDepth : n = n₁ := hProg
      subst hDepth
      exact hRaise e
  | call o k ih =>
      refine ⟨Nat.le_trans hBase hProg.1, hProg.2.1, ?_⟩
      intro r hTrusted
      exact ih r (hProg.2.2 r hTrusted)

/- A program and what follows it, with as many frames. -/
theorem Behaves.handle
    {p : Prog (TxOp Q) (TxOp.Res A) ε α}
    {f : α → Prog (TxOp Q) (TxOp.Res A) ε β}
    {h : ε → Prog (TxOp Q) (TxOp.Res A) ε β}
    (hProg : p.Behaves steady instant trusted n₀ post' n)
    (hRet :
      ∀ a, post' a →
        (f a).Behaves steady instant trusted n₀ post n₀)
    (hRaise :
      ∀ e,
        (h e).Behaves steady instant trusted n₀ post n₀) :
    (p.handle f h).Behaves steady instant trusted n₀ post
      n :=
  hProg.handle_above (Nat.le_refl n₀) hRet hRaise

theorem Behaves.bind
    {p : Prog (TxOp Q) (TxOp.Res A) ε α}
    {f : α → Prog (TxOp Q) (TxOp.Res A) ε β}
    (hProg : p.Behaves steady instant trusted n₀ post' n)
    (hRest :
      ∀ a, post' a →
        (f a).Behaves steady instant trusted n₀ post n₀) :
    (p >>= f).Behaves steady instant trusted n₀ post n :=
  hProg.handle hRest (fun _ => rfl)

theorem Behaves.mono
    {post'' : α → Prop}
    {p : Prog (TxOp Q) (TxOp.Res A) ε α}
    (hProg : p.Behaves steady instant trusted n₀ post' n)
    (hPost : ∀ a, post' a → post'' a) :
    p.Behaves steady instant trusted n₀ post'' n := by
  induction p generalizing n with
  | ret a => exact ⟨hProg.1, hPost a hProg.2⟩
  | raise e => exact hProg
  | call o k ih =>
      refine ⟨hProg.1, hProg.2.1, ?_⟩
      intro r hTrusted
      exact ih r (hProg.2.2 r hTrusted)

/- Fewer statements, by answers that are trusted less. -/
theorem Behaves.weaken
    {steady' instant' : Q → Prop}
    {trusted' : (q : Q) → A q → Prop}
    {p : Prog (TxOp Q) (TxOp.Res A) ε α}
    (hProg : p.Behaves steady instant trusted n₀ post' n)
    (hSteady : ∀ q, steady q → steady' q)
    (hInstant : ∀ q, instant q → instant' q)
    (hTrust : ∀ q a, trusted' q a → trusted q a) :
    p.Behaves steady' instant' trusted' n₀ post' n := by
  induction p generalizing n with
  | ret a => exact hProg
  | raise e => exact hProg
  | call o k ih =>
      refine ⟨hProg.1, ?_, ?_⟩
      · cases o with
        | query q =>
            exact
              hProg.2.1.imp (hSteady q)
                (And.imp_right (hInstant q))
        | _ => trivial
      · intro r hTrusted
        apply ih r
        apply hProg.2.2
        intro a hSame
        have hResults := hTrusted a hSame
        cases o with
        | query q => exact hTrust q a hResults
        | _ => trivial

/- One statement. -/
theorem behaves_execute
    {q : Q}
    (hAllowed : AllowedAt steady instant n (.query q)) :
    (execute q : Prog (TxOp Q) (TxOp.Res A) ε (A q)).Behaves
      steady instant trusted n (trusted q) n := by
  refine ⟨Nat.le_refl n, hAllowed, ?_⟩
  intro r hTrusted
  cases r with
  | error e => rfl
  | ok a => exact ⟨rfl, hTrusted a rfl⟩

/- Statements that need no trust. -/
theorem behaves_of_conforms
    {p : Prog (TxOp Q) (TxOp.Res A) ε α}
    (hConforms :
      p.Conforms
        (fun o => ∃ q, o = .query q ∧
          AllowedAt steady instant n (.query q))) :
    p.Behaves steady instant trusted n (fun _ => True)
      n := by
  induction p with
  | ret a => exact ⟨rfl, trivial⟩
  | raise e => rfl
  | call o k ih =>
      rcases hConforms.1 with ⟨q, rfl, hAllowed⟩
      refine ⟨Nat.le_refl n, hAllowed, ?_⟩
      intro r _
      exact ih r (hConforms.2 r)

/- A transaction leaves as many frames as it has found. -/
theorem behaves_atomic
    {body : Prog (TxOp Q) (TxOp.Res A) ε α}
    (hBody :
      body.Behaves steady instant trusted (n + 1) post'
        (n + 1)) :
    (atomic body).Behaves steady instant trusted n post'
      n := by
  refine ⟨Nat.le_refl n, trivial, ?_⟩
  intro r _
  cases r with
  | error e => rfl
  | ok u =>
      apply hBody.handle_above (Nat.le_succ n)
      · intro a hPost
        refine ⟨Nat.le_succ n, trivial, ?_⟩
        intro r _
        cases r with
        | error e => rfl
        | ok u => exact ⟨rfl, hPost⟩
      · intro e
        refine ⟨Nat.le_succ n, trivial, ?_⟩
        intro r _
        cases r <;> rfl

/- The same program over more statements. -/
theorem Behaves.embed
    {Q' : Type}
    {A' : Q' → Type}
    {steady' instant' : Q' → Prop}
    {trusted' : (q : Q') → A' q → Prop}
    {up : Q → Q'}
    {down : ∀ q, A' (up q) → A q}
    {p : Prog (TxOp Q) (TxOp.Res A) ε α}
    (hProg : p.Behaves steady instant trusted n₀ post' n)
    (hSteady : ∀ q, steady q → steady' (up q))
    (hInstant : ∀ q, instant q → instant' (up q))
    (hTrust :
      ∀ q a, trusted' (up q) a → trusted q (down q a)) :
    (p.embed (TxOp.embed up) (TxOp.restrict down)).Behaves
      steady' instant' trusted' n₀ post' n := by
  induction p generalizing n with
  | ret a => exact hProg
  | raise e => exact hProg
  | call o k ih =>
      refine ⟨hProg.1, ?_, ?_⟩
      · cases o with
        | query q =>
            exact
              hProg.2.1.imp (hSteady q)
                (And.imp_right (hInstant q))
        | _ => trivial
      · intro r hTrusted
        have hNext :
            (k (r.map (TxOp.restrict down o))).Behaves
              steady instant trusted n₀ post'
              (depthAfter o
                (r.map (TxOp.restrict down o)) n) := by
          apply hProg.2.2
          intro a hSame
          cases r with
          | error e => cases hSame
          | ok a' =>
              cases hSame
              cases o with
              | query q => exact hTrust q a' (hTrusted a' rfl)
              | _ => trivial
        have hDepth :
            depthAfter (o.embed up) r n =
              depthAfter o (r.map (TxOp.restrict down o))
                n := by
          cases o <;> cases r <;> rfl
        rw [hDepth]
        exact ih _ hNext

end Prog

end Concurrency

------------------------------------------------------------
-- Statements
------------------------------------------------------------

namespace Relational

open Concurrency
open Regime

variable {δ κ Q : Type} {A : Q → Type} {ρ ε α β : Type}
variable {holds : δ → Prop}

namespace Backend

/-
  On data with the invariant, the allowed statements of a
  connection come back with trusted answers, and what they
  write keeps the invariant and the relation.
-/
structure Keeps
    (B : Backend δ κ Q A ρ ε)
    (holds : δ → Prop)
    (keep : Tid → δ → δ → Prop)
    (steady instant : Tid → Q → Prop)
    (trusted : (q : Q) → A q → Prop) : Prop where
  refl : ∀ t d, keep t d d
  trans :
    ∀ t d d' d'', keep t d d' → keep t d' d'' → keep t d d''
  steadily :
    ∀ t q d a lock f, steady t q → holds d →
      B.plan q d = .done a lock f →
        trusted q a ∧
          ∀ d', Sustains holds (keep t) d' (f d')
  instantly :
    ∀ t q d a lock f, instant t q → holds d →
      B.plan q d = .done a lock f →
        trusted q a ∧ holds (f d) ∧ keep t d (f d)
  reply :
    ∀ t q x d a d', steady t q ∨ instant t q → holds d →
      B.reply q x d = some (a, d') →
        trusted q a ∧ holds d' ∧ keep t d d'

variable {keep : Tid → δ → δ → Prop}
variable {steady instant : Tid → Q → Prop}
variable {trusted : (q : Q) → A q → Prop}

------------------------------------------------------------
-- Steps
------------------------------------------------------------

/- The state of a system of such connections. -/
structure Heeding
    (holds : δ → Prop)
    (keep : Tid → δ → δ → Prop)
    (steady instant : Tid → Q → Prop)
    (trusted : (q : Q) → A q → Prop)
    (w : World (Store δ κ) (TxOp Q) (TxOp.Res A) ε α) :
    Prop where
  committed : holds w.shared.committed
  calm :
    ∀ t, Calm (Sustains holds (keep t)) (w.shared.frames t)
  threads :
    ∀ t p, w.threads t = .live p →
      p.Behaves (steady t) (instant t) trusted 0
        (fun _ => True) (w.shared.frames t).length

/- What one operation leaves of the store. -/
structure Kept
    (holds : δ → Prop)
    (keep : Tid → δ → δ → Prop)
    (t : Tid)
    (s s' : Store δ κ) : Prop where
  committed : holds s'.committed
  step : keep t s.committed s'.committed
  frames : ∀ t', t' ≠ t → s'.frames t' = s.frames t'
  calm : Calm (Sustains holds (keep t)) (s'.frames t)

variable {B : Backend δ κ Q A ρ ε}
variable {s s' : Store δ κ} {t : Tid}

theorem kept_of_private
    (hKeeps : B.Keeps holds keep steady instant trusted)
    (hHolds : holds s.committed)
    (hPrivate : Store.Private t s s')
    (hCalm : Calm (Sustains holds (keep t)) (s'.frames t)) :
    Kept holds keep t s s' where
  committed := by
    rw [hPrivate.committed]
    exact hHolds
  step := by
    rw [hPrivate.committed]
    exact hKeeps.refl t _
  frames := hPrivate.frames
  calm := hCalm

theorem view_of_auto
    (hAuto : s.frames t = []) :
    s.view t = s.committed := by
  rw [Store.view, hAuto]
  rfl

/- A write outside a transaction. -/
theorem kept_write_auto
    {f : δ → δ}
    (hAuto : s.frames t = [])
    (hHolds : holds (f s.committed))
    (hKeep : keep t s.committed (f s.committed)) :
    Kept holds keep t s (s.write t f) := by
  have hWrite :
      s.write t f =
        { s with committed := f s.committed } := by
    simp [Store.write, hAuto]
  rw [hWrite]
  refine ⟨hHolds, hKeep, fun _ _ => rfl, ?_⟩
  change Calm _ (s.frames t)
  rw [hAuto]
  exact calm_nil

theorem kept_write
    {f : δ → δ}
    (hKeeps : B.Keeps holds keep steady instant trusted)
    (hHolds : holds s.committed)
    (hCalm : Calm (Sustains holds (keep t)) (s.frames t))
    (hSustains : ∀ d, Sustains holds (keep t) d (f d)) :
    Kept holds keep t s (s.write t f) := by
  by_cases hAuto : s.frames t = []
  · have hCommitted := hSustains s.committed hHolds
    exact kept_write_auto hAuto hCommitted.1 hCommitted.2
  · apply
      kept_of_private hKeeps hHolds
        (Store.private_write hAuto)
    exact
      calm_write (sustains_trans (hKeeps.trans t)) hSustains
        hCalm

theorem Kept.of_private
    {s₁ : Store δ κ}
    (hPrivate : Store.Private t s s₁)
    (hKept : Kept holds keep t s₁ s') :
    Kept holds keep t s s' where
  committed := hKept.committed
  step := by
    rw [← hPrivate.committed]
    exact hKept.step
  frames := by
    intro t' hNe
    rw [hKept.frames t' hNe, hPrivate.frames t' hNe]
  calm := hKept.calm

variable [DecidableEq κ]

/- A statement, in whichever way it is answered. -/
theorem kept_of_answered
    {q : Q}
    {c : Choice ε ρ}
    {r : Except ε (A q)}
    (hKeeps : B.Keeps holds keep steady instant trusted)
    (hHolds : holds s.committed)
    (hCalm : Calm (Sustains holds (keep t)) (s.frames t))
    (hAllowed :
      steady t q ∨
        (s.frames t).length = 0 ∧ instant t q)
    (hAnswered : B.Answered t q s c r s') :
    Kept holds keep t s s' ∧
      ∀ a, r = .ok a → trusted q a := by
  have hView : holds (s.view t) :=
    holds_of_frames hCalm hHolds
  have hFail : Kept holds keep t s (s.fail t) :=
    kept_of_private hKeeps hHolds Store.private_fail
      (calm_fail hCalm)
  have hSame : Kept holds keep t s s :=
    kept_of_private hKeeps hHolds Store.Private.refl hCalm
  cases hAnswered with
  | fault e => exact ⟨hFail, fun a hOk => by cases hOk⟩
  | refuse e hPlan =>
      exact ⟨hFail, fun a hOk => by cases hOk⟩
  | aborted hBroken =>
      exact ⟨hSame, fun a hOk => by cases hOk⟩
  | miss e hPlan =>
      exact ⟨hSame, fun a hOk => by cases hOk⟩
  | reply x a d hReply =>
      have hAfter :=
        hKeeps.reply t q x _ a d
          (hAllowed.imp_right And.right) hHolds hReply
      refine ⟨⟨hAfter.2.1, hAfter.2.2, ?_, hCalm⟩, ?_⟩
      · exact fun _ _ => rfl
      · intro a' hOk
        cases hOk
        exact hAfter.1
  | done a f hPlan =>
      rcases hAllowed with hSteady | ⟨hNone, hInstant⟩
      · have hAfter :=
          hKeeps.steadily t q _ a none f hSteady hView hPlan
        refine ⟨kept_write hKeeps hHolds hCalm hAfter.2, ?_⟩
        intro a' hOk
        cases hOk
        exact hAfter.1
      · have hAuto := List.length_eq_zero_iff.mp hNone
        rw [view_of_auto hAuto] at hPlan
        have hAfter :=
          hKeeps.instantly t q _ a none f hInstant hHolds
            hPlan
        refine
          ⟨kept_write_auto hAuto hAfter.2.1 hAfter.2.2, ?_⟩
        intro a' hOk
        cases hOk
        exact hAfter.1
  | locked a k f hPlan hFree =>
      have hAcquire := Store.private_acquire hFree
      rcases hAllowed with hSteady | ⟨hNone, hInstant⟩
      · have hAfter :=
          hKeeps.steadily t q _ a (some k) f hSteady hView
            hPlan
        refine ⟨?_, ?_⟩
        · apply Kept.of_private hAcquire
          apply
            kept_write hKeeps _ (calm_acquire hCalm) hAfter.2
          rw [hAcquire.committed]
          exact hHolds
        · intro a' hOk
          cases hOk
          exact hAfter.1
      · have hAuto := List.length_eq_zero_iff.mp hNone
        have hStill : s.acquire t k = s := by
          simp [Store.acquire, hAuto]
        rw [view_of_auto hAuto] at hPlan
        rw [hStill]
        have hAfter :=
          hKeeps.instantly t q _ a (some k) f hInstant hHolds
            hPlan
        refine
          ⟨kept_write_auto hAuto hAfter.2.1 hAfter.2.2, ?_⟩
        intro a' hOk
        cases hOk
        exact hAfter.1

theorem kept_of_commit
    {r : Except ε Unit}
    (hKeeps : B.Keeps holds keep steady instant trusted)
    (hHolds : holds s.committed)
    (hCalm : Calm (Sustains holds (keep t)) (s.frames t))
    (hCommit : s.commit B.aborted t = (r, s')) :
    Kept holds keep t s s' := by
  have hDrop : Kept holds keep t s (s.rollback t) :=
    kept_of_private hKeeps hHolds Store.private_rollback
      (calm_rollback hCalm)
  unfold Store.commit at hCommit
  split at hCommit
  · cases hCommit
    exact
      kept_of_private hKeeps hHolds Store.Private.refl hCalm
  · rename_i fr hFrames
    split at hCommit
    · cases hCommit
      exact hDrop
    · cases hCommit
      rw [hFrames] at hCalm
      have hPublished := hCalm.head _ hHolds
      refine ⟨hPublished.1, hPublished.2, ?_, ?_⟩
      · intro t' hNe
        simp [Store.publish, Store.setFrames, Store.release,
          Function.update_of_ne hNe]
      · simp only [Store.publish, Store.setFrames,
          Function.update_self]
        exact calm_nil
  · rename_i fr outer rest hFrames
    split at hCommit
    · cases hCommit
      exact hDrop
    · cases hCommit
      rw [hFrames] at hCalm
      apply
        kept_of_private hKeeps hHolds
          (Store.private_setFrames _)
      simp only [Store.setFrames, Function.update_self]
      exact
        calm_absorb (sustains_trans (hKeeps.trans t)) hCalm

omit [DecidableEq κ] in
theorem length_fail :
    ((s.fail t).frames t).length = (s.frames t).length := by
  unfold Store.fail
  split
  · rfl
  · rename_i fr outer hFrames
    simp [Store.setFrames, hFrames]

omit [DecidableEq κ] in
theorem length_write
    {f : δ → δ} :
    ((s.write t f).frames t).length =
      (s.frames t).length := by
  unfold Store.write
  split
  · rfl
  · rename_i fr outer hFrames
    simp [Store.setFrames, hFrames]

theorem length_acquire
    {k : κ} :
    ((s.acquire t k).frames t).length =
      (s.frames t).length := by
  unfold Store.acquire
  split
  · rfl
  · rename_i fr outer hFrames
    split
    · rfl
    · simp [Store.setFrames, hFrames]

theorem length_rollback :
    ((s.rollback t).frames t).length =
      (s.frames t).length - 1 := by
  unfold Store.rollback
  split
  · rename_i hFrames
    simp [hFrames]
  · rename_i fr hFrames
    simp [Store.setFrames, hFrames]
  · rename_i fr outer _ hFrames
    simp [Store.setFrames, hFrames]

theorem length_commit
    {e : ε}
    {r : Except ε Unit}
    (hCommit : s.commit e t = (r, s')) :
    (s'.frames t).length = (s.frames t).length - 1 := by
  unfold Store.commit at hCommit
  split at hCommit
  · rename_i hFrames
    cases hCommit
    simp [hFrames]
  · rename_i fr hFrames
    split at hCommit
    · cases hCommit
      exact length_rollback
    · cases hCommit
      simp [Store.publish, Store.setFrames, hFrames]
  · rename_i fr outer rest hFrames
    split at hCommit
    · cases hCommit
      exact length_rollback
    · cases hCommit
      simp [Store.setFrames, hFrames]

theorem length_of_answered
    {q : Q}
    {c : Choice ε ρ}
    {r : Except ε (A q)}
    (hAnswered : B.Answered t q s c r s') :
    (s'.frames t).length = (s.frames t).length := by
  cases hAnswered with
  | fault e => exact length_fail
  | refuse e hPlan => exact length_fail
  | aborted hBroken => rfl
  | miss e hPlan => rfl
  | reply x a d hReply => rfl
  | done a f hPlan => exact length_write
  | locked a k f hPlan hFree =>
      exact length_write.trans length_acquire

/- The open frames after an operation. -/
theorem length_of_exec
    {o : TxOp Q}
    {c : Choice ε ρ}
    {r : Except ε (TxOp.Res A o)}
    (hExec : B.machine.exec t o c s = some (r, s')) :
    (s'.frames t).length =
      depthAfter o r (s.frames t).length := by
  cases o with
  | begin =>
      cases c with
      | reply x => cases hExec
      | fault e =>
          cases hExec
          rfl
      | proceed =>
          cases hExec
          simp [Store.begin, Store.setFrames, depthAfter]
  | commit =>
      cases c with
      | reply x => cases hExec
      | fault e =>
          cases hExec
          exact length_rollback
      | proceed => exact length_commit (Option.some.inj hExec)
  | rollback =>
      cases c with
      | reply x => cases hExec
      | fault e =>
          cases hExec
          exact length_rollback
      | proceed =>
          cases hExec
          exact length_rollback
  | query q =>
      have hAnswered := answered_of_exec hExec
      have hLength := length_of_answered hAnswered
      exact hLength

/- An operation of a connection that heeds its answers. -/
theorem kept_of_exec
    {o : TxOp Q}
    {c : Choice ε ρ}
    {r : Except ε (TxOp.Res A o)}
    (hKeeps : B.Keeps holds keep steady instant trusted)
    (hHolds : holds s.committed)
    (hCalm : Calm (Sustains holds (keep t)) (s.frames t))
    (hAllowed :
      AllowedAt (steady t) (instant t) (s.frames t).length o)
    (hExec : B.machine.exec t o c s = some (r, s')) :
    Kept holds keep t s s' ∧
      ∀ a, r = .ok a → Regime.Results trusted o a := by
  have hSame : Kept holds keep t s s :=
    kept_of_private hKeeps hHolds Store.Private.refl hCalm
  have hDrop : Kept holds keep t s (s.rollback t) :=
    kept_of_private hKeeps hHolds Store.private_rollback
      (calm_rollback hCalm)
  cases o with
  | begin =>
      refine ⟨?_, fun _ _ => trivial⟩
      cases c with
      | reply x => cases hExec
      | fault e =>
          cases hExec
          exact hSame
      | proceed =>
          cases hExec
          apply
            kept_of_private hKeeps hHolds
              Store.private_begin
          apply calm_begin _ hCalm
          exact fun d hIs => ⟨hIs, hKeeps.refl t d⟩
  | commit =>
      refine ⟨?_, fun _ _ => trivial⟩
      cases c with
      | reply x => cases hExec
      | fault e =>
          cases hExec
          exact hDrop
      | proceed =>
          exact
            kept_of_commit hKeeps hHolds hCalm
              (Option.some.inj hExec)
  | rollback =>
      refine ⟨?_, fun _ _ => trivial⟩
      cases c with
      | reply x => cases hExec
      | fault e =>
          cases hExec
          exact hDrop
      | proceed =>
          cases hExec
          exact hDrop
  | query q =>
      have hAnswered := answered_of_exec hExec
      have hKept :=
        kept_of_answered hKeeps hHolds hCalm hAllowed
          hAnswered
      exact hKept

------------------------------------------------------------
-- Runs
------------------------------------------------------------

variable
  {ok :
    World (Store δ κ) (TxOp Q) (TxOp.Res A) ε α →
      Event (Choice ε ρ) → Prop}
variable
  {w w' w'' : World (Store δ κ) (TxOp Q) (TxOp.Res A) ε α}
variable {e : Event (Choice ε ρ)}

/- One event keeps the state, and the relation. -/
theorem heeding_of_next
    (hKeeps : B.Keeps holds keep steady instant trusted)
    (hHeeding : Heeding holds keep steady instant trusted w)
    (hNext : B.machine.next w e = some w') :
    Heeding holds keep steady instant trusted w' ∧
      keep e.thread w.shared.committed
        w'.shared.committed := by
  cases e with
  | step t c =>
      rcases Machine.next_step_inv hNext with
        ⟨o, k, r, s, hThread, hExec, rfl⟩
      have hCall := hHeeding.threads t _ hThread
      have hKept :=
        kept_of_exec hKeeps hHeeding.committed (hHeeding.calm t)
          hCall.2.1 hExec
      refine ⟨⟨hKept.1.committed, ?_, ?_⟩, hKept.1.step⟩
      · intro t'
        by_cases hSame : t' = t
        · subst hSame
          exact hKept.1.calm
        · change Calm _ (s.frames t')
          rw [hKept.1.frames t' hSame]
          exact hHeeding.calm t'
      · intro t' p hLive
        by_cases hSame : t' = t
        · subst hSame
          rw [World.put_threads_self] at hLive
          cases hLive
          change
            (k r).Behaves _ _ _ _ _ (s.frames t').length
          rw [length_of_exec hExec]
          exact hCall.2.2 r hKept.2
        · rw [World.put_threads_of_ne _ _ _ hSame] at hLive
          change p.Behaves _ _ _ _ _ (s.frames t').length
          rw [hKept.1.frames t' hSame]
          exact hHeeding.threads t' p hLive
  | lose t =>
      rcases Machine.next_lose_inv hNext with
        ⟨o, k, hThread, rfl⟩
      refine ⟨⟨hHeeding.committed, ?_, ?_⟩, hKeeps.refl t _⟩
      · intro t'
        change Calm _ ((w.shared.abandon t).frames t')
        by_cases hSame : t' = t
        · simp only [Store.abandon, Store.setFrames, hSame,
            Function.update_self]
          exact calm_nil
        · simp only [Store.abandon, Store.setFrames,
            Store.release, Function.update_of_ne hSame]
          exact hHeeding.calm t'
      · intro t' p hLive
        by_cases hSame : t' = t
        · subst hSame
          rw [World.put_threads_self] at hLive
          cases hLive
        · rw [World.put_threads_of_ne _ _ _ hSame] at hLive
          have hFrames :
              (w.shared.abandon t).frames t' =
                w.shared.frames t' := by
            simp [Store.abandon, Store.setFrames,
              Store.release, Function.update_of_ne hSame]
          change
            p.Behaves _ _ _ _ _
              ((w.shared.abandon t).frames t').length
          rw [hFrames]
          exact hHeeding.threads t' p hLive

theorem heeding_of_reaches
    (hKeeps : B.Keeps holds keep steady instant trusted)
    (hHeeding : Heeding holds keep steady instant trusted w)
    (hReach : B.machine.Reaches ok w w') :
    Heeding holds keep steady instant trusted w' :=
  hReach.invariant hHeeding
    (fun _ _ _ hBefore _ hNext =>
      (heeding_of_next hKeeps hBefore hNext).1)

omit [DecidableEq κ] in
/- A system at rest. -/
theorem heeding_of_quiet
    {d : δ}
    (hQuiet : w.shared = Store.quiet d)
    (hHolds : holds d)
    (hThreads :
      ∀ t p, w.threads t = .live p →
        p.Behaves (steady t) (instant t) trusted 0
          (fun _ => True) 0) :
    Heeding holds keep steady instant trusted w where
  committed := by
    rw [hQuiet]
    exact hHolds
  calm := by
    intro t
    rw [hQuiet]
    exact calm_nil
  threads := by
    rw [hQuiet]
    exact hThreads

/- A relation that the changes of all connections keep. -/
theorem some_keep_of_reaches
    (kept : δ → δ → Prop)
    (hKeeps : B.Keeps holds keep steady instant trusted)
    (hHeeding : Heeding holds keep steady instant trusted w)
    (hRefl : ∀ d, kept d d)
    (hTrans :
      ∀ d d' d'', kept d d' → kept d' d'' → kept d d'')
    (hEach : ∀ t d d', keep t d d' → kept d d')
    (hReach : B.machine.Reaches ok w w') :
    kept w.shared.committed w'.shared.committed := by
  induction hReach with
  | refl => exact hRefl _
  | tail hBefore hStep ih =>
      rcases hStep with ⟨e, _, hNext⟩
      have hHere :=
        heeding_of_reaches hKeeps hHeeding hBefore
      apply hTrans _ _ _ ih
      exact
        hEach _ _ _
          (heeding_of_next hKeeps hHere hNext).2

end Backend

end Relational
