import SiteAnalysis.Relational.Steps

/-
  This file proves that a value that was drawn fresh and has
  been replaced never returns.

  A connection can only store a value that was stored before
  or that it has drawn itself, and no value is drawn twice.
  A value that is stored has left the hands of the connection
  that drew it, so that nobody can store it again once it has
  been replaced.

  Key definitions include:
    * `Freshness`
    * `Regime.Frugal`
    * `Freshness.Spent`

  Key theorems include:
    * `Regime.Frugal.spent_of_moves`
    * `Regime.Frugal.gone_of_reaches`
-/

------------------------------------------------------------
-- Drawn Values
------------------------------------------------------------

namespace Relational

open Concurrency

/-
  The values that the data stores, those that have ever been
  drawn, and those that are in the hands of a connection.
-/
structure Freshness (δ N V : Type) where
  stored : δ → V → Prop
  drawn : δ → V → Prop
  mine : N → V → Prop

/- The value has been drawn, and no connection has it. -/
def Freshness.Spent
    {δ N V : Type}
    (F : Freshness δ N V)
    (v : V)
    (d : δ)
    (ns : Tid → N) : Prop :=
  F.drawn d v ∧ ∀ t, ¬ F.mine (ns t) v

/-
  The change forgets no drawn value, and stores none but
  those that were stored before or are in the hands of a
  connection of which `n` is noted.
-/
structure Freshness.Allows
    {δ N V : Type}
    (F : Freshness δ N V)
    (n : N)
    (d d' : δ) : Prop where
  stored : ∀ v, F.stored d' v → F.stored d v ∨ F.mine n v
  drawn : ∀ v, F.drawn d v → F.drawn d' v

theorem Freshness.allows_refl
    {δ N V : Type}
    (F : Freshness δ N V)
    (n : N)
    (d : δ) : F.Allows n d d where
  stored := fun _ hStored => Or.inl hStored
  drawn := fun _ hDrawn => hDrawn

namespace Regime

variable {δ κ φ Ω N V Q₀ : Type} {A : Q₀ → Type}
variable {ρ ε α : Type} {B : Backend δ κ Q₀ A ρ ε}
variable [DecidableEq κ]

/-
  Under the regime connections only store what they have
  drawn, every frame and every statement outside a
  transaction, and only parties outside the database give out
  values, each of them new.
-/
structure Frugal
    (R : Regime B α φ Ω N)
    (F : Freshness δ N V) : Prop where
  inv :
    ∀ d ns live, R.inv d ns live →
      ∀ v, F.stored d v → F.Spent v d ns
  frames :
    ∀ l o, R.shape l (some o) → ∀ fr ∈ l.session.frames,
      ∀ d, F.Allows l.note d (fr.pending d)
  auto :
    ∀ l q, R.shape l (some (.query q)) →
      l.session.frames = [] → ∀ d a lock f,
        B.plan q d = .done a lock f →
          F.Allows l.note d (f d)
  reply :
    ∀ q x d a d', B.reply q x d = some (a, d') →
      ∀ n, F.Allows n d d'
  noteReply :
    ∀ t q x d a d' n v, B.reply q x d = some (a, d') →
      F.mine (R.note t q a d' n) v →
        F.mine n v ∨ ¬ F.drawn d v
  notePlan :
    ∀ t q d a lock f d' n v, B.plan q d = .done a lock f →
      F.mine (R.note t q a d' n) v → F.mine n v
  noteError :
    ∀ q n v, F.mine (R.noteError q n) v → F.mine n v
  noteCommit :
    ∀ t d n v, F.mine (R.noteCommit t d n) v → F.mine n v
  noteLost :
    ∀ n v, F.mine (R.noteLost n) v → F.mine n v

variable {R : Regime B α φ Ω N} {F : Freshness δ N V}

/-
  What an operation of a connection makes of the committed
  data and of its note.
-/
structure Frugal.Turns
    (F : Freshness δ N V)
    (d d' : δ)
    (n n' : N) : Prop where
  allows : F.Allows n d d'
  mine : ∀ v, F.mine n' v → F.mine n v ∨ ¬ F.drawn d v

/- A query leaves a note of what it has drawn. -/
theorem Frugal.turns_of_query
    (hFrugal : R.Frugal F)
    {t : Tid}
    {q : Q₀}
    {c : Choice ε ρ}
    {s s' : Store δ κ}
    {r : Except ε (A q)}
    {l : Local δ κ φ Ω N}
    (hShape : R.shape l (some (.query q)))
    (hFrames : l.session.frames = s.frames t)
    (hAnswered : B.Answered t q s c r s') :
    Turns F s.committed s'.committed l.note
      (R.noteQuery t q s'.committed l.note r) := by
  rcases committed_of_answered hAnswered with
    ⟨hSame, ⟨e, rfl⟩ | ⟨d, a, lock, f, hPlan, rfl⟩⟩ |
      ⟨x, a, hReply, rfl⟩ |
        ⟨a, lock, f, hAuto, hPlan, hSame, rfl⟩
  · refine ⟨?_, ?_⟩
    · rw [hSame]
      exact F.allows_refl _ _
    · intro v hMine
      exact Or.inl (hFrugal.noteError q l.note v hMine)
  · refine ⟨?_, ?_⟩
    · rw [hSame]
      exact F.allows_refl _ _
    · intro v hMine
      exact
        Or.inl
          (hFrugal.notePlan t q d a lock f _ l.note v hPlan
            hMine)
  · refine ⟨hFrugal.reply q x _ a _ hReply l.note, ?_⟩
    intro v hMine
    exact hFrugal.noteReply t q x _ a _ l.note v hReply hMine
  · refine ⟨?_, ?_⟩
    · rw [hSame]
      exact
        hFrugal.auto l q hShape (hFrames.trans hAuto) _ a lock
          f hPlan
    · intro v hMine
      exact
        Or.inl
          (hFrugal.notePlan t q _ a lock f _ l.note v hPlan
            hMine)

/- So does every operation. -/
theorem Frugal.turns_of_exec
    (hFrugal : R.Frugal F)
    {t : Tid}
    {o : TxOp Q₀}
    {c : Choice ε ρ}
    {s s' : Store δ κ}
    {r : Except ε (TxOp.Res A o)}
    {l : Local δ κ φ Ω N}
    (hShape : R.shape l (some o))
    (hFrames : l.session.frames = s.frames t)
    (hExec : B.machine.exec t o c s = some (r, s')) :
    Turns F s.committed s'.committed l.note
      (R.noteAfter t s s'.committed l.note o r) := by
  have hStays :
      ∀ {s₁ : Store δ κ} {n : N},
        s₁.committed = s.committed → n = l.note →
          Turns F s.committed s₁.committed l.note n := by
    rintro s₁ n hSame rfl
    refine ⟨?_, fun v hMine => Or.inl hMine⟩
    rw [hSame]
    exact F.allows_refl _ _
  cases o with
  | query q =>
      exact
        hFrugal.turns_of_query hShape hFrames
          (Backend.answered_of_exec hExec)
  | begin =>
      cases c with
      | reply x => cases hExec
      | fault e =>
          cases hExec
          exact hStays rfl rfl
      | proceed =>
          cases hExec
          exact hStays Store.private_begin.committed rfl
  | rollback =>
      cases c with
      | reply x => cases hExec
      | fault e =>
          cases hExec
          exact hStays Store.private_rollback.committed rfl
      | proceed =>
          cases hExec
          exact hStays Store.private_rollback.committed rfl
  | commit =>
      cases c with
      | reply x => cases hExec
      | fault e =>
          cases hExec
          exact hStays Store.private_rollback.committed rfl
      | proceed =>
          simp only [Backend.machine, Store.commit] at hExec
          split at hExec
          · rename_i hNone
            cases hExec
            apply hStays rfl
            simp [noteAfter, noteCommitted, hNone]
          · rename_i fr hOne
            split at hExec
            · cases hExec
              exact
                hStays Store.private_rollback.committed rfl
            · cases hExec
              have hMem : fr ∈ l.session.frames := by
                rw [hFrames, hOne]
                exact List.mem_cons_self
              refine
                ⟨hFrugal.frames l .commit hShape fr hMem _,
                  ?_⟩
              intro v hMine
              left
              apply
                hFrugal.noteCommit t
                  (s.publish t fr).committed
              simpa [noteAfter, noteCommitted, hOne] using
                hMine
          · rename_i fr outer rest hMany
            split at hExec
            · cases hExec
              exact
                hStays Store.private_rollback.committed rfl
            · cases hExec
              apply hStays rfl
              simp [noteAfter, noteCommitted, hMany]

------------------------------------------------------------
-- Runs
------------------------------------------------------------

variable {w v₁ v₂ v₃ : World (Store δ κ) (TxOp Q₀)
  (TxOp.Res A) ε α}
variable {d : δ} {ns : Tid → N}
variable {Qs : Tid → α → Local δ κ φ Ω N → Prop}
variable {Es : Tid → ε → Local δ κ φ Ω N → Prop}
variable {ls : Tid → Local δ κ φ Ω N}

/-
  A move keeps a value spent, and does not store it if it was
  not stored.
-/
theorem Frugal.spent_of_moves
    (hFrugal : R.Frugal F)
    (hVerified : R.Verified Qs Es d ns w)
    {v : V}
    {x y :
      World (Store δ κ) (TxOp Q₀) (TxOp.Res A) ε α ×
        (Tid → Local δ κ φ Ω N)}
    (hSound : R.discipline.Sound Qs Es x.1 x.2)
    (hMoves : R.discipline.Moves x y)
    (hSpent :
      F.Spent v x.1.shared.committed
        (fun t => (x.2 t).note)) :
    F.Spent v y.1.shared.committed
        (fun t => (y.2 t).note) ∧
      (F.stored y.1.shared.committed v →
        F.stored x.1.shared.committed v) := by
  cases hMoves with
  | @step v₁ ls t c o k r s hThread hOk hExec =>
      have hBefore :=
        hVerified.before_step hSound hThread
      have hTurns :=
        hFrugal.turns_of_exec hBefore.1
          (congrArg Session.frames hBefore.2) hExec
      refine ⟨⟨hTurns.allows.drawn v hSpent.1, ?_⟩, ?_⟩
      · intro t' hMine
        change
          F.mine
            (Function.update ls t
              (R.discipline.next t o r v₁.shared s (ls t))
              t').note
            v at hMine
        by_cases hSame : t' = t
        · subst hSame
          rw [Function.update_self] at hMine
          rcases hTurns.mine v hMine with hOld | hNew
          · exact hSpent.2 t' hOld
          · exact hNew hSpent.1
        · rw [Function.update_of_ne hSame] at hMine
          exact hSpent.2 t' hMine
      · intro hStored
        rcases hTurns.allows.stored v hStored with
          hOld | hMine
        · exact hOld
        · exact absurd hMine (hSpent.2 t)
  | @lose v₁ ls t o k hThread hOk =>
      have hCommitted :
          (v₁.shared.abandon t).committed =
            v₁.shared.committed :=
        Store.private_abandon.committed
      refine ⟨⟨?_, ?_⟩, ?_⟩
      · change F.drawn (v₁.shared.abandon t).committed v
        rw [hCommitted]
        exact hSpent.1
      · intro t' hMine
        change
          F.mine
            (Function.update ls t
              (R.discipline.lose t v₁.shared
                (B.machine.abandon t v₁.shared) (ls t))
              t').note
            v at hMine
        by_cases hSame : t' = t
        · subst hSame
          rw [Function.update_self] at hMine
          exact hSpent.2 t' (hFrugal.noteLost _ v hMine)
        · rw [Function.update_of_ne hSame] at hMine
          exact hSpent.2 t' hMine
      · intro hStored
        rw [← hCommitted]
        exact hStored

/- A value that is stored is spent. -/
theorem Frugal.spent_of_stored
    (hFrugal : R.Frugal F)
    {v : V}
    (hSound : R.discipline.Sound Qs Es v₁ ls)
    (hStored : F.stored v₁.shared.committed v) :
    F.Spent v v₁.shared.committed
      (fun t => (ls t).note) :=
  hFrugal.inv _ _ _ hSound.inv.1 v hStored

/- A spent value that is not stored stays so. -/
theorem Frugal.absent_of_reaches
    (hFrugal : R.Frugal F)
    (hVerified : R.Verified Qs Es d ns w)
    {v : V}
    (hSound : R.discipline.Sound Qs Es v₁ ls)
    (hSpent :
      F.Spent v v₁.shared.committed (fun t => (ls t).note))
    (hAbsent : ¬ F.stored v₁.shared.committed v)
    (hReach : B.machine.Reaches R.ok v₁ v₂) :
    ∃ ls', R.discipline.Sound Qs Es v₂ ls' ∧
      F.Spent v v₂.shared.committed
          (fun t => (ls' t).note) ∧
        ¬ F.stored v₂.shared.committed v := by
  apply
    hVerified.keeps_of_reaches
      (I := fun x =>
        F.Spent v x.1.shared.committed
            (fun t => (x.2 t).note) ∧
          ¬ F.stored x.1.shared.committed v)
      _ hSound ⟨hSpent, hAbsent⟩ hReach
  rintro x y hSoundX _ hMoves ⟨hSpentX, hAbsentX⟩
  have hNext :=
    hFrugal.spent_of_moves hVerified hSoundX hMoves hSpentX
  exact ⟨hNext.1, fun hStored => hAbsentX (hNext.2 hStored)⟩

/- A value that was stored is spent ever after. -/
theorem Frugal.spent_of_reaches
    (hFrugal : R.Frugal F)
    (hVerified : R.Verified Qs Es d ns w)
    {v : V}
    (hReach₁ : B.machine.Reaches R.ok w v₁)
    (hReach₂ : B.machine.Reaches R.ok v₁ v₂)
    (hStored : F.stored v₁.shared.committed v) :
    ∃ ls, R.discipline.Sound Qs Es v₂ ls ∧
      F.Spent v v₂.shared.committed
          (fun t => (ls t).note) := by
  rcases
    Discipline.sound_of_reaches hVerified.final
      hVerified.losable hVerified.sound hReach₁ with
    ⟨ls₁, hSound₁, _⟩
  rcases
    hVerified.keeps_of_reaches
      (I := fun x =>
        F.Spent v x.1.shared.committed
          (fun t => (x.2 t).note))
      (fun x y hSoundX _ hMoves hSpent =>
        (hFrugal.spent_of_moves hVerified hSoundX hMoves
          hSpent).1)
      hSound₁ (hFrugal.spent_of_stored hSound₁ hStored)
      hReach₂ with
    ⟨ls₂, hSound₂, hSpent₂⟩
  exact ⟨ls₂, hSound₂, hSpent₂⟩

/- A value that has been replaced never returns. -/
theorem Frugal.gone_of_reaches
    (hFrugal : R.Frugal F)
    (hVerified : R.Verified Qs Es d ns w)
    {v : V}
    (hReach₁ : B.machine.Reaches R.ok w v₁)
    (hReach₂ : B.machine.Reaches R.ok v₁ v₂)
    (hReach₃ : B.machine.Reaches R.ok v₂ v₃)
    (hStored : F.stored v₁.shared.committed v)
    (hAbsent : ¬ F.stored v₂.shared.committed v) :
    ¬ F.stored v₃.shared.committed v := by
  rcases
    hFrugal.spent_of_reaches hVerified hReach₁ hReach₂
      hStored with
    ⟨ls₂, hSound₂, hSpent₂⟩
  rcases
    hFrugal.absent_of_reaches hVerified hSound₂ hSpent₂
      hAbsent hReach₃ with
    ⟨_, _, _, hGone⟩
  exact hGone

end Regime

end Relational
