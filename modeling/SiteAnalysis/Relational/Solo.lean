import SiteAnalysis.Relational.Backend

/-
  This file defines the runs of one connection that has the
  store to itself.

  No operation fails but through the database's own verdict,
  and no lock is held by another connection.  What such a
  connection does is determined by the committed data and the
  writes that are pending in its frames.

  Key definitions include:
    * `undisturbed`
    * `Backend.alone`
    * `Store.At`
    * `Store.Ready`
    * `Verdict.Raises`

  Key theorems include:
    * `Backend.ends_done`
    * `Backend.ends_atomic`
    * `Backend.ends_savepoint`
-/

------------------------------------------------------------
-- Undisturbed Connections
------------------------------------------------------------

namespace Relational

open Concurrency

/-
  The choices of an undisturbed environment; `answers` gives
  the replies of parties outside the database.
-/
def undisturbed
    {Q ρ ε : Type}
    (answers : Q → Option ρ) : TxOp Q → Choice ε ρ
| .query q =>
    match answers q with
    | some r => .reply r
    | none => .proceed
| _ => .proceed

/- The machine for an undisturbed connection. -/
def Backend.alone
    {δ κ Q : Type}
    {A : Q → Type}
    {ρ ε : Type}
    [DecidableEq κ]
    (B : Backend δ κ Q A ρ ε)
    (t : Tid)
    (answers : Q → Option ρ)
    (o : TxOp Q)
    (s : Store δ κ) :
    Option (Except ε (TxOp.Res A o) × Store δ κ) :=
  B.machine.exec t o (undisturbed answers o) s

namespace Store

variable {δ κ : Type}

/-
  The committed data, the writes pending in the frames,
  innermost first, and no lock in another's hands.  Only the
  innermost frame may be broken.
-/
structure At
    (t : Tid)
    (d : δ)
    (pending : List (δ → δ))
    (s : Store δ κ) : Prop where
  committed : s.committed = d
  pending : (s.frames t).map Frame.pending = pending
  outer : ∀ fr ∈ (s.frames t).tail, fr.broken = false
  free : ∀ k, s.Available t k

/- The same with the innermost frame intact. -/
structure Ready
    (t : Tid)
    (d : δ)
    (pending : List (δ → δ))
    (s : Store δ κ) : Prop where
  at' : s.At t d pending
  intact : s.broken t = false

variable {t : Tid} {d : δ} {s : Store δ κ}
variable {p : δ → δ} {ps : List (δ → δ)}

theorem ready_quiet :
    (quiet d : Store δ κ).Ready t d [] where
  at' :=
    { committed := rfl
      pending := rfl
      outer := fun _ hMem => by cases hMem
      free := fun _ => Or.inl rfl }
  intact := rfl

theorem At.frames_cons
    (hAt : s.At t d (p :: ps)) :
    ∃ fr outer, s.frames t = fr :: outer ∧
      fr.pending = p ∧
        outer.map Frame.pending = ps ∧
          ∀ fr' ∈ outer, fr'.broken = false := by
  have hPending := hAt.pending
  have hOuter := hAt.outer
  cases hFrames : s.frames t with
  | nil =>
      rw [hFrames] at hPending
      cases hPending
  | cons fr outer =>
      rw [hFrames] at hPending hOuter
      have hEq := List.cons.inj hPending
      exact ⟨fr, outer, rfl, hEq.1, hEq.2, hOuter⟩

theorem At.frames_nil
    (hAt : s.At t d []) : s.frames t = [] :=
  List.map_eq_nil_iff.mp hAt.pending

/- With no frame open nothing can be broken. -/
theorem At.ready
    (hAt : s.At t d []) : s.Ready t d [] where
  at' := hAt
  intact := by simp [broken, hAt.frames_nil]

/- What an undisturbed connection reads. -/
theorem At.view
    (hAt : s.At t d ps) :
    s.view t = ps.foldr (fun p d => p d) d := by
  rw [Store.view, ← hAt.pending, ← hAt.committed,
    List.foldr_map]

theorem available_release
    (gone : κ → Bool)
    {k : κ}
    (hFree : s.Available t k) :
    (s.release t gone).Available t k := by
  unfold Available release
  simp only
  split
  · exact Or.inl rfl
  · exact hFree

theorem At.fail
    (hAt : s.At t d ps) :
    (s.fail t).At t d ps := by
  unfold Store.fail
  split
  · exact hAt
  · rename_i fr outer hFrames
    have hPending := hAt.pending
    have hOuter := hAt.outer
    rw [hFrames] at hPending hOuter
    refine ⟨hAt.committed, ?_, ?_, hAt.free⟩
    · simpa [setFrames] using hPending
    · simpa [setFrames] using hOuter

theorem Ready.begin
    (hReady : s.Ready t d ps) :
    (s.begin t).Ready t d (id :: ps) := by
  have hAt := hReady.at'
  refine ⟨⟨hAt.committed, ?_, ?_, hAt.free⟩, ?_⟩
  · simp [Store.begin, setFrames, hAt.pending, Frame.fresh]
  · simp only [Store.begin, setFrames, Function.update_self,
      List.tail_cons]
    intro fr hMem
    have hIntact := hReady.intact
    have hOuter := hAt.outer
    cases hFrames : s.frames t with
    | nil =>
        rw [hFrames] at hMem
        cases hMem
    | cons head outer =>
        rw [hFrames] at hMem hOuter
        simp only [Store.broken, hFrames] at hIntact
        rcases List.mem_cons.mp hMem with hHead | hTail
        · rw [hHead]
          exact hIntact
        · exact hOuter fr hTail
  · simp [Store.broken, Store.begin, setFrames, Frame.fresh]

theorem At.rollback
    [DecidableEq κ]
    (hAt : s.At t d (p :: ps)) :
    (s.rollback t).Ready t d ps := by
  rcases hAt.frames_cons with
    ⟨fr, outer, hFrames, _, hPending, hIntact⟩
  unfold Store.rollback
  cases outer with
  | nil =>
      simp only [hFrames]
      refine
        ⟨⟨hAt.committed, ?_, ?_,
            fun k => available_release (fun _ => true)
              (hAt.free k)⟩, ?_⟩
      · simpa [setFrames] using hPending
      · simp [setFrames]
      · simp [Store.broken, setFrames]
  | cons fr' rest =>
      simp only [hFrames]
      refine
        ⟨⟨hAt.committed, ?_, ?_,
            fun k => available_release
              (fun k => decide (k ∈ fr.locks))
              (hAt.free k)⟩, ?_⟩
      · simpa [setFrames] using hPending
      · simp only [setFrames, Function.update_self,
          List.tail_cons]
        intro fr'' hMem
        exact hIntact fr'' (List.mem_cons_of_mem _ hMem)
      · simpa [Store.broken, setFrames] using
          hIntact fr' List.mem_cons_self

theorem Ready.acquire
    [DecidableEq κ]
    {k : κ}
    (hReady : s.Ready t d ps) :
    (s.acquire t k).Ready t d ps := by
  have hAt := hReady.at'
  have hIntact := hReady.intact
  unfold Store.acquire
  split
  · exact hReady
  · rename_i fr outer hFrames
    split
    · exact hReady
    · have hPending := hAt.pending
      have hOuter := hAt.outer
      rw [hFrames] at hPending hOuter
      simp only [Store.broken, hFrames] at hIntact
      refine ⟨⟨hAt.committed, ?_, ?_, ?_⟩, ?_⟩
      · simpa [setFrames] using hPending
      · simpa [setFrames] using hOuter
      · intro k'
        by_cases hk : k' = k
        · subst hk
          exact Or.inr (Function.update_self _ _ _)
        · have hOld := hAt.free k'
          simpa [Available, setFrames, hk] using hOld
      · simpa [Store.broken, setFrames] using hIntact

/- A write outside a transaction. -/
theorem Ready.write_nil
    {f : δ → δ}
    (hReady : s.Ready t d []) :
    (s.write t f).Ready t (f d) [] := by
  have hFrames := hReady.at'.frames_nil
  have hWrite :
      s.write t f = { s with committed := f s.committed } := by
    simp [Store.write, hFrames]
  rw [hWrite]
  refine
    ⟨⟨congrArg f hReady.at'.committed, hReady.at'.pending,
        hReady.at'.outer, hReady.at'.free⟩,
      hReady.intact⟩

/- A write inside a transaction. -/
theorem Ready.write_cons
    {f : δ → δ}
    (hReady : s.Ready t d (p :: ps)) :
    (s.write t f).Ready t d (f ∘ p :: ps) := by
  rcases hReady.at'.frames_cons with
    ⟨fr, outer, hFrames, hHead, hPending, hIntact⟩
  have hBroken := hReady.intact
  simp only [Store.broken, hFrames] at hBroken
  unfold Store.write
  simp only [hFrames]
  refine
    ⟨⟨hReady.at'.committed, ?_, ?_, hReady.at'.free⟩, ?_⟩
  · simp [setFrames, hPending, hHead]
  · simpa [setFrames] using hIntact
  · simpa [Store.broken, setFrames] using hBroken

end Store

------------------------------------------------------------
-- Rules
------------------------------------------------------------

/- The statement comes back with an exception. -/
def Verdict.Raises
    {δ κ ε α : Type}
    (v : Verdict δ κ ε α) : Prop :=
  (∃ e, v = .refuse e) ∨ ∃ e, v = .miss e

/- A write is done exactly when its values are accepted. -/
theorem Verdict.writeIf_dichotomy
    {δ κ ε : Type}
    (check : Except ε Unit)
    (change : δ → δ) :
    check = .ok () ∧
        (writeIf check change : Verdict δ κ ε Unit) =
          .done () none change ∨
      check ≠ .ok () ∧
        (writeIf check change : Verdict δ κ ε Unit).Raises :=
    by
  cases check with
  | ok u => exact Or.inl ⟨rfl, rfl⟩
  | error e =>
      exact
        Or.inr
          ⟨(fun hOk => by cases hOk), Or.inl ⟨e, rfl⟩⟩

namespace Backend

variable {δ κ Q₀ : Type} {A : Q₀ → Type} {ρ ε α : Type}
variable [DecidableEq κ]
variable {B : Backend δ κ Q₀ A ρ ε} {t : Tid}
variable {answers : Q₀ → Option ρ}
variable {d : δ} {s : Store δ κ}
variable {p : δ → δ} {ps : List (δ → δ)}

/- The writes pending after one more write. -/
def pushWrite
    (f : δ → δ) : List (δ → δ) → List (δ → δ)
| [] => []
| p :: ps => f ∘ p :: ps

/- The committed data after one more write. -/
def pushCommitted
    (f : δ → δ)
    (d : δ) : List (δ → δ) → δ
| [] => f d
| _ :: _ => d

theorem alone_proceed
    {q : Q₀}
    (hInside : answers q = none) :
    B.alone t answers (.query q) s = B.answer t q s := by
  simp only [alone, undisturbed, hInside]
  rfl

/- A statement that is done. -/
theorem ends_done
    {q : Q₀}
    {a : A q}
    {lock : Option κ}
    {f : δ → δ}
    {Q : A q → Store δ κ → Prop}
    {E : ε → Store δ κ → Prop}
    (hReady : s.Ready t d ps)
    (hInside : answers q = none)
    (hPlan :
      B.plan q (ps.foldr (fun p d => p d) d) =
        .done a lock f)
    (hDone :
      ∀ s' : Store δ κ,
        s'.Ready t (pushCommitted f d ps)
            (pushWrite f ps) →
          Q a s') :
    (execute q).Ends (B.alone t answers) Q E s := by
  have hWritten :
      ∀ s' : Store δ κ, s'.Ready t d ps →
        (s'.write t f).Ready t (pushCommitted f d ps)
          (pushWrite f ps) := by
    intro s' hReady'
    cases ps with
    | nil => exact hReady'.write_nil
    | cons p ps => exact hReady'.write_cons
  have hExec :
      ∃ s', B.alone t answers (.query q) s =
          some (.ok a, s') ∧
        s'.Ready t (pushCommitted f d ps)
          (pushWrite f ps) := by
    rw [alone_proceed hInside, answer, hReady.intact,
      hReady.at'.view, hPlan]
    cases lock with
    | none => exact ⟨_, rfl, hWritten s hReady⟩
    | some k =>
        simp only [Bool.false_eq_true, if_false,
          hReady.at'.free k, if_true]
        exact ⟨_, rfl, hWritten _ hReady.acquire⟩
  rcases hExec with ⟨s', hAlone, hReady'⟩
  exact Prog.ends_perform hAlone (hDone s' hReady')

/- A statement that the database refuses. -/
theorem ends_refuse
    {q : Q₀}
    {e : ε}
    {Q : A q → Store δ κ → Prop}
    {E : ε → Store δ κ → Prop}
    (hReady : s.Ready t d ps)
    (hInside : answers q = none)
    (hPlan :
      B.plan q (ps.foldr (fun p d => p d) d) = .refuse e)
    (hRaise :
      ∀ s' : Store δ κ, s'.At t d ps → E e s') :
    (execute q).Ends (B.alone t answers) Q E s := by
  have hExec :
      B.alone t answers (.query q) s =
        some (.error e, s.fail t) := by
    rw [alone_proceed hInside, answer, hReady.intact,
      hReady.at'.view, hPlan]
    rfl
  exact
    Prog.ends_perform hExec (hRaise _ hReady.at'.fail)

/- A statement that the client library gives up on. -/
theorem ends_miss
    {q : Q₀}
    {e : ε}
    {Q : A q → Store δ κ → Prop}
    {E : ε → Store δ κ → Prop}
    (hReady : s.Ready t d ps)
    (hInside : answers q = none)
    (hPlan :
      B.plan q (ps.foldr (fun p d => p d) d) = .miss e)
    (hRaise :
      ∀ s' : Store δ κ, s'.Ready t d ps → E e s') :
    (execute q).Ends (B.alone t answers) Q E s := by
  have hExec :
      B.alone t answers (.query q) s =
        some (.error e, s) := by
    rw [alone_proceed hInside, answer, hReady.intact,
      hReady.at'.view, hPlan]
    rfl
  exact Prog.ends_perform hExec (hRaise _ hReady)

/- A statement that raises one way or the other. -/
theorem ends_raises
    {q : Q₀}
    {Q : A q → Store δ κ → Prop}
    {E : ε → Store δ κ → Prop}
    (hReady : s.Ready t d ps)
    (hInside : answers q = none)
    (hPlan : (B.plan q (ps.foldr (fun p d => p d) d)).Raises)
    (hRaise :
      ∀ (e : ε) (s' : Store δ κ), s'.At t d ps → E e s') :
    (execute q).Ends (B.alone t answers) Q E s := by
  rcases hPlan with ⟨e, hRefuse⟩ | ⟨e, hMiss⟩
  · exact ends_refuse hReady hInside hRefuse (hRaise e)
  · apply ends_miss hReady hInside hMiss
    intro s' hReady'
    exact hRaise e s' hReady'.at'

/- A party outside the database answers. -/
theorem ends_reply
    {q : Q₀}
    {r : ρ}
    {a : A q}
    {d' : δ}
    {Q : A q → Store δ κ → Prop}
    {E : ε → Store δ κ → Prop}
    (hReady : s.Ready t d ps)
    (hOutside : answers q = some r)
    (hReply : B.reply q r d = some (a, d'))
    (hDone :
      ∀ s' : Store δ κ, s'.Ready t d' ps → Q a s') :
    (execute q).Ends (B.alone t answers) Q E s := by
  have hExec :
      B.alone t answers (.query q) s =
        some (.ok a, { s with committed := d' }) := by
    simp only [alone, undisturbed, hOutside, machine,
      hReady.at'.committed, hReply]
  apply Prog.ends_perform hExec
  apply hDone
  exact
    ⟨⟨rfl, hReady.at'.pending, hReady.at'.outer,
        hReady.at'.free⟩, hReady.intact⟩

/- A transaction of its own. -/
theorem ends_atomic
    {body : Prog (TxOp Q₀) (TxOp.Res A) ε α}
    {Q : α → Store δ κ → Prop}
    {E : ε → Store δ κ → Prop}
    (hReady : s.Ready t d [])
    (hBody :
      ∀ s' : Store δ κ, s'.Ready t d [id] →
        body.Ends (B.alone t answers)
          (fun a s₁ => ∃ p, s₁.Ready t d [p] ∧
            ∀ s₂ : Store δ κ, s₂.Ready t (p d) [] → Q a s₂)
          (fun e s₁ => ∃ p, s₁.At t d [p] ∧
            ∀ s₂ : Store δ κ, s₂.Ready t d [] → E e s₂)
          s') :
    (atomic body).Ends (B.alone t answers) Q E s := by
  refine ⟨.ok (), s.begin t, rfl, ?_⟩
  apply Prog.ends_handle
  apply Prog.ends_mono (hBody _ hReady.begin)
  · rintro a s₁ ⟨p, hReady₁, hDone⟩
    rcases hReady₁.at'.frames_cons with
      ⟨fr, outer, hFrames, hHead, hOuter, _⟩
    have hNil : outer = [] := List.map_eq_nil_iff.mp hOuter
    subst hNil
    have hIntact := hReady₁.intact
    simp only [Store.broken, hFrames] at hIntact
    refine ⟨.ok (), s₁.publish t fr, ?_, ?_⟩
    · simp only [alone, undisturbed, machine, Store.commit, hFrames,
        hIntact, Bool.false_eq_true, if_false]
      rfl
    · apply hDone
      refine ⟨⟨?_, ?_, ?_, ?_⟩, ?_⟩
      · rw [← hHead, ← hReady₁.at'.committed]
        rfl
      · simp [Store.publish, Store.setFrames]
      · simp [Store.publish, Store.setFrames]
      · intro k
        exact
          Store.available_release (fun _ => true)
            (hReady₁.at'.free k)
      · simp [Store.broken, Store.publish, Store.setFrames]
  · rintro e s₁ ⟨p, hAt₁, hRaise⟩
    exact
      ⟨.ok (), s₁.rollback t, rfl,
        hRaise _ hAt₁.rollback⟩

/- A savepoint. -/
theorem ends_savepoint
    {body : Prog (TxOp Q₀) (TxOp.Res A) ε α}
    {Q : α → Store δ κ → Prop}
    {E : ε → Store δ κ → Prop}
    (hReady : s.Ready t d (p :: ps))
    (hBody :
      ∀ s' : Store δ κ, s'.Ready t d (id :: p :: ps) →
        body.Ends (B.alone t answers)
          (fun a s₁ => ∃ f, s₁.Ready t d (f :: p :: ps) ∧
            ∀ s₂ : Store δ κ,
              s₂.Ready t d (f ∘ p :: ps) → Q a s₂)
          (fun e s₁ => ∃ f, s₁.At t d (f :: p :: ps) ∧
            ∀ s₂ : Store δ κ,
              s₂.Ready t d (p :: ps) → E e s₂)
          s') :
    (atomic body).Ends (B.alone t answers) Q E s := by
  refine ⟨.ok (), s.begin t, rfl, ?_⟩
  apply Prog.ends_handle
  apply Prog.ends_mono (hBody _ hReady.begin)
  · rintro a s₁ ⟨f, hReady₁, hDone⟩
    rcases hReady₁.at'.frames_cons with
      ⟨fr, outer, hFrames, hHead, hOuter, hOuterIntact⟩
    cases outer with
    | nil => cases hOuter
    | cons fr' rest =>
        have hEq := List.cons.inj hOuter
        have hIntact := hReady₁.intact
        simp only [Store.broken, hFrames] at hIntact
        refine
          ⟨.ok (),
            s₁.setFrames t (fr'.absorb fr :: rest), ?_, ?_⟩
        · simp only [alone, undisturbed, machine, Store.commit, hFrames,
            hIntact, Bool.false_eq_true, if_false]
          rfl
        · apply hDone
          refine
            ⟨⟨hReady₁.at'.committed, ?_, ?_,
                hReady₁.at'.free⟩, ?_⟩
          · simp [Store.setFrames, Frame.absorb, hHead,
              hEq.1, hEq.2]
          · simp only [Store.setFrames,
              Function.update_self, List.tail_cons]
            intro fr'' hMem
            exact
              hOuterIntact fr''
                (List.mem_cons_of_mem _ hMem)
          · simpa [Store.broken, Store.setFrames,
              Frame.absorb] using
              hOuterIntact fr' List.mem_cons_self
  · rintro e s₁ ⟨f, hAt₁, hRaise⟩
    exact
      ⟨.ok (), s₁.rollback t, rfl,
        hRaise _ hAt₁.rollback⟩

end Backend

end Relational
