import SiteAnalysis.Concurrency.Interleaving

/-
  This file defines a proof rule for interleaved programs.

  A discipline annotates every thread with auxiliary data.
  It fixes how a thread's own steps update its annotation,
  an invariant that relates the shared state to all the
  annotations and to the threads still at work (a thread
  that ends never breaks it), what an annotation says about
  the next
  operation of its thread, and what every step of a thread
  guarantees to the others.  The weakest precondition of a
  program asks, for each of its operations, that the step
  keep the invariant and the guarantee; a run of programs
  that satisfy their preconditions then keeps both
  throughout.

  Key definitions include:
    * `Discipline`
    * `Discipline.Holds`
    * `Discipline.wp`
    * `Discipline.Sound`
    * `Discipline.Moves`

  Key theorems include:
    * `Discipline.wp_handle`
    * `Discipline.wp_mono`
    * `Discipline.sound_of_moves`
    * `Discipline.sound_of_reaches`
    * `Discipline.holds_of_reaches`
    * `Discipline.guar_of_reaches`
-/

------------------------------------------------------------
-- Disciplines
------------------------------------------------------------

namespace Concurrency

variable {σ χ Op : Type} {Res : Op → Type}
variable {ε α β Λ : Type}

/-
  `ok` is the condition on the events of a run, `inv` the
  invariant, which may speak of the threads that are still
  live, `shape` what an annotation says about the next
  operation of its thread, `guar` what a thread guarantees
  of its steps, and `next` and `lose` update the annotation
  of the thread that takes a step or is lost.
-/
structure Discipline
    (M : Machine σ χ Op Res ε)
    (α Λ : Type) where
  ok : World σ Op Res ε α → Event χ → Prop
  inv : σ → (Tid → Λ) → (Tid → Prop) → Prop
  antitone :
    ∀ s ls live live', (∀ t, live' t → live t) →
      inv s ls live → inv s ls live'
  shape : Λ → Option Op → Prop
  guar : Tid → σ → σ → Prop
  next :
    Tid → (o : Op) → Except ε (Res o) → σ → σ → Λ → Λ
  lose : Tid → σ → σ → Λ → Λ

namespace Discipline

variable {M : Machine σ χ Op Res ε}

/- The annotations fit the world. -/
def Holds
    (D : Discipline M α Λ)
    (w : World σ Op Res ε α)
    (ls : Tid → Λ) : Prop :=
  D.inv w.shared ls w.Live ∧
    ∀ t, D.shape (ls t) (w.threads t).head

/-
  The condition on the annotation of thread `t` under which
  every step of the program keeps the invariant and the
  guarantee, its return establishes `Q` and its raise
  establishes `E`.
-/
def wp
    (D : Discipline M α Λ)
    (t : Tid) :
    Prog Op Res ε β → (β → Λ → Prop) →
      (ε → Λ → Prop) → Λ → Prop
| .ret b, Q, _, l => Q b l
| .raise e, _, E, l => E e l
| .call o k, Q, E, l =>
    D.shape l (some o) ∧
      ∀ w ls c r s,
        D.Holds w ls → ls t = l →
          (w.threads t).head = some o →
            D.ok w (.step t c) →
              M.exec t o c w.shared = some (r, s) →
                D.inv s
                    (Function.update ls t
                      (D.next t o r w.shared s l))
                    w.Live ∧
                  D.guar t w.shared s ∧
                  wp D t (k r) Q E
                    (D.next t o r w.shared s l)

/- The loss of a thread keeps invariant and guarantee. -/
def Losable
    (D : Discipline M α Λ) : Prop :=
  ∀ w ls t,
    D.Holds w ls → (w.threads t).head ≠ none →
      D.ok w (.lose t) →
        D.inv (M.abandon t w.shared)
            (Function.update ls t
              (D.lose t w.shared (M.abandon t w.shared)
                (ls t)))
            (fun t' => t' ≠ t ∧ w.Live t') ∧
          D.guar t w.shared (M.abandon t w.shared) ∧
          D.shape
            (D.lose t w.shared (M.abandon t w.shared)
              (ls t)) none

------------------------------------------------------------
-- Rules
------------------------------------------------------------

variable {D : Discipline M α Λ} {t : Tid}

@[simp] theorem wp_ret
    (b : β)
    (Q : β → Λ → Prop)
    (E : ε → Λ → Prop)
    (l : Λ) :
    D.wp t (.ret b) Q E l ↔ Q b l := Iff.rfl

@[simp] theorem wp_raise
    (e : ε)
    (Q : β → Λ → Prop)
    (E : ε → Λ → Prop)
    (l : Λ) :
    D.wp t (.raise e) Q E l ↔ E e l := Iff.rfl

/- Postconditions can be weakened. -/
theorem wp_mono
    {p : Prog Op Res ε β}
    {Q Q' : β → Λ → Prop}
    {E E' : ε → Λ → Prop}
    {l : Λ}
    (hWp : D.wp t p Q E l)
    (hRet : ∀ b l, Q b l → Q' b l)
    (hRaise : ∀ e l, E e l → E' e l) :
    D.wp t p Q' E' l := by
  induction p generalizing l with
  | ret b => exact hRet b l hWp
  | raise e => exact hRaise e l hWp
  | call o k ih =>
      refine ⟨hWp.1, ?_⟩
      intro w ls c r s hHolds hAnn hHead hOk hExec
      have hStep :=
        hWp.2 w ls c r s hHolds hAnn hHead hOk hExec
      exact ⟨hStep.1, hStep.2.1, ih r hStep.2.2⟩

/- A continued program is verified part by part. -/
theorem wp_handle
    {γ : Type}
    {p : Prog Op Res ε γ}
    {f : γ → Prog Op Res ε β}
    {h : ε → Prog Op Res ε β}
    {Q : β → Λ → Prop}
    {E : ε → Λ → Prop}
    {l : Λ}
    (hWp :
      D.wp t p (fun c l => D.wp t (f c) Q E l)
        (fun e l => D.wp t (h e) Q E l) l) :
    D.wp t (p.handle f h) Q E l := by
  induction p generalizing l with
  | ret c => exact hWp
  | raise e => exact hWp
  | call o k ih =>
      refine ⟨hWp.1, ?_⟩
      intro w ls c r s hHolds hAnn hHead hOk hExec
      have hStep :=
        hWp.2 w ls c r s hHolds hAnn hHead hOk hExec
      exact ⟨hStep.1, hStep.2.1, ih r hStep.2.2⟩

/- The rule of sequential composition. -/
theorem wp_bind
    {γ : Type}
    {p : Prog Op Res ε γ}
    {f : γ → Prog Op Res ε β}
    {Q : β → Λ → Prop}
    {E : ε → Λ → Prop}
    {l : Λ}
    (hWp :
      D.wp t p (fun c l => D.wp t (f c) Q E l) E l) :
    D.wp t (p.bind f) Q E l :=
  wp_handle hWp

/- The rule of exception handlers. -/
theorem wp_tryCatch
    {p : Prog Op Res ε β}
    {h : ε → Prog Op Res ε β}
    {Q : β → Λ → Prop}
    {E : ε → Λ → Prop}
    {l : Λ}
    (hWp :
      D.wp t p Q (fun e l => D.wp t (h e) Q E l) l) :
    D.wp t (p.tryCatch h) Q E l :=
  wp_handle hWp

------------------------------------------------------------
-- Soundness
------------------------------------------------------------

/-
  Every thread of the world satisfies the precondition of
  what is left of its program.
-/
structure Sound
    (D : Discipline M α Λ)
    (Q : Tid → α → Λ → Prop)
    (E : Tid → ε → Λ → Prop)
    (w : World σ Op Res ε α)
    (ls : Tid → Λ) : Prop where
  inv : D.inv w.shared ls w.Live
  live :
    ∀ t p, w.threads t = .live p →
      D.wp t p (Q t) (E t) (ls t)
  lost :
    ∀ t, w.threads t = .lost → D.shape (ls t) none

/- The annotations of finished threads say so. -/
structure Final
    (D : Discipline M α Λ)
    (Q : Tid → α → Λ → Prop)
    (E : Tid → ε → Λ → Prop) : Prop where
  ret : ∀ t a l, Q t a l → D.shape l none
  raise : ∀ t e l, E t e l → D.shape l none

/- One event of the annotated world. -/
inductive Moves
    (D : Discipline M α Λ) :
    World σ Op Res ε α × (Tid → Λ) →
      World σ Op Res ε α × (Tid → Λ) → Prop
  | step
      {w : World σ Op Res ε α}
      {ls : Tid → Λ}
      {t : Tid}
      {c : χ}
      {o : Op}
      {k : Except ε (Res o) → Prog Op Res ε α}
      {r : Except ε (Res o)}
      {s : σ}
      (hThread : w.threads t = .live (.call o k))
      (hOk : D.ok w (.step t c))
      (hExec : M.exec t o c w.shared = some (r, s)) :
      Moves D (w, ls)
        (w.put s t (.live (k r)),
          Function.update ls t
            (D.next t o r w.shared s (ls t)))
  | lose
      {w : World σ Op Res ε α}
      {ls : Tid → Λ}
      {t : Tid}
      {o : Op}
      {k : Except ε (Res o) → Prog Op Res ε α}
      (hThread : w.threads t = .live (.call o k))
      (hOk : D.ok w (.lose t)) :
      Moves D (w, ls)
        (w.put (M.abandon t w.shared) t .lost,
          Function.update ls t
            (D.lose t w.shared (M.abandon t w.shared)
              (ls t)))

variable {Q : Tid → α → Λ → Prop}
variable {E : Tid → ε → Λ → Prop}

theorem Sound.holds
    {w : World σ Op Res ε α}
    {ls : Tid → Λ}
    (hFinal : D.Final Q E)
    (hSound : D.Sound Q E w ls) :
    D.Holds w ls := by
  refine ⟨hSound.inv, ?_⟩
  intro t
  cases hThread : w.threads t with
  | lost => exact hSound.lost t hThread
  | live p =>
      have hWp := hSound.live t p hThread
      cases p with
      | ret a => exact hFinal.ret t a _ hWp
      | raise e => exact hFinal.raise t e _ hWp
      | call o k => exact hWp.1

/- Replace one verified thread by another. -/
theorem Sound.put
    {w : World σ Op Res ε α}
    {ls : Tid → Λ}
    {s : σ}
    {t : Tid}
    {thread : Thread Op Res ε α}
    {l : Λ}
    {live : Tid → Prop}
    (hSound : D.Sound Q E w ls)
    (hInv : D.inv s (Function.update ls t l) live)
    (hStill :
      ∀ t', (w.put s t thread).Live t' → live t')
    (hLive :
      ∀ p, thread = .live p →
        D.wp t p (Q t) (E t) l)
    (hLost : thread = .lost → D.shape l none) :
    D.Sound Q E (w.put s t thread)
      (Function.update ls t l) := by
  constructor
  · exact D.antitone _ _ _ _ hStill hInv
  · intro t' p hThread
    by_cases hSame : t' = t
    · subst hSame
      rw [World.put_threads_self] at hThread
      simpa using hLive p hThread
    · rw [World.put_threads_of_ne _ _ _ hSame] at hThread
      simpa [hSame] using hSound.live t' p hThread
  · intro t' hThread
    by_cases hSame : t' = t
    · subst hSame
      rw [World.put_threads_self] at hThread
      simpa using hLost hThread
    · rw [World.put_threads_of_ne _ _ _ hSame] at hThread
      simpa [hSame] using hSound.lost t' hThread

/- One event keeps every thread verified. -/
theorem sound_of_moves
    {w w' : World σ Op Res ε α}
    {ls ls' : Tid → Λ}
    (hFinal : D.Final Q E)
    (hLosable : D.Losable)
    (hSound : D.Sound Q E w ls)
    (hMoves : D.Moves (w, ls) (w', ls')) :
    D.Sound Q E w' ls' := by
  have hHolds := hSound.holds hFinal
  cases hMoves with
  | @step _ _ t c o k r s hThread hOk hExec =>
      have hWp := hSound.live t _ hThread
      have hStep :=
        hWp.2 w ls c r s hHolds rfl
          (by simp [hThread]) hOk hExec
      apply hSound.put hStep.1
      · intro t' hLive
        by_cases hSame : t' = t
        · subst hSame
          simp [World.Live, hThread]
        · rw [World.Live,
            World.put_threads_of_ne _ _ _ hSame] at hLive
          exact hLive
      · intro p hp
        cases hp
        exact hStep.2.2
      · intro hp
        cases hp
  | @lose _ _ t o k hThread hOk =>
      have hLose :=
        hLosable w ls t hHolds (by simp [hThread]) hOk
      apply hSound.put hLose.1
      · intro t' hLive
        by_cases hSame : t' = t
        · subst hSame
          simp [World.Live] at hLive
        · rw [World.Live,
            World.put_threads_of_ne _ _ _ hSame] at hLive
          exact ⟨hSame, hLive⟩
      · intro p hp
        cases hp
      · intro _
        exact hLose.2.2

/- Every event of a run moves the annotated world. -/
theorem moves_of_next
    {w w' : World σ Op Res ε α}
    {e : Event χ}
    (ls : Tid → Λ)
    (hOk : D.ok w e)
    (hNext : M.next w e = some w') :
    ∃ ls', D.Moves (w, ls) (w', ls') := by
  cases e with
  | step t c =>
      rcases Machine.next_step_inv hNext with
        ⟨o, k, r, s, hThread, hExec, rfl⟩
      exact ⟨_, Moves.step hThread hOk hExec⟩
  | lose t =>
      rcases Machine.next_lose_inv hNext with
        ⟨o, k, hThread, rfl⟩
      exact ⟨_, Moves.lose hThread hOk⟩

/-
  A run of verified programs keeps every thread verified,
  along a path of annotated worlds.
-/
theorem sound_of_reaches
    {w w' : World σ Op Res ε α}
    {ls : Tid → Λ}
    (hFinal : D.Final Q E)
    (hLosable : D.Losable)
    (hSound : D.Sound Q E w ls)
    (hReach : M.Reaches D.ok w w') :
    ∃ ls',
      D.Sound Q E w' ls' ∧
        Relation.ReflTransGen D.Moves (w, ls) (w', ls') := by
  induction hReach with
  | refl => exact ⟨ls, hSound, Relation.ReflTransGen.refl⟩
  | tail _ hStep ih =>
      rcases ih with ⟨lsMid, hMid, hPath⟩
      rcases hStep with ⟨e, hOk, hNext⟩
      rcases moves_of_next lsMid hOk hNext with
        ⟨ls', hMoves⟩
      exact
        ⟨ls', sound_of_moves hFinal hLosable hMid hMoves,
          hPath.tail hMoves⟩

/- The invariant holds throughout a run. -/
theorem holds_of_reaches
    {w w' : World σ Op Res ε α}
    {ls : Tid → Λ}
    (hFinal : D.Final Q E)
    (hLosable : D.Losable)
    (hSound : D.Sound Q E w ls)
    (hReach : M.Reaches D.ok w w') :
    ∃ ls', D.Holds w' ls' := by
  rcases sound_of_reaches hFinal hLosable hSound hReach with
    ⟨ls', hSound', _⟩
  exact ⟨ls', hSound'.holds hFinal⟩

/- Every event of a run keeps its thread's guarantee. -/
theorem guar_of_reaches
    {w v w' : World σ Op Res ε α}
    {ls : Tid → Λ}
    {e : Event χ}
    (hFinal : D.Final Q E)
    (hLosable : D.Losable)
    (hSound : D.Sound Q E w ls)
    (hReach : M.Reaches D.ok w v)
    (hOk : D.ok v e)
    (hNext : M.next v e = some w') :
    D.guar e.thread v.shared w'.shared := by
  rcases sound_of_reaches hFinal hLosable hSound hReach with
    ⟨lsMid, hMid, _⟩
  have hHolds := hMid.holds hFinal
  cases e with
  | step t c =>
      rcases Machine.next_step_inv hNext with
        ⟨o, k, r, s, hThread, hExec, rfl⟩
      have hWp := hMid.live t _ hThread
      exact
        (hWp.2 v lsMid c r s hHolds rfl
          (by simp [hThread]) hOk hExec).2.1
  | lose t =>
      rcases Machine.next_lose_inv hNext with
        ⟨o, k, hThread, rfl⟩
      exact
        (hLosable v lsMid t hHolds (by simp [hThread])
          hOk).2.1

end Discipline

end Concurrency
