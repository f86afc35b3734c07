import Mathlib.Logic.Relation
import SiteAnalysis.Concurrency.Program

/-
  This file defines the interleaving of programs over one
  shared state.

  A world is a shared state and a thread for every thread
  identifier.  One event lets one thread perform its next
  operation, with the environment's choice for it, or loses
  the process that runs the thread.  The events of a run can
  be restricted by a condition on the world before each of
  them.

  Key definitions include:
    * `Thread`
    * `World`
    * `Event`
    * `Machine`
    * `Machine.next`
    * `Machine.replay`
    * `Machine.Step`
    * `Machine.Reaches`

  Key theorems include:
    * `Machine.Reaches.invariant`
    * `Machine.invariant_of_heeds`
    * `Machine.reaches_of_replay`
    * `Machine.reaches_of_replay_alone`
    * `Machine.reaches_of_run`
-/

------------------------------------------------------------
-- Worlds
------------------------------------------------------------

namespace Concurrency

/- Threads are numbered; there are always more of them. -/
abbrev Tid := Nat

/- The state of one thread. -/
inductive Thread
    (Op : Type)
    (Res : Op → Type)
    (ε α : Type) : Type
  | live (p : Prog Op Res ε α)
  | lost

namespace Thread

variable {Op : Type} {Res : Op → Type} {ε α : Type}

/- The operation a thread is about to perform. -/
def head : Thread Op Res ε α → Option Op
| .live p => p.head
| .lost => none

@[simp] theorem head_live
    (p : Prog Op Res ε α) :
    (live p).head = p.head := rfl

@[simp] theorem head_lost :
    (lost : Thread Op Res ε α).head = none := rfl

end Thread

/- A shared state and the threads that work on it. -/
structure World
    (σ : Type)
    (Op : Type)
    (Res : Op → Type)
    (ε α : Type) where
  shared : σ
  threads : Tid → Thread Op Res ε α

/-
  The environment's choice for one operation: it goes
  through, it raises `e`, or it gets the reply `r` of a
  party outside the model.
-/
inductive Choice (ε ρ : Type) : Type
  | proceed
  | fault (e : ε)
  | reply (r : ρ)

/- One event of an interleaving. -/
inductive Event (χ : Type) : Type
  | step (t : Tid) (c : χ)
  | lose (t : Tid)

/- The thread of an event. -/
def Event.thread {χ : Type} : Event χ → Tid
| .step t _ => t
| .lose t => t

/-
  How the shared state answers one operation of a thread,
  and what becomes of it when the thread is lost.  An
  operation that has to wait gets no answer.
-/
structure Machine
    (σ χ Op : Type)
    (Res : Op → Type)
    (ε : Type) where
  exec :
    Tid → (o : Op) → χ → σ → Option (Except ε (Res o) × σ)
  abandon : Tid → σ → σ

namespace World

variable {σ Op : Type} {Res : Op → Type} {ε α : Type}

/- The thread has an operation to perform. -/
def Live
    (w : World σ Op Res ε α)
    (t : Tid) : Prop :=
  (w.threads t).head ≠ none

/- Replace the shared state and one thread. -/
def put
    (w : World σ Op Res ε α)
    (s : σ)
    (t : Tid)
    (thread : Thread Op Res ε α) :
    World σ Op Res ε α where
  shared := s
  threads := Function.update w.threads t thread

@[simp] theorem put_shared
    (w : World σ Op Res ε α)
    (s : σ)
    (t : Tid)
    (thread : Thread Op Res ε α) :
    (w.put s t thread).shared = s := rfl

@[simp] theorem put_threads_self
    (w : World σ Op Res ε α)
    (s : σ)
    (t : Tid)
    (thread : Thread Op Res ε α) :
    (w.put s t thread).threads t = thread := by
  simp [put]

theorem put_threads_of_ne
    (w : World σ Op Res ε α)
    (s : σ)
    {t t' : Tid}
    (thread : Thread Op Res ε α)
    (hNe : t' ≠ t) :
    (w.put s t thread).threads t' = w.threads t' := by
  simp [put, hNe]

end World

namespace Machine

variable {σ χ Op : Type} {Res : Op → Type} {ε α : Type}

/- The world after one event, if the event can happen. -/
def next
    (M : Machine σ χ Op Res ε)
    (w : World σ Op Res ε α) :
    Event χ → Option (World σ Op Res ε α)
| .step t c =>
    match w.threads t with
    | .live (.call o k) =>
        match M.exec t o c w.shared with
        | some (r, s) => some (w.put s t (.live (k r)))
        | none => none
    | _ => none
| .lose t =>
    match w.threads t with
    | .live (.call _ _) =>
        some (w.put (M.abandon t w.shared) t .lost)
    | _ => none

/- The world after a list of events, if all can happen. -/
def replay
    (M : Machine σ χ Op Res ε) :
    World σ Op Res ε α → List (Event χ) →
      Option (World σ Op Res ε α)
| w, [] => some w
| w, e :: es =>
    match M.next w e with
    | none => none
    | some w' => M.replay w' es

/- One event that satisfies the run's condition. -/
def Step
    (M : Machine σ χ Op Res ε)
    (ok : World σ Op Res ε α → Event χ → Prop)
    (w w' : World σ Op Res ε α) : Prop :=
  ∃ e, ok w e ∧ M.next w e = some w'

/-
  `w'` comes after `w` in a run all of whose events satisfy
  the condition `ok`.
-/
def Reaches
    (M : Machine σ χ Op Res ε)
    (ok : World σ Op Res ε α → Event χ → Prop) :
    World σ Op Res ε α → World σ Op Res ε α → Prop :=
  Relation.ReflTransGen (M.Step ok)

/- The condition that every event satisfies. -/
def anyEvent :
    World σ Op Res ε α → Event χ → Prop :=
  fun _ _ => True

/- What a step of one thread does. -/
theorem next_step_inv
    {M : Machine σ χ Op Res ε}
    {w w' : World σ Op Res ε α}
    {t : Tid}
    {c : χ}
    (hNext : M.next w (.step t c) = some w') :
    ∃ o k r s,
      w.threads t = .live (.call o k) ∧
        M.exec t o c w.shared = some (r, s) ∧
          w' = w.put s t (.live (k r)) := by
  simp only [next] at hNext
  split at hNext
  · rename_i o k hThread
    split at hNext
    · rename_i r s hExec
      exact
        ⟨o, k, r, s, hThread, hExec,
          (Option.some.inj hNext).symm⟩
    · cases hNext
  · cases hNext

/- What the loss of one thread does. -/
theorem next_lose_inv
    {M : Machine σ χ Op Res ε}
    {w w' : World σ Op Res ε α}
    {t : Tid}
    (hNext : M.next w (.lose t) = some w') :
    ∃ o k,
      w.threads t = .live (.call o k) ∧
        w' = w.put (M.abandon t w.shared) t .lost := by
  simp only [next] at hNext
  split at hNext
  · rename_i o k hThread
    exact ⟨o, k, hThread, (Option.some.inj hNext).symm⟩
  · cases hNext

/- A step of a thread whose next operation is answered. -/
theorem next_step
    {M : Machine σ χ Op Res ε}
    {w : World σ Op Res ε α}
    {t : Tid}
    {c : χ}
    {o : Op}
    {k : Except ε (Res o) → Prog Op Res ε α}
    {r : Except ε (Res o)}
    {s : σ}
    (hThread : w.threads t = .live (.call o k))
    (hExec : M.exec t o c w.shared = some (r, s)) :
    M.next w (.step t c) =
      some (w.put s t (.live (k r))) := by
  simp only [next, hThread, hExec]

namespace Reaches

variable {M : Machine σ χ Op Res ε}
variable {ok ok' : World σ Op Res ε α → Event χ → Prop}
variable {w w' w'' : World σ Op Res ε α}

theorem refl : M.Reaches ok w w :=
  Relation.ReflTransGen.refl

theorem trans
    (hLeft : M.Reaches ok w w')
    (hRight : M.Reaches ok w' w'') :
    M.Reaches ok w w'' :=
  Relation.ReflTransGen.trans hLeft hRight

theorem tail
    {e : Event χ}
    (hReach : M.Reaches ok w w')
    (hOk : ok w' e)
    (hNext : M.next w' e = some w'') :
    M.Reaches ok w w'' :=
  Relation.ReflTransGen.tail hReach ⟨e, hOk, hNext⟩

/- A weaker condition allows the same run. -/
theorem weaken
    (hReach : M.Reaches ok w w')
    (hWeaker : ∀ w e, ok w e → ok' w e) :
    M.Reaches ok' w w' :=
  Relation.ReflTransGen.mono
    (fun _ _ ⟨e, hOk, hNext⟩ =>
      ⟨e, hWeaker _ e hOk, hNext⟩) _ _ hReach

/-
  What holds at the start and is kept by every event of the
  run holds at its end.
-/
theorem invariant
    {P : World σ Op Res ε α → Prop}
    (hReach : M.Reaches ok w w')
    (hStart : P w)
    (hKeep :
      ∀ v e v', P v → ok v e → M.next v e = some v' →
        P v') :
    P w' := by
  induction hReach with
  | refl => exact hStart
  | tail _ hStep ih =>
      rcases hStep with ⟨e, hOk, hNext⟩
      exact hKeep _ e _ ih hOk hNext

end Reaches

/-
  Threads that heed what is trusted only perform what is
  allowed, in any run whose operations keep an invariant of
  the shared state and give results to be trusted.
-/
theorem invariant_of_heeds
    {M : Machine σ χ Op Res ε}
    {ok : World σ Op Res ε α → Event χ → Prop}
    {w w' : World σ Op Res ε α}
    {allowed : Op → Prop}
    {trusted : (o : Op) → Res o → Prop}
    {P : σ → Prop}
    (hReach : M.Reaches ok w w')
    (hStart : P w.shared)
    (hThreads :
      ∀ t p, w.threads t = .live p →
        p.Heeds allowed trusted (fun _ => True))
    (hStep :
      ∀ v t o c r s, P v.shared →
        (v.threads t).head = some o → allowed o →
          ok v (.step t c) →
            M.exec t o c v.shared = some (r, s) →
              P s ∧ ∀ a, r = .ok a → trusted o a)
    (hLose : ∀ t s, P s → P (M.abandon t s)) :
    P w'.shared := by
  have hBoth :
      P w'.shared ∧
        ∀ t p, w'.threads t = .live p →
          p.Heeds allowed trusted (fun _ => True) := by
    apply hReach.invariant
      (P := fun v =>
        P v.shared ∧
          ∀ t p, v.threads t = .live p →
            p.Heeds allowed trusted (fun _ => True))
      ⟨hStart, hThreads⟩
    rintro v e v' ⟨hShared, hAll⟩ hOk hNext
    cases e with
    | step t c =>
        rcases next_step_inv hNext with
          ⟨o, k, r, s, hThread, hExec, rfl⟩
        have hCall := hAll t _ hThread
        have hHead : (v.threads t).head = some o := by
          rw [hThread]
          rfl
        have hAfter :=
          hStep v t o c r s hShared hHead hCall.1 hOk hExec
        refine ⟨hAfter.1, ?_⟩
        intro t' p hLive
        by_cases hSame : t' = t
        · subst hSame
          rw [World.put_threads_self] at hLive
          cases hLive
          exact hCall.2 r hAfter.2
        · rw [World.put_threads_of_ne _ _ _ hSame] at hLive
          exact hAll t' p hLive
    | lose t =>
        rcases next_lose_inv hNext with
          ⟨o, k, hThread, rfl⟩
        refine ⟨hLose t _ hShared, ?_⟩
        intro t' p hLive
        by_cases hSame : t' = t
        · subst hSame
          rw [World.put_threads_self] at hLive
          cases hLive
        · rw [World.put_threads_of_ne _ _ _ hSame] at hLive
          exact hAll t' p hLive
  exact hBoth.1

/- An event leaves the other threads as they were. -/
theorem threads_of_next_of_ne
    {M : Machine σ χ Op Res ε}
    {w w' : World σ Op Res ε α}
    {e : Event χ}
    {t : Tid}
    (hNext : M.next w e = some w')
    (hNe : t ≠ e.thread) :
    w'.threads t = w.threads t := by
  cases e with
  | step t' c =>
      rcases next_step_inv hNext with ⟨o, k, r, s, _, _, rfl⟩
      exact World.put_threads_of_ne _ _ _ hNe
  | lose t' =>
      rcases next_lose_inv hNext with ⟨o, k, _, rfl⟩
      exact World.put_threads_of_ne _ _ _ hNe

/- A finished thread takes no further step. -/
theorem threads_of_head_none
    {M : Machine σ χ Op Res ε}
    {ok : World σ Op Res ε α → Event χ → Prop}
    {w w' : World σ Op Res ε α}
    {t : Tid}
    (hReach : M.Reaches ok w w')
    (hHead : (w.threads t).head = none) :
    w'.threads t = w.threads t := by
  apply hReach.invariant
    (P := fun v => v.threads t = w.threads t) rfl
  intro v e v' hSame _ hNext
  have hFinished :
      ∀ o k, v.threads t ≠ .live (.call o k) := by
    intro o k hThread
    rw [← hSame, hThread] at hHead
    cases hHead
  cases e with
  | step t' c =>
      rcases next_step_inv hNext with
        ⟨o, k, r, s, hThread, _, rfl⟩
      have hNe : t ≠ t' := by
        rintro rfl
        exact hFinished o k hThread
      rw [World.put_threads_of_ne _ _ _ hNe, hSame]
  | lose t' =>
      rcases next_lose_inv hNext with ⟨o, k, hThread, rfl⟩
      have hNe : t ≠ t' := by
        rintro rfl
        exact hFinished o k hThread
      rw [World.put_threads_of_ne _ _ _ hNe, hSame]

/- A replayed list of such events is a run. -/
theorem reaches_of_replay_where
    {M : Machine σ χ Op Res ε}
    {ok : World σ Op Res ε α → Event χ → Prop}
    {w w' : World σ Op Res ε α}
    (es : List (Event χ))
    (hOk : ∀ v, ∀ e ∈ es, ok v e)
    (hReplay : M.replay w es = some w') :
    M.Reaches ok w w' := by
  induction es generalizing w with
  | nil =>
      have hSame : w = w' := Option.some.inj hReplay
      exact hSame ▸ Reaches.refl
  | cons e es ih =>
      unfold replay at hReplay
      split at hReplay
      · cases hReplay
      · rename_i v hNext
        have hRest := ih
          (fun v e hMem => hOk v e (List.mem_cons_of_mem _ hMem))
          hReplay
        exact
          (Reaches.refl.tail (hOk w e List.mem_cons_self)
            hNext).trans hRest

theorem reaches_of_replay
    {M : Machine σ χ Op Res ε}
    {w w' : World σ Op Res ε α}
    (es : List (Event χ))
    (hReplay : M.replay w es = some w') :
    M.Reaches anyEvent w w' :=
  reaches_of_replay_where es (fun _ _ _ => trivial) hReplay

/- The steps of one thread leave the others as they were. -/
theorem threads_of_replay
    {M : Machine σ χ Op Res ε}
    {w w' : World σ Op Res ε α}
    {t t' : Tid}
    (cs : List χ)
    (hNe : t' ≠ t)
    (hReplay : M.replay w (cs.map (.step t)) = some w') :
    w'.threads t' = w.threads t' := by
  induction cs generalizing w with
  | nil =>
      have hSame : w = w' := Option.some.inj hReplay
      rw [hSame]
  | cons c cs ih =>
      rw [List.map_cons] at hReplay
      unfold replay at hReplay
      split at hReplay
      · cases hReplay
      · rename_i v hNext
        rcases next_step_inv hNext with
          ⟨o, k, r, s, _, _, rfl⟩
        rw [ih hReplay]
        exact World.put_threads_of_ne _ _ _ hNe

/-
  A replayed list of steps of one thread is a run if they are
  allowed as long as the other threads do nothing.
-/
theorem reaches_of_replay_alone
    {M : Machine σ χ Op Res ε}
    {ok : World σ Op Res ε α → Event χ → Prop}
    {w w' : World σ Op Res ε α}
    (t : Tid)
    (cs : List χ)
    (hOk :
      ∀ v c, (∀ t', t' ≠ t → v.threads t' = w.threads t') →
        ok v (.step t c))
    (hReplay : M.replay w (cs.map (.step t)) = some w') :
    M.Reaches ok w w' := by
  induction cs generalizing w with
  | nil =>
      have hSame : w = w' := Option.some.inj hReplay
      exact hSame ▸ Reaches.refl
  | cons c cs ih =>
      rw [List.map_cons] at hReplay
      unfold replay at hReplay
      split at hReplay
      · cases hReplay
      · rename_i v hNext
        have hOthers :
            ∀ t', t' ≠ t → v.threads t' = w.threads t' := by
          rcases next_step_inv hNext with
            ⟨o, k, r, s, _, _, rfl⟩
          intro t' hNe
          exact World.put_threads_of_ne _ _ _ hNe
        have hRest : M.Reaches ok v w' := by
          apply ih _ hReplay
          intro v' c' hSame
          apply hOk
          intro t' hNe
          exact (hSame t' hNe).trans (hOthers t' hNe)
        exact
          (Reaches.refl.tail (hOk w c (fun _ _ => rfl))
            hNext).trans hRest

/-
  A program run alone is one of the interleavings: the one
  in which only its thread takes steps.
-/
theorem reaches_of_run
    {M : Machine σ χ Op Res ε}
    {w : World σ Op Res ε α}
    {t : Tid}
    {p : Prog Op Res ε α}
    {r : Except ε α}
    {s : σ}
    (choose : Op → χ)
    (hThread : w.threads t = .live p)
    (hRun :
      p.run (fun o => M.exec t o (choose o)) w.shared =
        some (r, s)) :
    M.Reaches anyEvent w
      (w.put s t (.live (Prog.ofExcept r))) := by
  induction p generalizing w with
  | ret a =>
      have hEq := Option.some.inj hRun
      have hr : Except.ok a = r := congrArg Prod.fst hEq
      have hs : w.shared = s := congrArg Prod.snd hEq
      subst hr hs
      have hSame :
          w.put w.shared t (.live (.ret a)) = w := by
        simp [World.put, ← hThread]
      rw [Prog.ofExcept, hSame]
      exact Reaches.refl
  | raise e =>
      have hEq := Option.some.inj hRun
      have hr : Except.error e = r :=
        congrArg Prod.fst hEq
      have hs : w.shared = s := congrArg Prod.snd hEq
      subst hr hs
      have hSame :
          w.put w.shared t (.live (.raise e)) = w := by
        simp [World.put, ← hThread]
      rw [Prog.ofExcept, hSame]
      exact Reaches.refl
  | call o k ih =>
      unfold Prog.run at hRun
      split at hRun
      · cases hRun
      · rename_i r₁ s₁ hExec
        have hNext := next_step hThread hExec
        have hRest :=
          ih r₁ (w := w.put s₁ t (.live (k r₁)))
            (by simp) (by simpa using hRun)
        have hPut :
            (w.put s₁ t (.live (k r₁))).put s t
                (.live (Prog.ofExcept r)) =
              w.put s t (.live (Prog.ofExcept r)) := by
          simp [World.put]
        rw [hPut] at hRest
        exact
          (Reaches.refl.tail trivial hNext).trans hRest

end Machine

end Concurrency
