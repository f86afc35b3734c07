import SiteAnalysis.Relational.Serial

/-
  This file defines what a run records of the operations of
  one thread, and proves that a program that is verified on
  its own can note its records.

  Key definitions include:
    * `Machine.recordOf`
    * `Machine.Records`
    * `Serial.journal`

  Key theorems include:
    * `Machine.records_of_replay`
    * `Serial.wp_execute_journal`
    * `Serial.journal_of_records`
-/

------------------------------------------------------------
-- Records
------------------------------------------------------------

namespace Concurrency

namespace Machine

variable {σ χ Op : Type} {Res : Op → Type} {ε α Λ : Type}
variable {M : Machine σ χ Op Res ε}
variable {ok : World σ Op Res ε α → Event χ → Prop}
variable {record : (o : Op) → Except ε (Res o) → List Λ}
variable {t : Tid} {v w : World σ Op Res ε α}

/- What an event records of the operations of thread `t`. -/
def recordOf
    (M : Machine σ χ Op Res ε)
    (record : (o : Op) → Except ε (Res o) → List Λ)
    (t : Tid)
    (w : World σ Op Res ε α) : Event χ → List Λ
| .step t' c =>
    match w.threads t' with
    | .live (.call o _) =>
        match M.exec t' o c w.shared with
        | some (r, _) => if t' = t then record o r else []
        | none => []
    | _ => []
| .lose _ => []

/-
  `w` comes after `v` in a run all of whose events satisfy
  the condition `ok`, with the records of thread `t`.
-/
inductive Records
    (M : Machine σ χ Op Res ε)
    (ok : World σ Op Res ε α → Event χ → Prop)
    (record : (o : Op) → Except ε (Res o) → List Λ)
    (t : Tid)
    (v : World σ Op Res ε α) :
    World σ Op Res ε α → List Λ → Prop
  | refl : Records M ok record t v v []
  | tail
      {w w' : World σ Op Res ε α}
      {js : List Λ}
      {e : Event χ}
      (hBefore : Records M ok record t v w js)
      (hOk : ok w e)
      (hNext : M.next w e = some w') :
      Records M ok record t v w'
        (js ++ M.recordOf record t w e)

/- The records of a run without its events. -/
theorem reaches_of_records
    {js : List Λ}
    (hRecords : M.Records ok record t v w js) :
    M.Reaches ok v w := by
  induction hRecords with
  | refl => exact Reaches.refl
  | tail _ hOk hNext ih => exact ih.tail hOk hNext

/- Every run has its records. -/
theorem records_of_reaches
    (record : (o : Op) → Except ε (Res o) → List Λ)
    (t : Tid)
    (hReach : M.Reaches ok v w) :
    ∃ js, M.Records ok record t v w js := by
  induction hReach with
  | refl => exact ⟨[], Records.refl⟩
  | tail _ hStep ih =>
      rcases ih with ⟨js, hBefore⟩
      rcases hStep with ⟨e, hOk, hNext⟩
      exact ⟨_, hBefore.tail hOk hNext⟩

/- The records of a list of events. -/
def recordsOf
    (M : Machine σ χ Op Res ε)
    (record : (o : Op) → Except ε (Res o) → List Λ)
    (t : Tid) :
    World σ Op Res ε α → List (Event χ) → List Λ
| _, [] => []
| w, e :: es =>
    match M.next w e with
    | none => []
    | some w' =>
        M.recordOf record t w e ++
          M.recordsOf record t w' es

theorem records_of_replay_from
    {u : World σ Op Res ε α}
    {js : List Λ}
    (es : List (Event χ))
    (hOk : ∀ v, ∀ e ∈ es, ok v e)
    (hBefore : M.Records ok record t u v js)
    (hReplay : M.replay v es = some w) :
    M.Records ok record t u w
      (js ++ M.recordsOf record t v es) := by
  induction es generalizing v js with
  | nil =>
      have hSame : v = w := Option.some.inj hReplay
      rw [← hSame]
      simpa [recordsOf] using hBefore
  | cons e es ih =>
      unfold replay at hReplay
      split at hReplay
      · cases hReplay
      · rename_i v' hNext
        have hRest :=
          ih
            (fun v e hMem =>
              hOk v e (List.mem_cons_of_mem _ hMem))
            (hBefore.tail (hOk v e List.mem_cons_self) hNext)
            hReplay
        simpa [recordsOf, hNext] using hRest

/- A replayed list of events has its records. -/
theorem records_of_replay
    (es : List (Event χ))
    (hOk : ∀ v, ∀ e ∈ es, ok v e)
    (hReplay : M.replay v es = some w) :
    M.Records ok record t v w (M.recordsOf record t v es) :=
  records_of_replay_from es hOk Records.refl hReplay

end Machine

end Concurrency

------------------------------------------------------------
-- Journals
------------------------------------------------------------

namespace Relational

open Concurrency

/- What a connection records of an operation. -/
def recordAnswer
    {Q₀ ε Λ : Type}
    {A : Q₀ → Type}
    (record : (q : Q₀) → A q → List Λ) :
    (o : TxOp Q₀) → Except ε (TxOp.Res A o) → List Λ
| .query q, .ok a => record q a
| _, _ => []

namespace Serial

variable {δ κ Λ Q₀ : Type} {A : Q₀ → Type}
variable {ρ ε α β : Type} {B : Backend δ κ Q₀ A ρ ε}

/- A program at work, with the records of its answers. -/
def journal
    (B : Backend δ κ Q₀ A ρ ε)
    (ok :
      World (Store δ κ) (TxOp Q₀) (TxOp.Res A) ε α →
        Event (Choice ε ρ) → Prop)
    (record : (q : Q₀) → A q → List Λ) :
    Serial B α (List Λ) where
  ok := ok
  inv := fun _ _ => True
  atWork := fun _ => True
  note := fun q a _ n => n ++ record q a
  noteCommit := fun _ n => n
  noteLost := fun n => n
  lost := fun _ _ _ _ => trivial

variable
  {ok :
    World (Store δ κ) (TxOp Q₀) (TxOp.Res A) ε α →
      Event (Choice ε ρ) → Prop}
variable {record : (q : Q₀) → A q → List Λ}

/- What is noted of an operation is what it records. -/
theorem noteAfter_journal
    (t : Tid)
    (s : Store δ κ)
    (d : δ)
    (n : List Λ)
    (o : TxOp Q₀)
    (r : Except ε (TxOp.Res A o)) :
    (journal B ok record).regime.noteAfter t s d n o r =
      n ++ recordAnswer record o r := by
  cases o with
  | begin => exact (List.append_nil n).symm
  | rollback => exact (List.append_nil n).symm
  | commit =>
      have hNone :
          recordAnswer record (.commit : TxOp Q₀) r = [] := by
        cases r <;> rfl
      rw [hNone, List.append_nil]
      cases r with
      | error e => rfl
      | ok u => exact ite_self n
  | query q =>
      cases r with
      | error e => exact (List.append_nil n).symm
      | ok a => rfl

variable [DecidableEq κ]
variable {d : δ} {js : List Λ}
variable {l : Regime.Local δ κ Unit (Option δ) (List Λ)}

/- A statement that fails only by its verdict. -/
theorem wp_execute_journal
    {q : Q₀}
    {Q : A q →
      Regime.Local δ κ Unit (Option δ) (List Λ) → Prop}
    {E : ε →
      Regime.Local δ κ Unit (Option δ) (List Λ) → Prop}
    (hReliable : ∀ w t e, ¬ ok w (.step t (.fault e)))
    (hRest : Outside d js l)
    (hReply :
      ∀ x a d', B.reply q x d = some (a, d') →
        ∀ l', Outside d' (js ++ record q a) l' → Q a l')
    (hPlan :
      ∀ a lock f, B.plan q d = .done a lock f →
        ∀ l', Outside (f d) (js ++ record q a) l' → Q a l')
    (hRaise :
      ∀ e l', Outside d js l' →
        (B.plan q d = .refuse e ∨ B.plan q d = .miss e) →
          E e l') :
    (journal B ok record).wp (execute q) Q E l := by
  apply wp_execute_failed trivial hRest
  · intro e l' c hRest' hFailed hPermits
    cases hFailed with
    | fault =>
        rcases hPermits with ⟨ns, live, hPermits⟩
        rcases hPermits.world with
          ⟨w, ls, _, _, _, _, _, hOk⟩
        exact absurd hOk (hReliable _ _ _)
    | refuse hCase => exact hRaise e l' hRest' (Or.inl hCase)
    | miss hCase => exact hRaise e l' hRest' (Or.inr hCase)
  · intro x a d' _ hAnswer
    exact ⟨trivial, hReply x a d' hAnswer⟩
  · intro a lock f _ hCase
    exact ⟨trivial, hPlan a lock f hCase⟩

/- What is noted along a run is what it records. -/
theorem journal_of_records
    {p : Prog (TxOp Q₀) (TxOp.Res A) ε α}
    {Q : α →
      Regime.Local δ κ Unit (Option δ) (List Λ) → Prop}
    {E : ε →
      Regime.Local δ κ Unit (Option δ) (List Λ) → Prop}
    {w : World (Store δ κ) (TxOp Q₀) (TxOp.Res A) ε α}
    (hWp :
      ∀ l, Outside d [] l → (journal B ok record).wp p Q E l)
    (hRecords :
      B.machine.Records ok (recordAnswer record) 0
        (B.soleWorld p d) w js) :
    ∃ ls,
      (journal B ok record).regime.discipline.Sound
          (fun t a l => t = 0 → Q a l)
          (fun t e l => t = 0 → E e l) w ls ∧
        (ls 0).note = js := by
  have hVerified :=
    verified (S := journal B ok record) (n := []) trivial hWp
  induction hRecords with
  | refl => exact ⟨_, hVerified.sound, rfl⟩
  | @tail w w' js e _ hOk hNext ih =>
      rcases ih with ⟨ls, hSound, hNote⟩
      cases e with
      | step t c =>
          rcases Machine.next_step_inv hNext with
            ⟨o, k, r, s, hThread, hExec, rfl⟩
          refine
            ⟨_,
              Discipline.sound_of_moves hVerified.final
                hVerified.losable hSound
                (Discipline.Moves.step hThread hOk hExec),
              ?_⟩
          simp only [Machine.recordOf, hThread, hExec]
          by_cases hZero : t = 0
          · subst hZero
            rw [if_pos rfl, Function.update_self, ← hNote]
            exact noteAfter_journal _ _ _ _ o r
          · rw [if_neg hZero, List.append_nil,
              Function.update_of_ne (Ne.symm hZero)]
            exact hNote
      | lose t =>
          rcases Machine.next_lose_inv hNext with
            ⟨o, k, hThread, rfl⟩
          refine
            ⟨_,
              Discipline.sound_of_moves hVerified.final
                hVerified.losable hSound
                (Discipline.Moves.lose hThread hOk),
              ?_⟩
          simp only [Machine.recordOf, List.append_nil]
          by_cases hZero : t = 0
          · subst hZero
            rw [Function.update_self]
            exact hNote
          · rw [Function.update_of_ne (Ne.symm hZero)]
            exact hNote

end Serial

end Relational
