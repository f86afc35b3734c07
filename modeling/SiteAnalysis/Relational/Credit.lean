import SiteAnalysis.Relational.Heeding

/-
  This file proves to whom a system of connections owes what
  is committed, and what a reader has seen of it.

  A program settles if whatever it publishes, it has returned
  by then.  If all that owe their changes settle, each change
  is owed to a thread that has returned.  The result of a
  program that only reads comes from what was committed while
  it ran.

  Key definitions include:
    * `World.Returned`
    * `Publishes`
    * `Prog.Settles`
    * `Prog.Observes`
    * `Backend.Conceals`

  Key theorems include:
    * `settles_atomic`
    * `Backend.credited_of_reaches`
    * `Backend.observes_of_reaches`
-/

------------------------------------------------------------
-- Programs
------------------------------------------------------------

namespace Concurrency

/- The thread has come back with a result. -/
def World.Returned
    {σ Op : Type}
    {Res : Op → Type}
    {ε α : Type}
    (w : World σ Op Res ε α)
    (t : Tid) : Prop :=
  ∃ a, w.threads t = .live (.ret a)

end Concurrency

namespace Relational

open Concurrency

variable {Q : Type}

/-
  The operations that others can see, with so many frames
  open; nobody looks at what the hidden statements write.
-/
def Publishes
    (hidden : Q → Prop)
    (n : Nat) : TxOp Q → Prop
| .query q => n = 0 ∧ ¬ hidden q
| .commit => n = 1
| _ => False

end Relational

namespace Concurrency

open Relational

namespace Prog

variable {Q : Type} {A : Q → Type} {ε α β : Type}

/- What the program publishes, it publishes as it returns. -/
def Settles
    (hidden : Q → Prop)
    (trusted : (q : Q) → A q → Prop) :
    Prog (TxOp Q) (TxOp.Res A) ε α → Nat → Prop
| .ret _, _ => True
| .raise _, _ => True
| .call o k, n =>
    ∀ r, (∀ a, r = .ok a → Regime.Results trusted o a) →
      Settles hidden trusted (k r) (depthAfter o r n) ∧
        (Publishes hidden n o →
          ∀ a, r = .ok a → ∃ b, k r = .ret b)

/- The program can return this by answers that were seen. -/
def Observes
    (seen : (q : Q) → A q → Prop) :
    Prog (TxOp Q) (TxOp.Res A) ε α → α → Prop
| .ret a, b => a = b
| .raise _, _ => False
| .call o k, b =>
    ∃ r, (∀ a, r = .ok a → Regime.Results seen o a) ∧
      Observes seen (k r) b

variable {steady instant hidden : Q → Prop}
variable {trusted seen : (q : Q) → A q → Prop}
variable {n₀ n : Nat} {post : α → Prop}

theorem base_le_of_behaves
    {p : Prog (TxOp Q) (TxOp.Res A) ε α}
    (hProg : p.Behaves steady instant trusted n₀ post n) :
    n₀ ≤ n := by
  cases p with
  | ret a => exact Nat.le_of_eq hProg.1.symm
  | raise e => exact Nat.le_of_eq (Eq.symm hProg)
  | call o k => exact hProg.1

/- Inside a transaction nothing is published. -/
theorem Behaves.settles_handle
    {p : Prog (TxOp Q) (TxOp.Res A) ε α}
    {f : α → Prog (TxOp Q) (TxOp.Res A) ε β}
    {h : ε → Prog (TxOp Q) (TxOp.Res A) ε β}
    (hProg :
      p.Behaves steady instant trusted (n₀ + 1) post n)
    (hRet :
      ∀ a, post a → (f a).Settles hidden trusted (n₀ + 1))
    (hRaise : ∀ e, (h e).Settles hidden trusted (n₀ + 1)) :
    (p.handle f h).Settles hidden trusted n := by
  induction p generalizing n with
  | ret a =>
      rcases hProg with ⟨rfl, hPost⟩
      exact hRet a hPost
  | raise e =>
      have hDepth : n = n₀ + 1 := hProg
      subst hDepth
      exact hRaise e
  | call o k ih =>
      intro r hTrusted
      have hNext := hProg.2.2 r hTrusted
      refine ⟨ih r hNext, ?_⟩
      intro hPublishes
      have hAfter := base_le_of_behaves hNext
      have hBefore := hProg.1
      cases o with
      | begin => exact hPublishes.elim
      | rollback => exact hPublishes.elim
      | commit =>
          have hOne : n = 1 := hPublishes
          simp only [depthAfter] at hAfter
          omega
      | query q =>
          have hNone : n = 0 := hPublishes.1
          omega

/- The transaction is published as it returns. -/
theorem settles_atomic
    {body : Prog (TxOp Q) (TxOp.Res A) ε α}
    (hBody : body.Behaves steady instant trusted 1 post 1) :
    (atomic body).Settles hidden trusted 0 := by
  intro r _
  refine ⟨?_, fun hPublishes => hPublishes.elim⟩
  cases r with
  | error e => trivial
  | ok u =>
      apply hBody.settles_handle
      · intro a _ r _
        cases r with
        | error e =>
            exact ⟨trivial, fun _ _ hOk => by cases hOk⟩
        | ok u => exact ⟨trivial, fun _ _ _ => ⟨a, rfl⟩⟩
      · intro e r _
        exact ⟨trivial, fun hPublishes => hPublishes.elim⟩

/- What is done with the result alone. -/
theorem Settles.map
    {p : Prog (TxOp Q) (TxOp.Res A) ε α}
    {f : α → β}
    (hProg : p.Settles hidden trusted n) :
    (p >>= fun a => pure (f a)).Settles hidden trusted
      n := by
  induction p generalizing n with
  | ret a => trivial
  | raise e => trivial
  | call o k ih =>
      intro r hTrusted
      have hNext := hProg r hTrusted
      refine ⟨ih r hNext.1, ?_⟩
      intro hPublishes a hOk
      rcases hNext.2 hPublishes a hOk with ⟨b, hRet⟩
      refine ⟨f b, ?_⟩
      change (k r).handle _ _ = _
      rw [hRet]
      rfl

/- A hidden statement, and what follows it. -/
theorem settles_then
    {q : Q}
    {f : A q → Prog (TxOp Q) (TxOp.Res A) ε β}
    (hHidden : hidden q)
    (hRest :
      ∀ a, trusted q a → (f a).Settles hidden trusted n) :
    ((execute q : Prog (TxOp Q) (TxOp.Res A) ε (A q)) >>=
        f).Settles hidden trusted n := by
  intro r hTrusted
  refine ⟨?_, fun hPublishes => absurd hHidden hPublishes.2⟩
  cases r with
  | error e => trivial
  | ok a => exact hRest a (hTrusted a rfl)

/- What two programs in turn return. -/
theorem observes_bind
    {p : Prog (TxOp Q) (TxOp.Res A) ε α}
    {f : α → Prog (TxOp Q) (TxOp.Res A) ε β}
    {b : β}
    (hObserves : (p >>= f).Observes seen b) :
    ∃ a, p.Observes seen a ∧ (f a).Observes seen b := by
  induction p with
  | ret a => exact ⟨a, rfl, hObserves⟩
  | raise e => exact hObserves.elim
  | call o k ih =>
      rcases hObserves with ⟨r, hSeen, hRest⟩
      rcases ih r hRest with ⟨a, hFirst, hSecond⟩
      exact ⟨a, ⟨r, hSeen, hFirst⟩, hSecond⟩

theorem observes_execute
    {q : Q}
    {a : A q}
    (hObserves :
      (execute q : Prog (TxOp Q) (TxOp.Res A) ε (A q)).Observes
        seen a) : seen q a := by
  rcases hObserves with ⟨r, hSeen, hRest⟩
  cases r with
  | error e => exact hRest.elim
  | ok b =>
      cases hRest
      exact hSeen a rfl

theorem observes_embed
    {Q' : Type}
    {A' : Q' → Type}
    {seen' : (q : Q') → A' q → Prop}
    {up : Q → Q'}
    {down : ∀ q, A' (up q) → A q}
    {p : Prog (TxOp Q) (TxOp.Res A) ε α}
    {b : α}
    (hObserves :
      (p.embed (TxOp.embed up) (TxOp.restrict down)).Observes
        seen' b)
    (hSeen : ∀ q a, seen' (up q) a → seen q (down q a)) :
    p.Observes seen b := by
  induction p with
  | ret a => exact hObserves
  | raise e => exact hObserves
  | call o k ih =>
      rcases hObserves with ⟨r, hResults, hRest⟩
      refine ⟨r.map (TxOp.restrict down o), ?_, ih _ hRest⟩
      intro a hSame
      cases r with
      | error e => cases hSame
      | ok a' =>
          cases hSame
          cases o with
          | query q => exact hSeen q a' (hResults a' rfl)
          | _ => trivial

/- The same program over more statements. -/
theorem Settles.embed
    {Q' : Type}
    {A' : Q' → Type}
    {hidden' : Q' → Prop}
    {trusted' : (q : Q') → A' q → Prop}
    {up : Q → Q'}
    {down : ∀ q, A' (up q) → A q}
    {p : Prog (TxOp Q) (TxOp.Res A) ε α}
    (hProg : p.Settles hidden trusted n)
    (hHidden : ∀ q, hidden q → hidden' (up q))
    (hTrust :
      ∀ q a, trusted' (up q) a → trusted q (down q a)) :
    (p.embed (TxOp.embed up) (TxOp.restrict down)).Settles
      hidden' trusted' n := by
  induction p generalizing n with
  | ret a => trivial
  | raise e => trivial
  | call o k ih =>
      intro r hTrusted
      have hNext :
          (k (r.map (TxOp.restrict down o))).Settles hidden
              trusted
              (depthAfter o (r.map (TxOp.restrict down o))
                n) ∧
            (Publishes hidden n o →
              ∀ a, r.map (TxOp.restrict down o) = .ok a →
                ∃ b,
                  k (r.map (TxOp.restrict down o)) =
                    .ret b) := by
        apply hProg
        intro a hSame
        cases r with
        | error e => cases hSame
        | ok a' =>
            cases hSame
            cases o with
            | query q => exact hTrust q a' (hTrusted a' rfl)
            | _ => trivial
      have hDepth :
          depthAfter (o.embed up) r n =
            depthAfter o (r.map (TxOp.restrict down o)) n := by
        cases o <;> cases r <;> rfl
      refine ⟨?_, ?_⟩
      · rw [hDepth]
        exact ih _ hNext.1
      · intro hPublishes a hOk
        have hBefore : Publishes hidden n o := by
          cases o with
          | query q =>
              exact
                ⟨hPublishes.1,
                  fun hIs => hPublishes.2 (hHidden q hIs)⟩
          | _ => exact hPublishes
        subst hOk
        rcases hNext.2 hBefore _ rfl with ⟨b, hRet⟩
        refine ⟨b, ?_⟩
        change (k _).embed _ _ = _
        rw [hRet]
        rfl

end Prog

end Concurrency

------------------------------------------------------------
-- What Is Published
------------------------------------------------------------

namespace Relational

open Concurrency

variable {δ κ Q γ : Type} {A : Q → Type} {ρ ε α : Type}

namespace Backend

/-
  The hidden statements, and the replies from outside, leave
  what is looked at alone.
-/
structure Conceals
    (B : Backend δ κ Q A ρ ε)
    (look : δ → γ)
    (hidden : Q → Prop) : Prop where
  plan :
    ∀ q d a lock f, hidden q →
      B.plan q d = .done a lock f →
        ∀ d', look (f d') = look d'
  reply :
    ∀ q x d a d', B.reply q x d = some (a, d') →
      look d' = look d

variable {B : Backend δ κ Q A ρ ε}
variable {look : δ → γ} {hidden : Q → Prop}
variable {s s' : Store δ κ} {t : Tid}

/- What a write shows. -/
theorem look_of_write
    {q : Q}
    {a : A q}
    {lock : Option κ}
    {d : δ}
    {f : δ → δ}
    (hConceals : B.Conceals look hidden)
    (hPlan : B.plan q d = .done a lock f) :
    look (s.write t f).committed = look s.committed ∨
      (s.frames t).length = 0 ∧ ¬ hidden q := by
  by_cases hAuto : s.frames t = []
  · by_cases hHidden : hidden q
    · refine Or.inl ?_
      have hWrite :
          (s.write t f).committed = f s.committed := by
        simp [Store.write, hAuto]
      rw [hWrite]
      exact hConceals.plan q d a lock f hHidden hPlan _
    · exact Or.inr ⟨by simp [hAuto], hHidden⟩
  · refine Or.inl ?_
    rw [(Store.private_write hAuto).committed]

variable [DecidableEq κ]

theorem look_of_answered
    {q : Q}
    {c : Choice ε ρ}
    {r : Except ε (A q)}
    (hConceals : B.Conceals look hidden)
    (hAnswered : B.Answered t q s c r s') :
    look s'.committed = look s.committed ∨
      Publishes hidden (s.frames t).length (.query q) ∧
        ∃ a, r = .ok a := by
  cases hAnswered with
  | fault e =>
      exact
        Or.inl (congrArg look Store.private_fail.committed)
  | refuse e hPlan =>
      exact
        Or.inl (congrArg look Store.private_fail.committed)
  | aborted hBroken => exact Or.inl rfl
  | miss e hPlan => exact Or.inl rfl
  | reply x a d hReply =>
      exact Or.inl (hConceals.reply q x _ a d hReply)
  | done a f hPlan =>
      refine (look_of_write hConceals hPlan).imp_right ?_
      exact fun hShown => ⟨hShown, a, rfl⟩
  | locked a k f hPlan hFree =>
      have hAcquire := Store.private_acquire hFree
      rw [← hAcquire.committed, ← length_acquire (k := k)]
      refine (look_of_write hConceals hPlan).imp_right ?_
      exact fun hShown => ⟨hShown, a, rfl⟩

/- An operation that others can see is done. -/
theorem look_of_exec
    {o : TxOp Q}
    {c : Choice ε ρ}
    {r : Except ε (TxOp.Res A o)}
    (hConceals : B.Conceals look hidden)
    (hExec : B.machine.exec t o c s = some (r, s')) :
    look s'.committed = look s.committed ∨
      Publishes hidden (s.frames t).length o ∧
        ∃ a, r = .ok a := by
  have hDrop :
      look (s.rollback t).committed = look s.committed := by
    rw [Store.private_rollback.committed]
  cases o with
  | begin =>
      refine Or.inl ?_
      cases c <;> cases hExec <;> rfl
  | rollback =>
      refine Or.inl ?_
      cases c with
      | reply x => cases hExec
      | fault e =>
          cases hExec
          exact hDrop
      | proceed =>
          cases hExec
          exact hDrop
  | commit =>
      cases c with
      | reply x => cases hExec
      | fault e =>
          cases hExec
          exact Or.inl hDrop
      | proceed =>
          have hCommit := Option.some.inj hExec
          unfold Store.commit at hCommit
          split at hCommit
          · cases hCommit
            exact Or.inl rfl
          · rename_i fr hFrames
            split at hCommit
            · cases hCommit
              exact Or.inl hDrop
            · cases hCommit
              refine Or.inr ⟨?_, (), rfl⟩
              change (s.frames t).length = 1
              rw [hFrames]
              rfl
          · split at hCommit
            · cases hCommit
              exact Or.inl hDrop
            · cases hCommit
              exact Or.inl rfl
  | query q =>
      have hAnswered := answered_of_exec hExec
      exact look_of_answered hConceals hAnswered

------------------------------------------------------------
-- Runs
------------------------------------------------------------

variable {holds : δ → Prop} {keep : Tid → δ → δ → Prop}
variable {steady instant : Tid → Q → Prop}
variable {trusted : (q : Q) → A q → Prop}
variable {owes : Tid → Prop}
variable {inv : (Tid → Prop) → γ → Prop}
variable
  {ok :
    World (Store δ κ) (TxOp Q) (TxOp.Res A) ε α →
      Event (Choice ε ρ) → Prop}
variable
  {w w' : World (Store δ κ) (TxOp Q) (TxOp.Res A) ε α}
variable {e : Event (Choice ε ρ)}

/- The threads that owe their changes settle. -/
def Settled
    (hidden : Q → Prop)
    (trusted : (q : Q) → A q → Prop)
    (owes : Tid → Prop)
    (w : World (Store δ κ) (TxOp Q) (TxOp.Res A) ε α) :
    Prop :=
  ∀ t p, owes t → w.threads t = .live p →
    p.Settles hidden trusted (w.shared.frames t).length

theorem ne_of_returned
    (hNext : B.machine.next w e = some w')
    (hReturned : w.Returned t) : t ≠ e.thread := by
  rintro rfl
  rcases hReturned with ⟨a, hRet⟩
  cases e with
  | step t c =>
      rcases Machine.next_step_inv hNext with
        ⟨o, k, r, s, hThread, _, _⟩
      change w.threads t = _ at hRet
      rw [hThread] at hRet
      cases hRet
  | lose t =>
      rcases Machine.next_lose_inv hNext with
        ⟨o, k, hThread, _⟩
      change w.threads t = _ at hRet
      rw [hThread] at hRet
      cases hRet

/- Who has returned takes no step any more. -/
theorem returned_of_next
    (hNext : B.machine.next w e = some w')
    (hReturned : w.Returned t) : w'.Returned t := by
  have hNe := ne_of_returned hNext hReturned
  unfold World.Returned
  rw [Machine.threads_of_next_of_ne hNext hNe]
  exact hReturned

theorem returned_of_reaches
    (hReach : B.machine.Reaches ok w w')
    (hReturned : w.Returned t) : w'.Returned t :=
  hReach.invariant
    (P := fun v => World.Returned v t)
    hReturned
    (fun _ _ _ hHere _ hNext => returned_of_next hNext hHere)

/- The change of one event is owed to who has returned. -/
theorem credited_of_next
    (hKeeps : B.Keeps holds keep steady instant trusted)
    (hConceals : B.Conceals look hidden)
    (hMono :
      ∀ S S' v, (∀ t, S t → S' t) → inv S v → inv S' v)
    (hHeeding : Heeding holds keep steady instant trusted w)
    (hSettled : Settled hidden trusted owes w)
    (hNext : B.machine.next w e = some w')
    (hCredit :
      ∀ S d d', keep e.thread d d' →
        (owes e.thread → S e.thread) → inv S (look d) →
          inv S (look d'))
    (hInv : inv w.Returned (look w.shared.committed)) :
    Settled hidden trusted owes w' ∧
      inv w'.Returned (look w'.shared.committed) := by
  have hStill : inv w'.Returned (look w.shared.committed) :=
    hMono _ _ _ (fun _ => returned_of_next hNext) hInv
  have hKeep := (heeding_of_next hKeeps hHeeding hNext).2
  cases e with
  | step t c =>
      rcases Machine.next_step_inv hNext with
        ⟨o, k, r, s, hThread, hExec, rfl⟩
      have hKept :=
        kept_of_exec hKeeps hHeeding.committed
          (hHeeding.calm t)
          (hHeeding.threads t _ hThread).2.1 hExec
      refine ⟨?_, ?_⟩
      · intro t' p hOwes hLive
        by_cases hSame : t' = t
        · subst hSame
          rw [World.put_threads_self] at hLive
          cases hLive
          change (k r).Settles _ _ (s.frames t').length
          rw [length_of_exec hExec]
          exact (hSettled t' _ hOwes hThread r hKept.2).1
        · rw [World.put_threads_of_ne _ _ _ hSame] at hLive
          change p.Settles _ _ (s.frames t').length
          rw [hKept.1.frames t' hSame]
          exact hSettled t' p hOwes hLive
      · rcases look_of_exec hConceals hExec with
          hSame | ⟨hPublishes, a, hOk⟩
        · change inv _ (look s.committed)
          rw [hSame]
          exact hStill
        · apply hCredit _ _ _ hKeep _ hStill
          intro hOwes
          rcases
            (hSettled t _ hOwes hThread r hKept.2).2
              hPublishes a hOk with
            ⟨b, hRet⟩
          refine ⟨b, ?_⟩
          change (w.put s t _).threads t = _
          rw [World.put_threads_self, hRet]
  | lose t =>
      rcases Machine.next_lose_inv hNext with
        ⟨o, k, hThread, rfl⟩
      refine ⟨?_, hStill⟩
      intro t' p hOwes hLive
      by_cases hSame : t' = t
      · subst hSame
        rw [World.put_threads_self] at hLive
        cases hLive
      · rw [World.put_threads_of_ne _ _ _ hSame] at hLive
        have hFrames :
            (w.shared.abandon t).frames t' =
              w.shared.frames t' :=
          Store.private_abandon.frames t' hSame
        change
          p.Settles _ _
            ((w.shared.abandon t).frames t').length
        rw [hFrames]
        exact hSettled t' p hOwes hLive

/-
  What is committed in a run is owed to threads that have
  returned since its start.
-/
theorem credited_of_reaches
    (hKeeps : B.Keeps holds keep steady instant trusted)
    (hConceals : B.Conceals look hidden)
    (hMono :
      ∀ S S' v, (∀ t, S t → S' t) → inv S v → inv S' v)
    (hHeeding : Heeding holds keep steady instant trusted w)
    (hSettled : Settled hidden trusted owes w)
    (hReach : B.machine.Reaches ok w w')
    (hCredit :
      ∀ S t d d', ¬ w.Returned t → keep t d d' →
        (owes t → S t) → inv S (look d) → inv S (look d'))
    (hInv : inv w.Returned (look w.shared.committed)) :
    Settled hidden trusted owes w' ∧
      inv w'.Returned (look w'.shared.committed) := by
  induction hReach with
  | refl => exact ⟨hSettled, hInv⟩
  | tail hBefore hStep ih =>
      rcases hStep with ⟨e, _, hNext⟩
      apply
        credited_of_next hKeeps hConceals hMono
          (heeding_of_reaches hKeeps hHeeding hBefore) ih.1
          hNext _ ih.2
      intro S d d' hKeep hOwes hHere
      apply hCredit S e.thread d d' _ hKeep hOwes hHere
      intro hReturned
      have hStill := returned_of_reaches hBefore hReturned
      exact ne_of_returned hNext hStill rfl

------------------------------------------------------------
-- Readers
------------------------------------------------------------

omit [DecidableEq κ] in
/- What any backend keeps. -/
theorem keeps_nothing :
    B.Keeps (fun _ => True) (fun _ _ _ => True)
      (fun _ _ => True) (fun _ _ => True)
      (fun _ _ => True) where
  refl := fun _ _ => trivial
  trans := fun _ _ _ _ _ _ => trivial
  steadily := fun _ _ _ _ _ _ _ _ _ =>
    ⟨trivial, fun _ _ => ⟨trivial, trivial⟩⟩
  instantly := fun _ _ _ _ _ _ _ _ _ =>
    ⟨trivial, trivial, trivial⟩
  reply := fun _ _ _ _ _ _ _ _ _ =>
    ⟨trivial, trivial, trivial⟩

/- The others leave the frames of a connection alone. -/
theorem frames_of_next
    (hNext : B.machine.next w e = some w')
    (hNe : t ≠ e.thread) :
    w'.shared.frames t = w.shared.frames t := by
  cases e with
  | step t' c =>
      rcases Machine.next_step_inv hNext with
        ⟨o, k, r, s, _, hExec, rfl⟩
      have hAllowed :
          AllowedAt (fun _ => True) (fun _ => True)
            (w.shared.frames t').length o := by
        cases o with
        | query q => exact Or.inl trivial
        | _ => trivial
      have hKept :=
        kept_of_exec (B := B) keeps_nothing trivial
          (fun _ _ _ _ => ⟨trivial, trivial⟩) hAllowed hExec
      exact hKept.1.frames t hNe
  | lose t' =>
      rcases Machine.next_lose_inv hNext with ⟨o, k, _, rfl⟩
      exact Store.private_abandon.frames t hNe

/- The statement is answered on these data. -/
def Answers
    (B : Backend δ κ Q A ρ ε)
    (q : Q)
    (a : A q)
    (d : δ) : Prop :=
  (∃ lock f, B.plan q d = .done a lock f) ∨
    ∃ x d', B.reply q x d = some (a, d')

/- A statement outside a transaction is answered. -/
theorem answers_of_answered
    {q : Q}
    {c : Choice ε ρ}
    {r : Except ε (A q)}
    (hAuto : s.frames t = [])
    (hAnswered : B.Answered t q s c r s') :
    ∀ a, r = .ok a → B.Answers q a s.committed := by
  intro a hOk
  cases hAnswered with
  | fault e => cases hOk
  | refuse e hPlan => cases hOk
  | aborted hBroken => cases hOk
  | miss e hPlan => cases hOk
  | reply x b d hReply =>
      cases hOk
      exact Or.inr ⟨x, d, hReply⟩
  | done b f hPlan =>
      cases hOk
      rw [view_of_auto hAuto] at hPlan
      exact Or.inl ⟨none, f, hPlan⟩
  | locked b k f hPlan hFree =>
      cases hOk
      rw [view_of_auto hAuto] at hPlan
      exact Or.inl ⟨some k, f, hPlan⟩

/- A reader outside of transactions, as it is. -/
structure Reads
    (seen : (q : Q) → A q → Prop)
    (t : Tid)
    (p p' : Prog (TxOp Q) (TxOp.Res A) ε α)
    (w : World (Store δ κ) (TxOp Q) (TxOp.Res A) ε α) :
    Prop where
  frames : w.shared.frames t = []
  queries :
    p'.Conforms (fun o => ∃ q, o = .query q)
  observes : ∀ a, p'.Observes seen a → p.Observes seen a

/-
  The result of a reader comes from answers on what was
  committed while it ran.
-/
theorem observes_of_reaches
    {seen : (q : Q) → A q → Prop}
    {p : Prog (TxOp Q) (TxOp.Res A) ε α}
    {a : α}
    (hReach : B.machine.Reaches ok w w')
    (hThread : w.threads t = .live p)
    (hQueries : p.Conforms (fun o => ∃ q, o = .query q))
    (hAuto : w.shared.frames t = [])
    (hSeen :
      ∀ v q b, B.machine.Reaches ok w v →
        B.machine.Reaches ok v w' →
          B.Answers q b v.shared.committed → seen q b)
    (hRet : w'.threads t = .live (.ret a)) :
    p.Observes seen a := by
  have hAll :
      ∀ v, B.machine.Reaches ok w v →
        B.machine.Reaches ok v w' →
          ∀ p', v.threads t = .live p' →
            Reads seen t p p' v := by
    intro v hBefore
    induction hBefore with
    | refl =>
        intro _ p' hLive
        rw [hThread] at hLive
        cases hLive
        exact ⟨hAuto, hQueries, fun _ hIs => hIs⟩
    | @tail v v' hBefore hStep ih =>
        intro hAfter p' hLive
        rcases hStep with ⟨e, hOk, hNext⟩
        have hLater : B.machine.Reaches ok v w' :=
          (Machine.Reaches.refl.tail hOk hNext).trans hAfter
        by_cases hSame : t = e.thread
        · cases e with
          | step t' c =>
              rcases Machine.next_step_inv hNext with
                ⟨o, k, r, s, hCall, hExec, rfl⟩
              change t = t' at hSame
              subst hSame
              rw [World.put_threads_self] at hLive
              cases hLive
              have hReads := ih hLater _ hCall
              rcases hReads.queries.1 with ⟨q, rfl⟩
              have hAnswered := answered_of_exec hExec
              refine ⟨?_, hReads.queries.2 r, ?_⟩
              · apply List.length_eq_zero_iff.mp
                change (s.frames t).length = 0
                rw [length_of_exec hExec, hReads.frames]
                rfl
              · intro b hObserves
                apply hReads.observes
                refine ⟨r, ?_, hObserves⟩
                intro b' hResult
                apply hSeen v q b' hBefore hLater
                exact
                  answers_of_answered hReads.frames
                    hAnswered b' hResult
          | lose t' =>
              rcases Machine.next_lose_inv hNext with
                ⟨o, k, _, rfl⟩
              change t = t' at hSame
              subst hSame
              rw [World.put_threads_self] at hLive
              cases hLive
        · rw [Machine.threads_of_next_of_ne hNext hSame]
            at hLive
          have hReads := ih hLater p' hLive
          refine ⟨?_, hReads.queries, hReads.observes⟩
          rw [frames_of_next hNext hSame]
          exact hReads.frames
  exact
    (hAll w' hReach Machine.Reaches.refl _ hRet).observes a
      rfl

/- A program of statements is outside of transactions. -/
theorem frames_of_queries
    {p : Prog (TxOp Q) (TxOp.Res A) ε α}
    {steady instant : Q → Prop}
    {post : α → Prop}
    {n : Nat}
    (e : ε)
    (hQueries : p.Conforms (fun o => ∃ q, o = .query q))
    (hProg : p.Behaves steady instant trusted 0 post n) :
    n = 0 := by
  induction p with
  | ret a => exact hProg.1
  | raise e => exact hProg
  | call o k ih =>
      rcases hQueries.1 with ⟨q, rfl⟩
      refine ih (.error e) (hQueries.2 _) ?_
      exact hProg.2.2 (.error e) (fun _ hOk => by cases hOk)

end Backend

end Relational
