import SiteAnalysis.Relational.Rest

/-
  This file proves the rule of programs whose statements only
  make changes of one kind.

  Such a program needs no proof of its own: it is enough to
  look at the statements in it.

  Key definitions include:
    * `Prog.Straight`
    * `Regime.Confines`
    * `Regime.Confined`
    * `Regime.Queries`

  Key theorems include:
    * `Prog.straight_perform`
    * `Prog.Straight.embed`
    * `Regime.wp_straight`
    * `Regime.wp_atomic_straight`
    * `Regime.wp_execute_confined`
-/

------------------------------------------------------------
-- Straight Programs
------------------------------------------------------------

namespace Concurrency

namespace Prog

variable {Op : Type} {Res : Op → Type} {ε α β : Type}
variable {allowed : Op → Prop}
variable {trusted : (o : Op) → Res o → Prop}

/-
  As long as its results are as trusted, the program performs
  allowed operations only, and it raises every error of an
  operation as it is.
-/
def Straight
    (allowed : Op → Prop)
    (trusted : (o : Op) → Res o → Prop) :
    Prog Op Res ε α → Prop
| .ret _ => True
| .raise _ => True
| .call o k =>
    allowed o ∧ (∀ e, k (.error e) = .raise e) ∧
      ∀ a, trusted o a →
        (k (.ok a)).Straight allowed trusted

/- The first operation, and what is done with its result. -/
theorem straight_perform
    {o : Op}
    {f : Res o → Prog Op Res ε β}
    (hOp : allowed o)
    (hRest :
      ∀ a, trusted o a → (f a).Straight allowed trusted) :
    (perform o >>= f).Straight allowed trusted :=
  ⟨hOp, fun _ => rfl, hRest⟩

theorem Straight.bind
    {p : Prog Op Res ε α}
    {f : α → Prog Op Res ε β}
    (hProg : p.Straight allowed trusted)
    (hRest : ∀ a, (f a).Straight allowed trusted) :
    (p >>= f).Straight allowed trusted := by
  induction p with
  | ret a => exact hRest a
  | raise e => trivial
  | call o k ih =>
      refine ⟨hProg.1, ?_, ?_⟩
      · intro e
        change (k (.error e)).bind f = _
        rw [hProg.2.1 e]
        rfl
      · intro a hTrusted
        exact ih (.ok a) (hProg.2.2 a hTrusted)

/- The same program over more operations. -/
theorem Straight.embed
    {Op' : Type}
    {Res' : Op' → Type}
    {up : Op → Op'}
    {down : ∀ o, Res' (up o) → Res o}
    {allowed' : Op' → Prop}
    {trusted' : (o : Op') → Res' o → Prop}
    {p : Prog Op Res ε α}
    (hProg : p.Straight allowed trusted)
    (hOps : ∀ o, allowed o → allowed' (up o))
    (hTrust :
      ∀ o a, trusted' (up o) a → trusted o (down o a)) :
    (p.embed up down).Straight allowed' trusted' := by
  induction p with
  | ret a => trivial
  | raise e => trivial
  | call o k ih =>
      refine ⟨hOps o hProg.1, ?_, ?_⟩
      · intro e
        change (k (.error e)).embed up down = _
        rw [hProg.2.1 e]
        rfl
      · intro a hTrusted
        exact
          ih (.ok (down o a))
            (hProg.2.2 _ (hTrust o a hTrusted))

end Prog

end Concurrency

------------------------------------------------------------
-- Confined Transactions
------------------------------------------------------------

namespace Relational

open Concurrency

namespace Regime

variable {δ κ φ Ω N Q₀ : Type} {A : Q₀ → Type}
variable {ρ ε α β : Type} {B : Backend δ κ Q₀ A ρ ε}
variable {R : Regime B α φ Ω N}

/-
  The allowed statements of a connection make small changes
  to data behind their locks, and note nothing.
-/
structure Confines
    (R : Regime B α φ Ω N)
    (t : Tid)
    (allowed : Q₀ → Prop)
    (trusted : (q : Q₀) → A q → Prop)
    (small : δ → δ → Prop) : Prop where
  refl : ∀ d, small d d
  trans :
    ∀ d d' d'', small d d' → small d' d'' → small d d''
  plan :
    ∀ q d a lock f, allowed q →
      B.plan q d = .done a lock f →
        trusted q a ∧
          ∀ d', small d' (f d') ∧
            ∀ k, lock ≠ some k →
              R.frag k (f d') = R.frag k d'
  reply :
    ∀ q x d a d', allowed q →
      B.reply q x d = some (a, d') →
        trusted q a ∧ small d d' ∧
          ∀ k, R.frag k d' = R.frag k d
  shape : ∀ l o, R.shape l o
  note :
    ∀ q a d n, allowed q → R.note t q a d n = n
  error : ∀ q n, allowed q → R.noteError q n = n
  inv :
    ∀ d d' ns live, small d d' → R.inv d ns live →
      R.inv d' ns live
  guar : ∀ d d', small d d' → R.guar t d d'
  own : ∀ t' d d', R.own t' d' = R.own t' d

/-
  A transaction of one frame whose changes are small, and
  that holds the locks of what it changes.
-/
structure Confined
    (R : Regime B α φ Ω N)
    (small : δ → δ → Prop)
    (o : Ω)
    (n : N)
    (l : Local δ κ φ Ω N)
    (fr : Frame δ κ) : Prop where
  frames : l.session.frames = [fr]
  small : ∀ d, small d (fr.pending d)
  frag :
    ∀ k, l.session.held k = none →
      ∀ d, R.frag k (fr.pending d) = R.frag k d
  own : l.own = o
  note : l.note = n

variable {t : Tid} {allowed : Q₀ → Prop}
variable {trusted : (q : Q₀) → A q → Prop}
variable {small : δ → δ → Prop}
variable {o : Ω} {n : N} {l : Local δ κ φ Ω N}
variable {fr : Frame δ κ}

theorem Confined.abandons
    (hConfined : R.Confined small o n l fr) :
    Abandons o n l :=
  ⟨⟨fr, hConfined.frames⟩, hConfined.own, hConfined.note⟩

theorem Confined.fail
    (hConfined : R.Confined small o n l fr) :
    R.Confined small o n
      { l with session := l.session.fail }
      { fr with broken := true } where
  frames := by simp [Session.fail, hConfined.frames]
  small := hConfined.small
  frag := by
    intro k hFree
    apply hConfined.frag k
    simpa [Session.fail, hConfined.frames] using hFree
  own := hConfined.own
  note := hConfined.note

/- A small change of data whose lock is held. -/
theorem Confined.write
    {f : δ → δ}
    (hTrans :
      ∀ d d' d'', small d d' → small d' d'' → small d d'')
    (hConfined : R.Confined small o n l fr)
    (hSmall : ∀ d, small d (f d))
    (hFrag :
      ∀ k, l.session.held k = none →
        ∀ d, R.frag k (f d) = R.frag k d) :
    R.Confined small o n
      { l with session := l.session.write f }
      { fr with pending := f ∘ fr.pending } where
  frames := by simp [Session.write, hConfined.frames]
  small := fun d =>
    hTrans _ _ _ (hConfined.small d) (hSmall _)
  frag := by
    intro k hFree d
    have hOld : l.session.held k = none := by
      simpa [Session.write, hConfined.frames] using hFree
    change R.frag k (f (fr.pending d)) = _
    rw [hFrag k hOld, hConfined.frag k hOld]
  own := hConfined.own
  note := hConfined.note

variable [DecidableEq κ]

/- A lock is taken, or is held already. -/
theorem Confined.acquire
    (k : κ)
    (v : φ)
    (hConfined : R.Confined small o n l fr) :
    ∃ fr',
      R.Confined small o n
          { l with session := l.session.acquire k v } fr' ∧
        fr'.broken = fr.broken ∧
          (l.session.acquire k v).held k ≠ none := by
  cases hCase : (l.session.held k).isSome with
  | true =>
      have hSame : l.session.acquire k v = l.session := by
        simp [Session.acquire, hConfined.frames, hCase]
      rw [hSame]
      refine ⟨fr, hConfined, rfl, ?_⟩
      intro hNone
      rw [hNone] at hCase
      cases hCase
  | false =>
      have hNew :
          l.session.acquire k v =
            { frames := [{ fr with locks := k :: fr.locks }]
              held :=
                Function.update l.session.held k
                  (some v) } := by
        simp [Session.acquire, hConfined.frames, hCase]
      rw [hNew]
      refine ⟨_, ⟨rfl, ?_, ?_, ?_, ?_⟩, rfl, ?_⟩
      · exact hConfined.small
      · intro k' hFree
        apply hConfined.frag k'
        change Function.update _ _ _ _ = _ at hFree
        by_cases hEq : k' = k
        · rw [hEq, Function.update_self] at hFree
          cases hFree
        · rwa [Function.update_of_ne hEq] at hFree
      · exact hConfined.own
      · exact hConfined.note
      · change Function.update _ _ _ _ ≠ _
        rw [Function.update_self]
        exact Option.some_ne_none v

------------------------------------------------------------
-- Rules
------------------------------------------------------------

/- The queries of a transaction. -/
def Queries
    (allowed : Q₀ → Prop) : TxOp Q₀ → Prop
| .query q => allowed q
| _ => False

theorem query_of_queries
    {op : TxOp Q₀}
    (hQueries : Queries allowed op) :
    ∃ q, op = .query q ∧ allowed q := by
  cases op with
  | query q => exact ⟨q, rfl, hQueries⟩
  | begin => exact hQueries.elim
  | commit => exact hQueries.elim
  | rollback => exact hQueries.elim

/- What is trusted of their results. -/
def Results
    (trusted : (q : Q₀) → A q → Prop) :
    (o : TxOp Q₀) → TxOp.Res A o → Prop
| .query q, a => trusted q a
| _, _ => True

/- The rule of a straight program in a transaction. -/
theorem wp_straight
    {body : Prog (TxOp Q₀) (TxOp.Res A) ε β}
    (hConfines : R.Confines t allowed trusted small)
    (hBody :
      body.Straight (Queries allowed) (Results trusted))
    (hConfined : R.Confined small o n l fr)
    (hIntact : fr.broken = false) :
    R.wp t body
      (fun _ l' =>
        ∃ fr', R.Confined small o n l' fr' ∧
          fr'.broken = false)
      (fun _ l' => Abandons o n l') l := by
  induction body generalizing l fr with
  | ret a => exact ⟨fr, hConfined, hIntact⟩
  | raise e => exact hConfined.abandons
  | call op k ih =>
      rcases query_of_queries hBody.1 with
        ⟨q, rfl, hAllowed⟩
      rcases hBody with ⟨_, hRaise, hRest⟩
      have hError :
          ∀ e l', Abandons o n l' →
            R.wp t (k (.error e))
              (fun _ l' =>
                ∃ fr', R.Confined small o n l' fr' ∧
                  fr'.broken = false)
              (fun _ l' => Abandons o n l') l' := by
        intro e l' hAbandons
        rw [hRaise e]
        exact hAbandons
      apply
        wp_query_open (hConfines.shape _ _)
          hConfined.frames hIntact
      · intro e _
        rw [hConfines.error q _ hAllowed]
        exact hError e _ hConfined.fail.abandons
      · intro d ns live hFits x a d' _ hReply
        rcases hConfines.reply q x d a d' hAllowed hReply with
          ⟨hTrusted, hSmall⟩
        rw [hConfines.note q a d' _ hAllowed]
        refine ⟨⟨?_, ?_, ?_, ?_⟩, ?_⟩
        · apply inv_same _ hFits.note
          exact hConfines.inv _ _ _ _ hSmall.1 hFits.inv
        · exact hConfines.guar _ _ hSmall.1
        · exact fun t' _ => hConfines.own t' _ _
        · exact fun k _ => hSmall.2 k
        · apply ih (.ok a) (hRest a hTrusted) _ hIntact
          refine
            ⟨hConfined.frames, hConfined.small,
              hConfined.frag, ?_, hConfined.note⟩
          exact
            (hConfines.own t d d').trans
              (hFits.own.trans hConfined.own)
      · intro d ns live hFits _
        have hNote :
            ∀ a, R.note t q a d l.note = l.note :=
          fun a => hConfines.note q a d _ hAllowed
        have hInv :
            R.inv d (Function.update ns t l.note) live :=
          inv_same hFits.inv hFits.note
        cases hPlan : B.plan q (l.session.view d) with
        | refuse e => trivial
        | outside => trivial
        | miss e =>
            simp only [OpenWp]
            rw [hConfines.error q _ hAllowed]
            exact hError e _ hConfined.abandons
        | done a lock f =>
            rcases
              hConfines.plan q _ a lock f hAllowed hPlan with
              ⟨hTrusted, hChange⟩
            cases lock with
            | none =>
                have hWritten :=
                  hConfined.write hConfines.trans
                    (fun d' => (hChange d').1)
                    (fun k _ d' =>
                      (hChange d').2 k (by simp))
                simp only [OpenWp, hNote]
                exact
                  ⟨hInv,
                    ih (.ok a) (hRest a hTrusted) hWritten
                      hIntact⟩
            | some k₀ =>
                rcases
                  hConfined.acquire k₀ (R.frag k₀ d) with
                  ⟨fr', hAcquired, hBroken, hHeld⟩
                have hWritten :=
                  hAcquired.write hConfines.trans
                    (fun d' => (hChange d').1)
                    (by
                      intro k hFree d'
                      apply (hChange d').2 k
                      intro hEq
                      cases hEq
                      exact hHeld hFree)
                simp only [OpenWp, hNote]
                exact
                  ⟨hInv,
                    ih (.ok a) (hRest a hTrusted) hWritten
                      (hBroken.trans hIntact)⟩

/- The rule of a straight program under `atomic`. -/
theorem wp_atomic_straight
    {body : Prog (TxOp Q₀) (TxOp.Res A) ε β}
    (hConfines : R.Confines t allowed trusted small)
    (hBody :
      body.Straight (Queries allowed) (Results trusted))
    (hCommit : ∀ d, R.noteCommit t d n = n)
    (hRest : Resting o n l) :
    R.wp t (atomic body) (fun _ l' => Resting o n l')
      (fun _ l' => Resting o n l') l := by
  apply wp_atomic_rest (hConfines.shape _ _) hRest
  · intro e l' hRest' _
    exact hRest'
  · intro l₀ hSession hOwn hNote
    have hConfined :
        R.Confined small o n l₀ ⟨id, [], false⟩ := by
      refine ⟨?_, hConfines.refl, ?_, hOwn, hNote⟩
      · rw [hSession]
        rfl
      · intro k _ d
        rfl
    apply
      Discipline.wp_mono
        (wp_straight hConfines hBody hConfined rfl)
    · rintro a l' ⟨fr, hConfined', hIntact⟩
      refine
        ⟨hConfines.shape _ _, fr, n,
          ⟨hConfined'.frames, hIntact, hConfined'.own,
            hConfined'.note, ?_⟩,
          fun e l'' _ hRest'' => hRest''⟩
      intro d ns live hFits
      have hSmall := hConfined'.small d
      have hNoted : ns t = n :=
        hFits.note.trans hConfined'.note
      rw [hCommit]
      refine ⟨⟨?_, ?_, ?_, ?_⟩, ?_⟩
      · apply inv_same _ hNoted
        exact hConfines.inv _ _ _ _ hSmall hFits.inv
      · exact hConfines.guar _ _ hSmall
      · exact fun t' _ => hConfines.own t' _ _
      · intro k hFree
        exact
          hConfined'.frag k (Classical.not_not.mp hFree) d
      · intro l'' hRest''
        refine ⟨hRest''.session, ?_, hRest''.note⟩
        rw [hRest''.own, hConfines.own t d]
        exact hFits.own.trans hConfined'.own
    · intro e l' hAbandons
      exact
        ⟨hConfines.shape _ _, n, hAbandons,
          fun l'' hRest'' => hRest''⟩

/- The rule of one such statement at rest. -/
theorem wp_execute_confined
    {q : Q₀}
    (hConfines : R.Confines t allowed trusted small)
    (hAllowed : allowed q)
    (hRest : Resting o n l) :
    R.wp t (execute q)
      (fun a l' => trusted q a ∧ Resting o n l')
      (fun _ l' => Resting o n l') l := by
  have hStill :
      ∀ d d' ns live, R.Rests t o n d ns live →
        small d d' → R.own t d' = o ∧
          R.inv d' (Function.update ns t n) live := by
    intro d d' ns live hRests hSmall
    refine ⟨(hConfines.own t d d').trans hRests.own, ?_⟩
    apply inv_same _ hRests.note
    exact hConfines.inv _ _ _ _ hSmall hRests.inv
  apply wp_execute_rest (hConfines.shape _ _) hRest
  · intro e l' hRest' _
    rw [hConfines.error q _ hAllowed] at hRest'
    exact hRest'
  · intro d ns live hRests x a d' _ hReply
    rcases hConfines.reply q x d a d' hAllowed hReply with
      ⟨hTrusted, hSmall⟩
    have hKept := hStill d d' ns live hRests hSmall.1
    rw [hConfines.note q a d' _ hAllowed, hKept.1]
    exact
      ⟨⟨hKept.2, hConfines.guar _ _ hSmall.1,
          fun t' _ => hConfines.own t' _ _,
          fun k _ => hSmall.2 k⟩,
        fun l' hRest' => ⟨hTrusted, hRest'⟩⟩
  · intro d ns live hRests _
    cases hPlan : B.plan q d with
    | refuse e => trivial
    | outside => trivial
    | miss e =>
        intro l' hRest'
        rw [hConfines.error q _ hAllowed] at hRest'
        exact hRest'
    | done a lock f =>
        rcases
          hConfines.plan q d a lock f hAllowed hPlan with
          ⟨hTrusted, hChange⟩
        have hSmall := hChange d
        have hKept := hStill d (f d) ns live hRests hSmall.1
        simp only [RestWp]
        rw [hConfines.note q a (f d) _ hAllowed, hKept.1]
        exact
          ⟨⟨hKept.2, hConfines.guar _ _ hSmall.1,
              fun t' _ => hConfines.own t' _ _,
              fun k hFree => hSmall.2 k hFree⟩,
            fun l' hRest' => ⟨hTrusted, hRest'⟩⟩

end Regime

end Relational
