import SiteAnalysis.Relational.Regime

/-
  This file defines the proof rules for a connection between
  its transactions.

  A connection at rest has no open frame and holds no lock;
  all that it knows is its own part of the data.

  Key definitions include:
    * `Regime.Resting`
    * `Regime.RestWp`
    * `Regime.Concludes`

  Key theorems include:
    * `Regime.wp_execute_rest`
    * `Regime.wp_atomic_rest`
-/

------------------------------------------------------------
-- Connections at Rest
------------------------------------------------------------

namespace Relational

open Concurrency

namespace Regime

variable {δ κ φ Ω N Q₀ : Type} {A : Q₀ → Type}
variable {ρ ε α β : Type} {B : Backend δ κ Q₀ A ρ ε}
variable {R : Regime B α φ Ω N} {t : Tid} {d : δ}
variable {ns : Tid → N} {live : Tid → Prop}
variable {l : Local δ κ φ Ω N} {o : Ω} {n : N}

/- No transaction is open, `o` is known and `n` is noted. -/
structure Resting
    (o : Ω)
    (n : N)
    (l : Local δ κ φ Ω N) : Prop where
  session : l.session = Session.idle
  own : l.own = o
  note : l.note = n

/- A query has failed. -/
theorem Resting.error
    (hRest : Resting o n l)
    (q : Q₀) :
    Resting o (R.noteError q n)
      { l with note := R.noteError q l.note } where
  session := hRest.session
  own := hRest.own
  note := congrArg (R.noteError q) hRest.note

/- A read is published without a change. -/
theorem publishable_refl
    {mine : κ → Prop}
    (hInv : R.inv d (Function.update ns t n) live) :
    R.Publishable t ns live mine d d n where
  inv := hInv
  guar := R.guar_refl t d
  own := fun _ _ => rfl
  frag := fun _ _ => rfl

/- What the verdict asks of a connection at rest. -/
def RestWp
    (R : Regime B α φ Ω N)
    (t : Tid)
    (q : Q₀)
    (o : Ω)
    (n : N)
    (d : δ)
    (ns : Tid → N)
    (live : Tid → Prop)
    (miss : ε → Local δ κ φ Ω N → Prop)
    (done : A q → Local δ κ φ Ω N → Prop) :
    Verdict δ κ ε (A q) → Prop
| .refuse _ => True
| .miss e => ∀ l, Resting o (R.noteError q n) l → miss e l
| .done a lock f =>
    R.Publishable t ns live (fun k => lock = some k) d (f d)
        (R.note t q a (f d) n) ∧
      ∀ l,
        Resting (R.own t (f d)) (R.note t q a (f d) n) l →
          done a l
| .outside => True

/- What is known at rest when a statement is executed. -/
structure Rests
    (R : Regime B α φ Ω N)
    (t : Tid)
    (o : Ω)
    (n : N)
    (d : δ)
    (ns : Tid → N)
    (live : Tid → Prop) : Prop where
  inv : R.inv d ns live
  own : R.own t d = o
  note : ns t = n
  live : live t

/- A transaction that is ready to commit. -/
structure Concludes
    (R : Regime B α φ Ω N)
    (t : Tid)
    (o : Ω)
    (n : N)
    (done : Local δ κ φ Ω N → Prop)
    (l : Local δ κ φ Ω N)
    (fr : Frame δ κ) : Prop where
  frames : l.session.frames = [fr]
  intact : fr.broken = false
  own : l.own = o
  note : l.note = n
  publish :
    ∀ d ns live, R.Fits t l d ns live →
      R.Publishable t ns live
          (fun k => l.session.held k ≠ none) d (fr.pending d)
          (R.noteCommit t (fr.pending d) n) ∧
        ∀ l',
          Resting (R.own t (fr.pending d))
              (R.noteCommit t (fr.pending d) n) l' →
            done l'

/- A transaction that is bound to be rolled back. -/
structure Abandons
    (o : Ω)
    (n : N)
    (l : Local δ κ φ Ω N) : Prop where
  frames : ∃ fr, l.session.frames = [fr]
  own : l.own = o
  note : l.note = n

theorem Abandons.fail
    (hAbandons : Abandons o n l) :
    Abandons o n { l with session := l.session.fail } where
  frames := by
    rcases hAbandons.frames with ⟨fr, hFrames⟩
    exact
      ⟨{ fr with broken := true },
        by simp [Session.fail, hFrames]⟩
  own := hAbandons.own
  note := hAbandons.note

------------------------------------------------------------
-- Rules
------------------------------------------------------------

variable [DecidableEq κ]

/- The rule of one statement. -/
theorem wp_execute_rest
    {q : Q₀}
    {Q : A q → Local δ κ φ Ω N → Prop}
    {E : ε → Local δ κ φ Ω N → Prop}
    (hShape : R.shape l (some (.query q)))
    (hRest : Resting o n l)
    (hFault :
      ∀ e l', Resting o (R.noteError q n) l' →
        R.Fails t q l e → E e l')
    (hReply :
      ∀ d ns live, R.Rests t o n d ns live →
        ∀ x a d', R.Permits t (.query q) (.reply x) d ns live →
          B.reply q x d = some (a, d') →
            R.Publishable t ns live (fun _ => False) d d'
                (R.note t q a d' n) ∧
              ∀ l,
                Resting (R.own t d') (R.note t q a d' n) l →
                  Q a l)
    (hPlan :
      ∀ d ns live, R.Rests t o n d ns live →
        R.Permits t (.query q) .proceed d ns live →
          R.RestWp t q o n d ns live E Q (B.plan q d)) :
    R.wp t (execute q) Q E l := by
  have hRests :
      ∀ d ns live, R.Fits t l d ns live →
        R.Rests t o n d ns live := by
    intro d ns live hFits
    exact
      ⟨hFits.inv, hFits.own.trans hRest.own,
        hFits.note.trans hRest.note, hFits.live⟩
  apply wp_execute_auto hShape hRest.session
  · intro e hFails
    exact hFault e _ (hRest.error q) hFails
  · intro d ns live hFits x a d' hPermits hAnswer
    have hReplied :=
      hReply d ns live (hRests d ns live hFits) x a d'
        hPermits hAnswer
    rw [hRest.note]
    exact
      ⟨hReplied.1,
        hReplied.2 _ ⟨hRest.session, rfl, rfl⟩⟩
  · intro d ns live hFits hPermits
    have hVerdict :=
      hPlan d ns live (hRests d ns live hFits) hPermits
    cases hCase : B.plan q d with
    | refuse e => trivial
    | outside => trivial
    | miss e =>
        rw [hCase] at hVerdict
        exact hVerdict _ (hRest.error q)
    | done a lock f =>
        rw [hCase] at hVerdict
        simp only [AutoWp, hRest.note]
        exact ⟨hVerdict.1, hVerdict.2 _ ⟨rfl, rfl, rfl⟩⟩

/- The rule of a transaction. -/
theorem wp_atomic_rest
    {body : Prog (TxOp Q₀) (TxOp.Res A) ε β}
    {Q : β → Local δ κ φ Ω N → Prop}
    {E : ε → Local δ κ φ Ω N → Prop}
    (hShape : R.shape l (some .begin))
    (hRest : Resting o n l)
    (hFault :
      ∀ e l, Resting o n l → R.Faults t .begin l e → E e l)
    (hBody :
      ∀ l₀ : Local δ κ φ Ω N,
        l₀.session = Session.begin Session.idle →
          l₀.own = o → l₀.note = n →
            R.wp t body
              (fun a l' =>
                R.shape l' (some .commit) ∧
                  ∃ fr n',
                    R.Concludes t o n' (Q a) l' fr ∧
                      ∀ e l'', R.Faults t .commit l' e →
                        Resting o n' l'' → E e l'')
              (fun e l' =>
                R.shape l' (some .rollback) ∧
                  ∃ n', Abandons o n' l' ∧
                    ∀ l'', Resting o n' l'' → E e l'')
              l₀) :
    R.wp t (atomic body) Q E l := by
  apply wp_atomic hShape
    (fun e hFaults => hFault e l hRest hFaults)
  have hBodyWp :=
    hBody { l with session := l.session.begin }
      (by rw [hRest.session]) hRest.own hRest.note
  apply Discipline.wp_mono hBodyWp
  · rintro a l' ⟨hShape', fr, n', hConcludes, hRaise⟩
    refine
      ⟨fr, hShape', hConcludes.frames, hConcludes.intact,
        ?_, ?_⟩
    · intro e hFaults
      exact
        hRaise e _ hFaults
          ⟨rfl, hConcludes.own, hConcludes.note⟩
    · intro d ns live hFits _
      have hPublish := hConcludes.publish d ns live hFits
      rw [hConcludes.note]
      exact ⟨hPublish.1, hPublish.2 _ ⟨rfl, rfl, rfl⟩⟩
  · rintro e l' ⟨hShape', n', hAbandons, hRaise⟩
    exact
      ⟨hAbandons.frames, hShape',
        hRaise _ ⟨rfl, hAbandons.own, hAbandons.note⟩⟩

/- The same rule where nothing is noted. -/
theorem wp_atomic_plain
    {frag : κ → δ → φ}
    {own : Tid → δ → Ω}
    {inv : δ → Prop}
    {guar : Tid → δ → δ → Prop}
    {hRefl : ∀ t d, guar t d d}
    {l : Local δ κ φ Ω Unit}
    {body : Prog (TxOp Q₀) (TxOp.Res A) ε β}
    {Q : β → Local δ κ φ Ω Unit → Prop}
    {E : ε → Local δ κ φ Ω Unit → Prop}
    (hRest : Resting o () l)
    (hFault : ∀ e l, Resting o () l → E e l)
    (hBody :
      ∀ l₀ : Local δ κ φ Ω Unit,
        l₀.session = Session.begin Session.idle →
          l₀.own = o →
            (plain B α frag own inv guar hRefl).wp t body
              (fun a l' =>
                ∃ fr,
                  (plain B α frag own inv guar
                      hRefl).Concludes
                    t o () (Q a) l' fr)
              (fun _ => Abandons o ()) l₀) :
    (plain B α frag own inv guar hRefl).wp t (atomic body) Q
      E l := by
  apply wp_atomic_rest trivial hRest
    (fun e l' hRest' _ => hFault e l' hRest')
  intro l₀ hSession hOwn _
  apply Discipline.wp_mono (hBody l₀ hSession hOwn)
  · rintro a l' ⟨fr, hConcludes⟩
    exact
      ⟨trivial, fr, (), hConcludes,
        fun e l'' _ hRest' => hFault e l'' hRest'⟩
  · intro e l' hAbandons
    exact ⟨trivial, (), hAbandons, hFault e⟩

end Regime

end Relational
