import Mathlib.Logic.Function.Basic

/-
  This file defines programs that talk to a shared
  environment one operation at a time.

  A program is a tree of operations.  Each operation gets
  one response, which is a result or an exception, and the
  rest of the program depends on that response.  Exceptions
  are values of the program language, so handlers and
  brackets are ordinary program transformers.

  Key definitions include:
    * `Prog`
    * `Prog.handle`
    * `Prog.bind`
    * `Prog.tryCatch`
    * `Prog.perform`
    * `Prog.bracket`
    * `Prog.run`
    * `Prog.Ends`
    * `Prog.Conforms`
    * `Prog.Heeds`
    * `Prog.embed`

  Key theorems include:
    * `Prog.run_call`
    * `Prog.run_handle`
    * `Prog.ends_handle`
    * `Prog.run_of_ends`
    * `Prog.Conforms.handle`
    * `Prog.ends_of_conforms`
    * `Prog.Heeds.handle`
    * `Prog.Heeds.embed`
-/

------------------------------------------------------------
-- Programs
------------------------------------------------------------

namespace Concurrency

/-
  A program over the operations `Op`, whose responses to `o`
  are values of `Res o` or exceptions of `ε`.
-/
inductive Prog
    (Op : Type)
    (Res : Op → Type)
    (ε α : Type) : Type
  | ret (a : α)
  | raise (e : ε)
  | call
      (o : Op)
      (k : Except ε (Res o) → Prog Op Res ε α)

namespace Prog

variable {Op : Type} {Res : Op → Type}
variable {ε α β γ σ : Type}

/-
  Continue a program after its return and after its raise.
-/
def handle :
    Prog Op Res ε α →
      (α → Prog Op Res ε β) →
        (ε → Prog Op Res ε β) →
          Prog Op Res ε β
| .ret a, f, _ => f a
| .raise e, _, h => h e
| .call o k, f, h =>
    .call o (fun r => (k r).handle f h)

/- Sequential composition; an exception skips the rest. -/
def bind
    (p : Prog Op Res ε α)
    (f : α → Prog Op Res ε β) :
    Prog Op Res ε β :=
  p.handle f .raise

/- Run `h` on the exception when `p` raises. -/
def tryCatch
    (p : Prog Op Res ε α)
    (h : ε → Prog Op Res ε α) :
    Prog Op Res ε α :=
  p.handle .ret h

instance : Monad (Prog Op Res ε) where
  pure := .ret
  bind := .bind

/- One operation, its exception raised. -/
def perform
    (o : Op) : Prog Op Res ε (Res o) :=
  .call o fun r =>
    match r with
    | .ok a => .ret a
    | .error e => .raise e

/- A value or an exception that needs no operation. -/
def ofExcept :
    Except ε α → Prog Op Res ε α
| .ok a => .ret a
| .error e => .raise e

/-
  Run `body` between `enter` and `leave`.  When `body`
  raises, `cancel` takes the place of `leave` and the
  exception goes on.
-/
def bracket
    (enter leave cancel : Op)
    (body : Prog Op Res ε α) :
    Prog Op Res ε α :=
  .call enter fun
    | .error e => .raise e
    | .ok _ =>
        body.handle
          (fun a =>
            .call leave fun
              | .error e => .raise e
              | .ok _ => .ret a)
          (fun e => .call cancel fun _ => .raise e)

/- The operation a program is about to perform. -/
def head : Prog Op Res ε α → Option Op
| .ret _ => none
| .raise _ => none
| .call o _ => some o

@[simp] theorem head_ret
    (a : α) :
    (ret a : Prog Op Res ε α).head = none := rfl

@[simp] theorem head_raise
    (e : ε) :
    (raise e : Prog Op Res ε α).head = none := rfl

@[simp] theorem head_call
    (o : Op)
    (k : Except ε (Res o) → Prog Op Res ε α) :
    (call o k).head = some o := rfl

@[simp] theorem handle_ret
    (a : α)
    (f : α → Prog Op Res ε β)
    (h : ε → Prog Op Res ε β) :
    (ret a : Prog Op Res ε α).handle f h = f a := rfl

@[simp] theorem handle_raise
    (e : ε)
    (f : α → Prog Op Res ε β)
    (h : ε → Prog Op Res ε β) :
    (raise e : Prog Op Res ε α).handle f h = h e := rfl

@[simp] theorem handle_call
    (o : Op)
    (k : Except ε (Res o) → Prog Op Res ε α)
    (f : α → Prog Op Res ε β)
    (h : ε → Prog Op Res ε β) :
    (call o k).handle f h =
      call o (fun r => (k r).handle f h) := rfl

/- Nested continuations of one program compose. -/
theorem handle_handle
    (p : Prog Op Res ε α)
    (f : α → Prog Op Res ε β)
    (h : ε → Prog Op Res ε β)
    (f' : β → Prog Op Res ε γ)
    (h' : ε → Prog Op Res ε γ) :
    (p.handle f h).handle f' h' =
      p.handle (fun a => (f a).handle f' h')
        (fun e => (h e).handle f' h') := by
  induction p with
  | ret a => rfl
  | raise e => rfl
  | call o k ih =>
      simp only [handle_call]
      congr 1
      funext r
      exact ih r

------------------------------------------------------------
-- Running Alone
------------------------------------------------------------

/-
  Run a program alone against an environment that answers
  every operation from its state.  The result is `none` when
  some operation gets no answer.
-/
def run
    (exec :
      (o : Op) → σ → Option (Except ε (Res o) × σ)) :
    Prog Op Res ε α → σ → Option (Except ε α × σ)
| .ret a, s => some (.ok a, s)
| .raise e, s => some (.error e, s)
| .call o k, s =>
    match exec o s with
    | none => none
    | some (r, s') => (k r).run exec s'

/- An operation that the environment answers. -/
theorem run_call
    {exec :
      (o : Op) → σ → Option (Except ε (Res o) × σ)}
    {o : Op}
    {k : Except ε (Res o) → Prog Op Res ε α}
    {r : Except ε (Res o)}
    {s s' : σ}
    (hExec : exec o s = some (r, s')) :
    (call o k).run exec s = (k r).run exec s' := by
  rw [run, hExec]

/- Continue with the answer of a finished run. -/
def resume
    (exec :
      (o : Op) → σ → Option (Except ε (Res o) × σ))
    (f : α → Prog Op Res ε β)
    (h : ε → Prog Op Res ε β) :
    Except ε α × σ → Option (Except ε β × σ)
| (.ok a, s) => (f a).run exec s
| (.error e, s) => (h e).run exec s

/- Running a continued program runs its parts in turn. -/
theorem run_handle
    (exec :
      (o : Op) → σ → Option (Except ε (Res o) × σ))
    (p : Prog Op Res ε α)
    (f : α → Prog Op Res ε β)
    (h : ε → Prog Op Res ε β)
    (s : σ) :
    (p.handle f h).run exec s =
      (p.run exec s).bind (resume exec f h) := by
  induction p generalizing s with
  | ret a => rfl
  | raise e => rfl
  | call o k ih =>
      simp only [handle_call, run]
      cases exec o s with
      | none => rfl
      | some answer => exact ih answer.1 answer.2

/-
  The program run alone comes to an end, with a return that
  establishes `Q` or a raise that establishes `E`.
-/
def Ends
    (exec :
      (o : Op) → σ → Option (Except ε (Res o) × σ)) :
    Prog Op Res ε α → (α → σ → Prop) →
      (ε → σ → Prop) → σ → Prop
| .ret a, Q, _, s => Q a s
| .raise e, _, E, s => E e s
| .call o k, Q, E, s =>
    ∃ r s', exec o s = some (r, s') ∧
      (k r).Ends exec Q E s'

section Ends

variable
  {exec : (o : Op) → σ → Option (Except ε (Res o) × σ)}
variable {s : σ}

theorem ends_mono
    {p : Prog Op Res ε α}
    {Q Q' : α → σ → Prop}
    {E E' : ε → σ → Prop}
    (hEnds : p.Ends exec Q E s)
    (hRet : ∀ a s, Q a s → Q' a s)
    (hRaise : ∀ e s, E e s → E' e s) :
    p.Ends exec Q' E' s := by
  induction p generalizing s with
  | ret a => exact hRet a s hEnds
  | raise e => exact hRaise e s hEnds
  | call o k ih =>
      rcases hEnds with ⟨r, s', hExec, hRest⟩
      exact ⟨r, s', hExec, ih r hRest⟩

theorem ends_handle
    {p : Prog Op Res ε α}
    {f : α → Prog Op Res ε β}
    {h : ε → Prog Op Res ε β}
    {Q : β → σ → Prop}
    {E : ε → σ → Prop}
    (hEnds :
      p.Ends exec (fun a s => (f a).Ends exec Q E s)
        (fun e s => (h e).Ends exec Q E s) s) :
    (p.handle f h).Ends exec Q E s := by
  induction p generalizing s with
  | ret a => exact hEnds
  | raise e => exact hEnds
  | call o k ih =>
      rcases hEnds with ⟨r, s', hExec, hRest⟩
      exact ⟨r, s', hExec, ih r hRest⟩

theorem ends_bind
    {p : Prog Op Res ε α}
    {f : α → Prog Op Res ε β}
    {Q : β → σ → Prop}
    {E : ε → σ → Prop}
    (hEnds :
      p.Ends exec (fun a s => (f a).Ends exec Q E s) E s) :
    (p.bind f).Ends exec Q E s :=
  ends_handle hEnds

/- An operation that the environment answers. -/
theorem ends_perform
    {o : Op}
    {Q : Res o → σ → Prop}
    {E : ε → σ → Prop}
    {r : Except ε (Res o)}
    {s' : σ}
    (hExec : exec o s = some (r, s'))
    (hEnds : (ofExcept r).Ends exec Q E s') :
    (perform o).Ends exec Q E s := by
  refine ⟨r, s', hExec, ?_⟩
  cases r with
  | ok a => exact hEnds
  | error e => exact hEnds

/- Two facts about the one run that there is. -/
theorem ends_and
    {p : Prog Op Res ε α}
    {Q Q' : α → σ → Prop}
    {E E' : ε → σ → Prop}
    (hLeft : p.Ends exec Q E s)
    (hRight : p.Ends exec Q' E' s) :
    p.Ends exec (fun a s => Q a s ∧ Q' a s)
      (fun e s => E e s ∧ E' e s) s := by
  induction p generalizing s with
  | ret a => exact ⟨hLeft, hRight⟩
  | raise e => exact ⟨hLeft, hRight⟩
  | call o k ih =>
      rcases hLeft with ⟨r, s', hExec, hRest⟩
      rcases hRight with ⟨r', s'', hExec', hRest'⟩
      rw [hExec] at hExec'
      cases hExec'
      exact ⟨r, s', hExec, ih r hRest hRest'⟩

/- The end of a run is the answer of `run`. -/
theorem run_of_ends
    {p : Prog Op Res ε α}
    {Q : α → σ → Prop}
    {E : ε → σ → Prop}
    (hEnds : p.Ends exec Q E s) :
    (∃ a s', p.run exec s = some (.ok a, s') ∧ Q a s') ∨
      ∃ e s', p.run exec s = some (.error e, s') ∧
        E e s' := by
  induction p generalizing s with
  | ret a => exact Or.inl ⟨a, s, rfl, hEnds⟩
  | raise e => exact Or.inr ⟨e, s, rfl, hEnds⟩
  | call o k ih =>
      rcases hEnds with ⟨r, s', hExec, hRest⟩
      rw [run_call hExec]
      exact ih r hRest

end Ends

------------------------------------------------------------
-- Conformance
------------------------------------------------------------

/-
  Every operation the program can come to perform satisfies
  `allowed`, whatever the responses before it.
-/
def Conforms
    (allowed : Op → Prop) :
    Prog Op Res ε α → Prop
| .ret _ => True
| .raise _ => True
| .call o k =>
    allowed o ∧ ∀ r, Conforms allowed (k r)

theorem Conforms.mono
    {allowed allowed' : Op → Prop}
    {p : Prog Op Res ε α}
    (hProg : p.Conforms allowed)
    (hWeaker : ∀ o, allowed o → allowed' o) :
    p.Conforms allowed' := by
  induction p with
  | ret a => trivial
  | raise e => trivial
  | call o k ih =>
      exact
        ⟨hWeaker o hProg.1, fun r => ih r (hProg.2 r)⟩

theorem Conforms.handle
    {allowed : Op → Prop}
    {p : Prog Op Res ε α}
    {f : α → Prog Op Res ε β}
    {h : ε → Prog Op Res ε β}
    (hProg : p.Conforms allowed)
    (hRet : ∀ a, (f a).Conforms allowed)
    (hRaise : ∀ e, (h e).Conforms allowed) :
    (p.handle f h).Conforms allowed := by
  induction p with
  | ret a => exact hRet a
  | raise e => exact hRaise e
  | call o k ih =>
      exact ⟨hProg.1, fun r => ih r (hProg.2 r)⟩

theorem Conforms.bind
    {allowed : Op → Prop}
    {p : Prog Op Res ε α}
    {f : α → Prog Op Res ε β}
    (hProg : p.Conforms allowed)
    (hRest : ∀ a, (f a).Conforms allowed) :
    (p.bind f).Conforms allowed :=
  hProg.handle hRest (fun _ => trivial)

theorem Conforms.tryCatch
    {allowed : Op → Prop}
    {p : Prog Op Res ε α}
    {h : ε → Prog Op Res ε α}
    (hProg : p.Conforms allowed)
    (hHandler : ∀ e, (h e).Conforms allowed) :
    (p.tryCatch h).Conforms allowed :=
  hProg.handle (fun _ => trivial) hHandler

theorem conforms_perform
    {allowed : Op → Prop}
    {o : Op}
    (hAllowed : allowed o) :
    (perform o : Prog Op Res ε (Res o)).Conforms allowed := by
  refine ⟨hAllowed, ?_⟩
  intro r
  cases r <;> exact trivial

theorem conforms_ofExcept
    {allowed : Op → Prop}
    (r : Except ε α) :
    (ofExcept r : Prog Op Res ε α).Conforms allowed := by
  cases r <;> exact trivial

/-
  A program whose operations are all answered comes to an
  end, with what every answer keeps.
-/
theorem ends_of_conforms
    {exec :
      (o : Op) → σ → Option (Except ε (Res o) × σ)}
    {allowed : Op → Prop}
    {P : σ → Prop}
    {p : Prog Op Res ε α}
    {s : σ}
    (hProg : p.Conforms allowed)
    (hStep :
      ∀ o s, allowed o → P s →
        ∃ r s', exec o s = some (r, s') ∧ P s')
    (hStart : P s) :
    p.Ends exec (fun _ => P) (fun _ => P) s := by
  induction p generalizing s with
  | ret a => exact hStart
  | raise e => exact hStart
  | call o k ih =>
      rcases hStep o s hProg.1 hStart with
        ⟨r, s', hExec, hNext⟩
      exact ⟨r, s', hExec, ih r (hProg.2 r) hNext⟩

------------------------------------------------------------
-- Trust
------------------------------------------------------------

/-
  Every operation the program can come to perform satisfies
  `allowed`, and what it returns satisfies `post`, as long as
  the results of the operations before are to be `trusted`.
-/
def Heeds
    (allowed : Op → Prop)
    (trusted : (o : Op) → Res o → Prop)
    (post : α → Prop) :
    Prog Op Res ε α → Prop
| .ret a => post a
| .raise _ => True
| .call o k =>
    allowed o ∧
      ∀ r, (∀ a, r = .ok a → trusted o a) →
        Heeds allowed trusted post (k r)

section Trust

variable {allowed : Op → Prop}
variable {trusted : (o : Op) → Res o → Prop}

theorem Heeds.handle
    {post' : α → Prop}
    {post : β → Prop}
    {p : Prog Op Res ε α}
    {f : α → Prog Op Res ε β}
    {h : ε → Prog Op Res ε β}
    (hProg : p.Heeds allowed trusted post')
    (hRet : ∀ a, post' a → (f a).Heeds allowed trusted post)
    (hRaise : ∀ e, (h e).Heeds allowed trusted post) :
    (p.handle f h).Heeds allowed trusted post := by
  induction p with
  | ret a => exact hRet a hProg
  | raise e => exact hRaise e
  | call o k ih =>
      refine ⟨hProg.1, ?_⟩
      intro r hTrusted
      exact ih r (hProg.2 r hTrusted)

theorem Heeds.bind
    {post' : α → Prop}
    {post : β → Prop}
    {p : Prog Op Res ε α}
    {f : α → Prog Op Res ε β}
    (hProg : p.Heeds allowed trusted post')
    (hRest :
      ∀ a, post' a → (f a).Heeds allowed trusted post) :
    (p.bind f).Heeds allowed trusted post :=
  hProg.handle hRest (fun _ => trivial)

theorem heeds_perform
    {o : Op}
    (hAllowed : allowed o) :
    (perform o : Prog Op Res ε (Res o)).Heeds allowed trusted
      (trusted o) := by
  refine ⟨hAllowed, ?_⟩
  intro r hTrusted
  cases r with
  | ok a => exact hTrusted a rfl
  | error e => exact trivial

theorem heeds_ofExcept
    (r : Except ε α) :
    (ofExcept r : Prog Op Res ε α).Heeds allowed trusted
      (fun a => r = .ok a) := by
  cases r with
  | ok a => exact rfl
  | error e => exact trivial

theorem Heeds.mono
    {post post' : α → Prop}
    {p : Prog Op Res ε α}
    (hProg : p.Heeds allowed trusted post)
    (hPost : ∀ a, post a → post' a) :
    p.Heeds allowed trusted post' := by
  induction p with
  | ret a => exact hPost a hProg
  | raise e => exact trivial
  | call o k ih =>
      refine ⟨hProg.1, ?_⟩
      intro r hTrusted
      exact ih r (hProg.2 r hTrusted)

end Trust

------------------------------------------------------------
-- Embeddings
------------------------------------------------------------

section Embeddings

variable {Op' : Type} {Res' : Op' → Type}
variable {up : Op → Op'}
variable {down : ∀ o, Res' (up o) → Res o}

/- The program over operations among which are its own. -/
def embed
    (up : Op → Op')
    (down : ∀ o, Res' (up o) → Res o) :
    Prog Op Res ε α → Prog Op' Res' ε α
| .ret a => .ret a
| .raise e => .raise e
| .call o k =>
    .call (up o) fun r =>
      (k (r.map (down o))).embed up down

theorem embed_handle
    (p : Prog Op Res ε α)
    (f : α → Prog Op Res ε β)
    (h : ε → Prog Op Res ε β) :
    (p.handle f h).embed up down =
      (p.embed up down).handle
        (fun a => (f a).embed up down)
        (fun e => (h e).embed up down) := by
  induction p with
  | ret a => rfl
  | raise e => rfl
  | call o k ih =>
      simp only [handle, embed, ih]

theorem Conforms.embed
    {allowed : Op → Prop}
    {allowed' : Op' → Prop}
    {p : Prog Op Res ε α}
    (hProg : p.Conforms allowed)
    (hOps : ∀ o, allowed o → allowed' (up o)) :
    (p.embed up down).Conforms allowed' := by
  induction p with
  | ret a => trivial
  | raise e => trivial
  | call o k ih =>
      exact
        ⟨hOps o hProg.1, fun r => ih _ (hProg.2 _)⟩

theorem Heeds.embed
    {allowed : Op → Prop}
    {trusted : (o : Op) → Res o → Prop}
    {allowed' : Op' → Prop}
    {trusted' : (o : Op') → Res' o → Prop}
    {post : α → Prop}
    {p : Prog Op Res ε α}
    (hProg : p.Heeds allowed trusted post)
    (hOps : ∀ o, allowed o → allowed' (up o))
    (hTrust :
      ∀ o a, trusted' (up o) a → trusted o (down o a)) :
    (p.embed up down).Heeds allowed' trusted' post := by
  induction p with
  | ret a => exact hProg
  | raise e => trivial
  | call o k ih =>
      refine ⟨hOps o hProg.1, ?_⟩
      intro r hTrusted
      apply ih
      apply hProg.2
      intro a hResult
      cases r with
      | error e => cases hResult
      | ok a' =>
          cases hResult
          exact hTrust o a' (hTrusted a' rfl)

end Embeddings

end Prog

end Concurrency
