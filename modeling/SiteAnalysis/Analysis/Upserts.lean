import Mathlib.Algebra.Order.BigOperators.Group.Finset
import SiteAnalysis.Analysis.Tally

/-
  This file proves when concurrent rollups for one user and
  one URL leave one row that counts each of them once.

  The row's lock is taken by the insertion or the increment
  and held to the commit.  A rollup that loses the race of
  the first insertion finds the winner's row, which is
  committed by then.  A row that has been soft-deleted is in
  the way of the insertion and out of sight of the lookup.

  Key definitions include:
    * `Stage`
    * `Stage.program`
    * `Stage.frames`
    * `Stage.Fits`
    * `Follows`
    * `Countable`
    * `Racing`
    * `CountsEach`

  Key theorems include:
    * `moves_of_step`
    * `stages_of_reaches`
    * `unfailed_of_reaches`
    * `completes_of_racing`
    * `count_of_reaches`
    * `upserts_counted`
-/

------------------------------------------------------------
-- Stages
------------------------------------------------------------

namespace SiteAnalysis.Analysis

open Concurrency
open Relational
open Python
open Reports

abbrev UpsertWorld :=
  World (Store Db HistoryKey) (TxOp Statement)
    (TxOp.Res Statement.Answer) Exc Unit

/- `n` rollups for one user and one URL. -/
def startUpserts
    (n : Nat)
    (key : HistoryKey)
    (nows : Tid → Time)
    (d : Db) : UpsertWorld where
  shared := Store.quiet d
  threads := fun t =>
    .live
      (if t < n then upsertHistory key (nows t) else .ret ())

/- No statement fails by itself, and no connection is lost. -/
def Interleaves
    (_ : UpsertWorld) : Event (Choice Exc Reply) → Prop
| .step _ (.fault _) => False
| .step _ _ => True
| .lose _ => False

/- The row, if the default manager shows it. -/
def shownHistory
    (key : HistoryKey)
    (d : Db) : Option AnalysisHistory :=
  (d.findHistory key).filter (fun row => !row.isDeleted)

/- The `DoesNotExist` of the history. -/
def historyMissing : Exc :=
  .doesNotExist "AnalysisHistory"

/- What the database makes of the lookup. -/
def lookupVerdict :
    Option AnalysisHistory →
      Verdict Db HistoryKey Exc AnalysisHistory
| some row => .read row
| none => .miss historyMissing

/- What it makes of a change that the columns have passed. -/
def changeVerdict
    {α : Type}
    (key : HistoryKey)
    (a : α)
    (f : Db → Db) :
    Except Exc Unit → Verdict Db HistoryKey Exc α
| .error e => .refuse e
| .ok () => .done a (some key) f

/- How far a rollup has come. -/
inductive Stage
  | idle
  | starting
  | looking
  | missing
  | inserting
  | inserted
  | refused
  | rejected (m : String)
  | raced
  | found
  | counted (created : Bool)
  | closing (created : Bool)
  | failed (e : Exc) (broken : Bool)
  | returned
  | raised (e : Exc)

/- What follows when a frame is opened. -/
def opened
    {α : Type} : Service α → Service α
| .call .begin k => k (.ok ())
| p => p

/- What follows when a frame is rolled back. -/
def cancelled
    {α : Type} : Service α → Service α
| .call .rollback k => k (.ok ())
| p => p

/- What follows the lookup of the row. -/
def looked
    {α : Type}
    (r : Except Exc AnalysisHistory) : Service α → Service α
| .call (.query (.getHistory _)) k => k r
| p => p

/- What follows the insertion of the row. -/
def tried
    {α : Type}
    (r : Except Exc AnalysisHistory) : Service α → Service α
| .call (.query (.createHistory _)) k => k r
| p => p

namespace Stage

/- What is left once the savepoint has been opened. -/
def insertion
    (key : HistoryKey)
    (now : Time) : Service Unit :=
  opened
    (looked (.error historyMissing)
      (opened (upsertHistory key now)))

/- What is left of the rollup. -/
def program
    (key : HistoryKey)
    (now : Time) : Stage → Service Unit
| .idle => .ret ()
| .starting => upsertHistory key now
| .looking => opened (upsertHistory key now)
| .missing =>
    looked (.error historyMissing)
      (opened (upsertHistory key now))
| .inserting => insertion key now
| .inserted =>
    tried (.ok (firstHistory key now)) (insertion key now)
| .refused =>
    tried (.error duplicateKey) (insertion key now)
| .rejected m =>
    tried (.error (.database .dataError m))
      (insertion key now)
| .raced =>
    cancelled
      (tried (.error duplicateKey) (insertion key now))
| .found =>
    opened
      (atomic
        ((query (.incrementHistory key now)).bind fun _ =>
          invalidateHistoryCache key.1))
| .counted _ =>
    opened (atomic (invalidateHistoryCache key.1))
| .closing _ => opened (atomic (.ret ()))
| .failed e _ => opened (atomic (.raise e))
| .returned => .ret ()
| .raised e => .raise e

/- The change that the rollup commits. -/
def change
    (key : HistoryKey)
    (now : Time) : Bool → Db → Db
| true => insertHistory (firstHistory key now)
| false => updateHistory key (.increment now)

/- A frame with a change, and the lock of the row. -/
def writing
    (key : HistoryKey)
    (f : Db → Db) : Frame Db HistoryKey where
  pending := f
  locks := [key]
  broken := false

/- The open frames of the rollup. -/
def frames
    (key : HistoryKey)
    (now : Time) : Stage → List (Frame Db HistoryKey)
| .idle => []
| .starting => []
| .looking => [Frame.fresh]
| .missing => [Frame.fresh]
| .inserting => [Frame.fresh, Frame.fresh]
| .inserted =>
    [writing key (change key now true), Frame.fresh]
| .refused =>
    [{ Frame.fresh with broken := true }, Frame.fresh]
| .rejected _ =>
    [{ Frame.fresh with broken := true }, Frame.fresh]
| .raced => [Frame.fresh]
| .found => [Frame.fresh]
| .counted created =>
    [writing key (change key now created)]
| .closing created =>
    [writing key (change key now created)]
| .failed _ broken => [{ Frame.fresh with broken := broken }]
| .returned => []
| .raised _ => []

/- The rollup holds the lock of the row. -/
def Writes : Stage → Prop
| .inserted => True
| .counted _ => True
| .closing _ => True
| _ => False

/- The rollup is about to raise an exception, or has. -/
def Fails : Stage → Prop
| .rejected _ => True
| .failed _ _ => True
| .raised _ => True
| _ => False

/- How many steps the rollup may still take. -/
def rank : Stage → Nat
| .idle => 0
| .starting => 9
| .looking => 8
| .missing => 7
| .inserting => 6
| .inserted => 3
| .refused => 5
| .rejected _ => 2
| .raced => 4
| .found => 3
| .counted _ => 2
| .closing _ => 1
| .failed _ _ => 1
| .returned => 0
| .raised _ => 0

/- The change suits the row and the columns. -/
def Ready
    (key : HistoryKey)
    (now : Time)
    (d : Db) : Bool → Prop
| true =>
    d.findHistory key = none ∧
      (firstHistory key now).check = .ok ()
| false =>
    ∃ row, d.findHistory key = some row ∧
      row.isDeleted = false ∧
        (row.increment now).check = .ok ()

/- What the rollup knows of the row. -/
def Fits
    (key : HistoryKey)
    (now : Time)
    (d : Db) : Stage → Prop
| .inserted => Ready key now d true
| .refused => d.findHistory key ≠ none
| .raced => d.findHistory key ≠ none
| .found => shownHistory key d ≠ none
| .counted created => Ready key now d created
| .closing created => Ready key now d created
| _ => True

end Stage

/- What the database makes of the insertion. -/
def insertVerdict
    (key : HistoryKey)
    (now : Time) :
    Option AnalysisHistory →
      Verdict Db HistoryKey Exc AnalysisHistory
| some _ => .refuse duplicateKey
| none =>
    changeVerdict key (firstHistory key now)
      (Stage.change key now true) (firstHistory key now).check

/- What the database makes of the increment. -/
def incrementVerdict
    (key : HistoryKey)
    (now : Time) :
    Option AnalysisHistory → Verdict Db HistoryKey Exc Unit
| none => .read ()
| some row =>
    changeVerdict key () (Stage.change key now false)
      (row.increment now).check

/- The next stage of a rollup, on committed data. -/
inductive Follows
    (key : HistoryKey)
    (now : Time)
    (d : Db) : Stage → Stage → Prop
  | start : Follows key now d .starting .looking
  | find
      (hShown : shownHistory key d ≠ none) :
      Follows key now d .looking .found
  | miss
      (hNone : shownHistory key d = none) :
      Follows key now d .looking .missing
  | savepoint : Follows key now d .missing .inserting
  | insert
      (hNone : d.findHistory key = none)
      (hCheck : (firstHistory key now).check = .ok ()) :
      Follows key now d .inserting .inserted
  | refuse
      (hSome : d.findHistory key ≠ none) :
      Follows key now d .inserting .refused
  | reject
      {m : String}
      (hCheck :
        (firstHistory key now).check =
          .error (.database .dataError m)) :
      Follows key now d .inserting (.rejected m)
  | release : Follows key now d .inserted (.counted true)
  | reread : Follows key now d .refused .raced
  | abandon
      {m : String} :
      Follows key now d (.rejected m)
        (.failed (.database .dataError m) false)
  | lose
      (hShown : shownHistory key d ≠ none) :
      Follows key now d .raced .found
  | hidden
      (hNone : shownHistory key d = none) :
      Follows key now d .raced (.failed duplicateKey false)
  | increment
      (hSome : d.findHistory key ≠ none) :
      Follows key now d .found (.counted false)
  | overflow
      {row : AnalysisHistory}
      {e : Exc}
      (hFind : d.findHistory key = some row)
      (hCheck : (row.increment now).check = .error e) :
      Follows key now d .found (.failed e true)
  | drop
      {created : Bool} :
      Follows key now d (.counted created) (.closing created)
  | commit
      {created : Bool} :
      Follows key now d (.closing created) .returned
  | cancel
      {e : Exc}
      {broken : Bool} :
      Follows key now d (.failed e broken) (.raised e)

/-
  `n` rollups of the pair can be counted: its row is not
  hidden, and its columns hold the URL and the counter.
-/
structure Countable
    (n : Nat)
    (key : HistoryKey)
    (d : Db) : Prop where
  shown :
    ∀ row, d.findHistory key = some row →
      row.isDeleted = false
  url : fitsChar 2048 key.2 = true
  first : fitsInteger (historyCount d key + 1) = true
  last : fitsInteger (historyCount d key + n) = true

/- The row of the pair once `k` rollups are counted. -/
def Grown
    (key : HistoryKey)
    (d₀ d : Db) : Nat → Prop
| 0 => d.findHistory key = d₀.findHistory key
| k + 1 =>
    Countable (k + 1) key d₀ ∧
      ∃ row, d.findHistory key = some row ∧
        row.isDeleted = false ∧
          row.reportsCount =
            historyCount d₀ key + (k + 1 : Nat)

/-
  The rollups at their stages: whoever has written holds the
  lock of the row, and the row counts the rollups that have
  returned.
-/
structure Racing
    (key : HistoryKey)
    (nows : Tid → Time)
    (d₀ : Db)
    (w : UpsertWorld)
    (stage : Tid → Stage) : Prop where
  threads :
    ∀ t, w.threads t =
      .live ((stage t).program key (nows t))
  frames :
    ∀ t, w.shared.frames t =
      (stage t).frames key (nows t)
  locks :
    ∀ k t, w.shared.locks k = some t ↔
      k = key ∧ (stage t).Writes
  keyed :
    Table.Keyed AnalysisHistory.key
      w.shared.committed.histories
  fits :
    ∀ t, (stage t).Fits key (nows t) w.shared.committed
  counts :
    ∃ returned : Finset Tid,
      (∀ t, t ∈ returned ↔ stage t = .returned) ∧
        Grown key d₀ w.shared.committed returned.card

variable {repr : Json → String}
variable {key : HistoryKey} {now : Time} {nows : Tid → Time}
variable {d d' d₀ : Db} {w w' : UpsertWorld}
variable {stage : Tid → Stage} {t : Tid} {n : Nat}

------------------------------------------------------------
-- One Rollup Moves On
------------------------------------------------------------

/- What is known of the row depends on the row only. -/
theorem Stage.Fits.of_find
    {st : Stage}
    (hFits : st.Fits key now d)
    (hSame : d'.findHistory key = d.findHistory key) :
    st.Fits key now d' := by
  unfold Stage.Fits Stage.Ready shownHistory at hFits ⊢
  rw [hSame]
  exact hFits

theorem Grown.of_find
    {k : Nat}
    (hGrown : Grown key d₀ d k)
    (hSame : d'.findHistory key = d.findHistory key) :
    Grown key d₀ d' k := by
  unfold Grown at hGrown ⊢
  rw [hSame]
  exact hGrown

/- The other rollups stay at their stages. -/
theorem Racing.advance
    {s : Store Db HistoryKey}
    {st : Stage}
    (hRacing : Racing key nows d₀ w stage)
    (hFrames : s.frames t = st.frames key (nows t))
    (hOthers :
      ∀ t', t' ≠ t → s.frames t' = w.shared.frames t')
    (hOwn : ∀ k, s.locks k = some t ↔ k = key ∧ st.Writes)
    (hLocks :
      ∀ k t', t' ≠ t →
        (s.locks k = some t' ↔ w.shared.locks k = some t'))
    (hKeyed :
      Table.Keyed AnalysisHistory.key s.committed.histories)
    (hFits : st.Fits key (nows t) s.committed)
    (hOtherFits :
      ∀ t', t' ≠ t →
        (stage t').Fits key (nows t') s.committed)
    (hCounts :
      ∃ returned : Finset Tid,
        (∀ t', t' ∈ returned ↔
          Function.update stage t st t' = .returned) ∧
          Grown key d₀ s.committed returned.card) :
    Racing key nows d₀
      (w.put s t (.live (st.program key (nows t))))
      (Function.update stage t st) where
  threads := by
    intro t'
    by_cases hSame : t' = t
    · subst hSame
      rw [World.put_threads_self, Function.update_self]
    · rw [World.put_threads_of_ne _ _ _ hSame,
        Function.update_of_ne hSame]
      exact hRacing.threads t'
  frames := by
    intro t'
    by_cases hSame : t' = t
    · subst hSame
      rw [Function.update_self]
      exact hFrames
    · rw [Function.update_of_ne hSame]
      exact (hOthers t' hSame).trans (hRacing.frames t')
  locks := by
    intro k t'
    by_cases hSame : t' = t
    · subst hSame
      rw [Function.update_self]
      exact hOwn k
    · rw [Function.update_of_ne hSame]
      exact (hLocks k t' hSame).trans (hRacing.locks k t')
  keyed := hKeyed
  fits := by
    intro t'
    by_cases hSame : t' = t
    · subst hSame
      rw [Function.update_self]
      exact hFits
    · rw [Function.update_of_ne hSame]
      exact hOtherFits t' hSame
  counts := hCounts

/- A step that leaves the history, and does not return. -/
theorem Racing.advance_same
    {s : Store Db HistoryKey}
    {st : Stage}
    (hRacing : Racing key nows d₀ w stage)
    (hFrames : s.frames t = st.frames key (nows t))
    (hOthers :
      ∀ t', t' ≠ t → s.frames t' = w.shared.frames t')
    (hOwn : ∀ k, s.locks k = some t ↔ k = key ∧ st.Writes)
    (hLocks :
      ∀ k t', t' ≠ t →
        (s.locks k = some t' ↔ w.shared.locks k = some t'))
    (hHistories :
      s.committed.histories = w.shared.committed.histories)
    (hFits : st.Fits key (nows t) w.shared.committed)
    (hOld : stage t ≠ .returned)
    (hNew : st ≠ .returned) :
    Racing key nows d₀
      (w.put s t (.live (st.program key (nows t))))
      (Function.update stage t st) := by
  have hFind :
      s.committed.findHistory key =
        w.shared.committed.findHistory key := by
    unfold Db.findHistory
    rw [hHistories]
  rcases hRacing.counts with ⟨returned, hMem, hGrown⟩
  apply
    hRacing.advance hFrames hOthers hOwn hLocks _
      (hFits.of_find hFind)
      (fun t' _ => (hRacing.fits t').of_find hFind)
  · refine ⟨returned, ?_, hGrown.of_find hFind⟩
    intro t'
    rw [hMem]
    by_cases hSame : t' = t
    · subst hSame
      rw [Function.update_self]
      exact ⟨fun h => absurd h hOld, fun h => absurd h hNew⟩
    · rw [Function.update_of_ne hSame]
  · rw [hHistories]
    exact hRacing.keyed

/- A private step, that takes and frees no lock. -/
theorem Racing.advance_private
    {s : Store Db HistoryKey}
    {st : Stage}
    (hRacing : Racing key nows d₀ w stage)
    (hPrivate : Store.Private t w.shared s)
    (hFrames : s.frames t = st.frames key (nows t))
    (hKept : ∀ k, s.locks k = some t ↔
      w.shared.locks k = some t)
    (hWrites : st.Writes ↔ (stage t).Writes)
    (hFits : st.Fits key (nows t) w.shared.committed)
    (hOld : stage t ≠ .returned)
    (hNew : st ≠ .returned) :
    Racing key nows d₀
      (w.put s t (.live (st.program key (nows t))))
      (Function.update stage t st) := by
  apply
    hRacing.advance_same hFrames hPrivate.frames _ hPrivate.locks
      (congrArg Db.histories hPrivate.committed) hFits hOld
      hNew
  intro k
  rw [hKept, hRacing.locks, hWrites]

/- What a statement in a transaction comes to. -/
theorem answered_inside
    {q : Statement}
    {c : Choice Exc Reply}
    {s s' : Store Db HistoryKey}
    {r : Except Exc q.Answer}
    (hOk : Interleaves w (.step t c))
    (hIntact : s.broken t = false)
    (hInside : ∀ x d, reply q x d = none)
    (hExec :
      (backend repr).machine.exec t (.query q) c s =
        some (r, s')) :
    (∃ e, plan repr q (s.view t) = .refuse e ∧
        r = .error e ∧ s' = s.fail t) ∨
      (∃ e, plan repr q (s.view t) = .miss e ∧
          r = .error e ∧ s' = s) ∨
        (∃ a f, plan repr q (s.view t) = .done a none f ∧
            r = .ok a ∧ s' = s.write t f) ∨
          ∃ a k f,
            plan repr q (s.view t) = .done a (some k) f ∧
              s.Available t k ∧ r = .ok a ∧
                s' = (s.acquire t k).write t f := by
  cases Backend.answered_of_exec hExec with
  | fault e => exact hOk.elim
  | reply x a d hReply =>
      have hNone := hInside x s.committed
      cases hNone.symm.trans hReply
  | aborted hBroken =>
      rw [hIntact] at hBroken
      cases hBroken
  | refuse e hPlan => exact Or.inl ⟨e, hPlan, rfl, rfl⟩
  | miss e hPlan =>
      exact Or.inr (Or.inl ⟨e, hPlan, rfl, rfl⟩)
  | done a f hPlan =>
      exact Or.inr (Or.inr (Or.inl ⟨a, f, hPlan, rfl, rfl⟩))
  | locked a k f hPlan hFree =>
      exact
        Or.inr
          (Or.inr (Or.inr ⟨a, k, f, hPlan, hFree, rfl, rfl⟩))

/- The step of a thread whose operation is known. -/
theorem put_of_next
    {c : Choice Exc Reply}
    {o : TxOp Statement}
    {k :
      Except Exc (TxOp.Res Statement.Answer o) →
        Service Unit}
    (hThread : w.threads t = .live (.call o k))
    (hNext :
      (backend repr).machine.next w (.step t c) = some w') :
    ∃ r s,
      (backend repr).machine.exec t o c w.shared =
          some (r, s) ∧
        w' = w.put s t (.live (k r)) := by
  rcases Machine.next_step_inv hNext with
    ⟨o', k', r, s, hThread', hExec, rfl⟩
  rw [hThread] at hThread'
  cases hThread'
  exact ⟨r, s, hExec, rfl⟩

------------------------------------------------------------
-- Steps
------------------------------------------------------------

/- The stage that a step leads to. -/
def Moves
    (key : HistoryKey)
    (nows : Tid → Time)
    (d₀ : Db)
    (w w' : UpsertWorld)
    (stage : Tid → Stage)
    (t : Tid) : Prop :=
  ∃ st, Follows key (nows t) w.shared.committed (stage t) st ∧
    Racing key nows d₀ w' (Function.update stage t st)

section Steps

variable {c : Choice Exc Reply}

theorem Racing.thread
    {st : Stage}
    (hRacing : Racing key nows d₀ w stage)
    (hStage : stage t = st) :
    w.threads t = .live (st.program key (nows t)) := by
  rw [hRacing.threads t, hStage]

theorem Racing.frame
    {st : Stage}
    (hRacing : Racing key nows d₀ w stage)
    (hStage : stage t = st) :
    w.shared.frames t = st.frames key (nows t) := by
  rw [hRacing.frames t, hStage]

/- A frame opens. -/
theorem racing_begin
    {st : Stage}
    (st' : Stage)
    (hRacing : Racing key nows d₀ w stage)
    (hStage : stage t = st)
    (hFrames :
      st'.frames key (nows t) =
        Frame.fresh :: st.frames key (nows t))
    (hWrites : st'.Writes ↔ st.Writes)
    (hFits : st'.Fits key (nows t) w.shared.committed)
    (hOld : st ≠ .returned)
    (hNew : st' ≠ .returned) :
    Racing key nows d₀
      (w.put (w.shared.begin t) t
        (.live (st'.program key (nows t))))
      (Function.update stage t st') := by
  apply
    hRacing.advance_private Store.private_begin _
      (fun k => Iff.rfl) (by rw [hStage]; exact hWrites)
      hFits (by rw [hStage]; exact hOld) hNew
  rw [hFrames, ← hRacing.frame hStage]
  simp [Store.begin, Store.setFrames]

theorem moves_starting
    (hRacing : Racing key nows d₀ w stage)
    (hStage : stage t = .starting)
    (hOk : Interleaves w (.step t c))
    (hNext :
      (backend repr).machine.next w (.step t c) = some w') :
    Moves key nows d₀ w w' stage t := by
  rcases put_of_next (hRacing.thread hStage) hNext with
    ⟨r, s, hExec, rfl⟩
  cases c with
  | fault e => exact hOk.elim
  | reply x => cases hExec
  | proceed =>
      cases hExec
      refine ⟨.looking, ?_, ?_⟩
      · rw [hStage]
        exact Follows.start
      · exact
          racing_begin .looking hRacing hStage rfl Iff.rfl
            trivial (by simp) (by simp)

theorem moves_missing
    (hRacing : Racing key nows d₀ w stage)
    (hStage : stage t = .missing)
    (hOk : Interleaves w (.step t c))
    (hNext :
      (backend repr).machine.next w (.step t c) = some w') :
    Moves key nows d₀ w w' stage t := by
  rcases put_of_next (hRacing.thread hStage) hNext with
    ⟨r, s, hExec, rfl⟩
  cases c with
  | fault e => exact hOk.elim
  | reply x => cases hExec
  | proceed =>
      cases hExec
      refine ⟨.inserting, ?_, ?_⟩
      · rw [hStage]
        exact Follows.savepoint
      · exact
          racing_begin .inserting hRacing hStage rfl Iff.rfl
            trivial (by simp) (by simp)

/- The row is looked up in the transaction. -/
theorem lookup_of_exec
    {s s' : Store Db HistoryKey}
    {r : Except Exc AnalysisHistory}
    (hFrames : s.frames t = [Frame.fresh])
    (hOk : Interleaves w (.step t c))
    (hExec :
      (backend repr).machine.exec t
          (.query (.getHistory key)) c s =
        some (r, s')) :
    (shownHistory key s.committed = none ∧
        r = .error historyMissing ∧ s' = s) ∨
      ∃ row, shownHistory key s.committed = some row ∧
        r = .ok row ∧ s' = s.write t id := by
  have hView : s.view t = s.committed := by
    simp [Store.view, hFrames, Frame.fresh]
  have hIntact : s.broken t = false := by
    simp [Store.broken, hFrames, Frame.fresh]
  have hPlan :
      plan repr (.getHistory key) s.committed =
        lookupVerdict (shownHistory key s.committed) := rfl
  have hAnswered :=
    answered_inside hOk hIntact
      (fun x d => by cases x <;> rfl) hExec
  rw [hView, hPlan] at hAnswered
  cases hShown : shownHistory key s.committed with
  | none =>
      left
      rw [hShown] at hAnswered
      rcases hAnswered with ⟨e, hCase, _⟩ |
        ⟨e, hCase, hResult, hStore⟩ | ⟨a, f, hCase, _⟩ |
          ⟨a, k, f, hCase, _⟩
      · cases hCase
      · cases hCase
        exact ⟨rfl, hResult, hStore⟩
      · cases hCase
      · cases hCase
  | some row =>
      right
      rw [hShown] at hAnswered
      rcases hAnswered with ⟨e, hCase, _⟩ |
        ⟨e, hCase, _⟩ | ⟨a, f, hCase, hResult, hStore⟩ |
          ⟨a, k, f, hCase, _⟩
      · cases hCase
      · cases hCase
      · cases hCase
        exact ⟨row, rfl, hResult, hStore⟩
      · cases hCase

theorem key_of_shown
    {row : AnalysisHistory}
    (hShown : shownHistory key d = some row) :
    row.key = key :=
  Table.key_of_find (Option.eq_some_of_filter_eq_some hShown)

/- The row has been found. -/
theorem racing_found
    {st : Stage}
    (hRacing : Racing key nows d₀ w stage)
    (hStage : stage t = st)
    (hFrames : w.shared.frames t = [Frame.fresh])
    (hWrites : ¬ st.Writes)
    (hOld : st ≠ .returned)
    (hFound : shownHistory key w.shared.committed ≠ none) :
    Racing key nows d₀
      (w.put (w.shared.write t id) t
        (.live (Stage.program key (nows t) .found)))
      (Function.update stage t .found) := by
  have hOpen : w.shared.frames t ≠ [] := by
    rw [hFrames]
    exact List.cons_ne_nil _ _
  apply
    hRacing.advance_private (Store.private_write hOpen) _ _ _ _
      (by rw [hStage]; exact hOld) (by simp)
  · simp [Store.write, Store.setFrames, hFrames,
      Stage.frames, Frame.fresh]
  · intro k
    simp [Store.write, Store.setFrames, hFrames]
  · rw [hStage]
    exact ⟨fun h => h.elim, fun h => absurd h hWrites⟩
  · exact hFound

/- A step that leaves the store alone. -/
theorem racing_same
    {st : Stage}
    (st' : Stage)
    (hRacing : Racing key nows d₀ w stage)
    (hStage : stage t = st)
    (hFrames :
      st'.frames key (nows t) = st.frames key (nows t))
    (hWrites : st'.Writes ↔ st.Writes)
    (hFits : st'.Fits key (nows t) w.shared.committed)
    (hOld : st ≠ .returned)
    (hNew : st' ≠ .returned) :
    Racing key nows d₀
      (w.put w.shared t (.live (st'.program key (nows t))))
      (Function.update stage t st') := by
  apply
    hRacing.advance_private Store.Private.refl _
      (fun k => Iff.rfl) (by rw [hStage]; exact hWrites)
      hFits (by rw [hStage]; exact hOld) hNew
  rw [hFrames]
  exact hRacing.frame hStage

/- A lookup that finds the row goes on to count it. -/
theorem moves_shown
    {st : Stage}
    {row : AnalysisHistory}
    (hRacing : Racing key nows d₀ w stage)
    (hStage : stage t = st)
    (hFrames : w.shared.frames t = [Frame.fresh])
    (hWrites : ¬ st.Writes)
    (hOld : st ≠ .returned)
    (hShown :
      shownHistory key w.shared.committed = some row)
    (hFollows :
      shownHistory key w.shared.committed ≠ none →
        Follows key (nows t) w.shared.committed st .found) :
    Moves key nows d₀ w
      (w.put (w.shared.write t id) t
        (.live (Stage.program key (nows t) .found)))
      stage t := by
  have hSome :
      shownHistory key w.shared.committed ≠ none := by
    rw [hShown]
    exact Option.some_ne_none row
  refine ⟨.found, ?_, ?_⟩
  · rw [hStage]
    exact hFollows hSome
  · exact
      racing_found hRacing hStage hFrames hWrites hOld hSome

theorem moves_looking
    (hRacing : Racing key nows d₀ w stage)
    (hStage : stage t = .looking)
    (hOk : Interleaves w (.step t c))
    (hNext :
      (backend repr).machine.next w (.step t c) = some w') :
    Moves key nows d₀ w w' stage t := by
  have hFrames := hRacing.frame hStage
  rcases put_of_next (hRacing.thread hStage) hNext with
    ⟨r, s, hExec, rfl⟩
  rcases lookup_of_exec hFrames hOk hExec with
    ⟨hNone, rfl, rfl⟩ | ⟨row, hShown, rfl, rfl⟩
  · refine ⟨.missing, ?_, ?_⟩
    · rw [hStage]
      exact Follows.miss hNone
    · exact
        racing_same .missing hRacing hStage rfl Iff.rfl
          trivial (by simp) (by simp)
  · have hKey := key_of_shown hShown
    subst hKey
    exact
      moves_shown hRacing hStage hFrames (fun h => h.elim)
        (by simp) hShown Follows.find

theorem moves_raced
    (hRacing : Racing key nows d₀ w stage)
    (hStage : stage t = .raced)
    (hOk : Interleaves w (.step t c))
    (hNext :
      (backend repr).machine.next w (.step t c) = some w') :
    Moves key nows d₀ w w' stage t := by
  have hFrames := hRacing.frame hStage
  rcases put_of_next (hRacing.thread hStage) hNext with
    ⟨r, s, hExec, rfl⟩
  rcases lookup_of_exec hFrames hOk hExec with
    ⟨hNone, rfl, rfl⟩ | ⟨row, hShown, rfl, rfl⟩
  · refine ⟨.failed duplicateKey false, ?_, ?_⟩
    · rw [hStage]
      exact Follows.hidden hNone
    · exact
        racing_same (.failed duplicateKey false) hRacing
          hStage rfl Iff.rfl trivial (by simp) (by simp)
  · have hKey := key_of_shown hShown
    subst hKey
    exact
      moves_shown hRacing hStage hFrames (fun h => h.elim)
        (by simp) hShown Follows.lose

/- The row is written under its lock. -/
theorem racing_lock
    {st : Stage}
    {outer : List (Frame Db HistoryKey)}
    (st' : Stage)
    (f : Db → Db)
    (hRacing : Racing key nows d₀ w stage)
    (hStage : stage t = st)
    (hFrames : w.shared.frames t = Frame.fresh :: outer)
    (hFree : w.shared.Available t key)
    (hBefore : ¬ st.Writes)
    (hAfter :
      st'.frames key (nows t) =
        Stage.writing key f :: outer)
    (hWrites : st'.Writes)
    (hFits : st'.Fits key (nows t) w.shared.committed)
    (hOld : st ≠ .returned)
    (hNew : st' ≠ .returned) :
    Racing key nows d₀
      (w.put ((w.shared.acquire t key).write t f) t
        (.live (st'.program key (nows t))))
      (Function.update stage t st') := by
  have hHeld : ∀ k, w.shared.locks k ≠ some t := by
    intro k hLock
    have hBoth := (hRacing.locks k t).mp hLock
    rw [hStage] at hBoth
    exact hBefore hBoth.2
  have hTaken :
      (w.shared.acquire t key).frames t =
        Stage.writing key id :: outer := by
    simp [Store.acquire, hFrames, hHeld key, Store.setFrames,
      Frame.fresh, Stage.writing]
  have hOpen : (w.shared.acquire t key).frames t ≠ [] := by
    rw [hTaken]
    exact List.cons_ne_nil _ _
  have hPrivate :
      Store.Private t w.shared
        ((w.shared.acquire t key).write t f) :=
    (Store.private_acquire hFree).trans
      (Store.private_write hOpen)
  apply
    hRacing.advance_same _ hPrivate.frames _ hPrivate.locks
      (congrArg Db.histories hPrivate.committed) hFits
      (by rw [hStage]; exact hOld) hNew
  · rw [hAfter]
    simp [Store.write, Store.setFrames, hTaken,
      Stage.writing]
  · intro k
    have hLocks :
        ((w.shared.acquire t key).write t f).locks k =
          Function.update w.shared.locks key (some t) k := by
      simp only [Store.write, hTaken, Store.setFrames]
      simp only [Store.acquire, hFrames, hHeld key, if_false]
    rw [hLocks]
    by_cases hKey : k = key
    · subst hKey
      simp [hWrites]
    · simp [hKey, hHeld k]

/- What a statement of the rollup breaks. -/
theorem racing_fail
    {st : Stage}
    {outer : List (Frame Db HistoryKey)}
    (st' : Stage)
    (hRacing : Racing key nows d₀ w stage)
    (hStage : stage t = st)
    (hFrames : w.shared.frames t = Frame.fresh :: outer)
    (hAfter :
      st'.frames key (nows t) =
        { Frame.fresh with broken := true } :: outer)
    (hWrites : st'.Writes ↔ st.Writes)
    (hFits : st'.Fits key (nows t) w.shared.committed)
    (hOld : st ≠ .returned)
    (hNew : st' ≠ .returned) :
    Racing key nows d₀
      (w.put (w.shared.fail t) t
        (.live (st'.program key (nows t))))
      (Function.update stage t st') := by
  apply
    hRacing.advance_private Store.private_fail _ _
      (by rw [hStage]; exact hWrites) hFits
      (by rw [hStage]; exact hOld) hNew
  · rw [hAfter]
    simp [Store.fail, hFrames, Store.setFrames]
  · intro k
    simp [Store.fail, hFrames, Store.setFrames]

/- What the columns of the history refuse. -/
theorem check_eq_error
    {row : AnalysisHistory}
    {e : Exc}
    (hCheck : row.check = .error e) :
    ∃ m, e = .database .dataError m := by
  simp only [AnalysisHistory.check, charColumn, textColumn,
    integerColumn, require] at hCheck
  split at hCheck
  · split at hCheck
    · split at hCheck
      · cases hCheck
      · cases hCheck
        exact ⟨_, rfl⟩
    · cases hCheck
      exact ⟨_, rfl⟩
  · cases hCheck
    exact ⟨_, rfl⟩

theorem moves_inserting
    (hRacing : Racing key nows d₀ w stage)
    (hStage : stage t = .inserting)
    (hOk : Interleaves w (.step t c))
    (hNext :
      (backend repr).machine.next w (.step t c) = some w') :
    Moves key nows d₀ w w' stage t := by
  have hFrames := hRacing.frame hStage
  have hView :
      w.shared.view t = w.shared.committed := by
    simp [Store.view, hFrames, Stage.frames, Frame.fresh]
  have hIntact : w.shared.broken t = false := by
    simp [Store.broken, hFrames, Stage.frames, Frame.fresh]
  have hPlan :
      plan repr (.createHistory (firstHistory key (nows t)))
          w.shared.committed =
        insertVerdict key (nows t)
          (w.shared.committed.findHistory key) := rfl
  rcases put_of_next (hRacing.thread hStage) hNext with
    ⟨r, s, hExec, rfl⟩
  have hAnswered :=
    answered_inside hOk hIntact
      (fun x d => by cases x <;> rfl) hExec
  rw [hView, hPlan] at hAnswered
  cases hFind : w.shared.committed.findHistory key with
  | some row =>
      have hSome :
          w.shared.committed.findHistory key ≠ none := by
        rw [hFind]
        exact Option.some_ne_none row
      rw [hFind] at hAnswered
      rcases hAnswered with ⟨e, hCase, rfl, rfl⟩ |
        ⟨e, hCase, _⟩ | ⟨a, f, hCase, _⟩ |
          ⟨a, k, f, hCase, _⟩
      · cases hCase
        refine ⟨.refused, ?_, ?_⟩
        · rw [hStage]
          exact Follows.refuse hSome
        · exact
            racing_fail .refused hRacing hStage hFrames rfl
              Iff.rfl hSome (by simp) (by simp)
      · cases hCase
      · cases hCase
      · cases hCase
  | none =>
      rw [hFind] at hAnswered
      cases hCheck : (firstHistory key (nows t)).check with
      | error e =>
          simp only [insertVerdict, hCheck] at hAnswered
          rcases hAnswered with ⟨e, hCase, rfl, rfl⟩ |
            ⟨e, hCase, _⟩ | ⟨a, f, hCase, _⟩ |
              ⟨a, k, f, hCase, _⟩
          · cases hCase
            rcases check_eq_error hCheck with ⟨m, rfl⟩
            refine ⟨.rejected m, ?_, ?_⟩
            · rw [hStage]
              exact Follows.reject hCheck
            · exact
                racing_fail (.rejected m) hRacing hStage
                  hFrames rfl Iff.rfl trivial (by simp)
                  (by simp)
          · cases hCase
          · cases hCase
          · cases hCase
      | ok u =>
          simp only [insertVerdict, hCheck] at hAnswered
          rcases hAnswered with ⟨e, hCase, _⟩ |
            ⟨e, hCase, _⟩ | ⟨a, f, hCase, _⟩ |
              ⟨a, k, f, hCase, hFree, rfl, rfl⟩
          · cases hCase
          · cases hCase
          · cases hCase
          · cases hCase
            refine ⟨.inserted, ?_, ?_⟩
            · rw [hStage]
              exact Follows.insert hFind hCheck
            · exact
                racing_lock .inserted _ hRacing hStage hFrames
                  hFree (fun h => h.elim) rfl trivial
                  ⟨hFind, hCheck⟩ (by simp) (by simp)

theorem moves_inserted
    (hRacing : Racing key nows d₀ w stage)
    (hStage : stage t = .inserted)
    (hOk : Interleaves w (.step t c))
    (hNext :
      (backend repr).machine.next w (.step t c) = some w') :
    Moves key nows d₀ w w' stage t := by
  have hFrames := hRacing.frame hStage
  rcases put_of_next (hRacing.thread hStage) hNext with
    ⟨r, s, hExec, rfl⟩
  cases c with
  | fault e => exact hOk.elim
  | reply x => cases hExec
  | proceed =>
      have hCommit :
          w.shared.commit (backend repr).aborted t =
            (.ok (),
              w.shared.setFrames t
                [Stage.writing key
                  (Stage.change key (nows t) true)]) := by
        simp [Store.commit, hFrames, Stage.frames,
          Stage.writing, Frame.absorb, Frame.fresh]
      have hResult :
          (r, s) =
            w.shared.commit (backend repr).aborted t :=
        (Option.some.inj hExec).symm
      rw [hCommit] at hResult
      cases hResult
      have hFits := hRacing.fits t
      rw [hStage] at hFits
      have hReady :
          Stage.Fits key (nows t) w.shared.committed
            (.counted true) := hFits
      have hAfter :
          Racing key nows d₀
            (w.put
              (w.shared.setFrames t
                [Stage.writing key
                  (Stage.change key (nows t) true)])
              t
              (.live
                (Stage.program key (nows t)
                  (.counted true))))
            (Function.update stage t (.counted true)) := by
        apply
          hRacing.advance_private
            (Store.private_setFrames _) _
            (fun k => Iff.rfl) (by rw [hStage]; exact Iff.rfl)
            hReady (by rw [hStage]; simp) (by simp)
        simp [Store.setFrames, Stage.frames]
      refine ⟨.counted true, ?_, hAfter⟩
      rw [hStage]
      exact Follows.release

/- The savepoint of a failed insertion is rolled back. -/
theorem racing_undo
    {st : Stage}
    (st' : Stage)
    (hRacing : Racing key nows d₀ w stage)
    (hStage : stage t = st)
    (hFrames :
      w.shared.frames t =
        [{ Frame.fresh with broken := true }, Frame.fresh])
    (hAfter : st'.frames key (nows t) = [Frame.fresh])
    (hWrites : st'.Writes ↔ st.Writes)
    (hFits : st'.Fits key (nows t) w.shared.committed)
    (hOld : st ≠ .returned)
    (hNew : st' ≠ .returned) :
    Racing key nows d₀
      (w.put (w.shared.rollback t) t
        (.live (st'.program key (nows t))))
      (Function.update stage t st') := by
  apply
    hRacing.advance_private Store.private_rollback _ _
      (by rw [hStage]; exact hWrites) hFits
      (by rw [hStage]; exact hOld) hNew
  · rw [hAfter]
    simp [Store.rollback, hFrames, Store.setFrames]
  · intro k
    simp [Store.rollback, hFrames, Store.setFrames,
      Store.release, Frame.fresh]

theorem moves_refused
    (hRacing : Racing key nows d₀ w stage)
    (hStage : stage t = .refused)
    (hOk : Interleaves w (.step t c))
    (hNext :
      (backend repr).machine.next w (.step t c) = some w') :
    Moves key nows d₀ w w' stage t := by
  have hFits := hRacing.fits t
  rw [hStage] at hFits
  rcases put_of_next (hRacing.thread hStage) hNext with
    ⟨r, s, hExec, rfl⟩
  cases c with
  | fault e => exact hOk.elim
  | reply x => cases hExec
  | proceed =>
      cases hExec
      refine ⟨.raced, ?_, ?_⟩
      · rw [hStage]
        exact Follows.reread
      · exact
          racing_undo .raced hRacing hStage
            (hRacing.frame hStage) rfl Iff.rfl hFits
            (by simp) (by simp)

theorem moves_rejected
    {m : String}
    (hRacing : Racing key nows d₀ w stage)
    (hStage : stage t = .rejected m)
    (hOk : Interleaves w (.step t c))
    (hNext :
      (backend repr).machine.next w (.step t c) = some w') :
    Moves key nows d₀ w w' stage t := by
  rcases put_of_next (hRacing.thread hStage) hNext with
    ⟨r, s, hExec, rfl⟩
  cases c with
  | fault e => exact hOk.elim
  | reply x => cases hExec
  | proceed =>
      cases hExec
      refine ⟨.failed (.database .dataError m) false, ?_, ?_⟩
      · rw [hStage]
        exact Follows.abandon
      · exact
          racing_undo (.failed (.database .dataError m) false)
            hRacing hStage (hRacing.frame hStage) rfl Iff.rfl
            trivial (by simp) (by simp)

theorem shown_ne_none
    (hShown : shownHistory key d ≠ none) :
    ∃ row, d.findHistory key = some row ∧
      row.isDeleted = false := by
  rcases Option.ne_none_iff_exists'.mp hShown with
    ⟨row, hRow⟩
  rcases Option.filter_eq_some_iff.mp hRow with
    ⟨hFind, hLive⟩
  exact ⟨row, hFind, by simpa using hLive⟩

theorem moves_found
    (hRacing : Racing key nows d₀ w stage)
    (hStage : stage t = .found)
    (hOk : Interleaves w (.step t c))
    (hNext :
      (backend repr).machine.next w (.step t c) = some w') :
    Moves key nows d₀ w w' stage t := by
  have hFrames := hRacing.frame hStage
  have hFits := hRacing.fits t
  rw [hStage] at hFits
  rcases shown_ne_none hFits with ⟨row, hFind, hLive⟩
  have hView :
      w.shared.view t = w.shared.committed := by
    simp [Store.view, hFrames, Stage.frames, Frame.fresh]
  have hIntact : w.shared.broken t = false := by
    simp [Store.broken, hFrames, Stage.frames, Frame.fresh]
  have hPlan :
      plan repr (.incrementHistory key (nows t))
          w.shared.committed =
        incrementVerdict key (nows t)
          (w.shared.committed.findHistory key) := rfl
  rcases put_of_next (hRacing.thread hStage) hNext with
    ⟨r, s, hExec, rfl⟩
  have hAnswered :=
    answered_inside hOk hIntact
      (fun x d => by cases x <;> rfl) hExec
  rw [hView, hPlan, hFind] at hAnswered
  cases hCheck : (row.increment (nows t)).check with
  | error e =>
      simp only [incrementVerdict, hCheck] at hAnswered
      rcases hAnswered with ⟨e, hCase, rfl, rfl⟩ |
        ⟨e, hCase, _⟩ | ⟨a, f, hCase, _⟩ |
          ⟨a, k, f, hCase, _⟩
      · cases hCase
        refine ⟨.failed e true, ?_, ?_⟩
        · rw [hStage]
          exact Follows.overflow hFind hCheck
        · exact
            racing_fail (.failed e true) hRacing hStage
              hFrames rfl Iff.rfl trivial (by simp) (by simp)
      · cases hCase
      · cases hCase
      · cases hCase
  | ok u =>
      simp only [incrementVerdict, hCheck] at hAnswered
      rcases hAnswered with ⟨e, hCase, _⟩ |
        ⟨e, hCase, _⟩ | ⟨a, f, hCase, _⟩ |
          ⟨a, k, f, hCase, hFree, rfl, rfl⟩
      · cases hCase
      · cases hCase
      · cases hCase
      · cases hCase
        refine ⟨.counted false, ?_, ?_⟩
        · rw [hStage]
          apply Follows.increment
          rw [hFind]
          exact Option.some_ne_none row
        · exact
            racing_lock (.counted false) _ hRacing hStage
              hFrames hFree (fun h => h.elim) rfl trivial
              ⟨row, hFind, hLive, hCheck⟩ (by simp) (by simp)

/- The cache takes the deletion and keeps to itself. -/
theorem deletion_of_exec
    {s s' : Store Db HistoryKey}
    {user : UserId}
    {r : Except Exc (Statement.Answer (.cacheDelete user))}
    (hIntact : s.broken t = false)
    (hOk : Interleaves w (.step t c))
    (hExec :
      (backend repr).machine.exec t
          (.query (.cacheDelete user)) c s =
        some (r, s')) :
    r = .ok () ∧
      ∃ d, d.histories = s.committed.histories ∧
        s' = { s with committed := d } := by
  have hAnswered :
      (backend repr).Answered t (.cacheDelete user) s c r s' :=
    Backend.answered_of_exec hExec
  cases hAnswered with
  | fault e => exact hOk.elim
  | reply x a d hReply =>
      refine ⟨rfl, d, ?_, rfl⟩
      cases x <;> cases hReply
      rfl
  | aborted hBroken =>
      rw [hIntact] at hBroken
      cases hBroken
  | refuse e hPlan => cases hPlan
  | miss e hPlan => cases hPlan
  | done a f hPlan => cases hPlan
  | locked a k f hPlan hFree => cases hPlan

theorem moves_counted
    {created : Bool}
    (hRacing : Racing key nows d₀ w stage)
    (hStage : stage t = .counted created)
    (hOk : Interleaves w (.step t c))
    (hNext :
      (backend repr).machine.next w (.step t c) = some w') :
    Moves key nows d₀ w w' stage t := by
  have hFrames := hRacing.frame hStage
  have hIntact : w.shared.broken t = false := by
    simp [Store.broken, hFrames, Stage.frames, Stage.writing]
  have hFits := hRacing.fits t
  rw [hStage] at hFits
  have hReady :
      Stage.Fits key (nows t) w.shared.committed
        (.closing created) := hFits
  rcases put_of_next (hRacing.thread hStage) hNext with
    ⟨r, s, hExec, rfl⟩
  rcases deletion_of_exec hIntact hOk hExec with
    ⟨rfl, d, hHistories, rfl⟩
  have hClosing :
      Store.frames { w.shared with committed := d } t =
        Stage.frames key (nows t) (.closing created) :=
    hFrames
  have hAfter :
      Racing key nows d₀
        (w.put { w.shared with committed := d } t
          (.live
            (Stage.program key (nows t) (.closing created))))
        (Function.update stage t (.closing created)) := by
    apply
      hRacing.advance_same hClosing (fun t' _ => rfl) _
        (fun k t' _ => Iff.rfl) hHistories hReady
        (by rw [hStage]; simp) (by simp)
    intro k
    rw [hRacing.locks, hStage]
    exact Iff.rfl
  refine ⟨.closing created, ?_, hAfter⟩
  rw [hStage]
  exact Follows.drop

------------------------------------------------------------
-- The Commit
------------------------------------------------------------

theorem check_eq_ok
    {row : AnalysisHistory} :
    row.check = .ok () ↔
      fitsChar 2048 row.url = true ∧
        fitsInteger row.reportsCount = true := by
  simp [AnalysisHistory.check]

theorem find_insert
    (hNone : d.findHistory key = none) :
    (Stage.change key now true d).findHistory key =
      some (firstHistory key now) :=
  Table.find_append_self (r := firstHistory key now) hNone

theorem find_increment
    {row : AnalysisHistory}
    (hFind : d.findHistory key = some row) :
    (Stage.change key now false d).findHistory key =
      some (row.increment now) := by
  have hSelf :
      Table.find AnalysisHistory.key key
          (Table.update AnalysisHistory.key key
            (.increment now) d.histories) =
        (d.findHistory key).map (.increment now) :=
    Table.find_update_self (fun _ hKey => hKey)
  rw [hFind] at hSelf
  exact hSelf

/- The row after the change is shown. -/
theorem shown_change
    {created : Bool}
    (hReady : Stage.Ready key now d created) :
    shownHistory key (Stage.change key now created d) ≠
      none := by
  cases created with
  | true =>
      simp [shownHistory, find_insert hReady.1, firstHistory]
  | false =>
      rcases hReady with ⟨row, hFind, hLive, _⟩
      simp [shownHistory, find_increment hFind,
        AnalysisHistory.increment, hLive]

theorem found_of_shown
    (hShown : shownHistory key d ≠ none) :
    d.findHistory key ≠ none := by
  rcases shown_ne_none hShown with ⟨row, hFind, _⟩
  rw [hFind]
  exact Option.some_ne_none row

/- What the others know holds after the change. -/
theorem Stage.Fits.change
    {st : Stage}
    {now' : Time}
    {created : Bool}
    (hFits : st.Fits key now d)
    (hWrites : ¬ st.Writes)
    (hReady : Stage.Ready key now' d created) :
    st.Fits key now (Stage.change key now' created d) := by
  have hShown := shown_change hReady
  cases st with
  | inserted => exact absurd trivial hWrites
  | counted created' => exact absurd trivial hWrites
  | closing created' => exact absurd trivial hWrites
  | refused => exact found_of_shown hShown
  | raced => exact found_of_shown hShown
  | found => exact hShown
  | idle => trivial
  | starting => trivial
  | looking => trivial
  | missing => trivial
  | inserting => trivial
  | rejected m => trivial
  | failed e broken => trivial
  | returned => trivial
  | raised e => trivial

theorem Grown.historyCount_eq
    {k : Nat}
    (hGrown : Grown key d₀ d k) :
    historyCount d key = historyCount d₀ key + k := by
  cases k with
  | zero =>
      have hSame :
          d.findHistory key = d₀.findHistory key := hGrown
      unfold historyCount
      rw [hSame]
      simp
  | succ k =>
      rcases hGrown with ⟨_, row, hFind, _, hCount⟩
      simp only [historyCount, hFind]
      exact hCount

theorem historyCount_of_find
    {row : AnalysisHistory}
    (hFind : d.findHistory key = some row) :
    historyCount d key = row.reportsCount := by
  simp only [historyCount, hFind]

/- The first change of the row makes it countable once. -/
theorem countable_one
    {created : Bool}
    (hReady : Stage.Ready key now d created) :
    Countable 1 key d := by
  cases created with
  | true =>
      rcases hReady with ⟨hNone, hCheck⟩
      have hUrl := (check_eq_ok.mp hCheck).1
      have hCount : historyCount d key = 0 := by
        simp only [historyCount, hNone]
      refine ⟨?_, hUrl, ?_, ?_⟩
      · intro row hFind
        rw [hNone] at hFind
        cases hFind
      · rw [hCount]
        rfl
      · rw [hCount]
        rfl
  | false =>
      rcases hReady with ⟨row, hFind, hLive, hCheck⟩
      rcases check_eq_ok.mp hCheck with ⟨hUrl, hFirst⟩
      have hKey : row.key = key := Table.key_of_find hFind
      have hSame : row.url = key.2 := congrArg Prod.snd hKey
      refine ⟨?_, ?_, ?_, ?_⟩
      · intro row' hFind'
        rw [hFind] at hFind'
        cases hFind'
        exact hLive
      · rw [← hSame]
        exact hUrl
      · rw [historyCount_of_find hFind]
        exact hFirst
      · rw [historyCount_of_find hFind]
        exact hFirst

/- The change that is committed counts the rollup. -/
theorem grown_change
    {created : Bool}
    {k : Nat}
    (hReady : Stage.Ready key now d created)
    (hGrown : Grown key d₀ d k) :
    Grown key d₀ (Stage.change key now created d) (k + 1) := by
  have hBefore := hGrown.historyCount_eq
  have hOnce := countable_one hReady
  have hLast :
      fitsInteger (historyCount d₀ key + (k + 1 : Nat)) =
        true := by
    have hFits := hOnce.first
    rw [hBefore, Int.add_assoc] at hFits
    exact hFits
  have hCountable : Countable (k + 1) key d₀ := by
    cases k with
    | zero =>
        have hSame :
            d.findHistory key = d₀.findHistory key := hGrown
        refine ⟨?_, hOnce.url, hLast, hLast⟩
        intro row hFind
        rw [← hSame] at hFind
        exact hOnce.shown row hFind
    | succ k =>
        exact
          ⟨hGrown.1.shown, hOnce.url, hGrown.1.first, hLast⟩
  refine ⟨hCountable, ?_⟩
  cases created with
  | true =>
      refine ⟨_, find_insert hReady.1, rfl, ?_⟩
      have hNone : historyCount d key = 0 := by
        simp only [historyCount, hReady.1]
      show (1 : Int) = _
      omega
  | false =>
      rcases hReady with ⟨row, hFind, hLive, hCheck⟩
      refine ⟨_, find_increment hFind, hLive, ?_⟩
      rw [historyCount_of_find hFind] at hBefore
      show row.reportsCount + 1 = _
      omega

theorem keyed_change
    {created : Bool}
    (hReady : Stage.Ready key now d created)
    (hKeyed : Table.Keyed AnalysisHistory.key d.histories) :
    Table.Keyed AnalysisHistory.key
      (Stage.change key now created d).histories := by
  cases created with
  | true => exact Table.keyed_append hKeyed hReady.1
  | false =>
      exact Table.keyed_update (fun _ hKey => hKey) hKeyed

/- The commit publishes the change and frees the lock. -/
theorem racing_publish
    {created : Bool}
    (hRacing : Racing key nows d₀ w stage)
    (hStage : stage t = .closing created) :
    Racing key nows d₀
      (w.put
        (w.shared.publish t
          (Stage.writing key
            (Stage.change key (nows t) created)))
        t (.live (Stage.program key (nows t) .returned)))
      (Function.update stage t .returned) := by
  have hReady := hRacing.fits t
  rw [hStage] at hReady
  have hAlone : ∀ t', t' ≠ t → ¬ (stage t').Writes := by
    intro t' hNe hWrites
    have hOwn := (hRacing.locks key t).mpr
      ⟨rfl, by rw [hStage]; trivial⟩
    have hOther :=
      (hRacing.locks key t').mpr ⟨rfl, hWrites⟩
    exact hNe (Option.some.inj (hOther.symm.trans hOwn))
  have hClosed :
      Store.Private t w.shared
        ((w.shared.release t (fun _ => true)).setFrames t
          []) :=
    (Store.private_release _).trans
      (Store.private_setFrames _)
  have hClean :
      (w.shared.publish t
        (Stage.writing key
          (Stage.change key (nows t) created))).frames t =
        Stage.frames key (nows t) .returned := by
    simp [Store.publish, Store.setFrames, Stage.frames]
  apply
    hRacing.advance hClean hClosed.frames _ hClosed.locks
      (keyed_change hReady hRacing.keyed) trivial
      (fun t' hNe =>
        (hRacing.fits t').change (hAlone t' hNe) hReady)
  · rcases hRacing.counts with ⟨returned, hMem, hGrown⟩
    have hNew : t ∉ returned := by
      rw [hMem, hStage]
      simp
    refine ⟨insert t returned, ?_, ?_⟩
    · intro t'
      by_cases hSame : t' = t
      · subst hSame
        simp
      · rw [Function.update_of_ne hSame, Finset.mem_insert,
          hMem]
        simp [hSame]
    · rw [Finset.card_insert_of_notMem hNew]
      exact grown_change hReady hGrown
  · intro k
    have hFreed :
        (w.shared.publish t
          (Stage.writing key
            (Stage.change key (nows t) created))).locks k ≠
          some t := by
      simp only [Store.publish, Store.setFrames,
        Store.release]
      by_cases hOwn : w.shared.locks k = some t
      · simp [hOwn]
      · simp [hOwn]
    exact
      ⟨fun hLock => absurd hLock hFreed,
        fun hBoth => hBoth.2.elim⟩

theorem moves_closing
    {created : Bool}
    (hRacing : Racing key nows d₀ w stage)
    (hStage : stage t = .closing created)
    (hOk : Interleaves w (.step t c))
    (hNext :
      (backend repr).machine.next w (.step t c) = some w') :
    Moves key nows d₀ w w' stage t := by
  have hFrames := hRacing.frame hStage
  rcases put_of_next (hRacing.thread hStage) hNext with
    ⟨r, s, hExec, rfl⟩
  cases c with
  | fault e => exact hOk.elim
  | reply x => cases hExec
  | proceed =>
      have hCommit :
          w.shared.commit (backend repr).aborted t =
            (.ok (),
              w.shared.publish t
                (Stage.writing key
                  (Stage.change key (nows t) created))) := by
        simp [Store.commit, hFrames, Stage.frames,
          Stage.writing]
      have hResult :
          (r, s) =
            w.shared.commit (backend repr).aborted t :=
        (Option.some.inj hExec).symm
      rw [hCommit] at hResult
      cases hResult
      refine ⟨.returned, ?_, racing_publish hRacing hStage⟩
      rw [hStage]
      exact Follows.commit

theorem moves_failed
    {e : Exc}
    {broken : Bool}
    (hRacing : Racing key nows d₀ w stage)
    (hStage : stage t = .failed e broken)
    (hOk : Interleaves w (.step t c))
    (hNext :
      (backend repr).machine.next w (.step t c) = some w') :
    Moves key nows d₀ w w' stage t := by
  have hFrames := hRacing.frame hStage
  rcases put_of_next (hRacing.thread hStage) hNext with
    ⟨r, s, hExec, rfl⟩
  cases c with
  | fault e => exact hOk.elim
  | reply x => cases hExec
  | proceed =>
      cases hExec
      have hIdle : ∀ k, w.shared.locks k ≠ some t := by
        intro k hLock
        have hBoth := (hRacing.locks k t).mp hLock
        rw [hStage] at hBoth
        exact hBoth.2
      have hAfter :
          Racing key nows d₀
            (w.put (w.shared.rollback t) t
              (.live
                (Stage.program key (nows t) (.raised e))))
            (Function.update stage t (.raised e)) := by
        have hClean :
            (w.shared.rollback t).frames t =
              Stage.frames key (nows t) (.raised e) := by
          simp [Store.rollback, hFrames, Stage.frames,
            Store.setFrames]
        apply
          hRacing.advance_private Store.private_rollback
            hClean _ (by rw [hStage]; exact Iff.rfl) trivial
            (by rw [hStage]; simp) (by simp)
        intro k
        simp [Store.rollback, hFrames, Stage.frames,
          Store.setFrames, Store.release, hIdle k]
      refine ⟨.raised e, ?_, hAfter⟩
      rw [hStage]
      exact Follows.cancel

/- Every step of a run is one of a rollup at its stage. -/
theorem moves_of_step
    (hRacing : Racing key nows d₀ w stage)
    (hOk : Interleaves w (.step t c))
    (hNext :
      (backend repr).machine.next w (.step t c) = some w') :
    Moves key nows d₀ w w' stage t := by
  have hEnded :
      ∀ p : Service Unit, w.threads t = .live p →
        p.head = none → False := by
    intro p hThread hHead
    rcases Machine.next_step_inv hNext with
      ⟨o, k, r, s, hThread', _, _⟩
    rw [hThread] at hThread'
    cases hThread'
    cases hHead
  cases hStage : stage t with
  | idle =>
      exact (hEnded _ (hRacing.thread hStage) rfl).elim
  | returned =>
      exact (hEnded _ (hRacing.thread hStage) rfl).elim
  | raised e =>
      exact (hEnded _ (hRacing.thread hStage) rfl).elim
  | starting => exact moves_starting hRacing hStage hOk hNext
  | looking => exact moves_looking hRacing hStage hOk hNext
  | missing => exact moves_missing hRacing hStage hOk hNext
  | inserting =>
      exact moves_inserting hRacing hStage hOk hNext
  | inserted => exact moves_inserted hRacing hStage hOk hNext
  | refused => exact moves_refused hRacing hStage hOk hNext
  | rejected m => exact moves_rejected hRacing hStage hOk hNext
  | raced => exact moves_raced hRacing hStage hOk hNext
  | found => exact moves_found hRacing hStage hOk hNext
  | counted created =>
      exact moves_counted hRacing hStage hOk hNext
  | closing created =>
      exact moves_closing hRacing hStage hOk hNext
  | failed e broken =>
      exact moves_failed hRacing hStage hOk hNext

end Steps

------------------------------------------------------------
-- Runs
------------------------------------------------------------

/- The stages of `n` calls. -/
def Calls
    (n : Nat)
    (stage : Tid → Stage) : Prop :=
  ∀ t, stage t = .idle ↔ n ≤ t

/- The stages before the first step. -/
def starts (n : Nat) : Tid → Stage :=
  fun t => if t < n then .starting else .idle

theorem calls_starts
    (n : Nat) : Calls n (starts n) := by
  intro t
  by_cases hCall : t < n
  · simp [starts, hCall]
  · simp [starts, hCall, Nat.le_of_not_lt hCall]

theorem racing_starts
    (n : Nat)
    (nows : Tid → Time)
    (hKeyed : Table.Keyed AnalysisHistory.key d.histories) :
    Racing key nows d (startUpserts n key nows d)
      (starts n) where
  threads := by
    intro t
    by_cases hCall : t < n
    · simp [startUpserts, starts, hCall, Stage.program]
    · simp [startUpserts, starts, hCall, Stage.program]
  frames := by
    intro t
    by_cases hCall : t < n
    · simp [startUpserts, Store.quiet, starts, hCall,
        Stage.frames]
    · simp [startUpserts, Store.quiet, starts, hCall,
        Stage.frames]
  locks := by
    intro k t
    by_cases hCall : t < n
    · simp [startUpserts, Store.quiet, starts, hCall,
        Stage.Writes]
    · simp [startUpserts, Store.quiet, starts, hCall,
        Stage.Writes]
  keyed := hKeyed
  fits := by
    intro t
    by_cases hCall : t < n
    · simp [starts, hCall, Stage.Fits]
    · simp [starts, hCall, Stage.Fits]
  counts := by
    refine ⟨∅, ?_, rfl⟩
    intro t
    by_cases hCall : t < n
    · simp [starts, hCall]
    · simp [starts, hCall]

/- A rollup is called, and stays called. -/
theorem Follows.ne_idle
    {st st' : Stage}
    (hFollows : Follows key now d st st') :
    st ≠ .idle ∧ st' ≠ .idle := by
  cases hFollows <;> exact ⟨by simp, by simp⟩

theorem calls_of_follows
    {st : Stage}
    (hCalls : Calls n stage)
    (hFollows : Follows key now d (stage t) st) :
    Calls n (Function.update stage t st) := by
  rcases hFollows.ne_idle with ⟨hOld, hNew⟩
  intro t'
  rw [← hCalls t']
  by_cases hSame : t' = t
  · subst hSame
    rw [Function.update_self]
    exact ⟨fun h => absurd h hNew, fun h => absurd h hOld⟩
  · rw [Function.update_of_ne hSame]

/-
  In every state of a run the rollups are at stages, which
  have what holds at the start and is kept by every step.
-/
theorem stages_of_reaches
    {P : (Tid → Stage) → Prop}
    (hKeyed : Table.Keyed AnalysisHistory.key d.histories)
    (hReach :
      (backend repr).machine.Reaches Interleaves
        (startUpserts n key nows d) w)
    (hStart : P (starts n))
    (hKeep :
      ∀ v stage t st,
        Racing key nows d v stage → Calls n stage →
          P stage →
            Follows key (nows t) v.shared.committed
                (stage t) st →
              P (Function.update stage t st)) :
    ∃ stage,
      Racing key nows d w stage ∧ Calls n stage ∧
        P stage := by
  apply hReach.invariant
    (P := fun v =>
      ∃ stage,
        Racing key nows d v stage ∧ Calls n stage ∧ P stage)
  · exact
      ⟨starts n, racing_starts n nows hKeyed,
        calls_starts n, hStart⟩
  · rintro v e v' ⟨stage, hRacing, hCalls, hP⟩ hOk hNext
    cases e with
    | lose t => exact hOk.elim
    | step t c =>
        rcases moves_of_step hRacing hOk hNext with
          ⟨st, hFollows, hRacing'⟩
        exact
          ⟨_, hRacing', calls_of_follows hCalls hFollows,
            hKeep v stage t st hRacing hCalls hP hFollows⟩

theorem racing_of_reaches
    (hKeyed : Table.Keyed AnalysisHistory.key d.histories)
    (hReach :
      (backend repr).machine.Reaches Interleaves
        (startUpserts n key nows d) w) :
    ∃ stage, Racing key nows d w stage ∧ Calls n stage := by
  rcases
    stages_of_reaches (P := fun _ => True) hKeyed hReach
      trivial (fun _ _ _ _ _ _ _ _ => trivial) with
    ⟨stage, hRacing, hCalls, _⟩
  exact ⟨stage, hRacing, hCalls⟩

------------------------------------------------------------
-- No Rollup Fails
------------------------------------------------------------

theorem fitsInteger_between
    {a b m : Int}
    (hFirst : fitsInteger a = true)
    (hLast : fitsInteger b = true)
    (hLow : a ≤ m)
    (hHigh : m ≤ b) :
    fitsInteger m = true := by
  simp only [fitsInteger, decide_eq_true_eq] at *
  omega

/- The row stays in view. -/
theorem live_of_grown
    {k : Nat}
    {row : AnalysisHistory}
    (hCountable : Countable n key d₀)
    (hGrown : Grown key d₀ d k)
    (hFind : d.findHistory key = some row) :
    row.isDeleted = false := by
  cases k with
  | zero =>
      have hSame :
          d.findHistory key = d₀.findHistory key := hGrown
      rw [hSame] at hFind
      exact hCountable.shown row hFind
  | succ k =>
      rcases hGrown with ⟨_, row', hFind', hLive, _⟩
      rw [hFind] at hFind'
      cases hFind'
      exact hLive

/- There is room for one more. -/
theorem check_of_grown
    {k : Nat}
    {row : AnalysisHistory}
    (hCountable : Countable n key d₀)
    (hGrown : Grown key d₀ d k)
    (hLess : k < n)
    (hFind : d.findHistory key = some row) :
    (row.increment now).check = .ok () := by
  have hKey : row.key = key := Table.key_of_find hFind
  have hSame : row.url = key.2 := congrArg Prod.snd hKey
  have hCount := hGrown.historyCount_eq
  rw [historyCount_of_find hFind] at hCount
  rw [check_eq_ok]
  constructor
  · show fitsChar 2048 row.url = true
    rw [hSame]
    exact hCountable.url
  · apply
      fitsInteger_between hCountable.first hCountable.last
    · show _ ≤ row.reportsCount + 1
      omega
    · show row.reportsCount + 1 ≤ _
      omega

/- A call that is at work has not been counted. -/
theorem card_lt_of_follows
    {returned : Finset Tid}
    {st : Stage}
    (hCalls : Calls n stage)
    (hMem : ∀ t, t ∈ returned ↔ stage t = .returned)
    (hFollows : Follows key now d (stage t) st) :
    returned.card < n := by
  have hNew : t ∉ returned := by
    rw [hMem]
    intro hReturned
    rw [hReturned] at hFollows
    cases hFollows
  have hBelow : insert t returned ⊆ Finset.range n := by
    intro t' hIn
    rw [Finset.mem_range]
    apply Nat.lt_of_not_le
    intro hBeyond
    have hIdle := (hCalls t').mpr hBeyond
    rcases Finset.mem_insert.mp hIn with hSame | hOld
    · subst hSame
      rw [hIdle] at hFollows
      cases hFollows
    · rw [hMem, hIdle] at hOld
      cases hOld
  have hCard := Finset.card_le_card hBelow
  rw [Finset.card_insert_of_notMem hNew,
    Finset.card_range] at hCard
  exact hCard

/- As long as the calls can be counted no step fails. -/
theorem follows_unfailed
    {st : Stage}
    (hRacing : Racing key nows d₀ w stage)
    (hCalls : Calls n stage)
    (hCountable : Countable n key d₀)
    (hBefore : ¬ (stage t).Fails)
    (hFollows :
      Follows key (nows t) w.shared.committed (stage t) st) :
    ¬ st.Fails := by
  rcases hRacing.counts with ⟨returned, hMem, hGrown⟩
  have hLess := card_lt_of_follows hCalls hMem hFollows
  have hFits := hRacing.fits t
  generalize stage t = st' at hBefore hFollows hFits
  cases hFollows with
  | start => exact fun h => h
  | find => exact fun h => h
  | miss => exact fun h => h
  | savepoint => exact fun h => h
  | insert => exact fun h => h
  | refuse => exact fun h => h
  | release => exact fun h => h
  | reread => exact fun h => h
  | lose => exact fun h => h
  | increment => exact fun h => h
  | drop => exact fun h => h
  | commit => exact fun h => h
  | abandon => exact absurd trivial hBefore
  | cancel => exact absurd trivial hBefore
  | reject hCheck =>
      have hFine :
          (firstHistory key (nows t)).check = .ok () :=
        check_eq_ok.mpr ⟨hCountable.url, rfl⟩
      rw [hFine] at hCheck
      cases hCheck
  | hidden hNone =>
      rcases Option.ne_none_iff_exists'.mp hFits with
        ⟨row, hFind⟩
      have hLive := live_of_grown hCountable hGrown hFind
      simp [shownHistory, hFind, hLive] at hNone
  | overflow hFind hCheck =>
      rw [check_of_grown hCountable hGrown hLess hFind]
        at hCheck
      cases hCheck

theorem unfailed_of_reaches
    (hKeyed : Table.Keyed AnalysisHistory.key d.histories)
    (hCountable : Countable n key d)
    (hReach :
      (backend repr).machine.Reaches Interleaves
        (startUpserts n key nows d) w) :
    ∃ stage,
      Racing key nows d w stage ∧ Calls n stage ∧
        ∀ t, ¬ (stage t).Fails := by
  apply stages_of_reaches hKeyed hReach
  · intro t
    by_cases hCall : t < n
    · simp [starts, hCall, Stage.Fails]
    · simp [starts, hCall, Stage.Fails]
  · intro v stage t st hRacing hCalls hUnfailed hFollows t'
    by_cases hSame : t' = t
    · subst hSame
      rw [Function.update_self]
      exact
        follows_unfailed hRacing hCalls hCountable
          (hUnfailed t') hFollows
    · rw [Function.update_of_ne hSame]
      exact hUnfailed t'

------------------------------------------------------------
-- Every Run Can Be Completed
------------------------------------------------------------

theorem rank_of_follows
    {st st' : Stage}
    (hFollows : Follows key now d st st') :
    st'.rank < st.rank := by
  cases hFollows <;> simp [Stage.rank]

/- A rollup is at work as long as it has steps to take. -/
theorem head_eq_none_iff
    {st : Stage} :
    (st.program key now).head = none ↔ st.rank = 0 := by
  cases st with
  | idle => exact ⟨fun _ => rfl, fun _ => rfl⟩
  | returned => exact ⟨fun _ => rfl, fun _ => rfl⟩
  | raised e => exact ⟨fun _ => rfl, fun _ => rfl⟩
  | _ => constructor <;> intro h <;> cases h

theorem rank_ne_zero_of_writes
    {st : Stage}
    (hWrites : st.Writes) :
    st.rank ≠ 0 := by
  cases st <;> simp_all [Stage.Writes, Stage.rank]

theorem within_changeVerdict
    {α : Type}
    (a : α)
    (f : Db → Db)
    (r : Except Exc Unit) :
    (changeVerdict key a f r).Within key := by
  cases r with
  | error e => exact trivial
  | ok u => exact rfl

theorem within_getHistory
    (d : Db) :
    (plan repr (.getHistory key) d).Within key := by
  have hPlan :
      plan repr (.getHistory key) d =
        lookupVerdict (shownHistory key d) := rfl
  rw [hPlan]
  cases shownHistory key d with
  | none => exact trivial
  | some row => exact trivial

theorem within_createHistory
    (now : Time)
    (d : Db) :
    (plan repr (.createHistory (firstHistory key now))
        d).Within key := by
  have hPlan :
      plan repr (.createHistory (firstHistory key now)) d =
        insertVerdict key now (d.findHistory key) := rfl
  rw [hPlan]
  cases d.findHistory key with
  | some row => exact trivial
  | none => exact within_changeVerdict _ _ _

theorem within_incrementHistory
    (now : Time)
    (d : Db) :
    (plan repr (.incrementHistory key now) d).Within
      key := by
  have hPlan :
      plan repr (.incrementHistory key now) d =
        incrementVerdict key now (d.findHistory key) := rfl
  rw [hPlan]
  cases d.findHistory key with
  | none => exact trivial
  | some row => exact within_changeVerdict _ _ _

/- Some step of the thread is possible. -/
def CanStep
    (repr : Json → String)
    (w : UpsertWorld)
    (t : Tid) : Prop :=
  ∃ c w', Interleaves w (.step t c) ∧
    (backend repr).machine.next w (.step t c) = some w'

/- A statement is answered if the lock is available. -/
theorem canStep_query
    {q : Statement}
    {k : Except Exc q.Answer → Service Unit}
    (hThread : w.threads t = .live (.call (.query q) k))
    (hWithin : ∀ d, (plan repr q d).Within key)
    (hFree : w.shared.Available t key) :
    CanStep repr w t := by
  have hExec :=
    Backend.exec_of_within (B := backend repr)
      (hWithin (w.shared.view t)) hFree
  rcases hExec with ⟨r, s, hExec⟩
  exact
    ⟨.proceed, _, trivial, Machine.next_step hThread hExec⟩

/- A transaction is begun and ended without waiting. -/
theorem canStep_proceed
    {o : TxOp Statement}
    {k :
      Except Exc (TxOp.Res Statement.Answer o) →
        Service Unit}
    {r : Except Exc (TxOp.Res Statement.Answer o)}
    {s : Store Db HistoryKey}
    (hThread : w.threads t = .live (.call o k))
    (hExec :
      (backend repr).machine.exec t o .proceed w.shared =
        some (r, s)) :
    CanStep repr w t :=
  ⟨.proceed, _, trivial, Machine.next_step hThread hExec⟩

theorem canStep_of_available
    (hRacing : Racing key nows d₀ w stage)
    (hRank : (stage t).rank ≠ 0)
    (hFree : w.shared.Available t key) :
    CanStep repr w t := by
  cases hStage : stage t with
  | idle => rw [hStage] at hRank; exact absurd rfl hRank
  | returned => rw [hStage] at hRank; exact absurd rfl hRank
  | raised e => rw [hStage] at hRank; exact absurd rfl hRank
  | starting =>
      exact canStep_proceed (hRacing.thread hStage) rfl
  | missing =>
      exact canStep_proceed (hRacing.thread hStage) rfl
  | inserted =>
      exact canStep_proceed (hRacing.thread hStage) rfl
  | refused =>
      exact canStep_proceed (hRacing.thread hStage) rfl
  | rejected m =>
      exact canStep_proceed (hRacing.thread hStage) rfl
  | closing created =>
      exact canStep_proceed (hRacing.thread hStage) rfl
  | failed e broken =>
      exact canStep_proceed (hRacing.thread hStage) rfl
  | looking =>
      exact
        canStep_query (hRacing.thread hStage)
          within_getHistory hFree
  | raced =>
      exact
        canStep_query (hRacing.thread hStage)
          within_getHistory hFree
  | inserting =>
      exact
        canStep_query (hRacing.thread hStage)
          (within_createHistory _) hFree
  | found =>
      exact
        canStep_query (hRacing.thread hStage)
          (within_incrementHistory _) hFree
  | counted created =>
      exact
        ⟨.reply .done, _, trivial,
          Machine.next_step (hRacing.thread hStage) rfl⟩

/-
  Whoever holds the lock can go on, and with the lock free
  every rollup can.
-/
theorem progress_of_racing
    (hRacing : Racing key nows d₀ w stage)
    (hLive : w.Live t) :
    ∃ t', CanStep repr w t' := by
  cases hLock : w.shared.locks key with
  | none =>
      refine
        ⟨t, canStep_of_available hRacing ?_ (Or.inl hLock)⟩
      intro hRank
      apply hLive
      rw [hRacing.threads t]
      exact head_eq_none_iff.mpr hRank
  | some t' =>
      have hWrites := ((hRacing.locks key t').mp hLock).2
      refine
        ⟨t', canStep_of_available hRacing ?_ (Or.inr hLock)⟩
      exact rank_ne_zero_of_writes hWrites

/- The steps that are left of all the calls. -/
def left
    (n : Nat)
    (stage : Tid → Stage) : Nat :=
  (Finset.range n).sum (fun t => (stage t).rank)

theorem left_of_follows
    {st : Stage}
    (hCalls : Calls n stage)
    (hFollows : Follows key now d (stage t) st) :
    left n (Function.update stage t st) < left n stage := by
  have hLess := rank_of_follows hFollows
  apply Finset.sum_lt_sum
  · intro t' _
    by_cases hSame : t' = t
    · subst hSame
      rw [Function.update_self]
      exact Nat.le_of_lt hLess
    · rw [Function.update_of_ne hSame]
  · refine ⟨t, ?_, ?_⟩
    · rw [Finset.mem_range]
      apply Nat.lt_of_not_le
      intro hBeyond
      exact hFollows.ne_idle.1 ((hCalls t).mpr hBeyond)
    · rw [Function.update_self]
      exact hLess

/- The calls can be run to their end from everywhere. -/
theorem completes_of_racing
    (repr : Json → String)
    (hRacing : Racing key nows d₀ w stage)
    (hCalls : Calls n stage) :
    ∃ w',
      (backend repr).machine.Reaches Interleaves w w' ∧
        ∀ t, ¬ w'.Live t := by
  induction hLeft : left n stage using Nat.strong_induction_on
    generalizing w stage with
  | h m ih =>
      by_cases hLive : ∃ t, w.Live t
      · rcases hLive with ⟨t, hLive⟩
        rcases progress_of_racing hRacing hLive with
          ⟨t', c, v, hOk, hNext⟩
        rcases moves_of_step hRacing hOk hNext with
          ⟨st, hFollows, hRacing'⟩
        have hLess := left_of_follows hCalls hFollows
        rw [hLeft] at hLess
        rcases
          ih _ hLess hRacing'
            (calls_of_follows hCalls hFollows) rfl with
          ⟨w', hRest, hEnd⟩
        exact
          ⟨w',
            (Machine.Reaches.refl.tail hOk hNext).trans hRest,
            hEnd⟩
      · exact
          ⟨w, Machine.Reaches.refl,
            fun t hAt => hLive ⟨t, hAt⟩⟩

------------------------------------------------------------
-- Counting
------------------------------------------------------------

/-
  Once no call is at work, the pair has one row, which has
  counted each of the `n` calls once.
-/
def CountsEach
    (repr : Json → String)
    (n : Nat)
    (key : HistoryKey)
    (nows : Tid → Time)
    (d : Db) : Prop :=
  ∀ w,
    (backend repr).machine.Reaches Interleaves
        (startUpserts n key nows d) w →
      (∀ t, ¬ w.Live t) →
        ∃ row,
          w.shared.committed.histories.filter
              (fun row => row.key = key) =
            [row] ∧
          row.reportsCount = historyCount d key + n

/-
  In every state the counter has grown by the calls that have
  returned: no increment is lost or doubled.
-/
theorem count_of_reaches
    (hKeyed : Table.Keyed AnalysisHistory.key d.histories)
    (hReach :
      (backend repr).machine.Reaches Interleaves
        (startUpserts n key nows d) w) :
    ∃ returned : Finset Tid,
      (∀ t, t ∈ returned ↔
        t < n ∧ w.threads t = .live (.ret ())) ∧
        historyCount w.shared.committed key =
          historyCount d key + returned.card := by
  rcases racing_of_reaches hKeyed hReach with
    ⟨stage, hRacing, hCalls⟩
  rcases hRacing.counts with ⟨returned, hMem, hGrown⟩
  refine ⟨returned, ?_, hGrown.historyCount_eq⟩
  intro t
  have hIdle := hCalls t
  rw [hMem, hRacing.threads t]
  cases hStage : stage t with
  | idle =>
      rw [hStage] at hIdle
      have hBeyond := hIdle.mp rfl
      constructor
      · intro h
        cases h
      · rintro ⟨hCall, _⟩
        exact absurd hBeyond (Nat.not_le.mpr hCall)
  | returned =>
      rw [hStage] at hIdle
      have hCall : t < n := by
        apply Nat.lt_of_not_le
        intro hBeyond
        cases hIdle.mpr hBeyond
      exact ⟨fun _ => ⟨hCall, rfl⟩, fun _ => rfl⟩
  | _ =>
      constructor
      · intro h
        cases h
      · rintro ⟨_, h⟩
        cases h

/- A call that has ended without a failure has returned. -/
theorem returned_of_ended
    {st : Stage}
    (hRank : st.rank = 0)
    (hUnfailed : ¬ st.Fails)
    (hCalled : st ≠ .idle) :
    st = .returned := by
  cases st with
  | idle => exact absurd rfl hCalled
  | returned => rfl
  | raised e => exact absurd trivial hUnfailed
  | _ => cases hRank

theorem countsEach_of_countable
    (hKeyed : Table.Keyed AnalysisHistory.key d.histories)
    (hCalls : 0 < n)
    (hCountable : Countable n key d) :
    CountsEach repr n key nows d := by
  intro w hReach hEnd
  rcases unfailed_of_reaches hKeyed hCountable hReach with
    ⟨stage, hRacing, hStages, hUnfailed⟩
  rcases hRacing.counts with ⟨returned, hMem, hGrown⟩
  have hRank : ∀ t, (stage t).rank = 0 := by
    intro t
    have hHead : (w.threads t).head = none :=
      not_not.mp (hEnd t)
    rw [hRacing.threads t] at hHead
    exact head_eq_none_iff.mp hHead
  have hAll : returned = Finset.range n := by
    ext t
    rw [hMem, Finset.mem_range, ← Nat.not_le, ← hStages t]
    constructor
    · intro hReturned
      simp [hReturned]
    · exact returned_of_ended (hRank t) (hUnfailed t)
  rw [hAll, Finset.card_range] at hGrown
  cases n with
  | zero => cases hCalls
  | succ m =>
      rcases hGrown with ⟨_, row, hFind, _, hCount⟩
      exact
        ⟨row,
          (Table.filter_eq_singleton_iff hRacing.keyed).mpr
            hFind,
          hCount⟩

theorem countable_of_countsEach
    (hKeyed : Table.Keyed AnalysisHistory.key d.histories)
    (hCalls : 0 < n)
    (hCounts : CountsEach repr n key nows d) :
    Countable n key d := by
  rcases
    completes_of_racing repr (racing_starts n nows hKeyed)
      (calls_starts n) with
    ⟨w, hReach, hEnd⟩
  rcases hCounts w hReach hEnd with ⟨row, hRow, hCount⟩
  rcases racing_of_reaches hKeyed hReach with
    ⟨stage, hRacing, _⟩
  rcases hRacing.counts with ⟨returned, _, hGrown⟩
  have hFind : w.shared.committed.findHistory key = some row :=
    (Table.filter_eq_singleton_iff hRacing.keyed).mp hRow
  have hSum := hGrown.historyCount_eq
  rw [historyCount_of_find hFind, hCount] at hSum
  have hCard : returned.card = n := by omega
  rw [hCard] at hGrown
  cases n with
  | zero => cases hCalls
  | succ m => exact hGrown.1

/-
  Any number of concurrent rollups of one user and one URL,
  from any state of a run, can be run to their end.  However
  they interleave, there is one row at the end that counts
  each of them once, if and only if the pair can be counted.
-/
theorem upserts_counted
    (repr : Json → String)
    (nows : Tid → Time)
    (hKeyed : Table.Keyed AnalysisHistory.key d.histories)
    (hCalls : 0 < n) :
    (∀ w,
      (backend repr).machine.Reaches Interleaves
          (startUpserts n key nows d) w →
        ∃ w',
          (backend repr).machine.Reaches Interleaves w w' ∧
            ∀ t, ¬ w'.Live t) ∧
      (CountsEach repr n key nows d ↔
        Countable n key d) := by
  refine ⟨?_, ?_, ?_⟩
  · intro w hReach
    rcases racing_of_reaches hKeyed hReach with
      ⟨stage, hRacing, hStages⟩
    exact completes_of_racing repr hRacing hStages
  · exact countable_of_countsEach hKeyed hCalls
  · exact countsEach_of_countable hKeyed hCalls

/- A pair whose row has been hidden from the manager. -/
def hiddenHistory : Db where
  reports := fun _ => []
  histories :=
    [{ user := 0
       url := "https://a.io/"
       reportsCount := 1
       lastAnalyzedAt := 0
       isDeleted := true }]
  cache := fun _ => none
  posts := []

theorem keyed_hiddenHistory :
    Table.Keyed AnalysisHistory.key hiddenHistory.histories :=
  List.nodup_singleton _

/- A pair that has no row yet. -/
def emptyHistory : Db :=
  { hiddenHistory with histories := [] }

theorem keyed_emptyHistory :
    Table.Keyed AnalysisHistory.key emptyHistory.histories :=
  List.nodup_nil

/- Two rollups of a pair that has no row yet. -/
theorem upserts_counted_first :
    CountsEach (fun _ => "") 2 (0, "https://a.io/")
      (fun _ => 5) emptyHistory :=
  (upserts_counted (fun _ => "") (fun _ => 5)
      keyed_emptyHistory (by decide)).2.mpr
    { shown := by
        intro row hFind
        cases hFind
      url := by rfl
      first := by rfl
      last := by rfl }

/- No rollup is counted in a row that has been hidden. -/
theorem hidden_history_uncounted :
    ¬ CountsEach (fun _ => "") 2 (0, "https://a.io/")
      (fun _ => 5) hiddenHistory := by
  intro hCounts
  have hCountable :=
    countable_of_countsEach keyed_hiddenHistory (by decide)
      hCounts
  cases hCountable.shown _ rfl

end SiteAnalysis.Analysis
