import SiteAnalysis.Analysis.History
import SiteAnalysis.Relational.Nested

/-
  This file proves when the cached history shows what the
  rollups have committed.

  A rollup drops the user's entry before it commits, and a
  reader fills the entry after it has read the table.  The
  entry stays true as long as no reader reads the table
  between the drop and the commit, and no entry is dropped
  while a reader is about to fill it.

  Key definitions include:
    * `HistoryCall`
    * `startCalls`
    * `Orderly`
    * `Coherent`

  Key theorems include:
    * `wp_upsertHistory`
    * `wp_getAnalysisHistory`
    * `history_reflects_commits`
    * `stale_history`
-/

------------------------------------------------------------
-- Readers and Rollups
------------------------------------------------------------

namespace SiteAnalysis.Analysis

open Concurrency
open Relational
open Python
open Reports

/- A call of `get_analysis_history` or `_upsert_history`. -/
inductive HistoryCall
  | read (user : UserId)
  | upsert (key : HistoryKey) (now : Time)

/- The history that a reader returns. -/
abbrev HistoryWorld :=
  World (Store Db HistoryKey) (TxOp Statement)
    (TxOp.Res Statement.Answer) Exc
    (Option (List AnalysisHistory))

def HistoryCall.program :
    HistoryCall → Service (Option (List AnalysisHistory))
| .read user => do
    let history ← getAnalysisHistory user
    pure (some history)
| .upsert key now => do
    upsertHistory key now
    pure none

def startCalls
    (calls : Tid → HistoryCall)
    (d : Db) : HistoryWorld where
  shared := Store.quiet d
  threads := fun t => .live (calls t).program

/- The rollup has dropped the entry and not yet committed. -/
def Dropped
    (calls : Tid → HistoryCall)
    (w : HistoryWorld)
    (user : UserId) : Prop :=
  ∃ t key now, calls t = .upsert key now ∧ key.1 = user ∧
    (w.threads t).head = some .commit ∧
      (w.shared.frames t).length = 1

/- A reader has read the table and not yet filled the entry. -/
def Filling
    (w : HistoryWorld)
    (user : UserId) : Prop :=
  ∃ t list timeout,
    (w.threads t).head =
      some (.query (.cacheSet user list timeout))

/-
  Nobody reads the table between the drop and the commit, and
  nobody drops an entry that is about to be filled.
-/
def Orderly
    (calls : Tid → HistoryCall)
    (w : HistoryWorld) : Event (Choice Exc Reply) → Prop
| .step t _ =>
    ∀ user,
      ((w.threads t).head =
          some (.query (.listHistory user)) →
        ¬ Dropped calls w user) ∧
      ((w.threads t).head =
          some (.query (.cacheDelete user)) →
        ¬ Filling w user)
| .lose _ => True

/- The entries of the cache are what the table shows. -/
def Coherent (d : Db) : Prop :=
  ∀ user list, d.cache user = some list →
    list = d.history user

------------------------------------------------------------
-- Statements
------------------------------------------------------------

/- The statements of a rollup on the table. -/
def Counts (user : UserId) : Statement → Prop
| .getHistory _ => True
| .createHistory row => row.user = user
| .incrementHistory key _ => key.1 = user
| _ => False

/- The row that a statement finds or inserts. -/
def Found : (q : Statement) → q.Answer → Prop
| .getHistory key, row => row.key = key
| .createHistory row, row' => row' = row
| _, _ => True

theorem nests_getOrCreateHistory
    (key : HistoryKey)
    (now : Time) :
    Nests (Counts key.1) Found (fun found => found.1.key = key)
      1 (getOrCreateHistory key now) 1 := by
  apply Nests.handle (nests_execute trivial)
  · intro row hKey
    exact ⟨rfl, hKey⟩
  intro e
  split
  · have hCreate :
        Nests (Counts key.1) Found
          (fun row => row = firstHistory key now) 2
          (query (.createHistory (firstHistory key now))) 2 :=
      nests_execute rfl
    apply Nests.handle (nests_atomic (le_refl 1) hCreate)
    · rintro row rfl
      exact ⟨rfl, rfl⟩
    intro e'
    split
    · apply Nests.handle (nests_execute trivial)
      · intro row hKey
        exact ⟨rfl, hKey⟩
      · intro e''
        split <;> rfl
    · rfl
  · rfl

theorem nests_countExisting
    {key : HistoryKey}
    {now : Time}
    (found : AnalysisHistory × Bool)
    (hFound : found.1.key = key) :
    Nests (Counts key.1) Found (fun _ => True) 1
      (countExisting now found) 1 := by
  rcases found with ⟨row, created⟩
  cases created with
  | true => exact ⟨rfl, trivial⟩
  | false =>
      apply nests_execute
      exact congrArg Prod.fst hFound

/- Such a statement touches the history of its user. -/
theorem touches_of_counts
    {repr : Json → String}
    {user : UserId}
    {q : Statement}
    {d : Db}
    {a : q.Answer}
    {lock : Option HistoryKey}
    {f : Db → Db}
    (hCounts : Counts user q)
    (hPlan : plan repr q d = .done a lock f) :
    Found q a ∧ ∀ d', Touches user d' (f d') := by
  cases q with
  | getHistory key =>
      simp only [plan] at hPlan
      split at hPlan
      · rename_i row hRow
        cases hPlan
        have hFind := Option.eq_some_of_filter_eq_some hRow
        exact
          ⟨Table.key_of_find hFind, fun d' => touches_refl d'⟩
      · cases hPlan
  | createHistory row =>
      have hUser : row.user = user := hCounts
      subst hUser
      simp only [plan] at hPlan
      split at hPlan
      · cases hPlan
      · split at hPlan
        · cases hPlan
        · cases hPlan
          exact ⟨rfl, fun d' => touches_insertHistory row d'⟩
  | incrementHistory key now =>
      have hUser : key.1 = user := hCounts
      subst hUser
      refine ⟨trivial, ?_⟩
      simp only [plan] at hPlan
      split at hPlan
      · cases hPlan
        exact fun d' => touches_refl d'
      · split at hPlan
        · cases hPlan
        · cases hPlan
          exact fun d' => touches_updateHistory key now d'
  | _ => exact False.elim hCounts

------------------------------------------------------------
-- The Regime
------------------------------------------------------------

/-
  What is noted of a call: a reader has read the table `d`,
  or has a list that the table `d` shows; a rollup has
  dropped the entry.
-/
inductive Note
  | fresh
  | holding (user : UserId) (d : Db)
  | shown (user : UserId) (d : Db)
  | dropped (user : UserId)

def noteHistory :
    (q : Statement) → q.Answer → Db → Note → Note
| .listHistory user, _, d, _ => .holding user d
| .cacheGet user, some _, d, _ => .shown user d
| .cacheSet _ _ _, _, _, .holding user d => .shown user d
| .cacheDelete user, _, _, _ => .dropped user
| _, _, _, n => n

/- The end of the rollup's transaction. -/
def Note.committed : Note → Note
| .dropped _ => .fresh
| n => n

/- The operation that comes next. -/
def Note.Next
    (frames : Nat) : Note → Option (TxOp Statement) → Prop
| .fresh, o =>
    ∀ user list timeout,
      o ≠ some (.query (.cacheSet user list timeout))
| .holding user d, o =>
    o = none ∨
      o =
        some
          (.query
            (.cacheSet user (d.history user)
              historyCacheTimeout))
| .shown _ _, o => o = none
| .dropped _, o =>
    o = none ∨ (o = some .commit ∧ frames = 1)

/- What a reader holds is shown, what is dropped is gone. -/
def Note.Fits
    (call : HistoryCall)
    (d : Db) : Note → Prop
| .holding user d₀ => d.history user = d₀.history user
| .dropped user =>
    d.cache user = none ∧
      ∃ key now, call = .upsert key now ∧ key.1 = user
| _ => True

/- Nobody fills an entry that has been dropped. -/
def Note.Clashes : Note → Note → Prop
| .dropped user, .holding user' _ => user = user'
| _, _ => False

structure Coheres
    (calls : Tid → HistoryCall)
    (d : Db)
    (ns : Tid → Note)
    (live : Tid → Prop) : Prop where
  cache : Coherent d
  fits : ∀ t, live t → (ns t).Fits (calls t) d
  apart :
    ∀ t t', live t → live t' → ¬ (ns t).Clashes (ns t')

def historyRegime
    (repr : Json → String)
    (calls : Tid → HistoryCall) :
    Regime (backend repr) (Option (List AnalysisHistory))
      Unit Unit Note where
  ok := Orderly calls
  frag := fun _ _ => ()
  own := fun _ _ => ()
  inv := Coheres calls
  antitone := by
    intro d ns live live' hSub hInv
    exact
      ⟨hInv.cache, fun t hLive => hInv.fits t (hSub t hLive),
        fun t t' hLive hLive' =>
          hInv.apart t t' (hSub t hLive) (hSub t' hLive')⟩
  guar := fun _ => Grows
  guar_refl := fun _ => grows_refl
  shape := fun l o => l.note.Next l.session.frames.length o
  note := fun _ => noteHistory
  noteError := fun _ n => n
  inv_error := by
    intro t q d ns live hInv
    rw [Function.update_eq_self]
    exact hInv
  noteCommit := fun _ _ => Note.committed
  noteLost := fun n => n

abbrev Knows :=
  Regime.Local Db HistoryKey Unit Unit Note

variable {repr : Json → String}
variable {calls : Tid → HistoryCall} {t : Tid} {l : Knows}
variable {user : UserId} {key : HistoryKey} {now : Time}
variable {d d' d₀ : Db} {ns : Tid → Note}
variable {live : Tid → Prop}

------------------------------------------------------------
-- Rollups
------------------------------------------------------------

/- The part of a rollup before the entry is dropped. -/
theorem nested_counts :
    (historyRegime repr calls).Nested (Touches user) t
      .fresh (Counts user) Found where
  refl := touches_refl
  trans := fun _ _ _ hLeft hRight => hLeft.trans hRight
  shape := by
    intro l o hNote hAllowed
    change l.note.Next _ _
    rw [hNote]
    rintro user' list timeout hSame
    cases hSame
    exact hAllowed _ rfl
  plan := fun q hCounts d a lock f hPlan =>
    touches_of_counts hCounts hPlan
  reply := by
    intro q hCounts x d
    cases q with
    | getHistory key => cases x <;> rfl
    | createHistory row => cases x <;> rfl
    | incrementHistory key now => cases x <;> rfl
    | _ => exact hCounts.elim
  note := by
    intro q hCounts a d
    cases q with
    | getHistory key => rfl
    | createHistory row => rfl
    | incrementHistory key now => rfl
    | _ => exact hCounts.elim
  noteError := fun _ _ => rfl

/- A step of one call, with what is noted of it then. -/
theorem Coheres.step
    {n : Note}
    (hCoheres : Coheres calls d ns live)
    (hCache : Coherent d')
    (hOwn : n.Fits (calls t) d')
    (hOthers :
      ∀ t', t' ≠ t → live t' →
        (ns t').Fits (calls t') d')
    (hApart :
      ∀ t', t' ≠ t → live t' →
        ¬ n.Clashes (ns t') ∧ ¬ (ns t').Clashes n) :
    Coheres calls d' (Function.update ns t n) live where
  cache := hCache
  fits := by
    intro t' hLive
    by_cases hSame : t' = t
    · subst hSame
      rw [Function.update_self]
      exact hOwn
    · rw [Function.update_of_ne hSame]
      exact hOthers t' hSame hLive
  apart := by
    intro t₁ t₂ hLive₁ hLive₂
    by_cases hSame₁ : t₁ = t
    · subst hSame₁
      rw [Function.update_self]
      by_cases hSame₂ : t₂ = t₁
      · subst hSame₂
        rw [Function.update_self]
        cases n <;> exact id
      · rw [Function.update_of_ne hSame₂]
        exact (hApart t₂ hSame₂ hLive₂).1
    · rw [Function.update_of_ne hSame₁]
      by_cases hSame₂ : t₂ = t
      · subst hSame₂
        rw [Function.update_self]
        exact (hApart t₁ hSame₁ hLive₁).2
      · rw [Function.update_of_ne hSame₂]
        exact hCoheres.apart t₁ t₂ hLive₁ hLive₂

/- Another entry of a user in the cache. -/
def setEntry
    (user : UserId)
    (entry : Option (List AnalysisHistory))
    (d : Db) : Db :=
  { d with cache := Function.update d.cache user entry }

/- The notes of the others fit another entry, if it may be. -/
theorem Note.Fits.setEntry
    {n : Note}
    {call : HistoryCall}
    {entry : Option (List AnalysisHistory)}
    (hFits : n.Fits call d)
    (hEntry : n = .dropped user → entry = none) :
    n.Fits call (setEntry user entry d) := by
  cases n with
  | dropped user' =>
      refine ⟨?_, hFits.2⟩
      by_cases hSame : user' = user
      · subst hSame
        rw [Analysis.setEntry, hEntry rfl]
        exact Function.update_self _ _ _
      · have hOld := hFits.1
        simpa [Analysis.setEntry, hSame] using hOld
  | _ => exact hFits

/- An entry that shows the table, or none. -/
theorem coherent_setEntry
    {entry : Option (List AnalysisHistory)}
    (hCoherent : Coherent d)
    (hEntry : ∀ list, entry = some list →
      list = d.history user) :
    Coherent (setEntry user entry d) := by
  intro user' list hList
  by_cases hSame : user' = user
  · subst hSame
    simp only [setEntry, Function.update_self] at hList
    exact hEntry list hList
  · simp only [setEntry, Function.update_of_ne hSame] at hList
    exact hCoherent user' list hList


/- The operations that come next in a world of the run. -/
theorem next_of_permits
    {o : TxOp Statement}
    {c : Choice Exc Reply}
    (hPermits :
      (historyRegime repr calls).Permits t o c d ns live) :
    ∃ w : HistoryWorld,
      Orderly calls w (.step t c) ∧
        (w.threads t).head = some o ∧
          ∀ t', live t' →
            ∃ o', (w.threads t').head = some o' ∧
              (ns t').Next (w.shared.frames t').length
                (some o') := by
  rcases hPermits.world with
    ⟨w, ls, hHolds, rfl, rfl, rfl, hHead, hOk⟩
  refine ⟨w, hOk, hHead, ?_⟩
  intro t' hLive
  have hShape := hHolds.2 t'
  rcases hNext : (w.threads t').head with _ | o'
  · exact absurd hNext hLive
  refine ⟨o', rfl, ?_⟩
  rw [hNext] at hShape
  have hSession := (hHolds.1.2 t').1
  change (ls t').note.Next (ls t').session.frames.length _
    at hShape
  rw [hSession] at hShape
  exact hShape

/- No entry is dropped that is about to be filled. -/
theorem not_holding_of_permits
    {c : Choice Exc Reply}
    (hPermits :
      (historyRegime repr calls).Permits t
        (.query (.cacheDelete user)) c d ns live) :
    ∀ t' d₀, live t' → ns t' ≠ .holding user d₀ := by
  rcases next_of_permits hPermits with
    ⟨w, hOk, hHead, hAll⟩
  intro t' d₀ hLive hNote
  rcases hAll t' hLive with ⟨o', hNext, hShape⟩
  rw [hNote] at hShape
  rcases hShape with hNone | hFill
  · cases hNone
  · apply (hOk user).2 hHead
    exact ⟨t', _, _, hNext.trans hFill⟩

/- No table is read between a drop and its commit. -/
theorem not_dropped_of_permits
    {c : Choice Exc Reply}
    (hPermits :
      (historyRegime repr calls).Permits t
        (.query (.listHistory user)) c d ns live)
    (hCoheres : Coheres calls d ns live) :
    ∀ t', live t' → ns t' ≠ .dropped user := by
  rcases next_of_permits hPermits with
    ⟨w, hOk, hHead, hAll⟩
  intro t' hLive hNote
  rcases hAll t' hLive with ⟨o', hNext, hShape⟩
  have hFits := hCoheres.fits t' hLive
  rw [hNote] at hShape hFits
  rcases hFits.2 with ⟨key, now, hCall, hUser⟩
  rcases hShape with hNone | ⟨hCommit, hLength⟩
  · cases hNone
  · apply (hOk user).1 hHead
    exact
      ⟨t', key, now, hCall, hUser, hNext.trans hCommit,
        hLength⟩

/- The entry of the user is dropped. -/
theorem Coheres.drop
    (hCoheres : Coheres calls d ns live)
    (hCall : calls t = .upsert key now)
    (hNone :
      ∀ t' d₀, live t' → ns t' ≠ .holding key.1 d₀) :
    Coheres calls (setEntry key.1 none d)
      (Function.update ns t (.dropped key.1)) live := by
  apply hCoheres.step
  · apply coherent_setEntry hCoheres.cache
    intro list hEntry
    cases hEntry
  · exact
      ⟨Function.update_self _ _ _, key, now, hCall, rfl⟩
  · intro t' _ hLive
    exact (hCoheres.fits t' hLive).setEntry (fun _ => rfl)
  · intro t' _ hLive
    cases hNote : ns t' with
    | holding user d₀ =>
        refine ⟨?_, id⟩
        rintro rfl
        exact hNone t' d₀ hLive hNote
    | _ => exact ⟨id, id⟩

/- The drop of the entry, in the open transaction. -/
theorem wp_invalidateHistoryCache
    (hCall : calls t = .upsert key now)
    (hStacked :
      Regime.Stacked (Touches key.1) 1 () .fresh l) :
    (historyRegime repr calls).wp t
      (invalidateHistoryCache key.1)
      (fun _ =>
        Regime.Stacked (Touches key.1) 1 ()
          (.dropped key.1))
      (fun _ => Regime.Stacked (Touches key.1) 1 () .fresh)
      l := by
  have hShape :
      (historyRegime repr calls).shape l
        (some (.query (.cacheDelete key.1))) := by
    change l.note.Next _ _
    rw [hStacked.note]
    rintro user list timeout hSame
    cases hSame
  apply Regime.wp_query hShape
  intro s ns live c r s' hFits hSession hPermits hAnswered
  have hFrames : s.frames t = l.session.frames := by
    rw [← hSession]
    rfl
  have hLength : (s.frames t).length = 1 := by
    rw [hFrames]
    exact hStacked.length
  have hCalm : Regime.Calm (Touches key.1) (s.frames t) := by
    rw [hFrames]
    exact hStacked.calm
  rw [hStacked.note]
  cases hAnswered with
  | fault e =>
      have hAfter :=
        Regime.stacked_of_private hFits hStacked
          Store.private_fail (Regime.calm_fail hCalm)
      rw [Regime.length_fail, hLength] at hAfter
      exact hAfter
  | aborted hBroken =>
      have hAfter :=
        Regime.stacked_of_private hFits hStacked
          Store.Private.refl hCalm
      rw [hLength] at hAfter
      exact hAfter
  | reply x a d' hReply =>
      cases x with
      | done =>
          cases hReply
          have hNote : ns t = .fresh :=
            hFits.note.trans hStacked.note
          have hInv :
              Coheres calls (setEntry key.1 none s.committed)
                (Function.update ns t (.dropped key.1))
                live := by
            apply hFits.inv.drop hCall
            exact not_holding_of_permits hPermits
          refine ⟨Regime.kept_reply ?_, ?_⟩
          · exact
              ⟨hInv, grows_of_histories rfl, fun _ _ => rfl,
                fun _ _ => rfl⟩
          · exact ⟨hLength, hCalm, rfl, rfl⟩
      | _ => cases hReply
  | refuse e hPlan => cases hPlan
  | miss e hPlan => cases hPlan
  | done a f hPlan => cases hPlan
  | locked a k f hPlan hFree => cases hPlan

/- The table of one user changes under a dropped entry. -/
theorem Coheres.commit
    (hCoheres : Coheres calls d ns live)
    (hLive : live t)
    (hNote : ns t = .dropped user)
    (hTouches : Touches user d d') :
    Coheres calls d' (Function.update ns t .fresh) live := by
  have hGone := hCoheres.fits t hLive
  rw [hNote] at hGone
  have hApart := hCoheres.apart t
  rw [hNote] at hApart
  apply hCoheres.step
  · intro user' list hEntry
    rw [hTouches.cache] at hEntry
    have hOther : user' ≠ user := by
      rintro rfl
      rw [hGone.1] at hEntry
      cases hEntry
    rw [hTouches.others user' hOther]
    exact hCoheres.cache user' list hEntry
  · trivial
  · intro t' _ hLive'
    have hFits := hCoheres.fits t' hLive'
    have hNot := hApart t' hLive hLive'
    cases hCase : ns t' with
    | holding user' d₀ =>
        rw [hCase] at hFits hNot
        have hOther : user' ≠ user := Ne.symm hNot
        change d'.history user' = d₀.history user'
        rw [hTouches.others user' hOther]
        exact hFits
    | dropped user' =>
        rw [hCase] at hFits
        refine ⟨?_, hFits.2⟩
        rw [hTouches.cache]
        exact hFits.1
    | _ => trivial
  · intro t' _ _
    refine ⟨id, ?_⟩
    cases ns t' <;> exact id

/- A rollup commits under the dropped entry. -/
theorem wp_upsertHistory
    (hCall : calls t = .upsert key now)
    (hRest : Regime.Resting () .fresh l) :
    (historyRegime repr calls).wp t (upsertHistory key now)
      (fun _ _ => True) (fun _ _ => True) l := by
  have hFresh :
      ∀ {l' : Knows} {o}, l'.note = .fresh →
        (∀ q, o ≠ TxOp.query q) →
          (historyRegime repr calls).shape l' (some o) := by
    intro l' o hNote hOther
    change l'.note.Next _ _
    rw [hNote]
    intro user list timeout hSame
    exact hOther _ (Option.some.inj hSame)
  apply Regime.wp_begin
  · exact hFresh hRest.note (fun q hSame => by cases hSame)
  · intro e _
    trivial
  have hStacked :
      Regime.Stacked (Touches key.1) 1 () .fresh
        { l with session := l.session.begin } := by
    refine ⟨?_, ?_, rfl, hRest.note⟩
    · rw [hRest.session]
      rfl
    · rw [hRest.session]
      exact
        Regime.calm_cons (fun d => touches_refl d)
          Regime.calm_nil
  have hRolled :
      ∀ {l' : Knows} {e : Exc},
        Regime.Stacked (Touches key.1) 1 () .fresh l' →
          (historyRegime repr calls).wp t
            (.call .rollback fun _ =>
              (.raise e : Service Unit))
            (fun _ _ => True) (fun _ _ => True) l' := by
    intro l' e hStacked'
    apply Regime.wp_rollback
    · exact
        hFresh hStacked'.note (fun q hSame => by cases hSame)
    · trivial
  apply Discipline.wp_handle
  apply Discipline.wp_bind
  apply
    Discipline.wp_mono
      (Regime.wp_nests nested_counts
        (nests_getOrCreateHistory key now) (le_refl 1)
        hStacked)
  · rintro found l₁ ⟨hFound, hStacked₁⟩
    apply Discipline.wp_bind
    apply
      Discipline.wp_mono
        (Regime.wp_nests nested_counts
          (nests_countExisting found hFound) (le_refl 1)
          hStacked₁)
    · rintro _ l₂ ⟨_, hStacked₂⟩
      apply
        Discipline.wp_mono
          (wp_invalidateHistoryCache hCall hStacked₂)
      · intro _ l₃ hStacked₃
        rcases List.length_eq_one_iff.mp hStacked₃.length with
          ⟨fr, hFrames⟩
        apply Regime.wp_close _ hFrames
        · intro e _
          trivial
        · intro _
          trivial
        · intro _ d ns live hFits _
          have hNote := hFits.note.trans hStacked₃.note
          have hTouches :
              Touches key.1 d (fr.pending d) := by
            apply hStacked₃.calm fr
            rw [hFrames]
            exact List.mem_singleton_self fr
          rw [hStacked₃.note]
          refine
            ⟨⟨?_, ?_, fun _ _ => rfl, fun _ _ => rfl⟩,
              trivial⟩
          · exact hFits.inv.commit hFits.live hNote hTouches
          · exact hTouches.grows
        · change l₃.note.Next _ _
          rw [hStacked₃.note]
          exact Or.inr ⟨rfl, hStacked₃.length⟩
      · intro e l₃ hStacked₃
        exact hRolled hStacked₃
    · intro e l₂ hStacked₂
      exact hRolled hStacked₂
  · intro e l₁ hStacked₁
    exact hRolled hStacked₁

------------------------------------------------------------
-- Readers
------------------------------------------------------------

/- What a call has found out about the unchanged data. -/
theorem Coheres.note
    {n : Note}
    (hCoheres : Coheres calls d ns live)
    (hOwn : n.Fits (calls t) d)
    (hApart :
      ∀ t', t' ≠ t → live t' →
        ¬ n.Clashes (ns t') ∧ ¬ (ns t').Clashes n) :
    Coheres calls d (Function.update ns t n) live :=
  hCoheres.step hCoheres.cache hOwn
    (fun t' _ hLive => hCoheres.fits t' hLive) hApart

/- A list that is shown clashes with nothing. -/
theorem shown_apart
    (n : Note) :
    ¬ (Note.shown user d₀).Clashes n ∧
      ¬ n.Clashes (.shown user d₀) := by
  refine ⟨id, ?_⟩
  cases n <;> exact id

/- A list that is held clashes with a dropped entry only. -/
theorem holding_apart
    {n : Note}
    (hNot : n ≠ .dropped user) :
    ¬ (Note.holding user d₀).Clashes n ∧
      ¬ n.Clashes (.holding user d₀) := by
  refine ⟨id, ?_⟩
  cases n with
  | dropped user' =>
      rintro rfl
      exact hNot rfl
  | _ => exact id

/- The entry is filled with what the reader holds. -/
theorem Coheres.fill
    (hCoheres : Coheres calls d ns live)
    (hLive : live t)
    (hNote : ns t = .holding user d₀) :
    Coheres calls
      (setEntry user (some (d₀.history user)) d)
      (Function.update ns t (.shown user d₀)) live := by
  have hHeld := hCoheres.fits t hLive
  rw [hNote] at hHeld
  apply hCoheres.step
  · apply coherent_setEntry hCoheres.cache
    intro list hEntry
    exact (Option.some.inj hEntry).symm.trans hHeld.symm
  · trivial
  · intro t' _ hLive'
    apply (hCoheres.fits t' hLive').setEntry
    intro hDropped
    have hNot := hCoheres.apart t' t hLive' hLive
    rw [hNote, hDropped] at hNot
    exact absurd rfl hNot
  · intro t' _ _
    exact shown_apart (ns t')

/- The list is the history of a table that was committed. -/
def Showing
    (user : UserId)
    (list : List AnalysisHistory)
    (l : Knows) : Prop :=
  ∃ d₀, list = d₀.history user ∧ l.note = .shown user d₀

/- A query of a call of which nothing is noted. -/
theorem next_query
    {q : Statement}
    (hNote : l.note = .fresh)
    (hOther :
      ∀ user list timeout, q ≠ .cacheSet user list timeout) :
    (historyRegime repr calls).shape l
      (some (.query q)) := by
  change l.note.Next _ _
  rw [hNote]
  intro user list timeout hSame
  cases hSame
  exact hOther _ _ _ rfl

/- The table is read, and the entry is filled. -/
theorem wp_fillHistory
    (hRest : Regime.Resting () .fresh l) :
    (historyRegime repr calls).wp t
      (do
        let history : List AnalysisHistory ←
          query (.listHistory user)
        query (.cacheSet user history historyCacheTimeout)
        pure history)
      (Showing user) (fun _ _ => True) l := by
  apply Discipline.wp_bind
  apply Regime.wp_execute_rest _ hRest
  · intro e l' _ _
    trivial
  · intro d ns live _ x a d' _ hReply
    cases x <;> cases hReply
  · intro d ns live hRests hPermits
    have hNot :=
      not_dropped_of_permits hPermits hRests.inv
    refine ⟨Regime.publishable_refl ?_, ?_⟩
    · have hHeld :
          (Note.holding user d).Fits (calls t) d := rfl
      apply hRests.inv.note hHeld
      intro t' _ hLive
      exact holding_apart (hNot t' hLive)
    intro l₁ hRest₁
    apply Discipline.wp_bind
    apply Regime.wp_execute_rest _ hRest₁
    · intro e l' _ _
      trivial
    · intro d₁ ns₁ live₁ hRests₁ x a d' _ hReply
      cases x with
      | done =>
          cases hReply
          refine
            ⟨⟨?_, ?_, fun _ _ => rfl, fun _ _ => rfl⟩, ?_⟩
          · exact
              hRests₁.inv.fill hRests₁.live hRests₁.note
          · exact grows_of_histories rfl
          · intro l₂ hRest₂
            exact ⟨d, rfl, hRest₂.note⟩
      | _ => cases hReply
    · intro d₁ ns₁ live₁ _ _
      trivial
    · change l₁.note.Next _ _
      rw [hRest₁.note]
      exact Or.inr rfl
  · exact
      next_query hRest.note
        (fun _ _ _ hSame => by cases hSame)

theorem wp_getAnalysisHistory
    (hRest : Regime.Resting () .fresh l) :
    (historyRegime repr calls).wp t (getAnalysisHistory user)
      (Showing user) (fun _ _ => True) l := by
  apply Discipline.wp_bind
  apply Regime.wp_execute_rest _ hRest
  · intro e l' _ _
    trivial
  · intro d ns live hRests x cached d' _ hReply
    cases x with
    | done =>
        cases hReply
        cases hEntry : d.cache user with
        | some list =>
            refine ⟨Regime.publishable_refl ?_, ?_⟩
            · exact
                hRests.inv.note trivial
                  (fun t' _ _ => shown_apart (ns t'))
            · intro l' hRest'
              exact
                ⟨d, hRests.inv.cache user list hEntry,
                  hRest'.note⟩
        | none =>
            refine ⟨Regime.publishable_refl ?_, ?_⟩
            · exact Regime.inv_same hRests.inv hRests.note
            · intro l' hRest'
              exact wp_fillHistory hRest'
    | _ => cases hReply
  · intro d ns live _ _
    trivial
  · exact
      next_query hRest.note
        (fun _ _ _ hSame => by cases hSame)

------------------------------------------------------------
-- Runs
------------------------------------------------------------

/- How a call ends. -/
def Returned
    (calls : Tid → HistoryCall)
    (t : Tid)
    (a : Option (List AnalysisHistory))
    (l : Knows) : Prop :=
  ∀ user, calls t = .read user →
    ∃ list, a = some list ∧ Showing user list l

theorem next_none
    (n : Note)
    (frames : Nat) : n.Next frames none := by
  cases n with
  | fresh =>
      intro user list timeout hSame
      cases hSame
  | shown user d => rfl
  | holding user d => exact Or.inl rfl
  | dropped user => exact Or.inl rfl

theorem verified_startCalls
    (hCoherent : Coherent d) :
    (historyRegime repr calls).Verified (Returned calls)
      (fun _ _ _ => True) d (fun _ => .fresh)
      (startCalls calls d) where
  quiet := rfl
  inv :=
    ⟨hCoherent, fun _ _ => trivial, fun _ _ _ _ => id⟩
  threads := by
    intro t
    refine ⟨_, rfl, ?_⟩
    cases hCall : calls t with
    | read user =>
        apply Discipline.wp_bind
        apply
          Discipline.wp_mono
            (wp_getAnalysisHistory ⟨rfl, rfl, rfl⟩)
        · intro list l hShowing user' hRead
          rw [hCall] at hRead
          cases hRead
          exact ⟨list, rfl, hShowing⟩
        · intro e l _
          trivial
    | upsert key now =>
        apply Discipline.wp_bind
        apply
          Discipline.wp_mono
            (wp_upsertHistory hCall ⟨rfl, rfl, rfl⟩)
        · intro _ l _ user' hRead
          rw [hCall] at hRead
          cases hRead
        · intro e l _
          trivial
  ret := fun _ _ l _ => next_none l.note _
  raise := fun _ _ l _ => next_none l.note _
  lose := by
    intro w ls t hHolds _ _
    refine ⟨?_, next_none _ _⟩
    apply Regime.inv_same
    · exact
        (historyRegime repr calls).antitone _ _ _ _
          (fun t' hLive => hLive.2) hHolds.1.1
    · rfl

/- What a reader has found is at least as new as `d₀`. -/
def AtLeast (d₀ d : Db) : Note → Prop
| .holding _ d₁ => Grows d₀ d ∧ Grows d₀ d₁
| .shown _ d₁ => Grows d₀ d ∧ Grows d₀ d₁
| _ => Grows d₀ d

theorem AtLeast.grows
    {n : Note}
    (hAtLeast : AtLeast d₀ d n) : Grows d₀ d := by
  cases n with
  | fresh => exact hAtLeast
  | holding user d₁ => exact hAtLeast.1
  | shown user d₁ => exact hAtLeast.1
  | dropped user => exact hAtLeast

/- It stays so while the table grows. -/
theorem AtLeast.mono
    {n : Note}
    (hAtLeast : AtLeast d₀ d n)
    (hGrows : Grows d d') : AtLeast d₀ d' n := by
  have hAll := hAtLeast.grows.trans hGrows
  cases n with
  | fresh => exact hAll
  | holding user d₁ => exact ⟨hAll, hAtLeast.2⟩
  | shown user d₁ => exact ⟨hAll, hAtLeast.2⟩
  | dropped user => exact hAll

/- A statement finds out something as new. -/
theorem AtLeast.query
    {n : Note}
    (q : Statement)
    (a : q.Answer)
    (hAtLeast : AtLeast d₀ d n) :
    AtLeast d₀ d (noteHistory q a d n) := by
  have hGrows := hAtLeast.grows
  cases q with
  | listHistory user => exact ⟨hGrows, hGrows⟩
  | cacheGet user =>
      cases a with
      | none => exact hAtLeast
      | some list => exact ⟨hGrows, hGrows⟩
  | cacheSet user list timeout =>
      cases n <;> exact hAtLeast
  | cacheDelete user => exact hGrows
  | _ => exact hAtLeast

theorem AtLeast.after
    {n : Note}
    (s : Store Db HistoryKey)
    (o : TxOp Statement)
    (r : Except Exc (TxOp.Res Statement.Answer o))
    (hAtLeast : AtLeast d₀ d n) :
    AtLeast d₀ d
      ((historyRegime repr calls).noteAfter t s d n o r) := by
  cases o with
  | begin => exact hAtLeast
  | rollback => exact hAtLeast
  | query q =>
      cases r with
      | error e => exact hAtLeast
      | ok a => exact hAtLeast.query q a
  | commit =>
      cases r with
      | error e => exact hAtLeast
      | ok u =>
          change AtLeast d₀ d (if _ then n.committed else n)
          split
          · cases n <;> exact hAtLeast
          · exact hAtLeast

/-
  A reader that starts at some moment of the run shows, in
  what it returns, all that was committed by then.
-/
theorem history_reflects_commits
    {v w : HistoryWorld}
    {list : List AnalysisHistory}
    (hCoherent : Coherent d)
    (hReach :
      (backend repr).machine.Reaches (Orderly calls)
        (startCalls calls d) v)
    (hCall : calls t = .read user)
    (hStart :
      v.threads t = (startCalls calls d).threads t)
    (hLater :
      (backend repr).machine.Reaches (Orderly calls) v w)
    (hReturn : w.threads t = .live (.ret (some list))) :
    Reflects list user v.shared.committed := by
  have hVerified :
      (historyRegime repr calls).Verified (Returned calls)
        (fun _ _ _ => True) d (fun _ => .fresh)
        (startCalls calls d) := verified_startCalls hCoherent
  rcases
    Discipline.sound_of_reaches hVerified.final
      hVerified.losable hVerified.sound hReach with
    ⟨ls, hSound, _⟩
  have hFirst : AtLeast v.shared.committed
      v.shared.committed (ls t).note := by
    have hHead :
        (v.threads t).head =
          some (.query (.cacheGet user)) := by
      rw [hStart]
      simp only [startCalls, hCall]
      rfl
    have hShape := (hSound.holds hVerified.final).2 t
    rw [hHead] at hShape
    change (ls t).note.Next _ _ at hShape
    cases hNote : (ls t).note with
    | fresh => exact grows_refl _
    | shown user d =>
        rw [hNote] at hShape
        cases hShape
    | holding user d =>
        rw [hNote] at hShape
        rcases hShape with hNone | hFill
        · cases hNone
        · cases hFill
    | dropped user =>
        exact grows_refl _
  rcases
    hVerified.note_of_reaches (I := AtLeast v.shared.committed)
      (fun _ _ _ _ hGrows hAtLeast => hAtLeast.mono hGrows)
      (fun s _ _ o r hAtLeast => hAtLeast.after s o r)
      (fun _ _ hAtLeast => hAtLeast)
      hSound hFirst hLater with
    ⟨ls', hSound', hLast⟩
  rcases hSound'.live t _ hReturn user hCall with
    ⟨list', hList, d₁, hShown, hNote⟩
  cases hList
  rw [hNote] at hLast
  rw [hShown]
  exact reflects_of_grows hLast.2

------------------------------------------------------------
-- One Rollup and its Readers
------------------------------------------------------------

/- Thread 0 rolls up; every other thread reads. -/
def oneRollup (t : Tid) : HistoryCall :=
  if t = 0 then .upsert (0, "https://a.io") 5 else .read 0

def noHistory : Db where
  reports := fun _ => []
  histories := []
  cache := fun _ => none
  posts := []

abbrev rollupAndReaders : HistoryWorld :=
  startCalls oneRollup noHistory

theorem coherent_noHistory : Coherent noHistory := by
  intro user list hEntry
  cases hEntry

/- The rollup up to its commit. -/
def beforeCommit : List (Choice Exc Reply) :=
  List.replicate 5 Choice.proceed ++ [.reply .done]

abbrev rolledUp : HistoryWorld :=
  ((backend (fun _ => "")).machine.replay rollupAndReaders
    ((beforeCommit ++ [Choice.proceed]).map
      (.step 0))).getD
    rollupAndReaders

/- A call while the others are not at work is orderly. -/
theorem orderly_of_others
    {w : HistoryWorld}
    (c : Choice Exc Reply)
    (hOthers :
      ∀ t', t' ≠ t →
        (w.threads t').head = none ∨
          w.threads t' = .live (calls t').program) :
    Orderly calls w (.step t c) := by
  have hIdle :
      ∀ t', t' ≠ t → (w.threads t').head = none ∨
        (w.threads t').head = some .begin ∨
          ∃ user, (w.threads t').head =
            some (.query (.cacheGet user)) := by
    intro t' hNe
    rcases hOthers t' hNe with hNone | hStart
    · exact Or.inl hNone
    · rw [hStart]
      cases calls t' with
      | read user => exact Or.inr (Or.inr ⟨user, rfl⟩)
      | upsert key now => exact Or.inr (Or.inl rfl)
  intro user
  constructor
  · rintro hList ⟨t', key, now, _, _, hCommit, _⟩
    by_cases hSame : t' = t
    · subst hSame
      rw [hList] at hCommit
      cases hCommit
    · rcases hIdle t' hSame with hNone | hBegin | ⟨u, hGet⟩
      · rw [hNone] at hCommit
        cases hCommit
      · rw [hBegin] at hCommit
        cases hCommit
      · rw [hGet] at hCommit
        cases hCommit
  · rintro hDelete ⟨t', list, timeout, hFill⟩
    by_cases hSame : t' = t
    · subst hSame
      rw [hDelete] at hFill
      cases hFill
    · rcases hIdle t' hSame with hNone | hBegin | ⟨u, hGet⟩
      · rw [hNone] at hFill
        cases hFill
      · rw [hBegin] at hFill
        cases hFill
      · rw [hGet] at hFill
        cases hFill

/- The reader lists the row of the rollup before it. -/
theorem history_reflects_commits_rollup :
    Reflects (rolledUp.shared.committed.history 0) 0
      rolledUp.shared.committed := by
  have hReach :
      (backend (fun _ => "")).machine.Reaches
        (Orderly oneRollup) rollupAndReaders rolledUp := by
    apply
      Machine.reaches_of_replay_alone 0
        (beforeCommit ++ [.proceed]) _ rfl
    intro v c hOthers
    apply orderly_of_others
    intro t' hNe
    exact Or.inr (hOthers t' hNe)
  have hLater :
      (backend (fun _ => "")).machine.Reaches
        (Orderly oneRollup) rolledUp
        (((backend (fun _ => "")).machine.replay rolledUp
          ([.reply .done, .proceed, .reply .done].map
            (.step 1))).getD rolledUp) := by
    apply
      Machine.reaches_of_replay_alone 1
        [.reply .done, .proceed, .reply .done] _ rfl
    intro v c hOthers
    apply orderly_of_others
    intro t' hNe
    rw [hOthers t' hNe]
    by_cases hRolled : t' = 0
    · subst hRolled
      exact Or.inl rfl
    · right
      exact
        Machine.threads_of_replay
          (M := (backend (fun _ => "")).machine)
          (w := rollupAndReaders)
          (beforeCommit ++ [.proceed]) hRolled rfl
  have hReader : oneRollup 1 = .read 0 := rfl
  exact
    history_reflects_commits coherent_noHistory hReach
      hReader rfl hLater rfl

/- A reader between the drop and the commit fills the entry. -/
theorem stale_history :
    ¬ ∀ (calls : Tid → HistoryCall) (d : Db)
        (v w : HistoryWorld) (t t' : Tid)
        (key : HistoryKey) (now : Time)
        (list : List AnalysisHistory),
      Coherent d →
        (backend (fun _ => "")).machine.Reaches
            Machine.anyEvent (startCalls calls d) v →
          calls t' = .upsert key now →
            v.threads t' = .live (.ret none) →
              calls t = .read key.1 →
                v.threads t = (startCalls calls d).threads t →
                  (backend (fun _ => "")).machine.Reaches
                      Machine.anyEvent v w →
                    w.threads t = .live (.ret (some list)) →
                      Reflects list key.1
                        v.shared.committed := by
  intro hAll
  have hReach :=
    Machine.reaches_of_replay
      (M := (backend (fun _ => "")).machine)
      (w := rollupAndReaders)
      (beforeCommit.map (.step 0) ++
        [.step 1 (.reply .done), .step 1 .proceed,
          .step 0 .proceed])
      rfl
  have hLater :=
    Machine.reaches_of_replay
      (M := (backend (fun _ => "")).machine)
      (w :=
        ((backend (fun _ => "")).machine.replay
          rollupAndReaders
          (beforeCommit.map (.step 0) ++
            [.step 1 (.reply .done), .step 1 .proceed,
              .step 0 .proceed])).getD rollupAndReaders)
      [.step 1 (.reply .done), .step 2 (.reply .done)]
      rfl
  have hReflects :=
    hAll oneRollup noHistory _ _ 2 0 (0, "https://a.io") 5
      (noHistory.history 0) coherent_noHistory hReach rfl rfl
      rfl rfl hLater rfl
  rcases
    hReflects (firstHistory (0, "https://a.io") 5)
      List.mem_cons_self rfl rfl with
    ⟨row, hMem, _⟩
  cases (mem_history.mp hMem).1

end SiteAnalysis.Analysis
