import SiteAnalysis.Analysis.Completion
import SiteAnalysis.Analysis.Tally

/-
  This file proves when the counters of the history tally
  with the completed reports.

  A rollup is committed under the lock of its row, so it adds
  one to what is committed by then.  As nothing tells a
  delivery that another one has counted the report, the
  counters only tally when every report is counted once.

  Key definitions include:
    * `tallyRegime`
    * `Untallied`
    * `Adding`

  Key theorems include:
    * `tally_upsertHistory`
    * `tally_processAnalysis`
    * `counters_tally`
    * `redelivery_counts_twice`
-/

------------------------------------------------------------
-- The Regime
------------------------------------------------------------

namespace SiteAnalysis.Analysis

open Concurrency
open Relational
open Python
open Reports

/- The lock of a key guards its row of the history. -/
def tallyRegime
    (repr : Json → String)
    (deliveries : Tid → Delivery)
    (d₀ : Db) :
    Regime (backend repr) TaskOutcome
      (Option AnalysisHistory) Unit Progress where
  ok := CountsOnce deliveries d₀
  frag := fun key d => d.findHistory key
  own := fun _ _ => ()
  inv := fun d ns _ => Tallies deliveries d₀ d ns
  antitone := fun _ _ _ _ _ hInv => hInv
  guar := fun _ _ _ => True
  guar_refl := fun _ _ => trivial
  shape := fun l o => l.note.Next o
  note := fun _ => noteProgress
  noteError := fun _ n => n
  inv_error := by
    intro t q d ns live hInv
    rw [Function.update_eq_self]
    exact hInv
  noteCommit := fun _ _ => Progress.committed
  noteLost := fun _ => .asking

abbrev Counting :=
  Regime.Local Db HistoryKey (Option AnalysisHistory) Unit
    Progress

variable {settings : PagespeedSettings}
variable {repr : Json → String} {d d' d₀ : Db}
variable {key : HistoryKey} {now : Time}
variable {reportId : ReportId}
variable {deliveries : Tid → Delivery} {t : Tid}
variable {l : Counting} {n : Progress}

theorem Progress.next_of_uncounted
    {o : Option (TxOp Statement)}
    (hNote : ¬ n.Counted) : n.Next o := by
  cases n with
  | counted key => exact absurd ⟨key, rfl⟩ hNote
  | _ => trivial

theorem Progress.next_none
    (n : Progress) : n.Next none := by
  cases n <;> trivial

------------------------------------------------------------
-- The Transaction
------------------------------------------------------------

/- The transaction of the rollup before anything is written. -/
structure Untallied
    (n : Progress)
    (l : Counting) : Prop where
  frames :
    ∃ fr, l.session.frames = [fr] ∧ fr.pending = id
  held : l.session.held = fun _ => none
  note : l.note = n

/- The transaction of the rollup after it has counted. -/
structure Adding
    (key : HistoryKey)
    (l : Counting) : Prop where
  frames :
    ∃ fr, l.session.frames = [fr] ∧
      (fr.broken = false →
        ∃ v, l.session.held key = some v ∧
          ∀ d, d.findHistory key = v →
            Adds key d (fr.pending d))
  note : l.note = .saved key ∨ l.note = .found key

/- The transaction of a rollup that has failed. -/
structure Failing (l : Counting) : Prop where
  frames : ∃ fr, l.session.frames = [fr]
  note : ¬ l.note.Counted

theorem Untallied.failing
    (hUntallied : Untallied n l)
    (hNote : ¬ n.Counted) : Failing l where
  frames := by
    rcases hUntallied.frames with ⟨fr, hFrames, _⟩
    exact ⟨fr, hFrames⟩
  note := by
    rw [hUntallied.note]
    exact hNote

theorem uncounted_saved :
    ¬ (Progress.saved key).Counted := by
  rintro ⟨key', hSame⟩
  cases hSame

theorem uncounted_found :
    ¬ (Progress.found key).Counted := by
  rintro ⟨key', hSame⟩
  cases hSame

theorem Adding.uncounted
    (hAdding : Adding key l) : ¬ l.note.Counted := by
  rcases hAdding.note with hSaved | hFound
  · rw [hSaved]
    exact uncounted_saved
  · rw [hFound]
    exact uncounted_found

theorem Adding.failing
    (hAdding : Adding key l) : Failing l where
  frames := by
    rcases hAdding.frames with ⟨fr, hFrames, _⟩
    exact ⟨fr, hFrames⟩
  note := hAdding.uncounted

/- A frame that fails stays the only one. -/
theorem Failing.fail
    (hFailing : Failing l) :
    Failing { l with session := l.session.fail } where
  frames := by
    rcases hFailing.frames with ⟨fr, hFrames⟩
    exact
      ⟨{ fr with broken := true },
        by simp [Session.fail, hFrames]⟩
  note := hFailing.note

/- The row of the history is read. -/
theorem tally_getHistory
    (hUntallied : Untallied (.saved key) l) :
    (tallyRegime repr deliveries d₀).wp t
      (query (.getHistory key))
      (fun row l' =>
        row.key = key ∧ Untallied (.found key) l')
      (fun _ => Untallied (.saved key)) l := by
  rcases hUntallied.frames with ⟨fr, hFrames, hPending⟩
  have hShape :
      (tallyRegime repr deliveries d₀).shape l
        (some (.query (.getHistory key))) := by
    change l.note.Next _
    rw [hUntallied.note]
    trivial
  apply Regime.wp_execute_frame hShape hFrames
  · intro e
    refine ⟨?_, ?_, hUntallied.note⟩
    · exact
        ⟨{ fr with broken := true },
          by simp [Session.fail, hFrames], hPending⟩
    · simp [Session.fail, hFrames, hUntallied.held]
  · intro d ns live _
    apply Regime.replyWp_of_none
    intro x
    cases x <;> rfl
  · intro _ d ns live hFits _
    have hView : l.session.view d = d := by
      simp [Session.view, hFrames, hPending]
    rw [hView]
    simp only [backend, plan]
    split
    · rename_i row hRow
      have hFind := Option.eq_some_of_filter_eq_some hRow
      have hNote : ns t = .saved key :=
        hFits.note.trans hUntallied.note
      refine ⟨?_, ?_, ?_, ?_, ?_⟩
      · change Tallies _ _ _ _
        rw [hUntallied.note]
        apply hFits.inv.note
        · have hSaved := hFits.inv.fits t
          rw [hNote] at hSaved
          refine ⟨hSaved, ?_⟩
          rw [hFind]
          intro hNone
          cases hNone
        · rw [hNote]
          exact uncounted_saved
        · exact uncounted_found
      · exact Table.key_of_find hFind
      · refine ⟨{ fr with pending := id ∘ fr.pending }, ?_, ?_⟩
        · simp [Session.write, hFrames]
        · simp [hPending]
      · simp [Session.write, hFrames, hUntallied.held]
      · change noteProgress _ _ _ _ = _
        rw [hUntallied.note]
        rfl
    · refine ⟨⟨fr, hFrames, hPending⟩, hUntallied.held, ?_⟩
      exact hUntallied.note

/- The savepoint of the insertion over the transaction. -/
structure Inserting
    (key : HistoryKey)
    (outer : Frame Db HistoryKey)
    (locked : HistoryKey → Prop)
    (l : Counting) : Prop where
  frames :
    ∃ fr, l.session.frames = [fr, outer] ∧
      (∀ k, locked k → k ∈ fr.locks)
  held : ∀ k, ¬ locked k → l.session.held k = none
  note : l.note = .saved key

/- The savepoint is rolled back, and its locks are free. -/
theorem Inserting.rollback
    {outer : Frame Db HistoryKey}
    {locked : HistoryKey → Prop}
    (hInserting : Inserting key outer locked l)
    (hPending : outer.pending = id) :
    Untallied (.saved key)
      { l with session := l.session.rollback } := by
  rcases hInserting.frames with ⟨fr, hFrames, hLocks⟩
  refine ⟨⟨outer, ?_, hPending⟩, ?_, hInserting.note⟩
  · simp [Session.rollback, hFrames]
  · funext k
    simp only [Session.rollback, hFrames]
    split
    · rfl
    · rename_i hNot
      apply hInserting.held
      exact fun hLocked => hNot (hLocks k hLocked)

/- The transaction once the first row is to be inserted. -/
def inserted
    (key : HistoryKey)
    (now : Time)
    (outer : Frame Db HistoryKey)
    (l : Counting) : Counting :=
  { l with
    session :=
      { frames :=
          [{ pending := insertHistory (firstHistory key now)
             locks := [key]
             broken := false },
            outer]
        held := Function.update l.session.held key (some none) } }

theorem tally_insertFirst
    {outer : Frame Db HistoryKey}
    (hFrames : l.session.frames = [Frame.fresh, outer])
    (hHeld : ∀ k, l.session.held k = none)
    (hPending : outer.pending = id)
    (hNote : l.note = .saved key) :
    (tallyRegime repr deliveries d₀).wp t
      (query (.createHistory (firstHistory key now)))
      (fun row l' =>
        row.key = key ∧ l' = inserted key now outer l)
      (fun _ => Inserting key outer (fun _ => False)) l := by
  have hKey : (firstHistory key now).key = key := rfl
  have hShape :
      (tallyRegime repr deliveries d₀).shape l
        (some
          (.query
            (.createHistory (firstHistory key now)))) := by
    change l.note.Next _
    rw [hNote]
    trivial
  have hView : ∀ d, l.session.view d = d := by
    intro d
    simp [Session.view, hFrames, hPending, Frame.fresh]
  apply Regime.wp_execute_open hShape hFrames rfl
  · intro e _
    refine
      ⟨⟨{ Frame.fresh with broken := true }, ?_, ?_⟩, ?_,
        hNote⟩
    · simp [Session.fail, hFrames]
    · intro k hLocked
      exact hLocked.elim
    · intro k _
      simpa [Session.fail, hFrames] using hHeld k
  · intro d ns live _
    apply Regime.replyWp_of_none
    intro x
    cases x <;> rfl
  · intro d ns live hFits _
    rw [hView d]
    simp only [backend, plan]
    split
    · trivial
    · rename_i hNone
      split
      · trivial
      · rw [hKey] at hNone
        have hInv := Regime.inv_same hFits.inv hFits.note
        refine ⟨hInv, hKey, ?_⟩
        simp only [inserted, Session.write, Session.acquire,
          hFrames, hHeld, Option.isSome_none,
          Bool.false_eq_true, if_false, hKey]
        simp only [tallyRegime, hNone, Frame.fresh,
          Function.comp_id]
        rfl

/- The row of the history is inserted, in a savepoint. -/
theorem tally_createHistory
    (hUntallied : Untallied (.saved key) l) :
    (tallyRegime repr deliveries d₀).wp t
      (atomic
        (query (.createHistory (firstHistory key now))))
      (fun row l' => row.key = key ∧ Adding key l')
      (fun _ => Untallied (.saved key)) l := by
  rcases hUntallied.frames with ⟨fr, hFrames, hPending⟩
  have hNext :
      ∀ {l' : Counting} {o}, l'.note = .saved key →
        (tallyRegime repr deliveries d₀).shape l' o := by
    intro l' o hNote
    change l'.note.Next o
    rw [hNote]
    trivial
  have hInner :
      ({ l with session := l.session.begin } :
          Counting).session.frames =
        [Frame.fresh, fr] := by
    simp [Session.begin, hFrames]
  have hHeld : ∀ k, l.session.held k = none := by
    intro k
    rw [hUntallied.held]
  apply Regime.wp_savepoint (hNext hUntallied.note)
  · intro e _
    exact hUntallied
  · apply
      Discipline.wp_mono
        (tally_insertFirst hInner hHeld hPending
          hUntallied.note)
    · rintro row l' ⟨hKey, rfl⟩
      have hNote :
          (inserted key now fr
              { l with session := l.session.begin }).note =
            .saved key := hUntallied.note
      refine
        ⟨_, hNext hNote, rfl, rfl, ?_, hKey, ?_, ?_⟩
      · intro e _
        have hInserting :
            Inserting key fr (fun k => k = key)
              (inserted key now fr
                { l with session := l.session.begin }) := by
          refine ⟨⟨_, rfl, ?_⟩, ?_, hNote⟩
          · intro k hSame
            exact List.mem_singleton.mpr hSame
          · intro k hNe
            simp only [inserted, Function.update_of_ne hNe]
            exact hHeld k
        exact hInserting.rollback hPending
      · refine ⟨_, rfl, ?_⟩
        intro _
        refine ⟨none, ?_, ?_⟩
        · simp [Session.merge, inserted]
        · intro d hNone
          simp only [Frame.absorb, hPending,
            Function.comp_id]
          exact adds_insertHistory hNone
      · exact Or.inl hNote
    · intro e l' hInserting
      exact
        ⟨hNext hInserting.note,
          hInserting.rollback hPending⟩

/- How the row of the history is left, if it is. -/
def Gotten
    (key : HistoryKey)
    (found : AnalysisHistory × Bool)
    (l : Counting) : Prop :=
  found.1.key = key ∧
    match found.2 with
    | true => Adding key l
    | false => Untallied (.found key) l

/- The row is found, or inserted, or another one's found. -/
theorem tally_getOrCreateHistory
    (hUntallied : Untallied (.saved key) l) :
    (tallyRegime repr deliveries d₀).wp t
      (getOrCreateHistory key now) (Gotten key)
      (fun _ => Failing) l := by
  apply Discipline.wp_handle
  apply Discipline.wp_mono (tally_getHistory hUntallied)
  · rintro row l₁ ⟨hKey, hFound⟩
    exact ⟨hKey, hFound⟩
  intro e l₁ hMissed
  have hFailing := hMissed.failing uncounted_saved
  split
  · apply Discipline.wp_handle
    apply Discipline.wp_mono (tally_createHistory hMissed)
    · rintro row l₂ ⟨hKey, hAdding⟩
      exact ⟨hKey, hAdding⟩
    intro e' l₂ hRefused
    have hFailing' := hRefused.failing uncounted_saved
    split
    · apply Discipline.wp_handle
      apply Discipline.wp_mono (tally_getHistory hRefused)
      · rintro row l₃ ⟨hKey, hFound⟩
        exact ⟨hKey, hFound⟩
      · intro e'' l₃ hMissed'
        have hFailing'' := hMissed'.failing uncounted_saved
        split <;> exact hFailing''
    · exact hFailing'
  · exact hFailing

/- The row that was found is counted. -/
theorem tally_countExisting
    (found : AnalysisHistory × Bool)
    (hGotten : Gotten key found l) :
    (tallyRegime repr deliveries d₀).wp t
      (countExisting now found) (fun _ => Adding key)
      (fun _ => Failing) l := by
  rcases found with ⟨row, created⟩
  rcases hGotten with ⟨hKey, hGotten⟩
  cases created with
  | true => exact hGotten
  | false =>
      have hUntallied : Untallied (.found key) l := hGotten
      rcases hUntallied.frames with ⟨fr, hFrames, hPending⟩
      have hFailing := hUntallied.failing uncounted_found
      have hShape :
          (tallyRegime repr deliveries d₀).shape l
            (some
              (.query (.incrementHistory row.key now))) :=
        Progress.next_of_uncounted hFailing.note
      apply Regime.wp_execute_frame hShape hFrames
      · intro e
        exact hFailing.fail
      · intro d ns live _
        apply Regime.replyWp_of_none
        intro x
        cases x <;> rfl
      · intro hIntact d ns live hFits _
        have hView : l.session.view d = d := by
          simp [Session.view, hFrames, hPending]
        have hNote : ns t = .found key :=
          hFits.note.trans hUntallied.note
        have hFound := hFits.inv.fits t
        rw [hNote] at hFound
        rw [hView]
        change row.key = key at hKey
        rw [hKey]
        simp only [backend, plan]
        split
        · rename_i hNone
          exact absurd hNone hFound.2
        · rename_i old hOld
          split
          · trivial
          · refine ⟨?_, ?_, ?_⟩
            · exact Regime.inv_same hFits.inv hFits.note
            · refine
                ⟨{ pending := updateHistory key (.increment now)
                   locks := key :: fr.locks
                   broken := fr.broken }, ?_, ?_⟩
              · simp [Session.write, Session.acquire, hFrames,
                  hUntallied.held, hPending]
              · intro _
                refine ⟨some old, ?_, ?_⟩
                · simp [Session.write, Session.acquire,
                    hFrames, hUntallied.held, tallyRegime,
                    hOld]
                · intro d' hOld'
                  exact adds_updateHistory hOld'
            · exact Or.inr hUntallied.note

/- The entry of the user is dropped. -/
theorem tally_invalidateHistoryCache
    (user : UserId)
    (hAdding : Adding key l) :
    (tallyRegime repr deliveries d₀).wp t
      (invalidateHistoryCache user) (fun _ => Adding key)
      (fun _ => Failing) l := by
  rcases hAdding.frames with ⟨fr, hFrames, hCounted⟩
  have hShape :
      (tallyRegime repr deliveries d₀).shape l
        (some (.query (.cacheDelete user))) :=
    Progress.next_of_uncounted hAdding.uncounted
  apply Regime.wp_execute_frame hShape hFrames
  · intro e
    exact hAdding.failing.fail
  · intro d ns live hFits x a d' _ hReply
    cases x with
    | done =>
        cases hReply
        have hInv := Regime.inv_same hFits.inv hFits.note
        refine
          ⟨⟨?_, trivial, fun _ _ => rfl, fun _ _ => rfl⟩,
            hAdding.frames, hAdding.note⟩
        exact hInv.mono (steady_of_reports rfl rfl)
    | _ => cases hReply
  · intro _ d ns live _ _
    trivial

/- A rollup that is committed is counted. -/
theorem tally_upsertHistory
    (hRest : Regime.Resting () (.saved key) l) :
    (tallyRegime repr deliveries d₀).wp t
      (upsertHistory key now)
      (fun _ l' => l'.note = .counted key)
      (fun _ l' => ¬ l'.note.Counted) l := by
  have hUncounted : ¬ l.note.Counted := by
    rw [hRest.note]
    exact uncounted_saved
  have hUntallied :
      Untallied (.saved key)
        { l with session := l.session.begin } := by
    refine ⟨⟨Frame.fresh, ?_, rfl⟩, ?_, hRest.note⟩
    · simp [Session.begin, hRest.session, Session.idle]
    · simp [Session.begin, hRest.session, Session.idle]
  have hRolled :
      ∀ {l' : Counting} {e : Exc}, Failing l' →
        (tallyRegime repr deliveries d₀).wp t
          (.call .rollback fun _ =>
            (.raise e : Service Unit))
          (fun _ l'' => l''.note = .counted key)
          (fun _ l'' => ¬ l''.note.Counted) l' := by
    intro l' e hFailing
    apply Regime.wp_rollback
    · exact Progress.next_of_uncounted hFailing.note
    · exact hFailing.note
  apply Regime.wp_begin
  · exact Progress.next_of_uncounted hUncounted
  · intro e _
    exact hUncounted
  apply Discipline.wp_handle
  apply Discipline.wp_bind
  apply
    Discipline.wp_mono
      (tally_getOrCreateHistory hUntallied)
  · intro found l₁ hGotten
    apply Discipline.wp_bind
    apply
      Discipline.wp_mono (tally_countExisting found hGotten)
    · intro _ l₂ hAdding₂
      apply
        Discipline.wp_mono
          (tally_invalidateHistoryCache key.1 hAdding₂)
      · intro _ l₃ hAdding
        have hNot := hAdding.uncounted
        rcases hAdding.frames with ⟨fr, hFrames, hCounted⟩
        apply Regime.wp_close _ hFrames
        · intro e _
          exact hNot
        · intro _
          exact hNot
        · intro hIntact d ns live hFits _
          rcases hCounted hIntact with ⟨v, hHeld, hAdds⟩
          have hAdds' := hAdds d (hFits.held key v hHeld)
          have hNote :
              ns t = .saved key ∨ ns t = .found key := by
            rw [hFits.note]
            exact hAdding.note
          have hCommit :
              l₃.note.committed = .counted key := by
            rcases hAdding.note with hSaved | hFound
            · rw [hSaved]
              rfl
            · rw [hFound]
              rfl
          refine
            ⟨⟨?_, trivial, fun _ _ => rfl, ?_⟩, hCommit⟩
          · change Tallies _ _ _ (Function.update _ _ _)
            change
              Tallies _ _ _
                (Function.update ns t l₃.note.committed)
            rw [hCommit]
            exact hFits.inv.count hNote hAdds'
          · intro key' hFree
            apply hAdds'.others
            rintro rfl
            apply hFree
            rw [hHeld]
            intro hNone
            cases hNone
        · exact Progress.next_of_uncounted hNot
      · intro e l₃ hFailing
        exact hRolled hFailing
    · intro e l₂ hFailing
      exact hRolled hFailing
  · intro e l₁ hFailing
    exact hRolled hFailing

------------------------------------------------------------
-- Outside the Transaction
------------------------------------------------------------

theorem bears_steady :
    (tallyRegime repr deliveries d₀).Bears Steady t where
  refl := steady_refl
  inv := fun _ _ _ _ hSteady hInv => hInv.mono hSteady
  guar := fun _ _ _ => trivial
  own := fun _ _ _ => rfl
  frag := by
    intro key d d' hSteady
    change d'.findHistory key = d.findHistory key
    unfold Db.findHistory
    rw [hSteady.histories]

/- No answer from outside changes a counter or a report. -/
theorem steady_of_reply
    {q : Statement}
    {x : Reply}
    {a : q.Answer}
    (hReply : reply q x d = some (a, d')) : Steady d d' := by
  have hHistories : d'.histories = d.histories := by
    cases q with
    | httpRequest method url auth timeout json =>
        cases x with
        | http outcome accepted =>
            simp only [reply, Option.some.injEq,
              Prod.mk.injEq] at hReply
            rw [← hReply.2]
            split <;> rfl
        | _ => cases hReply
    | _ => cases x <;> cases hReply <;> rfl
  apply steady_of_reports _ hHistories
  rw [reports_of_reply hReply]

/- Some fields of a report are saved. -/
theorem steady_saveFields
    {kind : ReportKind}
    {object old : Report kind}
    {fields : List ReportField}
    {a : Unit}
    {lock : Option HistoryKey}
    {f : Db → Db}
    (hKeyed : KeyedReports d)
    (hFind : d.find kind object.id = some old)
    (hWrite :
      writeReport repr (object.assign fields old) =
        .done a lock f)
    (hStatus :
      kind = .analysis → old.status = .completed →
        (object.assign fields old).status = .completed) :
    Steady d (f d) := by
  rcases writeReport_eq_done hWrite with
    ⟨_, row, hPrepare, _, rfl⟩
  have hEq := Report.eq_of_prepare hPrepare
  have hOldId : old.id = object.id := id_of_find hFind
  have hId : row.id = object.id := by
    rw [hEq]
    exact hOldId
  have hOther :
      kind ≠ .analysis → Steady d (putReport row d) := by
    intro hKind
    have hReports :
        (putReport row d).reports .analysis =
          d.reports .analysis :=
      Function.update_of_ne (Ne.symm hKind) _ _
    exact steady_of_reports hReports rfl
  cases kind with
  | analysis =>
      rw [← hId] at hFind
      apply steady_put hKeyed hFind
      · rw [hEq]
        rfl
      · intro hOld
        rw [hEq]
        exact hStatus rfl hOld
  | gtmetrix => exact hOther (fun h => by cases h)
  | ssl => exact hOther (fun h => by cases h)

/- The reports keep their ids in a run. -/
theorem tallies_of_permits
    {o : TxOp Statement}
    {c : Choice Exc Reply}
    {ns : Tid → Progress}
    {live : Tid → Prop}
    (hPermits :
      (tallyRegime repr deliveries d₀).Permits t o c d ns
        live) :
    Tallies deliveries d₀ d ns := by
  rcases hPermits.world with
    ⟨w, ls, hHolds, rfl, rfl, _, _, _⟩
  exact hHolds.1.1

/- A delivery asks others, and may fail. -/
theorem keptAt_asks
    {q : Statement}
    (hKeyed : KeyedReports d₀)
    (hAsks : Asks q) :
    (tallyRegime repr deliveries d₀).KeptAt Steady t .asking
      q where
  shape := by
    intro l hNote
    change l.note.Next _
    rw [hNote]
    trivial
  note := by
    intro a d
    cases q with
    | saveReport kind object => exact hAsks.elim
    | _ => rfl
  noteError := rfl
  reply := fun _ _ _ _ hReply => steady_of_reply hReply
  plan := by
    intro d ns live hPermits a lock f hPlan
    cases q with
    | saveReportFields kind object fields =>
        simp only [backend, plan] at hPlan
        split at hPlan
        · cases hPlan
        · rename_i old hFind
          have hKeyed' : KeyedReports d :=
            keyed_of_owners
              (tallies_of_permits hPermits).owners hKeyed
          apply steady_saveFields hKeyed' hFind hPlan
          rintro rfl hOld
          rcases hAsks with ⟨rfl, _⟩ | rfl
          · rcases hPermits.world with
              ⟨w, ls, _, rfl, _, _, hHead, hOk⟩
            have hNot :=
              hOk.1 object.id object old hHead rfl hFind
            exact absurd hOld hNot
          · simpa [Report.assign] using hOld
    | _ => first | exact False.elim hAsks | cases hPlan

/- A part of a delivery before it saves its report. -/
theorem tally_asks
    {α : Type}
    {p : Service α}
    (hKeyed : KeyedReports d₀)
    (hAsks : p.Conforms AsksOp)
    (hRest : Regime.Resting () .asking l) :
    (tallyRegime repr deliveries d₀).wp t p
      (fun _ => Regime.Resting () .asking)
      (fun _ => Regime.Resting () .asking) l := by
  apply Regime.wp_keptAt bears_steady _ hRest
  apply hAsks.mono
  rintro x ⟨q, rfl, hQuery⟩
  exact ⟨q, rfl, keptAt_asks hKeyed hQuery⟩

/- The owner of a report that is read is that of the start. -/
theorem tally_getReport
    (hRest : Regime.Resting () .asking l) :
    (tallyRegime repr deliveries d₀).wp t
      (query (.getReport .analysis reportId))
      (fun report l' =>
        Regime.Resting () .asking l' ∧
          ∃ row, d₀.find .analysis reportId = some row ∧
            owner row = owner report)
      (fun _ l' => Regime.Resting () .asking l') l := by
  apply Regime.wp_execute_rest _ hRest
  · intro e l' hRest' _
    exact hRest'
  · intro d ns live _ x a d' _ hReply
    cases x <;> cases hReply
  · intro d ns live hRests _
    simp only [backend, plan]
    split
    · rename_i report hFind
      have hStored := Option.eq_some_of_filter_eq_some hFind
      refine ⟨Regime.publishable_refl ?_, ?_⟩
      · exact Regime.inv_same hRests.inv hRests.note
      · intro l' hRest'
        refine ⟨hRest', ?_⟩
        exact owner_of_find hRests.inv.owners.symm hStored
    · intro l' hRest'
      exact hRest'
  · change l.note.Next _
    rw [hRest.note]
    trivial

/- What is noted once the completed report is saved. -/
def savedProgress (report : AnalysisReport) : Progress :=
  match report.user with
  | some user => .saved (user, report.url)
  | none => .untracked

theorem uncounted_savedProgress
    (report : AnalysisReport) :
    ¬ (savedProgress report).Counted := by
  unfold savedProgress
  split
  · exact uncounted_saved
  · rintro ⟨key, hSame⟩
    cases hSame

/- The completed report is saved. -/
theorem tally_saveReport
    {object : AnalysisReport}
    (hKeyed : KeyedReports d₀)
    (hId : (deliveries t).reportId = object.id)
    (hOwner :
      ∃ row, d₀.find .analysis object.id = some row ∧
        owner row = owner object)
    (hStatus : object.status = .completed)
    (hRest : Regime.Resting () .asking l) :
    (tallyRegime repr deliveries d₀).wp t
      (query (.saveReport .analysis object))
      (fun _ => Regime.Resting () (savedProgress object))
      (fun _ => Regime.Resting () .asking) l := by
  apply Regime.wp_execute_rest _ hRest
  · intro e l' hRest' _
    exact hRest'
  · intro d ns live _ x a d' _ hReply
    cases x <;> cases hReply
  · intro d ns live hRests _
    have hTallies : Tallies deliveries d₀ d ns := hRests.inv
    simp only [backend, plan]
    cases hWrite : writeReport repr object with
    | refuse e => trivial
    | outside => trivial
    | miss e =>
        intro l' hRest'
        exact hRest'
    | done a lock f =>
        rcases writeReport_eq_done hWrite with
          ⟨rfl, row, hPrepare, _, rfl⟩
        have hEq := Report.eq_of_prepare hPrepare
        have hRowId : row.id = object.id := by rw [hEq]
        have hRowOwner : owner row = owner object := by
          rw [hEq]
          rfl
        have hRowStatus : row.status = .completed := by
          rw [hEq]
          exact hStatus
        rcases hOwner with ⟨first, hFirst, hSame⟩
        rcases owner_of_find hTallies.owners hFirst with
          ⟨old, hOld, hOldOwner⟩
        have hSteady : Steady d (putReport row d) := by
          apply
            steady_put
              (keyed_of_owners hTallies.owners hKeyed)
          · rw [hRowId]
            exact hOld
          · exact
              hRowOwner.trans
                (hOldOwner.trans hSame).symm
          · exact fun _ => hRowStatus
        have hFind :
            (putReport row d).find .analysis
                (deliveries t).reportId =
              some row := by
          rw [hId, ← hRowId]
          exact find_putReport_self row d
        have hRowUser : row.user = object.user := by rw [hEq]
        have hRowUrl : row.url = object.url := by rw [hEq]
        have hFits :
            (savedProgress object).Fits
              (deliveries t).reportId (putReport row d) := by
          unfold savedProgress
          split
          · rename_i user hUser
            refine ⟨row, hFind, ?_⟩
            rw [completedFor_eq_true]
            exact
              ⟨hRowStatus, hRowUser.trans hUser, hRowUrl⟩
          · rename_i hUser
            exact ⟨row, hFind, hRowUser.trans hUser⟩
        have hOldNote : ¬ (ns t).Counted := by
          rw [hRests.note]
          rintro ⟨key, hCounted⟩
          cases hCounted
        refine ⟨⟨?_, trivial, fun _ _ => rfl, ?_⟩, ?_⟩
        · exact
            (hTallies.mono hSteady).note hFits hOldNote
              (uncounted_savedProgress object)
        · intro key _
          rfl
        · intro l' hRest'
          exact hRest'
  · change l.note.Next _
    rw [hRest.note]
    trivial

theorem tally_rollUp
    (report : AnalysisReport)
    (hRest : Regime.Resting () (savedProgress report) l) :
    (tallyRegime repr deliveries d₀).wp t (rollUp report now)
      (fun _ l' =>
        l'.note.Counted ∨ l'.note = .untracked)
      (fun _ l' => ¬ l'.note.Counted) l := by
  unfold rollUp
  split
  · rename_i hUser
    right
    rw [hRest.note, savedProgress, hUser]
  · rename_i user hUser
    rw [savedProgress, hUser] at hRest
    apply Discipline.wp_mono (tally_upsertHistory hRest)
    · intro _ l' hCounted
      exact Or.inl ⟨_, hCounted⟩
    · intro e l' hUncounted
      exact hUncounted

theorem uncounted_of_asking
    {l : Counting}
    (hRest : Regime.Resting () Progress.asking l) :
    ¬ l.note.Counted := by
  rw [hRest.note]
  rintro ⟨key, hSame⟩
  cases hSame

/- The service counts the report that it has completed. -/
theorem tally_processAnalysis
    (hKeyed : KeyedReports d₀)
    (hRest : Regime.Resting () .asking l) :
    (tallyRegime repr deliveries d₀).wp t
      (processAnalysis settings repr
        (deliveries t).reportId now)
      (fun report l' =>
        report.status = .completed ∧
          (l'.note.Counted ∨ l'.note = .untracked))
      (fun _ l' => ¬ l'.note.Counted) l := by
  apply Discipline.wp_bind
  apply Discipline.wp_mono (tally_getReport hRest)
  · rintro report l₁ ⟨hRest₁, row, hRow, hOwner⟩
    have hIds := congrArg Prod.fst hOwner
    have hReportId : report.id = (deliveries t).reportId :=
      hIds.symm.trans (id_of_find hRow)
    apply Discipline.wp_bind
    apply
      Discipline.wp_mono
        (tally_asks hKeyed
          (asks_tryCatch report
            (asks_fetchPagespeed _ _ _ _))
          hRest₁)
    · intro raw l₂ hRest₂
      apply Discipline.wp_bind
      apply
        Discipline.wp_mono
          (tally_asks hKeyed (Prog.conforms_ofExcept _)
            hRest₂)
      · intro metrics l₃ hRest₃
        have hCompletedId :
            (completedReport report raw metrics).id =
              report.id := rfl
        apply Discipline.wp_bind
        apply
          Discipline.wp_mono
            (tally_saveReport hKeyed
              (hReportId.symm.trans hCompletedId.symm) _ rfl
              hRest₃)
        · intro _ l₄ hRest₄
          apply Discipline.wp_bind
          apply Discipline.wp_mono (tally_rollUp _ hRest₄)
          · intro _ l₅ hDone
            exact ⟨rfl, hDone⟩
          · intro e l₅ hUncounted
            exact hUncounted
        · intro e l₄ hRest₄
          exact uncounted_of_asking hRest₄
        · refine ⟨row, ?_, hOwner⟩
          rw [hCompletedId, hReportId]
          exact hRow
      · intro e l₃ hRest₃
        exact uncounted_of_asking hRest₃
    · intro e l₂ hRest₂
      exact uncounted_of_asking hRest₂
  · intro e l₁ hRest₁
    exact uncounted_of_asking hRest₁

------------------------------------------------------------
-- Runs
------------------------------------------------------------

/- How a delivery ends, and what is then counted. -/
structure Settled
    (a : TaskOutcome)
    (l : Counting) : Prop where
  counted : l.note.Counted → a = completedOutcome
  completed :
    a = completedOutcome →
      l.note.Counted ∨ l.note = .untracked

theorem tally_runPagespeedAnalysis
    (retries : Nat)
    (hKeyed : KeyedReports d₀)
    (hRest : Regime.Resting () .asking l) :
    (tallyRegime repr deliveries d₀).wp t
      (runPagespeedAnalysis settings repr retries
        (deliveries t).reportId now)
      Settled (fun _ l' => ¬ l'.note.Counted) l := by
  apply Discipline.wp_handle
  apply
    Discipline.wp_mono
      (tally_processAnalysis hKeyed hRest)
  · rintro report l' ⟨hStatus, hDone⟩
    refine ⟨?_, fun _ => hDone⟩
    intro _
    rw [hStatus]
    rfl
  · intro e l' hUncounted
    have hOther :
        ∀ a : TaskOutcome, a ≠ completedOutcome →
          Settled a l' := fun a hNe =>
      ⟨fun h => absurd h hUncounted,
        fun h => absurd h hNe⟩
    unfold handleFailure
    split
    · apply hOther
      decide
    · split
      · apply hOther
        intro h
        cases h
      · exact hUncounted

theorem verified_startDeliveries
    (hKeyed : KeyedReports d₀) :
    (tallyRegime repr deliveries d₀).Verified
      (fun _ => Settled) (fun _ _ l => ¬ l.note.Counted) d₀
      (fun _ => .asking)
      (startDeliveries settings repr deliveries d₀) where
  quiet := rfl
  inv := by
    refine ⟨rfl, fun _ h => h, fun _ => trivial, ∅, ?_, ?_⟩
    · intro t
      constructor
      · intro hMem
        exact absurd hMem (Finset.notMem_empty t)
      · rintro ⟨key, hSame⟩
        cases hSame
    · intro key
      simp
  threads := by
    intro t
    refine ⟨_, rfl, ?_⟩
    exact
      tally_runPagespeedAnalysis _ hKeyed ⟨rfl, rfl, rfl⟩
  ret := fun _ _ l _ => Progress.next_none l.note
  raise := fun _ _ l _ => Progress.next_none l.note
  lose := by
    intro w ls t hHolds hLive _
    refine ⟨?_, trivial⟩
    have hTallies : Tallies deliveries d₀
        w.shared.committed (fun t => (ls t).note) :=
      hHolds.1.1
    have hFits :
        Progress.asking.Fits (deliveries t).reportId
          w.shared.committed := trivial
    apply hTallies.note hFits
    · rintro ⟨key, hCounted⟩
      have hShape := hHolds.2 t
      change (ls t).note.Next _ at hShape
      rw [hCounted] at hShape
      exact hLive hShape
    · rintro ⟨key, hSame⟩
      cases hSame

/-
  What is counted has been processed, by one delivery, and
  was not completed at the start.
-/
structure Once
    (deliveries : Tid → Delivery)
    (d₀ : Db)
    (x : AttemptWorld × (Tid → Counting)) : Prop where
  processed :
    ∀ t, (x.2 t).note.Counted →
      x.1.threads t = .live (.ret completedOutcome)
  started :
    ∀ t, (x.2 t).note.Counted →
      ¬ IsCompleted .analysis (deliveries t).reportId d₀
  once :
    ∀ t t', (x.2 t).note.Counted → (x.2 t').note.Counted →
      (deliveries t).reportId = (deliveries t').reportId →
        t = t'

/- A delivery is counted when its transaction commits. -/
theorem counted_of_noteAfter
    {s : Store Db HistoryKey}
    {o : TxOp Statement}
    {r : Except Exc (TxOp.Res Statement.Answer o)}
    (hCounted :
      ((tallyRegime repr deliveries d₀).noteAfter t s d n o
        r).Counted) :
    n.Counted ∨ o = .commit ∧ (s.frames t).length = 1 := by
  cases o with
  | begin => exact Or.inl hCounted
  | rollback => exact Or.inl hCounted
  | commit =>
      cases r with
      | error e => exact Or.inl hCounted
      | ok u =>
          by_cases hLast : (s.frames t).length = 1
          · exact Or.inr ⟨rfl, hLast⟩
          · left
            simpa [Regime.noteAfter, Regime.noteCommitted,
              hLast] using hCounted
  | query q =>
      left
      cases r with
      | error e => exact hCounted
      | ok a =>
          change (noteProgress q a d n).Counted at hCounted
          cases q with
          | saveReport kind object =>
              cases kind with
              | analysis =>
                  exact
                    absurd hCounted
                      (uncounted_savedProgress object)
              | gtmetrix => exact hCounted
              | ssl => exact hCounted
          | getHistory key =>
              cases n with
              | saved key => exact absurd hCounted uncounted_found
              | _ => exact hCounted
          | _ => exact hCounted

/- The end of a delivery that has just been counted. -/
theorem returned_of_counted
    {p : Service TaskOutcome}
    (hWp :
      (tallyRegime repr deliveries d₀).wp t p Settled
        (fun _ l' => ¬ l'.note.Counted) l)
    (hCounted : l.note.Counted) :
    p = .ret completedOutcome := by
  cases p with
  | ret a =>
      have hSettled : Settled a l := hWp
      rw [hSettled.counted hCounted]
  | raise e => exact absurd hCounted hWp
  | call o k =>
      have hShape : l.note.Next (some o) := hWp.1
      rcases hCounted with ⟨key, hNote⟩
      rw [hNote] at hShape
      cases hShape

/- An event of a delivery that has not been counted yet. -/
theorem Once.put
    {w : AttemptWorld}
    {ls : Tid → Counting}
    {s : Store Db HistoryKey}
    {thread :
      Thread (TxOp Statement) (TxOp.Res Statement.Answer) Exc
        TaskOutcome}
    (hOnce : Once deliveries d₀ (w, ls))
    (hOld : ¬ (ls t).note.Counted)
    (hNew :
      l.note.Counted →
        thread = .live (.ret completedOutcome) ∧
          ¬ IsCompleted .analysis (deliveries t).reportId
              d₀ ∧
            ¬ Processed deliveries w
              (deliveries t).reportId) :
    Once deliveries d₀
      (w.put s t thread, Function.update ls t l) where
  processed := by
    intro t' hCounted
    simp only [World.put]
    by_cases hSame : t' = t
    · subst hSame
      simp only [Function.update_self] at hCounted ⊢
      exact (hNew hCounted).1
    · simp only [Function.update_of_ne hSame] at hCounted ⊢
      exact hOnce.processed t' hCounted
  started := by
    intro t' hCounted
    by_cases hSame : t' = t
    · subst hSame
      simp only [Function.update_self] at hCounted
      exact (hNew hCounted).2.1
    · simp only [Function.update_of_ne hSame] at hCounted
      exact hOnce.started t' hCounted
  once := by
    have hLone :
        ∀ t', l.note.Counted → (ls t').note.Counted →
          (deliveries t').reportId ≠
            (deliveries t).reportId := by
      intro t' hCounted hCounted' hReport
      apply (hNew hCounted).2.2
      exact ⟨t', hReport, hOnce.processed t' hCounted'⟩
    intro t₁ t₂ hCounted₁ hCounted₂ hReport
    by_cases hSame₁ : t₁ = t
    · by_cases hSame₂ : t₂ = t
      · exact hSame₁.trans hSame₂.symm
      · subst hSame₁
        simp only [Function.update_self] at hCounted₁
        simp only [Function.update_of_ne hSame₂] at hCounted₂
        exact absurd hReport.symm (hLone t₂ hCounted₁ hCounted₂)
    · simp only [Function.update_of_ne hSame₁] at hCounted₁
      by_cases hSame₂ : t₂ = t
      · subst hSame₂
        simp only [Function.update_self] at hCounted₂
        exact absurd hReport (hLone t₁ hCounted₂ hCounted₁)
      · simp only [Function.update_of_ne hSame₂] at hCounted₂
        exact hOnce.once t₁ t₂ hCounted₁ hCounted₂ hReport

/- An event counts at most one delivery, and only once. -/
theorem once_of_moves
    {x y : AttemptWorld × (Tid → Counting)}
    (hSound :
      (tallyRegime repr deliveries d₀).discipline.Sound
        (fun _ => Settled) (fun _ _ l => ¬ l.note.Counted)
        y.1 y.2)
    (hMoves :
      (tallyRegime repr deliveries d₀).discipline.Moves x y)
    (hOnce : Once deliveries d₀ x) :
    Once deliveries d₀ y := by
  have hCall :
      ∀ {t : Tid} {o : TxOp Statement} {k},
        x.1.threads t = .live (.call o k) →
          ¬ (x.2 t).note.Counted := by
    intro t o k hThread hCounted
    have hRet := hOnce.processed t hCounted
    rw [hThread] at hRet
    cases hRet
  cases hMoves with
  | @step w ls t c o k r s hThread hOk hExec =>
      apply hOnce.put (hCall hThread)
      intro hCounted
      have hWp := hSound.live t (k r) (by simp [World.put])
      simp only [Function.update_self] at hWp
      refine ⟨?_, ?_⟩
      · exact congrArg _ (returned_of_counted hWp hCounted)
      · rcases counted_of_noteAfter hCounted with
          hOld | ⟨rfl, hLast⟩
        · exact absurd hOld (hCall hThread)
        · apply hOk.2 _ hLast
          rw [hThread]
          rfl
  | @lose w ls t o k hThread hOk =>
      apply hOnce.put (hCall hThread)
      rintro ⟨key, hSame⟩
      cases hSame

/-
  In every run in which no rollup of a report follows another
  and no failure is saved over a completed report: once every
  completed report has been processed, each counter is the
  number of the completed reports of its user and its URL.
-/
theorem counters_tally
    {w : AttemptWorld}
    (hKeyed : KeyedReports d)
    (hStart :
      ∀ key, historyCount d key = completedCount d key)
    (hReach :
      (backend repr).machine.Reaches (CountsOnce deliveries d)
        (startDeliveries settings repr deliveries d) w)
    (hProcessed :
      ∀ reportId,
        IsCompleted .analysis reportId w.shared.committed →
          IsCompleted .analysis reportId d ∨
            Processed deliveries w reportId)
    (key : HistoryKey) :
    historyCount w.shared.committed key =
      completedCount w.shared.committed key := by
  have hVerified :
      (tallyRegime repr deliveries d).Verified
        (fun _ => Settled) (fun _ _ l => ¬ l.note.Counted) d
        (fun _ => .asking)
        (startDeliveries settings repr deliveries d) :=
    verified_startDeliveries hKeyed
  have hFirst :
      Once deliveries d
        (startDeliveries settings repr deliveries d,
          fun t =>
            (tallyRegime repr deliveries d).start t d
              .asking) := by
    have hNone : ¬ Progress.asking.Counted := by
      rintro ⟨key, hSame⟩
      cases hSame
    exact
      ⟨fun _ h => absurd h hNone, fun _ h => absurd h hNone,
        fun _ _ h _ _ => absurd h hNone⟩
  rcases
    hVerified.along_of_reaches hFirst
      (fun _ _ _ hSound hMoves hOnce =>
        once_of_moves hSound hMoves hOnce)
      hReach with
    ⟨ls, hSound, hOnce⟩
  have hTallies :
      Tallies deliveries d w.shared.committed
        (fun t => (ls t).note) := hSound.inv.1
  rcases hTallies.counts with ⟨counted, hMem, hCounts⟩
  have hAll :
      ∀ reportId,
        IsCompleted .analysis reportId w.shared.committed →
          ¬ IsCompleted .analysis reportId d →
            ∃ t, (deliveries t).reportId = reportId ∧
              ((ls t).note.Counted ∨
                (ls t).note = .untracked) := by
    intro reportId hCompleted hNot
    rcases hProcessed reportId hCompleted with
      hOld | ⟨t, hReport, hThread⟩
    · exact absurd hOld hNot
    · have hSettled : Settled completedOutcome (ls t) :=
        hSound.live t _ hThread
      exact ⟨t, hReport, hSettled.completed rfl⟩
  have hIds :=
    hTallies.completedIds_eq hKeyed hAll hMem key
  have hKeyed' : KeyedReports w.shared.committed :=
    keyed_of_owners hTallies.owners hKeyed
  have hDisjoint :
      Disjoint (completedIds d key)
        ((counted.filter
          (fun t => (ls t).note = .counted key)).image
            (fun t => (deliveries t).reportId)) := by
    rw [Finset.disjoint_left]
    intro reportId hOld hNew
    rcases Finset.mem_image.mp hNew with ⟨t, hFilter, rfl⟩
    rw [mem_completedIds hKeyed] at hOld
    apply hOnce.started t _ hOld.isCompleted
    exact ⟨key, (Finset.mem_filter.mp hFilter).2⟩
  have hInjective :
      ((counted.filter
        (fun t => (ls t).note = .counted key)).image
          (fun t => (deliveries t).reportId)).card =
        (counted.filter
          (fun t => (ls t).note = .counted key)).card := by
    apply Finset.card_image_of_injOn
    intro t₁ hIn₁ t₂ hIn₂ hReport
    have hCounted₁ := (Finset.mem_filter.mp hIn₁).2
    have hCounted₂ := (Finset.mem_filter.mp hIn₂).2
    exact
      hOnce.once t₁ t₂ ⟨key, hCounted₁⟩ ⟨key, hCounted₂⟩
        hReport
  rw [← card_completedIds hKeyed', hIds,
    Finset.card_union_of_disjoint hDisjoint, hInjective,
    card_completedIds hKeyed, hCounts key, hStart key]
  push_cast
  rfl

------------------------------------------------------------
-- One Report and its Deliveries
------------------------------------------------------------

/- A report of user 0 that has just been submitted. -/
def pendingReport : AnalysisReport :=
  { submittedReport with user := some 0 }

def pendingReports : Db :=
  { submitted with
    reports := fun
      | .analysis => [pendingReport]
      | .gtmetrix => []
      | .ssl => [] }

theorem keyed_pendingReports : KeyedReports pendingReports :=
  List.nodup_singleton _

theorem tally_pendingReports
    (key : HistoryKey) :
    historyCount pendingReports key =
      completedCount pendingReports key := by
  simp [historyCount, completedCount, Db.findHistory,
    Table.find, pendingReports, submitted, pendingReport,
    submittedReport, completedFor]

/- Deliveries of the task of that report. -/
abbrev redeliveries (_ : Tid) : Delivery where
  reportId := 0
  retries := 0
  now := 5

abbrev startReport : AttemptWorld :=
  startDeliveries someSettings (fun _ => "") redeliveries
    pendingReports

/- PageSpeed answers, and the report is saved. -/
def analysed : List (Choice Exc Reply) :=
  [.proceed,
    .reply
      (.http (.response ⟨200, .json (.obj [])⟩) true),
    .proceed]

/- The rollup inserts the row of the history. -/
def firstRollup : List (Choice Exc Reply) :=
  List.replicate 5 Choice.proceed ++ [.reply .done, .proceed]

/- Another rollup increments its counter. -/
def nextRollup : List (Choice Exc Reply) :=
  List.replicate 3 Choice.proceed ++ [.reply .done, .proceed]

/- The world after so many steps of the first delivery. -/
abbrev afterSteps (n : Nat) : AttemptWorld :=
  ((backend (fun _ => "")).machine.replay startReport
    (((analysed ++ firstRollup).take n).map
      (.step 0))).getD
    startReport

/- One delivery counts the report. -/
theorem counters_tally_once :
    historyCount (afterSteps 10).shared.committed
        (0, "https://a.io/") =
      completedCount (afterSteps 10).shared.committed
        (0, "https://a.io/") := by
  have hTail :
      ∀ (v v' : AttemptWorld) (c : Choice Exc Reply),
        (∀ object : AnalysisReport,
          (v.threads 0).head ≠
            some
              (.query
                (.saveReportFields .analysis object
                  [.status, .errorMessage]))) →
          ((v.threads 0).head = some .commit →
            (v.shared.frames 0).length = 1 →
              ¬ IsCompleted .analysis 0 pendingReports ∧
                ¬ Processed redeliveries v 0) →
            (backend (fun _ => "")).machine.next v
                (.step 0 c) =
              some v' →
              (backend (fun _ => "")).machine.Reaches
                  (CountsOnce redeliveries pendingReports)
                  startReport v →
                (backend (fun _ => "")).machine.Reaches
                  (CountsOnce redeliveries pendingReports)
                  startReport v' := by
    intro v v' c hSave hCommit hNext hReach
    apply hReach.tail _ hNext
    refine ⟨?_, hCommit⟩
    intro reportId object row hHead
    exact absurd hHead (hSave object)
  have hAsked :=
    hTail (afterSteps 0) (afterSteps 1) .proceed
      (fun _ h => by cases h) (fun h => by cases h) rfl
      Machine.Reaches.refl
  have hAnswered :=
    hTail (afterSteps 1) (afterSteps 2)
      (.reply
        (.http (.response ⟨200, .json (.obj [])⟩) true))
      (fun _ h => by cases h) (fun h => by cases h) rfl hAsked
  have hSaved :=
    hTail (afterSteps 2) (afterSteps 3) .proceed
      (fun _ h => by cases h) (fun h => by cases h) rfl
      hAnswered
  have hBegun :=
    hTail (afterSteps 3) (afterSteps 4) .proceed
      (fun _ h => by cases h) (fun h => by cases h) rfl hSaved
  have hMissed :=
    hTail (afterSteps 4) (afterSteps 5) .proceed
      (fun _ h => by cases h) (fun h => by cases h) rfl hBegun
  have hNested :=
    hTail (afterSteps 5) (afterSteps 6) .proceed
      (fun _ h => by cases h) (fun h => by cases h) rfl hMissed
  have hInserted :=
    hTail (afterSteps 6) (afterSteps 7) .proceed
      (fun _ h => by cases h) (fun h => by cases h) rfl hNested
  have hMerged :=
    hTail (afterSteps 7) (afterSteps 8) .proceed
      (fun _ h => by cases h)
      (fun _ hLast => absurd hLast (by decide)) rfl hInserted
  have hDropped :=
    hTail (afterSteps 8) (afterSteps 9) (.reply .done)
      (fun _ h => by cases h) (fun h => by cases h) rfl hMerged
  have hUnprocessed :
      ¬ Processed redeliveries (afterSteps 9) 0 := by
    rintro ⟨t, _, hReturned⟩
    by_cases hSame : t = 0
    · subst hSame
      cases hReturned
    · have hOther :
          (afterSteps 9).threads t = startReport.threads t :=
        Machine.threads_of_replay
          (M := (backend (fun _ => "")).machine)
          ((analysed ++ firstRollup).take 9) hSame rfl
      rw [hOther] at hReturned
      cases hReturned
  have hPending :
      ¬ IsCompleted .analysis 0 pendingReports := by
    rintro ⟨row, hFind, hCompleted⟩
    cases hFind
    cases hCompleted
  have hCommitted :=
    hTail (afterSteps 9) (afterSteps 10) .proceed
      (fun _ h => by cases h)
      (fun _ _ => ⟨hPending, hUnprocessed⟩) rfl hDropped
  apply
    counters_tally keyed_pendingReports tally_pendingReports
      hCommitted
  rintro reportId ⟨row, hFind, _⟩
  have hMem := Table.mem_of_find hFind
  have hId := id_of_find hFind
  cases List.mem_singleton.mp hMem
  exact Or.inr ⟨0, hId, rfl⟩

/- The world after the second delivery, too. -/
abbrev redelivered : AttemptWorld :=
  ((backend (fun _ => "")).machine.replay (afterSteps 10)
    ((analysed ++ nextRollup).map (.step 1))).getD
    startReport

/- Every delivery has not begun, or it has ended. -/
def AtRest
    (w₀ w : AttemptWorld) : Prop :=
  ∀ t, w.threads t = w₀.threads t ∨
    (w.threads t).head = none

/- The task is delivered again, and counts again. -/
theorem redelivery_counts_twice :
    ¬ ∀ (deliveries : Tid → Delivery) (d : Db)
        (w : AttemptWorld) (key : HistoryKey),
      KeyedReports d →
        (∀ key, historyCount d key = completedCount d key) →
          (backend (fun _ => "")).machine.Reaches
              Machine.anyEvent
              (startDeliveries someSettings (fun _ => "")
                deliveries d)
              w →
            AtRest
                (startDeliveries someSettings (fun _ => "")
                  deliveries d)
                w →
              (∀ reportId,
                IsCompleted .analysis reportId
                    w.shared.committed →
                  Processed deliveries w reportId) →
                historyCount w.shared.committed key =
                  completedCount w.shared.committed key := by
  intro hTally
  have hReach :=
    Machine.reaches_of_replay
      (M := (backend (fun _ => "")).machine)
      (w := afterSteps 10)
      ((analysed ++ nextRollup).map (.step 1)) rfl
  have hAll :
      (backend (fun _ => "")).machine.Reaches
        Machine.anyEvent startReport redelivered :=
    (Machine.reaches_of_replay
      (((analysed ++ firstRollup).take 10).map (.step 0))
      rfl).trans hReach
  have hRest : AtRest startReport redelivered := by
    intro t
    by_cases hSecond : t = 1
    · subst hSecond
      exact Or.inr rfl
    · have hLater :
          redelivered.threads t =
            (afterSteps 10).threads t :=
        Machine.threads_of_replay
          (M := (backend (fun _ => "")).machine)
          (analysed ++ nextRollup) hSecond rfl
      rw [hLater]
      by_cases hFirst : t = 0
      · subst hFirst
        exact Or.inr rfl
      · exact
          Or.inl
            (Machine.threads_of_replay
              (M := (backend (fun _ => "")).machine)
              ((analysed ++ firstRollup).take 10) hFirst rfl)
  have hSame :=
    hTally redeliveries pendingReports redelivered
      (0, "https://a.io/") keyed_pendingReports
      tally_pendingReports hAll hRest
      (by
        rintro reportId ⟨row, hFind, _⟩
        have hMem := Table.mem_of_find hFind
        have hId := id_of_find hFind
        cases List.mem_singleton.mp hMem
        exact ⟨0, hId, rfl⟩)
  change (2 : Int) = ((1 : Nat) : Int) at hSame
  omega

end SiteAnalysis.Analysis
