import SiteAnalysis.Relational.Fresh
import SiteAnalysis.Relational.Rest
import SiteAnalysis.Users.Service

/-
  This file verifies the API keys, over every interleaving of
  any number of requests that provide, rotate or present
  them.

  A call only changes the row of its user under the lock of
  the row, and what it stores there is a key that it has
  drawn itself.  The time of the last use, which is written
  without a transaction, leaves every key as it is.

  Key definitions include:
    * `KeyCall`
    * `startKeys`
    * `Db.Holds`
    * `Db.Issued`
    * `keyRegime`

  Key theorems include:
    * `wp_createApiKey`
    * `wp_rotate`
    * `wp_rotateApiKeyBody`
    * `wp_authenticate`
    * `verified_keys`
-/

------------------------------------------------------------
-- Calls
------------------------------------------------------------

namespace SiteAnalysis.Users

open Concurrency
open Relational
open Python

/- A request that provides, rotates or presents a key. -/
inductive KeyCall
  | getOrCreate (user : UserId)
  | rotate (user : UserId)
  | present (header : Option String) (now : Time)

/- What a call comes back with; an idle thread with nothing. -/
inductive KeyAnswer
  | nothing
  | key (row : ApiKey)
  | request (found : Option (User × ApiKey))

abbrev KeyWorld :=
  World (Store Db Lock) (TxOp Statement)
    (TxOp.Res Statement.Answer) Exc KeyAnswer

def KeyCall.program :
    Option KeyCall → Service KeyAnswer
| none => .ret .nothing
| some (.getOrCreate user) => do
    let row ← getOrCreateApiKey user
    pure (.key row)
| some (.rotate user) => do
    let row ← rotateApiKey user
    pure (.key row)
| some (.present header now) => do
    let found ← authenticate header now
    pure (.request found)

def startKeys
    (calls : Tid → Option KeyCall)
    (d : Db) : KeyWorld where
  shared := Store.quiet d
  threads := fun t => .live (KeyCall.program (calls t))

/- The user whose key the call rotates. -/
def KeyCall.target : Option KeyCall → Option UserId
| some (.rotate user) => some user
| _ => none

/- The row of the user has the key. -/
def Db.Holds
    (d : Db)
    (key : String)
    (user : UserId) : Prop :=
  ∃ row, d.findKey user = some row ∧ row.key = key

/-
  Users and keys are unique, and every key has been
  generated.
-/
structure Db.Issued (d : Db) : Prop where
  keyed : Table.Keyed ApiKey.user d.apiKeys
  unique :
    ∀ key user user', d.Holds key user → d.Holds key user' →
      user = user'
  drawn : ∀ key user, d.Holds key user → key ∈ d.keys

------------------------------------------------------------
-- The Regime
------------------------------------------------------------

/-
  What is noted of a call: the keys that it has drawn and not
  committed yet, and whether it has committed.
-/
structure KeyNote where
  keys : List String
  committed : Bool

def KeyNote.fresh : KeyNote where
  keys := []
  committed := false

/- What a call knows; its own part is its target. -/
abbrev KeyLocal :=
  Regime.Local Db Lock (Option ApiKey) (Option UserId)
    KeyNote

def issued : Freshness Db KeyNote (String × UserId) where
  stored := fun d v => d.Holds v.1 v.2
  drawn := fun d v => v.1 ∈ d.keys
  mine := fun n v => v.1 ∈ n.keys

/- The row behind a lock. -/
def keyBehind : Lock → Db → Option ApiKey
| .apiKey user, d => d.findKey user
| _, _ => none

/-
  Every stored key has left the hands of the call that drew
  it, and no two calls have a key in common.
-/
structure KeyInv
    (d : Db)
    (ns : Tid → KeyNote) : Prop where
  issued : d.Issued
  spent :
    ∀ key user, d.Holds key user →
      ∀ t, key ∉ (ns t).keys
  drawn : ∀ t, ∀ key ∈ (ns t).keys, key ∈ d.keys
  apart :
    ∀ t t' key, key ∈ (ns t).keys → key ∈ (ns t').keys →
      t' = t

/-
  What a call knows when it performs an operation: when a
  rotation commits, that the key of its user becomes one of
  its own.
-/
structure KeyShape
    (l : KeyLocal)
    (o : TxOp Statement) : Prop where
  working : l.note.committed = false
  frames :
    ∀ fr ∈ l.session.frames, ∀ d,
      issued.Allows l.note d (fr.pending d)
  auto :
    ∀ q d a lock f, o = .query q → l.session.frames = [] →
      backend.plan q d = .done a lock f →
        issued.Allows l.note d (f d)
  outside :
    ∀ key, o = .query (.findApiKey key) →
      l.session.frames = []
  replaced :
    ∀ user fr, o = .commit → l.own = some user →
      l.session.frames = [fr] →
        ∀ d key, (fr.pending d).Holds key user →
          key ∈ l.note.keys

def noteKey :
    (q : Statement) → q.Answer → KeyNote → KeyNote
| .generateApiKey, key, n => { n with keys := key :: n.keys }
| _, _, n => n

def keyRegime
    (calls : Tid → Option KeyCall) :
    Regime backend KeyAnswer (Option ApiKey) (Option UserId)
      KeyNote where
  ok := Machine.anyEvent
  frag := keyBehind
  own := fun t _ => KeyCall.target (calls t)
  inv := fun d ns _ => KeyInv d ns
  antitone := fun _ _ _ _ _ hInv => hInv
  guar := fun _ _ _ => True
  guar_refl := fun _ _ => trivial
  shape := fun l o => ∀ o', o = some o' → KeyShape l o'
  note := fun _ q a _ n => noteKey q a n
  noteError := fun _ n => n
  inv_error := by
    intro t q d ns live hInv
    rw [Function.update_eq_self]
    exact hInv
  noteCommit := fun _ _ n =>
    { n with
      keys := []
      committed := true }
  noteLost := fun n => n

------------------------------------------------------------
-- Changes of One Row
------------------------------------------------------------

variable {d d' d'' : Db} {ns : Tid → KeyNote} {t : Tid}
variable {n n' : KeyNote} {user : UserId}

/- Only the API key of the user changes. -/
structure Changes
    (user : UserId)
    (d d' : Db) : Prop where
  keys : d'.keys = d.keys
  others :
    ∀ user', user' ≠ user → d'.findKey user' = d.findKey user'
  keyed :
    Table.Keyed ApiKey.user d.apiKeys →
      Table.Keyed ApiKey.user d'.apiKeys

theorem changes_refl
    (user : UserId)
    (d : Db) : Changes user d d where
  keys := rfl
  others := fun _ _ => rfl
  keyed := fun hKeyed => hKeyed

theorem Changes.trans
    (hLeft : Changes user d d')
    (hRight : Changes user d' d'') : Changes user d d'' where
  keys := hRight.keys.trans hLeft.keys
  others := fun user' hNe =>
    (hRight.others user' hNe).trans (hLeft.others user' hNe)
  keyed := fun hKeyed => hRight.keyed (hLeft.keyed hKeyed)

theorem changes_updateApiKey
    {f : ApiKey → ApiKey}
    (hUser : ∀ row, (f row).user = row.user) :
    Changes user d (updateApiKey user f d) where
  keys := rfl
  others := fun _ hNe =>
    Table.find_update_of_ne
      (fun row hKey => (hUser row).trans hKey) hNe
  keyed := fun hKeyed =>
    Table.keyed_update
      (fun row hKey => (hUser row).trans hKey) hKeyed

theorem changes_insertApiKey
    {row : ApiKey}
    (hNone : d.findKey row.user = none) :
    Changes row.user d (insertApiKey row d) where
  keys := rfl
  others := fun _ hNe =>
    Table.find_append_of_ne (Ne.symm hNe)
  keyed := fun hKeyed => Table.keyed_append hKeyed hNone

/- Keys that others hold are held as before. -/
theorem Changes.holds_iff
    {key : String}
    {user' : UserId}
    (hChanges : Changes user d d')
    (hNe : user' ≠ user) :
    d'.Holds key user' ↔ d.Holds key user' := by
  rw [Db.Holds, Db.Holds, hChanges.others user' hNe]

/- An update that leaves the key as it is. -/
theorem holds_updateApiKey
    {key : String}
    {user' : UserId}
    {f : ApiKey → ApiKey}
    (hUser : ∀ row, (f row).user = row.user)
    (hKey : ∀ row, (f row).key = row.key) :
    (updateApiKey user f d).Holds key user' ↔
      d.Holds key user' := by
  by_cases hSame : user' = user
  · subst hSame
    have hFind :
        (updateApiKey user' f d).findKey user' =
          (d.findKey user').map f :=
      Table.find_update_self
        (fun row hEq => (hUser row).trans hEq)
    rw [Db.Holds, hFind]
    simp [Db.Holds, hKey]
  · exact
      (changes_updateApiKey hUser).holds_iff hSame

/- The user whose row is rewritten holds the new key. -/
theorem holds_of_rewrite
    {key : String}
    {f : ApiKey → ApiKey}
    {new : String}
    (hUser : ∀ row, (f row).user = row.user)
    (hKey : ∀ row, (f row).key = new)
    (hHolds : (updateApiKey user f d).Holds key user) :
    key = new := by
  rcases hHolds with ⟨row, hFind, rfl⟩
  have hMap :
      (updateApiKey user f d).findKey user =
        (d.findKey user).map f :=
    Table.find_update_self
      (fun row hEq => (hUser row).trans hEq)
  rw [hMap, Option.map_eq_some_iff] at hFind
  rcases hFind with ⟨old, _, rfl⟩
  exact hKey old

/- An inserted key is held, or it was held before. -/
theorem holds_of_insert
    {key : String}
    {user' : UserId}
    {row : ApiKey}
    (hHolds : (insertApiKey row d).Holds key user') :
    d.Holds key user' ∨ key = row.key := by
  rcases hHolds with ⟨found, hFind, rfl⟩
  have hAppend :
      (insertApiKey row d).findKey user' =
        (d.findKey user').or
          (Table.find ApiKey.user user' [row]) := by
    simp [Db.findKey, insertApiKey, Table.find,
      List.find?_append]
  rw [hAppend, Option.or_eq_some_iff] at hFind
  rcases hFind with hOld | ⟨_, hNew⟩
  · exact Or.inl ⟨found, hOld, rfl⟩
  · right
    have hMem := Table.mem_of_find hNew
    rw [List.mem_singleton.mp hMem]

------------------------------------------------------------
-- The Invariant
------------------------------------------------------------

/- A note with the same keys. -/
theorem KeyInv.update
    (hInv : KeyInv d ns)
    (hKeys : ∀ key ∈ n.keys, key ∈ (ns t).keys) :
    KeyInv d (Function.update ns t n) := by
  have hOld :
      ∀ t' key,
        key ∈ (Function.update ns t n t').keys →
          key ∈ (ns t').keys := by
    intro t' key hMem
    by_cases hSame : t' = t
    · subst hSame
      rw [Function.update_self] at hMem
      exact hKeys key hMem
    · rw [Function.update_of_ne hSame] at hMem
      exact hMem
  refine ⟨hInv.issued, ?_, ?_, ?_⟩
  · intro key user hHolds t' hMem
    exact hInv.spent key user hHolds t' (hOld t' key hMem)
  · intro t' key hMem
    exact hInv.drawn t' key (hOld t' key hMem)
  · intro t₁ t₂ key hMem₁ hMem₂
    exact
      hInv.apart t₁ t₂ key (hOld t₁ key hMem₁)
        (hOld t₂ key hMem₂)

/- A new key is drawn. -/
theorem KeyInv.draw
    {key : String}
    (hInv : KeyInv d ns)
    (hFresh : key ∉ d.keys)
    (hNote : n.keys = key :: (ns t).keys) :
    KeyInv { d with keys := key :: d.keys }
      (Function.update ns t n) := by
  have hCases :
      ∀ t' k, k ∈ (Function.update ns t n t').keys →
        k ∈ (ns t').keys ∨ t' = t ∧ k = key := by
    intro t' k hMem
    by_cases hSame : t' = t
    · subst hSame
      rw [Function.update_self, hNote] at hMem
      rcases List.mem_cons.mp hMem with hNew | hOld
      · exact Or.inr ⟨rfl, hNew⟩
      · exact Or.inl hOld
    · rw [Function.update_of_ne hSame] at hMem
      exact Or.inl hMem
  have hIssued := hInv.issued
  refine
    ⟨⟨hIssued.keyed, hIssued.unique, ?_⟩, ?_, ?_, ?_⟩
  · intro k user hHolds
    exact List.mem_cons_of_mem _ (hIssued.drawn k user hHolds)
  · intro k user hHolds t' hMem
    rcases hCases t' k hMem with hOld | ⟨_, rfl⟩
    · exact hInv.spent k user hHolds t' hOld
    · exact hFresh (hIssued.drawn k user hHolds)
  · intro t' k hMem
    rcases hCases t' k hMem with hOld | ⟨_, rfl⟩
    · exact List.mem_cons_of_mem _ (hInv.drawn t' k hOld)
    · exact List.mem_cons_self
  · intro t₁ t₂ k hMem₁ hMem₂
    rcases hCases t₁ k hMem₁ with hOld₁ | ⟨rfl, rfl⟩
    · rcases hCases t₂ k hMem₂ with hOld₂ | ⟨_, rfl⟩
      · exact hInv.apart t₁ t₂ k hOld₁ hOld₂
      · exact absurd (hInv.drawn t₁ k hOld₁) hFresh
    · rcases hCases t₂ k hMem₂ with hOld₂ | ⟨hSame₂, _⟩
      · exact absurd (hInv.drawn t₂ k hOld₂) hFresh
      · exact hSame₂

/-
  The key of one user is replaced by one of the call, which
  leaves its hands.
-/
theorem KeyInv.replace
    (hInv : KeyInv d ns)
    (hChanges : Changes user d d')
    (hMine :
      ∀ key, d'.Holds key user → key ∈ (ns t).keys)
    (hKeys : n.keys = []) :
    KeyInv d' (Function.update ns t n) := by
  have hCleared : KeyInv d (Function.update ns t n) := by
    apply hInv.update
    rw [hKeys]
    intro key hMem
    cases hMem
  have hIssued := hInv.issued
  have hOther :
      ∀ key user', d'.Holds key user' → user' ≠ user →
        d.Holds key user' :=
    fun key user' hHolds hNe =>
      (hChanges.holds_iff hNe).mp hHolds
  refine
    ⟨⟨hChanges.keyed hIssued.keyed, ?_, ?_⟩, ?_, ?_,
      hCleared.apart⟩
  · intro key u u' hHolds hHolds'
    by_cases hSame : u = user
    · by_cases hSame' : u' = user
      · exact hSame.trans hSame'.symm
      · rw [hSame] at hHolds
        exact
          absurd (hMine key hHolds)
            (hInv.spent key u' (hOther key u' hHolds' hSame')
              t)
    · by_cases hSame' : u' = user
      · rw [hSame'] at hHolds'
        exact
          absurd (hMine key hHolds')
            (hInv.spent key u (hOther key u hHolds hSame) t)
      · exact
          hIssued.unique key u u' (hOther key u hHolds hSame)
            (hOther key u' hHolds' hSame')
  · intro key u hHolds
    rw [hChanges.keys]
    by_cases hSame : u = user
    · rw [hSame] at hHolds
      exact hInv.drawn t key (hMine key hHolds)
    · exact hIssued.drawn key u (hOther key u hHolds hSame)
  · intro key u hHolds t' hMem
    by_cases hSame : u = user
    · rw [hSame] at hHolds
      by_cases hOwn : t' = t
      · subst hOwn
        rw [Function.update_self, hKeys] at hMem
        cases hMem
      · rw [Function.update_of_ne hOwn] at hMem
        exact
          hOwn (hInv.apart t t' key (hMine key hHolds) hMem)
    · exact
        hCleared.spent key u (hOther key u hHolds hSame) t'
          hMem
  · intro t' key hMem
    rw [hChanges.keys]
    exact hCleared.drawn t' key hMem

/- A change that leaves every key as it is. -/
theorem KeyInv.touch
    {f : ApiKey → ApiKey}
    (hInv : KeyInv d ns)
    (hUser : ∀ row, (f row).user = row.user)
    (hKey : ∀ row, (f row).key = row.key) :
    KeyInv (updateApiKey user f d) ns := by
  have hSame :
      ∀ key user', (updateApiKey user f d).Holds key user' →
        d.Holds key user' :=
    fun key user' =>
      (holds_updateApiKey hUser hKey).mp
  have hIssued := hInv.issued
  refine
    ⟨⟨(changes_updateApiKey hUser).keyed hIssued.keyed, ?_,
        ?_⟩, ?_, hInv.drawn, hInv.apart⟩
  · intro key u u' hHolds hHolds'
    exact
      hIssued.unique key u u' (hSame key u hHolds)
        (hSame key u' hHolds')
  · intro key u hHolds
    exact hIssued.drawn key u (hSame key u hHolds)
  · intro key u hHolds
    exact hInv.spent key u (hSame key u hHolds)

------------------------------------------------------------
-- Operations
------------------------------------------------------------

variable {calls : Tid → Option KeyCall}
variable {l l' : KeyLocal} {target : Option UserId}
variable {fr : Frame Db Lock} {rest : List (Frame Db Lock)}

/- A call may store what it may store with fewer keys. -/
theorem allows_of_subset
    (hAllows : issued.Allows n d d')
    (hKeys : ∀ key ∈ n.keys, key ∈ n'.keys) :
    issued.Allows n' d d' where
  stored := by
    intro v hStored
    rcases hAllows.stored v hStored with hOld | hMine
    · exact Or.inl hOld
    · exact Or.inr (hKeys _ hMine)
  drawn := hAllows.drawn

/- An operation inside a transaction that is not the last. -/
theorem keyShape_open
    {o : TxOp Statement}
    (hFrames : l.session.frames = fr :: rest)
    (hWorking : l.note.committed = false)
    (hAllows :
      ∀ fr' ∈ fr :: rest, ∀ d,
        issued.Allows l.note d (fr'.pending d))
    (hFind : ∀ key, o ≠ .query (.findApiKey key))
    (hCommit : o ≠ .commit) :
    (keyRegime calls).shape l (some o) := by
  intro o' hSame
  cases hSame
  refine ⟨hWorking, ?_, ?_, ?_, ?_⟩
  · rw [hFrames]
    exact hAllows
  · intro q d a lock f _ hNone
    rw [hFrames] at hNone
    cases hNone
  · intro key hEq
    exact absurd hEq (hFind key)
  · intro user fr' hEq
    exact absurd hEq hCommit

/- An operation of a call at rest. -/
theorem keyShape_rest
    {o : TxOp Statement}
    (hRest : Regime.Resting target n l)
    (hWorking : n.committed = false)
    (hAuto :
      ∀ q d a lock f, o = .query q →
        backend.plan q d = .done a lock f →
          issued.Allows n d (f d)) :
    (keyRegime calls).shape l (some o) := by
  intro o' hSame
  cases hSame
  refine ⟨?_, ?_, ?_, ?_, ?_⟩
  · rw [hRest.note]
    exact hWorking
  · intro fr hMem
    rw [hRest.session] at hMem
    cases hMem
  · intro q d a lock f hEq _ hPlan
    rw [hRest.note]
    exact hAuto q d a lock f hEq hPlan
  · intro key _
    rw [hRest.session]
    rfl
  · intro user fr _ _ hFrames
    rw [hRest.session] at hFrames
    cases hFrames

/- A read allows what it finds. -/
theorem allows_of_read
    {q : Statement}
    {a : q.Answer}
    {lock : Option Lock}
    {f : Db → Db}
    {answer : q.Answer}
    (hRead : backend.plan q d = .read answer)
    (hPlan : backend.plan q d = .done a lock f) :
    issued.Allows n d (f d) := by
  rw [hRead] at hPlan
  cases hPlan
  exact issued.allows_refl n d

/- A key is drawn inside a transaction. -/
theorem wp_generateApiKey
    {Q : String → KeyLocal → Prop}
    {E : Exc → KeyLocal → Prop}
    (hFrames : l.session.frames = fr :: rest)
    (hIntact : fr.broken = false)
    (hWorking : l.note.committed = false)
    (hAllows :
      ∀ fr' ∈ fr :: rest, ∀ d,
        issued.Allows l.note d (fr'.pending d))
    (hFault :
      ∀ e, E e { l with session := l.session.fail })
    (hDone :
      ∀ key l', l'.session = l.session → l'.own = l.own →
        l'.note =
            { l.note with keys := key :: l.note.keys } →
          Q key l') :
    (keyRegime calls).wp t (query .generateApiKey) Q E l := by
  apply Regime.wp_execute_open _ hFrames hIntact
  · intro e _
    exact hFault e
  · intro d ns live hFits x key d' _ hReply
    cases x with
    | salt value => cases hReply
    | done => cases hReply
    | token value =>
        simp only [backend, reply] at hReply
        split at hReply
        · cases hReply
        · rename_i hFresh
          cases hReply
          refine ⟨⟨?_, trivial, fun _ _ => rfl, ?_⟩, ?_⟩
          · apply hFits.inv.draw hFresh
            rw [hFits.note]
            rfl
          · intro k _
            cases k <;> rfl
          · exact hDone _ _ rfl hFits.own rfl
  · intro d ns live _ _
    trivial
  · apply keyShape_open hFrames hWorking hAllows
    · intro key hEq
      cases hEq
    · intro hEq
      cases hEq

------------------------------------------------------------
-- The Creation of a Key
------------------------------------------------------------

/- Nothing is pending in any frame, and nothing is locked. -/
structure Clear
    (target : Option UserId)
    (stack : List (Frame Db Lock))
    (l : KeyLocal) : Prop where
  frames : l.session.frames = stack
  idle : ∀ fr ∈ stack, fr.pending = id
  held : l.session.held = fun _ => none
  own : l.own = target
  working : l.note.committed = false

theorem Clear.view
    (hClear : Clear target (fr :: rest) l) :
    l.session.view d = d := by
  have hAll :
      ∀ frames : List (Frame Db Lock),
        (∀ fr ∈ frames, fr.pending = id) →
          frames.foldr (fun fr d => fr.pending d) d = d := by
    intro frames hIdle
    induction frames with
    | nil => rfl
    | cons fr frames ih =>
        rw [List.foldr_cons, ih, hIdle fr List.mem_cons_self]
        · rfl
        · intro fr' hMem
          exact hIdle fr' (List.mem_cons_of_mem _ hMem)
  rw [Session.view, hClear.frames]
  exact hAll _ hClear.idle

theorem Clear.allows
    (hClear : Clear target (fr :: rest) l) :
    ∀ fr' ∈ fr :: rest, ∀ d,
      issued.Allows l.note d (fr'.pending d) := by
  intro fr' hMem d
  rw [hClear.idle fr' hMem]
  exact issued.allows_refl l.note d

/- A query fails in the innermost frame. -/
theorem Clear.fail
    {locks : List Lock}
    (hClear : Clear target (⟨id, locks, false⟩ :: rest) l) :
    Clear target (⟨id, locks, true⟩ :: rest)
      { l with session := l.session.fail } where
  frames := by simp [Session.fail, hClear.frames]
  idle := by
    intro fr hMem
    rcases List.mem_cons.mp hMem with rfl | hOld
    · rfl
    · exact
        hClear.idle fr (List.mem_cons_of_mem _ hOld)
  held := by
    simp [Session.fail, hClear.frames, hClear.held]
  own := hClear.own
  working := hClear.working

/- The row is inserted in the innermost frame. -/
structure Inserted
    (user : UserId)
    (target : Option UserId)
    (rest : List (Frame Db Lock))
    (row : ApiKey)
    (l : KeyLocal) : Prop where
  owner : row.user = user
  frames :
    l.session.frames =
      ⟨insertApiKey row, [.apiKey user], false⟩ :: rest
  held :
    l.session.held =
      Function.update (fun _ => none) (Lock.apiKey user)
        (some none)
  own : l.own = target
  mine : row.key ∈ l.note.keys
  working : l.note.committed = false

/- The insertion stores a key of the call. -/
theorem allows_insertApiKey
    {row : ApiKey}
    (hMine : row.key ∈ n.keys) :
    issued.Allows n d (insertApiKey row d) where
  stored := by
    intro v hStored
    rcases holds_of_insert hStored with hOld | hNew
    · exact Or.inl hOld
    · right
      change v.1 ∈ n.keys
      rw [hNew]
      exact hMine
  drawn := fun _ hDrawn => hDrawn

/- The insertion is refused, or the user had no key. -/
theorem wp_insertApiKey
    {row : ApiKey}
    {Q : Unit → KeyLocal → Prop}
    (hClear : Clear target (Frame.fresh :: rest) l)
    (hMine : row.key ∈ l.note.keys)
    (hDone :
      ∀ l', Inserted row.user target rest row l' → Q () l') :
    (keyRegime calls).wp t (query (.insertApiKey row)) Q
      (fun _ l' =>
        ∃ b, Clear target (⟨id, [], b⟩ :: rest) l') l := by
  apply Regime.wp_execute_open _ hClear.frames rfl
  · intro e _
    exact ⟨true, hClear.fail⟩
  · intro d ns live _ x a d' _ hReply
    cases hReply
  · intro d ns live hFits _
    simp only [backend, plan, hClear.view]
    split
    · trivial
    · rename_i hNew
      have hNone : d.findKey row.user = none := by
        apply Table.find_eq_none_iff.mpr
        intro other hMem hSame
        apply hNew
        rw [List.any_eq_true]
        exact ⟨other, hMem, by simp [hSame]⟩
      refine ⟨Regime.inv_same hFits.inv hFits.note, ?_⟩
      apply hDone
      have hFrag :
          (keyRegime calls).frag (.apiKey row.user) d =
            none := hNone
      simp only [Session.acquire, hClear.frames,
        hClear.held, Option.isSome_none, Bool.false_eq_true,
        if_false, hFrag]
      exact
        { owner := rfl
          frames := rfl
          held := rfl
          own := hClear.own
          mine := hMine
          working := hClear.working }
  · apply
      keyShape_open hClear.frames hClear.working hClear.allows
    · intro key hEq
      cases hEq
    · intro hEq
      cases hEq

theorem wp_createApiKey
    (hClear : Clear target (Frame.fresh :: rest) l) :
    (keyRegime calls).wp t (createApiKey user)
      (fun row l' => Inserted user target rest row l')
      (fun _ l' =>
        ∃ b, Clear target (⟨id, [], b⟩ :: rest) l') l := by
  apply Discipline.wp_bind
  apply
    wp_generateApiKey hClear.frames rfl hClear.working
      hClear.allows
  · intro e
    exact ⟨true, hClear.fail⟩
  · intro key l' hSession hOwn hNote
    have hClear' : Clear target (Frame.fresh :: rest) l' := by
      refine ⟨?_, hClear.idle, ?_, ?_, ?_⟩
      · rw [hSession]
        exact hClear.frames
      · rw [hSession]
        exact hClear.held
      · rw [hOwn]
        exact hClear.own
      · rw [hNote]
        exact hClear.working
    apply Discipline.wp_bind
    apply wp_insertApiKey hClear'
    · rw [hNote]
      exact List.mem_cons_self
    · intro l'' hInserted
      exact hInserted

------------------------------------------------------------
-- Rotations
------------------------------------------------------------

/- The transaction is bound to be rolled back. -/
structure FailedKey
    (target : Option UserId)
    (l : KeyLocal) : Prop where
  frames :
    ∃ fr, l.session.frames = [fr] ∧
      ∀ d, issued.Allows l.note d (fr.pending d)
  own : l.own = target
  working : l.note.committed = false

/-
  A transaction with the change `p` pending, which concerns
  the key of the user alone.
-/
structure Drafting
    (user : UserId)
    (target : Option UserId)
    (p : Db → Db)
    (locks : List Lock)
    (l : KeyLocal) : Prop where
  frames : l.session.frames = [⟨p, locks, false⟩]
  allows : ∀ d, issued.Allows l.note d (p d)
  changes :
    ∀ d,
      (∀ k v, l.session.held k = some v →
        keyBehind k d = v) →
        Changes user d (p d)
  own : l.own = target
  working : l.note.committed = false

theorem Clear.drafting
    (hClear : Clear target [Frame.fresh] l) :
    Drafting user target id [] l where
  frames := hClear.frames
  allows := fun d => issued.allows_refl l.note d
  changes := fun d _ => changes_refl user d
  own := hClear.own
  working := hClear.working

theorem Clear.failedKey
    (hClear : Clear target [fr] l) :
    FailedKey target l where
  frames :=
    ⟨fr, hClear.frames,
      hClear.allows fr List.mem_cons_self⟩
  own := hClear.own
  working := hClear.working

/- A query fails while a change is pending. -/
theorem Drafting.failedKey
    {p : Db → Db}
    {locks : List Lock}
    (hDrafting : Drafting user target p locks l) :
    FailedKey target { l with session := l.session.fail } where
  frames := by
    refine ⟨⟨p, locks, true⟩, ?_, hDrafting.allows⟩
    simp [Session.fail, hDrafting.frames]
  own := hDrafting.own
  working := hDrafting.working

/- A transaction that stores a key of the call. -/
abbrev Replacing
    (calls : Tid → Option KeyCall)
    (t : Tid)
    (l : KeyLocal) : Prop :=
  (keyRegime calls).shape l (some .commit) ∧
    ∃ fr n',
      (keyRegime calls).Concludes t
        (KeyCall.target (calls t)) n'
        (fun l' => l'.note.committed = true) l fr

/- The new key is pending under the lock of the row. -/
theorem replacing_of_saved
    {p : Db → Db}
    {locks : List Lock}
    {f : ApiKey → ApiKey}
    {key : String}
    {session : Session Db Lock (Option ApiKey)}
    (hCall : KeyCall.target (calls t) = some user)
    (hDrafting : Drafting user (some user) p locks l)
    (hUser : ∀ row, (f row).user = row.user)
    (hKey : ∀ row, (f row).key = key)
    (hMine : key ∈ l.note.keys)
    (hFrames :
      ∃ locks',
        session.frames =
          [⟨updateApiKey user f ∘ p, locks', false⟩])
    (hHeld : session.held (.apiKey user) ≠ none)
    (hOld :
      ∀ k v, l.session.held k = some v →
        session.held k = some v) :
    Replacing calls t { l with session := session } := by
  rcases hFrames with ⟨locks', hFrames⟩
  have hNew :
      ∀ d k, (updateApiKey user f (p d)).Holds k user →
        k ∈ l.note.keys := by
    intro d k hHolds
    rw [holds_of_rewrite hUser hKey hHolds]
    exact hMine
  have hAllows :
      ∀ d,
        issued.Allows l.note d
          (updateApiKey user f (p d)) := by
    intro d
    refine ⟨?_, (hDrafting.allows d).drawn⟩
    intro v hStored
    by_cases hSame : v.2 = user
    · right
      apply hNew d v.1
      rw [← hSame] at hStored ⊢
      exact hStored
    · apply (hDrafting.allows d).stored v
      exact
        ((changes_updateApiKey hUser).holds_iff hSame).mp
          hStored
  refine ⟨?_, ⟨_, locks', false⟩, l.note, ⟨hFrames, rfl, ?_,
    rfl, ?_⟩⟩
  · intro o hSame
    cases hSame
    refine ⟨hDrafting.working, ?_, ?_, ?_, ?_⟩
    · intro fr hMem d
      rw [hFrames, List.mem_singleton] at hMem
      rw [hMem]
      exact hAllows d
    · intro q d a lock g hEq
      cases hEq
    · intro key' hEq
      cases hEq
    · intro user' fr _ hOwn hOne d key' hHolds
      rw [hDrafting.own] at hOwn
      cases hOwn
      rw [hFrames] at hOne
      cases hOne
      exact hNew d key' hHolds
  · rw [hCall]
    exact hDrafting.own
  · intro d ns live hFits
    have hChanges :
        Changes user d (updateApiKey user f (p d)) := by
      apply
        (hDrafting.changes d _).trans
          (changes_updateApiKey hUser)
      intro k v hLocked
      exact hFits.held k v (hOld k v hLocked)
    refine ⟨⟨?_, trivial, fun _ _ => rfl, ?_⟩, ?_⟩
    · apply hFits.inv.replace hChanges _ rfl
      intro k hHolds
      rw [hFits.note]
      exact hNew d k hHolds
    · intro k hFree
      cases k with
      | user u => rfl
      | unique field value => rfl
      | apiKey u =>
          apply hChanges.others
          rintro rfl
          exact hFree hHeld
    · intro l' hRest
      rw [hRest.note]
      rfl

/- The save of the new key. -/
theorem wp_saveApiKey
    {p : Db → Db}
    {locks : List Lock}
    (rotated : ApiKey)
    (hCall : KeyCall.target (calls t) = some user)
    (hDrafting : Drafting user (some user) p locks l)
    (hUser : rotated.user = user)
    (hMine : rotated.key ∈ l.note.keys) :
    (keyRegime calls).wp t
      (query (.saveApiKey rotated [.key, .isActive]))
      (fun _ l' => Replacing calls t l')
      (fun _ l' => FailedKey (some user) l') l := by
  apply Regime.wp_execute_open _ hDrafting.frames rfl
  · intro e _
    exact hDrafting.failedKey
  · intro d ns live _ x a d' _ hReply
    cases hReply
  · intro d ns live hFits _
    have hView : l.session.view d = p d := by
      simp [Session.view, hDrafting.frames]
    simp only [backend, plan, hView, hUser]
    split
    · trivial
    · split
      · trivial
      · refine ⟨Regime.inv_same hFits.inv hFits.note, ?_⟩
        apply
          replacing_of_saved
            (f := rotated.assign [.key, .isActive]) hCall
            hDrafting (fun _ => rfl) (fun _ => rfl) hMine
        · simp only [Session.acquire, hDrafting.frames]
          split
          · exact
              ⟨locks, by
                simp [Session.write, hDrafting.frames]⟩
          · exact ⟨_, rfl⟩
        · simp only [Session.acquire, hDrafting.frames]
          split
          · rename_i hLocked
            simpa [Session.write, hDrafting.frames,
              Option.isSome_iff_ne_none] using hLocked
          · simp [Session.write]
        · intro k v hLocked
          simp only [Session.acquire, hDrafting.frames]
          split
          · simpa [Session.write, hDrafting.frames] using
              hLocked
          · rename_i hFree
            simp only [Session.write]
            rw [Function.update_of_ne]
            · exact hLocked
            · rintro rfl
              apply hFree
              rw [hLocked]
              rfl
  · apply keyShape_open hDrafting.frames hDrafting.working
    · intro fr hMem d
      rw [List.mem_singleton.mp hMem]
      exact hDrafting.allows d
    · intro key hEq
      cases hEq
    · intro hEq
      cases hEq

/- A new key takes the place of the one in the row. -/
theorem wp_rotate
    {p : Db → Db}
    {locks : List Lock}
    {row : ApiKey}
    (hCall : KeyCall.target (calls t) = some user)
    (hDrafting : Drafting user (some user) p locks l)
    (hUser : row.user = user) :
    (keyRegime calls).wp t row.rotate
      (fun _ l' => Replacing calls t l')
      (fun _ l' => FailedKey (some user) l') l := by
  apply Discipline.wp_bind
  apply
    wp_generateApiKey hDrafting.frames rfl hDrafting.working
  · intro fr hMem d
    rw [List.mem_singleton.mp hMem]
    exact hDrafting.allows d
  · intro e
    exact hDrafting.failedKey
  · intro key l' hSession hOwn hNote
    have hDrafting' : Drafting user (some user) p locks l' := by
      refine ⟨?_, ?_, ?_, ?_, ?_⟩
      · rw [hSession]
        exact hDrafting.frames
      · intro d
        apply allows_of_subset (hDrafting.allows d)
        rw [hNote]
        exact fun _ hMem => List.mem_cons_of_mem _ hMem
      · rw [hSession]
        exact hDrafting.changes
      · rw [hOwn]
        exact hDrafting.own
      · rw [hNote]
        exact hDrafting.working
    apply Discipline.wp_bind
    have hMine : key ∈ l'.note.keys := by
      rw [hNote]
      exact List.mem_cons_self
    exact
      wp_saveApiKey
        { row with
          key := key
          isActive := true }
        hCall hDrafting' hUser hMine

/- The lookup of the user's key, inside the transaction. -/
theorem wp_getApiKey
    (hClear : Clear target [Frame.fresh] l) :
    (keyRegime calls).wp t (query (.getApiKey user))
      (fun found l' =>
        Clear target [Frame.fresh] l' ∧
          ∀ row, found = some row → row.user = user)
      (fun _ l' => FailedKey target l') l := by
  apply Regime.wp_execute_open _ hClear.frames rfl
  · intro e _
    exact hClear.fail.failedKey
  · intro d ns live _ x a d' _ hReply
    cases hReply
  · intro d ns live hFits _
    refine
      ⟨Regime.inv_same hFits.inv hFits.note, ⟨?_, ?_, ?_, ?_,
        ?_⟩, ?_⟩
    · simp only [Session.write, hClear.frames]
      rfl
    · exact hClear.idle
    · simp only [Session.write, hClear.frames]
      exact hClear.held
    · exact hClear.own
    · exact hClear.working
    · intro row hFound
      rw [hClear.view, Option.filter_eq_some_iff] at hFound
      exact Table.key_of_find hFound.1
  · apply
      keyShape_open hClear.frames hClear.working
        hClear.allows
    · intro key hEq
      cases hEq
    · intro hEq
      cases hEq

/- The innermost frame is dropped with its locks. -/
theorem clear_of_rollback
    (hFrames : l.session.frames = [fr, Frame.fresh])
    (hHeld :
      ∀ k, k ∉ fr.locks → l.session.held k = none)
    (hOwn : l.own = target)
    (hWorking : l.note.committed = false) :
    Clear target [Frame.fresh]
      { l with session := l.session.rollback } where
  frames := by simp [Session.rollback, hFrames]
  idle := by
    intro fr' hMem
    rw [List.mem_singleton.mp hMem]
    rfl
  held := by
    funext k
    simp only [Session.rollback, hFrames]
    split
    · rfl
    · rename_i hNot
      exact hHeld k hNot
  own := hOwn
  working := hWorking

/- The creation of the key in a savepoint. -/
theorem wp_createInSavepoint
    (hClear : Clear target [Frame.fresh] l) :
    (keyRegime calls).wp t (atomic (createApiKey user))
      (fun row l' =>
        row.user = user ∧
          ∃ p locks, Drafting user target p locks l')
      (fun _ l' => Clear target [Frame.fresh] l') l := by
  have hNotFind :
      ∀ o : TxOp Statement, o = .begin ∨ o = .commit ∨
          o = .rollback →
        ∀ key, o ≠ .query (.findApiKey key) := by
    rintro o (rfl | rfl | rfl) key hEq <;> cases hEq
  apply Regime.wp_savepoint
  · apply
      keyShape_open hClear.frames hClear.working
        hClear.allows (hNotFind _ (Or.inl rfl))
    intro hEq
    cases hEq
  · intro e _
    exact hClear
  · have hInner :
        Clear target [Frame.fresh, Frame.fresh]
          { l with session := l.session.begin } := by
      refine ⟨?_, ?_, hClear.held, hClear.own,
        hClear.working⟩
      · simp [Session.begin, hClear.frames]
      · intro fr hMem
        have hFresh : fr = Frame.fresh := by
          simpa using hMem
        rw [hFresh]
        rfl
    refine
      Discipline.wp_mono (wp_createApiKey hInner) ?_ ?_
    · intro row l' hInserted
      have hFrames := hInserted.frames
      refine
        ⟨_, ?_, hFrames, rfl, ?_, hInserted.owner,
          insertApiKey row, [.apiKey user], ?_⟩
      · intro o hSame
        cases hSame
        refine ⟨hInserted.working, ?_, ?_, ?_, ?_⟩
        · intro fr hMem d
          rw [hFrames] at hMem
          rcases List.mem_cons.mp hMem with rfl | hOuter
          · exact allows_insertApiKey hInserted.mine
          · rw [List.mem_singleton.mp hOuter]
            exact issued.allows_refl _ d
        · intro q d a lock f hEq
          cases hEq
        · intro key hEq
          cases hEq
        · intro u fr _ _ hOne
          rw [hFrames] at hOne
          cases hOne
      · intro e _
        apply clear_of_rollback hFrames _ hInserted.own
          hInserted.working
        intro k hNot
        rw [hInserted.held, Function.update_of_ne]
        rintro rfl
        exact hNot List.mem_cons_self
      · refine ⟨?_, ?_, ?_, hInserted.own,
          hInserted.working⟩
        · simp only [Session.merge, hFrames]
          rfl
        · intro d
          exact allows_insertApiKey hInserted.mine
        · intro d hHeld
          have hNone : d.findKey row.user = none := by
            rw [hInserted.owner]
            apply hHeld (.apiKey user) none
            simp [Session.merge, hFrames, hInserted.held]
          rw [← hInserted.owner]
          exact changes_insertApiKey hNone
    · rintro e l' ⟨b, hSpoilt⟩
      refine ⟨?_, ?_⟩
      · apply
          keyShape_open hSpoilt.frames hSpoilt.working
            hSpoilt.allows
            (hNotFind _ (Or.inr (Or.inr rfl)))
        intro hEq
        cases hEq
      · apply clear_of_rollback hSpoilt.frames _ hSpoilt.own
          hSpoilt.working
        intro k _
        rw [hSpoilt.held]

/- The user's row is found or created. -/
theorem wp_getOrCreateInside
    (hClear : Clear target [Frame.fresh] l) :
    (keyRegime calls).wp t (getOrCreateApiKey user)
      (fun row l' =>
        row.user = user ∧
          ∃ p locks, Drafting user target p locks l')
      (fun _ l' => FailedKey target l') l := by
  apply Discipline.wp_bind
  refine
    Discipline.wp_mono (wp_getApiKey hClear) ?_
      (fun _ _ hFailed => hFailed)
  rintro found l₁ ⟨hClear₁, hFound⟩
  cases found with
  | some row => exact ⟨hFound row rfl, _, _, hClear₁.drafting⟩
  | none =>
      apply Discipline.wp_tryCatch
      refine
        Discipline.wp_mono (wp_createInSavepoint hClear₁)
          (fun _ _ hDone => hDone) ?_
      intro e l₂ hClear₂
      split
      · apply Discipline.wp_bind
        refine
          Discipline.wp_mono (wp_getApiKey hClear₂) ?_
            (fun _ _ hFailed => hFailed)
        rintro winner l₃ ⟨hClear₃, hWinner⟩
        cases winner with
        | some row =>
            exact
              ⟨hWinner row rfl, _, _, hClear₃.drafting⟩
        | none => exact hClear₃.failedKey
      · exact hClear₂.failedKey

theorem wp_rotateApiKeyBody
    (hCall : KeyCall.target (calls t) = some user)
    (hClear : Clear (some user) [Frame.fresh] l) :
    (keyRegime calls).wp t
      (do
        let row ← getOrCreateApiKey user
        row.rotate)
      (fun _ l' => Replacing calls t l')
      (fun _ l' => FailedKey (some user) l') l := by
  apply Discipline.wp_bind
  refine
    Discipline.wp_mono (wp_getOrCreateInside hClear) ?_
      (fun _ _ hFailed => hFailed)
  rintro row l' ⟨hUser, p, locks, hDrafting⟩
  exact wp_rotate hCall hDrafting hUser

/- `rotate_api_key` of a call at rest. -/
theorem wp_rotateApiKey
    (hCall : KeyCall.target (calls t) = some user)
    (hRest : Regime.Resting (some user) n l)
    (hWorking : n.committed = false) :
    (keyRegime calls).wp t (rotateApiKey user)
      (fun _ l' => l'.note.committed = true)
      (fun _ _ => True) l := by
  apply Regime.wp_atomic_rest _ hRest
  · intro e l' _ _
    trivial
  · intro l₀ hSession hOwn hNote
    have hClear : Clear (some user) [Frame.fresh] l₀ := by
      refine ⟨?_, ?_, ?_, hOwn, ?_⟩
      · rw [hSession]
        rfl
      · intro fr hMem
        rw [List.mem_singleton.mp hMem]
        rfl
      · rw [hSession]
        rfl
      · rw [hNote]
        exact hWorking
    refine
      Discipline.wp_mono (wp_rotateApiKeyBody hCall hClear) ?_
        ?_
    · rintro row l' ⟨hShape, fr, n', hConcludes⟩
      rw [hCall] at hConcludes
      exact ⟨hShape, fr, n', hConcludes, fun _ _ _ _ => trivial⟩
    · intro e l' hFailed
      rcases hFailed.frames with ⟨fr, hFrames, hAllows⟩
      refine
        ⟨?_, l'.note, ⟨⟨fr, hFrames⟩, hFailed.own, rfl⟩,
          fun _ _ => trivial⟩
      apply keyShape_open hFrames hFailed.working
      · intro fr' hMem
        rw [List.mem_singleton.mp hMem]
        exact hAllows
      · intro key hEq
        cases hEq
      · intro hEq
        cases hEq
  · apply keyShape_rest hRest hWorking
    intro q d a lock f hEq
    cases hEq

------------------------------------------------------------
-- Calls at Rest
------------------------------------------------------------

/- The lookup of the user's key, outside a transaction. -/
theorem wp_getApiKeyAtRest
    (hRest : Regime.Resting target n l)
    (hWorking : n.committed = false) :
    (keyRegime calls).wp t (query (.getApiKey user))
      (fun _ l' => Regime.Resting (KeyCall.target (calls t))
        n l')
      (fun _ l' => Regime.Resting target n l') l := by
  apply Regime.wp_execute_rest _ hRest
  · intro e l' hRest' _
    exact hRest'
  · intro d ns live _ x a d' _ hReply
    cases hReply
  · intro d ns live hRests _
    refine ⟨?_, fun l' hRest' => hRest'⟩
    apply Regime.publishable_refl
    exact Regime.inv_same hRests.inv hRests.note
  · apply keyShape_rest hRest hWorking
    rintro q d a lock f hEq hPlan
    cases hEq
    exact allows_of_read rfl hPlan

/- The creation of the key in a transaction of its own. -/
theorem wp_createAtRest
    (hRest : Regime.Resting none n l)
    (hWorking : n.committed = false) :
    (keyRegime calls).wp t (atomic (createApiKey user))
      (fun _ _ => True)
      (fun _ l' =>
        ∃ n', Regime.Resting none n' l' ∧
          n'.committed = false)
      l := by
  apply Regime.wp_atomic_rest _ hRest
  · intro e l' hRest' _
    exact ⟨n, hRest', hWorking⟩
  · intro l₀ hSession hOwn hNote
    have hClear : Clear none [Frame.fresh] l₀ := by
      refine ⟨?_, ?_, ?_, hOwn, ?_⟩
      · rw [hSession]
        rfl
      · intro fr hMem
        rw [List.mem_singleton.mp hMem]
        rfl
      · rw [hSession]
        rfl
      · rw [hNote]
        exact hWorking
    refine Discipline.wp_mono (wp_createApiKey hClear) ?_ ?_
    · intro row l' hInserted
      have hFrames := hInserted.frames
      refine
        ⟨?_, _, l'.note, ⟨hFrames, rfl, hInserted.own, rfl,
          ?_⟩, ?_⟩
      · intro o hSame
        cases hSame
        refine ⟨hInserted.working, ?_, ?_, ?_, ?_⟩
        · intro fr hMem d
          rw [hFrames, List.mem_singleton] at hMem
          rw [hMem]
          exact allows_insertApiKey hInserted.mine
        · intro q d a lock f hEq
          cases hEq
        · intro key hEq
          cases hEq
        · intro u fr _ hSome
          rw [hInserted.own] at hSome
          cases hSome
      · intro d ns live hFits
        have hNone : d.findKey row.user = none := by
          rw [hInserted.owner]
          apply hFits.held (.apiKey user) none
          simp [hInserted.held]
        have hChanges := changes_insertApiKey hNone
        refine
          ⟨⟨?_, trivial, fun _ _ => rfl, ?_⟩,
            fun _ _ => trivial⟩
        · apply hFits.inv.replace hChanges _ rfl
          intro key hHolds
          rw [hFits.note]
          rcases holds_of_insert hHolds with hOld | rfl
          · rcases hOld with ⟨old, hFind, _⟩
            rw [hNone] at hFind
            cases hFind
          · exact hInserted.mine
        · intro k hFree
          cases k with
          | user u => rfl
          | unique field value => rfl
          | apiKey u =>
              apply hChanges.others
              rintro rfl
              apply hFree
              simp [hInserted.held, hInserted.owner]
      · intro e l'' _ hRest'
        exact ⟨_, hRest', hInserted.working⟩
    · rintro e l' ⟨b, hSpoilt⟩
      refine
        ⟨?_, l'.note, ⟨⟨_, hSpoilt.frames⟩, hSpoilt.own, rfl⟩,
          fun l'' hRest' => ⟨_, hRest', hSpoilt.working⟩⟩
      apply
        keyShape_open hSpoilt.frames hSpoilt.working
          hSpoilt.allows
      · intro key hEq
        cases hEq
      · intro hEq
        cases hEq
  · apply keyShape_rest hRest hWorking
    intro q d a lock f hEq
    cases hEq

theorem wp_getOrCreateAtRest
    (hCall : KeyCall.target (calls t) = none)
    (hRest : Regime.Resting none n l)
    (hWorking : n.committed = false) :
    (keyRegime calls).wp t (getOrCreateApiKey user)
      (fun _ _ => True) (fun _ _ => True) l := by
  have hLookup :
      ∀ {n' : KeyNote} {l' : KeyLocal},
        Regime.Resting none n' l' → n'.committed = false →
          (keyRegime calls).wp t (query (.getApiKey user))
            (fun _ l'' => Regime.Resting none n' l'')
            (fun _ _ => True) l' := by
    intro n' l' hRest' hWorking'
    refine
      Discipline.wp_mono
        (wp_getApiKeyAtRest hRest' hWorking') ?_
        (fun _ _ _ => trivial)
    intro found l'' hRest''
    rw [hCall] at hRest''
    exact hRest''
  apply Discipline.wp_bind
  refine
    Discipline.wp_mono (hLookup hRest hWorking) ?_
      (fun _ _ _ => trivial)
  intro found l₁ hRest₁
  cases found with
  | some row => trivial
  | none =>
      apply Discipline.wp_tryCatch
      refine
        Discipline.wp_mono
          (wp_createAtRest hRest₁ hWorking)
          (fun _ _ _ => trivial) ?_
      rintro e l₂ ⟨n₂, hRest₂, hWorking₂⟩
      split
      · apply Discipline.wp_bind
        refine
          Discipline.wp_mono (hLookup hRest₂ hWorking₂) ?_
            (fun _ _ _ => trivial)
        intro winner l₃ _
        cases winner with
        | some row => trivial
        | none => trivial
      · trivial

/- The time of the last use. -/
def touch
    (now : Time)
    (row : ApiKey) : ApiKey :=
  { row with lastUsedAt := some now }

theorem wp_touchApiKey
    {now : Time}
    (hRest : Regime.Resting target n l)
    (hWorking : n.committed = false) :
    (keyRegime calls).wp t (query (.touchApiKey user now))
      (fun _ _ => True) (fun _ _ => True) l := by
  have hUser : ∀ row, (touch now row).user = row.user :=
    fun _ => rfl
  have hKey : ∀ row, (touch now row).key = row.key :=
    fun _ => rfl
  apply Regime.wp_execute_rest _ hRest
  · intro e l' _ _
    trivial
  · intro d ns live _ x a d' _ hReply
    cases hReply
  · intro d ns live hRests _
    have hSame :
        KeyInv d (Function.update ns t n) :=
      Regime.inv_same (R := keyRegime calls) hRests.inv
        hRests.note
    simp only [backend, plan]
    split
    · exact
        ⟨Regime.publishable_refl hSame, fun _ _ => trivial⟩
    · refine
        ⟨⟨hSame.touch (f := touch now) hUser hKey, trivial,
          fun _ _ => rfl, ?_⟩, fun _ _ => trivial⟩
      intro k hFree
      cases k with
      | user u => rfl
      | unique field value => rfl
      | apiKey u =>
          apply (changes_updateApiKey hUser).others
          rintro rfl
          exact hFree rfl
  · apply keyShape_rest hRest hWorking
    intro q d a lock f hEq hPlan
    cases hEq
    simp only [backend, plan] at hPlan
    split at hPlan
    · cases hPlan
      exact issued.allows_refl n d
    · cases hPlan
      refine ⟨?_, fun _ hDrawn => hDrawn⟩
      intro v hStored
      left
      exact
        (holds_updateApiKey (f := touch now) hUser hKey).mp
          hStored

theorem wp_authenticate
    {header : Option String}
    {now : Time}
    (hRest : Regime.Resting target n l)
    (hWorking : n.committed = false) :
    (keyRegime calls).wp t (authenticate header now)
      (fun _ _ => True) (fun _ _ => True) l := by
  unfold authenticate
  split
  · trivial
  · split
    · trivial
    · apply Discipline.wp_bind
      apply Regime.wp_execute_rest _ hRest
      · intro e l' _ _
        trivial
      · intro d ns live _ x a d' _ hReply
        cases hReply
      · intro d ns live hRests _
        refine ⟨?_, ?_⟩
        · apply Regime.publishable_refl
          exact Regime.inv_same hRests.inv hRests.note
        · intro l' hRest'
          split
          · trivial
          · split
            · trivial
            · apply Discipline.wp_bind
              refine
                Discipline.wp_mono
                  (wp_touchApiKey hRest' hWorking)
                  (fun _ _ _ => trivial)
                  (fun _ _ _ => trivial)
      · apply keyShape_rest hRest hWorking
        intro q d a lock f hEq hPlan
        cases hEq
        exact allows_of_read rfl hPlan

------------------------------------------------------------
-- Verification
------------------------------------------------------------

/- A rotation that has returned has committed. -/
def Settled
    (calls : Tid → Option KeyCall)
    (t : Tid)
    (l : KeyLocal) : Prop :=
  KeyCall.target (calls t) ≠ none → l.note.committed = true

theorem wp_keyProgram
    (hRest :
      Regime.Resting (KeyCall.target (calls t)) .fresh l) :
    (keyRegime calls).wp t (KeyCall.program (calls t))
      (fun _ l' => Settled calls t l') (fun _ _ => True)
      l := by
  cases hCall : calls t with
  | none =>
      intro hTarget
      rw [hCall] at hTarget
      exact absurd rfl hTarget
  | some call =>
      cases call with
      | getOrCreate user =>
          have hTarget : KeyCall.target (calls t) = none := by
            rw [hCall]
            rfl
          rw [hTarget] at hRest
          apply Discipline.wp_bind
          refine
            Discipline.wp_mono
              (wp_getOrCreateAtRest hTarget hRest rfl) ?_
              (fun _ _ _ => trivial)
          intro row l' _ hSome
          exact absurd hTarget hSome
      | rotate user =>
          have hTarget :
              KeyCall.target (calls t) = some user := by
            rw [hCall]
            rfl
          rw [hTarget] at hRest
          apply Discipline.wp_bind
          refine
            Discipline.wp_mono
              (wp_rotateApiKey hTarget hRest rfl) ?_
              (fun _ _ _ => trivial)
          intro row l' hCommitted _
          exact hCommitted
      | present header now =>
          have hTarget : KeyCall.target (calls t) = none := by
            rw [hCall]
            rfl
          apply Discipline.wp_bind
          refine
            Discipline.wp_mono (wp_authenticate hRest rfl) ?_
              (fun _ _ _ => trivial)
          intro found l' _ hSome
          exact absurd hTarget hSome

theorem verified_keys
    (calls : Tid → Option KeyCall)
    (hIssued : d.Issued) :
    (keyRegime calls).Verified
      (fun t _ l => Settled calls t l) (fun _ _ _ => True) d
      (fun _ => .fresh) (startKeys calls d) where
  quiet := rfl
  inv := by
    refine ⟨hIssued, ?_, ?_, ?_⟩
    · intro key user _ t hMem
      cases hMem
    · intro t key hMem
      cases hMem
    · intro t t' key hMem
      cases hMem
  threads := fun _ =>
    ⟨_, rfl, wp_keyProgram ⟨rfl, rfl, rfl⟩⟩
  ret := fun _ _ _ _ _ hNone => by cases hNone
  raise := fun _ _ _ _ _ hNone => by cases hNone
  lose := by
    intro w ls t hHolds _ _
    refine ⟨?_, fun _ hNone => by cases hNone⟩
    change KeyInv _ (Function.update _ t (ls t).note)
    rw [Function.update_eq_self]
    exact hHolds.1.1

end SiteAnalysis.Users
