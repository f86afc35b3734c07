import SiteAnalysis.Gtmetrix.Steps

/-
  This file proves when a submission starts at most one test.

  An attempt that reads a report without a test id is going
  to start a test, and the id is saved only after GTmetrix
  has answered.  A submission starts at most one test when no
  attempt reads the missing id in between.

  Key definitions include:
    * `start`
    * `LoadsFresh`
    * `Exclusive`
    * `regime`

  Key theorems include:
    * `wp_request`
    * `wp_runGtmetrixAnalysis`
    * `starts_at_most_one_test`
-/

------------------------------------------------------------
-- Attempts
------------------------------------------------------------

namespace SiteAnalysis.Gtmetrix

open Concurrency
open Relational
open Python
open Reports

abbrev TaskWorld :=
  World (Store Db HistoryKey) (TxOp Statement)
    (TxOp.Res Statement.Answer) Exc TaskOutcome

/-
  The attempts at one report, by retry or by redelivery;
  `retries` is the number that Celery passes to each.
-/
def start
    (settings : GtmetrixSettings)
    (repr : Json → String)
    (rounds retries : Tid → Nat)
    (reportId : ReportId)
    (d : Db) : TaskWorld where
  shared := Store.quiet d
  threads := fun t =>
    .live
      (runGtmetrixAnalysis settings repr (rounds t)
        (retries t) reportId)

/- The operation asks GTmetrix to run a test. -/
def IsPost (o : TxOp Statement) : Prop :=
  ∃ url auth timeout json,
    o =
      .query (.httpRequest "POST" url auth timeout json)

/- The row that an attempt reads, if it has no test id. -/
def untested
    (d : Db)
    (reportId : ReportId) : Option GTmetrixReport :=
  (d.find .gtmetrix reportId).filter fun row =>
    liveReport row && !(testIdOf row).truthy

/-
  An attempt reads a report without a test id only while
  GTmetrix has accepted no test for it and no other attempt
  is about to ask for one.
-/
def LoadsFresh
    (w : TaskWorld) : Event (Choice Exc Reply) → Prop
| .step t _ =>
    ∀ reportId,
      (w.threads t).head =
          some (.query (.getReport .gtmetrix reportId)) →
        untested w.shared.committed reportId ≠ none →
          w.shared.committed.posts = [] ∧
            ∀ t' o,
              (w.threads t').head = some o → ¬ IsPost o
| .lose _ => True

------------------------------------------------------------
-- The Invariant
------------------------------------------------------------

/- What is noted of an attempt: whether it will ask. -/
inductive Attempt
  | idle
  | posting
deriving DecidableEq

/-
  An attempt that will ask is the only one, and no test has
  been accepted then.
-/
structure Exclusive
    (d : Db)
    (ns : Tid → Attempt) : Prop where
  pending : ∀ t, ns t = .posting → d.posts = []
  unique :
    ∀ t t', ns t = .posting → ns t' = .posting → t' = t
  spent : d.posts.length ≤ 1

variable {d d' : Db} {ns : Tid → Attempt} {t : Tid}

theorem posting_of_update
    {t' : Tid}
    (hPosting :
      Function.update ns t .idle t' = .posting) :
    t' ≠ t ∧ ns t' = .posting := by
  by_cases hSame : t' = t
  · rw [hSame, Function.update_self] at hPosting
    cases hPosting
  · rw [Function.update_of_ne hSame] at hPosting
    exact ⟨hSame, hPosting⟩

/- An attempt that will not ask any more. -/
theorem Exclusive.settle
    (hExclusive : Exclusive d ns) :
    Exclusive d (Function.update ns t .idle) where
  pending := fun _ hPosting =>
    hExclusive.pending _ (posting_of_update hPosting).2
  unique := fun _ _ hLeft hRight =>
    hExclusive.unique _ _ (posting_of_update hLeft).2
      (posting_of_update hRight).2
  spent := hExclusive.spent

/- The invariant reads the accepted tests only. -/
theorem Exclusive.of_posts
    (hExclusive : Exclusive d ns)
    (hPosts : d'.posts = d.posts) : Exclusive d' ns where
  pending := fun t hPosting => by
    rw [hPosts]
    exact hExclusive.pending t hPosting
  unique := hExclusive.unique
  spent := by
    rw [hPosts]
    exact hExclusive.spent

/- An attempt that finds nothing accepted will ask. -/
theorem Exclusive.load
    (hExclusive : Exclusive d ns)
    (hPosts : d.posts = [])
    (hAlone : ∀ t', ns t' ≠ .posting) :
    Exclusive d (Function.update ns t .posting) where
  pending := fun _ _ => hPosts
  unique := by
    have hOnly :
        ∀ t', Function.update ns t .posting t' = .posting →
          t' = t := by
      intro t' hPosting
      by_contra hNe
      rw [Function.update_of_ne hNe] at hPosting
      exact hAlone t' hPosting
    intro t₁ t₂ hLeft hRight
    exact (hOnly t₂ hRight).trans (hOnly t₁ hLeft).symm
  spent := hExclusive.spent

/- GTmetrix accepts the test of the attempt that asks. -/
theorem Exclusive.accept
    {post : AcceptedPost}
    (hExclusive : Exclusive d ns)
    (hPosting : ns t = .posting)
    (hPosts : d'.posts = d.posts ++ [post]) :
    Exclusive d' (Function.update ns t .idle) where
  pending := by
    intro t' hOther
    have hBoth := posting_of_update hOther
    exact
      absurd (hExclusive.unique t t' hPosting hBoth.2)
        hBoth.1
  unique := hExclusive.settle.unique
  spent := by
    rw [hPosts, hExclusive.pending t hPosting]
    exact Nat.le_refl 1

------------------------------------------------------------
-- The Regime
------------------------------------------------------------

/- What is noted of an attempt that has loaded a report. -/
def noteLoaded
    (settings : GtmetrixSettings)
    (row : GTmetrixReport)
    (n : Attempt) : Attempt :=
  if (testIdOf row).truthy ∨ settings.apiKey = "" then
    n
  else
    .posting

def note
    (settings : GtmetrixSettings) :
    (q : Statement) → q.Answer → Attempt → Attempt
| .getReport .gtmetrix _, row, n =>
    noteLoaded settings row n
| .httpRequest _ _ _ _ _, _, _ => .idle
| _, _, n => n

def noteError : Statement → Attempt → Attempt
| .httpRequest _ _ _ _ _, _ => .idle
| _, n => n

theorem noteError_cases
    (q : Statement)
    (n : Attempt) :
    noteError q n = n ∨ noteError q n = .idle := by
  cases q <;> simp [noteError]

def regime
    (settings : GtmetrixSettings)
    (repr : Json → String) :
    Regime (backend repr) TaskOutcome Unit Unit Attempt where
  ok := LoadsFresh
  frag := fun _ _ => ()
  own := fun _ _ => ()
  inv := fun d ns _ => Exclusive d ns
  antitone := fun _ _ _ _ _ hInv => hInv
  guar := fun _ _ _ => True
  guar_refl := fun _ _ => trivial
  shape := fun l o =>
    l.note = .posting → ∃ post, o = some post ∧ IsPost post
  note := fun _ q a _ n => note settings q a n
  noteError := noteError
  inv_error := by
    intro t q d ns _ hInv
    rcases noteError_cases q (ns t) with hSame | hIdle
    · rw [hSame, Function.update_eq_self]
      exact hInv
    · rw [hIdle]
      exact hInv.settle
  noteCommit := fun _ _ n => n
  noteLost := fun _ => .idle

/- An attempt between its statements, with its note. -/
abbrev Rested (n : Attempt) :
    Regime.Local Db HistoryKey Unit Unit Attempt → Prop :=
  Regime.Resting () n

section Attempts

variable {settings : GtmetrixSettings}
variable {repr : Json → String}
variable {l : Regime.Local Db HistoryKey Unit Unit Attempt}
variable {n : Attempt} {live : Tid → Prop}

theorem publishable
    {mine : HistoryKey → Prop}
    (hInv : Exclusive d' (Function.update ns t n)) :
    (regime settings repr).Publishable t ns live mine d d'
      n where
  inv := hInv
  guar := trivial
  own := fun _ _ => rfl
  frag := fun _ _ => rfl

theorem shape_idle
    (hRest : Rested .idle l)
    (o : Option (TxOp Statement)) :
    (regime settings repr).shape l o := by
  intro hPosting
  rw [hRest.note] at hPosting
  cases hPosting

/- An attempt that is not noted stays so. -/
theorem exclusive_idle
    (hExclusive : Exclusive d ns)
    (hNote : ns t = .idle) :
    Exclusive d (Function.update ns t .idle) := by
  rw [← hNote, Function.update_eq_self]
  exact hExclusive

/-
  The rule of a statement that neither loads the report nor
  talks to GTmetrix.
-/
theorem wp_idle
    {q : Statement}
    {Q : q.Answer →
      Regime.Local Db HistoryKey Unit Unit Attempt → Prop}
    {E : Exc →
      Regime.Local Db HistoryKey Unit Unit Attempt → Prop}
    (hRest : Rested .idle l)
    (hNote : ∀ a, note settings q a .idle = .idle)
    (hReply :
      ∀ x a d d', reply q x d = some (a, d') →
        d'.posts = d.posts)
    (hPlan :
      ∀ d a lock f, plan repr q d = .done a lock f →
        (f d).posts = d.posts)
    (hRet : ∀ a l', Rested .idle l' → Q a l')
    (hRaise : ∀ e l', Rested .idle l' → E e l') :
    (regime settings repr).wp t (query q) Q E l := by
  have hError : noteError q .idle = .idle := by
    rcases noteError_cases q .idle with hSame | hIdle
    · exact hSame
    · exact hIdle
  apply Regime.wp_execute_rest (shape_idle hRest _) hRest
  · intro e l' hRest' _
    change Rested (noteError q .idle) l' at hRest'
    rw [hError] at hRest'
    exact hRaise e l' hRest'
  · intro d ns live hRests x a d' _ hAnswer
    change
      (regime settings repr).Publishable t ns live _ d d'
          (note settings q a .idle) ∧
        ∀ l', Rested (note settings q a .idle) l' → Q a l'
    rw [hNote a]
    refine ⟨publishable ?_, hRet a⟩
    exact
      (exclusive_idle hRests.inv hRests.note).of_posts
        (hReply x a d d' hAnswer)
  · intro d ns live hRests _
    change
      (regime settings repr).RestWp t q () .idle d ns live E
        Q (plan repr q d)
    cases hCase : plan repr q d with
    | refuse e => trivial
    | outside => trivial
    | miss e =>
        intro l' hRest'
        change Rested (noteError q .idle) l' at hRest'
        rw [hError] at hRest'
        exact hRaise e l' hRest'
    | done a lock f =>
        change
          (regime settings repr).Publishable t ns live _ d
              (f d) (note settings q a .idle) ∧
            ∀ l', Rested (note settings q a .idle) l' →
              Q a l'
        rw [hNote a]
        refine ⟨publishable ?_, hRet a⟩
        exact
          (exclusive_idle hRests.inv hRests.note).of_posts
            (hPlan d a lock f hCase)

------------------------------------------------------------
-- Statements
------------------------------------------------------------

/- A write of the report leaves what GTmetrix has accepted. -/
theorem posts_of_writeReport
    {object : GTmetrixReport}
    {a : Unit}
    {lock : Option HistoryKey}
    {f : Db → Db}
    (hWrite : writeReport repr object = .done a lock f) :
    (f d).posts = d.posts := by
  rcases writeReport_eq_done hWrite with ⟨_, row, _, _, rfl⟩
  rfl

/- The rule of a statement, on the way to any outcome. -/
abbrev Settles
    {β : Type}
    (settings : GtmetrixSettings)
    (repr : Json → String)
    (t : Tid)
    (p : Service β)
    (l : Regime.Local Db HistoryKey Unit Unit Attempt) :
    Prop :=
  (regime settings repr).wp t p (fun _ => Rested .idle)
    (fun _ => Rested .idle) l

theorem settles_ofExcept
    {β : Type}
    (hRest : Rested .idle l)
    (r : Except Exc β) :
    Settles settings repr t (Prog.ofExcept r) l := by
  cases r <;> exact hRest

theorem settles_saveReport
    (hRest : Rested .idle l)
    (object : GTmetrixReport) :
    Settles settings repr t
      (query (.saveReport .gtmetrix object)) l :=
  wp_idle hRest (fun _ => rfl)
    (fun _ _ _ _ hReply => by cases hReply)
    (fun _ _ _ _ hPlan => posts_of_writeReport hPlan)
    (fun _ _ hRest' => hRest') (fun _ _ hRest' => hRest')

theorem settles_saveReportFields
    (hRest : Rested .idle l)
    (object : GTmetrixReport)
    (fields : List ReportField) :
    Settles settings repr t
      (query (.saveReportFields .gtmetrix object fields))
      l := by
  apply wp_idle hRest (fun _ => rfl)
  · intro x a d d' hReply
    cases hReply
  · intro d a lock f hPlan
    simp only [plan] at hPlan
    split at hPlan
    · cases hPlan
    · exact posts_of_writeReport hPlan
  · intro a l' hRest'
    exact hRest'
  · intro e l' hRest'
    exact hRest'

theorem settles_monotonic
    (hRest : Rested .idle l) :
    Settles settings repr t (query .monotonic) l := by
  apply wp_idle hRest (fun _ => rfl)
  · intro x a d d' hReply
    cases x with
    | clock seconds =>
        cases hReply
        rfl
    | _ => cases hReply
  · intro d a lock f hPlan
    cases hPlan
  · intro a l' hRest'
    exact hRest'
  · intro e l' hRest'
    exact hRest'

theorem settles_sleep
    (hRest : Rested .idle l)
    (seconds : Rat) :
    Settles settings repr t (query (.sleep seconds)) l := by
  apply wp_idle hRest (fun _ => rfl)
  · intro x a d d' hReply
    cases x with
    | done =>
        cases hReply
        rfl
    | _ => cases hReply
  · intro d a lock f hPlan
    cases hPlan
  · intro a l' hRest'
    exact hRest'
  · intro e l' hRest'
    exact hRest'

/- The end of what is looked at. -/
theorem wp_cutOff
    {Q : Empty →
      Regime.Local Db HistoryKey Unit Unit Attempt → Prop}
    (hRest : Rested .idle l) :
    (regime settings repr).wp t (query .cutOff) Q
      (fun _ => Rested .idle) l := by
  apply wp_idle hRest (fun a => Empty.elim a)
  · intro x a d d' hReply
    exact Empty.elim a
  · intro d a lock f hPlan
    exact Empty.elim a
  · intro a l' hRest'
    exact Empty.elim a
  · intro e l' hRest'
    exact hRest'

/-
  A request.  The one that asks for a test is the attempt's
  only one, and it is the only attempt that asks.
-/
theorem settles_request
    (hRest : Rested n l)
    (method path : String)
    (json : Option Json)
    (hAsks :
      settings.apiKey ≠ "" →
        (n = .posting ↔ method = "POST"))
    (hNoKey : settings.apiKey = "" → n = .idle) :
    Settles settings repr t
      (request settings repr method path json) l := by
  unfold request
  split
  · rename_i hKey
    rw [hNoKey hKey] at hRest
    exact hRest
  · rename_i hKey
    apply Discipline.wp_bind
    apply Regime.wp_execute_rest _ hRest
    · intro e l' hRest' _
      exact hRest'
    · intro d ns live hRests x outcome d' _ hReply
      have hNoted := hRests.note
      have hSettled :
          Exclusive d' (Function.update ns t .idle) := by
        cases x with
        | http answer accepted =>
            simp only [backend, reply, Option.some.injEq,
              Prod.mk.injEq] at hReply
            rw [← hReply.2]
            split
            · rename_i hPost
              rw [(hAsks hKey).mpr hPost.1] at hNoted
              exact hRests.inv.accept hNoted rfl
            · exact hRests.inv.settle
        | _ => cases hReply
      refine ⟨publishable hSettled, ?_⟩
      intro l' hRest'
      exact settles_ofExcept hRest' _
    · intro d ns live _ _
      trivial
    · intro hPosting
      rw [hRest.note] at hPosting
      rw [(hAsks hKey).mp hPosting]
      exact ⟨_, rfl, _, _, _, _, rfl⟩

theorem settles_get
    (hRest : Rested .idle l)
    (path : String) :
    Settles settings repr t
      (request settings repr "GET" path none) l := by
  apply settles_request hRest
  · intro _
    simp
  · intro _
    rfl

------------------------------------------------------------
-- Programs
------------------------------------------------------------

theorem steps_idle :
    Steps (regime settings repr) t settings (Rested .idle)
      (fun _ => Rested .idle) where
  raise := fun _ _ hRest => hRest
  get := fun path _ hRest => settles_get hRest path
  saveTestId := fun object _ hRest =>
    settles_saveReportFields hRest object _
  monotonic := fun _ hRest => settles_monotonic hRest
  sleep := fun seconds _ hRest => settles_sleep hRest seconds
  cutOff := fun _ hRest => wp_cutOff hRest

/- The block that may start the test. -/
theorem settles_runTest
    (rounds : Nat)
    (report : GTmetrixReport)
    (hRest : Rested (noteLoaded settings report .idle) l) :
    Settles settings repr t
      (runTest settings repr rounds report) l := by
  apply wp_runTest rounds report steps_idle
  · intro hTest
    rw [noteLoaded, if_pos (Or.inl hTest)] at hRest
    exact hRest
  · intro hTest
    apply settles_request hRest
    · intro hKey
      simp [noteLoaded, hTest, hKey]
    · intro hKey
      simp [noteLoaded, hKey]

theorem settles_failReport
    {β : Type}
    (report : GTmetrixReport)
    (e : Exc)
    (hRest : Rested .idle l) :
    Settles settings repr t
      (failReport .gtmetrix report e : Service β) l := by
  apply wp_next (settles_saveReportFields hRest _ _)
  intro _ l₁ hRest₁
  exact hRest₁

/- The load of the report, under the condition. -/
theorem wp_getReport
    {reportId : ReportId}
    {Q : GTmetrixReport →
      Regime.Local Db HistoryKey Unit Unit Attempt → Prop}
    (hRest : Rested .idle l)
    (hRet :
      ∀ row l', Rested (noteLoaded settings row .idle) l' →
        Q row l') :
    (regime settings repr).wp t
      (query (.getReport .gtmetrix reportId)) Q
      (fun _ => Rested .idle) l := by
  apply Regime.wp_execute_rest (shape_idle hRest _) hRest
  · intro e l' hRest' _
    exact hRest'
  · intro d ns live _ x a d' _ hReply
    cases hReply
  · intro d ns live hRests hPermits
    simp only [backend, plan]
    split
    · rename_i row hRow
      refine ⟨publishable ?_, fun l' hRest' => hRet row l' hRest'⟩
      change
        Exclusive d
          (Function.update ns t (noteLoaded settings row .idle))
      by_cases hQuiet :
          (testIdOf row).truthy ∨ settings.apiKey = ""
      · rw [noteLoaded, if_pos hQuiet]
        exact exclusive_idle hRests.inv hRests.note
      · rw [noteLoaded, if_neg hQuiet]
        rcases hPermits.world with
          ⟨w, ls, hHolds, rfl, rfl, _, hHead, hOk⟩
        have hUntested :
            untested w.shared.committed reportId ≠ none := by
          rw [Option.filter_eq_some_iff] at hRow
          simp only [not_or, Bool.not_eq_true] at hQuiet
          simp [untested, hRow.1, hRow.2, hQuiet.1]
        have hFresh := hOk reportId hHead hUntested
        apply hRests.inv.load hFresh.1
        intro t' hPosting
        rcases hHolds.2 t' hPosting with
          ⟨post, hHead', hPost⟩
        exact hFresh.2 t' post hHead' hPost
    · intro l' hRest'
      exact hRest'

theorem settles_processGtmetrix
    (rounds : Nat)
    (reportId : ReportId)
    (hRest : Rested .idle l) :
    Settles settings repr t
      (processGtmetrix settings repr rounds reportId) l := by
  apply Discipline.wp_bind
  apply wp_getReport hRest
  intro report l₁ hRest₁
  have hTry :
      Settles settings repr t
        ((runTest settings repr rounds report).tryCatch
          (failReport .gtmetrix report))
        l₁ := by
    apply Discipline.wp_tryCatch
    apply
      Discipline.wp_mono
        (settles_runTest rounds report hRest₁)
    · intro result l₂ hRest₂
      exact hRest₂
    · intro e l₂ hRest₂
      exact settles_failReport report e hRest₂
  apply wp_next hTry
  intro result l₂ hRest₂
  apply wp_next (settles_saveReport hRest₂ _)
  intro _ l₃ hRest₃
  exact hRest₃

theorem settles_handleFailure
    (retries : Nat)
    (e : Exc)
    (hRest : Rested .idle l) :
    Settles settings repr t (handleFailure retries e) l := by
  unfold handleFailure
  repeat' split
  all_goals exact hRest

theorem wp_runGtmetrixAnalysis
    (rounds retries : Nat)
    (reportId : ReportId)
    (hRest : Rested .idle l) :
    Settles settings repr t
      (runGtmetrixAnalysis settings repr rounds retries
        reportId)
      l := by
  apply Discipline.wp_handle
  apply
    Discipline.wp_mono
      (settles_processGtmetrix rounds reportId hRest)
  · intro report l₁ hRest₁
    exact hRest₁
  · intro e l₁ hRest₁
    exact settles_handleFailure retries e hRest₁

------------------------------------------------------------
-- Runs
------------------------------------------------------------

variable {rounds retries : Tid → Nat}
variable {reportId : ReportId}

theorem verified_start
    (hPosts : d.posts = []) :
    (regime settings repr).Verified
      (fun _ _ => Rested .idle) (fun _ _ => Rested .idle) d
      (fun _ => .idle)
      (start settings repr rounds retries reportId d) where
  quiet := rfl
  inv :=
    { pending := fun _ _ => hPosts
      unique := fun _ _ hLeft _ => by cases hLeft
      spent := by
        rw [hPosts]
        exact Nat.zero_le 1 }
  threads := by
    intro t
    refine ⟨_, rfl, ?_⟩
    apply wp_runGtmetrixAnalysis
    exact ⟨rfl, rfl, rfl⟩
  ret := fun _ _ _ hRest => shape_idle hRest none
  raise := fun _ _ _ hRest => shape_idle hRest none
  lose := by
    intro w ls t hHolds _ _
    refine ⟨hHolds.1.1.settle, ?_⟩
    intro hPosting
    cases hPosting

/-
  In every run in which the report is loaded without a test
  id only before a test is accepted and while no other
  attempt is about to ask, GTmetrix accepts at most one test.
-/
theorem starts_at_most_one_test
    {w : TaskWorld}
    (hPosts : d.posts = [])
    (hReach :
      (backend repr).machine.Reaches LoadsFresh
        (start settings repr rounds retries reportId d) w) :
    w.shared.committed.posts.length ≤ 1 := by
  rcases
    (verified_start hPosts).inv_of_reaches hReach with
    ⟨_, hExclusive⟩
  exact hExclusive.spent

end Attempts

------------------------------------------------------------
-- A Lost Worker
------------------------------------------------------------

/- A report that has just been submitted. -/
def submittedReport : GTmetrixReport where
  id := 0
  user := none
  url := "https://a.io/"
  status := .pending
  errorMessage := ""
  rawResponse := .obj []
  isDeleted := false
  deletedAt := none
  columns := { values := GTmetrixField.initial }

def submitted : Db where
  reports := fun
    | .gtmetrix => [submittedReport]
    | .analysis => []
    | .ssl => []
  histories := []
  cache := fun _ => none
  posts := []

def someSettings : GtmetrixSettings where
  apiKey := "key"
  baseUrl := "https://gtmetrix.com/api/2.0/"
  requestTimeout := 30
  pollInterval := 5
  pollMaxSeconds := 300

/- The attempts at the report; none polls. -/
def attempts : TaskWorld :=
  start someSettings (fun _ => "") (fun _ => 0) (fun _ => 0) 0
    submitted

/- The answer of GTmetrix to an accepted request. -/
def testQueued : HttpOutcome :=
  .response
    ⟨200, .json (.obj [("data", .obj [("id", .str "t1")])])⟩

/- One attempt asks for the test and saves its id. -/
theorem starts_at_most_one_test_once :
    ∃ w : TaskWorld,
      (backend (fun _ => "")).machine.Reaches LoadsFresh
          attempts w ∧
        w.shared.committed.posts.length = 1 := by
  let first : Event (Choice Exc Reply) := .step 0 .proceed
  let second : Event (Choice Exc Reply) :=
    .step 0 (.reply (.http testQueued true))
  have hFirst : LoadsFresh attempts first := by
    intro reportId _ _
    refine ⟨rfl, ?_⟩
    rintro t' o hHead ⟨url, auth, timeout, json, rfl⟩
    cases hHead
  have hReach :
      (backend (fun _ => "")).machine.Reaches LoadsFresh
        attempts
        ((((backend (fun _ => "")).machine.replay attempts
          [first, second]).getD attempts)) := by
    apply
      (Machine.Reaches.refl.tail (e := first) hFirst rfl).tail
        (e := second)
    · intro reportId hHead
      cases hHead
    · rfl
  have hAtMost :=
    starts_at_most_one_test (d := submitted) rfl hReach
  exact ⟨_, hReach, le_antisymm hAtMost (Nat.le_refl 1)⟩

/-
  A worker is lost after GTmetrix has accepted the test, and
  the redelivered task asks again.
-/
theorem redelivery_starts_second_test :
    ¬ ∀ w : TaskWorld,
      (backend (fun _ => "")).machine.Reaches
          Machine.anyEvent attempts w →
        w.shared.committed.posts.length ≤ 1 := by
  intro hAtMost
  have hReach :=
    Machine.reaches_of_replay
      (M := (backend (fun _ => "")).machine)
      (w := attempts)
      [.step 0 .proceed,
        .step 0 (.reply (.http testQueued true)),
        .lose 0, .step 1 .proceed,
        .step 1 (.reply (.http testQueued true))]
      rfl
  exact absurd (hAtMost _ hReach) (by decide)

end SiteAnalysis.Gtmetrix
