import SiteAnalysis.Users.Statements

/-
  This file proves which users an API key admits and which
  users a token admits, over every interleaving of the calls
  of all services of the users.

  No service takes a key away or changes whether a user is
  active.  A key reaches its user by a join, and a token by
  the default manager, so the two differ for soft-deleted
  users.

  Key definitions include:
    * `startUsers`
    * `Db.AdmitsToken`
    * `Harmless`
    * `Admitting`

  Key theorems include:
    * `harmless_of_uses`
    * `keeps_admitting`
    * `keys_outlive_soft_deletion`
-/

------------------------------------------------------------
-- Runs of All Services
------------------------------------------------------------

namespace SiteAnalysis.Users

open Concurrency
open Relational
open Python

abbrev UserWorld :=
  World (Store Db Lock) (TxOp AccountStatement)
    (TxOp.Res AccountStatement.Answer) Exc Unit

def startUsers
    (lib : AccountLibrary)
    (calls : Tid → Option UserCall)
    (d : Db) : UserWorld where
  shared := Store.quiet d
  threads := fun t =>
    .live (UserCall.program lib (calls t))

/-
  A request with a token of the user: the user is looked up
  through the default manager, and must be active.
-/
def Db.AdmitsToken
    (d : Db)
    (user : UserId) : Prop :=
  ∃ row, (d.find user).filter liveUser = some row ∧
    row.isActive = true

------------------------------------------------------------
-- Statements
------------------------------------------------------------

/-
  What a statement must not do: deactivate a user or a key,
  or insert one that is not active.
-/
def Harmless : AccountStatement → Prop
| .base (.insertUser row) => row.isActive = true
| .base (.saveUser _ fields) => .isActive ∉ fields
| .base (.insertApiKey row) =>
    row.isActive = true ∧ row.isDeleted = false
| .base (.saveApiKey object fields) =>
    .isActive ∈ fields → object.isActive = true
| _ => True

/- No service does any of that. -/
theorem harmless_of_uses
    {lib : AccountLibrary}
    {call : Option UserCall}
    (q : AccountStatement)
    (hUses : Uses lib call q) : Harmless q := by
  cases q with
  | saveColumns object fields => trivial
  | base q =>
      cases q with
      | insertUser row => exact hUses.1
      | saveUser object fields => exact hUses.1
      | insertApiKey row => exact hUses
      | saveApiKey object fields => exact hUses
      | _ => trivial

/- As active as the user is at the start, or registers. -/
def Db.expectsActive
    (d : Db)
    (user : UserId) : Bool :=
  match d.find user with
  | some row => row.isActive
  | none => true

/-
  Every key can be used, no user has gone, and the users are
  as active as expected.
-/
structure Admitting (d₀ d : Db) : Prop where
  keys :
    ∀ row ∈ d.apiKeys,
      row.isActive = true ∧ row.isDeleted = false
  stays :
    ∀ user, d.find user = none → d₀.find user = none
  active :
    ∀ user row, d.find user = some row →
      row.isActive = d₀.expectsActive user

variable {lib : AccountLibrary} {d₀ d d' : Db}
variable {calls : Tid → Option UserCall}

theorem admitting_self
    (hKeys :
      ∀ row ∈ d.apiKeys,
        row.isActive = true ∧ row.isDeleted = false) :
    Admitting d d where
  keys := hKeys
  stays := fun _ hNone => hNone
  active := by
    intro user row hFind
    rw [Db.expectsActive, hFind]

/- The same users, and keys that can be used. -/
theorem Admitting.of_users
    (hAdmitting : Admitting d₀ d)
    (hUsers : d'.users = d.users)
    (hKeys :
      ∀ row ∈ d'.apiKeys,
        row.isActive = true ∧ row.isDeleted = false) :
    Admitting d₀ d' where
  keys := hKeys
  stays := by
    unfold Db.find
    rw [hUsers]
    exact hAdmitting.stays
  active := by
    unfold Db.find
    rw [hUsers]
    exact hAdmitting.active

theorem Admitting.of_same
    (hAdmitting : Admitting d₀ d)
    (hUsers : d'.users = d.users)
    (hKeys : d'.apiKeys = d.apiKeys) :
    Admitting d₀ d' := by
  apply hAdmitting.of_users hUsers
  rw [hKeys]
  exact hAdmitting.keys

theorem Admitting.insert
    {row : User}
    (hAdmitting : Admitting d₀ d)
    (hActive : row.isActive = true) :
    Admitting d₀ (insertUser row d) where
  keys := hAdmitting.keys
  stays := by
    intro user hNone
    cases hBefore : d.find user with
    | none => exact hAdmitting.stays user hBefore
    | some old =>
        have hStill :
            Table.find User.id user (d.users ++ [row]) =
              some old :=
          Table.find_append_of_some hBefore
        change Table.find User.id user (d.users ++ [row]) = _
          at hNone
        rw [hStill] at hNone
        cases hNone
  active := by
    intro user found hFind
    change Table.find User.id user (d.users ++ [row]) = _
      at hFind
    cases hBefore : d.find user with
    | some old =>
        rw [Table.find_append_of_some hBefore] at hFind
        cases hFind
        exact hAdmitting.active user _ hBefore
    | none =>
        by_cases hId : row.id = user
        · subst hId
          rw [Table.find_append_self hBefore] at hFind
          cases hFind
          rw [hActive, Db.expectsActive,
            hAdmitting.stays _ hBefore]
        · rw [Table.find_append_of_ne hId] at hFind
          rw [Db.find, hFind] at hBefore
          cases hBefore

/- A row is rewritten that stays as active as it was. -/
theorem Admitting.update
    {id : UserId}
    {f : User → User}
    (hAdmitting : Admitting d₀ d)
    (hId : ∀ row, (f row).id = row.id)
    (hActive : ∀ row, (f row).isActive = row.isActive) :
    Admitting d₀ (updateUser id f d) := by
  have hKey : ∀ row : User, row.id = id → (f row).id = id :=
    fun row hRow => (hId row).trans hRow
  have hSelf :
      Table.find User.id id
          (Table.update User.id id f d.users) =
        (d.find id).map f :=
    Table.find_update_self hKey
  have hOther :
      ∀ user, user ≠ id →
        Table.find User.id user
            (Table.update User.id id f d.users) =
          d.find user :=
    fun user hNe => Table.find_update_of_ne hKey hNe
  refine ⟨hAdmitting.keys, ?_, ?_⟩
  · intro user hNone
    change Table.find User.id user
      (Table.update User.id id f d.users) = _ at hNone
    by_cases hUser : user = id
    · subst hUser
      rw [hSelf, Option.map_eq_none_iff] at hNone
      exact hAdmitting.stays _ hNone
    · rw [hOther user hUser] at hNone
      exact hAdmitting.stays user hNone
  · intro user row hFind
    change Table.find User.id user
      (Table.update User.id id f d.users) = _ at hFind
    by_cases hUser : user = id
    · subst hUser
      rw [hSelf, Option.map_eq_some_iff] at hFind
      rcases hFind with ⟨old, hOld, rfl⟩
      rw [hActive]
      exact hAdmitting.active _ old hOld
    · rw [hOther user hUser] at hFind
      exact hAdmitting.active user row hFind

/- A key is inserted, or rewritten, that can be used. -/
theorem Admitting.insertKey
    {row : ApiKey}
    (hAdmitting : Admitting d₀ d)
    (hUsable :
      row.isActive = true ∧ row.isDeleted = false) :
    Admitting d₀ (insertApiKey row d) := by
  refine hAdmitting.of_users ?_ ?_
  · rfl
  intro row' hMem
  rcases List.mem_append.mp hMem with hOld | hNew
  · exact hAdmitting.keys row' hOld
  · rw [List.mem_singleton.mp hNew]
    exact hUsable

theorem Admitting.updateKey
    {user : UserId}
    {f : ApiKey → ApiKey}
    (hAdmitting : Admitting d₀ d)
    (hUsable :
      ∀ row : ApiKey,
        row.isActive = true ∧ row.isDeleted = false →
          (f row).isActive = true ∧
            (f row).isDeleted = false) :
    Admitting d₀ (updateApiKey user f d) := by
  refine hAdmitting.of_users ?_ ?_
  · rfl
  intro row' hMem
  rcases List.mem_map.mp hMem with ⟨row, hRow, rfl⟩
  split
  · exact hUsable row (hAdmitting.keys row hRow)
  · exact hAdmitting.keys row hRow

/- No statement that is harmless shuts anybody out. -/
theorem admitting_of_plan
    {q : AccountStatement}
    {a : q.Answer}
    {lock : Option Lock}
    {f : Db → Db}
    (hHarmless : Harmless q)
    (hPlan : accountPlan q d = .done a lock f)
    (hAdmitting : Admitting d₀ d') :
    Admitting d₀ (f d') := by
  cases q with
  | saveColumns object fields =>
      simp only [accountPlan] at hPlan
      split at hPlan
      · cases hPlan
      · split at hPlan
        · cases hPlan
        · cases hPlan
          refine hAdmitting.update ?_ ?_
          · exact fun _ => rfl
          · exact fun _ => rfl
  | base q =>
      simp only [accountPlan] at hPlan
      cases q with
      | insertUser row =>
          simp only [plan] at hPlan
          split at hPlan
          · cases hPlan
          · split at hPlan
            · cases hPlan
            · cases hPlan
              exact hAdmitting.insert hHarmless
      | saveUser object fields =>
          simp only [plan] at hPlan
          split at hPlan
          · cases hPlan
          · cases hPlan
            refine hAdmitting.update ?_ ?_
            · exact fun _ => rfl
            · intro row
              exact if_neg hHarmless
      | insertApiKey row =>
          simp only [plan] at hPlan
          split at hPlan
          · cases hPlan
          · cases hPlan
            exact hAdmitting.insertKey hHarmless
      | saveApiKey object fields =>
          simp only [plan] at hPlan
          split at hPlan
          · cases hPlan
          · split at hPlan
            · cases hPlan
            · cases hPlan
              refine hAdmitting.updateKey ?_
              rintro row ⟨hActive, hLive⟩
              refine ⟨?_, hLive⟩
              by_cases hField : .isActive ∈ fields
              · simp [ApiKey.assign, hField,
                  hHarmless hField]
              · simp [ApiKey.assign, hField, hActive]
      | touchApiKey user now =>
          simp only [plan] at hPlan
          split at hPlan
          · cases hPlan
            exact hAdmitting
          · cases hPlan
            refine hAdmitting.updateKey ?_
            exact fun _ hUsable => hUsable
      | lockUser user =>
          simp only [plan] at hPlan
          split at hPlan <;> cases hPlan <;>
            exact hAdmitting
      | enterIndex field row =>
          simp only [plan] at hPlan
          split at hPlan
          · cases hPlan
          · cases hPlan
            exact hAdmitting
      | _ =>
          first
          | cases hPlan
            exact hAdmitting
          | cases hPlan

theorem keeps_admitting
    (d₀ : Db) :
    accounts.Keeps (Admitting d₀) (fun _ _ _ => True)
      (fun _ => Harmless) (fun _ _ => False) Looked where
  refl := fun _ _ => trivial
  trans := fun _ _ _ _ _ _ => trivial
  steadily := by
    intro t q d a lock f hHarmless _ hPlan
    refine ⟨looked_of_plan hPlan, ?_⟩
    intro d' hAdmitting
    exact
      ⟨admitting_of_plan hHarmless hPlan hAdmitting, trivial⟩
  instantly := fun _ _ _ _ _ _ hNever => hNever.elim
  reply := by
    intro t q x d a d' _ hAdmitting hReply
    refine ⟨looked_of_reply hReply, ?_, trivial⟩
    cases q with
    | saveColumns object fields => cases hReply
    | base q =>
        exact
          hAdmitting.of_same (users_of_reply hReply)
            (apiKeys_of_reply hReply)

------------------------------------------------------------
-- Runs
------------------------------------------------------------

variable {w : UserWorld}

theorem admitting_of_reaches
    (hKeys :
      ∀ row ∈ d.apiKeys,
        row.isActive = true ∧ row.isDeleted = false)
    (hReach :
      accounts.machine.Reaches Machine.anyEvent
        (startUsers lib calls d) w) :
    Admitting d w.shared.committed := by
  have hStart :
      Backend.Heeding (Admitting d) (fun _ _ _ => True)
        (fun _ => Harmless) (fun _ _ => False) Looked
        (startUsers lib calls d) := by
    apply Backend.heeding_of_quiet rfl
    · exact admitting_self hKeys
    · intro t p hLive
      cases hLive
      exact
        (executes_userCall lib (calls t)).weaken
          harmless_of_uses (fun _ hNever => hNever)
          (fun _ _ hLooked => hLooked)
  exact
    (Backend.heeding_of_reaches (keeps_admitting d) hStart
      hReach).committed

/- Who holds a key is let in if expected to be active. -/
theorem authenticates_iff
    {key : String}
    {user : UserId}
    (hAdmitting : Admitting d₀ d) :
    d.Authenticates key user ↔
      (∃ row ∈ d.apiKeys, row.key = key ∧ row.user = user) ∧
        (∃ owner, d.find user = some owner) ∧
          d₀.expectsActive user = true := by
  constructor
  · rintro ⟨row, owner, hMem, hKey, _, _, hUser, hFind,
      hActive⟩
    refine ⟨⟨row, hMem, hKey, hUser⟩, ⟨owner, hFind⟩, ?_⟩
    rw [← hAdmitting.active user owner hFind]
    exact hActive
  · rintro ⟨⟨row, hMem, hKey, hUser⟩, ⟨owner, hFind⟩,
      hExpected⟩
    have hUsable := hAdmitting.keys row hMem
    refine
      ⟨row, owner, hMem, hKey, hUsable.1, ?_, hUser, hFind,
        ?_⟩
    · simp [liveKey, hUsable.2]
    · rw [hAdmitting.active user owner hFind]
      exact hExpected

/- A user whom a key admits, and a token may not. -/
theorem admitsToken_iff
    {key : String}
    {user : UserId}
    (hAuth : d.Authenticates key user) :
    d.AdmitsToken user ↔
      ¬ ∃ owner, d.find user = some owner ∧
        owner.isDeleted = true := by
  rcases hAuth with
    ⟨_, owner, _, _, _, _, _, hFind, hActive⟩
  constructor
  · rintro ⟨row, hRow, _⟩ ⟨owner', hOwner', hDeleted⟩
    rw [Option.filter_eq_some_iff, hOwner'] at hRow
    rcases hRow with ⟨hSame, hLive⟩
    cases hSame
    simp [liveUser, hDeleted] at hLive
  · intro hShown
    refine ⟨owner, ?_, hActive⟩
    rw [Option.filter_eq_some_iff]
    refine ⟨hFind, ?_⟩
    simp only [liveUser, Bool.not_eq_true']
    rw [← Bool.not_eq_true]
    exact fun hDeleted => hShown ⟨owner, hFind, hDeleted⟩

/- The holder of a key is deleted. -/
def deleteHolder : Tid → Option UserCall
| 0 => some (.account (.softDelete holder.id 7))
| _ => none

end SiteAnalysis.Users
