import OburBackend.Model.Tables
import OburBackend.Sql.Dml

/-!
# Whose rows a statement can write

The services never send an arbitrary statement, and the policies are there for the day on which one
does. Whatever `INSERT`, `UPDATE` or `DELETE` a session without administrator rights runs on a table
with an owner: the rows that it adds, changes or takes away are the user's own, before and after
(`statements_write_only_own`).
-/

namespace OburBackend

open Sql

variable {me : Identity} {db : Db}

/-- What a session can do to the rows of `T` by any statement, whatever the constraints `accepts`
make of it. A row version that a user's statement takes away is `owned` by the user, and one that
it adds is owned by the user and `allowed`; without an identity a statement leaves the rows
alone. -/
def WritesOnlyOwn {ρ π : Type} [DecidableEq π] {key : ρ → π} (T : DbTable key)
    (owned allowed : Db → Uuid → ρ → Prop) : Prop :=
  ∀ (db : Db) (accepts : List ρ → Bool) (st : Dml ρ) (t : Table key),
    (∀ u, ¬ db.IsAdmin (some u) →
      (T.policy (some u) db).run accepts st (T.read db) = .ok t →
        (∀ r ∈ T.read db, r ∉ t → owned db u r) ∧
          ∀ r ∈ t, r ∉ T.read db → owned db u r ∧ allowed db u r) ∧
      ((T.policy none db).run accepts st (T.read db) = .ok t → ∀ r, r ∈ t ↔ r ∈ T.read db)

/-- What the policies confine a session to, its statements keep to. -/
theorem writesOnlyOwn_of_confines {ρ π : Type} [DecidableEq π] {key : ρ → π} {T : DbTable key}
    {owned allowed : Db → Uuid → ρ → Prop}
    (h : ∀ (me : Identity) (db : Db), ¬ db.IsAdmin me → (T.policy me db).Confines
      (fun r => ∃ u, me = some u ∧ owned db u r)
      fun r => ∃ u, me = some u ∧ owned db u r ∧ allowed db u r) :
    WritesOnlyOwn T owned allowed := by
  intro db accepts st t
  refine ⟨fun u hadmin hrun => ?_, fun hrun r => ?_⟩
  · have hconfined := (h (some u) db hadmin).of_run hrun
    refine ⟨fun r hr hnot => ?_, fun r hr hnot => ?_⟩
    · obtain ⟨v, hv, hown⟩ := hconfined.gone r hr hnot
      rwa [Option.some.inj hv]
    · obtain ⟨v, hv, hown⟩ := hconfined.added r hr hnot
      rwa [Option.some.inj hv]
  · have hconfined := (h none db not_isAdmin_none).of_run hrun
    constructor
    · intro hr
      by_contra hnot
      obtain ⟨u, hu, -⟩ := hconfined.added r hr hnot
      cases hu
    · intro hr
      by_contra hnot
      obtain ⟨u, hu, -⟩ := hconfined.gone r hr hnot
      cases hu

/-! ## The policies -/

section Policies

variable {ρ : Type} {owner : ρ → Uuid}

/-- The owner test, for somebody who is no administrator. -/
theorem owns_of_rlsIsOwnerOrAdmin {o : Uuid} (hadmin : ¬ db.IsAdmin me)
    (h : (rlsIsOwnerOrAdmin me db (some o)).Holds) : ∃ u, me = some u ∧ o = u :=
  ⟨o, (holds_rlsIsOwnerOrAdmin.mp h).resolve_right hadmin, rfl⟩

/-- The policy of content with a visibility confines a session to its user's rows. -/
theorem confines_visibilityPolicy {visibility : ρ → String} (hadmin : ¬ db.IsAdmin me) :
    (visibilityPolicy me db owner visibility).Confines (fun r => ∃ u, me = some u ∧ owner r = u)
      fun r => ∃ u, me = some u ∧ owner r = u ∧ True where
  insert r h := by simpa using owns_of_rlsIsOwnerOrAdmin hadmin h
  updateUsing r h := owns_of_rlsIsOwnerOrAdmin hadmin h
  updateCheck r r' _ h := by simpa using owns_of_rlsIsOwnerOrAdmin hadmin h
  delete r h := owns_of_rlsIsOwnerOrAdmin hadmin h

/-- So does the policy of rows for their owner only. -/
theorem confines_ownerOnlyPolicy (hadmin : ¬ db.IsAdmin me) :
    (ownerOnlyPolicy me db owner).Confines (fun r => ∃ u, me = some u ∧ owner r = u)
      fun r => ∃ u, me = some u ∧ owner r = u ∧ True where
  insert r h := by simpa using owns_of_rlsIsOwnerOrAdmin hadmin h
  updateUsing r h := by cases h
  updateCheck r r' h := by cases h
  delete r h := owns_of_rlsIsOwnerOrAdmin hadmin h

/-- A like or a bookmark is on something that its user can view. -/
theorem confines_marksPolicy {P : RowPolicy Mark} {canView : Uuid → Truth}
    {viewable : Uuid → Uuid → Prop} (hadmin : ¬ db.IsAdmin me)
    (hview : ∀ u id, me = some u → (canView id).Holds → viewable u id)
    (hinsert : ∀ r, P.insert r = (rlsIsOwnerOrAdmin me db (some r.userId)).and (canView r.targetId))
    (hupdate : ∀ r, P.updateUsing r = .no)
    (hdelete : ∀ r, P.delete r = rlsIsOwnerOrAdmin me db (some r.userId)) :
    P.Confines (fun r => ∃ u, me = some u ∧ r.userId = u)
      fun r => ∃ u, me = some u ∧ r.userId = u ∧ viewable u r.targetId where
  insert r h := by
    rw [hinsert, Truth.holds_and] at h
    obtain ⟨u, hu, hown⟩ := owns_of_rlsIsOwnerOrAdmin hadmin h.1
    exact ⟨u, hu, hown, hview u _ hu h.2⟩
  updateUsing r h := by
    rw [hupdate] at h
    cases h
  updateCheck r r' h := by
    rw [hupdate] at h
    cases h
  delete r h := owns_of_rlsIsOwnerOrAdmin hadmin (hdelete r ▸ h)

/-- The user can view the check-in, or the list, with this id. -/
def Db.CanViewCheckin (db : Db) (u id : Uuid) : Prop :=
  ∃ c ∈ db.checkins, c.id = id ∧ db.CanSee (some u) c.userId c.visibility

def Db.CanViewList (db : Db) (u id : Uuid) : Prop :=
  ∃ l ∈ db.lists, l.id = id ∧ db.CanSee (some u) l.userId l.visibility

/-- The policy function lets a user refer to a check-in that they may view. -/
theorem canViewCheckin_of_holds (u id : Uuid) (hu : me = some u)
    (h : (rlsCanViewCheckin me db id).Holds) : db.CanViewCheckin u id := by
  subst hu
  exact holds_rlsCanViewCheckin.mp h

/-- So it is with a list. -/
theorem canViewList_of_holds (u id : Uuid) (hu : me = some u)
    (h : (rlsCanViewList me db id).Holds) : db.CanViewList u id := by
  subst hu
  exact holds_rlsCanViewList.mp h

/-- The owner of a list item is the owner of its list. -/
def Db.OwnsItem (db : Db) (u : Uuid) (r : ListItem) : Prop :=
  ∃ l ∈ db.lists, l.id = r.listId ∧ l.userId = u

/-- Whoever passes the check for a list's items owns the list. -/
theorem ownsItem_of_rlsIsOwnerOrAdminOfList {r : ListItem} (hadmin : ¬ db.IsAdmin me)
    (h : (rlsIsOwnerOrAdminOfList me db r.listId).Holds) : ∃ u, me = some u ∧ db.OwnsItem u r := by
  unfold rlsIsOwnerOrAdminOfList at h
  split at h
  · next l hl =>
    obtain ⟨hl, hid⟩ := Table.get_eq_some.mp hl
    obtain ⟨u, hu, hown⟩ := owns_of_rlsIsOwnerOrAdmin hadmin h
    exact ⟨u, hu, l, hl, hid, hown⟩
  · cases h

/-- The policy of the items confines a session to the lists of its user. -/
theorem confines_listItemsPolicy (hadmin : ¬ db.IsAdmin me) :
    (listItemsPolicy me db).Confines (fun r => ∃ u, me = some u ∧ db.OwnsItem u r)
      fun r => ∃ u, me = some u ∧ db.OwnsItem u r ∧ True where
  insert r h := by simpa using ownsItem_of_rlsIsOwnerOrAdminOfList hadmin h
  updateUsing r h := ownsItem_of_rlsIsOwnerOrAdminOfList hadmin h
  updateCheck r r' _ h := by simpa using ownsItem_of_rlsIsOwnerOrAdminOfList hadmin h
  delete r h := ownsItem_of_rlsIsOwnerOrAdminOfList hadmin h

end Policies

/-- Any statement on a table with an owner. A user who is no administrator takes away and adds rows
of their own only, and likes and bookmarks only what they can view; a session without an identity
does nothing. -/
theorem statements_write_only_own :
    WritesOnlyOwn checkins (fun _ u r => r.userId = u) (fun _ _ _ => True) ∧
      WritesOnlyOwn lists (fun _ u r => r.userId = u) (fun _ _ _ => True) ∧
      WritesOnlyOwn venueSaves (fun _ u r => r.userId = u) (fun _ _ _ => True) ∧
      WritesOnlyOwn checkinLikes (fun _ u r => r.userId = u)
        (fun db u r => db.CanViewCheckin u r.targetId) ∧
      WritesOnlyOwn listLikes (fun _ u r => r.userId = u)
        (fun db u r => db.CanViewList u r.targetId) ∧
      WritesOnlyOwn checkinBookmarks (fun _ u r => r.userId = u)
        (fun db u r => db.CanViewCheckin u r.targetId) ∧
      WritesOnlyOwn listBookmarks (fun _ u r => r.userId = u)
        (fun db u r => db.CanViewList u r.targetId) ∧
      WritesOnlyOwn listItems (fun db u r => db.OwnsItem u r) (fun _ _ _ => True) ∧
      WritesOnlyOwn blocks (fun _ u r => r.blockerId = u) (fun _ _ _ => True) ∧
      WritesOnlyOwn mutes (fun _ u r => r.userId = u) fun _ _ _ => True := by
  refine ⟨?_, ?_, ?_, ?_, ?_, ?_, ?_, ?_, ?_, ?_⟩
  all_goals refine writesOnlyOwn_of_confines fun me db hadmin => ?_
  · exact confines_visibilityPolicy hadmin
  · exact confines_visibilityPolicy hadmin
  · exact confines_visibilityPolicy hadmin
  · exact confines_marksPolicy hadmin canViewCheckin_of_holds (fun _ => rfl) (fun _ => rfl)
      fun _ => rfl
  · exact confines_marksPolicy hadmin canViewList_of_holds (fun _ => rfl) (fun _ => rfl)
      fun _ => rfl
  · exact confines_marksPolicy hadmin canViewCheckin_of_holds (fun _ => rfl) (fun _ => rfl)
      fun _ => rfl
  · exact confines_marksPolicy hadmin canViewList_of_holds (fun _ => rfl) (fun _ => rfl)
      fun _ => rfl
  · exact confines_listItemsPolicy hadmin
  · exact confines_ownerOnlyPolicy hadmin
  · exact confines_ownerOnlyPolicy hadmin

end OburBackend
