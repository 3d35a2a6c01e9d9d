import Mathlib.Data.String.Basic
import OburBackend.Fractional.Sequence
import OburBackend.Service.List

/-!
# How a list is reordered

`add_list_item` and `move_list_item` have the same shape: queries that settle whether the request is
allowed, one query for the items in order and a key for the gap at the request's `Place` in that
order, and a write of one row. The three ways in which the code picks the gap are one definition
here (`placePosition`), and `addListItem_eq` and `moveListItem_eq` take the requests apart.
-/

namespace OburBackend

open Sql Fractional

/-! ## The package that makes the keys -/

/-- What the code relies on: between two keys of which the first is below the second, a missing one
being open, `generate_key_between` finds a key. `IsKey` says which texts are keys. -/
def Ctx.GeneratesKeys (c : Ctx) (IsKey : String → Prop) : Prop :=
  ∀ a b, (∀ x ∈ a, IsKey x) → (∀ y ∈ b, IsKey y) → (∀ x ∈ a, ∀ y ∈ b, x < y) →
    ∃ k, c.generateKeyBetween a b = some k ∧ IsKey k ∧ Between a b k

/-- The same context with a `generate_key_between` that raises unless the first key is below the
second. -/
def Ctx.guarded (c : Ctx) : Ctx :=
  { c with
    generateKeyBetween := fun a b =>
      match a, b with
      | some x, some y => if x < y then c.generateKeyBetween a b else none
      | _, _ => c.generateKeyBetween a b }

/-- A generator that refuses some pairs generates the keys it did. -/
theorem Ctx.GeneratesKeys.guarded {c : Ctx} {IsKey : String → Prop} (h : c.GeneratesKeys IsKey) :
    c.guarded.GeneratesKeys IsKey := by
  intro a b ha hb hlt
  obtain ⟨k, hk, hkey⟩ := h a b ha hb hlt
  refine ⟨k, ?_, hkey⟩
  cases a with
  | none => exact hk
  | some x =>
    cases b with
    | none => exact hk
    | some y => simpa only [Ctx.guarded, hlt x rfl y rfl, if_true] using hk

/-! ## Places -/

/-- Where a request wants an item. -/
inductive Place where
  | atEnd
  | first
  | after (itemId : Uuid)
  deriving DecidableEq

/-- The items up to the given one, and those after it. -/
def cutAfter (itemId : Uuid) : List ListItem → Option (List ListItem × List ListItem)
  | [] => none
  | item :: rest =>
    if item.id = itemId then some ([item], rest)
    else (cutAfter itemId rest).map fun cut => (item :: cut.1, cut.2)

/-- The items before the place and those after it, or the item that is missing. -/
def Place.cut : Place → List ListItem → Except Uuid (List ListItem × List ListItem)
  | .atEnd, items => .ok (items, [])
  | .first, items => .ok ([], items)
  | .after itemId, items =>
    match cutAfter itemId items with
    | some cut => .ok cut
    | none => .error itemId

/-- What `add_list_item` makes of its `after_item_id`. -/
def Place.ofAdd : Option Uuid → Place
  | none => .atEnd
  | some itemId => .after itemId

/-- What `move_list_item` makes of its `after_item_id`. -/
def Place.ofMove : Option Uuid → Place
  | none => .first
  | some itemId => .after itemId

/-- A list is cut behind the item with the id, the first one with it. -/
theorem cutAfter_eq_some {itemId : Uuid} {items before after : List ListItem}
    (h : cutAfter itemId items = some (before, after)) :
    ∃ init item, before = init ++ [item] ∧ items = before ++ after ∧ item.id = itemId ∧
      ∀ x ∈ init, x.id ≠ itemId := by
  induction items generalizing before with
  | nil => exact absurd h (by simp [cutAfter])
  | cons x rest ih =>
    rw [cutAfter] at h
    split at h
    · next hx =>
      obtain ⟨rfl, rfl⟩ := Prod.mk.inj (Option.some.inj h)
      exact ⟨[], x, rfl, rfl, hx, fun y hy => absurd hy List.not_mem_nil⟩
    · next hx =>
      obtain ⟨cut, hcut, heq⟩ := Option.map_eq_some_iff.mp h
      obtain ⟨rfl, rfl⟩ := Prod.mk.inj heq
      obtain ⟨init, item, hbefore, rfl, hitem, hinit⟩ := ih hcut
      exact ⟨x :: init, item, by rw [hbefore]; rfl, rfl, hitem,
        List.forall_mem_cons.mpr ⟨hx, hinit⟩⟩

/-- Both halves make up the list. -/
theorem Place.append_of_cut {place : Place} {items before after : List ListItem}
    (h : place.cut items = .ok (before, after)) : items = before ++ after := by
  cases place with
  | atEnd =>
    obtain ⟨rfl, rfl⟩ := Prod.mk.inj (Except.ok.inj h)
    rw [List.append_nil]
  | first =>
    obtain ⟨rfl, rfl⟩ := Prod.mk.inj (Except.ok.inj h)
    rfl
  | after itemId =>
    rw [Place.cut] at h
    split at h
    · next cut hcut =>
      obtain rfl := Except.ok.inj h
      obtain ⟨_, _, _, heq, -⟩ := cutAfter_eq_some hcut
      exact heq
    · cases h

/-- The loop of `_position_after` stops at the item before the gap. -/
theorem findItemAfter_eq (itemId : Uuid) (items : List ListItem) :
    findItemAfter itemId items =
      (cutAfter itemId items).bind fun cut =>
        cut.1.getLast?.map fun item => (item, upper ListItem.position cut.2) := by
  induction items with
  | nil => rfl
  | cons x rest ih =>
    rw [findItemAfter, cutAfter]
    split
    · rfl
    · rw [ih]
      cases hcut : cutAfter itemId rest with
      | none => rfl
      | some cut =>
        obtain ⟨init, item, hbefore, -⟩ := @cutAfter_eq_some _ _ cut.1 cut.2 hcut
        simp [hbefore, List.getLast?_cons]

/-- The session has loaded the row as it is now, or not at all. -/
theorem asLoaded_eq_self {loaded : Option ListItem} {r : ListItem}
    (h : ∀ item ∈ loaded, item.id = r.id → item = r) : asLoaded loaded r = r := by
  cases loaded with
  | none => rfl
  | some item =>
    rw [asLoaded, Option.filter_some]
    split
    · next hid => exact h item rfl (of_decide_eq_true hid)
    · rfl

/-- A key for a gap, unless the item before it is missing. -/
def gapPosition (c : Ctx) : Except Uuid (List ListItem × List ListItem) → Service String
  | .ok cut =>
    generateKeyBetween c (lower ListItem.position cut.1) (upper ListItem.position cut.2)
  | .error itemId => listItemNotFound itemId

/-- A key for the gap at a place. -/
def placePosition (c : Ctx) (listId : Uuid) (loaded : Option ListItem) (place : Place) :
    Service String := do
  let items ← orderedItems c listId loaded
  gapPosition c (place.cut items)

/-- `_position_at_end` computes the position of a place at the end. -/
theorem positionAtEnd_eq (c : Ctx) (listId : Uuid) :
    positionAtEnd c listId = placePosition c listId none .atEnd := rfl

/-- `_position_after` without an item computes that of the first place. -/
theorem positionAfter_none (c : Ctx) (listId : Uuid) (loaded : Option ListItem) :
    positionAfter c listId loaded none = placePosition c listId loaded .first := rfl

/-- With an item it computes that of the place after it. -/
theorem positionAfter_some (c : Ctx) (listId : Uuid) (loaded : Option ListItem) (itemId : Uuid) :
    positionAfter c listId loaded (some itemId) =
      placePosition c listId loaded (.after itemId) := by
  refine congrArg (Prog.bind (orderedItems c listId loaded)) (funext fun items => ?_)
  dsimp only
  rw [findItemAfter_eq, Place.cut]
  cases hcut : cutAfter itemId items with
  | none => rfl
  | some cut =>
    obtain ⟨init, item, hbefore, -⟩ := @cutAfter_eq_some _ _ cut.1 cut.2 hcut
    simp [gapPosition, hbefore, lower]

/-! ## The requests in parts -/

/-- What `add_list_item` checks before it looks for a position. -/
def addChecks (listId : Uuid) (currentUser : User) (venueId : Uuid) : Service Unit := do
  match ← lists.get listId with
  | none => listNotFound listId
  | some venueList =>
    ensureListOwned venueList listId currentUser "modify"
    if (← venues.get venueId).isNone then
      raiseDomain .venueNotFound ("venue not found: " ++ venueId.str)
    else
      let existing ← scalarOneOrNone (← select listItems .listItems [listId, venueId] fun r =>
        decide (r.listId = listId) && decide (r.venueId = venueId))
      if existing.isSome then
        raiseDomain .duplicateListItem
          ("venue " ++ venueId.str ++ " is already on list " ++ listId.str)
      else
        return ()

/-- What `move_list_item` and `remove_list_item` check first: the item they are about. -/
def itemChecks (listId itemId : Uuid) (currentUser : User) : Service ListItem := do
  match ← lists.get listId with
  | none => listNotFound listId
  | some venueList =>
    ensureListOwned venueList listId currentUser "modify"
    match ← listItems.get itemId with
    | none => listItemNotFound itemId
    | some item => if item.listId ≠ listId then listItemNotFound itemId else return item

/-- The row that `add_list_item` adds. -/
def newItem (c : Ctx) (listId venueId : Uuid) (position : String) : ListItem :=
  { id := c.uuid4 0, listId, venueId, position, createdAt := c.now }

/-- Add the row. -/
def storeItem (item : ListItem) : Service ListItem := do
  listItems.insert item
  commit
  refresh listItems item.id

/-- The row with its new position. -/
def setPosition (position : String) (r : ListItem) : Option ListItem :=
  some { r with position := position }

/-- A new position leaves the item's id. -/
theorem setPosition_id {position : String} (r r' : ListItem)
    (h : setPosition position r = some r') : r'.id = r.id := by
  obtain rfl := Option.some.inj h
  rfl

/-- Write the new position of an item that has been loaded. -/
def storePosition (item : ListItem) (itemId : Uuid) (position : String) : Service ListItem := do
  if position ≠ item.position then
    listItems.update itemId (setPosition position) setPosition_id
  commit
  refresh listItems itemId

/-- Adding an item: checks, a position, and the row with it. -/
theorem addListItem_eq (c : Ctx) (listId : Uuid) (currentUser : User) (venueId : Uuid)
    (afterItemId : Option Uuid) :
    addListItem c listId currentUser venueId afterItemId =
      (addChecks listId currentUser venueId).bind fun _ =>
        (placePosition c listId none (.ofAdd afterItemId)).bind fun position =>
          storeItem (newItem c listId venueId position) := by
  have hplace : (match afterItemId with
      | none => positionAtEnd c listId
      | some _ => positionAfter c listId none afterItemId) =
        placePosition c listId none (.ofAdd afterItemId) := by
    cases afterItemId with
    | none => exact positionAtEnd_eq c listId
    | some itemId => exact positionAfter_some c listId none itemId
  simp only [addListItem, addChecks, Prog.bind_eq, Prog.bind_assoc]
  refine congrArg (Prog.bind _) (funext fun found => ?_)
  cases found with
  | none => rfl
  | some venueList =>
    simp only [Prog.bind_assoc]
    refine congrArg (Prog.bind _) (funext fun _ => congrArg (Prog.bind _) (funext fun venue => ?_))
    split
    · rfl
    · simp only [Prog.bind_assoc]
      refine congrArg (Prog.bind _) (funext fun rows => congrArg (Prog.bind _)
        (funext fun existing => ?_))
      split
      · rfl
      · rw [← hplace]
        cases afterItemId <;> rfl

/-- Moving one: checks, a position, and the update with it. -/
theorem moveListItem_eq (c : Ctx) (listId itemId : Uuid) (currentUser : User)
    (afterItemId : Option Uuid) :
    moveListItem c listId itemId currentUser afterItemId =
      (itemChecks listId itemId currentUser).bind fun item =>
        (placePosition c listId (some item) (.ofMove afterItemId)).bind fun position =>
          storePosition item itemId position := by
  have hplace : ∀ loaded, positionAfter c listId loaded afterItemId =
      placePosition c listId loaded (.ofMove afterItemId) := by
    intro loaded
    cases afterItemId with
    | none => exact positionAfter_none c listId loaded
    | some itemId => exact positionAfter_some c listId loaded itemId
  simp only [moveListItem, itemChecks, Prog.bind_eq, Prog.bind_assoc, hplace]
  refine congrArg (Prog.bind _) (funext fun found => ?_)
  cases found with
  | none => rfl
  | some venueList =>
    simp only [Prog.bind_assoc]
    refine congrArg (Prog.bind _) (funext fun _ => congrArg (Prog.bind _) (funext fun item => ?_))
    cases item with
    | none => rfl
    | some item =>
      dsimp only
      split <;> rfl

/-- Removing one: checks, and the deletion. -/
theorem removeListItem_eq (listId itemId : Uuid) (currentUser : User) :
    removeListItem listId itemId currentUser =
      (itemChecks listId itemId currentUser).bind fun _ =>
        (listItems.delete itemId).bind fun _ => commit := by
  simp only [removeListItem, itemChecks, Prog.bind_eq, Prog.bind_assoc]
  refine congrArg (Prog.bind _) (funext fun found => ?_)
  cases found with
  | none => rfl
  | some venueList =>
    simp only [Prog.bind_assoc]
    refine congrArg (Prog.bind _) (funext fun _ => congrArg (Prog.bind _) (funext fun item => ?_))
    cases item with
    | none => rfl
    | some item =>
      dsimp only
      split <;> rfl

/-! ## The checks -/

/-- The check of the owner writes nothing. -/
theorem readOnly_ensureListOwned (venueList : VenueList) (listId : Uuid) (currentUser : User)
    (verb : String) : (ensureListOwned venueList listId currentUser verb).ReadOnly :=
  readOnly_ensureVisibleAndOwned ..

/-- Nor do the checks of an addition. -/
theorem readOnly_addChecks (listId : Uuid) (currentUser : User) (venueId : Uuid) :
    (addChecks listId currentUser venueId).ReadOnly := by
  refine (readOnly_get listId).bind fun found => ?_
  cases found with
  | none => trivial
  | some venueList =>
    refine (readOnly_ensureListOwned ..).bind fun _ => (readOnly_get venueId).bind fun venue => ?_
    split
    · trivial
    · refine (Prog.readOnly_query _ _).bind fun rows =>
        (readOnly_scalarOneOrNone rows).bind fun existing => ?_
      split <;> trivial

/-- Nor do those of a move or a removal. -/
theorem readOnly_itemChecks (listId itemId : Uuid) (currentUser : User) :
    (itemChecks listId itemId currentUser).ReadOnly := by
  refine (readOnly_get listId).bind fun found => ?_
  cases found with
  | none => trivial
  | some venueList =>
    refine (readOnly_ensureListOwned ..).bind fun _ => (readOnly_get itemId).bind fun item => ?_
    cases item with
    | none => trivial
    | some item =>
      dsimp only
      split <;> trivial

/-- An error that the package has not raised. -/
def NotKeyError (e : PyError) : Prop := e ≠ .invalidOrderKey

/-- Taking the one row of a result raises no error of the generator. -/
theorem raises_scalarOneOrNone {ρ : Type} (rows : List ρ) :
    (scalarOneOrNone rows).RaisesOnly NotKeyError := by
  match rows with
  | [] | [_] => trivial
  | _ :: _ :: _ => exact nofun

/-- Nor does the check of visibility. -/
theorem raises_canView (ownerId : Uuid) (visibility : String) (viewer : Option User) :
    (canView ownerId visibility viewer).RaisesOnly NotKeyError := by
  unfold canView
  split
  · trivial
  · cases viewer with
    | none =>
      refine Prog.RaisesOnly.bind trivial fun blocked => ?_
      split_ifs <;> trivial
    | some v =>
      refine Prog.RaisesOnly.bind (Prog.raisesOnly_query _ _ _) fun blocked => ?_
      split_ifs
      all_goals first
        | trivial
        | exact (Prog.raisesOnly_query _ _ _).bind fun rows =>
            (raises_scalarOneOrNone rows).bind fun _ => trivial

/-- Nor does the check of the owner. -/
theorem raises_ensureListOwned (venueList : VenueList) (listId : Uuid) (currentUser : User)
    (verb : String) :
    (ensureListOwned venueList listId currentUser verb).RaisesOnly NotKeyError := by
  unfold ensureListOwned ensureVisibleAndOwned
  split
  · trivial
  · refine (raises_canView ..).bind fun visible => ?_
    cases visible <;> exact nofun

/-- Nor do the checks of an addition. -/
theorem raises_addChecks (listId : Uuid) (currentUser : User) (venueId : Uuid) :
    (addChecks listId currentUser venueId).RaisesOnly NotKeyError := by
  refine (raisesOnly_get _ listId).bind fun found => ?_
  cases found with
  | none => exact nofun
  | some venueList =>
    refine (raises_ensureListOwned ..).bind fun _ => (raisesOnly_get _ venueId).bind fun venue => ?_
    split
    · exact nofun
    · refine (Prog.raisesOnly_query _ _ _).bind fun rows =>
        (raises_scalarOneOrNone rows).bind fun existing => ?_
      split
      · exact nofun
      · trivial

/-- Nor do those of a move or a removal. -/
theorem raises_itemChecks (listId itemId : Uuid) (currentUser : User) :
    (itemChecks listId itemId currentUser).RaisesOnly NotKeyError := by
  refine (raisesOnly_get _ listId).bind fun found => ?_
  cases found with
  | none => exact nofun
  | some venueList =>
    refine (raises_ensureListOwned ..).bind fun _ => (raisesOnly_get _ itemId).bind fun item => ?_
    cases item with
    | none => exact nofun
    | some item =>
      dsimp only
      split
      · exact nofun
      · trivial

section Ownership

variable {listId itemId venueId : Uuid} {currentUser : User} {conn : Conn Db Identity}

/-- A request that passes the checks has read a list of its caller, or the caller is an
administrator. -/
theorem owned_of_addChecks (h : ((addChecks listId currentUser venueId).run conn).1 = .ok ()) :
    ∃ venueList, lists.lookup conn.vars conn.working listId = some venueList ∧
      isOwnerOrAdmin venueList.userId currentUser = true := by
  simp only [addChecks, Prog.bind_eq, run_get_bind] at h
  cases hfound : lists.lookup conn.vars conn.working listId with
  | none =>
    rw [hfound] at h
    cases h
  | some venueList =>
    rw [hfound] at h
    dsimp only at h
    rw [(readOnly_ensureListOwned ..).run_bind] at h
    split at h
    · next hguard => exact ⟨venueList, rfl, isOwnerOrAdmin_of_ensureVisibleAndOwned hguard⟩
    · cases h

/-- The same for a request about an item, which it has read too. -/
theorem owned_of_itemChecks {item : ListItem}
    (h : ((itemChecks listId itemId currentUser).run conn).1 = .ok item) :
    (∃ venueList, lists.lookup conn.vars conn.working listId = some venueList ∧
      isOwnerOrAdmin venueList.userId currentUser = true) ∧
    listItems.lookup conn.vars conn.working itemId = some item ∧ item.listId = listId := by
  simp only [itemChecks, Prog.bind_eq, run_get_bind] at h
  cases hfound : lists.lookup conn.vars conn.working listId with
  | none =>
    rw [hfound] at h
    cases h
  | some venueList =>
    rw [hfound] at h
    dsimp only at h
    rw [(readOnly_ensureListOwned ..).run_bind] at h
    split at h
    · next hguard =>
      refine ⟨⟨venueList, rfl, isOwnerOrAdmin_of_ensureVisibleAndOwned hguard⟩, ?_⟩
      rw [run_get_bind] at h
      cases hitem : listItems.lookup conn.vars conn.working itemId with
      | none =>
        rw [hitem] at h
        cases h
      | some item' =>
        rw [hitem] at h
        dsimp only at h
        split at h
        · cases h
        · next hlist =>
          obtain rfl : item' = item := Except.ok.inj h
          exact ⟨rfl, not_not.mp hlist⟩
    · cases h

end Ownership

end OburBackend
