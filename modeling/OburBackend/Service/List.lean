import OburBackend.Service.Checkin

/-!
# Lists, their items, and venue saves

`app/services/list.py`, `list_item.py` and `venue_save.py`.
-/

namespace OburBackend

open Sql

/-! ## Lists -/

/-- `create_list` -/
def createList (c : Ctx) (userId : Uuid) (title : String) (description : Option String)
    (visibility : String) : Service VenueList := do
  let venueList : VenueList :=
    { id := c.uuid4 0, userId, title, description, visibility, createdAt := c.now }
  lists.insert venueList
  commit
  refresh lists venueList.id

def listNotFound {α : Type} (listId : Uuid) : Service α :=
  raiseDomain .listNotFound ("list not found: " ++ listId.str)

/-- `get_list` -/
def getList (listId : Uuid) (viewer : Option User) : Service VenueList := do
  match ← lists.get listId with
  | none => listNotFound listId
  | some venueList =>
    let allowed ← canView venueList.userId venueList.visibility viewer
    if allowed then
      return venueList
    else
      listNotFound listId

/-- Looking up a list writes nothing. -/
theorem readOnly_getList (listId : Uuid) (viewer : Option User) :
    (getList listId viewer).ReadOnly := by
  refine (readOnly_get listId).bind fun found => ?_
  cases found with
  | none => trivial
  | some venueList =>
    refine (readOnly_canView _ _ _).bind fun allowed => ?_
    cases allowed <;> trivial

/-- What `get_list` does alone. -/
theorem run_getList {listId : Uuid} {viewer : Option User} {conn : Conn Db Identity}
    (hme : conn.vars = viewer.map User.id) (hstored : ∀ v ∈ viewer, conn.working.Stored v) :
    (getList listId viewer).run conn =
      (Prog.orRaise (.domain .listNotFound ("list not found: " ++ listId.str))
        (lists.lookup conn.vars conn.working listId), conn) := by
  simp only [getList, Prog.bind_eq, run_get_bind]
  cases hlookup : lists.lookup conn.vars conn.working listId with
  | none => rfl
  | some venueList =>
    obtain ⟨-, -, hsee⟩ := lists.lookup_eq_some.mp hlookup
    rw [lists_policy, holds_listsPolicy_select] at hsee
    simp only [Prog.run_bind, run_canView hme hstored, hsee, decide_true, if_true]
    rfl

/-- `list_lists_for_user` -/
def listListsForUser (plan : Plan VenueList) (targetUserId : Uuid) (viewer : Option User)
    (limit offset : ℕ) : Service (List VenueList) :=
  query ⟨.select, .lists, [targetUserId]⟩ fun me db =>
    page limit offset <| orderByDesc VenueList.createdAt plan <| lists.rows me db fun l =>
      decide (l.userId = targetUserId) &&
        listable me db viewer (isOwnerOrAdmin targetUserId) l.userId l.visibility

/-- The editable fields of a list that a request gives. -/
structure ListUpdates where
  title : Field String := none
  description : Field String := none
  visibility : Field String := none
  deriving DecidableEq

namespace ListUpdates

/-- The fields that differ from the loaded row: the columns of the `UPDATE`. -/
def changed (u : ListUpdates) (l : VenueList) : ListUpdates where
  title := u.title.changed (some l.title)
  description := u.description.changed l.description
  visibility := u.visibility.changed (some l.visibility)

/-- The row with the fields set, if no `NOT NULL` column becomes `NULL`. -/
def set (u : ListUpdates) (l : VenueList) : Option VenueList := do
  let title ← u.title.notNull l.title
  let visibility ← u.visibility.notNull l.visibility
  return { l with title, visibility, description := u.description.nullable l.description }

/-- Setting the editable fields leaves the rest of the row alone. -/
theorem set_eq_some {u : ListUpdates} {l l' : VenueList} (h : u.set l = some l') :
    l'.id = l.id ∧ l'.userId = l.userId := by
  simp only [set, Option.bind_eq_bind, Option.bind_eq_some_iff, Option.pure_def,
    Option.some.injEq] at h
  obtain ⟨_, _, _, _, rfl⟩ := h
  exact ⟨rfl, rfl⟩

end ListUpdates

/-- The guard that the mutations of a list share: `verb` is how the message names what the caller
may not do. -/
def ensureListOwned (venueList : VenueList) (listId : Uuid) (currentUser : User) (verb : String) :
    Service Unit :=
  ensureVisibleAndOwned venueList.userId venueList.visibility currentUser
    .listNotFound ("list not found: " ++ listId.str)
    .notListOwner ("user " ++ currentUser.id.str ++ " may not " ++ verb ++ " list " ++ listId.str)

/-- `update_list` -/
def updateList (listId : Uuid) (currentUser : User) (updates : ListUpdates) :
    Service VenueList := do
  match ← lists.get listId with
  | none => listNotFound listId
  | some venueList =>
    ensureListOwned venueList listId currentUser "modify"
    let changed := updates.changed venueList
    if changed ≠ {} then
      lists.update listId changed.set fun _ _ h => (ListUpdates.set_eq_some h).1
    commit
    refresh lists listId

/-- `delete_list` -/
def deleteList (listId : Uuid) (currentUser : User) : Service Unit := do
  match ← lists.get listId with
  | none => listNotFound listId
  | some venueList =>
    ensureListOwned venueList listId currentUser "delete"
    lists.delete listId
    commit

/-! ## List items -/

/-- What a query returns for a row: a query does not overwrite the object that the session has
loaded for it. -/
def asLoaded (loaded : Option ListItem) (r : ListItem) : ListItem :=
  (loaded.filter fun item => decide (item.id = r.id)).getD r

/-- `_ordered_items`, in a session that has loaded at most one item. The positions compare byte by
byte. -/
def orderedItems (c : Ctx) (listId : Uuid) (loaded : Option ListItem) : Service (List ListItem) :=
  query ⟨.select, .listItems, [listId]⟩ fun me db =>
    (orderBy (fun a b => decide (a.position ≤ b.position)) c.itemPlan
      (listItems.rows me db fun r => decide (r.listId = listId))).map (asLoaded loaded)

/-- `fi.generate_key_between` -/
def generateKeyBetween (c : Ctx) (a b : Option String) : Service String :=
  match c.generateKeyBetween a b with
  | some key => return key
  | none => .raise .invalidOrderKey

/-- `_position_at_end` -/
def positionAtEnd (c : Ctx) (listId : Uuid) : Service String := do
  let items ← orderedItems c listId none
  generateKeyBetween c (items.getLast?.map ListItem.position) none

def listItemNotFound {α : Type} (itemId : Uuid) : Service α :=
  raiseDomain .listItemNotFound ("list item not found: " ++ itemId.str)

/-- The loop of `_position_after`: the item `afterItemId` and the position that follows it. -/
def findItemAfter (afterItemId : Uuid) : List ListItem → Option (ListItem × Option String)
  | [] => none
  | item :: rest =>
    if item.id = afterItemId then some (item, rest.head?.map ListItem.position)
    else findItemAfter afterItemId rest

/-- `_position_after` -/
def positionAfter (c : Ctx) (listId : Uuid) (loaded : Option ListItem)
    (afterItemId : Option Uuid) : Service String := do
  let items ← orderedItems c listId loaded
  match afterItemId with
  | none => generateKeyBetween c none (items.head?.map ListItem.position)
  | some afterItemId =>
    match findItemAfter afterItemId items with
    | some (item, following) => generateKeyBetween c (some item.position) following
    | none => listItemNotFound afterItemId

/-- `add_list_item` -/
def addListItem (c : Ctx) (listId : Uuid) (currentUser : User) (venueId : Uuid)
    (afterItemId : Option Uuid) : Service ListItem := do
  match ← lists.get listId with
  | none => listNotFound listId
  | some venueList =>
    ensureListOwned venueList listId currentUser "modify"
    if (← venues.get venueId).isNone then
      raiseDomain .venueNotFound ("venue not found: " ++ venueId.str)
    else
      let existing ← scalarOneOrNone (← select listItems .listItems [listId, venueId] fun r =>
        decide (r.listId = listId) && decide (r.venueId = venueId))
      if existing.isSome then
        raiseDomain .duplicateListItem
          ("venue " ++ venueId.str ++ " is already on list " ++ listId.str)
      else
        let position ← match afterItemId with
          | none => positionAtEnd c listId
          | some _ => positionAfter c listId none afterItemId
        let item : ListItem := { id := c.uuid4 0, listId, venueId, position, createdAt := c.now }
        listItems.insert item
        commit
        refresh listItems item.id

/-- `move_list_item` -/
def moveListItem (c : Ctx) (listId itemId : Uuid) (currentUser : User)
    (afterItemId : Option Uuid) : Service ListItem := do
  match ← lists.get listId with
  | none => listNotFound listId
  | some venueList =>
    ensureListOwned venueList listId currentUser "modify"
    match ← listItems.get itemId with
    | none => listItemNotFound itemId
    | some item =>
      if item.listId ≠ listId then
        listItemNotFound itemId
      else
        let position ← positionAfter c listId (some item) afterItemId
        if position ≠ item.position then
          listItems.update itemId (fun r => some { r with position := position }) (by
            rintro r _ ⟨⟩
            rfl)
        commit
        refresh listItems itemId

/-- `remove_list_item` -/
def removeListItem (listId itemId : Uuid) (currentUser : User) : Service Unit := do
  match ← lists.get listId with
  | none => listNotFound listId
  | some venueList =>
    ensureListOwned venueList listId currentUser "modify"
    match ← listItems.get itemId with
    | none => listItemNotFound itemId
    | some item =>
      if item.listId ≠ listId then
        listItemNotFound itemId
      else
        listItems.delete itemId
        commit

/-- `list_items_for_list` -/
def listItemsForList (plan : Plan ListItem) (listId : Uuid) (limit offset : ℕ) :
    Service (List ListItem) :=
  query ⟨.select, .listItems, [listId]⟩ fun me db =>
    page limit offset <| orderBy (fun a b => decide (a.position ≤ b.position)) plan <|
      listItems.rows me db fun r => decide (r.listId = listId)

/-! ## Venue saves -/

/-- `save_venue` -/
def VenueSave.saveVenue (c : Ctx) (userId venueId : Uuid) (type : VenueSaveType)
    (visibility : String) : Service VenueSave := do
  if (← venues.get venueId).isNone then
    raiseDomain .venueNotFound ("venue not found: " ++ venueId.str)
  else
    let found ← scalarOneOrNone (← select venueSaves .venueSaves [userId, venueId] fun r =>
      decide (r.userId = userId) && (decide (r.venueId = venueId) && decide (r.type = type)))
    match found with
    | some save => return save
    | none =>
      let save : VenueSave :=
        { id := c.uuid4 0, userId, venueId, type, visibility, createdAt := c.now }
      venueSaves.insert save
      commit
      refresh venueSaves save.id

def venueSaveNotFound {α : Type} (venueSaveId : Uuid) : Service α :=
  raiseDomain .venueSaveNotFound ("venue save not found: " ++ venueSaveId.str)

/-- `get_venue_save` -/
def getVenueSave (venueSaveId : Uuid) (viewer : Option User) : Service VenueSave := do
  match ← venueSaves.get venueSaveId with
  | none => venueSaveNotFound venueSaveId
  | some save =>
    let allowed ← canView save.userId save.visibility viewer
    if allowed then
      return save
    else
      venueSaveNotFound venueSaveId

/-- What `get_venue_save` does alone. -/
theorem run_getVenueSave {venueSaveId : Uuid} {viewer : Option User} {conn : Conn Db Identity}
    (hme : conn.vars = viewer.map User.id) (hstored : ∀ v ∈ viewer, conn.working.Stored v) :
    (getVenueSave venueSaveId viewer).run conn =
      (Prog.orRaise (.domain .venueSaveNotFound ("venue save not found: " ++ venueSaveId.str))
        (venueSaves.lookup conn.vars conn.working venueSaveId), conn) := by
  simp only [getVenueSave, Prog.bind_eq, run_get_bind]
  cases hlookup : venueSaves.lookup conn.vars conn.working venueSaveId with
  | none => rfl
  | some save =>
    obtain ⟨-, -, hsee⟩ := venueSaves.lookup_eq_some.mp hlookup
    rw [venueSaves_policy, holds_venueSavesPolicy_select] at hsee
    simp only [Prog.run_bind, run_canView hme hstored, hsee, decide_true, if_true]
    rfl

/-- `list_venue_saves_for_user` -/
def listVenueSavesForUser (plan : Plan VenueSave) (targetUserId : Uuid)
    (type : Option VenueSaveType) (viewer : Option User) (limit offset : ℕ) :
    Service (List VenueSave) :=
  query ⟨.select, .venueSaves, [targetUserId]⟩ fun me db =>
    page limit offset <| orderByDesc VenueSave.createdAt plan <| venueSaves.rows me db fun r =>
      decide (r.userId = targetUserId) && (type.all (fun t => decide (r.type = t)) &&
        listable me db viewer (isOwnerOrAdmin targetUserId) r.userId r.visibility)

/-- The guard that the mutations of a venue save share. -/
def ensureVenueSaveOwned (save : VenueSave) (venueSaveId : Uuid) (currentUser : User)
    (verb : String) : Service Unit :=
  ensureVisibleAndOwned save.userId save.visibility currentUser
    .venueSaveNotFound ("venue save not found: " ++ venueSaveId.str)
    .notVenueSaveOwner
    ("user " ++ currentUser.id.str ++ " may not " ++ verb ++ " venue save " ++ venueSaveId.str)

/-- The new row of a venue save, whose only editable field is the visibility. -/
def setVenueSaveVisibility (visibility : Field String) (r : VenueSave) : Option VenueSave :=
  (visibility.notNull r.visibility).map fun v => { r with visibility := v }

/-- A new visibility leaves the save's id. -/
theorem setVenueSaveVisibility_id {visibility : Field String} {r r' : VenueSave}
    (h : setVenueSaveVisibility visibility r = some r') : r'.id = r.id := by
  obtain ⟨v, -, rfl⟩ := Option.map_eq_some_iff.mp h
  rfl

/-- `update_venue_save` -/
def updateVenueSave (venueSaveId : Uuid) (currentUser : User) (visibility : Field String) :
    Service VenueSave := do
  match ← venueSaves.get venueSaveId with
  | none => venueSaveNotFound venueSaveId
  | some save =>
    ensureVenueSaveOwned save venueSaveId currentUser "modify"
    let changed := visibility.changed (some save.visibility)
    if changed.isSome then
      venueSaves.update venueSaveId (setVenueSaveVisibility changed) fun _ _ h =>
        setVenueSaveVisibility_id h
    commit
    refresh venueSaves venueSaveId

/-- `delete_venue_save` -/
def deleteVenueSave (venueSaveId : Uuid) (currentUser : User) : Service Unit := do
  match ← venueSaves.get venueSaveId with
  | none => venueSaveNotFound venueSaveId
  | some save =>
    ensureVenueSaveOwned save venueSaveId currentUser "delete"
    venueSaves.delete venueSaveId
    commit

end OburBackend
