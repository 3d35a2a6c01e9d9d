import OburBackend.ListOrder.Requests

/-!
# A list is what its calls have made of it

The items of a list, read in the order of their positions, are the reference list (`ListCall.apply`)
on which each call that has not raised is performed on the order alone. The invariant is that the
positions are keys and distinct (`ListedAs`): then there is room in each gap, the package finds a
key for it, and the row with the new key is where the reference list has it. A move looks for its
gap in an order that still contains the moved item; taking the old row out afterwards does no harm,
as no row lies in the gap (`ListedAs.move`).
-/

namespace OburBackend

open Sql Fractional

/-- The items of the list, in order. -/
structure ListedAs (db : Db) (listId : Uuid) (IsKey : String → Prop) (items : List ListItem) :
    Prop where
  ordered : Ordered ListItem.position items
  mem : ∀ r, r ∈ items ↔ r ∈ db.listItems ∧ r.listId = listId
  keys : ∀ r ∈ items, IsKey r.position

/-- The rows of the list but the one with the given id. -/
def without (itemId : Uuid) (items : List ListItem) : List ListItem :=
  items.filter fun r => r.id ≠ itemId

@[simp] theorem mem_without {itemId : Uuid} {items : List ListItem} {r : ListItem} :
    r ∈ without itemId items ↔ r ∈ items ∧ r.id ≠ itemId := by
  simp [without]

/-- Who may see a list sees its items. -/
theorem mem_rows_of_canSee {me : Identity} {db : Db} {listId : Uuid}
    (hsee : (rlsCanViewList me db listId).Holds) (r : ListItem) :
    r ∈ listItems.rows me db (fun r => decide (r.listId = listId)) ↔
      r ∈ db.listItems ∧ r.listId = listId := by
  rw [TableDef.mem_rows, listItems_read, decide_eq_true_eq]
  constructor
  · rintro ⟨hr, hlist, -⟩
    exact ⟨hr, hlist⟩
  · rintro ⟨hr, hlist⟩
    refine ⟨hr, hlist, ?_⟩
    show (rlsCanViewList me db r.listId).Holds
    rwa [hlist]

/-- Whoever sees a list may view it in the sense of the policies. -/
theorem canSee_of_lookup {me : Identity} {db : Db} {listId : Uuid} {venueList : VenueList}
    (h : lists.lookup me db listId = some venueList) : (rlsCanViewList me db listId).Holds := by
  obtain ⟨hmem, hid, hsee⟩ := lists.lookup_eq_some.mp h
  rw [lists_policy, holds_listsPolicy_select] at hsee
  exact holds_rlsCanViewList.mpr ⟨venueList, hmem, hid, hsee⟩

/-- The items after one of them has been given a position. -/
theorem mem_setPosition {itemId : Uuid} {k : String} {db : Db} {x : ListItem} :
    x ∈ (listItems.set itemId (setPosition k) setPosition_id db).listItems ↔
      ∃ y ∈ db.listItems, (if y.id = itemId then { y with position := k } else y) = x := by
  simp only [TableDef.set, listItems, Table.mem_modify, decide_eq_true_eq, setPosition,
    Option.getD_some]

/-- Moving an item leaves the others. -/
theorem get_setPosition_of_ne {id itemId : Uuid} {k : String} {db : Db} (hne : id ≠ itemId) :
    (listItems.set itemId (setPosition k) setPosition_id db).listItems.get id =
      db.listItems.get id := by
  refine Table.get_congr fun x hx => ?_
  rw [mem_setPosition]
  constructor
  · rintro ⟨y, hy, rfl⟩
    split at hx
    · next hid => exact absurd (hx.symm.trans hid) hne
    · next hid => rwa [if_neg hid]
  · intro hmem
    exact ⟨x, hmem, if_neg fun hid => hne (hx.symm.trans hid)⟩

namespace ListedAs

variable {db : Db} {listId : Uuid} {IsKey : String → Prop} {items before after : List ListItem}
  {me : Identity} {place : Place} {k : String}

/-- The query for the items in order returns the items in order. -/
theorem orderBy_rows (h : ListedAs db listId IsKey items)
    (hsee : (rlsCanViewList me db listId).Holds) (plan : Plan ListItem) :
    orderBy (fun a b => decide (a.position ≤ b.position)) plan
      (listItems.rows me db fun r => decide (r.listId = listId)) = items := by
  refine h.ordered.orderBy_eq plan listItems.rows_nodup fun r => ?_
  rw [mem_rows_of_canSee hsee, h.mem]

/-- The bounds of a gap between keys are keys. -/
theorem isKey_bounds (hkeys : ∀ r ∈ before ++ after, IsKey r.position) :
    (∀ x ∈ lower ListItem.position before, IsKey x) ∧
      ∀ y ∈ upper ListItem.position after, IsKey y := by
  refine ⟨fun x hx => ?_, fun y hy => ?_⟩
  · obtain ⟨r, hr, rfl⟩ := Option.map_eq_some_iff.mp hx
    exact hkeys r (List.mem_append_left _ (List.mem_of_getLast? hr))
  · obtain ⟨r, hr, rfl⟩ := Option.map_eq_some_iff.mp hy
    exact hkeys r (List.mem_append_right _ (List.mem_of_head? hr))

/-- The package finds a key for each gap. -/
theorem exists_key (hordered : Ordered ListItem.position (before ++ after))
    (hkeys : ∀ r ∈ before ++ after, IsKey r.position) {c : Ctx} (hc : c.GeneratesKeys IsKey) :
    ∃ k, c.generateKeyBetween (lower ListItem.position before) (upper ListItem.position after) =
      some k ∧ IsKey k ∧
        Between (lower ListItem.position before) (upper ListItem.position after) k := by
  obtain ⟨hlower, hupper⟩ := isKey_bounds hkeys
  exact hc _ _ hlower hupper hordered.lower_lt_upper

/-- A row with a new id and a key for a gap goes into the gap. -/
theorem insert (h : ListedAs db listId IsKey (before ++ after)) {item : ListItem}
    (hnew : db.listItems.get item.id = none) (hlist : item.listId = listId)
    (hkey : IsKey item.position)
    (hbetween : Between (lower ListItem.position before) (upper ListItem.position after)
      item.position) :
    ListedAs { db with listItems := db.listItems.insert item } listId IsKey
      (before ++ item :: after) where
  ordered := h.ordered.insert hbetween
  mem r := by
    have hold := h.mem r
    rw [List.mem_append] at hold
    rw [Table.mem_insert hnew, List.mem_append, List.mem_cons]
    constructor
    · rintro (hr | rfl | hr)
      · exact ⟨.inl (hold.mp (.inl hr)).1, (hold.mp (.inl hr)).2⟩
      · exact ⟨.inr rfl, hlist⟩
      · exact ⟨.inl (hold.mp (.inr hr)).1, (hold.mp (.inr hr)).2⟩
    · rintro ⟨hr | rfl, hr'⟩
      · exact (hold.mpr ⟨hr, hr'⟩).imp id .inr
      · exact .inr (.inl rfl)
  keys r hr := by
    rcases List.mem_append.mp hr with hr | hr
    · exact h.keys r (List.mem_append_left _ hr)
    · rcases List.mem_cons.mp hr with rfl | hr
      · exact hkey
      · exact h.keys r (List.mem_append_right _ hr)

/-- A row of the list with a key for a gap goes into the gap, and its old place is closed. -/
theorem move (h : ListedAs db listId IsKey (before ++ after)) {item : ListItem}
    (hitem : item ∈ before ++ after) (hkey : IsKey k)
    (hbetween : Between (lower ListItem.position before) (upper ListItem.position after) k) :
    ListedAs (listItems.set item.id (setPosition k) setPosition_id db) listId IsKey
      (without item.id before ++ { item with position := k } :: without item.id after) where
  ordered := by
    have hinsert : Ordered ListItem.position (before ++ { item with position := k } :: after) :=
      h.ordered.insert hbetween
    refine hinsert.sublist ?_
    exact List.filter_sublist.append (List.filter_sublist.cons_cons _)
  mem r := by
    obtain ⟨hstored, hlist⟩ := (h.mem item).mp hitem
    rw [mem_setPosition, List.mem_append, List.mem_cons, mem_without, mem_without]
    constructor
    · intro hr
      have hcases : r = { item with position := k } ∨ r ∈ before ++ after ∧ r.id ≠ item.id := by
        rw [List.mem_append]
        tauto
      rcases hcases with rfl | ⟨hr, hne⟩
      · exact ⟨⟨item, hstored, if_pos rfl⟩, hlist⟩
      · obtain ⟨hr, hrlist⟩ := (h.mem r).mp hr
        exact ⟨⟨r, hr, if_neg hne⟩, hrlist⟩
    · rintro ⟨⟨y, hy, rfl⟩, hrlist⟩
      by_cases hid : y.id = item.id
      · obtain rfl := Table.eq_of_key_eq hy hstored hid
        exact .inr (.inl (if_pos rfl))
      · rw [if_neg hid] at hrlist ⊢
        have hold := (h.mem y).mpr ⟨hy, hrlist⟩
        rw [List.mem_append] at hold
        tauto
  keys r hr := by
    rcases List.mem_append.mp hr with hr | hr
    · exact h.keys r (List.mem_append_left _ (mem_without.mp hr).1)
    · rcases List.mem_cons.mp hr with rfl | hr
      · exact hkey
      · exact h.keys r (List.mem_append_right _ (mem_without.mp hr).1)

/-- Deleting a row closes its place. -/
theorem remove (h : ListedAs db listId IsKey items) {itemId : Uuid} {p : ListItem → Bool}
    (hp : ∀ r ∈ db.listItems, p r = true ↔ r.id = itemId) :
    ListedAs (listItems.erase p db) listId IsKey (without itemId items) where
  ordered := h.ordered.sublist List.filter_sublist
  mem r := by
    show r ∈ without itemId items ↔ r ∈ db.listItems.erase p ∧ r.listId = listId
    rw [mem_without, h.mem, Table.mem_erase]
    constructor
    · rintro ⟨⟨hr, hlist⟩, hne⟩
      refine ⟨⟨hr, ?_⟩, hlist⟩
      rw [← Bool.not_eq_true]
      exact mt (hp r hr).mp hne
    · rintro ⟨⟨hr, hpr⟩, hlist⟩
      refine ⟨⟨hr, hlist⟩, fun hid => ?_⟩
      rw [(hp r hr).mpr hid] at hpr
      cases hpr
  keys r hr := h.keys r (mem_without.mp hr).1

end ListedAs

/-! ## What each call does alone -/

/-- The call has raised, though not for want of a key, and nothing of it is committed. -/
def Raised {α : Type} (run : Except PyError α × Conn Db Identity) (db : Db) : Prop :=
  ∃ e, run.1 = .error e ∧ e ≠ .invalidOrderKey ∧ run.2.committed = db

section Run

variable {c : Ctx} {db : Db} {listId itemId venueId : Uuid} {IsKey : String → Prop}
  {items : List ListItem} {me : Identity} {currentUser : User} {place : Place}

/-- The gap at a place, and a key for it. -/
theorem run_placePosition (place : Place) (hc : c.GeneratesKeys IsKey)
    (h : ListedAs db listId IsKey items) (hsee : (rlsCanViewList me db listId).Holds)
    {loaded : Option ListItem} (hloaded : ∀ item ∈ loaded, item ∈ db.listItems) :
    (∃ missing, (placePosition c listId loaded place).run (Conn.start me db) =
      ((listItemNotFound missing : Service String).run (Conn.start me db))) ∨
    ∃ before after k, place.cut items = .ok (before, after) ∧
      (placePosition c listId loaded place).run (Conn.start me db) = (.ok k, Conn.start me db) ∧
      IsKey k ∧ Between (lower ListItem.position before) (upper ListItem.position after) k := by
  have hsame : items.map (asLoaded loaded) = items := by
    rw [List.map_congr_left fun r hr => ?_, List.map_id]
    refine asLoaded_eq_self fun item hitem hid => ?_
    exact Table.eq_of_key_eq (hloaded item hitem) ((h.mem r).mp hr).1 hid
  simp only [placePosition, orderedItems, Prog.bind_eq, run_query_bind, Conn.start_vars,
    Conn.start_working, h.orderBy_rows hsee, hsame]
  cases hcut : place.cut items with
  | error missing => exact .inl ⟨missing, rfl⟩
  | ok cut =>
    obtain ⟨before, after⟩ := cut
    obtain rfl := Place.append_of_cut hcut
    obtain ⟨k, hk, hkey, hbetween⟩ := ListedAs.exists_key h.ordered h.keys hc
    refine .inr ⟨before, after, k, rfl, ?_, hkey, hbetween⟩
    simp only [gapPosition, generateKeyBetween, hk]
    rfl

/-- An item that has been written under a list that the session sees is found again. -/
theorem run_refresh_listItems {conn : Conn Db Identity} {item : ListItem}
    (hmem : item ∈ conn.working.listItems)
    (hsee : (rlsCanViewList conn.vars conn.working item.listId).Holds) :
    (refresh listItems item.id).run conn = (.ok item, conn) := by
  have hlookup : listItems.lookup conn.vars conn.working item.id = some item :=
    listItems.lookup_eq_some.mpr ⟨hmem, rfl, hsee⟩
  exact run_refresh hlookup

/-- Adding a row. -/
theorem run_storeItem (me : Identity) (db : Db) (item : ListItem) :
    Raised ((storeItem item).run (Conn.start me db)) db ∨
    db.listItems.get item.id = none ∧
      (storeItem item).run (Conn.start me db) =
        (.ok item, Conn.start me { db with listItems := db.listItems.insert item }) := by
  simp only [storeItem, Prog.bind_eq, run_insert_bind, Conn.start_vars, Conn.start_working]
  cases hw : listItems.insertWrite me db item with
  | error e => exact .inl ⟨.database e, rfl, by simp, rfl⟩
  | ok wr =>
    obtain ⟨-, hsee, hnew, -, rfl⟩ := listItems.insertWrite_eq_ok.mp hw
    refine .inr ⟨hnew, ?_⟩
    dsimp only
    rw [run_commit_bind, run_refresh_listItems]
    · rfl
    · exact (Table.mem_insert hnew).mpr (.inr rfl)
    · exact hsee

/-- Writing the position of an item. -/
theorem run_storePosition (me : Identity) (db : Db) {item : ListItem} {k : String}
    (hitem : listItems.lookup me db item.id = some item) (hne : k ≠ item.position) :
    Raised ((storePosition item item.id k).run (Conn.start me db)) db ∨
    ∃ r, (storePosition item item.id k).run (Conn.start me db) =
      (.ok r, Conn.start me (listItems.set item.id (setPosition k) setPosition_id db)) := by
  simp only [storePosition, ne_eq, hne, not_false_eq_true, if_true, Prog.bind_eq, run_update_bind,
    Conn.start_vars, Conn.start_working]
  cases hw : listItems.updateWrite me db item.id (setPosition k) setPosition_id with
  | error e => exact .inl ⟨.database e, rfl, by simp, rfl⟩
  | ok wr =>
    obtain ⟨r, r', hr, -, hset, -, hsee, -, rfl⟩ := listItems.updateWrite_eq_ok hw
    obtain rfl := Option.some.inj (hitem.symm.trans hr)
    obtain rfl := Option.some.inj hset
    have hmem : { item with position := k } ∈
        (listItems.set item.id (setPosition k) setPosition_id db).listItems :=
      mem_setPosition.mpr ⟨item, (listItems.lookup_eq_some.mp hitem).1, if_pos rfl⟩
    let conn := Conn.start me (listItems.set item.id (setPosition k) setPosition_id db)
    exact .inr ⟨_, @run_refresh_listItems conn { item with position := k } hmem hsee⟩

/-- Deleting an item of a list that the session may change. -/
theorem run_deleteItem (hsee : (rlsCanViewList me db listId).Holds)
    (hown : (rlsIsOwnerOrAdminOfList me db listId).Holds) {item : ListItem}
    (hitem : listItems.lookup me db item.id = some item) (hlist : item.listId = listId) :
    ∃ p : ListItem → Bool, (∀ r ∈ db.listItems, p r = true ↔ r.id = item.id) ∧
      ((listItems.delete item.id : Service Unit).bind fun _ => commit).run (Conn.start me db) =
        (.ok (), Conn.start me (listItems.erase p db)) := by
  subst hlist
  let matched := listItems.deletable me db fun r => decide (r.id = item.id)
  refine ⟨fun r => decide (r.id ∈ matched.map ListItem.id), ?_, ?_⟩
  · intro r hr
    rw [decide_eq_true_eq, List.mem_map]
    constructor
    · rintro ⟨x, hx, hid⟩
      obtain ⟨-, hxid, -⟩ := listItems.mem_deletable.mp hx
      rw [← hid]
      exact of_decide_eq_true hxid
    · intro hid
      refine ⟨item, listItems.mem_deletable.mpr ?_, hid.symm⟩
      exact ⟨(listItems.lookup_eq_some.mp hitem).1, decide_eq_true rfl, hsee, hown⟩
  · have hw : listItems.deleteWrite me db (fun r => decide (r.id = item.id)) = .ok _ :=
      listItems.deleteWrite_eq_ok.mpr ⟨fun _ _ => rfl, rfl⟩
    rw [run_delete_bind]
    simp only [Conn.start_vars, Conn.start_working, hw]
    rfl

end Run

/-! ## The reference list -/

/-- An entry of the reference list: the item and its venue. -/
abbrev Entry := Uuid × Uuid

def ListItem.entry (r : ListItem) : Entry := (r.id, r.venueId)

/-- Put an entry right after the one with the given id. -/
def insertAfter (itemId : Uuid) (e : Entry) : List Entry → List Entry
  | [] => []
  | x :: rest => if x.1 = itemId then x :: e :: rest else x :: insertAfter itemId e rest

/-- Put an entry at a place. -/
def Place.insert (e : Entry) : Place → List Entry → List Entry
  | .atEnd, l => l ++ [e]
  | .first, l => e :: l
  | .after itemId, l => insertAfter itemId e l

/-- A call on the list. -/
inductive ListCall where
  | add (c : Ctx) (currentUser : User) (venueId : Uuid) (afterItemId : Option Uuid)
  | move (c : Ctx) (currentUser : User) (itemId : Uuid) (afterItemId : Option Uuid)
  | remove (currentUser : User) (itemId : Uuid)

namespace ListCall

def prog (listId : Uuid) : ListCall → Service Unit
  | .add c currentUser venueId afterItemId => do
    let _ ← addListItem c listId currentUser venueId afterItemId
    return ()
  | .move c currentUser itemId afterItemId => do
    let _ ← moveListItem c listId itemId currentUser afterItemId
    return ()
  | .remove currentUser itemId => removeListItem listId itemId currentUser

def currentUser : ListCall → User
  | .add _ u _ _ | .move _ u _ _ | .remove u _ => u

/-- The item that the call adds, moves or removes. -/
def target : ListCall → Uuid
  | .add c .. => c.uuid4 0
  | .move _ _ itemId _ | .remove _ itemId => itemId

/-- The package makes keys for the call. -/
def GeneratesKeys (IsKey : String → Prop) : ListCall → Prop
  | .add c .. | .move c .. => c.GeneratesKeys IsKey
  | .remove .. => True

/-- The call with a `generate_key_between` that raises outside its precondition. -/
def guarded : ListCall → ListCall
  | .add c u venueId afterItemId => .add c.guarded u venueId afterItemId
  | .move c u itemId afterItemId => .move c.guarded u itemId afterItemId
  | .remove u itemId => .remove u itemId

/-- What the call does to the reference list. -/
def apply : ListCall → List Entry → List Entry
  | .add c _ venueId afterItemId, l => (Place.ofAdd afterItemId).insert (c.uuid4 0, venueId) l
  | .move _ _ itemId afterItemId, l =>
    if afterItemId = some itemId then l
    else match l.find? fun e => e.1 = itemId with
      | none => l
      | some e => (Place.ofMove afterItemId).insert e (l.filter fun e => e.1 ≠ itemId)
  | .remove _ itemId, l => l.filter fun e => e.1 ≠ itemId

end ListCall

/-! ## Gaps of the reference list -/

/-- An entry is put behind the first one with the id. -/
theorem insertAfter_append {itemId : Uuid} {e x : Entry} {init rest : List Entry}
    (hinit : ∀ y ∈ init, y.1 ≠ itemId) (hx : x.1 = itemId) :
    insertAfter itemId e (init ++ x :: rest) = init ++ x :: e :: rest := by
  induction init with
  | nil => simp [insertAfter, hx]
  | cons y init ih =>
    obtain ⟨hy, hinit⟩ := List.forall_mem_cons.mp hinit
    rw [List.cons_append, insertAfter, if_neg hy, ih hinit]
    rfl

/-- The gap that the code finds is the one at the place. -/
theorem Place.insert_of_cut {place : Place} {items before after : List ListItem}
    (h : place.cut items = .ok (before, after)) (e : Entry) :
    place.insert e (items.map ListItem.entry) =
      before.map ListItem.entry ++ e :: after.map ListItem.entry := by
  cases place with
  | atEnd =>
    obtain ⟨rfl, rfl⟩ := Prod.mk.inj (Except.ok.inj h)
    rfl
  | first =>
    obtain ⟨rfl, rfl⟩ := Prod.mk.inj (Except.ok.inj h)
    rfl
  | after itemId =>
    rw [Place.cut] at h
    split at h
    · next cut hcut =>
      obtain rfl := Except.ok.inj h
      obtain ⟨init, item, rfl, rfl, hitem, hinit⟩ := cutAfter_eq_some hcut
      simp only [Place.insert, List.map_append, List.map_cons, List.map_nil, List.append_assoc,
        List.singleton_append]
      refine insertAfter_append ?_ hitem
      intro y hy
      obtain ⟨x, hx, rfl⟩ := List.mem_map.mp hy
      exact hinit x hx
    · cases h

/-- Cutting behind an item and leaving another one out may be done in either order. -/
theorem cutAfter_without {itemId moved : Uuid} (hne : itemId ≠ moved)
    {items before after : List ListItem} (h : cutAfter itemId items = some (before, after)) :
    cutAfter itemId (without moved items) = some (without moved before, without moved after) := by
  induction items generalizing before with
  | nil => exact absurd h (by simp [cutAfter])
  | cons x rest ih =>
    rw [cutAfter] at h
    by_cases hx : x.id = itemId
    · rw [if_pos hx] at h
      obtain ⟨rfl, rfl⟩ := Prod.mk.inj (Option.some.inj h)
      simp [without, cutAfter, hx, hne]
    · rw [if_neg hx] at h
      obtain ⟨cut, hcut, heq⟩ := Option.map_eq_some_iff.mp h
      obtain ⟨rfl, rfl⟩ := Prod.mk.inj heq
      have hih := ih hcut
      by_cases hkept : x.id = moved
      · simpa [without, hkept] using hih
      · have hcons : without moved (x :: rest) = x :: without moved rest := by
          simp [without, hkept]
        rw [hcons, cutAfter, if_neg hx, hih]
        simp [without, hkept]

/-- Taking an item out of the list leaves the other gaps where they are. -/
theorem Place.cut_without {place : Place} {moved : Uuid} (hne : place ≠ .after moved)
    {items before after : List ListItem} (h : place.cut items = .ok (before, after)) :
    place.cut (without moved items) = .ok (without moved before, without moved after) := by
  cases place with
  | atEnd =>
    obtain ⟨rfl, rfl⟩ := Prod.mk.inj (Except.ok.inj h)
    rfl
  | first =>
    obtain ⟨rfl, rfl⟩ := Prod.mk.inj (Except.ok.inj h)
    rfl
  | after itemId =>
    rw [Place.cut] at h
    split at h
    · next cut hcut =>
      obtain rfl := Except.ok.inj h
      have hne' : itemId ≠ moved := fun heq => hne (by rw [heq])
      rw [Place.cut, cutAfter_without hne' hcut]
    · cases h

/-! ## One call -/

/-- The call is done: the list is the one that the reference list says, and every item but its
target is what it was. -/
structure Done (call : ListCall) (listId : Uuid) (IsKey : String → Prop) (items : List ListItem)
    (db db' : Db) : Prop where
  listed : ∃ items', ListedAs db' listId IsKey items' ∧
    items'.map ListItem.entry = call.apply (items.map ListItem.entry)
  others : ∀ id, id ≠ call.target → db'.listItems.get id = db.listItems.get id
  users : db'.users = db.users

section Call

variable {db : Db} {listId : Uuid} {IsKey : String → Prop} {items : List ListItem}

/-- Raising is the first way to end, and the checks know no other error than their own. -/
theorem raised_of_checks {α β : Type} {p : Service α} {f : α → Service β} {me : Identity}
    {e : PyError} (hread : p.ReadOnly) (hraises : p.RaisesOnly NotKeyError)
    (h : (p.run (Conn.start me db)).1 = .error e) :
    Raised ((p.bind f).run (Conn.start me db)) db := by
  rw [hread.run_bind, h]
  exact ⟨e, rfl, hraises.run h, rfl⟩

/-- An addition puts the entry where the abstract list has it, or is refused and changes nothing. -/
theorem addListItem_spec (h : ListedAs db listId IsKey items) {c : Ctx}
    (hc : c.GeneratesKeys IsKey) (currentUser : User) (venueId : Uuid)
    (afterItemId : Option Uuid) :
    let run := (addListItem c listId currentUser venueId afterItemId).run
      (Conn.start (some currentUser.id) db)
    Raised run db ∨ (∃ item, run.1 = .ok item) ∧
      Done (.add c currentUser venueId afterItemId) listId IsKey items db run.2.committed := by
  have hread := readOnly_addChecks listId currentUser venueId
  have hraises := raises_addChecks listId currentUser venueId
  rw [addListItem_eq]
  cases hchecks : ((addChecks listId currentUser venueId).run
      (Conn.start (some currentUser.id) db)).1 with
  | error e => exact .inl (raised_of_checks hread hraises hchecks)
  | ok _ =>
    obtain ⟨venueList, hlist, -⟩ := owned_of_addChecks hchecks
    have hsee : (rlsCanViewList (some currentUser.id) db listId).Holds := canSee_of_lookup hlist
    rw [hread.run_bind, hchecks]
    dsimp only
    rw [Prog.run_bind]
    have hnone : ∀ item ∈ (none : Option ListItem), item ∈ db.listItems := by simp
    rcases run_placePosition (.ofAdd afterItemId) hc h hsee hnone with
      ⟨missing, hmissing⟩ | ⟨before, after, k, hcut, hk, hkey, hbetween⟩
    · rw [hmissing]
      exact .inl ⟨_, rfl, by simp, rfl⟩
    · rw [hk]
      dsimp only
      rcases run_storeItem (some currentUser.id) db (newItem c listId venueId k) with
        hraised | ⟨hnew, hstored⟩
      · exact .inl hraised
      · obtain rfl := Place.append_of_cut hcut
        rw [hstored]
        refine .inr ⟨⟨_, rfl⟩, ⟨_, h.insert hnew rfl hkey hbetween, ?_⟩, ?_, rfl⟩
        · rw [ListCall.apply, Place.insert_of_cut hcut, List.map_append, List.map_cons]
          rfl
        · intro id hne
          exact Table.get_insert_of_ne hne

/-- The list after a move is the reference list after the move. -/
theorem map_entry_move {before after : List ListItem} {item : ListItem} {k : String}
    {afterItemId : Option Uuid} (c : Ctx) (currentUser : User)
    (hcut : (Place.ofMove afterItemId).cut (before ++ after) = .ok (before, after))
    (hitem : item ∈ before ++ after)
    (hid : ∀ x ∈ before ++ after, ∀ y ∈ before ++ after, x.id = y.id → x = y)
    (hnodup : (before ++ after).Nodup) :
    (without item.id before ++ { item with position := k } :: without item.id after).map
        ListItem.entry =
      (ListCall.move c currentUser item.id afterItemId).apply
        ((before ++ after).map ListItem.entry) := by
  have hmoved : (without item.id before ++ { item with position := k } ::
      without item.id after).map ListItem.entry =
      (without item.id before).map ListItem.entry ++ item.entry ::
        (without item.id after).map ListItem.entry := by
    rw [List.map_append, List.map_cons]
    rfl
  rw [hmoved, ListCall.apply]
  by_cases hself : afterItemId = some item.id
  · -- the item is the last one before the gap, and stays where it is
    subst hself
    rw [if_pos rfl]
    obtain ⟨init, x, hbefore, -, hx, hinit⟩ : ∃ init x, before = init ++ [x] ∧
        before ++ after = before ++ after ∧ x.id = item.id ∧ ∀ y ∈ init, y.id ≠ item.id := by
      rw [Place.ofMove, Place.cut] at hcut
      split at hcut
      · next cut heq =>
        rw [Except.ok.inj hcut] at heq
        exact cutAfter_eq_some heq
      · cases hcut
    subst hbefore
    obtain rfl : x = item := hid x (by simp) item hitem hx
    have hafter : ∀ y ∈ after, y.id ≠ x.id := by
      intro y hy heq
      obtain rfl := hid y (List.mem_append_right _ hy) x (by simp) heq
      exact (List.nodup_append.mp hnodup).2.2 y (by simp) y hy rfl
    have hfilter : without x.id (init ++ [x]) = init ∧ without x.id after = after := by
      constructor
      · rw [without, List.filter_append, List.filter_eq_self.mpr (by simpa using hinit)]
        simp
      · exact List.filter_eq_self.mpr (by simpa using hafter)
    rw [hfilter.1, hfilter.2]
    simp
  · rw [if_neg hself]
    have hfind : ((before ++ after).map ListItem.entry).find? (fun e => e.1 = item.id) =
        some item.entry := by
      cases hfound : ((before ++ after).map ListItem.entry).find? (fun e => e.1 = item.id) with
      | none =>
        have hnone := List.find?_eq_none.mp hfound item.entry (List.mem_map_of_mem hitem)
        exact absurd (decide_eq_true rfl) hnone
      | some e =>
        obtain ⟨y, hy, rfl⟩ := List.mem_map.mp (List.mem_of_find?_eq_some hfound)
        have hyid := List.find?_some hfound
        rw [decide_eq_true_eq] at hyid
        rw [hid y hy item hitem hyid]
    have hplace : Place.ofMove afterItemId ≠ .after item.id := by
      cases afterItemId with
      | none => simp [Place.ofMove]
      | some itemId => exact fun heq => hself (by rw [Place.after.inj heq])
    have hfiltered : ((before ++ after).map ListItem.entry).filter (fun e => e.1 ≠ item.id) =
        (without item.id (before ++ after)).map ListItem.entry := by
      rw [List.filter_map]
      rfl
    rw [hfind]
    dsimp only
    rw [hfiltered, Place.insert_of_cut (Place.cut_without hplace hcut)]

/-- A move does, too. -/
theorem moveListItem_spec (h : ListedAs db listId IsKey items) {c : Ctx}
    (hc : c.GeneratesKeys IsKey) (currentUser : User) (itemId : Uuid)
    (afterItemId : Option Uuid) :
    let run := (moveListItem c listId itemId currentUser afterItemId).run
      (Conn.start (some currentUser.id) db)
    Raised run db ∨ (∃ item, run.1 = .ok item) ∧
      Done (.move c currentUser itemId afterItemId) listId IsKey items db run.2.committed := by
  have hread := readOnly_itemChecks listId itemId currentUser
  have hraises := raises_itemChecks listId itemId currentUser
  rw [moveListItem_eq]
  cases hchecks : ((itemChecks listId itemId currentUser).run
      (Conn.start (some currentUser.id) db)).1 with
  | error e => exact .inl (raised_of_checks hread hraises hchecks)
  | ok item =>
    obtain ⟨⟨venueList, hlist, -⟩, hlookup, hitemList⟩ := owned_of_itemChecks hchecks
    have hsee : (rlsCanViewList (some currentUser.id) db listId).Holds := canSee_of_lookup hlist
    obtain ⟨hmem, rfl, -⟩ := listItems.lookup_eq_some.mp hlookup
    rw [hread.run_bind, hchecks]
    dsimp only
    rw [Prog.run_bind]
    have hloaded : ∀ x ∈ some item, x ∈ db.listItems := by simpa using hmem
    rcases run_placePosition (.ofMove afterItemId) hc h hsee hloaded with
      ⟨missing, hmissing⟩ | ⟨before, after, k, hcut, hk, hkey, hbetween⟩
    · rw [hmissing]
      exact .inl ⟨_, rfl, by simp, rfl⟩
    · rw [hk]
      dsimp only
      obtain rfl := Place.append_of_cut hcut
      have hitem : item ∈ before ++ after := (h.mem item).mpr ⟨hmem, hitemList⟩
      -- the new key is in a gap, where the item is not
      have hne : k ≠ item.position := by
        rintro rfl
        exact h.ordered.not_between hitem hbetween
      have hstore := run_storePosition (some currentUser.id) db hlookup hne
      rcases hstore with hraised | ⟨r, hstored⟩
      · exact .inl hraised
      · rw [hstored]
        refine .inr ⟨⟨_, rfl⟩, ⟨_, h.move hitem hkey hbetween, ?_⟩, ?_, rfl⟩
        · refine map_entry_move c currentUser hcut hitem (fun x hx y hy hxy => ?_) h.ordered.nodup
          exact Table.eq_of_key_eq ((h.mem x).mp hx).1 ((h.mem y).mp hy).1 hxy
        · intro id hne
          exact get_setPosition_of_ne hne

/-- A removal takes the entry out, or is refused and changes nothing. -/
theorem removeListItem_spec (h : ListedAs db listId IsKey items) {currentUser : User}
    (hstored : db.Stored currentUser) (itemId : Uuid) :
    let run := (removeListItem listId itemId currentUser).run
      (Conn.start (some currentUser.id) db)
    Raised run db ∨ run.1 = .ok () ∧
      Done (.remove currentUser itemId) listId IsKey items db run.2.committed := by
  have hread := readOnly_itemChecks listId itemId currentUser
  have hraises := raises_itemChecks listId itemId currentUser
  rw [removeListItem_eq]
  cases hchecks : ((itemChecks listId itemId currentUser).run
      (Conn.start (some currentUser.id) db)).1 with
  | error e => exact .inl (raised_of_checks hread hraises hchecks)
  | ok item =>
    obtain ⟨⟨venueList, hlist, howner⟩, hlookup, hitemList⟩ := owned_of_itemChecks hchecks
    have hsee : (rlsCanViewList (some currentUser.id) db listId).Holds := canSee_of_lookup hlist
    have hown : (rlsIsOwnerOrAdminOfList (some currentUser.id) db listId).Holds := by
      obtain ⟨hmem, hid, -⟩ := lists.lookup_eq_some.mp hlist
      have hget : db.lists.get listId = some venueList := Table.get_eq_some.mpr ⟨hmem, hid⟩
      simp only [rlsIsOwnerOrAdminOfList, hget, holds_rlsIsOwnerOrAdmin]
      exact hstored.isOwnerOrAdmin_iff.mp howner
    obtain ⟨hmem, rfl, -⟩ := listItems.lookup_eq_some.mp hlookup
    rw [hread.run_bind, hchecks]
    dsimp only
    obtain ⟨p, hp, hrun⟩ := run_deleteItem hsee hown hlookup hitemList
    rw [hrun]
    refine .inr ⟨rfl, ⟨_, h.remove hp, ?_⟩, ?_, rfl⟩
    · simp only [ListCall.apply, without, List.filter_map]
      rfl
    · intro id hne
      refine Table.get_erase_of_not fun r hr hrid => ?_
      rw [← Bool.not_eq_true, hp r hr, hrid]
      exact hne

/-- Dropping the result of a call. -/
theorem run_drop {α : Type} {p : Service α} {conn : Conn Db Identity} {call : ListCall}
    (h : Raised (p.run conn) db ∨ (∃ a, (p.run conn).1 = .ok a) ∧
      Done call listId IsKey items db (p.run conn).2.committed) :
    let run := (p.bind fun _ => (return () : Service Unit)).run conn
    Raised run db ∨ run.1 = .ok () ∧ Done call listId IsKey items db run.2.committed := by
  rw [Prog.run_bind]
  generalize p.run conn = run at h
  obtain ⟨res, conn'⟩ := run
  rcases h with ⟨e, rfl, hne, hsame⟩ | ⟨⟨a, rfl⟩, hdone⟩
  · exact .inl ⟨e, rfl, hne, hsame⟩
  · exact .inr ⟨rfl, hdone⟩

/-- Each call raises and changes nothing, or does what it does to the reference list. -/
theorem ListCall.spec (h : ListedAs db listId IsKey items) {call : ListCall}
    (hc : call.GeneratesKeys IsKey) (hstored : db.Stored call.currentUser) :
    let run := (call.prog listId).run (Conn.start (some call.currentUser.id) db)
    Raised run db ∨ run.1 = .ok () ∧ Done call listId IsKey items db run.2.committed := by
  cases call with
  | add c u venueId afterItemId => exact run_drop (addListItem_spec h hc u venueId afterItemId)
  | move c u itemId afterItemId => exact run_drop (moveListItem_spec h hc u itemId afterItemId)
  | remove u itemId => exact removeListItem_spec h hstored itemId

/-- On a list with distinct keys no call asks for a key but between two of which the first is below
the second. -/
theorem ListCall.guarded_ne_invalidOrderKey (h : ListedAs db listId IsKey items) {call : ListCall}
    (hc : call.GeneratesKeys IsKey) (hstored : db.Stored call.currentUser) :
    (call.guarded.prog listId).outcome (some call.currentUser.id) db ≠
      .error .invalidOrderKey := by
  have hguarded : call.guarded.GeneratesKeys IsKey := by
    cases call with
    | add | move => exact Ctx.GeneratesKeys.guarded hc
    | remove => trivial
  have hsame : call.guarded.currentUser = call.currentUser := by cases call <;> rfl
  intro he
  rw [Prog.outcome, ← hsame] at he
  rw [← hsame] at hstored
  rcases call.guarded.spec h hguarded hstored with ⟨e, he', hne, -⟩ | ⟨hok, -⟩
  · exact hne (Except.error.inj (he'.symm.trans he))
  · exact absurd (hok.symm.trans he) (by simp)

end Call

/-! ## Every run -/

/-- The next call, on the data and on the reference list. The session is the caller's. -/
def ListCall.step (listId : Uuid) (s : Db × List Entry) (call : ListCall) : Db × List Entry :=
  let run := (call.prog listId).run (Conn.start (some call.currentUser.id) s.1)
  (run.2.committed,
    match run.1 with
    | .ok () => call.apply s.2
    | .error _ => s.2)

/-- The calls, one at a time, from a list without items. -/
def runCalls (listId : Uuid) (db : Db) (calls : List ListCall) : Db × List Entry :=
  calls.foldl (ListCall.step listId) (db, [])

section Run

variable {db : Db} {listId : Uuid} {IsKey : String → Prop}

/-- The state of the list after some calls. -/
structure Refines (db : Db) (listId : Uuid) (IsKey : String → Prop) (s : Db × List Entry) :
    Prop where
  listed : ∃ items, ListedAs s.1 listId IsKey items ∧ items.map ListItem.entry = s.2
  users : s.1.users = db.users

/-- No request on a list removes a user. -/
theorem Refines.stored {s : Db × List Entry} (h : Refines db listId IsKey s) {user : User}
    (hstored : db.Stored user) : s.1.Stored user := by
  rwa [Db.Stored, h.users]

/-- One request on both levels leaves the order of the keys the order of the list. -/
theorem Refines.step {s : Db × List Entry} (h : Refines db listId IsKey s) {call : ListCall}
    (hc : call.GeneratesKeys IsKey) (hstored : db.Stored call.currentUser) :
    Refines db listId IsKey (call.step listId s) := by
  obtain ⟨items, hlisted, hentries⟩ := h.listed
  rcases call.spec hlisted hc (h.stored hstored) with ⟨e, he, -, hsame⟩ | ⟨hok, hdone⟩
  · simp only [ListCall.step, he, hsame]
    exact h
  · obtain ⟨items', hlisted', hentries'⟩ := hdone.listed
    simp only [ListCall.step, hok]
    exact ⟨⟨items', hlisted', by rw [hentries', hentries]⟩, hdone.users.trans h.users⟩

/-- So do any requests one after the other, from an empty list on. -/
theorem refines_runCalls (hempty : ∀ r ∈ db.listItems, r.listId ≠ listId) {calls : List ListCall}
    (hkeys : ∀ call ∈ calls, call.GeneratesKeys IsKey)
    (hstored : ∀ call ∈ calls, db.Stored call.currentUser) :
    Refines db listId IsKey (runCalls listId db calls) := by
  induction calls using List.reverseRecOn with
  | nil =>
    have hnone : ∀ r, r ∈ [] ↔ r ∈ db.listItems ∧ r.listId = listId := by
      simpa using hempty
    exact ⟨⟨[], ⟨List.Pairwise.nil, hnone, fun r hr => absurd hr List.not_mem_nil⟩, rfl⟩, rfl⟩
  | append_singleton calls call ih =>
    rw [List.forall_mem_append, List.forall_mem_singleton] at hkeys hstored
    rw [runCalls, List.foldl_append, List.foldl_cons, List.foldl_nil]
    exact (ih hkeys.1 hstored.1).step hkeys.2 hstored.2

/-- After any calls, one at a time, the items that are read are those of the reference list, and
their positions are distinct. Whatever call comes next asks for no key but between two of which the
first is below the second; if it raises it leaves the data as they are, and it never changes an item
that is not its target. -/
theorem list_order_refines (db : Db) (listId : Uuid) (IsKey : String → Prop)
    (calls : List ListCall) (hempty : ∀ r ∈ db.listItems, r.listId ≠ listId)
    (hkeys : ∀ call ∈ calls, call.GeneratesKeys IsKey)
    (hstored : ∀ call ∈ calls, db.Stored call.currentUser) :
    (∀ me plan limit, (rlsCanViewList me (runCalls listId db calls).1 listId).Holds →
      (runCalls listId db calls).2.length ≤ limit →
      ∃ items, (listItemsForList plan listId limit 0).outcome me (runCalls listId db calls).1 =
          .ok items ∧ items.map ListItem.entry = (runCalls listId db calls).2) ∧
    (∀ r ∈ (runCalls listId db calls).1.listItems,
      ∀ r' ∈ (runCalls listId db calls).1.listItems,
        r.listId = listId → r'.listId = listId → r.position = r'.position → r = r') ∧
    ∀ call : ListCall, call.GeneratesKeys IsKey → db.Stored call.currentUser →
      ((call.guarded.prog listId).outcome (some call.currentUser.id)
          (runCalls listId db calls).1 ≠ .error .invalidOrderKey) ∧
      (∀ e, (call.prog listId).outcome (some call.currentUser.id)
          (runCalls listId db calls).1 = .error e →
        (call.prog listId).after (some call.currentUser.id) (runCalls listId db calls).1 =
          (runCalls listId db calls).1) ∧
      ∀ id, id ≠ call.target →
        ((call.prog listId).after (some call.currentUser.id)
          (runCalls listId db calls).1).listItems.get id =
            (runCalls listId db calls).1.listItems.get id := by
  have h := refines_runCalls hempty hkeys hstored
  generalize runCalls listId db calls = s at h
  obtain ⟨items, hlisted, hentries⟩ := h.listed
  refine ⟨fun me plan limit hsee hlimit => ?_, fun r hr r' hr' hlist hlist' heq => ?_,
    fun call hc hcaller => ⟨?_, fun e he => ?_, fun id hne => ?_⟩⟩
  · have hlength : items.length ≤ limit := by
      rwa [← hentries, List.length_map] at hlimit
    have hread : page limit 0 _ = items :=
      (congrArg (page limit 0) (hlisted.orderBy_rows hsee plan)).trans (page_of_length_le hlength)
    exact ⟨items, congrArg Except.ok hread, hentries⟩
  · exact List.inj_on_of_nodup_map hlisted.ordered.nodup_map ((hlisted.mem r).mpr ⟨hr, hlist⟩)
      ((hlisted.mem r').mpr ⟨hr', hlist'⟩) heq
  · exact call.guarded_ne_invalidOrderKey hlisted hc (h.stored hcaller)
  · rcases call.spec hlisted hc (h.stored hcaller) with ⟨e', -, -, hsame⟩ | ⟨hok, -⟩
    · exact hsame
    · rw [Prog.outcome, hok] at he
      cases he
  · rcases call.spec hlisted hc (h.stored hcaller) with ⟨e', -, -, hsame⟩ | ⟨-, hdone⟩
    · rw [Prog.after, hsame]
    · exact hdone.others id hne

end Run

/-! ## A package that makes keys

The real package packs its keys tighter. This one agrees with it on the keys of short lists, and
otherwise lengthens one of the two keys that it is given. -/

section Sample

/-- A text is a key if its last character leaves room below it. -/
def IsSampleKey (text : String) : Prop := ∃ init c, text.toList = init ++ [c] ∧ '!' < c

/-- A little below the key. -/
def belowKey (b : List Char) : List Char := b.dropLast ++ ['!', '1']

/-- A little above the key. -/
def aboveKey (a : List Char) : List Char := a ++ ['1']

/-- A key between two keys of which the first is below the second. -/
def sampleKey : Option String → Option String → Option String
  | none, none => some "a0"
  | some a, none => some (if a = "a0" then "a1" else String.ofList (aboveKey a.toList))
  | none, some b => some (if b = "a0" then "Zz" else String.ofList (belowKey b.toList))
  | some a, some b =>
    if a < b then
      some (String.ofList
        (if a.toList.isPrefixOf b.toList then belowKey b.toList else aboveKey a.toList))
    else none

/-- A text is below every longer one that it begins. -/
theorem lt_append_cons (a : List Char) (x : Char) (xs : List Char) : a < a ++ x :: xs := by
  have h := @List.append_left_lt _ _ a _ _ (List.nil_lt_cons x xs)
  rwa [List.append_nil] at h

/-- The key above is a key. -/
theorem isSampleKey_above (a : List Char) : IsSampleKey (String.ofList (aboveKey a)) :=
  ⟨a, '1', String.toList_ofList, by decide⟩

/-- So is the key below. -/
theorem isSampleKey_below (b : List Char) : IsSampleKey (String.ofList (belowKey b)) :=
  ⟨b.dropLast ++ ['!'], '1', by rw [String.toList_ofList, belowKey, List.append_assoc]; rfl,
    by decide⟩

/-- The key below is below. -/
theorem belowKey_lt {b : String} (hb : IsSampleKey b) : belowKey b.toList < b.toList := by
  obtain ⟨init, c, hinit, hc⟩ := hb
  rw [hinit, belowKey, List.dropLast_concat]
  exact List.append_left_lt (List.cons_lt_cons_iff.mpr (.inl hc))

/-- A proper prefix of a key is below what is a little below the key. -/
theorem lt_belowKey {a : List Char} {b : String} (hb : IsSampleKey b) (hstarts : a <+: b.toList)
    (hne : a ≠ b.toList) : a < belowKey b.toList := by
  obtain ⟨init, c, hinit, -⟩ := hb
  rw [hinit] at hstarts hne
  rw [hinit, belowKey, List.dropLast_concat]
  rcases List.prefix_concat_iff.mp hstarts with heq | ⟨t, rfl⟩
  · exact absurd heq hne
  · rw [List.append_assoc]
    cases t with
    | nil => exact lt_append_cons a '!' ['1']
    | cons x t => exact lt_append_cons a x (t ++ ['!', '1'])

/-- Two texts that differ at some place still do when the lower one is lengthened. -/
theorem aboveKey_lt {a b : List Char} (hlt : a < b) (hstarts : ¬ a <+: b) : aboveKey a < b := by
  induction a generalizing b with
  | nil => exact absurd List.nil_prefix hstarts
  | cons x a ih =>
    cases b with
    | nil => exact absurd hlt (by simp)
    | cons y b =>
      refine List.cons_lt_cons_iff.mpr ?_
      rcases List.cons_lt_cons_iff.mp hlt with hxy | ⟨rfl, htail⟩
      · exact .inl hxy
      · exact .inr ⟨rfl, ih htail fun h => hstarts (List.cons_prefix_cons.mpr ⟨rfl, h⟩)⟩

/-- A context whose package makes keys, and which hands out one id. -/
def Ctx.sample (now : Timestamp) (id : Uuid) : Ctx :=
  { Ctx.fixed now id with generateKeyBetween := sampleKey }

/-- The sample generator finds keys as `GeneratesKeys` says. -/
theorem generatesKeys_sample (now : Timestamp) (id : Uuid) :
    (Ctx.sample now id).GeneratesKeys IsSampleKey := by
  intro a b ha hb hlt
  show ∃ k, sampleKey a b = some k ∧ _
  match a, b with
  | none, none => exact ⟨_, rfl, ⟨['a'], '0', rfl, by decide⟩, nofun, nofun⟩
  | some a, none =>
    refine ⟨_, rfl, ?_, ?_, nofun⟩
    · split
      · exact ⟨['a'], '1', rfl, by decide⟩
      · exact isSampleKey_above a.toList
    · rintro _ ⟨⟩
      split
      · next heq =>
        rw [heq]
        decide
      · rw [String.lt_iff_toList_lt, String.toList_ofList]
        exact lt_append_cons a.toList '1' []
  | none, some b =>
    refine ⟨_, rfl, ?_, nofun, ?_⟩
    · split
      · exact ⟨['Z'], 'z', rfl, by decide⟩
      · exact isSampleKey_below b.toList
    · rintro _ ⟨⟩
      split
      · next heq =>
        rw [heq]
        decide
      · rw [String.lt_iff_toList_lt, String.toList_ofList]
        exact belowKey_lt (hb b rfl)
  | some a, some b =>
    have hab : a < b := hlt a rfl b rfl
    have hlist : a.toList < b.toList := String.lt_iff_toList_lt.mp hab
    simp only [sampleKey, if_pos hab]
    refine ⟨_, rfl, ?_, ?_, ?_⟩
    · split
      · exact isSampleKey_below b.toList
      · exact isSampleKey_above a.toList
    · rintro _ ⟨⟩
      rw [String.lt_iff_toList_lt, String.toList_ofList]
      split
      · next hstarts =>
        exact lt_belowKey (hb b rfl) (List.isPrefixOf_iff_prefix.mp hstarts) (ne_of_lt hlist)
      · exact lt_append_cons a.toList '1' []
    · rintro _ ⟨⟩
      rw [String.lt_iff_toList_lt, String.toList_ofList]
      split
      · exact belowKey_lt (hb b rfl)
      · next hstarts =>
        exact aboveKey_lt hlist fun h => hstarts (List.isPrefixOf_iff_prefix.mpr h)

/-! ### A list of two venues -/

def listOwner : User := User.create 1 "clerk" "sub_1" "ada" "Ada" 0

/-- A venue without any of the optional columns. -/
def sampleVenue (id : Uuid) : Venue :=
  { id, name := "Cafe", lat := 41, lng := 29, addressNote := none, googlePlacesId := none,
    addedBy := none, categoryId := 5, city := none, countryCode := none, timezone := none,
    district := none, isVerified := false, isActive := true, isSuspended := false, createdAt := 0 }

/-- Ada has an empty list, and there are two venues. -/
def emptyListDb : Db :=
  { Db.empty with
    users := Sql.Table.empty.insert listOwner
    venues := (Sql.Table.empty.insert (sampleVenue 6)).insert (sampleVenue 7)
    lists := Sql.Table.empty.insert ⟨5, 1, "Coffee", none, "public", 0⟩ }

/-- Ada puts both venues on the list, and drags the second one to the front. -/
def dragToFront : List ListCall :=
  [.add (.sample 1 21) listOwner 6 none, .add (.sample 2 22) listOwner 7 none,
    .move (.sample 3 23) listOwner 22 none]

/-- Two items are added and the second one is dragged to the front: the listing shows it first. -/
theorem list_order_refines_dragToFront :
    ∃ items, (listItemsForList .sequential 5 100 0).outcome (some 1)
        (runCalls 5 emptyListDb dragToFront).1 = .ok items ∧
      items.map ListItem.entry = [(22, 7), (21, 6)] := by
  have hkeys : ∀ call ∈ dragToFront, call.GeneratesKeys IsSampleKey := by
    simp [dragToFront, ListCall.GeneratesKeys, generatesKeys_sample]
  have howner : emptyListDb.Stored listOwner := ⟨listOwner, by decide, rfl, rfl⟩
  have hstored : ∀ call ∈ dragToFront, emptyListDb.Stored call.currentUser := by
    simp [dragToFront, ListCall.currentUser, howner]
  have hread := (list_order_refines emptyListDb 5 IsSampleKey dragToFront (by decide) hkeys
    hstored).1 (some 1) .sequential 100 (by decide) (by decide)
  exact hread

end Sample

end OburBackend
