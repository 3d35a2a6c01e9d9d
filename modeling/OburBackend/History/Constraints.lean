import OburBackend.History.Past

/-!
# The constraints over whole runs

Every statement checks the constraints of the row that it writes, and a deletion takes along what
refers to the deleted rows. `Steps db db'` says this of one change of the data, table by table;
`Steps.consistent` concludes that the constraints of every stored row hold afterwards, and
`consistent_of_calls` that they hold in every state that a sequence of requests reaches.
-/

namespace OburBackend

open Sql Prog

/-! ## Unique constraints -/

section Unique

variable {ρ π β : Type} [DecidableEq π] [DecidableEq β] {key : ρ → π} {t t' : Table key}
  {value : ρ → Option β} {r x : ρ}

/-- A row that comes in satisfies its unique constraint there, and so do the others. -/
theorem uniqueIn_of_puts (h : t.Puts r t') (hr : uniqueIn t value r = true) (hx : x ∈ t')
    (hold : x ∈ t → uniqueIn t value x = true) : uniqueIn t' value x = true := by
  refine uniqueIn_eq_true.mpr fun y hy hne heq => ?_
  rcases h.rows x hx with rfl | ⟨hxt, hxr⟩
  · rcases h.rows y hy with rfl | ⟨hyt, -⟩
    · exact absurd rfl hne
    · exact uniqueIn_eq_true.mp hr y hyt hne heq
  · rcases h.rows y hy with rfl | ⟨hyt, -⟩
    · have hnone := uniqueIn_eq_true.mp hr x hxt hxr heq.symm
      rw [← heq, hnone]
    · exact uniqueIn_eq_true.mp (hold hxt) y hyt hne heq

end Unique

/-- The rows of `t'` have passed the constraints of the table on the data `db`, each of them
together with a row beside which its values are unique in `t'`. -/
def Admits {ρ π : Type} [DecidableEq π] {key : ρ → π} (T : DbTable key) (db : Db)
    (t' : Table key) : Prop :=
  ∀ x ∈ t', T.constraints db x = true ∧ ∃ r, T.constraints db r = true ∧
    ∀ {β : Type} [DecidableEq β] (value : ρ → Option β), uniqueIn (T.read db) value x = true →
      uniqueIn (T.read db) value r = true → uniqueIn t' value x = true

section Admits

variable {ρ π : Type} [DecidableEq π] {key : ρ → π} {T : DbTable key} {db : Db} {t' : Table key}

/-- The rows of valid data have passed the constraints. -/
theorem admits_of_valid (h : T.Valid db) : Admits T db (T.read db) :=
  fun x hx => ⟨h x hx, x, h x hx, fun _ hvalue _ => hvalue⟩

/-- So have they when some of them go. -/
theorem admits_of_subset (h : T.Valid db) (hsub : ∀ x ∈ t', x ∈ T.read db) : Admits T db t' :=
  fun x hx => ⟨h x (hsub x hx), x, h x (hsub x hx), fun _ hvalue _ =>
    uniqueIn_of_subset hvalue hsub⟩

/-- So have they when a row comes that passes them. -/
theorem admits_of_puts (h : T.Valid db) {r : ρ} (hr : T.constraints db r = true)
    (hputs : (T.read db).Puts r t') : Admits T db t' := by
  intro x hx
  refine ⟨?_, r, hr, fun value hvalue hvalue' => uniqueIn_of_puts hputs hvalue' hx fun _ => hvalue⟩
  rcases hputs.rows x hx with rfl | ⟨hx, -⟩
  · exact hr
  · exact h x hx

end Admits

/-! ## One change of the data -/

/-- The data changes from `db` to `db'` in a way that the constraints allow. -/
structure Steps (db db' : Db) : Prop where
  users : Admits users db db'.users
  follows : Admits follows db db'.follows
  closeFriends : Admits closeFriends db db'.closeFriends
  blocks : Admits blocks db db'.blocks
  mutes : Admits mutes db db'.mutes
  venueCategories : db'.venueCategories = db.venueCategories
  venues : Admits venues db db'.venues
  checkins : Admits checkins db db'.checkins
  lists : Admits lists db db'.lists
  listItems : Admits listItems db db'.listItems
  venueSaves : Admits venueSaves db db'.venueSaves
  checkinLikes : Admits checkinLikes db db'.checkinLikes
  listLikes : Admits listLikes db db'.listLikes
  checkinBookmarks : Admits checkinBookmarks db db'.checkinBookmarks
  listBookmarks : Admits listBookmarks db db'.listBookmarks
  notifications : Admits notifications db db'.notifications
  contentReports : Admits contentReports db db'.contentReports
  venueReports : Admits venueReports db db'.venueReports
  /-- What the foreign keys refer to stays. -/
  hasUser : ∀ id, db.hasUser id = true → db'.hasUser id = true
  hasVenue : ∀ id, db.hasVenue id = true → db'.hasVenue id = true
  hasFollow : ∀ r ∈ db'.closeFriends, (db.follows.get (r.friendId, r.userId)).isSome = true →
    (db'.follows.get (r.friendId, r.userId)).isSome = true
  likedCheckin : ∀ r ∈ db'.checkinLikes, db.hasCheckin r.targetId = true →
    db'.hasCheckin r.targetId = true
  bookmarkedCheckin : ∀ r ∈ db'.checkinBookmarks, db.hasCheckin r.targetId = true →
    db'.hasCheckin r.targetId = true
  listOfItem : ∀ r ∈ db'.listItems, db.hasList r.listId = true → db'.hasList r.listId = true
  likedList : ∀ r ∈ db'.listLikes, db.hasList r.targetId = true → db'.hasList r.targetId = true
  bookmarkedList : ∀ r ∈ db'.listBookmarks, db.hasList r.targetId = true →
    db'.hasList r.targetId = true

section Steps

variable {db db' : Db}

/-- Consistent data may stay as they are. -/
theorem Consistent.steps (h : Consistent db) : Steps db db where
  users := admits_of_valid h.users
  follows := admits_of_valid h.follows
  closeFriends := admits_of_valid h.closeFriends
  blocks := admits_of_valid h.blocks
  mutes := admits_of_valid h.mutes
  venueCategories := rfl
  venues := admits_of_valid h.venues
  checkins := admits_of_valid h.checkins
  lists := admits_of_valid h.lists
  listItems := admits_of_valid h.listItems
  venueSaves := admits_of_valid h.venueSaves
  checkinLikes := admits_of_valid h.checkinLikes
  listLikes := admits_of_valid h.listLikes
  checkinBookmarks := admits_of_valid h.checkinBookmarks
  listBookmarks := admits_of_valid h.listBookmarks
  notifications := admits_of_valid h.notifications
  contentReports := admits_of_valid h.contentReports
  venueReports := admits_of_valid h.venueReports
  hasUser _ h := h
  hasVenue _ h := h
  hasFollow _ _ h := h
  likedCheckin _ _ h := h
  bookmarkedCheckin _ _ h := h
  listOfItem _ _ h := h
  likedList _ _ h := h
  bookmarkedList _ _ h := h

/-- An account that is referred to is still there. -/
theorem Steps.hasUser? (h : Steps db db') {reference : Option Uuid}
    (href : db.hasUser? reference = true) : db'.hasUser? reference = true := by
  cases reference with
  | none => rfl
  | some id => exact h.hasUser id href

/-- The categories are the same. -/
theorem Steps.hasCategory (h : Steps db db') : db'.hasCategory = db.hasCategory :=
  funext fun id => by rw [Db.hasCategory, Db.hasCategory, h.venueCategories]

/-- Every constraint holds afterwards. -/
theorem Steps.consistent (h : Steps db db') 
    (hcategories : OburBackend.venueCategories.Valid db) :
    Consistent db' where
  users r hr := by
    obtain ⟨hcons, r', hcons', hunique⟩ := h.users r hr
    change usersConstraints db r = true at hcons
    change usersConstraints db r' = true at hcons'
    show usersConstraints db' r = true
    simp only [usersConstraints, Bool.and_eq_true] at hcons hcons' ⊢
    exact ⟨hunique _ hcons.1 hcons'.1, hunique _ hcons.2.1 hcons'.2.1,
      hunique _ hcons.2.2 hcons'.2.2⟩
  follows r hr := by
    obtain ⟨hcons, -⟩ := h.follows r hr
    change followsConstraints db r = true at hcons
    show followsConstraints db' r = true
    simp only [followsConstraints, Bool.and_eq_true] at hcons ⊢
    exact ⟨hcons.1, h.hasUser _ hcons.2.1, h.hasUser _ hcons.2.2⟩
  closeFriends r hr := h.hasFollow r hr (h.closeFriends r hr).1
  blocks r hr := by
    obtain ⟨hcons, -⟩ := h.blocks r hr
    change blocksConstraints db r = true at hcons
    show blocksConstraints db' r = true
    simp only [blocksConstraints, Bool.and_eq_true] at hcons ⊢
    exact ⟨hcons.1, h.hasUser _ hcons.2.1, h.hasUser _ hcons.2.2⟩
  mutes r hr := by
    obtain ⟨hcons, -⟩ := h.mutes r hr
    change mutesConstraints db r = true at hcons
    show mutesConstraints db' r = true
    simp only [mutesConstraints, Bool.and_eq_true] at hcons ⊢
    exact ⟨hcons.1, h.hasUser _ hcons.2.1, h.hasUser _ hcons.2.2⟩
  venueCategories r hr := by
    have hr : r ∈ db.venueCategories := h.venueCategories ▸ hr
    have hcons : venueCategoriesConstraints db r = true := hcategories r hr
    show venueCategoriesConstraints db' r = true
    rw [venueCategoriesConstraints, h.venueCategories, h.hasCategory]
    exact hcons
  venues r hr := by
    obtain ⟨hcons, r', hcons', hunique⟩ := h.venues r hr
    change venuesConstraints db r = true at hcons
    change venuesConstraints db r' = true at hcons'
    show venuesConstraints db' r = true
    simp only [venuesConstraints, Bool.and_eq_true] at hcons hcons' ⊢
    exact ⟨h.hasUser? hcons.1, h.hasCategory ▸ hcons.2.1, hunique _ hcons.2.2 hcons'.2.2⟩
  checkins r hr := by
    obtain ⟨hcons, -⟩ := h.checkins r hr
    change checkinsConstraints db r = true at hcons
    show checkinsConstraints db' r = true
    simp only [checkinsConstraints, Bool.and_eq_true] at hcons ⊢
    exact ⟨hcons.1, hcons.2.1, h.hasUser _ hcons.2.2.1, h.hasVenue _ hcons.2.2.2⟩
  lists r hr := by
    obtain ⟨hcons, -⟩ := h.lists r hr
    change listsConstraints db r = true at hcons
    show listsConstraints db' r = true
    simp only [listsConstraints, Bool.and_eq_true] at hcons ⊢
    exact ⟨hcons.1, h.hasUser _ hcons.2⟩
  listItems r hr := by
    obtain ⟨hcons, r', hcons', hunique⟩ := h.listItems r hr
    change listItemsConstraints db r = true at hcons
    change listItemsConstraints db r' = true at hcons'
    show listItemsConstraints db' r = true
    simp only [listItemsConstraints, Bool.and_eq_true] at hcons hcons' ⊢
    exact ⟨hunique _ hcons.1 hcons'.1, h.listOfItem r hr hcons.2.1, h.hasVenue _ hcons.2.2⟩
  venueSaves r hr := by
    obtain ⟨hcons, r', hcons', hunique⟩ := h.venueSaves r hr
    change venueSavesConstraints db r = true at hcons
    change venueSavesConstraints db r' = true at hcons'
    show venueSavesConstraints db' r = true
    simp only [venueSavesConstraints, Bool.and_eq_true] at hcons hcons' ⊢
    exact ⟨hunique _ hcons.1 hcons'.1, hcons.2.1, h.hasUser _ hcons.2.2.1,
      h.hasVenue _ hcons.2.2.2⟩
  checkinLikes r hr := by
    obtain ⟨hcons, -⟩ := h.checkinLikes r hr
    change checkinMarksConstraints db r = true at hcons
    show checkinMarksConstraints db' r = true
    simp only [checkinMarksConstraints, Bool.and_eq_true] at hcons ⊢
    exact ⟨h.hasUser _ hcons.1, h.likedCheckin r hr hcons.2⟩
  listLikes r hr := by
    obtain ⟨hcons, -⟩ := h.listLikes r hr
    change listMarksConstraints db r = true at hcons
    show listMarksConstraints db' r = true
    simp only [listMarksConstraints, Bool.and_eq_true] at hcons ⊢
    exact ⟨h.hasUser _ hcons.1, h.likedList r hr hcons.2⟩
  checkinBookmarks r hr := by
    obtain ⟨hcons, -⟩ := h.checkinBookmarks r hr
    change checkinMarksConstraints db r = true at hcons
    show checkinMarksConstraints db' r = true
    simp only [checkinMarksConstraints, Bool.and_eq_true] at hcons ⊢
    exact ⟨h.hasUser _ hcons.1, h.bookmarkedCheckin r hr hcons.2⟩
  listBookmarks r hr := by
    obtain ⟨hcons, -⟩ := h.listBookmarks r hr
    change listMarksConstraints db r = true at hcons
    show listMarksConstraints db' r = true
    simp only [listMarksConstraints, Bool.and_eq_true] at hcons ⊢
    exact ⟨h.hasUser _ hcons.1, h.bookmarkedList r hr hcons.2⟩
  notifications r hr := by
    obtain ⟨hcons, -⟩ := h.notifications r hr
    change notificationsConstraints db r = true at hcons
    show notificationsConstraints db' r = true
    simp only [notificationsConstraints, Bool.and_eq_true] at hcons ⊢
    exact ⟨h.hasUser _ hcons.1, h.hasUser? hcons.2⟩
  contentReports r hr := by
    obtain ⟨hcons, r', hcons', hunique⟩ := h.contentReports r hr
    change contentReportsConstraints db r = true at hcons
    change contentReportsConstraints db r' = true at hcons'
    show contentReportsConstraints db' r = true
    simp only [contentReportsConstraints, Bool.and_eq_true] at hcons hcons' ⊢
    exact ⟨hunique _ hcons.1 hcons'.1, hcons.2.1, h.hasUser? hcons.2.2.1,
      h.hasUser? hcons.2.2.2⟩
  venueReports r hr := by
    obtain ⟨hcons, r', hcons', hunique⟩ := h.venueReports r hr
    change venueReportsConstraints db r = true at hcons
    change venueReportsConstraints db r' = true at hcons'
    show venueReportsConstraints db' r = true
    simp only [venueReportsConstraints, Bool.and_eq_true] at hcons hcons' ⊢
    exact ⟨hunique _ hcons.1 hcons'.1, hcons.2.1, h.hasUser? hcons.2.2.1,
      h.hasUser? hcons.2.2.2.1, h.hasVenue _ hcons.2.2.2.2⟩

end Steps

/-! ## Every write of the application -/

section Tables

variable {ρ π : Type} [DecidableEq π] {key : ρ → π} {t t' : Table key} {k : π} {p : ρ → Bool}

/-- A key that is taken stays taken. -/
theorem isSome_get_of_puts {r : ρ} (h : t.Puts r t') (hk : (t.get k).isSome = true) :
    (t'.get k).isSome = true := by
  obtain ⟨x, hx, rfl⟩ := isSome_get.mp hk
  exact isSome_get.mpr (h.stays x hx)

/-- A row that is not deleted is still found. -/
theorem isSome_get_erase (hk : (t.get k).isSome = true) (hp : (t.get k).any p = false) :
    ((t.erase p).get k).isSome = true := by
  obtain ⟨r, hr⟩ := Option.isSome_iff_exists.mp hk
  rw [hr] at hp
  obtain ⟨hmem, hkey⟩ := Table.get_eq_some.mp hr
  exact isSome_get.mpr ⟨r, Table.mem_erase.mpr ⟨hmem, hp⟩, hkey⟩

/-- A statement on a table to which no foreign key refers. -/
theorem admits_of_changes {T : DbTable key} {R : ChangeRules ρ} {me : Identity} {db : Db}
    {wr : Write Db Lock} (h : T.Changes R me db wr)
    (hsimple : ∀ p, T.erase p = T.write fun t => t.erase p) (hvalid : T.Valid db) :
    ∃ g, wr.effect = T.write g ∧ Admits T db (g (T.read db)) := by
  cases h.onSeen with
  | puts hcons heffect hputs => exact ⟨_, heffect, admits_of_puts hvalid hcons hputs⟩
  | erases hdelete hr heffect =>
    exact ⟨_, heffect.trans (hsimple _),
      admits_of_subset hvalid fun x hx => (Table.mem_erase.mp hx).1⟩
  | nothing hdelete heffect =>
    exact ⟨_, heffect.trans (hsimple _),
      admits_of_subset hvalid fun x hx => (Table.mem_erase.mp hx).1⟩

end Tables

section Changes

variable {New : Uuid → Prop} {db : Db} {me : Identity} {wr : Write Db Lock}

/-- Follows may go, with the close friends that rest on them. -/
theorem Consistent.steps_eraseFollows (h : Consistent db) (p : Follow → Bool) :
    Steps db (eraseFollows p db) :=
  { h.steps with
    follows := admits_of_subset h.follows fun _ hx => (Table.mem_erase.mp hx).1
    closeFriends := admits_of_subset h.closeFriends fun _ hx => (Table.mem_erase.mp hx).1
    hasFollow := fun _ hr hfollow => isSome_get_erase hfollow (Table.mem_erase.mp hr).2 }

/-- Check-ins may go, with their likes and bookmarks. -/
theorem Consistent.steps_eraseCheckins (h : Consistent db) (p : Checkin → Bool) :
    Steps db (eraseCheckins p db) :=
  { h.steps with
    checkins := admits_of_subset h.checkins fun _ hx => (Table.mem_erase.mp hx).1
    checkinLikes := admits_of_subset h.checkinLikes fun _ hx => (Table.mem_erase.mp hx).1
    checkinBookmarks :=
      admits_of_subset h.checkinBookmarks fun _ hx => (Table.mem_erase.mp hx).1
    likedCheckin := fun _ hr hhas => isSome_get_erase hhas (Table.mem_erase.mp hr).2
    bookmarkedCheckin := fun _ hr hhas => isSome_get_erase hhas (Table.mem_erase.mp hr).2 }

/-- Lists may go, with their items, likes and bookmarks. -/
theorem Consistent.steps_eraseLists (h : Consistent db) (p : VenueList → Bool) :
    Steps db (eraseLists p db) :=
  { h.steps with
    lists := admits_of_subset h.lists fun _ hx => (Table.mem_erase.mp hx).1
    listItems := admits_of_subset h.listItems fun _ hx => (Table.mem_erase.mp hx).1
    listLikes := admits_of_subset h.listLikes fun _ hx => (Table.mem_erase.mp hx).1
    listBookmarks := admits_of_subset h.listBookmarks fun _ hx => (Table.mem_erase.mp hx).1
    listOfItem := fun _ hr hhas => isSome_get_erase hhas (Table.mem_erase.mp hr).2
    likedList := fun _ hr hhas => isSome_get_erase hhas (Table.mem_erase.mp hr).2
    bookmarkedList := fun _ hr hhas => isSome_get_erase hhas (Table.mem_erase.mp hr).2 }

/-- `rls_verify_venue_if_eligible` sets the flag of one venue, or of none. -/
theorem Consistent.steps_verify (h : Consistent db) (venueId : Uuid) (minCheckins : ℕ) :
    Steps db (setVerified ((db.venues.select (eligible db venueId minCheckins)).map Venue.id)
      db) := by
  have hid : ∀ v, eligible db venueId minCheckins v = true → v.id = venueId := by
    intro v hv
    rw [eligible, Bool.and_eq_true, decide_eq_true_eq] at hv
    exact hv.1
  rw [Table.select_of_key hid]
  cases hfound : (db.venues.get venueId).filter (eligible db venueId minCheckins) with
  | none =>
    exact (setVerified_nil db).symm ▸ h.steps
  | some v =>
    obtain ⟨hv, -⟩ := Table.get_eq_some.mp (Option.filter_eq_some_iff.mp hfound).1
    have hputs := Table.puts_modify (f := fun x : Venue => { x with isVerified := true })
      (fun _ => rfl) hv
    have hone : (fun x : Venue => decide (x.id ∈ [v.id])) = fun x => decide (x.id = v.id) :=
      funext fun x => decide_eq_decide.mpr List.mem_singleton
    have hset : setVerified [v.id] db = { db with
        venues := db.venues.modify (fun x => decide (x.id = v.id))
          (fun x => { x with isVerified := true }) fun _ => rfl } := by
      simp only [setVerified, hone]
    have hcons : venuesConstraints db { v with isVerified := true } = true := h.venues v hv
    show Steps db (setVerified [v.id] db)
    rw [hset]
    exact { h.steps with
      venues := admits_of_puts h.venues hcons hputs
      hasVenue := fun _ => isSome_get_of_puts hputs }

/-- A deletion that matches nobody. -/
theorem eraseUsers_nobody (db : Db) : eraseUsers (fun _ => false) db = db := by
  have hgone : db.goes (fun _ => false) = fun _ => false := by
    funext id
    rw [Db.goes]
    cases db.users.get id <;> rfl
  have herase {ρ π : Type} {key : ρ → π} (t : Table key) : t.erase (fun _ => false) = t :=
    Table.erase_eq_self fun _ _ => rfl
  have hget {ρ π : Type} [DecidableEq π] {key : ρ → π} (t : Table key) (k : π) :
      (t.get k).any (fun _ => false) = false := by
    cases t.get k <;> rfl
  have hactor (reference : Option Uuid) : reference.any (fun _ => false) = false := by
    cases reference <;> rfl
  have hkeep (reference : Option Uuid) : reference.filter (fun _ => true) = reference := by
    cases reference <;> rfl
  simp only [eraseUsers, eraseFollows, eraseCheckins, eraseLists, hgone, Bool.or_false, hget,
    hactor, herase, Bool.not_false, hkeep]
  rw [Table.modify_eq_self fun _ => rfl, Table.modify_eq_self fun _ => rfl,
    Table.modify_eq_self fun _ => rfl]

/-- A write to the accounts keeps every constraint of every table. -/
theorem consistent_users (h : users.Changes (userRules New) me db wr) (hdb : Consistent db) :
    Consistent (wr.effect db) := by
  cases h.onSeen with
  | puts hcons heffect hputs =>
    rw [heffect]
    have hsteps : Steps db (users.write _ db) := { hdb.steps with
      users := admits_of_puts hdb.users hcons hputs
      hasUser := fun _ => isSome_get_of_puts hputs }
    exact hsteps.consistent hdb.venueCategories
  | erases hdelete hr heffect =>
    rw [heffect]
    exact (purged_eraseUsers hdb hr).consistent hdb
  | nothing hdelete heffect =>
    rw [heffect]
    show Consistent (eraseUsers _ db)
    rw [eraseUsers_nobody]
    exact hdb

/-- What a write leaves of consistent data is consistent. -/
theorem consistent_change (h : Change New me db wr) (hdb : Consistent db) :
    Consistent (wr.effect db) := by
  have hcategories := hdb.venueCategories
  cases h with
  | users h => exact consistent_users h hdb
  | follows h =>
    cases h.onSeen with
    | puts hcons heffect hputs =>
      rw [heffect]
      have hsteps : Steps db (follows.write _ db) := { hdb.steps with
        follows := admits_of_puts hdb.follows hcons hputs
        hasFollow := fun _ _ => isSome_get_of_puts hputs }
      exact hsteps.consistent hcategories
    | erases hdelete hr heffect =>
      rw [heffect]
      exact (hdb.steps_eraseFollows _).consistent hcategories
    | nothing hdelete heffect =>
      rw [heffect]
      exact (hdb.steps_eraseFollows _).consistent hcategories
  | checkins h =>
    cases h.onSeen with
    | puts hcons heffect hputs =>
      rw [heffect]
      have hsteps : Steps db (checkins.write _ db) := { hdb.steps with
        checkins := admits_of_puts hdb.checkins hcons hputs
        likedCheckin := fun _ _ => isSome_get_of_puts hputs
        bookmarkedCheckin := fun _ _ => isSome_get_of_puts hputs }
      exact hsteps.consistent hcategories
    | erases hdelete hr heffect =>
      rw [heffect]
      exact (hdb.steps_eraseCheckins _).consistent hcategories
    | nothing hdelete heffect =>
      rw [heffect]
      exact (hdb.steps_eraseCheckins _).consistent hcategories
  | lists h =>
    cases h.onSeen with
    | puts hcons heffect hputs =>
      rw [heffect]
      have hsteps : Steps db (lists.write _ db) := { hdb.steps with
        lists := admits_of_puts hdb.lists hcons hputs
        listOfItem := fun _ _ => isSome_get_of_puts hputs
        likedList := fun _ _ => isSome_get_of_puts hputs
        bookmarkedList := fun _ _ => isSome_get_of_puts hputs }
      exact hsteps.consistent hcategories
    | erases hdelete hr heffect =>
      rw [heffect]
      exact (hdb.steps_eraseLists _).consistent hcategories
    | nothing hdelete heffect =>
      rw [heffect]
      exact (hdb.steps_eraseLists _).consistent hcategories
  | venues h =>
    cases h.onSeen with
    | puts hcons heffect hputs =>
      rw [heffect]
      have hsteps : Steps db (venues.write _ db) := { hdb.steps with
        venues := admits_of_puts hdb.venues hcons hputs
        hasVenue := fun _ => isSome_get_of_puts hputs }
      exact hsteps.consistent hcategories
    | erases hdelete hr heffect => exact hdelete.elim
    | nothing hdelete heffect => exact hdelete.elim
  | verify h =>
    rw [h]
    exact (hdb.steps_verify _ _).consistent hcategories
  | closeFriends h =>
    obtain ⟨g, hg, hadmits⟩ := admits_of_changes h (fun _ => rfl) hdb.closeFriends
    rw [hg]
    have hsteps : Steps db (closeFriends.write g db) := { hdb.steps with
      closeFriends := hadmits
      hasFollow := fun _ _ hfollow => hfollow }
    exact hsteps.consistent hcategories
  | blocks h =>
    obtain ⟨g, hg, hadmits⟩ := admits_of_changes h (fun _ => rfl) hdb.blocks
    rw [hg]
    have hsteps : Steps db (blocks.write g db) := { hdb.steps with blocks := hadmits }
    exact hsteps.consistent hcategories
  | mutes h =>
    obtain ⟨g, hg, hadmits⟩ := admits_of_changes h (fun _ => rfl) hdb.mutes
    rw [hg]
    have hsteps : Steps db (mutes.write g db) := { hdb.steps with mutes := hadmits }
    exact hsteps.consistent hcategories
  | listItems h =>
    obtain ⟨g, hg, hadmits⟩ := admits_of_changes h (fun _ => rfl) hdb.listItems
    rw [hg]
    have hsteps : Steps db (listItems.write g db) := { hdb.steps with
      listItems := hadmits
      listOfItem := fun _ _ hlist => hlist }
    exact hsteps.consistent hcategories
  | venueSaves h =>
    obtain ⟨g, hg, hadmits⟩ := admits_of_changes h (fun _ => rfl) hdb.venueSaves
    rw [hg]
    have hsteps : Steps db (venueSaves.write g db) := { hdb.steps with venueSaves := hadmits }
    exact hsteps.consistent hcategories
  | checkinLikes h =>
    obtain ⟨g, hg, hadmits⟩ := admits_of_changes h (fun _ => rfl) hdb.checkinLikes
    rw [hg]
    have hsteps : Steps db (checkinLikes.write g db) := { hdb.steps with
      checkinLikes := hadmits
      likedCheckin := fun _ _ hcheckin => hcheckin }
    exact hsteps.consistent hcategories
  | listLikes h =>
    obtain ⟨g, hg, hadmits⟩ := admits_of_changes h (fun _ => rfl) hdb.listLikes
    rw [hg]
    have hsteps : Steps db (listLikes.write g db) := { hdb.steps with
      listLikes := hadmits
      likedList := fun _ _ hlist => hlist }
    exact hsteps.consistent hcategories
  | checkinBookmarks h =>
    obtain ⟨g, hg, hadmits⟩ := admits_of_changes h (fun _ => rfl) hdb.checkinBookmarks
    rw [hg]
    have hsteps : Steps db (checkinBookmarks.write g db) := { hdb.steps with
      checkinBookmarks := hadmits
      bookmarkedCheckin := fun _ _ hcheckin => hcheckin }
    exact hsteps.consistent hcategories
  | listBookmarks h =>
    obtain ⟨g, hg, hadmits⟩ := admits_of_changes h (fun _ => rfl) hdb.listBookmarks
    rw [hg]
    have hsteps : Steps db (listBookmarks.write g db) := { hdb.steps with
      listBookmarks := hadmits
      bookmarkedList := fun _ _ hlist => hlist }
    exact hsteps.consistent hcategories
  | notifications h =>
    obtain ⟨g, hg, hadmits⟩ := admits_of_changes h (fun _ => rfl) hdb.notifications
    rw [hg]
    have hsteps : Steps db (notifications.write g db) := { hdb.steps with notifications := hadmits }
    exact hsteps.consistent hcategories
  | contentReports h =>
    obtain ⟨g, hg, hadmits⟩ := admits_of_changes h (fun _ => rfl) hdb.contentReports
    rw [hg]
    have hsteps : Steps db (contentReports.write g db) :=
      { hdb.steps with contentReports := hadmits }
    exact hsteps.consistent hcategories
  | venueReports h =>
    obtain ⟨g, hg, hadmits⟩ := admits_of_changes h (fun _ => rfl) hdb.venueReports
    rw [hg]
    have hsteps : Steps db (venueReports.write g db) := { hdb.steps with venueReports := hadmits }
    exact hsteps.consistent hcategories
  | @purgeCheckinLikes p h =>
    rw [h]
    have hsteps : Steps db ((checkinLikes.definerDeleteWrite db p).effect db) := { hdb.steps with
      checkinLikes := admits_of_subset hdb.checkinLikes fun _ hx => (Table.mem_erase.mp hx).1
      likedCheckin := fun _ _ hcheckin => hcheckin }
    exact hsteps.consistent hcategories
  | @purgeListLikes p h =>
    rw [h]
    have hsteps : Steps db ((listLikes.definerDeleteWrite db p).effect db) := { hdb.steps with
      listLikes := admits_of_subset hdb.listLikes fun _ hx => (Table.mem_erase.mp hx).1
      likedList := fun _ _ hlist => hlist }
    exact hsteps.consistent hcategories
  | @purgeCheckinBookmarks p h =>
    rw [h]
    have hsteps : Steps db ((checkinBookmarks.definerDeleteWrite db p).effect db) :=
      { hdb.steps with
        checkinBookmarks :=
          admits_of_subset hdb.checkinBookmarks fun _ hx => (Table.mem_erase.mp hx).1
        bookmarkedCheckin := fun _ _ hcheckin => hcheckin }
    exact hsteps.consistent hcategories
  | @purgeListBookmarks p h =>
    rw [h]
    have hsteps : Steps db ((listBookmarks.definerDeleteWrite db p).effect db) := { hdb.steps with
      listBookmarks := admits_of_subset hdb.listBookmarks fun _ hx => (Table.mem_erase.mp hx).1
      bookmarkedList := fun _ _ hlist => hlist }
    exact hsteps.consistent hcategories
  | @purgeNotifications p h =>
    rw [h]
    have hsteps : Steps db ((notifications.definerDeleteWrite db p).effect db) := { hdb.steps with
      notifications := admits_of_subset hdb.notifications fun _ hx => (Table.mem_erase.mp hx).1 }
    exact hsteps.consistent hcategories
  | nothing h =>
    rw [h]
    exact hdb

end Changes

/-! ## Sequences of requests -/

/-- One request after the other, each on a connection of its own. -/
def serve (b : Backend) (db : Db) (calls : List Call) : Db :=
  calls.foldl (fun s call => (handle b call).after none s) db

/-- Every state that a sequence of requests reaches satisfies every `CHECK`, unique constraint and
foreign key of the schema, whoever has sent the requests and however each of them has ended. -/
theorem consistent_serve (b : Backend) (db : Db) (calls : List Call) (hdb : Consistent db) :
    Consistent (serve b db calls) := by
  induction calls generalizing db with
  | nil => exact hdb
  | cons call calls ih =>
    have hdraws : call.ctx.Draws fun _ => True := fun _ => trivial
    refine ih _ ((writes_handle hdraws).after ?_ hdb)
    exact fun _ _ _ h hs => consistent_change h hs

/-- Bob reports ada's venue and she leaves: the data stay consistent. -/
theorem consistent_serve_leavingCalls :
    Consistent (serve .plain leavingDb [leavingCalls false, leavingCalls true]) :=
  consistent_serve .plain leavingDb [leavingCalls false, leavingCalls true] (by decide)

end OburBackend
