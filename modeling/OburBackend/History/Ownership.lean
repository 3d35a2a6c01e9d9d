import OburBackend.History.Past

/-!
# A user's own content among other people's requests

`Untouched u db t` says that everything that is the user `u`'s own in the data `t` is what it was in
`db`: the account, the check-ins, the lists and what is on them, the saves; and that nothing else
has been added in the user's name. The row policies see to it, statement by statement
(`untouched_change`), once it is known that no session gets the identity of the user or of an
administrator (`safe_getCurrentUser`): the identity comes from the row that the token's subject
names, and that row belongs to the same subject for ever.
-/

namespace OburBackend

open Sql Prog

/-- What is the user's own is as it was, and nothing has been added in the user's name. -/
structure Untouched (u : Uuid) (db t : Db) : Prop where
  account : db.users.Agrees (fun r => r.id = u) t.users
  checkins : db.checkins.Agrees (fun c => c.userId = u) t.checkins
  lists : db.lists.Agrees (fun l => l.userId = u) t.lists
  listItems : db.listItems.Agrees (fun r => db.OwnsList u r.listId) t.listItems
  venueSaves : db.venueSaves.Agrees (fun r => r.userId = u) t.venueSaves
  follows : db.follows.AddsNone (fun r => r.followerId = u) t.follows
  closeFriends : db.closeFriends.AddsNone (fun r => r.userId = u) t.closeFriends
  blocks : db.blocks.AddsNone (fun r => r.blockerId = u) t.blocks
  mutes : db.mutes.AddsNone (fun r => r.userId = u) t.mutes
  checkinLikes : db.checkinLikes.AddsNone (fun r => r.userId = u) t.checkinLikes
  listLikes : db.listLikes.AddsNone (fun r => r.userId = u) t.listLikes
  checkinBookmarks : db.checkinBookmarks.AddsNone (fun r => r.userId = u) t.checkinBookmarks
  listBookmarks : db.listBookmarks.AddsNone (fun r => r.userId = u) t.listBookmarks

/-- Neither the user nor an administrator of `db`. -/
structure Db.Other (db : Db) (u : Uuid) (me : Identity) : Prop where
  user : me ≠ some u
  admin : ∀ a ∈ db.users, a.role = UserRole.admin → me ≠ some a.id

/-- What the requests of others keep. -/
structure Db.Spared (New : Uuid → Prop) (u : Uuid) (db t : Db) : Prop where
  users : (userRules New).Evolves db.users t.users
  untouched : Untouched u db t

section Statements

variable {New : Uuid → Prop} {u : Uuid} {db s t : Db} {me : Identity} {wr : Write Db Lock}

/-- At first everything is as it was. -/
theorem Untouched.refl (u : Uuid) (db : Db) : Untouched u db db where
  account := .refl _
  checkins := .refl _
  lists := .refl _
  listItems := .refl _
  venueSaves := .refl _
  follows := .refl _
  closeFriends := .refl _
  blocks := .refl _
  mutes := .refl _
  checkinLikes := .refl _
  listLikes := .refl _
  checkinBookmarks := .refl _
  listBookmarks := .refl _

/-- Nobody becomes an administrator. -/
theorem Db.Other.not_isAdmin (hme : db.Other u me)
    (husers : (userRules New).Evolves db.users s.users) : ¬ s.IsAdmin me := by
  rintro ⟨x, hx, hid, hrole⟩
  obtain ⟨r, hr, hbecame⟩ := husers x hx
  have hsame : r.SameAccount x := hbecame.edit User.SameAccount.refl
  have hadmin : r.role = UserRole.admin := hsame.role.symm.trans hrole
  rcases hr with hr | ⟨-, hplain⟩
  · exact hme.admin r hr hadmin (hid.trans (congrArg some hsame.id))
  · rw [hplain] at hadmin
    exact absurd hadmin (by decide)

/-- The rule for owners, for a session that is not the user's. -/
theorem Db.Other.owner_ne (hme : db.Other u me)
    (husers : (userRules New).Evolves db.users s.users) {owner : Uuid}
    (h : (rlsIsOwnerOrAdmin me s (some owner)).Holds) : owner ≠ u := by
  rintro rfl
  rcases holds_rlsIsOwnerOrAdmin.mp h with h | h
  · exact hme.user h
  · exact hme.not_isAdmin husers h

/-- A list that the session may write to is not the user's. -/
theorem Db.Other.not_ownsList (hme : db.Other u me) (hs : db.Spared New u s) {listId : Uuid}
    (h : (rlsIsOwnerOrAdminOfList me s listId).Holds) : ¬ db.OwnsList u listId := by
  rintro ⟨l, hl, rfl, hown⟩
  have hmem : l ∈ s.lists := (hs.untouched.lists l hown).mpr hl
  have hget : s.lists.get l.id = some l := Table.get_eq_some.mpr ⟨hmem, rfl⟩
  rw [rlsIsOwnerOrAdminOfList, hget] at h
  exact hme.owner_ne hs.users h hown

/-! ### Deletions and what they take along -/

/-- Lists of others may go, with what is on them. -/
theorem Untouched.eraseLists (ht : Untouched u db t) {p : VenueList → Bool}
    (hp : ∀ l, l.userId = u → l ∈ t.lists → p l = false) : Untouched u db (eraseLists p t) := by
  refine { ht with
    lists := ht.lists.erase hp
    listItems := ht.listItems.erase ?_
    listLikes := ht.listLikes.erase _
    listBookmarks := ht.listBookmarks.erase _ }
  rintro r ⟨l, hl, hid, hown⟩ -
  have hmem : l ∈ t.lists := (ht.lists l hown).mpr hl
  rw [Table.get_eq_some.mpr ⟨hmem, hid⟩]
  exact hp l hown hmem

/-- Check-ins of others may go. -/
theorem Untouched.eraseCheckins (ht : Untouched u db t) {p : Checkin → Bool}
    (hp : ∀ c, c.userId = u → c ∈ t.checkins → p c = false) :
    Untouched u db (eraseCheckins p t) :=
  { ht with
    checkins := ht.checkins.erase hp
    checkinLikes := ht.checkinLikes.erase _
    checkinBookmarks := ht.checkinBookmarks.erase _ }

/-- Any follow may go. -/
theorem Untouched.eraseFollows (ht : Untouched u db t) (p : Follow → Bool) :
    Untouched u db (eraseFollows p t) :=
  { ht with
    follows := ht.follows.erase _
    closeFriends := ht.closeFriends.erase _ }

/-- Other users go, with everything personal to them. -/
theorem Untouched.eraseUsers (ht : Untouched u db t) {p : User → Bool}
    (hp : ∀ r, r.id = u → r ∈ t.users → p r = false) : Untouched u db (eraseUsers p t) := by
  have hgone : t.goes p u = false := by
    rw [Db.goes, any_get_eq_false]
    rintro ⟨r, hr, hid, hpr⟩
    rw [hp r hid hr] at hpr
    cases hpr
  have h₁ := ht.eraseFollows fun r => t.goes p r.followerId || t.goes p r.followingId
  have h₂ := h₁.eraseCheckins (p := fun c => t.goes p c.userId) fun c hc _ => by
    rw [hc, hgone]
  have h₃ := h₂.eraseLists (p := fun l => t.goes p l.userId) fun l hl _ => by
    rw [hl, hgone]
  exact { h₃ with
    account := ht.account.erase hp
    venueSaves := ht.venueSaves.erase fun r hr _ => by rw [hr, hgone]
    blocks := ht.blocks.erase _
    mutes := ht.mutes.erase _
    checkinLikes := h₃.checkinLikes.erase _
    listLikes := h₃.listLikes.erase _
    checkinBookmarks := h₃.checkinBookmarks.erase _
    listBookmarks := h₃.listBookmarks.erase _ }

/-! ### One statement -/

/-- An insertion in the user's name is what the policy forbids. -/
theorem addsNone_of_owner {ρ π : Type} [DecidableEq π] {key : ρ → π} {T : DbTable key}
    {t₀ : Table key} {owner : ρ → Uuid} (h : T.Changes relationRules me s wr) (hT : T.Lens)
    (hme : db.Other u me) (hs : db.Spared New u s)
    (hpolicy : ∀ r, ((T.policy me s).insert r).Holds →
      (rlsIsOwnerOrAdmin me s (some (owner r))).Holds)
    (ht : t₀.AddsNone (fun r => owner r = u) (T.read t)) :
    t₀.AddsNone (fun r => owner r = u) (T.read (wr.effect t)) :=
  h.addsNone hT (fun r hr => hme.owner_ne hs.users (hpolicy r hr)) (fun _ _ h => h.elim) ht

variable (hnew : ∀ id, New id → id ≠ u)

include hnew in
/-- A write to the accounts by another session leaves what is the user's own. -/
theorem untouched_users (h : users.Changes (userRules New) me s wr) (hme : db.Other u me)
    (hs : db.Spared New u s) (ht : db.Spared New u t) : Untouched u db (wr.effect t) := by
  have hspares : users.Spares (userRules New) (fun r => r.id = u) me s :=
    { insert := fun r hadd _ => hnew _ hadd.1
      update := fun r _ hr => hme.owner_ne hs.users hr
      delete := fun r _ hr => hme.owner_ne hs.users hr
      edit := fun r r' hedit hr' => hedit.id.symm.trans hr' }
  have hrows := h.agrees ⟨fun _ _ => rfl, fun _ _ => rfl⟩ hspares hs.untouched.account
    ht.untouched.account
  cases h with
  | insert hadd h =>
    obtain ⟨-, -, -, -, rfl⟩ := users.insertWrite_eq_ok.mp h
    exact { ht.untouched with account := hrows }
  | update hedit h =>
    obtain ⟨_, _, -, -, -, -, -, -, rfl⟩ := users.updateWrite_eq_ok h
    exact { ht.untouched with account := hrows }
  | delete hdelete h =>
    obtain ⟨-, rfl⟩ := users.deleteWrite_eq_ok.mp h
    refine ht.untouched.eraseUsers fun r hr _ => decide_eq_false fun hk => ?_
    obtain ⟨x, hx, hxr⟩ := List.mem_map.mp hk
    obtain ⟨-, -, -, hpolicy⟩ := users.mem_deletable.mp hx
    exact hspares.delete x (users.mem_deletable.mp hx).1 hpolicy (hxr.trans hr)

/-- So does a write to the check-ins. -/
theorem untouched_checkins (h : checkins.Changes (checkinRules New) me s wr)
    (hme : db.Other u me) (hs : db.Spared New u s) (ht : db.Spared New u t) :
    Untouched u db (wr.effect t) := by
  have hspares : checkins.Spares (checkinRules New) (fun c => c.userId = u) me s :=
    { insert := fun c _ hc => hme.owner_ne hs.users hc
      update := fun c _ hc => hme.owner_ne hs.users hc
      delete := fun c _ hc => hme.owner_ne hs.users hc
      edit := fun c c' hedit hc' => hedit.userId.symm.trans hc' }
  have hrows := h.agrees ⟨fun _ _ => rfl, fun _ _ => rfl⟩ hspares hs.untouched.checkins
    ht.untouched.checkins
  rcases h.effect with ⟨g, hg⟩ | ⟨p, hp⟩
  · rw [hg] at hrows ⊢
    exact { ht.untouched with checkins := hrows }
  · rw [hp] at hrows ⊢
    exact { ht.untouched with
      checkins := hrows
      checkinLikes := ht.untouched.checkinLikes.erase _
      checkinBookmarks := ht.untouched.checkinBookmarks.erase _ }

/-- So does a write to the lists. -/
theorem untouched_lists (h : lists.Changes (listRules New) me s wr) (hme : db.Other u me)
    (hs : db.Spared New u s) (ht : db.Spared New u t) : Untouched u db (wr.effect t) := by
  have hspares : lists.Spares (listRules New) (fun l => l.userId = u) me s :=
    { insert := fun l _ hl => hme.owner_ne hs.users hl
      update := fun l _ hl => hme.owner_ne hs.users hl
      delete := fun l _ hl => hme.owner_ne hs.users hl
      edit := fun l l' hedit hl' => hedit.userId.symm.trans hl' }
  have hrows := h.agrees ⟨fun _ _ => rfl, fun _ _ => rfl⟩ hspares hs.untouched.lists
    ht.untouched.lists
  cases h with
  | insert hadd h =>
    obtain ⟨-, -, -, -, rfl⟩ := lists.insertWrite_eq_ok.mp h
    exact { ht.untouched with lists := hrows }
  | update hedit h =>
    obtain ⟨_, _, -, -, -, -, -, -, rfl⟩ := lists.updateWrite_eq_ok h
    exact { ht.untouched with lists := hrows }
  | delete hdelete h =>
    obtain ⟨-, rfl⟩ := lists.deleteWrite_eq_ok.mp h
    -- The user's lists are among those that the session has seen, and it could delete none of them.
    refine ht.untouched.eraseLists fun l hl hmem => decide_eq_false fun hk => ?_
    obtain ⟨x, hx, hxl⟩ := List.mem_map.mp hk
    obtain ⟨hx, -, -, hpolicy⟩ := lists.mem_deletable.mp hx
    have hseen : l ∈ s.lists :=
      (hs.untouched.lists l hl).mpr ((ht.untouched.lists l hl).mp hmem)
    exact hspares.delete x hx hpolicy (Table.eq_of_key_eq hseen hx hxl.symm ▸ hl)

/-- So does a write to the items of the lists. -/
theorem untouched_listItems (h : listItems.Changes (listItemRules New) me s wr)
    (hme : db.Other u me) (hs : db.Spared New u s) (ht : db.Spared New u t) :
    Untouched u db (wr.effect t) := by
  have hspares : listItems.Spares (listItemRules New) (fun r => db.OwnsList u r.listId) me s :=
    { insert := fun r _ hr => hme.not_ownsList hs hr
      update := fun r _ hr => hme.not_ownsList hs hr
      delete := fun r _ hr => hme.not_ownsList hs hr
      edit := fun r r' hedit hr' => hedit.listId ▸ hr' }
  have hrows := h.agrees ⟨fun _ _ => rfl, fun _ _ => rfl⟩ hspares hs.untouched.listItems
    ht.untouched.listItems
  obtain ⟨g, hg⟩ := h.effect_write fun _ => rfl
  rw [hg] at hrows ⊢
  exact { ht.untouched with listItems := hrows }

/-- So does a write to the saves. -/
theorem untouched_venueSaves (h : venueSaves.Changes (venueSaveRules New) me s wr)
    (hme : db.Other u me) (hs : db.Spared New u s) (ht : db.Spared New u t) :
    Untouched u db (wr.effect t) := by
  have hspares : venueSaves.Spares (venueSaveRules New) (fun r => r.userId = u) me s :=
    { insert := fun r _ hr => hme.owner_ne hs.users hr
      update := fun r _ hr => hme.owner_ne hs.users hr
      delete := fun r _ hr => hme.owner_ne hs.users hr
      edit := fun r r' hedit hr' => hedit.userId.symm.trans hr' }
  have hrows := h.agrees ⟨fun _ _ => rfl, fun _ _ => rfl⟩ hspares hs.untouched.venueSaves
    ht.untouched.venueSaves
  obtain ⟨g, hg⟩ := h.effect_write fun _ => rfl
  rw [hg] at hrows ⊢
  exact { ht.untouched with venueSaves := hrows }

include hnew in
/-- Every write of a session that is neither the user's nor an administrator's. -/
theorem untouched_change (h : Change New me s wr) (hme : db.Other u me)
    (hs : db.Spared New u s) (ht : db.Spared New u t) : Untouched u db (wr.effect t) := by
  cases h with
  | users h => exact untouched_users hnew h hme hs ht
  | checkins h => exact untouched_checkins h hme hs ht
  | lists h => exact untouched_lists h hme hs ht
  | listItems h => exact untouched_listItems h hme hs ht
  | venueSaves h => exact untouched_venueSaves h hme hs ht
  | follows h =>
    have hrows := addsNone_of_owner h ⟨fun _ _ => rfl, fun _ _ => rfl⟩ hme hs
      (fun _ hr => hr) ht.untouched.follows
    rcases h.effect with ⟨g, hg⟩ | ⟨p, hp⟩
    · rw [hg] at hrows ⊢
      exact { ht.untouched with follows := hrows }
    · rw [hp]
      exact ht.untouched.eraseFollows p
  | closeFriends h =>
    have hrows := addsNone_of_owner h ⟨fun _ _ => rfl, fun _ _ => rfl⟩ hme hs
      (fun _ hr => hr) ht.untouched.closeFriends
    obtain ⟨g, hg⟩ := h.effect_write fun _ => rfl
    rw [hg] at hrows ⊢
    exact { ht.untouched with closeFriends := hrows }
  | blocks h =>
    have hrows := addsNone_of_owner h ⟨fun _ _ => rfl, fun _ _ => rfl⟩ hme hs
      (fun _ hr => hr) ht.untouched.blocks
    obtain ⟨g, hg⟩ := h.effect_write fun _ => rfl
    rw [hg] at hrows ⊢
    exact { ht.untouched with blocks := hrows }
  | mutes h =>
    have hrows := addsNone_of_owner h ⟨fun _ _ => rfl, fun _ _ => rfl⟩ hme hs
      (fun _ hr => hr) ht.untouched.mutes
    obtain ⟨g, hg⟩ := h.effect_write fun _ => rfl
    rw [hg] at hrows ⊢
    exact { ht.untouched with mutes := hrows }
  | checkinLikes h =>
    have hrows := addsNone_of_owner h ⟨fun _ _ => rfl, fun _ _ => rfl⟩ hme hs
      (fun _ hr => ((Truth.holds_and _ _).mp hr).1) ht.untouched.checkinLikes
    obtain ⟨g, hg⟩ := h.effect_write fun _ => rfl
    rw [hg] at hrows ⊢
    exact { ht.untouched with checkinLikes := hrows }
  | listLikes h =>
    have hrows := addsNone_of_owner h ⟨fun _ _ => rfl, fun _ _ => rfl⟩ hme hs
      (fun _ hr => ((Truth.holds_and _ _).mp hr).1) ht.untouched.listLikes
    obtain ⟨g, hg⟩ := h.effect_write fun _ => rfl
    rw [hg] at hrows ⊢
    exact { ht.untouched with listLikes := hrows }
  | checkinBookmarks h =>
    have hrows := addsNone_of_owner h ⟨fun _ _ => rfl, fun _ _ => rfl⟩ hme hs
      (fun _ hr => ((Truth.holds_and _ _).mp hr).1) ht.untouched.checkinBookmarks
    obtain ⟨g, hg⟩ := h.effect_write fun _ => rfl
    rw [hg] at hrows ⊢
    exact { ht.untouched with checkinBookmarks := hrows }
  | listBookmarks h =>
    have hrows := addsNone_of_owner h ⟨fun _ _ => rfl, fun _ _ => rfl⟩ hme hs
      (fun _ hr => ((Truth.holds_and _ _).mp hr).1) ht.untouched.listBookmarks
    obtain ⟨g, hg⟩ := h.effect_write fun _ => rfl
    rw [hg] at hrows ⊢
    exact { ht.untouched with listBookmarks := hrows }
  | purgeCheckinLikes h =>
    rw [h]
    exact { ht.untouched with checkinLikes := ht.untouched.checkinLikes.erase _ }
  | purgeListLikes h =>
    rw [h]
    exact { ht.untouched with listLikes := ht.untouched.listLikes.erase _ }
  | purgeCheckinBookmarks h =>
    rw [h]
    exact { ht.untouched with checkinBookmarks := ht.untouched.checkinBookmarks.erase _ }
  | purgeListBookmarks h =>
    rw [h]
    exact { ht.untouched with listBookmarks := ht.untouched.listBookmarks.erase _ }
  | venues h | notifications h | contentReports h | venueReports h =>
    -- These are not anybody's own.
    obtain ⟨g, hg⟩ := h.effect_write fun _ => rfl
    rw [hg]
    exact { ht.untouched with }
  | verify h | purgeNotifications h =>
    rw [h]
    exact { ht.untouched with }
  | nothing h =>
    rw [h]
    exact ht.untouched

end Statements

/-! ## Whose identity a request takes -/

/-- The request presents the token of the provider's user `sub`, to a route that looks at it. -/
def Call.Presents (call : Call) (sub : String) : Prop :=
  match call.endpoint with
  | .user _ | .viewer _ | .admin _ => call.request.claims = .ok sub
  | .anonymous _ | .handleClerkWebhook _ => False

/-- The request is the provider's signed report of an event about its user `sub`. -/
def Call.Reports (call : Call) (sub : String) : Prop :=
  match call.endpoint with
  | .handleClerkWebhook webhook =>
    ∃ event, webhook.verified = .ok (some (some event)) ∧ event.data.id = sub
  | _ => False

section Sessions

variable {V : Identity → Prop} {J : Db → Prop} {ρ π : Type} [DecidableEq π] {key : ρ → π}
  {T : DbTable key} {Q : ρ → Prop}

omit [DecidableEq π] in
/-- A query returns rows of which `Q` holds, if it holds of all that it may find. -/
theorem safe_select {table : TableName} {params : List Uuid} {p : ρ → Bool}
    (h : ∀ s, J s → ∀ r ∈ T.read s, p r = true → Q r) :
    (select T table params p).Safe V J fun rows => ∀ r ∈ rows, Q r := by
  intro me s _ hs r hr
  obtain ⟨hmem, hp, -⟩ := T.mem_rows.mp hr
  exact h s hs r hmem hp

/-- So does taking the one row of its result. -/
theorem safe_scalarOneOrNone {rows : List ρ} (h : ∀ r ∈ rows, Q r) :
    (scalarOneOrNone rows).Safe V J fun found => ∀ r ∈ found, Q r := by
  match rows, h with
  | [], _ => exact fun _ => nofun
  | [r], h =>
    rintro _ ⟨⟩
    exact h r List.mem_cons_self
  | _ :: _ :: _, _ => trivial

/-- And reading a row back. -/
theorem safe_refresh {k : π} (h : ∀ s, J s → ∀ r ∈ T.read s, key r = k → Q r) :
    (refresh T k).Safe V J Q := by
  intro me s _ hs
  change Prog.Safe V J Q (Prog.bind (.ret (T.lookup me s k)) _)
  cases hlookup : T.lookup me s k with
  | none => trivial
  | some r =>
    obtain ⟨hr, hk, -⟩ := T.lookup_eq_some.mp hlookup
    exact h s hs r hr hk

/-- Committing and reading back what was written. -/
theorem safe_commit_refresh {k : π} (h : ∀ s, J s → ∀ r ∈ T.read s, key r = k → Q r) :
    (commit >>= fun _ => refresh T k : Service ρ).Safe V J Q := safe_refresh h

end Sessions

section Identities

variable {New : Uuid → Prop} {u : Uuid} {db : Db} {c : Ctx} {request : Request}

/-- The subject is neither the user's nor an administrator's. -/
def Db.OtherSub (db : Db) (u : Uuid) (sub : String) : Prop :=
  ∀ r ∈ db.users, r.id = u ∨ r.role = UserRole.admin → r.authProvider = authProvider →
    r.authProviderId ≠ sub

/-- The subject's account is the user's, and it is suspended. -/
def Db.SuspendedSub (db : Db) (u : Uuid) (sub : String) : Prop :=
  ∃ r ∈ db.users, r.id = u ∧ r.status = .suspended ∧ ∀ x ∈ db.users,
    x.authProvider = authProvider → x.authProviderId = sub → x.id = u

/-- A session whose identity is the row's would be another's, or the row is suspended. -/
def Db.OtherOrSuspended (db : Db) (u : Uuid) (x : User) : Prop :=
  db.Other u (some x.id) ∨ x.status = .suspended

/-- The requests' new ids are not ids of the user or of administrators. -/
def Db.OtherIds (New : Uuid → Prop) (db : Db) (u : Uuid) : Prop :=
  ∀ id, New id → db.Other u (some id)

/-- A row that a subject's request finds is that subject's for ever. -/
theorem other_of_row {sub : String} (hnew : Db.OtherIds New db u) (hsub : db.OtherSub u sub)
    {s : Db} (hs : db.Spared New u s) {x : User} (hx : x ∈ s.users)
    (hprovider : x.authProvider = authProvider) (hid : x.authProviderId = sub) :
    db.Other u (some x.id) := by
  obtain ⟨r, hr, hbecame⟩ := hs.users x hx
  have hsame : r.SameAccount x := hbecame.edit User.SameAccount.refl
  rw [hsame.id]
  rcases hr with hr | ⟨hr, -⟩
  · have hnot := fun h => hsub r hr h (hsame.authProvider.symm.trans hprovider)
      (hsame.authProviderId.symm.trans hid)
    refine ⟨fun h => hnot (.inl (Option.some.inj h)), fun a ha hadmin h => ?_⟩
    rw [Table.eq_of_key_eq ha hr (Option.some.inj h).symm] at hadmin
    exact hnot (.inr hadmin)
  · exact hnew r.id hr

variable (hnew : Db.OtherIds New db u)

include hnew in
/-- What the statements of a request keep, whoever it is for. -/
theorem spared_change {me : Identity} {s : Db} {wr : Write Db Lock} (hme : db.Other u me)
    (hs : db.Spared New u s) (h : Change New me s wr) (t : Db) (ht : db.Spared New u t) :
    db.Spared New u (wr.effect t) where
  users := ht.users.trans User.SameAccount.trans (past_change h t).users
  untouched := untouched_change (fun id hid hu => (hnew id hid).user (congrArg some hu)) h hme hs ht

include hnew in
/-- A service that sets no identity is safe, whatever it writes. -/
theorem safe_of_writes {ε α : Type} {p : Prog Db Lock Identity Stmt ε α}
    (hp : p.Writes (Change New) fun _ => False) :
    p.Safe (db.Other u) (db.Spared New u) fun _ => True :=
  hp.safe (fun _ _ _ hme hs h => spared_change hnew hme hs h) fun _ => False.elim

/-- The row of a suspended account stays as it is. -/
theorem suspended_of_row {sub : String} (hnew : Db.OtherIds New db u)
    (hsub : db.SuspendedSub u sub) {s : Db} (hs : db.Spared New u s) {x : User} (hx : x ∈ s.users)
    (hprovider : x.authProvider = authProvider) (hid : x.authProviderId = sub) :
    db.OtherOrSuspended u x := by
  obtain ⟨r₀, hr₀, hu, hsuspended, honly⟩ := hsub
  obtain ⟨r, hr, hbecame⟩ := hs.users x hx
  have hsame : r.SameAccount x := hbecame.edit User.SameAccount.refl
  rcases hr with hr | ⟨hr, -⟩
  · have hru := honly r hr (hsame.authProvider.symm.trans hprovider)
      (hsame.authProviderId.symm.trans hid)
    have hxu : x.id = u := hsame.id.trans hru
    have hxdb : x ∈ db.users := (hs.untouched.account x hxu).mp hx
    rw [Table.eq_of_key_eq hxdb hr₀ (hxu.trans hu.symm)]
    exact .inr hsuspended
  · exact .inl (hsame.id ▸ hnew r.id hr)

/-- The account of such a token is another one, or suspended. -/
theorem safe_findUser (hnew : Db.OtherIds New db u) {sub : String}
    (hsub : db.OtherSub u sub ∨ db.SuspendedSub u sub) :
    (findUser sub).Safe (db.Other u) (db.Spared New u)
      fun found => ∀ x ∈ found, db.OtherOrSuspended u x := by
  refine (safe_select fun s hs x hx hp => ?_).bind fun rows hrows => safe_scalarOneOrNone hrows
  rw [Bool.and_eq_true, decide_eq_true_eq, decide_eq_true_eq] at hp
  rcases hsub with hsub | hsub
  · exact .inl (other_of_row hnew hsub hs hx hp.1 hp.2)
  · exact suspended_of_row hnew hsub hs hx hp.1 hp.2

include hnew in
/-- The row that a first request creates, or the one that another request has created for the same
subject. -/
theorem safe_createUserJit (hc : c.Draws New) {sub : String}
    (hsub : db.OtherSub u sub ∨ db.SuspendedSub u sub) :
    (createUserJit c sub).Safe (db.Other u) (db.Spared New u) (db.OtherOrSuspended u) := by
  refine Safe.recover ?_ fun e => ?_
  · exact (safe_of_writes hnew (writes_insertUser (hc 0) rfl)).bind fun _ _ =>
      safe_commit_refresh fun s hs x hx hk => .inl (hk ▸ hnew _ (hc 0))
  · split
    · refine Safe.bind (Q := fun _ => True) trivial fun _ _ => ?_
      refine (safe_findUser hnew hsub).bind fun found hfound => ?_
      cases found with
      | none => trivial
      | some x => exact hfound x rfl
    · trivial

include hnew in
/-- So is the account that signs in, found or new. -/
theorem safe_resolveUser (hc : c.Draws New)
    (hrequest : ∀ sub, request.claims = .ok sub → db.OtherSub u sub ∨ db.SuspendedSub u sub) :
    (resolveUser c request).Safe (db.Other u) (db.Spared New u) (db.OtherOrSuspended u) := by
  have hverify : (verifySession request).Safe (db.Other u) (db.Spared New u)
      fun sub => db.OtherSub u sub ∨ db.SuspendedSub u sub := by
    unfold verifySession
    cases hclaims : request.claims with
    | ok sub => exact hrequest sub hclaims
    | error => trivial
  refine hverify.bind fun sub hsub => (safe_findUser hnew hsub).bind fun found hfound => ?_
  cases found with
  | none => exact safe_createUserJit hnew hc hsub
  | some x => exact hfound x rfl

include hnew in
/-- Reactivating another account returns that account. -/
theorem safe_reactivateAccount {x : User} (hx : db.Other u (some x.id)) :
    (reactivateAccount x).Safe (db.Other u) (db.Spared New u)
      fun y => db.Other u (some y.id) := by
  unfold reactivateAccount
  split_ifs
  · exact hx
  · trivial
  · exact (safe_of_writes hnew (writes_setStatus _ _)).bind fun _ _ =>
      safe_commit_refresh fun s hs y hy hk => hk ▸ hx

include hnew in
/-- Nobody signs in as the user, or as an administrator, but with their token, and with the token of
a suspended account nobody signs in at all. -/
theorem safe_getCurrentUser (hc : c.Draws New)
    (hrequest : ∀ sub, request.claims = .ok sub → db.OtherSub u sub ∨ db.SuspendedSub u sub) :
    (getCurrentUser c request).Safe (db.Other u) (db.Spared New u)
      fun x => db.Other u (some x.id) := by
  refine (safe_resolveUser hnew hc hrequest).bind fun x hx => ?_
  have hset (y : User) (hy : db.Other u (some y.id)) :
      (setCurrentUserIdentity y.id >>= fun _ => return y : Service User).Safe (db.Other u)
        (db.Spared New u) fun x => db.Other u (some x.id) := ⟨hy, hy⟩
  split
  · trivial
  · next hactive =>
    have hother : db.Other u (some x.id) := hx.resolve_right hactive
    split
    · exact (safe_reactivateAccount hnew hother).bind hset
    · exact hset x hother

include hnew in
/-- A webhook about others leaves what is the user's own. -/
theorem safe_handleClerkWebhook (hc : c.Draws New) {webhook : WebhookRequest}
    (hwebhook : ∀ event, webhook.verified = .ok (some (some event)) →
      db.OtherSub u event.data.id) :
    (handleClerkWebhook c webhook).Safe (db.Other u) (db.Spared New u) fun _ => True := by
  have hverify : (verifySignature webhook).Safe (db.Other u) (db.Spared New u)
      fun event => db.OtherSub u event.data.id := by
    unfold verifySignature
    split
    · trivial
    · split
      · trivial
      · trivial
      · trivial
      · next event hevent => exact hwebhook event hevent
  have hlookup {sub : String} (hsub : db.OtherSub u sub) : (lookupUser sub).Safe (db.Other u)
      (db.Spared New u) fun found => ∀ x ∈ found, db.Other u (some x.id) := by
    refine (safe_select fun s hs x hx hp => ?_).bind fun rows hrows x hx =>
      hrows x (List.mem_of_mem_head? hx)
    rw [User.hasIdentity, Bool.and_eq_true, decide_eq_true_eq, decide_eq_true_eq] at hp
    exact other_of_row hnew hsub hs hx hp.1 hp.2
  refine hverify.bind fun event hevent => Safe.bind (Q := fun _ => True) ?_ fun _ _ => trivial
  split_ifs
  · refine (hlookup hevent).bind fun found hfound => ?_
    refine Safe.bind (Q := fun _ => True) ?_ fun _ _ =>
      (safe_of_writes hnew (writes_upsertRow hc event.data)).bind fun _ _ => trivial
    cases found with
    | none => trivial
    | some x => exact ⟨hfound x rfl, trivial⟩
  · refine (hlookup hevent).bind fun found hfound => ?_
    cases found with
    | none => trivial
    | some x =>
      exact ⟨hfound x rfl, (safe_of_writes hnew (TableDef.writes_delete (R := userRules New)
        (T := users) (ε := PyError) trivial fun _ _ _ => .users)).bind fun _ _ => trivial⟩
  · trivial

include hnew in
/-- A request that speaks neither for the user nor for an administrator, except with the token of a
suspended account. -/
theorem safe_handle {b : Backend} {call : Call} (hc : call.ctx.Draws New)
    (htoken : ∀ sub, call.Presents sub → db.OtherSub u sub ∨ db.SuspendedSub u sub)
    (hsigned : ∀ sub, call.Reports sub → db.OtherSub u sub) :
    (handle b call).Safe (db.Other u) (db.Spared New u) fun _ => True := by
  unfold Call.Presents at htoken
  unfold Call.Reports at hsigned
  unfold handle
  cases hendpoint : call.endpoint with
  | user e =>
    rw [hendpoint] at htoken
    exact ((safe_getCurrentUser hnew hc htoken).mapError _).bind fun x _ =>
      safe_of_writes hnew (e.writes_run hc.resolved x)
  | viewer e =>
    rw [hendpoint] at htoken
    refine Safe.bind (Q := fun _ => True) (Safe.mapError ?_ _) fun viewer _ =>
      safe_of_writes hnew (e.readOnly_run _ viewer).writes
    refine Safe.recover ((safe_getCurrentUser hnew hc htoken).bind fun _ _ => trivial)
      fun e => ?_
    split <;> trivial
  | admin e =>
    rw [hendpoint] at htoken
    refine Safe.bind (Q := fun _ => True) (Safe.mapError ?_ _) fun admin _ =>
      safe_of_writes hnew (e.writes_run admin)
    refine (safe_getCurrentUser hnew hc htoken).bind fun x _ => ?_
    split <;> trivial
  | anonymous e => exact safe_of_writes hnew e.readOnly_run.writes
  | handleClerkWebhook webhook =>
    rw [hendpoint] at hsigned
    exact ((safe_handleClerkWebhook hnew hc fun event h => hsigned _ ⟨event, h, rfl⟩).mapError
      _).bind fun _ _ => trivial

end Identities

section Runs

variable {ι : Type} [DecidableEq ι] [Fintype ι] {b : Backend} {db : Db} {calls : ι → Call}
  {sched : List ι} {w : Requests ι} {u : User}

/-- Over a run without the user's token nothing of the user's changes. -/
theorem spared_of_exec (hexec : (requests b db calls).exec sched = some w) (hu : u ∈ db.users)
    (hfresh : ∀ i n, db.users.get ((calls i).ctx.uuid4 n) = none)
    (htoken : ∀ i sub, (calls i).Presents sub → db.OtherSub u.id sub ∨ db.SuspendedSub u.id sub)
    (hsigned : ∀ i sub, (calls i).Reports sub → db.OtherSub u.id sub) :
    db.Spared (Drawn calls) u.id w.committed := by
  have hnew : Db.OtherIds (Drawn calls) db u.id := by
    rintro _ ⟨i, n, rfl⟩
    have hnone := Table.get_eq_none.mp (hfresh i n)
    exact ⟨fun h => hnone u hu (Option.some.inj h).symm,
      fun a ha _ h => hnone a ha (Option.some.inj h).symm⟩
  have hstart : (requests b db calls).Guarded (fun _ => db.Other u.id)
      (db.Spared (Drawn calls) u.id) :=
    ⟨⟨.refl _, .refl _ _⟩, fun i => .start ⟨nofun, fun _ _ _ => nofun⟩
      (safe_handle hnew (draws_drawn calls i) (htoken i) (hsigned i))⟩
  exact (hstart.exec hexec).committed

end Runs

/-- Whatever requests run interleaved, as long as none of them comes with the token of the user `u`
or of an administrator, or is the provider's event about one of them, they leave all that is the
user's own as it was: the account, the check-ins, the lists and what is on them, the saves; and they
add no follow, block, mute, close friend, like or bookmark in the user's name. -/
theorem untouched_of_exec {ι : Type} [DecidableEq ι] [Fintype ι] (b : Backend) (db : Db)
    (calls : ι → Call) (sched : List ι) (w : Requests ι) (u : User)
    (hexec : (requests b db calls).exec sched = some w) (hu : u ∈ db.users)
    (hfresh : ∀ i n, db.users.get ((calls i).ctx.uuid4 n) = none)
    (htoken : ∀ i sub, (calls i).Presents sub → db.OtherSub u.id sub)
    (hsigned : ∀ i sub, (calls i).Reports sub → db.OtherSub u.id sub) :
    Untouched u.id db w.committed :=
  (spared_of_exec hexec hu hfresh (fun i sub h => .inl (htoken i sub h)) hsigned).untouched

/-- Bob blocks Ada while somebody new follows her. -/
def strangerCalls (i : Bool) : Call :=
  if i then .signedIn "sub_2" 7 (.blockUser 1) else .signedIn "sub_3" 8 (.followUser 1)

def strangerSched : List Bool :=
  [true, false, false, false, false, true, true, false, true, true, false, true, true]

/-- Only ada's subject names her account. -/
theorem otherSub_leavingDb {sub : String} (h : sub ≠ "sub_1") : leavingDb.OtherSub 1 sub := by
  have hsubs : ∀ r ∈ leavingDb.users.rows, r.id = 1 ∨ r.role = UserRole.admin →
      r.authProviderId = "sub_1" := by decide
  exact fun r hr hwho _ heq => h (heq.symm.trans (hsubs r hr hwho))

/-- A stranger's requests leave ada's account and check-ins. -/
theorem untouched_of_exec_strangerCalls :
    ∃ w, (requests .plain leavingDb strangerCalls).exec strangerSched = some w ∧
      Untouched 1 leavingDb w.committed :=
  ⟨_, rfl, untouched_of_exec .plain leavingDb strangerCalls strangerSched _ leavingUser rfl
    (by decide) (by rintro (_ | _) _ <;> rfl) (by
      rintro (_ | _) sub hsub
      · obtain rfl : "sub_3" = sub := Except.ok.inj hsub
        exact otherSub_leavingDb (by decide)
      · obtain rfl : "sub_2" = sub := Except.ok.inj hsub
        exact otherSub_leavingDb (by decide)) (by rintro (_ | _) _ ⟨⟩)⟩

/-- A suspended user can do nothing. Whatever requests run interleaved, any number of them with the
token of the suspended user `u`, as long as none comes with the token of another administrator or is
the provider's event about one of them or about the user: the account stays suspended, all that is
the user's own stays as it was, and nothing is added in the user's name. -/
theorem suspended_of_exec {ι : Type} [DecidableEq ι] [Fintype ι] (b : Backend) (db : Db)
    (calls : ι → Call) (sched : List ι) (w : Requests ι) (u : User)
    (hexec : (requests b db calls).exec sched = some w) (hdb : Consistent db) (hu : u ∈ db.users)
    (hsuspended : u.status = .suspended)
    (hfresh : ∀ i n, db.users.get ((calls i).ctx.uuid4 n) = none)
    (htoken : ∀ i sub, (calls i).Presents sub → ∀ a ∈ db.users, a.role = UserRole.admin →
      a.id ≠ u.id → a.authProvider = authProvider → a.authProviderId ≠ sub)
    (hsigned : ∀ i sub, (calls i).Reports sub → db.OtherSub u.id sub) :
    u ∈ w.committed.users ∧ Untouched u.id db w.committed := by
  have hsub (i : ι) (sub : String) (h : (calls i).Presents sub) :
      db.OtherSub u.id sub ∨ db.SuspendedSub u.id sub := by
    by_cases hown : u.authProvider = authProvider ∧ u.authProviderId = sub
    · obtain ⟨hprovider, rfl⟩ := hown
      refine .inr ⟨u, hu, rfl, hsuspended, fun x hx hxprovider hxid => ?_⟩
      have hcons : usersConstraints db u = true := hdb.users u hu
      rw [usersConstraints, Bool.and_eq_true] at hcons
      exact congrArg User.id (eq_of_uniqueIn hcons.1 hu hx rfl
        (by rw [hxprovider, hxid, hprovider]))
    · refine .inl fun r hr hwho hprovider hid => ?_
      by_cases hru : r.id = u.id
      · rw [Table.eq_of_key_eq hr hu hru] at hprovider hid
        exact hown ⟨hprovider, hid⟩
      · exact htoken i sub h r hr (hwho.resolve_left hru) hru hprovider hid
  have huntouched := (spared_of_exec hexec hu hfresh hsub hsigned).untouched
  exact ⟨(huntouched.account u rfl).mpr hu, huntouched⟩

/-- Ada is suspended. -/
def powerlessUser : User := { leavingUser with status := .suspended }

def powerlessDb : Db :=
  { leavingDb with
    users := (Table.empty.insert powerlessUser).insert
      (User.create 2 "clerk" "sub_2" "bob" "Bob" 0) }

/-- She tries to delete her account and, at the same time, to like her own check-in. -/
def powerlessCalls (i : Bool) : Call :=
  .signedIn "sub_1" 7 (if i then .deleteMe else .likeCheckin 5)

/-- The requests of a suspended account leave it as it was. -/
theorem suspended_of_exec_powerlessCalls :
    ∃ w, (requests .plain powerlessDb powerlessCalls).exec [true, false, true, false] = some w ∧
      powerlessUser ∈ w.committed.users ∧ Untouched 1 powerlessDb w.committed :=
  ⟨_, rfl, suspended_of_exec .plain powerlessDb powerlessCalls [true, false, true, false] _
    powerlessUser rfl (by decide) (by decide) rfl (by rintro (_ | _) _ <;> rfl) (by
      have hplain : ∀ a ∈ powerlessDb.users.rows, a.role ≠ UserRole.admin := by decide
      exact fun _ _ _ a ha hadmin => absurd hadmin (hplain a ha)) (by rintro (_ | _) _ ⟨⟩)⟩

end OburBackend
