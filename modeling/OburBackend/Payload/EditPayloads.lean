import OburBackend.Account.ProfileEdits
import OburBackend.Model.Texts
import OburBackend.Payload.Schemas

/-!
# What an edit of a profile or a list ends with

`None` in a payload stands for an explicit `null`, which the schemas accept for every field, and the
locale is searched for a supported one, so that any text around it is accepted too. What the schema
lets through is stored, or ends in an error of the database that nothing handles: a constraint is
violated, or a text is none that the database can hold.
-/

namespace OburBackend

open Sql

/-! ## Profiles -/

namespace ProfileChanges

/-- What the payload does not give is as it was. A new handle notes its moment. -/
structure KeepsRest (changes : ProfileChanges) (u u' : User) : Prop where
  displayName : changes.displayName = none → u'.displayName = u.displayName
  username : changes.username = none →
    u'.username = u.username ∧ u'.usernameChangedAt = u.usernameChangedAt
  bio : changes.bio = none → u'.bio = u.bio
  avatarUrl : changes.avatarUrl = none → u'.avatarUrl = u.avatarUrl
  city : changes.city = none → u'.city = u.city
  countryCode : changes.countryCode = none → u'.countryCode = u.countryCode
  locale : changes.locale = none → u'.locale = u.locale
  timezone : changes.timezone = none → u'.timezone = u.timezone
  others : u' = { u with
    displayName := u'.displayName
    username := u'.username
    usernameChangedAt := u'.usernameChangedAt
    bio := u'.bio
    avatarUrl := u'.avatarUrl
    city := u'.city
    countryCode := u'.countryCode
    locale := u'.locale
    timezone := u'.timezone }

variable {changes : ProfileChanges} {c : Ctx} {db : Db} {u u' : User}

/-- Each column of the edited row. -/
theorem columns_of_edited (h : changes.edited c u = some u') :
    changes.displayName.notNull u.displayName = some u'.displayName ∧
      changes.locale.notNull u.locale = some u'.locale ∧
      u' = { u with
        displayName := u'.displayName
        locale := u'.locale
        bio := changes.bio.nullable u.bio
        avatarUrl := changes.avatarUrl.nullable u.avatarUrl
        city := changes.city.nullable u.city
        countryCode := changes.countryCode.nullable u.countryCode
        timezone := changes.timezone.nullable u.timezone
        username := (changes.newUsername u).getD u.username
        usernameChangedAt :=
          if (changes.newUsername u).isSome then some c.now else u.usernameChangedAt } := by
  rw [edited_eq_set] at h
  simp only [set, Option.bind_eq_bind, Option.bind_eq_some_iff, Option.pure_def,
    Option.some.injEq] at h
  obtain ⟨_, hname, _, hlocale, rfl⟩ := h
  exact ⟨hname, hlocale, rfl⟩

/-- An edit of a profile keeps the fields that the payload leaves out. -/
theorem keepsRest_of_edited (h : changes.edited c u = some u') : changes.KeepsRest u u' := by
  obtain ⟨hname, hlocale, hrow⟩ := columns_of_edited h
  refine ⟨Field.notNull_of_none hname, fun hnone => ?_, fun hnone => ?_, fun hnone => ?_,
    fun hnone => ?_, fun hnone => ?_, Field.notNull_of_none hlocale, fun hnone => ?_, ?_⟩
  · have hsame : changes.newUsername u = none := by
      rw [newUsername, hnone]
      rfl
    rw [hrow, hsame]
    exact ⟨rfl, rfl⟩
  all_goals rw [hrow]
  all_goals
    rw [hnone]
    rfl

/-- The locale of the edited row. -/
theorem locale_of_edited (h : changes.edited c u = some u') :
    u'.locale = changes.locale.join.getD u.locale := by
  obtain ⟨-, hlocale, -⟩ := columns_of_edited h
  rcases Field.notNull_eq_some.mp hlocale with ⟨hnone, hold⟩ | hsome
  · rw [hnone, ← hold]
    rfl
  · rw [hsome]
    rfl

/-- Nobody else has the handle that a user has. -/
theorem not_heldByOther_self (hdb : Consistent db) (hu : u ∈ db.users) :
    ¬ db.HeldByOther u u.username := by
  rintro ⟨x, hx, hid, hname⟩
  have hcons : usersConstraints db u = true := hdb.users u hu
  simp only [usersConstraints, Bool.and_eq_true] at hcons
  exact hid (congrArg User.id (eq_of_uniqueIn hcons.2.1 hu hx rfl (congrArg some hname)))

/-- The constraints pass the edited row unless somebody else has its new handle. -/
theorem constraints_edited_iff (hdb : Consistent db) (hu : u ∈ db.users)
    (h : changes.edited c u = some u') :
    usersConstraints db u' = true ↔
      ∀ username, changes.newUsername u = some username → ¬ db.HeldByOther u username := by
  obtain ⟨-, -, hrow⟩ := columns_of_edited h
  rw [constraints_edited hdb hu h, hrow]
  cases changes.newUsername u with
  | none => simpa using not_heldByOther_self hdb hu
  | some username => simp

/-- The database can hold the texts that the payload gives. The handle and the locale are under
conditions of their own. -/
structure TextsStorable (changes : ProfileChanges) : Prop where
  displayName : changes.displayName.Within Storable
  bio : changes.bio.Within Storable
  avatarUrl : changes.avatarUrl.Within Storable
  city : changes.city.Within Storable
  countryCode : changes.countryCode.Within Storable
  timezone : changes.timezone.Within Storable

/-- The database can hold the edited row if it can hold the texts that the payload gives. -/
theorem texts_edited_iff (hold : AllStorable u.texts) (h : changes.edited c u = some u')
    (husername : Storable u'.username) (hlocale : Storable u'.locale) :
    AllStorable u'.texts ↔ changes.TextsStorable := by
  obtain ⟨hname, -, hrow⟩ := columns_of_edited h
  simp only [User.texts, allStorable_cons, allStorable_nil, and_true, Option.mem_def,
    Option.some.injEq, forall_eq'] at hold ⊢
  obtain ⟨hprovider, hsub, holdname, -, hemail, hbio, havatar, hcity, hcountry, -, htz, hrole⟩ :=
    hold
  have hbio' := @Field.within_iff_nullable _ changes.bio _ _ hbio
  have havatar' := @Field.within_iff_nullable _ changes.avatarUrl _ _ havatar
  have hcity' := @Field.within_iff_nullable _ changes.city _ _ hcity
  have hcountry' := @Field.within_iff_nullable _ changes.countryCode _ _ hcountry
  have htz' := @Field.within_iff_nullable _ changes.timezone _ _ htz
  have hname' := Field.within_iff_notNull holdname hname
  rw [hrow]
  constructor
  · rintro ⟨-, -, hdisplay, -, -, hb, ha, hci, hco, -, hz, -⟩
    exact ⟨hname'.mpr hdisplay, hbio'.mpr hb, havatar'.mpr ha, hcity'.mpr hci, hcountry'.mpr hco,
      htz'.mpr hz⟩
  · rintro ⟨hdisplay, hb, ha, hci, hco, hz⟩
    rw [hrow] at husername hlocale
    exact ⟨hprovider, hsub, hname'.mp hdisplay, husername, hemail, hbio'.mp hb, havatar'.mp ha,
      hcity'.mp hci, hcountry'.mp hco, hlocale, htz'.mp hz, hrole⟩

/-- And then it can hold the data with the row edited. -/
theorem storable_saved_iff (hstorable : db.storable = true) (hu : u ∈ db.users)
    (h : changes.edited c u = some u') :
    (changes.saved c u db).storable = true ↔ AllStorable u'.texts := by
  obtain ⟨husers, hcheckins, hlists⟩ := Db.storable_iff.mp hstorable
  have hmodify := allStorable_modify_iff
    (TableDef.key_getD ((changes.changed u).set_id (changes.newUsername u) c.now)) hu husers
  rw [show (changes.changed u).set (changes.newUsername u) c.now u = some u' from h,
    Option.getD_some] at hmodify
  rw [Db.storable_iff, ← hmodify]
  exact and_iff_left ⟨hcheckins, hlists⟩

end ProfileChanges

/-- A supported locale can be stored. -/
theorem storable_of_supported {locale : String} (h : locale ∈ supportedLocales) :
    Storable locale := by
  have hall : ∀ locale ∈ supportedLocales, Storable locale := by decide
  exact hall locale h

namespace UserUpdateRequest

variable {request : UserUpdateRequest} {c : Ctx} {db : Db} {u : User}

/-- What `update_profile` should end with, given the fields that the payload gives. The columns that
may not be `NULL` and the status are so by their types. -/
def EndsWell (request : UserUpdateRequest) (c : Ctx) (db : Db) (u : User) : Prop :=
  Settles ((updateProfile c u request.toProfileChanges).within Db.storable) (some u.id) db
    fun u' db' =>
    u' ∈ db'.users ∧ u'.locale ∈ supportedLocales ∧ request.KeepsRest u u'

/-- The payload gives a new handle that is refused. -/
def IsRefused (request : UserUpdateRequest) (c : Ctx) (db : Db) (u : User) : Prop :=
  ∃ username, request.newUsername u = some username ∧
    (u.ChangedTooRecently c.now ∨ db.SeesHolder u username)

/-- What is left to the flush: the payload gives no `null` where none may be, no handle that
somebody else has and no text that the database cannot hold, and the locale that the row is to have
is a supported one. -/
structure IsStorable (request : UserUpdateRequest) (db : Db) (u : User) : Prop where
  free : ∀ username, request.newUsername u = some username → ¬ db.HeldByOther u username
  required : request.KeepsRequired
  texts : request.TextsStorable
  locale : request.locale.join.getD u.locale ∈ supportedLocales

/-- A new handle is refused, or the edit comes to its end. -/
theorem run_cases (hdb : Consistent db) (hu : u ∈ db.users) :
    let update := (updateProfile c u request.toProfileChanges).within Db.storable
    (request.IsRefused c db u ∧ ∃ cls message, update.run (Conn.start (some u.id) db) =
        (.error (.domain cls message), Conn.start (some u.id) db)) ∨
      (¬ request.IsRefused c db u ∧ update.run (Conn.start (some u.id) db) =
        ((saveProfile c u request.toProfileChanges).within Db.storable).run
          (Conn.start (some u.id) db)) := by
  dsimp only
  rcases hname : request.newUsername u with - | username
  · refine .inr ⟨?_, ?_⟩
    · rintro ⟨username, hsome, -⟩
      exact absurd (hname.symm.trans hsome) nofun
    · simp only [updateProfile, hname]
  by_cases hrecent : u.ChangedTooRecently c.now
  · obtain ⟨message, hrun⟩ := @ProfileChanges.run_updateProfile_of_recent request.toProfileChanges
      c db u username Db.storable hname hrecent
    exact .inl ⟨⟨username, hname, .inl hrecent⟩, _, message, hrun⟩
  rcases ProfileChanges.run_updateProfile Db.storable hname hrecent hdb hu with
    ⟨hsee, hrun⟩ | ⟨hsee, hrun⟩
  · exact .inl ⟨⟨username, hname, .inr hsee⟩, _, _, hrun⟩
  · refine .inr ⟨?_, hrun⟩
    rintro ⟨username', hsome, hrefused⟩
    obtain rfl := Option.some.inj (hname.symm.trans hsome)
    exact hrefused.elim hrecent hsee

/-- A handle can be stored: the schema accepts no other characters. -/
theorem storable_username (hold : Storable u.username) :
    Storable ((request.newUsername u).getD u.username) := by
  rcases hname : request.newUsername u with - | username
  · exact hold
  · rw [ProfileChanges.newUsername] at hname
    obtain ⟨hgiven, -⟩ := Option.filter_eq_some_iff.mp hname
    have hfield : request.username = some (some username) := Option.join_eq_some_iff.mp hgiven
    intro hnul
    have hchar := (request.username_accepted _ hfield username rfl).2 _ hnul
    exact absurd hchar (by decide)

/-- The database can hold the edited row if it can hold the texts that the payload gives. -/
theorem storable_saved_iff (hstorable : db.storable = true) (hu : u ∈ db.users) {u' : User}
    (hedit : request.edited c u = some u')
    (hlocale : request.locale.join.getD u.locale ∈ supportedLocales) :
    (request.saved c u db).storable = true ↔ request.TextsStorable := by
  have hold : AllStorable u.texts := (Db.storable_iff.mp hstorable).1 u hu
  have husername : Storable u.username := by
    simp only [User.texts, allStorable_cons, Option.mem_def, Option.some.injEq, forall_eq'] at hold
    exact hold.2.2.2.1
  rw [ProfileChanges.storable_saved_iff hstorable hu hedit]
  refine ProfileChanges.texts_edited_iff hold hedit ?_ ?_
  · rw [(ProfileChanges.edited_eq_some hedit).2.2.2.2]
    exact storable_username husername
  · rw [ProfileChanges.locale_of_edited hedit]
    exact storable_of_supported hlocale

/-- An edit ends well when its handle is refused or the row can be stored. -/
theorem payload_endsWell_iff (hdb : Consistent db) (hstorable : db.storable = true)
    (hu : u ∈ db.users) :
    request.EndsWell c db u ↔ request.IsRefused c db u ∨ request.IsStorable db u := by
  rcases @run_cases request c db u hdb hu with
    ⟨hrefused, cls, message, hrun⟩ | ⟨hrefused, hrun⟩
  · exact iff_of_true (settles_of_domain hrun) (.inl hrefused)
  rw [or_iff_right hrefused]
  rcases ProfileChanges.run_saveProfile Db.storable c request.toProfileChanges hdb hstorable hu with
    ⟨u', hedit, hcons, hfits, hsave⟩ | ⟨hcons, e, hsave⟩
  · -- the edited row is stored
    obtain ⟨hout, hafter⟩ := Prog.alone_of_run (hrun.trans hsave)
    have hkeeps : request.KeepsRequired := by
      by_contra hnull
      exact absurd (hedit.symm.trans (ProfileChanges.edited_eq_none.mpr hnull)) nofun
    rw [EndsWell, settles_iff_of_ok hout hafter, ProfileChanges.locale_of_edited hedit]
    constructor
    · rintro ⟨-, hlocale, -⟩
      exact ⟨(ProfileChanges.constraints_edited_iff hdb hu hedit).mp hcons, hkeeps,
        (storable_saved_iff hstorable hu hedit hlocale).mp hfits, hlocale⟩
    · rintro ⟨-, -, -, hlocale⟩
      exact ⟨(ProfileChanges.mem_saved hu hedit).mpr (.inl rfl), hlocale,
        ProfileChanges.keepsRest_of_edited hedit⟩
  · -- a constraint is violated, or the data do not fit
    obtain ⟨hout, -⟩ := Prog.alone_of_run (hrun.trans hsave)
    refine iff_of_false (not_settles_of_error (by simp) hout) fun h => ?_
    obtain ⟨u', hedit⟩ := ProfileChanges.exists_edited h.required c u
    have hpass := (ProfileChanges.constraints_edited_iff hdb hu hedit).mpr h.free
    have hfits := (storable_saved_iff hstorable hu hedit h.locale).mpr h.texts
    exact absurd ((hcons u' hedit hpass).symm.trans hfits) nofun

end UserUpdateRequest

/-! ## Lists -/

namespace ListUpdates

/-- What the payload does not give is as it was. -/
structure KeepsRest (updates : ListUpdates) (l l' : VenueList) : Prop where
  title : updates.title = none → l'.title = l.title
  description : updates.description = none → l'.description = l.description
  visibility : updates.visibility = none → l'.visibility = l.visibility
  others : l' = { l with
    title := l'.title
    description := l'.description
    visibility := l'.visibility }

/-- No field with a `NOT NULL` column is given as an explicit `null`. -/
structure KeepsRequired (updates : ListUpdates) : Prop where
  title : updates.title ≠ some none
  visibility : updates.visibility ≠ some none

variable {updates : ListUpdates} {db : Db} {u : User} {l l' : VenueList}

/-- Leaving out the fields that are as they were changes nothing. -/
theorem changed_set : (updates.changed l).set l = updates.set l := by
  simp only [set, changed, Field.notNull_changed, Field.nullable_changed]

/-- Each column of the row that the fields leave. -/
theorem columns_of_set (h : updates.set l = some l') :
    updates.title.notNull l.title = some l'.title ∧
      updates.visibility.notNull l.visibility = some l'.visibility ∧
      l' = { l with
        title := l'.title
        visibility := l'.visibility
        description := updates.description.nullable l.description } := by
  simp only [set, Option.bind_eq_bind, Option.bind_eq_some_iff, Option.pure_def,
    Option.some.injEq] at h
  obtain ⟨_, htitle, _, hvisibility, rfl⟩ := h
  exact ⟨htitle, hvisibility, rfl⟩

/-- There is such a row unless the payload gives a `null` where none may be. -/
theorem set_eq_none : updates.set l = none ↔ ¬ updates.KeepsRequired := by
  have hrequired : updates.KeepsRequired ↔
      updates.title.notNull l.title ≠ none ∧ updates.visibility.notNull l.visibility ≠ none := by
    rw [ne_eq, ne_eq, Field.notNull_eq_none, Field.notNull_eq_none]
    exact ⟨fun h => ⟨h.title, h.visibility⟩, fun h => ⟨h.1, h.2⟩⟩
  rw [hrequired, set]
  cases updates.title.notNull l.title with
  | none => simp
  | some title =>
    cases updates.visibility.notNull l.visibility with
    | none => simp
    | some visibility => simp

/-- So does an edit of a list. -/
theorem keepsRest_of_set (h : updates.set l = some l') : updates.KeepsRest l l' := by
  obtain ⟨htitle, hvisibility, hrow⟩ := columns_of_set h
  refine ⟨Field.notNull_of_none htitle, fun hnone => ?_, Field.notNull_of_none hvisibility, ?_⟩
  · rw [hrow, hnone]
    rfl
  · rw [hrow]

/-- An edit of a list keeps its id. -/
theorem set_id (updates : ListUpdates) : ∀ r r', updates.set r = some r' → r'.id = r.id :=
  fun _ _ h => (set_eq_some h).1

/-- The row is stored as the fields leave it. -/
theorem mem_set (hl : l ∈ db.lists) (h : updates.set l = some l') :
    l' ∈ (lists.set l.id updates.set updates.set_id db).lists := by
  refine (Table.mem_modify_key (TableDef.key_getD updates.set_id) hl).mpr (.inl ?_)
  rw [h, Option.getD_some]

/-- The database can hold the texts that the payload gives. -/
structure TextsStorable (updates : ListUpdates) : Prop where
  title : updates.title.Within Storable
  description : updates.description.Within Storable

/-- The database can hold the data with the fields set if it can hold the texts that the payload
gives. -/
theorem storable_set_iff (hstorable : db.storable = true) (hl : l ∈ db.lists)
    (h : updates.set l = some l') (hvisibility : Storable l'.visibility) :
    (lists.set l.id (updates.changed l).set (updates.changed l).set_id db).storable = true ↔
      updates.TextsStorable := by
  obtain ⟨husers, hcheckins, hlists⟩ := Db.storable_iff.mp hstorable
  have hmodify := allStorable_modify_iff (TableDef.key_getD (updates.changed l).set_id) hl hlists
  rw [changed_set, h, Option.getD_some] at hmodify
  obtain ⟨htitle, -, hrow⟩ := columns_of_set h
  have hold := VenueList.allStorable_iff.mp (hlists l hl)
  have htitle' := Field.within_iff_notNull hold.1 htitle
  have hdescription' := @Field.within_iff_nullable _ updates.description _ _ hold.2.1
  have hdescription : l'.description = updates.description.nullable l.description := by rw [hrow]
  have hall : (lists.set l.id (updates.changed l).set (updates.changed l).set_id db).storable =
      true ↔ AllStorable l'.texts := by
    rw [Db.storable_iff, ← hmodify]
    exact ⟨fun hs => hs.2.2, fun hs => ⟨husers, hcheckins, hs⟩⟩
  rw [hall, VenueList.allStorable_iff, hdescription]
  constructor
  · rintro ⟨ht, hd, -⟩
    exact ⟨htitle'.mpr ht, hdescription'.mpr hd⟩
  · rintro ⟨ht, hd⟩
    exact ⟨htitle'.mp ht, hdescription'.mp hd, hvisibility⟩

/-- An update of one's own list: the constraints decide, and whether the data fit. -/
theorem run_updateList (hdb : Consistent db) (hstorable : db.storable = true) (hl : l ∈ db.lists)
    (howner : l.userId = u.id) :
    let update := (updateList l.id u updates).within Db.storable
    let updated := lists.set l.id (updates.changed l).set (updates.changed l).set_id db
    (∃ l', updates.set l = some l' ∧ listsConstraints db l' = true ∧ updated.storable = true ∧
        update.run (Conn.start (some u.id) db) = (.ok l', Conn.start (some u.id) updated)) ∨
      ((∀ l', updates.set l = some l' → listsConstraints db l' = true →
          updated.storable = false) ∧
        ∃ e, update.run (Conn.start (some u.id) db) =
          (.error (.database e), Conn.start (some u.id) db)) := by
  have hmay : ∀ l' : VenueList, l'.userId = l.userId →
      some u.id = some l'.userId ∨ db.IsAdmin (some u.id) := fun l' h => by
    rw [h, howner]
    exact .inl rfl
  have hlookup : lists.lookup (some u.id) db l.id = some l :=
    lists.lookup_eq_some.mpr ⟨hl, rfl, holds_listsPolicy_select.mpr (.inl (hmay l rfl))⟩
  have hguard : ensureListOwned l l.id u "modify" = pure () := by
    simp only [ensureListOwned, ensureVisibleAndOwned, isOwnerOrAdmin, howner, decide_true,
      Bool.true_or, if_true]
  simp only [updateList, Prog.bind_eq, Prog.within_bind, within_get, run_get_bind, Conn.start_vars,
    Conn.start_working, hlookup, hguard, Prog.pure_eq, Prog.ret_bind]
  rw [← changed_set]
  have husing : ((lists.policy (some u.id) db).updateUsing l).Holds :=
    holds_rlsIsOwnerOrAdmin.mpr (hmay l rfl)
  refine run_save Db.storable hlookup (hdb.lists l hl) hstorable husing (fun l' hset => ⟨?_, ?_⟩)
    (fun l' hset => ?_) fun hsame => ?_
  · exact holds_rlsIsOwnerOrAdmin.mpr (hmay l' (set_eq_some hset).2)
  · exact holds_listsPolicy_select.mpr (.inl (hmay l' (set_eq_some hset).2))
  · refine lists.lookup_eq_some.mpr ⟨mem_set hl hset, (set_eq_some hset).1, ?_⟩
    exact holds_listsPolicy_select.mpr (.inl (.inl (by rw [(set_eq_some hset).2, howner])))
  · have hempty : updates.changed l = {} := not_not.mp hsame
    have hset : ∀ y, ({} : ListUpdates).set y = some y := fun _ => rfl
    refine ⟨by rw [hempty, hset], ?_⟩
    have hlists : (lists.set l.id (updates.changed l).set (updates.changed l).set_id db).lists =
        db.lists := by
      refine @Table.modify_eq_self _ _ _ _ _ _ (TableDef.key_getD (updates.changed l).set_id)
        fun y => ?_
      rw [hempty, hset, Option.getD_some]
    show { db with
      lists := (lists.set l.id (updates.changed l).set (updates.changed l).set_id db).lists } = db
    rw [hlists]

end ListUpdates

namespace ListUpdateRequest

variable {request : ListUpdateRequest} {db : Db} {u : User} {l l' : VenueList}

/-- What `update_list` should end with, given the fields that the payload gives. -/
def EndsWell (request : ListUpdateRequest) (db : Db) (u : User) (l : VenueList) : Prop :=
  Settles ((updateList l.id u request.toListUpdates).within Db.storable) (some u.id) db
    fun l' db' =>
      l' ∈ db'.lists ∧ l'.visibility ∈ Visibility.allowed ∧ request.KeepsRest l l'

/-- The tier that the schema accepts passes the constraints. -/
theorem visibility_of_set (hcons : listsConstraints db l = true)
    (h : request.toListUpdates.set l = some l') : l'.visibility ∈ Visibility.allowed := by
  obtain ⟨-, hvisibility, -⟩ := ListUpdates.columns_of_set h
  simp only [listsConstraints, visibilityAllowed, Bool.and_eq_true, decide_eq_true_eq] at hcons
  exact request.visibility_accepted.notNull hcons.1 hvisibility

/-- It meets the constraints that the list has met. -/
theorem constraints_of_set (hcons : listsConstraints db l = true)
    (h : request.toListUpdates.set l = some l') : listsConstraints db l' = true := by
  have hvisibility := visibility_of_set hcons h
  obtain ⟨-, huser⟩ := ListUpdates.set_eq_some h
  simp only [listsConstraints, visibilityAllowed, Bool.and_eq_true, decide_eq_true_eq] at hcons ⊢
  rw [huser]
  exact ⟨hvisibility, hcons.2⟩

/-- An update of one's own list ends well when no required field is `null` and the database can hold
the texts. -/
theorem payload_endsWell_iff (hdb : Consistent db) (hstorable : db.storable = true)
    (hl : l ∈ db.lists) (howner : l.userId = u.id) :
    request.EndsWell db u l ↔ request.KeepsRequired ∧ request.TextsStorable := by
  have htexts : ∀ l', request.toListUpdates.set l = some l' → _ := fun l' hset =>
    ListUpdates.storable_set_iff hstorable hl hset
      (storable_of_allowed (visibility_of_set (hdb.lists l hl) hset))
  rcases @ListUpdates.run_updateList request.toListUpdates db u l hdb hstorable hl howner with
    ⟨l', hset, -, hfits, hrun⟩ | ⟨hcons, e, hrun⟩
  · obtain ⟨hout, hafter⟩ := Prog.alone_of_run hrun
    refine iff_of_true ((settles_iff_of_ok hout hafter).mpr ⟨?_, ?_, ?_⟩) ⟨?_, ?_⟩
    · exact ListUpdates.mem_set hl (ListUpdates.changed_set.trans hset)
    · exact visibility_of_set (hdb.lists l hl) hset
    · exact ListUpdates.keepsRest_of_set hset
    · by_contra hnull
      exact absurd (hset.symm.trans (ListUpdates.set_eq_none.mpr hnull)) nofun
    · exact (htexts l' hset).mp hfits
  · obtain ⟨hout, -⟩ := Prog.alone_of_run hrun
    refine iff_of_false (not_settles_of_error (by simp) hout) fun ⟨hkeeps, hstore⟩ => ?_
    have hsome : request.toListUpdates.set l ≠ none := fun hnone =>
      ListUpdates.set_eq_none.mp hnone hkeeps
    obtain ⟨l', hset⟩ := Option.ne_none_iff_exists'.mp hsome
    have hpass := constraints_of_set (hdb.lists l hl) hset
    exact absurd ((hcons l' hset hpass).symm.trans ((htexts l' hset).mpr hstore)) nofun

end ListUpdateRequest

/-- An edit of a profile ends well, with a sound row or refused, if and only if its new handle is
refused or the row can be stored with a supported locale; an edit of one's own list does if and only
if no required field is `null` and the database can hold the texts. -/
theorem edit_payloads_end_well_iff (c : Ctx) (db : Db) (u : User) (profile : UserUpdateRequest)
    (list : ListUpdateRequest) (l : VenueList) (hdb : Consistent db)
    (hstorable : db.storable = true)
    (hu : u ∈ db.users) (hl : l ∈ db.lists) (howner : l.userId = u.id) :
    (profile.EndsWell c db u ↔ profile.IsRefused c db u ∨ profile.IsStorable db u) ∧
      (list.EndsWell db u l ↔ list.KeepsRequired ∧ list.TextsStorable) :=
  ⟨UserUpdateRequest.payload_endsWell_iff hdb hstorable hu,
    ListUpdateRequest.payload_endsWell_iff hdb hstorable hl howner⟩

/-- Somebody with a list. -/
def keeper : User := User.create 1 "clerk" "sub_1" "ada" "Ada" 0

def favourites : VenueList where
  id := 3
  userId := 1
  title := "Favourites"
  description := none
  visibility := Visibility.pub
  createdAt := 0

def keeperDb : Db :=
  { Db.empty with users := Table.empty.insert keeper, lists := Table.empty.insert favourites }

/-- A new display name, and a description that is taken away. -/
def nameEdit : UserUpdateRequest := { displayName := some (some "Lovelace") }

def descriptionEdit : ListUpdateRequest := { description := some none }

/-- The new name, and the description that is taken away. -/
theorem edit_payloads_end_well_iff_keeper :
    (nameEdit.EndsWell (.fixed 1 9) keeperDb keeper ↔
        nameEdit.IsRefused (.fixed 1 9) keeperDb keeper ∨ nameEdit.IsStorable keeperDb keeper) ∧
      (descriptionEdit.EndsWell keeperDb keeper favourites ↔
        descriptionEdit.KeepsRequired ∧ descriptionEdit.TextsStorable) :=
  edit_payloads_end_well_iff (.fixed 1 9) keeperDb keeper nameEdit descriptionEdit favourites
    (by decide) (by decide) (by decide) (by decide) rfl

/-- A text around a supported locale is stored as the locale, and a title that is `null` ends in a
violated constraint. -/
theorem edit_payloads_can_end_badly :
    (¬ ∀ (c : Ctx) (db : Db) (u : User) (profile : UserUpdateRequest), Consistent db →
      db.storable = true → u ∈ db.users → profile.EndsWell c db u) ∧
    ¬ ∀ (db : Db) (u : User) (list : ListUpdateRequest) (l : VenueList), Consistent db →
      db.storable = true → u ∈ db.users → l ∈ db.lists → l.userId = u.id →
        list.EndsWell db u l := by
  constructor
  · intro h
    have hends := h (.fixed 1 9) keeperDb keeper { locale := some (some "extra") } (by decide)
      (by decide) (by decide)
    have hout : ((updateProfile (.fixed 1 9) keeper { locale := some (some "extra") }).within
        Db.storable).outcome (some 1) keeperDb = .ok { keeper with locale := "extra" } := rfl
    obtain ⟨-, hlocale, -⟩ := (settles_iff_of_ok hout rfl).mp hends
    exact absurd hlocale (by decide)
  · intro h
    have hout : ((updateList 3 keeper { title := some none }).within Db.storable).outcome (some 1)
        keeperDb = .error (.database .integrity) := rfl
    exact not_settles_of_error (by simp) hout (h keeperDb keeper { title := some none } favourites
      (by decide) (by decide) (by decide) (by decide) rfl)

end OburBackend
