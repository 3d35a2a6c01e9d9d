import OburBackend.Account.SigningIn
import OburBackend.Model.Consistent
import OburBackend.Sql.AllOrNothing

/-!
# How often a handle changes

A user may change their handle once in `usernameChangeIntervalDays` days. `update_profile` checks
this on the row that its request has loaded and later writes the new handle whatever the row has
become: two requests that have both loaded the row before either commits both pass the check. That
is the only way. In a run in which no request commits a new handle after another has been committed
since it loaded the row, the changes are as far apart as they should be.
-/

namespace OburBackend

open Sql

/-- A request to edit the profile: what it takes from outside, and the fields it gives. -/
structure ProfileRequest where
  c : Ctx
  changes : ProfileChanges

/-- The handle of a user, and when it was last changed. -/
def Db.username (db : Db) (id : Uuid) : Option String := (db.users.get id).map User.username
def Db.usernameChangedAt (db : Db) (id : Uuid) : Option Timestamp :=
  (db.users.get id).bind User.usernameChangedAt

/-- The blocks are those of `db`, and the account of `user` is stored. -/
structure HasAccount (db : Db) (user : User) (s : Db) : Prop where
  blocks : s.blocks = db.blocks
  stored : ∃ u ∈ s.users, u.id = user.id ∧ u.authProvider = authProvider ∧
    u.authProviderId = user.authProviderId

/-- The handle may be changed at the moment `now`, as far as the row in `r` goes. -/
def Db.MayChangeUsername (r : Db) (id : Uuid) (now : Timestamp) : Prop :=
  ∀ changedAt, r.usernameChangedAt id = some changedAt →
    nextUsernameChangeAllowedAt changedAt ≤ now

/-- What a commit owes, when the request has read `rs`: the handle stays as it is, or the request
has set it after the query for the handle had followed the load of a row that allowed the change. -/
structure ProfilePromise (db : Db) (user : User) (now : Timestamp) (rs : List Db) (s s' : Db) :
    Prop where
  account : HasAccount db user s'
  handle : s'.username user.id = s.username user.id ∧
      s'.usernameChangedAt user.id = s.usernameChangedAt user.id ∨
    s'.usernameChangedAt user.id = some now ∧
      ∃ r, rs[1]? = some r ∧ r.MayChangeUsername user.id now

section Requests

variable {db s : Db} {user : User} {now : Timestamp} {c : Ctx} {changes : ProfileChanges}
  {L : Local Db Lock Identity Stmt} {rs : List Db}

/-- A user sees their own row, since nobody has blocked themselves. -/
theorem HasAccount.lookup (h : HasAccount db user s) (hdb : Consistent db) :
    ∃ u, users.lookup (some user.id) s user.id = some u := by
  obtain ⟨u, hu, hid, -⟩ := h.stored
  refine ⟨u, users.lookup_eq_some.mpr ⟨hu, hid, ?_⟩⟩
  rw [users_policy, holds_usersPolicy_select]
  refine .inr fun v hv => ?_
  obtain rfl : user.id = v := Option.some.inj hv
  rintro ⟨r, hr, hends⟩
  rw [h.blocks] at hr
  have hcons : blocksConstraints db r = true := hdb.blocks r hr
  rcases hends with ⟨h1, h2⟩ | ⟨h1, h2⟩
  · simp [blocksConstraints, h1, h2, hid] at hcons
  · simp [blocksConstraints, h1, h2, hid] at hcons

/-- What `_find_user` reads without an identity: the account, unless there are several. -/
theorem HasAccount.rows (h : HasAccount db user s) :
    (∃ u ∈ s.users, u.id = user.id ∧ users.rows none s (fun u =>
      decide (u.authProvider = authProvider) &&
        decide (u.authProviderId = user.authProviderId)) = [u]) ∨
    ∃ u u' rest, users.rows none s (fun u => decide (u.authProvider = authProvider) &&
      decide (u.authProviderId = user.authProviderId)) = u :: u' :: rest := by
  obtain ⟨u, hu, hid, hprovider, hsub⟩ := h.stored
  have hrow : u ∈ users.rows none s fun u => decide (u.authProvider = authProvider) &&
      decide (u.authProviderId = user.authProviderId) :=
    users.mem_rows.mpr ⟨hu, by simp [hprovider, hsub], usersPolicy_select_none s u⟩
  generalize users.rows none s (fun u => decide (u.authProvider = authProvider) &&
    decide (u.authProviderId = user.authProviderId)) = rows at hrow ⊢
  rcases rows with _ | ⟨x, _ | ⟨x', rest⟩⟩
  · exact absurd hrow List.not_mem_nil
  · obtain rfl := List.mem_singleton.mp hrow
    exact .inl ⟨u, hu, hid, rfl⟩
  · exact .inr ⟨x, x', rest, rfl⟩

/-- Without an identity no row of `users` is updated. -/
theorem users_updateWrite_none {k : Uuid} {f : User → Option User}
    {hf : ∀ r r', f r = some r' → r'.id = r.id} {wr : Write Db Lock} :
    users.updateWrite none s k f hf ≠ .ok wr := by
  intro hw
  obtain ⟨r, -, -, husing, -⟩ := users.updateWrite_eq_ok hw
  exact not_usersPolicy_updateUsing_none s r husing

/-- The row of the edited account. -/
theorem get_setProfile {newUsername : Option String} {id : Uuid} :
    (users.set id (changes.set newUsername now) (changes.set_id newUsername now) s).users.get id =
      (s.users.get id).map fun u => (changes.set newUsername now u).getD u :=
  Table.get_modify_key (TableDef.key_getD (changes.set_id newUsername now))

/-- An edit leaves the account in place. -/
theorem HasAccount.set (h : HasAccount db user s) {newUsername : Option String} :
    HasAccount db user (users.set user.id (changes.set newUsername now)
      (changes.set_id newUsername now) s) where
  blocks := h.blocks
  stored := by
    obtain ⟨u, hu, hid, hprovider, hsub⟩ := h.stored
    have hget := @get_setProfile s now changes newUsername user.id
    rw [Table.get_eq_some.mpr ⟨hu, hid⟩, Option.map_some] at hget
    obtain ⟨hmem, hkey⟩ := Table.get_eq_some.mp hget
    refine ⟨_, hmem, hkey, ?_⟩
    cases hset : changes.set newUsername now u with
    | none => exact ⟨hprovider, hsub⟩
    | some u' =>
      obtain ⟨-, hprovider', hsub', -⟩ := ProfileChanges.set_eq_some hset
      exact ⟨hprovider'.trans hprovider, hsub'.trans hsub⟩

/-- It leaves the handle as it is, or sets it at the moment of the request. -/
theorem handle_set {newUsername : Option String} {id : Uuid} :
    (users.set id (changes.set newUsername now) (changes.set_id newUsername now) s).username id =
        s.username id ∧
      (users.set id (changes.set newUsername now)
        (changes.set_id newUsername now) s).usernameChangedAt id = s.usernameChangedAt id ∨
    newUsername.isSome = true ∧ (users.set id (changes.set newUsername now)
      (changes.set_id newUsername now) s).usernameChangedAt id = some now := by
  rw [Db.username, Db.usernameChangedAt, get_setProfile, Db.username, Db.usernameChangedAt]
  cases s.users.get id with
  | none => exact .inl ⟨rfl, rfl⟩
  | some u =>
    cases hset : changes.set newUsername now u with
    | none => exact .inl ⟨by simp [hset], by simp [hset]⟩
    | some u' =>
      obtain ⟨-, -, -, -, -, hname, hchanged⟩ := ProfileChanges.set_eq_some hset
      cases newUsername with
      | none => exact .inl ⟨by simpa [hset] using hname, by simpa [hset] using hchanged⟩
      | some name => exact .inr ⟨rfl, by simpa [hset] using hchanged⟩

/-! ## What each request promises -/

/-- The end of `update_profile`, when the load has allowed the change of the handle that there
is. -/
theorem readsWp_saveProfile {u : User} (hid : u.id = user.id) (hpending : L.pending = [])
    (hread : (changes.newUsername u).isSome = true →
      ∃ r, rs[1]? = some r ∧ r.MayChangeUsername user.id c.now) :
    ReadsWp (HasAccount db user) (ProfilePromise db user c.now) (fun _ _ _ => True)
      (saveProfile c u changes) L rs := by
  have hrefresh : ∀ L : Local Db Lock Identity Stmt, ReadsWp (HasAccount db user)
      (ProfilePromise db user c.now) (fun _ _ _ => True) (refresh users u.id) L rs :=
    fun L => (readOnly_refresh users u.id).readsWp fun _ _ _ _ _ => trivial
  unfold saveProfile
  dsimp only
  split
  · simp only [Prog.bind_eq, readsWp_update_bind, readsWp_commit_bind]
    refine fun s hs => ⟨fun wr hw => ⟨fun s hs => ?_, hrefresh _⟩, fun _ _ => trivial⟩
    obtain ⟨-, u', -, -, -, -, -, -, rfl⟩ := users.updateWrite_eq_ok hw
    rw [Local.view_wrote, Local.view_saw, Local.view_eq_self hpending, hid]
    refine ⟨hs.set, ?_⟩
    rcases @handle_set s c.now (changes.changed u) _ user.id with hsame | ⟨hnew, hset⟩
    · exact .inl hsame
    · exact .inr ⟨hset, hread hnew⟩
  · simp only [Prog.bind_eq, readsWp_commit_bind]
    refine ⟨fun s hs => ?_, hrefresh _⟩
    rw [Local.view_eq_self hpending]
    exact ⟨hs, .inl ⟨rfl, rfl⟩⟩

/-- `update_profile` on a row that has just been loaded from `r`. -/
theorem readsWp_updateProfile {u : User} {r : Db} (hu : u ∈ r.users) (hid : u.id = user.id)
    (hpending : L.pending = []) :
    ReadsWp (HasAccount db user) (ProfilePromise db user c.now) (fun _ _ _ => True)
      (updateProfile c u changes) L (r :: rs) := by
  unfold updateProfile
  cases hnew : changes.newUsername u with
  | none => exact readsWp_saveProfile hid hpending fun h => by rw [hnew] at h; cases h
  | some username =>
    dsimp only
    cases hrecent : u.usernameChangedAt.filter fun changedAt =>
        decide (c.now < nextUsernameChangeAllowedAt changedAt) with
    | some changedAt => trivial
    | none =>
      have hmay : r.MayChangeUsername user.id c.now := by
        intro changedAt hchanged
        have hget : r.users.get user.id = some u := Table.get_eq_some.mpr ⟨hu, hid⟩
        rw [Db.usernameChangedAt, hget] at hchanged
        have hnot := Option.filter_eq_none_iff.mp hrecent changedAt hchanged
        rw [decide_eq_true_eq] at hnot
        exact Nat.not_lt.mp hnot
      simp only [Prog.bind_eq, ensureUsernameAvailable, select, Prog.bind_assoc,
        readsWp_query_bind]
      intro s hs
      rcases users.rows _ _ _ with _ | ⟨x, _ | ⟨x', rest⟩⟩
      · exact readsWp_saveProfile hid hpending fun _ => ⟨r, rfl, hmay⟩
      · trivial
      · trivial

/-- `update_me` from the start of its session. -/
theorem readsWp_updateMe :
    ReadsWp (HasAccount db user) (ProfilePromise db user c.now) (fun _ _ _ => True)
      (updateMe c ⟨.ok user.authProviderId⟩ changes) (Local.start none) [] := by
  simp only [updateMe, getCurrentUser, resolveUser, verifySession, findUser, select, Prog.bind_eq,
    Prog.pure_eq, Prog.ret_bind, Prog.bind_assoc, readsWp_query_bind]
  intro s hs
  rw [Local.view_start]
  rcases hs.rows with ⟨u, hu, hid, hrows⟩ | ⟨u, u', rest, hrows⟩
  · simp only [Local.start_vars, hrows, scalarOneOrNone, Prog.pure_eq, Prog.ret_bind]
    cases hstatus : u.status with
    | suspended => trivial
    | frozen =>
      -- without an identity the reactivation matches no row
      simp only [reduceCtorEq, if_false, if_true, reactivateAccount, hstatus, ne_eq,
        not_true_eq_false, setStatus, Prog.bind_eq, Prog.bind_assoc, readsWp_update_bind]
      exact fun s _ => ⟨fun wr hw => absurd hw users_updateWrite_none, fun _ _ => trivial⟩
    | active =>
      simp only [reduceCtorEq, if_false, setCurrentUserIdentity]
      exact readsWp_updateProfile hu hid rfl
  · rw [Local.start_vars, hrows]
    trivial

/-- Once it has committed, `update_profile` returns: its user reads back their own row. -/
theorem allOrNothing_saveProfile {u : User} (hdb : Consistent db) (hid : u.id = user.id)
    (hme : L.vars = some user.id) :
    (saveProfile c u changes).AllOrNothing (HasAccount db user) L := by
  have hrefresh : (refresh users u.id).Returns (HasAccount db user) (some user.id) := by
    simp only [refresh, Prog.bind_eq, Prog.returns_get_bind]
    intro s hs
    obtain ⟨x, hx⟩ := hs.lookup hdb
    rw [hid, hx]
    trivial
  unfold saveProfile
  dsimp only
  split
  · simp only [Prog.bind_eq, Prog.allOrNothing_update_bind, Prog.allOrNothing_commit_bind]
    intro s _ wr _
    rw [Local.wrote_vars, Local.saw_vars, hme]
    exact hrefresh
  · simp only [Prog.bind_eq, Prog.allOrNothing_commit_bind]
    rw [hme]
    exact hrefresh

/-- An edit of the profile commits as a whole or not at all. -/
theorem allOrNothing_updateProfile {u : User} (hdb : Consistent db) (hid : u.id = user.id)
    (hme : L.vars = some user.id) :
    (updateProfile c u changes).AllOrNothing (HasAccount db user) L := by
  unfold updateProfile
  split
  · exact allOrNothing_saveProfile hdb hid hme
  · split
    · trivial
    · simp only [Prog.bind_eq, ensureUsernameAvailable, select, Prog.bind_assoc,
        Prog.allOrNothing_query_bind]
      intro s hs
      rcases users.rows _ _ _ with _ | ⟨x, _ | ⟨x', rest⟩⟩
      · exact allOrNothing_saveProfile hdb hid hme
      · trivial
      · trivial

/-- So does the request, signing in included. -/
theorem allOrNothing_updateMe (hdb : Consistent db) :
    (updateMe c ⟨.ok user.authProviderId⟩ changes).AllOrNothing (HasAccount db user)
      (Local.start none) := by
  simp only [updateMe, getCurrentUser, resolveUser, verifySession, findUser, select, Prog.bind_eq,
    Prog.pure_eq, Prog.ret_bind, Prog.bind_assoc, Prog.allOrNothing_query_bind]
  intro s hs
  rw [Local.view_start]
  rcases hs.rows with ⟨u, hu, hid, hrows⟩ | ⟨u, u', rest, hrows⟩
  · simp only [Local.start_vars, hrows, scalarOneOrNone, Prog.pure_eq, Prog.ret_bind]
    cases hstatus : u.status with
    | suspended => trivial
    | frozen =>
      simp only [reduceCtorEq, if_false, if_true, reactivateAccount, hstatus, ne_eq,
        not_true_eq_false, setStatus, Prog.bind_eq, Prog.bind_assoc,
        Prog.allOrNothing_update_bind]
      exact fun s _ wr hw => absurd hw users_updateWrite_none
    | active =>
      simp only [reduceCtorEq, if_false, setCurrentUserIdentity]
      exact allOrNothing_updateProfile hdb hid (congrArg some hid)
  · rw [Local.start_vars, hrows]
    trivial

end Requests

/-! ## Every run -/

section Runs

variable {ι : Type} [Fintype ι] [DecidableEq ι]

/-- The requests of one user before their first statements. -/
def profileEdits (user : User) (requests : ι → ProfileRequest) (db : Db) :
    Reading ι Db Lock Identity Stmt PyError User :=
  Reading.start db fun i =>
    Session.start none (updateMe (requests i).c ⟨.ok user.authProviderId⟩ (requests i).changes)

/-- Before it commits a new handle, no change of the handle has been committed since the request
loaded the row: the row is as it was for the query before the one for the handle. -/
def LoadedRowStands (user : User) (w : Reading ι Db Lock Identity Stmt PyError User) (i : ι) :
    Prop :=
  (w.world.sessions i).prog.isCommit = true → ∀ r ∈ (w.reads i)[1]?,
    r.usernameChangedAt user.id = w.world.committed.usernameChangedAt user.id

instance (user : User) (w : Reading ι Db Lock Identity Stmt PyError User) (i : ι) :
    Decidable (LoadedRowStands user w i) :=
  haveI : Decidable (∀ r ∈ (w.reads i)[1]?,
      r.usernameChangedAt user.id = w.world.committed.usernameChangedAt user.id) :=
    Option.decidableForallMem _
  inferInstanceAs (Decidable (_ → _))

/-- The moments of the changes of the handle that a run commits, each the `now` of the request that
commits it. -/
def changeTimes (user : User) (requests : ι → ProfileRequest) :
    List ι → Reading ι Db Lock Identity Stmt PyError User → List Timestamp
  | [], _ => []
  | i :: rest, w =>
    match w.step i with
    | none => []
    | some w' =>
      (if w'.world.committed.username user.id = w.world.committed.username user.id then []
        else [(requests i).c.now]) ++ changeTimes user requests rest w'

/-- What holds in every state of such a run. -/
structure EditsInvariant (db : Db) (user : User) (requests : ι → ProfileRequest)
    (w : Reading ι Db Lock Identity Stmt PyError User) : Prop where
  holds : w.Holds (HasAccount db user) fun i => ProfilePromise db user (requests i).c.now
  returns : w.world.AllOrNothing (HasAccount db user)

variable {db : Db} {user : User} {requests : ι → ProfileRequest}
  {w w' : Reading ι Db Lock Identity Stmt PyError User} {i : ι}

omit [Fintype ι] [DecidableEq ι] in
/-- At first nobody has committed an edit. -/
theorem editsInvariant_start [DecidableEq ι] (hdb : Consistent db) (huser : user ∈ db.users)
    (hprovider : user.authProvider = authProvider) :
    EditsInvariant db user requests (profileEdits user requests db) where
  holds := Reading.holds_start ⟨rfl, user, huser, rfl, hprovider, rfl⟩ fun _ => readsWp_updateMe
  returns _ := .inl ⟨List.not_mem_nil, allOrNothing_updateMe hdb⟩

/-- A step of a request keeps the run's invariant. -/
theorem EditsInvariant.step (h : EditsInvariant db user requests w) (hs : w.step i = some w') :
    EditsInvariant db user requests w' where
  holds := h.holds.step hs fun _ _ hpromise => hpromise.account
  returns := by
    obtain ⟨world, hworld, rfl⟩ := Option.map_eq_some_iff.mp hs
    exact h.returns.step h.holds.inv hworld

/-- A step leaves the handle as it is, or changes it at a moment at which the stored row allows
it. -/
theorem EditsInvariant.handle (h : EditsInvariant db user requests w)
    (hC : LoadedRowStands user w i)
    (hs : w.step i = some w') :
    w'.world.committed.username user.id = w.world.committed.username user.id ∧
      w'.world.committed.usernameChangedAt user.id =
        w.world.committed.usernameChangedAt user.id ∨
    w'.world.committed.usernameChangedAt user.id = some (requests i).c.now ∧
      w.world.committed.MayChangeUsername user.id (requests i).c.now := by
  rcases h.holds.commit_of_step hs with hsame | ⟨hcommit, hpromise⟩
  · exact .inl (by rw [hsame]; exact ⟨rfl, rfl⟩)
  · rcases hpromise.handle with hsame | ⟨hset, r, hr, hmay⟩
    · exact .inl hsame
    · refine .inr ⟨hset, fun changedAt hchanged => hmay changedAt ?_⟩
      rw [hC hcommit r hr]
      exact hchanged

/-- The changes that a run commits from here on: each is at a moment at which the stored row allows
it, and any two are the interval apart. -/
theorem EditsInvariant.changeTimes_spaced {sched : List ι} (h : EditsInvariant db user requests w)
    (hC : w.Always (LoadedRowStands user) sched) :
    (∀ t ∈ changeTimes user requests sched w,
      w.world.committed.MayChangeUsername user.id t) ∧
    (changeTimes user requests sched w).Pairwise fun t t' =>
      t + days usernameChangeIntervalDays ≤ t' := by
  induction sched generalizing w with
  | nil => exact ⟨fun t ht => absurd ht List.not_mem_nil, .nil⟩
  | cons i rest ih =>
    rw [changeTimes]
    cases hs : w.step i with
    | none => exact ⟨fun t ht => absurd ht List.not_mem_nil, .nil⟩
    | some w' =>
      dsimp only
      obtain ⟨hlater, hspaced⟩ := ih (h.step hs) (hC.2 w' hs)
      rcases h.handle hC.1 hs with ⟨hname, hchanged⟩ | ⟨hset, hmay⟩
      · rw [if_pos hname, List.nil_append]
        refine ⟨fun t ht changedAt hc => hlater t ht changedAt ?_, hspaced⟩
        rw [hchanged]
        exact hc
      · -- what comes later is the interval apart from this change, and so from what is stored
        have hnext : ∀ t ∈ changeTimes user requests rest w',
            (requests i).c.now + days usernameChangeIntervalDays ≤ t :=
          fun t ht => hlater t ht _ hset
        have hold : ∀ t ∈ changeTimes user requests rest w',
            w.world.committed.MayChangeUsername user.id t := by
          intro t ht changedAt hc
          have hnow := hmay changedAt hc
          have hlate := hnext t ht
          exact hnow.trans (Nat.le_of_add_right_le hlate)
        split
        · rw [List.nil_append]
          exact ⟨hold, hspaced⟩
        · rw [List.singleton_append, List.pairwise_cons]
          refine ⟨fun t ht => ?_, hnext, hspaced⟩
          rcases List.mem_cons.mp ht with rfl | ht
          · exact hmay
          · exact hold t ht

omit [Fintype ι] [DecidableEq ι] in
/-- The invariant holds in every state of a run. -/
theorem EditsInvariant.exec [Fintype ι] [DecidableEq ι] {sched : List ι}
    (h : EditsInvariant db user requests w) (hexec : w.exec sched = some w') :
    EditsInvariant db user requests w' := by
  induction sched generalizing w with
  | nil =>
    obtain rfl := Option.some.inj hexec
    exact h
  | cons i rest ih =>
    obtain ⟨w₁, hs, hrest⟩ := Option.bind_eq_some_iff.mp hexec
    exact ih (h.step hs) hrest

/-- In a run of any number of profile edits of one user in which no request commits a new handle
after another has been committed since it loaded the row, any two changes of the handle are the
interval apart, and no step of a request that raises changes anything. -/
theorem username_changes_spaced (user : User) (requests : ι → ProfileRequest) (db : Db)
    (sched : List ι) (hdb : Consistent db) (huser : user ∈ db.users)
    (hprovider : user.authProvider = authProvider)
    (hC : (profileEdits user requests db).Always (LoadedRowStands user) sched) :
    ((changeTimes user requests sched (profileEdits user requests db)).Pairwise fun t t' =>
      t + days usernameChangeIntervalDays ≤ t') ∧
    ∀ w i e, (profileEdits user requests db).exec sched = some w →
      (w.world.sessions i).prog = .raise e →
      (profileEdits user requests db).Always (Reading.Unchanged i) sched := by
  have hstart := @editsInvariant_start ι db user requests _ hdb huser hprovider
  refine ⟨(hstart.changeTimes_spaced hC).2, fun w i e hexec he => ?_⟩
  exact Reading.always_unchanged hexec ((hstart.exec hexec).returns.not_mem_history he)

end Runs

/-! ## Two new handles -/

def renamedUser : User := User.create 1 "clerk" "sub_1" "ada" "Ada" 0

def renamedDb : Db := { Db.empty with users := Table.empty.insert renamedUser }

/-- A request for a new handle at the moment `now`. -/
def renameTo (username : String) (now : Timestamp) : ProfileRequest :=
  ⟨.fixed now 9, { username := some (some username) }⟩

/-- The second request comes when the interval is over. -/
def renamesInTurn : Fin 2 → ProfileRequest
  | 0 => renameTo "countess" 1000
  | 1 => renameTo "lovelace" (1000 + days usernameChangeIntervalDays)

/-- Two renames in turn. -/
theorem username_changes_spaced_inTurn :
    (changeTimes renamedUser renamesInTurn [0, 0, 0, 0, 0, 0, 0, 1, 1, 1, 1, 1, 1, 1]
      (profileEdits renamedUser renamesInTurn renamedDb)).Pairwise fun t t' =>
        t + days usernameChangeIntervalDays ≤ t' :=
  (username_changes_spaced renamedUser renamesInTurn renamedDb
    [0, 0, 0, 0, 0, 0, 0, 1, 1, 1, 1, 1, 1, 1] (by decide) (by decide) rfl (by decide)).1

/-- The two requests come one second apart. -/
def renamesAtOnce : Fin 2 → ProfileRequest
  | 0 => renameTo "countess" 1000000
  | 1 => renameTo "lovelace" 2000000

/-- The requests take their `now` from one clock: each does so with its second step, once its
identity is installed, and what is taken later is not smaller. -/
def Clocked {ι : Type} [DecidableEq ι] (requests : ι → ProfileRequest) (sched : List ι) : Prop :=
  ∀ n ≤ sched.length, ∀ i j, 2 ≤ (sched.take n).count i → (sched.take n).count j < 2 →
    (requests i).c.now ≤ (requests j).c.now

/-- Two renames at once may both be committed. -/
theorem renames_can_overlap :
    ¬ ∀ (n : ℕ) (user : User) (requests : Fin n → ProfileRequest) (db : Db)
      (sched : List (Fin n)), Consistent db → user ∈ db.users →
      user.authProvider = authProvider → Clocked requests sched →
      ((changeTimes user requests sched (profileEdits user requests db)).Pairwise fun t t' =>
        t + days usernameChangeIntervalDays ≤ t') ∧
      ∀ w i e, (profileEdits user requests db).exec sched = some w →
        (w.world.sessions i).prog = .raise e →
        (profileEdits user requests db).Always (Reading.Unchanged i) sched := by
  intro h
  have hclocked : Clocked renamesAtOnce [0, 0, 0, 1, 1, 1, 0, 0, 1, 1] := by
    unfold Clocked
    decide
  have hspaced := (h 2 renamedUser renamesAtOnce renamedDb [0, 0, 0, 1, 1, 1, 0, 0, 1, 1]
    (by decide) (by decide) rfl hclocked).1
  have htimes : changeTimes renamedUser renamesAtOnce [0, 0, 0, 1, 1, 1, 0, 0, 1, 1]
      (profileEdits renamedUser renamesAtOnce renamedDb) = [1000000, 2000000] := by decide
  rw [htimes] at hspaced
  exact absurd hspaced (by decide)

end OburBackend
