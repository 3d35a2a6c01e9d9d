import OburBackend.Model.Consistent
import OburBackend.Service.Reaction
import OburBackend.Sql.Writes

/-!
# Counting and marking as read

The rest of `app/services/notification.py` and `like.py`: how many notifications of a user are
unread, how many users like a check-in or a list, and `mark_all_notifications_read`, which loads the
unread notifications and sends one `UPDATE` for each of them at its commit. Alone it marks just the
notifications that the user sees unread (`markAllNotificationsRead_spec`): those that a block hides
stay unread, and are so when the block is lifted.
-/

namespace Sql

variable {σ κ ℓ τ ε ρ π : Type} [DecidableEq π] {key : ρ → π}

namespace TableDef

variable (T : TableDef σ κ ℓ τ key)

/-- What an `UPDATE ... WHERE pk = k` writes when nobody counts the rows that it matches. -/
def updateIfThereWrite (l : ℓ) (s : σ) (k : π) (f : ρ → Option ρ)
    (hf : ∀ r r', f r = some r' → key r' = key r) : Except DbError (Write σ κ) :=
  match T.updateWrite l s k f hf with
  | .error .staleData => .ok { effect := id, locks := [] }
  | result => result

/-- It writes what the counted `UPDATE` writes, or nothing. -/
theorem updateIfThereWrite_eq_ok {l : ℓ} {s : σ} {k : π} {f : ρ → Option ρ}
    {hf : ∀ r r', f r = some r' → key r' = key r} {wr : Write σ κ}
    (h : T.updateIfThereWrite l s k f hf = .ok wr) :
    T.updateWrite l s k f hf = .ok wr ∨
      T.updateWrite l s k f hf = .error .staleData ∧ wr = { effect := id, locks := [] } := by
  unfold updateIfThereWrite at h
  split at h
  · next hstale => exact .inr ⟨hstale, (Except.ok.inj h).symm⟩
  · exact .inl h

variable [OfDbError ε]

/-- `UPDATE ... WHERE pk = k`, whether there is such a row or not. -/
def updateIfThere (k : π) (f : ρ → Option ρ) (hf : ∀ r r', f r = some r' → key r' = key r) :
    Prog σ κ ℓ τ ε Unit :=
  .execute (T.stmt .update k) (fun l s => T.updateIfThereWrite l s k f hf) (.ret ())
    fun e => .raise (OfDbError.ofDbError e)

/-- The `UPDATE`s of the rows with the given keys in one flush. The driver counts the matched rows
of a statement that is sent once, and does not count those of one that is sent several times. -/
def updateEach (f : ρ → Option ρ) (hf : ∀ r r', f r = some r' → key r' = key r) :
    List π → Prog σ κ ℓ τ ε Unit
  | [] => .ret ()
  | [k] => T.update k f hf
  | ks => ks.foldr (fun k rest => (T.updateIfThere k f hf).bind fun _ => rest) (.ret ())

variable {T}

/-- A flush whose `UPDATE`s pass, whichever of the others have run, sets the rows one after the
other. -/
theorem run_updateEach {P : σ → Prop} {f : ρ → Option ρ}
    {hf : ∀ r r', f r = some r' → key r' = key r} {l : ℓ} {s t : σ} {ks : List π} (hs : P s)
    (hstep : ∀ s k, P s → k ∈ ks → P (T.set k f hf s) ∧
      ∃ wr, T.updateWrite l s k f hf = .ok wr ∧ wr.effect = T.set k f hf) :
    (T.updateEach f hf ks : Prog σ κ ℓ τ ε Unit).run ⟨l, t, s⟩ =
      (.ok (), ⟨l, t, ks.foldl (fun s k => T.set k f hf s) s⟩) := by
  have hmany : ∀ ks' ⊆ ks, ∀ s, P s →
      (ks'.foldr (fun k rest => (T.updateIfThere k f hf).bind fun _ => rest)
        (.ret () : Prog σ κ ℓ τ ε Unit)).run ⟨l, t, s⟩ =
          (.ok (), ⟨l, t, ks'.foldl (fun s k => T.set k f hf s) s⟩) := by
    intro ks'
    induction ks' with
    | nil => exact fun _ _ _ => rfl
    | cons k ks' ih =>
      intro hsub s hs
      obtain ⟨hk, hsub⟩ := List.cons_subset.mp hsub
      obtain ⟨hnext, wr, hwr, heffect⟩ := hstep s k hs hk
      have hthere : T.updateIfThereWrite l s k f hf = .ok wr := by
        rw [updateIfThereWrite, hwr]
      rw [List.foldr_cons, List.foldl_cons, ← ih hsub _ hnext]
      simp only [updateIfThere, Prog.bind, Prog.run, hthere, heffect]
  rcases ks with _ | ⟨k, _ | ⟨k', ks⟩⟩
  · rfl
  · obtain ⟨-, wr, hwr, heffect⟩ := hstep s k hs List.mem_cons_self
    simp only [updateEach, update, Prog.run, hwr, heffect, List.foldl_cons, List.foldl_nil]
  · exact hmany _ (List.Subset.refl _) s hs

end TableDef

omit [DecidableEq π] in
/-- Two changes of one kind. -/
theorem Table.modify_modify {t : Table key} {p q : ρ → Bool} {f : ρ → ρ}
    {hf : ∀ r, key (f r) = key r} (htwice : ∀ r, f (f r) = f r) (hq : ∀ r, q (f r) = q r) :
    (t.modify p f hf).modify q f hf = t.modify (fun r => p r || q r) f hf := by
  have hrows : ∀ r, (if q (if p r then f r else r) then f (if p r then f r else r)
      else if p r then f r else r) = if p r || q r then f r else r := by
    intro r
    by_cases hp : p r = true <;> by_cases hqr : q r = true <;> simp [hp, hqr, hq, htwice]
  simp only [modify, List.map_map, Function.comp_def, hrows]

omit [DecidableEq π] in
/-- Two conditions that agree on the rows change the same. -/
theorem Table.modify_congr {t : Table key} {p q : ρ → Bool} {f : ρ → ρ}
    {hf : ∀ r, key (f r) = key r} (h : ∀ r ∈ t, p r = q r) :
    t.modify p f hf = t.modify q f hf := by
  have hrows : t.rows.map (fun r => if p r then f r else r) =
      t.rows.map fun r => if q r then f r else r :=
    List.map_congr_left fun r hr => by rw [h r hr]
  simp only [modify, hrows]

end Sql

namespace OburBackend

open Sql

/-! ## Notifications -/

/-- The unread notifications of a user that the session sees. -/
def unreadNotifications (me : Identity) (db : Db) (userId : Uuid) : List Notification :=
  notifications.rows me db fun n => decide (n.userId = userId) && n.readAt.isNone

/-- `count_unread_notifications` -/
def countUnreadNotifications (userId : Uuid) : Service ℕ :=
  query ⟨.select, .notifications, [userId]⟩ fun me db =>
    (unreadNotifications me db userId).length

/-- `notification.read_at = now` -/
def Notification.read (now : Timestamp) (n : Notification) : Option Notification :=
  some { n with readAt := some now }

/-- Reading a notification leaves its id. -/
theorem Notification.read_id (now : Timestamp) :
    ∀ n n', Notification.read now n = some n' → n'.id = n.id := by
  rintro n _ ⟨⟩
  rfl

/-- `mark_all_notifications_read`. A flush sends its rows in the order of their keys. -/
def markAllNotificationsRead (c : Ctx) (userId : Uuid) : Service Unit := do
  let unread ← query ⟨.select, .notifications, [userId]⟩ fun me db =>
    unreadNotifications me db userId
  notifications.updateEach (Notification.read c.now) (Notification.read_id c.now)
    ((unread.map Notification.id).insertionSort fun a b => a.toNat ≤ b.toNat)
  commit

/-- The database with some notifications read. -/
def Db.withRead (now : Timestamp) (p : Notification → Bool) (db : Db) : Db :=
  { db with
    notifications :=
      db.notifications.modify p (fun n => { n with readAt := some now }) fun _ => rfl }

section MarkAll

variable {db : Db} {now : Timestamp} {userId : Uuid} {p : Notification → Bool}

/-- The notifications afterwards: those with the condition are read. -/
theorem mem_withRead {x : Notification} : x ∈ (db.withRead now p).notifications ↔
    ∃ n ∈ db.notifications, (if p n then { n with readAt := some now } else n) = x := by
  simp only [Db.withRead, Table.mem_modify]

/-- Without any, nothing changes. -/
theorem withRead_false (now : Timestamp) (db : Db) : db.withRead now (fun _ => false) = db := by
  simp [Db.withRead, Table.modify]

/-- One `UPDATE` marks one more. -/
theorem set_withRead (id : Uuid) :
    notifications.set id (Notification.read now) (Notification.read_id now) (db.withRead now p) =
      db.withRead now fun n => p n || decide (n.id = id) :=
  congrArg (fun t => { db with notifications := t })
    (Table.modify_modify (t := db.notifications) (p := p) (q := fun n => decide (n.id = id))
      (f := fun n => { n with readAt := some now }) (fun _ => rfl) fun _ => rfl)

/-- Reading them one by one reads them all. -/
theorem foldl_set_withRead (ids : List Uuid) (p : Notification → Bool) :
    ids.foldl (fun s id => notifications.set id (Notification.read now)
      (Notification.read_id now) s) (db.withRead now p) =
        db.withRead now fun n => p n || decide (n.id ∈ ids) := by
  induction ids generalizing p with
  | nil => simp
  | cons id ids ih =>
    rw [List.foldl_cons, set_withRead, ih]
    congr 1
    funext n
    simp [Bool.or_assoc]

/-- Whatever has been read before, the user may mark an own notification that is not hidden. -/
theorem updateWrite_withRead (hvalid : notifications.Valid db) {n : Notification}
    (hn : n ∈ unreadNotifications (some userId) db userId) :
    ∃ wr, notifications.updateWrite (some userId) (db.withRead now p) n.id (Notification.read now)
        (Notification.read_id now) = .ok wr ∧
      wr.effect = notifications.set n.id (Notification.read now) (Notification.read_id now) := by
  obtain ⟨hmem, hunread, hsee⟩ := notifications.mem_rows.mp hn
  have hown : n.userId = userId := of_decide_eq_true (Bool.and_eq_true_iff.mp hunread).1
  -- the row as it is by now: only the column that no policy and no constraint looks at may differ
  obtain ⟨r, hr, hid, huser, hactor⟩ : ∃ r ∈ (db.withRead now p).notifications,
      r.id = n.id ∧ r.userId = n.userId ∧ r.actorId = n.actorId := by
    refine ⟨_, mem_withRead.mpr ⟨n, hmem, rfl⟩, ?_⟩
    split <;> exact ⟨rfl, rfl, rfl⟩
  have hselect : ∀ r : Notification, r.userId = n.userId → r.actorId = n.actorId →
      ((notifications.policy (some userId) (db.withRead now p)).select r).Holds := by
    intro r huser hactor
    show (((rlsIsOwnerOrAdmin _ db (some r.userId)).or (rlsIsOwnerOrAdmin _ db r.actorId)).and
      ((rlsIsAdmin _ db).or (rlsIsBlockedPair db (some r.userId) r.actorId).not)).Holds
    rw [huser, hactor]
    exact hsee
  have hupdate : ∀ r : Notification, r.userId = n.userId →
      (rlsIsOwnerOrAdmin (some userId) (db.withRead now p) (some r.userId)).Holds := by
    intro r huser
    exact holds_rlsIsOwnerOrAdmin.mpr (.inl (by rw [huser, hown]))
  have hconstraints : ∀ r : Notification, r.userId = n.userId → r.actorId = n.actorId →
      notifications.constraints (db.withRead now p) r = true := by
    intro r huser hactor
    have hrow := hvalid n hmem
    show (db.hasUser r.userId && db.hasUser? r.actorId) = true
    rw [huser, hactor]
    exact hrow
  refine ⟨_, notifications.updateWrite_of_pass
    (notifications.lookup_eq_some.mpr ⟨hr, hid, hselect r huser hactor⟩) (hupdate r huser) rfl
    (hupdate _ huser) (hselect _ huser hactor) (hconstraints _ huser hactor), rfl⟩

/-- The flush marks what the user sees unread. -/
theorem run_updateEach_unread (hvalid : notifications.Valid db) {ids : List Uuid}
    (hids : ∀ id, id ∈ ids ↔ ∃ n ∈ unreadNotifications (some userId) db userId, n.id = id) :
    (notifications.updateEach (Notification.read now) (Notification.read_id now) ids :
        Service Unit).run (Conn.start (some userId) db) =
      (.ok (), ⟨some userId, db,
        db.withRead now fun n => decide (n ∈ unreadNotifications (some userId) db userId)⟩) := by
  have hall : ids.foldl (fun s id => notifications.set id (Notification.read now)
      (Notification.read_id now) s) db =
        db.withRead now fun n => decide (n ∈ unreadNotifications (some userId) db userId) := by
    conv_lhs => rw [← withRead_false now db]
    rw [foldl_set_withRead]
    refine congrArg (fun t => { db with notifications := t }) (Table.modify_congr fun n hn => ?_)
    rw [Bool.false_or, decide_eq_decide, hids]
    constructor
    · rintro ⟨m, hm, hid⟩
      rwa [← Table.eq_of_key_eq (notifications.mem_rows.mp hm).1 hn hid]
    · exact fun hn => ⟨n, hn, rfl⟩
  rw [← hall]
  refine TableDef.run_updateEach (P := fun s => ∃ p, s = db.withRead now p)
    ⟨_, (withRead_false now db).symm⟩ ?_
  rintro _ id ⟨p, rfl⟩ hid
  obtain ⟨n, hn, rfl⟩ := (hids id).mp hid
  exact ⟨⟨_, set_withRead n.id⟩, updateWrite_withRead hvalid hn⟩

/-- The request ends with the unread ones read, and nothing else changed. -/
theorem run_markAllNotificationsRead (c : Ctx) (hvalid : notifications.Valid db) :
    (markAllNotificationsRead c userId).run (Conn.start (some userId) db) =
      (.ok (), Conn.start (some userId)
        (db.withRead c.now fun n => decide (n ∈ unreadNotifications (some userId) db userId))) := by
  have hids (id : Uuid) : id ∈ ((unreadNotifications (some userId) db userId).map
      Notification.id).insertionSort (fun a b => a.toNat ≤ b.toNat) ↔
        ∃ n ∈ unreadNotifications (some userId) db userId, n.id = id :=
    (List.mem_insertionSort _).trans List.mem_map
  rw [markAllNotificationsRead, Prog.bind_eq, run_query_bind, Prog.bind_eq, Prog.run_bind]
  simp only [Conn.start_vars, Conn.start_working, run_updateEach_unread hvalid hids]
  rfl

end MarkAll

/-- Whatever is stored, marking succeeds: of the notifications just those that the user sees unread
are read now, nothing else has changed, and none is left to count. -/
theorem markAllNotificationsRead_spec (c : Ctx) (db : Db) (userId : Uuid)
    (hvalid : notifications.Valid db) :
    (markAllNotificationsRead c userId).outcome (some userId) db = .ok () ∧
      (markAllNotificationsRead c userId).after (some userId) db =
        db.withRead c.now (fun n => decide (n ∈ unreadNotifications (some userId) db userId)) ∧
      (countUnreadNotifications userId).outcome (some userId)
        ((markAllNotificationsRead c userId).after (some userId) db) = .ok 0 := by
  obtain ⟨hout, hafter⟩ := Prog.alone_of_run (run_markAllNotificationsRead c hvalid)
  refine ⟨hout, hafter, ?_⟩
  rw [hafter]
  refine congrArg Except.ok (List.length_eq_zero_iff.mpr (List.eq_nil_iff_forall_not_mem.mpr ?_))
  intro x hx
  obtain ⟨hmem, hunread, hsee⟩ := notifications.mem_rows.mp hx
  obtain ⟨n, hn, hread⟩ := mem_withRead.mp hmem
  split at hread
  · subst hread
    simp at hunread
  · next hnot =>
    subst hread
    exact hnot (decide_eq_true (notifications.mem_rows.mpr ⟨hn, hunread, hsee⟩))

/-- A user who is told of two follows, one of them from the other side of a block. -/
def followedDb : Db :=
  { Db.empty with
    users := ((Table.empty.insert (User.create 1 "clerk" "sub_1" "ada" "Ada" 0)).insert
      (User.create 2 "clerk" "sub_2" "bob" "Bob" 0)).insert
        (User.create 3 "clerk" "sub_3" "cem" "Cem" 0)
    blocks := Table.empty.insert ⟨3, 1, 5⟩
    notifications := (Table.empty.insert ⟨6, 1, .newFollower, some 2, .user, 2, none, 4⟩).insert
      ⟨7, 1, .newFollower, some 3, .user, 3, none, 4⟩ }

/-- One unread notification of a follow is read, and none is left. -/
theorem markAllNotificationsRead_spec_followed :
    (markAllNotificationsRead (.fixed 8 9) 1).outcome (some 1) followedDb = .ok () ∧
      (markAllNotificationsRead (.fixed 8 9) 1).after (some 1) followedDb =
        followedDb.withRead 8
          (fun n => decide (n ∈ unreadNotifications (some 1) followedDb 1)) ∧
      (countUnreadNotifications 1).outcome (some 1)
        ((markAllNotificationsRead (.fixed 8 9) 1).after (some 1) followedDb) = .ok 0 :=
  markAllNotificationsRead_spec (.fixed 8 9) followedDb 1 (by decide)

/-! ## Likes -/

/-- `count_checkin_likes` -/
def countCheckinLikes (checkinId : Uuid) : Service ℕ :=
  query ⟨.select, .checkinLikes, [checkinId]⟩ fun me db =>
    (checkinLikes.rows me db fun r => decide (r.targetId = checkinId)).length

/-- `count_list_likes` -/
def countListLikes (listId : Uuid) : Service ℕ :=
  query ⟨.select, .listLikes, [listId]⟩ fun me db =>
    (listLikes.rows me db fun r => decide (r.targetId = listId)).length

end OburBackend
