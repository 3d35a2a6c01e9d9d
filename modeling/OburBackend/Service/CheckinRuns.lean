import OburBackend.Model.Texts
import OburBackend.Service.Checkin

/-!
# Requests on check-ins, alone on a connection

What `create_checkin`, `update_checkin` and the two deletions do to the connection that they run on,
which may have something uncommitted. A check that does not pass leaves it as it is. A row that the
database refuses, because of a constraint or a text that it cannot hold (`Db.Takes`), rolls the
transaction back. Otherwise the row is written and everything is committed, but for the verification
of the venue, which `create_checkin` leaves open.
-/

namespace OburBackend

open Sql

/-- The constraints pass the row, and its texts can be stored. -/
def Db.Takes (db : Db) (x : Checkin) : Prop :=
  checkinsConstraints db x = true ∧ AllStorable x.texts

namespace CheckinUpdates

/-- What `update_checkin` checks of the date. -/
def check (updates : CheckinUpdates) (c : Ctx) (x : Checkin) : Service Unit :=
  match updates.visitedAt with
  | none => pure ()
  | some visitedAt => ensureVisitedAtNotFuture c visitedAt x.visitedTz

/-- Setting the changed fields keeps the id. -/
theorem changed_set_id (updates : CheckinUpdates) (x : Checkin) :
    ∀ r r', (updates.changed x).set r = some r' → r'.id = r.id := (updates.changed x).set_id

/-- What `update_checkin` does once the date has passed its check. -/
def save (updates : CheckinUpdates) (x : Checkin) : Service Checkin :=
  if updates.changed x ≠ {} then
    (checkins.update x.id (updates.changed x).set (updates.changed_set_id x)).bind
      fun _ => commit.bind fun _ => refresh checkins x.id
  else commit.bind fun _ => refresh checkins x.id

/-- The update passes the check of its date. -/
def Passes (c : Ctx) (updates : CheckinUpdates) (x : Checkin) : Prop :=
  ∀ visitedAt, updates.visitedAt = some visitedAt →
    ensureVisitedAtNotFuture c visitedAt x.visitedTz = pure ()

/-- The database takes the row with the fields set. -/
def Stores (db : Db) (updates : CheckinUpdates) (x : Checkin) : Prop :=
  ∃ x', (updates.changed x).set x = some x' ∧ db.Takes x'

end CheckinUpdates

section

variable {fits : Db → Bool} {conn : Conn Db Identity}

/-! ## `create_checkin` -/

/-- The evaluation of a venue, alone. -/
theorem run_evaluateVenueVerification {venueId : Uuid}
    (h : fits (evaluated venueId conn.working) = true) :
    ((evaluateVenueVerification venueId).within fits).run conn =
      (.ok (), { conn with working := evaluated venueId conn.working }) := by
  have hfitting : ∀ locks : List Lock, fitting fits (.ok ⟨setVerified ((conn.working.venues.select
      (eligible conn.working venueId minCheckinsForAutoVerification)).map Venue.id), locks⟩)
      conn.working = .ok _ := fun _ => fitting_eq_ok.mpr ⟨rfl, h⟩
  simp only [evaluateVenueVerification, rlsVerifyVenueIfEligible, Prog.bind_eq, Prog.bind,
    Prog.within, Prog.run, hfitting]
  rfl

/-- A venue that is not seen is reported as not found. -/
theorem run_createCheckin_of_hidden {c : Ctx} {args : CheckinCreate}
    (h : venues.lookup conn.vars conn.working args.venueId = none) :
    ((createCheckin c args).within fits).run conn =
      (.error (.domain .venueNotFound ("venue not found: " ++ args.venueId.str)), conn) := by
  simp only [createCheckin, Prog.bind_eq, Prog.within_bind, within_get, run_get_bind, h]
  rfl

/-- What `create_checkin` does once the date has passed its check. -/
def insertCheckin (c : Ctx) (args : CheckinCreate) : Service Checkin := do
  checkins.insert (args.row c)
  commit
  let checkin ← refresh checkins (args.row c).id
  if args.visibility = Visibility.pub then
    evaluateVenueVerification args.venueId
  return checkin

/-- At a venue that is seen the date is checked, and then the row is added. -/
theorem run_createCheckin_of_seen {c : Ctx} {args : CheckinCreate} {v : Venue}
    (h : venues.lookup conn.vars conn.working args.venueId = some v) :
    ((createCheckin c args).within fits).run conn =
      ((ensureVisitedAtNotFuture c (some args.visitedAt) args.visitedTz).bind fun _ =>
        (insertCheckin c args).within fits).run conn := by
  simp only [createCheckin, insertCheckin, Prog.bind_eq, Prog.within_bind, within_get, run_get_bind,
    h, Option.isNone_some, Bool.false_eq_true, if_false,
    (readOnly_ensureVisitedAtNotFuture _ _ _).within]

/-- The check-in is committed and read back; what the verification writes after that is not
committed. -/
theorem run_insertCheckin {c : Ctx} {args : CheckinCreate} {wr : Write Db Lock}
    (hw : fitting fits (checkins.insertWrite conn.vars conn.working (args.row c)) conn.working =
      .ok wr)
    (hfits : fits (evaluated args.venueId (wr.effect conn.working)) = true) :
    ((insertCheckin c args).within fits).run conn =
      (.ok (args.row c),
        { vars := conn.vars, committed := wr.effect conn.working
          working :=
            if args.visibility = Visibility.pub then evaluated args.venueId (wr.effect conn.working)
            else wr.effect conn.working }) := by
  obtain ⟨hins, -⟩ := fitting_eq_ok.mp hw
  have hlookup : checkins.lookup conn.vars (wr.effect conn.working) (args.row c).id =
      some (args.row c) := by
    obtain ⟨-, hsee, hnew, -, rfl⟩ := checkins.insertWrite_eq_ok.mp hins
    exact checkins.lookup_eq_some.mpr ⟨(Table.mem_insert hnew).mpr (.inr rfl), rfl, hsee⟩
  simp only [insertCheckin, Prog.bind_eq, Prog.within_bind, run_within_insert_bind, hw]
  generalize wr.effect conn.working = inserted at hlookup hfits
  simp only [Prog.within_commit, run_commit_bind, (readOnly_refresh _ _).within]
  rw [Prog.run_bind, run_refresh hlookup]
  dsimp only
  split
  · have hevaluate := @run_evaluateVenueVerification fits ⟨conn.vars, inserted, inserted⟩ _ hfits
    rw [Prog.within_bind, Prog.run_bind]
    simp only [Conn.publish, hevaluate]
    rfl
  · rfl

/-- `create_checkin` fails and leaves the session as it is, or the database refuses the check-in and
the transaction is rolled back, or the check-in is committed and its venue evaluated if the check-in
is public. -/
theorem conn_createCheckin_within (hfits : ∀ venueId s, fits (evaluated venueId s) = fits s)
    (conn : Conn Db Identity) (c : Ctx) (args : CheckinCreate) :
    let conn' := (((createCheckin c args).within fits).run conn).2
    let inserted := { conn.working with checkins := conn.working.checkins.insert (args.row c) }
    conn' = conn ∨ conn' = conn.discard ∨ conn' =
      { vars := conn.vars, committed := inserted
        working :=
          if args.visibility = Visibility.pub then evaluated args.venueId inserted
          else inserted } := by
  dsimp only
  cases hvenue : venues.lookup conn.vars conn.working args.venueId with
  | none =>
    rw [run_createCheckin_of_hidden hvenue]
    exact .inl rfl
  | some v =>
    rw [run_createCheckin_of_seen hvenue, (readOnly_ensureVisitedAtNotFuture _ _ _).run_bind]
    split
    · cases hw : fitting fits (checkins.insertWrite conn.vars conn.working (args.row c))
          conn.working with
      | ok wr =>
        obtain ⟨hins, hok⟩ := fitting_eq_ok.mp hw
        rw [run_insertCheckin hw ((hfits _ _).trans hok)]
        obtain ⟨-, -, -, -, rfl⟩ := checkins.insertWrite_eq_ok.mp hins
        exact .inr (.inr rfl)
      | error e =>
        rw [insertCheckin, Prog.bind_eq, Prog.within_bind, run_within_insert_bind, hw]
        exact .inr (.inl rfl)
    · exact .inl rfl

/-- The same of a new session, where nothing is uncommitted and any data fit. -/
theorem conn_createCheckin (db : Db) (me : Identity) (c : Ctx) (args : CheckinCreate) :
    let conn := ((createCheckin c args).run (Conn.start me db)).2
    let inserted := { db with checkins := db.checkins.insert (args.row c) }
    conn = Conn.start me db ∨ conn =
      { vars := me, committed := inserted
        working :=
          if args.visibility = Visibility.pub then evaluated args.venueId inserted
          else inserted } := by
  have hconn :=
    @conn_createCheckin_within (fun _ => true) (fun _ _ => rfl) (Conn.start me db) c args
  rw [Prog.within_true] at hconn
  rcases hconn with hconn | hconn | hconn
  · exact .inl hconn
  · exact .inl hconn
  · exact .inr hconn

/-- What `create_checkin` writes when its checks have passed. -/
theorem insertWrite_checkins_iff {c : Ctx} {args : CheckinCreate} {db : Db}
    (hstorable : db.storable = true) :
    (∃ wr, fitting Db.storable (checkins.insertWrite (some args.userId) db (args.row c)) db =
        .ok wr) ↔
      db.checkins.get (args.row c).id = none ∧ db.Takes (args.row c) := by
  constructor
  · rintro ⟨wr, hw⟩
    obtain ⟨hins, hfits⟩ := fitting_eq_ok.mp hw
    obtain ⟨-, -, hnew, hcons, rfl⟩ := checkins.insertWrite_eq_ok.mp hins
    exact ⟨hnew, hcons, (Db.storable_insert_iff hstorable hnew).mp hfits⟩
  · rintro ⟨hnew, hcons, htexts⟩
    have hins := checkins.insertWrite_eq_ok.mpr ⟨holds_rlsIsOwnerOrAdmin.mpr (.inl rfl),
      holds_checkinsPolicy_select.mpr (.inl (.inl rfl)), hnew, hcons, rfl⟩
    exact ⟨_, fitting_eq_ok.mpr ⟨hins, (Db.storable_insert_iff hstorable hnew).mpr htexts⟩⟩

/-! ## `update_checkin` -/

/-- The check of a date passes or raises, whatever is stored. -/
theorem ensureVisitedAtNotFuture_passes_or_raises (c : Ctx) (visitedAt : Option Date)
    (visitedTz : String) : (ensureVisitedAtNotFuture c visitedAt visitedTz = pure ()) ∨
      ∃ e, ensureVisitedAtNotFuture c visitedAt visitedTz = .raise e := by
  unfold ensureVisitedAtNotFuture
  cases c.localToday visitedTz with
  | none => exact .inr ⟨_, rfl⟩
  | some localToday =>
    cases visitedAt with
    | none => exact .inr ⟨_, rfl⟩
    | some d =>
      dsimp only
      split
      · exact .inr ⟨_, rfl⟩
      · exact .inl rfl

/-- So does the check of an update. -/
theorem CheckinUpdates.check_passes_or_raises (updates : CheckinUpdates) (c : Ctx) (x : Checkin) :
    (updates.Passes c x ∧ updates.check c x = pure ()) ∨
      ¬ updates.Passes c x ∧ ∃ e, updates.check c x = .raise e := by
  unfold CheckinUpdates.check CheckinUpdates.Passes
  cases updates.visitedAt with
  | none => exact .inl ⟨fun _ h => (by cases h), rfl⟩
  | some visitedAt =>
    rcases ensureVisitedAtNotFuture_passes_or_raises c visitedAt x.visitedTz with hok | ⟨e, he⟩
    · refine .inl ⟨fun _ h => ?_, hok⟩
      rw [← Option.some.inj h, hok]
    · refine .inr ⟨fun h => ?_, e, he⟩
      exact absurd ((h visitedAt rfl).symm.trans he) nofun

/-- Where an update of a check-in writes. -/
theorem set_checkins {db : Db} (checkinId : Uuid) (f : Checkin → Option Checkin)
    (hf : ∀ r r', f r = some r' → r'.id = r.id) :
    (checkins.set checkinId f hf db).checkins = db.checkins.modify
      (fun y => decide (y.id = checkinId)) (fun y => (f y).getD y) (TableDef.key_getD hf) := rfl

/-- The check-ins after one has been changed. -/
theorem mem_set_checkins {db : Db} {x x' : Checkin} {f : Checkin → Option Checkin}
    (hf : ∀ r r', f r = some r' → r'.id = r.id) (hx : x ∈ db.checkins) (hset : f x = some x')
    {z : Checkin} :
    z ∈ (checkins.set x.id f hf db).checkins ↔ z = x' ∨ z ∈ db.checkins ∧ z.id ≠ x.id := by
  rw [set_checkins, Table.mem_modify_key _ hx, hset, Option.getD_some]

/-- The data with one check-in changed can be stored if its texts can. -/
theorem storable_set_checkins_iff {db : Db} {x x' : Checkin} {f : Checkin → Option Checkin}
    (hf : ∀ r r', f r = some r' → r'.id = r.id) (hstorable : db.storable = true)
    (hx : x ∈ db.checkins) (hset : f x = some x') :
    (checkins.set x.id f hf db).storable = true ↔ AllStorable x'.texts := by
  obtain ⟨husers, hcheckins, hlists⟩ := Db.storable_iff.mp hstorable
  have hmodify := allStorable_modify_iff (TableDef.key_getD hf) hx hcheckins
  rw [hset, Option.getD_some] at hmodify
  rw [Db.storable_iff, ← hmodify]
  exact ⟨fun h => h.2.1, fun h => ⟨husers, h, hlists⟩⟩

/-- Whoever may change a check-in finds it. -/
theorem lookup_checkins_of_owner {db : Db} {u : User} {x : Checkin} (hu : db.Stored u)
    (hx : x ∈ db.checkins) (howner : isOwnerOrAdmin x.userId u = true) :
    checkins.lookup (some u.id) db x.id = some x :=
  checkins.lookup_eq_some.mpr
    ⟨hx, rfl, holds_checkinsPolicy_select.mpr (.inl (hu.isOwnerOrAdmin_iff.mp howner))⟩

/-- The policies let whoever may change a check-in find it and change it, as long as it keeps its
owner. -/
theorem mayChange_checkins_of_owner {u : User} {x : Checkin} {f : Checkin → Option Checkin}
    (hu : conn.working.Stored u) (hvars : conn.vars = some u.id) (hx : x ∈ conn.working.checkins)
    (howner : isOwnerOrAdmin x.userId u = true)
    (hkeeps : ∀ x', f x = some x' → x'.userId = x.userId) :
    checkins.lookup conn.vars conn.working x.id = some x ∧
      ((checkins.policy conn.vars conn.working).updateUsing x).Holds ∧
      ∀ x', f x = some x' → ((checkins.policy conn.vars conn.working).updateCheck x').Holds ∧
        ((checkins.policy conn.vars conn.working).select x').Holds := by
  have hmay : some u.id = some x.userId ∨ conn.working.IsAdmin (some u.id) :=
    hu.isOwnerOrAdmin_iff.mp howner
  rw [hvars]
  refine ⟨lookup_checkins_of_owner hu hx howner, holds_rlsIsOwnerOrAdmin.mpr hmay, fun x' h => ?_⟩
  have howned := hkeeps x' h
  exact ⟨holds_rlsIsOwnerOrAdmin.mpr (howned ▸ hmay),
    holds_checkinsPolicy_select.mpr (.inl (howned ▸ hmay))⟩

/-- A check-in that the caller does not find, or may not change, stays as it is. -/
theorem run_updateCheckin_of_not (conn : Conn Db Identity) {c : Ctx} {u : User} {checkinId : Uuid}
    {updates : CheckinUpdates}
    (h : ∀ x ∈ conn.working.checkins, x.id = checkinId → x.deletedAt = none →
      isOwnerOrAdmin x.userId u ≠ true) :
    (((updateCheckin c checkinId u updates).within fits).run conn).2 = conn := by
  simp only [updateCheckin, Prog.bind_eq, Prog.within_bind, within_get, run_get_bind]
  rcases hlookup : checkins.lookup conn.vars conn.working checkinId with - | x
  · rfl
  dsimp only
  obtain ⟨hx, hid, -⟩ := checkins.lookup_eq_some.mp hlookup
  split
  · rfl
  next hdel =>
  rw [Prog.within_bind, (readOnly_ensureVisibleAndOwned _ _ _ _ _ _ _).within,
    (readOnly_ensureVisibleAndOwned _ _ _ _ _ _ _).run_bind]
  split
  · next howned =>
    have hlive : x.deletedAt = none := by simpa using hdel
    exact absurd (isOwnerOrAdmin_of_ensureVisibleAndOwned howned) (h x hx hid hlive)
  · rfl

/-- The check-in of whoever may change it is found, and the guard lets them pass. -/
theorem CheckinUpdates.run_updateCheckin (conn : Conn Db Identity) {c : Ctx} {u : User}
    {updates : CheckinUpdates} {x : Checkin} (hu : conn.working.Stored u)
    (hvars : conn.vars = some u.id) (hx : x ∈ conn.working.checkins) (hlive : x.deletedAt = none)
    (howner : isOwnerOrAdmin x.userId u = true) :
    ((updateCheckin c x.id u updates).within fits).run conn =
      ((updates.check c x).bind fun _ => (updates.save x).within fits).run conn := by
  have hguard : ∀ e m e' m', ensureVisibleAndOwned x.userId x.visibility u e m e' m' = pure () := by
    intro e m e' m'
    simp only [ensureVisibleAndOwned, howner, if_true]
  have hlookup : checkins.lookup conn.vars conn.working x.id = some x :=
    hvars ▸ lookup_checkins_of_owner hu hx howner
  simp only [updateCheckin, Prog.bind_eq, Prog.within_bind, within_get, run_get_bind, hlookup,
    hlive, Option.isSome_none, Bool.false_eq_true, if_false, hguard, Prog.pure_eq, Prog.ret_bind]
  unfold check
  cases updates.visitedAt with
  | none => rfl
  | some visitedAt =>
    simp only [Prog.within_bind, (readOnly_ensureVisitedAtNotFuture _ _ _).within]
    rfl

/-- The end of an update that changes something: the row is stored, or the database refuses it. -/
theorem CheckinUpdates.run_save (conn : Conn Db Identity) {u : User} {updates : CheckinUpdates}
    {x : Checkin} (hu : conn.working.Stored u) (hvars : conn.vars = some u.id)
    (hx : x ∈ conn.working.checkins) (howner : isOwnerOrAdmin x.userId u = true)
    (hstorable : conn.working.storable = true)
    (hchanged : updates.changed x ≠ {}) :
    let saved := (updates.changed x).setIn x.id conn.working
    (∃ x', (updates.changed x).set x = some x' ∧ conn.working.Takes x' ∧
        ((updates.save x).within Db.storable).run conn =
          (.ok x', { vars := conn.vars, committed := saved, working := saved })) ∨
      ¬ updates.Stores conn.working x ∧ ∃ e,
        ((updates.save x).within Db.storable).run conn = (.error (.database e), conn.discard) := by
  have hkeeps : ∀ x', (updates.changed x).set x = some x' → x'.userId = x.userId :=
    fun _ h => (set_eq_some h).2.1
  obtain ⟨hlookup, husing, hpass⟩ := mayChange_checkins_of_owner hu hvars hx howner hkeeps
  have hfits : ∀ x', (updates.changed x).set x = some x' → _ := fun x' hset =>
    storable_set_checkins_iff (updates.changed x).set_id hstorable hx hset
  have hsave : updates.save x = (checkins.update x.id (updates.changed x).set
      (updates.changed x).set_id).bind fun _ => commit.bind fun _ => refresh checkins x.id :=
    if_pos hchanged
  have hfound : ∀ x', (updates.changed x).set x = some x' → checkins.lookup conn.vars
      ((updates.changed x).setIn x.id conn.working) x.id = some x' := by
    intro x' hset
    refine checkins.lookup_eq_some.mpr ⟨?_, (set_eq_some hset).1, (hpass x' hset).2⟩
    exact (mem_set_checkins (updates.changed x).set_id hx hset).mpr (.inl rfl)
  rw [hsave]
  rcases run_write Db.storable hlookup husing hpass hfound with
    ⟨x', hset, hcons, hok, hrun⟩ | ⟨hnot, e, hrun⟩
  · exact .inl ⟨x', hset, ⟨hcons, (hfits x' hset).mp hok⟩, hrun⟩
  · refine .inr ⟨?_, e, hrun⟩
    rintro ⟨x', hset, hcons, htexts⟩
    exact absurd ((hnot x' hset hcons).symm.trans ((hfits x' hset).mpr htexts)) nofun

/-- The end of an update that changes nothing. -/
theorem CheckinUpdates.run_save_of_same {updates : CheckinUpdates} {x : Checkin}
    (hsame : ¬ updates.changed x ≠ {}) :
    (((updates.save x).within fits).run conn).2 = conn.publish := by
  rw [save, if_neg hsame, Prog.within_bind, Prog.within_commit, run_commit_bind,
    (readOnly_refresh _ _).within, (readOnly_refresh _ _).run]

/-! ## Deletions -/

/-- The `UPDATE` of a soft deletion. -/
theorem run_softDeleteCheckin_of_owner (conn : Conn Db Identity) {c : Ctx} {u : User} {x : Checkin}
    (hu : conn.working.Stored u) (hvars : conn.vars = some u.id) (hx : x ∈ conn.working.checkins)
    (hlive : x.deletedAt = none) (howner : isOwnerOrAdmin x.userId u = true)
    (hstorable : conn.working.storable = true) :
    (conn.working.Takes x ∧ ∃ f hf,
        (∀ r r', f r = some r' → r' = { r with deletedAt := some c.now }) ∧
        (((softDeleteCheckin c x.id u).within Db.storable).run conn).2 =
          { vars := conn.vars, committed := checkins.set x.id f hf conn.working
            working := checkins.set x.id f hf conn.working }) ∨
      ¬ conn.working.Takes x ∧
        (((softDeleteCheckin c x.id u).within Db.storable).run conn).2 = conn.discard := by
  have hguard : ∀ e m e' m', ensureVisibleAndOwned x.userId x.visibility u e m e' m' = pure () := by
    intro e m e' m'
    simp only [ensureVisibleAndOwned, howner, if_true]
  let f : Checkin → Option Checkin := fun r => some { r with deletedAt := some c.now }
  have hf : ∀ r r', f r = some r' → r'.id = r.id := by
    rintro r _ ⟨⟩
    rfl
  have hdeleted : ∀ r r', f r = some r' → r' = { r with deletedAt := some c.now } :=
    fun _ _ h => (Option.some.inj h).symm
  have hkeeps : ∀ x', f x = some x' → x'.userId = x.userId := by
    rintro _ ⟨⟩
    rfl
  obtain ⟨hlookup, husing, hpass⟩ := mayChange_checkins_of_owner hu hvars hx howner hkeeps
  have hwrite : checkins.updateWrite conn.vars conn.working x.id f hf = _ :=
    checkins.updateWrite_of_match hlookup husing hpass
  have hfits := storable_set_checkins_iff hf hstorable hx rfl
  have hprog : ((softDeleteCheckin c x.id u).within Db.storable).run conn =
      (((checkins.update x.id f hf).within Db.storable).bind fun _ => commit).run conn := by
    simp only [softDeleteCheckin, Prog.bind_eq, Prog.within_bind, within_get, run_get_bind, hlookup,
      hlive, Option.isSome_none, Bool.false_eq_true, if_false, hguard, Prog.pure_eq,
      Prog.ret_bind]
    rfl
  have htexts : AllStorable x.texts := (Db.storable_iff.mp hstorable).2.1 x hx
  rw [hprog, run_within_update_bind, hwrite]
  by_cases hcons : checkinsConstraints conn.working x = true
  · refine .inl ⟨⟨hcons, htexts⟩, f, hf, hdeleted, ?_⟩
    have hcons' : checkins.constraints conn.working { x with deletedAt := some c.now } = true :=
      hcons
    simp only [f, hcons', if_true]
    rw [fitting_eq_ok.mpr ⟨rfl, hfits.mpr htexts⟩]
    rfl
  · refine .inr ⟨fun h => hcons h.1, ?_⟩
    have hcons' : ¬ checkins.constraints conn.working { x with deletedAt := some c.now } = true :=
      hcons
    simp only [f, hcons', Bool.false_eq_true, if_false]
    rfl

/-- A check-in that the caller does not find, or may not delete, stays. -/
theorem run_softDeleteCheckin_of_not (conn : Conn Db Identity) {c : Ctx} {u : User}
    {checkinId : Uuid} (h : ∀ x ∈ conn.working.checkins, x.id = checkinId → x.deletedAt = none →
      isOwnerOrAdmin x.userId u ≠ true) :
    (((softDeleteCheckin c checkinId u).within fits).run conn).2 = conn := by
  simp only [softDeleteCheckin, Prog.bind_eq, Prog.within_bind, within_get, run_get_bind]
  rcases hlookup : checkins.lookup conn.vars conn.working checkinId with - | x
  · rfl
  dsimp only
  obtain ⟨hx, hid, -⟩ := checkins.lookup_eq_some.mp hlookup
  split
  · rfl
  next hdel =>
  rw [Prog.within_bind, (readOnly_ensureVisibleAndOwned _ _ _ _ _ _ _).within,
    (readOnly_ensureVisibleAndOwned _ _ _ _ _ _ _).run_bind]
  split
  · next howned =>
    have hlive : x.deletedAt = none := by simpa using hdel
    exact absurd (isOwnerOrAdmin_of_ensureVisibleAndOwned howned) (h x hx hid hlive)
  · rfl

/-- Check-ins that are deleted for good leave data that can be stored. -/
theorem storable_eraseCheckins {db : Db} (h : db.storable = true) (p : Checkin → Bool) :
    (eraseCheckins p db).storable = true := by
  obtain ⟨husers, hcheckins, hlists⟩ := Db.storable_iff.mp h
  exact Db.storable_iff.mpr ⟨husers, fun x hx => hcheckins x (Table.mem_erase.mp hx).1, hlists⟩

/-- A hard deletion finds nothing, or it is committed. -/
theorem run_hardDeleteCheckin_cases (conn : Conn Db Identity) {checkinId : Uuid}
    (hstorable : conn.working.storable = true) :
    (((hardDeleteCheckin checkinId).within Db.storable).run conn).2 = conn ∨
      ∃ p, (((hardDeleteCheckin checkinId).within Db.storable).run conn).2 =
        { vars := conn.vars, committed := eraseCheckins p conn.working
          working := eraseCheckins p conn.working } := by
  simp only [hardDeleteCheckin, Prog.bind_eq, Prog.within_bind, within_get, run_get_bind]
  rcases checkins.lookup conn.vars conn.working checkinId with - | x
  · exact .inl rfl
  dsimp only
  have hdelete : checkins.deleteWrite conn.vars conn.working (fun r => decide (r.id = checkinId)) =
      .ok _ := checkins.deleteWrite_eq_ok.mpr ⟨fun _ _ => rfl, rfl⟩
  rw [Prog.within_bind, run_within_delete_bind, hdelete,
    fitting_eq_ok.mpr ⟨rfl, storable_eraseCheckins hstorable _⟩]
  exact .inr ⟨_, rfl⟩

end

end OburBackend
