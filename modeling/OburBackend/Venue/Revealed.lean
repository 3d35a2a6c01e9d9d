import OburBackend.Service.CheckinRuns
import OburBackend.Venue.Verification

/-!
# Check-ins that become public

`create_checkin` evaluates the verification of its venue, and so whoever adds the third public
check-in verifies it. `update_checkin` can make a check-in public too, and evaluates nothing. The
calls here run one at a time in one session, where each goes on with the transaction that the
earlier ones have left open: the verification that follows a new check-in is part of it until the
next commit, and an error of the database rolls it back. So the venues are as they should be after
every call exactly when no call makes a check-in public that its venue is waiting for
(`CheckinCall.Reveals`), and none is refused by the database while a verification is uncommitted
(`CheckinCall.Loses`).
-/

namespace OburBackend

open Sql

/-- Every venue that should be verified is. -/
def Db.VenuesVerified (db : Db) : Prop := ∀ venueId, VenueVerified db venueId

/-- The venue is known to Google and not verified, and with a public check-in of the user it has
them from enough users. -/
def Db.Awaits (db : Db) (venueId userId : Uuid) : Prop :=
  ∃ v ∈ db.venues, v.id = venueId ∧ v.googlePlacesId ≠ none ∧ v.isVerified = false ∧
    minCheckinsForAutoVerification ≤ (insert userId (publicCheckinUsers db venueId)).card

/-! ## What a change of the check-ins does to the count -/

section Counting

variable {db db' : Db} {venueId userId : Uuid}

/-- With fewer users, a venue that was verified if it should be still is. -/
theorem VenueVerified.of_subset (h : VenueVerified db venueId) (hvenues : ∀ v' ∈ db'.venues,
      ∃ v ∈ db.venues, v.id = v'.id ∧ v.googlePlacesId = v'.googlePlacesId ∧
        (v.isVerified = true → v'.isVerified = true))
    (husers : publicCheckinUsers db' venueId ⊆ publicCheckinUsers db venueId) :
    VenueVerified db' venueId := by
  intro v' hv' hid hgoogle hcount
  obtain ⟨v, hv, hvid, hvgoogle, hkept⟩ := hvenues v' hv'
  refine hkept (h v hv (hvid.trans hid) (by rwa [hvgoogle]) ?_)
  rw [← card_publicCheckinUsers] at hcount ⊢
  exact hcount.trans (Finset.card_le_card husers)

/-- The venues are as they were. -/
theorem venues_refl (hvenues : db'.venues = db.venues) : ∀ v' ∈ db'.venues,
    ∃ v ∈ db.venues, v.id = v'.id ∧ v.googlePlacesId = v'.googlePlacesId ∧
      (v.isVerified = true → v'.isVerified = true) := by
  rw [hvenues]
  exact fun v hv => ⟨v, hv, rfl, rfl, id⟩

/-- Users count when their check-ins do. -/
theorem publicCheckinUsers_subset
    (h : ∀ c' ∈ db'.checkins, c'.venueId = venueId → c'.visibility = Visibility.pub →
      c'.deletedAt = none → ∃ c ∈ db.checkins, c.venueId = c'.venueId ∧
        c.visibility = Visibility.pub ∧ c.deletedAt = none ∧ c.userId = c'.userId) :
    publicCheckinUsers db' venueId ⊆ publicCheckinUsers db venueId := by
  intro u hu
  obtain ⟨c', hc', hvenue', hpub', hdel', huser'⟩ := mem_publicCheckinUsers.mp hu
  obtain ⟨c, hc, hvenue, hpub, hdel, huser⟩ := h c' hc' hvenue' hpub' hdel'
  exact mem_publicCheckinUsers.mpr ⟨c, hc, hvenue.trans hvenue', hpub, hdel, huser.trans huser'⟩

/-- A venue that awaits a user is missed once the user has a public check-in there. -/
theorem Db.Awaits.not_venuesVerified (h : db.Awaits venueId userId)
    (hvenues : db'.venues = db.venues)
    (husers : insert userId (publicCheckinUsers db venueId) ⊆ publicCheckinUsers db' venueId) :
    ¬ db'.VenuesVerified := by
  intro hall
  obtain ⟨v, hv, hid, hgoogle, hnot, hcount⟩ := h
  have hverified : v.isVerified = true := by
    refine hall venueId v (hvenues ▸ hv) hid hgoogle ?_
    rw [← card_publicCheckinUsers]
    exact hcount.trans (Finset.card_le_card husers)
  rw [hnot] at hverified
  cases hverified

/-- One more user at one venue, which does not await the user. -/
theorem Db.VenuesVerified.of_insert (h : db.VenuesVerified) (hvenues : db'.venues = db.venues)
    (hnot : ¬ db.Awaits venueId userId)
    (hhere : publicCheckinUsers db' venueId ⊆ insert userId (publicCheckinUsers db venueId))
    (hothers : ∀ other, other ≠ venueId →
      publicCheckinUsers db' other ⊆ publicCheckinUsers db other) : db'.VenuesVerified := by
  intro other
  by_cases hother : other = venueId
  · subst hother
    intro v hv hid hgoogle hcount
    rw [hvenues] at hv
    cases hverified : v.isVerified with
    | true => rfl
    | false =>
      rw [← card_publicCheckinUsers] at hcount
      have hgrown := hcount.trans (Finset.card_le_card hhere)
      exact absurd ⟨v, hv, hid, hgoogle, hverified, hgrown⟩ hnot
  · exact (h other).of_subset (venues_refl hvenues) (hothers other hother)

/-- The venues after an evaluation: the eligible ones are verified. -/
theorem mem_evaluated_venues {v' : Venue} :
    v' ∈ (evaluated venueId db).venues ↔ ∃ v ∈ db.venues,
      (if eligible db venueId minCheckinsForAutoVerification v then { v with isVerified := true }
        else v) = v' := by
  have hids : ∀ v ∈ db.venues, v.id ∈ (db.venues.select
      (eligible db venueId minCheckinsForAutoVerification)).map Venue.id ↔
      eligible db venueId minCheckinsForAutoVerification v = true := by
    intro v hv
    rw [List.mem_map]
    constructor
    · rintro ⟨x, hx, hid⟩
      obtain ⟨hx, hel⟩ := Table.mem_select.mp hx
      rwa [← Table.eq_of_key_eq hx hv hid]
    · exact fun hel => ⟨v, Table.mem_select.mpr ⟨hv, hel⟩, rfl⟩
  simp only [evaluated, setVerified, Table.mem_modify, decide_eq_true_eq]
  refine exists_congr fun v => and_congr_right fun hv => ?_
  rw [if_congr (hids v hv) rfl rfl]

/-- Evaluating a venue verifies it, if it is the only one that should be verified and is not. -/
theorem venuesVerified_evaluated
    (h : ∀ other, other ≠ venueId → VenueVerified db other) :
    (evaluated venueId db).VenuesVerified := by
  intro other v' hv' hid hgoogle hcount
  obtain ⟨v, hv, rfl⟩ := mem_evaluated_venues.mp hv'
  have hcount : minCheckinsForAutoVerification ≤ countDistinctPublicCheckinUsers db other := hcount
  cases hel : eligible db venueId minCheckinsForAutoVerification v with
  | true => simp only [if_true]
  | false =>
    simp only [hel, Bool.false_eq_true, if_false] at hid hgoogle ⊢
    by_cases hother : other = venueId
    · subst hother
      cases hverified : v.isVerified with
      | true => rfl
      | false =>
        rw [← Option.isSome_iff_ne_none] at hgoogle
        simp [eligible, hid, hverified, hgoogle] at hel
        omega
    · exact h other hother v hv hid hgoogle hcount

end Counting

/-! ## The calls -/

/-- A call on check-ins. -/
inductive CheckinCall where
  | create (c : Ctx) (args : CheckinCreate)
  | update (c : Ctx) (currentUser : User) (checkinId : Uuid) (updates : CheckinUpdates)
  | softDelete (c : Ctx) (currentUser : User) (checkinId : Uuid)
  | hardDelete (currentUser : User) (checkinId : Uuid)

namespace CheckinCall

/-- The user whose identity the session has during the call. -/
def caller : CheckinCall → Uuid
  | .create _ args => args.userId
  | .update _ u .. | .softDelete _ u _ | .hardDelete u _ => u.id

def prog : CheckinCall → Service Unit
  | .create c args => do
    let _ ← createCheckin c args
    return ()
  | .update c u checkinId updates => do
    let _ ← updateCheckin c checkinId u updates
    return ()
  | .softDelete c u checkinId => softDeleteCheckin c checkinId u
  | .hardDelete _ checkinId => hardDeleteCheckin checkinId

/-- The row of the calling user that the request has loaded is stored. -/
def Authenticated (db : Db) : CheckinCall → Prop
  | .create .. => True
  | .update _ u .. | .softDelete _ u _ | .hardDelete u _ => db.Stored u

/-- The session as the call finds it: with the identity of the caller, and with the transaction that
the earlier calls have left open. -/
def enter (conn : Conn Db Identity) (call : CheckinCall) : Conn Db Identity :=
  { conn with vars := some call.caller }

/-- The session after the call. -/
def step (conn : Conn Db Identity) (call : CheckinCall) : Conn Db Identity :=
  ((call.prog.within Db.storable).run (call.enter conn)).2

end CheckinCall

/-- The calls, one after the other in a new session. -/
def runCheckins (db : Db) (calls : List CheckinCall) : Conn Db Identity :=
  calls.foldl CheckinCall.step (Conn.start none db)

namespace CheckinCall

/-- The call makes a check-in public that its venue is waiting for. -/
def Reveals (db : Db) : CheckinCall → Prop
  | .update c u checkinId updates => ∃ x ∈ db.checkins, x.id = checkinId ∧ x.deletedAt = none ∧
    isOwnerOrAdmin x.userId u = true ∧ updates.Passes c x ∧ updates.Stores db x ∧
    x.visibility ≠ Visibility.pub ∧ updates.visibility = some (some Visibility.pub) ∧
    db.Awaits x.venueId x.userId
  | .create .. | .softDelete .. | .hardDelete .. => False

/-- The call passes its checks, and the row that it writes then is none that the database takes. -/
def Refused (db : Db) : CheckinCall → Prop
  | .create c args =>
    (∃ v ∈ db.venues, v.id = args.venueId ∧
      (db.IsAdmin (some args.userId) ∨ v.isSuspended = false)) ∧
    ensureVisitedAtNotFuture c (some args.visitedAt) args.visitedTz = pure () ∧
    ¬ (db.checkins.get (args.row c).id = none ∧ db.Takes (args.row c))
  | .update c u checkinId updates => ∃ x ∈ db.checkins, x.id = checkinId ∧ x.deletedAt = none ∧
    isOwnerOrAdmin x.userId u = true ∧ updates.Passes c x ∧ updates.changed x ≠ {} ∧
    ¬ updates.Stores db x
  | .softDelete _ u checkinId => ∃ x ∈ db.checkins, x.id = checkinId ∧ x.deletedAt = none ∧
    isOwnerOrAdmin x.userId u = true ∧ ¬ db.Takes x
  | .hardDelete .. => False

/-- The database refuses the call while the session has something uncommitted. -/
def Loses (conn : Conn Db Identity) (call : CheckinCall) : Prop :=
  conn.working ≠ conn.committed ∧ call.Refused conn.working

end CheckinCall

/-! ## What each call does -/

section Calls

variable {conn : Conn Db Identity}

/-- The session once a check-in is committed and its venue evaluated. -/
def CheckinCreate.leaves (c : Ctx) (args : CheckinCreate) (db : Db) : Conn Db Identity :=
  let inserted := { db with checkins := db.checkins.insert (args.row c) }
  { vars := some args.userId, committed := inserted
    working :=
      if args.visibility = Visibility.pub then evaluated args.venueId inserted else inserted }

/-- What a call can do to the session that it enters. -/
inductive CheckinCall.Does (conn : Conn Db Identity) : CheckinCall → Conn Db Identity → Prop where
  /-- An error of the application, or a row that is not found. -/
  | nothing {call : CheckinCall} : Does conn call (call.enter conn)
  /-- An error of the database: the transaction is rolled back. -/
  | refused {call : CheckinCall} (h : call.Refused conn.working) :
      Does conn call (call.enter conn).discard
  /-- An update that changes nothing commits what the transaction has. -/
  | publishes {call : CheckinCall} : Does conn call (call.enter conn).publish
  | creates (c : Ctx) (args : CheckinCreate) :
      Does conn (.create c args) (args.leaves c conn.working)
  | updates (c : Ctx) (u : User) (changes : CheckinUpdates) {x x' : Checkin}
      (hx : x ∈ conn.working.checkins) (hlive : x.deletedAt = none)
      (howner : isOwnerOrAdmin x.userId u = true) (hpasses : changes.Passes c x)
      (hset : (changes.changed x).set x = some x') (htakes : conn.working.Takes x') :
      Does conn (.update c u x.id changes)
        (.start (some u.id) ((changes.changed x).setIn x.id conn.working))
  | softDeletes (c : Ctx) (u : User) (checkinId : Uuid) {f : Checkin → Option Checkin}
      (hf : ∀ r r', f r = some r' → r'.id = r.id)
      (hdeleted : ∀ r r', f r = some r' → r' = { r with deletedAt := some c.now }) :
      Does conn (.softDelete c u checkinId)
        (.start (some u.id) (checkins.set checkinId f hf conn.working))
  | hardDeletes (u : User) (checkinId : Uuid) (p : Checkin → Bool) :
      Does conn (.hardDelete u checkinId) (.start (some u.id) (eraseCheckins p conn.working))

/-- What a creation returns is not used. -/
theorem CheckinCall.step_create {c : Ctx} {args : CheckinCreate} :
    step conn (.create c args) =
      (((createCheckin c args).within Db.storable).run (enter conn (.create c args))).2 := by
  simp only [step, prog, Prog.bind_eq, Prog.pure_eq, Prog.within_bind, Prog.within,
    Prog.run_bind_ret]

/-- Nor is what an update returns. -/
theorem CheckinCall.step_update {c : Ctx} {u : User} {checkinId : Uuid} {updates : CheckinUpdates} :
    step conn (.update c u checkinId updates) =
      (((updateCheckin c checkinId u updates).within Db.storable).run
        (enter conn (.update c u checkinId updates))).2 := by
  simp only [step, prog, Prog.bind_eq, Prog.pure_eq, Prog.within_bind, Prog.within,
    Prog.run_bind_ret]

/-- A call whose row the database does not take is rolled back, with what was uncommitted before
it. -/
theorem CheckinCall.step_of_refused {call : CheckinCall} (hauth : call.Authenticated conn.working)
    (hstorable : conn.working.storable = true) (h : call.Refused conn.working) :
    call.step conn = (call.enter conn).discard := by
  cases call with
  | create c args =>
    obtain ⟨⟨v, hv, hid, hsee⟩, hpasses, hnot⟩ := h
    have hlookup : venues.lookup (some args.userId) conn.working args.venueId = some v :=
      venues.lookup_eq_some.mpr ⟨hv, hid, holds_venuesPolicy_select.mpr hsee⟩
    have hrun :=
      @run_createCheckin_of_seen Db.storable (enter conn (.create c args)) c args v hlookup
    rw [step_create, hrun, hpasses, Prog.pure_eq, Prog.ret_bind, insertCheckin, Prog.bind_eq,
      Prog.within_bind, run_within_insert_bind]
    rcases hw : fitting Db.storable (checkins.insertWrite (some args.userId) conn.working
        (args.row c)) conn.working with e | wr
    · simp only [enter, caller, hw]
    · exact absurd ((insertWrite_checkins_iff hstorable).mp ⟨wr, hw⟩) hnot
  | update c u checkinId updates =>
    obtain ⟨x, hx, rfl, hlive, howner, hpasses, hchanged, hnot⟩ := h
    rw [step_update, CheckinUpdates.run_updateCheckin (enter conn (.update c u x.id updates)) hauth
      rfl hx hlive howner]
    rcases updates.check_passes_or_raises c x with ⟨-, hcheck⟩ | ⟨hnever, -⟩
    · rw [hcheck, Prog.pure_eq, Prog.ret_bind]
      rcases CheckinUpdates.run_save (enter conn (.update c u x.id updates)) hauth rfl hx howner
        hstorable hchanged with
        ⟨x', hset, htakes, -⟩ | ⟨-, e, hrun⟩
      · exact absurd ⟨x', hset, htakes⟩ hnot
      · rw [hrun]
    · exact absurd hpasses hnever
  | softDelete c u checkinId =>
    obtain ⟨x, hx, rfl, hlive, howner, hnot⟩ := h
    rcases run_softDeleteCheckin_of_owner (enter conn (.softDelete c u x.id)) hauth rfl hx hlive
      howner hstorable with
      ⟨htakes, -⟩ | ⟨-, hrun⟩
    · exact absurd htakes hnot
    · exact hrun
  | hardDelete u checkinId => exact h.elim

/-- The inversion of a call: it does one of the things above. -/
theorem CheckinCall.does_step {call : CheckinCall} (hauth : call.Authenticated conn.working)
    (hstorable : conn.working.storable = true) : call.Does conn (call.step conn) := by
  by_cases hrefused : call.Refused conn.working
  · rw [step_of_refused hauth hstorable hrefused]
    exact .refused hrefused
  cases call with
  | create c args =>
    rw [step_create]
    rcases hvenue : venues.lookup (some args.userId) conn.working args.venueId with - | v
    · have hrun :=
        @run_createCheckin_of_hidden Db.storable (enter conn (.create c args)) c args hvenue
      rw [hrun]
      exact .nothing
    have hrun :=
      @run_createCheckin_of_seen Db.storable (enter conn (.create c args)) c args v hvenue
    rw [hrun]
    rcases ensureVisitedAtNotFuture_passes_or_raises c (some args.visitedAt) args.visitedTz with
      hpasses | ⟨e, he⟩
    · obtain ⟨hv, hid, hsee⟩ := venues.lookup_eq_some.mp hvenue
      have htakes : conn.working.checkins.get (args.row c).id = none ∧
          conn.working.Takes (args.row c) := by
        by_contra hnot
        exact hrefused ⟨⟨v, hv, hid, holds_venuesPolicy_select.mp hsee⟩, hpasses, hnot⟩
      obtain ⟨wr, hw⟩ := (insertWrite_checkins_iff hstorable).mpr htakes
      obtain ⟨hins, hfits⟩ := fitting_eq_ok.mp hw
      have hinsert :=
        @run_insertCheckin Db.storable (enter conn (.create c args)) c args wr hw hfits
      rw [hpasses, Prog.pure_eq, Prog.ret_bind, hinsert]
      obtain ⟨-, -, -, -, rfl⟩ := checkins.insertWrite_eq_ok.mp hins
      exact .creates c args
    · rw [he]
      exact .nothing
  | update c u checkinId updates =>
    rw [step_update]
    by_cases hmay : ∃ x ∈ conn.working.checkins, x.id = checkinId ∧ x.deletedAt = none ∧
        isOwnerOrAdmin x.userId u = true
    · obtain ⟨x, hx, rfl, hlive, howner⟩ := hmay
      rw [CheckinUpdates.run_updateCheckin (enter conn (.update c u x.id updates)) hauth rfl hx
        hlive howner]
      rcases updates.check_passes_or_raises c x with ⟨hpasses, hcheck⟩ | ⟨-, e, he⟩
      · rw [hcheck, Prog.pure_eq, Prog.ret_bind]
        by_cases hchanged : updates.changed x ≠ {}
        · rcases CheckinUpdates.run_save (enter conn (.update c u x.id updates)) hauth rfl hx howner
            hstorable hchanged with
            ⟨x', hset, htakes, hrun⟩ | ⟨hnot, -⟩
          · rw [hrun]
            exact .updates c u updates hx hlive howner hpasses hset htakes
          · exact absurd ⟨x, hx, rfl, hlive, howner, hpasses, hchanged, hnot⟩ hrefused
        · rw [CheckinUpdates.run_save_of_same hchanged]
          exact .publishes
      · rw [he]
        exact .nothing
    · rw [run_updateCheckin_of_not (enter conn (.update c u checkinId updates))
        fun x hx hid hlive howner => hmay ⟨x, hx, hid, hlive, howner⟩]
      exact .nothing
  | softDelete c u checkinId =>
    by_cases hmay : ∃ x ∈ conn.working.checkins, x.id = checkinId ∧ x.deletedAt = none ∧
        isOwnerOrAdmin x.userId u = true
    · obtain ⟨x, hx, rfl, hlive, howner⟩ := hmay
      rcases run_softDeleteCheckin_of_owner (enter conn (.softDelete c u x.id)) hauth rfl hx hlive
        howner hstorable with
        ⟨-, f, hf, hdeleted, hrun⟩ | ⟨hnot, -⟩
      · rw [step, prog, hrun]
        exact .softDeletes c u x.id hf hdeleted
      · exact absurd ⟨x, hx, rfl, hlive, howner, hnot⟩ hrefused
    · rw [step, prog, run_softDeleteCheckin_of_not (enter conn (.softDelete c u checkinId))
        fun x hx hid hlive howner => hmay ⟨x, hx, hid, hlive, howner⟩]
      exact .nothing
  | hardDelete u checkinId =>
    rcases @run_hardDeleteCheckin_cases (enter conn (.hardDelete u checkinId)) checkinId
      hstorable with hrun | ⟨p, hrun⟩
    · rw [step, prog, hrun]
      exact .nothing
    · rw [step, prog, hrun]
      exact .hardDeletes u checkinId p

/-- The visibility after the fields have been set is the given one, if one is given. -/
theorem notNull_visibility_of_set {updates : CheckinUpdates} {x x' : Checkin}
    (h : (updates.changed x).set x = some x') :
    updates.visibility.notNull x.visibility = some x'.visibility := by
  have hset : (updates.changed x).visibility.notNull x.visibility = some x'.visibility := by
    simp only [CheckinUpdates.set, Option.bind_eq_bind, Option.bind_eq_some_iff, Option.pure_def,
      Option.some.injEq] at h
    obtain ⟨_, _, _, _, _, _, _, _, visibility, hvis, _, _, rfl⟩ := h
    exact hvis
  rw [← hset]
  exact (Field.notNull_changed updates.visibility x.visibility).symm

/-- An update that goes through keeps the venues verified, unless it reveals a check-in. -/
theorem Db.VenuesVerified.setIn {db : Db} {updates : CheckinUpdates} {x x' : Checkin}
    (h : db.VenuesVerified) (hx : x ∈ db.checkins) (hlive : x.deletedAt = none)
    (hset : (updates.changed x).set x = some x')
    (hnot : ¬ (x.visibility ≠ Visibility.pub ∧
      updates.visibility = some (some Visibility.pub) ∧ db.Awaits x.venueId x.userId)) :
    ((updates.changed x).setIn x.id db).VenuesVerified := by
  obtain ⟨-, huser', hvenue', hdel'⟩ := CheckinUpdates.set_eq_some hset
  have hmem : ∀ z, _ := fun z =>
    @mem_set_checkins db x x' _ (updates.changed x).set_id hx hset z
  by_cases hpub : x.visibility = Visibility.pub ∨ x'.visibility ≠ Visibility.pub
  · -- whoever counts has counted before
    refine fun venueId => (h venueId).of_subset (venues_refl rfl) (publicCheckinUsers_subset ?_)
    intro z hz _ hzpub hzdel
    rcases (hmem z).mp hz with rfl | ⟨hz, -⟩
    · have hxpub : x.visibility = Visibility.pub := hpub.resolve_right fun hne => hne hzpub
      exact ⟨x, hx, hvenue'.symm, hxpub, hlive, huser'.symm⟩
    · exact ⟨z, hz, rfl, hzpub, hzdel, rfl⟩
  · obtain ⟨hxpriv, hpub'⟩ := not_or.mp hpub
    rw [not_not] at hpub'
    have hgiven : updates.visibility = some (some Visibility.pub) := by
      have hvis := notNull_visibility_of_set hset
      rw [hpub'] at hvis
      rcases Field.notNull_eq_some.mp hvis with ⟨-, hold⟩ | hgiven
      · exact absurd hold hxpriv
      · exact hgiven
    have hwaits : ¬ db.Awaits x.venueId x.userId := fun hwaits => hnot ⟨hxpriv, hgiven, hwaits⟩
    refine h.of_insert rfl hwaits (fun v hv => ?_) fun other hother v hv => ?_
    all_goals obtain ⟨z, hz, hzvenue, hzpub, hzdel, hzuser⟩ := mem_publicCheckinUsers.mp hv
    · rcases (hmem z).mp hz with rfl | ⟨hz, -⟩
      · rw [← hzuser, huser']
        exact Finset.mem_insert_self _ _
      · refine Finset.mem_insert_of_mem (mem_publicCheckinUsers.mpr ?_)
        exact ⟨z, hz, hzvenue, hzpub, hzdel, hzuser⟩
    · rcases (hmem z).mp hz with rfl | ⟨hz, -⟩
      · exact absurd (hzvenue.symm.trans hvenue') hother
      · exact mem_publicCheckinUsers.mpr ⟨z, hz, hzvenue, hzpub, hzdel, hzuser⟩

/-- Deleting a check-in softly keeps the venues verified. -/
theorem Db.VenuesVerified.softDelete {c : Ctx} {checkinId : Uuid} {f : Checkin → Option Checkin}
    (hf : ∀ r r', f r = some r' → r'.id = r.id)
    (hdeleted : ∀ r r', f r = some r' → r' = { r with deletedAt := some c.now })
    (h : db.VenuesVerified) : (OburBackend.checkins.set checkinId f hf db).VenuesVerified := by
  refine fun venueId => (h venueId).of_subset (venues_refl rfl) (publicCheckinUsers_subset ?_)
  intro z hz hvenue hpub hdel
  rw [set_checkins] at hz
  obtain ⟨y, hy, rfl⟩ := Table.mem_modify.mp hz
  cases hfy : f y with
  | none =>
    simp only [hfy, Option.getD_none, ite_self] at hpub hdel ⊢
    exact ⟨y, hy, rfl, hpub, hdel, rfl⟩
  | some y' =>
    obtain rfl := hdeleted y y' hfy
    split at hdel
    · simp [hfy] at hdel
    · next hid => exact ⟨y, hy, by simp [hid], by simpa [hid] using hpub, hdel, by simp [hid]⟩

/-- So does deleting check-ins for good. -/
theorem Db.VenuesVerified.eraseCheckins (h : db.VenuesVerified) (p : Checkin → Bool) :
    (eraseCheckins p db).VenuesVerified := by
  refine fun venueId => (h venueId).of_subset (venues_refl rfl) (publicCheckinUsers_subset ?_)
  intro z hz _ hpub hdel
  exact ⟨z, (Table.mem_erase.mp hz).1, rfl, hpub, hdel, rfl⟩

/-- So does a new check-in, whose venue is evaluated. -/
theorem Db.VenuesVerified.create {db : Db} (h : db.VenuesVerified) (c : Ctx)
    (args : CheckinCreate) : (args.leaves c db).working.VenuesVerified := by
  have hmem : ∀ z ∈ db.checkins.insert (args.row c), z ∈ db.checkins ∨ z = args.row c :=
    fun _ hz => Table.mem_or_eq_of_mem_insert hz
  dsimp only [CheckinCreate.leaves]
  split
  · refine venuesVerified_evaluated fun other hother => (h other).of_subset
      (venues_refl rfl) (publicCheckinUsers_subset fun z hz hvenue hpub hdel => ?_)
    rcases hmem z hz with hz | rfl
    · exact ⟨z, hz, rfl, hpub, hdel, rfl⟩
    · exact absurd hvenue.symm hother
  · next hpriv =>
    refine fun other => (h other).of_subset
      (venues_refl rfl) (publicCheckinUsers_subset fun z hz hvenue hpub hdel => ?_)
    rcases hmem z hz with hz | rfl
    · exact ⟨z, hz, rfl, hpub, hdel, rfl⟩
    · exact absurd hpub hpriv

/-- A call keeps the venues verified, unless it reveals a check-in, or the database refuses it while
a verification is uncommitted. -/
theorem CheckinCall.venuesVerified_step {call : CheckinCall}
    (hauth : call.Authenticated conn.working) (hstorable : conn.working.storable = true)
    (h : conn.working.VenuesVerified)
    (hreveals : ¬ call.Reveals conn.working) (hloses : ¬ call.Loses conn) :
    (call.step conn).working.VenuesVerified := by
  have hdoes := does_step hauth hstorable
  generalize call.step conn = conn' at hdoes
  cases hdoes with
  | nothing | publishes => exact h
  | refused hrefused =>
    have hsaved : conn.working = conn.committed := by
      by_contra hunsaved
      exact hloses ⟨hunsaved, hrefused⟩
    rw [hsaved] at h
    exact h
  | creates c args => exact h.create c args
  | updates c u changes hx hlive howner hpasses hset htakes =>
    refine h.setIn hx hlive hset fun ⟨hpriv, hgiven, hwaits⟩ => ?_
    exact hreveals ⟨_, hx, rfl, hlive, howner, hpasses, ⟨_, hset, htakes⟩, hpriv, hgiven, hwaits⟩
  | softDeletes c u checkinId hf hdeleted => exact h.softDelete hf hdeleted
  | hardDeletes u checkinId p => exact h.eraseCheckins p

/-- A call that reveals a check-in leaves its venue unverified. -/
theorem CheckinCall.Reveals.not_venuesVerified {call : CheckinCall} (h : call.Reveals conn.working)
    (hauth : call.Authenticated conn.working) (hstorable : conn.working.storable = true) :
    ¬ (call.step conn).working.VenuesVerified := by
  cases call with
  | create | softDelete | hardDelete => exact h.elim
  | update c u checkinId updates =>
    obtain ⟨x, hx, rfl, hlive, howner, hpasses, hstores, hpriv, hgiven, hwaits⟩ := h
    obtain ⟨x', hset, htakes⟩ := hstores
    obtain ⟨-, huser', hvenue', hdel'⟩ := CheckinUpdates.set_eq_some hset
    have hvis := notNull_visibility_of_set hset
    rw [hgiven] at hvis
    have hpub' : x'.visibility = Visibility.pub := (Option.some.inj hvis).symm
    have hchanged : updates.changed x ≠ {} := by
      intro hnone
      have hfield := congrArg CheckinUpdates.visibility hnone
      simp [CheckinUpdates.changed, Field.changed, Option.filter, hgiven, Ne.symm hpriv] at hfield
    have hstep : (step conn (.update c u x.id updates)).working =
        (updates.changed x).setIn x.id conn.working := by
      rw [step_update, CheckinUpdates.run_updateCheckin (enter conn (.update c u x.id updates))
        hauth rfl hx hlive howner]
      rcases updates.check_passes_or_raises c x with ⟨-, hcheck⟩ | ⟨hnever, -⟩
      · rw [hcheck, Prog.pure_eq, Prog.ret_bind]
        rcases CheckinUpdates.run_save (enter conn (.update c u x.id updates)) hauth rfl hx howner
          hstorable hchanged with ⟨_, -, -, hrun⟩ | ⟨hnot, -⟩
        · rw [hrun]
          rfl
        · exact absurd ⟨x', hset, htakes⟩ hnot
      · exact absurd hpasses hnever
    rw [hstep]
    refine hwaits.not_venuesVerified rfl fun v hv => ?_
    have hmem : ∀ z, _ := fun z =>
      @mem_set_checkins conn.working x x' _ (updates.changed x).set_id hx hset z
    rcases Finset.mem_insert.mp hv with rfl | hv
    · refine mem_publicCheckinUsers.mpr ⟨x', (hmem x').mpr (.inl rfl), ?_⟩
      exact ⟨hvenue', hpub', hdel'.trans hlive, huser'⟩
    · obtain ⟨z, hz, hzvenue, hzpub, hzdel, hzuser⟩ := mem_publicCheckinUsers.mp hv
      have hne : z.id ≠ x.id := by
        intro hid
        obtain rfl := Table.eq_of_key_eq hz hx hid
        exact hpriv hzpub
      refine mem_publicCheckinUsers.mpr ⟨z, (hmem z).mpr (.inr ⟨hz, hne⟩), ?_⟩
      exact ⟨hzvenue, hzpub, hzdel, hzuser⟩

/-! ## What is uncommitted between two calls -/

/-- The evaluation of a venue that is as it should be changes nothing. -/
theorem evaluated_of_verified {db : Db} {venueId : Uuid} (h : VenueVerified db venueId) :
    evaluated venueId db = db := by
  have hnone : db.venues.select (eligible db venueId minCheckinsForAutoVerification) = [] := by
    refine Table.select_eq_nil fun v hv => ?_
    by_contra hel
    simp only [eligible, Bool.not_eq_false, Bool.and_eq_true, decide_eq_true_eq] at hel
    obtain ⟨hid, hunverified, hgoogle, hcount⟩ := hel
    have hverified := h v hv hid (Option.isSome_iff_ne_none.mp hgoogle) hcount
    rw [hverified] at hunverified
    cases hunverified
  rw [evaluated, hnone, List.map_nil, setVerified_nil]

/-- The session between two calls: what it has committed can be stored and has the users that it
started with, and nothing is uncommitted but the evaluation of a venue. -/
structure CheckinSession (db : Db) (conn : Conn Db Identity) : Prop where
  users : conn.committed.users = db.users
  storable : conn.committed.storable = true
  uncommitted : conn.working = conn.committed ∨
    ∃ venueId, conn.working = evaluated venueId conn.committed

namespace CheckinSession

variable {db : Db}

/-- A session starts with nothing uncommitted. -/
theorem start (hstorable : db.storable = true) : CheckinSession db (Conn.start none db) :=
  ⟨rfl, hstorable, .inl rfl⟩

/-- What the session sees has the users, too. -/
theorem working_users (h : CheckinSession db conn) : conn.working.users = db.users := by
  rcases h.uncommitted with hsame | ⟨venueId, hevaluated⟩
  · rw [hsame, h.users]
  · rw [hevaluated]
    exact h.users

/-- And it can be stored. -/
theorem working_storable (h : CheckinSession db conn) : conn.working.storable = true := by
  rcases h.uncommitted with hsame | ⟨venueId, hevaluated⟩
  · rw [hsame, h.storable]
  · rw [hevaluated]
    exact h.storable

/-- The loaded rows of the callers stay stored. -/
theorem authenticated (h : CheckinSession db conn) {call : CheckinCall}
    (hauth : call.Authenticated db) : call.Authenticated conn.working := by
  cases call with
  | create c args => trivial
  | update c u checkinId updates | softDelete c u checkinId | hardDelete u checkinId =>
    unfold CheckinCall.Authenticated Db.Stored
    rw [h.working_users]
    exact hauth

/-- A call leaves such a session. -/
theorem step (h : CheckinSession db conn) {call : CheckinCall} (hauth : call.Authenticated db) :
    CheckinSession db (call.step conn) := by
  have hstorable : (call.step conn).committed.storable = true :=
    (Prog.run_within_fits call.prog (c := call.enter conn) h.storable h.working_storable).1
  have hdoes := CheckinCall.does_step (h.authenticated hauth) h.working_storable
  generalize call.step conn = conn' at hstorable hdoes
  cases hdoes with
  | nothing => exact ⟨h.users, hstorable, h.uncommitted⟩
  | refused => exact ⟨h.users, hstorable, .inl rfl⟩
  | publishes => exact ⟨h.working_users, hstorable, .inl rfl⟩
  | creates c args =>
    refine ⟨h.working_users, hstorable, ?_⟩
    dsimp only [CheckinCreate.leaves]
    split
    · exact .inr ⟨args.venueId, rfl⟩
    · exact .inl rfl
  | updates | softDeletes | hardDeletes => exact ⟨h.working_users, hstorable, .inl rfl⟩

/-- What is uncommitted is a verification without which a venue is not as it should be, and an error
of the database rolls it back. -/
theorem not_venuesVerified_of_loses (h : CheckinSession db conn) {call : CheckinCall}
    (hauth : call.Authenticated db) (hloses : call.Loses conn) :
    ¬ (call.step conn).working.VenuesVerified := by
  obtain ⟨hunsaved, hrefused⟩ := hloses
  rw [CheckinCall.step_of_refused (h.authenticated hauth) h.working_storable hrefused]
  obtain ⟨venueId, hevaluated⟩ := h.uncommitted.resolve_left hunsaved
  intro hverified
  exact hunsaved (hevaluated.trans (evaluated_of_verified (hverified venueId)))

/-- The session after a run. -/
theorem run {calls : List CheckinCall} (hstorable : db.storable = true)
    (hauth : ∀ call ∈ calls, call.Authenticated db) : CheckinSession db (runCheckins db calls) := by
  induction calls using List.reverseRecOn with
  | nil => exact start hstorable
  | append_singleton done call ih =>
    rw [runCheckins, List.foldl_append]
    have hdone := ih fun call' hcall' => hauth call' (List.mem_append_left _ hcall')
    exact hdone.step (hauth call (by simp))

end CheckinSession

/-- The run of calls that are appended goes on in the session that the others leave. -/
theorem runCheckins_concat (db : Db) (done : List CheckinCall) (call : CheckinCall) :
    runCheckins db (done ++ [call]) = call.step (runCheckins db done) := by
  simp [runCheckins]

end Calls

/-- The calls keep their venues verified exactly as long as no call makes a check-in public that its
venue is waiting for, and none is refused by the database while a verification is uncommitted. -/
theorem venuesVerified_iff_not_reveals (db : Db) (calls : List CheckinCall)
    (hstorable : db.storable = true) (hauth : ∀ call ∈ calls, call.Authenticated db) :
    (∀ done rest, calls = done ++ rest → (runCheckins db done).working.VenuesVerified) ↔
      db.VenuesVerified ∧ ∀ done call rest, calls = done ++ call :: rest →
        ¬ call.Reveals (runCheckins db done).working ∧ ¬ call.Loses (runCheckins db done) := by
  have hsession : ∀ done rest, calls = done ++ rest → CheckinSession db (runCheckins db done) :=
    fun done rest hcalls => .run hstorable fun call hcall =>
      hauth call (hcalls ▸ List.mem_append_left rest hcall)
  constructor
  · intro hall
    refine ⟨hall [] calls rfl, fun done call rest hcalls => ?_⟩
    have hdone := hsession done (call :: rest) hcalls
    have hcall : call.Authenticated db := hauth call (by simp [hcalls])
    have hnext := hall (done ++ [call]) rest (by simp [hcalls])
    rw [runCheckins_concat] at hnext
    refine ⟨fun hreveals => ?_, fun hloses => ?_⟩
    · exact hreveals.not_venuesVerified (hdone.authenticated hcall) hdone.working_storable hnext
    · exact hdone.not_venuesVerified_of_loses hcall hloses hnext
  · rintro ⟨hstart, hnot⟩ done
    induction done using List.reverseRecOn with
    | nil => exact fun _ _ => hstart
    | append_singleton done call ih =>
      intro rest hcalls
      have hcalls' : calls = done ++ call :: rest := by simpa using hcalls
      have hdone := hsession done (call :: rest) hcalls'
      have hcall : call.Authenticated db := hauth call (by simp [hcalls'])
      obtain ⟨hreveals, hloses⟩ := hnot done call rest hcalls'
      rw [runCheckins_concat]
      exact CheckinCall.venuesVerified_step (hdone.authenticated hcall) hdone.working_storable
        (ih _ hcalls') hreveals hloses

/-! ## Three visitors, one of them shy -/

/-- The visitor who keeps the check-in private at first. -/
def shy : Fin 3 := Fin.last 2

def revealing : List CheckinCall :=
  (List.finRange 3).map (fun i => .create (visitCtx i)
    { visitArgs i with visibility := if i = shy then Visibility.priv else Visibility.pub }) ++
  [.update (visitCtx shy) (visitor shy) 12 { visibility := some (some Visibility.pub) }]

/-- The callers of the example are stored and active. -/
theorem authenticated_revealing : ∀ call ∈ revealing, call.Authenticated visitDb := by
  intro call hcall
  rcases List.mem_append.mp hcall with hcall | hcall
  · obtain ⟨i, -, rfl⟩ := List.mem_map.mp hcall
    trivial
  · rw [List.mem_singleton.mp hcall]
    exact ⟨visitor shy, by decide, rfl, rfl⟩

/-- The visits of the example, the last of which makes an old check-in public. -/
theorem venuesVerified_iff_not_reveals_revealing :
    (∀ done rest, revealing = done ++ rest →
        (runCheckins visitDb done).working.VenuesVerified) ↔
      visitDb.VenuesVerified ∧ ∀ done call rest, revealing = done ++ call :: rest →
        ¬ call.Reveals (runCheckins visitDb done).working ∧
          ¬ call.Loses (runCheckins visitDb done) :=
  venuesVerified_iff_not_reveals visitDb revealing (by decide) authenticated_revealing

/-- So an update may leave a venue unverified. -/
theorem update_can_leave_unverified :
    ¬ ∀ (db : Db) (calls : List CheckinCall), db.VenuesVerified → db.storable = true →
      (∀ call ∈ calls, call.Authenticated db) →
      ∀ done rest, calls = done ++ rest → (runCheckins db done).working.VenuesVerified := by
  intro h
  have hstart : visitDb.VenuesVerified := by
    intro venueId v _ _ _ hcount
    have hnobody : countDistinctPublicCheckinUsers visitDb venueId = 0 := rfl
    rw [hnobody] at hcount
    exact absurd hcount (by decide)
  have hend := h visitDb revealing hstart (by decide) authenticated_revealing revealing [] (by simp)
  have hverified : corner.isVerified = true :=
    hend corner.id corner (by decide) rfl (by decide) (by decide)
  exact absurd hverified (by decide)

end OburBackend
