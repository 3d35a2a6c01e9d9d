import OburBackend.Service.Account
import OburBackend.Service.Venue
import OburBackend.Venue.Revealed

/-!
# How a venue becomes verified

Two paths lead there: the `UPDATE` of `rls_verify_venue_if_eligible`, which recounts the check-ins
itself, and the write of `verify_venue_by_admin` after a count in Python. `VerifiedOnly` says what
one call may do to the flag, with the reason `allowed` for setting it, and every call on venues,
check-ins and accounts keeps to it (`VenueCall.verifiedOnly`). What holds along a whole run
(`FlagLaw`) follows step by step.

A call is one step. It leaves behind what it has committed or what its session sees: the evaluation
after a check-in is not committed, and counts when the session goes on.
-/

namespace OburBackend

open Sql

/-- From `db` to `s` no venue has gone, none has lost its flag, and one that has gained it has been
there before and was allowed to. -/
structure VerifiedOnly (allowed : Db → Venue → Prop) (db s : Db) : Prop where
  kept : ∀ v ∈ db.venues, ∃ v' ∈ s.venues, v'.id = v.id ∧
    (v.isVerified = true → v'.isVerified = true)
  earned : ∀ v' ∈ s.venues, v'.isVerified = true → ∃ v ∈ db.venues, v.id = v'.id ∧
    (v.isVerified = true ∨ allowed s v')

namespace VerifiedOnly

variable {allowed allowed' : Db → Venue → Prop} {db s s' : Db}

/-- Nothing has been verified yet. -/
theorem refl (db : Db) : VerifiedOnly allowed db db where
  kept v hv := ⟨v, hv, rfl, id⟩
  earned v hv h := ⟨v, hv, rfl, .inl h⟩

/-- What may be verified may be more. -/
theorem mono (hle : ∀ v, allowed s v → allowed' s v) (h : VerifiedOnly allowed db s) :
    VerifiedOnly allowed' db s where
  kept := h.kept
  earned v' hv' hverified := by
    obtain ⟨v, hv, hid, hwhy⟩ := h.earned v' hv' hverified
    exact ⟨v, hv, hid, hwhy.imp_right (hle v')⟩

/-- A change that sets no flag needs no reason. -/
theorem quiet (h : VerifiedOnly (fun _ _ => False) db s) : VerifiedOnly allowed db s :=
  h.mono fun _ hno => hno.elim

/-- A further change that sets no flag. -/
theorem step (h : VerifiedOnly (fun _ _ => False) db s)
    (hkept : ∀ v ∈ s.venues, ∃ v' ∈ s'.venues, v'.id = v.id ∧
      (v.isVerified = true → v'.isVerified = true))
    (hold : ∀ v' ∈ s'.venues, v'.isVerified = true →
      ∃ v ∈ s.venues, v.id = v'.id ∧ v.isVerified = true) :
    VerifiedOnly (fun _ _ => False) db s' where
  kept v hv := by
    obtain ⟨w, hw, hwid, hwkept⟩ := h.kept v hv
    obtain ⟨v', hv', hid, hvkept⟩ := hkept w hw
    exact ⟨v', hv', hid.trans hwid, fun hverified => hvkept (hwkept hverified)⟩
  earned v' hv' hverified := by
    obtain ⟨w, hw, hwid, hwverified⟩ := hold v' hv' hverified
    obtain ⟨v, hv, hid, hwhy⟩ := h.earned w hw hwverified
    exact ⟨v, hv, hid.trans hwid, hwhy⟩

/-- The venues are the same. -/
theorem of_venues_eq (h : VerifiedOnly (fun _ _ => False) db s) (hsame : s'.venues = s.venues) :
    VerifiedOnly (fun _ _ => False) db s' := by
  refine h.step ?_ ?_
  · rw [hsame]
    exact fun v hv => ⟨v, hv, rfl, id⟩
  · rw [hsame]
    exact fun v' hv' hverified => ⟨v', hv', rfl, hverified⟩

/-- A new venue is not verified. -/
theorem insert (h : VerifiedOnly (fun _ _ => False) db s) {r : Venue} (hr : r.isVerified = false) :
    VerifiedOnly (fun _ _ => False) db { s with venues := s.venues.insert r } := by
  refine h.step (fun v hv => ⟨v, Table.mem_insert_of_mem hv, rfl, id⟩) fun v' hv' hverified => ?_
  rcases Table.mem_or_eq_of_mem_insert hv' with hv' | rfl
  · exact ⟨v', hv', rfl, hverified⟩
  · rw [hr] at hverified
    cases hverified

/-- Columns other than the flag are set. -/
theorem modify (h : VerifiedOnly (fun _ _ => False) db s) {p : Venue → Bool} {f : Venue → Venue}
    (hf : ∀ v, (f v).id = v.id) (hs' : s'.venues = s.venues.modify p f hf)
    (hflag : ∀ v, (f v).isVerified = v.isVerified) : VerifiedOnly (fun _ _ => False) db s' := by
  have hsame : ∀ v, (if p v then f v else v).id = v.id ∧
      (if p v then f v else v).isVerified = v.isVerified := by
    intro v
    split
    · exact ⟨hf v, hflag v⟩
    · exact ⟨rfl, rfl⟩
  refine h.step (fun v hv => ?_) fun v' hv' hverified => ?_
  · refine ⟨_, hs' ▸ Table.mem_modify.mpr ⟨v, hv, rfl⟩, (hsame v).1, fun hverified => ?_⟩
    rw [(hsame v).2, hverified]
  · rw [hs'] at hv'
    obtain ⟨v, hv, rfl⟩ := Table.mem_modify.mp hv'
    exact ⟨v, hv, (hsame v).1.symm, (hsame v).2 ▸ hverified⟩

/-- Flags are set on venues that earn them. -/
theorem of_modify {p : Venue → Bool} (hf : ∀ v : Venue, { v with isVerified := true }.id = v.id)
    (hs : s.venues = db.venues.modify p (fun v => { v with isVerified := true }) hf)
    (hallowed : ∀ v ∈ db.venues, p v = true → allowed s { v with isVerified := true }) :
    VerifiedOnly allowed db s where
  kept v hv := by
    refine ⟨_, hs ▸ Table.mem_modify.mpr ⟨v, hv, rfl⟩, ?_, ?_⟩
    all_goals split <;> simp
  earned v' hv' hverified := by
    rw [hs] at hv'
    obtain ⟨v, hv, rfl⟩ := Table.mem_modify.mp hv'
    split at hverified
    · next hp => exact ⟨v, hv, by simp [hp], .inr (by simpa [hp] using hallowed v hv hp)⟩
    · next hp => exact ⟨v, hv, by simp [hp], .inl hverified⟩

end VerifiedOnly

/-! ## The operations -/

/-- The operations on venues, check-ins and accounts. -/
inductive VenueOp where
  | createVenue (geo : Geography) (args : VenueCreate)
  | closeVenue (venueId : Uuid)
  | suspendVenue (venueId : Uuid)
  | verifyVenueByAdmin (venueId : Uuid)
  | evaluateVenueVerification (venueId : Uuid)
  | createCheckin (args : CheckinCreate)
  | updateCheckin (checkinId : Uuid) (currentUser : User) (updates : CheckinUpdates)
  | softDeleteCheckin (checkinId : Uuid) (currentUser : User)
  | hardDeleteCheckin (checkinId : Uuid)
  | deleteAccount (userId : Uuid)

def VenueOp.prog (c : Ctx) : VenueOp → Service Unit
  | .createVenue geo args => do
    let _ ← OburBackend.createVenue c geo args
    return ()
  | .closeVenue venueId => do
    let _ ← OburBackend.closeVenue venueId
    return ()
  | .suspendVenue venueId => do
    let _ ← OburBackend.suspendVenue venueId
    return ()
  | .verifyVenueByAdmin venueId => do
    let _ ← OburBackend.verifyVenueByAdmin venueId
    return ()
  | .evaluateVenueVerification venueId => OburBackend.evaluateVenueVerification venueId
  | .createCheckin args => do
    let _ ← OburBackend.createCheckin c args
    return ()
  | .updateCheckin checkinId currentUser updates => do
    let _ ← OburBackend.updateCheckin c checkinId currentUser updates
    return ()
  | .softDeleteCheckin checkinId currentUser =>
    OburBackend.softDeleteCheckin c checkinId currentUser
  | .hardDeleteCheckin checkinId => OburBackend.hardDeleteCheckin checkinId
  | .deleteAccount userId => OburBackend.deleteAccount userId

/-- An operation under the identity of its session. -/
structure VenueCall where
  me : Identity
  c : Ctx
  op : VenueOp

namespace VenueCall

/-- The call leads from `db` to `db'`. -/
def Step (call : VenueCall) (db db' : Db) : Prop := (call.op.prog call.c).Leaves call.me db db'

/-- The reasons for which a call on `db` may have verified `v`, seen at the moment `s` when it is
done: Google knows the venue and three users have been there, or an administrator has confirmed it
and five have. -/
def Earns (call : VenueCall) (db s : Db) (v : Venue) : Prop :=
  (v.googlePlacesId ≠ none ∧
    minCheckinsForAutoVerification ≤ countDistinctPublicCheckinUsers s v.id) ∨
  (call.op = .verifyVenueByAdmin v.id ∧ db.IsAdmin call.me ∧
    minCheckinsForAdminVerification ≤ countDistinctPublicCheckinUsers s v.id)

end VenueCall

section Operations

variable {db : Db} {me : Identity}

/-- What the policies hide is not counted. -/
theorem countVisible_le (me : Identity) (db : Db) (venueId : Uuid) :
    countVisiblePublicCheckinUsers me db venueId ≤ countDistinctPublicCheckinUsers db venueId := by
  rw [← card_publicCheckinUsers, countVisiblePublicCheckinUsers, ← List.card_toFinset]
  refine Finset.card_le_card fun u hu => ?_
  obtain ⟨c, hc, huser⟩ := List.mem_map.mp (List.mem_toFinset.mp hu)
  obtain ⟨hmem, hcounts, -⟩ := checkins.mem_rows.mp hc
  simp only [Bool.and_eq_true, decide_eq_true_eq, Option.isNone_iff_eq_none] at hcounts
  exact mem_publicCheckinUsers.mpr ⟨c, hmem, hcounts.1, hcounts.2.1, hcounts.2.2, huser⟩

/-- `verify_venue_by_admin` changes nothing, or an administrator has verified a venue with enough
users. -/
theorem conn_verifyVenueByAdmin (db : Db) (me : Identity) (venueId : Uuid) :
    let conn := ((verifyVenueByAdmin venueId).run (Conn.start me db)).2
    conn = Conn.start me db ∨
      db.IsAdmin me ∧
        minCheckinsForAdminVerification ≤ countDistinctPublicCheckinUsers db venueId ∧
        conn = Conn.start me (setVenue venueId verified verified_id db) := by
  dsimp only
  rw [verifyVenueByAdmin, Prog.bind_eq, (readOnly_getVenue _).run_bind]
  split
  · next venue _ =>
    split
    · exact .inl rfl
    · rw [Prog.bind_eq, countDistinctCheckinUsers, run_query_bind]
      split
      · exact .inl rfl
      · next hcount =>
        rw [saveVenue, Prog.bind_eq, run_update_bind]
        split
        · next wr hw =>
          obtain ⟨v, v', -, husing, -, -, -, -, rfl⟩ := venues.updateWrite_eq_ok hw
          have hadmin : db.IsAdmin me := holds_rlsIsAdmin.mp husing
          have henough := (not_lt.mp hcount).trans (countVisible_le me db venueId)
          refine .inr ⟨hadmin, henough, ?_⟩
          simp only [Prog.bind_eq]
          rw [run_commit_bind, (readOnly_refresh _ _).run]
          rfl
        · exact .inl rfl
  · exact .inl rfl

/-- The evaluation sets flags that are earned. -/
theorem verifiedOnly_evaluated {allowed : Db → Venue → Prop} {s : Db} {venueId : Uuid}
    (hvenues : s.venues = db.venues) (hallowed : ∀ v : Venue, v.googlePlacesId ≠ none →
      minCheckinsForAutoVerification ≤ countDistinctPublicCheckinUsers s v.id →
        allowed (evaluated venueId s) v) :
    VerifiedOnly allowed db (evaluated venueId s) := by
  refine VerifiedOnly.of_modify (fun _ => rfl) (by rw [← hvenues]; rfl) fun v hv hp => ?_
  obtain ⟨x, hx, hid⟩ := List.mem_map.mp (of_decide_eq_true hp)
  obtain ⟨hx, hel⟩ := Table.mem_select.mp hx
  obtain rfl : x = v := Table.eq_of_key_eq hx (hvenues ▸ hv) hid
  simp only [eligible, Bool.and_eq_true, decide_eq_true_eq, Option.isSome_iff_ne_none] at hel
  obtain ⟨rfl, -, hgoogle, hcount⟩ := hel
  exact hallowed _ hgoogle hcount

/-- Deleted users leave their venues behind, with the flags. -/
theorem VerifiedOnly.eraseUsers {s : Db} (h : VerifiedOnly (fun _ _ => False) db s)
    (p : User → Bool) : VerifiedOnly (fun _ _ => False) db (eraseUsers p s) :=
  h.modify (by exact fun _ => rfl) rfl fun _ => rfl

/-- A request whose writes leave the flags alone. -/
theorem VerifiedOnly.of_keeps {α : Type} {p : Service α} {me : Identity} {s : Db}
    {allowed : Db → Venue → Prop} (hp : p.Keeps (VerifiedOnly (fun _ _ => False) db) me)
    (h : p.Leaves me db s) : VerifiedOnly allowed db s :=
  (hp.leaves (VerifiedOnly.refl db) h).quiet

/-- What one call may do to the flags. -/
theorem VenueCall.verifiedOnly {call : VenueCall} {db' : Db} (h : call.Step db db') :
    VerifiedOnly (call.Earns db) db db' := by
  obtain ⟨me, c, op⟩ := call
  cases op with
  | createVenue geo args =>
    refine .of_keeps (keeps_createVenue fun s hs => ?_) (Prog.leaves_bind_ret.mp h)
    exact hs.insert rfl
  | closeVenue venueId =>
    refine .of_keeps (keeps_closeVenue fun s hs => ?_) (Prog.leaves_bind_ret.mp h)
    exact hs.modify (by exact fun _ => rfl) rfl fun _ => rfl
  | suspendVenue venueId =>
    refine .of_keeps (keeps_suspendVenue fun s hs => ?_) (Prog.leaves_bind_ret.mp h)
    exact hs.modify (by exact fun _ => rfl) rfl fun _ => rfl
  | updateCheckin checkinId u updates =>
    refine .of_keeps (keeps_updateCheckin fun s x hs => ?_) (Prog.leaves_bind_ret.mp h)
    exact hs.of_venues_eq rfl
  | softDeleteCheckin checkinId u =>
    exact .of_keeps (keeps_softDeleteCheckin fun s f hf _ hs => hs.of_venues_eq rfl) h
  | hardDeleteCheckin checkinId =>
    exact .of_keeps (keeps_hardDeleteCheckin fun s p hs => hs.of_venues_eq rfl) h
  | deleteAccount userId =>
    exact .of_keeps (keeps_deleteAccount fun s p hs => hs.eraseUsers p) h
  | verifyVenueByAdmin venueId =>
    have hleaves := Prog.leaves_bind_ret.mp h
    rcases conn_verifyVenueByAdmin db me venueId with hconn | ⟨hadmin, hcount, hconn⟩
    · rcases hleaves.of_conn hconn with rfl | rfl
      all_goals exact VerifiedOnly.refl _
    · have hset : VerifiedOnly (VenueCall.Earns ⟨me, c, .verifyVenueByAdmin venueId⟩ db) db
          (setVenue venueId verified verified_id db) := by
        refine VerifiedOnly.of_modify verified_id rfl fun v _ hid => .inr ?_
        obtain rfl : v.id = venueId := of_decide_eq_true hid
        exact ⟨rfl, hadmin, hcount⟩
      rcases hleaves.of_conn hconn with rfl | rfl
      all_goals exact hset
  | evaluateVenueVerification venueId =>
    cases h with
    | committed => exact VerifiedOnly.refl db
    | working => exact verifiedOnly_evaluated rfl fun v hgoogle hcount => .inl ⟨hgoogle, hcount⟩
  | createCheckin args =>
    have hleaves := Prog.leaves_bind_ret.mp h
    rcases conn_createCheckin db me c args with hconn | hconn
    · rcases hleaves.of_conn hconn with rfl | rfl
      all_goals exact VerifiedOnly.refl _
    · have hinserted : VerifiedOnly (VenueCall.Earns ⟨me, c, .createCheckin args⟩ db) db
          { db with checkins := db.checkins.insert (args.row c) } := by
        apply VerifiedOnly.quiet
        exact (VerifiedOnly.refl db).of_venues_eq rfl
      split at hconn
      · rcases hleaves.of_conn hconn with rfl | rfl
        · exact hinserted
        · exact verifiedOnly_evaluated rfl fun v hgoogle hcount => .inl ⟨hgoogle, hcount⟩
      · rcases hleaves.of_conn hconn with rfl | rfl
        all_goals exact hinserted

end Operations

/-! ## Runs -/

/-- Each call starts where the one before has left the data, and leads to the state beside it. -/
def IsRun : Db → List (VenueCall × Db) → Prop
  | _, [] => True
  | db, (call, db') :: rest => call.Step db db' ∧ IsRun db' rest

/-- Where a run ends. -/
def finalDb : Db → List (VenueCall × Db) → Db
  | db, [] => db
  | _, (_, db') :: rest => finalDb db' rest

/-- The data after two runs one after the other. -/
theorem finalDb_append (db : Db) (run run' : List (VenueCall × Db)) :
    finalDb db (run ++ run') = finalDb (finalDb db run) run' := by
  induction run generalizing db with
  | nil => rfl
  | cons event run ih => exact ih event.2

/-- A run is a run and then another one. -/
theorem isRun_append {db : Db} {run run' : List (VenueCall × Db)} :
    IsRun db (run ++ run') ↔ IsRun db run ∧ IsRun (finalDb db run) run' := by
  induction run generalizing db with
  | nil => simp [IsRun, finalDb]
  | cons event run ih =>
    obtain ⟨call, db'⟩ := event
    simp only [List.cons_append, IsRun, finalDb, ih, and_assoc]

/-- A verified venue is still there at the end of a run, and verified. -/
theorem IsRun.kept {db : Db} {run : List (VenueCall × Db)} (h : IsRun db run) {v : Venue}
    (hv : v ∈ db.venues) (hverified : v.isVerified = true) :
    ∃ v' ∈ (finalDb db run).venues, v'.id = v.id ∧ v'.isVerified = true := by
  induction run generalizing db v with
  | nil => exact ⟨v, hv, rfl, hverified⟩
  | cons event run ih =>
    obtain ⟨hstep, hrest⟩ := h
    obtain ⟨w, hw, hwid, hwkept⟩ := (VenueCall.verifiedOnly hstep).kept v hv
    obtain ⟨v', hv', hid, hverified'⟩ := ih hrest hw (hwkept hverified)
    exact ⟨v', hv', hid.trans hwid, hverified'⟩

/-- The life of the flag along a run: a call that sets it has a reason for it, it stays set to the
end of every later part of the run, and a venue that appears does not have it. -/
structure FlagLaw (db : Db) (run : List (VenueCall × Db)) : Prop where
  promoted : ∀ done call db' rest, run = done ++ (call, db') :: rest →
    ∀ v ∈ (finalDb db done).venues, ∀ v' ∈ db'.venues, v'.id = v.id →
      v.isVerified = false → v'.isVerified = true → call.Earns (finalDb db done) db' v'
  kept : ∀ done later rest, run = done ++ (later ++ rest) →
    ∀ v ∈ (finalDb db done).venues, v.isVerified = true →
      ∃ v' ∈ (finalDb db (done ++ later)).venues, v'.id = v.id ∧ v'.isVerified = true
  created : ∀ done call db' rest, run = done ++ (call, db') :: rest →
    ∀ v' ∈ db'.venues, (∀ v ∈ (finalDb db done).venues, v.id ≠ v'.id) → v'.isVerified = false

/-- Every run of the operations, in any order and of any length, obeys the law. -/
theorem flagLaw_of_isRun (db : Db) (run : List (VenueCall × Db)) (h : IsRun db run) :
    FlagLaw db run where
  promoted done call db' rest hrun v hv v' hv' hid hbefore hafter := by
    rw [hrun] at h
    have hstep : call.Step (finalDb db done) db' := (isRun_append.mp h).2.1
    obtain ⟨w, hw, hwid, hwhy⟩ := (VenueCall.verifiedOnly hstep).earned v' hv' hafter
    obtain rfl : w = v := Table.eq_of_key_eq hw hv (hwid.trans hid)
    rcases hwhy with hwverified | hearns
    · rw [hbefore] at hwverified
      cases hwverified
    · exact hearns
  kept done later rest hrun v hv hverified := by
    rw [hrun] at h
    have hlater : IsRun (finalDb db done) later := (isRun_append.mp (isRun_append.mp h).2).1
    rw [finalDb_append]
    exact hlater.kept hv hverified
  created done call db' rest hrun v' hv' hnew := by
    rw [hrun] at h
    have hstep : call.Step (finalDb db done) db' := (isRun_append.mp h).2.1
    cases hverified : v'.isVerified with
    | false => rfl
    | true =>
      obtain ⟨v, hv, hid, -⟩ := (VenueCall.verifiedOnly hstep).earned v' hv' hverified
      exact absurd hid (hnew v hv)

/-- The run in which one session goes on from call to call. -/
def sessionRun : Db → List VenueCall → List (VenueCall × Db)
  | _, [] => []
  | db, call :: calls =>
    let db' := ((call.op.prog call.c).run (Conn.start call.me db)).2.working
    (call, db') :: sessionRun db' calls

/-- The calls of one session are a run. -/
theorem isRun_sessionRun (db : Db) (calls : List VenueCall) : IsRun db (sessionRun db calls) := by
  induction calls generalizing db with
  | nil => trivial
  | cons call calls ih => exact ⟨.working, ih _⟩

/-- Three visitors verify the venue, and one of them deletes the account. -/
def visitCalls : List VenueCall :=
  (List.finRange 3).map (fun i =>
    ⟨some (visitor i).id, visitCtx i, .createCheckin (visitArgs i)⟩) ++
  [⟨some (visitor shy).id, visitCtx shy, .deleteAccount (visitor shy).id⟩]

/-- The visits of the example keep the law. -/
theorem flagLaw_of_isRun_visitCalls :
    FlagLaw visitDb (sessionRun visitDb visitCalls) ∧
      { corner with isVerified := true } ∈
        (finalDb visitDb (sessionRun visitDb visitCalls)).venues :=
  ⟨flagLaw_of_isRun visitDb _ (isRun_sessionRun visitDb visitCalls), by decide⟩

end OburBackend
