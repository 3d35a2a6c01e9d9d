import OburBackend.Account.FirstRequests
import OburBackend.Api.Problems
import OburBackend.History.Checks
import OburBackend.Payload.CheckinPayloads
import OburBackend.Venue.Verification

/-!
# What a request has done when it is answered

A whole request signs its caller in and then checks, writes and commits. So in whatever company it
runs, two things can be told from its answer. If the answer is a client's error, which just the
exceptions of the application are (`status_lt_iff_isRefusal`), what the request has committed on the
way is its signing in and nothing else (`signedIn_of_refused`). If it has returned, it has committed
everything, except that nothing commits the verification of a venue that a new check-in brings about
(`committed_of_answered`).
-/

namespace OburBackend

open Sql Prog TableDef

/-! ## Routes -/

section Routes

variable {α : Type} {b : Backend} {c : Ctx} {V : Identity → Db → Write Db Lock → Prop}

/-- A service, and what the route makes of its result. -/
theorem checked_call {p : Service α} (hp : p.Checked PyError.IsRefusal V) (f : α → Reply) :
    (do return f (← Handler.call p) : Handler Reply).Checked ApiError.IsRefusal V :=
  (checked_handlerCall hp).map f

/-- An answer without content is checked as the service is. -/
theorem checked_noContent {p : Service α} (hp : p.Checked PyError.IsRefusal V) :
    (Handler.noContent p).Checked ApiError.IsRefusal V :=
  (checked_handlerCall hp).map fun _ => Reply.noContent

/-- Each route of a signed-in user checks, writes and commits. -/
theorem UserEndpoint.checked_run (u : User) (e : UserEndpoint)
    (hV : ∀ payload, e = .createCheckin payload → payload.visibility = Visibility.pub →
      ∀ me db wr, Verification payload.venueId me db wr → V me db wr) :
    (e.run b c u).Checked ApiError.IsRefusal V := by
  cases e with
  | getMe => trivial
  | updateMe => exact checked_call (checked_updateProfile _ _) _
  | freezeMe => exact checked_call (checked_freezeAccount _) _
  | deleteMe => exact checked_noContent (finishes_delete_commit _).checked
  | listMyBookmarkedCheckins | listMyBookmarkedLists | listCloseFriends | listBlockedUsers
  | listMutedUsers | listNotifications | getUnreadNotificationCount =>
    exact checked_call (readOnly_query _ _).checked _
  | createVenue => exact checked_call (checked_createVenue _ _) _
  | createCheckin payload => exact checked_call (checked_createCheckin _ (hV payload rfl)) _
  | updateCheckin => exact checked_call (checked_updateCheckin _ _ _) _
  | deleteCheckin => exact checked_noContent (checked_softDeleteCheckin _ _)
  | likeCheckin =>
    exact checked_noContent ((readOnly_getCheckin _ _).bind_checked fun _ =>
      checked_addMark (neverRaises_notifyLike _ _ _ _ _))
  | likeList =>
    exact checked_noContent ((readOnly_getList _ _).bind_checked fun _ =>
      checked_addMark (neverRaises_notifyLike _ _ _ _ _))
  | bookmarkCheckin =>
    exact checked_noContent ((readOnly_getCheckin _ _).bind_checked fun _ =>
      checked_addMark trivial)
  | bookmarkList =>
    exact checked_noContent ((readOnly_getList _ _).bind_checked fun _ =>
      checked_addMark trivial)
  | unlikeCheckin | unbookmarkCheckin | unlikeList | unbookmarkList =>
    exact checked_noContent checked_removeMark
  | unfollowUser | removeFollower => exact checked_noContent (checked_unfollowUser _ _)
  | removeCloseFriend => exact checked_noContent (checked_removeCloseFriend _ _)
  | unblockUser => exact checked_noContent (checked_removeBlock _ _)
  | unmuteUser => exact checked_noContent (checked_removeMute _ _)
  | followUser => exact checked_noContent (checked_followUser _ _)
  | addCloseFriend => exact checked_noContent (checked_addCloseFriend _ _)
  | blockUser => exact checked_noContent (checked_createBlock _ _)
  | muteUser => exact checked_noContent (checked_createMute _ _)
  | createList => exact checked_call (finishes_insert_refresh _ _).checked _
  | updateList => exact checked_call (checked_updateList _ _ _) _
  | deleteList => exact checked_noContent (checked_deleteList _ _)
  | addListItem => exact checked_call (checked_addListItem _ _ _ _) _
  | moveListItem => exact checked_call (checked_moveListItem _ _ _ _) _
  | removeListItem => exact checked_noContent (checked_removeListItem _ _ _)
  | saveVenue => exact checked_call (checked_saveVenue _ _ _ _) _
  | updateVenueSave => exact checked_call (checked_updateVenueSave _ _ _) _
  | deleteVenueSave => exact checked_noContent (checked_deleteVenueSave _ _)
  | markAllNotificationsRead =>
    exact checked_noContent (checked_markAllNotificationsRead _)
  | reportCheckin | reportUser =>
    exact checked_noContent (checked_createContentReport _ _ _ _ _)
  | reportVenue => exact checked_noContent (checked_createVenueReport _ _ _ _)

/-- So does each route of an administrator. -/
theorem AdminEndpoint.checked_run (admin : User) (e : AdminEndpoint) :
    (e.run b c admin).Checked ApiError.IsRefusal V := by
  cases e with
  | purgeCheckin => exact checked_noContent (checked_hardDeleteCheckin _)
  | verifyVenue => exact checked_call (checked_verifyVenueByAdmin _) _
  | closeVenue => exact checked_call (checked_closeVenue _) _
  | suspendVenue => exact checked_call (checked_suspendVenue _) _
  | suspendUser => exact checked_call (checked_suspendAccount _) _
  | listContentReports | listVenueReports =>
    exact checked_call (readOnly_query _ _).checked _
  | dismissContentReport | actionContentReport =>
    exact checked_call (checked_resolveContentReport _ _ _) _
  | dismissVenueReport | actionVenueReport =>
    exact (checked_resolveVenueReport _ _ _).map _

/-! ### Signing in comes first -/

/-- The account that the first request with a token for `sub` creates. -/
def Call.newcomer (call : Call) (sub : String) : User :=
  let username := fallbackUsername call.ctx authProvider sub
  User.create (call.ctx.uuid4 0) authProvider sub username username call.ctx.now

/-- The write of signing in: the account of the request's own token is created. -/
def SignIn (call : Call) (_ : Identity) (_ : Db) (wr : Write Db Lock) : Prop :=
  ∃ sub, call.request.claims = .ok sub ∧
    wr.effect = fun t => { t with users := t.users.insert (call.newcomer sub) }

section SigningIn

variable {call : Call}

/-- A part of signing in before the identity of the session is set: it writes as `SignIn` says, and
leaves the session without an identity. -/
def SignsInFirst (call : Call) (p : Service α) : Prop :=
  p.WritesFrom (SignIn call) (fun me _ => me = none) (fun me => me = none) none

/-- The sign-up creates the account of the token, and no other. -/
theorem signsInFirst_createUserJit {sub : String} (hsub : call.request.claims = .ok sub) :
    SignsInFirst call (createUserJit call.ctx sub) := by
  have hinsert : SignsInFirst call (users.insert (call.newcomer sub)) := by
    refine ⟨fun db wr h => ⟨sub, hsub, ?_⟩, rfl, fun _ => rfl⟩
    obtain ⟨-, -, -, -, rfl⟩ := users.insertWrite_eq_ok.mp h
    rfl
  refine WritesFrom.recover (hinsert.bind fun me _ hme => ?_) fun me e hme => ?_
  · exact WritesFrom.bind (p := commit) (Q := fun me _ => me = none) hme fun me _ hme =>
      (readOnly_refresh _ _).writesFrom (fun _ => hme) hme
  · split
    · refine WritesFrom.bind (p := rollback) (Q := fun me _ => me = none) hme fun me _ hme => ?_
      refine ((readOnly_findUser sub).writesFrom (Q := fun me _ => me = none) (fun _ => hme)
        hme).bind fun me found hme => ?_
      cases found <;> exact hme
    · exact hme

/-- Resolving the token finds it, or signs it up. -/
theorem signsInFirst_resolveUser : SignsInFirst call (resolveUser call.ctx call.request) := by
  have hverify : (verifySession call.request).WritesFrom (SignIn call)
      (fun me sub => me = none ∧ call.request.claims = .ok sub) (fun me => me = none) none := by
    unfold verifySession
    cases call.request.claims with
    | error message => exact rfl
    | ok sub => exact ⟨rfl, rfl⟩
  refine hverify.bind fun me sub h => ?_
  obtain ⟨rfl, hsub⟩ := h
  refine ((readOnly_findUser sub).writesFrom (Q := fun me _ => me = none)
    (E := fun me => me = none) (fun _ => rfl) rfl).bind fun me found hme => ?_
  subst hme
  cases found with
  | none => exact signsInFirst_createUserJit hsub
  | some user => exact rfl

/-- No policy lets a session without an identity change a user. -/
theorem signsInFirst_reactivateAccount (user : User) :
    SignsInFirst call (reactivateAccount user) := by
  have hset : SignsInFirst call (setStatus user.id .active) := by
    refine ⟨fun db wr h => ?_, rfl, fun _ => rfl⟩
    obtain ⟨r, _, -, -, -, husing, -⟩ := users.updateWrite_eq_ok h
    exact absurd husing (not_usersPolicy_updateUsing_none db r)
  unfold reactivateAccount
  split_ifs
  · exact rfl
  · exact rfl
  · refine hset.bind fun me _ hme => ?_
    exact WritesFrom.bind (p := commit) (Q := fun me _ => me = none) hme fun me _ hme =>
      (readOnly_refresh _ _).writesFrom (fun _ => hme) hme

/-- Once the identity is set, signing in writes nothing more. -/
theorem writesFrom_getCurrentUser : (getCurrentUser call.ctx call.request).WritesFrom (SignIn call)
    (fun _ _ => True) (fun _ => True) none := by
  refine WritesFrom.bind
    (signsInFirst_resolveUser.mono (fun _ _ h => h) fun _ _ => trivial) fun me user hme => ?_
  subst hme
  split
  · trivial
  · split
    · exact ((signsInFirst_reactivateAccount user).mono (fun _ _ h => h) fun _ _ => trivial).bind
        fun _ _ _ => trivial
    · trivial

/-- Signing in writes no more where a token is not required. -/
theorem writesFrom_getOptionalCurrentUser : (getOptionalCurrentUser call.ctx
    call.request).WritesFrom (SignIn call) (fun _ _ => True) (fun _ => True) none := by
  refine WritesFrom.recover (writesFrom_getCurrentUser.bind fun _ _ _ => trivial) fun me e _ => ?_
  split <;> trivial

/-- Nor does it where an administrator is required. -/
theorem writesFrom_requireAdmin : (requireAdmin call.ctx call.request).WritesFrom (SignIn call)
    (fun _ _ => True) (fun _ => True) none := by
  refine writesFrom_getCurrentUser.bind fun me user _ => ?_
  split <;> trivial

end SigningIn

/-- A webhook checks its signature first, and commits what it writes. -/
theorem checked_handleClerkWebhook (webhook : WebhookRequest) :
    (handleClerkWebhook c webhook).Checked PyError.IsRefusal V := by
  have hlookup (sub : String) : (lookupUser sub).ReadOnly := fun _ _ => trivial
  refine (readOnly_verifySignature webhook).bind_checked fun event => Checked.map ?_ _
  split_ifs
  · refine (hlookup event.data.id).bind_checked fun existing => Finishes.checked ?_
    have hupsert : (upsertRow (event.data.row c)).NeverRaises PyError.IsRefusal :=
      ⟨trivial, not_isRefusal_database⟩
    have hset (user : User) : (setCurrentUserIdentity user.id).NeverRaises PyError.IsRefusal :=
      trivial
    cases existing with
    | none => exact hupsert.bind_finishes fun _ => finishes_commit
    | some user =>
      exact (hset user).bind_finishes fun _ => hupsert.bind_finishes fun _ => finishes_commit
  · refine (hlookup event.data.id).bind_checked fun found => ?_
    cases found with
    | none => trivial
    | some target =>
      have hset : (setCurrentUserIdentity target.id).NeverRaises PyError.IsRefusal := trivial
      exact (hset.bind_finishes fun _ => finishes_delete_commit (T := users) target.id).checked
  · trivial

/-- A whole request refuses before its first write, except that of signing in. -/
theorem checksFirst_handle (call : Call) :
    (handle b call).ChecksFirst ApiError.IsRefusal (SignIn call) none := by
  unfold handle
  cases call.endpoint with
  | user e =>
    exact (writesFrom_getCurrentUser.mapError _).bind_checksFirst fun _ u _ =>
      (e.checked_run (V := fun _ _ _ => True) u fun _ _ _ _ _ _ _ => trivial).checksFirst
  | viewer e =>
    exact (writesFrom_getOptionalCurrentUser.mapError _).bind_checksFirst fun _ viewer _ =>
      ((e.readOnly_run _ viewer).checked (V := fun _ _ _ => True)).checksFirst
  | admin e =>
    exact (writesFrom_requireAdmin.mapError _).bind_checksFirst fun _ admin _ =>
      (e.checked_run (V := fun _ _ _ => True) admin).checksFirst
  | anonymous e => exact (e.readOnly_run.checked (V := fun _ _ _ => True)).checksFirst
  | handleClerkWebhook webhook =>
    exact (checked_call (checked_handleClerkWebhook (V := fun _ _ _ => True) webhook) _).checksFirst

/-! ### Signing in is committed -/

/-- Verifying a token sends no statement. -/
theorem readOnly_verifySession (request : Request) : (verifySession request).ReadOnly := by
  unfold verifySession
  cases request.claims <;> trivial

/-- A sign-up that returns has committed the account. -/
theorem commits_createUserJit (sub : String) :
    (createUserJit c sub).Commits PyError.IsRefusal V true := by
  refine Commits.recover ?_ (fun e he => ?_) fun e hother => ?_
  · exact commits_bind_of_false (neverRaises_insert not_isRefusal_database _) fun _ =>
      (finishes_commit_refresh (T := users) _).commits
  · rw [if_neg (by rintro rfl; exact he)]
    exact fun _ => rfl
  · split
    · refine Commits.bind (p := rollback) rfl fun _ => (readOnly_findUser sub).commits.bind
        fun found => ?_
      cases found with
      | none => exact fun _ => rfl
      | some existing => rfl
    · exact fun hrefusal => absurd hrefusal hother

/-- Signing in leaves nothing uncommitted. -/
theorem commits_getCurrentUser (request : Request) :
    (getCurrentUser c request).Commits PyError.IsRefusal V true := by
  have hresolve : (resolveUser c request).Commits PyError.IsRefusal V true := by
    refine (readOnly_verifySession request).commits.bind fun sub =>
      (readOnly_findUser sub).commits.bind fun found => ?_
    cases found with
    | none => exact commits_createUserJit sub
    | some user => rfl
  have hset (user : User) : (setCurrentUserIdentity user.id >>= fun _ => return user
      : Service User).Commits PyError.IsRefusal V true := rfl
  refine hresolve.bind fun user => ?_
  split
  · exact fun _ => rfl
  · split
    · refine Commits.bind ?_ hset
      unfold reactivateAccount
      split_ifs
      · rfl
      · exact fun _ => rfl
      · exact commits_bind_of_false (neverRaises_update not_isRefusal_database) fun _ =>
          (finishes_commit_refresh (T := users) _).commits
    · exact hset user

/-- Nor does it where a token is not required. -/
theorem commits_getOptionalCurrentUser (request : Request) :
    (getOptionalCurrentUser c request).Commits PyError.IsRefusal V true := by
  refine Commits.recover ((commits_getCurrentUser request).bind fun _ => rfl) (fun e _ => ?_)
    fun e he => ?_
  · split
    · rfl
    · rfl
    · exact fun _ => rfl
  · split
    · exact absurd trivial he
    · exact absurd trivial he
    · exact fun h => absurd h he

/-- Nor does it where an administrator is required. -/
theorem commits_requireAdmin (request : Request) :
    (requireAdmin c request).Commits PyError.IsRefusal V true := by
  refine (commits_getCurrentUser request).bind fun user => ?_
  split
  · exact fun _ => rfl
  · rfl

/-- A service as a part of a handler. -/
theorem commits_handlerCall {p : Service α} (hp : p.Commits PyError.IsRefusal V true) :
    (Handler.call p).Commits ApiError.IsRefusal V true :=
  Commits.mapError (P := PyError.IsRefusal) hp fun _ h => h

/-- A whole request commits what it has written before it returns, except for the verification that
follows a new check-in. -/
theorem commits_handle (call : Call)
    (hV : ∀ payload, call.endpoint = .user (.createCheckin payload) →
      payload.visibility = Visibility.pub →
        ∀ me db wr, Verification payload.venueId me db wr → V me db wr) :
    (handle b call).Commits ApiError.IsRefusal V true := by
  unfold handle
  cases hendpoint : call.endpoint with
  | user e =>
    refine (commits_handlerCall (commits_getCurrentUser _)).bind fun u =>
      (e.checked_run u ?_).commits
    rintro payload rfl
    exact hV payload hendpoint
  | viewer e =>
    exact (commits_handlerCall (commits_getOptionalCurrentUser _)).bind fun viewer =>
      (e.readOnly_run _ viewer).commits
  | admin e =>
    exact (commits_handlerCall (commits_requireAdmin _)).bind fun admin =>
      (e.checked_run admin).commits
  | anonymous e => exact e.readOnly_run.commits
  | handleClerkWebhook webhook =>
    exact (checked_call (checked_handleClerkWebhook webhook) _).commits

end Routes

/-- Between the two states the request has at most signed in: nothing has happened, or the account
of its own token has been created. -/
def SignedIn (call : Call) (db db' : Db) : Prop :=
  db' = db ∨ ∃ sub, call.request.claims = .ok sub ∧
    db' = { db with users := db.users.insert (call.newcomer sub) }

/-- Signing in twice changes no more than once: the account is there by then. -/
theorem SignedIn.trans {call : Call} {db db' db'' : Db} (h : SignedIn call db db')
    (h' : SignedIn call db' db'') : SignedIn call db db'' := by
  rcases h with rfl | ⟨sub, hsub, rfl⟩
  · exact h'
  · rcases h' with rfl | ⟨sub', hsub', rfl⟩
    · exact .inr ⟨sub, hsub, rfl⟩
    · obtain rfl := Except.ok.inj (hsub.symm.trans hsub')
      exact .inr ⟨sub, hsub, by simp only [Table.insert_insert]⟩

/-- Just the exceptions that the application raises itself are answered with a client's error. -/
theorem status_lt_iff_isRefusal (e : ApiError) : e.status < 500 ↔ e.IsRefusal := by
  have hcrash (h : answerTo none e = none) : ¬ e.status < 500 := by
    rw [ApiError.status, h]
    decide
  have hanswer {answer : Answer} (h : answerTo none e = some answer) : e.status < 500 := by
    rw [ApiError.status, h]
    exact (status_of_answerTo h).2
  cases e with
  | service e =>
    cases e with
    | domain | problem => exact iff_of_true (hanswer rfl) trivial
    | database | couldNotRefresh | multipleResultsFound | validationError | typeError
    | zoneInfoNotFound | invalidOrderKey => exact iff_of_false (hcrash rfl) id
  | venueReportNotFound => exact iff_of_true (hanswer rfl) trivial
  | recursionError => exact iff_of_false (hcrash rfl) id

/-- Whatever requests run interleaved, a request that is answered with a client's error in the end
has done nothing but sign in: each of its steps leaves the committed data as it was, or adds the
account of the request's own token and changes nothing else. -/
theorem signedIn_of_refused {ι : Type} [DecidableEq ι] [Fintype ι] (b : Backend) (db : Db)
    (calls : ι → Call) (before after : List ι) (i : ι) (w₁ w₂ w : Requests ι) (e : ApiError)
    (hbefore : (requests b db calls).exec before = some w₁) (hstep : w₁.step i = some w₂)
    (hafter : w₂.exec after = some w) (hraise : (w.sessions i).prog = .raise e)
    (hstatus : e.status < 500) : SignedIn (calls i) w₁.committed w₂.committed := by
  have hstart : World.ChecksFirst ApiError.IsRefusal (SignIn (calls i))
      ((requests b db calls).sessions i) :=
    World.checksFirst_start (checksFirst_handle (calls i))
  refine hstart.rel_of_raise (fun _ => .inl rfl) SignedIn.trans (fun _ _ wr hwr t => ?_) hbefore
    hstep hafter hraise ((status_lt_iff_isRefusal e).mp hstatus)
  obtain ⟨sub, hsub, heffect⟩ := hwr
  exact .inr ⟨sub, hsub, by rw [heffect]⟩

/-- Somebody new unlikes what they have never liked, while ada deletes her account. -/
def refusedCalls (i : Bool) : Call :=
  if i then .signedIn "sub_3" 8 (.unlikeCheckin 5) else .signedIn "sub_1" 7 .deleteMe

/-- The refused request of somebody new: their account is new, and nothing else is. -/
theorem signedIn_of_refused_refusedCalls :
    ∃ w₁ w₂ w e, (requests .plain leavingDb refusedCalls).exec [true, false, true] = some w₁ ∧
      w₁.step true = some w₂ ∧ w₂.exec [false, true, true, true, false] = some w ∧
      (w.sessions true).prog = .raise e ∧ e.status < 500 ∧
      w₁.committed.users.rows.map User.id = [1, 2] ∧
      w₂.committed.users.rows.map User.id = [1, 2, 8] ∧
      SignedIn (refusedCalls true) w₁.committed w₂.committed :=
  have hstatus : (ErrorClass.likeNotFound).problem.status < 500 := by decide
  ⟨_, _, _, _, rfl, rfl, rfl, rfl, hstatus, rfl, rfl,
    signedIn_of_refused .plain leavingDb refusedCalls [true, false, true]
      [false, true, true, true, false] true _ _ _ _ rfl rfl rfl rfl hstatus⟩

/-- The write that a request may leave uncommitted: the verification of the venue, and of no other,
that follows a new public check-in. -/
def Uncommitted (call : Call) (wr : Write Db Lock) : Prop :=
  ∃ payload, call.endpoint = .user (.createCheckin payload) ∧ payload.visibility = Visibility.pub ∧
    (wr.effect = setVerified [payload.venueId] ∨ wr.effect = id)

/-- Whatever requests run interleaved, a request that has returned has committed all that it has
written, with one exception: a request that has created a public check-in may leave the verification
of its venue uncommitted. That is lost: the next step of the session closes it and commits nothing,
and whoever moves from then on, what is committed is what would be if the session had rolled it
back. -/
theorem committed_of_answered {ι : Type} [DecidableEq ι] [Fintype ι] (b : Backend) (db : Db)
    (calls : ι → Call) (sched : List ι) (i : ι) (w : Requests ι) (reply : Reply)
    (hexec : (requests b db calls).exec sched = some w)
    (hret : (w.sessions i).prog = .ret reply) :
    (∀ wr ∈ (w.sessions i).pending, Uncommitted (calls i) wr) ∧
      (∀ w', w.step i = some w' → w'.committed = w.committed ∧ (w'.sessions i).pending = []) ∧
      ∀ rest w', w.exec rest = some w' →
        ∃ w'', (w.rolledBack i).exec rest = some w'' ∧ w''.committed = w'.committed := by
  refine ⟨fun wr hwr => ?_, fun w' hs => ?_, fun rest w' hrest => ?_⟩
  · have hstart : World.Commits ApiError.IsRefusal (fun _ _ => Uncommitted (calls i))
        ((requests b db calls).sessions i) :=
      World.commits_start (commits_handle (calls i) fun payload hendpoint hpub _ _ _ hwr =>
        ⟨payload, hendpoint, hpub, hwr⟩)
    obtain ⟨-, -, hwr⟩ := hstart.pending_of_ret hexec hret wr hwr
    exact hwr
  · rw [World.eq_close_of_step hret hs]
    refine ⟨rfl, ?_⟩
    rw [World.put_sessions, Function.update_self]
    rfl
  · exact ⟨_, World.exec_rolledBack hret hrest, rfl⟩

/-- Two of the three visitors have checked in. -/
def twoVisitsDb : Db :=
  { visitDb with
    checkins := ((List.finRange 3).take 2).foldl
      (fun checkins i => checkins.insert ((visitArgs i).row (visitCtx i))) Table.empty }

/-- The third one checks in, while the first one mutes the second. -/
def answeredCalls (i : Bool) : Call :=
  if i then
    { ctx := { Ctx.fixed 0 12 with localToday := fun _ => some ⟨2026, 7, 2⟩ }
      request := ⟨.ok "sub_3"⟩
      acceptLanguage := none
      endpoint := .user (.createCheckin firstVisit) }
  else .signedIn "sub_1" 8 (.muteUser 2)

def answeredSched : List Bool :=
  [true, false, true, true, false, false, true, false, true, true, false, true, true]

/-- The session sees the venue verified, and it is not. -/
theorem committed_of_answered_answeredCalls :
    ∃ w reply, (requests .plain twoVisitsDb answeredCalls).exec answeredSched = some w ∧
      (w.sessions true).prog = .ret reply ∧
      (((w.sessions true).view w.committed).venues.rows.map Venue.isVerified = [true]) ∧
      w.committed.venues.rows.map Venue.isVerified = [false] ∧
      (∀ wr ∈ (w.sessions true).pending, Uncommitted (answeredCalls true) wr) ∧
      (∀ w', w.step true = some w' →
        w'.committed = w.committed ∧ (w'.sessions true).pending = []) ∧
      ∀ rest w', w.exec rest = some w' →
        ∃ w'', (w.rolledBack true).exec rest = some w'' ∧ w''.committed = w'.committed :=
  ⟨_, _, rfl, rfl, rfl, rfl, committed_of_answered .plain twoVisitsDb answeredCalls answeredSched
    true _ _ rfl rfl⟩

end OburBackend
