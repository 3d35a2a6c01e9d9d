import OburBackend.Account.SigningIn
import OburBackend.Service.Social

/-!
# Who appears in a listing of users

Four endpoints of `app/api/v1` list users. Only the row policy of `users` keeps a blocked person out
of such a listing, and it compares with the identity of the session. The endpoints of one's own
close friends and muted users resolve their caller first and so install the caller's identity; the
endpoints of the followers and the following of a user do not, and their query runs as nobody.
-/

namespace OburBackend

open Sql

/-- The order in which the database meets the rows of each listing. -/
structure ListingPlans where
  follows : Plan (User × Follow)
  closeFriends : Plan (User × CloseFriend)
  mutes : Plan (User × Mute)

/-- An endpoint that lists users. -/
inductive UserListing where
  | followers (userId : Uuid)
  | following (userId : Uuid)
  | closeFriends
  | mutedUsers

/-- The endpoint's handler, with the dependencies that it declares. -/
def UserListing.endpoint (c : Ctx) (request : Request) (plans : ListingPlans) (limit offset : ℕ) :
    UserListing → Service (List User)
  | .followers userId => listFollowers plans.follows userId limit offset
  | .following userId => listFollowing plans.follows userId limit offset
  | .closeFriends => do
    let currentUser ← getCurrentUser c request
    listCloseFriends plans.closeFriends currentUser.id limit offset
  | .mutedUsers => do
    let currentUser ← getCurrentUser c request
    listMutedUsers plans.mutes currentUser.id limit offset

/-- No page of the listing that `viewer` asks for contains the row of `other`. -/
def UserListing.Hides (listing : UserListing) (db : Db) (viewer other : User) : Prop :=
  ∀ c plans limit offset rows,
    (listing.endpoint c ⟨.ok viewer.authProviderId⟩ plans limit offset).outcome none db = .ok rows →
      other ∉ rows

/-- When a listing hides a blocked person: the endpoint installs the caller's identity, or the
person is not on the list, or their account is not active. -/
def UserListing.HiddenWhen (listing : UserListing) (db : Db) (other : User) : Prop :=
  match listing with
  | .followers userId =>
    (¬ ∃ r ∈ db.follows, r.followingId = userId ∧ r.followerId = other.id) ∨
      other.status ≠ .active
  | .following userId =>
    (¬ ∃ r ∈ db.follows, r.followerId = userId ∧ r.followingId = other.id) ∨
      other.status ≠ .active
  | .closeFriends | .mutedUsers => True

variable {db : Db} {viewer other : User}

/-- A query of users under the identity of a non-administrator returns nobody in a block with
them. -/
theorem not_mem_users_rows {p : User → Bool} (hviewer : db.Stored viewer)
    (hrole : viewer.role ≠ UserRole.admin) (hblock : db.Blocked viewer.id other.id) :
    other ∉ users.rows (some viewer.id) db p := by
  intro h
  obtain ⟨-, -, hpolicy⟩ := users.mem_rows.mp h
  rw [users_policy, holds_usersPolicy_select, hviewer.isAdmin_iff] at hpolicy
  rcases hpolicy with hadmin | hfree
  · exact hrole hadmin
  · exact hfree viewer.id rfl hblock.symm

/-- The users that the pages of a join with `users` return are users that the query sees. -/
theorem mem_users_of_mem_page {ρ : Type} {us : List User} {rs : List ρ} {on : User → ρ → Bool}
    {f : User × ρ → ℕ} {plan : Plan (User × ρ)} {limit offset : ℕ}
    (h : other ∈ (page limit offset (orderByDesc f plan (join us rs on))).map Prod.fst) :
    other ∈ us := by
  obtain ⟨p, hp, rfl⟩ := exists_mem_page_map.mp ⟨limit, offset, h⟩
  exact (mem_join.mp hp).1

/-- Without an identity, the pages of followers and following contain exactly the active users at
the listed end of a follow. -/
theorem exists_page_listFollows {user end' : Follow → Uuid} (plan : Plan (User × Follow))
    {userId : Uuid} (hother : other ∈ db.users) :
    (∃ limit offset rows,
        (listFollows user end' plan userId limit offset).outcome none db = .ok rows ∧
          other ∈ rows) ↔
      (∃ r ∈ db.follows, end' r = userId ∧ user r = other.id) ∧ other.status = .active := by
  have hvisible : ∀ u : User, ((usersPolicy none db).select u).Holds := usersPolicy_select_none db
  have houtcome : (∃ limit offset rows,
      (listFollows user end' plan userId limit offset).outcome none db = .ok rows ∧
        other ∈ rows) ↔ ∃ p ∈ join (users.rows none db fun _ => true)
          (follows.rows none db fun r =>
            decide (end' r = userId) && accountIsVisible none db (user r))
          (fun u r => decide (user r = u.id)), p.1 = other := by
    rw [← exists_mem_page_map (f := fun p => p.2.createdAt)]
    constructor
    · rintro ⟨limit, offset, rows, hout, hmem⟩
      cases hout
      exact ⟨limit, offset, hmem⟩
    · rintro ⟨limit, offset, hmem⟩
      exact ⟨limit, offset, _, rfl, hmem⟩
  rw [houtcome]
  constructor
  · rintro ⟨⟨u, r⟩, hp, rfl⟩
    obtain ⟨-, hr, hon⟩ := mem_join.mp hp
    obtain ⟨hr, hcond, -⟩ := follows.mem_rows.mp hr
    simp only [Bool.and_eq_true, decide_eq_true_eq, accountIsVisible_iff] at hcond hon
    obtain ⟨hend, w, hw, hid, hactive, -⟩ := hcond
    have hwu : w = u := Table.eq_of_key_eq hw hother (hid.trans hon)
    exact ⟨⟨r, hr, hend, hon⟩, hwu ▸ hactive⟩
  · rintro ⟨⟨r, hr, hend, hon⟩, hactive⟩
    refine ⟨(other, r), mem_join.mpr ⟨?_, ?_, decide_eq_true hon⟩, rfl⟩
    · exact users.mem_rows.mpr ⟨hother, rfl, hvisible other⟩
    · refine follows.mem_rows.mpr ⟨hr, ?_, holds_followsPolicy_select⟩
      simp only [Bool.and_eq_true, decide_eq_true_eq, accountIsVisible_iff]
      exact ⟨hend, other, hother, hon.symm, hactive, hvisible other⟩

/-- The same, as a condition for hiding `other` on every page. -/
theorem forall_page_listFollows {user end' : Follow → Uuid} {userId : Uuid}
    (hother : other ∈ db.users) :
    (∀ (_ : Ctx) (plans : ListingPlans) limit offset rows,
        (listFollows user end' plans.follows userId limit offset).outcome none db = .ok rows →
          other ∉ rows) ↔
      (¬ ∃ r ∈ db.follows, end' r = userId ∧ user r = other.id) ∨ other.status ≠ .active := by
  rw [← not_and_or]
  constructor
  · intro hides hlisted
    obtain ⟨limit, offset, rows, hout, hmem⟩ :=
      (exists_page_listFollows .sequential hother).mpr hlisted
    exact hides (.fixed 0 0) ⟨.sequential, .sequential, .sequential⟩ limit offset rows hout hmem
  · intro hfree _ plans limit offset rows hout hmem
    exact hfree ((exists_page_listFollows plans.follows hother).mp
      ⟨limit, offset, rows, hout, hmem⟩)

/-- For a signed-in viewer who is no administrator and a user in a block with them, in either
direction: a listing hides the user exactly when `HiddenWhen` holds of it. -/
theorem hides_iff_hiddenWhen (listing : UserListing) (db : Db) (viewer other : User)
    (hviewer : viewer ∈ db.users) (hprovider : viewer.authProvider = authProvider)
    (hrole : viewer.role ≠ UserRole.admin) (hother : other ∈ db.users)
    (hblock : db.Blocked viewer.id other.id) :
    listing.Hides db viewer other ↔ listing.HiddenWhen db other := by
  have hstored : db.Stored viewer := ⟨viewer, hviewer, rfl, rfl⟩
  cases listing with
  | followers userId => exact forall_page_listFollows hother
  | following userId => exact forall_page_listFollows hother
  | closeFriends =>
    refine iff_of_true ?_ trivial
    intro c plans limit offset rows hout hmem
    have hrows := outcome_of_signedIn hviewer hprovider hout
    cases hrows
    exact not_mem_users_rows hstored hrole hblock (mem_users_of_mem_page hmem)
  | mutedUsers =>
    refine iff_of_true ?_ trivial
    intro c plans limit offset rows hout hmem
    have hrows := outcome_of_signedIn hviewer hprovider hout
    cases hrows
    exact not_mem_users_rows hstored hrole hblock (mem_users_of_mem_page hmem)

/-! ## A blocked follower of a third person -/

def ada : User := User.create 1 "clerk" "sub_1" "ada" "Ada" 0
def bob : User := User.create 2 "clerk" "sub_2" "bob" "Bob" 0
def cal : User := User.create 3 "clerk" "sub_3" "cal" "Cal" 0

/-- Ada has blocked Bob, who follows Cal. -/
def sharedFollowerDb : Db :=
  { Db.empty with
    users := ((Table.empty.insert ada).insert bob).insert cal
    follows := Table.empty.insert ⟨bob.id, cal.id, 0⟩
    blocks := Table.empty.insert ⟨ada.id, bob.id, 0⟩ }

/-- Two users in a block, and a third one whom both follow. -/
theorem hides_iff_hiddenWhen_sharedFollower :
    (UserListing.followers cal.id).Hides sharedFollowerDb ada bob ↔
      (UserListing.followers cal.id).HiddenWhen sharedFollowerDb bob :=
  hides_iff_hiddenWhen (.followers cal.id) sharedFollowerDb ada bob (by decide) rfl (by decide)
    (by decide) (by decide)

/-- Ada asks for the followers of Cal and finds Bob among them. -/
theorem listing_can_show_blocked :
    ¬ ∀ (listing : UserListing) (db : Db) (viewer other : User), viewer ∈ db.users →
      viewer.authProvider = authProvider → viewer.role ≠ UserRole.admin → other ∈ db.users →
      db.Blocked viewer.id other.id → listing.Hides db viewer other := by
  intro h
  have hides := h (.followers cal.id) sharedFollowerDb ada bob (by decide) rfl (by decide)
    (by decide) (by decide)
  exact hides (.fixed 0 0) ⟨.sequential, .sequential, .sequential⟩ 20 0 [bob] (by decide)
    (List.mem_singleton.mpr rfl)

end OburBackend
