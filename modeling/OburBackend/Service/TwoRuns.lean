import OburBackend.Service.Checkin
import OburBackend.Sql.TwoRuns

/-!
# Parts of the requests in two runs

The rules of `Sql/TwoRuns.lean` for what many service functions have in common: the checks of
`app/core/authz.py`, and adding a row, committing it and reading it back. `R` relates the data of
the two runs.
-/

namespace OburBackend

open Sql

variable {R : Db → Db → Prop} {me : Identity}

/-- The same users, blocks and close friends: all that ownership and visibility depend on. -/
structure Db.SamePeople (s s' : Db) : Prop where
  users : s'.users = s.users
  blocks : s'.blocks = s.blocks
  closeFriends : s'.closeFriends = s.closeFriends

/-- Taking the one row of a result depends on the rows alone. -/
theorem alike_scalarOneOrNone {ρ : Type} (rows : List ρ) : (scalarOneOrNone rows).Alike R me := by
  match rows with
  | [] | [_] | _ :: _ :: _ => trivial

/-! ## Authorization -/

section Authz

variable (hR : ∀ s s', R s s' → s.SamePeople s')

include hR

/-- Blocks are looked up alike. -/
theorem alike_isBlockedBetween (userA userB : Uuid) : (isBlockedBetween userA userB).Alike R me :=
  alike_query fun s s' h => by rw [rlsIsBlockedPair, rlsIsBlockedPair, (hR s s' h).blocks]

/-- So are close friends. -/
theorem alike_isCloseFriend (ownerId viewerId : Uuid) :
    (isCloseFriend ownerId viewerId).Alike R me := by
  refine Prog.Alike.bind (alike_query fun s s' h => ?_) fun rows =>
    (alike_scalarOneOrNone rows).bind fun _ => trivial
  have hpolicy : closeFriends.policy me s' = closeFriends.policy me s := by
    simp only [closeFriends_policy, closeFriendsPolicy, rlsIsOwnerOrAdmin, (hR s s' h).users]
  simp only [TableDef.rows, TableDef.visible, closeFriends_read, (hR s s' h).closeFriends, hpolicy]

/-- So is whether a viewer may view what an owner shows to some. -/
theorem alike_canView (ownerId : Uuid) (visibility : String) (viewer : Option User) :
    (canView ownerId visibility viewer).Alike R me := by
  unfold canView
  split
  · trivial
  · refine Prog.Alike.bind ?_ fun blocked => ?_
    · cases viewer with
      | none => trivial
      | some v => exact alike_isBlockedBetween hR _ _
    · split_ifs
      all_goals first
        | trivial
        | cases viewer with
          | none => trivial
          | some v => exact alike_isCloseFriend hR _ _

/-- The check of visibility and ownership passes in both runs, or fails in both alike. -/
theorem alike_ensureVisibleAndOwned (ownerId : Uuid) (visibility : String) (currentUser : User)
    (e : ErrorClass) (m : String) (e' : ErrorClass) (m' : String) :
    (ensureVisibleAndOwned ownerId visibility currentUser e m e' m').Alike R me := by
  unfold ensureVisibleAndOwned
  split
  · trivial
  · refine (alike_canView hR _ _ _).bind fun visible => ?_
    cases visible <;> trivial

end Authz

/-- The check of the date does not look at the data. -/
theorem alike_ensureVisitedAtNotFuture (c : Ctx) (visitedAt : Option Date) (visitedTz : String) :
    (ensureVisitedAtNotFuture c visitedAt visitedTz).Alike R me := by
  unfold ensureVisitedAtNotFuture
  cases c.localToday visitedTz with
  | none => trivial
  | some localToday =>
    cases visitedAt with
    | none => trivial
    | some d =>
      dsimp only
      split <;> trivial

/-! ## Adding a row -/

section Store

variable {ρ π : Type} {key : ρ → π} [DecidableEq π] {T : DbTable key}

/-- Reading back finds the same row, if the data agree on it. -/
theorem alike_refresh {k : π} (h : ∀ s s', R s s' → T.lookup me s' k = T.lookup me s k) :
    (refresh T k).Alike R me := by
  refine (alike_get h).bind fun found => ?_
  cases found <;> trivial

/-- So it does after a commit. -/
theorem alike_commit_refresh {k : π} (h : ∀ s s', R s s' → T.lookup me s' k = T.lookup me s k) :
    (commit.bind fun _ => refresh T k : Service ρ).Alike R me :=
  alike_commit.bind fun _ => alike_refresh h

end Store

end OburBackend
