import OburBackend.Service.Account
import OburBackend.Service.Reaction
import OburBackend.Service.TwoRuns
import OburBackend.Service.Venue

/-!
# A soft-deleted check-in and one that has been removed

Neither the policies nor `can_view` know of `deleted_at`. Each operation leaves a soft-deleted
check-in out by itself, for its owner and administrators as for everybody. The relation `Buried`
says what then cannot be told: data with the deleted row, its likes and bookmarks, and the same data
without them. Every operation does the same on both and leaves them related.
-/

namespace OburBackend

open Sql

/-- The data without the check-in, its likes and its bookmarks. -/
def Db.withoutCheckin (checkinId : Uuid) (db : Db) : Db :=
  { db with
    checkins := db.checkins.erase fun c => decide (c.id = checkinId)
    checkinLikes := db.checkinLikes.erase fun m => decide (m.targetId = checkinId)
    checkinBookmarks := db.checkinBookmarks.erase fun m => decide (m.targetId = checkinId) }

/-- Data in which the check-in `r` is as it is here and stays as long as its owner does, and that
data without it. -/
structure Buried (r : Checkin) (s s' : Db) : Prop where
  eq : s' = s.withoutCheckin r.id
  row : ∀ c ∈ s.checkins, c.id = r.id → c = r
  kept : s.hasUser r.userId = true → r ∈ s.checkins

namespace Buried

variable {r : Checkin} {s s' : Db} {me : Identity}

/-- Users, blocks and close friends are the same. -/
theorem samePeople (h : Buried r s s') : s.SamePeople s' := by
  obtain rfl := h.eq
  exact ⟨rfl, rfl, rfl⟩

/-! ## Other check-ins -/

/-- Another check-in is as it was. -/
theorem checkin_get (h : Buried r s s') {k : Uuid} (hk : k ≠ r.id) :
    s'.checkins.get k = s.checkins.get k := by
  obtain rfl := h.eq
  exact Table.get_erase_of_not fun c _ hid => decide_eq_false fun hc => hk (hid.symm.trans hc)

/-- And is seen as it was. -/
theorem checkin_lookup (h : Buried r s s') {k : Uuid} (hk : k ≠ r.id) :
    checkins.lookup me s' k = checkins.lookup me s k := by
  obtain rfl := h.eq
  exact lookup_of_erase rfl (fun _ _ _ => rfl) fun c _ hid _ =>
    decide_eq_false fun hc => hk (hid.symm.trans hc)

/-- The deleted row is not found, or found and left out. -/
theorem checkin_lookup_self (h : Buried r s s') : checkins.lookup me s' r.id = none ∧
    (checkins.lookup me s r.id = none ∨ checkins.lookup me s r.id = some r) := by
  constructor
  · obtain rfl := h.eq
    refine checkins.lookup_eq_none.mpr fun c hc hid _ => ?_
    exact of_decide_eq_false (Table.mem_erase.mp hc).2 hid
  · cases hlookup : checkins.lookup me s r.id with
    | none => exact .inl rfl
    | some c =>
      obtain ⟨hc, hid, -⟩ := checkins.lookup_eq_some.mp hlookup
      exact .inr (congrArg some (h.row c hc hid))

/-- A check-in that is not deleted is another one. -/
theorem ne_of_live (h : Buried r s s') (hdel : r.deletedAt.isSome = true) {c : Checkin}
    (hc : c ∈ s.checkins) (hlive : c.deletedAt.isNone = true) : c.id ≠ r.id := by
  intro hid
  rw [h.row c hc hid, Option.isNone_iff_eq_none] at hlive
  rw [hlive] at hdel
  cases hdel

/-- A query that leaves deleted check-ins out does not tell whether the row is there. -/
theorem checkin_rows (h : Buried r s s') (hdel : r.deletedAt.isSome = true) {q : Checkin → Bool}
    (hq : ∀ c, q c = true → c.deletedAt.isNone = true) :
    checkins.rows me s' q = checkins.rows me s q := by
  have hlive : ∀ c ∈ s.checkins, q c = true → c.id ≠ r.id :=
    fun c hc hqc => h.ne_of_live hdel hc (hq c hqc)
  obtain rfl := h.eq
  exact rows_of_erase rfl (fun _ _ _ => rfl) fun c hc hqc _ => decide_eq_false (hlive c hc hqc)

end Buried

/-- What follows the lookup of a check-in has to take the deleted row for none, and to do the same
for other check-ins. -/
theorem alike_resolve {α : Type} {r : Checkin} {me : Identity} {k : Uuid}
    {f : Option Checkin → Service α}
    (hself : f (some r) = f none ∧ (f none).Alike (Buried r) me)
    (hother : k ≠ r.id → ∀ found, (f found).Alike (Buried r) me) :
    ((checkins.get k).bind f).Alike (Buried r) me := by
  by_cases hk : k = r.id
  · subst hk
    refine alike_get_bind.mpr fun s s' h => ?_
    obtain ⟨hgone, hnone | hsome⟩ := @Buried.checkin_lookup_self r s s' me h
    · rw [hgone, hnone]
      exact ⟨rfl, hself.2⟩
    · rw [hgone, hsome, hself.1]
      exact ⟨rfl, hself.2⟩
  · exact (alike_get fun s s' h => h.checkin_lookup hk).bind (hother hk)

/-- `get_checkin` raises for the deleted row, whatever was to follow. -/
theorem alike_getCheckin_bind {α : Type} {r : Checkin} {me : Identity} {k : Uuid}
    (hdel : r.deletedAt.isSome = true) (viewer : Option User) {f : Checkin → Service α}
    (hf : k ≠ r.id → ∀ c, (f c).Alike (Buried r) me) :
    ((getCheckin k viewer).bind f).Alike (Buried r) me := by
  simp only [getCheckin, Prog.bind_eq, Prog.bind_assoc]
  refine alike_resolve ⟨?_, trivial⟩ fun hk found => ?_
  · dsimp only
    rw [if_pos hdel]
  · cases found with
    | none => trivial
    | some c =>
      dsimp only
      split
      · trivial
      · rw [Prog.bind_assoc]
        refine (alike_canView (fun s s' h => h.samePeople) _ _ _).bind fun allowed => ?_
        cases allowed with
        | false => trivial
        | true => exact hf hk c

/-! ## Tables of which no row goes -/

/-- A table that has nothing to do with the check-in. -/
structure Apart {ρ π : Type} {key : ρ → π} (r : Checkin) (T : DbTable key) : Prop where
  read : ∀ s, T.read (Db.withoutCheckin r.id s) = T.read s
  policy : ∀ me s, T.policy me (Db.withoutCheckin r.id s) = T.policy me s
  constraints : ∀ s, T.constraints (Db.withoutCheckin r.id s) = T.constraints s
  write : ∀ s f, T.write f (Db.withoutCheckin r.id s) = (T.write f s).withoutCheckin r.id
  checkins : ∀ s f, (T.write f s).checkins = s.checkins
  users : ∀ s f, (T.write f s).users = s.users

section Apart

variable {r : Checkin} {me : Identity} {s s' : Db}

/-- Follows have nothing to do with it. -/
theorem apart_follows : Apart r follows :=
  ⟨fun _ => rfl, fun _ _ => rfl, fun _ => rfl, fun _ _ => rfl, fun _ _ => rfl, fun _ _ => rfl⟩

/-- Nor have blocks. -/
theorem apart_blocks : Apart r blocks :=
  ⟨fun _ => rfl, fun _ _ => rfl, fun _ => rfl, fun _ _ => rfl, fun _ _ => rfl, fun _ _ => rfl⟩

/-- Nor have venues. -/
theorem apart_venues : Apart r venues :=
  ⟨fun _ => rfl, fun _ _ => rfl, fun _ => rfl, fun _ _ => rfl, fun _ _ => rfl, fun _ _ => rfl⟩

/-- Nor have likes of lists. -/
theorem apart_listLikes : Apart r listLikes :=
  ⟨fun _ => rfl, fun _ _ => rfl, fun _ => rfl, fun _ _ => rfl, fun _ _ => rfl, fun _ _ => rfl⟩

/-- Nor have bookmarks of lists. -/
theorem apart_listBookmarks : Apart r listBookmarks :=
  ⟨fun _ => rfl, fun _ _ => rfl, fun _ => rfl, fun _ _ => rfl, fun _ _ => rfl, fun _ _ => rfl⟩

/-- Nor have notifications. -/
theorem apart_notifications : Apart r notifications :=
  ⟨fun _ => rfl, fun _ _ => rfl, fun _ => rfl, fun _ _ => rfl, fun _ _ => rfl, fun _ _ => rfl⟩

/-- Nor have reports, which refer to it by its id alone. -/
theorem apart_contentReports : Apart r contentReports :=
  ⟨fun _ => rfl, fun _ _ => rfl, fun _ => rfl, fun _ _ => rfl, fun _ _ => rfl, fun _ _ => rfl⟩

namespace Apart

variable {ρ π : Type} {key : ρ → π} {T : DbTable key} (hT : Apart r T)

include hT

/-- Writing such a table keeps the two related. -/
theorem buried_write (h : Buried r s s') (f : Table key → Table key) :
    Buried r (T.write f s) (T.write f s') := by
  refine ⟨?_, ?_, ?_⟩
  · rw [h.eq, hT.write]
  · rw [hT.checkins]
    exact h.row
  · rw [Db.hasUser, hT.checkins, hT.users]
    exact h.kept

/-- It shows the same rows in both. -/
theorem visible (h : Buried r s s') : T.visible me s' = T.visible me s := by
  funext x
  simp only [TableDef.visible, h.eq, hT.policy]

/-- A query finds the same of them. -/
theorem rows (h : Buried r s s') (q : ρ → Bool) : T.rows me s' q = T.rows me s q := by
  rw [TableDef.rows, TableDef.rows, hT.visible h, h.eq, hT.read]

variable [DecidableEq π]

/-- So does a lookup by primary key. -/
theorem lookup (h : Buried r s s') (k : π) : T.lookup me s' k = T.lookup me s k := by
  rw [TableDef.lookup, TableDef.lookup, hT.visible h, h.eq, hT.read]

/-- An insert passes in both, or fails in both alike. -/
theorem alike_insert (x : ρ) : (T.insert x : Service Unit).Alike (Buried r) me := by
  refine Sql.alike_insert ?_ ?_ ?_ ?_ fun s s' h _ _ => hT.buried_write h _
  all_goals
    intro s s' h
    simp only [h.eq, hT.read, hT.policy, hT.constraints]

/-- What has been written is read back alike. -/
theorem alike_commit_refresh (k : π) :
    (commit.bind fun _ => refresh T k : Service ρ).Alike (Buried r) me :=
  OburBackend.alike_commit_refresh fun _ _ h => hT.lookup h k

omit [DecidableEq π] in
/-- Deleting rows of the table keeps the two related. -/
theorem buried_erase (herase : ∀ p s, T.erase p s = T.write (·.erase p) s) (h : Buried r s s')
    (p : ρ → Bool) : Buried r (T.erase p s) (T.erase p s') := by
  rw [herase, herase]
  exact hT.buried_write h _

/-- So does the statement that deletes rows past the policies. -/
theorem alike_purge (herase : ∀ p s, T.erase p s = T.write (·.erase p) s) {st : Stmt}
    {q : Db → ρ → Bool} (hq : ∀ s s', Buried r s s' → q s' = q s) :
    (T.definerDelete st q : Service Unit).Alike (Buried r) me := by
  refine alike_definerDelete fun s s' h => ?_
  have hread : T.read s' = T.read s := by rw [h.eq, hT.read]
  simp only [TableDef.definerDeleteWrite, hq s s' h, hread]
  exact hT.buried_erase herase h _

/-- An update passes in both, or fails in both alike. -/
theorem alike_update (k : π) (f : ρ → Option ρ) (hf : ∀ x x', f x = some x' → key x' = key x) :
    (T.update k f hf : Service Unit).Alike (Buried r) me := by
  refine Sql.alike_update (fun s s' h => hT.lookup h k) ?_ ?_ fun s s' h => hT.buried_write h _
  · intro s s' h
    rw [h.eq, hT.policy]
  · intro s s' _ _ h _ _
    rw [h.eq, hT.constraints]

end Apart

end Apart

/-! ## Likes and bookmarks -/

/-- A table of marks on check-ins: those on the deleted row go with it. -/
structure MarksCheckins (r : Checkin) (T : DbTable Mark.key) : Prop where
  read : ∀ s, T.read (Db.withoutCheckin r.id s) =
    (T.read s).erase fun m => decide (m.targetId = r.id)
  select : ∀ me s s' m, Buried r s s' → m.targetId ≠ r.id →
    (((T.policy me s').select m).Holds ↔ ((T.policy me s).select m).Holds)
  insert : ∀ me s s' m, Buried r s s' → m.targetId ≠ r.id →
    (((T.policy me s').insert m).Holds ↔ ((T.policy me s).insert m).Holds)
  constraints : ∀ s, T.constraints s = checkinMarksConstraints s
  write : ∀ s s' f, Buried r s s' →
    (f (T.read s)).erase (fun m => decide (m.targetId = r.id)) =
      f ((T.read s).erase fun m => decide (m.targetId = r.id)) →
    Buried r (T.write f s) (T.write f s')
  erase_congr : ∀ s p p', (T.read s).erase p = (T.read s).erase p' → T.erase p s = T.erase p' s
  erase : ∀ s s' p, Buried r s s' → Buried r (T.erase p s) (T.erase p s')

section Marks

variable {r : Checkin} {T : DbTable Mark.key} {me : Identity} {s s' : Db}

/-- The policy function answers the same about another check-in. -/
theorem canViewCheckin_eq (h : Buried r s s') {k : Uuid} (hk : k ≠ r.id) :
    rlsCanViewCheckin me s' k = rlsCanViewCheckin me s k := by
  rw [rlsCanViewCheckin, rlsCanViewCheckin, h.checkin_get hk]
  obtain rfl := h.eq
  rfl

/-- Whether a mark on another check-in may be added. -/
theorem insertMark_iff (h : Buried r s s') {userId k : Uuid} (hk : k ≠ r.id) :
    ((rlsIsOwnerOrAdmin me s' userId).and (rlsCanViewCheckin me s' k)).Holds ↔
      ((rlsIsOwnerOrAdmin me s userId).and (rlsCanViewCheckin me s k)).Holds := by
  rw [canViewCheckin_eq h hk]
  obtain rfl := h.eq
  rfl

/-- Likes of check-ins are such a table. -/
theorem marksCheckins_likes : MarksCheckins r checkinLikes where
  read _ := rfl
  select me s s' m h hm := by
    show (rlsCanViewCheckin me s' m.targetId).Holds ↔ (rlsCanViewCheckin me s m.targetId).Holds
    rw [canViewCheckin_eq h hm]
  insert _ _ _ _ h hm := insertMark_iff h hm
  constraints _ := rfl
  write s s' f h hf := by
    refine ⟨?_, h.row, h.kept⟩
    obtain rfl := h.eq
    exact congrArg (fun t => { s.withoutCheckin r.id with checkinLikes := t }) hf.symm
  erase_congr s _ _ hp := congrArg (fun t => { s with checkinLikes := t }) hp
  erase s s' p h := by
    refine ⟨?_, h.row, h.kept⟩
    obtain rfl := h.eq
    exact congrArg (fun t => { s.withoutCheckin r.id with checkinLikes := t })
      (Table.erase_comm _ _ _)

/-- So are bookmarks of check-ins. -/
theorem marksCheckins_bookmarks : MarksCheckins r checkinBookmarks where
  read _ := rfl
  select me s s' m h _ := by
    obtain rfl := h.eq
    rfl
  insert _ _ _ _ h hm := insertMark_iff h hm
  constraints _ := rfl
  write s s' f h hf := by
    refine ⟨?_, h.row, h.kept⟩
    obtain rfl := h.eq
    exact congrArg (fun t => { s.withoutCheckin r.id with checkinBookmarks := t }) hf.symm
  erase_congr s _ _ hp := congrArg (fun t => { s with checkinBookmarks := t }) hp
  erase s s' p h := by
    refine ⟨?_, h.row, h.kept⟩
    obtain rfl := h.eq
    exact congrArg (fun t => { s.withoutCheckin r.id with checkinBookmarks := t })
      (Table.erase_comm _ _ _)

variable (hT : MarksCheckins r T)

include hT

/-- A mark on another check-in is stored in both or in neither. -/
theorem MarksCheckins.get (h : Buried r s s') {u k : Uuid} (hk : k ≠ r.id) :
    (T.read s').get (u, k) = (T.read s).get (u, k) := by
  rw [h.eq, hT.read]
  refine Table.get_erase_of_not fun m _ hkey => decide_eq_false fun hm => hk ?_
  rw [← hm]
  exact (congrArg Prod.snd hkey).symm

/-- And it is seen in both or in neither. -/
theorem MarksCheckins.lookup (h : Buried r s s') {u k : Uuid} (hk : k ≠ r.id) :
    T.lookup me s' (u, k) = T.lookup me s (u, k) := by
  have hread : T.read s' = (T.read s).erase fun m => decide (m.targetId = r.id) := by
    rw [h.eq, hT.read]
  refine lookup_of_erase hread (fun m _ hm => ?_) fun m _ hkey _ => decide_eq_false fun hm => hk ?_
  · exact decide_eq_decide.mpr (hT.select me s s' m h (of_decide_eq_false hm))
  · rw [← hm]
    exact (congrArg Prod.snd hkey).symm

/-- A deletion that takes the same marks on other check-ins. -/
theorem alike_purgeMarks {st : Stmt} {q : Db → Mark → Bool}
    (hq : ∀ s s' m, Buried r s s' → m.targetId ≠ r.id → q s' m = q s m) :
    (T.definerDelete st q : Service Unit).Alike (Buried r) me := by
  refine alike_definerDelete fun s s' h => ?_
  rw [T.definerDeleteWrite_effect (hT.erase_congr s),
    T.definerDeleteWrite_effect (hT.erase_congr s')]
  have hsame : T.erase (q s') s' = T.erase (q s) s' := by
    refine hT.erase_congr s' _ _ (Table.erase_congr fun m hm => hq s s' m h ?_)
    rw [h.eq, hT.read, Table.mem_erase] at hm
    exact of_decide_eq_false hm.2
  rw [hsame]
  exact hT.erase s s' (q s) h

/-- Marking another check-in. -/
theorem alike_addMark (c : Ctx) (u : Uuid) {k : Uuid} (hk : k ≠ r.id) {notify : Service Unit}
    (hnotify : notify.Alike (Buried r) me) : (addMark T c u k notify).Alike (Buried r) me := by
  refine (alike_get fun s s' h => hT.lookup h hk).bind fun found => ?_
  cases found with
  | some m => trivial
  | none =>
    refine Prog.Alike.bind ?_ fun _ => hnotify.bind fun _ =>
      alike_commit_refresh fun s s' h => hT.lookup h hk
    refine alike_insert ?_ ?_ ?_ ?_ ?_
    · exact fun s s' h => hT.insert me s s' _ h hk
    · exact fun s s' h => hT.select me s s' _ h hk
    · exact fun s s' h => iff_of_eq (congrArg (· = none) (hT.get h hk))
    · intro s s' h
      have hcheckin : s'.hasCheckin k = s.hasCheckin k := by
        rw [Db.hasCheckin, Db.hasCheckin, h.checkin_get hk]
      have huser : s'.hasUser u = s.hasUser u := by
        rw [Db.hasUser, Db.hasUser, h.samePeople.users]
      rw [hT.constraints, hT.constraints, checkinMarksConstraints, checkinMarksConstraints,
        hcheckin, huser]
    · intro s s' h hfree _
      exact hT.write s s' _ h (Table.erase_insert hfree (decide_eq_false hk))

end Marks

/-! ## The operations -/

section Operations

variable {r : Checkin} {me : Identity} {c : Ctx} (hdel : r.deletedAt.isSome = true)

/-- The owner is notified in both alike. -/
theorem alike_notifyLike (ownerId : Uuid) (type : NotificationType) (actorId : Uuid)
    (targetType : NotificationTargetType) (targetId : Uuid) :
    (notifyLike c ownerId type actorId targetType targetId).Alike (Buried r) me := by
  unfold notifyLike
  split
  · refine Prog.Alike.bind ?_ fun _ => trivial
    exact (apart_notifications.alike_insert _).bind fun _ => trivial
  · trivial

include hdel

/-- A like of the deleted check-in is refused in both, and another one is added in both. -/
theorem alike_likeCheckin (checkinId : Uuid) (currentUser : User) :
    (likeCheckin c checkinId currentUser).Alike (Buried r) me :=
  alike_getCheckin_bind hdel _ fun hk _ =>
    alike_addMark marksCheckins_likes c _ hk (alike_notifyLike _ _ _ _ _)

/-- So it is with bookmarks. -/
theorem alike_bookmarkCheckin (checkinId : Uuid) (currentUser : User) :
    (bookmarkCheckin c checkinId currentUser).Alike (Buried r) me :=
  alike_getCheckin_bind hdel _ fun hk _ => alike_addMark marksCheckins_bookmarks c _ hk trivial

/-- A report is returned or added in both, or refused in both alike. -/
theorem alike_createContentReport (reporter : User) (targetType : ContentReportTargetType)
    (targetId : Uuid) (reason : ContentReportReason) (details : Option String) :
    (createContentReport c reporter targetType targetId reason details).Alike (Buried r) me := by
  refine Prog.Alike.bind (alike_query fun s s' h => apart_contentReports.rows h _) fun rows =>
    (alike_scalarOneOrNone rows).bind fun found => ?_
  have hstore : ∀ x : ContentReport, ((contentReports.insert x).bind fun _ => commit.bind fun _ =>
      refresh contentReports x.id : Service ContentReport).Alike (Buried r) me :=
    fun x => (apart_contentReports.alike_insert x).bind fun _ =>
      apart_contentReports.alike_commit_refresh x.id
  cases found with
  | some report => trivial
  | none =>
    dsimp only
    split
    · exact alike_getCheckin_bind hdel _ fun _ _ => hstore _
    · exact hstore _

/-- No listing of a venue shows it. -/
theorem alike_listCheckinsForVenue (plan : Plan Checkin) (venueId : Uuid) (viewer : Option User)
    (limit offset : ℕ) :
    (listCheckinsForVenue plan venueId viewer limit offset).Alike (Buried r) me := by
  refine alike_query fun s s' h => ?_
  have hrows := @Buried.checkin_rows r s s' me h hdel (fun x => decide (x.venueId = venueId) &&
    (x.deletedAt.isNone && (accountIsVisible me s x.userId &&
      listable me s viewer (isOwnerOrAdmin x.userId) x.userId x.visibility))) fun x hx => ?_
  · obtain rfl := h.eq
    exact congrArg (fun rows => page limit offset (orderByDesc Checkin.createdAt plan rows)) hrows
  · rw [Bool.and_eq_true, Bool.and_eq_true] at hx
    exact hx.2.1

/-- Nor does one of its owner. -/
theorem alike_listCheckinsForUser (plan : Plan Checkin) (targetUserId : Uuid)
    (viewer : Option User) (limit offset : ℕ) :
    (listCheckinsForUser plan targetUserId viewer limit offset).Alike (Buried r) me := by
  refine alike_query fun s s' h => ?_
  have hrows := @Buried.checkin_rows r s s' me h hdel (fun x => decide (x.userId = targetUserId) &&
    (x.deletedAt.isNone && (accountIsVisible me s x.userId &&
      listable me s viewer (isOwnerOrAdmin targetUserId) x.userId x.visibility))) fun x hx => ?_
  · obtain rfl := h.eq
    exact congrArg (fun rows => page limit offset (orderByDesc Checkin.createdAt plan rows)) hrows
  · rw [Bool.and_eq_true, Bool.and_eq_true] at hx
    exact hx.2.1

/-- A bookmark of the deleted row joins with nothing. -/
theorem alike_listBookmarkedCheckins (plan : Plan (Checkin × CheckinBookmark)) (userId : Uuid)
    (limit offset : ℕ) :
    (listBookmarkedCheckins plan userId limit offset).Alike (Buried r) me := by
  refine alike_query fun s s' h => ?_
  have hrows := @Buried.checkin_rows r s s' me h hdel
    (fun x => x.deletedAt.isNone && bookmarkListable me s userId x.userId x.visibility)
    fun x hx => (Bool.and_eq_true_iff.mp hx).1
  have hjoin := @join_filter _ _
    (checkins.rows me s fun x =>
      x.deletedAt.isNone && bookmarkListable me s userId x.userId x.visibility)
    (checkinBookmarks.rows me s fun b => decide (b.userId = userId))
    (fun x b => decide (b.targetId = x.id)) (fun b => !decide (b.targetId = r.id)) ?_
  · have hmarks : (checkinBookmarks.rows me s' fun b => decide (b.userId = userId)) =
        (checkinBookmarks.rows me s fun b => decide (b.userId = userId)).filter
          fun b => !decide (b.targetId = r.id) := by
      obtain rfl := h.eq
      exact List.filter_comm _ _ _
    have hpairs : join
        (checkins.rows me s' fun x =>
          x.deletedAt.isNone && bookmarkListable me s userId x.userId x.visibility)
        (checkinBookmarks.rows me s' fun b => decide (b.userId = userId))
        (fun x b => decide (b.targetId = x.id)) =
      join
        (checkins.rows me s fun x =>
          x.deletedAt.isNone && bookmarkListable me s userId x.userId x.visibility)
        (checkinBookmarks.rows me s fun b => decide (b.userId = userId))
        fun x b => decide (b.targetId = x.id) := by
      rw [hrows, hmarks, hjoin]
    obtain rfl := h.eq
    exact congrArg (fun pairs => (page limit offset
      (orderByDesc (fun p => p.2.createdAt) plan pairs)).map Prod.fst) hpairs
  · intro x hx b _ hon
    obtain ⟨hx, hlive, -⟩ := checkins.mem_rows.mp hx
    rw [Bool.not_eq_true', decide_eq_false_iff_not, of_decide_eq_true hon]
    exact h.ne_of_live hdel hx (Bool.and_eq_true_iff.mp hlive).1

/-! ### Changing a check-in -/

omit hdel in
/-- Setting columns of another check-in. -/
theorem alike_updateOther {k : Uuid} (hk : k ≠ r.id) (f : Checkin → Option Checkin)
    (hf : ∀ x x', f x = some x' → x'.id = x.id) :
    (checkins.update k f hf : Service Unit).Alike (Buried r) me := by
  refine alike_update (fun s s' h => h.checkin_lookup hk) ?_ ?_ ?_
  · intro s s' h
    obtain rfl := h.eq
    rfl
  · intro s s' _ _ h _ _
    obtain rfl := h.eq
    rfl
  · intro s s' h
    have hrow := h.row
    have hkept := h.kept
    obtain rfl := h.eq
    have hset : ∀ x, x ∈ (checkins.set k f hf s).checkins ↔
        ∃ y ∈ s.checkins, (if decide (y.id = k) then (f y).getD y else y) = x :=
      fun _ => @Table.mem_modify _ _ _ _ _ _ (TableDef.key_getD hf) _
    refine ⟨?_, fun x hx hid => ?_, fun howner => ?_⟩
    · have herase : (s.checkins.modify (fun x => decide (x.id = k)) (fun x => (f x).getD x)
          (TableDef.key_getD hf)).erase (fun x => decide (x.id = r.id)) =
            (s.checkins.erase fun x => decide (x.id = r.id)).modify (fun x => decide (x.id = k))
              (fun x => (f x).getD x) (TableDef.key_getD hf) :=
        Table.erase_modify fun x => decide_eq_decide.mpr (by rw [TableDef.key_getD hf])
      exact congrArg (fun t => { s.withoutCheckin r.id with checkins := t }) herase.symm
    · -- the row set has the key `k`, so it is not the deleted one
      obtain ⟨x', hx', rfl⟩ := (hset x).mp hx
      have hkeep : x'.id = r.id := by
        split at hid
        · exact (TableDef.key_getD hf x').symm.trans hid
        · exact hid
      rw [if_neg (by simpa [hkeep] using Ne.symm hk)]
      exact hrow x' hx' hkeep
    · exact (hset r).mpr ⟨r, hkept howner, if_neg (by simpa using Ne.symm hk)⟩

/-- It cannot be edited in either, and others are edited in both. -/
theorem alike_updateCheckin (checkinId : Uuid) (currentUser : User) (updates : CheckinUpdates) :
    (updateCheckin c checkinId currentUser updates).Alike (Buried r) me := by
  refine alike_resolve ⟨?_, trivial⟩ fun hk found => ?_
  · dsimp only
    rw [if_pos hdel]
  · cases found with
    | none => trivial
    | some x =>
      have hreload : (commit.bind fun _ => refresh checkins checkinId : Service Checkin).Alike
          (Buried r) me := alike_commit_refresh fun s s' h => h.checkin_lookup hk
      have hedit : ((checkins.update checkinId (updates.changed x).set
          (updates.changed x).set_id).bind fun _ => commit.bind fun _ =>
            refresh checkins checkinId : Service Checkin).Alike (Buried r) me :=
        (alike_updateOther hk _ _).bind fun _ => hreload
      dsimp only
      split
      · trivial
      · refine (alike_ensureVisibleAndOwned (fun s s' h => h.samePeople) _ _ _ _ _ _ _).bind
          fun _ => ?_
        cases updates.visitedAt with
        | none =>
          dsimp only
          split
          · exact hedit
          · exact hreload
        | some visitedAt =>
          refine (alike_ensureVisitedAtNotFuture _ _ _).bind fun _ => ?_
          split
          · exact hedit
          · exact hreload

/-- It cannot be deleted again in either, and others are deleted in both. -/
theorem alike_softDeleteCheckin (checkinId : Uuid) (currentUser : User) :
    (softDeleteCheckin c checkinId currentUser).Alike (Buried r) me := by
  refine alike_resolve ⟨?_, trivial⟩ fun hk found => ?_
  · dsimp only
    rw [if_pos hdel]
  · cases found with
    | none => trivial
    | some x =>
      dsimp only
      split
      · trivial
      · refine (alike_ensureVisibleAndOwned (fun s s' h => h.samePeople) _ _ _ _ _ _ _).bind
          fun _ => ?_
        exact (alike_updateOther hk _ _).bind fun _ => trivial

/-! ### Venues -/

omit hdel in
/-- A venue is found alike. -/
theorem alike_getVenue (venueId : Uuid) : (getVenue venueId).Alike (Buried r) me := by
  refine (alike_get fun s s' h => apart_venues.lookup h venueId).bind fun found => ?_
  cases found <;> trivial

/-- And verified alike by an administrator. -/
theorem alike_verifyVenueByAdmin (venueId : Uuid) :
    (verifyVenueByAdmin venueId).Alike (Buried r) me := by
  refine (alike_getVenue venueId).bind fun venue => ?_
  split
  · trivial
  · refine Prog.Alike.bind (alike_query fun s s' h => ?_) fun count => ?_
    · rw [countVisiblePublicCheckinUsers, countVisiblePublicCheckinUsers, h.checkin_rows hdel]
      intro x hx
      rw [Bool.and_eq_true, Bool.and_eq_true] at hx
      exact hx.2.2
    · split
      · trivial
      · exact (apart_venues.alike_update _ _ _).bind fun _ =>
          apart_venues.alike_commit_refresh venueId

/-- The deleted check-in does not count for the verification of its venue. -/
theorem eligible_eq {s s' : Db} (h : Buried r s s') (venueId : Uuid) (minCheckins : ℕ) :
    eligible s' venueId minCheckins = eligible s venueId minCheckins := by
  have hlive : ∀ x ∈ s.checkins, (decide (x.venueId = venueId) &&
      (decide (x.visibility = Visibility.pub) && x.deletedAt.isNone)) = true →
        decide (x.id = r.id) = false := by
    intro x hx hcounts
    rw [Bool.and_eq_true, Bool.and_eq_true] at hcounts
    exact decide_eq_false (h.ne_of_live hdel hx hcounts.2.2)
  have hcount : countDistinctPublicCheckinUsers s' venueId =
      countDistinctPublicCheckinUsers s venueId := by
    obtain rfl := h.eq
    exact congrArg (fun rows => (rows.map Checkin.userId).dedup.length) (Table.select_erase hlive)
  funext v
  rw [eligible, eligible, hcount]

/-- The deleted check-in does not count for the verification of its venue. -/
theorem alike_evaluateVenueVerification (venueId : Uuid) :
    (evaluateVenueVerification venueId).Alike (Buried r) me := by
  refine Prog.Alike.bind ⟨?_, trivial, fun _ => trivial⟩ fun _ =>
    Prog.Alike.bind (alike_query fun s s' h => apart_venues.rows h _) fun _ => trivial
  intro s s' h
  have hids : (s'.venues.select (eligible s' venueId minCheckinsForAutoVerification)) =
      s.venues.select (eligible s venueId minCheckinsForAutoVerification) := by
    rw [eligible_eq hdel h]
    obtain rfl := h.eq
    rfl
  dsimp only
  rw [hids]
  refine ⟨?_, h.row, h.kept⟩
  obtain rfl := h.eq
  rfl

/-- A new check-in, with an id of its own, is added in both. -/
theorem alike_createCheckin (args : CheckinCreate) (hnew : c.uuid4 0 ≠ r.id) :
    (createCheckin c args).Alike (Buried r) me := by
  have hinsert : (checkins.insert (args.row c) : Service Unit).Alike (Buried r) me := by
    refine alike_insert ?_ ?_ (fun s s' h => ?_) ?_ fun s s' h hfree _ => ⟨?_, ?_, fun howner =>
      Table.mem_insert_of_mem (h.kept howner)⟩
    · intro s s' h
      obtain rfl := h.eq
      rfl
    · intro s s' h
      obtain rfl := h.eq
      rfl
    · show s'.checkins.get (c.uuid4 0) = none ↔ s.checkins.get (c.uuid4 0) = none
      rw [h.checkin_get hnew]
    · intro s s' h
      obtain rfl := h.eq
      rfl
    · obtain rfl := h.eq
      have herase := Table.erase_insert (p := fun x => decide (x.id = r.id)) hfree
        (decide_eq_false hnew)
      exact congrArg (fun t => { s.withoutCheckin r.id with checkins := t }) herase.symm
    · intro x hx hid
      rcases Table.mem_or_eq_of_mem_insert hx with hx | rfl
      · exact h.row x hx hid
      · exact absurd hid hnew
  refine (alike_get fun s s' h => apart_venues.lookup h _).bind fun venue => ?_
  dsimp only
  split
  · trivial
  · refine (alike_ensureVisitedAtNotFuture _ _ _).bind fun _ => hinsert.bind fun _ =>
      alike_commit.bind fun _ => (alike_refresh fun s s' h => h.checkin_lookup hnew).bind
        fun _ => ?_
    split
    · exact (alike_evaluateVenueVerification hdel _).bind fun _ => trivial
    · trivial

/-! ### Blocks and accounts -/

omit hdel in
/-- Deleting users takes the same rows, with the deleted check-in or without it. -/
theorem Buried.eraseUsers {s s' : Db} (h : Buried r s s') (p : User → Bool) :
    Buried r (OburBackend.eraseUsers p s) (OburBackend.eraseUsers p s') := by
  refine ⟨?_, fun x hx => h.row x (Table.mem_erase.mp hx).1, fun howner => ?_⟩
  case refine_2 =>
    -- the owner stays, so the check-in does
    obtain ⟨u, hu⟩ := Option.isSome_iff_exists.mp howner
    obtain ⟨hu, hid⟩ := Table.get_eq_some.mp hu
    obtain ⟨hu, hstays⟩ := Table.mem_erase.mp hu
    have hget : s.users.get r.userId = some u := Table.get_eq_some.mpr ⟨hu, hid⟩
    have hgoes : s.goes p r.userId = false := by
      rw [Db.goes, hget, Option.any_some, hstays]
    have hstored : s.hasUser r.userId = true := by
      rw [Db.hasUser, hget, Option.isSome_some]
    exact Table.mem_erase.mpr ⟨h.kept hstored, hgoes⟩
  -- first the marks on check-ins of those who go, then their own marks
  have hmarks : ∀ t : Table Mark.key,
      ((t.erase fun m => decide (m.targetId = r.id)).erase fun m =>
          (s'.checkins.get m.targetId).any fun x => s.goes p x.userId).erase
            (fun m => s.goes p m.userId) =
        ((t.erase fun m => (s.checkins.get m.targetId).any fun x => s.goes p x.userId).erase
          fun m => s.goes p m.userId).erase fun m => decide (m.targetId = r.id) := by
    intro t
    have hsame : (t.erase fun m => decide (m.targetId = r.id)).erase (fun m =>
          (s'.checkins.get m.targetId).any fun x => s.goes p x.userId) =
        (t.erase fun m => (s.checkins.get m.targetId).any fun x => s.goes p x.userId).erase
          fun m => decide (m.targetId = r.id) := by
      rw [Table.erase_comm t (fun m => (s.checkins.get m.targetId).any fun x => s.goes p x.userId)]
      refine Table.erase_congr fun m hm => ?_
      rw [h.checkin_get (of_decide_eq_false (Table.mem_erase.mp hm).2)]
    rw [hsame, Table.erase_comm]
  obtain rfl := h.eq
  have hcheckins : (s.checkins.erase fun x => decide (x.id = r.id)).erase
        (fun x => s.goes p x.userId) =
      (s.checkins.erase fun x => s.goes p x.userId).erase fun x => decide (x.id = r.id) :=
    Table.erase_comm _ _ _
  have hdb : ∀ a b a' b' d d', a = a' → b = b' → d = d' →
      { OburBackend.eraseUsers p s with checkins := a, checkinLikes := b, checkinBookmarks := d } =
        { OburBackend.eraseUsers p s with
          checkins := a', checkinLikes := b', checkinBookmarks := d' } := by
    rintro a b _ _ d _ rfl rfl rfl
    rfl
  exact hdb _ _ _ _ _ _ hcheckins (hmarks s.checkinLikes) (hmarks s.checkinBookmarks)

omit hdel in
/-- A follow is removed in both alike. -/
theorem alike_deleteFollow (k : Uuid × Uuid) :
    (follows.delete k : Service Unit).Alike (Buried r) me := by
  refine alike_delete (fun s s' h => ?_) (fun _ _ => rfl) fun s s' p h => ⟨?_, h.row, h.kept⟩
  · obtain rfl := h.eq
    rfl
  · obtain rfl := h.eq
    rfl

omit hdel in
/-- The purge of a block removes the same, apart from what is gone already. -/
theorem alike_purgeInteractions (userA userB : Uuid) :
    (rlsPurgeInteractionsBetween userA userB).Alike (Buried r) me := by
  have hcheckins : ∀ s s' m, Buried r s s' → m.targetId ≠ r.id →
      onCheckinBetween userA userB s' m = onCheckinBetween userA userB s m := by
    intro s s' m h hm
    have hof : ∀ owner, s'.checkins.any (fun x => decide (x.userId = owner) &&
        decide (x.id = m.targetId)) =
          s.checkins.any fun x => decide (x.userId = owner) && decide (x.id = m.targetId) := by
      intro owner
      obtain rfl := h.eq
      refine Table.any_erase fun x _ hx => decide_eq_false fun hid => hm ?_
      rw [Bool.and_eq_true, decide_eq_true_eq, decide_eq_true_eq] at hx
      exact hx.2.symm.trans hid
    rw [onCheckinBetween, onCheckinBetween, hof, hof]
  have hlists : ∀ s s', Buried r s s' →
      onListBetween userA userB s' = onListBetween userA userB s := by
    intro s s' h
    obtain rfl := h.eq
    rfl
  refine (alike_purgeMarks marksCheckins_likes hcheckins).bind fun _ =>
    (apart_listLikes.alike_purge (fun _ _ => rfl) hlists).bind fun _ =>
    (alike_purgeMarks marksCheckins_bookmarks hcheckins).bind fun _ =>
    (apart_listBookmarks.alike_purge (fun _ _ => rfl) hlists).bind fun _ =>
    apart_notifications.alike_purge (fun _ _ => rfl) fun _ _ _ => rfl

omit hdel in
/-- A block is added in both alike. -/
theorem alike_createBlock (blockerId blockedId : Uuid) :
    (createBlock c blockerId blockedId).Alike (Buried r) me := by
  have hfollow : ∀ k, (follows.get k : Service (Option Follow)).Alike (Buried r) me :=
    fun k => alike_get fun s s' h => apart_follows.lookup h k
  unfold createBlock
  split
  · trivial
  · refine (alike_get fun s s' h => apart_blocks.lookup h _).bind fun found => ?_
    cases found with
    | some existing => trivial
    | none =>
      refine (apart_blocks.alike_insert _).bind fun _ => (hfollow _).bind fun forth => ?_
      have hback : ∀ back : Option Follow, Prog.Alike (Buried r) me (do
          rlsPurgeInteractionsBetween blockerId blockedId
          if back.isSome then
            follows.delete (blockedId, blockerId)
          commit
          refresh blocks (blockerId, blockedId) : Service Block) := by
        intro back
        refine (alike_purgeInteractions _ _).bind fun _ => ?_
        split
        · exact (alike_deleteFollow _).bind fun _ => apart_blocks.alike_commit_refresh _
        · exact apart_blocks.alike_commit_refresh _
      split
      · exact (alike_deleteFollow _).bind fun _ => (hfollow _).bind hback
      · exact (hfollow _).bind hback

omit hdel in
/-- An account is deleted in both, with the deleted check-in when it is its owner's. -/
theorem alike_deleteAccount (userId : Uuid) :
    (deleteAccount userId).Alike (Buried r) me := by
  refine Prog.Alike.bind (alike_delete (fun s s' h => ?_) (fun _ _ => rfl) fun s s' p h => ?_)
    fun _ => trivial
  · obtain rfl := h.eq
    rfl
  · exact h.eraseUsers p

end Operations

end OburBackend
