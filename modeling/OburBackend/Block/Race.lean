import Mathlib.Data.Fintype.Option
import OburBackend.Block.Links

/-!
# Blocking a user while they interact

`create_block` looks for what links the two users, statement by statement, and removes what it
finds. The other requests look for a block when they write. Neither sees what the other has not
committed: a link that is committed after the statement that looks for it survives the block. It is
the only way for a link to do so. In a run in which every such request commits before `create_block`
looks for what it adds, a committed block has nothing between the two users.

The block relies on the others for exactly this, so its reliance depends on its own log: once it has
looked for a link, nobody adds that link any more.
-/

namespace OburBackend

open Sql

/-- The statement of `create_block a b` that looks for the link. -/
def Link.scan (a b : Uuid) : Link → Stmt
  | .follow r => follows.stmt .select r.key
  | .checkinLike _ => ⟨.delete, .checkinLikes, [a, b]⟩
  | .listLike _ => ⟨.delete, .listLikes, [a, b]⟩
  | .checkinBookmark _ => ⟨.delete, .checkinBookmarks, [a, b]⟩
  | .listBookmark _ => ⟨.delete, .listBookmarks, [a, b]⟩
  | .notification _ => ⟨.delete, .notifications, [a, b]⟩

/-! ## The block -/

section Block

variable (db : Db) (a b : Uuid)

/-- The protocol of `create_block a b`: nobody adds a link that it has looked for, and it commits
when it has looked for all of them and left none. -/
def blockProtocol : Protocol Db Lock Identity Stmt PyError Unit where
  rely L := AddsLinks fun l => l.scan a b ∉ L.log
  guar L s s' := s.Settles s' ∧ ∀ l, l.Between db a b → l.scan a b ∈ L.log ∧ ¬ s'.Has l
  post _ _ _ := True
  rely_refl _ s := AddsLinks.refl s
  rely_trans h h' := h.trans h'
  rely_ended h := h

/-- A stage of the block's transaction: it has looked for the links of `D`, and those of `C` among
them are gone. -/
structure Scanned (D C : Set Link) (L : Local Db Lock Identity Stmt) (s : Db) : Prop where
  vars : L.vars = some a
  settles : db.Settles s
  trims : Trims L.view
  scanned : ∀ l ∈ D, l.scan a b ∈ L.log
  cleared : ∀ l ∈ C, l ∈ D ∧ ¬ (L.view s).Has l

/-- The follows with the key `k`. -/
def followsOf (k : Uuid × Uuid) : Set Link := {l | ∃ r, l = .follow r ∧ r.key = k}

/-- The links of one table that are between the two users. -/
def linksOf {ρ : Type} (link : ρ → Link) : Set Link := {l | ∃ r, l = link r ∧ l.Between db a b}

variable {db a b} {D C : Set Link} {L : Local Db Lock Identity Stmt} {s s' : Db}

/-- The others do not undo what is done. -/
theorem Scanned.of_rely (h : Scanned db a b D C L s) (hr : (blockProtocol db a b).rely L s s') :
    Scanned db a b D C L s' where
  vars := h.vars
  settles := h.settles.trans hr.settles
  trims := h.trims
  scanned := h.scanned
  cleared l hl := by
    obtain ⟨hD, hnot⟩ := h.cleared l hl
    refine ⟨hD, h.trims.not_has hnot fun hs' => ?_⟩
    exact (hr.links l hs').resolve_right fun hlog => hlog (h.scanned l hD)

/-- A statement that reads. -/
theorem Scanned.saw (h : Scanned db a b D C L s) (st : Stmt) : Scanned db a b D C (L.saw st) s :=
  ⟨h.vars, h.settles, h.trims, fun l hl => List.mem_append_left _ (h.scanned l hl), h.cleared⟩

/-- A statement that takes links away. -/
theorem Scanned.wrote (h : Scanned db a b D C L s) {wr : Write Db Lock} (hwr : Trims wr.effect) :
    Scanned db a b D C (L.wrote wr) s where
  vars := h.vars
  settles := h.settles
  trims := by
    have hview : (L.wrote wr).view = fun s => wr.effect (L.view s) := funext (Local.view_wrote L wr)
    rw [hview]
    exact h.trims.comp hwr
  scanned := h.scanned
  cleared l hl := by
    obtain ⟨hD, hnot⟩ := h.cleared l hl
    rw [Local.view_wrote]
    exact ⟨hD, fun hhas => hnot (hwr.has hhas)⟩

/-- Links that the last statement has looked for join `D`, and those of them that are gone join
`C`. -/
theorem Scanned.union {D' C' : Set Link} (h : Scanned db a b D C L s)
    (hD : ∀ l ∈ D', l.scan a b ∈ L.log) (hC : ∀ l ∈ C', l ∈ D ∪ D' ∧ ¬ (L.view s).Has l) :
    Scanned db a b (D ∪ D') (C ∪ C') L s where
  vars := h.vars
  settles := h.settles
  trims := h.trims
  scanned l hl := hl.elim (h.scanned l) (hD l)
  cleared l hl := by
    rcases hl with hl | hl
    · exact ⟨.inl (h.cleared l hl).1, (h.cleared l hl).2⟩
    · exact hC l hl

section Rules

variable {guar : Local Db Lock Identity Stmt → Db → Db → Prop} {α : Type}
  {K : Except PyError α → Local Db Lock Identity Stmt → Db → Prop}

/-- The rule for a statement of the purge: it removes what it finds. -/
theorem wp_purgeTable {ρ π : Type} {key : ρ → π} [DecidableEq π] {T : DbTable key} {link : ρ → Link}
    {st : Stmt} {p : Db → ρ → Bool} {f : Unit → Service α} (hT : LinkTable T link)
    (hst : ∀ r, (link r).scan a b = st)
    (hp : ∀ s r, db.Settles s → (link r).Between db a b → p s r = true)
    (h : Scanned db a b D C L s)
    (hf : ∀ L s, Scanned db a b (D ∪ Set.range link) (C ∪ linksOf db a b link) L s →
      Wp (blockProtocol db a b).rely guar K (f ()) L s) :
    Wp (blockProtocol db a b).rely guar K ((T.definerDelete st p).bind f) L s := by
  rw [wp_definerDelete_bind]
  intro s' hr
  have h' := h.of_rely hr
  have htrims : Trims (T.definerDeleteWrite (L.view s') (p (L.view s'))).effect := hT.erase _
  refine hf _ _ (((h'.saw st).wrote htrims).union ?_ ?_)
  · rintro _ ⟨r, rfl⟩
    rw [hst]
    simp
  · rintro _ ⟨r, rfl, hbetween⟩
    refine ⟨.inr ⟨r, rfl⟩, fun hhas => ?_⟩
    rw [Local.view_wrote, Local.view_saw] at hhas
    have hmem : r ∈ T.read (L.view s') := (hT.has _ r).mp (htrims.has hhas)
    have hselect : r ∈ (T.read (L.view s')).select (p (L.view s')) :=
      Table.mem_select.mpr ⟨hmem, hp _ r (h'.settles.trans (h'.trims.settles s')) hbetween⟩
    have hkeep := hT.has_erase _ _ r hhas
    rw [decide_eq_false_iff_not] at hkeep
    exact hkeep (List.mem_map_of_mem hselect)

/-- The rule for looking for a follow: one that is not found is not there. -/
theorem wp_getFollow {k : Uuid × Uuid} {f : Option Follow → Service α} (h : Scanned db a b D C L s)
    (hf : ∀ found L s, Scanned db a b (D ∪ followsOf k) (C ∪ {l ∈ followsOf k | found = none}) L s →
      Wp (blockProtocol db a b).rely guar K (f found) L s) :
    Wp (blockProtocol db a b).rely guar K ((follows.get k).bind f) L s := by
  rw [wp_get_bind]
  intro s' hr
  have h' := h.of_rely hr
  refine hf _ _ _ ((h'.saw _).union ?_ ?_)
  · rintro _ ⟨r, rfl, rfl⟩
    simp [Link.scan]
  · rintro _ ⟨⟨r, rfl, hkey⟩, hnone⟩
    exact ⟨.inr ⟨r, rfl, hkey⟩, fun hhas => not_mem_of_lookup_follows hnone r hhas hkey⟩

/-- The rule for deleting a follow that was found: afterwards it is gone in any case. -/
theorem wp_dropFollow {k : Uuid × Uuid} {found : Option Follow} {rest : Service α}
    (hk : k.1 = a ∨ k.2 = a) (h : Scanned db a b D C L s) (hD : followsOf k ⊆ D)
    (hC : found = none → followsOf k ⊆ C) (hK : ∀ e L s, K (.error e) L s)
    (hrest : ∀ L s, Scanned db a b D (C ∪ followsOf k) L s →
      Wp (blockProtocol db a b).rely guar K rest L s) :
    Wp (blockProtocol db a b).rely guar K
      (if found.isSome = true then (follows.delete k).bind fun _ => rest else rest) L s := by
  cases found with
  | none =>
    simp only [Option.isSome_none, Bool.false_eq_true, if_false]
    refine hrest L s ?_
    rw [Set.union_eq_self_of_subset_right (hC rfl)]
    exact h
  | some found =>
    simp only [Option.isSome_some, if_true, wp_delete_bind]
    intro s' hr
    refine ⟨fun wr hw => ?_, fun e _ => hK _ _ _⟩
    obtain ⟨-, hwr⟩ := follows.deleteWrite_eq_ok.mp hw
    have h' := h.of_rely hr
    have htrims : Trims wr.effect := by
      rw [hwr]
      exact linkTable_follows.erase _
    have hwrote := (h'.saw (follows.stmt .delete k)).wrote htrims
    refine hrest _ _ ?_
    rw [← Set.union_eq_self_of_subset_right hD]
    refine hwrote.union (fun l hl => hwrote.scanned l (hD hl)) ?_
    rintro _ ⟨r, rfl, hkey⟩
    refine ⟨.inr ⟨r, rfl, hkey⟩, fun hhas => ?_⟩
    rw [Local.view_wrote, Local.view_saw] at hhas
    have hmem : r ∈ (L.view s').follows := htrims.has hhas
    have hdel : r ∈ follows.deletable L.vars (L.view s') fun r => decide (r.key = k) := by
      refine follows.mem_deletable.mpr ⟨hmem, decide_eq_true hkey, rfl, ?_⟩
      rw [h.vars]
      simp only [follows_policy, followsPolicy, Truth.holds_or, holds_rlsIsOwnerOrAdmin]
      rcases hk with hk | hk
      · exact .inl (.inl (by rw [← hk, ← hkey]; rfl))
      · exact .inr (.inl (by rw [← hk, ← hkey]; rfl))
    rw [hwr] at hhas
    have hkeep := linkTable_follows.has_erase _ _ r hhas
    rw [decide_eq_false_iff_not] at hkeep
    exact hkeep (List.mem_map_of_mem hdel)

end Rules

/-- What the purge leaves of the links between the two users: follows at most. -/
theorem wp_purgeInteractions {guar : Local Db Lock Identity Stmt → Db → Db → Prop} {α : Type}
    {K : Except PyError α → Local Db Lock Identity Stmt → Db → Prop} {f : Unit → Service α}
    (h : Scanned db a b D C L s)
    (hf : ∀ D' C' L s, Scanned db a b (D ∪ D') (C ∪ C') L s →
      (∀ l, l.Between db a b → (∃ r, l = .follow r) ∨ l ∈ C') →
      Wp (blockProtocol db a b).rely guar K (f ()) L s) :
    Wp (blockProtocol db a b).rely guar K ((rlsPurgeInteractionsBetween a b).bind f) L s := by
  unfold rlsPurgeInteractionsBetween
  simp only [Prog.bind_eq, Prog.bind_assoc]
  have hcheckin : ∀ (s : Db) (r : Mark), db.Settles s → (Link.checkinLike r).Between db a b →
      onCheckinBetween a b s r = true := by
    rintro s r hs ⟨c, hc, hid, hpair⟩
    exact onCheckinBetween_of_isPair (hs.checkins ▸ hc) hid hpair
  have hlist : ∀ (s : Db) (r : Mark), db.Settles s → (Link.listLike r).Between db a b →
      onListBetween a b s r = true := by
    rintro s r hs ⟨l, hl, hid, hpair⟩
    exact onListBetween_of_isPair (hs.lists ▸ hl) hid hpair
  have hnotification : ∀ (s : Db) (r : Notification), db.Settles s →
      (Link.notification r).Between db a b → notifiesBetween a b r = true := by
    rintro s r - ⟨actorId, hactor, hpair⟩
    exact notifiesBetween_of_isPair hactor hpair
  refine wp_purgeTable linkTable_checkinLikes (fun _ => rfl) hcheckin h fun L s h => ?_
  refine wp_purgeTable linkTable_listLikes (fun _ => rfl) hlist h fun L s h => ?_
  refine wp_purgeTable linkTable_checkinBookmarks (fun _ => rfl) hcheckin h fun L s h => ?_
  refine wp_purgeTable linkTable_listBookmarks (fun _ => rfl) hlist h fun L s h => ?_
  refine wp_purgeTable linkTable_notifications (fun _ => rfl) hnotification h fun L s h => ?_
  simp only [Set.union_assoc] at h
  refine hf _ _ L s h fun l hl => ?_
  cases l with
  | follow r => exact .inl ⟨r, rfl⟩
  | checkinLike r => exact .inr (.inl ⟨r, rfl, hl⟩)
  | listLike r => exact .inr (.inr (.inl ⟨r, rfl, hl⟩))
  | checkinBookmark r => exact .inr (.inr (.inr (.inl ⟨r, rfl, hl⟩)))
  | listBookmark r => exact .inr (.inr (.inr (.inr (.inl ⟨r, rfl, hl⟩))))
  | notification r => exact .inr (.inr (.inr (.inr (.inr ⟨r, rfl, hl⟩))))

/-- Before the transaction has written anything. -/
theorem scanned_start (hs : db.Settles s) (hpending : L.pending = []) (hvars : L.vars = some a) :
    Scanned db a b ∅ ∅ L s where
  vars := hvars
  settles := hs
  trims := by
    have hview : L.view = fun s => s := funext (Local.view_eq_self hpending)
    rw [hview]
    exact Trims.of_has_iff Db.Settles.refl fun _ _ => Iff.rfl
  scanned _ hl := hl.elim
  cleared _ hl := hl.elim

/-- `create_block` commits when nothing between the two users is left. -/
theorem wp_createBlock {K : Except PyError Block → Local Db Lock Identity Stmt → Db → Prop}
    (hK : ∀ r L s, K r L s) (c : Ctx) :
    Wp (blockProtocol db a b).rely (blockProtocol db a b).guar K (createBlock c a b)
      (Local.start (some a)) db := by
  unfold createBlock
  split
  · exact hK _ _ _
  simp only [Prog.bind_eq, wp_get_bind]
  intro s₁ h₁
  split
  · exact hK _ _ _
  simp only [wp_insert_bind]
  intro s₂ h₂
  refine ⟨fun wr hw => ?_, fun e _ => hK _ _ _⟩
  obtain ⟨-, -, -, -, hwr⟩ := blocks.insertWrite_eq_ok.mp hw
  have htrims : Trims wr.effect := by
    rw [hwr]
    exact .of_has_iff (fun _ => ⟨rfl, rfl, rfl, fun _ hb => Table.mem_insert_of_mem hb⟩)
      fun _ l => by cases l <;> exact Iff.rfl
  have hstart : Scanned db a b ∅ ∅
      ((Local.start (some a)).saw (blocks.stmt .select (a, b))) s₂ :=
    scanned_start (h₁.settles.trans h₂.settles) rfl rfl
  have h := (hstart.saw (blocks.stmt .insert (a, b))).wrote htrims
  refine wp_getFollow h fun forth L s h => ?_
  refine wp_dropFollow (.inl rfl) h Set.subset_union_right (fun hnone l hl => .inr ⟨hl, hnone⟩)
    (fun _ _ _ => hK _ _ _) fun L s h => ?_
  refine wp_getFollow h fun back L s h => ?_
  refine wp_purgeInteractions h fun D' C' L s h hpurged => ?_
  refine wp_dropFollow (.inr rfl) h (fun l hl => .inl (.inr hl))
    (fun hnone l hl => .inl (.inr ⟨hl, hnone⟩)) (fun _ _ _ => hK _ _ _) fun L s h => ?_
  rw [wp_commit_bind]
  intro s₃ h₃
  have h := h.of_rely h₃
  refine ⟨⟨h.trims.settles s₃, fun l hl => ?_⟩, (readOnly_refresh _ _).wp_of_forall hK⟩
  have hcleared : l ∈ ((∅ ∪ {l ∈ followsOf (a, b) | forth = none} ∪ followsOf (a, b)) ∪
      {l ∈ followsOf (b, a) | back = none} ∪ C') ∪ followsOf (b, a) := by
    rcases hpurged l hl with ⟨r, rfl⟩ | hC'
    · rcases hl with ⟨hfollower, hfollowing⟩ | ⟨hfollower, hfollowing⟩
      · exact .inl (.inl (.inl (.inr ⟨r, rfl, Prod.ext hfollower hfollowing⟩)))
      · exact .inr ⟨r, rfl, Prod.ext hfollower hfollowing⟩
    · exact .inl (.inr hC')
  obtain ⟨hD, hnot⟩ := h.cleared l hcleared
  exact ⟨h.scanned l hD, hnot⟩

/-- The request keeps its protocol. -/
theorem holds_createBlock (c : Ctx) (blocker : User) (b : Uuid) (db : Db) :
    (blockProtocol db blocker.id b).Holds ((SocialOp.createBlock b).program c blocker)
      (Local.start (some blocker.id)) db := by
  simp only [Protocol.Holds, SocialOp.program, Prog.bind_eq]
  rw [wp_bind]
  refine wp_createBlock (fun r L s => ?_) c
  cases r with
  | ok block => exact fun _ _ => trivial
  | error e => exact fun _ _ => trivial

end Block

/-! ## The other requests -/

/-- The statements of `create_block a b` that look for what the request adds. -/
def SocialOp.scans (a b : Uuid) (currentUser : User) : SocialOp → List Stmt
  | .followUser followingId =>
    [follows.stmt .select (currentUser.id, followingId), ⟨.delete, .notifications, [a, b]⟩]
  | .likeCheckin _ => [⟨.delete, .checkinLikes, [a, b]⟩, ⟨.delete, .notifications, [a, b]⟩]
  | .likeList _ => [⟨.delete, .listLikes, [a, b]⟩, ⟨.delete, .notifications, [a, b]⟩]
  | .bookmarkCheckin _ => [⟨.delete, .checkinBookmarks, [a, b]⟩]
  | .bookmarkList _ => [⟨.delete, .listBookmarks, [a, b]⟩]
  | _ => []

/-- The request is a follow, like or bookmark by one of the users `a` and `b`, of the other or of
what the other owns. -/
def SocialOp.Reaches (db : Db) (a b : Uuid) (currentUser : User) : SocialOp → Prop
  | .followUser followingId => IsPair a b currentUser.id followingId
  | .likeCheckin checkinId | .bookmarkCheckin checkinId =>
    ∃ c ∈ db.checkins, c.id = checkinId ∧ IsPair a b currentUser.id c.userId
  | .likeList listId | .bookmarkList listId =>
    ∃ l ∈ db.lists, l.id = listId ∧ IsPair a b currentUser.id l.userId
  | _ => False

/-- What such a request adds is a link between the two users. -/
theorem SocialOp.Reaches.between {db : Db} {a b : Uuid} {currentUser : User} {op : SocialOp}
    (h : op.Reaches db a b currentUser) :
    ∃ l : Link, l.Between db a b ∧ l.scan a b ∈ op.scans a b currentUser := by
  cases op with
  | followUser followingId =>
    exact ⟨.follow ⟨currentUser.id, followingId, 0⟩, h, List.mem_cons_self⟩
  | likeCheckin checkinId =>
    exact ⟨.checkinLike ⟨currentUser.id, checkinId, 0⟩, h, List.mem_cons_self⟩
  | likeList listId => exact ⟨.listLike ⟨currentUser.id, listId, 0⟩, h, List.mem_cons_self⟩
  | bookmarkCheckin checkinId =>
    exact ⟨.checkinBookmark ⟨currentUser.id, checkinId, 0⟩, h, List.mem_cons_self⟩
  | bookmarkList listId =>
    exact ⟨.listBookmark ⟨currentUser.id, listId, 0⟩, h, List.mem_cons_self⟩
  | _ => exact h.elim

section Interaction

variable (db : Db) (a b : Uuid) (scans : List Stmt)

/-- The protocol of a request that adds links: it commits nothing else, and only when it has found
no block. It relies on the owners and on the blocks that there are. -/
def interactionProtocol : Protocol Db Lock Identity Stmt PyError Unit where
  rely _ s s' := s.Settles s'
  guar _ s s' := ¬ db.Blocked a b ∧ AddsLinks (fun l => l.scan a b ∈ scans) s s'
  post _ _ _ := True
  rely_refl _ s := Db.Settles.refl s
  rely_trans h h' := h.trans h'
  rely_ended h := h

/-- A stage of the transaction of a request of `me`: it has added links that `scans` looks for. -/
structure Adding (me : Uuid) (L : Local Db Lock Identity Stmt) (s : Db) : Prop where
  vars : L.vars = some me
  settles : db.Settles s
  adds : ∀ s, AddsLinks (fun l => l.scan a b ∈ scans) s (L.view s)

variable {db a b scans} {me : Uuid} {L : Local Db Lock Identity Stmt} {s s' : Db}

/-- Others may commit meanwhile, as long as they add blocks only. -/
theorem Adding.of_settles (h : Adding db a b scans me L s) (hs : s.Settles s') :
    Adding db a b scans me L s' :=
  ⟨h.vars, h.settles.trans hs, h.adds⟩

/-- A statement of the request itself does not change the stage. -/
theorem Adding.saw (h : Adding db a b scans me L s) (st : Stmt) :
    Adding db a b scans me (L.saw st) s :=
  ⟨h.vars, h.settles, h.adds⟩

/-- Before the transaction has written anything. -/
theorem adding_start (hs : db.Settles s) (hpending : L.pending = []) (hvars : L.vars = some me) :
    Adding db a b scans me L s := by
  refine ⟨hvars, hs, fun s => ?_⟩
  rw [Local.view_eq_self hpending]
  exact AddsLinks.refl s

section Rules

variable {α : Type} {K : Except PyError α → Local Db Lock Identity Stmt → Db → Prop}

/-- The rule for adding a link: the row has passed the policies on data with the same owners and all
the blocks. -/
theorem wp_addLink {ρ π : Type} {key : ρ → π} [DecidableEq π] {T : DbTable key} {link : ρ → Link}
    {r : ρ} {f : Unit → Service α} (hT : LinkTable T link) (hscan : (link r).scan a b ∈ scans)
    (h : Adding db a b scans me L s) (hK : ∀ e L s, K (.error e) L s)
    (hf : ∀ L s, Adding db a b scans me L s →
      (∃ w, db.Settles w ∧ ((T.policy (some me) w).insert r).Holds) →
      Wp (interactionProtocol db a b scans).rely (interactionProtocol db a b scans).guar K
        (f ()) L s) :
    Wp (interactionProtocol db a b scans).rely (interactionProtocol db a b scans).guar K
      ((T.insert r).bind f) L s := by
  rw [wp_insert_bind]
  intro s' hr
  have h' := h.of_settles hr
  refine ⟨fun wr hw => ?_, fun e _ => hK _ _ _⟩
  obtain ⟨hinsert, -, -, -, rfl⟩ := T.insertWrite_eq_ok.mp hw
  refine hf _ _ ⟨h.vars, h'.settles, fun s => ?_⟩ ⟨_, h'.settles.trans (h'.adds s').settles, ?_⟩
  · rw [Local.view_wrote, Local.view_saw]
    refine (h.adds s).trans ((hT.insert _ r).mono ?_)
    rintro _ rfl
    exact hscan
  · rw [← h.vars]
    exact hinsert

/-- The rule for the commit and the reload at the end of such a request. -/
theorem wp_commitAdded {ρ π : Type} {key : ρ → π} [DecidableEq π] {T : DbTable key} {k : π}
    {K : Except PyError ρ → Local Db Lock Identity Stmt → Db → Prop}
    (h : Adding db a b scans me L s) (hfree : ¬ db.Blocked a b) (hK : ∀ r L s, K r L s) :
    Wp (interactionProtocol db a b scans).rely (interactionProtocol db a b scans).guar K
      (Sql.commit.bind fun _ => refresh T k) L s := by
  rw [wp_commit_bind]
  intro s' _
  exact ⟨⟨hfree, h.adds s'⟩, (readOnly_refresh _ _).wp_of_forall hK⟩

end Rules

/-- A notification that is let through has found no block. -/
theorem not_blocked_of_notification {w : Db} {r : Notification} {actorId : Uuid} (hw : db.Settles w)
    (hactor : r.actorId = some actorId) (hpair : IsPair a b r.userId actorId)
    (h : ((notificationsPolicy (some me) w).insert r).Holds) : ¬ db.Blocked a b := by
  have hfree := ((Truth.holds_and _ _).mp h).2
  rw [hactor] at hfree
  intro hb
  exact not_rlsIsBlockedPair_some.mp hfree (blocked_of_isPair hpair (hw.blocked hb))

/-- Somebody who is no administrator and sees what somebody else owns has found no block. -/
theorem not_blocked_of_canSee {w : Db} {owner : Uuid} {visibility : String} (hw : db.Settles w)
    (hne : a ≠ b) (hadmin : ¬ db.IsAdmin (some me)) (hpair : IsPair a b me owner)
    (h : w.CanSee (some me) owner visibility) : ¬ db.Blocked a b := by
  intro hb
  rcases h with (hown | hadm) | ⟨hfree, -⟩
  · obtain rfl : me = owner := Option.some.inj hown
    rcases hpair with ⟨rfl, rfl⟩ | ⟨rfl, rfl⟩
    · exact hne rfl
    · exact hne rfl
  · exact hadmin (hw.isAdmin_iff.mp hadm)
  · exact hfree me rfl (hw.blocked (blocked_of_isPair hpair hb)).symm

/-- Whoever sees the check-in of the other is in no block with them. -/
theorem not_blocked_of_canViewCheckin {w : Db} {checkinId : Uuid} (hw : db.Settles w) (hne : a ≠ b)
    (hadmin : ¬ db.IsAdmin (some me))
    (hreach : ∃ c ∈ db.checkins, c.id = checkinId ∧ IsPair a b me c.userId)
    (h : (rlsCanViewCheckin (some me) w checkinId).Holds) : ¬ db.Blocked a b := by
  obtain ⟨c, hc, hid, hpair⟩ := hreach
  obtain ⟨c', hc', hid', hsee⟩ := holds_rlsCanViewCheckin.mp h
  rw [hw.checkins] at hc'
  obtain rfl := Table.eq_of_key_eq hc hc' (hid.trans hid'.symm)
  exact not_blocked_of_canSee hw hne hadmin hpair hsee

/-- Nor is whoever sees their list. -/
theorem not_blocked_of_canViewList {w : Db} {listId : Uuid} (hw : db.Settles w) (hne : a ≠ b)
    (hadmin : ¬ db.IsAdmin (some me))
    (hreach : ∃ l ∈ db.lists, l.id = listId ∧ IsPair a b me l.userId)
    (h : (rlsCanViewList (some me) w listId).Holds) : ¬ db.Blocked a b := by
  obtain ⟨l, hl, hid, hpair⟩ := hreach
  obtain ⟨l', hl', hid', hsee⟩ := holds_rlsCanViewList.mp h
  rw [hw.lists] at hl'
  obtain rfl := Table.eq_of_key_eq hl hl' (hid.trans hid'.symm)
  exact not_blocked_of_canSee hw hne hadmin hpair hsee

/-! ### The five requests -/

/-- A follow adds links between the two that the block scans for, and no others. -/
theorem wp_followUser {K : Except PyError Follow → Local Db Lock Identity Stmt → Db → Prop}
    (hK : ∀ r L s, K r L s) {c : Ctx} {currentUser : User} {followingId : Uuid}
    (h : (SocialOp.followUser followingId).Reaches db a b currentUser) :
    let P := interactionProtocol db a b ((SocialOp.followUser followingId).scans a b currentUser)
    Wp P.rely P.guar K (followUser c currentUser.id followingId)
      (Local.start (some currentUser.id)) db := by
  intro P
  unfold followUser
  split
  · exact hK _ _ _
  simp only [Prog.bind_eq, wp_get_bind]
  intro s hs
  split
  · exact hK _ _ _
  simp only [createNotification, Prog.bind_eq, Prog.pure_eq, Prog.bind_assoc, Prog.ret_bind]
  refine wp_addLink linkTable_follows List.mem_cons_self (adding_start hs rfl rfl)
    (fun _ _ _ => hK _ _ _) fun L s h₁ _ => ?_
  refine wp_addLink linkTable_notifications (List.mem_cons_of_mem _ List.mem_cons_self) h₁
    (fun _ _ _ => hK _ _ _) fun L s h₂ hinsert => ?_
  obtain ⟨w, hw, hholds⟩ := hinsert
  refine wp_commitAdded h₂ (not_blocked_of_notification hw rfl ?_ hholds) hK
  exact h.symm.imp And.symm And.symm

/-- A request that resolves its target first. -/
theorem wp_resolve {α β : Type} {K : Except PyError β → Local Db Lock Identity Stmt → Db → Prop}
    (hK : ∀ r L s, K r L s) {p : Service α} {f : α → Service β} (hp : p.ReadOnly)
    (hf : ∀ x L s, Adding db a b scans me L s →
      Wp (interactionProtocol db a b scans).rely (interactionProtocol db a b scans).guar K
        (f x) L s) :
    Wp (interactionProtocol db a b scans).rely (interactionProtocol db a b scans).guar K (p.bind f)
      (Local.start (some me)) db := by
  rw [wp_bind]
  refine Prog.ReadOnly.wp (I := Adding db a b scans me) (fun L s s' h hr => h.of_settles hr)
    (fun L st s h => h.saw st) (fun r L s h => ?_) hp (adding_start (.refl db) rfl rfl)
  cases r with
  | ok x => exact hf x L s h
  | error e => exact hK _ _ _

/-- Adding a mark that the policy lets through only without a block, and what is flushed with it. -/
theorem wp_addMark {T : DbTable Mark.key} {link : Mark → Link} {c : Ctx} {targetId : Uuid}
    {notify : Service Unit} {K : Except PyError Mark → Local Db Lock Identity Stmt → Db → Prop}
    (hK : ∀ r L s, K r L s) (hT : LinkTable T link)
    (hscan : ∀ r, (link r).scan a b ∈ scans)
    (hfree : ∀ w, db.Settles w →
      ((T.policy (some me) w).insert ⟨me, targetId, c.now⟩).Holds → ¬ db.Blocked a b)
    (hnotify : ∀ (f : Unit → Service Mark) L s, Adding db a b scans me L s →
      (∀ L s, Adding db a b scans me L s →
        Wp (interactionProtocol db a b scans).rely (interactionProtocol db a b scans).guar K
          (f ()) L s) →
      Wp (interactionProtocol db a b scans).rely (interactionProtocol db a b scans).guar K
        (notify.bind f) L s)
    (h : Adding db a b scans me L s) :
    Wp (interactionProtocol db a b scans).rely (interactionProtocol db a b scans).guar K
      (addMark T c me targetId notify) L s := by
  simp only [addMark, Prog.bind_eq, wp_get_bind]
  intro s' hr
  split
  · exact hK _ _ _
  · refine wp_addLink hT (hscan _) ((h.of_settles hr).saw _) (fun _ _ _ => hK _ _ _)
      fun L s h hinsert => ?_
    obtain ⟨w, hw, hholds⟩ := hinsert
    exact hnotify _ L s h fun L s h => wp_commitAdded h (hfree w hw hholds) hK

/-- The notification of a like is one more link. -/
theorem wp_notifyLike {α : Type} {K : Except PyError α → Local Db Lock Identity Stmt → Db → Prop}
    (hK : ∀ r L s, K r L s) (hscan : ⟨.delete, .notifications, [a, b]⟩ ∈ scans) {c : Ctx}
    {ownerId targetId : Uuid} {type : NotificationType} {targetType : NotificationTargetType}
    (f : Unit → Service α) (L : Local Db Lock Identity Stmt) (s : Db)
    (h : Adding db a b scans me L s)
    (hf : ∀ L s, Adding db a b scans me L s →
      Wp (interactionProtocol db a b scans).rely (interactionProtocol db a b scans).guar K
        (f ()) L s) :
    Wp (interactionProtocol db a b scans).rely (interactionProtocol db a b scans).guar K
      ((notifyLike c ownerId type me targetType targetId).bind f) L s := by
  simp only [notifyLike, createNotification]
  split
  · simp only [Prog.bind_eq, Prog.pure_eq, Prog.bind_assoc, Prog.ret_bind]
    exact wp_addLink linkTable_notifications hscan h (fun _ _ _ => hK _ _ _) fun L s h _ => hf L s h
  · exact hf L s h

/-- Each of the five requests keeps its protocol. -/
theorem holds_interaction {op : SocialOp} {currentUser : User} (c : Ctx) (hne : a ≠ b)
    (hadmin : ¬ db.IsAdmin (some currentUser.id)) (h : op.Reaches db a b currentUser) :
    (interactionProtocol db a b (op.scans a b currentUser)).Holds (op.program c currentUser)
      (Local.start (some currentUser.id)) db := by
  have hdrop : ∀ {α : Type} (p : Service α), (∀ K : Except PyError α → _ → _ → Prop,
      (∀ r L s, K r L s) → Wp (interactionProtocol db a b (op.scans a b currentUser)).rely
        (interactionProtocol db a b (op.scans a b currentUser)).guar K p
        (Local.start (some currentUser.id)) db) →
      (interactionProtocol db a b (op.scans a b currentUser)).Holds (p.bind fun _ => .ret ())
        (Local.start (some currentUser.id)) db := by
    intro α p hp
    rw [Protocol.Holds, wp_bind]
    refine hp _ fun r L s => ?_
    cases r with
    | ok x => exact fun _ _ => trivial
    | error e => exact fun _ _ => trivial
  cases op with
  | followUser followingId => exact hdrop _ fun K hK => wp_followUser hK h
  | likeCheckin checkinId =>
    refine hdrop _ fun K hK => wp_resolve hK (readOnly_getCheckin _ _) fun checkin L s hL => ?_
    refine wp_addMark hK linkTable_checkinLikes (fun _ => List.mem_cons_self)
      (fun w hw hholds => ?_) (wp_notifyLike hK (List.mem_cons_of_mem _ List.mem_cons_self)) hL
    exact not_blocked_of_canViewCheckin hw hne hadmin h ((Truth.holds_and _ _).mp hholds).2
  | likeList listId =>
    refine hdrop _ fun K hK => wp_resolve hK (readOnly_getList _ _) fun venueList L s hL => ?_
    refine wp_addMark hK linkTable_listLikes (fun _ => List.mem_cons_self) (fun w hw hholds => ?_)
      (wp_notifyLike hK (List.mem_cons_of_mem _ List.mem_cons_self)) hL
    exact not_blocked_of_canViewList hw hne hadmin h ((Truth.holds_and _ _).mp hholds).2
  | bookmarkCheckin checkinId =>
    refine hdrop _ fun K hK => wp_resolve hK (readOnly_getCheckin _ _) fun checkin L s hL => ?_
    refine wp_addMark hK linkTable_checkinBookmarks (fun _ => List.mem_cons_self)
      (fun w hw hholds => ?_) (fun f L s hL hf => hf L s hL) hL
    exact not_blocked_of_canViewCheckin hw hne hadmin h ((Truth.holds_and _ _).mp hholds).2
  | bookmarkList listId =>
    refine hdrop _ fun K hK => wp_resolve hK (readOnly_getList _ _) fun venueList L s hL => ?_
    refine wp_addMark hK linkTable_listBookmarks (fun _ => List.mem_cons_self)
      (fun w hw hholds => ?_) (fun f L s hL hf => hf L s hL) hL
    exact not_blocked_of_canViewList hw hne hadmin h ((Truth.holds_and _ _).mp hholds).2
  | _ => exact h.elim

end Interaction

/-! ## Every run -/

section Runs

variable {ι : Type} [Fintype ι] [DecidableEq ι] (c : Option ι → Ctx) (blocker : User)
  (blockedId : Uuid) (currentUser : ι → User) (op : ι → SocialOp)

/-- The requests before their first statements: the block is `none`, and the others are numbered. -/
def blockWorld (db : Db) : World (Option ι) Db Lock Identity Stmt PyError Unit :=
  World.start db fun
    | none =>
      Session.start (some blocker.id) ((SocialOp.createBlock blockedId).program (c none) blocker)
    | some i =>
      Session.start (some (currentUser i).id) ((op i).program (c (some i)) (currentUser i))

/-- Before it commits, a request that adds links: the block has not yet looked for any of them. -/
def CommitsBeforeScan (w : World (Option ι) Db Lock Identity Stmt PyError Unit) : Option ι → Prop
  | none => True
  | some i => (w.sessions (some i)).prog.isCommit = true →
    ∀ st ∈ (op i).scans blocker.id blockedId (currentUser i), st ∉ (w.sessions none).log

instance (w : World (Option ι) Db Lock Identity Stmt PyError Unit) (i : Option ι) :
    Decidable (CommitsBeforeScan blocker blockedId currentUser op w i) :=
  match i with
  | none => isTrue trivial
  | some i => inferInstanceAs (Decidable ((w.sessions (some i)).prog.isCommit = true →
      ∀ st ∈ (op i).scans blocker.id blockedId (currentUser i), st ∉ (w.sessions none).log))

/-- The protocols of the requests. -/
def raceProtocol (db : Db) : Option ι → Protocol Db Lock Identity Stmt PyError Unit
  | none => blockProtocol db blocker.id blockedId
  | some i => interactionProtocol db blocker.id blockedId
    ((op i).scans blocker.id blockedId (currentUser i))

/-- What holds of every world that such a run reaches: a block that is committed has nothing between
the two users, and if it is new, everything between them has been looked for. -/
structure BlockRun (db : Db) (w : World (Option ι) Db Lock Identity Stmt PyError Unit) : Prop where
  holds : w.Holds (raceProtocol blocker blockedId currentUser op db)
  settles : db.Settles w.committed
  apart : w.committed.Blocked blocker.id blockedId → ¬ w.committed.Interact blocker.id blockedId
  scanned : w.committed.Blocked blocker.id blockedId → db.Blocked blocker.id blockedId ∨
    ∀ l : Link, l.Between db blocker.id blockedId →
      l.scan blocker.id blockedId ∈ (w.sessions none).log

variable {c blocker blockedId currentUser op} {db : Db}
  {w w' : World (Option ι) Db Lock Identity Stmt PyError Unit}

omit [Fintype ι] [DecidableEq ι] in
/-- At first nothing has been committed and nobody has scanned. -/
theorem blockRun_start (hne : blocker.id ≠ blockedId)
    (hreach : ∀ i, (op i).Reaches db blocker.id blockedId (currentUser i))
    (hadmin : ∀ i, ¬ db.IsAdmin (some (currentUser i).id))
    (hdb : db.Blocked blocker.id blockedId → ¬ db.Interact blocker.id blockedId) :
    BlockRun blocker blockedId currentUser op db
      (blockWorld c blocker blockedId currentUser op db) where
  holds
    | none => holds_createBlock (c none) blocker blockedId db
    | some i => holds_interaction (c (some i)) hne (hadmin i) (hreach i)
  settles := .refl db
  apart := hdb
  scanned := .inl

/-- The commit of the block. -/
theorem BlockRun.step_block (h : BlockRun blocker blockedId currentUser op db w)
    (hs : w.step none = some w') : BlockRun blocker blockedId currentUser op db w' := by
  have hlog : ∀ st, st ∈ (w.sessions none).log → st ∈ (w'.sessions none).log :=
    fun st => World.mem_log_of_step hs
  have hholds : w'.Holds (raceProtocol blocker blockedId currentUser op db) := by
    refine h.holds.step hs fun hguar j hj => ?_
    cases j with
    | none => exact absurd rfl hj
    | some i => exact hguar.1
  rcases h.holds.guar_of_step hs with hsame | ⟨hsettles, hgone⟩
  · refine ⟨hholds, ?_, ?_, ?_⟩
    · rw [hsame]
      exact h.settles
    · rw [hsame]
      exact h.apart
    · rw [hsame]
      exact fun hb => (h.scanned hb).imp_right fun hall l hl => hlog _ (hall l hl)
  · have hsettled := h.settles.trans hsettles
    refine ⟨hholds, hsettled, fun _ => ?_, fun _ => .inr fun l hl => hlog _ (hgone l hl).1⟩
    rintro ⟨l, hhas, hl⟩
    exact (hgone l (hsettled.between_iff.mp hl)).2 hhas

/-- The commit of another request: the block has not looked for what it adds, so no block is
committed. -/
theorem BlockRun.step_interaction (h : BlockRun blocker blockedId currentUser op db w) {i : ι}
    (hreach : (op i).Reaches db blocker.id blockedId (currentUser i))
    (hC : CommitsBeforeScan blocker blockedId currentUser op w (some i))
    (hs : w.step (some i) = some w') : BlockRun blocker blockedId currentUser op db w' := by
  have hlog : ∀ st, st ∈ (w.sessions none).log → st ∈ (w'.sessions none).log :=
    fun st => World.mem_log_of_step hs
  obtain ⟨-, -, -, -, hcommit⟩ := World.step_spec hs
  have hguar := h.holds.guar_of_step hs
  have hscans : w'.committed = w.committed ∨
      ∀ st ∈ (op i).scans blocker.id blockedId (currentUser i), st ∉ (w.sessions none).log := by
    refine hcommit.imp_right ?_
    rintro ⟨k, hk, -⟩
    exact hC (by rw [hk]; rfl)
  have hrely : AddsLinks (fun l => l.scan blocker.id blockedId ∉ (w.sessions none).log)
      w.committed w'.committed := by
    rcases hscans with hsame | hscans
    · rw [hsame]
      exact .refl _
    rcases hguar with hsame | ⟨-, hadds⟩
    · rw [hsame]
      exact .refl _
    · exact hadds.mono fun l hl => hscans _ hl
  have hholds : w'.Holds (raceProtocol blocker blockedId currentUser op db) := by
    refine h.holds.step hs fun _ j hj => ?_
    cases j with
    | none => exact hrely
    | some j => exact hrely.settles
  refine ⟨hholds, h.settles.trans hrely.settles, fun hb => ?_, fun hb => ?_⟩
  · rw [hrely.blocked_iff] at hb
    rcases hscans with hsame | hscans
    · rw [hsame]
      exact h.apart hb
    rcases hguar with hsame | ⟨hfree, -⟩
    · rw [hsame]
      exact h.apart hb
    · -- a new block has looked for the link that this request adds
      obtain ⟨l, hl, hscan⟩ := hreach.between
      have hall := (h.scanned hb).resolve_left hfree
      exact absurd (hall l hl) (hscans _ hscan)
  · rw [hrely.blocked_iff] at hb
    exact (h.scanned hb).imp_right fun hall l hl => hlog _ (hall l hl)

/-- One block and any number of follows, likes and bookmarks between the two users, interleaved in
any order in which each of the latter commits before the block looks for what it adds: in every
state that is reached, a block that is committed has nothing between the two users. -/
theorem not_interact_of_commitsBeforeScan (c : Option ι → Ctx) (blocker : User) (blockedId : Uuid)
    (currentUser : ι → User) (op : ι → SocialOp) (db : Db) (sched : List (Option ι))
    (w : World (Option ι) Db Lock Identity Stmt PyError Unit) (hne : blocker.id ≠ blockedId)
    (hreach : ∀ i, (op i).Reaches db blocker.id blockedId (currentUser i))
    (hadmin : ∀ i, ¬ db.IsAdmin (some (currentUser i).id))
    (hdb : db.Blocked blocker.id blockedId → ¬ db.Interact blocker.id blockedId)
    (hexec : (blockWorld c blocker blockedId currentUser op db).exec sched = some w)
    (hsteps : (blockWorld c blocker blockedId currentUser op db).Always
      (CommitsBeforeScan blocker blockedId currentUser op) sched)
    (hblocked : w.committed.Blocked blocker.id blockedId) :
    ¬ w.committed.Interact blocker.id blockedId := by
  have hrun : BlockRun blocker blockedId currentUser op db w := by
    refine World.exec_induction ?_ (blockRun_start hne hreach hadmin hdb) hsteps hexec
    intro w i w' h hC hs
    cases i with
    | none => exact h.step_block hs
    | some i => exact h.step_interaction (hreach i) hC hs
  exact hrun.apart hblocked

end Runs

/-! ## A follow during a block -/

def blockingUser : User := User.create 1 "clerk" "sub_1" "ada" "Ada" 0
def followingUser : User := User.create 2 "clerk" "sub_2" "bob" "Bob" 0

def followCtx : Option (Fin 1) → Ctx
  | none => .fixed 1 8
  | some _ => .fixed 1 9

/-- Bob follows ada while ada blocks bob. -/
def followDuringBlock : World (Option (Fin 1)) Db Lock Identity Stmt PyError Unit :=
  blockWorld followCtx blockingUser followingUser.id (fun _ => followingUser)
    (fun _ => .followUser blockingUser.id) twoUsersDb

/-- The follow of the example reaches the blocker. -/
theorem reaches_followDuringBlock (i : Fin 1) :
    (SocialOp.followUser blockingUser.id).Reaches twoUsersDb blockingUser.id followingUser.id
      ((fun _ : Fin 1 => followingUser) i) :=
  .inr ⟨rfl, rfl⟩

/-- The follow is over when the block begins. -/
def followFirst : List (Option (Fin 1)) := List.replicate 6 (some 0) ++ List.replicate 13 none

/-- The follow has sent its statements when the block begins, and commits after it. -/
def followAcross : List (Option (Fin 1)) :=
  List.replicate 3 (some 0) ++ (List.replicate 12 none ++ List.replicate 3 (some 0))

/-- A follow that commits before the scan is removed. -/
theorem not_interact_of_commitsBeforeScan_followFirst :
    ¬ ((followDuringBlock.exec followFirst).get (by decide)).committed.Interact
      blockingUser.id followingUser.id :=
  not_interact_of_commitsBeforeScan followCtx blockingUser followingUser.id
    (fun _ => followingUser) (fun _ => .followUser blockingUser.id) twoUsersDb followFirst _
    (by decide) reaches_followDuringBlock (fun _ => by decide)
    reachable_twoUsersDb.keepsApart.not_interact (Option.some_get _).symm (by decide) (by decide)

/-- One that commits after the scan stays. -/
theorem block_can_leave_follow :
    ¬ ∀ (n : ℕ) (c : Option (Fin n) → Ctx) (blocker : User) (blockedId : Uuid)
      (currentUser : Fin n → User) (op : Fin n → SocialOp) (db : Db) (sched : List (Option (Fin n)))
      (w : World (Option (Fin n)) Db Lock Identity Stmt PyError Unit), blocker.id ≠ blockedId →
      (∀ i, (op i).Reaches db blocker.id blockedId (currentUser i)) →
      (∀ i, ¬ db.IsAdmin (some (currentUser i).id)) →
      Reachable db → (blockWorld c blocker blockedId currentUser op db).exec sched = some w →
      w.Closed → w.committed.Blocked blocker.id blockedId →
      ¬ w.committed.Interact blocker.id blockedId := by
  intro h
  have hapart := h 1 followCtx blockingUser followingUser.id (fun _ => followingUser)
    (fun _ => .followUser blockingUser.id) twoUsersDb followAcross
    ((followDuringBlock.exec followAcross).get (by decide)) (by decide) reaches_followDuringBlock
    (fun _ => by decide) reachable_twoUsersDb (Option.some_get _).symm
    (show ∀ i, (((followDuringBlock.exec followAcross).get (by decide)).sessions i).closed = true by
      decide) (by decide)
  refine hapart ⟨.follow ⟨followingUser.id, blockingUser.id, 1⟩, ?_, .inr ⟨rfl, rfl⟩⟩
  show _ ∈ ((followDuringBlock.exec followAcross).get (by decide)).committed.follows
  decide

end OburBackend
