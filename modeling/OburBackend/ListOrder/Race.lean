import OburBackend.ListOrder.Refinement

/-!
# Reordering a list from several devices

A request reads the order of the list, computes a key for a gap in it, and writes the key later.
When it commits, the gap need not be free any more: two requests that have found the same gap get
the same key for it, and no constraint refuses the second. The damage shows up later, when a request
asks for a key between the two.

In a run in which the gap of each request is still free when the request commits, the positions stay
distinct. The gap is the one that the request has found in what it has read (`ListCall.gap`), where
the moved item stands as the session has loaded it.
-/

namespace OburBackend

open Sql Fractional

/-- The items of the list in order, as a session reads them. -/
def itemsAsRead (c : Ctx) (listId : Uuid) (loaded : Option ListItem) (me : Identity) (db : Db) :
    List ListItem :=
  (orderBy (fun a b => decide (a.position ≤ b.position)) c.itemPlan
    (listItems.rows me db fun r => decide (r.listId = listId))).map (asLoaded loaded)

/-- The gap that a request has found, given the data that its queries have seen, the latest first:
the items before its place and those after it. -/
def ListCall.gap (listId : Uuid) : ListCall → List Db → Option (List ListItem × List ListItem)
  | .add c u _ afterItemId, order :: _ =>
    ((Place.ofAdd afterItemId).cut (itemsAsRead c listId none (some u.id) order)).toOption
  | .move c u itemId afterItemId, order :: load :: _ =>
    ((Place.ofMove afterItemId).cut
      (itemsAsRead c listId (listItems.lookup (some u.id) load itemId) (some u.id) order)).toOption
  | _, _ => none

/-- No item of the list lies in the gap, that of the request apart. -/
def ListCall.GapFree (listId : Uuid) (call : ListCall) (rs : List Db) (db : Db) : Prop :=
  ∀ gap ∈ call.gap listId rs, ∀ r ∈ db.listItems, r.listId = listId → r.id ≠ call.target →
    ¬ Between (lower ListItem.position gap.1) (upper ListItem.position gap.2) r.position

instance (listId : Uuid) (call : ListCall) (rs : List Db) (db : Db) :
    Decidable (call.GapFree listId rs db) :=
  Option.decidableForallMem _

/-- The package raises unless its first key is below its second. -/
def ListCall.RaisesUnordered : ListCall → Prop
  | .add c .. | .move c .. => ∀ a b k, c.generateKeyBetween (some a) (some b) = some k → a < b
  | .remove .. => True

/-- No two items of the list have the same position. -/
def Db.DistinctPositions (db : Db) (listId : Uuid) : Prop :=
  ∀ r ∈ db.listItems, ∀ r' ∈ db.listItems, r.listId = listId → r'.listId = listId →
    r.position = r'.position → r = r'

/-- The positions are distinct and keys, and the accounts are those of `db₀`. -/
structure InOrder (db₀ : Db) (listId : Uuid) (IsKey : String → Prop) (db : Db) : Prop where
  distinct : db.DistinctPositions listId
  keys : ∀ r ∈ db.listItems, r.listId = listId → IsKey r.position
  users : db.users = db₀.users

/-- What a request commits: rows that were there, and its target with a key for the gap. -/
structure Fills (listId : Uuid) (IsKey : String → Prop) (call : ListCall) (rs : List Db)
    (s s' : Db) : Prop where
  rows : ∀ r ∈ s'.listItems, r ∈ s.listItems ∨ r.id = call.target ∧ IsKey r.position ∧
    ∃ gap ∈ call.gap listId rs,
      Between (lower ListItem.position gap.1) (upper ListItem.position gap.2) r.position
  users : s'.users = s.users

section Order

variable {db₀ s s' : Db} {listId : Uuid} {IsKey : String → Prop} {call : ListCall} {rs : List Db}

/-- A request that fills a free gap leaves the list in order. -/
theorem InOrder.fill (h : InOrder db₀ listId IsKey s) (hfills : Fills listId IsKey call rs s s')
    (hfree : call.GapFree listId rs s) : InOrder db₀ listId IsKey s' where
  distinct := by
    have hnew : ∀ r ∈ s'.listItems, ∀ r' ∈ s'.listItems, r.id = call.target → r' ∈ s.listItems →
        r'.listId = listId → r.position = r'.position → (∃ gap ∈ call.gap listId rs,
          Between (lower ListItem.position gap.1) (upper ListItem.position gap.2) r.position) →
        r = r' := by
      rintro r hr r' hr' hid hold hlist' heq ⟨gap, hgap, hbetween⟩
      by_contra hne
      have hother : r'.id ≠ call.target := by
        intro hid'
        exact hne (Table.eq_of_key_eq hr hr' (hid.trans hid'.symm))
      rw [heq] at hbetween
      exact hfree gap hgap r' hold hlist' hother hbetween
    intro r hr r' hr' hlist hlist' heq
    rcases hfills.rows r hr with hold | ⟨hid, -, hgap⟩
    · rcases hfills.rows r' hr' with hold' | ⟨hid', -, hgap'⟩
      · exact h.distinct r hold r' hold' hlist hlist' heq
      · exact (hnew r' hr' r hr hid' hold hlist heq.symm hgap').symm
    · rcases hfills.rows r' hr' with hold' | ⟨hid', -, -⟩
      · exact hnew r hr r' hr' hid hold' hlist' heq hgap
      · exact Table.eq_of_key_eq hr hr' (hid.trans hid'.symm)
  keys r hr hlist := by
    rcases hfills.rows r hr with hold | ⟨-, hkey, -⟩
    · exact h.keys r hold hlist
    · exact hkey
  users := hfills.users.trans h.users

/-- A list in order is a list of items. -/
theorem InOrder.listedAs (h : InOrder db₀ listId IsKey s) :
    ∃ items, ListedAs s listId IsKey items := by
  let rows := s.listItems.select fun r => decide (r.listId = listId)
  have hrows : ∀ r, r ∈ rows ↔ r ∈ s.listItems ∧ r.listId = listId := by
    intro r
    rw [Table.mem_select, decide_eq_true_eq]
  have hdistinct : ∀ r ∈ rows, ∀ r' ∈ rows, r.position = r'.position → r = r' := by
    intro r hr r' hr' heq
    obtain ⟨hr, hlist⟩ := (hrows r).mp hr
    obtain ⟨hr', hlist'⟩ := (hrows r').mp hr'
    exact h.distinct r hr r' hr' hlist hlist' heq
  refine ⟨orderBy (fun a b => decide (a.position ≤ b.position)) .sequential rows, ?_, ?_, ?_⟩
  · exact Ordered.orderBy .sequential (s.listItems.select_nodup _) hdistinct
  · intro r
    rw [mem_orderBy, hrows]
  · intro r hr
    rw [mem_orderBy, hrows] at hr
    exact h.keys r hr.1 hr.2

end Order

/-! ## What each request promises -/

/-- The session, which has seen the data `rs`, commits nothing but what fills its gap, while the
list is in order. -/
abbrev KeepsOrder {α : Type} (db₀ : Db) (listId : Uuid) (IsKey : String → Prop) (call : ListCall)
    (p : Service α) (L : Local Db Lock Identity Stmt) (rs : List Db) : Prop :=
  ReadsWp (InOrder db₀ listId IsKey) (Fills listId IsKey call) (fun _ _ _ => True) p L rs

section Promises

variable {db₀ : Db} {listId itemId venueId : Uuid} {IsKey : String → Prop} {call : ListCall}
  {c : Ctx} {currentUser : User} {L : Local Db Lock Identity Stmt} {rs : List Db}

/-- A request that only reads from here on. -/
theorem keepsOrder_readOnly {α : Type} {p : Service α} (hp : p.ReadOnly) :
    KeepsOrder db₀ listId IsKey call p L rs :=
  hp.readsWp fun _ _ _ _ _ => trivial

/-- After queries the transaction is as it was. -/
theorem keepsOrder_bind {α β : Type} {p : Service α} {f : α → Service β} (hp : p.ReadOnly)
    (hf : ∀ a L' rs', L'.vars = L.vars → L'.pending = L.pending →
      KeepsOrder db₀ listId IsKey call (f a) L' rs') :
    KeepsOrder db₀ listId IsKey call (p.bind f) L rs := by
  rw [KeepsOrder, readsWp_bind]
  refine hp.readsWp fun res L' rs' hvars hpending => ?_
  cases res with
  | ok a => exact hf a L' rs' hvars hpending
  | error e => trivial

/-- A commit that leaves the items as they are. -/
theorem fills_refl (s : Db) : Fills listId IsKey call rs s s := ⟨fun _ hr => .inl hr, rfl⟩

/-- What the package returns for two keys is a key between them, if it raises unless the first is
below the second. -/
theorem between_of_generateKeyBetween (hc : c.GeneratesKeys IsKey)
    (hraises : ∀ a b k, c.generateKeyBetween (some a) (some b) = some k → a < b)
    {a b : Option String} (ha : ∀ x ∈ a, IsKey x) (hb : ∀ y ∈ b, IsKey y) {k : String}
    (hk : c.generateKeyBetween a b = some k) : IsKey k ∧ Between a b k := by
  have hlt : ∀ x ∈ a, ∀ y ∈ b, x < y := by
    rintro x rfl y rfl
    exact hraises x y k hk
  obtain ⟨k', hk', hkey, hbetween⟩ := hc a b ha hb hlt
  obtain rfl := Option.some.inj (hk.symm.trans hk')
  exact ⟨hkey, hbetween⟩

/-- What a session reads of a list in order has keys for positions, and so has what it has loaded
of it. -/
theorem InOrder.isKey_itemsAsRead {s : Db} (h : InOrder db₀ listId IsKey s)
    {loaded : Option ListItem} (hloaded : ∀ item ∈ loaded, IsKey item.position) (me : Identity) :
    ∀ r ∈ itemsAsRead c listId loaded me s, IsKey r.position := by
  intro r hr
  obtain ⟨x, hx, rfl⟩ := List.mem_map.mp hr
  rw [mem_orderBy, TableDef.mem_rows, decide_eq_true_eq] at hx
  rw [asLoaded]
  cases hfound : loaded.filter fun item => decide (item.id = x.id) with
  | none => exact h.keys x hx.1 hx.2.1
  | some item => exact hloaded item (Option.filter_eq_some_iff.mp hfound).1

/-- A key for the gap at a place. -/
theorem keepsOrder_placePosition {α : Type} {place : Place} {loaded : Option ListItem}
    {f : String → Service α} (hc : c.GeneratesKeys IsKey)
    (hraises : ∀ a b k, c.generateKeyBetween (some a) (some b) = some k → a < b)
    (hloaded : ∀ item ∈ loaded, IsKey item.position) (hpending : L.pending = [])
    (hf : ∀ s k before after L', L'.vars = L.vars → L'.pending = [] →
      place.cut (itemsAsRead c listId loaded L.vars s) = .ok (before, after) → IsKey k →
      Between (lower ListItem.position before) (upper ListItem.position after) k →
      KeepsOrder db₀ listId IsKey call (f k) L' (s :: rs)) :
    KeepsOrder db₀ listId IsKey call ((placePosition c listId loaded place).bind f) L rs := by
  simp only [placePosition, orderedItems, Prog.bind_eq, Prog.bind_assoc]
  rw [KeepsOrder, readsWp_query_bind]
  intro s hs
  rw [Local.view_eq_self hpending]
  have hkeys := hs.isKey_itemsAsRead (c := c) hloaded L.vars
  show KeepsOrder db₀ listId IsKey call
    ((gapPosition c (place.cut (itemsAsRead c listId loaded L.vars s))).bind f) _ _
  cases hcut : place.cut (itemsAsRead c listId loaded L.vars s) with
  | error missing => trivial
  | ok cut =>
    obtain ⟨before, after⟩ := cut
    rw [Place.append_of_cut hcut] at hkeys
    obtain ⟨hlower, hupper⟩ := ListedAs.isKey_bounds hkeys
    dsimp only [gapPosition]
    rw [generateKeyBetween]
    cases hk : c.generateKeyBetween (lower ListItem.position before)
        (upper ListItem.position after) with
    | none => trivial
    | some k =>
      obtain ⟨hkey, hbetween⟩ := between_of_generateKeyBetween hc hraises hlower hupper hk
      exact hf s k before after _ rfl hpending hcut hkey hbetween

/-- Adding the row of the target with a key for the gap. -/
theorem keepsOrder_storeItem {item : ListItem} (hpending : L.pending = [])
    (hid : item.id = call.target) (hkey : IsKey item.position)
    (hgap : ∃ gap ∈ call.gap listId rs,
      Between (lower ListItem.position gap.1) (upper ListItem.position gap.2) item.position) :
    KeepsOrder db₀ listId IsKey call (storeItem item) L rs := by
  simp only [storeItem, Prog.bind_eq]
  rw [KeepsOrder, readsWp_insert_bind]
  refine fun s _ => ⟨fun wr hw => ?_, fun _ _ => trivial⟩
  obtain ⟨-, -, -, -, rfl⟩ := listItems.insertWrite_eq_ok.mp hw
  rw [readsWp_commit_bind]
  refine ⟨fun s' _ => ⟨fun r hr => ?_, ?_⟩, keepsOrder_readOnly (readOnly_refresh _ _)⟩
  · rw [Local.view_wrote, Local.view_saw, Local.view_eq_self hpending] at hr
    rcases Table.mem_or_eq_of_mem_insert hr with hr | rfl
    · exact .inl hr
    · exact .inr ⟨hid, hkey, hgap⟩
  · rw [Local.view_wrote, Local.view_saw, Local.view_eq_self hpending]
    rfl

/-- Writing a key for the gap to the target. -/
theorem keepsOrder_storePosition {item : ListItem} {k : String} (hpending : L.pending = [])
    (hkey : IsKey k) (hgap : ∃ gap ∈ call.gap listId rs,
      Between (lower ListItem.position gap.1) (upper ListItem.position gap.2) k) :
    KeepsOrder db₀ listId IsKey call (storePosition item call.target k) L rs := by
  have hrefresh : (refresh listItems call.target).ReadOnly := readOnly_refresh _ _
  simp only [storePosition, Prog.bind_eq]
  split
  · rw [KeepsOrder, readsWp_update_bind]
    refine fun s _ => ⟨fun wr hw => ?_, fun _ _ => trivial⟩
    obtain ⟨-, -, -, -, -, -, -, -, rfl⟩ := listItems.updateWrite_eq_ok hw
    rw [readsWp_commit_bind]
    refine ⟨fun s' _ => ⟨fun r hr => ?_, ?_⟩, keepsOrder_readOnly hrefresh⟩
    · rw [Local.view_wrote, Local.view_saw, Local.view_eq_self hpending] at hr
      obtain ⟨y, hy, rfl⟩ := mem_setPosition.mp hr
      split
      · next hid => exact .inr ⟨hid, hkey, hgap⟩
      · exact .inl hy
    · rw [Local.view_wrote, Local.view_saw, Local.view_eq_self hpending]
      rfl
  · rw [KeepsOrder, readsWp_commit_bind]
    refine ⟨fun s' _ => ?_, keepsOrder_readOnly hrefresh⟩
    rw [Local.view_eq_self hpending]
    exact fills_refl s'

/-- An addition that commits to a free gap keeps the order of the keys. -/
theorem keepsOrder_addListItem (hc : c.GeneratesKeys IsKey)
    (hraises : ∀ a b k, c.generateKeyBetween (some a) (some b) = some k → a < b)
    (afterItemId : Option Uuid) (hvars : L.vars = some currentUser.id) (hpending : L.pending = []) :
    KeepsOrder db₀ listId IsKey (.add c currentUser venueId afterItemId)
      (addListItem c listId currentUser venueId afterItemId) L rs := by
  rw [addListItem_eq]
  refine keepsOrder_bind (readOnly_addChecks _ _ _) fun _ L₁ rs₁ hvars₁ hpending₁ => ?_
  refine keepsOrder_placePosition hc hraises (by simp) (hpending₁.trans hpending)
    fun s k before after L₂ _ hpending₂ hcut hkey hbetween => ?_
  rw [hvars₁, hvars] at hcut
  refine keepsOrder_storeItem hpending₂ rfl hkey ⟨(before, after), ?_, hbetween⟩
  exact congrArg Except.toOption hcut

/-- The item that a move is about, as the last query has seen it. -/
theorem keepsOrder_itemChecks {α : Type} {f : ListItem → Service α} (hpending : L.pending = [])
    (hf : ∀ item s L' rs', L'.vars = L.vars → L'.pending = [] → InOrder db₀ listId IsKey s →
      listItems.lookup L.vars s itemId = some item → item.listId = listId →
      KeepsOrder db₀ listId IsKey call (f item) L' (s :: rs')) :
    KeepsOrder db₀ listId IsKey call ((itemChecks listId itemId currentUser).bind f) L rs := by
  simp only [itemChecks, Prog.bind_eq, Prog.bind_assoc]
  rw [KeepsOrder, readsWp_get_bind]
  intro s₀ _
  cases lists.lookup L.vars (L.view s₀) listId with
  | none => trivial
  | some venueList =>
    simp only [Prog.bind_assoc]
    refine keepsOrder_bind (readOnly_ensureListOwned ..) fun _ L₁ rs₁ hvars₁ hpending₁ => ?_
    rw [KeepsOrder, readsWp_get_bind]
    intro s hs
    have hnone : L₁.pending = [] := hpending₁.trans hpending
    rw [Local.view_eq_self hnone]
    cases hitem : listItems.lookup L₁.vars s itemId with
    | none => trivial
    | some item =>
      dsimp only
      split
      · trivial
      · next hlist =>
        have hsame : L₁.vars = L.vars := hvars₁
        rw [hsame] at hitem
        exact hf item s _ rs₁ hsame hnone hs hitem (not_not.mp hlist)

/-- So does a move. -/
theorem keepsOrder_moveListItem (hc : c.GeneratesKeys IsKey)
    (hraises : ∀ a b k, c.generateKeyBetween (some a) (some b) = some k → a < b)
    (afterItemId : Option Uuid) (hvars : L.vars = some currentUser.id) (hpending : L.pending = []) :
    KeepsOrder db₀ listId IsKey (.move c currentUser itemId afterItemId)
      (moveListItem c listId itemId currentUser afterItemId) L rs := by
  rw [moveListItem_eq]
  refine keepsOrder_itemChecks hpending
    fun item load L₁ rs₁ hvars₁ hpending₁ hload hitem hlist => ?_
  rw [hvars] at hitem hvars₁
  obtain ⟨hmem, -, -⟩ := listItems.lookup_eq_some.mp hitem
  have hloaded : ∀ x ∈ some item, IsKey x.position := by
    simpa using hload.keys item hmem hlist
  refine keepsOrder_placePosition hc hraises hloaded hpending₁
    fun s k before after L₂ _ hpending₂ hcut hkey hbetween => ?_
  rw [hvars₁, ← hitem] at hcut
  have hgap : (ListCall.move c currentUser itemId afterItemId).gap listId (s :: load :: rs₁) =
      some (before, after) := congrArg Except.toOption hcut
  exact keepsOrder_storePosition hpending₂ hkey ⟨_, hgap, hbetween⟩

/-- A removal always does. -/
theorem keepsOrder_removeListItem (hpending : L.pending = []) :
    KeepsOrder db₀ listId IsKey (.remove currentUser itemId)
      (removeListItem listId itemId currentUser) L rs := by
  rw [removeListItem_eq]
  refine keepsOrder_itemChecks hpending fun item load L₁ rs₁ _ hpending₁ _ _ _ => ?_
  rw [KeepsOrder, readsWp_delete_bind]
  refine fun s _ => ⟨fun wr hw => ⟨fun s' _ => ?_, trivial⟩, fun _ _ => trivial⟩
  obtain ⟨-, rfl⟩ := listItems.deleteWrite_eq_ok.mp hw
  rw [Local.view_wrote, Local.view_saw, Local.view_eq_self hpending₁ s']
  exact ⟨fun r hr => .inl (Table.mem_erase.mp hr).1, rfl⟩

/-- Dropping the result of a request. -/
theorem keepsOrder_drop {α : Type} {p : Service α} (h : KeepsOrder db₀ listId IsKey call p L rs) :
    KeepsOrder db₀ listId IsKey call (p.bind fun _ => (return () : Service Unit)) L rs := by
  rw [KeepsOrder, readsWp_bind]
  refine ReadsWp.mono (fun res _ _ _ => ?_) h
  cases res <;> trivial

/-- Each request keeps the list in order, if it finds its gap free. -/
theorem keepsOrder_prog (call : ListCall) (hkeys : call.GeneratesKeys IsKey)
    (hraises : call.RaisesUnordered) :
    KeepsOrder db₀ listId IsKey call (call.prog listId)
      (Local.start (some call.currentUser.id)) [] := by
  cases call with
  | add c u venueId afterItemId =>
    exact keepsOrder_drop (keepsOrder_addListItem hkeys hraises afterItemId rfl rfl)
  | move c u itemId afterItemId =>
    exact keepsOrder_drop (keepsOrder_moveListItem hkeys hraises afterItemId rfl rfl)
  | remove u itemId => exact keepsOrder_removeListItem rfl

end Promises

/-! ## Every run -/

section Runs

variable {ι : Type} [Fintype ι] [DecidableEq ι]

/-- The requests before their first statements. -/
def listRace (listId : Uuid) (call : ι → ListCall) (db : Db) :
    Reading ι Db Lock Identity Stmt PyError Unit :=
  Reading.start db fun i => Session.start (some (call i).currentUser.id) ((call i).prog listId)

/-- The gap that a request has found is free when the request commits. -/
def CommitsToFreeGap (listId : Uuid) (call : ι → ListCall)
    (w : Reading ι Db Lock Identity Stmt PyError Unit) (i : ι) : Prop :=
  (w.world.sessions i).prog.isCommit = true →
    (call i).GapFree listId (w.reads i) w.world.committed

instance (listId : Uuid) (call : ι → ListCall)
    (w : Reading ι Db Lock Identity Stmt PyError Unit) (i : ι) :
    Decidable (CommitsToFreeGap listId call w i) :=
  inferInstanceAs (Decidable (_ → _))

/-- Any number of requests on one list, interleaved in any order in which the gap of each is free
when it commits: in every state that is reached the positions are distinct, and no request that
comes later asks for a key but between two of which the first is below the second. -/
theorem distinct_of_commitsToFreeGap (listId : Uuid) (IsKey : String → Prop)
    (call : ι → ListCall) (db : Db) (sched : List ι)
    (w : Reading ι Db Lock Identity Stmt PyError Unit)
    (hkeys : ∀ i, (call i).GeneratesKeys IsKey) (hraises : ∀ i, (call i).RaisesUnordered)
    (hdistinct : db.DistinctPositions listId)
    (hpositions : ∀ r ∈ db.listItems, r.listId = listId → IsKey r.position)
    (hexec : (listRace listId call db).exec sched = some w)
    (hsteps : (listRace listId call db).Always (CommitsToFreeGap listId call) sched) :
    w.world.committed.DistinctPositions listId ∧
      ∀ later : ListCall, later.GeneratesKeys IsKey → db.Stored later.currentUser →
        (later.guarded.prog listId).outcome (some later.currentUser.id) w.world.committed ≠
          .error .invalidOrderKey := by
  have hstart : (listRace listId call db).Holds (InOrder db listId IsKey)
      fun i => Fills listId IsKey (call i) :=
    Reading.holds_start ⟨hdistinct, hpositions, rfl⟩ fun i =>
      keepsOrder_prog (call i) (hkeys i) (hraises i)
  have hend : w.Holds (InOrder db listId IsKey) fun i => Fills listId IsKey (call i) := by
    refine Reading.exec_induction (fun w i w' h hfree hs => ?_) hstart hsteps hexec
    exact h.step hs fun s' hcommit hfills => h.inv.fill hfills (hfree hcommit)
  obtain ⟨items, hlisted⟩ := hend.inv.listedAs
  refine ⟨hend.inv.distinct, fun later hlater hcaller => ?_⟩
  refine later.guarded_ne_invalidOrderKey hlisted hlater ?_
  rwa [Db.Stored, hend.inv.users]

end Runs

/-! ## Two venues added at once -/

/-- Ada adds two venues to the empty list, each from a device of its own. -/
def twoDevices : Fin 2 → ListCall
  | 0 => .add (.sample 1 21) listOwner 6 none
  | 1 => .add (.sample 1 22) listOwner 7 none

def phone : Fin 2 := ⟨0, by decide⟩
def tablet : Fin 2 := ⟨1, by decide⟩

/-- The first request is over when the second begins. -/
def addInTurn : List (Fin 2) := List.replicate 8 phone ++ List.replicate 8 tablet

/-- Both requests have read the empty list when the first one writes. -/
def addAtOnce : List (Fin 2) :=
  List.replicate 4 phone ++ List.replicate 4 tablet ++ List.replicate 4 phone ++
    List.replicate 4 tablet

/-- The two devices have generators that find keys. -/
theorem generatesKeys_twoDevices : (i : Fin 2) → (twoDevices i).GeneratesKeys IsSampleKey
  | 0 => generatesKeys_sample 1 21
  | 1 => generatesKeys_sample 1 22

/-- The sample generator refuses two keys that are not in order. -/
theorem sampleKey_lt {a b k : String} (h : sampleKey (some a) (some b) = some k) : a < b := by
  by_contra hlt
  simp [sampleKey, hlt] at h

/-- So do the generators of both devices. -/
theorem raisesUnordered_twoDevices : (i : Fin 2) → (twoDevices i).RaisesUnordered
  | 0 | 1 => fun _ _ _ => sampleKey_lt

/-- Two additions in turn get two positions. -/
theorem distinct_of_commitsToFreeGap_addInTurn :
    (((listRace 5 twoDevices emptyListDb).exec addInTurn).get
      (by decide)).world.committed.DistinctPositions 5 := by
  have hnone : ∀ r, r ∉ emptyListDb.listItems := Table.not_mem_empty
  exact (distinct_of_commitsToFreeGap 5 IsSampleKey twoDevices emptyListDb addInTurn _
    generatesKeys_twoDevices raisesUnordered_twoDevices (fun r hr => absurd hr (hnone r))
    (fun r hr => absurd hr (hnone r)) (Option.some_get _).symm (by decide)).1

/-- The request adds an item, of the given venue. -/
def ListCall.Adds (venueId : Uuid) : ListCall → Prop
  | .add _ _ id _ => id = venueId
  | .move .. | .remove .. => False

/-- The request adds an item or moves one. -/
def ListCall.Places : ListCall → Prop
  | .add .. | .move .. => True
  | .remove .. => False

/-- The state after both requests. -/
def addedAtOnce : Reading (Fin 2) Db Lock Identity Stmt PyError Unit :=
  ((listRace 5 twoDevices emptyListDb).exec addAtOnce).get (by decide)

/-- Two additions at once may get one. -/
theorem adds_at_once_can_collide :
    ¬ ∀ (n : ℕ) (listId : Uuid) (IsKey : String → Prop) (call : Fin n → ListCall) (db : Db)
      (sched : List (Fin n)) (w : Reading (Fin n) Db Lock Identity Stmt PyError Unit),
      (∀ i, (call i).GeneratesKeys IsKey) → (∀ i, (call i).RaisesUnordered) →
      (∀ i, (call i).Places) →
      (∀ i j venueId, (call i).Adds venueId → (call j).Adds venueId → i = j) →
      (∀ i, db.Stored (call i).currentUser) → (∀ r ∈ db.listItems, r.listId ≠ listId) →
      (listRace listId call db).exec sched = some w → w.world.Closed →
      w.world.committed.DistinctPositions listId ∧
        ∀ later : ListCall, later.GeneratesKeys IsKey → db.Stored later.currentUser →
          (later.prog listId).outcome (some later.currentUser.id) w.world.committed ≠
            .error .invalidOrderKey := by
  intro h
  have howner : emptyListDb.Stored listOwner := ⟨listOwner, by decide, rfl, rfl⟩
  have hstored : (i : Fin 2) → emptyListDb.Stored (twoDevices i).currentUser
    | 0 | 1 => howner
  have hplaces : (i : Fin 2) → (twoDevices i).Places
    | 0 | 1 => trivial
  have hvenues : (i j : Fin 2) → (venueId : Uuid) → (twoDevices i).Adds venueId →
      (twoDevices j).Adds venueId → i = j
    | 0, 0, _, _, _ | 1, 1, _, _, _ => rfl
    | 0, 1, _, h, h' | 1, 0, _, h, h' => absurd (h.trans h'.symm) (by decide)
  have hclosed : ∀ i, (addedAtOnce.world.sessions i).closed = true := by decide
  have hlater := (h 2 5 IsSampleKey twoDevices emptyListDb addAtOnce addedAtOnce
    generatesKeys_twoDevices raisesUnordered_twoDevices hplaces hvenues hstored
    (fun r hr => absurd hr (Table.not_mem_empty r)) (Option.some_get _).symm hclosed).2
  exact hlater (.move (.sample 2 23) listOwner 22 (some 21)) (generatesKeys_sample 2 23) howner
    (by decide)

end OburBackend
