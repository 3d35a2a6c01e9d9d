import OburBackend.Model.Consistent
import OburBackend.Sql.Twice

/-!
# Creating what is there already

Each operation that is documented as idempotent looks for the row that it would add and returns it
if it is there. The operations have one of two shapes: `getOrCreate` looks for the row by its
primary key, `findOrCreate` by the columns of a unique constraint. `FoundAgain` says what makes such
an operation idempotent when it is sent again after the first has committed: the row that the first
one returns is the only one stored, and the second one returns it and writes nothing.
-/

namespace OburBackend

open Sql

section Shapes

variable {ρ π : Type} {key : ρ → π} [DecidableEq π] (T : DbTable key)

/-- The row with the key of `r`, or `r`, after `check` and together with `rest`. -/
def getOrCreate (r : ρ) (check rest : Service Unit) : Service ρ := do
  match ← T.get (key r) with
  | some existing => return existing
  | none =>
    check
    T.insert r
    rest
    commit
    refresh T (key r)

/-- The row that `pick` takes of those that satisfy `p`, or `r`, after `check`. -/
def findOrCreate (table : TableName) (params : List Uuid) (p : ρ → Bool)
    (pick : List ρ → Service (Option ρ)) (r : ρ) (check : Service Unit) : Service ρ := do
  let rows ← select T table params p
  match ← pick rows with
  | some existing => return existing
  | none =>
    check
    T.insert r
    commit
    refresh T (key r)

/-! Whatever looks first and creates if it has found nothing has one of these shapes. -/

variable {T} {r : ρ} {q : Service ρ} {f : Option ρ → Service ρ} {check rest : Service Unit}

/-- A program that looks up, adds, commits and reads back is of the first shape. -/
theorem eq_getOrCreate (hq : q = (T.get (key r)).bind f)
    (hsome : ∀ existing, f (some existing) = .ret existing)
    (hnone : f none = check.bind fun _ => (T.insert r).bind fun _ => rest.bind fun _ =>
      commit.bind fun _ => refresh T (key r)) :
    q = getOrCreate T r check rest := by
  rw [hq]
  refine congrArg _ (funext fun found => ?_)
  cases found with
  | some existing => exact hsome existing
  | none => exact hnone

/-- One that queries first is of the second shape. -/
theorem eq_findOrCreate {table : TableName} {params : List Uuid} {p : ρ → Bool}
    {pick : List ρ → Service (Option ρ)}
    (hq : q = (select T table params p).bind fun rows => (pick rows).bind f)
    (hsome : ∀ existing, f (some existing) = .ret existing)
    (hnone : f none = check.bind fun _ => (T.insert r).bind fun _ => commit.bind fun _ =>
      refresh T (key r)) :
    q = findOrCreate T table params p pick r check := by
  rw [hq]
  refine congrArg _ (funext fun rows => congrArg _ (funext fun found => ?_))
  cases found with
  | some existing => exact hsome existing
  | none => exact hnone

end Shapes

/-- The request `p` returns `a` and leaves it as the only stored row. The request `p'` finds it
there, when it looks after `p` has committed: it returns the same row, and nothing that it reads
before it looks tells whether `p` has committed. -/
structure FoundAgain {ρ : Type} (p p' : Service ρ) (me : Identity) (db : Db) (look : Stmt)
    (stored : Db → List ρ) (a : ρ) : Prop where
  stored : stored (p.after me db) = [a]
  agrees : p'.AgreesUntil look me db (p.after me db)
  quiet : p'.Quiet (Conn.start me (p.after me db))
  outcome : p'.outcome me (p.after me db) = .ok a

section Rules

variable {ρ π : Type} {key : ρ → π} [DecidableEq π] {T : DbTable key} {me : Identity} {db : Db}
  {r r' a : ρ} {check check' rest rest' : Service Unit}

/-- What is read back is what is stored. -/
theorem refresh_eq_ok {conn : Conn Db Identity} {k : π}
    (h : ((refresh T k).run conn).1 = .ok a) : T.lookup conn.vars conn.working k = some a := by
  simp only [refresh, Prog.bind_eq, run_get_bind] at h
  cases hlookup : T.lookup conn.vars conn.working k with
  | none =>
    rw [hlookup] at h
    cases h
  | some x =>
    rw [hlookup] at h
    cases h
    rfl

/-- Queries first: what follows ends as it does on what they have returned. -/
theorem ok_of_bind {α β : Type} {p : Service α} {f : α → Service β} {b : β} (hp : p.ReadOnly)
    (hok : (p.bind f).outcome me db = .ok b) :
    ∃ x, p.outcome me db = .ok x ∧ (f x).outcome me db = .ok b ∧
      (p.bind f).after me db = (f x).after me db := by
  simp only [Prog.outcome, Prog.after, hp.run_bind] at hok ⊢
  cases hx : (p.run (Conn.start me db)).1 with
  | error e =>
    rw [hx] at hok
    cases hok
  | ok x =>
    rw [hx] at hok
    exact ⟨x, rfl, hok, rfl⟩

/-- A transaction that is committed and read back: the row that is returned is the one that is left
under the key. -/
theorem lookup_of_commit_refresh {q : Service Unit} {k : π} (hq : q.Uncommitted)
    (hok : (q.bind fun _ => commit.bind fun _ => refresh T k).outcome me db = .ok a) :
    T.lookup me ((q.bind fun _ => commit.bind fun _ => refresh T k).after me db) k = some a := by
  obtain ⟨-, hvars⟩ := hq.run (c := Conn.start me db)
  simp only [Prog.outcome, Prog.after, Prog.run_bind q] at hok ⊢
  generalize q.run (Conn.start me db) = x at hok hvars ⊢
  obtain ⟨res, conn⟩ := x
  cases res with
  | error e => cases hok
  | ok u =>
    simp only [run_commit_bind] at hok ⊢
    rw [(readOnly_refresh T k).run]
    have hlookup := refresh_eq_ok hok
    rwa [Conn.publish_vars, hvars] at hlookup

/-- The transaction of `getOrCreate`. -/
theorem uncommitted_body (hcheck : check.ReadOnly) (hrest : rest.Uncommitted) :
    (check.bind fun _ => (T.insert r).bind fun _ => rest).Uncommitted :=
  hcheck.uncommitted.bind fun _ => (Prog.uncommitted_insert r).bind fun _ => hrest

/-- The row that is returned is stored and seen afterwards. -/
theorem lookup_getOrCreate (hcheck : check.ReadOnly) (hrest : rest.Uncommitted)
    (hok : (getOrCreate T r check rest).outcome me db = .ok a) :
    T.lookup me ((getOrCreate T r check rest).after me db) (key r) = some a := by
  simp only [Prog.outcome, Prog.after, getOrCreate, Prog.bind_eq, run_get_bind, Conn.start_vars,
    Conn.start_working] at hok ⊢
  cases hlookup : T.lookup me db (key r) with
  | some existing =>
    rw [hlookup] at hok
    cases hok
    exact hlookup
  | none =>
    have hbody := @lookup_of_commit_refresh _ _ _ _ T me db a _ (key r)
      (uncommitted_body (T := T) (r := r) hcheck hrest)
    simp only [Prog.bind_assoc] at hbody
    rw [hlookup] at hok
    exact hbody hok

/-- The row is there already. -/
theorem getOrCreate_of_lookup {s : Db} (hlookup : T.lookup me s (key r) = some a) :
    (getOrCreate T r check rest).Quiet (Conn.start me s) ∧
      (getOrCreate T r check rest).outcome me s = .ok a := by
  have hstart : T.lookup (Conn.start me s).vars (Conn.start me s).working (key r) = some a :=
    hlookup
  constructor
  · show Prog.Quiet (match T.lookup _ _ (key r) with | some existing => _ | none => _) _
    rw [hstart]
    trivial
  · simp only [Prog.outcome, getOrCreate, Prog.bind_eq, run_get_bind, hstart]
    rfl

/-- The first request leaves the row that the second one looks for. -/
theorem foundAgain_getOrCreate (hkey : key r' = key r) (hcheck : check.ReadOnly)
    (hrest : rest.Uncommitted) (hok : (getOrCreate T r check rest).outcome me db = .ok a) :
    FoundAgain (getOrCreate T r check rest) (getOrCreate T r' check' rest') me db
      (T.stmt .select (key r)) (fun s => (T.read s).select fun x => decide (key x = key r)) a := by
  have hlookup := lookup_getOrCreate hcheck hrest hok
  obtain ⟨hmem, hakey, -⟩ := T.lookup_eq_some.mp hlookup
  obtain ⟨hquiet, houtcome⟩ :=
    @getOrCreate_of_lookup _ _ _ _ T me r' a check' rest' _ (hkey ▸ hlookup)
  refine ⟨?_, .inl (by rw [hkey]), hquiet, houtcome⟩
  exact Table.select_key (Table.get_eq_some.mpr ⟨hmem, hakey⟩)

section FindOrCreate

variable {table : TableName} {params : List Uuid} {p : ρ → Bool}
  {pick : List ρ → Service (Option ρ)}

/-- The row is there already. -/
theorem findOrCreate_of_rows {s : Db} (hpick : ∀ x, pick [x] = .ret (some x))
    (hrows : T.rows me s p = [a]) :
    (findOrCreate T table params p pick r check).Quiet (Conn.start me s) ∧
      (findOrCreate T table params p pick r check).run (Conn.start me s) =
        (.ok a, Conn.start me s) := by
  have hstart : T.rows (Conn.start me s).vars (Conn.start me s).working p = [a] := hrows
  constructor
  · show Prog.Quiet ((pick (T.rows _ _ p)).bind _) _
    rw [hstart, hpick]
    trivial
  · simp only [findOrCreate, select, Prog.bind_eq, run_query_bind, hstart, hpick]
    rfl

/-- The insertion of a row that no stored one is like, with its commit. -/
theorem select_of_insert_commit (hread : ∀ f s, T.read (T.write f s) = f (T.read s))
    (hr : p r = true)
    (hfree : T.constraints db r = true → ∀ x ∈ T.read db, key x ≠ key r → p x = false)
    (hok : ((T.insert r).bind fun _ => commit.bind fun _ => refresh T (key r)).outcome me db =
      .ok a) :
    let s := ((T.insert r).bind fun _ => commit.bind fun _ => refresh T (key r)).after me db
    (T.read s).select p = [a] ∧ T.rows me s p = [a] := by
  intro s
  obtain ⟨hmem, hkey, hsee⟩ :=
    T.lookup_eq_some.mp (lookup_of_commit_refresh (Prog.uncommitted_insert r) hok)
  have hs : s = ((T.insert r).bind fun _ => commit.bind fun _ => refresh T (key r)).after me db :=
    rfl
  rw [← hs] at hmem hsee
  simp only [Prog.after, run_insert_bind, Conn.start_vars, Conn.start_working] at hs
  cases hw : T.insertWrite me db r with
  | error e =>
    simp only [Prog.outcome, run_insert_bind, Conn.start_vars, Conn.start_working, hw] at hok
    cases hok
  | ok wr =>
    obtain ⟨-, -, hnew, hconstraints, rfl⟩ := T.insertWrite_eq_ok.mp hw
    simp only [hw, run_commit_bind] at hs
    rw [(readOnly_refresh T (key r)).run, Conn.publish_committed] at hs
    have hmem' : ∀ x, x ∈ T.read s ↔ x ∈ T.read db ∨ x = r := by
      intro x
      rw [hs, hread]
      exact Table.mem_insert hnew
    obtain rfl : a = r := Table.eq_of_key_eq hmem ((hmem' r).mpr (.inr rfl)) hkey
    have hselect : (T.read s).select p = [a] := by
      refine Table.select_eq_singleton hmem hr fun x hx hpx => ?_
      rcases (hmem' x).mp hx with hx | rfl
      · rw [hfree hconstraints x hx (Table.get_eq_none.mp hnew x hx)] at hpx
        cases hpx
      · rfl
    refine ⟨hselect, ?_⟩
    rw [T.rows_eq_filter, hselect]
    simp [T.visible_eq_true.mpr hsee]

/-- The request leaves one row that satisfies the condition, and returns it: it has found this row,
or there was none and it has added it. -/
theorem select_findOrCreate (hpick₀ : pick [] = .ret none) (hpick : ∀ x, pick [x] = .ret (some x))
    (hread : ∀ f s, T.read (T.write f s) = f (T.read s)) (hr : p r = true)
    (hcheck : check.ReadOnly)
    (hunique : ∀ x ∈ T.read db, ∀ y ∈ T.read db, p x = true → p y = true → x = y)
    (hfree : T.constraints db r = true → ∀ x ∈ T.read db, key x ≠ key r → p x = false)
    (hok : (findOrCreate T table params p pick r check).outcome me db = .ok a) :
    let s := (findOrCreate T table params p pick r check).after me db
    (T.read s).select p = [a] ∧ T.rows me s p = [a] := by
  intro s
  cases hrows : T.rows me db p with
  | cons x xs =>
    obtain ⟨hx, hpx, hsee⟩ := T.mem_rows.mp (hrows ▸ List.mem_cons_self)
    have hselect : (T.read db).select p = [x] :=
      Table.select_eq_singleton hx hpx fun y hy hpy => hunique y hy x hx hpy hpx
    have hone : T.rows me db p = [x] := by
      rw [T.rows_eq_filter, hselect]
      simp [T.visible_eq_true.mpr hsee]
    have hrun : (findOrCreate T table params p pick r check).run (Conn.start me db) =
      (.ok x, Conn.start me db) := (findOrCreate_of_rows hpick hone).2
    have hs : s = db := by
      simp only [s, Prog.after, hrun, Conn.start_committed]
    rw [Prog.outcome, hrun] at hok
    cases hok
    rw [hs]
    exact ⟨hselect, hone⟩
  | nil =>
    have hstart : T.rows (Conn.start me db).vars (Conn.start me db).working p = [] := hrows
    have hrun : (findOrCreate T table params p pick r check).run (Conn.start me db) =
        (check.bind fun _ => (T.insert r).bind fun _ => commit.bind fun _ =>
          refresh T (key r)).run (Conn.start me db) := by
      simp only [findOrCreate, select, Prog.bind_eq, run_query_bind, hstart, hpick₀]
      rfl
    rw [Prog.outcome, hrun] at hok
    obtain ⟨-, -, hinsert, hafter⟩ := ok_of_bind hcheck hok
    have hs : s = ((T.insert r).bind fun _ => commit.bind fun _ => refresh T (key r)).after me db :=
      by rw [← hafter, Prog.after, ← hrun]; rfl
    rw [hs]
    exact select_of_insert_commit hread hr hfree hinsert

/-- The first request leaves the row that the second one looks for: `p` asks for the value `b` of a
unique constraint. -/
theorem foundAgain_findOrCreate {β : Type} [DecidableEq β] {value : ρ → Option β} {b : β}
    (hunique : ∀ s x, T.constraints s x = true → uniqueIn (T.read s) value x = true)
    (hp : ∀ x, p x = true ↔ value x = some b) (hvalid : T.Valid db)
    (hpick₀ : pick [] = .ret none) (hpick : ∀ x, pick [x] = .ret (some x))
    (hread : ∀ f s, T.read (T.write f s) = f (T.read s)) (hr : p r = true)
    (hcheck : check.ReadOnly)
    (hok : (findOrCreate T table params p pick r check).outcome me db = .ok a) :
    FoundAgain (findOrCreate T table params p pick r check)
      (findOrCreate T table params p pick r' check') me db ⟨.select, table, params⟩
      (fun s => (T.read s).select p) a := by
  have hone : ∀ x ∈ T.read db, ∀ y ∈ T.read db, p x = true → p y = true → x = y :=
    fun x hx y hy hpx hpy =>
      eq_of_uniqueIn (hunique db y (hvalid y hy)) hy hx ((hp y).mp hpy) ((hp x).mp hpx)
  have hfree : T.constraints db r = true → ∀ x ∈ T.read db, key x ≠ key r → p x = false := by
    intro hconstraints x hx hkey
    rw [Bool.eq_false_iff]
    intro hpx
    have hnone := uniqueIn_eq_true.mp (hunique db r hconstraints) x hx hkey
      (((hp x).mp hpx).trans ((hp r).mp hr).symm)
    rw [(hp r).mp hr] at hnone
    cases hnone
  obtain ⟨hselect, hrows⟩ := select_findOrCreate hpick₀ hpick hread hr hcheck hone hfree hok
  have hfound := @findOrCreate_of_rows _ _ _ _ T me r' a check' table params p pick _ hpick hrows
  exact ⟨hselect, .inl rfl, hfound.1, by rw [Prog.outcome, hfound.2]⟩

end FindOrCreate

/-! ## How often they commit, and what they lock -/

/-- The request commits once at most, and the first write of its transaction takes the lock
`lock`. -/
structure Creates {ρ : Type} (p : Service ρ) (lock : Lock) : Prop where
  once : p.CommitsOnce
  locks : p.LocksFirst lock false

/-- An insertion takes the locks of its row. -/
theorem locksFirst_insert_bind {β : Type} {lock : Lock} {f : Unit → Service β} {b : Bool}
    (hlock : lock ∈ T.lock (key r) :: T.unique r) (hf : ∀ u, (f u).LocksFirst lock true) :
    ((T.insert r).bind f).LocksFirst lock b := by
  refine ⟨.inr fun l s wr hw => ?_, hf (), fun _ => trivial⟩
  obtain ⟨-, -, -, -, rfl⟩ := T.insertWrite_eq_ok.mp hw
  exact hlock

/-- The transaction that adds the row. -/
theorem creates_insert {k : π} {lock : Lock} (hlock : lock ∈ T.lock (key r) :: T.unique r)
    (hrest : rest.Uncommitted) :
    Creates ((T.insert r).bind fun _ => rest.bind fun _ => commit.bind fun _ => refresh T k)
      lock where
  once := (Prog.uncommitted_insert r).commitsOnce_bind fun _ => hrest.commitsOnce_bind fun _ =>
    readOnly_refresh T k
  locks := locksFirst_insert_bind hlock fun _ => hrest.locksFirst_bind fun _ =>
    (readOnly_refresh T k).locksFirst

/-- Queries first. -/
theorem Creates.bind {α : Type} {pre : Service α} {f : α → Service ρ} {lock : Lock}
    (hpre : pre.ReadOnly) (hf : ∀ x, Creates (f x) lock) : Creates (pre.bind f) lock where
  once := hpre.uncommitted.commitsOnce_bind fun x => (hf x).once
  locks := hpre.locksFirst_bind fun x => (hf x).locks

/-- A request that only reads. -/
theorem Creates.of_readOnly {p : Service ρ} {lock : Lock} (hp : p.ReadOnly) : Creates p lock :=
  ⟨hp.commitsOnce, hp.locksFirst⟩

/-- The first shape creates under the lock of its row. -/
theorem creates_getOrCreate {lock : Lock} (hlock : lock ∈ T.lock (key r) :: T.unique r)
    (hcheck : check.ReadOnly) (hrest : rest.Uncommitted) :
    Creates (getOrCreate T r check rest) lock := by
  refine .bind (readOnly_get (key r)) fun found => ?_
  cases found with
  | some existing => exact .of_readOnly trivial
  | none => exact .bind hcheck fun _ => creates_insert hlock hrest

/-- So does the second one. -/
theorem creates_findOrCreate {table : TableName} {params : List Uuid} {p : ρ → Bool}
    {pick : List ρ → Service (Option ρ)} {lock : Lock}
    (hlock : lock ∈ T.lock (key r) :: T.unique r) (hpick : ∀ rows, (pick rows).ReadOnly)
    (hcheck : check.ReadOnly) :
    Creates (findOrCreate T table params p pick r check) lock := by
  refine .bind (Prog.readOnly_query _ _) fun rows => .bind (hpick rows) fun found => ?_
  cases found with
  | some existing => exact .of_readOnly trivial
  | none =>
    exact .bind hcheck fun _ => @creates_insert _ _ _ _ _ r (.ret ()) _ lock hlock trivial

/-! ## What they leave alone -/

/-- The first shape keeps what adding its row and `rest` keep. -/
theorem keeps_getOrCreate {Inv : Db → Prop} (hcheck : check.ReadOnly)
    (hinsert : ∀ s, Inv s → Inv (T.write (·.insert r) s)) (hrest : rest.Keeps Inv me) :
    (getOrCreate T r check rest).Keeps Inv me := by
  refine (readOnly_get (key r)).keeps.bind fun found => ?_
  cases found with
  | some existing => trivial
  | none =>
    exact hcheck.keeps.bind fun _ => (keeps_insert fun s hs _ _ _ => hinsert s hs).bind fun _ =>
      hrest.bind fun _ => keeps_commit_refresh

/-- The second one keeps what adding its row keeps. -/
theorem keeps_findOrCreate {Inv : Db → Prop} {table : TableName} {params : List Uuid}
    {p : ρ → Bool} {pick : List ρ → Service (Option ρ)} (hpick : ∀ rows, (pick rows).ReadOnly)
    (hcheck : check.ReadOnly) (hinsert : ∀ s, Inv s → Inv (T.write (·.insert r) s)) :
    (findOrCreate T table params p pick r check).Keeps Inv me := by
  refine (Prog.readOnly_query _ _).keeps.bind fun rows => (hpick rows).keeps.bind fun found => ?_
  cases found with
  | some existing => trivial
  | none =>
    exact hcheck.keeps.bind fun _ => (keeps_insert fun s hs _ _ _ => hinsert s hs).bind fun _ =>
      keeps_commit_refresh

/-! ## What comes first -/

/-- A request that resolves something by queries before it looks, where the queries read the same
after the first request as before it. -/
theorem FoundAgain.bind {α : Type} {pre : Service α} {f f' : α → Service ρ} {look : Stmt}
    {stored : Db → List ρ} {x : α} (hpre : pre.ReadOnly) (hx : pre.outcome me db = .ok x)
    (hagrees : pre.Agrees me db ((f x).after me db))
    (huntil : ∀ y, (f' y).AgreesUntil look me db ((f x).after me db))
    (h : FoundAgain (f x) (f' x) me db look stored a) :
    FoundAgain (pre.bind f) (pre.bind f') me db look stored a := by
  have hafter : (pre.bind f).after me db = (f x).after me db := by
    rw [Prog.outcome] at hx
    simp only [Prog.after, hpre.run_bind, hx]
  obtain ⟨hrun, -, hquiet⟩ := hagrees.run
  have hx' : (pre.run (Conn.start me db)).1 = .ok x := hx
  rw [hx'] at hrun
  refine ⟨?_, ?_, ?_, ?_⟩
  · rw [hafter]
    exact h.stored
  · rw [hafter]
    exact hagrees.until_bind huntil
  · rw [hafter]
    exact hquiet.bind (by rw [hrun]) h.quiet
  · rw [hafter, Prog.outcome, Prog.run_bind, hrun]
    exact h.outcome

/-! ## All of it together -/

/-- The request `p` keeps `Inv`, commits once at most, and meets the other requests on `lock` before
it writes; when it is accepted, `p'` finds what it has left. -/
structure Idempotent {ρ : Type} (p p' : Service ρ) (me : Identity) (db : Db) (Inv : Db → Prop)
    (look : Stmt) (lock : Lock) (stored : Db → List ρ) : Prop where
  creates : Creates p lock
  keeps : p.Keeps Inv me
  again : ∀ a, p.outcome me db = .ok a → FoundAgain p p' me db look stored a

namespace Idempotent

variable {Inv : Db → Prop} {look : Stmt} {lock : Lock} {stored : Db → List ρ} {p p' : Service ρ}

/-- A request that is refused. -/
theorem of_raise (e : PyError) : Idempotent (.raise e) p' me db Inv look lock stored where
  creates := .of_readOnly (Prog.readOnly_raise e)
  keeps := Prog.keeps_raise e
  again a ha := by cases ha

/-- Two requests of the first shape for one key create one row, in any order of their steps that has
a commit before a look. -/
theorem getOrCreate (hkey : key r' = key r) (hlock : lock ∈ T.lock (key r) :: T.unique r)
    (hcheck : check.ReadOnly) (hinsert : ∀ s, Inv s → Inv (T.write (·.insert r) s))
    (hrest : rest.Uncommitted) (hkeeps : rest.Keeps Inv me) :
    Idempotent (OburBackend.getOrCreate T r check rest) (OburBackend.getOrCreate T r' check' rest')
      me db Inv (T.stmt .select (key r)) lock
      fun s => (T.read s).select fun x => decide (key x = key r) :=
  ⟨creates_getOrCreate hlock hcheck hrest, keeps_getOrCreate hcheck hinsert hkeeps,
    fun _ hok => foundAgain_getOrCreate hkey hcheck hrest hok⟩

/-- So do two of the second shape whose condition is the unique value of the row. -/
theorem findOrCreate {table : TableName} {params : List Uuid} {cond : ρ → Bool}
    {pick : List ρ → Service (Option ρ)} {β : Type} [DecidableEq β] {g : ρ → Option β} {b : β}
    (hunique : ∀ s x, T.constraints s x = true → uniqueIn (T.read s) g x = true)
    (hcond : ∀ x, cond x = true ↔ g x = some b) (hvalid : T.Valid db)
    (hpick : ∀ rows, (pick rows).ReadOnly) (hpick₀ : pick [] = .ret none)
    (hpick₁ : ∀ x, pick [x] = .ret (some x)) (hread : ∀ f s, T.read (T.write f s) = f (T.read s))
    (hr : cond r = true) (hlock : lock ∈ T.lock (key r) :: T.unique r) (hcheck : check.ReadOnly)
    (hinsert : ∀ s, Inv s → Inv (T.write (·.insert r) s)) :
    Idempotent (OburBackend.findOrCreate T table params cond pick r check)
      (OburBackend.findOrCreate T table params cond pick r' check') me db Inv
      ⟨.select, table, params⟩ lock fun s => (T.read s).select cond :=
  ⟨creates_findOrCreate hlock hpick hcheck, keeps_findOrCreate hpick hcheck hinsert,
    fun _ hok => foundAgain_findOrCreate hunique hcond hvalid hpick₀ hpick₁ hread hr hcheck hok⟩

/-- Queries first, which read the same after the request. -/
theorem bind {α : Type} {pre : Service α} {f f' : α → Service ρ} (hpre : pre.ReadOnly)
    (hagrees : ∀ x, pre.Agrees me db ((f x).after me db))
    (huntil : ∀ s y, (f' y).AgreesUntil look me db s)
    (hf : ∀ x, Idempotent (f x) (f' x) me db Inv look lock stored) :
    Idempotent (pre.bind f) (pre.bind f') me db Inv look lock stored := by
  refine ⟨.bind hpre fun x => (hf x).creates, hpre.keeps.bind fun x => (hf x).keeps, ?_⟩
  intro a hok
  obtain ⟨x, hx, hfx, -⟩ := ok_of_bind hpre hok
  exact .bind hpre hx (hagrees x) (huntil _) ((hf x).again a hfx)

end Idempotent

end Rules

end OburBackend
