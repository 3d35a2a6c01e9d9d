import OburBackend.Sql.Statement
import OburBackend.Sql.LastRead
import OburBackend.Sql.Reads

/-!
# Proof rules for the statements

One rule a statement, for a program that starts with it: `wp_*` for the condition of
`Sql.RelyGuarantee`, `readWp_*` for that of `Sql.LastRead`, `run_*_bind` for a program that is run
alone. They are simp lemmas, so that `simp` walks a program statement by statement and leaves what
each statement asks of the data.
-/

namespace Sql

variable {σ κ ℓ τ ε ρ π α β : Type} {rely guar : Local σ κ ℓ τ → σ → σ → Prop}
  {K : Except ε β → Local σ κ ℓ τ → σ → Prop} {L : Local σ κ ℓ τ} {s : σ}

/-! ## Under interference -/

@[simp] theorem wp_ret {b : β} : Wp rely guar K (.ret b) L s ↔ K (.ok b) L s := Iff.rfl

@[simp] theorem wp_raise {e : ε} : Wp rely guar K (.raise e) L s ↔ K (.error e) L s := Iff.rfl

@[simp] theorem wp_query_bind {st : τ} {g : ℓ → σ → α} {f : α → Prog σ κ ℓ τ ε β} :
    Wp rely guar K ((query st g).bind f) L s ↔
      ∀ s', rely L s s' → Wp rely guar K (f (g L.vars (L.view s'))) (L.saw st) s' := Iff.rfl

@[simp] theorem wp_commit_bind {f : Unit → Prog σ κ ℓ τ ε β} :
    Wp rely guar K (commit.bind f) L s ↔
      ∀ s', rely L s s' → guar L s' (L.view s') ∧ Wp rely guar K (f ()) L.ended (L.view s') :=
  Iff.rfl

@[simp] theorem wp_rollback_bind {f : Unit → Prog σ κ ℓ τ ε β} :
    Wp rely guar K (rollback.bind f) L s ↔
      ∀ s', rely L s s' → Wp rely guar K (f ()) L.ended s' := Iff.rfl

@[simp] theorem wp_assign_bind {l : ℓ} {f : Unit → Prog σ κ ℓ τ ε β} :
    Wp rely guar K ((assign l).bind f) L s ↔
      ∀ s', rely L s s' → Wp rely guar K (f ()) (L.assigned l) s' := Iff.rfl

section TableDef

variable {key : ρ → π} {T : TableDef σ κ ℓ τ key} [DecidableEq π] [OfDbError ε]

omit [OfDbError ε] in
@[simp] theorem wp_get_bind {k : π} {f : Option ρ → Prog σ κ ℓ τ ε β} :
    Wp rely guar K ((T.get k).bind f) L s ↔
      ∀ s', rely L s s' →
        Wp rely guar K (f (T.lookup L.vars (L.view s') k)) (L.saw (T.stmt .select k)) s' := Iff.rfl

@[simp] theorem wp_insert_bind {r : ρ} {f : Unit → Prog σ κ ℓ τ ε β} :
    Wp rely guar K ((T.insert r).bind f) L s ↔
      ∀ s', rely L s s' →
        (∀ wr, T.insertWrite L.vars (L.view s') r = .ok wr →
          Wp rely guar K (f ()) ((L.saw (T.stmt .insert (key r))).wrote wr) s') ∧
        ∀ e, T.insertWrite L.vars (L.view s') r = .error e →
          K (.error (OfDbError.ofDbError e)) (L.saw (T.stmt .insert (key r))).ended s' := Iff.rfl

@[simp] theorem wp_update_bind {k : π} {g : ρ → Option ρ}
    {hg : ∀ r r', g r = some r' → key r' = key r} {f : Unit → Prog σ κ ℓ τ ε β} :
    Wp rely guar K ((T.update k g hg).bind f) L s ↔
      ∀ s', rely L s s' →
        (∀ wr, T.updateWrite L.vars (L.view s') k g hg = .ok wr →
          Wp rely guar K (f ()) ((L.saw (T.stmt .update k)).wrote wr) s') ∧
        ∀ e, T.updateWrite L.vars (L.view s') k g hg = .error e →
          K (.error (OfDbError.ofDbError e)) (L.saw (T.stmt .update k)).ended s' := Iff.rfl

@[simp] theorem wp_delete_bind {k : π} {f : Unit → Prog σ κ ℓ τ ε β} :
    Wp rely guar K ((T.delete k).bind f) L s ↔
      ∀ s', rely L s s' →
        (∀ wr, T.deleteWrite L.vars (L.view s') (fun r => decide (key r = k)) = .ok wr →
          Wp rely guar K (f ()) ((L.saw (T.stmt .delete k)).wrote wr) s') ∧
        ∀ e, T.deleteWrite L.vars (L.view s') (fun r => decide (key r = k)) = .error e →
          K (.error (OfDbError.ofDbError e)) (L.saw (T.stmt .delete k)).ended s' := Iff.rfl

@[simp] theorem wp_definerDelete_bind {st : τ} {p : σ → ρ → Bool} {f : Unit → Prog σ κ ℓ τ ε β} :
    Wp rely guar K ((T.definerDelete st p).bind f) L s ↔
      ∀ s', rely L s s' → Wp rely guar K (f ())
        ((L.saw st).wrote (T.definerDeleteWrite (L.view s') (p (L.view s')))) s' := by
  simp [TableDef.definerDelete, Prog.bind, Wp]

end TableDef

/-! ## After a read -/

section ReadWp

variable {isRead : τ → Bool} {promise : σ → Local σ κ ℓ τ → σ → σ → Prop} {r : σ}

@[simp] theorem readWp_ret {b : β} :
    ReadWp isRead promise K (.ret b) L r ↔ K (.ok b) L r := Iff.rfl

@[simp] theorem readWp_raise {e : ε} :
    ReadWp isRead promise K (.raise e) L r ↔ K (.error e) L r := Iff.rfl

@[simp] theorem readWp_query_bind {st : τ} {g : ℓ → σ → α} {f : α → Prog σ κ ℓ τ ε β} :
    ReadWp isRead promise K ((query st g).bind f) L r ↔ isRead st = true ∧
      ∀ s, ReadWp isRead promise K (f (g L.vars (L.view s))) (L.saw st) s := Iff.rfl

@[simp] theorem readWp_commit_bind {f : Unit → Prog σ κ ℓ τ ε β} :
    ReadWp isRead promise K (commit.bind f) L r ↔
      (∀ s, promise r L s (L.view s)) ∧ ReadWp isRead promise K (f ()) L.ended r := Iff.rfl

@[simp] theorem readWp_rollback_bind {f : Unit → Prog σ κ ℓ τ ε β} :
    ReadWp isRead promise K (rollback.bind f) L r ↔
      ReadWp isRead promise K (f ()) L.ended r := Iff.rfl

@[simp] theorem readWp_assign_bind {l : ℓ} {f : Unit → Prog σ κ ℓ τ ε β} :
    ReadWp isRead promise K ((assign l).bind f) L r ↔
      ReadWp isRead promise K (f ()) (L.assigned l) r := Iff.rfl

variable {key : ρ → π} {T : TableDef σ κ ℓ τ key} [DecidableEq π]

@[simp] theorem readWp_get_bind {k : π} {f : Option ρ → Prog σ κ ℓ τ ε β} :
    ReadWp isRead promise K ((T.get k).bind f) L r ↔ isRead (T.stmt .select k) = true ∧
      ∀ s, ReadWp isRead promise K (f (T.lookup L.vars (L.view s) k))
        (L.saw (T.stmt .select k)) s := Iff.rfl

variable [OfDbError ε]

@[simp] theorem readWp_insert_bind {x : ρ} {f : Unit → Prog σ κ ℓ τ ε β} :
    ReadWp isRead promise K ((T.insert x).bind f) L r ↔ isRead (T.stmt .insert (key x)) = false ∧
      ∀ s, (∀ wr, T.insertWrite L.vars (L.view s) x = .ok wr →
          ReadWp isRead promise K (f ()) ((L.saw (T.stmt .insert (key x))).wrote wr) r) ∧
        ∀ e, T.insertWrite L.vars (L.view s) x = .error e →
          K (.error (OfDbError.ofDbError e)) (L.saw (T.stmt .insert (key x))).ended r := Iff.rfl

@[simp] theorem readWp_update_bind {k : π} {g : ρ → Option ρ}
    {hg : ∀ r r', g r = some r' → key r' = key r} {f : Unit → Prog σ κ ℓ τ ε β} :
    ReadWp isRead promise K ((T.update k g hg).bind f) L r ↔ isRead (T.stmt .update k) = false ∧
      ∀ s, (∀ wr, T.updateWrite L.vars (L.view s) k g hg = .ok wr →
          ReadWp isRead promise K (f ()) ((L.saw (T.stmt .update k)).wrote wr) r) ∧
        ∀ e, T.updateWrite L.vars (L.view s) k g hg = .error e →
          K (.error (OfDbError.ofDbError e)) (L.saw (T.stmt .update k)).ended r := Iff.rfl

end ReadWp

/-! ## After several reads -/

section ReadsWp

variable {Inv : σ → Prop} {owes : List σ → σ → σ → Prop}
  {Q : Except ε β → Local σ κ ℓ τ → List σ → Prop} {rs : List σ}

/-- A query reads some data with the invariant. -/
theorem readsWp_query_bind {st : τ} {g : ℓ → σ → α} {f : α → Prog σ κ ℓ τ ε β} :
    ReadsWp Inv owes Q ((query st g).bind f) L rs ↔
      ∀ s, Inv s → ReadsWp Inv owes Q (f (g L.vars (L.view s))) (L.saw st) (s :: rs) := Iff.rfl

/-- A commit owes what the transaction has written. -/
theorem readsWp_commit_bind {f : Unit → Prog σ κ ℓ τ ε β} :
    ReadsWp Inv owes Q (commit.bind f) L rs ↔
      (∀ s, Inv s → owes rs s (L.view s)) ∧ ReadsWp Inv owes Q (f ()) L.ended rs := Iff.rfl

variable {key : ρ → π} {T : TableDef σ κ ℓ τ key} [DecidableEq π]

/-- A lookup reads the row under the key. -/
theorem readsWp_get_bind {k : π} {f : Option ρ → Prog σ κ ℓ τ ε β} :
    ReadsWp Inv owes Q ((T.get k).bind f) L rs ↔
      ∀ s, Inv s → ReadsWp Inv owes Q (f (T.lookup L.vars (L.view s) k))
        (L.saw (T.stmt .select k)) (s :: rs) := Iff.rfl

variable [OfDbError ε]

/-- An insert goes through or ends the program with its error. -/
theorem readsWp_insert_bind {x : ρ} {f : Unit → Prog σ κ ℓ τ ε β} :
    ReadsWp Inv owes Q ((T.insert x).bind f) L rs ↔
      ∀ s, Inv s → (∀ wr, T.insertWrite L.vars (L.view s) x = .ok wr →
          ReadsWp Inv owes Q (f ()) ((L.saw (T.stmt .insert (key x))).wrote wr) rs) ∧
        ∀ e, T.insertWrite L.vars (L.view s) x = .error e →
          Q (.error (OfDbError.ofDbError e)) (L.saw (T.stmt .insert (key x))).ended rs := Iff.rfl

/-- So does an update. -/
theorem readsWp_update_bind {k : π} {g : ρ → Option ρ}
    {hg : ∀ r r', g r = some r' → key r' = key r} {f : Unit → Prog σ κ ℓ τ ε β} :
    ReadsWp Inv owes Q ((T.update k g hg).bind f) L rs ↔
      ∀ s, Inv s → (∀ wr, T.updateWrite L.vars (L.view s) k g hg = .ok wr →
          ReadsWp Inv owes Q (f ()) ((L.saw (T.stmt .update k)).wrote wr) rs) ∧
        ∀ e, T.updateWrite L.vars (L.view s) k g hg = .error e →
          Q (.error (OfDbError.ofDbError e)) (L.saw (T.stmt .update k)).ended rs := Iff.rfl

/-- So does a deletion. -/
theorem readsWp_delete_bind {k : π} {f : Unit → Prog σ κ ℓ τ ε β} :
    ReadsWp Inv owes Q ((T.delete k).bind f) L rs ↔
      ∀ s, Inv s → (∀ wr, T.deleteWrite L.vars (L.view s) (fun r => decide (key r = k)) = .ok wr →
          ReadsWp Inv owes Q (f ()) ((L.saw (T.stmt .delete k)).wrote wr) rs) ∧
        ∀ e, T.deleteWrite L.vars (L.view s) (fun r => decide (key r = k)) = .error e →
          Q (.error (OfDbError.ofDbError e)) (L.saw (T.stmt .delete k)).ended rs := Iff.rfl

end ReadsWp

/-! ## Alone -/

section Run

variable {c : Conn σ ℓ}

@[simp] theorem run_query_bind {st : τ} {g : ℓ → σ → α} {f : α → Prog σ κ ℓ τ ε β} :
    ((query st g).bind f).run c = (f (g c.vars c.working)).run c := rfl

@[simp] theorem run_commit_bind {f : Unit → Prog σ κ ℓ τ ε β} :
    ((commit : Prog σ κ ℓ τ ε Unit).bind f).run c = (f ()).run c.publish := rfl

@[simp] theorem run_rollback_bind {f : Unit → Prog σ κ ℓ τ ε β} :
    ((rollback : Prog σ κ ℓ τ ε Unit).bind f).run c = (f ()).run c.discard := rfl

@[simp] theorem run_assign_bind {l : ℓ} {f : Unit → Prog σ κ ℓ τ ε β} :
    ((assign l : Prog σ κ ℓ τ ε Unit).bind f).run c = (f ()).run { c with vars := l } := rfl

variable {key : ρ → π} {T : TableDef σ κ ℓ τ key} [DecidableEq π]

@[simp] theorem run_get_bind {k : π} {f : Option ρ → Prog σ κ ℓ τ ε β} :
    ((T.get k).bind f).run c = (f (T.lookup c.vars c.working k)).run c := rfl

/-- Alone, an insert goes through or ends the request with its error. -/
theorem run_insert_bind [OfDbError ε] {r : ρ} {f : Unit → Prog σ κ ℓ τ ε β} :
    ((T.insert r).bind f).run c =
      match T.insertWrite c.vars c.working r with
      | .ok wr => (f ()).run { c with working := wr.effect c.working }
      | .error e => (.error (OfDbError.ofDbError e), c.discard) := by
  cases hw : T.insertWrite c.vars c.working r <;>
    simp only [TableDef.insert, Prog.bind, Prog.run, hw]

/-- So does an update. -/
theorem run_update_bind [OfDbError ε] {k : π} {g : ρ → Option ρ}
    {hg : ∀ r r', g r = some r' → key r' = key r} {f : Unit → Prog σ κ ℓ τ ε β} :
    ((T.update k g hg).bind f).run c =
      match T.updateWrite c.vars c.working k g hg with
      | .ok wr => (f ()).run { c with working := wr.effect c.working }
      | .error e => (.error (OfDbError.ofDbError e), c.discard) := by
  cases hw : T.updateWrite c.vars c.working k g hg <;>
    simp only [TableDef.update, Prog.bind, Prog.run, hw]

/-- So does a deletion. -/
theorem run_delete_bind [OfDbError ε] {k : π} {f : Unit → Prog σ κ ℓ τ ε β} :
    ((T.delete k).bind f).run c =
      match T.deleteWrite c.vars c.working fun r => decide (key r = k) with
      | .ok wr => (f ()).run { c with working := wr.effect c.working }
      | .error e => (.error (OfDbError.ofDbError e), c.discard) := by
  cases hw : T.deleteWrite c.vars c.working fun r => decide (key r = k) <;>
    simp only [TableDef.delete, Prog.bind, Prog.run, hw]

/-- The deletion of one row that is found, may be deleted and is not referred to. -/
theorem run_delete_bind_of_pass [OfDbError ε] {k : π} {f : Unit → Prog σ κ ℓ τ ε β} {r : ρ}
    (hr : T.lookup c.vars c.working k = some r)
    (hdelete : ((T.policy c.vars c.working).delete r).Holds)
    (href : T.referenced c.working r = false) :
    ((T.delete k).bind f).run c =
      (f ()).run { c with working := T.erase (fun x => decide (key x = k)) c.working } := by
  rw [run_delete_bind, T.deleteWrite_of_pass hr hdelete href]

/-- An `UPDATE` of a row that the policies hide from it raises and rolls back. -/
theorem run_update_staleData [OfDbError ε] {k : π} {g : ρ → Option ρ}
    {hg : ∀ r r', g r = some r' → key r' = key r} {f : Unit → Prog σ κ ℓ τ ε β}
    (h : ∀ r, T.lookup c.vars c.working k = some r →
      ¬ ((T.policy c.vars c.working).updateUsing r).Holds) :
    ((T.update k g hg).bind f).run c =
      (.error (OfDbError.ofDbError .staleData), c.discard) := by
  simp only [TableDef.update, Prog.bind, Prog.run, T.updateWrite_eq_staleData h]

end Run

end Sql
