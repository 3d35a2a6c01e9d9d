import Mathlib.Logic.Basic

/-!
# Three-valued logic

A condition of SQL is true, false or `NULL`. A comparison with `NULL` is `NULL`, `AND` and `OR`
take the least and the greatest of the order false, `NULL`, true, and a `WHERE` clause, a row
policy and a `CHECK` option keep a row only when the condition is true. `Truth.Holds` is that last
reading, and the `holds_*` lemmas push it through the connectives, so that a condition becomes a
proposition about its atoms.
-/

namespace Sql

/-- A truth value of SQL. -/
inductive Truth where
  | no
  | null
  | yes
  deriving DecidableEq, Repr

namespace Truth

/-- The truth value of a test that is never `NULL` (`EXISTS`, `IS NULL`). -/
def ofBool : Bool → Truth
  | true => .yes
  | false => .no

/-- `a OR b`. -/
def or : Truth → Truth → Truth
  | .yes, _ => .yes
  | _, .yes => .yes
  | .no, .no => .no
  | _, _ => .null

/-- `a AND b`. -/
def and : Truth → Truth → Truth
  | .no, _ => .no
  | _, .no => .no
  | .yes, .yes => .yes
  | _, _ => .null

/-- `NOT a`. -/
def not : Truth → Truth
  | .yes => .no
  | .null => .null
  | .no => .yes

/-- `a = b`, where `none` is a `NULL` operand. -/
def eq {α : Type} [DecidableEq α] : Option α → Option α → Truth
  | some a, some b => ofBool (decide (a = b))
  | _, _ => .null

/-- A row is kept when its condition is true: `NULL` and false both drop it. -/
def Holds (t : Truth) : Prop := t = .yes

instance (t : Truth) : Decidable t.Holds := inferInstanceAs (Decidable (t = .yes))

@[simp] theorem holds_yes : Holds .yes := rfl

@[simp] theorem not_holds_no : ¬ Holds .no := nofun

@[simp] theorem not_holds_null : ¬ Holds .null := nofun

@[simp] theorem holds_ofBool (b : Bool) : (ofBool b).Holds ↔ b = true := by
  cases b <;> simp [ofBool]

@[simp] theorem holds_or (a b : Truth) : (a.or b).Holds ↔ a.Holds ∨ b.Holds := by
  cases a <;> cases b <;> simp [or]

@[simp] theorem holds_and (a b : Truth) : (a.and b).Holds ↔ a.Holds ∧ b.Holds := by
  cases a <;> cases b <;> simp [and]

/-- Negation does not exchange kept and dropped, since `NOT NULL` is `NULL`; on a test that is
never `NULL` it does. -/
@[simp] theorem holds_not_ofBool (b : Bool) : (ofBool b).not.Holds ↔ b = false := by
  cases b <;> simp [ofBool, not]

@[simp] theorem holds_eq_some {α : Type} [DecidableEq α] (a : α) (b : Option α) :
    (eq (some a) b).Holds ↔ b = some a := by
  cases b with
  | none => simp [eq]
  | some b => simp [eq, eq_comm]

@[simp high] theorem holds_eq_some_some {α : Type} [DecidableEq α] (a b : α) :
    (eq (some a) (some b)).Holds ↔ a = b := by
  simp [eq]

@[simp] theorem not_holds_eq_none {α : Type} [DecidableEq α] (b : Option α) :
    ¬ (eq none b).Holds := by
  simp [eq]

end Truth

end Sql
