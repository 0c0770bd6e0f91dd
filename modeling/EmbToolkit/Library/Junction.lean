import Mathlib.Order.BoundedOrder.Lattice

/-! The two ways to join values of a bounded lattice, with one set of laws for both: what a join is bounded by, its neutral
value, and the sum of a list. -/

inductive Junction | or | and
  deriving DecidableEq

namespace Junction
variable {α : Type*}

def dual : Junction → Junction
  | .or => .and
  | .and => .or

@[simp] theorem dual_dual (j : Junction) : j.dual.dual = j := by cases j <;> rfl

def op [Lattice α] : Junction → α → α → α
  | .or, x, y => x ⊔ y
  | .and, x, y => x ⊓ y

/-- The value that changes nothing. -/
def unit [LE α] [BoundedOrder α] : Junction → α
  | .or => ⊥
  | .and => ⊤

/-- The value that settles everything. -/
def zero [LE α] [BoundedOrder α] (j : Junction) : α := j.dual.unit

/-- The order in which joining goes up. -/
def Le [LE α] : Junction → α → α → Prop
  | .or, x, y => x ≤ y
  | .and, x, y => y ≤ x

variable {j : Junction} {x y z : α}

section Lattice
variable [Lattice α]

theorem Le.refl (j : Junction) (x : α) : j.Le x x := by cases j <;> exact le_refl x

theorem Le.trans (first : j.Le x y) (second : j.Le y z) : j.Le x z := by
  cases j with
  | or => exact le_trans first second
  | and => exact le_trans second first

theorem Le.antisymm (first : j.Le x y) (second : j.Le y x) : x = y := by
  cases j with
  | or => exact le_antisymm first second
  | and => exact le_antisymm second first

theorem op_le_iff : j.Le (j.op x y) z ↔ j.Le x z ∧ j.Le y z := by
  cases j with
  | or => exact sup_le_iff
  | and => exact le_inf_iff

theorem le_op_left (j : Junction) (x y : α) : j.Le x (j.op x y) := (op_le_iff.mp (Le.refl j _)).1

theorem le_op_right (j : Junction) (x y : α) : j.Le y (j.op x y) := (op_le_iff.mp (Le.refl j _)).2

/-- Values with the same bounds are the same. -/
theorem eq_of_bounds (j : Junction) (same : ∀ bound, j.Le x bound ↔ j.Le y bound) : x = y :=
  Le.antisymm ((same y).mpr (Le.refl j y)) ((same x).mp (Le.refl j x))

theorem op_comm (j : Junction) (x y : α) : j.op x y = j.op y x :=
  eq_of_bounds j fun _ => by rw [op_le_iff, op_le_iff, and_comm]

theorem op_assoc (j : Junction) (x y z : α) : j.op (j.op x y) z = j.op x (j.op y z) :=
  eq_of_bounds j fun _ => by simp only [op_le_iff, and_assoc]

theorem op_self (j : Junction) (x : α) : j.op x x = x :=
  eq_of_bounds j fun _ => by rw [op_le_iff, and_self]

theorem op_op_op_comm (j : Junction) (w x y z : α) : j.op (j.op w x) (j.op y z) = j.op (j.op w y) (j.op x z) :=
  eq_of_bounds j fun _ => by simp only [op_le_iff, and_and_and_comm]

end Lattice

section Bounded
variable [Lattice α] [BoundedOrder α]

theorem unit_le (j : Junction) (x : α) : j.Le j.unit x := by
  cases j with
  | or => exact bot_le
  | and => exact le_top

theorem le_zero (j : Junction) (x : α) : j.Le x j.zero := by
  cases j with
  | or => exact le_top
  | and => exact bot_le

theorem unit_op (j : Junction) (x : α) : j.op j.unit x = x :=
  eq_of_bounds j fun bound => by simp only [op_le_iff, unit_le, true_and]

theorem op_unit (j : Junction) (x : α) : j.op x j.unit = x := by rw [op_comm, unit_op]

theorem zero_op (j : Junction) (x : α) : j.op j.zero x = j.zero :=
  Le.antisymm (op_le_iff.mpr ⟨Le.refl j _, le_zero j x⟩) (le_op_left j _ _)

theorem op_zero (j : Junction) (x : α) : j.op x j.zero = j.zero := by rw [op_comm, zero_op]

/-- All values of a list in one. -/
def sum (j : Junction) (values : List α) : α := values.foldr j.op j.unit

theorem sum_le_iff {values : List α} : j.Le (j.sum values) z ↔ ∀ value ∈ values, j.Le value z := by
  induction values with
  | nil => simp [sum, unit_le]
  | cons value rest ih =>
    have here : j.sum (value :: rest) = j.op value (j.sum rest) := rfl
    rw [here, op_le_iff, ih, List.forall_mem_cons]

end Bounded

end Junction
