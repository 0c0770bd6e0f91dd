import EmbToolkit.Conf.Dups

/-! The leaves of a junction of one kind, and what replacing one of them does to the whole: to the other leaves, to the
value, to the size. -/

namespace EmbToolkit.Conf.Expr

variable {σ : Type*} {symbols : Symbols σ} {j : Junction} {e x : Expr σ} {p q : Slot}

inductive Leaf (j : Junction) : Expr σ → Slot → Prop
  | here {e : Expr σ} (other : e.junction? ≠ some j) : Leaf j e []
  | left {l r : Expr σ} {p : Slot} (leaf : Leaf j l p) : Leaf j (two j l r) (.left :: p)
  | right {l r : Expr σ} {p : Slot} (leaf : Leaf j r p) : Leaf j (two j l r) (.right :: p)

inductive Subtree (j : Junction) : Expr σ → Slot → Prop
  | here {e : Expr σ} : Subtree j e []
  | left {l r : Expr σ} {p : Slot} (subtree : Subtree j l p) : Subtree j (two j l r) (.left :: p)
  | right {l r : Expr σ} {p : Slot} (subtree : Subtree j r p) : Subtree j (two j l r) (.right :: p)

theorem leaf_of_mem (member : p ∈ leaves j e) : Leaf j e p := by
  induction e generalizing p with
  | symbol | not | comp =>
    cases List.mem_singleton.mp member
    exact .here (fun h => nomatch h)
  | two k l r ihl ihr =>
    unfold leaves at member
    split at member
    · next same =>
      subst same
      rcases List.mem_append.mp member with left | right
      · obtain ⟨rest, inside, rfl⟩ := List.mem_map.mp left
        exact .left (ihl inside)
      · obtain ⟨rest, inside, rfl⟩ := List.mem_map.mp right
        exact .right (ihr inside)
    · next other =>
      cases List.mem_singleton.mp member
      exact .here fun h => other (Option.some.inj h)

theorem subtree_of_mem (member : p ∈ subtrees j e) : Subtree j e p := by
  induction e generalizing p with
  | symbol | not | comp =>
    cases List.mem_singleton.mp member
    exact .here
  | two k l r ihl ihr =>
    unfold subtrees at member
    split at member
    · next same =>
      subst same
      rcases List.mem_append.mp member with sides | whole
      · rcases List.mem_append.mp sides with left | right
        · obtain ⟨rest, inside, rfl⟩ := List.mem_map.mp left
          exact .left (ihl inside)
        · obtain ⟨rest, inside, rfl⟩ := List.mem_map.mp right
          exact .right (ihr inside)
      · cases List.mem_singleton.mp whole
        exact .here
    · cases List.mem_singleton.mp member
      exact .here

namespace Leaf

theorem subtree (leaf : Leaf j e p) : Subtree j e p := by
  induction leaf with
  | here => exact .here
  | left _ ih => exact .left ih
  | right _ ih => exact .right ih

theorem other (leaf : Leaf j e p) : (e.get p).junction? ≠ some j := by
  induction leaf with
  | here other =>
    rw [get_nil]
    exact other
  | left _ ih => exact ih
  | right _ ih => exact ih

/-- Two different leaves are below the junction. -/
theorem ne_nil (first : Leaf j e p) (second : Leaf j e q) (apart : p ≠ q) : p ≠ [] := by
  rintro rfl
  cases first with
  | here other =>
    cases second with
    | here => exact apart rfl
    | left => exact other rfl
    | right => exact other rfl

theorem ne_nil_of_subtree (first : Leaf j e p) (second : Subtree j e q) (apart : p ≠ q) : p ≠ [] := by
  rintro rfl
  cases first with
  | here other =>
    cases second with
    | here => exact apart rfl
    | left => exact other rfl
    | right => exact other rfl

theorem get_put (leaf : Leaf j e p) (x : Expr σ) : (e.put p x).get p = x := by
  induction leaf with
  | here => simp only [put_nil, get_nil]
  | left _ ih => exact ih
  | right _ ih => exact ih

theorem put_get (leaf : Leaf j e p) : e.put p (e.get p) = e := by
  induction leaf with
  | here => simp only [put_nil, get_nil]
  | left _ ih => exact congrArg (two j · _) ih
  | right _ ih => exact congrArg (two j _) ih

theorem put_put (leaf : Leaf j e p) (x y : Expr σ) : (e.put p x).put p y = e.put p y := by
  induction leaf with
  | here => simp only [put_nil]
  | left _ ih => exact congrArg (two j · _) ih
  | right _ ih => exact congrArg (two j _) ih

theorem get_put_ne (first : Leaf j e p) (second : Leaf j e q) (apart : p ≠ q) (x : Expr σ) :
    (e.put p x).get q = e.get q := by
  induction first generalizing q with
  | here other => exact absurd rfl (ne_nil (.here other) second apart)
  | left leaf ih =>
    cases second with
    | here other => exact absurd rfl other
    | left second => exact ih second fun same => apart (congrArg _ same)
    | right => rfl
  | right leaf ih =>
    cases second with
    | here other => exact absurd rfl other
    | left => rfl
    | right second => exact ih second fun same => apart (congrArg _ same)

theorem put_comm (first : Leaf j e p) (second : Leaf j e q) (apart : p ≠ q) (x y : Expr σ) :
    (e.put p x).put q y = (e.put q y).put p x := by
  induction first generalizing q with
  | here other => exact absurd rfl (ne_nil (.here other) second apart)
  | left leaf ih =>
    cases second with
    | here other => exact absurd rfl other
    | left second => exact congrArg (two j · _) (ih second fun same => apart (congrArg _ same))
    | right => rfl
  | right leaf ih =>
    cases second with
    | here other => exact absurd rfl other
    | left => rfl
    | right second => exact congrArg (two j _) (ih second fun same => apart (congrArg _ same))

theorem junction_put (nonempty : p ≠ []) (e x : Expr σ) : (e.put p x).junction? = e.junction? := by
  cases p with
  | nil => exact absurd rfl nonempty
  | cons side p =>
    cases e with
    | symbol | not | comp | two => cases side <;> rfl

/-- The leaves stay where they are. -/
theorem leaves_put (leaf : Leaf j e p) (proper : x.junction? ≠ some j) : leaves j (e.put p x) = leaves j e := by
  have single {y : Expr σ} (proper : y.junction? ≠ some j) : leaves j y = [[]] := by
    cases y with
    | symbol | not | comp => rfl
    | two k l r => exact if_neg fun same => proper (congrArg some same)
  induction leaf with
  | here other =>
    rw [put_nil, single proper, single other]
  | left leaf ih => simp only [put, leaves, ih]
  | right leaf ih => simp only [put, leaves, ih]

theorem subtrees_put (leaf : Leaf j e p) (proper : x.junction? ≠ some j) : subtrees j (e.put p x) = subtrees j e := by
  have single {y : Expr σ} (proper : y.junction? ≠ some j) : subtrees j y = [[]] := by
    cases y with
    | symbol | not | comp => rfl
    | two k l r => exact if_neg fun same => proper (congrArg some same)
  induction leaf with
  | here other =>
    rw [put_nil, single proper, single other]
  | left leaf ih => simp only [put, subtrees, ih]
  | right leaf ih => simp only [put, subtrees, ih]

theorem stays (leaf : Leaf j e p) (other : Leaf j e q) (proper : x.junction? ≠ some j) : Leaf j (e.put p x) q := by
  induction leaf generalizing q with
  | here here =>
    rw [put_nil]
    cases other with
    | here => exact .here proper
    | left | right => exact absurd rfl here
  | left leaf ih =>
    cases other with
    | here here => exact absurd rfl here
    | left other => exact .left (ih other)
    | right other => exact .right other
  | right leaf ih =>
    cases other with
    | here here => exact absurd rfl here
    | left other => exact .left other
    | right other => exact .right (ih other)

theorem size_put (leaf : Leaf j e p) (x : Expr σ) : (e.put p x).size + (e.get p).size = e.size + x.size := by
  induction leaf with
  | here =>
    rw [put_nil, get_nil]
    omega
  | left _ ih =>
    simp only [put, get, size]
    omega
  | right _ ih =>
    simp only [put, get, size]
    omega

theorem size_get_le (leaf : Leaf j e p) : (e.get p).size ≤ e.size := by
  induction leaf with
  | here => rw [get_nil]
  | left _ ih =>
    simp only [get, size]
    omega
  | right _ ih =>
    simp only [get, size]
    omega

theorem size_get (leaf : Leaf j e p) (nonempty : p ≠ []) : (e.get p).size < e.size := by
  cases leaf with
  | here => exact absurd rfl nonempty
  | left leaf =>
    have inside := leaf.size_get_le
    simp only [get, size]
    omega
  | right leaf =>
    have inside := leaf.size_get_le
    simp only [get, size]
    omega

section Values
variable (values : Values symbols)

/-- The value of the whole is that of one leaf joined with what the others give. -/
theorem value_put (leaf : Leaf j e p) :
    ∃ rest : Tristate, ∀ x, calcValue values (e.put p x) = j.op (calcValue values x) rest := by
  induction leaf with
  | here => exact ⟨j.unit, fun x => by rw [put_nil, Junction.op_unit]⟩
  | @left l r _ leaf ih =>
    obtain ⟨rest, split⟩ := ih
    refine ⟨j.op rest (calcValue values r), fun x => ?_⟩
    rw [← Junction.op_assoc, ← split]
    rfl
  | @right l r _ leaf ih =>
    obtain ⟨rest, split⟩ := ih
    refine ⟨j.op rest (calcValue values l), fun x => ?_⟩
    rw [← Junction.op_assoc, ← split, Junction.op_comm]
    rfl

theorem value_put₂ (first : Leaf j e p) (second : Leaf j e q) (apart : p ≠ q) :
    ∃ rest : Tristate, ∀ x y, calcValue values ((e.put p x).put q y) =
      j.op (j.op (calcValue values x) (calcValue values y)) rest := by
  induction first generalizing q with
  | here other => exact absurd rfl (ne_nil (.here other) second apart)
  | @left l r _ leaf ih =>
    cases second with
    | here other => exact absurd rfl other
    | left second =>
      obtain ⟨rest, split⟩ := ih second fun same => apart (congrArg _ same)
      refine ⟨j.op rest (calcValue values r), fun x y => ?_⟩
      rw [← Junction.op_assoc, ← split]
      rfl
    | right second =>
      obtain ⟨restL, splitL⟩ := leaf.value_put values
      obtain ⟨restR, splitR⟩ := second.value_put values
      refine ⟨j.op restL restR, fun x y => ?_⟩
      rw [Junction.op_op_op_comm, ← splitL, ← splitR]
      rfl
  | @right l r _ leaf ih =>
    cases second with
    | here other => exact absurd rfl other
    | left second =>
      obtain ⟨restL, splitL⟩ := second.value_put values
      obtain ⟨restR, splitR⟩ := leaf.value_put values
      refine ⟨j.op restR restL, fun x y => ?_⟩
      rw [Junction.op_op_op_comm, ← splitL, ← splitR, Junction.op_comm]
      rfl
    | right second =>
      obtain ⟨rest, split⟩ := ih second fun same => apart (congrArg _ same)
      refine ⟨j.op rest (calcValue values l), fun x y => ?_⟩
      rw [← Junction.op_assoc, ← split, Junction.op_comm]
      rfl

end Values

end Leaf

/-- Whatever is joined into the whole is below it. -/
theorem Subtree.value_le (values : Values symbols) (subtree : Subtree j e p) :
    j.Le (calcValue values (e.get p)) (calcValue values e) := by
  induction subtree with
  | here =>
    rw [get_nil]
    exact Junction.Le.refl ..
  | left _ ih => exact ih.trans (Junction.le_op_left ..)
  | right _ ih => exact ih.trans (Junction.le_op_right ..)

/-- A predicate that a junction has when both its sides have it. -/
def Hereditary (holds : Expr σ → Prop) : Prop := ∀ j l r, holds (two j l r) ↔ holds l ∧ holds r

namespace Leaf
variable {holds : Expr σ → Prop}

theorem get_holds (hereditary : Hereditary holds) (leaf : Leaf j e p) (whole : holds e) : holds (e.get p) := by
  induction leaf with
  | here =>
    rw [get_nil]
    exact whole
  | left _ ih => exact ih ((hereditary ..).mp whole).1
  | right _ ih => exact ih ((hereditary ..).mp whole).2

theorem put_holds (hereditary : Hereditary holds) (leaf : Leaf j e p) (whole : holds e) (here : holds x) : holds (e.put p x) := by
  induction leaf with
  | here =>
    rw [put_nil]
    exact here
  | left _ ih => exact (hereditary ..).mpr ⟨ih ((hereditary ..).mp whole).1, ((hereditary ..).mp whole).2⟩
  | right _ ih => exact (hereditary ..).mpr ⟨((hereditary ..).mp whole).1, ih ((hereditary ..).mp whole).2⟩

end Leaf

end EmbToolkit.Conf.Expr
