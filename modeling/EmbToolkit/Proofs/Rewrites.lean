import EmbToolkit.Proofs.Joins
import EmbToolkit.Proofs.Slots
import Mathlib.Data.List.ProdSigma
import Mathlib.Logic.Relation

/-! Every change that `expr_eliminate_dups1` and `expr_eliminate_dups2` make is one of three, and `trans_count` counts
them. What the elimination keeps is shown of one change. -/

namespace EmbToolkit.Conf.Expr

variable {σ : Type*} {symbols : Symbols σ}

/-- A constant stands in a junction, where `expr_eliminate_yn` finds it. -/
def Loose (symbols : Symbols σ) : Expr σ → Prop
  | two _ l r =>
    (∃ k, l = symbol (symbols.unit k)) ∨ (∃ k, r = symbol (symbols.unit k)) ∨ Loose symbols l ∨ Loose symbols r
  | _ => False

theorem Leaf.loose_put {j : Junction} {e : Expr σ} {p : Slot} (leaf : Leaf j e p) (below : p ≠ []) (k : Junction) :
    Loose symbols (e.put p (symbol (symbols.unit k))) := by
  induction leaf with
  | here => exact absurd rfl below
  | @left l r p leaf ih =>
    by_cases nil : p = []
    · subst nil
      exact .inl ⟨k, put_nil ..⟩
    · exact .inr (.inr (.inl (ih nil)))
  | @right l r p leaf ih =>
    by_cases nil : p = []
    · subst nil
      exact .inr (.inl ⟨k, put_nil ..⟩)
    · exact .inr (.inr (.inr (ih nil)))

theorem Leaf.put_loose {j : Junction} {e x : Expr σ} {p : Slot} (leaf : Leaf j e p) (loose : Loose symbols x) :
    Loose symbols (e.put p x) := by
  induction leaf with
  | here =>
    rw [put_nil]
    exact loose
  | left _ ih => exact .inr (.inr (.inl ih))
  | right _ ih => exact .inr (.inr (.inr ih))

theorem plain_hereditary {values : Values symbols} : Hereditary (Plain values) := fun _ _ _ => Iff.rfl

theorem typed_hereditary : Hereditary (Typed symbols) := fun _ _ _ => Iff.rfl

variable (symbols) in
theorem unit_junction (j k : Junction) : (symbol (symbols.unit k)).junction? ≠ some j := fun same => nomatch same

/-- Both walks go over slots that no change moves. -/
def Shaped (j : Junction) (e : Expr σ) (d : Counted σ) : Prop :=
  leaves j d.expr = leaves j e ∧ subtrees j d.expr = subtrees j e

theorem Shaped.put {j : Junction} {e x : Expr σ} {d : Counted σ} {p : Slot} (shaped : Shaped j e d) (leaf : Leaf j d.expr p)
    (proper : x.junction? ≠ some j) (count : Nat) : Shaped j e ⟨count, d.expr.put p x⟩ :=
  ⟨(leaf.leaves_put proper).trans shaped.1, (leaf.subtrees_put proper).trans shaped.2⟩

variable [DecidableEq σ]

/-- One change of an expression. -/
inductive Rewrite (symbols : Symbols σ) : Expr σ → Expr σ → Prop
  | joined {j : Junction} {e x : Expr σ} {p q : Slot} (first : Leaf j e p) (second : Leaf j e q) (apart : p ≠ q)
      (join : join symbols j (e.get p) (e.get q) = some x) :
      Rewrite symbols e ((e.put p (symbol (symbols.unit j))).put q x)
  | settled {j k : Junction} {e : Expr σ} {p q : Slot} (first : Leaf j e p) (second : Subtree j e q) (below : p ≠ [])
      (dual : (e.get p).junction? = some k) (contradicts : Counted.contradicts symbols k (e.get p) (e.get q)) :
      Rewrite symbols e (e.put p (symbol (symbols.unit k)))
  | inside {j : Junction} {e x : Expr σ} {p : Slot} (leaf : Leaf j e p) (below : p ≠ []) (change : Rewrite symbols (e.get p) x) :
      Rewrite symbols e (e.put p x)

/-- One change, counted. -/
def Change (symbols : Symbols σ) (d d' : Counted σ) : Prop :=
  d'.count = d.count + 1 ∧ Rewrite symbols d.expr d'.expr

abbrev Changes (symbols : Symbols σ) : Counted σ → Counted σ → Prop := Relation.ReflTransGen (Change symbols)

theorem Rewrite.junction {e e' : Expr σ} (change : Rewrite symbols e e') : e'.junction? = e.junction? := by
  cases change with
  | joined first second apart =>
    rw [Leaf.junction_put (Leaf.ne_nil second first apart.symm), Leaf.junction_put (Leaf.ne_nil first second apart)]
  | settled first second below => exact Leaf.junction_put below ..
  | inside leaf below => exact Leaf.junction_put below ..

theorem Changes.junction {d d' : Counted σ} (changes : Changes symbols d d') : d'.expr.junction? = d.expr.junction? := by
  induction changes with
  | refl => rfl
  | tail _ change ih => exact change.2.junction.trans ih

/-- Changes inside a leaf are changes of the whole. -/
theorem Changes.inside {j : Junction} {e : Expr σ} {p : Slot} (leaf : Leaf j e p) (below : p ≠ []) {count : Nat} {d : Counted σ}
    (changes : Changes symbols ⟨count, e.get p⟩ d) : Changes symbols ⟨count, e⟩ ⟨d.count, e.put p d.expr⟩ := by
  induction changes with
  | refl =>
    rw [leaf.put_get]
  | @tail d d' before change ih =>
    have proper : d.expr.junction? ≠ some j := by
      rw [Changes.junction before]
      exact leaf.other
    refine ih.tail ⟨change.1, ?_⟩
    have here := Rewrite.inside (leaf.stays leaf proper) below (x := d'.expr) (by
      rw [leaf.get_put]
      exact change.2)
    rwa [leaf.put_put] at here

namespace Counted

variable {work : Junction → Counted σ → Counted σ} {j : Junction} {e : Expr σ} {d : Counted σ} {p q : Slot}

theorem inside_changes (works : ∀ k d, Changes symbols d (work k d)) (leaf : Leaf j d.expr p) (below : p ≠ []) :
    Changes symbols d (d.inside work p) := by
  unfold Counted.inside
  split
  · exact Changes.inside leaf below (works _ ⟨d.count, d.expr.get p⟩)
  · exact .refl

theorem inside_shaped (works : ∀ k d, Changes symbols d (work k d)) (leaf : Leaf j d.expr p) (shaped : Shaped j e d) :
    Shaped j e (d.inside work p) := by
  unfold Counted.inside
  split
  · next k _ =>
    refine shaped.put leaf ?_ _
    rw [(works k ⟨d.count, d.expr.get p⟩).junction]
    exact leaf.other
  · exact shaped

theorem joined_changes (first : Leaf j d.expr p) (second : Leaf j d.expr q) (apart : p ≠ q) :
    Changes symbols d (d.joined symbols j p q) := by
  unfold Counted.joined
  split
  · next x join => exact .single ⟨rfl, .joined first second apart join⟩
  · exact .refl

theorem joined_shaped (first : Leaf j d.expr p) (second : Leaf j d.expr q) (shaped : Shaped j e d) :
    Shaped j e (d.joined symbols j p q) := by
  unfold Counted.joined
  split
  · next x join =>
    have here : Shaped j e ⟨d.count, d.expr.put p (symbol (symbols.unit j))⟩ := shaped.put first (unit_junction symbols j j) _
    exact here.put (first.stays second (unit_junction symbols j j)) ((join_joined join).junction first.other) _
  · exact shaped

theorem settled_changes (first : Leaf j d.expr p) (second : Subtree j d.expr q) (below : p ≠ []) :
    Changes symbols d (d.settled symbols p q) := by
  unfold Counted.settled
  split
  · next k dual =>
    split
    · next contradicts => exact .single ⟨rfl, .settled first second below dual contradicts⟩
    · exact .refl
  · exact .refl

theorem settled_shaped (first : Leaf j d.expr p) (shaped : Shaped j e d) : Shaped j e (d.settled symbols p q) := by
  unfold Counted.settled
  split
  · next k _ =>
    split
    · exact shaped.put first (unit_junction symbols j k) _
    · exact shaped
  · exact shaped

theorem dupsStep₁_changes (works : ∀ k d, Changes symbols d (work k d)) (shaped : Shaped j e d)
    (first : p ∈ leaves j e) (second : q ∈ leaves j e) :
    Changes symbols d (dupsStep₁ symbols work j d (p, q)) ∧ Shaped j e (dupsStep₁ symbols work j d (p, q)) := by
  unfold dupsStep₁
  split_ifs with apart
  · exact ⟨.refl, shaped⟩
  · have leafOf {d : Counted σ} (shaped : Shaped j e d) {p : Slot} (member : p ∈ leaves j e) : Leaf j d.expr p :=
      leaf_of_mem (shaped.1 ▸ member)
    have below := Leaf.ne_nil (leafOf shaped first) (leafOf shaped second) apart
    have inner := inside_shaped works (leafOf shaped first) shaped
    exact ⟨(inside_changes works (leafOf shaped first) below).trans
        (joined_changes (leafOf inner first) (leafOf inner second) apart),
      joined_shaped (leafOf inner first) (leafOf inner second) inner⟩

theorem dupsStep₂_changes (works : ∀ k d, Changes symbols d (work k d)) (shaped : Shaped j e d)
    (first : p ∈ leaves j e) (second : q ∈ subtrees j e) :
    Changes symbols d (dupsStep₂ symbols work d (p, q)) ∧ Shaped j e (dupsStep₂ symbols work d (p, q)) := by
  unfold dupsStep₂
  split_ifs with apart
  · exact ⟨.refl, shaped⟩
  · have leafOf {d : Counted σ} (shaped : Shaped j e d) : Leaf j d.expr p := leaf_of_mem (shaped.1 ▸ first)
    have subtreeOf {d : Counted σ} (shaped : Shaped j e d) : Subtree j d.expr q := subtree_of_mem (shaped.2 ▸ second)
    have below := Leaf.ne_nil_of_subtree (leafOf shaped) (subtreeOf shaped) apart
    have inner := inside_shaped works (leafOf shaped) shaped
    exact ⟨(inside_changes works (leafOf shaped) below).trans (settled_changes (leafOf inner) (subtreeOf inner) below),
      settled_shaped (leafOf inner) inner⟩

theorem foldl_changes {step : Counted σ → Slot × Slot → Counted σ} {pairs : List (Slot × Slot)}
    (steps : ∀ pair ∈ pairs, ∀ d, Shaped j e d → Changes symbols d (step d pair) ∧ Shaped j e (step d pair))
    (shaped : Shaped j e d) : Changes symbols d (pairs.foldl step d) := by
  induction pairs generalizing d with
  | nil => exact .refl
  | cons pair rest ih =>
    obtain ⟨change, next⟩ := steps pair List.mem_cons_self d shaped
    exact change.trans (ih (fun pair later => steps pair (List.mem_cons_of_mem _ later)) next)

theorem dups₁_changes (depth : Nat) (j : Junction) (d : Counted σ) : Changes symbols d (dups₁ symbols depth j d) := by
  induction depth generalizing j d with
  | zero => exact .refl
  | succ depth ih =>
    have shaped : Shaped j d.expr d := ⟨rfl, rfl⟩
    refine foldl_changes ?_ shaped
    intro pair member d shaped
    obtain ⟨first, second⟩ := List.mem_product.mp member
    exact dupsStep₁_changes ih shaped first second

theorem dups₂_changes (depth : Nat) (j : Junction) (d : Counted σ) : Changes symbols d (dups₂ symbols depth j d) := by
  induction depth generalizing j d with
  | zero => exact .refl
  | succ depth ih =>
    have shaped : Shaped j d.expr d := ⟨rfl, rfl⟩
    refine foldl_changes ?_ shaped
    intro pair member d shaped
    obtain ⟨first, second⟩ := List.mem_product.mp member
    exact dupsStep₂_changes ih shaped first second

end Counted

variable (symbols) in
theorem dupsRound_changes (e : Expr σ) : Changes symbols ⟨0, e⟩ (dupsRound symbols e) := by
  unfold dupsRound
  split
  · exact (Counted.dups₁_changes ..).trans (Counted.dups₂_changes ..)
  · exact .refl

/-! ### What one change keeps -/

namespace Rewrite
variable {e e' : Expr σ}

theorem size_le (change : Rewrite symbols e e') : e'.size ≤ e.size := by
  induction change with
  | @joined j e x p q first second apart join =>
    have small := (join_joined join).size_le
    have one := first.size_put (symbol (symbols.unit j))
    have two := (first.stays second (unit_junction symbols j j)).size_put x
    have pos := size_pos (e.get q)
    rw [first.get_put_ne second apart] at two
    simp only [size] at one
    omega
  | @settled j k e p q first _ _ _ _ =>
    have put := first.size_put (symbol (symbols.unit k))
    have pos := size_pos (e.get p)
    simp only [size] at put
    omega
  | @inside j e x p leaf _ _ ih =>
    have put := leaf.size_put x
    omega

theorem loose (change : Rewrite symbols e e') : Loose symbols e' := by
  induction change with
  | @joined j e x p q first second apart join =>
    have proper := (join_joined join).junction first.other
    rw [first.put_comm second apart]
    exact (second.stays first proper).loose_put (Leaf.ne_nil first second apart) j
  | settled first _ below => exact first.loose_put below _
  | inside leaf _ _ ih => exact leaf.put_loose ih

/-- A change of a predicate that a junction shares with its sides. -/
theorem holds {holds : Expr σ → Prop} (hereditary : Hereditary holds) (constant : ∀ j, holds (symbol (symbols.unit j)))
    (joins : ∀ {j a b x}, join symbols j a b = some x → holds a → holds b → holds x)
    (change : Rewrite symbols e e') (before : holds e) : holds e' := by
  induction change with
  | @joined j e x p q first second apart join =>
    have other := first.stays second (unit_junction symbols j j)
    refine other.put_holds hereditary (first.put_holds hereditary before (constant j)) ?_
    exact joins join (first.get_holds hereditary before) (second.get_holds hereditary before)
  | settled first => exact first.put_holds hereditary before (constant _)
  | inside leaf _ _ ih => exact leaf.put_holds hereditary before (ih (leaf.get_holds hereditary before))

theorem value {values : Values symbols} (change : Rewrite symbols e e') (plain : Plain values e) :
    calcValue values e' = calcValue values e := by
  induction change with
  | @joined j e x p q first second apart join =>
    obtain ⟨rest, split⟩ := first.value_put₂ values second apart
    have same := split (e.get p) (e.get q)
    rw [first.put_get, second.put_get] at same
    rw [split, same, join_value values join, calcValue, values.unit_tri, Junction.unit_op]
  | @settled j k e p q first second below dual contradicts =>
    have kinds : k = j.dual := by
      have other := first.other
      rw [dual] at other
      cases j <;> cases k <;> first | rfl | exact absurd rfl other
    subst kinds
    obtain ⟨rest, split⟩ := first.value_put values
    have negation := contradicts_value values contradicts
    rw [Junction.dual_dual] at negation
    have whole : j.op (calcValue values (e.get p)) (calcValue values (e.get p)).not = j.zero :=
      Tristate.op_not j (plain_value (first.get_holds plain_hereditary plain))
    have both := Junction.op_le_iff.mpr ⟨first.subtree.value_le values, negation.trans (second.value_le values)⟩
    rw [whole] at both
    rw [split, calcValue, values.unit_tri]
    exact (Junction.zero_op ..).trans (both.antisymm (Junction.le_zero ..))
  | @inside j e x p leaf _ _ ih =>
    obtain ⟨rest, split⟩ := leaf.value_put values
    have same := split (e.get p)
    rw [leaf.put_get] at same
    rw [split, same, ih (leaf.get_holds plain_hereditary plain)]

end Rewrite

end EmbToolkit.Conf.Expr
