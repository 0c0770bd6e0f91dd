import EmbToolkit.Conf.Expr

/-! The rewriting of single expressions in `expr.c`: negations pushed to the symbols, comparisons of symbols made into
symbols, and an expression compared with a constant. -/

namespace EmbToolkit.Conf
namespace Expr

variable {σ : Type*}

/-- The measure that pushing a negation inwards makes smaller. -/
def weight : Expr σ → Nat
  | symbol _ => 1
  | not e => 2 * e.weight
  | comp _ _ _ => 2
  | two _ l r => l.weight + r.weight + 1

theorem weight_pos (e : Expr σ) : 0 < e.weight := by
  induction e with
  | symbol => exact Nat.one_pos
  | not e ih => exact Nat.mul_pos Nat.two_pos ih
  | comp => exact Nat.two_pos
  | two => exact Nat.succ_pos _

variable [DecidableEq σ] (symbols : Symbols σ)

/-- What `expr_transform` makes of a comparison. -/
def transformComp (c : Comparison) (a b : σ) : Expr σ :=
  if symbols.type a ≠ .boolean then comp c a b
  else match c with
    | .equal =>
      if b = symbols.no then not (symbol a)
      else if b = symbols.mod then symbol symbols.no
      else if b = symbols.yes then symbol a
      else comp .equal a b
    | .unequal =>
      if b = symbols.no then symbol a
      else if b = symbols.mod then symbol symbols.yes
      else if b = symbols.yes then not (symbol a)
      else comp .unequal a b

/-- What it makes of a negated symbol. -/
def transformNot (a : σ) : Expr σ :=
  if a = symbols.yes then symbol symbols.no
  else if a = symbols.mod then symbol symbols.mod
  else if a = symbols.no then symbol symbols.yes
  else not (symbol a)

theorem transformComp_weight (c : Comparison) (a b : σ) :
    (transformComp symbols c a b).weight ≤ 2 := by
  unfold transformComp
  cases c <;> split_ifs <;> simp [weight]

theorem transformNot_weight (a : σ) : (transformNot symbols a).weight ≤ 2 := by
  unfold transformNot
  split_ifs <;> simp [weight]

/-- `expr_transform` with its measure: what comes out is no heavier. -/
def transformed (e : Expr σ) : { e' : Expr σ // e'.weight ≤ e.weight } :=
  match e with
  | symbol a => ⟨symbol a, Nat.le_refl _⟩
  | comp c a b => ⟨transformComp symbols c a b, transformComp_weight symbols c a b⟩
  | two j l r =>
    let left := transformed l
    let right := transformed r
    ⟨two j left.1 right.1, by
      have first := left.2
      have second := right.2
      simp only [weight]
      omega⟩
  | not e =>
    match transformed e with
    | ⟨not e', lighter⟩ =>
      have smaller : e'.weight < (not e).weight := by
        have pos := weight_pos e'
        simp only [weight] at lighter ⊢
        omega
      let again := transformed e'
      ⟨again.1, Nat.le_trans again.2 (Nat.le_of_lt smaller)⟩
    | ⟨comp c a b, lighter⟩ =>
      ⟨comp c.flip a b, by simp only [weight] at lighter ⊢; omega⟩
    | ⟨two j l r, lighter⟩ =>
      have smaller : (two j.dual (not l) (not r)).weight < (not e).weight := by
        simp only [weight] at lighter ⊢
        omega
      let again := transformed (two j.dual (not l) (not r))
      ⟨again.1, Nat.le_trans again.2 (Nat.le_of_lt smaller)⟩
    | ⟨symbol a, lighter⟩ =>
      ⟨transformNot symbols a, Nat.le_trans (transformNot_weight symbols a) (by simp only [weight] at lighter ⊢; omega)⟩
termination_by e.weight
decreasing_by
  · simp only [weight]
    omega
  · simp only [weight]
    omega
  · have pos := weight_pos e
    simp only [weight]
    omega
  · exact smaller
  · exact smaller

/-- `expr_transform` -/
def transform (e : Expr σ) : Expr σ := (transformed symbols e).1

/-- `expr_trans_bool` -/
def transBool : Expr σ → Expr σ
  | two j l r => two j (transBool l) (transBool r)
  | not e => not (transBool e)
  | comp .unequal a b =>
    if symbols.type a = .tristate ∧ b = symbols.no then symbol a else comp .unequal a b
  | e => e

/-- `expr_trans_compare` with one of the three constants. -/
def transCompare (target : Tristate) : Comparison → Expr σ → Expr σ
  | c, two j l r =>
    let joined := match target with
      | .yes => two j (transCompare target .equal l) (transCompare target .equal r)
      | .no => two j.dual (transCompare target .equal l) (transCompare target .equal r)
      | .mod => two j l r
    match c with
    | .equal => joined
    | .unequal => not joined
  | c, not e => transCompare target c.flip e
  | c, comp k a b =>
    match c, target with
    | .equal, .yes | .unequal, .no => comp k a b
    | .equal, .mod => symbol symbols.no
    | .unequal, .mod => symbol symbols.yes
    | .equal, .no | .unequal, .yes => not (comp k a b)
  | c, symbol a => comp c a (symbols.constant target)

/-- `expr_contains_symbol` -/
def containsSymbol (sym : σ) : Expr σ → Bool
  | two _ l r => containsSymbol sym l || containsSymbol sym r
  | symbol a => a = sym
  | comp _ a b => a = sym || b = sym
  | not e => containsSymbol sym e

/-- `expr_depends_symbol` -/
def dependsSymbol (sym : σ) : Expr σ → Bool
  | two .and l r => dependsSymbol sym l || dependsSymbol sym r
  | symbol a => a = sym
  | comp .equal a b => a = sym && (b = symbols.yes || b = symbols.mod)
  | comp .unequal a b => a = sym && b = symbols.no
  | _ => false

end Expr
end EmbToolkit.Conf
