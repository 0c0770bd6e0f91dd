import EmbToolkit.Conf.Transform

/-! What the rewriting of a dependency expression leaves of its value. The elimination of equal leaves is described by what
the two expressions have lost in common; equality of expressions and the extraction of a common part rest on it. -/

namespace EmbToolkit.Conf

variable {σ : Type*} {symbols : Symbols σ} (values : Values symbols)

/-- A symbol with the values `n`, `m` and `y`. -/
def Symbols.Switch (symbols : Symbols σ) (a : σ) : Prop :=
  symbols.type a = .boolean ∨ symbols.type a = .tristate

namespace Values

theorem constant_tri (t : Tristate) : values.tri (symbols.constant t) = t := by
  cases t with
  | no => exact values.no_tri
  | mod => exact values.mod_tri
  | yes => exact values.yes_tri

/-- The letter of a value. -/
def letter : Tristate → String
  | .no => "n"
  | .mod => "m"
  | .yes => "y"

theorem letter_inj {t t' : Tristate} : letter t = letter t' ↔ t = t' := by
  cases t <;> cases t' <;> decide

theorem constant_text (t : Tristate) : values.text (symbols.constant t) = letter t := by
  cases t with
  | no => exact (values.const_text symbols.const_no).trans symbols.no_name
  | mod => exact (values.const_text symbols.const_mod).trans symbols.mod_name
  | yes => exact (values.const_text symbols.const_yes).trans symbols.yes_name

theorem switch_text {a : σ} (switch : symbols.Switch a) : values.text a = letter (values.tri a) := by
  have modules : values.tri a = .mod → values.modules ≠ .no := by
    intro module
    rcases switch with boolean | tristate
    · exact absurd module (values.boolean_tri a boolean)
    · exact values.tristate_tri a tristate module
  have read : values.text a = values.switchText (values.tri a) := by
    unfold text
    rcases switch with boolean | tristate
    · simp only [boolean]
    · simp only [tristate]
  rw [read]
  cases value : values.tri a with
  | no => rfl
  | mod => exact if_neg (modules value)
  | yes => rfl

/-- A comparison of a boolean or tristate symbol with a constant. -/
theorem comp_constant {a : σ} (switch : symbols.Switch a) (c : Comparison) (t : Tristate) :
    Expr.calcValue values (.comp c a (symbols.constant t)) = c.value (values.tri a = t) := by
  simp only [Expr.calcValue, switch_text values switch, constant_text, letter_inj]

end Values

namespace Expr

section Leaves
variable {ω : Type*} {j : Junction}

/-- Both expressions lose the same value, and nothing else. -/
def Shared (j : Junction) (before : Expr σ × Expr σ) (after : Pair ω σ) : Prop :=
  ∃ lost : Tristate, calcValue values before.1 = j.op (calcValue values after.first) lost ∧
    calcValue values before.2 = j.op (calcValue values after.second) lost

variable {meet : ω → Expr σ → Expr σ → Pair ω σ}

theorem againstLeaves_shared (meets : ∀ record a b, Shared values j (a, b) (meet record a b)) (record : ω) (leaf e : Expr σ) :
    Shared values j (leaf, e) (againstLeaves j meet record leaf e) := by
  induction e generalizing record leaf with
  | symbol => exact meets ..
  | not => exact meets ..
  | comp => exact meets ..
  | two k l r ihl ihr =>
    unfold againstLeaves
    split
    · next same =>
      subst same
      obtain ⟨first, leafFirst, here⟩ := ihl record leaf
      obtain ⟨second, leafSecond, there⟩ := ihr _ (againstLeaves k meet record leaf l).first
      refine ⟨k.op first second, ?_, ?_⟩
      · rw [leafFirst, leafSecond, Junction.op_assoc, Junction.op_comm k second]
      · simp only [calcValue]
        rw [here, there]
        exact Junction.op_op_op_comm ..
    · exact meets ..

theorem eachLeaf_shared (meets : ∀ record a b, Shared values j (a, b) (meet record a b)) (record : ω) (e1 e2 : Expr σ) :
    Shared values j (e1, e2) (eachLeaf j meet record e1 e2) := by
  induction e1 generalizing record e2 with
  | symbol => exact againstLeaves_shared values meets ..
  | not => exact againstLeaves_shared values meets ..
  | comp => exact againstLeaves_shared values meets ..
  | two k l r ihl ihr =>
    unfold eachLeaf
    split
    · next same =>
      subst same
      obtain ⟨first, here, restFirst⟩ := ihl record e2
      obtain ⟨second, there, restSecond⟩ := ihr _ (eachLeaf k meet record l e2).second
      refine ⟨k.op first second, ?_, ?_⟩
      · simp only [calcValue]
        rw [here, there]
        exact Junction.op_op_op_comm ..
      · rw [restFirst, restSecond, Junction.op_assoc, Junction.op_comm k second]
    · exact againstLeaves_shared values meets ..

/-- Two equal expressions replaced by the constant that changes nothing. -/
theorem shared_units (j : Junction) (record : ω) {a b : Expr σ} (same : calcValue values a = calcValue values b) :
    Shared values j (a, b) ⟨record, symbol (symbols.unit j), symbol (symbols.unit j)⟩ := by
  refine ⟨calcValue values a, ?_, ?_⟩
  · rw [calcValue, values.unit_tri, Junction.unit_op]
  · rw [calcValue, values.unit_tri, Junction.unit_op, same]

theorem shared_self (j : Junction) (record : ω) (a b : Expr σ) : Shared values j (a, b) ⟨record, a, b⟩ :=
  ⟨j.unit, (Junction.op_unit ..).symm, (Junction.op_unit ..).symm⟩

end Leaves

variable [DecidableEq σ]

theorem joinYn_value (j : Junction) (l r : Expr σ) :
    calcValue values (joinYn symbols j l r) = j.op (calcValue values l) (calcValue values r) := by
  unfold joinYn
  split_ifs with zero unit zero' unit'
  · rw [zero, calcValue, values.zero_tri, Junction.zero_op]
  · rw [unit, calcValue, values.unit_tri, Junction.unit_op]
  · rw [zero', calcValue, values.zero_tri, Junction.op_zero]
  · rw [unit', calcValue, values.unit_tri, Junction.op_unit]
  · rfl

theorem eliminateYn_value (e : Expr σ) : calcValue values (eliminateYn symbols e) = calcValue values e := by
  induction e with
  | symbol => rfl
  | not => rfl
  | comp => rfl
  | two j l r ihl ihr => rw [eliminateYn, joinYn_value, ihl, ihr, calcValue]

theorem eliminateMeet_shared {eq : Expr σ → Expr σ → Bool} (sound : ∀ a b, eq a b → calcValue values a = calcValue values b)
    (j : Junction) (count : Nat) (a b : Expr σ) : Shared values j (a, b) (eliminateMeet symbols eq j count a b) := by
  unfold eliminateMeet
  split_ifs with constants equal
  · exact shared_self ..
  · exact shared_units values j _ (sound a b equal)
  · exact shared_self ..

theorem eqWithin_value {fuel : Nat} {e1 e2 : Expr σ} (equal : eqWithin symbols fuel e1 e2) :
    calcValue values e1 = calcValue values e2 := by
  induction fuel generalizing e1 e2 with
  | zero => cases equal
  | succ fuel ih =>
    cases e1 <;> cases e2 <;> simp only [eqWithin, Bool.false_eq_true, decide_eq_true_eq] at equal
    case symbol.symbol => rw [equal]
    case not.not => rw [calcValue, calcValue, ih equal]
    case comp.comp => rw [equal.1, equal.2.1, equal.2.2]
    case two.two j l r j' l' r' =>
      split at equal
      · next same =>
        subst same
        obtain ⟨lost, first, second⟩ := eachLeaf_shared values
          (eliminateMeet_shared values (fun _ _ => ih) j) 0 (two j l r) (two j l' r')
        split at equal
        · next a b left right =>
          rw [decide_eq_true_eq] at equal
          rw [first, second, ← eliminateYn_value, ← eliminateYn_value values (Pair.second _), left, right, equal]
        · cases equal
      · cases equal

/-- What counts as the same expression has the same value. -/
theorem exprEq_value {e1 e2 : Expr σ} (equal : exprEq symbols e1 e2) : calcValue values e1 = calcValue values e2 :=
  eqWithin_value values equal

/-! The bound on the recursion of `expr_eq` is never reached. -/

section Enough
variable {ω : Type*} {j : Junction} {meet meet' : ω → Expr σ → Expr σ → Pair ω σ} 

omit [DecidableEq σ] in
theorem againstLeaves_congr (small : Expr σ → Prop) (same : ∀ record a b, small a → meet record a b = meet' record a b)
    (kept : ∀ record a b, small a → small (meet record a b).first) (record : ω) (leaf e : Expr σ) (here : small leaf) :
    againstLeaves j meet record leaf e = againstLeaves j meet' record leaf e ∧
      small (againstLeaves j meet record leaf e).first := by
  induction e generalizing record leaf with
  | symbol => exact ⟨same _ _ _ here, kept _ _ _ here⟩
  | not => exact ⟨same _ _ _ here, kept _ _ _ here⟩
  | comp => exact ⟨same _ _ _ here, kept _ _ _ here⟩
  | two k l r ihl ihr =>
    unfold againstLeaves
    split
    · obtain ⟨left, smallLeft⟩ := ihl record leaf here
      obtain ⟨right, smallRight⟩ := ihr (againstLeaves j meet record leaf l).record _ smallLeft
      dsimp only
      rw [← left]
      exact ⟨by rw [right], smallRight⟩
    · exact ⟨same _ _ _ here, kept _ _ _ here⟩

omit [DecidableEq σ] in
theorem eachLeaf_congr (small : Expr σ → Prop) (same : ∀ record a b, small a → meet record a b = meet' record a b)
    (kept : ∀ record a b, small a → small (meet record a b).first)
    (sides : ∀ k l r, small (two k l r) → small l ∧ small r) (record : ω) (e1 e2 : Expr σ) (here : small e1) :
    eachLeaf j meet record e1 e2 = eachLeaf j meet' record e1 e2 := by
  induction e1 generalizing record e2 with
  | symbol => exact (againstLeaves_congr small same kept record _ e2 here).1
  | not => exact (againstLeaves_congr small same kept record _ e2 here).1
  | comp => exact (againstLeaves_congr small same kept record _ e2 here).1
  | two k l r ihl ihr =>
    unfold eachLeaf
    split
    · dsimp only
      rw [ihl record e2 (sides k l r here).1, ihr _ _ (sides k l r here).2]
    · exact (againstLeaves_congr small same kept record _ e2 here).1

end Enough

theorem eliminateMeet_congr {eq eq' : Expr σ → Expr σ → Bool} {e1 : Expr σ} (e2 : Expr σ) (same : eq e1 e2 = eq' e1 e2)
    (j : Junction) (count : Nat) : eliminateMeet symbols eq j count e1 e2 = eliminateMeet symbols eq' j count e1 e2 := by
  unfold eliminateMeet
  rw [same]

theorem eliminateMeet_size (eq : Expr σ → Expr σ → Bool) (j : Junction) (count : Nat) (e1 e2 : Expr σ) :
    (eliminateMeet symbols eq j count e1 e2).first.size ≤ e1.size := by
  unfold eliminateMeet
  split_ifs
  · exact Nat.le_refl _
  · exact size_pos e1
  · exact Nat.le_refl _

theorem eqWithin_enough {n m : Nat} {e1 : Expr σ} (first : e1.size ≤ n) (second : e1.size ≤ m) (e2 : Expr σ) :
    eqWithin symbols n e1 e2 = eqWithin symbols m e1 e2 := by
  induction n generalizing m e1 e2 with
  | zero => exact absurd (size_pos e1) (by omega)
  | succ n ih =>
    obtain ⟨m, rfl⟩ : ∃ k, m = k + 1 := ⟨m - 1, by have := size_pos e1; omega⟩
    cases e1 <;> cases e2 <;> simp only [eqWithin]
    case not.not a b =>
      simp only [size] at first second
      exact ih (by omega) (by omega) b
    case two.two j l r j' l' r' =>
      simp only [size] at first second
      have side : ∀ e, e.size ≤ n ∧ e.size ≤ m → ∀ count e2,
          eachLeaf j (eliminateMeet symbols (eqWithin symbols n) j) count e e2 =
            eachLeaf j (eliminateMeet symbols (eqWithin symbols m) j) count e e2 := fun e small count e2 =>
        eachLeaf_congr (fun e => e.size ≤ n ∧ e.size ≤ m)
          (fun _ a b small => eliminateMeet_congr b (ih small.1 small.2 b) j _)
          (fun _ a b small => ⟨(eliminateMeet_size ..).trans small.1, (eliminateMeet_size ..).trans small.2⟩)
          (fun _ _ _ small => by simp only [size] at small; omega) count e e2 small
      have whole : eachLeaf j (eliminateMeet symbols (eqWithin symbols n) j) 0 (two j l r) (two j' l' r') =
          eachLeaf j (eliminateMeet symbols (eqWithin symbols m) j) 0 (two j l r) (two j' l' r') := by
        simp only [eachLeaf, if_true]
        rw [side l (by omega), side r (by omega)]
      rw [whole]

theorem eqWithin_eq {n : Nat} {e1 : Expr σ} (enough : e1.size ≤ n) (e2 : Expr σ) :
    eqWithin symbols n e1 e2 = exprEq symbols e1 e2 :=
  eqWithin_enough enough (Nat.le_refl _) e2

/-- `expr_eq` is decided within the size of its first argument, and what it takes as the same has the same value. -/
theorem exprEq_sound (symbols : Symbols σ) (e1 e2 : Expr σ) :
    (∀ fuel, e1.size ≤ fuel → eqWithin symbols fuel e1 e2 = exprEq symbols e1 e2) ∧
      (exprEq symbols e1 e2 = true → ∀ values : Values symbols, calcValue values e1 = calcValue values e2) :=
  ⟨fun _ enough => eqWithin_eq enough e2, fun equal values => exprEq_value values equal⟩

theorem exprEq_sound_example :
    let foo : Expr Named := symbol (.config "FOO")
    let bar : Expr Named := symbol (.config "BAR")
    ∀ values : Values (named fun _ => .boolean), calcValue values (two .and foo (two .or bar foo)) =
      calcValue values (two .and (two .or foo bar) foo) := by
  intro foo bar
  exact (exprEq_sound _ _ _).2 (by decide)

end Expr
end EmbToolkit.Conf
