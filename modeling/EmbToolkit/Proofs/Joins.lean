import EmbToolkit.Conf.Dups
import EmbToolkit.Proofs.ExprTransform

/-! `expr_join_or` and `expr_join_and` give an expression for the value of the two they join, whatever the values of the
symbols are, and what they give is no new kind of expression. -/

namespace EmbToolkit.Conf

variable {σ : Type*} {symbols : Symbols σ} (values : Values symbols)

namespace Values
variable {a : σ}

theorem comp_no (switch : symbols.Switch a) (c : Comparison) :
    Expr.calcValue values (.comp c a symbols.no) = c.value (values.tri a = .no) :=
  values.comp_constant switch c .no

theorem comp_mod (switch : symbols.Switch a) (c : Comparison) :
    Expr.calcValue values (.comp c a symbols.mod) = c.value (values.tri a = .mod) :=
  values.comp_constant switch c .mod

theorem comp_yes (switch : symbols.Switch a) (c : Comparison) :
    Expr.calcValue values (.comp c a symbols.yes) = c.value (values.tri a = .yes) :=
  values.comp_constant switch c .yes

end Values

namespace Expr
variable [DecidableEq σ] {a b c : σ} {e1 e2 x : Expr σ}

theorem joinOrTristate_value (tristate : symbols.type a = .tristate) (first : joinSymbol₁ e1 = some a)
    (second : joinSymbol₂ e2 = some a) (joined : joinOrTristate symbols a e1 e2 = some x) :
    calcValue values x = Junction.or.op (calcValue values e1) (calcValue values e2) := by
  have switch : symbols.Switch a := .inr tristate
  unfold joinOrTristate at joined
  split at joined
  · cases first
    cases second
    split_ifs at joined with found found found <;> cases joined <;> rcases found with ⟨rfl, rfl⟩ | ⟨rfl, rfl⟩ <;>
      simp only [values.comp_no switch, values.comp_mod switch, values.comp_yes switch] <;>
      cases values.tri a <;> rfl
  · cases joined

omit [DecidableEq σ] in
theorem joinOrBoolean_value (boolean : symbols.type a = .boolean) (first : joinSymbol₁ e1 = some a)
    (second : joinSymbol₂ e2 = some a) (joined : joinOrBoolean symbols e1 e2 = some x) :
    calcValue values x = Junction.or.op (calcValue values e1) (calcValue values e2) := by
  have whole : values.tri a ≠ .mod := values.boolean_tri a boolean
  unfold joinOrBoolean at joined
  split at joined
  · cases first
    cases second
    cases joined
    simp only [calcValue, values.yes_tri]
    rw [Junction.op_comm, Tristate.op_not .or whole]
    rfl
  · cases first
    cases second
    cases joined
    simp only [calcValue, values.yes_tri]
    rw [Tristate.op_not .or whole]
    rfl
  · cases joined

theorem joinOr_value (joined : joinOr symbols e1 e2 = some x) :
    calcValue values x = Junction.or.op (calcValue values e1) (calcValue values e2) := by
  unfold joinOr at joined
  split_ifs at joined with equal
  · cases joined
    rw [← exprEq_value values equal, Junction.op_self]
  · split at joined
    · next a b first second =>
      split_ifs at joined with same
      subst same
      split at joined
      · next tristate => exact joinOrTristate_value values tristate first second joined
      · next boolean => exact joinOrBoolean_value values boolean first second joined
      · cases joined
    · cases joined

theorem joinAndSymbol_value (switch : symbols.Switch a) {c : Comparison} (joined : joinAndSymbol symbols a c b = some x) :
    calcValue values x = Junction.and.op (values.tri a) (calcValue values (comp c a b)) := by
  unfold joinAndSymbol at joined
  have alone : calcValue values (symbol a) = values.tri a := rfl
  cases c with
  | equal =>
    simp only at joined
    split_ifs at joined with found
    cases joined
    rw [found, values.comp_yes switch]
    cases values.tri a <;> rfl
  | unequal =>
    simp only at joined
    split_ifs at joined with found found <;> cases joined <;> rw [found] <;>
      simp only [values.comp_no switch, values.comp_mod switch, values.comp_yes switch, alone] <;>
      cases values.tri a <;> rfl

theorem joinAndConst_value (joined : joinAndConst symbols a b c = some x) :
    calcValue values x = Junction.and.op (calcValue values (comp .equal a b)) (calcValue values (comp .unequal a c)) := by
  unfold joinAndConst at joined
  split_ifs at joined with const differ
  · cases joined
    have apart : values.text b ≠ values.text c := by
      rw [values.const_text const.1, values.const_text const.2]
      exact fun same => differ (symbols.const_name _ _ const.2 const.1 same)
    simp only [calcValue]
    by_cases same : values.text a = values.text b
    · have other : values.text a ≠ values.text c := same ▸ apart
      simp only [same, apart]
      rfl
    · simp only [same]
      exact (Junction.zero_op .and _).symm
  · cases joined
    obtain rfl := not_ne_iff.mp differ
    simp only [calcValue, values.no_tri]
    by_cases same : values.text a = values.text b <;> simp only [same] <;> rfl

theorem joinAndUnequal_value (switch : symbols.Switch a) (joined : joinAndUnequal symbols a b c = some x) :
    calcValue values x = Junction.and.op (calcValue values (comp .unequal a b)) (calcValue values (comp .unequal a c)) := by
  unfold joinAndUnequal at joined
  split_ifs at joined with found found found <;> cases joined <;> rcases found with ⟨rfl, rfl⟩ | ⟨rfl, rfl⟩ <;>
    simp only [values.comp_no switch, values.comp_mod switch, values.comp_yes switch] <;>
    cases values.tri a <;> rfl

theorem joinAndTristate_value (tristate : symbols.type a = .tristate) (first : joinSymbol₁ e1 = some a)
    (second : joinSymbol₂ e2 = some a) (joined : joinAndTristate symbols a e1 e2 = some x) :
    calcValue values x = Junction.and.op (calcValue values e1) (calcValue values e2) := by
  unfold joinAndTristate at joined
  split at joined
  · cases first
    cases second
    exact joinAndConst_value values joined
  · cases first
    cases second
    rw [Junction.op_comm]
    exact joinAndConst_value values joined
  · cases first
    cases second
    exact joinAndUnequal_value values (.inr tristate) joined
  · cases joined

theorem joinAndSwitch_value (switch : symbols.Switch a) (first : joinSymbol₁ e1 = some a)
    (second : joinSymbol₂ e2 = some a) (joined : joinAndSwitch symbols a e1 e2 = some x) :
    calcValue values x = Junction.and.op (calcValue values e1) (calcValue values e2) := by
  unfold joinAndSwitch at joined
  split at joined
  · cases first
    cases second
    exact joinAndSymbol_value values switch joined
  · cases first
    cases second
    rw [Junction.op_comm]
    exact joinAndSymbol_value values switch joined
  · split_ifs at joined with tristate
    exact joinAndTristate_value values tristate first second joined

theorem joinAnd_value (joined : joinAnd symbols e1 e2 = some x) :
    calcValue values x = Junction.and.op (calcValue values e1) (calcValue values e2) := by
  unfold joinAnd at joined
  split_ifs at joined with equal
  · cases joined
    rw [← exprEq_value values equal, Junction.op_self]
  · split at joined
    · next a b first second =>
      split_ifs at joined with same
      obtain ⟨rfl, switch⟩ := same
      exact joinAndSwitch_value values switch first second joined
    · cases joined

theorem join_value {j : Junction} (joined : join symbols j e1 e2 = some x) :
    calcValue values x = j.op (calcValue values e1) (calcValue values e2) := by
  cases j with
  | or => exact joinOr_value values joined
  | and => exact joinAnd_value values joined

theorem extractMeet_shared (j : Junction) (found : Option (Expr σ)) (e1 e2 : Expr σ) :
    Shared values j (e1, e2) (extractMeet symbols j found e1 e2) := by
  unfold extractMeet
  split_ifs with equal
  · exact shared_units values j _ (exprEq_value values equal)
  · exact shared_self ..

theorem extractEq_shared (j : Junction) (e1 e2 : Expr σ) : Shared values j (e1, e2) (extractEq symbols j e1 e2) := by
  obtain ⟨lost, first, second⟩ := eachLeaf_shared values (extractMeet_shared values j) none e1 e2
  refine ⟨lost, ?_, ?_⟩ <;> unfold extractEq <;> dsimp only <;> split
  · rw [eliminateYn_value]
    exact first
  · exact first
  · rw [eliminateYn_value]
    exact second
  · exact second

theorem contradicts_value {k : Junction} (contradicts : Counted.contradicts symbols k e1 e2) :
    k.dual.Le (calcValue values e1).not (calcValue values e2) := by
  have empty : (extractEq symbols k.dual (transform symbols (not e1)) e2).first = symbol (symbols.unit k.dual) :=
    of_decide_eq_true contradicts
  obtain ⟨lost, first, second⟩ := extractEq_shared values k.dual (transform symbols (not e1)) e2
  rw [empty, transform_value, calcValue, calcValue, values.unit_tri, Junction.unit_op] at first
  rw [first, second]
  exact Junction.le_op_right ..

omit [DecidableEq σ] in
theorem unit_plain (j : Junction) : Plain values (symbol (symbols.unit j)) := by
  show values.tri (symbols.unit j) ≠ .mod
  rw [values.unit_tri]
  cases j with
  | or => exact fun same => nomatch same
  | and => exact fun same => nomatch same

omit [DecidableEq σ] in
theorem unit_typed (j : Junction) : Typed symbols (symbol (symbols.unit j)) := by
  cases j with
  | or => exact .inr ⟨.no, rfl⟩
  | and => exact .inr ⟨.yes, rfl⟩

/-- What can come out of joining two expressions. -/
inductive Joined (symbols : Symbols σ) (e1 e2 : Expr σ) : Expr σ → Prop
  | first : Joined symbols e1 e2 e1
  | tristate {a b : σ} {c : Comparison} (tristate : symbols.type a = .tristate) : Joined symbols e1 e2 (comp c a b)
  | compared {a b b' : σ} {c c' : Comparison} (constant : symbols.Constant b')
      (given : e1 = comp c' a b' ∨ e2 = comp c' a b') : Joined symbols e1 e2 (comp c a b)
  | alone {a : σ} (given : e1 = symbol a ∨ e2 = symbol a) : Joined symbols e1 e2 (symbol a)
  | settled {j : Junction} : Joined symbols e1 e2 (symbol (symbols.unit j))

theorem joinOr_joined (joined : joinOr symbols e1 e2 = some x) : Joined symbols e1 e2 x := by
  unfold joinOr at joined
  split_ifs at joined with equal
  · cases joined
    exact .first
  · split at joined
    · next a b first second =>
      split_ifs at joined with same
      split at joined
      · next tristate =>
        unfold joinOrTristate at joined
        split at joined
        · split_ifs at joined <;> cases joined <;> exact .tristate tristate
        · cases joined
      · unfold joinOrBoolean at joined
        split at joined <;> cases joined <;> exact .settled (j := .and)
      · cases joined
    · cases joined

theorem joinAndSymbol_joined {c : Comparison} (joined : joinAndSymbol symbols a c b = some x)
    (alone : e1 = symbol a ∨ e2 = symbol a) (given : e1 = comp c a b ∨ e2 = comp c a b) : Joined symbols e1 e2 x := by
  unfold joinAndSymbol at joined
  cases c with
  | equal =>
    simp only at joined
    split_ifs at joined with found
    cases joined
    exact .compared ⟨.yes, found⟩ given
  | unequal =>
    simp only at joined
    split_ifs at joined with isNo isMod
    · cases joined
      exact .alone alone
    · cases joined
      exact .compared ⟨.mod, isMod⟩ given

theorem joinAndTristate_joined (tristate : symbols.type a = .tristate) (joined : joinAndTristate symbols a e1 e2 = some x) :
    Joined symbols e1 e2 x := by
  have constant {b c : σ} (joined : joinAndConst symbols a b c = some x) : Joined symbols e1 e2 x := by
    unfold joinAndConst at joined
    split_ifs at joined <;> cases joined
    · exact .tristate tristate
    · exact .settled (j := .or)
  unfold joinAndTristate at joined
  split at joined
  · exact constant joined
  · exact constant joined
  · unfold joinAndUnequal at joined
    split_ifs at joined <;> cases joined <;> exact .tristate tristate
  · cases joined

theorem joinAnd_joined (joined : joinAnd symbols e1 e2 = some x) : Joined symbols e1 e2 x := by
  unfold joinAnd at joined
  split_ifs at joined with equal
  · cases joined
    exact .first
  · split at joined
    · next a b first second =>
      split_ifs at joined with same
      obtain ⟨rfl, -⟩ := same
      unfold joinAndSwitch at joined
      split at joined
      · cases first
        cases second
        exact joinAndSymbol_joined joined (.inl rfl) (.inr rfl)
      · cases first
        cases second
        exact joinAndSymbol_joined joined (.inr rfl) (.inl rfl)
      · split_ifs at joined with tristate
        exact joinAndTristate_joined tristate joined
    · cases joined

theorem join_joined {j : Junction} (joined : join symbols j e1 e2 = some x) : Joined symbols e1 e2 x := by
  cases j with
  | or => exact joinOr_joined joined
  | and => exact joinAnd_joined joined

namespace Joined

omit [DecidableEq σ] in
theorem size_le (joined : Joined symbols e1 e2 x) : x.size ≤ e1.size := by
  cases joined with
  | first => exact Nat.le_refl _
  | tristate | compared | alone | settled => exact size_pos e1

omit [DecidableEq σ] in
theorem junction {j : Junction} (joined : Joined symbols e1 e2 x) (proper : e1.junction? ≠ some j) : x.junction? ≠ some j := by
  cases joined with
  | first => exact proper
  | tristate | compared | alone | settled => exact fun h => nomatch h

omit [DecidableEq σ] in
theorem normal (joined : Joined symbols e1 e2 x) (first : Normal symbols e1) (second : Normal symbols e2) :
    Normal symbols x := by
  cases joined with
  | first => exact first
  | tristate tristate => exact fun boolean => nomatch tristate.symm.trans boolean
  | compared constant given =>
    rcases given with rfl | rfl
    · exact fun boolean => absurd constant (first boolean)
    · exact fun boolean => absurd constant (second boolean)
  | alone | settled => trivial

omit [DecidableEq σ] in
theorem plain {values : Values symbols} (joined : Joined symbols e1 e2 x) (first : Plain values e1) (second : Plain values e2) :
    Plain values x := by
  cases joined with
  | first => exact first
  | tristate | compared => trivial
  | alone given =>
    rcases given with rfl | rfl
    · exact first
    · exact second
  | @settled j => exact unit_plain values j

omit [DecidableEq σ] in
theorem typed (joined : Joined symbols e1 e2 x) (first : Typed symbols e1) (second : Typed symbols e2) : Typed symbols x := by
  cases joined with
  | first => exact first
  | tristate | compared => trivial
  | alone given =>
    rcases given with rfl | rfl
    · exact first
    · exact second
  | @settled j => exact unit_typed j

end Joined

end Expr
end EmbToolkit.Conf
