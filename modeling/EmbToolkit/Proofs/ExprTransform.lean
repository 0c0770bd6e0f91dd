import EmbToolkit.Proofs.ExprValues

/-! `expr_transform` keeps the value of an expression and leaves negations before symbols only. On what it leaves,
`expr_trans_bool` keeps whether the value is `n`, which is all that the visibility of a symbol that is no tristate takes
from it; `expr_trans_compare` computes a comparison of the value. -/

namespace EmbToolkit.Conf

variable {σ : Type*} {symbols : Symbols σ}

/-- One of the three constants. -/
def Symbols.Constant (symbols : Symbols σ) (a : σ) : Prop := ∃ t, a = symbols.constant t

theorem Symbols.not_constant (symbols : Symbols σ) {a : σ} (typed : symbols.type a ≠ .unknown) : ¬ symbols.Constant a := by
  rintro ⟨t, rfl⟩
  apply typed
  cases t with
  | no => exact symbols.const_type _ symbols.const_no
  | mod => exact symbols.const_type _ symbols.const_mod
  | yes => exact symbols.const_type _ symbols.const_yes

theorem Symbols.not_constant_of_ne (symbols : Symbols σ) {a : σ} (isNo : a ≠ symbols.no) (isMod : a ≠ symbols.mod)
    (isYes : a ≠ symbols.yes) : ¬ symbols.Constant a := by
  intro ⟨t, constant⟩
  cases t with
  | no => exact isNo constant
  | mod => exact isMod constant
  | yes => exact isYes constant

namespace Expr

/-- Negations stand before symbols that are no constants, and no boolean symbol is compared with a constant. -/
def Normal (symbols : Symbols σ) : Expr σ → Prop
  | symbol _ => True
  | not (symbol a) => ¬ symbols.Constant a
  | not _ => False
  | comp _ a b => symbols.type a = .boolean → ¬ symbols.Constant b
  | two _ l r => Normal symbols l ∧ Normal symbols r

theorem calcValue_negation (values : Values symbols) (j : Junction) (l r : Expr σ) :
    calcValue values (two j.dual (not l) (not r)) = calcValue values (not (two j l r)) := by
  simp only [calcValue, Tristate.not_op]

variable [DecidableEq σ]

theorem transform_symbol (a : σ) : transform symbols (symbol a) = symbol a := by
  unfold transform transformed
  rfl

theorem transform_comp (c : Comparison) (a b : σ) : transform symbols (comp c a b) = transformComp symbols c a b := by
  unfold transform transformed
  rfl

theorem transform_two (j : Junction) (l r : Expr σ) :
    transform symbols (two j l r) = two j (transform symbols l) (transform symbols r) := by
  conv_lhs => unfold transform transformed
  rfl

variable (symbols) in
theorem transform_weight (e : Expr σ) : (transform symbols e).weight ≤ e.weight := (transformed symbols e).2

/-- What `expr_transform` makes of the negation of what it has done. -/
def negated (symbols : Symbols σ) : Expr σ → Expr σ
  | not e => transform symbols e
  | comp c a b => comp c.flip a b
  | two j l r => transform symbols (two j.dual (not l) (not r))
  | symbol a => transformNot symbols a

theorem transform_not (e : Expr σ) : transform symbols (not e) = negated symbols (transform symbols e) := by
  conv_lhs => unfold transform transformed
  unfold transform
  split <;> next found => rw [found]; rfl

/-- A boolean symbol compared with a constant. -/
def comparedBoolean (symbols : Symbols σ) (a : σ) : Comparison → Tristate → Expr σ
  | .equal, .yes | .unequal, .no => symbol a
  | .equal, .no | .unequal, .yes => not (symbol a)
  | .equal, .mod => symbol symbols.no
  | .unequal, .mod => symbol symbols.yes

omit [DecidableEq σ] in
theorem comparedBoolean_of {P : Expr σ → Prop} {a : σ} (itself : P (symbol a)) (negation : P (not (symbol a)))
    (no : P (symbol symbols.no)) (yes : P (symbol symbols.yes)) (c : Comparison) (t : Tristate) :
    P (comparedBoolean symbols a c t) := by
  cases c <;> cases t <;> assumption

variable (symbols) in
/-- What `expr_transform` does to a comparison. -/
theorem transformComp_cases (c : Comparison) (a b : σ) :
    (∃ t, symbols.type a = .boolean ∧ b = symbols.constant t ∧ transformComp symbols c a b = comparedBoolean symbols a c t) ∨
      ((symbols.type a = .boolean → ¬ symbols.Constant b) ∧ transformComp symbols c a b = comp c a b) := by
  by_cases boolean : symbols.type a = .boolean
  · by_cases isNo : b = symbols.no
    · exact .inl ⟨.no, boolean, isNo, by cases c <;> simp [transformComp, comparedBoolean, boolean, isNo]⟩
    by_cases isMod : b = symbols.mod
    · exact .inl ⟨.mod, boolean, isMod, by cases c <;> simp [transformComp, comparedBoolean, boolean, isMod, symbols.mod_ne_no]⟩
    by_cases isYes : b = symbols.yes
    · refine .inl ⟨.yes, boolean, isYes, ?_⟩
      cases c <;> simp [transformComp, comparedBoolean, boolean, isYes, symbols.yes_ne_no, symbols.yes_ne_mod]
    · have free := symbols.not_constant_of_ne isNo isMod isYes
      exact .inr ⟨fun _ => free, by cases c <;> simp [transformComp, isNo, isMod, isYes]⟩
  · exact .inr ⟨fun h => absurd h boolean, if_pos boolean⟩

variable (symbols) in
/-- What it does to a negated symbol. -/
theorem transformNot_cases (a : σ) :
    (∃ t, a = symbols.constant t ∧ transformNot symbols a = symbol (symbols.constant t.not)) ∨
      (¬ symbols.Constant a ∧ transformNot symbols a = not (symbol a)) := by
  by_cases isYes : a = symbols.yes
  · exact .inl ⟨.yes, isYes, if_pos isYes⟩
  by_cases isMod : a = symbols.mod
  · exact .inl ⟨.mod, isMod, by simp [transformNot, isMod, symbols.yes_ne_mod.symm, Symbols.constant, Tristate.not]⟩
  by_cases isNo : a = symbols.no
  · refine .inl ⟨.no, isNo, ?_⟩
    simp [transformNot, isNo, symbols.yes_ne_no.symm, symbols.mod_ne_no.symm, Symbols.constant, Tristate.not]
  · have free := symbols.not_constant_of_ne isNo isMod isYes
    exact .inr ⟨free, by simp [transformNot, isYes, isMod, isNo]⟩

/-- No symbol that stands alone has the value `m`. -/
def Plain (values : Values symbols) : Expr σ → Prop
  | symbol a => values.tri a ≠ .mod
  | not e => Plain values e
  | comp _ _ _ => True
  | two _ l r => Plain values l ∧ Plain values r

/-- Symbols that stand alone are boolean, tristate or constant. -/
def Typed (symbols : Symbols σ) : Expr σ → Prop
  | symbol a => symbols.Switch a ∨ symbols.Constant a
  | not e => Typed symbols e
  | comp _ _ _ => True
  | two _ l r => Typed symbols l ∧ Typed symbols r

/-- All that `expr_transform` does. -/
inductive Transforms (symbols : Symbols σ) : Expr σ → Expr σ → Prop
  | symbol (a : σ) : Transforms symbols (symbol a) (symbol a)
  | kept {c : Comparison} {a b : σ} (free : symbols.type a = .boolean → ¬ symbols.Constant b) :
      Transforms symbols (comp c a b) (comp c a b)
  | compared {c : Comparison} {a : σ} {t : Tristate} (boolean : symbols.type a = .boolean) :
      Transforms symbols (comp c a (symbols.constant t)) (comparedBoolean symbols a c t)
  | two {j : Junction} {l l' r r' : Expr σ} (left : Transforms symbols l l') (right : Transforms symbols r r') :
      Transforms symbols (two j l r) (two j l' r')
  | notConstant {e : Expr σ} {t : Tristate} (inner : Transforms symbols e (symbol (symbols.constant t))) :
      Transforms symbols (not e) (symbol (symbols.constant t.not))
  | notSymbol {e : Expr σ} {a : σ} (free : ¬ symbols.Constant a) (inner : Transforms symbols e (symbol a)) :
      Transforms symbols (not e) (not (symbol a))
  | notComp {e : Expr σ} {c : Comparison} {a b : σ} (inner : Transforms symbols e (comp c a b)) :
      Transforms symbols (not e) (comp c.flip a b)
  | notNot {e l l' : Expr σ} (inner : Transforms symbols e (not l)) (again : Transforms symbols l l') :
      Transforms symbols (not e) l'
  | notTwo {e l r x : Expr σ} {j : Junction} (inner : Transforms symbols e (two j l r))
      (again : Transforms symbols (two j.dual (not l) (not r)) x) : Transforms symbols (not e) x

/-- The measure of what is left to do after the negated expression is done. -/
theorem negation_weight {e e' : Expr σ} (j : Junction) (l r : Expr σ) (done : transform symbols e = e') :
    (e' = not l → l.weight < (not e).weight) ∧
      (e' = two j l r → (two j.dual (not l) (not r)).weight < (not e).weight) := by
  have lighter := transform_weight symbols e
  have pos := weight_pos l
  rw [done] at lighter
  constructor
  · rintro rfl
    simp only [weight] at lighter ⊢
    omega
  · rintro rfl
    simp only [weight] at lighter ⊢
    omega

theorem transform_transforms (e : Expr σ) : Transforms symbols e (transform symbols e) := by
  induction size : e.weight using Nat.strong_induction_on generalizing e with
  | _ n ih =>
    subst size
    cases e with
    | symbol a =>
      rw [transform_symbol]
      exact .symbol a
    | comp c a b =>
      rw [transform_comp]
      rcases transformComp_cases symbols c a b with ⟨t, boolean, rfl, done⟩ | ⟨free, done⟩
      · rw [done]
        exact .compared boolean
      · rw [done]
        exact .kept free
    | two j l r =>
      rw [transform_two]
      exact .two (ih l.weight (by simp only [weight]; omega) l rfl) (ih r.weight (by simp only [weight]; omega) r rfl)
    | not e =>
      have inner := ih e.weight (by have := weight_pos e; simp only [weight]; omega) e rfl
      rw [transform_not]
      cases done : transform symbols e with
      | symbol a =>
        rw [done] at inner
        rw [negated]
        rcases transformNot_cases symbols a with ⟨t, rfl, done⟩ | ⟨free, done⟩
        · rw [done]
          exact .notConstant inner
        · rw [done]
          exact .notSymbol free inner
      | comp c a b =>
        rw [done] at inner
        exact .notComp inner
      | not l =>
        rw [done] at inner
        exact .notNot inner (ih _ ((negation_weight .or l l done).1 rfl) l rfl)
      | two j l r =>
        rw [done] at inner
        exact .notTwo inner (ih _ ((negation_weight j l r done).2 rfl) _ rfl)

namespace Transforms
variable {e e' : Expr σ}

omit [DecidableEq σ] in
theorem value (values : Values symbols) (transforms : Transforms symbols e e') : calcValue values e' = calcValue values e := by
  induction transforms with
  | symbol | kept => rfl
  | @compared c a t boolean =>
    have whole : values.tri a ≠ .mod := values.boolean_tri a boolean
    rw [values.comp_constant (.inl boolean)]
    cases c <;> cases t <;> simp only [comparedBoolean, calcValue, values.no_tri, values.yes_tri] <;>
      cases found : values.tri a <;> first | rfl | exact absurd found whole
  | two _ _ left right => rw [calcValue, calcValue, left, right]
  | notConstant _ inner => rw [calcValue, calcValue, ← inner, calcValue, values.constant_tri, values.constant_tri]
  | notSymbol _ _ inner => exact congrArg Tristate.not inner
  | notComp _ inner =>
    rw [calcValue, ← inner]
    simp only [calcValue, Comparison.flip_value]
  | notNot _ _ inner again => rw [again, calcValue, ← inner, calcValue, Tristate.not_not]
  | notTwo _ _ inner again => rw [again, calcValue_negation, calcValue, calcValue, inner]

omit [DecidableEq σ] in
theorem normal (transforms : Transforms symbols e e') : Normal symbols e' := by
  induction transforms with
  | symbol | notConstant => trivial
  | kept free => exact free
  | @compared c a t boolean =>
    have proper := symbols.not_constant (by rw [boolean]; decide)
    exact comparedBoolean_of (P := Normal symbols) trivial proper trivial trivial c t
  | two _ _ left right => exact ⟨left, right⟩
  | notSymbol free => exact free
  | notComp _ inner => exact inner
  | notNot _ _ _ again => exact again
  | notTwo _ _ _ again => exact again

omit [DecidableEq σ] in
theorem plain {values : Values symbols} (transforms : Transforms symbols e e') (plain : Plain values e) : Plain values e' := by
  induction transforms with
  | symbol => exact plain
  | kept => trivial
  | @compared c a t boolean =>
    have whole : values.tri a ≠ .mod := values.boolean_tri a boolean
    have no : values.tri symbols.no ≠ .mod := by rw [values.no_tri]; decide
    have yes : values.tri symbols.yes ≠ .mod := by rw [values.yes_tri]; decide
    exact comparedBoolean_of (P := Plain values) whole whole no yes c t
  | two _ _ left right => exact ⟨left plain.1, right plain.2⟩
  | @notConstant e t _ inner =>
    have proper := inner plain
    show values.tri _ ≠ .mod
    rw [Plain, values.constant_tri] at proper
    rw [values.constant_tri]
    cases t <;> first | exact absurd rfl proper | decide
  | notSymbol _ _ inner => exact inner plain
  | notComp => trivial
  | notNot _ _ inner again => exact again (inner plain)
  | notTwo _ _ inner again => exact again (inner plain)

omit [DecidableEq σ] in
theorem typed (transforms : Transforms symbols e e') (typed : Typed symbols e) : Typed symbols e' := by
  induction transforms with
  | symbol => exact typed
  | kept => trivial
  | @compared c a t boolean =>
    have switch : symbols.Switch a ∨ symbols.Constant a := .inl (.inl boolean)
    have no : symbols.Switch symbols.no ∨ symbols.Constant symbols.no := .inr ⟨.no, rfl⟩
    have yes : symbols.Switch symbols.yes ∨ symbols.Constant symbols.yes := .inr ⟨.yes, rfl⟩
    exact comparedBoolean_of (P := Typed symbols) switch switch no yes c t
  | two _ _ left right => exact ⟨left typed.1, right typed.2⟩
  | notConstant => exact .inr ⟨_, rfl⟩
  | notSymbol _ _ inner => exact inner typed
  | notComp => trivial
  | notNot _ _ inner again => exact again (inner typed)
  | notTwo _ _ inner again => exact again (inner typed)

end Transforms

theorem transform_value (values : Values symbols) (e : Expr σ) :
    calcValue values (transform symbols e) = calcValue values e :=
  (transform_transforms e).value values

theorem transform_normal (e : Expr σ) : Normal symbols (transform symbols e) := (transform_transforms e).normal

theorem transform_of_normal {e : Expr σ} (normal : Normal symbols e) : transform symbols e = e := by
  induction e with
  | symbol a => exact transform_symbol a
  | comp c a b =>
    rw [transform_comp]
    rcases transformComp_cases symbols c a b with ⟨t, boolean, constant, -⟩ | ⟨-, done⟩
    · exact absurd ⟨t, constant⟩ (normal boolean)
    · exact done
  | two j l r ihl ihr => rw [transform_two, ihl normal.1, ihr normal.2]
  | not e =>
    cases e with
    | symbol a =>
      rw [transform_not, transform_symbol, negated]
      rcases transformNot_cases symbols a with ⟨t, constant, -⟩ | ⟨-, done⟩
      · exact absurd ⟨t, constant⟩ normal
      · exact done
    | not | comp | two => exact normal.elim

/-- `expr_transform` keeps every value, leaves the normal form, and has nothing more to do on it. -/
theorem transform_result (symbols : Symbols σ) (e : Expr σ) :
    (∀ values : Values symbols, calcValue values (transform symbols e) = calcValue values e) ∧
      Normal symbols (transform symbols e) ∧ transform symbols (transform symbols e) = transform symbols e :=
  ⟨fun values => transform_value values e, transform_normal e, transform_of_normal (transform_normal e)⟩

/-! ### Where `m` and `y` are one -/

omit [DecidableEq σ] in
theorem plain_value {values : Values symbols} {e : Expr σ} (plain : Plain values e) : calcValue values e ≠ .mod := by
  induction e with
  | symbol a => exact plain
  | not e ih =>
    have inner := ih plain
    simp only [calcValue]
    cases found : calcValue values e with
    | mod => exact absurd found inner
    | no => decide
    | yes => decide
  | comp c a b =>
    simp only [calcValue]
    cases c <;> simp only [Comparison.value] <;> split_ifs <;> decide
  | two j l r ihl ihr =>
    have left := ihl plain.1
    have right := ihr plain.2
    simp only [calcValue]
    cases j <;> cases foundL : calcValue values l <;> cases foundR : calcValue values r <;>
      first | exact absurd foundL left | exact absurd foundR right | decide

end Expr
end EmbToolkit.Conf
