import EmbToolkit.Library.Junction
import Mathlib.Order.Basic
import Mathlib.Order.Lattice

/-! The dependency expressions of kconfig, their values, and when two of them count as the same: `expr.c` of the
configuration program. A list of choice values and a range are no dependencies and are left out. -/

namespace EmbToolkit.Conf

inductive Tristate | no | mod | yes
  deriving DecidableEq, Repr

namespace Tristate

def toNat : Tristate → Nat
  | no => 0
  | mod => 1
  | yes => 2

theorem toNat_injective : Function.Injective toNat := by
  intro a b same
  cases a <;> cases b <;> first | rfl | cases same

instance : LinearOrder Tristate := LinearOrder.lift' toNat toNat_injective

instance : BoundedOrder Tristate where
  top := yes
  le_top value := by cases value <;> decide
  bot := no
  bot_le value := by cases value <;> decide

/-- `EXPR_NOT` -/
def not : Tristate → Tristate
  | no => yes
  | mod => mod
  | yes => no

@[simp] theorem not_not (value : Tristate) : value.not.not = value := by cases value <;> rfl

theorem not_op (j : Junction) (a b : Tristate) : (j.op a b).not = j.dual.op a.not b.not := by
  cases j <;> cases a <;> cases b <;> rfl

theorem op_not {value : Tristate} (j : Junction) (whole : value ≠ mod) : j.op value value.not = j.zero := by
  cases j <;> cases value <;> first | rfl | exact absurd rfl whole

end Tristate

inductive SymbolType | unknown | boolean | tristate | int | hex | string | other
  deriving DecidableEq, Repr

/-- The symbols of a configuration, with the three constants that expressions name. -/
structure Symbols (σ : Type*) where
  yes : σ
  mod : σ
  no : σ
  name : σ → String
  type : σ → SymbolType
  /-- `SYMBOL_CONST` -/
  isConst : σ → Bool
  yes_name : name yes = "y"
  mod_name : name mod = "m"
  no_name : name no = "n"
  const_yes : isConst yes
  const_mod : isConst mod
  const_no : isConst no
  const_name : ∀ a b, isConst a → isConst b → name a = name b → a = b
  const_type : ∀ a, isConst a → type a = .unknown

/-- The values of all symbols, as `sym_calc_value` leaves them. -/
structure Values {σ : Type*} (symbols : Symbols σ) where
  tri : σ → Tristate
  val : σ → String
  /-- The value of `modules_sym`. -/
  modules : Tristate
  yes_tri : tri symbols.yes = .yes
  mod_tri : tri symbols.mod = .mod
  no_tri : tri symbols.no = .no
  const_val : ∀ a, symbols.isConst a → val a = symbols.name a
  boolean_tri : ∀ a, symbols.type a = .boolean → tri a ≠ .mod
  tristate_tri : ∀ a, symbols.type a = .tristate → tri a = .mod → modules ≠ .no

inductive Comparison | equal | unequal
  deriving DecidableEq, Repr

namespace Comparison

def flip : Comparison → Comparison
  | equal => unequal
  | unequal => equal

/-- What a comparison is worth when its sides are the same or not. -/
def value : Comparison → Bool → Tristate
  | equal, same => if same then .yes else .no
  | unequal, same => if same then .no else .yes

@[simp] theorem flip_value (c : Comparison) (same : Bool) : c.flip.value same = (c.value same).not := by
  cases c <;> cases same <;> rfl

end Comparison

/-- `struct expr` -/
inductive Expr (σ : Type*)
  | symbol (a : σ)
  | not (e : Expr σ)
  | comp (c : Comparison) (a b : σ)
  | two (j : Junction) (l r : Expr σ)
  deriving DecidableEq

variable {σ : Type*} {symbols : Symbols σ}

namespace Symbols

def constant (symbols : Symbols σ) : Tristate → σ
  | .no => symbols.no
  | .mod => symbols.mod
  | .yes => symbols.yes

/-- The constant that changes nothing in a junction. -/
def unit (symbols : Symbols σ) : Junction → σ
  | .or => symbols.no
  | .and => symbols.yes

def zero (symbols : Symbols σ) (j : Junction) : σ := symbols.unit j.dual

theorem yes_ne_no (symbols : Symbols σ) : symbols.yes ≠ symbols.no := by
  intro same
  have names := congrArg symbols.name same
  rw [symbols.yes_name, symbols.no_name] at names
  exact absurd names (by decide)

theorem yes_ne_mod (symbols : Symbols σ) : symbols.yes ≠ symbols.mod := by
  intro same
  have names := congrArg symbols.name same
  rw [symbols.yes_name, symbols.mod_name] at names
  exact absurd names (by decide)

theorem mod_ne_no (symbols : Symbols σ) : symbols.mod ≠ symbols.no := by
  intro same
  have names := congrArg symbols.name same
  rw [symbols.mod_name, symbols.no_name] at names
  exact absurd names (by decide)

end Symbols

namespace Values

/-- What `sym_get_string_value` returns for a boolean or tristate symbol. -/
def switchText (values : Values symbols) : Tristate → String
  | .no => "n"
  | .mod => if values.modules = .no then "n" else "m"
  | .yes => "y"

/-- `sym_get_string_value` -/
def text (values : Values symbols) (a : σ) : String :=
  match symbols.type a with
  | .boolean | .tristate => values.switchText (values.tri a)
  | _ => values.val a

theorem const_text (values : Values symbols) {a : σ} (const : symbols.isConst a) : values.text a = symbols.name a := by
  rw [text, symbols.const_type a const]
  exact values.const_val a const

theorem unit_tri (values : Values symbols) (j : Junction) : values.tri (symbols.unit j) = j.unit := by
  cases j with
  | or => exact values.no_tri
  | and => exact values.yes_tri

theorem zero_tri (values : Values symbols) (j : Junction) : values.tri (symbols.zero j) = j.zero :=
  values.unit_tri j.dual

end Values

namespace Expr

/-- `expr_calc_value` -/
def calcValue (values : Values symbols) : Expr σ → Tristate
  | symbol a => values.tri a
  | not e => (calcValue values e).not
  | comp c a b => c.value (values.text a = values.text b)
  | two j l r => j.op (calcValue values l) (calcValue values r)

/-- How many symbols, comparisons, negations and junctions there are. -/
def size : Expr σ → Nat
  | symbol _ => 1
  | not e => e.size + 1
  | comp _ _ _ => 1
  | two _ l r => l.size + r.size + 1

theorem size_pos (e : Expr σ) : 0 < e.size := by cases e <;> simp [size]

variable [DecidableEq σ]

/-- What `expr_eliminate_yn` makes of a junction whose sides it has done. -/
def joinYn (symbols : Symbols σ) (j : Junction) (l r : Expr σ) : Expr σ :=
  if l = symbol (symbols.zero j) then symbol (symbols.zero j)
  else if l = symbol (symbols.unit j) then r
  else if r = symbol (symbols.zero j) then symbol (symbols.zero j)
  else if r = symbol (symbols.unit j) then l
  else two j l r

/-- `expr_eliminate_yn` -/
def eliminateYn (symbols : Symbols σ) : Expr σ → Expr σ
  | two j l r => joinYn symbols j (eliminateYn symbols l) (eliminateYn symbols r)
  | e => e

/-- Two expressions that are worked on together, and what has been recorded meanwhile. -/
structure Pair (ω σ : Type*) where
  record : ω
  first : Expr σ
  second : Expr σ

section Leaves
variable {ω : Type*} (j : Junction) (meet : ω → Expr σ → Expr σ → Pair ω σ)

/-- One expression against every leaf of another one, from left to right. -/
def againstLeaves (record : ω) (leaf : Expr σ) : Expr σ → Pair ω σ
  | two k l r =>
    if k = j then
      let left := againstLeaves record leaf l
      let right := againstLeaves left.record left.first r
      ⟨right.record, right.first, two k left.second right.second⟩
    else meet record leaf (two k l r)
  | e => meet record leaf e

/-- Every leaf of one expression against every leaf of the other: the walk of `__expr_eliminate_eq` and of
`expr_extract_eq`. -/
def eachLeaf (record : ω) : Expr σ → Expr σ → Pair ω σ
  | two k l r, e =>
    if k = j then
      let left := eachLeaf record l e
      let right := eachLeaf left.record r left.second
      ⟨right.record, two k left.first right.first, right.second⟩
    else againstLeaves j meet record (two k l r) e
  | leaf, e => againstLeaves j meet record leaf e

end Leaves

variable (symbols : Symbols σ)

/-- The test at the leaves of `__expr_eliminate_eq`; the record is `trans_count`. -/
def eliminateMeet (eq : Expr σ → Expr σ → Bool) (j : Junction) (count : Nat) (e1 e2 : Expr σ) : Pair Nat σ :=
  if e1 = e2 ∧ (e1 = symbol symbols.yes ∨ e1 = symbol symbols.no) then ⟨count, e1, e2⟩
  else if eq e1 e2 then ⟨count + 1, symbol (symbols.unit j), symbol (symbols.unit j)⟩
  else ⟨count, e1, e2⟩

/-- `expr_eq`, which copies its junctions and eliminates what is equal in them. -/
def eqWithin : Nat → Expr σ → Expr σ → Bool
  | 0, _, _ => false
  | _ + 1, symbol a, symbol b => a = b
  | fuel + 1, not a, not b => eqWithin fuel a b
  | _ + 1, comp c a b, comp c' a' b' => c = c' ∧ a = a' ∧ b = b'
  | fuel + 1, two j l r, two j' l' r' =>
    if j = j' then
      let left := eachLeaf j (eliminateMeet symbols (eqWithin fuel) j) 0 (two j l r) (two j' l' r')
      match eliminateYn symbols left.first, eliminateYn symbols left.second with
      | symbol a, symbol b => a = b
      | _, _ => false
    else false
  | _ + 1, _, _ => false

def exprEq (e1 e2 : Expr σ) : Bool := eqWithin symbols e1.size e1 e2

def junction? : Expr σ → Option Junction
  | two j _ _ => some j
  | _ => none

/-- `__expr_eliminate_eq` -/
def eliminateLeaves (j : Junction) (e1 e2 : Expr σ) : Expr σ × Expr σ :=
  let left := eachLeaf j (eliminateMeet symbols (exprEq symbols) j) 0 e1 e2
  (left.first, left.second)

/-- One of the two switches of `expr_eliminate_eq`. -/
def eliminateKind (kind : Option Junction) (pair : Expr σ × Expr σ) : Expr σ × Expr σ :=
  match kind with
  | some j => eliminateLeaves symbols j pair.1 pair.2
  | none => pair

/-- What they do before the constants go; the second one is for another kind of junction than the first. -/
def eliminateKinds (e1 e2 : Expr σ) : Expr σ × Expr σ :=
  let first := eliminateKind symbols e1.junction? (e1, e2)
  eliminateKind symbols (if first.1.junction? = first.2.junction? then none else first.2.junction?) first

/-- `expr_eliminate_eq` -/
def eliminateEq (e1 e2 : Expr σ) : Expr σ × Expr σ :=
  let left := eliminateKinds symbols e1 e2
  (eliminateYn symbols left.1, eliminateYn symbols left.2)

end Expr

/-! Symbols as `sym_lookup` keeps them, each found by its name and whether it is a constant. -/

inductive Named
  | const (text : String)
  | config (name : String)
  deriving DecidableEq, Repr

def named (type : String → SymbolType) : Symbols Named where
  yes := .const "y"
  mod := .const "m"
  no := .const "n"
  name
    | .const text => text
    | .config name => name
  type
    | .const _ => .unknown
    | .config name => type name
  isConst
    | .const _ => true
    | .config _ => false
  yes_name := rfl
  mod_name := rfl
  no_name := rfl
  const_yes := rfl
  const_mod := rfl
  const_no := rfl
  const_name
    | .const _, .const _, _, _, same => congrArg Named.const same
  const_type
    | .const _, _ => rfl

/-- Values of boolean symbols, without modules. -/
def switches (on : String → Bool) : Values (named fun _ => .boolean) where
  tri
    | .const text => if text = "y" then .yes else if text = "m" then .mod else .no
    | .config name => if on name then .yes else .no
  val
    | .const text => text
    | .config _ => ""
  modules := .no
  yes_tri := rfl
  mod_tri := rfl
  no_tri := rfl
  const_val
    | .const _, _ => rfl
  boolean_tri
    | .config name, _ => by
      simp only
      split <;> exact fun h => nomatch h
  tristate_tri
    | .const _, typed | .config _, typed => nomatch typed

end EmbToolkit.Conf
