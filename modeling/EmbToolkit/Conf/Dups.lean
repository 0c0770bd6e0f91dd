import EmbToolkit.Conf.Transform
import Mathlib.Data.List.Defs

/-! `expr_eliminate_dups`: the leaves of a junction are joined two by two, and a leaf that contradicts another one settles
the junction. The C code changes an expression in place through pointers to its leaves; a pointer is a slot here. -/

namespace EmbToolkit.Conf

inductive Side | left | right
  deriving DecidableEq, Repr

/-- Where a subexpression stands under junctions. -/
abbrev Slot := List Side

namespace Expr
variable {σ : Type*}

def get : Expr σ → Slot → Expr σ
  | e, [] => e
  | two _ l _, .left :: slot => get l slot
  | two _ _ r, .right :: slot => get r slot
  | e, _ :: _ => e

def put : Expr σ → Slot → Expr σ → Expr σ
  | _, [], x => x
  | two j l r, .left :: slot, x => two j (put l slot x) r
  | two j l r, .right :: slot, x => two j l (put r slot x)
  | e, _ :: _, _ => e

@[simp] theorem get_nil (e : Expr σ) : e.get [] = e := by cases e <;> rfl

@[simp] theorem put_nil (e x : Expr σ) : e.put [] x = x := by cases e <;> rfl

/-- The slots where the recursion over junctions of one kind ends. -/
def leaves (j : Junction) : Expr σ → List Slot
  | two k l r => if k = j then (leaves j l).map (.left :: ·) ++ (leaves j r).map (.right :: ·) else [[]]
  | _ => [[]]

/-- The leaves and the junctions above them, each junction after its sides. -/
def subtrees (j : Junction) : Expr σ → List Slot
  | two k l r =>
    if k = j then (subtrees j l).map (.left :: ·) ++ (subtrees j r).map (.right :: ·) ++ [[]] else [[]]
  | _ => [[]]

variable [DecidableEq σ] (symbols : Symbols σ)

/-- `sym1` of `expr_join_or` and `expr_join_and` -/
def joinSymbol₁ : Expr σ → Option σ
  | symbol a | comp _ a _ | not (symbol a) | not (comp _ a _) => some a
  | _ => none

/-- `sym2`, where a negated comparison is not looked into -/
def joinSymbol₂ : Expr σ → Option σ
  | symbol a | comp _ a _ | not (symbol a) => some a
  | _ => none

/-- Two of the three constants, in any order. -/
def Among (b c x y : σ) : Prop := (b = x ∧ c = y) ∨ (b = y ∧ c = x)

instance (b c x y : σ) : Decidable (Among b c x y) := inferInstanceAs (Decidable (_ ∨ _))

/-- `a = b || a = c` for a tristate symbol. -/
def joinOrTristate (a : σ) : Expr σ → Expr σ → Option (Expr σ)
  | comp .equal _ b, comp .equal _ c =>
    if Among b c symbols.yes symbols.mod then some (comp .unequal a symbols.no)
    else if Among b c symbols.yes symbols.no then some (comp .unequal a symbols.mod)
    else if Among b c symbols.mod symbols.no then some (comp .unequal a symbols.yes)
    else none
  | _, _ => none

/-- `a || !a` for a boolean symbol. -/
def joinOrBoolean : Expr σ → Expr σ → Option (Expr σ)
  | not (symbol _), symbol _ | symbol _, not (symbol _) => some (symbol symbols.yes)
  | _, _ => none

/-- `expr_join_or` -/
def joinOr (e1 e2 : Expr σ) : Option (Expr σ) :=
  if exprEq symbols e1 e2 then some e1
  else match joinSymbol₁ e1, joinSymbol₂ e2 with
    | some a, some b =>
      if a = b then
        match symbols.type a with
        | .tristate => joinOrTristate symbols a e1 e2
        | .boolean => joinOrBoolean symbols e1 e2
        | _ => none
      else none
    | _, _ => none

/-- A symbol and a comparison of it. -/
def joinAndSymbol (a : σ) (c : Comparison) (b : σ) : Option (Expr σ) :=
  match c with
  | .equal => if b = symbols.yes then some (comp .equal a symbols.yes) else none
  | .unequal =>
    if b = symbols.no then some (symbol a)
    else if b = symbols.mod then some (comp .equal a symbols.yes)
    else none

/-- `a = b && a != c` for a tristate symbol. -/
def joinAndConst (a b c : σ) : Option (Expr σ) :=
  if symbols.isConst c ∧ symbols.isConst b then
    some (if b ≠ c then comp .equal a b else symbol symbols.no)
  else none

/-- `a != b && a != c` for a tristate symbol. -/
def joinAndUnequal (a b c : σ) : Option (Expr σ) :=
  if Among b c symbols.yes symbols.no then some (comp .equal a symbols.mod)
  else if Among b c symbols.yes symbols.mod then some (comp .equal a symbols.no)
  else if Among b c symbols.mod symbols.no then some (comp .equal a symbols.yes)
  else none

def joinAndTristate (a : σ) : Expr σ → Expr σ → Option (Expr σ)
  | comp .equal _ b, comp .unequal _ c | comp .unequal _ c, comp .equal _ b => joinAndConst symbols a b c
  | comp .unequal _ b, comp .unequal _ c => joinAndUnequal symbols a b c
  | _, _ => none

def joinAndSwitch (a : σ) : Expr σ → Expr σ → Option (Expr σ)
  | symbol _, comp c _ b | comp c _ b, symbol _ => joinAndSymbol symbols a c b
  | e1, e2 => if symbols.type a = .tristate then joinAndTristate symbols a e1 e2 else none

/-- `expr_join_and` -/
def joinAnd (e1 e2 : Expr σ) : Option (Expr σ) :=
  if exprEq symbols e1 e2 then some e1
  else match joinSymbol₁ e1, joinSymbol₂ e2 with
    | some a, some b =>
      if a = b ∧ (symbols.type a = .boolean ∨ symbols.type a = .tristate) then
        joinAndSwitch symbols a e1 e2
      else none
    | _, _ => none

def join : Junction → Expr σ → Expr σ → Option (Expr σ)
  | .or => joinOr symbols
  | .and => joinAnd symbols

/-- The test at the leaves of `expr_extract_eq`; the record is what has been extracted. -/
def extractMeet (j : Junction) (found : Option (Expr σ)) (e1 e2 : Expr σ) : Pair (Option (Expr σ)) σ :=
  if exprEq symbols e1 e2 then
    ⟨some (match found with
      | some e => two j e e1
      | none => e1), symbol (symbols.unit j), symbol (symbols.unit j)⟩
  else ⟨found, e1, e2⟩

/-- `expr_extract_eq_and` and `expr_extract_eq_or` -/
def extractEq (j : Junction) (e1 e2 : Expr σ) : Pair (Option (Expr σ)) σ :=
  let walked := eachLeaf j (extractMeet symbols j) none e1 e2
  match walked.record with
  | some found => ⟨some found, eliminateYn symbols walked.first, eliminateYn symbols walked.second⟩
  | none => walked

/-- An expression being changed, and `trans_count`. -/
structure Counted (σ : Type*) where
  count : Nat
  expr : Expr σ

namespace Counted

/-- The recursive call on a leaf that is a junction itself. -/
def inside (work : Junction → Counted σ → Counted σ) (p : Slot) (d : Counted σ) : Counted σ :=
  match (d.expr.get p).junction? with
  | some k =>
    let done := work k ⟨d.count, d.expr.get p⟩
    ⟨done.count, d.expr.put p done.expr⟩
  | none => d

/-- The joining of two leaves. -/
def joined (j : Junction) (p q : Slot) (d : Counted σ) : Counted σ :=
  match join symbols j (d.expr.get p) (d.expr.get q) with
  | some e => ⟨d.count + 1, (d.expr.put p (symbol (symbols.unit j))).put q e⟩
  | none => d

/-- Whether the negation of `e1` is part of `e2`, where `e1` is a junction of this kind. -/
def contradicts (k : Junction) (e1 e2 : Expr σ) : Bool :=
  (extractEq symbols k.dual (transform symbols (not e1)) e2).first = symbol (symbols.unit k.dual)

/-- A leaf whose negation is part of `e2`. -/
def settled (p q : Slot) (d : Counted σ) : Counted σ :=
  match (d.expr.get p).junction? with
  | some k =>
    if contradicts symbols k (d.expr.get p) (d.expr.get q) then
      ⟨d.count + 1, d.expr.put p (symbol (symbols.unit k))⟩
    else d
  | none => d

/-- One pair of leaves in `expr_eliminate_dups1`. -/
def dupsStep₁ (work : Junction → Counted σ → Counted σ) (j : Junction) (d : Counted σ) (pair : Slot × Slot) : Counted σ :=
  if pair.1 = pair.2 then d else (d.inside work pair.1).joined symbols j pair.1 pair.2

/-- One leaf and one subtree in `expr_eliminate_dups2`. -/
def dupsStep₂ (work : Junction → Counted σ → Counted σ) (d : Counted σ) (pair : Slot × Slot) : Counted σ :=
  if pair.1 = pair.2 then d else (d.inside work pair.1).settled symbols pair.1 pair.2

/-- `expr_eliminate_dups1` of an expression with itself. -/
def dups₁ : Nat → Junction → Counted σ → Counted σ
  | 0, _, d => d
  | depth + 1, j, d =>
    ((d.expr.leaves j).product (d.expr.leaves j)).foldl (dupsStep₁ symbols (dups₁ depth) j) d

/-- `expr_eliminate_dups2` of an expression with itself. -/
def dups₂ : Nat → Junction → Counted σ → Counted σ
  | 0, _, d => d
  | depth + 1, j, d =>
    ((d.expr.leaves j).product (d.expr.subtrees j)).foldl (dupsStep₂ symbols (dups₂ depth)) d

end Counted

/-- What is done between two tests of `trans_count`. -/
def dupsRound (e : Expr σ) : Counted σ :=
  match e.junction? with
  | some j =>
    let first := Counted.dups₁ symbols e.size j ⟨0, e⟩
    Counted.dups₂ symbols first.expr.size j first
  | none => ⟨0, e⟩

def dupsRounds : Nat → Expr σ → Expr σ
  | 0, e => e
  | rounds + 1, e =>
    let done := dupsRound symbols e
    if done.count = 0 then done.expr else dupsRounds rounds (eliminateYn symbols done.expr)

/-- `expr_eliminate_dups` -/
def eliminateDups (e : Expr σ) : Expr σ := dupsRounds symbols e.size e

end Expr
end EmbToolkit.Conf
