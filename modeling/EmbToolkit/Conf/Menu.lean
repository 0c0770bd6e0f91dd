import EmbToolkit.Conf.Dups

/-! `menu_finalize`: the dependencies written on an entry, on the blocks around it and on each of its properties become
one condition on the property, and an entry goes below the symbol before it when it cannot be seen without it. -/

namespace EmbToolkit.Conf

/-- An expression or `NULL`. -/
abbrev Dep (σ : Type*) := Option (Expr σ)

/-- A `struct menu` with its properties, as the parser leaves them: what stands after `depends on`, the condition of the
prompt, and the conditions of the defaults and of the selected symbols. -/
structure Entry (σ : Type*) where
  sym : Option σ := none
  isChoice : Bool := false
  dep : Dep σ := none
  prompt : Option (Dep σ) := none
  defaults : List (Expr σ × Dep σ) := []
  selects : List (σ × Dep σ) := []

variable {σ : Type*} {symbols : Symbols σ}

namespace Dep

/-- `expr_calc_value`, where nothing is `y`. -/
def calcValue (values : Values symbols) : Dep σ → Tristate
  | none => .yes
  | some e => e.calcValue values

/-- `expr_alloc_and` -/
def and : Dep σ → Dep σ → Dep σ
  | none, d => d
  | d, none => d
  | some a, some b => some (.two .and a b)

/-- `expr_alloc_or` -/
def or : Dep σ → Dep σ → Dep σ
  | none, d => d
  | d, none => d
  | some a, some b => some (.two .or a b)

/-- `expr_trans_compare`, where nothing is the constant itself. -/
def transCompare [DecidableEq σ] (symbols : Symbols σ) (target : Tristate) (c : Comparison) : Dep σ → Expr σ
  | none =>
    match c with
    | .equal => .symbol (symbols.constant target)
    | .unequal => .not (.symbol (symbols.constant target))
  | some e => e.transCompare symbols target c

end Dep

namespace Entry
variable [DecidableEq σ] (symbols : Symbols σ)

/-- `basedep`: the dependencies of an entry below others. -/
def basedep (parentdep : Dep σ) (entry : Entry σ) : Dep σ :=
  (parentdep.and (entry.dep.map (Expr.transform symbols))).map (Expr.eliminateDups symbols)

/-- Whether `expr_trans_bool` is called for the properties of an entry. -/
def plain (entry : Entry σ) : Bool :=
  match entry.sym with
  | some a => symbols.type a ≠ .tristate
  | none => false

/-- The condition of a property of an entry. -/
def visible (parentdep : Dep σ) (entry : Entry σ) (cond : Dep σ) : Dep σ :=
  let dep := ((entry.basedep symbols parentdep).and (cond.map (Expr.transform symbols))).map (Expr.eliminateDups symbols)
  if entry.plain symbols then dep.map (Expr.transBool symbols) else dep

/-- `parentdep` for what is inside an entry. -/
def inside (parentdep : Dep σ) (entry : Entry σ) : Dep σ :=
  if entry.isChoice then entry.sym.map .symbol
  else match entry.prompt with
    | some cond => entry.visible symbols parentdep cond
    | none => entry.basedep symbols parentdep

/-- `parentdep` for an entry, from the blocks around it, the innermost first. -/
def parentdep : List (Entry σ) → Dep σ
  | [] => none
  | block :: outer => block.inside symbols (parentdep outer)

/-- The condition that is left of an entry's prompt or, without one, of the entry. -/
def shown (parentdep : Dep σ) (entry : Entry σ) : Dep σ :=
  match entry.prompt with
  | some cond => entry.visible symbols parentdep cond
  | none => entry.basedep symbols parentdep

end Entry

variable [DecidableEq σ] (symbols : Symbols σ)

/-- A condition without `n` and `m` told apart, as `menu_finalize` prepares it for comparing. -/
def unequalNo (dep : Dep σ) : Expr σ :=
  ((dep.transCompare symbols .no .unequal).transform symbols).eliminateDups symbols

/-- Whether an entry that is shown under `dep` goes below the symbol before it, whose prompt is shown under `prompt`. -/
def goesBelow (sym : σ) (prompt dep : Dep σ) : Bool :=
  match dep with
  | none => false
  | some e =>
    e.containsSymbol sym &&
      (e.dependsSymbol symbols sym ||
        ((unequalNo symbols dep).eliminateEq symbols (unequalNo symbols prompt)).2 = .symbol symbols.yes)

/-- The entries after a symbol that go below it. -/
def below (sym : σ) (prompt : Dep σ) (after : List (Dep σ)) : List (Dep σ) :=
  after.takeWhile (goesBelow symbols sym prompt)

end EmbToolkit.Conf
