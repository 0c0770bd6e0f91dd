import EmbToolkit.Conf.Menu
import EmbToolkit.Proofs.Dups
import Mathlib.Data.List.TakeWhile

/-! The condition that `menu_finalize` leaves on a property asks for what is written on the property, on its entry and on
every block around it, and for nothing else; and an entry that goes below a symbol is seen only with the symbol set or
its prompt shown. -/

namespace EmbToolkit.Conf

variable {σ : Type*} {symbols : Symbols σ} {values : Values symbols}

namespace Dep

/-- A predicate of the expression, if there is one. -/
def Holds (holds : Expr σ → Prop) (dep : Dep σ) : Prop := ∀ e ∈ dep, holds e

theorem holds_none {holds : Expr σ → Prop} : Dep.Holds holds none := fun _ none => (nomatch none)

end Dep

variable [DecidableEq σ]

namespace Entry

/-- What may stand around an entry: a choice, or a block without a symbol. No symbol alone is `m` there. -/
def Block (values : Values symbols) (block : Entry σ) : Prop :=
  if block.isChoice then ∃ a, block.sym = some a ∧ values.tri a ≠ .mod
  else block.sym = none ∧ block.dep.Holds (Expr.Plain values) ∧ Dep.Holds (Expr.Plain values) (block.prompt.getD none)

variable {parent : Dep σ} {value : Tristate}

end Entry

/-! ### What goes below a symbol -/

namespace Expr

end Expr

end EmbToolkit.Conf
