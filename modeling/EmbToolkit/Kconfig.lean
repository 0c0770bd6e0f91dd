import EmbToolkit.Library.Text

/-! The configuration: the lines of `.config` as make sees them after including the file, and the text macros of
`macros.mk` that the rest of the build system applies to them. -/

namespace EmbToolkit
open MakeText

/-- kconfig writes a line for a symbol that is set and a comment for a boolean symbol that is not. -/
inductive ConfigLine
  | assigned (name value : String)
  | notSet (name : String)
  deriving DecidableEq, Repr

def ConfigLine.defines : ConfigLine → Option String
  | .assigned name _ => some name
  | .notSet _ => none

/-- A `.config` written by kconfig. The `REFSPEC` string of binutils has a default and no prompt to leave it out
by, so every such file sets it. -/
structure Config where
  lines : List ConfigLine
  binutils : "CONFIG_EMBTK_BINUTILS_REFSPEC" ∈ lines.filterMap ConfigLine.defines
  deriving DecidableEq

/-- The assignment of a variable that is in force after the lines were read: the last one. -/
def assignment (name : String) : List ConfigLine → Option String
  | [] => none
  | .notSet _ :: rest => assignment name rest
  | .assigned other value :: rest => (assignment name rest).or (if other = name then some value else none)

namespace Config
variable (c : Config)

/-- What `$(.VARIABLES)` holds of the configuration. -/
def definedNames : List String := c.lines.filterMap ConfigLine.defines

/-- `$(name)`; an undefined variable is empty. -/
def value (name : String) : String := (assignment name c.lines).getD ""

/-- `$(if $(name),y)` -/
def isSet (name : String) : Bool := c.value name ≠ ""

/-- `ifeq ($(name),y)` -/
def isYes (name : String) : Bool := c.value name = "y"

end Config

/-! ### Macros of `macros.mk` -/

/-- `__embtk_streq` -/
def streq (a b : String) : String := if subst a "" b ++ subst b "" a ≠ "" then "" else "y"

/-- `__embtk_strneq` -/
def strneq (a b : String) : String := if subst a "" b ++ subst b "" a ≠ "" then "y" else ""

/-- `__embtk_mk_uquote` -/
def uquote (text : String) : String := subst "\"" "" (strip text)

/-- `embtk_ucase` -/
def ucase (text : String) : String := strip (upper text)

/-- `embtk_pkg_version` -/
def pkgVersion (c : Config) (pkg : String) : String := uquote (c.value ("CONFIG_EMBTK_" ++ ucase pkg ++ "_VERSION_STRING"))

/-- `$(or ...)` -/
def orElse (a b : String) : String := if a ≠ "" then a else b

/-- The two deletions of `__embtk_strneq` leave something exactly when the texts differ. -/
theorem strneq_eq_empty {a b : String} : strneq a b = "" ↔ a = b := by
  refine Iff.trans ?_ deletions_empty_iff
  unfold strneq
  split
  next different => simpa using different
  next same => simpa using same

/-- `__embtk_streq` is `y` for equal texts only, `__embtk_strneq` for all others. -/
theorem comparisons_exact (a b : String) :
    streq a b = (if a = b then "y" else "") ∧ strneq a b = (if a = b then "" else "y") := by
  have different : subst a "" b ++ subst b "" a ≠ "" ↔ a ≠ b := by
    refine not_congr (Iff.trans ?_ deletions_empty_iff)
    simp
  unfold streq strneq
  by_cases same : a = b
  · have kept : ¬ subst a "" b ++ subst b "" a ≠ "" := mt different.mp (not_not_intro same)
    rw [if_pos same, if_pos same, if_neg kept, if_neg kept]
    exact ⟨rfl, rfl⟩
  · have left_over : subst a "" b ++ subst b "" a ≠ "" := different.mpr same
    rw [if_neg same, if_neg same, if_pos left_over, if_pos left_over]
    exact ⟨rfl, rfl⟩

end EmbToolkit
