import EmbToolkit.Library.Assignment
import EmbToolkit.Packages

/-! The way of a symbol's value from kconfig into the recorded list of a package and back: the line of `.config`, make's
reading of it, the single-quoted `echo` of `__embtk_pkg_gen_dotkconfig_f`, and make's reading of the record. -/

namespace EmbToolkit
open MakeText

/-- The value of a symbol: `y` or a number, written as it is, or a string. -/
inductive SymbolValue
  | plain (text : String)
  | string (text : String)
  deriving DecidableEq, Repr

/-- `sym_escape_string_value` -/
def escapeStringValue (text : String) : String :=
  String.ofList ('"' :: text.toList.flatMap (fun c => if c = '"' ∨ c = '\\' then ['\\', c] else [c]) ++ ['"'])

/-- What `conf_write_symbol` prints after the equals sign. -/
def SymbolValue.printed : SymbolValue → String
  | .plain text => text
  | .string text => escapeStringValue text

inductive SymbolLine
  | assigned (name : String) (value : SymbolValue)
  | notSet (name : String)
  deriving DecidableEq, Repr

/-- The value of a symbol in a list of lines. -/
def symbolValue (name : String) : List SymbolLine → Option SymbolValue
  | [] => none
  | .notSet _ :: rest => symbolValue name rest
  | .assigned other value :: rest => (symbolValue name rest).or (if other = name then some value else none)

/-- A `.config` as kconfig writes it. -/
structure DotConfig where
  lines : List SymbolLine
  binutils : (symbolValue "CONFIG_EMBTK_BINUTILS_REFSPEC" lines).isSome

namespace DotConfig

def get (d : DotConfig) (name : String) : Option SymbolValue := symbolValue name d.lines

end DotConfig

/-- A line after make has read it, with references expanded. -/
def SymbolLine.read (env : Environment) : SymbolLine → ConfigLine
  | .assigned name value => .assigned name (assignedValue env value.printed)
  | .notSet name => .notSet name

theorem defines_read (env : Environment) (name : String) (lines : List SymbolLine) :
    name ∈ (lines.map (SymbolLine.read env)).filterMap ConfigLine.defines ↔ (symbolValue name lines).isSome := by
  induction lines with
  | nil => simp [symbolValue]
  | cons line rest ih =>
    cases line with
    | notSet other => simpa [SymbolLine.read, ConfigLine.defines, symbolValue] using ih
    | assigned other value =>
      simp only [List.map_cons, SymbolLine.read, List.filterMap_cons, ConfigLine.defines, List.mem_cons, symbolValue, Option.isSome_or,
        Bool.or_eq_true, ih]
      by_cases same : other = name
      · simp [same]
      · simp [same, Ne.symm same]

namespace DotConfig
variable (d : DotConfig) (env : Environment)

/-- The configuration as make has it after `-include .config`. -/
def read : Config where
  lines := d.lines.map (SymbolLine.read env)
  binutils := (defines_read env _ _).mpr d.binutils

end DotConfig

end EmbToolkit
