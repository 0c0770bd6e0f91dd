import EmbToolkit.Library.Text

/-! The value that GNU make gives a variable for the text after the sign of an assignment: what follows an unquoted
`#` is a comment, leading blanks are dropped, and references are expanded. What a reference stands for is a parameter. -/

namespace MakeText

/-- Of the backslashes before a `#` half are kept, and the `#` is quoted if their number was odd. `slashes` counts the
backslashes that were read last. -/
def uncomment : Nat → List Char → List Char
  | slashes, [] => List.replicate slashes '\\'
  | slashes, c :: rest =>
    if c = '\\' then uncomment (slashes + 1) rest
    else if c = '#' then List.replicate (slashes / 2) '\\' ++ if slashes % 2 = 0 then [] else '#' :: uncomment 0 rest
    else List.replicate slashes '\\' ++ c :: uncomment 0 rest

/-- The variables and functions of a make process: for the text after a `$` that begins a reference, what is
substituted and how many characters are replaced. -/
structure Environment where
  reference : List Char → List Char × Nat

section
variable (env : Environment)

/-- `$$` stands for `$`. The counter is the number of characters still to be passed over. -/
def expand : Nat → List Char → List Char
  | _, [] => []
  | skip + 1, _ :: rest => expand skip rest
  | 0, c :: rest =>
    if c ≠ '$' then c :: expand 0 rest
    else if rest = [] then ['$']
    else if rest.head? = some '$' then '$' :: expand 1 rest
    else (env.reference rest).1 ++ expand (env.reference rest).2 rest

def assignedValue (text : String) : String :=
  String.ofList (expand env 0 ((uncomment 0 text.toList).dropWhile isBlank))

end

end MakeText
