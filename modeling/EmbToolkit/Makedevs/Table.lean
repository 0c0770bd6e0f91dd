import EmbToolkit.Library.Scanf

/-! How `makedevs` reads one line of the device table: a single `sscanf` into variables of which the numbers start
at their defaults and the others at whatever their memory holds. -/

namespace EmbToolkit.Makedevs
open Scanf

/-- The variables of the loop body of `main` that a line is read into. The arrays are taken up to their terminator. -/
structure Columns where
  name : Text
  type : Char
  mode : Nat
  user : Text
  group : Text
  major : Nat
  minor : Nat
  start : Nat
  increment : Nat
  count : Nat
  deriving DecidableEq, Repr

/-- What the memory of the variables without an initializer holds when a line is read. -/
structure Memory where
  name : Text
  type : Char
  user : Text
  group : Text

def Columns.initial (memory : Memory) : Columns where
  name := memory.name
  type := memory.type
  mode := 0o755
  user := memory.user
  group := memory.group
  major := 0
  minor := 0
  start := 0
  increment := 0
  count := 0

/-- `"%40s %c %o %40s %40s %u %u %u %u %u"` -/
def format : List (Conversion Columns) := [
  .string 40 fun token columns => { columns with name := token },
  .char fun c columns => { columns with type := c },
  .unsigned 8 fun value columns => { columns with mode := value },
  .string 40 fun token columns => { columns with user := token },
  .string 40 fun token columns => { columns with group := token },
  .unsigned 10 fun value columns => { columns with major := value },
  .unsigned 10 fun value columns => { columns with minor := value },
  .unsigned 10 fun value columns => { columns with start := value },
  .unsigned 10 fun value columns => { columns with increment := value },
  .unsigned 10 fun value columns => { columns with count := value }]

def scanLine (memory : Memory) (line : Text) : Nat × Columns := sscanf format line (.initial memory)

/-- The condition under which `main` does not use what it has scanned. -/
def refused (scanned : Nat × Columns) : Bool :=
  scanned.1 < 2 || (scanned.2.major ||| scanned.2.minor ||| scanned.2.start ||| scanned.2.count ||| scanned.2.increment) > 255

inductive Reading where
  | skipped
  | invalid
  | entry (columns : Columns)
  deriving DecidableEq

/-- What `main` makes of a line before it looks up the owner and acts. -/
def readLine (memory : Memory) (line : Text) : Reading :=
  if refused (scanLine memory line) then
    if line = [] || line.head? = some '#' || line.head?.any isSpace then .skipped else .invalid
  else if (scanLine memory line).2.name.head? = some '#' then .skipped
  else .entry (scanLine memory line).2

end EmbToolkit.Makedevs
