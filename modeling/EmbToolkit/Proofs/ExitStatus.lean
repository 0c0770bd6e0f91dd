import EmbToolkit.Makedevs.Program

/-! The exit status of `makedevs` against the failures on its way. `main` keeps its failures in `ret` but returns 0,
so that only what exits on the spot is reported: a table or directory that cannot be entered, and an unknown owner. -/

namespace EmbToolkit.Proofs.ExitStatus
open EmbToolkit.Makedevs Scanf

/-- A line that is not an entry, or an action for an entry that fails. A single `mkdir` or `stat` may fail and be made
up for: what counts is the result of `bb_make_directory` and that a regular file is missing. -/
def Failure : Event → Prop
  | .mkdir _ _ _ => False
  | .stat _ _ => False
  | .chmod _ _ ok => ok = false
  | .chown _ _ _ ok => ok = false
  | .mknod _ _ _ _ ok => ok = false
  | .getpwnam _ uid => uid = none
  | .getgrnam _ gid => gid = none
  | .makeDirectory _ ok => ok = false
  | .missingFile _ => True
  | .invalidLine _ => True
  | .unsupportedType _ => True

/-- The text is an owner's number or a name that the system knows, or no owner is given. -/
def Known (names : Text → Option Nat) (s : Text) : Prop :=
  s = [] ∨ (∃ r, strtoul 10 s = some (r, [])) ∨ (names s).isSome

variable (sys : System)

/-! ### Owners -/

section
variable {rootdir : Text} {memory : Memory} {linenum : Nat} {line : Text} {p p' : Process}

end

section
variable {rootdir : Text} {memory : Nat → Memory} {linenum : Nat} {lines : List Text} {p p' : Process}

end

/-! ### The exit status -/

end EmbToolkit.Proofs.ExitStatus
