import EmbToolkit.Proofs.Records

/-! What an interrupted `toolchain_install` has done to the records of its directory. Of each record a run removes the
marker first and sets it again when the part is built, so that an interruption is visible in the record unless it comes
after that. -/

namespace EmbToolkit.Proofs.Interrupted
open Script Traces Emission ToolchainRun Records

/-! ### The commands on one state directory -/

/-- Whether the command acts on the state directory. -/
def concerns (dir : StateDir) : Op → Bool
  | .touchInstalled other => other = dir
  | .removeInstalled other => other = dir
  | .truncateKconfig other => other = dir
  | .writeKconfig other _ => other = dir
  | .touchDecompressed other => other = dir
  | .removeDecompressed other => other = dir
  | .removeStateDir other => other = dir
  | .removeBuild => match dir with
    | .packages _ _ => true
    | .tools _ _ => true
    | _ => false
  | _ => false

variable {w : Workspace} {r : Reread} {c : Config} {d : Disk}

theorem statedir_ne_record {p : String} (known : p ≠ "toolchain" ∧ p ≠ "toolchain_addons") (dir component : String) :
    w.statedir c p ≠ .toolchain dir component := by
  unfold Workspace.statedir
  rw [if_neg (by simp [known])]
  cases w.area c p <;> simp

variable (w r c d)

/-- Whether the part of the toolchain is rebuilt. -/
def rebuilds (component : String) : Bool := w.toolchainRunrecipe c (Memory.load w r c d) d component

/-- What follows at the end of the run. -/
def ending : List Op :=
  if rebuilds w r c d "toolchain" || rebuilds w r c d "toolchain_addons"
  then [.pack (toolchainDir c) (target c), .touchDecompressed (record c "toolchain"), .touchDecompressed (record c "toolchain_addons")]
  else if (d.state (record c "toolchain")).decompressed then [] else [.touchDecompressed (record c "toolchain")]

variable {w r c d} {component : String} {executed rest : List Op}

end EmbToolkit.Proofs.Interrupted
