import EmbToolkit.Proofs.Cleaned
import EmbToolkit.Proofs.Records

/-! Whose toolchain lies in the sysroot and tools directories. Targets share them and markers are kept for each
`TOOLCHAIN_DIR`, so that only the history of runs tells whether a marker speaks of what is there now. -/

namespace EmbToolkit.Proofs.SharedTree
open Script Traces Emission ToolchainRun Records PackedTree Cleaned
variable (w : Workspace) (r : Reread)

/-- The directory whose toolchain was put last under the target, if it was not cleaned since. -/
def occupant (history : List Step) (name : String) : Option String :=
  history.foldl (fun before step => match step.goal with
    | .toolchainInstall => if name = target step.config then some (toolchainDir step.config) else before
    | .clean => if MakeText.hasPrefix (target step.config) name then none else before) none

/-- What the run needs in order to leave the toolchain of its own directory. A rebuilt core needs nothing. -/
structure Sound (before : List Step) (c : Config) (d : Disk) : Prop where
  /-- an unpacked tarball has to be one for the current target -/
  unpacks : rebuildsCore w r c d = false → rebuildsAddons w r c d = true ∨ (d.state (record c "toolchain")).decompressed = false →
    Matched c d
  /-- what is left in place has to be there -/
  keeps : rebuildsCore w r c d = false → rebuildsAddons w r c d = false → (d.state (record c "toolchain")).decompressed = true →
    occupant before (target c) = some (toolchainDir c)

variable {w r} {c : Config} {d : Disk}

variable {history : List Step}

end EmbToolkit.Proofs.SharedTree
