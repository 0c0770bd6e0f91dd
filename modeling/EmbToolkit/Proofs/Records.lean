import EmbToolkit.Proofs.ToolchainRun

/-! The records of the toolchain and its addons: when they make the recipe rebuild, and what a complete run leaves
in them. -/

namespace EmbToolkit.Proofs.Records
open Script Traces Emission ToolchainRun
variable {w : Workspace} {r : Reread} {c : Config} {d : Disk}

variable (w r c d)

variable {w r c d}

end EmbToolkit.Proofs.Records
