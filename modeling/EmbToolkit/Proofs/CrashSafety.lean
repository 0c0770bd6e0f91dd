import EmbToolkit.Proofs.Interrupted
import EmbToolkit.Proofs.Packaging

/-! What the records of a toolchain say about its tarball after any number of interrupted runs, and that a complete
run then leaves the toolchain that its configuration asks for. -/

namespace EmbToolkit.Proofs.CrashSafety
open Script Traces Emission ToolchainRun Records PackedTree Cleaned Packaging Interrupted
variable (w : Workspace) (r : Reread) (c : Config) (d : Disk)

/-! ### A toolchain for the current signature -/

/-- The commands that the runs of a history have executed. -/
def log (history : List Step) : List Op :=
  (history.foldl (fun (state : Disk × List Op) step => (step.apply w r state.1, state.2 ++ step.trace w r state.1)) (Disk.fresh, [])).2

/-- No core build was begun since the tarball was packed last. -/
def PackedLast (dir : String) (ops : List Op) : Prop :=
  ∃ before target later, ops = before ++ .pack dir target :: later ∧ .removeInstalled (.toolchain dir "toolchain") ∉ later

variable {w r c d}

variable {among : Config → Prop} {ops executed rest : List Op}

theorem PackedLast.append {dir : String} {more : List Op} (last : PackedLast dir ops)
    (kept : .removeInstalled (.toolchain dir "toolchain") ∉ more) : PackedLast dir (ops ++ more) := by
  obtain ⟨before, target, later, rfl, quiet⟩ := last
  refine ⟨before, target, later ++ more, by simp, ?_⟩
  simp [quiet, kept]

end EmbToolkit.Proofs.CrashSafety
