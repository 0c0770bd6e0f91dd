import EmbToolkit.Proofs.Recipes
import EmbToolkit.Proofs.Cleaned

/-! Histories of package installations that may be interrupted at any command. A package counts as installed once its
marker is set and its list recorded, which is before the guarded recipe is over, and it still does while the recipe runs
again; an interruption in these parts goes unnoticed. -/

namespace EmbToolkit.Proofs.PackageCrash
open Script Traces Interrupted Recipes Cleaned

/-- `make <pkg>_install ...`; an interrupted run has executed the first `cut` commands. -/
structure InstallRun where
  goals : List String
  config : Config
  cut : Option Nat := none
  deriving DecidableEq

variable (w : Workspace) (r : Reread)

def InstallRun.trace (step : InstallRun) (d : Disk) : List Op :=
  match step.cut with
  | none => w.make r step.config step.goals d
  | some k => (w.make r step.config step.goals d).take k

/-- The disk, and all that was executed so far. -/
abbrev Logged := Disk × List Op

def InstallRun.apply (step : InstallRun) (s : Logged) : Logged := (run (step.trace w r s.1) s.1, s.2 ++ step.trace w r s.1)

/-- The whole guarded recipe was run for the signature of the configuration, and none was begun for another one since. -/
def Completed (c : Config) (p : String) (log : List Op) : Prop :=
  ∃ built earlier recipe later, log = earlier ++ (recipe ++ later) ∧ Recipe w r built p recipe ∧
    w.statedir built p = w.statedir c p ∧ w.pkgKconfigsAllV built p = w.pkgKconfigsAllV c p ∧
    ∀ other, .start (w.statedir c p) p other ∈ later → w.pkgKconfigsAllV other p = w.pkgKconfigsAllV c p

/-- A package is skipped only where it was completed. -/
def Sound (among : Config → Prop) (s : Logged) : Prop :=
  ∀ p, IsPackage p → ∀ c, among c → Skips w r c p (s.1.state (w.statedir c p)) → Completed w r c p s.2

variable {w r} {among : Config → Prop} {c : Config} {p : String}

/-! ### One recipe -/

theorem Completed.extend {log more : List Op} (completed : Completed w r c p log)
    (same : ∀ other, .start (w.statedir c p) p other ∈ more → w.pkgKconfigsAllV other p = w.pkgKconfigsAllV c p) :
    Completed w r c p (log ++ more) := by
  obtain ⟨built, earlier, recipe, later, rfl, whole, dir, signature, since⟩ := completed
  refine ⟨built, earlier, recipe, later ++ more, by simp, whole, dir, signature, fun other member => ?_⟩
  exact (List.mem_append.mp member).elim (since other) (same other)

end EmbToolkit.Proofs.PackageCrash
