import EmbToolkit.DotConfig
import EmbToolkit.Proofs.Cleaned
import EmbToolkit.Proofs.Signature

/-! Whether a changed configuration is noticed through the recorded list of a package. The list keeps the set of the
words of all symbol lines, each line as make reads it, so that a comment, an order or a repetition in a value is lost;
and what the shell and make do to the record may make it differ from itself. -/

namespace EmbToolkit.Proofs.RecordedSymbols
open MakeText

variable (w : Workspace) (p : String)

variable (sh : Sh) (old new : Environment) (d₁ d₂ : DotConfig)

section
variable {w p} {env : Environment} {d : DotConfig} {word : String}

end

/-- The configuration of strace from the branch of its repository. -/
def straceConfig (branch : String) : DotConfig where
  lines := [.assigned "CONFIG_EMBTK_BINUTILS_REFSPEC" (.string "toolchain"), .assigned "CONFIG_EMBTK_HAVE_STRACE" (.plain "y"),
    .notSet "CONFIG_EMBTK_STRACE_VERSION_4_9", .assigned "CONFIG_EMBTK_STRACE_VERSION_GIT" (.plain "y"),
    .assigned "CONFIG_EMBTK_STRACE_GIT_BRANCH" (.string branch), .assigned "CONFIG_EMBTK_STRACE_REFSPEC" (.string "toolchain"),
    .assigned "CONFIG_EMBTK_STRACE_VERSION_STRING" (.string "git"), .assigned "CONFIG_EMBTK_STRACE_NEED_AUTORECONF" (.plain "y")]
  binutils := by simp [symbolValue]

end EmbToolkit.Proofs.RecordedSymbols
