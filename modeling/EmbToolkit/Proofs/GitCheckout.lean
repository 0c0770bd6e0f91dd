import EmbToolkit.Download
import EmbToolkit.Library.Script

/-! The git checkout of a package over several attempts. An attempt that finds a repository leaves it as it is, and in
a command list with a further `cd` the commands after a failed `git clone` or `cd` run where the shell happens to be. -/

namespace EmbToolkit.Proofs.GitCheckout
open EmbToolkit.Download Shell

/-- An attempt under a configuration, each command ending as its reply says. -/
structure GitTry where
  config : Config
  replies : Command → Reply

variable (m : Makefile) (o : Remote)

/-- What the configuration asks for. -/
def wanted (c : Config) : Checkout where
  branch := m.gitbranch c
  revision := m.gitrev c

/-- A checkout or reset outside the local repository. -/
def Misplaced : Option Path × Command → Prop
  | (dir, .gitCheckout _) => dir ≠ some .localgit
  | (dir, .gitReset _) => dir ≠ some .localgit
  | _ => False

def InPlace (w : World) : Prop := ∀ entry ∈ w.log, ¬ Misplaced entry

def GitTry.result (t : GitTry) (w : World) : Status × World := attempt o t.replies (download_pkg_from_git m t.config) w

def GitTry.apply (t : GitTry) (w : World) : World := (t.result m o w).2

/-! ### Commands -/

section
variable {o}

variable {replies : Command → Reply} {w : World} {post : Status → World → Prop}

end

/-! ### Attempts -/

/-- An attempt that finds a repository finds what its configuration asks for. One that does not is asked for names
that its tests recognize for what they are, and no command fails behind which a `;` goes on. -/
structure Safe (t : GitTry) (w : World) : Prop where
  kept : w.nodes .dotgit = none ∨ w.nodes .dotgit = some (.repository (some (wanted m t.config)))
  branch : w.nodes .dotgit = none → findstring "master" (m.gitbranch t.config) = true → m.gitbranch t.config = o.defaultBranch
  revision : w.nodes .dotgit = none → findstring "HEAD" (m.gitrev t.config) = true → m.gitrev t.config = "HEAD"
  cloned : w.nodes .dotgit = none → findstring "master" (m.gitbranch t.config) = false ∨ findstring "HEAD" (m.gitrev t.config) = false →
    ∀ extent, t.replies (.gitClone (m.gitsite t.config)) ≠ .fails extent
  entered : w.nodes .dotgit = none → findstring "master" (m.gitbranch t.config) = false →
    ∀ extent, t.replies (.cd .branch .localgit) ≠ .fails extent
  enteredLate : w.nodes .dotgit = none → findstring "master" (m.gitbranch t.config) = true →
    findstring "HEAD" (m.gitrev t.config) = false → ∀ extent, t.replies (.cd .revision .localgit) ≠ .fails extent
  checkedOut : w.nodes .dotgit = none → findstring "master" (m.gitbranch t.config) = false →
    findstring "HEAD" (m.gitrev t.config) = false → ∀ extent, t.replies (.gitCheckout (m.gitbranch t.config)) ≠ .fails extent

section
variable {m o} {t : GitTry} {w : World}

/-- As `Correct`, of a script that has ended so. -/
private def Sound (m : Makefile) (c : Config) (status : Status) (w : World) : Prop :=
  InPlace w ∧ (status = .ok → w.nodes .dotgit = some (.repository (some (wanted m c))))

private theorem sound_bad {c : Config} {status : Status} (bad : status ≠ .ok) {w : World} (clean : InPlace w) : Sound m c status w :=
  ⟨clean, fun ok => absurd ok bad⟩

end

/-- The makefile of the host's LLVM, as far as a git checkout reads it. -/
def llvm : Makefile where
  PKGV := "LLVM_HOST"
  value name := if name = "LLVM_HOST_GIT_SITE" then "http://llvm.org/git/llvm.git" else ""

/-- The configuration of an LLVM from git. -/
def llvmConfig (branch revision : String) : Config where
  lines := [.assigned "CONFIG_EMBTK_BINUTILS_REFSPEC" "\"toolchain\"", .assigned "CONFIG_EMBTK_LLVM_HOST_VERSION_GIT" "y",
    .assigned "CONFIG_EMBTK_LLVM_HOST_GIT_BRANCH" branch, .assigned "CONFIG_EMBTK_LLVM_HOST_GIT_REVISION" revision]
  binutils := by simp [ConfigLine.defines]

private def whole : GitTry := ⟨llvmConfig "\"release_34\"" "\"4cd0b72\"", fun _ => .done⟩

end EmbToolkit.Proofs.GitCheckout
