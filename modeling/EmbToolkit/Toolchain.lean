import EmbToolkit.Packages

/-! The toolchain recipes: `__embtk_toolchain_core_build`, `__embtk_toolchain_addons_build` and
`__embtk_toolchain_build`, which chooses among rebuilding, unpacking the packed toolchain and leaving it in place.
Then `clean`, and the histories that are made of runs of the two goals. -/

namespace EmbToolkit
open MakeText

/-- `___embtk_toolchain_decompress` -/
def decompress (c : Config) : List Op :=
  [.breakTree (target c), .removeTree (target c), .startUnpack (toolchainDir c), .unpack (toolchainDir c), .other "mkinitdirs"]

/-- `__embtk_toolchain_compress`. The archive is made in the directory above and then renamed. -/
def compress (c : Config) : List Op := [.other "tar", .pack (toolchainDir c) (target c)]

namespace Workspace
variable (w : Workspace) (r : Reread) (c : Config)

/-- `__embtk_rootfs_pkgs-y` -/
def rootfsPkgs : List String := w.rootfs.filter (w.enabled c)

/-- `__embtk_toolchain_runrecipe-y` for `toolchain`, `__embtk_toolchain_addons_runrecipe-y` for `toolchain_addons` -/
def toolchainRunrecipe (m : Memory) (d : Disk) (component : String) : Bool :=
  w.pkgRunrecipe c m d component || (d.tarball (toolchainDir c)).isNone

/-- The commands of `__embtk_toolchain_core_build` before the first package is installed. -/
def coreClean (m : Memory) : List Op :=
  [.other "building_msg", .removeInstalled (w.statedir c "toolchain"), .removeDecompressed (w.statedir c "toolchain")]
    ++ (toolchainDeps c ++ w.rootfsPkgs c ++ m.rootfsOff).flatMap (w.cleanupPkg c)
    ++ [.breakTree (target c), .removeTree (target c), .other "mkinitdirs"]

/-- `__embtk_toolchain_core_build` -/
def coreBuild (m : Memory) (d : Disk) : List Line × Memory :=
  let installed := w.installEach c d (toolchainDeps c) (m.forget (toolchainDeps c ++ w.rootfsPkgs c ++ m.rootfsOff))
  ((w.coreClean c m).map .command ++ installed.1 ++ (w.recordInstalled c "toolchain").map .command, installed.2)

/-- The packages that `__embtk_toolchain_addons_build` cleans. -/
def addonsCleaned (core : Bool) (m : Memory) : List String :=
  (if core then toolchainAddonsDeps c else w.rootfsPkgs c ++ m.rootfsOff) ++ m.addonsOff

/-- The commands of `__embtk_toolchain_addons_build` before the first addon is installed. Without a core build the
toolchain is first unpacked as it was packed last. -/
def addonsClean (core : Bool) (m : Memory) : List Op :=
  [.other "build_msg", .removeInstalled (w.statedir c "toolchain_addons"), .removeDecompressed (w.statedir c "toolchain_addons"),
    .other "mkinitdirs"]
    ++ (if core then (toolchainAddonsDeps c).flatMap (w.cleanupPkg c)
      else (w.rootfsPkgs c ++ m.rootfsOff).flatMap (w.cleanupPkg c) ++ decompress c)
    ++ m.addonsOff.flatMap (w.cleanupPkg c)

/-- `__embtk_toolchain_addons_build` -/
def addonsBuild (core : Bool) (m : Memory) (d : Disk) : List Line × Memory :=
  let installed := w.installEach c d (toolchainAddonsDeps c) (m.forget (w.addonsCleaned c core m))
  ((w.addonsClean c core m).map .command ++ installed.1 ++ (w.recordInstalled c "toolchain_addons").map .command, installed.2)

/-- The end of `__embtk_toolchain_build` after a rebuild. -/
def packaging : List Op :=
  .other "packaging_msg" :: compress c
    ++ [.touchDecompressed (w.statedir c "toolchain"), .touchDecompressed (w.statedir c "toolchain_addons"), .other "built_msg"]

/-- `__embtk_toolchain_decompress`, the end of `__embtk_toolchain_build` without a rebuild. -/
def reuse (d : Disk) : List Op :=
  if (d.state (w.statedir c "toolchain")).decompressed then []
  else .other "decompressing_msg" :: decompress c ++ [.touchDecompressed (w.statedir c "toolchain")]

/-- `__embtk_toolchain_build` -/
def toolchainBuild (m : Memory) (d : Disk) : List Line :=
  let core := w.toolchainRunrecipe c m d "toolchain"
  let addons := w.toolchainRunrecipe c m d "toolchain_addons"
  let predeps := w.installEach c d w.toolchainPredeps m
  let coreLines := if core then w.coreBuild c predeps.2 d else ([], predeps.2)
  let addonsLines := if addons then w.addonsBuild c core coreLines.2 d else ([], coreLines.2)
  .command (.other "mkinitdirs") :: predeps.1 ++ coreLines.1 ++ addonsLines.1
    ++ (if core || addons then w.packaging c else w.reuse c d).map .command

/-- The commands that `make toolchain_install` executes. -/
def toolchainInstall (d : Disk) : List Op :=
  traceOf (w.make r c) (w.toolchainBuild c (Memory.load w r c d) d) d

/-- `make clean`. The pattern `generated/toolchain-*/.*.embtk.decompressed` of its last command finds nothing: toolchain
directories lie below `generated/toolchains`, and their markers below a further directory. -/
def clean : List Op :=
  [.removeDecompressed (w.statedir c "toolchain"), .removeDecompressed (w.statedir c "toolchain_addons"),
    .breakTrees (target c), .removeBuild, .removeTrees (target c), .other "kconfig_clean", .other "rm .config"]

end Workspace

inductive Goal
  | toolchainInstall
  | clean
  deriving DecidableEq

/-- One run of make. An interrupted run has executed the first `cut` commands. -/
structure Step where
  goal : Goal
  config : Config
  cut : Option Nat := none
  deriving DecidableEq

section
variable (w : Workspace) (r : Reread)

def Step.commands (step : Step) (d : Disk) : List Op :=
  match step.goal with
  | .toolchainInstall => w.toolchainInstall r step.config d
  | .clean => w.clean step.config

def Step.trace (step : Step) (d : Disk) : List Op :=
  match step.cut with
  | none => step.commands w r d
  | some k => (step.commands w r d).take k

def Step.apply (step : Step) (d : Disk) : Disk := run (step.trace w r d) d

/-- The disk after a history of runs in a fresh checkout. -/
def after (history : List Step) : Disk := Script.run (Step.apply w r) history Disk.fresh

end
end EmbToolkit
