import EmbToolkit.Target
import EmbToolkit.Library.Script
import Mathlib.Logic.Function.Basic

/-! The files that decisions are taken from, and the commands that change them. A crash can leave the disk between
any two commands; a command that removes or unpacks a directory tree is split so that it can be caught half done. -/

namespace EmbToolkit
open MakeText

/-- The directories `.embtk-<pkg>` that hold the state files of a package. -/
inductive StateDir
  /-- below `build/packages_build-<target>` -/
  | packages (target pkg : String)
  /-- below `build/tools_build-<target>` -/
  | tools (target pkg : String)
  /-- below `src/<category>`, for a package built in its checked out repository -/
  | source (pkg : String)
  /-- below a `TOOLCHAIN_DIR` -/
  | toolchain (dir pkg : String)
  deriving DecidableEq, Repr

/-- The files `.embtk.installed`, `.embtk.kconfig` and `.embtk.decompressed`. An absent or truncated
`.embtk.kconfig` assigns nothing, which make reads as the empty list. -/
structure Markers where
  installed : Bool := false
  kconfig : String := ""
  decompressed : Bool := false
  deriving DecidableEq, Repr

/-- What one package left in the sysroot and tools directories: the configuration it was built under, and whether
its installation there came to an end. -/
structure Result where
  config : Config
  complete : Bool
  deriving DecidableEq

/-- The sysroot and tools directories of one target. -/
abbrev Tree := String → Option Result

/-- `TOOLCHAIN_PACKAGE` in a `TOOLCHAIN_DIR`: the two directories under the names they had. -/
structure Tarball where
  target : String
  tree : Tree

structure Disk where
  state : StateDir → Markers
  tarball : String → Option Tarball
  tree : String → Tree

/-- A fresh checkout. -/
def Disk.fresh : Disk := ⟨fun _ => {}, fun _ => none, fun _ _ => none⟩

/-- The commands of recipes. `start`, `compile` and `finish` mark the stages of a guarded package recipe: its first
command, the message after its dependencies are installed, and its last command. `build` and `install` are the
commands of a package that change the sysroot and tools directories. -/
inductive Op
  | touchInstalled (dir : StateDir)
  | removeInstalled (dir : StateDir)
  | truncateKconfig (dir : StateDir)
  | writeKconfig (dir : StateDir) (text : String)
  | touchDecompressed (dir : StateDir)
  | removeDecompressed (dir : StateDir)
  | removeStateDir (dir : StateDir)
  | breakTree (target : String)
  | removeTree (target : String)
  | startUnpack (dir : String)
  | unpack (dir : String)
  | pack (dir target : String)
  | start (dir : StateDir) (pkg : String) (config : Config)
  | compile (dir : StateDir) (pkg : String) (config : Config)
  | build (target pkg : String) (config : Config)
  | install (target pkg : String) (config : Config)
  | finish (dir : StateDir) (pkg : String) (config : Config)
  | removeFiles (target pkg : String)
  | breakTrees (stem : String)
  | removeTrees (stem : String)
  | removeBuild
  | other (name : String)
  deriving DecidableEq

/-- Every installation that is still there has lost files. -/
def Tree.broken (tree : Tree) : Tree := fun pkg => (tree pkg).map fun result => { result with complete := false }

/-- The tree that is left when `new` is copied over `old`. -/
def Tree.over (new old : Tree) : Tree := fun pkg => (new pkg).or (old pkg)

namespace Disk

def setMarkers (d : Disk) (dir : StateDir) (change : Markers → Markers) : Disk :=
  { d with state := Function.update d.state dir (change (d.state dir)) }

def setTree (d : Disk) (target : String) (tree : Tree) : Disk := { d with tree := Function.update d.tree target tree }

end Disk

/-- The disk after a command. -/
def Op.apply : Op → Disk → Disk
  | .touchInstalled dir, d => d.setMarkers dir fun m => { m with installed := true }
  | .removeInstalled dir, d => d.setMarkers dir fun m => { m with installed := false }
  | .truncateKconfig dir, d => d.setMarkers dir fun m => { m with kconfig := "" }
  | .writeKconfig dir text, d => d.setMarkers dir fun m => { m with kconfig := text }
  | .touchDecompressed dir, d => d.setMarkers dir fun m => { m with decompressed := true }
  | .removeDecompressed dir, d => d.setMarkers dir fun m => { m with decompressed := false }
  | .removeStateDir dir, d => d.setMarkers dir fun _ => {}
  | .breakTree target, d => d.setTree target (d.tree target).broken
  | .removeTree target, d => d.setTree target fun _ => none
  -- the tarball names the directories it unpacks to, and they need not be those of the current target
  | .startUnpack dir, d => match d.tarball dir with
    | some tarball => d.setTree tarball.target (tarball.tree.broken.over (d.tree tarball.target))
    | none => d
  | .unpack dir, d => match d.tarball dir with
    | some tarball => d.setTree tarball.target (tarball.tree.over (d.tree tarball.target))
    | none => d
  | .pack dir target, d => { d with tarball := Function.update d.tarball dir (some ⟨target, d.tree target⟩) }
  | .build target pkg config, d => d.setTree target (Function.update (d.tree target) pkg (some ⟨config, false⟩))
  | .install target pkg config, d => d.setTree target (Function.update (d.tree target) pkg (some ⟨config, true⟩))
  | .removeFiles target pkg, d => d.setTree target (Function.update (d.tree target) pkg none)
  | .breakTrees stem, d =>
    { d with tree := fun target => if hasPrefix stem target then (d.tree target).broken else d.tree target }
  | .removeTrees stem, d => { d with tree := fun target => if hasPrefix stem target then fun _ => none else d.tree target }
  | .removeBuild, d => { d with state := fun
      | .packages _ _ => {}
      | .tools _ _ => {}
      | dir => d.state dir }
  | .start _ _ _, d => d
  | .compile _ _ _, d => d
  | .finish _ _ _, d => d
  | .other _, d => d

/-- The disk after a sequence of commands. -/
abbrev run (ops : List Op) (d : Disk) : Disk := Script.run Op.apply ops d

end EmbToolkit
