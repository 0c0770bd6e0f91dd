import EmbToolkit.Disk

/-! The package macros: what a package's recorded symbol list is, when its guarded recipe runs, and which commands
installing and cleaning it expand to. Make expands a whole recipe before it runs the first command of it, so an
expansion reads one disk and the variables of one make process, and yields command lines. -/

namespace EmbToolkit
open MakeText

/-- Where `<PKG>_BUILD_DIR` lies. -/
inductive Area
  | packages
  | tools
  | source
  deriving DecidableEq

/-- The packages whose files live in the sysroot and tools directories that a toolchain is packed from. -/
def treePackages : List String :=
  ["linux_headers", "binutils", "llvm_host", "gcc1", "uclibc_headers", "gcc2", "eglibc", "glibc", "musl", "uclibc", "gcc3",
   "compiler-rt", "ltrace", "strace", "gdbserver", "gdb", "gdb_host"]

/-- The toolchain packages whose makefiles name installed files for `__embtk_cleanup_pkg` to delete. -/
def filesNamed : List String := ["ltrace", "strace", "gdbserver", "gdb"]

/-- Not part of the toolchain: neither packed with it nor one of its two records. -/
def Outside (p : String) : Prop := p ∉ treePackages ∧ p ≠ "toolchain" ∧ p ≠ "toolchain_addons"

/-- The package makefiles, as far as the build system consults them. The packages for the target and all
dependencies are outside the toolchain, and the dependencies have no cycle. -/
structure Workspace where
  /-- `<PKG>_DEPS` -/
  deps : Config → String → List String
  /-- brought in by one of the `embtk_include_*pkg` macros, which load the recorded list, and not by a plain `include` -/
  included : String → Bool
  /-- `CONFIG_EMBTK_HAVE_<PKG>` or `CONFIG_EMBTK_HOST_HAVE_<PKG>` -/
  selected : Config → String → Bool
  area : Config → String → Area
  /-- the packages for the target, in the order of their makefiles -/
  rootfs : List String
  /-- `HOSTTOOLS_COMPONENTS-y` -/
  hostTools : Config → List String
  /-- `embtk_buildhost_os_type` is `bsd`, `embtk_buildhost_os` is `macos` -/
  bsd : Bool
  macos : Bool
  rank : Config → String → Nat
  lower : ∀ c p q, q ∈ deps c p → rank c q < rank c p
  outside : ∀ c p q, q ∈ deps c p → Outside q
  rootfs_outside : ∀ p ∈ rootfs, Outside p

/-! ### Toolchain packages and their order -/

/-- `__embtk_incenabled-y` of `embtk_include_xtoolpkg`. It also looks at the host symbol of the name without
`_host`, so that `CONFIG_EMBTK_HOST_HAVE_GDB` enables `gdb` beside `gdb_host`. -/
def xtoolEnabled (c : Config) (p : String) : Bool :=
  orElse (c.value ("CONFIG_EMBTK_HAVE_" ++ ucase p)) (c.value ("CONFIG_EMBTK_HOST_HAVE_" ++ dropSuffix "_HOST" (ucase p))) = "y"

/-- The packages included by `embtk_include_xtoolpkg` with component `toolchain_deps`. -/
def xtoolDeps : List String := ["gmp_host", "mpfr_host", "mpc_host", "gperf_host"]

/-- The packages included by `embtk_include_xtoolpkg` with component `toolchain_addons_deps`. -/
def xtoolAddons : List String := ["ltrace", "strace", "gdbserver", "gdb", "gdb_host"]

/-- The packages whose makefiles `core.mk` brings in by a plain `include`. -/
def corePackages : List String :=
  ["linux_headers", "binutils", "llvm_host", "gcc1", "uclibc_headers", "gcc2", "eglibc", "glibc", "musl", "uclibc", "gcc3", "compiler-rt"]

/-- `__embtk_xtool_gcc3-y` -/
def xtoolGcc3 (c : Config) : List String :=
  if c.isYes "CONFIG_EMBTK_GCC_ONLY_TOOLCHAIN" || c.isYes "CONFIG_EMBTK_GCC_DEFAULT_TOOLCHAIN" || c.isYes "CONFIG_EMBTK_GCC_LANGUAGE_CPP"
    || c.isYes "CONFIG_EMBTK_GCC_LANGUAGE_OBJECTIVEC" || c.isYes "CONFIG_EMBTK_GCC_LANGUAGE_OBJECTIVECPP"
  then ["gcc3"] else []

/-- `__embtk_xtool_compiler-rt-y`. The second of the three tests in `core.mk` repeats the first. -/
def xtoolCompilerRt (c : Config) : List String :=
  if c.value "CONFIG_EMBTK_HAVE_COMPILER-RT" ++ c.value "CONFIG_KEMBTK_UCLIBC_LINUXTHREADS_OLD" = "yy" then []
  else if c.value "CONFIG_EMBTK_HAVE_COMPILER-RT" ++ c.value "CONFIG_EMBTK_CLIB_MUSL" ++ c.value "CONFIG_EMBTK_ARCH_MIPS" = "yyy" then []
  else if c.isYes "CONFIG_EMBTK_HAVE_COMPILER-RT" then ["compiler-rt"] else []

/-- `EMBTK_TOOLCHAIN_DEPS-y` -/
def toolchainDeps (c : Config) : List String :=
  xtoolDeps.filter (xtoolEnabled c) ++ ["linux_headers", "binutils"]
    ++ (if c.isYes "CONFIG_EMBTK_HOST_HAVE_LLVM" then ["llvm_host"] else []) ++ ["gcc1"]
    ++ (if c.isYes "CONFIG_EMBTK_CLIB_UCLIBC" then [embtkClib c ++ "_headers", "gcc2"] else [])
    ++ [embtkClib c] ++ xtoolGcc3 c ++ xtoolCompilerRt c

/-- `EMBTK_TOOLCHAIN_PREDEPS-y` -/
def Workspace.toolchainPredeps (w : Workspace) : List String :=
  ["ccache_host", "m4_host", "libtool_host", "autoconf_host", "automake_host", "pkgconf_host"]
    ++ (if w.bsd then ["gsed_host", "gmake_host"] else []) ++ if w.macos then ["findutils_host"] else []

/-- `EMBTK_TOOLCHAIN_ADDONS_DEPS-y` -/
def toolchainAddonsDeps (c : Config) : List String := xtoolAddons.filter (xtoolEnabled c)

/-! ### The recorded symbol list -/

/-- `CONFIG_EMBTK_$(__embtk_pkg_kconfigsname)_` -/
def kconfigsStem (p : String) : String := "CONFIG_EMBTK_" ++ dropSuffix "_HOST" (ucase p) ++ "_"

/-- `__embtk_pkg_kconfigs` -/
def pkgKconfigs (c : Config) (p : String) : List String := sortWords (c.definedNames.filter (hasPrefix (kconfigsStem p)))

/-- `__embtk_pkg_kconfigs_v` -/
def pkgKconfigsV (c : Config) (p : String) : String := unwords ((pkgKconfigs c p).map fun k => k ++ "=" ++ c.value k)

namespace Workspace
variable (w : Workspace) (c : Config)

/-- `__embtk_pkg_deps` without the suffix `_install`; the toolchain and its addons count as packages. -/
def pkgDeps (p : String) : List String :=
  if p = "toolchain" then toolchainDeps c else if p = "toolchain_addons" then toolchainAddonsDeps c else w.deps c p

/-- `__embtk_pkg_deps_kconfigs_v` -/
def pkgDepsKconfigsV (p : String) : String := unwords ((sortWords (w.pkgDeps c p)).map (pkgKconfigsV c))

/-- `__embtk_pkg_kconfigs_all_v` -/
def pkgKconfigsAllV (p : String) : String :=
  unwords (sortWords (words (strip (pkgKconfigsV c p ++ " " ++ w.pkgDepsKconfigsV c p))))

/-- `__embtk_pkg_statedir` -/
def statedir (p : String) : StateDir :=
  if p = "toolchain" ∨ p = "toolchain_addons" then .toolchain (toolchainDir c) p
  else match w.area c p with
    | .packages => .packages (target c) p
    | .tools => .tools (target c) p
    | .source => .source p

/-- Whether the recorded list of the package is loaded when its makefile is included. -/
def loads (p : String) : Bool := if p ∈ corePackages then false else if p ∈ xtoolDeps ++ xtoolAddons then true else w.included p

/-- Whether the makefile of the package adds it to the list of enabled packages. -/
def enabled (p : String) : Bool := if p ∈ xtoolDeps ++ xtoolAddons then xtoolEnabled c p else w.selected c p

end Workspace

/-- How a recorded list comes back when make includes the file that the shell wrote it to with `echo`. -/
structure Reread where
  back : String → String
  back_empty : back "" = ""

/-- The variables of one make process that decisions depend on. -/
structure Memory where
  /-- `__embtk_<pkg>_installed` -/
  installed : String → Bool
  /-- `__embtk_<pkg>_okconfigs` -/
  okconfigs : String → String
  /-- `ROOTFS_COMPONENTS-` -/
  rootfsOff : List String
  /-- `EMBTK_TOOLCHAIN_ADDONS_DEPS-` -/
  addonsOff : List String
  /-- the targets `<pkg>_install` that this process has already updated -/
  updated : List String

section
variable (w : Workspace) (r : Reread) (c : Config)

/-- What a make process reads before it runs a recipe. The records of the toolchain and its addons are included
whatever the configuration says, and their installed variables are never set. A disabled package is listed for
cleaning if its marker is found, or always when its makefile lists it by a plain assignment. -/
def Memory.load (d : Disk) : Memory where
  installed p := w.loads p && (d.state (w.statedir c p)).installed
  okconfigs p :=
    if p = "toolchain" ∨ p = "toolchain_addons" ∨ (w.loads p && w.enabled c p) = true
    then r.back (d.state (w.statedir c p)).kconfig else ""
  rootfsOff := w.rootfs.filter fun p => !w.enabled c p && (!w.loads p || (d.state (w.statedir c p)).installed)
  addonsOff := xtoolAddons.filter fun p => !w.enabled c p && (d.state (w.statedir c p)).installed
  updated := []

namespace Workspace

/-- `__embtk_pkg_installed-y` -/
def pkgInstalled (m : Memory) (d : Disk) (p : String) : Bool := m.installed p || (d.state (w.statedir c p)).installed

/-- `__embtk_pkg_confchanged-y` -/
def pkgConfchanged (m : Memory) (p : String) : Bool := strneq (w.pkgKconfigsAllV c p) (m.okconfigs p) ≠ ""

/-- `__embtk_pkg_runrecipe-y` -/
def pkgRunrecipe (m : Memory) (d : Disk) (p : String) : Bool := !w.pkgInstalled c m d p || w.pkgConfchanged c m p

end Workspace
end

/-- A line of an expanded recipe: a shell command, or `$(MAKE) <goals>`. -/
inductive Line
  | command (op : Op)
  | make (goals : List String)

/-- `embtk_install_<pkg>` or the default for autotools and waf packages. -/
def installCommands (c : Config) (p : String) : List Op :=
  if p ∈ treePackages then [.build (target c) p c, .install (target c) p c] else [.other "install"]

/-- `embtk_postinstallonce_<pkg>`. That of `gdbserver` deletes the programs of `gdb`, which `addons.mk` names only when
one of the two symbols is set and the other is not. -/
def postinstallonce (c : Config) (p : String) : List Op :=
  if p = "gdbserver" ∧ c.value "CONFIG_EMBTK_HAVE_GDBSERVER" ++ c.value "CONFIG_EMBTK_HAVE_GDB" = "y"
  then [.removeFiles (target c) "gdb"] else [.other "postinstallonce"]

namespace Workspace
variable (w : Workspace) (c : Config)

/-- `__embtk_setinstalled_pkg` and `__embtk_pkg_gen_dotkconfig_f`; the shell truncates the file before `echo` writes it. -/
def recordInstalled (p : String) : List Op :=
  [.touchInstalled (w.statedir c p), .truncateKconfig (w.statedir c p), .writeKconfig (w.statedir c p) (w.pkgKconfigsAllV c p)]

/-- The part of the guarded recipe after the dependencies. -/
def ownCommands (p : String) : List Op :=
  [.compile (w.statedir c p) p c, .other "mkdir", .other "download", .other "decompress", .other "beforeinstall"]
    ++ installCommands c p
    ++ w.recordInstalled c p ++ postinstallonce c p ++ [.other "wipeoutworkspace", .finish (w.statedir c p) p c]

/-- `__embtk_preinstall_pkg`, the installation, and `__embtk_postinstall_pkg`. -/
def guardedRecipe (p : String) : List Line :=
  .command (.start (w.statedir c p) p c) :: (if w.pkgDeps c p = [] then [] else [.make (w.pkgDeps c p)])
    ++ (w.ownCommands c p).map .command

/-- `embtk_install_xpkg`: the lines, and the variables after the expansion has set `__embtk_<pkg>_installed`. -/
def installXpkg (m : Memory) (d : Disk) (p : String) : List Line × Memory :=
  if w.pkgRunrecipe c m d p
  then (w.guardedRecipe c p ++ [.command (.other "postinstall")], { m with installed := Function.update m.installed p true })
  else ([.command (.other "postinstall")], m)

/-- `__embtk_cleanup_pkg` -/
def cleanupPkg (p : String) : List Op :=
  (if p ∈ filesNamed then [.removeFiles (target c) p] else [])
    ++ [.other "cleanup", .removeInstalled (w.statedir c p), .removeStateDir (w.statedir c p)]

/-- `$(foreach pkg,...,$(call embtk_install_xpkg,$(pkg)))` -/
def installEach (d : Disk) : List String → Memory → List Line × Memory
  | [], m => ([], m)
  | p :: rest, m =>
    let (lines, m') := w.installXpkg c m d p
    let (more, m'') := installEach d rest m'
    (lines ++ more, m'')

end Workspace

/-- `$(eval __embtk_<pkg>_installed =)` of `__embtk_cleanup_pkg`, for each of the packages. -/
def Memory.forget (m : Memory) (pkgs : List String) : Memory := { m with installed := fun p => m.installed p && p ∉ pkgs }

/-! ### Make processes -/

/-- The commands executed for the lines of a recipe; `sub` is what a nested make executes. -/
def traceOf (sub : List String → Disk → List Op) : List Line → Disk → List Op
  | [], _ => []
  | .command op :: rest, d => op :: traceOf sub rest (op.apply d)
  | .make goals :: rest, d => sub goals d ++ traceOf sub rest (run (sub goals d) d)

namespace Workspace
variable (w : Workspace) (r : Reread) (c : Config)

/-- The goals `<pkg>_install` of one make process, one after the other. A target is updated once in a process, and
the recipe of each is expanded on the disk as the previous ones left it. -/
def updateGoals (sub : List String → Disk → List Op) : List String → Memory → Disk → List Op
  | [], _, _ => []
  | p :: rest, m, d =>
    if p ∈ m.updated then updateGoals sub rest m d
    else
      let expansion := w.installXpkg c m d p
      let trace := traceOf sub expansion.1 d
      trace ++ updateGoals sub rest { expansion.2 with updated := p :: expansion.2.updated } (run trace d)

/-- `$(MAKE) <goals>`: a new process, which loads the variables and starts further processes for dependencies. -/
def makeWithin : Nat → List String → Disk → List Op
  | 0, _, _ => []
  | depth + 1, goals, d => w.updateGoals c (makeWithin depth) goals (Memory.load w r c d) d

/-- Deep enough for the goals and everything below them. -/
def depthOf (goals : List String) : Nat := (goals.map (w.rank c)).foldr max 0 + 1

def make (goals : List String) (d : Disk) : List Op := w.makeWithin r c (w.depthOf c goals) goals d

end Workspace
end EmbToolkit
