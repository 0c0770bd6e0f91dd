import EmbToolkit.Library.Files
import EmbToolkit.Library.Script
import EmbToolkit.Target

/-! Where the state files of a package are: `__embtk_pkg_statedir` with its fallbacks, and the recipes that write and
delete them. The makefile of a package is given by the variables that this depends on, and paths start below
`EMBTK_ROOT`. -/

namespace EmbToolkit.StateDirs
open MakeText Files

/-! ### The makefiles -/

/-- `<PKG>_BUILD_DIR`, without its last component. -/
inductive BuildDir where
  /-- below `$(embtk_pkgb)` -/
  | packages
  /-- below `$(embtk_toolsb)` -/
  | tools
  /-- below `$(TOOLCHAIN_DIR)` -/
  | toolchain
  /-- `$(call __embtk_pkg_srcdir,owner)`, the checkout of a package of this name, or else where its tarball is unpacked
  below `$(embtk_toolsb)`, if there is one -/
  | source (owner NAME : String) (tarball : Bool)
  deriving DecidableEq

inductive Inclusion where
  /-- a plain `include` -/
  | plain
  /-- `embtk_include_pkg`, from the directory -/
  | pkg (directory : String)
  /-- `embtk_include_hostpkg` -/
  | host
  /-- `embtk_include_xtoolpkg`, for the component -/
  | xtool (component : String)
  deriving DecidableEq

inductive Vcs where
  | git
  | svn
  deriving DecidableEq

structure Package where
  pkgv : String
  NAME : String
  buildDir : BuildDir
  inclusion : Inclusion
  /-- The symbol of the two `_VERSION_GIT` and `_VERSION_SVN` that kconfig has for the package, if any. -/
  vcs : Option Vcs := none
  /-- The default that kconfig gives the symbol; there is no prompt to change it. -/
  REFSPEC : String := ""
  CATEGORY : String := ""
  deriving DecidableEq

private def forTarget (directory : String) (pkgv : String) : Package :=
  { pkgv, NAME := pkgv, buildDir := .packages, inclusion := .pkg directory }

private def renamed (directory : String) (names : String × String) : Package := { forTarget directory names.1 with NAME := names.2 }

private def host (names : String × String) : Package := { pkgv := names.1, NAME := names.2, buildDir := .tools, inclusion := .host }

private def plain (buildDir : BuildDir) (names : String × String) : Package :=
  { pkgv := names.1, NAME := names.2, buildDir, inclusion := .plain }

/-- The packages whose makefiles are included by the macros of `include.mk`. -/
def includedPackages : List Package :=
  [{ pkgv := "openblas", NAME := "openblas", buildDir := .source "openblas" "openblas" false, inclusion := .pkg "development",
     vcs := some .git, REFSPEC := "development" },
   { pkgv := "strace", NAME := "strace", buildDir := .packages, inclusion := .xtool "toolchain_addons_deps", vcs := some .git,
     REFSPEC := "toolchain" },
   { pkgv := "ltrace", NAME := "ltrace", buildDir := .packages, inclusion := .xtool "toolchain_addons_deps", vcs := some .git,
     CATEGORY := "toolchain" },
   { pkgv := "gdb", NAME := "gdb", buildDir := .packages, inclusion := .xtool "toolchain_addons_deps",
     CATEGORY := "toolchain_addons" },
   { pkgv := "gdbserver", NAME := "gdb", buildDir := .packages, inclusion := .xtool "toolchain_addons_deps",
     CATEGORY := "toolchain_addons" },
   { pkgv := "gdb_host", NAME := "gdb", buildDir := .tools, inclusion := .xtool "toolchain_addons_deps",
     CATEGORY := "toolchain_addons" },
   { pkgv := "pkgconf_host", NAME := "pkgconf", buildDir := .tools, inclusion := .host, vcs := some .git }] ++
  [("gmp_host", "gmp"), ("mpfr_host", "mpfr"), ("mpc_host", "mpc"), ("gperf_host", "gperf")].map (fun names =>
    { host names with inclusion := .xtool "toolchain_deps" }) ++
  [("autoconf_host", "autoconf"), ("automake_host", "automake"), ("ccache_host", "ccache"), ("fakeroot_host", "fakeroot"),
   ("findutils_host", "findutils"), ("gettext_host", "gettext"), ("gmake_host", "gmake"), ("gsed_host", "gsed"),
   ("libelf_host", "libelf"), ("libtool_host", "libtool"), ("e2fsprogs-libuuid_host", "e2fsprogs-libuuid"),
   ("mtdutils_host", "mtd-utils"), ("m4_host", "m4"), ("squashfs_host", "squashfs"), ("zlib_host", "zlib"), ("icu_host", "icu"),
   ("glib_host", "glib"), ("intltool_host", "intltool"), ("lzo_host", "lzo")].map host ++
  ["bigreqsproto", "compositeproto", "damageproto", "fixesproto", "fontsproto", "inputproto", "kbproto", "randrproto", "recordproto",
   "renderproto", "resourceproto", "videoproto", "xcmiscproto", "xextproto", "xproto", "libfontenc", "libpciaccess", "libxcb",
   "libxkbfile", "xinput", "xkbcomp", "xtrans"].map (forTarget "x11") ++
  [("utilmacros", "util-macro"), ("xcbutil", "xcb-util"), ("xcbproto", "xcb-proto"), ("libpthreadstubs", "libpthread-stubs"),
   ("libx11", "libX11"), ("libxau", "libXau"), ("libxi", "libXi"), ("libxcomposite", "libXcomposite"), ("libxext", "libXext"),
   ("libxfixes", "libXfixes"), ("libxfont", "libXfont"), ("libxft", "libXft"), ("libxrandr", "libXrandr"), ("libxrender", "libXrender"),
   ("xkeyboardconfig", "xkeyboard-config"), ("xserver", "xorg-server"), ("xf86inputevdev", "xf86-input-evdev"),
   ("xf86videofbdev", "xf86-video-fbdev")].map (renamed "x11") ++
  ["atf", "boost", "fftw", "gettext-intl", "glibmm", "gtest", "icu", "kyua", "libbsd", "libelf", "libevent", "libnih", "libsigcpp",
   "libsigsegv", "libunwind", "e2fsprogs-libuuid", "popt"].map (forTarget "development") ++
  ["fcgi", "iptables", "libnl", "libpcap", "librsync", "libtirpc", "tcpdump"].map (forTarget "net") ++
  ["alsa-lib", "ladspa", "libsndfile", "libsamplerate", "lilv", "lv2", "jack2"].map (forTarget "audio") ++
  ["expat", "glib", "ncurses", "serd", "sord", "sratom", "tslib"].map (forTarget "misc") ++
  ["cgilua", "luafilesystem", "lutok", "rings"].map (forTarget "lua-modules") ++
  ["bzip2", "lzo", "zlib"].map (forTarget "compression") ++ ["libxml2", "lrdf", "raptor"].map (forTarget "textproc") ++
  ["dbus", "openrc"].map (forTarget "system") ++ [renamed "system" ("mtdutils", "mtd-utils")] ++
  ["dropbear", "libressl"].map (forTarget "security") ++
  [forTarget "database" "sqlite", forTarget "math" "armadillo", forTarget "scripting-languages" "lua"]

/-- The packages whose makefiles are included by name. -/
def plainPackages : List Package :=
  [plain .toolchain ("toolchain", "toolchain"), plain .toolchain ("toolchain_addons", "toolchain_addons"),
   { plain .tools ("binutils", "binutils") with vcs := some .git, REFSPEC := "toolchain" },
   { plain .tools ("llvm_host", "llvm") with vcs := some .git, REFSPEC := "toolchain" },
   { plain .tools ("clang_host", "clang") with vcs := some .git, REFSPEC := "toolchain" },
   { plain .tools ("eglibc", "eglibc") with vcs := some .svn, REFSPEC := "toolchain" },
   { plain (.source "libcxxrt" "libcxxrt" true) ("libcxxrt", "libcxxrt") with vcs := some .git, REFSPEC := "toolchain" },
   { plain (.source "libcxx" "libcxx" true) ("libcxx", "libcxx") with vcs := some .git, REFSPEC := "toolchain" },
   { plain (.source "compiler-rt" "compiler-rt" true) ("compiler-rt", "compiler-rt") with vcs := some .git, REFSPEC := "toolchain" },
   { plain (.source "musl" "musl" true) ("musl", "musl") with vcs := some .git, REFSPEC := "toolchain" },
   { plain (.source "uclibc" "uClibc" true) ("uclibc", "uClibc") with vcs := some .git, REFSPEC := "toolchain" },
   plain (.source "uclibc" "uClibc" true) ("uclibc_headers", "uClibc")] ++
  [("gcc1", "gcc"), ("gcc2", "gcc"), ("gcc3", "gcc"), ("linux", "linux"), ("linux_headers", "linux"), ("linux_modules", "linux"),
   ("bmake", "bmake"), ("glibc", "glibc"), ("makedevs", "makedevs"), ("libtiff_host", "libtiff"), ("libjpeg_host", "jpeg"),
   ("gdkpixbuf_host", "gdkpixbuf"), ("libpng_host", "libpng")].map (plain .tools) ++
  [("gperf", "gperf"), ("foo", "foo"), ("intltool", "intltool"), ("bb", "busybox"), ("libtiff", "libtiff"), ("atk", "atk"),
   ("libjpeg", "jpeg"), ("gdkpixbuf", "gdkpixbuf"), ("directfb", "directfb"), ("fontconfig", "fontconfig"),
   ("freefont_ttf", "freefont-ttf"), ("pango", "pango"), ("libpng", "libpng"), ("gtk", "gtk+"), ("imlib2", "imlib2"),
   ("pixman", "pixman"), ("freetype", "freetype"), ("cairo", "cairo")].map (plain .packages)

def packages : List Package := includedPackages ++ plainPackages

/-! ### Checkouts -/

section
variable (c : Config)

def kconfig (pkgv suffix : String) : String := c.value ("CONFIG_EMBTK_" ++ ucase pkgv ++ suffix)

def usegit (pkgv : String) : Bool := kconfig c pkgv "_VERSION_GIT" ≠ ""
def usesvn (pkgv : String) : Bool := kconfig c pkgv "_VERSION_SVN" ≠ ""

/-- `__embtk_pkg_name` -/
def pkgName (pkgv NAME : String) : String := orElse NAME (dropSuffix "_host" pkgv)

def notdir (path : String) : String := String.ofList (path.toList.reverse.takeWhile (· ≠ '/')).reverse

/-- `src/$(__embtk_pkg_refspec)` -/
def srcPath (refspec : String) : Path := if refspec = "" then ["src"] else ["src", refspec]

/-- `$(or $(__embtk_pkg_localgit),$(__embtk_pkg_localsvn))` -/
def checkout (pkgv NAME refspec : String) : List Path :=
  if usegit c pkgv then [srcPath refspec ++ [pkgName pkgv NAME ++ ".git"]]
  else if usesvn c pkgv then
    [srcPath refspec ++ [pkgName pkgv NAME ++ "-" ++ notdir (uquote (kconfig c pkgv "_SVN_BRANCH")) ++ ".svn"]]
  else []

namespace Package
variable (p : Package)

/-- `__embtk_<pkg>_category`, which the macros set after they have included the makefile. -/
def category : String :=
  let given := uquote (orElse (kconfig c p.pkgv "_REFSPEC") (kconfig c p.pkgv "_CATEGORY"))
  match p.inclusion with
  | .pkg directory => orElse given directory
  | .xtool component => orElse given component
  | _ => ""

/-- `__embtk_pkg_refspec` -/
def refspec : String := orElse (uquote (kconfig c p.pkgv "_REFSPEC")) (p.category c)

end Package

/-- `dir` of the build directory: of a checkout when the makefile was read, and so without a category. -/
def x0statedir : Option BuildDir → List Path
  | none => []
  | some .packages => [["build", "packages_build-" ++ target c]]
  | some .tools => [["build", "tools_build-" ++ target c]]
  | some .toolchain => [["generated", toolchainDir c]]
  | some (.source owner NAME tarball) =>
    if usegit c owner || usesvn c owner then (checkout c owner NAME (uquote (kconfig c owner "_REFSPEC"))).map List.dropLast
    else if tarball then [["build", "tools_build-" ++ target c]] else []

end

/-! ### The state directory -/

/-- The variables of a package in a make process: none of them before its makefile was read. -/
structure Variables where
  NAME : String
  buildDir : Option BuildDir

def Variables.unread : Variables := ⟨"", none⟩

def Package.variables (p : Package) : Variables := ⟨p.NAME, some p.buildDir⟩

def isHidden (file : String) : Bool := hasPrefix "." file

/-- `src/*/<name>.git` -/
def gitPattern (name : String) : Path → Bool
  | ["src", directory, file] => !isHidden directory && file = name ++ ".git"
  | _ => false

/-- `src/*/<name>*.svn` -/
def svnPattern (name : String) : Path → Bool
  | ["src", directory, file] => !isHidden directory && hasPrefix name file && ".svn".toList.isSuffixOf (file.toList.drop name.toList.length)
  | _ => false

/-- Text after words belongs to the last of them. -/
def appendLast (suffix : Path) : List Path → List Path
  | [] => []
  | [word] => [word ++ suffix]
  | word :: rest => word :: appendLast suffix rest

def dotDir (pkgv : String) : String := ".embtk-" ++ pkgv

section
variable (v : Variables) (c : Config) (pkgv : String) (t : FileTree)

/-- `___embtk_pkg_statedir` -/
def statedirParent : List Path :=
  let name := pkgName pkgv v.NAME
  if x0statedir c v.buildDir ≠ [] then x0statedir c v.buildDir
  else if ["build", "packages_build-" ++ target c, dotDir pkgv] ∈ t then [["build", "packages_build-" ++ target c]]
  else if ["build", "tools_build-" ++ target c, dotDir pkgv] ∈ t then [["build", "tools_build-" ++ target c]]
  else if t.wildcard (gitPattern name) ≠ [] then (t.wildcard (gitPattern name)).map List.dropLast
  else (t.wildcard (svnPattern name)).map List.dropLast

def statedir : List Path := appendLast [dotDir pkgv] (statedirParent v c pkgv t)

/-- `$(__embtk_pkg_statedir)/<file>`, which without a state directory is a file of the root directory. -/
def dotFile (file : String) : List Path :=
  if statedir v c pkgv t = [] then [["/", file]] else appendLast [file] (statedir v c pkgv t)

end

/-! ### Recipes -/

inductive Command where
  | mkdir (words : List Path)
  | touch (words : List Path)
  | remove (words : List Path)
  | removeMatching (pattern : Path → Bool)

def Command.apply : Command → FileTree → FileTree
  | .mkdir words, t => words.foldl FileTree.mkdir t
  | .touch words, t => words.foldl FileTree.touch t
  | .remove words, t => t.remove (words.contains ·)
  | .removeMatching pattern, t => t.remove pattern

section
variable (c : Config) (p : Package) (t : FileTree)

/-- `$(__embtk_pkg_builddir)`, if it is a checkout. -/
def sourceBuilddir : List Path :=
  match p.buildDir with
  | .source owner NAME _ => checkout c owner NAME (uquote (kconfig c owner "_REFSPEC"))
  | _ => []

/-- The guarded recipe of `embtk_install_xpkg`, as far as it makes state files or directories below `src`. Without a
build directory it ends at once. -/
def install (configures : Bool) : List Command :=
  if x0statedir c (some p.buildDir) = [] then []
  else [.mkdir (sourceBuilddir c p), .mkdir (checkout c p.pkgv p.NAME (p.refspec c))] ++
    (if configures then [.mkdir (statedir p.variables c p.pkgv t), .touch (dotFile p.variables c p.pkgv t ".embtk.configured")] else []) ++
    [.mkdir (statedir p.variables c p.pkgv t), .touch (dotFile p.variables c p.pkgv t ".embtk.installed"),
     .touch (dotFile p.variables c p.pkgv t ".embtk.kconfig")]

/-- `__embtk_cleanup_pkg` -/
def cleanup : List Command :=
  (if usegit c p.pkgv || usesvn c p.pkgv then
    [.remove (dotFile p.variables c p.pkgv t ".embtk.configured"), .remove (dotFile p.variables c p.pkgv t ".embtk.installed")] else []) ++
  (if statedir p.variables c p.pkgv t ≠ [] then [.remove (statedir p.variables c p.pkgv t)] else [])

end

/-- `rmallpath` -/
def clean (c : Config) : List Command :=
  [.removeMatching fun
    | ["build", file] => hasPrefix ("packages_build-" ++ target c) file || hasPrefix ("tools_build-" ++ target c) file
    | _ => false,
   .remove [["build"]]]

def distclean (c : Config) : List Command :=
  clean c ++ [.removeMatching fun
    | ["src", file] => !isHidden file && (".git".toList.isSuffixOf file.toList || ".svn".toList.isSuffixOf file.toList)
    | _ => false,
   .remove [["generated"]]]

/-! ### Runs -/

/-- What kconfig says of checkouts: only packages that have a symbol for it come from git or svn, and the symbols for
their directory have their defaults. -/
structure KconfigFile extends Config where
  git : ∀ p ∈ packages, usegit toConfig p.pkgv = true → p.vcs = some .git
  svn : ∀ p ∈ packages, usesvn toConfig p.pkgv = true → p.vcs = some .svn
  refspec : ∀ p ∈ packages, usegit toConfig p.pkgv = true ∨ usesvn toConfig p.pkgv = true →
    uquote (kconfig toConfig p.pkgv "_REFSPEC") = p.REFSPEC ∧
      uquote (orElse (kconfig toConfig p.pkgv "_REFSPEC") (kconfig toConfig p.pkgv "_CATEGORY")) = orElse p.REFSPEC p.CATEGORY

/-- A recipe of which so many commands are executed before it ends or is interrupted. -/
inductive Step where
  | install (p : Package) (declared : p ∈ packages) (configures : Bool) (executed : Nat)
  | cleanup (p : Package) (declared : p ∈ packages) (executed : Nat)
  | clean (executed : Nat)
  | distclean (executed : Nat)

def Step.commands (c : Config) (t : FileTree) : Step → List Command
  | .install p _ configures executed => (StateDirs.install c p t configures).take executed
  | .cleanup p _ executed => (StateDirs.cleanup c p t).take executed
  | .clean executed => (StateDirs.clean c).take executed
  | .distclean executed => (StateDirs.distclean c).take executed

def Step.apply (c : Config) (s : Step) (t : FileTree) : FileTree := Script.run Command.apply (s.commands c t) t

/-- The repository, as far down as the patterns reach. -/
def repository : FileTree where
  entries := [[], ["src"], ["src", "devices_table.txt"], ["src", ".gitignore"], ["src", "embtk"], ["src", "embtk", "include"],
    ["src", "makedevs"], ["src", "makedevs", "makedevs.c"], ["src", "mkimage"], ["src", "mkimage", "crc32.c"],
    ["src", "mkimage", "Makefile"], ["src", "mkimage", "mkimage.c"], ["src", "mkimage", "image.h"], ["src", "toolchain"],
    ["src", "toolchain", ".gitignore"], ["src", "rootfs_skel"]] ++
    ["etc", "proc", "mnt", "root", "dev", "sys", "usr", "tmp", "home", "sbin", "lib", "opt", "run", "bin"].map (["src", "rootfs_skel", ·])
  closed := by decide +kernel

/-- The tree after recipes under different configurations. -/
def reach (history : List (KconfigFile × Step)) : FileTree :=
  Script.run (fun run t => run.2.apply run.1.toConfig t) history repository

end EmbToolkit.StateDirs
