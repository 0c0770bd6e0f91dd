import EmbToolkit.Menus.Symbols
import EmbToolkit.Library.Spelling

/-! The part of the Kconfig tree above the packages: the target's architecture and core, the toolchain with the
versions of its components, and the toolchain addons. -/

namespace EmbToolkit.Menus
open Menu

/-- A component whose name or option in the make files is spelled by a choice, and when it is part of the configuration. -/
structure Component where
  enabled : Expr Symbol
  spelling : Spelling Symbol

def member (name : Symbol) : Entry Symbol := { name, prompted := true }

/-- `default "text" if EMBTK_<PKG>_VERSION_<release>` -/
def versionDefaults (pkg : Pkg) (lines : List (String × String)) : List (String × Expr Symbol) :=
  lines.map fun line => (line.1, .symbol (.version pkg line.2))

/-- The version choice of a component and its `_VERSION_STRING`, under the blocks `within`. The choice, and not the
string, depends on the component. -/
def released (pkg : Pkg) (within : List (Expr Symbol)) (enabled : Expr Symbol) (members : List String)
    (lines : List (String × String)) : Component :=
  { enabled
    spelling :=
      { name := .versionString pkg
        outer := { depends := within ++ [enabled], members := members.map fun release => member (.version pkg release) }
        strings := [{ name := .versionString pkg, depends := within, defaults := versionDefaults pkg lines }] } }

/-! ### `arch.kconfig`, `arm.kconfig` and `mips.kconfig` -/

def osChoice : Choice Symbol := { depends := [], members := [member Setting.osLinux] }

def archChoice : Choice Symbol := { depends := [], members := [member Setting.archArm, member Setting.archMips] }

/-- The choice of a core within a family. -/
def coreChoice (family : ArmFamily) (cores : List ArmCore) : Choice Symbol :=
  { depends := [Setting.archArm, Symbol.armFamily family], members := cores.map fun core => member (.armCore core) }

def armFamilies : Choice Symbol :=
  { depends := [Setting.archArm, Setting.archArm]
    members := [.arm7tdmi, .strongarm, .arm8, .arm9tdmi, .arm9e, .arm10e, .xscale, .arm11, .cortex, .iwmmxt].map fun family =>
      member (.armFamily family) }

def armCores : List (Choice Symbol) :=
  [coreChoice .arm7tdmi [.arm7tdmi, .arm710t, .arm720t], coreChoice .strongarm [.sa, .sa110, .sa1100, .sa1110],
   coreChoice .arm8 [.arm810], coreChoice .arm9tdmi [.arm9tdmi, .arm920t, .arm922t], coreChoice .arm9e [.arm926ejs],
   coreChoice .arm10e [.arm1020e, .arm1022e, .arm1026ejs], coreChoice .xscale [.xscale],
   coreChoice .arm11 [.arm1136js, .arm1136jfs, .arm1156t2s, .arm1176jzs, .arm1176jzfs, .mpcore],
   coreChoice .cortex [.cortexA5, .cortexA7, .cortexA8, .cortexA9, .cortex12, .cortexA15],
   coreChoice .iwmmxt [.iwmmxt, .iwmmxt2]]

/-- The prompts of the cores. -/
def corePrompts : List (Symbol × String) :=
  [(.armCore .arm7tdmi, "arm7tdmi"), (.armCore .arm710t, "arm710t"), (.armCore .arm720t, "arm720t"),
   (.armCore .sa, "strongarm"), (.armCore .sa110, "strongarm110"),
   (.armCore .sa1100, "strongarm1100"), (.armCore .sa1110, "strongarm1110"),
   (.armCore .arm810, "arm810"), (.armCore .arm9tdmi, "arm9tdmi"), (.armCore .arm920t, "arm920t"),
   (.armCore .arm922t, "arm922t"), (.armCore .arm926ejs, "arm926ej-s"),
   (.armCore .arm1020e, "arm1020e"), (.armCore .arm1022e, "arm1022e"),
   (.armCore .arm1026ejs, "arm1026ej-s"), (.armCore .xscale, "xscale"),
   (.armCore .arm1136js, "arm1136j-s"), (.armCore .arm1136jfs, "arm1136jf-s"),
   (.armCore .arm1156t2s, "arm1156t2-s"), (.armCore .arm1176jzs, "arm1176jz-s"),
   (.armCore .arm1176jzfs, "arm1176jzf-s"), (.armCore .mpcore, "mpcore"),
   (.armCore .cortexA5, "cortex-a5"), (.armCore .cortexA7, "cortex-a7"),
   (.armCore .cortexA8, "cortex-a8"), (.armCore .cortexA9, "cortex-a9"),
   (.armCore .cortex12, "cortex-a12"), (.armCore .cortexA15, "cortex-a15"),
   (.armCore .iwmmxt, "iwmmxt"), (.armCore .iwmmxt2, "iwmmxt2")]

/-- `EMBTK_ARM_MCU_STRING` -/
def mcuString : Entry Symbol :=
  { name := Setting.armMcuString
    depends := [Setting.archArm, Setting.archArm]
    defaults := [("arm7tdmi", Symbol.armCore .arm7tdmi), ("arm710t", Symbol.armCore .arm710t),
      ("arm720t", Symbol.armCore .arm720t), ("strongarm", Symbol.armCore .sa),
      ("strongarm110", Symbol.armCore .sa110), ("strongarm1100", Symbol.armCore .sa1100),
      ("strongarm1110", Symbol.armCore .sa1110), ("arm810", Symbol.armCore .arm810),
      ("arm9tdmi", Symbol.armCore .arm9tdmi), ("arm920t", Symbol.armCore .arm920t),
      ("arm922t", Symbol.armCore .arm922t), ("arm926ej-s", Symbol.armCore .arm926ejs),
      ("arm1020e", Symbol.armCore .arm1020e), ("arm1022e", Symbol.armCore .arm1022e),
      ("arm1026ej-s", Symbol.armCore .arm1026ejs), ("xscale", Symbol.armCore .xscale),
      ("arm1136j-s", Symbol.armCore .arm1136js), ("arm1136jf-s", Symbol.armCore .arm1136jfs),
      ("arm1156t2-s", Symbol.armCore .arm1156t2s), ("arm1176jz-s", Symbol.armCore .arm1176jzs),
      ("arm1176jzf-s", Symbol.armCore .arm1176jzfs), ("mpcore", Symbol.armCore .mpcore),
      ("cortex-a5", Symbol.armCore .cortexA5), ("cortex-a7", Symbol.armCore .cortexA7),
      ("cortex-a8", Symbol.armCore .cortexA8), ("cortex-a9", Symbol.armCore .cortexA9),
      ("cortex-a12", Symbol.armCore .cortexA12), ("cortex-a15", Symbol.armCore .cortexA15),
      ("iwmmxt", Symbol.armCore .iwmmxt), ("iwmmxt2", Symbol.armCore .iwmmxt2)] }

def armMcu : Component :=
  { enabled := Setting.archArm
    spelling := { name := Setting.armMcuString, outer := armFamilies, inner := armCores, strings := [mcuString] } }

def mipsVariants : Choice Symbol :=
  { depends := [Setting.archMips, Setting.archMips]
    members := ["MIPS1", "MIPS2", "MIPS3", "MIPS4", "MIPS32", "MIPS32R2", "MIPS64", "MIPS64R2", "OCTEON", "OCTEON_PLUS",
      "OCTEON2"].map fun variant => member (.mips variant) }

/-- The members of the choices that settle the target core. -/
def targetCores : List (Entry Symbol) := armMcu.spelling.leaves ++ mipsVariants.entries

/-- The target core that is chosen. -/
def targetCore (v : Values Symbol) : Option Symbol := (targetCores.find? fun m => v.on m.name).map Entry.name

/-! ### `toolchain.kconfig` and what it includes -/

/-- The targets that the toolchain can build llvm for. -/
def llvmTarget : Expr Symbol := .or Setting.archArm (.and Setting.archMips Setting.target32bits)

def compilerChoice : Choice Symbol :=
  { depends := []
    members := [member Setting.gccOnly, { member Setting.llvmOnly with depends := [llvmTarget] },
      { member Setting.gccAndLlvm with depends := [llvmTarget] }] }

def llvmUsed : Expr Symbol := .or Setting.llvmOnly Setting.gccAndLlvm

def gcc : Component :=
  { enabled := Symbol.has .gcc
    spelling :=
      { name := .versionString .gcc
        outer := { depends := [Symbol.has .gcc], members := ["4_9_X", "4_8_X", "4_7_X", "GIT"].map fun series => member (.version .gcc series) }
        inner := [("4_9_X", "4_9_2"), ("4_8_X", "4_8_3"), ("4_7_X", "4_7_4")].map fun series =>
          { depends := [Symbol.version .gcc series.1], members := [member (.version .gcc series.2)] }
        strings := [{ name := .versionString .gcc
                      defaults := versionDefaults .gcc [("4.9.2", "4_9_2"), ("4.8.3", "4_8_3"), ("4.7.4", "4_7_4"), ("git", "GIT")] }] } }

/-- `clang-llvm.kconfig`: one choice sets the versions of both. -/
def llvmChoice : Choice Symbol :=
  { depends := [llvmUsed]
    members := ["3_4_1", "3_3", "GIT"].map fun release =>
      { member (.version .clang_host_llvm_host release) with
        selects := [(.version .llvm_host release, .yes), (.version .clang_host release, .yes)] } }

def llvmHost : Component :=
  { enabled := llvmUsed
    spelling :=
      { name := .versionString .llvm_host
        outer := llvmChoice
        strings := [{ name := .versionString .llvm_host, depends := [llvmUsed]
                      defaults := versionDefaults .llvm_host [("3.4.1", "3_4_1"), ("3.3", "3_3"), ("git", "GIT")] }] } }

def clangHost : Component :=
  { enabled := llvmUsed
    spelling :=
      { name := .versionString .clang_host
        outer := llvmChoice
        strings := [{ name := .versionString .clang_host, depends := [llvmUsed]
                      defaults := versionDefaults .clang_host [("3.4.1", "3_4_1"), ("3.2", "3_2"), ("git", "GIT")] }] } }

def libcxx : Component := released .libcxx [] (Symbol.has .libcxx) ["GIT"] [("git", "GIT")]

def clibChoice : Choice Symbol :=
  { depends := []
    members := [member Setting.clibEglibc, member Setting.clibGlibc,
      { member Setting.clibMusl with
        depends := [.and Setting.target32bits (.or (Symbol.version .gcc "4_8_X") (Symbol.version .gcc "4_9_X"))] },
      member Setting.clibUclibc] }

def eglibc : Component :=
  released .eglibc [Setting.clibEglibc] Setting.clibEglibc ["2_19", "2_17", "TRUNK"]
    [("2.19", "2_19"), ("2.17", "2_17"), ("trunk", "TRUNK")]

/-- `EMBTK_EGLIBC_SVN_BRANCH`, which names the local checkout. -/
def eglibcBranch : Component :=
  { enabled := Setting.clibEglibc
    spelling :=
      { name := Setting.eglibcSvnBranch
        outer := eglibc.spelling.outer
        strings := [{ name := Setting.eglibcSvnBranch, depends := [Setting.clibEglibc]
                      defaults := versionDefaults .eglibc
                        [("branches/eglibc-2_19", "2_19"), ("branches/eglibc-2_17", "2_17"), ("trunk", "TRUNK")] }] } }

def glibc : Component := released .glibc [Setting.clibGlibc] Setting.clibGlibc ["2_19", "2_17"] [("2.19", "2_19"), ("2.17", "2_17")]

def musl : Component := released .musl [Setting.clibMusl] Setting.clibMusl ["1_1_5", "GIT"] [("1.1.5", "1_1_5"), ("git", "GIT")]

def uclibc : Component :=
  released .uclibc [Setting.clibUclibc] Setting.clibUclibc ["0_9_33_2", "GIT"] [("0.9.33.2", "0_9_33_2"), ("git", "GIT")]

def binutils : Component :=
  released .binutils [] (Symbol.has .binutils) ["2_24", "2_23_2", "GIT"] [("2.24", "2_24"), ("2.23.2", "2_23_2")]

/-- One file of `linux-kconfigs`: the series, its release, the text, and whether the default names the release. -/
structure LinuxSeries where
  series : String
  release : String
  text : String
  named : Bool := false

def linuxSeries : List LinuxSeries :=
  [⟨"3_16_X", "3_16_7", "3.16.7", false⟩, ⟨"3_15_X", "3_15_10", "3.15.10", false⟩, ⟨"3_14_X", "3_14_24", "3.14.24", false⟩,
   ⟨"3_13_X", "3_13_11", "3.13.11", false⟩, ⟨"3_12_X", "3_12_32", "3.12.32", false⟩, ⟨"3_11_X", "3_11_10", "3.11.10", false⟩,
   ⟨"3_10_X", "3_10_60", "3.10.60", false⟩, ⟨"3_9_X", "3_9_11", "3.9.11", false⟩, ⟨"3_8_X", "3_8_13", "3.8.13", false⟩,
   ⟨"3_7_X", "3_7_10", "3.7.10", false⟩, ⟨"3_6_X", "3_6_11", "3.6.11", false⟩, ⟨"3_5_X", "3_5_7", "3.5.7", false⟩,
   ⟨"3_4_X", "3_4_104", "3.4.104", false⟩, ⟨"3_3_X", "3_3_8", "3.3.8", true⟩, ⟨"3_2_X", "3_2_64", "3.2.64", false⟩,
   ⟨"3_1_X", "3_1_10", "3.1.10", true⟩, ⟨"3_0_X", "3_0_101", "3.0.101", false⟩, ⟨"2_6_39_X", "2_6_39_4", "2.6.39.4", true⟩,
   ⟨"2_6_38_X", "2_6_38_8", "2.6.38.8", true⟩, ⟨"2_6_37_X", "2_6_37_6", "2.6.37.6", true⟩,
   ⟨"2_6_36_X", "2_6_36_4", "2.6.36.4", true⟩, ⟨"2_6_35_X", "2_6_35_14", "2.6.35.14", true⟩,
   ⟨"2_6_34_X", "2_6_34_15", "2.6.34.15", false⟩, ⟨"2_6_33_X", "2_6_33_20", "2.6.33.20", true⟩,
   ⟨"2_6_32_X", "2_6_32_63", "2.6.32.63", false⟩]

def linux : Component :=
  { enabled := .yes
    spelling :=
      { name := .versionString .linux
        outer := { depends := [], members := linuxSeries.map fun s => member (.version .linux s.series) }
        inner := linuxSeries.map fun s =>
          { depends := [Symbol.version .linux s.series], members := [member (.version .linux s.release)] }
        strings := linuxSeries.map fun s =>
          { name := .versionString .linux, depends := [Symbol.version .linux s.series]
            defaults := [(s.text, if s.named then Symbol.version .linux s.release else .yes)] } } }

/-! ### Toolchain addons and host tools -/

def gdb : Component := released .gdb [] Setting.gdbSystem ["7_8_1", "7_7_1"] [("7.8.1", "7_8_1"), ("7.7.1", "7_7_1")]

def ltrace : Component := released .ltrace [] (Symbol.has .ltrace) ["0_8", "GIT"] [("embtk-pre0.8", "0_8"), ("git", "GIT")]

def strace : Component := released .strace [] (Symbol.has .strace) ["4_9", "GIT"] [("embtk-4.9", "4_9"), ("git", "GIT")]

def libuuidHost : Component :=
  released .e2fsprogs_libuuid_host [] (Symbol.hostHas .e2fsprogs_libuuid) ["1_42_12"] [("1.42.12", "1_42_12")]

def targetComponents : List Component :=
  [armMcu, gcc, llvmHost, clangHost, libcxx, eglibc, eglibcBranch, glibc, musl, uclibc, binutils, linux, gdb, ltrace,
   strace, libuuidHost]

/-- A symbol without a prompt, which only defaults and other symbols set. -/
def helper (name : Symbol) : Block Symbol := .bool { name }

/-- A symbol without a prompt that is set by default. -/
def always (name : Symbol) (depends : List (Expr Symbol)) : Block Symbol := .bool { name, depends, defaults := [("y", .yes)] }

def targetBlocks : List (Block Symbol) :=
  [.choice osChoice, .choice archChoice, .choice mipsVariants, .choice compilerChoice, .choice clibChoice,
   always (.has .gcc) [], always (.hostHas .llvm) [llvmUsed], always (.hostHas .clang) [llvmUsed],
   helper (.version .llvm_host "3_4_1"), helper (.version .llvm_host "3_3"), helper (.version .llvm_host "GIT"),
   helper (.version .clang_host "3_4_1"), helper (.version .clang_host "3_3"), helper (.version .clang_host "GIT"),
   always (.has .libcxx) [Setting.libcxx], always (.has .libcxxrt) [Setting.libcxx], always (.has .binutils) [],
   .bool { name := Setting.predepGperf, defaults := [("y", Setting.eglibcLocaleCode)], selects := [(.hostHas .gperf, .yes)] },
   .bool { name := Setting.gdbSystem, prompted := true, selects := [(.has .ncurses, .yes)] },
   .bool { name := .has .gdbserver, prompted := true, depends := [Setting.gdbSystem] },
   .bool { name := .has .gdb, prompted := true, depends := [Setting.gdbSystem] },
   helper (.has .ncurses),
   .bool { name := .has .ltrace, prompted := true, depends := [Setting.osLinux, Setting.archArm], selects := [(.has .libelf, .yes)] },
   .bool { name := .has .strace, prompted := true },
   .bool { name := .has .mkimage, defaults := [("y", .yes)], selects := [(.hostHas .zlib, .yes)] },
   .bool { name := .hostHas .mtdutils
           selects := [(.hostHas .e2fsprogs_libuuid, .yes), (.hostHas .zlib, .yes), (.hostHas .lzo, .yes)] },
   always (.hostHas .gmp) [], always (.hostHas .mpfr) [], always (.hostHas .mpc) [],
   helper (.hostHas .e2fsprogs_libuuid), helper (.hostHas .gettext), helper (.hostHas .gperf), helper (.hostHas .libelf),
   helper (.hostHas .zlib),
   .bool { name := Setting.buildLinuxKernel, prompted := true, depends := [Setting.osLinux]
           selects := [(.hostHas .libelf, .equals Setting.hostOs "macos")] },
   .bool { name := Setting.rootfs, prompted := true, defaults := [("y", .yes)] }]

end EmbToolkit.Menus
