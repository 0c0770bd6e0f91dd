import EmbToolkit.Kconfig

/-! What the configuration says about the target: the variables of `targetsys.mk`, `target-mcu.mk`, `arm.mk` and
`mips.mk`, the compiler flags of `vars.mk`, and the directory names that are built from them. -/

namespace EmbToolkit
open MakeText

/-- `$(if $(name),text)` -/
def Config.ifSet (c : Config) (name text : String) : String := if c.isSet name then text else ""

/-- A sequence of assignments `var-$(symbol) := text`: the value of `var-y` afterwards. -/
def Config.choose (c : Config) (choices : List (String × String)) : String :=
  ((choices.filter fun choice => c.isYes choice.1).getLast?.map Prod.snd).getD ""

theorem Config.choose_cases (c : Config) (choices : List (String × String)) :
    c.choose choices = "" ∨ c.choose choices ∈ choices.map Prod.snd := by
  unfold choose
  cases found : (choices.filter fun choice => c.isYes choice.1).getLast? with
  | none => exact .inl rfl
  | some choice =>
    right
    have member := List.mem_of_mem_filter (List.mem_of_getLast? found)
    exact List.mem_map_of_mem member

/-- The last assignment wins. -/
theorem Config.choose_last {c : Config} {symbol : String} (yes : c.isYes symbol = true) (choices : List (String × String)) (text : String) :
    c.choose (choices ++ [(symbol, text)]) = text := by
  simp [choose, List.filter_append, yes]

/-! ### `targetsys.mk` -/

def embtkOs (c : Config) : String := orElse (c.choose [("CONFIG_EMBTK_OS_LINUX", "linux")]) "invalid-os"

def embtkClib (c : Config) : String :=
  orElse (c.choose [("CONFIG_EMBTK_CLIB_EGLIBC", "eglibc"), ("CONFIG_EMBTK_CLIB_GLIBC", "glibc"),
    ("CONFIG_EMBTK_CLIB_MUSL", "musl"), ("CONFIG_EMBTK_CLIB_UCLIBC", "uclibc")]) "invalid-clib"

theorem embtkClib_cases (c : Config) : embtkClib c ∈ ["eglibc", "glibc", "musl", "uclibc", "invalid-clib"] := by
  unfold embtkClib orElse
  split
  next chosen => exact List.mem_append_left ["invalid-clib"] ((c.choose_cases _).resolve_left chosen)
  next => decide

theorem embtkClib_uclibc {c : Config} (yes : c.isYes "CONFIG_EMBTK_CLIB_UCLIBC" = true) : embtkClib c = "uclibc" := by
  have last := Config.choose_last yes [("CONFIG_EMBTK_CLIB_EGLIBC", "eglibc"), ("CONFIG_EMBTK_CLIB_GLIBC", "glibc"),
    ("CONFIG_EMBTK_CLIB_MUSL", "musl")] "uclibc"
  simp only [List.cons_append, List.nil_append] at last
  rw [embtkClib, last]
  decide

def embtkClibVersion (c : Config) : String := pkgVersion c (embtkClib c)

/-! ### The architecture -/

/-- The variables that `arm.mk` or `mips.mk` sets. -/
structure Arch where
  linuxArch : String := ""
  mcuFlag : String := ""
  gnuTarget : String := ""
  strictGnuTarget : String := ""
  gccWithArch : String := ""
  gccWithCpu : String := ""
  gccWithAbi : String := ""
  gccWithFloat : String := ""
  gccWithFpu : String := ""
  floatCflags : String := ""
  mcpu : String := ""
  march : String := ""
  abi : String := ""
  muslDlinker : String := ""
  xtoolsArchos : String := ""
  xtoolsEnv : String := ""
  deriving DecidableEq

/-- `GCC_WITH_FPU-y` -/
def armFpu (c : Config) : String :=
  c.choose [("CONFIG_EMBTK_ARCH_ARM_FPU_VFP", "vfp"), ("CONFIG_EMBTK_ARCH_ARM_FPU_VFPV3", "vfpv3"),
    ("CONFIG_EMBTK_ARCH_ARM_FPU_VFPV3_D16", "vfpv3-d16"), ("CONFIG_EMBTK_ARCH_ARM_FPU_VFPV3_FP16", "vfpv3-fp16"),
    ("CONFIG_EMBTK_ARCH_ARM_FPU_VFPV3_D16FP16", "vfpv3-d16-fp16"), ("CONFIG_EMBTK_ARCH_ARM_FPU_VFPV3_XD", "vfpv3xd"),
    ("CONFIG_EMBTK_ARCH_ARM_FPU_VFPV3_XDFP16", "vfpv3xd-fp16"), ("CONFIG_EMBTK_ARCH_ARM_FPU_VFPV4", "vfpv4"),
    ("CONFIG_EMBTK_ARCH_ARM_FPU_VFPV4_D16", "vfpv4-d16"), ("CONFIG_EMBTK_ARCH_ARM_FPU_FPV4_SPD16", "fpv4-sp-d16"),
    ("CONFIG_EMBTK_ARCH_ARM_FPU_NEON", "neon"), ("CONFIG_EMBTK_ARCH_ARM_FPU_NEON_FP16", "neon-fp16"),
    ("CONFIG_EMBTK_ARCH_ARM_FPU_NEON_VFPV4", "neon-vfpv4")]

/-- `arm.mk` -/
def arm (c : Config) : Arch :=
  let endian := c.ifSet "CONFIG_EMBTK_TARGET_ARCH_BIG_ENDIAN" "eb"
  let gnuabi := c.choose [("CONFIG_EMBTK_CLIB_EGLIBC", "gnueabi"), ("CONFIG_EMBTK_CLIB_GLIBC", "gnueabi")]
  let abi := orElse gnuabi (embtkClib c ++ "eabi") ++ c.ifSet "CONFIG_EMBTK_HARDFLOAT" "hf"
  let mcu := uquote (c.value "CONFIG_EMBTK_ARM_MCU_STRING")
  let float := c.choose [("CONFIG_EMBTK_SOFTFLOAT", "soft"), ("CONFIG_EMBTK_HARDFLOAT", "hard")]
  { linuxArch := "arm"
    mcuFlag := mcu
    gnuTarget := "arm" ++ endian ++ "-" ++ embtkOs c
    strictGnuTarget := "arm" ++ endian ++ "-unknown-" ++ embtkOs c ++ "-" ++ abi
    gccWithCpu := "--with-cpu=" ++ mcu
    gccWithFloat := "--with-float=" ++ float
    gccWithFpu := if armFpu c ≠ "" then "--with-fpu=" ++ armFpu c else ""
    floatCflags := if c.isSet "CONFIG_EMBTK_SOFTFLOAT" then "-mfloat-abi=soft" else "-mfloat-abi=hard"
    mcpu := "-mcpu=" ++ mcu
    muslDlinker := "ld-musl-arm" ++ endian ++ c.ifSet "CONFIG_EMBTK_HARDFLOAT" "hf"
    xtoolsArchos := "arm" ++ endian ++ "-" ++ embtkOs c
    xtoolsEnv := mcu ++ "-" ++ if c.isSet "CONFIG_EMBTK_SOFTFLOAT" then "sf" else "hf" }

/-- One `ifeq` block of `mips.mk`: the symbol, the stems of `GNU_TARGET` and `STRICT_GNU_TARGET`, and
`GNU_TARGET_ARCH`. -/
def mipsBlocks : List (String × String × String × String) :=
  [("CONFIG_EMBTK_ARCH_MIPS_MIPS1", "mips", "mips", "mips1"),
   ("CONFIG_EMBTK_ARCH_MIPS_MIPS2", "mips", "mips", "mips2"),
   ("CONFIG_EMBTK_ARCH_MIPS_MIPS3", "mips64", "mips64", "mips3"),
   ("CONFIG_EMBTK_ARCH_MIPS_MIPS4", "mips64", "mips64", "mips4"),
   ("CONFIG_EMBTK_ARCH_MIPS_MIPS32", "mips", "mipsisa32", "mips32"),
   ("CONFIG_EMBTK_ARCH_MIPS_MIPS32R2", "mips", "mipsisa32r2", "mips32r2"),
   ("CONFIG_EMBTK_ARCH_MIPS_MIPS64", "mips64", "mipsisa64", "mips64"),
   ("CONFIG_EMBTK_ARCH_MIPS_MIPS64R2", "mips64", "mipsisa64r2", "mips64r2"),
   ("CONFIG_EMBTK_ARCH_MIPS_OCTEON", "mips64octeon", "mips64octeon", "octeon"),
   ("CONFIG_EMBTK_ARCH_MIPS_OCTEON_PLUS", "mips64octeon", "mips64octeon", "octeon+"),
   ("CONFIG_EMBTK_ARCH_MIPS_OCTEON2", "mips64octeon", "mips64octeon", "octeon2")]

/-- `mips.mk` -/
def mips (c : Config) : Arch :=
  let endian := c.ifSet "CONFIG_EMBTK_TARGET_ARCH_LITTLE_ENDIAN" "el"
  let abi := orElse (c.choose [("CONFIG_EMBTK_CLIB_EGLIBC", "gnu"), ("CONFIG_EMBTK_CLIB_GLIBC", "gnu")]) (embtkClib c)
  let block := (mipsBlocks.filter fun b => c.isYes b.1).getLast?.map Prod.snd
  let gnuTargetArch := (block.map fun b => b.2.2).getD ""
  let hard := c.isYes "CONFIG_EMBTK_HARDFLOAT"
  let o32 := c.isYes "CONFIG_EMBTK_ARCH_MIPS_ABI_O32"
  let n32 := c.isYes "CONFIG_EMBTK_ARCH_MIPS_ABI_N32"
  { linuxArch := "mips"
    mcuFlag := gnuTargetArch
    gnuTarget := (block.map fun b => b.1 ++ endian ++ "-" ++ embtkOs c).getD ""
    strictGnuTarget := (block.map fun b => b.2.1 ++ endian ++ "-unknown-" ++ embtkOs c ++ "-" ++ abi).getD ""
    gccWithArch := "--with-arch=" ++ gnuTargetArch
    gccWithFloat := if hard then "--with-float=hard" else "--with-float=soft"
    gccWithAbi := if o32 then "--with-abi=32" else if n32 then "--with-abi=n32" else "--with-abi=64"
    floatCflags := if hard then "-mhard-float" else "-msoft-float"
    march := "-march=" ++ gnuTargetArch
    abi := if o32 then "-mabi=32" else if n32 then "-mabi=n32" else "-mabi=64"
    muslDlinker := "ld-musl-mips" ++ endian ++ c.ifSet "CONFIG_EMBTK_SOFTFLOAT" "-sf"
    xtoolsArchos := "mips" ++ c.ifSet "CONFIG_EMBTK_TARGET_ARCH_64BITS" "64" ++ endian ++ "-" ++ embtkOs c
    xtoolsEnv := gnuTargetArch ++ (if hard then "hf" else "sf") ++ "-" ++ if o32 then "o32" else if n32 then "n32" else "n64" }

/-- kconfig makes the two architectures alternatives of one choice. -/
def arch (c : Config) : Arch :=
  if c.isYes "CONFIG_EMBTK_ARCH_MIPS" then mips c else if c.isYes "CONFIG_EMBTK_ARCH_ARM" then arm c else {}

/-! ### `vars.mk` -/

def clangCflags : String := "-Qunused-arguments"

/-- `TARGET_CFLAGS` -/
def targetCflags (c : Config) : String :=
  strip (unwords [subst "\"" "" (strip (c.value "CONFIG_EMBTK_TARGET_COMPILER_CFLAGS")),
    c.ifSet "CONFIG_EMBTK_TARGET_NONE_OPTIMIZED" "-O0", c.ifSet "CONFIG_EMBTK_TARGET_SIZE_OPTIMIZED" "-Os",
    c.ifSet "CONFIG_EMBTK_TARGET_SPEED_OPTIMIZED" "-O2", c.ifSet "CONFIG_EMBTK_TARGET_WITH_DEBUG_DATA" "-g",
    c.ifSet "CONFIG_EMBTK_LLVM_ONLY_TOOLCHAIN" clangCflags, c.ifSet "CONFIG_EMBTK_LLVM_DEFAULT_TOOLCHAIN" clangCflags])

/-- `$(filter-out $(__clang_cflags),$(TARGET_CFLAGS))`, also the value of `TARGET_CXXFLAGS`. -/
def targetCxxflags (c : Config) : String := unwords ((words (targetCflags c)).filter (· ≠ clangCflags))

def libdir (c : Config) : String := if c.isSet "CONFIG_EMBTK_64BITS_FS_COMPAT32" then "lib32" else "lib"

/-! ### Directory names -/

/-- The suffix `$(GNU_TARGET)-$(EMBTK_MCU_FLAG)` of `embtk_sysroot`, `embtk_tools`, `embtk_toolsb` and `embtk_pkgb`. -/
def target (c : Config) : String := (arch c).gnuTarget ++ "-" ++ (arch c).mcuFlag

/-- `embtk_sysroot`, below `embtk_generated` -/
def embtkSysroot (c : Config) : String := "sysroot-" ++ target c

/-- `embtk_tools`, below `embtk_generated` -/
def embtkTools (c : Config) : String := "tools-" ++ target c

/-- `__xtools_compiler-y` -/
def xtoolsCompiler (c : Config) : String :=
  c.choose [("CONFIG_EMBTK_LLVM_ONLY_TOOLCHAIN", "clangllvm-" ++ pkgVersion c "llvm_host"),
    ("CONFIG_EMBTK_LLVM_DEFAULT_TOOLCHAIN", "clangllvm-" ++ pkgVersion c "llvm_host"),
    ("CONFIG_EMBTK_GCC_ONLY_TOOLCHAIN", "gcc-" ++ pkgVersion c "gcc"),
    ("CONFIG_EMBTK_GCC_DEFAULT_TOOLCHAIN", "gcc-" ++ pkgVersion c "gcc")]

/-- `__xtools_bins` -/
def xtoolsBins (c : Config) : String := xtoolsCompiler c ++ "-" ++ embtkClib c ++ "-" ++ embtkClibVersion c

/-- `TOOLCHAIN_DIR`, without the path of the toolchains directory. -/
def toolchainDir (c : Config) : String :=
  "toolchain-" ++ (arch c).xtoolsArchos ++ "-" ++ xtoolsBins c ++ "-" ++ (arch c).xtoolsEnv

end EmbToolkit
