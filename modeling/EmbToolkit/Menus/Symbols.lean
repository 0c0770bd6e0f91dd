import EmbToolkit.Kconfig
import EmbToolkit.Library.Menu

/-! The symbols of the Kconfig tree that the architecture, the version strings and the packages are made of, and the
values that a `.config` gives them. -/

namespace EmbToolkit.Menus

/-- The components with symbols of their own. -/
inductive Pkg
  | gcc | llvm | llvm_host | clang | clang_host | clang_host_llvm_host | libcxx | libcxxrt | eglibc | glibc | musl | uclibc
  | binutils | linux | gdbserver | gdb | ncurses | ltrace | strace | mkimage | gettext | gperf | gmp | mpfr | mpc
  | e2fsprogs_libuuid | e2fsprogs_libuuid_host | mtdutils | libelf | zlib | squashfs | bb | alsa_lib | ladspa | libsndfile
  | libsamplerate | lilv | lv2 | jack2 | bzip2 | lzo | sqlite | atf | boost | fftw | gettext_intl | glibmm | gtest | icu | kyua
  | libbsd | libevent | libnih | libsigcpp | libsigsegv | libunwind | openblas | popt | atk | cairo | directfb | fontconfig
  | freetype | gdkpixbuf | gtk | imlib2 | libjpeg | libpng | pango | pixman | libtiff | freefont_ttf | armadillo | fcgi
  | iptables | libnl | libpcap | librsync | libtirpc | tcpdump | lua | cgilua | lutok | luafilesystem | rings | dropbear
  | libressl | dbus | libxml2 | lrdf | raptor | expat | glib | intltool | serd | sord | sratom | tslib | utilmacros | xcbutil
  | bigreqsproto | compositeproto | damageproto | fixesproto | fontsproto | inputproto | kbproto | randrproto | recordproto
  | renderproto | resourceproto | videoproto | xcbproto | xcmiscproto | xextproto | xproto | libfontenc | libpciaccess
  | libpthreadstubs | libx11 | libxau | libxi | libxcb | libxcomposite | libxext | libxfixes | libxfont | libxft | libxkbfile
  | libxrandr | libxrender | xinput | xkeyboardconfig | xkbcomp | xtrans | xserver | xf86inputevdev | xf86videofbdev
  deriving DecidableEq

/-- `<PKG>` -/
def Pkg.name : Pkg → String
  | .gcc => "GCC" | .llvm => "LLVM" | .llvm_host => "LLVM_HOST" | .clang => "CLANG" | .clang_host => "CLANG_HOST"
  | .clang_host_llvm_host => "CLANG_HOST_LLVM_HOST" | .libcxx => "LIBCXX" | .libcxxrt => "LIBCXXRT" | .eglibc => "EGLIBC"
  | .glibc => "GLIBC" | .musl => "MUSL" | .uclibc => "UCLIBC" | .binutils => "BINUTILS" | .linux => "LINUX"
  | .gdbserver => "GDBSERVER" | .gdb => "GDB" | .ncurses => "NCURSES" | .ltrace => "LTRACE" | .strace => "STRACE"
  | .mkimage => "MKIMAGE" | .gettext => "GETTEXT" | .gperf => "GPERF" | .gmp => "GMP" | .mpfr => "MPFR" | .mpc => "MPC"
  | .e2fsprogs_libuuid => "E2FSPROGS-LIBUUID" | .e2fsprogs_libuuid_host => "E2FSPROGS-LIBUUID_HOST" | .mtdutils => "MTDUTILS"
  | .libelf => "LIBELF" | .zlib => "ZLIB" | .squashfs => "SQUASHFS" | .bb => "BB" | .alsa_lib => "ALSA-LIB" | .ladspa => "LADSPA"
  | .libsndfile => "LIBSNDFILE" | .libsamplerate => "LIBSAMPLERATE" | .lilv => "LILV" | .lv2 => "LV2" | .jack2 => "JACK2"
  | .bzip2 => "BZIP2" | .lzo => "LZO" | .sqlite => "SQLITE" | .atf => "ATF" | .boost => "BOOST" | .fftw => "FFTW"
  | .gettext_intl => "GETTEXT-INTL" | .glibmm => "GLIBMM" | .gtest => "GTEST" | .icu => "ICU" | .kyua => "KYUA"
  | .libbsd => "LIBBSD" | .libevent => "LIBEVENT" | .libnih => "LIBNIH" | .libsigcpp => "LIBSIGCPP" | .libsigsegv => "LIBSIGSEGV"
  | .libunwind => "LIBUNWIND" | .openblas => "OPENBLAS" | .popt => "POPT" | .atk => "ATK" | .cairo => "CAIRO"
  | .directfb => "DIRECTFB" | .fontconfig => "FONTCONFIG" | .freetype => "FREETYPE" | .gdkpixbuf => "GDKPIXBUF" | .gtk => "GTK"
  | .imlib2 => "IMLIB2" | .libjpeg => "LIBJPEG" | .libpng => "LIBPNG" | .pango => "PANGO" | .pixman => "PIXMAN"
  | .libtiff => "LIBTIFF" | .freefont_ttf => "FREEFONT_TTF" | .armadillo => "ARMADILLO" | .fcgi => "FCGI"
  | .iptables => "IPTABLES" | .libnl => "LIBNL" | .libpcap => "LIBPCAP" | .librsync => "LIBRSYNC" | .libtirpc => "LIBTIRPC"
  | .tcpdump => "TCPDUMP" | .lua => "LUA" | .cgilua => "CGILUA" | .lutok => "LUTOK" | .luafilesystem => "LUAFILESYSTEM"
  | .rings => "RINGS" | .dropbear => "DROPBEAR" | .libressl => "LIBRESSL" | .dbus => "DBUS" | .libxml2 => "LIBXML2"
  | .lrdf => "LRDF" | .raptor => "RAPTOR" | .expat => "EXPAT" | .glib => "GLIB" | .intltool => "INTLTOOL" | .serd => "SERD"
  | .sord => "SORD" | .sratom => "SRATOM" | .tslib => "TSLIB" | .utilmacros => "UTILMACROS" | .xcbutil => "XCBUTIL"
  | .bigreqsproto => "BIGREQSPROTO" | .compositeproto => "COMPOSITEPROTO" | .damageproto => "DAMAGEPROTO"
  | .fixesproto => "FIXESPROTO" | .fontsproto => "FONTSPROTO" | .inputproto => "INPUTPROTO" | .kbproto => "KBPROTO"
  | .randrproto => "RANDRPROTO" | .recordproto => "RECORDPROTO" | .renderproto => "RENDERPROTO"
  | .resourceproto => "RESOURCEPROTO" | .videoproto => "VIDEOPROTO" | .xcbproto => "XCBPROTO" | .xcmiscproto => "XCMISCPROTO"
  | .xextproto => "XEXTPROTO" | .xproto => "XPROTO" | .libfontenc => "LIBFONTENC" | .libpciaccess => "LIBPCIACCESS"
  | .libpthreadstubs => "LIBPTHREADSTUBS" | .libx11 => "LIBX11" | .libxau => "LIBXAU" | .libxi => "LIBXI" | .libxcb => "LIBXCB"
  | .libxcomposite => "LIBXCOMPOSITE" | .libxext => "LIBXEXT" | .libxfixes => "LIBXFIXES" | .libxfont => "LIBXFONT"
  | .libxft => "LIBXFT" | .libxkbfile => "LIBXKBFILE" | .libxrandr => "LIBXRANDR" | .libxrender => "LIBXRENDER"
  | .xinput => "XINPUT" | .xkeyboardconfig => "XKEYBOARDCONFIG" | .xkbcomp => "XKBCOMP" | .xtrans => "XTRANS"
  | .xserver => "XSERVER" | .xf86inputevdev => "XF86INPUTEVDEV" | .xf86videofbdev => "XF86VIDEOFBDEV"

/-- The families of `arm.kconfig`. -/
inductive ArmFamily
  | arm7tdmi | strongarm | arm8 | arm9tdmi | arm9e | arm10e | xscale | arm11 | cortex | iwmmxt
  deriving DecidableEq

def ArmFamily.name : ArmFamily → String
  | .arm7tdmi => "ARM7TDMI" | .strongarm => "STRONGARM" | .arm8 => "ARM8" | .arm9tdmi => "ARM9TDMI" | .arm9e => "ARM9E"
  | .arm10e => "ARM10E" | .xscale => "XSCALE" | .arm11 => "ARM11" | .cortex => "CORTEX" | .iwmmxt => "IWMMXT"

/-- The cores that `arm.kconfig` names, in its choices or its defaults. -/
inductive ArmCore
  | arm7tdmi | arm710t | arm720t | sa | sa110 | sa1100 | sa1110 | arm810 | arm9tdmi | arm920t | arm922t | arm926ejs | arm1020e
  | arm1022e | arm1026ejs | xscale | arm1136js | arm1136jfs | arm1156t2s | arm1176jzs | arm1176jzfs | mpcore | cortexA5
  | cortexA7 | cortexA8 | cortexA9 | cortex12 | cortexA12 | cortexA15 | iwmmxt | iwmmxt2
  deriving DecidableEq

def ArmCore.family : ArmCore → ArmFamily
  | .arm7tdmi | .arm710t | .arm720t => .arm7tdmi
  | .sa | .sa110 | .sa1100 | .sa1110 => .strongarm
  | .arm810 => .arm8
  | .arm9tdmi | .arm920t | .arm922t => .arm9tdmi
  | .arm926ejs => .arm9e
  | .arm1020e | .arm1022e | .arm1026ejs => .arm10e
  | .xscale => .xscale
  | .arm1136js | .arm1136jfs | .arm1156t2s | .arm1176jzs | .arm1176jzfs | .mpcore => .arm11
  | .cortexA5 | .cortexA7 | .cortexA8 | .cortexA9 | .cortex12 | .cortexA12 | .cortexA15 => .cortex
  | .iwmmxt | .iwmmxt2 => .iwmmxt

def ArmCore.name : ArmCore → String
  | .arm7tdmi => "ARM7TDMI" | .arm710t => "ARM710T" | .arm720t => "ARM720T" | .sa => "SA" | .sa110 => "SA-110"
  | .sa1100 => "SA-1100" | .sa1110 => "SA-1110" | .arm810 => "ARM810" | .arm9tdmi => "ARM9TDMI" | .arm920t => "ARM920T"
  | .arm922t => "ARM922T" | .arm926ejs => "ARM926EJ-S" | .arm1020e => "ARM1020E" | .arm1022e => "ARM1022E"
  | .arm1026ejs => "ARM1026EJ-S" | .xscale => "XSCALE" | .arm1136js => "ARM1136J-S" | .arm1136jfs => "ARM1136JF-S"
  | .arm1156t2s => "ARM1156T2-S" | .arm1176jzs => "ARM1176JZ-S" | .arm1176jzfs => "ARM1176JZF-S" | .mpcore => "MPCORE"
  | .cortexA5 => "CORTEX-A5" | .cortexA7 => "CORTEX-A7" | .cortexA8 => "CORTEX-A8" | .cortexA9 => "CORTEX-A9"
  | .cortex12 => "CORTEX-12" | .cortexA12 => "CORTEX-A12" | .cortexA15 => "CORTEX-A15" | .iwmmxt => "IWMMXT"
  | .iwmmxt2 => "IWMMXT2"

/-- The symbols outside the families of names. -/
inductive Setting
  | osLinux | archArm | archMips | target32bits | armMcuString | hardfloat
  | gccOnly | llvmOnly | gccAndLlvm | libcxx | clibEglibc | clibGlibc | clibMusl | clibUclibc | eglibcSvnBranch
  | eglibcLocaleCode | predepGperf | gdbSystem | buildLinuxKernel | hostOs
  | rootfs | rootfsJffs2 | rootfsSquashfs
  | jack2WithAlsa | boostWithIcu | directfbInputTslib | cairoWithDirectfb | cairoWithLibxcb | pangoWithX
  | gtkBackendXserver | gtkBackendDirectfb | xserverXorg | xserverKdrive | xserverWithTslib
  | embkHaveZlib | embkHostHaveZlib
  deriving DecidableEq

def Setting.name : Setting → String
  | .osLinux => "EMBTK_OS_LINUX" | .archArm => "EMBTK_ARCH_ARM" | .archMips => "EMBTK_ARCH_MIPS"
  | .target32bits => "EMBTK_TARGET_ARCH_32BITS" | .armMcuString => "EMBTK_ARM_MCU_STRING" | .hardfloat => "EMBTK_HARDFLOAT"
  | .gccOnly => "EMBTK_GCC_ONLY_TOOLCHAIN" | .llvmOnly => "EMBTK_LLVM_ONLY_TOOLCHAIN"
  | .gccAndLlvm => "EMBTK_GCC_AND_LLVM_TOOLCHAIN" | .libcxx => "EMBTK_CXXLIB_LLVM_HOST_LIBCXX"
  | .clibEglibc => "EMBTK_CLIB_EGLIBC" | .clibGlibc => "EMBTK_CLIB_GLIBC" | .clibMusl => "EMBTK_CLIB_MUSL"
  | .clibUclibc => "EMBTK_CLIB_UCLIBC" | .eglibcSvnBranch => "EMBTK_EGLIBC_SVN_BRANCH"
  | .eglibcLocaleCode => "KEMBTK_EGLIBC_OPTION_EGLIBC_LOCALE_CODE" | .predepGperf => "EMBTK_TOOLCHAIN_PREDEP_GPERF_HOST"
  | .gdbSystem => "EMBTK_HAVE_GDB_SYSTEM" | .buildLinuxKernel => "EMBTK_BUILD_LINUX_KERNEL" | .hostOs => "EMBTK_HOST_OS"
  | .rootfs => "EMBTK_HAVE_ROOTFS" | .rootfsJffs2 => "EMBTK_ROOTFS_HAVE_JFFS2" | .rootfsSquashfs => "EMBTK_ROOTFS_HAVE_SQUASHFS"
  | .jack2WithAlsa => "EMBTK_JACK2_WITH_ALSA" | .boostWithIcu => "EMBTK_BOOST_WITH_ICU"
  | .directfbInputTslib => "EMBTK_DIRECTFB_INPUT_TSLIB" | .cairoWithDirectfb => "EMBTK_HAVE_CAIRO_WITH_DIRECTFB"
  | .cairoWithLibxcb => "EMBTK_HAVE_CAIRO_WITH_LIBXCB" | .pangoWithX => "EMBTK_HAVE_PANGO_WITH_X"
  | .gtkBackendXserver => "EMBTK_GTK_BACKEND_XSERVER" | .gtkBackendDirectfb => "EMBTK_GTK_BACKEND_DIRECTFB"
  | .xserverXorg => "EMBTK_HAVE_XSERVER_XORG" | .xserverKdrive => "EMBTK_HAVE_XSERVER_KDRIVE"
  | .xserverWithTslib => "EMBTK_HAVE_XSERVER_WITH_TSLIB"
  | .embkHaveZlib => "EMBK_HAVE_ZLIB" | .embkHostHaveZlib => "EMBK_HOST_HAVE_ZLIB"

inductive Symbol
  | has (pkg : Pkg)
  | hostHas (pkg : Pkg)
  | version (pkg : Pkg) (release : String)
  | versionString (pkg : Pkg)
  | armFamily (family : ArmFamily)
  | armCore (core : ArmCore)
  | mips (variant : String)
  | setting (other : Setting)
  deriving DecidableEq

def Symbol.name : Symbol → String
  | .has pkg => "EMBTK_HAVE_" ++ pkg.name
  | .hostHas pkg => "EMBTK_HOST_HAVE_" ++ pkg.name
  | .version pkg release => "EMBTK_" ++ pkg.name ++ "_VERSION_" ++ release
  | .versionString pkg => "EMBTK_" ++ pkg.name ++ "_VERSION_STRING"
  | .armFamily family => "EMBTK_ARCH_ARM_FAMILY_" ++ family.name
  | .armCore core => "EMBTK_ARCH_ARM_FAMILY_" ++ core.family.name ++ "_" ++ core.name
  | .mips variant => "EMBTK_ARCH_MIPS_" ++ variant
  | .setting other => other.name

instance : Coe Setting Symbol := ⟨.setting⟩

/-- The variable of `.config` that holds the symbol. -/
def Symbol.variable (s : Symbol) : String := "CONFIG_" ++ s.name

/-- The values a `.config` was written from. -/
def values (c : Config) : Menu.Values Symbol := { on := fun s => c.isYes s.variable, text := fun s => uquote (c.value s.variable) }

end EmbToolkit.Menus
