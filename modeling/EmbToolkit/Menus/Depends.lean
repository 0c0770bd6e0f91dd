import EmbToolkit.Menus.Packages

/-! The `_DEPS` variables of the package makefiles: what make builds before a package, beside what the package's
Kconfig block selects. -/

namespace EmbToolkit.Menus
open Menu

/-- `<PKG>_DEPS`: the symbol of the package, and the names that the variable lists with the conditions they are under. -/
structure Deps where
  package : Symbol
  lines : List (Expr Symbol × List Symbol)

def deps (package : Symbol) (names : List Symbol) : Deps := ⟨package, [(.yes, names)]⟩

/-- The packages with a `_DEPS` variable. The kernel's depends on the host. -/
def depends : List Deps :=
  [deps (.has .armadillo) [.has .openblas],
   deps (.has .atk) [.has .glib],
   ⟨.has .boost, [(.yes, [.has .zlib, .has .bzip2, .has .gettext_intl]), (Setting.boostWithIcu, [.has .icu])]⟩,
   ⟨.has .cairo, [(.yes, [.has .pixman, .has .libpng, .has .freetype, .has .fontconfig]), (Setting.cairoWithDirectfb,
     [.has .directfb]),
     (.and Setting.cairoWithLibxcb (Symbol.has .libxrender), [.has .libxrender]), (Setting.cairoWithLibxcb, [.has .xcbutil,
     .has .libx11])]⟩,
   deps (.has .cgilua) [.has .lua, .has .luafilesystem, .has .rings],
   ⟨.has .dbus, [(.yes, [.has .libxml2]), (Symbol.has .libx11, [.has .libx11])]⟩,
   ⟨.has .directfb, [(.yes, [.has .libpng, .has .freetype, .has .libjpeg]), (Setting.directfbInputTslib, [.has .tslib])]⟩,
   deps (.has .dropbear) [.has .zlib],
   deps (.has .fontconfig) [.has .libxml2, .has .freetype],
   deps (.has .freefont_ttf) [.has .freetype],
   deps (.has .freetype) [.has .zlib],
   deps (.has .gcc) [.hostHas .gmp, .hostHas .mpfr, .hostHas .mpc],
   deps (.has .gdkpixbuf) [.has .libpng, .has .libjpeg, .has .libtiff, .has .glib],
   deps (.hostHas .gdkpixbuf) [.hostHas .libpng, .hostHas .libjpeg, .hostHas .libtiff, .hostHas .glib],
   deps (.has .glib) [.has .zlib, .has .gettext_intl, .hostHas .glib],
   deps (.has .glibmm) [.has .glib, .has .libsigcpp],
   deps (.hostHas .glib) [.hostHas .gettext],
   ⟨.has .gtk, [(.yes, [.has .libjpeg, .has .libpng, .has .libtiff, .has .fontconfig, .has .glib, .hostHas .gdkpixbuf,
     .has .atk, .has .cairo, .has .pango]), (Setting.gtkBackendDirectfb, [.has .directfb]), (.not Setting.gtkBackendDirectfb,
     [.has .libx11, .has .libxext, .has .libxrender, .has .xinput])]⟩,
   deps (.has .icu) [.hostHas .icu],
   deps (.has .imlib2) [.has .libpng, .has .freetype, .has .libjpeg],
   ⟨.has .jack2, [(.yes, [.has .libsndfile, .has .libsamplerate]), (Setting.jack2WithAlsa, [.has .alsa_lib])]⟩,
   deps (.has .kyua) [.has .atf, .has .lutok, .has .sqlite],
   deps (.has .libcxx) [.has .libcxxrt],
   deps (.has .libfontenc) [.has .zlib],
   deps (.has .libnih) [.has .dbus],
   deps (.has .libpng) [.has .zlib],
   deps (.hostHas .libpng) [.hostHas .zlib],
   deps (.has .librsync) [.has .popt],
   ⟨.has .libsamplerate, [(Symbol.has .fftw, [.has .fftw]), (Symbol.has .libsndfile, [.has .libsndfile])]⟩,
   deps (.has .libx11) [.has .utilmacros, .has .inputproto, .has .kbproto, .has .xextproto, .has .xproto, .has .libxcb,
     .has .xtrans],
   deps (.has .libxau) [.has .xproto],
   deps (.has .libxcb) [.has .xcbproto, .has .libpthreadstubs, .has .libxau],
   deps (.has .libxcomposite) [.has .xproto, .has .libxfixes, .has .compositeproto],
   deps (.has .libxext) [.has .libx11],
   deps (.has .libxfixes) [.has .xproto, .has .fixesproto],
   deps (.has .libxfont) [.has .libfontenc, .has .freetype],
   deps (.has .libxft) [.has .freetype, .has .fontconfig, .has .libxrender],
   deps (.has .libxi) [.has .xproto, .has .xextproto, .has .inputproto, .has .libx11, .has .libxext],
   deps (.has .libxkbfile) [.has .kbproto, .has .libx11],
   deps (.has .libxrandr) [.has .xproto, .has .randrproto],
   deps (.has .libxrender) [.has .renderproto, .has .libx11],
   deps (.has .lilv) [.has .lv2, .has .serd, .has .sord, .has .sratom],
   deps (.hostHas .llvm) [.hostHas .clang],
   deps (.has .lrdf) [.has .ladspa, .has .raptor],
   deps (.has .ltrace) [.has .libelf],
   deps (.has .luafilesystem) [.has .lua],
   deps (.has .lutok) [.has .lua],
   deps (.hostHas .mpc) [.hostHas .gmp, .hostHas .mpfr],
   deps (.hostHas .mpfr) [.hostHas .gmp],
   deps (.has .mtdutils) [.has .zlib, .has .lzo, .has .e2fsprogs_libuuid],
   deps (.hostHas .mtdutils) [.hostHas .zlib, .hostHas .lzo, .hostHas .e2fsprogs_libuuid],
   ⟨.has .pango, [(.yes, [.has .glib, .has .fontconfig, .has .cairo]), (Setting.pangoWithX, [.has .libx11])]⟩,
   deps (.has .raptor) [.has .libxml2],
   deps (.has .rings) [.has .lua],
   deps (.has .sord) [.has .serd],
   deps (.hostHas .squashfs) [.hostHas .zlib],
   deps (.has .sratom) [.has .lv2, .has .serd, .has .sord],
   deps (.has .tcpdump) [.has .libpcap],
   deps (.has .xcbutil) [.hostHas .gperf, .has .libxcb],
   deps (.has .xf86inputevdev) [.has .xserver],
   deps (.has .xf86videofbdev) [.has .xserver],
   deps (.has .xinput) [.has .xproto, .has .inputproto, .has .libx11, .has .libxext, .has .libxi],
   deps (.has .xkbcomp) [.has .libxkbfile],
   deps (.has .xkeyboardconfig) [.hostHas .intltool, .has .xkbcomp],
   ⟨.has .xserver, [(.yes, [.has .utilmacros, .has .bigreqsproto, .has .compositeproto, .has .damageproto, .has .fixesproto,
     .has .fontsproto, .has .inputproto, .has .kbproto, .has .randrproto, .has .recordproto, .has .renderproto,
     .has .resourceproto, .has .videoproto, .has .xcbproto, .has .xcmiscproto, .has .xextproto, .has .xproto, .has .libxfont,
     .has .libxkbfile, .has .xtrans, .has .libressl]), (Setting.xserverXorg, [.has .libpciaccess]), (Setting.xserverWithTslib,
     [.has .tslib])]⟩,
   deps (.has .gdb) [.has .ncurses],
   deps (.has .gdbserver) [.has .ncurses],
   ⟨Setting.buildLinuxKernel, [(.equals Setting.hostOs "macos", [.hostHas .libelf])]⟩]

/-- The names in the expansion of the variable. -/
def Deps.expansion (d : Deps) (v : Values Symbol) : List Symbol := d.lines.flatMap fun l => if l.1.holds v then l.2 else []

/-- Versions that are written into a Kconfig file beside no choice, with the condition they are under. -/
def ownVersion : Symbol → Option (Expr Symbol × String)
  | .hostHas .zlib => some (.yes, "1.2.5")
  | .hostHas .gmp => some (.yes, "6.0.0")
  | .hostHas .mpfr => some (.yes, "3.1.2")
  | .hostHas .mpc => some (.yes, "1.0.2")
  | .hostHas .gettext => some (.yes, "0.18.3.2")
  | .hostHas .gperf => some (.yes, "3.0.4")
  | .has .ncurses => some (Symbol.has .ncurses, "5.9")
  | .has .libcxxrt => some (Symbol.has .libcxxrt, "4.0.10")
  | .has .openblas => some (.yes, "git")
  | _ => none

/-- The string that `<PKG>_VERSION` reads. A host tool reads that of the target package where it has none of its own,
and `libelf_host` always does. -/
def versionSymbol : Symbol → Symbol
  | .hostHas .e2fsprogs_libuuid => .versionString .e2fsprogs_libuuid_host
  | .hostHas .clang => .versionString .clang_host
  | .hostHas pkg => .versionString pkg
  | .has pkg => .versionString pkg
  | other => other

/-- `<PKG>_VERSION` -/
def version (v : Values Symbol) (name : Symbol) : String :=
  match ownVersion name with
  | some own => if own.1.holds v then own.2 else ""
  | none => v.text (versionSymbol name)

end EmbToolkit.Menus
