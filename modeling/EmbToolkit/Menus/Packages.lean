import EmbToolkit.Menus.Target

/-! The part of the Kconfig tree under `EMBTK_HAVE_ROOTFS`: the packages with what they select, and their versions. The
dependencies written in `.kconfig` files and the lists of releases are both taken over line by line. -/

namespace EmbToolkit.Menus
open Menu

/-! ### Packages -/

def rootfs : Expr Symbol := Setting.rootfs

/-- `EMBTK_HAVE_<PKG>` with a prompt. -/
def package (pkg : Pkg) (selects : List Symbol) (depends : List (Expr Symbol) := []) : Block Symbol :=
  .bool { name := .has pkg, prompted := true, depends := rootfs :: depends, selects := selects.map fun s => (s, .yes) }

/-- `EMBTK_HAVE_<PKG>` without a prompt. -/
def internal (pkg : Pkg) (selects : List Symbol) : Block Symbol :=
  .bool { name := .has pkg, depends := [rootfs], selects := selects.map fun s => (s, .yes) }

/-- `EMBTK_HOST_HAVE_<PKG>`, which has no prompt. -/
def hostPackage (pkg : Pkg) (selects : List Symbol) : Block Symbol :=
  .bool { name := .hostHas pkg, depends := [rootfs], selects := selects.map fun s => (s, .yes) }

/-- An option of a package or of the root filesystem. -/
def option (setting : Setting) (depends : List (Expr Symbol)) (selects : List Symbol) : Block Symbol :=
  .bool { name := setting, prompted := true, depends := rootfs :: depends, selects := selects.map fun s => (s, .yes) }

def rootfsBlocks : List (Block Symbol) :=
  [option .rootfsJffs2 [] [.hostHas .mtdutils], option .rootfsSquashfs [] [.hostHas .squashfs],
   hostPackage .squashfs [Setting.embkHostHaveZlib]]

def busyboxSeries : Choice Symbol := { depends := [rootfs, Symbol.has .bb], members := [member (.version .bb "1_20_X")] }

def busyboxBlocks : List (Block Symbol) :=
  [.bool { name := .has .bb, prompted := true, depends := [rootfs], defaults := [("y", .yes)] }, .choice busyboxSeries]

def systemBlocks : List (Block Symbol) :=
  [package .mtdutils [.has .e2fsprogs_libuuid, .has .zlib, .has .lzo], package .dbus [.has .libxml2]]

def audioBlocks : List (Block Symbol) :=
  [package .alsa_lib [], package .ladspa [], package .libsndfile [], package .libsamplerate [],
   package .lilv [.has .lv2, .has .serd, .has .sord, .has .sratom], package .lv2 [],
   package .jack2 [.has .libsndfile, .has .libsamplerate], option .jack2WithAlsa [Symbol.has .jack2] [.has .alsa_lib]]

def compressionBlocks : List (Block Symbol) :=
  [package .bzip2 [], hostPackage .lzo [], package .lzo [], package .zlib []]

def databaseBlocks : List (Block Symbol) :=
  [package .sqlite []]

def developmentBlocks : List (Block Symbol) :=
  [package .atf [], package .boost [.has .gettext_intl, .has .bzip2, .has .zlib],
   option .boostWithIcu [Symbol.has .boost] [.has .icu], package .fftw [], package .gettext_intl [],
   package .glibmm [.has .glib, .has .libsigcpp], package .gtest [], hostPackage .icu [], package .icu [.hostHas .icu],
   package .kyua [.has .atf, .has .lutok, .has .sqlite], package .libbsd [], package .libelf [], package .libevent [],
   package .libnih [.has .dbus], package .libsigcpp [], package .libsigsegv [], package .libunwind [],
   package .e2fsprogs_libuuid [],
   package .openblas [] [.or (Symbol.armFamily .arm11) (Symbol.armFamily .cortex), Setting.hardfloat], package .popt []]

def atk1_30 : Entry Symbol :=
  { name := .version .atk "1_30_X", depends := [rootfs], defaults := [("y", Symbol.version .atk "1_30_X_AND_GREATER")]
    selects := [(.version .atk "1_32_X", .yes)] }

def atk1_28 : Entry Symbol :=
  { name := .version .atk "1_28_X", depends := [rootfs], defaults := [("y", Symbol.version .atk "1_28_X_AND_GREATER")]
    selects := [(.version .atk "1_30_X", .yes)] }

def atkAll : Entry Symbol :=
  { name := .version .atk "ALL", depends := [rootfs]
    defaults := [("y", .and (.not (Symbol.version .atk "1_32_X_AND_GREATER")) (.and
      (.not (Symbol.version .atk "1_30_X_AND_GREATER")) (.not (Symbol.version .atk "1_28_X_AND_GREATER"))))]
    selects := [(.version .atk "1_28_X", .yes)] }

/-- The symbols by which other packages narrow the releases of atk. -/
def atkSeries : List (Block Symbol) :=
  [.bool { name := .version .atk "1_32_X_AND_GREATER", depends := [rootfs] },
   .bool { name := .version .atk "1_30_X_AND_GREATER", depends := [rootfs] },
   .bool { name := .version .atk "1_28_X_AND_GREATER", depends := [rootfs] },
   .bool { name := .version .atk "1_32_X", depends := [rootfs], defaults := [("y", Symbol.version .atk "1_32_X_AND_GREATER")] },
   .bool atk1_30, .bool atk1_28, .bool atkAll]

def gtkBackend : Block Symbol :=
  .choice
    { depends := [rootfs, Symbol.has .gtk]
      members :=
        [{ member Setting.gtkBackendXserver with
           selects := [(Setting.cairoWithLibxcb, .yes), (.has .libx11, .yes), (.has .libxext, .yes), (.has .libxrender, .yes),
             (.has .xinput, .yes)] },
         { member Setting.gtkBackendDirectfb with selects := [(.has .directfb, .yes), (Setting.cairoWithDirectfb, .yes)] }] }

def graphicsBlocks : List (Block Symbol) :=
  [package .atk [], package .cairo [.has .pixman], option .cairoWithDirectfb [Symbol.has .cairo] [.has .directfb],
   option .cairoWithLibxcb [Symbol.has .cairo] [.has .xcbutil],
   package .directfb [.has .libpng, .has .libjpeg, .has .freetype],
   option .directfbInputTslib [Symbol.has .directfb] [.has .tslib], package .fontconfig [.has .libxml2],
   package .freetype [.has .zlib],
   hostPackage .gdkpixbuf [.hostHas .glib, .hostHas .libpng, .hostHas .libjpeg, .hostHas .libtiff],
   internal .gdkpixbuf [.has .glib, .has .libpng, .has .libjpeg, .has .libtiff],
   package .gtk [.hostHas .gdkpixbuf, .has .glib, .has .pango, .has .atk, .has .libjpeg, .has .libpng, .has .libtiff, .has
     .fontconfig, .has .cairo],
   gtkBackend, package .imlib2 [.has .freetype, .has .libpng, .has .libjpeg], hostPackage .libjpeg [], package .libjpeg [],
   hostPackage .libpng [.hostHas .zlib], package .libpng [.has .zlib],
   package .pango [.has .glib, .has .fontconfig, .has .cairo], option .pangoWithX [Symbol.has .pango] [.has .libx11],
   package .pixman [], hostPackage .libtiff [], package .libtiff [], package .freefont_ttf [.has .freetype]]

def mathBlocks : List (Block Symbol) :=
  [package .armadillo [] [Symbol.has .openblas]]

def netBlocks : List (Block Symbol) :=
  [package .fcgi [], package .iptables [], package .libnl [] [Setting.osLinux], package .libpcap [],
   package .librsync [.has .popt], package .libtirpc [], package .tcpdump [.has .libpcap]]

def scriptingBlocks : List (Block Symbol) :=
  [package .lua [], package .cgilua [.has .rings, .has .luafilesystem] [Symbol.has .lua], package .lutok [.has .lua],
   package .luafilesystem [] [Symbol.has .lua], package .rings [] [Symbol.has .lua]]

def securityBlocks : List (Block Symbol) :=
  [package .dropbear [.has .zlib], package .libressl []]

def textprocBlocks : List (Block Symbol) :=
  [package .libxml2 [], package .lrdf [.has .ladspa, .has .raptor], package .raptor [.has .libxml2]]

def miscBlocks : List (Block Symbol) :=
  [package .expat [], hostPackage .glib [.hostHas .gettext], package .glib [.hostHas .glib, .has .gettext_intl, .has .zlib],
   hostPackage .intltool [], internal .intltool [], package .serd [], package .sord [.has .serd],
   package .sratom [.has .lv2, .has .serd, .has .sord], package .tslib []]

def xserverVariant : Block Symbol :=
  .choice
    { depends := [rootfs, Symbol.has .xserver]
      members := [{ member Setting.xserverXorg with selects := [(.has .libpciaccess, .yes)] }, member Setting.xserverKdrive] }

def x11Blocks : List (Block Symbol) :=
  [package .utilmacros [], package .xcbutil [.has .libxcb, .hostHas .gperf], package .bigreqsproto [],
   package .compositeproto [], package .damageproto [], package .fixesproto [], package .fontsproto [], package .inputproto [],
   package .kbproto [], package .randrproto [], package .recordproto [], package .renderproto [], package .resourceproto [],
   package .videoproto [], package .xcbproto [], package .xcmiscproto [], package .xextproto [], package .xproto [],
   package .libfontenc [Setting.embkHaveZlib], package .libpciaccess [], package .libpthreadstubs [],
   package .libx11 [.has .utilmacros, .has .inputproto, .has .kbproto, .has .xextproto, .has .xproto, .has .libxcb, .has
     .xtrans],
   package .libxau [.has .xproto],
   package .libxi [.has .xproto, .has .xextproto, .has .inputproto, .has .libx11, .has .libxext],
   package .libxcb [.has .libpthreadstubs, .has .libxau, .has .xcbproto],
   package .libxcomposite [.has .xproto, .has .compositeproto, .has .libxfixes], package .libxext [.has .libx11],
   package .libxfixes [.has .fixesproto, .has .xproto], package .libxfont [.has .libfontenc, .has .freetype],
   package .libxft [.has .fontconfig, .has .freetype, .has .xproto, .has .libxrender],
   package .libxkbfile [.has .kbproto, .has .libx11], package .libxrandr [.has .xproto, .has .randrproto],
   package .libxrender [.has .renderproto, .has .libx11],
   package .xinput [.has .xproto, .has .inputproto, .has .libx11, .has .libxext, .has .libxi],
   package .xkeyboardconfig [.has .xkbcomp, .hostHas .intltool], package .xkbcomp [.has .libxkbfile], package .xtrans [],
   package .xserver [.has .utilmacros, .has .bigreqsproto, .has .compositeproto, .has .damageproto, .has .fixesproto, .has
     .fontsproto, .has .inputproto, .has .kbproto, .has .randrproto, .has .recordproto, .has .renderproto, .has
     .resourceproto, .has .videoproto, .has .xcbproto, .has .xcmiscproto, .has .xextproto, .has .xproto, .has .libxfont, .has
     .libxkbfile, .has .xtrans, .has .libressl, .has .pixman],
   xserverVariant, option .xserverWithTslib [Symbol.has .xserver] [.has .tslib],
   package .xf86inputevdev [] [Setting.xserverXorg], package .xf86videofbdev [] [Setting.xserverXorg]]

def packageBlocks : List (Block Symbol) :=
  rootfsBlocks ++ busyboxBlocks ++ systemBlocks ++ audioBlocks ++ compressionBlocks ++ databaseBlocks ++ developmentBlocks ++
    atkSeries ++ graphicsBlocks ++ mathBlocks ++ netBlocks ++ scriptingBlocks ++ securityBlocks ++ textprocBlocks ++ miscBlocks ++
    x11Blocks

/-! ### Versions -/

/-- The versions of a package for the target. -/
def packaged (pkg : Pkg) (members : List String) (lines : List (String × String)) : Component :=
  released pkg [rootfs] (Symbol.has pkg) members lines

/-- The versions of a package for the target and the host. -/
def hosted (pkg : Pkg) (members : List String) (lines : List (String × String)) : Component :=
  released pkg [rootfs] (.or (Symbol.has pkg) (Symbol.hostHas pkg)) members lines

def busybox : Component :=
  { enabled := Symbol.has .bb
    spelling :=
      { name := .versionString .bb
        outer :=
          { depends := [rootfs, Symbol.has .bb]
            members := [{ member (.version .bb "1_20_2") with depends := [Symbol.version .bb "1_20_X"] }] }
        strings := [{ name := .versionString .bb, depends := [rootfs, Symbol.has .bb]
                      defaults := versionDefaults .bb [("1.20.2", "1_20_2")] }] } }

def atk : Component :=
  { enabled := Symbol.has .atk
    spelling :=
      { name := .versionString .atk
        outer :=
          { depends := [rootfs, Symbol.has .atk]
            members := [{ member (.version .atk "1_30_0") with depends := [Symbol.version .atk "1_30_X"] },
              { member (.version .atk "1_28_0") with depends := [Symbol.version .atk "1_28_X"] }] }
        strings := [{ name := .versionString .atk, depends := [rootfs]
                      defaults := versionDefaults .atk [("1.30.0", "1_30_0"), ("1.28.0", "1_28_0")] }] } }

def gdkpixbuf : Component :=
  { enabled := .or (Symbol.has .gdkpixbuf) (Symbol.hostHas .gdkpixbuf)
    spelling :=
      { name := .versionString .gdkpixbuf
        outer :=
          { depends := [rootfs, .or (Symbol.has .gdkpixbuf) (Symbol.hostHas .gdkpixbuf)]
            members := [{ member (.version .gdkpixbuf "2_22_1") with
              selects := [(.version .glib "2_26_X_AND_GREATER", .yes)] }] }
        strings := [{ name := .versionString .gdkpixbuf, depends := [rootfs]
                      defaults := versionDefaults .gdkpixbuf [("2.22.1", "2_22_1")] }] } }

def gtk : Component :=
  { enabled := Symbol.has .gtk
    spelling :=
      { name := .versionString .gtk
        outer :=
          { depends := [rootfs, Symbol.has .gtk]
            members := { member (.version .gtk "2_20_1") with selects := [(.version .atk "1_30_X_AND_GREATER", .yes)] } ::
              ["2_18_9", "2_18_8", "2_18_7", "2_18_6", "2_18_5"].map fun release => member (.version .gtk release) }
        strings := [{ name := .versionString .gtk, depends := [rootfs]
                      defaults := versionDefaults .gtk [("2.20.1", "2_20_1"), ("2.18.9", "2_18_9"), ("2.18.8", "2_18_8"),
                        ("2.18.7", "2_18_7"), ("2.18.6", "2_18_6"), ("2.18.5", "2_18_5")] }] } }

def systemComponents : List Component :=
  [packaged .mtdutils ["1_5_1"] [("1.5.1", "1_5_1")], packaged .dbus ["1_2_28"] [("1.2.28", "1_2_28")]]

def audioComponents : List Component :=
  [packaged .alsa_lib ["1_0_28"] [("1.0.28", "1_0_28")], packaged .ladspa ["1_13"] [("1.13", "1_13")],
   packaged .libsndfile ["1_0_25"] [("1.0.25", "1_0_25")], packaged .libsamplerate ["0_1_8"] [("0.1.8", "0_1_8")],
   packaged .lilv ["0_18_0"] [("0.18.0", "0_18_0")], packaged .lv2 ["1_8_0"] [("1.8.0", "1_8_0")],
   packaged .jack2 ["1_9_10"] [("1.9.10", "1_9_10")]]

def compressionComponents : List Component :=
  [packaged .bzip2 ["1_0_6"] [("1.0.6", "1_0_6")], hosted .lzo ["2_03"] [("2.03", "2_03")],
   packaged .zlib ["1_2_7"] [("1.2.7", "1_2_7")]]

def databaseComponents : List Component :=
  [packaged .sqlite ["3_8_6"] [("3080600", "3_8_6")]]

def developmentComponents : List Component :=
  [packaged .atf ["0_20"] [("0.20", "0_20")], packaged .boost ["1_55_0"] [("1_55_0", "1_55_0")],
   packaged .fftw ["3_3_4"] [("3.3.4", "3_3_4")], packaged .gettext_intl ["0_18_3_2"] [("0.18.3.2", "0_18_3_2")],
   packaged .glibmm ["2_24_2"] [("2.24.2", "2_24_2")], packaged .gtest ["EMBTK_110"] [("embtk-1.1.0", "EMBTK_110")],
   hosted .icu ["53_1"] [("53.1", "53_1")], packaged .kyua ["0_10"] [("0.10", "0_10")],
   packaged .libbsd ["0_4_1"] [("0.4.1", "0_4_1")], packaged .libelf ["0_8_13"] [("0.8.13", "0_8_13")],
   packaged .libevent ["2_0_STABLE", "1_4_STABLE"] [("2.0.21-stable", "2_0_STABLE"), ("1.4.14b-stable", "1_4_STABLE")],
   packaged .libnih ["1_0_2"] [("1.0.2", "1_0_2")], packaged .libsigcpp ["2_3_1"] [("2.3.1", "2_3_1")],
   packaged .libsigsegv ["2_6"] [("2.6", "2_6")], packaged .libunwind ["1_1"] [("1.1", "1_1")],
   packaged .e2fsprogs_libuuid ["1_42_12"] [("1.42.12", "1_42_12")], packaged .popt ["1_16"] [("1.16", "1_16")]]

def graphicsComponents : List Component :=
  [atk, packaged .cairo ["1_8_10", "1_8_9", "1_8_8"] [("1.8.10", "1_8_10"), ("1.8.9", "1_8_9"), ("1.8.8", "1_8_8")],
   packaged .directfb ["1_4_3", "1_4_2"] [("1.4.3", "1_4_3"), ("1.4.2", "1_4_2")],
   packaged .fontconfig ["2_8_0"] [("2.8.0", "2_8_0")],
   packaged .freetype ["2_4_6", "2_4_4", "2_4_3", "2_4_2", "2_4_1", "2_4_0", "2_3_12", "2_3_11", "2_3_10", "2_3_9"]
     [("2.4.6", "2_4_6"), ("2.4.4", "2_4_4"), ("2.4.3", "2_4_3"), ("2.4.2", "2_4_2"), ("2.4.1", "2_4_1"), ("2.4.0", "2_4_0"),
     ("2.3.12", "2_3_12"), ("2.3.11", "2_3_11"), ("2.3.10", "2_3_10"), ("2.3.9", "2_3_9")],
   gdkpixbuf, gtk, packaged .imlib2 ["1_4_4"] [("1.4.4", "1_4_4")], hosted .libjpeg ["V8", "V7"] [("8", "V8"), ("7", "V7")],
   hosted .libpng ["1_5_11", "1_4_11", "1_2_49"] [("1.5.11", "1_5_11"), ("1.4.11", "1_4_11"), ("1.2.49", "1_2_49")],
   packaged .pango ["1_28_1", "1_26_2"] [("1.28.1", "1_28_1"), ("1.26.2", "1_26_2")],
   packaged .pixman ["0_20_2", "0_18_4", "0_18_2", "0_18_1", "0_18_0", "0_16_6", "0_16_5", "0_16_4"] [("0.20.2", "0_20_2"),
     ("0.18.4", "0_18_4"), ("0.18.2", "0_18_2"), ("0.18.1", "0_18_1"), ("0.18.0", "0_18_0"), ("0.16.6", "0_16_6"),
     ("0.16.5", "0_16_5"), ("0.16.4", "0_16_4")],
   hosted .libtiff ["3_9_2"] [("3.9.2", "3_9_2")], packaged .freefont_ttf ["20100919"] [("20100919", "20100919")]]

def mathComponents : List Component :=
  [packaged .armadillo ["4_300_2"] [("4.300.2", "4_300_2")]]

def netComponents : List Component :=
  [packaged .fcgi ["2_4_1"] [("2.4.1-SNAP-0910052249", "2_4_1")], packaged .iptables ["1_4_19_1"] [("1.4.19.1", "1_4_19_1")],
   packaged .libnl ["3_2_11"] [("3.2.11", "3_2_11")], packaged .libpcap ["1_3_0"] [("1.3.0", "1_3_0")],
   packaged .librsync ["0_9_7"] [("0.9.7", "0_9_7")], packaged .libtirpc ["0_2_2"] [("0.2.2", "0_2_2")],
   packaged .tcpdump ["4_3_0"] [("4.3.0", "4_3_0")]]

def scriptingComponents : List Component :=
  [packaged .lua ["5_1_5"] [("5.1.5", "5_1_5")], packaged .cgilua ["5_1_4"] [("5.1.4", "5_1_4")],
   packaged .lutok ["0_4"] [("0.4", "0_4")], packaged .luafilesystem ["1_5_0"] [("1.5.0", "1_5_0")],
   packaged .rings ["1_2_3"] [("1.2.3", "1_2_3")]]

def securityComponents : List Component :=
  [packaged .dropbear ["2014_63"] [("2014.63", "2014_63")], packaged .libressl ["2_1_1"] [("2.1.1", "2_1_1")]]

def textprocComponents : List Component :=
  [packaged .libxml2 ["2_7_7"] [("2.7.7", "2_7_7")], packaged .lrdf ["0_4_0"] [("0.4.0", "0_4_0")],
   packaged .raptor ["1_4_21"] [("1.4.21", "1_4_21")]]

def miscComponents : List Component :=
  [packaged .expat ["2_0_1"] [("2.0.1", "2_0_1")],
   hosted .glib ["2_26_1", "2_24_2", "2_24_1"] [("2.26.1", "2_26_1"), ("2.24.2", "2_24_2"), ("2.24.1", "2_24_1")],
   hosted .intltool ["0_40_6"] [("0.40.6", "0_40_6")], packaged .serd ["0_18_2"] [("0.18.2", "0_18_2")],
   packaged .sord ["0_12_0"] [("0.12.0", "0_12_0")], packaged .sratom ["0_4_4"] [("0.4.4", "0_4_4")],
   packaged .tslib ["1_0"] [("1.0", "1_0")]]

def x11Components : List Component :=
  [packaged .utilmacros ["1_11_0", "1_10_1", "1_10_0", "1_9_0", "1_8_0", "1_7_0", "1_6_1", "1_6_0"] [("1.11.0", "1_11_0"),
     ("1.10.1", "1_10_1"), ("1.10.0", "1_10_0"), ("1.9.0", "1_9_0"), ("1.8.0", "1_8_0"), ("1.7.0", "1_7_0"),
     ("1.6.1", "1_6_1"), ("1.6.0", "1_6_0")],
   packaged .xcbutil ["0_3_6"] [("0.3.6", "0_3_6")],
   packaged .bigreqsproto ["1_1_1", "1_1_0"] [("1.1.1", "1_1_1"), ("1.1.0", "1_1_0")],
   packaged .compositeproto ["0_4_2", "0_4_1"] [("0.4.2", "0_4_2"), ("0.4.1", "0_4_1")],
   packaged .damageproto ["1_2_1", "1_2_0"] [("1.2.1", "1_2_1"), ("1.2.0", "1_2_0")],
   packaged .fixesproto ["4_1_2", "4_1"] [("4.1.2", "4_1_2"), ("4.1", "4_1")],
   packaged .fontsproto ["2_1_1", "2_1_0"] [("2.1.1", "2_1_1"), ("2.1.0", "2_1_0")],
   packaged .inputproto ["2_0_1", "2_0"] [("2.0.1", "2_0_1"), ("2.0", "2_0")],
   packaged .kbproto ["1_0_5", "1_0_4"] [("1.0.5", "1_0_5"), ("1.0.4", "1_0_4")],
   packaged .randrproto ["1_3_2", "1_3_1"] [("1.3.2", "1_3_2"), ("1.3.1", "1_3_1")],
   packaged .recordproto ["1_14_1", "1_14"] [("1.14.1", "1_14_1"), ("1.14", "1_14")],
   packaged .renderproto ["0_11_1", "0_11"] [("0.11.1", "0_11_1"), ("0.11", "0_11")],
   packaged .resourceproto ["1_1_1", "1_1_0"] [("1.1.1", "1_1_1"), ("1.1.0", "1_1_0")],
   packaged .videoproto ["2_3_1", "2_3_0"] [("2.3.1", "2_3_1"), ("2.3.0", "2_3_0")],
   packaged .xcbproto ["1_6"] [("1.6", "1_6")],
   packaged .xcmiscproto ["1_2_1", "1_2_0"] [("1.2.1", "1_2_1"), ("1.2.0", "1_2_0")],
   packaged .xextproto ["7_1_2", "7_1_1"] [("7.1.2", "7_1_2"), ("7.1.1", "7_1_1")],
   packaged .xproto ["7_0_22", "7_0_21", "7_0_20", "7_0_19", "7_0_18", "7_0_17", "7_0_16"] [("7.0.22", "7_0_22"),
     ("7.0.21", "7_0_21"), ("7.0.20", "7_0_20"), ("7.0.19", "7_0_19"), ("7.0.18", "7_0_18"), ("7.0.17", "7_0_17"),
     ("7.0.16", "7_0_16")],
   packaged .libfontenc ["1_1_0", "1_0_5"] [("1.1.0", "1_1_0"), ("1.0.5", "1_0_5")],
   packaged .libpciaccess ["0_12_1", "0_12_0", "0_11_0"] [("0.12.1", "0_12_1"), ("0.12.0", "0_12_0"), ("0.11.0", "0_11_0")],
   packaged .libpthreadstubs ["0_3"] [("0.3", "0_3")],
   packaged .libx11 ["1_4_4", "1_4_3", "1_4_1", "1_3_6", "1_3_5", "1_3_4", "1_3_3"] [("1.4.4", "1_4_4"), ("1.4.3", "1_4_3"),
     ("1.4.1", "1_4_1"), ("1.3.6", "1_3_6"), ("1.3.5", "1_3_5"), ("1.3.4", "1_3_4"), ("1.3.3", "1_3_3")],
   packaged .libxau ["1_0_6", "1_0_5"] [("1.0.6", "1_0_6"), ("1.0.5", "1_0_5")],
   packaged .libxi ["1_4_3", "1_4_1", "1_3"] [("1.4.3", "1_4_3"), ("1.4.1", "1_4_1"), ("1.3", "1_3")],
   packaged .libxcb ["1_7", "1_6", "1_5"] [("1.7", "1_7"), ("1.6", "1_6"), ("1.5", "1_5")],
   packaged .libxcomposite ["0_4_3", "0_4_2"] [("0.4.3", "0_4_3"), ("0.4.2", "0_4_2")],
   packaged .libxext ["1_2_0", "1_1_2", "1_1_1"] [("1.2.0", "1_2_0"), ("1.1.2", "1_1_2"), ("1.1.1", "1_1_1")],
   packaged .libxfixes ["4_0_5"] [("4.0.5", "4_0_5")],
   packaged .libxfont ["1_4_4", "1_4_3", "1_4_2", "1_4_1"] [("1.4.4", "1_4_4"), ("1.4.3", "1_4_3"), ("1.4.2", "1_4_2"),
     ("1.4.1", "1_4_1")],
   packaged .libxft ["2_2_0", "2_1_14"] [("2.2.0", "2_2_0"), ("2.1.14", "2_1_14")],
   packaged .libxkbfile ["1_0_6"] [("1.0.6", "1_0_6")],
   packaged .libxrandr ["1_3_2", "1_3_1", "1_3_0"] [("1.3.2", "1_3_2"), ("1.3.1", "1_3_1"), ("1.3.0", "1_3_0")],
   packaged .libxrender ["0_9_6", "0_9_5"] [("0.9.6", "0_9_6"), ("0.9.5", "0_9_5")],
   packaged .xinput ["1_5_3", "1_5_2"] [("1.5.3", "1_5_3"), ("1.5.2", "1_5_2")],
   packaged .xkeyboardconfig ["2_2_1", "2_1", "1_8"] [("2.2.1", "2_2_1"), ("2.1", "2_1"), ("1.8", "1_8")],
   packaged .xkbcomp ["1_2_3", "1_2_1", "1_2_0", "1_1_1"] [("1.2.3", "1_2_3"), ("1.2.1", "1_2_1"), ("1.2.0", "1_2_0"),
     ("1.1.1", "1_1_1")],
   packaged .xtrans ["1_2_6", "1_2_5"] [("1.2.6", "1_2_6"), ("1.2.5", "1_2_5")],
   released .xf86inputevdev [rootfs, Setting.xserverXorg] (Symbol.has .xf86inputevdev) ["2_6_0", "2_5_0", "2_4_0"]
     [("2.6.0", "2_6_0"), ("2.5.0", "2_5_0"), ("2.4.0", "2_4_0")],
   released .xf86videofbdev [rootfs, Setting.xserverXorg] (Symbol.has .xf86videofbdev) ["0_4_2"] [("0.4.2", "0_4_2")],
   packaged .xserver ["1_9_5", "1_9_3", "1_9_2", "1_9_1", "1_8_2", "1_8_1", "1_7_7", "1_7_6"] [("1.9.5", "1_9_5"),
     ("1.9.3", "1_9_3"), ("1.9.2", "1_9_2"), ("1.9.1", "1_9_1"), ("1.8.2", "1_8_2"), ("1.8.1", "1_8_1"), ("1.7.7", "1_7_7"),
     ("1.7.6", "1_7_6")]]

def components : List Component :=
  targetComponents ++ [busybox] ++ systemComponents ++ audioComponents ++ compressionComponents ++ databaseComponents ++
    developmentComponents ++ graphicsComponents ++ mathComponents ++ netComponents ++ scriptingComponents ++ securityComponents ++
    textprocComponents ++ miscComponents ++ x11Components

/-- The tree, and the names that a line uses and no block declares. -/
def tree : Menu.Tree Symbol :=
  { blocks := targetBlocks ++ packageBlocks ++ components.flatMap fun c => c.spelling.blocks
    undeclared := [.armCore .cortexA12, .version .clang_host "3_2", .version .glib "2_26_X_AND_GREATER",
      Setting.embkHaveZlib, Setting.embkHostHaveZlib] }

end EmbToolkit.Menus
