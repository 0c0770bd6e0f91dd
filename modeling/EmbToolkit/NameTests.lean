import EmbToolkit.Download

/-! The tests of the package macros that look for one name in a text: which packages depend on a package, which of
the two installers a package goes to, and whether its makefile has been read already. -/

namespace EmbToolkit
open MakeText
open Download (findstring)

/-- The name of a package as the macros spell it after `embtk_lcase`: a word without capitals. -/
structure PackageName where
  text : String
  word : IsWord text
  lower : ∀ c ∈ text.toList, c.toLower = c

/-- A directory that `embtk_pkgincdir` may name. -/
structure IncludeDirectory where
  path : String
  plain : ∀ c ∈ path.toList, isBlank c = false

section
variable (value : String → String)

/-- `$(patsubst %_install,%,$(name))` -/
def componentNames (name : String) : String := unwords ((words (value name)).map (dropSuffix "_install"))

/-- `$(__embtk_pkgs_all-y)` -/
def pkgsAll : String := componentNames value "ROOTFS_COMPONENTS-y" ++ " " ++ componentNames value "HOSTTOOLS_COMPONENTS-y"

/-- The packages that `___embtk_pkg_depof` goes through. -/
def listedPackages : List String :=
  words (pkgsAll value ++ " " ++ componentNames value "EMBTK_TOOLCHAIN_DEPS-y" ++ " " ++
    componentNames value "EMBTK_TOOLCHAIN_PREDEPS-y" ++ " " ++ componentNames value "EMBTK_TOOLCHAIN_ADDONS_DEPS-y")

/-- `$($(call PKGV,$(p)_deps))` -/
def depsText (p : String) : String := value (ucase (p ++ "_deps"))

/-- `__embtk_pkg_depof` -/
def pkgDepof (p : PackageName) : String :=
  unwords (sortWords ((listedPackages value).filter fun q => findstring (p.text ++ "_install") (depsText value q)))

/-- The macro that `embtk_install_xpkg` calls. -/
def installXpkg (p : String) : String := "embtk_install_" ++ (if findstring "host" p then "host" else "") ++ "pkg"

/-! ### Including a makefile -/

/-- `__embtk_incmk` of `__embtk_include_pkg`, and the first choice of the other two macros. -/
def incmk0 (directory : IncludeDirectory) (p : String) : String := directory.path ++ "/" ++ p ++ "/" ++ p ++ ".mk"

/-- The makefile that a package for the host shares with the package for the target. -/
def incmk1 (directory : IncludeDirectory) (p : String) : String := incmk0 directory (dropSuffix "_host" p)

/-- `__embtk_incmk` of `__embtk_include_hostpkg` and `__embtk_include_xtoolpkg`. -/
def hostIncmk (wildcard : String → Bool) (directory : IncludeDirectory) (p : String) : String :=
  if wildcard (incmk0 directory p) then incmk0 directory p else if wildcard (incmk1 directory p) then incmk1 directory p else ""

/-- `$(if $(findstring $(__embtk_incmk),$(MAKEFILE_LIST)),,$(__embtk_incmk-y))` is `y`. An empty text is never found. -/
def includes (incmk : String) (wanted : Bool) : Bool :=
  if incmk ≠ "" && findstring incmk (value "MAKEFILE_LIST") then false else wanted

end
end EmbToolkit
