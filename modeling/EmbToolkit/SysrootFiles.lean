import EmbToolkit.Library.Sed
import EmbToolkit.Library.Text

/-! What `__embtk_fix_libtool_files` and `__embtk_fix_pkgconfig_files` make of an installed file: the loops run one
sed script over it, line by line, and move the outcome over the file. The path of the sysroot is spliced into the
scripts as it stands. -/

namespace EmbToolkit
open Sed

/-- The values that `LIBDIR` may have. -/
inductive Libdir
  | lib
  | lib32

def Libdir.text : Libdir → Line
  | lib => "lib".toList
  | lib32 => "lib32".toList

/-- A path for `embtk_sysroot`: none of its characters means something to sed, or to the shell that is given the
scripts, and it is not in a directory that the scripts look for. -/
structure Sysroot where
  path : Line
  rooted : path.head? = some '/'
  plain : ∀ c ∈ path, c ∉ " \t\n;&\\$\x22\x27\x60".toList
  libs : ¬ "/usr/lib".toList <+: path
  headers : ¬ "/usr/include".toList <+: path

section
variable (s : Sysroot) (d : Libdir)

/-! ### `pkg-config.mk` -/

/-- `__pkgconfig_includedir` -/
def pkgconfigIncludedir : Line := "includedir=".toList ++ (s.path ++ "/usr/include".toList)

/-- `__pkgconfig_prefix` -/
def pkgconfigPrefix : Line := "prefix=".toList ++ (s.path ++ "/usr".toList)

/-- `__pkgconfig_libdir` -/
def pkgconfigLibdir : Line := "libdir=".toList ++ (s.path ++ ("/usr/".toList ++ d.text))

/-- The four commands of the script on one line. The dollar of the second pattern is not at its end, and so is itself. -/
def fixPkgconfigLine (line : Line) : Line :=
  let line := once (toEnd "prefix=".toList (pkgconfigPrefix s)) line
  let line := once (text "includedir=$\x7bprefix\x7d/include".toList (pkgconfigIncludedir s)) line
  let line := once (text "includedir=/usr/include".toList (pkgconfigIncludedir s)) line
  once (toEnd "libdir=".toList (pkgconfigLibdir s d)) line

def fixPkgconfigFile (file : List Line) : List Line := file.map (fixPkgconfigLine s d)

/-! ### `libtool.mk` -/

/-- What `__ltlibdirold` matches in front of its group. -/
def ltlibdirold : Line := "libdir=\x27".toList ++ ("/usr/".toList ++ d.text)

/-- What `__ltlibdirnew` puts in front of the group. -/
def ltlibdirnew : Line := "libdir=\x27".toList ++ (s.path ++ ("/usr/".toList ++ d.text))

/-- `__lt_usr/lib` -/
def ltUsrLib : Line := " ".toList ++ ("/usr/".toList ++ d.text ++ "/".toList)

/-- `__lt_sysroot/usr/lib` -/
def ltSysrootUsrLib : Line := " ".toList ++ (s.path ++ ("/usr/".toList ++ d.text ++ "/".toList))

def fixLibtoolLine (line : Line) : Line :=
  MakeText.replaceAll (ltUsrLib d) (ltSysrootUsrLib s d) 0 (once (before '\x27' (ltlibdirold d) (ltlibdirnew s d)) line)

def fixLibtoolFile (file : List Line) : List Line := file.map (fixLibtoolLine s d)

end

/-! ### The files -/

/-- The assignments of a line that the script for `pkg-config` has to do with. -/
def assignments (line : Line) : Nat :=
  occurrences "prefix=".toList line + occurrences "includedir=".toList line + occurrences "libdir=".toList line

def isNameChar (c : Char) : Bool := c.isAlphanum || c = '_' || c = '.'

/-- The variable that a line of a `.pc` file defines: a name and `=`, with blanks around the name. -/
def definedVariable (line : Line) : Option Line :=
  let line := line.dropWhile MakeText.isBlank
  let name := line.takeWhile isNameChar
  let rest := (line.dropWhile isNameChar).dropWhile MakeText.isBlank
  if name ≠ [] ∧ rest.head? = some '=' then some name else none

/-- A line that defines one of the four variables that the script is for. -/
def definesDirectory (line : Line) : Bool :=
  ["prefix".toList, "exec_prefix".toList, "includedir".toList, "libdir".toList].any fun name => definedVariable line = some name

end EmbToolkit
