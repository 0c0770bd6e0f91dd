import Mathlib.Data.List.Infix
import EmbToolkit.Kconfig
import EmbToolkit.Library.Shell

/-! The recipes of `download.mk` that fetch one package and unpack it, and the commands they consist of. Git, svn,
tar, patch and wget are given by what they leave of the package's files; each may also fail or be killed, with none,
some or all of its work done. -/

namespace EmbToolkit.Download
open MakeText Shell

/-! ### Variables -/

/-- The variables of a package's makefile. `PKGV` is the prefix of their names. -/
structure Makefile where
  PKGV : String
  value : String → String

namespace Makefile
variable (m : Makefile) (c : Config)

def pkgVariable (suffix : String) : String := strip (m.value (m.PKGV ++ suffix))

/-- `CONFIG_EMBTK_$(PKGV)_<suffix>` -/
def kconfig (suffix : String) : String := c.value ("CONFIG_EMBTK_" ++ m.PKGV ++ suffix)

def site : String := m.pkgVariable "_SITE"
def mirror1 : String := m.pkgVariable "_MIRROR1"
def mirror2 : String := m.pkgVariable "_MIRROR2"
def mirror3 : String := m.pkgVariable "_MIRROR3"
def package : String := m.pkgVariable "_PACKAGE"
/-- `$(notdir $(__embtk_pkg_package_f))` is not empty. -/
def package_named : Bool := m.package ≠ ""
def package_remote : String := orElse (m.pkgVariable "_PACKAGE_REMOTE") m.package
def name : String := orElse (m.pkgVariable "_NAME") (dropSuffix "_host" (strip (String.ofList (m.PKGV.toList.map Char.toLower))))
def needpatch : Bool := m.kconfig c "_NEED_PATCH" ≠ ""
def usegit : Bool := m.kconfig c "_VERSION_GIT" ≠ ""
def usesvn : Bool := m.kconfig c "_VERSION_SVN" ≠ ""
def gitsite : String := orElse (uquote (m.kconfig c "_GIT_SITE")) (m.pkgVariable "_GIT_SITE")
def gitbranch : String := orElse (uquote (m.kconfig c "_GIT_BRANCH")) "master"
def gitrev : String := orElse (uquote (m.kconfig c "_GIT_REVISION")) "HEAD"
def svnsite : String := orElse (uquote (m.kconfig c "_SVN_SITE")) (m.pkgVariable "_SVN_SITE")
def svnbranch : String := uquote (m.kconfig c "_SVN_BRANCH")
def svnrev : String := uquote (m.kconfig c "_SVN_REVISION")

def version : String :=
  if m.usegit c then "git"
  else if m.usesvn c then orElse (m.kconfig c "_VERSION_STRING") "svn"
  else m.pkgVariable "_VERSION"

/-- `embtk_ftp` -/
def embtkFtp : String := "ftp://ftp.embtoolkit.org/embtoolkit.org"

/-- `__embtk_pkg_mirror` -/
def mirror : String := embtkFtp ++ "/packages-mirror"

def patch_site : String := strip (orElse (m.pkgVariable "_PATCH_SITE") (embtkFtp ++ "/" ++ m.name ++ "/" ++ m.version c))

end Makefile

/-! ### Commands -/

/-- The files of a package that the recipes name. -/
inductive Path where
  | package_f
  | patch_f
  | localgit
  | dotgit
  /-- the unpacked tarball, or the local svn checkout -/
  | srcdir
  | dotdecompressed_f
  | dotpatched_f
  deriving DecidableEq

/-- Which part of a recipe a command belongs to. -/
inductive Purpose where
  | site
  | mirror1
  | mirror2
  | mirror3
  | mirror
  | patches
  | branch
  | revision
  deriving DecidableEq

inductive Command where
  /-- `test -e path` -/
  | exists_ (path : Path)
  /-- `[ ! -e path ]` -/
  | missing (path : Path)
  | true_
  | echo
  /-- `rm -rf path` -/
  | rm (path : Path)
  | touch (path : Path)
  /-- `wget -O out url`, the second time with `--no-passive-ftp` -/
  | wget (purpose : Purpose) (passive : Bool) (out : Path) (url : String)
  | cd (purpose : Purpose) (dir : Path)
  | gitClone (site : String)
  | gitCheckout (branch : String)
  | gitReset (revision : String)
  | svnCheckout (url revision : String)
  | tar
  | patch
  deriving DecidableEq

/-! ### Recipes -/

section
variable (m : Makefile) (c : Config)

def embtk_wget (purpose : Purpose) (out : Path) (site file : String) : Script Command :=
  .or (.cmd (.wget purpose true out (dropSuffix "/" site ++ "/" ++ file))) (.cmd (.wget purpose false out (dropSuffix "/" site ++ "/" ++ file)))

/-- `named` tells whether the path ends in a file name. -/
def download_pkg_exitfailure (path : Path) (named : Bool) : Script Command :=
  .sub (.and (.cmd .echo) (if named then .and (.cmd (.rm path)) .exit else .exit))

def download_pkg_patches : Script Command :=
  if m.needpatch c then
    .or (.cmd (.exists_ .patch_f)) (embtk_wget .patches .patch_f (m.patch_site c) (m.name ++ "-" ++ m.version c ++ "-*.patch"))
  else .cmd .true_

def patchLine : Script Command := .or (download_pkg_patches m c) (download_pkg_exitfailure .patch_f true)

def tarballLine : Script Command :=
  firstOf (download_pkg_exitfailure .package_f m.package_named) (
    [.cmd (.exists_ .package_f), embtk_wget .site .package_f m.site m.package_remote] ++
    (if m.mirror1 ≠ "" then [embtk_wget .mirror1 .package_f m.mirror1 m.package_remote] else []) ++
    (if m.mirror2 ≠ "" then [embtk_wget .mirror2 .package_f m.mirror2 m.package_remote] else []) ++
    (if m.mirror3 ≠ "" then [embtk_wget .mirror3 .package_f m.mirror3 m.package_remote] else []) ++
    [embtk_wget .mirror .package_f Makefile.mirror m.package])

def download_pkg_from_tarball : List (Script Command) := [tarballLine m, patchLine m c]

/-- `$(findstring pattern,text)` finds something. -/
def findstring (pattern text : String) : Bool := decide (pattern.toList <:+: text.toList)

/-- The command list in parentheses, whose `;` after each `cd` ends the `&&` list before it. -/
def gitclone_pkg : Script Command :=
  .sub (
    let clone := .cmd (.gitClone (m.gitsite c))
    let checkout := .cmd (.gitCheckout (m.gitbranch c))
    let reset := .and (.cmd (.gitReset (m.gitrev c))) (.cmd .true_)
    if findstring "master" (m.gitbranch c) then
      if findstring "HEAD" (m.gitrev c) then .and clone (.cmd .true_)
      else .seq (.and clone (.cmd (.cd .revision .localgit))) reset
    else if findstring "HEAD" (m.gitrev c) then
      .seq (.and clone (.cmd (.cd .branch .localgit))) (.and checkout (.cmd .true_))
    else
      .seq (.and clone (.cmd (.cd .branch .localgit))) (.seq (.and checkout (.cmd (.cd .revision .localgit))) reset))

def download_pkg_from_git : List (Script Command) := [.or (.cmd (.exists_ .dotgit)) (gitclone_pkg m c)]

def applypatch_pkg : Script Command :=
  if m.needpatch c then
    .cond (.cmd (.missing .dotpatched_f)) (.seq (.cmd (.cd .patches .srcdir)) (.seq (.cmd .patch) (.cmd (.touch .dotpatched_f))))
  else .cmd .true_

def download_pkg_from_svn : List (Script Command) := [
  .or (.cmd (.exists_ .srcdir)) (.or (.cmd (.svnCheckout (m.svnsite c ++ "/" ++ m.svnbranch c) (m.svnrev c)))
    (download_pkg_exitfailure .package_f m.package_named)),
  patchLine m c,
  applypatch_pkg m c]

def embtk_download_pkg : List (Script Command) :=
  if m.usegit c then download_pkg_from_git m c
  else if m.usesvn c then download_pkg_from_svn m c
  else download_pkg_from_tarball m c

/-- The patterns of the `case` of `__embtk_decompress_pkg`. -/
def knownCompression (package : String) : Bool :=
  [".tar.bz2", ".tbz2", ".tar.gz", ".tgz", ".tar.xz", ".txz", ".tar"].any fun suffix => suffix.toList.isSuffixOf package.toList

def decompress_pkg : Script Command :=
  if knownCompression m.package then .cmd .tar else .seq (.cmd .echo) .exit

def embtk_decompress_pkg : List (Script Command) :=
  if m.usegit c || m.usesvn c then [.cmd .true_]
  else [.cond (.cmd (.missing .dotdecompressed_f))
    (.and (decompress_pkg m) (.and (.cmd (.touch .dotdecompressed_f)) (applypatch_pkg m c)))]

end

/-! ### What the commands do -/

/-- A change of a source tree after its files were put there. -/
inductive Edit where
  /-- the whole patch -/
  | patch
  | partOfPatch
  /-- the tarball unpacked again -/
  | extraction
  deriving DecidableEq

structure Checkout where
  branch : String
  revision : String
  deriving DecidableEq

inductive Node where
  /-- A download with the URL it is the whole of, or an unfinished one. -/
  | file (origin : Option String)
  | directory
  /-- A `.git` with what is checked out beside it, or an unfinished one. -/
  | repository (checkout : Option Checkout)
  | tree (complete : Bool) (edits : List Edit)
  | marker
  deriving DecidableEq

structure World where
  nodes : Path → Option Node
  /-- The directory of the package that the shell is in, if not in the one make was started in. -/
  cwd : Option Path
  /-- The commands that were run, each with the directory it was run in. -/
  log : List (Option Path × Command)

def World.set (w : World) (path : Path) (node : Option Node) : World := { w with nodes := Function.update w.nodes path node }

def World.begin (w : World) (command : Command) : World := { w with log := w.log ++ [(w.cwd, command)] }

/-- A shell of its own changes the directory for itself only. -/
def leave (before after : World) : World := { after with cwd := before.cwd }

/-- How much of its work a command has done. -/
inductive Extent where
  | nothing
  | started
  | part
  | whole
  deriving DecidableEq

inductive Reply where
  | done
  | fails (extent : Extent)
  | killed (extent : Extent)
  deriving DecidableEq

/-- What lies outside: which URLs can be fetched, and the branch that the git site has checked out. -/
structure Remote where
  served : String → Bool
  defaultBranch : String

def treeOf : Option Node → List Edit
  | some (.tree _ edits) => edits
  | _ => []

@[simp] theorem treeOf_tree (complete : Bool) (edits : List Edit) : treeOf (some (.tree complete edits)) = edits := rfl

section
variable (o : Remote)

/-- The work of a command as far as it goes. -/
def effect (w : World) : Command → Extent → World
  | .rm path, .whole => w.set path none
  | .touch path, .whole => w.set path (some ((w.nodes path).getD .marker))
  | .wget _ _ _ _, .nothing => w
  | .wget _ _ out url, .whole => w.set out (some (.file (some url)))
  | .wget _ _ out _, _ => w.set out (some (.file none))
  | .cd _ dir, .whole => { w with cwd := some dir }
  | .gitClone _, .nothing => w
  | .gitClone _, .started => w.set .localgit (some .directory)
  | .gitClone _, .part => (w.set .localgit (some .directory)).set .dotgit (some (.repository none))
  | .gitClone _, .whole =>
    (w.set .localgit (some .directory)).set .dotgit (some (.repository (some { branch := o.defaultBranch, revision := "HEAD" })))
  | .gitCheckout branch, extent =>
    match w.cwd, extent with
    | some .localgit, .whole => w.set .dotgit (some (.repository (some { branch, revision := "HEAD" })))
    | some .localgit, .part => w.set .dotgit (some (.repository none))
    | _, _ => w
  | .gitReset revision, extent =>
    match w.cwd, w.nodes .dotgit, extent with
    | some .localgit, some (.repository (some checkout)), .whole => w.set .dotgit (some (.repository (some { checkout with revision })))
    | some .localgit, _, .part => w.set .dotgit (some (.repository none))
    | _, _, _ => w
  | .svnCheckout _ _, .nothing => w
  | .svnCheckout _ _, extent => w.set .srcdir (some (.tree (extent = .whole) (treeOf (w.nodes .srcdir))))
  | .tar, .nothing => w
  | .tar, extent =>
    let edits := treeOf (w.nodes .srcdir)
    w.set .srcdir (some (.tree (extent = .whole) (if edits = [] then [] else edits ++ [.extraction])))
  | .patch, extent =>
    match w.cwd, w.nodes .srcdir, extent with
    | some .srcdir, some (.tree complete edits), .whole =>
      let applied := match w.nodes .patch_f with
        | some (.file (some _)) => Edit.patch
        | _ => Edit.partOfPatch
      w.set .srcdir (some (.tree complete (edits ++ [applied])))
    | some .srcdir, some (.tree complete edits), .part => w.set .srcdir (some (.tree complete (edits ++ [.partOfPatch])))
    | _, _, _ => w
  | _, _ => w

/-- Whether the command can do its work as things are. In another directory git may find a repository too. -/
def possible (w : World) : Command → Bool
  | .exists_ path => w.nodes path ≠ none
  | .missing path => w.nodes path = none
  | .touch .dotdecompressed_f => w.nodes .srcdir ≠ none
  | .touch .dotpatched_f => w.nodes .srcdir ≠ none
  | .wget _ _ _ url => o.served url
  | .cd _ dir => w.nodes dir ≠ none
  | .gitClone _ => w.nodes .dotgit = none
  | .gitCheckout branch => w.cwd ≠ some .localgit || branch ≠ o.defaultBranch
  | .tar => match w.nodes .package_f with
    | some (.file (some _)) => true
    | _ => false
  | .patch => w.nodes .patch_f ≠ none
  | _ => true

/-- How far an impossible command gets: wget creates its output file first, tar unpacks what it finds. -/
def wasted (w : World) : Command → Extent
  | .wget _ _ _ _ => .part
  | .tar => if w.nodes .package_f = none then .nothing else .part
  | _ => .nothing

/-- A command that only tests or prints does not fail on its own. -/
def steady : Command → Bool
  | .exists_ _ | .missing _ | .true_ | .echo => true
  | _ => false

/-- To be killed before anything is done is not to be run. -/
def perform (replies : Command → Reply) (command : Command) (w : World) : Status × World :=
  let begun := w.begin command
  match replies command with
  | .killed extent => (.stopped, if extent = .nothing then w else effect o begun command extent)
  | .fails extent =>
    if steady command then (if possible o begun command then .ok else .failed, begun)
    else (.failed, effect o begun command extent)
  | .done =>
    if possible o begun command then (.ok, effect o begun command .whole) else (.failed, effect o begun command (wasted begun command))

theorem effect_steady {command : Command} (quiet : steady command = true) (w : World) (extent : Extent) :
    effect o w command extent = w := by
  cases command <;> first | rfl | simp [steady] at quiet

/-- Rule for a command: it is killed, or fails as its reply says, or does what it can. -/
theorem ends_command {replies : Command → Reply} {command : Command} {w : World} {post : Status → World → Prop}
    (killed : ∀ extent, replies command = .killed extent →
      post .stopped (if extent = .nothing then w else effect o (w.begin command) command extent))
    (fails : steady command = false → ∀ extent, replies command = .fails extent → post .failed (effect o (w.begin command) command extent))
    (done : (steady command = false → replies command = .done) → possible o (w.begin command) command = true →
      post .ok (effect o (w.begin command) command .whole))
    (cannot : possible o (w.begin command) command = false →
      post .failed (effect o (w.begin command) command (wasted (w.begin command) command))) :
    Ends (perform o replies) leave (.cmd command) post w := by
  simp only [Ends, exec, perform]
  cases reply : replies command with
  | done =>
    cases able : possible o (w.begin command) command with
    | true => exact done (fun _ => reply) able
    | false => exact cannot able
  | fails extent =>
    cases quiet : steady command with
    | false => exact fails quiet extent reply
    | true =>
      rw [effect_steady o quiet] at done cannot
      cases able : possible o (w.begin command) command with
      | true => exact done (fun noisy => absurd quiet (by simp [noisy])) able
      | false => exact cannot able
  | killed extent => exact killed extent reply

/-- One attempt at a recipe. -/
def attempt (replies : Command → Reply) (lines : List (Script Command)) (w : World) : Status × World :=
  recipe (perform o replies) leave lines w

end
end EmbToolkit.Download
