import EmbToolkit.StateDirs

/-! The state files that are looked for before the makefile of a package is read are those of its recipes. The invariant
is where the paths of a tree can come from: a state directory tells the build directory of its package, and what looks
like a checkout is one. -/

namespace EmbToolkit.Proofs.StateDirs
open MakeText Files EmbToolkit.StateDirs

/-- The directory below `src` that a package is checked out in. -/
def checkoutDir (p : Package) : String :=
  orElse p.REFSPEC (match p.inclusion with
    | .pkg directory => orElse (orElse p.REFSPEC p.CATEGORY) directory
    | .xtool component => orElse (orElse p.REFSPEC p.CATEGORY) component
    | _ => "")

/-- The paths of three components that a run can leave. -/
inductive Made : Path → Prop where
  | shipped {path} (there : path ∈ repository) : Made path
  | inPackages {p} (declared : p ∈ packages) (built : p.buildDir = .packages) (target : String) :
      Made ["build", "packages_build-" ++ target, dotDir p.pkgv]
  | inTools {p} (declared : p ∈ packages) (built : p.buildDir = .tools ∨ ∃ owner NAME, p.buildDir = .source owner NAME true)
      (target : String) : Made ["build", "tools_build-" ++ target, dotDir p.pkgv]
  | inToolchain (directory file : String) : Made ["generated", directory, file]
  | source {p owner NAME tarball} (declared : p ∈ packages) (built : p.buildDir = .source owner NAME tarball) (directory : String) :
      Made ["src", directory, dotDir p.pkgv]
  | git {p} (declared : p ∈ packages) (capable : p.vcs = some .git) : Made ["src", checkoutDir p, pkgName p.pkgv p.NAME ++ ".git"]
  | svn {p} (declared : p ∈ packages) (capable : p.vcs = some .svn) (branch : String) :
      Made ["src", checkoutDir p, pkgName p.pkgv p.NAME ++ "-" ++ branch ++ ".svn"]

/-! ### Names -/

def endsIn (suffix text : String) : Bool := suffix.toList.isSuffixOf text.toList

private theorem endsIn_append (suffix text : String) : endsIn suffix (text ++ suffix) = true := by
  simp [endsIn]

private theorem endsIn_other {suffix other : String} (length : suffix.toList.length = other.toList.length) (different : suffix ≠ other)
    (text : String) : endsIn suffix (text ++ other) = false := by
  refine Bool.eq_false_iff.mpr fun ends => different (String.toList_inj.mp ?_)
  obtain ⟨start, same⟩ := List.isSuffixOf_iff_suffix.mp ends
  rw [String.toList_append] at same
  exact (List.append_inj' same length).2

private theorem append_injective {start a b : String} (same : start ++ a = start ++ b) : a = b := by
  have lists := congrArg String.toList same
  rw [String.toList_append, String.toList_append] at lists
  exact String.toList_inj.mp (List.append_cancel_left lists)

private theorem append_injective_left {a b rest : String} (same : a ++ rest = b ++ rest) : a = b := by
  have lists := congrArg String.toList same
  rw [String.toList_append, String.toList_append] at lists
  exact String.toList_inj.mp (List.append_cancel_right lists)

/-- The directories for build directories differ in their first letter. -/
private theorem builds_apart (a b : String) : "packages_build-" ++ a ≠ "tools_build-" ++ b := by
  intro same
  have lists := congrArg String.toList same
  simp at lists

private theorem hidden_append {name : String} (proper : name ≠ "") (rest : String) : isHidden (name ++ rest) = isHidden name := by
  unfold isHidden hasPrefix
  rw [String.toList_append]
  cases letters : name.toList with
  | nil => exact absurd (String.toList_eq_nil_iff.mp letters) proper
  | cons first more => simp [List.isPrefixOf]

private theorem dotDir_marked (pkgv : String) : hasPrefix ".embtk-" (dotDir pkgv) = true := by
  simp [hasPrefix, dotDir]

private theorem hidden_dotDir (pkgv : String) : isHidden (dotDir pkgv) = true := by
  simp [isHidden, hasPrefix, dotDir]

/-! ### What the makefiles have in common -/

/-- What holds of the makefiles of this repository. -/
private structure Makefiles : Prop where
  shipped_apart : ∀ path ∈ repository.entries, ∀ component ∈ path,
      hasPrefix ".embtk-" component = false ∧ endsIn ".git" component = false ∧ endsIn ".svn" component = false
  checkouts_named : ∀ p ∈ packages, p.vcs ≠ none →
      pkgName p.pkgv p.NAME ≠ "" ∧ isHidden (pkgName p.pkgv p.NAME) = false
  /-- A package that is built in a checkout is built in the one of a package that kconfig lets come from git. -/
  owners : packages.all (fun p => match p.buildDir with
      | .source owner NAME _ => !endsIn ".git" (dotDir p.pkgv) && !endsIn ".svn" (dotDir p.pkgv) && packages.any fun q =>
          q.pkgv = owner && q.NAME = NAME && q.vcs = some .git && q.REFSPEC ≠ "" && checkoutDir q = q.REFSPEC
      | _ => true) = true
  /-- Only a package that the macros include is built in a checkout and nowhere else. -/
  in_place_included : packages.all (fun p => match p.buildDir with
      | .source _ _ false => decide (p ∈ includedPackages)
      | _ => true) = true
  directories_apart : ∀ p ∈ packages, p.vcs = some .git →
      endsIn ".git" (checkoutDir p) = false ∧ endsIn ".svn" (checkoutDir p) = false
  packages_apart : ∀ q ∈ packages, q.buildDir ≠ .packages → ∀ p ∈ includedPackages, p.buildDir = .packages →
      q.pkgv ≠ p.pkgv
  others_apart : ∀ p ∈ includedPackages, p.buildDir ≠ .packages → ∀ q ∈ packages, q.buildDir ≠ p.buildDir →
      q.pkgv ≠ p.pkgv
  included_sources : ∀ p ∈ includedPackages, p.buildDir ≠ .packages → p.buildDir ≠ .tools →
      p.buildDir = .source p.pkgv p.NAME false ∧ p.vcs = some .git ∧ pkgName p.pkgv p.NAME = pkgName p.pkgv "" ∧
        isHidden (checkoutDir p) = false ∧ checkoutDir p = p.REFSPEC ∧ p.REFSPEC ≠ ""
  /-- The package that is checked out from git under the name of a package is this package. -/
  git_unique : ∀ q ∈ packages, q.vcs = some .git → ∀ p ∈ includedPackages,
      pkgName q.pkgv q.NAME = pkgName p.pkgv "" → checkoutDir q = checkoutDir p
  svn_apart : ∀ q ∈ packages, q.vcs = some .svn → ∀ p ∈ includedPackages,
      hasPrefix (pkgName p.pkgv "") (pkgName q.pkgv q.NAME ++ "-") = false ∧
        hasPrefix (pkgName q.pkgv q.NAME ++ "-") (pkgName p.pkgv "") = false

private theorem makefiles : Makefiles where
  shipped_apart := by decide +kernel
  checkouts_named := by decide +kernel
  owners := by decide +kernel
  in_place_included := by decide +kernel
  directories_apart := by decide +kernel
  packages_apart := by decide +kernel
  others_apart := by decide +kernel
  included_sources := by decide +kernel
  git_unique := by decide +kernel
  svn_apart := by decide +kernel

/-- A name stands for one build directory. -/
private theorem buildDir_unique {p q : Package} (included : p ∈ includedPackages) (declared : q ∈ packages) (named : q.pkgv = p.pkgv) :
    q.buildDir = p.buildDir := by
  by_contra different
  by_cases built : p.buildDir = .packages
  · exact makefiles.packages_apart q declared (built ▸ different) p included built named
  · exact makefiles.others_apart p included built q declared different named

private theorem source_facts {p : Package} (declared : p ∈ packages) {owner NAME : String} {tarball : Bool}
    (built : p.buildDir = .source owner NAME tarball) :
    endsIn ".git" (dotDir p.pkgv) = false ∧ endsIn ".svn" (dotDir p.pkgv) = false ∧ ∃ q ∈ packages, q.pkgv = owner ∧ q.NAME = NAME ∧
      q.vcs = some .git ∧ q.REFSPEC ≠ "" ∧ checkoutDir q = q.REFSPEC := by
  have fact := List.all_eq_true.mp makefiles.owners p declared
  simp only [built, Bool.and_eq_true, Bool.not_eq_true', List.any_eq_true, decide_eq_true_eq] at fact
  obtain ⟨⟨git, svn⟩, q, member, ⟨⟨⟨named, called⟩, capable⟩, placed⟩, place⟩ := fact
  exact ⟨git, svn, q, member, named, called, capable, placed, place⟩

/-! ### Where a path comes from -/

section
variable {pkgv directory target name : String}

private theorem not_shipped {path : Path} {file : String} (there : path ∈ repository) (named : file ∈ path)
    (special : hasPrefix ".embtk-" file = true ∨ endsIn ".git" file = true ∨ endsIn ".svn" file = true) : False := by
  obtain ⟨state, git, svn⟩ := makefiles.shipped_apart path there file named
  simp [state, git, svn] at special

private theorem not_checkout {p : Package} (declared : p ∈ packages) (capable : p.vcs ≠ none) (rest : String) :
    dotDir pkgv ≠ pkgName p.pkgv p.NAME ++ rest := by
  intro same
  obtain ⟨proper, visible⟩ := makefiles.checkouts_named p declared capable
  have dotted := hidden_dotDir pkgv
  rw [same, hidden_append proper, visible] at dotted
  exact Bool.false_ne_true dotted

theorem Made.of_packages (made : Made ["build", "packages_build-" ++ target, dotDir pkgv]) :
    ∃ p ∈ packages, p.pkgv = pkgv ∧ p.buildDir = .packages := by
  generalize shape : ["build", "packages_build-" ++ target, dotDir pkgv] = path at made
  cases made with
  | shipped there => exact (not_shipped there (by simp [← shape]) (.inl (dotDir_marked pkgv))).elim
  | inPackages declared built other =>
    simp only [List.cons.injEq, and_true, true_and] at shape
    exact ⟨_, declared, (append_injective shape.2).symm, built⟩
  | inTools declared built other =>
    simp only [List.cons.injEq, and_true, true_and] at shape
    exact absurd shape.1 (builds_apart _ _)
  | inToolchain | source | git | svn => simp at shape

theorem Made.of_tools (made : Made ["build", "tools_build-" ++ target, dotDir pkgv]) :
    ∃ p ∈ packages, p.pkgv = pkgv ∧ (p.buildDir = .tools ∨ ∃ owner NAME, p.buildDir = .source owner NAME true) := by
  generalize shape : ["build", "tools_build-" ++ target, dotDir pkgv] = path at made
  cases made with
  | shipped there => exact (not_shipped there (by simp [← shape]) (.inl (dotDir_marked pkgv))).elim
  | inPackages declared built other =>
    simp only [List.cons.injEq, and_true, true_and] at shape
    exact absurd shape.1.symm (builds_apart _ _)
  | inTools declared built other =>
    simp only [List.cons.injEq, and_true, true_and] at shape
    exact ⟨_, declared, (append_injective shape.2).symm, built⟩
  | inToolchain | source | git | svn => simp at shape

theorem Made.of_source (made : Made ["src", directory, dotDir pkgv]) :
    ∃ p ∈ packages, p.pkgv = pkgv ∧ ∃ owner NAME tarball, p.buildDir = .source owner NAME tarball := by
  generalize shape : ["src", directory, dotDir pkgv] = path at made
  cases made with
  | shipped there => exact (not_shipped there (by simp [← shape]) (.inl (dotDir_marked pkgv))).elim
  | inPackages | inTools | inToolchain => simp at shape
  | source declared built other =>
    simp only [List.cons.injEq, and_true, true_and] at shape
    exact ⟨_, declared, (append_injective shape.2).symm, _, _, _, built⟩
  | git declared capable =>
    simp only [List.cons.injEq, and_true, true_and] at shape
    exact absurd shape.2 (not_checkout declared (by simp [capable]) _)
  | svn declared capable branch =>
    simp only [List.cons.injEq, and_true, true_and, String.append_assoc] at shape
    exact absurd shape.2 (not_checkout declared (by simp [capable]) _)

theorem Made.of_git (made : Made ["src", directory, name ++ ".git"]) :
    ∃ p ∈ packages, p.vcs = some .git ∧ pkgName p.pkgv p.NAME = name ∧ checkoutDir p = directory := by
  generalize shape : ["src", directory, name ++ ".git"] = path at made
  have ends := endsIn_append ".git" name
  cases made with
  | shipped there => exact (not_shipped there (by simp [← shape]) (.inr (.inl ends))).elim
  | inPackages | inTools | inToolchain => simp at shape
  | source declared built other =>
    simp only [List.cons.injEq, and_true, true_and] at shape
    rw [shape.2, (source_facts declared built).1] at ends
    exact absurd ends Bool.false_ne_true
  | git declared capable =>
    simp only [List.cons.injEq, and_true, true_and] at shape
    exact ⟨_, declared, capable, (append_injective_left shape.2).symm, shape.1.symm⟩
  | svn declared capable branch =>
    simp only [List.cons.injEq, and_true, true_and] at shape
    rw [shape.2, endsIn_other (by decide) (by decide)] at ends
    exact absurd ends Bool.false_ne_true

theorem Made.of_svn {file : String} (made : Made ["src", directory, file]) (ends : endsIn ".svn" file = true) :
    ∃ p ∈ packages, p.vcs = some .svn ∧ ∃ rest, file = pkgName p.pkgv p.NAME ++ "-" ++ rest := by
  generalize shape : ["src", directory, file] = path at made
  cases made with
  | shipped there => exact (not_shipped there (by simp [← shape]) (.inr (.inr ends))).elim
  | inPackages | inTools | inToolchain => simp at shape
  | source declared built other =>
    simp only [List.cons.injEq, and_true, true_and] at shape
    rw [shape.2, (source_facts declared built).2.1] at ends
    exact absurd ends Bool.false_ne_true
  | git declared capable =>
    simp only [List.cons.injEq, and_true, true_and] at shape
    rw [shape.2, endsIn_other (by decide) (by decide)] at ends
    exact absurd ends Bool.false_ne_true
  | svn declared capable branch =>
    simp only [List.cons.injEq, and_true, true_and] at shape
    exact ⟨_, declared, capable, branch ++ ".svn", by rw [shape.2, String.append_assoc]⟩

end

/-! ### Configured checkouts -/

section
variable (c : KconfigFile) {p : Package}

private theorem refspec_checkoutDir (declared : p ∈ packages) (used : usegit c.toConfig p.pkgv = true ∨ usesvn c.toConfig p.pkgv = true) :
    p.refspec c.toConfig = checkoutDir p := by
  obtain ⟨given, both⟩ := c.refspec p declared used
  cases shape : p.inclusion <;> simp [Package.refspec, Package.category, checkoutDir, given, both, shape]

private theorem not_usesvn (declared : p ∈ packages) (capable : p.vcs = some .git) : usesvn c.toConfig p.pkgv = false := by
  refine Bool.eq_false_iff.mpr fun used => ?_
  have other := c.svn p declared used
  simp [capable] at other

/-- The checkout of a package that another may be built in. -/
private theorem checkout_owner (declared : p ∈ packages) (capable : p.vcs = some .git) (placed : p.REFSPEC ≠ "")
    (place : checkoutDir p = p.REFSPEC) :
    checkout c.toConfig p.pkgv p.NAME (uquote (kconfig c.toConfig p.pkgv "_REFSPEC")) =
      if usegit c.toConfig p.pkgv then [["src", checkoutDir p, pkgName p.pkgv p.NAME ++ ".git"]] else [] := by
  unfold checkout
  split
  · next used =>
    rw [(c.refspec p declared (.inl used)).1, srcPath, if_neg placed, place]
    rfl
  · rw [not_usesvn c declared capable]
    rfl

private theorem sourceBuilddir_cases (declared : p ∈ packages) :
    sourceBuilddir c.toConfig p = [] ∨ ∃ q ∈ packages, q.vcs = some .git ∧
      sourceBuilddir c.toConfig p = [["src", checkoutDir q, pkgName q.pkgv q.NAME ++ ".git"]] := by
  cases built : p.buildDir with
  | packages | tools | toolchain => exact .inl (by simp [sourceBuilddir, built])
  | source owner NAME tarball =>
    obtain ⟨-, -, q, member, rfl, rfl, capable, placed, place⟩ := source_facts declared built
    have shape : sourceBuilddir c.toConfig p = if usegit c.toConfig q.pkgv then [["src", checkoutDir q, pkgName q.pkgv q.NAME ++ ".git"]]
        else [] := by
      rw [← checkout_owner c member capable placed place, sourceBuilddir, built]
    rw [shape]
    split
    · exact .inr ⟨q, member, capable, rfl⟩
    · exact .inl rfl

/-- The directory that the state directory of a package is in, once its makefile is read. -/
structure Place (p : Package) (a b : String) : Prop where
  x0 : x0statedir c.toConfig (some p.buildDir) = [[a, b]]
  made : Made [a, b, dotDir p.pkgv]
  relative : a ≠ "/"
  beside : a = "src" → ∃ owner NAME tarball, p.buildDir = .source owner NAME tarball ∧
    sourceBuilddir c.toConfig p = [["src", b, pkgName owner NAME ++ ".git"]]

theorem place_cases (declared : p ∈ packages) :
    (x0statedir c.toConfig (some p.buildDir) = [] ∧ ∃ owner NAME, p.buildDir = .source owner NAME false ∧ usegit c.toConfig owner = false) ∨
      ∃ a b, Place c p a b := by
  cases built : p.buildDir with
  | packages =>
    exact .inr ⟨"build", "packages_build-" ++ target c.toConfig, by rw [built]; rfl, .inPackages declared built _, by decide, by simp⟩
  | tools =>
    exact .inr ⟨"build", "tools_build-" ++ target c.toConfig, by rw [built]; rfl, .inTools declared (.inl built) _, by decide, by simp⟩
  | toolchain => exact .inr ⟨"generated", toolchainDir c.toConfig, by rw [built]; rfl, .inToolchain _ _, by decide, by simp⟩
  | source owner NAME tarball =>
    obtain ⟨-, -, q, member, rfl, rfl, capable, placed, place⟩ := source_facts declared built
    have location := checkout_owner c member capable placed place
    by_cases used : usegit c.toConfig q.pkgv = true
    · rw [if_pos used] at location
      refine .inr ⟨"src", checkoutDir q, ?_, .source declared built _, by decide, fun _ => ⟨_, _, _, built, ?_⟩⟩
      · rw [built, x0statedir, location, used]
        rfl
      · rw [sourceBuilddir, built]
        exact location
    · have unused := Bool.eq_false_iff.mpr used
      cases tarball with
      | false => exact .inl ⟨by simp [x0statedir, unused, not_usesvn c member capable], _, _, rfl, unused⟩
      | true =>
        refine .inr ⟨"build", "tools_build-" ++ target c.toConfig, ?_, .inTools declared (.inr ⟨_, _, built⟩) _, by decide, by simp⟩
        simp [built, x0statedir, unused, not_usesvn c member capable]

variable {c} {a b : String}

theorem Place.statedir (place : Place c p a b) (t : FileTree) : statedir p.variables c.toConfig p.pkgv t = [[a, b, dotDir p.pkgv]] := by
  simp [StateDirs.statedir, statedirParent, Package.variables, place.x0, appendLast]

theorem Place.dotFile (place : Place c p a b) (t : FileTree) (file : String) :
    dotFile p.variables c.toConfig p.pkgv t file = [[a, b, dotDir p.pkgv, file]] := by
  simp [StateDirs.dotFile, place.statedir t, appendLast]

end

/-! ### The invariant -/

structure Legit (path : Path) : Prop where
  relative : path.head? ≠ some "/"
  made : 3 ≤ path.length → Made (path.take 3)

/-- In a tree with these checkouts, a path that is added leaves every state directory beside its checkout. -/
def Beside (checkouts : List Path) (path : Path) : Prop :=
  ∀ p ∈ includedPackages, ∀ owner NAME tarball directory, p.buildDir = .source owner NAME tarball →
    ["src", directory, dotDir p.pkgv] <+: path → ["src", directory, pkgName owner NAME ++ ".git"] ∈ checkouts

structure Valid (t : FileTree) : Prop where
  legit : ∀ path ∈ t, Legit path
  beside : ∀ path ∈ t, Beside t.entries path

theorem Legit.of_prefix {stem path : Path} (legit : Legit path) (before : stem <+: path) : Legit stem where
  relative := by
    obtain ⟨rest, rfl⟩ := before
    intro first
    exact legit.relative (by rw [List.head?_append, first]; rfl)
  made := by
    obtain ⟨rest, rfl⟩ := before
    intro long
    have whole := legit.made (by rw [List.length_append]; omega)
    rwa [List.take_append_of_le_length long] at whole

theorem Legit.of_made {a b file : String} (made : Made [a, b, file]) (relative : a ≠ "/") (rest : Path) : Legit ([a, b, file] ++ rest) :=
  ⟨by simpa using relative, fun _ => made⟩

theorem Valid.made {t : FileTree} (valid : Valid t) {a b file : String} (there : [a, b, file] ∈ t) : Made [a, b, file] :=
  (valid.legit _ there).made (by simp)

/-- What is added is as it should be. -/
private theorem Valid.extend {t t' : FileTree} (valid : Valid t) {word : Path} (legit : Legit word) (beside : Beside t.entries word)
    (kept : ∀ path ∈ t, path ∈ t') (grown : ∀ path ∈ t', path <+: word ∨ path ∈ t) : Valid t' where
  legit path there := by
    rcases grown path there with before | old
    · exact legit.of_prefix before
    · exact valid.legit path old
  beside path there p included owner NAME tarball directory built within := by
    rcases grown path there with before | old
    · exact kept _ (beside p included owner NAME tarball directory built (within.trans before))
    · exact kept _ (valid.beside path old p included owner NAME tarball directory built within)

def Checkout (path : Path) : Prop := ∃ p ∈ packages, p.vcs = some .git ∧ path = ["src", checkoutDir p, pkgName p.pkgv p.NAME ++ ".git"]

theorem Valid.checkout {t : FileTree} (valid : Valid t) {directory name : String} (there : ["src", directory, name ++ ".git"] ∈ t) :
    Checkout ["src", directory, name ++ ".git"] := by
  obtain ⟨p, declared, capable, rfl, rfl⟩ := (valid.made there).of_git
  exact ⟨p, declared, capable, rfl⟩

/-- The commands that leave checkouts in place. -/
def Spares : Command → Prop
  | .remove words => ∀ word ∈ words, ∀ path, Checkout path → ¬ word <+: path
  | .removeMatching pattern => ∀ word path, Checkout path → word <+: path → pattern word = false
  | _ => True

/-- What the commands may make where these checkouts are. -/
def Makes (checkouts : List Path) : Command → Prop
  | .mkdir words => ∀ word ∈ words, Legit word ∧ Beside checkouts word
  | .touch words => ∀ word ∈ words, Legit word ∧ Beside checkouts word
  | _ => True

theorem Spares.kept {command : Command} (spares : Spares command) {t : FileTree} {path : Path} (checkout : Checkout path) (there : path ∈ t) :
    path ∈ command.apply t := by
  cases command with
  | mkdir words =>
    induction words generalizing t with
    | nil => exact there
    | cons word rest ih => exact ih (FileTree.mem_mkdir.mpr (.inr there)) trivial
  | touch words =>
    induction words generalizing t with
    | nil => exact there
    | cons word rest ih => exact ih (FileTree.mem_touch.mpr (.inr there)) trivial
  | remove words =>
    refine FileTree.mem_remove.mpr ⟨there, fun stem before => Bool.eq_false_iff.mpr fun member => ?_⟩
    exact spares stem (by simpa using member) path checkout before
  | removeMatching pattern => exact FileTree.mem_remove.mpr ⟨there, fun stem before => spares stem path checkout before⟩

private theorem Valid.remove {t : FileTree} (valid : Valid t) {pattern : Path → Bool}
    (spares : ∀ path, Checkout path → path ∈ t → path ∈ t.remove pattern) :
    Valid (t.remove pattern) where
  legit path there := valid.legit path (FileTree.mem_remove.mp there).1
  beside path there p included owner NAME tarball directory built within := by
    have source := valid.beside path (FileTree.mem_remove.mp there).1 p included owner NAME tarball directory built within
    exact spares _ (valid.checkout source) source

private theorem Beside.mono {checkouts more : List Path} {path : Path} (beside : Beside checkouts path)
    (within : ∀ word ∈ checkouts, word ∈ more) : Beside more path :=
  fun p included owner NAME tarball directory built before => within _ (beside p included owner NAME tarball directory built before)

theorem Valid.step {t : FileTree} (valid : Valid t) {command : Command} {checkouts : List Path} (makes : Makes checkouts command)
    (spares : Spares command) (there : ∀ word ∈ checkouts, word ∈ t) : Valid (command.apply t) := by
  cases command with
  | mkdir words =>
    induction words generalizing t with
    | nil => exact valid
    | cons word rest ih =>
      obtain ⟨legit, beside⟩ := makes word List.mem_cons_self
      refine ih ?_ (fun other old => FileTree.mem_mkdir.mpr (.inr (there other old))) (fun other member => makes other (List.mem_cons_of_mem _ member)) trivial
      exact valid.extend legit (beside.mono there) (fun path old => FileTree.mem_mkdir.mpr (.inr old)) fun path => FileTree.mem_mkdir.mp
  | touch words =>
    induction words generalizing t with
    | nil => exact valid
    | cons word rest ih =>
      obtain ⟨legit, beside⟩ := makes word List.mem_cons_self
      refine ih ?_ (fun other old => FileTree.mem_touch.mpr (.inr (there other old))) (fun other member => makes other (List.mem_cons_of_mem _ member)) trivial
      refine valid.extend legit (beside.mono there) (fun path old => FileTree.mem_touch.mpr (.inr old)) fun path present => ?_
      rcases FileTree.mem_touch.mp present with ⟨rfl, -⟩ | old
      · exact .inl List.prefix_rfl
      · exact .inr old
  | remove words => exact valid.remove fun path => spares.kept
  | removeMatching pattern => exact valid.remove fun path => spares.kept

/-- Commands that keep to these checkouts keep the invariant, wherever the recipe ends. -/
theorem Valid.run {t : FileTree} (valid : Valid t) {commands : List Command} {checkouts : List Path}
    (shape : ∀ word ∈ checkouts, Checkout word) (there : ∀ word ∈ checkouts, word ∈ t)
    (sound : ∀ command ∈ commands, Makes checkouts command ∧ Spares command) : Valid (Script.run Command.apply commands t) := by
  suffices ready : Valid (Script.run Command.apply commands t) ∧ ∀ word ∈ checkouts, word ∈ Script.run Command.apply commands t from ready.1
  refine Script.run_preserves Command.apply (fun t => Valid t ∧ ∀ word ∈ checkouts, word ∈ t) ?_ ⟨valid, there⟩
  intro command member s ⟨kept, present⟩
  obtain ⟨makes, spares⟩ := sound command member
  exact ⟨kept.step makes spares present, fun word old => spares.kept (shape word old) (present word old)⟩

theorem repository_valid : Valid repository where
  legit path there := by
    refine ⟨?_, ?_⟩
    · exact (by decide +kernel : ∀ path ∈ repository.entries, path.head? ≠ some "/") path there
    · intro long
      exact .shipped (FileTree.mem_of_prefix there (List.take_prefix 3 path))
  beside path there p included owner NAME tarball directory built before :=
    (not_shipped (FileTree.mem_of_prefix there before) (by simp) (.inl (dotDir_marked p.pkgv))).elim

/-! ### The fallbacks -/

section
variable (c : KconfigFile) {p : Package} {t : FileTree}

/-- Without a build directory the makefile contributes nothing but the name. -/
private theorem statedir_unread {v : Variables} (none : x0statedir c.toConfig v.buildDir = []) {pkgv : String}
    (named : pkgName pkgv v.NAME = pkgName pkgv "") :
    statedir v c.toConfig pkgv t = statedir .unread c.toConfig pkgv t := by
  have unread : x0statedir c.toConfig Variables.unread.buildDir = [] := rfl
  unfold statedir statedirParent
  rw [none, unread, named]
  rfl

private theorem git_found (valid : Valid t) (included : p ∈ includedPackages) {path : Path} (there : path ∈ t)
    (found : gitPattern (pkgName p.pkgv "") path = true) : path = ["src", checkoutDir p, pkgName p.pkgv "" ++ ".git"] := by
  unfold gitPattern at found
  split at found
  · next directory file =>
    simp only [Bool.and_eq_true, decide_eq_true_eq] at found
    obtain ⟨-, rfl⟩ := found
    obtain ⟨q, declared, capable, named, rfl⟩ := (valid.made there).of_git
    rw [makefiles.git_unique q declared capable p included named]
  · exact absurd found Bool.false_ne_true

private theorem svn_not_found (valid : Valid t) (included : p ∈ includedPackages) {path : Path} (there : path ∈ t) :
    svnPattern (pkgName p.pkgv "") path = false := by
  refine Bool.eq_false_iff.mpr fun found => ?_
  unfold svnPattern at found
  split at found
  · next directory file =>
    simp only [Bool.and_eq_true] at found
    obtain ⟨⟨-, start⟩, ending⟩ := found
    have ends : endsIn ".svn" file = true :=
      List.isSuffixOf_iff_suffix.mpr ((List.isSuffixOf_iff_suffix.mp ending).trans (List.drop_suffix _ _))
    obtain ⟨q, declared, capable, rest, rfl⟩ := (valid.made there).of_svn ends
    obtain ⟨first, second⟩ := makefiles.svn_apart q declared capable p included
    have one : (pkgName p.pkgv "").toList <+: (pkgName q.pkgv q.NAME ++ "-" ++ rest).toList := List.isPrefixOf_iff_prefix.mp start
    have other : (pkgName q.pkgv q.NAME ++ "-").toList <+: (pkgName q.pkgv q.NAME ++ "-" ++ rest).toList :=
      ⟨rest.toList, String.toList_append.symm⟩
    rcases List.prefix_or_prefix_of_prefix one other with before | before
    · exact Bool.false_ne_true (first.symm.trans (List.isPrefixOf_iff_prefix.mpr before))
    · exact Bool.false_ne_true (second.symm.trans (List.isPrefixOf_iff_prefix.mpr before))
  · exact absurd found Bool.false_ne_true

/-- Where the state directory of a package is found before its makefile is read. -/
inductive Found (p : Package) (t : FileTree) : List Path → Prop where
  | packages (there : ["build", "packages_build-" ++ target c.toConfig, dotDir p.pkgv] ∈ t) :
      Found p t [["build", "packages_build-" ++ target c.toConfig, dotDir p.pkgv]]
  | tools (there : ["build", "tools_build-" ++ target c.toConfig, dotDir p.pkgv] ∈ t) :
      Found p t [["build", "tools_build-" ++ target c.toConfig, dotDir p.pkgv]]
  | source (packages : ["build", "packages_build-" ++ target c.toConfig, dotDir p.pkgv] ∉ t)
      (tools : ["build", "tools_build-" ++ target c.toConfig, dotDir p.pkgv] ∉ t)
      (there : ["src", checkoutDir p, pkgName p.pkgv "" ++ ".git"] ∈ t) : Found p t [["src", checkoutDir p, dotDir p.pkgv]]
  | nowhere (packages : ["build", "packages_build-" ++ target c.toConfig, dotDir p.pkgv] ∉ t)
      (tools : ["build", "tools_build-" ++ target c.toConfig, dotDir p.pkgv] ∉ t)
      (source : isHidden (checkoutDir p) = false → ["src", checkoutDir p, pkgName p.pkgv "" ++ ".git"] ∉ t) : Found p t []

theorem found (valid : Valid t) (included : p ∈ includedPackages) : Found c p t (statedir .unread c.toConfig p.pkgv t) := by
  have svn : t.wildcard (svnPattern (pkgName p.pkgv "")) = [] := FileTree.wildcard_eq_nil.mpr fun path => svn_not_found valid included
  unfold statedir statedirParent
  simp only [Variables.unread, x0statedir, ne_eq, not_true_eq_false, if_false, svn, List.map_nil]
  split
  · next there => exact .packages there
  · next packages =>
    split
    · next there => exact .tools there
    · next tools =>
      split
      · next nonempty =>
        obtain ⟨path, member⟩ := List.exists_mem_of_ne_nil _ nonempty
        obtain ⟨there, matched⟩ := FileTree.mem_wildcard.mp member
        obtain rfl := git_found valid included there matched
        rw [FileTree.wildcard_single (fun other => git_found valid included) there matched]
        exact .source packages tools there
      · next empty =>
        refine .nowhere packages tools fun visible there => ?_
        have all := FileTree.wildcard_eq_nil.mp (not_not.mp empty) _ there
        simp [gitPattern, visible] at all

end

/-! ### Recipes -/

section
variable (c : KconfigFile) {p : Package} {t : FileTree}

private theorem git_legit (declared : p ∈ packages) (capable : p.vcs = some .git) :
    Legit ["src", checkoutDir p, pkgName p.pkgv p.NAME ++ ".git"] :=
  .of_made (.git declared capable) (by decide) []

/-- A path whose third component is not a state directory. -/
private theorem beside_of_ne {checkouts : List Path} {a b file : String} (other : ∀ pkgv, dotDir pkgv ≠ file) : Beside checkouts [a, b, file] := by
  intro q included owner NAME tarball directory built before
  obtain ⟨rest, same⟩ := before
  simp only [List.cons_append, List.cons.injEq] at same
  exact absurd same.2.2.1 (other q.pkgv)

private theorem beside_short {checkouts : List Path} {a b : String} : Beside checkouts [a, b] := by
  intro q included owner NAME tarball directory built before
  have short := before.length_le
  simp at short

private theorem checkout_legit (declared : p ∈ packages) (checkouts : List Path) :
    ∀ word ∈ checkout c.toConfig p.pkgv p.NAME (p.refspec c.toConfig), Legit word ∧ Beside checkouts word := by
  intro word member
  unfold checkout at member
  split at member
  · next used =>
    have capable := c.git p declared used
    rw [refspec_checkoutDir c declared (.inl used), List.mem_singleton] at member
    by_cases top : checkoutDir p = ""
    · rw [member, srcPath, if_pos top]
      exact ⟨⟨by simp, by simp⟩, beside_short⟩
    · rw [member, srcPath, if_neg top]
      exact ⟨git_legit declared capable, beside_of_ne fun pkgv => not_checkout declared (by simp [capable]) _⟩
  · split at member
    · next used =>
      have capable := c.svn p declared used
      rw [refspec_checkoutDir c declared (.inr used), List.mem_singleton] at member
      by_cases top : checkoutDir p = ""
      · rw [member, srcPath, if_pos top]
        exact ⟨⟨by simp, by simp⟩, beside_short⟩
      · rw [member, srcPath, if_neg top]
        refine ⟨.of_made (.svn declared capable _) (by decide) [], beside_of_ne fun pkgv => ?_⟩
        rw [String.append_assoc, String.append_assoc]
        exact not_checkout declared (by simp [capable]) _
    · simp at member

/-- The words below the state directory of a package whose checkout is there. -/
private theorem Place.sound {a b : String} (declared : p ∈ packages) (place : Place c p a b) (rest : Path) :
    Legit ([a, b, dotDir p.pkgv] ++ rest) ∧ Beside (sourceBuilddir c.toConfig p) ([a, b, dotDir p.pkgv] ++ rest) := by
  refine ⟨.of_made place.made place.relative rest, fun q included owner NAME tarball directory built before => ?_⟩
  obtain ⟨more, same⟩ := before
  simp only [List.cons_append, List.cons.injEq] at same
  obtain ⟨rfl, rfl, named, -⟩ := same
  obtain ⟨owner', NAME', tarball', ownBuilt, own⟩ := place.beside rfl
  have agree := buildDir_unique included declared (append_injective named).symm
  rw [ownBuilt, built] at agree
  cases agree
  rw [own]
  exact List.mem_singleton_self _

theorem install_valid (declared : p ∈ packages) (valid : Valid t) (configures : Bool) (executed : Nat) :
    Valid (Script.run Command.apply ((install c.toConfig p t configures).take executed) t) := by
  rcases place_cases c declared with ⟨none, -⟩ | ⟨a, b, place⟩
  · rw [install, if_pos none, List.take_nil]
    exact valid
  · have source : ∀ word ∈ sourceBuilddir c.toConfig p, Legit word ∧ Beside [] word ∧ Checkout word := by
      intro word member
      rcases sourceBuilddir_cases c declared with none | ⟨q, other, capable, own⟩
      · rw [none] at member
        simp at member
      · rw [own, List.mem_singleton] at member
        rw [member]
        exact ⟨git_legit other capable, beside_of_ne fun pkgv => not_checkout other (by simp [capable]) _, q, other, capable, rfl⟩
    rw [install, if_neg (by simp [place.x0]), place.statedir, place.dotFile, place.dotFile, place.dotFile]
    cases executed with
    | zero => exact valid
    | succ count =>
      simp only [List.cons_append, List.take_succ_cons, Script.run_cons]
      have makes : Makes [] (.mkdir (sourceBuilddir c.toConfig p)) := fun word member => ⟨(source word member).1, (source word member).2.1⟩
      have begun := valid.step makes trivial (by simp)
      refine begun.run (fun word member => (source word member).2.2) ?_ ?_
      · intro word member
        rcases sourceBuilddir_cases c declared with none | ⟨q, -, -, own⟩
        · simp [none] at member
        · rw [own] at member ⊢
          exact FileTree.mem_mkdir.mpr (.inl (List.mem_singleton.mp member ▸ List.prefix_rfl))
      · intro command member
        have within := List.mem_of_mem_take member
        have state (rest : Path) : ∀ word ∈ [[a, b, dotDir p.pkgv] ++ rest], Legit word ∧ Beside (sourceBuilddir c.toConfig p) word :=
          fun word only => List.mem_singleton.mp only ▸ place.sound c declared rest
        cases configures with
        | false =>
          simp only [Bool.false_eq_true, if_false, List.nil_append, List.mem_cons, List.not_mem_nil, or_false] at within
          rcases within with rfl | rfl | rfl | rfl
          · exact ⟨checkout_legit c declared _, trivial⟩
          · exact ⟨state [], trivial⟩
          · exact ⟨state [".embtk.installed"], trivial⟩
          · exact ⟨state [".embtk.kconfig"], trivial⟩
        | true =>
          simp only [if_true, List.nil_append, List.cons_append, List.mem_cons, List.not_mem_nil, or_false] at within
          rcases within with rfl | rfl | rfl | rfl | rfl | rfl
          · exact ⟨checkout_legit c declared _, trivial⟩
          · exact ⟨state [], trivial⟩
          · exact ⟨state [".embtk.configured"], trivial⟩
          · exact ⟨state [], trivial⟩
          · exact ⟨state [".embtk.installed"], trivial⟩
          · exact ⟨state [".embtk.kconfig"], trivial⟩

private theorem state_spared {pkgv a b : String} (other : a = "src" → endsIn ".git" (dotDir pkgv) = false) (rest path : Path)
    (checkout : Checkout path) : ¬ [a, b, dotDir pkgv] ++ rest <+: path := by
  intro before
  obtain ⟨q, declared, capable, rfl⟩ := checkout
  obtain ⟨more, same⟩ := before
  simp only [List.cons_append, List.cons.injEq] at same
  obtain ⟨rfl, -, named, -⟩ := same
  have ends := other rfl
  rw [named, endsIn_append] at ends
  exact Bool.false_ne_true ends.symm

theorem cleanup_sound (declared : p ∈ packages) (valid : Valid t) :
    ∀ command ∈ cleanup c.toConfig p t, Makes [] command ∧ Spares command := by
  intro command member
  rcases place_cases c declared with ⟨none, owner, NAME, built, unused⟩ | ⟨a, b, place⟩
  · have included : p ∈ includedPackages := by
      have fact := List.all_eq_true.mp makefiles.in_place_included p declared
      simpa only [built, decide_eq_true_eq] using fact
    obtain ⟨own, capable, named, -⟩ := makefiles.included_sources p included (by simp [built]) (by simp [built])
    rw [built] at own
    cases own
    have unread : statedir p.variables c.toConfig p.pkgv t = statedir .unread c.toConfig p.pkgv t := statedir_unread c none named
    simp only [cleanup, unused, not_usesvn c declared capable, unread, Bool.or_false, Bool.false_eq_true, if_false, List.nil_append,
      List.mem_ite_nil_right, List.mem_singleton] at member
    obtain ⟨-, rfl⟩ := member
    refine ⟨trivial, fun word only path checkout => ?_⟩
    have origin := found c valid included
    generalize statedir .unread c.toConfig p.pkgv t = words at origin only
    cases origin with
    | packages | tools => exact List.mem_singleton.mp only ▸ state_spared (by simp) [] path checkout
    | source => exact List.mem_singleton.mp only ▸ state_spared (fun _ => (source_facts declared built).1) [] path checkout
    | nowhere => simp at only
  · have apart : a = "src" → endsIn ".git" (dotDir p.pkgv) = false := by
      intro here
      obtain ⟨_, _, _, built, -⟩ := place.beside here
      exact (source_facts declared built).1
    have spared (rest : Path) : Spares (.remove [[a, b, dotDir p.pkgv] ++ rest]) := fun word only path checkout =>
      List.mem_singleton.mp only ▸ state_spared apart rest path checkout
    rw [cleanup, place.statedir, place.dotFile, place.dotFile] at member
    rcases List.mem_append.mp member with files | whole
    · split at files
      · rcases List.mem_pair.mp files with rfl | rfl
        · exact ⟨trivial, spared [".embtk.configured"]⟩
        · exact ⟨trivial, spared [".embtk.installed"]⟩
      · simp at files
    · simp only [ne_eq, List.cons_ne_self, not_false_eq_true, if_true, List.mem_singleton] at whole
      exact whole ▸ ⟨trivial, spared []⟩

theorem clean_sound : ∀ command ∈ StateDirs.clean c.toConfig, Makes [] command ∧ Spares command := by
  intro command member
  rcases List.mem_pair.mp member with rfl | rfl
  · refine ⟨trivial, ?_⟩
    rintro word _ ⟨q, -, -, rfl⟩ before
    dsimp only
    split
    · have first := List.cons_prefix_cons.mp before
      simp at first
    · rfl
  · refine ⟨trivial, ?_⟩
    rintro word only _ ⟨q, -, -, rfl⟩ before
    rw [List.mem_singleton.mp only] at before
    have first := List.cons_prefix_cons.mp before
    simp at first

theorem distclean_sound : ∀ command ∈ StateDirs.distclean c.toConfig, Makes [] command ∧ Spares command := by
  intro command member
  rcases List.mem_append.mp member with cleaned | own
  · exact clean_sound c command cleaned
  · rcases List.mem_pair.mp own with rfl | rfl
    · refine ⟨trivial, ?_⟩
      rintro word _ ⟨q, declared, capable, rfl⟩ before
      dsimp only
      split
      · next file =>
        obtain ⟨git, svn⟩ := makefiles.directories_apart q declared capable
        simp only [List.cons_prefix_cons, true_and] at before
        obtain ⟨rfl, -⟩ := before
        have noGit : ".git".toList.isSuffixOf (checkoutDir q).toList = false := git
        have noSvn : ".svn".toList.isSuffixOf (checkoutDir q).toList = false := svn
        rw [noGit, noSvn]
        simp
      · rfl
    · refine ⟨trivial, ?_⟩
      rintro word only _ ⟨q, -, -, rfl⟩ before
      rw [List.mem_singleton.mp only] at before
      have first := List.cons_prefix_cons.mp before
      simp at first

theorem install_spares (configures : Bool) : ∀ command ∈ install c.toConfig p t configures, Spares command := by
  intro command member
  unfold install at member
  cases configures <;> split at member <;>
    simp only [List.mem_append, List.mem_cons, List.not_mem_nil, or_false, if_true, Bool.false_eq_true, if_false] at member
  · obtain (rfl | rfl) | rfl | rfl | rfl := member <;> trivial
  · obtain ((rfl | rfl) | rfl | rfl) | rfl | rfl | rfl := member <;> trivial

end

/-! ### Runs -/

section
variable (c : KconfigFile) (s : StateDirs.Step) {t : FileTree}

theorem step_valid (valid : Valid t) : Valid (s.apply c.toConfig t) := by
  have removing {commands : List Command} (sound : ∀ command ∈ commands, Makes [] command ∧ Spares command) (executed : Nat) :
      Valid (Script.run Command.apply (commands.take executed) t) :=
    valid.run (by simp) (by simp) fun command member => sound command (List.mem_of_mem_take member)
  cases s with
  | install p declared configures executed => exact install_valid c declared valid configures executed
  | cleanup p declared executed => exact removing (cleanup_sound c declared valid) executed
  | clean executed => exact removing (clean_sound c) executed
  | distclean executed => exact removing (distclean_sound c) executed

theorem step_spares (valid : Valid t) : ∀ command ∈ s.commands c.toConfig t, Spares command := by
  intro command member
  cases s with
  | install p declared configures executed => exact install_spares c configures command (List.mem_of_mem_take member)
  | cleanup p declared executed => exact (cleanup_sound c declared valid command (List.mem_of_mem_take member)).2
  | clean executed => exact (clean_sound c command (List.mem_of_mem_take member)).2
  | distclean executed => exact (distclean_sound c command (List.mem_of_mem_take member)).2

/-- Checkouts stay. -/
theorem run_kept (valid : Valid t) {path : Path} (checkout : Checkout path) (there : path ∈ t) (later : List StateDirs.Step) :
    Valid (Script.run (StateDirs.Step.apply c.toConfig) later t) ∧ path ∈ Script.run (StateDirs.Step.apply c.toConfig) later t := by
  refine Script.run_preserves (StateDirs.Step.apply c.toConfig) (fun t => Valid t ∧ path ∈ t) ?_ ⟨valid, there⟩
  intro s _ t ⟨valid, there⟩
  refine ⟨step_valid c s valid, ?_⟩
  exact Script.run_preserves Command.apply (fun t => path ∈ t) (fun command member t => (step_spares c s valid command member).kept checkout) there

theorem reach_valid (history : List (KconfigFile × StateDirs.Step)) : Valid (reach history) :=
  Script.run_preserves _ Valid (fun run _ _ => step_valid run.1 run.2) repository_valid

end

/-! ### Agreement -/

section
variable {c : KconfigFile} {p : Package} {t : FileTree}

private theorem built_packages (valid : Valid t) (included : p ∈ includedPackages) {T : String}
    (there : ["build", "packages_build-" ++ T, dotDir p.pkgv] ∈ t) : p.buildDir = .packages := by
  obtain ⟨q, declared, named, built⟩ := (valid.made there).of_packages
  rw [← buildDir_unique included declared named, built]

private theorem built_tools (valid : Valid t) (included : p ∈ includedPackages) {T : String}
    (there : ["build", "tools_build-" ++ T, dotDir p.pkgv] ∈ t) : p.buildDir = .tools := by
  obtain ⟨q, declared, named, built⟩ := (valid.made there).of_tools
  rw [buildDir_unique included declared named] at built
  rcases built with tools | ⟨owner, NAME, source⟩
  · exact tools
  · obtain ⟨own, -⟩ := makefiles.included_sources p included (by simp [source]) (by simp [source])
    simp [own] at source

private theorem built_source (valid : Valid t) (included : p ∈ includedPackages) {directory : String}
    (there : ["src", directory, dotDir p.pkgv] ∈ t) : ∃ owner NAME tarball, p.buildDir = .source owner NAME tarball := by
  obtain ⟨q, declared, named, built⟩ := (valid.made there).of_source
  rwa [buildDir_unique included declared named] at built

/-- What the makefile of a package says of its build directory. -/
private theorem included_place (c : KconfigFile) (included : p ∈ includedPackages) :
    (p.buildDir = .packages ∧ Place c p "build" ("packages_build-" ++ target c.toConfig)) ∨
      (p.buildDir = .tools ∧ Place c p "build" ("tools_build-" ++ target c.toConfig)) ∨
      (p.buildDir = .source p.pkgv p.NAME false ∧
        (Place c p "src" (checkoutDir p) ∨ x0statedir c.toConfig p.variables.buildDir = [])) := by
  have declared : p ∈ packages := List.mem_append_left _ included
  by_cases inPackages : p.buildDir = .packages
  · exact .inl ⟨inPackages, ⟨by rw [inPackages]; rfl, .inPackages declared inPackages _, by decide, by simp⟩⟩
  · by_cases inTools : p.buildDir = .tools
    · exact .inr (.inl ⟨inTools, ⟨by rw [inTools]; rfl, .inTools declared (.inl inTools) _, by decide, by simp⟩⟩)
    · obtain ⟨built, capable, -, -, place, placed⟩ := makefiles.included_sources p included inPackages inTools
      refine .inr (.inr ⟨built, ?_⟩)
      rcases place_cases c declared with ⟨none, -⟩ | ⟨a, b, located⟩
      · exact .inr none
      · have x0 := located.x0
        rw [built, x0statedir, checkout_owner c declared capable placed place, not_usesvn c declared capable] at x0
        by_cases used : usegit c.toConfig p.pkgv = true
        · simp only [used, Bool.true_or, if_true, List.map_cons, List.map_nil, List.cons.injEq, and_true] at x0
          obtain ⟨rfl, rfl⟩ : "src" = a ∧ checkoutDir p = b := by simpa using x0
          exact .inl located
        · simp [used] at x0

/-- The state directory is the same before and after, if one of the two exists. -/
private theorem statedir_agree (valid : Valid t) (included : p ∈ includedPackages) {a b : String} (there : [a, b, dotDir p.pkgv] ∈ t)
    (shape : statedir .unread c.toConfig p.pkgv t = [[a, b, dotDir p.pkgv]] ∨
      statedir p.variables c.toConfig p.pkgv t = [[a, b, dotDir p.pkgv]]) (later : List StateDirs.Step) :
    statedir .unread c.toConfig p.pkgv t = statedir p.variables c.toConfig p.pkgv (Script.run (StateDirs.Step.apply c.toConfig) later t) := by
  have declared : p ∈ packages := List.mem_append_left _ included
  have origin := found c valid included
  rcases included_place c included with ⟨built, place⟩ | ⟨built, place⟩ | ⟨built, place | none⟩
  · rw [place.statedir] at shape ⊢
    generalize statedir .unread c.toConfig p.pkgv t = words at origin shape ⊢
    cases origin with
    | packages => rfl
    | tools other => simp [built_tools valid included other] at built
    | source other _ git =>
      simp only [List.cons.injEq, and_true] at shape
      rcases shape with ⟨rfl, -⟩ | ⟨rfl, rfl⟩
      · obtain ⟨_, _, _, source⟩ := built_source valid included there
        simp [source] at built
      · exact absurd there other
    | nowhere other =>
      simp only [List.cons.injEq, and_true, reduceCtorEq, false_or] at shape
      obtain ⟨rfl, rfl⟩ := shape
      exact absurd there other
  · rw [place.statedir] at shape ⊢
    generalize statedir .unread c.toConfig p.pkgv t = words at origin shape ⊢
    cases origin with
    | packages other => simp [built_packages valid included other] at built
    | tools => rfl
    | source _ other git =>
      simp only [List.cons.injEq, and_true] at shape
      rcases shape with ⟨rfl, -⟩ | ⟨rfl, rfl⟩
      · obtain ⟨_, _, _, source⟩ := built_source valid included there
        simp [source] at built
      · exact absurd there other
    | nowhere _ other =>
      simp only [List.cons.injEq, and_true, reduceCtorEq, false_or] at shape
      obtain ⟨rfl, rfl⟩ := shape
      exact absurd there other
  · obtain ⟨-, -, named, visible, -⟩ := makefiles.included_sources p included (by simp [built]) (by simp [built])
    rw [place.statedir] at shape ⊢
    generalize statedir .unread c.toConfig p.pkgv t = words at origin shape ⊢
    cases origin with
    | packages other => simp [built_packages valid included other] at built
    | tools other => simp [built_tools valid included other] at built
    | source => rfl
    | nowhere _ _ none =>
      simp only [List.cons.injEq, and_true, reduceCtorEq, false_or] at shape
      obtain ⟨rfl, rfl⟩ := shape
      -- the state directory is beside the checkout, which would have been found
      have checkout := valid.beside _ there p included _ _ _ _ built List.prefix_rfl
      rw [named] at checkout
      exact absurd checkout (none visible)
  · obtain ⟨-, -, named, visible, -⟩ := makefiles.included_sources p included (by simp [built]) (by simp [built])
    have same (t : FileTree) : statedir p.variables c.toConfig p.pkgv t = statedir .unread c.toConfig p.pkgv t := statedir_unread c none named
    rw [same, or_self] at shape
    rw [same, shape]
    rw [shape] at origin
    generalize words : [[a, b, dotDir p.pkgv]] = before at origin ⊢
    cases origin with
    | packages other => simp [built_packages valid included other] at built
    | tools other => simp [built_tools valid included other] at built
    | nowhere => simp at words
    | source _ _ checkout =>
      obtain ⟨validLater, checkoutLater⟩ := run_kept c valid (valid.checkout checkout) checkout later
      have originLater := found c validLater included
      generalize statedir .unread c.toConfig p.pkgv (Script.run (StateDirs.Step.apply c.toConfig) later t) = after at originLater
      cases originLater with
      | packages other => simp [built_packages validLater included other] at built
      | tools other => simp [built_tools validLater included other] at built
      | source => rfl
      | nowhere _ _ none => exact absurd checkoutLater (none visible)

/-- A file that exists is in a state directory that exists. -/
private theorem exists_statedir (valid : Valid t) {words : List Path} {file : String} {named : Path}
    (shape : words = [] ∨ ∃ a b, words = [[a, b, dotDir p.pkgv]])
    (member : named ∈ if words = [] then [["/", file]] else appendLast [file] words) (there : named ∈ t) :
    ∃ a b, words = [[a, b, dotDir p.pkgv]] ∧ [a, b, dotDir p.pkgv] ∈ t := by
  rcases shape with rfl | ⟨a, b, rfl⟩
  · obtain rfl := List.mem_singleton.mp member
    exact absurd rfl (valid.legit _ there).relative
  · rw [if_neg (by simp)] at member
    obtain rfl := List.mem_singleton.mp member
    exact ⟨a, b, rfl, FileTree.mem_of_prefix there ⟨[file], rfl⟩⟩

private theorem unread_shape (valid : Valid t) (included : p ∈ includedPackages) :
    statedir .unread c.toConfig p.pkgv t = [] ∨ ∃ a b, statedir .unread c.toConfig p.pkgv t = [[a, b, dotDir p.pkgv]] := by
  have origin := found c valid included
  generalize statedir .unread c.toConfig p.pkgv t = words at origin ⊢
  cases origin with
  | packages | tools | source => exact .inr ⟨_, _, rfl⟩
  | nowhere => exact .inl rfl

private theorem read_shape (valid : Valid t) (included : p ∈ includedPackages) :
    statedir p.variables c.toConfig p.pkgv t = [] ∨ ∃ a b, statedir p.variables c.toConfig p.pkgv t = [[a, b, dotDir p.pkgv]] := by
  rcases included_place c included with ⟨-, place⟩ | ⟨-, place⟩ | ⟨built, place | none⟩
  · exact .inr ⟨_, _, place.statedir t⟩
  · exact .inr ⟨_, _, place.statedir t⟩
  · exact .inr ⟨_, _, place.statedir t⟩
  · obtain ⟨-, -, named, -⟩ := makefiles.included_sources p included (by simp [built]) (by simp [built])
    rw [statedir_unread c none named]
    exact unread_shape valid included

/-- After any recipes under any configurations, a state file that exists has the same name before and after the makefile
of its package is read, whatever the recipes of this make process do in between. -/
theorem state_files_agree (history : List (KconfigFile × StateDirs.Step)) (c : KconfigFile) (later : List StateDirs.Step) {p : Package}
    (included : p ∈ includedPackages) (file : String)
    (present : ∃ path ∈ reach history, path ∈ dotFile .unread c.toConfig p.pkgv (reach history) file ∨
      path ∈ dotFile p.variables c.toConfig p.pkgv (reach history) file) :
    dotFile .unread c.toConfig p.pkgv (reach history) file =
      dotFile p.variables c.toConfig p.pkgv (Script.run (StateDirs.Step.apply c.toConfig) later (reach history)) file := by
  have valid := reach_valid history
  obtain ⟨path, there, member⟩ := present
  have agree : statedir .unread c.toConfig p.pkgv (reach history) =
      statedir p.variables c.toConfig p.pkgv (Script.run (StateDirs.Step.apply c.toConfig) later (reach history)) := by
    rcases member with before | after
    · obtain ⟨a, b, shape, located⟩ := exists_statedir valid (unread_shape valid included) before there
      exact statedir_agree valid included located (.inl shape) later
    · obtain ⟨a, b, shape, located⟩ := exists_statedir valid (read_shape valid included) after there
      exact statedir_agree valid included located (.inr shape) later
  rw [dotFile, dotFile, agree]

private def binutilsOnly : Config where
  lines := [.assigned "CONFIG_EMBTK_BINUTILS_REFSPEC" "\"toolchain\""]
  binutils := by decide

private theorem binutilsOnly_kconfig (pkgv : String) {suffix : String} (other : endsIn suffix "CONFIG_EMBTK_BINUTILS_REFSPEC" = false) :
    kconfig binutilsOnly pkgv suffix = "" := by
  have different : "CONFIG_EMBTK_BINUTILS_REFSPEC" ≠ "CONFIG_EMBTK_" ++ ucase pkgv ++ suffix := by
    intro same
    rw [same, endsIn_append] at other
    exact Bool.false_ne_true other.symm
  simp [kconfig, Config.value, binutilsOnly, assignment, different]

/-- Nothing comes from git or svn. -/
def tarballs : KconfigFile where
  toConfig := binutilsOnly
  git p _ used := by simp [usegit, binutilsOnly_kconfig p.pkgv (by decide : endsIn "_VERSION_GIT" _ = false)] at used
  svn p _ used := by simp [usesvn, binutilsOnly_kconfig p.pkgv (by decide : endsIn "_VERSION_SVN" _ = false)] at used
  refspec p _ used := by
    simp [usegit, usesvn, binutilsOnly_kconfig p.pkgv (by decide : endsIn "_VERSION_GIT" _ = false),
      binutilsOnly_kconfig p.pkgv (by decide : endsIn "_VERSION_SVN" _ = false)] at used

def zlib : Package := { pkgv := "zlib", NAME := "zlib", buildDir := .packages, inclusion := .pkg "compression" }

theorem zlib_included : zlib ∈ includedPackages := by decide +kernel

/-- Once installed, zlib is found and cleaned where it was installed. -/
theorem state_files_agree_zlib :
    let t := reach [(tarballs, .install zlib (List.mem_append_left _ zlib_included) true 6)]
    dotFile .unread tarballs.toConfig zlib.pkgv t ".embtk.installed" =
      dotFile zlib.variables tarballs.toConfig zlib.pkgv (Script.run (StateDirs.Step.apply tarballs.toConfig)
        [.cleanup zlib (List.mem_append_left _ zlib_included) 2] t) ".embtk.installed" :=
  state_files_agree _ _ _ zlib_included _
    ⟨["build", "packages_build-" ++ target tarballs.toConfig, ".embtk-zlib", ".embtk.installed"], by decide +kernel,
      .inr (by decide +kernel)⟩

end

end EmbToolkit.Proofs.StateDirs
