import EmbToolkit.Menus.Depends
import EmbToolkit.Proofs.WrittenSymbols
import EmbToolkit.Proofs.ChoiceStrings

/-! What the makefiles build before a package against what the Kconfig tree turns on with it. The check goes through the
`_DEPS` lines one by one and leaves over the lines that no `select` backs. -/

namespace EmbToolkit.Proofs.PackageDeps
open Menu Menus ChoiceStrings WrittenSymbols

/-- A package that can be built: it is enabled, and has a version. -/
structure Provided (v : Values Symbol) (name : Symbol) : Prop where
  on : v.on name = true
  version : version v name ≠ ""

/-- Every name that the `_DEPS` of an enabled package list is provided. -/
def Agreed (v : Values Symbol) : Prop := ∀ d ∈ depends, v.on d.package = true → ∀ name ∈ d.expansion v, Provided v name

/-- The lines that no `select` backs: the package, the condition in the makefile, and the name. -/
def gaps : List (Symbol × Expr Symbol × Symbol) :=
  [(.has .atk, .yes, .has .glib), (.has .cairo, .yes, .has .libpng), (.has .cairo, .yes, .has .freetype),
   (.has .cairo, .yes, .has .fontconfig), (.has .cairo, Setting.cairoWithLibxcb, .has .libx11),
   (.has .fontconfig, .yes, .has .freetype), (.has .libfontenc, .yes, .has .zlib)]

/-- Packages that need another symbol, by their own dependencies or by those of all that select them. -/
def needing : List (Symbol × Symbol) :=
  [(.has .armadillo, .has .openblas), (.has .cgilua, .has .lua), (.has .luafilesystem, .has .lua), (.has .rings, .has .lua),
   (.has .gdb, Setting.gdbSystem), (.has .gdbserver, Setting.gdbSystem), (.has .ltrace, Setting.osLinux),
   (.has .ltrace, Setting.archArm), (.has .libcxx, Setting.libcxx), (.has .xf86inputevdev, Setting.xserverXorg),
   (.has .xf86videofbdev, Setting.xserverXorg), (.hostHas .mtdutils, Setting.rootfs)]

/-- Symbols that are always set. -/
def always : List Symbol := [.has .mkimage, .hostHas .gmp, .hostHas .mpfr, .hostHas .mpc]

/-- What else is set with a package, for other reasons. -/
def besides (package : Symbol) (condition : Expr Symbol) : List Symbol :=
  if package ∈ [.has .xf86inputevdev, .has .xf86videofbdev] then [.has .xserver]
  else if package = .has .libcxx then [.has .libcxxrt]
  else if package = .hostHas .llvm then [.hostHas .clang]
  else if package = .has .gtk ∧ condition = .not Setting.gtkBackendDirectfb then [Setting.gtkBackendXserver]
  else []

/-- Symbols that are set with a package, under the condition of a line. -/
def known (package : Symbol) (condition : Expr Symbol) : List Symbol :=
  package :: (always ++ condition.needs ++ (if rooted (.symbol package) then [(Setting.rootfs : Symbol)] else []) ++
    (needing.filter fun p => p.1 = package).map Prod.snd ++ besides package condition)

/-- The versions that `ownVersion` gives hold where the symbol is set, and the others are spelled by a component. -/
def versioned (name : Symbol) : Bool :=
  match ownVersion name with
  | some own => own.1.sure [name] && own.2 ≠ ""
  | none => components.any fun k => k.spelling.name = versionSymbol name && k.enabled.sure [name] &&
      k.spelling.leaves.all fun m => m.name ∉ unnamed

/-! ### What the tables say -/

/-- The tables are as the proofs below take them. -/
private class Checked : Prop where
  lines_backed : (depends.all fun d => d.package = Setting.buildLinuxKernel || d.lines.all fun l => l.2.all fun name =>
      name ∈ tree.grow (tree.grow (known d.package l.1)) || (d.package, l.1, name) ∈ gaps) = true
  names_versioned : (depends.all fun d => d.package = .hostHas .llvm || d.package = Setting.buildLinuxKernel ||
      d.lines.all fun l => l.2.all versioned) = true
  gaps_listed :
    (gaps.all fun g => depends.any fun d => d.package = g.1 && d.lines.any fun l => l.1 = g.2.1 && g.2.2 ∈ l.2) = true
  needed : (needing.all fun p => tree.implies p.2 2 p.1) = true
  standing : (always.all (tree.standing [])) = true ∧ tree.standing [Setting.libcxx] (.has .libcxxrt) = true ∧
      tree.standing [Setting.llvmOnly] (.hostHas .clang) = true ∧ tree.standing [Setting.gccAndLlvm] (.hostHas .clang) = true
  xserver_lines :
    (tree.choices.any fun c => c.entries.any fun m => m.name = Setting.xserverXorg && .has .xserver ∈ m.needs) = true
  gtk_lines :
    (tree.choices.any fun c => c.depends = [rootfs, Symbol.has .gtk] && (c.members.any fun m => m.depends.isEmpty) &&
      c.members.all fun m => m.name = Setting.gtkBackendXserver || m.name = Setting.gtkBackendDirectfb) = true
  llvm_lines : (tree.bools.any fun e => e.name = .hostHas .llvm) = true ∧
      (tree.bools.all fun e => e.name ≠ .hostHas .llvm || llvmUsed ∈ e.depends) = true ∧
      (tree.selectors.all fun e => e.selects.all fun s => s.1 ≠ .hostHas .llvm) = true ∧
      tree.standing [Setting.llvmOnly] (.hostHas .llvm) = true ∧ tree.standing [Setting.gccAndLlvm] (.hostHas .llvm) = true
  /-- `clang` is spelled by all members of its choice but one. -/
  clang_lines : (components.any fun k => k.spelling.name = .versionString .clang_host && k.enabled = llvmUsed &&
        (k.spelling.leaves.all fun m => m.name ∉ unnamed || m.name = .version .clang_host_llvm_host "3_3") &&
        k.spelling.leaves.any fun m => m.name = .version .clang_host_llvm_host "3_3" && llvmUsed ∈ m.depends &&
          (tree.spelled k.spelling m).getD "" = "") = true ∧
      (depends.all fun d => d.package ≠ .hostHas .llvm || d.lines = [(.yes, [.hostHas .clang])]) = true ∧
      (depends.any fun d => d.package = .hostHas .llvm) = true
  kernel_lines :
    (depends.all fun d => d.package ≠ Setting.buildLinuxKernel || d.lines = [(.equals Setting.hostOs "macos", [.hostHas .libelf])]) = true ∧
      (depends.any fun d => d.package = Setting.buildLinuxKernel) = true ∧
      (tree.bools.any fun e => e.name = Setting.buildLinuxKernel && e.depends = [(Setting.osLinux : Expr Symbol)] &&
        e.selects = [(.hostHas .libelf, .equals Setting.hostOs "macos")]) = true ∧
      (tree.bools.any fun e => e.name = .hostHas .libelf) = true ∧ tree.implies Setting.osLinux 1 Setting.buildLinuxKernel = true
  libelf_component : (components.any fun k => k.spelling.name = .versionString .libelf && k.enabled = Symbol.has .libelf &&
        k.spelling.leaves.all fun m => m.name ∉ unnamed) = true ∧
      (depends.any fun d => d.package = .has .ltrace && d.lines = [(.yes, [.has .libelf])]) = true

private instance checked : Checked where
  lines_backed := by decide +kernel
  names_versioned := by decide +kernel
  gaps_listed := by decide +kernel
  needed := by decide +kernel
  standing := by decide +kernel
  xserver_lines := by decide +kernel
  gtk_lines := by decide +kernel
  llvm_lines := by decide +kernel
  clang_lines := by decide +kernel
  kernel_lines := by decide +kernel
  libelf_component := by decide +kernel

variable {v : Values Symbol} {d : Deps}

theorem mem_expansion {name : Symbol} : name ∈ d.expansion v ↔ ∃ l ∈ d.lines, l.1.holds v = true ∧ name ∈ l.2 := by
  unfold Deps.expansion
  rw [List.mem_flatMap]
  refine exists_congr fun l => and_congr_right fun _ => ?_
  by_cases holds : l.1.holds v = true
  · simp [holds]
  · simp [holds]

/-! ### What is set with a package -/

private theorem xserver_on (admitted : tree.Admits v) (xorg : v.on Setting.xserverXorg = true) : v.on (.has .xserver) = true := by
  obtain ⟨c, choice, here⟩ := List.any_eq_true.mp checked.xserver_lines
  obtain ⟨m, inside, here⟩ := List.any_eq_true.mp here
  simp only [Bool.and_eq_true, decide_eq_true_eq] at here
  exact Entry.needs_on (admitted.visible c choice m inside (here.1 ▸ xorg)) _ here.2

private theorem llvm_used (admitted : tree.Admits v) (on : v.on (.hostHas .llvm) = true) : llvmUsed.holds v = true := by
  obtain ⟨declared, blocks, selectors, -⟩ := checked.llvm_lines
  obtain ⟨block, member, same⟩ := List.any_eq_true.mp declared
  have named : block.name = .hostHas .llvm := by simpa using same
  rcases Tree.supporter admitted member (named ▸ on) with ⟨e, inside, same, met, -⟩ | ⟨e, inside, -, -, s, line, target⟩
  · have listed : llvmUsed ∈ e.depends := by simpa [same, named] using List.all_eq_true.mp blocks e inside
    exact List.all_eq_true.mp met _ listed
  · have other := List.all_eq_true.mp (List.all_eq_true.mp selectors e inside) s line
    rw [named] at target
    simp [target] at other

private theorem clang_on (admitted : tree.Admits v) (used : llvmUsed.holds v = true) :
    v.on (.hostHas .clang) = true ∧ v.on (.hostHas .llvm) = true := by
  simp only [llvmUsed, Expr.holds, Bool.or_eq_true] at used
  rcases used with only | both
  · have set : ∀ name ∈ [(Setting.llvmOnly : Symbol)], v.on name = true := fun name here => List.mem_singleton.mp here ▸ only
    exact ⟨Tree.standing_on admitted set checked.standing.2.2.1, Tree.standing_on admitted set checked.llvm_lines.2.2.2.1⟩
  · have set : ∀ name ∈ [(Setting.gccAndLlvm : Symbol)], v.on name = true := fun name here => List.mem_singleton.mp here ▸ both
    exact ⟨Tree.standing_on admitted set checked.standing.2.2.2, Tree.standing_on admitted set checked.llvm_lines.2.2.2.2⟩

private theorem gtk_backend (admitted : tree.Admits v) (root : v.on Setting.rootfs = true) (on : v.on (.has .gtk) = true)
    (other : v.on Setting.gtkBackendDirectfb = false) : v.on Setting.gtkBackendXserver = true := by
  obtain ⟨c, choice, here⟩ := List.any_eq_true.mp checked.gtk_lines
  simp only [Bool.and_eq_true, decide_eq_true_eq] at here
  obtain ⟨⟨depends, free⟩, only⟩ := here
  obtain ⟨m, listed, bare⟩ := List.any_eq_true.mp free
  have met : (m.under c.depends).met v = true := by
    simp [Entry.met, Entry.under, depends, List.isEmpty_iff.mp bare, rootfs, Expr.holds, root, on]
  obtain ⟨n, inside, set⟩ := admitted.chosen c choice ⟨_, List.mem_map_of_mem listed, met⟩
  obtain ⟨n, chosen, rfl⟩ := List.mem_map.mp inside
  have either : n.name = Setting.gtkBackendXserver ∨ n.name = Setting.gtkBackendDirectfb := by
    simpa using List.all_eq_true.mp only n chosen
  rcases either with named | named
  · rw [← named]
    exact set
  · rw [show (n.under c.depends).name = n.name from rfl, named, other] at set
    exact absurd set (by simp)

theorem needing_on (admitted : tree.Admits v) {p : Symbol × Symbol} (listed : p ∈ needing) (on : v.on p.1 = true) : v.on p.2 = true :=
  Tree.implies_sound admitted 2 (List.all_eq_true.mp checked.needed p listed) on

theorem besides_on (admitted : tree.Admits v) (traced : v.on (.has .ltrace) = true → v.on Setting.rootfs = true) {package : Symbol}
    {condition : Expr Symbol} (on : v.on package = true) (holds : condition.holds v = true) :
    ∀ name ∈ besides package condition, v.on name = true := by
  intro name inside
  unfold besides at inside
  split at inside
  next driver =>
    rw [List.mem_singleton.mp inside]
    rcases List.mem_cons.mp driver with rfl | driver
    · exact xserver_on admitted (needing_on admitted (p := (.has .xf86inputevdev, Setting.xserverXorg)) (by simp [needing]) on)
    · rw [List.mem_singleton.mp driver] at on
      exact xserver_on admitted (needing_on admitted (p := (.has .xf86videofbdev, Setting.xserverXorg)) (by simp [needing]) on)
  next =>
    split at inside
    next same =>
      subst same
      have lib := needing_on admitted (p := (.has .libcxx, Setting.libcxx)) (by simp [needing]) on
      rw [List.mem_singleton.mp inside]
      exact Tree.standing_on admitted (fun name here => List.mem_singleton.mp here ▸ lib) checked.standing.2.1
    next =>
      split at inside
      next same =>
        subst same
        rw [List.mem_singleton.mp inside]
        exact (clang_on admitted (llvm_used admitted on)).1
      next =>
        split at inside
        next same =>
          obtain ⟨rfl, rfl⟩ := same
          rw [List.mem_singleton.mp inside]
          have root := rooted_sound admitted traced (e := Symbol.has .gtk) (by decide +kernel) on
          exact gtk_backend admitted root on (by simpa [Expr.holds] using holds)
        next => simp at inside

theorem known_on (admitted : tree.Admits v) (traced : v.on (.has .ltrace) = true → v.on Setting.rootfs = true) {package : Symbol}
    {condition : Expr Symbol} (on : v.on package = true) (holds : condition.holds v = true) :
    ∀ name ∈ known package condition, v.on name = true := by
  intro name inside
  rcases List.mem_cons.mp inside with rfl | inside
  · exact on
  · simp only [List.mem_append] at inside
    rcases inside with (((constant | required) | root) | related) | other
    · exact Tree.standing_on admitted (by simp) (List.all_eq_true.mp checked.standing.1 name constant)
    · exact Expr.needs_on holds name required
    · split at root
      next needed =>
        rw [List.mem_singleton.mp root]
        exact rooted_sound admitted traced needed on
      next => simp at root
    · obtain ⟨p, listed, rfl⟩ := List.mem_map.mp related
      obtain ⟨listed, same⟩ := List.mem_filter.mp listed
      have package : p.1 = package := by simpa using same
      exact needing_on admitted listed (package ▸ on)
    · exact besides_on admitted traced on holds name other

/-- On macOS the kernel selects the host's `libelf`. -/
private theorem host_libelf_on (admitted : tree.Admits v) (kernel : v.on Setting.buildLinuxKernel = true)
    (mac : v.text Setting.hostOs = "macos") : v.on (.hostHas .libelf) = true := by
  obtain ⟨-, -, block, declared, os⟩ := checked.kernel_lines
  obtain ⟨e, member, here⟩ := List.any_eq_true.mp block
  simp only [Bool.and_eq_true, decide_eq_true_eq] at here
  obtain ⟨⟨named, depends⟩, selects⟩ := here
  obtain ⟨target, listed, same⟩ := List.any_eq_true.mp declared
  have name : target.name = .hostHas .libelf := by simpa using same
  have met : e.met v = true := by
    simp [Entry.met, depends, Expr.holds, Tree.implies_sound admitted 1 os kernel]
  rw [← name]
  refine admitted.selected target listed (Tree.mem_selected.mpr ⟨e, List.mem_append_left _ member, named ▸ kernel, met, ?_⟩)
  exact ⟨(.hostHas .libelf, .equals Setting.hostOs "macos"), selects ▸ List.mem_singleton_self _, by simpa [Expr.holds] using mac, name.symm⟩

/-! ### Versions -/

private theorem text_of_named {k : Component} {name : Symbol} (named : Named k v) (same : k.spelling.name = name) : v.text name ≠ "" := by
  obtain ⟨-, -, -, -, -, filled⟩ := named
  exact same ▸ filled

theorem version_of_versioned (admitted : tree.Admits v) (traced : v.on (.has .ltrace) = true → v.on Setting.rootfs = true) {name : Symbol}
    (known : versioned name = true) (on : v.on name = true) : version v name ≠ "" := by
  have set : ∀ other ∈ [name], v.on other = true := fun other here => List.mem_singleton.mp here ▸ on
  cases found : ownVersion name with
  | some own =>
    simp only [versioned, found, Bool.and_eq_true, decide_eq_true_eq] at known
    simpa [version, found, Expr.sure_sound set known.1] using known.2
  | none =>
    simp only [versioned, found] at known
    obtain ⟨k, listed, here⟩ := List.any_eq_true.mp known
    simp only [Bool.and_eq_true, decide_eq_true_eq] at here
    simp only [version, found]
    refine text_of_named (named_of_enabled admitted traced (fun m leaf missing => ?_) listed (Expr.sure_sound set here.1.2)) here.1.1
    exact absurd missing (by simpa using List.all_eq_true.mp here.2 m leaf)

/-- `clang` has a version exactly without the release that its string does not know. -/
theorem clang_version (admitted : tree.Admits v) (traced : v.on (.has .ltrace) = true → v.on Setting.rootfs = true)
    (used : llvmUsed.holds v = true) :
    v.text (.versionString .clang_host) ≠ "" ↔ v.on (.version .clang_host_llvm_host "3_3") = false := by
  obtain ⟨k, listed, here⟩ := List.any_eq_true.mp checked.clang_lines.1
  simp only [Bool.and_eq_true, decide_eq_true_eq] at here
  obtain ⟨⟨⟨same, enabled⟩, others⟩, lost⟩ := here
  constructor
  · intro filled
    refine Bool.eq_false_iff.mpr fun on => filled ?_
    obtain ⟨m, leaf, here⟩ := List.any_eq_true.mp lost
    simp only [Bool.and_eq_true, decide_eq_true_eq] at here
    rw [← same, (leaf_text admitted listed leaf (here.1.1 ▸ on)).2, here.2]
  · intro off
    refine text_of_named (named_of_enabled admitted traced (fun m leaf missing => ?_) listed (enabled ▸ used)) same
    have only : m.name = .version .clang_host_llvm_host "3_3" := by simpa [missing] using List.all_eq_true.mp others m leaf
    rw [only, off]

/-! ### Agreement -/

/-- The conditions on a configuration under which the two descriptions of its packages agree. -/
structure Sound (v : Values Symbol) : Prop where
  backed : ∀ g ∈ gaps, v.on g.1 = true → g.2.1.holds v = true → v.on g.2.2 = true
  clang : v.on (.version .clang_host_llvm_host "3_3") = false
  traced : v.on (.has .ltrace) = true → v.on Setting.rootfs = true
  host : v.on Setting.buildLinuxKernel = true → v.text Setting.hostOs = "macos" → v.on (.has .libelf) = true

theorem agreed_of_sound (admitted : tree.Admits v) (sound : Sound v) : Agreed v := by
  intro d listed on name expanded
  obtain ⟨l, line, holds, inside⟩ := mem_expansion.mp expanded
  by_cases kernel : d.package = Setting.buildLinuxKernel
  · have lines : d.lines = [(.equals Setting.hostOs "macos", [.hostHas .libelf])] := by
      simpa [kernel] using List.all_eq_true.mp checked.kernel_lines.1 d listed
    obtain rfl : l = (.equals Setting.hostOs "macos", [.hostHas .libelf]) := by simpa [lines] using line
    obtain rfl : name = .hostHas .libelf := by simpa using inside
    rw [kernel] at on
    have mac : v.text Setting.hostOs = "macos" := by simpa [Expr.holds] using holds
    obtain ⟨k, component, here⟩ := List.any_eq_true.mp checked.libelf_component.1
    simp only [Bool.and_eq_true, decide_eq_true_eq] at here
    refine ⟨host_libelf_on admitted on mac, text_of_named (named_of_enabled admitted sound.traced (fun m leaf missing => ?_) component ?_) here.1.1⟩
    · exact absurd missing (by simpa using List.all_eq_true.mp here.2 m leaf)
    · rw [here.1.2]
      exact sound.host on mac
  have set : v.on name = true := by
    have backed := List.all_eq_true.mp checked.lines_backed d listed
    simp only [kernel, decide_false, Bool.false_or] at backed
    have known := List.all_eq_true.mp (List.all_eq_true.mp backed l line) name inside
    simp only [Bool.or_eq_true, decide_eq_true_eq] at known
    rcases known with grown | gap
    · exact Tree.grow_on admitted (Tree.grow_on admitted (known_on admitted sound.traced on holds)) name grown
    · exact sound.backed _ gap on holds
  refine ⟨set, ?_⟩
  by_cases llvm : d.package = .hostHas .llvm
  · have lines : d.lines = [(.yes, [.hostHas .clang])] := by simpa [llvm] using List.all_eq_true.mp checked.clang_lines.2.1 d listed
    obtain rfl : l = (.yes, [.hostHas .clang]) := by simpa [lines] using line
    obtain rfl : name = .hostHas .clang := by simpa using inside
    exact (clang_version admitted sound.traced (llvm_used admitted (llvm ▸ on))).mpr sound.clang
  · have known := List.all_eq_true.mp checked.names_versioned d listed
    simp only [llvm, kernel, decide_false, Bool.or_self, Bool.false_or] at known
    exact version_of_versioned admitted sound.traced (List.all_eq_true.mp (List.all_eq_true.mp known l line) name inside) set

theorem sound_of_agreed (admitted : tree.Admits v) (agreed : Agreed v) : Sound v := by
  have traced : v.on (.has .ltrace) = true → v.on Setting.rootfs = true := by
    intro on
    obtain ⟨d, listed, here⟩ := List.any_eq_true.mp checked.libelf_component.2
    simp only [Bool.and_eq_true, decide_eq_true_eq] at here
    have expanded : .has .libelf ∈ d.expansion v := mem_expansion.mpr ⟨(.yes, [.has .libelf]), by simp [here.2], rfl, by simp⟩
    exact (libelf_version admitted (agreed d listed (here.1 ▸ on) _ expanded).version).2
  constructor
  · intro g listed on holds
    obtain ⟨d, member, here⟩ := List.any_eq_true.mp (List.all_eq_true.mp checked.gaps_listed g listed)
    simp only [Bool.and_eq_true, decide_eq_true_eq] at here
    obtain ⟨l, line, same⟩ := List.any_eq_true.mp here.2
    simp only [Bool.and_eq_true, decide_eq_true_eq] at same
    exact (agreed d member (here.1 ▸ on) _ (mem_expansion.mpr ⟨l, line, same.1 ▸ holds, same.2⟩)).on
  · refine Bool.eq_false_iff.mpr fun on => ?_
    obtain ⟨k, component, here⟩ := List.any_eq_true.mp checked.clang_lines.1
    simp only [Bool.and_eq_true, decide_eq_true_eq] at here
    obtain ⟨m, leaf, lost⟩ := List.any_eq_true.mp here.2
    simp only [Bool.and_eq_true, decide_eq_true_eq] at lost
    obtain ⟨c, choice, inside⟩ := Tree.leaf_choice leaf
    have met := admitted.visible c (Spelling.known (blocks_known component) c choice) m inside (lost.1.1 ▸ on)
    have used : llvmUsed.holds v = true := List.all_eq_true.mp met _ lost.1.2
    obtain ⟨d, listed, same⟩ := List.any_eq_true.mp checked.clang_lines.2.2
    have package : d.package = .hostHas .llvm := by simpa using same
    have lines : d.lines = [(.yes, [.hostHas .clang])] := by simpa [package] using List.all_eq_true.mp checked.clang_lines.2.1 d listed
    have expanded : .hostHas .clang ∈ d.expansion v := mem_expansion.mpr ⟨(.yes, [.hostHas .clang]), by simp [lines], rfl, by simp⟩
    have provided := agreed d listed (package ▸ (clang_on admitted used).2) _ expanded
    rw [(clang_version admitted traced used).mp provided.version] at on
    exact absurd on (by simp)
  · exact traced
  · intro on mac
    obtain ⟨d, listed, same⟩ := List.any_eq_true.mp checked.kernel_lines.2.1
    have package : d.package = Setting.buildLinuxKernel := by simpa using same
    have lines : d.lines = [(.equals Setting.hostOs "macos", [.hostHas .libelf])] := by
      simpa [package] using List.all_eq_true.mp checked.kernel_lines.1 d listed
    have expanded : .hostHas .libelf ∈ d.expansion v :=
      mem_expansion.mpr ⟨(.equals Setting.hostOs "macos", [.hostHas .libelf]), by simp [lines], by simpa [Expr.holds] using mac, by simp⟩
    exact (libelf_version admitted (agreed d listed (package ▸ on) _ expanded).version).1

/-- Packages reached from an enabled one through the `_DEPS` of one package after the other. -/
inductive Reached (v : Values Symbol) : Symbol → Prop
  | enabled (d : Deps) (name : Symbol) (listed : d ∈ depends) (on : v.on d.package = true) (expanded : name ∈ d.expansion v) :
      Reached v name
  | onward (d : Deps) (name : Symbol) (listed : d ∈ depends) (before : Reached v d.package) (expanded : name ∈ d.expansion v) :
      Reached v name

/-- All that make reaches from the enabled packages is enabled and has a version exactly where the lines without a
`select` are backed by the user's own choices, `clang` is of a release that its string knows, and `libelf` has a version
where `ltrace` or the kernel of a macOS host need one. -/
theorem reached_provided_iff (admitted : tree.Admits v) : (∀ name, Reached v name → Provided v name) ↔ Sound v := by
  constructor
  · exact fun provided => sound_of_agreed admitted fun d listed on name expanded => provided name (.enabled d name listed on expanded)
  · intro sound name reached
    have agreed := agreed_of_sound admitted sound
    induction reached with
    | enabled d name listed on expanded => exact agreed _ listed on _ expanded
    | onward d name listed _ expanded ih => exact agreed _ listed ih.on _ expanded

theorem reached_provided_iff_example : (∀ name, Reached exampleSheet.values name → Provided exampleSheet.values name) ↔
    Sound exampleSheet.values := reached_provided_iff example_admitted

/-- `fontconfig` without `freetype`. -/
theorem fontconfig_unprovided : tree.Admits exampleSheet.values ∧
    ¬ ∀ name, Reached exampleSheet.values name → Provided exampleSheet.values name := by
  refine ⟨example_admitted, fun provided => ?_⟩
  have listed : deps (.has .fontconfig) [.has .libxml2, .has .freetype] ∈ depends := by simp [depends]
  have reached : Reached exampleSheet.values (.has .freetype) := .enabled _ _ listed (by decide +kernel) (by decide +kernel)
  exact absurd (provided _ reached).on (by decide +kernel)

end EmbToolkit.Proofs.PackageDeps
