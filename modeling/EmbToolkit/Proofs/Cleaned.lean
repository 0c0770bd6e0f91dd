import EmbToolkit.Proofs.PackedTree
import EmbToolkit.Proofs.Signature

/-! Whether the core build installs again what it has deleted. It deletes the sysroot and tools directories, but the
packages whose recipes follow were chosen before, by markers that its own cleaning only removes afterwards. -/

namespace EmbToolkit.Proofs.Cleaned
open Script Traces Emission ToolchainRun PackedTree

section
variable (w : Workspace) (r : Reread) (c : Config) (d : Disk)

/-- The guarded recipe of the package stands in the trace after the deletion of the trees. -/
def InstalledAfterDeletion (p : String) (trace : List Op) : Prop :=
  ∃ before after, trace = before ++ .removeTree (target c) :: after ∧ .compile (w.statedir c p) p c ∈ after

/-- A marker on disk, and no configuration symbol to compare with: the test of `embtk_install_xpkg` fails whatever
has become of the package's files. -/
def HeldBack (p : String) : Prop := (d.state (w.statedir c p)).installed = true ∧ w.pkgKconfigsAllV c p = ""

variable {w r c d}

/-- The records of the packages of the core build are never loaded. -/
theorem load_corePackage {p : String} (core : p ∈ corePackages) : (Memory.load w r c d).okconfigs p = "" := by
  have apart : p ≠ "toolchain" ∧ p ≠ "toolchain_addons" := by
    constructor <;> rintro rfl <;> revert core <;> decide
  simp [Memory.load, Workspace.loads, core, apart]

theorem corePackage_of_dep {p : String} (dep : p ∈ toolchainDeps c) (inTree : p ∈ treePackages) : p ∈ corePackages := by
  have fixed := mem_toolchainDeps dep
  simp only [xtoolDeps, List.cons_append, List.nil_append, List.mem_cons, List.not_mem_nil, or_false] at fixed
  rcases fixed with rfl | rfl | rfl | rfl | rfl | rfl | rfl | rfl | rfl | rfl | rfl | rfl | rfl | rfl | rfl | rfl | rfl <;>
    revert inTree <;> decide

theorem reinstalled_iff {p : String} (core : p ∈ corePackages) : reinstalled w r c d p = true ↔ ¬ HeldBack w c d p := by
  rw [HeldBack, ← load_corePackage (w := w) (r := r) (c := c) (d := d) core, ← reinstalled_eq_false, Bool.not_eq_false]

private theorem compile_packageCommands {p q : String} {dir : StateDir} {c' : Config} (member : .compile dir p c' ∈ packageCommands w c q) :
    p = q := by
  simp only [packageCommands, Workspace.ownCommands, installCommands, Workspace.recordInstalled, postinstallonce, List.mem_append,
    List.mem_cons, reduceCtorEq, Op.compile.injEq, List.not_mem_nil, or_false, false_or] at member
  rcases member with (⟨-, same, -⟩ | member) | member
  · exact same
  · split at member <;> simp at member
  · split at member <;> simp at member

private theorem compile_cleanup {p q : String} {dir : StateDir} {c' : Config} : .compile dir p c' ∉ w.cleanupPkg c q := by
  unfold Workspace.cleanupPkg
  split <;> simp

variable (w r c d)

/-- A package of the tree that is not chosen is not installed anywhere in the recipe, nor in the makes it starts. -/
theorem compile_not_mem {p : String} (dep : p ∈ toolchainDeps c) (inTree : p ∈ treePackages) (skipped : reinstalled w r c d p = false)
    (dir : StateDir) : .compile dir p c ∉ w.toolchainInstall r c d := by
  have each : ∀ {ps : List String} {m : Memory}, p ∉ emitted w c d ps m → .compile dir p c ∉ ownCommands (w.installEach c d ps m).1 := by
    intro ps m absent member
    rcases mem_ownCommands_installEach member with never | ⟨q, emits, inside⟩
    · cases never
    · exact absent (compile_packageCommands inside ▸ emits)
  have predeps : p ∉ emitted w c d w.toolchainPredeps (Memory.load w r c d) := by
    intro member
    have fixed := mem_toolchainPredeps (mem_emitted.mp member).1
    have core := corePackage_of_dep dep inTree
    simp only [List.mem_cons, List.not_mem_nil, or_false] at fixed
    rcases fixed with rfl | rfl | rfl | rfl | rfl | rfl | rfl | rfl | rfl <;> revert core <;> decide
  have deps : p ∉ emitted w c d (toolchainDeps c) (coreMemory w r c d) := by
    intro member
    have run := (mem_emitted.mp member).2
    rw [core_pkgRunrecipe dep, skipped] at run
    cases run
  have addons : p ∉ emitted w c d (toolchainAddonsDeps c) (addonsMemory w r c d) := fun member =>
    toolchainDeps_not_addons dep (mem_toolchainAddonsDeps.mp (mem_emitted.mp member).1).1
  intro member
  rcases mem_toolchainInstall w r c d member with own | ⟨q, outside, inside⟩
  swap
  · exact outside.1 (compile_packageCommands inside ▸ inTree)
  rw [toolchainCommands_eq] at own
  simp only [List.mem_append, List.mem_cons, reduceCtorEq, false_or] at own
  rcases own with ((first | core) | added) | last
  · exact each predeps first
  · split at core
    · simp only [coreCommands, Workspace.coreClean, Workspace.recordInstalled, List.mem_append, List.mem_cons, reduceCtorEq,
        List.mem_flatMap, compile_cleanup, and_false, exists_false, List.not_mem_nil, or_false, false_or] at core
      exact each deps core
    · cases core
  · split at added
    · simp only [addonsCommands, Workspace.addonsClean, Workspace.recordInstalled, decompress, List.mem_append, List.mem_cons, reduceCtorEq,
        List.mem_flatMap, compile_cleanup, and_false, exists_false, List.not_mem_nil, or_false, false_or] at added
      rcases added with cleaned | inside
      · split at cleaned <;> simp [compile_cleanup] at cleaned
      · exact each addons inside
    · cases added
  · split at last
    · simp [Workspace.packaging, compress] at last
    · unfold Workspace.reuse at last
      split at last <;> simp [decompress] at last

/-- A chosen package is installed after the deletion. -/
theorem installed_after_deletion {p : String} (rebuild : rebuildsCore w r c d = true) (dep : p ∈ toolchainDeps c)
    (chosen : reinstalled w r c d p = true) : InstalledAfterDeletion w c p (w.toolchainInstall r c d) := by
  have emits : p ∈ emitted w c d (toolchainDeps c) (coreMemory w r c d) := mem_emitted.mpr ⟨dep, by rw [core_pkgRunrecipe dep, chosen]⟩
  have lines : ∃ front back, w.toolchainBuild c (Memory.load w r c d) d = front ++ .command (.removeTree (target c)) :: back ∧
      .compile (w.statedir c p) p c ∈ ownCommands back := by
    have run : w.toolchainRunrecipe c (Memory.load w r c d) d "toolchain" = true := rebuild
    obtain ⟨rest, whole⟩ : ∃ rest, w.toolchainBuild c (Memory.load w r c d) d =
        .command (.other "mkinitdirs") :: (w.installEach c d w.toolchainPredeps (Memory.load w r c d)).1
          ++ (w.coreBuild c (predepsMemory w r c d) d).1 ++ rest := by
      unfold Workspace.toolchainBuild
      simp only [run, if_true]
      exact ⟨_, List.append_assoc ..⟩
    obtain ⟨cleaning, cleans⟩ : ∃ cleaning, w.coreClean c (predepsMemory w r c d) =
        cleaning ++ [.removeTree (target c), .other "mkinitdirs"] := by
      unfold Workspace.coreClean
      generalize [Op.other "building_msg", .removeInstalled _, .removeDecompressed _] ++ List.flatMap _ _ = front
      exact ⟨front ++ [.breakTree (target c)], by simp⟩
    refine ⟨.command (.other "mkinitdirs") :: (w.installEach c d w.toolchainPredeps (Memory.load w r c d)).1
        ++ cleaning.map .command, .command (.other "mkinitdirs") :: (w.installEach c d (toolchainDeps c) (coreMemory w r c d)).1
        ++ (w.recordInstalled c "toolchain").map .command ++ rest, ?_, ?_⟩
    · simp [whole, Workspace.coreBuild, cleans, coreMemory]
    · simp only [ownCommands, List.cons_append, ownCommands_append, List.mem_cons, List.mem_append]
      exact .inr (.inl (.inl (compile_mem_installEach emits)))
  obtain ⟨front, back, shape, own⟩ := lines
  refine ⟨traceOf (w.make r c) front d,
    traceOf (w.make r c) back ((Op.removeTree (target c)).apply (run (traceOf (w.make r c) front d) d)), ?_, mem_traceOf_own own _⟩
  rw [Workspace.toolchainInstall, shape, traceOf_append]
  rfl

/-- The core build installs again all that it deletes exactly when it holds back none of it. -/
theorem core_reinstalled_iff (rebuild : rebuildsCore w r c d = true) :
    (∀ p ∈ toolchainDeps c, p ∈ treePackages → InstalledAfterDeletion w c p (w.toolchainInstall r c d)) ↔
      ∀ p ∈ toolchainDeps c, p ∈ treePackages → ¬ HeldBack w c d p := by
  refine forall_congr' fun p => forall_congr' fun dep => forall_congr' fun inTree => ?_
  rw [← reinstalled_iff (w := w) (r := r) (corePackage_of_dep dep inTree)]
  constructor
  · rintro ⟨before, after, whole, inside⟩
    by_contra skipped
    refine compile_not_mem w r c d dep inTree (by simpa using skipped) (w.statedir c p) ?_
    rw [whole]
    simp [inside]
  · exact installed_after_deletion w r c d rebuild dep

end

/-! ### Two runs in a row -/

/-- A workspace with no packages beyond those of the toolchain, none of which has dependencies. -/
def bareWorkspace : Workspace where
  deps _ _ := []
  included _ := false
  selected _ _ := false
  area _ _ := .tools
  rootfs := []
  hostTools _ := []
  bsd := false
  macos := false
  rank _ _ := 0
  lower := by simp
  outside := by simp
  rootfs_outside := by simp

/-- Records without characters that the shell or make treats specially come back as they were written. -/
def intact : Reread := ⟨id, rfl⟩

/-- An ARM toolchain with musl, and what else the configuration sets. -/
def armConfig (extra : List ConfigLine) : Config where
  lines := [.assigned "CONFIG_EMBTK_ARCH_ARM" "y", .assigned "CONFIG_EMBTK_OS_LINUX" "y", .assigned "CONFIG_EMBTK_CLIB_MUSL" "y",
    .assigned "CONFIG_EMBTK_GCC_ONLY_TOOLCHAIN" "y", .assigned "CONFIG_EMBTK_BINUTILS_REFSPEC" "\"toolchain\""] ++ extra
  binutils := by simp [ConfigLine.defines]

/-- The configuration of the first run, and one with a different version of binutils. -/
def oldBinutils : Config := armConfig [.assigned "CONFIG_EMBTK_BINUTILS_VERSION_STRING" "\"2.23.2\""]
def newBinutils : Config := armConfig [.assigned "CONFIG_EMBTK_BINUTILS_VERSION_STRING" "\"2.24\""]

theorem core_reinstalled_fresh : rebuildsCore bareWorkspace intact newBinutils Disk.fresh = true ∧
    ((∀ p ∈ toolchainDeps newBinutils, p ∈ treePackages →
        InstalledAfterDeletion bareWorkspace newBinutils p (bareWorkspace.toolchainInstall intact newBinutils Disk.fresh)) ↔
      ∀ p ∈ toolchainDeps newBinutils, p ∈ treePackages → ¬ HeldBack bareWorkspace newBinutils Disk.fresh p) :=
  ⟨by decide, core_reinstalled_iff bareWorkspace intact newBinutils Disk.fresh (by decide)⟩

/-- The second run rebuilds the toolchain for the new binutils and leaves out the kernel headers: the first run left
their marker, and no symbol bears their name. -/
theorem headers_not_reinstalled : ¬ ∀ (w : Workspace) (r : Reread) (history : List Step) (c : Config), (∀ step ∈ history, step.cut = none) →
    rebuildsCore w r c (after w r history) = true → ∀ p ∈ toolchainDeps c, p ∈ treePackages →
      InstalledAfterDeletion w c p (w.toolchainInstall r c (after w r history)) := by
  intro all
  have rebuild : rebuildsCore bareWorkspace intact newBinutils (after bareWorkspace intact [⟨.toolchainInstall, oldBinutils, none⟩]) = true := by
    decide +kernel
  have skipped : reinstalled bareWorkspace intact newBinutils (after bareWorkspace intact [⟨.toolchainInstall, oldBinutils, none⟩])
      "linux_headers" = false := by decide +kernel
  obtain ⟨front, back, whole, inside⟩ := all bareWorkspace intact [⟨.toolchainInstall, oldBinutils, none⟩] newBinutils (by simp) rebuild
    "linux_headers" (by decide) (by decide)
  refine compile_not_mem bareWorkspace intact newBinutils _ (by decide) (by decide) skipped
    (bareWorkspace.statedir newBinutils "linux_headers") ?_
  rw [whole]
  exact List.mem_append_right _ (List.mem_cons_of_mem _ inside)

end EmbToolkit.Proofs.Cleaned
