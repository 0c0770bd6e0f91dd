import EmbToolkit.Proofs.Cleaned

/-! What a newly packed tarball contains. Core and addons are rebuilt on separate grounds, and each part starts from
a tree that the other may just have emptied. -/

namespace EmbToolkit.Proofs.Packaging
open Script Traces Emission ToolchainRun PackedTree Cleaned
variable (w : Workspace) (r : Reread) (c : Config) (d : Disk)

/-- The run makes a new tarball. -/
def Packs : Prop := .pack (toolchainDir c) (target c) ∈ w.toolchainInstall r c d

def Holds (tree : Tree) (p : String) : Prop := ∃ config, tree p = some ⟨config, true⟩

/-- The result of every package of the core part that lives in the tree, and of every enabled addon. -/
def Whole (tree : Tree) : Prop := ∀ p ∈ toolchainDeps c ++ toolchainAddonsDeps c, p ∈ treePackages → Holds tree p

/-- After a core build the tree holds what is installed again, so nothing may be held back, and the addons have to be
rebuilt and installed as well. -/
structure CoreSafe : Prop where
  deps : ∀ p ∈ toolchainDeps c, p ∈ treePackages → ¬ HeldBack w c d p
  addons : ∀ p ∈ toolchainAddonsDeps c, rebuildsAddons w r c d = true ∧ reinstalled w r c d p = true

/-- Without a core build the tree is that of the previous tarball, with the chosen addons installed over it. -/
structure AddonsSafe : Prop where
  deps : ∀ p ∈ toolchainDeps c, p ∈ treePackages → Holds (unpackedTree c d) p
  addons : ∀ p ∈ toolchainAddonsDeps c,
    reinstalled w r c d p = true ∨ ¬ (p = "gdb" ∧ serverDropsGdb w r c d) ∧ Holds (unpackedTree c d) p

def PackSafe : Prop := if rebuildsCore w r c d then CoreSafe w r c d else AddonsSafe w r c d

variable {w r c d}

theorem holds_none {tree : Tree} {p : String} (absent : tree p = none) : ¬ Holds tree p := by
  rintro ⟨config, present⟩
  rw [absent] at present
  cases present

/-- A tarball is made exactly when one of the two parts is rebuilt. -/
theorem packs_iff : Packs w r c d ↔ rebuildsCore w r c d = true ∨ rebuildsAddons w r c d = true := by
  rw [Packs, mem_toolchainInstall_iff w r c d fun _ => id]
  unfold skeleton Workspace.reuse
  cases rebuildsCore w r c d <;> cases rebuildsAddons w r c d <;>
    simp [coreFrame, addonsFrame, Workspace.recordInstalled, Workspace.packaging, compress, decompress]

/-- The tarball that the run leaves. -/
theorem packed_tarball (packs : Packs w r c d) :
    (run (w.toolchainInstall r c d) d).tarball (toolchainDir c) = some ⟨target c, packedTree w r c d⟩ := by
  obtain ⟨trees, outcome, -, -⟩ := rebuild_outcome w r c (packs_iff.mp packs)
  have tarballs := congrArg Shelf.tarball outcome
  simp only [shelf] at tarballs
  simp [tarballs]

private theorem holds_if {chosen : Bool} {tree : Tree} {p : String} {config : Config} {kept : Option Result}
    (here : tree p = if chosen = true then some ⟨config, true⟩ else kept) :
    Holds tree p ↔ chosen = true ∨ ∃ config, kept = some ⟨config, true⟩ := by
  cases chosen with
  | true => simp [Holds, here]
  | false => simp [Holds, here]

theorem coreSafe_iff (core : rebuildsCore w r c d = true) : Whole c (packedTree w r c d) ↔ CoreSafe w r c d := by
  have deps : ∀ p ∈ toolchainDeps c, p ∈ treePackages → (Holds (packedTree w r c d) p ↔ ¬ HeldBack w c d p) := by
    intro p dep inTree
    rw [← reinstalled_iff (r := r) (corePackage_of_dep dep inTree)]
    have here := (packedTree_core (w := w) (r := r) (d := d) (toolchainDeps_not_addons dep)).trans (coreTree_apply core p)
    simp only [dep, inTree, true_and] at here
    simpa using holds_if here
  have addons : ∀ p ∈ toolchainAddonsDeps c,
      (Holds (packedTree w r c d) p ↔ rebuildsAddons w r c d = true ∧ reinstalled w r c d p = true) := by
    intro p enabled
    cases rebuilt : rebuildsAddons w r c d with
    | true =>
      have here := packedTree_addon rebuilt enabled
      simp only [core, if_true, ite_self] at here
      simpa using holds_if here
    | false =>
      have notDep : p ∉ toolchainDeps c := fun dep => toolchainDeps_not_addons dep (mem_toolchainAddonsDeps.mp enabled).1
      have gone : packedTree w r c d p = none := by simp [packedTree, rebuilt, coreTree_apply core, notDep]
      simp [holds_none gone]
  constructor
  · intro whole
    exact ⟨fun p dep inTree => (deps p dep inTree).mp (whole p (List.mem_append_left _ dep) inTree), fun p enabled =>
      (addons p enabled).mp (whole p (List.mem_append_right _ enabled) (xtoolAddons_tree p (mem_toolchainAddonsDeps.mp enabled).1))⟩
  · intro safe p member inTree
    rcases List.mem_append.mp member with dep | enabled
    · exact (deps p dep inTree).mpr (safe.deps p dep inTree)
    · exact (addons p enabled).mpr (safe.addons p enabled)

theorem addonsSafe_iff (core : rebuildsCore w r c d = false) (rebuilt : rebuildsAddons w r c d = true) :
    Whole c (packedTree w r c d) ↔ AddonsSafe w r c d := by
  have deps : ∀ p ∈ toolchainDeps c, packedTree w r c d p = unpackedTree c d p := by
    intro p dep
    rw [packedTree_core (toolchainDeps_not_addons dep), coreTree, core]
    simp
  have addons : ∀ p ∈ toolchainAddonsDeps c, (Holds (packedTree w r c d) p ↔
      reinstalled w r c d p = true ∨ ¬ (p = "gdb" ∧ serverDropsGdb w r c d) ∧ Holds (unpackedTree c d) p) := by
    intro p enabled
    have here := packedTree_addon rebuilt enabled
    simp only [core, Bool.false_eq_true, if_false] at here
    rw [holds_if here]
    refine or_congr_right ?_
    split
    next dropped => simp [dropped]
    next kept => simp [kept, Holds]
  constructor
  · intro whole
    refine ⟨fun p dep inTree => ?_, fun p enabled => (addons p enabled).mp
      (whole p (List.mem_append_right _ enabled) (xtoolAddons_tree p (mem_toolchainAddonsDeps.mp enabled).1))⟩
    obtain ⟨config, present⟩ := whole p (List.mem_append_left _ dep) inTree
    exact ⟨config, deps p dep ▸ present⟩
  · intro safe p member inTree
    rcases List.mem_append.mp member with dep | enabled
    · obtain ⟨config, present⟩ := safe.deps p dep inTree
      exact ⟨config, (deps p dep).trans present⟩
    · exact (addons p enabled).mpr (safe.addons p enabled)

theorem packSafe_iff (packs : Packs w r c d) : Whole c (packedTree w r c d) ↔ PackSafe w r c d := by
  unfold PackSafe
  cases core : rebuildsCore w r c d with
  | true => simpa using coreSafe_iff core
  | false => simpa using addonsSafe_iff core ((packs_iff.mp packs).resolve_left (by simp [core]))

/-- A new tarball is whole exactly when the run installs again, or finds in the previous tarball, what belongs in it. -/
theorem packed_whole_iff (w : Workspace) (r : Reread) (c : Config) (d : Disk) (packs : Packs w r c d) :
    (∃ tarball, (run (w.toolchainInstall r c d) d).tarball (toolchainDir c) = some tarball ∧ Whole c tarball.tree) ↔ PackSafe w r c d := by
  rw [packed_tarball packs, ← packSafe_iff packs]
  simp

/-! ### A core build after an addon was installed -/

/-- The configurations of the counterexample: one with `strace`, for two versions of binutils. -/
def straceConfig (version : String) : Config :=
  armConfig [.assigned "CONFIG_EMBTK_BINUTILS_VERSION_STRING" version, .assigned "CONFIG_EMBTK_HAVE_STRACE" "y"]

theorem packed_whole_fresh : Packs bareWorkspace intact newBinutils Disk.fresh ∧
    ((∃ tarball, (run (bareWorkspace.toolchainInstall intact newBinutils Disk.fresh) Disk.fresh).tarball (toolchainDir newBinutils)
        = some tarball ∧ Whole newBinutils tarball.tree) ↔ PackSafe bareWorkspace intact newBinutils Disk.fresh) :=
  have packs : Packs bareWorkspace intact newBinutils Disk.fresh := packs_iff.mpr (.inl (by decide))
  ⟨packs, packed_whole_iff bareWorkspace intact newBinutils Disk.fresh packs⟩

/-- The second run rebuilds the core for the new binutils, finds nothing new in the addons, and packs a toolchain
without `strace`. -/
theorem strace_not_packed : ¬ ∀ (w : Workspace) (r : Reread) (history : List Step) (c : Config), Packs w r c (after w r history) →
    ∃ tarball, (run (w.toolchainInstall r c (after w r history)) (after w r history)).tarball (toolchainDir c) = some tarball ∧
      Whole c tarball.tree := by
  intro all
  have rebuilt : rebuildsCore bareWorkspace intact (straceConfig "\"2.24\"")
        (after bareWorkspace intact [⟨.toolchainInstall, straceConfig "\"2.23.2\"", none⟩]) = true ∧
      rebuildsAddons bareWorkspace intact (straceConfig "\"2.24\"")
        (after bareWorkspace intact [⟨.toolchainInstall, straceConfig "\"2.23.2\"", none⟩]) = false := by decide +kernel
  have packs := packs_iff.mpr (.inl rebuilt.1)
  have enabled : "strace" ∈ toolchainAddonsDeps (straceConfig "\"2.24\"") := by decide +kernel
  obtain ⟨tarball, here, whole⟩ := all bareWorkspace intact [⟨.toolchainInstall, straceConfig "\"2.23.2\"", none⟩] _ packs
  rw [packed_tarball packs, Option.some.injEq] at here
  subst here
  dsimp only at whole
  rw [coreSafe_iff rebuilt.1] at whole
  have addons := (whole.addons "strace" enabled).1
  rw [rebuilt.2] at addons
  cases addons

end EmbToolkit.Proofs.Packaging
