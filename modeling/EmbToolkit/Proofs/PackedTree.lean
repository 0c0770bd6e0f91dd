import EmbToolkit.Proofs.ToolchainRun

/-! What the packed tree holds of each package, and that binutils is among the packages of every core build: its
record is never loaded, and its symbol list is never empty. -/

namespace EmbToolkit.Proofs.PackedTree
open MakeText Script Traces Emission ToolchainRun
variable (w : Workspace) (r : Reread) (c : Config) (d : Disk)

/-- The programs of `gdb` go when `gdbserver` is installed. -/
def serverDropsGdb : Prop :=
  "gdbserver" ∈ toolchainAddonsDeps c ∧ reinstalled w r c d "gdbserver" = true ∧
    c.value "CONFIG_EMBTK_HAVE_GDBSERVER" ++ c.value "CONFIG_EMBTK_HAVE_GDB" = "y"

instance : Decidable (serverDropsGdb w r c d) := inferInstanceAs (Decidable (_ ∧ _ ∧ _))

variable {w r c d}

private theorem plants_gdb {ps : List String} (absent : "gdb" ∉ ps) (tree : Tree) : plants c ps tree "gdb" =
    if "gdbserver" ∈ ps ∧ c.value "CONFIG_EMBTK_HAVE_GDBSERVER" ++ c.value "CONFIG_EMBTK_HAVE_GDB" = "y" then none else tree "gdb" := by
  induction ps generalizing tree with
  | nil => simp [plants]
  | cons p rest ih =>
    have step : plants c (p :: rest) tree = plants c rest (plant c p tree) := rfl
    rw [step, ih (fun member => absent (List.mem_cons_of_mem _ member))]
    have other : p ≠ "gdb" := fun same => absent (by simp [same])
    by_cases server : p = "gdbserver"
    · subst server
      by_cases only : c.value "CONFIG_EMBTK_HAVE_GDBSERVER" ++ c.value "CONFIG_EMBTK_HAVE_GDB" = "y" <;>
        simp [plant, only, treePackages]
    · have kept : plant c p tree "gdb" = tree "gdb" := by
        unfold plant
        split
        · simp [server, Ne.symm other]
        · rfl
      simp [kept, Ne.symm server]

private theorem emitted_filter {ps : List String} (nodup : ps.Nodup) (m : Memory) :
    emitted w c d ps m = ps.filter (w.pkgRunrecipe c m d) := by
  induction ps generalizing m with
  | nil => rfl
  | cons p rest ih =>
    obtain ⟨fresh, distinct⟩ := List.nodup_cons.mp nodup
    unfold emitted
    by_cases run : w.pkgRunrecipe c m d p = true
    · rw [if_pos run, List.filter_cons_of_pos run, ih distinct]
      congr 1
      exact List.filter_congr fun q member => pkgRunrecipe_update (fun same => fresh (same ▸ member))
    · rw [if_neg run, List.filter_cons_of_neg run, ih distinct]

/-- The enabled addons that are installed, in their order. -/
theorem emitted_addons : emitted w c d (toolchainAddonsDeps c) (addonsMemory w r c d) =
    xtoolAddons.filter fun p => xtoolEnabled c p && reinstalled w r c d p := by
  have nodup : (toolchainAddonsDeps c).Nodup := List.Nodup.filter _ (by decide)
  rw [emitted_filter nodup, toolchainAddonsDeps, List.filter_filter]
  refine List.filter_congr fun p member => ?_
  rw [addons_pkgRunrecipe member, Bool.and_comm]

theorem mem_toolchainAddonsDeps {p : String} : p ∈ toolchainAddonsDeps c ↔ p ∈ xtoolAddons ∧ xtoolEnabled c p = true := List.mem_filter

theorem xtoolAddons_tree : ∀ p ∈ xtoolAddons, p ∈ treePackages := by decide

theorem toolchainDeps_not_addons {p : String} (member : p ∈ toolchainDeps c) : p ∉ xtoolAddons := by
  have fixed := mem_toolchainDeps member
  intro addon
  simp only [xtoolAddons, List.mem_cons, List.not_mem_nil, or_false] at addon
  rcases addon with rfl | rfl | rfl | rfl | rfl <;> revert fixed <;> decide

theorem coreTree_apply (core : rebuildsCore w r c d = true) (p : String) : coreTree w r c d p =
    if p ∈ toolchainDeps c ∧ p ∈ treePackages ∧ reinstalled w r c d p = true then some ⟨c, true⟩ else none := by
  have absent : ∀ q ∈ emitted w c d (toolchainDeps c) (coreMemory w r c d), q ∉ xtoolAddons :=
    fun q member => toolchainDeps_not_addons (mem_emitted.mp member).1
  rw [coreTree, if_pos core]
  by_cases gdb : p = "gdb"
  · subst gdb
    have notDep : "gdb" ∉ toolchainDeps c := fun member => toolchainDeps_not_addons member (by decide)
    have noGdb : "gdb" ∉ emitted w c d (toolchainDeps c) (coreMemory w r c d) := fun member => absent _ member (by decide)
    rw [plants_gdb noGdb]
    simp [notDep, empty]
  · rw [plants_apply (.inl gdb)]
    by_cases dep : p ∈ toolchainDeps c
    · simp only [mem_emitted, dep, true_and, core_pkgRunrecipe dep, and_comm]
      rfl
    · simp [mem_emitted, dep, empty]

/-- A package that is not an addon has in the packed tree what the core build or the tarball left of it. -/
theorem packedTree_core {p : String} (notAddon : p ∉ xtoolAddons) : packedTree w r c d p = coreTree w r c d p := by
  unfold packedTree
  split
  · have notGdb : p ≠ "gdb" := by rintro rfl; exact notAddon (by decide)
    have notNamed : p ∉ filesNamed := fun member => notAddon (by revert member; simp [filesNamed, xtoolAddons]; tauto)
    have notEmitted : p ∉ emitted w c d (toolchainAddonsDeps c) (addonsMemory w r c d) :=
      fun member => notAddon (mem_toolchainAddonsDeps.mp (mem_emitted.mp member).1).1
    rw [plants_apply (.inl notGdb)]
    simp [notEmitted, without, notNamed]
  · rfl

private theorem addonsOff_disabled {p : String} (enabled : p ∈ toolchainAddonsDeps c) : p ∉ (afterCoreMemory w r c d).addonsOff := by
  rw [(afterCoreMemory_off w r c).2]
  simp only [Memory.load, List.mem_filter, Bool.and_eq_true, Bool.not_eq_true', not_and]
  intro member off
  simp [Workspace.enabled, member, (mem_toolchainAddonsDeps.mp enabled).2] at off

/-- An enabled addon is in the packed tree because it was installed, or because it was in the unpacked tree and no
other addon deleted it. -/
theorem packedTree_addon {p : String} (addons : rebuildsAddons w r c d = true) (enabled : p ∈ toolchainAddonsDeps c) :
    packedTree w r c d p = if reinstalled w r c d p = true then some ⟨c, true⟩
      else if p = "gdb" ∧ serverDropsGdb w r c d then none
      else if rebuildsCore w r c d = true then none else unpackedTree c d p := by
  obtain ⟨member, on⟩ := mem_toolchainAddonsDeps.mp enabled
  have base : without (w.addonsCleaned c (rebuildsCore w r c d) (afterCoreMemory w r c d)) (coreTree w r c d) p =
      if rebuildsCore w r c d = true then none else unpackedTree c d p := by
    cases core : rebuildsCore w r c d with
    | true =>
      have notDep : p ∉ toolchainDeps c := fun dep => toolchainDeps_not_addons dep member
      simp [without, coreTree_apply core, notDep]
    | false =>
      have notCleaned : p ∉ w.addonsCleaned c false (afterCoreMemory w r c d) := by
        simp only [Workspace.addonsCleaned, Bool.false_eq_true, if_false, List.mem_append, not_or]
        refine ⟨⟨fun listed => ?_, fun listed => ?_⟩, addonsOff_disabled enabled⟩
        · exact (w.rootfs_outside p (List.mem_of_mem_filter listed)).1 (xtoolAddons_tree p member)
        · rw [(afterCoreMemory_off w r c).1] at listed
          exact (w.rootfs_outside p (List.mem_of_mem_filter listed)).1 (xtoolAddons_tree p member)
      simp [without, notCleaned, coreTree, core]
  rw [packedTree, if_pos addons, emitted_addons]
  by_cases gdb : p = "gdb"
  · subst gdb
    -- `gdb` comes after `gdbserver`, so its own installation decides, and before that the deletion
    have parts : xtoolAddons.filter (fun p => xtoolEnabled c p && reinstalled w r c d p) =
        ["ltrace", "strace", "gdbserver"].filter (fun p => xtoolEnabled c p && reinstalled w r c d p) ++
          ["gdb", "gdb_host"].filter (fun p => xtoolEnabled c p && reinstalled w r c d p) :=
      List.filter_append ["ltrace", "strace", "gdbserver"] ["gdb", "gdb_host"]
    have server : "gdbserver" ∈ toolchainAddonsDeps c ↔ xtoolEnabled c "gdbserver" = true := by simp [mem_toolchainAddonsDeps, xtoolAddons]
    rw [parts, plants_append, plants_apply (.inr (by simp)), plants_gdb (by simp), base]
    simp [List.mem_filter, on, xtoolAddons_tree _ member, serverDropsGdb, server, and_assoc]
  · rw [plants_apply (.inl gdb), base]
    simp [List.mem_filter, member, on, xtoolAddons_tree p member, gdb]

end EmbToolkit.Proofs.PackedTree
