import EmbToolkit.Proofs.Emission

/-! The outcome of one complete `toolchain_install`: the toolchain records, the tarball and the trees it leaves, as
functions of the disk it started from. -/

namespace EmbToolkit.Proofs.ToolchainRun
open Script Traces Emission

/-- The tree after the guarded recipe of one package. -/
def plant (c : Config) (p : String) (tree : Tree) : Tree :=
  if p ∈ treePackages then
    if p = "gdbserver" ∧ c.value "CONFIG_EMBTK_HAVE_GDBSERVER" ++ c.value "CONFIG_EMBTK_HAVE_GDB" = "y"
    then Function.update (Function.update tree p (some ⟨c, true⟩)) "gdb" none else Function.update tree p (some ⟨c, true⟩)
  else tree

def plants (c : Config) (ps : List String) (tree : Tree) : Tree := ps.foldl (fun tree p => plant c p tree) tree

/-- The tree after the installed files of the given packages have been deleted. -/
def without (ps : List String) (tree : Tree) : Tree :=
  fun p => if p ∈ ps ∧ p ∈ filesNamed then none else tree p

def empty : Tree := fun _ => none

theorem over_empty (tree : Tree) : tree.over empty = tree := by
  funext p
  simp [Tree.over, empty]

theorem over_broken (tree old : Tree) : tree.over (tree.broken.over old) = tree.over old := by
  funext p
  cases found : tree p <;> simp [Tree.over, Tree.broken, found]

/-- A package is in the tree because it was installed, or was there before. Only `gdb` can lose files to another. -/
theorem plants_apply {c : Config} {ps : List String} {p : String} (free : p ≠ "gdb" ∨ "gdbserver" ∉ ps) (tree : Tree) :
    plants c ps tree p = if p ∈ ps ∧ p ∈ treePackages then some ⟨c, true⟩ else tree p := by
  induction ps generalizing tree with
  | nil => simp [plants]
  | cons q rest ih =>
    have step : plants c (q :: rest) tree = plants c rest (plant c q tree) := rfl
    rw [step, ih (free.imp_right fun absent member => absent (List.mem_cons_of_mem _ member))]
    by_cases later : p ∈ rest ∧ p ∈ treePackages
    · rw [if_pos later, if_pos ⟨List.mem_cons_of_mem _ later.1, later.2⟩]
    · rw [if_neg later]
      have kept : q = "gdbserver" → p ≠ "gdb" := fun same => free.resolve_right fun absent => absent (by simp [same])
      by_cases same : p = q
      · subst same
        by_cases inTree : p ∈ treePackages
        · rw [if_pos ⟨List.mem_cons_self, inTree⟩, plant, if_pos inTree]
          split
          next server => simp [kept server.1]
          next => simp
        · simp [plant, inTree]
      · have unchanged : plant c q tree p = tree p := by
          unfold plant
          split
          · split
            next server => simp [same, kept server.1]
            next => simp [same]
          · rfl
        have absent : ¬ (p ∈ q :: rest ∧ p ∈ treePackages) := by
          rintro ⟨member, inTree⟩
          exact later ⟨(List.mem_cons.mp member).resolve_left same, inTree⟩
        rw [unchanged, if_neg absent]

theorem plants_append (c : Config) (first second : List String) (tree : Tree) :
    plants c (first ++ second) tree = plants c second (plants c first tree) := List.foldl_append

section
variable (w : Workspace) (c : Config)

/-- The guarded recipe of one package of the toolchain. -/
theorem run_ownCommands {p : String} (known : p ≠ "toolchain" ∧ p ≠ "toolchain_addons") (s : Shelf) :
    Script.run onShelf (w.ownCommands c p) s = s.onTree (target c) (plant c p) := by
  have mark := mark_statedir w c known
  unfold Workspace.ownCommands Workspace.recordInstalled installCommands postinstallonce
  by_cases inTree : p ∈ treePackages
  · by_cases server : p = "gdbserver" ∧ c.value "CONFIG_EMBTK_HAVE_GDBSERVER" ++ c.value "CONFIG_EMBTK_HAVE_GDB" = "y"
    · have planted : plant c p = fun tree => Function.update (Function.update tree p (some ⟨c, true⟩)) "gdb" none := by
        funext tree
        rw [plant, if_pos inTree, if_pos server]
      simp [if_pos server, inTree, onShelf, mark, planted]
    · have planted : plant c p = fun tree => Function.update tree p (some ⟨c, true⟩) := by
        funext tree
        rw [plant, if_pos inTree, if_neg server]
      simp [if_neg server, inTree, onShelf, mark, planted]
  · have notServer : p ≠ "gdbserver" := fun same => inTree (by simp [same, treePackages])
    have planted : plant c p = fun tree => tree := by
      funext tree
      rw [plant, if_neg inTree]
    simp [inTree, notServer, onShelf, mark, planted]

theorem run_installEach (d : Disk) (ps : List String) (known : ∀ p ∈ ps, p ≠ "toolchain" ∧ p ≠ "toolchain_addons") (m : Memory)
    (s : Shelf) : Script.run onShelf (ownCommands (w.installEach c d ps m).1) s = s.onTree (target c) (plants c (emitted w c d ps m)) := by
  induction ps generalizing m s with
  | nil => exact (Shelf.onTree_id s _).symm
  | cons p rest ih =>
    have here := known p List.mem_cons_self
    have later := fun q member => known q (List.mem_cons_of_mem _ member)
    simp only [Workspace.installEach, Workspace.installXpkg, emitted]
    split
    · simp only [ownCommands_append, ownCommands_guardedRecipe, ownCommands, run_append, run_cons, run_nil, onShelf,
        run_ownCommands w c here, ih later, Shelf.onTree_onTree]
      rfl
    · simp only [ownCommands_append, ownCommands, run_append, run_cons, run_nil, onShelf, ih later]

theorem run_cleanup (ps : List String) (known : ∀ p ∈ ps, p ≠ "toolchain" ∧ p ≠ "toolchain_addons") (s : Shelf) :
    Script.run onShelf (ps.flatMap (w.cleanupPkg c)) s = s.onTree (target c) (without ps) := by
  induction ps generalizing s with
  | nil =>
    have none : without [] = fun tree => tree := by funext tree p; simp [without]
    simp [none]
  | cons p rest ih =>
    have mark := mark_statedir w c (known p List.mem_cons_self)
    have later := fun q member => known q (List.mem_cons_of_mem _ member)
    have first : Script.run onShelf (w.cleanupPkg c p) s = s.onTree (target c) (without [p]) := by
      unfold Workspace.cleanupPkg
      split
      next named =>
        have cleared : without [p] = fun tree => Function.update tree p none := by
          funext tree q
          by_cases same : q = p
          · subst same; simp [without, named]
          · simp [without, same]
        simp [onShelf, mark, cleared]
      next unnamed =>
        have cleared : without [p] = fun tree => tree := by
          funext tree q
          by_cases same : q = p
          · subst same; simp [without, unnamed]
          · simp [without, same]
        simp [onShelf, mark, cleared]
    have both : (fun tree => without rest (without [p] tree)) = without (p :: rest) := by
      funext tree q
      simp only [without, List.mem_cons, List.not_mem_nil, or_false]
      by_cases same : q = p <;> by_cases other : q ∈ rest <;> by_cases named : q ∈ filesNamed <;> simp_all
    rw [List.flatMap_cons, run_append, first, ih later, Shelf.onTree_onTree, both]

end

/-! ### The whole recipe -/

theorem statedir_toolchain (w : Workspace) (c : Config) : w.statedir c "toolchain" = .toolchain (toolchainDir c) "toolchain" := by
  simp [Workspace.statedir]

theorem statedir_addons (w : Workspace) (c : Config) :
    w.statedir c "toolchain_addons" = .toolchain (toolchainDir c) "toolchain_addons" := by
  simp [Workspace.statedir]

theorem plants_outside {c : Config} {ps : List String} (outside : ∀ p ∈ ps, p ∉ treePackages) : plants c ps = fun tree => tree := by
  funext tree
  induction ps generalizing tree with
  | nil => rfl
  | cons p rest ih =>
    have kept : plant c p tree = tree := if_neg (outside p List.mem_cons_self)
    exact (congrArg (plants c rest) kept).trans (ih (fun q member => outside q (List.mem_cons_of_mem _ member)) tree)

theorem without_outside {ps : List String} (outside : ∀ p ∈ ps, p ∉ treePackages) : without ps = fun tree => tree := by
  funext tree p
  have apart : ¬ (p ∈ ps ∧ p ∈ filesNamed) := by
    rintro ⟨member, named⟩
    refine outside p member ?_
    simp only [filesNamed, List.mem_cons, List.not_mem_nil, or_false] at named
    rcases named with rfl | rfl | rfl | rfl <;> decide
  simp only [without, if_neg apart]

theorem without_append (first second : List String) (tree : Tree) :
    without (first ++ second) tree = without second (without first tree) := by
  funext p
  by_cases one : p ∈ first <;> by_cases two : p ∈ second <;> by_cases named : p ∈ filesNamed <;> simp [without, one, two, named]

theorem known_toolchainDeps {c : Config} : ∀ p ∈ toolchainDeps c, p ≠ "toolchain" ∧ p ≠ "toolchain_addons" := by
  intro p member
  have fixed := mem_toolchainDeps member
  constructor <;> rintro rfl <;> revert fixed <;> decide

theorem known_xtoolAddons : ∀ p ∈ xtoolAddons, p ≠ "toolchain" ∧ p ≠ "toolchain_addons" := by decide

theorem known_toolchainAddonsDeps {c : Config} : ∀ p ∈ toolchainAddonsDeps c, p ≠ "toolchain" ∧ p ≠ "toolchain_addons" :=
  fun p member => known_xtoolAddons p (List.mem_of_mem_filter member)

section
variable (w : Workspace) (r : Reread) (c : Config) (d : Disk)

/-- The commands of the recipe itself. -/
def toolchainCommands : List Op := ownCommands (w.toolchainBuild c (Memory.load w r c d) d)

/-- What unpacking the tarball leaves under the current target. -/
def unpackedTree : Tree :=
  match d.tarball (toolchainDir c) with
  | some tarball => if tarball.target = target c then tarball.tree else empty
  | none => empty

/-- The tree after the core part of the recipe, or the unpacked one that replaces it. -/
def coreTree : Tree :=
  if rebuildsCore w r c d then plants c (emitted w c d (toolchainDeps c) (coreMemory w r c d)) empty else unpackedTree c d

/-- The tree that the recipe packs. -/
def packedTree : Tree :=
  if rebuildsAddons w r c d then
    plants c (emitted w c d (toolchainAddonsDeps c) (addonsMemory w r c d))
      (without (w.addonsCleaned c (rebuildsCore w r c d) (afterCoreMemory w r c d)) (coreTree w r c d))
  else coreTree w r c d

theorem goals_toolchainBuild : Goals Outside (w.toolchainBuild c (Memory.load w r c d) d) := by
  have predeps : ∀ p ∈ w.toolchainPredeps, p ≠ "toolchain" ∧ p ≠ "toolchain_addons" :=
    fun p member => ⟨fun same => absurd (mem_toolchainPredeps (same ▸ member)) (by decide),
      fun same => absurd (mem_toolchainPredeps (same ▸ member)) (by decide)⟩
  have deps := goals_installEach w c (toolchainDeps c) known_toolchainDeps
  have addons := goals_installEach w c (toolchainAddonsDeps c) known_toolchainAddonsDeps
  unfold Workspace.toolchainBuild
  refine Goals.append (Goals.append (Goals.append ?_ ?_) ?_) (goals_commands _ _)
  · intro goals member
    exact goals_installEach w c w.toolchainPredeps predeps _ d goals (by simpa using member)
  · split
    · exact ((goals_commands _ _).append (deps _ _)).append (goals_commands _ _)
    · intro goals member; simp at member
  · split
    · exact ((goals_commands _ _).append (addons _ _)).append (goals_commands _ _)
    · intro goals member; simp at member

theorem shelf_toolchainInstall :
    shelf (run (w.toolchainInstall r c d) d) = Script.run onShelf (toolchainCommands w r c d) (shelf d) := by
  rw [shelf_run]
  exact shelf_traceOf w r c (goals_toolchainBuild w r c d) d (shelf d)

/-- A command of the run is one of the recipe, or one of a package outside the toolchain that a nested make installs. -/
theorem mem_toolchainInstall {op : Op} (member : op ∈ w.toolchainInstall r c d) :
    op ∈ toolchainCommands w r c d ∨ ∃ q, Outside q ∧ op ∈ packageCommands w c q := by
  refine mem_traceOf (fun op => op ∈ toolchainCommands w r c d ∨ ∃ q, Outside q ∧ op ∈ packageCommands w c q)
    (goals_toolchainBuild w r c d) ?_ (fun op own => .inl own) d op member
  intro goals d' outside
  exact mem_makeWithin w r c _ Outside (fun _ here => outside_closed w c here.2) (fun q here op inside => .inr ⟨q, here, inside⟩) _ goals d' outside

/-! The recipe in its four parts. -/

def predepsCommands : List Op := ownCommands (w.installEach c d w.toolchainPredeps (Memory.load w r c d)).1

def coreCommands : List Op :=
  w.coreClean c (predepsMemory w r c d) ++ ownCommands (w.installEach c d (toolchainDeps c) (coreMemory w r c d)).1
    ++ w.recordInstalled c "toolchain"

def addonsCommands : List Op :=
  w.addonsClean c (rebuildsCore w r c d) (afterCoreMemory w r c d)
    ++ ownCommands (w.installEach c d (toolchainAddonsDeps c) (addonsMemory w r c d)).1 ++ w.recordInstalled c "toolchain_addons"

theorem toolchainCommands_eq : toolchainCommands w r c d = .other "mkinitdirs" :: predepsCommands w r c d
    ++ (if rebuildsCore w r c d then coreCommands w r c d else [])
    ++ (if rebuildsAddons w r c d then addonsCommands w r c d else [])
    ++ (if rebuildsCore w r c d || rebuildsAddons w r c d then w.packaging c else w.reuse c d) := by
  unfold toolchainCommands Workspace.toolchainBuild
  cases core : w.toolchainRunrecipe c (Memory.load w r c d) d "toolchain" <;>
    cases addons : w.toolchainRunrecipe c (Memory.load w r c d) d "toolchain_addons" <;>
    simp [ownCommands, predepsCommands, coreCommands, addonsCommands, Workspace.coreBuild, Workspace.addonsBuild, rebuildsCore,
      rebuildsAddons, coreMemory, addonsMemory, afterCoreMemory, predepsMemory, core, addons]

/-- The state directory of one of the two components. -/
def record (component : String) : StateDir := .toolchain (toolchainDir c) component

variable {d}

theorem run_predepsCommands (s : Shelf) : Script.run onShelf (predepsCommands w r c d) s = s := by
  have apart : ∀ p ∈ w.toolchainPredeps, p ∉ treePackages ∧ p ≠ "toolchain" ∧ p ≠ "toolchain_addons" := by
    intro p member
    have fixed := mem_toolchainPredeps member
    simp only [List.mem_cons, List.not_mem_nil, or_false] at fixed
    rcases fixed with rfl | rfl | rfl | rfl | rfl | rfl | rfl | rfl | rfl <;> decide
  rw [predepsCommands, run_installEach w c d _ (fun p member => (apart p member).2),
    plants_outside (fun p member => (apart p (mem_emitted.mp member).1).1), Shelf.onTree_id]

theorem run_recordInstalled (component : String) (known : component = "toolchain" ∨ component = "toolchain_addons") (s : Shelf) :
    Script.run onShelf (w.recordInstalled c component) s =
      s.mark (fun m => { m with installed := true, kconfig := w.pkgKconfigsAllV c component }) (record c component) := by
  have here : w.statedir c component = record c component := by rw [Workspace.statedir, if_pos known]; rfl
  simp [Workspace.recordInstalled, onShelf, here, Shelf.mark_mark]

theorem rootfs_known {p : String} (off : p ∈ w.rootfsPkgs c ++ (Memory.load w r c d).rootfsOff) : Outside p := by
  rcases List.mem_append.mp off with member | member
  · exact w.rootfs_outside p (List.mem_of_mem_filter member)
  · exact w.rootfs_outside p (List.mem_of_mem_filter member)

theorem predepsMemory_off : (predepsMemory w r c d).rootfsOff = (Memory.load w r c d).rootfsOff ∧
    (predepsMemory w r c d).addonsOff = (Memory.load w r c d).addonsOff :=
  ⟨(installEach_memory w.toolchainPredeps).2.1, (installEach_memory w.toolchainPredeps).2.2.1⟩

theorem afterCoreMemory_off : (afterCoreMemory w r c d).rootfsOff = (Memory.load w r c d).rootfsOff ∧
    (afterCoreMemory w r c d).addonsOff = (Memory.load w r c d).addonsOff := by
  have first := predepsMemory_off w r c (d := d)
  unfold afterCoreMemory
  split
  · exact ⟨((installEach_memory (toolchainDeps c)).2.1).trans first.1, ((installEach_memory (toolchainDeps c)).2.2.1).trans first.2⟩
  · exact first

theorem coreCleaned_known : ∀ p ∈ toolchainDeps c ++ w.rootfsPkgs c ++ (predepsMemory w r c d).rootfsOff,
    p ≠ "toolchain" ∧ p ≠ "toolchain_addons" := by
  intro p member
  rw [List.append_assoc, (predepsMemory_off w r c).1] at member
  rcases List.mem_append.mp member with dep | other
  · exact known_toolchainDeps p dep
  · exact (rootfs_known w r c other).2

/-- The core part empties the tree, fills it again, and records the toolchain. -/
theorem run_coreCommands (core : rebuildsCore w r c d = true) (s : Shelf) : Script.run onShelf (coreCommands w r c d) s =
    (s.mark (fun _ => ⟨true, w.pkgKconfigsAllV c "toolchain", false⟩) (record c "toolchain")).onTree (target c)
      (fun _ => coreTree w r c d) := by
  simp only [coreCommands, Workspace.coreClean, run_append, run_cons, run_nil, onShelf, run_cleanup w c _ (coreCleaned_known w r c),
    run_installEach w c d _ known_toolchainDeps, run_recordInstalled w c "toolchain" (.inl rfl), statedir_toolchain, Shelf.onTree_onTree,
    Shelf.mark_onTree, coreTree, core, if_true]
  rw [← record, Shelf.mark_mark, Shelf.mark_mark]
  rfl

/-- The tarball, if there is one, was packed for the current target. -/
def Matched (d : Disk) : Prop := ∀ tarball, d.tarball (toolchainDir c) = some tarball → tarball.target = target c

/-- Unpacking replaces the tree of the current target, and no other tree if the tarball was packed for it. -/
theorem run_decompress {s : Shelf} (stored : s.tarball = d.tarball) : ∃ trees,
    Script.run onShelf (decompress c) s = { s with tree := trees } ∧ trees (target c) = unpackedTree c d ∧
      (Matched c d → trees = Function.update s.tree (target c) (unpackedTree c d)) := by
  have here : s.tarball (toolchainDir c) = d.tarball (toolchainDir c) := by rw [stored]
  cases found : d.tarball (toolchainDir c) with
  | none =>
    rw [found] at here
    refine ⟨Function.update s.tree (target c) empty, ?_, ?_, ?_⟩
    · simp [decompress, onShelf, Shelf.onTree, here]; rfl
    · simp [unpackedTree, found]
    · simp [unpackedTree, found]
  | some tarball =>
    rw [found] at here
    have ran : Script.run onShelf (decompress c) s = (s.onTree (target c) fun _ => empty).onTree tarball.target tarball.tree.over := by
      simp only [decompress, run_cons, run_nil, onShelf, Shelf.onTree, here, Function.update_self, Function.update_idem, over_broken]
      rfl
    refine ⟨_, ran.trans rfl, ?_, fun matched => ?_⟩
    · by_cases same : tarball.target = target c
      · simp [Shelf.onTree, unpackedTree, found, same, over_empty]
      · simp [Shelf.onTree, unpackedTree, found, same, Function.update_of_ne (Ne.symm same)]
    · simp [Shelf.onTree, unpackedTree, found, matched tarball found, over_empty]

theorem addonsCleaned_known :
    (∀ p ∈ w.rootfsPkgs c ++ (afterCoreMemory w r c d).rootfsOff, Outside p) ∧
      ∀ p ∈ (afterCoreMemory w r c d).addonsOff, p ≠ "toolchain" ∧ p ≠ "toolchain_addons" := by
  rw [(afterCoreMemory_off w r c).1, (afterCoreMemory_off w r c).2]
  refine ⟨fun p member => rootfs_known w r c member, fun p member => ?_⟩
  simp only [Memory.load, List.mem_filter] at member
  exact known_xtoolAddons p member.1

/-- The commands of the core part besides those of packages. -/
def coreFrame : List Op :=
  [.other "building_msg", .removeInstalled (record c "toolchain"), .removeDecompressed (record c "toolchain")]
    ++ [.breakTree (target c), .removeTree (target c), .other "mkinitdirs"] ++ w.recordInstalled c "toolchain"

/-- The commands of the addons part besides those of packages. -/
def addonsFrame (core : Bool) : List Op :=
  [.other "build_msg", .removeInstalled (record c "toolchain_addons"), .removeDecompressed (record c "toolchain_addons"), .other "mkinitdirs"]
    ++ (if core then [] else decompress c) ++ w.recordInstalled c "toolchain_addons"

/-- The commands of the recipe besides those of packages. -/
def skeleton (d : Disk) : List Op :=
  .other "mkinitdirs" :: (if rebuildsCore w r c d then coreFrame w c else [])
    ++ (if rebuildsAddons w r c d then addonsFrame w c (rebuildsCore w r c d) else [])
    ++ (if rebuildsCore w r c d || rebuildsAddons w r c d then w.packaging c else w.reuse c d)

/-- Commands that no package executes stand in the run as they stand in the recipe. -/
theorem filter_toolchainInstall (d : Disk) (relevant : Op → Bool)
    (packages : ∀ p, p ≠ "toolchain" ∧ p ≠ "toolchain_addons" → ∀ op, PackageOp (w.statedir c p) op → relevant op = false) :
    (w.toolchainInstall r c d).filter relevant = (skeleton w r c d).filter relevant := by
  have each : ∀ {ps : List String} {m : Memory}, (∀ p ∈ ps, p ≠ "toolchain" ∧ p ≠ "toolchain_addons") →
      (ownCommands (w.installEach c d ps m).1).filter relevant = [] := by
    intro ps m known
    rw [List.filter_eq_nil_iff]
    intro op member
    rcases mem_ownCommands_installEach member with rfl | ⟨q, emits, inside⟩
    · simp [packages "" (by decide) (.other "postinstall") trivial]
    · simp [packages q (known q (mem_emitted.mp emits).1) op (packageOp_packageCommands w c inside)]
  have cleanup : ∀ {ps : List String}, (∀ p ∈ ps, p ≠ "toolchain" ∧ p ≠ "toolchain_addons") →
      (ps.flatMap (w.cleanupPkg c)).filter relevant = [] := by
    intro ps known
    rw [List.filter_eq_nil_iff]
    intro op member
    obtain ⟨p, listed, inside⟩ := List.mem_flatMap.mp member
    simp [packages p (known p listed) op (packageOp_cleanup w c inside)]
  have predeps : ∀ p ∈ w.toolchainPredeps, p ≠ "toolchain" ∧ p ≠ "toolchain_addons" :=
    fun p member => ⟨fun same => absurd (mem_toolchainPredeps (same ▸ member)) (by decide),
      fun same => absurd (mem_toolchainPredeps (same ▸ member)) (by decide)⟩
  have nested : ∀ goals d, (∀ goal ∈ goals, Outside goal) → (w.make r c goals d).filter relevant = [] := by
    intro goals d outside
    rw [List.filter_eq_nil_iff]
    intro op member
    have off := mem_makeWithin w r c (fun op => relevant op = false) Outside (fun _ here => outside_closed w c here.2)
      (fun p here op inside => packages p here.2 op (packageOp_packageCommands w c inside)) _ goals d outside op member
    simp [off]
  have core : (coreCommands w r c d).filter relevant = (coreFrame w c).filter relevant := by
    simp only [coreCommands, Workspace.coreClean, coreFrame, List.filter_append, each known_toolchainDeps, cleanup (coreCleaned_known w r c)]
    simp [statedir_toolchain, record]
  obtain ⟨rootfs, off⟩ := addonsCleaned_known w r c (d := d)
  have addons : (addonsCommands w r c d).filter relevant = (addonsFrame w c (rebuildsCore w r c d)).filter relevant := by
    have clean : (if rebuildsCore w r c d then (toolchainAddonsDeps c).flatMap (w.cleanupPkg c)
        else (w.rootfsPkgs c ++ (afterCoreMemory w r c d).rootfsOff).flatMap (w.cleanupPkg c) ++ decompress c).filter relevant =
        (if rebuildsCore w r c d then [] else decompress c).filter relevant := by
      split
      · exact cleanup known_toolchainAddonsDeps
      · rw [List.filter_append, cleanup (fun p member => (rootfs p member).2), List.nil_append]
    simp only [addonsCommands, Workspace.addonsClean, addonsFrame, List.filter_append, each known_toolchainAddonsDeps, cleanup off, clean]
    simp [statedir_addons, record]
  have parts : ∀ {test : Bool} {first second : List Op}, first.filter relevant = second.filter relevant →
      (if test = true then first else []).filter relevant = (if test = true then second else []).filter relevant := by
    intro test first second same
    split
    · exact same
    · rfl
  have whole : (w.toolchainInstall r c d).filter relevant = (toolchainCommands w r c d).filter relevant :=
    filter_traceOf (goals_toolchainBuild w r c d) nested d
  have quiet : relevant (.other "mkinitdirs") = false := packages "" (by decide) (.other "mkinitdirs") trivial
  rw [whole, toolchainCommands_eq, skeleton]
  simp only [List.filter_append, List.cons_append, List.filter_cons, quiet, Bool.false_eq_true, if_false, parts core, parts addons,
    predepsCommands, each predeps, List.nil_append]

/-- A command that no package executes is executed if it is one of the recipe itself. -/
theorem mem_toolchainInstall_iff (d : Disk) {op : Op} (own : ∀ dir, ¬ PackageOp dir op) : op ∈ w.toolchainInstall r c d ↔ op ∈ skeleton w r c d := by
  have same := filter_toolchainInstall w r c d (fun other => other = op)
    (fun p _ other here => decide_eq_false fun equal => own _ (equal ▸ here))
  have listed : ∀ ops : List Op, op ∈ ops ↔ op ∈ ops.filter (fun other => other = op) := by simp
  rw [listed, same, ← listed]


/-- What the addons part does to the tree before it installs anything, and to the other trees. -/
private theorem run_addonsClean {s : Shelf} (stored : s.tarball = d.tarball)
    (built : rebuildsCore w r c d = true → s.tree (target c) = coreTree w r c d) : ∃ trees,
    Script.run onShelf (w.addonsClean c (rebuildsCore w r c d) (afterCoreMemory w r c d)) s =
        { s.mark (fun m => { m with installed := false, decompressed := false }) (record c "toolchain_addons") with tree := trees } ∧
      trees (target c) = without (w.addonsCleaned c (rebuildsCore w r c d) (afterCoreMemory w r c d)) (coreTree w r c d) ∧
      (rebuildsCore w r c d = true ∨ Matched c d → ∀ other, other ≠ target c → trees other = s.tree other) := by
  obtain ⟨rootfs, off⟩ := addonsCleaned_known w r c (d := d)
  cases core : rebuildsCore w r c d with
  | true =>
    have tree := built core
    have ran : Script.run onShelf (w.addonsClean c true (afterCoreMemory w r c d)) s =
        (s.mark (fun m => { m with installed := false, decompressed := false }) (record c "toolchain_addons")).onTree (target c)
          (without (toolchainAddonsDeps c ++ (afterCoreMemory w r c d).addonsOff)) := by
      simp only [Workspace.addonsClean, if_true, run_append, run_cons, run_nil, onShelf, run_cleanup w c _ known_toolchainAddonsDeps,
        run_cleanup w c _ off, statedir_addons, Shelf.onTree_onTree, Shelf.mark_mark, ← without_append]
      rfl
    refine ⟨_, ran.trans rfl, ?_, fun _ other different => ?_⟩
    · simp [Shelf.mark, record, tree, Workspace.addonsCleaned]
    · simp [Shelf.mark, record, different]
  | false =>
    obtain ⟨trees, unpacked, here, others⟩ := run_decompress c (d := d)
      (s := s.mark (fun m => { m with installed := false, decompressed := false }) (record c "toolchain_addons")) stored
    have ran : Script.run onShelf (w.addonsClean c false (afterCoreMemory w r c d)) s =
        ({ s.mark (fun m => { m with installed := false, decompressed := false }) (record c "toolchain_addons") with tree := trees } :
          Shelf).onTree (target c) (without (afterCoreMemory w r c d).addonsOff) := by
      simp only [Workspace.addonsClean, Bool.false_eq_true, if_false, run_append, run_cons, run_nil, onShelf,
        run_cleanup w c _ (fun p member => (rootfs p member).2), run_cleanup w c _ off, statedir_addons, Shelf.mark_mark,
        without_outside (fun p member => (rootfs p member).1), Shelf.onTree_id]
      rw [← unpacked]
      rfl
    refine ⟨_, ran.trans rfl, ?_, ?_⟩
    · have outside : without (w.rootfsPkgs c ++ (afterCoreMemory w r c d).rootfsOff) = fun tree => tree :=
        without_outside (fun p member => (rootfs p member).1)
      simp only [Function.update_self, here, Workspace.addonsCleaned, Bool.false_eq_true, if_false, coreTree, core,
        without_append _ (afterCoreMemory w r c d).addonsOff, outside]
    · rintro (never | matched) other different
      · cases never
      · simp [different, others matched, Shelf.mark, record]

/-- The addons part starts from the core part's tree, or from the unpacked one, and records the addons. -/
theorem run_addonsCommands {s : Shelf} (stored : s.tarball = d.tarball)
    (built : rebuildsCore w r c d = true → s.tree (target c) = coreTree w r c d) (addons : rebuildsAddons w r c d = true) : ∃ trees,
    Script.run onShelf (addonsCommands w r c d) s =
        { s.mark (fun _ => ⟨true, w.pkgKconfigsAllV c "toolchain_addons", false⟩) (record c "toolchain_addons") with tree := trees } ∧
      trees (target c) = packedTree w r c d ∧
      (rebuildsCore w r c d = true ∨ Matched c d → ∀ other, other ≠ target c → trees other = s.tree other) := by
  obtain ⟨trees, cleaned, here, others⟩ := run_addonsClean w r c stored built
  refine ⟨Function.update trees (target c) (packedTree w r c d), ?_, by simp, fun own other different => ?_⟩
  · have packed : packedTree w r c d = plants c (emitted w c d (toolchainAddonsDeps c) (addonsMemory w r c d)) (trees (target c)) := by
      rw [packedTree, if_pos addons, here]
    simp only [addonsCommands, run_append, cleaned, run_installEach w c d _ known_toolchainAddonsDeps,
      run_recordInstalled w c "toolchain_addons" (.inr rfl), packed]
    simp [Shelf.mark, Shelf.onTree, record]
  · rw [Function.update_of_ne different]
    exact others own other different

/-- The records after a rebuild. -/
def rebuiltState (s : Shelf) : String → String → Markers :=
  let core := if rebuildsCore w r c d then s.mark (fun _ => ⟨true, w.pkgKconfigsAllV c "toolchain", false⟩) (record c "toolchain") else s
  let addons := if rebuildsAddons w r c d
    then core.mark (fun _ => ⟨true, w.pkgKconfigsAllV c "toolchain_addons", false⟩) (record c "toolchain_addons") else core
  ((addons.mark (fun m => { m with decompressed := true }) (record c "toolchain")).mark (fun m => { m with decompressed := true })
    (record c "toolchain_addons")).state

/-- After a rebuild the tarball and the tree are the packed tree. -/
theorem rebuild_outcome (rebuild : rebuildsCore w r c d = true ∨ rebuildsAddons w r c d = true) : ∃ trees,
    shelf (run (w.toolchainInstall r c d) d) =
        ⟨Function.update d.tarball (toolchainDir c) (some ⟨target c, packedTree w r c d⟩), trees, rebuiltState w r c (d := d) (shelf d)⟩ ∧
      trees (target c) = packedTree w r c d ∧
      (rebuildsCore w r c d = true ∨ Matched c d → ∀ other, other ≠ target c → trees other = d.tree other) := by
  have packs : (rebuildsCore w r c d || rebuildsAddons w r c d) = true := by simpa using rebuild
  have tail : ∀ s : Shelf, s.tree (target c) = packedTree w r c d → Script.run onShelf (w.packaging c) s =
      { ((s.mark (fun m => { m with decompressed := true }) (record c "toolchain")).mark (fun m => { m with decompressed := true })
          (record c "toolchain_addons")) with
        tarball := Function.update s.tarball (toolchainDir c) (some ⟨target c, packedTree w r c d⟩) } := by
    intro s tree
    simp [Workspace.packaging, compress, onShelf, statedir_toolchain, statedir_addons, tree, record, Shelf.mark]
  rw [shelf_toolchainInstall, toolchainCommands_eq, if_pos packs]
  simp only [run_append, run_cons, onShelf, run_predepsCommands]
  cases core : rebuildsCore w r c d with
  | true =>
    simp only [if_true, run_coreCommands w r c core]
    cases addons : rebuildsAddons w r c d with
    | true =>
      obtain ⟨trees, built, here, others⟩ := run_addonsCommands w r c (d := d) (s := ((shelf d).mark
        (fun _ => ⟨true, w.pkgKconfigsAllV c "toolchain", false⟩) (record c "toolchain")).onTree (target c) fun _ => coreTree w r c d)
        rfl (fun _ => by simp [Shelf.onTree]) addons
      rw [if_pos rfl, built, tail _ here]
      refine ⟨trees, ?_, here, fun own other different => ?_⟩
      · simp [rebuiltState, core, addons, Shelf.mark, Shelf.onTree, record, shelf]
      · rw [others (.inl core) other different]
        simp [Shelf.onTree, Shelf.mark, record, different, shelf]
    | false =>
      have packed : packedTree w r c d = coreTree w r c d := by simp [packedTree, addons]
      rw [if_neg (by simp), run_nil, tail _ (by simp [Shelf.onTree, packed])]
      refine ⟨Function.update d.tree (target c) (packedTree w r c d), ?_, by simp, fun _ other different => by simp [different]⟩
      simp [rebuiltState, core, addons, Shelf.mark, Shelf.onTree, record, shelf, packed]
  | false =>
    have addons : rebuildsAddons w r c d = true := rebuild.resolve_left (by simp [core])
    obtain ⟨trees, built, here, others⟩ := run_addonsCommands w r c (d := d) (s := shelf d) rfl (by simp [core]) addons
    simp only [Bool.false_eq_true, if_false, run_nil, addons, if_true]
    rw [built, tail _ here]
    refine ⟨trees, ?_, here, fun own other different => ?_⟩
    · simp [rebuiltState, core, addons, Shelf.mark, record, shelf]
    · rw [others (.inr (own.resolve_left (by simp))) other different]
      rfl

end
end EmbToolkit.Proofs.ToolchainRun
