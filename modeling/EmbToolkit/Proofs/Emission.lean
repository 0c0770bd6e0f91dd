import EmbToolkit.Proofs.Traces

/-! Which packages the toolchain recipe installs. All decisions are taken while the recipe is expanded, on the disk
before its first command, so what the recipe cleans on the way does not enter into them. -/

namespace EmbToolkit.Proofs.Emission
open Script Traces
variable (w : Workspace) (r : Reread) (c : Config)

/-- The packages of a list whose guarded recipe is expanded. -/
def emitted (d : Disk) : List String → Memory → List String
  | [], _ => []
  | p :: rest, m =>
    if w.pkgRunrecipe c m d p then p :: emitted d rest { m with installed := Function.update m.installed p true } else emitted d rest m

/-- The test of `embtk_install_xpkg` for a package whose installed variable has been cleared, or agrees with its marker. -/
def reinstalled (d : Disk) (p : String) : Bool :=
  !(d.state (w.statedir c p)).installed || w.pkgConfchanged c (Memory.load w r c d) p

variable {w r c} {d : Disk} {m : Memory}

/-- Setting the variable of one package does not decide about another. -/
theorem pkgRunrecipe_update {p q : String} (other : q ≠ p) :
    w.pkgRunrecipe c { m with installed := Function.update m.installed p true } d q = w.pkgRunrecipe c m d q := by
  simp [Workspace.pkgRunrecipe, Workspace.pkgInstalled, Workspace.pkgConfchanged, Function.update_of_ne other]

theorem mem_emitted {p : String} {ps : List String} : p ∈ emitted w c d ps m ↔ p ∈ ps ∧ w.pkgRunrecipe c m d p = true := by
  induction ps generalizing m with
  | nil => simp [emitted]
  | cons q rest ih =>
    by_cases same : p = q
    · subst same
      by_cases run : w.pkgRunrecipe c m d p = true
      · simp [emitted, run]
      · simp [emitted, run, ih]
    · unfold emitted
      split
      · simp [ih, same, pkgRunrecipe_update same]
      · simp [ih, same]

theorem compile_mem_installEach {p : String} {ps : List String} {m : Memory} (member : p ∈ emitted w c d ps m) :
    .compile (w.statedir c p) p c ∈ ownCommands (w.installEach c d ps m).1 := by
  induction ps generalizing m with
  | nil => simp [emitted] at member
  | cons q rest ih =>
    simp only [Workspace.installEach, Workspace.installXpkg, emitted] at member ⊢
    split at member
    next run =>
      rw [if_pos run, ownCommands_append, ownCommands_append, ownCommands_guardedRecipe]
      rcases List.mem_cons.mp member with rfl | later
      · simp [Workspace.ownCommands]
      · exact List.mem_append_right _ (ih later)
    next skip =>
      rw [if_neg skip, ownCommands_append]
      exact List.mem_append_right _ (ih member)

/-- A command of the expanded recipes belongs to a package whose guarded recipe was expanded. -/
theorem mem_ownCommands_installEach {ps : List String} {m : Memory} {op : Op}
    (member : op ∈ ownCommands (w.installEach c d ps m).1) :
    op = .other "postinstall" ∨ ∃ q ∈ emitted w c d ps m, op ∈ packageCommands w c q := by
  induction ps generalizing m with
  | nil => simp [Workspace.installEach, ownCommands] at member
  | cons q rest ih =>
    simp only [Workspace.installEach, Workspace.installXpkg, emitted] at member ⊢
    split at member
    next run =>
      rw [if_pos run]
      rw [ownCommands_append, ownCommands_append, ownCommands_guardedRecipe] at member
      rcases List.mem_append.mp member with here | later
      · exact .inr ⟨q, List.mem_cons_self, by simpa [packageCommands, ownCommands] using here⟩
      · rcases ih later with message | ⟨other, emits, inside⟩
        · exact .inl message
        · exact .inr ⟨other, List.mem_cons_of_mem _ emits, inside⟩
    next skip =>
      rw [if_neg skip]
      rw [ownCommands_append] at member
      rcases List.mem_append.mp member with here | later
      · exact .inl (by simpa [ownCommands] using here)
      · exact ih later

/-- Installing a list of packages sets the variables of the expanded ones and nothing else. -/
theorem installEach_memory (ps : List String) : (w.installEach c d ps m).2.okconfigs = m.okconfigs ∧
    (w.installEach c d ps m).2.rootfsOff = m.rootfsOff ∧ (w.installEach c d ps m).2.addonsOff = m.addonsOff ∧
    ∀ q, q ∉ ps → (w.installEach c d ps m).2.installed q = m.installed q := by
  induction ps generalizing m with
  | nil => simp [Workspace.installEach]
  | cons p rest ih =>
    simp only [Workspace.installEach, Workspace.installXpkg]
    split
    · obtain ⟨same, off, addons, kept⟩ := ih (m := { m with installed := Function.update m.installed p true })
      refine ⟨same, off, addons, fun q away => ?_⟩
      rw [kept q (fun member => away (List.mem_cons_of_mem _ member))]
      exact Function.update_of_ne (fun equal => away (by simp [equal])) _ _
    · obtain ⟨same, off, addons, kept⟩ := ih (m := m)
      exact ⟨same, off, addons, fun q away => kept q (fun member => away (List.mem_cons_of_mem _ member))⟩

/-- Clearing the installed variable decides nothing while the marker is on disk. -/
theorem pkgRunrecipe_eq_reinstalled {p : String} (honest : m.installed p = true → (d.state (w.statedir c p)).installed = true)
    (loaded : m.okconfigs = (Memory.load w r c d).okconfigs) : w.pkgRunrecipe c m d p = reinstalled w r c d p := by
  have installed : w.pkgInstalled c m d p = (d.state (w.statedir c p)).installed := by
    unfold Workspace.pkgInstalled
    cases known : m.installed p with
    | false => rfl
    | true => rw [honest known]; rfl
  simp [Workspace.pkgRunrecipe, reinstalled, installed, Workspace.pkgConfchanged, loaded]

theorem reinstalled_eq_false {p : String} : reinstalled w r c d p = false ↔
    (d.state (w.statedir c p)).installed = true ∧ w.pkgKconfigsAllV c p = (Memory.load w r c d).okconfigs p := by
  simp [reinstalled, Workspace.pkgConfchanged, strneq_eq_empty]

/-! ### The memory of the toolchain recipe -/

variable (w r c)

/-- The variables once the prerequisites are expanded. -/
def predepsMemory (d : Disk) : Memory := (w.installEach c d w.toolchainPredeps (Memory.load w r c d)).2

/-- The variables that `__embtk_toolchain_core_build` decides with. -/
def coreMemory (d : Disk) : Memory :=
  (predepsMemory w r c d).forget (toolchainDeps c ++ w.rootfsPkgs c ++ (predepsMemory w r c d).rootfsOff)

def rebuildsCore (d : Disk) : Bool := w.toolchainRunrecipe c (Memory.load w r c d) d "toolchain"

def rebuildsAddons (d : Disk) : Bool := w.toolchainRunrecipe c (Memory.load w r c d) d "toolchain_addons"

/-- The variables once the core build is expanded, if it is. -/
def afterCoreMemory (d : Disk) : Memory :=
  if rebuildsCore w r c d then (w.coreBuild c (predepsMemory w r c d) d).2 else predepsMemory w r c d

/-- The variables that `__embtk_toolchain_addons_build` decides with. -/
def addonsMemory (d : Disk) : Memory :=
  (afterCoreMemory w r c d).forget (w.addonsCleaned c (rebuildsCore w r c d) (afterCoreMemory w r c d))

variable {w r c}

theorem predepsMemory_okconfigs : (predepsMemory w r c d).okconfigs = (Memory.load w r c d).okconfigs :=
  (installEach_memory w.toolchainPredeps).1

theorem afterCoreMemory_okconfigs : (afterCoreMemory w r c d).okconfigs = (Memory.load w r c d).okconfigs := by
  unfold afterCoreMemory
  split
  · exact ((installEach_memory (toolchainDeps c)).1).trans predepsMemory_okconfigs
  · exact predepsMemory_okconfigs

theorem mem_toolchainPredeps {p : String} (member : p ∈ w.toolchainPredeps) :
    p ∈ ["ccache_host", "m4_host", "libtool_host", "autoconf_host", "automake_host", "pkgconf_host", "gsed_host", "gmake_host",
      "findutils_host"] := by
  unfold Workspace.toolchainPredeps at member
  cases w.bsd <;> cases w.macos <;> simp at member ⊢ <;> tauto

private theorem addon_known {p : String} (addon : p ∈ xtoolAddons) : p ∉ w.toolchainPredeps ∧ p ∉ toolchainDeps c := by
  have first := fun member => mem_toolchainPredeps (w := w) (p := p) member
  have second := fun member => mem_toolchainDeps (c := c) (p := p) member
  simp only [xtoolAddons, List.mem_cons, List.not_mem_nil, or_false] at addon
  rcases addon with rfl | rfl | rfl | rfl | rfl <;>
    exact ⟨fun member => absurd (first member) (by decide), fun member => absurd (second member) (by decide)⟩

theorem load_installed {p : String} (set : (Memory.load w r c d).installed p = true) : (d.state (w.statedir c p)).installed = true := by
  simp only [Memory.load, Bool.and_eq_true] at set
  exact set.2

/-- In the core build the installed variables of the toolchain packages are cleared, which leaves their markers. -/
theorem core_pkgRunrecipe {p : String} (member : p ∈ toolchainDeps c) :
    w.pkgRunrecipe c (coreMemory w r c d) d p = reinstalled w r c d p := by
  apply pkgRunrecipe_eq_reinstalled
  · simp [coreMemory, Memory.forget, member]
  · exact predepsMemory_okconfigs

theorem addons_pkgRunrecipe {p : String} (addon : p ∈ xtoolAddons) :
    w.pkgRunrecipe c (addonsMemory w r c d) d p = reinstalled w r c d p := by
  obtain ⟨notPredep, notDep⟩ := addon_known (w := w) (c := c) addon
  have untouched : (afterCoreMemory w r c d).installed p = true → (Memory.load w r c d).installed p = true := by
    have first : (predepsMemory w r c d).installed p = (Memory.load w r c d).installed p :=
      (installEach_memory w.toolchainPredeps).2.2.2 p notPredep
    unfold afterCoreMemory
    split
    · have second := (installEach_memory (w := w) (c := c) (d := d) (m := coreMemory w r c d) (toolchainDeps c)).2.2.2 p notDep
      intro set
      have kept : (coreMemory w r c d).installed p = true := by rw [← second]; exact set
      simp only [coreMemory, Memory.forget, Bool.and_eq_true] at kept
      exact first ▸ kept.1
    · exact fun set => first ▸ set
  apply pkgRunrecipe_eq_reinstalled
  · intro set
    simp only [addonsMemory, Memory.forget, Bool.and_eq_true] at set
    exact load_installed (untouched set.1)
  · exact afterCoreMemory_okconfigs

end EmbToolkit.Proofs.Emission
