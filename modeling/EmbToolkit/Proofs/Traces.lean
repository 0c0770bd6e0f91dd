import EmbToolkit.Toolchain

/-! What a recipe with nested make processes does to the toolchain. The packages that a nested process installs are
outside the toolchain, so that for tarballs, trees and toolchain records a trace is as good as the recipe's own
commands, also when it is interrupted. -/

namespace EmbToolkit.Proofs.Traces
open Script

/-- The commands of expanded lines, without what nested makes execute. -/
def ownCommands : List Line → List Op
  | [] => []
  | .command op :: rest => op :: ownCommands rest
  | .make _ :: rest => ownCommands rest

@[simp] theorem ownCommands_append (first second : List Line) : ownCommands (first ++ second) = ownCommands first ++ ownCommands second := by
  induction first with
  | nil => rfl
  | cons line rest ih => cases line <;> simp [ownCommands, ih]

@[simp] theorem ownCommands_map (ops : List Op) : ownCommands (ops.map .command) = ops := by
  induction ops with
  | nil => rfl
  | cons op rest ih => simp [ownCommands, ih]

section
variable (sub : List String → Disk → List Op)

theorem traceOf_append (first second : List Line) (d : Disk) :
    traceOf sub (first ++ second) d = traceOf sub first d ++ traceOf sub second (run (traceOf sub first d) d) := by
  induction first generalizing d with
  | nil => rfl
  | cons line rest ih => cases line <;> simp [traceOf, ih]

end

/-- The goals of the nested makes of some lines all satisfy `inside`. -/
def Goals (inside : String → Prop) (lines : List Line) : Prop := ∀ goals, Line.make goals ∈ lines → ∀ goal ∈ goals, inside goal

theorem Goals.append {inside : String → Prop} {first second : List Line} (left : Goals inside first) (right : Goals inside second) :
    Goals inside (first ++ second) := by
  intro goals member
  rcases List.mem_append.mp member with member | member
  · exact left goals member
  · exact right goals member

theorem goals_commands (inside : String → Prop) (ops : List Op) : Goals inside (ops.map .command) := by
  intro goals member
  simp at member

/-- A command of a trace is a command of the recipe or of a nested make of it. -/
theorem mem_traceOf {sub : List String → Disk → List Op} (valid : Op → Prop) {inside : String → Prop} {lines : List Line}
    (goals : Goals inside lines) (nested : ∀ goals d, (∀ goal ∈ goals, inside goal) → ∀ op ∈ sub goals d, valid op)
    (own : ∀ op ∈ ownCommands lines, valid op) (d : Disk) : ∀ op ∈ traceOf sub lines d, valid op := by
  induction lines generalizing d with
  | nil => simp [traceOf]
  | cons line rest ih =>
    have later : Goals inside rest := fun g member => goals g (List.mem_cons_of_mem _ member)
    cases line with
    | command op =>
      simp only [traceOf, List.forall_mem_cons]
      simp only [ownCommands, List.forall_mem_cons] at own
      exact ⟨own.1, ih later own.2 _⟩
    | make gs =>
      simp only [traceOf, List.forall_mem_append]
      exact ⟨nested gs d (goals gs List.mem_cons_self), ih later own _⟩

theorem mem_traceOf_own {sub : List String → Disk → List Op} {lines : List Line} {op : Op} (own : op ∈ ownCommands lines) (d : Disk) :
    op ∈ traceOf sub lines d := by
  induction lines generalizing d with
  | nil => simp [ownCommands] at own
  | cons line rest ih =>
    cases line with
    | command first =>
      simp only [ownCommands, List.mem_cons] at own
      simp only [traceOf, List.mem_cons]
      exact own.imp_right fun later => ih later _
    | make goals =>
      simp only [traceOf, List.mem_append]
      exact .inr (ih own _)

/-- The relevant commands of a trace are those of the recipe when nested makes have none. -/
theorem filter_traceOf {sub : List String → Disk → List Op} {relevant : Op → Bool} {inside : String → Prop} {lines : List Line}
    (goals : Goals inside lines) (nested : ∀ goals d, (∀ goal ∈ goals, inside goal) → (sub goals d).filter relevant = []) (d : Disk) :
    (traceOf sub lines d).filter relevant = (ownCommands lines).filter relevant := by
  induction lines generalizing d with
  | nil => rfl
  | cons line rest ih =>
    have later : Goals inside rest := fun g member => goals g (List.mem_cons_of_mem _ member)
    cases line with
    | command op => simp only [traceOf, ownCommands, List.filter_cons, ih later]
    | make gs => simp only [traceOf, ownCommands, List.filter_append, nested gs d (goals gs List.mem_cons_self), List.nil_append, ih later]

section
variable (w : Workspace) (r : Reread) (c : Config)

/-- The commands of the recipe of one package, whether it is expanded to the guarded part or not. -/
def packageCommands (p : String) : List Op := .start (w.statedir c p) p c :: w.ownCommands c p ++ [.other "postinstall"]

theorem ownCommands_guardedRecipe (p : String) :
    ownCommands (w.guardedRecipe c p) = .start (w.statedir c p) p c :: w.ownCommands c p := by
  unfold Workspace.guardedRecipe
  split <;> simp [ownCommands]

theorem mem_ownCommands_installXpkg {m : Memory} {d : Disk} {p : String} {op : Op}
    (member : op ∈ ownCommands (w.installXpkg c m d p).1) : op ∈ packageCommands w c p := by
  unfold Workspace.installXpkg at member
  split at member
  · simpa [ownCommands_guardedRecipe, ownCommands, packageCommands] using member
  · simp only [ownCommands, List.mem_singleton] at member
    simp [packageCommands, member]

/-- The commands that installing or cleaning a package consists of: on its own state directory, on the tree, and messages. -/
def PackageOp (dir : StateDir) : Op → Prop
  | .start other _ _ | .compile other _ _ | .finish other _ _ => other = dir
  | .touchInstalled other | .removeInstalled other | .truncateKconfig other | .writeKconfig other _ | .removeStateDir other => other = dir
  | .build _ _ _ | .install _ _ _ | .removeFiles _ _ | .other _ => True
  | _ => False

theorem packageOp_packageCommands {p : String} {op : Op} (member : op ∈ packageCommands w c p) : PackageOp (w.statedir c p) op := by
  simp only [packageCommands, Workspace.ownCommands, installCommands, Workspace.recordInstalled, postinstallonce, List.mem_append,
    List.mem_cons, List.not_mem_nil, or_false] at member
  rcases member with (rfl | ((((member | member) | member) | member) | member)) | rfl
  · rfl
  · rcases member with rfl | rfl | rfl | rfl | rfl <;> first | rfl | trivial
  · split at member <;> simp only [List.mem_cons, List.not_mem_nil, or_false] at member
    · rcases member with rfl | rfl <;> trivial
    · subst member; trivial
  · rcases member with rfl | rfl | rfl <;> rfl
  · split at member <;> simp only [List.mem_singleton] at member <;> subst member <;> trivial
  · rcases member with rfl | rfl <;> first | rfl | trivial
  · trivial

theorem packageOp_cleanup {p : String} {op : Op} (member : op ∈ w.cleanupPkg c p) : PackageOp (w.statedir c p) op := by
  unfold Workspace.cleanupPkg at member
  split at member <;> simp only [List.cons_append, List.nil_append, List.mem_cons, List.not_mem_nil, or_false] at member <;>
    rcases member with rfl | rfl | rfl | rfl <;> first | rfl | trivial

theorem goals_guardedRecipe {inside : String → Prop} {p : String} (closed : ∀ q ∈ w.pkgDeps c p, inside q) : Goals inside (w.guardedRecipe c p) := by
  unfold Workspace.guardedRecipe
  intro goals member
  simp only [List.mem_append, List.mem_cons, List.mem_map, reduceCtorEq, and_false, exists_false, or_false, false_or] at member
  split at member
  · cases member
  · simp only [List.mem_singleton, Line.make.injEq] at member
    exact member ▸ closed

theorem goals_installXpkg {inside : String → Prop} {p : String} (closed : ∀ q ∈ w.pkgDeps c p, inside q) (m : Memory) (d : Disk) :
    Goals inside (w.installXpkg c m d p).1 := by
  unfold Workspace.installXpkg
  split
  · exact (goals_guardedRecipe w c closed).append (goals_commands inside [.other "postinstall"])
  · exact goals_commands inside [.other "postinstall"]

/-- Every command of a make process belongs to the recipe of a package that its goals reach. -/
theorem mem_makeWithin (valid : Op → Prop) (inside : String → Prop) (closed : ∀ p, inside p → ∀ q ∈ w.pkgDeps c p, inside q)
    (own : ∀ p, inside p → ∀ op ∈ packageCommands w c p, valid op) (depth : Nat) :
    ∀ (goals : List String) (d : Disk), (∀ goal ∈ goals, inside goal) → ∀ op ∈ w.makeWithin r c depth goals d, valid op := by
  induction depth with
  | zero => simp [Workspace.makeWithin]
  | succ depth ih =>
    intro goals d reached
    unfold Workspace.makeWithin
    generalize Memory.load w r c d = m
    induction goals generalizing m d with
    | nil => simp [Workspace.updateGoals]
    | cons p rest rest_ih =>
      have here := reached p List.mem_cons_self
      have later := fun goal member => reached goal (List.mem_cons_of_mem _ member)
      unfold Workspace.updateGoals
      split
      · exact rest_ih d later m
      · simp only [List.forall_mem_append]
        refine ⟨?_, rest_ih _ later _⟩
        exact mem_traceOf valid (goals_installXpkg w c (closed p here) m d) ih
          (fun op member => own p here op (mem_ownCommands_installXpkg w c member)) d

end

/-! ### Frames -/

theorem outside_closed (w : Workspace) (c : Config) {p : String} (known : p ≠ "toolchain" ∧ p ≠ "toolchain_addons") :
    ∀ q ∈ w.pkgDeps c p, Outside q := by
  intro q member
  rw [Workspace.pkgDeps, if_neg known.1, if_neg known.2] at member
  exact w.outside c p q member

/-- What toolchain decisions and toolchain contents depend on. -/
structure Shelf where
  tarball : String → Option Tarball
  tree : String → Tree
  state : String → String → Markers

def shelf (d : Disk) : Shelf := ⟨d.tarball, d.tree, fun dir component => d.state (.toolchain dir component)⟩

section
variable {d : Disk} {s : Shelf} (same : shelf d = s)
include same

end

namespace Shelf

def mark (s : Shelf) (change : Markers → Markers) : StateDir → Shelf
  | .toolchain dir component =>
    { s with state := Function.update s.state dir (Function.update (s.state dir) component (change (s.state dir component))) }
  | _ => s

/-- A change of the tree of one target. -/
def onTree (s : Shelf) (target : String) (change : Tree → Tree) : Shelf :=
  { s with tree := Function.update s.tree target (change (s.tree target)) }

@[simp] theorem onTree_onTree (s : Shelf) (target : String) (first second : Tree → Tree) :
    (s.onTree target first).onTree target second = s.onTree target (fun tree => second (first tree)) := by
  simp [onTree]

theorem mark_mark (s : Shelf) (first second : Markers → Markers) (dir : StateDir) :
    (s.mark first dir).mark second dir = s.mark (fun m => second (first m)) dir := by
  cases dir <;> simp [mark]

theorem mark_onTree (s : Shelf) (target : String) (change : Tree → Tree) (marking : Markers → Markers) (dir : StateDir) :
    (s.onTree target change).mark marking dir = (s.mark marking dir).onTree target change := by
  cases dir <;> rfl

@[simp] theorem onTree_id (s : Shelf) (target : String) : s.onTree target (fun tree => tree) = s := by
  simp [onTree]

end Shelf

/-- The effect of a command on the toolchain alone. -/
def onShelf : Op → Shelf → Shelf
  | .touchInstalled dir, s => s.mark (fun m => { m with installed := true }) dir
  | .removeInstalled dir, s => s.mark (fun m => { m with installed := false }) dir
  | .truncateKconfig dir, s => s.mark (fun m => { m with kconfig := "" }) dir
  | .writeKconfig dir text, s => s.mark (fun m => { m with kconfig := text }) dir
  | .touchDecompressed dir, s => s.mark (fun m => { m with decompressed := true }) dir
  | .removeDecompressed dir, s => s.mark (fun m => { m with decompressed := false }) dir
  | .removeStateDir dir, s => s.mark (fun _ => {}) dir
  | .breakTree target, s => s.onTree target Tree.broken
  | .removeTree target, s => s.onTree target fun _ _ => none
  | .startUnpack dir, s => match s.tarball dir with
    | some tarball => s.onTree tarball.target tarball.tree.broken.over
    | none => s
  | .unpack dir, s => match s.tarball dir with
    | some tarball => s.onTree tarball.target tarball.tree.over
    | none => s
  | .pack dir target, s => { s with tarball := Function.update s.tarball dir (some ⟨target, s.tree target⟩) }
  | .build target pkg config, s => s.onTree target fun tree => Function.update tree pkg (some ⟨config, false⟩)
  | .install target pkg config, s => s.onTree target fun tree => Function.update tree pkg (some ⟨config, true⟩)
  | .removeFiles target pkg, s => s.onTree target fun tree => Function.update tree pkg none
  | .breakTrees stem, s => { s with tree := fun target => if MakeText.hasPrefix stem target then (s.tree target).broken else s.tree target }
  | .removeTrees stem, s => { s with tree := fun target => if MakeText.hasPrefix stem target then fun _ => none else s.tree target }
  | .start _ _ _, s | .compile _ _ _, s | .finish _ _ _, s | .removeBuild, s | .other _, s => s

theorem shelf_setMarkers (d : Disk) (change : Markers → Markers) (dir : StateDir) :
    shelf (d.setMarkers dir change) = (shelf d).mark change dir := by
  cases dir with
  | toolchain top component =>
    simp only [shelf, Disk.setMarkers, Shelf.mark, Shelf.mk.injEq, true_and]
    funext other name
    by_cases sameDir : other = top
    · subst sameDir
      by_cases sameName : name = component
      · subst sameName; simp
      · simp [sameName]
    · simp [sameDir]
  | packages | tools | source => simp [shelf, Disk.setMarkers, Shelf.mark]

theorem shelf_apply (op : Op) (d : Disk) : shelf (op.apply d) = onShelf op (shelf d) := by
  cases op with
  | touchInstalled | removeInstalled | truncateKconfig | writeKconfig | touchDecompressed | removeDecompressed | removeStateDir =>
    exact shelf_setMarkers d _ _
  | startUnpack dir | unpack dir =>
    cases found : d.tarball dir <;> simp [Op.apply, onShelf, shelf, found, Disk.setTree, Shelf.onTree]
  | breakTree | removeTree | build | install | removeFiles | pack | start | compile | finish | breakTrees | removeTrees | removeBuild
  | other => rfl

theorem shelf_run (ops : List Op) (d : Disk) : shelf (run ops d) = Script.run onShelf ops (shelf d) :=
  run_view Op.apply shelf shelf_apply ops d

section
variable (w : Workspace) (r : Reread) (c : Config)

/-- Only the two components keep their records in the toolchain directory. -/
theorem mark_statedir {p : String} (known : p ≠ "toolchain" ∧ p ≠ "toolchain_addons") (s : Shelf) (change : Markers → Markers) :
    s.mark change (w.statedir c p) = s := by
  unfold Workspace.statedir
  rw [if_neg (by simp [known])]
  cases w.area c p <;> rfl

/-- A package outside the toolchain leaves the toolchain alone. -/
theorem shelf_outside {p : String} (outside : Outside p) {op : Op} (member : op ∈ packageCommands w c p) (s : Shelf) :
    onShelf op s = s := by
  have notServer : p ≠ "gdbserver" := fun same => outside.1 (by simp [same, treePackages])
  simp only [packageCommands, Workspace.ownCommands, installCommands, outside.1, if_false, Workspace.recordInstalled, postinstallonce,
    notServer, false_and, List.cons_append, List.nil_append, List.mem_cons, List.not_mem_nil, or_false] at member
  rcases member with rfl | rfl | rfl | rfl | rfl | rfl | rfl | rfl | rfl | rfl | rfl | rfl | rfl | rfl
  all_goals first | rfl | simp only [onShelf, mark_statedir w c outside.2]

theorem shelf_make {goals : List String} (outside : ∀ goal ∈ goals, Outside goal) (d : Disk) (s : Shelf) :
    Script.run onShelf (w.make r c goals d) s = s :=
  run_keeps onShelf id (mem_makeWithin w r c (fun op => ∀ s, onShelf op s = s) Outside (fun _ here => outside_closed w c here.2)
    (fun _ here _ member s => shelf_outside w c here member s) _ goals d outside) s

/-- What a trace leaves of the toolchain is what the recipe's own commands leave of it. -/
theorem shelf_traceOf {lines : List Line} (outside : Goals Outside lines) (d : Disk) (s : Shelf) :
    Script.run onShelf (traceOf (w.make r c) lines d) s = Script.run onShelf (ownCommands lines) s := by
  induction lines generalizing d s with
  | nil => rfl
  | cons line rest ih =>
    have later : Goals Outside rest := fun goals member => outside goals (List.mem_cons_of_mem _ member)
    cases line with
    | command op => exact ih later (op.apply d) _
    | make goals =>
      simp only [traceOf, run_append, ownCommands]
      rw [shelf_make w r c (outside goals List.mem_cons_self) d s]
      exact ih later _ s

theorem goals_installEach (ps : List String) (known : ∀ p ∈ ps, p ≠ "toolchain" ∧ p ≠ "toolchain_addons") (m : Memory) (d : Disk) :
    Goals Outside (w.installEach c d ps m).1 := by
  induction ps generalizing m with
  | nil => intro goals member; simp [Workspace.installEach] at member
  | cons p rest ih =>
    unfold Workspace.installEach
    exact (goals_installXpkg w c (outside_closed w c (known p List.mem_cons_self)) m d).append
      (ih (fun q member => known q (List.mem_cons_of_mem _ member)) _)

end

/-! ### The packages of the toolchain recipe -/

theorem mem_toolchainDeps {c : Config} {p : String} (member : p ∈ toolchainDeps c) :
    p ∈ xtoolDeps ++ ["linux_headers", "binutils", "llvm_host", "gcc1", "uclibc_headers", "gcc2", "eglibc", "glibc", "musl", "uclibc",
      "invalid-clib", "gcc3", "compiler-rt"] := by
  have clib := embtkClib_cases c
  simp only [toolchainDeps, xtoolGcc3, xtoolCompilerRt, List.mem_append, List.mem_filter] at member
  rcases member with ((((((⟨member, -⟩ | member) | member) | member) | member) | member) | member) | member
  · exact List.mem_append_left _ member
  all_goals apply List.mem_append_right
  · simp only [List.mem_cons, List.not_mem_nil, or_false] at member ⊢
    tauto
  · split at member <;> simp_all
  · simp_all
  · split at member
    next yes => rw [embtkClib_uclibc yes] at member; simp at member ⊢; tauto
    next => simp at member
  · simp only [List.mem_cons, List.not_mem_nil, or_false] at member clib
    rcases clib with same | same | same | same | same <;> simp [member, same]
  · split at member <;> simp_all
  · split at member
    · simp at member
    · split at member
      · simp at member
      · split at member <;> simp_all

end EmbToolkit.Proofs.Traces
