import EmbToolkit.Proofs.Interrupted

/-! What a make process for packages does with one package: it runs the guarded recipe of it some number of times,
possibly inside nested processes, and touches its state files nowhere else. -/

namespace EmbToolkit.Proofs.Recipes
open Script Traces Interrupted
variable {w : Workspace} {r : Reread} {c : Config} {p : String}

/-- A package that `%_install` installs, and not a part of the toolchain with a rule of its own. -/
def IsPackage (p : String) : Prop := p ≠ "toolchain" ∧ p ≠ "toolchain_addons"

/-! ### State directories -/

theorem statedir_inj {other : Config} {q : String} (known : IsPackage p) (same : w.statedir c q = w.statedir other p) : q = p := by
  by_cases component : q = "toolchain" ∨ q = "toolchain_addons"
  · have apart := statedir_ne_record (w := w) (c := other) known (toolchainDir c) q
    rw [← same, Workspace.statedir, if_pos component] at apart
    exact absurd rfl apart
  · unfold Workspace.statedir at same
    rw [if_neg component, if_neg (by simpa [IsPackage] using known)] at same
    cases first : w.area c q <;> cases second : w.area other p <;> simp_all

/-- Whether the command touches the state files of the directory, or begins or ends a guarded recipe there. -/
def relevant (dir : StateDir) (op : Op) : Bool :=
  concerns dir op || match op with
    | .start other _ _ => other = dir
    | .finish other _ _ => other = dir
    | _ => false

theorem package_irrelevant {dir other : StateDir} {op : Op} (package : PackageOp other op) (apart : other ≠ dir) : relevant dir op = false := by
  cases op with
  | touchInstalled here | removeInstalled here | truncateKconfig here | writeKconfig here | removeStateDir here | start here | finish here =>
    obtain rfl : here = other := package
    simp [relevant, concerns, apart]
  | compile | build | install | removeFiles | other => rfl
  | _ => exact package.elim

variable (w r c p)

/-- What one run of the guarded recipe does with the state files of its package. -/
def cycle : List Op :=
  [.start (w.statedir c p) p c, .touchInstalled (w.statedir c p), .truncateKconfig (w.statedir c p),
    .writeKconfig (w.statedir c p) (w.pkgKconfigsAllV c p), .finish (w.statedir c p) p c]

/-- The commands do nothing with the state files of the package but run its guarded recipe some number of times. -/
def Cycles (ops : List Op) : Prop := ∃ count, ops.filter (relevant (w.statedir c p)) = (List.replicate count (cycle w c p)).flatten

/-- One run of the guarded recipe to its end, with what nested makes executed for it. -/
def Recipe (ops : List Op) : Prop := ∃ depth d, ops = traceOf (w.makeWithin r c depth) (w.guardedRecipe c p) d

/-- The first of the guarded recipes of the package in the commands. -/
def FirstRecipe (ops : List Op) : Prop :=
  ∃ earlier recipe later, ops = earlier ++ (recipe ++ .finish (w.statedir c p) p c :: later) ∧
    Recipe w r c p (recipe ++ [.finish (w.statedir c p) p c]) ∧ .finish (w.statedir c p) p c ∉ earlier ++ recipe

variable {w r c p}

theorem Cycles.none {ops : List Op} (irrelevant : ops.filter (relevant (w.statedir c p)) = []) : Cycles w c p ops := ⟨0, irrelevant⟩

theorem Cycles.append {first second : List Op} : Cycles w c p first → Cycles w c p second → Cycles w c p (first ++ second) := by
  rintro ⟨m, left⟩ ⟨n, right⟩
  exact ⟨m + n, by rw [List.filter_append, left, right, List.replicate_add, List.flatten_append]⟩

theorem FirstRecipe.front {first second : List Op} : FirstRecipe w r c p first → FirstRecipe w r c p (first ++ second) := by
  rintro ⟨earlier, recipe, later, rfl, complete, once⟩
  exact ⟨earlier, recipe, later ++ second, by simp, complete, once⟩

theorem FirstRecipe.back {first second : List Op} (quiet : .finish (w.statedir c p) p c ∉ first) :
    FirstRecipe w r c p second → FirstRecipe w r c p (first ++ second) := by
  rintro ⟨earlier, recipe, later, rfl, complete, once⟩
  refine ⟨first ++ earlier, recipe, later, by simp, complete, ?_⟩
  simpa [quiet] using once

/-- Where each part of a sequence holds its own first recipe if it has one, so does the whole. -/
theorem FirstRecipe.append {first second : List Op} (left : .finish (w.statedir c p) p c ∈ first → FirstRecipe w r c p first)
    (right : .finish (w.statedir c p) p c ∈ second → FirstRecipe w r c p second) (found : .finish (w.statedir c p) p c ∈ first ++ second) :
    FirstRecipe w r c p (first ++ second) := by
  by_cases early : Op.finish (w.statedir c p) p c ∈ first
  · exact (left early).front
  · exact (right ((List.mem_append.mp found).resolve_left early)).back early

/-! ### The recipe of the package itself -/

theorem filter_installCommands (dir : StateDir) : (installCommands c p).filter (relevant dir) = [] := by
  unfold installCommands
  split <;> rfl

theorem filter_postinstallonce (dir : StateDir) : (postinstallonce c p).filter (relevant dir) = [] := by
  unfold postinstallonce
  split <;> rfl

theorem filter_own : (Op.start (w.statedir c p) p c :: w.ownCommands c p).filter (relevant (w.statedir c p)) = cycle w c p := by
  simp only [Workspace.ownCommands, ← List.cons_append, List.filter_append, filter_installCommands, filter_postinstallonce]
  simp [relevant, concerns, Workspace.recordInstalled, cycle]

/-- The packages that a package is built after. -/
def Below (w : Workspace) (c : Config) (p q : String) : Prop := IsPackage q ∧ w.rank c q < w.rank c p

theorem below_deps (known : IsPackage p) : ∀ q ∈ w.pkgDeps c p, Below w c p q := by
  intro q member
  rw [Workspace.pkgDeps, if_neg known.1, if_neg known.2] at member
  exact ⟨(w.outside c p q member).2, w.lower c p q member⟩

theorem below_closed {q : String} (below : Below w c p q) : ∀ dep ∈ w.pkgDeps c q, Below w c p dep :=
  fun dep member => (below_deps below.1 dep member).imp_right fun lower => lower.trans below.2

/-- No dependency leads back to the package. -/
theorem filter_below (known : IsPackage p) (depth : Nat) (goals : List String) (d : Disk) (below : ∀ goal ∈ goals, Below w c p goal) :
    (w.makeWithin r c depth goals d).filter (relevant (w.statedir c p)) = [] := by
  rw [List.filter_eq_nil_iff]
  refine mem_makeWithin w r c _ (Below w c p) (fun q here => below_closed here) (fun q here op member => ?_) depth goals d below
  have other : q ≠ p := by rintro rfl; exact lt_irrefl _ here.2
  rw [package_irrelevant (packageOp_packageCommands w c member) fun same => other (statedir_inj known same)]
  simp

theorem filter_recipe (known : IsPackage p) (depth : Nat) (d : Disk) :
    (traceOf (w.makeWithin r c depth) (w.guardedRecipe c p) d).filter (relevant (w.statedir c p)) = cycle w c p := by
  rw [filter_traceOf (goals_guardedRecipe w c (below_deps known)) (fun goals d inside => filter_below known depth goals d inside), ownCommands_guardedRecipe, filter_own]

/-! ### Make processes -/

/-- The guarded recipe ends with its last command. -/
theorem recipe_ends (known : IsPackage p) (depth : Nat) (d : Disk) :
    ∃ recipe, traceOf (w.makeWithin r c depth) (w.guardedRecipe c p) d = recipe ++ [.finish (w.statedir c p) p c] ∧
      .finish (w.statedir c p) p c ∉ recipe := by
  obtain ⟨front, shape⟩ : ∃ front, w.guardedRecipe c p = front ++ [.command (.finish (w.statedir c p) p c)] :=
    ⟨_, by rw [Workspace.guardedRecipe, Workspace.ownCommands, List.map_append, ← List.append_assoc, List.map_cons, List.map_singleton,
      List.append_cons]⟩
  have whole := filter_recipe (w := w) (r := r) (c := c) known depth d
  rw [shape, traceOf_append] at whole ⊢
  refine ⟨_, rfl, fun member => ?_⟩
  have last : (traceOf (w.makeWithin r c depth) [.command (.finish (w.statedir c p) p c)]
      (run (traceOf (w.makeWithin r c depth) front d) d)).filter (relevant (w.statedir c p)) = [.finish (w.statedir c p) p c] := by
    simp [traceOf, relevant]
  rw [List.filter_append, last] at whole
  change _ = [Op.start (w.statedir c p) p c, .touchInstalled (w.statedir c p), .truncateKconfig (w.statedir c p),
    .writeKconfig (w.statedir c p) (w.pkgKconfigsAllV c p)] ++ [Op.finish (w.statedir c p) p c] at whole
  have early := List.mem_filter.mpr ⟨member, (by simp [relevant] : relevant (w.statedir c p) (.finish (w.statedir c p) p c) = true)⟩
  rw [(List.append_inj' whole rfl).1] at early
  simp at early

/-- What make reads of a recorded list: nothing for a package that no macro includes or that is not enabled. -/
def reads (w : Workspace) (r : Reread) (c : Config) (p text : String) : String :=
  if (w.loads p && w.enabled c p) = true then r.back text else ""

/-- State files for which the guarded recipe does not run. -/
def Skips (w : Workspace) (r : Reread) (c : Config) (p : String) (m : Markers) : Prop :=
  m.installed = true ∧ reads w r c p m.kconfig = w.pkgKconfigsAllV c p

end EmbToolkit.Proofs.Recipes
