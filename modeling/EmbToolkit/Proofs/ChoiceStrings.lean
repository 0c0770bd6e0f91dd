import EmbToolkit.Menus.Packages

/-! The strings that the choices spell. Every component is followed from the symbol that enables it through its choice
to the member that is set, and from there to the default line of its string. -/

namespace EmbToolkit.Proofs.ChoiceStrings
open Menu Menus

/-- The string of the component is there, and it is the one that its default lines give to the member that is set. -/
def Named (k : Component) (v : Values Symbol) : Prop :=
  ∃ m ∈ k.spelling.leaves, v.on m.name = true ∧ (∀ n ∈ k.spelling.leaves, v.on n.name = true → n.name = m.name) ∧
    tree.spelled k.spelling m = some (v.text k.spelling.name) ∧ v.text k.spelling.name ≠ ""

/-- Members that no default line names. -/
def unnamed : List Symbol := [.armCore .cortex12, .version .binutils "GIT", .version .clang_host_llvm_host "3_3"]

/-- What can be set without `EMBTK_HAVE_ROOTFS`. -/
def unrooted : List Symbol := ({ blocks := targetBlocks } : Menu.Tree Symbol).bools.map Entry.name

/-- Wherever the expression holds, `EMBTK_HAVE_ROOTFS` is set. -/
def rooted : Expr Symbol → Bool
  | .symbol name => name ∉ unrooted && tree.bools.any fun e => e.name = name
  | .or a b => rooted a && rooted b
  | _ => false

/-- The component's symbol brings the dependency of its choice along. -/
def brings (enabled d : Expr Symbol) : Bool :=
  d = enabled || (d = rootfs && rooted enabled) || match enabled, d with
    | .symbol name, .symbol r => tree.implies r 1 name
    | _, _ => false

/-- Components with a symbol that holds wherever they are enabled, and for which a member of their choice waits. -/
def awaited : List (Expr Symbol × Expr Symbol) :=
  [(Symbol.has .bb, Symbol.version .bb "1_20_X"), (Symbol.has .atk, Symbol.version .atk "1_30_X")]

/-! ### What the tree says -/

/-- The tables are as the proofs below take them. -/
private class Checked : Prop where
  settled : (components.all fun k => tree.settled k.spelling 4) = true
  named_by_default :
    (components.all fun k => k.spelling.leaves.all fun m => (tree.spelled k.spelling m).getD "" ≠ "" || m.name ∈ unnamed) = true
  shaped :
    (components.all fun k => (k.spelling.strings.any fun e => e.name = k.spelling.name) && k.spelling.outer.depends.all (brings k.enabled) &&
        k.spelling.outer.members.any fun m => m.depends.all fun d => (k.enabled, d) ∈ awaited) = true
  confined : tree.confined Setting.rootfs [.has .ltrace, .hostHas .mtdutils] unrooted = true ∧
      tree.implies Setting.rootfs 2 (.hostHas .mtdutils) = true
  atk_lines : (∀ e ∈ [atk1_30, atk1_28, atkAll], (tree.bools.filter fun b => b.name = e.name) = [e]) ∧
      tree.refutes [] [] 1 (.version .atk "1_32_X_AND_GREATER") = true
  /-- Each unnamed member is one of a choice that can only be seen where its component is enabled. -/
  unnamed_members : (unnamed.all fun name => components.any fun k => k.spelling.leaves.any fun m =>
      m.name = name && k.enabled ∈ m.depends && (tree.spelled k.spelling m).getD "" = "") = true
  libelf_lines :
    (components.any fun k => k.spelling.name = .versionString .libelf && k.enabled = Symbol.has .libelf) = true ∧
      (tree.strings.all fun e => e.name ≠ .versionString .libelf ||
        e.defaults.all fun d => d.2 = Symbol.version .libelf "0_8_13") = true ∧
      (components.any fun k => k.spelling.leaves.any fun m => m.name = .version .libelf "0_8_13" &&
        (Setting.rootfs : Symbol) ∈ m.needs && Symbol.has .libelf ∈ m.needs) = true
  ltrace_lines : (tree.bools.any fun e => e.name = .has .libelf) = true ∧
      (tree.bools.any fun e => e.name = .has .ltrace && e.selects = [(.has .libelf, .yes)] &&
        e.depends.all fun d => d ∈ [(Setting.osLinux : Expr Symbol), (Setting.archArm : Expr Symbol)]) = true ∧
      tree.implies Setting.osLinux 1 (.has .ltrace) = true ∧ tree.implies Setting.archArm 1 (.has .ltrace) = true
  awaited_rooted : (awaited.all fun pair => rooted pair.1) = true

private instance checked : Checked where
  settled := by decide +kernel
  named_by_default := by decide +kernel
  shaped := by decide +kernel
  confined := by decide +kernel
  atk_lines := by decide +kernel
  unnamed_members := by decide +kernel
  libelf_lines := by decide +kernel
  ltrace_lines := by decide +kernel
  awaited_rooted := by decide +kernel

variable {v : Values Symbol} {k : Component}

theorem blocks_known (member : k ∈ components) : ∀ b ∈ k.spelling.blocks, b ∈ tree.blocks :=
  fun _ inside => List.mem_append_right _ (List.mem_flatMap.mpr ⟨k, member, inside⟩)

theorem component_settled (member : k ∈ components) : tree.settled k.spelling 4 = true := List.all_eq_true.mp checked.settled k member

theorem string_declared (member : k ∈ components) : ∃ e ∈ tree.strings, e.name = k.spelling.name := by
  have here := List.all_eq_true.mp checked.shaped k member
  simp only [Bool.and_eq_true] at here
  obtain ⟨e, inside, same⟩ := List.any_eq_true.mp here.1.1
  have block : Block.string e ∈ k.spelling.blocks := List.mem_append_right _ (List.mem_map_of_mem inside)
  exact ⟨e, List.mem_filterMap.mpr ⟨_, blocks_known member _ block, rfl⟩, by simpa using same⟩

/-! ### From the symbol to the choice -/

/-- `ltrace` selects `libelf`, which is declared under `EMBTK_HAVE_ROOTFS`. -/
theorem rooted_sound (admitted : tree.Admits v) (traced : v.on (.has .ltrace) = true → v.on Setting.rootfs = true) {e : Expr Symbol}
    (needed : rooted e = true) (holds : e.holds v = true) : v.on Setting.rootfs = true := by
  induction e with
  | symbol name =>
    simp only [rooted, Bool.and_eq_true, decide_eq_true_eq] at needed
    obtain ⟨outside, declared⟩ := needed
    refine Tree.confined_sound admitted checked.confined.1 ?_ (by simpa using declared) outside holds
    intro other known set
    rcases List.mem_cons.mp known with rfl | known
    · exact traced set
    · rw [List.mem_singleton.mp known] at set
      exact Tree.implies_sound admitted 2 checked.confined.2 set
  | or a b first second =>
    simp only [rooted, Bool.and_eq_true] at needed
    simp only [Expr.holds, Bool.or_eq_true] at holds
    exact holds.elim (first needed.1) (second needed.2)
  | yes => simp [rooted] at needed
  | equals => simp [rooted] at needed
  | not => simp [rooted] at needed
  | and => simp [rooted] at needed

theorem brings_sound (admitted : tree.Admits v) (traced : v.on (.has .ltrace) = true → v.on Setting.rootfs = true) {enabled d : Expr Symbol}
    (brought : brings enabled d = true) (holds : enabled.holds v = true) : d.holds v = true := by
  simp only [brings, Bool.or_eq_true, Bool.and_eq_true, decide_eq_true_eq] at brought
  rcases brought with (rfl | ⟨rfl, needed⟩) | implied
  · exact holds
  · exact rooted_sound admitted traced needed holds
  · split at implied
    next name r => exact Tree.implies_sound admitted 1 implied holds
    next => simp at implied

theorem choice_met (admitted : tree.Admits v) (traced : v.on (.has .ltrace) = true → v.on Setting.rootfs = true) (member : k ∈ components)
    (enabled : k.enabled.holds v = true) : k.spelling.outer.met v = true := by
  have here := List.all_eq_true.mp checked.shaped k member
  simp only [Bool.and_eq_true] at here
  refine List.all_eq_true.mpr fun d listed => ?_
  exact brings_sound admitted traced (List.all_eq_true.mp here.1.2 d listed) enabled

/-! ### From the choice to the member -/

private theorem atk_released (admitted : tree.Admits v) (root : v.on Setting.rootfs = true) : v.on (.version .atk "1_30_X") = true := by
  have met : ∀ e ∈ [atk1_30, atk1_28, atkAll], e.met v = true := by
    simp [Entry.met, atk1_30, atk1_28, atkAll, rootfs, Expr.holds, root]
  have declared : ∀ e ∈ [atk1_30, atk1_28, atkAll], e ∈ tree.bools :=
    fun e listed => (List.mem_filter.mp ((checked.atk_lines.1 e listed) ▸ List.mem_singleton_self e)).1
  have selecting : ∀ e ∈ [atk1_30, atk1_28, atkAll], e ∈ tree.selectors := fun e listed => List.mem_append_left _ (declared e listed)
  have from28 : v.on (.version .atk "1_28_X") = true → v.on (.version .atk "1_30_X") = true := fun on =>
    Tree.select_on admitted (selecting atk1_28 (by simp)) on (met _ (by simp)) (by simp [atk1_28]) ⟨atk1_30, declared _ (by simp), rfl⟩
  by_cases newer : v.on (.version .atk "1_30_X_AND_GREATER") = true
  · exact Tree.default_on admitted (checked.atk_lines.1 atk1_30 (by simp)) rfl (met _ (by simp)) rfl newer
  · refine from28 ?_
    by_cases new : v.on (.version .atk "1_28_X_AND_GREATER") = true
    · exact Tree.default_on admitted (checked.atk_lines.1 atk1_28 (by simp)) rfl (met _ (by simp)) rfl new
    · have newest : v.on (.version .atk "1_32_X_AND_GREATER") = false :=
        Tree.refutes_sound admitted (by simp) (by simp) 1 checked.atk_lines.2
      have all : v.on (.version .atk "ALL") = true :=
        Tree.default_on admitted (checked.atk_lines.1 atkAll (by simp)) rfl (met _ (by simp)) rfl (by simp [Expr.holds, newest, newer, new])
      exact Tree.select_on admitted (selecting atkAll (by simp)) all (met _ (by simp)) (by simp [atkAll])
        ⟨atk1_28, declared _ (by simp), rfl⟩

private theorem busybox_released (admitted : tree.Admits v) (root : v.on Setting.rootfs = true) (on : v.on (.has .bb) = true) :
    v.on (.version .bb "1_20_X") = true := by
  have known : busyboxSeries ∈ tree.choices := by
    refine List.mem_filterMap.mpr ⟨.choice busyboxSeries, ?_, rfl⟩
    simp [tree, packageBlocks, busyboxBlocks]
  obtain ⟨m, inside, set⟩ := admitted.chosen busyboxSeries known ⟨_, List.mem_map_of_mem List.mem_cons_self, by
    simp [Entry.met, Entry.under, busyboxSeries, member, rootfs, Expr.holds, root, on]⟩
  obtain rfl : m = (member (.version .bb "1_20_X")).under busyboxSeries.depends := List.mem_singleton.mp inside
  exact set

/-- The choice of an enabled component has a member to see. -/
theorem member_met (admitted : tree.Admits v) (traced : v.on (.has .ltrace) = true → v.on Setting.rootfs = true) (listed : k ∈ components)
    (enabled : k.enabled.holds v = true) : ∃ m ∈ k.spelling.outer.entries, m.met v = true := by
  have here := List.all_eq_true.mp checked.shaped k listed
  simp only [Bool.and_eq_true] at here
  obtain ⟨m, inside, ready⟩ := List.any_eq_true.mp here.2
  refine ⟨_, List.mem_map_of_mem inside, ?_⟩
  rw [Entry.met, Entry.under, List.all_append, Bool.and_eq_true]
  refine ⟨choice_met admitted traced listed enabled, List.all_eq_true.mpr fun d waits => ?_⟩
  have pair : (k.enabled, d) ∈ awaited := by simpa using List.all_eq_true.mp ready d waits
  have root := rooted_sound admitted traced (List.all_eq_true.mp checked.awaited_rooted _ pair) enabled
  simp only [awaited, List.mem_cons, Prod.mk.injEq, List.not_mem_nil, or_false] at pair
  rcases pair with ⟨same, rfl⟩ | ⟨-, rfl⟩
  · rw [same] at enabled
    exact busybox_released admitted root enabled
  · exact atk_released admitted root

/-! ### From the member to the string -/

/-- The text of a component with a member set. -/
theorem leaf_text (admitted : tree.Admits v) (listed : k ∈ components) {m : Entry Symbol} (leaf : m ∈ k.spelling.leaves)
    (on : v.on m.name = true) :
    (∀ n ∈ k.spelling.leaves, v.on n.name = true → n.name = m.name) ∧ v.text k.spelling.name = (tree.spelled k.spelling m).getD "" := by
  obtain ⟨alone, default⟩ := Tree.leaf_spells admitted (blocks_known listed) (component_settled listed) leaf on
  obtain ⟨e, declared, same⟩ := string_declared listed
  refine ⟨alone, ?_⟩
  rw [← same, admitted.text e declared, same, default]

theorem named_of_spelled (admitted : tree.Admits v) (listed : k ∈ components) {m : Entry Symbol} (leaf : m ∈ k.spelling.leaves)
    (on : v.on m.name = true) (spelled : (tree.spelled k.spelling m).getD "" ≠ "") : Named k v := by
  obtain ⟨alone, text⟩ := leaf_text admitted listed leaf on
  refine ⟨m, leaf, on, alone, ?_, text ▸ spelled⟩
  rw [text]
  cases found : tree.spelled k.spelling m with
  | none => simp [found] at spelled
  | some value => rfl

/-- An enabled component is named where the members that no default line names are not set. -/
theorem named_of_enabled (admitted : tree.Admits v) (traced : v.on (.has .ltrace) = true → v.on Setting.rootfs = true)
    (avoided : ∀ m ∈ k.spelling.leaves, m.name ∈ unnamed → v.on m.name = false) (listed : k ∈ components) (enabled : k.enabled.holds v = true) : Named k v := by
  have settled := component_settled listed
  simp only [Tree.settled, Bool.and_eq_true] at settled
  obtain ⟨m, leaf, on⟩ := Tree.leaf_chosen admitted (blocks_known listed) settled.1.1 (member_met admitted traced listed enabled)
  refine named_of_spelled admitted listed leaf on ?_
  have line := List.all_eq_true.mp (List.all_eq_true.mp checked.named_by_default k listed) m leaf
  simp only [Bool.or_eq_true, decide_eq_true_eq] at line
  refine line.resolve_right fun missing => ?_
  rw [avoided m leaf missing] at on
  exact absurd on (by simp)

theorem not_named_of_leaf (admitted : tree.Admits v) (listed : k ∈ components) {m : Entry Symbol} (leaf : m ∈ k.spelling.leaves)
    (on : v.on m.name = true) (missing : (tree.spelled k.spelling m).getD "" = "") : ¬ Named k v := by
  rintro ⟨-, -, -, -, -, filled⟩
  rw [(leaf_text admitted listed leaf on).2] at filled
  exact filled missing

/-- `libelf` has a version only beside the symbol and the root filesystem. -/
theorem libelf_version (admitted : tree.Admits v) (filled : v.text (.versionString .libelf) ≠ "") :
    v.on (.has .libelf) = true ∧ v.on Setting.rootfs = true := by
  obtain ⟨component, lines, members⟩ := checked.libelf_lines
  obtain ⟨k, listed, here⟩ := List.any_eq_true.mp component
  simp only [Bool.and_eq_true, decide_eq_true_eq] at here
  obtain ⟨e, string, same⟩ := string_declared listed
  rw [← here.1, ← same, admitted.text e string, same, here.1] at filled
  cases found : Tree.defaultIn (Expr.holds v) tree.strings (.versionString .libelf) with
  | none => simp [found] at filled
  | some value =>
    obtain ⟨b, inside, named, -, d, line, holds, -⟩ := Tree.mem_defaultIn found
    have release : d.2 = Symbol.version .libelf "0_8_13" := by
      have each := List.all_eq_true.mp lines b inside
      simp only [named, ne_eq, not_true_eq_false, decide_false, Bool.false_or] at each
      simpa using List.all_eq_true.mp each d line
    rw [release] at holds
    obtain ⟨other, known, here⟩ := List.any_eq_true.mp members
    obtain ⟨m, leaf, here⟩ := List.any_eq_true.mp here
    simp only [Bool.and_eq_true, decide_eq_true_eq] at here
    obtain ⟨c, choice, inside⟩ := Tree.leaf_choice leaf
    have met := admitted.visible c (Spelling.known (blocks_known known) c choice) m inside (here.1.1 ▸ holds)
    exact ⟨Entry.needs_on met _ here.2, Entry.needs_on met _ here.1.2⟩

theorem ltrace_selects (admitted : tree.Admits v) (traced : v.on (.has .ltrace) = true) : v.on (.has .libelf) = true := by
  obtain ⟨declared, block, os, cpu⟩ := checked.ltrace_lines
  obtain ⟨e, member, same⟩ := List.any_eq_true.mp block
  simp only [Bool.and_eq_true, decide_eq_true_eq] at same
  refine Tree.select_on admitted (List.mem_append_left _ member) (same.1.1 ▸ traced) ?_ (same.1.2 ▸ List.mem_singleton_self _)
    (by simpa using declared)
  refine List.all_eq_true.mpr fun d waits => ?_
  have either : d = Setting.osLinux ∨ d = Setting.archArm := by simpa using List.all_eq_true.mp same.2 d waits
  rcases either with rfl | rfl
  · exact Tree.implies_sound admitted 1 os traced
  · exact Tree.implies_sound admitted 1 cpu traced

/-- `ltrace` brings `libelf` without the version that `libelf` has under `EMBTK_HAVE_ROOTFS`. -/
private theorem libelf_unnamed (admitted : tree.Admits v) (traced : v.on (.has .ltrace) = true) (bare : v.on Setting.rootfs = false) :
    ∃ k ∈ components, k.enabled.holds v = true ∧ ¬ Named k v := by
  obtain ⟨k, listed, here⟩ := List.any_eq_true.mp checked.libelf_lines.1
  simp only [Bool.and_eq_true, decide_eq_true_eq] at here
  refine ⟨k, listed, here.2 ▸ ltrace_selects admitted traced, fun ⟨_, _, _, _, _, filled⟩ => ?_⟩
  rw [(libelf_version admitted (here.1 ▸ filled)).2] at bare
  exact absurd bare (by simp)

/-- The configurations whose enabled components are all named. -/
theorem all_named_iff (admitted : tree.Admits v) : (∀ k ∈ components, k.enabled.holds v = true → Named k v) ↔
    (∀ name ∈ unnamed, v.on name = false) ∧ (v.on (.has .ltrace) = true → v.on Setting.rootfs = true) := by
  constructor
  · intro named
    constructor
    · intro name member
      refine Bool.eq_false_iff.mpr fun on => ?_
      obtain ⟨k, listed, here⟩ := List.any_eq_true.mp (List.all_eq_true.mp checked.unnamed_members name member)
      obtain ⟨m, leaf, here⟩ := List.any_eq_true.mp here
      simp only [Bool.and_eq_true, decide_eq_true_eq] at here
      obtain ⟨⟨rfl, waits⟩, missing⟩ := here
      obtain ⟨c, choice, inside⟩ := Tree.leaf_choice leaf
      have met := admitted.visible c (Spelling.known (blocks_known listed) c choice) m inside on
      exact not_named_of_leaf admitted listed leaf on missing (named k listed (List.all_eq_true.mp met _ waits))
    · intro traced
      refine Bool.eq_true_of_not_eq_false fun bare => ?_
      obtain ⟨k, listed, enabled, unnamed⟩ := libelf_unnamed admitted traced bare
      exact unnamed (named k listed enabled)
  · rintro ⟨avoided, traced⟩ k listed enabled
    exact named_of_enabled admitted traced (fun m _ missing => avoided m.name missing) listed enabled

end EmbToolkit.Proofs.ChoiceStrings
