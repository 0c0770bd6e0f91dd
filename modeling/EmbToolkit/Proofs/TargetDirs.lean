import EmbToolkit.Proofs.ChoiceStrings
import EmbToolkit.Proofs.WrittenSymbols
import EmbToolkit.Target

/-! The directories of a target. The string of its core stands in their names, and no other core leads to the same
name: not even the core whose string is empty. -/

namespace EmbToolkit.Proofs.TargetDirs
open Menu Menus ChoiceStrings WrittenSymbols

/-- What the default lines call the cores: their prompts, and nothing where no line names the core. -/
def coreTexts : List (Symbol × String) := corePrompts.map fun p => (p.1, if p.1 = .armCore .cortex12 then "" else p.2)

structure Apart (c c' : Config) : Prop where
  sysroot : embtkSysroot c ≠ embtkSysroot c'
  tools : embtkTools c ≠ embtkTools c'
  toolchain : toolchainDir c ≠ toolchainDir c'

/-- The names of an ARM target. -/
structure ArmNames (c : Config) (text : String) : Prop where
  target : ∃ stem, '-' ∉ stem ∧ stem.head? = some 'a' ∧ (target c).toList = stem ++ '-' :: ("linux".toList ++ '-' :: text.toList)
  toolchain : ∃ before float, float ∈ [['s', 'f'], ['h', 'f']] ∧ (toolchainDir c).toList = before ++ '-' :: (text.toList ++ '-' :: float)

/-- The names of a MIPS target. -/
structure MipsNames (c : Config) (text : String) : Prop where
  target : ∃ stem, '-' ∉ stem ∧ stem.head? = some 'm' ∧ (target c).toList = stem ++ '-' :: ("linux".toList ++ '-' :: text.toList)
  toolchain : ∃ before float abi, float ∈ [['s', 'f'], ['h', 'f']] ∧ abi ∈ [['o', '3', '2'], ['n', '3', '2'], ['n', '6', '4']] ∧
    (toolchainDir c).toList = before ++ '-' :: (text.toList ++ float ++ '-' :: abi)

/-! ### What the tables say -/

/-- The tables are as the proofs below take them. -/
private class Checked : Prop where
  core_prompts : armMcu.spelling.leaves.map (fun m => (m.name, (tree.spelled armMcu.spelling m).getD "")) = coreTexts
  /-- No core is called what another one ends in after a dash. -/
  core_suffixes :
    (coreTexts.all fun a => coreTexts.all fun b => !('-' :: a.2.toList).isSuffixOf ('-' :: b.2.toList) || a.1 = b.1) = true
  spelt : (Setting.archArm : Symbol).variable = "CONFIG_EMBTK_ARCH_ARM" ∧
      (Setting.archMips : Symbol).variable = "CONFIG_EMBTK_ARCH_MIPS" ∧ (Setting.osLinux : Symbol).variable = "CONFIG_EMBTK_OS_LINUX" ∧
      (Setting.armMcuString : Symbol).variable = "CONFIG_EMBTK_ARM_MCU_STRING"
  mips_variables : mipsVariants.entries.map (fun m => m.name.variable) = mipsBlocks.map Prod.fst
  mips_variants :
    (mipsVariants.entries.all fun m => mipsVariants.entries.all fun n => m.name.variable ≠ n.name.variable || m.name = n.name) = true
  mips_blocks :
    (mipsBlocks.all fun a => a.2.1.toList.all (· ≠ '-') && a.2.1.toList.head? = some 'm' && a.2.2.2.toList.all (· ≠ '-') &&
        mipsBlocks.all fun b => a.2.2.2 ≠ b.2.2.2 || a.1 = b.1) = true
  core_needs : (armMcu.spelling.leaves.all fun m => (Setting.archArm : Symbol) ∈ m.needs) = true ∧
      (mipsVariants.entries.all fun m => (Setting.archMips : Symbol) ∈ m.needs) = true

private instance checked : Checked where
  core_prompts := by decide +kernel
  core_suffixes := by decide +kernel
  spelt := by decide +kernel
  mips_variables := by decide +kernel
  mips_variants := by decide +kernel
  mips_blocks := by decide +kernel
  core_needs := by decide +kernel

variable {c c' : Config}

private theorem isYes_variable {s : Symbol} {name : String} (same : s.variable = name) : c.isYes name = (values c).on s := by
  rw [← same]
  rfl

private theorem chooses {choice : Choice Symbol} (listed : Block.choice choice ∈ targetBlocks) : choice ∈ tree.choices :=
  List.mem_filterMap.mpr ⟨_, List.mem_append_left _ (List.mem_append_left _ listed), rfl⟩

theorem os_linux (admitted : tree.Admits (values c)) : embtkOs c = "linux" := by
  have known : osChoice ∈ tree.choices := chooses (by simp [targetBlocks])
  obtain ⟨m, inside, on⟩ := admitted.chosen osChoice known ⟨_, List.mem_map_of_mem List.mem_cons_self, rfl⟩
  obtain rfl : m = (member Setting.osLinux).under [] := List.mem_singleton.mp inside
  have yes : c.isYes "CONFIG_EMBTK_OS_LINUX" = true := (isYes_variable checked.spelt.2.2.1).trans on
  rw [embtkOs, ← List.nil_append [_], Config.choose_last yes]
  decide

/-- One of the architectures is set. -/
theorem arch_cases (admitted : tree.Admits (values c)) :
    (values c).on Setting.archArm = true ∧ (values c).on Setting.archMips = false ∨
      (values c).on Setting.archMips = true ∧ (values c).on Setting.archArm = false := by
  have known : archChoice ∈ tree.choices := chooses (by simp [targetBlocks])
  have arm : (member Setting.archArm).under [] ∈ archChoice.entries := List.mem_map_of_mem List.mem_cons_self
  have mips : (member Setting.archMips).under [] ∈ archChoice.entries := List.mem_map_of_mem (List.mem_cons_of_mem _ List.mem_cons_self)
  have alone : ¬ ((values c).on Setting.archArm = true ∧ (values c).on Setting.archMips = true) := by
    rintro ⟨first, second⟩
    exact absurd (admitted.single archChoice known _ arm _ mips first second) (by decide)
  obtain ⟨m, inside, on⟩ := admitted.chosen archChoice known ⟨_, arm, rfl⟩
  simp only [archChoice, Choice.entries, List.map_cons, List.map_nil, List.mem_cons, List.not_mem_nil, or_false] at inside
  rcases inside with rfl | rfl
  · exact .inl ⟨on, Bool.eq_false_iff.mpr fun other => alone ⟨on, other⟩⟩
  · exact .inr ⟨on, Bool.eq_false_iff.mpr fun other => alone ⟨other, on⟩⟩

/-! ### The names of an ARM target -/

private theorem mcu_listed : armMcu ∈ components := by simp [components, targetComponents]

theorem arm_core (admitted : tree.Admits (values c)) (on : (values c).on Setting.archArm = true) :
    ∃ m ∈ armMcu.spelling.leaves, (values c).on m.name = true ∧ (m.name, (values c).text Setting.armMcuString) ∈ coreTexts := by
  have settled := component_settled mcu_listed
  simp only [Tree.settled, Bool.and_eq_true] at settled
  have visible : ∃ m ∈ armMcu.spelling.outer.entries, m.met (values c) = true := by
    refine ⟨_, List.mem_map_of_mem List.mem_cons_self, ?_⟩
    simp [Entry.met, Entry.under, armMcu, armFamilies, member, Expr.holds, on]
  obtain ⟨m, leaf, set⟩ := Tree.leaf_chosen admitted (blocks_known mcu_listed) settled.1.1 visible
  refine ⟨m, leaf, set, ?_⟩
  have text : (values c).text Setting.armMcuString = (tree.spelled armMcu.spelling m).getD "" := (leaf_text admitted mcu_listed leaf set).2
  rw [← checked.core_prompts, text]
  exact List.mem_map_of_mem leaf

private theorem ifSet_cases (name text : String) : c.ifSet name text = text ∨ c.ifSet name text = "" := by
  unfold Config.ifSet
  split
  · exact .inl rfl
  · exact .inr rfl

theorem arm_names (admitted : tree.Admits (values c)) (on : (values c).on Setting.archArm = true)
    (off : (values c).on Setting.archMips = false) : ArmNames c ((values c).text Setting.armMcuString) := by
  have arm_arch : arch c = arm c := by
    rw [arch, isYes_variable checked.spelt.1, isYes_variable checked.spelt.2.1, on, off]
    rfl
  have mcu : (arm c).mcuFlag = (values c).text Setting.armMcuString := by
    rw [show (values c).text Setting.armMcuString = uquote (c.value (Symbol.variable Setting.armMcuString)) from rfl, checked.spelt.2.2.2]
    rfl
  have dash : "-".toList = ['-'] := rfl
  constructor
  · have shape : target c = "arm" ++ c.ifSet "CONFIG_EMBTK_TARGET_ARCH_BIG_ENDIAN" "eb" ++ "-" ++ "linux" ++ "-" ++
        (values c).text Setting.armMcuString := by
      rw [target, arm_arch, mcu, show (arm c).gnuTarget = "arm" ++ c.ifSet "CONFIG_EMBTK_TARGET_ARCH_BIG_ENDIAN" "eb" ++ "-" ++ embtkOs c
        from rfl, os_linux admitted]
    refine ⟨("arm" ++ c.ifSet "CONFIG_EMBTK_TARGET_ARCH_BIG_ENDIAN" "eb").toList, ?_, ?_, ?_⟩
    · rcases ifSet_cases (c := c) "CONFIG_EMBTK_TARGET_ARCH_BIG_ENDIAN" "eb" with big | little
      · rw [big]
        decide
      · rw [little]
        decide
    · rw [String.toList_append]
      rfl
    · rw [shape]
      simp only [String.toList_append, dash, List.append_assoc, List.cons_append, List.nil_append]
  · have env : (arm c).xtoolsEnv = (values c).text Setting.armMcuString ++ "-" ++ if c.isSet "CONFIG_EMBTK_SOFTFLOAT" then "sf" else "hf" := by
      rw [← mcu]
      rfl
    refine ⟨("toolchain-" ++ (arch c).xtoolsArchos ++ "-" ++ xtoolsBins c).toList,
      (if c.isSet "CONFIG_EMBTK_SOFTFLOAT" then "sf" else "hf" : String).toList, ?_, ?_⟩
    · split <;> decide
    · rw [toolchainDir, arm_arch, env]
      simp only [String.toList_append, dash, List.append_assoc, List.cons_append, List.nil_append]

/-! ### The names of a MIPS target -/

theorem mips_core (admitted : tree.Admits (values c)) (on : (values c).on Setting.archMips = true) :
    ∃ m ∈ mipsVariants.entries, (values c).on m.name = true ∧ ∃ b ∈ mipsBlocks, b.1 = m.name.variable ∧
      (mipsBlocks.filter fun b => c.isYes b.1).getLast? = some b := by
  have known : mipsVariants ∈ tree.choices := chooses (by simp [targetBlocks])
  have visible : ∃ m ∈ mipsVariants.entries, m.met (values c) = true := by
    refine ⟨_, List.mem_map_of_mem List.mem_cons_self, ?_⟩
    simp [Entry.met, Entry.under, mipsVariants, member, Expr.holds, on]
  obtain ⟨m, inside, set⟩ := admitted.chosen mipsVariants known visible
  refine ⟨m, inside, set, ?_⟩
  have block : ∀ n ∈ mipsVariants.entries, ∃ b ∈ mipsBlocks, b.1 = n.name.variable := by
    intro n beside
    have listed : n.name.variable ∈ mipsBlocks.map Prod.fst := checked.mips_variables ▸ List.mem_map_of_mem beside
    exact List.mem_map.mp listed
  have variant : ∀ b ∈ mipsBlocks, ∃ n ∈ mipsVariants.entries, n.name.variable = b.1 := by
    intro b listed
    have beside : b.1 ∈ mipsVariants.entries.map fun m => m.name.variable := checked.mips_variables ▸ List.mem_map_of_mem listed
    exact List.mem_map.mp beside
  cases last : (mipsBlocks.filter fun b => c.isYes b.1).getLast? with
  | none =>
    obtain ⟨b, listed, same⟩ := block m inside
    have chosen : b ∈ mipsBlocks.filter fun b => c.isYes b.1 :=
      List.mem_filter.mpr ⟨listed, (isYes_variable same.symm).trans set⟩
    rw [List.getLast?_eq_none_iff.mp last] at chosen
    exact absurd chosen List.not_mem_nil
  | some b =>
    obtain ⟨listed, yes⟩ := List.mem_filter.mp (List.mem_of_getLast? last)
    obtain ⟨n, beside, same⟩ := variant b listed
    have named := admitted.single mipsVariants known m inside n beside set ((isYes_variable same).symm.trans yes)
    exact ⟨b, listed, by rw [named, same], rfl⟩

theorem mips_names (admitted : tree.Admits (values c)) (on : (values c).on Setting.archMips = true) {b : String × String × String × String}
    (listed : b ∈ mipsBlocks) (last : (mipsBlocks.filter fun b => c.isYes b.1).getLast? = some b) : MipsNames c b.2.2.2 := by
  have mips_arch : arch c = mips c := by
    rw [arch, isYes_variable checked.spelt.2.1, on]
    rfl
  have here := List.all_eq_true.mp checked.mips_blocks b listed
  simp only [Bool.and_eq_true, decide_eq_true_eq] at here
  have dash : "-".toList = ['-'] := rfl
  have flag : (mips c).mcuFlag = b.2.2.2 := by
    rw [mips, last]
    rfl
  constructor
  · have shape : target c = b.2.1 ++ c.ifSet "CONFIG_EMBTK_TARGET_ARCH_LITTLE_ENDIAN" "el" ++ "-" ++ "linux" ++ "-" ++ b.2.2.2 := by
      have stem : (mips c).gnuTarget = b.2.1 ++ c.ifSet "CONFIG_EMBTK_TARGET_ARCH_LITTLE_ENDIAN" "el" ++ "-" ++ embtkOs c := by
        rw [mips, last]
        rfl
      rw [target, mips_arch, flag, stem, os_linux admitted]
    refine ⟨(b.2.1 ++ c.ifSet "CONFIG_EMBTK_TARGET_ARCH_LITTLE_ENDIAN" "el").toList, ?_, ?_, ?_⟩
    · rw [String.toList_append, List.mem_append, not_or]
      refine ⟨fun dashed => by simpa using List.all_eq_true.mp here.1.1.1 _ dashed, ?_⟩
      rcases ifSet_cases (c := c) "CONFIG_EMBTK_TARGET_ARCH_LITTLE_ENDIAN" "el" with little | big
      · rw [little]
        decide
      · rw [big]
        decide
    · rw [String.toList_append, List.head?_append, here.1.1.2]
      rfl
    · rw [shape]
      simp only [String.toList_append, dash, List.append_assoc, List.cons_append, List.nil_append]
  · have env : (mips c).xtoolsEnv = b.2.2.2 ++ (if c.isYes "CONFIG_EMBTK_HARDFLOAT" then "hf" else "sf") ++ "-" ++
        (if c.isYes "CONFIG_EMBTK_ARCH_MIPS_ABI_O32" then "o32" else if c.isYes "CONFIG_EMBTK_ARCH_MIPS_ABI_N32" then "n32" else "n64") := by
      rw [← flag]
      rfl
    refine ⟨("toolchain-" ++ (arch c).xtoolsArchos ++ "-" ++ xtoolsBins c).toList,
      (if c.isYes "CONFIG_EMBTK_HARDFLOAT" then "hf" else "sf" : String).toList,
      (if c.isYes "CONFIG_EMBTK_ARCH_MIPS_ABI_O32" then "o32" else if c.isYes "CONFIG_EMBTK_ARCH_MIPS_ABI_N32" then "n32" else "n64" :
        String).toList, ?_, ?_, ?_⟩
    · split <;> decide
    · split
      · decide
      · split <;> decide
    · rw [toolchainDir, mips_arch, env]
      simp only [String.toList_append, dash, List.append_assoc, List.cons_append, List.nil_append]

/-! ### The core that is chosen -/

private theorem targetCore_eq {v : Values Symbol} {m : Entry Symbol} (listed : m ∈ targetCores) (on : v.on m.name = true)
    (alone : ∀ n ∈ targetCores, v.on n.name = true → n.name = m.name) : targetCore v = some m.name := by
  unfold targetCore
  cases found : targetCores.find? fun m : Entry Symbol => v.on m.name with
  | none =>
    have off := List.find?_eq_none.mp found m listed
    exact absurd on off
  | some n =>
    have set : v.on n.name = true := List.find?_some (p := fun m : Entry Symbol => v.on m.name) found
    rw [Option.map_some, alone n (List.mem_of_find?_eq_some found) set]

private theorem arm_leaf_on (admitted : tree.Admits (values c)) {m : Entry Symbol} (leaf : m ∈ armMcu.spelling.leaves)
    (on : (values c).on m.name = true) : (values c).on Setting.archArm = true := by
  obtain ⟨choice, member, inside⟩ := Tree.leaf_choice leaf
  have met := admitted.visible choice (Spelling.known (blocks_known mcu_listed) choice member) m inside on
  exact Entry.needs_on met _ (by simpa using List.all_eq_true.mp checked.core_needs.1 m leaf)

private theorem mips_variant_on (admitted : tree.Admits (values c)) {m : Entry Symbol} (inside : m ∈ mipsVariants.entries)
    (on : (values c).on m.name = true) : (values c).on Setting.archMips = true := by
  have met := admitted.visible mipsVariants (chooses (by simp [targetBlocks])) m inside on
  exact Entry.needs_on met _ (by simpa using List.all_eq_true.mp checked.core_needs.2 m inside)

/-- The target has one core, and its directories carry the string of that core. -/
theorem names_cases (admitted : tree.Admits (values c)) :
    (∃ core text, targetCore (values c) = some core ∧ (core, text) ∈ coreTexts ∧ ArmNames c text) ∨
      ∃ m ∈ mipsVariants.entries, targetCore (values c) = some m.name ∧ ∃ b ∈ mipsBlocks, b.1 = m.name.variable ∧ MipsNames c b.2.2.2 := by
  rcases arch_cases admitted with ⟨on, off⟩ | ⟨on, off⟩
  · obtain ⟨m, leaf, set, text⟩ := arm_core admitted on
    refine .inl ⟨m.name, _, targetCore_eq (List.mem_append_left _ leaf) set fun n listed other => ?_, text, arm_names admitted on off⟩
    rcases List.mem_append.mp listed with beside | variant
    · exact (leaf_text admitted mcu_listed leaf set).1 n beside other
    · rw [mips_variant_on admitted variant other] at off
      exact absurd off (by simp)
  · obtain ⟨m, inside, set, b, listed, same, last⟩ := mips_core admitted on
    refine .inr ⟨m, inside, targetCore_eq (List.mem_append_right _ inside) set fun n beside other => ?_, b, listed, same,
      mips_names admitted on listed last⟩
    rcases List.mem_append.mp beside with core | variant
    · rw [arm_leaf_on admitted core other] at off
      exact absurd off (by simp)
    · exact admitted.single mipsVariants (chooses (by simp [targetBlocks])) n variant m inside other set

/-! ### Names that differ -/

/-- A text is taken apart at its first dash in one way. -/
private theorem first_dash {a b x y : List Char} (plain : '-' ∉ a) (plain' : '-' ∉ b) (same : a ++ '-' :: x = b ++ '-' :: y) :
    a = b ∧ x = y := by
  induction a generalizing b with
  | nil =>
    cases b with
    | nil => exact ⟨rfl, (List.cons.inj same).2⟩
    | cons d rest =>
      obtain ⟨rfl, -⟩ := List.cons.inj same
      exact absurd List.mem_cons_self plain'
  | cons d rest ih =>
    cases b with
    | nil =>
      obtain ⟨rfl, -⟩ := List.cons.inj same
      exact absurd List.mem_cons_self plain
    | cons e others =>
      obtain ⟨rfl, tails⟩ := List.cons.inj same
      obtain ⟨heads, ends⟩ := ih (fun inside => plain (List.mem_cons_of_mem _ inside))
        (fun inside => plain' (List.mem_cons_of_mem _ inside)) tails
      exact ⟨by rw [heads], ends⟩

/-- And at its last one. -/
private theorem last_dash {a b x y : List Char} (plain : '-' ∉ x) (plain' : '-' ∉ y) (same : a ++ '-' :: x = b ++ '-' :: y) : x = y := by
  have turned : x.reverse ++ '-' :: a.reverse = y.reverse ++ '-' :: b.reverse := by
    have := congrArg List.reverse same
    simpa using this
  have ends := (first_dash (by simpa using plain) (by simpa using plain') turned).1
  simpa using congrArg List.reverse ends

private theorem same_core {first second : Symbol × String} (listed : first ∈ coreTexts) (listed' : second ∈ coreTexts)
    (ends : '-' :: first.2.toList <:+ '-' :: second.2.toList) : first.1 = second.1 := by
  have apart := List.all_eq_true.mp (List.all_eq_true.mp checked.core_suffixes first listed) second listed'
  simp only [Bool.or_eq_true, Bool.not_eq_true', decide_eq_true_eq] at apart
  exact apart.resolve_left (by simpa [← List.isSuffixOf_iff_suffix] using ends)

private theorem same_variant {m n : Entry Symbol} (inside : m ∈ mipsVariants.entries) (inside' : n ∈ mipsVariants.entries)
    {a b : String × String × String × String} (listed : a ∈ mipsBlocks) (listed' : b ∈ mipsBlocks) (named : a.1 = m.name.variable)
    (named' : b.1 = n.name.variable) (same : a.2.2.2.toList = b.2.2.2.toList) : m.name = n.name := by
  have here := List.all_eq_true.mp checked.mips_blocks a listed
  simp only [Bool.and_eq_true] at here
  have symbols : a.1 = b.1 := by
    simpa [String.toList_inj.mp same] using List.all_eq_true.mp here.2 b listed'
  have apart := List.all_eq_true.mp (List.all_eq_true.mp checked.mips_variants m inside) n inside'
  simpa [← named, ← named', symbols] using apart

/-- The initial and the core's string can be read off a target. -/
private theorem same_target {initial initial' : Char} {text text' : String}
    (shape : ∃ stem, '-' ∉ stem ∧ stem.head? = some initial ∧ (target c).toList = stem ++ '-' :: ("linux".toList ++ '-' :: text.toList))
    (shape' : ∃ stem, '-' ∉ stem ∧ stem.head? = some initial' ∧
      (target c').toList = stem ++ '-' :: ("linux".toList ++ '-' :: text'.toList))
    (same : target c = target c') : initial = initial' ∧ text.toList = text'.toList := by
  obtain ⟨stem, plain, head, shape⟩ := shape
  obtain ⟨stem', plain', head', shape'⟩ := shape'
  rw [same, shape'] at shape
  obtain ⟨rfl, tails⟩ := first_dash plain' plain shape
  have cores := List.append_cancel_left tails
  exact ⟨Option.some.inj (head.symm.trans head'), (List.cons.inj cores).2.symm⟩

private theorem arm_toolchains {first second : Symbol × String} (listed : first ∈ coreTexts) (listed' : second ∈ coreTexts)
    (names : ArmNames c first.2) (names' : ArmNames c' second.2) (same : toolchainDir c = toolchainDir c') : first.1 = second.1 := by
  obtain ⟨before, float, kind, shape⟩ := names.toolchain
  obtain ⟨before', float', kind', shape'⟩ := names'.toolchain
  have long : ∀ f ∈ [['s', 'f'], ['h', 'f']], f.length = 2 := by decide
  rw [same, shape', ← List.cons_append, ← List.cons_append, ← List.append_assoc, ← List.append_assoc] at shape
  have heads := (List.append_inj' shape (by simp [long _ kind, long _ kind'])).1
  have ends : '-' :: second.2.toList <:+ before ++ '-' :: first.2.toList := heads ▸ List.suffix_append ..
  rcases List.suffix_or_suffix_of_suffix (List.suffix_append before _) ends with inside | inside
  · exact same_core listed listed' inside
  · exact (same_core listed' listed inside).symm

private theorem mips_toolchains {text text' : String} (plain : '-' ∉ text.toList) (plain' : '-' ∉ text'.toList)
    (names : MipsNames c text) (names' : MipsNames c' text') (same : toolchainDir c = toolchainDir c') : text.toList = text'.toList := by
  obtain ⟨before, float, abi, kind, size, shape⟩ := names.toolchain
  obtain ⟨before', float', abi', kind', size', shape'⟩ := names'.toolchain
  have long : ∀ f ∈ [['s', 'f'], ['h', 'f']], f.length = 2 := by decide
  have longer : ∀ a ∈ [['o', '3', '2'], ['n', '3', '2'], ['n', '6', '4']], a.length = 3 := by decide
  have grouped : ∀ p t f a : List Char, p ++ '-' :: (t ++ f ++ '-' :: a) = p ++ '-' :: t ++ f ++ '-' :: a := by simp
  rw [same, shape', grouped, grouped] at shape
  have floats := (List.append_inj' shape (by simp [longer _ size, longer _ size'])).1
  have heads := (List.append_inj' floats (by simp [long _ kind, long _ kind'])).1
  exact (last_dash plain' plain heads).symm

private theorem kinds_apart {text text' : String} (names : ArmNames c text) (names' : MipsNames c' text') :
    toolchainDir c ≠ toolchainDir c' := by
  intro same
  obtain ⟨before, float, kind, shape⟩ := names.toolchain
  obtain ⟨before', float', abi, -, size, shape'⟩ := names'.toolchain
  rw [same, shape'] at shape
  have lasts := congrArg (fun text => text.reverse.head?) shape
  simp only [List.mem_cons, List.not_mem_nil, or_false] at kind size
  rcases kind with rfl | rfl <;> rcases size with rfl | rfl | rfl <;> simp at lasts

private theorem apart_of_names (differ : target c ≠ target c') (toolchain : toolchainDir c ≠ toolchainDir c') : Apart c c' where
  sysroot same := by
    have tails := congrArg String.toList same
    simp only [embtkSysroot, String.toList_append] at tails
    exact differ (String.toList_inj.mp (List.append_cancel_left tails))
  tools same := by
    have tails := congrArg String.toList same
    simp only [embtkTools, String.toList_append] at tails
    exact differ (String.toList_inj.mp (List.append_cancel_left tails))
  toolchain := toolchain

/-- Configurations of different cores have directories of their own. -/
theorem dirs_apart (admitted : tree.Admits (values c)) (admitted' : tree.Admits (values c'))
    (other : targetCore (values c) ≠ targetCore (values c')) : Apart c c' := by
  rcases names_cases admitted with ⟨core, text, chosen, listed, names⟩ | ⟨m, inside, chosen, b, listed, named, names⟩ <;>
    rcases names_cases admitted' with ⟨core', text', chosen', listed', names'⟩ | ⟨n, inside', chosen', d, listed', named', names'⟩
  · have differ : core ≠ core' := fun same => other (by rw [chosen, chosen', same])
    refine apart_of_names (fun same => differ ?_) fun same => differ (arm_toolchains listed listed' names names' same)
    have texts := String.toList_inj.mp (same_target names.target names'.target same).2
    exact same_core listed listed' (by simp only [texts, List.suffix_rfl])
  · refine apart_of_names (fun same => ?_) (kinds_apart names names')
    exact absurd (same_target names.target names'.target same).1 (by decide)
  · refine apart_of_names (fun same => ?_) fun same => kinds_apart names' names same.symm
    exact absurd (same_target names.target names'.target same).1 (by decide)
  · have differ : m.name ≠ n.name := fun same => other (by rw [chosen, chosen', same])
    have plain : ∀ a ∈ mipsBlocks, '-' ∉ a.2.2.2.toList := by
      intro a here dashed
      have checked := List.all_eq_true.mp checked.mips_blocks a here
      simp only [Bool.and_eq_true] at checked
      simpa using List.all_eq_true.mp checked.1.2 _ dashed
    refine apart_of_names (fun same => differ ?_) fun same => differ ?_
    · exact same_variant inside inside' listed listed' named named' (same_target names.target names'.target same).2
    · exact same_variant inside inside' listed listed' named named' (mips_toolchains (plain b listed) (plain d listed') names names' same)

/-! ### Total strings -/

/-- What the make files take from the choices: a string for every enabled component, that of the member that is set and
for a core its prompt, and directories that no other core shares. -/
structure Total (c : Config) : Prop where
  named : ∀ k ∈ components, k.enabled.holds (values c) = true → Named k (values c)
  prompted : (values c).on Setting.archArm = true →
    ∃ p ∈ corePrompts, (values c).on p.1 = true ∧ (values c).text Setting.armMcuString = p.2
  apart : ∀ c', tree.Admits (values c') → targetCore (values c) ≠ targetCore (values c') → Apart c c'

/-- The strings are total exactly for the configurations that keep to members with a default line, and have `ltrace` only
beside a root filesystem. -/
theorem total_iff (admitted : tree.Admits (values c)) : Total c ↔
    ((values c).on (.armCore .cortex12) = false ∧ (values c).on (.version .binutils "GIT") = false ∧
      (values c).on (.version .clang_host_llvm_host "3_3") = false) ∧
      ((values c).on (.has .ltrace) = true → (values c).on Setting.rootfs = true) := by
  have members : (∀ name ∈ unnamed, (values c).on name = false) ↔ (values c).on (.armCore .cortex12) = false ∧
      (values c).on (.version .binutils "GIT") = false ∧ (values c).on (.version .clang_host_llvm_host "3_3") = false := by
    simp [unnamed]
  rw [← members, ← all_named_iff admitted]
  refine ⟨Total.named, fun named => ⟨named, fun arm => ?_, fun c' admitted' other => dirs_apart admitted admitted' other⟩⟩
  obtain ⟨m, leaf, on, text⟩ := arm_core admitted arm
  obtain ⟨p, listed, same⟩ := List.mem_map.mp text
  obtain ⟨core, prompt⟩ := Prod.mk.inj same
  have spelled := (members.mp ((all_named_iff admitted).mp named).1).1
  have other : p.1 ≠ .armCore .cortex12 := fun here => by simp [← core, here, spelled] at on
  exact ⟨p, listed, core ▸ on, by rw [← prompt, if_neg other]⟩

/-- The core is chosen, and its string is empty. -/
theorem cortex_not_total : tree.Admits (values exampleSheet.config) ∧ ¬ Total exampleSheet.config := by
  refine ⟨example_config_admitted, fun total => ?_⟩
  have on : (values exampleSheet.config).on (.armCore .cortex12) = true := (example_agrees _ (by decide +kernel)).1
  have off := ((all_named_iff example_config_admitted).mp total.named).1 (.armCore .cortex12) (by simp [unnamed])
  rw [on] at off
  exact absurd off (by simp)

theorem total_iff_example : Total exampleSheet.config ↔
    ((values exampleSheet.config).on (.armCore .cortex12) = false ∧ (values exampleSheet.config).on (.version .binutils "GIT") = false ∧
      (values exampleSheet.config).on (.version .clang_host_llvm_host "3_3") = false) ∧
      ((values exampleSheet.config).on (.has .ltrace) = true → (values exampleSheet.config).on Setting.rootfs = true) :=
  total_iff example_config_admitted

end EmbToolkit.Proofs.TargetDirs
