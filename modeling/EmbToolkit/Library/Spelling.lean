import EmbToolkit.Library.Menu

/-! Strings spelled by choices: a string symbol of the configuration language whose defaults name the members of a
choice, or of the choices behind its members. A check of the tree decides that no other setting can interfere. -/

namespace Menu

/-- A string symbol, the choice it depends on, the choices that refine a member of that one, and the blocks that
give the string its defaults. -/
structure Spelling (σ : Type) where
  name : σ
  outer : Choice σ
  inner : List (Choice σ) := []
  strings : List (Entry σ)

variable {σ : Type}

def Spelling.choices (sp : Spelling σ) : List (Choice σ) := sp.outer :: sp.inner

def Spelling.blocks (sp : Spelling σ) : List (Block σ) := sp.choices.map .choice ++ sp.strings.map .string

theorem Spelling.known {t : Tree σ} {sp : Spelling σ} (within : ∀ b ∈ sp.blocks, b ∈ t.blocks) : ∀ c ∈ sp.choices, c ∈ t.choices := by
  intro c member
  have block : .choice c ∈ sp.blocks := List.mem_append_left _ (List.mem_map_of_mem member)
  exact List.mem_filterMap.mpr ⟨_, within _ block, rfl⟩

variable [DecidableEq σ]

/-- A member stands in front of a choice that depends on it. -/
def Choice.behind (c : Choice σ) (m : Entry σ) : Bool := c.depends.any fun d => m.name ∈ d.needs

/-- The members that settle the matter. -/
def Spelling.leaves (sp : Spelling σ) : List (Entry σ) :=
  (sp.outer.entries.filter fun m => !(sp.inner.any fun c => c.behind m)) ++ sp.inner.flatMap Choice.entries

/-- Values where nothing but the given symbols is set. -/
def Values.only (names : List σ) : Values σ := { on := fun name => name ∈ names, text := fun _ => "" }

/-- The expression holds whenever the dependencies do. -/
def Expr.follows (depends : List (Expr σ)) (e : Expr σ) : Bool := e = .yes || e ∈ depends

theorem Expr.follows_sound {v : Values σ} {depends : List (Expr σ)} {e : Expr σ} (follows : e.follows depends = true)
    (holds : ∀ d ∈ depends, d.holds v = true) : e.holds v = true := by
  simp only [Expr.follows, Bool.or_eq_true, decide_eq_true_eq] at follows
  rcases follows with rfl | member
  · rfl
  · exact holds e member

/-- Every member that is no leaf leads to a choice that can be seen, and every last choice has a member to see. -/
def Spelling.leads (sp : Spelling σ) : Bool :=
  sp.inner.all fun c => (sp.outer.entries.all fun m => !c.behind m || c.depends.all (Expr.follows (.symbol m.name :: m.depends))) &&
    c.members.any fun m => m.depends.isEmpty

namespace Tree
variable (t : Tree σ)

/-- What is set with a member: the member, what it selects and what it depends on. -/
def given (m : Entry σ) : List σ :=
  m.name :: ((m.selects.filter fun s => s.2 = .yes && t.bools.any fun e => e.name = s.1).map Prod.fst ++ m.needs)

/-- The symbol cannot be set beside the given ones: nothing declares it, or another member of its choice is given, or
what it depends on cannot be set, or nothing that can be set selects it. -/
def refutes (choices : List (Choice σ)) (given : List σ) : Nat → σ → Bool
  | 0, _ => false
  | fuel + 1, name =>
    name ∈ t.undeclared ||
    (choices.any fun c => c.entries.any fun m => m.name = name &&
      ((c.entries.any fun n => n.name ∈ given && n.name ≠ name) || m.needs.any (refutes choices given fuel))) ||
    ((t.bools.any fun e => e.name = name) && (t.bools.all fun e => e.name ≠ name || (!e.prompted && e.defaults.isEmpty)) &&
      t.selectors.all fun e => !(e.selects.any fun s => s.1 = name) || refutes choices given fuel e.name)

/-- The value of the expression is settled by what is given. -/
def settles (choices : List (Choice σ)) (given : List σ) (fuel : Nat) : Expr σ → Bool
  | .yes => true
  | .symbol name => name ∈ given || t.refutes choices given fuel name
  | .equals _ _ => false
  | .not e => settles choices given fuel e
  | .and a b => settles choices given fuel a && settles choices given fuel b
  | .or a b => settles choices given fuel a && settles choices given fuel b

/-- What holds where a member is set: its dependencies, and what follows from the given symbols with all others unset. -/
def presumed (m : Entry σ) (e : Expr σ) : Bool := e ∈ m.depends || e.holds (.only (t.given m))

/-- The text that the defaults give to a member. -/
def spelled (sp : Spelling σ) (m : Entry σ) : Option String := defaultIn (t.presumed m) t.strings sp.name

/-- With each leaf the other leaves are ruled out, and all that the string depends on is settled. -/
def settled (sp : Spelling σ) (fuel : Nat) : Bool :=
  sp.leads && (sp.leaves.all fun m => sp.leaves.all fun n => n.name = m.name || t.refutes sp.choices (t.given m) fuel n.name) &&
    t.strings.all fun e => e.name ≠ sp.name || sp.leaves.all fun m =>
      (e.depends ++ e.defaults.map Prod.snd).all fun d => d ∈ m.depends || t.settles sp.choices (t.given m) fuel d

variable {t} {v : Values σ}

theorem given_on (admitted : t.Admits v) {c : Choice σ} (member : c ∈ t.choices) {m : Entry σ} (inside : m ∈ c.entries)
    (set : v.on m.name = true) : ∀ name ∈ t.given m, v.on name = true := by
  have met := admitted.visible c member m inside set
  intro name listed
  rcases List.mem_cons.mp listed with rfl | listed
  · exact set
  · rcases List.mem_append.mp listed with forced | needed
    · obtain ⟨s, line, rfl⟩ := List.mem_map.mp forced
      obtain ⟨line, here⟩ := List.mem_filter.mp line
      simp only [Bool.and_eq_true, decide_eq_true_eq] at here
      obtain ⟨e, declared, same⟩ := List.any_eq_true.mp here.2
      have named : e.name = s.1 := by simpa using same
      have selector : m ∈ t.selectors := List.mem_append_right _ (List.mem_flatMap.mpr ⟨c, member, inside⟩)
      have holds : s.2.holds v = true := by
        rw [here.1]
        rfl
      have chosen : e.name ∈ t.selected v := mem_selected.mpr ⟨m, selector, set, met, s, line, holds, named.symm⟩
      rw [← named]
      exact admitted.selected e declared chosen
    · exact Entry.needs_on met name needed

theorem refutes_sound (admitted : t.Admits v) {choices : List (Choice σ)} (known : ∀ c ∈ choices, c ∈ t.choices)
    {given : List σ} (set : ∀ name ∈ given, v.on name = true) (fuel : Nat) {name : σ}
    (refuted : t.refutes choices given fuel name = true) : v.on name = false := by
  induction fuel generalizing name with
  | zero => simp [refutes] at refuted
  | succ fuel ih =>
    refine Bool.eq_false_iff.mpr fun on => ?_
    simp only [refutes, Bool.or_eq_true, decide_eq_true_eq] at refuted
    rcases refuted with (missing | rival) | unselected
    · rw [admitted.undeclared name missing] at on
      exact absurd on (by simp)
    · obtain ⟨c, member, here⟩ := List.any_eq_true.mp rival
      obtain ⟨m, inside, here⟩ := List.any_eq_true.mp here
      simp only [Bool.and_eq_true, Bool.or_eq_true, decide_eq_true_eq] at here
      obtain ⟨rfl, another | blocked⟩ := here
      · obtain ⟨n, beside, here⟩ := List.any_eq_true.mp another
        simp only [Bool.and_eq_true, decide_eq_true_eq] at here
        exact here.2 (admitted.single c (known c member) n beside m inside (set n.name here.1) on)
      · obtain ⟨need, needed, refuted⟩ := List.any_eq_true.mp blocked
        have met := admitted.visible c (known c member) m inside on
        have needOn := Entry.needs_on met need needed
        rw [ih refuted] at needOn
        exact absurd needOn (by simp)
    · simp only [Bool.and_eq_true] at unselected
      obtain ⟨⟨declared, bare⟩, others⟩ := unselected
      obtain ⟨block, member, same⟩ := List.any_eq_true.mp declared
      obtain rfl : block.name = name := by simpa using same
      rcases supporter admitted member on with ⟨e, inside, named, -, able⟩ | ⟨e, inside, set, -, s, line, target⟩
      · have ways := List.all_eq_true.mp bare e inside
        simp only [named, ne_eq, not_true_eq_false, decide_false, Bool.false_or, Bool.and_eq_true, Bool.not_eq_true',
          List.isEmpty_iff] at ways
        rcases able with prompted | more
        · simp [ways.1] at prompted
        · exact more ways.2
      · have ways := List.all_eq_true.mp others e inside
        have selects : (e.selects.any fun s => s.1 = block.name) = true := List.any_eq_true.mpr ⟨s, line, by simpa using target⟩
        simp only [selects, Bool.not_true, Bool.false_or] at ways
        rw [ih ways] at set
        exact absurd set (by simp)

theorem settles_sound (admitted : t.Admits v) {choices : List (Choice σ)} (known : ∀ c ∈ choices, c ∈ t.choices)
    {given : List σ} (set : ∀ name ∈ given, v.on name = true) (fuel : Nat) {e : Expr σ}
    (settled : t.settles choices given fuel e = true) : e.holds v = e.holds (.only given) := by
  induction e with
  | yes => rfl
  | symbol name =>
    simp only [settles, Bool.or_eq_true, decide_eq_true_eq] at settled
    simp only [Expr.holds, Values.only]
    by_cases inside : name ∈ given
    · simp [inside, set name inside]
    · simp [inside, refutes_sound admitted known set fuel (settled.resolve_left inside)]
  | equals => simp [settles] at settled
  | not e ih =>
    simp only [settles] at settled
    simp only [Expr.holds, ih settled]
  | and a b first second =>
    simp only [settles, Bool.and_eq_true] at settled
    simp only [Expr.holds, first settled.1, second settled.2]
  | or a b first second =>
    simp only [settles, Bool.and_eq_true] at settled
    simp only [Expr.holds, first settled.1, second settled.2]

/-- What is presumed of a member that is set is so. -/
theorem presumed_sound (admitted : t.Admits v) {choices : List (Choice σ)} (known : ∀ c ∈ choices, c ∈ t.choices) {c : Choice σ}
    (member : c ∈ t.choices) {m : Entry σ} (inside : m ∈ c.entries) (on : v.on m.name = true) (fuel : Nat) {e : Expr σ}
    (sure : (e ∈ m.depends || t.settles choices (t.given m) fuel e) = true) : e.holds v = t.presumed m e := by
  have met := admitted.visible c member m inside on
  simp only [Bool.or_eq_true, decide_eq_true_eq] at sure
  unfold presumed
  by_cases listed : e ∈ m.depends
  · simp [listed, List.all_eq_true.mp met e listed]
  · simp [listed, settles_sound admitted known (given_on admitted member inside on) fuel (sure.resolve_left listed)]

theorem leaf_choice {sp : Spelling σ} {m : Entry σ} (leaf : m ∈ sp.leaves) : ∃ c ∈ sp.choices, m ∈ c.entries := by
  rcases List.mem_append.mp leaf with own | refined
  · exact ⟨sp.outer, List.mem_cons_self, (List.mem_filter.mp own).1⟩
  · obtain ⟨c, member, inside⟩ := List.mem_flatMap.mp refined
    exact ⟨c, List.mem_cons_of_mem _ member, inside⟩

/-- A visible choice settles on a leaf. -/
theorem leaf_chosen (admitted : t.Admits v) {sp : Spelling σ} (within : ∀ b ∈ sp.blocks, b ∈ t.blocks)
    (leads : sp.leads = true) (visible : ∃ m ∈ sp.outer.entries, m.met v = true) : ∃ m ∈ sp.leaves, v.on m.name = true := by
  have known := Spelling.known within
  obtain ⟨m, inside, on⟩ := admitted.chosen sp.outer (known _ List.mem_cons_self) visible
  have met := admitted.visible sp.outer (known _ List.mem_cons_self) m inside on
  by_cases front : (sp.inner.any fun c => c.behind m) = true
  · obtain ⟨c, member, behind⟩ := List.any_eq_true.mp front
    have ways := List.all_eq_true.mp leads c member
    simp only [Bool.and_eq_true] at ways
    have reached := List.all_eq_true.mp ways.1 m inside
    simp only [behind, Bool.not_true, Bool.false_or] at reached
    have holds : ∀ d ∈ .symbol m.name :: m.depends, d.holds v = true := by
      intro d listed
      rcases List.mem_cons.mp listed with rfl | listed
      · exact on
      · exact List.all_eq_true.mp met d listed
    have seen : c.depends.all (Expr.holds v) = true :=
      List.all_eq_true.mpr fun d listed => Expr.follows_sound (List.all_eq_true.mp reached d listed) holds
    obtain ⟨free, listed, bare⟩ := List.any_eq_true.mp ways.2
    have freeMet : (free.under c.depends).met v = true := by
      simp only [Entry.met, Entry.under, List.isEmpty_iff.mp bare, List.append_nil, seen]
    obtain ⟨n, refined, set⟩ := admitted.chosen c (known c (List.mem_cons_of_mem _ member)) ⟨_, List.mem_map_of_mem listed, freeMet⟩
    exact ⟨n, List.mem_append_right _ (List.mem_flatMap.mpr ⟨c, member, refined⟩), set⟩
  · refine ⟨m, List.mem_append_left _ (List.mem_filter.mpr ⟨inside, ?_⟩), on⟩
    simpa using front

/-- With one leaf set no other is, and the string is what the defaults give to that leaf. -/
theorem leaf_spells (admitted : t.Admits v) {sp : Spelling σ} (within : ∀ b ∈ sp.blocks, b ∈ t.blocks) {fuel : Nat}
    (settled : t.settled sp fuel = true) {m : Entry σ} (leaf : m ∈ sp.leaves) (on : v.on m.name = true) :
    (∀ n ∈ sp.leaves, v.on n.name = true → n.name = m.name) ∧ defaultIn (Expr.holds v) t.strings sp.name = t.spelled sp m := by
  have known := Spelling.known within
  obtain ⟨c, member, inside⟩ := leaf_choice leaf
  simp only [Tree.settled, Bool.and_eq_true] at settled
  constructor
  · intro n other second
    have apart := List.all_eq_true.mp (List.all_eq_true.mp settled.1.2 m leaf) n other
    simp only [Bool.or_eq_true, decide_eq_true_eq] at apart
    refine apart.resolve_right fun refuted => ?_
    rw [refutes_sound admitted known (given_on admitted (known c member) inside on) fuel refuted] at second
    exact absurd second (by simp)
  · refine defaultIn_congr fun e block named => ?_
    have here := List.all_eq_true.mp settled.2 e block
    simp only [named, ne_eq, not_true_eq_false, decide_false, Bool.false_or] at here
    have each := List.all_eq_true.mp (List.all_eq_true.mp here m leaf)
    have sure := fun d listed => presumed_sound admitted known (known c member) inside on fuel (each d listed)
    exact ⟨fun d listed => sure d (List.mem_append_left _ listed),
      fun d listed => sure d.2 (List.mem_append_right _ (List.mem_map_of_mem listed))⟩

end Tree

end Menu
