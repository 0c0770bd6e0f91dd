import Mathlib.Data.List.Find

/-! The configuration language of kconfig: what a tree of `config`, `choice` and `if` blocks lets the values of its
symbols be, and checks that decide from the tree alone what holds under all of them. The symbols are a parameter. -/

namespace Menu

/-- A dependency over the symbols. -/
inductive Expr (σ : Type)
  | yes
  | symbol (name : σ)
  | equals (name : σ) (text : String)
  | not (e : Expr σ)
  | and (a b : Expr σ)
  | or (a b : Expr σ)
  deriving DecidableEq

instance {σ : Type} : Coe σ (Expr σ) := ⟨.symbol⟩

/-- The value of every symbol, read as a boolean and as a text. -/
structure Values (σ : Type) where
  on : σ → Bool
  text : σ → String

/-- A `config` block, with the dependencies of the blocks around it. -/
structure Entry (σ : Type) where
  name : σ
  prompted : Bool := false
  depends : List (Expr σ) := []
  defaults : List (String × Expr σ) := []
  selects : List (σ × Expr σ) := []
  deriving DecidableEq

structure Choice (σ : Type) where
  depends : List (Expr σ)
  members : List (Entry σ)

inductive Block (σ : Type)
  | bool (entry : Entry σ)
  | string (entry : Entry σ)
  | choice (choice : Choice σ)

/-- The blocks of all files in their order, and the names that some line uses and no block declares. -/
structure Tree (σ : Type) where
  blocks : List (Block σ)
  undeclared : List σ := []

variable {σ : Type}

def Expr.holds (v : Values σ) : Expr σ → Bool
  | .yes => true
  | .symbol name => v.on name
  | .equals name text => v.text name = text
  | .not e => !e.holds v
  | .and a b => a.holds v && b.holds v
  | .or a b => a.holds v || b.holds v

/-- Symbols that are set wherever the expression holds. -/
def Expr.needs : Expr σ → List σ
  | .symbol name => [name]
  | .and a b => a.needs ++ b.needs
  | _ => []

/-- What `if`, `menu` and `choice` blocks do to a block inside them. -/
def Entry.under (depends : List (Expr σ)) (e : Entry σ) : Entry σ := { e with depends := depends ++ e.depends }

def Block.under (depends : List (Expr σ)) : Block σ → Block σ
  | .bool e => .bool (e.under depends)
  | .string e => .string (e.under depends)
  | .choice c => .choice { c with depends := depends ++ c.depends }

/-- The members of a choice can be seen where the choice can. -/
def Choice.entries (c : Choice σ) : List (Entry σ) := c.members.map (Entry.under c.depends)

/-- The dependencies are met. -/
def Entry.met (v : Values σ) (e : Entry σ) : Bool := e.depends.all (Expr.holds v)

def Choice.met (v : Values σ) (c : Choice σ) : Bool := c.depends.all (Expr.holds v)

namespace Tree
variable (t : Tree σ) (v : Values σ)

def bools : List (Entry σ) := t.blocks.filterMap fun | .bool e => some e | _ => none

def strings : List (Entry σ) := t.blocks.filterMap fun | .string e => some e | _ => none

def choices : List (Choice σ) := t.blocks.filterMap fun | .choice c => some c | _ => none

/-- Every block that can select. -/
def selectors : List (Entry σ) := t.bools ++ t.choices.flatMap Choice.entries

/-- The names forced by `select`. A block selects where its symbol is set and its own dependencies are met. -/
def selected : List σ :=
  t.selectors.flatMap fun e => if v.on e.name && e.met v then (e.selects.filter fun s => s.2.holds v).map Prod.fst else []

variable [DecidableEq σ]

/-- A prompt for the symbol can be seen. -/
def offered (name : σ) : Bool := t.bools.any fun e => e.name = name && e.prompted && e.met v

/-- The first default whose condition holds, over all blocks of the symbol whose dependencies hold. -/
def defaultIn (holds : Expr σ → Bool) (entries : List (Entry σ)) (name : σ) : Option String :=
  (entries.filter fun e => e.name = name && e.depends.all holds).flatMap (·.defaults) |>.find? (fun d => holds d.2) |>.map Prod.fst

/-- The tree admits the values. A visible boolean is the user's to set above what selects it, a hidden one has its
default, a string without a prompt has its default, and a visible choice has one member. -/
structure Admits : Prop where
  undeclared : ∀ name ∈ t.undeclared, v.on name = false
  selected : ∀ e ∈ t.bools, e.name ∈ t.selected v → v.on e.name = true
  supported : ∀ e ∈ t.bools, v.on e.name = true →
    e.name ∈ t.selected v ∨ t.offered v e.name = true ∨ defaultIn (Expr.holds v) t.bools e.name = some "y"
  hidden : ∀ e ∈ t.bools, t.offered v e.name = false → defaultIn (Expr.holds v) t.bools e.name = some "y" → v.on e.name = true
  text : ∀ e ∈ t.strings, v.text e.name = (defaultIn (Expr.holds v) t.strings e.name).getD ""
  visible : ∀ c ∈ t.choices, ∀ m ∈ c.entries, v.on m.name = true → m.met v = true
  single : ∀ c ∈ t.choices, ∀ m ∈ c.entries, ∀ n ∈ c.entries, v.on m.name = true → v.on n.name = true → m.name = n.name
  chosen : ∀ c ∈ t.choices, (∃ m ∈ c.entries, m.met v = true) → ∃ m ∈ c.entries, v.on m.name = true

instance : Decidable (t.Admits v) := decidable_of_iff
  ((∀ name ∈ t.undeclared, v.on name = false) ∧ (∀ e ∈ t.bools, e.name ∈ t.selected v → v.on e.name = true) ∧
    (∀ e ∈ t.bools, v.on e.name = true →
      e.name ∈ t.selected v ∨ t.offered v e.name = true ∨ defaultIn (Expr.holds v) t.bools e.name = some "y") ∧
    (∀ e ∈ t.bools, t.offered v e.name = false → defaultIn (Expr.holds v) t.bools e.name = some "y" → v.on e.name = true) ∧
    (∀ e ∈ t.strings, v.text e.name = (defaultIn (Expr.holds v) t.strings e.name).getD "") ∧
    (∀ c ∈ t.choices, ∀ m ∈ c.entries, v.on m.name = true → m.met v = true) ∧
    (∀ c ∈ t.choices, ∀ m ∈ c.entries, ∀ n ∈ c.entries, v.on m.name = true → v.on n.name = true → m.name = n.name) ∧
    (∀ c ∈ t.choices, (∃ m ∈ c.entries, m.met v = true) → ∃ m ∈ c.entries, v.on m.name = true))
  ⟨fun ⟨a, b, c, d, e, f, g, h⟩ => ⟨a, b, c, d, e, f, g, h⟩, fun ⟨a, b, c, d, e, f, g, h⟩ => ⟨a, b, c, d, e, f, g, h⟩⟩

end Tree

/-! ### What is set wherever a symbol is -/

theorem Expr.needs_on {v : Values σ} {e : Expr σ} (holds : e.holds v = true) : ∀ name ∈ e.needs, v.on name = true := by
  induction e with
  | symbol name =>
    intro other same
    rw [List.mem_singleton.mp same]
    exact holds
  | and a b first second =>
    simp only [Expr.holds, Bool.and_eq_true] at holds
    intro name inside
    rcases List.mem_append.mp inside with left | right
    · exact first holds.1 name left
    · exact second holds.2 name right
  | yes => simp [Expr.needs]
  | equals => simp [Expr.needs]
  | not => simp [Expr.needs]
  | or => simp [Expr.needs]

/-- The expression holds where the known symbols are set. -/
def Expr.sure [DecidableEq σ] (known : List σ) : Expr σ → Bool
  | .yes => true
  | .symbol name => name ∈ known
  | .and a b => a.sure known && b.sure known
  | .or a b => a.sure known || b.sure known
  | _ => false

theorem Expr.sure_sound [DecidableEq σ] {v : Values σ} {known : List σ} (set : ∀ name ∈ known, v.on name = true) {e : Expr σ}
    (sure : e.sure known = true) : e.holds v = true := by
  induction e with
  | yes => rfl
  | symbol name => exact set name (by simpa [Expr.sure] using sure)
  | and a b first second =>
    simp only [Expr.sure, Bool.and_eq_true] at sure
    simp only [Expr.holds, first sure.1, second sure.2, Bool.and_self]
  | or a b first second =>
    simp only [Expr.sure, Bool.or_eq_true] at sure
    simp only [Expr.holds, Bool.or_eq_true]
    exact sure.imp first second
  | equals => simp [Expr.sure] at sure
  | not => simp [Expr.sure] at sure

/-- The symbols that an entry's dependencies need. -/
def Entry.needs (e : Entry σ) : List σ := e.depends.flatMap Expr.needs

theorem Entry.needs_on {v : Values σ} {e : Entry σ} (met : e.met v = true) : ∀ name ∈ e.needs, v.on name = true := by
  intro name inside
  obtain ⟨d, member, needed⟩ := List.mem_flatMap.mp inside
  exact Expr.needs_on (List.all_eq_true.mp met d member) name needed

namespace Tree
variable {t : Tree σ} {v : Values σ}

theorem mem_selected {name : σ} : name ∈ t.selected v ↔
    ∃ e ∈ t.selectors, v.on e.name = true ∧ e.met v = true ∧ ∃ s ∈ e.selects, s.2.holds v = true ∧ s.1 = name := by
  unfold selected
  rw [List.mem_flatMap]
  refine exists_congr fun e => and_congr_right fun _ => ?_
  by_cases active : v.on e.name = true ∧ e.met v = true
  · rw [if_pos (by simpa using active), List.mem_map]
    simp [active, and_assoc]
  · rw [if_neg (by simpa using active)]
    constructor
    · intro inside
      simp at inside
    · rintro ⟨set, met, -⟩
      exact absurd ⟨set, met⟩ active

variable [DecidableEq σ]

theorem mem_offered {name : σ} (seen : t.offered v name = true) : ∃ e ∈ t.bools, e.name = name ∧ e.prompted = true ∧ e.met v = true := by
  obtain ⟨e, member, here⟩ := List.any_eq_true.mp seen
  simp only [Bool.and_eq_true, decide_eq_true_eq] at here
  exact ⟨e, member, here.1.1, here.1.2, here.2⟩

theorem mem_defaultIn {entries : List (Entry σ)} {name : σ} {value : String}
    (found : defaultIn (Expr.holds v) entries name = some value) :
    ∃ e ∈ entries, e.name = name ∧ e.met v = true ∧ ∃ d ∈ e.defaults, d.2.holds v = true ∧ d.1 = value := by
  obtain ⟨d, first, same⟩ := Option.map_eq_some_iff.mp found
  obtain ⟨e, member, line⟩ := List.mem_flatMap.mp (List.mem_of_find?_eq_some first)
  obtain ⟨inside, here⟩ := List.mem_filter.mp member
  simp only [Bool.and_eq_true, decide_eq_true_eq] at here
  have holds : d.2.holds v = true := by simpa using List.find?_some first
  exact ⟨e, inside, here.1, here.2, d, line, holds, same⟩

/-- The default depends on no more than the symbol's own blocks. -/
theorem defaultIn_congr {first second : Expr σ → Bool} {entries : List (Entry σ)} {name : σ} (same : ∀ e ∈ entries, e.name = name →
    (∀ d ∈ e.depends, first d = second d) ∧ ∀ d ∈ e.defaults, first d.2 = second d.2) :
    defaultIn first entries name = defaultIn second entries name := by
  have blocks : (entries.filter fun e => e.name = name && e.depends.all first) =
      entries.filter fun e => e.name = name && e.depends.all second := by
    refine List.filter_congr fun e inside => ?_
    by_cases named : e.name = name
    · have depends : e.depends.all first = e.depends.all second := by
        refine Bool.eq_iff_iff.mpr ?_
        simp only [List.all_eq_true]
        exact forall₂_congr fun d listed => by rw [(same e inside named).1 d listed]
      rw [depends]
    · simp [named]
  unfold defaultIn
  rw [blocks]
  congr 1
  refine List.find?_congr fun d line => ?_
  obtain ⟨e, member, listed⟩ := List.mem_flatMap.mp line
  obtain ⟨inside, here⟩ := List.mem_filter.mp member
  simp only [Bool.and_eq_true, decide_eq_true_eq] at here
  exact (same e inside here.1).2 d listed

/-- Every block that can set the symbol by itself, and every block that selects it, needs `r`. -/
def implies (t : Tree σ) (r : σ) : Nat → σ → Bool
  | 0, _ => false
  | fuel + 1, name =>
    (t.bools.any fun e => e.name = name) &&
    (t.bools.all fun e => e.name ≠ name || (!e.prompted && e.defaults.isEmpty) || r ∈ e.needs) &&
    t.selectors.all fun e => !(e.selects.any fun s => s.1 = name) || r ∈ e.needs || e.name = r || t.implies r fuel e.name

/-- What sets a symbol: one of its own blocks, or a block that selects it. -/
theorem supporter (admitted : t.Admits v) {block : Entry σ} (member : block ∈ t.bools) (set : v.on block.name = true) :
    (∃ e ∈ t.bools, e.name = block.name ∧ e.met v = true ∧ (e.prompted = true ∨ e.defaults ≠ [])) ∨
      ∃ e ∈ t.selectors, v.on e.name = true ∧ e.met v = true ∧ ∃ s ∈ e.selects, s.1 = block.name := by
  rcases admitted.supported block member set with forced | seen | default
  · obtain ⟨e, inside, on, met, s, line, -, target⟩ := mem_selected.mp forced
    exact .inr ⟨e, inside, on, met, s, line, target⟩
  · obtain ⟨e, inside, named, prompted, met⟩ := mem_offered seen
    exact .inl ⟨e, inside, named, met, .inl prompted⟩
  · obtain ⟨e, inside, named, met, d, line, -⟩ := mem_defaultIn default
    exact .inl ⟨e, inside, named, met, .inr (List.ne_nil_of_mem line)⟩

theorem implies_sound (admitted : t.Admits v) {r : σ} (fuel : Nat) {name : σ} (implied : t.implies r fuel name = true)
    (set : v.on name = true) : v.on r = true := by
  induction fuel generalizing name with
  | zero => simp [implies] at implied
  | succ fuel ih =>
    simp only [implies, Bool.and_eq_true] at implied
    obtain ⟨⟨declared, own⟩, others⟩ := implied
    obtain ⟨block, member, same⟩ := List.any_eq_true.mp declared
    obtain rfl : block.name = name := by simpa using same
    rcases supporter admitted member set with ⟨e, inside, named, met, able⟩ | ⟨e, inside, on, met, s, line, target⟩
    · have ways := List.all_eq_true.mp own e inside
      simp only [named, ne_eq, not_true_eq_false, decide_false, Bool.false_or, Bool.or_eq_true, Bool.and_eq_true,
        Bool.not_eq_true', List.isEmpty_iff, decide_eq_true_eq] at ways
      rcases ways with ⟨plain, bare⟩ | needed
      · rcases able with prompted | more
        · simp [plain] at prompted
        · exact absurd bare more
      · exact Entry.needs_on met r needed
    · have ways := List.all_eq_true.mp others e inside
      have selects : (e.selects.any fun s => s.1 = block.name) = true := List.any_eq_true.mpr ⟨s, line, by simpa using target⟩
      simp only [selects, Bool.not_true, Bool.false_or, Bool.or_eq_true, decide_eq_true_eq] at ways
      rcases ways with (needed | rfl) | onward
      · exact Entry.needs_on met r needed
      · exact on
      · exact ih onward on

/-- All symbols but those in `free` are out of reach without `r`, which the symbols in `assumed` are known to need. -/
def confined (t : Tree σ) (r : σ) (assumed free : List σ) : Bool :=
  (t.bools.all fun e => r ∈ e.needs || e.name ∈ free) &&
    t.selectors.all fun e => r ∈ e.needs || e.name ∈ assumed || e.selects.all fun s => s.1 ∈ free

theorem confined_sound (admitted : t.Admits v) {r : σ} {assumed free : List σ} (confined : t.confined r assumed free = true)
    (sure : ∀ name ∈ assumed, v.on name = true → v.on r = true) {name : σ} (declared : ∃ e ∈ t.bools, e.name = name)
    (outside : name ∉ free) (set : v.on name = true) : v.on r = true := by
  obtain ⟨block, member, rfl⟩ := declared
  simp only [Tree.confined, Bool.and_eq_true] at confined
  rcases supporter admitted member set with ⟨e, inside, named, met, -⟩ | ⟨e, inside, on, met, s, line, target⟩
  · have ways := List.all_eq_true.mp confined.1 e inside
    simp only [named, Bool.or_eq_true, decide_eq_true_eq] at ways
    exact Entry.needs_on met r (ways.resolve_right outside)
  · have ways := List.all_eq_true.mp confined.2 e inside
    simp only [Bool.or_eq_true, decide_eq_true_eq] at ways
    rcases ways with (needed | known) | unable
    · exact Entry.needs_on met r needed
    · exact sure e.name known on
    · have missed := List.all_eq_true.mp unable s line
      simp only [target, decide_eq_true_eq] at missed
      exact absurd missed outside

/-- A block that is set, and whose dependencies are met, sets what it always selects. -/
theorem select_on (admitted : t.Admits v) {e : Entry σ} (member : e ∈ t.selectors) (on : v.on e.name = true) (met : e.met v = true)
    {name : σ} (line : (name, .yes) ∈ e.selects) (declared : ∃ b ∈ t.bools, b.name = name) : v.on name = true := by
  obtain ⟨block, inside, rfl⟩ := declared
  exact admitted.selected block inside (mem_selected.mpr ⟨e, member, on, met, _, line, rfl, rfl⟩)

/-- What the known symbols select, where they make the dependencies hold. -/
def grow (t : Tree σ) (known : List σ) : List σ :=
  known ++ (t.selectors.filter fun e => e.name ∈ known && e.depends.all (Expr.sure known)).flatMap fun e =>
    (e.selects.filter fun s => s.2 = .yes && t.bools.any fun b => b.name = s.1).map Prod.fst

theorem grow_on (admitted : t.Admits v) {known : List σ} (set : ∀ name ∈ known, v.on name = true) :
    ∀ name ∈ t.grow known, v.on name = true := by
  intro name inside
  rcases List.mem_append.mp inside with already | selected
  · exact set name already
  · obtain ⟨e, listed, selected⟩ := List.mem_flatMap.mp selected
    obtain ⟨s, line, rfl⟩ := List.mem_map.mp selected
    obtain ⟨member, active⟩ := List.mem_filter.mp listed
    obtain ⟨line, here⟩ := List.mem_filter.mp line
    simp only [Bool.and_eq_true, decide_eq_true_eq] at active here
    have met : e.met v = true := List.all_eq_true.mpr fun d depends => Expr.sure_sound set (List.all_eq_true.mp active.2 d depends)
    exact select_on admitted member (set e.name active.1) met (here.1 ▸ line) (by simpa using here.2)

/-- A symbol with one block, which has no prompt, has the value of the block's only default line. -/
theorem default_on (admitted : t.Admits v) {e : Entry σ} (only : (t.bools.filter fun b => b.name = e.name) = [e])
    (hidden : e.prompted = false) (met : e.met v = true) {d : Expr σ} (line : e.defaults = [("y", d)]) (holds : d.holds v = true) :
    v.on e.name = true := by
  have member : e ∈ t.bools := (List.mem_filter.mp (only ▸ List.mem_singleton_self e)).1
  have unseen : t.offered v e.name = false := by
    refine Bool.eq_false_iff.mpr fun seen => ?_
    obtain ⟨b, inside, named, prompted, -⟩ := mem_offered seen
    have same : b ∈ [e] := only ▸ List.mem_filter.mpr ⟨inside, by simpa using named⟩
    rw [List.mem_singleton.mp same, hidden] at prompted
    exact absurd prompted (by simp)
  have blocks : (t.bools.filter fun b => b.name = e.name && b.depends.all (Expr.holds v)) = [e] := by
    have split : (t.bools.filter fun b => b.name = e.name && b.depends.all (Expr.holds v)) =
        (t.bools.filter fun b => b.name = e.name).filter fun b => b.depends.all (Expr.holds v) := by
      rw [List.filter_filter]
      exact List.filter_congr fun b _ => Bool.and_comm ..
    rw [split, only]
    exact List.filter_eq_self.mpr fun b here => by rw [List.mem_singleton.mp here]; exact met
  refine admitted.hidden e member unseen ?_
  simp [defaultIn, blocks, line, holds]

/-- The symbol has one block, without a prompt, and the known symbols make the block's default hold. -/
def standing (t : Tree σ) (known : List σ) (name : σ) : Bool :=
  match t.bools.filter fun b => b.name = name with
  | [e] => !e.prompted && e.depends.all (Expr.sure known) && e.defaults = [("y", .yes)]
  | _ => false

theorem standing_on (admitted : t.Admits v) {known : List σ} (set : ∀ name ∈ known, v.on name = true) {name : σ}
    (stands : t.standing known name = true) : v.on name = true := by
  unfold standing at stands
  split at stands
  next e only =>
    simp only [Bool.and_eq_true, Bool.not_eq_true', decide_eq_true_eq] at stands
    have listed : e ∈ t.bools.filter fun b => b.name = name := only ▸ List.mem_singleton_self e
    have named : e.name = name := by simpa using (List.mem_filter.mp listed).2
    have met : e.met v = true := List.all_eq_true.mpr fun d depends => Expr.sure_sound set (List.all_eq_true.mp stands.1.2 d depends)
    rw [← named] at only ⊢
    exact default_on admitted only stands.1.1 met stands.2 rfl
  next => simp at stands

end Tree

/-! ### Values that agree on the names of the tree -/

def Expr.names : Expr σ → List σ
  | .yes => []
  | .symbol name => [name]
  | .equals name _ => [name]
  | .not e => e.names
  | .and a b => a.names ++ b.names
  | .or a b => a.names ++ b.names

/-- The names whose values the block depends on, with its own. -/
def Entry.names (e : Entry σ) : List σ :=
  e.name :: (e.depends ++ e.defaults.map Prod.snd ++ e.selects.map Prod.snd).flatMap Expr.names

def Tree.entries (t : Tree σ) : List (Entry σ) := t.bools ++ t.strings ++ t.choices.flatMap Choice.entries

def Tree.names (t : Tree σ) : List σ := t.undeclared ++ t.entries.flatMap Entry.names

def Values.Agree (names : List σ) (v w : Values σ) : Prop := ∀ name ∈ names, v.on name = w.on name ∧ v.text name = w.text name

section
variable {v w : Values σ}

theorem Values.Agree.mono {few many : List σ} (agree : Values.Agree many v w) (inside : ∀ name ∈ few, name ∈ many) :
    Values.Agree few v w := fun name listed => agree name (inside name listed)

theorem Values.Agree.symm {names : List σ} (agree : Values.Agree names v w) : Values.Agree names w v :=
  fun name listed => ⟨(agree name listed).1.symm, (agree name listed).2.symm⟩

theorem Expr.holds_congr {e : Expr σ} (agree : Values.Agree e.names v w) : e.holds v = e.holds w := by
  induction e with
  | yes => rfl
  | symbol name => exact (agree name (List.mem_singleton_self _)).1
  | equals name text => simp only [Expr.holds, (agree name (List.mem_singleton_self _)).2]
  | not e ih => simp only [Expr.holds, ih agree]
  | and a b first second =>
    simp only [Expr.holds, first (agree.mono fun _ => List.mem_append_left _), second (agree.mono fun _ => List.mem_append_right _)]
  | or a b first second =>
    simp only [Expr.holds, first (agree.mono fun _ => List.mem_append_left _), second (agree.mono fun _ => List.mem_append_right _)]

/-- Every expression of a block, and its name, have the same value. -/
theorem Entry.same {e : Entry σ} (agree : Values.Agree e.names v w) :
    v.on e.name = w.on e.name ∧ (∀ d ∈ e.depends, d.holds v = d.holds w) ∧ (∀ d ∈ e.defaults, d.2.holds v = d.2.holds w) ∧
      ∀ s ∈ e.selects, s.2.holds v = s.2.holds w := by
  have each : ∀ d ∈ e.depends ++ e.defaults.map Prod.snd ++ e.selects.map Prod.snd, d.holds v = d.holds w := by
    intro d listed
    refine Expr.holds_congr (agree.mono fun name inside => ?_)
    exact List.mem_cons_of_mem _ (List.mem_flatMap.mpr ⟨d, listed, inside⟩)
  refine ⟨(agree e.name List.mem_cons_self).1, fun d listed => each d ?_, fun d listed => each d.2 ?_, fun s listed => each s.2 ?_⟩
  · exact List.mem_append_left _ (List.mem_append_left _ listed)
  · exact List.mem_append_left _ (List.mem_append_right _ (List.mem_map_of_mem listed))
  · exact List.mem_append_right _ (List.mem_map_of_mem listed)

theorem Entry.met_congr {e : Entry σ} (agree : Values.Agree e.names v w) : e.met v = e.met w := by
  obtain ⟨-, depends, -⟩ := Entry.same agree
  refine Bool.eq_iff_iff.mpr ?_
  simp only [Entry.met, List.all_eq_true]
  exact forall₂_congr fun d listed => by rw [depends d listed]

namespace Tree
variable {t : Tree σ}

theorem entry_agree (agree : Values.Agree t.names v w) {e : Entry σ} (member : e ∈ t.entries) : Values.Agree e.names v w :=
  agree.mono fun _ inside => List.mem_append_right _ (List.mem_flatMap.mpr ⟨e, member, inside⟩)

theorem bool_agree (agree : Values.Agree t.names v w) {e : Entry σ} (member : e ∈ t.bools) : Values.Agree e.names v w :=
  entry_agree agree (List.mem_append_left _ (List.mem_append_left _ member))

theorem member_agree (agree : Values.Agree t.names v w) {c : Choice σ} (choice : c ∈ t.choices) {m : Entry σ} (member : m ∈ c.entries) :
    Values.Agree m.names v w :=
  entry_agree agree (List.mem_append_right _ (List.mem_flatMap.mpr ⟨c, choice, member⟩))

theorem selected_congr (agree : Values.Agree t.names v w) {name : σ} (forced : name ∈ t.selected v) : name ∈ t.selected w := by
  obtain ⟨e, member, on, met, s, line, holds, target⟩ := mem_selected.mp forced
  have here : Values.Agree e.names v w := by
    rcases List.mem_append.mp member with own | chosen
    · exact bool_agree agree own
    · obtain ⟨c, choice, inside⟩ := List.mem_flatMap.mp chosen
      exact member_agree agree choice inside
  obtain ⟨named, -, -, selects⟩ := Entry.same here
  exact mem_selected.mpr ⟨e, member, named ▸ on, Entry.met_congr here ▸ met, s, line, selects s line ▸ holds, target⟩

variable [DecidableEq σ]

theorem offered_congr (agree : Values.Agree t.names v w) {name : σ} (seen : t.offered v name = true) : t.offered w name = true := by
  obtain ⟨e, member, named, prompted, met⟩ := mem_offered seen
  refine List.any_eq_true.mpr ⟨e, member, ?_⟩
  rw [Entry.met_congr (bool_agree agree member)] at met
  simp [named, prompted, met]

theorem default_congr (agree : Values.Agree t.names v w) {entries : List (Entry σ)} (inside : ∀ e ∈ entries, e ∈ t.entries) (name : σ) :
    defaultIn (Expr.holds v) entries name = defaultIn (Expr.holds w) entries name := by
  refine defaultIn_congr fun e member _ => ?_
  obtain ⟨-, depends, defaults, -⟩ := Entry.same (entry_agree agree (inside e member))
  exact ⟨depends, defaults⟩

/-- The tree reads no other values than those of its names. -/
theorem Admits.congr (agree : Values.Agree t.names v w) (admitted : t.Admits w) : t.Admits v := by
  have back := agree.symm
  have on : ∀ {e}, e ∈ t.bools → v.on e.name = w.on e.name := fun member => (Entry.same (bool_agree agree member)).1
  have chosenOn : ∀ {c}, c ∈ t.choices → ∀ {m}, m ∈ c.entries → v.on m.name = w.on m.name :=
    fun choice _ member => (Entry.same (member_agree agree choice member)).1
  have chosenMet : ∀ {c}, c ∈ t.choices → ∀ {m}, m ∈ c.entries → m.met v = m.met w :=
    fun choice _ member => Entry.met_congr (member_agree agree choice member)
  have bools : ∀ name, defaultIn (Expr.holds v) t.bools name = defaultIn (Expr.holds w) t.bools name :=
    default_congr agree fun e member => List.mem_append_left _ (List.mem_append_left _ member)
  have inStrings : ∀ e ∈ t.strings, e ∈ t.entries := fun e member => List.mem_append_left _ (List.mem_append_right _ member)
  refine ⟨fun name missing => ?_, fun e member forced => ?_, fun e member set => ?_, fun e member unseen default => ?_,
    fun e member => ?_, fun c choice m member set => ?_, fun c choice m member n beside first second => ?_, fun c choice visible => ?_⟩
  · rw [(agree name (List.mem_append_left _ missing)).1]
    exact admitted.undeclared name missing
  · rw [on member]
    exact admitted.selected e member (selected_congr agree forced)
  · rw [on member] at set
    rw [bools]
    exact (admitted.supported e member set).imp (selected_congr back) (Or.imp_left (offered_congr back))
  · rw [on member]
    rw [bools] at default
    exact admitted.hidden e member (Bool.eq_false_iff.mpr fun seen => by simp [offered_congr back seen] at unseen) default
  · rw [default_congr agree inStrings, (entry_agree agree (inStrings e member) e.name List.mem_cons_self).2]
    exact admitted.text e member
  · rw [chosenMet choice member]
    exact admitted.visible c choice m member (chosenOn choice member ▸ set)
  · exact admitted.single c choice m member n beside (chosenOn choice member ▸ first) (chosenOn choice beside ▸ second)
  · obtain ⟨m, member, met⟩ := visible
    obtain ⟨n, beside, set⟩ := admitted.chosen c choice ⟨m, member, chosenMet choice member ▸ met⟩
    exact ⟨n, beside, chosenOn choice beside ▸ set⟩

end Tree

end

end Menu
