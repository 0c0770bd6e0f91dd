import EmbToolkit.Makedevs.Program
import Mathlib.Data.List.DropRight

/-! What `bb_make_directory` promises its callers. The components of the path are made or found one after another in
the caller's own buffer, and a component that is neither leaves the buffer cut behind it unless it is the last. -/

namespace EmbToolkit.Proofs.MakeDirectory
open EmbToolkit.Makedevs Scanf

/-- The directories of a system whose answers agree with them. A call changes no more than it is meant to. -/
structure Directories (sys : System) where
  Node : Type
  /-- The file at the end of a path after some calls. -/
  node : List Event → Text → Option Node
  /-- The mode of a file that is a directory. -/
  mode : List Event → Node → Option Nat
  ancestors : ∀ {calls path n}, node calls path = some n → ∀ cut ∈ (cuts [] path).dropLast, ∃ m, node calls cut = some m ∧ (mode calls m).isSome
  stat_directory : ∀ {calls path}, sys.stat calls path = some .S_IFDIR → ∃ n, node calls path = some n ∧ (mode calls n).isSome
  stat_node : ∀ calls path found, node (calls ++ [.stat path found]) = node calls
  stat_mode : ∀ calls path found, mode (calls ++ [.stat path found]) = mode calls
  mkdir_made : ∀ {calls path}, sys.mkdir calls path = none → ∃ n, mode calls n = none ∧
    node (calls ++ [.mkdir path 0o777 none]) path = some n ∧ (mode (calls ++ [.mkdir path 0o777 none]) n).isSome ∧
    ∀ other, other ≠ n → mode (calls ++ [.mkdir path 0o777 none]) other = mode calls other
  mkdir_node : ∀ calls path error, node (calls ++ [.mkdir path 0o777 (some error)]) = node calls
  mkdir_mode : ∀ calls path error, mode (calls ++ [.mkdir path 0o777 (some error)]) = mode calls
  chmod_node : ∀ calls path bits ok, node (calls ++ [.chmod path bits ok]) = node calls
  chmod_directory : ∀ calls path bits ok n, (mode (calls ++ [.chmod path bits ok]) n).isSome = (mode calls n).isSome
  chmod_mode : ∀ calls path bits ok n, node calls path ≠ some n → mode (calls ++ [.chmod path bits ok]) n = mode calls n
  said_node : ∀ calls path ok, node (calls ++ [.makeDirectory path ok]) = node calls
  said_mode : ∀ calls path ok, mode (calls ++ [.makeDirectory path ok]) = mode calls

namespace Directories
variable {sys : System} (fs : Directories sys)

def IsDirectory (calls : List Event) (path : Text) : Prop := ∃ n, fs.node calls path = some n ∧ (fs.mode calls n).isSome

/-- Every directory keeps its mode. -/
def ModesKept (before after : List Event) : Prop := ∀ n bits, fs.mode before n = some bits → fs.mode after n = some bits

end Directories

/-! ### The components of a path -/

/-- The component is made, or in the recursive mode found to be a directory. -/
inductive Passes (sys : System) (recursive : Bool) (calls : List Event) (cut : Text) : List Event → Prop
  | made (done : sys.mkdir calls cut = none) : Passes sys recursive calls cut (calls ++ [.mkdir cut 0o777 none])
  | there (error : Errno) (failed : sys.mkdir calls cut = some error) (exists_already : error = .EEXIST ∨ error = .EISDIR)
      (mode : recursive = true) (found : sys.stat (calls ++ [.mkdir cut 0o777 (some error)]) cut = some .S_IFDIR) :
      Passes sys recursive calls cut (calls ++ [.mkdir cut 0o777 (some error), .stat cut (some .S_IFDIR)])

/-- Each of the components passes in the state that those before it leave. -/
inductive Leads (sys : System) (recursive : Bool) : List Event → List Text → List Event → Prop
  | nil (calls : List Event) : Leads sys recursive calls [] calls
  | cons {calls later final : List Event} {cut : Text} {rest : List Text} (here : Passes sys recursive calls cut later)
      (others : Leads sys recursive later rest final) : Leads sys recursive calls (cut :: rest) final

/-- All of the components can be made or are directories. -/
def Available (sys : System) (recursive : Bool) (calls : List Event) (components : List Text) : Prop :=
  ∃ final, Leads sys recursive calls components final

/-- The components that `bb_make_directory` goes through, in order. -/
def components (recursive : Bool) (path : Text) : List Text := if recursive then cuts [] path else [path]

/-- The first component that fails: it is refused, or it is the last, has been made and does not get its mode. -/
def Fails (sys : System) (recursive : Bool) (bits : Nat) (calls : List Event) (all : List Text) : Prop :=
  ∃ (done : List Text) (cut : Text) (rest : List Text) (reached : List Event), all = done ++ cut :: rest ∧
    Leads sys recursive calls done reached ∧ ((¬ ∃ later, Passes sys recursive reached cut later) ∨
      rest = [] ∧ sys.mkdir reached cut = none ∧ sys.chmod (reached ++ [.mkdir cut 0o777 none]) cut bits = false)

private theorem cuts_ne_nil (passed rest : Text) : cuts passed rest ≠ [] := by
  induction rest generalizing passed with
  | nil => exact List.cons_ne_nil _ _
  | cons c rest ih =>
    cases rest with
    | nil => exact List.cons_ne_nil _ _
    | cons d rest =>
      unfold cuts
      split
      · exact List.cons_ne_nil _ _
      · exact ih _

private theorem cuts_last (passed rest : Text) : (cuts passed rest).getLast (cuts_ne_nil passed rest) = passed ++ rest := by
  induction rest generalizing passed with
  | nil => exact (List.append_nil passed).symm
  | cons c rest ih =>
    have onward : passed ++ c :: rest = (passed ++ [c]) ++ rest := by simp
    cases rest with
    | nil => rfl
    | cons d rest =>
      rw [onward, ← ih (passed ++ [c])]
      simp only [cuts]
      split
      · exact List.getLast_cons (cuts_ne_nil _ _)
      · rfl

private theorem cuts_cons (passed : Text) (c : Char) (rest : Text) : cuts passed (c :: rest) =
    (if c = '/' ∧ rest.head?.any (· ≠ '/') then [passed ++ [c]] else []) ++ cuts (passed ++ [c]) rest := by
  cases rest with
  | nil => simp [cuts]
  | cons d rest =>
    by_cases here : c = '/' ∧ d ≠ '/' <;> simp [cuts, here]

private theorem another_iff (rest : Text) : rest.head?.any (· ≠ '/') ↔ ∃ d ∈ rest.head?, d ≠ '/' := by
  cases rest with
  | nil => simp
  | cons d rest => simp

/-- The cuts are the path and what ends in a slash where another name follows. -/
theorem mem_cuts {passed rest cut : Text} : cut ∈ cuts passed rest ↔
    ∃ front back, rest = front ++ back ∧ cut = passed ++ front ∧ (back = [] ∨ front.getLast? = some '/' ∧ ∃ c ∈ back.head?, c ≠ '/') := by
  induction rest generalizing passed with
  | nil =>
    simp only [cuts, List.mem_singleton]
    constructor
    · rintro rfl
      exact ⟨[], [], rfl, by simp, Or.inl rfl⟩
    · rintro ⟨front, back, shape, rfl, -⟩
      obtain ⟨rfl, -⟩ := List.append_eq_nil_iff.mp shape.symm
      simp
  | cons c rest ih =>
    rw [cuts_cons, List.mem_append, ih]
    constructor
    · rintro (here | ⟨front, back, rfl, rfl, ends⟩)
      · split at here
        · next slash =>
          obtain rfl := List.mem_singleton.mp here
          exact ⟨[c], rest, rfl, rfl, Or.inr ⟨by simp [slash.1], (another_iff rest).mp slash.2⟩⟩
        · simp at here
      · refine ⟨c :: front, back, rfl, by simp, ends.imp_right fun ⟨slash, next⟩ => ⟨?_, next⟩⟩
        simp [List.getLast?_cons, slash]
    · rintro ⟨front, back, shape, rfl, ends⟩
      rcases front with _ | ⟨first, front⟩
      · rcases ends with rfl | ⟨slash, -⟩
        · simp at shape
        · simp at slash
      · obtain ⟨rfl, rfl⟩ := List.cons.inj shape
        by_cases short : front = [] ∧ back ≠ []
        · obtain ⟨rfl, more⟩ := short
          obtain ⟨slash, next⟩ := ends.resolve_left more
          left
          have slash' : c = '/' := by simpa using slash
          rw [if_pos ⟨slash', (another_iff _).mpr next⟩]
          simp
        · right
          refine ⟨front, back, rfl, by simp, ?_⟩
          by_cases none : back = []
          · exact Or.inl none
          · obtain ⟨slash, next⟩ := ends.resolve_left none
            have more : front ≠ [] := fun empty => short ⟨empty, none⟩
            rw [List.getLast?_cons] at slash
            obtain ⟨d, last⟩ := Option.isSome_iff_exists.mp (List.getLast?_isSome.mpr more)
            rw [last] at slash ⊢
            exact Or.inr ⟨slash, next⟩

theorem cuts_of_cut {path cut below : Text} (inside : cut ∈ cuts [] path) (inner : below ∈ cuts [] cut) : below ∈ cuts [] path := by
  obtain ⟨front, back, rfl, rfl, ends⟩ := mem_cuts.mp inside
  obtain ⟨first, second, rfl, rfl, stops⟩ := mem_cuts.mp inner
  refine mem_cuts.mpr ⟨below, second ++ back, by simp, rfl, ?_⟩
  rcases second with _ | ⟨c, second⟩
  · simpa using ends
  · exact Or.inr (stops.resolve_left (List.cons_ne_nil c second))

/-- A component before the last ends before the path does. -/
private theorem cuts_shorter (passed rest : Text) : ∀ cut ∈ (cuts passed rest).dropLast, cut.length < (passed ++ rest).length := by
  induction rest generalizing passed with
  | nil => simp [cuts]
  | cons c rest ih =>
    have onward : passed ++ c :: rest = (passed ++ [c]) ++ rest := by simp
    intro cut inside
    rw [onward]
    rw [cuts_cons, List.dropLast_append_of_ne_nil (cuts_ne_nil _ _), List.mem_append] at inside
    rcases inside with here | later
    · split at here
      · next slash =>
        obtain rfl := List.mem_singleton.mp here
        obtain ⟨d, follows, -⟩ := (another_iff rest).mp slash.2
        obtain ⟨tail, rfl⟩ : ∃ tail, rest = d :: tail := List.head?_eq_some_iff.mp follows
        simp
      · simp at here
    · exact ih (passed ++ [c]) cut later

theorem components_split (recursive : Bool) (path : Text) :
    components recursive path = (components recursive path).dropLast ++ [path] := by
  cases recursive with
  | false => rfl
  | true =>
    have last := List.dropLast_concat_getLast (cuts_ne_nil [] path)
    rw [cuts_last, List.nil_append] at last
    exact last.symm

private theorem ancestor_ne {recursive : Bool} {path cut : Text} (inside : cut ∈ (components recursive path).dropLast) : cut ≠ path := by
  cases recursive with
  | false => simp [components] at inside
  | true =>
    rintro rfl
    exact Nat.lt_irrefl _ (cuts_shorter [] cut cut inside)

/-! ### The loop -/

/-- The path of a call that looks for a file or makes a directory. -/
def searchedPath : Event → Option Text
  | .mkdir path _ _ => some path
  | .stat path _ => some path
  | _ => none

/-- The path of a call that makes a node or is to change the owner or the mode of a file. -/
def changedPath : Event → Option Text
  | .chmod path _ _ => some path
  | .chown path _ _ _ => some path
  | .mknod path _ _ _ _ => some path
  | _ => none

section
variable {sys : System} {recursive : Bool} {bits mask : Nat} {cut path : Text} {rest : List Text} {p : Process} {later : List Event}

private theorem passes_on (here : Passes sys recursive p.events cut later) (more : rest ≠ []) :
    makeDirectories sys bits mask recursive (cut :: rest) p = makeDirectories sys bits mask recursive rest { p with events := later } := by
  cases here with
  | made done => simp [makeDirectories, mkdir, done, more, Process.log]
  | there error failed exists_already mode found =>
    have known : ¬ (error ≠ .EEXIST ∧ error ≠ .EISDIR) := by
      rintro ⟨first, second⟩
      exact exists_already.elim first second
    simp [makeDirectories, mkdir, stat, failed, found, known, mode, more, Process.log]

private theorem refused (bits mask : Nat) (rest : List Text) (never : ¬ ∃ later, Passes sys recursive p.events cut later) :
    ∃ calls, makeDirectories sys bits mask recursive (cut :: rest) p = ⟨false, cut, { p with events := p.events ++ calls, umask := mask }⟩ ∧
      calls.filterMap changedPath = [] ∧ ∀ searched ∈ calls.filterMap searchedPath, searched = cut := by
  rcases answer : sys.mkdir p.events cut with _ | error
  · exact absurd ⟨_, .made answer⟩ never
  · by_cases unknown : (error ≠ .EEXIST ∧ error ≠ .EISDIR) ∨ recursive = false
    · refine ⟨[.mkdir cut 0o777 (some error)], ?_, rfl, by simp [searchedPath]⟩
      simp [makeDirectories, mkdir, answer, unknown, Process.log]
    · rw [not_or, Bool.not_eq_false] at unknown
      obtain ⟨known, mode⟩ := unknown
      have exists_already : error = .EEXIST ∨ error = .EISDIR := by
        by_contra neither
        exact known (not_or.mp neither)
      have missing : sys.stat (p.events ++ [.mkdir cut 0o777 (some error)]) cut ≠ some .S_IFDIR :=
        fun found => never ⟨_, .there error answer exists_already mode found⟩
      refine ⟨[.mkdir cut 0o777 (some error), .stat cut (sys.stat (p.events ++ [.mkdir cut 0o777 (some error)]) cut)], ?_, rfl,
        by simp [searchedPath]⟩
      simp [makeDirectories, mkdir, stat, answer, known, mode, missing, Process.log]

private theorem last_made (done : sys.mkdir p.events path = none) : makeDirectories sys bits mask recursive [path] p =
    ⟨sys.chmod (p.events ++ [.mkdir path 0o777 none]) path bits, path, { p with
      events := p.events ++ [.mkdir path 0o777 none, .chmod path bits (sys.chmod (p.events ++ [.mkdir path 0o777 none]) path bits)]
      umask := mask }⟩ := by
  simp [makeDirectories, mkdir, Makedevs.chmod, done, Process.log]

private theorem last_there {error : Errno} (failed : sys.mkdir p.events path = some error) (exists_already : error = .EEXIST ∨ error = .EISDIR)
    (mode : recursive = true) (found : sys.stat (p.events ++ [.mkdir path 0o777 (some error)]) path = some .S_IFDIR) :
    makeDirectories sys bits mask recursive [path] p = ⟨true, path, { p with
      events := p.events ++ [.mkdir path 0o777 (some error), .stat path (some .S_IFDIR)], umask := mask }⟩ := by
  have known : ¬ (error ≠ .EEXIST ∧ error ≠ .EISDIR) := by
    rintro ⟨first, second⟩
    exact exists_already.elim first second
  simp [makeDirectories, mkdir, stat, failed, found, known, mode, Process.log]

/-- The components that pass are left behind. -/
private theorem leads_on (bits mask : Nat) {ancestors : List Text} {final : List Event} (led : Leads sys recursive p.events ancestors final) (more : rest ≠ []) :
    makeDirectories sys bits mask recursive (ancestors ++ rest) p = makeDirectories sys bits mask recursive rest { p with events := final } := by
  induction ancestors generalizing p with
  | nil =>
    cases led
    rfl
  | cons cut others ih =>
    cases led with
    | cons here led =>
      rw [List.cons_append, passes_on here (by simp [more])]
      exact ih led

/-- Components one of which does not pass. -/
private theorem stops_at (bits mask : Nat) (rest : List Text) {ancestors : List Text} (stuck : ¬ Available sys recursive p.events ancestors) :
    ∃ cut ∈ ancestors, ∃ final, makeDirectories sys bits mask recursive (ancestors ++ rest) p =
      ⟨false, cut, { p with events := final, umask := mask }⟩ := by
  induction ancestors generalizing p with
  | nil => exact absurd ⟨_, .nil p.events⟩ stuck
  | cons cut others ih =>
    by_cases here : ∃ later, Passes sys recursive p.events cut later
    · obtain ⟨later, here⟩ := here
      have onward : ¬ Available sys recursive later others := by
        rintro ⟨final, led⟩
        exact stuck ⟨final, .cons here led⟩
      have nonempty : others ++ rest ≠ [] := by
        intro empty
        obtain ⟨rfl, -⟩ := List.append_eq_nil_iff.mp empty
        exact onward ⟨later, .nil later⟩
      obtain ⟨stop, inside, final, stopped⟩ := ih (p := { p with events := later }) onward
      refine ⟨stop, List.mem_cons_of_mem cut inside, final, ?_⟩
      rw [List.cons_append, passes_on here nonempty, stopped]
    · obtain ⟨calls, stopped, -⟩ := refused bits mask (others ++ rest) here
      exact ⟨cut, List.mem_cons_self, p.events ++ calls, stopped⟩

private theorem Passes.unique {calls later other : List Event} (first : Passes sys recursive calls cut later)
    (second : Passes sys recursive calls cut other) : later = other := by
  cases first with
  | made done =>
    cases second with
    | made => rfl
    | there error failed => simp [done] at failed
  | there error failed =>
    cases second with
    | made done => simp [done] at failed
    | there error' failed' =>
      obtain rfl : error = error' := Option.some.inj (failed.symm.trans failed')
      rfl

private theorem fails_cons {calls : List Event} : Fails sys recursive bits calls (cut :: rest) ↔
    (¬ ∃ later, Passes sys recursive calls cut later) ∨
      rest = [] ∧ sys.mkdir calls cut = none ∧ sys.chmod (calls ++ [.mkdir cut 0o777 none]) cut bits = false ∨
      ∃ later, Passes sys recursive calls cut later ∧ Fails sys recursive bits later rest := by
  constructor
  · rintro ⟨done, stop, others, reached, shape, led, reason⟩
    cases led with
    | nil =>
      obtain ⟨rfl, rfl⟩ : cut = stop ∧ rest = others := by simpa using shape
      exact reason.imp_right Or.inl
    | cons here led =>
      obtain ⟨rfl, onward⟩ := List.cons.inj shape
      exact Or.inr (Or.inr ⟨_, here, _, stop, others, reached, onward, led, reason⟩)
  · rintro (never | last | ⟨later, here, done, stop, others, reached, shape, led, reason⟩)
    · exact ⟨[], cut, rest, calls, rfl, .nil calls, Or.inl never⟩
    · exact ⟨[], cut, rest, calls, rfl, .nil calls, Or.inr last⟩
    · exact ⟨cut :: done, stop, others, reached, by rw [shape]; rfl, .cons here led, reason⟩

/-- The loop fails for its first failing component and for no other reason. -/
private theorem loop_fails_iff {all : List Text} (nonempty : all ≠ []) :
    (makeDirectories sys bits mask recursive all p).ok = false ↔ Fails sys recursive bits p.events all := by
  induction all generalizing p with
  | nil => exact absurd rfl nonempty
  | cons cut rest ih =>
    rw [fails_cons]
    by_cases here : ∃ later, Passes sys recursive p.events cut later
    · obtain ⟨later, here⟩ := here
      by_cases last : rest = []
      · subst last
        have nothing : ¬ Fails sys recursive bits later [] := by
          rintro ⟨done, stop, others, reached, shape, -⟩
          simp at shape
        cases here with
        | made done =>
          have passes : Passes sys recursive _ _ _ := .made done
          simp only [last_made done, done, true_and]
          constructor
          · exact fun unset => Or.inr (Or.inl unset)
          · rintro (never | unset | ⟨other, passed, later⟩)
            · exact absurd ⟨_, passes⟩ never
            · exact unset
            · exact absurd (passed.unique passes ▸ later) nothing
        | there error failed exists_already mode found =>
          have passes := Passes.there error failed exists_already mode found
          simp only [last_there failed exists_already mode found, failed]
          constructor
          · simp
          · rintro (never | ⟨-, none, -⟩ | ⟨other, passed, later⟩)
            · exact absurd ⟨_, passes⟩ never
            · simp at none
            · exact absurd (passed.unique passes ▸ later) nothing
      · rw [passes_on here last, ih last]
        constructor
        · exact fun failed => Or.inr (Or.inr ⟨later, here, failed⟩)
        · rintro (never | ⟨none, -⟩ | ⟨other, passed, failed⟩)
          · exact absurd ⟨later, here⟩ never
          · exact absurd none last
          · exact passed.unique here ▸ failed
    · obtain ⟨calls, stopped, -⟩ := refused bits mask rest here
      simp [stopped, here]

private theorem loop_umask {all : List Text} (nonempty : all ≠ []) : (makeDirectories sys bits mask recursive all p).process.umask = mask := by
  induction all generalizing p with
  | nil => exact absurd rfl nonempty
  | cons cut rest ih =>
    by_cases here : ∃ later, Passes sys recursive p.events cut later
    · obtain ⟨later, here⟩ := here
      by_cases last : rest = []
      · subst last
        cases here with
        | made done => rw [last_made done]
        | there error failed exists_already mode found => rw [last_there failed exists_already mode found]
      · rw [passes_on here last, ih last]
    · obtain ⟨calls, stopped, -⟩ := refused bits mask rest here
      rw [stopped]

private theorem Passes.extends {calls : List Event} (here : Passes sys recursive calls cut later) :
    ∃ more, later = calls ++ more ∧ more.filterMap changedPath = [] ∧ ∀ searched ∈ more.filterMap searchedPath, searched = cut := by
  cases here with
  | made done => exact ⟨_, rfl, rfl, by simp [searchedPath]⟩
  | there error failed exists_already mode found => exact ⟨_, rfl, rfl, by simp [searchedPath]⟩

/-- The loop goes to the components only, and changes no file but the one at which it stops. -/
theorem loop_changes (sys : System) (recursive : Bool) (bits mask : Nat) {all : List Text} (nonempty : all ≠ []) :
    ∃ calls, (makeDirectories sys bits mask recursive all p).process.events = p.events ++ calls ∧
      (∀ changed ∈ calls.filterMap changedPath, changed = (makeDirectories sys bits mask recursive all p).left) ∧
      ∀ searched ∈ calls.filterMap searchedPath, searched ∈ all := by
  induction all generalizing p with
  | nil => exact absurd rfl nonempty
  | cons cut rest ih =>
    by_cases here : ∃ later, Passes sys recursive p.events cut later
    · obtain ⟨later, here⟩ := here
      by_cases last : rest = []
      · subst last
        cases here with
        | made done =>
          rw [last_made done]
          exact ⟨_, rfl, by simp [changedPath], by simp [searchedPath]⟩
        | there error failed exists_already mode found =>
          rw [last_there failed exists_already mode found]
          exact ⟨_, rfl, by simp [changedPath], by simp [searchedPath]⟩
      · obtain ⟨more, rfl, unchanged, at_cut⟩ := here.extends
        obtain ⟨calls, run, own, within⟩ := ih (p := { p with events := p.events ++ more }) last
        refine ⟨more ++ calls, ?_, ?_, ?_⟩
        · rw [passes_on here last, run, List.append_assoc]
        · rw [passes_on here last, List.filterMap_append, unchanged, List.nil_append]
          exact own
        · intro searched inside
          rw [List.filterMap_append, List.mem_append] at inside
          rcases inside with first | later
          · exact at_cut searched first ▸ List.mem_cons_self
          · exact List.mem_cons_of_mem cut (within searched later)
    · obtain ⟨calls, stopped, unchanged, at_cut⟩ := refused bits mask rest here
      rw [stopped]
      exact ⟨calls, rfl, by simp [unchanged], fun searched inside => at_cut searched inside ▸ List.mem_cons_self⟩

end

/-! ### Directories -/

section
variable {sys : System} {fs : Directories sys} {recursive : Bool} {calls later : List Event} {cut path : Text}

private theorem made_kept (done : sys.mkdir calls path = none) : fs.ModesKept calls (calls ++ [.mkdir path 0o777 none]) := by
  obtain ⟨n, fresh, -, -, others⟩ := fs.mkdir_made done
  intro other bits held
  have different : other ≠ n := by
    rintro rfl
    simp [fresh] at held
  rw [others other different, held]

private theorem passes_kept (here : Passes sys recursive calls cut later) : fs.ModesKept calls later := by
  cases here with
  | made done => exact made_kept done
  | there error failed exists_already mode found =>
    intro n bits held
    rw [show ∀ a b : Event, calls ++ [a, b] = (calls ++ [a]) ++ [b] by simp, fs.stat_mode, fs.mkdir_mode, held]

private theorem leads_kept {ancestors : List Text} (led : Leads sys recursive calls ancestors later) : fs.ModesKept calls later := by
  induction led with
  | nil calls => exact fun n bits held => held
  | cons here others ih => exact fun n bits held => ih n bits (passes_kept here n bits held)

end

/-! ### The contract -/

/-- What callers of `bb_make_directory` may rely on. -/
structure Contract {sys : System} (fs : Directories sys) (path : Text) (mode : Option Nat) (recursive : Bool) (p : Process) (made : Made) :
    Prop where
  umask : made.process.umask = p.umask
  buffer : made.left = path
  directories : made.ok = true → fs.IsDirectory made.process.events path ∧
    ∀ cut ∈ (cuts [] path).dropLast, fs.IsDirectory made.process.events cut
  modes : made.ok = true → fs.ModesKept p.events made.process.events
  reason : made.ok = false ↔
    Fails sys recursive (mode.getD (0o777 ^^^ (p.umask &&& 0o777))) p.events (components recursive path)

section
variable {sys : System} {recursive : Bool} {bits mask : Nat} {path : Text} {p : Process} {final : List Event}

/-- The call as its loop over the components. -/
private theorem bb_make_directory_eq (sys : System) (recursive : Bool) (path : Text) (p : Process) (mode : Option Nat) : ∃ umask,
    let made := makeDirectories sys (mode.getD (0o777 ^^^ (p.umask &&& 0o777))) p.umask recursive (components recursive path) { p with umask }
    bb_make_directory sys path mode recursive p = { made with process := made.process.log (.makeDirectory path made.ok) } := by
  cases mode with
  | none => exact ⟨p.umask, rfl⟩
  | some mode => exact ⟨p.umask &&& 0o477, rfl⟩

/-- The last component, once all others have passed. -/
private theorem last_component (fs : Directories sys) (kept : fs.ModesKept p.events final) (made : Made)
    (run : made = makeDirectories sys bits mask recursive [path] { p with events := final }) (ok : made.ok = true) :
    fs.IsDirectory made.process.events path ∧ fs.ModesKept p.events made.process.events := by
  subst run
  rcases answer : sys.mkdir final path with _ | error
  · obtain ⟨n, fresh, named, directory, -⟩ := fs.mkdir_made answer
    rw [last_made answer]
    refine ⟨⟨n, ?_, ?_⟩, fun other held_bits held => ?_⟩
    · rw [show ∀ a b : Event, final ++ [a, b] = (final ++ [a]) ++ [b] by simp, fs.chmod_node, named]
    · rw [show ∀ a b : Event, final ++ [a, b] = (final ++ [a]) ++ [b] by simp, fs.chmod_directory, directory]
    · have before : fs.mode final other = some held_bits := kept other held_bits held
      have elsewhere : fs.node (final ++ [.mkdir path 0o777 none]) path ≠ some other := by
        rw [named]
        rintro same
        obtain rfl := Option.some.inj same
        simp [fresh] at before
      rw [show ∀ a b : Event, final ++ [a, b] = (final ++ [a]) ++ [b] by simp, fs.chmod_mode _ _ _ _ _ elsewhere]
      exact made_kept answer other held_bits before
  · by_cases passes : ∃ later, Passes sys recursive final path later
    · obtain ⟨later, passes⟩ := passes
      cases passes with
      | made done => simp [answer] at done
      | there error' failed exists_already mode found =>
        rw [last_there failed exists_already mode found]
        have unchanged_node : fs.node (final ++ [.mkdir path 0o777 (some error'), .stat path (some .S_IFDIR)]) = fs.node final := by
          rw [show ∀ a b : Event, final ++ [a, b] = (final ++ [a]) ++ [b] by simp, fs.stat_node, fs.mkdir_node]
        have unchanged_mode : fs.mode (final ++ [.mkdir path 0o777 (some error'), .stat path (some .S_IFDIR)]) = fs.mode final := by
          rw [show ∀ a b : Event, final ++ [a, b] = (final ++ [a]) ++ [b] by simp, fs.stat_mode, fs.mkdir_mode]
        obtain ⟨n, named, directory⟩ := fs.stat_directory found
        rw [fs.mkdir_node] at named
        rw [fs.mkdir_mode] at directory
        refine ⟨⟨n, ?_, ?_⟩, fun other held_bits held => ?_⟩
        · exact (congrFun unchanged_node path).trans named
        · exact (congrArg Option.isSome (congrFun unchanged_mode n)).trans directory
        · exact (congrFun unchanged_mode other).trans (kept other held_bits held)
    · obtain ⟨_, stopped, -⟩ := refused (p := { p with events := final }) bits mask [] passes
      simp [stopped] at ok

private theorem last_left : (makeDirectories sys bits mask recursive [path] p).left = path := by
  by_cases here : ∃ later, Passes sys recursive p.events path later
  · obtain ⟨later, here⟩ := here
    cases here with
    | made done => rw [last_made done]
    | there error failed exists_already mode found => rw [last_there failed exists_already mode found]
  · obtain ⟨_, stopped, -⟩ := refused bits mask [] here
    rw [stopped]

end

/-- The files whose owner or mode the calls after `before` are to change. -/
def changedSince (before after : List Event) : List Text := (after.drop before.length).filterMap changedPath

section
variable {sys : System} {recursive : Bool} {path : Text} {p : Process}

private theorem components_ne_nil (recursive : Bool) (path : Text) : components recursive path ≠ [] := by
  rw [components_split]
  simp

private theorem available_run (mode : Option Nat) {final : List Event} (led : Leads sys recursive p.events (components recursive path).dropLast final) :
    ∃ umask, let made := makeDirectories sys (mode.getD (0o777 ^^^ (p.umask &&& 0o777))) p.umask recursive [path] { p with events := final, umask }
      bb_make_directory sys path mode recursive p = { made with process := made.process.log (.makeDirectory path made.ok) } := by
  obtain ⟨umask, call⟩ := bb_make_directory_eq sys recursive path p mode
  have run := leads_on (p := { p with umask }) (mode.getD (0o777 ^^^ (p.umask &&& 0o777))) p.umask led
    (List.cons_ne_nil path [])
  rw [← components_split] at run
  rw [run] at call
  exact ⟨umask, call⟩

/-- The buffer is what it was exactly when the components before the last are available, and also whenever the result is 0. -/
private theorem left_iff (mode : Option Nat) : (bb_make_directory sys path mode recursive p).left = path ↔
    Available sys recursive p.events (components recursive path).dropLast := by
  constructor
  · intro left
    obtain ⟨umask, call⟩ := bb_make_directory_eq sys recursive path p mode
    by_contra stuck
    obtain ⟨cut, inside, final, stopped⟩ :=
      stops_at (p := { p with umask }) (mode.getD (0o777 ^^^ (p.umask &&& 0o777))) p.umask [path] stuck
    rw [← components_split] at stopped
    rw [call, stopped] at left
    exact ancestor_ne inside left
  · rintro ⟨final, led⟩
    obtain ⟨umask, call⟩ := available_run mode led
    rw [call]
    exact last_left

private theorem directory_of_ok (fs : Directories sys) (mode : Option Nat)
    (available : Available sys recursive p.events (components recursive path).dropLast)
    (ok : (bb_make_directory sys path mode recursive p).ok = true) :
    fs.IsDirectory (bb_make_directory sys path mode recursive p).process.events path ∧
      fs.ModesKept p.events (bb_make_directory sys path mode recursive p).process.events := by
  obtain ⟨final, led⟩ := available
  obtain ⟨umask, call⟩ := available_run mode led
  rw [call] at ok ⊢
  obtain ⟨⟨n, named, marked⟩, kept⟩ := last_component (p := { p with umask }) fs (leads_kept led) _ rfl ok
  refine ⟨⟨n, ?_, ?_⟩, fun other bits held => ?_⟩
  · simpa only [Process.log_events, fs.said_node] using named
  · simpa only [Process.log_events, fs.said_mode] using marked
  · simpa only [Process.log_events, fs.said_mode] using kept other bits held

/-- What a call adds to the events. -/
theorem call_changes (sys : System) (recursive : Bool) (path : Text) (p : Process) (mode : Option Nat) : ∃ calls,
    (bb_make_directory sys path mode recursive p).process.events =
      p.events ++ (calls ++ [.makeDirectory path (bb_make_directory sys path mode recursive p).ok]) ∧
    (∀ changed ∈ calls.filterMap changedPath, changed = (bb_make_directory sys path mode recursive p).left) ∧
    ∀ searched ∈ calls.filterMap searchedPath, searched ∈ components recursive path := by
  obtain ⟨umask, call⟩ := bb_make_directory_eq sys recursive path p mode
  obtain ⟨calls, grown, own, within⟩ :=
    loop_changes (p := { p with umask }) sys recursive (mode.getD (0o777 ^^^ (p.umask &&& 0o777))) p.umask (components_ne_nil recursive path)
  rw [call]
  refine ⟨calls, ?_, own, within⟩
  rw [← List.append_assoc, ← grown]
  rfl

private theorem setMode_changes (sys : System) (left : Text) (mode : Nat) (q : Process) : ∃ calls,
    (setMode sys left mode q).events = q.events ++ calls ∧ ∀ changed ∈ calls.filterMap changedPath, changed = left := by
  unfold setMode
  split
  · exact ⟨[], by simp, by simp⟩
  · refine ⟨[.chmod left mode (Makedevs.chmod sys left mode q).1], ?_, by simp [changedPath]⟩
    simp only [apply_ite Process.events, Process.fail_events, ite_self, chmod_events]

private theorem directoryEntry_changes (mode uid gid : Nat) {calls : List Event}
    (grown : (bb_make_directory sys path (some (mode ||| S_IFDIR)) true p).process.events = p.events ++ calls) : ∃ rest,
    changedSince p.events (directoryEntry sys path mode uid gid p).events =
      calls.filterMap changedPath ++ (bb_make_directory sys path (some (mode ||| S_IFDIR)) true p).left :: rest ∧
      ∀ changed ∈ rest, changed = (bb_make_directory sys path (some (mode ||| S_IFDIR)) true p).left := by
  unfold directoryEntry changedSince
  dsimp only
  split
  · obtain ⟨more, run, own⟩ := setMode_changes sys (bb_make_directory sys path (some (mode ||| S_IFDIR)) true p).left mode
      (chown sys (bb_make_directory sys path (some (mode ||| S_IFDIR)) true p).left uid gid
        (bb_make_directory sys path (some (mode ||| S_IFDIR)) true p).process).2
    refine ⟨more.filterMap changedPath, ?_, own⟩
    rw [run, chown_events, grown, List.append_assoc, List.append_assoc, List.drop_left]
    simp [changedPath]
  · refine ⟨[], ?_, by simp⟩
    rw [Process.fail_events, chown_events, grown, List.append_assoc, List.drop_left]
    simp [changedPath]

private theorem entry_changes (mode uid gid : Nat) :
    (∀ changed ∈ changedSince p.events (directoryEntry sys path mode uid gid p).events, changed = path) ↔
      (bb_make_directory sys path (some (mode ||| S_IFDIR)) true p).left = path := by
  obtain ⟨calls, told, stops, -⟩ := call_changes sys true path p (some (mode ||| S_IFDIR))
  obtain ⟨rest, shape, others⟩ := directoryEntry_changes mode uid gid told
  rw [shape]
  constructor
  · exact fun all => all _ (by simp)
  · intro left changed inside
    rw [List.filterMap_append, List.mem_append, List.mem_append, List.mem_cons] at inside
    rcases inside with (earlier | said) | rfl | later
    · exact (stops changed earlier).trans left
    · simp [changedPath] at said
    · exact left
    · exact (others changed later).trans left

end

/-- `bb_make_directory` keeps its contract, and `main` changes the directory of the entry and no other file, exactly
when every component but the last can be made or is a directory already. -/
theorem contract_iff {sys : System} (fs : Directories sys) (path : Text) (p : Process) :
    (∀ mode recursive, Contract fs path mode recursive p (bb_make_directory sys path mode recursive p) ↔
      Available sys recursive p.events (components recursive path).dropLast) ∧
    ∀ mode uid gid, (∀ changed ∈ changedSince p.events (directoryEntry sys path mode uid gid p).events, changed = path) ↔
      Available sys true p.events (components true path).dropLast := by
  refine ⟨fun mode recursive => ⟨fun contract => (left_iff mode).mp contract.buffer, fun available => ?_⟩, fun mode uid gid => ?_⟩
  · obtain ⟨umask, call⟩ := bb_make_directory_eq sys recursive path p mode
    refine ⟨?_, (left_iff mode).mpr available, fun ok => ?_, fun ok => (directory_of_ok fs mode available ok).2, ?_⟩
    · rw [call]
      exact loop_umask (components_ne_nil recursive path)
    · obtain ⟨n, named, marked⟩ := (directory_of_ok fs mode available ok).1
      exact ⟨⟨n, named, marked⟩, fun cut inside => fs.ancestors named cut inside⟩
    · rw [call]
      exact loop_fails_iff (components_ne_nil recursive path)
  · rw [entry_changes, left_iff]

/-! ### A disk -/

section
variable (present : List Text) (writable : Bool)

/-- A path without the slashes at its end. -/
def bare (path : Text) : Text := path.rdropWhile (· = '/')

/-- The directories there were and those that have been made. -/
def held (calls : List Event) : List Text :=
  present ++ calls.filterMap fun call => match call with
    | .mkdir path _ none => some (bare path)
    | _ => none

def holdsAll (calls : List Event) (paths : List Text) : Bool := paths.all fun path => bare path ∈ held present calls

/-- A disk whose directories all have one mode, which is full or is not. -/
def disk : System where
  mkdir calls path :=
    if bare path ∈ held present calls then some .EEXIST
    else if holdsAll present calls (cuts [] path).dropLast && writable then none
    else some .other
  stat calls path := if holdsAll present calls (cuts [] path) then some .S_IFDIR else none
  chmod calls path _ := holdsAll present calls (cuts [] path)
  chown calls path _ _ := holdsAll present calls (cuts [] path)
  mknod _ _ _ _ _ := writable
  getpwnam _ := none
  getgrnam _ := none
  getuid := 0
  getgid := 0

end

section
variable {present : List Text} {writable : Bool}

private theorem held_concat (calls : List Event) (call : Event) : held present (calls ++ [call]) =
    held present calls ++ (match call with | .mkdir path _ none => [bare path] | _ => []) := by
  rw [held, held, List.filterMap_append, List.append_assoc]
  congr 2
  cases call with
  | mkdir path mode error => cases error <;> rfl
  | _ => rfl

private theorem last_held {calls : List Event} {path : Text} (all : holdsAll present calls (cuts [] path) = true) :
    bare path ∈ held present calls := by
  have last := components_split true path
  rw [show components true path = cuts [] path from rfl] at last
  rw [last, holdsAll, List.all_eq_true] at all
  simpa using all path (by simp)

private theorem holdsAll_mono {calls more : List Event} {paths : List Text} (within : ∀ path ∈ held present calls, path ∈ held present more)
    (all : holdsAll present calls paths = true) : holdsAll present more paths = true := by
  simp only [holdsAll, List.all_eq_true, decide_eq_true_eq] at all ⊢
  exact fun path inside => within _ (all path inside)

/-- The directories of such a disk, each known by its path. -/
def diskDirectories (present : List Text) (writable : Bool) : Directories (disk present writable) where
  Node := Text
  node calls path := if holdsAll present calls (cuts [] path) then some (bare path) else none
  mode calls n := if n ∈ held present calls then some 0o755 else none
  ancestors := by
    intro calls path n named cut inside
    have all : holdsAll present calls (cuts [] path) = true := by
      by_contra missing
      simp [missing] at named
    have above : holdsAll present calls (cuts [] cut) = true := by
      rw [holdsAll, List.all_eq_true] at all ⊢
      exact fun below inner => all below (cuts_of_cut (List.dropLast_subset _ inside) inner)
    exact ⟨bare cut, if_pos above, by rw [if_pos (last_held above)]; rfl⟩
  stat_directory := by
    intro calls path found
    have all : holdsAll present calls (cuts [] path) = true := by
      by_contra missing
      simp [disk, missing] at found
    exact ⟨bare path, if_pos all, by rw [if_pos (last_held all)]; rfl⟩
  stat_node calls path found := by simp [holdsAll, held_concat]
  stat_mode calls path found := by simp [held_concat]
  mkdir_made := by
    intro calls path made
    simp only [disk, Bool.and_eq_true] at made
    split at made
    · simp at made
    · next absent =>
      split at made
      · next parents =>
        have grown : held present (calls ++ [.mkdir path 0o777 none]) = held present calls ++ [bare path] := held_concat calls _
        have all : holdsAll present (calls ++ [.mkdir path 0o777 none]) (cuts [] path) = true := by
          have last := components_split true path
          rw [show components true path = cuts [] path from rfl] at last
          rw [last, holdsAll, List.all_append, ← holdsAll]
          have kept : holdsAll present (calls ++ [.mkdir path 0o777 none]) _ = true :=
            holdsAll_mono (fun held inside => by simp [grown, inside]) parents.1
          simp [kept, grown]
        refine ⟨bare path, if_neg absent, if_pos all, by rw [if_pos (last_held all)]; rfl, fun other different => ?_⟩
        simp [grown, different]
      · simp at made
  mkdir_node calls path error := by simp [holdsAll, held_concat]
  mkdir_mode calls path error := by simp [held_concat]
  chmod_node calls path bits ok := by simp [holdsAll, held_concat]
  chmod_directory calls path bits ok n := by simp [held_concat]
  chmod_mode calls path bits ok n elsewhere := by simp [held_concat]
  said_node calls path ok := by simp [holdsAll, held_concat]
  said_mode calls path ok := by simp [held_concat]

end

/-- On a full disk the buffer is left cut after the first directory that is missing. -/
theorem full_disk_truncates : ¬ ((∀ mode recursive, Contract (diskDirectories [] false) "dev/pts".toList mode recursive
      { events := [], umask := 0, ret := false }
      (bb_make_directory (disk [] false) "dev/pts".toList mode recursive { events := [], umask := 0, ret := false })) ∧
    ∀ mode uid gid, ∀ changed ∈ changedSince [] (directoryEntry (disk [] false) "dev/pts".toList mode uid gid
      { events := [], umask := 0, ret := false }).events, changed = "dev/pts".toList) := by
  rintro ⟨contract, -⟩
  have cut : (bb_make_directory (disk [] false) "dev/pts".toList (some 0o040755) true { events := [], umask := 0, ret := false }).left =
      "dev/".toList := by decide +kernel
  exact absurd (cut.symm.trans (contract (some 0o040755) true).buffer) (by decide)

end EmbToolkit.Proofs.MakeDirectory
