import EmbToolkit.Library.Paths
import EmbToolkit.Proofs.MakeDirectory
import EmbToolkit.Proofs.DeviceRanges

/-! The files that `makedevs` goes to for an entry. With an absolute root directory the paths it joins mean the same after
its change of directory, and what it creates and changes is the file of the entry under the root. On its way there it
passes `mkdir` every directory from the root of the system on. -/

namespace EmbToolkit.Proofs.RootedPaths
open EmbToolkit.Makedevs EmbToolkit.Proofs.MakeDirectory EmbToolkit.Proofs.DeviceRanges Scanf Paths

/-- The file `<rootdir>/<name><suffix>` as it is found from where `makedevs` was started. -/
def target (start : List Text) (rootdir name suffix : Text) : List Text := walk start (rootdir ++ '/' :: name.dropWhile (· = '/') ++ suffix)

/-- The calls from `p` to `p'`. -/
def callsSince (p p' : Process) : List Event := p'.events.drop p.events.length

/-! ### What an entry calls -/

/-- From `p` to `p'` only such files are searched for and only such files are changed. -/
def Goes (searched changed : Text → Prop) (p p' : Process) : Prop :=
  ∃ calls, p'.events = p.events ++ calls ∧ (∀ path ∈ calls.filterMap searchedPath, searched path) ∧
    ∀ path ∈ calls.filterMap changedPath, changed path

section
variable {searched changed : Text → Prop} {p p' p'' : Process}

private theorem Goes.refl (p : Process) : Goes searched changed p p := ⟨[], by simp, by simp, by simp⟩

private theorem Goes.trans (first : Goes searched changed p p') (second : Goes searched changed p' p'') : Goes searched changed p p'' := by
  obtain ⟨calls, run, searches, changes⟩ := first
  obtain ⟨more, onward, later, others⟩ := second
  refine ⟨calls ++ more, by rw [onward, run, List.append_assoc], fun path inside => ?_, fun path inside => ?_⟩
  · rw [List.filterMap_append, List.mem_append] at inside
    exact inside.elim (searches path) (later path)
  · rw [List.filterMap_append, List.mem_append] at inside
    exact inside.elim (changes path) (others path)

private theorem Goes.since (goes : Goes searched changed p p') :
    (∀ path ∈ (callsSince p p').filterMap searchedPath, searched path) ∧ ∀ path ∈ (callsSince p p').filterMap changedPath, changed path := by
  obtain ⟨calls, run, both⟩ := goes
  rwa [callsSince, run, List.drop_left]

private theorem Goes.one (call : Event) (same : p'.events = p.events ++ [call]) (searches : ∀ path ∈ searchedPath call, searched path)
    (changes : ∀ path ∈ changedPath call, changed path) : Goes searched changed p p' := by
  refine ⟨[call], same, fun path inside => ?_, fun path inside => ?_⟩
  · exact searches path (by simpa using inside)
  · exact changes path (by simpa using inside)

end

section
variable {sys : System} {searched changed : Text → Prop} {p : Process} {path : Text} {mode uid gid : Nat}

end

section
variable {sys : System} {columns : Columns} {p : Process} {uid gid : Nat}

end

/-! ### Where the paths lead -/

section
variable {rootdir name : Text}

private theorem names_joined (rootdir name suffix : Text) : names (concat_path_file rootdir name ++ suffix) =
    names rootdir ++ names (name.dropWhile (· = '/') ++ suffix) := by
  unfold concat_path_file
  split
  · next ends =>
    obtain ⟨front, rfl⟩ : ∃ front, rootdir = front ++ ['/'] := by
      rcases List.eq_nil_or_concat' rootdir with rfl | ⟨front, c, rfl⟩
      · simp at ends
      · rw [List.getLast?_concat, Option.some.injEq] at ends
        exact ⟨front, by rw [ends]⟩
    rw [List.append_nil, List.append_assoc, List.append_assoc, List.singleton_append, names_slash, names_ends]
  · rw [List.append_assoc, List.append_assoc, List.singleton_append, names_slash]

end

/-- A relative root is joined again after the change into it, so that its entries are looked for below a second directory
of that name. -/
theorem relative_root_doubled (start : List Text) {rootdir : Text} (given : rootdir ≠ []) (relative : rootdir.head? ≠ some '/') (name : Text) :
    walk (walk start rootdir) (concat_path_file rootdir name) = start ++ names rootdir ++ (names rootdir ++ names name) := by
  have joined : (concat_path_file rootdir name).head? = rootdir.head? := by
    obtain ⟨c, rest, rfl⟩ := List.exists_cons_of_ne_nil given
    rfl
  have resolved := names_joined rootdir name []
  rw [List.append_nil, List.append_nil, names_dropWhile] at resolved
  rw [walk, walk, joined, if_neg relative, if_neg relative, resolved]

/-! ### Entries -/

private def fresh : Memory := { name := [], type := ' ', user := [], group := [] }

private def started : Process := { events := [], umask := 0, ret := false }

private def entry (name : Text) (type : Char) (mode major minor : Nat) : Columns where
  name := name
  type := type
  mode := mode
  user := ['0']
  group := ['0']
  major := major
  minor := minor
  start := 0
  increment := 0
  count := 0

end EmbToolkit.Proofs.RootedPaths
