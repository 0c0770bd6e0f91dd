import Mathlib.Data.List.Dedup
import Mathlib.Data.List.Infix
import Mathlib.Tactic.Common

/-! A directory tree as the set of the paths that exist in it, and the commands of a build system that change it. What
exists has a directory that exists, so that a path leads to everything on the way to it. -/

namespace Files

/-- The components of a path. -/
abbrev Path := List String

structure FileTree where
  entries : List Path
  closed : ∀ path ∈ entries, path.dropLast ∈ entries

namespace FileTree

instance : Membership Path FileTree := ⟨fun t path => path ∈ t.entries⟩

instance (path : Path) (t : FileTree) : Decidable (path ∈ t) := inferInstanceAs (Decidable (path ∈ t.entries))

variable {path entry : Path} {t : FileTree}

theorem mem_entries : path ∈ t ↔ path ∈ t.entries := Iff.rfl

/-- What is on the way to an existing path exists. -/
theorem mem_of_prefix {stem : Path} (there : path ∈ t) (before : stem <+: path) : stem ∈ t := by
  obtain ⟨rest, rfl⟩ := before
  induction rest using List.reverseRecOn with
  | nil => simpa using there
  | append_singleton rest last ih =>
    refine ih ?_
    have parent := t.closed _ there
    rwa [← List.append_assoc, List.dropLast_concat] at parent

private theorem parent_before (path : Path) : path.dropLast <+: path := List.dropLast_prefix path

/-- `mkdir -p path` -/
def mkdir (t : FileTree) (path : Path) : FileTree where
  entries := path.inits ++ t.entries
  closed := by
    intro entry there
    rcases List.mem_append.mp there with new | old
    · exact List.mem_append_left _ ((List.mem_inits _ _).mpr ((parent_before entry).trans ((List.mem_inits _ _).mp new)))
    · exact List.mem_append_right _ (t.closed entry old)

@[simp] theorem mem_mkdir : entry ∈ t.mkdir path ↔ entry <+: path ∨ entry ∈ t := by
  rw [mem_entries, mkdir, List.mem_append, List.mem_inits]
  rfl

/-- `touch path`, or writing a file: nothing comes of it where there is no directory. -/
def touch (t : FileTree) (path : Path) : FileTree :=
  if parent : path.dropLast ∈ t.entries then
    { entries := path :: t.entries
      closed := by
        intro entry there
        rcases List.mem_cons.mp there with rfl | old
        · exact List.mem_cons_of_mem _ parent
        · exact List.mem_cons_of_mem _ (t.closed entry old) }
  else t

@[simp] theorem mem_touch : entry ∈ t.touch path ↔ (entry = path ∧ path.dropLast ∈ t) ∨ entry ∈ t := by
  unfold touch
  split
  · next parent => simp [mem_entries, parent]
  · next absent => simp [mem_entries, absent]

/-- `rm -rf` of everything that the pattern matches. -/
def remove (t : FileTree) (pattern : Path → Bool) : FileTree where
  entries := t.entries.filter fun path => path.inits.all fun stem => !pattern stem
  closed := by
    intro entry there
    obtain ⟨old, kept⟩ := List.mem_filter.mp there
    refine List.mem_filter.mpr ⟨t.closed entry old, List.all_eq_true.mpr fun stem before => ?_⟩
    have within := ((List.mem_inits _ _).mp before).trans (parent_before entry)
    exact List.all_eq_true.mp kept stem ((List.mem_inits _ _).mpr within)

@[simp] theorem mem_remove {pattern : Path → Bool} :
    entry ∈ t.remove pattern ↔ entry ∈ t ∧ ∀ stem, stem <+: entry → pattern stem = false := by
  rw [mem_entries, remove, List.mem_filter]
  simp [mem_entries]

/-- `$(wildcard pattern)` -/
def wildcard (t : FileTree) (pattern : Path → Bool) : List Path := (t.entries.filter pattern).dedup

@[simp] theorem mem_wildcard {pattern : Path → Bool} : path ∈ t.wildcard pattern ↔ path ∈ t ∧ pattern path = true := by
  simp [wildcard, mem_entries]

theorem wildcard_eq_nil {pattern : Path → Bool} : t.wildcard pattern = [] ↔ ∀ path ∈ t, pattern path = false := by
  simp [List.eq_nil_iff_forall_not_mem]

/-- A pattern that can only match one path finds that path or nothing. -/
theorem wildcard_single {pattern : Path → Bool} (single : ∀ found ∈ t, pattern found = true → found = path) (there : path ∈ t)
    (matched : pattern path = true) : t.wildcard pattern = [path] := by
  have all : ∀ found ∈ t.wildcard pattern, found = path := fun found member =>
    single found (mem_wildcard.mp member).1 (mem_wildcard.mp member).2
  have distinct : (t.wildcard pattern).Nodup := List.nodup_dedup _
  have nonempty : path ∈ t.wildcard pattern := mem_wildcard.mpr ⟨there, matched⟩
  cases shape : t.wildcard pattern with
  | nil => simp [shape] at nonempty
  | cons first rest =>
    rw [shape] at all distinct
    obtain rfl := all first List.mem_cons_self
    cases rest with
    | nil => rfl
    | cons second more =>
      obtain rfl := all second (by simp)
      simp at distinct

end FileTree
end Files
