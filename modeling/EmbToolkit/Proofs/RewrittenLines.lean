import EmbToolkit.SysrootFiles

/-! Which lines of a `.pc` file the script of `__embtk_fix_pkgconfig_files` may change. Its patterns are not anchored:
a line is safe from it exactly when it holds none of the four texts, whatever it defines. -/

namespace EmbToolkit.Proofs.RewrittenLines
open Sed

/-- What the four patterns start with. -/
def searchedTexts : List Line :=
  ["prefix=".toList, "includedir=$\x7bprefix\x7d/include".toList, "includedir=/usr/include".toList, "libdir=".toList]

/-- The outcome has the lines of the file in their order, those that define none of the directories as they were. -/
def Confined (s : Sysroot) (d : Libdir) (file : List Line) : Prop :=
  (fixPkgconfigFile s d file).length = file.length ∧
    ∀ (i : Nat) line, file[i]? = some line → definesDirectory line = false → (fixPkgconfigFile s d file)[i]? = some line

private theorem text_long {size : Nat} {pattern new : Line} (long : size ≤ new.length) (s : Line) (starts : pattern <+: s) :
    ∃ r, text pattern new s = some r ∧ size ≤ r.length :=
  ⟨new ++ s.drop pattern.length, if_pos starts, by simp; omega⟩

private theorem toEnd_long {size : Nat} {pattern new : Line} (long : size ≤ new.length) (s : Line) (starts : pattern <+: s) :
    ∃ r, toEnd pattern new s = some r ∧ size ≤ r.length :=
  ⟨new, if_pos starts, long⟩

/-- A substitution whose outcome is shorter than the path of the sysroot has not taken place. -/
private theorem short_absent {size : Nat} {pattern line : Line} {rule : Line → Option Line} (needs : Needs pattern rule)
    (nonempty : pattern ≠ []) (long : ∀ s, pattern <+: s → ∃ r, rule s = some r ∧ size ≤ r.length)
    (short : (once rule line).length < size) : ¬ pattern <:+: line ∧ once rule line = line := by
  have absent : ¬ pattern <:+: line := fun occurs => by
    have := once_long needs nonempty long occurs
    omega
  exact ⟨absent, once_absent needs absent⟩

theorem unchanged_of_absent {line : Line} (absent : ∀ searched ∈ searchedTexts, ¬ searched <:+: line) (s : Sysroot) (d : Libdir) :
    fixPkgconfigLine s d line = line := by
  simp only [searchedTexts, List.forall_mem_cons] at absent
  obtain ⟨no_root, no_variable, no_headers, no_libs, -⟩ := absent
  rw [fixPkgconfigLine, once_absent (needs_toEnd _ _) no_root, once_absent (needs_text _ _) no_variable,
    once_absent (needs_text _ _) no_headers, once_absent (needs_toEnd _ _) no_libs]

theorem absent_of_unchanged {line : Line} {s : Sysroot} {d : Libdir} (long : line.length < s.path.length)
    (same : fixPkgconfigLine s d line = line) : ∀ searched ∈ searchedTexts, ¬ searched <:+: line := by
  have roots : s.path <:+: pkgconfigPrefix s := ⟨_, _, List.append_assoc _ _ _⟩
  have headers : s.path <:+: pkgconfigIncludedir s := ⟨_, _, List.append_assoc _ _ _⟩
  have libs : s.path <:+: pkgconfigLibdir s d := ⟨_, _, List.append_assoc _ _ _⟩
  rw [← same] at long
  obtain ⟨no_libs, here⟩ := short_absent (needs_toEnd _ _) (by decide) (toEnd_long libs.length_le) long
  rw [fixPkgconfigLine, here] at long same
  obtain ⟨no_headers, here⟩ := short_absent (needs_text _ _) (by decide) (text_long headers.length_le) long
  rw [here] at long same no_libs
  obtain ⟨no_variable, here⟩ := short_absent (needs_text _ _) (by decide) (text_long headers.length_le) long
  rw [here] at long same no_libs no_headers
  obtain ⟨no_root, here⟩ := short_absent (needs_toEnd _ _) (by decide) (toEnd_long roots.length_le) long
  rw [here] at no_libs no_headers no_variable
  simp only [searchedTexts, List.forall_mem_cons]
  exact ⟨no_root, no_variable, no_headers, no_libs, by simp⟩

/-- A sysroot with a path longer than a given line. -/
def longSysroot (n : Nat) : Sysroot where
  path := '/' :: List.replicate n 'a'
  rooted := rfl
  plain := by
    intro c inside
    rcases List.mem_cons.mp inside with rfl | letter
    · decide
    · rw [List.eq_of_mem_replicate letter]
      decide
  libs := by
    intro starts
    have u : 'u' ∈ '/' :: List.replicate n 'a' := starts.subset (by decide)
    simp [List.mem_replicate] at u
  headers := by
    intro starts
    have u : 'u' ∈ '/' :: List.replicate n 'a' := starts.subset (by decide)
    simp [List.mem_replicate] at u

/-- Only definitions of the directories change, whatever the sysroot is, exactly when the other lines hold none of the texts. -/
theorem confined_iff (file : List Line) : (∀ s d, Confined s d file) ↔
    ∀ line ∈ file, definesDirectory line = false → ∀ searched ∈ searchedTexts, ¬ searched <:+: line := by
  constructor
  · intro confined line inside other
    obtain ⟨i, here⟩ := List.mem_iff_getElem?.mp inside
    have kept := (confined (longSysroot line.length) .lib).2 i line here other
    rw [fixPkgconfigFile, List.getElem?_map, here, Option.map_some, Option.some_inj] at kept
    exact absent_of_unchanged (by simp [longSysroot]) kept
  · intro absent s d
    refine ⟨List.length_map _, fun i line here other => ?_⟩
    rw [fixPkgconfigFile, List.getElem?_map, here, Option.map_some]
    exact congrArg some (unchanged_of_absent (absent line (List.mem_of_getElem? here) other) s d)

/-- The line of a compiler library whose variable ends in `libdir`. -/
theorem toolexeclibdir_lost : ¬ ∀ s d, Confined s d ["toolexeclibdir=$\x7blibdir\x7d/../lib".toList] := by
  intro confined
  have kept := (confined (longSysroot 0) .lib).2 0 _ rfl (by decide +kernel)
  revert kept
  decide +kernel

end EmbToolkit.Proofs.RewrittenLines
