import Mathlib.Data.List.Infix
import Mathlib.Tactic.Common

/-! Where a path leads. A path is resolved name by name, from the root or from a working directory, so two paths with the
same names from the root lead to the same file whatever the directories on the way are. -/

namespace Paths

/-- The names that a path goes through. An empty name and the name `.` lead nowhere else. -/
def names (path : List Char) : List (List Char) := (path.splitOn '/').filter fun name => name ≠ [] && name ≠ ['.']

/-- The names from the root to the file that a path leads to from `cwd`. -/
def walk (cwd : List (List Char)) (path : List Char) : List (List Char) :=
  if path.head? = some '/' then names path else cwd ++ names path

theorem names_slash (front back : List Char) : names (front ++ '/' :: back) = names front ++ names back := by
  rw [names, List.splitOn_append_cons_self, List.filter_append]
  rfl

@[simp] theorem names_nil : names [] = [] := rfl

theorem names_ends (front : List Char) : names (front ++ ['/']) = names front := by
  rw [names_slash, names_nil, List.append_nil]

theorem names_dropWhile (path : List Char) : names (path.dropWhile (· = '/')) = names path := by
  induction path with
  | nil => rfl
  | cons c path ih =>
    by_cases slash : c = '/'
    · subst slash
      have later := names_slash [] path
      rw [List.nil_append, names_nil, List.nil_append] at later
      rw [later, ← ih]
      simp
    · rw [List.dropWhile_cons_of_neg (by simpa using slash)]

end Paths
