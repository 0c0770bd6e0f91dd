import EmbToolkit.Makedevs.Table
import Mathlib.Tactic.IntervalCases

/-! What `makedevs` takes from a line of the device table, compared with what the table's documentation says the
line's columns mean. The scan follows the columns as long as none before the numbers is missing, blank or too long;
from the first `-` among the numbers on, only zeros and further blanks are read as written. -/

namespace EmbToolkit.Proofs.TableLines
open EmbToolkit.Makedevs Scanf

/-! ### The documented meaning of a line -/

/-- The entry that a line describes. No owner stands for the current one. -/
structure Entry where
  name : Text
  type : Char
  mode : Int
  user : Option Text
  group : Option Text
  major : Int
  minor : Int
  start : Int
  increment : Int
  count : Int
  deriving DecidableEq

/-- `main` does not use what it scans from the line. -/
def Refused (line : Text) : Prop := refused (scanLine { name := [], type := ' ', user := [], group := [] } line) = true

/-- The numbers of two states agree. -/
private def SameNumbers (s t : Columns) : Prop :=
  s.major = t.major ∧ s.minor = t.minor ∧ s.start = t.start ∧ s.increment = t.increment ∧ s.count = t.count

theorem refused_iff (memory : Memory) (line : Text) : refused (scanLine memory line) = true ↔ Refused line := by
  have respected : ∀ conversion ∈ format, conversion.Respects SameNumbers := by
    simp +contextual [format, Conversion.Respects, SameNumbers]
  obtain ⟨converted, major, minor, start, increment, count⟩ := sscanf_related SameNumbers respected line
    (s := .initial memory) (t := .initial { name := [], type := ' ', user := [], group := [] }) ⟨rfl, rfl, rfl, rfl, rfl⟩
  unfold Refused refused scanLine
  rw [converted, major, minor, start, increment, count]

def numbersOf (columns : Columns) : List Nat :=
  [columns.major, columns.minor, columns.start, columns.increment, columns.count]

theorem accepted_numbers {line : Text} (accepted : ¬ Refused line) (memory : Memory) :
    ∀ value ∈ numbersOf (scanLine memory line).2, value ≤ 255 := by
  rw [← refused_iff memory, refused, Bool.or_eq_true, decide_eq_true_eq, decide_eq_true_eq, not_or] at accepted
  have bound := Nat.not_lt.mp accepted.2
  have count := Nat.right_le_or.trans (Nat.left_le_or.trans bound)
  have increment := Nat.right_le_or.trans bound
  have start := Nat.right_le_or.trans (Nat.left_le_or.trans (Nat.left_le_or.trans bound))
  have minor := Nat.right_le_or.trans (Nat.left_le_or.trans (Nat.left_le_or.trans (Nat.left_le_or.trans bound)))
  have major := Nat.left_le_or.trans (Nat.left_le_or.trans (Nat.left_le_or.trans (Nat.left_le_or.trans bound)))
  simp only [numbersOf, List.forall_mem_cons, List.not_mem_nil, false_imp_iff, implies_true, and_true]
  exact ⟨major, minor, start, increment, count⟩

end EmbToolkit.Proofs.TableLines
