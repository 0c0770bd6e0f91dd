import EmbToolkit.Proofs.LineSplitting
import EmbToolkit.Proofs.DeviceRanges
import Mathlib.Data.Nat.Digits.Defs

/-! The arrays of `makedevs` against what is written to them. The line buffer grows ahead of its index, the width of
a conversion leaves room for the null, and the indices printed into a name are below 255. -/

namespace EmbToolkit.Proofs.BufferBounds
open EmbToolkit.Makedevs EmbToolkit.Proofs.LineSplitting EmbToolkit.Proofs.DeviceRanges Scanf

theorem stringWrites_inside {size : Nat} {text : Text} (fits : text.length < size) : ∀ w ∈ stringWrites size text, w.Inside := by
  intro w written
  obtain ⟨i, below, rfl⟩ := List.mem_map.mp written
  have := List.mem_range.mp below
  exact ⟨by dsimp only; omega, by dsimp only; omega⟩

private theorem recording_preserves (conversion : Conversion Columns) (narrow : ∀ width store, conversion = .string width store → width ≤ 40) :
    (recording conversion).Preserves fun writes => ∀ w ∈ writes, w.Inside := by
  cases conversion with
  | string width store =>
    intro token writes short inside w written
    have bound := narrow width store rfl
    rcases List.mem_append.mp written with earlier | here
    · exact inside w earlier
    · exact stringWrites_inside (by omega) w here
  | char store => exact fun c writes inside => inside
  | unsigned base store => exact fun value writes inside => inside

/-- No token of a line overruns its array. -/
theorem scan_inside (line : Text) : ∀ w ∈ scanWrites line, w.Inside := by
  have nothing : ∀ w ∈ ([] : List Write), w.Inside := by simp
  refine sscanf_preserves (P := fun writes : List Write => ∀ w ∈ writes, w.Inside) (fun conversion member => ?_) line nothing
  obtain ⟨original, listed, rfl⟩ := List.mem_map.mp member
  refine recording_preserves original fun width store same => ?_
  subst same
  simp only [format, List.mem_cons, Conversion.string.injEq, reduceCtorEq, List.not_mem_nil, or_false, false_or] at listed
  omega

theorem decimal_length {i : Nat} (small : i < 255) : (decimal i).length ≤ 3 := by
  have short := Nat.repr_length i 3 (by decide) (by omega)
  rwa [← String.length_toList] at short

/-- The indices of an accepted range have three digits at most. -/
theorem range_inside {memory : Memory} {line : Text} {columns : Columns} (read : readLine memory line = .entry columns) (full_name : Text) :
    ∀ w ∈ rangeWrites columns full_name, w.Inside := by
  obtain ⟨-, -, -, count⟩ := entry_small read
  unfold rangeWrites
  split
  · split
    · intro w written
      obtain ⟨i, counted, here⟩ := List.mem_flatMap.mp written
      have digits : (decimal i).length ≤ 3 := by
        have := List.mem_range'_1.mp counted
        exact decimal_length (by omega)
      refine stringWrites_inside ?_ w here
      rw [List.length_append]
      omega
    · simp
  · simp

private theorem main_inside (sys : System) (rootdir : Text) (memory : Nat → Memory) {gots : List Got}
    (lines : ∀ got ∈ gots, ∀ w ∈ got.writes, w.Inside) (linenum : Nat) (p : Process) :
    ∀ w ∈ mainWrites sys rootdir memory linenum gots p, w.Inside := by
  induction gots generalizing linenum p with
  | nil => simp [mainWrites]
  | cons got more ih =>
    have here := lines got List.mem_cons_self
    have later := fun {linenum p} => @ih (fun other member => lines other (List.mem_cons_of_mem got member)) linenum p
    cases got with
    | exhausted writes => exact here
    | null writes => exact here
    | line text rest writes =>
      intro w written
      simp only [mainWrites, List.mem_append] at written
      rcases written with (buffered | scanned) | after
      · exact here w buffered
      · exact scan_inside text w scanned
      · split at after
        · simp at after
        · next p' _ =>
          rcases List.mem_append.mp after with ranged | onward
          · split at ranged
            · next columns read => exact range_inside read _ w ranged
            · simp at ranged
          · exact later w onward

/-- Whatever the table holds, `main` writes inside its arrays only. -/
theorem writes_inside (sys : System) (available : Nat → Bool) (fresh : Nat → Nat → Char) (rootdir : Text) (memory : Nat → Memory)
    (table : Text) (p : Process) : ∀ w ∈ mainWrites sys rootdir memory 0 (reads available fresh 0 table) p, w.Inside :=
  main_inside sys rootdir memory (reads_inside available fresh 0 table) 0 p

theorem writes_inside_newline : (⟨80, 0⟩ : Write).Inside := by
  refine writes_inside obliging (fun _ => true) (fun _ _ => 'x') [] (fun _ => ⟨[], ' ', [], []⟩) ['\n'] ⟨[], 0, false⟩ _ ?_
  have grown : LineBuffer.start.grow (fun _ => true) (fun _ => 'x') = some ⟨some fun _ => 'x', 80, 80, 0, []⟩ := rfl
  rw [reads]
  split
  · next text rest writes got =>
    obtain ⟨-, -, rfl⟩ := Got.line.inj got
    exact List.mem_append_left _ (List.mem_append_left _ List.mem_cons_self)
  · next got => simp [bb_get_chomped_line_from_file, private_get_line_from_file, grown] at got
  · next got => simp [bb_get_chomped_line_from_file, private_get_line_from_file, grown] at got

end EmbToolkit.Proofs.BufferBounds
