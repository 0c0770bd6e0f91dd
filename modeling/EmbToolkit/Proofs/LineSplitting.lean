import EmbToolkit.Makedevs.Lines

/-! The lines that `makedevs` gets from its table. The buffer grows by a constant, and one piece of the table fits as
long as the size of the buffer for it is an `int`. -/

namespace EmbToolkit.Proofs.LineSplitting
open EmbToolkit.Makedevs Scanf

/-- A newline or a null. -/
def isEnd (c : Char) : Bool := c = '\n' || c = '\x00'

/-- The stream cut after each newline and null. What follows the last of them is a chunk if there is any. -/
def chunks : Text → List Text
  | [] => []
  | c :: rest =>
    if isEnd c then [c] :: chunks rest
    else match chunks rest with
      | [] => [[c]]
      | chunk :: others => (c :: chunk) :: others

/-- The chunks without their terminators. -/
def linesOf (file : Text) : List Text := (chunks file).map fun chunk => chunk.takeWhile fun c => !isEnd c

/-- The longest chunk there is room for, its terminator included. -/
def longest : Nat := 2147483599

/-! ### Chunks -/

theorem flatten_chunks (file : Text) : (chunks file).flatten = file := by
  induction file with
  | nil => rfl
  | cons c rest ih =>
    unfold chunks
    split
    · rw [List.flatten_cons, ih]
      rfl
    · split
      · next empty =>
        rw [empty] at ih
        simp [← ih]
      · next chunk others shape =>
        rw [shape] at ih
        simp [← ih]

private theorem chunks_front {front : Text} (rest : Text) (plain : ∀ c ∈ front, isEnd c = false) (more : front ≠ []) :
    chunks (front ++ rest) = (match chunks rest with | [] => [front] | chunk :: others => (front ++ chunk) :: others) := by
  induction front with
  | nil => exact absurd rfl more
  | cons c front ih =>
    have here : isEnd c = false := plain c List.mem_cons_self
    rcases front with _ | ⟨d, front⟩
    · simp only [List.cons_append, List.nil_append, chunks, here]
      rfl
    · have later := ih (fun e inside => plain e (List.mem_cons_of_mem c inside)) (List.cons_ne_nil d front)
      rw [List.cons_append, chunks, if_neg (by simp [here]), later]
      cases chunks rest <;> rfl

private theorem chunks_terminated {front rest : Text} {c : Char} (plain : ∀ d ∈ front, isEnd d = false) (ends : isEnd c = true) :
    chunks (front ++ c :: rest) = (front ++ [c]) :: chunks rest := by
  have after : chunks (c :: rest) = [c] :: chunks rest := by rw [chunks, if_pos ends]
  rcases front with _ | ⟨d, front⟩
  · exact after
  · rw [chunks_front _ plain (List.cons_ne_nil d front), after]

theorem chunks_open {front : Text} (plain : ∀ c ∈ front, isEnd c = false) (more : front ≠ []) : chunks front = [front] := by
  have alone := chunks_front [] plain more
  rwa [List.append_nil] at alone

/-- The first chunk holds at least what is in front of the next byte, and that byte. -/
private theorem chunks_first {front rest : Text} {c : Char} (plain : ∀ d ∈ front, isEnd d = false) :
    ∃ chunk others, chunks (front ++ c :: rest) = chunk :: others ∧ front.length < chunk.length := by
  by_cases ends : isEnd c = true
  · exact ⟨front ++ [c], chunks rest, chunks_terminated plain ends, by simp⟩
  · have open_so_far : ∀ d ∈ front ++ [c], isEnd d = false := by
      intro d inside
      rcases List.mem_append.mp inside with earlier | here
      · exact plain d earlier
      · obtain rfl := List.mem_singleton.mp here
        simpa using ends
    have shape := chunks_front rest open_so_far (by simp)
    rw [List.append_assoc, List.singleton_append] at shape
    rw [shape]
    cases chunks rest with
    | nil => exact ⟨_, _, rfl, by simp⟩
    | cons chunk others =>
      refine ⟨_, _, rfl, ?_⟩
      simp only [List.length_append, List.length_singleton]
      omega

private theorem takeWhile_closed {front : Text} {c : Char} (plain : ∀ d ∈ front, isEnd d = false) (ends : isEnd c = true) :
    (front ++ [c]).takeWhile (fun d => !isEnd d) = front := by
  rw [List.takeWhile_append_of_pos (by simpa using plain)]
  simp [ends]

private theorem takeWhile_open {front : Text} (plain : ∀ d ∈ front, isEnd d = false) : front.takeWhile (fun d => !isEnd d) = front :=
  List.takeWhile_eq_self_iff.mpr (by simpa using plain)

/-! ### The buffer -/

/-- The buffer holds `front`, has room for a terminator, and is no larger than its growth makes it. -/
structure Holds (front : Text) (b : LineBuffer) : Prop where
  idx : b.idx = front.length
  size : b.size = b.linebufsz
  room : front = [] ∧ b.linebufsz = 0 ∧ b.linebuf = none ∨ front ≠ [] ∧ (front.length : Int) < b.linebufsz
  steps : b.linebufsz % 80 = 0
  tight : b.linebufsz ≤ front.length + 80
  bound : b.linebufsz ≤ longest + 1
  cells : front ≠ [] → ∃ cells, b.linebuf = some cells ∧ (List.range front.length).map cells = front
  writes : ∀ w ∈ b.writes, w.Inside

/-- As `Holds`, with a place for one more byte and the terminator. -/
structure Ready (front : Text) (b : LineBuffer) : Prop where
  idx : b.idx = front.length
  size : b.size = b.linebufsz
  room : (front.length : Int) + 1 < b.linebufsz
  steps : b.linebufsz % 80 = 0
  tight : b.linebufsz ≤ front.length + 1 + 80
  bound : b.linebufsz ≤ longest + 1
  cells : ∃ cells, b.linebuf = some cells ∧ (List.range front.length).map cells = front
  writes : ∀ w ∈ b.writes, w.Inside

variable {available : Nat → Bool} {fresh : Nat → Char} {front : Text} {b b' : LineBuffer}

private theorem int_small {n : Int} (low : -(2 ^ 31) ≤ n) (high : n < 2 ^ 31) : int n = n := by
  unfold int
  omega

private theorem toSize_small {n : Int} (low : 0 ≤ n) (high : n < 2 ^ 31) : (toSize n : Int) = n := by
  unfold toSize
  omega

theorem Holds.start : Holds [] .start where
  idx := rfl
  size := rfl
  room := Or.inl ⟨rfl, rfl, rfl⟩
  steps := rfl
  tight := by decide
  bound := by decide
  cells none := absurd rfl none
  writes := by simp [LineBuffer.start]

/-- The size that a growth asks for is an `int`, or no `size_t` that can be had. -/
private theorem grown_size (available : Nat → Bool) {linebufsz : Int} (low : 0 ≤ linebufsz) (high : linebufsz ≤ longest + 1) (steps : linebufsz % 80 = 0) :
    linebufsz = longest + 1 ∧ xrealloc available (toSize (int (linebufsz + GROWBY))) = false ∨
      linebufsz + 80 ≤ longest + 1 ∧ int (linebufsz + GROWBY) = linebufsz + 80 ∧ (toSize (linebufsz + 80) : Int) = linebufsz + 80 := by
  unfold longest GROWBY at *
  by_cases full : linebufsz = 2147483600
  · subst full
    exact Or.inl ⟨rfl, rfl⟩
  · right
    exact ⟨by omega, int_small (by omega) (by omega), toSize_small (by omega) (by omega)⟩

theorem Holds.grow (holds : Holds front b) (grown : b.grow available fresh = some b') : Ready front b' := by
  obtain ⟨idx, size, room, steps, tight, bound, cells, writes⟩ := holds
  have less : int (b.linebufsz - 2) = b.linebufsz - 2 := by
    unfold longest at bound
    exact int_small (by omega) (by omega)
  unfold LineBuffer.grow at grown
  rw [less] at grown
  split at grown
  · next full =>
    dsimp only at grown
    split at grown
    · next allocated =>
      obtain rfl := Option.some.inj grown
      rcases grown_size available (by omega) bound steps with ⟨-, never⟩ | ⟨small, same, kept⟩
      · simp [never] at allocated
      · rw [same]
        refine ⟨idx, kept, ?_, ?_, ?_, small, ?_, writes⟩
        · dsimp only
          rcases room with ⟨rfl, zero, -⟩ | ⟨-, held⟩
          · rw [zero]
            decide
          · omega
        · dsimp only
          omega
        · dsimp only
          omega
        · by_cases none : front = []
          · exact ⟨_, rfl, by simp [none]⟩
          · obtain ⟨held, here, same⟩ := cells none
            exact ⟨held, by simp [here], same⟩
    · simp at grown
  · next roomy =>
    obtain rfl := Option.some.inj grown
    rcases room with ⟨rfl, zero, -⟩ | ⟨more, held⟩
    · simp only [List.length_nil] at idx
      omega
    · exact ⟨idx, size, by omega, steps, by omega, bound, cells more, writes⟩

/-- Growth fails for want of memory or when the size is no `int`. -/
theorem Holds.exhausted (holds : Holds front b) (failed : b.grow available fresh = none) :
    (∃ size, available size = false) ∨ front.length = longest := by
  obtain ⟨idx, size, room, steps, tight, bound, cells, writes⟩ := holds
  have less : int (b.linebufsz - 2) = b.linebufsz - 2 := by
    unfold longest at bound
    exact int_small (by omega) (by omega)
  unfold LineBuffer.grow at failed
  rw [less] at failed
  split at failed
  · next full =>
    dsimp only at failed
    split at failed
    · simp at failed
    · next refused =>
      rcases grown_size available (by omega) bound steps with ⟨last, -⟩ | ⟨small, same, kept⟩
      · right
        rcases room with ⟨rfl, zero, -⟩ | ⟨-, held⟩
        · unfold longest at last
          omega
        · omega
      · left
        rw [same] at refused
        refine ⟨toSize (b.linebufsz + 80), ?_⟩
        have fits : toSize (b.linebufsz + 80) < 2 ^ 63 := by
          unfold longest at small
          omega
        rw [xrealloc, decide_eq_true fits, Bool.true_and] at refused
        simpa using refused
  · simp at failed

/-- One more byte. -/
theorem Ready.push (ready : Ready front b) (c : Char) : Holds (front ++ [c]) { b.store c with idx := int (b.idx + 1) } := by
  obtain ⟨idx, size, room, steps, tight, bound, ⟨cells, here, same⟩, writes⟩ := ready
  have next : int (b.idx + 1) = b.idx + 1 := by
    unfold longest at bound
    exact int_small (by omega) (by omega)
  have length : ((front ++ [c]).length : Int) = front.length + 1 := by simp
  refine ⟨?_, size, Or.inr ⟨by simp, ?_⟩, steps, ?_, bound, fun _ => ?_, ?_⟩
  · dsimp only
    omega
  · dsimp only [LineBuffer.store]
    omega
  · dsimp only [LineBuffer.store]
    omega
  · refine ⟨fun i => if (i : Int) = b.idx then c else cells i, by simp [LineBuffer.store, here], ?_⟩
    rw [List.length_append, List.length_singleton, List.range_succ, List.map_append, List.map_singleton, if_pos idx.symm]
    congr 1
    conv_rhs => rw [← same]
    refine List.map_congr_left fun i inside => if_neg ?_
    have := List.mem_range.mp inside
    omega
  · intro w inside
    rcases List.mem_append.mp inside with earlier | here
    · exact writes w earlier
    · obtain rfl := List.mem_singleton.mp here
      exact ⟨by dsimp only; omega, by dsimp only; omega⟩

/-- The string that the buffer holds once it is closed at `front`. -/
private theorem text_closed {cells : Nat → Char} (here : b.linebuf = some cells) (same : (List.range front.length).map cells = front)
    (plain : ∀ c ∈ front, isEnd c = false) (closed : cells front.length = '\x00') (fits : front.length < b.size) : b.text = front := by
  obtain ⟨more, size⟩ : ∃ more, b.size = front.length + (more + 1) := ⟨b.size - front.length - 1, by omega⟩
  have visible : ∀ c ∈ front, decide (c ≠ '\x00') = true := by
    intro c inside
    have := plain c inside
    simp only [isEnd, Bool.or_eq_false_iff, decide_eq_false_iff_not] at this
    exact decide_eq_true this.2
  simp only [LineBuffer.text, here, Option.map_some, Option.getD_some, cstring, size]
  rw [List.range_add, List.map_append, same, List.takeWhile_append_of_pos visible, List.range_succ_eq_map, List.map_cons, List.map_cons,
    List.takeWhile_cons_of_neg (by simp [closed]), List.append_nil]

/-- The null that closes the buffer behind `front`. -/
private theorem store_closes {cells : Nat → Char} (here : b.linebuf = some cells) (same : (List.range front.length).map cells = front)
    (plain : ∀ c ∈ front, isEnd c = false) (idx : b.idx = front.length) (size : b.size = b.linebufsz) (room : (front.length : Int) < b.linebufsz)
    (writes : ∀ w ∈ b.writes, w.Inside) : (b.store '\x00').text = front ∧ ∀ w ∈ (b.store '\x00').writes, w.Inside := by
  constructor
  · have stored : (b.store '\x00').linebuf = some fun i : Nat => if (i : Int) = b.idx then '\x00' else cells i := by
      simp [LineBuffer.store, here]
    refine text_closed stored ?_ plain (if_pos idx.symm) ?_
    · conv_rhs => rw [← same]
      refine List.map_congr_left fun i inside => if_neg ?_
      have := List.mem_range.mp inside
      omega
    · dsimp only [LineBuffer.store]
      omega
  · intro w inside
    rcases List.mem_append.mp inside with earlier | here
    · exact writes w earlier
    · obtain rfl := List.mem_singleton.mp here
      exact ⟨by dsimp only; omega, by dsimp only; omega⟩

/-! ### One call -/

/-- What a call makes of the file when `front` is in the buffer. -/
def Right (available : Nat → Bool) (whole : Text) : Got → Prop
  | .exhausted writes => (∀ w ∈ writes, w.Inside) ∧
      ((∃ size, available size = false) ∨ ∃ chunk others, chunks whole = chunk :: others ∧ longest < chunk.length)
  | .null writes => (∀ w ∈ writes, w.Inside) ∧ whole = []
  | .line text rest writes => (∀ w ∈ writes, w.Inside) ∧ ∃ chunk, chunks whole = chunk :: chunks rest ∧ chunk.length ≤ longest ∧
      text = chunk.takeWhile fun c => !isEnd c

private theorem line_right (holds : Holds front b) (plain : ∀ c ∈ front, isEnd c = false) (file : Text) :
    Right available (front ++ file) (private_get_line_from_file available fresh 1 file b) := by
  induction file generalizing front b with
  | nil =>
    rw [List.append_nil]
    unfold private_get_line_from_file
    rcases holds.room with ⟨rfl, -, empty⟩ | ⟨more, room⟩
    · rw [empty]
      exact ⟨holds.writes, rfl⟩
    · obtain ⟨cells, here, same⟩ := holds.cells more
      obtain ⟨text, inside⟩ := store_closes here same plain holds.idx holds.size room holds.writes
      rw [here]
      refine ⟨inside, front, chunks_open plain more, ?_, ?_⟩
      · have := holds.bound
        omega
      · rw [text, takeWhile_open plain]
  | cons ch rest ih =>
    unfold private_get_line_from_file
    cases grown : b.grow available fresh with
    | none =>
      refine ⟨holds.writes, (holds.exhausted grown).imp_right fun long => ?_⟩
      obtain ⟨chunk, others, shape, first⟩ := chunks_first (c := ch) plain
      exact ⟨chunk, others, shape, by omega⟩
    | some b' =>
      have ready := holds.grow grown
      have pushed := ready.push ch
      obtain ⟨cells, here, same⟩ := ready.cells
      have short : (front ++ [ch]).length ≤ longest := by
        have room := ready.room
        have bound := ready.bound
        simp only [List.length_append, List.length_singleton]
        omega
      dsimp only
      split
      · next null =>
        subst null
        obtain ⟨text, inside⟩ := store_closes here same plain ready.idx ready.size (by have := ready.room; omega) ready.writes
        exact ⟨inside, _, chunks_terminated plain rfl, short, text.trans (takeWhile_closed plain rfl).symm⟩
      · next visible =>
        by_cases newline : ch = '\n'
        · subst newline
          have back : int (int (b'.idx + 1) - 1) = front.length := by
            have idx := ready.idx
            have room := ready.room
            have bound := ready.bound
            unfold longest at bound
            have forward : int (b'.idx + 1) = b'.idx + 1 := int_small (by omega) (by omega)
            rw [forward, int_small (by omega) (by omega)]
            omega
          obtain ⟨cells, here, same⟩ := pushed.cells (by simp)
          rw [List.length_append, List.length_singleton, List.range_succ, List.map_append, List.map_singleton] at same
          obtain ⟨same, -⟩ := List.append_inj' same rfl
          obtain ⟨text, inside⟩ := store_closes (b := { b'.store '\n' with idx := int (int (b'.idx + 1) - 1) }) here same plain back
            ready.size (by have := ready.room; dsimp only [LineBuffer.store]; omega) pushed.writes
          exact ⟨inside, _, chunks_terminated plain rfl, short, text.trans (takeWhile_closed plain rfl).symm⟩
        · rw [if_neg (by simp [newline])]
          have still : ∀ c ∈ front ++ [ch], isEnd c = false := by
            intro c inside
            rcases List.mem_append.mp inside with earlier | last
            · exact plain c earlier
            · obtain rfl := List.mem_singleton.mp last
              simp [isEnd, newline, visible]
          have later := ih pushed still
          rwa [List.append_assoc, List.singleton_append] at later

/-! ### The table -/

private theorem call_right (available : Nat → Bool) (fresh : Nat → Char) (file : Text) :
    Right available file (bb_get_chomped_line_from_file available fresh file) :=
  line_right Holds.start (by simp) file

/-- Every write into the line buffer is inside it. -/
theorem reads_inside (available : Nat → Bool) (fresh : Nat → Nat → Char) (linenum : Nat) (file : Text) :
    ∀ got ∈ reads available fresh linenum file, ∀ w ∈ got.writes, w.Inside := by
  fun_induction reads available fresh linenum file with
  | case1 linenum file text rest writes got ih =>
    have right := call_right available (fresh linenum) file
    rw [got] at right
    intro other inside
    rcases List.mem_cons.mp inside with rfl | later
    · exact right.1
    · exact ih other later
  | case2 linenum file writes got =>
    have right := call_right available (fresh linenum) file
    rw [got] at right
    simpa [Got.writes] using right.1
  | case3 linenum file writes got =>
    have right := call_right available (fresh linenum) file
    rw [got] at right
    simpa [Got.writes] using right.1

/-- With all the memory it asks for, `makedevs` gets the lines of the table exactly when there is room for each chunk. -/
private theorem returned_iff (fresh : Nat → Nat → Char) (linenum : Nat) (file : Text) :
    returned (reads (fun _ => true) fresh linenum file) = (linesOf file, true) ↔ ∀ chunk ∈ chunks file, chunk.length ≤ longest := by
  fun_induction reads (fun _ => true) fresh linenum file with
  | case1 linenum file text rest writes got ih =>
    have right := call_right (fun _ => true) (fresh linenum) file
    rw [got] at right
    obtain ⟨-, chunk, shape, short, rfl⟩ := right
    rw [linesOf, shape, List.map_cons, List.forall_mem_cons, ← linesOf, ← ih]
    simp [returned, Prod.ext_iff, short]
  | case2 linenum file writes got =>
    have right := call_right (fun _ => true) (fresh linenum) file
    rw [got] at right
    obtain ⟨-, rfl⟩ := right
    simp [returned, linesOf, chunks]
  | case3 linenum file writes got =>
    have right := call_right (fun _ => true) (fresh linenum) file
    rw [got] at right
    obtain ⟨-, none | ⟨chunk, others, shape, long⟩⟩ := right
    · simp at none
    · simp only [returned, Prod.mk.injEq, Bool.false_eq_true, and_false, false_iff, not_forall]
      exact ⟨chunk, by simp [shape], by omega⟩

/-- The lines are handled under the numbers of their places. -/
private theorem handleLines_numbered (sys : System) (rootdir : Text) (memory : Nat → Memory) (linenum : Nat) (lines : List Text) (p : Process) :
    handleLines sys rootdir memory linenum lines p = (lines.zipIdx (linenum + 1)).foldlM
      (fun p numbered => handleLine sys rootdir (memory numbered.2) numbered.2 numbered.1 p) p := by
  induction lines generalizing linenum p with
  | nil => rfl
  | cons line rest ih =>
    rw [handleLines, List.zipIdx_cons, List.foldlM_cons]
    cases handleLine sys rootdir (memory (linenum + 1)) (linenum + 1) line p with
    | error p => rfl
    | ok p => exact ih (linenum + 1) p

/-- The table is split as it should be, and its lines are numbered so, exactly when no chunk is too long for an `int`. -/
theorem split_iff (fresh : Nat → Nat → Char) (file : Text) :
    (returned (reads (fun _ => true) fresh 0 file) = (linesOf file, true) ∧ ∀ sys rootdir memory p,
      handleLines sys rootdir memory 0 (linesOf file) p = ((linesOf file).zipIdx 1).foldlM
        (fun p numbered => handleLine sys rootdir (memory numbered.2) numbered.2 numbered.1 p) p) ↔
      ∀ chunk ∈ chunks file, chunk.length ≤ longest := by
  rw [← returned_iff fresh 0 file]
  exact and_iff_left fun sys rootdir memory p => handleLines_numbered sys rootdir memory 0 (linesOf file) p

private theorem chunks_unbroken {c : Char} (plain : isEnd c = false) {n : Nat} (some_byte : n ≠ 0) :
    chunks (List.replicate n c) = [List.replicate n c] := by
  refine chunks_open (fun d inside => ?_) (by simpa using some_byte)
  rw [List.eq_of_mem_replicate inside, plain]

/-- A line of 2147483600 characters is not returned. -/
theorem long_line_lost : ¬ ∀ (fresh : Nat → Nat → Char) (file : Text), returned (reads (fun _ => true) fresh 0 file) = (linesOf file, true) := by
  intro all
  have too_long (n : Nat) (long : longest < n) : False := by
    have short := (returned_iff (fun _ _ => 'a') 0 (List.replicate n 'a')).mp (all _ _)
    rw [chunks_unbroken rfl (by omega)] at short
    have := short _ List.mem_cons_self
    rw [List.length_replicate] at this
    omega
  exact too_long (longest + 1) (Nat.lt_succ_self longest)

end EmbToolkit.Proofs.LineSplitting
