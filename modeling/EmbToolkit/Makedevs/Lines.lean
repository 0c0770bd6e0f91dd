import EmbToolkit.Makedevs.Program
import Mathlib.Data.Int.ModEq

/-! How `makedevs` gets the lines of the device table: byte by byte into a buffer on the heap that grows as needed,
its sizes and indices held in 32-bit integers. Every write of a byte is recorded with the size of its array. -/

namespace EmbToolkit.Makedevs
open Scanf

/-- A byte written at an index of an array of `size` bytes. -/
structure Write where
  size : Nat
  index : Int
  deriving DecidableEq

def Write.Inside (w : Write) : Prop := 0 ≤ w.index ∧ w.index < w.size

/-- The value that the machine leaves in an `int`. -/
def int (n : Int) : Int := (n + 2 ^ 31) % 2 ^ 32 - 2 ^ 31

/-- The conversion of an `int` to `size_t`. -/
def toSize (n : Int) : Nat := (n % 2 ^ 64).toNat

/-- Whether `xrealloc` returns: no object of 2^63 bytes or more is ever allocated. -/
def xrealloc (available : Nat → Bool) (size : Nat) : Bool := size < 2 ^ 63 && available size

/-- The string in an array: what comes before the null. -/
def cstring (cells : Nat → Char) (size : Nat) : Text := ((List.range size).map cells).takeWhile (· ≠ '\x00')

def GROWBY : Int := 80

/-- The local variables of `private_get_line_from_file`. -/
structure LineBuffer where
  linebuf : Option (Nat → Char)
  size : Nat
  linebufsz : Int
  idx : Int
  writes : List Write

namespace LineBuffer

def start : LineBuffer where
  linebuf := none
  size := 0
  linebufsz := 0
  idx := 0
  writes := []

/-- `linebuf[idx] = c` -/
def store (c : Char) (b : LineBuffer) : LineBuffer :=
  { b with
    linebuf := b.linebuf.map fun cells i => if (i : Int) = b.idx then c else cells i
    writes := b.writes ++ [⟨b.size, b.idx⟩] }

/-- The growth before a byte is stored, or nothing where `xrealloc` exits. `fresh` is what a new buffer holds. -/
def grow (available : Nat → Bool) (fresh : Nat → Char) (b : LineBuffer) : Option LineBuffer :=
  if b.idx > int (b.linebufsz - 2) then
    let linebufsz := int (b.linebufsz + GROWBY)
    if xrealloc available (toSize linebufsz) then
      some { b with linebuf := some (b.linebuf.getD fresh), size := toSize linebufsz, linebufsz := linebufsz }
    else none
  else some b

def text (b : LineBuffer) : Text := (b.linebuf.map fun cells => cstring cells b.size).getD []

end LineBuffer

/-- How a call of `private_get_line_from_file` ends. -/
inductive Got where
  | exhausted (writes : List Write)
  | null (writes : List Write)
  | line (text rest : Text) (writes : List Write)

def Got.writes : Got → List Write
  | .exhausted writes => writes
  | .null writes => writes
  | .line _ _ writes => writes

/-- The loop of `private_get_line_from_file` over the bytes of the file that are left, with what follows it. -/
def private_get_line_from_file (available : Nat → Bool) (fresh : Nat → Char) (c : Nat) : Text → LineBuffer → Got
  | [], b =>
    match b.linebuf with
    | none => .null b.writes
    | some _ => .line (b.store '\x00').text [] (b.store '\x00').writes
  | ch :: rest, b =>
    match b.grow available fresh with
    | none => .exhausted b.writes
    | some b =>
      let stored := { b.store ch with idx := int (b.idx + 1) }
      if ch = '\x00' then .line stored.text rest stored.writes
      else if c < 2 && ch = '\n' then
        let closed := (if c ≠ 0 then { stored with idx := int (stored.idx - 1) } else stored).store '\x00'
        .line closed.text rest closed.writes
      else private_get_line_from_file available fresh c rest stored

def bb_get_chomped_line_from_file (available : Nat → Bool) (fresh : Nat → Char) (file : Text) : Got :=
  private_get_line_from_file available fresh 1 file .start

theorem rest_shorter {available : Nat → Bool} {fresh : Nat → Char} {c : Nat} {file text rest : Text} {b : LineBuffer} {writes : List Write}
    (got : private_get_line_from_file available fresh c file b = .line text rest writes) (begun : file ≠ [] ∨ b.linebuf = none) :
    rest.length < file.length := by
  induction file generalizing b with
  | nil =>
    have none := begun.resolve_left (fun nonempty => nonempty rfl)
    simp [private_get_line_from_file, none] at got
  | cons ch others ih =>
    unfold private_get_line_from_file at got
    split at got
    · simp at got
    · next b' _ =>
      dsimp only at got
      split at got
      · obtain ⟨-, rfl, -⟩ := Got.line.inj got
        exact Nat.lt_succ_self _
      · split at got
        · obtain ⟨-, rfl, -⟩ := Got.line.inj got
          exact Nat.lt_succ_self _
        · rcases others with _ | ⟨d, others⟩
          · unfold private_get_line_from_file at got
            split at got
            · simp at got
            · obtain ⟨-, rfl, -⟩ := Got.line.inj got
              exact Nat.lt_succ_self _
          · exact Nat.lt_succ_of_lt (ih got (Or.inl (List.cons_ne_nil d others)))

/-- The results of one call after another until one returns no line. -/
def reads (available : Nat → Bool) (fresh : Nat → Nat → Char) (linenum : Nat) (file : Text) : List Got :=
  match got : bb_get_chomped_line_from_file available (fresh linenum) file with
  | .line text rest writes => .line text rest writes :: reads available fresh (linenum + 1) rest
  | .null writes => [.null writes]
  | .exhausted writes => [.exhausted writes]
termination_by file.length
decreasing_by exact rest_shorter got (Or.inr rfl)

/-- The lines returned, and whether the last call has returned `NULL` and not run out of memory. -/
def returned : List Got → List Text × Bool
  | [] => ([], true)
  | .line text _ _ :: more => (text :: (returned more).1, (returned more).2)
  | .null _ :: _ => ([], true)
  | .exhausted _ :: _ => ([], false)

/-! ### The writes of `main` -/

/-- A string with its null written to the start of an array. -/
def stringWrites (size : Nat) (text : Text) : List Write := (List.range (text.length + 1)).map fun i => ⟨size, (i : Nat)⟩

/-- A conversion of the format that records what it writes to the arrays `name`, `user` and `group` of 41 bytes. -/
def recording : Conversion Columns → Conversion (List Write)
  | .string width _ => .string width fun token writes => writes ++ stringWrites 41 token
  | .char _ => .char fun _ writes => writes
  | .unsigned base _ => .unsigned base fun _ writes => writes

def scanWrites (line : Text) : List Write := (sscanf (format.map recording) line []).2

/-- What `sprintf` writes to `full_name_inc` in the loop of a device range. -/
def rangeWrites (columns : Columns) (full_name : Text) : List Write :=
  if columns.type = 'p' || columns.type = 'c' || columns.type = 'b' then
    if 0 < columns.count then
      (List.range' columns.start (columns.count - columns.start)).flatMap fun i =>
        stringWrites (full_name.length + 4) (full_name ++ decimal i)
    else []
  else []

/-- All that `main` writes through `linebuf`, the arrays of the loop body and `full_name_inc`. -/
def mainWrites (sys : System) (rootdir : Text) (memory : Nat → Memory) : Nat → List Got → Process → List Write
  | _, [], _ => []
  | linenum, .line text _ writes :: more, p =>
    writes ++ scanWrites text ++
      match handleLine sys rootdir (memory (linenum + 1)) (linenum + 1) text p with
      | .error _ => []
      | .ok p =>
        (match readLine (memory (linenum + 1)) text with
          | .entry columns => rangeWrites columns (concat_path_file rootdir columns.name)
          | _ => []) ++ mainWrites sys rootdir memory (linenum + 1) more p
  | _, got :: _, _ => got.writes

end EmbToolkit.Makedevs
