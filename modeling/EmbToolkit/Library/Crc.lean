import Mathlib.Algebra.CharP.Two
import Mathlib.Algebra.Field.ZMod
import Mathlib.Algebra.Polynomial.Div
import Mathlib.Tactic.LinearCombination

/-! Checksums by polynomial division over GF(2). A register holds the remainder with the lowest power in its most
significant bit, and the coefficients of the message come in from the highest power on. -/

namespace Crc
open Polynomial

variable {w : Nat} (poly : BitVec w)

/-- Multiplies the remainder by `X`. -/
def shift (r : BitVec w) : BitVec w := if r.getLsbD 0 then (r >>> 1) ^^^ poly else r >>> 1

/-- A coefficient as a register: the highest power that it holds. -/
def unit (w : Nat) (b : Bool) : BitVec w := BitVec.setWidth w (BitVec.ofBool b)

/-- Takes in the next coefficient of the message. -/
def bit (r : BitVec w) (b : Bool) : BitVec w := shift poly (r ^^^ unit w b)

def bits (r : BitVec w) (message : List Bool) : BitVec w := message.foldl (bit poly) r

/-- The coefficients of an octet, from its least significant bit on. -/
def octet (b : UInt8) : List Bool := (List.range 8).map b.toBitVec.getLsbD

def octets (message : List UInt8) : List Bool := message.flatMap octet

def bytes (r : BitVec w) (message : List UInt8) : BitVec w := bits poly r (octets message)

/-- The coefficients side by side, the first one in the least significant bit. -/
def pack (w : Nat) : List Bool → BitVec w
  | [] => 0#w
  | b :: rest => (pack w rest <<< 1) ^^^ unit w b

variable {poly}

theorem getLsbD_unit (b : Bool) (i : Nat) : (unit w b).getLsbD i = (decide (i < w) && decide (i = 0) && b) := by
  cases b <;> cases i <;> simp [unit]

/-! ### Shifts -/

theorem shift_xor (a b : BitVec w) : shift poly (a ^^^ b) = shift poly a ^^^ shift poly b := by
  apply BitVec.eq_of_getLsbD_eq
  intro i _
  unfold shift
  rw [BitVec.getLsbD_xor]
  cases a.getLsbD 0 <;> cases b.getLsbD 0 <;> simp <;> cases poly.getLsbD i <;> simp

theorem iterate_xor (n : Nat) (a b : BitVec w) : (shift poly)^[n] (a ^^^ b) = (shift poly)^[n] a ^^^ (shift poly)^[n] b := by
  induction n generalizing a b with
  | zero => rfl
  | succ n ih => simp only [Function.iterate_succ_apply, shift_xor, ih]

/-- What has room to move up comes back down. -/
theorem shift_double {z : BitVec w} (room : ∀ i, w ≤ i + 1 → z.getLsbD i = false) : shift poly (z <<< 1) = z := by
  apply BitVec.eq_of_getLsbD_eq
  intro i inside
  have low : (z <<< 1).getLsbD 0 = false := by simp
  simp only [shift, low, Bool.false_eq_true, if_false, BitVec.getLsbD_ushiftRight, BitVec.getLsbD_shiftLeft]
  by_cases last : w ≤ i + 1
  · simp [room i last, show ¬ 1 + i < w by omega]
  · simp [show 1 + i < w by omega]

theorem iterate_shiftLeft (n : Nat) {z : BitVec w} (room : ∀ i, w ≤ i + n → z.getLsbD i = false) :
    (shift poly)^[n] (z <<< n) = z := by
  induction n with
  | zero => simp
  | succ n ih =>
    have inner : shift poly (z <<< n <<< 1) = z <<< n := by
      refine shift_double fun i last => ?_
      rw [BitVec.getLsbD_shiftLeft]
      by_cases below : i < n
      · simp [below]
      · simp [room (i - n) (by omega)]
    rw [Function.iterate_succ_apply, BitVec.shiftLeft_add, inner]
    exact ih fun i last => room i (by omega)

/-- The bit shifted out is the most significant bit of the outcome. -/
theorem shift_injective (odd : poly.msb = true) : Function.Injective (shift poly) := by
  intro a b same
  have top : ∀ r : BitVec w, (shift poly r).msb = r.getLsbD 0 := by
    intro r
    unfold shift
    split
    next low => simp [low, odd]
    next low => simp [low]
  have low : a.getLsbD 0 = b.getLsbD 0 := by rw [← top a, ← top b, same]
  have rest : a >>> 1 = b >>> 1 := by
    unfold shift at same
    rw [low] at same
    split at same
    · simpa using congrArg (· ^^^ poly) same
    · exact same
  apply BitVec.eq_of_getLsbD_eq
  intro i _
  cases i with
  | zero => exact low
  | succ i =>
    have here := congrArg (fun r => r.getLsbD i) rest
    simpa [Nat.add_comm] using here

/-! ### A run as one shift -/

theorem getLsbD_pack (message : List Bool) (i : Nat) : (pack w message).getLsbD i = (decide (i < w) && message.getD i false) := by
  induction message generalizing i with
  | nil => simp [pack]
  | cons b rest ih =>
    simp only [pack, BitVec.getLsbD_xor, BitVec.getLsbD_shiftLeft, getLsbD_unit, ih]
    cases i with
    | zero => simp
    | succ i =>
      by_cases inside : i + 1 < w
      · simp [inside, show i < w by omega]
      · simp [inside]

theorem pack_injective {a b : List Bool} (long : a.length = b.length) (room : a.length ≤ w) (same : pack w a = pack w b) : a = b := by
  apply List.ext_getElem long
  intro i first second
  have here := congrArg (fun r => r.getLsbD i) same
  simp only [getLsbD_pack, show i < w by omega, decide_true, Bool.true_and] at here
  simpa [first, second] using here

/-- As long as they fit into the register, all coefficients can go in at once. -/
theorem bits_eq_iterate (r : BitVec w) {message : List Bool} (room : message.length ≤ w) :
    bits poly r message = (shift poly)^[message.length] (r ^^^ pack w message) := by
  induction message generalizing r with
  | nil => simp [bits, pack]
  | cons b rest ih =>
    simp only [List.length_cons] at room
    have inner : shift poly (pack w rest <<< 1) = pack w rest := by
      refine shift_double fun i last => ?_
      simp [getLsbD_pack, List.getElem?_eq_none (show rest.length ≤ i by omega)]
    have step : shift poly (r ^^^ pack w (b :: rest)) = bit poly r b ^^^ pack w rest := by
      rw [pack, BitVec.xor_comm (pack w rest <<< 1), ← BitVec.xor_assoc, shift_xor, inner, bit]
    rw [List.length_cons, Function.iterate_succ_apply, step]
    exact ih (bit poly r b) (by omega)

theorem bits_append (r : BitVec w) (a b : List Bool) : bits poly r (a ++ b) = bits poly (bits poly r a) b := List.foldl_append

theorem bits_injective (odd : poly.msb = true) (message : List Bool) : Function.Injective fun r => bits poly r message := by
  induction message with
  | nil => exact fun _ _ same => same
  | cons b rest ih =>
    intro a c same
    have here := shift_injective odd (ih same)
    simpa using congrArg (· ^^^ unit w b) here

/-- Two messages that differ only in a stretch that fits into the register leave different remainders. -/
theorem burst (odd : poly.msb = true) (r : BitVec w) (front back : List Bool) {a b : List Bool} (long : a.length = b.length)
    (room : a.length ≤ w) (same : bits poly r (front ++ a ++ back) = bits poly r (front ++ b ++ back)) : a = b := by
  simp only [bits_append] at same
  have middle : bits poly (bits poly r front) a = bits poly (bits poly r front) b := bits_injective odd back same
  rw [bits_eq_iterate (bits poly r front) room, bits_eq_iterate (bits poly r front) (by omega), long] at middle
  have packed := (shift_injective odd).iterate b.length middle
  exact pack_injective long room (by simpa using congrArg (bits poly r front ^^^ ·) packed)

/-! ### Octets -/

theorem length_octet (b : UInt8) : (octet b).length = 8 := by simp [octet]

theorem length_octets (message : List UInt8) : (octets message).length = 8 * message.length := by
  induction message with
  | nil => rfl
  | cons b rest ih => simp only [octets, List.flatMap_cons, List.length_append, length_octet, List.length_cons] at ih ⊢; omega

theorem octets_append (a b : List UInt8) : octets (a ++ b) = octets a ++ octets b := List.flatMap_append

theorem octet_injective : Function.Injective octet := by
  intro a b same
  apply UInt8.toBitVec_inj.mp
  apply BitVec.eq_of_getLsbD_eq
  intro i inside
  have here := congrArg (fun l => l[i]?) same
  simpa [octet, inside] using here

theorem octets_injective {a b : List UInt8} (same : octets a = octets b) : a = b := by
  induction a generalizing b with
  | nil =>
    have long := congrArg List.length same
    rw [length_octets, length_octets] at long
    refine (List.eq_nil_of_length_eq_zero ?_).symm
    simpa using long.symm
  | cons x a ih =>
    cases b with
    | nil =>
      have long := congrArg List.length same
      rw [length_octets, length_octets] at long
      simp at long
    | cons y b =>
      simp only [octets, List.flatMap_cons] at same
      obtain ⟨head, tail⟩ := List.append_inj same (by rw [length_octet, length_octet])
      rw [octet_injective head, ih tail]

theorem bytes_append (r : BitVec w) (a b : List UInt8) : bytes poly r (a ++ b) = bytes poly (bytes poly r a) b := by
  rw [bytes, octets_append, bits_append]
  rfl

theorem bytes_cons (r : BitVec w) (b : UInt8) (rest : List UInt8) :
    bytes poly r (b :: rest) = bytes poly (bits poly r (octet b)) rest := by
  rw [bytes, octets, List.flatMap_cons, bits_append]
  rfl

theorem bytes_burst (odd : poly.msb = true) (r : BitVec w) (front back : List UInt8) {a b : List UInt8} (long : a.length = b.length)
    (room : 8 * a.length ≤ w) (same : bytes poly r (front ++ a ++ back) = bytes poly r (front ++ b ++ back)) : a = b := by
  simp only [bytes, octets_append] at same
  exact octets_injective (burst odd r _ _ (by rw [length_octets, length_octets, long]) (by rwa [length_octets]) same)

/-! ### Tables -/

variable (poly) in
/-- The remainder of an octet by itself. -/
def entry (b : UInt8) : BitVec w := (shift poly)^[8] (b.toBitVec.setWidth w)

theorem pack_octet (b : UInt8) : pack w (octet b) = b.toBitVec.setWidth w := by
  apply BitVec.eq_of_getLsbD_eq
  intro i inside
  rw [getLsbD_pack, BitVec.getLsbD_setWidth]
  by_cases low : i < 8
  · simp [octet, low, inside]
  · simp [octet, inside, BitVec.getLsbD_of_ge _ i (show 8 ≤ i by omega), List.getElem?_eq_none (show (List.range 8).length ≤ i by simp; omega)]

/-- An octet goes in by one look into the table of all remainders of octets. -/
theorem bits_octet (room : 8 ≤ w) (r : BitVec w) (b : UInt8) :
    bits poly r (octet b) = entry poly (UInt8.ofBitVec (r.setWidth 8) ^^^ b) ^^^ (r >>> 8) := by
  have split : r ^^^ pack w (octet b) = (UInt8.ofBitVec (r.setWidth 8) ^^^ b).toBitVec.setWidth w ^^^ ((r >>> 8) <<< 8) := by
    rw [pack_octet]
    apply BitVec.eq_of_getLsbD_eq
    intro i inside
    simp only [BitVec.getLsbD_xor, BitVec.getLsbD_setWidth, UInt8.toBitVec_xor, BitVec.getLsbD_shiftLeft, BitVec.getLsbD_ushiftRight]
    by_cases low : i < 8
    · simp [low, inside]
    · simp [low, inside, BitVec.getLsbD_of_ge b.toBitVec i (show 8 ≤ i by omega), show 8 + (i - 8) = i by omega]
  rw [bits_eq_iterate r (by rw [length_octet]; exact room), length_octet, split, iterate_xor, entry,
    iterate_shiftLeft 8 fun i last => ?_]
  rw [BitVec.getLsbD_ushiftRight]
  exact BitVec.getLsbD_of_ge r (8 + i) (by omega)

/-! ### The remainder -/

/-- The polynomial of a register. -/
noncomputable def toPoly (r : BitVec w) : (ZMod 2)[X] := ∑ i : Fin w, C (if r.getMsbD i then 1 else 0) * X ^ (i : Nat)

variable (poly) in
/-- The polynomial that is divided by: a register has no room for its highest power. -/
noncomputable def modulus : (ZMod 2)[X] := X ^ w + toPoly poly

/-- The polynomial of a message, the highest power first. -/
noncomputable def toMessage (message : List Bool) : (ZMod 2)[X] := message.foldl (fun p b => X * p + C (if b then 1 else 0)) 0

theorem degree_toPoly (r : BitVec w) : (toPoly r).degree < w := degree_sum_fin_lt _

theorem modulus_monic : (modulus poly).Monic := monic_X_pow_add (degree_toPoly poly)

theorem degree_modulus : (modulus poly).degree = w := by
  rw [modulus, degree_add_eq_left_of_degree_lt, degree_X_pow]
  rw [degree_X_pow]
  exact degree_toPoly poly

theorem toPoly_xor (a b : BitVec w) : toPoly (a ^^^ b) = toPoly a + toPoly b := by
  simp only [toPoly, ← Finset.sum_add_distrib, ← add_mul, ← C_add]
  refine Finset.sum_congr rfl fun i _ => ?_
  rw [BitVec.getMsbD_xor]
  cases a.getMsbD i <;> cases b.getMsbD i <;> simp [CharTwo.add_self_eq_zero]

theorem toPoly_unit (b : Bool) (room : 0 < w) : X * toPoly (unit w b) = C (if b then 1 else 0) * X ^ w := by
  obtain ⟨v, rfl⟩ : ∃ v, w = v + 1 := ⟨w - 1, by omega⟩
  have highest : ∀ i : Fin v, (unit (v + 1) b).getMsbD (i.castSucc : Fin (v + 1)) = false := by
    intro i
    rw [BitVec.getMsbD, getLsbD_unit, Fin.val_castSucc]
    simp [show v - (i : Nat) ≠ 0 by omega]
  have last : (unit (v + 1) b).getMsbD (Fin.last v) = b := by
    rw [BitVec.getMsbD, getLsbD_unit, Fin.val_last]
    simp
  rw [toPoly, Fin.sum_univ_castSucc, Finset.sum_eq_zero fun i _ => by rw [highest i]; simp, last, Fin.val_last]
  ring

theorem toPoly_ushiftRight (r : BitVec w) : X * toPoly r = toPoly (r >>> 1) + C (if r.getLsbD 0 then 1 else 0) * X ^ w := by
  cases w with
  | zero => simp [toPoly, BitVec.of_length_zero]
  | succ v =>
    have up : ∀ i : Fin v, (r >>> 1).getMsbD i.succ = r.getMsbD i.castSucc := by
      intro i
      simp [BitVec.getMsbD_ushiftRight, show (i : Nat) + 1 < v + 1 by omega]
    have first : (r >>> 1).getMsbD (0 : Fin (v + 1)) = false := by simp [BitVec.getMsbD_ushiftRight]
    have last : r.getMsbD (Fin.last v) = r.getLsbD 0 := by simp [BitVec.getMsbD]
    rw [toPoly, Fin.sum_univ_castSucc, toPoly, Fin.sum_univ_succ, first, last, mul_add, Finset.mul_sum]
    have each : ∀ i : Fin v, X * (C (if r.getMsbD i.castSucc then (1 : ZMod 2) else 0) * X ^ (i.castSucc : Nat)) =
        C (if (r >>> 1).getMsbD i.succ then 1 else 0) * X ^ (i.succ : Nat) := by
      intro i
      rw [up i, Fin.val_castSucc, Fin.val_succ]
      ring
    rw [Finset.sum_congr rfl fun i _ => each i, Fin.val_last]
    simp only [Bool.false_eq_true, if_false, map_zero, zero_mul, zero_add]
    ring

variable (poly) in
/-- A shift multiplies by `X`, up to a multiple of the polynomial that is divided by. -/
theorem toPoly_shift (r : BitVec w) : X * toPoly r = toPoly (shift poly r) + modulus poly * C (if r.getLsbD 0 then 1 else 0) := by
  rw [toPoly_ushiftRight]
  unfold shift modulus
  cases r.getLsbD 0 with
  | false => simp
  | true =>
    have twice : toPoly poly + toPoly poly = 0 := CharTwo.add_self_eq_zero _
    simp only [if_true, toPoly_xor, map_one, one_mul, mul_one]
    linear_combination -twice

variable (poly) in
theorem bits_divides (room : 0 < w) (r : BitVec w) (message : List Bool) :
    ∃ q, X ^ message.length * toPoly r + X ^ w * toMessage message = toPoly (bits poly r message) + modulus poly * q := by
  induction message using List.reverseRecOn with
  | nil => exact ⟨0, by simp [bits, toMessage]⟩
  | append_singleton front b ih =>
    obtain ⟨q, same⟩ := ih
    have message : toMessage (front ++ [b]) = X * toMessage front + C (if b then 1 else 0) := by simp [toMessage]
    have step : bits poly r (front ++ [b]) = shift poly (bits poly r front ^^^ unit w b) := by
      rw [bits_append]
      rfl
    have shifted := toPoly_shift poly (bits poly r front ^^^ unit w b)
    rw [toPoly_xor, mul_add, toPoly_unit b room] at shifted
    refine ⟨X * q + C (if (bits poly r front ^^^ unit w b).getLsbD 0 then 1 else 0), ?_⟩
    rw [message, step, List.length_append, List.length_singleton]
    linear_combination X * same + shifted

/-- The register holds the remainder of the message, moved up by the width of the register, with the register that the
run began with in front. -/
theorem bits_remainder (room : 0 < w) (r : BitVec w) (message : List Bool) :
    toPoly (bits poly r message) = (X ^ message.length * toPoly r + X ^ w * toMessage message) %ₘ modulus poly := by
  obtain ⟨q, same⟩ := bits_divides poly room r message
  refine ((div_modByMonic_unique q _ modulus_monic ⟨same.symm, ?_⟩).2).symm
  rw [degree_modulus]
  exact degree_toPoly _

end Crc
