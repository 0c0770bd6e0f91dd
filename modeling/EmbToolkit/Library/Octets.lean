import Mathlib.Algebra.Group.Nat.Defs
import Mathlib.Algebra.Order.Ring.Nat
import Mathlib.Tactic.Linarith
import Mathlib.Tactic.Positivity
import Mathlib.Tactic.Ring

/-! Numbers in a fixed count of octets, the most significant one first. -/

namespace Octets

def encode : Nat → Nat → List UInt8
  | 0, _ => []
  | count + 1, value => UInt8.ofNat (value / 256 ^ count) :: encode count value

def decode (octets : List UInt8) : Nat := octets.foldl (fun value b => value * 256 + b.toNat) 0

theorem length_encode (count value : Nat) : (encode count value).length = count := by
  induction count with
  | zero => rfl
  | succ count ih => rw [encode, List.length_cons, ih]

theorem foldl_decode (start : Nat) (octets : List UInt8) :
    octets.foldl (fun value b => value * 256 + b.toNat) start = start * 256 ^ octets.length + decode octets := by
  induction octets generalizing start with
  | nil => simp [decode]
  | cons b rest ih =>
    rw [decode, List.foldl_cons, List.foldl_cons, ih, ih (0 * 256 + b.toNat), List.length_cons]
    ring

theorem decode_cons (b : UInt8) (rest : List UInt8) : decode (b :: rest) = b.toNat * 256 ^ rest.length + decode rest := by
  rw [decode, List.foldl_cons, foldl_decode]
  ring

theorem decode_lt (octets : List UInt8) : decode octets < 256 ^ octets.length := by
  induction octets with
  | nil => simp [decode]
  | cons b rest ih =>
    have small : b.toNat < 256 := b.toNat_lt
    have room : (b.toNat + 1) * 256 ^ rest.length ≤ 256 * 256 ^ rest.length := Nat.mul_le_mul_right _ small
    rw [decode_cons, List.length_cons, pow_succ]
    linarith

/-- What does not fit into the octets is cut off. -/
theorem decode_encode (count value : Nat) : decode (encode count value) = value % 256 ^ count := by
  induction count with
  | zero => simp [encode, decode, Nat.mod_one]
  | succ count ih =>
    rw [encode, decode_cons, ih, length_encode, UInt8.toNat_ofNat', pow_succ 256 count, Nat.mod_mul, Nat.add_comm, Nat.mul_comm]

theorem encode_mod (count value : Nat) : encode count (value % 256 ^ count) = encode count value := by
  induction count generalizing value with
  | zero => rfl
  | succ count ih =>
    have lower : value % 256 ^ (count + 1) % 256 ^ count = value % 256 ^ count := Nat.mod_mod_of_dvd _ (pow_dvd_pow _ (by omega))
    have upper : UInt8.ofNat (value % 256 ^ (count + 1) / 256 ^ count) = UInt8.ofNat (value / 256 ^ count) := by
      rw [pow_succ, Nat.mod_mul_right_div_self]
      apply UInt8.toNat_inj.mp
      rw [UInt8.toNat_ofNat', UInt8.toNat_ofNat', Nat.mod_mod]
    rw [encode, encode, upper, ← ih (value % 256 ^ (count + 1)), lower, ih]

theorem encode_decode (octets : List UInt8) : encode octets.length (decode octets) = octets := by
  induction octets with
  | nil => rfl
  | cons b rest ih =>
    have first : (b.toNat * 256 ^ rest.length + decode rest) / 256 ^ rest.length = b.toNat := by
      rw [Nat.add_comm, Nat.add_mul_div_right _ _ (by positivity), Nat.div_eq_of_lt (decode_lt rest), Nat.zero_add]
    have others : (b.toNat * 256 ^ rest.length + decode rest) % 256 ^ rest.length = decode rest := by
      rw [Nat.add_comm, Nat.add_mul_mod_self_right, Nat.mod_eq_of_lt (decode_lt rest)]
    rw [List.length_cons, encode, decode_cons, first, UInt8.ofNat_toNat, ← encode_mod, others, ih]

end Octets
