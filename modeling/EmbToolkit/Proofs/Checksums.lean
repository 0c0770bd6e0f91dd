import EmbToolkit.Library.Crc
import EmbToolkit.Mkimage.Crc32

/-! The checksum of `mkimage` is the complement of a remainder: the table, the eight octets at a time and the register
that is all ones at the start only rearrange a division by the polynomial that the source writes down. -/

namespace EmbToolkit.Proofs.Checksums
open Mkimage Polynomial

/-- The terms as a register. -/
def poly : BitVec 32 := BitVec.ofNat 32 pattern

theorem poly_odd : poly.msb = true := by decide

/-- The table in the source is the one that `make_crc_table` makes. -/
theorem table_made : crcTable = makeCrcTable := by decide +kernel

theorem divides_shift (r : BitVec 32) :
    (if r.toNat &&& 1 ≠ 0 then pattern ^^^ (r.toNat >>> 1) else r.toNat >>> 1) = (Crc.shift poly r).toNat := by
  have low : r.toNat &&& 1 ≠ 0 ↔ r.getLsbD 0 = true := by
    rw [Nat.and_one_is_mod, BitVec.getLsbD, Nat.testBit_zero, decide_eq_true_eq]
    omega
  have same : poly.toNat = pattern := by decide
  unfold Crc.shift
  by_cases on : r.getLsbD 0 = true
  · rw [if_pos (low.mpr on), if_pos on, BitVec.toNat_xor, BitVec.toNat_ushiftRight, same, Nat.xor_comm]
  · rw [if_neg (mt low.mp on), if_neg on, BitVec.toNat_ushiftRight]

theorem table_entry (b : UInt8) : crcTable.getD b.toNat 0 = (Crc.entry poly b).toNat := by
  have each : ∀ (n : Nat) (r : BitVec 32),
      (fun c => if c &&& 1 ≠ 0 then pattern ^^^ (c >>> 1) else c >>> 1)^[n] r.toNat = ((Crc.shift poly)^[n] r).toNat := by
    intro n
    induction n with
    | zero => exact fun r => rfl
    | succ n ih =>
      intro r
      rw [Function.iterate_succ_apply, Function.iterate_succ_apply, divides_shift]
      exact ih _
  have small : b.toNat < 256 := b.toNat_lt
  have start : b.toNat = (b.toBitVec.setWidth 32).toNat := by simp [Nat.mod_eq_of_lt (show b.toNat < 4294967296 by omega)]
  rw [table_made, makeCrcTable, List.getD_eq_getElem?_getD, List.getElem?_map, List.getElem?_range small, Crc.entry, ← each 8, ← start]
  rfl

/-- One look into the table takes in one octet. -/
theorem do1_octet (r : BitVec 32) (b : UInt8) : do1 r.toNat b = (Crc.bits poly r (Crc.octet b)).toNat := by
  have index : (r.toNat ^^^ b.toNat) &&& 0xff = (UInt8.ofBitVec (r.setWidth 8) ^^^ b).toNat := by
    rw [Nat.and_two_pow_sub_one_eq_mod _ 8, Nat.xor_mod_two_pow, UInt8.toNat_xor, Nat.mod_eq_of_lt b.toNat_lt]
    simp
  rw [do1, index, table_entry, Crc.bits_octet (by omega), BitVec.toNat_xor, BitVec.toNat_ushiftRight]

theorem foldl_bytes (r : BitVec 32) (buf : List UInt8) : buf.foldl do1 r.toNat = (Crc.bytes poly r buf).toNat := by
  induction buf generalizing r with
  | nil => rfl
  | cons b rest ih =>
    rw [List.foldl_cons, do1_octet, ih, Crc.bytes_cons]

/-- The loop over eight octets at a time goes through all of them. -/
theorem loop_plain (crc : Nat) (buf : List UInt8) : crcLoop crc buf = buf.foldl do1 crc := by
  induction crc, buf using crcLoop.induct with
  | case1 crc a b c d e f g h rest ih =>
    rw [crcLoop, ih]
    rfl
  | case2 crc rest short => rw [crcLoop]; exact short

theorem complement (r : BitVec 32) : r.toNat ^^^ 0xffffffff = (~~~r).toNat := by
  rw [← BitVec.xor_allOnes, BitVec.toNat_xor, BitVec.toNat_allOnes]

theorem crc32_bytes (r : BitVec 32) (buf : List UInt8) : crc32 r.toNat buf = (~~~Crc.bytes poly (~~~r) buf).toNat := by
  rw [crc32, complement, loop_plain, foldl_bytes, complement]

/-- A checksum can be taken piece by piece. -/
theorem crc32_append (r : BitVec 32) (a b : List UInt8) : crc32 r.toNat (a ++ b) = crc32 (crc32 r.toNat a) b := by
  rw [crc32_bytes, crc32_bytes r a, crc32_bytes, Crc.bytes_append, BitVec.not_not]

theorem crc32_lt (buf : List UInt8) : crc32 0 buf < 2 ^ 32 := crc32_bytes 0#32 buf ▸ BitVec.isLt _

/-- Checksums tell messages apart that differ in four adjacent octets at the most. -/
theorem crc32_burst (front back : List UInt8) {a b : List UInt8} (long : a.length = b.length) (short : a.length ≤ 4)
    (same : crc32 0 (front ++ a ++ back) = crc32 0 (front ++ b ++ back)) : a = b := by
  have registers := BitVec.eq_of_toNat_eq ((crc32_bytes 0#32 _).symm.trans (same.trans (crc32_bytes 0#32 _)))
  exact Crc.bytes_burst poly_odd (~~~0#32) front back long (by omega) (BitVec.not_inj.mp registers)

/-! ### The polynomial -/

theorem modulus_terms : Crc.modulus poly = X ^ 32 + (terms.map fun n => (X : (ZMod 2)[X]) ^ n).sum := by
  have each : ∀ i : Fin 32, poly.getMsbD i = decide ((i : Nat) ∈ terms) := by decide
  have listed : (Finset.range 32).filter (· ∈ terms) = terms.toFinset := by decide
  have part : ∀ i : Fin 32, C (if poly.getMsbD i then (1 : ZMod 2) else 0) * X ^ (i : Nat) = if (i : Nat) ∈ terms then X ^ (i : Nat) else 0 := by
    intro i
    rw [each i]
    by_cases known : (i : Nat) ∈ terms <;> simp [known]
  rw [Crc.modulus, Crc.toPoly, Finset.sum_congr rfl fun i _ => part i,
    Fin.sum_univ_eq_sum_range fun n => if n ∈ terms then (X : (ZMod 2)[X]) ^ n else 0, ← Finset.sum_filter, listed,
    List.sum_toFinset _ (by decide)]

/-- The complement of a checksum is what is left of the message, moved up by 32 places and with 32 ones in front, in the
division by the polynomial of the terms. -/
theorem crc32_remainder (buf : List UInt8) : crc32 0 buf < 2 ^ 32 ∧
    Crc.toPoly (~~~BitVec.ofNat 32 (crc32 0 buf)) =
      (X ^ (8 * buf.length) * Crc.toPoly (BitVec.allOnes 32) + X ^ 32 * Crc.toMessage (Crc.octets buf)) %ₘ
        (X ^ 32 + (terms.map fun n => X ^ n).sum) := by
  refine ⟨crc32_lt buf, ?_⟩
  have register : ~~~BitVec.ofNat 32 (crc32 0 buf) = Crc.bytes poly (BitVec.allOnes 32) buf := by
    have here : crc32 0 buf = _ := crc32_bytes 0#32 buf
    rw [here, BitVec.ofNat_toNat, BitVec.setWidth_eq, BitVec.not_not, BitVec.not_zero]
  rw [register, Crc.bytes, Crc.bits_remainder (by omega), Crc.length_octets, modulus_terms]

end EmbToolkit.Proofs.Checksums
