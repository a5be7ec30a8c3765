import Cmux.Foundation.ShiftRegister
import Cmux.Frame.Crc
import Cmux.Frame.Info

/-! The table of `crc.c` against the generator it stands for, bit by bit, and the errors that the
checking sequence detects. -/
namespace Cmux
open Access ShiftRegister

/-- The generator x⁸ + x² + x + 1, its lowest power at the high end. -/
def fcsGenerator : BitVec 8 := 0xE0#8

def octetBits (octet : UInt8) : List Bool := (List.range 8).map octet.toBitVec.getLsbD

/-- The bits of a string in the order of transmission. -/
def transmitted (octets : List UInt8) : List Bool := octets.flatMap octetBits

def fcsRegister (octets : List UInt8) : BitVec 8 :=
  feed fcsGenerator crcFcsPolynomial.toBitVec (transmitted octets)

/-! ### The table -/

theorem octetBits_length (octet : UInt8) : (octetBits octet).length = 8 := by
  simp [octetBits]

theorem octetBits_getElem? (octet : UInt8) {i : ℕ} (hi : i < 8) :
    (octetBits octet)[i]? = some (octet.toBitVec.getLsbD i) := by
  simp [octetBits, hi]

theorem word_octetBits (octet : UInt8) : word 8 (octetBits octet) = octet.toBitVec := by
  apply BitVec.eq_of_getLsbD_eq
  intro i hi
  rw [word_getLsbD 8 _ hi, octetBits_getElem? octet hi, Option.getD_some]

/-- Each entry of the table is eight shifts of its index. -/
theorem crcTable_get (octet : UInt8) :
    (crcTable.get octet.toFin).toBitVec = (shift fcsGenerator)^[8] octet.toBitVec := by
  have hentries : crcTable.toList.map UInt8.toBitVec =
      (List.range 256).map fun k => (shift fcsGenerator)^[8] (BitVec.ofNat 8 k) := by
    decide +kernel
  have hget : (crcTable.toList.map UInt8.toBitVec)[octet.toNat]? =
      some (crcTable.get octet.toFin).toBitVec := by
    simp [Vector.get, octet.toNat_lt]
  rw [hentries] at hget
  simpa [octet.toNat_lt] using hget.symm

/-- One look-up feeds the register eight bits. -/
theorem crcStep_toBitVec (fcs octet : UInt8) :
    (crcStep fcs octet).toBitVec = feed fcsGenerator fcs.toBitVec (octetBits octet) := by
  rw [crcStep, crcTable_get, feed_eq_iterate _ _ (Nat.le_of_eq (octetBits_length octet)),
    octetBits_length, word_octetBits, UInt8.toBitVec_xor]

theorem foldl_crcStep_toBitVec (octets : List UInt8) (fcs : UInt8) :
    (octets.foldl crcStep fcs).toBitVec =
      feed fcsGenerator fcs.toBitVec (transmitted octets) := by
  induction octets generalizing fcs with
  | nil => rfl
  | cons octet octets ih =>
    rw [List.foldl_cons, ih, crcStep_toBitVec, transmitted, transmitted, List.flatMap_cons,
      feed_append]

theorem crc_toBitVec (octets : List UInt8) : (crc octets).toBitVec = ~~~fcsRegister octets := by
  have hcomplement (fcs : UInt8) : (0xFF - fcs).toBitVec = ~~~fcs.toBitVec :=
    BitVec.allOnes_sub_eq_not _
  rw [crc, hcomplement, foldl_crcStep_toBitVec, fcsRegister]

/-- `cmux_crc` is the ones' complement of the register that was fed the string bit by bit. -/
theorem cmuxCrc_bitwise (octets : List UInt8) (beyond : ℕ → UInt8) :
    ((cmuxCrc 0 octets.length).value (view octets beyond)).toBitVec =
      ~~~feed 0xE0#8 0xFF#8 (transmitted octets) := by
  rw [cmuxCrc_value, slice_view (by omega), List.drop_zero, List.take_length, crc_toBitVec]
  rfl

/-! ### Errors -/

def differences (xs ys : List UInt8) : List Bool :=
  List.zipWith Bool.xor (transmitted xs) (transmitted ys)

theorem transmitted_length (octets : List UInt8) :
    (transmitted octets).length = 8 * octets.length := by
  induction octets with
  | nil => rfl
  | cons octet octets ih =>
    rw [transmitted, List.flatMap_cons, List.length_append, octetBits_length, ← transmitted, ih,
      List.length_cons]
    omega

theorem octetBits_injective : Function.Injective octetBits := by
  intro a b h
  rw [← UInt8.toBitVec_inj, ← word_octetBits a, ← word_octetBits b, h]

theorem transmitted_injective {xs ys : List UInt8} (hlen : xs.length = ys.length)
    (h : transmitted xs = transmitted ys) : xs = ys := by
  induction xs generalizing ys with
  | nil => exact (List.length_eq_zero_iff.mp hlen.symm).symm
  | cons x xs ih =>
    cases ys with
    | nil => cases hlen
    | cons y ys =>
      rw [transmitted, transmitted, List.flatMap_cons, List.flatMap_cons] at h
      obtain ⟨hhead, htail⟩ := List.append_inj h (by rw [octetBits_length, octetBits_length])
      rw [octetBits_injective hhead, ih (Nat.succ.inj hlen) htail]

/-- Bit strings without a difference are the same. -/
theorem eq_of_zipWith_xor {bs cs : List Bool} (hlen : bs.length = cs.length)
    (h : true ∉ List.zipWith Bool.xor bs cs) : bs = cs := by
  induction bs generalizing cs with
  | nil => exact (List.length_eq_zero_iff.mp hlen.symm).symm
  | cons b bs ih =>
    cases cs with
    | nil => cases hlen
    | cons c cs =>
      rw [List.zipWith_cons_cons, List.mem_cons, not_or] at h
      have hhead : b = c := by
        have := h.1
        cases b <;> cases c <;> simp_all
      rw [hhead, ih (Nat.succ.inj hlen) h.2]

/-- Strings that differ do so in some bit. -/
theorem mem_differences {xs ys : List UInt8} (hlen : xs.length = ys.length) (h : xs ≠ ys) :
    true ∈ differences xs ys := by
  by_contra hnone
  apply h
  apply transmitted_injective hlen
  apply eq_of_zipWith_xor _ hnone
  rw [transmitted_length, transmitted_length, hlen]

theorem crc_eq_iff {xs ys : List UInt8} (hlen : xs.length = ys.length) :
    crc xs = crc ys ↔ feed fcsGenerator 0#8 (differences xs ys) = 0#8 := by
  have hbits : (transmitted xs).length = (transmitted ys).length := by
    rw [transmitted_length, transmitted_length, hlen]
  rw [← UInt8.toBitVec_inj, crc_toBitVec, crc_toBitVec, BitVec.not_inj, fcsRegister, fcsRegister,
    feed_eq_iff _ _ hbits, differences]

/-- Two strings of one length have different checking sequences when they differ in an odd number
of bits, or in bits that all stand within eight places. -/
theorem crc_ne {xs ys : List UInt8} (hlen : xs.length = ys.length)
    (h : Odd ((differences xs ys).count true) ∨ xs ≠ ys ∧ ∃ i, ∀ k,
      (differences xs ys)[k]? = some true → i ≤ k ∧ k < i + 8) : crc xs ≠ crc ys := by
  intro heq
  rw [crc_eq_iff hlen] at heq
  rcases h with hodd | ⟨hne, i, hburst⟩
  · exact feed_odd (by decide : parity fcsGenerator = true) (by decide) hodd heq
  · exact feed_burst (by decide : fcsGenerator.msb = true) hburst (mem_differences hlen hne) heq

/-- `cmux_crc` tells two such strings apart. -/
theorem cmuxCrc_detects {xs ys : List UInt8} (hlen : xs.length = ys.length)
    (h : Odd ((differences xs ys).count true) ∨ xs ≠ ys ∧ ∃ i, ∀ k,
      (differences xs ys)[k]? = some true → i ≤ k ∧ k < i + 8) (beyond beyond' : ℕ → UInt8) :
    (cmuxCrc 0 xs.length).value (view xs beyond) ≠
      (cmuxCrc 0 ys.length).value (view ys beyond') := by
  rw [cmuxCrc_value, cmuxCrc_value, slice_view (by omega), slice_view (by omega), List.drop_zero,
    List.drop_zero, List.take_length, List.take_length]
  exact crc_ne hlen h

/-- A frame header with its eighth and ninth bits received wrong. -/
theorem cmuxCrc_detects_header :
    (cmuxCrc 0 [(0x03 : UInt8), 0x3F, 0x01].length).value (view [0x03, 0x3F, 0x01] fun _ => 0) ≠
      (cmuxCrc 0 [(0x83 : UInt8), 0x3E, 0x01].length).value
        (view [0x83, 0x3E, 0x01] fun _ => 0) := by
  have hplaces : ∀ k < 24, (differences [0x03, 0x3F, 0x01] [0x83, 0x3E, 0x01])[k]? = some true →
      7 ≤ k ∧ k < 7 + 8 := by
    decide +kernel
  have hburst : ∀ k, (differences [0x03, 0x3F, 0x01] [0x83, 0x3E, 0x01])[k]? = some true →
      7 ≤ k ∧ k < 7 + 8 := by
    intro k hk
    obtain ⟨hlt, -⟩ := List.getElem?_eq_some_iff.mp hk
    rw [differences, List.length_zipWith, transmitted_length, transmitted_length] at hlt
    exact hplaces k hlt hk
  exact @cmuxCrc_detects [0x03, 0x3F, 0x01] [0x83, 0x3E, 0x01] rfl
    (Or.inr ⟨by decide, 7, hburst⟩) (fun _ => 0) fun _ => 0

end Cmux
