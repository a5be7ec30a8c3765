import Mathlib.Algebra.Group.Nat.Defs
import Mathlib.Data.List.Basic
import Mathlib.Data.Int.Notation

/-! Constants and records of `cmux_frame_type.h`, `cmux_frame_info.h` and
`cmux_frame_builder.h`. -/
namespace Cmux

/-- A statement about every octet is decided on the 256 of them. -/
instance decidableForallOctet {P : UInt8 → Prop} [DecidablePred P] : Decidable (∀ a, P a) :=
  decidable_of_iff (∀ n : Fin 256, P (UInt8.ofFin n)) ⟨fun h a => h a.toFin, fun h _ => h _⟩

/-- The lowest bit of an octet is its parity. -/
theorem octet_even_iff (octet : UInt8) : octet &&& 0x01 = 0 ↔ octet.toNat % 2 = 0 := by
  rw [← UInt8.toNat_inj, UInt8.toNat_and]
  exact Nat.and_one_is_mod _ ▸ Iff.rfl

/-- A mask of the low bits keeps what has no others. -/
theorem octet_and_low {octet mask : UInt8} {n : ℕ} (hmask : mask.toNat = 2 ^ n - 1)
    (h : octet.toNat < 2 ^ n) : octet &&& mask = octet := by
  rw [← UInt8.toNat_inj, UInt8.toNat_and, hmask, Nat.and_two_pow_sub_one_eq_mod,
    Nat.mod_eq_of_lt h]

/-- An octet without the bits of a mask is kept by its complement. -/
theorem octet_and_not {octet mask : UInt8} (h : octet &&& mask = 0) :
    octet &&& ~~~mask = octet := by
  have hbits (i : ℕ) : (octet.toBitVec.getLsbD i && mask.toBitVec.getLsbD i) = false := by
    rw [← BitVec.getLsbD_and, ← UInt8.toBitVec_and, h]
    exact BitVec.getLsbD_zero
  apply UInt8.toBitVec_inj.mp
  apply BitVec.eq_of_getLsbD_eq
  intro i hi
  rw [UInt8.toBitVec_and, UInt8.toBitVec_not, BitVec.getLsbD_and, BitVec.getLsbD_not]
  have hclear := hbits i
  grind

/-- The control octet without its poll/final bit. The parser converts any octet to the
enumeration, so a value need not be one of the named ones. -/
abbrev ControlType := UInt8

namespace ControlType

def sabm : ControlType := 0b00101111
def ua : ControlType := 0b01100011
def dm : ControlType := 0b00001111
def disc : ControlType := 0b01000011
def uih : ControlType := 0b11101111
def ui : ControlType := 0b00000011

end ControlType

def controlTypePollFinal : UInt8 := 0b00010000

/-- Opening and closing flag. -/
def cmuxFrameHeaderFooter : UInt8 := 0xF9

def cmuxFrameHeaderSize : ℕ := 3
def cmuxFrameFooterSize : ℕ := 2
def cmuxFrameLengthSize : ℕ := 1
def cmuxFrameExtendedLengthSize : ℕ := 2

structure FrameInfo where
  header : UInt8
  ea : Bool
  cr : Bool
  dlci : UInt8
  type : ControlType
  pollFinal : Bool
  length : UInt16
  fcs : UInt8
  calculatedFcs : UInt8
  frameDataIndex : ℤ
  footer : UInt8
  deriving DecidableEq, Repr

def FrameInfo.zero : FrameInfo := ⟨0, false, false, 0, 0, false, 0, 0, 0, 0, 0⟩

/-- `struct builder_frame_info_t`, the frame to encode. The body pointer is the octets it
points to. -/
structure BuilderFrameInfo where
  ea : Bool
  cr : Bool
  dlci : UInt8
  type : ControlType
  pollFinal : Bool
  length : UInt16
  frameDataBody : Option (List UInt8)
  deriving DecidableEq, Repr

def BuilderFrameInfo.zero : BuilderFrameInfo := ⟨false, false, 0, 0, false, 0, none⟩

end Cmux
