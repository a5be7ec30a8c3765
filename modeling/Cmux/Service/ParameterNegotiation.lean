import Cmux.Frame.Info
import Cmux.Service.Bodies

/-! Parameter negotiation there and back. All fields but the timer T1 survive. Its octet counts
hundredths of a second, and the codec counts it in tenths. -/
namespace Cmux
open Access Access.Prog

/-! ### The fields in their octets -/

/-- Two half octets are told apart again. -/
theorem halfOctets_decoded {low high : UInt8} (hlow : low.toNat ≤ 15) (hhigh : high.toNat ≤ 15) :
    ((low &&& 0b00001111 : UInt8) ||| (high &&& 0b00001111 : UInt8) <<< 4) &&& 0b00001111 = low ∧
      (((low &&& 0b00001111 : UInt8) ||| (high &&& 0b00001111 : UInt8) <<< 4) &&&
        0b11110000) >>> 4 = high := by
  have hmask {octet : UInt8} (h : octet.toNat ≤ 15) : octet &&& 0b00001111 = octet :=
    octet_and_low (n := 4) rfl (Nat.lt_succ_of_le h)
  have hoctet : (low ||| high <<< 4).toNat = 16 * high.toNat + low.toNat := by
    have hshift : (high <<< 4).toNat = 2 ^ 4 * high.toNat := by
      rw [UInt8.toNat_shiftLeft]
      change high.toNat <<< 4 % 2 ^ 8 = _
      rw [Nat.shiftLeft_eq, Nat.mul_comm, Nat.mod_eq_of_lt (by omega)]
    rw [UInt8.toNat_or, hshift, Nat.or_comm, ← Nat.two_pow_add_eq_or_of_lt (by omega)]
  rw [hmask hlow, hmask hhigh]
  constructor
  · rw [← UInt8.toNat_inj, UInt8.toNat_and, hoctet]
    change (16 * high.toNat + low.toNat) &&& 2 ^ 4 - 1 = _
    rw [Nat.and_two_pow_sub_one_eq_mod]
    omega
  · rw [← UInt8.toNat_inj, UInt8.toNat_shiftRight, UInt8.toNat_and, hoctet]
    change ((16 * high.toNat + low.toNat) &&& 240) >>> 4 = _
    rw [Nat.shiftRight_and_distrib]
    change ((16 * high.toNat + low.toNat) >>> 4) &&& 2 ^ 4 - 1 = _
    rw [Nat.and_two_pow_sub_one_eq_mod, Nat.shiftRight_eq_div_pow]
    omega

/-- Sixteen bits go out in two octets, the low one first. -/
theorem twoOctets_decoded (size : UInt16) :
    (size &&& 0b11111111).toUInt8.toUInt16 |||
      ((size >>> 8) &&& 0b11111111).toUInt8.toUInt16 <<< 8 = size := by
  have hsize := size.toNat_lt
  have hlow : (size &&& 0b11111111).toUInt8.toUInt16.toNat = size.toNat % 256 := by
    rw [UInt8.toNat_toUInt16, UInt16.toNat_toUInt8, UInt16.toNat_and]
    change (size.toNat &&& 2 ^ 8 - 1) % 2 ^ 8 = _
    rw [Nat.and_two_pow_sub_one_eq_mod]
    omega
  have hhigh : ((size >>> 8) &&& 0b11111111).toUInt8.toUInt16.toNat = size.toNat / 256 := by
    rw [UInt8.toNat_toUInt16, UInt16.toNat_toUInt8, UInt16.toNat_and, UInt16.toNat_shiftRight]
    change ((size.toNat >>> 8) &&& 2 ^ 8 - 1) % 2 ^ 8 = _
    rw [Nat.and_two_pow_sub_one_eq_mod, Nat.shiftRight_eq_div_pow]
    omega
  rw [← UInt16.toNat_inj, UInt16.toNat_or, UInt16.toNat_shiftLeft, hlow, hhigh, Nat.or_comm]
  change (size.toNat / 256) <<< 8 % 2 ^ 16 ||| size.toNat % 256 = _
  rw [Nat.shiftLeft_eq, Nat.mod_eq_of_lt (by omega), Nat.mul_comm,
    ← Nat.two_pow_add_eq_or_of_lt (i := 8) (by omega)]
  omega

/-! ### The record -/

/-- The ranges of the fields, with a timer of whole hundredths of a second that fits one octet. -/
structure DocumentedParameters (parameters : ParameterNegotiationParameters) : Prop where
  dlci : parameters.dlci.toNat ≤ 63
  frameType : parameters.frameType.toNat ≤ 15
  layerType : parameters.layerType.toNat ≤ 15
  priority : parameters.priority.toNat ≤ 63
  windowSize : parameters.windowSize.toNat ≤ 7
  ackTimerMsec : parameters.ackTimerMsec.toNat % 10 = 0
  ackTimerMsec_le : parameters.ackTimerMsec.toNat ≤ 2550

def ackTimerOctet (parameters : ParameterNegotiationParameters) : UInt8 :=
  (parameters.ackTimerMsec / 100).toUInt8

/-- The record is read back, and the timer goes out in hundredths of a second. -/
def ParametersRoundTrip (parameters : ParameterNegotiationParameters) (octets : ℕ → UInt8) :
    Prop :=
  (parameterNegotiationDecode 0).value ((parameterNegotiationEncode parameters).memory octets) =
      parameters ∧
    ((parameterNegotiationEncode parameters).memory octets 3).toNat =
      parameters.ackTimerMsec.toNat / 10

theorem parameterNegotiationEncode_slice (parameters : ParameterNegotiationParameters)
    (octets : ℕ → UInt8) :
    slice ((parameterNegotiationEncode parameters).memory octets) 0
        parameterNegotiationEncodeLength =
      [parameters.dlci &&& 0b00111111,
        (parameters.frameType &&& 0b00001111 : UInt8) |||
          (parameters.layerType &&& 0b00001111 : UInt8) <<< 4,
        parameters.priority &&& 0b00111111, ackTimerOctet parameters,
        (parameters.maxFrameSize &&& 0b11111111).toUInt8,
        ((parameters.maxFrameSize >>> 8) &&& 0b11111111).toUInt8,
        parameters.maxRetransmissions, parameters.windowSize &&& 0b00000111] := by
  simp [parameterNegotiationEncode, parameterNegotiationEncodeLength, ackTimerOctet, slice_succ]

section Record
variable {parameters : ParameterNegotiationParameters} (h : DocumentedParameters parameters)
include h

/-- Whatever the timer, the other fields are read back. -/
theorem parameterNegotiationDecode_encoded (octets : ℕ → UInt8) :
    (parameterNegotiationDecode 0).value ((parameterNegotiationEncode parameters).memory octets) =
      { parameters with ackTimerMsec := (ackTimerOctet parameters).toUInt32 * 100 } := by
  have hslice := parameterNegotiationEncode_slice parameters octets
  simp only [parameterNegotiationEncodeLength, slice_succ, slice_zero, List.cons.injEq,
    and_true] at hslice
  obtain ⟨h0, h1, h2, h3, h4, h5, h6, h7⟩ := hslice
  obtain ⟨hframe, hlayer⟩ := halfOctets_decoded h.frameType h.layerType
  have hdlci : parameters.dlci &&& 0b00111111 = parameters.dlci :=
    octet_and_low (n := 6) rfl (Nat.lt_succ_of_le h.dlci)
  have hpriority : parameters.priority &&& 0b00111111 = parameters.priority :=
    octet_and_low (n := 6) rfl (Nat.lt_succ_of_le h.priority)
  have hwindow : parameters.windowSize &&& 0b00000111 = parameters.windowSize :=
    octet_and_low (n := 3) rfl (Nat.lt_succ_of_le h.windowSize)
  simp only [parameterNegotiationDecode, value_bind, value_cell, memory_cell, value_pure,
    Nat.zero_add, h0, h1, h2, h3, h4, h5, h6, h7, hdlci, hpriority, hwindow, hframe, hlayer,
    twoOctets_decoded]

theorem ackTimerOctet_toNat :
    (ackTimerOctet parameters).toNat = parameters.ackTimerMsec.toNat / 100 := by
  have hle := h.ackTimerMsec_le
  rw [ackTimerOctet, UInt32.toNat_toUInt8, UInt32.toNat_div]
  change parameters.ackTimerMsec.toNat / 100 % 2 ^ 8 = _
  omega

/-- The timer is read back when it is a whole number of tenths of a second. -/
theorem parameterNegotiationDecode_eq_iff (octets : ℕ → UInt8) :
    (parameterNegotiationDecode 0).value ((parameterNegotiationEncode parameters).memory octets) =
      parameters ↔ parameters.ackTimerMsec.toNat % 100 = 0 := by
  have hle := h.ackTimerMsec_le
  have htimer : ((ackTimerOctet parameters).toUInt32 * 100).toNat =
      parameters.ackTimerMsec.toNat / 100 * 100 := by
    rw [UInt32.toNat_mul, UInt8.toNat_toUInt32, ackTimerOctet_toNat h]
    change parameters.ackTimerMsec.toNat / 100 * 100 % 2 ^ 32 = _
    omega
  rw [parameterNegotiationDecode_encoded h]
  constructor
  · intro heq
    have hsame := congrArg (fun p => p.ackTimerMsec.toNat) heq
    dsimp only at hsame
    omega
  · intro hwhole
    have hsame : (ackTimerOctet parameters).toUInt32 * 100 = parameters.ackTimerMsec := by
      rw [← UInt32.toNat_inj]
      omega
    rw [hsame]

/-- The octet counts hundredths of a second when it is zero. -/
theorem ackTimerOctet_eq_iff : (ackTimerOctet parameters).toNat =
    parameters.ackTimerMsec.toNat / 10 ↔ parameters.ackTimerMsec = 0 := by
  have hwhole := h.ackTimerMsec
  rw [ackTimerOctet_toNat h, ← UInt32.toNat_inj, UInt32.toNat_zero]
  omega

/-- A record of the documented ranges goes out in the documented unit and comes back exactly when
the timer is zero. -/
theorem parametersRoundTrip_iff (octets : ℕ → UInt8) :
    ParametersRoundTrip parameters octets ↔ parameters.ackTimerMsec = 0 := by
  have hoctet : (parameterNegotiationEncode parameters).memory octets 3 =
      ackTimerOctet parameters := by
    have hslice := parameterNegotiationEncode_slice parameters octets
    simp only [parameterNegotiationEncodeLength, slice_succ, slice_zero, List.cons.injEq] at hslice
    exact hslice.2.2.2.1
  rw [ParametersRoundTrip, parameterNegotiationDecode_eq_iff h, hoctet, ackTimerOctet_eq_iff h,
    and_iff_right_iff_imp]
  intro hzero
  rw [hzero]
  rfl

end Record

def timerNegotiation (ackTimerMsec : UInt32) : ParameterNegotiationParameters :=
  ⟨5, 1, 0, 7, ackTimerMsec, 31, 3, 2⟩

theorem timerNegotiation_documented {ackTimerMsec : UInt32} (h : ackTimerMsec.toNat % 10 = 0)
    (hle : ackTimerMsec.toNat ≤ 2550) : DocumentedParameters (timerNegotiation ackTimerMsec) where
  dlci := (by decide : (5 : UInt8).toNat ≤ 63)
  frameType := (by decide : (1 : UInt8).toNat ≤ 15)
  layerType := (by decide : (0 : UInt8).toNat ≤ 15)
  priority := (by decide : (7 : UInt8).toNat ≤ 63)
  windowSize := (by decide : (2 : UInt8).toNat ≤ 7)
  ackTimerMsec := h
  ackTimerMsec_le := hle

theorem parametersRoundTrip_timerNegotiation :
    ParametersRoundTrip (timerNegotiation 0) (fun _ => 0) ↔ (timerNegotiation 0).ackTimerMsec = 0 :=
  parametersRoundTrip_iff (timerNegotiation_documented (by decide) (by decide)) fun _ => 0

/-- The shortest documented timer, 10 ms, goes out as 0 and is read back as 0. -/
theorem not_parametersRoundTrip_timerNegotiation :
    DocumentedParameters (timerNegotiation 10) ∧
      ¬ ParametersRoundTrip (timerNegotiation 10) (fun _ => 0) ∧
      (parameterNegotiationEncode (timerNegotiation 10)).memory (fun _ => 0) 3 = 0 ∧
      (parameterNegotiationDecode 0).value
          ((parameterNegotiationEncode (timerNegotiation 10)).memory fun _ => 0) =
        timerNegotiation 0 := by
  refine ⟨timerNegotiation_documented (by decide) (by decide), fun h => ?_, by decide, by decide⟩
  exact absurd h.1 (by decide)

end Cmux
