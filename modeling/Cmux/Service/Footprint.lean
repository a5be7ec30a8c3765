import Cmux.Frame.RoundTrip
import Cmux.Service.Codec

/-! The cells that the encoders write. Every caller allocates what the length function promises,
and sends all of it. -/
namespace Cmux
open Access Access.Prog BuilderFrameInfo

/-! ### The frame -/

/-- The frame encoder writes the promised frame, all of it. -/
theorem cmuxFrameBuilder_fillsExactly {info : BuilderFrameInfo} (h : info.Complete)
    (frame : ℕ → UInt8) : (cmuxFrameBuilder info).FillsExactly
      (cmuxFrameBuilderGetFrameLength info.length.toNat) frame := by
  intro i
  have hbody : info.bodyOctets.length = info.length.toNat := h
  rw [mem_cmuxFrameBuilder_writes, getFrameLength_eq, hbody]
  omega

/-! ### The bodies of the services -/

section Bodies
variable (octets : ℕ → UInt8)

theorem parameterNegotiationEncode_fillsExactly (parameters : ParameterNegotiationParameters) :
    (parameterNegotiationEncode parameters).FillsExactly parameterNegotiationEncodeLength
      octets := by
  intro i
  simp only [parameterNegotiationEncode, parameterNegotiationEncodeLength, writes_bind,
    writes_store, List.mem_append, List.mem_singleton]
  omega

@[simp] theorem setBits_writes (index : ℕ) (mask : UInt8) (m : ℕ → UInt8) :
    (setBits index mask).writes m = [index] := rfl

@[simp] theorem keepBits_writes (index : ℕ) (mask : UInt8) (m : ℕ → UInt8) :
    (keepBits index mask).writes m = [index] := rfl

theorem modemStatusEncode_fillsExactly (status : ModemStatus) :
    (modemStatusEncode status).FillsExactly modemStatusEncodeLength octets := by
  intro i
  simp only [modemStatusEncode, modemStatusEncodeLength, writes_bind, writes_store, writes_ite,
    writes_pure, setBits_writes, List.mem_append, List.mem_singleton]
  split_ifs <;> simp <;> omega

theorem lineStatusEncode_fillsExactly (status : LineStatusParameters) :
    (lineStatusEncode status).FillsExactly lineStatusEncodeLength octets := by
  intro i
  simp only [lineStatusEncode, lineStatusEncodeLength, writes_bind, writes_store,
    List.mem_append, List.mem_singleton]
  omega

theorem serviceNegotiationEncode_fillsExactly (parameters : ServiceNegotiationParameters) :
    (serviceNegotiationEncode parameters).FillsExactly (serviceNegotiationEncodeLength parameters)
      octets := by
  intro i
  simp only [serviceNegotiationEncode, serviceNegotiationEncodeLength, writes_bind, writes_ite,
    writes_store]
  split_ifs <;> simp <;> omega

/-! ### Port negotiation -/

theorem encodeSpeed_writes (speed : Setting UInt32) {i : ℕ} :
    i ∈ (encodeSpeed speed).writes octets ↔ i = 2 ∨ speed.isSet ∧ i = 7 := by
  unfold encodeSpeed
  split <;> simp [*, or_comm]

theorem encodeFlowControlChar_writes (setting : Setting UInt8) (mask : UInt8) (index : ℕ)
    (default : UInt8) {i : ℕ} :
    i ∈ (encodeFlowControlChar setting mask index default).writes octets ↔
      i = index ∨ setting.isSet ∧ i = 7 := by
  unfold encodeFlowControlChar
  split <;> simp [*, or_comm]

theorem encodeFlowControlFlag_writes (setting : Setting Bool) (mask : UInt8) {i : ℕ} :
    i ∈ (encodeFlowControlFlag setting mask).writes octets ↔
      setting.isSet ∧ (i = 8 ∨ i = 4) := by
  unfold encodeFlowControlFlag
  split
  · split <;> simp [*]
  · simp [*]

theorem encodeDataBits_writes (dataBits : Setting UInt8) {i : ℕ} :
    i ∈ (encodeDataBits dataBits).writes octets ↔ i = 3 ∨ dataBits.isSet ∧ i = 7 := by
  unfold encodeDataBits
  split <;> simp [*, or_comm]

theorem encodeStopBits_writes (stopBits : Setting UInt8) {i : ℕ} :
    i ∈ (encodeStopBits stopBits).writes octets ↔ i = 3 ∨ stopBits.isSet ∧ i = 7 := by
  unfold encodeStopBits
  split
  · split_ifs <;> simp [*, or_comm]
  · simp [*]

theorem encodeParity_writes (parity : Setting RemoteParameterParity) {i : ℕ} :
    i ∈ (encodeParity parity).writes octets ↔ i = 3 ∨ parity.isSet ∧ i = 7 := by
  unfold encodeParity
  split
  · split_ifs <;> simp [*, or_comm]
  · simp [*]

theorem portNegotiationEncode_fillsExactly (parameters : RemotePortParameters) :
    (portNegotiationEncode parameters).FillsExactly (portNegotiationEncodeLength parameters)
      octets := by
  intro i
  cases h : portNegotiationHasChanges parameters
  · simp [portNegotiationEncode, portNegotiationEncodeLength, h]
    omega
  · simp only [portNegotiationEncode, portNegotiationEncodeLength, h, writes_bind, writes_store,
      if_true, ne_eq, not_true_eq_false, if_false, List.mem_append, List.mem_singleton,
      encodeSpeed_writes, encodeDataBits_writes, encodeStopBits_writes, encodeParity_writes,
      encodeFlowControlFlag_writes, encodeFlowControlChar_writes]
    omega

end Bodies

/-! ### The request -/

section Request
variable (octets : ℕ → UInt8)

theorem cmuxServiceEncodeLength_writes (n : ℕ) :
    (cmuxServiceEncodeLength n).writes octets = List.range' 1 (if n > 127 then 2 else 1) := by
  unfold cmuxServiceEncodeLength
  split <;> rfl

theorem cmuxServiceEncodeLength_index (n : ℕ) :
    (cmuxServiceEncodeLength n).value octets = if n > 127 then 3 else 2 := by
  unfold cmuxServiceEncodeLength
  split <;> rfl

theorem cmuxServiceEncode_fillsExactly (service : CmuxService) (cr : Bool)
    (serviceData : List UInt8) : (cmuxServiceEncode service cr serviceData).FillsExactly
      (cmuxServiceEncodeGetLength serviceData.length) octets := by
  intro i
  simp only [cmuxServiceEncode, cmuxServiceEncodeGetLength, writes_bind, writes_ite, writes_store,
    writes_copy, setBits_writes, cmuxServiceEncodeLength_writes, cmuxServiceEncodeLength_index,
    List.mem_append, List.mem_singleton]
  by_cases hlong : serviceData.length > 127
  · split_ifs <;> simp only [List.mem_append, List.mem_singleton, List.mem_range'_1] <;> omega
  · split_ifs <;> simp only [List.mem_append, List.mem_singleton, List.mem_range'_1] <;> omega

/-- What is encoded for the body fills the array allocated for it. -/
theorem serviceDataEncoder_fillsExactly (request : CmuxServicesRequest (ℕ → UInt8)) :
    (serviceDataEncoder request).2.FillsExactly (serviceDataEncoder request).1 octets := by
  have hempty : (pure () : Prog UInt8 Unit).FillsExactly 0 octets := by simp [FillsExactly]
  unfold serviceDataEncoder
  split_ifs
  · exact parameterNegotiationEncode_fillsExactly octets _
  · simp [FillsExactly]
  · exact modemStatusEncode_fillsExactly octets _
  · exact portNegotiationEncode_fillsExactly octets _
  · exact lineStatusEncode_fillsExactly octets _
  · exact serviceNegotiationEncode_fillsExactly octets _
  · exact hempty

theorem cmuxServiceRequestEncode_fillsExactly (request : CmuxServicesRequest (ℕ → UInt8))
    (heap : ℕ → UInt8) : (cmuxServiceRequestEncode request heap).FillsExactly
      (cmuxServiceRequestGetLength request) octets := by
  have h := cmuxServiceEncode_fillsExactly octets request.service request.cr
    (slice ((serviceDataEncoder request).2.memory heap) 0 (serviceDataEncoder request).1)
  rwa [slice_length, ← cmuxServiceRequestGetLength_eq] at h

end Request

/-- Every encoder fills exactly the array that its length function promises, and the encoder of
requests allocates for the body what the length function of requests counts for it. -/
theorem encoders_fillExactly (octets : ℕ → UInt8) :
    (∀ info : BuilderFrameInfo, info.Complete → (cmuxFrameBuilder info).FillsExactly
      (cmuxFrameBuilderGetFrameLength info.length.toNat) octets) ∧
    (∀ request heap, (cmuxServiceRequestEncode request heap).FillsExactly
      (cmuxServiceRequestGetLength request) octets) ∧
    (∀ request, (serviceDataEncoder request).2.FillsExactly (serviceDataEncoder request).1
      octets ∧ (serviceDataEncoder request).1 = serviceDataLength request) ∧
    (∀ parameters, (parameterNegotiationEncode parameters).FillsExactly
      parameterNegotiationEncodeLength octets) ∧
    (∀ status, (modemStatusEncode status).FillsExactly modemStatusEncodeLength octets) ∧
    (∀ parameters, (portNegotiationEncode parameters).FillsExactly
      (portNegotiationEncodeLength parameters) octets) ∧
    (∀ status, (lineStatusEncode status).FillsExactly lineStatusEncodeLength octets) ∧
    (∀ parameters, (serviceNegotiationEncode parameters).FillsExactly
      (serviceNegotiationEncodeLength parameters) octets) := by
  refine ⟨?_, ?_, ?_, ?_, ?_, ?_, ?_, ?_⟩
  · exact fun info h => cmuxFrameBuilder_fillsExactly h octets
  · exact cmuxServiceRequestEncode_fillsExactly octets
  · exact fun request => ⟨serviceDataEncoder_fillsExactly octets request,
      (serviceDataLength_eq request).symm⟩
  · exact parameterNegotiationEncode_fillsExactly octets
  · exact modemStatusEncode_fillsExactly octets
  · exact portNegotiationEncode_fillsExactly octets
  · exact lineStatusEncode_fillsExactly octets
  · exact serviceNegotiationEncode_fillsExactly octets

/-- A frame of two octets takes eight cells. -/
theorem encoders_fillExactly_frame :
    (cmuxFrameBuilder ⟨true, true, 1, ControlType.uih, false, 2, some [0x41, 0x54]⟩).FillsExactly
      8 fun _ => 0 :=
  (encoders_fillExactly fun _ => 0).1 ⟨true, true, 1, ControlType.uih, false, 2, some [0x41, 0x54]⟩
    rfl

end Cmux
