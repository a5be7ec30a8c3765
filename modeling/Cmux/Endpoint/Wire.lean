import Cmux.Endpoint.Tables
import Cmux.Receiver.Conservation
import Cmux.Service.Header

/-! What the frames between the endpoints carry on the control channel: the service that the
first octet of the information field names. -/
namespace Cmux
open Access

/-- An UIH frame on DLCI 0 with a close-down service, as a command or as a response. -/
def IsCloseDown (cr : Bool) (octets : List UInt8) : Prop :=
  IsFrame ControlType.uih 0 octets ∧ ∃ service ∈ (information octets).head?,
    service &&& cmuxServiceMask = CmuxService.multiplexerCloseDown ∧
      ((service &&& 0x02) != 0) = cr

instance (cr : Bool) (octets : List UInt8) : Decidable (IsCloseDown cr octets) :=
  inferInstanceAs (Decidable (_ ∧ _))

/-! ### Received frames -/

section Received
variable (frame : ReceivedFrame)

theorem ReceivedFrame.isFrame_iff (type : ControlType) (dlci : UInt8) :
    IsFrame type dlci frame.octets ↔
      frame.message.frameInfo.type = type ∧ frame.message.frameInfo.dlci = dlci := by
  have hge := frameAt_ge frame.valid
  have haddress := view_eq_getElem? (fun _ => 0) (by omega : 1 < frame.octets.length)
  have hcontrol := view_eq_getElem? (fun _ => 0) (by omega : 2 < frame.octets.length)
  rw [IsFrame, haddress, hcontrol, Option.map_some, Option.map_some, Option.some.injEq,
    Option.some.injEq, and_comm]
  rfl

theorem ReceivedFrame.length_eq : frame.octets.length =
    bodyIndex (view frame.octets fun _ => 0) + frame.message.frameInfo.length.toNat + 2 :=
  messageOf_length frame.valid

theorem ReceivedFrame.information_length :
    (information frame.octets).length = frame.message.frameInfo.length.toNat :=
  length_information frame.valid

/-- The callback is given the information field. -/
theorem ReceivedFrame.data_eq : frame.message.data = information frame.octets :=
  messageOf_data frame.valid

/-- Both endpoints read the service from the first octet of the information field. -/
theorem ReceivedFrame.decodedRequest_eq (h : frame.message.frameInfo.length > 0)
    (beyond : ℕ → UInt8) : ∃ service ∈ (information frame.octets).head?,
      (decodedRequest frame.message beyond).service = service &&& cmuxServiceMask ∧
        (decodedRequest frame.message beyond).cr = ((service &&& 0x02) != 0) := by
  have hlength := frame.length_eq
  have hpos : 0 < frame.message.frameInfo.length.toNat := UInt16.lt_iff_toNat_lt.mp h
  have hindex : frame.message.frameInfo.frameDataIndex =
      (bodyIndex (view frame.octets fun _ => 0) : ℤ) := if_pos h
  have hlt : bodyIndex (view frame.octets fun _ => 0) < frame.octets.length := by omega
  refine ⟨frame.octets[bodyIndex (view frame.octets fun _ => 0)], ?_, ?_⟩
  · rw [Option.mem_def, information, List.head?_drop, List.getElem?_take_of_lt (by omega),
      List.getElem?_eq_getElem hlt]
  · have hmemory : frame.message.dataMemory beyond 0 =
        frame.octets[bodyIndex (view frame.octets fun _ => 0)] := by
      change view (frame.octets.drop frame.message.frameInfo.frameDataIndex.toNat) beyond 0 = _
      rw [hindex, Int.toNat_natCast, view_of_lt (by rw [List.length_drop]; omega)]
      simp
    simp only [decodedRequest, cmuxServiceRequestDecode, Prog.value_bind, Prog.value_pure,
      cmuxServiceDecode_eq (by omega : frame.message.frameInfo.length.toNat ≠ 0), hmemory,
      and_self]

/-- A received frame on the control channel is taken for a close-down exactly when it is one,
be it a command or a response. -/
theorem ReceivedFrame.isCloseDown_iff (htype : frame.message.frameInfo.type = ControlType.uih)
    (beyond : ℕ → UInt8) : (∃ cr, IsCloseDown cr frame.octets) ↔
      frame.message.frameInfo.dlci = 0 ∧ frame.message.frameInfo.length > 0 ∧
        (decodedRequest frame.message beyond).service = CmuxService.multiplexerCloseDown := by
  simp only [IsCloseDown, frame.isFrame_iff, htype, true_and]
  constructor
  · rintro ⟨cr, hdlci, service, hservice, hclose, -⟩
    have hpos : frame.message.frameInfo.length > 0 := by
      by_contra hzero
      have hnil : information frame.octets = [] := by
        rw [← List.length_eq_zero_iff, frame.information_length]
        rw [gt_iff_lt, UInt16.lt_iff_toNat_lt] at hzero
        simp at hzero
        omega
      rw [hnil] at hservice
      simp at hservice
    obtain ⟨service', hservice', hdecoded, -⟩ := frame.decodedRequest_eq hpos beyond
    obtain rfl : service = service' := Option.mem_unique hservice hservice'
    exact ⟨hdlci, hpos, hdecoded.trans hclose⟩
  · rintro ⟨hdlci, hpos, hclose⟩
    obtain ⟨service, hservice, hdecoded, -⟩ := frame.decodedRequest_eq hpos beyond
    exact ⟨_, hdlci, service, hservice, hdecoded.symm.trans hclose, rfl⟩

end Received
end Cmux
