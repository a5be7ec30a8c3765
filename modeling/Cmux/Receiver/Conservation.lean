import Cmux.Receiver.Refinement

/-! What one call does with the octets in the ring: it appends what there is room for, and takes
out nothing but a complete frame with what stands before it, which the callback is given. -/
namespace Cmux
open Access Access.Prog Framing

/-- The octets between the length octets and the checking sequence. -/
def information (octets : List UInt8) : List UInt8 :=
  (octets.take (octets.length - 2)).drop (bodyIndex (view octets fun _ => 0))

theorem messageOf_length {frame : List UInt8} (h : frameAt frame = some frame.length) :
    frame.length = bodyIndex (view frame fun _ => 0) +
      (messageOf frame).frameInfo.length.toNat + 2 := by
  obtain ⟨-, hsize⟩ := (frameAt_eq_some fun _ => 0).mp h
  rw [← hsize]
  rfl

theorem length_information {frame : List UInt8} (h : frameAt frame = some frame.length) :
    (information frame).length = (messageOf frame).frameInfo.length.toNat := by
  have hlength := messageOf_length h
  rw [information, List.length_drop, List.length_take]
  omega

/-- The callback is given the information field. -/
theorem messageOf_data {frame : List UInt8} (h : frameAt frame = some frame.length) :
    (messageOf frame).data = information frame := by
  have hlength := messageOf_length h
  have hdata : (messageOf frame).data = (frame.drop
      (messageOf frame).frameInfo.frameDataIndex.toNat).take
        (messageOf frame).frameInfo.length.toNat := rfl
  by_cases hzero : (messageOf frame).frameInfo.length.toNat = 0
  · rw [hdata, hzero, List.take_zero, eq_comm, ← List.length_eq_zero_iff, length_information h,
      hzero]
  · have hpos : (messageOf frame).frameInfo.length > 0 :=
      UInt16.lt_iff_toNat_lt.mpr (by simp; omega)
    have hindex : (messageOf frame).frameInfo.frameDataIndex =
        (bodyIndex (view frame fun _ => 0) : ℤ) := if_pos hpos
    rw [hdata, hindex, Int.toNat_natCast, information, List.drop_take]
    congr 1
    omega

/-! ### One call -/

/-- The octets are one complete frame, as the scan and the extraction see it: it is valid and as
long as its header says, whatever stands behind it. -/
def IsWholeFrame (frame : List UInt8) : Prop :=
  ∀ beyond : ℕ → UInt8, (checkValidFrame frame.length).value (view frame beyond) = true ∧
    getFrameLength.value (view frame beyond) = frame.length

def HandsOver (message : ControlMessage) (frame : List UInt8) : Prop :=
  (∀ beyond : ℕ → UInt8,
    message.frameInfo = (parseFrame frame.length).value (view frame beyond)) ∧
  message.data = information frame

theorem isWholeFrame_of_frameAt {frame : List UInt8} (h : frameAt frame = some frame.length) :
    IsWholeFrame frame := by
  intro beyond
  obtain ⟨hvalid, hsize⟩ := (frameAt_eq_some beyond).mp h
  constructor
  · rw [← frameAt_isSome, h]
    rfl
  · rw [getFrameLength_value, if_pos hvalid.1, hsize]

theorem messageOf_handsOver {frame : List UInt8} (h : frameAt frame = some frame.length) :
    HandsOver (messageOf frame) frame := by
  refine ⟨fun beyond => ?_, messageOf_data h⟩
  exact (congrArg ControlMessage.frameInfo (processIngressFrame_eq h beyond).1).symm

/-- `process_ingress` removes the frame that it hands over, with what stands before it, and
nothing else. -/
theorem processIngress_conserves (rb : Lwrb) (beyond : Surroundings) :
    ((scanIngressBufferForValidFrame rb beyond).1 = none ∧
      (processIngress rb beyond).2.1 = none ∧ (processIngress rb beyond).1.content = rb.content) ∨
    ∃ (junk frame : List UInt8) (message : ControlMessage),
      (scanIngressBufferForValidFrame rb beyond).1 = some junk.length ∧
      (processIngress rb beyond).2.1 = some message ∧
      rb.content = junk ++ frame ++ (processIngress rb beyond).1.content ∧
      IsWholeFrame frame ∧ HandsOver message frame := by
  cases hscan : recogniser.scan (linearBlock rb) with
  | none =>
    refine Or.inl ⟨by rw [scan_value, hscan]; rfl, ?_⟩
    rw [processIngress_none hscan]
    exact ⟨rfl, rfl⟩
  | some q =>
    obtain ⟨i, n⟩ := q
    obtain ⟨hframe, hin⟩ := frameAt_content hscan
    obtain ⟨hcontent, -, hmessage, -⟩ := processIngress_some hscan beyond
    have hwhole : frameAt ((rb.content.drop i).take n) =
        some ((rb.content.drop i).take n).length := by
      rw [List.length_take, List.length_drop, Nat.min_eq_left (by omega)]
      exact recogniser.size_take hframe
    refine Or.inr ⟨rb.content.take i, (rb.content.drop i).take n, _, ?_, hmessage, ?_,
      isWholeFrame_of_frameAt hwhole, messageOf_handsOver hwhole⟩
    · rw [scan_value, hscan, List.length_take, Nat.min_eq_left (by omega)]
      rfl
    · rw [hcontent, List.append_assoc, ← List.drop_drop, List.take_append_drop,
        List.take_append_drop]

/-- One call stores as many octets as there is room for, behind those in the ring, and then
either leaves them all or hands over one frame and removes it with what stands before it. A frame
that the scan finds is always handed over. -/
theorem ingest_conserves (cmux : CmuxBuffer) (data : List UInt8) (beyond : Surroundings) :
    let held := cmux.ingressRb.content
    let stored := data.take (min data.length (127 - held.length))
    let ingested := cmuxBufferIngest cmux data beyond
    ingested.2.ret = min data.length (127 - held.length) ∧
    ((ingested.2.message = none ∧ ingested.1.ingressRb.content = held ++ stored) ∨
      ∃ (junk frame : List UInt8) (message : ControlMessage),
        ingested.2.message = some message ∧
        held ++ stored = junk ++ frame ++ ingested.1.ingressRb.content ∧
        IsWholeFrame frame ∧ HandsOver message frame) ∧
    ((scanIngressBufferForValidFrame (lwrbWrite cmux.ingressRb data).1 beyond).1.isSome ↔
      ingested.2.message.isSome) := by
  obtain ⟨hcontent, -, hret⟩ := lwrbWrite_spec cmux.ingressRb data
  rw [cmux.size_eq] at hcontent hret
  have hstored : data.take (127 - cmux.ingressRb.content.length) =
      data.take (min data.length (127 - cmux.ingressRb.content.length)) := by
    rw [List.take_eq_take_iff]
    omega
  change (lwrbWrite cmux.ingressRb data).1.content = _ ++ data.take (127 - _) at hcontent
  rw [hstored] at hcontent
  refine ⟨hret, ?_⟩
  rcases processIngress_conserves (lwrbWrite cmux.ingressRb data).1 beyond with
    ⟨hscan, hnone, hkept⟩ | ⟨junk, frame, message, hscan, hmessage, hsplit, hwhole, hhands⟩
  · refine ⟨Or.inl ⟨hnone, hkept.trans hcontent⟩, ?_⟩
    change _ ↔ (processIngress _ beyond).2.1.isSome
    rw [hscan, hnone, Option.isSome_none, Option.isSome_none]
  · refine ⟨Or.inr ⟨junk, frame, message, hmessage, hcontent.symm.trans hsplit, hwhole, hhands⟩, ?_⟩
    change _ ↔ (processIngress _ beyond).2.1.isSome
    rw [hscan, hmessage, Option.isSome_some, Option.isSome_some]

end Cmux
