import Cmux.Receiver.Refinement

/-! Frames of the encoder on a line without noise, each given whole in its own call. The
scan looks at the linear block only, so a frame comes out at once unless its octets cross
the physical end of the storage. -/
namespace Cmux
open Access Framing Framing.Window

/-- A frame of the encoder that the ring can hold, with what stood in its array before. A
type that reads as UI on the wire is left out. -/
structure ShortFrame where
  info : BuilderFrameInfo
  prior : ℕ → UInt8
  not_ui : info.type &&& ~~~controlTypePollFinal ≠ ControlType.ui
  complete : info.Complete
  short : cmuxFrameBuilderGetFrameLength info.length.toNat ≤ 127

namespace ShortFrame
variable (f : ShortFrame)

def octets : List UInt8 := builtFrame f.info f.prior

theorem type_ne_ui : f.info.type ≠ ControlType.ui := by
  intro h
  apply f.not_ui
  rw [h]
  decide

theorem octets_eq : f.octets = f.info.octets := builtFrame_eq f.type_ne_ui f.complete f.prior

theorem length_le : f.info.length.toNat ≤ 121 := by
  have h := f.short
  rw [cmuxFrameBuilderGetFrameLength, cmuxFrameHeaderSize, cmuxFrameExtendedLengthSize,
    cmuxFrameLengthSize, cmuxFrameFooterSize] at h
  split at h <;> omega

theorem octets_short : f.octets.length ≤ 127 := by
  rw [octets_eq, BuilderFrameInfo.octets_length f.complete]
  exact f.short

/-- The frame is recognised as a whole. -/
theorem recognised : recogniser.size f.octets = some f.octets.length := by
  have := f.length_le
  rw [octets_eq]
  exact recogniser_octets f.complete f.not_ui (by omega)

/-- What a callback for the frame is given. -/
theorem messageOf_octets :
    messageOf f.octets = ⟨f.info.wireInfo, f.octets⟩ ∧
      (messageOf f.octets).data = f.info.bodyOctets := by
  have hlen := f.length_le
  have henc := encodes_octets f.info fun _ => 0
  rw [← octets_eq] at henc
  have hinfo := encoded_decodedInfo henc f.complete f.not_ui (by omega)
  have hbody := (encoded_parts henc).2.1
  have hcomplete : f.info.bodyOctets.length = f.info.length.toNat := f.complete
  rw [BuilderFrameInfo.lengthOctets_length, if_neg (by omega), hcomplete, slice_view (by
    rw [octets_eq, BuilderFrameInfo.octets_length f.complete, cmuxFrameBuilderGetFrameLength,
      cmuxFrameHeaderSize, cmuxFrameLengthSize, if_neg (by omega)]
    omega)] at hbody
  refine ⟨by rw [messageOf, hinfo], ?_⟩
  rw [messageOf, hinfo, ControlMessage.data, BuilderFrameInfo.wireInfo]
  by_cases hpos : f.info.length > 0
  · simpa [hpos] using hbody
  · have h0 : f.info.length.toNat = 0 := by
      rw [gt_iff_lt, UInt16.lt_iff_toNat_lt, UInt16.toNat_zero] at hpos
      omega
    rw [h0, List.take_zero]
    exact (List.length_eq_zero_iff.mp (hcomplete.trans h0)).symm

end ShortFrame

def ControlMessage.seen (message : ControlMessage) : FrameInfo × List UInt8 :=
  (message.frameInfo, message.data)

/-- A frame cannot be mistaken for a shorter one. -/
theorem length_le_of_seen {f : ShortFrame} {g : List UInt8}
    (hg : recogniser.size g = some g.length)
    (h : (messageOf g).seen = (messageOf f.octets).seen) : f.octets.length ≤ g.length := by
  have hlength : lengthField (view g fun _ => 0) = f.info.length := by
    have := congrArg (fun seen => seen.1.length) h
    rwa [f.messageOf_octets.1] at this
  have hshort := f.length_le
  have hb := bodyIndex_bounds (view g fun _ => 0)
  rw [f.octets_eq, BuilderFrameInfo.octets_length f.complete, cmuxFrameBuilderGetFrameLength,
    ← ((frameAt_eq_some fun _ => 0).mp hg).2, frameSize, hlength, if_neg (by omega),
    cmuxFrameHeaderSize, cmuxFrameLengthSize, cmuxFrameFooterSize]
  omega

def wholeCalls (line : List (ShortFrame × Surroundings)) : List IngestCall :=
  line.map fun q => ⟨q.1.octets, q.2⟩

/-- Every call takes all its octets and hands over its own frame, and nothing else. -/
def DeliversAll (ingressBuffer : Vector UInt8 128) (line : List (ShortFrame × Surroundings)) :
    Prop :=
  (ingesting.outputs (cmuxBufferInit ingressBuffer) (wholeCalls line)).map
      (fun o => (o.ret, o.message.map ControlMessage.seen)) =
    line.map fun q => (q.1.octets.length, some (q.1.info.wireInfo, q.1.info.bodyOctets))

theorem deliversAll_iff_noStraddle (ingressBuffer : Vector UInt8 128)
    (line : List (ShortFrame × Surroundings)) : DeliversAll ingressBuffer line ↔
      NoStraddle 128 0 (line.map fun q => q.1.octets.length) := by
  have hdata : (wholeCalls line).map IngestCall.data = line.map fun q => q.1.octets := by
    simp [wholeCalls]
  have hrun := congrArg (List.map fun o => (o.1, o.2.map ControlMessage.seen))
    (run_refines (cmuxBufferInit ingressBuffer) (wholeCalls line)).2
  simp only [List.map_map, hdata, window_init, Function.comp_def, Option.map_map] at hrun
  have hwhole := whole_frames_iff (R := recogniser) (N := 128)
    (fun g => (messageOf g).seen) 0 (by omega) (line.map fun q => q.1.octets)
    (by
      simp only [List.forall_mem_map]
      exact fun q _ => ⟨q.1.recognised, Nat.lt_succ_of_le q.1.octets_short⟩)
    (by
      simp only [List.forall_mem_map]
      exact fun q _ g hg h => length_le_of_seen hg h)
  have hseen (q : ShortFrame × Surroundings) : (messageOf q.1.octets).seen =
      (q.1.info.wireInfo, q.1.info.bodyOctets) := by
    obtain ⟨hinfo, hdata⟩ := q.1.messageOf_octets
    rw [ControlMessage.seen, hdata, hinfo]
  simp only [List.map_map, Function.comp_def, hseen] at hwhole
  rw [DeliversAll, hrun]
  exact hwhole

/-- On a clean line no frame is lost exactly when none of them crosses the physical end of
the storage, which the octets before it decide. -/
theorem deliversAll_iff (ingressBuffer : Vector UInt8 128)
    (line : List (ShortFrame × Surroundings)) : DeliversAll ingressBuffer line ↔
      ∀ k n, (line.map fun q => q.1.octets.length)[k]? = some n →
        ((line.map fun q => q.1.octets.length).take k).sum % 128 + n ≤ 128 := by
  rw [deliversAll_iff_noStraddle, noStraddle_iff 0 (by omega)]
  simp only [Nat.zero_add]

def sabmFrame : ShortFrame where
  info := { BuilderFrameInfo.zero with
    ea := true
    cr := true
    dlci := 1
    type := ControlType.sabm
    pollFinal := true }
  prior := fun _ => 0
  not_ui := by decide
  complete := by decide
  short := by decide

theorem sabmFrame_octets : sabmFrame.octets = [0xF9, 0x07, 0x3F, 0x01, 0xDE, 0xF9] := by
  decide +kernel

def Surroundings.zero : Surroundings := ⟨fun _ _ => 0, fun _ => 0, fun _ => 0⟩

/-- The twenty-second frame of six octets crosses the end of the storage and is lost. -/
theorem not_deliversAll_sabmFrames : ¬ DeliversAll (Vector.replicate 128 0)
    (List.replicate 22 (sabmFrame, Surroundings.zero)) := by
  rw [deliversAll_iff_noStraddle, List.map_replicate, sabmFrame_octets]
  decide

end Cmux
