import Cmux.Frame.ErrorDetection
import Cmux.Frame.RoundTrip

/-! The checking sequence of the frame that the encoder emits. It is taken before the information
field is copied, so that of an UI frame it covers what the output array held there. -/
namespace Cmux
open Access Access.Prog BuilderFrameInfo ShiftRegister

theorem crcTable_injective : Function.Injective fun octet : UInt8 => crcTable.get octet.toFin := by
  intro a b h
  have hshift := congrArg UInt8.toBitVec h
  rw [crcTable_get, crcTable_get] at hshift
  exact UInt8.toBitVec_inj.mp ((shift_injective (by decide)).iterate 8 hshift)

/-- The last octet can be told from the checking sequence. -/
theorem crc_append_singleton (octets : List UInt8) :
    Function.Injective fun octet => crc (octets ++ [octet]) := by
  intro a b h
  dsimp only [crc] at h
  rw [List.foldl_append, List.foldl_append] at h
  have hstep := crcTable_injective ((UInt8.sub_right_inj _).mp h)
  exact UInt8.xor_right_inj _ |>.mp hstep

/-- The checking sequence of the emitted octets stands in its place: it covers address, control
and length, and for UI the information field. -/
def ChecksEmitted (info : BuilderFrameInfo) (frame : ℕ → UInt8) : Prop :=
  (cmuxFrameBuilder info).memory frame (cmuxFrameBuilderGetFrameLength info.length.toNat - 2) =
    (cmuxCrc 1 (2 + info.lengthOctets.length +
      if info.type = ControlType.ui then info.length.toNat else 0)).value
        ((cmuxFrameBuilder info).memory frame)

instance (info : BuilderFrameInfo) (frame : ℕ → UInt8) : Decidable (ChecksEmitted info frame) :=
  inferInstanceAs (Decidable (_ = _))

/-- Where no octet of the array is read that was not written before, the array plays no part. -/
theorem checkedOctets_fresh {info : BuilderFrameInfo}
    (h : info.type ≠ ControlType.ui ∨ info.length = 0) (frame : ℕ → UInt8) :
    info.checkedOctets frame = info.coveredOctets := by
  rw [checkedOctets]
  split
  · next hui =>
    rw [h.resolve_left (not_not.mpr hui), UInt16.toNat_zero, slice_zero, List.append_nil]
  · rw [List.append_nil]

/-- The last octet that an array holds in the information field of an UI frame shows. -/
theorem exists_checkedOctets_ne {info : BuilderFrameInfo} (hui : info.type = ControlType.ui)
    (hlen : info.length ≠ 0) :
    ∃ frame frame', crc (info.checkedOctets frame) ≠ crc (info.checkedOctets frame') := by
  obtain ⟨n, hn⟩ : ∃ n, info.length.toNat = n + 1 := by
    apply Nat.exists_eq_succ_of_ne_zero
    intro h0
    exact hlen (UInt16.toNat_inj.mp h0)
  let last (a : UInt8) : ℕ → UInt8 :=
    Function.update (fun _ => 0) (3 + info.lengthOctets.length + n) a
  have hlast (a : UInt8) : info.checkedOctets (last a) =
      info.coveredOctets ++ slice (fun _ => 0) (3 + info.lengthOctets.length) n ++ [a] := by
    have hstale : slice (last a) (3 + info.lengthOctets.length) n =
        slice (fun _ => 0) (3 + info.lengthOctets.length) n := by
      apply slice_congr
      intro k hk
      exact Function.update_of_ne (by omega) _ _
    have hself : last a (3 + info.lengthOctets.length + n) = a := Function.update_self ..
    rw [checkedOctets, if_pos hui, hn, slice_add, hstale, slice_succ, slice_zero, hself,
      ← List.append_assoc]
  refine ⟨last 0, last 1, fun h => ?_⟩
  rw [hlast, hlast] at h
  exact absurd (crc_append_singleton _ h) (by decide)

section Emitted
variable {info : BuilderFrameInfo} (hbody : info.Complete)
include hbody

/-- The check holds when the stale octets have the checking sequence of the body. -/
theorem checksEmitted_iff (frame : ℕ → UInt8) : ChecksEmitted info frame ↔
    crc (info.checkedOctets frame) = crc (info.coveredOctets ++
      if info.type = ControlType.ui then info.bodyOctets else []) := by
  have hb : info.bodyOctets.length = info.length.toNat := hbody
  have hbuilt := builtFrame_octets hbody frame
  rw [builtFrame, getFrameLength_eq, ← hb] at hbuilt
  obtain ⟨hheader, hinformation, hfcs, -⟩ := frame_parts hbuilt
  have hcovered : slice ((cmuxFrameBuilder info).memory frame) 1 (2 + info.lengthOctets.length) =
      info.coveredOctets := by
    rw [slice_tail, show 2 + info.lengthOctets.length + 1 = 3 + info.lengthOctets.length by omega,
      hheader, List.tail_cons]
  rw [ChecksEmitted, getFrameLength_eq, Nat.add_sub_cancel, ← hb, hfcs, cmuxCrc_value, slice_add,
    hcovered]
  split
  · rw [show 1 + (2 + info.lengthOctets.length) = 3 + info.lengthOctets.length by omega,
      hinformation]
  · rfl

/-- Two arrays that differ in the last cell of the information field cannot both be right. -/
theorem not_checksEmitted_ui (hui : info.type = ControlType.ui) (hlen : info.length ≠ 0) :
    ¬ ∀ frame, ChecksEmitted info frame := by
  intro hall
  obtain ⟨frame, frame', hne⟩ := exists_checkedOctets_ne hui hlen
  exact hne (((checksEmitted_iff hbody frame).mp (hall frame)).trans
    ((checksEmitted_iff hbody frame').mp (hall frame')).symm)

end Emitted

/-- The encoder checks the frame it emits, and emits the same octets whatever the output array
held, exactly when the frame is no UI frame or has no information field. -/
theorem checksEmitted_forall_iff (info : BuilderFrameInfo) (hbody : info.Complete) :
    ((∀ frame, ChecksEmitted info frame) ∧
      ∀ frame frame', builtFrame info frame = builtFrame info frame') ↔
      info.type ≠ ControlType.ui ∨ info.length = 0 := by
  constructor
  · rintro ⟨hall, -⟩
    by_contra hnot
    rw [not_or, not_not] at hnot
    exact not_checksEmitted_ui hbody hnot.1 hnot.2 hall
  · intro h
    refine ⟨fun frame => ?_, fun frame frame' => ?_⟩
    · rw [checksEmitted_iff hbody, checkedOctets_fresh h]
      split
      · next hui =>
        have hempty : info.bodyOctets = [] := by
          rw [← List.length_eq_zero_iff, hbody, h.resolve_left (not_not.mpr hui),
            UInt16.toNat_zero]
        rw [hempty, List.append_nil]
      · rw [List.append_nil]
    · rw [builtFrame_octets hbody, builtFrame_octets hbody, checkedOctets_fresh h,
        checkedOctets_fresh h]

/-- A frame that carries a command. -/
theorem checksEmitted_uih :
    ((∀ frame, ChecksEmitted ⟨true, true, 1, ControlType.uih, false, 2, some [0x41, 0x54]⟩ frame) ∧
      ∀ frame frame',
        builtFrame ⟨true, true, 1, ControlType.uih, false, 2, some [0x41, 0x54]⟩ frame =
          builtFrame ⟨true, true, 1, ControlType.uih, false, 2, some [0x41, 0x54]⟩ frame') ↔
      ControlType.uih ≠ ControlType.ui ∨ (2 : UInt16) = 0 :=
  checksEmitted_forall_iff _ rfl

/-- An UI frame of one octet, built in a zeroed array. -/
theorem not_checksEmitted_zeroed :
    ¬ ChecksEmitted ⟨true, true, 1, ControlType.ui, false, 1, some [0x41]⟩ fun _ => 0 := by
  decide +kernel

end Cmux
