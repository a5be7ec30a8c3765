import Cmux.Receiver.CleanLine

/-! Which states of the buffer can still hand over a frame. Octets leave the ring with a
frame only, and the scan sees the linear block only, so a state in which the linear block
cannot grow into a frame any more stays silent for good. -/
namespace Cmux
open Access Framing Framing.Window

/-- The frame that some octets begin, continued by the shortest length and by zeros. -/
def begun (p : List UInt8) (i : ℕ) : UInt8 :=
  p[i]?.getD (if i = 0 then cmuxFrameHeaderFooter else if i = 3 then 0x01 else 0)

/-- Size of the shortest frame that begins with the octets. -/
def minFrameLength (p : List UInt8) : ℕ := frameSize (begun p)

/-- The octets begin with a flag, leave room for the shortest frame they begin, and either
have not reached its checking sequence or have the right one. -/
def Extensible (room : ℕ) (p : List UInt8) : Prop :=
  begun p 0 = cmuxFrameHeaderFooter ∧ minFrameLength p ≤ p.length + room ∧
    (p.length + 2 ≤ minFrameLength p ∨ (frameAt (p ++ [cmuxFrameHeaderFooter])).isSome)

instance (room : ℕ) (p : List UInt8) : Decidable (Extensible room p) :=
  inferInstanceAs (Decidable (_ ∧ _ ∧ (_ ∨ _)))

theorem begun_of_lt {p : List UInt8} (ext : List UInt8) {i : ℕ} (h : i < p.length) :
    begun p i = view (p ++ ext) (fun _ => 0) i := by
  rw [view_append (fun _ => 0) h, view_of_lt h, begun, List.getElem?_eq_getElem h,
    Option.getD_some]

theorem slice_begun (p : List UInt8) : slice (begun p) 0 p.length = p := by
  apply List.ext_getElem?
  intro i
  rw [slice_getElem?, Nat.zero_add]
  split
  next h => rw [begun, List.getElem?_eq_getElem h, Option.getD_some]
  next h => rw [List.getElem?_eq_none (by omega)]

theorem frameSize_eq (m : ℕ → UInt8) : frameSize m =
    if Extended m then 7 + (m 3).toNat / 2 + 256 * (m 4).toNat else 6 + (m 3).toNat / 2 := by
  rw [frameSize, bodyIndex, lengthField_toNat]
  split <;> omega

/-- No frame that begins with the octets is shorter. -/
theorem minFrameLength_le (p ext : List UInt8) :
    minFrameLength p ≤ frameSize (view (p ++ ext) fun _ => 0) := by
  have hge := frameSize_ge (view (p ++ ext) fun _ => 0)
  rcases Nat.lt_or_ge 3 p.length with h4 | h3
  · have hoctet := begun_of_lt ext h4
    have hx : Extended (begun p) ↔ Extended (view (p ++ ext) fun _ => 0) := by
      rw [Extended, Extended, hoctet]
    rw [minFrameLength, frameSize_eq, frameSize_eq, hoctet]
    simp only [hx]
    split
    · rcases Nat.lt_or_ge 4 p.length with h5 | h4'
      · rw [begun_of_lt ext h5]
      · have h0 : begun p 4 = 0 := by rw [begun, List.getElem?_eq_none h4']; rfl
        rw [h0, UInt8.toNat_zero]
        omega
    · omega
  · have h1 : begun p 3 = 1 := by rw [begun, List.getElem?_eq_none h3]; rfl
    have hx : ¬ Extended (begun p) := by rw [Extended, h1]; decide
    rw [minFrameLength, frameSize_eq, if_neg hx, h1]
    exact hge

theorem minFrameLength_eq {p : List UInt8} (h : 5 ≤ p.length) (ext : List UInt8) :
    minFrameLength p = frameSize (view (p ++ ext) fun _ => 0) := by
  have hb := bodyIndex_bounds (begun p)
  exact frameSize_congr fun i hi => begun_of_lt ext (by omega)

/-- What begins a frame that fits the room is extensible. -/
theorem extensible_of_frameAt {room : ℕ} {p ext : List UInt8} (hext : ext.length ≤ room)
    (hsome : (frameAt (p ++ ext)).isSome) : Extensible room p := by
  obtain ⟨n, hn⟩ := Option.isSome_iff_exists.mp hsome
  obtain ⟨⟨h0, hle, -, hfooter⟩, rfl⟩ := (frameAt_eq_some fun _ => 0).mp hn
  have hmin := minFrameLength_le p ext
  rw [List.length_append] at hle
  refine ⟨?_, by omega, ?_⟩
  · cases p with
    | nil => rfl
    | cons x p => rw [begun_of_lt ext (by simp), h0]
  · rw [or_iff_not_imp_left]
    intro hlate
    have hge : 6 ≤ minFrameLength p := frameSize_ge _
    have heq := minFrameLength_eq (p := p) (by omega) ext
    refine Option.isSome_iff_exists.mpr ⟨_, frameAt_of_agree hn (fun i hi => ?_) (by simp; omega)⟩
    rcases Nat.lt_or_ge i p.length with hip | hip
    · rw [List.getElem?_append_left hip, List.getElem?_append_left hip]
    · obtain rfl : i = p.length := by omega
      rw [view_eq_getElem? (fun _ => 0) (by rw [List.length_append]; omega),
        show p.length = frameSize (view (p ++ ext) fun _ => 0) - 1 by omega, hfooter,
        ← show p.length = frameSize (view (p ++ ext) fun _ => 0) - 1 by omega]
      simp

/-- Octets that stop before the checking sequence are closed by the shortest frame. -/
theorem frameAt_early {p : List UInt8} (h0 : begun p 0 = cmuxFrameHeaderFooter)
    (hearly : p.length + 2 ≤ minFrameLength p) : ∃ ext : List UInt8,
      p.length + ext.length = minFrameLength p ∧ (frameAt (p ++ ext)).isSome := by
  have hclosed := frameAt_closed h0
  rw [minFrameLength] at hearly ⊢
  have hsplit : slice (begun p) 0 (frameSize (begun p) - 2) =
      p ++ slice (begun p) p.length (frameSize (begun p) - 2 - p.length) := by
    have hadd := slice_add (begun p) 0 p.length (frameSize (begun p) - 2 - p.length)
    rwa [slice_begun, Nat.zero_add, show p.length + (frameSize (begun p) - 2 - p.length) =
      frameSize (begun p) - 2 by omega] at hadd
  rw [hsplit, List.append_assoc] at hclosed
  refine ⟨_, ?_, Option.isSome_iff_exists.mpr ⟨_, hclosed⟩⟩
  rw [List.length_append, slice_length, List.length_cons, List.length_singleton]
  omega

/-- Octets that a flag would make a frame, without room for it, are one already. -/
theorem frameAt_whole {p : List UInt8} (hfull : minFrameLength p ≤ p.length)
    (hwhole : (frameAt (p ++ [cmuxFrameHeaderFooter])).isSome) : (frameAt p).isSome := by
  obtain ⟨n, hn⟩ := Option.isSome_iff_exists.mp hwhole
  have hge : 6 ≤ minFrameLength p := frameSize_ge _
  have hsize := minFrameLength_eq (p := p) (by omega) [cmuxFrameHeaderFooter]
  rw [((frameAt_eq_some fun _ => 0).mp hn).2] at hsize
  refine Option.isSome_iff_exists.mpr ⟨n, ?_⟩
  exact frameAt_of_agree hn (fun i hi => List.getElem?_append_left (by omega)) (by omega)

/-- Some octets can be continued to a frame, by no more than the room left, exactly when
they are extensible. -/
theorem extensible_iff (room : ℕ) (p : List UInt8) :
    (∃ ext : List UInt8, ext.length ≤ room ∧ (frameAt (p ++ ext)).isSome) ↔
      Extensible room p := by
  constructor
  · rintro ⟨ext, hext, hsome⟩
    exact extensible_of_frameAt hext hsome
  · rintro ⟨h0, hroom, hearly | hwhole⟩
    · obtain ⟨ext, hlen, hsome⟩ := frameAt_early h0 hearly
      exact ⟨ext, by omega, hsome⟩
    · rcases Nat.eq_zero_or_pos room with rfl | hpos
      · refine ⟨[], Nat.le_refl _, ?_⟩
        rw [List.append_nil]
        exact frameAt_whole hroom hwhole
      · exact ⟨[cmuxFrameHeaderFooter], hpos, hwhole⟩

/-- Octets by which the linear block can still grow while nothing is taken out. -/
def linearRoom (rb : Lwrb) : ℕ := min (rb.size - rb.r) (rb.size - 1) - rb.content.length

/-- From some offset on, the linear block can still become a frame. -/
def Live (cmux : CmuxBuffer) : Prop :=
  ∃ i < (linearBlock cmux.ingressRb).length + 1,
    Extensible (linearRoom cmux.ingressRb) ((linearBlock cmux.ingressRb).drop i)

instance (cmux : CmuxBuffer) : Decidable (Live cmux) :=
  inferInstanceAs (Decidable (∃ i < (linearBlock cmux.ingressRb).length + 1, _))

/-- Some further calls make the buffer hand over a frame. -/
def CanDeliver (cmux : CmuxBuffer) : Prop :=
  ∃ calls : List IngestCall, ∃ o ∈ ingesting.outputs cmux calls, o.message.isSome

theorem canDeliver_iff_receiver (cmux : CmuxBuffer) : CanDeliver cmux ↔
    ∃ ds, ∃ o ∈ abstractReceiver.outputs cmux.window ds, o.2.isSome := by
  have hshow (calls : List IngestCall) :
      (∃ o ∈ ingesting.outputs cmux calls, o.message.isSome) ↔
        ∃ o ∈ abstractReceiver.outputs cmux.window (calls.map IngestCall.data), o.2.isSome := by
    have hmap : (∃ o ∈ ingesting.outputs cmux calls, o.message.isSome) ↔ ∃ q ∈
        (ingesting.outputs cmux calls).map (fun o => (o.ret, o.message)), q.2.isSome := by
      simp only [List.mem_map, exists_exists_and_eq_and]
    rw [hmap, (run_refines cmux calls).2]
    simp only [List.mem_map, exists_exists_and_eq_and, Option.isSome_map]
  constructor
  · rintro ⟨calls, h⟩
    exact ⟨_, (hshow calls).mp h⟩
  · rintro ⟨ds, h⟩
    refine ⟨ds.map fun d => ⟨d, Surroundings.zero⟩, (hshow _).mpr ?_⟩
    rwa [List.map_map, Function.comp_def, List.map_id']

/-- A list can be continued to hold a frame exactly when one of its ends can be continued
to one. -/
theorem scan_extension_iff (xs : List UInt8) (room : ℕ) :
    (∃ ext : List UInt8, ext.length ≤ room ∧ (recogniser.scan (xs ++ ext)).isSome) ↔
      ∃ i < xs.length + 1, Extensible room (xs.drop i) := by
  simp only [← extensible_iff, recogniser.scan_isSome_iff]
  constructor
  · rintro ⟨ext, hext, j, n, hn⟩
    rcases Nat.lt_or_ge j (xs.length + 1) with hj | hj
    · rw [List.drop_append_of_le_length (by omega)] at hn
      exact ⟨j, hj, ext, hext, Option.isSome_iff_exists.mpr ⟨n, hn⟩⟩
    · rw [List.drop_append, List.drop_of_length_le (by omega), List.nil_append] at hn
      refine ⟨xs.length, by omega, ext.drop (j - xs.length), ?_, ?_⟩
      · rw [List.length_drop]; omega
      · rw [List.drop_length, List.nil_append]
        exact Option.isSome_iff_exists.mpr ⟨n, hn⟩
  · rintro ⟨i, hi, ext, hext, hsome⟩
    obtain ⟨n, hn⟩ := Option.isSome_iff_exists.mp hsome
    refine ⟨ext, hext, i, n, ?_⟩
    rw [List.drop_append_of_le_length (by omega)]
    exact hn

theorem canDeliver_iff_live (cmux : CmuxBuffer) : CanDeliver cmux ↔ Live cmux := by
  rw [canDeliver_iff_receiver, delivers_iff (window_fits cmux), scan_extension_iff]
  simp only [Live, linearRoom, linearBlock, cmux.size_eq]
  rfl

/-- A reachable state can still hand over a frame exactly when it is live. -/
theorem reachable_canDeliver_iff (ingressBuffer : Vector UInt8 128) (calls : List IngestCall) :
    CanDeliver (ingesting.final (cmuxBufferInit ingressBuffer) calls) ↔
      Live (ingesting.final (cmuxBufferInit ingressBuffer) calls) :=
  canDeliver_iff_live _

/-- After twenty-one frames of six octets the buffer is empty, two octets before the end of
its storage, and deaf. -/
theorem not_canDeliver_sabmFrames : ¬ CanDeliver (ingesting.final
    (cmuxBufferInit (Vector.replicate 128 0))
    (wholeCalls (List.replicate 21 (sabmFrame, Surroundings.zero)))) := by
  rw [canDeliver_iff_live]
  decide +kernel

end Cmux
