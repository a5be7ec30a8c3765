import Cmux.Frame.RoundTrip

/-! Complete frames at the head of a list of octets. -/
namespace Cmux
open Access Access.Prog Framing

/-- Size of the valid frame that begins the list. -/
def frameAt (xs : List UInt8) : Option ℕ :=
  if ValidFrame (view xs fun _ => 0) xs.length then some (frameSize (view xs fun _ => 0)) else none

/-- What lies behind the array does not matter to a complete frame. -/
theorem frameAt_eq_some {xs : List UInt8} {n : ℕ} (heap : ℕ → UInt8) : frameAt xs = some n ↔
    ValidFrame (view xs heap) xs.length ∧ frameSize (view xs heap) = n := by
  have hagree := view_congr xs (fun _ => 0) heap
  unfold frameAt
  split
  next hv =>
    have hsz := (validFrame_of_agree hv (fun i hi => hagree i (Nat.lt_of_lt_of_le hi hv.2.1))
      hv.2.1).2
    rw [Option.some.injEq, hsz, ← validFrame_congr hagree, and_iff_right hv]
  next hv =>
    simp only [reduceCtorEq, false_iff, not_and]
    intro hv'
    exact absurd ((validFrame_congr hagree).mpr hv') hv

theorem frameAt_isSome (xs : List UInt8) (heap : ℕ → UInt8) :
    (frameAt xs).isSome = (checkValidFrame xs.length).value (view xs heap) := by
  rw [Bool.eq_iff_iff, Option.isSome_iff_exists, checkValidFrame_value, decide_eq_true_eq]
  simp only [frameAt_eq_some heap]
  exact ⟨fun ⟨_, hv, _⟩ => hv, fun hv => ⟨_, hv, rfl⟩⟩

theorem frameAt_header {xs : List UInt8} {n : ℕ} (h : frameAt xs = some n) :
    xs.head? = some cmuxFrameHeaderFooter := by
  obtain ⟨hv, hn⟩ := (frameAt_eq_some fun _ => 0).mp h
  have hge := frameSize_ge (view xs fun _ => 0)
  have hle := hv.2.1
  rw [List.head?_eq_getElem?, view_eq_getElem? (fun _ => 0) (by omega), hv.1]

theorem frameAt_ge {xs : List UInt8} {n : ℕ} (h : frameAt xs = some n) : 6 ≤ n := by
  rw [← ((frameAt_eq_some fun _ => 0).mp h).2]
  exact frameSize_ge _

theorem frameAt_le {xs : List UInt8} {n : ℕ} (h : frameAt xs = some n) : n ≤ xs.length := by
  obtain ⟨hv, hn⟩ := (frameAt_eq_some fun _ => 0).mp h
  exact hn ▸ hv.2.1

/-- Only the octets of the frame matter. -/
theorem frameAt_of_agree {xs ys : List UInt8} {n : ℕ} (h : frameAt xs = some n)
    (hagree : ∀ i < n, xs[i]? = ys[i]?) (hlen : n ≤ ys.length) : frameAt ys = some n := by
  have hxs := frameAt_le h
  obtain ⟨hv, hn⟩ := (frameAt_eq_some fun _ => 0).mp h
  obtain ⟨hv', hn'⟩ : ValidFrame (view ys fun _ => 0) ys.length ∧
      frameSize (view xs fun _ => 0) = frameSize (view ys fun _ => 0) := validFrame_of_agree hv
    (fun i hi => by
      have := hagree i (by omega)
      rwa [view_eq_getElem? (fun _ => 0) (by omega),
        view_eq_getElem? (fun _ => 0) (by omega), Option.some.injEq] at this)
    (by omega)
  exact (frameAt_eq_some fun _ => 0).mpr ⟨hv', hn' ▸ hn⟩

/-- Any header and body become a frame when the right checking sequence and a flag follow. -/
theorem frameAt_closed {m : ℕ → UInt8} (h : m 0 = cmuxFrameHeaderFooter) :
    frameAt (slice m 0 (frameSize m - 2) ++ [coveredFcs m, cmuxFrameHeaderFooter]) =
      some (frameSize m) := by
  have hge := frameSize_ge m
  have hb := bodyIndex_bounds m
  have hsz : frameSize m = bodyIndex m + (lengthField m).toNat + 2 := rfl
  obtain ⟨xs, hxs⟩ : ∃ xs, slice m 0 (frameSize m - 2) ++ [coveredFcs m, cmuxFrameHeaderFooter] =
    xs := ⟨_, rfl⟩
  have hlen : xs.length = frameSize m := by
    rw [← hxs, List.length_append, slice_length]
    simp only [List.length_cons, List.length_nil]
    omega
  have hagree : ∀ i < frameSize m - 2, m i = view xs (fun _ => 0) i := by
    intro i hi
    rw [← hxs, view_append (fun _ => 0) (by rw [slice_length]; exact hi),
      view_slice _ _ hi]
  have hfcs : view xs (fun _ => 0) (frameSize m - 2) = coveredFcs m := by
    rw [← hxs, view, List.getElem?_append_right (Nat.le_of_eq (slice_length ..)),
      slice_length, Nat.sub_self]
    rfl
  have hfooter : view xs (fun _ => 0) (frameSize m - 1) = cmuxFrameHeaderFooter := by
    rw [← hxs, view, List.getElem?_append_right (by rw [slice_length]; omega), slice_length,
      show frameSize m - 1 - (frameSize m - 2) = 1 by omega]
    rfl
  have hsize := frameSize_congr fun i hi => hagree i (by omega)
  rw [hxs]
  refine (frameAt_eq_some fun _ => 0).mpr ⟨⟨?_, ?_, ?_, ?_⟩, hsize.symm⟩
  · rw [← hagree 0 (by omega), h]
  · omega
  · rw [← hsize, hfcs, coveredFcs_congr hagree]
  · rw [← hsize, hfooter]

/-- The frames of the protocol, as the receiver's scan finds them. -/
def recogniser : Recogniser UInt8 where
  size := frameAt
  size_pos h := Nat.lt_of_lt_of_le (Nat.zero_lt_succ 5) (frameAt_ge h)
  size_le := frameAt_le
  size_append ys h := frameAt_of_agree h
    (fun i hi => (List.getElem?_append_left (Nat.lt_of_lt_of_le hi (frameAt_le h))).symm)
    (by have := frameAt_le h; rw [List.length_append]; omega)
  size_take h := frameAt_of_agree h (fun i hi => (List.getElem?_take_of_lt hi).symm)
    (by have := frameAt_le h; rw [List.length_take]; omega)

theorem recogniser_size (octets : List UInt8) : recogniser.size octets = frameAt octets := rfl

theorem encodes_octets (info : BuilderFrameInfo) (heap : ℕ → UInt8) :
    Encodes info (view info.octets heap) := by
  rw [Encodes, slice_view (by omega), List.drop_zero, List.take_length]

/-- A frame of the encoder in the one-octet form is recognised as a whole. -/
theorem recogniser_octets {info : BuilderFrameInfo} (hbody : info.Complete)
    (hui : info.type &&& ~~~controlTypePollFinal ≠ ControlType.ui)
    (hlen : info.length.toNat ≤ 127) : recogniser.size info.octets = some info.octets.length := by
  have henc := encodes_octets info fun _ => 0
  exact (frameAt_eq_some fun _ => 0).mpr
    ⟨encoded_validFrame henc hbody hui hlen (Nat.le_refl _), encoded_frameSize henc hbody hlen⟩

end Cmux
