import Cmux.Receiver.CleanLine

/-! How the receiver finds a frame behind garbage: the scan passes over every offset that does
not validate, in every call, until the frame is complete. -/
namespace Cmux
open Access Framing Framing.Window

/-- `check_valid_frame` holds of the octets. It does not when they are fewer than a frame. -/
def Validates (octets : List UInt8) : Prop :=
  (checkValidFrame octets.length).value (view octets fun _ => 0) = true

instance (octets : List UInt8) : Decidable (Validates octets) :=
  inferInstanceAs (Decidable (_ = _))

theorem validates_iff (octets : List UInt8) : Validates octets ↔ (frameAt octets).isSome := by
  rw [Validates, ← frameAt_isSome]

theorem not_validates_iff (octets : List UInt8) :
    ¬ Validates octets ↔ recogniser.size octets = none := by
  rw [validates_iff, Bool.not_eq_true, Option.isSome_eq_false_iff, Option.isNone_iff_eq_none]
  rfl

/-- No offset of a proper prefix of the octets validates, and none below `n` in all of them. -/
structure Silent (octets : List UInt8) (n : ℕ) : Prop where
  ofPrefix : ∀ k < octets.length, ∀ j < k, ¬ Validates ((octets.take k).drop j)
  below : ∀ j < n, ¬ Validates (octets.drop j)

theorem Silent.scan_take {octets : List UInt8} {n : ℕ} (h : Silent octets n) {k : ℕ}
    (hk : k < octets.length) : recogniser.scan (octets.take k) = none := by
  apply recogniser.scan_eq_none.mpr
  intro j
  by_cases hj : j < k
  · exact (not_validates_iff _).mp (h.ofPrefix k hk j hj)
  · rw [List.drop_of_length_le (by rw [List.length_take]; omega)]
    exact recogniser.size_nil

def Ingested.seen (ingested : Ingested) : Option (FrameInfo × List UInt8) :=
  ingested.message.map ControlMessage.seen

/-- A frame behind garbage is handed over by the call that brings its last octet, and by that
call alone, and leaves nothing in the ring. -/
theorem resynchronises (ingressBuffer : Vector UInt8 128) (p : List UInt8) (f : ShortFrame)
    (hshort : p.length + f.octets.length ≤ 127) (hsilent : Silent (p ++ f.octets) p.length)
    {before after : List IngestCall} {last : IngestCall}
    (hcut : ((before ++ last :: after).map IngestCall.data).flatten = p ++ f.octets)
    (hlast : last.data ≠ []) (hafter : (after.map IngestCall.data).flatten = []) :
    (ingesting.outputs (cmuxBufferInit ingressBuffer) (before ++ last :: after)).map
        Ingested.seen =
      before.map (fun _ => none) ++ some (f.info.wireInfo, f.info.bodyOctets) ::
        after.map (fun _ => none) ∧
    (ingesting.final (cmuxBufferInit ingressBuffer) (before ++ [last])).ingressRb.content = [] ∧
    (ingesting.final (cmuxBufferInit ingressBuffer) (before ++ last :: after)).ingressRb.content =
      [] := by
  have hseen : (messageOf f.octets).seen = (f.info.wireInfo, f.info.bodyOctets) := by
    obtain ⟨hinfo, hdata⟩ := f.messageOf_octets
    rw [ControlMessage.seen, hdata, hinfo]
  rw [List.map_append, List.map_cons] at hcut
  obtain ⟨houtputs, hlastState, hfinal⟩ := resync_run f.recognised (N := 128) (by omega)
    (fun k hk => hsilent.scan_take hk) (fun j hj => (not_validates_iff _).mp (hsilent.below j hj))
    hcut hlast hafter
  have hcontent (calls : List IngestCall) :
      (ingesting.final (cmuxBufferInit ingressBuffer) calls).ingressRb.content =
        (abstractReceiver.final ⟨0, []⟩ (calls.map IngestCall.data)).content := by
    have hwindow := (run_refines (cmuxBufferInit ingressBuffer) calls).1
    rw [window_init] at hwindow
    exact congrArg Window.content hwindow
  refine ⟨?_, ?_, ?_⟩
  · have hrun := congrArg (List.map fun o => o.2.map ControlMessage.seen)
      (run_refines (cmuxBufferInit ingressBuffer) (before ++ last :: after)).2
    have hframes := congrArg (List.map (Option.map fun g => (messageOf g).seen)) houtputs
    simp only [List.map_map, window_init, Function.comp_def, Option.map_map] at hrun hframes
    rw [List.map_append, List.map_cons] at hrun
    change (ingesting.outputs _ _).map (fun o => o.message.map ControlMessage.seen) = _
    rw [hrun, hframes, List.map_append, List.map_cons, List.map_map, List.map_map, Option.map_some,
      hseen]
    rfl
  · rw [hcontent, List.map_append, List.map_cons, List.map_nil]
    exact congrArg Window.content hlastState
  · rw [hcontent, List.map_append, List.map_cons]
    exact congrArg Window.content hfinal

/-- Half a frame before the frame that opens DLCI 1, in three calls. -/
theorem resynchronises_sabmFrame :
    (ingesting.outputs (cmuxBufferInit (Vector.replicate 128 0))
        ([⟨sabmFrame.octets.take 3, Surroundings.zero⟩, ⟨sabmFrame.octets.take 4, .zero⟩] ++
          [⟨sabmFrame.octets.drop 4, .zero⟩])).map Ingested.seen =
      [none, none] ++ [some (sabmFrame.info.wireInfo, [])] :=
  (resynchronises _ (sabmFrame.octets.take 3) sabmFrame (by decide +kernel)
    ⟨by decide +kernel, by decide +kernel⟩ (by decide +kernel) (by decide +kernel) rfl).1

end Cmux
