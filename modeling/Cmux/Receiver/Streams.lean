import Cmux.Receiver.CleanLine

/-! How the frames handed over depend on the cut of the stream into calls. A call takes out
one frame at most, the one that begins first, and the scan tries every flag, also those
inside a frame that is not complete yet. -/
namespace Cmux
open Framing Framing.Window

def written (cmux : CmuxBuffer) (call : IngestCall) : Lwrb :=
  (lwrbWrite cmux.ingressRb call.data).1

theorem written_window (cmux : CmuxBuffer) (call : IngestCall) :
    (written cmux call).window = cmux.window.push 128 call.data ∧
      (written cmux call).size = 128 := by
  have h := (lwrbWrite_push cmux.ingressRb call.data).1
  rw [cmux.size_eq] at h
  exact ⟨h, by rw [written, lwrbWrite_size, cmux.size_eq]⟩

theorem written_visible (cmux : CmuxBuffer) (call : IngestCall) :
    (cmux.window.push 128 call.data).visible 128 = linearBlock (written cmux call) := by
  obtain ⟨hwindow, hsize⟩ := written_window cmux call
  rw [← hwindow, linearBlock, hsize]
  rfl

/-! ### Cuts -/

/-- The frame that the scan finds is also the first to end, and what stands behind it in
the ring shows no other complete frame. -/
def OrderlyCall (cmux : CmuxBuffer) (call : IngestCall) : Prop :=
  ∀ q ∈ recogniser.scan (linearBlock (written cmux call)),
    (∀ j < (linearBlock (written cmux call)).length,
      ∀ m ∈ frameAt ((linearBlock (written cmux call)).drop j), q.1 + q.2 ≤ j + m) ∧
    recogniser.scan (((written cmux call).content.drop (q.1 + q.2)).take
      (128 - ((written cmux call).r + q.1 + q.2) % 128)) = none

instance (cmux : CmuxBuffer) (call : IngestCall) : Decidable (OrderlyCall cmux call) :=
  inferInstanceAs (Decidable (∀ q ∈ recogniser.scan (linearBlock (written cmux call)), _))

theorem orderlyCall_iff (cmux : CmuxBuffer) (call : IngestCall) :
    OrderlyCall cmux call ↔ Orderly recogniser 128 cmux.window call.data := by
  obtain ⟨hwindow, -⟩ := written_window cmux call
  have hpos : (written cmux call).r = cmux.window.pos := congrArg Window.pos hwindow
  have hcontent : (written cmux call).content = (cmux.window.push 128 call.data).content :=
    congrArg Window.content hwindow
  rw [Orderly, written_visible, ← hcontent, ← hpos, OrderlyCall]
  simp only [Prod.forall, Option.mem_def, ← recogniser_size]
  refine forall_congr' fun i => forall_congr' fun n => imp_congr_right fun hscan =>
    and_congr_left fun _ => ⟨fun h j m hm => h j ?_ m hm, fun h j _ m hm => h j m hm⟩
  have := recogniser.size_drop_le hm
  have := recogniser.size_pos hm
  omega

/-- Two cuts of one stream hand over the same frames when all their calls are orderly. -/
theorem messages_eq_of_orderly {ingressBuffer₁ ingressBuffer₂ : Vector UInt8 128}
    {calls₁ calls₂ : List IngestCall}
    (hstream : (calls₁.map IngestCall.data).flatten = (calls₂.map IngestCall.data).flatten)
    (haccepted₁ : ingesting.Throughout Accepted (cmuxBufferInit ingressBuffer₁) calls₁)
    (haccepted₂ : ingesting.Throughout Accepted (cmuxBufferInit ingressBuffer₂) calls₂)
    (horderly₁ : ingesting.Throughout OrderlyCall (cmuxBufferInit ingressBuffer₁) calls₁)
    (horderly₂ : ingesting.Throughout OrderlyCall (cmuxBufferInit ingressBuffer₂) calls₂) :
    messages (ingesting.outputs (cmuxBufferInit ingressBuffer₁) calls₁) =
      messages (ingesting.outputs (cmuxBufferInit ingressBuffer₂) calls₂) := by
  -- both deliver what the stream delivers one octet at a time
  have hsingles (ingressBuffer : Vector UInt8 128) (calls : List IngestCall)
      (haccepted : ingesting.Throughout Accepted (cmuxBufferInit ingressBuffer) calls)
      (horderly : ingesting.Throughout OrderlyCall (cmuxBufferInit ingressBuffer) calls) :
      messages (ingesting.outputs (cmuxBufferInit ingressBuffer) calls) =
        (delivered (abstractReceiver.outputs ⟨0, []⟩
          (singles (calls.map IngestCall.data).flatten))).map messageOf := by
    have hcaught : CaughtUp recogniser 128 (⟨0, []⟩ : Window UInt8) := rfl
    rw [throughout_accepted_iff, window_init] at haccepted
    rw [throughout_window_iff _ _ orderlyCall_iff, window_init] at horderly
    rw [run_messages, window_init, (orderly_run hcaught haccepted horderly).1]
  rw [hsingles _ _ haccepted₁ horderly₁, hsingles _ _ haccepted₂ horderly₂, hstream]

def callsOf (pieces : List (List UInt8)) : List IngestCall :=
  pieces.map fun d => ⟨d, Surroundings.zero⟩

theorem messages_eq_of_orderly_sabmFrame :
    messages (ingesting.outputs (cmuxBufferInit (Vector.replicate 128 0))
        (callsOf [sabmFrame.octets])) =
      messages (ingesting.outputs (cmuxBufferInit (Vector.replicate 128 0))
        (callsOf [sabmFrame.octets.take 3, sabmFrame.octets.drop 3])) :=
  messages_eq_of_orderly (by decide +kernel) (by decide +kernel) (by decide +kernel)
    (by decide +kernel) (by decide +kernel)

/-- Of two frames given in one call the second stays in the ring. -/
theorem messages_ne_sabmFrames :
    ((callsOf [sabmFrame.octets ++ sabmFrame.octets]).map IngestCall.data).flatten =
        ((callsOf [sabmFrame.octets, sabmFrame.octets]).map IngestCall.data).flatten ∧
      ingesting.Throughout Accepted (cmuxBufferInit (Vector.replicate 128 0))
        (callsOf [sabmFrame.octets ++ sabmFrame.octets]) ∧
      ingesting.Throughout Accepted (cmuxBufferInit (Vector.replicate 128 0))
        (callsOf [sabmFrame.octets, sabmFrame.octets]) ∧
      messages (ingesting.outputs (cmuxBufferInit (Vector.replicate 128 0))
          (callsOf [sabmFrame.octets ++ sabmFrame.octets])) ≠
        messages (ingesting.outputs (cmuxBufferInit (Vector.replicate 128 0))
          (callsOf [sabmFrame.octets, sabmFrame.octets])) := by
  decide +kernel

/-! ### Payload -/

/-- No octet of the linear block begins a complete frame unless the first one does. -/
def FlushCall (cmux : CmuxBuffer) (call : IngestCall) : Prop :=
  ∀ i < (linearBlock (written cmux call)).length,
    (frameAt ((linearBlock (written cmux call)).drop i)).isSome →
      (frameAt (linearBlock (written cmux call))).isSome

instance (cmux : CmuxBuffer) (call : IngestCall) : Decidable (FlushCall cmux call) :=
  inferInstanceAs (Decidable (∀ i < (linearBlock (written cmux call)).length, _))

theorem flushCall_iff (cmux : CmuxBuffer) (call : IngestCall) :
    FlushCall cmux call ↔ Flush recogniser 128 cmux.window call.data := by
  simp only [Flush, written_visible, FlushCall, ← recogniser_size]
  constructor
  · intro h i n hn
    have := recogniser.size_drop_le hn
    have := recogniser.size_pos hn
    exact h i (by omega) (Option.isSome_iff_exists.mpr ⟨n, hn⟩)
  · intro h i _ hsome
    obtain ⟨n, hn⟩ := Option.isSome_iff_exists.mp hsome
    exact h i n hn

/-- Positions in the stream and lengths of the frames that a run hands over, after `t`
octets stored. A frame ends where the octets still in the ring begin. -/
def messageSpans : ℕ → CmuxBuffer → List IngestCall → List (ℕ × ℕ)
  | _, _, [] => []
  | t, cmux, call :: calls =>
    let r := ingesting.step cmux call
    let t := t + r.2.ret
    (r.2.message.toList.map fun message =>
        (t - r.1.ingressRb.content.length - message.frame.length, message.frame.length)) ++
      messageSpans t r.1 calls

theorem messageSpans_eq (t : ℕ) (cmux : CmuxBuffer) (calls : List IngestCall) :
    messageSpans t cmux calls =
      spans recogniser 128 t cmux.window (calls.map IngestCall.data) := by
  induction calls generalizing t cmux with
  | nil => rfl
  | cons call calls ih =>
    obtain ⟨hwindow, hout⟩ := ingesting_refines cmux call
    obtain ⟨hret, hmessage⟩ := Prod.mk.inj hout
    have hcontent : (ingesting.step cmux call).1.ingressRb.content =
        (abstractReceiver.step cmux.window call.data).1.content := by
      rw [← window_content, hwindow]
    rw [messageSpans, List.map_cons, spans, ih, hwindow, hret, hmessage, hcontent]
    cases (abstractReceiver.step cmux.window call.data).2.2 <;> rfl

/-- For every cut of a stream of frames into accepted calls: only frames that were sent are
handed over, in order and from their own place in the stream, exactly when every call is
flush. -/
theorem onlySent_iff (ingressBuffer : Vector UInt8 128) (frames : List ShortFrame)
    (calls : List IngestCall)
    (hstream : (calls.map IngestCall.data).flatten = (frames.map ShortFrame.octets).flatten)
    (haccepted : ingesting.Throughout Accepted (cmuxBufferInit ingressBuffer) calls) :
    (((messages (ingesting.outputs (cmuxBufferInit ingressBuffer) calls)).map
          ControlMessage.seen).Sublist
        (frames.map fun f => (f.info.wireInfo, f.info.bodyOctets)) ∧
      ∀ q ∈ messageSpans 0 (cmuxBufferInit ingressBuffer) calls,
        q ∈ frameSpans 0 (frames.map ShortFrame.octets)) ↔
    ingesting.Throughout FlushCall (cmuxBufferInit ingressBuffer) calls := by
  have hframes : ∀ g ∈ frames.map ShortFrame.octets, recogniser.size g = some g.length := by
    simp only [List.forall_mem_map]
    intro f _
    exact f.recognised
  have hseen : (frames.map ShortFrame.octets).map (fun g => (messageOf g).seen) =
      frames.map fun f => (f.info.wireInfo, f.info.bodyOctets) := by
    rw [List.map_map]
    apply List.map_congr_left
    intro f _
    obtain ⟨hinfo, hdata⟩ := f.messageOf_octets
    rw [Function.comp_apply, ControlMessage.seen, hdata, hinfo]
  rw [throughout_accepted_iff, window_init] at haccepted
  rw [throughout_window_iff _ _ flushCall_iff, messageSpans_eq, run_messages, window_init,
    ← hseen, List.map_map]
  have hspans := spans_iff_flush hframes (by simpa using hstream) haccepted
    (t := 0) (b := 0) rfl
  refine ⟨fun h => hspans.mp h.2, fun h => ⟨?_, hspans.mpr h⟩⟩
  exact (flush_sublist hframes (by simpa using hstream) haccepted h).map _

/-- An UIH frame on DLCI 1 whose payload is the frame that opens DLCI 1. -/
def nestingFrame : ShortFrame where
  info := { BuilderFrameInfo.zero with
    ea := true
    cr := true
    dlci := 1
    type := ControlType.uih
    length := 6
    frameDataBody := some [0xF9, 0x07, 0x3F, 0x01, 0xDE, 0xF9] }
  prior := fun _ => 0
  not_ui := by decide
  complete := by decide
  short := by decide

theorem onlySent_sabmFrame :
    ((messages (ingesting.outputs (cmuxBufferInit (Vector.replicate 128 0))
          (callsOf [sabmFrame.octets.take 3, sabmFrame.octets.drop 3]))).map
          ControlMessage.seen).Sublist
        ([sabmFrame].map fun f => (f.info.wireInfo, f.info.bodyOctets)) ∧
      ∀ q ∈ messageSpans 0 (cmuxBufferInit (Vector.replicate 128 0))
          (callsOf [sabmFrame.octets.take 3, sabmFrame.octets.drop 3]),
        q ∈ frameSpans 0 ([sabmFrame].map ShortFrame.octets) :=
  (onlySent_iff _ _ _ (by decide +kernel) (by decide +kernel)).mpr (by decide +kernel)

/-- When the last two octets come in a call of their own, the payload is taken for a frame. -/
theorem not_onlySent_nestingFrame :
    ((callsOf [nestingFrame.octets.take 10, nestingFrame.octets.drop 10]).map
        IngestCall.data).flatten = ([nestingFrame].map ShortFrame.octets).flatten ∧
      ingesting.Throughout Accepted (cmuxBufferInit (Vector.replicate 128 0))
        (callsOf [nestingFrame.octets.take 10, nestingFrame.octets.drop 10]) ∧
      ¬ ((messages (ingesting.outputs (cmuxBufferInit (Vector.replicate 128 0))
          (callsOf [nestingFrame.octets.take 10, nestingFrame.octets.drop 10]))).map
          ControlMessage.seen).Sublist
        ([nestingFrame].map fun f => (f.info.wireInfo, f.info.bodyOctets)) := by
  decide +kernel

end Cmux
