import Cmux.Foundation.Chunking
import Cmux.Receiver.Buffer

/-! The buffer refines the abstract receiver over the frames of the protocol: its ring is
the window, and each message is made of the frame the receiver delivers. -/
namespace Cmux
open Framing Framing.Window

/-- The abstract receiver of the protocol, over storage of 128 octets. -/
abbrev abstractReceiver : Mealy (Window UInt8) (List UInt8) (ℕ × Option (List UInt8)) :=
  receiver recogniser 128

def Lwrb.window (rb : Lwrb) : Window UInt8 := ⟨rb.r, rb.content⟩

def CmuxBuffer.window (cmux : CmuxBuffer) : Window UInt8 := cmux.ingressRb.window

theorem window_content (cmux : CmuxBuffer) : cmux.window.content = cmux.ingressRb.content := rfl

@[simp] theorem window_init (ingressBuffer : Vector UInt8 128) :
    (cmuxBufferInit ingressBuffer).window = ⟨0, []⟩ := by
  rw [CmuxBuffer.window, Lwrb.window, cmuxBufferInit, lwrbInit_content]
  rfl

theorem window_fits (cmux : CmuxBuffer) : cmux.window.Fits 128 := by
  have hr := cmux.ingressRb.r_lt_size
  have hc := cmux.ingressRb.content_length_lt
  rw [cmux.size_eq] at hr hc
  exact ⟨hr, hc⟩

theorem lwrbWrite_push (rb : Lwrb) (data : List UInt8) :
    (lwrbWrite rb data).1.window = rb.window.push rb.size data ∧
      (lwrbWrite rb data).2 = min data.length (rb.size - 1 - rb.window.content.length) := by
  obtain ⟨hcontent, hr, hret⟩ := lwrbWrite_spec rb data
  exact ⟨by rw [Lwrb.window, hcontent, hr]; rfl, hret⟩

theorem processIngress_extract (rb : Lwrb) (beyond : Surroundings) :
    (processIngress rb beyond).1.window = (rb.window.extract recogniser rb.size).1 ∧
      (processIngress rb beyond).2.1 =
        (rb.window.extract recogniser rb.size).2.map messageOf := by
  cases hscan : recogniser.scan (linearBlock rb) with
  | none =>
    rw [extract_none hscan, processIngress_none hscan]
    exact ⟨rfl, rfl⟩
  | some q =>
    obtain ⟨i, n⟩ := q
    obtain ⟨hcontent, hr, hmessage, -⟩ := processIngress_some hscan beyond
    rw [extract_some hscan]
    exact ⟨by rw [Lwrb.window, hcontent, hr]; rfl, hmessage⟩

/-- One call does to the window what one step of the abstract receiver does. -/
theorem ingesting_refines (cmux : CmuxBuffer) (call : IngestCall) :
    (ingesting.step cmux call).1.window = (abstractReceiver.step cmux.window call.data).1 ∧
      ((ingesting.step cmux call).2.ret, (ingesting.step cmux call).2.message) =
        ((abstractReceiver.step cmux.window call.data).2.1,
          (abstractReceiver.step cmux.window call.data).2.2.map messageOf) := by
  obtain ⟨hpush, hret⟩ := lwrbWrite_push cmux.ingressRb call.data
  obtain ⟨hwindow, hmessage⟩ :=
    processIngress_extract (lwrbWrite cmux.ingressRb call.data).1 call.beyond
  rw [hpush, lwrbWrite_size, cmux.size_eq] at hwindow hmessage
  rw [cmux.size_eq] at hret
  exact ⟨hwindow, Prod.ext hret hmessage⟩

def messages (outputs : List Ingested) : List ControlMessage := outputs.filterMap Ingested.message

section Run
variable (cmux : CmuxBuffer) (calls : List IngestCall)

theorem run_refines :
    (ingesting.final cmux calls).window =
        abstractReceiver.final cmux.window (calls.map IngestCall.data) ∧
      (ingesting.outputs cmux calls).map (fun o => (o.ret, o.message)) =
        (abstractReceiver.outputs cmux.window (calls.map IngestCall.data)).map
          fun o => (o.1, o.2.map messageOf) :=
  Mealy.outputs_simulation (M := ingesting)
    (R := fun cmux window => CmuxBuffer.window cmux = window)
    (by rintro cmux _ call rfl -; exact ingesting_refines cmux call) rfl
    (ingesting.throughout_true cmux calls)

/-- The messages of a run are made of the frames the abstract receiver delivers. -/
theorem run_messages : messages (ingesting.outputs cmux calls) =
    (delivered (abstractReceiver.outputs cmux.window (calls.map IngestCall.data))).map
      messageOf := by
  have h := congrArg (List.filterMap Prod.snd) (run_refines cmux calls).2
  rw [List.filterMap_map, List.filterMap_map] at h
  rw [delivered, List.map_filterMap]
  exact h

def Accepted (cmux : CmuxBuffer) (call : IngestCall) : Prop :=
  (cmuxBufferIngest cmux call.data call.beyond).2.ret = call.data.length

instance : Decidable (Accepted cmux call) := inferInstanceAs (Decidable (_ = _))

theorem accepted_iff (call : IngestCall) :
    Accepted cmux call ↔ Accepts 128 cmux.window call.data := by
  have h := congrArg Prod.fst (ingesting_refines cmux call).2
  change (cmuxBufferIngest cmux call.data call.beyond).2.ret = _ at h
  rw [Accepted, h, step_eq, Accepts]
  change min _ _ = _ ↔ _
  omega

/-- A condition on calls that only looks at the window is one on the abstract receiver. -/
theorem throughout_window_iff {C : CmuxBuffer → IngestCall → Prop}
    {D : Window UInt8 → List UInt8 → Prop}
    (h : ∀ cmux call, C cmux call ↔ D cmux.window call.data) :
    ingesting.Throughout C cmux calls ↔
      abstractReceiver.Throughout D cmux.window (calls.map IngestCall.data) :=
  Mealy.throughout_simulation (M := ingesting)
    (R := fun cmux window => CmuxBuffer.window cmux = window)
    (by rintro cmux _ call rfl -; exact (ingesting_refines cmux call).1)
    (by rintro cmux _ call rfl -; exact h cmux call) rfl (ingesting.throughout_true cmux calls)

theorem throughout_accepted_iff : ingesting.Throughout Accepted cmux calls ↔
    abstractReceiver.Throughout (Accepts 128) cmux.window (calls.map IngestCall.data) :=
  throughout_window_iff _ _ accepted_iff

end Run
end Cmux
