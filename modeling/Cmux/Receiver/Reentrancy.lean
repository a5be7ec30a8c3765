import Cmux.Receiver.CleanLine

/-! Calls of `cmux_buffer_ingest` out of the callback of another. The frame has been taken out and
copied when the callback runs, so that nested calls find the buffer as later ones would. -/
namespace Cmux
open Access Access.Prog Framing

/-- What a stretch of calls leaves behind: each call with its return value in the order in which
they were issued, and the messages in the order in which the callback was entered. -/
structure IngestLog where
  returns : List (IngestCall × ℕ)
  delivered : List ControlMessage

namespace IngestLog

def nil : IngestLog := ⟨[], []⟩

def append (log log' : IngestLog) : IngestLog :=
  ⟨log.returns ++ log'.returns, log.delivered ++ log'.delivered⟩

/-- A call with its return value and the message it delivers, if any. -/
def single (call : IngestCall) (ret : ℕ) (message : Option ControlMessage) : IngestLog :=
  ⟨[(call, ret)], message.toList⟩

def calls (log : IngestLog) : List IngestCall := log.returns.map Prod.fst

def data (log : IngestLog) : List (List UInt8) := log.calls.map IngestCall.data

theorem data_append (log log' : IngestLog) :
    (log.append log').data = log.data ++ log'.data := by
  simp only [data, calls, append, List.map_append]

theorem append_nil (log : IngestLog) : log.append nil = log := by
  simp only [append, nil, List.append_nil]

end IngestLog

/-- What a callback does with the buffer before it returns: it makes a call, during which the
callback reacts to the message of that call, and goes on with what the call has left behind. -/
inductive Reaction where
  | done
  | ingest (call : IngestCall) (callback : ControlMessage → Reaction)
      (next : IngestLog → Reaction)

/-- A log holds the calls of a reaction and no others, in the order in which they are issued: a
call, then what its callback does when it is handed the message, then what follows. -/
inductive Reaction.Issues : Reaction → IngestLog → Prop
  | done : Issues done IngestLog.nil
  | quiet {call callback next ret rest} (following : Issues (next (.single call ret none)) rest) :
    Issues (ingest call callback next) ((IngestLog.single call ret none).append rest)
  | nested {call callback next ret message inner rest} (handling : Issues (callback message) inner)
    (following : Issues (next ((IngestLog.single call ret (some message)).append inner)) rest) :
    Issues (ingest call callback next)
      (((IngestLog.single call ret (some message)).append inner).append rest)

/-! ### The code with its callback -/

section Callback
variable (onControlMessage : CmuxBuffer → ControlMessage → CmuxBuffer × IngestLog)

def processIngressFrameWith (cmux : CmuxBuffer) (frame : List UInt8) (beyond : ℕ → UInt8) :
    CmuxBuffer × IngestLog :=
  let message := (processIngressFrame frame beyond).1
  let handled := onControlMessage cmux message
  (handled.1, ⟨handled.2.returns, message :: handled.2.delivered⟩)

/-- `process_ingress`, with the callback made while the frame copy is held. -/
def processIngressWith (cmux : CmuxBuffer) (beyond : Surroundings) : CmuxBuffer × IngestLog :=
  match (scanIngressBufferForValidFrame cmux.ingressRb beyond).1 with
  | none => (cmux, IngestLog.nil)
  | some bufferIndex =>
    let skipped : CmuxBuffer := ⟨(lwrbSkip cmux.ingressRb bufferIndex).1, by
      rw [lwrbSkip_size, cmux.size_eq]⟩
    let header := lwrbPeek skipped.ingressRb 0 6
    let frameHeader := view (header ++ List.replicate (6 - header.length) 0) beyond.frameHeader
    let frameLength := getFrameLength.value frameHeader
    if frameLength ≠ -1 then
      let wholeFrame := lwrbRead skipped.ingressRb frameLength.toNat
      let taken : CmuxBuffer := ⟨wholeFrame.1, by rw [lwrbRead_size, skipped.size_eq]⟩
      if wholeFrame.2.length = frameLength.toNat then
        processIngressFrameWith onControlMessage taken wholeFrame.2 beyond.wholeFrame
      else (taken, IngestLog.nil)
    else (skipped, IngestLog.nil)

def cmuxBufferIngestWith (cmux : CmuxBuffer) (call : IngestCall) : CmuxBuffer × IngestLog :=
  let write := lwrbWrite cmux.ingressRb call.data
  let processed := processIngressWith onControlMessage
    ⟨write.1, by rw [lwrbWrite_size, cmux.size_eq]⟩ call.beyond
  (processed.1, ⟨(call, write.2) :: processed.2.returns, processed.2.delivered⟩)

end Callback

/-- The run of a reaction. Nested calls run to their end before it goes on. -/
def Reaction.run : Reaction → CmuxBuffer → CmuxBuffer × IngestLog
  | done, cmux => (cmux, IngestLog.nil)
  | ingest call callback next, cmux =>
    let made := cmuxBufferIngestWith (fun cmux message => (callback message).run cmux) cmux call
    let rest := (next made.2).run made.1
    (rest.1, made.2.append rest.2)

/-- A call whose callback reacts to the message of the call. -/
def cmuxBufferIngestReentrant (callback : ControlMessage → Reaction) (cmux : CmuxBuffer)
    (call : IngestCall) : CmuxBuffer × IngestLog :=
  cmuxBufferIngestWith (fun cmux message => (callback message).run cmux) cmux call

/-! ### The state in which the callback runs -/

section State
variable (onControlMessage : CmuxBuffer → ControlMessage → CmuxBuffer × IngestLog)

/-- The callback runs in the state that the call would leave without it. -/
theorem processIngressWith_eq (cmux : CmuxBuffer) (beyond : Surroundings) :
    processIngressWith onControlMessage cmux beyond =
      let left : CmuxBuffer := ⟨(processIngress cmux.ingressRb beyond).1, by
        rw [processIngress_size, cmux.size_eq]⟩
      match (processIngress cmux.ingressRb beyond).2.1 with
      | none => (left, IngestLog.nil)
      | some message =>
        ((onControlMessage left message).1, ⟨(onControlMessage left message).2.returns,
          message :: (onControlMessage left message).2.delivered⟩) := by
  rcases hscan : scanIngressBufferForValidFrame cmux.ingressRb beyond with ⟨index, reads⟩
  cases index with
  | none => simp only [processIngressWith, processIngress, hscan]
  | some index =>
    simp only [processIngressWith, processIngress, processIngressFrameWith, hscan]
    split_ifs <;> rfl

/-- A call with a callback is the call without it, and then the callback. -/
theorem cmuxBufferIngestWith_eq (cmux : CmuxBuffer) (call : IngestCall) :
    cmuxBufferIngestWith onControlMessage cmux call =
      let made := (ingesting.step cmux call).2
      match made.message with
      | none => ((ingesting.step cmux call).1, IngestLog.single call made.ret none)
      | some message =>
        let handled := onControlMessage (ingesting.step cmux call).1 message
        (handled.1, (IngestLog.single call made.ret (some message)).append handled.2) := by
  have hsize : (lwrbWrite cmux.ingressRb call.data).1.size = 128 := by
    rw [lwrbWrite_size, cmux.size_eq]
  have hprocessed := processIngressWith_eq onControlMessage
    ⟨(lwrbWrite cmux.ingressRb call.data).1, hsize⟩ call.beyond
  change _ = match (processIngress (lwrbWrite cmux.ingressRb call.data).1 call.beyond).2.1 with
    | none => _
    | some message => _
  rw [cmuxBufferIngestWith, hprocessed]
  dsimp only
  split <;> rfl

end State

/-! ### Nested calls in sequence -/

structure Sequential (cmux : CmuxBuffer) (left : CmuxBuffer × IngestLog) : Prop where
  window : left.1.window = abstractReceiver.final cmux.window left.2.data
  returns : left.2.returns.map Prod.snd =
    (abstractReceiver.outputs cmux.window left.2.data).map Prod.fst
  delivered : left.2.delivered =
    (delivered (abstractReceiver.outputs cmux.window left.2.data)).map messageOf

theorem sequential_nil (cmux : CmuxBuffer) : Sequential cmux (cmux, IngestLog.nil) :=
  ⟨rfl, rfl, rfl⟩

theorem Sequential.append {cmux : CmuxBuffer} {left rest : CmuxBuffer × IngestLog}
    (h : Sequential cmux left) (hrest : Sequential left.1 rest) :
    Sequential cmux (rest.1, left.2.append rest.2) := by
  have hdata := IngestLog.data_append left.2 rest.2
  refine ⟨?_, ?_, ?_⟩
  · rw [hdata, Mealy.final_append, ← h.window]
    exact hrest.window
  · rw [hdata, Mealy.outputs_append, List.map_append, ← h.window, ← h.returns, ← hrest.returns]
    exact List.map_append
  · rw [hdata, Mealy.outputs_append, delivered_append, List.map_append, ← h.window,
      ← h.delivered, ← hrest.delivered]
    rfl

/-- A call without a callback. -/
theorem sequential_call (cmux : CmuxBuffer) (call : IngestCall) :
    Sequential cmux ((ingesting.step cmux call).1, IngestLog.single call
      (ingesting.step cmux call).2.ret (ingesting.step cmux call).2.message) := by
  obtain ⟨hwindow, hout⟩ := ingesting_refines cmux call
  obtain ⟨hret, hmessage⟩ := Prod.ext_iff.mp hout
  dsimp only at hret hmessage
  refine ⟨hwindow, congrArg (fun n => [n]) hret, ?_⟩
  change (ingesting.step cmux call).2.message.toList =
    (delivered [(abstractReceiver.step cmux.window call.data).2]).map messageOf
  rw [hmessage, delivered_cons, delivered_nil, List.append_nil]
  cases (abstractReceiver.step cmux.window call.data).2.2 <;> rfl

/-- A call whose callback runs in sequence behind it. -/
theorem sequential_ingestWith (onControlMessage : CmuxBuffer → ControlMessage →
      CmuxBuffer × IngestLog) (cmux : CmuxBuffer) (call : IngestCall)
    (h : ∀ message, Sequential (ingesting.step cmux call).1
      (onControlMessage (ingesting.step cmux call).1 message)) :
    Sequential cmux (cmuxBufferIngestWith onControlMessage cmux call) := by
  have hcall := sequential_call cmux call
  rw [cmuxBufferIngestWith_eq]
  dsimp only
  split
  · next hnone =>
    rwa [hnone] at hcall
  · next message hsome =>
    rw [hsome] at hcall
    exact hcall.append (h message)

/-- A reaction makes its calls in sequence, at any depth. -/
theorem Reaction.run_sequential (reaction : Reaction) (cmux : CmuxBuffer) :
    Sequential cmux (reaction.run cmux) := by
  induction reaction generalizing cmux with
  | done => exact sequential_nil cmux
  | ingest call callback next ihcallback ihnext =>
    have hmade := sequential_ingestWith (fun cmux message => (callback message).run cmux) cmux call
      fun message => ihcallback message _
    exact hmade.append (ihnext _ _)

/-- A reaction makes the calls that it issues, at any depth. -/
theorem Reaction.run_issues (reaction : Reaction) (cmux : CmuxBuffer) :
    reaction.Issues (reaction.run cmux).2 := by
  induction reaction generalizing cmux with
  | done => exact Issues.done
  | ingest call callback next ihcallback ihnext =>
    have hmade := cmuxBufferIngestWith_eq (fun cmux message => (callback message).run cmux) cmux
      call
    simp only [Reaction.run, hmade]
    split
    · exact Issues.quiet (ihnext _ _)
    · exact Issues.nested (ihcallback _ _) (ihnext _ _)

/-- The log of a reaction begins with its first call. -/
theorem Reaction.Issues.calls_head {call : IngestCall} {callback : ControlMessage → Reaction}
    {next : IngestLog → Reaction} {log : IngestLog}
    (h : (Reaction.ingest call callback next).Issues log) :
    ∃ nested, log.calls = call :: nested := by
  cases h with
  | quiet => exact ⟨_, rfl⟩
  | nested => exact ⟨_, rfl⟩

/-- Out of the callback of a call further calls are made, at any depth: all that the callbacks
issue, each behind the call whose message it answers. The whole leaves the ring, gives the return
values and delivers the frames of the outer call without its callback and then of the nested ones,
made one after another in the order in which they were issued. -/
theorem reentrant_eq_sequential (cmux : CmuxBuffer) (call : IngestCall)
    (callback : ControlMessage → Reaction) :
    let made := cmuxBufferIngestReentrant callback cmux call
    (Reaction.ingest call callback fun _ => Reaction.done).Issues made.2 ∧
      ∃ nested, made.2.calls = call :: nested ∧ ∀ calls : List IngestCall,
        calls.map IngestCall.data = (call :: nested).map IngestCall.data →
          (ingesting.final cmux calls).ingressRb.content = made.1.ingressRb.content ∧
          (ingesting.outputs cmux calls).map Ingested.ret = made.2.returns.map Prod.snd ∧
          messages (ingesting.outputs cmux calls) = made.2.delivered := by
  have hsequential : Sequential cmux (cmuxBufferIngestReentrant callback cmux call) :=
    sequential_ingestWith _ cmux call fun message => (callback message).run_sequential _
  have hissues : (Reaction.ingest call callback fun _ => Reaction.done).Issues
      (cmuxBufferIngestReentrant callback cmux call).2 := by
    have h := (Reaction.ingest call callback fun _ => Reaction.done).run_issues cmux
    simp only [Reaction.run, IngestLog.append_nil] at h
    exact h
  obtain ⟨nested, hnested⟩ := hissues.calls_head
  refine ⟨hissues, nested, hnested, fun calls hcalls => ?_⟩
  have hdata : calls.map IngestCall.data =
      (cmuxBufferIngestReentrant callback cmux call).2.data := by
    rw [IngestLog.data, hnested, hcalls]
  obtain ⟨hwindow, houtputs⟩ := run_refines cmux calls
  refine ⟨?_, ?_, ?_⟩
  · have hsame := hwindow.trans (hdata ▸ hsequential.window.symm)
    exact congrArg Window.content hsame
  · have hret := congrArg (List.map Prod.fst) houtputs
    rw [List.map_map, List.map_map, hdata] at hret
    exact hret.trans hsequential.returns.symm
  · rw [run_messages, hdata, hsequential.delivered]

/-- A set-up command on the control channel, and its answer. -/
def sabmCall : IngestCall := ⟨[0xF9, 0x03, 0x3F, 0x01, 0x1C, 0xF9], Surroundings.zero⟩

def uaCall : IngestCall := ⟨[0xF9, 0x03, 0x73, 0x01, 0xD7, 0xF9], Surroundings.zero⟩

/-- A command that is answered out of its own callback: both calls take their six octets, and both
frames are delivered. -/
theorem reentrant_eq_sequential_loopback :
    let made := cmuxBufferIngestReentrant
      (fun _ => Reaction.ingest uaCall (fun _ => Reaction.done) fun _ => Reaction.done)
      (cmuxBufferInit (Vector.replicate 128 0)) sabmCall
    made.2.returns.map Prod.snd = [6, 6] ∧
      made.2.delivered.map ControlMessage.frame = [sabmCall.data, uaCall.data] ∧
      (ingesting.outputs (cmuxBufferInit (Vector.replicate 128 0))
        [sabmCall, uaCall]).map Ingested.ret = [6, 6] ∧
      messages (ingesting.outputs (cmuxBufferInit (Vector.replicate 128 0)) [sabmCall, uaCall]) =
        made.2.delivered := by
  obtain ⟨-, nested, hnested, hsame⟩ := reentrant_eq_sequential
    (cmuxBufferInit (Vector.replicate 128 0)) sabmCall
    fun _ => Reaction.ingest uaCall (fun _ => Reaction.done) fun _ => Reaction.done
  have hdata : [sabmCall, uaCall].map IngestCall.data =
      (sabmCall :: nested).map IngestCall.data := by
    rw [← hnested]
    decide +kernel
  obtain ⟨-, hreturns, hmessages⟩ := hsame _ hdata
  refine ⟨by decide +kernel, by decide +kernel, ?_, hmessages⟩
  rw [hreturns]
  decide +kernel

end Cmux
