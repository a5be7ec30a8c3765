import Cmux.Endpoint.Stack

/-! How much the endpoints can send on their own. The client answers nothing, and an answer of the
server takes a frame of at least six octets off its line, so that whatever the lines bring the two
fall silent when their applications do. -/
namespace Cmux
open Access Framing

section Traffic
variable {clientOptions : CmuxClientOptions} {serverOptions : CmuxServerOptions}

def LinkEvents.clientFrames (events : LinkEvents) : List (List UInt8) :=
  events.client.filterMap ClientEvent.sent?

def LinkEvents.serverFrames (events : LinkEvents) : List (List UInt8) :=
  events.server.filterMap ServerEvent.sent?

/-- The octets that are on their way to the server, in its ring or before it. -/
def Stack.toServerOctets (stack : Stack clientOptions serverOptions) : ℕ :=
  (stack.server.cmuxInstance.ingressRb.content ++ stack.toServer).length

def StackAction.clientCalls : StackAction → ℕ
  | client _ => 1
  | _ => 0

def StackAction.serverCalls : StackAction → ℕ
  | server _ => 1
  | _ => 0

theorem sendFrameOctets_length_le (frameInfo : Option BuilderFrameInfo) (maximumDlci : UInt8)
    (heap : ℕ → UInt8) : (frameInfo.bind fun info =>
      sendFrameOctets maximumDlci info heap).toList.length ≤ 1 := by
  cases frameInfo.bind fun info => sendFrameOctets maximumDlci info heap <;> simp

theorem clientSent_length_le (call : ClientCall) (client : CmuxClient clientOptions)
    (heap : ℕ → UInt8) : (clientSent (call.run client heap).2).length ≤ 1 := by
  rw [clientSent, clientCall_sent]
  exact sendFrameOctets_length_le _ _ _

theorem serverSent_length_le (call : ServerCall) (server : CmuxServer serverOptions)
    (heap : ℕ → UInt8) : (serverSent (call.run server heap).2).length ≤ 1 := by
  rw [serverSent, serverCall_sent]
  exact sendFrameOctets_length_le _ _ _

/-- A message is answered with one frame at most. -/
theorem serverReply_length_le (server : CmuxServer serverOptions) (message : ControlMessage)
    (heap : ℕ → UInt8) :
    (serverSent (serverOnControlMessage server message heap).2).length ≤ 1 := by
  rw [serverSent, serverMessage_sent]
  cases replyFrame message.frameInfo (serverRequest message heap) heap with
  | none => exact Nat.zero_le 1
  | some info => exact sendFrameOctets_length_le _ _ _

/-- A message takes a frame of at least six octets out of the ring. -/
theorem ingest_length_le (cmux : CmuxBuffer) (line : List UInt8) (len : ℕ)
    (beyond : Surroundings) :
    ((cmuxBufferIngest cmux (line.take len) beyond).1.ingressRb.content ++
        line.drop (cmuxBufferIngest cmux (line.take len) beyond).2.ret).length +
      (if (cmuxBufferIngest cmux (line.take len) beyond).2.message.isSome then 6 else 0) ≤
      (cmux.ingressRb.content ++ line).length := by
  obtain ⟨hcontent, -, hret⟩ := lwrbWrite_spec cmux.ingressRb (line.take len)
  have hstored := congrArg List.length hcontent
  rw [List.length_append, List.length_take] at hstored
  have hdata : (line.take len).length ≤ line.length := List.length_take_le' _ _
  change ((processIngress (lwrbWrite cmux.ingressRb (line.take len)).1 beyond).1.content ++
      line.drop (lwrbWrite cmux.ingressRb (line.take len)).2).length +
    (if (processIngress (lwrbWrite cmux.ingressRb (line.take len)).1 beyond).2.1.isSome then 6
      else 0) ≤ _
  rw [List.length_append, List.length_append, List.length_drop]
  obtain ⟨-, hnone, hkept⟩ | ⟨junk, frame, message, -, hmessage, hsplit, hwhole, -⟩ :=
    processIngress_conserves (lwrbWrite cmux.ingressRb (line.take len)).1 beyond
  · rw [hnone, hkept, Option.isSome_none, if_neg Bool.false_ne_true]
    omega
  · have hsize : 6 ≤ frame.length := by
      obtain ⟨hvalid, -⟩ := hwhole fun _ => 0
      rw [checkValidFrame_value, decide_eq_true_eq] at hvalid
      exact Nat.le_trans (frameSize_ge _) hvalid.2.1
    have hlength := congrArg List.length hsplit
    rw [List.length_append, List.length_append] at hlength
    rw [hmessage, Option.isSome_some, if_pos rfl]
    omega

/-- The server answers no more than its receive buffer hands over. -/
theorem cmuxServerIngest_sent (cmuxServer : CmuxServerInstance serverOptions) (call : IngestCall) :
    (serverSent (cmuxServerIngest cmuxServer call).2.2).length ≤
        (if (cmuxBufferIngest cmuxServer.cmuxInstance call.data call.beyond).2.message.isSome then 1
          else 0) ∧
      (cmuxServerIngest cmuxServer call).1.cmuxInstance =
        (cmuxBufferIngest cmuxServer.cmuxInstance call.data call.beyond).1 ∧
      (cmuxServerIngest cmuxServer call).2.1 =
        (cmuxBufferIngest cmuxServer.cmuxInstance call.data call.beyond).2.ret := by
  unfold cmuxServerIngest
  dsimp only
  cases (cmuxBufferIngest cmuxServer.cmuxInstance call.data call.beyond).2.message with
  | none => exact ⟨Nat.le_refl 0, rfl, rfl⟩
  | some message => exact ⟨serverReply_length_le cmuxServer.server message _, rfl, rfl⟩

/-- The client answers nothing. -/
theorem cmuxClientIngest_sent (cmuxClient : CmuxClientInstance clientOptions) (call : IngestCall) :
    clientSent (cmuxClientIngest cmuxClient call).2.2 = [] := by
  unfold cmuxClientIngest
  dsimp only
  cases (cmuxBufferIngest cmuxClient.cmuxInstance call.data call.beyond).2.message with
  | none => rfl
  | some message => exact clientOnControlMessage_sent _ _ _

/-- A step pays for an answer with the octets of the frame that it answers. -/
theorem stack_pays (stack : Stack clientOptions serverOptions)
    (input : StackAction × Surroundings) :
    6 * ((stackMachine _ _).step stack input).2.serverFrames.length +
        ((stackMachine _ _).step stack input).1.toServerOctets ≤
      ((stackMachine _ _).step stack input).2.clientFrames.flatten.length +
        6 * input.1.serverCalls + stack.toServerOctets := by
  obtain ⟨action, beyond⟩ := input
  change 6 * (stack.run action beyond).2.serverFrames.length +
      (stack.run action beyond).1.toServerOctets ≤
    (stack.run action beyond).2.clientFrames.flatten.length + 6 * action.serverCalls +
      stack.toServerOctets
  cases action with
  | client call =>
    have hnone : (stack.run (.client call) beyond).2.serverFrames = [] := rfl
    have hsent : (stack.run (.client call) beyond).1.toServerOctets = stack.toServerOctets +
        (stack.run (.client call) beyond).2.clientFrames.flatten.length := by
      change (_ ++ (stack.toServer ++ (clientSent _).flatten)).length = _
      rw [← List.append_assoc, List.length_append]
      rfl
    rw [hnone, hsent, List.length_nil]
    omega
  | server call =>
    have hone : (stack.run (.server call) beyond).2.serverFrames.length ≤ 1 :=
      serverSent_length_le call.1 stack.server.server beyond.wholeFrame
    have hsame : (stack.run (.server call) beyond).1.toServerOctets = stack.toServerOctets := rfl
    rw [hsame, StackAction.serverCalls]
    omega
  | ingestServer len =>
    obtain ⟨hone, hcmux, hret⟩ :=
      cmuxServerIngest_sent stack.server ⟨stack.toServer.take len, beyond⟩
    have hingest := ingest_length_le stack.server.cmuxInstance stack.toServer len beyond
    have hleft : (stack.run (.ingestServer len) beyond).1.toServerOctets =
        ((cmuxBufferIngest stack.server.cmuxInstance (stack.toServer.take len)
            beyond).1.ingressRb.content ++
          stack.toServer.drop (cmuxBufferIngest stack.server.cmuxInstance
            (stack.toServer.take len) beyond).2.ret).length := by
      dsimp only at hcmux hret
      rw [← hret, ← hcmux]
      rfl
    have hfew : (stack.run (.ingestServer len) beyond).2.serverFrames.length ≤ _ := hone
    rw [← hleft] at hingest
    change _ ≤ stack.toServerOctets at hingest
    split_ifs at hingest hfew <;> omega
  | ingestClient len =>
    have hnone : (stack.run (.ingestClient len) beyond).2.serverFrames = [] := rfl
    have hsame : (stack.run (.ingestClient len) beyond).1.toServerOctets =
        stack.toServerOctets := by
      have hsilent := cmuxClientIngest_sent stack.client ⟨stack.toClient.take len, beyond⟩
      change (_ ++ (stack.toServer ++ (clientSent _).flatten)).length = _
      rw [hsilent, List.flatten_nil, List.append_nil]
      rfl
    rw [hnone, hsame, List.length_nil]
    omega

/-- What the client sends in a step, its application has asked for. -/
theorem stack_clientFrames (stack : Stack clientOptions serverOptions)
    (input : StackAction × Surroundings) :
    ((stackMachine _ _).step stack input).2.clientFrames.length ≤ input.1.clientCalls := by
  obtain ⟨action, beyond⟩ := input
  cases action with
  | client call => exact clientSent_length_le call.1 stack.client.client beyond.wholeFrame
  | server call => exact Nat.le_refl 0
  | ingestServer len => exact Nat.le_refl 0
  | ingestClient len =>
    exact Nat.le_of_eq (congrArg List.length
      (cmuxClientIngest_sent stack.client ⟨stack.toClient.take len, beyond⟩))

/-- In every run, whatever is in the rings and on the lines: the client sends a frame only when
its application calls it, and the server at most one for each call of its application and one for
every six octets on their way to it. -/
theorem traffic_le (stack : Stack clientOptions serverOptions)
    (inputs : List (StackAction × Surroundings)) :
    (((stackMachine _ _).outputs stack inputs).map fun events => events.clientFrames.length).sum ≤
        (inputs.map fun input => input.1.clientCalls).sum ∧
    (((stackMachine _ _).outputs stack inputs).map
          fun events => 6 * events.serverFrames.length).sum +
        ((stackMachine _ _).final stack inputs).toServerOctets ≤
      (((stackMachine _ _).outputs stack inputs).map
          fun events => events.clientFrames.flatten.length).sum +
        (inputs.map fun input => 6 * input.1.serverCalls).sum + stack.toServerOctets := by
  refine ⟨?_, (stackMachine _ _).spent_le_allowed stack_pays stack inputs⟩
  have hstep (stack : Stack clientOptions serverOptions) (input : StackAction × Surroundings) :
      ((stackMachine _ _).step stack input).2.clientFrames.length + 0 ≤
        0 + input.1.clientCalls + 0 := by
    have hcalls := stack_clientFrames stack input
    omega
  have hsum := (stackMachine clientOptions serverOptions).spent_le_allowed
    (f := fun events => events.clientFrames.length) (g := fun _ => 0)
    (a := fun input => input.1.clientCalls) (c := fun _ => 0) hstep stack inputs
  simpa using hsum

end Traffic
end Cmux
