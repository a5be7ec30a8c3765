import Cmux.Endpoint.Agreement
import Cmux.Endpoint.Stack
import Cmux.Endpoint.Truncation

/-! The data of a terminal, from the application at one end to the application at the other. Each
step of a session keeps, for either direction, what has been handed over before what is under way;
the lines of octets keep what the session keeps. -/
namespace Cmux
open Access Framing Framing.Window

def payloadOn (dlci : UInt8) (octets : List UInt8) : List UInt8 :=
  if IsFrame ControlType.uih dlci octets then information octets else []

/-- The octets that an event hands to the data callback of the DLCI. -/
def ClientEvent.dataOn (dlci : UInt8) : ClientEvent → List UInt8
  | onTerminalData d data => if d = dlci then data else []
  | _ => []

def ServerEvent.dataOn (dlci : UInt8) : ServerEvent → List UInt8
  | onTerminalData d data => if d = dlci then data else []
  | _ => []

def frameData (dlci : UInt8) : Option BuilderFrameInfo → List UInt8
  | some info =>
    if info.type &&& ~~~controlTypePollFinal = ControlType.uih ∧ info.dlci = dlci
      then info.bodyOctets else []
  | none => []

/-- The octets that an application hands over for the DLCI. -/
def ClientCall.dataOn (dlci : UInt8) (heap : ℕ → UInt8) : ClientCall → List UInt8
  | terminalSend d data len => if d = dlci then (data.getD []).take len else []
  | request d type services =>
    frameData dlci (ClientCall.frameInfo heap (.request d type services))
  | _ => []

def ServerCall.dataOn (dlci : UInt8) (heap : ℕ → UInt8) : ServerCall → List UInt8
  | terminalSend d data len => if d = dlci then (data.getD []).take len else []
  | request d type services =>
    frameData dlci (ServerCall.frameInfo heap (.request d type services))
  | reply d type services =>
    frameData dlci (ServerCall.frameInfo heap (.reply d type services))
  | _ => []

/-- A call leaves the data callback of the DLCI registered, and its length fits the record. -/
def ClientCall.KeepsData (dlci : UInt8) : ClientCall → Prop
  | terminalOpen d terminalOptions => d = dlci →
      (terminalOptions.getD CmuxClientTerminalOptions.zero).cmuxClientOnTerminalData = true
  | terminalSend d _ len => d = dlci → len < 65536
  | _ => True

def ServerCall.KeepsData (dlci : UInt8) : ServerCall → Prop
  | registerTerminal d terminalOptions => d = dlci →
      (terminalOptions.getD CmuxServerTerminalOptions.zero).cmuxServerOnTerminalData = true
  | terminalSend d _ len => d = dlci → len < 65536
  | _ => True

instance (dlci : UInt8) : DecidablePred (ClientCall.KeepsData dlci)
  | .terminalOpen _ _ => inferInstanceAs (Decidable (_ → _))
  | .terminalSend _ _ _ => inferInstanceAs (Decidable (_ → _))
  | .start | .stop | .request _ _ _ | .terminalClose _ | .receive _ => isTrue trivial

instance (dlci : UInt8) : DecidablePred (ServerCall.KeepsData dlci)
  | .registerTerminal _ _ => inferInstanceAs (Decidable (_ → _))
  | .terminalSend _ _ _ => inferInstanceAs (Decidable (_ → _))
  | .stop | .request _ _ _ | .reply _ _ _ | .terminalClose _ | .receive _ => isTrue trivial

/-! ### Frames -/

section Frames
variable {d : UInt8} {heap : ℕ → UInt8}

/-- The type and the DLCI that a frame carries. -/
theorem isFrame_sent_iff {info : BuilderFrameInfo} (hdlci : info.dlci.toNat < 64)
    (type : ControlType) : IsFrame type d (builtFrame info heap) ↔
      info.type &&& ~~~controlTypePollFinal = type ∧ info.dlci = d := by
  obtain ⟨rest, hrest⟩ := builtFrame_header info heap
  simp only [IsFrame, hrest, List.getElem?_cons_succ, List.getElem?_cons_zero, Option.map_some,
    (addressOctet_decoded info).2.2, (controlOctet_decoded info).1, dlci_sixBits_iff.mpr hdlci,
    Option.some.injEq]
  exact and_comm

theorem payloadOn_builtFrame {info : BuilderFrameInfo} (h : Sendable info)
    (hdlci : info.dlci.toNat < 64) :
    payloadOn d (builtFrame info heap) = frameData d (some info) := by
  have hoctets : builtFrame info heap = info.octets := (h.frame heap).octets_eq
  simp only [payloadOn, frameData, isFrame_sent_iff hdlci]
  rw [hoctets, information_octets]

/-- What the frames that `send_frame` hands to the interface carry. -/
theorem payload_sendFrameOctets {P : List UInt8 → Prop} {frameInfo : Option BuilderFrameInfo}
    {maximumDlci : UInt8} (h : SendsOnly P frameInfo heap)
    (hrange : ∀ info ∈ frameInfo, InRange maximumDlci info.dlci) :
    (frameInfo.bind fun info => sendFrameOctets maximumDlci info heap).toList.flatMap
      (payloadOn d) = frameData d frameInfo := by
  cases frameInfo with
  | none => rfl
  | some info =>
    have hinfo := hrange info rfl
    have hdlci : info.dlci.toNat < 64 := by
      unfold InRange at hinfo
      omega
    rw [Option.bind_some, sendFrameOctets_of_le info heap hinfo.not_gt, Option.toList_some,
      List.flatMap_singleton, payloadOn_builtFrame (h info rfl).1 hdlci]

theorem frameData_of_type {info : BuilderFrameInfo}
    (h : info.type &&& ~~~controlTypePollFinal ≠ ControlType.uih) :
    frameData d (some info) = [] :=
  if_neg fun hboth => h hboth.1

theorem frameData_of_dlci {info : BuilderFrameInfo} (h : info.dlci ≠ d) :
    frameData d (some info) = [] :=
  if_neg fun hboth => h hboth.2

theorem frameData_dataFrame (cr : Bool) (e : UInt8) (data : Option (List UInt8)) {len : ℕ}
    (h : e = d → len < 65536) : frameData d (some (dataFrame cr e data len)) =
      if e = d then (data.getD []).take len else [] := by
  have huih : ControlType.uih &&& ~~~controlTypePollFinal = ControlType.uih := by decide
  by_cases he : e = d
  · have hlen : (dataFrame cr e data len).length.toNat = len := Nat.mod_eq_of_lt (h he)
    rw [if_pos he, frameData, if_pos ⟨huih, he⟩]
    cases data with
    | none => exact List.take_nil.symm
    | some data => exact congrArg (fun n => data.take n) hlen
  · rw [if_neg he]
    exact frameData_of_dlci he

theorem clientCall_frameData (hd : d ≠ 0) {call : ClientCall} (h : call.KeepsData d) :
    frameData d (call.frameInfo heap) = call.dataOn d heap := by
  cases call with
  | start => exact frameData_of_dlci hd.symm
  | stop => exact frameData_of_dlci hd.symm
  | request e type services => rfl
  | terminalOpen e terminalOptions =>
    exact frameData_of_type
      (by decide : ControlType.sabm &&& ~~~controlTypePollFinal ≠ ControlType.uih)
  | terminalSend e data len => exact frameData_dataFrame true e data h
  | terminalClose e =>
    exact frameData_of_type
      (by decide : ControlType.disc &&& ~~~controlTypePollFinal ≠ ControlType.uih)
  | receive frame => rfl

theorem serverCall_frameData (hd : d ≠ 0) {call : ServerCall} (h : call.KeepsData d)
    (hreceive : ∀ frame, call ≠ ServerCall.receive frame) :
    frameData d (call.frameInfo heap) = call.dataOn d heap := by
  cases call with
  | stop => exact frameData_of_dlci hd.symm
  | request e type services => rfl
  | reply e type services => rfl
  | registerTerminal e terminalOptions => rfl
  | terminalSend e data len => exact frameData_dataFrame false e data h
  | terminalClose e =>
    exact frameData_of_type
      (by decide : ControlType.disc &&& ~~~controlTypePollFinal ≠ ControlType.uih)
  | receive frame => exact absurd rfl (hreceive frame)

end Frames

/-! ### The two directions of a session -/

section Directions
variable {clientOptions : CmuxClientOptions} {serverOptions : CmuxServerOptions} {α : Type}
  {session : Session clientOptions serverOptions} {input : SessionAction × (ℕ → UInt8)}
  {carried : List UInt8 → List α} {sent : ClientCall ⊕ ServerCall → List α}

/-- An event that an observer does not see adds nothing to what he sees. -/
theorem flatMap_eventIf {ε : Type} {handed : ε → List α} {event : ε} (h : handed event = [])
    (condition : Prop) [Decidable condition] : (eventIf condition event).flatMap handed = [] := by
  unfold eventIf
  split
  · rw [List.flatMap_singleton, h]
  · rfl

/-- A call of an application calls nothing back. -/
theorem clientCall_hands_nothing {handed : ClientEvent → List α}
    (hsend : ∀ octets, handed (ClientEvent.sendToInterface octets) = []) {call : ClientCall}
    (hreceive : ∀ frame, call ≠ ClientCall.receive frame) (client : CmuxClient clientOptions)
    (heap : ℕ → UInt8) : (call.run client heap).2.events.flatMap handed = [] := by
  cases hinfo : call.frameInfo heap with
  | some info =>
    rw [(clientCall_sends hinfo client).2]
    cases sendFrameOctets clientOptions.maximumDlci info heap with
    | none => rfl
    | some octets => exact (List.append_nil _).trans (hsend octets)
  | none =>
    cases call with
    | receive frame => exact absurd rfl (hreceive frame)
    | _ => cases hinfo

theorem serverSendFrame_hands_nothing {handed : ServerEvent → List α}
    (hsend : ∀ octets, handed (ServerEvent.sendToInterface octets) = [])
    (server : CmuxServer serverOptions) (info : BuilderFrameInfo) (heap : ℕ → UInt8) :
    (serverSendFrame server info heap).2.events.flatMap handed = [] := by
  unfold serverSendFrame
  cases sendFrameOctets serverOptions.maximumDlci info heap with
  | none => rfl
  | some octets => exact (List.append_nil _).trans (hsend octets)

theorem serverCall_hands_nothing {handed : ServerEvent → List α}
    (hsend : ∀ octets, handed (ServerEvent.sendToInterface octets) = []) {call : ServerCall}
    (hreceive : ∀ frame, call ≠ ServerCall.receive frame) (server : CmuxServer serverOptions)
    (heap : ℕ → UInt8) : (call.run server heap).2.events.flatMap handed = [] := by
  cases call with
  | receive frame => exact absurd rfl (hreceive frame)
  | registerTerminal e terminalOptions =>
    simp only [ServerCall.run, cmuxServerRegisterTerminal]
    split <;> rfl
  | stop | reply | request | terminalSend | terminalClose =>
    exact serverSendFrame_hands_nothing hsend server _ heap

/-- What frames carry to the server keeps its order in a step: what the server is handed comes
before what is under way, and that before what the client sends. -/
theorem session_toServer_conserved {handed : ServerEvent → List α}
    (hreceive : ∀ frame ∈ session.toServer.head?, (serverOnControlMessage session.server
      (processIngressFrame frame input.2).1 input.2).2.events.flatMap handed = carried frame)
    (hclient : ∀ call, input.1 = SessionAction.client call →
      (clientSent (call.1.run session.client input.2).2).flatMap carried = sent (.inl call.1))
    (hserver : ∀ call, input.1 = SessionAction.server call →
      (call.1.run session.server input.2).2.events.flatMap handed = [] ∧
        sent (.inr call.1) = []) :
    ((sessionMachine _ _).step session input).2.server.flatMap handed ++
        ((sessionMachine _ _).step session input).1.toServer.flatMap carried =
      session.toServer.flatMap carried ++ input.1.calls.flatMap sent := by
  obtain ⟨action, heap⟩ := input
  cases action with
  | client call =>
    change [] ++ (session.toServer ++ clientSent (call.1.run session.client heap).2).flatMap _ =
      _ ++ (sent (.inl call.1) ++ [])
    rw [List.nil_append, List.append_nil, List.flatMap_append, hclient call rfl]
  | server call =>
    obtain ⟨hnone, hsent⟩ := hserver call rfl
    change (call.1.run session.server heap).2.events.flatMap _ ++ _ =
      _ ++ (sent (.inr call.1) ++ [])
    rw [hnone, hsent, List.nil_append, List.append_nil, List.append_nil]
    rfl
  | deliverToServer =>
    cases hqueue : session.toServer with
    | nil =>
      simp only [sessionMachine, Session.run, hqueue]
      rfl
    | cons frame toServer =>
      have hframe := hreceive frame (by rw [hqueue]; rfl)
      simp only [sessionMachine, Session.run, hqueue]
      rw [hframe, List.flatMap_cons]
      exact (List.append_nil _).symm
  | deliverToClient =>
    cases hqueue : session.toClient with
    | nil =>
      simp only [sessionMachine, Session.run, hqueue]
      exact (List.append_nil _).symm
    | cons frame toClient =>
      have hsilent : clientSent (clientOnControlMessage session.client
          (processIngressFrame frame heap).1 heap) = [] :=
        clientOnControlMessage_sent _ _ _
      simp only [sessionMachine, Session.run, hqueue, hsilent, List.append_nil]
      exact (List.append_nil _).symm

/-- What frames carry to the client keeps its order when the server's replies carry nothing. -/
theorem session_toClient_conserved {handed : ClientEvent → List α}
    (hreceive : ∀ frame ∈ session.toClient.head?, (clientOnControlMessage session.client
      (processIngressFrame frame input.2).1 input.2).events.flatMap handed = carried frame)
    (hreply : ∀ frame ∈ session.toServer.head?, (serverSent (serverOnControlMessage session.server
      (processIngressFrame frame input.2).1 input.2).2).flatMap carried = [])
    (hserver : ∀ call, input.1 = SessionAction.server call →
      (serverSent (call.1.run session.server input.2).2).flatMap carried = sent (.inr call.1))
    (hclient : ∀ call, input.1 = SessionAction.client call →
      (call.1.run session.client input.2).2.events.flatMap handed = [] ∧
        sent (.inl call.1) = []) :
    ((sessionMachine _ _).step session input).2.client.flatMap handed ++
        ((sessionMachine _ _).step session input).1.toClient.flatMap carried =
      session.toClient.flatMap carried ++ input.1.calls.flatMap sent := by
  obtain ⟨action, heap⟩ := input
  cases action with
  | client call =>
    obtain ⟨hnone, hsent⟩ := hclient call rfl
    change (call.1.run session.client heap).2.events.flatMap _ ++ _ =
      _ ++ (sent (.inl call.1) ++ [])
    rw [hnone, hsent, List.nil_append, List.append_nil, List.append_nil]
    rfl
  | server call =>
    change [] ++ (session.toClient ++ serverSent (call.1.run session.server heap).2).flatMap _ =
      _ ++ (sent (.inr call.1) ++ [])
    rw [List.nil_append, List.append_nil, List.flatMap_append, hserver call rfl]
  | deliverToServer =>
    cases hqueue : session.toServer with
    | nil =>
      simp only [sessionMachine, Session.run, hqueue]
      exact (List.append_nil _).symm
    | cons frame toServer =>
      have hframe := hreply frame (by rw [hqueue]; rfl)
      simp only [sessionMachine, Session.run, hqueue, List.flatMap_append, hframe]
      rfl
  | deliverToClient =>
    cases hqueue : session.toClient with
    | nil =>
      simp only [sessionMachine, Session.run, hqueue]
      rfl
    | cons frame toClient =>
      have hframe := hreceive frame (by rw [hqueue]; rfl)
      simp only [sessionMachine, Session.run, hqueue]
      rw [hframe, List.flatMap_cons]
      exact (List.append_nil _).symm

structure UnderWay (P : List UInt8 → Prop) (session : Session clientOptions serverOptions) :
    Prop where
  toServer : Whole P session.toServer
  toClient : Whole P session.toClient

/-- Proper calls and replies leave whole frames under way. -/
theorem underWay_step {P : List UInt8 → Prop} (hP : HoldsOfReplies P)
    (session : Session clientOptions serverOptions) (input : SessionAction × (ℕ → UInt8))
    (h : UnderWay P session) (hcalls : ∀ call ∈ input.1.calls,
      Proper clientOptions serverOptions P input.2 call) :
    UnderWay P ((sessionMachine _ _).step session input).1 := by
  obtain ⟨action, heap⟩ := input
  cases action with
  | client call =>
    obtain ⟨-, hsends⟩ := hcalls _ (List.mem_singleton_self _)
    exact ⟨h.toServer.append (clientSent_whole hsends _), h.toClient⟩
  | server call =>
    obtain ⟨-, hsends⟩ := hcalls _ (List.mem_singleton_self _)
    exact ⟨h.toServer, h.toClient.append (serverSent_whole hsends _)⟩
  | deliverToServer =>
    cases hqueue : session.toServer with
    | nil =>
      simp only [sessionMachine, Session.run, hqueue]
      exact h
    | cons frame toServer =>
      have hwhole := h.toServer
      rw [hqueue] at hwhole
      have hvalid := (hwhole frame List.mem_cons_self).1
      have hmade := (processIngressFrame_eq hvalid heap).1
      simp only [sessionMachine, Session.run, hqueue, hmade]
      exact ⟨fun f hf => hwhole f (List.mem_cons_of_mem _ hf),
        h.toClient.append (serverReply_whole hP _ hvalid)⟩
  | deliverToClient =>
    cases hqueue : session.toClient with
    | nil =>
      simp only [sessionMachine, Session.run, hqueue]
      exact h
    | cons frame toClient =>
      have hwhole := h.toClient
      rw [hqueue] at hwhole
      have hsilent : clientSent (clientOnControlMessage session.client
          (processIngressFrame frame heap).1 heap) = [] :=
        clientOnControlMessage_sent _ _ _
      simp only [sessionMachine, Session.run, hqueue, hsilent, List.append_nil]
      exact ⟨h.toServer, fun f hf => hwhole f (List.mem_cons_of_mem _ hf)⟩

end Directions

/-! ### One step of a session -/

/-- The data that a step hands to the applications, and the calls of the applications in it. -/
def SessionEvents.toServerData (dlci : UInt8) (events : SessionEvents) : List UInt8 :=
  events.server.flatMap (ServerEvent.dataOn dlci)

def SessionEvents.toClientData (dlci : UInt8) (events : SessionEvents) : List UInt8 :=
  events.client.flatMap (ClientEvent.dataOn dlci)

def fromClientData (dlci : UInt8) (heap : ℕ → UInt8) : ClientCall ⊕ ServerCall → List UInt8
  | .inl call => call.dataOn dlci heap
  | .inr _ => []

def fromServerData (dlci : UInt8) (heap : ℕ → UInt8) : ClientCall ⊕ ServerCall → List UInt8
  | .inl _ => []
  | .inr call => call.dataOn dlci heap

def KeepsData (dlci : UInt8) : ClientCall ⊕ ServerCall → Prop
  | .inl call => call.KeepsData dlci
  | .inr call => call.KeepsData dlci

instance (dlci : UInt8) : DecidablePred (KeepsData dlci)
  | .inl call => inferInstanceAs (Decidable (call.KeepsData dlci))
  | .inr call => inferInstanceAs (Decidable (call.KeepsData dlci))

section Session
variable {clientOptions : CmuxClientOptions} {serverOptions : CmuxServerOptions} {d : UInt8}

def Session.Serves (dlci : UInt8) (session : Session clientOptions serverOptions) : Prop :=
  (session.client.terminalOption dlci).cmuxClientOnTerminalData = true ∧
    (session.server.terminalOption dlci).cmuxServerOnTerminalData = true

instance (dlci : UInt8) (session : Session clientOptions serverOptions) :
    Decidable (session.Serves dlci) := inferInstanceAs (Decidable (_ ∧ _))

theorem clientCall_keepsData {client : CmuxClient clientOptions}
    (hd : TerminalDlci clientOptions.maximumDlci d) {call : ClientCall} (h : call.KeepsData d)
    (hdata : (client.terminalOption d).cmuxClientOnTerminalData = true) (heap : ℕ → UInt8) :
    ((call.run client heap).1.terminalOption d).cmuxClientOnTerminalData = true := by
  by_cases hcall : call.dlci = d
  · have hlt : d.toNat < clientOptions.maximumDlci.toNat := by have := hd.2; omega
    cases call with
    | start => exact absurd hcall.symm (terminalDlci_ne_zero hd)
    | terminalOpen e terminalOptions =>
      obtain rfl : e = d := hcall
      have hopened : (cmuxClientTerminalOpen client e terminalOptions heap).1.terminalOption e =
          terminalOptions.getD CmuxClientTerminalOptions.zero := by
        simp only [cmuxClientTerminalOpen, if_neg (terminalDlci_le hd)]
        exact (lookup_update client.terminalOptions _ _ hlt).trans (if_pos rfl)
      rw [ClientCall.run, hopened]
      exact h rfl
    | stop | request | terminalSend | terminalClose | receive => exact hdata
  · rw [(clientCall_other client hcall heap).terminalOption]
    exact hdata

theorem serverCall_keepsData {server : CmuxServer serverOptions}
    (hd : TerminalDlci serverOptions.maximumDlci d) {call : ServerCall} (h : call.KeepsData d)
    (hdata : (server.terminalOption d).cmuxServerOnTerminalData = true) (heap : ℕ → UInt8) :
    ((call.run server heap).1.terminalOption d).cmuxServerOnTerminalData = true := by
  by_cases hcall : call.dlci = d
  · have hlt : d.toNat < serverOptions.maximumDlci.toNat := by have := hd.2; omega
    cases call with
    | registerTerminal e terminalOptions =>
      obtain rfl : e = d := hcall
      have hregistered : (cmuxServerRegisterTerminal server e terminalOptions).1.terminalOption e =
          terminalOptions.getD CmuxServerTerminalOptions.zero := by
        simp only [cmuxServerRegisterTerminal, if_neg (terminalDlci_le hd)]
        exact (lookup_update server.terminalOptions _ _ hlt).trans (if_pos rfl)
      rw [ServerCall.run, hregistered]
      exact h rfl
    | receive frame =>
      rw [ServerCall.run, CmuxServer.terminalOption, serverOnControlMessage_terminalOptions]
      exact hdata
    | stop | reply | request | terminalSend | terminalClose => exact hdata
  · rw [(serverCall_other server hcall heap).terminalOption]
    exact hdata

/-- Only an UIH frame reaches a data callback, that of its own DLCI. -/
theorem serverData_of_mem {server : CmuxServer serverOptions} {message : ControlMessage}
    {heap : ℕ → UInt8} {e : UInt8} {data : List UInt8}
    (h : ServerEvent.onTerminalData e data ∈
      (serverOnControlMessage server message heap).2.events) :
    message.frameInfo.type = ControlType.uih ∧ message.frameInfo.dlci = e := by
  by_cases hgt : message.frameInfo.dlci > serverOptions.maximumDlci
  · rw [serverOnControlMessage_of_gt server hgt] at h
    cases h
  rw [serverOnControlMessage_events server hgt, List.mem_append, List.mem_append,
    mem_eventIf] at h
  rcases h with (⟨-, h⟩ | h) | h
  · cases h
  · simp only [serverCallbacks] at h
    split_ifs at h with hsabm h0 hdisc hdisc0 huih hclose hclose0 <;>
      first
      | (obtain ⟨-, h⟩ := mem_eventIf.mp h; cases h; exact ⟨huih, rfl⟩)
      | (obtain ⟨-, h⟩ := mem_eventIf.mp h; cases h)
      | cases h
  · cases hreply : replyFrame message.frameInfo (serverRequest message heap) heap with
    | none =>
      rw [hreply] at h
      cases h
    | some info =>
      rw [hreply, Option.elim_some] at h
      unfold serverSendFrame at h
      cases hsent : sendFrameOctets serverOptions.maximumDlci info heap <;> simp [hsent] at h

theorem clientData_of_mem {client : CmuxClient clientOptions} {message : ControlMessage}
    {heap : ℕ → UInt8} {e : UInt8} {data : List UInt8}
    (h : ClientEvent.onTerminalData e data ∈
      (clientOnControlMessage client message heap).events) :
    message.frameInfo.type = ControlType.uih ∧ message.frameInfo.dlci = e := by
  simp only [clientOnControlMessage] at h
  split_ifs at h with hgt h0
  · cases h
  · simp only [clientOnControlChannel, List.mem_append, mem_eventIf] at h
    rcases h with (⟨-, h⟩ | ⟨-, h⟩) | ⟨-, h⟩ <;> cases h
  · simp only [clientOnTerminal] at h
    split_ifs at h with hua hsabm hdisc huih <;>
      first
      | (obtain ⟨-, h⟩ := mem_eventIf.mp h; cases h; exact ⟨huih, rfl⟩)
      | (obtain ⟨-, h⟩ := mem_eventIf.mp h; cases h)
      | cases h

/-- A received frame hands its payload to the data callback of its own DLCI. -/
theorem serverReceive_data (hd : TerminalDlci serverOptions.maximumDlci d)
    {server : CmuxServer serverOptions}
    (hdata : (server.terminalOption d).cmuxServerOnTerminalData = true) {octets : List UInt8}
    (hvalid : frameAt octets = some octets.length) (heap : ℕ → UInt8) :
    (serverOnControlMessage server (messageOf octets) heap).2.events.flatMap
      (ServerEvent.dataOn d) = payloadOn d octets := by
  by_cases hframe : IsFrame ControlType.uih d octets
  · have hover : ServerHandsOver d server ⟨octets, hvalid⟩ heap :=
      serverHandsOver hd.1 hd.2 server hframe heap
    obtain ⟨-, hevents⟩ := hover
    change (ServerCall.run (.receive ⟨octets, hvalid⟩) server heap).2.events.flatMap _ = _
    rw [payloadOn, if_pos hframe, hevents, hdata, List.flatMap_append]
    rw [flatMap_eventIf rfl, List.nil_append, eventIf, if_pos rfl, List.flatMap_singleton]
    exact if_pos rfl
  · rw [payloadOn, if_neg hframe, List.flatMap_eq_nil_iff]
    intro event hevent
    cases event with
    | onTerminalData e data =>
      refine if_neg fun he => hframe ?_
      obtain ⟨htype, hdlci⟩ := serverData_of_mem hevent
      exact (ReceivedFrame.isFrame_iff ⟨octets, hvalid⟩ _ _).mpr ⟨htype, hdlci.trans he⟩
    | _ => rfl

theorem clientReceive_data (hd : TerminalDlci clientOptions.maximumDlci d)
    {client : CmuxClient clientOptions}
    (hdata : (client.terminalOption d).cmuxClientOnTerminalData = true) {octets : List UInt8}
    (hvalid : frameAt octets = some octets.length) (heap : ℕ → UInt8) :
    (clientOnControlMessage client (messageOf octets) heap).events.flatMap
      (ClientEvent.dataOn d) = payloadOn d octets := by
  by_cases hframe : IsFrame ControlType.uih d octets
  · have hover : ClientHandsOver d client ⟨octets, hvalid⟩ heap :=
      clientHandsOver hd.1 hd.2 client hframe heap
    obtain ⟨-, hevents⟩ := hover
    change (ClientCall.run (.receive ⟨octets, hvalid⟩) client heap).2.events.flatMap _ = _
    rw [payloadOn, if_pos hframe, hevents, hdata, eventIf, if_pos rfl, List.flatMap_singleton]
    exact if_pos rfl
  · rw [payloadOn, if_neg hframe, List.flatMap_eq_nil_iff]
    intro event hevent
    cases event with
    | onTerminalData e data =>
      refine if_neg fun he => hframe ?_
      obtain ⟨htype, hdlci⟩ := clientData_of_mem hevent
      exact (ReceivedFrame.isFrame_iff ⟨octets, hvalid⟩ _ _).mpr ⟨htype, hdlci.trans he⟩
    | _ => rfl

/-- What the frames of a proper call carry is what the application hands over. -/
theorem clientSent_payload {P : List UInt8 → Prop} {call : ClientCall} {heap : ℕ → UInt8}
    (hd : d ≠ 0) (hproper : Proper clientOptions serverOptions P heap (.inl call))
    (hkeeps : call.KeepsData d) (client : CmuxClient clientOptions) :
    (clientSent (call.run client heap).2).flatMap (payloadOn d) = call.dataOn d heap := by
  rw [clientSent, clientCall_sent, payload_sendFrameOctets hproper.2,
    clientCall_frameData hd hkeeps]
  intro info hinfo
  rw [clientCall_frameInfo_dlci hinfo]
  exact hproper.1

theorem serverSent_payload {P : List UInt8 → Prop} {call : ServerCall} {heap : ℕ → UInt8}
    (hd : d ≠ 0) (hproper : Proper clientOptions serverOptions P heap (.inr call))
    (hkeeps : call.KeepsData d) (hreceive : ∀ frame, call ≠ ServerCall.receive frame)
    (server : CmuxServer serverOptions) :
    (serverSent (call.run server heap).2).flatMap (payloadOn d) = call.dataOn d heap := by
  rw [serverSent, serverCall_sent, payload_sendFrameOctets hproper.2,
    serverCall_frameData hd hkeeps hreceive]
  intro info hinfo
  rw [serverCall_frameInfo_dlci hinfo]
  exact hproper.1

/-- The server's replies carry no data of a terminal. -/
theorem serverReply_payload (hd : d ≠ 0) {server : CmuxServer serverOptions} {octets : List UInt8}
    (hvalid : frameAt octets = some octets.length) (heap : ℕ → UInt8) :
    (serverSent (serverOnControlMessage server (messageOf octets) heap).2).flatMap
      (payloadOn d) = [] := by
  rw [List.flatMap_eq_nil_iff]
  intro frame hframe
  change frame ∈ serverSent (ServerCall.run (.receive ⟨octets, hvalid⟩) server heap).2 at hframe
  rw [serverSent, serverCall_sent, Option.mem_toList, Option.bind_eq_some_iff] at hframe
  obtain ⟨info, hinfo, hsent⟩ := hframe
  obtain rfl := eq_of_mem_sendFrameOctets hsent
  refine if_neg fun huih => ?_
  have htype := builtFrame_type huih
  obtain ⟨rest, hrest⟩ := builtFrame_header info heap
  obtain ⟨haddress, -⟩ := huih
  rw [hrest] at haddress
  rcases replyFrame_eq_some hinfo with rfl | ⟨-, h0, -⟩
  · exact absurd htype (by decide :
      ControlType.ua &&& ~~~controlTypePollFinal ≠ ControlType.uih)
  · have hdlci := replyFrame_dlci hinfo
    simp only [List.getElem?_cons_succ, List.getElem?_cons_zero, Option.map_some,
      (addressOctet_decoded info).2.2, hdlci, Option.some.injEq] at haddress
    change (messageOf octets).frameInfo.dlci = 0 at h0
    change (messageOf octets).frameInfo.dlci &&& 0x3F = d at haddress
    rw [h0] at haddress
    exact hd (haddress.symm.trans (by decide))

variable {P : List UInt8 → Prop}

def ServesOn (clientOptions : CmuxClientOptions) (serverOptions : CmuxServerOptions)
    (P : List UInt8 → Prop) (dlci : UInt8) (heap : ℕ → UInt8) (call : ClientCall ⊕ ServerCall) :
    Prop :=
  Proper clientOptions serverOptions P heap call ∧ KeepsData dlci call

instance [DecidablePred P] (heap : ℕ → UInt8) :
    DecidablePred (ServesOn clientOptions serverOptions P d heap) := fun _ =>
  inferInstanceAs (Decidable (_ ∧ _))

structure Serving (P : List UInt8 → Prop) (dlci : UInt8)
    (session : Session clientOptions serverOptions) : Prop extends UnderWay P session where
  serves : session.Serves dlci

/-- On its way to the server nothing is lost, doubled or reordered in a step. -/
theorem session_toServer_data (hd : TerminalDlci serverOptions.maximumDlci d)
    {session : Session clientOptions serverOptions} {input : SessionAction × (ℕ → UInt8)}
    (h : Serving P d session)
    (hcalls : ∀ call ∈ input.1.calls, ServesOn clientOptions serverOptions P d input.2 call) :
    ((sessionMachine _ _).step session input).2.toServerData d ++
        ((sessionMachine _ _).step session input).1.toServer.flatMap (payloadOn d) =
      session.toServer.flatMap (payloadOn d) ++
        input.1.calls.flatMap (fromClientData d input.2) := by
  refine session_toServer_conserved (fun frame hframe => ?_) (fun call hcall => ?_)
    fun call _ => ⟨serverCall_hands_nothing (fun _ => rfl) call.2 _ _, rfl⟩
  · obtain ⟨hvalid, -⟩ := h.toServer frame (List.mem_of_mem_head? hframe)
    rw [(processIngressFrame_eq hvalid input.2).1]
    exact serverReceive_data hd h.serves.2 hvalid input.2
  · obtain ⟨hproper, hkeeps⟩ := hcalls (.inl call.1) (by rw [hcall]; exact List.mem_cons_self)
    exact clientSent_payload (terminalDlci_ne_zero hd) hproper hkeeps session.client

/-- On its way to the client neither. -/
theorem session_toClient_data (hd : TerminalDlci clientOptions.maximumDlci d)
    {session : Session clientOptions serverOptions} {input : SessionAction × (ℕ → UInt8)}
    (h : Serving P d session)
    (hcalls : ∀ call ∈ input.1.calls, ServesOn clientOptions serverOptions P d input.2 call) :
    ((sessionMachine _ _).step session input).2.toClientData d ++
        ((sessionMachine _ _).step session input).1.toClient.flatMap (payloadOn d) =
      session.toClient.flatMap (payloadOn d) ++
        input.1.calls.flatMap (fromServerData d input.2) := by
  have hd0 := terminalDlci_ne_zero hd
  refine session_toClient_conserved (fun frame hframe => ?_) (fun frame hframe => ?_)
    (fun call hcall => ?_) fun call _ => ⟨clientCall_hands_nothing (fun _ => rfl) call.2 _ _, rfl⟩
  · obtain ⟨hvalid, -⟩ := h.toClient frame (List.mem_of_mem_head? hframe)
    rw [(processIngressFrame_eq hvalid input.2).1]
    exact clientReceive_data hd h.serves.1 hvalid input.2
  · obtain ⟨hvalid, -⟩ := h.toServer frame (List.mem_of_mem_head? hframe)
    rw [(processIngressFrame_eq hvalid input.2).1]
    exact serverReply_payload hd0 hvalid input.2
  · obtain ⟨hproper, hkeeps⟩ := hcalls (.inr call.1) (by rw [hcall]; exact List.mem_cons_self)
    exact serverSent_payload hd0 hproper hkeeps call.2 session.server

/-- Frames are delivered whole and the data callbacks stay registered. -/
theorem serving_step (hP : HoldsOfReplies P) (hclient : TerminalDlci clientOptions.maximumDlci d)
    (hserver : TerminalDlci serverOptions.maximumDlci d)
    (session : Session clientOptions serverOptions) (input : SessionAction × (ℕ → UInt8))
    (h : Serving P d session)
    (hcalls : ∀ call ∈ input.1.calls, ServesOn clientOptions serverOptions P d input.2 call) :
    Serving P d ((sessionMachine _ _).step session input).1 := by
  refine ⟨underWay_step hP session input h.toUnderWay fun call hcall => (hcalls call hcall).1, ?_⟩
  obtain ⟨action, heap⟩ := input
  cases action with
  | client call =>
    obtain ⟨-, hkeeps⟩ := hcalls _ (List.mem_singleton_self _)
    exact ⟨clientCall_keepsData hclient hkeeps h.serves.1 heap, h.serves.2⟩
  | server call =>
    obtain ⟨-, hkeeps⟩ := hcalls _ (List.mem_singleton_self _)
    exact ⟨h.serves.1, serverCall_keepsData hserver hkeeps h.serves.2 heap⟩
  | deliverToServer =>
    cases hqueue : session.toServer with
    | nil =>
      simp only [sessionMachine, Session.run, hqueue]
      exact h.serves
    | cons frame toServer =>
      simp only [sessionMachine, Session.run, hqueue]
      refine ⟨h.serves.1, ?_⟩
      rw [CmuxServer.terminalOption, serverOnControlMessage_terminalOptions]
      exact h.serves.2
  | deliverToClient =>
    cases hqueue : session.toClient with
    | nil =>
      simp only [sessionMachine, Session.run, hqueue]
      exact h.serves
    | cons frame toClient =>
      simp only [sessionMachine, Session.run, hqueue]
      exact h.serves

/-- The octets that the client's application hands over for the DLCI in the calls of a run, and
those that the server's hands over. -/
def fromClient (dlci : UInt8) (calls : List ((ClientCall ⊕ ServerCall) × (ℕ → UInt8))) :
    List UInt8 :=
  calls.flatMap fun call => fromClientData dlci call.2 call.1

def fromServer (dlci : UInt8) (calls : List ((ClientCall ⊕ ServerCall) × (ℕ → UInt8))) :
    List UInt8 :=
  calls.flatMap fun call => fromServerData dlci call.2 call.1

/-- Over a run of the session, in either direction, what has been handed over and what is under
way make up what the application at the other end handed over. -/
theorem session_data (hP : HoldsOfReplies P) (hclient : TerminalDlci clientOptions.maximumDlci d)
    (hserver : TerminalDlci serverOptions.maximumDlci d)
    {session : Session clientOptions serverOptions} (h : Serving P d session)
    {inputs : List (SessionAction × (ℕ → UInt8))} (hcalls : ∀ call ∈ sessionCalls inputs,
      ServesOn clientOptions serverOptions P d call.2 call.1) :
    ((sessionMachine _ _).outputs session inputs).flatMap (SessionEvents.toServerData d) ++
        ((sessionMachine _ _).final session inputs).toServer.flatMap (payloadOn d) =
      session.toServer.flatMap (payloadOn d) ++ fromClient d (sessionCalls inputs) ∧
    ((sessionMachine _ _).outputs session inputs).flatMap (SessionEvents.toClientData d) ++
        ((sessionMachine _ _).final session inputs).toClient.flatMap (payloadOn d) =
      session.toClient.flatMap (payloadOn d) ++ fromServer d (sessionCalls inputs) := by
  have hinputs : ∀ input ∈ inputs, ∀ call ∈ input.1.calls,
      ServesOn clientOptions serverOptions P d input.2 call := fun input hinput call hcall =>
    hcalls (call, input.2) (List.mem_flatMap.mpr ⟨input, hinput, List.mem_map_of_mem hcall⟩)
  have hserving := (sessionMachine clientOptions serverOptions).throughout_invariant
    (serving_step hP hclient hserver) (fun _ _ hs hc => And.intro hs hc) h hinputs
  have hto := (sessionMachine clientOptions serverOptions).flatMap_conserved_of
    (f := SessionEvents.toServerData d) (q := fun s => s.toServer.flatMap (payloadOn d))
    (fun _ _ hstep => session_toServer_data hserver hstep.1 hstep.2) hserving
  have hfrom := (sessionMachine clientOptions serverOptions).flatMap_conserved_of
    (f := SessionEvents.toClientData d) (q := fun s => s.toClient.flatMap (payloadOn d))
    (fun _ _ hstep => session_toClient_data hclient hstep.1 hstep.2) hserving
  simp only [fromClient, fromServer, sessionCalls, List.flatMap_assoc, List.flatMap_map]
  exact ⟨hto, hfrom⟩

/-! ### Lines of octets -/

/-- No octet inside the frame that a whole frame could still follow is the header octet. -/
def Plain (octets : List UInt8) : Prop :=
  ∀ i < octets.length, 0 < i → i + 6 < octets.length → octets[i]? ≠ some cmuxFrameHeaderFooter

instance : DecidablePred Plain := fun octets =>
  inferInstanceAs (Decidable (∀ i < octets.length, _))

theorem plain_replies : HoldsOfReplies Plain := by
  refine ⟨fun dlci heap i _ _ hlen => ?_, fun heap => ?_⟩
  · -- an UA frame has no room for a second frame
    have hshort : (builtFrame (requestFrame true dlci ControlType.ua none heap) heap).length = 6 :=
      slice_length _ _ _
    omega
  · have hoctets : builtFrame (closeDownFrame true false) heap =
        (closeDownFrame true false).octets :=
      ((sendable_closeDown true false).frame heap).octets_eq
    rw [hoctets]
    decide

/-- On a line of plain frames every ingest is flush. -/
theorem plain_flush {cmux : CmuxBuffer} {line : List UInt8} {frames : List (List UInt8)}
    (hwhole : Whole Plain frames) (hline : cmux.ingressRb.content ++ line = frames.flatten)
    (len : ℕ) (beyond : Surroundings) : FlushCall cmux ⟨line.take len, beyond⟩ := by
  have hstream : (cmux.window.content ++ line.take len) ++ line.drop len = frames.flatten := by
    rw [List.append_assoc, List.take_append_drop]
    exact hline
  refine (flushCall_iff cmux _).mpr (flush_of_plain (p := (· = cmuxFrameHeaderFooter)) (m := 6)
    (fun hsize => ⟨frameAt_ge hsize, _, frameAt_header hsize, rfl⟩)
    (fun f hf => (hwhole f hf).1) (fun f hf i hi hlen a ha heq => ?_) hstream)
  exact (hwhole f (List.mem_of_mem_head? hf)).2 i (by omega) hi hlen (ha.trans (congrArg _ heq))

/-- Proper calls whose frames are plain keep a run clean. -/
theorem plain_clean {stack : Stack clientOptions serverOptions}
    {session : Session clientOptions serverOptions} (h : Carries Plain stack session)
    {inputs : List (StackAction × Surroundings)} (hcalls : ∀ call ∈ stackCalls inputs,
      Proper clientOptions serverOptions Plain call.2 call.1) :
    (stackMachine _ _).Throughout (Clean Plain) stack inputs := by
  have hclean (stack : Stack clientOptions serverOptions) (input : StackAction × Surroundings)
      (hcarries : ∃ session, Carries Plain stack session)
      (hproper : ∀ call ∈ input.1.calls,
        Proper clientOptions serverOptions Plain input.2.wholeFrame call) :
      Clean Plain stack input := by
    obtain ⟨session, hcarries⟩ := hcarries
    obtain ⟨action, beyond⟩ := input
    refine ⟨hproper, ?_⟩
    cases action with
    | client call => trivial
    | server call => trivial
    | ingestServer len => exact plain_flush hcarries.toServerWhole hcarries.toServer len beyond
    | ingestClient len => exact plain_flush hcarries.toClientWhole hcarries.toClient len beyond
  refine (stackMachine _ _).throughout_invariant
    (P := fun stack => ∃ session, Carries Plain stack session)
    (C := fun input => ∀ call ∈ input.1.calls,
      Proper clientOptions serverOptions Plain input.2.wholeFrame call)
    (fun stack input hcarries hproper => ?_) hclean ⟨session, h⟩ fun input hinput call hcall =>
      hcalls (call, input.2.wholeFrame)
        (List.mem_flatMap.mpr ⟨input, hinput, List.mem_map_of_mem hcall⟩)
  obtain ⟨session, hcarries⟩ := hcarries
  obtain ⟨js, hnext, -⟩ := stack_step plain_replies stack session input hcarries
    (hclean stack input ⟨session, hcarries⟩ hproper)
  exact ⟨_, hnext⟩

/-- What an observer of one endpoint sees in the calls out of both. -/
def ofServer {α : Type} (handed : ServerEvent → List α) : ClientEvent ⊕ ServerEvent → List α
  | .inl _ => []
  | .inr event => handed event

def ofClient {α : Type} (handed : ClientEvent → List α) : ClientEvent ⊕ ServerEvent → List α
  | .inl event => handed event
  | .inr _ => []

theorem flatMap_ofServer {α : Type} (handed : ServerEvent → List α)
    (events : List SessionEvents) : (events.flatMap SessionEvents.all).flatMap (ofServer handed) =
      events.flatMap fun events => events.server.flatMap handed := by
  rw [List.flatMap_assoc]
  refine List.flatMap_congr fun events _ => ?_
  simp [SessionEvents.all, List.flatMap_map, ofServer]

theorem flatMap_ofClient {α : Type} (handed : ClientEvent → List α)
    (events : List SessionEvents) : (events.flatMap SessionEvents.all).flatMap (ofClient handed) =
      events.flatMap fun events => events.client.flatMap handed := by
  rw [List.flatMap_assoc]
  refine List.flatMap_congr fun events _ => ?_
  simp [SessionEvents.all, List.flatMap_map, ofClient]

/-- What was handed over is what was sent, up to what is still held. -/
def Delivers {α : Type} (handed sent : List α) (held : List UInt8) : Prop :=
  handed <+: sent ∧ (held = [] → handed = sent)

/-- A queue of frames that are under way as octets holds back what they carry. -/
theorem delivers_of_queue {α : Type} {carried : List UInt8 → List α} {handed sent : List α}
    {held : List UInt8} {frames : List (List UInt8)} (hwhole : Whole P frames)
    (hheld : held = frames.flatten) (h : handed ++ frames.flatMap carried = sent) :
    Delivers handed sent held := by
  refine ⟨⟨_, h⟩, fun hnil => ?_⟩
  rw [hheld, List.flatten_eq_nil_iff] at hnil
  have hframes : frames = [] := List.eq_nil_iff_forall_not_mem.mpr fun frame hframe => by
    have hge := frameAt_ge (hwhole frame hframe).1
    rw [hnil frame hframe] at hge
    exact absurd hge (by decide)
  rw [hframes, List.flatMap_nil, List.append_nil] at h
  exact h

def registering : List (StackAction × Surroundings) :=
  [StackAction.server ⟨.registerTerminal 2 (some ⟨true, true, true⟩), fun _ h => nomatch h⟩,
    StackAction.client ⟨.terminalOpen 2 (some ⟨true, true, true⟩), fun _ h => nomatch h⟩,
    StackAction.ingestServer 6, StackAction.ingestClient 6].map fun action =>
      (action, ⟨fun _ _ => 0, fun _ => 0, fun _ => 0⟩)

/-- Each application sends. The line to the server brings the frame in three parts, and that to
the client brings it whole. -/
def greeting : List (StackAction × Surroundings) :=
  [StackAction.client ⟨.terminalSend 2 (some [0x48, 0x69]) 2, fun _ h => nomatch h⟩,
    StackAction.ingestServer 3, StackAction.ingestServer 1, StackAction.ingestServer 20,
    StackAction.server ⟨.terminalSend 2 (some [0x21]) 1, fun _ h => nomatch h⟩,
    StackAction.ingestClient 200].map fun action =>
      (action, ⟨fun _ _ => 0, fun _ => 0, fun _ => 0⟩)

end Session
end Cmux
