import Cmux.Endpoint.Tables

/-! The server of `cmux_server.c`. Callbacks are emitted as events; a callback pointer is
kept as the flag that it is registered. -/
namespace Cmux

structure CmuxServerOptions where
  cmuxServerOnEvent : Bool
  cmuxServerOnStart : Bool
  cmuxServerOnStop : Bool
  maximumDlci : UInt8
  deriving DecidableEq, Repr

structure CmuxServerTerminalOptions where
  cmuxServerOnTerminalData : Bool
  cmuxServerOnTerminalOpen : Bool
  cmuxServerOnTerminalClose : Bool
  deriving DecidableEq, Repr

def CmuxServerTerminalOptions.zero : CmuxServerTerminalOptions := ⟨false, false, false⟩

structure CmuxServer (options : CmuxServerOptions) where
  terminalOptions : Vector CmuxServerTerminalOptions options.maximumDlci.toNat
  terminalStatuses : Vector BuilderFrameInfo options.maximumDlci.toNat

inductive ServerEvent where
  | sendToInterface (frame : List UInt8)
  | onEvent (frameInfo : FrameInfo) (request : Option (CmuxServicesRequest ℕ))
      (lastFrameInfo : BuilderFrameInfo)
  | onStart
  | onStop
  | onTerminalOpen (dlci : UInt8)
  | onTerminalClose (dlci : UInt8)
  | onTerminalData (dlci : UInt8) (data : List UInt8)
  deriving DecidableEq, Repr

def ServerEvent.sent? : ServerEvent → Option (List UInt8)
  | sendToInterface octets => some octets
  | _ => none

/-- A call into the server. A received frame stands for the callback that the receive
buffer makes. -/
inductive ServerCall where
  | stop
  | reply (dlci : UInt8) (type : ControlType)
      (services : Option (CmuxServicesRequest (ℕ → UInt8)))
  | request (dlci : UInt8) (type : ControlType)
      (services : Option (CmuxServicesRequest (ℕ → UInt8)))
  | registerTerminal (dlci : UInt8) (terminalOptions : Option CmuxServerTerminalOptions)
  | terminalSend (dlci : UInt8) (data : Option (List UInt8)) (len : ℕ)
  | terminalClose (dlci : UInt8)
  | receive (frame : ReceivedFrame)

/-- The DLCI that a call is about: its argument, or the address of the received frame. -/
def ServerCall.dlci : ServerCall → UInt8
  | stop => 0
  | reply dlci _ _ => dlci
  | request dlci _ _ => dlci
  | registerTerminal dlci _ => dlci
  | terminalSend dlci _ _ => dlci
  | terminalClose dlci => dlci
  | receive frame => frame.message.frameInfo.dlci

def cmuxServerInit (options : CmuxServerOptions) : Option (CmuxServer options) :=
  if options.maximumDlci < 1 then none
  else some ⟨Vector.replicate _ CmuxServerTerminalOptions.zero,
    Vector.replicate _ BuilderFrameInfo.zero⟩

section Server
variable {options : CmuxServerOptions}

def CmuxServer.lastFrameInfo (server : CmuxServer options) (dlci : UInt8) : BuilderFrameInfo :=
  lookup server.terminalStatuses BuilderFrameInfo.zero dlci

def CmuxServer.terminalOption (server : CmuxServer options) (dlci : UInt8) :
    CmuxServerTerminalOptions :=
  lookup server.terminalOptions CmuxServerTerminalOptions.zero dlci

def serverSendFrame (server : CmuxServer options) (frameInfo : BuilderFrameInfo)
    (heap : ℕ → UInt8) : CmuxServer options × Effects ServerEvent :=
  ({ server with
      terminalStatuses :=
        sendFrameStatuses options.maximumDlci server.terminalStatuses frameInfo },
    ⟨((sendFrameOctets options.maximumDlci frameInfo heap).map
        ServerEvent.sendToInterface).toList, sendFrameAccesses options.maximumDlci frameInfo⟩)

def cmuxServerSend (server : CmuxServer options) (pollFinal : Bool) (dlci : UInt8)
    (type : ControlType) (request : Option (CmuxServicesRequest (ℕ → UInt8)))
    (heap : ℕ → UInt8) : CmuxServer options × Effects ServerEvent :=
  serverSendFrame server (requestFrame pollFinal dlci type request heap) heap

def cmuxServerReply (server : CmuxServer options) (dlci : UInt8) (type : ControlType)
    (request : Option (CmuxServicesRequest (ℕ → UInt8))) (heap : ℕ → UInt8) :
    CmuxServer options × Effects ServerEvent :=
  cmuxServerSend server true dlci type request heap

def cmuxServerRequest (server : CmuxServer options) (dlci : UInt8) (type : ControlType)
    (request : Option (CmuxServicesRequest (ℕ → UInt8))) (heap : ℕ → UInt8) :
    CmuxServer options × Effects ServerEvent :=
  cmuxServerSend server false dlci type request heap

/-- The callbacks of `cmux_server_on_incoming_request` for one frame, before its reply. -/
def serverCallbacks (server : CmuxServer options) (frameInfo : FrameInfo)
    (request : Option (CmuxServicesRequest ℕ)) (payload : List UInt8) : List ServerEvent :=
  let terminalOptions := server.terminalOption frameInfo.dlci
  if frameInfo.type = ControlType.sabm then
    if frameInfo.dlci = 0 then eventIf options.cmuxServerOnStart ServerEvent.onStart
    else eventIf terminalOptions.cmuxServerOnTerminalOpen
      (ServerEvent.onTerminalOpen frameInfo.dlci)
  else if frameInfo.type = ControlType.disc then
    if frameInfo.dlci ≠ 0 then
      eventIf terminalOptions.cmuxServerOnTerminalClose
        (ServerEvent.onTerminalClose frameInfo.dlci)
    else []
  else if frameInfo.type = ControlType.uih then
    if request.any fun request => request.service = CmuxService.multiplexerCloseDown then
      if frameInfo.dlci = 0 then eventIf options.cmuxServerOnStop ServerEvent.onStop else []
    else eventIf terminalOptions.cmuxServerOnTerminalData
      (ServerEvent.onTerminalData frameInfo.dlci payload)
  else []

def serverReply (server : CmuxServer options) (frameInfo : FrameInfo)
    (request : Option (CmuxServicesRequest ℕ)) (heap : ℕ → UInt8) :
    CmuxServer options × Effects ServerEvent :=
  if frameInfo.type = ControlType.sabm then
    cmuxServerReply server frameInfo.dlci ControlType.ua none heap
  else if frameInfo.type = ControlType.disc then
    if frameInfo.dlci ≠ 0 then cmuxServerReply server frameInfo.dlci ControlType.ua none heap
    else (server, Effects.none)
  else if frameInfo.type = ControlType.uih then
    if request.any fun request => request.service = CmuxService.multiplexerCloseDown then
      if frameInfo.dlci = 0 then
        cmuxServerReply server frameInfo.dlci ControlType.uih
          (some ⟨CmuxService.multiplexerCloseDown, false, ServiceData.none⟩) heap
      else (server, Effects.none)
    else (server, Effects.none)
  else (server, Effects.none)

/-- `cmux_server_on_incoming_request`: the event callback, the callback of the frame, and the
reply, in this order. -/
def cmuxServerOnIncomingRequest (server : CmuxServer options) (frameInfo : FrameInfo)
    (request : Option (CmuxServicesRequest ℕ)) (lastFrameInfo : BuilderFrameInfo)
    (payload : List UInt8) (heap : ℕ → UInt8) : CmuxServer options × Effects ServerEvent :=
  let reply := serverReply server frameInfo request heap
  (reply.1,
    ⟨eventIf options.cmuxServerOnEvent (ServerEvent.onEvent frameInfo request lastFrameInfo) ++
        serverCallbacks server frameInfo request payload ++ reply.2.events,
      ⟨Table.terminalOptions, frameInfo.dlci.toNat⟩ :: reply.2.accesses⟩)

/-- `cmux_on_control_message`. Only a message with data on DLCI 0 is decoded. -/
def serverOnControlMessage (server : CmuxServer options) (message : ControlMessage)
    (heap : ℕ → UInt8) : CmuxServer options × Effects ServerEvent :=
  let frameInfo := message.frameInfo
  if frameInfo.dlci > options.maximumDlci then (server, Effects.none)
  else
    let request := if frameInfo.length > 0 ∧ frameInfo.dlci = 0
      then some (decodedRequest message heap) else none
    let handled := cmuxServerOnIncomingRequest server frameInfo request
      (server.lastFrameInfo frameInfo.dlci) message.data heap
    (handled.1, ⟨handled.2.events,
      ⟨Table.terminalStatuses, frameInfo.dlci.toNat⟩ :: handled.2.accesses⟩)

def cmuxServerStop (server : CmuxServer options) (heap : ℕ → UInt8) :
    CmuxServer options × Effects ServerEvent :=
  cmuxServerRequest server 0 ControlType.uih
    (some ⟨CmuxService.multiplexerCloseDown, true, ServiceData.none⟩) heap

/-- `cmux_server_register_terminal`, a null pointer clearing the element. -/
def cmuxServerRegisterTerminal (server : CmuxServer options) (dlci : UInt8)
    (terminalOptions : Option CmuxServerTerminalOptions) :
    CmuxServer options × Effects ServerEvent :=
  if dlci > options.maximumDlci then (server, Effects.none)
  else
    ({ server with
        terminalOptions := update server.terminalOptions dlci
          (terminalOptions.getD CmuxServerTerminalOptions.zero) },
      ⟨[], [⟨Table.terminalOptions, dlci.toNat⟩]⟩)

def cmuxServerTerminalSend (server : CmuxServer options) (dlci : UInt8)
    (data : Option (List UInt8)) (len : ℕ) (heap : ℕ → UInt8) :
    CmuxServer options × Effects ServerEvent :=
  serverSendFrame server (dataFrame false dlci data len) heap

def cmuxServerTerminalClose (server : CmuxServer options) (dlci : UInt8) (heap : ℕ → UInt8) :
    CmuxServer options × Effects ServerEvent :=
  cmuxServerRequest server dlci ControlType.disc none heap

/-- A call with the memory that stands behind what it allocates or is handed. -/
def ServerCall.run (call : ServerCall) (server : CmuxServer options) (heap : ℕ → UInt8) :
    CmuxServer options × Effects ServerEvent :=
  match call with
  | stop => cmuxServerStop server heap
  | reply dlci type services => cmuxServerReply server dlci type services heap
  | request dlci type services => cmuxServerRequest server dlci type services heap
  | registerTerminal dlci terminalOptions =>
    cmuxServerRegisterTerminal server dlci terminalOptions
  | terminalSend dlci data len => cmuxServerTerminalSend server dlci data len heap
  | terminalClose dlci => cmuxServerTerminalClose server dlci heap
  | receive frame => serverOnControlMessage server frame.message heap

/-! ### What it sends -/

def serverRequest (message : ControlMessage) (heap : ℕ → UInt8) :
    Option (CmuxServicesRequest ℕ) :=
  if message.frameInfo.length > 0 ∧ message.frameInfo.dlci = 0
    then some (decodedRequest message heap) else none

def replyFrame (frameInfo : FrameInfo) (request : Option (CmuxServicesRequest ℕ))
    (heap : ℕ → UInt8) : Option BuilderFrameInfo :=
  if frameInfo.type = ControlType.sabm ∨
      frameInfo.type = ControlType.disc ∧ frameInfo.dlci ≠ 0 then
    some (requestFrame true frameInfo.dlci ControlType.ua none heap)
  else if frameInfo.type = ControlType.uih ∧ frameInfo.dlci = 0 ∧
      request.any fun request => request.service = CmuxService.multiplexerCloseDown then
    some (requestFrame true frameInfo.dlci ControlType.uih
      (some ⟨CmuxService.multiplexerCloseDown, false, ServiceData.none⟩) heap)
  else none

def ServerCall.frameInfo (heap : ℕ → UInt8) : ServerCall → Option BuilderFrameInfo
  | stop => some (requestFrame false 0 ControlType.uih
      (some ⟨CmuxService.multiplexerCloseDown, true, ServiceData.none⟩) heap)
  | reply dlci type services => some (requestFrame true dlci type services heap)
  | request dlci type services => some (requestFrame false dlci type services heap)
  | registerTerminal _ _ => none
  | terminalSend dlci data len => some (dataFrame false dlci data len)
  | terminalClose dlci => some (requestFrame false dlci ControlType.disc none heap)
  | receive frame => replyFrame frame.message.frameInfo (serverRequest frame.message heap) heap

theorem replyFrame_dlci {frameInfo : FrameInfo} {request : Option (CmuxServicesRequest ℕ)}
    {heap : ℕ → UInt8} {info : BuilderFrameInfo}
    (h : replyFrame frameInfo request heap = some info) : info.dlci = frameInfo.dlci := by
  unfold replyFrame at h
  split_ifs at h <;> cases h <;> rfl

/-- A reply is an UA, or it answers a close-down. -/
theorem replyFrame_eq_some {frameInfo : FrameInfo} {request : Option (CmuxServicesRequest ℕ)}
    {heap : ℕ → UInt8} {info : BuilderFrameInfo}
    (h : replyFrame frameInfo request heap = some info) :
    info = requestFrame true frameInfo.dlci ControlType.ua none heap ∨
      frameInfo.type = ControlType.uih ∧ frameInfo.dlci = 0 ∧
        request.any fun request => request.service = CmuxService.multiplexerCloseDown := by
  unfold replyFrame at h
  split_ifs at h with hcommand hclose
  · exact Or.inl (Option.some.inj h).symm
  · exact Or.inr hclose

/-- Only what comes on the control channel is decoded. -/
theorem serverRequest_of_ne {message : ControlMessage} (h0 : message.frameInfo.dlci ≠ 0)
    (heap : ℕ → UInt8) : serverRequest message heap = none :=
  if_neg fun h => h0 h.2

/-- On a terminal the reply is an UA to a command, whatever was decoded. -/
theorem replyFrame_terminal {frameInfo : FrameInfo} (h0 : frameInfo.dlci ≠ 0)
    (request : Option (CmuxServicesRequest ℕ)) (heap : ℕ → UInt8) :
    replyFrame frameInfo request heap =
      if frameInfo.type = ControlType.sabm ∨ frameInfo.type = ControlType.disc then
        some (requestFrame true frameInfo.dlci ControlType.ua none heap)
      else none := by
  simp only [replyFrame, ne_eq, h0, not_false_eq_true, and_true, false_and, and_false, if_false]

theorem serverCall_frameInfo_dlci {call : ServerCall} {heap : ℕ → UInt8}
    {info : BuilderFrameInfo} (h : call.frameInfo heap = some info) : info.dlci = call.dlci := by
  cases call with
  | receive frame => exact replyFrame_dlci h
  | _ => cases h <;> rfl

/-- The reply is what `send_frame` does with its frame. -/
theorem serverReply_eq (server : CmuxServer options) (frameInfo : FrameInfo)
    (request : Option (CmuxServicesRequest ℕ)) (heap : ℕ → UInt8) :
    serverReply server frameInfo request heap =
      (replyFrame frameInfo request heap).elim (server, Effects.none)
        fun info => serverSendFrame server info heap := by
  have hdisc : ControlType.disc ≠ ControlType.sabm := by decide
  have huih : ControlType.uih ≠ ControlType.sabm ∧ ControlType.uih ≠ ControlType.disc := by decide
  unfold serverReply replyFrame
  by_cases hsabm : frameInfo.type = ControlType.sabm
  · simp only [hsabm, true_or, if_true]
    rfl
  by_cases hd : frameInfo.type = ControlType.disc
  · by_cases h0 : frameInfo.dlci = 0
    · simp only [hd, hdisc, h0, huih.2.symm, ne_eq, not_true, and_false, or_self, if_false, if_true,
        false_and]
      rfl
    · simp only [hd, hdisc, h0, ne_eq, not_false_eq_true, and_self, or_true, if_false, if_true]
      rfl
  · simp only [hsabm, hd, false_and, or_self, if_false]
    split_ifs <;> first | rfl | simp_all

/-- A frame for a DLCI above the maximum leaves the server as it is. -/
theorem serverSendFrame_of_gt (server : CmuxServer options) {info : BuilderFrameInfo}
    (h : info.dlci > options.maximumDlci) (heap : ℕ → UInt8) :
    serverSendFrame server info heap = (server, Effects.none) := by
  simp only [serverSendFrame, sendFrameStatuses, sendFrameOctets, sendFrameAccesses, if_pos h]
  rfl

/-- A received frame changes the server by its reply alone. -/
theorem serverOnControlMessage_state (server : CmuxServer options) (message : ControlMessage)
    (heap : ℕ → UInt8) : (serverOnControlMessage server message heap).1 =
      (replyFrame message.frameInfo (serverRequest message heap) heap).elim server
        fun info => (serverSendFrame server info heap).1 := by
  simp only [serverOnControlMessage]
  split
  next hgt =>
    cases hinfo : replyFrame message.frameInfo (serverRequest message heap) heap with
    | none => rfl
    | some info =>
      have hdlci := replyFrame_dlci hinfo
      rw [Option.elim_some, serverSendFrame_of_gt server (hdlci ▸ hgt)]
  next =>
    change (serverReply server _ (serverRequest message heap) heap).1 = _
    rw [serverReply_eq]
    cases replyFrame message.frameInfo (serverRequest message heap) heap <;> rfl

/-- A received frame makes the event callback, its own callback and its reply. -/
theorem serverOnControlMessage_events (server : CmuxServer options) {message : ControlMessage}
    (h : ¬ message.frameInfo.dlci > options.maximumDlci) (heap : ℕ → UInt8) :
    (serverOnControlMessage server message heap).2.events =
      eventIf options.cmuxServerOnEvent (ServerEvent.onEvent message.frameInfo
          (serverRequest message heap) (server.lastFrameInfo message.frameInfo.dlci)) ++
        serverCallbacks server message.frameInfo (serverRequest message heap) message.data ++
        (replyFrame message.frameInfo (serverRequest message heap) heap).elim []
          fun info => (serverSendFrame server info heap).2.events := by
  simp only [serverOnControlMessage, if_neg h]
  change _ ++ _ ++ (serverReply server _ (serverRequest message heap) heap).2.events = _
  rw [serverReply_eq]
  cases replyFrame message.frameInfo (serverRequest message heap) heap <;> rfl

theorem serverOnControlMessage_of_gt (server : CmuxServer options) {message : ControlMessage}
    (h : message.frameInfo.dlci > options.maximumDlci) (heap : ℕ → UInt8) :
    serverOnControlMessage server message heap = (server, Effects.none) := by
  simp only [serverOnControlMessage, if_pos h]

theorem serverSendFrame_sent (server : CmuxServer options) (info : BuilderFrameInfo)
    (heap : ℕ → UInt8) : (serverSendFrame server info heap).2.events.filterMap ServerEvent.sent? =
      (sendFrameOctets options.maximumDlci info heap).toList := by
  unfold serverSendFrame
  cases sendFrameOctets options.maximumDlci info heap <;> rfl

theorem serverCallbacks_sent (server : CmuxServer options) (frameInfo : FrameInfo)
    (request : Option (CmuxServicesRequest ℕ)) (payload : List UInt8) :
    (serverCallbacks server frameInfo request payload).filterMap ServerEvent.sent? = [] := by
  simp only [serverCallbacks]
  split_ifs <;> first | rfl | exact filterMap_eventIf rfl _

/-- What a received message makes the server hand to the interface. -/
theorem serverMessage_sent (server : CmuxServer options) (message : ControlMessage)
    (heap : ℕ → UInt8) :
    (serverOnControlMessage server message heap).2.events.filterMap ServerEvent.sent? =
      ((replyFrame message.frameInfo (serverRequest message heap) heap).bind
        fun info => sendFrameOctets options.maximumDlci info heap).toList := by
  by_cases hgt : message.frameInfo.dlci > options.maximumDlci
  · rw [serverOnControlMessage_of_gt server hgt]
    cases hinfo : replyFrame message.frameInfo (serverRequest message heap) heap with
    | none => rfl
    | some info =>
      rw [Option.bind_some, sendFrameOctets, replyFrame_dlci hinfo, if_pos hgt]
      rfl
  · rw [serverOnControlMessage_events server hgt, List.filterMap_append, List.filterMap_append,
      filterMap_eventIf rfl, serverCallbacks_sent, List.nil_append, List.nil_append]
    cases replyFrame message.frameInfo (serverRequest message heap) heap with
    | none => rfl
    | some info => exact serverSendFrame_sent server info heap

/-- What a call hands to the interface. -/
theorem serverCall_sent (call : ServerCall) (server : CmuxServer options) (heap : ℕ → UInt8) :
    (call.run server heap).2.events.filterMap ServerEvent.sent? = ((call.frameInfo heap).bind
      fun info => sendFrameOctets options.maximumDlci info heap).toList := by
  cases call with
  | stop | reply | request | terminalSend | terminalClose =>
    exact serverSendFrame_sent server _ heap
  | registerTerminal dlci terminalOptions =>
    simp only [ServerCall.run, cmuxServerRegisterTerminal]
    split <;> rfl
  | receive frame =>
    simp only [ServerCall.run, ServerCall.frameInfo]
    by_cases hgt : frame.message.frameInfo.dlci > options.maximumDlci
    · rw [serverOnControlMessage_of_gt server hgt]
      cases hinfo : replyFrame frame.message.frameInfo (serverRequest frame.message heap) heap with
      | none => rfl
      | some info =>
        rw [Option.bind_some, sendFrameOctets, replyFrame_dlci hinfo, if_pos hgt]
        rfl
    · rw [serverOnControlMessage_events server hgt, List.filterMap_append, List.filterMap_append,
        filterMap_eventIf rfl, serverCallbacks_sent, List.nil_append, List.nil_append]
      cases replyFrame frame.message.frameInfo (serverRequest frame.message heap) heap with
      | none => rfl
      | some info => exact serverSendFrame_sent server info heap

def serverMachine (options : CmuxServerOptions) :
    Mealy (CmuxServer options) (ServerCall × (ℕ → UInt8)) (Effects ServerEvent) where
  step server input := input.1.run server input.2

end Server
end Cmux
