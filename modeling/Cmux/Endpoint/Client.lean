import Cmux.Endpoint.Tables

/-! The client of `cmux_client.c`. Callbacks are emitted as events; a callback pointer is
kept as the flag that it is registered. -/
namespace Cmux

structure CmuxClientOptions where
  cmuxClientOnEvent : Bool
  cmuxClientOnStart : Bool
  cmuxClientOnStop : Bool
  maximumDlci : UInt8
  deriving DecidableEq, Repr

structure CmuxClientTerminalOptions where
  cmuxClientOnTerminalData : Bool
  cmuxClientOnTerminalOpen : Bool
  cmuxClientOnTerminalClose : Bool
  deriving DecidableEq, Repr

def CmuxClientTerminalOptions.zero : CmuxClientTerminalOptions := ⟨false, false, false⟩

structure CmuxClient (options : CmuxClientOptions) where
  terminalOptions : Vector CmuxClientTerminalOptions options.maximumDlci.toNat
  terminalStatuses : Vector BuilderFrameInfo options.maximumDlci.toNat

inductive ClientEvent where
  | sendToInterface (frame : List UInt8)
  | onEvent (frameInfo : FrameInfo) (request : Option (CmuxServicesRequest ℕ))
      (lastFrameInfo : BuilderFrameInfo)
  | onStart
  | onStop
  | onTerminalOpen (dlci : UInt8)
  | onTerminalClose (dlci : UInt8)
  | onTerminalData (dlci : UInt8) (data : List UInt8)
  deriving DecidableEq, Repr

def ClientEvent.sent? : ClientEvent → Option (List UInt8)
  | sendToInterface octets => some octets
  | _ => none

/-- A call into the client. A received frame stands for the callback that the receive
buffer makes. -/
inductive ClientCall where
  | start
  | stop
  | request (dlci : UInt8) (type : ControlType)
      (services : Option (CmuxServicesRequest (ℕ → UInt8)))
  | terminalOpen (dlci : UInt8) (terminalOptions : Option CmuxClientTerminalOptions)
  | terminalSend (dlci : UInt8) (data : Option (List UInt8)) (len : ℕ)
  | terminalClose (dlci : UInt8)
  | receive (frame : ReceivedFrame)

/-- The DLCI that a call is about: its argument, or the address of the received frame. -/
def ClientCall.dlci : ClientCall → UInt8
  | start => 0
  | stop => 0
  | request dlci _ _ => dlci
  | terminalOpen dlci _ => dlci
  | terminalSend dlci _ _ => dlci
  | terminalClose dlci => dlci
  | receive frame => frame.message.frameInfo.dlci

/-- `cmux_client_init`: no instance when the maximum is zero. -/
def cmuxClientInit (options : CmuxClientOptions) : Option (CmuxClient options) :=
  if options.maximumDlci < 1 then none
  else some ⟨Vector.replicate _ CmuxClientTerminalOptions.zero,
    Vector.replicate _ BuilderFrameInfo.zero⟩

section Client
variable {options : CmuxClientOptions}

def CmuxClient.lastFrameInfo (client : CmuxClient options) (dlci : UInt8) : BuilderFrameInfo :=
  lookup client.terminalStatuses BuilderFrameInfo.zero dlci

def CmuxClient.terminalOption (client : CmuxClient options) (dlci : UInt8) :
    CmuxClientTerminalOptions :=
  lookup client.terminalOptions CmuxClientTerminalOptions.zero dlci

def clientOnControlChannel (client : CmuxClient options) (message : ControlMessage)
    (beyond : ℕ → UInt8) : List ClientEvent :=
  let frameInfo := message.frameInfo
  let lastFrameInfo := client.lastFrameInfo 0
  let request := if frameInfo.length > 0 then some (decodedRequest message beyond) else none
  eventIf (options.cmuxClientOnEvent) (ClientEvent.onEvent frameInfo request lastFrameInfo) ++
    eventIf (frameInfo.type = ControlType.ua ∧ lastFrameInfo.type = ControlType.sabm ∧
      options.cmuxClientOnStart) ClientEvent.onStart ++
    eventIf (frameInfo.type = ControlType.uih ∧ (request.getD CmuxServicesRequest.zero).service =
      CmuxService.multiplexerCloseDown ∧ options.cmuxClientOnStop) ClientEvent.onStop

/-- What a message on any other DLCI calls. An UA acknowledges the frame recorded last. -/
def clientOnTerminal (client : CmuxClient options) (message : ControlMessage) :
    List ClientEvent :=
  let frameInfo := message.frameInfo
  let terminalOptions := client.terminalOption frameInfo.dlci
  if frameInfo.type = ControlType.ua then
    if (client.lastFrameInfo frameInfo.dlci).type = ControlType.sabm then
      eventIf terminalOptions.cmuxClientOnTerminalOpen (ClientEvent.onTerminalOpen frameInfo.dlci)
    else if (client.lastFrameInfo frameInfo.dlci).type = ControlType.disc then
      eventIf terminalOptions.cmuxClientOnTerminalClose
        (ClientEvent.onTerminalClose frameInfo.dlci)
    else []
  else if frameInfo.type = ControlType.uih then
    eventIf terminalOptions.cmuxClientOnTerminalData
      (ClientEvent.onTerminalData frameInfo.dlci message.data)
  else []

/-- `cmux_on_control_message`, which leaves the instance as it is. -/
def clientOnControlMessage (client : CmuxClient options) (message : ControlMessage)
    (beyond : ℕ → UInt8) : Effects ClientEvent :=
  let dlci := message.frameInfo.dlci
  if dlci > options.maximumDlci then Effects.none
  else if dlci = 0 then
    ⟨clientOnControlChannel client message beyond, [⟨Table.terminalStatuses, dlci.toNat⟩]⟩
  else
    ⟨clientOnTerminal client message,
      [⟨Table.terminalStatuses, dlci.toNat⟩, ⟨Table.terminalOptions, dlci.toNat⟩]⟩

def clientSendFrame (client : CmuxClient options) (frameInfo : BuilderFrameInfo)
    (heap : ℕ → UInt8) : CmuxClient options × Effects ClientEvent :=
  ({ client with
      terminalStatuses :=
        sendFrameStatuses options.maximumDlci client.terminalStatuses frameInfo },
    ⟨((sendFrameOctets options.maximumDlci frameInfo heap).map
        ClientEvent.sendToInterface).toList, sendFrameAccesses options.maximumDlci frameInfo⟩)

def cmuxClientRequest (client : CmuxClient options) (dlci : UInt8) (type : ControlType)
    (request : Option (CmuxServicesRequest (ℕ → UInt8))) (heap : ℕ → UInt8) :
    CmuxClient options × Effects ClientEvent :=
  clientSendFrame client (requestFrame true dlci type request heap) heap

/-- `update_terminal_options`, a null pointer clearing the element. -/
def clientUpdateTerminalOptions (client : CmuxClient options) (dlci : UInt8)
    (terminalOptions : Option CmuxClientTerminalOptions) : CmuxClient options :=
  { client with
    terminalOptions := update client.terminalOptions dlci
      (terminalOptions.getD CmuxClientTerminalOptions.zero) }

def cmuxClientTerminalOpen (client : CmuxClient options) (dlci : UInt8)
    (terminalOptions : Option CmuxClientTerminalOptions) (heap : ℕ → UInt8) :
    CmuxClient options × Effects ClientEvent :=
  if dlci > options.maximumDlci then (client, Effects.none)
  else
    let client := clientUpdateTerminalOptions client dlci terminalOptions
    let sent := cmuxClientRequest client dlci ControlType.sabm none heap
    (sent.1, ⟨sent.2.events, ⟨Table.terminalOptions, dlci.toNat⟩ :: sent.2.accesses⟩)

def cmuxClientStart (client : CmuxClient options) (heap : ℕ → UInt8) :
    CmuxClient options × Effects ClientEvent :=
  cmuxClientTerminalOpen client 0 none heap

def cmuxClientStop (client : CmuxClient options) (heap : ℕ → UInt8) :
    CmuxClient options × Effects ClientEvent :=
  cmuxClientRequest client 0 ControlType.uih
    (some ⟨CmuxService.multiplexerCloseDown, true, ServiceData.none⟩) heap

def cmuxClientTerminalSend (client : CmuxClient options) (dlci : UInt8)
    (data : Option (List UInt8)) (len : ℕ) (heap : ℕ → UInt8) :
    CmuxClient options × Effects ClientEvent :=
  clientSendFrame client (dataFrame true dlci data len) heap

def cmuxClientTerminalClose (client : CmuxClient options) (dlci : UInt8) (heap : ℕ → UInt8) :
    CmuxClient options × Effects ClientEvent :=
  cmuxClientRequest client dlci ControlType.disc none heap

/-- A call with the memory that stands behind what it allocates or is handed. -/
def ClientCall.run (call : ClientCall) (client : CmuxClient options) (heap : ℕ → UInt8) :
    CmuxClient options × Effects ClientEvent :=
  match call with
  | start => cmuxClientStart client heap
  | stop => cmuxClientStop client heap
  | request dlci type services => cmuxClientRequest client dlci type services heap
  | terminalOpen dlci terminalOptions => cmuxClientTerminalOpen client dlci terminalOptions heap
  | terminalSend dlci data len => cmuxClientTerminalSend client dlci data len heap
  | terminalClose dlci => cmuxClientTerminalClose client dlci heap
  | receive frame => (client, clientOnControlMessage client frame.message heap)

/-- The frame that a call asks `send_frame` to send. -/
def ClientCall.frameInfo (heap : ℕ → UInt8) : ClientCall → Option BuilderFrameInfo
  | start => some (requestFrame true 0 ControlType.sabm none heap)
  | stop => some (requestFrame true 0 ControlType.uih
      (some ⟨CmuxService.multiplexerCloseDown, true, ServiceData.none⟩) heap)
  | request dlci type services => some (requestFrame true dlci type services heap)
  | terminalOpen dlci _ => some (requestFrame true dlci ControlType.sabm none heap)
  | terminalSend dlci data len => some (dataFrame true dlci data len)
  | terminalClose dlci => some (requestFrame true dlci ControlType.disc none heap)
  | receive _ => none

theorem clientCall_frameInfo_dlci {call : ClientCall} {heap : ℕ → UInt8}
    {info : BuilderFrameInfo} (h : call.frameInfo heap = some info) : info.dlci = call.dlci := by
  cases call <;> cases h <;> rfl

/-- A call that sends records its frame and hands it to the interface, and does nothing else
that shows. -/
theorem clientCall_sends {call : ClientCall} {heap : ℕ → UInt8} {info : BuilderFrameInfo}
    (h : call.frameInfo heap = some info) (client : CmuxClient options) :
    (call.run client heap).1.terminalStatuses =
        sendFrameStatuses options.maximumDlci client.terminalStatuses info ∧
      (call.run client heap).2.events =
        ((sendFrameOctets options.maximumDlci info heap).map
          ClientEvent.sendToInterface).toList := by
  have hopen (d : UInt8) (terminalOptions : Option CmuxClientTerminalOptions) :
      (cmuxClientTerminalOpen client d terminalOptions heap).1.terminalStatuses =
          sendFrameStatuses options.maximumDlci client.terminalStatuses
            (requestFrame true d ControlType.sabm none heap) ∧
        (cmuxClientTerminalOpen client d terminalOptions heap).2.events =
          ((sendFrameOctets options.maximumDlci
            (requestFrame true d ControlType.sabm none heap) heap).map
              ClientEvent.sendToInterface).toList := by
    by_cases hd : d > options.maximumDlci
    · simp [cmuxClientTerminalOpen, hd, sendFrameStatuses, sendFrameOctets, requestFrame,
        Effects.none]
    · simp only [cmuxClientTerminalOpen, if_neg hd]
      exact ⟨rfl, rfl⟩
  cases call <;> cases h
  case start => exact hopen 0 none
  case terminalOpen d terminalOptions => exact hopen d terminalOptions
  all_goals exact ⟨rfl, rfl⟩

/-- The client sends nothing on its own. -/
theorem clientOnControlMessage_sent (client : CmuxClient options) (message : ControlMessage)
    (heap : ℕ → UInt8) :
    (clientOnControlMessage client message heap).events.filterMap ClientEvent.sent? = [] := by
  simp only [clientOnControlMessage]
  split_ifs
  · rfl
  · simp only [clientOnControlChannel, List.filterMap_append]
    rw [filterMap_eventIf rfl, filterMap_eventIf rfl, filterMap_eventIf rfl]
    rfl
  · simp only [clientOnTerminal]
    split_ifs <;> first | rfl | exact filterMap_eventIf rfl _

/-- What a call hands to the interface. -/
theorem clientCall_sent (call : ClientCall) (client : CmuxClient options) (heap : ℕ → UInt8) :
    (call.run client heap).2.events.filterMap ClientEvent.sent? = ((call.frameInfo heap).bind
      fun info => sendFrameOctets options.maximumDlci info heap).toList := by
  cases hinfo : call.frameInfo heap with
  | some info =>
    rw [(clientCall_sends hinfo client).2, Option.bind_some]
    cases sendFrameOctets options.maximumDlci info heap <;> rfl
  | none =>
    cases call with
    | receive frame => exact clientOnControlMessage_sent client frame.message heap
    | _ => cases hinfo

def clientMachine (options : CmuxClientOptions) :
    Mealy (CmuxClient options) (ClientCall × (ℕ → UInt8)) (Effects ClientEvent) where
  step client input := input.1.run client input.2

end Client
end Cmux
