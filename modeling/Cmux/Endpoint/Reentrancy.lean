import Cmux.Endpoint.Agreement
import Cmux.Endpoint.Process

/-! The endpoints with their callbacks in place, out of which the application makes further calls.
The client does what the same calls do one after another; the server sends its reply to a frame
behind all that is sent in the callbacks for it. -/
namespace Cmux
open Access Callbacks Callbacks.Code

/-! ### The client -/

section Client
variable {options : CmuxClientOptions}

def recordClient (frameInfo : BuilderFrameInfo) (client : CmuxClient options) :
    CmuxClient options :=
  { client with
    terminalStatuses := update client.terminalStatuses frameInfo.dlci frameInfo }

section Code
variable (blocks : InstanceBlocks)

/-- `cmux_on_control_message` of the client, for a frame in the block `wholeFrame`. -/
def clientOnControlMessageCode (beyond : ℕ → UInt8) (wholeFrame : ℕ) (message : ControlMessage) :
    Code (Process (CmuxClient options)) ClientEvent Unit := do
  let frameInfo := message.frameInfo
  use [blocks.cmux]
  if frameInfo.dlci > options.maximumDlci then ret ()
  else do
    use [blocks.cmux, blocks.terminalStatuses]
    let process ← get
    let lastFrameInfo := process.endpoint.lastFrameInfo frameInfo.dlci
    if frameInfo.dlci = 0 then do
      let request := if frameInfo.length > 0 then some (decodedRequest message beyond) else none
      onlyIf (frameInfo.length > 0) (use [wholeFrame])
      use [blocks.cmux]
      enterIf (options.cmuxClientOnEvent) (ClientEvent.onEvent frameInfo request lastFrameInfo)
      onlyIf (frameInfo.type = ControlType.ua ∧ lastFrameInfo.type = ControlType.sabm)
        (use [blocks.cmux])
      enterIf (frameInfo.type = ControlType.ua ∧ lastFrameInfo.type = ControlType.sabm ∧
        options.cmuxClientOnStart) ClientEvent.onStart
      onlyIf (frameInfo.type = ControlType.uih ∧ (request.getD CmuxServicesRequest.zero).service =
        CmuxService.multiplexerCloseDown) (use [blocks.cmux])
      enterIf (frameInfo.type = ControlType.uih ∧ (request.getD CmuxServicesRequest.zero).service =
        CmuxService.multiplexerCloseDown ∧ options.cmuxClientOnStop) ClientEvent.onStop
    else do
      use [blocks.cmux, blocks.terminalOptions]
      let terminalOptions := process.endpoint.terminalOption frameInfo.dlci
      if frameInfo.type = ControlType.ua then
        if lastFrameInfo.type = ControlType.sabm then
          enterIf terminalOptions.cmuxClientOnTerminalOpen
            (ClientEvent.onTerminalOpen frameInfo.dlci)
        else if lastFrameInfo.type = ControlType.disc then
          enterIf terminalOptions.cmuxClientOnTerminalClose
            (ClientEvent.onTerminalClose frameInfo.dlci)
        else ret ()
      else if frameInfo.type = ControlType.uih then
        enterIf terminalOptions.cmuxClientOnTerminalData
          (ClientEvent.onTerminalData frameInfo.dlci message.data)
      else ret ()

def clientRequestCode (dlci : UInt8) (type : ControlType)
    (request : Option (CmuxServicesRequest (ℕ → UInt8))) (heap : ℕ → UInt8) :
    Code (Process (CmuxClient options)) ClientEvent Unit :=
  sendRequest blocks options.maximumDlci recordClient ClientEvent.sendToInterface true dlci type
    request heap

def clientTerminalOpenCode (dlci : UInt8) (terminalOptions : Option CmuxClientTerminalOptions)
    (heap : ℕ → UInt8) : Code (Process (CmuxClient options)) ClientEvent Unit := do
  use [blocks.cmux]
  if dlci > options.maximumDlci then ret ()
  else do
    use [blocks.cmux, blocks.terminalOptions]
    modify fun process => { process with
      endpoint := clientUpdateTerminalOptions process.endpoint dlci terminalOptions }
    clientRequestCode blocks dlci ControlType.sabm none heap

def clientCallCode (call : { call : ClientCall // ∀ frame, call ≠ ClientCall.receive frame })
    (heap : ℕ → UInt8) : Code (Process (CmuxClient options)) ClientEvent Unit :=
  match call with
  | ⟨ClientCall.start, _⟩ => clientTerminalOpenCode blocks 0 none heap
  | ⟨ClientCall.stop, _⟩ => clientRequestCode blocks 0 ControlType.uih
      (some ⟨CmuxService.multiplexerCloseDown, true, ServiceData.none⟩) heap
  | ⟨ClientCall.request dlci type services, _⟩ => clientRequestCode blocks dlci type services heap
  | ⟨ClientCall.terminalOpen dlci terminalOptions, _⟩ =>
    clientTerminalOpenCode blocks dlci terminalOptions heap
  | ⟨ClientCall.terminalSend dlci data len, _⟩ =>
    sendFrame blocks options.maximumDlci recordClient ClientEvent.sendToInterface
      (dataFrame true dlci data len) [] heap
  | ⟨ClientCall.terminalClose dlci, _⟩ =>
    clientRequestCode blocks dlci ControlType.disc none heap
  | ⟨ClientCall.receive frame, h⟩ => absurd rfl (h frame)

end Code

/-- What an application asks of a client, with the memory that is found: by a call behind the arrays
that it fills, and by an ingest behind those that it copies to. -/
inductive ClientUse where
  | call (made : { call : ClientCall // ∀ frame, call ≠ ClientCall.receive frame })
      (heap : ℕ → UInt8)
  | ingest (ingested : IngestCall)

/-- Its code, with the number of octets that an ingest takes. -/
def ClientUse.code (options : CmuxClientOptions) (blocks : InstanceBlocks) :
    ClientUse → Code (Process (CmuxClient options)) ClientEvent (Option ℕ)
  | call made heap => do
    clientCallCode blocks made heap
    ret none
  | ingest ingested => do
    let taken ← cmuxBufferIngestCode blocks
      (clientOnControlMessageCode blocks ingested.beyond.wholeFrame) ingested
    ret (some taken)

/-- The uses of a client one after another: the calls out of it, and the number of octets taken. -/
def clientUses (options : CmuxClientOptions) :
    Mealy (CmuxClientInstance options) ClientUse (List ClientEvent × Option ℕ) where
  step cmuxClient use :=
    match use with
    | .call made heap =>
      let called := made.1.run cmuxClient.client heap
      ({ cmuxClient with client := called.1 }, called.2.events, none)
    | .ingest ingested =>
      let taken := cmuxClientIngest cmuxClient ingested
      (taken.1, taken.2.2.events, some taken.2.1)

structure ClientAt (process : Process (CmuxClient options))
    (cmuxClient : CmuxClientInstance options) : Prop where
  endpoint : process.endpoint = cmuxClient.client
  cmuxInstance : process.cmuxInstance = cmuxClient.cmuxInstance

theorem clientAt_ignoresHeap : IgnoresHeap (@ClientAt options) :=
  fun _ _ _ h => ⟨h.endpoint, h.cmuxInstance⟩

def called (event : ClientEvent) : List ClientEvent := [event]

theorem frozen_eventIf (condition : Prop) [Decidable condition] (event : ClientEvent) :
    (enterIf condition event).Frozen (@ClientAt options) called (eventIf condition event) () := by
  have hshown : (if condition then [event] else []).flatMap called = eventIf condition event :=
    List.flatMap_singleton' _
  rw [← hshown]
  exact frozen_enterIf condition event

variable {blocks : InstanceBlocks}

/-- A callback that is looked up in the instance. -/
theorem frozen_lookedUp {lookup : Code (Process (CmuxClient options)) ClientEvent Unit}
    (h : lookup.Frozen (@ClientAt options) called [] ()) (condition : Prop)
    [Decidable condition] (event : ClientEvent)
    {k : Unit → Code (Process (CmuxClient options)) ClientEvent Unit} {xs : List ClientEvent}
    (hk : (k ()).Frozen (@ClientAt options) called xs ()) :
    (lookup >>= fun _ => enterIf condition event >>= k).Frozen (@ClientAt options) called
      (eventIf condition event ++ xs) () :=
  h.bind ((frozen_eventIf condition event).bind hk)

theorem settles_clientOnControlMessage (message : ControlMessage) (beyond : ℕ → UInt8)
    (wholeFrame : ℕ) {process : Process (CmuxClient options)}
    {cmuxClient : CmuxClientInstance options} (h : ClientAt process cmuxClient) :
    (clientOnControlMessageCode blocks beyond wholeFrame message).Settles ClientAt called process
      cmuxClient (clientOnControlMessage cmuxClient.client message beyond).events () := by
  have hat (left : Heap) : ClientAt { process with heap := left } cmuxClient :=
    ⟨h.endpoint, h.cmuxInstance⟩
  have husedIf (condition : Prop) [Decidable condition] (used : List ℕ) :
      (onlyIf condition (use used)).Frozen (@ClientAt options) called [] () :=
    frozen_onlyIf_use clientAt_ignoresHeap condition used
  unfold clientOnControlMessageCode clientOnControlMessage
  dsimp only
  rw [settles_use]
  split
  · exact ⟨hat _, rfl, rfl⟩
  rw [settles_use, settles_get]
  apply Code.Frozen.settles _ (hat _)
  dsimp only
  rw [h.endpoint]
  split
  next h0 =>
    rw [h0, clientOnControlChannel, List.append_assoc]
    apply (husedIf _ _).bind
    refine frozen_lookedUp (frozen_use clientAt_ignoresHeap _) _ _ ?_
    refine frozen_lookedUp (husedIf _ _) _ _ ?_
    exact (husedIf _ _).bind (frozen_eventIf _ _)
  · apply frozen_use_bind clientAt_ignoresHeap
    unfold clientOnTerminal
    dsimp only
    split_ifs
    · exact frozen_eventIf _ _
    · exact frozen_eventIf _ _
    · exact ⟨rfl, rfl⟩
    · exact frozen_eventIf _ _
    · exact ⟨rfl, rfl⟩

theorem flatMap_called (events : List ClientEvent) : events.flatMap called = events :=
  List.flatMap_singleton' events

section Send
variable {process : Process (CmuxClient options)} {cmuxClient : CmuxClientInstance options}

/-- A client records a frame as `send_frame` does. -/
theorem ClientAt.sent (h : ClientAt process cmuxClient) (frameInfo : BuilderFrameInfo)
    (heap : ℕ → UInt8) (blocks : Heap) :
    ClientAt ⟨if frameInfo.dlci > options.maximumDlci then process.endpoint
        else recordClient frameInfo process.endpoint, process.cmuxInstance, blocks⟩
      { cmuxClient with client := (clientSendFrame cmuxClient.client frameInfo heap).1 } := by
  refine ⟨?_, h.cmuxInstance⟩
  rw [h.endpoint]
  simp only [clientSendFrame, sendFrameStatuses, recordClient]
  split <;> rfl

theorem settles_clientRequest (dlci : UInt8) (type : ControlType)
    (request : Option (CmuxServicesRequest (ℕ → UInt8))) (heap : ℕ → UInt8)
    (h : ClientAt process cmuxClient) :
    (clientRequestCode blocks dlci type request heap).Settles ClientAt called process
      { cmuxClient with client := (cmuxClientRequest cmuxClient.client dlci type request heap).1 }
      (cmuxClientRequest cmuxClient.client dlci type request heap).2.events () := by
  have hsent : (clientRequestCode blocks dlci type request heap).Settles ClientAt called process _
      _ () := settles_sendRequest clientAt_ignoresHeap
      (h.sent (requestFrame true dlci type request heap) heap)
  rw [flatMap_called] at hsent
  exact hsent

theorem settles_clientTerminalOpen (dlci : UInt8)
    (terminalOptions : Option CmuxClientTerminalOptions) (heap : ℕ → UInt8)
    (h : ClientAt process cmuxClient) :
    (clientTerminalOpenCode blocks dlci terminalOptions heap).Settles ClientAt called process
      { cmuxClient with
        client := (cmuxClientTerminalOpen cmuxClient.client dlci terminalOptions heap).1 }
      (cmuxClientTerminalOpen cmuxClient.client dlci terminalOptions heap).2.events () := by
  unfold clientTerminalOpenCode cmuxClientTerminalOpen
  rw [settles_use]
  split
  · exact ⟨⟨h.endpoint, h.cmuxInstance⟩, rfl, rfl⟩
  · have hopened (left : Heap) : ClientAt
        ⟨clientUpdateTerminalOptions process.endpoint dlci terminalOptions, process.cmuxInstance,
          left⟩
        { cmuxClient with
          client := clientUpdateTerminalOptions cmuxClient.client dlci terminalOptions } :=
      ⟨by rw [h.endpoint], h.cmuxInstance⟩
    exact settles_clientRequest dlci ControlType.sabm none heap (hopened _)

/-- What a call does is done when it enters the interface. -/
theorem settles_clientCall
    (made : { call : ClientCall // ∀ frame, call ≠ ClientCall.receive frame })
    (heap : ℕ → UInt8) (h : ClientAt process cmuxClient) :
    (clientCallCode blocks made heap).Settles ClientAt called process
      { cmuxClient with client := (made.1.run cmuxClient.client heap).1 }
      (made.1.run cmuxClient.client heap).2.events () := by
  obtain ⟨call, hcall⟩ := made
  cases call with
  | start => exact settles_clientTerminalOpen 0 none heap h
  | stop => exact settles_clientRequest 0 ControlType.uih _ heap h
  | request dlci type services => exact settles_clientRequest dlci type services heap h
  | terminalOpen dlci terminalOptions =>
    exact settles_clientTerminalOpen dlci terminalOptions heap h
  | terminalSend dlci data len =>
    have hsent : (clientCallCode blocks ⟨ClientCall.terminalSend dlci data len, hcall⟩
        heap).Settles ClientAt called process _ _ () :=
      settles_sendFrame clientAt_ignoresHeap [] heap
        (h.sent (dataFrame true dlci data len) heap)
    rw [flatMap_called] at hsent
    exact hsent
  | terminalClose dlci => exact settles_clientRequest dlci ControlType.disc none heap h
  | receive frame => exact absurd rfl (hcall frame)

theorem cmuxClientIngest_eq (cmuxClient : CmuxClientInstance options) (ingested : IngestCall) :
    cmuxClientIngest cmuxClient ingested =
      (⟨cmuxClient.client,
          (cmuxBufferIngest cmuxClient.cmuxInstance ingested.data ingested.beyond).1⟩,
        (cmuxBufferIngest cmuxClient.cmuxInstance ingested.data ingested.beyond).2.ret,
        (cmuxBufferIngest cmuxClient.cmuxInstance ingested.data ingested.beyond).2.message.elim
          Effects.none fun message =>
            clientOnControlMessage cmuxClient.client message ingested.beyond.wholeFrame) := by
  cases hmessage :
      (cmuxBufferIngest cmuxClient.cmuxInstance ingested.data ingested.beyond).2.message with
  | none => simp only [cmuxClientIngest, hmessage, Option.elim_none]
  | some message => simp only [cmuxClientIngest, hmessage, Option.elim_some]

/-- What a use does is done when it enters its first callback. -/
theorem settles_clientUse (blocks : InstanceBlocks) (use : ClientUse)
    (h : ClientAt process cmuxClient) :
    (use.code options blocks).Settles ClientAt called process
      ((clientUses options).step cmuxClient use).1 ((clientUses options).step cmuxClient use).2.1
      ((clientUses options).step cmuxClient use).2.2 := by
  cases use with
  | call made heap => exact (settles_clientCall made heap h).bind_ret fun _ => none
  | ingest ingested =>
    have hcmux : cmuxBufferIngest process.cmuxInstance ingested.data ingested.beyond =
        cmuxBufferIngest cmuxClient.cmuxInstance ingested.data ingested.beyond := by
      rw [h.cmuxInstance]
    have htaken : (cmuxBufferIngestCode blocks
        (clientOnControlMessageCode blocks ingested.beyond.wholeFrame) ingested).Settles ClientAt
          called process
          (cmuxClientIngest cmuxClient ingested).1
          (cmuxClientIngest cmuxClient ingested).2.2.events
          (cmuxClientIngest cmuxClient ingested).2.1 := by
      rw [cmuxClientIngest_eq]
      apply settles_cmuxBufferIngest clientAt_ignoresHeap _ _ _ hcmux
      · intro hnone
        rw [hnone]
        exact ⟨rfl, fun heap => ⟨h.endpoint, rfl⟩⟩
      · intro message hmessage block heap
        rw [hmessage]
        have hat : ClientAt ⟨process.endpoint,
            (cmuxBufferIngest cmuxClient.cmuxInstance ingested.data ingested.beyond).1, heap⟩
            ⟨cmuxClient.client,
              (cmuxBufferIngest cmuxClient.cmuxInstance ingested.data ingested.beyond).1⟩ :=
          ⟨h.endpoint, rfl⟩
        exact settles_clientOnControlMessage _ _ _ hat
    exact htaken.bind_ret some

end Send

/-- A frame that a use sends is the first thing that it calls. -/
theorem clientUses_tail (cmuxClient : CmuxClientInstance options) (use : ClientUse) :
    ((clientUses options).step cmuxClient use).2.1.tail.filterMap ClientEvent.sent? = [] := by
  cases use with
  | call made heap =>
    obtain ⟨call, hcall⟩ := made
    change (call.run cmuxClient.client heap).2.events.tail.filterMap ClientEvent.sent? = []
    cases hinfo : call.frameInfo heap with
    | some info =>
      rw [(clientCall_sends hinfo cmuxClient.client).2]
      cases sendFrameOctets options.maximumDlci info heap <;> rfl
    | none =>
      cases call with
      | receive frame => exact absurd rfl (hcall frame)
      | _ => cases hinfo
  | ingest ingested =>
    have hsilent : (cmuxClientIngest cmuxClient ingested).2.2.events.filterMap
        ClientEvent.sent? = [] := by
      rw [cmuxClientIngest_eq]
      cases (cmuxBufferIngest cmuxClient.cmuxInstance ingested.data ingested.beyond).2.message with
      | none => rfl
      | some message => exact clientOnControlMessage_sent _ _ _
    rw [List.filterMap_eq_nil_iff] at hsilent ⊢
    exact fun event hevent => hsilent event (List.mem_of_mem_tail hevent)

def Process.clientInstance (process : Process (CmuxClient options)) : CmuxClientInstance options :=
  ⟨process.endpoint, process.cmuxInstance⟩

/-- Whatever an application asks of a client in its callbacks, at any depth, it is told, and the
client is left and sends, as when the same is asked one after another. A call comes with the memory
that it finds, and finds the same in both runs. -/
theorem client_reentrant (blocks : InstanceBlocks) (app : App ClientUse ClientEvent (Option ℕ))
    (process : Process (CmuxClient options)) :
    let ran := app.run (ClientUse.code options blocks) process
    let sequential := (clientUses options).outputs process.clientInstance ran.2.issued
    ran.1.clientInstance = (clientUses options).final process.clientInstance ran.2.issued ∧
      ran.2.calls.map Prod.snd = sequential ∧
      ran.2.entered.filterMap ClientEvent.sent? =
        sequential.flatMap fun told => told.1.filterMap ClientEvent.sent? := by
  intro ran sequential
  have hran := app_sequential (M := clientUses options) (a := Prod.fst) (c := Prod.snd)
    (fun use process cmuxClient h => settles_clientUse blocks use h) app
    (⟨rfl, rfl⟩ : ClientAt process process.clientInstance)
  have houtputs : ran.2.calls.map Prod.snd = sequential := by
    have htold := hran.outputs
    simp only [flatMap_called] at htold
    rw [List.map_id'] at htold
    exact htold
  refine ⟨?_, houtputs, ?_⟩
  · have hfinal := hran.final
    exact congrArg₂ CmuxClientInstance.mk hfinal.endpoint hfinal.cmuxInstance
  · have hfirst : ∀ told ∈ sequential, told.1.tail.filterMap ClientEvent.sent? = [] :=
      ((clientUses options).outputs_forall_input_iff (C := fun _ => True)
        (fun cmuxClient use => iff_true_intro (clientUses_tail cmuxClient use)) _ _).mpr
          fun _ _ => trivial
    have hordered := app_ordered (fun event : ClientEvent => event.sent?.toList)
      (ClientUse.code options blocks) app process
    simp only [Log.Ordered, ← List.filterMap_eq_flatMap_toList] at hordered
    rw [hordered, ← houtputs, List.flatMap_map]
    intro made hmade
    apply hfirst
    rw [← houtputs]
    exact List.mem_map_of_mem hmade

end Client

/-! ### The server -/

section Server
variable {options : CmuxServerOptions}

def recordServer (frameInfo : BuilderFrameInfo) (server : CmuxServer options) :
    CmuxServer options :=
  { server with
    terminalStatuses := update server.terminalStatuses frameInfo.dlci frameInfo }

section Code
variable (blocks : InstanceBlocks)

def serverSendCode (pollFinal : Bool) (dlci : UInt8) (type : ControlType)
    (request : Option (CmuxServicesRequest (ℕ → UInt8))) (heap : ℕ → UInt8) :
    Code (Process (CmuxServer options)) ServerEvent Unit :=
  sendRequest blocks options.maximumDlci recordServer ServerEvent.sendToInterface pollFinal dlci
    type request heap

/-- `cmux_server_on_incoming_request`. The options of the terminal are read behind the event
callback, and the reply goes out behind all callbacks. -/
def serverOnIncomingRequestCode (frameInfo : FrameInfo)
    (request : Option (CmuxServicesRequest ℕ)) (lastFrameInfo : BuilderFrameInfo)
    (payload : List UInt8) (heap : ℕ → UInt8) :
    Code (Process (CmuxServer options)) ServerEvent Unit := do
  use [blocks.cmux]
  enterIf options.cmuxServerOnEvent (ServerEvent.onEvent frameInfo request lastFrameInfo)
  use [blocks.cmux, blocks.terminalOptions]
  let process ← get
  let terminalOptions := process.endpoint.terminalOption frameInfo.dlci
  if frameInfo.type = ControlType.sabm then do
    if frameInfo.dlci = 0 then do
      use [blocks.cmux]
      enterIf options.cmuxServerOnStart ServerEvent.onStart
    else
      enterIf terminalOptions.cmuxServerOnTerminalOpen (ServerEvent.onTerminalOpen frameInfo.dlci)
    serverSendCode blocks true frameInfo.dlci ControlType.ua none heap
  else if frameInfo.type = ControlType.disc then
    if frameInfo.dlci ≠ 0 then do
      enterIf terminalOptions.cmuxServerOnTerminalClose
        (ServerEvent.onTerminalClose frameInfo.dlci)
      serverSendCode blocks true frameInfo.dlci ControlType.ua none heap
    else ret ()
  else if frameInfo.type = ControlType.uih then
    if request.any fun request => request.service = CmuxService.multiplexerCloseDown then
      if frameInfo.dlci = 0 then do
        use [blocks.cmux]
        enterIf options.cmuxServerOnStop ServerEvent.onStop
        serverSendCode blocks true frameInfo.dlci ControlType.uih
          (some ⟨CmuxService.multiplexerCloseDown, false, ServiceData.none⟩) heap
      else ret ()
    else
      enterIf terminalOptions.cmuxServerOnTerminalData
        (ServerEvent.onTerminalData frameInfo.dlci payload)
  else ret ()

/-- `cmux_on_control_message` of the server, for a frame in the block `wholeFrame`. -/
def serverOnControlMessageCode (beyond : ℕ → UInt8) (wholeFrame : ℕ) (message : ControlMessage) :
    Code (Process (CmuxServer options)) ServerEvent Unit := do
  let frameInfo := message.frameInfo
  use [blocks.cmux]
  if frameInfo.dlci > options.maximumDlci then ret ()
  else do
    use [blocks.cmux, blocks.terminalStatuses]
    let process ← get
    onlyIf (frameInfo.length > 0 ∧ frameInfo.dlci = 0) (use [wholeFrame])
    serverOnIncomingRequestCode blocks frameInfo (serverRequest message beyond)
      (process.endpoint.lastFrameInfo frameInfo.dlci) message.data beyond

def serverRegisterTerminalCode (dlci : UInt8)
    (terminalOptions : Option CmuxServerTerminalOptions) :
    Code (Process (CmuxServer options)) ServerEvent Unit := do
  use [blocks.cmux]
  if dlci > options.maximumDlci then ret ()
  else do
    use [blocks.cmux, blocks.terminalOptions]
    modify fun process => { process with
      endpoint := { process.endpoint with
        terminalOptions := update process.endpoint.terminalOptions dlci
          (terminalOptions.getD CmuxServerTerminalOptions.zero) } }

def serverCallCode (call : { call : ServerCall // ∀ frame, call ≠ ServerCall.receive frame })
    (heap : ℕ → UInt8) : Code (Process (CmuxServer options)) ServerEvent Unit :=
  match call with
  | ⟨ServerCall.stop, _⟩ => serverSendCode blocks false 0 ControlType.uih
      (some ⟨CmuxService.multiplexerCloseDown, true, ServiceData.none⟩) heap
  | ⟨ServerCall.reply dlci type services, _⟩ => serverSendCode blocks true dlci type services heap
  | ⟨ServerCall.request dlci type services, _⟩ =>
    serverSendCode blocks false dlci type services heap
  | ⟨ServerCall.registerTerminal dlci terminalOptions, _⟩ =>
    serverRegisterTerminalCode blocks dlci terminalOptions
  | ⟨ServerCall.terminalSend dlci data len, _⟩ =>
    sendFrame blocks options.maximumDlci recordServer ServerEvent.sendToInterface
      (dataFrame false dlci data len) [] heap
  | ⟨ServerCall.terminalClose dlci, _⟩ =>
    serverSendCode blocks false dlci ControlType.disc none heap
  | ⟨ServerCall.receive frame, h⟩ => absurd rfl (h frame)

end Code

inductive ServerUse where
  | call (made : { call : ServerCall // ∀ frame, call ≠ ServerCall.receive frame })
      (heap : ℕ → UInt8)
  | ingest (ingested : IngestCall)

def ServerUse.code (options : CmuxServerOptions) (blocks : InstanceBlocks) :
    ServerUse → Code (Process (CmuxServer options)) ServerEvent (Option ℕ)
  | call made heap => do
    serverCallCode blocks made heap
    ret none
  | ingest ingested => do
    let taken ← cmuxBufferIngestCode blocks
      (serverOnControlMessageCode blocks ingested.beyond.wholeFrame) ingested
    ret (some taken)

def serverUses (options : CmuxServerOptions) :
    Mealy (CmuxServerInstance options) ServerUse (List ServerEvent × Option ℕ) where
  step cmuxServer use :=
    match use with
    | .call made heap =>
      let called := made.1.run cmuxServer.server heap
      ({ cmuxServer with server := called.1 }, called.2.events, none)
    | .ingest ingested =>
      let taken := cmuxServerIngest cmuxServer ingested
      (taken.1, taken.2.2.events, some taken.2.1)

/-- The terminals and the receive buffer are those of the instance; what is recorded may differ. -/
structure ServerAt (process : Process (CmuxServer options))
    (cmuxServer : CmuxServerInstance options) : Prop where
  terminalOptions : process.endpoint.terminalOptions = cmuxServer.server.terminalOptions
  cmuxInstance : process.cmuxInstance = cmuxServer.cmuxInstance

theorem serverAt_ignoresHeap : IgnoresHeap (@ServerAt options) :=
  fun _ _ _ h => ⟨h.terminalOptions, h.cmuxInstance⟩

def frames (event : ServerEvent) : List (List UInt8) := event.sent?.toList

theorem flatMap_frames (events : List ServerEvent) :
    events.flatMap frames = events.filterMap ServerEvent.sent? :=
  (List.filterMap_eq_flatMap_toList _ _).symm

theorem frozen_quiet (condition : Prop) [Decidable condition] {event : ServerEvent}
    (h : event.sent? = none) :
    (enterIf condition event).Frozen (@ServerAt options) frames [] () := by
  have hquiet : (if condition then [event] else []).flatMap frames = [] := by
    rw [flatMap_frames]
    exact filterMap_eventIf h condition
  rw [← hquiet]
  exact frozen_enterIf condition event

theorem serverAt_record (process : Process (CmuxServer options))
    (cmuxServer : CmuxServerInstance options) (frameInfo : BuilderFrameInfo)
    (h : ServerAt process cmuxServer) :
    ServerAt { process with endpoint := recordServer frameInfo process.endpoint } cmuxServer :=
  ⟨h.terminalOptions, h.cmuxInstance⟩

theorem frames_sendFrame (octets : Option (List UInt8)) :
    (octets.map ServerEvent.sendToInterface).toList.flatMap frames = octets.toList := by
  cases octets <;> rfl

variable {blocks : InstanceBlocks}

theorem frozen_serverSend (pollFinal : Bool) (dlci : UInt8) (type : ControlType)
    (request : Option (CmuxServicesRequest (ℕ → UInt8))) (heap : ℕ → UInt8) :
    (serverSendCode blocks pollFinal dlci type request heap).Frozen (@ServerAt options) frames
      (sendFrameOctets options.maximumDlci (requestFrame pollFinal dlci type request heap)
        heap).toList () := by
  have hsent : (serverSendCode blocks pollFinal dlci type request heap).Frozen (@ServerAt options)
      frames _ () :=
    frozen_sendRequest serverAt_ignoresHeap serverAt_record pollFinal dlci type request heap
  rwa [frames_sendFrame] at hsent

theorem frozen_serverSendFrame (frameInfo : BuilderFrameInfo) (heap : ℕ → UInt8) :
    (sendFrame blocks options.maximumDlci recordServer ServerEvent.sendToInterface frameInfo []
      heap).Frozen (@ServerAt options) frames
        (sendFrameOctets options.maximumDlci frameInfo heap).toList () := by
  have hsent : (sendFrame blocks options.maximumDlci recordServer ServerEvent.sendToInterface
      frameInfo [] heap).Frozen (@ServerAt options) frames _ () :=
    frozen_sendFrame serverAt_ignoresHeap serverAt_record frameInfo [] heap
  rwa [frames_sendFrame] at hsent

/-- The callbacks show nothing, and the reply is the last thing that the code does. -/
theorem frozen_serverOnIncomingRequest (frameInfo : FrameInfo)
    (request : Option (CmuxServicesRequest ℕ)) (lastFrameInfo : BuilderFrameInfo)
    (payload : List UInt8) (heap : ℕ → UInt8) :
    (serverOnIncomingRequestCode blocks frameInfo request lastFrameInfo payload heap).Frozen
      (@ServerAt options) frames ((replyFrame frameInfo request heap).bind fun info =>
        sendFrameOctets options.maximumDlci info heap).toList () := by
  have huih : ControlType.disc ≠ ControlType.uih := by decide
  have hua : replyFrame frameInfo request heap =
      some (requestFrame true frameInfo.dlci ControlType.ua none heap) →
    (serverSendCode blocks true frameInfo.dlci ControlType.ua none heap).Frozen
      (@ServerAt options) frames ((replyFrame frameInfo request heap).bind fun info =>
        sendFrameOctets options.maximumDlci info heap).toList () := by
    intro hreply
    rw [hreply]
    exact frozen_serverSend _ _ _ _ _
  have hquiet (event : ServerEvent) (h : event.sent? = none) (condition : Prop)
      [Decidable condition] : (use [blocks.cmux] >>= fun _ => enterIf condition event).Frozen
        (@ServerAt options) frames [] () :=
    frozen_use_bind serverAt_ignoresHeap (frozen_quiet condition h)
  apply frozen_use_bind serverAt_ignoresHeap
  apply (frozen_quiet _ rfl).bind
  apply frozen_use_bind serverAt_ignoresHeap
  apply frozen_get
  intro process
  dsimp only
  split
  next hsabm =>
    have hreply := hua (if_pos (Or.inl hsabm))
    split
    · exact (hquiet _ rfl _).bind hreply
    · exact (frozen_quiet _ rfl).bind hreply
  next hsabm =>
    split
    next hdisc =>
      split
      next h0 => exact (frozen_quiet _ rfl).bind (hua (if_pos (Or.inr ⟨hdisc, h0⟩)))
      next h0 =>
        have hreply : replyFrame frameInfo request heap = none := by
          rw [replyFrame, if_neg (not_or.mpr ⟨hsabm, fun h => h0 h.2⟩), hdisc,
            if_neg fun h => huih h.1]
        rw [hreply]
        exact ⟨rfl, rfl⟩
    next hdisc =>
      have hreply : replyFrame frameInfo request heap =
          if frameInfo.type = ControlType.uih ∧ frameInfo.dlci = 0 ∧
              request.any fun request => request.service = CmuxService.multiplexerCloseDown then
            some (requestFrame true frameInfo.dlci ControlType.uih
              (some ⟨CmuxService.multiplexerCloseDown, false, ServiceData.none⟩) heap)
          else none := if_neg (not_or.mpr ⟨hsabm, fun h => hdisc h.1⟩)
      rw [hreply]
      split
      next hdata =>
        split
        next hclose =>
          split
          next h0 =>
            rw [if_pos ⟨hdata, h0, hclose⟩]
            exact (hquiet _ rfl _).bind (frozen_serverSend _ _ _ _ _)
          next h0 =>
            rw [if_neg fun h => h0 h.2.1]
            exact ⟨rfl, rfl⟩
        next hclose =>
          rw [if_neg fun h => hclose h.2.2]
          exact frozen_quiet _ rfl
      next hdata =>
        rw [if_neg fun h => hdata h.1]
        exact ⟨rfl, rfl⟩

section Send
variable {process : Process (CmuxServer options)} {cmuxServer : CmuxServerInstance options}

theorem settles_serverOnControlMessage (blocks : InstanceBlocks) (message : ControlMessage)
    (beyond : ℕ → UInt8) (wholeFrame : ℕ) (h : ServerAt process cmuxServer) :
    (serverOnControlMessageCode blocks beyond wholeFrame message).Settles ServerAt frames process
      cmuxServer ((serverOnControlMessage cmuxServer.server message beyond).2.events.filterMap
        ServerEvent.sent?) () := by
  unfold serverOnControlMessageCode
  apply Code.Frozen.settles _ h
  dsimp only
  apply frozen_use_bind serverAt_ignoresHeap
  split
  next hgt =>
    rw [serverOnControlMessage_of_gt cmuxServer.server hgt]
    exact ⟨rfl, rfl⟩
  next hle =>
    rw [serverMessage_sent]
    apply frozen_use_bind serverAt_ignoresHeap
    apply frozen_get
    intro process
    exact (frozen_onlyIf_use serverAt_ignoresHeap _ _).bind
      (frozen_serverOnIncomingRequest _ _ _ _ _)

/-- The terminals change in a call that enters no callback. -/
theorem settles_serverCall
    (made : { call : ServerCall // ∀ frame, call ≠ ServerCall.receive frame })
    (heap : ℕ → UInt8) (h : ServerAt process cmuxServer) :
    (serverCallCode blocks made heap).Settles ServerAt frames process
      { cmuxServer with server := (made.1.run cmuxServer.server heap).1 }
      ((made.1.run cmuxServer.server heap).2.events.filterMap ServerEvent.sent?) () := by
  obtain ⟨call, hcall⟩ := made
  have hsent := serverCall_sent call cmuxServer.server heap
  rw [hsent]
  have hat (frameInfo : BuilderFrameInfo) : ServerAt process
      { cmuxServer with server := (serverSendFrame cmuxServer.server frameInfo heap).1 } :=
    ⟨h.terminalOptions, h.cmuxInstance⟩
  cases call with
  | stop => exact (frozen_serverSend _ _ _ _ _).settles (hat _)
  | reply dlci type services => exact (frozen_serverSend _ _ _ _ _).settles (hat _)
  | request dlci type services => exact (frozen_serverSend _ _ _ _ _).settles (hat _)
  | registerTerminal dlci terminalOptions =>
    change (serverRegisterTerminalCode blocks dlci terminalOptions).Settles ServerAt frames process
      { cmuxServer with
        server := (cmuxServerRegisterTerminal cmuxServer.server dlci terminalOptions).1 } [] ()
    unfold serverRegisterTerminalCode cmuxServerRegisterTerminal
    rw [settles_use]
    split
    · exact ⟨⟨h.terminalOptions, h.cmuxInstance⟩, rfl, rfl⟩
    · have hterminals := congrArg (fun options => update options dlci
        (terminalOptions.getD CmuxServerTerminalOptions.zero)) h.terminalOptions
      exact ⟨⟨hterminals, h.cmuxInstance⟩, rfl, rfl⟩
  | terminalSend dlci data len =>
    exact (frozen_serverSendFrame _ _).settles (hat _)
  | terminalClose dlci => exact (frozen_serverSend _ _ _ _ _).settles (hat _)
  | receive frame => exact absurd rfl (hcall frame)

/-- An ingest as it shows: the ring, the octets taken and the answer to the message taken out. -/
theorem cmuxServerIngest_shows (cmuxServer : CmuxServerInstance options)
    (ingested : IngestCall) :
    (cmuxServerIngest cmuxServer ingested).1.cmuxInstance =
        (cmuxBufferIngest cmuxServer.cmuxInstance ingested.data ingested.beyond).1 ∧
      (cmuxServerIngest cmuxServer ingested).1.server.terminalOptions =
        cmuxServer.server.terminalOptions ∧
      (cmuxServerIngest cmuxServer ingested).2.1 =
        (cmuxBufferIngest cmuxServer.cmuxInstance ingested.data ingested.beyond).2.ret ∧
      (cmuxServerIngest cmuxServer ingested).2.2.events.filterMap ServerEvent.sent? =
        (cmuxBufferIngest cmuxServer.cmuxInstance ingested.data ingested.beyond).2.message.elim
          [] fun message => (serverOnControlMessage cmuxServer.server message
            ingested.beyond.wholeFrame).2.events.filterMap ServerEvent.sent? := by
  cases hmessage :
      (cmuxBufferIngest cmuxServer.cmuxInstance ingested.data ingested.beyond).2.message with
  | none =>
    simp only [cmuxServerIngest, hmessage, true_and]
    rfl
  | some message =>
    simp only [cmuxServerIngest, hmessage, serverOnControlMessage_terminalOptions, true_and]
    rfl

/-- Behind the first callback of a use, nothing of the receive buffer and the terminals changes. -/
theorem settles_serverUse (blocks : InstanceBlocks) (use : ServerUse)
    (h : ServerAt process cmuxServer) :
    (use.code options blocks).Settles ServerAt frames process
      ((serverUses options).step cmuxServer use).1
      (((serverUses options).step cmuxServer use).2.1.filterMap ServerEvent.sent?)
      ((serverUses options).step cmuxServer use).2.2 := by
  cases use with
  | call made heap => exact (settles_serverCall made heap h).bind_ret fun _ => none
  | ingest ingested =>
    have hcmux : cmuxBufferIngest process.cmuxInstance ingested.data ingested.beyond =
        cmuxBufferIngest cmuxServer.cmuxInstance ingested.data ingested.beyond := by
      rw [h.cmuxInstance]
    obtain ⟨hcmuxInstance, hterminals, hret, hsent⟩ := cmuxServerIngest_shows cmuxServer ingested
    have hat (heap : Heap) : ServerAt ⟨process.endpoint,
        (cmuxBufferIngest cmuxServer.cmuxInstance ingested.data ingested.beyond).1, heap⟩
        (cmuxServerIngest cmuxServer ingested).1 :=
      ⟨h.terminalOptions.trans hterminals.symm, hcmuxInstance.symm⟩
    have htaken : (cmuxBufferIngestCode blocks
        (serverOnControlMessageCode blocks ingested.beyond.wholeFrame) ingested).Settles ServerAt
          frames process
          (cmuxServerIngest cmuxServer ingested).1
          ((cmuxServerIngest cmuxServer ingested).2.2.events.filterMap ServerEvent.sent?)
          (cmuxServerIngest cmuxServer ingested).2.1 := by
      rw [hret, hsent]
      apply settles_cmuxBufferIngest serverAt_ignoresHeap _ _ _ hcmux
      · intro hnone
        rw [hnone]
        exact ⟨rfl, hat⟩
      · intro message hmessage block heap
        rw [hmessage, Option.elim_some, serverMessage_sent]
        have hframe := settles_serverOnControlMessage blocks message
          ingested.beyond.wholeFrame block (hat heap)
        rw [serverMessage_sent] at hframe
        exact hframe
    exact htaken.bind_ret some

end Send

def Process.serverInstance (process : Process (CmuxServer options)) : CmuxServerInstance options :=
  ⟨process.endpoint, process.cmuxInstance⟩

/-- Whatever an application asks of a server in its callbacks, at any depth, the receive buffer,
the terminals and the frames of each call are those of the same calls one after another, and each
of these frames goes out once. A call finds the same memory in both runs. -/
theorem server_reentrant (blocks : InstanceBlocks) (app : App ServerUse ServerEvent (Option ℕ))
    (process : Process (CmuxServer options)) :
    let ran := app.run (ServerUse.code options blocks) process
    let final := (serverUses options).final process.serverInstance ran.2.issued
    let sequential := (serverUses options).outputs process.serverInstance ran.2.issued
    ran.1.cmuxInstance = final.cmuxInstance ∧
      ran.1.endpoint.terminalOptions = final.server.terminalOptions ∧
      ran.2.calls.map (fun made => (made.2.1.filterMap ServerEvent.sent?, made.2.2)) =
        sequential.map (fun told => (told.1.filterMap ServerEvent.sent?, told.2)) ∧
      (ran.2.entered.filterMap ServerEvent.sent?).Perm
        (sequential.flatMap fun told => told.1.filterMap ServerEvent.sent?) := by
  intro ran final sequential
  have hran := app_sequential (M := serverUses options) (g := frames)
    (a := fun told => told.1.filterMap ServerEvent.sent?) (c := Prod.snd)
    (fun use process cmuxServer h => settles_serverUse blocks use h) app
    (⟨rfl, rfl⟩ : ServerAt process process.serverInstance)
  have houtputs : ran.2.calls.map (fun made => (made.2.1.filterMap ServerEvent.sent?, made.2.2)) =
      sequential.map (fun told => (told.1.filterMap ServerEvent.sent?, told.2)) := by
    have hshown := hran.outputs
    simp only [flatMap_frames] at hshown
    exact hshown
  refine ⟨hran.final.cmuxInstance, hran.final.terminalOptions, houtputs, ?_⟩
  have hframes : (ran.2.calls.flatMap fun made => made.2.1.filterMap ServerEvent.sent?) =
      sequential.flatMap fun told => told.1.filterMap ServerEvent.sent? := by
    have hfirst := congrArg (List.flatMap Prod.fst) houtputs
    rwa [List.flatMap_map, List.flatMap_map] at hfirst
  rw [← hframes, ← List.filterMap_flatMap]
  exact (app_accounts (ServerUse.code options blocks) app process).filterMap _

end Server
end Cmux
