import Cmux.Endpoint.Memory
import Cmux.Endpoint.Server
import Cmux.Foundation.Purge

/-! How the channels of a server disturb each other, by the same rule as those of a client. -/
namespace Cmux

/-- The DLCI that a call out of the server is about, starting and stopping counting as 0. -/
def ServerEvent.dlci? : ServerEvent → Option UInt8
  | sendToInterface octets => addressDlci octets
  | onEvent frameInfo _ _ => some frameInfo.dlci
  | onStart => some 0
  | onStop => some 0
  | onTerminalOpen dlci => some dlci
  | onTerminalClose dlci => some dlci
  | onTerminalData dlci _ => some dlci

section Server
variable {options : CmuxServerOptions}

structure CmuxServer.SameOn (dlci : UInt8) (server server' : CmuxServer options) : Prop where
  lastFrameInfo : server.lastFrameInfo dlci = server'.lastFrameInfo dlci
  terminalOption : server.terminalOption dlci = server'.terminalOption dlci

theorem CmuxServer.SameOn.rfl {d : UInt8} (server : CmuxServer options) :
    server.SameOn d server := ⟨Eq.refl _, Eq.refl _⟩

theorem CmuxServer.SameOn.trans {d : UInt8} {server server' server'' : CmuxServer options}
    (h : server.SameOn d server') (h' : server'.SameOn d server'') : server.SameOn d server'' :=
  ⟨h.lastFrameInfo.trans h'.lastFrameInfo, h.terminalOption.trans h'.terminalOption⟩

theorem serverSendFrame_sameOn {d : UInt8} {server server' : CmuxServer options}
    (h : server.SameOn d server') (info : BuilderFrameInfo) (heap : ℕ → UInt8) :
    (serverSendFrame server info heap).1.SameOn d (serverSendFrame server' info heap).1 :=
  ⟨lookup_sendFrameStatuses_congr h.lastFrameInfo _ _, h.terminalOption⟩

/-- The service that the server acts on lies inside the frame. -/
theorem serverRequest_service_congr (frame : ReceivedFrame) (heap heap' : ℕ → UInt8) :
    (serverRequest frame.message heap).map CmuxServicesRequest.service =
      (serverRequest frame.message heap').map CmuxServicesRequest.service := by
  unfold serverRequest
  split_ifs with h
  · exact congrArg some (frame.decodedRequest_service_congr h.1 heap heap')
  · rfl

section Service
variable {request request' : Option (CmuxServicesRequest ℕ)}
  (h : request.map CmuxServicesRequest.service = request'.map CmuxServicesRequest.service)
include h

theorem closesDown_congr :
    (request.any fun request => request.service = CmuxService.multiplexerCloseDown) =
      request'.any fun request => request.service = CmuxService.multiplexerCloseDown := by
  have hany := congrArg
    (Option.any fun service : CmuxService => service = CmuxService.multiplexerCloseDown) h
  simpa [Option.any_map] using hany

/-- The reply depends on the service of the request alone. -/
theorem replyFrame_congr (frameInfo : FrameInfo) (heap heap' : ℕ → UInt8) :
    replyFrame frameInfo request heap = replyFrame frameInfo request' heap' := by
  simp only [replyFrame, closesDown_congr h, requestFrame_congr _ _ _ _ heap heap']

end Service

theorem serverRequest_congr {frame : ReceivedFrame} (h : ¬ frame.DecodesBeyond)
    (heap heap' : ℕ → UInt8) :
    serverRequest frame.message heap = serverRequest frame.message heap' := by
  unfold serverRequest
  split_ifs with hdecoded
  · have hinside := Nat.le_of_not_lt fun hlt => h ⟨hdecoded.2, hdecoded.1, hlt⟩
    rw [frame.decodedRequest_congr hdecoded.1 hinside heap heap']
  · rfl

/-- The frame that a call asks for does not depend on memory. -/
theorem serverCall_frameInfo_congr (call : ServerCall) (heap heap' : ℕ → UInt8) :
    call.frameInfo heap = call.frameInfo heap' := by
  cases call with
  | stop => exact congrArg some (requestFrame_congr _ _ _ _ heap heap')
  | reply d type services => exact congrArg some (requestFrame_congr _ _ _ _ heap heap')
  | request d type services => exact congrArg some (requestFrame_congr _ _ _ _ heap heap')
  | registerTerminal | terminalSend | terminalClose => rfl
  | receive frame =>
    exact replyFrame_congr (serverRequest_service_congr frame heap heap') _ heap heap'

/-- A call of the application that sends does what `send_frame` does with its frame. -/
theorem serverCall_sends {call : ServerCall} (hcall : ∀ frame, call ≠ ServerCall.receive frame)
    {heap : ℕ → UInt8} {info : BuilderFrameInfo} (h : call.frameInfo heap = some info)
    (server : CmuxServer options) : call.run server heap = serverSendFrame server info heap := by
  cases call with
  | receive frame => exact absurd rfl (hcall frame)
  | stop | reply | request | registerTerminal | terminalSend | terminalClose => cases h <;> rfl

/-- What a call leaves in the server does not depend on memory. -/
theorem serverCall_state (call : ServerCall) (server : CmuxServer options)
    (heap heap' : ℕ → UInt8) : (call.run server heap).1 = (call.run server heap').1 := by
  cases call with
  | stop | request | reply =>
    simp only [ServerCall.run, cmuxServerStop, cmuxServerRequest, cmuxServerReply, cmuxServerSend,
      serverSendFrame, requestFrame_congr _ _ _ _ heap heap']
  | registerTerminal | terminalSend | terminalClose => rfl
  | receive frame =>
    simp only [ServerCall.run, serverOnControlMessage_state,
      replyFrame_congr (serverRequest_service_congr frame heap heap') _ heap heap']
    rfl

/-- The same call keeps two servers alike on a DLCI. -/
theorem serverCall_sameOn {d : UInt8} {server server' : CmuxServer options}
    (h : server.SameOn d server') (call : ServerCall) (heap heap' : ℕ → UInt8) :
    (call.run server heap).1.SameOn d (call.run server' heap').1 := by
  rw [serverCall_state call server' heap' heap]
  cases call with
  | registerTerminal e terminalOptions =>
    simp only [ServerCall.run, cmuxServerRegisterTerminal]
    split
    · exact h
    · exact ⟨h.lastFrameInfo, lookup_update_congr h.terminalOption _ _⟩
  | receive frame =>
    rw [ServerCall.run, ServerCall.run, serverOnControlMessage_state, serverOnControlMessage_state]
    cases replyFrame frame.message.frameInfo (serverRequest frame.message heap) heap with
    | none => exact h
    | some info => exact serverSendFrame_sameOn h info heap
  | stop | reply | request | terminalSend | terminalClose => exact serverSendFrame_sameOn h _ heap

/-- A call on another DLCI leaves what is held for this one. -/
theorem serverCall_other {d : UInt8} (server : CmuxServer options) {call : ServerCall}
    (h : call.dlci ≠ d) (heap : ℕ → UInt8) : (call.run server heap).1.SameOn d server := by
  have hsend (info : BuilderFrameInfo) (hinfo : info.dlci ≠ d) :
      (serverSendFrame server info heap).1.SameOn d server :=
    ⟨lookup_sendFrameStatuses_of_ne _ hinfo, rfl⟩
  cases call with
  | registerTerminal e terminalOptions =>
    simp only [ServerCall.run, cmuxServerRegisterTerminal]
    split
    · exact ⟨rfl, rfl⟩
    · exact ⟨rfl, lookup_update_of_ne _ _ _ h⟩
  | receive frame =>
    rw [ServerCall.run, serverOnControlMessage_state]
    cases hreply : replyFrame frame.message.frameInfo (serverRequest frame.message heap) heap with
    | none => exact ⟨rfl, rfl⟩
    | some info => exact hsend info (replyFrame_dlci hreply ▸ h)
  | stop | reply | request | terminalSend | terminalClose => exact hsend _ h

/-- What a message makes the server call depends on what is held for its own DLCI. -/
theorem serverOnControlMessage_congr {server server' : CmuxServer options}
    {message : ControlMessage} (h : server.SameOn message.frameInfo.dlci server')
    (heap : ℕ → UInt8) : (serverOnControlMessage server message heap).2.events =
      (serverOnControlMessage server' message heap).2.events := by
  by_cases hgt : message.frameInfo.dlci > options.maximumDlci
  · rw [serverOnControlMessage_of_gt server hgt, serverOnControlMessage_of_gt server' hgt]
  · rw [serverOnControlMessage_events server hgt, serverOnControlMessage_events server' hgt]
    simp only [serverCallbacks, h.lastFrameInfo, h.terminalOption]
    rfl

theorem serverCall_events_congr {server server' : CmuxServer options} {call : ServerCall}
    (h : server.SameOn call.dlci server') (heap : ℕ → UInt8) :
    (call.run server heap).2.events = (call.run server' heap).2.events := by
  cases call with
  | registerTerminal e terminalOptions =>
    simp only [ServerCall.run, cmuxServerRegisterTerminal]
    split <;> rfl
  | receive frame => exact serverOnControlMessage_congr h heap
  | stop | reply | request | terminalSend | terminalClose => rfl

theorem serverSendFrame_dlci (server : CmuxServer options) {info : BuilderFrameInfo}
    (hrange : InRange options.maximumDlci info.dlci) (heap : ℕ → UInt8) :
    ∀ event ∈ (serverSendFrame server info heap).2.events, event.dlci? = some info.dlci := by
  intro event hevent
  obtain ⟨octets, hoctets, rfl⟩ := Option.map_eq_some_iff.mp (Option.mem_toList.mp hevent)
  exact sendFrameOctets_dlci hoctets hrange

theorem serverCallbacks_dlci (server : CmuxServer options) (frameInfo : FrameInfo)
    (request : Option (CmuxServicesRequest ℕ)) (payload : List UInt8) :
    ∀ event ∈ serverCallbacks server frameInfo request payload,
      event.dlci? = some frameInfo.dlci := by
  intro event hevent
  simp only [serverCallbacks] at hevent
  split_ifs at hevent with _ h0 <;> first
    | (obtain ⟨-, rfl⟩ := mem_eventIf.mp hevent; first | rfl | simp_all [ServerEvent.dlci?])
    | cases hevent

/-- A call only makes calls about its own DLCI. -/
theorem serverCall_events_dlci (server : CmuxServer options) {call : ServerCall}
    (hrange : InRange options.maximumDlci call.dlci) (heap : ℕ → UInt8) :
    ∀ event ∈ (call.run server heap).2.events, event.dlci? = some call.dlci := by
  cases call with
  | registerTerminal e terminalOptions =>
    simp only [ServerCall.run, cmuxServerRegisterTerminal]
    split <;>
    · intro event hevent
      cases hevent
  | receive frame =>
    have hgt : ¬ frame.message.frameInfo.dlci > options.maximumDlci := hrange.not_gt
    intro event hevent
    rw [ServerCall.run, serverOnControlMessage_events server hgt, List.mem_append, List.mem_append,
      mem_eventIf] at hevent
    rcases hevent with (⟨-, rfl⟩ | hevent) | hevent
    · rfl
    · exact serverCallbacks_dlci server _ _ _ event hevent
    · cases hreply : replyFrame frame.message.frameInfo (serverRequest frame.message heap) heap with
      | none =>
        rw [hreply] at hevent
        cases hevent
      | some info =>
        have hdlci : info.dlci = frame.message.frameInfo.dlci := replyFrame_dlci hreply
        rw [hreply] at hevent
        exact (serverSendFrame_dlci server (hdlci ▸ hrange) heap event hevent).trans
          (congrArg some hdlci)
  | stop | reply | request | terminalSend | terminalClose =>
    exact serverSendFrame_dlci server hrange heap

/-- The calls in which memory shows: an UI frame with an information field, a frame with less
data than its length says, and a request to be told that runs over the end of its frame. -/
def ServerCall.ShowsMemory (options : CmuxServerOptions) : ServerCall → Prop
  | reply _ type services => RequestShowsMemory type services
  | request _ type services => RequestShowsMemory type services
  | terminalSend _ data len => DataShowsMemory data len
  | receive frame => options.cmuxServerOnEvent ∧ frame.DecodesBeyond
  | _ => False

instance : DecidablePred (ServerCall.ShowsMemory options)
  | .stop | .registerTerminal .. | .terminalClose _ => inferInstanceAs (Decidable False)
  | .reply _ type services => inferInstanceAs (Decidable (RequestShowsMemory type services))
  | .request _ type services => inferInstanceAs (Decidable (RequestShowsMemory type services))
  | .terminalSend _ data len => inferInstanceAs (Decidable (DataShowsMemory data len))
  | .receive frame => inferInstanceAs (Decidable (_ ∧ frame.DecodesBeyond))

theorem serverCall_showsMemory_iff {call : ServerCall}
    (hcall : ∀ frame, call ≠ ServerCall.receive frame) {heap : ℕ → UInt8} {info : BuilderFrameInfo}
    (h : call.frameInfo heap = some info) : call.ShowsMemory options ↔ info.ShowsMemory := by
  have hui : ControlType.disc ≠ ControlType.ui ∧ ControlType.uih ≠ ControlType.ui := by decide
  cases call with
  | receive frame => exact absurd rfl (hcall frame)
  | registerTerminal => cases h
  | reply d type services =>
    cases h
    exact (requestFrame_showsMemory_iff true d type services heap).symm
  | request d type services =>
    cases h
    exact (requestFrame_showsMemory_iff false d type services heap).symm
  | terminalSend d data len =>
    cases h
    exact (dataFrame_showsMemory_iff false d data len).symm
  | stop | terminalClose =>
    cases h
    rw [requestFrame_showsMemory_iff, RequestShowsMemory]
    simp [ServerCall.ShowsMemory, hui]

/-- No memory shows in a reply. -/
theorem replyFrame_hides {frameInfo : FrameInfo} {request : Option (CmuxServicesRequest ℕ)}
    {heap : ℕ → UInt8} {info : BuilderFrameInfo}
    (h : replyFrame frameInfo request heap = some info) : ¬ info.ShowsMemory := by
  have hui : ControlType.ua ≠ ControlType.ui ∧ ControlType.uih ≠ ControlType.ui := by decide
  unfold replyFrame at h
  split_ifs at h <;> cases h
  · rw [requestFrame_showsMemory_iff]
    exact fun h => hui.1 h.1
  · rw [requestFrame_showsMemory_iff]
    exact fun h => hui.2 h.1

/-- A message of which no one is told the request, or whose decoder stays inside, shows the same
over any memory. -/
theorem serverMessage_hides (server : CmuxServer options) {frame : ReceivedFrame}
    (h : ¬ (options.cmuxServerOnEvent ∧ frame.DecodesBeyond)) (heap heap' : ℕ → UInt8) :
    (serverOnControlMessage server frame.message heap).2.events =
      (serverOnControlMessage server frame.message heap').2.events := by
  by_cases hgt : frame.message.frameInfo.dlci > options.maximumDlci
  · rw [serverOnControlMessage_of_gt server hgt, serverOnControlMessage_of_gt server hgt]
  · have hservice := serverRequest_service_congr frame heap heap'
    have htold : eventIf options.cmuxServerOnEvent (ServerEvent.onEvent frame.message.frameInfo
          (serverRequest frame.message heap) (server.lastFrameInfo frame.message.frameInfo.dlci)) =
        eventIf options.cmuxServerOnEvent (ServerEvent.onEvent frame.message.frameInfo
          (serverRequest frame.message heap')
          (server.lastFrameInfo frame.message.frameInfo.dlci)) := by
      by_cases hevent : options.cmuxServerOnEvent
      · rw [serverRequest_congr (fun hbeyond => h ⟨hevent, hbeyond⟩) heap heap']
      · rw [eventIf, eventIf, if_neg hevent, if_neg hevent]
    rw [serverOnControlMessage_events server hgt, serverOnControlMessage_events server hgt, htold,
      replyFrame_congr hservice _ heap heap']
    simp only [serverCallbacks, closesDown_congr hservice]
    cases hreply : replyFrame frame.message.frameInfo (serverRequest frame.message heap') heap' with
    | none => rfl
    | some info =>
      simp only [Option.elim_some, serverSendFrame, sendFrameOctets,
        builtFrame_congr (replyFrame_hides hreply) heap heap']

/-- The other calls show the same over any memory. -/
theorem serverCall_hides (server : CmuxServer options) {call : ServerCall}
    (h : ¬ call.ShowsMemory options) (heap heap' : ℕ → UInt8) :
    (call.run server heap).2.events = (call.run server heap').2.events := by
  have hsend (hcall : ∀ frame, call ≠ ServerCall.receive frame) {info : BuilderFrameInfo}
      (hinfo : call.frameInfo heap = some info) :
      (call.run server heap).2.events = (call.run server heap').2.events := by
    have hinfo' := (serverCall_frameInfo_congr call heap' heap).trans hinfo
    rw [serverCall_showsMemory_iff hcall hinfo] at h
    rw [serverCall_sends hcall hinfo server, serverCall_sends hcall hinfo' server]
    simp only [serverSendFrame, sendFrameOctets, builtFrame_congr h heap heap']
  cases call with
  | receive frame => exact serverMessage_hides server h heap heap'
  | registerTerminal => rfl
  | stop | reply | request | terminalSend | terminalClose => exact hsend (by simp) rfl

/-- The calls in which memory shows begin differently over some two memories. -/
theorem serverCall_shows {call : ServerCall} (hrange : InRange options.maximumDlci call.dlci)
    (h : call.ShowsMemory options) : ∃ heap heap', ∀ (server : CmuxServer options) xs ys,
      (call.run server heap).2.events ++ xs ≠ (call.run server heap').2.events ++ ys := by
  have hsend (hcall : ∀ frame, call ≠ ServerCall.receive frame) {info : BuilderFrameInfo}
      (hinfo : (call.frameInfo fun _ => 0) = some info) :
      ∃ heap heap', ∀ (server : CmuxServer options) xs ys,
        (call.run server heap).2.events ++ xs ≠ (call.run server heap').2.events ++ ys := by
    have hgt : ¬ info.dlci > options.maximumDlci := by
      rw [serverCall_frameInfo_dlci hinfo]
      exact hrange.not_gt
    obtain ⟨heap, heap', hne⟩ :=
      exists_builtFrame_ne ((serverCall_showsMemory_iff hcall hinfo).mp h)
    refine ⟨heap, heap', fun server xs ys heq => hne ?_⟩
    rw [serverCall_sends hcall ((serverCall_frameInfo_congr call heap _).trans hinfo) server,
      serverCall_sends hcall ((serverCall_frameInfo_congr call heap' _).trans hinfo) server] at heq
    simp only [serverSendFrame, sendFrameOctets_of_le info _ hgt] at heq
    exact ServerEvent.sendToInterface.inj (List.cons.inj heq).1
  cases call with
  | receive frame =>
    obtain ⟨hevent, hbeyond⟩ := h
    have h0 : frame.message.frameInfo.dlci = 0 := hbeyond.1
    have hpos : frame.message.frameInfo.length > 0 := hbeyond.2.1
    refine ⟨fun _ => 0, fun _ => 0xFF, fun server xs ys heq => frame.decodedRequest_ne hbeyond ?_⟩
    have hgt : ¬ frame.message.frameInfo.dlci > options.maximumDlci := hrange.not_gt
    simp only [ServerCall.run, serverOnControlMessage_events server hgt, serverRequest,
      if_pos (And.intro hpos h0), eventIf, if_pos hevent] at heq
    have hhead := congrArg List.head? heq
    simpa using hhead
  | registerTerminal => exact h.elim
  | stop | reply | request | terminalSend | terminalClose => exact hsend (by simp) rfl

theorem server_keepsApart (options : CmuxServerOptions) : (serverMachine options).KeepsApart
    ServerCall.dlci ServerEvent.dlci? Effects.events
    (fun call => InRange options.maximumDlci call.dlci) (ServerCall.ShowsMemory options)
    CmuxServer.SameOn where
  refl _ := CmuxServer.SameOn.rfl
  trans := CmuxServer.SameOn.trans
  alike h := serverCall_sameOn h
  leave server _ heap hd := serverCall_other server hd heap
  determined _ heap h := serverCall_events_congr h heap
  tagged server _ heap hrange := serverCall_events_dlci server hrange heap
  hides server _ heap heap' h := serverCall_hides server h heap heap'
  shows _ hrange h := serverCall_shows hrange h

/-- On the DLCI a run shows and records what the run without the steps on all others does,
whatever is found in memory and left there. -/
def ServerIsolated (d : UInt8) (server : CmuxServer options) (calls : List ServerCall) : Prop :=
  ∀ (memory : Memory (CmuxServer options) ServerCall (ℕ → UInt8)) (m : memory.State),
    let machine := (serverMachine options).withMemory memory
    let alone := calls.filter fun call => call.dlci = d
    Mealy.shownOn ServerEvent.dlci? Effects.events d (machine.outputs (server, m) calls) =
        Mealy.shownOn ServerEvent.dlci? Effects.events d (machine.outputs (server, m) alone) ∧
      (machine.final (server, m) calls).1.lastFrameInfo d =
        (machine.final (server, m) alone).1.lastFrameInfo d

def ServerUndisturbed (options : CmuxServerOptions) (d : UInt8) (calls : List ServerCall) : Prop :=
  ∀ call ∈ calls.dropWhile fun call => call.dlci = d,
    call.dlci = d → ¬ call.ShowsMemory options

instance (options : CmuxServerOptions) (d : UInt8) (calls : List ServerCall) :
    Decidable (ServerUndisturbed options d calls) :=
  inferInstanceAs (Decidable (∀ call ∈ calls.dropWhile _, _ → ¬ _))

theorem serverIsolated_iff (d : UInt8) (server : CmuxServer options) {calls : List ServerCall}
    (h : ∀ call ∈ calls, InRange options.maximumDlci call.dlci) :
    ServerIsolated d server calls ↔ ServerUndisturbed options d calls := by
  have hpurged := (server_keepsApart options).shownOn_purged_iff d server h
  constructor
  · exact fun hisolated => hpurged.mp fun memory m => (hisolated memory m).1
  · exact fun hundisturbed memory m => ⟨hpurged.mpr hundisturbed memory m,
      ((server_keepsApart options).final_purged memory memory (CmuxServer.SameOn.rfl server)
        m m calls).lastFrameInfo⟩

/-- A received frame makes the server hand its information field to the data callback of the
DLCI, after the event callback, and do nothing else. -/
def ServerHandsOver (d : UInt8) (server : CmuxServer options) (frame : ReceivedFrame)
    (heap : ℕ → UInt8) : Prop :=
  (ServerCall.run (.receive frame) server heap).1 = server ∧
    (ServerCall.run (.receive frame) server heap).2.events =
      eventIf options.cmuxServerOnEvent
          (ServerEvent.onEvent frame.message.frameInfo none (server.lastFrameInfo d)) ++
        eventIf (server.terminalOption d).cmuxServerOnTerminalData
          (ServerEvent.onTerminalData d (information frame.octets))

theorem serverHandsOver {d : UInt8} (hd : 1 ≤ d) (hrange : InRange options.maximumDlci d)
    (server : CmuxServer options) {frame : ReceivedFrame}
    (hframe : IsFrame ControlType.uih d frame.octets) (heap : ℕ → UInt8) :
    ServerHandsOver d server frame heap := by
  obtain ⟨htype, rfl⟩ := (frame.isFrame_iff _ _).mp hframe
  have h0 : frame.message.frameInfo.dlci ≠ 0 := dlci_ne_zero hd
  have hrequest : serverRequest frame.message heap = none := serverRequest_of_ne h0 heap
  have hreply : replyFrame frame.message.frameInfo none heap = none := by
    have hcommand : ¬ (ControlType.uih = ControlType.sabm ∨
        ControlType.uih = ControlType.disc) := by
      decide
    rw [replyFrame_terminal h0, htype, if_neg hcommand]
  have hcallbacks : serverCallbacks server frame.message.frameInfo none frame.message.data =
      eventIf (server.terminalOption frame.message.frameInfo.dlci).cmuxServerOnTerminalData
        (ServerEvent.onTerminalData frame.message.frameInfo.dlci (information frame.octets)) := by
    rw [serverCallbacks, htype, frame.data_eq]
    rfl
  constructor
  · rw [ServerCall.run, serverOnControlMessage_state, hrequest, hreply]
    rfl
  · rw [ServerCall.run, serverOnControlMessage_events server hrange.not_gt, hrequest, hreply,
      hcallbacks]
    exact List.append_nil _

end Server

end Cmux
