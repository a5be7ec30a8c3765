import Cmux.Endpoint.Client
import Cmux.Endpoint.Memory
import Cmux.Foundation.Purge

/-! How the channels of a client disturb each other: what it does and records on a DLCI is what it
does in the run from which the steps on all other DLCIs are deleted, unless a step behind one of
these lets memory show. -/
namespace Cmux

/-- The DLCI that a call out of the client is about, starting and stopping counting as 0. -/
def ClientEvent.dlci? : ClientEvent → Option UInt8
  | sendToInterface octets => addressDlci octets
  | onEvent frameInfo _ _ => some frameInfo.dlci
  | onStart => some 0
  | onStop => some 0
  | onTerminalOpen dlci => some dlci
  | onTerminalClose dlci => some dlci
  | onTerminalData dlci _ => some dlci

section Client
variable {options : CmuxClientOptions}

structure CmuxClient.SameOn (dlci : UInt8) (client client' : CmuxClient options) : Prop where
  lastFrameInfo : client.lastFrameInfo dlci = client'.lastFrameInfo dlci
  terminalOption : client.terminalOption dlci = client'.terminalOption dlci

theorem CmuxClient.SameOn.rfl {d : UInt8} (client : CmuxClient options) :
    client.SameOn d client := ⟨Eq.refl _, Eq.refl _⟩

theorem CmuxClient.SameOn.trans {d : UInt8} {client client' client'' : CmuxClient options}
    (h : client.SameOn d client') (h' : client'.SameOn d client'') : client.SameOn d client'' :=
  ⟨h.lastFrameInfo.trans h'.lastFrameInfo, h.terminalOption.trans h'.terminalOption⟩

theorem clientSendFrame_sameOn {d : UInt8} {client client' : CmuxClient options}
    (h : client.SameOn d client') (info : BuilderFrameInfo) (heap : ℕ → UInt8) :
    (clientSendFrame client info heap).1.SameOn d (clientSendFrame client' info heap).1 :=
  ⟨lookup_sendFrameStatuses_congr h.lastFrameInfo _ _, h.terminalOption⟩

theorem clientTerminalOpen_sameOn {d : UInt8} {client client' : CmuxClient options}
    (h : client.SameOn d client') (e : UInt8) (terminalOptions : Option CmuxClientTerminalOptions)
    (heap : ℕ → UInt8) : (cmuxClientTerminalOpen client e terminalOptions heap).1.SameOn d
      (cmuxClientTerminalOpen client' e terminalOptions heap).1 := by
  unfold cmuxClientTerminalOpen
  split
  · exact h
  · have hupdate : (clientUpdateTerminalOptions client e terminalOptions).SameOn d
        (clientUpdateTerminalOptions client' e terminalOptions) :=
      ⟨h.lastFrameInfo, lookup_update_congr h.terminalOption _ _⟩
    exact clientSendFrame_sameOn hupdate _ heap

/-- What a call leaves in the client does not depend on memory. -/
theorem clientCall_state (call : ClientCall) (client : CmuxClient options)
    (heap heap' : ℕ → UInt8) : (call.run client heap).1 = (call.run client heap').1 := by
  cases call with
  | stop =>
    simp only [ClientCall.run, cmuxClientStop, cmuxClientRequest, clientSendFrame,
      requestFrame_congr _ _ _ _ heap heap']
  | request d type services =>
    simp only [ClientCall.run, cmuxClientRequest, clientSendFrame,
      requestFrame_congr _ _ _ _ heap heap']
  | start | terminalOpen =>
    simp only [ClientCall.run, cmuxClientStart, cmuxClientTerminalOpen]
    split <;> rfl
  | terminalSend | terminalClose | receive => rfl

/-- The same call keeps two clients alike on a DLCI. -/
theorem clientCall_sameOn {d : UInt8} {client client' : CmuxClient options}
    (h : client.SameOn d client') (call : ClientCall) (heap heap' : ℕ → UInt8) :
    (call.run client heap).1.SameOn d (call.run client' heap').1 := by
  rw [clientCall_state call client' heap' heap]
  cases call with
  | start => exact clientTerminalOpen_sameOn h 0 none heap
  | terminalOpen e terminalOptions => exact clientTerminalOpen_sameOn h e terminalOptions heap
  | receive frame => exact h
  | stop | request | terminalSend | terminalClose => exact clientSendFrame_sameOn h _ heap

/-- A call on another DLCI leaves what is held for this one. -/
theorem clientCall_other {d : UInt8} (client : CmuxClient options) {call : ClientCall}
    (h : call.dlci ≠ d) (heap : ℕ → UInt8) : (call.run client heap).1.SameOn d client := by
  have hsend (info : BuilderFrameInfo) (hinfo : info.dlci ≠ d) :
      (clientSendFrame client info heap).1.SameOn d client :=
    ⟨lookup_sendFrameStatuses_of_ne _ hinfo, rfl⟩
  have hopen (e : UInt8) (terminalOptions : Option CmuxClientTerminalOptions) (he : e ≠ d) :
      (cmuxClientTerminalOpen client e terminalOptions heap).1.SameOn d client := by
    unfold cmuxClientTerminalOpen
    split
    · exact ⟨rfl, rfl⟩
    · exact ⟨lookup_sendFrameStatuses_of_ne _ he, lookup_update_of_ne _ _ _ he⟩
  cases call with
  | start => exact hopen 0 none h
  | terminalOpen e terminalOptions => exact hopen e terminalOptions h
  | receive frame => exact ⟨rfl, rfl⟩
  | stop | request | terminalSend | terminalClose => exact hsend _ h

/-- What a message makes the client call depends on what is held for its own DLCI. -/
theorem clientOnControlMessage_congr {client client' : CmuxClient options}
    {message : ControlMessage} (h : client.SameOn message.frameInfo.dlci client')
    (heap : ℕ → UInt8) : (clientOnControlMessage client message heap).events =
      (clientOnControlMessage client' message heap).events := by
  simp only [clientOnControlMessage]
  split_ifs with hgt h0
  · rfl
  · rw [h0] at h
    simp only [clientOnControlChannel, h.lastFrameInfo]
  · simp only [clientOnTerminal, h.lastFrameInfo, h.terminalOption]

theorem clientCall_events_congr {client client' : CmuxClient options} {call : ClientCall}
    (h : client.SameOn call.dlci client') (heap : ℕ → UInt8) :
    (call.run client heap).2.events = (call.run client' heap).2.events := by
  cases hinfo : call.frameInfo heap with
  | some info => rw [(clientCall_sends hinfo client).2, (clientCall_sends hinfo client').2]
  | none =>
    cases call with
    | receive frame => exact clientOnControlMessage_congr h heap
    | _ => cases hinfo

/-- A message only makes calls about its own DLCI. -/
theorem clientOnControlMessage_dlci (client : CmuxClient options) (message : ControlMessage)
    (heap : ℕ → UInt8) : ∀ event ∈ (clientOnControlMessage client message heap).events,
      event.dlci? = some message.frameInfo.dlci := by
  intro event hevent
  simp only [clientOnControlMessage] at hevent
  split_ifs at hevent with hgt h0
  · cases hevent
  · simp only [clientOnControlChannel, List.mem_append, mem_eventIf] at hevent
    rcases hevent with (⟨-, rfl⟩ | ⟨-, rfl⟩) | ⟨-, rfl⟩
    · rfl
    · rw [h0]; rfl
    · rw [h0]; rfl
  · simp only [clientOnTerminal] at hevent
    split_ifs at hevent <;> first
      | (obtain ⟨-, rfl⟩ := mem_eventIf.mp hevent; rfl)
      | cases hevent

theorem clientCall_events_dlci (client : CmuxClient options) {call : ClientCall}
    (hrange : InRange options.maximumDlci call.dlci) (heap : ℕ → UInt8) :
    ∀ event ∈ (call.run client heap).2.events, event.dlci? = some call.dlci := by
  intro event hevent
  cases hinfo : call.frameInfo heap with
  | some info =>
    have hdlci := clientCall_frameInfo_dlci hinfo
    rw [(clientCall_sends hinfo client).2, Option.mem_toList, Option.map_eq_some_iff] at hevent
    obtain ⟨octets, hoctets, rfl⟩ := hevent
    rw [← hdlci] at hrange ⊢
    exact sendFrameOctets_dlci hoctets hrange
  | none =>
    cases call with
    | receive frame => exact clientOnControlMessage_dlci client frame.message heap event hevent
    | _ => cases hinfo

/-- The calls in which memory shows: an UI frame with an information field, a frame with less
data than its length says, and a request to be told that runs over the end of its frame. -/
def ClientCall.ShowsMemory (options : CmuxClientOptions) : ClientCall → Prop
  | request _ type services => RequestShowsMemory type services
  | terminalSend _ data len => DataShowsMemory data len
  | receive frame => options.cmuxClientOnEvent ∧ frame.DecodesBeyond
  | _ => False

instance : DecidablePred (ClientCall.ShowsMemory options)
  | .start | .stop | .terminalOpen .. | .terminalClose _ => inferInstanceAs (Decidable False)
  | .request _ type services => inferInstanceAs (Decidable (RequestShowsMemory type services))
  | .terminalSend _ data len => inferInstanceAs (Decidable (DataShowsMemory data len))
  | .receive frame => inferInstanceAs (Decidable (_ ∧ frame.DecodesBeyond))

theorem clientCall_frameInfo_congr (call : ClientCall) (heap heap' : ℕ → UInt8) :
    call.frameInfo heap = call.frameInfo heap' := by
  cases call with
  | stop => exact congrArg some (requestFrame_congr _ _ _ _ heap heap')
  | request d type services => exact congrArg some (requestFrame_congr _ _ _ _ heap heap')
  | start | terminalOpen | terminalSend | terminalClose | receive => rfl

theorem clientCall_showsMemory_iff {call : ClientCall} {heap : ℕ → UInt8}
    {info : BuilderFrameInfo} (h : call.frameInfo heap = some info) :
    call.ShowsMemory options ↔ info.ShowsMemory := by
  have hui : ControlType.sabm ≠ ControlType.ui ∧ ControlType.disc ≠ ControlType.ui ∧
      ControlType.uih ≠ ControlType.ui := by decide
  cases call <;> cases h
  case request d type services =>
    exact (requestFrame_showsMemory_iff true d type services heap).symm
  case terminalSend d data len => exact (dataFrame_showsMemory_iff true d data len).symm
  all_goals
    rw [requestFrame_showsMemory_iff, RequestShowsMemory]
    simp [ClientCall.ShowsMemory, hui]

/-- What is told on the control channel comes from the frame alone when no one is told the
request or its decoder stays inside. -/
theorem clientOnControlChannel_congr (client : CmuxClient options) {frame : ReceivedFrame}
    (h0 : frame.message.frameInfo.dlci = 0)
    (h : ¬ (options.cmuxClientOnEvent ∧ frame.DecodesBeyond)) (heap heap' : ℕ → UInt8) :
    clientOnControlChannel client frame.message heap =
      clientOnControlChannel client frame.message heap' := by
  by_cases hpos : frame.message.frameInfo.length > 0
  · have hservice := frame.decodedRequest_service_congr hpos heap heap'
    simp only [clientOnControlChannel, if_pos hpos, Option.getD_some, hservice]
    by_cases hevent : options.cmuxClientOnEvent
    · have hinside : ¬ frame.DecodesBeyond := fun hbeyond => h ⟨hevent, hbeyond⟩
      rw [frame.decodedRequest_congr hpos (Nat.le_of_not_lt fun hlt => hinside ⟨h0, hpos, hlt⟩)
        heap heap']
    · simp only [eventIf, if_neg hevent]
  · simp only [clientOnControlChannel, if_neg hpos]

/-- The other calls show the same over any memory. -/
theorem clientCall_hides (client : CmuxClient options) {call : ClientCall}
    (h : ¬ call.ShowsMemory options) (heap heap' : ℕ → UInt8) :
    (call.run client heap).2.events = (call.run client heap').2.events := by
  cases hinfo : call.frameInfo heap with
  | some info =>
    have hinfo' := (clientCall_frameInfo_congr call heap' heap).trans hinfo
    rw [clientCall_showsMemory_iff hinfo] at h
    rw [(clientCall_sends hinfo client).2, (clientCall_sends hinfo' client).2, sendFrameOctets,
      sendFrameOctets, builtFrame_congr h heap heap']
  | none =>
    cases call with
    | receive frame =>
      simp only [ClientCall.run, clientOnControlMessage]
      split_ifs with hgt h0
      · rfl
      · exact clientOnControlChannel_congr client h0 h heap heap'
      · rfl
    | _ => cases hinfo

/-- The calls in which memory shows begin differently over some two memories. -/
theorem clientCall_shows {call : ClientCall} (hrange : InRange options.maximumDlci call.dlci)
    (h : call.ShowsMemory options) : ∃ heap heap', ∀ (client : CmuxClient options) xs ys,
      (call.run client heap).2.events ++ xs ≠ (call.run client heap').2.events ++ ys := by
  cases hinfo : call.frameInfo fun _ => 0 with
  | some info =>
    have hgt : ¬ info.dlci > options.maximumDlci := by
      rw [clientCall_frameInfo_dlci hinfo]
      exact hrange.not_gt
    obtain ⟨heap, heap', hne⟩ := exists_builtFrame_ne ((clientCall_showsMemory_iff hinfo).mp h)
    refine ⟨heap, heap', fun client xs ys heq => hne ?_⟩
    rw [(clientCall_sends ((clientCall_frameInfo_congr call heap _).trans hinfo) client).2,
      (clientCall_sends ((clientCall_frameInfo_congr call heap' _).trans hinfo) client).2,
      sendFrameOctets_of_le info heap hgt, sendFrameOctets_of_le info heap' hgt] at heq
    exact ClientEvent.sendToInterface.inj (List.cons.inj heq).1
  | none =>
    cases call with
    | receive frame =>
      obtain ⟨hevent, hbeyond⟩ := h
      have h0 : frame.message.frameInfo.dlci = 0 := hbeyond.1
      have hpos : frame.message.frameInfo.length > 0 := hbeyond.2.1
      refine ⟨fun _ => 0, fun _ => 0xFF, fun client xs ys heq => frame.decodedRequest_ne hbeyond ?_⟩
      have hrun (heap : ℕ → UInt8) : (ClientCall.run (.receive frame) client heap).2.events =
          clientOnControlChannel client frame.message heap := by
        simp only [ClientCall.run, clientOnControlMessage]
        rw [if_neg (show ¬ frame.message.frameInfo.dlci > _ from hrange.not_gt), if_pos h0]
      rw [hrun, hrun] at heq
      simp only [clientOnControlChannel, if_pos hpos, eventIf, if_pos hevent] at heq
      have hhead := congrArg List.head? heq
      simpa using hhead
    | _ => cases hinfo

theorem client_keepsApart (options : CmuxClientOptions) : (clientMachine options).KeepsApart
    ClientCall.dlci ClientEvent.dlci? Effects.events
    (fun call => InRange options.maximumDlci call.dlci) (ClientCall.ShowsMemory options)
    CmuxClient.SameOn where
  refl _ := CmuxClient.SameOn.rfl
  trans := CmuxClient.SameOn.trans
  alike h := clientCall_sameOn h
  leave client _ heap hd := clientCall_other client hd heap
  determined _ heap h := clientCall_events_congr h heap
  tagged client _ heap hrange := clientCall_events_dlci client hrange heap
  hides client _ heap heap' h := clientCall_hides client h heap heap'
  shows _ hrange h := clientCall_shows hrange h

/-- On the DLCI a run shows and records what the run without the steps on all others does,
whatever is found in memory and left there. -/
def ClientIsolated (d : UInt8) (client : CmuxClient options) (calls : List ClientCall) : Prop :=
  ∀ (memory : Memory (CmuxClient options) ClientCall (ℕ → UInt8)) (m : memory.State),
    let machine := (clientMachine options).withMemory memory
    let alone := calls.filter fun call => call.dlci = d
    Mealy.shownOn ClientEvent.dlci? Effects.events d (machine.outputs (client, m) calls) =
        Mealy.shownOn ClientEvent.dlci? Effects.events d (machine.outputs (client, m) alone) ∧
      (machine.final (client, m) calls).1.lastFrameInfo d =
        (machine.final (client, m) alone).1.lastFrameInfo d

/-- Memory shows in no call on the DLCI that follows one on another. -/
def ClientUndisturbed (options : CmuxClientOptions) (d : UInt8) (calls : List ClientCall) : Prop :=
  ∀ call ∈ calls.dropWhile fun call => call.dlci = d,
    call.dlci = d → ¬ call.ShowsMemory options

instance (options : CmuxClientOptions) (d : UInt8) (calls : List ClientCall) :
    Decidable (ClientUndisturbed options d calls) :=
  inferInstanceAs (Decidable (∀ call ∈ calls.dropWhile _, _ → ¬ _))

theorem clientIsolated_iff (d : UInt8) (client : CmuxClient options) {calls : List ClientCall}
    (h : ∀ call ∈ calls, InRange options.maximumDlci call.dlci) :
    ClientIsolated d client calls ↔ ClientUndisturbed options d calls := by
  have hpurged := (client_keepsApart options).shownOn_purged_iff d client h
  constructor
  · exact fun hisolated => hpurged.mp fun memory m => (hisolated memory m).1
  · exact fun hundisturbed memory m => ⟨hpurged.mpr hundisturbed memory m,
      ((client_keepsApart options).final_purged memory memory (CmuxClient.SameOn.rfl client)
        m m calls).lastFrameInfo⟩

/-- A received frame makes the client hand its information field to the data callback of the
DLCI, and do nothing else. -/
def ClientHandsOver (d : UInt8) (client : CmuxClient options) (frame : ReceivedFrame)
    (heap : ℕ → UInt8) : Prop :=
  (ClientCall.run (.receive frame) client heap).1 = client ∧
    (ClientCall.run (.receive frame) client heap).2.events =
      eventIf (client.terminalOption d).cmuxClientOnTerminalData
        (ClientEvent.onTerminalData d (information frame.octets))

theorem clientHandsOver {d : UInt8} (hd : 1 ≤ d) (hrange : InRange options.maximumDlci d)
    (client : CmuxClient options) {frame : ReceivedFrame}
    (hframe : IsFrame ControlType.uih d frame.octets) (heap : ℕ → UInt8) :
    ClientHandsOver d client frame heap := by
  obtain ⟨htype, rfl⟩ := (frame.isFrame_iff _ _).mp hframe
  have h0 : frame.message.frameInfo.dlci ≠ 0 := dlci_ne_zero hd
  have hua : ControlType.uih ≠ ControlType.ua := by decide
  refine ⟨rfl, ?_⟩
  simp only [ClientCall.run, clientOnControlMessage, if_neg hrange.not_gt, if_neg h0,
    clientOnTerminal, htype, if_neg hua, if_true, frame.data_eq]

end Client

end Cmux
