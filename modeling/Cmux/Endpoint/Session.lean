import Cmux.Endpoint.Link
import Cmux.Endpoint.Replies

/-! A client and a server joined by two queues of frames, with every call that their
applications can make. The client takes no notice of a DISC. -/
namespace Cmux

structure Session (clientOptions : CmuxClientOptions) (serverOptions : CmuxServerOptions) where
  client : CmuxClient clientOptions
  server : CmuxServer serverOptions
  toServer : List (List UInt8)
  toClient : List (List UInt8)

/-- A call of an application, which receives no frame, or the delivery of the oldest frame of a
queue. -/
inductive SessionAction where
  | client (call : { call : ClientCall // ∀ frame, call ≠ ClientCall.receive frame })
  | server (call : { call : ServerCall // ∀ frame, call ≠ ServerCall.receive frame })
  | deliverToServer
  | deliverToClient

structure SessionEvents where
  client : List ClientEvent
  server : List ServerEvent
  received : Option (List UInt8)
  deriving DecidableEq, Repr

def clientSent (effects : Effects ClientEvent) : List (List UInt8) :=
  effects.events.filterMap ClientEvent.sent?

section Session
variable {clientOptions : CmuxClientOptions} {serverOptions : CmuxServerOptions}

/-- One step, with the memory that stands behind what it allocates or is handed. Nothing is
delivered from an empty queue. -/
def Session.run (session : Session clientOptions serverOptions) (action : SessionAction)
    (heap : ℕ → UInt8) : Session clientOptions serverOptions × SessionEvents :=
  match action with
  | .client call =>
    let called := call.1.run session.client heap
    ({ session with
        client := called.1
        toServer := session.toServer ++ clientSent called.2 },
      ⟨called.2.events, [], none⟩)
  | .server call =>
    let called := call.1.run session.server heap
    ({ session with
        server := called.1
        toClient := session.toClient ++ serverSent called.2 },
      ⟨[], called.2.events, none⟩)
  | .deliverToServer =>
    match session.toServer with
    | [] => (session, ⟨[], [], none⟩)
    | frame :: toServer =>
      let handled := serverOnControlMessage session.server (processIngressFrame frame heap).1 heap
      ({ session with
          server := handled.1
          toServer := toServer
          toClient := session.toClient ++ serverSent handled.2 },
        ⟨[], handled.2.events, none⟩)
  | .deliverToClient =>
    match session.toClient with
    | [] => (session, ⟨[], [], none⟩)
    | frame :: toClient =>
      let handled := clientOnControlMessage session.client (processIngressFrame frame heap).1 heap
      ({ session with
          toServer := session.toServer ++ clientSent handled
          toClient := toClient },
        ⟨handled.events, [], some frame⟩)

def sessionMachine (clientOptions : CmuxClientOptions) (serverOptions : CmuxServerOptions) :
    Mealy (Session clientOptions serverOptions) (SessionAction × (ℕ → UInt8)) SessionEvents where
  step session input := session.run input.1 input.2

/-! ### The queue to the client -/

def SessionEvents.serverFrames (events : SessionEvents) : List (List UInt8) :=
  events.server.filterMap ServerEvent.sent?

theorem session_toClient (session : Session clientOptions serverOptions)
    (input : SessionAction × (ℕ → UInt8)) :
    ((sessionMachine _ _).step session input).2.received.toList ++
        ((sessionMachine _ _).step session input).1.toClient =
      session.toClient ++ ((sessionMachine _ _).step session input).2.serverFrames := by
  obtain ⟨action, heap⟩ := input
  cases action with
  | client call => exact (List.append_nil _).symm
  | server call => rfl
  | deliverToServer =>
    cases hqueue : session.toServer with
    | nil => simp [sessionMachine, Session.run, hqueue, SessionEvents.serverFrames]
    | cons frame toServer =>
      simp only [sessionMachine, Session.run, hqueue]
      rfl
  | deliverToClient =>
    cases hqueue : session.toClient with
    | nil => simp [sessionMachine, Session.run, hqueue, SessionEvents.serverFrames]
    | cons frame toClient =>
      simp only [sessionMachine, Session.run, hqueue]
      exact (List.append_nil _).symm

/-- What the server sent before the queue ran empty has been received. -/
theorem received_of_sent {session : Session clientOptions serverOptions}
    {inputs : List (SessionAction × (ℕ → UInt8))}
    (hempty : ((sessionMachine _ _).final session inputs).toClient = []) {octets : List UInt8}
    (hsent : ∃ events ∈ (sessionMachine _ _).outputs session inputs, octets ∈ events.serverFrames) :
    ∃ events ∈ (sessionMachine _ _).outputs session inputs, events.received = some octets := by
  have hqueue := (sessionMachine clientOptions serverOptions).queue_conserved
    (f := fun events => events.received.toList) (g := SessionEvents.serverFrames)
    (q := Session.toClient) session_toClient session inputs
  rw [hempty, List.append_nil] at hqueue
  have hmem : octets ∈ ((sessionMachine _ _).outputs session inputs).flatMap
      fun events => events.received.toList := by
    rw [hqueue]
    exact List.mem_append_right _ (List.mem_flatMap.mpr hsent)
  obtain ⟨events, hevents, hreceived⟩ := List.mem_flatMap.mp hmem
  exact ⟨events, hevents, Option.mem_toList.mp hreceived⟩

/-! ### A close of the server -/

def ClientCall.Opens (dlci : UInt8) : ClientCall → Prop
  | terminalOpen d _ => d = dlci
  | request d type _ => d = dlci ∧ type = ControlType.sabm
  | _ => False

instance (dlci : UInt8) : DecidablePred (ClientCall.Opens dlci)
  | .terminalOpen d _ => inferInstanceAs (Decidable (d = dlci))
  | .request d type _ => inferInstanceAs (Decidable (d = dlci ∧ type = ControlType.sabm))
  | .start | .stop | .terminalSend _ _ _ | .terminalClose _ | .receive _ => isFalse id

def SessionAction.Opens (dlci : UInt8) : SessionAction → Prop
  | client call => call.1.Opens dlci
  | _ => False

instance (dlci : UInt8) : DecidablePred (SessionAction.Opens dlci)
  | .client call => inferInstanceAs (Decidable (call.1.Opens dlci))
  | .server _ | .deliverToServer | .deliverToClient => isFalse id

def SessionAction.Requests : SessionAction → Prop
  | client ⟨.request _ _ _, _⟩ => True
  | _ => False

def serverClose (dlci : UInt8) : SessionAction :=
  .server ⟨ServerCall.terminalClose dlci, fun _ h => nomatch h⟩

/-- A terminal is opened, the server closes it, and the session goes on without a new opening
until both queues are empty. -/
structure ClosedByServer (dlci : UInt8) (session : Session clientOptions serverOptions)
    (before : List (SessionAction × (ℕ → UInt8))) (heap : ℕ → UInt8)
    (after : List (SessionAction × (ℕ → UInt8))) : Prop where
  terminal : TerminalDlci clientOptions.maximumDlci dlci
  maximum : clientOptions.maximumDlci = serverOptions.maximumDlci
  clientOpened : ∃ events ∈ (sessionMachine _ _).outputs session before,
    ClientEvent.onTerminalOpen dlci ∈ events.client
  serverOpened : ∃ events ∈ (sessionMachine _ _).outputs session before,
    ServerEvent.onTerminalOpen dlci ∈ events.server
  notReopened : ∀ input ∈ after, ¬ input.1.Opens dlci
  quiet : ((sessionMachine _ _).final session
      (before ++ (serverClose dlci, heap) :: after)).toServer = [] ∧
    ((sessionMachine _ _).final session
      (before ++ (serverClose dlci, heap) :: after)).toClient = []

/-- The client has called back for the close, and has answered on its own with an UA. -/
def ReachesClient (dlci : UInt8) (session : Session clientOptions serverOptions)
    (inputs : List (SessionAction × (ℕ → UInt8))) : Prop :=
  (∃ events ∈ (sessionMachine _ _).outputs session inputs,
    ClientEvent.onTerminalClose dlci ∈ events.client) ∧
  ∃ step ∈ inputs.zip ((sessionMachine _ _).outputs session inputs), ¬ step.1.1.Requests ∧
    ∃ octets ∈ step.2.client.filterMap ClientEvent.sent?, IsFrame ControlType.ua dlci octets

/-- A DISC on the DLCI is received, and nothing comes of it. -/
def Ignored (dlci : UInt8) (events : SessionEvents) : Prop :=
  (∃ octets ∈ events.received, IsFrame ControlType.disc dlci octets) ∧ events.client = []

theorem builtFrame_type {type : ControlType} {dlci : UInt8} {info : BuilderFrameInfo}
    {heap : ℕ → UInt8} (h : IsFrame type dlci (builtFrame info heap)) :
    info.type &&& ~~~controlTypePollFinal = type := by
  obtain ⟨rest, hrest⟩ := builtFrame_header info heap
  obtain ⟨-, htype⟩ := h
  rw [hrest] at htype
  rw [← (controlOctet_decoded info).1]
  exact Option.some.inj htype

/-- What a call other than a request of the application sends. -/
theorem clientCall_type {call : ClientCall} {heap : ℕ → UInt8} {info : BuilderFrameInfo}
    (h : call.frameInfo heap = some info)
    (hrequest : ∀ dlci type services, call ≠ ClientCall.request dlci type services) :
    info.type = ControlType.sabm ∨ info.type = ControlType.disc ∨ info.type = ControlType.uih := by
  cases call with
  | request dlci type services => exact absurd rfl (hrequest dlci type services)
  | receive => cases h
  | start | terminalOpen => cases h; exact Or.inl rfl
  | terminalClose => cases h; exact Or.inr (Or.inl rfl)
  | stop | terminalSend => cases h; exact Or.inr (Or.inr rfl)

theorem clientCall_sends_no_ua (dlci : UInt8) (client : CmuxClient clientOptions)
    {call : ClientCall}
    (hrequest : ∀ dlci type services, call ≠ ClientCall.request dlci type services)
    (heap : ℕ → UInt8) :
    ∀ octets ∈ clientSent (call.run client heap).2, ¬ IsFrame ControlType.ua dlci octets := by
  intro octets hoctets hua
  rw [clientSent, clientCall_sent] at hoctets
  obtain ⟨info, hinfo, hsent⟩ := Option.bind_eq_some_iff.mp (Option.mem_toList.mp hoctets)
  obtain rfl := eq_of_mem_sendFrameOctets hsent
  have htype := builtFrame_type hua
  obtain h | h | h := clientCall_type hinfo hrequest <;> rw [h] at htype <;>
    exact absurd htype (by decide)

/-- In a step the client is called by its application, receives the oldest frame, or does
nothing. -/
theorem session_client (session : Session clientOptions serverOptions) (action : SessionAction)
    (heap : ℕ → UInt8) :
    (∃ call, action = SessionAction.client call ∧ (session.run action heap).2 =
        ⟨(call.1.run session.client heap).2.events, [], none⟩) ∨
      (∃ frame, (session.run action heap).2 =
        ⟨(clientOnControlMessage session.client (processIngressFrame frame heap).1 heap).events, [],
          some frame⟩) ∨
      ∃ server, (session.run action heap).2 = ⟨[], server, none⟩ := by
  cases action with
  | client call => exact Or.inl ⟨call, rfl, rfl⟩
  | server call => exact Or.inr (Or.inr ⟨_, rfl⟩)
  | deliverToServer =>
    refine Or.inr (Or.inr ?_)
    cases hqueue : session.toServer with
    | nil => exact ⟨[], by rw [Session.run, hqueue]⟩
    | cons frame toServer => exact ⟨_, by rw [Session.run, hqueue]⟩
  | deliverToClient =>
    cases hqueue : session.toClient with
    | nil => exact Or.inr (Or.inr ⟨[], by rw [Session.run, hqueue]⟩)
    | cons frame toClient => exact Or.inr (Or.inl ⟨frame, by rw [Session.run, hqueue]⟩)

/-- The client sends no UA unless its application asks for one. -/
theorem session_sends_no_ua (dlci : UInt8) (session : Session clientOptions serverOptions)
    (input : SessionAction × (ℕ → UInt8)) (h : ¬ input.1.Requests) :
    ∀ octets ∈ ((sessionMachine _ _).step session input).2.client.filterMap ClientEvent.sent?,
      ¬ IsFrame ControlType.ua dlci octets := by
  obtain ⟨action, heap⟩ := input
  change ∀ octets ∈ (session.run action heap).2.client.filterMap ClientEvent.sent?, _
  obtain ⟨call, rfl, hevents⟩ | ⟨frame, hevents⟩ | ⟨server, hevents⟩ :=
    session_client session action heap
  · obtain ⟨call, hcall⟩ := call
    have hrequest : ∀ d type services, call ≠ ClientCall.request d type services := by
      rintro d type services rfl
      exact h trivial
    rw [hevents]
    exact clientCall_sends_no_ua dlci session.client hrequest heap
  · rw [hevents, clientOnControlMessage_sent]
    intro octets hoctets
    cases hoctets
  · rw [hevents]
    intro octets hoctets
    cases hoctets

/-- A DISC on a terminal makes the client call nothing. -/
theorem clientOnControlMessage_disc {dlci : UInt8}
    (hd : TerminalDlci clientOptions.maximumDlci dlci) (client : CmuxClient clientOptions)
    {octets : List UInt8} (hdisc : IsFrame ControlType.disc dlci octets) (heap : ℕ → UInt8) :
    (clientOnControlMessage client (processIngressFrame octets heap).1 heap).events = [] := by
  obtain ⟨hdlci, htype⟩ := processIngressFrame_isFrame hdisc heap
  have hother : ControlType.disc ≠ ControlType.ua ∧ ControlType.disc ≠ ControlType.uih := by
    decide
  simp only [clientOnControlMessage, hdlci, if_neg (terminalDlci_le hd),
    if_neg (terminalDlci_ne_zero hd), clientOnTerminal, htype, if_neg hother.1, if_neg hother.2]

theorem session_ignores_disc {dlci : UInt8} (hd : TerminalDlci clientOptions.maximumDlci dlci)
    (session : Session clientOptions serverOptions) (input : SessionAction × (ℕ → UInt8))
    {octets : List UInt8} (hdisc : IsFrame ControlType.disc dlci octets)
    (h : ((sessionMachine _ _).step session input).2.received = some octets) :
    ((sessionMachine _ _).step session input).2.client = [] := by
  obtain ⟨action, heap⟩ := input
  change (session.run action heap).2.received = some octets at h
  change (session.run action heap).2.client = []
  obtain ⟨call, rfl, hevents⟩ | ⟨frame, hevents⟩ | ⟨server, hevents⟩ :=
    session_client session action heap
  · rw [hevents] at h
    cases h
  · rw [hevents] at h ⊢
    obtain rfl := Option.some.inj h
    exact clientOnControlMessage_disc hd session.client hdisc heap
  · rw [hevents]

/-- The server's DISC is on its way when it closes a terminal. -/
theorem serverClose_sends {dlci : UInt8} (hd : TerminalDlci serverOptions.maximumDlci dlci)
    (session : Session clientOptions serverOptions) (heap : ℕ → UInt8) :
    ∃ octets, octets ∈
        ((sessionMachine _ _).step session (serverClose dlci, heap)).2.serverFrames ∧
      IsFrame ControlType.disc dlci octets := by
  refine ⟨builtFrame (requestFrame false dlci ControlType.disc none heap) heap, ?_, ?_⟩
  · change _ ∈ (ServerCall.run (.terminalClose dlci) session.server heap).2.events.filterMap _
    rw [serverCall_sent]
    rw [ServerCall.frameInfo, Option.bind_some,
      sendFrameOctets_of_le _ heap (terminalDlci_le hd)]
    exact List.mem_singleton_self _
  · have := hd.2
    exact isFrame_builtFrame (by omega : dlci.toNat < 64)
      (by decide : ControlType.disc &&& controlTypePollFinal = 0) heap

/-- A close of the server never reaches the client: its DISC is delivered, and the client
neither calls back for it nor answers it. -/
theorem not_reachesClient {dlci : UInt8} {session : Session clientOptions serverOptions}
    {before after : List (SessionAction × (ℕ → UInt8))} {heap : ℕ → UInt8}
    (h : ClosedByServer dlci session before heap after) :
    (∃ events ∈ (sessionMachine _ _).outputs ((sessionMachine _ _).final session before)
        ((serverClose dlci, heap) :: after), Ignored dlci events) ∧
      ¬ ReachesClient dlci ((sessionMachine _ _).final session before)
        ((serverClose dlci, heap) :: after) := by
  obtain ⟨hd, hmaximum, -, -, -, -, hempty⟩ := h
  rw [Mealy.final_append] at hempty
  constructor
  · obtain ⟨octets, hsent, hdisc⟩ := serverClose_sends (hmaximum ▸ hd)
      ((sessionMachine clientOptions serverOptions).final session before) heap
    obtain ⟨events, hevents, hreceived⟩ := received_of_sent hempty
      ⟨_, List.mem_cons_self, hsent⟩
    have hignores := (sessionMachine clientOptions serverOptions).outputs_forall_input_iff
      (C := fun _ => True) (Q := fun events => events.received = some octets → events.client = [])
      (fun session input => iff_true_intro (session_ignores_disc hd session input hdisc))
      ((sessionMachine _ _).final session before) ((serverClose dlci, heap) :: after)
    exact ⟨events, hevents, ⟨octets, hreceived, hdisc⟩,
      hignores.mpr (fun _ _ => trivial) events hevents hreceived⟩
  · rintro ⟨-, step, hstep, hrequest, octets, hoctets, hua⟩
    have hsilent := (sessionMachine clientOptions serverOptions).outputs_forall₂_iff
      (C := fun _ => True) (Q := fun input events => ¬ input.1.Requests →
        ∀ octets ∈ events.client.filterMap ClientEvent.sent?, ¬ IsFrame ControlType.ua dlci octets)
      (fun session input => iff_true_intro (session_sends_no_ua dlci session input))
      ((sessionMachine _ _).final session before) ((serverClose dlci, heap) :: after)
    exact List.forall₂_zip (hsilent.mpr fun _ _ => trivial) hstep hrequest octets hoctets hua

/-! ### A terminal that the server closes -/

def opening : List (SessionAction × (ℕ → UInt8)) :=
  [SessionAction.server ⟨.registerTerminal 1 (some ⟨true, true, true⟩), fun _ h => nomatch h⟩,
    SessionAction.client ⟨.terminalOpen 1 (some ⟨true, true, true⟩), fun _ h => nomatch h⟩,
    SessionAction.deliverToServer, SessionAction.deliverToClient].map
      fun action => (action, fun _ => 0)

def freshSession : Option (Session ⟨true, true, true, 64⟩ ⟨true, true, true, 64⟩) := do
  let client ← cmuxClientInit ⟨true, true, true, 64⟩
  let server ← cmuxServerInit ⟨true, true, true, 64⟩
  pure ⟨client, server, [], []⟩

theorem opening_closedByServer : ∃ session, freshSession = some session ∧
    ClosedByServer 1 session opening (fun _ => 0) [(.deliverToClient, fun _ => 0)] := by
  refine ⟨_, rfl, ⟨by decide, rfl, ?_, ?_, ?_, ?_⟩⟩
  · decide +kernel
  · decide +kernel
  · decide +kernel
  · decide +kernel

theorem not_reachesClient_opening : ∃ session, freshSession = some session ∧
    (∃ events ∈ (sessionMachine _ _).outputs ((sessionMachine _ _).final session opening)
        [(serverClose 1, fun _ => 0), (.deliverToClient, fun _ => 0)], Ignored 1 events) ∧
      ¬ ReachesClient 1 ((sessionMachine _ _).final session opening)
        [(serverClose 1, fun _ => 0), (.deliverToClient, fun _ => 0)] := by
  obtain ⟨session, hsession, hclosed⟩ := opening_closedByServer
  exact ⟨session, hsession, not_reachesClient hclosed⟩

/-- The terminal is open at both ends, the server closes it, and no frame is left under way:
the client has not called back. -/
theorem not_closedByServer_reachesClient : ∃ session, freshSession = some session ∧
    ClosedByServer 1 session opening (fun _ => 0) [(.deliverToClient, fun _ => 0)] ∧
      ¬ ReachesClient 1 ((sessionMachine _ _).final session opening)
        [(serverClose 1, fun _ => 0), (.deliverToClient, fun _ => 0)] := by
  obtain ⟨session, hsession, hclosed⟩ := opening_closedByServer
  obtain rfl := Option.some.inj hsession
  refine ⟨_, rfl, hclosed, fun hreaches => ?_⟩
  exact absurd hreaches.1 (by decide +kernel)

end Session
end Cmux
