import Cmux.Endpoint.CloseDown
import Cmux.Endpoint.Isolation
import Cmux.Endpoint.Session
import Cmux.Receiver.Streams

/-! A client and a server joined by two lines of octets. Each ingests what its line brings in
pieces of any size, and what its ring has no room for stays on the line. Over such lines they do
what they do in a session, in which every frame is delivered whole. -/
namespace Cmux
open Access Framing Framing.Window

structure CmuxClientInstance (options : CmuxClientOptions) where
  client : CmuxClient options
  cmuxInstance : CmuxBuffer

structure CmuxServerInstance (options : CmuxServerOptions) where
  server : CmuxServer options
  cmuxInstance : CmuxBuffer

def cmuxClientInstanceInit (options : CmuxClientOptions) (ingressBuffer : Vector UInt8 128) :
    Option (CmuxClientInstance options) :=
  (cmuxClientInit options).map fun client => ⟨client, cmuxBufferInit ingressBuffer⟩

def cmuxServerInstanceInit (options : CmuxServerOptions) (ingressBuffer : Vector UInt8 128) :
    Option (CmuxServerInstance options) :=
  (cmuxServerInit options).map fun server => ⟨server, cmuxBufferInit ingressBuffer⟩

section Ingest
variable {clientOptions : CmuxClientOptions} {serverOptions : CmuxServerOptions}

/-- `cmux_client_ingest`: the octets taken, and the calls of the callback that the receive buffer
makes. -/
def cmuxClientIngest (cmuxClient : CmuxClientInstance clientOptions) (call : IngestCall) :
    CmuxClientInstance clientOptions × ℕ × Effects ClientEvent :=
  let ingested := cmuxBufferIngest cmuxClient.cmuxInstance call.data call.beyond
  match ingested.2.message with
  | none => (⟨cmuxClient.client, ingested.1⟩, ingested.2.ret, Effects.none)
  | some message =>
    (⟨cmuxClient.client, ingested.1⟩, ingested.2.ret,
      clientOnControlMessage cmuxClient.client message call.beyond.wholeFrame)

def cmuxServerIngest (cmuxServer : CmuxServerInstance serverOptions) (call : IngestCall) :
    CmuxServerInstance serverOptions × ℕ × Effects ServerEvent :=
  let ingested := cmuxBufferIngest cmuxServer.cmuxInstance call.data call.beyond
  match ingested.2.message with
  | none => (⟨cmuxServer.server, ingested.1⟩, ingested.2.ret, Effects.none)
  | some message =>
    let handled := serverOnControlMessage cmuxServer.server message call.beyond.wholeFrame
    (⟨handled.1, ingested.1⟩, ingested.2.ret, handled.2)

end Ingest

structure Stack (clientOptions : CmuxClientOptions) (serverOptions : CmuxServerOptions) where
  client : CmuxClientInstance clientOptions
  server : CmuxServerInstance serverOptions
  toServer : List UInt8
  toClient : List UInt8

/-- A call of an application, or an ingest of the next octets of a line, as many as there are up to
a number. -/
inductive StackAction where
  | client (call : { call : ClientCall // ∀ frame, call ≠ ClientCall.receive frame })
  | server (call : { call : ServerCall // ∀ frame, call ≠ ServerCall.receive frame })
  | ingestServer (len : ℕ)
  | ingestClient (len : ℕ)

section Stack
variable {clientOptions : CmuxClientOptions} {serverOptions : CmuxServerOptions}

/-- One step, with the memory that stands behind the arrays it allocates or is handed. -/
def Stack.run (stack : Stack clientOptions serverOptions) (action : StackAction)
    (beyond : Surroundings) : Stack clientOptions serverOptions × LinkEvents :=
  match action with
  | .client call =>
    let called := call.1.run stack.client.client beyond.wholeFrame
    ({ stack with
        client := { stack.client with client := called.1 }
        toServer := stack.toServer ++ (clientSent called.2).flatten },
      ⟨called.2.events, []⟩)
  | .server call =>
    let called := call.1.run stack.server.server beyond.wholeFrame
    ({ stack with
        server := { stack.server with server := called.1 }
        toClient := stack.toClient ++ (serverSent called.2).flatten },
      ⟨[], called.2.events⟩)
  | .ingestServer len =>
    let ingested := cmuxServerIngest stack.server ⟨stack.toServer.take len, beyond⟩
    ({ stack with
        server := ingested.1
        toServer := stack.toServer.drop ingested.2.1
        toClient := stack.toClient ++ (serverSent ingested.2.2).flatten },
      ⟨[], ingested.2.2.events⟩)
  | .ingestClient len =>
    let ingested := cmuxClientIngest stack.client ⟨stack.toClient.take len, beyond⟩
    ({ stack with
        client := ingested.1
        toServer := stack.toServer ++ (clientSent ingested.2.2).flatten
        toClient := stack.toClient.drop ingested.2.1 },
      ⟨ingested.2.2.events, []⟩)

def stackMachine (clientOptions : CmuxClientOptions) (serverOptions : CmuxServerOptions) :
    Mealy (Stack clientOptions serverOptions) (StackAction × Surroundings) LinkEvents where
  step stack input := stack.run input.1 input.2

/-! ### What is sent -/

/-- A frame that a ring can hold, and that reads back as it was written. -/
structure Sendable (info : BuilderFrameInfo) : Prop where
  not_ui : info.type &&& ~~~controlTypePollFinal ≠ ControlType.ui
  complete : info.Complete
  short : cmuxFrameBuilderGetFrameLength info.length.toNat ≤ 127

instance (info : BuilderFrameInfo) : Decidable (Sendable info) :=
  decidable_of_iff (info.type &&& ~~~controlTypePollFinal ≠ ControlType.ui ∧ info.Complete ∧
    cmuxFrameBuilderGetFrameLength info.length.toNat ≤ 127)
    ⟨fun h => ⟨h.1, h.2.1, h.2.2⟩, fun h => ⟨h.1, h.2, h.3⟩⟩

def Sendable.frame {info : BuilderFrameInfo} (h : Sendable info) (prior : ℕ → UInt8) :
    ShortFrame := ⟨info, prior, h.not_ui, h.complete, h.short⟩

theorem sendable_ua (dlci : UInt8) (heap : ℕ → UInt8) :
    Sendable (requestFrame true dlci ControlType.ua none heap) :=
  ⟨(uaReply dlci heap).not_ui, rfl, (uaReply dlci heap).short⟩

theorem sendable_closeDown : ∀ pollFinal cr : Bool, Sendable (closeDownFrame pollFinal cr) := by
  decide

/-- The frame that is sent, if there is one, is sendable and meets `P`. -/
def SendsOnly (P : List UInt8 → Prop) (frameInfo : Option BuilderFrameInfo) (heap : ℕ → UInt8) :
    Prop :=
  ∀ info ∈ frameInfo, Sendable info ∧ P (builtFrame info heap)

instance (P : List UInt8 → Prop) [DecidablePred P] (frameInfo : Option BuilderFrameInfo)
    (heap : ℕ → UInt8) : Decidable (SendsOnly P frameInfo heap) := by
  unfold SendsOnly
  infer_instance

def HoldsOfReplies (P : List UInt8 → Prop) : Prop :=
  (∀ dlci heap, P (builtFrame (requestFrame true dlci ControlType.ua none heap) heap)) ∧
    ∀ heap, P (builtFrame (closeDownFrame true false) heap)

/-- What a condition says of a whole frame, in a queue of frames. -/
def Whole (P : List UInt8 → Prop) (frames : List (List UInt8)) : Prop :=
  ∀ frame ∈ frames, frameAt frame = some frame.length ∧ P frame

section Sends
variable {P : List UInt8 → Prop} {heap : ℕ → UInt8}

theorem Whole.append {frames frames' : List (List UInt8)} (h : Whole P frames)
    (h' : Whole P frames') : Whole P (frames ++ frames') := by
  intro frame hframe
  exact (List.mem_append.mp hframe).elim (h frame) (h' frame)

theorem whole_sendFrameOctets {frameInfo : Option BuilderFrameInfo} (maximumDlci : UInt8)
    (h : SendsOnly P frameInfo heap) : Whole P (frameInfo.bind fun info =>
      sendFrameOctets maximumDlci info heap).toList := by
  intro frame hframe
  obtain ⟨info, hinfo, hsent⟩ := Option.bind_eq_some_iff.mp (Option.mem_toList.mp hframe)
  obtain rfl := eq_of_mem_sendFrameOctets hsent
  obtain ⟨hsendable, hP⟩ := h info hinfo
  exact ⟨(hsendable.frame heap).recognised, hP⟩

/-- The server replies with sendable frames. -/
theorem replyFrame_sendsOnly (hP : HoldsOfReplies P) (frameInfo : FrameInfo)
    (request : Option (CmuxServicesRequest ℕ)) :
    SendsOnly P (replyFrame frameInfo request heap) heap := by
  intro info hinfo
  unfold replyFrame at hinfo
  split_ifs at hinfo with hcommand hclose
  · obtain rfl := Option.some.inj hinfo
    exact ⟨sendable_ua _ heap, hP.1 _ heap⟩
  · obtain rfl := Option.some.inj hinfo
    rw [hclose.2.1, requestFrame_closeDown]
    exact ⟨sendable_closeDown true false, hP.2 heap⟩
  · cases hinfo

theorem clientSent_whole {call : ClientCall} (h : SendsOnly P (call.frameInfo heap) heap)
    (client : CmuxClient clientOptions) : Whole P (clientSent (call.run client heap).2) := by
  rw [clientSent, clientCall_sent]
  exact whole_sendFrameOctets _ h

theorem serverSent_whole {call : ServerCall} (h : SendsOnly P (call.frameInfo heap) heap)
    (server : CmuxServer serverOptions) : Whole P (serverSent (call.run server heap).2) := by
  rw [serverSent, serverCall_sent]
  exact whole_sendFrameOctets _ h

theorem serverReply_whole (hP : HoldsOfReplies P) (server : CmuxServer serverOptions)
    {octets : List UInt8} (hvalid : frameAt octets = some octets.length) :
    Whole P (serverSent (serverOnControlMessage server (messageOf octets) heap).2) := by
  have hsends : SendsOnly P (ServerCall.frameInfo heap (.receive ⟨octets, hvalid⟩)) heap :=
    replyFrame_sendsOnly hP _ _
  exact serverSent_whole hsends server

end Sends

/-! ### Lines and queues -/

/-- The stack in the state of a session whose frames are on the lines, the first of them partly in
the rings. -/
structure Carries (P : List UInt8 → Prop) (stack : Stack clientOptions serverOptions)
    (session : Session clientOptions serverOptions) : Prop where
  client : stack.client.client = session.client
  server : stack.server.server = session.server
  toServerWhole : Whole P session.toServer
  toClientWhole : Whole P session.toClient
  toServer : stack.server.cmuxInstance.ingressRb.content ++ stack.toServer =
    session.toServer.flatten
  toClient : stack.client.cmuxInstance.ingressRb.content ++ stack.toClient =
    session.toClient.flatten

def SessionAction.calls : SessionAction → List (ClientCall ⊕ ServerCall)
  | client call => [Sum.inl call.1]
  | server call => [Sum.inr call.1]
  | _ => []

def StackAction.calls : StackAction → List (ClientCall ⊕ ServerCall)
  | client call => [Sum.inl call.1]
  | server call => [Sum.inr call.1]
  | _ => []

/-- An application sends frames on the channels that its tables are for. -/
def Proper (clientOptions : CmuxClientOptions) (serverOptions : CmuxServerOptions)
    (P : List UInt8 → Prop) (heap : ℕ → UInt8) : ClientCall ⊕ ServerCall → Prop
  | .inl call => InRange clientOptions.maximumDlci call.dlci ∧
      SendsOnly P (call.frameInfo heap) heap
  | .inr call => InRange serverOptions.maximumDlci call.dlci ∧
      SendsOnly P (call.frameInfo heap) heap

instance (P : List UInt8 → Prop) [DecidablePred P] (heap : ℕ → UInt8) :
    DecidablePred (Proper clientOptions serverOptions P heap)
  | .inl _ => inferInstanceAs (Decidable (_ ∧ _))
  | .inr _ => inferInstanceAs (Decidable (_ ∧ _))

/-- An ingest does not take out what stands inside a frame that is incomplete. -/
def StackAction.Flushes (stack : Stack clientOptions serverOptions) (beyond : Surroundings) :
    StackAction → Prop
  | ingestServer len => FlushCall stack.server.cmuxInstance ⟨stack.toServer.take len, beyond⟩
  | ingestClient len => FlushCall stack.client.cmuxInstance ⟨stack.toClient.take len, beyond⟩
  | _ => True

instance (stack : Stack clientOptions serverOptions) (beyond : Surroundings) :
    DecidablePred (StackAction.Flushes stack beyond)
  | .ingestServer _ => inferInstanceAs (Decidable (FlushCall _ _))
  | .ingestClient _ => inferInstanceAs (Decidable (FlushCall _ _))
  | .client _ | .server _ => isTrue trivial

def Clean (P : List UInt8 → Prop) (stack : Stack clientOptions serverOptions)
    (input : StackAction × Surroundings) : Prop :=
  (∀ call ∈ input.1.calls, Proper clientOptions serverOptions P input.2.wholeFrame call) ∧
    input.1.Flushes stack input.2

instance (P : List UInt8 → Prop) [DecidablePred P] (stack : Stack clientOptions serverOptions)
    (input : StackAction × Surroundings) : Decidable (Clean P stack input) :=
  inferInstanceAs (Decidable (_ ∧ _))

/-- A flush ingest from a line of whole frames hands over the front frame or nothing. -/
theorem ingest_line {P : List UInt8 → Prop} {cmux : CmuxBuffer} {line : List UInt8}
    {frames : List (List UInt8)} (hwhole : Whole P frames)
    (hline : cmux.ingressRb.content ++ line = frames.flatten) {len : ℕ} {beyond : Surroundings}
    (hflush : FlushCall cmux ⟨line.take len, beyond⟩) :
    ∃ (out : Option (List UInt8)) (rest : List (List UInt8)), frames = out.toList ++ rest ∧
      (cmuxBufferIngest cmux (line.take len) beyond).2.message = out.map messageOf ∧
      (cmuxBufferIngest cmux (line.take len) beyond).1.ingressRb.content ++
        line.drop (cmuxBufferIngest cmux (line.take len) beyond).2.ret = rest.flatten := by
  obtain ⟨hwindow, hout⟩ := ingesting_refines cmux ⟨line.take len, beyond⟩
  obtain ⟨hret, hmessage⟩ := Prod.mk.inj hout
  have hflush' : Flush recogniser 128 cmux.window (line.take len) :=
    (flushCall_iff cmux ⟨line.take len, beyond⟩).mp hflush
  obtain ⟨out, rest, hframes, hfront, hrest⟩ :=
    flush_step (fun f hf => (hwhole f hf).1) hline hflush'
  refine ⟨out, rest, hframes, hmessage.trans (congrArg (Option.map messageOf) hfront), ?_⟩
  have hcontent := congrArg Window.content hwindow
  rw [← hrest]
  exact congrArg₂ (fun content ret => content ++ line.drop ret) hcontent hret

def LinkEvents.all (events : LinkEvents) : List (ClientEvent ⊕ ServerEvent) :=
  events.client.map Sum.inl ++ events.server.map Sum.inr

def SessionEvents.all (events : SessionEvents) : List (ClientEvent ⊕ ServerEvent) :=
  events.client.map Sum.inl ++ events.server.map Sum.inr

/-- What the server does with the front frame. -/
theorem ingestServer_carries {P : List UInt8 → Prop} (hP : HoldsOfReplies P)
    {stack : Stack clientOptions serverOptions} {session : Session clientOptions serverOptions}
    (h : Carries P stack session) {len : ℕ} {beyond : Surroundings}
    (hflush : FlushCall stack.server.cmuxInstance ⟨stack.toServer.take len, beyond⟩) :
    ∃ js : List (SessionAction × (ℕ → UInt8)),
      Carries P (stack.run (.ingestServer len) beyond).1 ((sessionMachine _ _).final session js) ∧
      (stack.run (.ingestServer len) beyond).2.all =
        ((sessionMachine _ _).outputs session js).flatMap SessionEvents.all ∧
      js.flatMap (fun input => input.1.calls) = [] := by
  obtain ⟨out, rest, hframes, hmessage, hrest⟩ := ingest_line h.toServerWhole h.toServer hflush
  cases out with
  | none =>
    refine ⟨[], ?_, ?_, rfl⟩
    · simp only [Stack.run, cmuxServerIngest, hmessage, Option.map_none]
      refine ⟨h.client, h.server, h.toServerWhole, h.toClientWhole, ?_, ?_⟩
      · rw [Mealy.final_nil, hframes]
        exact hrest
      · exact (congrArg (_ ++ ·) (List.append_nil _)).trans h.toClient
    · simp only [Stack.run, cmuxServerIngest, hmessage, Option.map_none]
      rfl
  | some frame =>
    obtain ⟨hvalid, -⟩ := h.toServerWhole frame (by rw [hframes]; simp)
    have hqueue : session.toServer = frame :: rest := hframes
    have hmade := (processIngressFrame_eq hvalid beyond.wholeFrame).1
    have hreplies : Whole P (serverSent
        (serverOnControlMessage session.server (messageOf frame) beyond.wholeFrame).2) :=
      serverReply_whole hP _ hvalid
    refine ⟨[(.deliverToServer, beyond.wholeFrame)], ?_, ?_, rfl⟩
    · simp only [Stack.run, cmuxServerIngest, hmessage, Option.map_some, Mealy.final_cons,
        Mealy.final_nil, sessionMachine, Session.run, hqueue, hmade, h.server]
      refine ⟨h.client, rfl, ?_, h.toClientWhole.append hreplies, hrest, ?_⟩
      · intro f hf
        exact h.toServerWhole f (by rw [hqueue]; exact List.mem_cons_of_mem _ hf)
      · rw [List.flatten_append, ← h.toClient, List.append_assoc]
    · simp only [Stack.run, cmuxServerIngest, hmessage, Option.map_some, Mealy.outputs_cons,
        Mealy.outputs_nil, sessionMachine, Session.run, hqueue, hmade, h.server,
        List.flatMap_cons, List.flatMap_nil, List.append_nil]
      rfl

/-- What the client does with the front frame. It sends nothing. -/
theorem ingestClient_carries {P : List UInt8 → Prop} {stack : Stack clientOptions serverOptions}
    {session : Session clientOptions serverOptions} (h : Carries P stack session) {len : ℕ}
    {beyond : Surroundings}
    (hflush : FlushCall stack.client.cmuxInstance ⟨stack.toClient.take len, beyond⟩) :
    ∃ js : List (SessionAction × (ℕ → UInt8)),
      Carries P (stack.run (.ingestClient len) beyond).1 ((sessionMachine _ _).final session js) ∧
      (stack.run (.ingestClient len) beyond).2.all =
        ((sessionMachine _ _).outputs session js).flatMap SessionEvents.all ∧
      js.flatMap (fun input => input.1.calls) = [] := by
  obtain ⟨out, rest, hframes, hmessage, hrest⟩ := ingest_line h.toClientWhole h.toClient hflush
  cases out with
  | none =>
    refine ⟨[], ?_, ?_, rfl⟩
    · simp only [Stack.run, cmuxClientIngest, hmessage, Option.map_none]
      refine ⟨h.client, h.server, h.toServerWhole, h.toClientWhole, ?_, ?_⟩
      · exact (congrArg (_ ++ ·) (List.append_nil _)).trans h.toServer
      · rw [Mealy.final_nil, hframes]
        exact hrest
    · simp only [Stack.run, cmuxClientIngest, hmessage, Option.map_none]
      rfl
  | some frame =>
    obtain ⟨hvalid, -⟩ := h.toClientWhole frame (by rw [hframes]; simp)
    have hqueue : session.toClient = frame :: rest := hframes
    have hmade := (processIngressFrame_eq hvalid beyond.wholeFrame).1
    have hsilent : clientSent (clientOnControlMessage session.client (messageOf frame)
        beyond.wholeFrame) = [] :=
      clientOnControlMessage_sent _ _ _
    refine ⟨[(.deliverToClient, beyond.wholeFrame)], ?_, ?_, rfl⟩
    · simp only [Stack.run, cmuxClientIngest, hmessage, Option.map_some, Mealy.final_cons,
        Mealy.final_nil, sessionMachine, Session.run, hqueue, hmade, h.client, hsilent,
        List.flatten_nil, List.append_nil]
      refine ⟨rfl, h.server, h.toServerWhole, ?_, h.toServer, hrest⟩
      intro f hf
      exact h.toClientWhole f (by rw [hqueue]; exact List.mem_cons_of_mem _ hf)
    · simp only [Stack.run, cmuxClientIngest, hmessage, Option.map_some, Mealy.outputs_cons,
        Mealy.outputs_nil, sessionMachine, Session.run, hqueue, hmade, h.client,
        List.flatMap_cons, List.flatMap_nil, List.append_nil]
      rfl

/-- Each step of the stack is one of the session, or none. -/
theorem stack_step {P : List UInt8 → Prop} (hP : HoldsOfReplies P)
    (stack : Stack clientOptions serverOptions) (session : Session clientOptions serverOptions)
    (input : StackAction × Surroundings) (h : Carries P stack session)
    (hclean : Clean P stack input) :
    ∃ js : List (SessionAction × (ℕ → UInt8)),
      Carries P ((stackMachine _ _).step stack input).1 ((sessionMachine _ _).final session js) ∧
      ((stackMachine _ _).step stack input).2.all =
        ((sessionMachine _ _).outputs session js).flatMap SessionEvents.all ∧
      input.1.calls.map (fun call => (call, input.2.wholeFrame)) =
        js.flatMap fun input => input.1.calls.map fun call => (call, input.2) := by
  obtain ⟨action, beyond⟩ := input
  have hnone {js : List (SessionAction × (ℕ → UInt8))}
      (hjs : js.flatMap (fun input => input.1.calls) = []) :
      js.flatMap (fun input => input.1.calls.map fun call => (call, input.2)) = [] := by
    rw [List.flatMap_eq_nil_iff] at hjs ⊢
    exact fun input hinput => by rw [hjs input hinput, List.map_nil]
  cases action with
  | client call =>
    refine ⟨[(.client call, beyond.wholeFrame)], ?_, ?_, rfl⟩
    · have hsent := clientSent_whole (hclean.1 _ (List.mem_singleton_self _)).2 session.client
      simp only [stackMachine, Stack.run, Mealy.final_cons, Mealy.final_nil, sessionMachine,
        Session.run, h.client]
      refine ⟨rfl, h.server, h.toServerWhole.append hsent, h.toClientWhole, ?_, h.toClient⟩
      rw [List.flatten_append, ← h.toServer, List.append_assoc]
    · simp only [stackMachine, Stack.run, Mealy.outputs_cons, Mealy.outputs_nil, sessionMachine,
        Session.run, h.client, List.flatMap_cons, List.flatMap_nil, List.append_nil]
      rfl
  | server call =>
    refine ⟨[(.server call, beyond.wholeFrame)], ?_, ?_, rfl⟩
    · have hsent := serverSent_whole (hclean.1 _ (List.mem_singleton_self _)).2 session.server
      simp only [stackMachine, Stack.run, Mealy.final_cons, Mealy.final_nil, sessionMachine,
        Session.run, h.server]
      refine ⟨h.client, rfl, h.toServerWhole, h.toClientWhole.append hsent, h.toServer, ?_⟩
      rw [List.flatten_append, ← h.toClient, List.append_assoc]
    · simp only [stackMachine, Stack.run, Mealy.outputs_cons, Mealy.outputs_nil, sessionMachine,
        Session.run, h.server, List.flatMap_cons, List.flatMap_nil, List.append_nil]
      rfl
  | ingestServer len =>
    obtain ⟨js, hcarries, hevents, hcalls⟩ := ingestServer_carries hP h hclean.2
    exact ⟨js, hcarries, hevents, (hnone hcalls).symm⟩
  | ingestClient len =>
    obtain ⟨js, hcarries, hevents, hcalls⟩ := ingestClient_carries h hclean.2
    exact ⟨js, hcarries, hevents, (hnone hcalls).symm⟩

/-- The calls of the applications in a run, with the memory each was made in. -/
def stackCalls (inputs : List (StackAction × Surroundings)) :
    List ((ClientCall ⊕ ServerCall) × (ℕ → UInt8)) :=
  inputs.flatMap fun input => input.1.calls.map fun call => (call, input.2.wholeFrame)

def sessionCalls (inputs : List (SessionAction × (ℕ → UInt8))) :
    List ((ClientCall ⊕ ServerCall) × (ℕ → UInt8)) :=
  inputs.flatMap fun input => input.1.calls.map fun call => (call, input.2)

/-- A clean run over the lines is carried by a run of the session. -/
theorem stack_run {P : List UInt8 → Prop} (hP : HoldsOfReplies P)
    {stack : Stack clientOptions serverOptions} {session : Session clientOptions serverOptions}
    (h : Carries P stack session) {inputs : List (StackAction × Surroundings)}
    (hclean : (stackMachine _ _).Throughout (Clean P) stack inputs) :
    ∃ js : List (SessionAction × (ℕ → UInt8)),
      Carries P ((stackMachine _ _).final stack inputs) ((sessionMachine _ _).final session js) ∧
      ((stackMachine _ _).outputs stack inputs).flatMap LinkEvents.all =
        ((sessionMachine _ _).outputs session js).flatMap SessionEvents.all ∧
      stackCalls inputs = sessionCalls js :=
  Mealy.outputs_refine (M := stackMachine clientOptions serverOptions) (stack_step hP) h hclean

structure Stack.Quiet (stack : Stack clientOptions serverOptions) : Prop where
  client : stack.client.cmuxInstance.ingressRb.content = []
  server : stack.server.cmuxInstance.ingressRb.content = []
  toServer : stack.toServer = []
  toClient : stack.toClient = []

instance (stack : Stack clientOptions serverOptions) : Decidable stack.Quiet :=
  decidable_of_iff (stack.client.cmuxInstance.ingressRb.content = [] ∧
    stack.server.cmuxInstance.ingressRb.content = [] ∧ stack.toServer = [] ∧ stack.toClient = [])
    ⟨fun h => ⟨h.1, h.2.1, h.2.2.1, h.2.2.2⟩, fun h => ⟨h.1, h.2, h.3, h.4⟩⟩

def Stack.endpoints (stack : Stack clientOptions serverOptions) :
    Session clientOptions serverOptions :=
  ⟨stack.client.client, stack.server.server, [], []⟩

theorem Stack.Quiet.carries {stack : Stack clientOptions serverOptions} (h : stack.Quiet)
    (P : List UInt8 → Prop) : Carries P stack stack.endpoints := by
  refine ⟨rfl, rfl, nofun, nofun, ?_, ?_⟩
  · rw [h.server, h.toServer]
    rfl
  · rw [h.client, h.toClient]
    rfl

def freshStack (clientOptions : CmuxClientOptions) (serverOptions : CmuxServerOptions)
    (ingressBuffer : Vector UInt8 128) : Option (Stack clientOptions serverOptions) := do
  let client ← cmuxClientInstanceInit clientOptions ingressBuffer
  let server ← cmuxServerInstanceInit serverOptions ingressBuffer
  pure ⟨client, server, [], []⟩

theorem freshStack_quiet {ingressBuffer : Vector UInt8 128}
    {stack : Stack clientOptions serverOptions}
    (h : freshStack clientOptions serverOptions ingressBuffer = some stack) : stack.Quiet := by
  obtain ⟨client, hclient, server, hserver, rfl⟩ :
      ∃ client, cmuxClientInstanceInit clientOptions ingressBuffer = some client ∧
        ∃ server, cmuxServerInstanceInit serverOptions ingressBuffer = some server ∧
          ⟨client, server, [], []⟩ = stack := by
    simpa [freshStack, Option.bind_eq_some_iff] using h
  obtain ⟨_, -, rfl⟩ := Option.map_eq_some_iff.mp hclient
  obtain ⟨_, -, rfl⟩ := Option.map_eq_some_iff.mp hserver
  have hcontent := congrArg Window.content (window_init ingressBuffer)
  exact ⟨hcontent, hcontent, rfl, rfl⟩

/-- In every interleaving, and however the lines are cut into ingests, the endpoints are called
back and send as in a session that makes the same calls and delivers whole frames, as long as each
call is proper and each ingest is flush. The octets in the rings and on the lines are those of the
frames under way in the session. -/
theorem stack_refines_session {stack : Stack clientOptions serverOptions} (h : stack.Quiet)
    {inputs : List (StackAction × Surroundings)}
    (hclean : (stackMachine _ _).Throughout (Clean fun _ => True) stack inputs) :
    ∃ js : List (SessionAction × (ℕ → UInt8)),
      Carries (fun _ => True) ((stackMachine _ _).final stack inputs)
        ((sessionMachine _ _).final stack.endpoints js) ∧
      ((stackMachine _ _).outputs stack inputs).flatMap LinkEvents.all =
        ((sessionMachine _ _).outputs stack.endpoints js).flatMap SessionEvents.all ∧
      stackCalls inputs = sessionCalls js :=
  stack_run ⟨fun _ _ => trivial, fun _ => trivial⟩ (h.carries _) hclean

/-- The client starts the session, and the server takes the SABM frame in two parts. -/
def starting : List (StackAction × Surroundings) :=
  [StackAction.client ⟨.start, fun _ h => nomatch h⟩, StackAction.ingestServer 4,
    StackAction.ingestServer 2, StackAction.ingestClient 6].map fun action =>
      (action, ⟨fun _ _ => 0, fun _ => 0, fun _ => 0⟩)

theorem stack_refines_session_starting : ∃ stack,
    freshStack ⟨true, true, true, 64⟩ ⟨true, true, true, 64⟩ (Vector.replicate 128 0) =
      some stack ∧
    ∃ js : List (SessionAction × (ℕ → UInt8)),
      Carries (fun _ => True) ((stackMachine _ _).final stack starting)
        ((sessionMachine _ _).final stack.endpoints js) ∧
      ((stackMachine _ _).outputs stack starting).flatMap LinkEvents.all =
        ((sessionMachine _ _).outputs stack.endpoints js).flatMap SessionEvents.all ∧
      stackCalls starting = sessionCalls js := by
  have hfresh : freshStack ⟨true, true, true, 64⟩ ⟨true, true, true, 64⟩
    (Vector.replicate 128 0) = some _ := rfl
  exact ⟨_, hfresh, stack_refines_session (freshStack_quiet hfresh) (by decide +kernel)⟩

end Stack
end Cmux
