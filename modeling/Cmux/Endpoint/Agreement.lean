import Mathlib.Data.List.Forall2
import Cmux.Endpoint.Link

/-! When client and server agree on the life cycle of the terminals. The link refines the
abstract pipeline: the recorded frame is what the client remembers, and the frames under way
are its requests and replies. -/
namespace Cmux
open Pipeline

def LinkAction.abstract : LinkAction → Pipeline.Action UInt8 Lifecycle
  | terminalOpen dlci => .send dlci (some Lifecycle.opened)
  | terminalSend dlci _ _ => .send dlci none
  | terminalClose dlci => .send dlci (some Lifecycle.closed)
  | deliverToServer => .handle
  | deliverToClient => .acknowledge

def Requests (maximumDlci : UInt8) (octets : List UInt8)
    (request : UInt8 × Option Lifecycle) : Prop :=
  TerminalDlci maximumDlci request.1 ∧ IsFrame (frameType request.2) request.1 octets

def Replies (maximumDlci : UInt8) (reply : Reply) (abstract : UInt8 × Lifecycle) : Prop :=
  TerminalDlci maximumDlci abstract.1 ∧ IsFrame ControlType.ua abstract.1 reply.octets ∧
    IsFrame (frameType (some abstract.2)) abstract.1 reply.answers

variable {clientOptions : CmuxClientOptions} {serverOptions : CmuxServerOptions}

structure Simulates (link : Link clientOptions serverOptions)
    (pipe : Pipeline.State UInt8 Lifecycle) : Prop where
  remembered : ∀ d, TerminalDlci clientOptions.maximumDlci d →
    pipe.remembered d = commandOf (link.client.lastFrameInfo d).type
  requests : List.Forall₂ (Requests clientOptions.maximumDlci) link.toServer pipe.requests
  replies : List.Forall₂ (Replies clientOptions.maximumDlci) link.toClient pipe.replies
  client : ∀ d, TerminalDlci clientOptions.maximumDlci d → pipe.remembered d ≠ none →
    link.client.terminalOption d = allTerminalCallbacks
  server : link.server.Registered

/-! ### What a received frame does -/

def frameEvent (dlci : UInt8) (payload : List UInt8) : Option Lifecycle → ServerEvent
  | some Lifecycle.opened => ServerEvent.onTerminalOpen dlci
  | some Lifecycle.closed => ServerEvent.onTerminalClose dlci
  | none => ServerEvent.onTerminalData dlci payload

theorem frameEvent_lifecycle (dlci k : UInt8) (payload : List UInt8)
    (command : Option Lifecycle) :
    ((frameEvent dlci payload command).lifecycle? k).toList =
      command.toList.flatMap (onChannel k dlci) := by
  rcases command with _ | _ | _
  · rfl
  · by_cases h : dlci = k <;> simp [frameEvent, ServerEvent.lifecycle?, onChannel, h]
  · by_cases h : dlci = k <;> simp [frameEvent, ServerEvent.lifecycle?, onChannel, h]

theorem frameEvent_sent (dlci : UInt8) (payload : List UInt8) (command : Option Lifecycle) :
    (frameEvent dlci payload command).sent? = none := by
  rcases command with _ | _ | _ <;> rfl

section Server
variable {server : CmuxServer serverOptions} {frameInfo : FrameInfo}

/-- The callback of a frame on a terminal whose callbacks are all registered. -/
theorem serverCallbacks_frame (h0 : frameInfo.dlci ≠ 0)
    (hoptions : server.terminalOption frameInfo.dlci = ⟨true, true, true⟩)
    {command : Option Lifecycle} (htype : frameInfo.type = frameType command)
    (payload : List UInt8) :
    serverCallbacks server frameInfo none payload =
      [frameEvent frameInfo.dlci payload command] := by
  rw [serverCallbacks, htype, hoptions, if_neg h0, if_pos h0]
  rcases command with _ | _ | _ <;> rfl

/-- Its reply is an UA to each command. -/
theorem replyFrame_frame (h0 : frameInfo.dlci ≠ 0) {command : Option Lifecycle}
    (htype : frameInfo.type = frameType command) (heap : ℕ → UInt8) :
    replyFrame frameInfo none heap =
      command.map fun _ => requestFrame true frameInfo.dlci ControlType.ua none heap := by
  rw [replyFrame_terminal h0, htype]
  rcases command with _ | _ | _ <;> rfl

/-- A received frame registers no callbacks. -/
theorem serverOnControlMessage_terminalOptions (server : CmuxServer serverOptions)
    (m : ControlMessage) (heap : ℕ → UInt8) :
    (serverOnControlMessage server m heap).1.terminalOptions = server.terminalOptions := by
  rw [serverOnControlMessage_state]
  cases replyFrame m.frameInfo (serverRequest m heap) heap <;> rfl

/-- Everything that a frame on a registered terminal makes the server call. -/
theorem serverOnControlMessage_frame {d : UInt8}
    (hd : TerminalDlci serverOptions.maximumDlci d) (hserver : server.Registered)
    {m : ControlMessage} (hdlci : m.frameInfo.dlci = d) {command : Option Lifecycle}
    (htype : m.frameInfo.type = frameType command) (heap : ℕ → UInt8) :
    (serverOnControlMessage server m heap).2.events =
      eventIf serverOptions.cmuxServerOnEvent
          (ServerEvent.onEvent m.frameInfo none (server.lastFrameInfo d)) ++
        frameEvent d m.data command :: command.toList.map fun _ =>
          ServerEvent.sendToInterface
            (builtFrame (requestFrame true d ControlType.ua none heap) heap) := by
  subst hdlci
  have h0 := terminalDlci_ne_zero hd
  rw [serverOnControlMessage_events server (terminalDlci_le hd), serverRequest_of_ne h0,
    serverCallbacks_frame h0 (hserver _ hd) htype, replyFrame_frame h0 htype, List.append_assoc,
    List.singleton_append]
  cases command with
  | none => rfl
  | some command =>
    have hsent := sendFrameOctets_of_le
      (requestFrame true m.frameInfo.dlci ControlType.ua none heap) heap (terminalDlci_le hd)
    simp only [Option.map_some, Option.elim_some, serverSendFrame, hsent]
    rfl

end Server

section Shown
variable {server : CmuxServer serverOptions} {d : UInt8}
  (hd : TerminalDlci serverOptions.maximumDlci d) (hserver : server.Registered)
  {m : ControlMessage} (hdlci : m.frameInfo.dlci = d) {command : Option Lifecycle}
  (htype : m.frameInfo.type = frameType command) (heap : ℕ → UInt8)
include hd hserver hdlci htype

/-- An UA goes out for each command. -/
theorem serverOnControlMessage_sent :
    (serverOnControlMessage server m heap).2.events.filterMap ServerEvent.sent? =
      command.toList.map fun _ =>
        builtFrame (requestFrame true d ControlType.ua none heap) heap := by
  rw [serverOnControlMessage_frame hd hserver hdlci htype heap, List.filterMap_append,
    filterMap_eventIf rfl, List.nil_append, List.filterMap_cons, frameEvent_sent]
  cases command <;> rfl

theorem serverOnControlMessage_lifecycle (k : UInt8) :
    (serverOnControlMessage server m heap).2.events.filterMap (ServerEvent.lifecycle? k) =
      command.toList.flatMap (onChannel k d) := by
  have hua : (command.toList.map fun _ => ServerEvent.sendToInterface
      (builtFrame (requestFrame true d ControlType.ua none heap) heap)).filterMap
        (ServerEvent.lifecycle? k) = [] := by
    cases command <;> rfl
  rw [serverOnControlMessage_frame hd hserver hdlci htype heap, List.filterMap_append,
    filterMap_eventIf rfl, List.nil_append, ← List.singleton_append, List.filterMap_append, hua,
    List.append_nil, ← frameEvent_lifecycle d k m.data command]
  cases h : (frameEvent d m.data command).lifecycle? k <;> simp [h]

end Shown

section Client
variable {client : CmuxClient clientOptions}

/-- An UA calls back for the recorded command. -/
theorem clientOnControlMessage_ua {d : UInt8} (hd : TerminalDlci clientOptions.maximumDlci d)
    {command : Option Lifecycle} (hlast : commandOf (client.lastFrameInfo d).type = command)
    (hclient : command ≠ none → client.terminalOption d = allTerminalCallbacks)
    {m : ControlMessage} (hdlci : m.frameInfo.dlci = d)
    (htype : m.frameInfo.type = ControlType.ua) (heap : ℕ → UInt8) (k : UInt8) :
    (clientOnControlMessage client m heap).events.filterMap (ClientEvent.lifecycle? k) =
      command.toList.flatMap (onChannel k d) := by
  subst hdlci
  simp only [clientOnControlMessage, if_neg (terminalDlci_le hd),
    if_neg (terminalDlci_ne_zero hd), clientOnTerminal, htype, if_true]
  cases command with
  | none =>
    unfold commandOf at hlast
    split_ifs at hlast with hsabm hdisc
    rw [if_neg hsabm, if_neg hdisc]
    rfl
  | some command =>
    rw [hclient (by simp), commandOf_eq_some.mp hlast]
    by_cases h : m.frameInfo.dlci = k
    · cases command <;>
        simp [frameType, ControlType.sabm, ControlType.disc, allTerminalCallbacks, eventIf,
          ClientEvent.lifecycle?, onChannel, h]
    · cases command <;>
        simp [frameType, ControlType.sabm, ControlType.disc, allTerminalCallbacks, eventIf,
          ClientEvent.lifecycle?, onChannel, h]

end Client

/-! ### Steps -/

def LinkEvents.shown (k : UInt8) (events : LinkEvents) : List Lifecycle × List Lifecycle :=
  (clientLifecycle k events, serverLifecycle k events)

def shownOn (k : UInt8) (event : Option (Pipeline.Event UInt8 Lifecycle)) :
    List Lifecycle × List Lifecycle :=
  (Event.acknowledgedOn k event, Event.handledOn k event)

section Step
variable {link : Link clientOptions serverOptions} {pipe : Pipeline.State UInt8 Lifecycle}

theorem frameType_pollFinal_clear (message : Option Lifecycle) :
    frameType message &&& controlTypePollFinal = 0 := by
  rcases message with _ | _ | _ <;> rfl

/-- A call that sends is a message of the pipeline. -/
theorem callClient_simulates (hsim : Simulates link pipe) (call : ClientCall)
    {heap : ℕ → UInt8} {info : BuilderFrameInfo} (hinfo : call.frameInfo heap = some info)
    (hd : TerminalDlci clientOptions.maximumDlci info.dlci) (message : Option Lifecycle)
    (htype : info.type = frameType message)
    (hoption : (call.run link.client heap).1.terminalOption info.dlci = allTerminalCallbacks)
    (hother : ∀ e, TerminalDlci clientOptions.maximumDlci e → e ≠ info.dlci →
      (call.run link.client heap).1.terminalOption e = link.client.terminalOption e) :
    Simulates (link.callClient call heap).1
        (pipeline.step pipe (.send info.dlci message)).1 ∧
      ∀ k, (link.callClient call heap).2.shown k =
        shownOn k (pipeline.step pipe (.send info.dlci message)).2 := by
  obtain ⟨hstatuses, hevents⟩ := clientCall_sends hinfo link.client
  have hsent := sendFrameOctets_of_le info heap (terminalDlci_le hd)
  have hlast : ∀ e, TerminalDlci clientOptions.maximumDlci e →
      (call.run link.client heap).1.lastFrameInfo e =
        if info.dlci = e then info else link.client.lastFrameInfo e := by
    intro e he
    rw [CmuxClient.lastFrameInfo, hstatuses]
    exact lookup_sendFrameStatuses _ (by have := he.2; omega)
  have hqueue : (link.callClient call heap).1.toServer =
      link.toServer ++ [builtFrame info heap] := by
    simp only [Link.callClient, hevents, hsent]
    rfl
  refine ⟨?_, fun k => ?_⟩
  rotate_left
  · simp only [LinkEvents.shown, clientLifecycle, Link.callClient, hevents, hsent]
    rfl
  constructor
  case remembered =>
    intro e he
    change Function.update pipe.remembered info.dlci message e = _
    rw [show (link.callClient call heap).1.client = (call.run link.client heap).1 from rfl,
      hlast e he]
    by_cases h : e = info.dlci
    · subst h
      rw [Function.update_self, if_pos rfl, htype, commandOf_frameType]
    · rw [Function.update_of_ne h, if_neg (Ne.symm h), hsim.remembered e he]
  case requests =>
    rw [hqueue]
    refine List.rel_append hsim.requests (List.Forall₂.cons ⟨hd, ?_⟩ List.Forall₂.nil)
    rw [← htype]
    exact isFrame_builtFrame (by have := hd.2; omega)
      (by rw [htype]; exact frameType_pollFinal_clear message) heap
  case replies => exact hsim.replies
  case client =>
    intro e he hne
    change (call.run link.client heap).1.terminalOption e = _
    by_cases h : e = info.dlci
    · rw [h, hoption]
    · rw [hother e he h]
      apply hsim.client e he
      rwa [show (pipeline.step pipe (.send info.dlci message)).1.remembered e =
        pipe.remembered e from Function.update_of_ne h _ _] at hne
  case server => exact hsim.server

/-- What the server does with a frame is what the responder does with a message. -/
theorem deliverToServer_simulates (hmax : serverOptions.maximumDlci = clientOptions.maximumDlci)
    (hsim : Simulates link pipe) (heap : ℕ → UInt8) :
    Simulates (link.run .deliverToServer heap).1 (pipeline.step pipe .handle).1 ∧
      ∀ k, (link.run .deliverToServer heap).2.shown k =
        shownOn k (pipeline.step pipe .handle).2 := by
  obtain ⟨client, server, toServer, toClient⟩ := link
  obtain ⟨remembered, requests, replies⟩ := pipe
  obtain ⟨hremembered, hrequests, hreplies, hclient, hserver⟩ := hsim
  dsimp only at hremembered hrequests hreplies hclient hserver
  cases hrequests with
  | nil => exact ⟨⟨hremembered, List.Forall₂.nil, hreplies, hclient, hserver⟩, fun k => rfl⟩
  | @cons frame request toServer requests hhead htail =>
    obtain ⟨d, command⟩ := request
    obtain ⟨hd, hframe⟩ := hhead
    dsimp only at hd hframe
    obtain ⟨hdlci, htype⟩ := processIngressFrame_isFrame hframe heap
    have hd' : TerminalDlci serverOptions.maximumDlci d := hmax ▸ hd
    have hsent := serverOnControlMessage_sent hd' hserver hdlci htype heap
    have hlife := serverOnControlMessage_lifecycle hd' hserver hdlci htype heap
    have hserver' : (serverOnControlMessage server (processIngressFrame frame heap).1
        heap).1.Registered := by
      intro e he
      rw [CmuxServer.terminalOption, serverOnControlMessage_terminalOptions]
      exact hserver e he
    cases command with
    | none =>
      refine ⟨⟨hremembered, htail, ?_, hclient, hserver'⟩, fun k => Prod.ext rfl (hlife k)⟩
      change List.Forall₂ _ (toClient ++ List.map _ _) replies
      rw [hsent]
      simpa using hreplies
    | some command =>
      refine ⟨⟨hremembered, htail, ?_, hclient, hserver'⟩, fun k => Prod.ext rfl ?_⟩
      · change List.Forall₂ _ (toClient ++ List.map _ _) (replies ++ [(d, command)])
        rw [hsent]
        refine List.rel_append hreplies (List.Forall₂.cons ⟨hd, ?_, hframe⟩ List.Forall₂.nil)
        exact isFrame_builtFrame (by have := hd.2; simp only [requestFrame]; omega)
          (by decide : ControlType.ua &&& controlTypePollFinal = 0) heap
      · exact (hlife k).trans (List.append_nil _)

/-- What the client makes of an UA is what the requester makes of an acknowledgement. -/
theorem deliverToClient_simulates (hsim : Simulates link pipe) (heap : ℕ → UInt8) :
    Simulates (link.run .deliverToClient heap).1 (pipeline.step pipe .acknowledge).1 ∧
      ∀ k, (link.run .deliverToClient heap).2.shown k =
        shownOn k (pipeline.step pipe .acknowledge).2 := by
  obtain ⟨client, server, toServer, toClient⟩ := link
  obtain ⟨remembered, requests, replies⟩ := pipe
  obtain ⟨hremembered, hrequests, hreplies, hclient, hserver⟩ := hsim
  dsimp only at hremembered hrequests hreplies hclient hserver
  cases hreplies with
  | nil => exact ⟨⟨hremembered, hrequests, List.Forall₂.nil, hclient, hserver⟩, fun k => rfl⟩
  | @cons reply answer toClient replies hhead htail =>
    obtain ⟨d, command⟩ := answer
    obtain ⟨hd, hua, -⟩ := hhead
    dsimp only at hd hua
    obtain ⟨hdlci, htype⟩ := processIngressFrame_isFrame hua heap
    refine ⟨⟨hremembered, hrequests, htail, hclient, hserver⟩, fun k => Prod.ext ?_ rfl⟩
    have hlife := clientOnControlMessage_ua hd (hremembered d hd).symm (hclient d hd) hdlci htype
      heap k
    refine hlife.trans ?_
    change _ = (onChannel k d (command, remembered d)).filterMap Prod.snd
    by_cases h : d = k
    · cases remembered d <;> simp [onChannel, h]
    · cases remembered d <;> simp [onChannel, h]

/-- The condition on the link is that of the pipeline. -/
theorem acknowledgesLast_iff (hsim : Simulates link pipe) {k : UInt8}
    (hk : TerminalDlci clientOptions.maximumDlci k) (input : LinkAction × (ℕ → UInt8)) :
    AcknowledgesLast k link input ↔ Remembers k pipe input.1.abstract := by
  have haction : input.1.abstract = .acknowledge ↔ input.1 = .deliverToClient := by
    cases input.1 <;> simp [LinkAction.abstract]
  rw [AcknowledgesLast, Remembers, haction]
  refine imp_congr_right fun _ => ?_
  obtain ⟨remembered, requests, replies⟩ := pipe
  have hremembered := hsim.remembered k hk
  have hreplies := hsim.replies
  dsimp only at hremembered hreplies ⊢
  generalize link.toClient = toClient at hreplies ⊢
  cases hreplies with
  | nil => simp
  | @cons reply answer toClient replies hhead htail =>
    obtain ⟨d, command⟩ := answer
    obtain ⟨-, hua, hanswers⟩ := hhead
    dsimp only at hua hanswers
    simp only [List.head?_cons, Option.mem_some_iff, Option.some.injEq, Prod.mk.injEq, forall_eq',
      isFrame_iff hua, true_and]
    constructor
    · rintro h command' ⟨rfl, rfl⟩
      rw [hremembered, commandOf_eq_some]
      exact ((isFrame_iff hanswers).mp (h rfl)).1
    · rintro h rfl
      rw [isFrame_iff hanswers, and_iff_left rfl, ← commandOf_eq_some, ← hremembered]
      exact h command ⟨rfl, rfl⟩

/-- What a run of the claims' kind allows a step to be: a call on a terminal opens it or
finds its callbacks registered. -/
def Admissible (link : Link clientOptions serverOptions) (input : LinkAction × (ℕ → UInt8)) :
    Prop :=
  ∀ d ∈ input.1.dlci, TerminalDlci clientOptions.maximumDlci d ∧
    (input.1 = LinkAction.terminalOpen d ∨
      link.client.terminalOption d = allTerminalCallbacks)

theorem clientTerminalOpen_option {client : CmuxClient clientOptions} {d e : UInt8}
    (hd : ¬ d > clientOptions.maximumDlci) (he : TerminalDlci clientOptions.maximumDlci e)
    (heap : ℕ → UInt8) :
    (cmuxClientTerminalOpen client d (some allTerminalCallbacks) heap).1.terminalOption e =
      if d = e then allTerminalCallbacks else client.terminalOption e := by
  rw [cmuxClientTerminalOpen, if_neg hd]
  exact lookup_update client.terminalOptions _ _ (by have := he.2; omega)

/-- One step of the link is one step of the pipeline. -/
theorem link_simulates (hmax : serverOptions.maximumDlci = clientOptions.maximumDlci)
    (hsim : Simulates link pipe) {input : LinkAction × (ℕ → UInt8)}
    (hinput : Admissible link input) :
    Simulates ((linkMachine clientOptions serverOptions).step link input).1
        (pipeline.step pipe input.1.abstract).1 ∧
      ∀ k, ((linkMachine clientOptions serverOptions).step link input).2.shown k =
        shownOn k (pipeline.step pipe input.1.abstract).2 := by
  obtain ⟨action, heap⟩ := input
  cases action with
  | terminalOpen d =>
    obtain ⟨hd, -⟩ := hinput d rfl
    refine callClient_simulates hsim (.terminalOpen d (some allTerminalCallbacks)) rfl hd
      (some Lifecycle.opened) rfl ?_ fun e he hne => ?_
    · exact (clientTerminalOpen_option (terminalDlci_le hd) hd heap).trans (if_pos rfl)
    · exact (clientTerminalOpen_option (terminalDlci_le hd) he heap).trans (if_neg hne.symm)
  | terminalSend d data len =>
    obtain ⟨hd, hoption⟩ := hinput d rfl
    exact callClient_simulates hsim (.terminalSend d data len) rfl hd none rfl
      (hoption.resolve_left (by simp)) fun _ _ _ => rfl
  | terminalClose d =>
    obtain ⟨hd, hoption⟩ := hinput d rfl
    exact callClient_simulates hsim (.terminalClose d) rfl hd (some Lifecycle.closed) rfl
      (hoption.resolve_left (by simp)) fun _ _ _ => rfl
  | deliverToServer => exact deliverToServer_simulates hmax hsim heap
  | deliverToClient => exact deliverToClient_simulates hsim heap

end Step

/-! ### Runs -/

section Run
variable {client : CmuxClient clientOptions} {server : CmuxServer serverOptions}
  {inputs : List (LinkAction × (ℕ → UInt8))}

theorem mem_opens {action : LinkAction} {d : UInt8} :
    d ∈ action.opens ↔ action = LinkAction.terminalOpen d := by
  cases action <;> simp [LinkAction.opens, eq_comm]

/-- Only an opening call changes the callbacks of a terminal. -/
theorem run_terminalOption (link : Link clientOptions serverOptions) {action : LinkAction}
    (hrange : ∀ d ∈ action.dlci, TerminalDlci clientOptions.maximumDlci d) (heap : ℕ → UInt8)
    {e : UInt8} (he : TerminalDlci clientOptions.maximumDlci e) :
    (link.run action heap).1.client.terminalOption e =
      if e ∈ action.opens then allTerminalCallbacks else link.client.terminalOption e := by
  cases action with
  | terminalOpen d =>
    have hmem : e ∈ (LinkAction.terminalOpen d).opens ↔ d = e := by
      rw [mem_opens, LinkAction.terminalOpen.injEq]
    simp only [hmem]
    exact clientTerminalOpen_option (terminalDlci_le (hrange d rfl)) he heap
  | terminalSend d data len => rfl
  | terminalClose d => rfl
  | deliverToServer =>
    simp only [Link.run]
    split <;> rfl
  | deliverToClient =>
    simp only [Link.run]
    split <;> rfl

theorem throughout_admissible {opened : List UInt8} {link : Link clientOptions serverOptions}
    (hrange : ∀ input ∈ inputs, ∀ d ∈ input.1.dlci, TerminalDlci clientOptions.maximumDlci d)
    (hfirst : OpensFirst opened (inputs.map Prod.fst))
    (hopened : ∀ d ∈ opened, TerminalDlci clientOptions.maximumDlci d ∧
      link.client.terminalOption d = allTerminalCallbacks) :
    (linkMachine clientOptions serverOptions).Throughout Admissible link inputs := by
  induction inputs generalizing opened link with
  | nil => trivial
  | cons input inputs ih =>
    obtain ⟨hdlci, hrange⟩ := List.forall_mem_cons.mp hrange
    obtain ⟨hfirst, hrest⟩ := hfirst
    have hadmissible : Admissible link input := by
      intro d hd
      refine ⟨hdlci d hd, ?_⟩
      rcases List.mem_append.mp (hfirst d hd) with hopens | hmem
      · exact Or.inl (mem_opens.mp hopens)
      · exact Or.inr (hopened d hmem).2
    refine ⟨hadmissible, ih hrange hrest ?_⟩
    intro e he
    have hterminal : TerminalDlci clientOptions.maximumDlci e := by
      rcases List.mem_append.mp he with hopens | hmem
      · exact hdlci e (by rw [mem_opens.mp hopens]; rfl)
      · exact (hopened e hmem).1
    refine ⟨hterminal, (run_terminalOption link hdlci input.2 hterminal).trans ?_⟩
    split
    next => rfl
    next hnot => exact (hopened e ((List.mem_append.mp he).resolve_left hnot)).2

theorem simulates_init (hclient : cmuxClientInit clientOptions = some client)
    (hserver : server.Registered) : Simulates ⟨client, server, [], []⟩ ⟨fun _ => none, [], []⟩ := by
  refine ⟨fun d _ => ?_, List.Forall₂.nil, List.Forall₂.nil, fun _ _ h => absurd rfl h, hserver⟩
  unfold cmuxClientInit at hclient
  split at hclient
  · cases hclient
  · cases hclient
    rw [CmuxClient.lastFrameInfo, lookup_replicate]
    rfl

/-- Whenever nothing is under way, client and server have made the same life cycle callbacks
for a DLCI exactly when every UA on it came while the command it answers was the frame
recorded last. -/
theorem lifecycles_agree_iff (hmax : serverOptions.maximumDlci = clientOptions.maximumDlci)
    (hclient : cmuxClientInit clientOptions = some client) (hserver : server.Registered)
    (hrange : ∀ input ∈ inputs, ∀ d ∈ input.1.dlci, TerminalDlci clientOptions.maximumDlci d)
    (hfirst : OpensFirst [] (inputs.map Prod.fst))
    (hend : ((linkMachine _ _).final ⟨client, server, [], []⟩ inputs).toServer = [] ∧
      ((linkMachine _ _).final ⟨client, server, [], []⟩ inputs).toClient = [])
    {d : UInt8} (hd : TerminalDlci clientOptions.maximumDlci d) :
    ((linkMachine _ _).outputs ⟨client, server, [], []⟩ inputs).flatMap (clientLifecycle d) =
        ((linkMachine _ _).outputs ⟨client, server, [], []⟩ inputs).flatMap (serverLifecycle d) ↔
      (linkMachine _ _).Throughout (AcknowledgesLast d) ⟨client, server, [], []⟩ inputs := by
  have hadmissible : (linkMachine clientOptions serverOptions).Throughout Admissible
      ⟨client, server, [], []⟩ inputs :=
    throughout_admissible hrange hfirst fun e he => absurd he List.not_mem_nil
  have hinit := simulates_init hclient hserver
  obtain ⟨hfinal, hshown⟩ := Mealy.outputs_simulation (N := pipeline) (R := Simulates)
    (f := fun input => input.1.abstract)
    (fun link pipe input hsim hinput =>
      (link_simulates hmax hsim hinput).imp_right fun h => h d) hinit hadmissible
  have hcondition : (linkMachine clientOptions serverOptions).Throughout (AcknowledgesLast d)
      ⟨client, server, [], []⟩ inputs ↔ _ :=
    Mealy.throughout_simulation (N := pipeline) (R := Simulates)
      (f := fun input => input.1.abstract)
      (fun link pipe input hsim hinput => (link_simulates hmax hsim hinput).1)
      (fun link pipe input hsim _ => acknowledgesLast_iff hsim hd input) hinit hadmissible
  have hrequests := hfinal.requests
  have hreplies := hfinal.replies
  rw [hend.1, List.forall₂_nil_left_iff] at hrequests
  rw [hend.2, List.forall₂_nil_left_iff] at hreplies
  have hfst := congrArg (List.flatMap Prod.fst) hshown
  have hsnd := congrArg (List.flatMap Prod.snd) hshown
  rw [List.flatMap_map, List.flatMap_map] at hfst hsnd
  rw [hcondition, ← acknowledged_eq_handled_iff d ⟨rfl, rfl⟩ ⟨hrequests, hreplies⟩]
  exact Eq.congr hfst hsnd

end Run

/-! ### Data sent before the acknowledgement of a command -/

def pairedClient : CmuxClient ⟨true, true, true, 2⟩ := (cmuxClientInit _).get (by decide)

def pairedServer : CmuxServer ⟨true, true, true, 2⟩ :=
  (cmuxServerRegisterTerminal ((cmuxServerInit _).get (by decide)) 1
    (some ⟨true, true, true⟩)).1

/-- The terminal is opened and sent to, and the UA comes before the data or behind it. -/
def openingActions (waits : Bool) : List (LinkAction × (ℕ → UInt8)) :=
  (if waits then
    [.terminalOpen 1, .deliverToServer, .deliverToClient, .terminalSend 1 (some [7]) 1,
      .deliverToServer]
  else
    [.terminalOpen 1, .terminalSend 1 (some [7]) 1, .deliverToServer, .deliverToServer,
      .deliverToClient]).map fun action => (action, fun _ => 0)

theorem lifecycles_agree_openingActions :
    ((linkMachine _ _).outputs ⟨pairedClient, pairedServer, [], []⟩
        (openingActions true)).flatMap (clientLifecycle 1) =
      ((linkMachine _ _).outputs ⟨pairedClient, pairedServer, [], []⟩
        (openingActions true)).flatMap (serverLifecycle 1) :=
  (lifecycles_agree_iff rfl rfl (by decide +kernel) (by decide +kernel) (by decide +kernel)
    (by decide +kernel) (by decide)).mpr (by decide +kernel)

/-- The client does not call back for a command when it has sent data since. -/
theorem not_lifecycles_agree_openingActions :
    cmuxClientInit ⟨true, true, true, 2⟩ = some pairedClient ∧ pairedServer.Registered ∧
      (∀ input ∈ openingActions false, ∀ d ∈ input.1.dlci, TerminalDlci 2 d) ∧
      OpensFirst [] ((openingActions false).map Prod.fst) ∧
      ((linkMachine _ _).final ⟨pairedClient, pairedServer, [], []⟩
        (openingActions false)).toServer = [] ∧
      ((linkMachine _ _).final ⟨pairedClient, pairedServer, [], []⟩
        (openingActions false)).toClient = [] ∧
      ((linkMachine _ _).outputs ⟨pairedClient, pairedServer, [], []⟩
        (openingActions false)).flatMap (clientLifecycle 1) ≠
      ((linkMachine _ _).outputs ⟨pairedClient, pairedServer, [], []⟩
        (openingActions false)).flatMap (serverLifecycle 1) :=
  ⟨rfl, by decide +kernel, by decide +kernel, by decide +kernel, by decide +kernel,
    by decide +kernel, by decide +kernel⟩

end Cmux
