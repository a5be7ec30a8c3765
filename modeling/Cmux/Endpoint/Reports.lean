import Cmux.Endpoint.Delivery
import Cmux.Service.RoundTrip

/-! What the event callbacks are told. The application at one end sees the frames and the service
requests of the application at the other end as they were asked for: a request is encoded, framed,
cut up on its line, found again by the receive buffer, and decoded. -/
namespace Cmux
open Access Access.Prog

/-- The member in use, with an index in the message for a pointer. -/
def ServiceData.placed {π : Type} (index : ℕ) : ServiceData π → ServiceData ℕ
  | none => none
  | parameterNegotiationParameters parameters => parameterNegotiationParameters parameters
  | modemStatus status => modemStatus status
  | portParameters parameters => portParameters parameters
  | lineStatus parameters => lineStatus parameters
  | serviceNegotiationParameters parameters => serviceNegotiationParameters parameters
  | testData data => testData ⟨index, data.length⟩

/-- The request as it is decoded from a message, with its body behind two octets of header. -/
def CmuxServicesRequest.placed {π : Type} (request : CmuxServicesRequest π) :
    CmuxServicesRequest ℕ :=
  ⟨request.service, request.cr, request.serviceData.placed 2⟩

/-! ### Requests -/

section Requests
variable {request : CmuxServicesRequest (ℕ → UInt8)} {m heap : ℕ → UInt8}

/-- A short service that was encoded into an array is decoded from any array that begins with
it. -/
theorem decode_of_encodes (hservice : request.service &&& 0x03 = 0)
    (hshort : (serviceDataEncoder request).1 ≤ 127)
    (h : EncodesService request.service request.cr
      (slice ((serviceDataEncoder request).2.memory heap) 0 (serviceDataEncoder request).1) m) :
    (cmuxServiceRequestDecode (cmuxServiceRequestGetLength request)).value m =
      ⟨request.service, request.cr, (cmuxServiceBodyDecode
        ⟨request.service, request.cr, 2, (serviceDataEncoder request).1⟩).value m⟩ ∧
      slice m 2 (serviceDataEncoder request).1 =
        slice ((serviceDataEncoder request).2.memory heap) 0 (serviceDataEncoder request).1 := by
  obtain ⟨hdecoded, hbody⟩ := cmuxServiceDecode_encoded h
  rw [slice_length, serviceLengthOctets_length, if_neg (Nat.not_lt.mpr hshort)] at hdecoded hbody
  rw [if_neg (Nat.not_lt.mpr hshort), service_masked hservice] at hdecoded
  refine ⟨?_, hbody⟩
  simp only [cmuxServiceRequestDecode, value_bind, value_pure, cmuxServiceDecode_memory]
  rw [cmuxServiceRequestGetLength_eq, hdecoded]

theorem ControlRequest.short (h : ControlRequest request) :
    (serviceDataEncoder request).1 ≤ 127 := by
  cases h with
  | plain hservice cr =>
    rw [(plain_body hservice cr).1]
    exact Nat.zero_le _
  | test cr hlength => exact hlength
  | modemStatus cr hdlci => exact (by decide : modemStatusEncodeLength ≤ 127)
  | lineStatus cr hdlci hstatus => exact (by decide : lineStatusEncodeLength ≤ 127)
  | @serviceNegotiation cr parameters hdlci hservice hvoiceCodec =>
    change serviceNegotiationEncodeLength parameters ≤ 127
    unfold serviceNegotiationEncodeLength
    split <;> decide

/-- A request of documented values is decoded to itself, member for member. -/
theorem decode_placed (h : ControlRequest request) (hcarries : CarriesServiceAndCodec request)
    (hm : EncodesService request.service request.cr
      (slice ((serviceDataEncoder request).2.memory heap) 0 (serviceDataEncoder request).1) m) :
    (cmuxServiceRequestDecode (cmuxServiceRequestGetLength request)).value m = request.placed := by
  obtain ⟨hdecoded, hbody⟩ := decode_of_encodes h.service_clear h.short hm
  rw [hdecoded, CmuxServicesRequest.placed, CmuxServicesRequest.mk.injEq]
  refine ⟨rfl, rfl, ?_⟩
  cases h with
  | plain hservice cr =>
    obtain ⟨hencoder, hdecoder⟩ := plain_body hservice cr
    rw [hencoder, hdecoder]
    rfl
  | test cr hlength => rfl
  | modemStatus cr hdlci =>
    exact congrArg ServiceData.modemStatus (modemStatusDecode_encoded hdlci hbody)
  | lineStatus cr hdlci hstatus =>
    exact congrArg ServiceData.lineStatus (lineStatusDecode_encoded hdlci hstatus hbody)
  | serviceNegotiation cr hdlci hservice hvoiceCodec =>
    have hread := serviceNegotiationDecode_encoded hdlci hservice hvoiceCodec hbody
    have hkept := (serviceNegotiation_kept_iff _).mpr (hcarries _ rfl)
    dsimp only
    rw [serviceNegotiation_body, hread, hkept]
    rfl

end Requests

/-! ### Reports -/

/-- What an event callback is told: the frame, and the request if one was decoded. -/
abbrev Report := FrameInfo × Option (CmuxServicesRequest ℕ)

/-- What the server makes of a whole frame. Only octets of the frame count. -/
def reportOf (octets : List UInt8) : Report :=
  ((messageOf octets).frameInfo, serverRequest (messageOf octets) fun _ => 0)

/-- The request is decoded from octets of the frame alone. -/
def Legible (octets : List UInt8) : Prop :=
  ∀ beyond, serverRequest (messageOf octets) beyond = (reportOf octets).2

def reportsOf (keep : FrameInfo → Bool) (octets : List UInt8) : List Report :=
  if keep (messageOf octets).frameInfo then [reportOf octets] else []

def ServerEvent.reports : ServerEvent → List Report
  | onEvent frameInfo request _ => [(frameInfo, request)]
  | _ => []

/-- The reports to the client of frames that are no replies. -/
def ClientEvent.reports : ClientEvent → List Report
  | onEvent frameInfo request _ => if frameInfo.pollFinal then [] else [(frameInfo, request)]
  | _ => []

/-- The server is told of the frames on its channels. -/
def serverKeeps (maximumDlci : UInt8) (frameInfo : FrameInfo) : Bool :=
  frameInfo.dlci ≤ maximumDlci

/-- The client is told of the frames on the control channel. -/
def clientKeeps (frameInfo : FrameInfo) : Bool := frameInfo.dlci = 0 && !frameInfo.pollFinal

/-- The request that a call sends on the control channel. -/
def ClientCall.services : ClientCall → Option (CmuxServicesRequest (ℕ → UInt8))
  | stop => some ⟨CmuxService.multiplexerCloseDown, true, ServiceData.none⟩
  | request dlci _ services => if dlci = 0 then services else none
  | _ => none

def ServerCall.services : ServerCall → Option (CmuxServicesRequest (ℕ → UInt8))
  | stop => some ⟨CmuxService.multiplexerCloseDown, true, ServiceData.none⟩
  | reply dlci _ services => if dlci = 0 then services else none
  | request dlci _ services => if dlci = 0 then services else none
  | _ => none

def ClientCall.announced (heap : ℕ → UInt8) (call : ClientCall) : Option Report :=
  (call.frameInfo heap).map fun info =>
    (info.wireInfo, call.services.map CmuxServicesRequest.placed)

def ServerCall.announced (heap : ℕ → UInt8) (call : ServerCall) : Option Report :=
  (call.frameInfo heap).map fun info =>
    (info.wireInfo, call.services.map CmuxServicesRequest.placed)

/-- A request of documented values, which names a service together with its codec or neither. -/
def Documented (services : Option (CmuxServicesRequest (ℕ → UInt8))) : Prop :=
  ∀ request ∈ services, ControlRequest request ∧ CarriesServiceAndCodec request

/-- On the control channel only requests of documented values are sent. -/
def ClientCall.Conforms : ClientCall → Prop
  | request dlci _ services => dlci = 0 → Documented services
  | terminalSend dlci _ _ => dlci ≠ 0
  | _ => True

def ServerCall.Conforms : ServerCall → Prop
  | request dlci _ services => dlci = 0 → Documented services
  | reply dlci _ services => dlci = 0 → Documented services
  | terminalSend dlci _ _ => dlci ≠ 0
  | _ => True

/-! ### Frames -/

section Frames
variable {heap : ℕ → UInt8}

/-- A frame that carries no request. -/
theorem sentRequest_none {info : BuilderFrameInfo} (h : Sendable info)
    (hno : info.dlci &&& 0x3F ≠ 0 ∨ info.length = 0) (beyond : ℕ → UInt8) :
    serverRequest (messageOf (builtFrame info heap)) beyond = none := by
  have hmessage : messageOf (builtFrame info heap) = ⟨info.wireInfo, builtFrame info heap⟩ :=
    (h.frame heap).messageOf_octets.1
  rw [hmessage]
  refine if_neg fun hboth => ?_
  obtain hne | h0 := hno
  · exact hne hboth.2
  · exact absurd hboth.1 (by
      change ¬ info.length > 0
      rw [h0]
      decide)

/-- The memory that a whole body is decoded from begins with it. -/
theorem slice_dataMemory {message : ControlMessage}
    (h : message.data.length = message.frameInfo.length.toNat) (beyond : ℕ → UInt8) :
    slice (message.dataMemory beyond) 0 message.frameInfo.length.toNat = message.data := by
  unfold ControlMessage.data at h
  rw [List.length_take] at h
  exact slice_view (by omega)

/-- The request that a frame carries. -/
theorem sentRequest_some {request : CmuxServicesRequest (ℕ → UInt8)}
    (hrequest : ControlRequest request) (hcarries : CarriesServiceAndCodec request)
    {pollFinal : Bool} {type : ControlType}
    (h : Sendable (requestFrame pollFinal 0 type (some request) heap)) (beyond : ℕ → UInt8) :
    serverRequest (messageOf (builtFrame (requestFrame pollFinal 0 type (some request) heap) heap))
      beyond = some request.placed := by
  have hshort := hrequest.short
  have hbounds : 2 ≤ cmuxServiceRequestGetLength request ∧
      cmuxServiceRequestGetLength request ≤ 129 := by
    rw [cmuxServiceRequestGetLength_eq, cmuxServiceEncodeGetLength]
    split <;> omega
  generalize hinfo : requestFrame pollFinal 0 type (some request) heap = info at h ⊢
  obtain ⟨hmessage, hdata⟩ : messageOf (builtFrame info heap) =
      ⟨info.wireInfo, builtFrame info heap⟩ ∧
    (messageOf (builtFrame info heap)).data = info.bodyOctets := (h.frame heap).messageOf_octets
  have hlength : info.length.toNat = cmuxServiceRequestGetLength request := by
    rw [← hinfo]
    exact Nat.mod_eq_of_lt (by omega)
  have hbody : info.bodyOctets = slice ((cmuxServiceRequestEncode request heap).memory heap) 0
      (cmuxServiceRequestGetLength request) := by
    refine BuilderFrameInfo.bodyOctets_of_some ?_ (by rw [slice_length, hlength])
    rw [← hinfo]
    rfl
  generalize hreceived : messageOf (builtFrame info heap) = message at hmessage hdata ⊢
  have hwire : message.frameInfo.length = info.length ∧ message.frameInfo.dlci = 0 := by
    rw [hmessage]
    refine ⟨rfl, ?_⟩
    rw [← hinfo]
    exact (by decide : (0 : UInt8) &&& 0x3F = 0)
  have hpos : message.frameInfo.length > 0 := by
    rw [hwire.1, gt_iff_lt, UInt16.lt_iff_toNat_lt, hlength]
    exact Nat.lt_of_lt_of_le (by decide) hbounds.1
  rw [serverRequest, if_pos ⟨hpos, hwire.2⟩, decodedRequest, hwire.1, hlength]
  have hmemory : slice (message.dataMemory beyond) 0 message.frameInfo.length.toNat =
      message.data := slice_dataMemory (by rw [hdata, hwire.1]; exact h.complete) beyond
  rw [hwire.1, hlength, hdata, hbody] at hmemory
  have hencodes : EncodesService request.service request.cr
      (slice ((serviceDataEncoder request).2.memory heap) 0 (serviceDataEncoder request).1)
      (message.dataMemory beyond) := by
    rw [EncodesService, slice_length, ← cmuxServiceRequestGetLength_eq]
    exact hmemory.trans (cmuxServiceRequestEncode_slice request heap heap)
  exact congrArg some (decode_placed hrequest hcarries hencodes)

/-- What is decoded from the frame of a request. -/
theorem sentRequest {services : Option (CmuxServicesRequest (ℕ → UInt8))} {pollFinal : Bool}
    {dlci : UInt8} {type : ControlType} (hdlci : dlci.toNat < 64)
    (hconforms : dlci = 0 → Documented services)
    (h : Sendable (requestFrame pollFinal dlci type services heap)) (beyond : ℕ → UInt8) :
    serverRequest (messageOf (builtFrame (requestFrame pollFinal dlci type services heap) heap))
      beyond = (if dlci = 0 then services else none).map CmuxServicesRequest.placed := by
  by_cases h0 : dlci = 0
  · subst h0
    rw [if_pos rfl]
    cases services with
    | none => exact sentRequest_none h (Or.inr rfl) beyond
    | some request =>
      obtain ⟨hrequest, hcarries⟩ := hconforms rfl request rfl
      exact sentRequest_some hrequest hcarries h beyond
  · rw [if_neg h0]
    refine sentRequest_none h (Or.inl ?_) beyond
    change dlci &&& 0x3F ≠ 0
    rwa [dlci_sixBits_iff.mpr hdlci]

theorem documented_closeDown (cr : Bool) :
    Documented (some ⟨CmuxService.multiplexerCloseDown, cr, ServiceData.none⟩) := by
  rintro request hrequest
  obtain rfl := Option.some.inj hrequest
  exact ⟨ControlRequest.plain (by decide) cr, fun parameters h => nomatch h⟩

/-- A frame of application data off the control channel. -/
theorem sentRequest_data {cr : Bool} {dlci : UInt8} {data : Option (List UInt8)} {len : ℕ}
    (hdlci : dlci.toNat < 64) (h0 : dlci ≠ 0) (h : Sendable (dataFrame cr dlci data len))
    (beyond : ℕ → UInt8) : serverRequest (messageOf (builtFrame (dataFrame cr dlci data len) heap))
      beyond = none := by
  refine sentRequest_none h (Or.inl ?_) beyond
  change dlci &&& 0x3F ≠ 0
  rwa [dlci_sixBits_iff.mpr hdlci]

theorem clientCall_request {call : ClientCall} {info : BuilderFrameInfo}
    (hinfo : call.frameInfo heap = some info) (hdlci : call.dlci.toNat < 64)
    (hconforms : call.Conforms) (h : Sendable info) (beyond : ℕ → UInt8) :
    serverRequest (messageOf (builtFrame info heap)) beyond =
      call.services.map CmuxServicesRequest.placed := by
  cases call with
  | receive frame => cases hinfo
  | start => cases hinfo; exact sentRequest_none h (Or.inr rfl) beyond
  | stop => cases hinfo; exact sentRequest hdlci (fun _ => documented_closeDown true) h beyond
  | request dlci type services => cases hinfo; exact sentRequest hdlci hconforms h beyond
  | terminalOpen dlci terminalOptions => cases hinfo; exact sentRequest_none h (Or.inr rfl) beyond
  | terminalSend dlci data len => cases hinfo; exact sentRequest_data hdlci hconforms h beyond
  | terminalClose dlci => cases hinfo; exact sentRequest_none h (Or.inr rfl) beyond

theorem serverCall_request {call : ServerCall} {info : BuilderFrameInfo}
    (hreceive : ∀ frame, call ≠ ServerCall.receive frame)
    (hinfo : call.frameInfo heap = some info) (hdlci : call.dlci.toNat < 64)
    (hconforms : call.Conforms) (h : Sendable info) (beyond : ℕ → UInt8) :
    serverRequest (messageOf (builtFrame info heap)) beyond =
      call.services.map CmuxServicesRequest.placed := by
  cases call with
  | receive frame => exact absurd rfl (hreceive frame)
  | stop => cases hinfo; exact sentRequest hdlci (fun _ => documented_closeDown true) h beyond
  | reply dlci type services => cases hinfo; exact sentRequest hdlci hconforms h beyond
  | request dlci type services => cases hinfo; exact sentRequest hdlci hconforms h beyond
  | registerTerminal dlci terminalOptions => cases hinfo
  | terminalSend dlci data len => cases hinfo; exact sentRequest_data hdlci hconforms h beyond
  | terminalClose dlci => cases hinfo; exact sentRequest_none h (Or.inr rfl) beyond

end Frames

/-! ### One step of a session -/

def PlainLegible (octets : List UInt8) : Prop := Plain octets ∧ Legible octets

theorem legible_of_eq {octets : List UInt8} {request : Option (CmuxServicesRequest ℕ)}
    (h : ∀ beyond, serverRequest (messageOf octets) beyond = request) : Legible octets :=
  fun beyond => (h beyond).trans (h _).symm

theorem plainLegible_replies : HoldsOfReplies PlainLegible := by
  refine ⟨fun dlci heap => ⟨plain_replies.1 dlci heap, ?_⟩,
    fun heap => ⟨plain_replies.2 heap, ?_⟩⟩
  · exact legible_of_eq (sentRequest_none (sendable_ua dlci heap) (Or.inr rfl))
  · have hsend := sendable_closeDown true false
    rw [← requestFrame_closeDown true false heap] at hsend
    have hlegible := legible_of_eq
      (sentRequest (by decide) (fun _ => documented_closeDown false) hsend)
    rwa [requestFrame_closeDown] at hlegible

section Session
variable {clientOptions : CmuxClientOptions} {serverOptions : CmuxServerOptions}

theorem serverCallbacks_reports (server : CmuxServer serverOptions) (frameInfo : FrameInfo)
    (request : Option (CmuxServicesRequest ℕ)) (payload : List UInt8) :
    (serverCallbacks server frameInfo request payload).flatMap ServerEvent.reports = [] := by
  simp only [serverCallbacks]
  split_ifs <;> first | rfl | exact flatMap_eventIf rfl _

/-- The event callback of the server is told of a frame on one of its channels. -/
theorem serverReceive_reports (hevent : serverOptions.cmuxServerOnEvent = true)
    (server : CmuxServer serverOptions) {octets : List UInt8} (hlegible : Legible octets)
    (heap : ℕ → UInt8) : (serverOnControlMessage server (messageOf octets) heap).2.events.flatMap
      ServerEvent.reports = reportsOf (serverKeeps serverOptions.maximumDlci) octets := by
  by_cases hgt : (messageOf octets).frameInfo.dlci > serverOptions.maximumDlci
  · have hkeeps : serverKeeps serverOptions.maximumDlci (messageOf octets).frameInfo = false :=
      decide_eq_false (UInt8.not_le.mpr hgt)
    rw [serverOnControlMessage_of_gt server hgt, reportsOf, hkeeps]
    rfl
  · have hkeeps : serverKeeps serverOptions.maximumDlci (messageOf octets).frameInfo = true :=
      decide_eq_true (UInt8.not_lt.mp hgt)
    rw [serverOnControlMessage_events server hgt, List.flatMap_append, List.flatMap_append,
      serverCallbacks_reports, hevent, eventIf, if_pos rfl, reportsOf, hkeeps, if_pos rfl]
    have hreply : ((replyFrame (messageOf octets).frameInfo
        (serverRequest (messageOf octets) heap) heap).elim []
          fun info => (serverSendFrame server info heap).2.events).flatMap
            ServerEvent.reports = [] := by
      cases
          replyFrame (messageOf octets).frameInfo (serverRequest (messageOf octets) heap) heap with
      | none => rfl
      | some info => exact serverSendFrame_hands_nothing (fun _ => rfl) server info heap
    rw [hreply, hlegible heap]
    rfl

/-- That of the client is told of a frame on the control channel. -/
theorem clientReceive_reports (hevent : clientOptions.cmuxClientOnEvent = true)
    (client : CmuxClient clientOptions) {octets : List UInt8} (hlegible : Legible octets)
    (heap : ℕ → UInt8) : (clientOnControlMessage client (messageOf octets) heap).events.flatMap
      ClientEvent.reports = reportsOf clientKeeps octets := by
  by_cases h0 : (messageOf octets).frameInfo.dlci = 0
  · have hle : ¬ (0 : UInt8) > clientOptions.maximumDlci := UInt8.not_lt.mpr (UInt8.zero_le)
    have hstart (condition : Prop) [Decidable condition] :
        (eventIf condition ClientEvent.onStart).flatMap ClientEvent.reports = [] :=
      flatMap_eventIf rfl condition
    have hstop (condition : Prop) [Decidable condition] :
        (eventIf condition ClientEvent.onStop).flatMap ClientEvent.reports = [] :=
      flatMap_eventIf rfl condition
    have hrequest := hlegible heap
    simp only [serverRequest, h0, and_true] at hrequest
    simp only [clientOnControlMessage, h0, if_neg hle, if_true, clientOnControlChannel,
      List.flatMap_append, hrequest, hevent]
    rw [hstart, hstop, List.append_nil, List.append_nil, eventIf, if_pos trivial,
      List.flatMap_singleton, reportsOf, clientKeeps, h0]
    cases hpollFinal : (messageOf octets).frameInfo.pollFinal
    · simp [ClientEvent.reports, hpollFinal, reportOf]
    · simp [ClientEvent.reports, hpollFinal]
  · have hkeeps : clientKeeps (messageOf octets).frameInfo = false := by
      rw [clientKeeps, decide_eq_false h0, Bool.false_and]
    rw [reportsOf, hkeeps, if_neg Bool.false_ne_true]
    simp only [clientOnControlMessage, if_neg h0]
    split_ifs
    · rfl
    · simp only [clientOnTerminal]
      split_ifs <;> first | rfl | exact flatMap_eventIf rfl _

/-- The frames that a call sends are reported as the call announces. -/
theorem sendFrameOctets_reports {frameInfo : Option BuilderFrameInfo} {maximumDlci : UInt8}
    {heap : ℕ → UInt8} {services : Option (CmuxServicesRequest (ℕ → UInt8))}
    (keep : FrameInfo → Bool) (hsends : SendsOnly Plain frameInfo heap)
    (hrange : ∀ info ∈ frameInfo, InRange maximumDlci info.dlci)
    (hrequest : ∀ info ∈ frameInfo, Sendable info → ∀ beyond,
      serverRequest (messageOf (builtFrame info heap)) beyond =
        services.map CmuxServicesRequest.placed) :
    (frameInfo.bind fun info => sendFrameOctets maximumDlci info heap).toList.flatMap
        (reportsOf keep) =
      ((frameInfo.map fun info => (info.wireInfo, services.map CmuxServicesRequest.placed)).filter
        fun report => keep report.1).toList := by
  cases frameInfo with
  | none => rfl
  | some info =>
    have hsendable := (hsends info rfl).1
    have hinfo : (messageOf (builtFrame info heap)).frameInfo = info.wireInfo :=
      congrArg ControlMessage.frameInfo (hsendable.frame heap).messageOf_octets.1
    rw [Option.bind_some, sendFrameOctets_of_le info heap (hrange info rfl).not_gt,
      Option.toList_some, List.flatMap_singleton, reportsOf, reportOf, hinfo,
      hrequest info rfl hsendable, Option.map_some, Option.filter_some]
    split <;> rfl

/-- A reply is reported to no one. -/
theorem serverReply_reports (server : CmuxServer serverOptions) {octets : List UInt8}
    (hvalid : frameAt octets = some octets.length) (heap : ℕ → UInt8) :
    (serverSent (serverOnControlMessage server (messageOf octets) heap).2).flatMap
      (reportsOf clientKeeps) = [] := by
  rw [List.flatMap_eq_nil_iff]
  intro frame hframe
  change frame ∈ serverSent (ServerCall.run (.receive ⟨octets, hvalid⟩) server heap).2 at hframe
  rw [serverSent, serverCall_sent, Option.mem_toList, Option.bind_eq_some_iff] at hframe
  obtain ⟨info, hinfo, hsent⟩ := hframe
  obtain rfl := eq_of_mem_sendFrameOctets hsent
  have hsendable : Sendable info :=
    (replyFrame_sendsOnly (P := fun _ => True) ⟨fun _ _ => trivial, fun _ => trivial⟩ _ _
      info hinfo).1
  have hmessage : (messageOf (builtFrame info heap)).frameInfo = info.wireInfo :=
    congrArg ControlMessage.frameInfo (hsendable.frame heap).messageOf_octets.1
  have hpollFinal : info.wireInfo.pollFinal = true := by
    have hreply : info.pollFinal = true := by
      change replyFrame _ _ _ = some info at hinfo
      unfold replyFrame at hinfo
      split_ifs at hinfo <;> cases hinfo <;> rfl
    rw [BuilderFrameInfo.wireInfo, hreply, Bool.true_or]
  rw [reportsOf, hmessage, clientKeeps, hpollFinal, Bool.not_true, Bool.and_false,
    if_neg Bool.false_ne_true]

def Conforms : ClientCall ⊕ ServerCall → Prop
  | .inl call => call.Conforms
  | .inr call => call.Conforms

/-- What a call of one application asks the other to be told, of the frames `keep` says. -/
def announcedByClient (keep : FrameInfo → Bool) (heap : ℕ → UInt8) :
    ClientCall ⊕ ServerCall → List Report
  | .inl call => ((call.announced heap).filter fun report => keep report.1).toList
  | .inr _ => []

def announcedByServer (keep : FrameInfo → Bool) (heap : ℕ → UInt8) :
    ClientCall ⊕ ServerCall → List Report
  | .inl _ => []
  | .inr call => ((call.announced heap).filter fun report => keep report.1).toList

theorem clientSent_reports {call : ClientCall} {heap : ℕ → UInt8} (keep : FrameInfo → Bool)
    (hproper : Proper clientOptions serverOptions Plain heap (.inl call))
    (hconforms : call.Conforms) (client : CmuxClient clientOptions) :
    (clientSent (call.run client heap).2).flatMap (reportsOf keep) =
      announcedByClient keep heap (.inl call) := by
  obtain ⟨hrange, hsends⟩ := hproper
  rw [clientSent, clientCall_sent]
  refine sendFrameOctets_reports keep hsends (fun info hinfo => ?_) fun info hinfo =>
    clientCall_request hinfo (Nat.lt_of_lt_of_le hrange (Nat.min_le_right _ _)) hconforms
  rw [clientCall_frameInfo_dlci hinfo]
  exact hrange

theorem serverSent_reports {call : ServerCall} {heap : ℕ → UInt8} (keep : FrameInfo → Bool)
    (hproper : Proper clientOptions serverOptions Plain heap (.inr call))
    (hconforms : call.Conforms) (hreceive : ∀ frame, call ≠ ServerCall.receive frame)
    (server : CmuxServer serverOptions) :
    (serverSent (call.run server heap).2).flatMap (reportsOf keep) =
      announcedByServer keep heap (.inr call) := by
  obtain ⟨hrange, hsends⟩ := hproper
  rw [serverSent, serverCall_sent]
  refine sendFrameOctets_reports keep hsends (fun info hinfo => ?_) fun info hinfo =>
    serverCall_request hreceive hinfo (Nat.lt_of_lt_of_le hrange (Nat.min_le_right _ _)) hconforms
  rw [serverCall_frameInfo_dlci hinfo]
  exact hrange

/-- Frames of which a request is known are legible. -/
theorem sendsOnly_plainLegible {frameInfo : Option BuilderFrameInfo} {heap : ℕ → UInt8}
    {request : Option (CmuxServicesRequest ℕ)} (hsends : SendsOnly Plain frameInfo heap)
    (hrequest : ∀ info ∈ frameInfo, Sendable info → ∀ beyond,
      serverRequest (messageOf (builtFrame info heap)) beyond = request) :
    SendsOnly PlainLegible frameInfo heap := by
  intro info hinfo
  obtain ⟨hsendable, hplain⟩ := hsends info hinfo
  exact ⟨hsendable, hplain, fun beyond =>
    (hrequest info hinfo hsendable beyond).trans (hrequest info hinfo hsendable _).symm⟩

theorem proper_plainLegible {action : SessionAction} {heap : ℕ → UInt8}
    {call : ClientCall ⊕ ServerCall} (hcall : call ∈ action.calls)
    (hproper : Proper clientOptions serverOptions Plain heap call) (hconforms : Conforms call) :
    Proper clientOptions serverOptions PlainLegible heap call := by
  cases action with
  | client made =>
    obtain rfl := List.mem_singleton.mp hcall
    obtain ⟨hrange, hsends⟩ := hproper
    exact ⟨hrange, sendsOnly_plainLegible hsends fun info hinfo => clientCall_request hinfo
      (Nat.lt_of_lt_of_le hrange (Nat.min_le_right _ _)) hconforms⟩
  | server made =>
    obtain rfl := List.mem_singleton.mp hcall
    obtain ⟨hrange, hsends⟩ := hproper
    exact ⟨hrange, sendsOnly_plainLegible hsends fun info hinfo => serverCall_request made.2 hinfo
      (Nat.lt_of_lt_of_le hrange (Nat.min_le_right _ _)) hconforms⟩
  | deliverToServer => cases hcall
  | deliverToClient => cases hcall

/-- The calls of a step are proper, and what they send on the control channel is documented. -/
def Informs (clientOptions : CmuxClientOptions) (serverOptions : CmuxServerOptions)
    (heap : ℕ → UInt8) (call : ClientCall ⊕ ServerCall) : Prop :=
  Proper clientOptions serverOptions Plain heap call ∧ Conforms call

/-- In a step nothing that the server is to be told is lost, doubled or reordered. -/
theorem session_toServer_reports (hevent : serverOptions.cmuxServerOnEvent = true)
    {session : Session clientOptions serverOptions} {input : SessionAction × (ℕ → UInt8)}
    (h : UnderWay PlainLegible session)
    (hcalls : ∀ call ∈ input.1.calls, Informs clientOptions serverOptions input.2 call) :
    ((sessionMachine _ _).step session input).2.server.flatMap ServerEvent.reports ++
        ((sessionMachine _ _).step session input).1.toServer.flatMap
          (reportsOf (serverKeeps serverOptions.maximumDlci)) =
      session.toServer.flatMap (reportsOf (serverKeeps serverOptions.maximumDlci)) ++
        input.1.calls.flatMap
          (announcedByClient (serverKeeps serverOptions.maximumDlci) input.2) := by
  refine session_toServer_conserved (fun frame hframe => ?_) (fun call hcall => ?_)
    fun call _ => ⟨serverCall_hands_nothing (fun _ => rfl) call.2 _ _, rfl⟩
  · obtain ⟨hvalid, -, hlegible⟩ := h.toServer frame (List.mem_of_mem_head? hframe)
    rw [(processIngressFrame_eq hvalid input.2).1]
    exact serverReceive_reports hevent session.server hlegible input.2
  · obtain ⟨hproper, hconforms⟩ := hcalls (.inl call.1) (by rw [hcall]; exact List.mem_cons_self)
    exact clientSent_reports _ hproper hconforms session.client

theorem session_toClient_reports (hevent : clientOptions.cmuxClientOnEvent = true)
    {session : Session clientOptions serverOptions} {input : SessionAction × (ℕ → UInt8)}
    (h : UnderWay PlainLegible session)
    (hcalls : ∀ call ∈ input.1.calls, Informs clientOptions serverOptions input.2 call) :
    ((sessionMachine _ _).step session input).2.client.flatMap ClientEvent.reports ++
        ((sessionMachine _ _).step session input).1.toClient.flatMap (reportsOf clientKeeps) =
      session.toClient.flatMap (reportsOf clientKeeps) ++
        input.1.calls.flatMap (announcedByServer clientKeeps input.2) := by
  refine session_toClient_conserved (fun frame hframe => ?_) (fun frame hframe => ?_)
    (fun call hcall => ?_) fun call _ => ⟨clientCall_hands_nothing (fun _ => rfl) call.2 _ _, rfl⟩
  · obtain ⟨hvalid, -, hlegible⟩ := h.toClient frame (List.mem_of_mem_head? hframe)
    rw [(processIngressFrame_eq hvalid input.2).1]
    exact clientReceive_reports hevent session.client hlegible input.2
  · obtain ⟨hvalid, -⟩ := h.toServer frame (List.mem_of_mem_head? hframe)
    rw [(processIngressFrame_eq hvalid input.2).1]
    exact serverReply_reports session.server hvalid input.2
  · obtain ⟨hproper, hconforms⟩ := hcalls (.inr call.1) (by rw [hcall]; exact List.mem_cons_self)
    exact serverSent_reports _ hproper hconforms call.2 session.server

/-! ### Whole runs -/

def announcedToServer (keep : FrameInfo → Bool)
    (calls : List ((ClientCall ⊕ ServerCall) × (ℕ → UInt8))) : List Report :=
  calls.flatMap fun call => announcedByClient keep call.2 call.1

def announcedToClient (keep : FrameInfo → Bool)
    (calls : List ((ClientCall ⊕ ServerCall) × (ℕ → UInt8))) : List Report :=
  calls.flatMap fun call => announcedByServer keep call.2 call.1

theorem session_reports (hclient : clientOptions.cmuxClientOnEvent = true)
    (hserver : serverOptions.cmuxServerOnEvent = true)
    {session : Session clientOptions serverOptions} (h : UnderWay PlainLegible session)
    {inputs : List (SessionAction × (ℕ → UInt8))} (hcalls : ∀ call ∈ sessionCalls inputs,
      Informs clientOptions serverOptions call.2 call.1) :
    (((sessionMachine _ _).outputs session inputs).flatMap fun events =>
        events.server.flatMap ServerEvent.reports) ++
      ((sessionMachine _ _).final session inputs).toServer.flatMap
        (reportsOf (serverKeeps serverOptions.maximumDlci)) =
      session.toServer.flatMap (reportsOf (serverKeeps serverOptions.maximumDlci)) ++
        announcedToServer (serverKeeps serverOptions.maximumDlci) (sessionCalls inputs) ∧
    (((sessionMachine _ _).outputs session inputs).flatMap fun events =>
        events.client.flatMap ClientEvent.reports) ++
      ((sessionMachine _ _).final session inputs).toClient.flatMap (reportsOf clientKeeps) =
      session.toClient.flatMap (reportsOf clientKeeps) ++
        announcedToClient clientKeeps (sessionCalls inputs) := by
  have hinputs : ∀ input ∈ inputs, ∀ call ∈ input.1.calls,
      Informs clientOptions serverOptions input.2 call := fun input hinput call hcall =>
    hcalls (call, input.2) (List.mem_flatMap.mpr ⟨input, hinput, List.mem_map_of_mem hcall⟩)
  have hinforming := (sessionMachine clientOptions serverOptions).throughout_invariant
    (P := UnderWay PlainLegible)
    (fun session input hway hcalls => underWay_step plainLegible_replies session input hway
      fun call hcall => proper_plainLegible hcall (hcalls call hcall).1 (hcalls call hcall).2)
    (fun _ _ hway hcalls => And.intro hway hcalls) h hinputs
  have hto := (sessionMachine clientOptions serverOptions).flatMap_conserved_of
    (f := fun events => events.server.flatMap ServerEvent.reports)
    (q := fun s => s.toServer.flatMap (reportsOf (serverKeeps serverOptions.maximumDlci)))
    (fun _ _ hstep => session_toServer_reports hserver hstep.1 hstep.2) hinforming
  have hfrom := (sessionMachine clientOptions serverOptions).flatMap_conserved_of
    (f := fun events => events.client.flatMap ClientEvent.reports)
    (q := fun s => s.toClient.flatMap (reportsOf clientKeeps))
    (fun _ _ hstep => session_toClient_reports hclient hstep.1 hstep.2) hinforming
  simp only [announcedToServer, announcedToClient, sessionCalls, List.flatMap_assoc,
    List.flatMap_map]
  exact ⟨hto, hfrom⟩

def reporting : List (StackAction × Surroundings) :=
  [StackAction.client ⟨.request 0 ControlType.uih (some ⟨CmuxService.modemStatus, true,
      ServiceData.modemStatus ⟨3, false, true, true, false, true⟩⟩), fun _ h => nomatch h⟩,
    StackAction.ingestServer 5, StackAction.ingestServer 3, StackAction.ingestServer 8,
    StackAction.server ⟨.request 0 ControlType.uih (some ⟨CmuxService.remoteLineStatus, true,
      ServiceData.lineStatus ⟨3, 9⟩⟩), fun _ h => nomatch h⟩,
    StackAction.ingestClient 99].map fun action =>
      (action, ⟨fun _ _ => 0, fun _ => 0, fun _ => 0⟩)

theorem reporting_informs : ∀ call ∈ stackCalls reporting,
    Informs ⟨true, true, true, 64⟩ ⟨true, true, true, 64⟩ call.2 call.1 := by
  have hproper : ∀ call ∈ stackCalls reporting,
      Proper ⟨true, true, true, 64⟩ ⟨true, true, true, 64⟩ Plain call.2 call.1 := by
    decide +kernel
  refine fun call hcall => ⟨hproper call hcall, ?_⟩
  simp only [reporting, stackCalls, List.map_cons, List.map_nil, List.flatMap_cons,
    List.flatMap_nil, StackAction.calls, List.append_nil, List.nil_append, List.cons_append,
    List.mem_cons, List.not_mem_nil, or_false] at hcall
  obtain rfl | rfl := hcall
  · intro _ request hrequest
    obtain rfl := Option.some.inj hrequest
    exact ⟨ControlRequest.modemStatus true (by decide), fun parameters h => nomatch h⟩
  · intro _ request hrequest
    obtain rfl := Option.some.inj hrequest
    exact ⟨ControlRequest.lineStatus true (by decide) (by decide), fun parameters h => nomatch h⟩

end Session
end Cmux
