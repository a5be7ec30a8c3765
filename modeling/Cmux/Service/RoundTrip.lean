import Cmux.Service.Header

/-! Encoding a request and decoding it again, for the control services other than the two
negotiations of parameters. -/
namespace Cmux
open Access Access.Prog

/-- The values of `enum service_negotiation_service`. -/
def serviceNegotiationServices : List UInt8 := [serviceNone, 0b00000010, 0b00000100]

/-- The values of `enum service_negotiation_voice_codec`. -/
def serviceNegotiationVoiceCodecs : List UInt8 :=
  [voiceCodecNone, 0b00000010, 0b00000100, 0b00001000, 0b00010000, 0b00100000, 0b01000000]

def plainServices : List CmuxService :=
  [CmuxService.powerSaving, CmuxService.multiplexerCloseDown, CmuxService.flowControlOn,
    CmuxService.flowControlOff, CmuxService.unsupported]

/-- A request of documented values whose inner DLCI has six bits. -/
inductive ControlRequest : CmuxServicesRequest (ℕ → UInt8) → Prop where
  | plain {service : CmuxService} (h : service ∈ plainServices) (cr : Bool) :
      ControlRequest ⟨service, cr, ServiceData.none⟩
  | test (cr : Bool) {data : TestService (ℕ → UInt8)} (hlength : data.length ≤ 127) :
      ControlRequest ⟨CmuxService.test, cr, ServiceData.testData data⟩
  | modemStatus (cr : Bool) {status : ModemStatus} (hdlci : status.dlci.toNat ≤ 63) :
      ControlRequest ⟨CmuxService.modemStatus, cr, ServiceData.modemStatus status⟩
  | lineStatus (cr : Bool) {parameters : LineStatusParameters}
      (hdlci : parameters.dlci.toNat ≤ 63) (hstatus : parameters.status.toNat ≤ 15) :
      ControlRequest ⟨CmuxService.remoteLineStatus, cr, ServiceData.lineStatus parameters⟩
  | serviceNegotiation (cr : Bool) {parameters : ServiceNegotiationParameters}
      (hdlci : parameters.dlci.toNat ≤ 63)
      (hservice : parameters.service ∈ serviceNegotiationServices)
      (hvoiceCodec : parameters.voiceCodec ∈ serviceNegotiationVoiceCodecs) :
      ControlRequest ⟨CmuxService.serviceNegotiation, cr,
        ServiceData.serviceNegotiationParameters parameters⟩

/-- The member in use, with the octets that its pointer points to. -/
def ServiceData.resolve {π : Type} (read : π → ℕ → List UInt8) :
    ServiceData π → ServiceData (List UInt8)
  | none => none
  | parameterNegotiationParameters parameters => parameterNegotiationParameters parameters
  | modemStatus status => modemStatus status
  | portParameters parameters => portParameters parameters
  | lineStatus parameters => lineStatus parameters
  | serviceNegotiationParameters parameters => serviceNegotiationParameters parameters
  | testData data => testData ⟨read data.data data.length, data.length⟩

def CmuxServicesRequest.resolve {π : Type} (read : π → ℕ → List UInt8)
    (request : CmuxServicesRequest π) : CmuxServicesRequest (List UInt8) :=
  ⟨request.service, request.cr, request.serviceData.resolve read⟩

/-- The decoder gives back the request that the encoder wrote to an array, whatever stood
there and in the array of the body before. -/
def RequestRoundTrips (request : CmuxServicesRequest (ℕ → UInt8)) (heap octets : ℕ → UInt8) :
    Prop :=
  ((cmuxServiceRequestDecode (cmuxServiceRequestGetLength request)).value
      ((cmuxServiceRequestEncode request heap).memory octets)).resolve
        (slice ((cmuxServiceRequestEncode request heap).memory octets)) =
    request.resolve fun data length => slice data 0 length

/-! ### The bodies -/

theorem slice_two {m m' : ℕ → UInt8} {o : ℕ} (h : slice m o 2 = slice m' 0 2) :
    m o = m' 0 ∧ m (o + 1) = m' 1 := by
  simpa [slice_succ] using h

theorem address_decoded {dlci : UInt8} (h : dlci.toNat ≤ 63) :
    ((dlci <<< 2) ||| 0x01 ||| 0x02) >>> 2 = dlci ∧
      (((dlci <<< 2) ||| 0x01 ||| 0x02) &&& 0b11111100) >>> 2 = dlci := by
  have hall : ∀ dlci : UInt8, dlci.toNat ≤ 63 → ((dlci <<< 2) ||| 0x01 ||| 0x02) >>> 2 = dlci ∧
      (((dlci <<< 2) ||| 0x01 ||| 0x02) &&& 0b11111100) >>> 2 = dlci := by decide +kernel
  exact hall dlci h

def ModemStatus.signals (status : ModemStatus) : UInt8 :=
  0b00000001 ||| flagBit status.fc 0b00000010 ||| flagBit status.rtc 0b00000100 |||
    flagBit status.rtr 0b00001000 ||| flagBit status.ic 0b01000000 |||
    flagBit status.dv 0b10000000

theorem modemStatusEncode_memory (status : ModemStatus) (heap : ℕ → UInt8) :
    (modemStatusEncode status).memory heap 0 = (status.dlci <<< 2) ||| 0x01 ||| 0x02 ∧
      (modemStatusEncode status).memory heap 1 = status.signals := by
  obtain ⟨dlci, fc, rtc, rtr, ic, dv⟩ := status
  cases fc <;> cases rtc <;> cases rtr <;> cases ic <;> cases dv <;>
    simp [modemStatusEncode, ModemStatus.signals, flagBit]

theorem ModemStatus.signals_decoded (status : ModemStatus) :
    ((status.signals &&& 0b00000010) != 0) = status.fc ∧
      ((status.signals &&& 0b00000100) != 0) = status.rtc ∧
      ((status.signals &&& 0b00001000) != 0) = status.rtr ∧
      ((status.signals &&& 0b01000000) != 0) = status.ic ∧
      ((status.signals &&& 0b10000000) != 0) = status.dv := by
  obtain ⟨dlci, fc, rtc, rtr, ic, dv⟩ := status
  unfold ModemStatus.signals
  dsimp only
  cases fc <;> cases rtc <;> cases rtr <;> cases ic <;> cases dv <;>
    exact ⟨rfl, rfl, rfl, rfl, rfl⟩

section Bodies
variable {m heap : ℕ → UInt8} {o : ℕ}

theorem modemStatusDecode_encoded {status : ModemStatus} (hdlci : status.dlci.toNat ≤ 63)
    (h : slice m o 2 = slice ((modemStatusEncode status).memory heap) 0 2) :
    (modemStatusDecode o).value m = status := by
  obtain ⟨h0, h1⟩ := slice_two h
  rw [(modemStatusEncode_memory status heap).1] at h0
  rw [(modemStatusEncode_memory status heap).2] at h1
  obtain ⟨hfc, hrtc, hrtr, hic, hdv⟩ := status.signals_decoded
  simp only [modemStatusDecode, value_bind, value_cell, memory_cell, value_pure, h0, h1,
    (address_decoded hdlci).2, hfc, hrtc, hrtr, hic, hdv]

theorem lineStatusDecode_encoded {parameters : LineStatusParameters}
    (hdlci : parameters.dlci.toNat ≤ 63) (hstatus : parameters.status.toNat ≤ 15)
    (h : slice m o 2 = slice ((lineStatusEncode parameters).memory heap) 0 2) :
    (lineStatusDecode o).value m = parameters := by
  obtain ⟨h0, h1⟩ := slice_two h
  have hmask : parameters.status &&& lineStatusMask = parameters.status :=
    octet_and_low (n := 4) rfl (Nat.lt_succ_of_le hstatus)
  simp [lineStatusDecode, lineStatusEncode, h0, h1, (address_decoded hdlci).1, hmask]

/-- A service with a codec takes four octets, anything else is encoded as no service at all. -/
theorem serviceNegotiationDecode_encoded {parameters : ServiceNegotiationParameters}
    (hdlci : parameters.dlci.toNat ≤ 63)
    (hservice : parameters.service ∈ serviceNegotiationServices)
    (hvoiceCodec : parameters.voiceCodec ∈ serviceNegotiationVoiceCodecs)
    (h : slice m o (serviceNegotiationEncodeLength parameters) =
      slice ((serviceNegotiationEncode parameters).memory heap) 0
        (serviceNegotiationEncodeLength parameters)) :
    (serviceNegotiationDecode o).value m =
      if parameters.service ≠ serviceNone ∧ parameters.voiceCodec ≠ voiceCodecNone then parameters
      else ⟨parameters.dlci, serviceNone, voiceCodecNone⟩ := by
  have hmask : ∀ service ∈ serviceNegotiationServices, service &&& serviceValueMask = service := by
    simp only [serviceNegotiationServices, List.forall_mem_cons]
    exact ⟨rfl, rfl, rfl, nofun⟩
  have hcodec : ∀ codec ∈ serviceNegotiationVoiceCodecs, codec &&& voiceCodecMask = codec := by
    simp only [serviceNegotiationVoiceCodecs, List.forall_mem_cons]
    exact ⟨rfl, rfl, rfl, rfl, rfl, rfl, rfl, nofun⟩
  unfold serviceNegotiationEncodeLength serviceNegotiationEncode at h
  split_ifs at h ⊢
  · simp [slice_succ] at h
    simp [serviceNegotiationDecode, h, (address_decoded hdlci).1, hmask _ hservice,
      hcodec _ hvoiceCodec]
  · simp [slice_succ] at h
    simp [serviceNegotiationDecode, h, (address_decoded hdlci).1]

end Bodies

/-! ### Requests -/

section Request
variable {request : CmuxServicesRequest (ℕ → UInt8)} (heap octets : ℕ → UInt8)

/-- The header of a short request is read back, and its body stands behind it as encoded. -/
theorem cmuxServiceRequestDecode_encoded (hservice : request.service &&& 0x03 = 0)
    (hshort : (serviceDataEncoder request).1 ≤ 127) :
    (cmuxServiceRequestDecode (cmuxServiceRequestGetLength request)).value
        ((cmuxServiceRequestEncode request heap).memory octets) =
      ⟨request.service, request.cr, (cmuxServiceBodyDecode
        ⟨request.service, request.cr, 2, (serviceDataEncoder request).1⟩).value
          ((cmuxServiceRequestEncode request heap).memory octets)⟩ ∧
      slice ((cmuxServiceRequestEncode request heap).memory octets) 2
          (serviceDataEncoder request).1 =
        slice ((serviceDataEncoder request).2.memory heap) 0 (serviceDataEncoder request).1 := by
  obtain ⟨hdecoded, hbody⟩ := cmuxServiceDecode_encoded (cmuxServiceEncode_slice request.service
    request.cr (slice ((serviceDataEncoder request).2.memory heap) 0
      (serviceDataEncoder request).1) octets)
  rw [slice_length, serviceLengthOctets_length, if_neg (Nat.not_lt.mpr hshort)] at hdecoded hbody
  rw [if_neg (Nat.not_lt.mpr hshort), service_masked hservice] at hdecoded
  refine ⟨?_, hbody⟩
  simp only [cmuxServiceRequestDecode, value_bind, value_pure, cmuxServiceDecode_memory]
  rw [cmuxServiceRequestGetLength_eq, cmuxServiceRequestEncode, hdecoded]

/-- A negotiation names a service together with its codec, or neither. -/
def CarriesServiceAndCodec (request : CmuxServicesRequest (ℕ → UInt8)) : Prop :=
  ∀ parameters, request.serviceData = ServiceData.serviceNegotiationParameters parameters →
    (parameters.service = serviceNone ↔ parameters.voiceCodec = voiceCodecNone)

theorem ControlRequest.service_clear (h : ControlRequest request) :
    request.service &&& 0x03 = 0 := by
  cases h with
  | plain h cr =>
    have hplain : ∀ service ∈ plainServices, service &&& 0x03 = 0 := by
      simp only [plainServices, List.forall_mem_cons]
      exact ⟨rfl, rfl, rfl, rfl, rfl, nofun⟩
    exact hplain _ h
  | test | modemStatus | lineStatus | serviceNegotiation =>
    dsimp only
    decide

/-- A short request survives when its body does. -/
theorem requestRoundTrips_iff_body (hservice : request.service &&& 0x03 = 0)
    (hshort : (serviceDataEncoder request).1 ≤ 127) : RequestRoundTrips request heap octets ↔
      ((cmuxServiceBodyDecode
          ⟨request.service, request.cr, 2, (serviceDataEncoder request).1⟩).value
          ((cmuxServiceRequestEncode request heap).memory octets)).resolve
            (slice ((cmuxServiceRequestEncode request heap).memory octets)) =
        request.serviceData.resolve fun data length => slice data 0 length := by
  rw [RequestRoundTrips, (cmuxServiceRequestDecode_encoded heap octets hservice hshort).1]
  simp only [CmuxServicesRequest.resolve, CmuxServicesRequest.mk.injEq, true_and]

theorem plain_body {service : CmuxService} (h : service ∈ plainServices) (cr : Bool) :
    serviceDataEncoder ⟨service, cr, ServiceData.none⟩ = (0, pure ()) ∧
      cmuxServiceBodyDecode ⟨service, cr, 2, 0⟩ = pure ServiceData.none := by
  simp only [plainServices, List.mem_cons, List.not_mem_nil, or_false] at h
  rcases h with rfl | rfl | rfl | rfl | rfl <;> exact ⟨rfl, rfl⟩

theorem serviceNegotiation_body (cr : Bool) (length : ℕ) (m : ℕ → UInt8) :
    (cmuxServiceBodyDecode ⟨CmuxService.serviceNegotiation, cr, 2, length⟩).value m =
      ServiceData.serviceNegotiationParameters ((serviceNegotiationDecode 2).value m) := by
  change (serviceNegotiationDecode 2 >>= fun parameters =>
    pure (ServiceData.serviceNegotiationParameters parameters)).value m = _
  rw [value_bind, value_pure]

/-- What the short form of a negotiation keeps. -/
theorem serviceNegotiation_kept_iff (parameters : ServiceNegotiationParameters) :
    (if parameters.service ≠ serviceNone ∧ parameters.voiceCodec ≠ voiceCodecNone then parameters
      else ⟨parameters.dlci, serviceNone, voiceCodecNone⟩) = parameters ↔
      (parameters.service = serviceNone ↔ parameters.voiceCodec = voiceCodecNone) := by
  obtain ⟨dlci, service, voiceCodec⟩ := parameters
  by_cases hnone : service = serviceNone
  · by_cases hcodec : voiceCodec = voiceCodecNone
    · simp [hnone, hcodec]
    · simp [hnone, hcodec, eq_comm]
  · by_cases hcodec : voiceCodec = voiceCodecNone
    · simp [hnone, hcodec, eq_comm]
    · simp [hnone, hcodec]

/-- A request of documented values survives encoding and decoding exactly when it is not a
negotiation with one of service and codec missing. -/
theorem requestRoundTrips_iff (h : ControlRequest request) :
    RequestRoundTrips request heap octets ↔ CarriesServiceAndCodec request := by
  have hclear := h.service_clear
  cases h with
  | @plain service hservice cr =>
    refine iff_of_true ?_ fun parameters h => absurd h (by simp)
    obtain ⟨hencoder, hdecoder⟩ := plain_body hservice cr
    rw [requestRoundTrips_iff_body heap octets hclear (by rw [hencoder]; exact Nat.zero_le _),
      hencoder, hdecoder]
    rfl
  | @test cr data hlength =>
    refine iff_of_true ?_ fun parameters h => absurd h (by simp)
    obtain ⟨-, hbody⟩ := cmuxServiceRequestDecode_encoded heap octets hclear hlength
    apply (requestRoundTrips_iff_body heap octets hclear hlength).mpr
    have hcopy : slice ((copy 0 (slice data.data 0 data.length)).memory heap) 0 data.length =
        slice data.data 0 data.length := by
      simpa using slice_memory_copy heap 0 (slice data.data 0 data.length)
    exact congrArg (fun xs => ServiceData.testData ⟨xs, data.length⟩) (hbody.trans hcopy)
  | @modemStatus cr status hdlci =>
    refine iff_of_true ?_ fun parameters h => absurd h (by simp)
    have hshort : modemStatusEncodeLength ≤ 127 := by decide
    obtain ⟨-, hbody⟩ := cmuxServiceRequestDecode_encoded heap octets hclear hshort
    apply (requestRoundTrips_iff_body heap octets hclear hshort).mpr
    exact congrArg ServiceData.modemStatus (modemStatusDecode_encoded hdlci hbody)
  | @lineStatus cr parameters hdlci hstatus =>
    refine iff_of_true ?_ fun parameters h => absurd h (by simp)
    have hshort : lineStatusEncodeLength ≤ 127 := by decide
    obtain ⟨-, hbody⟩ := cmuxServiceRequestDecode_encoded heap octets hclear hshort
    apply (requestRoundTrips_iff_body heap octets hclear hshort).mpr
    exact congrArg ServiceData.lineStatus (lineStatusDecode_encoded hdlci hstatus hbody)
  | @serviceNegotiation cr parameters hdlci hservice hvoiceCodec =>
    have hshort : serviceNegotiationEncodeLength parameters ≤ 127 := by
      unfold serviceNegotiationEncodeLength
      split <;> decide
    obtain ⟨-, hbody⟩ := cmuxServiceRequestDecode_encoded heap octets hclear hshort
    have hdecoded := serviceNegotiationDecode_encoded hdlci hservice hvoiceCodec hbody
    have hcarries : CarriesServiceAndCodec ⟨CmuxService.serviceNegotiation, cr,
        ServiceData.serviceNegotiationParameters parameters⟩ ↔
          (parameters.service = serviceNone ↔ parameters.voiceCodec = voiceCodecNone) := by
      simp [CarriesServiceAndCodec]
    rw [hcarries]
    rw [requestRoundTrips_iff_body heap octets hclear hshort]
    dsimp only
    rw [serviceNegotiation_body, hdecoded, ServiceData.resolve, ServiceData.resolve,
      ServiceData.serviceNegotiationParameters.injEq]
    exact serviceNegotiation_kept_iff parameters

end Request

def dataNegotiation (voiceCodec : UInt8) : CmuxServicesRequest (ℕ → UInt8) :=
  ⟨CmuxService.serviceNegotiation, true,
    ServiceData.serviceNegotiationParameters ⟨5, 0b00000010, voiceCodec⟩⟩

theorem dataNegotiation_control {voiceCodec : UInt8}
    (h : voiceCodec ∈ serviceNegotiationVoiceCodecs) :
    ControlRequest (dataNegotiation voiceCodec) :=
  ControlRequest.serviceNegotiation true (by decide : (5 : UInt8).toNat ≤ 63)
    (by decide : (0b00000010 : UInt8) ∈ serviceNegotiationServices) h

theorem requestRoundTrips_dataNegotiation :
    RequestRoundTrips (dataNegotiation 0b01000000) (fun _ => 0) (fun _ => 0) ↔
      CarriesServiceAndCodec (dataNegotiation 0b01000000) :=
  requestRoundTrips_iff _ _ (dataNegotiation_control (by decide))

/-- A data service without a codec is read back as no service. -/
theorem not_requestRoundTrips_dataNegotiation :
    ControlRequest (dataNegotiation voiceCodecNone) ∧
      ¬ RequestRoundTrips (dataNegotiation voiceCodecNone) (fun _ => 0) (fun _ => 0) := by
  refine ⟨dataNegotiation_control (by decide), ?_⟩
  unfold RequestRoundTrips
  decide +kernel

end Cmux
