import Cmux.Service.RemotePortNegotiation

/-! The service header of `cmux_service_codec.c` and the requests of
`cmux_service_request_codec.c`. -/
namespace Cmux
open Access Access.Prog

def cmuxServiceMask : UInt8 := 0b11111100

/-- `enum CMUX_SERVICE`. The decoder takes any masked octet for one. -/
abbrev CmuxService := UInt8

namespace CmuxService

def parameterNegotiation : CmuxService := 0b10000000
def powerSaving : CmuxService := 0b01000000
def multiplexerCloseDown : CmuxService := 0b11000000
def test : CmuxService := 0b00100000
def flowControlOn : CmuxService := 0b10100000
def flowControlOff : CmuxService := 0b01100000
def modemStatus : CmuxService := 0b11100000
def unsupported : CmuxService := 0b00010000
def remotePortNegotiation : CmuxService := 0b10010000
def remoteLineStatus : CmuxService := 0b01010000
def serviceNegotiation : CmuxService := 0b11010000

end CmuxService

/-- `struct decoded_service_t`. The body pointer is its index in the message; in the zeroed
record it is the null pointer, which nothing follows. -/
structure DecodedService where
  service : CmuxService
  cr : Bool
  serviceBody : ℕ
  serviceBodyLength : ℕ
  deriving DecidableEq, Repr

def cmuxServiceDecodeLength : Prog UInt8 (ℕ × UInt16) := do
  let low ← cell 1
  if (low &&& 0x01) == 0 then do
    let high ← cell 2
    pure (3, (low >>> 1).toUInt16 ||| high.toUInt16 <<< 8)
  else pure (2, (low >>> 1).toUInt16)

/-- `cmux_service_decode` of a message said to hold `length` octets. The announced length is
compared with it for a warning only. -/
def cmuxServiceDecode (length : ℕ) : Prog UInt8 DecodedService :=
  if length = 0 then pure ⟨0, false, 0, 0⟩
  else do
    let header ← cell 0
    let (frameIndex, serviceLength) ← cmuxServiceDecodeLength
    pure ⟨header &&& cmuxServiceMask, (header &&& 0x02) != 0, frameIndex, serviceLength.toNat⟩

def cmuxServiceEncodeGetLength (serviceDataLength : ℕ) : ℕ :=
  let header := 1
  let length := if serviceDataLength > 127 then 2 else 1
  header + length + serviceDataLength

/-- The length octets of a service, with the index behind them. -/
def cmuxServiceEncodeLength (serviceDataLength : ℕ) : Prog UInt8 ℕ :=
  if serviceDataLength > 127 then do
    store 1 ((serviceDataLength &&& 0b01111111) <<< 1).toUInt8
    store 2 ((serviceDataLength &&& 0b0111111110000000) >>> 7).toUInt8
    pure 3
  else do
    store 1 ((serviceDataLength <<< 1) ||| 0x01).toUInt8
    pure 2

def cmuxServiceEncode (service : CmuxService) (cr : Bool) (serviceData : List UInt8) :
    Prog UInt8 Unit := do
  store 0 ((service &&& cmuxServiceMask) ||| 0x01)
  if cr then setBits 0 0x02
  let frameIndex ← cmuxServiceEncodeLength serviceData.length
  copy frameIndex serviceData

/-- `struct test_service_t`, for pointers of type `π`: the memory seen through it in a
request to encode, the index in the message in a decoded one. -/
structure TestService (π : Type) where
  data : π
  length : ℕ
  deriving DecidableEq, Repr

/-- The union in `cmux_services_request_t`, as the member in use. -/
inductive ServiceData (π : Type) where
  | none
  | parameterNegotiationParameters (parameters : ParameterNegotiationParameters)
  | modemStatus (status : ModemStatus)
  | portParameters (parameters : RemotePortParameters)
  | lineStatus (parameters : LineStatusParameters)
  | serviceNegotiationParameters (parameters : ServiceNegotiationParameters)
  | testData (data : TestService π)
  deriving DecidableEq, Repr

structure CmuxServicesRequest (π : Type) where
  service : CmuxService
  cr : Bool
  serviceData : ServiceData π
  deriving DecidableEq, Repr

def CmuxServicesRequest.zero {π : Type} : CmuxServicesRequest π := ⟨0, false, ServiceData.none⟩

def cmuxServiceBodyDecode (decoded : DecodedService) : Prog UInt8 (ServiceData ℕ) :=
  if decoded.service = CmuxService.parameterNegotiation then do
    let parameters ← parameterNegotiationDecode decoded.serviceBody
    pure (ServiceData.parameterNegotiationParameters parameters)
  else if decoded.service = CmuxService.test then
    pure (ServiceData.testData ⟨decoded.serviceBody, decoded.serviceBodyLength⟩)
  else if decoded.service = CmuxService.modemStatus then do
    let status ← modemStatusDecode decoded.serviceBody
    pure (ServiceData.modemStatus status)
  else if decoded.service = CmuxService.remotePortNegotiation then do
    let parameters ← portNegotiationDecode decoded.serviceBody RemotePortParameters.zero
    pure (ServiceData.portParameters parameters)
  else if decoded.service = CmuxService.remoteLineStatus then do
    let parameters ← lineStatusDecode decoded.serviceBody
    pure (ServiceData.lineStatus parameters)
  else if decoded.service = CmuxService.serviceNegotiation then do
    let parameters ← serviceNegotiationDecode decoded.serviceBody
    pure (ServiceData.serviceNegotiationParameters parameters)
  else pure ServiceData.none

/-- `cmux_service_request_decode` into a zeroed request, as both endpoints call it. -/
def cmuxServiceRequestDecode (len : ℕ) : Prog UInt8 (CmuxServicesRequest ℕ) := do
  let decoded ← cmuxServiceDecode len
  let serviceData ← cmuxServiceBodyDecode decoded
  pure ⟨decoded.service, decoded.cr, serviceData⟩

/-! ### Encoding -/

namespace ServiceData
variable {π : Type}

def getParameterNegotiationParameters : ServiceData π → ParameterNegotiationParameters
  | parameterNegotiationParameters parameters => parameters
  | _ => ⟨0, 0, 0, 0, 0, 0, 0, 0⟩

def getModemStatus : ServiceData π → ModemStatus
  | modemStatus status => status
  | _ => ⟨0, false, false, false, false, false⟩

def getPortParameters : ServiceData π → RemotePortParameters
  | portParameters parameters => parameters
  | _ => RemotePortParameters.zero

def getLineStatus : ServiceData π → LineStatusParameters
  | lineStatus parameters => parameters
  | _ => ⟨0, 0⟩

def getServiceNegotiationParameters : ServiceData π → ServiceNegotiationParameters
  | serviceNegotiationParameters parameters => parameters
  | _ => ⟨0, 0, 0⟩

def getTestData : ServiceData (ℕ → UInt8) → TestService (ℕ → UInt8)
  | testData data => data
  | _ => ⟨fun _ => 0, 0⟩

end ServiceData

/-- The switch of `cmux_service_request_get_length`. A member of the union that is not in use
reads as zeros. -/
def serviceDataLength (request : CmuxServicesRequest (ℕ → UInt8)) : ℕ :=
  if request.service = CmuxService.parameterNegotiation then parameterNegotiationEncodeLength
  else if request.service = CmuxService.test then request.serviceData.getTestData.length
  else if request.service = CmuxService.modemStatus then modemStatusEncodeLength
  else if request.service = CmuxService.remotePortNegotiation then
    portNegotiationEncodeLength request.serviceData.getPortParameters
  else if request.service = CmuxService.remoteLineStatus then lineStatusEncodeLength
  else if request.service = CmuxService.serviceNegotiation then
    serviceNegotiationEncodeLength request.serviceData.getServiceNegotiationParameters
  else 0

def cmuxServiceRequestGetLength (request : CmuxServicesRequest (ℕ → UInt8)) : ℕ :=
  cmuxServiceEncodeGetLength (serviceDataLength request)

/-- The switch of `cmux_service_request_encode`: the length of the array that it allocates for
the body, and what it encodes there. -/
def serviceDataEncoder (request : CmuxServicesRequest (ℕ → UInt8)) : ℕ × Prog UInt8 Unit :=
  if request.service = CmuxService.parameterNegotiation then
    (parameterNegotiationEncodeLength,
      parameterNegotiationEncode request.serviceData.getParameterNegotiationParameters)
  else if request.service = CmuxService.test then
    let test := request.serviceData.getTestData
    (test.length, copy 0 (slice test.data 0 test.length))
  else if request.service = CmuxService.modemStatus then
    (modemStatusEncodeLength, modemStatusEncode request.serviceData.getModemStatus)
  else if request.service = CmuxService.remotePortNegotiation then
    let parameters := request.serviceData.getPortParameters
    (portNegotiationEncodeLength parameters, portNegotiationEncode parameters)
  else if request.service = CmuxService.remoteLineStatus then
    (lineStatusEncodeLength, lineStatusEncode request.serviceData.getLineStatus)
  else if request.service = CmuxService.serviceNegotiation then
    let parameters := request.serviceData.getServiceNegotiationParameters
    (serviceNegotiationEncodeLength parameters, serviceNegotiationEncode parameters)
  else (0, pure ())

/-- `cmux_service_request_encode`. The body is encoded into an array allocated at `heap`. -/
def cmuxServiceRequestEncode (request : CmuxServicesRequest (ℕ → UInt8)) (heap : ℕ → UInt8) :
    Prog UInt8 Unit :=
  cmuxServiceEncode request.service request.cr
    (slice ((serviceDataEncoder request).2.memory heap) 0 (serviceDataEncoder request).1)

/-- The two switches take the same branch and ask it for the same length. -/
theorem serviceDataLength_eq (request : CmuxServicesRequest (ℕ → UInt8)) :
    serviceDataLength request = (serviceDataEncoder request).1 := by
  unfold serviceDataLength serviceDataEncoder
  split_ifs <;> rfl

theorem cmuxServiceRequestGetLength_eq (request : CmuxServicesRequest (ℕ → UInt8)) :
    cmuxServiceRequestGetLength request =
      cmuxServiceEncodeGetLength (serviceDataEncoder request).1 :=
  congrArg cmuxServiceEncodeGetLength (serviceDataLength_eq request)

end Cmux
