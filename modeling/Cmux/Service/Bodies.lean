import Mathlib.Data.Int.Notation
import Cmux.Foundation.Access

/-! The bodies of the control services, from `services/`. A decoder is handed the position
of the body in the array, an encoder an array of its own. -/
namespace Cmux
open Access Access.Prog

/-! ### Parameter negotiation -/

structure ParameterNegotiationParameters where
  dlci : UInt8
  frameType : UInt8
  layerType : UInt8
  priority : UInt8
  ackTimerMsec : UInt32
  maxFrameSize : UInt16
  maxRetransmissions : UInt8
  windowSize : UInt8
  deriving DecidableEq, Repr

def parameterNegotiationDecode (octets : ℕ) : Prog UInt8 ParameterNegotiationParameters := do
  let dlci ← cell octets
  let types ← cell (octets + 1)
  let priority ← cell (octets + 2)
  let acknowledgementTimer ← cell (octets + 3)
  let frameSizeLow ← cell (octets + 4)
  let frameSizeHigh ← cell (octets + 5)
  let maximumRetransmissions ← cell (octets + 6)
  let windowSize ← cell (octets + 7)
  pure {
    dlci := dlci &&& 0b00111111
    frameType := types &&& 0b00001111
    layerType := (types &&& 0b11110000) >>> 4
    priority := priority &&& 0b00111111
    ackTimerMsec := acknowledgementTimer.toUInt32 * 100
    maxFrameSize := frameSizeLow.toUInt16 ||| frameSizeHigh.toUInt16 <<< 8
    maxRetransmissions := maximumRetransmissions
    windowSize := windowSize &&& 0b00000111 }

def parameterNegotiationEncodeLength : ℕ := 8

def parameterNegotiationEncode (parameters : ParameterNegotiationParameters) :
    Prog UInt8 Unit := do
  store 0 (parameters.dlci &&& 0b00111111)
  store 1 ((parameters.frameType &&& 0b00001111 : UInt8) |||
    (parameters.layerType &&& 0b00001111 : UInt8) <<< 4)
  store 2 (parameters.priority &&& 0b00111111)
  store 3 (parameters.ackTimerMsec / 100).toUInt8
  store 4 (parameters.maxFrameSize &&& 0b11111111).toUInt8
  store 5 ((parameters.maxFrameSize >>> 8) &&& 0b11111111).toUInt8
  store 6 parameters.maxRetransmissions
  store 7 (parameters.windowSize &&& 0b00000111)

/-! ### Modem status -/

structure ModemStatus where
  dlci : UInt8
  fc : Bool
  rtc : Bool
  rtr : Bool
  ic : Bool
  dv : Bool
  deriving DecidableEq, Repr

def modemStatusDecode (octets : ℕ) : Prog UInt8 ModemStatus := do
  let address ← cell octets
  let signals ← cell (octets + 1)
  pure {
    dlci := (address &&& 0b11111100) >>> 2
    fc := (signals &&& 0b00000010) != 0
    rtc := (signals &&& 0b00000100) != 0
    rtr := (signals &&& 0b00001000) != 0
    ic := (signals &&& 0b01000000) != 0
    dv := (signals &&& 0b10000000) != 0 }

def modemStatusEncodeLength : ℕ := 2

def setBits (index : ℕ) (mask : UInt8) : Prog UInt8 Unit := do
  let octet ← cell index
  store index (octet ||| mask)

def keepBits (index : ℕ) (mask : UInt8) : Prog UInt8 Unit := do
  let octet ← cell index
  store index (octet &&& mask)

@[simp] theorem setBits_memory (index : ℕ) (mask : UInt8) (m : ℕ → UInt8) :
    (setBits index mask).memory m = Function.update m index (m index ||| mask) := rfl

@[simp] theorem keepBits_memory (index : ℕ) (mask : UInt8) (m : ℕ → UInt8) :
    (keepBits index mask).memory m = Function.update m index (m index &&& mask) := rfl

def modemStatusEncode (status : ModemStatus) : Prog UInt8 Unit := do
  store 0 ((status.dlci <<< 2) ||| 0x01 ||| 0x02)
  store 1 0
  setBits 1 0b00000001
  if status.fc then setBits 1 0b00000010
  if status.rtc then setBits 1 0b00000100
  if status.rtr then setBits 1 0b00001000
  if status.ic then setBits 1 0b01000000
  if status.dv then setBits 1 0b10000000

/-! ### Remote line status -/

def lineStatusMask : UInt8 := 0b00001111

structure LineStatusParameters where
  dlci : UInt8
  status : UInt8
  deriving DecidableEq, Repr

def lineStatusDecode (octets : ℕ) : Prog UInt8 LineStatusParameters := do
  let address ← cell octets
  let status ← cell (octets + 1)
  pure { dlci := address >>> 2, status := status &&& lineStatusMask }

def lineStatusEncodeLength : ℕ := 2

def lineStatusEncode (status : LineStatusParameters) : Prog UInt8 Unit := do
  store 0 ((status.dlci <<< 2) ||| 0x01 ||| 0x02)
  store 1 (status.status &&& lineStatusMask)

/-! ### Service negotiation -/

def serviceValueMask : UInt8 := 0b11111110

def voiceCodecMask : UInt8 := 0b11111110

def serviceNone : UInt8 := 0b00000000

def voiceCodecNone : UInt8 := 0b00000000

structure ServiceNegotiationParameters where
  dlci : UInt8
  service : UInt8
  voiceCodec : UInt8
  deriving DecidableEq, Repr

def serviceNegotiationDecode (octets : ℕ) : Prog UInt8 ServiceNegotiationParameters := do
  let length ← cell octets
  let address ← cell (octets + 1)
  if length = 3 then do
    let service ← cell (octets + 2)
    let voiceCodec ← cell (octets + 3)
    pure {
      dlci := address >>> 2
      service := service &&& serviceValueMask
      voiceCodec := voiceCodec &&& voiceCodecMask }
  else pure { dlci := address >>> 2, service := serviceNone, voiceCodec := voiceCodecNone }

def serviceNegotiationEncodeLength (parameters : ServiceNegotiationParameters) : ℕ :=
  if parameters.service ≠ serviceNone ∧ parameters.voiceCodec ≠ voiceCodecNone then 3 + 1
  else 1 + 1

def serviceNegotiationEncode (parameters : ServiceNegotiationParameters) : Prog UInt8 Unit := do
  if parameters.service ≠ serviceNone ∧ parameters.voiceCodec ≠ voiceCodecNone then do
    store 0 3
    store 2 parameters.service
    store 3 parameters.voiceCodec
  else store 0 1
  store 1 ((parameters.dlci <<< 2) ||| 0b00000001 ||| 0b00000010)

end Cmux
