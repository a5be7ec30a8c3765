import Cmux.Service.Bodies

/-! The body of the remote port negotiation service, `remote_parameter_negotiation.c`. -/
namespace Cmux
open Access Access.Prog

/-- A value with the flag that says whether it takes part in the negotiation. -/
structure Setting (α : Type) where
  value : α
  isSet : Bool
  deriving DecidableEq, Repr

/-- `enum remote_parameter_parity`. A record may hold any value of the underlying type. -/
abbrev RemoteParameterParity := UInt32

namespace RemoteParameterParity

def odd : RemoteParameterParity := 0b00000000
def even : RemoteParameterParity := 0b00000001
def mark : RemoteParameterParity := 0b00000010
def space : RemoteParameterParity := 0b00000011
def none : RemoteParameterParity := 0b11111111

end RemoteParameterParity

structure DirectionFlowControl where
  xonXoff : Setting Bool
  rtr : Setting Bool
  rtc : Setting Bool
  deriving DecidableEq, Repr

structure FlowControl where
  xon : Setting UInt8
  xoff : Setting UInt8
  input : DirectionFlowControl
  output : DirectionFlowControl
  deriving DecidableEq, Repr

structure RemotePortParameters where
  dlci : UInt8
  speed : Setting UInt32
  dataBits : Setting UInt8
  stopBits : Setting UInt8
  parity : Setting RemoteParameterParity
  flowControl : FlowControl
  deriving DecidableEq, Repr

def RemotePortParameters.zero : RemotePortParameters :=
  ⟨0, ⟨0, false⟩, ⟨0, false⟩, ⟨0, false⟩, ⟨0, false⟩,
    ⟨⟨0, false⟩, ⟨0, false⟩, ⟨⟨false, false⟩, ⟨false, false⟩, ⟨false, false⟩⟩,
      ⟨⟨false, false⟩, ⟨false, false⟩, ⟨false, false⟩⟩⟩⟩

def baudRates : Vector UInt32 9 :=
  #v[2400, 4800, 7200, 9600, 19200, 38400, 57600, 115200, 230400]

/-- `get_baud_rate_key`, with `none` for its `-1`. -/
def getBaudRateKey (baudRate : UInt32) : Option UInt8 :=
  (baudRates.toList.findIdx? (· = baudRate)).map Nat.toUInt8

def decodeParity (line : UInt8) : RemoteParameterParity :=
  if (line &&& 0b00001000) >>> 3 = 0 then RemoteParameterParity.none
  else
    match (line &&& 0b00110000) >>> 4 with
    | 0 => RemoteParameterParity.odd
    | 1 => RemoteParameterParity.even
    | 2 => RemoteParameterParity.mark
    | _ => RemoteParameterParity.space

/-- The eight octets behind the length, into a record that keeps what they do not set. -/
def portNegotiationDecodeValues (octets : ℕ) (parameters : RemotePortParameters) :
    Prog UInt8 RemotePortParameters := do
  let baud ← cell (octets + 2)
  let line ← cell (octets + 3)
  let flc ← cell (octets + 4)
  let xonChar ← cell (octets + 5)
  let xoffChar ← cell (octets + 6)
  let pm1 ← cell (octets + 7)
  let pm2 ← cell (octets + 8)
  let speed :=
    if h : baud.toNat < 9 then baudRates.get ⟨baud.toNat, h⟩ else parameters.speed.value
  pure { parameters with
    speed := ⟨speed, (pm1 &&& 0b00000001) != 0⟩
    dataBits := ⟨5 + (line &&& 0b00000011), (pm1 &&& 0b00000010) != 0⟩
    stopBits :=
      ⟨if (line &&& 0b00000100) >>> 2 = 0 then 1 else 15, (pm1 &&& 0b00000100) != 0⟩
    parity := ⟨decodeParity line, (pm1 &&& 0b00011000) != 0⟩
    flowControl := {
      xon := ⟨xonChar, (pm1 &&& 0b00100000) != 0⟩
      xoff := ⟨xoffChar, (pm1 &&& 0b01000000) != 0⟩
      input := {
        xonXoff := ⟨(flc &&& 0b00000001) != 0, (pm2 &&& 0b00000001) != 0⟩
        rtr := ⟨(flc &&& 0b00000100) != 0, (pm2 &&& 0b00000100) != 0⟩
        rtc := ⟨(flc &&& 0b00010000) != 0, (pm2 &&& 0b00010000) != 0⟩ }
      output := {
        xonXoff := ⟨(flc &&& 0b00000010) != 0, (pm2 &&& 0b00000010) != 0⟩
        rtr := ⟨(flc &&& 0b00001000) != 0, (pm2 &&& 0b00001000) != 0⟩
        rtc := ⟨(flc &&& 0b00100000) != 0, (pm2 &&& 0b00100000) != 0⟩ } } }

def portNegotiationDecode (octets : ℕ) (parameters : RemotePortParameters) :
    Prog UInt8 RemotePortParameters := do
  let length ← cell octets
  let address ← cell (octets + 1)
  let parameters := { parameters with dlci := address >>> 2 }
  if length = 8 then portNegotiationDecodeValues octets parameters
  else pure parameters

def portNegotiationHasChanges (parameters : RemotePortParameters) : Bool :=
  parameters.speed.isSet || parameters.dataBits.isSet || parameters.stopBits.isSet ||
    parameters.parity.isSet || parameters.flowControl.xon.isSet ||
    parameters.flowControl.xoff.isSet || parameters.flowControl.input.xonXoff.isSet ||
    parameters.flowControl.output.xonXoff.isSet || parameters.flowControl.input.rtr.isSet ||
    parameters.flowControl.output.rtr.isSet || parameters.flowControl.input.rtc.isSet ||
    parameters.flowControl.output.rtc.isSet

def portNegotiationEncodeLength (parameters : RemotePortParameters) : ℕ :=
  if portNegotiationHasChanges parameters then 9 else 2

/-- `get_data_bits`, with `none` for its `-1`. -/
def getDataBits (dataBits : UInt8) : Option UInt8 :=
  match dataBits with
  | 5 => some 0b00000000
  | 6 => some 0b00000001
  | 7 => some 0b00000010
  | 8 => some 0b00000011
  | _ => none

def getParity (parity : RemoteParameterParity) : UInt8 :=
  match parity with
  | 1 => 0b00000001
  | 2 => 0b00000010
  | 3 => 0b00000011
  | _ => 0b00000000

def encodeFlowControlFlag (setting : Setting Bool) (mask : UInt8) : Prog UInt8 Unit :=
  if setting.isSet then do
    setBits 8 mask
    if setting.value then setBits 4 mask else keepBits 4 (~~~mask)
  else pure ()

def encodeFlowControlChar (setting : Setting UInt8) (mask : UInt8) (index : ℕ)
    (default : UInt8) : Prog UInt8 Unit :=
  if setting.isSet then do
    setBits 7 mask
    store index setting.value
  else store index default

/-- The default of 115200 baud stands for a rate that is not set or not known. -/
def encodeSpeed (speed : Setting UInt32) : Prog UInt8 Unit :=
  if speed.isSet then do
    setBits 7 0b00000001
    store 2 ((getBaudRateKey speed.value).getD ((getBaudRateKey 115200).getD 0))
  else store 2 ((getBaudRateKey 115200).getD 0)

def encodeDataBits (dataBits : Setting UInt8) : Prog UInt8 Unit :=
  if dataBits.isSet then do
    setBits 7 0b00000010
    setBits 3 ((getDataBits dataBits.value).getD ((getDataBits 8).getD 0))
  else setBits 3 ((getDataBits 8).getD 0)

def encodeStopBits (stopBits : Setting UInt8) : Prog UInt8 Unit :=
  if stopBits.isSet then do
    setBits 7 0b00000100
    if stopBits.value = 1 then keepBits 3 0b11111011
    else if stopBits.value = 15 then setBits 3 0b00000100
    else keepBits 3 0b11111011
  else keepBits 3 0b11111011

def encodeParity (parity : Setting RemoteParameterParity) : Prog UInt8 Unit :=
  if parity.isSet then do
    setBits 7 0b00011000
    if parity.value = RemoteParameterParity.none then keepBits 3 0b11000111
    else do
      setBits 3 0b00001000
      setBits 3 (getParity parity.value <<< 4)
  else keepBits 3 0b11000111

def portNegotiationEncode (parameters : RemotePortParameters) : Prog UInt8 Unit := do
  let length : UInt8 := if portNegotiationHasChanges parameters then 8 else 1
  store 0 length
  store 1 ((parameters.dlci <<< 2) ||| 0x01 ||| 0x02)
  if length ≠ 8 then pure ()
  else do
    store 7 0
    store 8 0
    encodeSpeed parameters.speed
    store 3 0
    encodeDataBits parameters.dataBits
    encodeStopBits parameters.stopBits
    encodeParity parameters.parity
    store 4 0
    encodeFlowControlFlag parameters.flowControl.input.xonXoff 0b00000001
    encodeFlowControlFlag parameters.flowControl.output.xonXoff 0b00000010
    encodeFlowControlFlag parameters.flowControl.input.rtr 0b00000100
    encodeFlowControlFlag parameters.flowControl.output.rtr 0b00001000
    encodeFlowControlFlag parameters.flowControl.input.rtc 0b00010000
    encodeFlowControlFlag parameters.flowControl.output.rtc 0b00100000
    encodeFlowControlChar parameters.flowControl.xon 0b00100000 5 0x11
    encodeFlowControlChar parameters.flowControl.xoff 0b01000000 6 0x13

end Cmux
