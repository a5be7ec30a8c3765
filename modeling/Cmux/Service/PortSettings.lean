import Cmux.Service.RoundTrip

/-! The settings of a port negotiation, field by field: what the encoder writes for each of them,
and what the decoder makes of the octets. -/
namespace Cmux
open Access Access.Prog

/-! ### The octets of the encoder -/

def speedOctet (speed : Setting UInt32) : UInt8 :=
  if speed.isSet then (getBaudRateKey speed.value).getD ((getBaudRateKey 115200).getD 0)
  else (getBaudRateKey 115200).getD 0

def dataBitsCode (dataBits : Setting UInt8) : UInt8 :=
  if dataBits.isSet then (getDataBits dataBits.value).getD ((getDataBits 8).getD 0)
  else (getDataBits 8).getD 0

def stopBitsCode (stopBits : Setting UInt8) : UInt8 :=
  flagBit (stopBits.isSet && stopBits.value = 15) 0b00000100

def parityCode (parity : Setting RemoteParameterParity) : UInt8 :=
  if parity.isSet ∧ parity.value ≠ RemoteParameterParity.none then
    0b00001000 ||| getParity parity.value <<< (4 : UInt8)
  else 0

def lineOctet (parameters : RemotePortParameters) : UInt8 :=
  dataBitsCode parameters.dataBits ||| stopBitsCode parameters.stopBits |||
    parityCode parameters.parity

/-- Six flags in one octet, in the order of the flow control settings. -/
def sixBits (inputXonXoff outputXonXoff inputRtr outputRtr inputRtc outputRtc : Bool) : UInt8 :=
  flagBit inputXonXoff 0b00000001 ||| flagBit outputXonXoff 0b00000010 |||
    flagBit inputRtr 0b00000100 ||| flagBit outputRtr 0b00001000 |||
    flagBit inputRtc 0b00010000 ||| flagBit outputRtc 0b00100000

/-- A flow control flag that is not set goes out as off. -/
def flag (setting : Setting Bool) : Bool := setting.isSet && setting.value

def flowOctet (flow : FlowControl) : UInt8 :=
  sixBits (flag flow.input.xonXoff) (flag flow.output.xonXoff) (flag flow.input.rtr)
    (flag flow.output.rtr) (flag flow.input.rtc) (flag flow.output.rtc)

def charOctet (setting : Setting UInt8) (default : UInt8) : UInt8 :=
  if setting.isSet then setting.value else default

/-- The first mask octet. Parity takes two bits of it. -/
def valueMask (parameters : RemotePortParameters) : UInt8 :=
  flagBit parameters.speed.isSet 0b00000001 ||| flagBit parameters.dataBits.isSet 0b00000010 |||
    flagBit parameters.stopBits.isSet 0b00000100 ||| flagBit parameters.parity.isSet 0b00011000 |||
    flagBit parameters.flowControl.xon.isSet 0b00100000 |||
    flagBit parameters.flowControl.xoff.isSet 0b01000000

def flowMask (flow : FlowControl) : UInt8 :=
  sixBits flow.input.xonXoff.isSet flow.output.xonXoff.isSet flow.input.rtr.isSet
    flow.output.rtr.isSet flow.input.rtc.isSet flow.output.rtc.isSet

def portAddress (dlci : UInt8) : UInt8 := (dlci <<< 2) ||| 0x01 ||| 0x02

def portOctets (parameters : RemotePortParameters) : List UInt8 :=
  if portNegotiationHasChanges parameters then
    [8, portAddress parameters.dlci, speedOctet parameters.speed, lineOctet parameters,
      flowOctet parameters.flowControl, charOctet parameters.flowControl.xon 0x11,
      charOctet parameters.flowControl.xoff 0x13, valueMask parameters,
      flowMask parameters.flowControl]
  else [1, portAddress parameters.dlci]

/-! ### The steps of the encoder -/

def stopLine (stopBits : Setting UInt8) (line : UInt8) : UInt8 :=
  if stopBits.isSet && stopBits.value = 15 then line ||| 0b00000100 else line &&& 0b11111011

def parityLine (parity : Setting RemoteParameterParity) (line : UInt8) : UInt8 :=
  if parity.isSet ∧ parity.value ≠ RemoteParameterParity.none then
    line ||| 0b00001000 ||| getParity parity.value <<< (4 : UInt8)
  else line &&& 0b11000111

def flowStep (setting : Setting Bool) (mask flow : UInt8) : UInt8 :=
  if setting.isSet then if setting.value then flow ||| mask else flow &&& ~~~mask else flow

section Steps
variable (m : ℕ → UInt8) (i : ℕ)

theorem encodeSpeed_memory (speed : Setting UInt32) : (encodeSpeed speed).memory m i =
    if i = 2 then speedOctet speed else if i = 7 then m 7 ||| flagBit speed.isSet 0b00000001
    else m i := by
  cases h : speed.isSet <;>
    simp only [encodeSpeed, speedOctet, flagBit, h, Bool.false_eq_true, if_true, if_false,
      memory_bind, memory_store, setBits_memory, Function.update_apply]
  split_ifs <;> simp_all

theorem encodeDataBits_memory (dataBits : Setting UInt8) :
    (encodeDataBits dataBits).memory m i =
      if i = 3 then m 3 ||| dataBitsCode dataBits
      else if i = 7 then m 7 ||| flagBit dataBits.isSet 0b00000010 else m i := by
  cases h : dataBits.isSet <;>
    simp only [encodeDataBits, dataBitsCode, flagBit, h, Bool.false_eq_true, if_true, if_false,
      memory_bind, setBits_memory, Function.update_apply] <;>
    split_ifs <;> simp_all

theorem encodeStopBits_memory (stopBits : Setting UInt8) :
    (encodeStopBits stopBits).memory m i =
      if i = 3 then stopLine stopBits (m 3)
      else if i = 7 then m 7 ||| flagBit stopBits.isSet 0b00000100 else m i := by
  cases h : stopBits.isSet <;>
    simp only [encodeStopBits, stopLine, flagBit, h, Bool.false_eq_true, if_true, if_false,
      memory_bind, memory_ite, setBits_memory, keepBits_memory, Function.update_apply] <;>
    split_ifs <;> simp_all

theorem encodeParity_memory (parity : Setting RemoteParameterParity) :
    (encodeParity parity).memory m i =
      if i = 3 then parityLine parity (m 3)
      else if i = 7 then m 7 ||| flagBit parity.isSet 0b00011000 else m i := by
  cases h : parity.isSet <;>
    simp only [encodeParity, parityLine, flagBit, h, Bool.false_eq_true, if_true, if_false,
      memory_bind, memory_ite, setBits_memory, keepBits_memory, Function.update_apply] <;>
    split_ifs <;> simp_all

theorem encodeFlowControlFlag_memory (setting : Setting Bool) (mask : UInt8) :
    (encodeFlowControlFlag setting mask).memory m i =
      if i = 4 then flowStep setting mask (m 4)
      else if i = 8 then m 8 ||| flagBit setting.isSet mask else m i := by
  cases h : setting.isSet <;>
    simp only [encodeFlowControlFlag, flowStep, flagBit, h, Bool.false_eq_true, if_true, if_false,
      memory_bind, memory_ite, memory_pure, setBits_memory, keepBits_memory,
      Function.update_apply] <;>
    split_ifs <;> simp_all

theorem encodeFlowControlChar_memory (setting : Setting UInt8) (mask : UInt8) (index : ℕ)
    (default : UInt8) :
    (encodeFlowControlChar setting mask index default).memory m i =
      if i = index then charOctet setting default
      else if i = 7 then m 7 ||| flagBit setting.isSet mask else m i := by
  cases h : setting.isSet <;>
    simp only [encodeFlowControlChar, charOctet, flagBit, h, Bool.false_eq_true, if_true, if_false,
      memory_bind, memory_store, setBits_memory, Function.update_apply]
  split_ifs <;> simp_all

end Steps

theorem dataBitsCode_mem (dataBits : Setting UInt8) :
    dataBitsCode dataBits ∈ [(0b00000000 : UInt8), 0b00000001, 0b00000010, 0b00000011] := by
  unfold dataBitsCode getDataBits
  split
  · split <;> decide
  · decide

theorem parityCode_mem (parity : Setting RemoteParameterParity) : parityCode parity ∈
    [(0b00000000 : UInt8), 0b00001000, 0b00011000, 0b00101000, 0b00111000] := by
  unfold parityCode getParity
  split
  · split <;> decide
  · decide

/-- The three codes have bits of their own. -/
theorem lineOctet_eq (parameters : RemotePortParameters) :
    parityLine parameters.parity (stopLine parameters.stopBits
      (0 ||| dataBitsCode parameters.dataBits)) = lineOctet parameters := by
  have hstop : stopLine parameters.stopBits (0 ||| dataBitsCode parameters.dataBits) =
      dataBitsCode parameters.dataBits ||| stopBitsCode parameters.stopBits ∧
      (dataBitsCode parameters.dataBits ||| stopBitsCode parameters.stopBits) &&& 0b11000111 =
        dataBitsCode parameters.dataBits ||| stopBitsCode parameters.stopBits := by
    have hdata := dataBitsCode_mem parameters.dataBits
    simp only [List.mem_cons, List.not_mem_nil, or_false] at hdata
    unfold stopLine stopBitsCode
    generalize (parameters.stopBits.isSet && parameters.stopBits.value = 15) = stop
    rcases hdata with hdata | hdata | hdata | hdata <;> rw [hdata] <;> cases stop <;>
      exact ⟨rfl, rfl⟩
  rw [hstop.1]
  unfold lineOctet parityLine parityCode
  split
  · rw [UInt8.or_assoc]
  · rw [UInt8.or_zero, hstop.2]

/-- A step puts a flag where the octet has a clear bit. -/
theorem flowStep_eq (setting : Setting Bool) {mask flow : UInt8} (h : flow &&& mask = 0) :
    flowStep setting mask flow = flow ||| flagBit (flag setting) mask := by
  obtain ⟨value, set⟩ := setting
  cases set with
  | false => exact UInt8.or_zero.symm
  | true =>
    cases value with
    | false => exact (octet_and_not h).trans UInt8.or_zero.symm
    | true => rfl

/-- The flow octet is made one flag after the other, each beside those before. -/
theorem flowOctet_eq (flow : FlowControl) :
    flowStep flow.output.rtc 0b00100000 (flowStep flow.input.rtc 0b00010000
      (flowStep flow.output.rtr 0b00001000 (flowStep flow.input.rtr 0b00000100
        (flowStep flow.output.xonXoff 0b00000010 (flowStep flow.input.xonXoff 0b00000001 0))))) =
      flowOctet flow := by
  have hclear (a b c d e : Bool) :
      flagBit a 0b00000001 &&& 0b00000010 = 0 ∧
      (flagBit a 0b00000001 ||| flagBit b 0b00000010) &&& 0b00000100 = 0 ∧
      (flagBit a 0b00000001 ||| flagBit b 0b00000010 ||| flagBit c 0b00000100) &&&
        0b00001000 = 0 ∧
      (flagBit a 0b00000001 ||| flagBit b 0b00000010 ||| flagBit c 0b00000100 |||
        flagBit d 0b00001000) &&& 0b00010000 = 0 ∧
      (flagBit a 0b00000001 ||| flagBit b 0b00000010 ||| flagBit c 0b00000100 |||
        flagBit d 0b00001000 ||| flagBit e 0b00010000) &&& 0b00100000 = 0 := by
    cases a <;> cases b <;> cases c <;> cases d <;> cases e <;> exact ⟨rfl, rfl, rfl, rfl, rfl⟩
  obtain ⟨h2, h3, h4, h5, h6⟩ := hclear (flag flow.input.xonXoff) (flag flow.output.xonXoff)
    (flag flow.input.rtr) (flag flow.output.rtr) (flag flow.input.rtc)
  rw [flowStep_eq _ UInt8.zero_and, UInt8.zero_or, flowStep_eq _ h2, flowStep_eq _ h3,
    flowStep_eq _ h4, flowStep_eq _ h5, flowStep_eq _ h6]
  rfl

/-- The encoder writes the same octets whatever stood in the array. -/
theorem portNegotiationEncode_slice (parameters : RemotePortParameters) (octets : ℕ → UInt8) :
    slice ((portNegotiationEncode parameters).memory octets) 0
      (portNegotiationEncodeLength parameters) = portOctets parameters := by
  cases h : portNegotiationHasChanges parameters
  · simp [portNegotiationEncode, portNegotiationEncodeLength, portOctets, h, slice_succ,
      portAddress]
  · rw [portNegotiationEncode, portNegotiationEncodeLength, portOctets, if_pos h, if_pos h]
    simp [h, slice_succ, encodeFlowControlChar_memory, encodeFlowControlFlag_memory,
      encodeParity_memory, encodeStopBits_memory, encodeDataBits_memory, encodeSpeed_memory,
      portAddress, ← lineOctet_eq, ← flowOctet_eq, valueMask, flowMask, sixBits]

/-! ### The octets of the decoder -/

def decodeSpeed (baud : UInt8) : UInt32 :=
  if h : baud.toNat < 9 then baudRates.get ⟨baud.toNat, h⟩ else 0

def decodeDataBits (line : UInt8) : UInt8 := 5 + (line &&& 0b00000011)

def decodeStopBits (line : UInt8) : UInt8 := if (line &&& 0b00000100) >>> 2 = 0 then 1 else 15

def decodedPort (m : ℕ → UInt8) : RemotePortParameters :=
  (portNegotiationDecode 0 RemotePortParameters.zero).value m

theorem decodedPort_short {m : ℕ → UInt8} (h : m 0 ≠ 8) :
    decodedPort m = { RemotePortParameters.zero with dlci := m 1 >>> 2 } := by
  simp [decodedPort, portNegotiationDecode, h]

theorem decodedPort_long {m : ℕ → UInt8} (h : m 0 = 8) : decodedPort m = {
    dlci := m 1 >>> 2
    speed := ⟨decodeSpeed (m 2), (m 7 &&& 0b00000001) != 0⟩
    dataBits := ⟨decodeDataBits (m 3), (m 7 &&& 0b00000010) != 0⟩
    stopBits := ⟨decodeStopBits (m 3), (m 7 &&& 0b00000100) != 0⟩
    parity := ⟨decodeParity (m 3), (m 7 &&& 0b00011000) != 0⟩
    flowControl := {
      xon := ⟨m 5, (m 7 &&& 0b00100000) != 0⟩
      xoff := ⟨m 6, (m 7 &&& 0b01000000) != 0⟩
      input := {
        xonXoff := ⟨(m 4 &&& 0b00000001) != 0, (m 8 &&& 0b00000001) != 0⟩
        rtr := ⟨(m 4 &&& 0b00000100) != 0, (m 8 &&& 0b00000100) != 0⟩
        rtc := ⟨(m 4 &&& 0b00010000) != 0, (m 8 &&& 0b00010000) != 0⟩ }
      output := {
        xonXoff := ⟨(m 4 &&& 0b00000010) != 0, (m 8 &&& 0b00000010) != 0⟩
        rtr := ⟨(m 4 &&& 0b00001000) != 0, (m 8 &&& 0b00001000) != 0⟩
        rtc := ⟨(m 4 &&& 0b00100000) != 0, (m 8 &&& 0b00100000) != 0⟩ } } } := by
  simp [decodedPort, portNegotiationDecode, portNegotiationDecodeValues, h, decodeSpeed,
    decodeDataBits, decodeStopBits, RemotePortParameters.zero]

/-! ### Codes that are decoded and encoded again -/

/-- A code of the table stands for its own rate. -/
theorem speedOctet_decodeSpeed {baud : UInt8} (h : baud.toNat < 9) :
    speedOctet ⟨decodeSpeed baud, true⟩ = baud := by
  have hall : ∀ k < 9, speedOctet ⟨decodeSpeed (UInt8.ofNat k), true⟩ = UInt8.ofNat k := by
    decide
  have hbaud := hall baud.toNat h
  rwa [UInt8.ofNat_toNat] at hbaud

/-- The codes of a line octet that is decoded. Without the parity bit the type of parity is not
looked at, and goes out as zero. -/
theorem lineCodes_decode (line : UInt8) :
    dataBitsCode ⟨decodeDataBits line, true⟩ = line &&& 0b00000011 ∧
      stopBitsCode ⟨decodeStopBits line, true⟩ = line &&& 0b00000100 ∧
      parityCode ⟨decodeParity line, true⟩ =
        if line &&& 0b00001000 = 0 then 0 else line &&& 0b00111000 := by
  have hall : ∀ line : UInt8,
      dataBitsCode ⟨decodeDataBits line, true⟩ = line &&& 0b00000011 ∧
        stopBitsCode ⟨decodeStopBits line, true⟩ = line &&& 0b00000100 ∧
        parityCode ⟨decodeParity line, true⟩ =
          if line &&& 0b00001000 = 0 then 0 else line &&& 0b00111000 := by
    decide +kernel
  exact hall line

theorem lineOctet_codes (parameters : RemotePortParameters) :
    lineOctet parameters &&& 0b00000011 = dataBitsCode parameters.dataBits ∧
      lineOctet parameters &&& 0b00000100 = stopBitsCode parameters.stopBits ∧
      lineOctet parameters &&& 0b00111000 = parityCode parameters.parity := by
  have hdata := dataBitsCode_mem parameters.dataBits
  have hparity := parityCode_mem parameters.parity
  simp only [List.mem_cons, List.not_mem_nil, or_false] at hdata hparity
  unfold lineOctet stopBitsCode
  generalize (parameters.stopBits.isSet && parameters.stopBits.value = 15) = stop
  rcases hdata with hdata | hdata | hdata | hdata <;>
    rcases hparity with hparity | hparity | hparity | hparity | hparity <;>
    rw [hdata, hparity] <;> cases stop <;> exact ⟨rfl, rfl, rfl⟩

theorem sixBits_decoded (a b c d e f : Bool) :
    ((sixBits a b c d e f &&& 0b00000001) != 0) = a ∧
      ((sixBits a b c d e f &&& 0b00000010) != 0) = b ∧
      ((sixBits a b c d e f &&& 0b00000100) != 0) = c ∧
      ((sixBits a b c d e f &&& 0b00001000) != 0) = d ∧
      ((sixBits a b c d e f &&& 0b00010000) != 0) = e ∧
      ((sixBits a b c d e f &&& 0b00100000) != 0) = f := by
  cases a <;> cases b <;> cases c <;> cases d <;> cases e <;> cases f <;>
    exact ⟨rfl, rfl, rfl, rfl, rfl, rfl⟩

theorem valueMask_decoded (parameters : RemotePortParameters) :
    ((valueMask parameters &&& 0b00000001) != 0) = parameters.speed.isSet ∧
      ((valueMask parameters &&& 0b00000010) != 0) = parameters.dataBits.isSet ∧
      ((valueMask parameters &&& 0b00000100) != 0) = parameters.stopBits.isSet ∧
      ((valueMask parameters &&& 0b00011000) != 0) = parameters.parity.isSet ∧
      ((valueMask parameters &&& 0b00100000) != 0) = parameters.flowControl.xon.isSet ∧
      ((valueMask parameters &&& 0b01000000) != 0) = parameters.flowControl.xoff.isSet := by
  unfold valueMask
  generalize parameters.speed.isSet = a, parameters.dataBits.isSet = b,
    parameters.stopBits.isSet = c, parameters.parity.isSet = d,
    parameters.flowControl.xon.isSet = e, parameters.flowControl.xoff.isSet = f
  cases a <;> cases b <;> cases c <;> cases d <;> cases e <;> cases f <;>
    exact ⟨rfl, rfl, rfl, rfl, rfl, rfl⟩

end Cmux
