import Cmux.Service.PortSettings

/-! Port negotiation there and back. What is decoded from an encoded record is its normal form,
and a proposal of a peer is encoded again as it came, except for the values without a meaning. -/
namespace Cmux
open Access Access.Prog

/-! ### Encoding and then decoding -/

/-- What a peer makes of a rate that is encoded and decoded: an unknown one is the default. -/
def normalSpeed (speed : Setting UInt32) : Setting UInt32 :=
  ⟨decodeSpeed (speedOctet speed), speed.isSet⟩

def normalDataBits (dataBits : Setting UInt8) : Setting UInt8 :=
  ⟨decodeDataBits (dataBitsCode dataBits), dataBits.isSet⟩

def normalStopBits (stopBits : Setting UInt8) : Setting UInt8 :=
  ⟨decodeStopBits (stopBitsCode stopBits), stopBits.isSet⟩

def normalParity (parity : Setting RemoteParameterParity) : Setting RemoteParameterParity :=
  ⟨decodeParity (parityCode parity), parity.isSet⟩

def normalFlag (setting : Setting Bool) : Setting Bool := ⟨flag setting, setting.isSet⟩

def normalChar (setting : Setting UInt8) (default : UInt8) : Setting UInt8 :=
  ⟨charOctet setting default, setting.isSet⟩

def normalDirection (direction : DirectionFlowControl) : DirectionFlowControl where
  xonXoff := normalFlag direction.xonXoff
  rtr := normalFlag direction.rtr
  rtc := normalFlag direction.rtc

def RemotePortParameters.normal (parameters : RemotePortParameters) : RemotePortParameters :=
  if portNegotiationHasChanges parameters then {
    dlci := portAddress parameters.dlci >>> 2
    speed := normalSpeed parameters.speed
    dataBits := normalDataBits parameters.dataBits
    stopBits := normalStopBits parameters.stopBits
    parity := normalParity parameters.parity
    flowControl := {
      xon := normalChar parameters.flowControl.xon 0x11
      xoff := normalChar parameters.flowControl.xoff 0x13
      input := normalDirection parameters.flowControl.input
      output := normalDirection parameters.flowControl.output } }
  else { RemotePortParameters.zero with dlci := portAddress parameters.dlci >>> 2 }

/-- The two decoders of the line octet look at their own bits. -/
theorem decode_line (line : UInt8) :
    decodeDataBits line = decodeDataBits (line &&& 0b00000011) ∧
      decodeStopBits line = decodeStopBits (line &&& 0b00000100) ∧
      decodeParity line = decodeParity (line &&& 0b00111000) := by
  unfold decodeDataBits decodeStopBits decodeParity
  simp only [UInt8.and_assoc]
  exact ⟨rfl, rfl, rfl⟩

theorem decodedPort_encode (parameters : RemotePortParameters) (octets : ℕ → UInt8) :
    decodedPort ((portNegotiationEncode parameters).memory octets) = parameters.normal := by
  have hslice := portNegotiationEncode_slice parameters octets
  cases h : portNegotiationHasChanges parameters
  · simp only [portNegotiationEncodeLength, portOctets, h, Bool.false_eq_true, if_false, slice_succ,
      slice_zero, List.cons.injEq, and_true] at hslice
    obtain ⟨h0, h1⟩ := hslice
    rw [decodedPort_short (by rw [h0]; decide), h1, RemotePortParameters.normal,
      if_neg (by simp [h])]
  · simp only [portNegotiationEncodeLength, portOctets, h, if_true, slice_succ, slice_zero,
      List.cons.injEq, and_true] at hslice
    obtain ⟨h0, h1, h2, h3, h4, h5, h6, h7, h8⟩ := hslice
    obtain ⟨hdata, hstop, hparity⟩ := lineOctet_codes parameters
    obtain ⟨hdata', hstop', hparity'⟩ := decode_line (lineOctet parameters)
    obtain ⟨m1, m2, m3, m4, m5, m6⟩ := valueMask_decoded parameters
    rw [decodedPort_long h0, RemotePortParameters.normal, if_pos h]
    simp only [h1, h2, h3, h4, h5, h6, h7, h8, hdata', hstop', hparity', hdata, hstop, hparity, m1,
      m2, m3, m4, m5, m6, flowOctet, flowMask, sixBits_decoded, normalSpeed, normalDataBits,
      normalStopBits, normalParity, normalFlag, normalChar, normalDirection]

/-! ### The normal form -/

theorem speedOctet_lt (speed : Setting UInt32) : (speedOctet speed).toNat < 9 := by
  have hdefault : ((getBaudRateKey 115200).getD 0).toNat < 9 := by decide
  unfold speedOctet
  split
  · cases hkey : getBaudRateKey speed.value with
    | none => exact hdefault
    | some key =>
      obtain ⟨k, hk, rfl⟩ := Option.map_eq_some_iff.mp hkey
      have hlt : k < 9 := (List.findIdx?_eq_some_iff_findIdx_eq.mp hk).1
      exact Nat.lt_of_le_of_lt (Nat.mod_le _ _) hlt
  · exact hdefault

theorem speedOctet_normal (speed : Setting UInt32) :
    speedOctet (normalSpeed speed) = speedOctet speed := by
  obtain ⟨value, set⟩ := speed
  cases set with
  | false => rfl
  | true => exact speedOctet_decodeSpeed (speedOctet_lt _)

theorem dataBitsCode_normal (dataBits : Setting UInt8) :
    dataBitsCode (normalDataBits dataBits) = dataBitsCode dataBits := by
  have hlow : ∀ code ∈ [(0b00000000 : UInt8), 0b00000001, 0b00000010, 0b00000011],
      code &&& 0b00000011 = code := by
    simp only [List.forall_mem_cons]
    exact ⟨rfl, rfl, rfl, rfl, nofun⟩
  have hmem := dataBitsCode_mem dataBits
  obtain ⟨value, set⟩ := dataBits
  cases set with
  | false => rfl
  | true => exact (lineCodes_decode _).1.trans (hlow _ hmem)

theorem stopBitsCode_normal (stopBits : Setting UInt8) :
    stopBitsCode (normalStopBits stopBits) = stopBitsCode stopBits := by
  obtain ⟨value, set⟩ := stopBits
  cases set with
  | false => rfl
  | true =>
    refine (lineCodes_decode _).2.1.trans ?_
    unfold stopBitsCode
    generalize (true && decide (value = 15)) = long
    revert long
    decide

theorem parityCode_normal (parity : Setting RemoteParameterParity) :
    parityCode (normalParity parity) = parityCode parity := by
  have hcode : ∀ code ∈ [(0b00000000 : UInt8), 0b00001000, 0b00011000, 0b00101000, 0b00111000],
      (if code &&& 0b00001000 = 0 then 0 else code &&& 0b00111000) = code := by
    simp only [List.forall_mem_cons]
    exact ⟨rfl, rfl, rfl, rfl, rfl, nofun⟩
  have hmem := parityCode_mem parity
  obtain ⟨value, set⟩ := parity
  cases set with
  | false => rfl
  | true => exact (lineCodes_decode _).2.2.trans (hcode _ hmem)

theorem flag_normal (setting : Setting Bool) : flag (normalFlag setting) = flag setting := by
  obtain ⟨value, set⟩ := setting
  cases set <;> rfl

theorem charOctet_normal (setting : Setting UInt8) (default : UInt8) :
    charOctet (normalChar setting default) default = charOctet setting default := by
  obtain ⟨value, set⟩ := setting
  cases set <;> rfl

/-- The address keeps six bits of the DLCI, which are all that it is made of. -/
theorem portAddress_normal (dlci : UInt8) : portAddress (portAddress dlci >>> 2) =
    portAddress dlci := by
  have h : ∀ dlci : UInt8, portAddress (portAddress dlci >>> 2) = portAddress dlci := by
    decide +kernel
  exact h dlci

theorem normal_dlci (parameters : RemotePortParameters) :
    parameters.normal.dlci = portAddress parameters.dlci >>> 2 := by
  unfold RemotePortParameters.normal
  split <;> rfl

theorem hasChanges_normal (parameters : RemotePortParameters) :
    portNegotiationHasChanges parameters.normal = portNegotiationHasChanges parameters := by
  cases h : portNegotiationHasChanges parameters
  · rw [RemotePortParameters.normal, if_neg (by simp [h])]
    rfl
  · rw [RemotePortParameters.normal, if_pos h]
    exact h

/-- A record and its normal form are encoded alike. -/
theorem portOctets_normal (parameters : RemotePortParameters) :
    portOctets parameters.normal = portOctets parameters := by
  unfold portOctets
  rw [hasChanges_normal, normal_dlci, portAddress_normal]
  cases h : portNegotiationHasChanges parameters
  · rfl
  · rw [RemotePortParameters.normal, if_pos h]
    simp only [if_true, speedOctet_normal, charOctet_normal, lineOctet, dataBitsCode_normal,
      stopBitsCode_normal, parityCode_normal, flowOctet, normalDirection, flag_normal]
    rfl

/-! ### Documented values -/

structure DocumentedSettings (parameters : RemotePortParameters) : Prop where
  speed : parameters.speed.isSet → parameters.speed.value ∈ baudRates.toList
  dataBits : parameters.dataBits.isSet → parameters.dataBits.value ∈ [(5 : UInt8), 6, 7, 8]
  stopBits : parameters.stopBits.isSet → parameters.stopBits.value ∈ [(1 : UInt8), 15]
  parity : parameters.parity.isSet → parameters.parity.value ∈ [RemoteParameterParity.odd,
    RemoteParameterParity.even, RemoteParameterParity.mark, RemoteParameterParity.space,
    RemoteParameterParity.none]

def Setting.Agrees {α : Type} (s t : Setting α) : Prop :=
  t.isSet = s.isSet ∧ (s.isSet → t.value = s.value)

structure DirectionFlowControl.Agrees (d d' : DirectionFlowControl) : Prop where
  xonXoff : d.xonXoff.Agrees d'.xonXoff
  rtr : d.rtr.Agrees d'.rtr
  rtc : d.rtc.Agrees d'.rtc

structure RemotePortParameters.Agrees (p q : RemotePortParameters) : Prop where
  dlci : q.dlci = p.dlci
  speed : p.speed.Agrees q.speed
  dataBits : p.dataBits.Agrees q.dataBits
  stopBits : p.stopBits.Agrees q.stopBits
  parity : p.parity.Agrees q.parity
  xon : p.flowControl.xon.Agrees q.flowControl.xon
  xoff : p.flowControl.xoff.Agrees q.flowControl.xoff
  input : p.flowControl.input.Agrees q.flowControl.input
  output : p.flowControl.output.Agrees q.flowControl.output

theorem normalFlag_agrees (setting : Setting Bool) : setting.Agrees (normalFlag setting) := by
  refine ⟨rfl, fun h => ?_⟩
  rw [normalFlag, flag, h, Bool.true_and]

theorem normalChar_agrees (setting : Setting UInt8) (default : UInt8) :
    setting.Agrees (normalChar setting default) :=
  ⟨rfl, fun h => if_pos h⟩

theorem normalDirection_agrees (direction : DirectionFlowControl) :
    direction.Agrees (normalDirection direction) :=
  ⟨normalFlag_agrees _, normalFlag_agrees _, normalFlag_agrees _⟩

/-- Documented values are their own normal form. -/
theorem normal_agrees {parameters : RemotePortParameters} (hdlci : parameters.dlci.toNat ≤ 63)
    (h : DocumentedSettings parameters) : parameters.Agrees parameters.normal := by
  have hspeed : ∀ value ∈ baudRates.toList, decodeSpeed (speedOctet ⟨value, true⟩) = value := by
    simp only [baudRates, Vector.toList_mk, List.forall_mem_cons]
    exact ⟨rfl, rfl, rfl, rfl, rfl, rfl, rfl, rfl, rfl, nofun⟩
  have hdata : ∀ value ∈ [(5 : UInt8), 6, 7, 8],
      decodeDataBits (dataBitsCode ⟨value, true⟩) = value := by
    simp only [List.forall_mem_cons]
    exact ⟨rfl, rfl, rfl, rfl, nofun⟩
  have hstop : ∀ value ∈ [(1 : UInt8), 15],
      decodeStopBits (stopBitsCode ⟨value, true⟩) = value := by
    simp only [List.forall_mem_cons]
    exact ⟨rfl, rfl, nofun⟩
  have hparity : ∀ value ∈ [RemoteParameterParity.odd, RemoteParameterParity.even,
      RemoteParameterParity.mark, RemoteParameterParity.space, RemoteParameterParity.none],
      decodeParity (parityCode ⟨value, true⟩) = value := by
    simp only [List.forall_mem_cons]
    exact ⟨rfl, rfl, rfl, rfl, rfl, nofun⟩
  have haddress : portAddress parameters.dlci >>> 2 = parameters.dlci := (address_decoded hdlci).1
  cases hchanges : portNegotiationHasChanges parameters
  · -- no setting takes part
    simp only [portNegotiationHasChanges, Bool.or_eq_false_iff] at hchanges
    obtain ⟨⟨⟨⟨⟨⟨⟨⟨⟨⟨⟨s1, s2⟩, s3⟩, s4⟩, s5⟩, s6⟩, s7⟩, s8⟩, s9⟩, s10⟩, s11⟩, s12⟩ := hchanges
    have hnone {α : Type} {s t : Setting α} (hs : s.isSet = false) (ht : t.isSet = false) :
        s.Agrees t := ⟨ht.trans hs.symm, fun hset => by rw [hs] at hset; cases hset⟩
    rw [RemotePortParameters.normal, if_neg (by simp [portNegotiationHasChanges, *])]
    exact ⟨haddress, hnone s1 rfl, hnone s2 rfl, hnone s3 rfl, hnone s4 rfl, hnone s5 rfl,
      hnone s6 rfl, ⟨hnone s7 rfl, hnone s9 rfl, hnone s11 rfl⟩,
      ⟨hnone s8 rfl, hnone s10 rfl, hnone s12 rfl⟩⟩
  · rw [RemotePortParameters.normal, if_pos hchanges]
    refine ⟨haddress, ⟨rfl, fun hset => ?_⟩, ⟨rfl, fun hset => ?_⟩, ⟨rfl, fun hset => ?_⟩,
      ⟨rfl, fun hset => ?_⟩, normalChar_agrees _ _, normalChar_agrees _ _,
      normalDirection_agrees _, normalDirection_agrees _⟩
    · have hvalue := hspeed _ (h.speed hset)
      rwa [← hset] at hvalue
    · have hvalue := hdata _ (h.dataBits hset)
      rwa [← hset] at hvalue
    · have hvalue := hstop _ (h.stopBits hset)
      rwa [← hset] at hvalue
    · have hvalue := hparity _ (h.parity hset)
      rwa [← hset] at hvalue

/-- Encoding and decoding gives back a documented record for a DLCI of six bits, and encoding what
was decoded writes the same octets again, for every record and whatever stood in the arrays. -/
theorem portNegotiation_roundTrips (parameters : RemotePortParameters)
    (octets octets' : ℕ → UInt8) :
    let encoded := (portNegotiationEncode parameters).memory octets
    let decoded := (portNegotiationDecode 0 RemotePortParameters.zero).value encoded
    (parameters.dlci.toNat ≤ 63 → DocumentedSettings parameters → parameters.Agrees decoded) ∧
      portNegotiationEncodeLength decoded = portNegotiationEncodeLength parameters ∧
      slice ((portNegotiationEncode decoded).memory octets') 0
          (portNegotiationEncodeLength decoded) =
        slice encoded 0 (portNegotiationEncodeLength parameters) := by
  have hdecoded : (portNegotiationDecode 0 RemotePortParameters.zero).value
      ((portNegotiationEncode parameters).memory octets) = parameters.normal :=
    decodedPort_encode parameters octets
  dsimp only
  rw [hdecoded]
  refine ⟨normal_agrees, ?_, ?_⟩
  · rw [portNegotiationEncodeLength, portNegotiationEncodeLength, hasChanges_normal]
  · rw [portNegotiationEncode_slice, portNegotiationEncode_slice, portOctets_normal]

/-- The proposal of 9600 baud with even parity, the rest left open. -/
theorem portNegotiation_roundTrips_speed :
    RemotePortParameters.Agrees { RemotePortParameters.zero with
        dlci := 5, speed := ⟨9600, true⟩, parity := ⟨RemoteParameterParity.even, true⟩ }
      ((portNegotiationDecode 0 RemotePortParameters.zero).value ((portNegotiationEncode
        { RemotePortParameters.zero with
          dlci := 5, speed := ⟨9600, true⟩, parity := ⟨RemoteParameterParity.even, true⟩
        }).memory fun _ => 0)) :=
  (portNegotiation_roundTrips _ (fun _ => 0) fun _ => 0).1 (by decide)
    ⟨fun _ => by decide, by decide, by decide, fun _ => by decide⟩

/-! ### Decoding and then encoding -/

structure KeepsProposed (m m' : ℕ → UInt8) : Prop where
  speed : m 7 &&& 0b00000001 ≠ 0 → m' 2 = m 2
  dataBits : m 7 &&& 0b00000010 ≠ 0 → m' 3 &&& 0b00000011 = m 3 &&& 0b00000011
  stopBits : m 7 &&& 0b00000100 ≠ 0 → m' 3 &&& 0b00000100 = m 3 &&& 0b00000100
  /-- The parity bit and the two bits of its type. -/
  parity : m 7 &&& 0b00011000 ≠ 0 → m' 3 &&& 0b00111000 = m 3 &&& 0b00111000
  xon : m 7 &&& 0b00100000 ≠ 0 → m' 5 = m 5
  xoff : m 7 &&& 0b01000000 ≠ 0 → m' 6 = m 6
  flow : ∀ bit ∈ [(0b00000001 : UInt8), 0b00000010, 0b00000100, 0b00001000, 0b00010000,
    0b00100000], m 8 &&& bit ≠ 0 → ((m' 4 &&& bit) != 0) = ((m 4 &&& bit) != 0)

/-- What stands behind the address of an encoded proposal. -/
theorem portNegotiationEncode_values {parameters : RemotePortParameters}
    (h : portNegotiationHasChanges parameters) (octets : ℕ → UInt8) :
    (portNegotiationEncode parameters).memory octets 2 = speedOctet parameters.speed ∧
      (portNegotiationEncode parameters).memory octets 3 = lineOctet parameters ∧
      (portNegotiationEncode parameters).memory octets 4 = flowOctet parameters.flowControl ∧
      (portNegotiationEncode parameters).memory octets 5 =
        charOctet parameters.flowControl.xon 0x11 ∧
      (portNegotiationEncode parameters).memory octets 6 =
        charOctet parameters.flowControl.xoff 0x13 := by
  have hslice := portNegotiationEncode_slice parameters octets
  simp only [portNegotiationEncodeLength, portOctets, h, if_true, slice_succ, slice_zero,
    List.cons.injEq, and_true] at hslice
  obtain ⟨-, -, h2, h3, h4, h5, h6, -, -⟩ := hslice
  exact ⟨h2, h3, h4, h5, h6⟩

theorem decodeSpeed_mem_iff (baud : UInt8) :
    decodeSpeed baud ∈ baudRates.toList ↔ baud.toNat < 9 := by
  unfold decodeSpeed
  split
  · next h => exact iff_of_true (List.get_mem _ _) h
  · next h => exact iff_of_false (by decide) h

section Proposal
variable {m : ℕ → UInt8} (h8 : m 0 = 8)
include h8

/-- Only a reserved rate is marked as set without a documented value. -/
theorem decodedPort_documented_iff : DocumentedSettings (decodedPort m) ↔
    (m 7 &&& 0b00000001 ≠ 0 → (m 2).toNat < 9) := by
  have hline : ∀ line : UInt8, decodeDataBits line ∈ [(5 : UInt8), 6, 7, 8] ∧
      decodeStopBits line ∈ [(1 : UInt8), 15] ∧
      decodeParity line ∈ [RemoteParameterParity.odd, RemoteParameterParity.even,
        RemoteParameterParity.mark, RemoteParameterParity.space, RemoteParameterParity.none] := by
    decide +kernel
  rw [decodedPort_long h8]
  constructor
  · intro h hset
    exact (decodeSpeed_mem_iff _).mp (h.speed (bne_iff_ne.mpr hset))
  · intro h
    exact ⟨fun hset => (decodeSpeed_mem_iff _).mpr (h (bne_iff_ne.mp hset)),
      fun _ => (hline _).1, fun _ => (hline _).2.1, fun _ => (hline _).2.2⟩

/-- A record without changes was decoded from empty masks. -/
theorem masks_of_no_changes (h : portNegotiationHasChanges (decodedPort m) = false) :
    (m 7 &&& 0b00000001 = 0 ∧ m 7 &&& 0b00000010 = 0 ∧ m 7 &&& 0b00000100 = 0 ∧
      m 7 &&& 0b00011000 = 0 ∧ m 7 &&& 0b00100000 = 0 ∧ m 7 &&& 0b01000000 = 0) ∧
    ∀ bit ∈ [(0b00000001 : UInt8), 0b00000010, 0b00000100, 0b00001000, 0b00010000, 0b00100000],
      m 8 &&& bit = 0 := by
  rw [decodedPort_long h8] at h
  simp only [portNegotiationHasChanges, Bool.or_eq_false_iff, bne_eq_false_iff_eq] at h
  simp only [List.forall_mem_cons, List.not_mem_nil, false_implies, implies_true, and_true]
  tauto

/-- A flag that takes part is encoded again as it was. -/
theorem flowOctet_decodedPort {bit : UInt8} (hbit : bit ∈ [(0b00000001 : UInt8), 0b00000010,
    0b00000100, 0b00001000, 0b00010000, 0b00100000]) (hset : m 8 &&& bit ≠ 0) :
    ((flowOctet (decodedPort m).flowControl &&& bit) != 0) = ((m 4 &&& bit) != 0) := by
  have hflag (value : Bool) : flag ⟨value, (m 8 &&& bit) != 0⟩ = value := by
    rw [flag, bne_iff_ne.mpr hset, Bool.true_and]
  rw [decodedPort_long h8, flowOctet]
  obtain ⟨b1, b2, b3, b4, b5, b6⟩ := sixBits_decoded
    (flag ⟨(m 4 &&& 0b00000001) != 0, (m 8 &&& 0b00000001) != 0⟩)
    (flag ⟨(m 4 &&& 0b00000010) != 0, (m 8 &&& 0b00000010) != 0⟩)
    (flag ⟨(m 4 &&& 0b00000100) != 0, (m 8 &&& 0b00000100) != 0⟩)
    (flag ⟨(m 4 &&& 0b00001000) != 0, (m 8 &&& 0b00001000) != 0⟩)
    (flag ⟨(m 4 &&& 0b00010000) != 0, (m 8 &&& 0b00010000) != 0⟩)
    (flag ⟨(m 4 &&& 0b00100000) != 0, (m 8 &&& 0b00100000) != 0⟩)
  simp only [List.mem_cons, List.not_mem_nil, or_false] at hbit
  rcases hbit with rfl | rfl | rfl | rfl | rfl | rfl
  · exact b1.trans (hflag _)
  · exact b2.trans (hflag _)
  · exact b3.trans (hflag _)
  · exact b4.trans (hflag _)
  · exact b5.trans (hflag _)
  · exact b6.trans (hflag _)

/-- The values that take part come back, but for a reserved rate and for a type of parity that is
given without parity. -/
theorem keepsProposed_iff (octets : ℕ → UInt8) :
    KeepsProposed m ((portNegotiationEncode (decodedPort m)).memory octets) ↔
      (m 7 &&& 0b00000001 ≠ 0 → (m 2).toNat < 9) ∧
      (m 7 &&& 0b00011000 ≠ 0 → m 3 &&& 0b00001000 ≠ 0 ∨ m 3 &&& 0b00110000 = 0) := by
  cases hchanges : portNegotiationHasChanges (decodedPort m)
  · obtain ⟨⟨m1, m2, m3, m4, m5, m6⟩, hflow⟩ := masks_of_no_changes h8 hchanges
    exact iff_of_true ⟨fun h => absurd m1 h, fun h => absurd m2 h, fun h => absurd m3 h,
      fun h => absurd m4 h, fun h => absurd m5 h, fun h => absurd m6 h,
      fun bit hbit h => absurd (hflow bit hbit) h⟩ ⟨fun h => absurd m1 h, fun h => absurd m4 h⟩
  · obtain ⟨e2, e3, e4, e5, e6⟩ := portNegotiationEncode_values hchanges octets
    obtain ⟨hdata, hstop, hparity⟩ := lineOctet_codes (decodedPort m)
    have hspeed : m 7 &&& 0b00000001 ≠ 0 →
        (speedOctet (decodedPort m).speed = m 2 ↔ (m 2).toNat < 9) := by
      intro hset
      rw [decodedPort_long h8, bne_iff_ne.mpr hset]
      exact ⟨fun h => h ▸ speedOctet_lt _, speedOctet_decodeSpeed⟩
    have hparityIff : m 7 &&& 0b00011000 ≠ 0 →
        (parityCode (decodedPort m).parity = m 3 &&& 0b00111000 ↔
          m 3 &&& 0b00001000 ≠ 0 ∨ m 3 &&& 0b00110000 = 0) := by
      intro hset
      have hline : ∀ line : UInt8, (if line &&& 0b00001000 = 0 then 0 else line &&& 0b00111000) =
          line &&& 0b00111000 ↔ line &&& 0b00001000 ≠ 0 ∨ line &&& 0b00110000 = 0 := by
        decide +kernel
      rw [decodedPort_long h8, bne_iff_ne.mpr hset, (lineCodes_decode _).2.2]
      exact hline _
    constructor
    · intro h
      exact ⟨fun hset => (hspeed hset).mp (e2 ▸ h.speed hset),
        fun hset => (hparityIff hset).mp (hparity ▸ e3 ▸ h.parity hset)⟩
    · rintro ⟨hrate, htype⟩
      refine ⟨fun hset => ?_, fun hset => ?_, fun hset => ?_, fun hset => ?_, fun hset => ?_,
        fun hset => ?_, fun bit hbit hset => ?_⟩
      · rw [e2]
        exact (hspeed hset).mpr (hrate hset)
      · rw [e3, hdata, decodedPort_long h8, bne_iff_ne.mpr hset, (lineCodes_decode _).1]
      · rw [e3, hstop, decodedPort_long h8, bne_iff_ne.mpr hset, (lineCodes_decode _).2.1]
      · rw [e3, hparity]
        exact (hparityIff hset).mpr (htype hset)
      · rw [e5, decodedPort_long h8, bne_iff_ne.mpr hset]
        rfl
      · rw [e6, decodedPort_long h8, bne_iff_ne.mpr hset]
        rfl
      · rw [e4]
        exact flowOctet_decodedPort h8 hbit hset

end Proposal

/-- Every setting reported as set has a documented value and is encoded again as it came, exactly
when no reserved rate is proposed, and no type of parity without parity. -/
theorem proposal_understood_iff (body : List UInt8) (hlen : body.length = 9)
    (h8 : body[0]? = some 8) (beyond octets : ℕ → UInt8) :
    let m := view body beyond
    let decoded := (portNegotiationDecode 0 RemotePortParameters.zero).value m
    DocumentedSettings decoded ∧
        KeepsProposed m ((portNegotiationEncode decoded).memory octets) ↔
      (m 7 &&& 0b00000001 ≠ 0 → (m 2).toNat < 9) ∧
      (m 7 &&& 0b00011000 ≠ 0 → m 3 &&& 0b00001000 ≠ 0 ∨ m 3 &&& 0b00110000 = 0) := by
  intro m decoded
  have hm : m 0 = 8 := by
    rw [view_eq_getElem? beyond (by omega)] at h8
    exact Option.some.inj h8
  have hkeeps := keepsProposed_iff hm octets
  have hdocumented := decodedPort_documented_iff hm
  constructor
  · rintro ⟨-, h⟩
    exact hkeeps.mp h
  · intro h
    exact ⟨hdocumented.mpr h.1, hkeeps.mpr h⟩

/-- The proposal of 9600 baud alone. -/
theorem proposal_understood_speed :
    DocumentedSettings ((portNegotiationDecode 0 RemotePortParameters.zero).value
        (view [8, 0x17, 3, 3, 0, 0x11, 0x13, 1, 0] fun _ => 0)) ∧
      KeepsProposed (view [8, 0x17, 3, 3, 0, 0x11, 0x13, 1, 0] fun _ => 0)
        ((portNegotiationEncode ((portNegotiationDecode 0 RemotePortParameters.zero).value
          (view [8, 0x17, 3, 3, 0, 0x11, 0x13, 1, 0] fun _ => 0))).memory fun _ => 0) :=
  (proposal_understood_iff [8, 0x17, 3, 3, 0, 0x11, 0x13, 1, 0] rfl rfl (fun _ => 0)
    fun _ => 0).mpr ⟨by decide, by decide⟩

/-- A reserved rate is reported as set, with the value 0, and encoded again as 115200 baud. -/
theorem not_proposal_understood_reserved :
    ¬ DocumentedSettings ((portNegotiationDecode 0 RemotePortParameters.zero).value
        (view [8, 0x17, 9, 3, 0, 0x11, 0x13, 1, 0] fun _ => 0)) ∧
      ¬ KeepsProposed (view [8, 0x17, 9, 3, 0, 0x11, 0x13, 1, 0] fun _ => 0)
        ((portNegotiationEncode ((portNegotiationDecode 0 RemotePortParameters.zero).value
          (view [8, 0x17, 9, 3, 0, 0x11, 0x13, 1, 0] fun _ => 0))).memory fun _ => 0) := by
  constructor
  · intro h
    exact absurd (h.speed (by decide)) (by decide)
  · intro h
    exact absurd (h.speed (by decide)) (by decide)

end Cmux
