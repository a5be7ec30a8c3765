import Cmux.Frame.Parser
import Cmux.Frame.Builder
import Cmux.Service.Bounds

/-! The service header: where it puts the body, and how long it says the body is. The encoder
writes seven low bits of a long length and then the next eight, the decoder takes the second
octet for the bits from the ninth on. -/
namespace Cmux
open Access Access.Prog

def serviceLength (m : ℕ → UInt8) : UInt16 :=
  if m 1 &&& 0x01 = 0 then (m 1 >>> 1).toUInt16 ||| (m 2).toUInt16 <<< 8 else (m 1 >>> 1).toUInt16

theorem serviceLength_toNat (m : ℕ → UInt8) : (serviceLength m).toNat =
    if m 1 &&& 0x01 = 0 then (m 1).toNat / 2 + 256 * (m 2).toNat else (m 1).toNat / 2 := by
  unfold serviceLength
  split
  · exact twoOctetLength_toNat _ _
  · exact oneOctetLength_toNat _

theorem cmuxServiceDecode_eq {len : ℕ} (h : len ≠ 0) (m : ℕ → UInt8) :
    (cmuxServiceDecode len).value m = ⟨m 0 &&& cmuxServiceMask, (m 0 &&& 0x02) != 0,
      serviceBodyIndex m, (serviceLength m).toNat⟩ := by
  by_cases hx : m 1 &&& 0x01 = 0 <;>
    simp [cmuxServiceDecode, cmuxServiceDecodeLength, serviceBodyIndex, serviceLength, h, hx]

theorem serviceBodyIndex_bounds (m : ℕ → UInt8) :
    2 ≤ serviceBodyIndex m ∧ serviceBodyIndex m ≤ 3 := by
  unfold serviceBodyIndex
  split <;> omega

/-! ### The body and the message -/

section Body
variable (data : List UInt8) (beyond : ℕ → UInt8)

/-- Every octet of the body that the header step announces was received. -/
def BodyInside : Prop :=
  ∀ i, ((cmuxServiceDecode data.length).value (view data beyond)).serviceBody ≤ i →
    i < ((cmuxServiceDecode data.length).value (view data beyond)).serviceBody +
      ((cmuxServiceDecode data.length).value (view data beyond)).serviceBodyLength →
    i < data.length

def TestDataInside : Prop :=
  ∀ test : TestService ℕ, ((cmuxServiceRequestDecode data.length).value
      (view data beyond)).serviceData = ServiceData.testData test →
    ∀ i, test.data ≤ i → i < test.data + test.length → i < data.length

end Body

/-- Index behind the body, an octet that was not received counting as zero. -/
def serviceEnd (data : List UInt8) : ℕ :=
  serviceBodyIndex (view data fun _ => 0) + (serviceLength (view data fun _ => 0)).toNat

/-- A test command hands over the span that the header step announces. -/
theorem testDataInside_of_bodyInside {data : List UInt8} {beyond : ℕ → UInt8}
    (h : BodyInside data beyond) : TestDataInside data beyond := by
  intro test htest i hlow hhigh
  simp only [cmuxServiceRequestDecode, value_bind, value_pure, cmuxServiceDecode_memory] at htest
  unfold cmuxServiceBodyDecode at htest
  split_ifs at htest <;> simp only [value_bind, value_pure, reduceCtorEq] at htest
  obtain rfl := ServiceData.testData.inj htest
  exact h i hlow hhigh

/-- A header that was received in full says the same whatever stands behind the message. -/
theorem serviceEnd_eq {data : List UInt8} (beyond : ℕ → UInt8)
    (h : serviceBodyIndex (view data fun _ => 0) ≤ data.length) :
    serviceBodyIndex (view data beyond) = serviceBodyIndex (view data fun _ => 0) ∧
      serviceLength (view data beyond) = serviceLength (view data fun _ => 0) := by
  have hagree := view_congr data beyond fun _ => 0
  have hbounds := serviceBodyIndex_bounds (view data fun _ => 0)
  have h1 := hagree 1 (by omega)
  by_cases hx : view data (fun _ => 0) 1 &&& 0x01 = 0
  · have hthree : 3 ≤ data.length := by simpa [serviceBodyIndex, hx] using h
    simp only [serviceBodyIndex, serviceLength, h1, hagree 2 (by omega), and_self]
  · simp only [serviceBodyIndex, serviceLength, h1, if_neg hx, and_self]

/-- When the header is cut short, some octet behind the message makes the body reach there. -/
theorem not_bodyInside_of_short {data : List UInt8} (hdata : data ≠ [])
    (h : data.length < serviceBodyIndex (view data fun _ => 0)) :
    ¬ ∀ beyond, BodyInside data beyond := by
  intro hall
  have hpos : data.length ≠ 0 := fun h0 => hdata (List.length_eq_zero_iff.mp h0)
  have hbounds := serviceBodyIndex_bounds (view data fun _ => 0)
  -- an octet of 3 announces one octet in the short form and more in the long one
  have hspan : data.length ≤ serviceBodyIndex (view data fun _ => 3) ∧
      0 < (serviceLength (view data fun _ => 3)).toNat := by
    rw [serviceLength_toNat]
    rcases data with _ | ⟨a, _ | ⟨b, _ | ⟨c, data⟩⟩⟩
    · exact absurd rfl hdata
    · have hodd : (3 : UInt8) &&& 0x01 ≠ 0 := by decide
      simp [serviceBodyIndex, view, hodd]
    · have hb : b &&& 0x01 = 0 := by
        by_contra hb
        simp [serviceBodyIndex, view, hb] at h
      simp [serviceBodyIndex, view, hb]
    · simp only [List.length_cons] at h
      omega
  have hfirst := hall (fun _ => 3) (serviceBodyIndex (view data fun _ => 3))
  rw [cmuxServiceDecode_eq hpos] at hfirst
  have := hfirst (Nat.le_refl _) (by dsimp only; omega)
  omega

/-- Whatever stands behind a message, the body and the pattern of a test command lie inside it
exactly when the message holds its header and as many octets as the header announces. -/
theorem serviceBody_inside_iff (data : List UInt8) (hdata : data ≠ []) :
    (∀ beyond, BodyInside data beyond ∧ TestDataInside data beyond) ↔
      serviceEnd data ≤ data.length := by
  have hpos : data.length ≠ 0 := fun h0 => hdata (List.length_eq_zero_iff.mp h0)
  constructor
  · intro hall
    have hheader : serviceBodyIndex (view data fun _ => 0) ≤ data.length := by
      by_contra hshort
      exact not_bodyInside_of_short hdata (by omega) fun beyond => (hall beyond).1
    have hlast := (hall fun _ => 0).1 (serviceEnd data - 1)
    rw [cmuxServiceDecode_eq hpos] at hlast
    unfold serviceEnd at hlast ⊢
    dsimp only at hlast
    omega
  · intro hend beyond
    have hbody : BodyInside data beyond := by
      intro i _ hi
      unfold serviceEnd at hend
      obtain ⟨hindex, hlength⟩ := @serviceEnd_eq data beyond (by omega)
      rw [cmuxServiceDecode_eq hpos, hindex, hlength] at hi
      dsimp only at hi
      omega
    exact ⟨hbody, testDataInside_of_bodyInside hbody⟩

/-- A test command of one octet. -/
theorem serviceBody_inside_test :
    (∀ beyond, BodyInside [0x23, 0x03, 0x55] beyond ∧ TestDataInside [0x23, 0x03, 0x55] beyond) ↔
      serviceEnd [0x23, 0x03, 0x55] ≤ [(0x23 : UInt8), 0x03, 0x55].length :=
  serviceBody_inside_iff _ (by simp)

/-- A test command that announces five octets and brings one. -/
theorem not_serviceBody_inside_test :
    ¬ ∀ beyond, BodyInside [0x23, 0x0B, 0x55] beyond ∧
      TestDataInside [0x23, 0x0B, 0x55] beyond := by
  intro hall
  have htest := (hall fun _ => 0).2 ⟨2, 5⟩ (by decide) 3 (by decide) (by decide)
  exact absurd htest (by decide)

/-! ### The octets of a service -/

def serviceOctet (service : CmuxService) (cr : Bool) : UInt8 :=
  (service &&& cmuxServiceMask) ||| 0x01 ||| flagBit cr 0x02

def serviceLengthOctets (serviceDataLength : ℕ) : List UInt8 :=
  if serviceDataLength > 127 then
    [((serviceDataLength &&& 0b01111111) <<< 1).toUInt8,
      ((serviceDataLength &&& 0b0111111110000000) >>> 7).toUInt8]
  else [((serviceDataLength <<< 1) ||| 0x01).toUInt8]

def serviceOctets (service : CmuxService) (cr : Bool) (serviceData : List UInt8) : List UInt8 :=
  serviceOctet service cr :: serviceLengthOctets serviceData.length ++ serviceData

theorem serviceLengthOctets_length (n : ℕ) :
    (serviceLengthOctets n).length = if n > 127 then 2 else 1 := by
  unfold serviceLengthOctets
  split <;> rfl

theorem serviceOctets_length (service : CmuxService) (cr : Bool) (serviceData : List UInt8) :
    (serviceOctets service cr serviceData).length =
      cmuxServiceEncodeGetLength serviceData.length := by
  simp only [serviceOctets, cmuxServiceEncodeGetLength, List.length_append, List.length_cons,
    serviceLengthOctets_length]
  omega

theorem cmuxServiceEncodeLength_value (n : ℕ) (m : ℕ → UInt8) :
    (cmuxServiceEncodeLength n).value m = 1 + (serviceLengthOctets n).length := by
  unfold cmuxServiceEncodeLength serviceLengthOctets
  split <;> rfl

theorem cmuxServiceEncodeLength_slice (n : ℕ) (m : ℕ → UInt8) :
    slice ((cmuxServiceEncodeLength n).memory m) 0 (1 + (serviceLengthOctets n).length) =
      slice m 0 1 ++ serviceLengthOctets n := by
  unfold cmuxServiceEncodeLength serviceLengthOctets
  split
  · simp only [memory_bind, memory_store, memory_pure]
    rw [List.length_cons, List.length_singleton, slice_update, slice_update, List.append_assoc]
    rfl
  · simp only [memory_bind, memory_store, memory_pure]
    rw [List.length_singleton, slice_update]

/-- The encoder writes the same octets whatever stood in the output array. -/
theorem cmuxServiceEncode_slice (service : CmuxService) (cr : Bool) (serviceData : List UInt8)
    (octets : ℕ → UInt8) :
    slice ((cmuxServiceEncode service cr serviceData).memory octets) 0
        (cmuxServiceEncodeGetLength serviceData.length) = serviceOctets service cr serviceData := by
  have hlength : cmuxServiceEncodeGetLength serviceData.length =
      1 + (serviceLengthOctets serviceData.length).length + serviceData.length := by
    rw [← serviceOctets_length service cr, serviceOctets, List.length_append, List.length_cons]
    omega
  rw [hlength]
  unfold cmuxServiceEncode
  cases cr with
  | false =>
    simp only [Bool.false_eq_true, if_false, memory_bind, memory_store,
      cmuxServiceEncodeLength_value]
    rw [slice_memory_copy, cmuxServiceEncodeLength_slice]
    simp [slice_succ, serviceOctets, serviceOctet, flagBit]
  | true =>
    simp only [if_true, setBits_memory, memory_bind, memory_store, cmuxServiceEncodeLength_value]
    rw [slice_memory_copy, cmuxServiceEncodeLength_slice]
    simp [slice_succ, serviceOctets, serviceOctet, flagBit]

/-- So does the encoder of a request, of the body that it encoded. -/
theorem cmuxServiceRequestEncode_slice (request : CmuxServicesRequest (ℕ → UInt8))
    (heap octets : ℕ → UInt8) :
    slice ((cmuxServiceRequestEncode request heap).memory octets) 0
        (cmuxServiceRequestGetLength request) =
      serviceOctets request.service request.cr
        (slice ((serviceDataEncoder request).2.memory heap) 0 (serviceDataEncoder request).1) := by
  have h := cmuxServiceEncode_slice request.service request.cr
    (slice ((serviceDataEncoder request).2.memory heap) 0 (serviceDataEncoder request).1) octets
  rwa [slice_length, ← cmuxServiceRequestGetLength_eq] at h

/-! ### Decoding what was encoded -/

theorem lowServiceLength_toNat (n : ℕ) :
    ((n &&& 0b01111111) <<< 1).toUInt8.toNat = 2 * (n % 128) := by
  have hand : n &&& 0b01111111 = n % 128 := Nat.and_two_pow_sub_one_eq_mod _ 7
  rw [hand, Nat.shiftLeft_eq, UInt8.toNat_ofNat']
  omega

theorem highServiceLength_toNat (n : ℕ) :
    ((n &&& 0b0111111110000000) >>> 7).toUInt8.toNat = n / 128 % 256 := by
  have hand : (n &&& 0b0111111110000000) >>> 7 = n / 128 % 256 := by
    rw [Nat.shiftRight_and_distrib, Nat.shiftRight_eq_div_pow]
    exact Nat.and_two_pow_sub_one_eq_mod _ 8
  rw [hand, UInt8.toNat_ofNat']
  omega

theorem shortServiceLength_toNat {n : ℕ} (h : n ≤ 127) :
    ((n <<< 1) ||| 0x01).toUInt8.toNat = 2 * n + 1 := by
  rw [Nat.shiftLeft_eq, UInt8.toNat_ofNat', Nat.mul_comm,
    ← Nat.two_pow_add_eq_or_of_lt (i := 1) (by omega)]
  omega

theorem serviceOctet_decoded (service : CmuxService) (cr : Bool) :
    serviceOctet service cr &&& cmuxServiceMask = service &&& cmuxServiceMask ∧
      ((serviceOctet service cr &&& 0x02) != 0) = cr := by
  have h : ∀ (service : UInt8) (cr : Bool),
      serviceOctet service cr &&& cmuxServiceMask = service &&& cmuxServiceMask ∧
        ((serviceOctet service cr &&& 0x02) != 0) = cr := by decide +kernel
  exact h service cr

def EncodesService (service : CmuxService) (cr : Bool) (serviceData : List UInt8)
    (m : ℕ → UInt8) : Prop :=
  slice m 0 (cmuxServiceEncodeGetLength serviceData.length) = serviceOctets service cr serviceData

section Encoded
variable {service : CmuxService} {cr : Bool} {serviceData : List UInt8} {m : ℕ → UInt8}

/-- What the decoder makes of an encoded service: all is read back but the two-octet length. -/
theorem cmuxServiceDecode_encoded (h : EncodesService service cr serviceData m) :
    (cmuxServiceDecode (cmuxServiceEncodeGetLength serviceData.length)).value m =
        ⟨service &&& cmuxServiceMask, cr, 1 + (serviceLengthOctets serviceData.length).length,
          if serviceData.length > 127 then serviceData.length % 128 + 256 *
            (serviceData.length / 128 % 256) else serviceData.length⟩ ∧
      slice m (1 + (serviceLengthOctets serviceData.length).length) serviceData.length =
        serviceData := by
  have hlength : cmuxServiceEncodeGetLength serviceData.length =
      1 + (serviceLengthOctets serviceData.length).length + serviceData.length := by
    rw [← serviceOctets_length service cr, serviceOctets, List.length_append, List.length_cons]
    omega
  rw [EncodesService, hlength, slice_add, Nat.zero_add, serviceOctets] at h
  obtain ⟨hheader, hbody⟩ := List.append_inj h (by simp; omega)
  refine ⟨?_, hbody⟩
  rw [Nat.add_comm, slice_succ, List.cons.injEq] at hheader
  obtain ⟨h0, hlen⟩ := hheader
  rw [cmuxServiceDecode_eq (by omega), h0, (serviceOctet_decoded service cr).1,
    (serviceOctet_decoded service cr).2, serviceLength_toNat, serviceBodyIndex]
  by_cases hlong : serviceData.length > 127
  · simp only [serviceLengthOctets, if_pos hlong, List.length_cons, List.length_nil, slice_succ,
      slice_zero, List.cons.injEq, and_true] at hlen
    simp only [octet_even_iff, hlen.1, hlen.2, lowServiceLength_toNat, highServiceLength_toNat,
      Nat.mul_mod_right, if_true, serviceLengthOctets_length, if_pos hlong]
    simp
  · simp only [serviceLengthOctets, if_neg hlong, List.length_cons, List.length_nil, slice_succ,
      slice_zero, List.cons.injEq, and_true] at hlen
    simp only [octet_even_iff, hlen, shortServiceLength_toNat (Nat.le_of_not_gt hlong),
      serviceLengthOctets_length, if_neg hlong]
    have : (2 * serviceData.length + 1) % 2 = 1 := by omega
    simp [this]
    omega

end Encoded

structure RepeatsService (service : CmuxService) (cr : Bool) (serviceData : List UInt8)
    (m : ℕ → UInt8) (decoded : DecodedService) : Prop where
  service : decoded.service = service
  cr : decoded.cr = cr
  length : decoded.serviceBodyLength = serviceData.length
  body : slice m decoded.serviceBody decoded.serviceBodyLength = serviceData

def ServiceRoundTrips (service : CmuxService) (cr : Bool) (serviceData : List UInt8)
    (octets : ℕ → UInt8) : Prop :=
  RepeatsService service cr serviceData ((cmuxServiceEncode service cr serviceData).memory octets)
    ((cmuxServiceDecode (cmuxServiceEncodeGetLength serviceData.length)).value
      ((cmuxServiceEncode service cr serviceData).memory octets))

theorem service_masked {service : CmuxService} (h : service &&& 0x03 = 0) :
    service &&& cmuxServiceMask = service :=
  octet_and_not h

/-- A service survives encoding and decoding exactly when its length fits one octet. -/
theorem serviceRoundTrips_iff (service : CmuxService) (hservice : service &&& 0x03 = 0) (cr : Bool)
    (serviceData : List UInt8) (hlength : serviceData.length ≤ 32767) (octets : ℕ → UInt8) :
    ServiceRoundTrips service cr serviceData octets ↔ serviceData.length ≤ 127 := by
  obtain ⟨hdecoded, hbody⟩ := cmuxServiceDecode_encoded
    (cmuxServiceEncode_slice service cr serviceData octets)
  constructor
  · intro h
    have hsame := h.length
    rw [hdecoded] at hsame
    dsimp only at hsame
    split at hsame <;> omega
  · intro hshort
    rw [ServiceRoundTrips, hdecoded, if_neg (Nat.not_lt.mpr hshort)]
    exact ⟨service_masked hservice, rfl, rfl, hbody⟩

theorem serviceRoundTrips_test :
    ServiceRoundTrips CmuxService.test true [0x55] (fun _ => 0) ↔ [(0x55 : UInt8)].length ≤ 127 :=
  serviceRoundTrips_iff _ (by decide) _ _ (by decide) _

/-- The first length of the two-octet form is read back as 256. -/
theorem not_serviceRoundTrips_test :
    ¬ ServiceRoundTrips CmuxService.test true (List.replicate 128 0) (fun _ => 0) := by
  intro h
  have hread : ((cmuxServiceDecode (cmuxServiceEncodeGetLength 128)).value
      ((cmuxServiceEncode CmuxService.test true (List.replicate 128 0)).memory
        fun _ => 0)).serviceBodyLength = 256 := by decide +kernel
  have hlength := h.length
  rw [List.length_replicate, hread] at hlength
  omega

end Cmux
