import Cmux.Service.Codec

/-! What decoding a service request reads. The length of the message is handed to the header
step only, which does not look at it again, so a message that ends early is read beyond its
end. -/
namespace Cmux
open Access Access.Prog

/-- Index of the body, behind one length octet or two. -/
def serviceBodyIndex (m : ℕ → UInt8) : ℕ := if m 1 &&& 0x01 = 0 then 3 else 2

/-- A port negotiation of inner length eight has nine octets, every other counts as two. -/
def portNegotiationNeed (m : ℕ → UInt8) (o : ℕ) : ℕ := if m o = 8 then 9 else 2

def serviceNegotiationNeed (m : ℕ → UInt8) (o : ℕ) : ℕ := if m o = 3 then 4 else 2

/-- Octets that the body decoder of a service reads from index `o` on. -/
def serviceBodyNeed (service : CmuxService) (m : ℕ → UInt8) (o : ℕ) : ℕ :=
  if service = CmuxService.parameterNegotiation then 8
  else if service = CmuxService.test then 0
  else if service = CmuxService.modemStatus then 2
  else if service = CmuxService.remotePortNegotiation then portNegotiationNeed m o
  else if service = CmuxService.remoteLineStatus then 2
  else if service = CmuxService.serviceNegotiation then serviceNegotiationNeed m o
  else 0

/-- Index behind the last octet that decoding the message needs. -/
def messageEnd (m : ℕ → UInt8) : ℕ :=
  serviceBodyIndex m + serviceBodyNeed (m 0 &&& cmuxServiceMask) m (serviceBodyIndex m)

section Decoders
variable (o len : ℕ) (m : ℕ → UInt8)

theorem parameterNegotiationDecode_readsBelow :
    (parameterNegotiationDecode o).ReadsBelow len m ↔ o + 8 ≤ len := by
  simp [ReadsBelow, parameterNegotiationDecode]
  omega

theorem modemStatusDecode_readsBelow :
    (modemStatusDecode o).ReadsBelow len m ↔ o + 2 ≤ len := by
  simp [ReadsBelow, modemStatusDecode]
  omega

theorem lineStatusDecode_readsBelow :
    (lineStatusDecode o).ReadsBelow len m ↔ o + 2 ≤ len := by
  simp [ReadsBelow, lineStatusDecode]
  omega

theorem serviceNegotiationDecode_readsBelow :
    (serviceNegotiationDecode o).ReadsBelow len m ↔ o + serviceNegotiationNeed m o ≤ len := by
  by_cases h : m o = 3 <;>
    simp [ReadsBelow, serviceNegotiationDecode, serviceNegotiationNeed, h] <;> omega

theorem portNegotiationDecode_readsBelow (parameters : RemotePortParameters) :
    (portNegotiationDecode o parameters).ReadsBelow len m ↔
      o + portNegotiationNeed m o ≤ len := by
  by_cases h : m o = 8 <;> simp [ReadsBelow, portNegotiationDecode, portNegotiationDecodeValues,
    portNegotiationNeed, h] <;> omega

end Decoders

theorem cmuxServiceBodyDecode_readsBelow (decoded : DecodedService) {len : ℕ} (m : ℕ → UInt8)
    (h : decoded.serviceBody ≤ len) : (cmuxServiceBodyDecode decoded).ReadsBelow len m ↔
      decoded.serviceBody + serviceBodyNeed decoded.service m decoded.serviceBody ≤ len := by
  unfold cmuxServiceBodyDecode serviceBodyNeed
  split_ifs <;> simp only [readsBelow_bind, readsBelow_pure, and_true, Nat.add_zero, h,
    parameterNegotiationDecode_readsBelow, modemStatusDecode_readsBelow,
    portNegotiationDecode_readsBelow, lineStatusDecode_readsBelow,
    serviceNegotiationDecode_readsBelow]

section Message
variable {len : ℕ} (m : ℕ → UInt8)

theorem cmuxServiceDecode_value (h : len ≠ 0) :
    ((cmuxServiceDecode len).value m).service = m 0 &&& cmuxServiceMask ∧
      ((cmuxServiceDecode len).value m).serviceBody = serviceBodyIndex m := by
  by_cases hx : m 1 &&& 0x01 = 0 <;>
    simp [cmuxServiceDecode, cmuxServiceDecodeLength, serviceBodyIndex, h, hx]

theorem cmuxServiceDecode_memory : (cmuxServiceDecode len).memory m = m := by
  by_cases h : len = 0 <;> simp [cmuxServiceDecode, cmuxServiceDecodeLength, h]

/-- The header step reads up to the body. -/
theorem cmuxServiceDecode_readsBelow (h : len ≠ 0) :
    (cmuxServiceDecode len).ReadsBelow len m ↔ serviceBodyIndex m ≤ len := by
  by_cases hx : m 1 &&& 0x01 = 0 <;>
    simp [ReadsBelow, cmuxServiceDecode, cmuxServiceDecodeLength, serviceBodyIndex, h, hx] <;>
    omega

theorem cmuxServiceRequestDecode_readsBelow :
    (cmuxServiceRequestDecode len).ReadsBelow len m ↔ len = 0 ∨ messageEnd m ≤ len := by
  by_cases h : len = 0
  · subst h
    have hreads : (cmuxServiceRequestDecode 0).reads m = [] := rfl
    exact iff_of_true (fun i hi => by simp [hreads] at hi) (.inl rfl)
  obtain ⟨hservice, hbody⟩ := cmuxServiceDecode_value m h
  rw [cmuxServiceRequestDecode, readsBelow_bind, readsBelow_bind, cmuxServiceDecode_memory,
    cmuxServiceDecode_readsBelow m h, or_iff_right h, messageEnd, ← hservice, ← hbody]
  constructor
  · rintro ⟨hheader, hbodyReads, -⟩
    exact (cmuxServiceBodyDecode_readsBelow _ m hheader).mp hbodyReads
  · intro hall
    have hheader : ((cmuxServiceDecode len).value m).serviceBody ≤ len := by omega
    exact ⟨hheader, (cmuxServiceBodyDecode_readsBelow _ m hheader).mpr hall,
      readsBelow_pure _ _ _⟩

end Message

section Agreement
variable {len : ℕ} {m m' : ℕ → UInt8} (h : ∀ i < len, m i = m' i)
include h

/-- What a body needs is decided by its first octet, which it needs itself. -/
theorem serviceBodyNeed_congr (service : CmuxService) {o : ℕ}
    (hle : o + serviceBodyNeed service m o ≤ len) :
    serviceBodyNeed service m o = serviceBodyNeed service m' o := by
  have hport : 2 ≤ portNegotiationNeed m o := by unfold portNegotiationNeed; split <;> omega
  have hsnc : 2 ≤ serviceNegotiationNeed m o := by
    unfold serviceNegotiationNeed
    split <;> omega
  unfold serviceBodyNeed at hle ⊢
  split_ifs at hle ⊢
  · rfl
  · rfl
  · rfl
  · rw [portNegotiationNeed, portNegotiationNeed, h o (by omega)]
  · rfl
  · rw [serviceNegotiationNeed, serviceNegotiationNeed, h o (by omega)]
  · rfl

/-- Where a message that is all there ends is decided by its own octets. -/
theorem messageEnd_congr (hle : messageEnd m ≤ len) : messageEnd m = messageEnd m' := by
  have hindex : 2 ≤ serviceBodyIndex m := by unfold serviceBodyIndex; split <;> omega
  have hpos : serviceBodyIndex m ≤ len := Nat.le_trans (Nat.le_add_right _ _) hle
  have hsame : serviceBodyIndex m = serviceBodyIndex m' := by
    rw [serviceBodyIndex, serviceBodyIndex, h 1 (by omega)]
  rw [messageEnd, serviceBodyNeed_congr h _ hle, messageEnd, ← hsame, h 0 (by omega)]

end Agreement

/-- Decoding a message reads inside it exactly when it holds the header and all that the
decoder of its service reads. -/
theorem cmuxServiceRequestDecode_inside_iff (data : List UInt8) (beyond : ℕ → UInt8) :
    (cmuxServiceRequestDecode data.length).ReadsBelow data.length (view data beyond) ↔
      data = [] ∨ messageEnd (view data fun _ => 0) ≤ data.length := by
  rw [cmuxServiceRequestDecode_readsBelow, List.length_eq_zero_iff]
  have hagree := view_congr data beyond fun _ => 0
  refine or_congr_right ⟨fun h => ?_, fun h => ?_⟩
  · rwa [← messageEnd_congr hagree h]
  · rwa [← messageEnd_congr (fun i hi => (hagree i hi).symm) h]

/-- A parameter negotiation without a body. -/
theorem not_inside_parameterNegotiation :
    ¬ (cmuxServiceRequestDecode [0x83, 0x01].length).ReadsBelow [(0x83 : UInt8), 0x01].length
      (view [0x83, 0x01] fun _ => 0) := by
  decide

end Cmux
