import Cmux.Receiver.Buffer
import Cmux.Service.Codec

/-! What `cmux_client.c` and `cmux_server.c` have in common: two tables with an element for
each DLCI below the configured maximum, and the frames they send. -/
namespace Cmux
open Access Access.Prog

/-- The tables that the init functions allocate, of `maximum_dlci` elements each. -/
inductive Table where
  | terminalOptions
  | terminalStatuses
  deriving DecidableEq, Repr

structure TableAccess where
  table : Table
  index : ℕ
  deriving DecidableEq, Repr

structure Effects (ε : Type) where
  events : List ε
  accesses : List TableAccess
  deriving DecidableEq, Repr

def Effects.none {ε : Type} : Effects ε := ⟨[], []⟩

/-- The event when its callback is registered and its condition holds. -/
def eventIf {ε : Type} (condition : Prop) [Decidable condition] (event : ε) : List ε :=
  if condition then [event] else []

theorem mem_eventIf {ε : Type} {condition : Prop} [Decidable condition] {event e : ε} :
    e ∈ eventIf condition event ↔ condition ∧ e = event := by
  unfold eventIf
  split <;> simp [*]

/-- An event that an observer does not see adds nothing to what he sees. -/
theorem filterMap_eventIf {ε β : Type} {f : ε → Option β} {event : ε} (h : f event = none)
    (condition : Prop) [Decidable condition] : (eventIf condition event).filterMap f = [] := by
  unfold eventIf
  split
  · rw [List.filterMap_cons, h, List.filterMap_nil]
  · rfl

theorem dlci_ne_zero {dlci : UInt8} (h : 1 ≤ dlci) : dlci ≠ 0 := by
  rintro rfl
  exact absurd h (by decide)

/-- A DLCI that fits the tables is admitted. -/
theorem dlci_not_gt {maximumDlci dlci : UInt8} (h : dlci.toNat < min maximumDlci.toNat 64) :
    ¬ dlci > maximumDlci := by
  rw [gt_iff_lt, UInt8.lt_iff_toNat_lt]
  omega

/-- A DLCI that fits the tables and the address field. -/
def InRange (maximumDlci dlci : UInt8) : Prop := dlci.toNat < min maximumDlci.toNat 64

instance (maximumDlci dlci : UInt8) : Decidable (InRange maximumDlci dlci) :=
  inferInstanceAs (Decidable (_ < _))

theorem InRange.not_gt {maximumDlci dlci : UInt8} (h : InRange maximumDlci dlci) :
    ¬ dlci > maximumDlci :=
  dlci_not_gt h

/-- The element of a table at a DLCI. What stands behind the table reads as `zero`. -/
def lookup {α : Type} {n : ℕ} (table : Vector α n) (zero : α) (dlci : UInt8) : α :=
  table[dlci.toNat]?.getD zero

/-- A write to a table at a DLCI. Behind the table it leaves the table as it is. -/
def update {α : Type} {n : ℕ} (table : Vector α n) (dlci : UInt8) (a : α) : Vector α n :=
  table.setIfInBounds dlci.toNat a

theorem lookup_update {α : Type} {n : ℕ} (table : Vector α n) (zero a : α) {d e : UInt8}
    (h : e.toNat < n) :
    lookup (update table d a) zero e = if d = e then a else lookup table zero e := by
  rw [lookup, update, lookup, Vector.getElem?_setIfInBounds]
  by_cases hde : d = e
  · subst hde
    simp [h]
  · have : d.toNat ≠ e.toNat := fun h => hde (UInt8.toNat_inj.mp h)
    simp [hde, this]

theorem lookup_update_of_ne {α : Type} {n : ℕ} (table : Vector α n) (zero a : α) {d e : UInt8}
    (h : d ≠ e) : lookup (update table d a) zero e = lookup table zero e := by
  have hne : d.toNat ≠ e.toNat := fun heq => h (UInt8.toNat_inj.mp heq)
  rw [lookup, update, lookup, Vector.getElem?_setIfInBounds, if_neg hne]

/-- The same write keeps two tables alike at a DLCI. -/
theorem lookup_update_congr {α : Type} {n : ℕ} {table table' : Vector α n} {zero : α} {e : UInt8}
    (h : lookup table zero e = lookup table' zero e) (d : UInt8) (a : α) :
    lookup (update table d a) zero e = lookup (update table' d a) zero e := by
  by_cases hde : d = e
  · subst hde
    simp only [lookup, update, Vector.getElem?_setIfInBounds, if_true]
  · rw [lookup_update_of_ne _ _ _ hde, lookup_update_of_ne _ _ _ hde, h]

theorem lookup_replicate {α : Type} (n : ℕ) (zero : α) (d : UInt8) :
    lookup (Vector.replicate n zero) zero d = zero := by
  rw [lookup, Vector.getElem?_replicate]
  split <;> rfl

section SendFrame
variable {n : ℕ} (maximumDlci : UInt8) (statuses : Vector BuilderFrameInfo n)
  (frameInfo : BuilderFrameInfo) (heap : ℕ → UInt8)

/-- `send_frame`: the statuses after it. The last frame is recorded before it goes out. -/
def sendFrameStatuses : Vector BuilderFrameInfo n :=
  if frameInfo.dlci > maximumDlci then statuses else update statuses frameInfo.dlci frameInfo

/-- `send_frame`: the octets handed to `send_to_interface`, built in an array at `heap`. -/
def sendFrameOctets : Option (List UInt8) :=
  if frameInfo.dlci > maximumDlci then none else some (builtFrame frameInfo heap)

def sendFrameAccesses : List TableAccess :=
  if frameInfo.dlci > maximumDlci then []
  else [⟨Table.terminalStatuses, frameInfo.dlci.toNat⟩]

variable {maximumDlci statuses frameInfo heap}

theorem sendFrameOctets_of_le (frameInfo : BuilderFrameInfo) (heap : ℕ → UInt8)
    (h : ¬ frameInfo.dlci > maximumDlci) :
    sendFrameOctets maximumDlci frameInfo heap = some (builtFrame frameInfo heap) := if_neg h

theorem eq_of_mem_sendFrameOctets {octets : List UInt8}
    (h : octets ∈ sendFrameOctets maximumDlci frameInfo heap) :
    octets = builtFrame frameInfo heap := by
  unfold sendFrameOctets at h
  split at h
  · cases h
  · exact (Option.mem_some_iff.mp h).symm

/-- A frame that goes out carries six bits of its DLCI. -/
theorem sendFrameOctets_address {octets : List UInt8}
    (h : octets ∈ sendFrameOctets maximumDlci frameInfo heap) :
    octets[1]?.map (fun address : UInt8 => address >>> 2) = some (frameInfo.dlci &&& 0x3F) := by
  obtain ⟨rest, hrest⟩ := builtFrame_header frameInfo heap
  rw [eq_of_mem_sendFrameOctets h, hrest, ← (addressOctet_decoded frameInfo).2.2]
  rfl

theorem lookup_sendFrameStatuses_of_ne (zero : BuilderFrameInfo) {d : UInt8}
    (h : frameInfo.dlci ≠ d) :
    lookup (sendFrameStatuses maximumDlci statuses frameInfo) zero d = lookup statuses zero d := by
  unfold sendFrameStatuses
  split
  · rfl
  · exact lookup_update_of_ne statuses zero frameInfo h

theorem lookup_sendFrameStatuses_congr {statuses' : Vector BuilderFrameInfo n}
    {zero : BuilderFrameInfo} {d : UInt8} (h : lookup statuses zero d = lookup statuses' zero d)
    (maximumDlci : UInt8) (frameInfo : BuilderFrameInfo) :
    lookup (sendFrameStatuses maximumDlci statuses frameInfo) zero d =
      lookup (sendFrameStatuses maximumDlci statuses' frameInfo) zero d := by
  unfold sendFrameStatuses
  split
  · exact h
  · exact lookup_update_congr h frameInfo.dlci frameInfo

/-- What is recorded for a DLCI inside the table. -/
theorem lookup_sendFrameStatuses (zero : BuilderFrameInfo) {d : UInt8} {maximumDlci : UInt8}
    {statuses : Vector BuilderFrameInfo maximumDlci.toNat} (h : d.toNat < maximumDlci.toNat) :
    lookup (sendFrameStatuses maximumDlci statuses frameInfo) zero d =
      if frameInfo.dlci = d then frameInfo else lookup statuses zero d := by
  unfold sendFrameStatuses
  split
  next hgt =>
    rw [if_neg]
    rintro rfl
    rw [gt_iff_lt, UInt8.lt_iff_toNat_lt] at hgt
    omega
  next => exact lookup_update statuses zero frameInfo h

end SendFrame

/-! ### Addresses -/

def addressDlci (octets : List UInt8) : Option UInt8 :=
  octets[1]?.map fun address : UInt8 => address >>> 2

theorem sendFrameOctets_dlci {maximumDlci : UInt8} {info : BuilderFrameInfo} {heap : ℕ → UInt8}
    {octets : List UInt8} (h : octets ∈ sendFrameOctets maximumDlci info heap)
    (hrange : InRange maximumDlci info.dlci) : addressDlci octets = some info.dlci := by
  have hdlci : info.dlci.toNat < 64 := by
    unfold InRange at hrange
    omega
  rw [addressDlci, sendFrameOctets_address h, dlci_sixBits_iff.mpr hdlci]

/-- The frame of a request, whose body is encoded into an array at `heap`. Its length is cut
to sixteen bits. -/
def requestFrame (pollFinal : Bool) (dlci : UInt8) (type : ControlType)
    (request : Option (CmuxServicesRequest (ℕ → UInt8))) (heap : ℕ → UInt8) :
    BuilderFrameInfo where
  cr := true
  dlci := dlci
  ea := true
  pollFinal := pollFinal
  type := type
  length := match request with
    | some request => (cmuxServiceRequestGetLength request).toUInt16
    | none => 0
  frameDataBody := request.map fun request =>
    slice ((cmuxServiceRequestEncode request heap).memory heap) 0
      (cmuxServiceRequestGetLength request)

/-- The frame of application data. Its length is cut to sixteen bits. -/
def dataFrame (cr : Bool) (dlci : UInt8) (data : Option (List UInt8)) (len : ℕ) :
    BuilderFrameInfo where
  cr := cr
  dlci := dlci
  ea := true
  frameDataBody := data
  length := len.toUInt16
  pollFinal := false
  type := ControlType.uih

structure ReceivedFrame where
  octets : List UInt8
  valid : frameAt octets = some octets.length

/-- The callback the receive buffer makes for it. -/
def ReceivedFrame.message (frame : ReceivedFrame) : ControlMessage := messageOf frame.octets

/-- The request that both endpoints decode from a message on DLCI 0. -/
def decodedRequest (message : ControlMessage) (beyond : ℕ → UInt8) : CmuxServicesRequest ℕ :=
  (cmuxServiceRequestDecode message.frameInfo.length.toNat).value (message.dataMemory beyond)

/-! ### Frames on the wire -/

/-- The octets are those of a frame of the type on the DLCI, its poll/final bit aside. -/
def IsFrame (type : ControlType) (dlci : UInt8) (octets : List UInt8) : Prop :=
  octets[1]?.map (fun address : UInt8 => address >>> 2) = some dlci ∧
    octets[2]?.map (fun control : UInt8 => control &&& ~~~controlTypePollFinal) = some type

instance (type : ControlType) (dlci : UInt8) (octets : List UInt8) :
    Decidable (IsFrame type dlci octets) := inferInstanceAs (Decidable (_ ∧ _))

theorem isFrame_builtFrame {info : BuilderFrameInfo} (hdlci : info.dlci.toNat < 64)
    (htype : info.type &&& controlTypePollFinal = 0) (heap : ℕ → UInt8) :
    IsFrame info.type info.dlci (builtFrame info heap) := by
  obtain ⟨rest, hrest⟩ := builtFrame_header info heap
  simp only [IsFrame, hrest, List.getElem?_cons_succ, List.getElem?_cons_zero, Option.map_some,
    (addressOctet_decoded info).2.2, (controlOctet_decoded info).1, dlci_sixBits_iff.mpr hdlci,
    type_pollFinal_clear htype, and_self]

/-- A frame has one type and one DLCI. -/
theorem isFrame_iff {type type' : ControlType} {dlci dlci' : UInt8} {octets : List UInt8}
    (h : IsFrame type dlci octets) : IsFrame type' dlci' octets ↔ type' = type ∧ dlci' = dlci := by
  rw [IsFrame, h.1, h.2, Option.some.injEq, Option.some.injEq, and_comm, eq_comm (a := type),
    eq_comm (a := dlci)]

/-- What either endpoint is told about such a frame. -/
theorem processIngressFrame_isFrame {type : ControlType} {dlci : UInt8} {octets : List UInt8}
    (h : IsFrame type dlci octets) (beyond : ℕ → UInt8) :
    (processIngressFrame octets beyond).1.frameInfo.dlci = dlci ∧
      (processIngressFrame octets beyond).1.frameInfo.type = type := by
  obtain ⟨hdlci, htype⟩ := h
  obtain ⟨address, haddress, rfl⟩ := Option.map_eq_some_iff.mp hdlci
  obtain ⟨control, hcontrol, rfl⟩ := Option.map_eq_some_iff.mp htype
  obtain ⟨hlen, rfl⟩ := List.getElem?_eq_some_iff.mp hcontrol
  obtain ⟨hlen', rfl⟩ := List.getElem?_eq_some_iff.mp haddress
  obtain ⟨hd, ht⟩ := parseFrame_header hlen (view octets beyond)
  unfold processIngressFrame
  exact ⟨by rw [hd, view_of_lt hlen'], by rw [ht, controlType, view_of_lt hlen]⟩

end Cmux
