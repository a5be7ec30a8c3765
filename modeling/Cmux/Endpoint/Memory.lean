import Cmux.Endpoint.Wire
import Cmux.Frame.EmittedCheck
import Cmux.Service.ParameterNegotiation
import Cmux.Service.PortSettings

/-! Where memory shows that no one wrote for the purpose: in a frame whose encoder keeps or checks
octets of the output array that it did not write, and in a request whose decoder runs over the end
of its frame. -/
namespace Cmux
open Access Access.Prog BuilderFrameInfo

/-! ### Frames -/

/-- The body is too short for the length, so that octets of the output array stay in place, or the
checking sequence is taken over them, as that of UI is. -/
def BuilderFrameInfo.ShowsMemory (info : BuilderFrameInfo) : Prop :=
  ¬ info.Complete ∨ info.type = ControlType.ui ∧ info.length ≠ 0

instance (info : BuilderFrameInfo) : Decidable info.ShowsMemory :=
  inferInstanceAs (Decidable (_ ∨ _ ∧ _))

theorem builtFrame_congr {info : BuilderFrameInfo} (h : ¬ info.ShowsMemory)
    (heap heap' : ℕ → UInt8) : builtFrame info heap = builtFrame info heap' := by
  rw [ShowsMemory, not_or, not_not, not_and_or, not_not] at h
  obtain ⟨hbody, hfresh⟩ := h
  rw [builtFrame_octets hbody, builtFrame_octets hbody, checkedOctets_fresh hfresh,
    checkedOctets_fresh hfresh]

/-- Behind a body that is too short the output array shows. -/
theorem builtFrame_stale {info : BuilderFrameInfo} {n : ℕ} (hbody : info.bodyOctets.length ≤ n)
    (hn : n < info.length.toNat) (heap : ℕ → UInt8) :
    (builtFrame info heap)[3 + info.lengthOctets.length + n]? =
      some (heap (3 + info.lengthOctets.length + n)) := by
  rw [builtFrame, slice_getElem?, getFrameLength_eq, if_pos (by omega), Nat.zero_add,
    memory_eq_of_notMem_writes]
  rw [mem_cmuxFrameBuilder_writes]
  omega

theorem exists_builtFrame_ne {info : BuilderFrameInfo} (h : info.ShowsMemory) :
    ∃ heap heap', builtFrame info heap ≠ builtFrame info heap' := by
  by_cases hbody : info.Complete
  · obtain ⟨hui, hlen⟩ := h.resolve_left (not_not.mpr hbody)
    obtain ⟨heap, heap', hne⟩ := exists_checkedOctets_ne hui hlen
    refine ⟨heap, heap', fun heq => hne ?_⟩
    rw [builtFrame_octets hbody, builtFrame_octets hbody] at heq
    simpa using heq
  · have hle : info.bodyOctets.length ≤ info.length.toNat := by
      unfold bodyOctets
      split
      · exact List.length_take_le _ _
      · exact Nat.zero_le _
    have hlt : info.bodyOctets.length < info.length.toNat := Nat.lt_of_le_of_ne hle hbody
    refine ⟨fun _ => 0, fun _ => 1, fun heq => ?_⟩
    have hzero := builtFrame_stale (Nat.le_refl _) hlt fun _ => 0
    rw [heq, builtFrame_stale (Nat.le_refl _) hlt fun _ => 1] at hzero
    exact absurd hzero (by decide)

/-- The body of a request is encoded to the same octets, whatever stood in the array. -/
theorem serviceDataEncoder_congr (request : CmuxServicesRequest (ℕ → UInt8))
    (heap heap' : ℕ → UInt8) :
    slice ((serviceDataEncoder request).2.memory heap) 0 (serviceDataEncoder request).1 =
      slice ((serviceDataEncoder request).2.memory heap') 0 (serviceDataEncoder request).1 := by
  have hcopy (xs : List UInt8) (heap : ℕ → UInt8) :
      slice ((copy 0 xs).memory heap) 0 xs.length = xs := by
    simpa using slice_memory_copy heap 0 xs
  unfold serviceDataEncoder
  split_ifs
  · rw [parameterNegotiationEncode_slice, parameterNegotiationEncode_slice]
  · have hlength := slice_length request.serviceData.getTestData.data 0
      request.serviceData.getTestData.length
    have h := hcopy (slice request.serviceData.getTestData.data 0
      request.serviceData.getTestData.length)
    rw [hlength] at h
    exact (h heap).trans (h heap').symm
  · obtain ⟨haddress, hsignals⟩ := modemStatusEncode_memory request.serviceData.getModemStatus heap
    obtain ⟨haddress', hsignals'⟩ :=
      modemStatusEncode_memory request.serviceData.getModemStatus heap'
    simp only [modemStatusEncodeLength, slice_succ, slice_zero, Nat.zero_add, haddress, hsignals,
      haddress', hsignals']
  · exact (portNegotiationEncode_slice _ heap).trans (portNegotiationEncode_slice _ heap').symm
  · simp [lineStatusEncode, lineStatusEncodeLength, slice_succ]
  · dsimp only
    unfold serviceNegotiationEncode serviceNegotiationEncodeLength
    split_ifs <;> simp [slice_succ]
  · rfl

theorem requestFrame_congr (pollFinal : Bool) (dlci : UInt8) (type : ControlType)
    (services : Option (CmuxServicesRequest (ℕ → UInt8))) (heap heap' : ℕ → UInt8) :
    requestFrame pollFinal dlci type services heap =
      requestFrame pollFinal dlci type services heap' := by
  cases services with
  | none => rfl
  | some request =>
    simp only [requestFrame, Option.map_some, cmuxServiceRequestEncode_slice]
    rw [serviceDataEncoder_congr request heap heap']

theorem requestFrame_complete (pollFinal : Bool) (dlci : UInt8) (type : ControlType)
    (services : Option (CmuxServicesRequest (ℕ → UInt8))) (heap : ℕ → UInt8) :
    (requestFrame pollFinal dlci type services heap).Complete := by
  cases services with
  | none => rfl
  | some request =>
    have hmod : (cmuxServiceRequestGetLength request).toUInt16.toNat ≤
        cmuxServiceRequestGetLength request := by
      rw [UInt16.toNat_ofNat']
      exact Nat.mod_le _ _
    simp only [Complete, bodyOctets, requestFrame, Option.map_some, List.length_take, slice_length,
      Nat.min_eq_left hmod]

/-- A request shows memory when it is sent as UI. -/
def RequestShowsMemory (type : ControlType)
    (services : Option (CmuxServicesRequest (ℕ → UInt8))) : Prop :=
  type = ControlType.ui ∧
    ∃ request ∈ services, (cmuxServiceRequestGetLength request).toUInt16 ≠ 0

instance (type : ControlType) (services : Option (CmuxServicesRequest (ℕ → UInt8))) :
    Decidable (RequestShowsMemory type services) := inferInstanceAs (Decidable (_ ∧ _))

/-- Data shows memory when there is less of it than the sixteen bits of its length say. -/
def DataShowsMemory (data : Option (List UInt8)) (len : ℕ) : Prop :=
  (data.getD []).length < len % 2 ^ 16

instance (data : Option (List UInt8)) (len : ℕ) : Decidable (DataShowsMemory data len) :=
  inferInstanceAs (Decidable (_ < _))

theorem requestFrame_showsMemory_iff (pollFinal : Bool) (dlci : UInt8) (type : ControlType)
    (services : Option (CmuxServicesRequest (ℕ → UInt8))) (heap : ℕ → UInt8) :
    (requestFrame pollFinal dlci type services heap).ShowsMemory ↔
      RequestShowsMemory type services := by
  rw [ShowsMemory, or_iff_right (not_not.mpr (requestFrame_complete pollFinal dlci type services
    heap)), RequestShowsMemory]
  cases services with
  | none => simp [requestFrame]
  | some request => simp [requestFrame]

theorem dataFrame_showsMemory_iff (cr : Bool) (dlci : UInt8) (data : Option (List UInt8))
    (len : ℕ) : (dataFrame cr dlci data len).ShowsMemory ↔ DataShowsMemory data len := by
  have huih : ControlType.uih ≠ ControlType.ui := by decide
  cases data with
  | none => simp [ShowsMemory, Complete, bodyOctets, dataFrame, huih, DataShowsMemory]
  | some data =>
    have hlength : (dataFrame cr dlci (some data) len).bodyOctets.length =
        min (len % 2 ^ 16) data.length := by simp [bodyOctets, dataFrame]
    have hlen : (dataFrame cr dlci (some data) len).length.toNat = len % 2 ^ 16 := by
      simp [dataFrame]
    rw [ShowsMemory, or_iff_left fun h => huih h.1, Complete, hlength, hlen]
    simp only [DataShowsMemory, Option.getD_some]
    omega

/-! ### Requests -/

structure Opposed (n : ℕ) (m m' : ℕ → UInt8) : Prop where
  same : ∀ i < n, m i = m' i
  zero : ∀ i ≥ n, m i = 0
  full : ∀ i ≥ n, m' i = 0xFF

theorem opposed_view (xs : List UInt8) :
    Opposed xs.length (view xs fun _ => 0) (view xs fun _ => 0xFF) where
  same := view_congr xs _ _
  zero i hi := by rw [view, List.getElem?_eq_none hi, Option.getD_none]
  full i hi := by rw [view, List.getElem?_eq_none hi, Option.getD_none]

section Bodies
variable {n o : ℕ} {m m' : ℕ → UInt8} (h : Opposed n m m')
include h

/-- The inner length, when it lies inside, is the same; outside it is no length that counts. -/
theorem Opposed.innerLength (o : ℕ) {length : UInt8} (hzero : length ≠ 0)
    (hfull : length ≠ 0xFF) : m o = length ∧ m' o = length ∨ m o ≠ length ∧ m' o ≠ length := by
  rcases Nat.lt_or_ge o n with hlt | hge
  · rw [← h.same o hlt, and_self, and_self]
    exact em _
  · rw [h.zero o hge, h.full o hge]
    exact Or.inr ⟨hzero.symm, hfull.symm⟩

theorem parameterNegotiationDecode_ne (ho : n < o + 8) :
    (parameterNegotiationDecode o).value m ≠ (parameterNegotiationDecode o).value m' := by
  intro heq
  have hlast : n ≤ o + 7 := by omega
  have hwindow := congrArg ParameterNegotiationParameters.windowSize heq
  simp [parameterNegotiationDecode, h.zero _ hlast, h.full _ hlast] at hwindow
  exact absurd hwindow (by decide)

theorem modemStatusDecode_ne (ho : n < o + 2) :
    (modemStatusDecode o).value m ≠ (modemStatusDecode o).value m' := by
  intro heq
  have hlast : n ≤ o + 1 := by omega
  have hsignal := congrArg ModemStatus.fc heq
  simp [modemStatusDecode, h.zero _ hlast, h.full _ hlast] at hsignal
  exact absurd hsignal (by decide)

theorem lineStatusDecode_ne (ho : n < o + 2) :
    (lineStatusDecode o).value m ≠ (lineStatusDecode o).value m' := by
  intro heq
  have hlast : n ≤ o + 1 := by omega
  have hstatus := congrArg LineStatusParameters.status heq
  simp [lineStatusDecode, h.zero _ hlast, h.full _ hlast] at hstatus
  exact absurd hstatus (by decide)

theorem serviceNegotiationDecode_ne (ho : n < o + serviceNegotiationNeed m o) :
    (serviceNegotiationDecode o).value m ≠ (serviceNegotiationDecode o).value m' := by
  intro heq
  unfold serviceNegotiationNeed at ho
  rcases h.innerLength o (show (3 : UInt8) ≠ 0 by decide) (by decide) with ⟨h3, h3'⟩ | ⟨h3, h3'⟩
  · rw [if_pos h3] at ho
    have hlast : n ≤ o + 3 := by omega
    have hcodec := congrArg ServiceNegotiationParameters.voiceCodec heq
    simp [serviceNegotiationDecode, h3, h3', h.zero _ hlast, h.full _ hlast] at hcodec
    exact absurd hcodec (by decide)
  · rw [if_neg h3] at ho
    have hlast : n ≤ o + 1 := by omega
    have hdlci := congrArg ServiceNegotiationParameters.dlci heq
    simp [serviceNegotiationDecode, h3, h3', h.zero _ hlast, h.full _ hlast] at hdlci
    exact absurd hdlci (by decide)

theorem portNegotiationDecode_ne (parameters : RemotePortParameters)
    (ho : n < o + portNegotiationNeed m o) : (portNegotiationDecode o parameters).value m ≠
      (portNegotiationDecode o parameters).value m' := by
  intro heq
  unfold portNegotiationNeed at ho
  rcases h.innerLength o (show (8 : UInt8) ≠ 0 by decide) (by decide) with ⟨h8, h8'⟩ | ⟨h8, h8'⟩
  · rw [if_pos h8] at ho
    have hlast : n ≤ o + 8 := by omega
    have hmask := congrArg
      (fun parameters => parameters.flowControl.input.xonXoff.isSet) heq
    simp [portNegotiationDecode, portNegotiationDecodeValues, h8, h8', h.zero _ hlast,
      h.full _ hlast] at hmask
    exact absurd hmask (by decide)
  · rw [if_neg h8] at ho
    have hlast : n ≤ o + 1 := by omega
    have hdlci := congrArg RemotePortParameters.dlci heq
    simp [portNegotiationDecode, h8, h8', h.zero _ hlast, h.full _ hlast] at hdlci
    exact absurd hdlci (by decide)

/-- The last cell that a body decoder reads shows in what it makes of the body. -/
theorem cmuxServiceBodyDecode_ne {decoded : DecodedService} (ho : decoded.serviceBody ≤ n)
    (hneed : n < decoded.serviceBody +
      serviceBodyNeed decoded.service m decoded.serviceBody) :
    (cmuxServiceBodyDecode decoded).value m ≠ (cmuxServiceBodyDecode decoded).value m' := by
  unfold serviceBodyNeed at hneed
  unfold cmuxServiceBodyDecode
  split_ifs at hneed ⊢ <;> simp only [value_bind, value_pure, ne_eq,
    ServiceData.parameterNegotiationParameters.injEq, ServiceData.modemStatus.injEq,
    ServiceData.portParameters.injEq, ServiceData.lineStatus.injEq,
    ServiceData.serviceNegotiationParameters.injEq]
  · exact parameterNegotiationDecode_ne h hneed
  · omega
  · exact modemStatusDecode_ne h hneed
  · exact portNegotiationDecode_ne h _ hneed
  · exact lineStatusDecode_ne h hneed
  · exact serviceNegotiationDecode_ne h hneed
  · omega

end Bodies

section Received
variable (frame : ReceivedFrame)

def ReceivedFrame.DecodesBeyond : Prop :=
  frame.message.frameInfo.dlci = 0 ∧ frame.message.frameInfo.length > 0 ∧
    frame.message.frameInfo.length.toNat + 2 < messageEnd (frame.message.dataMemory fun _ => 0)

instance : Decidable frame.DecodesBeyond := inferInstanceAs (Decidable (_ ∧ _ ∧ _))

variable {frame}

/-- From the data pointer on the frame holds the information field and its two last octets. -/
theorem ReceivedFrame.length_fromData (h : frame.message.frameInfo.length > 0) :
    (frame.octets.drop frame.message.frameInfo.frameDataIndex.toNat).length =
      frame.message.frameInfo.length.toNat + 2 := by
  have hlength := frame.length_eq
  have hindex : frame.message.frameInfo.frameDataIndex =
      (bodyIndex (view frame.octets fun _ => 0) : ℤ) := if_pos h
  rw [hindex, Int.toNat_natCast, List.length_drop]
  omega

theorem ReceivedFrame.dataMemory_congr (h : frame.message.frameInfo.length > 0)
    (heap heap' : ℕ → UInt8) : ∀ i < frame.message.frameInfo.length.toNat + 2,
      frame.message.dataMemory heap i = frame.message.dataMemory heap' i := by
  rw [← frame.length_fromData h]
  exact view_congr _ _ _

/-- The decoder looks at the length of a message only to see that there is one. -/
theorem cmuxServiceRequestDecode_succ (len : ℕ) :
    cmuxServiceRequestDecode (len + 1) = cmuxServiceRequestDecode 1 := by
  simp [cmuxServiceRequestDecode, cmuxServiceDecode]

/-- The service lies inside the frame. -/
theorem ReceivedFrame.decodedRequest_service_congr (h : frame.message.frameInfo.length > 0)
    (heap heap' : ℕ → UInt8) : (decodedRequest frame.message heap).service =
      (decodedRequest frame.message heap').service := by
  obtain ⟨service, hservice, hdecoded, -⟩ := frame.decodedRequest_eq h heap
  obtain ⟨service', hservice', hdecoded', -⟩ := frame.decodedRequest_eq h heap'
  rw [hdecoded, hdecoded', Option.mem_unique hservice hservice']

theorem ReceivedFrame.decodedRequest_congr (hpos : frame.message.frameInfo.length > 0)
    (h : messageEnd (frame.message.dataMemory fun _ => 0) ≤
      frame.message.frameInfo.length.toNat + 2) (heap heap' : ℕ → UInt8) :
    decodedRequest frame.message heap = decodedRequest frame.message heap' := by
  have hend : messageEnd (frame.message.dataMemory heap) ≤
      frame.message.frameInfo.length.toNat + 2 := by
    rwa [← messageEnd_congr (frame.dataMemory_congr hpos _ heap) h]
  obtain ⟨len, hlen⟩ : ∃ len, frame.message.frameInfo.length.toNat = len + 1 :=
    Nat.exists_eq_succ_of_ne_zero (Nat.ne_of_gt (UInt16.lt_iff_toNat_lt.mp hpos))
  have hreads := cmuxServiceRequestDecode_readsBelow (frame.message.dataMemory heap) |>.mpr
    (Or.inr hend)
  have hvalue := value_congr_of_readsBelow _ (frame.dataMemory_congr hpos heap heap') hreads
  rw [hlen, cmuxServiceRequestDecode_succ] at hvalue
  rw [decodedRequest, decodedRequest, hlen, cmuxServiceRequestDecode_succ]
  exact hvalue

theorem ReceivedFrame.decodedRequest_ne (h : frame.DecodesBeyond) :
    decodedRequest frame.message (fun _ => 0) ≠ decodedRequest frame.message fun _ => 0xFF := by
  obtain ⟨-, hpos, hend⟩ := h
  have hlength : frame.message.frameInfo.length.toNat ≠ 0 :=
    Nat.ne_of_gt (UInt16.lt_iff_toNat_lt.mp hpos)
  have hopposed : Opposed (frame.message.frameInfo.length.toNat + 2)
      (frame.message.dataMemory fun _ => 0) (frame.message.dataMemory fun _ => 0xFF) := by
    rw [← frame.length_fromData hpos]
    exact opposed_view _
  unfold decodedRequest
  generalize frame.message.dataMemory (fun _ => 0) = m at hend hopposed ⊢
  -- the header lies inside the frame, so both memories hold the same one
  have hindex := serviceBodyIndex_bounds m
  have hheader : (cmuxServiceDecode frame.message.frameInfo.length.toNat).value m =
      (cmuxServiceDecode frame.message.frameInfo.length.toNat).value
        (frame.message.dataMemory fun _ => 0xFF) := by
    rw [cmuxServiceDecode_eq hlength, cmuxServiceDecode_eq hlength, serviceBodyIndex,
      serviceBodyIndex, serviceLength, serviceLength, hopposed.same 0 (by omega),
      hopposed.same 1 (by omega), hopposed.same 2 (by omega)]
  have hbody : (cmuxServiceDecode frame.message.frameInfo.length.toNat).value m =
      ⟨m 0 &&& cmuxServiceMask, (m 0 &&& 0x02) != 0, serviceBodyIndex m,
        (serviceLength m).toNat⟩ := cmuxServiceDecode_eq hlength m
  intro heq
  have hdata := congrArg CmuxServicesRequest.serviceData heq
  simp only [cmuxServiceRequestDecode, value_bind, value_pure,
    cmuxServiceDecode_memory, ← hheader] at hdata
  refine cmuxServiceBodyDecode_ne hopposed ?_ ?_ hdata
  · rw [hbody]
    dsimp only
    omega
  · rw [hbody]
    exact hend

end Received
end Cmux
