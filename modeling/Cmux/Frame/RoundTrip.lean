import Cmux.Foundation.Framing
import Cmux.Frame.Builder
import Cmux.Frame.Parser

/-! What the encoder writes, and what the three decoders make of it. The encoder lays a
two-octet length out in seven and eight bits, the decoders put the second octet eight bits
up, so the two sides meet on the one-octet form only. -/
namespace Cmux
open Access Access.Prog

namespace BuilderFrameInfo
variable (info : BuilderFrameInfo)

def addressOctet : UInt8 := flagBit info.ea 0x01 ||| flagBit info.cr 0x02 ||| (info.dlci <<< 2)

def controlOctet : UInt8 := info.type ||| flagBit info.pollFinal controlTypePollFinal

def lengthOctets : List UInt8 :=
  if info.length > 127 then
    [((info.length &&& 0b01111111) <<< 1).toUInt8,
      ((info.length &&& 0b0111111110000000) >>> 7).toUInt8]
  else [(((info.length &&& 0b01111111) <<< 1) ||| 0x01).toUInt8]

/-- What the checking sequence of a frame other than UI covers. -/
def coveredOctets : List UInt8 := info.addressOctet :: info.controlOctet :: info.lengthOctets

def octets : List UInt8 :=
  cmuxFrameHeaderFooter :: info.coveredOctets ++ info.bodyOctets ++
    [crc info.coveredOctets, cmuxFrameHeaderFooter]

/-- The body holds as many octets as the length announces. -/
def Complete : Prop := info.bodyOctets.length = info.length.toNat

instance : Decidable info.Complete := inferInstanceAs (Decidable (_ = _))

variable {info}

theorem bodyOctets_of_some {body : List UInt8} (h : info.frameDataBody = some body)
    (hlen : body.length = info.length.toNat) : info.bodyOctets = body := by
  simp only [bodyOctets, h]
  exact List.take_of_length_le (by omega)

theorem complete_of_some {body : List UInt8} (h : info.frameDataBody = some body)
    (hlen : body.length = info.length.toNat) : info.Complete := by
  rw [Complete, bodyOctets_of_some h hlen, hlen]

theorem lengthOctets_length (info : BuilderFrameInfo) :
    info.lengthOctets.length = if info.length.toNat > 127 then 2 else 1 := by
  have : info.length > 127 ↔ info.length.toNat > 127 := UInt16.lt_iff_toNat_lt
  simp only [lengthOctets, this]
  split <;> rfl

theorem getFrameLength_eq (info : BuilderFrameInfo) :
    cmuxFrameBuilderGetFrameLength info.length.toNat =
      3 + info.lengthOctets.length + info.length.toNat + 2 := by
  rw [lengthOctets_length, cmuxFrameBuilderGetFrameLength]
  dsimp only [cmuxFrameHeaderSize, cmuxFrameExtendedLengthSize, cmuxFrameLengthSize,
    cmuxFrameFooterSize]
  split <;> omega

/-- The promised frame length is the number of octets of the frame. -/
theorem octets_length (h : info.Complete) :
    info.octets.length = cmuxFrameBuilderGetFrameLength info.length.toNat := by
  have hbody : info.bodyOctets.length = info.length.toNat := h
  rw [getFrameLength_eq, octets, coveredOctets]
  simp only [List.length_append, List.length_cons, List.length_nil, hbody]
  omega

end BuilderFrameInfo

open BuilderFrameInfo

theorem buildLength_value (info : BuilderFrameInfo) (m : ℕ → UInt8) :
    (buildLength info.length).value m = 3 + info.lengthOctets.length := by
  simp only [buildLength, lengthOctets, value_ite, value_bind, value_pure]
  split <;> rfl

theorem buildLength_slice (info : BuilderFrameInfo) (m : ℕ → UInt8) :
    slice ((buildLength info.length).memory m) 0 (3 + info.lengthOctets.length) =
      slice m 0 3 ++ info.lengthOctets := by
  by_cases h : info.length > 127
  · simp only [buildLength, lengthOctets, h, if_true, memory_bind, memory_store, memory_pure]
    rw [List.length_cons, List.length_singleton, slice_update, slice_update, List.append_assoc]
    rfl
  · simp only [buildLength, lengthOctets, h, if_false, memory_bind, memory_store, memory_pure]
    rw [List.length_singleton, slice_update]

theorem buildLength_writes (info : BuilderFrameInfo) (m : ℕ → UInt8) :
    (buildLength info.length).writes m = List.range' 3 info.lengthOctets.length := by
  simp only [buildLength, lengthOctets, writes_ite, writes_bind, writes_store, writes_pure]
  split <;> rfl

theorem buildLength_memory (info : BuilderFrameInfo) (m : ℕ → UInt8) {i : ℕ}
    (hi : i < 3 ∨ 3 + info.lengthOctets.length ≤ i) :
    (buildLength info.length).memory m i = m i := by
  apply memory_eq_of_notMem_writes
  rw [buildLength_writes, List.mem_range'_1]
  omega

/-- The cells the encoder writes: the header, the body it was given, and the footer. -/
theorem mem_cmuxFrameBuilder_writes (info : BuilderFrameInfo) (frame : ℕ → UInt8) {i : ℕ} :
    i ∈ (cmuxFrameBuilder info).writes frame ↔
      i < 3 + info.lengthOctets.length + info.bodyOctets.length ∨
        i = 3 + info.lengthOctets.length + info.length.toNat ∨
        i = 3 + info.lengthOctets.length + info.length.toNat + 1 := by
  simp only [cmuxFrameBuilder, writes_bind, writes_store, writes_ite, writes_copy, cmuxCrc_writes,
    buildLength_writes, buildLength_value, ite_self, List.mem_append, List.mem_range'_1,
    List.mem_singleton, List.not_mem_nil, false_or]
  omega

/-- What the encoder takes the checking sequence over: for UI also what the output array held
where the information field goes. -/
def BuilderFrameInfo.checkedOctets (info : BuilderFrameInfo) (frame : ℕ → UInt8) : List UInt8 :=
  info.coveredOctets ++ if info.type = ControlType.ui then
    slice frame (3 + info.lengthOctets.length) info.length.toNat else []

/-- What the encoder writes for a complete body. -/
theorem builtFrame_octets {info : BuilderFrameInfo} (hbody : info.Complete) (frame : ℕ → UInt8) :
    builtFrame info frame = cmuxFrameHeaderFooter :: info.coveredOctets ++ info.bodyOctets ++
      [crc (info.checkedOctets frame), cmuxFrameHeaderFooter] := by
  rw [builtFrame, ← octets_length hbody]
  have hheader : slice (Function.update (Function.update (Function.update frame 0
      cmuxFrameHeaderFooter) 1 info.addressOctet) 2 info.controlOctet) 0 3 =
      [cmuxFrameHeaderFooter, info.addressOctet, info.controlOctet] := by
    rw [slice_update, slice_update, slice_update]
    rfl
  set m₀ := Function.update (Function.update (Function.update frame 0 cmuxFrameHeaderFooter) 1
    info.addressOctet) 2 info.controlOctet with hm₀
  set m₁ := (buildLength info.length).memory m₀ with hm₁
  have hcovered : slice m₁ 0 (3 + info.lengthOctets.length) =
      cmuxFrameHeaderFooter :: info.coveredOctets := by
    rw [hm₁, buildLength_slice, hheader]
    rfl
  have hstale : ∀ k, m₁ (3 + info.lengthOctets.length + k) =
      frame (3 + info.lengthOctets.length + k) := by
    intro k
    rw [hm₁, buildLength_memory info m₀ (.inr (by omega)), hm₀, Function.update_of_ne (by omega),
      Function.update_of_ne (by omega), Function.update_of_ne (by omega)]
  have hshort : slice m₁ 1 (3 + info.lengthOctets.length - 1) = info.coveredOctets := by
    rw [slice_tail, Nat.sub_add_cancel (by omega), hcovered, List.tail_cons]
  have hlong : slice m₁ 1 (3 + info.lengthOctets.length - 1 + info.length.toNat) =
      info.coveredOctets ++ slice frame (3 + info.lengthOctets.length) info.length.toNat := by
    rw [slice_add, hshort, Nat.add_sub_of_le (by omega), slice_congr fun k _ => hstale k]
  have hmemory : (cmuxFrameBuilder info).memory frame =
      Function.update (Function.update
        ((copy (3 + info.lengthOctets.length) info.bodyOctets).memory m₁)
        (3 + info.lengthOctets.length + info.bodyOctets.length) (crc (info.checkedOctets frame)))
        (3 + info.lengthOctets.length + info.bodyOctets.length + 1) cmuxFrameHeaderFooter := by
    have hb : info.bodyOctets.length = info.length.toNat := hbody
    by_cases hui : info.type = ControlType.ui
    · rw [checkedOctets, if_pos hui, ← hlong, hb]
      simp only [cmuxFrameBuilder, memory_bind, memory_store, buildLength_value, if_pos hui,
        cmuxCrc_value, cmuxCrc_memory]
      rfl
    · rw [checkedOctets, if_neg hui, List.append_nil, ← hshort, hb]
      simp only [cmuxFrameBuilder, memory_bind, memory_store, buildLength_value, if_neg hui,
        cmuxCrc_value, cmuxCrc_memory]
      rfl
  have hlength : info.octets.length =
      3 + info.lengthOctets.length + info.bodyOctets.length + 1 + 1 := by
    simp only [octets, coveredOctets, List.length_append, List.length_cons, List.length_nil]
    omega
  rw [hmemory, hlength, slice_update, slice_update, slice_memory_copy, hcovered]
  simp

/-- For every frame other than UI with a complete body the encoder writes the same octets,
whatever stood in the output array. -/
theorem builtFrame_eq {info : BuilderFrameInfo} (hui : info.type ≠ ControlType.ui)
    (hbody : info.Complete) (frame : ℕ → UInt8) : builtFrame info frame = info.octets := by
  rw [builtFrame_octets hbody, checkedOctets, if_neg hui, List.append_nil, octets]

/-- Whatever the body, the header is written in full. -/
theorem builtFrame_header (info : BuilderFrameInfo) (frame : ℕ → UInt8) : ∃ rest,
    builtFrame info frame =
      cmuxFrameHeaderFooter :: info.addressOctet :: info.controlOctet :: rest := by
  have hsize : ∃ n, cmuxFrameBuilderGetFrameLength info.length.toNat = n + 1 + 1 + 1 := by
    refine ⟨cmuxFrameBuilderGetFrameLength info.length.toNat - 3, ?_⟩
    simp only [cmuxFrameBuilderGetFrameLength, cmuxFrameHeaderSize, cmuxFrameFooterSize]
    split <;> omega
  obtain ⟨n, hn⟩ := hsize
  -- every later write is behind the header
  have hkeep : ∀ i < 3, (cmuxFrameBuilder info).memory frame i =
      Function.update (Function.update (Function.update frame 0 cmuxFrameHeaderFooter) 1
        info.addressOctet) 2 info.controlOctet i := by
    intro i hi
    simp only [cmuxFrameBuilder, memory_bind, memory_store, buildLength_value, memory_ite,
      cmuxCrc_memory]
    split_ifs <;>
    · rw [Function.update_of_ne (show i ≠ _ by omega), Function.update_of_ne (show i ≠ _ by omega),
        memory_copy, if_neg (by omega), buildLength_memory info _ (.inl hi)]
      rfl
  rw [builtFrame, hn, slice_succ, slice_succ, slice_succ, hkeep 0 (by omega), hkeep 1 (by omega),
    hkeep 2 (by omega)]
  exact ⟨_, rfl⟩

/-! ### The length octets -/

theorem extended_iff (m : ℕ → UInt8) : Extended m ↔ (m 3).toNat % 2 = 0 :=
  octet_even_iff (m 3)

theorem lowLengthOctet_toNat (length : UInt16) :
    ((length &&& 0b01111111) <<< 1).toUInt8.toNat = 2 * (length.toNat % 128) := by
  have hand : (length &&& 0b01111111).toNat = length.toNat % 128 := by
    rw [UInt16.toNat_and]
    exact Nat.and_two_pow_sub_one_eq_mod _ 7
  rw [UInt16.toNat_toUInt8, UInt16.toNat_shiftLeft, hand]
  change (length.toNat % 128) <<< 1 % 2 ^ 16 % 2 ^ 8 = _
  rw [Nat.shiftLeft_eq]
  omega

theorem shortLengthOctet_toNat (length : UInt16) :
    (((length &&& 0b01111111) <<< 1) ||| 0x01).toUInt8.toNat = 2 * (length.toNat % 128) + 1 := by
  rw [UInt16.toUInt8_or, UInt8.toNat_or, lowLengthOctet_toNat]
  change 2 * (length.toNat % 128) ||| 1 = _
  rw [← Nat.two_pow_add_eq_or_of_lt (i := 1) (by omega)]

theorem highLengthOctet_toNat (length : UInt16) :
    ((length &&& 0b0111111110000000) >>> 7).toUInt8.toNat = length.toNat / 128 % 256 := by
  have hand : ((length &&& 0b0111111110000000) >>> 7).toNat = length.toNat / 128 % 256 := by
    rw [UInt16.toNat_shiftRight, UInt16.toNat_and]
    change (length.toNat &&& 0b0111111110000000) >>> 7 = _
    rw [Nat.shiftRight_and_distrib, Nat.shiftRight_eq_div_pow]
    exact Nat.and_two_pow_sub_one_eq_mod _ 8
  rw [UInt16.toNat_toUInt8, hand]
  omega

/-! ### Decoding what was encoded -/

def Encodes (info : BuilderFrameInfo) (m : ℕ → UInt8) : Prop :=
  slice m 0 info.octets.length = info.octets

/-- The places of the parts of a frame, whatever its checking sequence is. -/
theorem frame_parts {info : BuilderFrameInfo} {m : ℕ → UInt8} {fcs : UInt8}
    (h : slice m 0 (3 + info.lengthOctets.length + info.bodyOctets.length + 2) =
      cmuxFrameHeaderFooter :: info.coveredOctets ++ info.bodyOctets ++
        [fcs, cmuxFrameHeaderFooter]) :
    slice m 0 (3 + info.lengthOctets.length) = cmuxFrameHeaderFooter :: info.coveredOctets ∧
      slice m (3 + info.lengthOctets.length) info.bodyOctets.length = info.bodyOctets ∧
      m (3 + info.lengthOctets.length + info.bodyOctets.length) = fcs ∧
      m (3 + info.lengthOctets.length + info.bodyOctets.length + 1) = cmuxFrameHeaderFooter := by
  rw [slice_add, slice_add, Nat.zero_add, Nat.zero_add] at h
  obtain ⟨hfront, htail⟩ := List.append_inj' h (by simp)
  obtain ⟨hheader, hbody⟩ := List.append_inj' hfront (by simp)
  simp only [slice_succ, slice_zero, List.cons.injEq, and_true] at htail
  exact ⟨hheader, hbody, htail.1, htail.2⟩

section Encoded
variable {info : BuilderFrameInfo} {m : ℕ → UInt8}

theorem encoded_parts (h : Encodes info m) :
    slice m 0 (3 + info.lengthOctets.length) = cmuxFrameHeaderFooter :: info.coveredOctets ∧
      slice m (3 + info.lengthOctets.length) info.bodyOctets.length = info.bodyOctets ∧
      m (3 + info.lengthOctets.length + info.bodyOctets.length) = crc info.coveredOctets ∧
      m (3 + info.lengthOctets.length + info.bodyOctets.length + 1) = cmuxFrameHeaderFooter := by
  have hlength : info.octets.length =
      3 + info.lengthOctets.length + info.bodyOctets.length + 2 := by
    simp only [octets, coveredOctets, List.length_append, List.length_cons, List.length_nil]
    omega
  rw [Encodes, hlength] at h
  exact frame_parts h

theorem encoded_header (h : Encodes info m) :
    m 0 = cmuxFrameHeaderFooter ∧ m 1 = info.addressOctet ∧ m 2 = info.controlOctet ∧
      slice m 3 info.lengthOctets.length = info.lengthOctets := by
  have hh := (encoded_parts h).1
  rw [show 3 + info.lengthOctets.length = info.lengthOctets.length + 1 + 1 + 1 by omega] at hh
  simpa [slice_succ, coveredOctets] using hh

theorem encoded_lengthField (h : Encodes info m) :
    bodyIndex m = 3 + info.lengthOctets.length ∧
      (lengthField m).toNat = if info.length.toNat > 127
        then info.length.toNat % 128 + 256 * (info.length.toNat / 128 % 256)
        else info.length.toNat := by
  have hl := (encoded_header h).2.2.2
  have hgt : info.length > 127 ↔ info.length.toNat > 127 := UInt16.lt_iff_toNat_lt
  by_cases hlong : info.length.toNat > 127
  · simp only [lengthOctets, hgt, hlong, if_true, List.length_cons, List.length_nil, slice_succ,
      slice_zero, List.cons.injEq, and_true] at hl
    have hx : Extended m := by rw [extended_iff, hl.1, lowLengthOctet_toNat]; omega
    rw [bodyIndex, lengthField_toNat, hl.1, hl.2, lowLengthOctet_toNat, highLengthOctet_toNat,
      lengthOctets_length]
    simp only [hx, hlong, if_true, true_and]
    omega
  · simp only [lengthOctets, hgt, hlong, if_false, List.length_cons, List.length_nil, slice_succ,
      slice_zero, List.cons.injEq, and_true] at hl
    have hx : ¬ Extended m := by rw [extended_iff, hl, shortLengthOctet_toNat]; omega
    rw [bodyIndex, lengthField_toNat, hl, shortLengthOctet_toNat, lengthOctets_length]
    simp only [hx, hlong, if_false, true_and]
    omega

/-- The length is read back right in the one-octet form and never in the two-octet form. -/
theorem encoded_lengthField_iff (h : Encodes info m) :
    lengthField m = info.length ↔ info.length.toNat ≤ 127 := by
  rw [← UInt16.toNat_inj, (encoded_lengthField h).2]
  have := info.length.toNat_lt
  split <;> omega

end Encoded

/-- What the octets of a frame with a one-octet length say. The address holds six bits of
the DLCI, and the poll/final bit of the control octet may come from the type. -/
def BuilderFrameInfo.wireInfo (info : BuilderFrameInfo) : FrameInfo where
  header := cmuxFrameHeaderFooter
  ea := info.ea
  cr := info.cr
  dlci := info.dlci &&& 0x3F
  type := info.type &&& ~~~controlTypePollFinal
  pollFinal := info.pollFinal || (info.type &&& controlTypePollFinal) != 0
  length := info.length
  fcs := crc info.coveredOctets
  calculatedFcs := crc info.coveredOctets
  frameDataIndex := if info.length > 0 then 4 else -1
  footer := cmuxFrameHeaderFooter

theorem addressOctet_decoded (info : BuilderFrameInfo) :
    ((info.addressOctet &&& 0x01) != 0) = info.ea ∧ ((info.addressOctet &&& 0x02) != 0) = info.cr ∧
      info.addressOctet >>> 2 = info.dlci &&& 0x3F := by
  have h : ∀ (dlci : UInt8) (ea cr : Bool),
      (((flagBit ea 0x01 ||| flagBit cr 0x02 ||| (dlci <<< 2)) &&& 0x01) != 0) = ea ∧
      (((flagBit ea 0x01 ||| flagBit cr 0x02 ||| (dlci <<< 2)) &&& 0x02) != 0) = cr ∧
      (flagBit ea 0x01 ||| flagBit cr 0x02 ||| (dlci <<< 2)) >>> 2 = dlci &&& 0x3F := by
    decide +kernel
  exact h info.dlci info.ea info.cr

theorem controlOctet_decoded (info : BuilderFrameInfo) :
    info.controlOctet &&& ~~~controlTypePollFinal = info.type &&& ~~~controlTypePollFinal ∧
      ((info.controlOctet &&& controlTypePollFinal) != 0) =
        (info.pollFinal || (info.type &&& controlTypePollFinal) != 0) := by
  have h : ∀ (type : UInt8) (pollFinal : Bool),
      (type ||| flagBit pollFinal controlTypePollFinal) &&& ~~~controlTypePollFinal =
        type &&& ~~~controlTypePollFinal ∧
      (((type ||| flagBit pollFinal controlTypePollFinal) &&& controlTypePollFinal) != 0) =
        (pollFinal || (type &&& controlTypePollFinal) != 0) := by
    decide +kernel
  exact h info.type info.pollFinal

/-- The address octet keeps the DLCIs below 64. -/
theorem dlci_sixBits_iff {dlci : UInt8} : dlci &&& 0x3F = dlci ↔ dlci.toNat < 64 := by
  have hsix : (dlci &&& 0x3F).toNat = dlci.toNat % 64 := Nat.and_two_pow_sub_one_eq_mod _ 6
  rw [← UInt8.toNat_inj, hsix]
  omega

theorem type_pollFinal_clear {type : ControlType} (h : type &&& controlTypePollFinal = 0) :
    type &&& ~~~controlTypePollFinal = type :=
  octet_and_not h

section Short
variable {info : BuilderFrameInfo} {m : ℕ → UInt8} (h : Encodes info m) (hbody : info.Complete)
  (hui : info.type &&& ~~~controlTypePollFinal ≠ ControlType.ui) (hlen : info.length.toNat ≤ 127)

include h hui in
theorem encoded_coveredFcs : coveredFcs m = crc info.coveredOctets := by
  have hty : controlType m ≠ ControlType.ui := by
    rwa [controlType, (encoded_header h).2.2.1, (controlOctet_decoded info).1]
  rw [coveredFcs, if_neg hty, (encoded_lengthField h).1, slice_tail, Nat.sub_add_cancel (by omega),
    (encoded_parts h).1, List.tail_cons]

include h hbody hlen in
theorem encoded_frameSize : frameSize m = info.octets.length := by
  have hb : info.bodyOctets.length = info.length.toNat := hbody
  rw [frameSize, (encoded_lengthField h).1, (encoded_lengthField_iff h).mpr hlen]
  simp only [octets, coveredOctets, List.length_append, List.length_cons, List.length_nil, hb]
  omega

include h hbody hlen in
theorem encoded_fcsIndex :
    frameSize m - 2 = 3 + info.lengthOctets.length + info.bodyOctets.length := by
  have hb : info.bodyOctets.length = info.length.toNat := hbody
  rw [frameSize, (encoded_lengthField h).1, (encoded_lengthField_iff h).mpr hlen, hb]
  omega

include h hbody hui hlen

/-- The array holds a complete frame. -/
theorem encoded_validFrame {len : ℕ} (hle : info.octets.length ≤ len) : ValidFrame m len := by
  obtain ⟨-, -, hfcs, hfooter⟩ := encoded_parts h
  have hk := encoded_fcsIndex h hbody hlen
  have hge := frameSize_ge m
  refine ⟨(encoded_header h).1, encoded_frameSize h hbody hlen ▸ hle, ?_, ?_⟩
  · rw [hk, hfcs, encoded_coveredFcs h hui]
  · rw [show frameSize m - 1 = frameSize m - 2 + 1 by omega, hk, hfooter]

theorem encoded_decodedInfo : decodedInfo m = info.wireInfo := by
  obtain ⟨h0, h1, h2, -⟩ := encoded_header h
  obtain ⟨-, -, hfcs, hfooter⟩ := encoded_validFrame h hbody hui hlen (Nat.le_refl _)
  have hlength := (encoded_lengthField_iff h).mpr hlen
  have hindex : bodyIndex m = 4 := by
    rw [(encoded_lengthField h).1, lengthOctets_length, if_neg (by omega)]
  rw [decodedInfo, headerInfo, wireInfo, controlType, hfcs, hfooter, h0, h1, h2, hlength, hindex,
    encoded_coveredFcs h hui, (addressOctet_decoded info).1, (addressOctet_decoded info).2.1,
    (addressOctet_decoded info).2.2, (controlOctet_decoded info).1, (controlOctet_decoded info).2]
  rfl

end Short

/-- A frame as the encoder is meant to be given one: an address of six bits, a control type
other than UI without the poll/final bit, and a body of the announced length, which for length
zero may be the null pointer. -/
structure Encodable (info : BuilderFrameInfo) : Prop where
  dlci_le : info.dlci.toNat ≤ 63
  not_ui : info.type ≠ ControlType.ui
  pollFinal_clear : info.type &&& controlTypePollFinal = 0
  complete : info.Complete

structure Repeats (info : BuilderFrameInfo) (m : ℕ → UInt8) (decoded : FrameInfo) : Prop where
  ea : decoded.ea = info.ea
  cr : decoded.cr = info.cr
  dlci : decoded.dlci = info.dlci
  type : decoded.type = info.type
  pollFinal : decoded.pollFinal = info.pollFinal
  length : decoded.length = info.length
  fcs : decoded.fcs = decoded.calculatedFcs
  body : info.length > 0 → ∃ i : ℕ, decoded.frameDataIndex = i ∧
    slice m i info.length.toNat = info.bodyOctets

structure RoundTrips (info : BuilderFrameInfo) (frame : ℕ → UInt8) : Prop where
  valid : (checkValidFrame (cmuxFrameBuilderGetFrameLength info.length.toNat)).value
    ((cmuxFrameBuilder info).memory frame) = true
  size : getFrameLength.value ((cmuxFrameBuilder info).memory frame) =
    cmuxFrameBuilderGetFrameLength info.length.toNat
  repeats : Repeats info ((cmuxFrameBuilder info).memory frame)
    ((parseFrame (cmuxFrameBuilderGetFrameLength info.length.toNat)).value
      ((cmuxFrameBuilder info).memory frame))

namespace Encodable
variable {info : BuilderFrameInfo} (h : Encodable info)
include h

theorem encodes (frame : ℕ → UInt8) : Encodes info ((cmuxFrameBuilder info).memory frame) := by
  have hb := builtFrame_eq h.not_ui h.complete frame
  rwa [builtFrame, ← octets_length h.complete] at hb

theorem type_eq : info.type &&& ~~~controlTypePollFinal = info.type :=
  type_pollFinal_clear h.pollFinal_clear

theorem dlci_eq : info.dlci &&& 0x3F = info.dlci :=
  dlci_sixBits_iff.mpr (Nat.lt_succ_of_le h.dlci_le)

end Encodable

/-- A frame survives encoding and decoding exactly when its length fits one octet. -/
theorem roundTrips_iff (info : BuilderFrameInfo) (h : Encodable info) (frame : ℕ → UInt8) :
    RoundTrips info frame ↔ info.length.toNat ≤ 127 := by
  have henc := h.encodes frame
  have hsize := octets_length h.complete
  set m := (cmuxFrameBuilder info).memory frame with hm
  constructor
  · -- the size that the length octets announce is the right one only with the right length
    intro hr
    have hs : getFrameLength.value m = _ := hr.size
    rw [getFrameLength_value, if_pos (encoded_header henc).1, Int.ofNat_inj, ← hsize, frameSize,
      (encoded_lengthField henc).1] at hs
    have hb : info.bodyOctets.length = info.length.toNat := h.complete
    simp only [octets, coveredOctets, List.length_append, List.length_cons, List.length_nil,
      hb] at hs
    exact (encoded_lengthField_iff henc).mp (UInt16.toNat_inj.mp (by omega))
  · intro hlen
    have hui : info.type &&& ~~~controlTypePollFinal ≠ ControlType.ui := by
      rw [h.type_eq]; exact h.not_ui
    have hvalid := encoded_validFrame henc h.complete hui hlen (Nat.le_refl _)
    have hframe := encoded_frameSize henc h.complete hlen
    have hinfo := encoded_decodedInfo henc h.complete hui hlen
    refine ⟨?_, ?_, ?_⟩
    · rw [← hsize, checkValidFrame_value, decide_eq_true_eq]
      exact hvalid
    · rw [getFrameLength_value, if_pos hvalid.1, hframe, hsize]
    · rw [← hsize, parseFrame_value (m := m) (by omega), hinfo]
      refine ⟨rfl, rfl, h.dlci_eq, h.type_eq, ?_, rfl, rfl, fun hpos => ⟨4, ?_, ?_⟩⟩
      · simp [wireInfo, h.pollFinal_clear]
      · simp [wireInfo, hpos]
      · have hb := (encoded_parts henc).2.1
        rwa [lengthOctets_length, if_neg (by omega), h.complete] at hb

/-- An UIH frame of `length` zero octets on DLCI 1. -/
def zeroPayload (length : ℕ) : BuilderFrameInfo :=
  { BuilderFrameInfo.zero with
    ea := true
    cr := true
    dlci := 1
    type := ControlType.uih
    length := length.toUInt16
    frameDataBody := some (List.replicate length 0) }

theorem zeroPayload_encodable {length : ℕ} (h : length < 65536) : Encodable (zeroPayload length) :=
  ⟨(by decide : (1 : UInt8).toNat ≤ 63), (by decide : ControlType.uih ≠ ControlType.ui),
    (by decide : ControlType.uih &&& controlTypePollFinal = 0),
    complete_of_some rfl (by simp [zeroPayload]; omega)⟩

theorem roundTrips_zeroPayload : Encodable (zeroPayload 127) ∧
    (RoundTrips (zeroPayload 127) (fun _ => 0) ↔ (zeroPayload 127).length.toNat ≤ 127) :=
  ⟨zeroPayload_encodable (by decide),
    roundTrips_iff _ (zeroPayload_encodable (by decide)) fun _ => 0⟩

/-- The first length of the two-octet form is read back as 256. -/
theorem not_roundTrips_zeroPayload :
    Encodable (zeroPayload 128) ∧ ¬ RoundTrips (zeroPayload 128) (fun _ => 0) := by
  refine ⟨zeroPayload_encodable (by decide), fun hr => ?_⟩
  have hsize : getFrameLength.value ((cmuxFrameBuilder (zeroPayload 128)).memory fun _ => 0) =
      263 := by decide +kernel
  have hpromised : cmuxFrameBuilderGetFrameLength (zeroPayload 128).length.toNat = 135 := rfl
  have := hr.size
  rw [hsize, hpromised] at this
  omega

end Cmux
