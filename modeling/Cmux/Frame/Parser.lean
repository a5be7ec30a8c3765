import Cmux.Frame.Crc
import Cmux.Frame.Info

/-! The three decoders of `cmux_frame_parser.c`, as programs over the array they are handed.
Each function keeps its own reading of the length octets. -/
namespace Cmux
open Access Access.Prog

def parseFrameHeader (len : ℕ) (info : FrameInfo) : Prog UInt8 (UInt16 × FrameInfo) :=
  if 3 ≤ len then do
    let header ← cell 0
    let address ← cell 1
    let control ← cell 2
    pure (2, { info with
      header := header
      ea := (address &&& 0x01) != 0
      cr := (address &&& 0x02) != 0
      dlci := address >>> 2
      type := control &&& ~~~controlTypePollFinal
      pollFinal := (control &&& controlTypePollFinal) != 0 })
  else pure (0, info)

def parseFrameLength (len : ℕ) (frameIndex : UInt16) (info : FrameInfo) :
    Prog UInt8 (UInt16 × FrameInfo) :=
  if 5 ≤ len then do
    let low ← cell 3
    if (low &&& 0x01) == 0 then do
      let high ← cell 4
      pure (4, { info with length := (low >>> 1).toUInt16 ||| high.toUInt16 <<< 8 })
    else pure (3, { info with length := (low >>> 1).toUInt16 })
  else pure (frameIndex, info)

/-- Body position and checking sequence. The source compares `len` with
`frame_index - 1 + length + 1` in `int`, which is `frame_index + length`. -/
def parseFrameBody (len : ℕ) (frameIndex : UInt16) (info : FrameInfo) :
    Prog UInt8 (UInt16 × FrameInfo) :=
  if len > frameIndex.toNat + info.length.toNat then do
    let frameIndex := frameIndex + 1
    let frameDataIndex : ℤ := if info.length > 0 then frameIndex.toNat else -1
    let calculatedFcs ←
      if info.type = ControlType.ui then cmuxCrc 1 (frameIndex.toNat - 1 + info.length.toNat)
      else cmuxCrc 1 (frameIndex.toNat - 1)
    let frameIndex := frameIndex + info.length
    let frameFcs ← cell frameIndex.toNat
    pure (frameIndex, { info with
      frameDataIndex := frameDataIndex
      fcs := frameFcs
      calculatedFcs := calculatedFcs })
  else pure (frameIndex, info)

def parseFrameFooter (len : ℕ) (frameIndex : UInt16) (info : FrameInfo) : Prog UInt8 FrameInfo :=
  if len > frameIndex.toNat + 1 then do
    let frameIndex := frameIndex + 1
    let footer ← cell frameIndex.toNat
    pure { info with footer := footer }
  else pure info

def parseFrame (len : ℕ) : Prog UInt8 FrameInfo := do
  let (frameIndex, info) ← parseFrameHeader len FrameInfo.zero
  let (frameIndex, info) ← parseFrameLength len frameIndex info
  let (frameIndex, info) ← parseFrameBody len frameIndex info
  parseFrameFooter len frameIndex info

/-- `get_frame_length`, which takes no length of its array. -/
def getFrameLength : Prog UInt8 ℤ := do
  let header ← cell 0
  if header != cmuxFrameHeaderFooter then pure (-1)
  else do
    let low ← cell 3
    let length : UInt16 := cmuxFrameHeaderSize.toUInt16
    if (low &&& 0x01) == 0 then do
      let high ← cell 4
      let length := length + cmuxFrameExtendedLengthSize.toUInt16
      let length := length + ((low >>> 1).toUInt16 ||| high.toUInt16 <<< 8)
      pure ((length.toNat : ℤ) + cmuxFrameFooterSize)
    else do
      let length := length + cmuxFrameLengthSize.toUInt16
      let length := length + (low >>> 1).toUInt16
      pure ((length.toNat : ℤ) + cmuxFrameFooterSize)

/-- Index of the last length octet, and the length. -/
def checkFrameLength : Prog UInt8 (UInt16 × UInt16) := do
  let low ← cell 3
  if (low &&& 0x01) == 0 then do
    let high ← cell 4
    pure (4, (low >>> 1).toUInt16 ||| high.toUInt16 <<< 8)
  else pure (3, (low >>> 1).toUInt16)

/-- `check_valid_frame` of an array said to hold `len` octets. Only the flag is read under
a check of `len`; the control and length octets are read before the total is known. -/
def checkValidFrame (len : ℕ) : Prog UInt8 Bool :=
  if len < 1 then pure false
  else do
    let header ← cell 0
    if header != cmuxFrameHeaderFooter then pure false
    else do
      let control ← cell 2
      let type : ControlType := control &&& ~~~controlTypePollFinal
      let (frameIndex, length) ← checkFrameLength
      let frameIndex := frameIndex + 1
      if frameIndex.toNat + length.toNat + 2 > len then pure false
      else do
        let fcs ←
          if type = ControlType.ui then cmuxCrc 1 (frameIndex.toNat - 1 + length.toNat)
          else cmuxCrc 1 (frameIndex.toNat - 1)
        let frameIndex := frameIndex + length
        let frameFcs ← cell frameIndex.toNat
        if frameFcs != fcs then pure false
        else do
          let frameIndex := frameIndex + 1
          let footer ← cell frameIndex.toNat
          pure (footer == cmuxFrameHeaderFooter)

/-! ### What the octets of a frame say -/

def Extended (m : ℕ → UInt8) : Prop := m 3 &&& 0x01 = 0

instance (m : ℕ → UInt8) : Decidable (Extended m) := inferInstanceAs (Decidable (_ = _))

def lengthField (m : ℕ → UInt8) : UInt16 :=
  if Extended m then (m 3 >>> 1).toUInt16 ||| (m 4).toUInt16 <<< 8 else (m 3 >>> 1).toUInt16

def bodyIndex (m : ℕ → UInt8) : ℕ := if Extended m then 5 else 4

def frameSize (m : ℕ → UInt8) : ℕ := bodyIndex m + (lengthField m).toNat + 2

def controlType (m : ℕ → UInt8) : ControlType := m 2 &&& ~~~controlTypePollFinal

/-- The octets the checking sequence covers: the header, and for UI the information field. -/
def coveredFcs (m : ℕ → UInt8) : UInt8 :=
  if controlType m = ControlType.ui then crc (slice m 1 (bodyIndex m - 1 + (lengthField m).toNat))
  else crc (slice m 1 (bodyIndex m - 1))

/-- The decoders put the second length octet eight bits up. -/
theorem twoOctetLength_toNat (low high : UInt8) :
    ((low >>> 1).toUInt16 ||| high.toUInt16 <<< 8).toNat = low.toNat / 2 + 256 * high.toNat := by
  have hl := low.toNat_lt
  have hh := high.toNat_lt
  rw [UInt16.toNat_or, UInt16.toNat_shiftLeft]
  simp only [UInt8.toNat_toUInt16, UInt8.toNat_shiftRight]
  change low.toNat >>> 1 ||| high.toNat <<< 8 % 2 ^ 16 = _
  rw [Nat.mod_eq_of_lt (by rw [Nat.shiftLeft_eq]; omega), Nat.shiftRight_eq_div_pow, Nat.or_comm,
    ← Nat.shiftLeft_add_eq_or_of_lt (by omega), Nat.shiftLeft_eq]
  omega

theorem oneOctetLength_toNat (low : UInt8) : (low >>> 1).toUInt16.toNat = low.toNat / 2 := by
  simp [Nat.shiftRight_eq_div_pow]

theorem lengthField_toNat (m : ℕ → UInt8) : (lengthField m).toNat =
    if Extended m then (m 3).toNat / 2 + 256 * (m 4).toNat else (m 3).toNat / 2 := by
  unfold lengthField
  split
  · exact twoOctetLength_toNat _ _
  · exact oneOctetLength_toNat _

theorem lengthField_le (m : ℕ → UInt8) : (lengthField m).toNat ≤ 65407 := by
  have h3 := (m 3).toNat_lt
  have h4 := (m 4).toNat_lt
  rw [lengthField_toNat]
  split <;> omega

theorem bodyIndex_bounds (m : ℕ → UInt8) : 4 ≤ bodyIndex m ∧ bodyIndex m ≤ 5 := by
  unfold bodyIndex
  split <;> omega

theorem frameSize_ge (m : ℕ → UInt8) : 6 ≤ frameSize m := by
  have := bodyIndex_bounds m
  unfold frameSize
  omega

/-- A complete frame with both flags and the right checking sequence stands at the start
of an array of `len` octets. -/
def ValidFrame (m : ℕ → UInt8) (len : ℕ) : Prop :=
  m 0 = cmuxFrameHeaderFooter ∧ frameSize m ≤ len ∧ m (frameSize m - 2) = coveredFcs m ∧
    m (frameSize m - 1) = cmuxFrameHeaderFooter

instance (m : ℕ → UInt8) (len : ℕ) : Decidable (ValidFrame m len) :=
  inferInstanceAs (Decidable (_ ∧ _ ∧ _ ∧ _))

/-- No counter of the decoders wraps. -/
theorem frameIndex_toNat {k : UInt16} (hk : k.toNat ≤ 6) (m : ℕ → UInt8) :
    (k + lengthField m).toNat = k.toNat + (lengthField m).toNat := by
  have := lengthField_le m
  rw [UInt16.toNat_add, Nat.mod_eq_of_lt (by omega)]

theorem lastLengthIndex_succ (m : ℕ → UInt8) :
    ((if Extended m then 4 else 3 : UInt16) + 1).toNat = bodyIndex m := by
  unfold bodyIndex
  split <;> rfl

theorem lastLengthIndex_toNat (m : ℕ → UInt8) :
    (if Extended m then 4 else 3 : UInt16).toNat = bodyIndex m - 1 := by
  unfold bodyIndex
  split <;> rfl

/-- Index of the checking sequence, as the decoders compute it. -/
theorem fcsIndex_toNat (m : ℕ → UInt8) :
    ((if Extended m then 4 else 3 : UInt16) + 1 + lengthField m).toNat = frameSize m - 2 := by
  have hb := bodyIndex_bounds m
  have hk := lastLengthIndex_succ m
  rw [frameIndex_toNat (by omega), hk, frameSize]
  omega

theorem footerIndex_toNat (m : ℕ → UInt8) :
    ((if Extended m then 4 else 3 : UInt16) + 1 + lengthField m + 1).toNat = frameSize m - 1 := by
  have hb := bodyIndex_bounds m
  have hle := lengthField_le m
  have hsz : frameSize m = bodyIndex m + (lengthField m).toNat + 2 := rfl
  rw [UInt16.toNat_add, fcsIndex_toNat, UInt16.toNat_one]
  omega

theorem checkFrameLength_value (m : ℕ → UInt8) :
    checkFrameLength.value m = (if Extended m then 4 else 3, lengthField m) := by
  by_cases h : m 3 &&& 0x01 = 0 <;> simp [checkFrameLength, Extended, lengthField, h]

@[simp] theorem checkFrameLength_memory (m : ℕ → UInt8) : checkFrameLength.memory m = m := by
  simp [checkFrameLength]

theorem checkFrameLength_reads (m : ℕ → UInt8) :
    checkFrameLength.reads m = if Extended m then [3, 4] else [3] := by
  by_cases h : m 3 &&& 0x01 = 0 <;> simp [checkFrameLength, Extended, h]

theorem checkValidFrame_value (len : ℕ) (m : ℕ → UInt8) :
    (checkValidFrame len).value m = decide (ValidFrame m len) := by
  have hge := frameSize_ge m
  simp only [checkValidFrame, value_ite, value_bind, value_pure, value_cell, memory_cell,
    checkFrameLength_value, checkFrameLength_memory, cmuxCrc_value, cmuxCrc_memory,
    fcsIndex_toNat, footerIndex_toNat, lastLengthIndex_succ]
  change (if len < 1 then false else if (m 0 != cmuxFrameHeaderFooter) = true then false
    else if frameSize m > len then false else _) = _
  simp only [ValidFrame, coveredFcs, controlType]
  by_cases hlen : len < 1
  · simp [hlen, show ¬ frameSize m ≤ len by omega]
  by_cases h0 : m 0 = cmuxFrameHeaderFooter
  swap
  · simp [hlen, h0]
  by_cases hsize : frameSize m ≤ len
  swap
  · simp [hlen, h0, hsize, show frameSize m > len by omega]
  simp only [hlen, h0, hsize, show ¬ frameSize m > len by omega]
  split_ifs <;> simp_all [beq_eq_decide]

/-- The unguarded header reads stay inside the array only when it holds the length octets. -/
theorem checkValidFrame_reads_iff (len : ℕ) (m : ℕ → UInt8) :
    (checkValidFrame len).ReadsBelow len m ↔
      m 0 = cmuxFrameHeaderFooter → len = 0 ∨ 5 ≤ len ∨ len = 4 ∧ ¬ Extended m := by
  have hb := bodyIndex_bounds m
  have hsz : frameSize m = bodyIndex m + (lengthField m).toNat + 2 := rfl
  by_cases hlen : len < 1
  · simp [ReadsBelow, checkValidFrame, show len = 0 by omega]
  by_cases h0 : m 0 = cmuxFrameHeaderFooter
  swap
  · have : 0 < len := by omega
    simp [ReadsBelow, checkValidFrame, hlen, h0, this]
  simp only [h0, forall_const]
  constructor
  · intro h
    have h3 : 3 < len := h 3 (by
      simp [checkValidFrame, hlen, h0, checkFrameLength_reads]
      split_ifs <;> simp)
    by_cases hx : Extended m
    · have h4 : 4 < len := h 4 (by simp [checkValidFrame, hlen, h0, checkFrameLength_reads, hx])
      omega
    · rcases Nat.lt_or_ge len 5 with hlt | hle
      · exact .inr (.inr ⟨by omega, hx⟩)
      · exact .inr (.inl hle)
  · intro h i hi
    have hlen4 : 4 ≤ len ∧ (Extended m → 5 ≤ len) := by
      rcases h with h | h | ⟨h, hx⟩
      · omega
      · exact ⟨by omega, fun _ => h⟩
      · exact ⟨by omega, fun hx' => absurd hx' hx⟩
    simp only [checkValidFrame, hlen, if_false, reads_bind, reads_ite, reads_cell, reads_pure,
      value_cell, memory_cell, checkFrameLength_value, checkFrameLength_memory,
      checkFrameLength_reads, cmuxCrc_reads, cmuxCrc_memory, cmuxCrc_value, fcsIndex_toNat,
      footerIndex_toNat, lastLengthIndex_succ, h0, bne_self_eq_false, Bool.false_eq_true] at hi
    obtain ⟨hlen4, hx⟩ := hlen4
    split_ifs at hi with hx' <;> simp at hi <;> first | omega | (have h := hx hx'; omega)

section Agreement
variable {m m' : ℕ → UInt8}

theorem extended_congr (h : ∀ i < bodyIndex m, m i = m' i) : Extended m ↔ Extended m' := by
  have := bodyIndex_bounds m
  rw [Extended, Extended, h 3 (by omega)]

theorem lengthField_congr (h : ∀ i < bodyIndex m, m i = m' i) :
    lengthField m = lengthField m' := by
  have h3 := h 3 (by have := bodyIndex_bounds m; omega)
  by_cases hx : Extended m
  · have h4 := h 4 (by rw [bodyIndex, if_pos hx]; omega)
    simp only [lengthField, ← extended_congr h, h3, h4]
  · simp only [lengthField, ← extended_congr h, if_neg hx, h3]

theorem bodyIndex_congr (h : ∀ i < bodyIndex m, m i = m' i) : bodyIndex m = bodyIndex m' := by
  simp only [bodyIndex, extended_congr h]

/-- The length octets decide how long the frame is. -/
theorem frameSize_congr (h : ∀ i < bodyIndex m, m i = m' i) : frameSize m = frameSize m' := by
  rw [frameSize, frameSize, lengthField_congr h, bodyIndex_congr h]

/-- The checking sequence is taken over octets that stand before it. -/
theorem coveredFcs_congr (h : ∀ i < frameSize m - 2, m i = m' i) :
    coveredFcs m = coveredFcs m' := by
  have hb := bodyIndex_bounds m
  have hsz : frameSize m = bodyIndex m + (lengthField m).toNat + 2 := rfl
  have hx : ∀ i < bodyIndex m, m i = m' i := fun i hi => h i (by omega)
  have hty : controlType m = controlType m' := by rw [controlType, controlType, h 2 (by omega)]
  have hlong : slice m 1 (bodyIndex m - 1 + (lengthField m).toNat) =
      slice m' 1 (bodyIndex m - 1 + (lengthField m).toNat) :=
    slice_congr fun k hk => h (1 + k) (by omega)
  have hshort : slice m 1 (bodyIndex m - 1) = slice m' 1 (bodyIndex m - 1) :=
    slice_congr fun k hk => h (1 + k) (by omega)
  simp only [coveredFcs, hty, ← bodyIndex_congr hx, ← lengthField_congr hx, hlong, hshort]

/-- The answer depends on the octets of the frame alone. -/
theorem validFrame_congr {len : ℕ} (h : ∀ i < len, m i = m' i) :
    ValidFrame m len ↔ ValidFrame m' len := by
  by_cases h6 : 6 ≤ len
  · have hb := bodyIndex_bounds m
    have hsz := frameSize_congr fun i hi => h i (by omega)
    have hge := frameSize_ge m
    simp only [ValidFrame, ← hsz, h 0 (by omega)]
    refine and_congr_right fun _ => and_congr_right fun hle => ?_
    rw [coveredFcs_congr fun i hi => h i (by omega), h (frameSize m - 2) (by omega),
      h (frameSize m - 1) (by omega)]
  · have hm := frameSize_ge m
    have hm' := frameSize_ge m'
    exact iff_of_false (fun hv => by have := hv.2.1; omega) fun hv => by have := hv.2.1; omega

/-- A frame is one in every array that holds all of it. -/
theorem validFrame_of_agree {len len' : ℕ} (hv : ValidFrame m len)
    (h : ∀ i < frameSize m, m i = m' i) (hlen : frameSize m ≤ len') :
    ValidFrame m' len' ∧ frameSize m = frameSize m' := by
  have hge := frameSize_ge m
  have hb := bodyIndex_bounds m
  have hsz := frameSize_congr fun i hi => h i (by omega)
  have hm : ValidFrame m (frameSize m) := ⟨hv.1, Nat.le_refl _, hv.2.2⟩
  have hm' := (validFrame_congr h).mp hm
  exact ⟨⟨hm'.1, hsz ▸ hlen, hm'.2.2⟩, hsz⟩

end Agreement

theorem getFrameLength_value (m : ℕ → UInt8) : getFrameLength.value m =
    if m 0 = cmuxFrameHeaderFooter then (frameSize m : ℤ) else -1 := by
  have hle := lengthField_le m
  by_cases h0 : m 0 = cmuxFrameHeaderFooter
  · have hsum (k : UInt16) (hk : k.toNat ≤ 6) :
        ((k + lengthField m).toNat : ℤ) + cmuxFrameFooterSize =
          ((k.toNat + (lengthField m).toNat + 2 : ℕ) : ℤ) := by
      rw [frameIndex_toNat hk]
      rfl
    by_cases hx : m 3 &&& 0x01 = 0
    · have hf : (m 3 >>> 1).toUInt16 ||| (m 4).toUInt16 <<< 8 = lengthField m := by
        simp [lengthField, Extended, hx]
      have hs : frameSize m = 5 + (lengthField m).toNat + 2 := by
        simp [frameSize, bodyIndex, Extended, hx]
      simp only [getFrameLength, value_bind, value_cell, memory_cell, h0, hx, hf,
        value_pure, bne_self_eq_false, Bool.false_eq_true, if_false, if_true, BEq.rfl]
      exact (hsum 5 (by decide)).trans (by rw [hs]; rfl)
    · have hf : (m 3 >>> 1).toUInt16 = lengthField m := by simp [lengthField, Extended, hx]
      have hs : frameSize m = 4 + (lengthField m).toNat + 2 := by
        simp [frameSize, bodyIndex, Extended, hx]
      simp only [getFrameLength, value_bind, value_cell, memory_cell, h0, hf,
        value_pure, bne_self_eq_false, Bool.false_eq_true, if_false, beq_iff_eq, hx, if_true]
      exact (hsum 4 (by decide)).trans (by rw [hs]; rfl)
  · simp [getFrameLength, h0]

theorem getFrameLength_reads (m : ℕ → UInt8) : ∀ i ∈ getFrameLength.reads m, i < 5 := by
  intro i hi
  simp only [getFrameLength, reads_bind, reads_cell, reads_ite, reads_pure, value_cell,
    memory_cell] at hi
  split_ifs at hi <;> simp at hi <;> omega

/-! ### The fields `parse_frame` fills in -/

def headerInfo (m : ℕ → UInt8) : FrameInfo :=
  { FrameInfo.zero with
    header := m 0
    ea := (m 1 &&& 0x01) != 0
    cr := (m 1 &&& 0x02) != 0
    dlci := m 1 >>> 2
    type := controlType m
    pollFinal := (m 2 &&& controlTypePollFinal) != 0 }

/-- All fields, for an array that holds the whole frame. -/
def decodedInfo (m : ℕ → UInt8) : FrameInfo :=
  { headerInfo m with
    length := lengthField m
    fcs := m (frameSize m - 2)
    calculatedFcs := coveredFcs m
    frameDataIndex := if lengthField m > 0 then (bodyIndex m : ℤ) else -1
    footer := m (frameSize m - 1) }

/-- The record depends on the octets of the frame alone. -/
theorem decodedInfo_congr {m m' : ℕ → UInt8} (h : ∀ i < frameSize m, m i = m' i) :
    decodedInfo m = decodedInfo m' := by
  have hge := frameSize_ge m
  have hb := bodyIndex_bounds m
  have hx : ∀ i < bodyIndex m, m i = m' i := fun i hi => h i (by omega)
  have hsz := frameSize_congr hx
  rw [decodedInfo, decodedInfo, headerInfo, headerInfo, controlType, controlType,
    coveredFcs_congr fun i hi => h i (by omega), lengthField_congr hx, bodyIndex_congr hx,
    h 0 (by omega), h 1 (by omega), h 2 (by omega), h (frameSize m - 2) (by omega),
    h (frameSize m - 1) (by omega), hsz]

theorem parseFrameHeader_value {len : ℕ} (h : 3 ≤ len) (m : ℕ → UInt8) :
    (parseFrameHeader len FrameInfo.zero).value m = (2, headerInfo m) := by
  simp [parseFrameHeader, h, headerInfo, controlType]

@[simp] theorem parseFrameHeader_memory (len : ℕ) (info : FrameInfo) (m : ℕ → UInt8) :
    (parseFrameHeader len info).memory m = m := by
  simp [parseFrameHeader]

theorem parseFrameLength_value {len : ℕ} (h : 5 ≤ len) (k : UInt16) (info : FrameInfo)
    (m : ℕ → UInt8) : (parseFrameLength len k info).value m =
      (if Extended m then 4 else 3, { info with length := lengthField m }) := by
  by_cases hx : m 3 &&& 0x01 = 0 <;> simp [parseFrameLength, h, Extended, lengthField, hx]

@[simp] theorem parseFrameLength_memory (len : ℕ) (k : UInt16) (info : FrameInfo)
    (m : ℕ → UInt8) : (parseFrameLength len k info).memory m = m := by
  simp [parseFrameLength]

@[simp] theorem parseFrameBody_memory (len : ℕ) (k : UInt16) (info : FrameInfo)
    (m : ℕ → UInt8) : (parseFrameBody len k info).memory m = m := by
  simp [parseFrameBody]

/-- No stage after the first touches the address and control fields. -/
theorem parseFrame_header {len : ℕ} (h : 3 ≤ len) (m : ℕ → UInt8) :
    ((parseFrame len).value m).dlci = m 1 >>> 2 ∧
      ((parseFrame len).value m).type = controlType m := by
  have hl (k : UInt16) (info : FrameInfo) :
      ((parseFrameLength len k info).value m).2.dlci = info.dlci ∧
        ((parseFrameLength len k info).value m).2.type = info.type := by
    simp only [parseFrameLength, value_ite, value_bind, value_pure]
    split_ifs <;> simp
  have hb (k : UInt16) (info : FrameInfo) :
      ((parseFrameBody len k info).value m).2.dlci = info.dlci ∧
        ((parseFrameBody len k info).value m).2.type = info.type := by
    simp only [parseFrameBody, value_ite, value_bind, value_pure]
    split_ifs <;> simp
  have hf (k : UInt16) (info : FrameInfo) :
      ((parseFrameFooter len k info).value m).dlci = info.dlci ∧
        ((parseFrameFooter len k info).value m).type = info.type := by
    simp only [parseFrameFooter, value_ite, value_bind, value_pure]
    split_ifs <;> simp
  simp only [parseFrame, value_bind, parseFrameHeader_memory, parseFrameLength_memory,
    parseFrameBody_memory, parseFrameHeader_value h, hf, hb, hl]
  exact ⟨rfl, rfl⟩

section Complete
variable {m : ℕ → UInt8} {len : ℕ}

/-- The test before the body, which leaves out the octet of the checking sequence. -/
theorem bodyGuard_iff (m : ℕ → UInt8) (len : ℕ) :
    len > (if Extended m then 4 else 3 : UInt16).toNat + (lengthField m).toNat ↔
      frameSize m ≤ len + 2 := by
  have hb := bodyIndex_bounds m
  rw [lastLengthIndex_toNat, frameSize]
  omega

theorem parseFrameBody_value (h : frameSize m ≤ len + 2) (info : FrameInfo)
    (hlen : info.length = lengthField m) (hty : info.type = controlType m) :
    (parseFrameBody len (if Extended m then 4 else 3) info).value m =
      ((if Extended m then 4 else 3) + 1 + lengthField m, { info with
        fcs := m (frameSize m - 2)
        calculatedFcs := coveredFcs m
        frameDataIndex := if lengthField m > 0 then (bodyIndex m : ℤ) else -1 }) := by
  have hgt := (bodyGuard_iff m len).mpr h
  by_cases hui : controlType m = ControlType.ui <;>
    simp only [parseFrameBody, hlen, hty, hgt, hui, value_bind, value_cell, cmuxCrc_value,
      cmuxCrc_memory, value_pure, fcsIndex_toNat, lastLengthIndex_succ, coveredFcs, if_true,
      if_false]

/-- An array that holds the whole frame is decoded in full. -/
theorem parseFrame_value (h : frameSize m ≤ len) : (parseFrame len).value m = decodedInfo m := by
  have hge := frameSize_ge m
  have hgt : len > ((if Extended m then 4 else 3 : UInt16) + 1 + lengthField m).toNat + 1 := by
    rw [fcsIndex_toNat]; omega
  simp only [parseFrame, value_bind, parseFrameHeader_memory, parseFrameLength_memory,
    parseFrameBody_memory, parseFrameHeader_value (show 3 ≤ len by omega),
    parseFrameLength_value (show 5 ≤ len by omega)]
  rw [parseFrameBody_value (by omega) _ rfl rfl]
  simp only [parseFrameFooter, hgt, if_true, value_bind, value_cell, value_pure,
    footerIndex_toNat, decodedInfo]

/-! ### What `parse_frame` reads -/

theorem parseFrameHeader_readsBelow (info : FrameInfo) :
    (parseFrameHeader len info).ReadsBelow len m := by
  intro i hi
  simp only [parseFrameHeader, reads_ite, reads_bind, reads_cell, reads_pure] at hi
  split_ifs at hi <;> simp at hi
  omega

theorem parseFrameLength_readsBelow (k : UInt16) (info : FrameInfo) :
    (parseFrameLength len k info).ReadsBelow len m := by
  intro i hi
  simp only [parseFrameLength, reads_ite, reads_bind, reads_cell, reads_pure] at hi
  split_ifs at hi <;> simp at hi <;> omega

/-- The body stage goes up to the checking sequence, which may be one octet too far. -/
theorem parseFrameBody_readsBelow (h : frameSize m ≤ len + 2) (info : FrameInfo)
    (hlen : info.length = lengthField m) :
    (parseFrameBody len (if Extended m then 4 else 3) info).ReadsBelow len m ↔
      frameSize m ≠ len + 2 := by
  have hgt := (bodyGuard_iff m len).mpr h
  have hb := bodyIndex_bounds m
  have hsz : frameSize m = bodyIndex m + (lengthField m).toNat + 2 := rfl
  simp only [ReadsBelow, parseFrameBody, hlen, if_pos hgt, reads_bind, reads_cell, reads_ite,
    reads_pure, cmuxCrc_reads, cmuxCrc_memory, fcsIndex_toNat, lastLengthIndex_succ]
  constructor
  · intro hall
    have hfcs := hall (frameSize m - 2) (by split_ifs <;> simp)
    omega
  · intro hne i hi
    split_ifs at hi <;> simp at hi <;> omega

theorem parseFrameFooter_readsBelow (k : UInt16) (info : FrameInfo) :
    (parseFrameFooter len k info).ReadsBelow len m := by
  intro i hi
  have hk : (k + 1).toNat ≤ k.toNat + 1 := by
    rw [UInt16.toNat_add]
    exact Nat.mod_le _ _
  simp only [parseFrameFooter, reads_ite, reads_bind, reads_cell, reads_pure] at hi
  split_ifs at hi <;> simp at hi
  omega

/-- An array with both length octets is left in one case: when it ends before the checking
sequence. -/
theorem parseFrame_readsBelow_iff (h : 5 ≤ len) :
    (parseFrame len).ReadsBelow len m ↔ frameSize m ≠ len + 2 := by
  have hguard := bodyGuard_iff m len
  simp only [parseFrame, readsBelow_bind, parseFrameHeader_memory, parseFrameLength_memory,
    parseFrameBody_memory, parseFrameHeader_value (show 3 ≤ len by omega),
    parseFrameLength_value h, parseFrameHeader_readsBelow, parseFrameLength_readsBelow,
    parseFrameFooter_readsBelow, true_and, and_true]
  by_cases hsize : frameSize m ≤ len + 2
  · exact parseFrameBody_readsBelow hsize _ rfl
  · rw [parseFrameBody, if_neg (by rw [hguard]; exact hsize)]
    exact iff_of_true (readsBelow_pure _ _ _) (by omega)

/-- No decoder looks beyond a frame that is all there. -/
theorem parseFrame_reads (h : frameSize m ≤ len) : (parseFrame len).ReadsBelow len m := by
  have hge := frameSize_ge m
  exact (parseFrame_readsBelow_iff (by omega)).mpr (by omega)

end Complete
end Cmux
