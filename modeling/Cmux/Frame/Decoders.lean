import Cmux.Frame.Parser

/-! The three frame decoders side by side. The receiver scans with one, sizes with the second and
dispatches with the third. The third alone is also handed arrays that were cut short. -/
namespace Cmux
open Access Access.Prog

/-! ### Agreement -/

section Buffer
variable (buf : List UInt8) (beyond : ℕ → UInt8)

def checks (len : ℕ) : Bool := (checkValidFrame len).value (view buf beyond)

/-- The size that `get_frame_length` counts, -1 without the flag. -/
def counted : ℤ := getFrameLength.value (view buf beyond)

def parsed (len : ℕ) : FrameInfo := (parseFrame len).value (view buf beyond)

structure Dispatches (n : ℕ) (info : FrameInfo) : Prop where
  /-- The frame is taken for one exactly when its record shows both flags and the right
  checking sequence. -/
  valid : checks buf beyond n = true ↔ info.header = cmuxFrameHeaderFooter ∧
    info.footer = cmuxFrameHeaderFooter ∧ info.fcs = info.calculatedFcs
  length : n = 3 + (if Extended (view buf beyond) then 2 else 1) + info.length.toNat + 2
  dataIndex : info.length > 0 → info.frameDataIndex + info.length.toNat + 2 = n
  /-- No counter wraps on the way to the last two octets. -/
  fcs : buf[n - 2]? = some info.fcs
  footer : buf[n - 1]? = some info.footer

/-- What the three decoders say of one buffer, where a frame of `n` octets was counted. -/
structure DecodersAgree (n : ℤ) : Prop where
  /-- Every length checks the frame that was counted. -/
  check : ∀ len, 5 ≤ len → len ≤ buf.length → (checks buf beyond len = true ↔
    buf[0]? = some cmuxFrameHeaderFooter ∧ n ≤ len ∧ checks buf beyond n.toNat = true)
  /-- The answer is the same for every buffer with this frame in front, or without the flag. -/
  confined : ∀ len (buf' : List UInt8) beyond', 5 ≤ len → len ≤ buf.length →
    buf'.length = buf.length → (∀ i < buf.length, i = 0 ∨ (i : ℤ) < n → buf'[i]? = buf[i]?) →
    checks buf' beyond' len = checks buf beyond len
  dispatch : n ≠ -1 → n ≤ buf.length → Dispatches buf beyond n.toNat (parsed buf beyond n.toNat)

end Buffer

section Sizes
variable {buf : List UInt8} {beyond : ℕ → UInt8}

theorem checks_iff (len : ℕ) : checks buf beyond len = true ↔ ValidFrame (view buf beyond) len := by
  rw [checks, checkValidFrame_value, decide_eq_true_eq]

theorem flag_iff (h : 5 ≤ buf.length) : buf[0]? = some cmuxFrameHeaderFooter ↔
    view buf beyond 0 = cmuxFrameHeaderFooter := by
  rw [view_eq_getElem? beyond (by omega), Option.some.injEq]

theorem counted_eq (h : view buf beyond 0 = cmuxFrameHeaderFooter) :
    counted buf beyond = frameSize (view buf beyond) := by
  rw [counted, getFrameLength_value, if_pos h]

theorem counted_ne (h : counted buf beyond ≠ -1) :
    view buf beyond 0 = cmuxFrameHeaderFooter := by
  by_contra h0
  rw [counted, getFrameLength_value, if_neg h0] at h
  exact h rfl

end Sizes

/-- A length checks the frame in front of it. -/
theorem checks_counted {buf : List UInt8} {beyond : ℕ → UInt8} (len : ℕ)
    (h0 : view buf beyond 0 = cmuxFrameHeaderFooter) : checks buf beyond len = true ↔
      frameSize (view buf beyond) ≤ len ∧
        checks buf beyond (frameSize (view buf beyond)) = true := by
  rw [checks_iff, checks_iff]
  constructor
  · rintro ⟨-, hsize, hrest⟩
    exact ⟨hsize, h0, Nat.le_refl _, hrest⟩
  · rintro ⟨hsize, -, -, hrest⟩
    exact ⟨h0, hsize, hrest⟩

/-- Octets behind the frame, and without the flag all but the first, do not change the answer. -/
theorem checks_congr {buf buf' : List UInt8} {beyond beyond' : ℕ → UInt8} {len : ℕ}
    (h5 : 5 ≤ len) (hle : len ≤ buf.length) (hlen : buf'.length = buf.length)
    (h : ∀ i < buf.length, i = 0 ∨ (i : ℤ) < counted buf beyond → buf'[i]? = buf[i]?) :
    checks buf' beyond' len = checks buf beyond len := by
  have hview : ∀ i < buf.length, i = 0 ∨ (i : ℤ) < counted buf beyond →
      view buf beyond i = view buf' beyond' i := by
    intro i hi hin
    have := h i hi hin
    rw [view_eq_getElem? beyond hi, view_eq_getElem? beyond' (by omega)] at this
    exact (Option.some.inj this).symm
  rw [Bool.eq_iff_iff, checks_iff, checks_iff]
  by_cases h0 : view buf beyond 0 = cmuxFrameHeaderFooter
  · rw [counted_eq h0] at hview
    by_cases hsize : frameSize (view buf beyond) ≤ len
    · have hsame : ∀ i < frameSize (view buf beyond), view buf beyond i = view buf' beyond' i :=
        fun i hi => hview i (by omega) (.inr (by omega))
      have hb := bodyIndex_bounds (view buf beyond)
      have hge := frameSize_ge (view buf beyond)
      have hsz := frameSize_congr fun i hi => hsame i (by unfold frameSize; omega)
      constructor
      · intro hv
        exact (validFrame_of_agree hv (fun i hi => (hsame i (hsz ▸ hi)).symm)
          (hsz ▸ hsize)).1
      · intro hv
        exact (validFrame_of_agree hv hsame hsize).1
    · exact (validFrame_congr fun i hi => hview i (by omega) (.inr (by omega))).symm
  · have h0' : view buf' beyond' 0 ≠ cmuxFrameHeaderFooter := by
      rwa [← hview 0 (by omega) (.inl rfl)]
    exact iff_of_false (fun hv => h0' hv.1) fun hv => h0 hv.1

/-- The record of a frame that is all there. -/
theorem dispatches_frame {buf : List UInt8} {beyond : ℕ → UInt8}
    (h0 : view buf beyond 0 = cmuxFrameHeaderFooter)
    (hle : frameSize (view buf beyond) ≤ buf.length) :
    Dispatches buf beyond (frameSize (view buf beyond)) (decodedInfo (view buf beyond)) := by
  have hge := frameSize_ge (view buf beyond)
  have hsz : frameSize (view buf beyond) =
    bodyIndex (view buf beyond) + (lengthField (view buf beyond)).toNat + 2 := rfl
  refine ⟨?_, ?_, ?_, view_eq_getElem? _ (by omega), view_eq_getElem? _ (by omega)⟩
  · rw [checks_iff]
    constructor
    · rintro ⟨-, -, hfcs, hfooter⟩
      exact ⟨h0, hfooter, hfcs⟩
    · rintro ⟨-, hfooter, hfcs⟩
      exact ⟨h0, Nat.le_refl _, hfcs, hfooter⟩
  · rw [hsz, bodyIndex]
    dsimp only [decodedInfo]
    split <;> rfl
  · intro hpos
    dsimp only [decodedInfo] at hpos ⊢
    rw [if_pos hpos, hsz]
    push_cast
    rfl

/-- The three decoders agree on every buffer that holds the length octets. -/
theorem decoders_agree (buf : List UInt8) (h : 5 ≤ buf.length) (beyond : ℕ → UInt8) :
    DecodersAgree buf beyond (counted buf beyond) := by
  refine ⟨fun len _ _ => ?_, fun len buf' beyond' h5 hle hlen hsame =>
    checks_congr h5 hle hlen hsame, fun hne hle => ?_⟩
  · rw [flag_iff h]
    by_cases h0 : view buf beyond 0 = cmuxFrameHeaderFooter
    · rw [counted_eq h0, checks_counted len h0, Int.toNat_natCast, Int.ofNat_le]
      exact (and_iff_right h0).symm
    · exact iff_of_false (fun hv => h0 ((checks_iff len).mp hv).1) fun hv => h0 hv.1
  · have h0 := counted_ne hne
    rw [counted_eq h0] at hle ⊢
    rw [Int.toNat_natCast, parsed, parseFrame_value (Nat.le_refl _)]
    exact dispatches_frame h0 (Int.ofNat_le.mp hle)

/-- A frame with two octets of information, and one octet behind it. -/
theorem decoders_agree_at :
    DecodersAgree [0xF9, 0x07, 0xEF, 0x05, 0x41, 0x54, 0x30, 0xF9, 0x00] (fun _ => 0)
      (counted [0xF9, 0x07, 0xEF, 0x05, 0x41, 0x54, 0x30, 0xF9, 0x00] fun _ => 0) :=
  decoders_agree _ (by decide) _

/-! ### Arrays that were cut short -/

/-- The sizes at which `parse_frame` takes an octet for there that is not: the tests before the
checking sequence leave out that octet itself. -/
def CutBeforeFcs (frame : List UInt8) : Prop :=
  frame.length = 1 ∨ frame.length = 3 ∨
    5 ≤ frame.length ∧ frameSize (view frame fun _ => 0) = frame.length + 2

instance (frame : List UInt8) : Decidable (CutBeforeFcs frame) :=
  inferInstanceAs (Decidable (_ ∨ _ ∨ _))

/-- Below five octets the length counts as zero, and from three on the header is there. -/
theorem parseFrame_short_reads (m : ℕ → UInt8) :
    (parseFrame 0).reads m = [] ∧ (parseFrame 1).reads m = [1] ∧ (parseFrame 2).reads m = [1] ∧
      (parseFrame 3).reads m = [0, 1, 2, 1, 2, 3] ∧
      (parseFrame 4).reads m = [0, 1, 2, 1, 2, 3] := by
  refine ⟨rfl, rfl, rfl, ?_, ?_⟩ <;>
  · simp [parseFrame, parseFrameHeader, parseFrameLength, parseFrameBody, parseFrameFooter,
      FrameInfo.zero]
    rfl

theorem parseFrame_short_readsBelow {len : ℕ} (h : len < 5) (m : ℕ → UInt8) :
    (parseFrame len).ReadsBelow len m ↔ len ≠ 1 ∧ len ≠ 3 := by
  obtain ⟨h0, h1, h2, h3, h4⟩ := parseFrame_short_reads m
  obtain rfl | rfl | rfl | rfl | rfl : len = 0 ∨ len = 1 ∨ len = 2 ∨ len = 3 ∨ len = 4 := by omega
  · simp [ReadsBelow, h0]
  · simp [ReadsBelow, h1]
  · simp [ReadsBelow, h2]
  · simp [ReadsBelow, h3]
  · simp [ReadsBelow, h4]

/-- `parse_frame` of an array reads inside it exactly when the array does not end right before its
checking sequence. -/
theorem parseFrame_inside_iff (frame : List UInt8) (beyond : ℕ → UInt8) :
    (parseFrame frame.length).ReadsBelow frame.length (view frame beyond) ↔
      ¬ CutBeforeFcs frame := by
  by_cases h : 5 ≤ frame.length
  · have hb := bodyIndex_bounds (view frame beyond)
    have hsame : frameSize (view frame beyond) = frameSize (view frame fun _ => 0) :=
      frameSize_congr fun i hi => view_congr frame beyond _ i (by omega)
    rw [parseFrame_readsBelow_iff h, hsame, CutBeforeFcs]
    omega
  · rw [parseFrame_short_readsBelow (by omega), CutBeforeFcs]
    omega

/-- A frame of one octet of information, cut before its checking sequence. -/
theorem not_parseFrame_inside_cut :
    ¬ (parseFrame [0xF9, 0x07, 0xEF, 0x03, 0x41].length).ReadsBelow
      [(0xF9 : UInt8), 0x07, 0xEF, 0x03, 0x41].length
      (view [0xF9, 0x07, 0xEF, 0x03, 0x41] fun _ => 0) := by
  decide +kernel

end Cmux
