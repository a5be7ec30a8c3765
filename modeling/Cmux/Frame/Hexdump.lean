import Cmux.Foundation.Access
import Cmux.Foundation.Hexadecimal

/-! `log_buffer_hexdump` of `cmux_frame_dump.c`. The array is the buffer that is shown, and each
turn of the loop has its own contents of the two local buffers. -/
namespace Cmux
open Access Access.Prog Hexadecimal

def bytesPerLine : ℕ := 16

/-- `sizeof(void *)` where a pointer has 64 bits. -/
def pointerSize : ℕ := 8

def tempBufferSize : ℕ := bytesPerLine + 3

def hdBufferSize : ℕ :=
  pointerSize + 3 + 10 + 3 + bytesPerLine * 3 + 3 + 1 + bytesPerLine + 1 + 3

/-- What the local buffers hold at the end of a turn, the text without its terminating zero. -/
structure DumpedLine where
  tempBuffer : List UInt8
  hdBuffer : List Char
  deriving DecidableEq, Repr

/-- `isprint` of the C locale. -/
def isprint (c : UInt8) : Bool := 0x20 ≤ c && c ≤ 0x7E

/-- The place of one octet among the digits, with a space more before each group of eight. -/
def hexCell (line : List UInt8) (bytesCurLine i : ℕ) : List Char :=
  (if i &&& 7 = 0 then [' '] else []) ++
    if i < bytesCurLine then ' ' :: padded 2 (line.getD i 0).toNat else [' ', ' ', ' ']

def printedChar (c : UInt8) : Char := if isprint c then Char.ofNat c.toNat else '.'

def hdLine (bufferPtr : UInt64) (offset : ℕ) (line : List UInt8) (bytesCurLine : ℕ) : List Char :=
  digits bufferPtr.toNat ++ [' ', '('] ++ padded 8 offset ++ [')'] ++
    (List.range bytesPerLine).flatMap (hexCell line bytesCurLine) ++ [' ', ' ', '|'] ++
    ((List.range bytesCurLine).map fun i => printedChar (line.getD i 0)) ++ ['|']

def bytesCurLine (buffLen : UInt16) : UInt16 :=
  if buffLen > bytesPerLine.toUInt16 then bytesPerLine.toUInt16 else buffLen

theorem bytesCurLine_toNat (buffLen : UInt16) :
    (bytesCurLine buffLen).toNat = min bytesPerLine buffLen.toNat := by
  have hgt : buffLen > bytesPerLine.toUInt16 ↔ bytesPerLine < buffLen.toNat :=
    UInt16.lt_iff_toNat_lt
  rw [bytesCurLine]
  split
  · next h => exact (Nat.min_eq_left (Nat.le_of_lt (hgt.mp h))).symm
  · next h => exact (Nat.min_eq_right (Nat.le_of_not_lt fun hlt => h (hgt.mpr hlt))).symm

theorem buffLen_sub_toNat (buffLen : UInt16) :
    (buffLen - bytesCurLine buffLen).toNat = buffLen.toNat - bytesPerLine := by
  have hline := bytesCurLine_toNat buffLen
  rw [UInt16.toNat_sub_of_le _ _ (UInt16.le_iff_toNat_le.mpr (by omega)), hline]
  omega

/-- The loop goes on after a full line that was not the last one. -/
theorem buffLen_sub_ne_zero_iff (buffLen : UInt16) :
    buffLen - bytesCurLine buffLen ≠ 0 ↔ bytesPerLine < buffLen.toNat := by
  rw [Ne, ← UInt16.toNat_inj, buffLen_sub_toNat, UInt16.toNat_zero, Nat.sub_eq_zero_iff_le,
    Nat.not_le]

def copySize (cur : ℕ) : ℕ := (cur + 3) / 4 * 4

/-- The loop of `log_buffer_hexdump`, with `offset` octets shown and `buffLen` left. -/
def logBufferHexdumpLoop (buffer : UInt64) (offset : ℕ) (buffLen : UInt16) :
    Prog UInt8 (List DumpedLine) := do
  let cur := (bytesCurLine buffLen).toNat
  let tempBuffer ← fetch offset (copySize cur)
  let line := ⟨tempBuffer, hdLine (buffer + UInt64.ofNat offset) offset tempBuffer cur⟩
  if _h : buffLen - bytesCurLine buffLen ≠ 0 then
    let lines ← logBufferHexdumpLoop buffer (offset + cur) (buffLen - bytesCurLine buffLen)
    pure (line :: lines)
  else pure [line]
termination_by buffLen.toNat
decreasing_by
  have hleft := (buffLen_sub_ne_zero_iff buffLen).mp _h
  have hline : 0 < bytesPerLine := by decide
  rw [buffLen_sub_toNat]
  omega

/-- `log_buffer_hexdump` of the `buffLen` octets at the address `buffer`. -/
def logBufferHexdump (buffer : UInt64) (buffLen : UInt16) : Prog UInt8 (List DumpedLine) :=
  if buffLen = 0 then pure [] else logBufferHexdumpLoop buffer 0 buffLen

/-! ### The turns of the loop -/

/-- What the local buffers hold where `left` octets are left at `offset`. -/
def dumpedLine (m : ℕ → UInt8) (buffer : UInt64) (offset left : ℕ) : DumpedLine :=
  ⟨slice m offset (copySize (min bytesPerLine left)),
    hdLine (buffer + UInt64.ofNat offset) offset
      (slice m offset (copySize (min bytesPerLine left))) (min bytesPerLine left)⟩

section Turn
variable (buffer : UInt64) (offset : ℕ) (buffLen : UInt16) (m : ℕ → UInt8)

theorem logBufferHexdumpLoop_value : (logBufferHexdumpLoop buffer offset buffLen).value m =
    [dumpedLine m buffer offset buffLen.toNat] ++ if bytesPerLine < buffLen.toNat then
      (logBufferHexdumpLoop buffer (offset + bytesPerLine)
        (buffLen - bytesCurLine buffLen)).value m else [] := by
  have hmore := buffLen_sub_ne_zero_iff buffLen
  rw [logBufferHexdumpLoop]
  simp only [value_bind, value_fetch, memory_fetch, bytesCurLine_toNat]
  by_cases hleft : bytesPerLine < buffLen.toNat
  · rw [dif_pos (hmore.mpr hleft), if_pos hleft]
    simp only [value_bind, value_pure, dumpedLine, Nat.min_eq_left (Nat.le_of_lt hleft)]
    rfl
  · rw [dif_neg fun h => hleft (hmore.mp h), if_neg hleft]
    rfl

theorem logBufferHexdumpLoop_reads : (logBufferHexdumpLoop buffer offset buffLen).reads m =
    List.range' offset (copySize (min bytesPerLine buffLen.toNat)) ++
      if bytesPerLine < buffLen.toNat then
        (logBufferHexdumpLoop buffer (offset + bytesPerLine)
          (buffLen - bytesCurLine buffLen)).reads m else [] := by
  have hmore := buffLen_sub_ne_zero_iff buffLen
  rw [logBufferHexdumpLoop]
  simp only [reads_bind, reads_fetch, value_fetch, memory_fetch, bytesCurLine_toNat]
  by_cases hleft : bytesPerLine < buffLen.toNat
  · rw [dif_pos (hmore.mpr hleft), if_pos hleft]
    simp only [reads_bind, reads_pure, List.append_nil, Nat.min_eq_left (Nat.le_of_lt hleft)]
  · rw [dif_neg fun h => hleft (hmore.mp h), if_neg hleft]
    rfl

/-- The dump leaves the buffer as it is. -/
theorem logBufferHexdumpLoop_memory :
    (logBufferHexdumpLoop buffer offset buffLen).memory m = m := by
  -- the octets that are left become fewer with each turn
  induction hleft : buffLen.toNat using Nat.strongRecOn generalizing offset buffLen with
  | ind left ih =>
    rw [logBufferHexdumpLoop]
    simp only [memory_bind, memory_fetch]
    by_cases hmore : buffLen - bytesCurLine buffLen ≠ 0
    · have hfewer := (buffLen_sub_ne_zero_iff buffLen).mp hmore
      have hline : 0 < bytesPerLine := by decide
      have hsub := buffLen_sub_toNat buffLen
      rw [dif_pos hmore]
      simp only [memory_bind, memory_pure]
      exact ih _ (by omega) _ _ rfl
    · rw [dif_neg hmore]
      rfl

end Turn

/-- What is put together turn by turn, as a whole: one piece for each line. -/
theorem dumpTurns_flatMap {α : Type} (F : ℕ → UInt16 → List α) (g : ℕ → ℕ → List α)
    (hF : ∀ offset buffLen, F offset buffLen = g offset buffLen.toNat ++
      if bytesPerLine < buffLen.toNat then
        F (offset + bytesPerLine) (buffLen - bytesCurLine buffLen)
      else [])
    (offset : ℕ) {buffLen : UInt16} (h : buffLen ≠ 0) :
    F offset buffLen = (List.range ((buffLen.toNat + 15) / bytesPerLine)).flatMap fun k =>
      g (offset + bytesPerLine * k) (buffLen.toNat - bytesPerLine * k) := by
  have hpos : buffLen.toNat ≠ 0 := fun h0 => h (UInt16.toNat_inj.mp h0)
  obtain ⟨n, hn⟩ : ∃ n, (buffLen.toNat + 15) / bytesPerLine = n + 1 := by
    simp only [bytesPerLine]
    exact ⟨(buffLen.toNat - 1) / 16, by omega⟩
  rw [hn]
  -- the number of turns goes down by one as sixteen octets are shown
  induction n generalizing offset buffLen with
  | zero =>
    have hlast : ¬ bytesPerLine < buffLen.toNat := by
      simp only [bytesPerLine] at hn ⊢
      omega
    rw [hF, if_neg hlast, List.append_nil]
    exact (List.append_nil _).symm
  | succ n ih =>
    have hmore : bytesPerLine < buffLen.toNat := by
      simp only [bytesPerLine] at hn ⊢
      omega
    have hleft := buffLen_sub_toNat buffLen
    have hne := (buffLen_sub_ne_zero_iff buffLen).mpr hmore
    have hturns : ((buffLen - bytesCurLine buffLen).toNat + 15) / bytesPerLine = n + 1 := by
      simp only [hleft, bytesPerLine] at hn ⊢
      omega
    rw [hF, if_pos hmore, ih (offset + bytesPerLine) hne (by omega) hturns, hleft,
      List.range_succ_eq_map (n := n + 1), List.flatMap_cons, List.flatMap_map]
    refine congrArg₂ _ rfl (congrArg (List.flatMap · _) (funext fun k => ?_))
    rw [Nat.mul_succ, Nat.add_assoc, Nat.add_comm bytesPerLine, Nat.sub_sub,
      Nat.add_comm bytesPerLine]

section Run
variable (buffer : UInt64) (buffLen : UInt16) (m : ℕ → UInt8)

/-- One line for each sixteen octets, and one for what is left. -/
theorem logBufferHexdump_value : (logBufferHexdump buffer buffLen).value m =
    (List.range ((buffLen.toNat + 15) / bytesPerLine)).map fun k =>
      dumpedLine m buffer (bytesPerLine * k) (buffLen.toNat - bytesPerLine * k) := by
  by_cases h : buffLen = 0
  · rw [logBufferHexdump, if_pos h, h]
    rfl
  · rw [logBufferHexdump, if_neg h, List.map_eq_flatMap]
    have hrun := dumpTurns_flatMap
      (fun offset buffLen => (logBufferHexdumpLoop buffer offset buffLen).value m)
      (fun offset left => [dumpedLine m buffer offset left])
      (fun offset buffLen => logBufferHexdumpLoop_value buffer offset buffLen m) 0 h
    simpa only [Nat.zero_add] using hrun

theorem logBufferHexdump_reads : (logBufferHexdump buffer buffLen).reads m =
    (List.range ((buffLen.toNat + 15) / bytesPerLine)).flatMap fun k =>
      List.range' (bytesPerLine * k)
        (copySize (min bytesPerLine (buffLen.toNat - bytesPerLine * k))) := by
  by_cases h : buffLen = 0
  · rw [logBufferHexdump, if_pos h, h]
    rfl
  · rw [logBufferHexdump, if_neg h]
    have hrun := dumpTurns_flatMap
      (fun offset buffLen => (logBufferHexdumpLoop buffer offset buffLen).reads m)
      (fun offset left => List.range' offset (copySize (min bytesPerLine left)))
      (fun offset buffLen => logBufferHexdumpLoop_reads buffer offset buffLen m) 0 h
    simpa only [Nat.zero_add] using hrun

theorem logBufferHexdump_memory : (logBufferHexdump buffer buffLen).memory m = m := by
  unfold logBufferHexdump
  split
  · rfl
  · exact logBufferHexdumpLoop_memory _ _ _ _

/-- Octets up to a whole number of words are copied, and no others. -/
theorem mem_logBufferHexdump_reads (i : ℕ) :
    i ∈ (logBufferHexdump buffer buffLen).reads m ↔ i < copySize buffLen.toNat := by
  simp only [logBufferHexdump_reads, List.mem_flatMap, List.mem_range, List.mem_range'_1,
    copySize, bytesPerLine]
  constructor
  · rintro ⟨k, hk, -, hi⟩
    omega
  · intro hi
    exact ⟨i / 16, by omega, by omega, by omega⟩

end Run

/-! ### The text of a line -/

theorem readOctets_hexCells (line : List UInt8) (n : ℕ) (is : List ℕ) (cs : List Char) :
    readOctets (is.flatMap (hexCell line n) ++ cs) =
      (is.flatMap fun i => if i < n then [line.getD i 0] else []) ++ readOctets cs := by
  induction is with
  | nil => rfl
  | cons i is ih =>
    have hcell (cs : List Char) : readOctets (hexCell line n i ++ cs) =
        (if i < n then [line.getD i 0] else []) ++ readOctets cs := by
      unfold hexCell
      split_ifs <;> simp [readOctets_padded]
    rw [List.flatMap_cons, List.flatMap_cons, List.append_assoc, hcell, ih, List.append_assoc]

theorem shown_take (line : List UInt8) {n w : ℕ} (hn : n ≤ line.length) (hw : n ≤ w) :
    ((List.range w).flatMap fun i => if i < n then [line.getD i 0] else []) = line.take n := by
  obtain ⟨k, rfl⟩ := Nat.exists_eq_add_of_le hw
  have hfront : ∀ i ∈ List.range n, (if i < n then [line.getD i 0] else []) = [line.getD i 0] :=
    fun i hi => if_pos (List.mem_range.mp hi)
  have hback : ((List.range k).map (n + ·)).flatMap
      (fun i => if i < n then [line.getD i 0] else []) = [] := by
    simp [List.flatMap_eq_nil_iff]
  rw [List.range_add, List.flatMap_append, hback, List.append_nil, List.flatMap_congr hfront,
    ← List.map_eq_flatMap]
  apply List.ext_getElem
  · simp [hn]
  · intro i hi hi'
    have hi : i < n := by simpa using hi
    simp [List.getElem?_eq_getElem (show i < line.length by omega)]

/-- The octets that a reader finds in a line, behind the address and the offset. -/
def shownOctets (text : List Char) : List UInt8 := readOctets (text.dropWhile (· ≠ ')')).tail

/-- A line shows its octets, each once and in order. -/
theorem shownOctets_hdLine (bufferPtr : UInt64) (offset : ℕ) {line : List UInt8} {n : ℕ}
    (hn : n ≤ line.length) (hw : n ≤ bytesPerLine) :
    shownOctets (hdLine bufferPtr offset line n) = line.take n := by
  have hdigit : ∀ d < 16, (Nat.digitChar d).toUpper ≠ ')' := by decide
  have hopen : ∀ c ∈ [' ', '('], c ≠ ')' := by simp
  have hprefix : ∀ c ∈ digits bufferPtr.toNat ++ [' ', '('] ++ padded 8 offset,
      decide (c ≠ ')') = true := by
    simp only [List.forall_mem_append, decide_eq_true_eq]
    exact ⟨⟨forall_mem_digits hdigit _, hopen⟩, forall_mem_padded hdigit _ _⟩
  have htail (cs : List Char) : ((digits bufferPtr.toNat ++ [' ', '('] ++ padded 8 offset ++
      ([')'] ++ cs)).dropWhile (· ≠ ')')).tail = cs := by
    rw [List.dropWhile_append_of_pos hprefix]
    rfl
  rw [shownOctets, hdLine]
  simp only [List.append_assoc] at htail ⊢
  rw [htail, readOctets_hexCells, shown_take line hn hw]
  simp

theorem hexCell_length (line : List UInt8) (n i : ℕ) :
    (hexCell line n i).length = 3 + if i &&& 7 = 0 then 1 else 0 := by
  have hoctet (octet : UInt8) : (padded 2 octet.toNat).length = 2 :=
    padded_length (by decide) octet.toNat_lt
  unfold hexCell
  split_ifs <;> simp only [List.length_append, List.length_cons, List.length_nil, hoctet]

theorem hdLine_length (bufferPtr : UInt64) {offset : ℕ} (hoffset : offset < 16 ^ 8)
    (line : List UInt8) (n : ℕ) :
    (hdLine bufferPtr offset line n).length = (digits bufferPtr.toNat).length + 65 + n := by
  have hcells : ((List.range bytesPerLine).flatMap (hexCell line n)).length = 50 := by
    rw [List.length_flatMap, funext (hexCell_length line n)]
    rfl
  simp only [hdLine, List.length_append, List.length_cons, List.length_nil, hcells,
    padded_length (by decide) hoffset, List.length_map, List.length_range]
  omega

/-! ### Inside the buffers -/

/-- The run copies octets of the buffer alone exactly when these fill whole words. -/
theorem logBufferHexdump_readsBelow_iff (buffer : UInt64) (buffLen : UInt16) (m : ℕ → UInt8) :
    (logBufferHexdump buffer buffLen).ReadsBelow buffLen.toNat m ↔ buffLen.toNat % 4 = 0 := by
  have hmem (i : ℕ) : i ∈ (logBufferHexdump buffer buffLen).reads m ↔
      ∃ k < (buffLen.toNat + 15) / bytesPerLine, bytesPerLine * k ≤ i ∧
        i < bytesPerLine * k + copySize (min bytesPerLine (buffLen.toNat - bytesPerLine * k)) := by
    simp only [logBufferHexdump_reads, List.mem_flatMap, List.mem_range, List.mem_range'_1]
  simp only [ReadsBelow, hmem, copySize, bytesPerLine]
  constructor
  · intro h
    by_contra hpart
    have hlast := h (buffLen.toNat + 3 - (buffLen.toNat + 3) % 4 - 1)
      ⟨(buffLen.toNat - 1) / 16, by omega, by omega, by omega⟩
    omega
  · rintro hwhole i ⟨k, hk, -, hi⟩
    omega

/-- The text of a line fits when the address leaves room for its octets. -/
theorem hdLine_fits_iff (bufferPtr : UInt64) {offset : ℕ} (hoffset : offset < 16 ^ 8)
    (line : List UInt8) {n : ℕ} (hn : n ≤ bytesPerLine) :
    (hdLine bufferPtr offset line n).length + 1 ≤ hdBufferSize ↔
      bufferPtr.toNat < 16 ^ (30 - n) := by
  simp only [bytesPerLine] at hn
  rw [hdLine_length bufferPtr hoffset, ← digits_length_le_iff (by omega)]
  simp only [hdBufferSize, pointerSize, bytesPerLine]
  omega

def DumpedLine.Fits (line : DumpedLine) : Prop :=
  line.tempBuffer.length ≤ tempBufferSize ∧ line.hdBuffer.length + 1 ≤ hdBufferSize

theorem dumpedLine_fits_iff (m : ℕ → UInt8) (buffer : UInt64) {offset : ℕ}
    (hoffset : offset < 65536) (left : ℕ) : (dumpedLine m buffer offset left).Fits ↔
      (buffer.toNat + offset) % 2 ^ 64 < 16 ^ (30 - min bytesPerLine left) := by
  have haddress : (buffer + UInt64.ofNat offset).toNat = (buffer.toNat + offset) % 2 ^ 64 := by
    rw [UInt64.toNat_add, UInt64.toNat_ofNat', Nat.add_mod_mod]
  have htemp : copySize (min bytesPerLine left) ≤ tempBufferSize := by
    simp only [copySize, tempBufferSize, bytesPerLine]
    omega
  rw [DumpedLine.Fits, dumpedLine, hdLine_fits_iff _ (by omega) _ (Nat.min_le_left _ _), haddress,
    slice_length]
  exact and_iff_right htemp

/-- Every line fits when the last full one, or one of fifteen octets alone, has a short address. -/
theorem logBufferHexdump_fits_iff (buffer : UInt64) (buffLen : UInt16) (m : ℕ → UInt8) :
    (∀ line ∈ (logBufferHexdump buffer buffLen).value m, line.Fits) ↔
      (16 ≤ buffLen.toNat → buffer.toNat + 16 * (buffLen.toNat / 16 - 1) < 2 ^ 56) ∧
        (buffLen.toNat = 15 → buffer.toNat < 2 ^ 60) := by
  have hlen := buffLen.toNat_lt
  have hbuffer := buffer.toNat_lt
  have hlines : (∀ line ∈ (logBufferHexdump buffer buffLen).value m, line.Fits) ↔
      ∀ k < (buffLen.toNat + 15) / 16, (buffer.toNat + 16 * k) % 2 ^ 64 <
        16 ^ (30 - min 16 (buffLen.toNat - 16 * k)) := by
    simp only [logBufferHexdump_value, List.forall_mem_map, List.mem_range]
    refine forall₂_congr fun k hk => dumpedLine_fits_iff m buffer ?_ _
    simp only [bytesPerLine] at hk ⊢
    omega
  rw [hlines]
  constructor
  · intro h
    refine ⟨fun hfull => ?_, fun hfifteen => ?_⟩
    · -- the first address is short as well, so the last one has not wrapped
      have hfirst := h 0 (by omega)
      have hlast := h (buffLen.toNat / 16 - 1) (by omega)
      rw [Nat.min_eq_left (by omega)] at hfirst hlast
      omega
    · have hline := h 0 (by omega)
      rw [hfifteen] at hline
      change (buffer.toNat + 16 * 0) % 2 ^ 64 < 16 ^ 15 at hline
      omega
  · rintro ⟨hfull, hfifteen⟩ k hk
    rcases Nat.lt_or_ge 14 (min 16 (buffLen.toNat - 16 * k)) with hlong | hshort
    · obtain h15 | h16 : min 16 (buffLen.toNat - 16 * k) = 15 ∨
          min 16 (buffLen.toNat - 16 * k) = 16 := by omega
      · rw [h15]
        omega
      · rw [h16]
        omega
    · -- sixteen digits fit beside fourteen octets
      calc (buffer.toNat + 16 * k) % 2 ^ 64 < 2 ^ 64 := Nat.mod_lt _ (by decide)
        _ = 16 ^ 16 := by decide
        _ ≤ 16 ^ (30 - min 16 (buffLen.toNat - 16 * k)) :=
          Nat.pow_le_pow_right (by decide) (by omega)

/-- The lines together show the buffer. -/
theorem logBufferHexdump_shows (buffer : UInt64) (buffLen : UInt16) (m : ℕ → UInt8) :
    ((logBufferHexdump buffer buffLen).value m).flatMap (fun line => shownOctets line.hdBuffer) =
      slice m 0 buffLen.toNat := by
  have hline (k : ℕ) : shownOctets (dumpedLine m buffer (bytesPerLine * k)
      (buffLen.toNat - bytesPerLine * k)).hdBuffer =
      slice m (0 + bytesPerLine * k) (min bytesPerLine (buffLen.toNat - bytesPerLine * k)) := by
    have hcopy : min bytesPerLine (buffLen.toNat - bytesPerLine * k) ≤
        copySize (min bytesPerLine (buffLen.toNat - bytesPerLine * k)) := by
      simp only [copySize]
      omega
    rw [dumpedLine, shownOctets_hdLine _ _ (by rwa [slice_length]) (Nat.min_le_left _ _),
      slice_take m _ hcopy, Nat.zero_add]
  rw [logBufferHexdump_value, List.flatMap_map, funext hline, slice_blocks, Nat.min_eq_right]
  simp only [bytesPerLine]
  omega

/-- The dump of a buffer copies octets of the buffer only, keeps inside its local buffers and shows
each octet once. -/
structure DumpsInside (buffer : UInt64) (octets : List UInt8) (beyond : ℕ → UInt8) : Prop where
  copies : (logBufferHexdump buffer octets.length.toUInt16).ReadsBelow octets.length
    (view octets beyond)
  fits : ∀ line ∈ (logBufferHexdump buffer octets.length.toUInt16).value (view octets beyond),
    line.Fits
  shows : ((logBufferHexdump buffer octets.length.toUInt16).value (view octets beyond)).flatMap
    (fun line => shownOctets line.hdBuffer) = octets

/-- A dump stays inside exactly when the buffer is made of whole words and the address of the last
full line has no more than fourteen digits. -/
theorem logBufferHexdump_inside_iff (buffer : UInt64) (octets : List UInt8)
    (h : octets.length ≤ 65535) (beyond : ℕ → UInt8) :
    DumpsInside buffer octets beyond ↔ octets.length % 4 = 0 ∧
      (16 ≤ octets.length → buffer.toNat + 16 * (octets.length / 16 - 1) < 2 ^ 56) := by
  have hlen : octets.length.toUInt16.toNat = octets.length := Nat.mod_eq_of_lt (by omega)
  have hcopies := logBufferHexdump_readsBelow_iff buffer octets.length.toUInt16 (view octets beyond)
  have hfits := logBufferHexdump_fits_iff buffer octets.length.toUInt16 (view octets beyond)
  have hshows := logBufferHexdump_shows buffer octets.length.toUInt16 (view octets beyond)
  rw [hlen] at hcopies hfits hshows
  constructor
  · intro hinside
    exact ⟨hcopies.mp hinside.copies, (hfits.mp hinside.fits).1⟩
  · rintro ⟨hwords, haddress⟩
    refine ⟨hcopies.mpr hwords, hfits.mpr ⟨haddress, fun hfifteen => by omega⟩, ?_⟩
    rw [hshows, slice_view (by omega), List.drop_zero, List.take_length]

/-- A frame of two octets of information on DLCI 1. -/
theorem logBufferHexdump_inside_frame :
    DumpsInside 0x55D0C0A012A0 [0xF9, 0x07, 0xEF, 0x05, 0x41, 0x54, 0x92, 0xF9] (fun _ => 0) :=
  (logBufferHexdump_inside_iff 0x55D0C0A012A0 [0xF9, 0x07, 0xEF, 0x05, 0x41, 0x54, 0x92, 0xF9]
    (by decide) fun _ => 0).mpr ⟨by decide, by decide⟩

/-- The frame that opens DLCI 1 has six octets, of which eight are copied. A full line at an
address of sixteen digits is two characters too long. -/
theorem not_logBufferHexdump_inside :
    ¬ DumpsInside 0x55D0C0A012A0 [0xF9, 0x07, 0x3F, 0x01, 0xDE, 0xF9] (fun _ => 0) ∧
      ¬ DumpsInside 0xFFFF888000001000 (List.replicate 16 0) (fun _ => 0) := by
  constructor
  · intro h
    have hwords := (logBufferHexdump_readsBelow_iff _ _ _).mp h.copies
    exact absurd hwords (by decide)
  · intro h
    have haddress := ((logBufferHexdump_fits_iff _ _ _).mp h.fits).1 (by decide)
    exact absurd haddress (by decide)

end Cmux
