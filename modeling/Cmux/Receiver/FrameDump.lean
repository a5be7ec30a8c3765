import Cmux.Frame.Hexdump
import Cmux.Receiver.CleanLine
import Cmux.Receiver.Conservation
import Cmux.Service.Header

/-! `hexdump_frame_info` and `hexdump_frame` of `cmux_frame_dump.c`, with the names they print, and
what `process_ingress_frame` logs of each frame before it hands it over. -/
namespace Cmux
open Access Access.Prog

def getFrameType (frameType : ControlType) : String :=
  if frameType = ControlType.sabm then "SABM"
  else if frameType = ControlType.ua then "UA"
  else if frameType = ControlType.dm then "DM"
  else if frameType = ControlType.disc then "DISC"
  else if frameType = ControlType.uih then "UIH"
  else "UNKNOWN"

def getServiceString (service : CmuxService) : String :=
  if service = CmuxService.parameterNegotiation then "PN"
  else if service = CmuxService.powerSaving then "PSC"
  else if service = CmuxService.multiplexerCloseDown then "CLD"
  else if service = CmuxService.test then "TEST"
  else if service = CmuxService.flowControlOn then "FCon"
  else if service = CmuxService.flowControlOff then "FCoff"
  else if service = CmuxService.modemStatus then "MSC"
  else if service = CmuxService.unsupported then "NSC"
  else if service = CmuxService.remotePortNegotiation then "RPN"
  else if service = CmuxService.remoteLineStatus then "RLS"
  else if service = CmuxService.serviceNegotiation then "SNC"
  else "UNKNOWN"

/-- The macros of `cmux_config.h` that the entries are made with. -/
inductive LogLevel where
  | trace
  | debug
  | warn
  deriving DecidableEq, Repr

/-- An entry of the log, with the values it is formatted from. -/
inductive LogEntry where
  | line (line : DumpedLine)
  | invalidHeader (header : UInt8)
  | extendedAddress (ea : Bool)
  | frame (incoming : Bool) (dlci : UInt8) (ea cr : Bool) (type : ControlType) (typeName : String)
      (pollFinal : Bool) (length : UInt16)
  | bodyStarts (frameDataIndex : ℤ) (length : UInt16)
  | fcsMismatch (fcs calculatedFcs : UInt8)
  | invalidFooter (footer : UInt8)
  | noService (length : ℕ)
  | notEnoughBytes (expected length : ℕ)
  | service (name : String) (cr : Bool) (length : ℕ)
  deriving DecidableEq, Repr

def LogEntry.level : LogEntry → LogLevel
  | line _ | bodyStarts _ _ => LogLevel.trace
  | frame .. | service .. => LogLevel.debug
  | invalidHeader _ | extendedAddress _ | fcsMismatch _ _ | invalidFooter _ | noService _
  | notEnoughBytes _ _ => LogLevel.warn

/-- What is printed of the log. As shipped `CMUX_LOG_TRACE` is empty, and prints nothing. -/
def printed (trace : Bool) (log : List LogEntry) : List LogEntry :=
  if trace then log else log.filter fun entry => entry.level ≠ LogLevel.trace

/-- What `cmux_service_decode` logs of a message said to hold `length` octets. -/
def cmuxServiceDecodeLog (length : ℕ) (decoded : DecodedService) : List LogEntry :=
  if length = 0 then [LogEntry.noService length]
  else
    let expected := decoded.serviceBody + decoded.serviceBodyLength
    (if expected > length then [LogEntry.notEnoughBytes expected length] else []) ++
      [LogEntry.service (getServiceString decoded.service) decoded.cr decoded.serviceBodyLength]

/-- The dump of the information field of a frame at the address `frame`. -/
def bodyLog (info : FrameInfo) (frame : UInt64) : Prog UInt8 (List LogEntry) :=
  if info.length > 0 then do
    let lines ← (logBufferHexdump (frame + UInt64.ofNat info.frameDataIndex.toNat)
      info.length).offset info.frameDataIndex.toNat
    pure (LogEntry.bodyStarts info.frameDataIndex info.length :: lines.map LogEntry.line)
  else pure []

/-- On the control channel the service header is decoded for what the decoder logs. -/
def serviceLog (info : FrameInfo) : Prog UInt8 (List LogEntry) :=
  if info.dlci = 0 ∧ info.length > 0 then do
    let decoded ← (cmuxServiceDecode info.length.toNat).offset info.frameDataIndex.toNat
    pure (cmuxServiceDecodeLog info.length.toNat decoded)
  else pure []

def hexdumpFrameInfo (info : FrameInfo) (frame : UInt64) (incoming : Bool) :
    Prog UInt8 (List LogEntry) := do
  let header := if info.header ≠ cmuxFrameHeaderFooter then [LogEntry.invalidHeader info.header]
    else []
  let address := if info.ea then [] else [LogEntry.extendedAddress info.ea]
  let described := LogEntry.frame incoming info.dlci info.ea info.cr info.type
    (getFrameType info.type) info.pollFinal info.length
  let body ← bodyLog info frame
  let fcs := if info.fcs ≠ info.calculatedFcs then
    [LogEntry.fcsMismatch info.fcs info.calculatedFcs] else []
  let footer := if info.footer ≠ cmuxFrameHeaderFooter then [LogEntry.invalidFooter info.footer]
    else []
  let service ← serviceLog info
  pure (header ++ address ++ [described] ++ body ++ fcs ++ footer ++ service)

/-- `hexdump_frame` of an array said to hold `len` octets, at the address `frame`. -/
def hexdumpFrame (frame : UInt64) (len : ℕ) (incoming : Bool) : Prog UInt8 (List LogEntry) := do
  let lines ← logBufferHexdump frame len.toUInt16
  let info ← parseFrame len
  let entries ← hexdumpFrameInfo info frame incoming
  pure (lines.map LogEntry.line ++ entries)

/-- What `process_ingress_frame` logs of a frame of `len` octets before it hands it over. -/
def processIngressFrameLog (data : UInt64) (len : ℕ) : Prog UInt8 (List LogEntry) :=
  hexdumpFrame data len true

/-! ### What is read -/

theorem logBufferHexdump_readsBelow {buffer : UInt64} {buffLen : UInt16} {n : ℕ}
    {m : ℕ → UInt8} :
    (logBufferHexdump buffer buffLen).ReadsBelow n m ↔ copySize buffLen.toNat ≤ n := by
  simp only [ReadsBelow, mem_logBufferHexdump_reads]
  constructor
  · intro hall
    by_contra hlt
    exact Nat.lt_irrefl n (hall n (by omega))
  · intro hle i hi
    exact Nat.lt_of_lt_of_le hi hle

/-- The service header is in the first three octets, whatever the length. -/
theorem cmuxServiceDecode_reads (len : ℕ) (m : ℕ → UInt8) :
    (cmuxServiceDecode len).ReadsBelow 3 m := by
  intro i hi
  by_cases h : len = 0
  · simp [cmuxServiceDecode, h] at hi
  · simp only [cmuxServiceDecode, cmuxServiceDecodeLength, if_neg h, reads_bind, reads_cell,
      reads_ite, reads_pure, value_cell, memory_cell] at hi
    split_ifs at hi <;> simp at hi <;> omega

section Entries
variable (info : FrameInfo) (frame : UInt64) (m : ℕ → UInt8)

@[simp] theorem bodyLog_memory : (bodyLog info frame).memory m = m := by
  unfold bodyLog
  split
  · simp only [memory_bind, memory_pure, memory_offset_of_eq (logBufferHexdump_memory _ _)]
  · rfl

theorem hexdumpFrameInfo_value (incoming : Bool) :
    (hexdumpFrameInfo info frame incoming).value m =
      (if info.header ≠ cmuxFrameHeaderFooter then [LogEntry.invalidHeader info.header] else []) ++
      (if info.ea then [] else [LogEntry.extendedAddress info.ea]) ++
      [LogEntry.frame incoming info.dlci info.ea info.cr info.type (getFrameType info.type)
        info.pollFinal info.length] ++ (bodyLog info frame).value m ++
      (if info.fcs ≠ info.calculatedFcs then [LogEntry.fcsMismatch info.fcs info.calculatedFcs]
        else []) ++
      (if info.footer ≠ cmuxFrameHeaderFooter then [LogEntry.invalidFooter info.footer] else []) ++
      (serviceLog info).value m := by
  simp only [hexdumpFrameInfo, value_bind, value_pure, bodyLog_memory]

theorem hexdumpFrameInfo_readsBelow (incoming : Bool) (n : ℕ) :
    (hexdumpFrameInfo info frame incoming).ReadsBelow n m ↔
      (bodyLog info frame).ReadsBelow n m ∧ (serviceLog info).ReadsBelow n m := by
  simp only [hexdumpFrameInfo, readsBelow_bind, readsBelow_pure, and_true, bodyLog_memory]

end Entries

section Complete
variable {m : ℕ → UInt8} {len : ℕ} (frame : UInt64) (incoming : Bool)

theorem decodedInfo_index (h : lengthField m > 0) :
    (decodedInfo m).frameDataIndex.toNat = bodyIndex m := by
  have hindex : (decodedInfo m).frameDataIndex = (bodyIndex m : ℤ) := if_pos h
  rw [hindex, Int.toNat_natCast]

/-- The dump of the information field ends up to three octets behind it, and two octets stand
there. -/
theorem bodyLog_readsBelow_iff (h : frameSize m = len) :
    (bodyLog (decodedInfo m) frame).ReadsBelow len m ↔ (lengthField m).toNat % 4 ≠ 1 := by
  have hlen : len = bodyIndex m + (lengthField m).toNat + 2 := h.symm
  have hpos : lengthField m > 0 ↔ 0 < (lengthField m).toNat := UInt16.lt_iff_toNat_lt
  have hlength : (decodedInfo m).length = lengthField m := rfl
  unfold bodyLog
  rw [hlength]
  split
  next hsome =>
    rw [readsBelow_bind, decodedInfo_index hsome, readsBelow_offset m (by omega),
      logBufferHexdump_readsBelow, copySize, and_iff_left (readsBelow_pure _ _ _)]
    omega
  next hnone =>
    have hzero : ¬ 0 < (lengthField m).toNat := fun hsome => hnone (hpos.mpr hsome)
    exact iff_of_true (readsBelow_pure _ _ _) (by omega)

theorem serviceLog_readsBelow (h : frameSize m = len) :
    (serviceLog (decodedInfo m)).ReadsBelow len m := by
  have hlen : len = bodyIndex m + (lengthField m).toNat + 2 := h.symm
  unfold serviceLog
  split
  next hcontrol =>
    have hpos : lengthField m > 0 := hcontrol.2
    have hone := UInt16.lt_iff_toNat_lt.mp hpos
    rw [UInt16.toNat_zero] at hone
    rw [readsBelow_bind, decodedInfo_index hpos, readsBelow_offset m (by omega)]
    refine ⟨fun i hi => ?_, readsBelow_pure _ _ _⟩
    have hthree := cmuxServiceDecode_reads _ _ i hi
    omega
  next => exact readsBelow_pure _ _ _

theorem frameSize_toUInt16 (h : frameSize m = len) : len.toUInt16.toNat = len := by
  have hb := bodyIndex_bounds m
  have hle := lengthField_le m
  have hsize : len = bodyIndex m + (lengthField m).toNat + 2 := h.symm
  exact Nat.mod_eq_of_lt (by omega)

/-- The dump of a frame stays in its array exactly when the frame fills whole words and has one
length octet. -/
theorem hexdumpFrame_readsBelow_iff (h : frameSize m = len) :
    (hexdumpFrame frame len incoming).ReadsBelow len m ↔ len % 4 = 0 ∧ ¬ Extended m := by
  have hsize : len = bodyIndex m + (lengthField m).toNat + 2 := h.symm
  have hmemory : (parseFrame len).memory m = m := by simp [parseFrame, parseFrameFooter]
  simp only [hexdumpFrame, readsBelow_bind, readsBelow_pure, and_true, logBufferHexdump_memory,
    hmemory, parseFrame_value (Nat.le_of_eq h), logBufferHexdump_readsBelow,
    frameSize_toUInt16 h, parseFrame_reads (Nat.le_of_eq h), true_and,
    hexdumpFrameInfo_readsBelow, bodyLog_readsBelow_iff frame h, serviceLog_readsBelow h,
    copySize]
  by_cases hx : Extended m
  · have hfive : bodyIndex m = 5 := if_pos hx
    refine iff_of_false ?_ (fun hinside => hinside.2 hx)
    rintro ⟨hwhole, hbody⟩
    omega
  · have hfour : bodyIndex m = 4 := if_neg hx
    simp only [hx, not_false_eq_true, and_true]
    omega

end Complete

/-! ### What the log tells -/

def LogEntry.octets : LogEntry → List UInt8
  | line dumped => shownOctets dumped.hdBuffer
  | _ => []

def LogEntry.fields : LogEntry → Option (UInt8 × Bool × Bool × ControlType × Bool × UInt16)
  | frame _ dlci ea cr type _ pollFinal length => some (dlci, ea, cr, type, pollFinal, length)
  | _ => none

def warnings (log : List LogEntry) : List LogEntry :=
  log.filter fun entry => entry.level = LogLevel.warn

/-- The octets that a service takes by its own header. -/
def announcedLength (m : ℕ → UInt8) : ℕ := serviceBodyIndex m + (serviceLength m).toNat

theorem announcedLength_congr {m m' : ℕ → UInt8} (h : ∀ i < 3, m i = m' i) :
    announcedLength m = announcedLength m' := by
  simp only [announcedLength, serviceBodyIndex, serviceLength, h 1 (by decide), h 2 (by decide)]

def frameWarnings (info : FrameInfo) : List LogEntry :=
  (if info.header ≠ cmuxFrameHeaderFooter then [LogEntry.invalidHeader info.header] else []) ++
    (if info.ea then [] else [LogEntry.extendedAddress info.ea]) ++
    (if info.fcs ≠ info.calculatedFcs then [LogEntry.fcsMismatch info.fcs info.calculatedFcs]
      else []) ++
    if info.footer ≠ cmuxFrameHeaderFooter then [LogEntry.invalidFooter info.footer] else []

/-- What is warned of in a service on the control channel, from its first octet on. -/
def serviceWarnings (info : FrameInfo) (m : ℕ → UInt8) : List LogEntry :=
  if info.dlci = 0 ∧ info.length > 0 ∧ announcedLength m > info.length.toNat then
    [LogEntry.notEnoughBytes (announcedLength m) info.length.toNat]
  else []

theorem frameWarnings_eq_nil_iff (info : FrameInfo) : frameWarnings info = [] ↔
    info.header = cmuxFrameHeaderFooter ∧ info.ea = true ∧ info.fcs = info.calculatedFcs ∧
      info.footer = cmuxFrameHeaderFooter := by
  unfold frameWarnings
  split_ifs <;> simp_all

theorem serviceWarnings_eq_nil_iff (info : FrameInfo) (m : ℕ → UInt8) :
    serviceWarnings info m = [] ↔
      (info.dlci = 0 → info.length > 0 → announcedLength m ≤ info.length.toNat) := by
  unfold serviceWarnings
  split
  next h =>
    exact iff_of_false (by simp) fun hfits => absurd (hfits h.1 h.2.1) (Nat.not_le.mpr h.2.2)
  next h => exact iff_of_true rfl fun h0 hpos => Nat.le_of_not_lt fun hlt => h ⟨h0, hpos, hlt⟩

theorem frameWarnings_valid {info : FrameInfo} (hheader : info.header = cmuxFrameHeaderFooter)
    (hfcs : info.fcs = info.calculatedFcs) (hfooter : info.footer = cmuxFrameHeaderFooter) :
    frameWarnings info = if info.ea then [] else [LogEntry.extendedAddress info.ea] := by
  simp [frameWarnings, hheader, hfcs, hfooter]

theorem warnings_append (log log' : List LogEntry) :
    warnings (log ++ log') = warnings log ++ warnings log' := List.filter_append log log'

/-! ### What is printed -/

section Printed
variable (trace : Bool) (log : List LogEntry)

theorem printed_fields : (printed trace log).filterMap LogEntry.fields =
    log.filterMap LogEntry.fields := by
  cases trace with
  | true => rfl
  | false =>
    rw [printed, if_neg Bool.false_ne_true, List.filterMap_filter]
    refine List.filterMap_congr fun entry _ => ?_
    cases entry <;> rfl

theorem printed_warnings : warnings (printed trace log) = warnings log := by
  cases trace with
  | true => rfl
  | false =>
    rw [printed, if_neg Bool.false_ne_true, warnings, warnings, List.filter_filter]
    refine List.filter_congr fun entry _ => ?_
    cases entry <;> rfl

/-- The octets are in what is traced. -/
theorem printed_octets : (printed trace log).flatMap LogEntry.octets =
    if trace then log.flatMap LogEntry.octets else [] := by
  cases trace with
  | true => rfl
  | false =>
    rw [printed, if_neg Bool.false_ne_true, if_neg Bool.false_ne_true, List.flatMap_eq_nil_iff]
    intro entry hentry
    have hlevel := of_decide_eq_true (List.mem_filter.mp hentry).2
    cases entry with
    | line => exact absurd rfl hlevel
    | _ => rfl

end Printed

/-- Entries that warn of nothing and name no fields. -/
def Detail (log : List LogEntry) : Prop :=
  warnings log = [] ∧ log.filterMap LogEntry.fields = []

theorem lines_detail (lines : List DumpedLine) : Detail (lines.map LogEntry.line) := by
  induction lines with
  | nil => exact ⟨rfl, rfl⟩
  | cons dumped lines ih => exact ih

theorem lines_octets (lines : List DumpedLine) : (lines.map LogEntry.line).flatMap
    LogEntry.octets = lines.flatMap fun dumped => shownOctets dumped.hdBuffer :=
  List.flatMap_map _ _ _

section Entries
variable (info : FrameInfo) (frame : UInt64) (m : ℕ → UInt8)

theorem bodyLog_detail : Detail ((bodyLog info frame).value m) := by
  unfold bodyLog
  split
  · rw [value_bind, value_pure]
    exact lines_detail _
  · exact ⟨rfl, rfl⟩

theorem serviceLog_value (h : info.dlci = 0 ∧ info.length > 0) : (serviceLog info).value m =
    cmuxServiceDecodeLog info.length.toNat ((cmuxServiceDecode info.length.toNat).value fun i =>
      m (info.frameDataIndex.toNat + i)) := by
  rw [serviceLog, if_pos h, value_bind, value_pure, value_offset]

/-- The service is decoded for the one warning and its name. -/
theorem serviceLog_warnings : warnings ((serviceLog info).value m) =
    serviceWarnings info fun i => m (info.frameDataIndex.toNat + i) := by
  by_cases h : info.dlci = 0 ∧ info.length > 0
  · have hlength : info.length.toNat ≠ 0 := Nat.ne_of_gt (UInt16.lt_iff_toNat_lt.mp h.2)
    rw [serviceLog_value info m h, cmuxServiceDecode_eq hlength, cmuxServiceDecodeLog,
      if_neg hlength, serviceWarnings]
    by_cases hfits : announcedLength (fun i => m (info.frameDataIndex.toNat + i)) >
        info.length.toNat
    · rw [if_pos ⟨h.1, h.2, hfits⟩]
      unfold announcedLength at hfits
      simp [warnings, hfits, LogEntry.level, announcedLength]
    · rw [if_neg fun hall => hfits hall.2.2]
      unfold announcedLength at hfits
      simp [warnings, hfits, LogEntry.level]
  · rw [serviceLog, if_neg h, serviceWarnings, if_neg fun hall => h ⟨hall.1, hall.2.1⟩]
    rfl

theorem serviceLog_fields : ((serviceLog info).value m).filterMap LogEntry.fields = [] ∧
    ((serviceLog info).value m).flatMap LogEntry.octets = [] := by
  unfold serviceLog cmuxServiceDecodeLog
  split
  · rw [value_bind, value_pure]
    dsimp only
    split_ifs <;> exact ⟨rfl, rfl⟩
  · exact ⟨rfl, rfl⟩

theorem hexdumpFrameInfo_warnings (incoming : Bool) :
    warnings ((hexdumpFrameInfo info frame incoming).value m) = frameWarnings info ++
      serviceWarnings info fun i => m (info.frameDataIndex.toNat + i) := by
  rw [hexdumpFrameInfo_value]
  simp only [warnings_append, (bodyLog_detail info frame m).1, serviceLog_warnings,
    frameWarnings, List.append_nil]
  split_ifs <;> rfl

theorem hexdumpFrameInfo_fields (incoming : Bool) :
    ((hexdumpFrameInfo info frame incoming).value m).filterMap LogEntry.fields =
      [(info.dlci, info.ea, info.cr, info.type, info.pollFinal, info.length)] := by
  rw [hexdumpFrameInfo_value]
  simp only [List.filterMap_append, (bodyLog_detail info frame m).2,
    (serviceLog_fields info m).1, List.append_nil]
  split_ifs <;> rfl

theorem hexdumpFrameInfo_octets (incoming : Bool) :
    ((hexdumpFrameInfo info frame incoming).value m).flatMap LogEntry.octets =
      ((bodyLog info frame).value m).flatMap LogEntry.octets := by
  rw [hexdumpFrameInfo_value]
  simp only [List.flatMap_append, (serviceLog_fields info m).2, List.append_nil]
  split_ifs <;> simp [LogEntry.octets]

end Entries

section Complete
variable {m : ℕ → UInt8} {len : ℕ} (frame : UInt64) (incoming : Bool)

theorem hexdumpFrame_value (h : frameSize m = len) : (hexdumpFrame frame len incoming).value m =
    ((logBufferHexdump frame len.toUInt16).value m).map LogEntry.line ++
      (hexdumpFrameInfo (decodedInfo m) frame incoming).value m := by
  have hmemory : (parseFrame len).memory m = m := by simp [parseFrame, parseFrameFooter]
  simp only [hexdumpFrame, value_bind, value_pure, logBufferHexdump_memory, hmemory,
    parseFrame_value (Nat.le_of_eq h)]

theorem hexdumpFrame_warnings (h : frameSize m = len) :
    warnings ((hexdumpFrame frame len incoming).value m) = frameWarnings (decodedInfo m) ++
      serviceWarnings (decodedInfo m) fun i => m ((decodedInfo m).frameDataIndex.toNat + i) := by
  rw [hexdumpFrame_value frame incoming h, warnings_append, (lines_detail _).1, List.nil_append,
    hexdumpFrameInfo_warnings]

theorem hexdumpFrame_fields (h : frameSize m = len) :
    ((hexdumpFrame frame len incoming).value m).filterMap LogEntry.fields =
      [((decodedInfo m).dlci, (decodedInfo m).ea, (decodedInfo m).cr, (decodedInfo m).type,
        (decodedInfo m).pollFinal, (decodedInfo m).length)] := by
  rw [hexdumpFrame_value frame incoming h, List.filterMap_append, (lines_detail _).2,
    List.nil_append, hexdumpFrameInfo_fields]

theorem bodyLog_octets (m : ℕ → UInt8) :
    ((bodyLog (decodedInfo m) frame).value m).flatMap LogEntry.octets =
      slice m (bodyIndex m) (lengthField m).toNat := by
  have hpos : lengthField m > 0 ↔ 0 < (lengthField m).toNat := UInt16.lt_iff_toNat_lt
  have hlength : (decodedInfo m).length = lengthField m := rfl
  unfold bodyLog
  rw [hlength]
  split
  next hsome =>
    rw [value_bind, value_pure, List.flatMap_cons, lines_octets, decodedInfo_index hsome,
      value_offset, logBufferHexdump_shows]
    exact congrArg (List.map · _) (funext fun k => congrArg m (by omega))
  next hnone =>
    have hzero : (lengthField m).toNat = 0 := Nat.eq_zero_of_not_pos fun h => hnone (hpos.mpr h)
    rw [hzero]
    rfl

/-- The dump shows the frame, and then once more what its information field holds. -/
theorem hexdumpFrame_octets (h : frameSize m = len) :
    ((hexdumpFrame frame len incoming).value m).flatMap LogEntry.octets =
      slice m 0 len ++ slice m (bodyIndex m) (lengthField m).toNat := by
  rw [hexdumpFrame_value frame incoming h, List.flatMap_append, lines_octets,
    logBufferHexdump_shows, frameSize_toUInt16 h, hexdumpFrameInfo_octets, bodyLog_octets]

/-- The dump of a frame warns of nothing exactly when `check_valid_frame` accepts the frame, its
address has one octet, and a service on the control channel ends within its information field. -/
theorem hexdumpFrame_silent_iff (h : frameSize m = len) :
    (∀ entry ∈ (hexdumpFrame frame len incoming).value m, entry.level ≠ LogLevel.warn) ↔
      (checkValidFrame len).value m = true ∧ m 1 &&& 0x01 ≠ 0 ∧
        (m 1 >>> 2 = 0 → lengthField m > 0 →
          announcedLength (fun i => m (bodyIndex m + i)) ≤ (lengthField m).toNat) := by
  have hvalid : (checkValidFrame len).value m = true ↔ m 0 = cmuxFrameHeaderFooter ∧
      m (frameSize m - 2) = coveredFcs m ∧ m (frameSize m - 1) = cmuxFrameHeaderFooter := by
    rw [checkValidFrame_value, decide_eq_true_eq, ValidFrame]
    exact and_congr_right fun _ => and_iff_right (Nat.le_of_eq h)
  have hsilent : (∀ entry ∈ (hexdumpFrame frame len incoming).value m,
      entry.level ≠ LogLevel.warn) ↔ frameWarnings (decodedInfo m) = [] ∧
        serviceWarnings (decodedInfo m)
          (fun i => m ((decodedInfo m).frameDataIndex.toNat + i)) = [] := by
    rw [← List.append_eq_nil_iff, ← hexdumpFrame_warnings frame incoming h, warnings,
      List.filter_eq_nil_iff]
    simp only [decide_eq_true_eq, ne_eq]
  have hservice : ((decodedInfo m).dlci = 0 → (decodedInfo m).length > 0 →
      announcedLength (fun i => m ((decodedInfo m).frameDataIndex.toNat + i)) ≤
        (decodedInfo m).length.toNat) ↔ (m 1 >>> 2 = 0 → lengthField m > 0 →
      announcedLength (fun i => m (bodyIndex m + i)) ≤ (lengthField m).toNat) := by
    refine imp_congr_right fun _ => imp_congr_right fun hsome => ?_
    rw [decodedInfo_index hsome]
    rfl
  rw [hsilent, hvalid, frameWarnings_eq_nil_iff, serviceWarnings_eq_nil_iff, hservice]
  constructor
  · rintro ⟨⟨hheader, hea, hfcs, hfooter⟩, hfits⟩
    exact ⟨⟨hheader, hfcs, hfooter⟩, bne_iff_ne.mp hea, hfits⟩
  · rintro ⟨⟨hheader, hfcs, hfooter⟩, hea, hfits⟩
    exact ⟨⟨hheader, bne_iff_ne.mpr hea, hfcs, hfooter⟩, hfits⟩

/-- A frame with a wrong checking sequence, and a valid one whose service announces more octets
than there are. -/
theorem hexdumpFrame_silent_iff_mismatch :
    (¬ ∀ entry ∈ (hexdumpFrame 0 8 false).value
      (view [0xF9, 0x07, 0xEF, 0x05, 0x68, 0x69, 0x31, 0xF9] fun _ => 0),
        entry.level ≠ LogLevel.warn) ∧
    ¬ ∀ entry ∈ (hexdumpFrame 0 9 true).value
      (view [0xF9, 0x03, 0xEF, 0x07, 0x23, 0x0B, 0x55, 0x11, 0xF9] fun _ => 0),
        entry.level ≠ LogLevel.warn :=
  ⟨fun hsilent => absurd ((hexdumpFrame_silent_iff 0 false (by decide)).mp hsilent).1 (by decide),
    fun hsilent =>
      absurd ((hexdumpFrame_silent_iff 0 true (by decide)).mp hsilent).2.2 (by decide)⟩

end Complete

/-! ### The frames that are handed over -/

theorem cmuxBufferIngest_whole (cmux : CmuxBuffer) (data : List UInt8) (beyond : Surroundings) :
    ∀ message ∈ (cmuxBufferIngest cmux data beyond).2.message,
      ∃ frame, frameAt frame = some frame.length ∧ message = messageOf frame := by
  intro message hmessage
  change message ∈ (processIngress (lwrbWrite cmux.ingressRb data).1 beyond).2.1 at hmessage
  cases hscan : recogniser.scan (linearBlock (lwrbWrite cmux.ingressRb data).1) with
  | none =>
    rw [processIngress_none hscan] at hmessage
    cases hmessage
  | some found =>
    obtain ⟨i, n⟩ := found
    obtain ⟨hframe, hin⟩ := frameAt_content hscan
    obtain ⟨-, -, htaken, -⟩ := processIngress_some hscan beyond
    rw [htaken] at hmessage
    refine ⟨_, ?_, (Option.some.inj hmessage).symm⟩
    rw [List.length_take, List.length_drop, Nat.min_eq_left (by omega)]
    exact recogniser.size_take hframe

/-- What a whole frame looks like behind any memory. -/
theorem decodedInfo_whole {frame : List UInt8} (h : frameAt frame = some frame.length)
    (beyond : ℕ → UInt8) : frameSize (view frame beyond) = frame.length ∧
      decodedInfo (view frame beyond) = (messageOf frame).frameInfo := by
  obtain ⟨-, hsize⟩ := (frameAt_eq_some beyond).mp h
  refine ⟨hsize, decodedInfo_congr fun i hi => ?_⟩
  exact view_congr frame beyond (fun _ => 0) i (by omega)

theorem information_eq {frame : List UInt8} (h : frameAt frame = some frame.length)
    (beyond : ℕ → UInt8) : information frame = slice (view frame beyond)
      (bodyIndex (view frame beyond)) (lengthField (view frame beyond)).toNat := by
  obtain ⟨-, hsize⟩ := (frameAt_eq_some beyond).mp h
  have hlen : frame.length = bodyIndex (view frame beyond) +
      (lengthField (view frame beyond)).toNat + 2 := hsize.symm
  have hindex : bodyIndex (view frame fun _ => 0) = bodyIndex (view frame beyond) := by
    apply bodyIndex_congr
    intro i hi
    have hsix := frameAt_ge h
    have hb := bodyIndex_bounds (view frame fun _ => 0)
    exact view_congr frame _ _ i (by omega)
  rw [slice_view (by omega), information, hindex, List.drop_take]
  congr 1
  omega

/-- The header of the service lies inside the frame. -/
theorem serviceWarnings_whole {frame : List UInt8} (h : frameAt frame = some frame.length)
    (beyond : ℕ → UInt8) : serviceWarnings (messageOf frame).frameInfo
        (fun i => view frame beyond ((messageOf frame).frameInfo.frameDataIndex.toNat + i)) =
      serviceWarnings (messageOf frame).frameInfo ((messageOf frame).dataMemory fun _ => 0) := by
  by_cases hsome : (messageOf frame).frameInfo.length > 0
  · have hlength := messageOf_length h
    have hone := UInt16.lt_iff_toNat_lt.mp hsome
    rw [UInt16.toNat_zero] at hone
    have hindex : (messageOf frame).frameInfo.frameDataIndex =
        (bodyIndex (view frame fun _ => 0) : ℤ) := if_pos hsome
    have hagree : ∀ i < 3, view frame beyond
        ((messageOf frame).frameInfo.frameDataIndex.toNat + i) =
          (messageOf frame).dataMemory (fun _ => 0) i := by
      intro i hi
      rw [hindex, Int.toNat_natCast, ControlMessage.dataMemory, hindex, Int.toNat_natCast,
        view_drop _ (by change _ < frame.length; omega)]
      rfl
    rw [serviceWarnings, serviceWarnings, announcedLength_congr hagree]
  · rw [serviceWarnings, serviceWarnings, if_neg fun hall => hsome hall.2.1,
      if_neg fun hall => hsome hall.2.1]

section Run
variable (cmux : CmuxBuffer) (calls : List IngestCall) {message : ControlMessage}

theorem messages_whole (h : message ∈ messages (ingesting.outputs cmux calls)) :
    ∃ frame, frameAt frame = some frame.length ∧ message = messageOf frame := by
  have hall := (Mealy.outputs_forall_input_iff (M := ingesting) (C := fun _ => True)
    (Q := fun ingested => ∀ message ∈ ingested.message,
      ∃ frame, frameAt frame = some frame.length ∧ message = messageOf frame)
    (fun cmux call => iff_of_true (cmuxBufferIngest_whole cmux call.data call.beyond) trivial)
    cmux calls).mpr fun _ _ => trivial
  obtain ⟨ingested, hingested, hmessage⟩ := List.mem_filterMap.mp h
  exact hall ingested hingested message hmessage

/-- What is printed of a frame's log, with or without what is traced: the fields that the callback
is told, the frame and its information field, and the warnings. -/
structure Tells (message : ControlMessage) (trace : Bool) (shown : List LogEntry) : Prop where
  fields : shown.filterMap LogEntry.fields = [(message.frameInfo.dlci, message.frameInfo.ea,
    message.frameInfo.cr, message.frameInfo.type, message.frameInfo.pollFinal,
    message.frameInfo.length)]
  octets : shown.flatMap LogEntry.octets = if trace then message.frame ++ message.data else []
  warnings : warnings shown =
    (if message.frameInfo.ea then [] else [LogEntry.extendedAddress message.frameInfo.ea]) ++
      serviceWarnings message.frameInfo (message.dataMemory fun _ => 0)

def greetingFrame : List UInt8 := [0xF9, 0x07, 0xEF, 0x05, 0x68, 0x69, 0x30, 0xF9]

theorem greetingFrame_handedOver : messageOf greetingFrame ∈ messages (ingesting.outputs
    (cmuxBufferInit (Vector.replicate 128 0)) [⟨greetingFrame, Surroundings.zero⟩]) := by
  decide +kernel

/-- In every run of the receiver, what is printed of each frame handed over tells what the callback
is told, and warns of nothing but an address of more than one octet and a service on the control
channel that announces more octets than the information field has. -/
theorem ingressLog_tells (h : message ∈ messages (ingesting.outputs cmux calls)) (data : UInt64)
    (beyond : ℕ → UInt8) (trace : Bool) : Tells message trace (printed trace
      ((processIngressFrameLog data message.frame.length).value (view message.frame beyond))) := by
  obtain ⟨frame, hwhole, rfl⟩ := messages_whole cmux calls h
  obtain ⟨hsize, hinfo⟩ := decodedInfo_whole hwhole beyond
  change Tells (messageOf frame) trace (printed trace
    ((hexdumpFrame data frame.length true).value (view frame beyond)))
  constructor
  · rw [printed_fields, hexdumpFrame_fields data true hsize, hinfo]
  · have hall : slice (view frame beyond) 0 frame.length = frame := by
      rw [slice_view (by omega), List.drop_zero, List.take_length]
    rw [printed_octets, hexdumpFrame_octets data true hsize, hall, messageOf_data hwhole,
      information_eq hwhole beyond]
    rfl
  · obtain ⟨⟨hheader, -, hfcs, hfooter⟩, -⟩ := (frameAt_eq_some beyond).mp hwhole
    have hframe : frameWarnings (decodedInfo (view frame beyond)) =
        if (decodedInfo (view frame beyond)).ea then []
        else [LogEntry.extendedAddress (decodedInfo (view frame beyond)).ea] :=
      frameWarnings_valid hheader hfcs hfooter
    rw [printed_warnings, hexdumpFrame_warnings data true hsize, hframe, hinfo,
      serviceWarnings_whole hwhole beyond]

/-- Once as shipped, and once with what is traced. -/
theorem ingressLog_tells_greeting :
    Tells (messageOf greetingFrame) false (printed false
      ((processIngressFrameLog 0x1000 8).value (view greetingFrame fun _ => 0))) ∧
    Tells (messageOf greetingFrame) true (printed true
      ((processIngressFrameLog 0x1000 8).value (view greetingFrame fun _ => 0))) :=
  ⟨ingressLog_tells _ _ greetingFrame_handedOver 0x1000 (fun _ => 0) false,
    ingressLog_tells _ _ greetingFrame_handedOver 0x1000 (fun _ => 0) true⟩

/-- In every run of the receiver, the log of a frame handed over is made from octets of the frame
alone exactly when the frame fills whole words and has one length octet. -/
theorem ingressLog_inside_iff (h : message ∈ messages (ingesting.outputs cmux calls))
    (data : UInt64) (beyond : ℕ → UInt8) :
    (processIngressFrameLog data message.frame.length).ReadsBelow message.frame.length
        (view message.frame beyond) ↔
      message.frame.length % 4 = 0 ∧
        message.frame.length = message.frameInfo.length.toNat + 6 := by
  obtain ⟨frame, hwhole, rfl⟩ := messages_whole cmux calls h
  obtain ⟨hsize, hinfo⟩ := decodedInfo_whole hwhole beyond
  change (processIngressFrameLog data frame.length).ReadsBelow frame.length (view frame beyond) ↔
    frame.length % 4 = 0 ∧ frame.length = (messageOf frame).frameInfo.length.toNat + 6
  have hlength : (messageOf frame).frameInfo.length = lengthField (view frame beyond) := by
    rw [← hinfo]
    rfl
  rw [processIngressFrameLog, hexdumpFrame_readsBelow_iff data true hsize, hlength]
  refine and_congr_right fun _ => ?_
  rw [← hsize, frameSize, bodyIndex]
  split
  next hx => exact iff_of_false (not_not.mpr hx) (by omega)
  next hx => exact iff_of_true hx (by omega)

theorem ingressLog_inside_iff_greeting :
    (processIngressFrameLog 0x1000 8).ReadsBelow 8 (view greetingFrame fun _ => 0) :=
  (ingressLog_inside_iff _ _ greetingFrame_handedOver 0x1000 fun _ => 0).mpr (by decide)

end Run
end Cmux
