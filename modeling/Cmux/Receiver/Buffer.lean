import Cmux.Frame.Recogniser
import Cmux.Receiver.Lwrb

/-! The receive buffer of `cmux_buffer.c`. Every array that the decoders are handed is
logged with its size and the indices they read. -/
namespace Cmux
open Access Access.Prog

/-- Memory behind the arrays of one `cmux_buffer_ingest` call, of which nothing is known:
behind the scan buffer of each offset, the header copy and the frame copy. -/
structure Surroundings where
  scanBuffer : ℕ → ℕ → UInt8
  frameHeader : ℕ → UInt8
  wholeFrame : ℕ → UInt8

structure ArrayReads where
  size : ℕ
  indices : List ℕ
  deriving DecidableEq, Repr

def ArrayReads.InRange (reads : ArrayReads) : Prop := ∀ i ∈ reads.indices, i < reads.size

instance (reads : ArrayReads) : Decidable reads.InRange :=
  inferInstanceAs (Decidable (∀ i ∈ reads.indices, i < reads.size))

/-- A call of `on_control_message`. Its data pointer is the array it points into, at the
data index of the decoded record. -/
structure ControlMessage where
  frameInfo : FrameInfo
  frame : List UInt8
  deriving DecidableEq, Repr

/-- The octets the callback is given, `frame_info.length` of them. -/
def ControlMessage.data (message : ControlMessage) : List UInt8 :=
  (message.frame.drop message.frameInfo.frameDataIndex.toNat).take
    message.frameInfo.length.toNat

/-- Memory from the data pointer of a message on. -/
def ControlMessage.dataMemory (message : ControlMessage) (beyond : ℕ → UInt8) : ℕ → UInt8 :=
  view (message.frame.drop message.frameInfo.frameDataIndex.toNat) beyond

structure CmuxBuffer where
  ingressRb : Lwrb
  size_eq : ingressRb.size = 128

/-- `cmux_buffer_init`, whatever stands in the storage. -/
def cmuxBufferInit (ingressBuffer : Vector UInt8 128) : CmuxBuffer where
  ingressRb := lwrbInit ingressBuffer.toList (by simp)
  size_eq := by simp [lwrbInit, Lwrb.size]

/-- The scan from offset `i` on, over the `n` offsets left. -/
def scanFrom (rb : Lwrb) (beyond : Surroundings) (maxFrameSize : ℕ) :
    ℕ → ℕ → Option ℕ × List ArrayReads
  | 0, _ => (none, [])
  | n + 1, i =>
    match lwrbPeek rb i 1 with
    | [header] =>
      if header = cmuxFrameHeaderFooter then
        let scanBufferSize := maxFrameSize - i
        let scanBuffer := view (lwrbPeek rb i scanBufferSize) (beyond.scanBuffer i)
        let reads : ArrayReads :=
          ⟨scanBufferSize, (checkValidFrame scanBufferSize).reads scanBuffer⟩
        if (checkValidFrame scanBufferSize).value scanBuffer then (some i, [reads])
        else
          let rest := scanFrom rb beyond maxFrameSize n (i + 1)
          (rest.1, reads :: rest.2)
      else scanFrom rb beyond maxFrameSize n (i + 1)
    | _ => scanFrom rb beyond maxFrameSize n (i + 1)

/-- `scan_ingress_buffer_for_valid_frame`, with `none` for its `-1`. -/
def scanIngressBufferForValidFrame (rb : Lwrb) (beyond : Surroundings) :
    Option ℕ × List ArrayReads :=
  let maxFrameSize := lwrbGetLinearBlockReadLength rb
  scanFrom rb beyond maxFrameSize maxFrameSize 0

/-- `process_ingress_frame`: the callback it makes, and what `parse_frame` reads. -/
def processIngressFrame (frame : List UInt8) (beyond : ℕ → UInt8) : ControlMessage × ArrayReads :=
  let frameInfo := (parseFrame frame.length).value (view frame beyond)
  (⟨frameInfo, frame⟩, ⟨frame.length, (parseFrame frame.length).reads (view frame beyond)⟩)

/-- `process_ingress`: at most one frame is taken out and handed over. -/
def processIngress (rb : Lwrb) (beyond : Surroundings) :
    Lwrb × Option ControlMessage × List ArrayReads :=
  match scanIngressBufferForValidFrame rb beyond with
  | (none, reads) => (rb, none, reads)
  | (some bufferIndex, reads) =>
    let rb := (lwrbSkip rb bufferIndex).1
    let header := lwrbPeek rb 0 6
    let frameHeader := view (header ++ List.replicate (6 - header.length) 0) beyond.frameHeader
    let frameLength := getFrameLength.value frameHeader
    let reads := reads ++ [⟨6, getFrameLength.reads frameHeader⟩]
    if frameLength ≠ -1 then
      let wholeFrame := lwrbRead rb frameLength.toNat
      if wholeFrame.2.length = frameLength.toNat then
        let processed := processIngressFrame wholeFrame.2 beyond.wholeFrame
        (wholeFrame.1, some processed.1, reads ++ [processed.2])
      else (wholeFrame.1, none, reads)
    else (rb, none, reads)

structure Ingested where
  ret : ℕ
  message : Option ControlMessage
  reads : List ArrayReads
  deriving DecidableEq, Repr

theorem processIngress_size (rb : Lwrb) (beyond : Surroundings) :
    (processIngress rb beyond).1.size = rb.size := by
  unfold processIngress
  split
  · rfl
  · dsimp only
    split_ifs <;> simp only [lwrbRead_size, lwrbSkip_size]

def cmuxBufferIngest (cmux : CmuxBuffer) (data : List UInt8) (beyond : Surroundings) :
    CmuxBuffer × Ingested :=
  let write := lwrbWrite cmux.ingressRb data
  let processed := processIngress write.1 beyond
  (⟨processed.1, by rw [processIngress_size, lwrbWrite_size, cmux.size_eq]⟩,
    ⟨write.2, processed.2.1, processed.2.2⟩)

structure IngestCall where
  data : List UInt8
  beyond : Surroundings

def ingesting : Mealy CmuxBuffer IngestCall Ingested where
  step cmux call := cmuxBufferIngest cmux call.data call.beyond

/-! ### What one call does -/

def linearBlock (rb : Lwrb) : List UInt8 := rb.content.take (rb.size - rb.r)

theorem linearBlock_length (rb : Lwrb) :
    (linearBlock rb).length = lwrbGetLinearBlockReadLength rb := by
  rw [linearBlock, List.length_take, rb.linearBlock_eq, Nat.min_comm]

/-- A peek that stays inside the linear block. -/
theorem lwrbPeek_linearBlock (rb : Lwrb) {i k : ℕ} (h : i + k ≤ (linearBlock rb).length) :
    lwrbPeek rb i k = ((linearBlock rb).drop i).take k := by
  rw [lwrbPeek_eq, linearBlock, List.drop_take, List.take_take, Nat.min_eq_left]
  have := List.length_take_le (rb.size - rb.r) rb.content
  unfold linearBlock at h
  omega

theorem lwrbPeek_rest (rb : Lwrb) (i : ℕ) (h : i ≤ (linearBlock rb).length) :
    lwrbPeek rb i ((linearBlock rb).length - i) = (linearBlock rb).drop i := by
  rw [lwrbPeek_linearBlock rb (by omega), List.take_of_length_le (by simp)]

def scanReads (rb : Lwrb) (beyond : Surroundings) (i : ℕ) : ArrayReads :=
  ⟨((linearBlock rb).drop i).length, (checkValidFrame ((linearBlock rb).drop i).length).reads
    (view ((linearBlock rb).drop i) (beyond.scanBuffer i))⟩

/-- One turn of the scan, in terms of the linear block. -/
theorem scanFrom_succ (rb : Lwrb) (beyond : Surroundings) {n i : ℕ}
    (h : i + (n + 1) = (linearBlock rb).length) :
    scanFrom rb beyond (linearBlock rb).length (n + 1) i =
      if (linearBlock rb)[i]? = some cmuxFrameHeaderFooter then
        if (frameAt ((linearBlock rb).drop i)).isSome then (some i, [scanReads rb beyond i])
        else ((scanFrom rb beyond (linearBlock rb).length n (i + 1)).1, scanReads rb beyond i ::
          (scanFrom rb beyond (linearBlock rb).length n (i + 1)).2)
      else scanFrom rb beyond (linearBlock rb).length n (i + 1) := by
  have hi : i < (linearBlock rb).length := by omega
  have hpeek : lwrbPeek rb i 1 = [(linearBlock rb)[i]] := by
    rw [lwrbPeek_linearBlock rb (by omega), List.drop_eq_getElem_cons hi]
    rfl
  have hcheck := frameAt_isSome ((linearBlock rb).drop i) (beyond.scanBuffer i)
  rw [List.length_drop] at hcheck
  rw [scanFrom, hpeek]
  simp only [lwrbPeek_rest rb i (by omega), ← hcheck, scanReads, List.length_drop,
    List.getElem?_eq_getElem hi, Option.some.injEq]

/-- The scan finds what the recogniser finds in the linear block. -/
theorem scanFrom_value (rb : Lwrb) (beyond : Surroundings) (n i : ℕ)
    (h : i + n = (linearBlock rb).length) :
    (scanFrom rb beyond (linearBlock rb).length n i).1 =
      (recogniser.scan ((linearBlock rb).drop i)).map fun p => i + p.1 := by
  induction n generalizing i with
  | zero =>
    rw [List.drop_of_length_le (by omega)]
    rfl
  | succ n ih =>
    have hi : i < (linearBlock rb).length := by omega
    rw [scanFrom_succ rb beyond h]
    cases hf : frameAt ((linearBlock rb).drop i) with
    | some k =>
      have hhead := frameAt_header hf
      rw [List.head?_drop] at hhead
      have hscan := recogniser.scan_whole [] hf
      rw [List.append_nil] at hscan
      simp [hhead, hscan]
    | none =>
      have hscan : recogniser.scan ((linearBlock rb).drop i) =
          (recogniser.scan ((linearBlock rb).drop (i + 1))).map fun p => (p.1 + 1, p.2) := by
        rw [List.drop_eq_getElem_cons hi] at hf ⊢
        exact recogniser.scan_cons_none hf
      have hshift : ((recogniser.scan ((linearBlock rb).drop (i + 1))).map
          fun p => (p.1 + 1, p.2)).map (fun p => i + p.1) =
          (recogniser.scan ((linearBlock rb).drop (i + 1))).map fun p => i + 1 + p.1 := by
        rw [Option.map_map]
        congr 1
        funext p
        simp only [Function.comp_apply]
        omega
      simp only [Option.isSome_none, Bool.false_eq_true, if_false]
      rw [hscan, hshift, ← ih (i + 1) (by omega)]
      split <;> rfl

theorem scan_value (rb : Lwrb) (beyond : Surroundings) :
    (scanIngressBufferForValidFrame rb beyond).1 =
      (recogniser.scan (linearBlock rb)).map Prod.fst := by
  rw [scanIngressBufferForValidFrame, ← linearBlock_length]
  simpa using scanFrom_value rb beyond (linearBlock rb).length 0 (by omega)

def messageOf (frame : List UInt8) : ControlMessage :=
  ⟨decodedInfo (view frame fun _ => 0), frame⟩

theorem processIngressFrame_eq {frame : List UInt8} (h : frameAt frame = some frame.length)
    (beyond : ℕ → UInt8) : (processIngressFrame frame beyond).1 = messageOf frame ∧
      (processIngressFrame frame beyond).2.InRange := by
  obtain ⟨hv, hn⟩ := (frameAt_eq_some beyond).mp h
  refine ⟨?_, parseFrame_reads (Nat.le_of_eq hn)⟩
  have hinfo : decodedInfo (view frame beyond) = decodedInfo (view frame fun _ => 0) :=
    decodedInfo_congr fun i hi => view_congr frame beyond (fun _ => 0) i (by omega)
  rw [messageOf, ← hinfo, processIngressFrame, parseFrame_value (Nat.le_of_eq hn)]

theorem processIngress_none {rb : Lwrb} (h : recogniser.scan (linearBlock rb) = none)
    (beyond : Surroundings) : processIngress rb beyond =
      (rb, none, (scanIngressBufferForValidFrame rb beyond).2) := by
  have hs := scan_value rb beyond
  rw [h, Option.map_none] at hs
  rcases hscan : scanIngressBufferForValidFrame rb beyond with ⟨index, reads⟩
  obtain rfl : index = none := by rw [← hs, hscan]
  simp only [processIngress, hscan]

/-- A frame that the scan finds stands in the content of the ring. -/
theorem frameAt_content {rb : Lwrb} {i n : ℕ}
    (h : recogniser.scan (linearBlock rb) = some (i, n)) :
    frameAt (rb.content.drop i) = some n ∧ i + n ≤ rb.content.length := by
  obtain ⟨hframe, -⟩ := recogniser.scan_eq_some.mp h
  have hin := recogniser.scan_le h
  rw [linearBlock, List.length_take] at hin
  refine ⟨frameAt_of_agree hframe (fun k hk => ?_) (by rw [List.length_drop]; omega), by omega⟩
  rw [linearBlock, List.drop_take, List.getElem?_take_of_lt (by omega)]

/-- The header copy holds all that tells the length of a frame. -/
theorem headerCopy_value {xs : List UInt8} {n : ℕ} (h : frameAt xs = some n)
    (beyond : ℕ → UInt8) : getFrameLength.value
      (view (xs.take 6 ++ List.replicate (6 - (xs.take 6).length) 0) beyond) = (n : ℤ) := by
  have hge := frameAt_ge h
  have hle := frameAt_le h
  have hagree : ∀ k < 5, view xs beyond k =
      view (xs.take 6 ++ List.replicate (6 - (xs.take 6).length) 0) beyond k := by
    intro k hk
    rw [view_append beyond (by rw [List.length_take]; omega)]
    exact (view_take (by omega) (by omega)).symm
  obtain ⟨hv, hsize⟩ := (frameAt_eq_some beyond).mp h
  have hb := bodyIndex_bounds (view xs beyond)
  rw [getFrameLength_value, ← frameSize_congr fun k hk => hagree k (by omega),
    ← hagree 0 (by omega), if_pos hv.1, hsize]

/-- A frame that the scan finds comes out whole, and its header copy and its frame copy
hold all that is read from them. -/
theorem processIngress_some {rb : Lwrb} {i n : ℕ}
    (h : recogniser.scan (linearBlock rb) = some (i, n)) (beyond : Surroundings) :
    (processIngress rb beyond).1.content = rb.content.drop (i + n) ∧
      (processIngress rb beyond).1.r = (rb.r + i + n) % rb.size ∧
      (processIngress rb beyond).2.1 = some (messageOf ((rb.content.drop i).take n)) ∧
      ∃ own, (∀ reads ∈ own, reads.InRange) ∧ (processIngress rb beyond).2.2 =
        (scanIngressBufferForValidFrame rb beyond).2 ++ own := by
  have hs := scan_value rb beyond
  rw [h, Option.map_some] at hs
  rcases hscan : scanIngressBufferForValidFrame rb beyond with ⟨index, reads⟩
  obtain rfl : index = some i := by rw [← hs, hscan]
  obtain ⟨hcontent, hin⟩ := frameAt_content h
  have hn : ((rb.content.drop i).take n).length = n := by
    rw [List.length_take, List.length_drop]; omega
  have hwhole : frameAt ((rb.content.drop i).take n) =
      some ((rb.content.drop i).take n).length := by
    rw [hn]
    exact recogniser.size_take hcontent
  -- the skip, the header copy and the read
  obtain ⟨hskip, hskipr⟩ := lwrbSkip_spec rb (n := i) (by omega)
  obtain ⟨hread, hreadc, hreadr⟩ := lwrbRead_spec (lwrbSkip rb i).1 (n := n)
    (by rw [hskip, List.length_drop]; omega)
  rw [hskip] at hread hreadc
  rw [hskipr, lwrbSkip_size, Nat.mod_add_mod] at hreadr
  have hpeek : lwrbPeek (lwrbSkip rb i).1 0 6 = (rb.content.drop i).take 6 := by
    rw [lwrbPeek_eq, hskip, List.drop_zero]
  have hlength := headerCopy_value hcontent beyond.frameHeader
  obtain ⟨hmessage, hrange⟩ := processIngressFrame_eq hwhole beyond.wholeFrame
  have hneg : (n : ℤ) ≠ -1 := by omega
  simp only [processIngress, hscan, hpeek, hlength, hneg, Int.toNat_natCast, hread, hn,
    ne_eq, not_false_eq_true, if_true]
  refine ⟨?_, hreadr, by rw [hmessage], [_, _], ?_, by rw [List.append_assoc]; rfl⟩
  · rw [hreadc, List.drop_drop]
  · intro reads hr
    simp only [List.mem_cons, List.not_mem_nil, or_false] at hr
    rcases hr with rfl | rfl
    · exact fun k hk => Nat.lt_succ_of_lt (getFrameLength_reads _ k hk)
    · exact hrange

end Cmux
