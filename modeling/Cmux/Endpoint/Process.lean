import Cmux.Endpoint.Stack
import Cmux.Foundation.Heap

/-! The code of the receive buffer and of sending, with the callbacks in place and with the blocks
that it allocates. A callback finds the receive buffer as the call leaves it. -/
namespace Cmux
open Access Access.Prog Callbacks Callbacks.Code

structure Process (κ : Type) where
  endpoint : κ
  cmuxInstance : CmuxBuffer
  heap : Heap

/-- The blocks of an instance: itself, its two tables, its receive buffer and the ring's memory. -/
structure InstanceBlocks where
  cmux : ℕ
  terminalOptions : ℕ
  terminalStatuses : ℕ
  cmuxInstance : ℕ
  ingressBuffer : ℕ

namespace InstanceBlocks
variable (blocks : InstanceBlocks)

def all : List ℕ :=
  [blocks.cmux, blocks.terminalOptions, blocks.terminalStatuses, blocks.cmuxInstance,
    blocks.ingressBuffer]

/-- A function of the ring uses its handle, and the ring's memory and the other array when it copies
octets between them. -/
def copying (octets : ℕ) (array : List ℕ) : List ℕ :=
  blocks.cmuxInstance :: if octets = 0 then [] else blocks.ingressBuffer :: array

end InstanceBlocks

/-! ### The code -/

section Code
variable {κ ε : Type}

def malloc : Code (Process κ) ε ℕ :=
  act (fun process => { process with heap := process.heap.malloc }) fun process =>
    ret process.heap.allocated

def free (block : ℕ) : Code (Process κ) ε Unit :=
  modify fun process => { process with heap := process.heap.free block }

/-- Reads or writes the blocks, in this order. -/
def use (used : List ℕ) : Code (Process κ) ε Unit :=
  modify fun process => { process with heap := process.heap.use used }

def onlyIf (condition : Prop) [Decidable condition] (code : Code (Process κ) ε Unit) :
    Code (Process κ) ε Unit :=
  if condition then code else ret ()

/-- Code that hands the block to callbacks, which may read it until they return. -/
def lend (block : ℕ) (code : Code (Process κ) ε Unit) : Code (Process κ) ε Unit := do
  code
  use [block]

variable (blocks : InstanceBlocks)

/-- `send_frame` of an endpoint that records a frame by `record` and sends by `send`. The body is
in the block `body` when the endpoint has allocated it. -/
def sendFrame (maximumDlci : UInt8) (record : BuilderFrameInfo → κ → κ) (send : List UInt8 → ε)
    (frameInfo : BuilderFrameInfo) (body : List ℕ) (heap : ℕ → UInt8) :
    Code (Process κ) ε Unit := do
  use [blocks.cmux]
  if frameInfo.dlci > maximumDlci then ret ()
  else do
    use [blocks.cmux, blocks.terminalStatuses]
    modify fun process => { process with endpoint := record frameInfo process.endpoint }
    let frame ← malloc
    use (frame :: if frameInfo.length > 0 then body else [])
    use [blocks.cmux]
    lend frame (enter (send (builtFrame frameInfo heap)) (ret ()))
    free frame

/-- The services whose body `cmux_service_request_encode` puts into a block of its own. -/
def hasServiceData (service : CmuxService) : Bool :=
  service = CmuxService.parameterNegotiation ∨ service = CmuxService.test ∨
    service = CmuxService.modemStatus ∨ service = CmuxService.remotePortNegotiation ∨
    service = CmuxService.remoteLineStatus ∨ service = CmuxService.serviceNegotiation

def serviceRequestEncode (service : CmuxService) (serviceOctets : ℕ) :
    Code (Process κ) ε Unit :=
  if hasServiceData service then do
    let serviceDataOctets ← malloc
    use [serviceDataOctets, serviceOctets]
    free serviceDataOctets
  else use [serviceOctets]

/-- What `cmux_client_request` and `cmux_server_send` have in common. -/
def sendRequest (maximumDlci : UInt8) (record : BuilderFrameInfo → κ → κ) (send : List UInt8 → ε)
    (pollFinal : Bool) (dlci : UInt8) (type : ControlType)
    (request : Option (CmuxServicesRequest (ℕ → UInt8))) (heap : ℕ → UInt8) :
    Code (Process κ) ε Unit :=
  match request with
  | none => sendFrame blocks maximumDlci record send (requestFrame pollFinal dlci type none heap)
      [] heap
  | some request => do
    let requestOctets ← malloc
    serviceRequestEncode request.service requestOctets
    sendFrame blocks maximumDlci record send
      (requestFrame pollFinal dlci type (some request) heap) [requestOctets] heap
    free requestOctets

/-- The scan from offset `i` on, over the `n` offsets left, with a copy in a block of its own behind
each flag. -/
def scanFromCode (rb : Lwrb) (beyond : Surroundings) (maxFrameSize : ℕ) :
    ℕ → ℕ → Code (Process κ) ε (Option ℕ)
  | 0, _ => ret none
  | n + 1, i => do
    use (blocks.copying (lwrbPeek rb i 1).length [])
    if lwrbPeek rb i 1 = [cmuxFrameHeaderFooter] then do
      let scanBufferSize := maxFrameSize - i
      let scanBuffer ← malloc
      use (blocks.copying (lwrbPeek rb i scanBufferSize).length [scanBuffer])
      use [scanBuffer]
      free scanBuffer
      if (checkValidFrame scanBufferSize).value
          (view (lwrbPeek rb i scanBufferSize) (beyond.scanBuffer i)) then ret (some i)
      else scanFromCode rb beyond maxFrameSize n (i + 1)
    else scanFromCode rb beyond maxFrameSize n (i + 1)

/-- `get_frame_length` of the copy of the header. -/
def headerLength (rb : Lwrb) (beyond : ℕ → UInt8) : ℤ :=
  let header := lwrbPeek rb 0 6
  getFrameLength.value (view (header ++ List.replicate (6 - header.length) 0) beyond)

/-- The frame is taken out into a block, over the callback that `process_ingress_frame` makes with
the frame in it. -/
def takeWholeFrame (onControlMessage : ℕ → ControlMessage → Code (Process κ) ε Unit)
    (frameLength : ℕ) (beyond : ℕ → UInt8) : Code (Process κ) ε Unit := do
  let wholeFrame ← malloc
  let process ← get
  let octets := (lwrbRead process.cmuxInstance.ingressRb frameLength).2
  use (blocks.copying octets.length [wholeFrame])
  modify fun process => { process with
    cmuxInstance := ⟨(lwrbRead process.cmuxInstance.ingressRb frameLength).1, by
      rw [lwrbRead_size, process.cmuxInstance.size_eq]⟩ }
  onlyIf (octets.length = frameLength) do
    use [wholeFrame, blocks.cmuxInstance]
    lend wholeFrame (onControlMessage wholeFrame (processIngressFrame octets beyond).1)
  free wholeFrame

def processIngressCode (onControlMessage : ℕ → ControlMessage → Code (Process κ) ε Unit)
    (beyond : Surroundings) : Code (Process κ) ε Unit := do
  let process ← get
  let rb := process.cmuxInstance.ingressRb
  use [blocks.cmuxInstance]
  let bufferIndex ← scanFromCode blocks rb beyond (lwrbGetLinearBlockReadLength rb)
    (lwrbGetLinearBlockReadLength rb) 0
  match bufferIndex with
  | none => ret ()
  | some bufferIndex => do
    use [blocks.cmuxInstance]
    modify fun process => { process with
      cmuxInstance := ⟨(lwrbSkip process.cmuxInstance.ingressRb bufferIndex).1, by
        rw [lwrbSkip_size, process.cmuxInstance.size_eq]⟩ }
    let process ← get
    use (blocks.copying (lwrbPeek process.cmuxInstance.ingressRb 0 6).length [])
    let frameLength := headerLength process.cmuxInstance.ingressRb beyond.frameHeader
    onlyIf (frameLength ≠ -1)
      (takeWholeFrame blocks onControlMessage frameLength.toNat beyond.wholeFrame)

/-- `cmux_client_ingest` and `cmux_server_ingest`, with `cmux_buffer_ingest`. -/
def cmuxBufferIngestCode (onControlMessage : ℕ → ControlMessage → Code (Process κ) ε Unit)
    (call : IngestCall) : Code (Process κ) ε ℕ := do
  use [blocks.cmux]
  let process ← get
  use (blocks.copying (lwrbWrite process.cmuxInstance.ingressRb call.data).2 [])
  modify fun process => { process with
    cmuxInstance := ⟨(lwrbWrite process.cmuxInstance.ingressRb call.data).1, by
      rw [lwrbWrite_size, process.cmuxInstance.size_eq]⟩ }
  processIngressCode blocks onControlMessage call.beyond
  ret (lwrbWrite process.cmuxInstance.ingressRb call.data).2

end Code

/-! ### A call of the receive buffer -/

/-- What `process_ingress` leaves and hands over once the scan has found a frame. -/
theorem processIngress_taken {rb : Lwrb} {beyond : Surroundings} {index : ℕ}
    {reads : List ArrayReads} {frameLength : ℤ}
    (hscan : scanIngressBufferForValidFrame rb beyond = (some index, reads))
    (hlength : headerLength (lwrbSkip rb index).1 beyond.frameHeader = frameLength) :
    ((processIngress rb beyond).1, (processIngress rb beyond).2.1) =
      if frameLength ≠ -1 then
        if (lwrbRead (lwrbSkip rb index).1 frameLength.toNat).2.length = frameLength.toNat then
          ((lwrbRead (lwrbSkip rb index).1 frameLength.toNat).1, some (processIngressFrame
            (lwrbRead (lwrbSkip rb index).1 frameLength.toNat).2 beyond.wholeFrame).1)
        else ((lwrbRead (lwrbSkip rb index).1 frameLength.toNat).1, none)
      else ((lwrbSkip rb index).1, none) := by
  rw [headerLength] at hlength
  simp only [processIngress, hscan, hlength]
  split_ifs <;> rfl

section Ingest
variable {κ ε τ χ : Type} {R : Process κ → τ → Prop} {g : ε → List χ} {blocks : InstanceBlocks}

theorem scanFrom_next (rb : Lwrb) (beyond : Surroundings) (maxFrameSize n i : ℕ) :
    (scanFrom rb beyond maxFrameSize (n + 1) i).1 =
      if lwrbPeek rb i 1 = [cmuxFrameHeaderFooter] ∧ (checkValidFrame (maxFrameSize - i)).value
          (view (lwrbPeek rb i (maxFrameSize - i)) (beyond.scanBuffer i)) then some i
      else (scanFrom rb beyond maxFrameSize n (i + 1)).1 := by
  rw [scanFrom]
  split
  next header hpeek =>
    rw [hpeek]
    by_cases hflag : header = cmuxFrameHeaderFooter
    · simp only [hflag, if_true, true_and]
      split_ifs <;> rfl
    · rw [if_neg hflag, if_neg fun h => hflag (List.singleton_inj.mp h.1)]
  next hpeek =>
    rw [if_neg fun h => hpeek _ h.1]

theorem settles_use {used : List ℕ} {k : Unit → Code (Process κ) ε Unit} {process : Process κ}
    {t : τ} {xs : List χ} : (use used >>= k).Settles R g process t xs () ↔
      (k ()).Settles R g { process with heap := process.heap.use used } t xs () := Iff.rfl

theorem settles_serviceRequestEncode (service : CmuxService) (serviceOctets : ℕ)
    (process : Process κ) : ∃ heap, ∀ (k : Unit → Code (Process κ) ε Unit) (t : τ) (xs : List χ),
      (serviceRequestEncode service serviceOctets >>= k).Settles R g process t xs () ↔
        (k ()).Settles R g { process with heap := heap } t xs () := by
  unfold serviceRequestEncode
  split <;> exact ⟨_, fun k t xs => Iff.rfl⟩

/-- The scan finds what it finds in the model, and touches nothing but the heap. -/
theorem settles_scanFrom (blocks : InstanceBlocks) (rb : Lwrb) (beyond : Surroundings)
    (maxFrameSize n i : ℕ)
    (process : Process κ) : ∃ heap, ∀ (k : Option ℕ → Code (Process κ) ε Unit) (t : τ)
      (xs : List χ), (scanFromCode blocks rb beyond maxFrameSize n i >>= k).Settles R g process t
          xs () ↔ (k (scanFrom rb beyond maxFrameSize n i).1).Settles R g
            { process with heap := heap } t xs () := by
  induction n generalizing i process with
  | zero => exact ⟨process.heap, fun k t xs => Iff.rfl⟩
  | succ n ih =>
    rw [scanFrom_next]
    simp only [scanFromCode]
    by_cases hflag : lwrbPeek rb i 1 = [cmuxFrameHeaderFooter]
    · by_cases hvalid : (checkValidFrame (maxFrameSize - i)).value
          (view (lwrbPeek rb i (maxFrameSize - i)) (beyond.scanBuffer i)) = true
      · simp only [hflag, hvalid, and_self, if_true]
        exact ⟨_, fun k t xs => Iff.rfl⟩
      · simp only [hflag, hvalid, if_true]
        exact ih (i + 1) _
    · simp only [hflag, false_and, if_false]
      exact ih (i + 1) _

theorem buffer_ext {cmux cmux' : CmuxBuffer} (h : cmux.ingressRb = cmux'.ingressRb) :
    cmux = cmux' := by
  obtain ⟨rb, hsize⟩ := cmux
  obtain rfl : rb = cmux'.ingressRb := h
  rfl

def IgnoresHeap (R : Process κ → τ → Prop) : Prop :=
  ∀ process t heap, R process t → R { process with heap := heap } t

variable (hR : IgnoresHeap R)
include hR

theorem frozen_free (block : ℕ) : (free block : Code (Process κ) ε Unit).Frozen R g [] () :=
  fun _ => ⟨fun _ hs => hR _ _ _ hs, rfl, rfl⟩

theorem frozen_use (used : List ℕ) : (use used : Code (Process κ) ε Unit).Frozen R g [] () :=
  fun _ => ⟨fun _ hs => hR _ _ _ hs, rfl, rfl⟩

theorem frozen_use_bind {used : List ℕ} {k : Unit → Code (Process κ) ε Unit} {xs : List χ}
    (h : (k ()).Frozen R g xs ()) : (use used >>= k).Frozen R g xs () :=
  frozen_modify (fun _ _ hs => hR _ _ _ hs) h

theorem frozen_lend {code : Code (Process κ) ε Unit} {xs : List χ} (h : code.Frozen R g xs ())
    (block : ℕ) : (lend block code).Frozen R g xs () := by
  have hlent := h.bind (k := fun _ => use [block]) (frozen_use hR _)
  rwa [List.append_nil] at hlent

theorem settles_lend {code : Code (Process κ) ε Unit} {process : Process κ} {t : τ}
    {xs : List χ} (h : code.Settles R g process t xs ()) (block : ℕ) :
    (lend block code).Settles R g process t xs () := by
  have hlent := h.bind (k := fun _ => use [block]) (frozen_use hR _)
  rwa [List.append_nil] at hlent

theorem frozen_onlyIf_use (condition : Prop) [Decidable condition] (used : List ℕ) :
    (onlyIf condition (use used) : Code (Process κ) ε Unit).Frozen R g [] () := by
  unfold onlyIf
  split
  · exact frozen_use hR used
  · exact ⟨rfl, rfl⟩

theorem frozen_malloc {k : ℕ → Code (Process κ) ε Unit} {xs : List χ}
    (h : ∀ block, (k block).Frozen R g xs ()) : (malloc >>= k).Frozen R g xs () :=
  fun process => ⟨fun _ hs => hR _ _ _ hs, h process.heap.allocated⟩

theorem frozen_serviceRequestEncode (service : CmuxService) (serviceOctets : ℕ) :
    (serviceRequestEncode service serviceOctets : Code (Process κ) ε Unit).Frozen R g [] () := by
  unfold serviceRequestEncode
  split
  · apply frozen_malloc hR
    intro serviceDataOctets
    exact (frozen_use hR _).bind (frozen_free hR _)
  · exact frozen_use hR _

theorem settles_takeWholeFrame (onControlMessage : ℕ → ControlMessage → Code (Process κ) ε Unit)
    (frameLength : ℕ) (beyond : ℕ → UInt8) (process : Process κ) {t : τ} {xs : List χ}
    {cmuxInstance : CmuxBuffer}
    (hleft : cmuxInstance.ingressRb = (lwrbRead process.cmuxInstance.ingressRb frameLength).1)
    (hnone : (lwrbRead process.cmuxInstance.ingressRb frameLength).2.length ≠ frameLength →
      xs = [] ∧ ∀ heap, R ⟨process.endpoint, cmuxInstance, heap⟩ t)
    (hsome : (lwrbRead process.cmuxInstance.ingressRb frameLength).2.length = frameLength →
      ∀ block heap, (onControlMessage block (processIngressFrame
        (lwrbRead process.cmuxInstance.ingressRb frameLength).2 beyond).1).Settles R g
          ⟨process.endpoint, cmuxInstance, heap⟩ t xs ()) :
    (takeWholeFrame blocks onControlMessage frameLength beyond).Settles R g process t xs () := by
  have htaken : cmuxInstance = ⟨(lwrbRead process.cmuxInstance.ingressRb frameLength).1, by
    rw [lwrbRead_size, process.cmuxInstance.size_eq]⟩ := buffer_ext hleft
  subst htaken
  have hfree : (free process.heap.allocated : Code (Process κ) ε Unit).Frozen R g [] () :=
    frozen_free hR _
  change (onlyIf _ _ >>= fun _ => free process.heap.allocated).Settles R g _ t xs ()
  rw [onlyIf]
  by_cases hread : (lwrbRead process.cmuxInstance.ingressRb frameLength).2.length = frameLength
  · have hmessage (heap : Heap) := (settles_lend hR (hsome hread process.heap.allocated heap)
      process.heap.allocated).bind (k := fun _ => free process.heap.allocated) hfree
    simp only [List.append_nil] at hmessage
    rw [if_pos hread]
    exact hmessage _
  · obtain ⟨rfl, hs⟩ := hnone hread
    rw [if_neg hread]
    exact hfree.settles (hs _)

/-- The callback finds the buffer as the call leaves it. -/
theorem settles_processIngress (blocks : InstanceBlocks)
    (onControlMessage : ℕ → ControlMessage → Code (Process κ) ε Unit) (beyond : Surroundings)
    (process : Process κ) {t : τ} {xs : List χ}
    {cmuxInstance : CmuxBuffer}
    (hleft : cmuxInstance.ingressRb = (processIngress process.cmuxInstance.ingressRb beyond).1)
    (hnone : (processIngress process.cmuxInstance.ingressRb beyond).2.1 = none → xs = [] ∧
      ∀ heap, R ⟨process.endpoint, cmuxInstance, heap⟩ t)
    (hsome : ∀ message ∈ (processIngress process.cmuxInstance.ingressRb beyond).2.1, ∀ block heap,
      (onControlMessage block message).Settles R g ⟨process.endpoint, cmuxInstance, heap⟩ t xs ()) :
    (processIngressCode blocks onControlMessage beyond).Settles R g process t xs () := by
  obtain ⟨heap, hscanned⟩ := settles_scanFrom (R := R) (g := g) blocks
    process.cmuxInstance.ingressRb beyond
    (lwrbGetLinearBlockReadLength process.cmuxInstance.ingressRb)
    (lwrbGetLinearBlockReadLength process.cmuxInstance.ingressRb) 0
    { process with heap := process.heap.use [blocks.cmuxInstance] }
  refine (hscanned _ t xs).mpr ?_
  change Settles R g (match (scanIngressBufferForValidFrame process.cmuxInstance.ingressRb
    beyond).1 with | none => _ | some bufferIndex => _) _ t xs ()
  rcases hscan : scanIngressBufferForValidFrame process.cmuxInstance.ingressRb beyond with
    ⟨index, reads⟩
  cases index with
  | none =>
    simp only [processIngress, hscan] at hleft hnone
    obtain ⟨rfl, hs⟩ := hnone trivial
    obtain rfl : cmuxInstance = process.cmuxInstance := buffer_ext hleft
    exact ⟨hs heap, rfl, rfl⟩
  | some index =>
    have hsize : (lwrbSkip process.cmuxInstance.ingressRb index).1.size = 128 := by
      rw [lwrbSkip_size, process.cmuxInstance.size_eq]
    change (onlyIf (headerLength (lwrbSkip process.cmuxInstance.ingressRb index).1
      beyond.frameHeader ≠ -1) _).Settles R g
        ⟨process.endpoint, ⟨(lwrbSkip process.cmuxInstance.ingressRb index).1, hsize⟩, _⟩ t xs ()
    have htaken := processIngress_taken hscan rfl
    have hrb := congrArg Prod.fst htaken
    have hmessage := congrArg Prod.snd htaken
    dsimp only at hrb hmessage
    rw [hrb] at hleft
    rw [hmessage] at hnone hsome
    rw [onlyIf]
    split_ifs at hleft hnone hsome ⊢
    · apply settles_takeWholeFrame hR
      · exact hleft
      · intro hread
        exact absurd ‹_› hread
      · intro _
        exact hsome _ rfl
    · apply settles_takeWholeFrame hR
      · exact hleft
      · intro _
        exact hnone rfl
      · intro hread
        exact absurd hread ‹_›
    · obtain ⟨rfl, hs⟩ := hnone rfl
      obtain rfl : cmuxInstance = ⟨(lwrbSkip process.cmuxInstance.ingressRb index).1, hsize⟩ :=
        buffer_ext hleft
      exact ⟨hs _, rfl, rfl⟩

theorem settles_cmuxBufferIngest (onControlMessage : ℕ → ControlMessage →
      Code (Process κ) ε Unit) (call : IngestCall) (process : Process κ) {t : τ} {xs : List χ}
    {left : CmuxBuffer × Ingested}
    (hleft : cmuxBufferIngest process.cmuxInstance call.data call.beyond = left)
    (hnone : left.2.message = none → xs = [] ∧ ∀ heap, R ⟨process.endpoint, left.1, heap⟩ t)
    (hsome : ∀ message ∈ left.2.message, ∀ block heap,
      (onControlMessage block message).Settles R g ⟨process.endpoint, left.1, heap⟩ t xs ()) :
    (cmuxBufferIngestCode blocks onControlMessage call).Settles R g process t xs left.2.ret := by
  have hsize : (lwrbWrite process.cmuxInstance.ingressRb call.data).1.size = 128 := by
    rw [lwrbWrite_size, process.cmuxInstance.size_eq]
  have hbuffer : left.1.ingressRb =
      (processIngress (lwrbWrite process.cmuxInstance.ingressRb call.data).1 call.beyond).1 := by
    rw [← hleft]
    rfl
  have hmessage : left.2.message =
      (processIngress (lwrbWrite process.cmuxInstance.ingressRb call.data).1
        call.beyond).2.1 := by
    rw [← hleft]
    rfl
  have hret : left.2.ret = (lwrbWrite process.cmuxInstance.ingressRb call.data).2 := by
    rw [← hleft]
    rfl
  rw [hmessage] at hnone hsome
  have hcode (heap : Heap) := (settles_processIngress hR blocks onControlMessage call.beyond
    ⟨process.endpoint, ⟨(lwrbWrite process.cmuxInstance.ingressRb call.data).1, hsize⟩,
      heap⟩ hbuffer hnone hsome).bind (k := fun _ => ret
        (lwrbWrite process.cmuxInstance.ingressRb call.data).2) ⟨rfl, hret.symm⟩
  simp only [List.append_nil] at hcode
  exact hcode _

/-! ### Frames that are sent -/

section Send
variable {maximumDlci : UInt8} {record : BuilderFrameInfo → κ → κ} {send : List UInt8 → ε}
  {process : Process κ} {t : τ}

theorem settles_sendFrame {frameInfo : BuilderFrameInfo} (body : List ℕ) (heap : ℕ → UInt8)
    (h : ∀ left, R ⟨if frameInfo.dlci > maximumDlci then process.endpoint
      else record frameInfo process.endpoint, process.cmuxInstance, left⟩ t) :
    (sendFrame blocks maximumDlci record send frameInfo body heap).Settles R g process t
      (((sendFrameOctets maximumDlci frameInfo heap).map send).toList.flatMap g) () := by
  unfold sendFrame sendFrameOctets
  rw [settles_use]
  split
  next hgt =>
    simp only [if_pos hgt] at h
    exact ⟨h _, rfl, rfl⟩
  next hle =>
    simp only [if_neg hle] at h
    have hsent : (enter (send (builtFrame frameInfo heap)) (ret ()) :
        Code (Process κ) ε Unit).Frozen R g (g (send (builtFrame frameInfo heap))) () :=
      ⟨[], (List.append_nil _).symm, rfl, rfl⟩
    have hfreed := (frozen_lend hR hsent process.heap.allocated).bind
      (k := fun _ => free process.heap.allocated) (frozen_free hR _)
    exact hfreed.settles (h _)

theorem settles_sendRequest {pollFinal : Bool} {dlci : UInt8} {type : ControlType}
    {request : Option (CmuxServicesRequest (ℕ → UInt8))} {heap : ℕ → UInt8}
    (h : ∀ left, R ⟨if dlci > maximumDlci then process.endpoint else
      record (requestFrame pollFinal dlci type request heap) process.endpoint,
        process.cmuxInstance, left⟩ t) :
    (sendRequest blocks maximumDlci record send pollFinal dlci type request heap).Settles R g
      process t (((sendFrameOctets maximumDlci (requestFrame pollFinal dlci type request heap)
        heap).map send).toList.flatMap g) () := by
  cases request with
  | none => exact settles_sendFrame hR [] heap h
  | some request =>
    obtain ⟨encoded, hencoded⟩ := settles_serviceRequestEncode (R := R) (g := g) request.service
      process.heap.allocated { process with heap := process.heap.malloc }
    refine (hencoded _ t _).mpr ?_
    have hframe : (sendFrame blocks maximumDlci record send
        (requestFrame pollFinal dlci type (some request) heap) [process.heap.allocated]
          heap).Settles R g { process with heap := encoded } t _ () :=
      settles_sendFrame hR _ heap h
    have hsent := hframe.bind (k := fun _ => free process.heap.allocated) (frozen_free hR _)
    rw [List.append_nil] at hsent
    exact hsent

/-- A relation that does not look at what is recorded. -/
theorem frozen_sendFrame (hrecord : ∀ process t frameInfo, R process t →
      R { process with endpoint := record frameInfo process.endpoint } t)
    (frameInfo : BuilderFrameInfo) (body : List ℕ) (heap : ℕ → UInt8) :
    (sendFrame blocks maximumDlci record send frameInfo body heap).Frozen R g
      (((sendFrameOctets maximumDlci frameInfo heap).map send).toList.flatMap g) () := by
  unfold sendFrame sendFrameOctets
  apply frozen_use_bind hR
  split
  · exact ⟨rfl, rfl⟩
  apply frozen_use_bind hR
  apply frozen_modify fun process t hs => hrecord process t frameInfo hs
  apply frozen_malloc hR
  intro frame
  have hsent : (enter (send (builtFrame frameInfo heap)) (ret ()) :
      Code (Process κ) ε Unit).Frozen R g (g (send (builtFrame frameInfo heap))) () :=
    ⟨[], (List.append_nil _).symm, rfl, rfl⟩
  have hlent := frozen_lend hR hsent frame
  exact frozen_use_bind hR (frozen_use_bind hR (hlent.bind (frozen_free hR _)))

theorem frozen_sendRequest (hrecord : ∀ process t frameInfo, R process t →
      R { process with endpoint := record frameInfo process.endpoint } t)
    (pollFinal : Bool) (dlci : UInt8) (type : ControlType)
    (request : Option (CmuxServicesRequest (ℕ → UInt8))) (heap : ℕ → UInt8) :
    (sendRequest blocks maximumDlci record send pollFinal dlci type request heap).Frozen R g
      (((sendFrameOctets maximumDlci (requestFrame pollFinal dlci type request heap) heap).map
        send).toList.flatMap g) () := by
  cases request with
  | none => exact frozen_sendFrame hR hrecord _ [] heap
  | some request =>
    apply frozen_malloc hR
    intro requestOctets
    have hframe : (sendFrame blocks maximumDlci record send
        (requestFrame pollFinal dlci type (some request) heap) [requestOctets] heap).Frozen
          R g _ () := frozen_sendFrame hR hrecord _ _ heap
    have hsent := hframe.bind (k := fun _ => free requestOctets) (frozen_free hR _)
    rw [List.append_nil] at hsent
    exact (frozen_serviceRequestEncode hR _ _).bind hsent

end Send
end Ingest

-- from here on its lemmas stand for it
attribute [irreducible] cmuxBufferIngestCode

end Cmux
