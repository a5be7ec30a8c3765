import Cmux.Endpoint.Reentrancy

/-! The blocks that the endpoints allocate, from the initialisation of an instance to its end. Each
is freed once, and is live whenever it is used, whatever is done in the callbacks. -/
namespace Cmux
open Callbacks Callbacks.Code

/-! ### Blocks -/

section Blocks
variable {κ ε ν : Type} {needed cur after : List ℕ} {block : ℕ}

theorem singleton_subset (h : block ∈ cur) : [block] ⊆ cur :=
  List.cons_subset.mpr ⟨h, List.nil_subset _⟩

theorem holds_malloc {k : ℕ → Code (Process κ) ε ν}
    (h : ∀ block, (k block).Holds Process.heap needed after (block :: cur)) :
    (malloc >>= k).Holds Process.heap needed after cur := by
  rintro process rfl
  exact ⟨rfl, h process.heap.allocated⟩

theorem holds_free : (free block : Code (Process κ) ε Unit).Holds Process.heap needed cur
    (block :: cur) := by
  intro process hlive
  have hmem : block ∈ process.heap.live := hlive ▸ List.mem_cons_self
  refine ⟨if_pos hmem, ?_⟩
  change process.heap.live.erase block = cur
  rw [hlive, List.erase_cons_head]

theorem holds_use {used : List ℕ} (h : used ⊆ cur) :
    (use used : Code (Process κ) ε Unit).Holds Process.heap needed cur cur := by
  rintro process rfl
  exact ⟨Heap.use_faults h, rfl⟩

theorem holds_get {k : Process κ → Code (Process κ) ε ν}
    (h : ∀ process, (k process).Holds Process.heap needed after cur) :
    (get >>= k).Holds Process.heap needed after cur := by
  rintro process rfl
  exact ⟨rfl, h process⟩

/-- What leaves the heap as it is. -/
theorem holds_modify {f : Process κ → Process κ} (hf : ∀ process, (f process).heap = process.heap)
    {k : Unit → Code (Process κ) ε ν} (hk : (k ()).Holds Process.heap needed after cur) :
    (modify f >>= k).Holds Process.heap needed after cur := by
  rintro process rfl
  rw [hf]
  exact ⟨rfl, hk⟩

theorem holds_onlyIf {condition : Prop} [Decidable condition] {code : Code (Process κ) ε Unit}
    (h : code.Holds Process.heap needed cur cur) :
    (onlyIf condition code).Holds Process.heap needed cur cur := by
  unfold onlyIf
  split
  · exact h
  · exact rfl

theorem holds_lend {code : Code (Process κ) ε Unit} (h : code.Holds Process.heap needed cur cur)
    (hblock : block ∈ cur) : (lend block code).Holds Process.heap needed cur cur :=
  h.bind fun _ => holds_use (singleton_subset hblock)

theorem holds_enterIf (h : needed ⊆ cur) (condition : Prop) [Decidable condition] (e : ε) :
    (enterIf condition e : Code (Process κ) ε Unit).Holds Process.heap needed cur cur := by
  unfold enterIf
  split
  · exact ⟨h, rfl⟩
  · exact rfl

theorem holds_serviceRequestEncode (service : CmuxService) (h : block ∈ cur) :
    (serviceRequestEncode service block : Code (Process κ) ε Unit).Holds Process.heap needed
      cur cur := by
  unfold serviceRequestEncode
  split
  · apply holds_malloc
    intro serviceDataOctets
    refine (holds_use ?_).bind fun _ => holds_free
    exact List.cons_subset_cons _ (singleton_subset h)
  · exact holds_use (singleton_subset h)

end Blocks

/-! ### The blocks of the instance -/

section Own
variable {κ ε ν : Type} {blocks : InstanceBlocks} {cur after : List ℕ}

/-- Uses of the instance, its tables and its receive buffer. -/
theorem holds_own (h : blocks.all ⊆ cur) {used : List ℕ} (hused : used ⊆ blocks.all)
    {k : Unit → Code (Process κ) ε ν} (hk : (k ()).Holds Process.heap blocks.all after cur) :
    (use used >>= k).Holds Process.heap blocks.all after cur :=
  (holds_use (List.Subset.trans hused h)).bind fun _ => hk

theorem InstanceBlocks.cmux_subset : [blocks.cmux] ⊆ blocks.all := by simp [all]

theorem InstanceBlocks.terminalOptions_subset :
    [blocks.cmux, blocks.terminalOptions] ⊆ blocks.all := by simp [all]

theorem InstanceBlocks.terminalStatuses_subset :
    [blocks.cmux, blocks.terminalStatuses] ⊆ blocks.all := by simp [all]

theorem InstanceBlocks.cmuxInstance_subset : [blocks.cmuxInstance] ⊆ blocks.all := by simp [all]

theorem InstanceBlocks.copying_subset (octets : ℕ) {array : List ℕ} (h : blocks.all ⊆ cur)
    (harray : array ⊆ cur) : blocks.copying octets array ⊆ cur := by
  have hcmux : blocks.cmuxInstance ∈ cur := h (by simp [all])
  have hbuffer : blocks.ingressBuffer ∈ cur := h (by simp [all])
  unfold copying
  split
  · exact singleton_subset hcmux
  · exact List.cons_subset.mpr ⟨hcmux, List.cons_subset.mpr ⟨hbuffer, harray⟩⟩

open InstanceBlocks

theorem holds_sendFrame (maximumDlci : UInt8) (record : BuilderFrameInfo → κ → κ)
    (send : List UInt8 → ε) (frameInfo : BuilderFrameInfo) {body : List ℕ} (heap : ℕ → UInt8)
    (h : blocks.all ⊆ cur) (hbody : body ⊆ cur) :
    (sendFrame blocks maximumDlci record send frameInfo body heap).Holds Process.heap blocks.all
      cur cur := by
  unfold sendFrame
  apply holds_own h cmux_subset
  split
  · exact rfl
  apply holds_own h terminalStatuses_subset
  apply holds_modify fun _ => rfl
  apply holds_malloc
  intro frame
  have hframe : blocks.all ⊆ frame :: cur := List.subset_cons_of_subset frame h
  have hbuilt : (frame :: if frameInfo.length > 0 then body else []) ⊆ frame :: cur := by
    apply List.cons_subset_cons
    split
    · exact hbody
    · exact List.nil_subset _
  refine (holds_use hbuilt).bind fun _ => ?_
  apply holds_own hframe cmux_subset
  refine (holds_lend ?_ List.mem_cons_self).bind fun _ => holds_free
  exact ⟨hframe, rfl⟩

theorem holds_sendRequest (maximumDlci : UInt8) (record : BuilderFrameInfo → κ → κ)
    (send : List UInt8 → ε) (pollFinal : Bool) (dlci : UInt8) (type : ControlType)
    (request : Option (CmuxServicesRequest (ℕ → UInt8))) (heap : ℕ → UInt8)
    (h : blocks.all ⊆ cur) :
    (sendRequest blocks maximumDlci record send pollFinal dlci type request heap).Holds
      Process.heap blocks.all cur cur := by
  unfold sendRequest
  cases request with
  | none => exact holds_sendFrame _ _ _ _ _ h (List.nil_subset _)
  | some request =>
    apply holds_malloc
    intro requestOctets
    refine (holds_serviceRequestEncode _ List.mem_cons_self).bind fun _ => ?_
    refine (holds_sendFrame _ _ _ _ _ ?_ ?_).bind fun _ => holds_free
    · exact List.subset_cons_of_subset requestOctets h
    · exact singleton_subset List.mem_cons_self

theorem holds_scanFrom (rb : Lwrb) (beyond : Surroundings) (maxFrameSize n i : ℕ)
    (h : blocks.all ⊆ cur) {k : Option ℕ → Code (Process κ) ε ν}
    (hk : ∀ index, (k index).Holds Process.heap blocks.all after cur) :
    (scanFromCode blocks rb beyond maxFrameSize n i >>= k).Holds Process.heap blocks.all after
      cur := by
  refine Code.Holds.bind ?_ hk
  induction n generalizing i with
  | zero => exact rfl
  | succ n ih =>
    rw [scanFromCode]
    refine (holds_use (copying_subset _ h (List.nil_subset _))).bind fun _ => ?_
    split
    · apply holds_malloc
      intro scanBuffer
      have hscan : [scanBuffer] ⊆ scanBuffer :: cur := singleton_subset List.mem_cons_self
      have hcopied := List.subset_cons_of_subset scanBuffer h
      refine (holds_use (copying_subset _ hcopied hscan)).bind fun _ => ?_
      refine (holds_use hscan).bind fun _ => holds_free.bind fun _ => ?_
      split
      · exact rfl
      · exact ih (i + 1)
    · exact ih (i + 1)

theorem holds_takeWholeFrame {onControlMessage : ℕ → ControlMessage → Code (Process κ) ε Unit}
    (hmessage : ∀ block message cur, blocks.all ⊆ cur → block ∈ cur →
      (onControlMessage block message).Holds Process.heap blocks.all cur cur)
    (frameLength : ℕ) (beyond : ℕ → UInt8) (h : blocks.all ⊆ cur) :
    (takeWholeFrame blocks onControlMessage frameLength beyond).Holds Process.heap blocks.all
      cur cur := by
  apply holds_malloc
  intro wholeFrame
  have hframe : wholeFrame ∈ wholeFrame :: cur := List.mem_cons_self
  have hall : blocks.all ⊆ wholeFrame :: cur := List.subset_cons_of_subset wholeFrame h
  apply holds_get
  intro process
  refine (holds_use (copying_subset _ hall (singleton_subset hframe))).bind fun _ => ?_
  apply holds_modify fun _ => rfl
  refine (holds_onlyIf ?_).bind fun _ => holds_free
  have hused : [wholeFrame, blocks.cmuxInstance] ⊆ wholeFrame :: cur :=
    List.cons_subset_cons _ (List.Subset.trans cmuxInstance_subset h)
  exact (holds_use hused).bind fun _ => holds_lend (hmessage _ _ _ hall hframe) hframe

theorem holds_cmuxBufferIngest {onControlMessage : ℕ → ControlMessage → Code (Process κ) ε Unit}
    (hmessage : ∀ block message cur, blocks.all ⊆ cur → block ∈ cur →
      (onControlMessage block message).Holds Process.heap blocks.all cur cur) (call : IngestCall)
    (h : blocks.all ⊆ cur) :
    (cmuxBufferIngestCode blocks onControlMessage call).Holds Process.heap blocks.all cur cur := by
  have hcopying (octets : ℕ) : blocks.copying octets [] ⊆ cur :=
    copying_subset octets h (List.nil_subset _)
  unfold cmuxBufferIngestCode
  apply holds_own h cmux_subset
  apply holds_get
  intro process
  refine (holds_use (hcopying _)).bind fun _ => ?_
  apply holds_modify fun _ => rfl
  refine Code.Holds.bind_ret ?_ _
  apply holds_get
  intro process
  apply holds_own h cmuxInstance_subset
  apply holds_scanFrom _ _ _ _ _ h
  intro index
  cases index with
  | none => exact rfl
  | some index =>
    apply holds_own h cmuxInstance_subset
    apply holds_modify fun _ => rfl
    apply holds_get
    intro process
    refine (holds_use (hcopying _)).bind fun _ => ?_
    exact holds_onlyIf (holds_takeWholeFrame hmessage _ _ h)

end Own

/-! ### The life of an instance -/

/-- What `cmux_client_init` and `cmux_server_init` allocate and fill, with `cmux_buffer_init`. -/
def allocateInstance (heap : Heap) : InstanceBlocks × Heap :=
  let cmux := heap.allocated
  let heap := heap.malloc.use [cmux]
  let terminalOptions := heap.allocated
  let heap := heap.malloc.use [cmux, terminalOptions]
  let terminalStatuses := heap.allocated
  let heap := heap.malloc.use [cmux, terminalStatuses]
  let cmuxInstance := heap.allocated
  let heap := heap.malloc.use [cmuxInstance]
  let ingressBuffer := heap.allocated
  let heap := heap.malloc.use [cmuxInstance, cmux]
  (⟨cmux, terminalOptions, terminalStatuses, cmuxInstance, ingressBuffer⟩, heap)

def cmuxBufferFree (blocks : InstanceBlocks) (heap : Heap) : Heap :=
  ((heap.use [blocks.cmuxInstance]).free blocks.ingressBuffer).free blocks.cmuxInstance

/-- `cmux_client_free` and `cmux_server_free`. The pointers to the blocks are read in the instance
before each of them is freed. -/
def freeInstance (blocks : InstanceBlocks) (heap : Heap) : Heap :=
  let heap := cmuxBufferFree blocks (heap.use [blocks.cmux])
  let heap := (heap.use [blocks.cmux]).free blocks.terminalOptions
  let heap := (heap.use [blocks.cmux]).free blocks.terminalStatuses
  heap.free blocks.cmux

theorem allocateInstance_live (heap : Heap) :
    (allocateInstance heap).1.all ⊆ (allocateInstance heap).2.live := by
  simp [allocateInstance, InstanceBlocks.all, Heap.malloc, Heap.use]

theorem allocateInstance_free {heap left : Heap} (h : (allocateInstance heap).2.Keeps left) :
    heap.Keeps (freeInstance (allocateInstance heap).1 left) := by
  obtain ⟨hlive, hfaults⟩ := h
  constructor
  · simp [freeInstance, cmuxBufferFree, allocateInstance, Heap.free, Heap.malloc, Heap.use, hlive]
  · simp [freeInstance, cmuxBufferFree, allocateInstance, Heap.free, Heap.malloc, Heap.use, hlive,
      hfaults]

section Client
variable {options : CmuxClientOptions} {blocks : InstanceBlocks} {cur : List ℕ}
  (h : blocks.all ⊆ cur)
include h

open InstanceBlocks

theorem holds_clientOnControlMessage (beyond : ℕ → UInt8) {wholeFrame : ℕ}
    (message : ControlMessage) (hframe : wholeFrame ∈ cur) :
    (clientOnControlMessageCode blocks beyond wholeFrame message :
      Code (Process (CmuxClient options)) ClientEvent Unit).Holds Process.heap blocks.all
        cur cur := by
  unfold clientOnControlMessageCode
  dsimp only
  apply holds_own h cmux_subset
  split
  · exact rfl
  apply holds_own h terminalStatuses_subset
  apply holds_get
  intro process
  have hcmux (condition : Prop) [Decidable condition] :
      (onlyIf condition (use [blocks.cmux]) : Code (Process (CmuxClient options)) ClientEvent
        Unit).Holds Process.heap blocks.all cur cur :=
    holds_onlyIf (holds_use (List.Subset.trans cmux_subset h))
  split
  · refine (holds_onlyIf (holds_use (singleton_subset hframe))).bind fun _ => ?_
    apply holds_own h cmux_subset
    refine (holds_enterIf h _ _).bind fun _ => (hcmux _).bind fun _ => ?_
    refine (holds_enterIf h _ _).bind fun _ => (hcmux _).bind fun _ => ?_
    exact holds_enterIf h _ _
  · apply holds_own h terminalOptions_subset
    split_ifs <;> first | exact holds_enterIf h _ _ | exact rfl

theorem holds_clientRequest (dlci : UInt8) (type : ControlType)
    (request : Option (CmuxServicesRequest (ℕ → UInt8))) (heap : ℕ → UInt8) :
    (clientRequestCode blocks dlci type request heap : Code (Process (CmuxClient options))
      ClientEvent Unit).Holds Process.heap blocks.all cur cur :=
  holds_sendRequest _ _ _ _ _ _ _ _ h

theorem holds_clientTerminalOpen (dlci : UInt8)
    (terminalOptions : Option CmuxClientTerminalOptions) (heap : ℕ → UInt8) :
    (clientTerminalOpenCode blocks dlci terminalOptions heap : Code (Process (CmuxClient options))
      ClientEvent Unit).Holds Process.heap blocks.all cur cur := by
  unfold clientTerminalOpenCode
  apply holds_own h cmux_subset
  split
  · exact rfl
  apply holds_own h terminalOptions_subset
  exact holds_modify (fun _ => rfl) (holds_clientRequest h _ _ _ _)

theorem holds_clientUse (use : ClientUse) :
    (use.code options blocks).Holds Process.heap blocks.all cur cur := by
  cases use with
  | call made heap =>
    refine Code.Holds.bind_ret ?_ fun _ => none
    obtain ⟨call, hcall⟩ := made
    cases call with
    | start => exact holds_clientTerminalOpen h 0 none heap
    | stop => exact holds_clientRequest h 0 ControlType.uih _ heap
    | request dlci type services => exact holds_clientRequest h dlci type services heap
    | terminalOpen dlci terminalOptions =>
      exact holds_clientTerminalOpen h dlci terminalOptions heap
    | terminalSend dlci data len => exact holds_sendFrame _ _ _ _ _ h (List.nil_subset _)
    | terminalClose dlci => exact holds_clientRequest h dlci ControlType.disc none heap
    | receive frame => exact absurd rfl (hcall frame)
  | ingest ingested =>
    refine Code.Holds.bind_ret ?_ some
    apply holds_cmuxBufferIngest _ _ h
    intro block message cur h hframe
    exact holds_clientOnControlMessage h _ message hframe

end Client

/-- The heap behind the life of a client, from `cmux_client_init` to `cmux_client_free`. Without an
instance there is nothing to free. -/
def clientLife (options : CmuxClientOptions) (ingressBuffer : Vector UInt8 128)
    (app : App ClientUse ClientEvent (Option ℕ)) (heap : Heap) : Heap :=
  match cmuxClientInstanceInit options ingressBuffer with
  | none => heap
  | some cmuxClient =>
    let allocated := allocateInstance heap
    let ran := app.run (ClientUse.code options allocated.1)
      ⟨cmuxClient.client, cmuxClient.cmuxInstance, allocated.2⟩
    freeInstance allocated.1 ran.1.heap

theorem clientLife_keeps (options : CmuxClientOptions) (ingressBuffer : Vector UInt8 128)
    (app : App ClientUse ClientEvent (Option ℕ)) (heap : Heap) :
    heap.Keeps (clientLife options ingressBuffer app heap) := by
  unfold clientLife
  cases cmuxClientInstanceInit options ingressBuffer with
  | none => exact Heap.Keeps.refl heap
  | some cmuxClient =>
    have hkeeps := app_keeps (fun use cur h => holds_clientUse h use) app
      (s := ⟨cmuxClient.client, cmuxClient.cmuxInstance, (allocateInstance heap).2⟩)
      (allocateInstance_live heap)
    exact allocateInstance_free hkeeps

section Server
variable {options : CmuxServerOptions} {blocks : InstanceBlocks} {cur : List ℕ}
  (h : blocks.all ⊆ cur)
include h

open InstanceBlocks

theorem holds_serverSend (pollFinal : Bool) (dlci : UInt8) (type : ControlType)
    (request : Option (CmuxServicesRequest (ℕ → UInt8))) (heap : ℕ → UInt8) :
    (serverSendCode blocks pollFinal dlci type request heap : Code (Process (CmuxServer options))
      ServerEvent Unit).Holds Process.heap blocks.all cur cur :=
  holds_sendRequest _ _ _ _ _ _ _ _ h

theorem holds_serverOnIncomingRequest (frameInfo : FrameInfo)
    (request : Option (CmuxServicesRequest ℕ)) (lastFrameInfo : BuilderFrameInfo)
    (payload : List UInt8) (heap : ℕ → UInt8) :
    (serverOnIncomingRequestCode blocks frameInfo request lastFrameInfo payload heap :
      Code (Process (CmuxServer options)) ServerEvent Unit).Holds Process.heap blocks.all
        cur cur := by
  have hreply (event : ServerEvent) (condition : Prop) [Decidable condition]
      (type : ControlType) (request : Option (CmuxServicesRequest (ℕ → UInt8))) :
      (enterIf condition event >>= fun _ => serverSendCode blocks true frameInfo.dlci type
        request heap : Code (Process (CmuxServer options)) ServerEvent Unit).Holds Process.heap
          blocks.all cur cur :=
    (holds_enterIf h _ _).bind fun _ => holds_serverSend h _ _ _ _ _
  unfold serverOnIncomingRequestCode
  apply holds_own h cmux_subset
  refine (holds_enterIf h _ _).bind fun _ => ?_
  apply holds_own h terminalOptions_subset
  apply holds_get
  intro process
  dsimp only
  split_ifs
  · exact holds_own h cmux_subset (hreply _ _ _ _)
  · exact hreply _ _ _ _
  · exact hreply _ _ _ _
  · exact rfl
  · exact holds_own h cmux_subset (hreply _ _ _ _)
  · exact rfl
  · exact holds_enterIf h _ _
  · exact rfl

theorem holds_serverOnControlMessage (beyond : ℕ → UInt8) {wholeFrame : ℕ}
    (message : ControlMessage) (hframe : wholeFrame ∈ cur) :
    (serverOnControlMessageCode blocks beyond wholeFrame message :
      Code (Process (CmuxServer options)) ServerEvent Unit).Holds Process.heap blocks.all
        cur cur := by
  unfold serverOnControlMessageCode
  dsimp only
  apply holds_own h cmux_subset
  split
  · exact rfl
  apply holds_own h terminalStatuses_subset
  apply holds_get
  intro process
  refine (holds_onlyIf (holds_use (singleton_subset hframe))).bind fun _ => ?_
  exact holds_serverOnIncomingRequest h _ _ _ _ _

theorem holds_serverRegisterTerminal (dlci : UInt8)
    (terminalOptions : Option CmuxServerTerminalOptions) :
    (serverRegisterTerminalCode blocks dlci terminalOptions : Code (Process (CmuxServer options))
      ServerEvent Unit).Holds Process.heap blocks.all cur cur := by
  unfold serverRegisterTerminalCode
  apply holds_own h cmux_subset
  split
  · exact rfl
  apply holds_own h terminalOptions_subset
  rintro process rfl
  exact ⟨rfl, rfl⟩

theorem holds_serverUse (use : ServerUse) :
    (use.code options blocks).Holds Process.heap blocks.all cur cur := by
  cases use with
  | call made heap =>
    refine Code.Holds.bind_ret ?_ fun _ => none
    obtain ⟨call, hcall⟩ := made
    cases call with
    | stop => exact holds_serverSend h false 0 ControlType.uih _ heap
    | reply dlci type services => exact holds_serverSend h true dlci type services heap
    | request dlci type services => exact holds_serverSend h false dlci type services heap
    | registerTerminal dlci terminalOptions =>
      exact holds_serverRegisterTerminal h dlci terminalOptions
    | terminalSend dlci data len => exact holds_sendFrame _ _ _ _ _ h (List.nil_subset _)
    | terminalClose dlci => exact holds_serverSend h false dlci ControlType.disc none heap
    | receive frame => exact absurd rfl (hcall frame)
  | ingest ingested =>
    refine Code.Holds.bind_ret ?_ some
    apply holds_cmuxBufferIngest _ _ h
    intro block message cur h hframe
    exact holds_serverOnControlMessage h _ message hframe

end Server

def serverLife (options : CmuxServerOptions) (ingressBuffer : Vector UInt8 128)
    (app : App ServerUse ServerEvent (Option ℕ)) (heap : Heap) : Heap :=
  match cmuxServerInstanceInit options ingressBuffer with
  | none => heap
  | some cmuxServer =>
    let allocated := allocateInstance heap
    let ran := app.run (ServerUse.code options allocated.1)
      ⟨cmuxServer.server, cmuxServer.cmuxInstance, allocated.2⟩
    freeInstance allocated.1 ran.1.heap

theorem serverLife_keeps (options : CmuxServerOptions) (ingressBuffer : Vector UInt8 128)
    (app : App ServerUse ServerEvent (Option ℕ)) (heap : Heap) :
    heap.Keeps (serverLife options ingressBuffer app heap) := by
  unfold serverLife
  cases cmuxServerInstanceInit options ingressBuffer with
  | none => exact Heap.Keeps.refl heap
  | some cmuxServer =>
    have hkeeps := app_keeps (fun use cur h => holds_serverUse h use) app
      (s := ⟨cmuxServer.server, cmuxServer.cmuxInstance, (allocateInstance heap).2⟩)
      (allocateInstance_live heap)
    exact allocateInstance_free hkeeps

/-- Whatever the applications do in their callbacks, both endpoints free each block that they
allocate once, and use no block that is not live. -/
theorem endpoints_keep_heap (clientOptions : CmuxClientOptions)
    (serverOptions : CmuxServerOptions) (ingressBuffer : Vector UInt8 128)
    (clientApp : App ClientUse ClientEvent (Option ℕ))
    (serverApp : App ServerUse ServerEvent (Option ℕ)) (heap : Heap) :
    heap.Keeps (clientLife clientOptions ingressBuffer clientApp heap) ∧
      heap.Keeps (serverLife serverOptions ingressBuffer serverApp heap) :=
  ⟨clientLife_keeps clientOptions ingressBuffer clientApp heap,
    serverLife_keeps serverOptions ingressBuffer serverApp heap⟩

end Cmux
