import Cmux.Endpoint.Client
import Cmux.Endpoint.Server

/-! On which channel a frame goes out. The endpoints check a DLCI against the configured
maximum, and the address field keeps six bits of it. -/
namespace Cmux
open Access Access.Prog

/-- What is sent for a DLCI: nothing above the maximum, and else only frames in which the
decoder reads the same DLCI. -/
def SentOn (maximumDlci dlci : UInt8) (sent : List (List UInt8)) : Prop :=
  if dlci > maximumDlci then sent = []
  else ∀ octets ∈ sent, ∀ beyond : ℕ → UInt8,
    ((parseFrame octets.length).value (view octets beyond)).dlci = dlci

/-- The decoder reads six bits of the DLCI back. -/
theorem parseFrame_builtFrame_dlci (info : BuilderFrameInfo) (heap beyond : ℕ → UInt8) :
    ((parseFrame (builtFrame info heap).length).value (view (builtFrame info heap) beyond)).dlci =
      info.dlci &&& 0x3F := by
  obtain ⟨rest, hrest⟩ := builtFrame_header info heap
  have hlen : 3 ≤ (builtFrame info heap).length := by
    rw [hrest]
    simp only [List.length_cons]
    omega
  rw [(parseFrame_header hlen _).1, hrest]
  exact (addressOctet_decoded info).2.2

theorem sentOn_iff (maximumDlci : UInt8) (info : BuilderFrameInfo) (heap : ℕ → UInt8) :
    SentOn maximumDlci info.dlci (sendFrameOctets maximumDlci info heap).toList ↔
      (info.dlci ≤ maximumDlci → info.dlci.toNat < 64) := by
  unfold SentOn sendFrameOctets
  by_cases hgt : info.dlci > maximumDlci
  · rw [if_pos hgt, if_pos hgt]
    exact ⟨fun _ hle => absurd hle (UInt8.not_le.mpr hgt), fun _ => rfl⟩
  · have hle : info.dlci ≤ maximumDlci := UInt8.not_lt.mp hgt
    rw [if_neg hgt, if_neg hgt]
    constructor
    · intro h _
      have hread := h (builtFrame info heap) (by simp) fun _ => 0
      rwa [parseFrame_builtFrame_dlci, dlci_sixBits_iff] at hread
    · intro h octets hoctets beyond
      obtain rfl : octets = builtFrame info heap := by simpa using hoctets
      rw [parseFrame_builtFrame_dlci, dlci_sixBits_iff.mpr (h hle)]

/-! ### The operations of an endpoint -/

/-- A call that asks the client to send, which is every call but a received frame. -/
def ClientCall.Sends : ClientCall → Prop
  | receive _ => False
  | _ => True

/-- A call that asks the server to send. A received frame is answered on its own DLCI. -/
def ServerCall.Sends : ServerCall → Prop
  | registerTerminal _ _ => False
  | receive _ => False
  | _ => True

theorem ClientCall.Sends.frameInfo {call : ClientCall} (h : call.Sends) (heap : ℕ → UInt8) :
    ∃ info, call.frameInfo heap = some info := by
  cases call with
  | receive => exact h.elim
  | _ => exact ⟨_, rfl⟩

theorem ServerCall.Sends.frameInfo {call : ServerCall} (h : call.Sends) (heap : ℕ → UInt8) :
    ∃ info, call.frameInfo heap = some info := by
  cases call with
  | registerTerminal | receive => exact h.elim
  | _ => exact ⟨_, rfl⟩

section Both
variable {clientOptions : CmuxClientOptions} {serverOptions : CmuxServerOptions}

/-- Every frame that the client is asked to send goes out on the DLCI it was meant for. -/
def ClientAddresses (client : CmuxClient clientOptions)
    (inputs : List (ClientCall × (ℕ → UInt8))) : Prop :=
  List.Forall₂ (fun input effects => input.1.Sends → SentOn clientOptions.maximumDlci input.1.dlci
    (effects.events.filterMap ClientEvent.sent?)) inputs
    ((clientMachine clientOptions).outputs client inputs)

def ServerAddresses (server : CmuxServer serverOptions)
    (inputs : List (ServerCall × (ℕ → UInt8))) : Prop :=
  List.Forall₂ (fun input effects => input.1.Sends → SentOn serverOptions.maximumDlci input.1.dlci
    (effects.events.filterMap ServerEvent.sent?)) inputs
    ((serverMachine serverOptions).outputs server inputs)

theorem clientCall_sentOn_iff {call : ClientCall} (h : call.Sends)
    (client : CmuxClient clientOptions) (heap : ℕ → UInt8) :
    SentOn clientOptions.maximumDlci call.dlci
        ((call.run client heap).2.events.filterMap ClientEvent.sent?) ↔
      (call.dlci ≤ clientOptions.maximumDlci → call.dlci.toNat < 64) := by
  obtain ⟨info, hinfo⟩ := h.frameInfo heap
  rw [clientCall_sent, hinfo, Option.bind_some, ← clientCall_frameInfo_dlci hinfo, sentOn_iff]

theorem serverCall_sentOn_iff {call : ServerCall} (h : call.Sends)
    (server : CmuxServer serverOptions) (heap : ℕ → UInt8) :
    SentOn serverOptions.maximumDlci call.dlci
        ((call.run server heap).2.events.filterMap ServerEvent.sent?) ↔
      (call.dlci ≤ serverOptions.maximumDlci → call.dlci.toNat < 64) := by
  obtain ⟨info, hinfo⟩ := h.frameInfo heap
  rw [serverCall_sent, hinfo, Option.bind_some, ← serverCall_frameInfo_dlci hinfo, sentOn_iff]

/-- Every frame goes out on the channel it was meant for exactly when no call asks for an
admitted DLCI that six bits do not hold. -/
theorem addresses_iff (client : CmuxClient clientOptions) (server : CmuxServer serverOptions)
    (clientInputs : List (ClientCall × (ℕ → UInt8)))
    (serverInputs : List (ServerCall × (ℕ → UInt8))) :
    (ClientAddresses client clientInputs ↔ ∀ input ∈ clientInputs, input.1.Sends →
      input.1.dlci ≤ clientOptions.maximumDlci → input.1.dlci.toNat < 64) ∧
    (ServerAddresses server serverInputs ↔ ∀ input ∈ serverInputs, input.1.Sends →
      input.1.dlci ≤ serverOptions.maximumDlci → input.1.dlci.toNat < 64) := by
  constructor
  · refine Mealy.outputs_forall₂_iff _ (fun client input => ?_) client clientInputs
    exact forall_congr' fun h => clientCall_sentOn_iff h client input.2
  · refine Mealy.outputs_forall₂_iff _ (fun server input => ?_) server serverInputs
    exact forall_congr' fun h => serverCall_sentOn_iff h server input.2

end Both

/-- Data for DLCI 64 goes out on the control channel. -/
theorem not_clientAddresses_sixtyFour : ∃ client,
    cmuxClientInit ⟨true, true, true, 64⟩ = some client ∧
      ¬ ClientAddresses client [(.terminalSend 64 (some [0x68, 0x69]) 2, fun _ => 0)] := by
  refine ⟨_, rfl, ?_⟩
  unfold ClientAddresses
  intro h
  obtain ⟨hsent, -⟩ := List.forall₂_cons.mp h
  have hread := hsent trivial _ (List.mem_singleton_self _) fun _ => 0
  exact absurd hread (by decide +kernel)

end Cmux
