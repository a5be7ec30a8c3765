import Cmux.Endpoint.Client
import Cmux.Endpoint.Server

/-! Which uses of the per-DLCI tables stay inside them. The tables have `maximum_dlci`
elements, and every test lets the DLCI `maximum_dlci` itself pass. -/
namespace Cmux

def InsideTables (maximumDlci : UInt8) (accesses : List TableAccess) : Prop :=
  ∀ a ∈ accesses, a.index < maximumDlci.toNat

instance (maximumDlci : UInt8) (accesses : List TableAccess) :
    Decidable (InsideTables maximumDlci accesses) :=
  inferInstanceAs (Decidable (∀ a ∈ accesses, _))

section Accesses
variable {maximumDlci d : UInt8}

@[simp] theorem insideTables_nil : InsideTables maximumDlci [] := by simp [InsideTables]

@[simp] theorem insideTables_cons (a : TableAccess) (accesses : List TableAccess) :
    InsideTables maximumDlci (a :: accesses) ↔
      a.index < maximumDlci.toNat ∧ InsideTables maximumDlci accesses := by
  simp [InsideTables]

/-- A DLCI that the test lets pass is inside the table unless it is the limit itself. -/
theorem index_lt_iff (h : ¬ d > maximumDlci) : d.toNat < maximumDlci.toNat ↔ d ≠ maximumDlci := by
  have hle : d.toNat ≤ maximumDlci.toNat := by
    rw [gt_iff_lt, UInt8.lt_iff_toNat_lt] at h
    omega
  rw [ne_eq, ← UInt8.toNat_inj]
  omega

theorem ne_of_rejected (h : d > maximumDlci) : d ≠ maximumDlci := by
  rintro rfl
  exact absurd h (UInt8.lt_irrefl d)

theorem sendFrameAccesses_inside (frameInfo : BuilderFrameInfo) :
    InsideTables maximumDlci (sendFrameAccesses maximumDlci frameInfo) ↔
      frameInfo.dlci ≠ maximumDlci := by
  by_cases h : frameInfo.dlci > maximumDlci
  · simp [sendFrameAccesses, h, ne_of_rejected h]
  · simp [sendFrameAccesses, h, index_lt_iff h]

end Accesses

/-! ### The client -/

section Client
variable {options : CmuxClientOptions} (client : CmuxClient options) (heap : ℕ → UInt8)

theorem clientTerminalOpen_inside (d : UInt8)
    (terminalOptions : Option CmuxClientTerminalOptions) :
    InsideTables options.maximumDlci
        (cmuxClientTerminalOpen client d terminalOptions heap).2.accesses ↔
      d ≠ options.maximumDlci := by
  by_cases h : d > options.maximumDlci
  · simp [cmuxClientTerminalOpen, h, Effects.none, ne_of_rejected h]
  · simp only [cmuxClientTerminalOpen, h, if_false, insideTables_cons, index_lt_iff h]
    exact and_iff_left_of_imp (sendFrameAccesses_inside
      (requestFrame true d ControlType.sabm none heap)).mpr

theorem clientOnControlMessage_inside (message : ControlMessage) :
    InsideTables options.maximumDlci (clientOnControlMessage client message heap).accesses ↔
      message.frameInfo.dlci ≠ options.maximumDlci := by
  by_cases h : message.frameInfo.dlci > options.maximumDlci
  · simp [clientOnControlMessage, h, Effects.none, ne_of_rejected h]
  · simp only [clientOnControlMessage, if_neg h]
    split_ifs <;> simp [index_lt_iff h]

theorem clientCall_inside (call : ClientCall) :
    InsideTables options.maximumDlci (call.run client heap).2.accesses ↔
      call.dlci ≠ options.maximumDlci := by
  cases call with
  | start => exact clientTerminalOpen_inside client heap 0 none
  | stop => exact sendFrameAccesses_inside (requestFrame true 0 _ _ heap)
  | request d type services => exact sendFrameAccesses_inside (requestFrame true d _ _ heap)
  | terminalOpen d terminalOptions => exact clientTerminalOpen_inside client heap d terminalOptions
  | terminalSend d data len => exact sendFrameAccesses_inside (dataFrame true d data len)
  | terminalClose d => exact sendFrameAccesses_inside (requestFrame true d _ _ heap)
  | receive frame => exact clientOnControlMessage_inside client heap frame.message

end Client

/-! ### The server -/

section Server
variable {options : CmuxServerOptions} (server : CmuxServer options) (heap : ℕ → UInt8)

/-- A reply goes out on the DLCI of the frame. -/
theorem serverReply_inside (frameInfo : FrameInfo) (request : Option (CmuxServicesRequest ℕ))
    (h : frameInfo.dlci ≠ options.maximumDlci) :
    InsideTables options.maximumDlci
      (serverReply server frameInfo request heap).2.accesses := by
  unfold serverReply
  split_ifs <;> first
    | exact (sendFrameAccesses_inside _).mpr h
    | exact insideTables_nil

theorem serverOnControlMessage_inside (message : ControlMessage) :
    InsideTables options.maximumDlci (serverOnControlMessage server message heap).2.accesses ↔
      message.frameInfo.dlci ≠ options.maximumDlci := by
  by_cases h : message.frameInfo.dlci > options.maximumDlci
  · simp [serverOnControlMessage, h, Effects.none, ne_of_rejected h]
  · simp only [serverOnControlMessage, h, if_false, cmuxServerOnIncomingRequest,
      insideTables_cons, index_lt_iff h]
    exact ⟨fun hall => hall.1, fun hd => ⟨hd, hd, serverReply_inside server heap _ _ hd⟩⟩

theorem serverRegisterTerminal_inside (d : UInt8)
    (terminalOptions : Option CmuxServerTerminalOptions) :
    InsideTables options.maximumDlci
        (cmuxServerRegisterTerminal server d terminalOptions).2.accesses ↔
      d ≠ options.maximumDlci := by
  by_cases h : d > options.maximumDlci
  · simp [cmuxServerRegisterTerminal, h, Effects.none, ne_of_rejected h]
  · simp [cmuxServerRegisterTerminal, h, index_lt_iff h]

theorem serverCall_inside (call : ServerCall) :
    InsideTables options.maximumDlci (call.run server heap).2.accesses ↔
      call.dlci ≠ options.maximumDlci := by
  cases call with
  | stop => exact sendFrameAccesses_inside (requestFrame false 0 _ _ heap)
  | reply d type services => exact sendFrameAccesses_inside (requestFrame true d _ _ heap)
  | request d type services => exact sendFrameAccesses_inside (requestFrame false d _ _ heap)
  | registerTerminal d terminalOptions =>
    exact serverRegisterTerminal_inside server d terminalOptions
  | terminalSend d data len => exact sendFrameAccesses_inside (dataFrame false d data len)
  | terminalClose d => exact sendFrameAccesses_inside (requestFrame false d _ _ heap)
  | receive frame => exact serverOnControlMessage_inside server heap frame.message

end Server

/-! ### Runs -/

/-- In a run of a client or of a server, whatever state it starts from, every index stays
inside the tables exactly when no call is about the DLCI `maximum_dlci`. -/
theorem tables_inside_iff {clientOptions : CmuxClientOptions} (client : CmuxClient clientOptions)
    (clientInputs : List (ClientCall × (ℕ → UInt8))) {serverOptions : CmuxServerOptions}
    (server : CmuxServer serverOptions) (serverInputs : List (ServerCall × (ℕ → UInt8))) :
    ((∀ o ∈ (clientMachine clientOptions).outputs client clientInputs,
        InsideTables clientOptions.maximumDlci o.accesses) ↔
      ∀ input ∈ clientInputs, input.1.dlci ≠ clientOptions.maximumDlci) ∧
    ((∀ o ∈ (serverMachine serverOptions).outputs server serverInputs,
        InsideTables serverOptions.maximumDlci o.accesses) ↔
      ∀ input ∈ serverInputs, input.1.dlci ≠ serverOptions.maximumDlci) :=
  ⟨(clientMachine clientOptions).outputs_forall_input_iff
      (fun client input => clientCall_inside client input.2 input.1) client clientInputs,
    (serverMachine serverOptions).outputs_forall_input_iff
      (fun server input => serverCall_inside server input.2 input.1) server serverInputs⟩

/-- The limit 64 that the tests configure, and a terminal opened or registered at 64. -/
theorem not_tables_inside_limit :
    (∃ client, cmuxClientInit ⟨true, true, true, 64⟩ = some client ∧
      ¬ ∀ o ∈ (clientMachine _).outputs client [(ClientCall.terminalOpen 64 none, fun _ => 0)],
        InsideTables 64 o.accesses) ∧
    (∃ server, cmuxServerInit ⟨true, true, true, 64⟩ = some server ∧
      ¬ ∀ o ∈ (serverMachine _).outputs server
          [(ServerCall.registerTerminal 64 none, fun _ => 0)],
        InsideTables 64 o.accesses) :=
  ⟨⟨_, rfl, by decide +kernel⟩, ⟨_, rfl, by decide +kernel⟩⟩

end Cmux
