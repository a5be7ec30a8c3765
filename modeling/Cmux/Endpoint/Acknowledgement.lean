import Cmux.Endpoint.Client

/-! How often the client calls back for an acknowledgement. The frame recorded last for a
DLCI stays recorded when an UA has acknowledged it, so that the next UA counts again. -/
namespace Cmux

/-! ### Counting -/

def callbacks (event : ClientEvent) (outputs : List (Effects ClientEvent)) : ℕ :=
  (outputs.map fun o => o.events.count event).sum

def ClientEvent.sends (type : ControlType) (dlci : UInt8) : ClientEvent → Bool
  | sendToInterface octets => decide (IsFrame type dlci octets)
  | _ => false

def framesSent (type : ControlType) (dlci : UInt8) (outputs : List (Effects ClientEvent)) : ℕ :=
  (outputs.map fun o => o.events.countP (ClientEvent.sends type dlci)).sum

/-- The callback that an UA on the DLCI makes for a recorded command of the type. -/
inductive Acknowledges : ClientEvent → ControlType → UInt8 → Prop where
  | start : Acknowledges ClientEvent.onStart ControlType.sabm 0
  | terminalOpen {dlci : UInt8} (h : dlci ≠ 0) :
      Acknowledges (ClientEvent.onTerminalOpen dlci) ControlType.sabm dlci
  | terminalClose {dlci : UInt8} (h : dlci ≠ 0) :
      Acknowledges (ClientEvent.onTerminalClose dlci) ControlType.disc dlci

theorem Acknowledges.pollFinal_clear {event : ClientEvent} {type : ControlType} {dlci : UInt8}
    (h : Acknowledges event type dlci) : type &&& controlTypePollFinal = 0 := by
  cases h <;> rfl

/-! ### Which commands are acknowledged -/

def ClientCall.IsUa (dlci : UInt8) : ClientCall → Prop
  | receive frame =>
    frame.message.frameInfo.type = ControlType.ua ∧ frame.message.frameInfo.dlci = dlci
  | _ => False

instance (dlci : UInt8) : DecidablePred (ClientCall.IsUa dlci) := fun call => by
  cases call <;> unfold ClientCall.IsUa <;> infer_instance

/-- Whether an UA was received on each DLCI since the last frame on it was sent. -/
def acknowledged {options : CmuxClientOptions} (before : UInt8 → Bool)
    (_ : CmuxClient options) (input : ClientCall × (ℕ → UInt8)) : UInt8 → Bool := fun dlci =>
  if input.1.IsUa dlci then true
  else if (input.1.frameInfo input.2).any fun info => info.dlci = dlci then false
  else before dlci

def acknowledgedClient (options : CmuxClientOptions) :
    Mealy ((UInt8 → Bool) × CmuxClient options) (ClientCall × (ℕ → UInt8))
      (Effects ClientEvent) := (clientMachine options).observe acknowledged

section Client
variable {options : CmuxClientOptions}

def CmuxClient.AwaitsUa (client : CmuxClient options) (dlci : UInt8) : Prop :=
  (client.lastFrameInfo dlci).type = ControlType.sabm ∨
    dlci ≠ 0 ∧ (client.lastFrameInfo dlci).type = ControlType.disc

instance (client : CmuxClient options) (dlci : UInt8) : Decidable (client.AwaitsUa dlci) :=
  inferInstanceAs (Decidable (_ ∨ _))

theorem Acknowledges.awaitsUa {event : ClientEvent} {type : ControlType} {dlci : UInt8}
    (h : Acknowledges event type dlci) {client : CmuxClient options}
    (htype : (client.lastFrameInfo dlci).type = type) : client.AwaitsUa dlci := by
  cases h with
  | start => exact Or.inl htype
  | terminalOpen => exact Or.inl htype
  | terminalClose h => exact Or.inr ⟨h, htype⟩

/-- No UA is received for a command that an UA has acknowledged before. -/
def AcknowledgesOnce (dlci : UInt8) (state : (UInt8 → Bool) × CmuxClient options)
    (input : ClientCall × (ℕ → UInt8)) : Prop :=
  input.1.IsUa dlci → state.2.AwaitsUa dlci → state.1 dlci = false

instance (dlci : UInt8) (state : (UInt8 → Bool) × CmuxClient options)
    (input : ClientCall × (ℕ → UInt8)) : Decidable (AcknowledgesOnce dlci state input) :=
  inferInstanceAs (Decidable (_ → _ → _))

/-- One callback is still owed while the recorded command is not acknowledged. -/
def owed (type : ControlType) (dlci : UInt8) (state : (UInt8 → Bool) × CmuxClient options) : ℕ :=
  if state.1 dlci = false ∧ (state.2.lastFrameInfo dlci).type = type then 1 else 0

/-! ### Steps -/

/-- An event is made at most once, and not at all where it is another one than counted. -/
theorem count_eventIf_le {condition P : Prop} [Decidable condition] [Decidable P]
    {e event : ClientEvent} (h : condition → e = event → P) :
    (eventIf condition e).count event ≤ if P then 1 else 0 := by
  unfold eventIf
  split
  next hc =>
    by_cases he : e = event
    · simp [he, h hc he]
    · simp [he]
  next => exact Nat.zero_le _

theorem count_eventIf_of_ne {condition : Prop} [Decidable condition] {e event : ClientEvent}
    (h : e ≠ event) : (eventIf condition e).count event = 0 :=
  Nat.le_zero.mp ((count_eventIf_le fun _ => h).trans_eq (if_neg id))

/-- On DLCI 0 only an UA for a recorded SABM starts. -/
theorem clientOnControlChannel_count {event : ClientEvent} {type : ControlType} {d : UInt8}
    (hack : Acknowledges event type d) (client : CmuxClient options) (message : ControlMessage)
    (heap : ℕ → UInt8) :
    (clientOnControlChannel client message heap).count event ≤
      if message.frameInfo.type = ControlType.ua ∧ 0 = d ∧ (client.lastFrameInfo d).type = type
        then 1 else 0 := by
  have hevent : ClientEvent.onEvent message.frameInfo (if message.frameInfo.length > 0 then
      some (decodedRequest message heap) else none) (client.lastFrameInfo 0) ≠ event := by
    rintro rfl
    cases hack
  have hstop : ClientEvent.onStop ≠ event := by
    rintro rfl
    cases hack
  simp only [clientOnControlChannel, List.count_append, count_eventIf_of_ne hevent,
    count_eventIf_of_ne hstop, Nat.zero_add, Nat.add_zero]
  apply count_eventIf_le
  intro hc he
  subst he
  cases hack
  exact ⟨hc.1, rfl, hc.2.1⟩

/-- On another DLCI only an UA for a recorded command opens or closes. -/
theorem clientOnTerminal_count {event : ClientEvent} {type : ControlType} {d : UInt8}
    (hack : Acknowledges event type d) (client : CmuxClient options) (message : ControlMessage) :
    (clientOnTerminal client message).count event ≤
      if message.frameInfo.type = ControlType.ua ∧ message.frameInfo.dlci = d ∧
        (client.lastFrameInfo d).type = type then 1 else 0 := by
  simp only [clientOnTerminal]
  by_cases hua : message.frameInfo.type = ControlType.ua
  · rw [if_pos hua]
    by_cases hsabm : (client.lastFrameInfo message.frameInfo.dlci).type = ControlType.sabm
    · rw [if_pos hsabm]
      apply count_eventIf_le
      intro _ he
      subst he
      cases hack
      exact ⟨hua, rfl, hsabm⟩
    · rw [if_neg hsabm]
      by_cases hdisc : (client.lastFrameInfo message.frameInfo.dlci).type = ControlType.disc
      · rw [if_pos hdisc]
        apply count_eventIf_le
        intro _ he
        subst he
        cases hack
        exact ⟨hua, rfl, hdisc⟩
      · rw [if_neg hdisc]
        exact Nat.zero_le _
  · have hdata : ClientEvent.onTerminalData message.frameInfo.dlci message.data ≠ event := by
      rintro rfl
      cases hack
    rw [if_neg hua]
    split
    · rw [count_eventIf_of_ne hdata]
      exact Nat.zero_le _
    · exact Nat.zero_le _

/-- What a message makes of a callback: only an UA for the recorded command calls it. -/
theorem clientOnControlMessage_count {event : ClientEvent} {type : ControlType} {d : UInt8}
    (hack : Acknowledges event type d) (client : CmuxClient options) (message : ControlMessage)
    (heap : ℕ → UInt8) :
    (clientOnControlMessage client message heap).events.count event ≤
      if message.frameInfo.type = ControlType.ua ∧ message.frameInfo.dlci = d ∧
        (client.lastFrameInfo d).type = type then 1 else 0 := by
  simp only [clientOnControlMessage]
  split
  · exact Nat.zero_le _
  split
  next h0 =>
    rw [h0]
    exact clientOnControlChannel_count hack client message heap
  next => exact clientOnTerminal_count hack client message

/-- A call that sends makes no callback, and a command it sends pays for the one it owes. -/
theorem acknowledgedClient_send {event : ClientEvent} {type : ControlType} {d : UInt8}
    (hack : Acknowledges event type d) (hd : d.toNat < min options.maximumDlci.toNat 64)
    {input : ClientCall × (ℕ → UInt8)} {info : BuilderFrameInfo}
    (hinfo : input.1.frameInfo input.2 = some info)
    (state : (UInt8 → Bool) × CmuxClient options) :
    (acknowledgedClient options).Pays (fun o => o.events.count event)
      (fun o => o.events.countP (ClientEvent.sends type d)) (owed type d) state input := by
  obtain ⟨hstatuses, hevents⟩ := clientCall_sends hinfo state.2
  have hua : ¬ input.1.IsUa d := by
    intro h
    cases hcall : input.1 <;> simp [hcall, ClientCall.IsUa, ClientCall.frameInfo] at h hinfo
  have hlast : ((clientMachine options).step state.2 input).1.lastFrameInfo d =
      if info.dlci = d then info else state.2.lastFrameInfo d := by
    rw [CmuxClient.lastFrameInfo, clientMachine, hstatuses]
    exact lookup_sendFrameStatuses _ (by omega)
  have hcount : ((clientMachine options).step state.2 input).2.events.count event = 0 := by
    apply List.count_eq_zero.mpr
    intro hmem
    rw [clientMachine, hevents] at hmem
    obtain ⟨octets, -, rfl⟩ := by simpa using hmem
    cases hack
  simp only [Mealy.Pays, acknowledgedClient, Mealy.observe_step, owed, hlast, hcount, Nat.zero_add,
    acknowledged, if_neg hua, hinfo, Option.any_some]
  by_cases hdlci : info.dlci = d
  · subst hdlci
    by_cases htype : info.type = type
    · subst htype
      have hframe : IsFrame info.type info.dlci (builtFrame info input.2) :=
        isFrame_builtFrame (by omega) hack.pollFinal_clear input.2
      have hle : ¬ info.dlci > options.maximumDlci := by
        rw [gt_iff_lt, UInt8.lt_iff_toNat_lt]
        omega
      rw [clientMachine, hevents, sendFrameOctets_of_le info input.2 hle]
      simp [ClientEvent.sends, hframe]
    · simp [htype]
  · simp [hdlci]

theorem acknowledgedClient_step {event : ClientEvent} {type : ControlType} {d : UInt8}
    (hack : Acknowledges event type d) (hd : d.toNat < min options.maximumDlci.toNat 64)
    (state : (UInt8 → Bool) × CmuxClient options) (input : ClientCall × (ℕ → UInt8))
    (honce : AcknowledgesOnce d state input) :
    (acknowledgedClient options).Pays (fun o => o.events.count event)
      (fun o => o.events.countP (ClientEvent.sends type d)) (owed type d) state input := by
  cases hinfo : input.1.frameInfo input.2 with
  | some info => exact acknowledgedClient_send hack hd hinfo state
  | none =>
    obtain ⟨frame, hframe⟩ : ∃ frame, input.1 = ClientCall.receive frame := by
      cases hcall : input.1 with
      | receive frame => exact ⟨frame, rfl⟩
      | _ => simp [hcall, ClientCall.frameInfo] at hinfo
    have hcount := clientOnControlMessage_count hack state.2 frame.message input.2
    have hstep : (clientMachine options).step state.2 input =
        (state.2, clientOnControlMessage state.2 frame.message input.2) := by
      simp only [clientMachine, hframe]
      rfl
    have hua : input.1.IsUa d ↔ frame.message.frameInfo.type = ControlType.ua ∧
        frame.message.frameInfo.dlci = d := by rw [hframe, ClientCall.IsUa]
    simp only [Mealy.Pays, acknowledgedClient, Mealy.observe_step, hstep, owed, acknowledged, hinfo,
      Option.any_none]
    by_cases h : input.1.IsUa d
    · -- the callback of a command not acknowledged before was owed
      have howed : (state.2.lastFrameInfo d).type = type → state.1 d = false := fun htype =>
        honce h (hack.awaitsUa htype)
      rw [if_pos h, if_neg (by simp)]
      refine Nat.le_trans hcount ?_
      split_ifs <;> simp_all
    · rw [if_neg h]
      rw [hua] at h
      rw [if_neg fun hc => h ⟨hc.1, hc.2.1⟩] at hcount
      simp [Nat.le_zero.mp hcount]

theorem callbacks_le_framesSent {event : ClientEvent} {type : ControlType} {d : UInt8}
    (hack : Acknowledges event type d) (hd : d.toNat < min options.maximumDlci.toNat 64)
    {client : CmuxClient options} (hinit : cmuxClientInit options = some client)
    {inputs : List (ClientCall × (ℕ → UInt8))}
    (h : (acknowledgedClient options).Throughout (AcknowledgesOnce d) (fun _ => false, client)
      inputs) :
    callbacks event ((clientMachine options).outputs client inputs) ≤
      framesSent type d ((clientMachine options).outputs client inputs) := by
  have hfresh : owed type d (fun _ => false, client) = 0 := by
    have hlast : client.lastFrameInfo d = BuilderFrameInfo.zero := by
      unfold cmuxClientInit at hinit
      split at hinit
      · cases hinit
      · cases hinit
        exact lookup_replicate _ _ d
    rw [owed, hlast]
    cases hack <;> rfl
  have houtputs := (clientMachine options).outputs_observe acknowledged (fun _ => false) client
    inputs
  have hspent : callbacks event _ + owed type d _ ≤ framesSent type d _ + owed type d _ :=
    (acknowledgedClient options).spent_le_earned (acknowledgedClient_step hack hd) h
  rw [acknowledgedClient, houtputs, hfresh] at hspent
  exact Nat.le_trans (Nat.le_add_right _ _) hspent

/-- In every run in which no command is acknowledged twice, the client has called back for
an acknowledgement at most as often as it has sent the command. -/
theorem callbacks_le_requests {client : CmuxClient options}
    (hinit : cmuxClientInit options = some client) {inputs : List (ClientCall × (ℕ → UInt8))}
    (h : ∀ d : UInt8, (acknowledgedClient options).Throughout (AcknowledgesOnce d)
      (fun _ => false, client) inputs) :
    (∀ d : UInt8, 1 ≤ d → d.toNat < min options.maximumDlci.toNat 64 →
      callbacks (ClientEvent.onTerminalOpen d) ((clientMachine options).outputs client inputs) ≤
          framesSent ControlType.sabm d ((clientMachine options).outputs client inputs) ∧
        callbacks (ClientEvent.onTerminalClose d)
            ((clientMachine options).outputs client inputs) ≤
          framesSent ControlType.disc d ((clientMachine options).outputs client inputs)) ∧
    callbacks ClientEvent.onStart ((clientMachine options).outputs client inputs) ≤
      framesSent ControlType.sabm 0 ((clientMachine options).outputs client inputs) := by
  refine ⟨fun d hd hlt => ?_, ?_⟩
  · have hd0 := dlci_ne_zero hd
    exact ⟨callbacks_le_framesSent (Acknowledges.terminalOpen hd0) hlt hinit (h d),
      callbacks_le_framesSent (Acknowledges.terminalClose hd0) hlt hinit (h d)⟩
  · have hpos : (0 : UInt8).toNat < min options.maximumDlci.toNat 64 := by
      unfold cmuxClientInit at hinit
      split at hinit
      · cases hinit
      next hmax =>
        rw [UInt8.lt_iff_toNat_lt] at hmax
        simp at hmax ⊢
        omega
    exact callbacks_le_framesSent Acknowledges.start hpos hinit (h 0)

/-! ### A repeated acknowledgement -/

def uaFrame : ReceivedFrame where
  octets := builtFrame (requestFrame true 1 ControlType.ua none fun _ => 0) fun _ => 0
  valid := by decide +kernel

def openingCalls (acknowledgements : ℕ) : List (ClientCall × (ℕ → UInt8)) :=
  (ClientCall.terminalOpen 1 (some ⟨true, true, true⟩) ::
    List.replicate acknowledgements (ClientCall.receive uaFrame)).map fun call => (call, fun _ => 0)

theorem callbacks_le_requests_openingCalls : ∃ client,
    cmuxClientInit ⟨true, true, true, 64⟩ = some client ∧
      callbacks (ClientEvent.onTerminalOpen 1)
          ((clientMachine _).outputs client (openingCalls 1)) ≤
        framesSent ControlType.sabm 1 ((clientMachine _).outputs client (openingCalls 1)) :=
  ⟨_, rfl, ((callbacks_le_requests rfl (by decide +kernel)).1 1 (by decide) (by decide)).1⟩

/-- The second UA opens the terminal again. -/
theorem not_callbacks_le_requests_openingCalls : ∃ client,
    cmuxClientInit ⟨true, true, true, 64⟩ = some client ∧
      ¬ callbacks (ClientEvent.onTerminalOpen 1)
          ((clientMachine _).outputs client (openingCalls 2)) ≤
        framesSent ControlType.sabm 1 ((clientMachine _).outputs client (openingCalls 2)) :=
  ⟨_, rfl, by decide +kernel⟩

end Client
end Cmux
