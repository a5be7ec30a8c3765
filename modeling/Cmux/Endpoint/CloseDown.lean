import Cmux.Endpoint.Replies

/-! Close-down commands received and close-down responses sent. The server does not look at the
command/response bit, so a response is answered like a command. -/
namespace Cmux
open Access Access.Prog

/-! ### The frame of a close-down -/

/-- The frame whose body is a close-down service alone. -/
def closeDownFrame (pollFinal cr : Bool) : BuilderFrameInfo where
  cr := true
  dlci := 0
  ea := true
  pollFinal := pollFinal
  type := ControlType.uih
  length := 2
  frameDataBody := some (serviceOctets CmuxService.multiplexerCloseDown cr [])

theorem requestFrame_closeDown (pollFinal cr : Bool) (heap : ℕ → UInt8) :
    requestFrame pollFinal 0 ControlType.uih
        (some ⟨CmuxService.multiplexerCloseDown, cr, ServiceData.none⟩) heap =
      closeDownFrame pollFinal cr := by
  -- both octets of the service are written, whatever the memory held
  have hbody := cmuxServiceEncode_slice CmuxService.multiplexerCloseDown cr [] heap
  unfold requestFrame closeDownFrame
  congr 1
  exact congrArg some hbody

theorem sendFrameOctets_closeDown (maximumDlci : UInt8) (pollFinal cr : Bool) (heap : ℕ → UInt8) :
    sendFrameOctets maximumDlci (closeDownFrame pollFinal cr) heap =
      some (closeDownFrame pollFinal cr).octets := by
  have hle : ¬ (closeDownFrame pollFinal cr).dlci > maximumDlci := UInt8.not_lt.mpr UInt8.zero_le
  rw [sendFrameOctets_of_le _ heap hle, builtFrame_eq (by decide : ControlType.uih ≠ ControlType.ui)
    (by cases pollFinal <;> cases cr <;> decide)]

theorem isCloseDown_closeDownFrame : ∀ pollFinal cr cr' : Bool,
    IsCloseDown cr' (closeDownFrame pollFinal cr).octets ↔ cr' = cr := by
  decide +kernel

/-- An UA is no close-down. -/
theorem not_isCloseDown_ua {maximumDlci dlci : UInt8} {heap : ℕ → UInt8} (hd : dlci.toNat < 64)
    {octets : List UInt8} (h : octets ∈ sendFrameOctets maximumDlci
      (requestFrame true dlci ControlType.ua none heap) heap) (cr : Bool) :
    ¬ IsCloseDown cr octets := by
  obtain rfl := eq_of_mem_sendFrameOctets h
  have hua : IsFrame ControlType.ua dlci
      (builtFrame (requestFrame true dlci ControlType.ua none heap) heap) :=
    isFrame_builtFrame hd (by decide : ControlType.ua &&& controlTypePollFinal = 0) heap
  rintro ⟨huih, -⟩
  exact absurd ((isFrame_iff hua).mp huih).1 (by decide : ControlType.uih ≠ ControlType.ua)

theorem IsCloseDown.cr_unique {cr cr' : Bool} {octets : List UInt8} (h : IsCloseDown cr octets)
    (h' : IsCloseDown cr' octets) : cr = cr' := by
  obtain ⟨-, service, hservice, -, rfl⟩ := h
  obtain ⟨-, service', hservice', -, rfl⟩ := h'
  rw [Option.mem_unique hservice hservice']

/-! ### Counting -/

def ServerCall.received : ServerCall → List (List UInt8)
  | receive frame => [frame.octets]
  | _ => []

/-- The frames that a call brings: the one it receives, or else the one it asks to send. -/
def ServerCall.brings (maximumDlci : UInt8) (heap : ℕ → UInt8) : ServerCall → List (List UInt8)
  | receive frame => [frame.octets]
  | call => ((call.frameInfo heap).bind fun info =>
      sendFrameOctets maximumDlci info heap).toList

def closeDowns (cr : Bool) (frames : List (List UInt8)) : ℕ :=
  frames.countP fun octets => IsCloseDown cr octets

section Server
variable {options : CmuxServerOptions}

def responsesSent (outputs : List (Effects ServerEvent)) : ℕ :=
  (outputs.map fun effects => closeDowns false (serverSent effects)).sum

def commandsReceived (inputs : List (ServerCall × (ℕ → UInt8))) : ℕ :=
  (inputs.map fun input => closeDowns true input.1.received).sum

theorem closeDowns_singleton (cr : Bool) (octets : List UInt8) :
    closeDowns cr [octets] = if IsCloseDown cr octets then 1 else 0 := by
  simp only [closeDowns, List.countP_singleton, decide_eq_true_eq]

/-- A received frame is answered by a close-down response for every close-down it is. -/
theorem serverReceive_closeDowns (frame : ReceivedFrame) (server : CmuxServer options)
    (heap : ℕ → UInt8) :
    closeDowns false (serverSent (ServerCall.run (.receive frame) server heap).2) =
      closeDowns true [frame.octets] + closeDowns false [frame.octets] := by
  rw [serverSent, serverCall_sent, ServerCall.frameInfo, closeDowns_singleton,
    closeDowns_singleton]
  by_cases hclose : ∃ cr, IsCloseDown cr frame.octets
  · obtain ⟨cr, hcr⟩ := hclose
    obtain ⟨htype, h0⟩ := (frame.isFrame_iff _ _).mp hcr.1
    have hany := ((frame.serverRequest_closeDown htype heap).mpr ⟨cr, hcr⟩).2
    have hcommand : ¬ (ControlType.uih = ControlType.sabm ∨
        ControlType.uih = ControlType.disc ∧ frame.message.frameInfo.dlci ≠ 0) := by
      rintro (h | ⟨h, -⟩) <;> exact absurd h (by decide)
    rw [replyFrame, htype, if_neg hcommand, if_pos ⟨rfl, h0, hany⟩, h0, requestFrame_closeDown,
      Option.bind_some, sendFrameOctets_closeDown, Option.toList_some, closeDowns_singleton,
      if_pos ((isCloseDown_closeDownFrame true false false).mpr rfl)]
    cases cr with
    | true => rw [if_pos hcr, if_neg fun h => absurd (hcr.cr_unique h) (by decide)]
    | false => rw [if_pos hcr, if_neg fun h => absurd (hcr.cr_unique h) (by decide)]
  · have hnot (cr : Bool) : ¬ IsCloseDown cr frame.octets := fun h => hclose ⟨cr, h⟩
    rw [if_neg (hnot true), if_neg (hnot false)]
    cases hreply : replyFrame frame.message.frameInfo (serverRequest frame.message heap) heap with
    | none => rfl
    | some info =>
      -- the only other reply is an UA
      obtain rfl | ⟨huih, hany⟩ := replyFrame_eq_some hreply
      · apply List.countP_eq_zero.mpr
        intro octets hoctets
        rw [decide_eq_true_eq]
        exact not_isCloseDown_ua frame.dlci_lt (Option.mem_toList.mp hoctets) false
      · exact absurd ((frame.serverRequest_closeDown huih heap).mp hany) hclose

/-- One call sends a response for each command it receives and for each response it brings. -/
theorem serverCall_closeDowns (call : ServerCall) (server : CmuxServer options)
    (heap : ℕ → UInt8) : closeDowns false (serverSent (call.run server heap).2) =
      closeDowns true call.received +
        closeDowns false (call.brings options.maximumDlci heap) := by
  cases call with
  | receive frame => exact serverReceive_closeDowns frame server heap
  | _ =>
    rw [serverSent, serverCall_sent]
    exact (Nat.zero_add _).symm

/-- In every run there are no more close-down responses than commands exactly when no response
is received on the control channel and the application sends none. -/
theorem responsesSent_le_iff (server : CmuxServer options)
    (inputs : List (ServerCall × (ℕ → UInt8))) :
    responsesSent ((serverMachine options).outputs server inputs) ≤ commandsReceived inputs ↔
      ∀ input ∈ inputs, ∀ octets ∈ input.1.brings options.maximumDlci input.2,
        ¬ IsCloseDown false octets := by
  have hsum := (serverMachine options).outputs_sum_le_iff
    (f := fun effects => closeDowns false (serverSent effects))
    (a := fun input => closeDowns true input.1.received)
    (b := fun input => closeDowns false (input.1.brings options.maximumDlci input.2))
    (fun server input => serverCall_closeDowns input.1 server input.2) server inputs
  refine hsum.trans (forall₂_congr fun input _ => ?_)
  rw [closeDowns, List.countP_eq_zero]
  simp only [decide_eq_true_eq]

def closeDownResponse : ReceivedFrame where
  octets := (closeDownFrame true false).octets
  valid := by decide +kernel

/-- The server stops, and answers the response to its own command. -/
theorem not_responsesSent_le_closeDownResponse : ∃ server,
    cmuxServerInit ⟨true, true, true, 64⟩ = some server ∧
      ¬ responsesSent ((serverMachine _).outputs server
          [(.stop, fun _ => 0), (.receive closeDownResponse, fun _ => 0)]) ≤
        commandsReceived [(.stop, fun _ => 0), (.receive closeDownResponse, fun _ => 0)] :=
  ⟨_, rfl, by decide +kernel⟩

end Server
end Cmux
