import Cmux.Endpoint.Server
import Cmux.Endpoint.Wire
import Cmux.Receiver.CleanLine

/-! What the server answers to a received frame: an UA to each command that opens or closes a
channel, and nothing to any other frame but a close-down. -/
namespace Cmux
open Access

def IsAcknowledgement (dlci : UInt8) (octets : List UInt8) : Prop :=
  frameAt octets = some octets.length ∧ (messageOf octets).frameInfo.type = ControlType.ua ∧
    (messageOf octets).frameInfo.dlci = dlci ∧ (messageOf octets).frameInfo.pollFinal = true

instance (dlci : UInt8) (octets : List UInt8) : Decidable (IsAcknowledgement dlci octets) :=
  inferInstanceAs (Decidable (_ ∧ _ ∧ _ ∧ _))

/-- The frame is answered as it has to be: SABM and DISC with one UA on their own DLCI, and
every other frame but a close-down with nothing. -/
structure AnsweredOnce (frame : ReceivedFrame) (sent : List (List UInt8)) : Prop where
  command : frame.message.frameInfo.type = ControlType.sabm ∨
      frame.message.frameInfo.type = ControlType.disc →
    ∃ octets, sent = [octets] ∧ IsAcknowledgement frame.message.frameInfo.dlci octets
  other : frame.message.frameInfo.type = ControlType.ua ∨
      frame.message.frameInfo.type = ControlType.dm ∨
      frame.message.frameInfo.type = ControlType.ui ∨
      frame.message.frameInfo.type = ControlType.uih ∧ ¬ (∃ cr, IsCloseDown cr frame.octets) →
    sent = []

/-! ### The replies -/

def uaReply (dlci : UInt8) (heap : ℕ → UInt8) : ShortFrame where
  info := requestFrame true dlci ControlType.ua none heap
  prior := heap
  not_ui := (by decide : ControlType.ua &&& ~~~controlTypePollFinal ≠ ControlType.ui)
  complete := rfl
  short := (by decide : cmuxFrameBuilderGetFrameLength 0 ≤ 127)

theorem uaReply_isAcknowledgement {dlci : UInt8} (h : dlci.toNat < 64) (heap : ℕ → UInt8) :
    IsAcknowledgement dlci (uaReply dlci heap).octets := by
  obtain ⟨hmessage, -⟩ := (uaReply dlci heap).messageOf_octets
  refine ⟨(uaReply dlci heap).recognised, ?_, ?_, ?_⟩
  · rw [hmessage]
    exact type_pollFinal_clear (by decide : ControlType.ua &&& controlTypePollFinal = 0)
  · rw [hmessage]
    exact dlci_sixBits_iff.mpr h
  · rw [hmessage]
    rfl

section Received
variable (frame : ReceivedFrame)

/-- An address field holds six bits. -/
theorem ReceivedFrame.dlci_lt : frame.message.frameInfo.dlci.toNat < 64 := by
  have hsix (address : UInt8) : (address >>> 2).toNat < 64 := by
    have haddress : (address >>> 2).toNat = address.toNat / 4 := Nat.shiftRight_eq_div_pow _ 2
    have hoctet := address.toNat_lt
    omega
  exact hsix _

/-- A received UIH frame is answered when it is a close-down, be it a command or a response. -/
theorem ReceivedFrame.serverRequest_closeDown
    (htype : frame.message.frameInfo.type = ControlType.uih) (heap : ℕ → UInt8) :
    frame.message.frameInfo.dlci = 0 ∧ (serverRequest frame.message heap).any (fun request =>
        request.service = CmuxService.multiplexerCloseDown) ↔
      ∃ cr, IsCloseDown cr frame.octets := by
  rw [frame.isCloseDown_iff htype heap, serverRequest]
  by_cases hrequest : frame.message.frameInfo.length > 0 ∧ frame.message.frameInfo.dlci = 0
  · rw [if_pos hrequest, Option.any_some, decide_eq_true_eq, and_iff_right hrequest.1]
  · rw [if_neg hrequest]
    constructor
    · rintro ⟨-, hany⟩
      cases hany
    · rintro ⟨h0, hpos, -⟩
      exact absurd ⟨hpos, h0⟩ hrequest

/-- A frame that is no command and no close-down is not answered. -/
theorem ReceivedFrame.replyFrame_none
    (htype : frame.message.frameInfo.type ≠ ControlType.sabm ∧
      frame.message.frameInfo.type ≠ ControlType.disc)
    (hclose : frame.message.frameInfo.type = ControlType.uih →
      ¬ ∃ cr, IsCloseDown cr frame.octets) (heap : ℕ → UInt8) :
    replyFrame frame.message.frameInfo (serverRequest frame.message heap) heap = none := by
  have hcommand : ¬ (frame.message.frameInfo.type = ControlType.sabm ∨
      frame.message.frameInfo.type = ControlType.disc ∧ frame.message.frameInfo.dlci ≠ 0) := by
    rintro (h | ⟨h, -⟩)
    · exact htype.1 h
    · exact htype.2 h
  rw [replyFrame, if_neg hcommand, if_neg]
  rintro ⟨huih, hany⟩
  exact hclose huih ((frame.serverRequest_closeDown huih heap).mp hany)

end Received

section Server
variable {options : CmuxServerOptions}

def serverSent (effects : Effects ServerEvent) : List (List UInt8) :=
  effects.events.filterMap ServerEvent.sent?

/-- The one command that is left without a reply: a DISC on the control channel. -/
def ReceivedFrame.ClosesControl (frame : ReceivedFrame) : Prop :=
  frame.message.frameInfo.type = ControlType.disc ∧ frame.message.frameInfo.dlci = 0

instance (frame : ReceivedFrame) : Decidable frame.ClosesControl :=
  inferInstanceAs (Decidable (_ ∧ _))

/-- The test on the DLCI comes before the reply. -/
theorem replyFrame_closesControl {frame : ReceivedFrame} (h : frame.ClosesControl)
    (request : Option (CmuxServicesRequest ℕ)) (heap : ℕ → UInt8) :
    replyFrame frame.message.frameInfo request heap = none := by
  obtain ⟨htype, h0⟩ := h
  have hcommand : ¬ (ControlType.disc = ControlType.sabm ∨
      ControlType.disc = ControlType.disc ∧ frame.message.frameInfo.dlci ≠ 0) := by
    rintro (h | ⟨-, h⟩)
    · exact absurd h (by decide)
    · exact h h0
  have huih : ControlType.disc ≠ ControlType.uih := by decide
  rw [replyFrame, htype, if_neg hcommand, if_neg fun h => huih h.1]

theorem serverReceive_sent (frame : ReceivedFrame)
    (hd : frame.message.frameInfo.dlci < options.maximumDlci) (server : CmuxServer options)
    (heap : ℕ → UInt8) :
    serverSent (ServerCall.run (.receive frame) server heap).2 =
      ((replyFrame frame.message.frameInfo (serverRequest frame.message heap) heap).map
        fun info => builtFrame info heap).toList := by
  have hgt : ¬ frame.message.frameInfo.dlci > options.maximumDlci :=
    UInt8.not_lt.mpr (UInt8.le_of_lt hd)
  rw [serverSent, serverCall_sent, ServerCall.frameInfo]
  cases hinfo : replyFrame frame.message.frameInfo (serverRequest frame.message heap) heap with
  | none => rfl
  | some info =>
    have hdlci := replyFrame_dlci hinfo
    rw [Option.bind_some, sendFrameOctets_of_le info heap (hdlci ▸ hgt)]
    rfl

theorem serverReceive_answeredOnce_iff (frame : ReceivedFrame)
    (hd : frame.message.frameInfo.dlci < options.maximumDlci) (server : CmuxServer options)
    (heap : ℕ → UInt8) :
    AnsweredOnce frame (serverSent (ServerCall.run (.receive frame) server heap).2) ↔
      ¬ frame.ClosesControl := by
  rw [serverReceive_sent frame hd]
  constructor
  · rintro ⟨hcommand, -⟩ ⟨htype, h0⟩
    obtain ⟨octets, hsent, -⟩ := hcommand (Or.inr htype)
    rw [replyFrame_closesControl ⟨htype, h0⟩] at hsent
    cases hsent
  · intro hcloses
    constructor
    · intro hcommand
      have hreply : frame.message.frameInfo.type = ControlType.sabm ∨
          frame.message.frameInfo.type = ControlType.disc ∧ frame.message.frameInfo.dlci ≠ 0 :=
        hcommand.imp id fun hdisc => ⟨hdisc, fun h0 => hcloses ⟨hdisc, h0⟩⟩
      rw [replyFrame, if_pos hreply]
      exact ⟨_, rfl, uaReply_isAcknowledgement frame.dlci_lt heap⟩
    · have hnone {type : ControlType} (h : frame.message.frameInfo.type = type)
          (htype : type ≠ ControlType.sabm ∧ type ≠ ControlType.disc)
          (hclose : type = ControlType.uih → ¬ ∃ cr, IsCloseDown cr frame.octets) :
          replyFrame frame.message.frameInfo (serverRequest frame.message heap) heap = none :=
        frame.replyFrame_none (h ▸ htype) (h ▸ hclose) heap
      intro hother
      rcases hother with hua | hdm | hui | ⟨huih, hclose⟩
      · rw [hnone hua (by decide) fun h => absurd h (by decide)]
        rfl
      · rw [hnone hdm (by decide) fun h => absurd h (by decide)]
        rfl
      · rw [hnone hui (by decide) fun h => absurd h (by decide)]
        rfl
      · rw [hnone huih (by decide) fun _ => hclose]
        rfl

/-- Every received frame below the maximum is answered as it has to be. -/
def AnswersOnce (server : CmuxServer options) (inputs : List (ServerCall × (ℕ → UInt8))) : Prop :=
  List.Forall₂ (fun input effects => ∀ frame, input.1 = ServerCall.receive frame →
    frame.message.frameInfo.dlci < options.maximumDlci → AnsweredOnce frame (serverSent effects))
    inputs ((serverMachine options).outputs server inputs)

/-- In every run each command is acknowledged once, and nothing else is answered, exactly when
no frame closes the control channel. -/
theorem answersOnce_iff (server : CmuxServer options) (inputs : List (ServerCall × (ℕ → UInt8))) :
    AnswersOnce server inputs ↔ ∀ input ∈ inputs, ∀ frame, input.1 = ServerCall.receive frame →
      frame.message.frameInfo.dlci < options.maximumDlci → ¬ frame.ClosesControl := by
  refine Mealy.outputs_forall₂_iff _ (fun server input => ?_) server inputs
  apply forall_congr'
  intro frame
  apply forall_congr'
  intro hinput
  apply forall_congr'
  intro hd
  have hstep : (serverMachine options).step server input =
      ServerCall.run (.receive frame) server input.2 := by rw [← hinput]; rfl
  rw [hstep]
  exact serverReceive_answeredOnce_iff frame hd server input.2

def discOnControl : ReceivedFrame where
  octets := builtFrame (requestFrame true 0 ControlType.disc none fun _ => 0) fun _ => 0
  valid := by decide +kernel

/-- A DISC on the control channel gets no UA. -/
theorem not_answersOnce_discOnControl : ∃ server,
    cmuxServerInit ⟨true, true, true, 64⟩ = some server ∧
      ¬ AnswersOnce server [(.receive discOnControl, fun _ => 0)] := by
  refine ⟨_, rfl, ?_⟩
  unfold AnswersOnce
  intro h
  obtain ⟨hanswered, -⟩ := List.forall₂_cons.mp h
  obtain ⟨octets, hsent, -⟩ := (hanswered _ rfl (by decide +kernel)).command
    (Or.inr (by decide +kernel))
  have hnone : ∀ server : CmuxServer ⟨true, true, true, 64⟩,
      serverSent (ServerCall.run (.receive discOnControl) server fun _ => 0).2 = [] := by
    intro server
    rw [serverReceive_sent discOnControl (by decide +kernel)]
    decide +kernel
  exact absurd ((hnone _).symm.trans hsent) (List.cons_ne_nil _ _).symm

end Server
end Cmux
