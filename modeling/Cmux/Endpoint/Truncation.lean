import Cmux.Endpoint.Client
import Cmux.Endpoint.Server
import Cmux.Receiver.Conservation

/-! What becomes of the data handed to `cmux_client_terminal_send` and `cmux_server_terminal_send`.
The length is cut to the sixteen bits of the record and to the fifteen of the length octets, and
nothing is said of it. -/
namespace Cmux
open Access Access.Prog BuilderFrameInfo

/-- The length octets read as the encoder writes them: seven bits, and then the next eight. -/
def builderLength (m : ℕ → UInt8) : ℕ :=
  if Extended m then (m 3).toNat / 2 + 128 * (m 4).toNat else (m 3).toNat / 2

/-- Nothing is handed to the interface, or one frame with these `len` octets and this length. -/
def HandsExactly (sent : List (List UInt8)) (data : List UInt8) (len : ℕ) : Prop :=
  sent = [] ∨ ∃ octets, sent = [octets] ∧ information octets = data.take len ∧
    builderLength (view octets fun _ => 0) = len

/-- Fifteen bits of the length reach the wire. -/
theorem builderLength_octets (info : BuilderFrameInfo) :
    builderLength (view info.octets fun _ => 0) = info.length.toNat % 32768 := by
  have h := encodes_octets info fun _ => 0
  have hlen := info.length.toNat_lt
  have hgt : info.length > 127 ↔ info.length.toNat > 127 := UInt16.lt_iff_toNat_lt
  have hl := (encoded_header h).2.2.2
  rw [builderLength]
  simp only [extended_iff]
  by_cases hlong : info.length.toNat > 127
  · simp only [lengthOctets, hgt, hlong, if_true, List.length_cons, List.length_nil, slice_succ,
      slice_zero, List.cons.injEq, and_true] at hl
    rw [hl.1, hl.2, lowLengthOctet_toNat, highLengthOctet_toNat, if_pos (by omega)]
    omega
  · simp only [lengthOctets, hgt, hlong, if_false, List.length_cons, List.length_nil, slice_succ,
      slice_zero, List.cons.injEq, and_true] at hl
    rw [hl, shortLengthOctet_toNat, if_neg (by omega)]
    omega

/-- The body is what stands in the information field. -/
theorem information_octets (info : BuilderFrameInfo) :
    information info.octets = info.bodyOctets := by
  have hindex := (encoded_lengthField (encodes_octets info fun _ => 0)).1
  have hheader : (cmuxFrameHeaderFooter :: info.coveredOctets).length =
      3 + info.lengthOctets.length := by
    simp only [coveredOctets, List.length_cons]
    omega
  rw [information, hindex, ← hheader]
  have hlength : info.octets.length - 2 =
      (cmuxFrameHeaderFooter :: info.coveredOctets ++ info.bodyOctets).length := by
    simp only [octets, List.length_append, List.length_cons, List.length_nil]
    omega
  rw [hlength, octets, List.take_left, List.drop_left]

section Data
variable {data : List UInt8} {len : ℕ} (h : len ≤ data.length)
include h

theorem dataFrame_complete (cr : Bool) (dlci : UInt8) :
    (dataFrame cr dlci (some data) len).Complete := by
  have hcut : (len.toUInt16).toNat ≤ len := Nat.mod_le _ _
  change (data.take (len.toUInt16).toNat).length = (len.toUInt16).toNat
  rw [List.length_take]
  omega

/-- The frame of the data carries all of it exactly when the length has fifteen bits. -/
theorem dataFrame_exact_iff {maximumDlci dlci : UInt8} (hdlci : dlci ≤ maximumDlci) (cr : Bool)
    (heap : ℕ → UInt8) : HandsExactly
      (sendFrameOctets maximumDlci (dataFrame cr dlci (some data) len) heap).toList data len ↔
        len ≤ 32767 := by
  have hbuilt : builtFrame (dataFrame cr dlci (some data) len) heap =
      (dataFrame cr dlci (some data) len).octets :=
    builtFrame_eq (show ControlType.uih ≠ ControlType.ui by decide) (dataFrame_complete h cr dlci)
      heap
  have hnat : (dataFrame cr dlci (some data) len).length.toNat = len % 65536 := rfl
  rw [sendFrameOctets_of_le _ heap (UInt8.not_lt.mpr hdlci), hbuilt, Option.toList_some]
  constructor
  · rintro (hnone | ⟨octets, hsent, -, hlength⟩)
    · cases hnone
    · obtain rfl := List.singleton_inj.mp hsent
      rw [builderLength_octets, hnat] at hlength
      omega
  · intro hlen
    refine Or.inr ⟨_, rfl, ?_, ?_⟩
    · rw [information_octets]
      change data.take (dataFrame cr dlci (some data) len).length.toNat = _
      rw [hnat, Nat.mod_eq_of_lt (by omega)]
    · rw [builderLength_octets, hnat]
      omega

end Data

section Both
variable {clientOptions : CmuxClientOptions} {serverOptions : CmuxServerOptions}

/-- On an admitted DLCI both endpoints send all of the data, with its length, exactly when the
length has fifteen bits. -/
theorem terminalSend_exact_iff (client : CmuxClient clientOptions)
    (server : CmuxServer serverOptions) (dlci : UInt8) (data : List UInt8) (len : ℕ)
    (h : len ≤ data.length) (heap : ℕ → UInt8) :
    (dlci ≤ clientOptions.maximumDlci → (HandsExactly ((cmuxClientTerminalSend client dlci
      (some data) len heap).2.events.filterMap ClientEvent.sent?) data len ↔ len ≤ 32767)) ∧
    (dlci ≤ serverOptions.maximumDlci → (HandsExactly ((cmuxServerTerminalSend server dlci
      (some data) len heap).2.events.filterMap ServerEvent.sent?) data len ↔ len ≤ 32767)) := by
  constructor
  · intro hdlci
    rw [← dataFrame_exact_iff h hdlci true heap]
    exact Iff.of_eq (congrArg (HandsExactly · data len)
      (clientCall_sent (.terminalSend dlci (some data) len) client heap))
  · intro hdlci
    rw [← dataFrame_exact_iff h hdlci false heap]
    exact Iff.of_eq (congrArg (HandsExactly · data len)
      (serverCall_sent (.terminalSend dlci (some data) len) server heap))

end Both

/-- Two octets on channel 1. -/
theorem terminalSend_exact_two : ∃ client server,
    cmuxClientInit ⟨true, true, true, 8⟩ = some client ∧
      cmuxServerInit ⟨true, true, true, 8⟩ = some server ∧
      (HandsExactly ((cmuxClientTerminalSend client 1 (some [0x41, 0x54]) 2
        fun _ => 0).2.events.filterMap ClientEvent.sent?) [0x41, 0x54] 2 ↔ 2 ≤ 32767) ∧
      (HandsExactly ((cmuxServerTerminalSend server 1 (some [0x41, 0x54]) 2
        fun _ => 0).2.events.filterMap ServerEvent.sent?) [0x41, 0x54] 2 ↔ 2 ≤ 32767) := by
  refine ⟨_, _, rfl, rfl, ?_, ?_⟩
  · exact (terminalSend_exact_iff _ ((cmuxServerInit ⟨true, true, true, 8⟩).get rfl) 1
      [0x41, 0x54] 2 (by decide) fun _ => 0).1 (by decide)
  · exact (terminalSend_exact_iff ((cmuxClientInit ⟨true, true, true, 8⟩).get rfl) _ 1
      [0x41, 0x54] 2 (by decide) fun _ => 0).2 (by decide)

/-- Of 65536 octets a frame without an information field is sent. -/
theorem not_terminalSend_exact_65536 : ∃ client,
    cmuxClientInit ⟨true, true, true, 8⟩ = some client ∧
      ¬ HandsExactly ((cmuxClientTerminalSend client 1 (some (List.replicate 65536 0)) 65536
        fun _ => 0).2.events.filterMap ClientEvent.sent?) (List.replicate 65536 0) 65536 := by
  refine ⟨_, rfl, ?_⟩
  rw [show ((cmuxClientTerminalSend _ 1 (some (List.replicate 65536 0)) 65536
      fun _ => 0).2.events.filterMap ClientEvent.sent?) = _ from
    clientCall_sent (.terminalSend 1 (some (List.replicate 65536 0)) 65536) _ fun _ => 0]
  intro h
  have hlen : 65536 ≤ (List.replicate 65536 (0 : UInt8)).length := by
    rw [List.length_replicate]
  exact absurd ((dataFrame_exact_iff hlen (by decide) true fun _ => 0).mp h) (by decide)

end Cmux
