import Cmux.Receiver.Streams

/-! What the receive path reads. The scan hands every end of the linear block that begins
with a flag to `check_valid_frame`, which reads the header without looking at the size. -/
namespace Cmux
open Access Access.Prog Framing

/-- The octets hold all of the header: five, or four with a one-octet length. -/
def HeaderFits (p : List UInt8) : Prop :=
  5 ≤ p.length ∨ p.length = 4 ∧ ¬ Extended (view p fun _ => 0)

instance (p : List UInt8) : Decidable (HeaderFits p) := inferInstanceAs (Decidable (_ ∨ _))

/-- Every flag the scan comes to, up to the first complete frame, is followed by all of a
header. -/
def HeadersFit (block : List UInt8) : Prop :=
  ∀ i < block.length, (∀ k < i, frameAt (block.drop k) = none) →
    block[i]? = some cmuxFrameHeaderFooter → HeaderFits (block.drop i)

instance (block : List UInt8) : Decidable (HeadersFit block) :=
  inferInstanceAs (Decidable (∀ i < block.length, _))

theorem scanReads_inRange_iff (rb : Lwrb) (beyond : Surroundings) {i : ℕ}
    (hi : i < (linearBlock rb).length)
    (hflag : (linearBlock rb)[i]? = some cmuxFrameHeaderFooter) :
    (scanReads rb beyond i).InRange ↔ HeaderFits ((linearBlock rb).drop i) := by
  have hlen : 0 < ((linearBlock rb).drop i).length := by rw [List.length_drop]; omega
  have h0 : view ((linearBlock rb).drop i) (beyond.scanBuffer i) 0 = cmuxFrameHeaderFooter := by
    rw [view_of_lt hlen, List.getElem_drop]
    simpa [List.getElem?_eq_getElem hi] using hflag
  have hiff := checkValidFrame_reads_iff ((linearBlock rb).drop i).length
    (view ((linearBlock rb).drop i) (beyond.scanBuffer i))
  simp only [h0, forall_const] at hiff
  refine Iff.trans hiff ?_
  have hx (h4 : ((linearBlock rb).drop i).length = 4) :
      Extended (view ((linearBlock rb).drop i) (beyond.scanBuffer i)) ↔
        Extended (view ((linearBlock rb).drop i) fun _ => 0) := by
    rw [Extended, Extended, view_of_lt (by omega), view_of_lt (by omega)]
  constructor
  · rintro (h | h | ⟨h4, h⟩)
    · omega
    · exact .inl h
    · exact .inr ⟨h4, fun hx' => h ((hx h4).mpr hx')⟩
  · rintro (h | ⟨h4, h⟩)
    · exact .inr (.inl h)
    · exact .inr (.inr ⟨h4, fun hx' => h ((hx h4).mp hx')⟩)

/-- The same from offset `i` on. -/
def HeadersFitFrom (block : List UInt8) (i : ℕ) : Prop :=
  ∀ j < block.length, i ≤ j → (∀ k < j, i ≤ k → frameAt (block.drop k) = none) →
    block[j]? = some cmuxFrameHeaderFooter → HeaderFits (block.drop j)

/-- The condition splits into offset `i` and the offsets behind it. -/
theorem headersFitFrom_succ {block : List UInt8} {i : ℕ} (hi : i < block.length) :
    HeadersFitFrom block i ↔
      (block[i]? = some cmuxFrameHeaderFooter → HeaderFits (block.drop i)) ∧
        (frameAt (block.drop i) = none → HeadersFitFrom block (i + 1)) := by
  constructor
  · intro hall
    refine ⟨hall i hi (Nat.le_refl i) fun k hk hik => by omega, ?_⟩
    intro hnone j hj hij hbefore
    apply hall j hj (by omega)
    intro k hk hik
    rcases Nat.eq_or_lt_of_le hik with rfl | hik
    · exact hnone
    · exact hbefore k hk hik
  · rintro ⟨hhere, hlater⟩ j hj hij hbefore
    rcases Nat.eq_or_lt_of_le hij with rfl | hij
    · exact hhere
    · exact hlater (hbefore i hij (Nat.le_refl i)) j hj hij
        fun k hk hik => hbefore k hk (by omega)

theorem scanFrom_inRange_iff (rb : Lwrb) (beyond : Surroundings) (n i : ℕ)
    (h : i + n = (linearBlock rb).length) :
    (∀ reads ∈ (scanFrom rb beyond (linearBlock rb).length n i).2, reads.InRange) ↔
      HeadersFitFrom (linearBlock rb) i := by
  induction n generalizing i with
  | zero =>
    simp only [scanFrom, List.not_mem_nil, false_implies, implies_true, true_iff]
    intro j hj hij
    omega
  | succ n ih =>
    have hi : i < (linearBlock rb).length := by omega
    have hrest := ih (i + 1) (by omega)
    rw [headersFitFrom_succ hi, scanFrom_succ rb beyond h]
    by_cases hflag : (linearBlock rb)[i]? = some cmuxFrameHeaderFooter
    · have hread := scanReads_inRange_iff rb beyond hi hflag
      cases hf : frameAt ((linearBlock rb).drop i) with
      | some m => simp [hflag, hread]
      | none => simp [hflag, hread, hrest]
    · have hf : frameAt ((linearBlock rb).drop i) = none := by
        cases hf : frameAt ((linearBlock rb).drop i) with
        | none => rfl
        | some m =>
          have hhead := frameAt_header hf
          rw [List.head?_drop] at hhead
          exact absurd hhead hflag
      simp [hflag, hf, hrest]

theorem scan_inRange_iff (rb : Lwrb) (beyond : Surroundings) :
    (∀ reads ∈ (scanIngressBufferForValidFrame rb beyond).2, reads.InRange) ↔
      HeadersFit (linearBlock rb) := by
  rw [scanIngressBufferForValidFrame, ← linearBlock_length]
  have h := scanFrom_inRange_iff rb beyond (linearBlock rb).length 0 (by omega)
  simpa only [Nat.zero_le, true_implies, HeadersFitFrom, HeadersFit] using h

/-- One call reads only what it has when the headers fit after its octets are stored. -/
def ReadsFit (cmux : CmuxBuffer) (call : IngestCall) : Prop :=
  HeadersFit (linearBlock (written cmux call))

instance (cmux : CmuxBuffer) (call : IngestCall) : Decidable (ReadsFit cmux call) :=
  inferInstanceAs (Decidable (HeadersFit _))

theorem ingesting_inRange_iff (cmux : CmuxBuffer) (call : IngestCall) :
    (∀ reads ∈ (ingesting.step cmux call).2.reads, reads.InRange) ↔ ReadsFit cmux call := by
  rw [ReadsFit, ← scan_inRange_iff (written cmux call) call.beyond]
  change (∀ reads ∈ (processIngress (written cmux call) call.beyond).2.2, reads.InRange) ↔ _
  cases hscan : recogniser.scan (linearBlock (written cmux call)) with
  | none => rw [processIngress_none hscan]
  | some q =>
    obtain ⟨-, -, -, own, hown, hreads⟩ := processIngress_some (n := q.2) hscan call.beyond
    rw [hreads]
    simp only [List.forall_mem_append]
    exact and_iff_left hown

/-- In every run the decoders stay inside the arrays they are handed exactly when in every
call the flags the scan comes to are followed by all of a header. -/
theorem reads_inRange_iff (ingressBuffer : Vector UInt8 128) (calls : List IngestCall) :
    (∀ o ∈ ingesting.outputs (cmuxBufferInit ingressBuffer) calls,
        ∀ reads ∈ o.reads, reads.InRange) ↔
      ingesting.Throughout ReadsFit (cmuxBufferInit ingressBuffer) calls :=
  ingesting.outputs_forall_iff (P := fun _ => True) (fun _ _ _ => trivial)
    (fun cmux call _ => ingesting_inRange_iff cmux call) trivial calls

/-- A lone flag: its control and length octets are read from beyond the scan buffer. -/
theorem not_reads_inRange_flag :
    ¬ ∀ o ∈ ingesting.outputs (cmuxBufferInit (Vector.replicate 128 0))
      (callsOf [[cmuxFrameHeaderFooter]]), ∀ reads ∈ o.reads, reads.InRange := by
  decide +kernel

end Cmux
