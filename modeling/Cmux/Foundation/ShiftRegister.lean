import Mathlib.Algebra.Ring.Parity
import Mathlib.Data.List.Basic
import Mathlib.Logic.Function.Iterate

/-! Checking sequences from a shift register of any width. A bit enters at the low end, and the
generator is added whenever a one leaves there. The register is linear in what it was fed, so two
strings give the same sequence exactly when their difference leaves the empty register empty. -/
namespace ShiftRegister
variable {w : ℕ}

/-- A register that holds a bit at its low end. -/
def bit (w : ℕ) (b : Bool) : BitVec w := if b then 1#w else 0#w

def shift (g r : BitVec w) : BitVec w := if r.getLsbD 0 then (r >>> 1) ^^^ g else r >>> 1

def feedBit (g r : BitVec w) (b : Bool) : BitVec w := shift g (r ^^^ bit w b)

/-- The register after a string of bits. -/
def feed (g r : BitVec w) (bs : List Bool) : BitVec w := bs.foldl (feedBit g) r

/-- The register whose low bits are those of a string. -/
def word (w : ℕ) : List Bool → BitVec w
  | [] => 0#w
  | b :: bs => bit w b ^^^ (word w bs <<< 1)

/-- Whether the number of ones among the low `n` bits is odd. -/
def parityBelow (r : BitVec w) : ℕ → Bool
  | 0 => false
  | n + 1 => r.getLsbD n ^^ parityBelow r n

def parity (r : BitVec w) : Bool := parityBelow r w

section Linear
variable (g : BitVec w)

theorem feed_nil (r : BitVec w) : feed g r [] = r := rfl

theorem feed_cons (r : BitVec w) (b : Bool) (bs : List Bool) :
    feed g r (b :: bs) = feed g (feedBit g r b) bs := rfl

theorem feed_append (r : BitVec w) (bs cs : List Bool) :
    feed g r (bs ++ cs) = feed g (feed g r bs) cs := List.foldl_append

theorem bit_xor (b c : Bool) : bit w (b ^^ c) = bit w b ^^^ bit w c := by
  cases b <;> cases c <;> simp [bit]

theorem shift_xor (a b : BitVec w) : shift g (a ^^^ b) = shift g a ^^^ shift g b := by
  unfold shift
  rw [BitVec.getLsbD_xor, BitVec.ushiftRight_xor_distrib]
  cases a.getLsbD 0 <;> cases b.getLsbD 0
  · rfl
  · exact BitVec.xor_assoc _ _ _
  · simp only [Bool.true_xor, Bool.not_false, if_true, Bool.false_eq_true, if_false]
    rw [BitVec.xor_assoc, BitVec.xor_assoc, BitVec.xor_comm g]
  · simp only [Bool.true_xor, Bool.not_true, if_true, Bool.false_eq_true, if_false]
    rw [BitVec.xor_comm (b >>> 1) g, ← BitVec.xor_assoc, BitVec.xor_assoc (a >>> 1),
      BitVec.xor_self, BitVec.xor_zero]

theorem shift_zero : shift g 0#w = 0#w := by
  simp [shift]

theorem feedBit_xor (a b : BitVec w) (x y : Bool) :
    feedBit g (a ^^^ b) (x ^^ y) = feedBit g a x ^^^ feedBit g b y := by
  rw [feedBit, feedBit, feedBit, bit_xor, ← shift_xor]
  congr 1
  rw [BitVec.xor_assoc, ← BitVec.xor_assoc b, BitVec.xor_comm b, BitVec.xor_assoc (bit w x),
    ← BitVec.xor_assoc a]

/-- Feeding two strings at once. -/
theorem feed_xor (a b : BitVec w) {xs ys : List Bool} (h : xs.length = ys.length) :
    feed g (a ^^^ b) (List.zipWith Bool.xor xs ys) = feed g a xs ^^^ feed g b ys := by
  induction xs generalizing a b ys with
  | nil =>
    obtain rfl : ys = [] := List.length_eq_zero_iff.mp h.symm
    rfl
  | cons x xs ih =>
    cases ys with
    | nil => cases h
    | cons y ys =>
      rw [List.zipWith_cons_cons, feed_cons, feedBit_xor, ih _ _ (Nat.succ.inj h)]
      rfl

/-- Two strings leave the register alike exactly when their difference leaves it empty. -/
theorem feed_eq_iff (r : BitVec w) {xs ys : List Bool} (h : xs.length = ys.length) :
    feed g r xs = feed g r ys ↔ feed g 0#w (List.zipWith Bool.xor xs ys) = 0#w := by
  have hxor := feed_xor g r r h
  rw [BitVec.xor_self] at hxor
  rw [hxor, BitVec.xor_eq_zero_iff]

/-- Zeros do not fill an empty register. -/
theorem feed_zeros {bs : List Bool} (h : true ∉ bs) : feed g 0#w bs = 0#w := by
  induction bs with
  | nil => rfl
  | cons b bs ih =>
    rw [List.mem_cons, not_or] at h
    obtain rfl : b = false := by simpa using Ne.symm h.1
    have hstep : feedBit g 0#w false = 0#w := by
      rw [feedBit, bit, if_neg Bool.false_ne_true, BitVec.xor_zero, shift_zero]
    rw [feed_cons, hstep, ih h.2]

end Linear

/-! ### Bursts -/

section Burst
variable {g : BitVec w} (hg : g.msb = true)
include hg

/-- A generator with its high bit set loses nothing in a shift. -/
theorem eq_zero_of_shift {r : BitVec w} (h : shift g r = 0#w) : r = 0#w := by
  have hw : 0 < w := by
    by_contra hw
    obtain rfl : w = 0 := by omega
    simp [BitVec.msb_eq_getLsbD_last] at hg
  have htop : g.getLsbD (w - 1) = true := by rwa [← BitVec.msb_eq_getLsbD_last]
  have hlow : r.getLsbD 0 = false := by
    by_contra hone
    rw [Bool.not_eq_false] at hone
    rw [shift, if_pos hone] at h
    have hbit := congrArg (fun x => BitVec.getLsbD x (w - 1)) h
    simp [htop, show 1 + (w - 1) = w by omega] at hbit
  rw [shift, hlow, if_neg Bool.false_ne_true] at h
  apply BitVec.eq_of_getLsbD_eq
  intro i hi
  rw [BitVec.getLsbD_zero]
  cases i with
  | zero => exact hlow
  | succ i =>
    have hbit := congrArg (fun x => BitVec.getLsbD x i) h
    simpa [Nat.add_comm] using hbit

theorem shift_injective : Function.Injective (shift g) := by
  intro a b h
  rw [← BitVec.xor_eq_zero_iff] at h ⊢
  rw [← shift_xor] at h
  exact eq_zero_of_shift hg h

end Burst

theorem word_getLsbD (w : ℕ) (bs : List Bool) {i : ℕ} (hi : i < w) :
    (word w bs).getLsbD i = bs[i]?.getD false := by
  induction bs generalizing i with
  | nil => simp [word]
  | cons b bs ih =>
    have hbit : (bit w b).getLsbD i = (decide (i = 0) && b) := by
      cases b <;> simp [bit, hi]
    rw [word, BitVec.getLsbD_xor, hbit]
    cases i with
    | zero => simp
    | succ i =>
      have hrest := ih (Nat.lt_of_succ_lt hi)
      rw [BitVec.getLsbD_shiftLeft, decide_eq_true hi, Nat.add_sub_cancel, hrest]
      simp

/-- A string no longer than the register may as well stand in it from the beginning. -/
theorem feed_eq_iterate (g r : BitVec w) {bs : List Bool} (h : bs.length ≤ w) :
    feed g r bs = (shift g)^[bs.length] (r ^^^ word w bs) := by
  induction bs generalizing r with
  | nil => simp [feed_nil, word]
  | cons b bs ih =>
    have hlen : bs.length < w := h
    -- the last place is free, so the string comes back from its own shift
    have hback : shift g (word w bs <<< 1) = word w bs := by
      have hlow : (word w bs <<< 1).getLsbD 0 = false := by simp
      rw [shift, hlow, if_neg Bool.false_ne_true]
      apply BitVec.eq_of_getLsbD_eq
      intro i hi
      rw [BitVec.getLsbD_ushiftRight, BitVec.getLsbD_shiftLeft]
      by_cases hlast : 1 + i < w
      · simp [hlast]
      · rw [word_getLsbD w bs hi, List.getElem?_eq_none (by omega)]
        simp [hlast]
    rw [feed_cons, ih _ (Nat.le_of_lt hlen), feedBit, List.length_cons,
      Function.iterate_succ_apply, word, ← BitVec.xor_assoc, shift_xor g (r ^^^ bit w b), hback]

section Detection
variable {g : BitVec w} (hg : g.msb = true)
include hg

/-- A string with a one that is no longer than the register does not leave it empty. -/
theorem feed_ne_zero {bs : List Bool} (hlen : bs.length ≤ w) (h : true ∈ bs) :
    feed g 0#w bs ≠ 0#w := by
  intro hzero
  have hiterate : (shift g)^[bs.length] (word w bs) = (shift g)^[bs.length] 0#w := by
    rw [Function.iterate_fixed (shift_zero g), ← hzero, feed_eq_iterate g _ hlen, BitVec.zero_xor]
  have hword := (shift_injective hg).iterate bs.length hiterate
  obtain ⟨i, hi, hone⟩ := List.getElem_of_mem h
  have hbit := word_getLsbD w bs (Nat.lt_of_lt_of_le hi hlen)
  rw [hword, BitVec.getLsbD_zero, List.getElem?_eq_getElem hi, hone] at hbit
  cases hbit

theorem feed_zeros_eq_zero {r : BitVec w} {bs : List Bool} (hbs : true ∉ bs)
    (h : feed g r bs = 0#w) : r = 0#w := by
  induction bs generalizing r with
  | nil => exact h
  | cons b bs ih =>
    rw [List.mem_cons, not_or] at hbs
    obtain rfl : b = false := by simpa using Ne.symm hbs.1
    have hstep := ih hbs.2 h
    rw [feedBit, bit, if_neg Bool.false_ne_true, BitVec.xor_zero] at hstep
    exact eq_zero_of_shift hg hstep

/-- A string whose ones all stand within the width of the register does not leave it empty. -/
theorem feed_burst {bs : List Bool} {i : ℕ}
    (hburst : ∀ k, bs[k]? = some true → i ≤ k ∧ k < i + w) (h : true ∈ bs) :
    feed g 0#w bs ≠ 0#w := by
  have hbefore : true ∉ bs.take i := by
    intro hmem
    obtain ⟨k, hk, hone⟩ := List.getElem_of_mem hmem
    rw [List.length_take] at hk
    rw [List.getElem_take] at hone
    have := hburst k (by rw [List.getElem?_eq_getElem (by omega), hone])
    omega
  have hbehind : true ∉ (bs.drop i).drop w := by
    intro hmem
    obtain ⟨k, hk, hone⟩ := List.getElem_of_mem hmem
    rw [List.length_drop, List.length_drop] at hk
    rw [List.getElem_drop, List.getElem_drop] at hone
    have := hburst (i + (w + k)) (by rw [List.getElem?_eq_getElem (by omega), hone])
    omega
  have hsplit : bs = bs.take i ++ ((bs.drop i).take w ++ (bs.drop i).drop w) := by
    rw [List.take_append_drop, List.take_append_drop]
  have hwithin : true ∈ (bs.drop i).take w := by
    rw [hsplit, List.mem_append, List.mem_append] at h
    exact (h.resolve_left hbefore).resolve_right hbehind
  rw [hsplit, feed_append, feed_append, feed_zeros g hbefore]
  intro hzero
  have hlen : ((bs.drop i).take w).length ≤ w := by
    rw [List.length_take]
    exact Nat.min_le_left _ _
  exact feed_ne_zero hg hlen hwithin (feed_zeros_eq_zero hg hbehind hzero)

end Detection

/-! ### Parity -/

theorem parityBelow_xor (a b : BitVec w) (n : ℕ) :
    parityBelow (a ^^^ b) n = (parityBelow a n ^^ parityBelow b n) := by
  induction n with
  | zero => rfl
  | succ n ih =>
    rw [parityBelow, parityBelow, parityBelow, BitVec.getLsbD_xor, ih]
    cases a.getLsbD n <;> cases b.getLsbD n <;> simp

theorem parityBelow_ushiftRight (r : BitVec w) (n : ℕ) :
    parityBelow (r >>> 1) n = (r.getLsbD 0 ^^ parityBelow r (n + 1)) := by
  induction n with
  | zero => simp [parityBelow]
  | succ n ih =>
    have hsucc : parityBelow r (n + 1 + 1) = (r.getLsbD (n + 1) ^^ parityBelow r (n + 1)) := rfl
    rw [parityBelow, ih, BitVec.getLsbD_ushiftRight, hsucc, Nat.add_comm 1]
    cases r.getLsbD 0 <;> cases r.getLsbD (n + 1) <;> simp

theorem parity_bit (hw : 0 < w) (b : Bool) : parity (bit w b) = b := by
  have hbelow : ∀ n, 0 < n → n ≤ w → parityBelow (bit w b) n = b := by
    intro n hn hle
    induction n with
    | zero => omega
    | succ n ih =>
      have hget : (bit w b).getLsbD n = (decide (n = 0) && b) := by
        cases b <;> simp [bit, show n < w by omega]
      rw [parityBelow, hget]
      rcases Nat.eq_zero_or_pos n with rfl | hpos
      · simp [parityBelow]
      · rw [ih hpos (by omega)]
        simp [show n ≠ 0 by omega]
  exact hbelow w hw (Nat.le_refl w)

section Parity
variable {g : BitVec w} (hg : parity g = true)
include hg

/-- A generator with an odd number of ones makes good for the one that left. -/
theorem parity_shift (r : BitVec w) : parity (shift g r) = parity r := by
  have hright : parity (r >>> 1) = (r.getLsbD 0 ^^ parity r) := by
    rw [parity, parityBelow_ushiftRight, parityBelow, BitVec.getLsbD_of_ge r w (Nat.le_refl w),
      Bool.false_xor, parity]
  unfold shift
  cases hlow : r.getLsbD 0 with
  | true =>
    rw [if_pos rfl, parity, parityBelow_xor, ← parity, ← parity, hright, hlow, hg]
    simp
  | false =>
    rw [if_neg Bool.false_ne_true, hright, hlow, Bool.false_xor]

/-- The parity of the register is that of all it was fed. -/
theorem parity_feed (hw : 0 < w) (r : BitVec w) (bs : List Bool) :
    parity (feed g r bs) = (parity r ^^ decide (Odd (bs.count true))) := by
  induction bs generalizing r with
  | nil => simp [feed_nil]
  | cons b bs ih =>
    rw [feed_cons, ih, feedBit, parity_shift hg, parity, parityBelow_xor, ← parity, ← parity,
      parity_bit hw]
    cases b with
    | true =>
      rw [List.count_cons_self]
      by_cases hodd : Odd (bs.count true)
      · have hnot : ¬ Odd (bs.count true + 1) := fun h => Nat.odd_add_one.mp h hodd
        rw [decide_eq_true hodd, decide_eq_false hnot]
        simp
      · rw [decide_eq_false hodd, decide_eq_true (Nat.odd_add_one.mpr hodd)]
        simp
    | false => simp

theorem feed_odd (hw : 0 < w) {bs : List Bool} (h : Odd (bs.count true)) :
    feed g 0#w bs ≠ 0#w := by
  intro hzero
  have hparity := parity_feed hg hw 0#w bs
  rw [hzero, decide_eq_true h] at hparity
  cases hp : parity 0#w <;> rw [hp] at hparity <;> cases hparity

end Parity
end ShiftRegister
