import Mathlib.Data.List.Rotate

/-! The ring buffer of `lwrb.c`. Storage of `size` octets holds at most `size - 1`; it is
empty when the read and the write position agree. -/
namespace Cmux

structure Lwrb where
  buff : List UInt8
  r : ℕ
  w : ℕ
  r_lt : r < buff.length
  w_lt : w < buff.length

def memcpy (buff : List UInt8) (i : ℕ) (octets : List UInt8) : List UInt8 :=
  buff.take i ++ octets ++ buff.drop (i + octets.length)

theorem memcpy_length {buff octets : List UInt8} {i : ℕ} (h : i + octets.length ≤ buff.length) :
    (memcpy buff i octets).length = buff.length := by
  simp only [memcpy, List.length_append, List.length_take, List.length_drop]
  omega

namespace Lwrb

def size (rb : Lwrb) : ℕ := rb.buff.length

theorem r_lt_size (rb : Lwrb) : rb.r < rb.size := rb.r_lt

theorem w_lt_size (rb : Lwrb) : rb.w < rb.size := rb.w_lt

end Lwrb

/-- `lwrb_init` of a storage that has been allocated, whatever is in it. -/
def lwrbInit (buffdata : List UInt8) (h : 0 < buffdata.length) : Lwrb := ⟨buffdata, 0, 0, h, h⟩

def lwrbGetFree (rb : Lwrb) : ℕ :=
  let size :=
    if rb.w = rb.r then rb.size
    else if rb.r > rb.w then rb.r - rb.w
    else rb.size - (rb.w - rb.r)
  size - 1

def lwrbGetFull (rb : Lwrb) : ℕ :=
  if rb.w = rb.r then 0
  else if rb.w > rb.r then rb.w - rb.r
  else rb.size - (rb.r - rb.w)

def lwrbGetLinearBlockReadLength (rb : Lwrb) : ℕ :=
  if rb.w > rb.r then rb.w - rb.r
  else if rb.r > rb.w then rb.size - rb.r
  else 0

theorem lwrbGetFull_lt (rb : Lwrb) : lwrbGetFull rb < rb.size := by
  have hr := rb.r_lt_size
  have hw := rb.w_lt_size
  unfold lwrbGetFull
  split_ifs <;> omega

theorem lwrbGetFree_eq (rb : Lwrb) : lwrbGetFree rb = rb.size - 1 - lwrbGetFull rb := by
  have hr := rb.r_lt_size
  have hw := rb.w_lt_size
  unfold lwrbGetFree lwrbGetFull
  dsimp only
  split_ifs <;> omega

/-- The storage after `lwrb_write` has copied `btw` octets: a linear part, and the rest at
the beginning. -/
def writtenBuff (rb : Lwrb) (data : List UInt8) (btw : ℕ) : List UInt8 :=
  let tocopy := min (rb.size - rb.w) btw
  let buff := memcpy rb.buff rb.w (data.take tocopy)
  if btw - tocopy > 0 then memcpy buff 0 ((data.drop tocopy).take (btw - tocopy)) else buff

def writtenW (rb : Lwrb) (btw : ℕ) : ℕ :=
  let tocopy := min (rb.size - rb.w) btw
  let w := if btw - tocopy > 0 then btw - tocopy else rb.w + tocopy
  if w ≥ rb.size then 0 else w

theorem writtenBuff_length (rb : Lwrb) (data : List UInt8) {btw : ℕ} (h : btw < rb.size) :
    (writtenBuff rb data btw).length = rb.size := by
  have hw := rb.w_lt_size
  have hfirst : (memcpy rb.buff rb.w (data.take (min (rb.size - rb.w) btw))).length = rb.size :=
    memcpy_length (by
      rw [List.length_take]
      change _ ≤ rb.size
      omega)
  simp only [writtenBuff]
  split
  · rw [memcpy_length (by rw [hfirst, List.length_take]; omega), hfirst]
  · exact hfirst

theorem writtenW_lt (rb : Lwrb) {btw : ℕ} (h : btw < rb.size) : writtenW rb btw < rb.size := by
  simp only [writtenW]
  split_ifs <;> omega

theorem btw_lt (rb : Lwrb) (k : ℕ) : min (lwrbGetFree rb) k < rb.size := by
  have := lwrbGetFree_eq rb
  have := rb.w_lt_size
  omega

/-- `lwrb_write`: the ring, and the number of octets stored. -/
def lwrbWrite (rb : Lwrb) (data : List UInt8) : Lwrb × ℕ :=
  let btw := min (lwrbGetFree rb) data.length
  if btw = 0 then (rb, 0)
  else
    (⟨writtenBuff rb data btw, rb.r, writtenW rb btw,
      (writtenBuff_length rb data (btw_lt rb _)).symm ▸ rb.r_lt_size,
      (writtenBuff_length rb data (btw_lt rb _)).symm ▸ writtenW_lt rb (btw_lt rb _)⟩, btw)

/-- `tocopy` octets from position `r`, and the rest from the beginning of the storage. -/
def readOctets (rb : Lwrb) (r btr : ℕ) : List UInt8 :=
  let tocopy := min (rb.size - r) btr
  (rb.buff.drop r).take tocopy ++ rb.buff.take (btr - tocopy)

/-- A read position advanced past `tocopy` octets and the rest from the beginning. -/
def readR (rb : Lwrb) (btr : ℕ) : ℕ :=
  let tocopy := min (rb.size - rb.r) btr
  let r := if btr - tocopy > 0 then btr - tocopy else rb.r + tocopy
  if r ≥ rb.size then 0 else r

theorem readR_lt (rb : Lwrb) (btr : ℕ) : readR rb (min (lwrbGetFull rb) btr) < rb.size := by
  have := lwrbGetFull_lt rb
  simp only [readR]
  split_ifs <;> omega

/-- `lwrb_read`: the ring, and the octets copied out. -/
def lwrbRead (rb : Lwrb) (btr : ℕ) : Lwrb × List UInt8 :=
  let btr := min (lwrbGetFull rb) btr
  if btr = 0 then (rb, [])
  else (⟨rb.buff, readR rb btr, rb.w, readR_lt rb _, rb.w_lt⟩, readOctets rb rb.r btr)

/-- `lwrb_peek`: the octets copied out. -/
def lwrbPeek (rb : Lwrb) (skipCount btp : ℕ) : List UInt8 :=
  let full := lwrbGetFull rb
  if skipCount ≥ full then []
  else
    let r := if rb.r + skipCount ≥ rb.size then rb.r + skipCount - rb.size else rb.r + skipCount
    readOctets rb r (min (full - skipCount) btp)

def skipR (rb : Lwrb) (len : ℕ) : ℕ :=
  let r := rb.r + min len (lwrbGetFull rb)
  if r ≥ rb.size then r - rb.size else r

theorem skipR_lt (rb : Lwrb) (len : ℕ) : skipR rb len < rb.size := by
  have := lwrbGetFull_lt rb
  have := rb.r_lt_size
  simp only [skipR]
  split_ifs <;> omega

/-- `lwrb_skip`: the ring, and the number of octets skipped. -/
def lwrbSkip (rb : Lwrb) (len : ℕ) : Lwrb × ℕ :=
  if len = 0 then (rb, 0)
  else (⟨rb.buff, skipR rb len, rb.w, skipR_lt rb len, rb.w_lt⟩, min len (lwrbGetFull rb))

/-! No operation changes the size of the storage. -/

theorem lwrbWrite_size (rb : Lwrb) (data : List UInt8) : (lwrbWrite rb data).1.size = rb.size := by
  simp only [lwrbWrite]
  split
  · rfl
  · exact writtenBuff_length rb data (btw_lt rb _)

theorem lwrbRead_size (rb : Lwrb) (btr : ℕ) : (lwrbRead rb btr).1.size = rb.size := by
  simp only [lwrbRead]
  split <;> rfl

theorem lwrbSkip_size (rb : Lwrb) (len : ℕ) : (lwrbSkip rb len).1.size = rb.size := by
  unfold lwrbSkip
  split <;> rfl

/-! ### The content of the ring

Everything is said about the storage turned so that the read position comes first. -/

def Lwrb.content (rb : Lwrb) : List UInt8 := (rb.buff.rotate rb.r).take (lwrbGetFull rb)

/-- A position advanced around the storage. -/
theorem advance_mod {a k n : ℕ} (ha : a < n) (hk : k ≤ n) :
    (a + k) % n = if a + k ≥ n then a + k - n else a + k := by
  split
  · rw [Nat.mod_eq_sub_mod (by omega), Nat.mod_eq_of_lt (by omega)]
  · exact Nat.mod_eq_of_lt (by omega)

namespace Lwrb
variable (rb : Lwrb)

theorem content_length : rb.content.length = lwrbGetFull rb := by
  have := lwrbGetFull_lt rb
  simp only [content, List.length_take, List.length_rotate]
  change min _ rb.size = _
  omega

theorem content_length_lt : rb.content.length < rb.size := by
  rw [content_length]
  exact lwrbGetFull_lt rb

/-- The write position stands one content ahead of the read position. -/
theorem w_eq : rb.w = (rb.r + lwrbGetFull rb) % rb.size := by
  have hr := rb.r_lt_size
  have hw := rb.w_lt_size
  have hfull := lwrbGetFull_lt rb
  rw [advance_mod hr (by omega)]
  unfold lwrbGetFull at hfull ⊢
  split_ifs at hfull ⊢ <;> omega

theorem getFull_of_w {k : ℕ} (hk : k < rb.size) (hw : rb.w = (rb.r + k) % rb.size) :
    lwrbGetFull rb = k := by
  have hr := rb.r_lt_size
  rw [advance_mod hr (by omega)] at hw
  unfold lwrbGetFull
  split_ifs at hw ⊢ <;> omega

/-- The linear block is what is stored before the physical end. -/
theorem linearBlock_eq :
    lwrbGetLinearBlockReadLength rb = min rb.content.length (rb.size - rb.r) := by
  have hr := rb.r_lt_size
  have hw := rb.w_lt_size
  rw [content_length]
  unfold lwrbGetLinearBlockReadLength lwrbGetFull
  split_ifs <;> omega

theorem rotate_mod_size (k : ℕ) : rb.buff.rotate (k % rb.size) = rb.buff.rotate k :=
  List.rotate_mod rb.buff k

theorem readOctets_eq {p k : ℕ} (hp : p < rb.size) (hk : k ≤ rb.size) :
    readOctets rb p k = (rb.buff.rotate p).take k := by
  rw [List.rotate_eq_drop_append_take (Nat.le_of_lt hp), List.take_append, List.length_drop]
  change readOctets rb p k = (rb.buff.drop p).take k ++ (rb.buff.take p).take (k - (rb.size - p))
  rw [List.take_take, readOctets]
  congr 1
  · rw [List.take_eq_take_iff, List.length_drop]
    change min (min (rb.size - p) k) (rb.size - p) = min k (rb.size - p)
    omega
  · congr 1
    omega

/-- What is stored from an offset on. -/
theorem readOctets_content {n k : ℕ} (h : n + k ≤ lwrbGetFull rb) :
    readOctets rb ((rb.r + n) % rb.size) k = (rb.content.drop n).take k := by
  have hfull := lwrbGetFull_lt rb
  have hpos : 0 < rb.size := Nat.lt_of_le_of_lt (Nat.zero_le _) hfull
  rw [readOctets_eq rb (Nat.mod_lt _ hpos) (by omega), rotate_mod_size, ← List.rotate_rotate,
    List.rotate_eq_drop_append_take (by rw [List.length_rotate]; change n ≤ rb.size; omega),
    List.take_append_of_le_length (by
      rw [List.length_drop, List.length_rotate]; change k ≤ rb.size - n; omega),
    content, List.drop_take, List.take_take, Nat.min_eq_left (by omega)]

end Lwrb

open Lwrb

@[simp] theorem lwrbInit_content (buffdata : List UInt8) (h : 0 < buffdata.length) :
    (lwrbInit buffdata h).content = [] := by
  simp [content, lwrbInit, lwrbGetFull]

theorem lwrbPeek_eq (rb : Lwrb) (skipCount btp : ℕ) :
    lwrbPeek rb skipCount btp = (rb.content.drop skipCount).take btp := by
  have hlen := rb.content_length
  have hfull := lwrbGetFull_lt rb
  simp only [lwrbPeek]
  by_cases h : skipCount ≥ lwrbGetFull rb
  · rw [if_pos h, List.drop_of_length_le (by omega), List.take_nil]
  · rw [if_neg h, ← advance_mod rb.r_lt_size (by omega), readOctets_content rb (by omega),
      List.take_eq_take_iff, List.length_drop]
    omega

/-- A ring that has lost its first `n` octets. -/
theorem content_of_advance {rb rb' : Lwrb} {n : ℕ} (hn : n ≤ lwrbGetFull rb)
    (hbuff : rb'.buff = rb.buff) (hr : rb'.r = (rb.r + n) % rb.size) (hw : rb'.w = rb.w) :
    rb'.content = rb.content.drop n := by
  have hsize : rb'.size = rb.size := congrArg List.length hbuff
  have hfull := lwrbGetFull_lt rb
  have hfull' : lwrbGetFull rb' = lwrbGetFull rb - n := by
    apply getFull_of_w rb' (by omega)
    rw [hw, hr, hsize, Nat.mod_add_mod, w_eq rb, show rb.r + n + (lwrbGetFull rb - n) =
      rb.r + lwrbGetFull rb by omega]
  have hpos : 0 < rb.size := by omega
  have h := readOctets_content rb (n := n) (k := lwrbGetFull rb - n) (by omega)
  rw [readOctets_eq rb (Nat.mod_lt _ hpos) (by omega), ← hr] at h
  rw [content, hbuff, hfull', h, List.take_of_length_le (by
    rw [List.length_drop, content_length])]

theorem lwrbSkip_spec (rb : Lwrb) {n : ℕ} (hn : n ≤ rb.content.length) :
    (lwrbSkip rb n).1.content = rb.content.drop n ∧
      (lwrbSkip rb n).1.r = (rb.r + n) % rb.size := by
  have hfull := lwrbGetFull_lt rb
  rw [content_length] at hn
  have hr : (lwrbSkip rb n).1.r = (rb.r + n) % rb.size := by
    rw [advance_mod rb.r_lt_size (by omega), lwrbSkip]
    split
    next h0 => subst h0; have := rb.r_lt_size; simp; omega
    next => simp only [skipR, Nat.min_eq_left hn]
  have hrest : (lwrbSkip rb n).1.buff = rb.buff ∧ (lwrbSkip rb n).1.w = rb.w := by
    unfold lwrbSkip
    split <;> exact ⟨rfl, rfl⟩
  exact ⟨content_of_advance hn hrest.1 hr hrest.2, hr⟩

theorem lwrbRead_spec (rb : Lwrb) {n : ℕ} (hn : n ≤ rb.content.length) :
    (lwrbRead rb n).2 = rb.content.take n ∧ (lwrbRead rb n).1.content = rb.content.drop n ∧
      (lwrbRead rb n).1.r = (rb.r + n) % rb.size := by
  have hfull := lwrbGetFull_lt rb
  have hrlt := rb.r_lt_size
  rw [content_length] at hn
  have hr : (lwrbRead rb n).1.r = (rb.r + n) % rb.size := by
    rw [advance_mod hrlt (by omega), lwrbRead]
    simp only [Nat.min_eq_right hn]
    split
    next h0 => subst h0; simp; omega
    next => simp only [readR]; split_ifs <;> omega
  have hrest : (lwrbRead rb n).1.buff = rb.buff ∧ (lwrbRead rb n).1.w = rb.w := by
    simp only [lwrbRead]
    split <;> exact ⟨rfl, rfl⟩
  have hoctets : (lwrbRead rb n).2 = rb.content.take n := by
    have h := readOctets_content rb (n := 0) (k := n) (by omega)
    rw [Nat.add_zero, Nat.mod_eq_of_lt hrlt, List.drop_zero] at h
    simp only [lwrbRead, Nat.min_eq_right hn]
    split
    next h0 => subst h0; simp
    next => exact h
  exact ⟨hoctets, content_of_advance hn hrest.1 hr hrest.2, hr⟩

/-- Seen from the write position, a write replaces the first octets of the storage. -/
theorem writtenBuff_rotate (rb : Lwrb) (data : List UInt8) {btw : ℕ} (hlt : btw < rb.size)
    (hle : btw ≤ data.length) : (writtenBuff rb data btw).rotate rb.w =
      data.take btw ++ (rb.buff.rotate rb.w).drop btw := by
  have hw := rb.w_lt_size
  have hsize : rb.buff.length = rb.size := rfl
  have hlen := writtenBuff_length rb data hlt
  rw [List.rotate_eq_drop_append_take (by omega), List.rotate_eq_drop_append_take (by omega)]
  by_cases h : btw ≤ rb.size - rb.w
  · -- one copy, which ends at or before the physical end
    have hbuff : writtenBuff rb data btw =
        rb.buff.take rb.w ++ (data.take btw ++ rb.buff.drop (rb.w + btw)) := by
      simp only [writtenBuff, Nat.min_eq_right h, Nat.sub_self, Nat.lt_irrefl, gt_iff_lt, if_false,
        memcpy, List.length_take, Nat.min_eq_left hle, List.append_assoc]
    have hfront : (rb.buff.take rb.w).length = rb.w := by rw [List.length_take]; omega
    rw [hbuff, List.drop_left' hfront, List.take_left' hfront,
      List.drop_append_of_le_length (by rw [List.length_drop]; omega), List.drop_drop,
      List.append_assoc]
  · -- the linear part up to the physical end, and the rest over the beginning
    have hlinear : (data.take (rb.size - rb.w)).length = rb.size - rb.w := by
      rw [List.length_take]; omega
    have hrest : ((data.drop (rb.size - rb.w)).take (btw - (rb.size - rb.w))).length =
        btw - (rb.size - rb.w) := by rw [List.length_take, List.length_drop]; omega
    have hfront : (rb.buff.take rb.w).length = rb.w := by rw [List.length_take]; omega
    have hfirst : memcpy rb.buff rb.w (data.take (rb.size - rb.w)) =
        rb.buff.take rb.w ++ data.take (rb.size - rb.w) := by
      rw [memcpy, hlinear, List.drop_of_length_le (by omega), List.append_nil]
    have hbuff : writtenBuff rb data btw =
        ((data.drop (rb.size - rb.w)).take (btw - (rb.size - rb.w)) ++
          (rb.buff.take rb.w).drop (btw - (rb.size - rb.w))) ++ data.take (rb.size - rb.w) := by
      simp only [writtenBuff, Nat.min_eq_left (show rb.size - rb.w ≤ btw by omega),
        if_pos (show btw - (rb.size - rb.w) > 0 by omega), hfirst]
      rw [memcpy, List.take_zero, List.nil_append, hrest, Nat.zero_add,
        List.drop_append_of_le_length (by omega), List.append_assoc]
    have hturned : ((data.drop (rb.size - rb.w)).take (btw - (rb.size - rb.w)) ++
        (rb.buff.take rb.w).drop (btw - (rb.size - rb.w))).length = rb.w := by
      rw [List.length_append, hrest, List.length_drop, hfront]; omega
    have hover : (rb.buff.drop rb.w ++ rb.buff.take rb.w).drop btw =
        (rb.buff.take rb.w).drop (btw - (rb.size - rb.w)) := by
      rw [List.drop_append, List.drop_of_length_le (by rw [List.length_drop]; omega),
        List.length_drop, hsize, List.nil_append]
    rw [hbuff, List.drop_left' hturned, List.take_left' hturned, hover, ← List.append_assoc,
      ← List.take_add]
    congr 2
    omega

/-- A ring behind whose content `btw` octets have been written. -/
theorem content_of_write {rb rb' : Lwrb} {data : List UInt8} {btw : ℕ}
    (hlt : lwrbGetFull rb + btw < rb.size) (hle : btw ≤ data.length)
    (hbuff : rb'.buff = writtenBuff rb data btw) (hr : rb'.r = rb.r)
    (hw : rb'.w = writtenW rb btw) : rb'.content = rb.content ++ data.take btw := by
  have hrlt := rb.r_lt_size
  have hwlt := rb.w_lt_size
  have hlen : rb.buff.length = rb.size := rfl
  have hsize : rb'.size = rb.size := by
    rw [← writtenBuff_length rb data (show btw < rb.size by omega), ← hbuff]
    rfl
  have hw' : rb'.w = (rb.w + btw) % rb.size := by
    rw [hw, advance_mod hwlt (by omega)]
    simp only [writtenW]
    split_ifs <;> omega
  have hfull : lwrbGetFull rb' = lwrbGetFull rb + btw := by
    apply getFull_of_w rb' (by omega)
    rw [hw', hr, hsize, rb.w_eq, Nat.mod_add_mod, Nat.add_assoc]
  have hcontent := rb.content_length
  -- turned by the old content, both sides are what the write leaves at the write position
  have hturn : rb'.buff.rotate rb.r = rb.content ++ (data.take btw ++
      (rb.buff.rotate rb.r).drop (lwrbGetFull rb + btw)) := by
    apply List.rotate_injective (lwrbGetFull rb)
    simp only
    rw [← hcontent, List.rotate_append_length_eq, hcontent, List.rotate_rotate,
      ← rotate_mod_size, hsize, ← w_eq, hbuff, writtenBuff_rotate rb data (by omega) hle,
      w_eq, rotate_mod_size, ← List.rotate_rotate,
      List.rotate_eq_drop_append_take (by rw [List.length_rotate]; omega),
      List.drop_append_of_le_length (by rw [List.length_drop, List.length_rotate]; omega),
      List.drop_drop, List.append_assoc]
    rfl
  rw [content, hr, hturn, hfull, ← List.append_assoc, List.take_left' (by
    rw [List.length_append, hcontent, List.length_take, Nat.min_eq_left hle])]

/-- A write appends what there is room for. -/
theorem lwrbWrite_spec (rb : Lwrb) (data : List UInt8) :
    (lwrbWrite rb data).1.content =
        rb.content ++ data.take (rb.size - 1 - rb.content.length) ∧
      (lwrbWrite rb data).1.r = rb.r ∧
      (lwrbWrite rb data).2 = min data.length (rb.size - 1 - rb.content.length) := by
  have hfull := lwrbGetFull_lt rb
  have hfree := lwrbGetFree_eq rb
  rw [content_length, ← hfree, Nat.min_comm]
  have htake : data.take (lwrbGetFree rb) = data.take (min (lwrbGetFree rb) data.length) := by
    rw [List.take_eq_take_iff]; omega
  rw [htake]
  by_cases h0 : min (lwrbGetFree rb) data.length = 0
  · simp only [lwrbWrite, h0, if_true, List.take_zero, List.append_nil, and_true]
  · simp only [lwrbWrite, h0, if_false, and_true]
    exact content_of_write (by omega) (by omega) rfl rfl rfl

end Cmux
