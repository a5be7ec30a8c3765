import Cmux.Foundation.CircularQueue
import Cmux.Foundation.Machine
import Cmux.Receiver.Lwrb

/-! The whole interface of `lwrb.c`: the handle with its magic words, the linear blocks that an
application or its hardware reads and writes in place, and the events. Whatever is called, and in
whatever order, the ring does what a bounded queue on a circle of cells does. -/
namespace Cmux
open Lwrb

inductive LwrbEvt where
  | read
  | write
  | reset
  deriving DecidableEq, Repr

/-! ### Linear blocks -/

/-- The octets from `lwrb_get_linear_block_read_address` on, as many as
`lwrb_get_linear_block_read_length` says. -/
def linearReadBlock (rb : Lwrb) : List UInt8 :=
  (rb.buff.drop rb.r).take (lwrbGetLinearBlockReadLength rb)

def lwrbGetLinearBlockWriteLength (rb : Lwrb) : ℕ :=
  if rb.w ≥ rb.r then
    let len := rb.size - rb.w
    if rb.r = 0 then len - 1 else len
  else rb.r - rb.w - 1

/-- Octets put at `lwrb_get_linear_block_write_address`, no more than
`lwrb_get_linear_block_write_length` says. -/
def filledBuff (rb : Lwrb) (octets : List UInt8) : List UInt8 :=
  memcpy rb.buff rb.w (octets.take (lwrbGetLinearBlockWriteLength rb))

theorem filledBuff_length (rb : Lwrb) (octets : List UInt8) :
    (filledBuff rb octets).length = rb.size := by
  have := rb.w_lt_size
  have := rb.r_lt_size
  refine memcpy_length ?_
  change rb.w + _ ≤ rb.size
  rw [List.length_take]
  unfold lwrbGetLinearBlockWriteLength
  dsimp only
  split_ifs <;> omega

def linearFill (rb : Lwrb) (octets : List UInt8) : Lwrb :=
  ⟨filledBuff rb octets, rb.r, rb.w, (filledBuff_length rb octets).symm ▸ rb.r_lt_size,
    (filledBuff_length rb octets).symm ▸ rb.w_lt_size⟩

def advanceW (rb : Lwrb) (len : ℕ) : ℕ :=
  let w := rb.w + min len (lwrbGetFree rb)
  if w ≥ rb.size then w - rb.size else w

theorem advanceW_lt (rb : Lwrb) (len : ℕ) : advanceW rb len < rb.size := by
  have := lwrbGetFree_eq rb
  have := rb.w_lt_size
  simp only [advanceW]
  split_ifs <;> omega

/-- `lwrb_advance`: the ring, and the number of octets advanced. -/
def lwrbAdvance (rb : Lwrb) (len : ℕ) : Lwrb × ℕ :=
  if len = 0 then (rb, 0)
  else (⟨rb.buff, rb.r, advanceW rb len, rb.r_lt, advanceW_lt rb len⟩, min len (lwrbGetFree rb))

def lwrbReset (rb : Lwrb) : Lwrb :=
  have hpos : 0 < rb.buff.length := Nat.lt_of_le_of_lt (Nat.zero_le _) rb.r_lt
  ⟨rb.buff, 0, 0, hpos, hpos⟩

/-! ### The ring as a queue -/

/-- The storage cut at the read position. -/
def Lwrb.queue (rb : Lwrb) : CircularQueue UInt8 where
  pos := rb.r
  stored := rb.content
  free := (rb.buff.rotate rb.r).drop (lwrbGetFull rb)
  room := by
    rw [List.length_drop, List.length_rotate]
    exact Nat.sub_pos_of_lt (lwrbGetFull_lt rb)
  pos_lt := by
    rw [List.length_drop, List.length_rotate, content_length]
    have := lwrbGetFull_lt rb
    have := rb.r_lt_size
    change _ < _ + (rb.size - _)
    omega

namespace Lwrb
variable (rb : Lwrb)

@[simp] theorem queue_pos : rb.queue.pos = rb.r := rfl
@[simp] theorem queue_stored : rb.queue.stored = rb.content := rfl

theorem queue_cells : rb.queue.stored ++ rb.queue.free = rb.buff.rotate rb.r :=
  List.take_append_drop _ _

@[simp] theorem queue_size : rb.queue.size = rb.size := by
  have h := congrArg List.length rb.queue_cells
  rwa [List.length_append, List.length_rotate] at h

theorem queue_space : rb.queue.space = lwrbGetFree rb := by
  have h := rb.queue.stored_add_space
  rw [queue_stored, content_length, queue_size] at h
  rw [lwrbGetFree_eq]
  omega

theorem queue_back : rb.queue.back = rb.w := by
  rw [CircularQueue.back, queue_pos, queue_stored, content_length, queue_size, ← w_eq]

/-- A ring whose storage, turned, begins with what it holds. -/
theorem queue_eq {rb : Lwrb} {q : CircularQueue UInt8} (hpos : rb.r = q.pos)
    (hcells : rb.buff.rotate rb.r = q.stored ++ q.free)
    (hfull : lwrbGetFull rb = q.stored.length) : rb.queue = q := by
  ext1
  · exact hpos
  · rw [queue_stored, content, hcells, hfull, List.take_left]
  · change (rb.buff.rotate rb.r).drop (lwrbGetFull rb) = _
    rw [hcells, hfull, List.drop_left]

theorem eq_of_fields {rb rb' : Lwrb} (hbuff : rb.buff = rb'.buff) (hr : rb.r = rb'.r)
    (hw : rb.w = rb'.w) : rb = rb' := by
  cases rb
  cases rb'
  cases hbuff
  cases hr
  cases hw
  rfl

/-- The queue says all about the ring. -/
theorem queue_injective {rb rb' : Lwrb} (h : rb.queue = rb'.queue) : rb = rb' := by
  have hr : rb.r = rb'.r := congrArg CircularQueue.pos h
  have hcells : rb.buff.rotate rb.r = rb'.buff.rotate rb.r := by
    rw [← queue_cells, h, queue_cells, hr]
  have hbuff : rb.buff = rb'.buff := List.rotate_injective rb.r hcells
  have hw : rb.w = rb'.w := by rw [← queue_back, h, queue_back]
  exact eq_of_fields hbuff hr hw

theorem linearReadBlock_eq : linearReadBlock rb = rb.queue.readBlock := by
  have hr := rb.r_lt_size
  have hrotate : rb.buff.rotate rb.r = rb.buff.drop rb.r ++ rb.buff.take rb.r :=
    List.rotate_eq_drop_append_take (Nat.le_of_lt hr)
  rw [CircularQueue.readBlock, queue_size, queue_pos, queue_stored, linearReadBlock,
    linearBlock_eq, content_length, content, List.take_take, hrotate,
    List.take_append_of_le_length, Nat.min_comm]
  rw [List.length_drop]
  exact Nat.min_le_left _ _

theorem linearBlockWriteLength_eq : lwrbGetLinearBlockWriteLength rb = rb.queue.writeBlock := by
  have hr := rb.r_lt_size
  have hw := rb.w_lt_size
  rw [CircularQueue.writeBlock, queue_space, queue_back, queue_size]
  unfold lwrbGetLinearBlockWriteLength lwrbGetFree
  dsimp only
  split_ifs <;> omega

end Lwrb

/-! ### The operations on the queue -/

theorem lwrbInit_queue (buffdata : List UInt8) (h : 0 < buffdata.length) :
    (lwrbInit buffdata h).queue = ⟨0, [], buffdata, h, by simpa using h⟩ :=
  queue_eq rfl (List.rotate_zero buffdata) (by simp [lwrbInit, lwrbGetFull])

/-- A storage that differs from the old one in what comes first when it is cut at the write
position. -/
theorem cells_of_write (rb : Lwrb) {cells : List UInt8} (octets : List UInt8)
    (hlen : cells.length = rb.size) (hroom : octets.length ≤ rb.queue.free.length)
    (h : cells.rotate rb.w = octets ++ (rb.buff.rotate rb.w).drop octets.length) :
    cells.rotate rb.r = rb.content ++ (octets ++ rb.queue.free.drop octets.length) := by
  -- cut at the write position, the old storage is what is free and then what is stored
  have hturn (xs : List UInt8) (hxs : xs.length = rb.size) :
      xs.rotate rb.w = (xs.rotate rb.r).rotate rb.content.length := by
    rw [List.rotate_rotate, content_length, w_eq, ← hxs, List.rotate_mod]
  have hold : rb.buff.rotate rb.w = rb.queue.free ++ rb.content := by
    rw [hturn rb.buff rfl, ← queue_cells, queue_stored, List.rotate_append_length_eq]
  apply List.rotate_injective rb.content.length
  simp only
  rw [← hturn cells hlen, h, hold, List.drop_append_of_le_length hroom,
    List.rotate_append_length_eq, List.append_assoc]

theorem lwrbWrite_queue (rb : Lwrb) (data : List UInt8) :
    (lwrbWrite rb data).1.queue = rb.queue.put data ∧
      (lwrbWrite rb data).2 = min data.length rb.queue.space := by
  obtain ⟨hcontent, hr, hret⟩ := lwrbWrite_spec rb data
  have hspace : rb.size - 1 - rb.content.length = rb.queue.space := by
    rw [queue_space, lwrbGetFree_eq, content_length]
  rw [hspace] at hcontent hret
  have hroom := rb.queue.room
  refine ⟨queue_eq hr ?_ ?_, hret⟩
  · have hcount : min (lwrbGetFree rb) data.length = min data.length rb.queue.space := by
      rw [← queue_space, Nat.min_comm]
    rw [hr, CircularQueue.put_stored, CircularQueue.put_free, queue_stored, List.append_assoc]
    by_cases h0 : min (lwrbGetFree rb) data.length = 0
    · have hsame : (lwrbWrite rb data).1 = rb := by rw [lwrbWrite, if_pos h0]
      have hnone : data.take rb.queue.space = [] := by
        rw [List.take_eq_nil_iff, ← List.length_eq_zero_iff]
        omega
      rw [hsame, ← queue_cells, hnone, ← hcount, h0, List.drop_zero]
      rfl
    · have hbuff : (lwrbWrite rb data).1.buff =
          writtenBuff rb data (min (lwrbGetFree rb) data.length) := by
        simp only [lwrbWrite, if_neg h0]
      have hlt := btw_lt rb data.length
      have htake : data.take rb.queue.space = data.take (min (lwrbGetFree rb) data.length) := by
        rw [hcount, List.take_eq_take_iff]
        omega
      have hlen : (data.take (min (lwrbGetFree rb) data.length)).length =
          min data.length rb.queue.space := by
        rw [List.length_take, ← hcount]
        omega
      have hcells := cells_of_write rb (data.take (min (lwrbGetFree rb) data.length))
        (writtenBuff_length rb data hlt) ?_ ?_
      · rw [hbuff, hcells, hlen, htake]
      · rw [hlen]
        unfold CircularQueue.space
        omega
      · rw [writtenBuff_rotate rb data hlt (Nat.min_le_right _ _), hlen, hcount]
  · rw [← content_length, hcontent]
    rfl

theorem linearFill_queue (rb : Lwrb) (octets : List UInt8) :
    (linearFill rb octets).queue = rb.queue.fill (octets.take rb.queue.writeBlock) := by
  have hblock := linearBlockWriteLength_eq rb
  have hroom := rb.queue.room
  have hle : rb.queue.writeBlock ≤ rb.queue.free.length - 1 := Nat.min_le_left _ _
  have hend : rb.queue.writeBlock ≤ rb.size - rb.w := by
    rw [CircularQueue.writeBlock, queue_size, queue_back]
    exact Nat.min_le_right _ _
  have hshort : (octets.take rb.queue.writeBlock).length ≤ rb.queue.free.length - 1 := by
    rw [List.length_take]
    omega
  have hlinear : (octets.take rb.queue.writeBlock).length ≤ rb.size - rb.w := by
    rw [List.length_take]
    omega
  refine queue_eq rfl ?_ ?_
  · rw [CircularQueue.fill_stored, CircularQueue.fill_free, queue_stored,
      List.take_of_length_le (i := rb.queue.free.length) (by omega)]
    refine cells_of_write rb _ (filledBuff_length rb octets) (by omega) ?_
    have hw := rb.w_lt_size
    have hfront : (rb.buff.take rb.w).length = rb.w := List.length_take_of_le (Nat.le_of_lt hw)
    have hcells : filledBuff rb octets = rb.buff.take rb.w ++ (octets.take rb.queue.writeBlock ++
        rb.buff.drop (rb.w + (octets.take rb.queue.writeBlock).length)) := by
      rw [filledBuff, memcpy, hblock, List.append_assoc]
    have hlen : (filledBuff rb octets).length = rb.size := filledBuff_length rb octets
    change (filledBuff rb octets).rotate rb.w = _
    rw [List.rotate_eq_drop_append_take (by omega), hcells, List.drop_left' hfront,
      List.take_left' hfront, List.rotate_eq_drop_append_take (Nat.le_of_lt hw),
      List.drop_append_of_le_length (by rw [List.length_drop]; exact hlinear), List.drop_drop,
      List.append_assoc]
  · have hsize : (linearFill rb octets).size = rb.size := filledBuff_length rb octets
    rw [CircularQueue.fill_stored, queue_stored, content_length, lwrbGetFull, hsize]
    rfl

/-- A ring whose write position has been advanced. -/
theorem queue_of_w {rb rb' : Lwrb} {n : ℕ} (hbuff : rb'.buff = rb.buff) (hr : rb'.r = rb.r)
    (hw : rb'.w = (rb.w + min n rb.queue.space) % rb.size) :
    rb'.queue = rb.queue.advance n := by
  have hspace : rb.queue.space = rb.queue.free.length - 1 := rfl
  have hsum := rb.queue.stored_add_space
  have hpos := rb.r_lt_size
  have hsize : rb'.size = rb.size := congrArg List.length hbuff
  rw [queue_stored, content_length, queue_size] at hsum
  refine queue_eq hr ?_ ?_
  · rw [hbuff, hr, ← queue_cells, CircularQueue.advance_stored, CircularQueue.advance_free,
      List.append_assoc, List.take_append_drop]
  · have hlen : (rb.queue.advance n).stored.length =
        lwrbGetFull rb + min n rb.queue.space := by
      rw [CircularQueue.advance_stored, List.length_append, List.length_take, queue_stored,
        content_length]
      omega
    rw [hlen]
    apply getFull_of_w _ (by omega)
    rw [hw, hr, hsize, rb.w_eq, Nat.mod_add_mod, Nat.add_assoc]

theorem lwrbAdvance_queue (rb : Lwrb) (len : ℕ) :
    (lwrbAdvance rb len).1.queue = rb.queue.advance len ∧
      (lwrbAdvance rb len).2 = min len rb.queue.space := by
  have hfree := lwrbGetFree_eq rb
  have hwlt := rb.w_lt_size
  rw [queue_space]
  by_cases h0 : len = 0
  · subst h0
    rw [lwrbAdvance, if_pos rfl, Nat.zero_min]
    refine ⟨queue_of_w rfl rfl ?_, rfl⟩
    rw [Nat.zero_min, Nat.add_zero, Nat.mod_eq_of_lt hwlt]
  · rw [lwrbAdvance, if_neg h0]
    refine ⟨queue_of_w rfl rfl ?_, rfl⟩
    rw [queue_space, advance_mod hwlt (by omega)]
    rfl

theorem lwrbReset_queue (rb : Lwrb) : (lwrbReset rb).queue = rb.queue.clear := by
  refine queue_eq rfl ?_ (by simp [lwrbReset, lwrbGetFull])
  change rb.buff.rotate 0 = _
  rw [CircularQueue.clear_stored, CircularQueue.clear_free, List.nil_append, queue_cells,
    List.rotate_rotate, queue_size, queue_pos, Nat.add_sub_cancel' (Nat.le_of_lt rb.r_lt_size)]
  exact (List.rotate_zero _).trans (List.rotate_length _).symm

/-- A ring that has lost its first octets. -/
theorem queue_of_advance {rb rb' : Lwrb} {n : ℕ} (hbuff : rb'.buff = rb.buff)
    (hr : rb'.r = (rb.r + min n rb.content.length) % rb.size) (hw : rb'.w = rb.w) :
    rb'.queue = rb.queue.drop n := by
  have hcontent := content_of_advance (n := min n rb.content.length)
    (by rw [content_length]; exact Nat.min_le_right _ _) hbuff hr hw
  have hlen := rb.content_length
  refine queue_eq ?_ ?_ ?_
  · rw [CircularQueue.drop_pos, queue_pos, queue_stored, queue_size, hr]
  · have hdrop : rb.content.drop (min n rb.content.length) = rb.content.drop n := by
      rw [List.drop_eq_drop_iff]
      omega
    have htake : rb.content.take (min n rb.content.length) = rb.content.take n := by
      rw [List.take_eq_take_iff]
      omega
    rw [hbuff, hr, rotate_mod_size, ← List.rotate_rotate, ← queue_cells, queue_stored,
      List.rotate_eq_drop_append_take (by rw [List.length_append]; omega),
      List.drop_append_of_le_length (Nat.min_le_right _ _),
      List.take_append_of_le_length (Nat.min_le_right _ _), hdrop, htake, List.append_assoc]
    rfl
  · rw [← content_length, hcontent, CircularQueue.drop_stored, queue_stored]
    simp only [List.length_drop]
    omega

theorem lwrbSkip_queue (rb : Lwrb) (len : ℕ) :
    (lwrbSkip rb len).1.queue = rb.queue.drop len ∧
      (lwrbSkip rb len).2 = min len rb.queue.stored.length := by
  have hfull := lwrbGetFull_lt rb
  rw [queue_stored, content_length]
  by_cases h0 : len = 0
  · subst h0
    rw [lwrbSkip, if_pos rfl, Nat.zero_min]
    refine ⟨queue_of_advance rfl ?_ rfl, rfl⟩
    rw [Nat.zero_min, Nat.add_zero, Nat.mod_eq_of_lt rb.r_lt_size]
  · rw [lwrbSkip, if_neg h0]
    refine ⟨queue_of_advance rfl ?_ rfl, rfl⟩
    rw [content_length, advance_mod rb.r_lt_size (by omega)]
    rfl

theorem lwrbRead_queue (rb : Lwrb) (btr : ℕ) :
    (lwrbRead rb btr).1.queue = rb.queue.drop btr ∧
      (lwrbRead rb btr).2 = rb.queue.stored.take btr := by
  have hfull := lwrbGetFull_lt rb
  have hmin : lwrbRead rb btr = lwrbRead rb (min (lwrbGetFull rb) btr) := by
    simp only [lwrbRead, ← Nat.min_assoc, Nat.min_self]
  obtain ⟨hoctets, -, hr⟩ := lwrbRead_spec rb (n := min (lwrbGetFull rb) btr)
    (by rw [content_length]; exact Nat.min_le_left _ _)
  have hrest : (lwrbRead rb btr).1.buff = rb.buff ∧ (lwrbRead rb btr).1.w = rb.w := by
    simp only [lwrbRead]
    split <;> exact ⟨rfl, rfl⟩
  rw [← hmin] at hoctets hr
  refine ⟨queue_of_advance hrest.1 ?_ hrest.2, ?_⟩
  · rw [hr, content_length, Nat.min_comm]
  · rw [hoctets, queue_stored, List.take_eq_take_iff, content_length]
    omega

/-! ### The handle -/

def bufMagic1 : UInt32 := 0xDEADBEEF

def bufMagic2 : UInt32 := ~~~0xDEADBEEF

/-- `lwrb_t`. The ring is what `buff`, `size`, `r` and `w` say, none when `buff` is a null
pointer. -/
structure LwrbHandle where
  magic1 : UInt32
  magic2 : UInt32
  ring : Option Lwrb
  evtFn : Bool

def LwrbHandle.valid (buff : LwrbHandle) : Option Lwrb :=
  if buff.magic1 = bufMagic1 ∧ buff.magic2 = bufMagic2 then buff.ring else none

/-- What a call gives back: its result, the octets that the caller gets to see, and the calls of
the event function. -/
structure LwrbReply where
  ret : ℕ
  octets : List UInt8
  events : List (LwrbEvt × ℕ)
  deriving DecidableEq, Repr

def LwrbReply.zero : LwrbReply := ⟨0, [], []⟩

/-- `BUF_SEND_EVT`, where it is reached. -/
def sendEvt (reached : Bool) (evt : LwrbEvt) (bp : ℕ) : List (LwrbEvt × ℕ) :=
  if reached then [(evt, bp)] else []

/-- The calls that need a ring. `data` is whether the caller gives an array, `linearRead` is a look
at the linear block for reading, `linearWrite` asks for the length of that for writing, and
`linearFill` puts octets there. -/
inductive RingCall where
  | write (data : Option (List UInt8))
  | read (data : Bool) (btr : ℕ)
  | peek (skipCount : ℕ) (data : Bool) (btp : ℕ)
  | getFree
  | getFull
  | reset
  | linearRead
  | skip (len : ℕ)
  | linearWrite
  | linearFill (octets : List UInt8)
  | advance (len : ℕ)
  deriving DecidableEq, Repr

def RingCall.run (rb : Lwrb) : RingCall → Lwrb × LwrbReply
  | write none => (rb, LwrbReply.zero)
  | write (some data) =>
    let written := lwrbWrite rb data
    (written.1, ⟨written.2, [], sendEvt (written.2 ≠ 0) .write written.2⟩)
  | read false _ => (rb, LwrbReply.zero)
  | read true btr =>
    let got := lwrbRead rb btr
    (got.1, ⟨got.2.length, got.2, sendEvt (got.2.length ≠ 0) .read got.2.length⟩)
  | peek _ false _ => (rb, LwrbReply.zero)
  | peek skipCount true btp =>
    let got := lwrbPeek rb skipCount btp
    (rb, ⟨got.length, got, []⟩)
  | getFree => (rb, ⟨lwrbGetFree rb, [], []⟩)
  | getFull => (rb, ⟨lwrbGetFull rb, [], []⟩)
  | reset => (lwrbReset rb, ⟨0, [], sendEvt true .reset 0⟩)
  | linearRead => (rb, ⟨lwrbGetLinearBlockReadLength rb, linearReadBlock rb, []⟩)
  | skip len =>
    let skipped := lwrbSkip rb len
    (skipped.1, ⟨skipped.2, [], sendEvt (len ≠ 0) .read skipped.2⟩)
  | linearWrite => (rb, ⟨lwrbGetLinearBlockWriteLength rb, [], []⟩)
  | linearFill octets => (Cmux.linearFill rb octets, LwrbReply.zero)
  | advance len =>
    let advanced := lwrbAdvance rb len
    (advanced.1, ⟨advanced.2, [], sendEvt (len ≠ 0) .write advanced.2⟩)

/-- The calls of the interface. `buffdata` is the array of `size` octets that `lwrb_init` is
given. -/
inductive LwrbCall where
  | init (buffdata : Option (List UInt8))
  | isReady
  | free
  | setEvtFn (evtFn : Bool)
  | ring (call : RingCall)
  deriving DecidableEq, Repr

def LwrbHandle.run (buff : LwrbHandle) : LwrbCall → LwrbHandle × LwrbReply
  | .init none => (buff, LwrbReply.zero)
  | .init (some buffdata) =>
    if h : 0 < buffdata.length then
      (⟨bufMagic1, bufMagic2, some (lwrbInit buffdata h), false⟩, ⟨1, [], []⟩)
    else (buff, LwrbReply.zero)
  | .isReady => (buff, ⟨if buff.valid.isSome then 1 else 0, [], []⟩)
  | .free => (if buff.valid.isSome then { buff with ring := none } else buff, LwrbReply.zero)
  | .setEvtFn evtFn =>
    (if buff.valid.isSome then { buff with evtFn := evtFn } else buff, LwrbReply.zero)
  | .ring call =>
    match buff.valid with
    | none => (buff, LwrbReply.zero)
    | some rb =>
      let called := call.run rb
      ({ buff with ring := some called.1 },
        { called.2 with events := if buff.evtFn then called.2.events else [] })

def lwrbMachine : Mealy LwrbHandle LwrbCall LwrbReply where
  step := LwrbHandle.run

/-! ### What the interface is for -/

/-- What the calls do to a bounded queue. -/
def RingCall.spec (queue : CircularQueue UInt8) : RingCall → CircularQueue UInt8 × LwrbReply
  | write data =>
    let accepted := (data.getD []).take queue.space
    (queue.put accepted, ⟨accepted.length, [], sendEvt (accepted.length ≠ 0) .write
      accepted.length⟩)
  | read data btr =>
    let got := if data then queue.stored.take btr else []
    (queue.drop got.length, ⟨got.length, got, sendEvt (got.length ≠ 0) .read got.length⟩)
  | peek skipCount data btp =>
    let got := if data then (queue.stored.drop skipCount).take btp else []
    (queue, ⟨got.length, got, []⟩)
  | getFree => (queue, ⟨queue.space, [], []⟩)
  | getFull => (queue, ⟨queue.stored.length, [], []⟩)
  | reset => (queue.clear, ⟨0, [], sendEvt true .reset 0⟩)
  | linearRead => (queue, ⟨queue.readBlock.length, queue.readBlock, []⟩)
  | skip len =>
    let skipped := min len queue.stored.length
    (queue.drop len, ⟨skipped, [], sendEvt (len ≠ 0) .read skipped⟩)
  | linearWrite => (queue, ⟨queue.writeBlock, [], []⟩)
  | linearFill octets => (queue.fill (octets.take queue.writeBlock), LwrbReply.zero)
  | advance len =>
    let advanced := min len queue.space
    (queue.advance len, ⟨advanced, [], sendEvt (len ≠ 0) .write advanced⟩)

/-- The queue that a handle stands for, and whether an event function is set. A handle that is not
ready stands for none. -/
abbrev QueueHandle := Option (CircularQueue UInt8 × Bool)

def LwrbCall.spec (handle : QueueHandle) : LwrbCall → QueueHandle × LwrbReply
  | init buffdata =>
    if h : 0 < (buffdata.getD []).length then
      (some (⟨0, [], buffdata.getD [], h, by simpa using h⟩, false), ⟨1, [], []⟩)
    else (handle, LwrbReply.zero)
  | isReady => (handle, ⟨if handle.isSome then 1 else 0, [], []⟩)
  | free => (none, LwrbReply.zero)
  | setEvtFn evtFn => (handle.map fun ready => (ready.1, evtFn), LwrbReply.zero)
  | ring call =>
    match handle with
    | none => (none, LwrbReply.zero)
    | some (queue, evtFn) =>
      let called := call.spec queue
      (some (called.1, evtFn), { called.2 with events := if evtFn then called.2.events else [] })

def queueMachine : Mealy QueueHandle LwrbCall LwrbReply where
  step := LwrbCall.spec

def LwrbHandle.queue (buff : LwrbHandle) : QueueHandle :=
  buff.valid.map fun rb => (rb.queue, buff.evtFn)

theorem ringCall_refines (rb : Lwrb) (call : RingCall) :
    (call.run rb).1.queue = (call.spec rb.queue).1 ∧
      (call.run rb).2 = (call.spec rb.queue).2 := by
  cases call with
  | write data =>
    cases data with
    | none => simp [RingCall.run, RingCall.spec, sendEvt, LwrbReply.zero]
    | some data =>
      obtain ⟨hqueue, hret⟩ := lwrbWrite_queue rb data
      have hlen : (data.take rb.queue.space).length = min data.length rb.queue.space := by
        rw [List.length_take, Nat.min_comm]
      simp only [RingCall.run, RingCall.spec, Option.getD_some, CircularQueue.put_take_space,
        hqueue, hret, hlen, and_self]
  | read data btr =>
    cases data with
    | false => simp [RingCall.run, RingCall.spec, sendEvt, LwrbReply.zero]
    | true =>
      obtain ⟨hqueue, hoctets⟩ := lwrbRead_queue rb btr
      simp only [RingCall.run, RingCall.spec, if_true, hqueue, hoctets, and_true, List.length_take,
        CircularQueue.drop_min]
  | peek skipCount data btp =>
    cases data with
    | false => exact ⟨rfl, rfl⟩
    | true => exact ⟨rfl, by simp only [RingCall.run, RingCall.spec, lwrbPeek_eq]; rfl⟩
  | getFree => exact ⟨rfl, by simp only [RingCall.run, RingCall.spec, queue_space]⟩
  | getFull =>
    exact ⟨rfl, by simp only [RingCall.run, RingCall.spec, queue_stored, content_length]⟩
  | reset => exact ⟨lwrbReset_queue rb, rfl⟩
  | linearRead =>
    refine ⟨rfl, ?_⟩
    have hlen : lwrbGetLinearBlockReadLength rb = rb.queue.readBlock.length := by
      rw [CircularQueue.readBlock_length, linearBlock_eq, Nat.min_comm, queue_size, queue_pos,
        queue_stored]
    simp only [RingCall.run, RingCall.spec, linearReadBlock_eq, hlen]
  | skip len =>
    obtain ⟨hqueue, hret⟩ := lwrbSkip_queue rb len
    simp only [RingCall.run, RingCall.spec, hqueue, hret, and_self]
  | linearWrite =>
    exact ⟨rfl, by simp only [RingCall.run, RingCall.spec, linearBlockWriteLength_eq]⟩
  | linearFill octets => exact ⟨linearFill_queue rb octets, rfl⟩
  | advance len =>
    obtain ⟨hqueue, hret⟩ := lwrbAdvance_queue rb len
    simp only [RingCall.run, RingCall.spec, hqueue, hret, and_self]

/-- A handle does what the queue does that it stands for. -/
theorem lwrbCall_refines (buff : LwrbHandle) (call : LwrbCall) :
    (buff.run call).1.queue = (call.spec buff.queue).1 ∧
      (buff.run call).2 = (call.spec buff.queue).2 := by
  have hready : buff.queue.isSome = buff.valid.isSome := Option.isSome_map ..
  cases call with
  | init buffdata =>
    cases buffdata with
    | none => exact ⟨rfl, rfl⟩
    | some buffdata =>
      simp only [LwrbHandle.run, LwrbCall.spec, Option.getD_some]
      split
      · next h =>
        refine ⟨?_, rfl⟩
        simp only [LwrbHandle.queue, LwrbHandle.valid, and_self, if_true, Option.map_some,
          lwrbInit_queue]
      · exact ⟨rfl, rfl⟩
  | isReady =>
    simp only [LwrbHandle.run, LwrbCall.spec, hready, and_self]
  | free =>
    refine ⟨?_, rfl⟩
    simp only [LwrbHandle.run, LwrbCall.spec]
    cases hvalid : buff.valid with
    | none => simp [LwrbHandle.queue, hvalid]
    | some rb => simp [LwrbHandle.queue, LwrbHandle.valid]
  | setEvtFn evtFn =>
    refine ⟨?_, rfl⟩
    simp only [LwrbHandle.run, LwrbCall.spec]
    cases hvalid : buff.valid with
    | none => simp [LwrbHandle.queue, hvalid]
    | some rb =>
      have hset : ({ buff with evtFn := evtFn } : LwrbHandle).valid = some rb := hvalid
      simp [LwrbHandle.queue, hvalid, hset]
  | ring call =>
    simp only [LwrbHandle.run, LwrbCall.spec]
    cases hvalid : buff.valid with
    | none => simp [LwrbHandle.queue, hvalid]
    | some rb =>
      obtain ⟨hqueue, hreply⟩ := ringCall_refines rb call
      have hmagic : buff.magic1 = bufMagic1 ∧ buff.magic2 = bufMagic2 := by
        by_contra hne
        rw [LwrbHandle.valid, if_neg hne] at hvalid
        cases hvalid
      have hcalled : ({ buff with ring := some (call.run rb).1 } : LwrbHandle).valid =
          some (call.run rb).1 := if_pos hmagic
      simp [LwrbHandle.queue, hvalid, hcalled, hqueue, hreply]

/-- Whatever is called on a handle, in whatever order, and whether or not it has been initialised:
the results, the octets and the events are those of the queue that it stands for. -/
theorem lwrb_refines (buff : LwrbHandle) (calls : List LwrbCall) :
    (lwrbMachine.final buff calls).queue = queueMachine.final buff.queue calls ∧
      lwrbMachine.outputs buff calls = queueMachine.outputs buff.queue calls := by
  have h := Mealy.outputs_eq (M := lwrbMachine) (N := queueMachine) (f := id)
    (R := fun buff queue => buff.queue = queue)
    (by rintro buff _ call rfl; exact lwrbCall_refines buff call) (s := buff) rfl calls
  rwa [List.map_id] at h

/-! ### Runs on a ready ring -/

def ringMachine : Mealy Lwrb RingCall LwrbReply where
  step := RingCall.run

/-- A ready handle with an event function runs its ring. -/
theorem lwrbMachine_ring {buff : LwrbHandle} {rb : Lwrb} (hready : buff.valid = some rb)
    (hevt : buff.evtFn = true) (calls : List RingCall) :
    (lwrbMachine.final buff (calls.map LwrbCall.ring)).valid = some (ringMachine.final rb calls) ∧
      lwrbMachine.outputs buff (calls.map LwrbCall.ring) = ringMachine.outputs rb calls := by
  have hstep (rb : Lwrb) (buff : LwrbHandle) (call : RingCall)
      (h : buff.valid = some rb ∧ buff.evtFn = true) :
      (((buff.run (.ring call)).1.valid = some (call.run rb).1 ∧
        (buff.run (.ring call)).1.evtFn = true) ∧
      (call.run rb).2 = (buff.run (.ring call)).2) := by
    obtain ⟨hvalid, hevt⟩ := h
    have hmagic : buff.magic1 = bufMagic1 ∧ buff.magic2 = bufMagic2 := by
      by_contra hne
      rw [LwrbHandle.valid, if_neg hne] at hvalid
      cases hvalid
    simp only [LwrbHandle.run, hvalid, hevt, if_true]
    exact ⟨⟨if_pos hmagic, trivial⟩, trivial⟩
  obtain ⟨⟨hfinal, -⟩, houtputs⟩ := Mealy.outputs_eq (M := ringMachine) (N := lwrbMachine)
    (R := fun rb buff => buff.valid = some rb ∧ buff.evtFn = true) hstep ⟨hready, hevt⟩ calls
  exact ⟨hfinal, houtputs.symm⟩

/-- What a call with its reply takes out of a ring that holds `held`, and what it puts in. -/
def RingCall.Moves (call : RingCall) (held : List UInt8) (reply : LwrbReply)
    (left entered : List UInt8) : Prop :=
  match call with
  | write data => left = [] ∧ entered = (data.getD []).take reply.ret ∧ entered.length = reply.ret
  | read _ _ => left = reply.octets ∧ left.length = reply.ret ∧ entered = []
  | skip _ => left.length = reply.ret ∧ entered = []
  | advance _ => left = [] ∧ entered.length = reply.ret
  | reset => left = held ∧ entered = []
  | _ => left = [] ∧ entered = []

theorem spec_moves (queue : CircularQueue UInt8) (call : RingCall) : ∃ left entered,
    call.Moves queue.stored (call.spec queue).2 left entered ∧
      left ++ (call.spec queue).1.stored = queue.stored ++ entered := by
  cases call with
  | write data =>
    refine ⟨[], (data.getD []).take queue.space, ⟨rfl, ?_, rfl⟩, ?_⟩
    · simp only [RingCall.spec, List.length_take, List.take_eq_take_iff]
      omega
    · simp only [RingCall.spec, CircularQueue.put_take_space, CircularQueue.put_stored,
        List.nil_append]
  | read data btr =>
    refine ⟨if data then queue.stored.take btr else [], [], ⟨rfl, rfl, rfl⟩, ?_⟩
    cases data with
    | false => simp [RingCall.spec]
    | true =>
      simp only [RingCall.spec, if_true, List.length_take, CircularQueue.drop_min,
        CircularQueue.drop_stored, List.take_append_drop, List.append_nil]
  | skip len =>
    refine ⟨queue.stored.take len, [], ⟨List.length_take .., rfl⟩, ?_⟩
    rw [List.append_nil]
    exact List.take_append_drop len queue.stored
  | advance len =>
    refine ⟨[], queue.free.take (min len queue.space), ⟨rfl, ?_⟩, rfl⟩
    rw [List.length_take]
    simp only [RingCall.spec, CircularQueue.space]
    omega
  | reset => exact ⟨queue.stored, [], ⟨rfl, rfl⟩, rfl⟩
  | linearFill octets => exact ⟨[], [], ⟨rfl, rfl⟩, (List.append_nil _).symm⟩
  | peek | getFree | getFull | linearRead | linearWrite =>
    exact ⟨[], [], ⟨rfl, rfl⟩, (List.append_nil _).symm⟩

/-- In every run on a ready ring, what the reads, the skips and the resets take out and what stays
in it is, in order, what was in it and what the writes and the advances put in. A reset takes out
all that the ring holds, every other call as much as its count says. -/
theorem lwrb_conserves (rb : Lwrb) (calls : List RingCall) :
    ∃ moves : List (List UInt8 × List UInt8),
      List.Forall₂ (fun (step : Lwrb × RingCall × LwrbReply) (move : List UInt8 × List UInt8) =>
          step.2.1.Moves step.1.content step.2.2 move.1 move.2)
        ((ringMachine.states rb calls).zip (calls.zip (ringMachine.outputs rb calls))) moves ∧
      moves.flatMap Prod.fst ++ (ringMachine.final rb calls).content =
        rb.content ++ moves.flatMap Prod.snd := by
  refine ringMachine.exists_moves
    (P := fun rb call reply left entered => call.Moves rb.content reply left entered)
    (q := Lwrb.content) (fun rb call => ?_) rb calls
  obtain ⟨hqueue, hreply⟩ := ringCall_refines rb call
  obtain ⟨left, entered, hmove, hstored⟩ := spec_moves rb.queue call
  rw [← hqueue] at hstored
  rw [← hreply] at hmove
  exact ⟨left, entered, hmove, hstored⟩

/-- How many octets are stored after an event, if it was this many before. -/
def LwrbEvt.level (full : ℤ) : LwrbEvt × ℕ → ℤ
  | (write, bp) => full + bp
  | (read, bp) => full - bp
  | (reset, _) => 0

theorem spec_level (queue : CircularQueue UInt8) (call : RingCall) :
    (call.spec queue).2.events.foldl LwrbEvt.level (queue.stored.length : ℤ) =
      (call.spec queue).1.stored.length := by
  have hwrite {len n : ℕ} (h : len = 0 → n = 0) (full : ℤ) :
      (sendEvt (len ≠ 0) .write n).foldl LwrbEvt.level full = full + n := by
    by_cases h0 : len = 0
    · simp [sendEvt, h0, h h0]
    · simp [sendEvt, h0, LwrbEvt.level]
  have hread {len n : ℕ} (h : len = 0 → n = 0) (full : ℤ) :
      (sendEvt (len ≠ 0) .read n).foldl LwrbEvt.level full = full - n := by
    by_cases h0 : len = 0
    · simp [sendEvt, h0, h h0]
    · simp [sendEvt, h0, LwrbEvt.level]
  cases call with
  | write data =>
    simp only [RingCall.spec, hwrite id, CircularQueue.put_take_space, CircularQueue.put_stored,
      List.length_append, Int.natCast_add]
  | read data btr =>
    have hle : (if data then queue.stored.take btr else []).length ≤ queue.stored.length := by
      split
      · exact List.length_take_le' _ _
      · exact Nat.zero_le _
    simp only [RingCall.spec, hread id, CircularQueue.drop_stored, List.length_drop]
    omega
  | skip len =>
    simp only [RingCall.spec, CircularQueue.drop_stored, List.length_drop]
    rw [hread (by omega)]
    omega
  | advance len =>
    have hroom := queue.room
    simp only [RingCall.spec, CircularQueue.advance_stored, List.length_append, List.length_take]
    rw [hwrite (by omega)]
    unfold CircularQueue.space
    omega
  | reset | peek | getFree | getFull | linearRead | linearWrite | linearFill => rfl

/-- The events tell how many octets are stored. -/
theorem events_level (rb : Lwrb) (calls : List RingCall) :
    ((ringMachine.outputs rb calls).flatMap LwrbReply.events).foldl LwrbEvt.level
      (lwrbGetFull rb : ℤ) = lwrbGetFull (ringMachine.final rb calls) := by
  refine ringMachine.foldl_outputs (m := fun rb => (lwrbGetFull rb : ℤ)) (fun rb call => ?_) rb
    calls
  obtain ⟨hqueue, hreply⟩ := ringCall_refines rb call
  have hlevel := spec_level rb.queue call
  rw [← hqueue, ← hreply] at hlevel
  simpa [ringMachine, content_length] using hlevel

/-! ### Two blocks instead of a copy -/

/-- Fills the linear block and advances: the ring, and the number of octets stored. -/
def writeLinear (rb : Lwrb) (data : List UInt8) : Lwrb × ℕ :=
  let octets := data.take (lwrbGetLinearBlockWriteLength rb)
  lwrbAdvance (linearFill rb octets) octets.length

/-- Takes up to `btr` octets from the linear block, and skips them. -/
def readLinear (rb : Lwrb) (btr : ℕ) : Lwrb × List UInt8 :=
  let octets := (linearReadBlock rb).take btr
  ((lwrbSkip rb octets.length).1, octets)

theorem writeLinear_queue (rb : Lwrb) (data : List UInt8) :
    (writeLinear rb data).1.queue = rb.queue.put (data.take rb.queue.writeBlock) ∧
      (writeLinear rb data).2 = (data.take rb.queue.writeBlock).length ∧
      (writeLinear rb data).1.content.length = rb.content.length + (writeLinear rb data).2 := by
  have hle : (data.take rb.queue.writeBlock).length ≤ rb.queue.space := by
    have : rb.queue.writeBlock ≤ rb.queue.space := Nat.min_le_left _ _
    rw [List.length_take]
    omega
  obtain ⟨hadvance, hret⟩ := lwrbAdvance_queue (linearFill rb (data.take rb.queue.writeBlock))
    (data.take rb.queue.writeBlock).length
  rw [linearFill_queue, List.take_take, Nat.min_self] at hadvance hret
  rw [CircularQueue.advance_fill _ hle] at hadvance
  rw [CircularQueue.fill_space, Nat.min_eq_left hle] at hret
  rw [writeLinear, linearBlockWriteLength_eq]
  refine ⟨hadvance, hret, ?_⟩
  rw [← queue_stored, hadvance, hret, CircularQueue.put_stored, List.take_of_length_le hle,
    List.length_append, queue_stored]

theorem readLinear_queue (rb : Lwrb) (btr : ℕ) :
    (readLinear rb btr).1.queue = rb.queue.drop (min btr rb.queue.readBlock.length) ∧
      (readLinear rb btr).2 = rb.queue.readBlock.take btr := by
  obtain ⟨hskip, -⟩ := lwrbSkip_queue rb ((linearReadBlock rb).take btr).length
  rw [List.length_take, linearReadBlock_eq] at hskip
  exact ⟨by rw [readLinear, linearReadBlock_eq, List.length_take]; exact hskip,
    by rw [readLinear, linearReadBlock_eq]⟩

/-- Writing in place, twice, leaves the ring as `lwrb_write` does, octet by octet, and reading in
place, twice, as `lwrb_read` does. -/
theorem linear_eq_copy (rb : Lwrb) (data : List UInt8) (btr : ℕ) :
    (let first := writeLinear rb data
      let second := writeLinear first.1 (data.drop first.2)
      (second.1, first.2 + second.2)) = lwrbWrite rb data ∧
    (let first := readLinear rb btr
      let second := readLinear first.1 (btr - first.2.length)
      (second.1, first.2 ++ second.2)) = lwrbRead rb btr := by
  constructor
  · obtain ⟨hfirst, hcount, hgrown⟩ := writeLinear_queue rb data
    obtain ⟨hsecond, -, hgrown'⟩ :=
      writeLinear_queue (writeLinear rb data).1 (data.drop (writeLinear rb data).2)
    obtain ⟨hwrite, hret⟩ := lwrbWrite_queue rb data
    have hdrop : data.drop (writeLinear rb data).2 = data.drop rb.queue.writeBlock := by
      rw [hcount, List.drop_eq_drop_iff, List.length_take]
      omega
    have hsame : (writeLinear (writeLinear rb data).1
        (data.drop (writeLinear rb data).2)).1 = (lwrbWrite rb data).1 := by
      apply queue_injective
      rw [hsecond, hfirst, hdrop, CircularQueue.put_blocks, hwrite]
    refine Prod.ext hsame ?_
    have hlen : (lwrbWrite rb data).1.content.length =
        rb.content.length + min data.length rb.queue.space := by
      rw [← queue_stored, hwrite, CircularQueue.put_stored, List.length_append, List.length_take,
        queue_stored, Nat.min_comm]
    rw [← hsame, hgrown', hgrown] at hlen
    change (writeLinear rb data).2 + _ = _
    omega
  · obtain ⟨hfirst, hoctets⟩ := readLinear_queue rb btr
    obtain ⟨hsecond, hoctets'⟩ :=
      readLinear_queue (readLinear rb btr).1 (btr - (readLinear rb btr).2.length)
    obtain ⟨hread, hgot⟩ := lwrbRead_queue rb btr
    obtain ⟨htake, hdrop⟩ := rb.queue.drop_blocks btr
    have hlen : (readLinear rb btr).2.length = min btr rb.queue.readBlock.length := by
      rw [hoctets, List.length_take]
    refine Prod.ext (queue_injective ?_) ?_
    · rw [hread, ← hdrop, ← hfirst, ← hlen]
      exact hsecond
    · rw [hgot, ← htake, ← hfirst, ← hlen, ← hoctets, ← hoctets']

end Cmux
