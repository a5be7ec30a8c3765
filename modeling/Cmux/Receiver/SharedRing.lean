import Cmux.Foundation.Interleaving
import Cmux.Receiver.Ring

/-! The ring between two threads, one that writes and one that reads, as the loads and stores of
`lwrb.c` on its positions and its cells. However they interleave, the ring is a pipe: what is read
is what was written, in order and once, and neither thread waits for the other. -/
namespace Cmux
open Interleaving Lwrb

/-- The accesses of the functions to what both threads use. The rest of the handle does not
change. -/
inductive RingAccess where
  | loadR
  | loadW
  | loadCell (i : ℕ)
  | storeCell (i : ℕ) (octet : UInt8)
  | storeR (r : ℕ)
  | storeW (w : ℕ)
  deriving DecidableEq, Repr

def RingAccess.Value : RingAccess → Type
  | loadR | loadW => ℕ
  | loadCell _ => UInt8
  | storeCell _ _ | storeR _ | storeW _ => Unit

abbrev RingThread := Thread RingAccess RingAccess.Value

/-! ### The functions, access by access -/

def loadR : RingThread ℕ := Thread.access RingAccess.loadR

def loadW : RingThread ℕ := Thread.access RingAccess.loadW

def loadCell (i : ℕ) : RingThread UInt8 := Thread.access (RingAccess.loadCell i)

def storeCell (i : ℕ) (octet : UInt8) : RingThread Unit :=
  Thread.access (RingAccess.storeCell i octet)

def storeR (r : ℕ) : RingThread Unit := Thread.access (RingAccess.storeR r)

def storeW (w : ℕ) : RingThread Unit := Thread.access (RingAccess.storeW w)

def storeCells (i : ℕ) : List UInt8 → RingThread Unit
  | [] => pure ()
  | octet :: octets => do
    storeCell i octet
    storeCells (i + 1) octets

def loadCells (i : ℕ) : ℕ → RingThread (List UInt8)
  | 0 => pure []
  | n + 1 => do
    let octet ← loadCell i
    let octets ← loadCells (i + 1) n
    pure (octet :: octets)

def freeBetween (size w r : ℕ) : ℕ :=
  let size := if w = r then size else if r > w then r - w else size - (w - r)
  size - 1

def fullBetween (size w r : ℕ) : ℕ :=
  if w = r then 0 else if w > r then w - r else size - (r - w)

def getFreeThread (size : ℕ) : RingThread ℕ := do
  let w ← loadW
  let r ← loadR
  pure (freeBetween size w r)

def getFullThread (size : ℕ) : RingThread ℕ := do
  let w ← loadW
  let r ← loadR
  pure (fullBetween size w r)

/-- A position after `tocopy` cells up to the end and the rest from the beginning, `lwrb_write`
and `lwrb_read`. -/
def copiedTo (size pos count : ℕ) : ℕ :=
  let tocopy := min (size - pos) count
  let pos := if count - tocopy > 0 then count - tocopy else pos + tocopy
  if pos ≥ size then 0 else pos

/-- Step 1 and step 2 of `lwrb_write`: a linear part, and the rest at the beginning. -/
def copyIn (size w : ℕ) (data : List UInt8) (btw : ℕ) : RingThread Unit := do
  let tocopy := min (size - w) btw
  storeCells w (data.take tocopy)
  storeCells 0 ((data.drop tocopy).take (btw - tocopy))

def copyOut (size r btr : ℕ) : RingThread (List UInt8) := do
  let tocopy := min (size - r) btr
  let linear ← loadCells r tocopy
  let rest ← loadCells 0 (btr - tocopy)
  pure (linear ++ rest)

def writeThread (size : ℕ) (data : List UInt8) : RingThread ℕ :=
  if data.length = 0 then pure 0
  else do
    let free ← getFreeThread size
    let btw := min free data.length
    if btw = 0 then pure 0
    else do
      let w ← loadW
      copyIn size w data btw
      storeW (copiedTo size w btw)
      pure btw

def readThread (size btr : ℕ) : RingThread (List UInt8) :=
  if btr = 0 then pure []
  else do
    let full ← getFullThread size
    let btr := min full btr
    if btr = 0 then pure []
    else do
      let r ← loadR
      let octets ← copyOut size r btr
      storeR (copiedTo size r btr)
      pure octets

def peekThread (size skipCount btp : ℕ) : RingThread (List UInt8) :=
  if btp = 0 then pure []
  else do
    let r ← loadR
    let full ← getFullThread size
    if skipCount ≥ full then pure []
    else do
      let r := if r + skipCount ≥ size then r + skipCount - size else r + skipCount
      copyOut size r (min (full - skipCount) btp)

def skipThread (size len : ℕ) : RingThread ℕ :=
  if len = 0 then pure 0
  else do
    let full ← getFullThread size
    let len := min len full
    let r ← loadR
    storeR (if r + len ≥ size then r + len - size else r + len)
    pure len

/-! ### Execution -/

/-- The ring, with the octets that have ever been stored in it. No access looks at these. -/
structure SharedRing where
  ring : Lwrb
  sent : List UInt8

namespace Lwrb
variable (rb : Lwrb)

def setCell (i : ℕ) (octet : UInt8) : Lwrb :=
  ⟨rb.buff.set i octet, rb.r, rb.w, by rw [List.length_set]; exact rb.r_lt,
    by rw [List.length_set]; exact rb.w_lt⟩

/-- Nothing stores a position outside the storage. -/
def setR (r : ℕ) : Lwrb := if h : r < rb.size then ⟨rb.buff, r, rb.w, h, rb.w_lt⟩ else rb

def setW (w : ℕ) : Lwrb := if h : w < rb.size then ⟨rb.buff, rb.r, w, rb.r_lt, h⟩ else rb

end Lwrb

def RingAccess.exec : (a : RingAccess) → SharedRing → a.Value × SharedRing
  | loadR, s => (s.ring.r, s)
  | loadW, s => (s.ring.w, s)
  | loadCell i, s => (s.ring.buff.getD i 0, s)
  | storeCell i octet, s => ((), { s with ring := s.ring.setCell i octet })
  | storeR r, s => ((), { s with ring := s.ring.setR r })
  | storeW w, s =>
    ((), ⟨s.ring.setW w, s.sent ++ (s.ring.setW w).content.drop s.ring.content.length⟩)

/-! ### Alone -/

section Alone

/-- Octet by octet. -/
theorem memcpy_set {buff octets : List UInt8} {i : ℕ} {octet : UInt8} (h : i < buff.length) :
    memcpy (buff.set i octet) (i + 1) octets = memcpy buff i (octet :: octets) := by
  have htake : (buff.set i octet).take (i + 1) = buff.take i ++ [octet] := by
    rw [List.set_eq_take_append_cons_drop, if_pos h]
    have hlen : (buff.take i).length = i := List.length_take_of_le (Nat.le_of_lt h)
    rw [List.take_append, hlen, Nat.add_sub_cancel_left, List.take_of_length_le (by omega)]
    rfl
  rw [memcpy, memcpy, htake, List.drop_set_of_lt (by omega), List.append_assoc, List.append_assoc,
    List.length_cons, Nat.add_right_comm, Nat.add_assoc, List.append_assoc]
  rfl

theorem run_storeCells (octets : List UInt8) {i : ℕ} {s : SharedRing}
    (h : i + octets.length ≤ s.ring.size) :
    ((storeCells i octets).run RingAccess.exec s).2.ring.buff = memcpy s.ring.buff i octets ∧
      ((storeCells i octets).run RingAccess.exec s).2.ring.r = s.ring.r ∧
      ((storeCells i octets).run RingAccess.exec s).2.ring.w = s.ring.w ∧
      ((storeCells i octets).run RingAccess.exec s).2.sent = s.sent := by
  induction octets generalizing i s with
  | nil => simp [storeCells, memcpy]
  | cons octet octets ih =>
    rw [List.length_cons] at h
    have hset : (s.ring.setCell i octet).size = s.ring.size := List.length_set
    rw [storeCells, Thread.run_bind, ← memcpy_set (show i < s.ring.buff.length by
      change i < s.ring.size
      omega)]
    exact ih (s := { s with ring := s.ring.setCell i octet }) (by rw [hset]; omega)

theorem run_loadCells {i n : ℕ} {s : SharedRing} (h : i + n ≤ s.ring.size) :
    (loadCells i n).run RingAccess.exec s = ((s.ring.buff.drop i).take n, s) := by
  induction n generalizing i with
  | zero => simp [loadCells]
  | succ n ih =>
    have hi : i < s.ring.buff.length := by
      change i < s.ring.size
      omega
    have hcell : (s.ring.buff.drop i).take (n + 1) =
        s.ring.buff.getD i 0 :: (s.ring.buff.drop (i + 1)).take n := by
      rw [List.drop_eq_getElem_cons hi, List.take_succ_cons, List.getD_eq_getElem?_getD,
        List.getElem?_eq_getElem hi, Option.getD_some]
    rw [loadCells, Thread.run_bind, Thread.run_bind, hcell]
    change (s.ring.buff.getD i 0 :: ((loadCells (i + 1) n).run RingAccess.exec s).1,
      ((loadCells (i + 1) n).run RingAccess.exec s).2) = _
    rw [ih (by omega)]

theorem run_getFreeThread (s : SharedRing) :
    (getFreeThread s.ring.size).run RingAccess.exec s = (lwrbGetFree s.ring, s) := rfl

theorem run_getFullThread (s : SharedRing) :
    (getFullThread s.ring.size).run RingAccess.exec s = (lwrbGetFull s.ring, s) := rfl

theorem run_copyIn {rb : Lwrb} (data : List UInt8) {btw : ℕ} (hlt : btw < rb.size)
    (sent : List UInt8) : ∃ s : SharedRing,
      (copyIn rb.size rb.w data btw).run RingAccess.exec ⟨rb, sent⟩ = ((), s) ∧
      s.ring.buff = writtenBuff rb data btw ∧ s.ring.r = rb.r ∧ s.ring.w = rb.w ∧
      s.sent = sent := by
  have hw := rb.w_lt_size
  have hlinear : (data.take (min (rb.size - rb.w) btw)).length ≤ rb.size - rb.w := by
    rw [List.length_take]
    omega
  obtain ⟨hbuff, hr, hw', hsent⟩ := run_storeCells
    (data.take (min (rb.size - rb.w) btw)) (i := rb.w) (s := ⟨rb, sent⟩) (by simp only; omega)
  generalize hfirst : (storeCells rb.w (data.take (min (rb.size - rb.w) btw))).run RingAccess.exec
    ⟨rb, sent⟩ = first at hbuff hr hw' hsent
  have hsize : first.2.ring.size = rb.size := by
    rw [Lwrb.size, hbuff]
    refine memcpy_length ?_
    change rb.w + _ ≤ rb.size
    omega
  obtain ⟨hbuff₂, hr₂, hw₂, hsent₂⟩ := run_storeCells
    ((data.drop (min (rb.size - rb.w) btw)).take (btw - min (rb.size - rb.w) btw)) (i := 0)
    (s := first.2) (by rw [hsize, List.length_take]; omega)
  refine ⟨_, ?_, ?_, hr₂.trans hr, hw₂.trans hw', hsent₂.trans hsent⟩
  · rw [copyIn, Thread.run_bind, hfirst]
  · rw [hbuff₂, hbuff, writtenBuff]
    dsimp only
    split
    · rfl
    next h0 =>
      rw [Nat.eq_zero_of_not_pos h0, List.take_zero]
      simp [memcpy]

theorem run_copyOut {rb : Lwrb} {r n : ℕ} (hr : r < rb.size) (hn : n ≤ rb.size)
    (sent : List UInt8) :
    (copyOut rb.size r n).run RingAccess.exec ⟨rb, sent⟩ = (readOctets rb r n, ⟨rb, sent⟩) := by
  rw [copyOut, Thread.run_bind, run_loadCells (s := ⟨rb, sent⟩) (by simp only; omega),
    Thread.run_bind, run_loadCells (s := ⟨rb, sent⟩) (by simp only; omega), List.drop_zero]
  rfl

/-- With no other thread the accesses do what the function does. -/
theorem run_writeThread (rb : Lwrb) (data sent : List UInt8) :
    (writeThread rb.size data).run RingAccess.exec ⟨rb, sent⟩ =
      ((lwrbWrite rb data).2,
        ⟨(lwrbWrite rb data).1, sent ++ data.take (lwrbWrite rb data).2⟩) := by
  by_cases h0 : min (lwrbGetFree rb) data.length = 0
  · have hnone : lwrbWrite rb data = (rb, 0) := by rw [lwrbWrite, if_pos h0]
    rw [hnone, List.take_zero, List.append_nil, writeThread]
    split
    · rfl
    · rw [Thread.run_bind, run_getFreeThread ⟨rb, sent⟩]
      simp only [h0, if_true]
      rfl
  · have hlt := btw_lt rb data.length
    have hdata : data.length ≠ 0 := by omega
    obtain ⟨s, hrun, hbuff, hr, hw, hsent⟩ := run_copyIn data hlt sent
    have hsize : s.ring.size = rb.size := by
      rw [Lwrb.size, hbuff, writtenBuff_length rb data hlt]
    have hring : s.ring.setW (writtenW rb (min (lwrbGetFree rb) data.length)) =
        (lwrbWrite rb data).1 := by
      rw [setW, dif_pos (hsize.symm ▸ writtenW_lt rb hlt)]
      simp only [lwrbWrite, if_neg h0]
      exact eq_of_fields hbuff hr rfl
    have hfull : s.ring.content.length = rb.content.length := by
      rw [content_length, content_length, lwrbGetFull, hr, hw, hsize]
      rfl
    have hret : (lwrbWrite rb data).2 = min (lwrbGetFree rb) data.length := by
      simp only [lwrbWrite, if_neg h0]
    have hnew : (lwrbWrite rb data).1.content.drop rb.content.length =
        data.take (lwrbWrite rb data).2 := by
      obtain ⟨hcontent, -, -⟩ := lwrbWrite_spec rb data
      rw [hcontent, List.drop_left, hret, List.take_eq_take_iff, lwrbGetFree_eq, content_length]
      omega
    rw [writeThread, if_neg hdata, Thread.run_bind, run_getFreeThread ⟨rb, sent⟩]
    simp only [if_neg h0]
    change Thread.run RingAccess.exec
      (copyIn rb.size rb.w data (min (lwrbGetFree rb) data.length) >>= _) ⟨rb, sent⟩ = _
    rw [Thread.run_bind, hrun]
    change (min (lwrbGetFree rb) data.length, SharedRing.mk
      (s.ring.setW (writtenW rb (min (lwrbGetFree rb) data.length)))
      (s.sent ++ (s.ring.setW (writtenW rb (min (lwrbGetFree rb) data.length))).content.drop
        s.ring.content.length)) = _
    rw [hring, hfull, hnew, hsent, hret]

theorem run_readThread (rb : Lwrb) (btr : ℕ) (sent : List UInt8) :
    (readThread rb.size btr).run RingAccess.exec ⟨rb, sent⟩ =
      ((lwrbRead rb btr).2, ⟨(lwrbRead rb btr).1, sent⟩) := by
  by_cases h0 : min (lwrbGetFull rb) btr = 0
  · have hnone : lwrbRead rb btr = (rb, []) := by rw [lwrbRead, if_pos h0]
    rw [hnone, readThread]
    split
    · rfl
    · rw [Thread.run_bind, run_getFullThread ⟨rb, sent⟩]
      simp only [h0, if_true]
      rfl
  · have hbtr : btr ≠ 0 := by omega
    have hfull := lwrbGetFull_lt rb
    have hring : rb.setR (readR rb (min (lwrbGetFull rb) btr)) = (lwrbRead rb btr).1 := by
      rw [setR, dif_pos (readR_lt rb btr)]
      simp only [lwrbRead, if_neg h0]
    have hoctets : (lwrbRead rb btr).2 = readOctets rb rb.r (min (lwrbGetFull rb) btr) := by
      simp only [lwrbRead, if_neg h0]
    rw [readThread, if_neg hbtr, Thread.run_bind, run_getFullThread ⟨rb, sent⟩]
    simp only [if_neg h0]
    change Thread.run RingAccess.exec
      (copyOut rb.size rb.r (min (lwrbGetFull rb) btr) >>= _) ⟨rb, sent⟩ = _
    rw [Thread.run_bind, run_copyOut rb.r_lt_size (by omega)]
    change (readOctets rb rb.r (min (lwrbGetFull rb) btr), SharedRing.mk
      (rb.setR (readR rb (min (lwrbGetFull rb) btr))) sent) = _
    rw [hring, hoctets]

theorem run_peekThread (rb : Lwrb) (skipCount btp : ℕ) (sent : List UInt8) :
    (peekThread rb.size skipCount btp).run RingAccess.exec ⟨rb, sent⟩ =
      (lwrbPeek rb skipCount btp, ⟨rb, sent⟩) := by
  have hfull := lwrbGetFull_lt rb
  have hr := rb.r_lt_size
  by_cases h0 : btp = 0
  · subst h0
    rw [lwrbPeek_eq, List.take_zero, peekThread, if_pos rfl]
    rfl
  rw [peekThread, if_neg h0]
  change Thread.run RingAccess.exec (getFullThread rb.size >>= _) ⟨rb, sent⟩ = _
  rw [Thread.run_bind, run_getFullThread ⟨rb, sent⟩, lwrbPeek]
  by_cases h : skipCount ≥ lwrbGetFull rb
  · simp only [if_pos h]
    rfl
  · simp only [if_neg h]
    change Thread.run RingAccess.exec (copyOut rb.size (if rb.r + skipCount ≥ rb.size
      then rb.r + skipCount - rb.size else rb.r + skipCount) _) ⟨rb, sent⟩ = _
    refine run_copyOut ?_ (by omega) sent
    split <;> omega

theorem run_skipThread (rb : Lwrb) (len : ℕ) (sent : List UInt8) :
    (skipThread rb.size len).run RingAccess.exec ⟨rb, sent⟩ =
      ((lwrbSkip rb len).2, ⟨(lwrbSkip rb len).1, sent⟩) := by
  by_cases h0 : len = 0
  · rw [skipThread, if_pos h0, lwrbSkip, if_pos h0]
    rfl
  · rw [skipThread, if_neg h0, lwrbSkip, if_neg h0, Thread.run_bind,
      run_getFullThread ⟨rb, sent⟩]
    change (min len (lwrbGetFull rb), SharedRing.mk (rb.setR (skipR rb len)) sent) = _
    rw [setR, dif_pos (skipR_lt rb len)]

/-- Each function, left alone, does to the ring what it does in a program of one thread. -/
theorem alone_eq_sequential (rb : Lwrb) (sent data : List UInt8) (skipCount n : ℕ) :
    (writeThread rb.size data).run RingAccess.exec ⟨rb, sent⟩ =
        ((lwrbWrite rb data).2,
          ⟨(lwrbWrite rb data).1, sent ++ data.take (lwrbWrite rb data).2⟩) ∧
      (readThread rb.size n).run RingAccess.exec ⟨rb, sent⟩ =
        ((lwrbRead rb n).2, ⟨(lwrbRead rb n).1, sent⟩) ∧
      (peekThread rb.size skipCount n).run RingAccess.exec ⟨rb, sent⟩ =
        (lwrbPeek rb skipCount n, ⟨rb, sent⟩) ∧
      (skipThread rb.size n).run RingAccess.exec ⟨rb, sent⟩ =
        ((lwrbSkip rb n).2, ⟨(lwrbSkip rb n).1, sent⟩) :=
  ⟨run_writeThread rb data sent, run_readThread rb n sent, run_peekThread rb skipCount n sent,
    run_skipThread rb n sent⟩

end Alone

/-! ### Together -/

structure WriterStep (s s' : SharedRing) : Prop where
  size : s'.ring.size = s.ring.size
  r : s'.ring.r = s.ring.r
  grows : ∃ more, s'.ring.content = s.ring.content ++ more ∧ s'.sent = s.sent ++ more

structure ReaderStep (s s' : SharedRing) : Prop where
  buff : s'.ring.buff = s.ring.buff
  w : s'.ring.w = s.ring.w
  sent : s'.sent = s.sent
  shrinks : s'.ring.content <:+ s.ring.content

instance : IsPreorder SharedRing WriterStep where
  refl s := ⟨rfl, rfl, [], (List.append_nil _).symm, (List.append_nil _).symm⟩
  trans a b c := by
    rintro ⟨hsize, hr, more, hcontent, hsent⟩ ⟨hsize', hr', more', hcontent', hsent'⟩
    refine ⟨hsize'.trans hsize, hr'.trans hr, more ++ more', ?_, ?_⟩
    · rw [hcontent', hcontent, List.append_assoc]
    · rw [hsent', hsent, List.append_assoc]

instance : IsPreorder SharedRing ReaderStep where
  refl _ := ⟨rfl, rfl, rfl, List.suffix_rfl⟩
  trans _ _ _ h h' := ⟨h'.buff.trans h.buff, h'.w.trans h.w, h'.sent.trans h.sent,
    h'.shrinks.trans h.shrinks⟩

/-- The cell is one of those that are stored. -/
def Lwrb.Holds (rb : Lwrb) (i : ℕ) : Prop := ∃ j < lwrbGetFull rb, i = (rb.r + j) % rb.size

/-- What the writer accesses: no cell that is stored, and no position but its own. -/
def WriterMay (s : SharedRing) : RingAccess → Prop
  | .loadR | .loadW => True
  | .storeCell i _ => i < s.ring.size ∧ ¬ s.ring.Holds i
  | .storeW w => w < s.ring.size
  | .loadCell _ | .storeR _ => False

/-- What the reader accesses: no cell but those that are stored, and no position but its own. -/
def ReaderMay (s : SharedRing) : RingAccess → Prop
  | .loadR | .loadW => True
  | .loadCell i => s.ring.Holds i
  | .storeR r => r < s.ring.size
  | .storeCell _ _ | .storeW _ => False

def WriterGuar (a : RingAccess) (s s' : SharedRing) : Prop := WriterMay s a ∧ WriterStep s s'

def ReaderGuar (a : RingAccess) (s s' : SharedRing) : Prop := ReaderMay s a ∧ ReaderStep s s'

/-! ### The writer -/

section Writer
variable {size : ℕ}

theorem ReaderStep.size_eq {s s' : SharedRing} (h : ReaderStep s s') : s'.ring.size = s.ring.size :=
  congrArg List.length h.buff

theorem ReaderStep.free_le {s s' : SharedRing} (h : ReaderStep s s') :
    lwrbGetFree s.ring ≤ lwrbGetFree s'.ring := by
  have hlen := h.shrinks.length_le
  rw [content_length, content_length] at hlen
  rw [lwrbGetFree_eq, lwrbGetFree_eq, h.size_eq]
  omega

/-- Different offsets are different cells. -/
theorem offset_injective {p j k n : ℕ} (hj : j < n) (hk : k < n)
    (h : (p + j) % n = (p + k) % n) : j = k := by
  have hp : p % n < n := Nat.mod_lt p (by omega)
  rw [← Nat.mod_add_mod p n j, ← Nat.mod_add_mod p n k, advance_mod hp (by omega),
    advance_mod hp (by omega)] at h
  split_ifs at h <;> omega

/-- A cell of a list that is cut elsewhere. -/
theorem rotate_set {l : List UInt8} {p k : ℕ} (hk : k < l.length) (octet : UInt8) :
    (l.set ((p + k) % l.length) octet).rotate p = (l.rotate p).set k octet := by
  have hlen : 0 < l.length := by omega
  apply List.ext_getElem
  · simp
  intro n h₁ h₂
  rw [List.length_rotate, List.length_set] at h₁
  rw [List.getElem_rotate, List.getElem_set, List.getElem_set, List.getElem_rotate]
  simp only [List.length_set]
  have hiff : (p + k) % l.length = (n + p) % l.length ↔ k = n := by
    rw [Nat.add_comm n p]
    exact ⟨offset_injective hk h₁, fun h => h ▸ rfl⟩
  simp only [hiff]

/-- What the writer knows: where it writes, for how many octets there is room, and what it has
written there. -/
structure Writing (size : ℕ) (sent : List UInt8) (w room : ℕ) (written : List UInt8)
    (s : SharedRing) : Prop where
  size_eq : s.ring.size = size
  sent_eq : s.sent = sent
  w_eq : s.ring.w = w
  room_le : room ≤ lwrbGetFree s.ring
  written_at : written <+: s.ring.buff.rotate w

theorem writing_stable {sent written : List UInt8} {w room : ℕ} :
    Thread.Stable ReaderStep (Writing size sent w room written) := by
  intro s s' h hs
  refine ⟨h.size_eq.trans hs.size_eq, h.sent.trans hs.sent_eq, h.w.trans hs.w_eq,
    Nat.le_trans hs.room_le h.free_le, ?_⟩
  rw [h.buff]
  exact hs.written_at

/-- The cells from the write position on, as far as there is room, are not stored. -/
theorem not_holds {rb : Lwrb} {k : ℕ} (hk : k < lwrbGetFree rb) :
    (rb.w + k) % rb.size = (rb.r + (lwrbGetFull rb + k)) % rb.size ∧
      ¬ rb.Holds ((rb.w + k) % rb.size) := by
  have hfree := lwrbGetFree_eq rb
  have hturn : (rb.w + k) % rb.size = (rb.r + (lwrbGetFull rb + k)) % rb.size := by
    rw [rb.w_eq, Nat.mod_add_mod, Nat.add_assoc]
  refine ⟨hturn, ?_⟩
  rintro ⟨j, hj, h⟩
  rw [hturn] at h
  have := offset_injective (by omega) (by omega) h
  omega

/-- A store into a free cell. -/
theorem setCell_content {rb : Lwrb} {k : ℕ} (hk : k < lwrbGetFree rb) (octet : UInt8) :
    (rb.setCell ((rb.w + k) % rb.size) octet).content = rb.content := by
  have hfree := lwrbGetFree_eq rb
  have hsize : (rb.setCell ((rb.w + k) % rb.size) octet).size = rb.size := List.length_set
  have hfull : lwrbGetFull (rb.setCell ((rb.w + k) % rb.size) octet) = lwrbGetFull rb := by
    rw [lwrbGetFull, hsize]
    rfl
  rw [content, content, hfull, (not_holds hk).1]
  change ((rb.buff.set ((rb.r + (lwrbGetFull rb + k)) % rb.buff.length) octet).rotate rb.r).take _ =
    _
  rw [rotate_set (by change _ < rb.size; omega), List.take_set_of_le (Nat.le_add_right _ _)]

/-- One more octet at the write position. -/
theorem prefix_set {written cells : List UInt8} (h : written <+: cells)
    (hlt : written.length < cells.length) (octet : UInt8) :
    written ++ [octet] <+: cells.set written.length octet := by
  obtain ⟨rest, rfl⟩ := h
  cases rest with
  | nil => simp at hlt
  | cons x rest => exact ⟨rest, by simp⟩

theorem storeCell_writing {sent written : List UInt8} {w room i : ℕ} {s : SharedRing}
    (hs : Writing size sent w room written s) (hk : written.length < lwrbGetFree s.ring)
    (hi : i = (w + written.length) % size) (octet : UInt8) :
    WriterGuar (.storeCell i octet) s (RingAccess.exec (.storeCell i octet) s).2 ∧
      Writing size sent w room (written ++ [octet]) (RingAccess.exec (.storeCell i octet) s).2 := by
  obtain ⟨hsize, hsent, rfl, hroom, hwritten⟩ := hs
  subst hsize
  subst hi
  have hfree := lwrbGetFree_eq s.ring
  have hcontent := setCell_content hk octet
  have hlen : (s.ring.setCell ((s.ring.w + written.length) % s.ring.size) octet).size =
      s.ring.size := List.length_set
  refine ⟨⟨⟨Nat.mod_lt _ (by omega), (not_holds hk).2⟩, hlen, rfl, [], ?_, ?_⟩,
    hlen, hsent, rfl, ?_, ?_⟩
  · rw [List.append_nil]
    exact hcontent
  · exact (List.append_nil _).symm
  · change room ≤ lwrbGetFree (s.ring.setCell _ octet)
    rw [lwrbGetFree_eq, hlen, ← content_length, hcontent, content_length, ← lwrbGetFree_eq]
    exact hroom
  · change _ <+: (s.ring.buff.set ((s.ring.w + written.length) % s.ring.buff.length)
      octet).rotate s.ring.w
    have hlt : written.length < s.ring.buff.length := by
      change _ < s.ring.size
      omega
    rw [rotate_set hlt]
    exact prefix_set hwritten (by rw [List.length_rotate]; exact hlt) octet

theorem storeCells_triple {sent written octets : List UInt8} {w room i : ℕ}
    (hroom : written.length + octets.length ≤ room) (hi : i + octets.length ≤ size)
    (hcell : octets ≠ [] → i = (w + written.length) % size) :
    (storeCells i octets).Triple RingAccess.exec ReaderStep WriterGuar
      (Writing size sent w room written)
      (fun _ => Writing size sent w room (written ++ octets)) := by
  induction octets generalizing i written with
  | nil =>
    refine Thread.triple_pure writing_stable fun s hs => ?_
    rw [List.append_nil]
    exact hs
  | cons octet octets ih =>
    rw [List.length_cons] at hroom hi
    have hcell := hcell (List.cons_ne_nil _ _)
    refine Thread.Triple.bind (Q := fun _ => Writing size sent w room (written ++ [octet]))
      (Thread.triple_access writing_stable (fun _ => writing_stable) fun s hs => ?_) fun _ => ?_
    · exact storeCell_writing hs (Nat.lt_of_lt_of_le (by omega) hs.room_le) hcell octet
    · rw [List.append_cons written octet octets]
      refine ih (i := i + 1) ?_ (by omega) ?_
      · rw [List.length_append, List.length_singleton]
        omega
      · intro hne
        have hpos := List.length_pos_of_ne_nil hne
        rw [List.length_append, List.length_singleton, ← Nat.add_assoc, ← Nat.mod_add_mod,
          ← hcell, Nat.mod_eq_of_lt (by omega)]

theorem copyIn_triple {sent data : List UInt8} {w room : ℕ} (hw : w < size) {btw : ℕ}
    (hroom : btw ≤ room) (hlt : btw < size) (hdata : btw ≤ data.length) :
    (copyIn size w data btw).Triple RingAccess.exec ReaderStep WriterGuar
      (Writing size sent w room []) (fun _ => Writing size sent w room (data.take btw)) := by
  have hlinear : (data.take (min (size - w) btw)).length = min (size - w) btw := by
    rw [List.length_take]
    omega
  have hrest : ((data.drop (min (size - w) btw)).take (btw - min (size - w) btw)).length =
      btw - min (size - w) btw := by
    rw [List.length_take, List.length_drop]
    omega
  have hboth : [] ++ data.take (min (size - w) btw) ++
      (data.drop (min (size - w) btw)).take (btw - min (size - w) btw) = data.take btw := by
    rw [List.nil_append, ← List.take_add]
    congr 1
    omega
  refine Thread.Triple.bind (storeCells_triple ?_ (by omega) fun _ => ?_) fun _ => ?_
  · rw [hlinear, List.length_nil]
    omega
  · rw [List.length_nil, Nat.add_zero, Nat.mod_eq_of_lt hw]
  · rw [← hboth]
    refine storeCells_triple ?_ (by omega) fun hne => ?_
    · rw [List.length_append, hlinear, hrest, List.length_nil]
      omega
    · -- there is a rest, so the linear part ends with the storage
      have hpos := List.length_pos_of_ne_nil hne
      rw [List.length_append, hlinear, List.length_nil, Nat.zero_add,
        show w + min (size - w) btw = size by omega, Nat.mod_self]

/-- The free space that the writer computes is there, whatever the reader does meanwhile. -/
theorem getFreeThread_triple {P : SharedRing → Prop} (hP : Thread.Stable ReaderStep P)
    (hsize : ∀ s, P s → s.ring.size = size) :
    (getFreeThread size).Triple RingAccess.exec ReaderStep WriterGuar P
      (fun free s => P s ∧ free ≤ lwrbGetFree s.ring) := by
  have hstable (free : ℕ) : Thread.Stable ReaderStep
      (fun s => P s ∧ free ≤ lwrbGetFree s.ring) :=
    fun s s' h hs => ⟨hP s s' h hs.1, Nat.le_trans hs.2 h.free_le⟩
  have hw (w : ℕ) : Thread.Stable ReaderStep (fun s => P s ∧ s.ring.w = w) :=
    fun s s' h hs => ⟨hP s s' h hs.1, h.w.trans hs.2⟩
  refine Thread.Triple.bind (Q := fun w s => P s ∧ s.ring.w = w)
    (Thread.triple_access hP hw fun s hs => ⟨⟨trivial, Std.Refl.refl s⟩, hs, rfl⟩) fun w => ?_
  refine Thread.Triple.bind (Q := fun r s => P s ∧ freeBetween size w r ≤ lwrbGetFree s.ring)
    (Thread.triple_access (hw w) (fun r => hstable _) fun s hs => ?_) fun r =>
      Thread.triple_pure (hstable _) fun s hs => hs
  obtain ⟨hs, rfl⟩ := hs
  obtain rfl := hsize s hs
  exact ⟨⟨trivial, Std.Refl.refl s⟩, hs, Nat.le_refl _⟩

theorem copiedTo_eq {pos count : ℕ} (hpos : pos < size) (hcount : count < size) :
    copiedTo size pos count = (pos + count) % size := by
  rw [advance_mod hpos (Nat.le_of_lt hcount)]
  simp only [copiedTo]
  split_ifs <;> omega

/-- The store of the write position hands over what has been written. -/
theorem storeW_writing {sent written : List UInt8} {w room : ℕ} {s : SharedRing}
    (hs : Writing size sent w room written s) (hroom : written.length ≤ room) :
    WriterGuar (.storeW ((w + written.length) % size)) s
        (RingAccess.exec (.storeW ((w + written.length) % size)) s).2 ∧
      (RingAccess.exec (.storeW ((w + written.length) % size)) s).2.ring.size = size ∧
      (RingAccess.exec (.storeW ((w + written.length) % size)) s).2.sent = sent ++ written := by
  obtain ⟨rfl, rfl, rfl, hfree, hwritten⟩ := hs
  have hlt : (s.ring.w + written.length) % s.ring.size < s.ring.size :=
    Nat.mod_lt _ (Nat.lt_of_le_of_lt (Nat.zero_le _) s.ring.w_lt_size)
  have hspace : written.length ≤ s.ring.queue.space := by
    rw [queue_space]
    omega
  have hset : s.ring.setW ((s.ring.w + written.length) % s.ring.size) =
      ⟨s.ring.buff, s.ring.r, (s.ring.w + written.length) % s.ring.size, s.ring.r_lt, hlt⟩ :=
    dif_pos hlt
  -- what stands at the write position becomes the end of the content
  have hqueue : (s.ring.setW ((s.ring.w + written.length) % s.ring.size)).queue =
      s.ring.queue.advance written.length := by
    rw [hset]
    refine queue_of_w rfl rfl ?_
    rw [Nat.min_eq_left hspace]
  have hfront : s.ring.queue.free.take written.length = written := by
    have hcells : s.ring.buff.rotate s.ring.w = s.ring.queue.free ++ s.ring.content := by
      rw [w_eq, rotate_mod_size, ← List.rotate_rotate, ← queue_cells, queue_stored,
        ← content_length, List.rotate_append_length_eq]
    have hlen : written.length ≤ s.ring.queue.free.length := by
      unfold CircularQueue.space at hspace
      omega
    rw [hcells, List.prefix_iff_eq_take, List.take_append_of_le_length hlen] at hwritten
    exact hwritten.symm
  have hcontent : (s.ring.setW ((s.ring.w + written.length) % s.ring.size)).content =
      s.ring.content ++ written := by
    rw [← queue_stored, hqueue, CircularQueue.advance_stored, Nat.min_eq_left hspace, hfront,
      queue_stored]
  have hsent : (RingAccess.exec (.storeW ((s.ring.w + written.length) % s.ring.size)) s).2.sent =
      s.sent ++ written := by
    change s.sent ++ (s.ring.setW _).content.drop s.ring.content.length = _
    rw [hcontent, List.drop_left]
  have hsize : (s.ring.setW ((s.ring.w + written.length) % s.ring.size)).size = s.ring.size := by
    rw [hset]
    rfl
  refine ⟨⟨hlt, hsize, ?_, written, hcontent, hsent⟩, hsize, hsent⟩
  change (s.ring.setW _).r = s.ring.r
  rw [hset]

structure WriterIdle (size : ℕ) (sent : List UInt8) (s : SharedRing) : Prop where
  size_eq : s.ring.size = size
  sent_eq : s.sent = sent

theorem writerIdle_stable {sent : List UInt8} :
    Thread.Stable ReaderStep (WriterIdle size sent) :=
  fun _ _ h hs => ⟨h.size_eq.trans hs.size_eq, h.sent.trans hs.sent_eq⟩

/-- Whatever the reader does meanwhile, a write hands over as many octets as it says. -/
theorem writeThread_triple (sent data : List UInt8) :
    (writeThread size data).Triple RingAccess.exec ReaderStep WriterGuar (WriterIdle size sent)
      (fun n => WriterIdle size (sent ++ data.take n)) := by
  have hnone : (pure 0 : RingThread ℕ).Triple RingAccess.exec ReaderStep WriterGuar
      (WriterIdle size sent) (fun n => WriterIdle size (sent ++ data.take n)) :=
    Thread.triple_pure writerIdle_stable fun s hs => by
      rw [List.take_zero, List.append_nil]
      exact hs
  unfold writeThread
  split
  · exact hnone
  refine Thread.Triple.bind (getFreeThread_triple writerIdle_stable fun s hs => hs.size_eq)
    fun free => ?_
  dsimp only
  split
  · exact hnone.imp fun s hs => hs.1
  next h0 =>
    have hdata : min free data.length ≤ data.length := Nat.min_le_right _ _
    refine Thread.Triple.bind (Q := fun w s => (w < size ∧ min free data.length < size) ∧
      Writing size sent w (min free data.length) [] s)
      (Thread.triple_access (fun s s' h hs => ⟨writerIdle_stable s s' h hs.1,
          Nat.le_trans hs.2 h.free_le⟩)
        (fun w s s' h hs => ⟨hs.1, writing_stable s s' h hs.2⟩) fun s hs => ?_) fun w s hs => ?_
    · obtain ⟨⟨rfl, rfl⟩, hfree⟩ := hs
      have hfree' := lwrbGetFree_eq s.ring
      have hw := s.ring.w_lt_size
      exact ⟨⟨trivial, Std.Refl.refl s⟩, ⟨hw, by omega⟩, rfl, rfl, rfl,
        Nat.le_trans (Nat.min_le_left _ _) hfree, List.nil_prefix⟩
    · obtain ⟨⟨hw, hlt⟩, hs⟩ := hs
      have hlen : (data.take (min free data.length)).length = min free data.length :=
        List.length_take_of_le hdata
      refine Thread.Triple.bind (copyIn_triple hw (Nat.le_refl _) hlt hdata) (fun _ => ?_) s hs
      refine Thread.Triple.bind
        (Q := fun _ => WriterIdle size (sent ++ data.take (min free data.length)))
        (Thread.triple_access writing_stable (fun _ => writerIdle_stable) fun s hs => ?_)
        fun _ => Thread.triple_pure writerIdle_stable fun s hs => hs
      have hstore := storeW_writing hs (Nat.le_of_eq hlen)
      rw [hlen, ← copiedTo_eq hw hlt] at hstore
      exact ⟨hstore.1, hstore.2.1, hstore.2.2⟩

def writerThread (size : ℕ) : List (List UInt8) → RingThread (List ℕ)
  | [] => pure []
  | data :: writes => do
    let n ← writeThread size data
    let counts ← writerThread size writes
    pure (n :: counts)

/-- What the ring took of each write, by the counts that were returned. -/
def accepted : List (List UInt8) → List ℕ → List UInt8
  | data :: writes, n :: counts => data.take n ++ accepted writes counts
  | _, _ => []

theorem writerThread_triple (sent : List UInt8) (writes : List (List UInt8)) :
    (writerThread size writes).Triple RingAccess.exec ReaderStep WriterGuar (WriterIdle size sent)
      (fun counts s => counts.length = writes.length ∧
        WriterIdle size (sent ++ accepted writes counts) s) := by
  induction writes generalizing sent with
  | nil =>
    refine Thread.triple_pure writerIdle_stable fun s hs => ?_
    change _ ∧ WriterIdle size (sent ++ []) s
    rw [List.append_nil]
    exact ⟨rfl, hs⟩
  | cons data writes ih =>
    refine Thread.Triple.bind (writeThread_triple sent data) fun n => ?_
    refine Thread.Triple.bind (ih (sent ++ data.take n)) fun counts => ?_
    refine Thread.triple_pure (fun s s' h hs => ⟨hs.1, writerIdle_stable s s' h hs.2⟩)
      fun s hs => ?_
    rw [accepted, ← List.append_assoc]
    exact ⟨congrArg (· + 1) hs.1, hs.2⟩

end Writer

/-! ### The reader -/

inductive PipeRead where
  | read (btr : ℕ)
  | peek (skipCount btp : ℕ)
  | skip (len : ℕ)

/-- The call, with the count and the octets that it gives back. -/
def PipeRead.thread (size : ℕ) : PipeRead → RingThread (ℕ × List UInt8)
  | read btr => do
    let octets ← readThread size btr
    pure (octets.length, octets)
  | peek skipCount btp => do
    let octets ← peekThread size skipCount btp
    pure (octets.length, octets)
  | skip len => do
    let count ← skipThread size len
    pure (count, [])

/-- A call takes what it says from the front of a stream, and leaves the rest. -/
def PipeRead.Takes (reply : ℕ × List UInt8) (stream rest : List UInt8) : PipeRead → Prop
  | read btr => reply.2.length ≤ btr ∧ reply.1 = reply.2.length ∧ stream = reply.2 ++ rest
  | peek skipCount btp => reply.2.length ≤ btp ∧ reply.1 = reply.2.length ∧
    reply.2 <+: stream.drop skipCount ∧ rest = stream
  | skip len => reply.1 ≤ len ∧ ∃ skipped, skipped.length = reply.1 ∧ stream = skipped ++ rest

/-- So do the calls of a log, one after the other. -/
inductive TakesAll : List (PipeRead × (ℕ × List UInt8)) → List UInt8 → List UInt8 → Prop where
  | nil (stream : List UInt8) : TakesAll [] stream stream
  | snoc {log : List (PipeRead × (ℕ × List UInt8))} {stream mid rest : List UInt8}
      {call : PipeRead} {reply : ℕ × List UInt8} (h : TakesAll log stream mid)
      (hcall : call.Takes reply mid rest) : TakesAll (log ++ [(call, reply)]) stream rest

section Reader
variable {size : ℕ}

theorem PipeRead.Takes.grows {call : PipeRead} {reply : ℕ × List UInt8}
    {stream rest : List UInt8} (h : call.Takes reply stream rest) (more : List UInt8) :
    call.Takes reply (stream ++ more) (rest ++ more) := by
  cases call with
  | read btr =>
    obtain ⟨hle, hret, rfl⟩ := h
    exact ⟨hle, hret, List.append_assoc ..⟩
  | peek skipCount btp =>
    obtain ⟨hle, hret, hbegin, rfl⟩ := h
    refine ⟨hle, hret, hbegin.trans ?_, rfl⟩
    rw [List.drop_append]
    exact List.prefix_append _ _
  | skip len =>
    obtain ⟨hle, skipped, hskipped, rfl⟩ := h
    exact ⟨hle, skipped, hskipped, List.append_assoc ..⟩

/-- More may be sent behind what a log has left. -/
theorem TakesAll.grows {log : List (PipeRead × (ℕ × List UInt8))} {stream rest : List UInt8}
    (h : TakesAll log stream rest) (more : List UInt8) :
    TakesAll log (stream ++ more) (rest ++ more) := by
  induction h with
  | nil stream => exact TakesAll.nil _
  | snoc _ hcall ih => exact ih.snoc (hcall.grows more)

/-- At a call of the reader: the log so far leaves what is in the ring. -/
structure ReaderIdle (size : ℕ) (log : List (PipeRead × (ℕ × List UInt8))) (s : SharedRing) :
    Prop where
  size_eq : s.ring.size = size
  takes : TakesAll log s.sent s.ring.content

theorem readerIdle_stable {log : List (PipeRead × (ℕ × List UInt8))} :
    Thread.Stable WriterStep (ReaderIdle size log) := by
  rintro s s' ⟨hsize, -, more, hcontent, hsent⟩ ⟨hsize', htakes⟩
  refine ⟨hsize.trans hsize', ?_⟩
  rw [hcontent, hsent]
  exact htakes.grows more

theorem WriterStep.full_le {s s' : SharedRing} (h : WriterStep s s') :
    lwrbGetFull s.ring ≤ lwrbGetFull s'.ring := by
  obtain ⟨more, hcontent, -⟩ := h.grows
  rw [← content_length, ← content_length, hcontent, List.length_append]
  exact Nat.le_add_right _ _

/-- What the reader knows: where it reads, and that at least so many octets are there. -/
structure Reading (size : ℕ) (log : List (PipeRead × (ℕ × List UInt8))) (r full : ℕ)
    (s : SharedRing) : Prop extends ReaderIdle size log s where
  r_eq : s.ring.r = r
  full_le : full ≤ lwrbGetFull s.ring

theorem reading_stable {log : List (PipeRead × (ℕ × List UInt8))} {r full : ℕ} :
    Thread.Stable WriterStep (Reading size log r full) :=
  fun s s' h hs => ⟨readerIdle_stable s s' h hs.toReaderIdle, h.r.trans hs.r_eq,
    Nat.le_trans hs.full_le h.full_le⟩

/-- The number of octets that the reader computes is there, whatever the writer does meanwhile. -/
theorem getFullThread_triple {P : SharedRing → Prop} (hP : Thread.Stable WriterStep P)
    (hsize : ∀ s, P s → s.ring.size = size) :
    (getFullThread size).Triple RingAccess.exec WriterStep ReaderGuar P
      (fun full s => P s ∧ full ≤ lwrbGetFull s.ring) := by
  have hstable (full : ℕ) : Thread.Stable WriterStep
      (fun s => P s ∧ full ≤ lwrbGetFull s.ring) :=
    fun s s' h hs => ⟨hP s s' h hs.1, Nat.le_trans hs.2 h.full_le⟩
  have hw (w : ℕ) : Thread.Stable WriterStep
      (fun s => P s ∧ fullBetween size w s.ring.r ≤ lwrbGetFull s.ring) := by
    intro s s' h hs
    rw [h.r]
    exact ⟨hP s s' h hs.1, Nat.le_trans hs.2 h.full_le⟩
  refine Thread.Triple.bind
    (Q := fun w s => P s ∧ fullBetween size w s.ring.r ≤ lwrbGetFull s.ring)
    (Thread.triple_access hP hw fun s hs => ?_) fun w => ?_
  · obtain rfl := hsize s hs
    exact ⟨⟨trivial, Std.Refl.refl s⟩, hs, Nat.le_refl _⟩
  · exact Thread.Triple.bind (Q := fun r s => P s ∧ fullBetween size w r ≤ lwrbGetFull s.ring)
      (Thread.triple_access (hw w) (fun r => hstable _) fun s hs =>
        ⟨⟨trivial, Std.Refl.refl s⟩, hs⟩) fun r => Thread.triple_pure (hstable _) fun s hs => hs

/-- A cell that is stored. -/
theorem holds_content {rb : Lwrb} {k : ℕ} (hk : k < lwrbGetFull rb) :
    rb.Holds ((rb.r + k) % rb.size) ∧
      rb.content[k]? = some (rb.buff.getD ((rb.r + k) % rb.size) 0) := by
  have hlt : k < rb.buff.length := Nat.lt_trans hk (lwrbGetFull_lt rb)
  have hmod : (rb.r + k) % rb.size < rb.buff.length :=
    Nat.mod_lt _ (Nat.lt_of_le_of_lt (Nat.zero_le _) hlt)
  refine ⟨⟨k, hk, rfl⟩, ?_⟩
  rw [content, List.getElem?_take_of_lt hk, List.getElem?_rotate hlt, Nat.add_comm,
    List.getD_eq_getElem?_getD, List.getElem?_eq_getElem hmod, Option.getD_some]
  exact List.getElem?_eq_getElem hmod

structure Loaded (size : ℕ) (log : List (PipeRead × (ℕ × List UInt8))) (r full k : ℕ)
    (octets : List UInt8) (s : SharedRing) : Prop extends Reading size log r full s where
  loaded : octets <+: s.ring.content.drop k

theorem loaded_stable {log : List (PipeRead × (ℕ × List UInt8))} {r full k : ℕ}
    {octets : List UInt8} : Thread.Stable WriterStep (Loaded size log r full k octets) := by
  intro s s' h hs
  refine ⟨reading_stable s s' h hs.toReading, hs.loaded.trans ?_⟩
  obtain ⟨more, hcontent, -⟩ := h.grows
  rw [hcontent, List.drop_append]
  exact List.prefix_append _ _

theorem prefix_snoc {α : Type*} {xs ys : List α} {x : α} (h : xs <+: ys)
    (hx : ys[xs.length]? = some x) : xs ++ [x] <+: ys := by
  obtain ⟨rest, rfl⟩ := h
  rw [List.getElem?_append_right (Nat.le_refl _), Nat.sub_self] at hx
  cases rest with
  | nil => cases hx
  | cons y rest =>
    obtain rfl := Option.some.inj hx
    exact ⟨rest, by simp⟩

theorem loadCells_triple {log : List (PipeRead × (ℕ × List UInt8))} {r full i n k : ℕ}
    {before : List UInt8} (hn : k + before.length + n ≤ full) (hi : i + n ≤ size)
    (hcell : n ≠ 0 → i = (r + (k + before.length)) % size) :
    (loadCells i n).Triple RingAccess.exec WriterStep ReaderGuar
      (Loaded size log r full k before)
      (fun octets s => Loaded size log r full k (before ++ octets) s ∧ octets.length = n) := by
  induction n generalizing i before with
  | zero =>
    refine Thread.triple_pure loaded_stable fun s hs => ?_
    rw [List.append_nil]
    exact ⟨hs, rfl⟩
  | succ n ih =>
    have hcell := hcell (Nat.succ_ne_zero n)
    refine Thread.Triple.bind (Q := fun octet => Loaded size log r full k (before ++ [octet]))
      (Thread.triple_access loaded_stable (fun _ => loaded_stable) fun s hs => ?_) fun octet => ?_
    · obtain ⟨hfull, hcontent⟩ : s.ring.Holds i ∧
          s.ring.content[k + before.length]? = some (s.ring.buff.getD i 0) := by
        rw [hcell, ← hs.r_eq, ← hs.size_eq]
        exact holds_content (Nat.lt_of_lt_of_le (by omega) hs.full_le)
      refine ⟨⟨hfull, Std.Refl.refl s⟩, hs.toReading, prefix_snoc hs.loaded ?_⟩
      rw [List.getElem?_drop]
      exact hcontent
    · have hrest : (loadCells (i + 1) n).Triple RingAccess.exec WriterStep ReaderGuar
          (Loaded size log r full k (before ++ [octet])) (fun octets s =>
            Loaded size log r full k (before ++ [octet] ++ octets) s ∧ octets.length = n) := ih
        (by rw [List.length_append, List.length_singleton]; omega) (by omega) fun h0 => by
          rw [List.length_append, List.length_singleton, ← Nat.add_assoc, ← Nat.add_assoc,
            ← Nat.mod_add_mod, Nat.add_assoc r, ← hcell, Nat.mod_eq_of_lt (by omega)]
      refine Thread.Triple.bind hrest fun octets => Thread.triple_pure
        (fun s s' h hs => ⟨loaded_stable s s' h hs.1, hs.2⟩) fun s hs => ?_
      rw [List.append_cons]
      exact ⟨hs.1, congrArg (· + 1) hs.2⟩

theorem copyOut_triple {log : List (PipeRead × (ℕ × List UInt8))} {r full k n pos : ℕ}
    (hpos : pos = (r + k) % size) (hlt : pos < size) (hn : k + n ≤ full) (hsize : n ≤ size) :
    (copyOut size pos n).Triple RingAccess.exec WriterStep ReaderGuar
      (Loaded size log r full k [])
      (fun octets s => Loaded size log r full k octets s ∧ octets.length = n) := by
  have hturn : (r + (k + (size - pos))) % size = 0 := by
    rw [← Nat.add_assoc, ← Nat.mod_add_mod, ← hpos, Nat.add_sub_cancel' (Nat.le_of_lt hlt),
      Nat.mod_self]
  unfold copyOut
  refine Thread.Triple.bind (loadCells_triple ?_ (by omega) fun _ => hpos) fun linear s hs => ?_
  · rw [List.length_nil]
    omega
  obtain ⟨hs, hlen⟩ := hs
  rw [List.nil_append] at hs
  refine Thread.Triple.bind (loadCells_triple (by omega) (by omega) fun h0 => ?_) (fun rest =>
    Thread.triple_pure (fun s s' h hs => ⟨loaded_stable s s' h hs.1, hs.2⟩) fun s hs => ?_) s hs
  · -- there is a rest, so the linear part ends with the storage
    rw [hlen, Nat.min_eq_left (by omega), hturn]
  · refine ⟨hs.1, ?_⟩
    rw [List.length_append, hlen, hs.2]
    omega

/-- The store of the read position gives back the cells that have been read. -/
theorem storeR_reading {log : List (PipeRead × (ℕ × List UInt8))} {r full n : ℕ}
    {s : SharedRing} (hs : Reading size log r full s) (hn : n ≤ full) :
    ReaderGuar (.storeR ((r + n) % size)) s (RingAccess.exec (.storeR ((r + n) % size)) s).2 ∧
      (RingAccess.exec (.storeR ((r + n) % size)) s).2.ring.size = size ∧
      (RingAccess.exec (.storeR ((r + n) % size)) s).2.ring.content = s.ring.content.drop n := by
  obtain ⟨⟨rfl, htakes⟩, rfl, hfull⟩ := hs
  have hlt : (s.ring.r + n) % s.ring.size < s.ring.size :=
    Nat.mod_lt _ (Nat.lt_of_le_of_lt (Nat.zero_le _) s.ring.r_lt_size)
  have hset : s.ring.setR ((s.ring.r + n) % s.ring.size) =
      ⟨s.ring.buff, (s.ring.r + n) % s.ring.size, s.ring.w, hlt, s.ring.w_lt⟩ := dif_pos hlt
  have hcontent : (s.ring.setR ((s.ring.r + n) % s.ring.size)).content = s.ring.content.drop n := by
    rw [hset]
    exact content_of_advance (Nat.le_trans hn hfull) rfl rfl rfl
  refine ⟨⟨hlt, ?_, ?_, rfl, ?_⟩, ?_, hcontent⟩
  · change (s.ring.setR _).buff = _
    rw [hset]
  · change (s.ring.setR _).w = _
    rw [hset]
  · change (s.ring.setR _).content <:+ _
    rw [hcontent]
    exact List.drop_suffix _ _
  · change (s.ring.setR _).size = _
    rw [hset]
    rfl

theorem readThread_triple (log : List (PipeRead × (ℕ × List UInt8))) (btr : ℕ) :
    ((PipeRead.read btr).thread size).Triple RingAccess.exec WriterStep ReaderGuar
      (ReaderIdle size log)
      (fun reply => ReaderIdle size (log ++ [(PipeRead.read btr, reply)])) := by
  have hnone : (pure [] : RingThread (List UInt8)).Triple RingAccess.exec WriterStep ReaderGuar
      (ReaderIdle size log)
      (fun octets => ReaderIdle size (log ++ [(PipeRead.read btr, (octets.length, octets))])) :=
    Thread.triple_pure readerIdle_stable fun s hs =>
      ⟨hs.size_eq, hs.takes.snoc ⟨Nat.zero_le _, rfl, rfl⟩⟩
  refine Thread.Triple.bind
    (Q := fun octets => ReaderIdle size (log ++ [(PipeRead.read btr, (octets.length, octets))])) ?_
    fun octets => Thread.triple_pure readerIdle_stable fun s hs => hs
  unfold readThread
  split
  · exact hnone
  refine Thread.Triple.bind (getFullThread_triple readerIdle_stable fun s hs => hs.size_eq)
    fun full => ?_
  dsimp only
  split
  · exact hnone.imp fun s hs => hs.1
  refine Thread.Triple.bind (Q := fun r s => (r < size ∧ min full btr < size) ∧
    Loaded size log r (min full btr) 0 [] s)
    (Thread.triple_access (fun s s' h hs => ⟨readerIdle_stable s s' h hs.1,
        Nat.le_trans hs.2 h.full_le⟩)
      (fun r s s' h hs => ⟨hs.1, loaded_stable s s' h hs.2⟩) fun s hs => ?_) fun r s hs => ?_
  · obtain ⟨⟨rfl, htakes⟩, hfull⟩ := hs
    have hle : min full btr ≤ lwrbGetFull s.ring := Nat.le_trans (Nat.min_le_left _ _) hfull
    exact ⟨⟨trivial, Std.Refl.refl s⟩,
      ⟨s.ring.r_lt_size, Nat.lt_of_le_of_lt hle (lwrbGetFull_lt s.ring)⟩,
      ⟨⟨⟨rfl, htakes⟩, rfl, hle⟩, List.nil_prefix⟩⟩
  obtain ⟨⟨hr, hlt⟩, hs⟩ := hs
  refine Thread.Triple.bind (copyOut_triple (Nat.mod_eq_of_lt hr).symm hr
    (Nat.le_of_eq (Nat.zero_add _)) (Nat.le_of_lt hlt)) (fun octets => ?_) s hs
  refine Thread.Triple.bind
    (Q := fun _ => ReaderIdle size (log ++ [(PipeRead.read btr, (octets.length, octets))]))
    (Thread.triple_access (fun s s' h hs => ⟨loaded_stable s s' h hs.1, hs.2⟩)
      (fun _ => readerIdle_stable) fun s hs => ?_)
    fun _ => Thread.triple_pure readerIdle_stable fun s hs => hs
  obtain ⟨hs, hlen⟩ := hs
  obtain ⟨hguar, hsize, hcontent⟩ := storeR_reading hs.toReading (Nat.le_refl _)
  rw [← copiedTo_eq hr hlt] at hguar hsize hcontent
  refine ⟨hguar, hsize, ?_⟩
  have hfront : s.ring.content = octets ++ s.ring.content.drop (min full btr) := by
    have hbegin := hs.loaded
    rw [List.drop_zero, List.prefix_iff_eq_take, hlen] at hbegin
    rw [hbegin, List.take_append_drop]
  rw [hcontent]
  exact hs.takes.snoc ⟨hlen.trans_le (Nat.min_le_right _ _), rfl, hfront⟩

theorem skipThread_triple (log : List (PipeRead × (ℕ × List UInt8))) (len : ℕ) :
    ((PipeRead.skip len).thread size).Triple RingAccess.exec WriterStep ReaderGuar
      (ReaderIdle size log)
      (fun reply => ReaderIdle size (log ++ [(PipeRead.skip len, reply)])) := by
  refine Thread.Triple.bind
    (Q := fun count => ReaderIdle size (log ++ [(PipeRead.skip len, (count, []))])) ?_
    fun octets => Thread.triple_pure readerIdle_stable fun s hs => hs
  unfold skipThread
  split
  · exact Thread.triple_pure readerIdle_stable fun s hs =>
      ⟨hs.size_eq, hs.takes.snoc ⟨Nat.zero_le _, [], rfl, rfl⟩⟩
  refine Thread.Triple.bind (getFullThread_triple readerIdle_stable fun s hs => hs.size_eq)
    fun full => ?_
  dsimp only
  refine Thread.Triple.bind (Q := fun r s => (r < size ∧ min len full < size) ∧
    Reading size log r (min len full) s)
    (Thread.triple_access (fun s s' h hs => ⟨readerIdle_stable s s' h hs.1,
        Nat.le_trans hs.2 h.full_le⟩)
      (fun r s s' h hs => ⟨hs.1, reading_stable s s' h hs.2⟩) fun s hs => ?_) fun r s hs => ?_
  · obtain ⟨⟨rfl, htakes⟩, hfull⟩ := hs
    have hle : min len full ≤ lwrbGetFull s.ring := Nat.le_trans (Nat.min_le_right _ _) hfull
    exact ⟨⟨trivial, Std.Refl.refl s⟩,
      ⟨s.ring.r_lt_size, Nat.lt_of_le_of_lt hle (lwrbGetFull_lt s.ring)⟩, ⟨rfl, htakes⟩, rfl, hle⟩
  obtain ⟨⟨hr, hlt⟩, hs⟩ := hs
  rw [← advance_mod hr (Nat.le_of_lt hlt)]
  refine Thread.Triple.bind
    (Q := fun _ => ReaderIdle size (log ++ [(PipeRead.skip len, (min len full, []))]))
    (Thread.triple_access reading_stable (fun _ => readerIdle_stable) fun s hs => ?_)
    (fun _ => Thread.triple_pure readerIdle_stable fun s hs => hs) s hs
  obtain ⟨hguar, hsize, hcontent⟩ := storeR_reading hs (Nat.le_refl _)
  refine ⟨hguar, hsize, ?_⟩
  rw [hcontent]
  refine hs.takes.snoc ⟨Nat.min_le_left _ _, s.ring.content.take (min len full), ?_,
    (List.take_append_drop _ _).symm⟩
  rw [List.length_take, content_length]
  exact Nat.min_eq_left hs.full_le

theorem peekThread_triple (log : List (PipeRead × (ℕ × List UInt8))) (skipCount btp : ℕ) :
    ((PipeRead.peek skipCount btp).thread size).Triple RingAccess.exec WriterStep ReaderGuar
      (ReaderIdle size log)
      (fun reply => ReaderIdle size (log ++ [(PipeRead.peek skipCount btp, reply)])) := by
  have hnone {s : SharedRing} (hs : ReaderIdle size log s) :
      ReaderIdle size (log ++ [(PipeRead.peek skipCount btp, (0, []))]) s :=
    ⟨hs.size_eq, hs.takes.snoc ⟨Nat.zero_le _, rfl, List.nil_prefix, rfl⟩⟩
  refine Thread.Triple.bind (Q := fun octets => ReaderIdle size
    (log ++ [(PipeRead.peek skipCount btp, (octets.length, octets))])) ?_
    fun octets => Thread.triple_pure readerIdle_stable fun s hs => hs
  unfold peekThread
  split
  · exact Thread.triple_pure readerIdle_stable fun s hs => hnone hs
  have hpos (r : ℕ) : Thread.Stable WriterStep
      (fun s => ReaderIdle size log s ∧ s.ring.r = r ∧ r < size) :=
    fun s s' h hs => ⟨readerIdle_stable s s' h hs.1, h.r.trans hs.2.1, hs.2.2⟩
  refine Thread.Triple.bind (Q := fun r s => ReaderIdle size log s ∧ s.ring.r = r ∧ r < size)
    (Thread.triple_access readerIdle_stable hpos fun s hs => ?_) fun r => ?_
  · exact ⟨⟨trivial, Std.Refl.refl s⟩, hs, rfl, hs.size_eq ▸ s.ring.r_lt_size⟩
  refine Thread.Triple.bind (getFullThread_triple (hpos r) fun s hs => hs.1.size_eq)
    fun full s hs => ?_
  obtain ⟨⟨hidle, hr, hlt⟩, hfull⟩ := hs
  have hfull' : lwrbGetFull s.ring < size := hidle.size_eq ▸ lwrbGetFull_lt s.ring
  split
  · exact fun s' hs' => hnone (readerIdle_stable s s' hs' hidle)
  next hskip =>
    have hturn : (if r + skipCount ≥ size then r + skipCount - size else r + skipCount) =
        (r + skipCount) % size := (advance_mod hlt (by omega)).symm
    have hmod : (r + skipCount) % size < size := Nat.mod_lt _ (by omega)
    rw [hturn]
    refine (copyOut_triple rfl hmod (by omega) (by omega)).weaken (fun octets s hs => ?_) s
      ⟨⟨hidle, hr, hfull⟩, List.nil_prefix⟩
    obtain ⟨hs, hlen⟩ := hs
    exact ⟨hs.size_eq, hs.takes.snoc ⟨hlen.trans_le (Nat.min_le_right _ _), rfl, hs.loaded, rfl⟩⟩

def readerThread (size : ℕ) : List PipeRead → RingThread (List (PipeRead × (ℕ × List UInt8)))
  | [] => pure []
  | call :: calls => do
    let reply ← call.thread size
    let log ← readerThread size calls
    pure ((call, reply) :: log)

theorem pipeRead_triple (log : List (PipeRead × (ℕ × List UInt8))) (call : PipeRead) :
    (call.thread size).Triple RingAccess.exec WriterStep ReaderGuar (ReaderIdle size log)
      (fun reply => ReaderIdle size (log ++ [(call, reply)])) := by
  cases call with
  | read btr => exact readThread_triple log btr
  | peek skipCount btp => exact peekThread_triple log skipCount btp
  | skip len => exact skipThread_triple log len

theorem readerThread_triple (log : List (PipeRead × (ℕ × List UInt8))) (calls : List PipeRead) :
    (readerThread size calls).Triple RingAccess.exec WriterStep ReaderGuar (ReaderIdle size log)
      (fun replies s => replies.map Prod.fst = calls ∧ ReaderIdle size (log ++ replies) s) := by
  induction calls generalizing log with
  | nil =>
    refine Thread.triple_pure readerIdle_stable fun s hs => ?_
    rw [List.append_nil]
    exact ⟨rfl, hs⟩
  | cons call calls ih =>
    refine Thread.Triple.bind (pipeRead_triple log call) fun reply => ?_
    refine Thread.Triple.bind (ih (log ++ [(call, reply)])) fun replies => ?_
    refine Thread.triple_pure (fun s s' h hs => ⟨hs.1, readerIdle_stable s s' h hs.2⟩)
      fun s hs => ?_
    rw [List.append_cons]
    exact ⟨congrArg (call :: ·) hs.1, hs.2⟩

end Reader

/-! ### Both -/

section Turns
variable {size : ℕ}

theorem within_storeCells (i : ℕ) (octets : List UInt8) :
    (storeCells i octets).Within octets.length := by
  induction octets generalizing i with
  | nil => exact Thread.within_pure () 0
  | cons octet octets ih => exact fun _ => ih (i + 1)

theorem within_loadCells (i n : ℕ) : (loadCells i n).Within n := by
  induction n generalizing i with
  | zero => exact Thread.within_pure [] 0
  | succ n ih => exact fun octet => (ih (i + 1)).bind fun octets => Thread.within_pure _ 0

theorem within_copyIn (w btw : ℕ) (data : List UInt8) : (copyIn size w data btw).Within btw := by
  refine Thread.Within.mono (Thread.Within.bind (within_storeCells _ _)
    fun _ => within_storeCells _ _) ?_
  rw [List.length_take, List.length_take]
  omega

theorem within_copyOut (r btr : ℕ) : (copyOut size r btr).Within btr := by
  refine Thread.Within.mono (Thread.Within.bind (within_loadCells _ _) fun linear =>
    Thread.Within.bind (within_loadCells _ _) fun rest => Thread.within_pure (linear ++ rest) 0) ?_
  omega

theorem within_getFreeThread : (getFreeThread size).Within 2 := fun _ => fun _ =>
  Thread.within_pure _ 0

theorem within_getFullThread : (getFullThread size).Within 2 := fun _ => fun _ =>
  Thread.within_pure _ 0

theorem within_writeThread (data : List UInt8) :
    (writeThread size data).Within (data.length + 4) := by
  unfold writeThread
  split
  · exact Thread.within_pure 0 _
  refine Thread.Within.mono (Thread.Within.bind within_getFreeThread fun free => ?_)
    (show 2 + (data.length + 2) ≤ data.length + 4 by omega)
  dsimp only
  split
  · exact Thread.within_pure 0 _
  refine Thread.Within.mono (Thread.Within.bind (Thread.within_access _ 0) fun w =>
    Thread.Within.bind (within_copyIn w (min free data.length) data) fun _ =>
      Thread.Within.bind (Thread.within_access _ 0) fun _ => Thread.within_pure _ 0) ?_
  omega

def PipeRead.turns : PipeRead → ℕ
  | read btr => btr + 4
  | peek _ btp => btp + 3
  | skip _ => 4

theorem within_readThread (btr : ℕ) : (readThread size btr).Within (btr + 4) := by
  unfold readThread
  split
  · exact Thread.within_pure [] _
  refine Thread.Within.mono (Thread.Within.bind within_getFullThread fun full => ?_)
    (show 2 + (btr + 2) ≤ btr + 4 by omega)
  dsimp only
  split
  · exact Thread.within_pure [] _
  refine Thread.Within.mono (Thread.Within.bind (Thread.within_access _ 0) fun r =>
    Thread.Within.bind (within_copyOut r (min full btr)) fun octets =>
      Thread.Within.bind (Thread.within_access _ 0) fun _ => Thread.within_pure octets 0) ?_
  omega

theorem within_peekThread (skipCount btp : ℕ) :
    (peekThread size skipCount btp).Within (btp + 3) := by
  unfold peekThread
  split
  · exact Thread.within_pure [] _
  refine Thread.Within.mono (Thread.Within.bind (Thread.within_access _ 0) fun r =>
    Thread.Within.bind within_getFullThread fun full => ?_)
    (show 0 + 1 + (2 + btp) ≤ btp + 3 by omega)
  dsimp only
  split
  · exact Thread.within_pure [] _
  · exact (within_copyOut _ _).mono (Nat.min_le_right _ _)

theorem within_skipThread (len : ℕ) : (skipThread size len).Within 4 := by
  unfold skipThread
  split
  · exact Thread.within_pure 0 _
  exact Thread.Within.bind within_getFullThread fun full =>
    Thread.Within.bind (Thread.within_access _ 0) fun r =>
      Thread.Within.bind (Thread.within_access _ 0) fun _ => Thread.within_pure _ 0

theorem within_pipeRead (call : PipeRead) : (call.thread size).Within call.turns := by
  cases call with
  | read btr => exact (within_readThread btr).bind fun octets => Thread.within_pure _ 0
  | peek skipCount btp =>
    exact (within_peekThread skipCount btp).bind fun octets => Thread.within_pure _ 0
  | skip len => exact (within_skipThread len).bind fun count => Thread.within_pure _ 0

def writerTurns (writes : List (List UInt8)) : ℕ := (writes.map fun data => data.length + 4).sum

def readerTurns (reads : List PipeRead) : ℕ := (reads.map PipeRead.turns).sum

theorem within_writerThread (writes : List (List UInt8)) :
    (writerThread size writes).Within (writerTurns writes) := by
  induction writes with
  | nil => exact Thread.within_pure [] 0
  | cons data writes ih =>
    exact (within_writeThread data).bind fun n => ih.bind fun counts => Thread.within_pure _ 0

theorem within_readerThread (reads : List PipeRead) :
    (readerThread size reads).Within (readerTurns reads) := by
  induction reads with
  | nil => exact Thread.within_pure [] 0
  | cons call reads ih =>
    exact (within_pipeRead call).bind fun reply => ih.bind fun log => Thread.within_pure _ 0

end Turns

def pipe (rb : Lwrb) (writes : List (List UInt8)) (reads : List PipeRead) :
    Pair RingAccess RingAccess.Value (List ℕ) (List (PipeRead × (ℕ × List UInt8))) SharedRing :=
  ⟨writerThread rb.size writes, readerThread rb.size reads, ⟨rb, rb.content⟩⟩

theorem pipe_guarded (rb : Lwrb) (writes : List (List UInt8)) (reads : List PipeRead)
    (schedule : List Bool) : ((pipe rb writes reads).run RingAccess.exec schedule).Guarded
      RingAccess.exec ReaderStep WriterStep WriterGuar ReaderGuar
      (fun counts s => counts.length = writes.length ∧
        WriterIdle rb.size (rb.content ++ accepted writes counts) s)
      (fun log s => log.map Prod.fst = reads ∧ ReaderIdle rb.size log s) := by
  refine Pair.guarded_run (fun _ _ _ h => h.2) (fun _ _ _ h => h.2) ⟨?_, ?_⟩ schedule
  · exact writerThread_triple rb.content writes _ ⟨rfl, rfl⟩
  · exact readerThread_triple [] reads _ ⟨rfl, TakesAll.nil _⟩

/-- In every interleaving of a writer and a reader both get through, and what the calls of the
reader give back is what they would take, one after the other, from the stream of all octets that
the calls of the writer say they have stored. What this leaves is in the ring. -/
theorem pipe_in_order (rb : Lwrb) (writes : List (List UInt8)) (reads : List PipeRead)
    {schedule : List Bool} (hwriter : writerTurns writes ≤ schedule.count true)
    (hreader : readerTurns reads ≤ schedule.count false) :
    ∃ (counts : List ℕ) (log : List (PipeRead × (ℕ × List UInt8))),
      ((pipe rb writes reads).run RingAccess.exec schedule).left = Thread.done counts ∧
      ((pipe rb writes reads).run RingAccess.exec schedule).right = Thread.done log ∧
      counts.length = writes.length ∧ log.map Prod.fst = reads ∧
      TakesAll log (rb.content ++ accepted writes counts)
        ((pipe rb writes reads).run RingAccess.exec schedule).state.ring.content := by
  obtain ⟨⟨counts, hleft⟩, ⟨log, hright⟩⟩ :
      (∃ counts, ((pipe rb writes reads).run RingAccess.exec schedule).left =
        Thread.done counts) ∧
      ∃ log, ((pipe rb writes reads).run RingAccess.exec schedule).right = Thread.done log :=
    Pair.result_of_within (within_writerThread writes) (within_readerThread reads) hwriter hreader
  obtain ⟨hwriter, hreader⟩ := pipe_guarded rb writes reads schedule
  rw [hleft] at hwriter
  rw [hright] at hreader
  obtain ⟨hlength, hsent⟩ := hwriter _ (Std.Refl.refl _)
  obtain ⟨hcalls, hidle⟩ := hreader _ (Std.Refl.refl _)
  refine ⟨counts, log, hleft, hright, hlength, hcalls, ?_⟩
  rw [← hsent.sent_eq]
  exact hidle.takes

/-- Three octets offered to a ring that holds two, and a read and a peek, turn by turn. -/
theorem pipe_in_order_turn_by_turn : ∃ (counts : List ℕ)
    (log : List (PipeRead × (ℕ × List UInt8))),
      ((pipe (lwrbInit [0, 0, 0] (by decide)) [[1, 2, 3]] [.read 1, .peek 0 4]).run
        RingAccess.exec (List.replicate 12 [true, false]).flatten).left = Thread.done counts ∧
      ((pipe (lwrbInit [0, 0, 0] (by decide)) [[1, 2, 3]] [.read 1, .peek 0 4]).run
        RingAccess.exec (List.replicate 12 [true, false]).flatten).right = Thread.done log ∧
      counts.length = 1 ∧ log.map Prod.fst = [.read 1, .peek 0 4] ∧
      TakesAll log ((lwrbInit [0, 0, 0] (by decide)).content ++ accepted [[1, 2, 3]] counts)
        ((pipe (lwrbInit [0, 0, 0] (by decide)) [[1, 2, 3]] [.read 1, .peek 0 4]).run
          RingAccess.exec (List.replicate 12 [true, false]).flatten).state.ring.content :=
  pipe_in_order (lwrbInit [0, 0, 0] (by decide)) [[1, 2, 3]] [.read 1, .peek 0 4] (by decide)
    (by decide)

/-! ### Conflicts -/

/-- What an access touches: a position or a cell. -/
inductive RingPlace where
  | r
  | w
  | cell (i : ℕ)
  deriving DecidableEq, Repr

def RingAccess.place : RingAccess → RingPlace
  | loadR | storeR _ => RingPlace.r
  | loadW | storeW _ => RingPlace.w
  | loadCell i | storeCell i _ => RingPlace.cell i

def RingAccess.Stores : RingAccess → Prop
  | storeR _ | storeW _ | storeCell _ _ => True
  | loadR | loadW | loadCell _ => False

def Conflict (a b : RingAccess) : Prop := a.place = b.place ∧ (a.Stores ∨ b.Stores)

def LoadsOthersPosition (writer reader : RingAccess) : Prop :=
  writer = .loadR ∧ (∃ r, reader = .storeR r) ∨ (∃ w, writer = .storeW w) ∧ reader = .loadW

theorem loadsOthersPosition_of_conflict {s : SharedRing} {a b : RingAccess} (ha : WriterMay s a)
    (hb : ReaderMay s b) (h : Conflict a b) : LoadsOthersPosition a b := by
  obtain ⟨hplace, hstores⟩ := h
  cases a with
  | loadCell i | storeR r => exact ha.elim
  | loadR =>
    cases b with
    | storeR r => exact Or.inl ⟨rfl, r, rfl⟩
    | loadR => exact (hstores.elim id id).elim
    | _ => cases hplace
  | loadW =>
    cases b with
    | storeW w => exact hb.elim
    | loadW => exact (hstores.elim id id).elim
    | _ => cases hplace
  | storeW w =>
    cases b with
    | storeW w' => exact hb.elim
    | loadW => exact Or.inr ⟨⟨w, rfl⟩, rfl⟩
    | _ => cases hplace
  | storeCell i octet =>
    cases b with
    | storeCell j octet' => exact hb.elim
    | loadCell j =>
      -- what the reader loads is stored, and the writer stores to no such cell
      obtain rfl : i = j := RingPlace.cell.inj hplace
      exact absurd hb ha.2
    | _ => cases hplace

/-- At no point of an interleaving do the next accesses of the two threads conflict on a cell, and
they conflict on a position only as a load by the one and the store by the other that owns it. -/
theorem pipe_conflicts (rb : Lwrb) (writes : List (List UInt8)) (reads : List PipeRead)
    (schedule : List Bool) {a b : RingAccess}
    (ha : ((pipe rb writes reads).run RingAccess.exec schedule).left.next = some a)
    (hb : ((pipe rb writes reads).run RingAccess.exec schedule).right.next = some b)
    (h : Conflict a b) : LoadsOthersPosition a b := by
  have hguarded := pipe_guarded rb writes reads schedule
  exact loadsOthersPosition_of_conflict (Pair.guarded_left hguarded ha).1
    (Pair.guarded_right hguarded hb).1 h

def takingOut : List Bool := List.replicate 5 true ++ List.replicate 4 false ++ [true]

/-- The writer asks how much room there is, and loads the position that the reader stores. -/
theorem pipe_conflicts_takingOut :
    Conflict RingAccess.loadR (RingAccess.storeR 1) ∧
      LoadsOthersPosition RingAccess.loadR (RingAccess.storeR 1) := by
  have hconflict : Conflict RingAccess.loadR (RingAccess.storeR 1) := ⟨rfl, Or.inr trivial⟩
  exact ⟨hconflict, pipe_conflicts (lwrbInit [0, 0, 0] (by decide)) [[1], [2]] [.read 1] takingOut
    (by decide +kernel) (by decide +kernel) hconflict⟩

end Cmux
