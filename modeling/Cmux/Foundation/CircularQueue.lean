import Mathlib.Data.List.Rotate
import Mathlib.Tactic.Simps.Basic

/-! A bounded queue on a circle of cells. The circle is cut where it is read next: the cells that
are stored come first, oldest first, and then those that are free, in the order in which they will
be stored. One cell always stays free, so that a full queue is not taken for an empty one. -/

/-- The circle cut at cell `pos`. -/
@[ext]
structure CircularQueue (α : Type*) where
  pos : ℕ
  stored : List α
  free : List α
  room : 0 < free.length
  pos_lt : pos < stored.length + free.length

namespace CircularQueue
variable {α : Type*} (q : CircularQueue α)

def size : ℕ := q.stored.length + q.free.length

def space : ℕ := q.free.length - 1

def back : ℕ := (q.pos + q.stored.length) % q.size

/-- Overwrites the cells that are stored next, and stores none. -/
@[simps pos stored free]
def fill (xs : List α) : CircularQueue α where
  pos := q.pos
  stored := q.stored
  free := xs.take q.free.length ++ q.free.drop xs.length
  room := by
    have := q.room
    simp only [List.length_append, List.length_take, List.length_drop]
    omega
  pos_lt := by
    have := q.pos_lt
    simp only [List.length_append, List.length_take, List.length_drop]
    omega

/-- Stores the next `n` cells with what is in them, or as many as there is space for. -/
@[simps pos stored free]
def advance (n : ℕ) : CircularQueue α where
  pos := q.pos
  stored := q.stored ++ q.free.take (min n q.space)
  free := q.free.drop (min n q.space)
  room := by
    have := q.room
    simp only [space, List.length_drop]
    omega
  pos_lt := by
    have := q.pos_lt
    simp only [space, List.length_append, List.length_take, List.length_drop]
    omega

@[simps pos stored free]
def put (xs : List α) : CircularQueue α where
  pos := q.pos
  stored := q.stored ++ xs.take q.space
  free := q.free.drop (min xs.length q.space)
  room := by
    have := q.room
    simp only [space, List.length_drop]
    omega
  pos_lt := by
    have := q.pos_lt
    simp only [space, List.length_append, List.length_take, List.length_drop]
    omega

@[simps pos stored free]
def drop (n : ℕ) : CircularQueue α where
  pos := (q.pos + min n q.stored.length) % q.size
  stored := q.stored.drop n
  free := q.free ++ q.stored.take n
  room := by
    have := q.room
    rw [List.length_append]
    omega
  pos_lt := by
    have h := Nat.mod_lt (q.pos + min n q.stored.length)
      (Nat.lt_of_le_of_lt (Nat.zero_le _) q.pos_lt)
    simp only [size, List.length_drop, List.length_append, List.length_take] at h ⊢
    omega

@[simps pos stored free]
def clear : CircularQueue α where
  pos := 0
  stored := []
  free := (q.stored ++ q.free).rotate (q.size - q.pos)
  room := by
    have := q.room
    rw [List.length_rotate, List.length_append]
    omega
  pos_lt := by
    have := q.pos_lt
    rw [List.length_nil, List.length_rotate, List.length_append]
    omega

/-- The stored cells up to the last cell of the circle. -/
def readBlock : List α := q.stored.take (q.size - q.pos)

/-- The space up to the last cell of the circle. -/
def writeBlock : ℕ := min q.space (q.size - q.back)

variable {q}

theorem stored_lt_size : q.stored.length < q.size := by
  have := q.room
  unfold size
  omega

theorem stored_add_space : q.stored.length + q.space = q.size - 1 := by
  have := q.room
  unfold size space
  omega

theorem size_pos : 0 < q.size := Nat.lt_of_le_of_lt (Nat.zero_le _) q.pos_lt

@[simp] theorem fill_size (xs : List α) : (q.fill xs).size = q.size := by
  simp only [size, fill_stored, fill_free, List.length_append, List.length_take, List.length_drop]
  omega

@[simp] theorem fill_space (xs : List α) : (q.fill xs).space = q.space := by
  simp only [space, fill_free, List.length_append, List.length_take, List.length_drop]
  omega

@[simp] theorem put_size (xs : List α) : (q.put xs).size = q.size := by
  simp only [size, space, put_stored, put_free, List.length_append, List.length_take,
    List.length_drop]
  omega

@[simp] theorem drop_size (n : ℕ) : (q.drop n).size = q.size := by
  simp only [size, drop_stored, drop_free, List.length_append, List.length_take, List.length_drop]
  omega

theorem put_space (xs : List α) : (q.put xs).space = q.space - xs.length := by
  simp only [space, put_free, List.length_drop]
  omega

/-- A list is stored by overwriting the next cells and storing them. -/
theorem advance_fill (xs : List α) (h : xs.length ≤ q.space) :
    (q.fill xs).advance xs.length = q.put xs := by
  have hroom : xs.length ≤ q.free.length := by
    unfold space at h
    omega
  have htake : xs.take q.free.length = xs := List.take_of_length_le hroom
  ext1
  · rfl
  · rw [advance_stored, put_stored, fill_space, Nat.min_eq_left h, fill_stored, fill_free, htake,
      List.take_left, List.take_of_length_le h]
  · rw [advance_free, put_free, fill_space, Nat.min_eq_left h, fill_free, htake, List.drop_left]

@[simp] theorem put_nil : q.put [] = q := by
  ext1 <;> simp

@[simp] theorem drop_zero : q.drop 0 = q := by
  have hpos : q.pos < q.size := q.pos_lt
  ext1 <;> simp [Nat.mod_eq_of_lt hpos]

theorem put_append (xs ys : List α) : q.put (xs ++ ys) = (q.put xs).put ys := by
  ext1
  · rfl
  · rw [put_stored, put_stored, put_stored, put_space, List.take_append, List.append_assoc]
  · rw [put_free, put_free, put_free, put_space, List.drop_drop, List.length_append]
    congr 1
    omega

theorem put_take_space (xs : List α) : q.put (xs.take q.space) = q.put xs := by
  ext1
  · rfl
  · rw [put_stored, put_stored, List.take_take, Nat.min_self]
  · rw [put_free, put_free, List.length_take]
    congr 1
    omega

theorem drop_drop (m n : ℕ) : (q.drop m).drop n = q.drop (m + n) := by
  ext1
  · rw [drop_pos, drop_pos, drop_pos, drop_size, Nat.mod_add_mod, Nat.add_assoc, drop_stored,
      List.length_drop]
    congr 2
    omega
  · rw [drop_stored, drop_stored, drop_stored, List.drop_drop]
  · rw [drop_free, drop_free, drop_free, drop_stored, List.append_assoc, List.take_add]

/-- Two blocks are as good as the whole space: the second begins at the first cell of the
circle. -/
theorem put_blocks (xs : List α) : (q.put (xs.take q.writeBlock)).put
      ((xs.drop q.writeBlock).take (q.put (xs.take q.writeBlock)).writeBlock) = q.put xs := by
  have hspace := put_space (q := q) (xs.take q.writeBlock)
  by_cases h : xs.length ≤ q.writeBlock
  · rw [List.take_of_length_le h, List.drop_of_length_le h, List.take_nil, put_nil]
  have hlen : (xs.take q.writeBlock).length = q.writeBlock := by
    rw [List.length_take]
    omega
  have hback : q.back < q.size := Nat.mod_lt _ size_pos
  have hblock : (q.put (xs.take q.writeBlock)).writeBlock =
      (q.put (xs.take q.writeBlock)).space := by
    rw [writeBlock, hspace, put_size, hlen]
    rcases Nat.le_total q.space (q.size - q.back) with hall | hend
    · -- the first block uses up the space
      have : q.writeBlock = q.space := Nat.min_eq_left hall
      omega
    · -- the first block ends with the circle
      have hwhole : q.writeBlock = q.size - q.back := Nat.min_eq_right hend
      have hstored : (q.put (xs.take q.writeBlock)).stored.length =
          q.stored.length + (q.size - q.back) := by
        rw [put_stored, List.length_append, List.length_take, hlen]
        omega
      have hzero : (q.put (xs.take q.writeBlock)).back = 0 := by
        rw [back, put_size, put_pos, hstored, ← Nat.add_assoc, ← Nat.mod_add_mod]
        change (q.back + (q.size - q.back)) % q.size = 0
        rw [Nat.add_sub_cancel' (Nat.le_of_lt hback), Nat.mod_self]
      have := stored_add_space (q := q)
      rw [hzero]
      omega
  rw [hblock, put_take_space, ← put_append, List.take_append_drop]

theorem readBlock_length : q.readBlock.length = min (q.size - q.pos) q.stored.length := by
  rw [readBlock, List.length_take]

theorem drop_min (n : ℕ) : q.drop (min n q.stored.length) = q.drop n := by
  ext1
  · rw [drop_pos, drop_pos, Nat.min_assoc, Nat.min_self]
  · rw [drop_stored, drop_stored, List.drop_eq_drop_iff]
    omega
  · rw [drop_free, drop_free, List.append_cancel_left_eq, List.take_eq_take_iff]
    omega

/-- So are two blocks for reading. -/
theorem drop_blocks (n : ℕ) :
    q.readBlock.take n ++ (q.drop (min n q.readBlock.length)).readBlock.take
        (n - min n q.readBlock.length) = q.stored.take n ∧
    (q.drop (min n q.readBlock.length)).drop (min (n - min n q.readBlock.length)
        (q.drop (min n q.readBlock.length)).readBlock.length) = q.drop n := by
  have hlen := readBlock_length (q := q)
  have hpos : q.pos < q.size := q.pos_lt
  by_cases h : n ≤ q.readBlock.length
  · rw [Nat.min_eq_left h, Nat.sub_self, List.take_zero, List.append_nil, Nat.zero_min, drop_drop,
      Nat.add_zero, readBlock, List.take_take]
    refine ⟨?_, rfl⟩
    congr 1
    omega
  rw [Nat.min_eq_right (Nat.le_of_not_le h)]
  have hblock : (q.drop q.readBlock.length).readBlock = (q.drop q.readBlock.length).stored := by
    refine List.take_of_length_le ?_
    rw [drop_size, drop_stored, List.length_drop, drop_pos]
    rcases Nat.le_total q.stored.length (q.size - q.pos) with hall | hend
    · -- the first block is all that is stored
      omega
    · -- the first block ends with the circle
      have hzero : (q.pos + min q.readBlock.length q.stored.length) % q.size = 0 := by
        rw [hlen, Nat.min_eq_left hend, Nat.min_eq_left hend,
          Nat.add_sub_cancel' (Nat.le_of_lt hpos), Nat.mod_self]
      have := stored_lt_size (q := q)
      omega
  have hfirst : q.readBlock = q.stored.take q.readBlock.length := by
    rw [hlen, readBlock, List.take_eq_take_iff]
    omega
  rw [hblock, drop_stored, List.length_drop, drop_drop, List.take_of_length_le (by omega)]
  constructor
  · rw [← Nat.add_sub_cancel' (Nat.le_of_not_le h), List.take_add, ← hfirst,
      Nat.add_sub_cancel_left]
  · rw [← drop_min n]
    congr 1
    omega

end CircularQueue
