import Mathlib.Data.List.Basic
import Mathlib.Logic.Function.Basic

/-! Programs over one addressed array, with the list of the cells each run touches.
The array is a total memory: what lies outside the allocation is a value like any
other, so that a run past the end has a meaning and shows in its access list. -/
namespace Access

/-- A program that reads and writes cells of type `α` and returns a `β`. -/
inductive Prog (α β : Type) where
  | ret (b : β)
  | read (i : ℕ) (k : α → Prog α β)
  | write (i : ℕ) (a : α) (k : Prog α β)

namespace Prog
variable {α β γ : Type}

def bind : Prog α β → (β → Prog α γ) → Prog α γ
  | ret b, f => f b
  | read i k, f => read i fun a => (k a).bind f
  | write i a k, f => write i a (k.bind f)

instance : Monad (Prog α) where
  pure := ret
  bind := bind

def cell (i : ℕ) : Prog α α := read i ret

def store (i : ℕ) (a : α) : Prog α Unit := write i a (ret ())

def copy (i : ℕ) : List α → Prog α Unit
  | [] => ret ()
  | a :: as => write i a (copy (i + 1) as)

def fetch (i : ℕ) : ℕ → Prog α (List α)
  | 0 => ret []
  | n + 1 => do
    let a ← cell i
    let as ← fetch (i + 1) n
    pure (a :: as)

def run : Prog α β → (ℕ → α) → β × (ℕ → α)
  | ret b, m => (b, m)
  | read i k, m => (k (m i)).run m
  | write i a k, m => k.run (Function.update m i a)

def value (p : Prog α β) (m : ℕ → α) : β := (p.run m).1

def memory (p : Prog α β) (m : ℕ → α) : ℕ → α := (p.run m).2

def reads : Prog α β → (ℕ → α) → List ℕ
  | ret _, _ => []
  | read i k, m => i :: (k (m i)).reads m
  | write i a k, m => k.reads (Function.update m i a)

/-- Every read of the run from `m` lies inside an array of `n` cells. -/
def ReadsBelow (p : Prog α β) (n : ℕ) (m : ℕ → α) : Prop := ∀ i ∈ p.reads m, i < n

instance (p : Prog α β) (n : ℕ) (m : ℕ → α) : Decidable (p.ReadsBelow n m) := by
  unfold ReadsBelow
  infer_instance

def writes : Prog α β → (ℕ → α) → List ℕ
  | ret _, _ => []
  | read i k, m => (k (m i)).writes m
  | write i a k, m => i :: k.writes (Function.update m i a)

/-- The run from `m` writes every cell of an array of `n` cells, and no other. -/
def FillsExactly (p : Prog α β) (n : ℕ) (m : ℕ → α) : Prop := ∀ i, i ∈ p.writes m ↔ i < n

@[simp] theorem value_pure (b : β) (m : ℕ → α) : (pure b : Prog α β).value m = b := (rfl)
@[simp] theorem memory_pure (b : β) (m : ℕ → α) : (pure b : Prog α β).memory m = m := (rfl)
@[simp] theorem reads_pure (b : β) (m : ℕ → α) : (pure b : Prog α β).reads m = [] := (rfl)
@[simp] theorem writes_pure (b : β) (m : ℕ → α) : (pure b : Prog α β).writes m = [] := (rfl)
@[simp] theorem value_cell (i : ℕ) (m : ℕ → α) : (cell i).value m = m i := (rfl)
@[simp] theorem memory_cell (i : ℕ) (m : ℕ → α) : (cell i).memory m = m := (rfl)
@[simp] theorem reads_cell (i : ℕ) (m : ℕ → α) : (cell i).reads m = [i] := (rfl)
@[simp] theorem writes_cell (i : ℕ) (m : ℕ → α) : (cell i).writes m = [] := (rfl)
@[simp] theorem memory_store (i : ℕ) (a : α) (m : ℕ → α) :
    (store i a).memory m = Function.update m i a := (rfl)
@[simp] theorem writes_store (i : ℕ) (a : α) (m : ℕ → α) : (store i a).writes m = [i] := (rfl)

theorem run_bind (p : Prog α β) (f : β → Prog α γ) (m : ℕ → α) :
    (p >>= f).run m = (f (p.value m)).run (p.memory m) := by
  change (p.bind f).run m = (f (p.run m).1).run (p.run m).2
  induction p generalizing m with
  | ret b => rfl
  | read i k ih => exact ih (m i) m
  | write i a k ih => exact ih (Function.update m i a)

@[simp] theorem value_bind (p : Prog α β) (f : β → Prog α γ) (m : ℕ → α) :
    (p >>= f).value m = (f (p.value m)).value (p.memory m) := by
  simp only [value, memory, run_bind]

@[simp] theorem memory_bind (p : Prog α β) (f : β → Prog α γ) (m : ℕ → α) :
    (p >>= f).memory m = (f (p.value m)).memory (p.memory m) := by
  simp only [value, memory, run_bind]

@[simp] theorem reads_bind (p : Prog α β) (f : β → Prog α γ) (m : ℕ → α) :
    (p >>= f).reads m = p.reads m ++ (f (p.value m)).reads (p.memory m) := by
  change (p.bind f).reads m = p.reads m ++ (f (p.run m).1).reads (p.run m).2
  induction p generalizing m with
  | ret b => rfl
  | read i k ih => exact congrArg (i :: ·) (ih (m i) m)
  | write i a k ih => exact ih (Function.update m i a)

@[simp] theorem writes_bind (p : Prog α β) (f : β → Prog α γ) (m : ℕ → α) :
    (p >>= f).writes m = p.writes m ++ (f (p.value m)).writes (p.memory m) := by
  change (p.bind f).writes m = p.writes m ++ (f (p.run m).1).writes (p.run m).2
  induction p generalizing m with
  | ret b => rfl
  | read i k ih => exact ih (m i) m
  | write i a k ih => exact congrArg (i :: ·) (ih (Function.update m i a))

@[simp] theorem value_ite (c : Prop) [Decidable c] (p q : Prog α β) (m : ℕ → α) :
    (if c then p else q).value m = if c then p.value m else q.value m := by
  split <;> rfl

@[simp] theorem memory_ite (c : Prop) [Decidable c] (p q : Prog α β) (m : ℕ → α) :
    (if c then p else q).memory m = if c then p.memory m else q.memory m := by
  split <;> rfl

@[simp] theorem reads_ite (c : Prop) [Decidable c] (p q : Prog α β) (m : ℕ → α) :
    (if c then p else q).reads m = if c then p.reads m else q.reads m := by
  split <;> rfl

@[simp] theorem writes_ite (c : Prop) [Decidable c] (p q : Prog α β) (m : ℕ → α) :
    (if c then p else q).writes m = if c then p.writes m else q.writes m := by
  split <;> rfl

theorem readsBelow_bind (p : Prog α β) (f : β → Prog α γ) (n : ℕ) (m : ℕ → α) :
    (p >>= f).ReadsBelow n m ↔
      p.ReadsBelow n m ∧ (f (p.value m)).ReadsBelow n (p.memory m) := by
  simp only [ReadsBelow, reads_bind, List.forall_mem_append]

theorem readsBelow_pure (b : β) (n : ℕ) (m : ℕ → α) : (pure b : Prog α β).ReadsBelow n m := by
  simp [ReadsBelow]

/-- What a run computes is decided by the cells it reads. -/
theorem value_congr_of_readsBelow (p : Prog α β) {n : ℕ} {m m' : ℕ → α}
    (h : ∀ i < n, m i = m' i) (hp : p.ReadsBelow n m) : p.value m = p.value m' := by
  induction p generalizing m m' with
  | ret b => rfl
  | read i k ih =>
    obtain ⟨hi, hk⟩ := List.forall_mem_cons.mp hp
    have hrest : (k (m i)).value m = (k (m i)).value m' := ih (m i) h hk
    exact hrest.trans (congrArg (fun a => (k a).value m') (h i hi))
  | write i a k ih =>
    refine ih (fun j hj => ?_) hp
    simp only [Function.update_apply, h j hj]

@[simp] theorem writes_copy (i : ℕ) (as : List α) (m : ℕ → α) :
    (copy i as).writes m = List.range' i as.length := by
  induction as generalizing i m with
  | nil => rfl
  | cons a as ih =>
    rw [List.length_cons, List.range'_succ]
    exact congrArg (i :: ·) (ih (i + 1) (Function.update m i a))

@[simp] theorem memory_fetch (i n : ℕ) (m : ℕ → α) : (fetch i n).memory m = m := by
  induction n generalizing i with
  | zero => rfl
  | succ n ih => simp [fetch, ih]

@[simp] theorem reads_fetch (i n : ℕ) (m : ℕ → α) : (fetch i n).reads m = List.range' i n := by
  induction n generalizing i with
  | zero => rfl
  | succ n ih => simp [fetch, ih, List.range'_succ]

/-- What a run does not write, it keeps. -/
theorem memory_eq_of_notMem_writes (p : Prog α β) (m : ℕ → α) {i : ℕ} (h : i ∉ p.writes m) :
    p.memory m i = m i := by
  induction p generalizing m with
  | ret b => rfl
  | read j k ih => exact ih (m j) m h
  | write j a k ih =>
    rw [writes, List.mem_cons, not_or] at h
    exact (ih (Function.update m j a) h.2).trans (Function.update_of_ne h.1 a m)

/-- A copy fills exactly its own range. -/
theorem memory_copy (i : ℕ) (as : List α) (m : ℕ → α) (j : ℕ) :
    (copy i as).memory m j = if i ≤ j then as[j - i]?.getD (m j) else m j := by
  induction as generalizing i m with
  | nil => simp [copy, memory, run]
  | cons a as ih =>
    change (copy (i + 1) as).memory (Function.update m i a) j = _
    rw [ih]
    rcases Nat.lt_trichotomy i j with h | rfl | h
    · obtain ⟨k, rfl⟩ : ∃ k, j = i + 1 + k := ⟨j - (i + 1), by omega⟩
      have hk : i + 1 + k - i = k + 1 := by omega
      simp [hk, show i ≤ i + 1 + k by omega, show i + 1 + k ≠ i by omega]
    · simp [show ¬ i + 1 ≤ i by omega]
    · simp [show ¬ i + 1 ≤ j by omega, show ¬ i ≤ j by omega, show j ≠ i by omega]

/-! ### A pointer into the array -/

/-- The program, handed a pointer to cell `o` for its array. -/
def offset (o : ℕ) : Prog α β → Prog α β
  | ret b => ret b
  | read i k => read (o + i) fun a => (k a).offset o
  | write i a k => write (o + i) a (k.offset o)

theorem update_offset (m : ℕ → α) (o i : ℕ) (a : α) :
    (fun j => Function.update m (o + i) a (o + j)) = Function.update (fun j => m (o + j)) i a := by
  funext j
  simp only [Function.update_apply, Nat.add_left_cancel_iff]

theorem value_offset (p : Prog α β) (o : ℕ) (m : ℕ → α) :
    (p.offset o).value m = p.value fun i => m (o + i) := by
  induction p generalizing m with
  | ret b => rfl
  | read i k ih => exact ih (m (o + i)) m
  | write i a k ih =>
    change (k.offset o).value (Function.update m (o + i) a) = k.value (Function.update _ i a)
    rw [ih, update_offset]

theorem reads_offset (p : Prog α β) (o : ℕ) (m : ℕ → α) :
    (p.offset o).reads m = (p.reads fun i => m (o + i)).map (o + ·) := by
  induction p generalizing m with
  | ret b => rfl
  | read i k ih => exact congrArg ((o + i) :: ·) (ih (m (o + i)) m)
  | write i a k ih =>
    change (k.offset o).reads (Function.update m (o + i) a) =
      (k.reads (Function.update _ i a)).map _
    rw [ih, update_offset]

/-- What stands before the pointer stays as it is. -/
theorem memory_offset (p : Prog α β) (o : ℕ) (m : ℕ → α) (j : ℕ) :
    (p.offset o).memory m j = if o ≤ j then p.memory (fun i => m (o + i)) (j - o) else m j := by
  induction p generalizing m with
  | ret b =>
    split
    next h => exact congrArg m (by omega)
    next => rfl
  | read i k ih => exact ih (m (o + i)) m
  | write i a k ih =>
    change (k.offset o).memory (Function.update m (o + i) a) j =
      if o ≤ j then k.memory (Function.update _ i a) (j - o) else m j
    rw [ih, update_offset]
    split
    · rfl
    next h =>
      have hne : j ≠ o + i := by omega
      exact Function.update_of_ne hne a m

/-- A program that leaves its array as it is leaves the whole array as it is. -/
theorem memory_offset_of_eq {p : Prog α β} (h : ∀ m, p.memory m = m) (o : ℕ) (m : ℕ → α) :
    (p.offset o).memory m = m := by
  funext j
  rw [memory_offset, h]
  split
  next hle => exact congrArg m (by omega)
  next => rfl

/-- The reads behind a pointer stay inside the array when they stay inside what is left of it. -/
theorem readsBelow_offset {p : Prog α β} {o n : ℕ} (m : ℕ → α) (h : o ≤ n) :
    (p.offset o).ReadsBelow n m ↔ p.ReadsBelow (n - o) fun i => m (o + i) := by
  simp only [ReadsBelow, reads_offset, List.forall_mem_map]
  refine forall₂_congr fun i _ => ?_
  omega

end Prog

section View
variable {α : Type}

/-- The memory seen through a pointer to the cells `xs`, with `beyond` behind them. -/
def view (xs : List α) (beyond : ℕ → α) (i : ℕ) : α := xs[i]?.getD (beyond (i - xs.length))

/-- The `n` cells from index `i` on. -/
def slice (m : ℕ → α) (i n : ℕ) : List α := (List.range n).map fun k => m (i + k)

theorem view_of_lt {xs : List α} {beyond : ℕ → α} {i : ℕ} (h : i < xs.length) :
    view xs beyond i = xs[i] := by simp [view, h]

/-- What stands behind the cells does not matter to them. -/
theorem view_congr (xs : List α) (beyond beyond' : ℕ → α) :
    ∀ i < xs.length, view xs beyond i = view xs beyond' i := by
  intro i hi
  rw [view_of_lt hi, view_of_lt hi]

theorem view_eq_getElem? {xs : List α} (beyond : ℕ → α) {i : ℕ} (h : i < xs.length) :
    xs[i]? = some (view xs beyond i) := by simp [view, h]

theorem view_append {xs ys : List α} {beyond : ℕ → α} (beyond' : ℕ → α) {i : ℕ}
    (h : i < xs.length) :
    view (xs ++ ys) beyond i = view xs beyond' i := by
  simp [view, h, List.getElem?_append]

theorem view_take {xs : List α} {beyond beyond' : ℕ → α} {i n : ℕ} (hn : i < n)
    (hx : i < xs.length) : view (xs.take n) beyond i = view xs beyond' i := by
  simp [view, hn, hx]

theorem view_drop {xs : List α} {beyond : ℕ → α} (beyond' : ℕ → α) {k i : ℕ}
    (h : k + i < xs.length) : view (xs.drop k) beyond' i = view xs beyond (k + i) := by
  simp [view, h]

@[simp] theorem slice_length (m : ℕ → α) (i n : ℕ) : (slice m i n).length = n := by simp [slice]

@[simp] theorem slice_zero (m : ℕ → α) (i : ℕ) : slice m i 0 = [] := rfl

theorem slice_succ (m : ℕ → α) (i n : ℕ) : slice m i (n + 1) = m i :: slice m (i + 1) n := by
  simp [slice, List.range_succ_eq_map, Function.comp_def, Nat.add_assoc, Nat.add_comm 1]

theorem slice_getElem? (m : ℕ → α) (i n k : ℕ) :
    (slice m i n)[k]? = if k < n then some (m (i + k)) else none := by
  by_cases h : k < n <;> simp [slice, h]

theorem slice_congr {m m' : ℕ → α} {i n : ℕ} (h : ∀ k < n, m (i + k) = m' (i + k)) :
    slice m i n = slice m' i n := List.map_congr_left fun k hk => h k (List.mem_range.mp hk)

theorem slice_view {xs : List α} {beyond : ℕ → α} {i n : ℕ} (h : i + n ≤ xs.length) :
    slice (view xs beyond) i n = (xs.drop i).take n := by
  apply List.ext_getElem?
  intro k
  rw [slice_getElem?, List.getElem?_take, List.getElem?_drop]
  split
  · rw [← view_eq_getElem? _ (by omega)]
  · rfl

theorem slice_tail (m : ℕ → α) (i n : ℕ) : slice m (i + 1) n = (slice m i (n + 1)).tail := by
  rw [slice_succ, List.tail_cons]

theorem slice_add (m : ℕ → α) (i n k : ℕ) :
    slice m i (n + k) = slice m i n ++ slice m (i + n) k := by
  simp [slice, List.range_add, Function.comp_def, Nat.add_assoc]

theorem slice_take (m : ℕ → α) (i : ℕ) {n k : ℕ} (h : k ≤ n) :
    (slice m i n).take k = slice m i k := by
  obtain ⟨d, rfl⟩ := Nat.exists_eq_add_of_le h
  rw [slice_add]
  exact List.take_left' (slice_length m i k)

@[simp] theorem value_fetch (i n : ℕ) (m : ℕ → α) : (Prog.fetch i n).value m = slice m i n := by
  induction n generalizing i with
  | zero => rfl
  | succ n ih => simp [Prog.fetch, ih, slice_succ]

/-- The blocks of `w` cells, the last one cut at `len`, lie end to end. -/
theorem slice_blocks (m : ℕ → α) (i w len n : ℕ) :
    ((List.range n).flatMap fun k => slice m (i + w * k) (min w (len - w * k))) =
      slice m i (min (w * n) len) := by
  induction n with
  | zero => simp
  | succ n ih =>
    rw [List.range_succ, List.flatMap_append, ih, List.flatMap_singleton]
    rcases Nat.lt_or_ge (w * n) len with hlt | hle
    · rw [Nat.min_eq_left (Nat.le_of_lt hlt), ← slice_add, Nat.mul_succ]
      congr 1
      omega
    · rw [Nat.min_eq_right hle, Nat.sub_eq_zero_of_le hle, Nat.min_zero, slice_zero,
        List.append_nil, Nat.min_eq_right (Nat.le_trans hle (Nat.mul_le_mul_left w (by omega)))]

/-- A store behind a slice makes it one cell longer. -/
theorem slice_update (m : ℕ → α) (n : ℕ) (a : α) :
    slice (Function.update m n a) 0 (n + 1) = slice m 0 n ++ [a] := by
  rw [slice, List.range_succ, List.map_append, slice]
  refine congrArg₂ _ (List.map_congr_left fun k hk => ?_) (by simp)
  have hk := List.mem_range.mp hk
  rw [Function.update_of_ne (by omega)]

/-- A copy behind a slice appends what it copies. -/
theorem slice_memory_copy (m : ℕ → α) (n : ℕ) (as : List α) :
    slice ((Prog.copy n as).memory m) 0 (n + as.length) = slice m 0 n ++ as := by
  induction as generalizing m n with
  | nil => simp [Prog.copy, Prog.memory, Prog.run]
  | cons a as ih =>
    have h := ih (Function.update m n a) (n + 1)
    rw [slice_update] at h
    rw [List.length_cons, show n + (as.length + 1) = n + 1 + as.length by omega]
    exact h.trans (by simp)

/-- A memory is the view of its first `n` cells below `n`. -/
theorem view_slice (m beyond : ℕ → α) {i n : ℕ} (h : i < n) :
    view (slice m 0 n) beyond i = m i := by
  rw [view, slice_getElem?, if_pos h]
  simp

end View
end Access
