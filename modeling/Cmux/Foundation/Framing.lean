import Cmux.Foundation.Machine

/-! Frames in a stream of cells, and a receiver that scans a bounded window of what it
has stored. The window is the part of the store up to a physical end at `N`; the store
holds at most `N - 1` cells and drops only what stands before and in a frame it takes. -/
namespace Framing
variable {α : Type*}

/-- A recogniser of complete frames at the head of a list. Its answer depends on the
octets of the frame alone. -/
structure Recogniser (α : Type*) where
  size : List α → Option ℕ
  size_pos : ∀ {xs n}, size xs = some n → 0 < n
  size_le : ∀ {xs n}, size xs = some n → n ≤ xs.length
  size_append : ∀ {xs n} (ys), size xs = some n → size (xs ++ ys) = some n
  size_take : ∀ {xs n}, size xs = some n → size (xs.take n) = some n

namespace Recogniser
variable (R : Recogniser α)

/-- Offset and size of the first frame that begins in the list. -/
def scan : List α → Option (ℕ × ℕ)
  | [] => none
  | x :: xs =>
    match R.size (x :: xs) with
    | some n => some (0, n)
    | none => (scan xs).map fun p => (p.1 + 1, p.2)

theorem scan_cons_none {x : α} {xs : List α} (h : R.size (x :: xs) = none) :
    R.scan (x :: xs) = (R.scan xs).map fun p => (p.1 + 1, p.2) := by
  rw [scan, h]

theorem size_nil : R.size [] = none := by
  cases h : R.size [] with
  | none => rfl
  | some n =>
    have hp := R.size_pos h
    have hl := R.size_le h
    simp at hl
    omega

theorem size_drop_le {xs : List α} {i n : ℕ} (h : R.size (xs.drop i) = some n) :
    i + n ≤ xs.length := by
  have hp := R.size_pos h
  have hl := R.size_le h
  simp only [List.length_drop] at hl
  omega

/-- A frame at an offset stays one when the list grows. -/
theorem size_drop_append {xs : List α} {i n : ℕ} (ys : List α)
    (h : R.size (xs.drop i) = some n) : R.size ((xs ++ ys).drop i) = some n := by
  have hl := R.size_drop_le h
  rw [List.drop_append_of_le_length (by omega)]
  exact R.size_append ys h

/-- A frame at an offset is one in every list that holds all of it. -/
theorem size_drop_take {xs : List α} {i n k : ℕ} (hk : i + n ≤ k)
    (h : R.size (xs.drop i) = some n) : R.size ((xs.take k).drop i) = some n := by
  have ht := R.size_append (((xs.drop i).take (k - i)).drop n) (R.size_take h)
  rw [List.drop_take]
  have hs : (xs.drop i).take n ++ ((xs.drop i).take (k - i)).drop n =
      (xs.drop i).take (k - i) := by
    have hn : (xs.drop i).take n = ((xs.drop i).take (k - i)).take n := by
      rw [List.take_take, Nat.min_eq_left (by omega)]
    rw [hn, List.take_append_drop]
  rwa [hs] at ht

theorem scan_eq_some {xs : List α} {i n : ℕ} :
    R.scan xs = some (i, n) ↔ R.size (xs.drop i) = some n ∧ ∀ j < i, R.size (xs.drop j) = none := by
  induction xs generalizing i with
  | nil => simp [scan, R.size_nil]
  | cons x xs ih =>
    unfold scan
    cases hx : R.size (x :: xs) with
    | some m =>
      cases i with
      | zero => simp [hx]
      | succ i =>
        refine ⟨fun h => by simp at h, fun h => ?_⟩
        have h0 := h.2 0 (by omega)
        simp [hx] at h0
    | none =>
      cases i with
      | zero => simp [hx]
      | succ i =>
        have hsplit : (∀ j < i + 1, R.size ((x :: xs).drop j) = none) ↔
            ∀ j < i, R.size (xs.drop j) = none := by
          refine ⟨fun h j hj => h (j + 1) (by omega), fun h j hj => ?_⟩
          cases j with
          | zero => exact hx
          | succ j => exact h j (by omega)
        rw [hsplit, List.drop_succ_cons, ← ih]
        cases hs : R.scan xs <;> simp [Prod.ext_iff]

theorem scan_eq_none {xs : List α} : R.scan xs = none ↔ ∀ j, R.size (xs.drop j) = none := by
  induction xs with
  | nil => simp [scan, R.size_nil]
  | cons x xs ih =>
    unfold scan
    constructor
    · intro h j
      cases hx : R.size (x :: xs) with
      | some m => simp [hx] at h
      | none =>
        cases j with
        | zero => exact hx
        | succ j => exact ih.mp (by simpa [hx] using h) j
    · intro h
      have hx : R.size (x :: xs) = none := h 0
      simpa [hx] using ih.mpr fun j => h (j + 1)

theorem scan_isSome_iff {xs : List α} :
    (R.scan xs).isSome ↔ ∃ j n, R.size (xs.drop j) = some n := by
  rw [← not_iff_not]
  simp only [Option.not_isSome_iff_eq_none, scan_eq_none, not_exists,
    ← Option.eq_none_iff_forall_ne_some]

theorem scan_le {xs : List α} {i n : ℕ} (h : R.scan xs = some (i, n)) :
    i + n ≤ xs.length := R.size_drop_le (R.scan_eq_some.mp h).1

/-- Nothing is found in a prefix of a list in which nothing is found. -/
theorem scan_none_of_append {xs ys : List α} (h : R.scan (xs ++ ys) = none) :
    R.scan xs = none := by
  rw [scan_eq_none] at h ⊢
  intro j
  cases hj : R.size (xs.drop j) with
  | none => rfl
  | some n => simpa [R.size_drop_append ys hj] using h j

/-- A whole frame is found at its own start. -/
theorem scan_whole {xs : List α} {n : ℕ} (ys : List α) (h : R.size xs = some n) :
    R.scan (xs ++ ys) = some (0, n) := by
  rw [scan_eq_some]
  exact ⟨R.size_append ys h, by simp⟩

/-- A proper prefix of a whole frame does not begin a frame. -/
theorem size_proper_take {xs : List α} {k : ℕ} (h : R.size xs = some xs.length)
    (hk : k < xs.length) : R.size (xs.take k) = none := by
  cases ht : R.size (xs.take k) with
  | none => rfl
  | some n =>
    have ha := R.size_append (xs.drop k) ht
    rw [List.take_append_drop, h, Option.some.injEq] at ha
    have hl := R.size_le ht
    simp only [List.length_take] at hl
    omega

/-- The first frame found is still the first in what ends with it. -/
theorem scan_take {xs : List α} {i n : ℕ} (h : R.scan xs = some (i, n)) :
    R.scan (xs.take (i + n)) = some (i, n) := by
  obtain ⟨hf, hfirst⟩ := R.scan_eq_some.mp h
  refine R.scan_eq_some.mpr ⟨R.size_drop_take (Nat.le_refl _) hf, fun j hj => ?_⟩
  cases hm : R.size ((xs.take (i + n)).drop j) with
  | none => rfl
  | some m =>
    have hgrow := R.size_drop_append (xs.drop (i + n)) hm
    rw [List.take_append_drop, hfirst j hj] at hgrow
    simp at hgrow

/-- Nothing is found in a prefix that ends before every frame does. -/
theorem scan_take_none {xs : List α} {k : ℕ}
    (h : ∀ j m, R.size (xs.drop j) = some m → k < j + m) : R.scan (xs.take k) = none := by
  rw [scan_eq_none]
  intro j
  cases hm : R.size ((xs.take k).drop j) with
  | none => rfl
  | some m =>
    have hle := R.size_drop_le hm
    have hgrow := R.size_drop_append (xs.drop k) hm
    rw [List.take_append_drop] at hgrow
    have := h j m hgrow
    rw [List.length_take] at hle
    omega

end Recogniser

/-- What the receiver has stored, oldest cell first, and the physical position of the first. -/
structure Window (α : Type*) where
  pos : ℕ
  content : List α

namespace Window
variable (R : Recogniser α) (N : ℕ) (s : Window α)

def push (d : List α) : Window α := ⟨s.pos, s.content ++ d.take (N - 1 - s.content.length)⟩

def visible : List α := s.content.take (N - s.pos)

def extract : Window α × Option (List α) :=
  match R.scan (s.visible N) with
  | none => (s, none)
  | some (i, n) => (⟨(s.pos + i + n) % N, s.content.drop (i + n)⟩, some ((s.content.drop i).take n))

/-- The receiver: each input is stored, then at most one frame is taken out. -/
def receiver : Mealy (Window α) (List α) (ℕ × Option (List α)) where
  step s d :=
    (((s.push N d).extract R N).1,
      min d.length (N - 1 - s.content.length), ((s.push N d).extract R N).2)

def Fits : Prop := s.pos < N ∧ s.content.length < N

def CaughtUp : Prop := R.scan (s.visible N) = none

/-- The cells that can still become visible without a frame being taken out. -/
def room : ℕ := min (N - s.pos) (N - 1) - s.content.length

variable {R N s}

theorem extract_none (h : R.scan (s.visible N) = none) : s.extract R N = (s, none) := by
  rw [extract, h]

theorem extract_some {i n : ℕ} (h : R.scan (s.visible N) = some (i, n)) :
    s.extract R N = (⟨(s.pos + i + n) % N, s.content.drop (i + n)⟩,
      some ((s.content.drop i).take n)) := by
  rw [extract, h]

theorem step_eq (d : List α) : (receiver R N).step s d =
    (((s.push N d).extract R N).1,
      min d.length (N - 1 - s.content.length), ((s.push N d).extract R N).2) := rfl

theorem Fits.push (h : s.Fits N) (d : List α) : (s.push N d).Fits N := by
  obtain ⟨hp, hc⟩ := h
  refine ⟨hp, ?_⟩
  simp only [Window.push, List.length_append, List.length_take]
  omega

theorem Fits.extract (h : s.Fits N) : (s.extract R N).1.Fits N := by
  obtain ⟨hp, hc⟩ := h
  cases hs : R.scan (s.visible N) with
  | none => rw [extract_none hs]; exact ⟨hp, hc⟩
  | some q =>
    rw [extract_some hs]
    refine ⟨Nat.mod_lt _ (by omega), ?_⟩
    simp only [List.length_drop]
    omega

theorem Fits.step (h : s.Fits N) (d : List α) : ((receiver R N).step s d).1.Fits N :=
  (h.push d).extract

/-- What an input adds to the visible part uses up that much of the room. -/
theorem visible_push (h : s.Fits N) (d : List α) :
    ∃ e, (s.push N d).visible N = s.visible N ++ e ∧
      e.length + (s.push N d).room N ≤ s.room N := by
  obtain ⟨hp, hc⟩ := h
  refine ⟨(d.take (N - 1 - s.content.length)).take (N - s.pos - s.content.length), ?_, ?_⟩
  · simp only [visible, push, List.take_append]
  · simp only [room, push, List.length_take, List.length_append]
    omega

theorem push_of_le {d : List α} (hd : d.length ≤ N - 1 - s.content.length) :
    s.push N d = ⟨s.pos, s.content ++ d⟩ := by
  rw [push, List.take_of_length_le hd]

theorem visible_push_of_le_room {d : List α} (hd : d.length ≤ s.room N) :
    (s.push N d).visible N = s.visible N ++ d := by
  simp only [room] at hd
  rw [push_of_le (by omega)]
  change (s.content ++ d).take (N - s.pos) = s.content.take (N - s.pos) ++ d
  rw [List.take_append]
  rcases Nat.eq_zero_or_pos d.length with h0 | h0
  · simp [List.length_eq_zero_iff.mp h0]
  · rw [List.take_of_length_le (show d.length ≤ N - s.pos - s.content.length by omega)]

/-- A frame can still come out exactly when the visible part can be continued, within
the room left, to hold one. -/
theorem delivers_iff (h : s.Fits N) :
    (∃ ds, ∃ o ∈ (receiver R N).outputs s ds, o.2.isSome) ↔
      ∃ ext : List α, ext.length ≤ s.room N ∧ (R.scan (s.visible N ++ ext)).isSome := by
  constructor
  · rintro ⟨ds, o, ho, hs⟩
    induction ds generalizing s with
    | nil => simp at ho
    | cons d ds ih =>
      obtain ⟨e, he, hroom⟩ := visible_push h d
      cases hscan : R.scan ((s.push N d).visible N) with
      | some q => exact ⟨e, by omega, by rw [← he, hscan]; rfl⟩
      | none =>
        have hstep : ((receiver R N).step s d).1 = s.push N d := by
          rw [step_eq, extract_none hscan]
        have ho' : o ∈ (receiver R N).outputs (s.push N d) ds := by
          rcases List.mem_cons.mp ho with rfl | ho
          · simp [step_eq, extract_none hscan] at hs
          · rwa [hstep] at ho
        obtain ⟨ext, hext, hsome⟩ := ih (h.push d) ho'
        exact ⟨e ++ ext, by simp only [List.length_append]; omega,
          by rwa [← List.append_assoc, ← he]⟩
  · rintro ⟨ext, hext, hsome⟩
    obtain ⟨q, hq⟩ := Option.isSome_iff_exists.mp hsome
    rw [← visible_push_of_le_room hext] at hq
    exact ⟨[ext], _, List.mem_singleton_self _, by rw [step_eq, extract_some hq]; rfl⟩

end Window
end Framing
