import Cmux.Foundation.Machine

/-! Channels of one machine that share a memory. What is done on a channel must show what the run
shows from which everything on the other channels is deleted. When the machine itself keeps its
channels apart, the memory is the one way left from a channel to another. -/

/-- What the steps of a machine find in memory, and what each of them leaves there. -/
structure Memory (σ ι ν : Type*) where
  State : Type
  found : State → ν
  after : State → σ → ι → State

namespace Mealy
variable {σ ι ν ω κ ε : Type*}

section Memory
variable (M : Mealy σ (ι × ν) ω) (memory : Memory σ ι ν)

def withMemory : Mealy (σ × memory.State) ι ω where
  step s i := (((M.step s.1 (i, memory.found s.2)).1, memory.after s.2 s.1 i),
    (M.step s.1 (i, memory.found s.2)).2)

@[simp] theorem withMemory_state (s : σ) (m : memory.State) (i : ι) :
    ((M.withMemory memory).step (s, m) i).1 =
      ((M.step s (i, memory.found m)).1, memory.after m s i) := rfl

@[simp] theorem withMemory_output (s : σ) (m : memory.State) (i : ι) :
    ((M.withMemory memory).step (s, m) i).2 = (M.step s (i, memory.found m)).2 := rfl

end Memory

variable [DecidableEq κ]

def shownOn (t : ε → Option κ) (g : ω → List ε) (k : κ) (os : List ω) : List ε :=
  os.flatMap fun o => (g o).filter fun e => t e = some k

@[simp] theorem shownOn_cons (t : ε → Option κ) (g : ω → List ε) (k : κ) (o : ω) (os : List ω) :
    shownOn t g k (o :: os) = ((g o).filter fun e => t e = some k) ++ shownOn t g k os :=
  List.flatMap_cons

/-- A machine keeps its channels apart but for the memory, which shows in the inputs `D` only.
States are alike on a channel by `R`, every input is about the channel `c`, and what it shows is
tagged with it. -/
structure KeepsApart (M : Mealy σ (ι × ν) ω) (c : ι → κ) (t : ε → Option κ) (g : ω → List ε)
    (A D : ι → Prop) (R : κ → σ → σ → Prop) : Prop where
  refl : ∀ k s, R k s s
  trans : ∀ {k r s u}, R k r s → R k s u → R k r u
  alike : ∀ {k s u}, R k s u → ∀ i v w, R k (M.step s (i, v)).1 (M.step u (i, w)).1
  leave : ∀ {k} s i v, c i ≠ k → R k (M.step s (i, v)).1 s
  determined : ∀ {s u} i v, R (c i) s u → g (M.step s (i, v)).2 = g (M.step u (i, v)).2
  tagged : ∀ s i v, A i → ∀ e ∈ g (M.step s (i, v)).2, t e = some (c i)
  hides : ∀ s i v w, ¬ D i → g (M.step s (i, v)).2 = g (M.step s (i, w)).2
  shows : ∀ i, A i → D i → ∃ v w, ∀ s xs ys,
    g (M.step s (i, v)).2 ++ xs ≠ g (M.step s (i, w)).2 ++ ys

namespace KeepsApart
variable {M : Mealy σ (ι × ν) ω} {c : ι → κ} {t : ε → Option κ} {g : ω → List ε} {A D : ι → Prop}
  {R : κ → σ → σ → Prop} (h : M.KeepsApart c t g A D R)
include h

/-- A step on the channel shows all that it shows there. -/
theorem filter_same {k : κ} (s : σ) {i : ι} (v : ν) (hA : A i) (hk : c i = k) :
    ((g (M.step s (i, v)).2).filter fun e => t e = some k) = g (M.step s (i, v)).2 := by
  refine List.filter_eq_self.mpr fun e he => ?_
  rw [h.tagged s i v hA e he, hk]
  exact decide_eq_true rfl

/-- A step on another channel shows nothing there. -/
theorem filter_other {k : κ} (s : σ) {i : ι} (v : ν) (hA : A i) (hk : c i ≠ k) :
    ((g (M.step s (i, v)).2).filter fun e => t e = some k) = [] := by
  refine List.filter_eq_nil_iff.mpr fun e he => ?_
  rw [h.tagged s i v hA e he]
  simpa using hk

/-- Whatever the memories, a run leaves on a channel what the run on it alone leaves. -/
theorem final_purged {k : κ} (memory memory' : Memory σ ι ν) {s u : σ} (hR : R k s u)
    (m : memory.State) (m' : memory'.State) (is : List ι) :
    R k ((M.withMemory memory).final (s, m) is).1
      ((M.withMemory memory').final (u, m') (is.filter fun i => c i = k)).1 := by
  induction is generalizing s u m m' with
  | nil => exact hR
  | cons i is ih =>
    by_cases hk : c i = k
    · rw [List.filter_cons_of_pos (by simpa using hk)]
      exact ih (h.alike hR i _ _) _ _
    · rw [List.filter_cons_of_neg (by simpa using hk)]
      exact ih (h.trans (h.leave s i _ hk) hR) _ _

/-- Where no input on the channel shows memory, a run shows there what the run on it alone does,
even over another memory. -/
theorem shownOn_purged {k : κ} (memory memory' : Memory σ ι ν) {s u : σ} (hR : R k s u)
    (m : memory.State) (m' : memory'.State) {is : List ι} (hA : ∀ i ∈ is, A i)
    (hD : ∀ i ∈ is, c i = k → ¬ D i) :
    shownOn t g k ((M.withMemory memory).outputs (s, m) is) =
      shownOn t g k ((M.withMemory memory').outputs (u, m') (is.filter fun i => c i = k)) := by
  induction is generalizing s u m m' with
  | nil => rfl
  | cons i is ih =>
    obtain ⟨hi, hA⟩ := List.forall_mem_cons.mp hA
    obtain ⟨hDi, hD⟩ := List.forall_mem_cons.mp hD
    by_cases hk : c i = k
    · rw [List.filter_cons_of_pos (by simpa using hk)]
      simp only [outputs_cons, shownOn_cons, withMemory_output, withMemory_state]
      rw [ih (h.alike hR i _ (memory'.found m')) _ (memory'.after m' u i) hA hD,
        h.hides s i _ (memory'.found m') (hDi hk), h.determined i _ (hk.symm ▸ hR)]
    · rw [List.filter_cons_of_neg (by simpa using hk)]
      simp only [outputs_cons, shownOn_cons, withMemory_output, withMemory_state]
      rw [h.filter_other s _ hi hk, List.nil_append]
      exact ih (h.trans (h.leave s i _ hk) hR) _ m' hA hD

end KeepsApart

/-- The memory that is found as `v` until a step on another channel, and then as `w`. -/
def markedMemory (c : ι → κ) (k : κ) (v w : ν) : Memory σ ι ν where
  State := Bool
  found marked := if marked then w else v
  after marked _ i := marked || decide (c i ≠ k)

@[simp] theorem withMemory_marked_state (M : Mealy σ (ι × ν) ω) (c : ι → κ) (k : κ) (v w : ν)
    (s : σ) (marked : Bool) (i : ι) : ((M.withMemory (markedMemory c k v w)).step (s, marked) i).1 =
      ((M.step s (i, if marked then w else v)).1, marked || decide (c i ≠ k)) := rfl

@[simp] theorem withMemory_marked_output (M : Mealy σ (ι × ν) ω) (c : ι → κ) (k : κ) (v w : ν)
    (s : σ) (marked : Bool) (i : ι) : ((M.withMemory (markedMemory c k v w)).step (s, marked) i).2 =
      (M.step s (i, if marked then w else v)).2 := rfl

namespace KeepsApart
variable {M : Mealy σ (ι × ν) ω} {c : ι → κ} {t : ε → Option κ} {g : ω → List ε} {A D : ι → Prop}
  {R : κ → σ → σ → Prop} (h : M.KeepsApart c t g A D R)
include h

/-- An input on the channel that shows memory shows that another channel was used before. -/
theorem exists_shownOn_ne {k : κ} {is : List ι} (hA : ∀ i ∈ is, A i)
    (hD : ∃ i ∈ is, c i = k ∧ D i) : ∃ v w : ν, ∀ s u, R k s u →
      shownOn t g k ((M.withMemory (markedMemory c k v w)).outputs (s, true) is) ≠
        shownOn t g k ((M.withMemory (markedMemory c k v w)).outputs (u, false)
          (is.filter fun i => c i = k)) := by
  induction is with
  | nil => simp at hD
  | cons i is ih =>
    obtain ⟨hi, hA⟩ := List.forall_mem_cons.mp hA
    simp only [List.mem_cons, exists_eq_or_imp] at hD
    by_cases hk : c i = k
    · rw [List.filter_cons_of_pos (by simpa using hk)]
      by_cases hDi : D i
      · -- the first input that shows memory tells the two runs apart
        obtain ⟨v, w, hne⟩ := h.shows i hi hDi
        refine ⟨v, w, fun s u hR heq => ?_⟩
        simp only [outputs_cons, shownOn_cons, withMemory_marked_output, if_true,
          Bool.false_eq_true, if_false] at heq
        rw [h.filter_same s _ hi hk, h.filter_same u _ hi hk,
          h.determined i _ (hk.symm ▸ hR)] at heq
        exact hne u _ _ heq.symm
      · obtain ⟨v, w, hne⟩ := ih hA (hD.resolve_left fun hi => hDi hi.2)
        refine ⟨v, w, fun s u hR heq => ?_⟩
        simp only [outputs_cons, shownOn_cons, withMemory_marked_output, withMemory_marked_state,
          if_true, Bool.false_eq_true, if_false, Bool.true_or, Bool.false_or, hk, ne_eq,
          not_true_eq_false, decide_false] at heq
        rw [h.hides s i w v hDi, h.determined i _ (hk.symm ▸ hR)] at heq
        exact hne _ _ (h.alike hR i _ _) (List.append_cancel_left heq)
    · rw [List.filter_cons_of_neg (by simpa using hk)]
      obtain ⟨v, w, hne⟩ := ih hA (hD.resolve_left fun hi => hk hi.1)
      refine ⟨v, w, fun s u hR heq => ?_⟩
      simp only [outputs_cons, shownOn_cons, withMemory_marked_output, withMemory_marked_state,
        if_true, Bool.true_or] at heq
      rw [h.filter_other s _ hi hk, List.nil_append] at heq
      exact hne _ _ (h.trans (h.leave s i _ hk) hR) heq

/-- Such an input shows it of an input before, over the memory that another channel marks. -/
theorem exists_shownOn_ne_of_marked {k : κ} {is : List ι} (hA : ∀ i ∈ is, A i)
    (hD : ∃ i ∈ is.dropWhile fun i => c i = k, c i = k ∧ D i) : ∃ v w : ν, ∀ s,
      shownOn t g k ((M.withMemory (markedMemory c k v w)).outputs (s, false) is) ≠
        shownOn t g k ((M.withMemory (markedMemory c k v w)).outputs (s, false)
          (is.filter fun i => c i = k)) := by
  induction is with
  | nil => simp at hD
  | cons i is ih =>
    obtain ⟨hi, htail⟩ := List.forall_mem_cons.mp hA
    by_cases hk : c i = k
    · rw [List.dropWhile_cons_of_pos (by simpa using hk)] at hD
      rw [List.filter_cons_of_pos (by simpa using hk)]
      obtain ⟨v, w, hne⟩ := ih htail hD
      refine ⟨v, w, fun s heq => ?_⟩
      simp only [outputs_cons, shownOn_cons, withMemory_marked_state, Bool.false_eq_true, if_false,
        Bool.false_or, hk, ne_eq, not_true_eq_false, decide_false] at heq
      exact hne _ (List.append_cancel_left heq)
    · rw [List.dropWhile_cons_of_neg (by simpa using hk)] at hD
      rw [List.filter_cons_of_neg (by simpa using hk)]
      simp only [List.mem_cons, exists_eq_or_imp] at hD
      obtain ⟨v, w, hne⟩ := h.exists_shownOn_ne htail (hD.resolve_left fun hi => hk hi.1)
      refine ⟨v, w, fun s heq => ?_⟩
      simp only [outputs_cons, shownOn_cons, withMemory_marked_output, withMemory_marked_state,
        Bool.false_eq_true, if_false, Bool.false_or, hk, ne_eq, not_false_eq_true,
        decide_true] at heq
      rw [h.filter_other s _ hi hk, List.nil_append] at heq
      exact hne _ s (h.leave s i v hk) heq

/-- Where no input on the channel that follows one on another shows memory, a run shows there what
the run on it alone does. -/
theorem shownOn_purged_of {k : κ} (memory : Memory σ ι ν) {s : σ} (m : memory.State) {is : List ι}
    (hA : ∀ i ∈ is, A i) (hD : ∀ i ∈ is.dropWhile fun i => c i = k, c i = k → ¬ D i) :
    shownOn t g k ((M.withMemory memory).outputs (s, m) is) =
      shownOn t g k ((M.withMemory memory).outputs (s, m) (is.filter fun i => c i = k)) := by
  induction is generalizing s m with
  | nil => rfl
  | cons i is ih =>
    by_cases hk : c i = k
    · rw [List.dropWhile_cons_of_pos (by simpa using hk)] at hD
      rw [List.filter_cons_of_pos (by simpa using hk), outputs_cons, outputs_cons, shownOn_cons,
        shownOn_cons]
      exact congrArg _ (ih _ (List.forall_mem_cons.mp hA).2 hD)
    · rw [List.dropWhile_cons_of_neg (by simpa using hk)] at hD
      exact h.shownOn_purged memory memory (h.refl k s) m m hA hD

/-- Over every memory a run shows on a channel what the run on it alone shows, exactly when no
input on it that follows one on another channel shows memory. -/
theorem shownOn_purged_iff (k : κ) (s : σ) {is : List ι} (hA : ∀ i ∈ is, A i) :
    (∀ (memory : Memory σ ι ν) (m : memory.State),
      shownOn t g k ((M.withMemory memory).outputs (s, m) is) =
        shownOn t g k ((M.withMemory memory).outputs (s, m) (is.filter fun i => c i = k))) ↔
      ∀ i ∈ is.dropWhile fun i => c i = k, c i = k → ¬ D i := by
  constructor
  · intro hall i hi hk hD
    obtain ⟨v, w, hne⟩ := h.exists_shownOn_ne_of_marked hA ⟨i, hi, hk, hD⟩
    exact hne s (hall (markedMemory c k v w) false)
  · exact fun hD memory m => h.shownOn_purged_of memory m hA hD

end KeepsApart
end Mealy
