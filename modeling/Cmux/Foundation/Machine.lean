import Mathlib.Algebra.BigOperators.Group.List.Basic
import Mathlib.Algebra.GroupWithZero.Nat
import Mathlib.Data.List.Basic

/-! Deterministic machines with one output for each input, and the rules by which a
fact about one step becomes a fact about every run. -/

structure Mealy (σ ι ω : Type*) where
  step : σ → ι → σ × ω

namespace Mealy
variable {σ τ ι ω ω' : Type*} (M : Mealy σ ι ω)

def final : σ → List ι → σ
  | s, [] => s
  | s, i :: is => final (M.step s i).1 is

def outputs : σ → List ι → List ω
  | _, [] => []
  | s, i :: is => (M.step s i).2 :: outputs (M.step s i).1 is

def states : σ → List ι → List σ
  | _, [] => []
  | s, i :: is => s :: states (M.step s i).1 is

/-- Every step of the run meets `C`, a condition on the state before it and its input. -/
def Throughout (C : σ → ι → Prop) : σ → List ι → Prop
  | _, [] => True
  | s, i :: is => C s i ∧ Throughout C (M.step s i).1 is

@[simp] theorem final_nil (s : σ) : M.final s [] = s := rfl
@[simp] theorem final_cons (s : σ) (i : ι) (is : List ι) :
    M.final s (i :: is) = M.final (M.step s i).1 is := rfl
@[simp] theorem outputs_nil (s : σ) : M.outputs s [] = [] := rfl
@[simp] theorem outputs_cons (s : σ) (i : ι) (is : List ι) :
    M.outputs s (i :: is) = (M.step s i).2 :: M.outputs (M.step s i).1 is := rfl
@[simp] theorem throughout_nil (C : σ → ι → Prop) (s : σ) : M.Throughout C s [] := trivial
@[simp] theorem throughout_cons (C : σ → ι → Prop) (s : σ) (i : ι) (is : List ι) :
    M.Throughout C s (i :: is) ↔ C s i ∧ M.Throughout C (M.step s i).1 is := Iff.rfl

instance (C : σ → ι → Prop) [∀ s i, Decidable (C s i)] :
    ∀ (s : σ) (is : List ι), Decidable (M.Throughout C s is)
  | _, [] => inferInstanceAs (Decidable True)
  | s, i :: is =>
    have := instDecidableThroughout C (M.step s i).1 is
    inferInstanceAs (Decidable (C s i ∧ M.Throughout C (M.step s i).1 is))

@[simp] theorem final_append (s : σ) (is js : List ι) :
    M.final s (is ++ js) = M.final (M.final s is) js := by
  induction is generalizing s with
  | nil => rfl
  | cons i is ih => exact ih _

@[simp] theorem outputs_append (s : σ) (is js : List ι) :
    M.outputs s (is ++ js) = M.outputs s is ++ M.outputs (M.final s is) js := by
  induction is generalizing s with
  | nil => rfl
  | cons i is ih => simp [ih]

/-- A step condition that is equivalent to a fact about the step's output is, over a run,
equivalent to that fact about every output. -/
theorem outputs_forall_iff {C : σ → ι → Prop} {P : σ → Prop} {Q : ω → Prop}
    (hstep : ∀ s i, P s → P (M.step s i).1) (hout : ∀ s i, P s → (Q (M.step s i).2 ↔ C s i))
    {s : σ} (hs : P s) (is : List ι) :
    (∀ o ∈ M.outputs s is, Q o) ↔ M.Throughout C s is := by
  induction is generalizing s with
  | nil => simp
  | cons i is ih =>
    simp only [outputs_cons, List.forall_mem_cons, throughout_cons, hout s i hs]
    rw [ih (hstep s i hs)]

/-- The case in which the state plays no part. -/
theorem outputs_forall_input_iff {C : ι → Prop} {Q : ω → Prop}
    (hout : ∀ s i, Q (M.step s i).2 ↔ C i) (s : σ) (is : List ι) :
    (∀ o ∈ M.outputs s is, Q o) ↔ ∀ i ∈ is, C i := by
  induction is generalizing s with
  | nil => simp
  | cons i is ih => simp only [outputs_cons, List.forall_mem_cons, hout, ih]

/-- The case in which the condition also looks at the output of the step. -/
theorem outputs_forall₂_iff {C : ι → Prop} {Q : ι → ω → Prop}
    (hout : ∀ s i, Q i (M.step s i).2 ↔ C i) (s : σ) (is : List ι) :
    List.Forall₂ Q is (M.outputs s is) ↔ ∀ i ∈ is, C i := by
  induction is generalizing s with
  | nil => simp
  | cons i is ih => rw [outputs_cons, List.forall₂_cons, List.forall_mem_cons, hout, ih]

/-- What every step gives as much of as its input says, a run gives as much of as its inputs
say. -/
theorem outputs_sum {f : ω → ℕ} {a : ι → ℕ}
    (hstep : ∀ s i, f (M.step s i).2 = a i) (s : σ) (is : List ι) :
    ((M.outputs s is).map f).sum = (is.map a).sum := by
  induction is generalizing s with
  | nil => rfl
  | cons i is ih => rw [outputs_cons, List.map_cons, List.sum_cons, hstep, ih, List.map_cons,
      List.sum_cons]

/-- A run gives no more than it was asked for exactly when no input makes it give more. -/
theorem outputs_sum_le_iff {f : ω → ℕ} {a b : ι → ℕ}
    (hstep : ∀ s i, f (M.step s i).2 = a i + b i) (s : σ) (is : List ι) :
    ((M.outputs s is).map f).sum ≤ (is.map a).sum ↔ ∀ i ∈ is, b i = 0 := by
  have hsum := M.outputs_sum hstep s is
  rw [List.sum_map_add] at hsum
  have hzero : (is.map b).sum = 0 ↔ ∀ i ∈ is, b i = 0 := by
    rw [List.sum_eq_zero_iff_forall_eq_nat, List.forall_mem_map]
  rw [← hzero]
  omega

/-- A step pays for what it spends, and for the credit it leaves, with what it earns and the
credit it finds. -/
def Pays (spent earned : ω → ℕ) (credit : σ → ℕ) (s : σ) (i : ι) : Prop :=
  spent (M.step s i).2 + credit (M.step s i).1 ≤ earned (M.step s i).2 + credit s

/-- A run whose steps pay pays. -/
theorem spent_le_earned {C : σ → ι → Prop} {spent earned : ω → ℕ} {credit : σ → ℕ}
    (hstep : ∀ s i, C s i → M.Pays spent earned credit s i) {s : σ} {is : List ι}
    (hC : M.Throughout C s is) :
    ((M.outputs s is).map spent).sum + credit (M.final s is) ≤
      ((M.outputs s is).map earned).sum + credit s := by
  induction is generalizing s with
  | nil => simp
  | cons i is ih =>
    have h : spent _ + credit _ ≤ earned _ + credit s := hstep s i hC.1
    have hrest := ih hC.2
    simp only [outputs_cons, List.map_cons, List.sum_cons, final_cons]
    omega

/-- The case in which the inputs bring an allowance, too. -/
theorem spent_le_allowed {f g : ω → ℕ} {a : ι → ℕ} {c : σ → ℕ}
    (hstep : ∀ s i, f (M.step s i).2 + c (M.step s i).1 ≤ g (M.step s i).2 + a i + c s)
    (s : σ) (is : List ι) :
    ((M.outputs s is).map f).sum + c (M.final s is) ≤
      ((M.outputs s is).map g).sum + (is.map a).sum + c s := by
  induction is generalizing s with
  | nil => simp
  | cons i is ih =>
    have h := hstep s i
    have hrest := ih (M.step s i).1
    simp only [outputs_cons, List.map_cons, List.sum_cons, final_cons]
    omega

/-- What a machine holds is a queue when each step keeps the order of what comes out before
what is held before what comes in. -/
theorem flatMap_conserved {α : Type*} {out : ω → List α} {inp : ι → List α} {held : σ → List α}
    (hstep : ∀ s i, out (M.step s i).2 ++ held (M.step s i).1 = held s ++ inp i)
    (s : σ) (is : List ι) :
    (M.outputs s is).flatMap out ++ held (M.final s is) = held s ++ is.flatMap inp := by
  induction is generalizing s with
  | nil => simp
  | cons i is ih =>
    simp only [outputs_cons, List.flatMap_cons, final_cons]
    rw [List.append_assoc, ih, ← List.append_assoc, hstep, List.append_assoc]

/-- The case in which only the steps that meet a condition keep the order. -/
theorem flatMap_conserved_of {α : Type*} {C : σ → ι → Prop} {f : ω → List α} {g : ι → List α}
    {q : σ → List α} (hstep : ∀ s i, C s i → f (M.step s i).2 ++ q (M.step s i).1 = q s ++ g i)
    {s : σ} {is : List ι} (hC : M.Throughout C s is) :
    (M.outputs s is).flatMap f ++ q (M.final s is) = q s ++ is.flatMap g := by
  induction is generalizing s with
  | nil => simp
  | cons i is ih =>
    simp only [outputs_cons, List.flatMap_cons, final_cons]
    rw [List.append_assoc, ih hC.2, ← List.append_assoc, hstep s i hC.1, List.append_assoc]

/-- What every step keeps holds before every step of a run, with all that follows from it. -/
theorem throughout_invariant {P : σ → Prop} {C : ι → Prop} {D : σ → ι → Prop}
    (hstep : ∀ s i, P s → C i → P (M.step s i).1) (hD : ∀ s i, P s → C i → D s i) {s : σ}
    (hs : P s) {is : List ι} (hC : ∀ i ∈ is, C i) : M.Throughout D s is := by
  induction is generalizing s with
  | nil => trivial
  | cons i is ih =>
    obtain ⟨hi, his⟩ := List.forall_mem_cons.mp hC
    exact ⟨hD s i hs hi, ih (hstep s i hs hi) his⟩

/-- Each step says by `P` what it moves out of a queue and into it. -/
theorem exists_moves {α : Type*} {P : σ → ι → ω → List α → List α → Prop} {q : σ → List α}
    (hstep : ∀ s i, ∃ left entered, P s i (M.step s i).2 left entered ∧
      left ++ q (M.step s i).1 = q s ++ entered) (s : σ) (is : List ι) :
    ∃ moves : List (List α × List α),
      List.Forall₂ (fun (step : σ × ι × ω) (move : List α × List α) =>
          P step.1 step.2.1 step.2.2 move.1 move.2)
        ((M.states s is).zip (is.zip (M.outputs s is))) moves ∧
      moves.flatMap Prod.fst ++ q (M.final s is) = q s ++ moves.flatMap Prod.snd := by
  induction is generalizing s with
  | nil => exact ⟨[], List.Forall₂.nil, by simp⟩
  | cons i is ih =>
    obtain ⟨left, entered, hmove, hq⟩ := hstep s i
    obtain ⟨moves, hmoves, hrest⟩ := ih (M.step s i).1
    refine ⟨(left, entered) :: moves, List.Forall₂.cons hmove hmoves, ?_⟩
    rw [List.flatMap_cons, final_cons, List.append_assoc, hrest, ← List.append_assoc, hq,
      List.append_assoc, List.flatMap_cons]

/-- A measure that every step changes as its outputs tell is changed by a run as the outputs of
the run tell. -/
theorem foldl_outputs {β γ : Type*} {f : ω → List β} {g : γ → β → γ} {m : σ → γ}
    (hstep : ∀ s i, (f (M.step s i).2).foldl g (m s) = m (M.step s i).1) (s : σ) (is : List ι) :
    ((M.outputs s is).flatMap f).foldl g (m s) = m (M.final s is) := by
  induction is generalizing s with
  | nil => rfl
  | cons i is ih => rw [outputs_cons, List.flatMap_cons, List.foldl_append, hstep, ih, final_cons]

/-- A queue `q` that the steps fill gives out, in order, what it held and what they put in. -/
theorem queue_conserved {α : Type*} {f g : ω → List α} {q : σ → List α}
    (hstep : ∀ s i, f (M.step s i).2 ++ q (M.step s i).1 = q s ++ g (M.step s i).2)
    (s : σ) (is : List ι) :
    (M.outputs s is).flatMap f ++ q (M.final s is) = q s ++ (M.outputs s is).flatMap g := by
  induction is generalizing s with
  | nil => simp
  | cons i is ih =>
    simp only [outputs_cons, List.flatMap_cons, final_cons]
    rw [List.append_assoc, ih, ← List.append_assoc, hstep, List.append_assoc]

section Observe
variable {γ : Type*} (upd : γ → σ → ι → γ)

/-- The machine with a history variable, on which no output depends. -/
def observe : Mealy (γ × σ) ι ω where
  step s i := ((upd s.1 s.2 i, (M.step s.2 i).1), (M.step s.2 i).2)

@[simp] theorem observe_step (s : γ × σ) (i : ι) : (M.observe upd).step s i =
    ((upd s.1 s.2 i, (M.step s.2 i).1), (M.step s.2 i).2) := rfl

theorem outputs_observe (g : γ) (s : σ) (is : List ι) :
    (M.observe upd).outputs (g, s) is = M.outputs s is := by
  induction is generalizing g s with
  | nil => rfl
  | cons i is ih => simp [ih]

end Observe

theorem throughout_true (s : σ) (is : List ι) : M.Throughout (fun _ _ => True) s is := by
  induction is generalizing s with
  | nil => trivial
  | cons i is ih => exact ⟨trivial, ih _⟩

section Simulation
variable {M}
variable {κ ψ : Type*} {N : Mealy τ κ ω'} {R : σ → τ → Prop} {f : ι → κ} {A : σ → ι → Prop}

/-- Two machines that a simulation relates show the same of their outputs in every run whose
steps the simulation admits. -/
theorem outputs_simulation {g : ω → ψ} {g' : ω' → ψ} (hstep : ∀ s t i, R s t → A s i →
      R (M.step s i).1 (N.step t (f i)).1 ∧ g (M.step s i).2 = g' (N.step t (f i)).2)
    {s : σ} {t : τ} (h : R s t) {is : List ι} (hA : M.Throughout A s is) :
    R (M.final s is) (N.final t (is.map f)) ∧
      (M.outputs s is).map g = (N.outputs t (is.map f)).map g' := by
  induction is generalizing s t with
  | nil => exact ⟨h, rfl⟩
  | cons i is ih =>
    obtain ⟨hR, hg⟩ := hstep s t i h hA.1
    obtain ⟨hf, ho⟩ := ih hR hA.2
    exact ⟨hf, by simp [hg, ho]⟩

/-- The case in which they show everything, whatever the steps. -/
theorem outputs_eq {N : Mealy τ κ ω} (hstep : ∀ s t i, R s t →
      R (M.step s i).1 (N.step t (f i)).1 ∧ (M.step s i).2 = (N.step t (f i)).2)
    {s : σ} {t : τ} (h : R s t) (is : List ι) :
    R (M.final s is) (N.final t (is.map f)) ∧ M.outputs s is = N.outputs t (is.map f) := by
  have hboth : R (M.final s is) (N.final t (is.map f)) ∧
      (M.outputs s is).map id = (N.outputs t (is.map f)).map id :=
    outputs_simulation (fun s t i hR _ => hstep s t i hR) h (M.throughout_true s is)
  rwa [List.map_id, List.map_id] at hboth

/-- A step of a machine may be several steps of the other, or none. The two runs show the same,
and agree in what `a` and `b` keep of their inputs. -/
theorem outputs_refine {χ : Type*} {g : ω → List ψ} {g' : ω' → List ψ} {a : ι → List χ}
    {b : κ → List χ} (hstep : ∀ s t i, R s t → A s i → ∃ js, R (M.step s i).1 (N.final t js) ∧
      g (M.step s i).2 = (N.outputs t js).flatMap g' ∧ a i = js.flatMap b)
    {s : σ} {t : τ} (h : R s t) {is : List ι} (hA : M.Throughout A s is) :
    ∃ js, R (M.final s is) (N.final t js) ∧
      (M.outputs s is).flatMap g = (N.outputs t js).flatMap g' ∧ is.flatMap a = js.flatMap b := by
  induction is generalizing s t with
  | nil => exact ⟨[], h, rfl, rfl⟩
  | cons i is ih =>
    obtain ⟨js, hR, hg, hab⟩ := hstep s t i h hA.1
    obtain ⟨js', hR', hg', hab'⟩ := ih hR hA.2
    refine ⟨js ++ js', by rwa [final_append], ?_, ?_⟩
    · rw [outputs_cons, List.flatMap_cons, hg, hg', outputs_append, List.flatMap_append]
    · rw [List.flatMap_cons, hab, hab', List.flatMap_append]

/-- A simulation carries a step condition from one machine to the other. -/
theorem throughout_simulation {C : σ → ι → Prop} {D : τ → κ → Prop}
    (hstep : ∀ s t i, R s t → A s i → R (M.step s i).1 (N.step t (f i)).1)
    (hC : ∀ s t i, R s t → A s i → (C s i ↔ D t (f i))) {s : σ} {t : τ} (h : R s t) {is : List ι}
    (hA : M.Throughout A s is) :
    M.Throughout C s is ↔ N.Throughout D t (is.map f) := by
  induction is generalizing s t with
  | nil => simp
  | cons i is ih =>
    simp only [throughout_cons, List.map_cons, hC s t i h hA.1, ih (hstep s t i h hA.1) hA.2]

end Simulation
end Mealy
