import Mathlib.Data.List.Count
import Mathlib.Order.Defs.Unbundled

/-! Two threads on one state, interleaved access by access. A thread is proved by itself, against
all that the accesses of the other may do to the state between its own. What both then guarantee
holds of every interleaving. -/
namespace Interleaving

/-- A thread that makes accesses, goes on with what they give back, and returns. -/
inductive Thread (A : Type) (R : A → Type) (ρ : Type) where
  | done (x : ρ)
  | act (a : A) (k : R a → Thread A R ρ)

namespace Thread
variable {A : Type} {R : A → Type} {ρ ρ' σ : Type}

def bind : Thread A R ρ → (ρ → Thread A R ρ') → Thread A R ρ'
  | done x, f => f x
  | act a k, f => act a fun r => (k r).bind f

instance : Monad (Thread A R) where
  pure := done
  bind := bind

def access (a : A) : Thread A R (R a) := act a done

def next : Thread A R ρ → Option A
  | done _ => none
  | act a _ => some a

def result : Thread A R ρ → Option ρ
  | done x => some x
  | act _ _ => none

/-- The thread makes at most `n` accesses, whatever they give back. -/
def Within : ℕ → Thread A R ρ → Prop
  | _, done _ => True
  | 0, act _ _ => False
  | n + 1, act _ k => ∀ r, Within n (k r)

section Execution
variable (exec : (a : A) → σ → R a × σ)

def step : Thread A R ρ → σ → Thread A R ρ × σ
  | done x, s => (done x, s)
  | act a k, s => (k (exec a s).1, (exec a s).2)

def run : Thread A R ρ → σ → ρ × σ
  | done x, s => (x, s)
  | act a k, s => (k (exec a s).1).run (exec a s).2

@[simp] theorem run_pure (x : ρ) (s : σ) : (pure x : Thread A R ρ).run exec s = (x, s) := rfl

@[simp] theorem run_access (a : A) (s : σ) :
    (access a : Thread A R (R a)).run exec s = exec a s := rfl

theorem run_bind (p : Thread A R ρ) (f : ρ → Thread A R ρ') (s : σ) :
    (p >>= f).run exec s = (f (p.run exec s).1).run exec (p.run exec s).2 := by
  induction p generalizing s with
  | done x => rfl
  | act a k ih => exact ih (exec a s).1 (exec a s).2

variable (rely : σ → σ → Prop) (guar : A → σ → σ → Prop)

/-- However the others change the state in between, in steps that `rely` admits, each access of the
thread is one that `guar` admits, and what it returns meets `post`. -/
def Safe (post : ρ → σ → Prop) : Thread A R ρ → σ → Prop
  | done x, s => ∀ s', rely s s' → post x s'
  | act a k, s => ∀ s', rely s s' →
    guar a s' (exec a s').2 ∧ Safe post (k (exec a s').1) (exec a s').2

end Execution

section Rules
variable {exec : (a : A) → σ → R a × σ} {rely : σ → σ → Prop} {guar : A → σ → σ → Prop}
  {P P' : σ → Prop} {Q : ρ → σ → Prop} {Q' : ρ' → σ → Prop}

/-- What the others do leaves a thread safe. -/
theorem Safe.stable [IsPreorder σ rely] {p : Thread A R ρ} {s s' : σ}
    (h : p.Safe exec rely guar Q s) (hs : rely s s') : p.Safe exec rely guar Q s' := by
  cases p with
  | done x => exact fun s'' hs' => h s'' (IsTrans.trans _ _ _ hs hs')
  | act a k => exact fun s'' hs' => h s'' (IsTrans.trans _ _ _ hs hs')

theorem Safe.weaken {Q₂ : ρ → σ → Prop} {p : Thread A R ρ} {s : σ}
    (h : p.Safe exec rely guar Q s) (hQ : ∀ x s, Q x s → Q₂ x s) :
    p.Safe exec rely guar Q₂ s := by
  induction p generalizing s with
  | done x => exact fun s' hs => hQ x s' (h s' hs)
  | act a k ih => exact fun s' hs => ⟨(h s' hs).1, ih _ (h s' hs).2⟩

theorem Safe.bind [IsPreorder σ rely] {p : Thread A R ρ} {f : ρ → Thread A R ρ'} {s : σ}
    (h : p.Safe exec rely guar Q s)
    (hf : ∀ x s, Q x s → (f x).Safe exec rely guar Q' s) :
    (p >>= f).Safe exec rely guar Q' s := by
  induction p generalizing s with
  | done x => exact hf x s (h s (Std.Refl.refl s))
  | act a k ih => exact fun s' hs => ⟨(h s' hs).1, ih _ (h s' hs).2⟩

variable (exec rely guar) in
/-- From a state that meets `P` the thread is safe, and what it returns meets `Q`. -/
def Triple (P : σ → Prop) (p : Thread A R ρ) (Q : ρ → σ → Prop) : Prop :=
  ∀ s, P s → p.Safe exec rely guar Q s

variable (rely) in
def Stable (P : σ → Prop) : Prop := ∀ s s', rely s s' → P s → P s'

theorem Triple.bind [IsPreorder σ rely] {p : Thread A R ρ} {f : ρ → Thread A R ρ'}
    (h : p.Triple exec rely guar P Q) (hf : ∀ x, (f x).Triple exec rely guar (Q x) Q') :
    (p >>= f).Triple exec rely guar P Q' :=
  fun s hs => (h s hs).bind fun x s hx => hf x s hx

theorem Triple.imp {p : Thread A R ρ} (h : p.Triple exec rely guar P Q)
    (hP : ∀ s, P' s → P s) : p.Triple exec rely guar P' Q :=
  fun s hs => h s (hP s hs)

theorem Triple.weaken {Q₂ : ρ → σ → Prop} {p : Thread A R ρ}
    (h : p.Triple exec rely guar P Q) (hQ : ∀ x s, Q x s → Q₂ x s) :
    p.Triple exec rely guar P Q₂ :=
  fun s hs => (h s hs).weaken hQ

theorem triple_pure {x : ρ} (hstable : Stable rely P) (h : ∀ s, P s → Q x s) :
    (pure x : Thread A R ρ).Triple exec rely guar P Q :=
  fun s hs s' hs' => h s' (hstable s s' hs' hs)

theorem triple_access {a : A} {Q : R a → σ → Prop} (hstable : Stable rely P)
    (hstable' : ∀ r, Stable rely (Q r))
    (h : ∀ s, P s → guar a s (exec a s).2 ∧ Q (exec a s).1 (exec a s).2) :
    (access a : Thread A R (R a)).Triple exec rely guar P Q := by
  intro s hs s' hs'
  obtain ⟨hguar, hQ⟩ := h s' (hstable s s' hs' hs)
  exact ⟨hguar, fun s'' hs'' => hstable' _ _ s'' hs'' hQ⟩

theorem within_pure (x : ρ) (n : ℕ) : (pure x : Thread A R ρ).Within n := by
  cases n <;> trivial

theorem within_access (a : A) (n : ℕ) : (access a : Thread A R (R a)).Within (n + 1) :=
  fun r => within_pure r n

theorem Within.mono {p : Thread A R ρ} {n m : ℕ} (h : p.Within n) (hle : n ≤ m) :
    p.Within m := by
  induction p generalizing n m with
  | done x => exact within_pure x m
  | act a k ih =>
    cases n with
    | zero => exact h.elim
    | succ n =>
      obtain ⟨m, rfl⟩ := Nat.exists_eq_succ_of_ne_zero (Nat.ne_of_gt (Nat.lt_of_lt_of_le
        n.succ_pos hle))
      exact fun r => ih r (h r) (Nat.le_of_succ_le_succ hle)

theorem Within.bind {p : Thread A R ρ} {f : ρ → Thread A R ρ'} {n m : ℕ} (h : p.Within n)
    (hf : ∀ x, (f x).Within m) : (p >>= f).Within (n + m) := by
  induction p generalizing n with
  | done x => exact (hf x).mono (Nat.le_add_left m n)
  | act a k ih =>
    cases n with
    | zero => exact h.elim
    | succ n =>
      rw [Nat.succ_add]
      exact fun r => ih r (h r)

end Rules
end Thread

open Thread

structure Pair (A : Type) (R : A → Type) (ρ ρ' σ : Type) where
  left : Thread A R ρ
  right : Thread A R ρ'
  state : σ

namespace Pair
variable {A : Type} {R : A → Type} {ρ ρ' σ : Type} {exec : (a : A) → σ → R a × σ}

variable (exec) in
def step (pair : Pair A R ρ ρ' σ) (turn : Bool) : Pair A R ρ ρ' σ :=
  if turn then
    let stepped := pair.left.step exec pair.state
    ⟨stepped.1, pair.right, stepped.2⟩
  else
    let stepped := pair.right.step exec pair.state
    ⟨pair.left, stepped.1, stepped.2⟩

variable (exec) in
def run (pair : Pair A R ρ ρ' σ) (schedule : List Bool) : Pair A R ρ ρ' σ :=
  schedule.foldl (step exec) pair

section Guarded
variable {relyLeft relyRight : σ → σ → Prop} {guarLeft guarRight : A → σ → σ → Prop}
  {Q : ρ → σ → Prop} {Q' : ρ' → σ → Prop}

structure Guarded (exec : (a : A) → σ → R a × σ) (relyLeft relyRight : σ → σ → Prop)
    (guarLeft guarRight : A → σ → σ → Prop) (Q : ρ → σ → Prop) (Q' : ρ' → σ → Prop)
    (pair : Pair A R ρ ρ' σ) : Prop where
  left : pair.left.Safe exec relyLeft guarLeft Q pair.state
  right : pair.right.Safe exec relyRight guarRight Q' pair.state

variable [IsPreorder σ relyLeft] [IsPreorder σ relyRight]
  (hleft : ∀ a s s', guarLeft a s s' → relyRight s s')
  (hright : ∀ a s s', guarRight a s s' → relyLeft s s')
include hleft hright

theorem guarded_step {pair : Pair A R ρ ρ' σ}
    (h : pair.Guarded exec relyLeft relyRight guarLeft guarRight Q Q') (turn : Bool) :
    (pair.step exec turn).Guarded exec relyLeft relyRight guarLeft guarRight Q Q' := by
  obtain ⟨left, right, s⟩ := pair
  obtain ⟨hl, hr⟩ := h
  cases turn with
  | true =>
    cases left with
    | done x => exact ⟨hl, hr⟩
    | act a k =>
      obtain ⟨hguar, hk⟩ := hl s (Std.Refl.refl s)
      exact ⟨hk, hr.stable (hleft a _ _ hguar)⟩
  | false =>
    cases right with
    | done x => exact ⟨hl, hr⟩
    | act a k =>
      obtain ⟨hguar, hk⟩ := hr s (Std.Refl.refl s)
      exact ⟨hl.stable (hright a _ _ hguar), hk⟩

/-- Threads that are safe against each other stay so in every interleaving. -/
theorem guarded_run {pair : Pair A R ρ ρ' σ}
    (h : pair.Guarded exec relyLeft relyRight guarLeft guarRight Q Q') (schedule : List Bool) :
    (pair.run exec schedule).Guarded exec relyLeft relyRight guarLeft guarRight Q Q' := by
  induction schedule generalizing pair with
  | nil => exact h
  | cons turn schedule ih => exact ih (guarded_step hleft hright h turn)

omit [IsPreorder σ relyRight] hleft hright in
/-- The next access is one that the guarantee admits. -/
theorem guarded_left {pair : Pair A R ρ ρ' σ}
    (h : pair.Guarded exec relyLeft relyRight guarLeft guarRight Q Q') {a : A}
    (hnext : pair.left.next = some a) : guarLeft a pair.state (exec a pair.state).2 := by
  obtain ⟨left, right, s⟩ := pair
  cases left with
  | done x => cases hnext
  | act b k =>
    obtain rfl := Option.some.inj hnext
    exact (h.left s (Std.Refl.refl s)).1

omit [IsPreorder σ relyLeft] hleft hright in
theorem guarded_right {pair : Pair A R ρ ρ' σ}
    (h : pair.Guarded exec relyLeft relyRight guarLeft guarRight Q Q') {a : A}
    (hnext : pair.right.next = some a) : guarRight a pair.state (exec a pair.state).2 := by
  obtain ⟨left, right, s⟩ := pair
  cases right with
  | done x => cases hnext
  | act b k =>
    obtain rfl := Option.some.inj hnext
    exact (h.right s (Std.Refl.refl s)).1

end Guarded

/-- A thread that has had as many turns as it makes accesses is done. -/
theorem result_of_within {pair : Pair A R ρ ρ' σ} {n m : ℕ} (hleft : pair.left.Within n)
    (hright : pair.right.Within m) {schedule : List Bool} (hn : n ≤ schedule.count true)
    (hm : m ≤ schedule.count false) :
    (∃ x, (pair.run exec schedule).left = Thread.done x) ∧
      ∃ x, (pair.run exec schedule).right = Thread.done x := by
  induction schedule generalizing pair n m with
  | nil =>
    obtain ⟨left, right, s⟩ := pair
    obtain rfl : n = 0 := Nat.le_zero.mp hn
    obtain rfl : m = 0 := Nat.le_zero.mp hm
    cases left with
    | act a k => exact hleft.elim
    | done x =>
      cases right with
      | act a k => exact hright.elim
      | done y => exact ⟨⟨x, rfl⟩, ⟨y, rfl⟩⟩
  | cons turn schedule ih =>
    obtain ⟨left, right, s⟩ := pair
    cases turn with
    | true =>
      cases left with
      | done x => exact ih (n := 0) (within_pure x 0) hright (Nat.zero_le _) (by simpa using hm)
      | act a k =>
        cases n with
        | zero => exact hleft.elim
        | succ n =>
          exact ih (hleft (exec a s).1) hright (by simpa using hn) (by simpa using hm)
    | false =>
      cases right with
      | done x => exact ih (m := 0) hleft (within_pure x 0) (by simpa using hn) (Nat.zero_le _)
      | act a k =>
        cases m with
        | zero => exact hright.elim
        | succ m =>
          exact ih hleft (hright (exec a s).1) (by simpa using hn) (by simpa using hm)

end Pair
end Interleaving
