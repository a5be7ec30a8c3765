import Cmux.Foundation.Machine

/-! Code that enters callbacks, and applications that make further calls out of them, at any depth.
When all that a call does to the state is done before its first callback, such a run does what the
same calls do one after another, in the order in which they were issued. -/
namespace Callbacks
open Mealy

/-- Code over a state: it returns, it acts on the state and goes on by what it found there, or it
enters a callback. -/
inductive Code (σ ε ρ : Type) where
  | ret (r : ρ)
  | act (f : σ → σ) (k : σ → Code σ ε ρ)
  | enter (e : ε) (k : Code σ ε ρ)

/-- What a stretch of calls leaves behind: the calls in the order in which they were issued, each
with the callbacks it entered itself and its result, and all callbacks in the order in which they
were entered. -/
structure Log (ι ε ρ : Type) where
  calls : List (ι × List ε × ρ)
  entered : List ε

/-- What an application does, at the top or inside a callback: it makes a call, reacts to the
callbacks of that call by what has happened in it so far, and goes on. -/
inductive App (ι ε ρ : Type) where
  | done
  | call (i : ι) (callback : Log ι ε ρ → ε → App ι ε ρ) (next : Log ι ε ρ → App ι ε ρ)

section Log
variable {ι ε ρ : Type}

def Log.nil : Log ι ε ρ := ⟨[], []⟩

def Log.append (log log' : Log ι ε ρ) : Log ι ε ρ :=
  ⟨log.calls ++ log'.calls, log.entered ++ log'.entered⟩

def Log.issued (log : Log ι ε ρ) : List ι := log.calls.map Prod.fst

/-- What happens in a callback, with the entry of the callback itself. -/
def Log.within (log : Log ι ε ρ) (e : ε) : Log ι ε ρ := ⟨log.calls, e :: log.entered⟩

@[simp] theorem Log.issued_append (log log' : Log ι ε ρ) :
    (log.append log').issued = log.issued ++ log'.issued := List.map_append

end Log

section Code
variable {σ ε ρ ν : Type}

namespace Code

def bind : Code σ ε ρ → (ρ → Code σ ε ν) → Code σ ε ν
  | ret r, g => g r
  | act f k, g => act f fun s => (k s).bind g
  | enter e k, g => enter e (k.bind g)

instance : Monad (Code σ ε) where
  pure := ret
  bind := bind

def get : Code σ ε σ := act id ret

def modify (f : σ → σ) : Code σ ε Unit := act f fun _ => ret ()

/-- Enters the callback when it is registered and its condition holds. -/
def enterIf (condition : Prop) [Decidable condition] (e : ε) : Code σ ε Unit :=
  if condition then enter e (ret ()) else ret ()

end Code

structure Made (σ ι ε ρ ν : Type) where
  state : σ
  own : List ε
  nested : Log ι ε ρ
  result : ν

/-- The call itself, before those that were made in its callbacks. -/
def Made.log {ι : Type} (made : Made σ ι ε ρ ρ) (i : ι) : Log ι ε ρ :=
  ⟨(i, made.own, made.result) :: made.nested.calls, made.nested.entered⟩

variable {ι : Type}

/-- The run of a code whose callbacks are handled by `h`. What is entered is handled to its end
before the code goes on. -/
def Code.run (h : Log ι ε ρ → ε → σ → σ × Log ι ε ρ) :
    Code σ ε ν → Log ι ε ρ → σ → Made σ ι ε ρ ν
  | ret r, _, s => ⟨s, [], Log.nil, r⟩
  | act f k, log, s => (k s).run h log (f s)
  | enter e k, log, s =>
    let handled := h log e s
    let rest := k.run h (log.append (handled.2.within e)) handled.1
    ⟨rest.state, e :: rest.own, (handled.2.within e).append rest.nested, rest.result⟩

def App.run (code : ι → Code σ ε ρ) : App ι ε ρ → σ → σ × Log ι ε ρ
  | done, s => (s, Log.nil)
  | call i callback next, s =>
    let made := (code i).run (fun log e s => (callback log e).run code s) Log.nil s
    let rest := (next (made.log i)).run code made.state
    (rest.1, (made.log i).append rest.2)

end Code

/-! ### Calls in the order in which they were issued -/

section Sequential
variable {σ τ ε ρ ν ι ω χ : Type} (M : Mealy τ ι ω) (R : σ → τ → Prop) (g : ε → List χ)
  (a : ω → List χ) (c : ω → ρ)

/-- Code that leaves the related state as it is, shows `xs` and returns `r`. -/
def Code.Frozen : Code σ ε ν → List χ → ν → Prop
  | ret r', xs, r => xs = [] ∧ r' = r
  | act f k, xs, r => ∀ s, (∀ t, R s t → R (f s) t) ∧ (k s).Frozen xs r
  | enter e k, xs, r => ∃ ys, xs = g e ++ ys ∧ k.Frozen ys r

/-- Code that brings the state to one related to `t` before its first callback and leaves it there,
shows `xs` and returns `r`. -/
def Code.Settles : Code σ ε ν → σ → τ → List χ → ν → Prop
  | ret r', s, t, xs, r => R s t ∧ xs = [] ∧ r' = r
  | act f k, s, t, xs, r => (k s).Settles (f s) t xs r
  | enter e k, s, t, xs, r => R s t ∧ ∃ ys, xs = g e ++ ys ∧ k.Frozen R g ys r

variable {M R g a c}

theorem settles_get {k : σ → Code σ ε ν} {s : σ} {t : τ} {xs : List χ} {r : ν} :
    (Code.get >>= k).Settles R g s t xs r ↔ (k s).Settles R g s t xs r := Iff.rfl

theorem frozen_get {k : σ → Code σ ε ν} {xs : List χ} {r : ν}
    (h : ∀ s, (k s).Frozen R g xs r) : (Code.get >>= k).Frozen R g xs r :=
  fun s => ⟨fun _ hs => hs, h s⟩

theorem frozen_modify {f : σ → σ} (hf : ∀ s t, R s t → R (f s) t) {k : Unit → Code σ ε ν}
    {xs : List χ} {r : ν} (h : (k ()).Frozen R g xs r) : (Code.modify f >>= k).Frozen R g xs r :=
  fun s => ⟨hf s, h⟩

theorem Code.Frozen.settles {code : Code σ ε ν} {s : σ} {t : τ} {xs : List χ} {r : ν}
    (h : code.Frozen R g xs r) (hs : R s t) : code.Settles R g s t xs r := by
  induction code generalizing s with
  | ret r' => exact ⟨hs, h⟩
  | act f k ih => exact ih s (h s).2 ((h s).1 t hs)
  | enter e k _ => exact ⟨hs, h⟩

theorem Code.Frozen.bind {code : Code σ ε ρ} {k : ρ → Code σ ε ν} {xs ys : List χ} {r : ρ}
    {r' : ν} (h : code.Frozen R g xs r) (hk : (k r).Frozen R g ys r') :
    (code >>= k).Frozen R g (xs ++ ys) r' := by
  induction code generalizing xs with
  | ret r₀ =>
    obtain ⟨rfl, rfl⟩ := h
    exact hk
  | act f code ih => exact fun s => ⟨(h s).1, ih s (h s).2⟩
  | enter e code ih =>
    obtain ⟨zs, rfl, hcode⟩ := h
    exact ⟨zs ++ ys, List.append_assoc _ _ _, ih hcode⟩

theorem Code.Settles.bind {code : Code σ ε ρ} {k : ρ → Code σ ε ν} {s : σ} {t : τ}
    {xs ys : List χ} {r : ρ} {r' : ν} (h : code.Settles R g s t xs r)
    (hk : (k r).Frozen R g ys r') : (code >>= k).Settles R g s t (xs ++ ys) r' := by
  induction code generalizing s with
  | ret r₀ =>
    obtain ⟨hs, rfl, rfl⟩ := h
    exact hk.settles hs
  | act f code ih => exact ih s h
  | enter e code _ =>
    obtain ⟨hs, hcode⟩ := h
    have hfrozen : (Code.enter e code).Frozen R g xs r := hcode
    exact ⟨hs, hfrozen.bind hk⟩

theorem Code.Settles.bind_ret {code : Code σ ε ρ} {s : σ} {t : τ} {xs : List χ} {r : ρ}
    (h : code.Settles R g s t xs r) (f : ρ → ν) :
    (code >>= fun r => Code.ret (f r)).Settles R g s t xs (f r) := by
  have hret : (Code.ret (f r) : Code σ ε ν).Frozen R g [] (f r) := ⟨rfl, rfl⟩
  have hcode := h.bind (k := fun r => Code.ret (f r)) hret
  rwa [List.append_nil] at hcode

/-- A callback that may be entered, as one of those that are. -/
theorem frozen_enterIf (condition : Prop) [Decidable condition] (e : ε) :
    (Code.enterIf condition e : Code σ ε Unit).Frozen R g
      ((if condition then [e] else []).flatMap g) () := by
  unfold Code.enterIf
  split
  · exact ⟨[], rfl, rfl, rfl⟩
  · exact ⟨rfl, rfl⟩

variable (M R g a c)

structure Sequential (t : τ) (s : σ) (log : Log ι ε ρ) : Prop where
  final : R s (M.final t log.issued)
  outputs : log.calls.map (fun made => (made.2.1.flatMap g, made.2.2)) =
    (M.outputs t log.issued).map fun o => (a o, c o)

variable {M R g a c}

theorem sequential_nil {s : σ} {t : τ} (h : R s t) :
    Sequential M R g a c t s (Log.nil : Log ι ε ρ) := ⟨h, rfl⟩

theorem Sequential.append {s s' : σ} {t : τ} {log log' : Log ι ε ρ}
    (h : Sequential M R g a c t s log)
    (h' : Sequential M R g a c (M.final t log.issued) s' log') :
    Sequential M R g a c t s' (log.append log') := by
  constructor
  · rw [Log.issued_append, final_append]
    exact h'.final
  · rw [Log.issued_append, outputs_append, List.map_append, ← h.outputs, ← h'.outputs]
    exact List.map_append

theorem Sequential.within {s : σ} {t : τ} {log : Log ι ε ρ} (h : Sequential M R g a c t s log)
    (e : ε) : Sequential M R g a c t s (log.within e) := ⟨h.final, h.outputs⟩

/-- A call that shows what the step of the machine does, and is followed by those made in its
callbacks. -/
theorem Made.sequential {made : Made σ ι ε ρ ρ} {i : ι} {t : τ}
    (h : Sequential M R g a c (M.step t i).1 made.state made.nested)
    (hown : made.own.flatMap g = a (M.step t i).2) (hresult : made.result = c (M.step t i).2) :
    Sequential M R g a c t made.state (made.log i) :=
  ⟨h.final, congrArg₂ List.cons (Prod.ext hown hresult) h.outputs⟩

variable {h : Log ι ε ρ → ε → σ → σ × Log ι ε ρ}
  (hh : ∀ log e s t, R s t → Sequential M R g a c t (h log e s).1 (h log e s).2)
include hh

theorem frozen_run {code : Code σ ε ν} {xs : List χ} {r : ν} (hcode : code.Frozen R g xs r)
    (log : Log ι ε ρ) {s : σ} {t : τ} (hs : R s t) :
    Sequential M R g a c t (code.run h log s).state (code.run h log s).nested ∧
      (code.run h log s).own.flatMap g = xs ∧ (code.run h log s).result = r := by
  induction code generalizing xs log s t with
  | ret r' =>
    obtain ⟨hxs, hr⟩ := hcode
    exact ⟨sequential_nil hs, hxs.symm, hr⟩
  | act f k ih =>
    obtain ⟨hf, hk⟩ := hcode s
    exact ih s hk log (hf t hs)
  | enter e k ih =>
    obtain ⟨ys, hxs, hk⟩ := hcode
    have hhandled := (hh log e s t hs).within e
    obtain ⟨hrest, hown, hresult⟩ := ih hk (log.append ((h log e s).2.within e)) hhandled.final
    refine ⟨hhandled.append hrest, ?_, hresult⟩
    rw [hxs, ← hown]
    rfl

theorem settles_run {code : Code σ ε ν} {s : σ} {t : τ} {xs : List χ} {r : ν}
    (hcode : code.Settles R g s t xs r) (log : Log ι ε ρ) :
    Sequential M R g a c t (code.run h log s).state (code.run h log s).nested ∧
      (code.run h log s).own.flatMap g = xs ∧ (code.run h log s).result = r := by
  induction code generalizing s with
  | ret r' =>
    obtain ⟨hs, hxs, hr⟩ := hcode
    exact ⟨sequential_nil hs, hxs.symm, hr⟩
  | act f k ih => exact ih s hcode
  | enter e k _ =>
    obtain ⟨hs, hshown⟩ := hcode
    have hfrozen : (Code.enter e k).Frozen R g xs r := hshown
    exact frozen_run hh hfrozen log hs

end Sequential

section Sequential
variable {σ τ ε ρ ι ω χ : Type} {M : Mealy τ ι ω} {R : σ → τ → Prop} {g : ε → List χ}
  {a : ω → List χ} {c : ω → ρ} {code : ι → Code σ ε ρ}

/-- An application makes its calls in sequence, at any depth, when each call settles the state as
a step of the machine does. -/
theorem app_sequential (hcode : ∀ i s t, R s t →
      (code i).Settles R g s (M.step t i).1 (a (M.step t i).2) (c (M.step t i).2))
    (app : App ι ε ρ) {s : σ} {t : τ} (hs : R s t) :
    Sequential M R g a c t (app.run code s).1 (app.run code s).2 := by
  induction app generalizing s t with
  | done => exact sequential_nil hs
  | call i callback next ihcallback ihnext =>
    obtain ⟨hnested, hown, hresult⟩ := settles_run
      (h := fun log e s => (callback log e).run code s)
      (fun log e s t hs => ihcallback log e hs) (hcode i s t hs) Log.nil
    have hmade := Made.sequential hnested hown hresult
    exact hmade.append (ihnext _ hmade.final)

end Sequential

/-! ### The order in which callbacks are entered -/

section Entered
variable {σ ε ρ ν ι χ : Type}

/-- All callbacks are entered by some call. -/
def Log.Accounts (log : Log ι ε ρ) : Prop :=
  log.entered.Perm (log.calls.flatMap fun made => made.2.1)

theorem Log.Accounts.append {log log' : Log ι ε ρ} (h : log.Accounts) (h' : log'.Accounts) :
    (log.append log').Accounts := by
  rw [Log.Accounts, Log.append, List.flatMap_append]
  exact List.Perm.append h h'

theorem run_accounts {h : Log ι ε ρ → ε → σ → σ × Log ι ε ρ}
    (hh : ∀ log e s, (h log e s).2.Accounts) (code : Code σ ε ν) (log : Log ι ε ρ) (s : σ) :
    (code.run h log s).nested.entered.Perm
      ((code.run h log s).own ++ (code.run h log s).nested.calls.flatMap fun made => made.2.1) := by
  induction code generalizing log s with
  | ret r => exact List.Perm.refl _
  | act f k ih => exact ih s log (f s)
  | enter e k ih =>
    have hrest := ih (log.append ((h log e s).2.within e)) (h log e s).1
    have hcalls := (List.Perm.append (hh log e s) hrest).trans (List.perm_append_comm_assoc _ _ _)
    rw [← List.flatMap_append] at hcalls
    exact hcalls.cons e

/-- Each callback that is entered is entered by one call, whatever the application does. -/
theorem app_accounts (code : ι → Code σ ε ρ) (app : App ι ε ρ) (s : σ) :
    (app.run code s).2.Accounts := by
  induction app generalizing s with
  | done => exact List.Perm.refl _
  | call i callback next ihcallback ihnext =>
    have hmade := run_accounts (h := fun log e s => (callback log e).run code s)
      (fun log e s => ihcallback log e s) (code i) Log.nil s
    have hlog : (Made.log ((code i).run (fun log e s => (callback log e).run code s) Log.nil s)
        i).Accounts := hmade
    exact hlog.append (ihnext _ _)

/-- Where each call shows something in its first callback at most, all is shown in the order in
which the calls were issued. -/
def Log.Ordered (g : ε → List χ) (log : Log ι ε ρ) : Prop :=
  (∀ made ∈ log.calls, made.2.1.tail.flatMap g = []) →
    log.entered.flatMap g = log.calls.flatMap fun made => made.2.1.flatMap g

theorem Log.Ordered.append {g : ε → List χ} {log log' : Log ι ε ρ} (h : log.Ordered g)
    (h' : log'.Ordered g) : (log.append log').Ordered g := by
  intro hfirst
  rw [Log.append, List.forall_mem_append] at hfirst
  rw [Log.append, List.flatMap_append, List.flatMap_append, h hfirst.1, h' hfirst.2]

theorem run_ordered {g : ε → List χ} {h : Log ι ε ρ → ε → σ → σ × Log ι ε ρ}
    (hh : ∀ log e s, (h log e s).2.Ordered g) (code : Code σ ε ν) (log : Log ι ε ρ) (s : σ)
    (hown : (code.run h log s).own.tail.flatMap g = [])
    (hfirst : ∀ made ∈ (code.run h log s).nested.calls, made.2.1.tail.flatMap g = []) :
    (code.run h log s).nested.entered.flatMap g = (code.run h log s).own.flatMap g ++
      (code.run h log s).nested.calls.flatMap fun made => made.2.1.flatMap g := by
  induction code generalizing log s with
  | ret r => rfl
  | act f k ih => exact ih s log (f s) hown hfirst
  | enter e k ih =>
    -- what is entered later in this call shows nothing
    have hrest : (k.run h (log.append ((h log e s).2.within e)) (h log e s).1).own.flatMap g = [] :=
      hown
    have hcalls := List.forall_mem_append.mp hfirst
    have hlater := ih (log.append ((h log e s).2.within e)) (h log e s).1
      (List.flatMap_eq_nil_iff.mpr fun e he =>
        List.flatMap_eq_nil_iff.mp hrest e (List.mem_of_mem_tail he)) hcalls.2
    rw [hrest, List.nil_append] at hlater
    have hhandled := hh log e s hcalls.1
    change (e :: (h log e s).2.entered ++ _).flatMap g = g e ++ List.flatMap g _ ++
      ((h log e s).2.calls ++ _).flatMap _
    rw [hrest, List.append_nil, List.cons_append, List.flatMap_cons, List.flatMap_append,
      List.flatMap_append, hhandled, hlater]

theorem app_ordered (g : ε → List χ) (code : ι → Code σ ε ρ) (app : App ι ε ρ) (s : σ) :
    (app.run code s).2.Ordered g := by
  induction app generalizing s with
  | done => exact fun _ => rfl
  | call i callback next ihcallback ihnext =>
    have hmade : (Made.log ((code i).run (fun log e s => (callback log e).run code s) Log.nil s)
        i).Ordered g := by
      intro hfirst
      rw [Made.log, List.forall_mem_cons] at hfirst
      exact run_ordered (h := fun log e s => (callback log e).run code s)
        (fun log e s => ihcallback log e s) (code i) Log.nil s hfirst.1 hfirst.2
    exact hmade.append (ihnext _ _)

end Entered
end Callbacks
