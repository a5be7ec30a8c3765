import Cmux.Foundation.Callbacks

/-! Blocks that code allocates, uses and frees, with a count of what it does to blocks that are not
live. Code that frees what it allocates, last in first out, leaves the live blocks as it found
them, whatever is done in its callbacks. -/
namespace Callbacks

/-- The allocator: how many blocks it has handed out, which is the name of the next one, the live
blocks, and the uses and frees of blocks that were not live. -/
structure Heap where
  allocated : ℕ
  live : List ℕ
  faults : ℕ
  named : ∀ b ∈ live, b < allocated

namespace Heap

/-- A new block, whose name is the count before. -/
def malloc (heap : Heap) : Heap where
  allocated := heap.allocated + 1
  live := heap.allocated :: heap.live
  faults := heap.faults
  named := List.forall_mem_cons.mpr
    ⟨Nat.lt_succ_self _, fun b hb => Nat.lt_succ_of_lt (heap.named b hb)⟩

def free (heap : Heap) (b : ℕ) : Heap where
  allocated := heap.allocated
  live := heap.live.erase b
  faults := if b ∈ heap.live then heap.faults else heap.faults + 1
  named := fun a ha => heap.named a (List.mem_of_mem_erase ha)

def use (heap : Heap) (used : List ℕ) : Heap where
  allocated := heap.allocated
  live := heap.live
  faults := heap.faults + used.countP fun b => b ∉ heap.live
  named := heap.named

theorem use_faults {heap : Heap} {used : List ℕ} (h : used ⊆ heap.live) :
    (heap.use used).faults = heap.faults := by
  have hcount : used.countP (fun b => decide (b ∉ heap.live)) = 0 :=
    List.countP_eq_zero.mpr fun b hb => by simp [h hb]
  rw [use, hcount]
  rfl

/-- The live blocks are as before, and nothing was done to others. -/
structure Keeps (heap heap' : Heap) : Prop where
  live : heap'.live = heap.live
  faults : heap'.faults = heap.faults

theorem Keeps.refl (heap : Heap) : heap.Keeps heap := ⟨rfl, rfl⟩

theorem Keeps.trans {heap heap' heap'' : Heap} (h : heap.Keeps heap') (h' : heap'.Keeps heap'') :
    heap.Keeps heap'' := ⟨h'.live.trans h.live, h'.faults.trans h.faults⟩

end Heap

section Blocks
variable {σ ε ρ ν ι : Type} (heap : σ → Heap) (needed : List ℕ)

/-- Code that finds the blocks `cur` live and leaves the blocks `after` live, with no fault, and
that enters its callbacks with the blocks `needed` live. -/
def Code.Holds (after : List ℕ) : Code σ ε ν → List ℕ → Prop
  | ret _, cur => cur = after
  | act f k, cur => ∀ s, (heap s).live = cur →
      (heap (f s)).faults = (heap s).faults ∧ (k s).Holds after (heap (f s)).live
  | enter _ k, cur => needed ⊆ cur ∧ k.Holds after cur

variable {heap needed}

theorem Code.Holds.bind {code : Code σ ε ρ} {k : ρ → Code σ ε ν} {cur mid after : List ℕ}
    (h : code.Holds heap needed mid cur) (hk : ∀ r, (k r).Holds heap needed after mid) :
    (code >>= k).Holds heap needed after cur := by
  induction code generalizing cur with
  | ret r =>
    obtain rfl := h
    exact hk r
  | act f code ih =>
    intro s hs
    obtain ⟨hfaults, hcode⟩ := h s hs
    exact ⟨hfaults, ih s hcode⟩
  | enter e code ih => exact ⟨h.1, ih h.2⟩

theorem Code.Holds.bind_ret {code : Code σ ε ρ} {cur after : List ℕ}
    (h : code.Holds heap needed after cur) (f : ρ → ν) :
    (code >>= fun r => Code.ret (f r)).Holds heap needed after cur := h.bind fun _ => rfl

theorem holds_run {h : Log ι ε ρ → ε → σ → σ × Log ι ε ρ}
    (hh : ∀ log e s, needed ⊆ (heap s).live → (heap s).Keeps (heap (h log e s).1))
    {code : Code σ ε ν} {after : List ℕ} (log : Log ι ε ρ) {s : σ}
    (hcode : code.Holds heap needed after (heap s).live) :
    (heap (code.run h log s).state).live = after ∧
      (heap (code.run h log s).state).faults = (heap s).faults := by
  induction code generalizing log s with
  | ret r => exact ⟨hcode, rfl⟩
  | act f k ih =>
    obtain ⟨hfaults, hk⟩ := hcode s rfl
    obtain ⟨hlive, hrest⟩ := ih s log hk
    exact ⟨hlive, hrest.trans hfaults⟩
  | enter e k ih =>
    obtain ⟨hneeded, hk⟩ := hcode
    have hkeeps := hh log e s hneeded
    rw [← hkeeps.live] at hk
    obtain ⟨hlive, hrest⟩ := ih (log.append ((h log e s).2.within e)) hk
    exact ⟨hlive, hrest.trans hkeeps.faults⟩

/-- An application leaves the live blocks as they are when each of its calls does, with the blocks
live that the calls need. -/
theorem app_keeps {code : ι → Code σ ε ρ}
    (hcode : ∀ i cur, needed ⊆ cur → (code i).Holds heap needed cur cur)
    (app : App ι ε ρ) {s : σ} (hneeded : needed ⊆ (heap s).live) :
    (heap s).Keeps (heap (app.run code s).1) := by
  induction app generalizing s with
  | done => exact Heap.Keeps.refl _
  | call i callback next ihcallback ihnext =>
    obtain ⟨hlive, hfaults⟩ := holds_run (h := fun log e s => (callback log e).run code s)
      (fun log e s hneeded => ihcallback log e hneeded) Log.nil (hcode i (heap s).live hneeded)
    refine Heap.Keeps.trans ⟨hlive, hfaults⟩ (ihnext _ ?_)
    rwa [hlive]

end Blocks
end Callbacks
