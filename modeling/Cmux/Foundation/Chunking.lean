import Cmux.Foundation.Framing

/-! How the deliveries of the scanning receiver depend on the way a stream is cut into
inputs: frames given whole, orderly cuts, and cuts of a concatenation of frames. -/
namespace Framing
variable {α : Type*}

def delivered (os : List (ℕ × Option (List α))) : List (List α) := os.filterMap Prod.snd

@[simp] theorem delivered_nil : delivered ([] : List (ℕ × Option (List α))) = [] := rfl

@[simp] theorem delivered_cons (o : ℕ × Option (List α)) (os) :
    delivered (o :: os) = o.2.toList ++ delivered os := by
  obtain ⟨k, f⟩ := o
  cases f <;> rfl

@[simp] theorem delivered_append (os os' : List (ℕ × Option (List α))) :
    delivered (os ++ os') = delivered os ++ delivered os' := List.filterMap_append

/-- The positions in storage of consecutive frames never cross the physical end. -/
def NoStraddle (N : ℕ) : ℕ → List ℕ → Prop
  | _, [] => True
  | p, n :: ns => p + n ≤ N ∧ NoStraddle N ((p + n) % N) ns

instance (N : ℕ) : ∀ p ns, Decidable (NoStraddle N p ns)
  | _, [] => inferInstanceAs (Decidable True)
  | p, n :: ns =>
    have := instDecidableNoStraddle N ((p + n) % N) ns
    inferInstanceAs (Decidable (p + n ≤ N ∧ NoStraddle N ((p + n) % N) ns))

/-- A frame straddles nothing when it fits behind those before it, counted modulo the size. -/
theorem noStraddle_iff {N : ℕ} (p : ℕ) (hp : p < N) (ns : List ℕ) :
    NoStraddle N p ns ↔ ∀ k n, ns[k]? = some n → (p + (ns.take k).sum) % N + n ≤ N := by
  induction ns generalizing p with
  | nil => simp [NoStraddle]
  | cons m ns ih =>
    rw [NoStraddle, ih _ (Nat.mod_lt _ (by omega))]
    constructor
    · rintro ⟨h0, h⟩ k n hk
      cases k with
      | zero =>
        obtain rfl : m = n := by simpa using hk
        simpa [Nat.mod_eq_of_lt hp] using h0
      | succ k =>
        have := h k n (by simpa using hk)
        simpa [Nat.add_assoc, Nat.mod_add_mod] using this
    · intro h
      refine ⟨by simpa [Nat.mod_eq_of_lt hp] using h 0 m rfl, fun k n hk => ?_⟩
      have := h (k + 1) n (by simpa using hk)
      simpa [Nat.add_assoc, Nat.mod_add_mod] using this

namespace Window
variable {R : Recogniser α} {N : ℕ} {s : Window α}

def Accepts (N : ℕ) (s : Window α) (d : List α) : Prop := d.length ≤ N - 1 - s.content.length

/-- Each frame given whole in its own input comes out at once, as long as none straddles
the physical end, and only then. The frames are compared through `φ`, which must not take
a shorter frame for one of them. -/
theorem whole_frames_iff {β : Type*} (φ : List α → β) (p : ℕ) (hp : p < N) (fs : List (List α))
    (hfs : ∀ f ∈ fs, R.size f = some f.length ∧ f.length < N)
    (hφ : ∀ f ∈ fs, ∀ g, R.size g = some g.length → φ g = φ f → f.length ≤ g.length) :
    ((receiver R N).outputs ⟨p, []⟩ fs).map (fun o => (o.1, o.2.map φ)) =
        fs.map (fun f => (f.length, some (φ f))) ↔
      NoStraddle N p (fs.map List.length) := by
  induction fs generalizing p with
  | nil => simp [NoStraddle]
  | cons f fs ih =>
    obtain ⟨⟨hf, hlen⟩, hrest⟩ := List.forall_mem_cons.mp hfs
    obtain ⟨hφf, hφrest⟩ := List.forall_mem_cons.mp hφ
    have hpush : Window.push N (⟨p, []⟩ : Window α) f = ⟨p, f⟩ := by
      rw [push_of_le (by simp; omega), List.nil_append]
    have hcount : min f.length (N - 1 - 0) = f.length := by omega
    simp only [Mealy.outputs_cons, List.map_cons, List.cons.injEq, NoStraddle]
    by_cases hfit : p + f.length ≤ N
    · have hscan : R.scan (visible N ⟨p, f⟩) = some (0, f.length) := by
        rw [visible, List.take_of_length_le (by simp; omega)]
        simpa using R.scan_whole [] hf
      have hstep : (receiver R N).step ⟨p, []⟩ f =
          (⟨(p + f.length) % N, []⟩, f.length, some f) := by
        rw [step_eq, hpush, extract_some hscan]
        simp only [List.length_nil, hcount, Nat.add_zero, Nat.zero_add, List.drop_length,
          List.drop_zero, List.take_length]
      rw [hstep]
      simp only [true_and, hfit, Option.map_some]
      exact ih _ (Nat.mod_lt _ (by omega)) hrest hφrest
    · -- what comes out, if anything does, is shorter than the frame
      refine iff_of_false (fun h => ?_) fun h => hfit h.1
      have hout : (Window.extract R N ⟨p, f⟩).2.map φ = some (φ f) := by
        have := congrArg Prod.snd h.1
        rwa [step_eq, hpush] at this
      cases hscan : R.scan (visible N ⟨p, f⟩) with
      | none => rw [extract_none hscan] at hout; simp at hout
      | some q =>
        obtain ⟨i, n⟩ := q
        rw [show visible N ⟨p, f⟩ = f.take (N - p) from rfl] at hscan
        have hle := R.scan_le hscan
        have hfound := (R.scan_eq_some.mp hscan).1
        rw [List.length_take] at hle
        have htake : (f.drop i).take n = ((f.take (N - p)).drop i).take n := by
          rw [List.drop_take, List.take_take, Nat.min_eq_left (by omega)]
        rw [extract_some hscan, Option.map_some, Option.some.injEq] at hout
        have hg : ((f.drop i).take n).length = n := by
          rw [List.length_take, List.length_drop]; omega
        have hshort := hφf _ (by rw [hg, htake]; exact R.size_take hfound) hout
        rw [hg] at hshort
        omega

/-! ### Orderly cuts -/

/-- The frame that the step finds is also the first to end, and what stands behind it
shows no other complete frame. -/
def Orderly (R : Recogniser α) (N : ℕ) (s : Window α) (d : List α) : Prop :=
  ∀ i n, R.scan ((s.push N d).visible N) = some (i, n) →
    (∀ j m, R.size (((s.push N d).visible N).drop j) = some m → i + n ≤ j + m) ∧
    CaughtUp R N ⟨(s.pos + i + n) % N, (s.push N d).content.drop (i + n)⟩

def singles (d : List α) : List (List α) := d.map fun a => [a]

theorem push_append {d e : List α} (h : Accepts N s (d ++ e)) :
    (s.push N d).push N e = s.push N (d ++ e) := by
  simp only [Accepts, List.length_append] at h
  rw [push_of_le (s := s) (d := d) (by omega), push_of_le (s := s) (d := d ++ e) (by simpa using h),
    push_of_le (by simp; omega), List.append_assoc]

theorem singles_flatten (d : List α) : (singles d).flatten = d := by
  induction d with
  | nil => rfl
  | cons a d ih =>
    change [a] ++ (singles d).flatten = a :: d
    rw [ih]
    rfl

/-- While nothing visible is a frame, the inputs are only stored, however they are cut. -/
theorem quiet_run (ds : List (List α)) (h : Accepts N s ds.flatten)
    (hq : R.scan ((s.push N ds.flatten).visible N) = none) :
    (receiver R N).outputs s ds = ds.map (fun d => (d.length, none)) ∧
      (receiver R N).final s ds = s.push N ds.flatten := by
  induction ds generalizing s with
  | nil => simp [push]
  | cons d ds ih =>
    have happ : (s.push N d).push N ds.flatten = s.push N (d :: ds).flatten := push_append h
    have hlen : d.length + ds.flatten.length ≤ N - 1 - s.content.length := by
      rw [← List.length_append]
      exact h
    have hd : Accepts N s d := Nat.le_trans (Nat.le_add_right _ _) hlen
    have hacc : Accepts N (s.push N d) ds.flatten := by
      rw [Accepts, push_of_le hd, List.length_append]
      omega
    have hqd : R.scan ((s.push N d).visible N) = none := by
      rw [← happ, push_of_le hacc] at hq
      simp only [visible, List.take_append] at hq
      exact R.scan_none_of_append hq
    have hstep : (receiver R N).step s d = (s.push N d, d.length, none) := by
      rw [step_eq, extract_none hqd, Nat.min_eq_left hd]
    obtain ⟨houtputs, hfinal⟩ := ih hacc (by rwa [happ])
    rw [Mealy.outputs_cons, Mealy.final_cons, hstep, houtputs, hfinal]
    exact ⟨rfl, happ⟩

/-- While nothing visible is a frame, single cells are only stored. -/
theorem singles_quiet (d : List α) (h : Accepts N s d)
    (hq : R.scan ((s.push N d).visible N) = none) :
    delivered ((receiver R N).outputs s (singles d)) = [] ∧
      (receiver R N).final s (singles d) = s.push N d := by
  obtain ⟨houtputs, hfinal⟩ := quiet_run (singles d) (by rwa [singles_flatten])
    (by rwa [singles_flatten])
  rw [singles_flatten] at hfinal
  refine ⟨?_, hfinal⟩
  rw [houtputs, delivered, List.filterMap_map]
  exact List.filterMap_eq_nil_iff.mpr fun _ _ => rfl

/-- A frame that the step makes visible ends beyond what was stored before. -/
theorem frame_ends_after (hc : s.CaughtUp R N) {d : List α} (h : Accepts N s d) {i n : ℕ}
    (hf : R.size (((s.push N d).visible N).drop i) = some n) :
    s.content.length < i + n ∧ i + n ≤ N - s.pos ∧ i + n ≤ s.content.length + d.length := by
  rw [push_of_le h] at hf
  have hle := R.size_drop_le hf
  simp only [visible, List.length_take, List.length_append] at hle
  refine ⟨?_, by omega, by omega⟩
  by_contra hlt
  have hin := R.size_drop_take (k := s.content.length) (by omega) hf
  have hvis : ((⟨s.pos, s.content ++ d⟩ : Window α).visible N).take s.content.length =
      s.visible N := by
    simp only [visible, List.take_take]
    rw [List.take_append_of_le_length (by omega), Nat.min_comm, List.take_eq_take_iff]
    omega
  rw [hvis] at hin
  have hnone := R.scan_eq_none.mp hc i
  simp [hin] at hnone

theorem visible_push_take {d : List α} (h : Accepts N s d) (k : ℕ) :
    (s.push N (d.take k)).visible N = ((s.push N d).visible N).take (s.content.length + k) := by
  have hk : Accepts N s (d.take k) := by
    rw [Accepts, List.length_take] at *
    omega
  rw [push_of_le h, push_of_le hk, visible, visible, List.take_take, Nat.min_comm,
    ← List.take_take, List.take_length_add_append]

/-- One cell at a time, the frame that is first to end comes out with its last cell, and
nothing stays stored. -/
theorem singles_frame {d : List α} (h : Accepts N s d) {i n k : ℕ}
    (hscan : R.scan ((s.push N d).visible N) = some (i, n))
    (hfirst : ∀ j m, R.size (((s.push N d).visible N).drop j) = some m → i + n ≤ j + m)
    (hk : s.content.length + k + 1 = i + n) (hkd : k < d.length) :
    delivered ((receiver R N).outputs s (singles (d.take (k + 1)))) =
        [((s.content ++ d).drop i).take n] ∧
      (receiver R N).final s (singles (d.take (k + 1))) = ⟨(s.pos + i + n) % N, []⟩ := by
  have hlen : d.length ≤ N - 1 - s.content.length := h
  have hquiet : R.scan ((s.push N (d.take k)).visible N) = none := by
    rw [visible_push_take h]
    exact R.scan_take_none fun j m hm => by have := hfirst j m hm; omega
  have hacck : Accepts N s (d.take k) := by
    rw [Accepts, List.length_take]; omega
  have hsplit : d.take (k + 1) = d.take k ++ [d[k]] := by
    rw [List.take_add_one, List.getElem?_eq_getElem hkd, Option.toList_some]
  have hpush : (s.push N (d.take k)).push N [d[k]] = s.push N (d.take (k + 1)) := by
    rw [hsplit]
    exact push_append (by
      rw [Accepts, List.length_append, List.length_take, List.length_singleton]; omega)
  have hcontent : (s.push N (d.take (k + 1))).content = (s.content ++ d).take (i + n) := by
    rw [push_of_le (by rw [List.length_take]; omega), ← hk, Nat.add_assoc,
      List.take_length_add_append]
  have hfound : R.scan (((s.push N (d.take k)).push N [d[k]]).visible N) = some (i, n) := by
    rw [hpush, visible_push_take h, ← Nat.add_assoc, hk]
    exact R.scan_take hscan
  have hstep : (receiver R N).step (s.push N (d.take k)) [d[k]] =
      (⟨(s.pos + i + n) % N, []⟩, min 1 (N - 1 - (s.push N (d.take k)).content.length),
        some (((s.content ++ d).drop i).take n)) := by
    rw [step_eq, extract_some hfound, hpush, hcontent]
    have hall : ((s.content ++ d).take (i + n)).length ≤ i + n := List.length_take_le _ _
    rw [List.drop_of_length_le hall, List.drop_take, List.take_take, Nat.add_sub_cancel_left,
      Nat.min_self]
    rfl
  obtain ⟨hd, hfin⟩ := singles_quiet _ hacck hquiet
  have hs : singles (d.take (k + 1)) = singles (d.take k) ++ [[d[k]]] := by
    rw [hsplit, singles, List.map_append]
    rfl
  rw [hs, Mealy.outputs_append, Mealy.final_append, hfin, delivered_append, hd]
  simp [hstep]

/-- An orderly step delivers and leaves what the same cells do one at a time. -/
theorem orderly_step (hc : s.CaughtUp R N) {d : List α} (h : Accepts N s d)
    (ho : Orderly R N s d) :
    (receiver R N).final s (singles d) = ((receiver R N).step s d).1 ∧
      delivered ((receiver R N).outputs s (singles d)) =
        ((receiver R N).step s d).2.2.toList := by
  cases hscan : R.scan ((s.push N d).visible N) with
  | none =>
    rw [step_eq, extract_none hscan]
    exact (singles_quiet d h hscan).symm
  | some q =>
    obtain ⟨i, n⟩ := q
    obtain ⟨hfirst, hrest⟩ := ho i n hscan
    obtain ⟨hlo, -, hhi⟩ := frame_ends_after hc h (R.scan_eq_some.mp hscan).1
    have hlen : d.length ≤ N - 1 - s.content.length := h
    -- up to the last cell of the frame, and the cells behind it
    obtain ⟨k, hk⟩ : ∃ k, s.content.length + k + 1 = i + n :=
      ⟨i + n - 1 - s.content.length, by omega⟩
    obtain ⟨hd, hfin⟩ := singles_frame h hscan hfirst hk (by omega)
    have hdrop : (s.content ++ d).drop (i + n) = d.drop (k + 1) := by
      rw [← hk, Nat.add_assoc, List.drop_length_add_append]
    have hbehind : Accepts N ⟨(s.pos + i + n) % N, []⟩ (d.drop (k + 1)) := by
      rw [Accepts, List.length_drop]
      simp only [List.length_nil]
      omega
    have hpush : push N ⟨(s.pos + i + n) % N, []⟩ (d.drop (k + 1)) =
        ⟨(s.pos + i + n) % N, d.drop (k + 1)⟩ := by
      rw [push_of_le hbehind, List.nil_append]
    rw [push_of_le h, hdrop, CaughtUp, ← hpush] at hrest
    obtain ⟨hd₂, hfin₂⟩ := singles_quiet _ hbehind hrest
    have hs : singles d = singles (d.take (k + 1)) ++ singles (d.drop (k + 1)) := by
      rw [singles, singles, singles, ← List.map_append, List.take_append_drop]
    rw [hs, Mealy.outputs_append, Mealy.final_append, hfin, hfin₂, delivered_append, hd, hd₂,
      hpush, step_eq, extract_some hscan, push_of_le h, hdrop]
    exact ⟨rfl, List.append_nil _⟩

/-- An orderly step leaves nothing complete in sight. -/
theorem orderly_caughtUp {d : List α} (ho : Orderly R N s d) :
    ((receiver R N).step s d).1.CaughtUp R N := by
  cases hscan : R.scan ((s.push N d).visible N) with
  | none => rwa [step_eq, extract_none hscan]
  | some q =>
    rw [step_eq, extract_some hscan]
    exact (ho q.1 q.2 hscan).2

/-- An orderly run delivers and leaves what the same stream does one cell at a time. -/
theorem orderly_run (hc : s.CaughtUp R N) {ds : List (List α)}
    (ha : (receiver R N).Throughout (Accepts N) s ds)
    (ho : (receiver R N).Throughout (Orderly R N) s ds) :
    delivered ((receiver R N).outputs s ds) =
        delivered ((receiver R N).outputs s (singles ds.flatten)) ∧
      (receiver R N).final s ds = (receiver R N).final s (singles ds.flatten) := by
  induction ds generalizing s with
  | nil => simp [singles]
  | cons d ds ih =>
    obtain ⟨hf, hd⟩ := orderly_step hc ha.1 ho.1
    obtain ⟨hds, hfs⟩ := ih (orderly_caughtUp ho.1) ha.2 ho.2
    have hs : singles (d :: ds).flatten = singles d ++ singles ds.flatten := by simp [singles]
    rw [hs, Mealy.outputs_append, Mealy.final_append, delivered_append, hd, hf, ← hds, ← hfs]
    simp

/-! ### Garbage before a frame -/

/-- Behind garbage a frame comes out with its last cell, however the cells are cut, when nothing
in a proper prefix is a frame and no frame begins before it. -/
theorem resync_run {p f : List α} (hf : R.size f = some f.length) (hN : p.length + f.length < N)
    (hproper : ∀ k < (p ++ f).length, R.scan ((p ++ f).take k) = none)
    (hbelow : ∀ j < p.length, R.size ((p ++ f).drop j) = none) {before after : List (List α)}
    {d : List α} (hcut : (before ++ d :: after).flatten = p ++ f) (hd : d ≠ [])
    (hafter : after.flatten = []) :
    ((receiver R N).outputs ⟨0, []⟩ (before ++ d :: after)).map Prod.snd =
        before.map (fun _ => none) ++ some f :: after.map (fun _ => none) ∧
      (receiver R N).final ⟨0, []⟩ (before ++ [d]) = ⟨(p.length + f.length) % N, []⟩ ∧
      (receiver R N).final ⟨0, []⟩ (before ++ d :: after) = ⟨(p.length + f.length) % N, []⟩ := by
  rw [List.flatten_append, List.flatten_cons, hafter, List.append_nil] at hcut
  have hlen : before.flatten.length + d.length = p.length + f.length := by
    rw [← List.length_append, hcut, List.length_append]
  have hdpos : 0 < d.length := List.length_pos_iff.mpr hd
  -- what comes before the last cells is only stored
  have hstored : Window.push N (⟨0, []⟩ : Window α) before.flatten = ⟨0, before.flatten⟩ :=
    push_of_le (by simp only [List.length_nil]; omega)
  have hquiet : R.scan ((Window.push N ⟨0, []⟩ before.flatten).visible N) = none := by
    have htake := hproper before.flatten.length (by rw [List.length_append]; omega)
    rw [← hcut, List.take_left] at htake
    rwa [hstored, visible, List.take_of_length_le (by simp only [Nat.sub_zero]; omega)]
  obtain ⟨hbefore, hstate⟩ := quiet_run (R := R) (s := ⟨0, []⟩) before
    (by simp only [Accepts, List.length_nil]; omega) hquiet
  rw [hstored] at hstate
  -- the last cells bring the frame out
  have hpush : Window.push N ⟨0, before.flatten⟩ d = ⟨0, p ++ f⟩ := by
    rw [push_of_le (by simp only; omega)]
    exact congrArg _ hcut
  have hscan : R.scan (visible N ⟨0, p ++ f⟩) = some (p.length, f.length) := by
    rw [visible, List.take_of_length_le (by simp only [Nat.sub_zero, List.length_append]; omega)]
    refine R.scan_eq_some.mpr ⟨?_, hbelow⟩
    rw [List.drop_left]
    exact hf
  have hstep : (receiver R N).step ⟨0, before.flatten⟩ d =
      (⟨(p.length + f.length) % N, []⟩, min d.length (N - 1 - before.flatten.length), some f) := by
    rw [step_eq, hpush, extract_some hscan, List.drop_left, List.take_length, Nat.zero_add,
      List.drop_of_length_le (Nat.le_of_eq List.length_append)]
  -- nothing is stored behind them
  have hempty : Window.push N (⟨(p.length + f.length) % N, []⟩ : Window α) after.flatten =
      ⟨(p.length + f.length) % N, []⟩ := by rw [hafter]; simp [push]
  obtain ⟨hrest, hfinal⟩ := quiet_run (R := R) (s := ⟨(p.length + f.length) % N, []⟩) (N := N) after
    (by rw [hafter]; exact Nat.zero_le _)
    (by rw [hempty]; simp [visible, Recogniser.scan])
  rw [hempty] at hfinal
  refine ⟨?_, ?_, ?_⟩
  · rw [Mealy.outputs_append, hbefore, hstate, Mealy.outputs_cons, hstep, hrest,
      List.map_append, List.map_map, List.map_cons, List.map_map]
    rfl
  · rw [Mealy.final_append, hstate, Mealy.final_cons, hstep]
    rfl
  · rw [Mealy.final_append, hstate, Mealy.final_cons, hstep, hfinal]

/-! ### Streams of frames -/

/-- No visible cell begins a frame unless the first one does. -/
def Flush (R : Recogniser α) (N : ℕ) (s : Window α) (d : List α) : Prop :=
  ∀ i n, R.size (((s.push N d).visible N).drop i) = some n →
    (R.size ((s.push N d).visible N)).isSome

/-- Stream positions and lengths of the frames a run delivers, after `t` cells stored. A
frame ends where the cells still stored begin. -/
def spans (R : Recogniser α) (N : ℕ) : ℕ → Window α → List (List α) → List (ℕ × ℕ)
  | _, _, [] => []
  | t, s, d :: ds =>
    let r := (receiver R N).step s d
    let t' := t + r.2.1
    (r.2.2.toList.map fun f => (t' - r.1.content.length - f.length, f.length)) ++
      spans R N t' r.1 ds

/-- Positions and lengths of consecutive frames from position `p` on. -/
def frameSpans : ℕ → List (List α) → List (ℕ × ℕ)
  | _, [] => []
  | p, f :: fs => (p, f.length) :: frameSpans (p + f.length) fs

theorem le_of_mem_frameSpans {p : ℕ} {fs : List (List α)} {q : ℕ × ℕ}
    (h : q ∈ frameSpans p fs) : p ≤ q.1 := by
  induction fs generalizing p with
  | nil => simp [frameSpans] at h
  | cons f fs ih =>
    rcases List.mem_cons.mp h with rfl | h
    · exact Nat.le_refl _
    · have := ih h; omega

/-- The two forms of a step that stores its input whole. -/
theorem accepted_step {d : List α} (h : Accepts N s d) :
    ((receiver R N).step s d = (⟨s.pos, s.content ++ d⟩, d.length, none) ∧
      R.scan ((s.push N d).visible N) = none) ∨
    ∃ i n, R.scan ((s.push N d).visible N) = some (i, n) ∧
      i + n ≤ s.content.length + d.length ∧
      (receiver R N).step s d = (⟨(s.pos + i + n) % N, (s.content ++ d).drop (i + n)⟩, d.length,
        some (((s.content ++ d).drop i).take n)) := by
  have hcount : min d.length (N - 1 - s.content.length) = d.length := Nat.min_eq_left h
  cases hscan : R.scan ((s.push N d).visible N) with
  | none =>
    refine .inl ⟨?_, rfl⟩
    rw [step_eq, extract_none hscan, push_of_le h, hcount]
  | some q =>
    obtain ⟨i, n⟩ := q
    have hle := R.scan_le hscan
    refine .inr ⟨i, n, rfl, ?_, by rw [step_eq, extract_some hscan, push_of_le h, hcount]⟩
    rw [push_of_le h] at hle
    simp only [visible, List.length_take, List.length_append] at hle
    omega

/-- A delivered frame begins where the stored cells did, or later. -/
theorem le_of_mem_spans {t b : ℕ} {ds : List (List α)} (ht : t = b + s.content.length)
    (ha : (receiver R N).Throughout (Accepts N) s ds) {q : ℕ × ℕ} (h : q ∈ spans R N t s ds) :
    b ≤ q.1 := by
  induction ds generalizing s t b with
  | nil => simp [spans] at h
  | cons d ds ih =>
    rcases accepted_step (R := R) ha.1 with ⟨hstep, -⟩ | ⟨i, n, -, hle, hstep⟩
    · refine ih (b := b) (t := t + d.length) ?_ ha.2 (by simpa [spans, hstep] using h)
      simp only [hstep, List.length_append]
      omega
    · have ht' : t + d.length = b + (i + n) + ((s.content ++ d).drop (i + n)).length := by
        simp only [List.length_drop, List.length_append]; omega
      simp only [spans, hstep, Option.toList_some, List.map_cons, List.map_nil,
        List.singleton_append, List.mem_cons] at h
      rcases h with rfl | h
      · simp only [List.length_take, List.length_drop, List.length_append] at ht' ⊢
        omega
      · have hlater := ih (b := b + (i + n)) (t := t + d.length)
          (by rw [hstep]; exact ht') ha.2 (by rw [hstep]; exact h)
        omega

/-- At the front of a stream of whole frames the visible cells begin a frame as soon as they
hold the first one. -/
theorem size_visible_front {f d more rest : List α} (hf : R.size f = some f.length)
    (h : Accepts N s d) (hstream : (s.content ++ d) ++ more = f ++ rest) :
    R.size ((s.push N d).visible N) =
      if f.length ≤ ((s.push N d).visible N).length then some f.length else none := by
  have hvis : (s.push N d).visible N = (s.content ++ d).take (N - s.pos) := by
    rw [push_of_le h]
    rfl
  have hpre : (s.push N d).visible N =
      (f ++ rest).take ((s.push N d).visible N).length := by
    rw [← hstream, hvis, List.length_take, List.take_append_of_le_length
      (Nat.min_le_right (N - s.pos) (s.content ++ d).length), List.take_eq_take_iff]
    omega
  split
  next hlong =>
    rw [hpre, List.take_append, List.take_of_length_le hlong]
    exact R.size_append _ hf
  next hshort =>
    rw [hpre, List.take_append_of_le_length (by omega)]
    exact R.size_proper_take hf (by omega)

/-- A step on a stream of whole frames stores only, takes out the front frame, or takes out
something inside the front frame while that is incomplete. -/
theorem stream_step {fs : List (List α)} (hfs : ∀ f ∈ fs, R.size f = some f.length)
    {d more : List α} (h : Accepts N s d) (hstream : (s.content ++ d) ++ more = fs.flatten) :
    ((receiver R N).step s d = (⟨s.pos, s.content ++ d⟩, d.length, none) ∧ Flush R N s d) ∨
    (∃ f rest, fs = f :: rest ∧ Flush R N s d ∧ f.length ≤ s.content.length + d.length ∧
      (s.content ++ d).drop f.length ++ more = rest.flatten ∧
      (receiver R N).step s d =
        (⟨(s.pos + f.length) % N, (s.content ++ d).drop f.length⟩, d.length, some f)) ∨
    ∃ f rest i n, fs = f :: rest ∧ ¬ Flush R N s d ∧ 0 < i ∧ i < f.length ∧
      i + n ≤ s.content.length + d.length ∧ (receiver R N).step s d =
        (⟨(s.pos + i + n) % N, (s.content ++ d).drop (i + n)⟩, d.length,
          some (((s.content ++ d).drop i).take n)) := by
  rcases accepted_step (R := R) h with ⟨hstep, hscan⟩ | ⟨i, n, hscan, hle, hstep⟩
  · exact .inl ⟨hstep, fun i n hi => by simp [R.scan_eq_none.mp hscan i] at hi⟩
  obtain ⟨hfound, hfirst⟩ := R.scan_eq_some.mp hscan
  have hpos := R.size_pos hfound
  have hin := R.size_drop_le hfound
  cases fs with
  | nil =>
    have := congrArg List.length hstream
    simp only [List.length_append, List.flatten_nil, List.length_nil] at this
    omega
  | cons f rest =>
    have hsize := size_visible_front (hfs f List.mem_cons_self) h
      (hstream.trans List.flatten_cons)
    by_cases hlong : f.length ≤ ((s.push N d).visible N).length
    · rw [if_pos hlong] at hsize
      obtain rfl : i = 0 := by
        by_contra hi
        have := hfirst 0 (by omega)
        rw [List.drop_zero, hsize] at this
        simp at this
      obtain rfl : n = f.length := by
        rwa [List.drop_zero, hsize, Option.some.injEq, eq_comm] at hfound
      have htake : (s.content ++ d).take f.length = f := by
        have := congrArg (List.take f.length) hstream
        rwa [List.take_append_of_le_length (by rw [List.length_append]; omega),
          List.flatten_cons, List.take_left] at this
      have hdrop : (s.content ++ d).drop f.length ++ more = rest.flatten := by
        have := congrArg (List.drop f.length) hstream
        rwa [List.drop_append_of_le_length (by rw [List.length_append]; omega),
          List.flatten_cons, List.drop_left] at this
      rw [Nat.zero_add, List.drop_zero, htake] at hstep
      exact .inr (.inl ⟨f, rest, rfl, fun _ _ _ => by rw [hsize]; rfl, by omega, hdrop, hstep⟩)
    · rw [if_neg hlong] at hsize
      have hi : i ≠ 0 := by rintro rfl; rw [List.drop_zero, hsize] at hfound; simp at hfound
      refine .inr (.inr ⟨f, rest, i, n, rfl, fun hflush => ?_, by omega, by omega, hle, hstep⟩)
      have := hflush i n hfound
      rw [hsize] at this
      simp at this

section Stream
variable {fs ds : List (List α)} (hfs : ∀ f ∈ fs, R.size f = some f.length)
  (hstream : s.content ++ ds.flatten = fs.flatten)
  (ha : (receiver R N).Throughout (Accepts N) s ds)
include hfs hstream ha

/-- For a cut of a concatenation of whole frames: every frame comes out at the place of a
frame of the stream exactly when every step is flush. -/
theorem spans_iff_flush {t b : ℕ} (ht : t = b + s.content.length) :
    (∀ q ∈ spans R N t s ds, q ∈ frameSpans b fs) ↔
      (receiver R N).Throughout (Flush R N) s ds := by
  induction ds generalizing s fs t b with
  | nil => simp [spans]
  | cons d ds ih =>
    have hstream' : (s.content ++ d) ++ ds.flatten = fs.flatten := by simpa using hstream
    have ha' := ha.2
    rcases stream_step hfs ha.1 hstream' with ⟨hstep, hflush⟩ |
      ⟨f, rest, rfl, hflush, hle, hrem, hstep⟩ |
      ⟨f, rest, i, n, rfl, hflush, hi, hif, hle, hstep⟩
    · rw [hstep] at ha'
      have := ih hfs hstream' ha' (t := t + d.length) (b := b)
        (by simp only [List.length_append]; omega)
      simpa [spans, hstep, hflush] using this
    · rw [hstep] at ha'
      have hlen : t + d.length = b + f.length + ((s.content ++ d).drop f.length).length := by
        simp only [List.length_drop, List.length_append]; omega
      have hIH := ih (fun g hg => hfs g (List.mem_cons_of_mem _ hg)) hrem ha' hlen
      have hspan : t + d.length - ((s.content ++ d).drop f.length).length - f.length = b := by
        omega
      simp only [spans, hstep, Option.toList_some, List.map_cons, List.map_nil, hspan,
        List.singleton_append, List.forall_mem_cons, frameSpans, List.mem_cons_self, true_and,
        Mealy.throughout_cons, hflush, ← hIH]
      refine ⟨fun h q hq => ?_, fun h q hq => List.mem_cons_of_mem _ (h q hq)⟩
      -- what comes out later stands behind the frame
      have hlater := le_of_mem_spans hlen ha' hq
      rcases List.mem_cons.mp (h q hq) with rfl | hq'
      · have := R.size_pos (hfs f List.mem_cons_self)
        simp only at hlater
        omega
      · exact hq'
    · refine iff_of_false (fun h => ?_) fun h => hflush h.1
      have hl : (((s.content ++ d).drop i).take n).length = n := by
        simp only [List.length_take, List.length_drop, List.length_append]; omega
      have hp : t + d.length - ((s.content ++ d).drop (i + n)).length - n = b + i := by
        simp only [List.length_drop, List.length_append]; omega
      have hspan := h (b + i, n) (by
        simp only [spans, hstep, Option.toList_some, List.map_cons, List.map_nil, hl, hp,
          List.singleton_append, List.mem_cons_self])
      rcases List.mem_cons.mp hspan with heq | hmem
      · simp only [Prod.mk.injEq] at heq; omega
      · have := le_of_mem_frameSpans hmem
        simp only at this
        omega

/-- A flush run delivers frames of the stream, in order. -/
theorem flush_sublist (hflush : (receiver R N).Throughout (Flush R N) s ds) :
    (delivered ((receiver R N).outputs s ds)).Sublist fs := by
  induction ds generalizing s fs with
  | nil => simp
  | cons d ds ih =>
    have hstream' : (s.content ++ d) ++ ds.flatten = fs.flatten := by simpa using hstream
    have ha' := ha.2
    have hflush' := hflush.2
    rcases stream_step hfs ha.1 hstream' with ⟨hstep, -⟩ | ⟨f, rest, rfl, -, -, hrem, hstep⟩ |
      ⟨f, rest, i, n, rfl, hnot, -⟩
    · rw [hstep] at ha' hflush'
      simpa [hstep] using ih hfs hstream' ha' hflush'
    · rw [hstep] at ha' hflush'
      simpa [hstep] using
        ih (fun g hg => hfs g (List.mem_cons_of_mem _ hg)) hrem ha' hflush'
    · exact absurd hflush.1 hnot

end Stream

/-! ### Inputs that are offered again

An input need not be stored whole: what there was no room for stays on the line. -/

/-- The step sees of an input what it stores of it. -/
theorem push_take (d : List α) : s.push N (d.take (N - 1 - s.content.length)) = s.push N d := by
  rw [push, push, List.take_take, Nat.min_self]

theorem flush_take_iff (d : List α) :
    Flush R N s (d.take (N - 1 - s.content.length)) ↔ Flush R N s d := by
  rw [Flush, push_take, Flush]

/-- A flush step on a line of whole frames takes out the front frame or nothing. The cells stored
and those still on the line are the frames not taken out. -/
theorem flush_step {fs : List (List α)} (hfs : ∀ f ∈ fs, R.size f = some f.length)
    {line : List α} (hline : s.content ++ line = fs.flatten) {k : ℕ}
    (hflush : Flush R N s (line.take k)) :
    ∃ out rest, fs = out.toList ++ rest ∧ ((receiver R N).step s (line.take k)).2.2 = out ∧
      ((receiver R N).step s (line.take k)).1.content ++
        line.drop ((receiver R N).step s (line.take k)).2.1 = rest.flatten := by
  -- the part that is stored is accepted, and the step is that of the part
  obtain ⟨j, hj⟩ : ∃ j, (line.take k).take (N - 1 - s.content.length) = line.take j :=
    ⟨_, List.take_take ..⟩
  have haccepts : Accepts N s (line.take j) := by
    rw [← hj, Accepts, List.length_take]
    omega
  have hstep : (receiver R N).step s (line.take k) = (receiver R N).step s (line.take j) := by
    rw [step_eq, step_eq, ← push_take, hj]
    have hlen := congrArg List.length hj
    rw [List.length_take, Nat.min_comm] at hlen
    simp only [hlen, Nat.min_eq_left haccepts]
  rw [← flush_take_iff, hj] at hflush
  have hsplit : (s.content ++ line.take j) ++ line.drop j = fs.flatten := by
    rw [List.append_assoc, List.take_append_drop, hline]
  have hrest : line.drop (line.take j).length = line.drop j := by
    rw [List.length_take]
    rcases Nat.le_total j line.length with h | h
    · rw [Nat.min_eq_left h]
    · rw [Nat.min_eq_right h, List.drop_length, List.drop_of_length_le h]
  rw [hstep]
  rcases stream_step hfs haccepts hsplit with ⟨hnone, -⟩ | ⟨f, rest, rfl, -, hle, hrem, hsome⟩ |
    ⟨f, rest, i, n, rfl, hnot, -⟩
  · refine ⟨none, fs, rfl, by rw [hnone], ?_⟩
    rw [hnone, hrest]
    exact hsplit
  · refine ⟨some f, rest, rfl, by rw [hsome], ?_⟩
    rw [hsome, hrest]
    exact hrem
  · exact absurd hflush hnot

/-- Steps on a line of frames are flush when no cell inside the front frame can begin a frame that
would end inside it too. -/
theorem flush_of_plain {p : α → Prop} {m : ℕ}
    (hstarts : ∀ {xs n}, R.size xs = some n → m ≤ n ∧ ∃ a ∈ xs.head?, p a)
    {fs : List (List α)} (hfs : ∀ f ∈ fs, R.size f = some f.length)
    (hplain : ∀ f ∈ fs.head?, ∀ i, 0 < i → i + m < f.length → ∀ a ∈ f[i]?, ¬ p a)
    {d more : List α} (hstream : (s.content ++ d) ++ more = fs.flatten) : Flush R N s d := by
  intro i n hi
  -- what is visible is a part of the stream
  have hvisible : ((s.push N d).visible N) <+: fs.flatten := by
    rw [← hstream, visible, push]
    exact (List.take_prefix _ _).trans (((List.prefix_append_right_inj _).mpr
      (List.take_prefix _ _)).trans (List.prefix_append _ _))
  have hle := R.size_drop_le hi
  have hpos := R.size_pos hi
  cases fs with
  | nil =>
    rw [List.flatten_nil, List.prefix_nil] at hvisible
    rw [hvisible, List.length_nil] at hle
    omega
  | cons f rest =>
    have hf := hfs f List.mem_cons_self
    obtain ⟨more', hmore'⟩ := hvisible
    rw [List.flatten_cons] at hmore'
    rcases Nat.lt_or_ge ((s.push N d).visible N).length f.length with hshort | hlong
    · -- only the front cell of a part of the front frame can begin a frame
      have hpart : (s.push N d).visible N = f.take ((s.push N d).visible N).length := by
        have hfront := congrArg (List.take ((s.push N d).visible N).length) hmore'
        rwa [List.take_left, List.take_append_of_le_length (Nat.le_of_lt hshort)] at hfront
      rcases Nat.eq_zero_or_pos i with rfl | hi0
      · rw [List.drop_zero] at hi
        rw [hi]
        rfl
      · obtain ⟨hm, a, ha, hstart⟩ := hstarts hi
        rw [List.head?_drop, hpart, List.getElem?_take_of_lt (by omega)] at ha
        exact absurd hstart (hplain f rfl i hi0 (by omega) a ha)
    · have htake : ((s.push N d).visible N).take f.length = f := by
        have hfront := congrArg (List.take f.length) hmore'
        rwa [List.take_append_of_le_length hlong, List.take_left] at hfront
      have hsize := R.size_append (((s.push N d).visible N).drop f.length) hf
      rw [← htake, List.length_take, Nat.min_eq_left hlong, htake] at hsize
      rw [← List.take_append_drop f.length ((s.push N d).visible N), htake, hsize]
      rfl

end Window
end Framing
