import Mathlib.Algebra.Group.Nat.Defs
import Mathlib.Data.List.Basic

/-! Hexadecimal text in upper-case digits: how long it is, and the octets that stand in a line of
digits and spaces. -/
namespace Hexadecimal

def digits (n : ℕ) : List Char := (Nat.toDigits 16 n).map Char.toUpper

/-- The digits of a number behind as many zeros as fill the field. -/
def padded (width n : ℕ) : List Char := (digits n).leftpad width '0'

theorem digits_length_le_iff {n k : ℕ} (hk : 0 < k) : (digits n).length ≤ k ↔ n < 16 ^ k := by
  rw [digits, List.length_map]
  exact Nat.length_toDigits_le_iff (by decide) hk

theorem padded_length {width n : ℕ} (hwidth : 0 < width) (h : n < 16 ^ width) :
    (padded width n).length = width := by
  have hle := (digits_length_le_iff hwidth).mpr h
  rw [padded, List.length_leftpad, Nat.max_eq_left hle]

/-- What holds of the sixteen digits holds of every character of a number. -/
theorem forall_mem_digits {P : Char → Prop} (hP : ∀ d < 16, P (Nat.digitChar d).toUpper) (n : ℕ) :
    ∀ c ∈ digits n, P c := by
  induction n using Nat.strongRecOn with
  | ind n ih =>
    unfold digits at ih ⊢
    rcases Nat.lt_or_ge n 16 with hlt | hge
    · rw [Nat.toDigits_of_lt_base hlt]
      exact List.forall_mem_singleton.mpr (hP n hlt)
    · rw [Nat.toDigits_of_base_le (by decide) hge, List.map_append, List.forall_mem_append]
      refine ⟨ih (n / 16) (by omega), List.forall_mem_singleton.mpr (hP _ ?_)⟩
      exact Nat.mod_lt n (by decide)

theorem forall_mem_padded {P : Char → Prop} (hP : ∀ d < 16, P (Nat.digitChar d).toUpper)
    (width n : ℕ) : ∀ c ∈ padded width n, P c := by
  intro c hc
  rw [padded, List.leftpad, List.mem_append] at hc
  rcases hc with hzero | hdigit
  · rw [List.eq_of_mem_replicate hzero]
    exact hP 0 (by decide)
  · exact forall_mem_digits hP n c hdigit

/-! ### Reading octets back -/

def digitValue (c : Char) : ℕ := if c.toNat ≤ '9'.toNat then c.toNat - '0'.toNat else c.toNat - 55

/-- The octets of a line, up to a bar. Spaces may stand between them. -/
def readOctets : List Char → List UInt8
  | '|' :: _ => []
  | ' ' :: cs => readOctets cs
  | high :: low :: cs => UInt8.ofNat (16 * digitValue high + digitValue low) :: readOctets cs
  | _ => []

@[simp] theorem readOctets_bar (cs : List Char) : readOctets ('|' :: cs) = [] := by
  simp [readOctets]

@[simp] theorem readOctets_space (cs : List Char) :
    readOctets (' ' :: cs) = readOctets cs := by
  simp [readOctets]

/-- The digits of an octet, the high one first. -/
theorem padded_octet {n : ℕ} (h : n < 256) :
    padded 2 n = [(Nat.digitChar (n / 16)).toUpper, (Nat.digitChar (n % 16)).toUpper] := by
  rw [padded, digits]
  rcases Nat.lt_or_ge n 16 with hlt | hge
  · rw [Nat.toDigits_of_lt_base hlt, Nat.div_eq_of_lt hlt, Nat.mod_eq_of_lt hlt]
    rfl
  · rw [Nat.toDigits_of_base_le (by decide) hge, Nat.toDigits_of_lt_base (by omega)]
    rfl

/-- A digit is neither a space nor a bar, and has its own value. -/
theorem digit_read : ∀ d < 16, (Nat.digitChar d).toUpper ≠ '|' ∧ (Nat.digitChar d).toUpper ≠ ' ' ∧
    digitValue (Nat.digitChar d).toUpper = d := by
  decide

/-- Two digits are read as their octet. -/
theorem readOctets_padded (octet : UInt8) (cs : List Char) :
    readOctets (padded 2 octet.toNat ++ cs) = octet :: readOctets cs := by
  have hlt := octet.toNat_lt
  obtain ⟨hbar, hspace, hhigh⟩ := digit_read (octet.toNat / 16) (by omega)
  obtain ⟨-, -, hlow⟩ := digit_read (octet.toNat % 16) (by omega)
  rw [padded_octet hlt, List.cons_append, List.cons_append, List.nil_append]
  rw [readOctets, hhigh, hlow, Nat.div_add_mod, UInt8.ofNat_toNat]
  · exact hbar
  · exact hspace

end Hexadecimal
