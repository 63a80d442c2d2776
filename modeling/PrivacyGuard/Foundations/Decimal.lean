import Mathlib.Data.Nat.Digits.Defs
import Mathlib.Data.Nat.Digits.Lemmas

/-! # Decimal numerals

Numerals in ASCII decimal digits, most significant digit first: the value of a
string of digits and the shortest numeral of a number.
-/

namespace Decimal

def isDigit (c : UInt8) : Bool := decide (48 ≤ c) && decide (c ≤ 57)

def digitValue (c : UInt8) : ℕ := c.toNat - 48

def digit (d : ℕ) : UInt8 := UInt8.ofNat (48 + d)

def value (numeral : List UInt8) : ℕ :=
  numeral.foldl (fun n c => 10 * n + digitValue c) 0

/-- The numeral of a number without leading zeros. -/
def numeral (n : ℕ) : List UInt8 :=
  if n = 0 then [digit 0] else (Nat.digits 10 n).reverse.map digit

theorem digitValue_digit {d : ℕ} (h : d < 10) : digitValue (digit d) = d := by
  have hlt : 48 + d < 256 := by omega
  simp [digitValue, digit, Nat.mod_eq_of_lt hlt]

theorem isDigit_digit {d : ℕ} (h : d < 10) : isDigit (digit d) = true := by
  have hlt : 48 + d < 256 := by omega
  simp only [isDigit, Bool.and_eq_true, decide_eq_true_iff, UInt8.le_iff_toNat_le]
  simp [digit, Nat.mod_eq_of_lt hlt]
  omega

theorem value_eq_ofDigits (l : List UInt8) :
    value l = Nat.ofDigits 10 (l.reverse.map digitValue) := by
  induction l using List.reverseRecOn with
  | nil => rfl
  | append_singleton l c ih =>
    rw [value, List.foldl_concat, ← value, ih]
    simp [Nat.ofDigits_cons, Nat.add_comm]

theorem value_numeral (n : ℕ) : value (numeral n) = n := by
  unfold numeral
  split
  case isTrue h => subst h; rfl
  case isFalse h =>
    have hmap : ((Nat.digits 10 n).reverse.map digit).reverse.map digitValue =
        Nat.digits 10 n := by
      rw [← List.map_reverse, List.reverse_reverse, List.map_map]
      refine (List.map_congr_left fun d hd => ?_).trans (List.map_id _)
      exact digitValue_digit (Nat.digits_lt_base (by norm_num) hd)
    rw [value_eq_ofDigits, hmap, Nat.ofDigits_digits]

theorem numeral_ne_nil (n : ℕ) : numeral n ≠ [] := by
  unfold numeral
  split
  case isTrue => simp
  case isFalse h => simpa using Nat.digits_ne_nil_iff_ne_zero.mpr h

theorem isDigit_of_mem_numeral {n : ℕ} {c : UInt8} (h : c ∈ numeral n) : isDigit c = true := by
  unfold numeral at h
  split at h
  case isTrue => obtain rfl := List.mem_singleton.mp h; exact isDigit_digit (by norm_num)
  case isFalse =>
    obtain ⟨d, hd, rfl⟩ := List.mem_map.mp h
    exact isDigit_digit (Nat.digits_lt_base (by norm_num) (List.mem_reverse.mp hd))

theorem length_numeral_le {n k : ℕ} (hk : 0 < k) (h : n < 10 ^ k) : (numeral n).length ≤ k := by
  unfold numeral
  split
  case isTrue => simp; omega
  case isFalse hn =>
    rw [List.length_map, List.length_reverse]
    exact (Nat.digits_length_le_iff (by norm_num) n).mpr h

end Decimal
