import Mathlib.Data.Nat.Basic
import Mathlib.Tactic.Common
import Mathlib.Tactic.Ring

/-!
# Fixed-width digits, most significant first

`digits base length n` are the last `length` digits of `n`, leading zeros
included, and `ofDigits base` reads digits back.  What is read back is `n` up to
a multiple of `base ^ length` (`ofDigits_digits`), so numbers that fit are told
apart by their digits.
-/

namespace Digits

variable {base length n : ℕ}

/-- The last `length` digits of `n`, the most significant first. -/
def digits (base length n : ℕ) : List ℕ :=
  (List.range length).reverse.map fun i => n / base ^ i % base

/-- The number the digits write, the most significant first. -/
def ofDigits (base : ℕ) (digits : List ℕ) : ℕ :=
  digits.foldl (fun value digit => base * value + digit) 0

theorem digits_succ (base length n : ℕ) :
    digits base (length + 1) n = n / base ^ length % base :: digits base length n := by
  simp [digits, List.range_succ]

theorem foldl_digits (base length n value : ℕ) :
    (digits base length n).foldl (fun value digit => base * value + digit) value =
      value * base ^ length + n % base ^ length := by
  induction length generalizing value with
  | zero => simp [digits, Nat.mod_one]
  | succ length ih =>
      rw [digits_succ, List.foldl_cons, ih]
      calc (base * value + n / base ^ length % base) * base ^ length + n % base ^ length
          = value * base ^ (length + 1) +
              (n % base ^ length + base ^ length * (n / base ^ length % base)) := by ring
        _ = value * base ^ (length + 1) + n % base ^ (length + 1) := by rw [Nat.mod_pow_succ]

theorem ofDigits_digits (base length n : ℕ) :
    ofDigits base (digits base length n) = n % base ^ length := by
  rw [ofDigits, foldl_digits, Nat.zero_mul, Nat.zero_add]

/-- A number that fits is read back. -/
theorem ofDigits_digits_of_lt (h : n < base ^ length) :
    ofDigits base (digits base length n) = n := by
  rw [ofDigits_digits, Nat.mod_eq_of_lt h]

theorem mem_digits_lt (hbase : 0 < base) {digit : ℕ} (h : digit ∈ digits base length n) :
    digit < base := by
  obtain ⟨i, _, rfl⟩ := List.mem_map.mp h
  exact Nat.mod_lt _ hbase

end Digits
