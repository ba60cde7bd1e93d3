import Mathlib.Algebra.Ring.Nat

namespace SinglePrecision

-- A natural number to 24 significant bits, to the nearest and from the middle to
-- the even one. Scaling by a power of two changes nothing.
def round (n : Nat) : Nat :=
  let unit := 2 ^ (n.log2 - 23)
  let low := n / unit
  let left := n % unit
  if unit < 2 * left ∨ (unit = 2 * left ∧ low % 2 = 1) then (low + 1) * unit else low * unit

theorem unit_small (n : Nat) : 2 ^ (n.log2 - 23) * 2^23 ≤ n ∨ n.log2 ≤ 23 := by
  by_cases small : n.log2 ≤ 23
  · exact .inr small
  · refine .inl ?_
    have positive : n ≠ 0 := by
      rintro rfl
      exact small (by decide)
    rw [← Nat.pow_add,Nat.sub_add_cancel (Nat.le_of_not_le small)]
    exact Nat.log2_self_le positive

theorem round_exact (small : n < 2^24) : round n = n := by
  have unit : n.log2 - 23 = 0 := by
    by_cases zero : n = 0
    · rw [zero]; decide
    · have below := (Nat.log2_lt zero).mpr small
      omega
  unfold round
  rw [unit]
  have whole : n % 2^0 = 0 := Nat.mod_one n
  dsimp only
  have down : ¬(2^0 < 2*0 ∨ 2^0 = 2*0 ∧ n / 2^0 % 2 = 1) := by omega
  rw [whole,if_neg down,Nat.pow_zero,Nat.div_one,Nat.mul_one]

-- Rounding adds at most one unit of the last place.
theorem round_le (n : Nat) : round n ≤ n + n / 2^23 := by
  rcases unit_small n with large | small
  · have whole := Nat.div_add_mod n (2 ^ (n.log2 - 23))
    have unit : 2 ^ (n.log2 - 23) ≤ n / 2^23 := (Nat.le_div_iff_mul_le (by decide)).mpr large
    unfold round
    dsimp only
    split
    · rw [Nat.add_mul,Nat.one_mul,Nat.mul_comm]
      omega
    · rw [Nat.mul_comm]
      omega
  · by_cases zero : n = 0
    · rw [zero]; decide
    · have below : n < 2^24 := (Nat.log2_lt zero).mp (Nat.lt_succ_of_le small)
      rw [round_exact below]
      exact Nat.le_add_right _ _

end SinglePrecision
