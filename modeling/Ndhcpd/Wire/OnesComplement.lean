import Mathlib.Data.Nat.ModEq
import Mathlib.Tactic.Ring

/-!
# One's-complement sums

Adding words in one's complement is adding numbers and putting every carry out of a word back in at
the bottom. `fold B n` does this once for a number `n` in base `B`, and repeating it leads to
`residue B n`: the number below `B` that is congruent to `n` modulo `B - 1` and is zero only for
zero. Zero has a second representation, `B - 1`, and it is the one that a sum ends in when it is
completed by its complement (`residue_add_complement`), which is what makes a checksum verify.

`wordSum` adds a byte string up in big-endian 16-bit words, with an odd last byte taken as the
upper half of a word.
-/

namespace Ndhcpd.OnesComplement

variable {B m n : ℕ}

/-! ### Carries -/

/-- Put the carries back in. -/
def fold (B n : ℕ) : ℕ := n % B + n / B

/-- The number below `B` that stands for `n`. -/
def residue (B n : ℕ) : ℕ := if n = 0 then 0 else (n - 1) % (B - 1) + 1

/-- Folding makes a number with carries smaller. -/
theorem fold_lt (hB : 2 ≤ B) (hn : B ≤ n) : fold B n < n := by
  have hsplit := Nat.div_add_mod n B
  have hquot : 0 < n / B := Nat.div_pos hn (by omega)
  have hmul : 2 * (n / B) ≤ B * (n / B) := Nat.mul_le_mul_right _ hB
  rw [fold]
  omega

/-- Folding keeps a number modulo `B - 1`. -/
theorem fold_modEq (hB : 2 ≤ B) : fold B n ≡ n [MOD B - 1] := by
  have hbase : B ≡ 1 [MOD B - 1] := by
    have hstep := @Nat.add_modEq_left (B - 1) 1
    rwa [Nat.sub_add_cancel (by omega)] at hstep
  have hquot : n / B ≡ B * (n / B) [MOD B - 1] := by
    have hmul := (hbase.mul_right (n / B)).symm
    rwa [one_mul] at hmul
  have hsum := hquot.add_left (n % B)
  rwa [Nat.mod_add_div] at hsum

theorem fold_eq_zero_iff : fold B n = 0 ↔ n = 0 := by
  have hsplit := Nat.div_add_mod n B
  constructor
  · intro h
    obtain ⟨hmod, hquot⟩ := Nat.add_eq_zero_iff.mp h
    rw [hmod, hquot, Nat.mul_zero] at hsplit
    exact hsplit.symm
  · rintro rfl
    simp [fold]

/-- **Two folds** are enough for a number of two digits. -/
theorem fold_fold_lt (hn : n < B * B) : fold B (fold B n) < B := by
  have hB : 0 < B := by
    by_contra hzero
    obtain rfl : B = 0 := by omega
    omega
  have hlow := Nat.mod_lt n hB
  have hhigh : n / B < B := Nat.div_lt_of_lt_mul hn
  -- the first fold leaves a carry of at most one
  have hsum : fold B n ≤ 2 * B - 2 := by
    rw [fold]
    omega
  generalize fold B n = m at hsum
  by_cases hm : m < B
  · rw [fold, Nat.mod_eq_of_lt hm, Nat.div_eq_of_lt hm]
    exact hm
  · have hquot : m / B = 1 := Nat.div_eq_of_lt_le (by omega) (by omega)
    have hrest : m % B = m - B := by
      have hsplit := Nat.div_add_mod m B
      rw [hquot] at hsplit
      omega
    rw [fold, hquot, hrest]
    omega

/-! ### Residues -/

/-- Numbers that are congruent, and zero together, have the same residue. -/
theorem residue_congr (hzero : m = 0 ↔ n = 0) (h : m ≡ n [MOD B - 1]) :
    residue B m = residue B n := by
  by_cases hn : n = 0
  · rw [hn, hzero.mpr hn]
  · have hm : m ≠ 0 := fun hm => hn (hzero.mp hm)
    have hpred : m - 1 ≡ n - 1 [MOD B - 1] := by
      refine Nat.ModEq.add_right_cancel' 1 ?_
      rwa [Nat.sub_add_cancel (by omega), Nat.sub_add_cancel (by omega)]
    rw [residue, residue, if_neg hm, if_neg hn, hpred]

/-- A number without carries is its own residue. -/
theorem residue_of_lt (h : n < B) : residue B n = n := by
  by_cases hn : n = 0
  · rw [hn, residue, if_pos rfl]
  · rw [residue, if_neg hn, Nat.mod_eq_of_lt (by omega), Nat.sub_add_cancel (by omega)]

theorem residue_lt (hB : 2 ≤ B) : residue B n < B := by
  rw [residue]
  split
  · omega
  · have := Nat.mod_lt (n - 1) (by omega : 0 < B - 1)
    omega

theorem residue_modEq : residue B n ≡ n [MOD B - 1] := by
  rw [residue]
  split
  · next hn => rw [hn]
  · have h := (Nat.mod_modEq (n - 1) (B - 1)).add_right 1
    rwa [Nat.sub_add_cancel (by omega : 1 ≤ n)] at h

theorem residue_eq_zero_iff : residue B n = 0 ↔ n = 0 := by
  rw [residue]
  split
  · simp_all
  · simp_all

/-- Folding does not change the residue. -/
theorem residue_fold (hB : 2 ≤ B) : residue B (fold B n) = residue B n :=
  residue_congr fold_eq_zero_iff (fold_modEq hB)

/-- The residue of a sum of two words: the carry comes back in at the bottom. -/
theorem residue_add_of_lt (hm : m < B) (hn : n < B) :
    residue B (m + n) = if m + n < B then m + n else m + n - B + 1 := by
  split
  · next hsum => exact residue_of_lt hsum
  · next hsum =>
    have hpred : m + n - 1 = m + n - B + (B - 1) := by omega
    rw [residue, if_neg (by omega), hpred, Nat.add_mod_right, Nat.mod_eq_of_lt (by omega)]

/-- A residue stands for its number in a sum. -/
theorem residue_residue_add : residue B (residue B m + n) = residue B (m + n) := by
  refine residue_congr ?_ (residue_modEq.add_right n)
  rw [Nat.add_eq_zero_iff, Nat.add_eq_zero_iff, residue_eq_zero_iff]

/-- **A sum and its complement** make the second zero. -/
theorem residue_add_complement (hB : 2 ≤ B) :
    residue B (n + (B - 1 - residue B n)) = B - 1 := by
  have hlt := @residue_lt B n hB
  refine Eq.trans (residue_congr ?_ ?_) (residue_of_lt (by omega : B - 1 < B))
  · -- if `n` is zero then its complement is not
    have hzero := @residue_eq_zero_iff B n
    omega
  · have hsum := (@residue_modEq B n).symm.add_right (B - 1 - residue B n)
    rwa [Nat.add_sub_cancel' (by omega)] at hsum

/-! ### Byte strings -/

/-- The sum of the big-endian 16-bit words of a byte string. -/
def wordSum : List UInt8 → ℕ
  | a :: b :: rest => a.toNat * 256 + b.toNat + wordSum rest
  | [a] => a.toNat * 256
  | [] => 0

/-- Words do not run over the border of two byte strings if the first has an even length. -/
theorem wordSum_append {d : List UInt8} (h : d.length % 2 = 0) (e : List UInt8) :
    wordSum (d ++ e) = wordSum d + wordSum e := by
  induction d using wordSum.induct with
  | case1 a b rest ih =>
    rw [List.length_cons, List.length_cons] at h
    rw [List.cons_append, List.cons_append, wordSum, wordSum, ih (by omega)]
    omega
  | case2 a => simp at h
  | case3 => simp [wordSum]

theorem wordSum_le (d : List UInt8) : wordSum d ≤ 65535 * ((d.length + 1) / 2) := by
  induction d using wordSum.induct with
  | case1 a b rest ih =>
    have ha := a.toNat_lt
    have hb := b.toNat_lt
    rw [wordSum, List.length_cons, List.length_cons]
    omega
  | case2 a =>
    have ha := a.toNat_lt
    rw [wordSum]
    simp only [List.length_singleton]
    omega
  | case3 => simp [wordSum]

end Ndhcpd.OnesComplement
