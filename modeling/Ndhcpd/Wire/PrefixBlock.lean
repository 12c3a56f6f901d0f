import Mathlib.Tactic.Common
import Mathlib.Tactic.Ring

/-!
# Blocks of a prefix

A prefix of a `w`-bit word fixes all but the lowest `k` bits. The words that share the prefix
of `n` are a block of `2 ^ k` numbers from `first k n` to `last k n`: masking with
`2 ^ w - 2 ^ k` gives the first number of the block, setting the low bits gives the last one,
and two words are in the same block exactly if they mask to the same number.

`meet_iff` is the test for overlap: two blocks, of whatever sizes, have a word in common if
and only if neither ends before the other begins. Blocks that meet are nested, since a block
is a union of blocks of any smaller size (`first_eq_of_le`).
-/

namespace Ndhcpd.PrefixBlock

variable {w k j n m x : ℕ}

/-- The first number of the block of `n`. -/
def first (k n : ℕ) : ℕ := n / 2 ^ k * 2 ^ k

/-- The last number of the block of `n`. -/
def last (k n : ℕ) : ℕ := first k n + (2 ^ k - 1)

/-- Masking gives the first number of the block. -/
theorem and_mask (hk : k ≤ w) (hn : n < 2 ^ w) : n &&& (2 ^ w - 2 ^ k) = first k n := by
  have hmask : 2 ^ w - 2 ^ k = (2 ^ (w - k) - 1) * 2 ^ k := by
    rw [Nat.sub_mul, ← Nat.pow_add, Nat.sub_add_cancel hk, Nat.one_mul]
  rw [hmask, first]
  refine Nat.eq_of_testBit_eq fun i => ?_
  rw [Nat.testBit_and, Nat.testBit_mul_two_pow, Nat.testBit_mul_two_pow,
    Nat.testBit_two_pow_sub_one, Nat.testBit_div_two_pow]
  by_cases hi : k ≤ i
  · by_cases hw : i < w
    · have hbit : i - k < w - k := by omega
      simp [hi, hbit]
    · -- a word has no bits beyond its width
      have hzero : n.testBit i = false :=
        Nat.testBit_lt_two_pow (hn.trans_le (Nat.pow_le_pow_right (by omega) (by omega)))
      simp [hi, hzero]
  · simp [hi]

/-- Setting the low bits gives the last number of the block. -/
theorem first_or_low : first k n ||| (2 ^ k - 1) = last k n := by
  have hpos := Nat.two_pow_pos k
  rw [last, first, Nat.mul_comm, Nat.two_pow_add_eq_or_of_lt (by omega)]

/-- A block is an interval. -/
theorem first_eq_iff : first k x = first k n ↔ first k n ≤ x ∧ x ≤ last k n := by
  have hpos := Nat.two_pow_pos k
  have hx := Nat.div_add_mod x (2 ^ k)
  have hmod := Nat.mod_lt x hpos
  rw [Nat.mul_comm] at hx
  constructor
  · intro h
    rw [last, ← h, first]
    omega
  · rintro ⟨hle, hge⟩
    have hquot : x / 2 ^ k = n / 2 ^ k := by
      refine Nat.div_eq_of_lt_le hle ?_
      rw [last, first] at hge
      rw [Nat.succ_mul]
      omega
    rw [first, hquot, first]

theorem first_le_last : first k n ≤ last k n := Nat.le_add_right _ _

/-- A longer common prefix is in particular a common prefix. -/
theorem first_eq_of_le (hkj : k ≤ j) (h : first k x = first k n) : first j x = first j n := by
  have hquot : x / 2 ^ k = n / 2 ^ k := Nat.eq_of_mul_eq_mul_right (Nat.two_pow_pos k) h
  have hsplit : 2 ^ j = 2 ^ k * 2 ^ (j - k) := by
    rw [← Nat.pow_add, Nat.add_sub_cancel' hkj]
  rw [first, first, hsplit, ← Nat.div_div_eq_div_mul, hquot, Nat.div_div_eq_div_mul]

/-- The blocks of words consist of words. -/
theorem last_lt (hk : k ≤ w) (hn : n < 2 ^ w) : last k n < 2 ^ w := by
  have hpos := Nat.two_pow_pos k
  have hsplit : 2 ^ w = 2 ^ (w - k) * 2 ^ k := by
    rw [← Nat.pow_add, Nat.sub_add_cancel hk]
  have hquot : n / 2 ^ k < 2 ^ (w - k) := by
    rw [Nat.div_lt_iff_lt_mul hpos, ← hsplit]
    exact hn
  have hle := Nat.mul_le_mul_right (2 ^ k) (Nat.succ_le_of_lt hquot)
  rw [Nat.succ_mul, ← hsplit] at hle
  rw [last, first]
  omega

/-- **Overlap of blocks.** -/
theorem meet_iff (hk : k ≤ w) (hn : n < 2 ^ w) :
    (∃ x < 2 ^ w, first k x = first k n ∧ first j x = first j m) ↔
      first k n ≤ last j m ∧ first j m ≤ last k n := by
  constructor
  · rintro ⟨x, -, hxn, hxm⟩
    obtain ⟨hn₁, hn₂⟩ := first_eq_iff.mp hxn
    obtain ⟨hm₁, hm₂⟩ := first_eq_iff.mp hxm
    exact ⟨hn₁.trans hm₂, hm₁.trans hn₂⟩
  · rintro ⟨hnm, hmn⟩
    -- the larger of the two first numbers is in both blocks
    have hlast : max (first k n) (first j m) ≤ last k n := max_le first_le_last hmn
    refine ⟨max (first k n) (first j m), hlast.trans_lt (last_lt hk hn), ?_, ?_⟩
    · exact first_eq_iff.mpr ⟨le_max_left _ _, hlast⟩
    · exact first_eq_iff.mpr ⟨le_max_right _ _, max_le hnm first_le_last⟩

end Ndhcpd.PrefixBlock
