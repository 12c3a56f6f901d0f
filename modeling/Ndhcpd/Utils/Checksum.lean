import Ndhcpd.Proto.Packet
import Ndhcpd.Wire.OnesComplement

/-!
# The IP checksum

`ipChecksum` is the header checksum of IP, with its 32-bit accumulator and its loop that folds the
carries back in. Its specification is `onesSum`, which adds words one after another and puts each
carry back in at once; both are a residue modulo 65535 of the plain sum. `ipChecksumChecked` is the
same computation by index, where every access, every addition and every turn of a loop is one that
can fail.

`ipChecksum_correct` says that none of them does on data of at most 65535 bytes, that the checksum
is the complement of the one's-complement sum, and that written into the data it makes the checksum
of the whole zero.
-/

namespace Ndhcpd

open OnesComplement

/-! ### The checksum -/

/-- The accumulator after the words of the data, and an odd last byte in the upper half. -/
def sumWords : UInt32 → List UInt8 → UInt32
  | sum, a :: b :: rest => sumWords (sum + (u16FromBytes a b).toUInt32) rest
  | sum, [a] => sum + (a.toUInt32 <<< 8)
  | sum, [] => sum

/-- `(sum & 0xffff) + (sum >> 16)`. -/
def foldOnce (sum : UInt32) : UInt32 := (sum &&& (0xffff : UInt32)) + (sum >>> 16)

section Fold

variable (sum : UInt32)

private theorem toNat_high : (sum >>> 16).toNat = sum.toNat / 65536 := by
  have hshift : (sum >>> 16).toNat = sum.toNat >>> 16 := UInt32.toNat_shiftRight sum 16
  rw [hshift, Nat.shiftRight_eq_div_pow]

private theorem toNat_low : (sum &&& (0xffff : UInt32)).toNat = sum.toNat % 65536 := by
  have hmask : (0xffff : UInt32).toNat = 2 ^ 16 - 1 := rfl
  rw [UInt32.toNat_and, hmask, Nat.and_two_pow_sub_one_eq_mod]

theorem toNat_foldOnce : (foldOnce sum).toNat = fold 65536 sum.toNat := by
  have hsum := sum.toNat_lt
  rw [foldOnce, UInt32.toNat_add, toNat_low, toNat_high, fold, Nat.mod_eq_of_lt (by omega)]

theorem shiftRight_eq_zero_iff : sum >>> 16 = 0 ↔ sum.toNat < 65536 := by
  have hzero : (0 : UInt32).toNat = 0 := rfl
  rw [← UInt32.toNat_inj, toNat_high, hzero]
  omega

end Fold

/-- The loop that folds the carries into the low half until none is left. -/
def foldCarries (sum : UInt32) : UInt32 :=
  if sum >>> 16 = 0 then sum else foldCarries (foldOnce sum)
termination_by sum.toNat
decreasing_by
  next h =>
  rw [shiftRight_eq_zero_iff] at h
  rw [toNat_foldOnce]
  exact fold_lt (by omega) (by omega)

/-- Standard one's-complement IP header checksum. -/
def ipChecksum (data : List UInt8) : UInt16 := ~~~(foldCarries (sumWords 0 data)).toUInt16

theorem toNat_u16FromBytes (a b : UInt8) :
    (u16FromBytes a b).toNat = a.toNat * 256 + b.toNat := by
  have ha := a.toNat_lt
  have hb := b.toNat_lt
  have hval : beNat [a, b] = a.toNat * 256 + b.toNat := by simp [beNat]
  rw [u16FromBytes, hval, UInt16.toNat_ofNat', Nat.mod_eq_of_lt (by omega)]

/-- A word in the accumulator. -/
theorem toNat_word (a b : UInt8) :
    (u16FromBytes a b).toUInt32.toNat = a.toNat * 256 + b.toNat := by
  rw [UInt16.toNat_toUInt32, toNat_u16FromBytes]

/-- An odd last byte in the accumulator. -/
theorem toNat_oddByte (a : UInt8) : (a.toUInt32 <<< 8).toNat = a.toNat * 256 := by
  have ha := a.toNat_lt
  have hamount : (8 : UInt32).toNat % 32 = 8 := rfl
  rw [UInt32.toNat_shiftLeft, UInt8.toNat_toUInt32, hamount, Nat.shiftLeft_eq,
    Nat.mod_eq_of_lt (by omega)]

/-- The accumulator holds the sum as long as it fits. -/
theorem toNat_sumWords {sum : UInt32} {data : List UInt8}
    (h : sum.toNat + wordSum data < 2 ^ 32) :
    (sumWords sum data).toNat = sum.toNat + wordSum data := by
  induction sum, data using sumWords.induct with
  | case1 sum a b rest ih =>
    rw [wordSum] at h
    have hfits : sum.toNat + (a.toNat * 256 + b.toNat) < 2 ^ 32 :=
      lt_of_le_of_lt (Nat.add_le_add_left (Nat.le_add_right _ _) _) h
    have hadd : (sum + (u16FromBytes a b).toUInt32).toNat =
        sum.toNat + (a.toNat * 256 + b.toNat) := by
      rw [UInt32.toNat_add, toNat_word, Nat.mod_eq_of_lt hfits]
    have hrest : (sum + (u16FromBytes a b).toUInt32).toNat + wordSum rest < 2 ^ 32 := by
      rw [hadd, Nat.add_assoc]
      exact h
    rw [sumWords, ih hrest, hadd, wordSum, Nat.add_assoc]
  | case2 sum a =>
    rw [wordSum] at h
    rw [sumWords, UInt32.toNat_add, toNat_oddByte, Nat.mod_eq_of_lt h, wordSum]
  | case3 sum => rfl

/-- **The folding loop** ends in the residue of the sum. -/
theorem toNat_foldCarries (sum : UInt32) :
    (foldCarries sum).toNat = residue 65536 sum.toNat := by
  induction sum using foldCarries.induct with
  | case1 sum h =>
    rw [foldCarries, if_pos h, residue_of_lt ((shiftRight_eq_zero_iff sum).mp h)]
  | case2 sum h ih => rw [foldCarries, if_neg h, ih, toNat_foldOnce, residue_fold (by omega)]

/-- **The checksum** is the complement of the one's-complement sum of the words. -/
theorem toNat_ipChecksum {data : List UInt8} (h : wordSum data < 2 ^ 32) :
    (ipChecksum data).toNat = 65535 - residue 65536 (wordSum data) := by
  have hlt := @residue_lt 65536 (wordSum data) (by omega)
  have hsum : (sumWords 0 data).toNat = wordSum data := by
    have hzero : (0 : UInt32).toNat = 0 := rfl
    rw [toNat_sumWords (by rw [hzero]; omega), hzero, Nat.zero_add]
  have hsize : UInt16.size = 65536 := rfl
  rw [ipChecksum, UInt16.toNat_not, UInt32.toNat_toUInt16, toNat_foldCarries, hsum,
    Nat.mod_eq_of_lt (by omega), hsize]

theorem wordSum_beBytes {n : ℕ} (h : n < 65536) : wordSum (beBytes 2 n) = n := by
  have hbytes : beBytes 2 n = [UInt8.ofNat (n / 256), UInt8.ofNat (n / 1)] := rfl
  rw [hbytes, wordSum, wordSum, UInt8.toNat_ofNat', UInt8.toNat_ofNat', Nat.div_one]
  omega

/-- A byte string that is not longer than a datagram does not overflow the accumulator. -/
theorem wordSum_lt {data : List UInt8} (h : data.length ≤ 65535) : wordSum data < 2 ^ 32 := by
  have hle := wordSum_le data
  omega

/-- **The checksum verifies.** Written over two zero bytes at an even offset, it makes the checksum
of the whole zero. -/
theorem ipChecksum_patched {pre post : List UInt8} (heven : pre.length % 2 = 0)
    (hlen : (pre ++ [0, 0] ++ post).length ≤ 65535) :
    ipChecksum (pre ++ beBytes 2 (ipChecksum (pre ++ [0, 0] ++ post)).toNat ++ post) = 0 := by
  have hzeros : wordSum [0, 0] = 0 := rfl
  have hsplit : ∀ word : List UInt8, word.length = 2 →
      wordSum (pre ++ word ++ post) = wordSum pre + wordSum word + wordSum post := by
    intro word hword
    have heven' : (pre ++ word).length % 2 = 0 := by
      rw [List.length_append, hword]
      omega
    rw [wordSum_append heven', wordSum_append heven]
  generalize hc : ipChecksum (pre ++ [0, 0] ++ post) = c
  have hlen' : (pre ++ beBytes 2 c.toNat ++ post).length ≤ 65535 := by
    rw [List.length_append, List.length_append] at hlen ⊢
    rw [length_beBytes]
    exact hlen
  have hvalue : c.toNat = 65535 - residue 65536 (wordSum (pre ++ [0, 0] ++ post)) := by
    rw [← hc]
    exact toNat_ipChecksum (wordSum_lt hlen)
  -- the patched sum is the old sum and its complement
  have hsum : wordSum (pre ++ beBytes 2 c.toNat ++ post) =
      wordSum (pre ++ [0, 0] ++ post) + (65536 - 1 - residue 65536 (wordSum (pre ++ [0, 0] ++ post))) := by
    rw [hsplit _ (length_beBytes 2 _), wordSum_beBytes c.toNat_lt, hsplit _ rfl, hzeros, hvalue,
      hsplit _ rfl, hzeros]
    omega
  apply UInt16.toNat_inj.mp
  rw [toNat_ipChecksum (wordSum_lt hlen'), hsum, residue_add_complement (by omega)]
  rfl

/-! ### One's-complement addition -/

/-- One's-complement addition of words: the carry out of the top bit comes back in at the bottom. -/
def onesAdd (a b : UInt16) : UInt16 :=
  if a.toNat + b.toNat < 2 ^ 16 then a + b else a + b + 1

/-- The one's-complement sum of words. -/
def onesSum (words : List UInt16) : UInt16 := words.foldl onesAdd 0

/-- The big-endian words of a byte string, with an odd last byte padded by a zero byte on the
right. -/
def beWords : List UInt8 → List UInt16
  | a :: b :: rest => u16FromBytes a b :: beWords rest
  | [a] => [u16FromBytes a 0]
  | [] => []

theorem toNat_onesAdd (a b : UInt16) :
    (onesAdd a b).toNat = residue 65536 (a.toNat + b.toNat) := by
  have ha := a.toNat_lt
  have hb := b.toNat_lt
  have hone : (1 : UInt16).toNat = 1 := rfl
  rw [residue_add_of_lt ha hb, onesAdd]
  by_cases hsum : a.toNat + b.toNat < 2 ^ 16
  · rw [if_pos hsum, if_pos hsum, UInt16.toNat_add, Nat.mod_eq_of_lt hsum]
  · rw [if_neg hsum, if_neg hsum, UInt16.toNat_add, UInt16.toNat_add, hone]
    omega

private theorem toNat_foldl_onesAdd (words : List UInt16) (acc : UInt16) :
    (words.foldl onesAdd acc).toNat =
      residue 65536 (acc.toNat + (words.map UInt16.toNat).sum) := by
  induction words generalizing acc with
  | nil => exact (residue_of_lt acc.toNat_lt).symm
  | cons word words ih =>
    rw [List.foldl_cons, ih, toNat_onesAdd, residue_residue_add, List.map_cons, List.sum_cons,
      Nat.add_assoc]

/-- The one's-complement sum is the residue of the sum. -/
theorem toNat_onesSum (words : List UInt16) :
    (onesSum words).toNat = residue 65536 (words.map UInt16.toNat).sum := by
  have hzero : (0 : UInt16).toNat = 0 := rfl
  rw [onesSum, toNat_foldl_onesAdd, hzero, Nat.zero_add]

theorem sum_beWords (data : List UInt8) : ((beWords data).map UInt16.toNat).sum = wordSum data := by
  induction data using beWords.induct with
  | case1 a b rest ih =>
    rw [beWords, List.map_cons, List.sum_cons, ih, toNat_u16FromBytes, wordSum]
  | case2 a =>
    have hzero : (0 : UInt8).toNat = 0 := rfl
    rw [beWords, List.map_cons, List.map_nil, List.sum_singleton, toNat_u16FromBytes, hzero,
      wordSum, Nat.add_zero]
  | case3 => rfl

/-- **The checksum** is the complement of the one's-complement sum. -/
theorem ipChecksum_eq_not_onesSum {data : List UInt8} (h : wordSum data < 2 ^ 32) :
    ipChecksum data = ~~~onesSum (beWords data) := by
  have hsize : UInt16.size = 65536 := rfl
  apply UInt16.toNat_inj.mp
  rw [toNat_ipChecksum h, UInt16.toNat_not, toNat_onesSum, sum_beWords, hsize]

/-! ### Checked arithmetic -/

/-- `u32` addition that stops on overflow. -/
def addChecked (a b : UInt32) : Option UInt32 :=
  if a.toNat + b.toNat < 2 ^ 32 then some (a + b) else none

/-- The summing loop from the index `i` on, and the odd last byte after it. It stops out of bounds,
on overflow, and after the given number of turns. -/
def sumLoop (data : List UInt8) : ℕ → ℕ → UInt32 → Option UInt32
  | 0, _, _ => none
  | turns + 1, i, sum =>
    if i + 1 < data.length then do
      let a ← data[i]?
      let b ← data[i + 1]?
      let sum ← addChecked sum (u16FromBytes a b).toUInt32
      sumLoop data turns (i + 2) sum
    else if i < data.length then do
      let a ← data[i]?
      addChecked sum (a.toUInt32 <<< 8)
    else some sum

/-- The folding loop. It stops on overflow and after the given number of turns. -/
def foldLoop : ℕ → UInt32 → Option UInt32
  | 0, _ => none
  | turns + 1, sum =>
    if sum >>> 16 = 0 then some sum
    else do
      let sum ← addChecked (sum &&& (0xffff : UInt32)) (sum >>> 16)
      foldLoop turns sum

/-- `ip_checksum` with checked access and arithmetic, and at most the given number of turns of each
loop. -/
def ipChecksumChecked (turns : ℕ) (data : List UInt8) : Option UInt16 := do
  let sum ← sumLoop data turns 0 0
  let sum ← foldLoop turns sum
  return ~~~sum.toUInt16

theorem addChecked_of_lt {a b : UInt32} (h : a.toNat + b.toNat < 2 ^ 32) :
    addChecked a b = some (a + b) := if_pos h

/-- **The summing loop** ends within half as many turns as there are bytes left and one more, does
not overflow if the sum fits, and ends in the sum. -/
theorem sumLoop_eq {data : List UInt8} {i turns : ℕ} {sum : UInt32}
    (hturns : (data.length - i) / 2 < turns)
    (hfits : sum.toNat + wordSum (data.drop i) < 2 ^ 32) :
    sumLoop data turns i sum = some (sumWords sum (data.drop i)) := by
  induction turns generalizing i sum with
  | zero => omega
  | succ turns ih =>
    have hlen : (data.drop i).length = data.length - i := List.length_drop
    have hfirst : (data.drop i)[0]? = data[i]? := List.getElem?_drop
    have hsecond : (data.drop i)[1]? = data[i + 1]? := List.getElem?_drop
    have hrest : (data.drop i).drop 2 = data.drop (i + 2) := List.drop_drop
    rw [sumLoop]
    generalize data.drop i = left at *
    -- as many bytes as one turn of the loop tells apart
    rcases left with _ | ⟨a, _ | ⟨b, rest⟩⟩
    · simp only [List.length_nil] at hlen
      rw [if_neg (by omega), if_neg (by omega), sumWords]
    · simp only [List.length_singleton] at hlen
      rw [wordSum, ← toNat_oddByte] at hfits
      rw [if_neg (by omega), if_pos (by omega), ← hfirst]
      exact addChecked_of_lt hfits
    · simp only [List.length_cons] at hlen
      rw [wordSum, ← toNat_word, ← Nat.add_assoc] at hfits
      have hadd : sum.toNat + (u16FromBytes a b).toUInt32.toNat < 2 ^ 32 :=
        lt_of_le_of_lt (Nat.le_add_right _ _) hfits
      have hsum : (sum + (u16FromBytes a b).toUInt32).toNat =
          sum.toNat + (u16FromBytes a b).toUInt32.toNat := by
        rw [UInt32.toNat_add, Nat.mod_eq_of_lt hadd]
      have hnext : rest = data.drop (i + 2) := hrest
      rw [if_pos (by omega), ← hfirst, ← hsecond]
      change addChecked sum (u16FromBytes a b).toUInt32 >>= sumLoop data turns (i + 2) = _
      rw [addChecked_of_lt hadd, sumWords, hnext]
      refine ih (by omega) ?_
      rw [hsum, ← hnext]
      exact hfits

/-- One turn of the folding loop. -/
private theorem foldLoop_step {turns : ℕ} {sum : UInt32}
    (hrest : sum >>> 16 ≠ 0 → foldLoop turns (foldOnce sum) = some (foldCarries (foldOnce sum))) :
    foldLoop (turns + 1) sum = some (foldCarries sum) := by
  rw [foldLoop, foldCarries]
  split
  · rfl
  · next hcarry =>
    have hlow : (sum &&& (0xffff : UInt32)).toNat < 65536 := by
      rw [toNat_low]
      exact Nat.mod_lt _ (by omega)
    have hhigh : (sum >>> 16).toNat < 65536 := by
      have hsum := sum.toNat_lt
      rw [toNat_high]
      omega
    rw [addChecked_of_lt (by omega)]
    exact hrest hcarry

/-- **The folding loop** ends within three turns, and does not overflow. -/
theorem foldLoop_eq {turns : ℕ} (hturns : 3 ≤ turns) (sum : UInt32) :
    foldLoop turns sum = some (foldCarries sum) := by
  obtain ⟨rest, rfl⟩ : ∃ rest, turns = rest + 3 := ⟨turns - 3, by omega⟩
  refine foldLoop_step fun _ => foldLoop_step fun _ => foldLoop_step fun hcarry => ?_
  -- two folds leave no carry
  have hlast := @fold_fold_lt 65536 sum.toNat sum.toNat_lt
  rw [ne_eq, shiftRight_eq_zero_iff, toNat_foldOnce, toNat_foldOnce] at hcarry
  exact absurd hlast hcarry

/-- **No fault.** Nothing overflows or is out of bounds, and both loops end. -/
theorem ipChecksumChecked_eq {data : List UInt8} {turns : ℕ} (hdata : data.length ≤ 65535)
    (hturns : data.length / 2 + 3 ≤ turns) :
    ipChecksumChecked turns data = some (ipChecksum data) := by
  have hfits : (0 : UInt32).toNat + wordSum (data.drop 0) < 2 ^ 32 := by
    have hzero : (0 : UInt32).toNat = 0 := rfl
    rw [List.drop_zero, hzero, Nat.zero_add]
    exact wordSum_lt hdata
  have hsum : sumLoop data turns 0 0 = some (sumWords 0 data) := sumLoop_eq (by omega) hfits
  have hfold : foldLoop turns (sumWords 0 data) = some (foldCarries (sumWords 0 data)) :=
    foldLoop_eq (by omega) _
  rw [ipChecksumChecked, hsum, Option.bind_eq_bind, Option.bind_some, hfold]
  rfl

/-! ### Writing the checksum -/

/-- Write a number over two bytes of a buffer, `to_be_bytes` byte by byte. -/
def writeU16 (data : List UInt8) (k : ℕ) (value : UInt16) : List UInt8 :=
  let bytes := beBytes 2 value.toNat
  (data.set k (bytes.getD 0 0)).set (k + 1) (bytes.getD 1 0)

/-- Two bytes in the middle are written one after the other. -/
private theorem set_set_append {α : Type} {front back : List α} {a b x y : α} {n : ℕ}
    (h : front.length = n) :
    ((front ++ a :: b :: back).set n x).set (n + 1) y = front ++ x :: y :: back := by
  subst h
  rw [List.set_append_right _ _ (by omega), List.set_append_right _ _ (by omega), Nat.sub_self,
    Nat.add_sub_cancel_left]
  rfl

theorem writeU16_append {front back : List UInt8} {k : ℕ} (hk : front.length = k)
    (value : UInt16) :
    writeU16 (front ++ [0, 0] ++ back) k value = front ++ beBytes 2 value.toNat ++ back := by
  obtain ⟨high, low, hbytes⟩ : ∃ high low, beBytes 2 value.toNat = [high, low] := ⟨_, _, rfl⟩
  rw [writeU16, hbytes, List.append_assoc, List.append_assoc]
  exact set_set_append hk

/-- A buffer around two zero bytes. -/
theorem eq_append_zeros {data : List UInt8} {k : ℕ} (hfirst : data[k]? = some 0)
    (hsecond : data[k + 1]? = some 0) :
    data = data.take k ++ [0, 0] ++ data.drop (k + 2) := by
  obtain ⟨hlt, hvalue⟩ := List.getElem?_eq_some_iff.mp hfirst
  obtain ⟨hlt', hvalue'⟩ := List.getElem?_eq_some_iff.mp hsecond
  have hdrop : data.drop k = 0 :: 0 :: data.drop (k + 2) := by
    rw [List.drop_eq_getElem_cons hlt, List.drop_eq_getElem_cons hlt', hvalue, hvalue']
  calc data = data.take k ++ data.drop k := (List.take_append_drop k data).symm
    _ = data.take k ++ [0, 0] ++ data.drop (k + 2) := by rw [hdrop, List.append_assoc]; rfl

/-- **The checksum of IP.** For every byte string of at most 65535 bytes: the computation neither
overflows nor leaves the data, and its loops end; the result is the complement of the
one's-complement sum of the words; and written over two zero bytes at an even offset, it makes the
checksum zero. -/
theorem ipChecksum_correct (data : List UInt8) (hdata : data.length ≤ 65535) :
    (∀ turns, data.length / 2 + 3 ≤ turns →
      ipChecksumChecked turns data = some (ipChecksum data)) ∧
    ipChecksum data = ~~~onesSum (beWords data) ∧
    ∀ k, k % 2 = 0 → k + 1 < data.length → data[k]? = some 0 → data[k + 1]? = some 0 →
      ipChecksum (writeU16 data k (ipChecksum data)) = 0 := by
  refine ⟨fun turns hturns => ipChecksumChecked_eq hdata hturns,
    ipChecksum_eq_not_onesSum (wordSum_lt hdata), fun k heven hk hfirst hsecond => ?_⟩
  have hsplit := eq_append_zeros hfirst hsecond
  have hfront : (data.take k).length = k := List.length_take_of_le (by omega)
  generalize data.take k = front at hsplit hfront
  generalize data.drop (k + 2) = back at hsplit
  subst hsplit
  rw [writeU16_append hfront]
  exact ipChecksum_patched (by omega) hdata

/-- The checksum of five bytes, written over the second word. -/
theorem ipChecksum_correct_odd :
    ([0x45, 0x10, 0, 0, 0xff] : List UInt8).length ≤ 65535 ∧
      ipChecksumChecked 5 [0x45, 0x10, 0, 0, 0xff] =
        some (ipChecksum [0x45, 0x10, 0, 0, 0xff]) ∧
      ipChecksum [0x45, 0x10, 0, 0, 0xff] = 0xbbee ∧
      ipChecksum [0x45, 0x10, 0xbb, 0xee, 0xff] = 0 := by
  obtain ⟨hchecked, hsum, hwritten⟩ := ipChecksum_correct [0x45, 0x10, 0, 0, 0xff] (by decide)
  have hvalue : ipChecksum [0x45, 0x10, 0, 0, 0xff] = 0xbbee := by
    rw [hsum]
    decide
  have hzero := hwritten 2 (by decide) (by decide) rfl rfl
  rw [hvalue] at hzero
  exact ⟨by decide, hchecked 5 (by decide), hvalue, hzero⟩

end Ndhcpd
