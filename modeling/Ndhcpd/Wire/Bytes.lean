import Mathlib.Tactic.Common
import Mathlib.Tactic.Ring

/-!
# Bytes: big-endian numbers and UTF-8 text

The two encodings a binary protocol mixes.

* **Big-endian numbers.** `beBytes k n` writes the low `8 * k` bits of `n` most significant
  byte first, `beNat` reads such a sequence back; `beNat_beBytes` is the round trip.
* **Text.** `utf8Bytes` lists the UTF-8 bytes of a string. `fromUtf8Lossy` reads arbitrary
  bytes as text the way `String::from_utf8_lossy` does: well-formed sequences become their
  scalar value, and every maximal ill-formed sequence becomes one `U+FFFD`. On the bytes
  of a string it is the identity (`fromUtf8Lossy_utf8Bytes`), and on a text that was cut
  short it gives another text (`fromUtf8Lossy_take_ne`).
-/

namespace Ndhcpd

/-! ### Big-endian numbers -/

/-- The low `8 * k` bits of `n`, most significant byte first. -/
def beBytes : ℕ → ℕ → List UInt8
  | 0, _ => []
  | k + 1, n => UInt8.ofNat (n / 256 ^ k) :: beBytes k n

/-- The number a byte sequence denotes, most significant byte first. -/
def beNat (bytes : List UInt8) : ℕ := bytes.foldl (fun acc b => acc * 256 + b.toNat) 0

@[simp] theorem length_beBytes (k n : ℕ) : (beBytes k n).length = k := by
  induction k with
  | zero => rfl
  | succ k ih => simp [beBytes, ih]

private theorem foldl_be_eq (bytes : List UInt8) (acc : ℕ) :
    bytes.foldl (fun acc b => acc * 256 + b.toNat) acc =
      acc * 256 ^ bytes.length + beNat bytes := by
  induction bytes generalizing acc with
  | nil => simp [beNat]
  | cons b bytes ih =>
    rw [beNat, List.foldl_cons, List.foldl_cons, ih, ih (0 * 256 + b.toNat),
      List.length_cons, Nat.pow_succ]
    ring

theorem beNat_cons (b : UInt8) (bytes : List UInt8) :
    beNat (b :: bytes) = b.toNat * 256 ^ bytes.length + beNat bytes := by
  rw [beNat, List.foldl_cons, foldl_be_eq]
  simp

/-- Writing and reading back keeps the low bits. -/
theorem beNat_beBytes (k n : ℕ) : beNat (beBytes k n) = n % 256 ^ k := by
  induction k with
  | zero => simp [beBytes, beNat, Nat.mod_one]
  | succ k ih =>
    have hbyte : (UInt8.ofNat (n / 256 ^ k)).toNat = n / 256 ^ k % 256 := UInt8.toNat_ofNat'
    rw [beBytes, beNat_cons, length_beBytes, ih, hbyte, Nat.pow_succ, Nat.mod_mul,
      Nat.mul_comm (256 ^ k), Nat.add_comm]

theorem beNat_beBytes_of_lt {k n : ℕ} (h : n < 256 ^ k) : beNat (beBytes k n) = n := by
  rw [beNat_beBytes, Nat.mod_eq_of_lt h]

/-- Words of `k` bytes, one after another. -/
theorem length_flatMap_words {α : Type} {k : ℕ} {write : α → List UInt8}
    (hwrite : ∀ a, (write a).length = k) (words : List α) :
    (words.flatMap write).length = k * words.length := by
  induction words with
  | nil => rfl
  | cons a words ih =>
    rw [List.flatMap_cons, List.length_append, hwrite, ih, List.length_cons, Nat.mul_succ,
      Nat.add_comm]

/-! ### UTF-8 text -/

/-- The UTF-8 bytes of a string. -/
def utf8Bytes (s : String) : List UInt8 := s.toByteArray.data.toList

theorem utf8Bytes_eq (s : String) : utf8Bytes s = s.toList.flatMap String.utf8EncodeChar := by
  rw [utf8Bytes, ← String.utf8Encode_toList, List.utf8Encode]
  simp

/-- An ASCII character is one byte. -/
theorem utf8EncodeChar_of_lt {c : Char} (h : c.toNat < 128) :
    String.utf8EncodeChar c = [UInt8.ofNat c.toNat] :=
  if_pos (Nat.le_of_lt_succ h)

/-- ASCII bytes, read one by one, are the bytes of the text. -/
theorem utf8Bytes_map_ofNat {bytes : List UInt8} (h : ∀ b ∈ bytes, b.toNat < 128) :
    utf8Bytes (String.ofList (bytes.map fun b => Char.ofNat b.toNat)) = bytes := by
  have hascii : ∀ n < 128, (Char.ofNat n).toNat = n := by decide
  rw [utf8Bytes_eq, String.toList_ofList]
  induction bytes with
  | nil => rfl
  | cons b bytes ih =>
    obtain ⟨hb, hrest⟩ := List.forall_mem_cons.mp h
    have hnat := hascii b.toNat hb
    have hlt : (Char.ofNat b.toNat).toNat < 128 := by omega
    rw [List.map_cons, List.flatMap_cons, ih hrest, utf8EncodeChar_of_lt hlt, hnat,
      UInt8.ofNat_toNat]
    rfl

/-- The scalar value a byte sequence starts with, when it starts with a well-formed one. -/
def decodeFirst (bytes : List UInt8) : Option Char := bytes.toByteArray.utf8DecodeChar? 0

theorem decodeFirst_encode (c : Char) (rest : List UInt8) :
    decodeFirst (String.utf8EncodeChar c ++ rest) = some c := by
  rw [decodeFirst, List.toByteArray_append]
  exact ByteArray.utf8DecodeChar?_utf8EncodeChar_append

/-- A continuation byte `10xxxxxx`. -/
def isContinuation (b : UInt8) : Bool := 0x80 ≤ b && b ≤ 0xBF

/-- May `s` follow the lead byte `b` of a three-byte sequence? -/
def validSecondOfThree (b s : UInt8) : Bool :=
  (b == 0xE0 && 0xA0 ≤ s && s ≤ 0xBF) || (0xE1 ≤ b && b ≤ 0xEC && isContinuation s) ||
    (b == 0xED && 0x80 ≤ s && s ≤ 0x9F) || (0xEE ≤ b && b ≤ 0xEF && isContinuation s)

/-- May `s` follow the lead byte `b` of a four-byte sequence? -/
def validSecondOfFour (b s : UInt8) : Bool :=
  (b == 0xF0 && 0x90 ≤ s && s ≤ 0xBF) || (0xF1 ≤ b && b ≤ 0xF3 && isContinuation s) ||
    (b == 0xF4 && 0x80 ≤ s && s ≤ 0x8F)

/-- How many bytes the ill-formed sequence at the front covers: the longest prefix that
could still have been completed, and at least one byte. -/
def illFormedLength : List UInt8 → ℕ
  | b :: s :: t :: _ =>
    if validSecondOfThree b s then 2
    else if validSecondOfFour b s then if isContinuation t then 3 else 2
    else 1
  | [b, s] => if validSecondOfThree b s || validSecondOfFour b s then 2 else 1
  | _ => 1

theorem illFormedLength_pos (bytes : List UInt8) : 0 < illFormedLength bytes := by
  unfold illFormedLength
  repeat' split
  all_goals omega

/-- The characters of a byte sequence, every maximal ill-formed sequence replaced by
`U+FFFD`. -/
def lossyChars (bytes : List UInt8) : List Char :=
  if _h : bytes = [] then []
  else
    match decodeFirst bytes with
    | some c => c :: lossyChars (bytes.drop c.utf8Size)
    | none => '\uFFFD' :: lossyChars (bytes.drop (illFormedLength bytes))
termination_by bytes.length
decreasing_by
  · have hpos : 0 < bytes.length := List.length_pos_iff.mpr _h
    have hsize := c.utf8Size_pos
    simp only [List.length_drop]
    omega
  · have hpos : 0 < bytes.length := List.length_pos_iff.mpr _h
    have hbad := illFormedLength_pos bytes
    simp only [List.length_drop]
    omega

/-- Bytes read as text, ill-formed parts replaced. -/
def fromUtf8Lossy (bytes : List UInt8) : String := String.ofList (lossyChars bytes)

@[simp] theorem lossyChars_nil : lossyChars [] = [] := by
  rw [lossyChars, dif_pos rfl]

theorem lossyChars_encode_append (c : Char) (rest : List UInt8) :
    lossyChars (String.utf8EncodeChar c ++ rest) = c :: lossyChars rest := by
  have hne : String.utf8EncodeChar c ++ rest ≠ [] := by
    simp [String.utf8EncodeChar_ne_nil]
  have hdrop : (String.utf8EncodeChar c ++ rest).drop c.utf8Size = rest :=
    List.drop_left' (String.length_utf8EncodeChar c)
  rw [lossyChars, dif_neg hne, decodeFirst_encode]
  simp only [hdrop]

/-- A well-formed front part is read exactly. -/
theorem lossyChars_flatMap_append (cs : List Char) (rest : List UInt8) :
    lossyChars (cs.flatMap String.utf8EncodeChar ++ rest) = cs ++ lossyChars rest := by
  induction cs with
  | nil => rfl
  | cons c cs ih =>
    rw [List.flatMap_cons, List.append_assoc, lossyChars_encode_append, ih, List.cons_append]

/-- **Text survives the round trip.** -/
theorem fromUtf8Lossy_utf8Bytes (s : String) : fromUtf8Lossy (utf8Bytes s) = s := by
  have h := lossyChars_flatMap_append s.toList []
  rw [List.append_nil, lossyChars_nil, List.append_nil] at h
  rw [fromUtf8Lossy, utf8Bytes_eq, h, String.ofList_toList]

theorem utf8Bytes_injective : Function.Injective utf8Bytes := by
  intro s s' h
  rw [← fromUtf8Lossy_utf8Bytes s, h, fromUtf8Lossy_utf8Bytes]

/-- Every byte contributes at most one character. -/
theorem length_lossyChars_le (bytes : List UInt8) :
    (lossyChars bytes).length ≤ bytes.length := by
  induction bytes using lossyChars.induct with
  | case1 => simp
  | case2 bytes h c hc ih =>
    have hpos : 0 < bytes.length := List.length_pos_iff.mpr h
    have hsize := c.utf8Size_pos
    rw [lossyChars, dif_neg h, hc]
    simp only [List.length_cons, List.length_drop] at ih ⊢
    omega
  | case3 bytes h hc ih =>
    have hpos : 0 < bytes.length := List.length_pos_iff.mpr h
    have hbad := illFormedLength_pos bytes
    rw [lossyChars, dif_neg h, hc]
    simp only [List.length_cons, List.length_drop] at ih ⊢
    omega

/-- A text cut after `k` bytes is a number of whole characters and less than one more. -/
theorem take_flatMap_encode (cs : List Char) (k : ℕ) :
    ∃ j part, (cs.flatMap String.utf8EncodeChar).take k =
        (cs.take j).flatMap String.utf8EncodeChar ++ part ∧ part.length ≤ 3 ∧
      ((cs.take j).flatMap String.utf8EncodeChar).length ≤ k := by
  induction cs generalizing k with
  | nil => exact ⟨0, [], by simp⟩
  | cons c cs ih =>
    have hlen : (String.utf8EncodeChar c).length = c.utf8Size := String.length_utf8EncodeChar c
    rcases Nat.lt_or_ge k c.utf8Size with hk | hk
    · -- the cut falls inside the first character, which has at most four bytes
      have hfour := c.utf8Size_le_four
      refine ⟨0, (String.utf8EncodeChar c).take k, ?_, ?_, by simp⟩
      · rw [List.flatMap_cons, List.take_append_of_le_length (by omega)]
        rfl
      · rw [List.length_take]
        omega
    · obtain ⟨j, part, heq, hpart, hle⟩ := ih (k - c.utf8Size)
      refine ⟨j + 1, part, ?_, hpart, ?_⟩
      · rw [List.flatMap_cons, List.take_append, List.take_of_length_le (by omega), hlen, heq,
          List.take_succ_cons, List.flatMap_cons, List.append_assoc]
      · rw [List.take_succ_cons, List.flatMap_cons, List.length_append, hlen]
        omega

theorem length_flatMap_encode_le (cs : List Char) :
    (cs.flatMap String.utf8EncodeChar).length ≤ 4 * cs.length := by
  induction cs with
  | nil => simp
  | cons c cs ih =>
    have hfour := c.utf8Size_le_four
    rw [List.flatMap_cons, List.length_append, String.length_utf8EncodeChar, List.length_cons]
    omega

/-- **A text that loses sixteen or more bytes is noticed**: read back it has fewer
characters. -/
theorem fromUtf8Lossy_take_ne (s : String) {k : ℕ} (hk : k + 16 ≤ (utf8Bytes s).length) :
    fromUtf8Lossy ((utf8Bytes s).take k) ≠ s := by
  intro heq
  rw [utf8Bytes_eq] at heq hk
  obtain ⟨j, part, htake, hpart, hle⟩ := take_flatMap_encode s.toList k
  rw [fromUtf8Lossy, htake, lossyChars_flatMap_append] at heq
  have hchars : s.toList.take j ++ lossyChars part = s.toList := by
    rw [← String.toList_ofList (l := s.toList.take j ++ lossyChars part), heq]
  have hlen := congrArg List.length hchars
  have hshort := length_lossyChars_le part
  -- the characters beyond the `j`-th account for at least sixteen bytes
  have hsplit : s.toList.flatMap String.utf8EncodeChar =
      (s.toList.take j).flatMap String.utf8EncodeChar ++
        (s.toList.drop j).flatMap String.utf8EncodeChar := by
    rw [← List.flatMap_append, List.take_append_drop]
  have hrest := length_flatMap_encode_le (s.toList.drop j)
  rw [hsplit, List.length_append] at hk
  rw [List.length_append] at hlen
  have hdrop := congrArg List.length (List.take_append_drop j s.toList)
  rw [List.length_append] at hdrop
  omega

end Ndhcpd
