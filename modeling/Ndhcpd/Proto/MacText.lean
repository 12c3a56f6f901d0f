import Ndhcpd.Proto.Address
import Mathlib.Data.List.Basic

/-!
# Reading MAC addresses

`MacAddress.fromString` splits a string at the colons and reads each of the six groups with
`u8::from_str_radix`. That reader is more generous than the format `XX:XX:XX:XX:XX:XX` the
function documents: it takes a plus sign in front, and any number of digits as long as their value
fits a byte. So `a:b:c:d:e:f` and `+a:b:c:d:e:f` are addresses too.

`fromString_iff_format_iff` says exactly on which strings the function follows the documentation: on all
but those that are written loosely. On these it returns an address, and their text is not the
key under which the database knows it.
-/

namespace Ndhcpd

/-! ### Hexadecimal digits -/

/-- `char::to_digit(16)`. -/
def toHexDigit (c : Char) : Option ℕ :=
  if '0' ≤ c ∧ c ≤ '9' then some (c.toNat - '0'.toNat)
  else if 'a' ≤ c ∧ c ≤ 'f' then some (c.toNat - 'a'.toNat + 10)
  else if 'A' ≤ c ∧ c ≤ 'F' then some (c.toNat - 'A'.toNat + 10)
  else none

/-- The character is a hexadecimal digit of either case. -/
def IsHexDigit (c : Char) : Prop := (toHexDigit c).isSome = true

instance (c : Char) : Decidable (IsHexDigit c) := inferInstanceAs (Decidable (_ = _))

/-- The digit loop of `from_str_radix`, with the value `acc` of the digits so far: it stops at a
character that is not a digit, and when the value no longer fits a byte. -/
def readHexDigits : ℕ → List Char → Option ℕ
  | acc, [] => some acc
  | acc, c :: cs =>
    match toHexDigit c with
    | none => none
    | some d => if acc * 16 + d < 256 then readHexDigits (acc * 16 + d) cs else none

/-- `u8::from_str_radix(part, 16)`. A sign alone is an error; a minus sign is no digit of an
unsigned number. -/
def fromStrRadix16 : List Char → Option UInt8
  | [] => none
  | '+' :: [] => none
  | '-' :: [] => none
  | '+' :: digits => (readHexDigits 0 digits).map UInt8.ofNat
  | digits => (readHexDigits 0 digits).map UInt8.ofNat

/-- Parse a MAC address from a string. -/
def MacAddress.fromString (s : String) : Option MacAddress :=
  let parts := s.toList.splitOn ':'
  if parts.length ≠ 6 then none
  else (parts.mapM fromStrRadix16).bind MacAddress.fromSlice

private theorem ascii_toHexDigit : ∀ n < 128, ∀ d < 16,
    toHexDigit (Char.ofNat n) = some d ↔ (Char.ofNat n).toLower = d.digitChar := by
  decide +kernel

private theorem ascii_toHexDigit_lt :
    ∀ n < 128, (toHexDigit (Char.ofNat n)).all (· < 16) = true := by
  decide +kernel

private theorem digitChar_lt_128 : ∀ d < 16, d.digitChar.toNat < 128 := by
  decide

/-- There are no digits beyond ASCII. -/
theorem toHexDigit_eq_none {c : Char} (h : 128 ≤ c.toNat) : toHexDigit c = none := by
  have hbeyond : ∀ y : Char, y.toNat < 128 → ¬ c ≤ y := by
    intro y hy hcy
    have hle : c.toNat ≤ y.toNat := hcy
    omega
  rw [toHexDigit, if_neg fun hc => hbeyond '9' (by decide) hc.2,
    if_neg fun hc => hbeyond 'f' (by decide) hc.2, if_neg fun hc => hbeyond 'F' (by decide) hc.2]

theorem toHexDigit_lt {c : Char} {d : ℕ} (h : toHexDigit c = some d) : d < 16 := by
  have hascii : c.toNat < 128 := by
    by_contra hbeyond
    rw [toHexDigit_eq_none (by omega)] at h
    cases h
  have hall := ascii_toHexDigit_lt c.toNat hascii
  rw [Char.ofNat_toNat, h] at hall
  simpa using hall

/-- A digit is told by its lower-case form. -/
theorem toHexDigit_eq_some_iff {c : Char} {d : ℕ} :
    toHexDigit c = some d ↔ d < 16 ∧ c.toLower = d.digitChar := by
  by_cases hascii : c.toNat < 128
  · constructor
    · intro h
      have hd := toHexDigit_lt h
      have hiff := ascii_toHexDigit c.toNat hascii d hd
      rw [Char.ofNat_toNat] at hiff
      exact ⟨hd, hiff.mp h⟩
    · rintro ⟨hd, h⟩
      have hiff := ascii_toHexDigit c.toNat hascii d hd
      rw [Char.ofNat_toNat] at hiff
      exact hiff.mpr h
  · -- beyond ASCII nothing is lowered to a digit
    have hlower : c.toLower = c := by
      unfold Char.toLower
      rw [dif_neg]
      rintro ⟨-, hZ⟩
      have hle : c.toNat ≤ 90 := hZ
      omega
    rw [toHexDigit_eq_none (by omega), hlower]
    constructor
    · intro h
      cases h
    · rintro ⟨hd, h⟩
      have hlt := digitChar_lt_128 d hd
      rw [← h] at hlt
      omega

/-! ### Groups -/

/-- The value of a string of digits, after digits of the value `acc`. -/
def hexValue (acc : ℕ) (digits : List Char) : ℕ :=
  digits.foldl (fun acc c => acc * 16 + (toHexDigit c).getD 0) acc

theorem le_hexValue (acc : ℕ) (digits : List Char) : acc ≤ hexValue acc digits := by
  induction digits generalizing acc with
  | nil => exact le_rfl
  | cons c cs ih =>
    have hle := ih (acc * 16 + (toHexDigit c).getD 0)
    exact le_trans (by omega) hle

/-- **The digit loop** succeeds exactly on digits whose value fits a byte. -/
theorem readHexDigits_eq_some_iff {acc n : ℕ} (hacc : acc < 256) (digits : List Char) :
    readHexDigits acc digits = some n ↔
      (∀ c ∈ digits, IsHexDigit c) ∧ hexValue acc digits = n ∧ n < 256 := by
  induction digits generalizing acc with
  | nil =>
    simp only [readHexDigits, hexValue, List.foldl_nil, Option.some.injEq, List.not_mem_nil,
      false_implies, implies_true, true_and]
    exact ⟨fun h => ⟨h, h ▸ hacc⟩, fun h => h.1⟩
  | cons c cs ih =>
    rw [readHexDigits]
    cases hd : toHexDigit c with
    | none =>
      simp only [reduceCtorEq, false_iff, not_and, List.forall_mem_cons]
      rintro ⟨hc, -⟩
      rw [IsHexDigit, hd] at hc
      cases hc
    | some d =>
      have hc : IsHexDigit c := by rw [IsHexDigit, hd, Option.isSome_some]
      have hvalue : hexValue acc (c :: cs) = hexValue (acc * 16 + d) cs := by
        rw [hexValue, List.foldl_cons, hd]
        rfl
      have hle := le_hexValue (acc * 16 + d) cs
      rw [hvalue, List.forall_mem_cons]
      simp only
      split
      · next hfits =>
        rw [ih hfits]
        simp only [hc, true_and]
      · -- the value only grows, so it does not fit at the end either
        next hover =>
        simp only [reduceCtorEq, false_iff, not_and]
        intro _ hn
        omega

/-- What `from_str_radix` accepts: a plus sign or none, and at least one digit, with a value that
fits a byte. -/
def ReadableGroup (group : List Char) : Prop :=
  ∃ digits, (group = digits ∨ group = '+' :: digits) ∧ digits ≠ [] ∧
    (∀ c ∈ digits, IsHexDigit c) ∧ hexValue 0 digits < 256

/-- What the documented format consists of: exactly two digits. -/
def IsOctetText (group : List Char) : Prop := group.length = 2 ∧ ∀ c ∈ group, IsHexDigit c

instance (group : List Char) : Decidable (IsOctetText group) :=
  inferInstanceAs (Decidable (_ ∧ _))

private theorem not_isHexDigit_sign : ¬ IsHexDigit '+' ∧ ¬ IsHexDigit '-' := by
  decide

theorem not_isHexDigit_colon : ¬ IsHexDigit ':' := by
  decide

private theorem fromStrRadix16_digits {digits : List Char} (hne : digits ≠ [])
    (hdigits : ∀ c ∈ digits, IsHexDigit c) :
    fromStrRadix16 digits = (readHexDigits 0 digits).map UInt8.ofNat := by
  unfold fromStrRadix16
  split
  · exact absurd rfl hne
  · exact absurd (hdigits '+' (by simp)) not_isHexDigit_sign.1
  · exact absurd (hdigits '-' (by simp)) not_isHexDigit_sign.2
  · exact absurd (hdigits '+' (by simp)) not_isHexDigit_sign.1
  · rfl

private theorem fromStrRadix16_plus {digits : List Char} (hne : digits ≠ []) :
    fromStrRadix16 ('+' :: digits) = (readHexDigits 0 digits).map UInt8.ofNat := by
  cases digits with
  | nil => exact absurd rfl hne
  | cons c cs => rfl

/-- A group is read exactly if it is readable. -/
theorem exists_fromStrRadix16_iff {group : List Char} :
    (∃ b, fromStrRadix16 group = some b) ↔ ReadableGroup group := by
  constructor
  · rintro ⟨b, h⟩
    have hread : ∀ digits, digits ≠ [] → (group = digits ∨ group = '+' :: digits) →
        (readHexDigits 0 digits).map UInt8.ofNat = some b → ReadableGroup group := by
      intro digits hne hgroup h
      obtain ⟨n, hn, -⟩ := Option.map_eq_some_iff.mp h
      obtain ⟨hdigits, hvalue, hlt⟩ := (readHexDigits_eq_some_iff (by omega) digits).mp hn
      exact ⟨digits, hgroup, hne, hdigits, hvalue ▸ hlt⟩
    unfold fromStrRadix16 at h
    split at h
    · cases h
    · cases h
    · cases h
    · next digits hne =>
      exact hread digits (fun hnil => hne (hnil ▸ rfl)) (.inr rfl) h
    · next hne _ _ _ => exact hread _ (fun hnil => hne hnil) (.inl rfl) h
  · rintro ⟨digits, hgroup, hne, hdigits, hlt⟩
    have hn := (readHexDigits_eq_some_iff (by omega : 0 < 256) digits).mpr ⟨hdigits, rfl, hlt⟩
    rcases hgroup with rfl | rfl
    · exact ⟨_, by rw [fromStrRadix16_digits hne hdigits, hn]; rfl⟩
    · exact ⟨_, by rw [fromStrRadix16_plus hne, hn]; rfl⟩

/-- The two digits of an octet. -/
theorem IsOctetText.digits {group : List Char} (h : IsOctetText group) :
    ∃ d₁ < 16, ∃ d₂ < 16, hexValue 0 group = d₁ * 16 + d₂ ∧
      group.map Char.toLower = [d₁.digitChar, d₂.digitChar] ∧ group ≠ [] := by
  obtain ⟨hlen, hdigits⟩ := h
  obtain ⟨c₁, c₂, rfl⟩ := List.length_eq_two.mp hlen
  obtain ⟨d₁, hd₁⟩ := Option.isSome_iff_exists.mp (hdigits c₁ (by simp))
  obtain ⟨d₂, hd₂⟩ := Option.isSome_iff_exists.mp (hdigits c₂ (by simp))
  obtain ⟨hlt₁, hlower₁⟩ := toHexDigit_eq_some_iff.mp hd₁
  obtain ⟨hlt₂, hlower₂⟩ := toHexDigit_eq_some_iff.mp hd₂
  refine ⟨d₁, hlt₁, d₂, hlt₂, ?_, ?_, by simp⟩
  · simp only [hexValue, List.foldl_cons, List.foldl_nil, hd₁, hd₂, Option.getD_some]
    omega
  · rw [List.map_cons, List.map_cons, List.map_nil, hlower₁, hlower₂]

/-- Two digits are read as the byte that is written with them. -/
theorem fromStrRadix16_octet_iff {group : List Char} (h : IsOctetText group) {b : UInt8} :
    fromStrRadix16 group = some b ↔ group.map Char.toLower = hexByte b := by
  obtain ⟨d₁, hlt₁, d₂, hlt₂, hvalue, hlower, hne⟩ := h.digits
  have hread : fromStrRadix16 group = some (UInt8.ofNat (d₁ * 16 + d₂)) := by
    rw [fromStrRadix16_digits hne h.2,
      (readHexDigits_eq_some_iff (by omega) group).mpr ⟨h.2, hvalue, by omega⟩, Option.map_some]
  -- the byte with these two halves is written with the digits of the halves
  have hwritten : group.map Char.toLower = hexByte (UInt8.ofNat (d₁ * 16 + d₂)) := by
    have hbyte : (UInt8.ofNat (d₁ * 16 + d₂)).toNat = d₁ * 16 + d₂ := by
      rw [UInt8.toNat_ofNat', Nat.mod_eq_of_lt (by omega)]
    have hhigh : (d₁ * 16 + d₂) / 16 = d₁ := by omega
    have hlow : (d₁ * 16 + d₂) % 16 = d₂ := by omega
    rw [hlower, hexByte, hbyte, hhigh, hlow]
  rw [hread, hwritten, Option.some.injEq]
  exact ⟨fun h => congrArg hexByte h, hexByte_injective⟩

theorem isOctetText_hexByte (b : UInt8) : IsOctetText (hexByte b) := by
  have hb := b.toNat_lt
  have hdigit : ∀ d < 16, IsHexDigit d.digitChar := by decide
  refine ⟨rfl, fun c hc => ?_⟩
  simp only [hexByte, List.mem_cons, List.not_mem_nil, or_false] at hc
  rcases hc with rfl | rfl
  · exact hdigit _ (by omega)
  · exact hdigit _ (by omega)

/-! ### Addresses -/

private theorem mapM_eq_some_iff {α β : Type} {f : α → Option β} {l : List α} {bs : List β} :
    l.mapM f = some bs ↔ l.map f = bs.map some := by
  induction l generalizing bs with
  | nil =>
    rw [List.mapM_nil, List.map_nil, eq_comm (a := []), List.map_eq_nil_iff]
    exact ⟨fun h => (Option.some.inj h).symm, fun h => h ▸ rfl⟩
  | cons a l ih =>
    rw [List.mapM_cons, List.map_cons]
    cases hfa : f a with
    | none =>
      cases bs with
      | nil => simp
      | cons b bs => simp
    | some b =>
      cases hl : l.mapM f with
      | none =>
        cases bs with
        | nil => simp
        | cons b' bs =>
          have hne : l.map f ≠ bs.map some := fun h => by simp [ih.mpr h] at hl
          simp [hne]
      | some bs' =>
        rw [ih.mp hl]
        cases bs with
        | nil => simp
        | cons b' bs => simp [List.map_inj_right]

theorem MacAddress.fromSlice_eq_some_iff {bytes : List UInt8} (h : bytes.length = 6)
    {m : MacAddress} : fromSlice bytes = some m ↔ bytes = m.asBytes := by
  obtain ⟨b0, b1, b2, b3, b4, b5, rfl⟩ : ∃ b0 b1 b2 b3 b4 b5, bytes = [b0, b1, b2, b3, b4, b5] := by
    match bytes, h with
    | [b0, b1, b2, b3, b4, b5], _ => exact ⟨b0, b1, b2, b3, b4, b5, rfl⟩
  obtain ⟨m0, m1, m2, m3, m4, m5⟩ := m
  simp [fromSlice, asBytes]

/-- **The reader.** An address is read exactly if the groups are read as its bytes. -/
theorem MacAddress.fromString_eq_some_iff {s : String} {m : MacAddress} :
    fromString s = some m ↔ (s.toList.splitOn ':').map fromStrRadix16 = m.asBytes.map some := by
  rw [fromString]
  by_cases hsix : (s.toList.splitOn ':').length = 6
  · simp only [hsix, ne_eq, not_true_eq_false, if_false]
    constructor
    · intro h
      obtain ⟨bytes, hbytes, hm⟩ := Option.bind_eq_some_iff.mp h
      have hmap := mapM_eq_some_iff.mp hbytes
      have hlen : bytes.length = 6 := by
        have := congrArg List.length hmap
        rw [List.length_map, List.length_map] at this
        omega
      rw [hmap, (fromSlice_eq_some_iff hlen).mp hm]
    · intro h
      rw [mapM_eq_some_iff.mpr h, Option.bind_some]
      exact (fromSlice_eq_some_iff rfl).mpr rfl
  · simp only [ne_eq, hsix, not_false_eq_true, if_true, reduceCtorEq, false_iff]
    intro h
    have hlen := congrArg List.length h
    rw [List.length_map, List.length_map, length_asBytes] at hlen
    exact hsix hlen

/-- The documented format: six groups of exactly two digits, separated by colons. -/
def IsMacFormat (s : String) : Prop :=
  ∃ groups : List (List Char), groups.length = 6 ∧ (∀ g ∈ groups, IsOctetText g) ∧
    s.toList = [':'].intercalate groups

/-- Six groups that can be read, and one of them is not exactly two digits. -/
def LooselyWritten (s : String) : Prop :=
  (s.toList.splitOn ':').length = 6 ∧ (∀ g ∈ s.toList.splitOn ':', ReadableGroup g) ∧
    ∃ g ∈ s.toList.splitOn ':', ¬ IsOctetText g

/-- The groups of the format are those that the reader sees. -/
theorem splitOn_intercalate_octets {groups : List (List Char)} (hne : groups ≠ [])
    (hgroups : ∀ g ∈ groups, IsOctetText g) :
    ([':'].intercalate groups).splitOn ':' = groups :=
  List.splitOn_intercalate ':' (fun g hg hcolon =>
    not_isHexDigit_colon ((hgroups g hg).2 ':' hcolon)) hne

theorem isMacFormat_iff {s : String} :
    IsMacFormat s ↔ (s.toList.splitOn ':').length = 6 ∧
      ∀ g ∈ s.toList.splitOn ':', IsOctetText g := by
  constructor
  · rintro ⟨groups, hlen, hgroups, hs⟩
    have hne : groups ≠ [] := fun hnil => by simp [hnil] at hlen
    rw [hs, splitOn_intercalate_octets hne hgroups]
    exact ⟨hlen, hgroups⟩
  · rintro ⟨hlen, hgroups⟩
    exact ⟨_, hlen, hgroups, (List.intercalate_splitOn ':').symm⟩

private theorem map_toLower_intercalate (groups : List (List Char)) :
    ([':'].intercalate groups).map Char.toLower =
      [':'].intercalate (groups.map (List.map Char.toLower)) := by
  have hcolon : [':'].map Char.toLower = [':'] := by decide
  induction groups with
  | nil => rfl
  | cons g groups ih =>
    cases groups with
    | nil => simp
    | cons g' groups =>
      rw [List.map_cons] at ih
      rw [List.intercalate_cons_cons, List.map_cons, List.map_cons, List.intercalate_cons_cons,
        List.map_append, List.map_append, ih, hcolon]

/-- In the documented format, comparing the text is comparing the groups. -/
theorem toLower_eq_toString_iff {s : String} (h : IsMacFormat s) {m : MacAddress} :
    s.toLower = m.toString.toLower ↔
      (s.toList.splitOn ':').map (List.map Char.toLower) = m.asBytes.map hexByte := by
  obtain ⟨hlen, hgroups⟩ := isMacFormat_iff.mp h
  have hlower : s.toLower = s.map Char.toLower := rfl
  have hne : (s.toList.splitOn ':').map (List.map Char.toLower) ≠ [] := fun hnil => by
    simp [List.splitOn_ne_nil] at hnil
  -- lower-casing keeps the digits, so both sides split into their groups
  have hleft : ∀ g ∈ (s.toList.splitOn ':').map (List.map Char.toLower), IsOctetText g := by
    intro g hg
    obtain ⟨g', hg', rfl⟩ := List.mem_map.mp hg
    obtain ⟨d₁, hlt₁, d₂, hlt₂, -, hlower, -⟩ := (hgroups g' hg').digits
    have hdigit : ∀ d < 16, IsHexDigit d.digitChar := by decide
    rw [hlower]
    exact ⟨rfl, by simp [hdigit d₁ hlt₁, hdigit d₂ hlt₂]⟩
  have hright : ∀ g ∈ m.asBytes.map hexByte, IsOctetText g := by
    intro g hg
    obtain ⟨b, -, rfl⟩ := List.mem_map.mp hg
    exact isOctetText_hexByte b
  have htext : s.toList.map Char.toLower =
      [':'].intercalate ((s.toList.splitOn ':').map (List.map Char.toLower)) := by
    rw [← map_toLower_intercalate, List.intercalate_splitOn]
  rw [m.toLower_toString, ← String.toList_inj, hlower, String.toList_map, MacAddress.toString,
    String.toList_ofList, htext]
  constructor
  · intro heq
    have hsplit := congrArg (List.splitOn ':') heq
    rwa [splitOn_intercalate_octets hne hleft,
      splitOn_intercalate_octets (by simp [MacAddress.asBytes]) hright] at hsplit
  · intro heq
    rw [heq]

private theorem map_eq_map_iff_of {α β γ δ : Type} {f : α → γ} {f' : β → γ} {g : α → δ}
    {g' : β → δ} {l : List α} {bs : List β} (h : ∀ a ∈ l, ∀ b, f a = f' b ↔ g a = g' b) :
    l.map f = bs.map f' ↔ l.map g = bs.map g' := by
  induction l generalizing bs with
  | nil =>
    cases bs with
    | nil => simp
    | cons b bs => simp
  | cons a l ih =>
    cases bs with
    | nil => simp
    | cons b bs =>
      rw [List.map_cons, List.map_cons, List.map_cons, List.map_cons, List.cons.injEq,
        List.cons.injEq, h a (by simp) b, ih fun a' ha' => h a' (by simp [ha'])]

/-- On the documented format the reader inverts `toString` up to case. -/
theorem MacAddress.fromString_of_isMacFormat {s : String} (h : IsMacFormat s) {m : MacAddress} :
    fromString s = some m ↔ s.toLower = m.toString.toLower := by
  rw [fromString_eq_some_iff, toLower_eq_toString_iff h]
  exact map_eq_map_iff_of fun g hg b =>
    fromStrRadix16_octet_iff ((isMacFormat_iff.mp h).2 g hg)

theorem isMacFormat_toString (m : MacAddress) : IsMacFormat m.toString := by
  refine ⟨m.asBytes.map hexByte, rfl, fun g hg => ?_, String.toList_ofList⟩
  obtain ⟨b, -, rfl⟩ := List.mem_map.mp hg
  exact isOctetText_hexByte b

/-- Something is read exactly if there are six readable groups. -/
theorem MacAddress.exists_fromString_iff {s : String} :
    (∃ m, fromString s = some m) ↔
      (s.toList.splitOn ':').length = 6 ∧ ∀ g ∈ s.toList.splitOn ':', ReadableGroup g := by
  constructor
  · rintro ⟨m, h⟩
    rw [fromString_eq_some_iff] at h
    have hlen := congrArg List.length h
    rw [List.length_map, List.length_map, length_asBytes] at hlen
    refine ⟨hlen, fun g hg => exists_fromStrRadix16_iff.mp ?_⟩
    have hmem : fromStrRadix16 g ∈ m.asBytes.map some := h ▸ List.mem_map_of_mem hg
    obtain ⟨b, -, hb⟩ := List.mem_map.mp hmem
    exact ⟨b, hb.symm⟩
  · rintro ⟨hlen, hgroups⟩
    -- the bytes that the groups are read as
    have hbytes : ∃ bytes : List UInt8,
        (s.toList.splitOn ':').map fromStrRadix16 = bytes.map some := by
      refine ⟨(s.toList.splitOn ':').map fun g => (fromStrRadix16 g).getD 0, ?_⟩
      rw [List.map_map]
      refine List.map_congr_left fun g hg => ?_
      obtain ⟨b, hb⟩ := exists_fromStrRadix16_iff.mpr (hgroups g hg)
      simp [hb]
    obtain ⟨bytes, hbytes⟩ := hbytes
    have hlen' : bytes.length = 6 := by
      have := congrArg List.length hbytes
      rw [List.length_map, List.length_map] at this
      omega
    obtain ⟨m, hm⟩ : ∃ m, fromSlice bytes = some m := by
      match bytes, hlen' with
      | [b0, b1, b2, b3, b4, b5], _ => exact ⟨⟨b0, b1, b2, b3, b4, b5⟩, rfl⟩
    refine ⟨m, fromString_eq_some_iff.mpr ?_⟩
    rw [hbytes, (fromSlice_eq_some_iff hlen').mp hm]

/-- **When the documented format is followed.** For every string: the addresses that are read from
it are those that the documentation promises, namely one for a string in the format
`XX:XX:XX:XX:XX:XX` that agrees with its text up to case and none for any other string, if and
only if the string is not written loosely. What `toString` writes is read back, and determines the
address. -/
theorem MacAddress.fromString_iff_format_iff (s : String) :
    ((∀ m, fromString s = some m ↔ IsMacFormat s ∧ s.toLower = m.toString.toLower) ↔
      ¬ LooselyWritten s) ∧
    (∀ m, fromString m.toString = some m) ∧ Function.Injective toString := by
  refine ⟨⟨?_, ?_⟩, fun m => ?_, toString_injective⟩
  · rintro hformat ⟨hlen, hreadable, g, hg, hnot⟩
    obtain ⟨m, hm⟩ := exists_fromString_iff.mpr ⟨hlen, hreadable⟩
    exact hnot ((isMacFormat_iff.mp ((hformat m).mp hm).1).2 g hg)
  · intro hstrict m
    constructor
    · intro h
      obtain ⟨hlen, hreadable⟩ := exists_fromString_iff.mp ⟨m, h⟩
      have hformat : IsMacFormat s := by
        refine isMacFormat_iff.mpr ⟨hlen, fun g hg => ?_⟩
        by_contra hnot
        exact hstrict ⟨hlen, hreadable, g, hg, hnot⟩
      exact ⟨hformat, (fromString_of_isMacFormat hformat).mp h⟩
    · rintro ⟨hformat, h⟩
      exact (fromString_of_isMacFormat hformat).mpr h
  · exact (fromString_of_isMacFormat (isMacFormat_toString m)).mpr rfl

/-- `a:b:c:d:e:f` is read, and it is not in the format. -/
theorem MacAddress.fromString_accepts_single_digits :
    ¬ ∀ m, fromString "a:b:c:d:e:f" = some m ↔
      IsMacFormat "a:b:c:d:e:f" ∧ "a:b:c:d:e:f".toLower = m.toString.toLower := by
  intro h
  have hread : fromString "a:b:c:d:e:f" = some ⟨10, 11, 12, 13, 14, 15⟩ := by decide +kernel
  obtain ⟨hformat, -⟩ := (h _).mp hread
  have hgroup := (isMacFormat_iff.mp hformat).2 ['a'] (by decide +kernel)
  exact absurd hgroup (by decide)

end Ndhcpd
