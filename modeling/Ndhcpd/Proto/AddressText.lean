import Ndhcpd.Proto.Address
import Ndhcpd.Wire.TextList

/-!
# IPv4 addresses as text

`Ipv4Addr` is parsed from dotted-decimal notation: four numbers of one to three decimal digits, at
most 255 and without leading zeros. `ipv4Text` puts writing and parsing together.
-/

namespace Ndhcpd

/-- One number of the notation. -/
def readOctet (group : List Char) : Option UInt8 :=
  if group ≠ [] ∧ group.length ≤ 3 ∧ (group.all Char.isDigit) = true ∧
      (group.length = 1 ∨ group.head? ≠ some '0') then
    let value := group.foldl (fun acc c => acc * 10 + (c.toNat - '0'.toNat)) 0
    if value ≤ 255 then some (UInt8.ofNat value) else none
  else none

/-- `Ipv4Addr::from_str`. -/
def Ipv4Addr.fromStr (text : String) : Option Ipv4Addr :=
  match (text.toList.splitOn '.').map readOctet with
  | [some a, some b, some c, some d] => some (.new a b c d)
  | _ => none

private theorem readOctet_repr : ∀ n < 256, readOctet n.repr.toList = some (UInt8.ofNat n) := by
  decide +kernel

/-- A digit is neither a comma nor white space. -/
private theorem plain_of_isDigit {c : Char} (h : c.isDigit = true) :
    c ≠ ',' ∧ isWhiteSpace c = false := by
  have hrange : 48 ≤ c.toNat ∧ c.toNat ≤ 57 := Char.isDigit_iff_toNat.mp h
  constructor
  · rintro rfl
    exact absurd h (by decide)
  · simp only [isWhiteSpace, Bool.or_eq_false_iff, Bool.and_eq_false_iff, decide_eq_false_iff_not,
      beq_eq_false_iff_ne]
    omega

theorem Ipv4Addr.fromStr_toString (ip : Ipv4Addr) : fromStr ip.toString = some ip := by
  obtain ⟨a, b, c, d, hoctets, hip⟩ := ip.exists_octets
  have hread : ∀ b : UInt8, readOctet b.toNat.repr.toList = some b := by
    intro b
    rw [readOctet_repr b.toNat b.toNat_lt, UInt8.ofNat_toNat]
  rw [fromStr, splitOn_toString, hoctets]
  simp only [List.map_cons, List.map_nil, hread, hip]

/-- The notation consists of digits and dots. -/
theorem Ipv4Addr.plain_toString (ip : Ipv4Addr) :
    ∀ c ∈ ip.toString.toList, c ≠ ',' ∧ isWhiteSpace c = false := by
  have hdot : ".".toList = ['.'] := rfl
  have hdigits : ∀ b : UInt8, ∀ c ∈ b.toNat.repr.toList, c ≠ ',' ∧ isWhiteSpace c = false := by
    intro b c hc
    rw [Nat.toList_repr] at hc
    exact plain_of_isDigit (Nat.isDigit_of_mem_toDigits (by decide) (by decide) hc)
  intro c hc
  rw [toString, String.toList_intercalate, hdot, List.map_map] at hc
  rcases mem_of_mem_intercalate hc with hc | ⟨part, hpart, hc⟩
  · obtain rfl := List.mem_singleton.mp hc
    decide
  · obtain ⟨b, -, rfl⟩ := List.mem_map.mp hpart
    exact hdigits b c hc

/-- IPv4 addresses as text. -/
def ipv4Text : TextForm Ipv4Addr where
  display := Ipv4Addr.toString
  fromStr := Ipv4Addr.fromStr
  fromStr_display := Ipv4Addr.fromStr_toString
  plain := Ipv4Addr.plain_toString
  fromStr_empty := rfl

end Ndhcpd
