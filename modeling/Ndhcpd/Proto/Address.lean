import Ndhcpd.Wire.Bytes

/-!
# Addresses

IPv4 addresses and hardware addresses as the protocol crate handles them. An `Ipv4Addr` is
its 32-bit value (`u32::from`), with the octets in network order. A `MacAddress` is six
bytes; the database keys clients by its textual form `xx:xx:xx:xx:xx:xx`, so the facts that
matter about `MacAddress.toString` are that it determines the address
(`MacAddress.toString_injective`) and that lower-casing does not change it
(`MacAddress.toLower_toString`). IPv4 addresses are compared as text too, and are determined by
it (`Ipv4Addr.toString_injective`).
-/

namespace Ndhcpd

/-! ### IPv4 addresses -/

/-- An IPv4 address, as the 32-bit number `u32::from` gives. -/
structure Ipv4Addr where
  toUInt32 : UInt32
deriving DecidableEq, Repr

namespace Ipv4Addr

/-- `0.0.0.0`. -/
def unspecified : Ipv4Addr := ⟨0⟩

/-- The address with the given octets. -/
def new (a b c d : UInt8) : Ipv4Addr := ⟨UInt32.ofNat (beNat [a, b, c, d])⟩

/-- The four octets, in network order. -/
def octets (ip : Ipv4Addr) : List UInt8 := beBytes 4 ip.toUInt32.toNat

/-- Dotted-decimal notation. -/
def toString (ip : Ipv4Addr) : String :=
  ".".intercalate (ip.octets.map fun b => b.toNat.repr)

@[simp] theorem length_octets (ip : Ipv4Addr) : ip.octets.length = 4 := length_beBytes 4 _

/-- An address is rebuilt from its octets. -/
theorem exists_octets (ip : Ipv4Addr) :
    ∃ a b c d, ip.octets = [a, b, c, d] ∧ new a b c d = ip := by
  refine ⟨_, _, _, _, rfl, ?_⟩
  have hlt : ip.toUInt32.toNat < 256 ^ 4 := ip.toUInt32.toNat_lt
  change (⟨UInt32.ofNat (beNat (beBytes 4 ip.toUInt32.toNat))⟩ : Ipv4Addr) = ip
  rw [beNat_beBytes_of_lt hlt, UInt32.ofNat_toNat]

theorem octets_injective : Function.Injective octets := by
  intro ip ip' h
  obtain ⟨a, b, c, d, hip, rfl⟩ := exists_octets ip
  obtain ⟨a', b', c', d', hip', rfl⟩ := exists_octets ip'
  rw [hip, hip'] at h
  simp only [List.cons.injEq, and_true] at h
  obtain ⟨rfl, rfl, rfl, rfl⟩ := h
  rfl

private theorem repr_inj_of_toNat {b c : UInt8} (h : b.toNat.repr = c.toNat.repr) : b = c := by
  have hdigits := congrArg (fun s : String => Nat.ofDigitChars 10 s.toList 0) h
  simp only [Nat.toList_repr, Nat.ofDigitChars_toDigits (Nat.one_lt_succ_succ 8) le_rfl] at hdigits
  exact UInt8.toNat_inj.mp hdigits

/-- The dots of the notation separate the octets. -/
theorem splitOn_toString (ip : Ipv4Addr) :
    ip.toString.toList.splitOn '.' = ip.octets.map fun b => b.toNat.repr.toList := by
  have hdot : ".".toList = ['.'] := rfl
  rw [toString, String.toList_intercalate, hdot, List.map_map]
  refine List.splitOn_intercalate '.' (fun l hl hmem => ?_) fun hnil => ?_
  · obtain ⟨b, -, rfl⟩ := List.mem_map.mp hl
    rw [Function.comp_apply, Nat.toList_repr] at hmem
    exact absurd (Nat.isDigit_of_mem_toDigits (by decide) (by decide) hmem) (by decide)
  · have hlen := congrArg List.length hnil
    simp at hlen

theorem toString_injective : Function.Injective toString := by
  intro ip ip' h
  have hsplit := congrArg (fun s : String => s.toList.splitOn '.') h
  simp only [splitOn_toString] at hsplit
  refine octets_injective ((List.map_inj_right fun b c hbc => ?_).mp hsplit)
  exact repr_inj_of_toNat (String.toList_inj.mp hbc)

end Ipv4Addr

/-! ### Hardware addresses -/

/-- A six-byte MAC address. -/
structure MacAddress where
  (b0 b1 b2 b3 b4 b5 : UInt8)
deriving DecidableEq, Repr

/-- `{:02x}`: a byte as two lower-case hexadecimal digits. -/
def hexByte (b : UInt8) : List Char := [(b.toNat / 16).digitChar, (b.toNat % 16).digitChar]

private theorem digitChar_inj : ∀ m < 16, ∀ n < 16, m.digitChar = n.digitChar → m = n := by
  decide

private theorem toLower_digitChar : ∀ n < 16, n.digitChar.toLower = n.digitChar := by
  decide

theorem hexByte_injective {b c : UInt8} (h : hexByte b = hexByte c) : b = c := by
  have hb := b.toNat_lt
  have hc := c.toNat_lt
  simp only [hexByte, List.cons.injEq, and_true] at h
  have hhigh := digitChar_inj _ (by omega) _ (by omega) h.1
  have hlow := digitChar_inj _ (by omega) _ (by omega) h.2
  exact UInt8.toNat_inj.mp (by omega)

theorem map_toLower_hexByte (b : UInt8) : (hexByte b).map Char.toLower = hexByte b := by
  have hb := b.toNat_lt
  simp only [hexByte, List.map_cons, List.map_nil]
  rw [toLower_digitChar _ (by omega), toLower_digitChar _ (by omega)]

namespace MacAddress

/-- The underlying bytes. -/
def asBytes (m : MacAddress) : List UInt8 := [m.b0, m.b1, m.b2, m.b3, m.b4, m.b5]

/-- The first six bytes of a slice, when it has that many. -/
def fromSlice : List UInt8 → Option MacAddress
  | a :: b :: c :: d :: e :: f :: _ => some ⟨a, b, c, d, e, f⟩
  | _ => none

/-- The formatted string `xx:xx:xx:xx:xx:xx`. -/
def toString (m : MacAddress) : String :=
  String.ofList ([':'].intercalate (m.asBytes.map hexByte))

@[simp] theorem length_asBytes (m : MacAddress) : m.asBytes.length = 6 := rfl

theorem toString_injective : Function.Injective toString := by
  rintro ⟨a0, a1, a2, a3, a4, a5⟩ ⟨b0, b1, b2, b3, b4, b5⟩ h
  have hlist := String.ofList_injective h
  have hsame : ∀ x y : UInt8, (x.toNat / 16).digitChar = (y.toNat / 16).digitChar →
      (x.toNat % 16).digitChar = (y.toNat % 16).digitChar → x = y := fun x y h1 h2 =>
    hexByte_injective (by rw [hexByte, hexByte, h1, h2])
  simp only [asBytes, List.map_cons, List.map_nil, hexByte, List.intercalate,
    List.intersperse, List.flatten_cons, List.flatten_nil, List.cons_append, List.nil_append,
    List.cons.injEq, true_and, and_true] at hlist
  obtain ⟨h0, l0, h1, l1, h2, l2, h3, l3, h4, l4, h5, l5⟩ := hlist
  rw [hsame _ _ h0 l0, hsame _ _ h1 l1, hsame _ _ h2 l2, hsame _ _ h3 l3, hsame _ _ h4 l4,
    hsame _ _ h5 l5]

/-- The textual form is already lower case. -/
@[simp] theorem toLower_toString (m : MacAddress) : m.toString.toLower = m.toString := by
  have hcolon : Char.toLower ':' = ':' := by decide
  have hmap : m.toString.toLower = m.toString.map Char.toLower := rfl
  apply String.toList_inj.mp
  rw [hmap, String.toList_map, toString, String.toList_ofList]
  simp only [asBytes, List.map_cons, List.map_nil, List.intercalate, List.intersperse,
    List.flatten_cons, List.flatten_nil, List.map_append, map_toLower_hexByte, hcolon]

end MacAddress

end Ndhcpd
