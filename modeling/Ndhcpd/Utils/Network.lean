import Ndhcpd.Wire.PrefixBlock
import Ndhcpd.Dhcp.Server
import Mathlib.Data.Set.Lattice
import Mathlib.Order.CompletePartialOrder

/-!
# Network helpers

The overlap test on subnets, and the address blocks it is about. `subnetsOverlap_iff` says
that the test is exact: for prefixes of at most 32 bits it is true if and only if the two
blocks have an address in common, whatever host bits the network addresses carry.

The server computes masks in two more places, `netmaskFromPrefix` and `ifaceInSubnet`.
`masks_agree` compares all three on the blocks of the netmask: two of them meet exactly if one
contains the other, and an interface is in a subnet exactly if one of its addresses, taken as a
subnet of its own, overlaps with it.
-/

namespace Ndhcpd

/-! ### Address blocks -/

/-- Do two subnets overlap, that is, does one contain or is it contained in the other? -/
def subnetsOverlap (netA : Ipv4Addr) (prefixA : UInt8) (netB : Ipv4Addr) (prefixB : UInt8) :
    Bool :=
  let maskA := prefixMask prefixA
  let maskB := prefixMask prefixB
  let startA := netA.toUInt32 &&& maskA
  let endA := startA ||| ~~~maskA
  let startB := netB.toUInt32 &&& maskB
  let endB := startB ||| ~~~maskB
  startA ≤ endB && startB ≤ endA

/-- The addresses that agree with the network on the prefix. -/
def addressBlock (net : Ipv4Addr) (pfx : UInt8) : Set Ipv4Addr :=
  { ip | ip.toUInt32 &&& prefixMask pfx = net.toUInt32 &&& prefixMask pfx }

section Block

variable {pfx prefixA prefixB : UInt8} {net netA netB : Ipv4Addr}

/-- The mask of a prefix leaves the other bits. -/
theorem toNat_prefixMask (h : pfx ≤ 32) :
    (prefixMask pfx).toNat = 2 ^ 32 - 2 ^ (32 - pfx.toNat) := by
  have hall : ∀ n ≤ 32, (prefixMask (UInt8.ofNat n)).toNat = 2 ^ 32 - 2 ^ (32 - n) := by decide
  have hn := hall pfx.toNat h
  rwa [UInt8.ofNat_toNat] at hn

theorem toNat_and_prefixMask (h : pfx ≤ 32) (x : UInt32) :
    (x &&& prefixMask pfx).toNat = PrefixBlock.first (32 - pfx.toNat) x.toNat := by
  rw [UInt32.toNat_and, toNat_prefixMask h, PrefixBlock.and_mask (by omega) x.toNat_lt]

/-- The last address of a block. -/
theorem toNat_or_not_prefixMask (h : pfx ≤ 32) (x : UInt32) :
    ((x &&& prefixMask pfx) ||| ~~~prefixMask pfx).toNat =
      PrefixBlock.last (32 - pfx.toNat) x.toNat := by
  have hle : 2 ^ (32 - pfx.toNat) ≤ 2 ^ 32 := Nat.pow_le_pow_right (by omega) (by omega)
  have hpos := Nat.two_pow_pos (32 - pfx.toNat)
  have hnot : (~~~prefixMask pfx).toNat = 2 ^ (32 - pfx.toNat) - 1 := by
    have hsize : UInt32.size = 2 ^ 32 := rfl
    rw [UInt32.toNat_not, toNat_prefixMask h, hsize]
    omega
  rw [UInt32.toNat_or, toNat_and_prefixMask h, hnot, PrefixBlock.first_or_low]

theorem mem_addressBlock_iff (h : pfx ≤ 32) {ip : Ipv4Addr} :
    ip ∈ addressBlock net pfx ↔
      PrefixBlock.first (32 - pfx.toNat) ip.toUInt32.toNat =
        PrefixBlock.first (32 - pfx.toNat) net.toUInt32.toNat := by
  rw [← toNat_and_prefixMask h, ← toNat_and_prefixMask h, UInt32.toNat_inj]
  rfl

/-- **The overlap test is exact.** -/
theorem subnetsOverlap_iff (hA : prefixA ≤ 32) (hB : prefixB ≤ 32) :
    subnetsOverlap netA prefixA netB prefixB = true ↔
      ¬ Disjoint (addressBlock netA prefixA) (addressBlock netB prefixB) := by
  have hmeet := @PrefixBlock.meet_iff 32 (32 - prefixA.toNat) (32 - prefixB.toNat)
    netA.toUInt32.toNat netB.toUInt32.toNat (by omega) netA.toUInt32.toNat_lt
  rw [Set.not_disjoint_iff]
  simp only [subnetsOverlap, Bool.and_eq_true, decide_eq_true_eq, UInt32.le_iff_toNat_le,
    toNat_and_prefixMask hA, toNat_and_prefixMask hB, toNat_or_not_prefixMask hA,
    toNat_or_not_prefixMask hB]
  rw [← hmeet]
  constructor
  · rintro ⟨x, hx, hxA, hxB⟩
    have hword : (UInt32.ofNat x).toNat = x := UInt32.toNat_ofNat_of_lt' hx
    refine ⟨⟨UInt32.ofNat x⟩, (mem_addressBlock_iff hA).mpr ?_, (mem_addressBlock_iff hB).mpr ?_⟩
    · rw [hword]
      exact hxA
    · rw [hword]
      exact hxB
  · rintro ⟨ip, hipA, hipB⟩
    exact ⟨ip.toUInt32.toNat, ip.toUInt32.toNat_lt, (mem_addressBlock_iff hA).mp hipA,
      (mem_addressBlock_iff hB).mp hipB⟩

/-! ### The three mask computations -/

/-- The addresses that the netmask does not tell apart from the network. -/
def netmaskBlock (net : Ipv4Addr) (pfx : UInt8) : Set Ipv4Addr :=
  { ip | ip.toUInt32 &&& (netmaskFromPrefix pfx).toUInt32 =
    net.toUInt32 &&& (netmaskFromPrefix pfx).toUInt32 }

theorem netmaskBlock_eq (net : Ipv4Addr) (pfx : UInt8) :
    netmaskBlock net pfx = addressBlock net pfx := rfl

/-- Of two blocks with a common address, the one with the longer prefix is in the other. -/
theorem addressBlock_subset (hA : prefixA ≤ 32) (hB : prefixB ≤ 32) {ip : Ipv4Addr}
    (hipA : ip ∈ addressBlock netA prefixA) (hipB : ip ∈ addressBlock netB prefixB)
    (hle : prefixB ≤ prefixA) : addressBlock netA prefixA ⊆ addressBlock netB prefixB := by
  rw [mem_addressBlock_iff hA] at hipA
  rw [mem_addressBlock_iff hB] at hipB
  have hbits : 32 - prefixA.toNat ≤ 32 - prefixB.toNat :=
    Nat.sub_le_sub_left (UInt8.le_iff_toNat_le.mp hle) 32
  intro x hx
  rw [mem_addressBlock_iff hA] at hx
  rw [mem_addressBlock_iff hB, ← hipB]
  exact PrefixBlock.first_eq_of_le hbits (hx.trans hipA.symm)

theorem self_mem_addressBlock (net : Ipv4Addr) (pfx : UInt8) : net ∈ addressBlock net pfx := rfl

/-- Blocks meet exactly if they are nested. -/
theorem nonempty_inter_addressBlock_iff (hA : prefixA ≤ 32) (hB : prefixB ≤ 32) :
    (addressBlock netA prefixA ∩ addressBlock netB prefixB).Nonempty ↔
      addressBlock netA prefixA ⊆ addressBlock netB prefixB ∨
        addressBlock netB prefixB ⊆ addressBlock netA prefixA := by
  constructor
  · rintro ⟨ip, hipA, hipB⟩
    rcases UInt8.le_total prefixB prefixA with hle | hle
    · exact .inl (addressBlock_subset hA hB hipA hipB hle)
    · exact .inr (addressBlock_subset hB hA hipB hipA hle)
  · rintro (hsub | hsub)
    · exact ⟨netA, self_mem_addressBlock _ _, hsub (self_mem_addressBlock _ _)⟩
    · exact ⟨netB, hsub (self_mem_addressBlock _ _), self_mem_addressBlock _ _⟩

/-- A prefix of 32 bits leaves the address alone. -/
theorem addressBlock_32 (net : Ipv4Addr) : addressBlock net 32 = {net} := by
  ext ip
  have hfirst : ∀ n, PrefixBlock.first 0 n = n := fun n => by simp [PrefixBlock.first]
  rw [mem_addressBlock_iff (UInt8.le_refl 32), Set.mem_singleton_iff]
  change PrefixBlock.first 0 _ = PrefixBlock.first 0 _ ↔ _
  rw [hfirst, hfirst, UInt32.toNat_inj]
  exact ⟨fun h => congrArg Ipv4Addr.mk h, fun h => congrArg Ipv4Addr.toUInt32 h⟩

theorem ifaceInSubnet_eq_true_iff {ifaceIps : List Ipv4Addr} {subnet : Subnet} :
    ifaceInSubnet ifaceIps subnet = true ↔
      ∃ ip ∈ ifaceIps, ip ∈ addressBlock subnet.network subnet.netmask := by
  simp only [ifaceInSubnet, List.any_eq_true, beq_iff_eq]
  rfl

/-- A single address overlaps with a block exactly if it is in the block. -/
theorem subnetsOverlap_32_iff (h : pfx ≤ 32) {ip : Ipv4Addr} :
    subnetsOverlap ip 32 net pfx = true ↔ ip ∈ addressBlock net pfx := by
  rw [subnetsOverlap_iff (UInt8.le_refl 32) h, addressBlock_32, Set.disjoint_singleton_left, not_not]

end Block

/-- **The mask computations agree with set semantics.** For all addresses and prefixes of at most
32 bits: subnets overlap if and only if the blocks of their netmasks intersect, and if and only if
one block is contained in the other; an interface is in a subnet if and only if one of its
addresses lies in the block, and if and only if one of them overlaps with the subnet. -/
theorem masks_agree (a b : Ipv4Addr) (p q : UInt8) (hp : p ≤ 32) (hq : q ≤ 32) :
    (subnetsOverlap a p b q = true ↔ (netmaskBlock a p ∩ netmaskBlock b q).Nonempty) ∧
    (subnetsOverlap a p b q = true ↔
      netmaskBlock a p ⊆ netmaskBlock b q ∨ netmaskBlock b q ⊆ netmaskBlock a p) ∧
    ∀ (ips : List Ipv4Addr) (subnet : Subnet), subnet.network = a → subnet.netmask = p →
      (ifaceInSubnet ips subnet = true ↔ ∃ ip ∈ ips, ip ∈ netmaskBlock a p) ∧
      (ifaceInSubnet ips subnet = true ↔ ∃ ip ∈ ips, subnetsOverlap ip 32 a p = true) := by
  have hmeet : subnetsOverlap a p b q = true ↔
      (netmaskBlock a p ∩ netmaskBlock b q).Nonempty := by
    rw [subnetsOverlap_iff hp hq, Set.not_disjoint_iff_nonempty_inter, netmaskBlock_eq,
      netmaskBlock_eq]
  refine ⟨hmeet, hmeet.trans (nonempty_inter_addressBlock_iff hp hq), ?_⟩
  rintro ips subnet rfl rfl
  have hblock : ifaceInSubnet ips subnet = true ↔
      ∃ ip ∈ ips, ip ∈ netmaskBlock subnet.network subnet.netmask := ifaceInSubnet_eq_true_iff
  refine ⟨hblock, hblock.trans ?_⟩
  simp only [subnetsOverlap_32_iff hp, netmaskBlock_eq]

/-- `10.1.2.3/8` contains `10.9.0.0/16`. -/
theorem masks_agree_nested :
    (8 : UInt8) ≤ 32 ∧ (16 : UInt8) ≤ 32 ∧
      (netmaskBlock (.new 10 1 2 3) 8 ∩ netmaskBlock (.new 10 9 0 0) 16).Nonempty := by
  refine ⟨by decide, by decide, ?_⟩
  exact (masks_agree (.new 10 1 2 3) (.new 10 9 0 0) 8 16 (by decide) (by decide)).1.mp
    (by decide)

end Ndhcpd
