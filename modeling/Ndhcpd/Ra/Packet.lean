import Ndhcpd.Wire.Units
import Ndhcpd.Db.Sqlite
import Mathlib.Data.List.Dedup

/-!
# Router Advertisements

`build_router_advertisement` writes one Prefix Information option for every prefix, and one RDNSS
option with the DNS servers of all prefixes. The servers are collected in a hash set, so that
each of them occurs once, in an order nobody knows; it is a parameter here. The length octet of
the RDNSS option counts units of eight octets, two for every server, and is cut to eight bits.

`RaOption.decode` reads the options back as a host does. `advertisement_readable_iff` says when
what a host reads is what the prefixes say.
-/

namespace Ndhcpd

/-- The sixteen octets of an address, in network order. -/
def Ipv6Addr.octets (ip : Ipv6Addr) : List UInt8 := beBytes 16 ip.bits.toNat

/-- The address with the given octets. -/
def Ipv6Addr.ofOctets (octets : List UInt8) : Ipv6Addr := ⟨BitVec.ofNat 128 (beNat octets)⟩

@[simp] theorem Ipv6Addr.length_octets (ip : Ipv6Addr) : ip.octets.length = 16 :=
  length_beBytes 16 _

@[simp] theorem Ipv6Addr.ofOctets_octets (ip : Ipv6Addr) : ofOctets ip.octets = ip := by
  have hlt : ip.bits.toNat < 256 ^ 16 := ip.bits.isLt
  rw [ofOctets, octets, beNat_beBytes_of_lt hlt, BitVec.ofNat_toNat, BitVec.setWidth_eq]

/-! ### The message and its bytes -/

/-- The options of an advertisement. -/
inductive RaOption
  /-- Type 3: a prefix that is on the link and from which a host makes an address. -/
  | prefixInformation (prefixLen flags : UInt8) (validLifetime preferredLifetime : UInt32)
      (pfx : Ipv6Addr)
  /-- Type 25: recursive DNS servers. -/
  | rdnss (lifetime : UInt32) (servers : List Ipv6Addr)
deriving DecidableEq, Repr

/-- An option as it is written to the buffer. -/
def RaOption.toBytes : RaOption → List UInt8
  | prefixInformation prefixLen flags validLifetime preferredLifetime pfx =>
    3 :: 4 :: prefixLen :: flags :: (beBytes 4 validLifetime.toNat ++
      beBytes 4 preferredLifetime.toNat ++ beBytes 4 0 ++ pfx.octets)
  | rdnss lifetime servers =>
    -- `(1 + 2 * n) as u8`: the octet keeps the low eight bits.
    25 :: UInt8.ofNat (1 + 2 * servers.length) :: 0 :: 0 :: (beBytes 4 lifetime.toNat ++
      servers.flatMap Ipv6Addr.octets)

/-- An advertisement. -/
structure RouterAdvertisement where
  curHopLimit : UInt8
  managed : Bool
  other : Bool
  routerLifetime : UInt16
  options : List RaOption
deriving DecidableEq, Repr

/-- The ICMPv6 header, the body and the options. The kernel fills in the checksum. -/
def RouterAdvertisement.toBytes (ra : RouterAdvertisement) : List UInt8 :=
  [134, 0, 0, 0, ra.curHopLimit,
    (if ra.managed then 0x80 else 0) ||| (if ra.other then 0x40 else 0)] ++
  beBytes 2 ra.routerLifetime.toNat ++ beBytes 4 0 ++ beBytes 4 0 ++
  ra.options.flatMap RaOption.toBytes

/-- The option for a prefix: on-link, for autonomous configuration. -/
def IAPrefix.information (p : IAPrefix) : RaOption :=
  .prefixInformation p.prefixLen 0b11000000 p.validLifetime p.preferredLifetime p.pfx

/-- The DNS servers of all prefixes, each of them once, in the order of the hash set. -/
def advertisedServers (order : RowOrder Ipv6Addr) (prefixes : List IAPrefix) : List Ipv6Addr :=
  order.arrange (prefixes.flatMap (·.dnsServers)).dedup

/-- The RDNSS option, if there is a server. -/
def rdnssOptions (order : RowOrder Ipv6Addr) (prefixes : List IAPrefix) : List RaOption :=
  if (advertisedServers order prefixes).isEmpty then []
  else [.rdnss ((prefixes.map (·.dnsLifetime)).max?.getD 3600) (advertisedServers order prefixes)]

/-- The message that `build_router_advertisement` writes. -/
def routerAdvertisement (order : RowOrder Ipv6Addr) (prefixes : List IAPrefix)
    (curHopLimit : UInt8) (routerLifetimeSecs : UInt16) (managed other : Bool) :
    RouterAdvertisement where
  curHopLimit := curHopLimit
  managed := managed
  other := other
  routerLifetime := routerLifetimeSecs
  options := prefixes.map IAPrefix.information ++ rdnssOptions order prefixes

/-- `build_router_advertisement`. -/
def buildRouterAdvertisement (order : RowOrder Ipv6Addr) (prefixes : List IAPrefix)
    (curHopLimit : UInt8) (routerLifetimeSecs : UInt16) (managed other : Bool) : List UInt8 :=
  (routerAdvertisement order prefixes curHopLimit routerLifetimeSecs managed other).toBytes

/-! ### What a host reads -/

/-- The reading of one option, from the octets behind its length octet. -/
def RaOption.decode (o : NdOption) : Option RaOption :=
  if o.type = 3 ∧ o.body.length = 30 then
    some (.prefixInformation (o.body.getD 0 0) (o.body.getD 1 0)
      (UInt32.ofNat (beNat ((o.body.drop 2).take 4)))
      (UInt32.ofNat (beNat ((o.body.drop 6).take 4))) (.ofOctets ((o.body.drop 14).take 16)))
  else if o.type = 25 ∧ 6 ≤ o.body.length ∧ (o.body.length - 6) % 16 = 0 then
    some (.rdnss (UInt32.ofNat (beNat ((o.body.drop 2).take 4)))
      ((readWords 16 ((o.body.length - 6) / 16) (o.body.drop 6)).map .ofOctets))
  else none

/-- The options a host reads in a buffer. -/
def readOptions (bytes : List UInt8) : Option (List RaOption) :=
  (walkOptions bytes).bind (·.mapM RaOption.decode)

/-- The options a host reads in an advertisement: it walks over them from offset 16 on. -/
def readAdvertisement (bytes : List UInt8) : Option (List RaOption) := readOptions (bytes.drop 16)

/-- The advertisement says what the prefixes say: one option for every prefix, in their order,
with its length, its address, its two lifetimes and the flags on-link and autonomous; and then,
exactly if there is a DNS server, one option with all of them, each once, for the longest of the
lifetimes. -/
def Advertises (prefixes : List IAPrefix) (bytes : List UInt8) : Prop :=
  ∃ servers : List Ipv6Addr, servers.Nodup ∧
    (∀ ip, ip ∈ servers ↔ ∃ p ∈ prefixes, ip ∈ p.dnsServers) ∧
    ∃ rdnss : List RaOption,
      readAdvertisement bytes = some (prefixes.map (fun p => .prefixInformation p.prefixLen 0xC0
        p.validLifetime p.preferredLifetime p.pfx) ++ rdnss) ∧
      ((servers = [] ∧ rdnss = []) ∨ servers ≠ [] ∧ ∃ lifetime : UInt32,
        ((∃ p ∈ prefixes, p.dnsLifetime = lifetime) ∧ ∀ p ∈ prefixes, p.dnsLifetime ≤ lifetime) ∧
        rdnss = [.rdnss lifetime servers])

/-! ### Reading back what was written -/

section Read

variable {type len : UInt8} {rest : List UInt8}

theorem readOptions_append {o : RaOption} (body : List UInt8) (hlen : body.length + 2 = 8 * len.toNat)
    (hdecode : RaOption.decode ⟨type, body⟩ = some o) :
    readOptions (type :: len :: (body ++ rest)) = (readOptions rest).map (o :: ·) := by
  rw [readOptions, walkOptions_append hlen, readOptions]
  cases walkOptions rest with
  | none => rfl
  | some options => simp [hdecode, Option.map_eq_bind]

/-- A 32-bit field is read back. -/
theorem ofNat_beNat_beBytes (x : UInt32) : UInt32.ofNat (beNat (beBytes 4 x.toNat)) = x := by
  have hlt : x.toNat < 256 ^ 4 := x.toNat_lt
  rw [beNat_beBytes_of_lt hlt, UInt32.ofNat_toNat]

/-- **A prefix option** is read back. -/
theorem readOptions_prefixInformation (prefixLen flags : UInt8)
    (validLifetime preferredLifetime : UInt32) (pfx : Ipv6Addr) :
    readOptions ((RaOption.prefixInformation prefixLen flags validLifetime preferredLifetime
        pfx).toBytes ++ rest) =
      (readOptions rest).map
        (.prefixInformation prefixLen flags validLifetime preferredLifetime pfx :: ·) := by
  refine readOptions_append (prefixLen :: flags :: (beBytes 4 validLifetime.toNat ++
    beBytes 4 preferredLifetime.toNat ++ beBytes 4 0 ++ pfx.octets)) (by simp) ?_
  simp [RaOption.decode, List.drop_append, List.drop_of_length_le, List.take_of_length_le,
    ofNat_beNat_beBytes]

/-- **A server option** is read back if its length fits the octet. -/
theorem readOptions_rdnss (lifetime : UInt32) {servers : List Ipv6Addr}
    (hfit : servers.length ≤ 127) :
    readOptions ((RaOption.rdnss lifetime servers).toBytes ++ rest) =
      (readOptions rest).map (.rdnss lifetime servers :: ·) := by
  have hwords := length_flatMap_words Ipv6Addr.length_octets servers
  have hlen : (UInt8.ofNat (1 + 2 * servers.length)).toNat = 1 + 2 * servers.length := by
    rw [UInt8.toNat_ofNat', Nat.mod_eq_of_lt (by omega)]
  refine readOptions_append (0 :: 0 :: (beBytes 4 lifetime.toNat ++
    servers.flatMap Ipv6Addr.octets)) ?_ ?_
  · rw [hlen]
    simp only [List.length_cons, List.length_append, length_beBytes, hwords]
    omega
  · have hread : Ipv6Addr.ofOctets ∘ Ipv6Addr.octets = id := by
      funext ip
      exact ip.ofOctets_octets
    simp [RaOption.decode, List.drop_append, ofNat_beNat_beBytes, hwords, readWords_flatMap, hread]

/-- The prefix options of an advertisement are read back, and the walk goes on behind them. -/
theorem readOptions_prefixes (prefixes : List IAPrefix) :
    readOptions ((prefixes.map IAPrefix.information).flatMap RaOption.toBytes ++ rest) =
      (readOptions rest).map (prefixes.map IAPrefix.information ++ ·) := by
  induction prefixes with
  | nil => simp
  | cons p prefixes ih =>
    rw [List.map_cons, List.flatMap_cons, List.append_assoc, IAPrefix.information,
      readOptions_prefixInformation, ih, Option.map_map]
    rfl

/-- The options start at offset 16. -/
theorem readAdvertisement_toBytes (ra : RouterAdvertisement) :
    readAdvertisement ra.toBytes = readOptions (ra.options.flatMap RaOption.toBytes) := by
  rw [readAdvertisement, RouterAdvertisement.toBytes, List.drop_left' (by simp)]

/-- **The limit.** However an RDNSS option was written, no host reads more than 127 servers in
it. -/
theorem length_servers_le {bytes : List UInt8} {options : List RaOption}
    (h : readOptions bytes = some options) {lifetime : UInt32} {servers : List Ipv6Addr}
    (hmem : .rdnss lifetime servers ∈ options) : servers.length ≤ 127 := by
  obtain ⟨raw, hraw, hoptions⟩ := Option.bind_eq_some_iff.mp h
  obtain ⟨o, ho, hdecode⟩ := exists_of_mem_mapM hoptions hmem
  have hlen := length_body_le hraw o ho
  simp only [RaOption.decode] at hdecode
  split at hdecode
  · simp at hdecode
  · split at hdecode
    · simp only [Option.some.injEq, RaOption.rdnss.injEq] at hdecode
      rw [← hdecode.2, List.length_map, length_readWords]
      omega
    · cases hdecode

end Read

/-! ### When a host reads what the prefixes say -/

section Servers

variable {order : RowOrder Ipv6Addr} {prefixes : List IAPrefix}

theorem mem_advertisedServers {ip : Ipv6Addr} :
    ip ∈ advertisedServers order prefixes ↔ ∃ p ∈ prefixes, ip ∈ p.dnsServers := by
  simp [advertisedServers]

theorem nodup_advertisedServers : (advertisedServers order prefixes).Nodup :=
  (order.perm _).nodup_iff.mpr (List.nodup_dedup _)

theorem length_advertisedServers :
    (advertisedServers order prefixes).length = (prefixes.flatMap (·.dnsServers)).dedup.length :=
  (order.perm _).length_eq

/-- Two lists of the DNS servers are equally long. -/
theorem length_servers_eq {servers : List Ipv6Addr} (hnodup : servers.Nodup)
    (hmem : ∀ ip, ip ∈ servers ↔ ∃ p ∈ prefixes, ip ∈ p.dnsServers) :
    servers.length = (prefixes.flatMap (·.dnsServers)).dedup.length := by
  refine ((List.perm_ext_iff_of_nodup hnodup (List.nodup_dedup _)).mpr fun ip => ?_).length_eq
  rw [hmem, List.mem_dedup, List.mem_flatMap]

/-- The longest DNS lifetime. -/
theorem max_dnsLifetime (hne : prefixes ≠ []) :
    (∃ p ∈ prefixes, p.dnsLifetime = (prefixes.map (·.dnsLifetime)).max?.getD 3600) ∧
      ∀ p ∈ prefixes, p.dnsLifetime ≤ (prefixes.map (·.dnsLifetime)).max?.getD 3600 := by
  have hlawful : Std.LawfulOrderMax UInt32 :=
    { max_eq_or := fun a b => by
        change (if a ≤ b then b else a) = a ∨ (if a ≤ b then b else a) = b
        split <;> simp
      max_le_iff := fun a b c => by
        change (if a ≤ b then b else a) ≤ c ↔ a ≤ c ∧ b ≤ c
        simp only [UInt32.le_iff_toNat_le]
        split <;> omega }
  cases hmax : (prefixes.map (·.dnsLifetime)).max? with
  | none => exact absurd (List.max?_eq_none_iff.mp hmax) (by simpa using hne)
  | some lifetime =>
    obtain ⟨hmem, hle⟩ := List.max?_eq_some_iff.mp hmax
    exact ⟨List.mem_map.mp hmem, fun p hp => hle _ (List.mem_map_of_mem hp)⟩

end Servers

/-- The RDNSS option, if there is one, is read back where its servers fit. -/
theorem readOptions_rdnssOptions {order : RowOrder Ipv6Addr} {prefixes : List IAPrefix}
    (hfit : (prefixes.flatMap (·.dnsServers)).dedup.length ≤ 127) :
    readOptions ((rdnssOptions order prefixes).flatMap RaOption.toBytes) =
      some (rdnssOptions order prefixes) := by
  have hnil : readOptions [] = some [] := by simp [readOptions]
  rw [rdnssOptions]
  split
  · exact hnil
  · rw [List.flatMap_cons, List.flatMap_nil, readOptions_rdnss _
      (length_advertisedServers.trans_le hfit), hnil]
    rfl

/-- **What fits is read.** -/
theorem advertises_of_le (order : RowOrder Ipv6Addr) {prefixes : List IAPrefix}
    (hfit : (prefixes.flatMap (·.dnsServers)).dedup.length ≤ 127) (curHopLimit : UInt8)
    (routerLifetimeSecs : UInt16) (managed other : Bool) :
    Advertises prefixes (buildRouterAdvertisement order prefixes curHopLimit routerLifetimeSecs
      managed other) := by
  refine ⟨advertisedServers order prefixes, nodup_advertisedServers,
    fun ip => mem_advertisedServers, rdnssOptions order prefixes, ?_, ?_⟩
  · rw [buildRouterAdvertisement, readAdvertisement_toBytes, routerAdvertisement,
      List.flatMap_append, readOptions_prefixes, readOptions_rdnssOptions hfit]
    rfl
  · rw [rdnssOptions]
    rcases hservers : advertisedServers order prefixes with _ | ⟨ip, servers⟩
    · exact .inl ⟨rfl, rfl⟩
    · obtain ⟨p, hp, -⟩ := mem_advertisedServers.mp (hservers ▸ List.mem_cons_self)
      refine .inr ⟨List.cons_ne_nil ip servers, _, ?_, rfl⟩
      exact max_dnsLifetime (List.ne_nil_of_mem hp)

/-- **What does not fit is not read.** -/
theorem length_le_of_advertises {prefixes : List IAPrefix} {bytes : List UInt8}
    (h : Advertises prefixes bytes) : (prefixes.flatMap (·.dnsServers)).dedup.length ≤ 127 := by
  obtain ⟨servers, hnodup, hmem, rdnss, hread, hrdnss⟩ := h
  rw [← length_servers_eq hnodup hmem]
  rcases hrdnss with ⟨rfl, -⟩ | ⟨-, lifetime, -, rfl⟩
  · exact Nat.zero_le 127
  · exact length_servers_le hread (List.mem_append_right _ (List.mem_singleton_self _))

/-- **When an advertisement is well formed.** For every list of prefixes and every header, a host
that walks over the options reads what the prefixes say if and only if they have at most 127
distinct DNS servers between them. -/
theorem advertisement_readable_iff (order : RowOrder Ipv6Addr) (prefixes : List IAPrefix)
    (curHopLimit : UInt8) (routerLifetimeSecs : UInt16) (managed other : Bool) :
    Advertises prefixes (buildRouterAdvertisement order prefixes curHopLimit routerLifetimeSecs
      managed other) ↔ (prefixes.flatMap (·.dnsServers)).dedup.length ≤ 127 := by
  constructor
  · exact length_le_of_advertises
  · intro hfit
    exact advertises_of_le order hfit curHopLimit routerLifetimeSecs managed other

/-- A prefix with 128 DNS servers. -/
def Sample.manyServers : IAPrefix where
  id := none
  interface := "eth0"
  pfx := ⟨0x20010db8000000000000000000000000#128⟩
  prefixLen := 64
  preferredLifetime := 14400
  validLifetime := 86400
  dnsServers := (List.range 128).map fun i => ⟨BitVec.ofNat 128 i⟩
  dnsLifetime := 3600

/-- The length octet of its RDNSS option wraps around, and no host reads the servers. -/
theorem rdnss_length_wraps :
    ¬ Advertises [Sample.manyServers]
      (buildRouterAdvertisement .id [Sample.manyServers] 64 1800 false false) := by
  intro h
  have hle := length_le_of_advertises h
  have hnodup : ([Sample.manyServers].flatMap (·.dnsServers)).Nodup := by
    rw [List.flatMap_cons, List.flatMap_nil, List.append_nil]
    refine List.nodup_range.map_on fun i hi j hj hij => ?_
    have htoNat := congrArg (fun ip : Ipv6Addr => ip.bits.toNat) hij
    simp only [BitVec.toNat_ofNat] at htoNat
    rw [List.mem_range] at hi hj
    omega
  rw [hnodup.dedup] at hle
  simp [Sample.manyServers] at hle

end Ndhcpd
