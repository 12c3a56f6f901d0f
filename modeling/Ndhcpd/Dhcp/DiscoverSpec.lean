import Ndhcpd.Dhcp.RequestSpec

/-!
# The specification of DISCOVER

What `handle_discover` is for, said without its calls and loops: a client is offered the address
that is reserved for it, if that is on a subnet the interface reaches; else the address of its lease,
if that is on such a subnet; else the first address of the pool that nobody has on lease.

The three nested loops over subnets, ranges and addresses are one search in the list of all
candidates (`poolChoice_eq`), so that first fit and exhaustion are facts about a single list.
`discover_specification` puts the cases together, on databases that are `Consistent`.
-/

namespace Ndhcpd

/-! ### The candidates -/

/-- The addresses of a range in ascending order, both ends included. -/
def RangeRow.addresses (r : RangeRow) : List Ipv4Addr :=
  (List.range' r.rangeStart.toUInt32.toNat
    (r.rangeEnd.toUInt32.toNat + 1 - r.rangeStart.toUInt32.toNat)).map fun n => ⟨UInt32.ofNat n⟩

/-- The subnet covers an address of the interface. -/
def SubnetRow.ReachedVia (s : SubnetRow) (ifaceIps : List Ipv4Addr) : Prop :=
  ∃ a ∈ ifaceIps, s.Covers a

instance (s : SubnetRow) (ifaceIps : List Ipv4Addr) : Decidable (s.ReachedVia ifaceIps) :=
  inferInstanceAs (Decidable (∃ a ∈ ifaceIps, s.Covers a))

/-- The addresses of the pool with their subnets: the reachable subnets as they are listed, the
enabled ranges of each as they are listed, and the addresses of each in ascending order. -/
def candidates (ord : ScanOrder) (db : SqliteDb) (ifaceIps : List Ipv4Addr) :
    List (Ipv4Addr × SubnetRow) :=
  ((ord.subnets.arrange db.subnets).filter fun s => decide (s.ReachedVia ifaceIps)).flatMap fun s =>
    ((ord.ranges.arrange (db.dynamicRanges.filter (·.subnetId == s.id))).filter
      (·.enabled)).flatMap fun r => r.addresses.map (·, s)

section Addresses

variable {r : RangeRow} {ip : Ipv4Addr}

/-- The addresses of a range are those between its ends, up to 255.255.255.255; there are none if
the ends are in the wrong order. -/
theorem RangeRow.mem_addresses :
    ip ∈ r.addresses ↔
      r.rangeStart.toUInt32 ≤ ip.toUInt32 ∧ ip.toUInt32 ≤ r.rangeEnd.toUInt32 := by
  have hend := r.rangeEnd.toUInt32.toNat_lt
  have hsize : UInt32.size = 4294967296 := rfl
  simp only [addresses, List.mem_map, List.mem_range'_1, UInt32.le_iff_toNat_le]
  constructor
  · rintro ⟨n, hn, rfl⟩
    have hofNat : (UInt32.ofNat n).toNat = n := UInt32.toNat_ofNat_of_lt' (by omega)
    simp only [hofNat]
    omega
  · intro h
    exact ⟨ip.toUInt32.toNat, by omega, by simp⟩

end Addresses

section Search

variable {ord : ScanOrder} {db : SqliteDb} {now : ℤ} {ifaceIps : List Ipv4Addr}

theorem mem_leasedIps {ip : Ipv4Addr} :
    ip ∈ (db.listActiveLeases ord now).map (·.ipAddress) ↔ ¬ Vacant db.leases now ip := by
  constructor
  · rintro hmem hvacant
    obtain ⟨lease, hlease, rfl⟩ := List.mem_map.mp hmem
    obtain ⟨r, hr, hact, rfl⟩ := SqliteDb.mem_listActiveLeases.mp hlease
    have hend := hvacant r hr rfl
    omega
  · intro h
    by_contra hnot
    exact h (vacant_of_not_mem hnot)

/-- The loop over the addresses. -/
theorem firstFree_eq_find? (leasedIps : List Ipv4Addr) (start n : ℕ) :
    firstFree leasedIps start n =
      ((List.range' start n).map fun n => (⟨UInt32.ofNat n⟩ : Ipv4Addr)).find?
        fun ip => decide (ip ∉ leasedIps) := by
  induction n generalizing start with
  | zero => rfl
  | succ n ih =>
    rw [firstFree, List.range'_succ, List.map_cons, List.find?_cons, ih]
    by_cases h : (⟨UInt32.ofNat start⟩ : Ipv4Addr) ∈ leasedIps <;> simp [h]

theorem firstFreeInRange_eq_find? (r : RangeRow) :
    firstFreeInRange ((db.listActiveLeases ord now).map (·.ipAddress)) r.toRange =
      r.addresses.find? fun ip => decide (Vacant db.leases now ip) := by
  have hfree : (fun ip => decide (ip ∉ (db.listActiveLeases ord now).map (·.ipAddress))) =
      fun ip => decide (Vacant db.leases now ip) := by
    funext ip
    rw [decide_eq_decide, mem_leasedIps, not_not]
  rw [firstFreeInRange, firstFree_eq_find?, hfree]
  rfl

/-- The loop over the ranges of a subnet. -/
theorem freeIn_eq (s : SubnetRow) :
    freeIn ord db now s.toSubnet =
      ((((ord.ranges.arrange (db.dynamicRanges.filter (·.subnetId == s.id))).filter
        (·.enabled)).flatMap fun r => r.addresses.map (·, s)).find?
          fun c => decide (Vacant db.leases now c.1)).map fun c => (c.1, c.2.toSubnet) := by
  have hranges : (db.listRanges ord (some s.id)).filter (·.enabled) =
      ((ord.ranges.arrange (db.dynamicRanges.filter (·.subnetId == s.id))).filter
        (·.enabled)).map RangeRow.toRange := List.filter_map
  have hrange : ((firstFreeInRange ((db.listActiveLeases ord now).map (·.ipAddress))) ∘
      RangeRow.toRange) = fun r => r.addresses.find? fun ip => decide (Vacant db.leases now ip) :=
    funext firstFreeInRange_eq_find?
  have hid : s.toSubnet.id = some s.id := rfl
  rw [freeIn, hid, Option.bind_some, hranges, List.findSome?_map, hrange, List.find?_flatMap,
    List.map_findSome?, List.map_findSome?]
  refine congrArg (List.findSome? · _) (funext fun r => ?_)
  simp only [Function.comp, List.find?_map, Option.map_map]
  rfl

/-- **The loops are one search.** -/
theorem poolChoice_eq (hmasks : ∀ s ∈ db.subnets, s.netmask ≤ 32) :
    poolChoice ord db now ifaceIps =
      ((candidates ord db ifaceIps).find? fun c => decide (Vacant db.leases now c.1)).map
        fun c => (c.1, c.2.toSubnet) := by
  have hreach : ((ord.subnets.arrange db.subnets).filter
      (ifaceInSubnet ifaceIps ∘ SubnetRow.toSubnet)) =
      (ord.subnets.arrange db.subnets).filter fun s => decide (s.ReachedVia ifaceIps) := by
    refine List.filter_congr fun s hs => ?_
    have hmask := hmasks s (ord.subnets.mem_arrange.mp hs)
    rw [Function.comp, Bool.eq_iff_iff, decide_eq_true_eq, SubnetRow.ifaceInSubnet_iff hmask]
    rfl
  rw [poolChoice, SqliteDb.listSubnets, List.filter_map, hreach, List.findSome?_map, candidates,
    List.find?_flatMap, List.map_findSome?]
  exact congrArg (List.findSome? · _) (funext freeIn_eq)

end Search

/-! ### The specification -/

/-- A database on which offers are specified: primary keys are unique, netmasks have at most 32 bits,
a client has at most one static assignment, and static assignments and leases refer to subnets that
are stored. -/
structure Consistent (db : SqliteDb) : Prop where
  subnetKeys : (db.subnets.map (·.id)).Nodup
  masks : ∀ s ∈ db.subnets, s.netmask ≤ 32
  reservations : ∀ s ∈ db.staticIps, ∀ s' ∈ db.staticIps,
    s.macAddress.toLower = s'.macAddress.toLower → s = s'
  staticRefs : ∀ s ∈ db.staticIps, ∃ subnet ∈ db.subnets, subnet.id = s.subnetId
  leaseRefs : ∀ l ∈ db.leases, ∃ subnet ∈ db.subnets, subnet.id = l.subnetId

section Specification

variable (ord : ScanOrder) (config : DhcpConfig) (db : SqliteDb) (now : ℤ) (packet : DhcpPacket)
  (ifaceIps : List Ipv4Addr)

/-- The static assignment of the client, on a subnet that the interface reaches. -/
def StaticOn (staticIp : StaticIP) (subnet : SubnetRow) : Prop :=
  staticIp ∈ db.staticIps ∧ staticIp.macAddress.toLower = packet.chaddr.toString ∧
    subnet ∈ db.subnets ∧ subnet.id = staticIp.subnetId ∧ subnet.ReachedVia ifaceIps

/-- The lease that `get_active_lease` returns for the client, on a subnet that the interface
reaches. -/
def LeaseOn (lease : Lease) (subnet : SubnetRow) : Prop :=
  db.getActiveLease ord packet.chaddr.toString now = some lease ∧
    subnet ∈ db.subnets ∧ subnet.id = lease.subnetId ∧ subnet.ReachedVia ifaceIps

/-- The address is the first candidate that is in no active lease. -/
def FirstCandidate (ip : Ipv4Addr) (subnet : SubnetRow) : Prop :=
  ∃ before after, candidates ord db ifaceIps = before ++ (ip, subnet) :: after ∧
    Vacant db.leases now ip ∧ ∀ c ∈ before, ¬ Vacant db.leases now c.1

/-- Every address of every enabled range of every reachable subnet is in an active lease. -/
def Exhausted : Prop :=
  ∀ subnet ∈ db.subnets, subnet.ReachedVia ifaceIps → ∀ r ∈ db.dynamicRanges,
    r.subnetId = subnet.id → r.enabled = true → ∀ ip : Ipv4Addr,
      r.rangeStart.toUInt32 ≤ ip.toUInt32 → ip.toUInt32 ≤ r.rangeEnd.toUInt32 →
        ∃ l ∈ db.leases, l.ipAddress = ip ∧ now < l.leaseEnd

/-- The OFFER of an address, with the parameters of a subnet: its mask, its gateway as server and
router, its DNS servers and its domain. -/
structure IsOffer (ip : Ipv4Addr) (subnet : SubnetRow) (offer : DhcpPacket) : Prop where
  messageType : offer.getMessageType = some .offer
  xid : offer.xid = packet.xid
  chaddr : offer.chaddr = packet.chaddr
  yiaddr : offer.yiaddr = ip
  leaseTime : .leaseTime config.defaultLeaseTime ∈ offer.options
  network : ∃ mask : Ipv4Addr, mask.toUInt32.toNat = 2 ^ 32 - 2 ^ (32 - subnet.netmask.toNat) ∧
    networkOptions offer = [.serverIdentifier subnet.gateway, .subnetMask mask,
      .router [subnet.gateway], .dnsServer subnet.dnsServers] ++
      subnet.domainName.toList.map .domainName

end Specification

section Meets

variable {ord : ScanOrder} {config : DhcpConfig} {db : SqliteDb} {now : ℤ} {packet : DhcpPacket}
  {ifaceIps : List Ipv4Addr} {subnet : SubnetRow} (hdb : Consistent db)
include hdb

theorem Consistent.isOffer (hsubnet : subnet ∈ db.subnets) (ip : Ipv4Addr) :
    IsOffer config packet ip subnet (createOffer packet ip subnet.toSubnet config) where
  messageType := rfl
  xid := rfl
  chaddr := rfl
  yiaddr := rfl
  leaseTime := by simp [createOffer]
  network := by
    refine ⟨netmaskFromPrefix subnet.netmask, toNat_prefixMask (hdb.masks subnet hsubnet), ?_⟩
    have hdomain : domainOption subnet.toSubnet = subnet.domainName.toList.map .domainName := by
      have hname : subnet.toSubnet.domainName = subnet.domainName := rfl
      rw [domainOption, hname]
      cases subnet.domainName <;> rfl
    rw [networkOptions_createOffer, hdomain]
    rfl

/-- What is found under the key of a stored subnet. -/
theorem Consistent.getSubnet {id : ℤ} (h : ∃ subnet ∈ db.subnets, subnet.id = id) :
    ∃ subnet ∈ db.subnets, subnet.id = id ∧ db.getSubnet id = some subnet.toSubnet := by
  obtain ⟨subnet, hsubnet, rfl⟩ := h
  exact ⟨subnet, hsubnet, rfl, getSubnet_of_mem hdb.subnetKeys hsubnet⟩

theorem Consistent.ifaceInSubnet (hsubnet : subnet ∈ db.subnets) :
    Ndhcpd.ifaceInSubnet ifaceIps subnet.toSubnet = decide (subnet.ReachedVia ifaceIps) := by
  rw [Bool.eq_iff_iff, decide_eq_true_eq,
    SubnetRow.ifaceInSubnet_iff (hdb.masks subnet hsubnet)]
  rfl

omit hdb in
theorem mem_candidates {c : Ipv4Addr × SubnetRow} :
    c ∈ candidates ord db ifaceIps ↔ c.2 ∈ db.subnets ∧ c.2.ReachedVia ifaceIps ∧
      ∃ r ∈ db.dynamicRanges, r.subnetId = c.2.id ∧ r.enabled = true ∧
        r.rangeStart.toUInt32 ≤ c.1.toUInt32 ∧ c.1.toUInt32 ≤ r.rangeEnd.toUInt32 := by
  obtain ⟨ip, subnet⟩ := c
  simp only [candidates, List.mem_flatMap, List.mem_filter, RowOrder.mem_arrange, decide_eq_true_eq,
    beq_iff_eq, List.mem_map, Prod.mk.injEq, RangeRow.mem_addresses.symm]
  constructor
  · rintro ⟨s, ⟨hs, hreach⟩, r, ⟨⟨hr, hid⟩, henabled⟩, a, ha, rfl, rfl⟩
    exact ⟨hs, hreach, r, hr, hid, henabled, ha⟩
  · rintro ⟨hs, hreach, r, hr, hid, henabled, ha⟩
    exact ⟨subnet, ⟨hs, hreach⟩, r, ⟨⟨hr, hid⟩, henabled⟩, ip, ha, rfl, rfl⟩

omit hdb in
/-- The pool is exhausted exactly if there is no free candidate. -/
theorem exhausted_iff :
    Exhausted db now ifaceIps ↔
      ∀ c ∈ candidates ord db ifaceIps, ¬ Vacant db.leases now c.1 := by
  have hleased : ∀ ip, (∃ l ∈ db.leases, l.ipAddress = ip ∧ now < l.leaseEnd) ↔
      ¬ Vacant db.leases now ip := by
    intro ip
    simp only [Vacant, not_forall, not_le, exists_prop]
  constructor
  · rintro h ⟨ip, subnet⟩ hc
    obtain ⟨hs, hreach, r, hr, hid, henabled, hstart, hend⟩ := mem_candidates.mp hc
    exact (hleased ip).mp (h subnet hs hreach r hr hid henabled ip hstart hend)
  · intro h subnet hs hreach r hr hid henabled ip hstart hend
    exact (hleased ip).mpr (h (ip, subnet)
      (mem_candidates.mpr ⟨hs, hreach, r, hr, hid, henabled, hstart, hend⟩))

/-- The assignment on a reachable subnet is chosen. -/
theorem Consistent.choice_of_staticOn {staticIp : StaticIP}
    (h : StaticOn db packet ifaceIps staticIp subnet) :
    discoverChoice ord db now ifaceIps packet.chaddr.toString =
      some (staticIp.ipAddress, subnet.toSubnet) := by
  obtain ⟨hmem, hmac, hsubnet, hid, hreach⟩ := h
  have hstatic : db.getStaticIpByMac ord packet.chaddr.toString = some staticIp :=
    (getStaticIpByMac_eq_some_iff hdb.reservations).mpr ⟨hmem, hmac⟩
  have hfound : db.getSubnet staticIp.subnetId = some subnet.toSubnet := by
    rw [← hid, getSubnet_of_mem hdb.subnetKeys hsubnet]
  simp [discoverChoice, hstatic, hfound, hdb.ifaceInSubnet hsubnet, hreach]

/-- Without one the choice is dynamic. -/
theorem Consistent.choice_of_not_staticOn
    (h : ¬ ∃ staticIp subnet, StaticOn db packet ifaceIps staticIp subnet) :
    discoverChoice ord db now ifaceIps packet.chaddr.toString =
      dynamicChoice ord db now ifaceIps packet.chaddr.toString := by
  rw [discoverChoice]
  cases hstatic : db.getStaticIpByMac ord packet.chaddr.toString with
  | none => rfl
  | some staticIp =>
    obtain ⟨hmem, hmac⟩ := (getStaticIpByMac_eq_some_iff hdb.reservations).mp hstatic
    obtain ⟨subnet, hsubnet, hid, hfound⟩ := hdb.getSubnet (hdb.staticRefs staticIp hmem)
    have hreach : ¬ subnet.ReachedVia ifaceIps :=
      fun hreach => h ⟨staticIp, subnet, hmem, hmac, hsubnet, hid, hreach⟩
    simp [hfound, hdb.ifaceInSubnet hsubnet, hreach]

/-- The lease on a reachable subnet is chosen. -/
theorem Consistent.choice_of_leaseOn {lease : Lease}
    (h : LeaseOn ord db now packet ifaceIps lease subnet) :
    dynamicChoice ord db now ifaceIps packet.chaddr.toString =
      some (lease.ipAddress, subnet.toSubnet) := by
  obtain ⟨hlease, hsubnet, hid, hreach⟩ := h
  have hfound : db.getSubnet lease.subnetId = some subnet.toSubnet := by
    rw [← hid, getSubnet_of_mem hdb.subnetKeys hsubnet]
  simp [dynamicChoice, hlease, hfound, hdb.ifaceInSubnet hsubnet, hreach]

/-- Without one the pool is searched. -/
theorem Consistent.choice_of_not_leaseOn
    (h : ¬ ∃ lease subnet, LeaseOn ord db now packet ifaceIps lease subnet) :
    dynamicChoice ord db now ifaceIps packet.chaddr.toString =
      poolChoice ord db now ifaceIps := by
  rw [dynamicChoice]
  cases hlease : db.getActiveLease ord packet.chaddr.toString now with
  | none => rfl
  | some lease =>
    obtain ⟨r, hr, -, -, rfl⟩ := SqliteDb.of_getActiveLease hlease
    obtain ⟨subnet, hsubnet, hid, hfound⟩ := hdb.getSubnet (hdb.leaseRefs r hr)
    have hfound' : db.getSubnet r.toLease.subnetId = some subnet.toSubnet := hfound
    have hreach : ¬ subnet.ReachedVia ifaceIps :=
      fun hreach => h ⟨r.toLease, subnet, hlease, hsubnet, hid, hreach⟩
    simp [hfound', hdb.ifaceInSubnet hsubnet, hreach]

/-- The search picks the first free candidate. -/
theorem Consistent.poolChoice_eq_some_iff {choice : Ipv4Addr × Subnet} :
    poolChoice ord db now ifaceIps = some choice ↔
      ∃ ip subnet, FirstCandidate ord db now ifaceIps ip subnet ∧
        choice = (ip, subnet.toSubnet) := by
  rw [poolChoice_eq hdb.masks, Option.map_eq_some_iff]
  constructor
  · rintro ⟨⟨ip, subnet⟩, hfind, rfl⟩
    obtain ⟨hfree, before, after, hlist, hbefore⟩ := List.find?_eq_some_iff_append.mp hfind
    exact ⟨ip, subnet, ⟨before, after, hlist, by simpa using hfree,
      fun c hc => by simpa using hbefore c hc⟩, rfl⟩
  · rintro ⟨ip, subnet, ⟨before, after, hlist, hfree, hbefore⟩, rfl⟩
    refine ⟨(ip, subnet), List.find?_eq_some_iff_append.mpr ⟨by simpa using hfree, before, after,
      hlist, fun c hc => ?_⟩, rfl⟩
    simpa using hbefore c hc

/-- It picks nothing if there is none. -/
theorem Consistent.not_firstCandidate_iff :
    (¬ ∃ ip subnet, FirstCandidate ord db now ifaceIps ip subnet) ↔
      poolChoice ord db now ifaceIps = none := by
  rw [Option.eq_none_iff_forall_ne_some]
  constructor
  · intro hnone choice hchoice
    obtain ⟨ip, subnet, hfirst, -⟩ := hdb.poolChoice_eq_some_iff.mp hchoice
    exact hnone ⟨ip, subnet, hfirst⟩
  · rintro hnone ⟨ip, subnet, hfirst⟩
    exact hnone _ (hdb.poolChoice_eq_some_iff.mpr ⟨ip, subnet, hfirst, rfl⟩)

omit hdb in
theorem FirstCandidate.mem_subnets {ip : Ipv4Addr}
    (h : FirstCandidate ord db now ifaceIps ip subnet) : subnet ∈ db.subnets := by
  obtain ⟨before, after, hlist, -⟩ := h
  have hmem : (ip, subnet) ∈ candidates ord db ifaceIps := by
    rw [hlist]
    exact List.mem_append_right before List.mem_cons_self
  exact (mem_candidates.mp hmem).1

theorem Consistent.poolChoice_eq_none_iff :
    poolChoice ord db now ifaceIps = none ↔ Exhausted db now ifaceIps := by
  rw [poolChoice_eq hdb.masks, Option.map_eq_none_iff, List.find?_eq_none,
    @exhausted_iff ord]
  simp

end Meets

/-- **The specification of DISCOVER.** On a consistent database, with no call failing and the clock
standing still: the client is offered the address reserved for it if that is on a reachable subnet;
otherwise the address of its lease if that is on a reachable subnet; otherwise the first candidate
that is not on lease; each with the parameters of the subnet. It is offered nothing exactly if there
is none of these, and there is no free candidate exactly if all ranges are exhausted. -/
theorem discover_specification (ord : ScanOrder) (config : DhcpConfig) (w : World SqliteDb)
    (hdb : Consistent w.db) (packet : DhcpPacket) (ifaceIps : List Ipv4Addr) :
    let reply := ((handleDiscover packet ifaceIps config).run (serve (SqliteDb.exec ord)) calmly
      w).value
    let offered := fun ip subnet => ∃ offer, reply = some offer ∧
      IsOffer config packet ip subnet offer
    let reserved := ∃ staticIp subnet, StaticOn w.db packet ifaceIps staticIp subnet
    let leased := ∃ lease subnet, LeaseOn ord w.db w.clock packet ifaceIps lease subnet
    let free := ∃ ip subnet, FirstCandidate ord w.db w.clock ifaceIps ip subnet
    (∀ staticIp subnet, StaticOn w.db packet ifaceIps staticIp subnet →
      offered staticIp.ipAddress subnet) ∧
    (¬ reserved → ∀ lease subnet, LeaseOn ord w.db w.clock packet ifaceIps lease subnet →
      offered lease.ipAddress subnet) ∧
    (¬ reserved → ¬ leased → ∀ ip subnet, FirstCandidate ord w.db w.clock ifaceIps ip subnet →
      offered ip subnet) ∧
    (reply = none ↔ ¬ reserved ∧ ¬ leased ∧ ¬ free) ∧
    (¬ free ↔ Exhausted w.db w.clock ifaceIps) := by
  intro reply offered reserved leased free
  have hreply : reply = (discoverChoice ord w.db w.clock ifaceIps packet.chaddr.toString).map
      fun choice => createOffer packet choice.1 choice.2 config := handleDiscover_calmly
  have hoffered : ∀ ip, ∀ subnet ∈ w.db.subnets,
      discoverChoice ord w.db w.clock ifaceIps packet.chaddr.toString =
        some (ip, subnet.toSubnet) → offered ip subnet := by
    intro ip subnet hsubnet hchoice
    refine ⟨createOffer packet ip subnet.toSubnet config, ?_, hdb.isOffer hsubnet ip⟩
    rw [hreply, hchoice, Option.map_some]
  have hpool : ¬ reserved → ¬ leased →
      discoverChoice ord w.db w.clock ifaceIps packet.chaddr.toString =
        poolChoice ord w.db w.clock ifaceIps := by
    intro hstatic hlease
    rw [hdb.choice_of_not_staticOn hstatic, hdb.choice_of_not_leaseOn hlease]
  have hfree : ¬ free ↔ poolChoice ord w.db w.clock ifaceIps = none := hdb.not_firstCandidate_iff
  have hstaticOn : ∀ staticIp subnet, StaticOn w.db packet ifaceIps staticIp subnet →
      offered staticIp.ipAddress subnet := fun staticIp subnet h =>
    hoffered _ subnet h.2.2.1 (hdb.choice_of_staticOn h)
  have hleaseOn : ¬ reserved → ∀ lease subnet,
      LeaseOn ord w.db w.clock packet ifaceIps lease subnet → offered lease.ipAddress subnet := by
    intro hstatic lease subnet h
    refine hoffered _ subnet h.2.1 ?_
    rw [hdb.choice_of_not_staticOn hstatic, hdb.choice_of_leaseOn h]
  refine ⟨hstaticOn, hleaseOn, fun hstatic hlease ip subnet hfirst => ?_, ?_,
    hfree.trans hdb.poolChoice_eq_none_iff⟩
  · refine hoffered ip subnet hfirst.mem_subnets ?_
    rw [hpool hstatic hlease]
    exact hdb.poolChoice_eq_some_iff.mpr ⟨ip, subnet, hfirst, rfl⟩
  · constructor
    · -- whatever there is would be offered
      intro hnone
      have hno : ∀ ip subnet, ¬ offered ip subnet := by
        rintro ip subnet ⟨offer, hoffer, -⟩
        cases hnone.symm.trans hoffer
      have hstatic : ¬ reserved := by
        rintro ⟨staticIp, subnet, h⟩
        exact hno _ _ (hstaticOn staticIp subnet h)
      have hlease : ¬ leased := by
        rintro ⟨lease, subnet, h⟩
        exact hno _ _ (hleaseOn hstatic lease subnet h)
      refine ⟨hstatic, hlease, hfree.mpr ?_⟩
      rw [hreply, hpool hstatic hlease, Option.map_eq_none_iff] at hnone
      exact hnone
    · rintro ⟨hstatic, hlease, hnone⟩
      rw [hreply, hpool hstatic hlease, hfree.mp hnone, Option.map_none]

/-- Alice has the first address of the range on lease, and Bob is offered the second one. -/
theorem discover_specification_second :
    ∃ offer, ((handleDiscover (Sample.discover Sample.bob) Sample.iface Sample.config).run
        (serve (SqliteDb.exec .rowid)) calmly ⟨Sample.leased, 30⟩).value = some offer ∧
      IsOffer Sample.config (Sample.discover Sample.bob) (.new 10 0 0 11) Sample.subnet offer := by
  have hdb : Consistent Sample.leased := by
    refine ⟨by decide, by decide, by decide, by decide, fun l hl => ?_⟩
    rw [List.mem_singleton.mp hl]
    exact ⟨Sample.subnet, by decide, rfl⟩
  have hlease : Sample.leased.getActiveLease .rowid Sample.bob.toString 30 = none := by
    decide +kernel
  have hlist : candidates .rowid Sample.leased Sample.iface =
      [(.new 10 0 0 10, Sample.subnet)] ++ (.new 10 0 0 11, Sample.subnet) ::
        (candidates .rowid Sample.leased Sample.iface).drop 2 := by decide +kernel
  obtain ⟨-, -, hpool, -⟩ := discover_specification .rowid Sample.config ⟨Sample.leased, 30⟩ hdb
    (Sample.discover Sample.bob) Sample.iface
  refine hpool ?_ ?_ _ _ ⟨_, _, hlist, ?_, ?_⟩
  · rintro ⟨staticIp, subnet, hmem, -⟩
    cases hmem
  · rintro ⟨lease, subnet, hfound, -⟩
    cases hlease.symm.trans hfound
  · intro l hl hip
    rw [List.mem_singleton.mp hl] at hip
    exact absurd hip (by decide)
  · intro c hc hvacant
    rw [List.mem_singleton.mp hc] at hvacant
    exact absurd (hvacant Sample.lease List.mem_cons_self rfl) (by decide)

end Ndhcpd
