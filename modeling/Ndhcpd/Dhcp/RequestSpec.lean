import Ndhcpd.Dhcp.RequestReads
import Ndhcpd.Utils.Network

/-!
# The specification of REQUEST

What `handle_request` is for, said without its calls and loops: an address is acknowledged if it
is reserved for the client on a subnet that the interface reaches, or if nothing is reserved for
the client, an enabled range of a reachable subnet covers the address and nobody else has it on
lease. In the second case, and only then, the lease table changes: one active lease of the client
on the address goes, if there is one, and a new lease comes.

The handler runs calmly. `requestDecision` is what its reads decide, as a function of the
database; `handleRequest_calmly_eq` gives the whole run. `request_specification` compares the
decision with the specification, on databases that are `WellKept`.
-/

namespace Ndhcpd

/-! ### The run -/

section Decision

variable (ord : ScanOrder) (db : SqliteDb) (now : ℤ) (packet : DhcpPacket)
  (ifaceIps : List Ipv4Addr)

/-- The decision on a client with a static assignment. -/
def staticDecision (ip : Ipv4Addr) (staticIp : StaticIP) : RequestPlan :=
  if staticIp.ipAddress = ip then
    match db.getSubnet staticIp.subnetId with
    | some subnet => if ifaceInSubnet ifaceIps subnet then .confirm ip subnet else .refuse
    | none => .refuse
  else .refuse

/-- The decision on a client without one. -/
def dynamicDecision (ip : Ipv4Addr) : RequestPlan :=
  match servingRange ord db ifaceIps ip with
  | none => .refuse
  | some range =>
    match db.getSubnet range.subnetId with
    | none => .refuse
    | some subnet => planLease (requestMac packet) ip range subnet (db.listActiveLeases ord now)

/-- What the reads of `handleRequest` decide. -/
def requestDecision : RequestPlan :=
  match requestedIp packet with
  | none => .refuse
  | some ip =>
    match db.getStaticIpByMac ord (requestMac packet) with
    | some staticIp => staticDecision db ifaceIps ip staticIp
    | none => dynamicDecision ord db now packet ifaceIps ip

/-- The reply that goes with a decision. -/
def RequestPlan.reply (config : DhcpConfig) : RequestPlan → Option DhcpPacket
  | .refuse => none
  | .confirm ip subnet | .grant ip _ subnet _ => some (createAck packet ip subnet config)

/-- The database after a decision was carried out. -/
def RequestPlan.effect (config : DhcpConfig) : RequestPlan → SqliteDb
  | .refuse | .confirm _ _ => db
  | .grant ip range _ none => db.insertLease (newLease packet config ip range now)
  | .grant ip range _ (some id) =>
    (db.expireLease id).insertLease (newLease packet config ip range now)

end Decision

section Run

variable {ord : ScanOrder} {w : World SqliteDb} {packet : DhcpPacket} {ifaceIps : List Ipv4Addr}
  {config : DhcpConfig} {ip : Ipv4Addr}

/-- What the reads of a REQUEST answer on the SQLite store. -/
def SqliteDb.requestReads (ord : ScanOrder) (db : SqliteDb) (now : ℤ) : RequestReads where
  staticOf := db.getStaticIpByMac ord
  subnet := db.getSubnet
  ranges := db.listRanges ord none
  holder ip := (db.listActiveLeases ord now).find? (·.ipAddress == ip)

theorem readsAs_sqlite :
    ReadsAs (SqliteDb.exec ord) w (w.db.requestReads ord w.clock) where
  staticOf _ := rfl
  subnet _ := rfl
  ranges := rfl
  active := ⟨_, rfl, fun _ => rfl⟩

/-- **The reads** of a REQUEST in a calm run. -/
theorem planRequest_calmly :
    (planRequest packet ifaceIps).run (serve (SqliteDb.exec ord)) calmly w =
      ⟨requestDecision ord w.db w.clock packet ifaceIps, w, calmly⟩ :=
  planRequest_calmly_of readsAs_sqlite

/-- **Inversion.** A decision is a refusal, the confirmation of an assignment, or what the active
leases decide on an address that a range serves. -/
theorem requestDecision_cases (ord : ScanOrder) (db : SqliteDb) (now : ℤ) (packet : DhcpPacket)
    (ifaceIps : List Ipv4Addr) :
    requestDecision ord db now packet ifaceIps = .refuse ∨
    (∃ staticIp subnet, requestedIp packet = some staticIp.ipAddress ∧
      db.getStaticIpByMac ord (requestMac packet) = some staticIp ∧
      db.getSubnet staticIp.subnetId = some subnet ∧ ifaceInSubnet ifaceIps subnet = true ∧
      requestDecision ord db now packet ifaceIps = .confirm staticIp.ipAddress subnet) ∨
    ∃ ip range subnet, requestedIp packet = some ip ∧
      db.getStaticIpByMac ord (requestMac packet) = none ∧
      servingRange ord db ifaceIps ip = some range ∧ db.getSubnet range.subnetId = some subnet ∧
      requestDecision ord db now packet ifaceIps =
        planLease (requestMac packet) ip range subnet (db.listActiveLeases ord now) := by
  rw [requestDecision]
  cases hip : requestedIp packet with
  | none => exact .inl rfl
  | some ip =>
    cases hstatic : db.getStaticIpByMac ord (requestMac packet) with
    | some staticIp =>
      simp only [staticDecision]
      by_cases haddress : staticIp.ipAddress = ip
      · -- the client asks for the address that is reserved for it
        subst haddress
        rw [if_pos rfl]
        cases hsubnet : db.getSubnet staticIp.subnetId with
        | none => exact .inl rfl
        | some subnet =>
          cases hiface : ifaceInSubnet ifaceIps subnet with
          | false => exact .inl (by simp [hiface])
          | true => exact .inr (.inl ⟨staticIp, subnet, rfl, rfl, hsubnet, hiface, by simp [hiface]⟩)
      · exact .inl (if_neg haddress)
    | none =>
      simp only [dynamicDecision]
      cases hrange : servingRange ord db ifaceIps ip with
      | none => exact .inl rfl
      | some range =>
        cases hsubnet : db.getSubnet range.subnetId with
        | none => exact .inl (by simp [hsubnet])
        | some subnet =>
          exact .inr (.inr ⟨ip, range, subnet, rfl, trivial, hrange, hsubnet, by simp [hsubnet]⟩)

/-- A grant is for a client without an assignment, and from the serving range. -/
theorem of_requestDecision_eq_grant {db : SqliteDb} {now : ℤ} {range : DynamicRange}
    {subnet : Subnet} {old : Option ℤ}
    (h : requestDecision ord db now packet ifaceIps = .grant ip range subnet old) :
    requestedIp packet = some ip ∧ db.getStaticIpByMac ord (requestMac packet) = none ∧
      servingRange ord db ifaceIps ip = some range ∧ db.getSubnet range.subnetId = some subnet ∧
      planLease (requestMac packet) ip range subnet (db.listActiveLeases ord now) =
        .grant ip range subnet old := by
  rcases requestDecision_cases ord db now packet ifaceIps with
    hrefuse | ⟨staticIp, subnet', -, -, -, -, hconfirm⟩ |
    ⟨ip', range', subnet', hip, hstatic, hrange, hsubnet, hplan⟩
  · cases hrefuse.symm.trans h
  · cases hconfirm.symm.trans h
  · rw [hplan] at h
    rcases planLease_cases (requestMac packet) ip' range' subnet' (db.listActiveLeases ord now) with
      hrefuse | ⟨old', hgrant⟩
    · cases hrefuse.symm.trans h
    · cases hgrant.symm.trans h
      exact ⟨hip, hstatic, hrange, hsubnet, h⟩

/-- A lease that is granted calmly begins at the clock reading. -/
theorem grantLease_calmly {range : DynamicRange} {subnet : Subnet}
    (hsub : w.db.hasSubnet range.subnetId = true) :
    (grantLease packet config ip range subnet).run (serve (SqliteDb.exec ord)) calmly w =
      ⟨some (createAck packet ip subnet config),
        ⟨w.db.insertLease (newLease packet config ip range w.clock), w.clock⟩, calmly⟩ := by
  have hwait : ∀ n, ((calmly n).wait : ℤ) = 0 := fun _ => rfl
  rw [grantLease_run_ok rfl hsub, hwait, hwait, add_zero, add_zero]
  rfl

/-- **The whole run.** The reads decide, and what was decided is carried out at the same clock
reading. -/
theorem handleRequest_calmly_eq :
    (handleRequest packet ifaceIps config).run (serve (SqliteDb.exec ord)) calmly w =
      ⟨(requestDecision ord w.db w.clock packet ifaceIps).reply packet config,
        ⟨(requestDecision ord w.db w.clock packet ifaceIps).effect w.db w.clock packet config,
          w.clock⟩, calmly⟩ := by
  rw [handleRequest_eq, Program.run_bind, planRequest_calmly]
  cases hplan : requestDecision ord w.db w.clock packet ifaceIps with
  | refuse => rfl
  | confirm ip subnet => rfl
  | grant ip range subnet old =>
    obtain ⟨-, -, -, hsubnet, -⟩ := of_requestDecision_eq_grant hplan
    have hsub := SqliteDb.hasSubnet_of_getSubnet hsubnet
    cases old with
    | none => exact grantLease_calmly hsub
    | some id =>
      have hexpired : ((RequestPlan.grant ip range subnet (some id)).carryOut packet config).run
          (serve (SqliteDb.exec ord)) calmly w =
          (grantLease packet config ip range subnet).run (serve (SqliteDb.exec ord)) calmly
            ⟨w.db.expireLease id, w.clock + 0⟩ := renewal_run
      rw [hexpired, add_zero]
      exact grantLease_calmly hsub

end Run

/-! ### The specification -/

/-- The subnet covers the address: address and network agree on the prefix. -/
def SubnetRow.Covers (s : SubnetRow) (ip : Ipv4Addr) : Prop :=
  ip.toUInt32.toNat / 2 ^ (32 - s.netmask.toNat) =
    s.network.toUInt32.toNat / 2 ^ (32 - s.netmask.toNat)

instance (s : SubnetRow) (ip : Ipv4Addr) : Decidable (s.Covers ip) :=
  inferInstanceAs (Decidable (_ = _))

section Specification

variable (db : SqliteDb) (now : ℤ) (ifaceIps : List Ipv4Addr) (mac : MacAddress) (ip : Ipv4Addr)

/-- A database on which requests are specified: primary keys are unique, netmasks have at most 32
bits, a client has at most one static assignment, active leases on an address belong to one
client, and leases are filed in lower case. -/
structure WellKept : Prop where
  subnetKeys : (db.subnets.map (·.id)).Nodup
  leaseKeys : (db.leases.map (·.id)).Nodup
  masks : ∀ s ∈ db.subnets, s.netmask ≤ 32
  reservations : ∀ s ∈ db.staticIps, ∀ s' ∈ db.staticIps,
    s.macAddress.toLower = s'.macAddress.toLower → s = s'
  exclusive : Exclusive db.leases now
  lowerCase : ∀ l ∈ db.leases, l.macAddress.toLower = l.macAddress

/-- The subnet exists and covers an address of the interface. -/
def Reachable (subnetId : ℤ) : Prop :=
  ∃ s ∈ db.subnets, s.id = subnetId ∧ ∃ a ∈ ifaceIps, s.Covers a

/-- The address is reserved for the client on a reachable subnet. -/
def Reserved : Prop :=
  ∃ s ∈ db.staticIps, s.macAddress.toLower = mac.toString ∧ s.ipAddress = ip ∧
    Reachable db ifaceIps s.subnetId

/-- An enabled range of a reachable subnet that contains the address. -/
def Serves (r : DynamicRange) : Prop :=
  r.enabled = true ∧ (r.rangeStart.toUInt32 ≤ ip.toUInt32 ∧ ip.toUInt32 ≤ r.rangeEnd.toUInt32) ∧
    Reachable db ifaceIps r.subnetId

/-- An active lease of the client on the address. -/
def OwnLease (l : LeaseRow) : Prop :=
  l.ipAddress = ip ∧ now < l.leaseEnd ∧ l.macAddress.toLower = mac.toString

/-- Nothing is reserved for the client, a range serves the address, and no active lease on it
belongs to another client. -/
structure Leasable : Prop where
  unreserved : ∀ s ∈ db.staticIps, s.macAddress.toLower ≠ mac.toString
  served : ∃ r ∈ db.dynamicRanges, Serves db ifaceIps ip r.toRange
  free : ∀ l ∈ db.leases, l.ipAddress = ip → now < l.leaseEnd →
    l.macAddress.toLower = mac.toString

/-- The table after the address was leased to the client: one active lease of the client on it
goes, if there is one, and a new lease comes, from the first range that serves the address. -/
def Leased (ord : ScanOrder) (config : DhcpConfig) (leases' : List LeaseRow) : Prop :=
  ∃ before range after row, db.listRanges ord none = before ++ range :: after ∧
    Serves db ifaceIps ip range ∧ (∀ r ∈ before, ¬ Serves db ifaceIps ip r) ∧
    row.macAddress = mac.toString ∧ row.ipAddress = ip ∧ row.subnetId = range.subnetId ∧
    row.leaseStart = now ∧ row.leaseEnd = now + config.defaultLeaseTime.toNat ∧
    ((∃ l ∈ db.leases, OwnLease now mac ip l ∧ leases' = db.leases.erase l ++ [row]) ∨
      (∀ l ∈ db.leases, ¬ OwnLease now mac ip l) ∧ leases' = db.leases ++ [row])

end Specification

/-! ### The decision meets the specification -/

section Meets

variable {ord : ScanOrder} {db : SqliteDb} {now : ℤ} {ifaceIps : List Ipv4Addr}
  {mac : MacAddress} {ip : Ipv4Addr} (hkept : WellKept db now)
include hkept

omit hkept in
/-- A subnet is looked up by its key. -/
theorem getSubnet_of_mem (hkeys : (db.subnets.map (·.id)).Nodup) {s : SubnetRow}
    (hs : s ∈ db.subnets) : db.getSubnet s.id = some s.toSubnet := by
  have hfind : db.subnets.find? (·.id == s.id) = some s :=
    (find?_key_eq_some_iff hkeys).mpr ⟨hs, rfl⟩
  rw [SqliteDb.getSubnet, hfind, Option.map_some]

omit hkept in
/-- The mask test is exact. -/
theorem SubnetRow.ifaceInSubnet_iff {s : SubnetRow} (hmask : s.netmask ≤ 32) :
    ifaceInSubnet ifaceIps s.toSubnet = true ↔ ∃ a ∈ ifaceIps, s.Covers a := by
  have hpos := Nat.two_pow_pos (32 - s.netmask.toNat)
  simp only [ifaceInSubnet, List.any_eq_true, beq_iff_eq, SubnetRow.toSubnet,
    ← UInt32.toNat_inj, toNat_and_prefixMask hmask, PrefixBlock.first, SubnetRow.Covers]
  simp only [Nat.mul_left_inj hpos.ne']

/-- The subnet of the key exists and is reachable. -/
theorem WellKept.reachable_iff {id : ℤ} :
    (∃ subnet, db.getSubnet id = some subnet ∧ ifaceInSubnet ifaceIps subnet = true) ↔
      Reachable db ifaceIps id := by
  constructor
  · rintro ⟨subnet, hsubnet, hiface⟩
    obtain ⟨s, hs, rfl⟩ := Option.map_eq_some_iff.mp hsubnet
    have hmem := List.mem_of_find?_eq_some hs
    exact ⟨s, hmem, by simpa using List.find?_some hs,
      (SubnetRow.ifaceInSubnet_iff (hkept.masks s hmem)).mp hiface⟩
  · rintro ⟨s, hs, rfl, hcovers⟩
    exact ⟨s.toSubnet, getSubnet_of_mem hkept.subnetKeys hs,
      (SubnetRow.ifaceInSubnet_iff (hkept.masks s hs)).mpr hcovers⟩

/-- The loop tests what the specification says. -/
theorem WellKept.serves_iff {r : DynamicRange} :
    (r.enabled && r.covers ip && reachable ifaceIps db r) = true ↔ Serves db ifaceIps ip r := by
  rw [Bool.and_eq_true, Bool.and_eq_true, reachable, Option.any_eq_true, hkept.reachable_iff,
    and_assoc, DynamicRange.covers, Bool.and_eq_true, decide_eq_true_eq, decide_eq_true_eq]
  rfl

omit hkept in
/-- Nothing is reserved for the client exactly if the lookup finds nothing. -/
theorem getStaticIpByMac_eq_none_iff :
    db.getStaticIpByMac ord mac.toString = none ↔
      ∀ s ∈ db.staticIps, s.macAddress.toLower ≠ mac.toString := by
  rw [SqliteDb.getStaticIpByMac, List.head?_eq_none_iff]
  constructor
  · intro hnone s hs hmac
    have hmem : s ∈ ord.staticIps.arrange (db.staticIps.filter fun s =>
        s.macAddress.toLower == mac.toString.toLower) := by
      simp [hs, hmac]
    rw [hnone] at hmem
    cases hmem
  · intro h
    refine List.eq_nil_iff_forall_not_mem.mpr fun s hs => ?_
    obtain ⟨hmem, hmac⟩ := List.mem_filter.mp (ord.staticIps.mem_arrange.mp hs)
    exact h s hmem (by simpa using hmac)

omit hkept in
/-- The lookup finds the assignment of the client. -/
theorem getStaticIpByMac_eq_some_iff {s : StaticIP} (hone : ∀ s ∈ db.staticIps,
      ∀ s' ∈ db.staticIps, s.macAddress.toLower = s'.macAddress.toLower → s = s') :
    db.getStaticIpByMac ord mac.toString = some s ↔
      s ∈ db.staticIps ∧ s.macAddress.toLower = mac.toString := by
  constructor
  · intro h
    obtain ⟨hs, hmac⟩ := SqliteDb.of_getStaticIpByMac h
    exact ⟨hs, hmac.trans mac.toLower_toString⟩
  · rintro ⟨hs, hmac⟩
    cases hfound : db.getStaticIpByMac ord mac.toString with
    | none => exact absurd hmac (getStaticIpByMac_eq_none_iff.mp hfound s hs)
    | some s' =>
      obtain ⟨hs', hmac'⟩ := SqliteDb.of_getStaticIpByMac hfound
      rw [MacAddress.toLower_toString] at hmac'
      rw [hone s' hs' s hs (hmac'.trans hmac.symm)]

/-- The range that is found is the first one that serves the address. -/
theorem WellKept.servingRange_eq_some_iff {range : DynamicRange} :
    servingRange ord db ifaceIps ip = some range ↔
      ∃ before after, db.listRanges ord none = before ++ range :: after ∧
        Serves db ifaceIps ip range ∧ ∀ r ∈ before, ¬ Serves db ifaceIps ip r := by
  rw [servingRange, List.find?_eq_some_iff_append, hkept.serves_iff]
  constructor
  · rintro ⟨hserves, before, after, hlist, hbefore⟩
    refine ⟨before, after, hlist, hserves, fun r hr hr' => ?_⟩
    simpa [hkept.serves_iff.mpr hr'] using hbefore r hr
  · rintro ⟨before, after, hlist, hserves, hbefore⟩
    refine ⟨hserves, before, after, hlist, fun r hr => ?_⟩
    rw [Bool.not_eq_true', Bool.eq_false_iff]
    exact fun hr' => hbefore r hr (hkept.serves_iff.mp hr')

/-- A range is found if some stored range serves the address. -/
theorem WellKept.servingRange_isSome (h : ∃ r ∈ db.dynamicRanges, Serves db ifaceIps ip r.toRange) :
    ∃ range, servingRange ord db ifaceIps ip = some range := by
  obtain ⟨r, hr, hserves⟩ := h
  have hlisted : r.toRange ∈ db.listRanges ord none :=
    SqliteDb.mem_listRanges.mpr ⟨r, ⟨hr, by simp⟩, rfl⟩
  refine Option.isSome_iff_exists.mp (List.find?_isSome.mpr ⟨r.toRange, hlisted, ?_⟩)
  exact hkept.serves_iff.mpr hserves

/-- Deleting the row of an active lease deletes that lease. -/
theorem WellKept.expireLease_leases {l : LeaseRow} (hl : l ∈ db.leases) :
    (db.expireLease l.id).leases = db.leases.erase l := by
  have hnodup : db.leases.Nodup := List.Nodup.of_map _ hkept.leaseKeys
  rw [hnodup.erase_eq_filter]
  refine List.filter_congr fun l' hl' => ?_
  have hkey : l'.id = l.id ↔ l' = l :=
    ⟨fun hid => List.inj_on_of_nodup_map hkept.leaseKeys hl' hl hid, fun h => h ▸ rfl⟩
  rw [Bool.eq_iff_iff, bne_iff_ne, bne_iff_ne, ne_eq, ne_eq, hkey]

variable {packet : DhcpPacket}

/-- A reserved address is confirmed. -/
theorem WellKept.decision_of_reserved (hip : requestedIp packet = some ip)
    (h : Reserved db ifaceIps packet.chaddr ip) :
    ∃ subnet, requestDecision ord db now packet ifaceIps = .confirm ip subnet := by
  obtain ⟨s, hs, hmac, rfl, hreach⟩ := h
  obtain ⟨subnet, hsubnet, hiface⟩ := hkept.reachable_iff.mpr hreach
  have hstatic : db.getStaticIpByMac ord (requestMac packet) = some s := by
    rw [requestMac_eq]
    exact (getStaticIpByMac_eq_some_iff hkept.reservations).mpr ⟨hs, hmac⟩
  exact ⟨subnet, by simp [requestDecision, hip, hstatic, staticDecision, hsubnet, hiface]⟩

/-- What is confirmed is reserved. -/
theorem WellKept.reserved_of_decision {subnet : Subnet}
    (h : requestDecision ord db now packet ifaceIps = .confirm ip subnet) :
    requestedIp packet = some ip ∧ Reserved db ifaceIps packet.chaddr ip := by
  rcases requestDecision_cases ord db now packet ifaceIps with
    hrefuse | ⟨s, subnet', hip, hstatic, hsubnet, hiface, hconfirm⟩ |
    ⟨ip', range, subnet', -, -, -, -, hplan⟩
  · cases hrefuse.symm.trans h
  · cases hconfirm.symm.trans h
    rw [requestMac_eq] at hstatic
    obtain ⟨hs, hmac⟩ := (getStaticIpByMac_eq_some_iff hkept.reservations).mp hstatic
    exact ⟨hip, s, hs, hmac, rfl, hkept.reachable_iff.mp ⟨subnet, hsubnet, hiface⟩⟩
  · rcases planLease_cases (requestMac packet) ip' range subnet' (db.listActiveLeases ord now) with
      hrefuse | ⟨old, hgrant⟩
    · cases (hplan.trans hrefuse).symm.trans h
    · cases (hplan.trans hgrant).symm.trans h

/-- What the active leases decide on an address that nobody else holds. -/
theorem WellKept.planLease_of_free (range : DynamicRange) (subnet : Subnet)
    (hfree : ∀ l ∈ db.leases, l.ipAddress = ip → now < l.leaseEnd →
      l.macAddress.toLower = mac.toString) :
    ((∀ l ∈ db.leases, ¬ OwnLease now mac ip l) ∧
      planLease mac.toString ip range subnet (db.listActiveLeases ord now) =
        .grant ip range subnet none) ∨
    ∃ l ∈ db.leases, OwnLease now mac ip l ∧
      planLease mac.toString ip range subnet (db.listActiveLeases ord now) =
        .grant ip range subnet (some l.id) := by
  obtain ⟨hvacant, hplan⟩ | ⟨l, hl, hact, hip, hplan⟩ :=
    @planLease_listActiveLeases ord db mac.toString ip range subnet now
  · refine .inl ⟨fun l hl hown => ?_, hplan⟩
    exact absurd (hvacant l hl hown.1) (by have := hown.2.1; omega)
  · have hmac := hfree l hl hip hact
    have hname : l.macAddress = mac.toString := (hkept.lowerCase l hl).symm.trans hmac
    exact .inr ⟨l, hl, ⟨hip, hact, hmac⟩, by rw [hplan, if_pos hname]⟩

/-- **A leasable address is leased.** -/
theorem WellKept.leased_of_leasable (config : DhcpConfig) (hip : requestedIp packet = some ip)
    (h : Leasable db now ifaceIps packet.chaddr ip) :
    ∃ range subnet old, requestDecision ord db now packet ifaceIps = .grant ip range subnet old ∧
      Leased db now ifaceIps packet.chaddr ip ord config
        (RequestPlan.effect db now packet config (.grant ip range subnet old)).leases := by
  have hstatic : db.getStaticIpByMac ord (requestMac packet) = none := by
    rw [requestMac_eq]
    exact getStaticIpByMac_eq_none_iff.mpr h.unreserved
  obtain ⟨range, hrange⟩ := @WellKept.servingRange_isSome ord db now ifaceIps ip hkept h.served
  obtain ⟨before, after, hlist, hserves, hbefore⟩ := hkept.servingRange_eq_some_iff.mp hrange
  obtain ⟨subnet, hsubnet, -⟩ := hkept.reachable_iff.mpr hserves.2.2
  have hdecision : requestDecision ord db now packet ifaceIps =
      planLease packet.chaddr.toString ip range subnet (db.listActiveLeases ord now) := by
    rw [← requestMac_eq packet]
    simp [requestDecision, hip, hstatic, dynamicDecision, hrange, hsubnet]
  -- The new row is the same in both cases; they differ in what goes.
  obtain ⟨hnone, hplan⟩ | ⟨l, hl, hown, hplan⟩ :=
    @WellKept.planLease_of_free ord db now packet.chaddr ip hkept range subnet h.free
  · exact ⟨range, subnet, none, hdecision.trans hplan, before, range, after,
      (newLease packet config ip range now).toRow (db.leaseSeq + 1), hlist, hserves, hbefore,
      requestMac_eq packet, rfl, rfl, rfl, rfl, .inr ⟨hnone, rfl⟩⟩
  · refine ⟨range, subnet, some l.id, hdecision.trans hplan, before, range, after,
      (newLease packet config ip range now).toRow (db.leaseSeq + 1), hlist, hserves, hbefore,
      requestMac_eq packet, rfl, rfl, rfl, rfl, .inl ⟨l, hl, hown, ?_⟩⟩
    rw [← hkept.expireLease_leases hl]
    rfl

/-- What is granted is leasable. -/
theorem WellKept.leasable_of_decision {range : DynamicRange} {subnet : Subnet} {old : Option ℤ}
    (h : requestDecision ord db now packet ifaceIps = .grant ip range subnet old) :
    requestedIp packet = some ip ∧ Leasable db now ifaceIps packet.chaddr ip := by
  obtain ⟨hip, hstatic, hrange, -, hplan⟩ := of_requestDecision_eq_grant h
  rw [requestMac_eq] at hstatic hplan
  obtain ⟨before, after, hlist, hserves, -⟩ := hkept.servingRange_eq_some_iff.mp hrange
  have hlisted : range ∈ db.listRanges ord none := by
    rw [hlist]
    exact List.mem_append_right before List.mem_cons_self
  obtain ⟨r, ⟨hr, -⟩, rfl⟩ := SqliteDb.mem_listRanges.mp hlisted
  refine ⟨hip, getStaticIpByMac_eq_none_iff.mp hstatic, ⟨r, hr, hserves⟩, fun l hl haddr hact => ?_⟩
  rw [hkept.lowerCase l hl]
  exact heldBy_of_planLease hkept.exclusive hplan l hl haddr hact

/-- **What is acknowledged.** -/
theorem WellKept.acknowledges_iff (config : DhcpConfig) :
    (∃ ack, (requestDecision ord db now packet ifaceIps).reply packet config = some ack ∧
      ack.getMessageType = some .ack ∧ ack.yiaddr = ip) ↔
    requestedIp packet = some ip ∧ (Reserved db ifaceIps packet.chaddr ip ∨
      Leasable db now ifaceIps packet.chaddr ip) := by
  constructor
  · rintro ⟨ack, hack, -, rfl⟩
    cases hplan : requestDecision ord db now packet ifaceIps with
    | refuse =>
      rw [hplan] at hack
      cases hack
    | confirm ip subnet =>
      rw [hplan] at hack
      cases hack
      obtain ⟨hip, hreserved⟩ := hkept.reserved_of_decision hplan
      exact ⟨hip, .inl hreserved⟩
    | grant ip range subnet old =>
      rw [hplan] at hack
      cases hack
      obtain ⟨hip, hleasable⟩ := hkept.leasable_of_decision hplan
      exact ⟨hip, .inr hleasable⟩
  · rintro ⟨hip, hreserved | hleasable⟩
    · -- in a well-kept database the two cases exclude each other, so each decides the plan
      obtain ⟨subnet, hplan⟩ := @WellKept.decision_of_reserved ord db now ifaceIps ip hkept packet
        hip hreserved
      exact ⟨createAck packet ip subnet config, by rw [hplan]; rfl, rfl, rfl⟩
    · obtain ⟨range, subnet, old, hplan, -⟩ := @WellKept.leased_of_leasable ord db now ifaceIps ip
        hkept packet config hip hleasable
      exact ⟨createAck packet ip subnet config, by rw [hplan]; rfl, rfl, rfl⟩

end Meets

/-- **The specification of REQUEST.** On a well-kept database, with no call failing and the clock
standing still: an ACK for an address is returned exactly if the address is requested and either
reserved for the client on a reachable subnet, or leasable; if it is leasable the table is the
one after the lease, and in every other case nothing changes. -/
theorem request_specification (ord : ScanOrder) (config : DhcpConfig) (w : World SqliteDb)
    (hkept : WellKept w.db w.clock) (packet : DhcpPacket) (ifaceIps : List Ipv4Addr) :
    let out := (handleRequest packet ifaceIps config).run (serve (SqliteDb.exec ord)) calmly w
    (∀ ip, (∃ ack, out.value = some ack ∧ ack.getMessageType = some .ack ∧ ack.yiaddr = ip) ↔
      requestedIp packet = some ip ∧ (Reserved w.db ifaceIps packet.chaddr ip ∨
        Leasable w.db w.clock ifaceIps packet.chaddr ip)) ∧
    (∀ ip, requestedIp packet = some ip → Leasable w.db w.clock ifaceIps packet.chaddr ip →
      Leased w.db w.clock ifaceIps packet.chaddr ip ord config out.state.db.leases) ∧
    ((¬ ∃ ip, requestedIp packet = some ip ∧
      Leasable w.db w.clock ifaceIps packet.chaddr ip) → out.state.db = w.db) := by
  intro out
  have hout : out = _ := handleRequest_calmly_eq
  refine ⟨fun ip => ?_, ?_, ?_⟩
  · rw [hout]
    exact hkept.acknowledges_iff config
  · intro ip hip hleasable
    obtain ⟨range, subnet, old, hplan, hleased⟩ := hkept.leased_of_leasable config hip hleasable
    rw [hout, hplan]
    exact hleased
  · intro hnot
    rw [hout]
    cases hplan : requestDecision ord w.db w.clock packet ifaceIps with
    | refuse => rfl
    | confirm ip subnet => rfl
    | grant ip range subnet old => exact absurd ⟨ip, hkept.leasable_of_decision hplan⟩ hnot

namespace Sample

theorem wellKept_leased : WellKept leased 30 where
  subnetKeys := by decide
  leaseKeys := by decide
  masks := by decide
  reservations := by decide
  exclusive := by
    intro l hl l' hl' _ _ _
    rw [List.mem_singleton.mp hl, List.mem_singleton.mp hl']
  lowerCase := by
    intro l hl
    rw [List.mem_singleton.mp hl]
    exact alice.toLower_toString

theorem leasable_leased : Leasable leased 30 iface alice (.new 10 0 0 10) where
  unreserved := by decide
  served := ⟨range, by decide, by decide, by decide, subnet, by decide, rfl, .new 10 0 0 1,
    by decide, by decide⟩
  free := by
    intro l hl _ _
    rw [List.mem_singleton.mp hl]
    exact alice.toLower_toString

end Sample

/-- Alice renews her lease at half time. -/
theorem request_specification_renewal :
    let out := (handleRequest (Sample.request Sample.alice (.new 10 0 0 10)) Sample.iface
      Sample.config).run (serve (SqliteDb.exec .rowid)) calmly ⟨Sample.leased, 30⟩
    (∃ ack, out.value = some ack ∧ ack.getMessageType = some .ack ∧
      ack.yiaddr = .new 10 0 0 10) ∧
    Leased Sample.leased 30 Sample.iface Sample.alice (.new 10 0 0 10) .rowid Sample.config
      out.state.db.leases := by
  obtain ⟨hack, hleased, -⟩ := request_specification .rowid Sample.config ⟨Sample.leased, 30⟩
    Sample.wellKept_leased (Sample.request Sample.alice (.new 10 0 0 10)) Sample.iface
  exact ⟨(hack _).mpr ⟨rfl, .inr Sample.leasable_leased⟩, hleased _ rfl Sample.leasable_leased⟩

end Ndhcpd
