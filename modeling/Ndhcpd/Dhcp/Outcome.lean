import Ndhcpd.Interaction.Run
import Ndhcpd.Dhcp.LeaseTable
import Ndhcpd.Dhcp.Renewal

/-!
# What handling a packet can lead to

Inversion lemmas for the packet handlers on the SQLite store, run alone and with any fates of
their calls: all replies and all changes of the database, with what is known about each of
them (`RequestOutcome`, `DiscoverOutcome`, `PacketOutcome`). An invariant over runs in which
packets are handled one after another is proved by cases on these, without looking into a
handler again.

Such a run is a list of `Op`s: packets, database calls of the other tasks in between, and the
passing of time.
-/

namespace Ndhcpd

/-! ### REQUEST -/

section Request

variable (ord : ScanOrder) (config : DhcpConfig) (packet : DhcpPacket)
  (ifaceIps : List Ipv4Addr) (fates : ℕ → Fate) (w : World SqliteDb)

/-- The outcomes of a REQUEST: the reply and the world afterwards. After the list of active
leases, which is call `i + 1`, a grant reads the clock and inserts the new lease; a renewal
deletes the old row first, unless that call fails. -/
inductive RequestOutcome : Option DhcpPacket → World SqliteDb → Prop
  | refused {t : ℤ} (ht : w.clock ≤ t) : RequestOutcome none ⟨w.db, t⟩
  | confirmed {t : ℤ} (ht : w.clock ≤ t) {staticIp : StaticIP} {subnet : Subnet}
    (hstatic : w.db.getStaticIpByMac ord (requestMac packet) = some staticIp)
    (hsubnet : w.db.getSubnet staticIp.subnetId = some subnet)
    (hiface : ifaceInSubnet ifaceIps subnet = true) :
    RequestOutcome (some (createAck packet staticIp.ipAddress subnet config)) ⟨w.db, t⟩
  | lost {t : ℤ} (ht : w.clock ≤ t) (id : ℤ) : RequestOutcome none ⟨w.db.expireLease id, t⟩
  | granted {ip : Ipv4Addr} {range : DynamicRange} {subnet : Subnet} {i : ℕ}
    (hreach : Reaches ord w packet ifaceIps fates ip range subnet i)
    (hplan : planLease (requestMac packet) ip range subnet
      (w.db.listActiveLeases ord (clockAfter fates w.clock (i + 2))) =
        .grant ip range subnet none) :
    RequestOutcome (some (createAck packet ip subnet config))
      ⟨w.db.insertLease (newLease packet config ip range (clockAfter fates w.clock (i + 3))),
        clockAfter fates w.clock (i + 4)⟩
  | renewed {ip : Ipv4Addr} {range : DynamicRange} {subnet : Subnet} {i : ℕ} {id : ℤ}
    (hreach : Reaches ord w packet ifaceIps fates ip range subnet i)
    (hplan : planLease (requestMac packet) ip range subnet
      (w.db.listActiveLeases ord (clockAfter fates w.clock (i + 2))) =
        .grant ip range subnet (some id)) :
    RequestOutcome (some (createAck packet ip subnet config))
      ⟨(if (fates (i + 2)).fails then w.db else w.db.expireLease id).insertLease
        (newLease packet config ip range (clockAfter fates w.clock (i + 4))),
        clockAfter fates w.clock (i + 5)⟩

variable {ord config packet ifaceIps fates w}

section Grant

variable {ip : Ipv4Addr} {range : DynamicRange} {subnet : Subnet} {i : ℕ}
  (hreach : Reaches ord w packet ifaceIps fates ip range subnet i)
include hreach

/-- From the list of active leases on, a REQUEST carries out what was decided on it. -/
theorem handleRequest_run {plan : RequestPlan}
    (hplan : planLease (requestMac packet) ip range subnet
      (w.db.listActiveLeases ord (clockAfter fates w.clock (i + 2))) = plan) :
    (handleRequest packet ifaceIps config).run (serve (SqliteDb.exec ord)) fates w =
      (plan.carryOut packet config).run (serve (SqliteDb.exec ord)) (later fates (i + 2))
        (w.after fates (i + 2)) := by
  rw [handleRequest_eq, Program.run_bind, planRequest_run hreach, hplan]

/-- The writes of a grant without an old lease. -/
theorem carryOut_grant (hcreate : (fates (i + 3)).fails = false) :
    ((RequestPlan.grant ip range subnet none).carryOut packet config).run
        (serve (SqliteDb.exec ord)) (later fates (i + 2)) (w.after fates (i + 2)) =
      ⟨some (createAck packet ip subnet config),
        ⟨w.db.insertLease (newLease packet config ip range (clockAfter fates w.clock (i + 3))),
          clockAfter fates w.clock (i + 4)⟩, fun n => later fates (i + 2) (n + 2)⟩ :=
  @grantLease_run_ok ord (w.after fates (i + 2)) packet config (later fates (i + 2)) ip range
    subnet hcreate (SqliteDb.hasSubnet_of_getSubnet hreach.subnet)

/-- The writes of a renewal. -/
theorem carryOut_renewal (id : ℤ) (hcreate : (fates (i + 4)).fails = false) :
    ((RequestPlan.grant ip range subnet (some id)).carryOut packet config).run
        (serve (SqliteDb.exec ord)) (later fates (i + 2)) (w.after fates (i + 2)) =
      ⟨some (createAck packet ip subnet config),
        ⟨(if (fates (i + 2)).fails then w.db else w.db.expireLease id).insertLease
          (newLease packet config ip range (clockAfter fates w.clock (i + 4))),
          clockAfter fates w.clock (i + 5)⟩, fun n => later fates (i + 2) (n + 3)⟩ := by
  have hsub : (if (fates (i + 2)).fails then w.db else w.db.expireLease id).hasSubnet
      range.subnetId = true := by
    have h := SqliteDb.hasSubnet_of_getSubnet hreach.subnet
    split <;> exact h
  rw [renewal_run]
  exact @grantLease_run_ok ord
    ⟨if (fates (i + 2)).fails then w.db else w.db.expireLease id, clockAfter fates w.clock (i + 3)⟩
    packet config (fun n => later fates (i + 2) (n + 1)) ip range subnet hcreate hsub

private theorem granted_outcome
    (hplan : planLease (requestMac packet) ip range subnet
      (w.db.listActiveLeases ord (clockAfter fates w.clock (i + 2))) =
        .grant ip range subnet none) :
    RequestOutcome ord config packet ifaceIps fates w
      ((handleRequest packet ifaceIps config).run (serve (SqliteDb.exec ord)) fates w).value
      ((handleRequest packet ifaceIps config).run (serve (SqliteDb.exec ord)) fates w).state := by
  rw [handleRequest_run hreach hplan]
  cases hcreate : (fates (i + 3)).fails with
  | true =>
    obtain ⟨t, ht, hrun⟩ := @grantLease_run_fails ord (w.after fates (i + 2)) packet config
      (later fates (i + 2)) ip range subnet (.inl hcreate)
    rw [RequestPlan.carryOut, hrun]
    exact .refused ((le_clockAfter fates w.clock _).trans ht)
  | false =>
    rw [carryOut_grant hreach hcreate]
    exact .granted hreach hplan

private theorem renewed_outcome {id : ℤ}
    (hplan : planLease (requestMac packet) ip range subnet
      (w.db.listActiveLeases ord (clockAfter fates w.clock (i + 2))) =
        .grant ip range subnet (some id)) :
    RequestOutcome ord config packet ifaceIps fates w
      ((handleRequest packet ifaceIps config).run (serve (SqliteDb.exec ord)) fates w).value
      ((handleRequest packet ifaceIps config).run (serve (SqliteDb.exec ord)) fates w).state := by
  rw [handleRequest_run hreach hplan]
  cases hcreate : (fates (i + 4)).fails with
  | true =>
    obtain ⟨t, ht, hrun⟩ := @grantLease_run_fails ord
      ⟨if (fates (i + 2)).fails then w.db else w.db.expireLease id, clockAfter fates w.clock (i + 3)⟩
      packet config (fun n => later fates (i + 2) (n + 1)) ip range subnet (.inl hcreate)
    have ht' : w.clock ≤ t := (le_clockAfter fates w.clock _).trans ht
    have hwrites : ((RequestPlan.grant ip range subnet (some id)).carryOut packet config).run
          (serve (SqliteDb.exec ord)) (later fates (i + 2)) (w.after fates (i + 2)) =
        ⟨none, ⟨if (fates (i + 2)).fails then w.db else w.db.expireLease id, t⟩, _⟩ :=
      renewal_run.trans hrun
    rw [hwrites]
    simp only
    split
    · exact .refused ht'
    · exact .lost ht' id
  | false =>
    rw [carryOut_renewal hreach id hcreate]
    exact .renewed hreach hplan

end Grant

/-- **Inversion for REQUEST.** -/
theorem handleRequest_outcome :
    RequestOutcome ord config packet ifaceIps fates w
      ((handleRequest packet ifaceIps config).run (serve (SqliteDb.exec ord)) fates w).value
      ((handleRequest packet ifaceIps config).run (serve (SqliteDb.exec ord)) fates w).state := by
  obtain ⟨hdb, hclock⟩ := @planRequest_run_state ord w packet ifaceIps fates
  have hstate : ((planRequest packet ifaceIps).run (serve (SqliteDb.exec ord)) fates w).state =
      ⟨w.db, ((planRequest packet ifaceIps).run (serve (SqliteDb.exec ord)) fates w).state.clock⟩ := by
    rw [← hdb]
  cases hplan : ((planRequest packet ifaceIps).run (serve (SqliteDb.exec ord)) fates w).value with
  | refuse =>
    rw [handleRequest_eq, Program.run_bind, hplan, hstate]
    exact .refused hclock
  | confirm ip subnet =>
    obtain ⟨staticIp, -, hstatic, rfl, hsubnet, hiface⟩ := static_of_confirm hplan
    rw [handleRequest_eq, Program.run_bind, hplan, hstate]
    exact .confirmed hclock hstatic hsubnet hiface
  | grant ip range subnet old =>
    obtain ⟨i, hreach⟩ := reaches_of_grant hplan
    rw [planRequest_run hreach] at hplan
    cases old with
    | none => exact granted_outcome hreach hplan
    | some id => exact renewed_outcome hreach hplan

end Request

/-! ### DISCOVER -/

/-- The pool scan only finds addresses of the range that are not leased. -/
theorem of_firstFree {leasedIps : List Ipv4Addr} {start n : ℕ} {ip : Ipv4Addr}
    (h : firstFree leasedIps start n = some ip) :
    ip ∉ leasedIps ∧ ∃ k, start ≤ k ∧ k < start + n ∧ ip = ⟨UInt32.ofNat k⟩ := by
  induction n generalizing start with
  | zero => simp [firstFree] at h
  | succ n ih =>
    rw [firstFree] at h
    split at h
    · obtain ⟨hfree, k, hle, hlt, rfl⟩ := ih h
      exact ⟨hfree, k, by omega, by omega, rfl⟩
    · next hfree =>
      obtain rfl := Option.some.inj h
      exact ⟨hfree, start, le_rfl, by omega, rfl⟩

theorem of_firstFreeInRange {leasedIps : List Ipv4Addr} {range : DynamicRange} {ip : Ipv4Addr}
    (h : firstFreeInRange leasedIps range = some ip) :
    ip ∉ leasedIps ∧ range.covers ip = true := by
  obtain ⟨hfree, k, hle, hlt, rfl⟩ := of_firstFree h
  have hend := range.rangeEnd.toUInt32.toNat_lt
  have hsize : UInt32.size = 4294967296 := rfl
  have hk : (UInt32.ofNat k).toNat = k := UInt32.toNat_ofNat_of_lt' (by omega)
  refine ⟨hfree, ?_⟩
  simp only [DynamicRange.covers, Bool.and_eq_true, decide_eq_true_eq, UInt32.le_iff_toNat_le, hk]
  omega

section Discover

variable (ord : ScanOrder) (config : DhcpConfig) (packet : DhcpPacket) (w : World SqliteDb)

/-- The outcomes of a DISCOVER: the reply and the time at which it is sent. What is offered is
the static address of the client, the address of its active lease, or an address of an enabled
range that was free at some moment `t` on the way. -/
inductive DiscoverOutcome : Option DhcpPacket → ℤ → Prop
  | silent {t' : ℤ} : DiscoverOutcome none t'
  | static {t' : ℤ} {staticIp : StaticIP} {subnet : Subnet}
    (hstatic : w.db.getStaticIpByMac ord packet.chaddr.toString = some staticIp) :
    DiscoverOutcome (some (createOffer packet staticIp.ipAddress subnet config)) t'
  | lease {t t' : ℤ} {lease : Lease} {subnet : Subnet} (ht : w.clock ≤ t) (ht' : t ≤ t')
    (hlease : w.db.getActiveLease ord packet.chaddr.toString t = some lease) :
    DiscoverOutcome (some (createOffer packet lease.ipAddress subnet config)) t'
  | pool {t t' : ℤ} {row : RangeRow} {subnet : Subnet} {ip : Ipv4Addr} (ht : w.clock ≤ t)
    (ht' : t ≤ t') (hrow : row ∈ w.db.dynamicRanges) (henabled : row.enabled = true)
    (hcovers : row.toRange.covers ip = true) (hvacant : Vacant w.db.leases t ip) :
    DiscoverOutcome (some (createOffer packet ip subnet config)) t'

variable {ord config packet w}

variable (ord config packet w) in
/-- The outcome of a run, as a `DiscoverOutcome`. -/
abbrev Offers (out : Program.Outcome (Option DhcpPacket) (World SqliteDb) Fate) : Prop :=
  DiscoverOutcome ord config packet w out.value out.state.clock

/-- The pool scan, given the leases that were active at the time `t`. -/
private theorem discoverSubnets_outcome {t t' : ℤ} (ht : w.clock ≤ t) (ht' : t ≤ t')
    (subnets : List Subnet) (fates : ℕ → Fate) :
    Offers ord config packet w ((discoverSubnets packet config
      ((w.db.listActiveLeases ord t).map (·.ipAddress)) subnets).run (serve (SqliteDb.exec ord))
        fates ⟨w.db, t'⟩) := by
  induction subnets generalizing fates t' with
  | nil => exact .silent
  | cons subnet rest ih =>
    unfold discoverSubnets
    cases subnet.id with
    | none => exact ih ht' fates
    | some subnetId =>
      refine run_read rfl (fun t'' h'' fates => ih (ht'.trans h'') fates)
        (fun t'' h'' fates => ?_) fates
      simp only [SqliteDb.exec]
      cases hfind : ((w.db.listRanges ord (some subnetId)).filter (·.enabled)).findSome?
          (firstFreeInRange ((w.db.listActiveLeases ord t).map (·.ipAddress))) with
      | none => exact ih (ht'.trans h'') fates
      | some candidate =>
        obtain ⟨range, hrange, hfree⟩ := List.exists_of_findSome?_eq_some hfind
        obtain ⟨hlisted, henabled⟩ := List.mem_filter.mp hrange
        obtain ⟨row, ⟨hrow, -⟩, rfl⟩ := SqliteDb.mem_listRanges.mp hlisted
        obtain ⟨hnot, hcovers⟩ := of_firstFreeInRange hfree
        exact .pool ht (ht'.trans h'') hrow henabled hcovers (vacant_of_not_mem hnot)

private theorem discoverPool_outcome {t : ℤ} (ht : w.clock ≤ t) (ifaceIps : List Ipv4Addr)
    (fates : ℕ → Fate) :
    Offers ord config packet w ((discoverPool packet ifaceIps config).run
      (serve (SqliteDb.exec ord)) fates ⟨w.db, t⟩) := by
  refine run_read rfl (fun _ _ _ => .silent) (fun t₁ ht₁ fates => ?_) fates
  refine run_read rfl (fun _ _ _ => .silent) (fun t₂ ht₂ fates => ?_) fates
  exact discoverSubnets_outcome (ht.trans (ht₁.trans ht₂)) le_rfl _ fates

private theorem discoverLease_outcome {t : ℤ} (ht : w.clock ≤ t) (ifaceIps : List Ipv4Addr)
    (fates : ℕ → Fate) :
    Offers ord config packet w ((discoverLease packet ifaceIps config).run
      (serve (SqliteDb.exec ord)) fates ⟨w.db, t⟩) := by
  refine run_read rfl (fun t₁ ht₁ fates => discoverPool_outcome (ht.trans ht₁) ifaceIps fates)
    (fun t₁ ht₁ fates => ?_) fates
  simp only [SqliteDb.exec]
  cases hlease : w.db.getActiveLease ord packet.chaddr.toString t₁ with
  | none => exact discoverPool_outcome (ht.trans ht₁) ifaceIps fates
  | some lease =>
    refine run_read rfl (fun _ _ _ => .silent) (fun t₂ ht₂ fates => ?_) fates
    simp only [SqliteDb.exec]
    cases w.db.getSubnet lease.subnetId with
    | none => exact .silent
    | some subnet =>
      simp only
      split
      · exact .lease (ht.trans ht₁) ht₂ hlease
      · exact discoverPool_outcome (ht.trans (ht₁.trans ht₂)) ifaceIps fates

/-- **Inversion for DISCOVER.** -/
theorem handleDiscover_outcome (ifaceIps : List Ipv4Addr) (fates : ℕ → Fate) :
    Offers ord config packet w ((handleDiscover packet ifaceIps config).run
      (serve (SqliteDb.exec ord)) fates w) := by
  refine run_read rfl (fun t ht fates => discoverLease_outcome ht ifaceIps fates)
    (fun t ht fates => ?_) fates
  simp only [SqliteDb.exec]
  cases hstatic : w.db.getStaticIpByMac ord packet.chaddr.toString with
  | none => exact discoverLease_outcome ht ifaceIps fates
  | some staticIp =>
    refine run_read rfl (fun _ _ _ => .silent) (fun t₁ ht₁ fates => ?_) fates
    simp only [SqliteDb.exec]
    cases w.db.getSubnet staticIp.subnetId with
    | none => exact .silent
    | some subnet =>
      simp only
      split
      · exact .static hstatic
      · exact discoverLease_outcome (ht.trans ht₁) ifaceIps fates

end Discover

/-! ### Any packet -/

section Packet

variable (ord : ScanOrder) (config : DhcpConfig) (packet : DhcpPacket)
  (ifaceIps : List Ipv4Addr) (fates : ℕ → Fate) (w : World SqliteDb)

/-- The outcomes of a packet. A RELEASE deletes at most one row, and is not answered. -/
inductive PacketOutcome : Option DhcpPacket → World SqliteDb → Prop
  | offered {t : ℤ} {reply : Option DhcpPacket} (ht : w.clock ≤ t)
    (h : DiscoverOutcome ord config packet w reply t) : PacketOutcome reply ⟨w.db, t⟩
  | requested {reply : Option DhcpPacket} {w' : World SqliteDb}
    (htype : packet.getMessageType = some .request)
    (h : RequestOutcome ord config packet ifaceIps fates w reply w') : PacketOutcome reply w'
  | ignored {t : ℤ} (ht : w.clock ≤ t) : PacketOutcome none ⟨w.db, t⟩
  | released {t : ℤ} (ht : w.clock ≤ t) (id : ℤ) : PacketOutcome none ⟨w.db.expireLease id, t⟩

variable {ord config packet ifaceIps fates w}

private theorem handleRelease_run (fates : ℕ → Fate) (w : World SqliteDb) :
    ∃ t, w.clock ≤ t ∧
      (((handleRelease packet).run (serve (SqliteDb.exec ord)) fates w).state = ⟨w.db, t⟩ ∨
        ∃ id, ((handleRelease packet).run (serve (SqliteDb.exec ord)) fates w).state =
          ⟨w.db.expireLease id, t⟩) := by
  have hstate := @serve_of_isRead ord (.db (.getActiveLease packet.chaddr.toString)) rfl (fates 0) w
  rw [handleRelease, dbCall_bind, Program.run_request, hstate]
  rcases (serve (SqliteDb.exec ord) (fates 0) (.db (.getActiveLease packet.chaddr.toString)) w).1
    with e | _ | lease
  · exact ⟨_, by simp, .inl rfl⟩
  · exact ⟨_, by simp, .inl rfl⟩
  · cases hid : lease.id with
    | none => exact ⟨w.clock + (fates 0).wait, by simp, .inl (by simp [hid])⟩
    | some id =>
      refine ⟨w.clock + (fates 0).wait + (fates 1).wait, by omega, ?_⟩
      simp only [hid]
      cases hfails : (fates 1).fails with
      | true =>
        refine .inl ?_
        show (serve (SqliteDb.exec ord) (fates 1) (.db (.expireLease id)) ⟨w.db, _⟩).2 = _
        simp [serve, hfails]
      | false =>
        refine .inr ⟨id, ?_⟩
        show (serve (SqliteDb.exec ord) (fates 1) (.db (.expireLease id)) ⟨w.db, _⟩).2 = _
        simp [serve, hfails, SqliteDb.exec]

/-- **Inversion for packets.** -/
theorem handlePacket_outcome :
    PacketOutcome ord config packet ifaceIps fates w
      ((handlePacket packet ifaceIps config).run (serve (SqliteDb.exec ord)) fates w).value
      ((handlePacket packet ifaceIps config).run (serve (SqliteDb.exec ord)) fates w).state := by
  unfold handlePacket
  split
  · obtain ⟨hdb, hclock⟩ := @run_reads ord _ _ (@handleDiscover_reads packet ifaceIps config) fates w
    have houtcome := @handleDiscover_outcome ord config packet w ifaceIps fates
    generalize (handleDiscover packet ifaceIps config).run (serve (SqliteDb.exec ord)) fates w = out
      at hdb hclock houtcome ⊢
    obtain ⟨value, ⟨db, t⟩, rest⟩ := out
    obtain rfl : db = w.db := hdb
    exact .offered hclock houtcome
  · next htype => exact .requested htype handleRequest_outcome
  · rw [Program.run_bind]
    obtain ⟨t, ht, hkept | ⟨id, hgone⟩⟩ := @handleRelease_run ord packet fates w
    · rw [hkept]
      exact .ignored ht
    · rw [hgone]
      exact .released ht id
  · exact .ignored le_rfl

end Packet

/-! ### Runs -/

/-- What happens on a server that handles its packets one after another: a packet is handled,
with the fates of the calls that are made for it; another task calls the database; or time
passes. -/
inductive Op
  | packet (d : Datagram) (fates : ℕ → Fate)
  | call (c : DbCall) (fate : Fate)
  | tick (seconds : ℕ)

/-- The world after an operation. -/
def Op.step (ord : ScanOrder) (config : DhcpConfig) (w : World SqliteDb) : Op → World SqliteDb
  | .packet d fates =>
    ((handlePacket d.packet d.ifaceIps config).run (serve (SqliteDb.exec ord)) fates w).state
  | .call c fate => (serve (SqliteDb.exec ord) fate (.db c) w).2
  | .tick seconds => ⟨w.db, w.clock + seconds⟩

end Ndhcpd
