import Ndhcpd.Dhcp.Alone

/-!
# Refused requests and the lease table

A REQUEST that is not acknowledged should leave the lease table as it was. Up to the list of
active leases `handleRequest` only reads, so this is clear for every exit before that point;
a grant without an old lease makes a single write, which either succeeds and is acknowledged
or changes nothing. What remains is the renewal of the client's own lease. It deletes the old
row and inserts a new one in two separate calls, and when the first goes through and the
second fails, the client is left without a lease. `unacknowledged_keeps_leases_iff` says that
this is the only way in which an unacknowledged REQUEST changes the table.
-/

namespace Ndhcpd

variable {ord : ScanOrder} {config : DhcpConfig} {w : World SqliteDb} {packet : DhcpPacket}
  {ifaceIps : List Ipv4Addr} {fates : ℕ → Fate}

variable (ord w packet ifaceIps fates) in
/-- The REQUEST renews an active lease of the client on the address it asks for;
`expire_lease`, the second call after the subnet of the range was read, goes through, and
`create_lease`, two calls later, fails. -/
def FailedRenewal : Prop :=
  ∃ ip range subnet i existing, Reaches ord w packet ifaceIps fates ip range subnet i ∧
    (w.db.listActiveLeases ord (clockAfter fates w.clock (i + 2))).find? (·.ipAddress == ip) =
      some existing ∧
    existing.macAddress = requestMac packet ∧
    (fates (i + 2)).fails = false ∧ (fates (i + 4)).fails = true

/-- The decision is to replace a row exactly if it is the first active lease on the address
and the client's. -/
theorem planLease_eq_grant_some {mac : String} {ip : Ipv4Addr} {range : DynamicRange}
    {subnet : Subnet} {activeLeases : List Lease} {id : ℤ} :
    planLease mac ip range subnet activeLeases = .grant ip range subnet (some id) ↔
      ∃ existing, activeLeases.find? (·.ipAddress == ip) = some existing ∧
        existing.macAddress = mac ∧ existing.id = some id := by
  unfold planLease
  cases hfind : activeLeases.find? (·.ipAddress == ip) with
  | none => simp
  | some existing =>
    by_cases hmac : existing.macAddress = mac
    · simp [hmac]
    · simp [hmac]

/-- A failed renewal, in terms of the decision taken. -/
theorem failedRenewal_iff :
    FailedRenewal ord w packet ifaceIps fates ↔
      ∃ ip range subnet id i, Reaches ord w packet ifaceIps fates ip range subnet i ∧
        ((planRequest packet ifaceIps).run (serve (SqliteDb.exec ord)) fates w).value =
          .grant ip range subnet (some id) ∧
        (fates (i + 2)).fails = false ∧ (fates (i + 4)).fails = true := by
  constructor
  · rintro ⟨ip, range, subnet, i, existing, hreach, hfind, hmac, hexpire, hcreate⟩
    obtain ⟨row, -, -, rfl⟩ :=
      SqliteDb.mem_listActiveLeases.mp (List.mem_of_find?_eq_some hfind)
    refine ⟨ip, range, subnet, row.id, i, hreach, ?_, hexpire, hcreate⟩
    rw [planRequest_run hreach]
    exact planLease_eq_grant_some.mpr ⟨row.toLease, hfind, hmac, rfl⟩
  · rintro ⟨ip, range, subnet, id, i, hreach, hplan, hexpire, hcreate⟩
    rw [planRequest_run hreach] at hplan
    obtain ⟨existing, hfind, hmac, -⟩ := planLease_eq_grant_some.mp hplan
    exact ⟨ip, range, subnet, i, existing, hreach, hfind, hmac, hexpire, hcreate⟩

/-- The writes of a renewal: first the old row goes, if the call succeeds. -/
theorem renewal_run {ip : Ipv4Addr} {range : DynamicRange} {subnet : Subnet} {id : ℤ} :
    ((RequestPlan.grant ip range subnet (some id)).carryOut packet config).run
        (serve (SqliteDb.exec ord)) fates w =
      (grantLease packet config ip range subnet).run (serve (SqliteDb.exec ord))
        (fun i => fates (i + 1))
        ⟨if (fates 0).fails then w.db else w.db.expireLease id, w.clock + (fates 0).wait⟩ := by
  rw [RequestPlan.carryOut, dbCall_bind, Program.run_request]
  cases hfails : (fates 0).fails <;> simp [serve, hfails, SqliteDb.exec]

/-- A grant without an old lease: a single write, which is acknowledged if it goes through. -/
theorem grantLease_keeps_leases {ip : Ipv4Addr} {range : DynamicRange} {subnet : Subnet}
    (hsub : w.db.hasSubnet range.subnetId = true)
    (hnone : ((grantLease packet config ip range subnet).run (serve (SqliteDb.exec ord))
      fates w).value = none) :
    ((grantLease packet config ip range subnet).run (serve (SqliteDb.exec ord))
      fates w).state.db = w.db := by
  cases hcreate : (fates 1).fails with
  | true =>
    obtain ⟨t, -, hrun⟩ := @grantLease_run_fails ord w packet config fates ip range subnet (.inl hcreate)
    rw [hrun]
  | false =>
    rw [grantLease_run_ok hcreate hsub] at hnone
    cases hnone

/-- A renewal keeps the leases unless the old row goes and the new one does not come. -/
theorem renewal_keeps_leases_iff {ip : Ipv4Addr} {range : DynamicRange} {subnet : Subnet}
    {row : LeaseRow} (hrow : row ∈ w.db.leases) (hsub : w.db.hasSubnet range.subnetId = true) :
    ((((RequestPlan.grant ip range subnet (some row.id)).carryOut packet config).run
        (serve (SqliteDb.exec ord)) fates w).value = none →
      ∀ l, l ∈ (((RequestPlan.grant ip range subnet (some row.id)).carryOut packet config).run
        (serve (SqliteDb.exec ord)) fates w).state.db.leases ↔ l ∈ w.db.leases) ↔
    ¬ ((fates 0).fails = false ∧ (fates 2).fails = true) := by
  rw [renewal_run]
  cases hexpire : (fates 0).fails with
  | true =>
    refine iff_of_true (fun hnone l => ?_) (by simp)
    simp only [if_true] at hnone ⊢
    rw [grantLease_keeps_leases (by exact hsub) hnone]
  | false =>
    cases hcreate : (fates 2).fails with
    | true =>
      -- the old row is gone and the new one does not come: this is the loss
      obtain ⟨t, -, hrun⟩ := @grantLease_run_fails ord ⟨w.db.expireLease row.id,
        w.clock + (fates 0).wait⟩ packet config (fun i => fates (i + 1)) ip range subnet
        (.inl hcreate)
      simp only [Bool.false_eq_true, if_false, hrun]
      refine iff_of_false (fun h => ?_) (by simp)
      have hgone := (h trivial row).mpr hrow
      simp [SqliteDb.expireLease] at hgone
    | false =>
      have hrun := @grantLease_run_ok ord ⟨w.db.expireLease row.id, w.clock + (fates 0).wait⟩
        packet config (fun i => fates (i + 1)) ip range subnet hcreate hsub
      simp only [Bool.false_eq_true, if_false, hrun]
      simp

/-- **When an unacknowledged REQUEST changes the lease table.** Whatever the database, the
packet, the interface and the fates of the calls: a REQUEST that is not acknowledged leaves
exactly the lease rows there were, unless it is a failed renewal. -/
theorem unacknowledged_keeps_leases_iff (ord : ScanOrder) (config : DhcpConfig)
    (w : World SqliteDb) (packet : DhcpPacket) (ifaceIps : List Ipv4Addr) (fates : ℕ → Fate) :
    (((handleRequest packet ifaceIps config).run (serve (SqliteDb.exec ord)) fates w).value = none →
      ∀ l, l ∈ ((handleRequest packet ifaceIps config).run
        (serve (SqliteDb.exec ord)) fates w).state.db.leases ↔ l ∈ w.db.leases) ↔
    ¬ FailedRenewal ord w packet ifaceIps fates := by
  rw [failedRenewal_iff, handleRequest_eq, Program.run_bind]
  have hdb := (@planRequest_run_state ord w packet ifaceIps fates).1
  cases hplan : ((planRequest packet ifaceIps).run (serve (SqliteDb.exec ord)) fates w).value with
  | refuse => simp [RequestPlan.carryOut, hdb]
  | confirm ip subnet => simp [RequestPlan.carryOut]
  | grant ip range subnet old =>
    -- only the dynamic branch writes, and only a renewal deletes
    obtain ⟨i, hreach⟩ := reaches_of_grant hplan
    have hsub := SqliteDb.hasSubnet_of_getSubnet hreach.subnet
    rw [planRequest_run hreach] at hplan ⊢
    cases old with
    | none =>
      refine iff_of_true (fun hnone l => ?_) (by simp)
      simp only [RequestPlan.carryOut] at hnone ⊢
      rw [grantLease_keeps_leases (by exact hsub) hnone]
      rfl
    | some id =>
      obtain ⟨existing, hfind, -, hid⟩ := planLease_eq_grant_some.mp hplan
      obtain ⟨row, hrow, -, rfl⟩ :=
        SqliteDb.mem_listActiveLeases.mp (List.mem_of_find?_eq_some hfind)
      obtain rfl := Option.some.inj hid
      refine (@renewal_keeps_leases_iff ord config (w.after fates (i + 2)) packet _ ip range subnet
        row hrow hsub).trans (not_congr ?_)
      constructor
      · rintro ⟨hexpire, hcreate⟩
        exact ⟨ip, range, subnet, row.id, i, hreach, rfl, hexpire, hcreate⟩
      · rintro ⟨ip', range', subnet', id', i', hreach', heq, hexpire, hcreate⟩
        obtain ⟨-, -, -, rfl⟩ := hreach.unique hreach'
        exact ⟨hexpire, hcreate⟩

/-- Alice renews her lease at half time, and of her calls the insertion fails: she gets no ACK
and loses the lease she had. -/
theorem unacknowledged_loses_lease :
    ¬ (((handleRequest (Sample.request Sample.alice (.new 10 0 0 10)) Sample.iface
        Sample.config).run (serve (SqliteDb.exec .rowid)) (fun n => ⟨0, n == 6⟩)
        ⟨Sample.leased, 30⟩).value = none →
      ∀ l, l ∈ ((handleRequest (Sample.request Sample.alice (.new 10 0 0 10)) Sample.iface
        Sample.config).run (serve (SqliteDb.exec .rowid)) (fun n => ⟨0, n == 6⟩)
        ⟨Sample.leased, 30⟩).state.db.leases ↔ l ∈ Sample.leased.leases) := by
  intro h
  have hkept := (h (by decide +kernel) Sample.lease).mpr (by decide +kernel)
  exact absurd hkept (by decide +kernel)

end Ndhcpd
