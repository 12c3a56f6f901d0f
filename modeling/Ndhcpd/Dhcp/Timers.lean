import Ndhcpd.Dhcp.Offers

/-!
# Lease timers

An ACK tells the client how long the lease lasts and when to renew and to rebind it. The three
numbers come from one configured lease time: `createAck` halves it for the renewal, and multiplies
it by seven before it divides by eight for the rebinding. The product is a `u32`, so the rebinding
time is the one that is meant only up to a lease time of 613566756 seconds
(`toNat_rebinding_eq_iff`); beyond, it falls short, and a client would rebind before it renews.

`timers_consistent_iff` says this of every REQUEST that is acknowledged, whatever happens to its
calls. The stored lease lasts as long as it should in any case: its end is computed in 64 bits.
-/

namespace Ndhcpd

/-! ### The timers of a reply -/

/-- The lease times that a packet carries. -/
def leaseTimes (packet : DhcpPacket) : List UInt32 :=
  packet.options.filterMap fun
    | .leaseTime t => some t
    | _ => none

/-- The renewal times that a packet carries. -/
def renewalTimes (packet : DhcpPacket) : List UInt32 :=
  packet.options.filterMap fun
    | .renewalTime t => some t
    | _ => none

/-- The rebinding times that a packet carries. -/
def rebindingTimes (packet : DhcpPacket) : List UInt32 :=
  packet.options.filterMap fun
    | .rebindingTime t => some t
    | _ => none

/-- The packet carries one timer of each kind: the lease time, half of it rounded down, and seven
eighths of it rounded down, in order. -/
def TimersConsistent (packet : DhcpPacket) (L : UInt32) : Prop :=
  ∃ t₁ t₂, renewalTimes packet = [t₁] ∧ rebindingTimes packet = [t₂] ∧ leaseTimes packet = [L] ∧
    t₁.toNat = L.toNat / 2 ∧ t₂.toNat = 7 * L.toNat / 8 ∧ t₁ ≤ t₂ ∧ t₂ ≤ L

section Reply

variable {request : DhcpPacket} {ip : Ipv4Addr} {subnet : Subnet} {config : DhcpConfig}

theorem leaseTimes_createAck :
    leaseTimes (createAck request ip subnet config) = [config.defaultLeaseTime] := by
  simp only [leaseTimes, createAck, domainOption]
  cases subnet.domainName <;> rfl

theorem renewalTimes_createAck :
    renewalTimes (createAck request ip subnet config) = [config.defaultLeaseTime / 2] := by
  simp only [renewalTimes, createAck, domainOption]
  cases subnet.domainName <;> rfl

theorem rebindingTimes_createAck :
    rebindingTimes (createAck request ip subnet config) = [config.defaultLeaseTime * 7 / 8] := by
  simp only [rebindingTimes, createAck, domainOption]
  cases subnet.domainName <;> rfl

end Reply

/-! ### Arithmetic -/

section Arithmetic

variable (L : UInt32)

theorem toNat_renewal : (L / 2).toNat = L.toNat / 2 := by
  rw [UInt32.toNat_div]
  rfl

theorem toNat_rebinding : (L * 7 / 8).toNat = L.toNat * 7 % 2 ^ 32 / 8 := by
  rw [UInt32.toNat_div, UInt32.toNat_mul]
  rfl

/-- The product fits exactly up to this lease time. -/
theorem mul_seven_lt_iff : L.toNat * 7 < 2 ^ 32 ↔ L ≤ 613566756 := by
  have hbound : (613566756 : UInt32).toNat = 613566756 := rfl
  rw [UInt32.le_iff_toNat_le, hbound]
  omega

/-- A product that does not fit loses at least an eighth of `2 ^ 32`. -/
theorem toNat_rebinding_eq_iff : (L * 7 / 8).toNat = 7 * L.toNat / 8 ↔ L ≤ 613566756 := by
  rw [toNat_rebinding, ← mul_seven_lt_iff]
  omega

variable {L}

theorem renewal_le_rebinding (h : L ≤ 613566756) : L / 2 ≤ L * 7 / 8 := by
  rw [UInt32.le_iff_toNat_le, toNat_renewal, (toNat_rebinding_eq_iff L).mpr h]
  omega

theorem rebinding_le (h : L ≤ 613566756) : L * 7 / 8 ≤ L := by
  rw [UInt32.le_iff_toNat_le, (toNat_rebinding_eq_iff L).mpr h]
  omega

end Arithmetic

theorem timersConsistent_createAck_iff {request : DhcpPacket} {ip : Ipv4Addr} {subnet : Subnet}
    {config : DhcpConfig} :
    TimersConsistent (createAck request ip subnet config) config.defaultLeaseTime ↔
      config.defaultLeaseTime ≤ 613566756 := by
  rw [TimersConsistent, renewalTimes_createAck, rebindingTimes_createAck, leaseTimes_createAck]
  constructor
  · rintro ⟨t₁, t₂, -, hrebinding, -, -, ht₂, -⟩
    rw [← (List.cons.inj hrebinding).1] at ht₂
    exact (toNat_rebinding_eq_iff _).mp ht₂
  · intro h
    exact ⟨_, _, rfl, rfl, rfl, toNat_renewal _, (toNat_rebinding_eq_iff _).mpr h,
      renewal_le_rebinding h, rebinding_le h⟩

/-! ### Acknowledged requests -/

/-- The table before and after an ACK. A client with a static assignment leaves it as it is; any
other client has got a new row for the address, at the end of the table, that lasts for the lease
time. -/
def LeaseStored (ord : ScanOrder) (w w' : World SqliteDb) (packet ack : DhcpPacket) (L : UInt32) :
    Prop :=
  (w'.db = w.db ∧ ∃ staticIp, w.db.getStaticIpByMac ord (requestMac packet) = some staticIp ∧
    staticIp.ipAddress = ack.yiaddr) ∨
  ∃ rest row, w'.db.leases = rest ++ [row] ∧ row.id = w.db.leaseSeq + 1 ∧
    row.macAddress = requestMac packet ∧ row.ipAddress = ack.yiaddr ∧
    row.leaseEnd - row.leaseStart = (L.toNat : ℤ)

section Acknowledged

variable {ord : ScanOrder} {config : DhcpConfig} {packet ack : DhcpPacket}
  {ifaceIps : List Ipv4Addr} {fates : ℕ → Fate} {w w' : World SqliteDb}

/-- Every ACK is built by `createAck`. -/
theorem RequestOutcome.eq_createAck
    (h : RequestOutcome ord config packet ifaceIps fates w (some ack) w') :
    ∃ ip subnet, ack = createAck packet ip subnet config := by
  generalize hreply : some ack = reply at h
  cases h with
  | refused => cases hreply
  | lost => cases hreply
  | confirmed => exact ⟨_, _, Option.some.inj hreply⟩
  | granted => exact ⟨_, _, Option.some.inj hreply⟩
  | renewed => exact ⟨_, _, Option.some.inj hreply⟩

/-- What an ACK leaves in the table. -/
theorem RequestOutcome.leaseStored
    (h : RequestOutcome ord config packet ifaceIps fates w (some ack) w') :
    LeaseStored ord w w' packet ack config.defaultLeaseTime := by
  have hlasts : ∀ now : ℤ, now + (config.defaultLeaseTime.toNat : ℤ) - now =
      (config.defaultLeaseTime.toNat : ℤ) := fun now => by omega
  generalize hreply : some ack = reply at h
  cases h with
  | refused => cases hreply
  | lost => cases hreply
  | confirmed ht hstatic hsubnet hiface =>
    rw [Option.some.inj hreply]
    exact .inl ⟨rfl, _, hstatic, rfl⟩
  | granted hreach hplan =>
    rw [Option.some.inj hreply]
    exact .inr ⟨_, _, rfl, rfl, rfl, rfl, hlasts _⟩
  | @renewed ip range subnet i id hreach hplan =>
    rw [Option.some.inj hreply]
    -- whether or not the old row could be deleted, the new one takes the next id
    have hseq : (if (fates (i + 2)).fails then w.db else w.db.expireLease id).leaseSeq =
        w.db.leaseSeq := by
      split <;> rfl
    refine .inr ⟨_, _, rfl, ?_, rfl, rfl, hlasts _⟩
    rw [← hseq]
    rfl

end Acknowledged

/-- **When the timers are consistent.** For every configuration and every REQUEST that is
acknowledged, in whatever state and however its calls fare: the timers of the ACK are consistent,
no intermediate product overflows and the stored lease lasts for the lease time, if and only if
the lease time is at most 613566756 seconds. -/
theorem timers_consistent_iff (ord : ScanOrder) (config : DhcpConfig) (packet : DhcpPacket)
    (ifaceIps : List Ipv4Addr) (fates : ℕ → Fate) (w : World SqliteDb) (ack : DhcpPacket)
    (hack : ((handleRequest packet ifaceIps config).run (serve (SqliteDb.exec ord)) fates w).value =
      some ack) :
    (TimersConsistent ack config.defaultLeaseTime ∧ config.defaultLeaseTime.toNat * 7 < 2 ^ 32 ∧
      LeaseStored ord w
        ((handleRequest packet ifaceIps config).run (serve (SqliteDb.exec ord)) fates w).state
        packet ack config.defaultLeaseTime) ↔
    config.defaultLeaseTime ≤ 613566756 := by
  have hout := @handleRequest_outcome ord config packet ifaceIps fates w
  rw [hack] at hout
  have hstored := hout.leaseStored
  obtain ⟨ip, subnet, rfl⟩ := hout.eq_createAck
  rw [timersConsistent_createAck_iff, mul_seven_lt_iff]
  exact ⟨fun h => h.1, fun h => ⟨h, h, hstored⟩⟩

/-- Alice asks for a free address and gets it for a minute. -/
theorem timers_consistent_minute :
    ∃ ack, ((handleRequest (Sample.request Sample.alice (.new 10 0 0 10)) Sample.iface
        Sample.config).run (serve (SqliteDb.exec .rowid)) calmly Sample.world).value = some ack ∧
      TimersConsistent ack Sample.config.defaultLeaseTime := by
  have hack : ((handleRequest (Sample.request Sample.alice (.new 10 0 0 10)) Sample.iface
      Sample.config).run (serve (SqliteDb.exec .rowid)) calmly Sample.world).value =
      some (createAck (Sample.request Sample.alice (.new 10 0 0 10)) (.new 10 0 0 10)
        Sample.subnet.toSubnet Sample.config) := by decide +kernel
  exact ⟨_, hack, ((timers_consistent_iff .rowid Sample.config _ _ calmly Sample.world _ hack).mpr
    (by decide)).1⟩

/-- With a lease time of 613566757 seconds, about 19 years, the client is told to rebind at
once. -/
theorem rebinding_time_wraps :
    ¬ ∀ ack, ((handleRequest (Sample.request Sample.alice (.new 10 0 0 10)) Sample.iface
        { Sample.config with defaultLeaseTime := 613566757 }).run (serve (SqliteDb.exec .rowid))
        calmly Sample.world).value = some ack → TimersConsistent ack 613566757 := by
  intro h
  have hack : ((handleRequest (Sample.request Sample.alice (.new 10 0 0 10)) Sample.iface
      { Sample.config with defaultLeaseTime := 613566757 }).run (serve (SqliteDb.exec .rowid))
      calmly Sample.world).value =
      some (createAck (Sample.request Sample.alice (.new 10 0 0 10)) (.new 10 0 0 10)
        Sample.subnet.toSubnet { Sample.config with defaultLeaseTime := 613566757 }) := by
    decide +kernel
  obtain ⟨t₁, t₂, -, hrebinding, -, -, ht₂, -⟩ := h _ hack
  rw [rebindingTimes_createAck] at hrebinding
  rw [← (List.cons.inj hrebinding).1] at ht₂
  exact absurd ht₂ (by decide)

end Ndhcpd
