import Ndhcpd.Dhcp.LeaseTable
import Ndhcpd.Dhcp.Outcome

/-!
# Reserved addresses

A static assignment reserves an address for a client. The dynamic path does not know about
this: neither the pool scan of DISCOVER nor the dynamic branch of REQUEST looks at
`static_ips`, and nothing checks a new reservation against the ranges or the leases. An address
that is reserved inside an enabled range is handed out to anyone, and an address that is
reserved while somebody has it on lease is given to both.

As long as the administrator keeps reservations and ranges apart, and reserves no address that
another client has on lease (`KeepsApart`), every OFFER and every ACK is for an address that
no other client has reserved or leased. The invariant is `Apart`, and the argument is that a
lease is only ever inserted on an address of an enabled range, where there is no reservation.
-/

namespace Ndhcpd

variable {ord : ScanOrder} {config : DhcpConfig} {w w' : World SqliteDb}

/-- Reservations and leases do not meet: an address is reserved for one client only, no enabled
range covers it, and an active lease on it is this client's. -/
structure Apart (w : World SqliteDb) : Prop where
  tidy : Tidy w.db.leases w.db.leaseSeq
  exclusive : Exclusive w.db.leases w.clock
  keyed : ∀ s ∈ w.db.staticIps, ∀ s' ∈ w.db.staticIps,
    s.ipAddress = s'.ipAddress → s.macAddress = s'.macAddress
  clear : ∀ s ∈ w.db.staticIps, ∀ r ∈ w.db.dynamicRanges, r.enabled = true →
    r.toRange.covers s.ipAddress = false
  own : ∀ s ∈ w.db.staticIps, ∀ l ∈ w.db.leases, l.ipAddress = s.ipAddress →
    w.clock < l.leaseEnd → l.macAddress.toLower = s.macAddress.toLower

/-- The address is neither reserved for nor leased to another client. -/
def FreeFor (w : World SqliteDb) (ip : Ipv4Addr) (mac : MacAddress) : Prop :=
  (∀ s ∈ w.db.staticIps, s.ipAddress = ip →
    s.macAddress.toLower = mac.toString.toLower) ∧
  ∀ l ∈ w.db.leases, l.ipAddress = ip → w.clock < l.leaseEnd → l.macAddress = mac.toString

/-! ### Replies -/

/-- The address reserved for a client. -/
theorem Apart.freeFor_static (h : Apart w) {t : ℤ} (ht : w.clock ≤ t) {mac : MacAddress}
    {staticIp : StaticIP} (hstatic : staticIp ∈ w.db.staticIps)
    (hmac : staticIp.macAddress.toLower = mac.toString.toLower) :
    FreeFor ⟨w.db, t⟩ staticIp.ipAddress mac := by
  constructor
  · intro s hs hip
    rw [h.keyed s hs staticIp hstatic hip]
    exact hmac
  · intro l hl hip hact
    have hown := h.own staticIp hstatic l hl hip (ht.trans_lt hact)
    exact h.tidy.eq_toString hl (hown.trans hmac)

/-- The address of an active lease of the client. -/
theorem Apart.freeFor_lease (h : Apart w) {t t' : ℤ} (ht : w.clock ≤ t) (ht' : w.clock ≤ t')
    {mac : MacAddress} {r : LeaseRow} (hr : r ∈ w.db.leases) (hact : t < r.leaseEnd)
    (hmac : r.macAddress.toLower = mac.toString.toLower) :
    FreeFor ⟨w.db, t'⟩ r.ipAddress mac := by
  have hname := h.tidy.eq_toString hr hmac
  constructor
  · intro s hs hip
    have hown := h.own s hs r hr hip.symm (ht.trans_lt hact)
    exact hown.symm.trans hmac
  · intro l hl hip hact'
    rw [h.exclusive l hl r hr (ht'.trans_lt hact') (ht.trans_lt hact) hip]
    exact hname

/-- An address of an enabled range that nobody else has on lease. -/
theorem Apart.freeFor_range (h : Apart w) {t t' : ℤ} (ht : t ≤ t') {mac : MacAddress}
    {ip : Ipv4Addr} {r : RangeRow} (hr : r ∈ w.db.dynamicRanges) (henabled : r.enabled = true)
    (hcovers : r.toRange.covers ip = true) (hheld : HeldBy w.db.leases t ip mac.toString) :
    FreeFor ⟨w.db, t'⟩ ip mac := by
  constructor
  · intro s hs hip
    have hclear := h.clear s hs r hr henabled
    rw [hip, hcovers] at hclear
    cases hclear
  · intro l hl hip hact
    exact hheld l hl hip (ht.trans_lt hact)

/-! ### Steps -/

/-- Removing leases, ranges and reservations, renaming hosts and letting time pass. -/
theorem Apart.mono (h : Apart w) (hrows : w'.db.leases.Sublist w.db.leases)
    (hseq : w'.db.leaseSeq = w.db.leaseSeq) (hclock : w.clock ≤ w'.clock)
    (hranges : w'.db.dynamicRanges ⊆ w.db.dynamicRanges)
    (hstatic : ∀ s ∈ w'.db.staticIps, ∃ s' ∈ w.db.staticIps,
      s.ipAddress = s'.ipAddress ∧ s.macAddress = s'.macAddress) : Apart w' where
  tidy := by
    rw [hseq]
    exact h.tidy.mono hrows
  exclusive := h.exclusive.mono hrows.subset hclock
  keyed s₁ hs₁ s₂ hs₂ hip := by
    obtain ⟨s₁', hs₁', hip₁, hmac₁⟩ := hstatic s₁ hs₁
    obtain ⟨s₂', hs₂', hip₂, hmac₂⟩ := hstatic s₂ hs₂
    rw [hmac₁, hmac₂]
    exact h.keyed s₁' hs₁' s₂' hs₂' (by rw [← hip₁, ← hip₂, hip])
  clear s hs r hr henabled := by
    obtain ⟨s', hs', hip, -⟩ := hstatic s hs
    rw [hip]
    exact h.clear s' hs' r (hranges hr) henabled
  own s hs l hl hip hact := by
    obtain ⟨s', hs', hip', hmac⟩ := hstatic s hs
    rw [hmac]
    exact h.own s' hs' l (hrows.subset hl) (hip.trans hip') (hclock.trans_lt hact)

/-- Time passes. -/
theorem Apart.later (h : Apart w) {t : ℤ} (ht : w.clock ≤ t) : Apart ⟨w.db, t⟩ :=
  h.mono (List.Sublist.refl _) rfl ht (List.Subset.refl _) fun s hs => ⟨s, hs, rfl, rfl⟩

/-- A lease is deleted. -/
theorem Apart.expireLease (h : Apart w) {t : ℤ} (ht : w.clock ≤ t) (id : ℤ) :
    Apart ⟨w.db.expireLease id, t⟩ :=
  h.mono List.filter_sublist rfl ht (List.Subset.refl _) fun s hs => ⟨s, hs, rfl, rfl⟩

/-- Inserting a lease of a client that holds the address, from an enabled range. -/
theorem Apart.insertLease (h : Apart w) {lease : Lease} {mac : MacAddress}
    (hmac : lease.macAddress = mac.toString) {r : RangeRow} (hr : r ∈ w.db.dynamicRanges)
    (henabled : r.enabled = true) (hcovers : r.toRange.covers lease.ipAddress = true)
    (hheld : HeldBy w.db.leases w.clock lease.ipAddress lease.macAddress) :
    Apart ⟨w.db.insertLease lease, w.clock⟩ where
  tidy := h.tidy.append rfl ⟨mac, hmac⟩
  exclusive := h.exclusive.append hheld
  keyed := h.keyed
  clear := h.clear
  own s hs l hl hip hact := by
    rcases List.mem_append.mp hl with hl | hl
    · exact h.own s hs l hl hip hact
    · -- no reservation lies in the range
      obtain rfl := List.mem_singleton.mp hl
      have hclear := h.clear s hs r hr henabled
      rw [← hip] at hclear
      exact absurd hcovers (by simpa [Lease.toRow] using hclear)

/-- The operation does not reserve an address that is covered by an enabled range or on lease
to another client, and opens no range around a reserved address. -/
def Op.KeepsApart (w : World SqliteDb) : Op → Prop
  | .call (.createStaticIp staticIp) fate =>
    fate.fails = false → w.db.acceptsStaticIp staticIp = true →
      (∀ r ∈ w.db.dynamicRanges, r.enabled = true →
        r.toRange.covers staticIp.ipAddress = false) ∧
      ∀ l ∈ w.db.leases, l.ipAddress = staticIp.ipAddress → w.clock + fate.wait < l.leaseEnd →
        l.macAddress.toLower = staticIp.macAddress.toLower
  | .call (.createRange range) fate =>
    fate.fails = false → w.db.hasSubnet range.subnetId = true → range.enabled = true →
      ∀ s ∈ w.db.staticIps, range.covers s.ipAddress = false
  | _ => True

/-- The other tasks never write a lease on behalf of a client. -/
def Op.fromApi : Op → Bool
  | .call c _ => !c.writesLease
  | _ => true

/-- Reserving an address. -/
theorem Apart.createStaticIp (h : Apart w) {staticIp : StaticIP}
    (haccept : w.db.acceptsStaticIp staticIp = true)
    (hclear : ∀ r ∈ w.db.dynamicRanges, r.enabled = true →
      r.toRange.covers staticIp.ipAddress = false)
    (hown : ∀ l ∈ w.db.leases, l.ipAddress = staticIp.ipAddress → w.clock < l.leaseEnd →
      l.macAddress.toLower = staticIp.macAddress.toLower) :
    Apart ⟨{ w.db with staticIps := w.db.staticIps ++ [staticIp] }, w.clock⟩ where
  tidy := h.tidy
  exclusive := h.exclusive
  keyed s hs s' hs' hip := by
    have hfree : ∀ s ∈ w.db.staticIps, s.ipAddress ≠ staticIp.ipAddress := by
      simp only [SqliteDb.acceptsStaticIp, Bool.and_eq_true, List.all_eq_true, bne_iff_ne] at haccept
      exact fun s hs => (haccept.1 s hs).1
    simp only [List.mem_append, List.mem_singleton] at hs hs'
    rcases hs with hs | rfl <;> rcases hs' with hs' | rfl
    · exact h.keyed s hs s' hs' hip
    · exact absurd hip (hfree s hs)
    · exact absurd hip.symm (hfree s' hs')
    · rfl
  clear s hs r hr henabled := by
    simp only [List.mem_append, List.mem_singleton] at hs
    rcases hs with hs | rfl
    · exact h.clear s hs r hr henabled
    · exact hclear r hr henabled
  own s hs l hl hip hact := by
    simp only [List.mem_append, List.mem_singleton] at hs
    rcases hs with hs | rfl
    · exact h.own s hs l hl hip hact
    · exact hown l hl hip hact

/-- Opening a range. -/
theorem Apart.createRange (h : Apart w) {range : DynamicRange} {id seq : ℤ}
    (hclear : range.enabled = true → ∀ s ∈ w.db.staticIps, range.covers s.ipAddress = false) :
    Apart ⟨{ w.db with
      dynamicRanges := w.db.dynamicRanges ++ [range.toRow id]
      rangeSeq := seq }, w.clock⟩ where
  tidy := h.tidy
  exclusive := h.exclusive
  keyed := h.keyed
  clear s hs r hr henabled := by
    rcases List.mem_append.mp hr with hr | hr
    · exact h.clear s hs r hr henabled
    · obtain rfl := List.mem_singleton.mp hr
      exact hclear henabled s hs
  own := h.own

/-- **A call of another task.** -/
theorem Apart.call (h : Apart w) {c : DbCall} {fate : Fate} (hapi : c.writesLease = false)
    (hkeep : (Op.call c fate).KeepsApart w) : Apart ((Op.call c fate).step ord config w) := by
  have hle : w.clock ≤ w.clock + fate.wait := by omega
  have hlater := h.later hle
  cases hfails : fate.fails with
  | true =>
    have hstep : (Op.call c fate).step ord config w = ⟨w.db, w.clock + fate.wait⟩ := by
      simp [Op.step, serve, hfails]
    rw [hstep]
    exact hlater
  | false =>
    have hstep : (Op.call c fate).step ord config w =
        ⟨(SqliteDb.exec ord (w.clock + fate.wait) w.db c).2, w.clock + fate.wait⟩ := by
      simp [Op.step, serve, hfails]
    rw [hstep]
    obtain ⟨staticIp, rfl, haccept, hexec⟩ | hstatic :=
      @SqliteDb.exec_staticIps ord (w.clock + fate.wait) w.db c
    · obtain ⟨hclear, hown⟩ := hkeep hfails haccept
      rw [hexec]
      exact hlater.createStaticIp haccept hclear hown
    · obtain ⟨range, rfl, hsub, hexec⟩ | hranges :=
        @SqliteDb.exec_dynamicRanges ord (w.clock + fate.wait) w.db c
      · rw [hexec]
        exact hlater.createRange (hkeep hfails hsub)
      · obtain ⟨hrows, hseq⟩ := @SqliteDb.exec_leases_sublist ord (w.clock + fate.wait) w.db c hapi
        exact h.mono hrows hseq hle hranges hstatic

/-- A granted lease. -/
theorem Apart.granted (h : Apart w) {packet : DhcpPacket} {ip : Ipv4Addr} {r : RangeRow}
    (hr : r ∈ w.db.dynamicRanges) (henabled : r.enabled = true)
    (hcovers : r.toRange.covers ip = true)
    (hheld : HeldBy w.db.leases w.clock ip (requestMac packet)) (range : DynamicRange) (now : ℤ) :
    Apart ⟨w.db.insertLease (newLease packet config ip range now), w.clock⟩ ∧
      FreeFor ⟨w.db.insertLease (newLease packet config ip range now), w.clock⟩ ip
        packet.chaddr := by
  have hmac := requestMac_eq packet
  obtain ⟨hstatic, hleases⟩ := h.freeFor_range (le_refl w.clock) hr henabled hcovers (hmac ▸ hheld)
  refine ⟨h.insertLease hmac hr henabled hcovers hheld, hstatic, fun l hl hip hact => ?_⟩
  rcases List.mem_append.mp hl with hl | hl
  · exact hleases l hl hip hact
  · obtain rfl := List.mem_singleton.mp hl
    exact hmac

/-- A REQUEST that is decided to be granted, whether or not an old row has been deleted. -/
theorem Apart.request (h : Apart w) {packet : DhcpPacket} {ifaceIps : List Ipv4Addr}
    {fates : ℕ → Fate} {ip : Ipv4Addr} {range : DynamicRange} {subnet : Subnet} {i : ℕ}
    (hreach : Reaches ord w packet ifaceIps fates ip range subnet i) {old : Option ℤ}
    (hplan : planLease (requestMac packet) ip range subnet
      (w.db.listActiveLeases ord (clockAfter fates w.clock (i + 2))) =
        .grant ip range subnet old)
    {db : SqliteDb} (hdb : db = w.db ∨ ∃ id, db = w.db.expireLease id) {n : ℕ} (hn : i + 2 ≤ n)
    (now : ℤ) :
    Apart ⟨db.insertLease (newLease packet config ip range now), clockAfter fates w.clock n⟩ ∧
      FreeFor ⟨db.insertLease (newLease packet config ip range now), clockAfter fates w.clock n⟩ ip
        packet.chaddr := by
  have hlisted := clockAfter_mono fates w.clock hn
  have hle := le_clockAfter fates w.clock (i + 2)
  have hheld := heldBy_of_planLease (h.exclusive.mono (List.Subset.refl _) hle) hplan
  obtain ⟨row, hrow, -, henabled, hcovers⟩ := hreach.covered
  rcases hdb with rfl | ⟨id, rfl⟩
  · exact (h.later (hle.trans hlisted)).granted hrow henabled hcovers
      (hheld.mono (List.Subset.refl _) hlisted) range now
  · exact (h.expireLease (hle.trans hlisted) id).granted hrow henabled hcovers
      (hheld.mono (List.filter_subset_self _) hlisted) range now

/-- **A packet.** The table stays apart, and a reply is for an address that no other client
has reserved or leased. -/
theorem Apart.packet (h : Apart w) {packet : DhcpPacket} {ifaceIps : List Ipv4Addr}
    {fates : ℕ → Fate} {reply : Option DhcpPacket}
    (hout : PacketOutcome ord config packet ifaceIps fates w reply w') :
    Apart w' ∧ ∀ r, reply = some r → FreeFor w' r.yiaddr packet.chaddr := by
  cases hout with
  | ignored ht => exact ⟨h.later ht, by simp⟩
  | released ht id => exact ⟨h.expireLease ht id, by simp⟩
  | offered ht hdisc =>
    refine ⟨h.later ht, ?_⟩
    rintro r rfl
    -- an offer changes nothing, and is of one of three kinds
    cases hdisc with
    | static hstatic =>
      obtain ⟨hmem, hmac⟩ := SqliteDb.of_getStaticIpByMac hstatic
      exact h.freeFor_static ht hmem hmac
    | lease ht₁ ht₂ hlease =>
      obtain ⟨row, hrow, hact, hmac, rfl⟩ := SqliteDb.of_getActiveLease hlease
      exact h.freeFor_lease ht₁ ht hrow hact hmac
    | pool ht₁ ht₂ hrow henabled hcovers hvacant =>
      exact h.freeFor_range ht₂ hrow henabled hcovers hvacant.heldBy
  | requested htype hreq =>
    cases hreq with
    | refused ht => exact ⟨h.later ht, by simp⟩
    | lost ht id => exact ⟨h.expireLease ht id, by simp⟩
    | confirmed ht hstatic _ _ =>
      refine ⟨h.later ht, fun r hr => ?_⟩
      obtain rfl := Option.some.inj hr
      obtain ⟨hmem, hmac⟩ := SqliteDb.of_getStaticIpByMac hstatic
      rw [requestMac_eq] at hmac
      exact h.freeFor_static ht hmem hmac
    | @granted ip range subnet i hreach hplan =>
      obtain ⟨hapart, hfree⟩ := h.request (n := i + 4) hreach hplan (.inl rfl) (by omega) _
      refine ⟨hapart, fun r hr => ?_⟩
      obtain rfl := Option.some.inj hr
      exact hfree
    | @renewed ip range subnet i id hreach hplan =>
      -- the old row may stay behind, as the answer to `expire_lease` is ignored
      have hdb : (if (fates (i + 2)).fails then w.db else w.db.expireLease id) = w.db ∨
          ∃ id', (if (fates (i + 2)).fails then w.db else w.db.expireLease id) =
            w.db.expireLease id' := by
        split
        · exact .inl rfl
        · exact .inr ⟨id, rfl⟩
      obtain ⟨hapart, hfree⟩ := h.request (n := i + 5) hreach hplan hdb (by omega) _
      refine ⟨hapart, fun r hr => ?_⟩
      obtain rfl := Option.some.inj hr
      exact hfree

/-! ### Runs -/

/-- **One operation.** -/
theorem Apart.step (h : Apart w) {op : Op} (hapi : op.fromApi = true) (hkeep : op.KeepsApart w) :
    Apart (op.step ord config w) := by
  cases op with
  | packet d fates => exact (h.packet handlePacket_outcome).1
  | call c fate => exact h.call (by simpa [Op.fromApi] using hapi) hkeep
  | tick seconds => exact h.later (by omega)

theorem apart_of_empty (hleases : w.db.leases = []) (hstatic : w.db.staticIps = []) :
    Apart w := by
  refine ⟨⟨?_, ?_, ?_⟩, ?_, ?_, ?_, ?_⟩ <;> simp [hleases, hstatic, Exclusive]

/-- **Reserved and leased addresses are exclusive** in runs that keep them apart. Start on any
database without leases and reservations, and let packets be handled, the other tasks call the
database and time pass, with any calls failing. If no operation on the way reserves an address
that is covered by an enabled range or on lease to another client, and none opens a range
around a reserved address, then every OFFER and every ACK the server sends in the state reached
is for an address that no other client has reserved or has on lease. -/
theorem replies_exclusive (ord : ScanOrder) (config : DhcpConfig) (w : World SqliteDb)
    (hleases : w.db.leases = []) (hstatic : w.db.staticIps = []) (ops : List Op)
    (hapi : ∀ op ∈ ops, op.fromApi = true)
    (hkeep : Run.Along (fun w op => op.step ord config w) (fun w op => op.KeepsApart w) w ops)
    (d : Datagram) (fates : ℕ → Fate) (reply : DhcpPacket) :
    let reached := Run.after (fun w (op : Op) => op.step ord config w) w ops
    let out := (handlePacket d.packet d.ifaceIps config).run (serve (SqliteDb.exec ord)) fates
      reached
    out.value = some reply → FreeFor out.state reply.yiaddr d.packet.chaddr := by
  intro reached out hreply
  have hapart : Apart reached :=
    (hkeep.and_forall hapi).invariant (fun w op h hop => h.step hop.2 hop.1)
      (apart_of_empty hleases hstatic)
  exact (hapart.packet handlePacket_outcome).2 reply hreply

namespace Sample

/-- An address of the sample network reserved for Bob. -/
def reservation (ip : Ipv4Addr) : StaticIP := ⟨1, bob.toString, ip, none⟩

/-- The administrator sets up the sample network and reserves an address for Bob. -/
def setUp (ip : Ipv4Addr) : List Op :=
  [.call (.createSubnet subnet.toSubnet) .calm, .call (.createRange range.toRange) .calm,
    .call (.createStaticIp (reservation ip)) .calm]

/-- The world after the set-up. -/
def reserved (ip : Ipv4Addr) : World SqliteDb :=
  Run.after (fun w (op : Op) => op.step .rowid Sample.config w) ⟨.empty, 0⟩ (setUp ip)

end Sample

/-- Outside the range the reservation is safe, and Bob is offered his address. -/
theorem replies_exclusive_offer :
    let out := (handlePacket (Sample.discover Sample.bob) Sample.iface Sample.config).run
      (serve (SqliteDb.exec .rowid)) (fun _ => .calm) (Sample.reserved (.new 10 0 0 5))
    out.value.map (·.yiaddr) = some (.new 10 0 0 5) ∧
      FreeFor out.state (.new 10 0 0 5) Sample.bob := by
  refine ⟨by decide +kernel, ?_⟩
  refine replies_exclusive .rowid Sample.config ⟨.empty, 0⟩ rfl rfl (Sample.setUp (.new 10 0 0 5))
    (by decide) ⟨trivial, ?_, ?_, trivial⟩ ⟨Sample.discover Sample.bob, Sample.iface⟩
    (fun _ => .calm)
    (createOffer (Sample.discover Sample.bob) (.new 10 0 0 5) Sample.subnet.toSubnet Sample.config)
    (by decide +kernel)
  · intro _ _ _ s hs
    cases hs
  · exact fun _ _ => ⟨by decide +kernel, by decide +kernel⟩

/-- Inside the range it is not: the address reserved for Bob is acknowledged to Alice. -/
theorem reserved_address_acknowledged :
    ¬ ∀ reply,
      ((handlePacket (Sample.request Sample.alice (.new 10 0 0 10)) Sample.iface
        Sample.config).run (serve (SqliteDb.exec .rowid)) (fun _ => .calm)
        (Sample.reserved (.new 10 0 0 10))).value = some reply →
      FreeFor ((handlePacket (Sample.request Sample.alice (.new 10 0 0 10)) Sample.iface
        Sample.config).run (serve (SqliteDb.exec .rowid)) (fun _ => .calm)
        (Sample.reserved (.new 10 0 0 10))).state reply.yiaddr Sample.alice := by
  intro h
  have hfree := h (createAck (Sample.request Sample.alice (.new 10 0 0 10)) (.new 10 0 0 10)
    Sample.subnet.toSubnet Sample.config) (by decide +kernel)
  have hbob := hfree.1 (Sample.reservation (.new 10 0 0 10)) (by decide +kernel) rfl
  exact absurd hbob (by decide +kernel)

end Ndhcpd
