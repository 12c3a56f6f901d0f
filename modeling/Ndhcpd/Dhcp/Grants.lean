import Ndhcpd.Dhcp.Exclusivity

/-!
# Acknowledged leases are not given away

An ACK of the dynamic branch promises the address to its client until the lease ends. While
no database call of the listener fails and no subnet is deleted, the promise is kept: no
other client gets an ACK of the dynamic branch for the address before that time, unless the
first client has sent a RELEASE in between.

The promise is followed through the run as a condition on the lease table: as long as it is
not due, it is `Backed` by a row of the client that ends no earlier. A renewal deletes this
row before it inserts the next one, so the condition is broken for a moment; this is why it
is a pre- and postcondition of handling a packet and not an invariant of the setting.
-/

namespace Ndhcpd

/-- No call of the listener fails and no subnet is deleted. -/
def calm : Regime := ⟨fun _ => False, True⟩

theorem calm_expires : calm.Expires := fun _ h => h

/-- The promise of the address to the client until `expiry` is over, or the client still has
a lease for that long. -/
def Backed (ip : Ipv4Addr) (mac : String) (expiry : ℤ) (s : Scene SqliteDb) : Prop :=
  expiry ≤ s.clock ∨
    ∃ l ∈ s.db.leases, l.ipAddress = ip ∧ l.macAddress = mac ∧ expiry ≤ l.leaseEnd

section Backed

variable {ip : Ipv4Addr} {mac : String} {expiry : ℤ} {s s' : Scene SqliteDb}

theorem Backed.elapses (h : Backed ip mac expiry s) (hs : Elapses calm s s') :
    Backed ip mac expiry s' := by
  rcases h with hpast | ⟨l, hl, hip, hmac, hend⟩
  · exact .inl (hpast.trans hs.clock)
  · by_cases hkept : s'.clock ≤ l.leaseEnd
    · exact .inr ⟨l, hs.kept trivial l hl hkept, hip, hmac, hend⟩
    · exact .inl (by omega)

/-- Once the address is vacant the promise is over. -/
theorem Backed.le_clock (h : Backed ip mac expiry s) (hvacant : Vacant s.db.leases s.clock ip) :
    expiry ≤ s.clock := by
  rcases h with hpast | ⟨l, hl, hip, -, hend⟩
  · exact hpast
  · exact hend.trans (hvacant l hl hip)

/-- Deleting a row of another client, or of another address, breaks no promise. -/
theorem Backed.expireLease (h : Backed ip mac expiry s) {id : ℤ}
    (hother : ∀ l ∈ s.db.leases, l.id = id → l.ipAddress = ip → l.macAddress ≠ mac) :
    Backed ip mac expiry (s.expireLease id) := by
  rcases h with hpast | ⟨l, hl, hip, hmac, hend⟩
  · exact .inl hpast
  · refine .inr ⟨l, List.mem_filter.mpr ⟨hl, ?_⟩, hip, hmac, hend⟩
    have hid : l.id ≠ id := fun hid => hother l hl hid hip hmac
    simpa using hid

theorem Backed.insertLease (h : Backed ip mac expiry s) (lease : Lease) :
    Backed ip mac expiry (s.insertLease lease) := by
  rcases h with hpast | ⟨l, hl, hip, hmac, hend⟩
  · exact .inl hpast
  · exact .inr ⟨l, List.mem_append_left _ hl, hip, hmac, hend⟩

/-- An inserted lease backs its own promise. -/
theorem backed_insertLease {lease : Lease} (h : expiry ≤ lease.leaseEnd) :
    Backed lease.ipAddress lease.macAddress expiry (s.insertLease lease) :=
  .inr ⟨lease.toRow (s.db.leaseSeq + 1), List.mem_append_right _ (by simp), rfl, rfl, h⟩

end Backed

/-! ### Handling one packet -/

section Packet

variable {ord : ScanOrder} (config : DhcpConfig) (packet : DhcpPacket)
  (ip₀ : Ipv4Addr) (mac₀ : String) (expiry : ℤ)

/-- Is the packet a RELEASE of the client? -/
def IsRelease (mac : String) : Prop :=
  packet.getMessageType = some .release ∧ packet.chaddr.toString = mac

/-- The lease time, in seconds. -/
abbrev DhcpConfig.seconds : ℤ := config.defaultLeaseTime.toNat

/-- A promise of `ip₀` to `mac₀`, made no later than now. -/
def Promised (s : Scene SqliteDb) : Prop :=
  Orderly calm s ∧ Backed ip₀ mac₀ expiry s ∧ expiry ≤ s.clock + config.seconds

/-- What is known when the packet has been handled with a lease on record: the reply is the
ACK for it, it is backed, and if the address was promised to another client, the lease
starts after the promise is over. -/
structure Recorded (lease : Lease) (s : Scene SqliteDb) : Prop where
  mac : lease.macAddress = requestMac packet
  leaseEnd : lease.leaseEnd = lease.leaseStart + config.seconds
  started : lease.leaseStart ≤ s.clock
  backed : Backed lease.ipAddress lease.macAddress lease.leaseEnd s
  after : lease.ipAddress = ip₀ → lease.macAddress ≠ mac₀ → expiry ≤ lease.leaseStart

/-- What handling the packet guarantees. -/
structure Settled (reply : Option DhcpPacket) (s : Scene SqliteDb) : Prop where
  orderly : Orderly calm s
  promised : ¬ IsRelease packet mac₀ → Promised config ip₀ mac₀ expiry s
  silent : IsRelease packet mac₀ → reply = none
  recorded : ∀ ack lease, reply = some ack → s.granted = some lease →
    (∃ subnet, ack = createAck packet lease.ipAddress subnet config) ∧
      Recorded config packet ip₀ mac₀ expiry lease s

variable {config packet ip₀ mac₀ expiry} {s s' : Scene SqliteDb}

theorem Recorded.elapses {lease : Lease} (h : Recorded config packet ip₀ mac₀ expiry lease s)
    (hs : Elapses calm s s') : Recorded config packet ip₀ mac₀ expiry lease s' :=
  ⟨h.mac, h.leaseEnd, h.started.trans hs.clock, h.backed.elapses hs, h.after⟩

theorem Promised.elapses (h : Promised config ip₀ mac₀ expiry s) (hs : Elapses calm s s') :
    Promised config ip₀ mac₀ expiry s' := by
  obtain ⟨horderly, hbacked, hdue⟩ := h
  have hclock := hs.clock
  exact ⟨horderly.elapses hs, hbacked.elapses hs, by omega⟩

/-- The promise, and what is on record so far. -/
theorem stable_granted (granted : Option Lease) : (calm.setting ord).Stable fun s =>
    Promised config ip₀ mac₀ expiry s ∧ s.granted = granted := by
  have hpromised : (calm.setting ord).Stable (Promised config ip₀ mac₀ expiry) :=
    ⟨fun h => h.1, fun h hs => h.elapses hs⟩
  exact hpromised.and fun h hs => hs.granted.trans h

/-- The promise, and nothing on record yet. -/
theorem stable_promised : (calm.setting ord).Stable fun s =>
    Promised config ip₀ mac₀ expiry s ∧ s.granted = none :=
  stable_granted none

/-- Finishing without a lease on record. -/
theorem settled_of_none {reply : Option DhcpPacket} (hrel : ¬ IsRelease packet mac₀)
    (h : Promised config ip₀ mac₀ expiry s ∧ s.granted = none) :
    Settled config packet ip₀ mac₀ expiry reply s :=
  ⟨h.1.1, fun _ => h.1, fun hr => absurd hr hrel, fun _ _ _ hgranted => by simp [h.2] at hgranted⟩

/-- **Granting the lease.** The address is vacant by now; if it was promised to another
client, that promise is over, and if it was promised to this one, the new lease renews it. -/
theorem grantLease_settled {ip : Ipv4Addr} {range : DynamicRange} {subnet : Subnet}
    (hrel : ¬ IsRelease packet mac₀) (horderly : Orderly calm s)
    (hvacant : Vacant s.db.leases s.clock ip)
    (hsubnet : s.db.hasSubnet range.subnetId = true)
    (hdue : expiry ≤ s.clock + config.seconds)
    (hbacked : Backed ip₀ mac₀ expiry s ∨ ip = ip₀ ∧ requestMac packet = mac₀) :
    (calm.setting ord).Holds (Settled config packet ip₀ mac₀ expiry)
      (grantLease packet config ip range subnet) s := by
  -- what is known from a moment `t` on
  have hstable : ∀ t : ℤ, (calm.setting ord).Stable fun s => Orderly calm s ∧
      Vacant s.db.leases s.clock ip ∧ s.db.hasSubnet range.subnetId = true ∧
      t ≤ s.clock ∧ (Backed ip₀ mac₀ expiry s ∨ ip = ip₀ ∧ requestMac packet = mac₀) :=
    fun t => stable_orderly.and fun h hs => ⟨h.1.mono hs.leases.subset hs.clock,
      hs.subnets trivial _ h.2.1, h.2.2.1.trans hs.clock,
      h.2.2.2.imp_left fun hb => hb.elapses hs⟩
  refine holds_read (hstable s.clock) rfl ?_ ⟨horderly, hvacant, hsubnet, le_rfl, hbacked⟩
  rintro s₂ now ⟨horderly, hvacant, hsubnet, hclock, hbacked⟩ hstep
  obtain rfl := (step_utcNow hstep).1
  have hafter : ip = ip₀ → requestMac packet ≠ mac₀ → expiry ≤ s₂.clock := by
    rintro rfl hne
    rcases hbacked with hbacked | ⟨-, heq⟩
    · exact hbacked.le_clock hvacant
    · exact absurd heq hne
  refine (hstable s₂.clock).request ?_ ⟨horderly, hvacant, hsubnet, le_rfl, hbacked⟩
  rintro s₃ ⟨horderly, hvacant, hsubnet, hclock', hbacked⟩ reply s₄ hstep
  rcases step_createLease hstep with ⟨-, -, hfail | hgone⟩ | ⟨rfl, rfl⟩
  · exact hfail.elim
  · exact absurd (hsubnet.symm.trans hgone) (by decide)
  · -- the new row is in the table
    set lease := newLease packet config ip range s₂.clock
    have hrow : Orderly calm (s₃.insertLease lease) :=
      horderly.insertLease ⟨packet.chaddr, requestMac_eq packet⟩ hvacant.heldBy fun _ => hvacant
    have hend : lease.leaseEnd = s₂.clock + config.seconds := rfl
    have hown : Backed ip₀ mac₀ expiry (s₃.insertLease lease) := by
      rcases hbacked with hbacked | ⟨rfl, rfl⟩
      · exact hbacked.insertLease lease
      · exact backed_insertLease (by omega)
    have hrec : Recorded config packet ip₀ mac₀ expiry lease (s₃.insertLease lease) :=
      ⟨rfl, rfl, hclock', backed_insertLease le_rfl, hafter⟩
    have hdue' : expiry ≤ s₃.clock + config.seconds := by omega
    have hfinal : (calm.setting ord).Stable fun s => (Promised config ip₀ mac₀ expiry s ∧
        s.granted = some lease) ∧ Recorded config packet ip₀ mac₀ expiry lease s :=
      (stable_granted (some lease)).and fun h hs => h.elapses hs
    refine hfinal.done (fun s h => ⟨h.1.1.1, fun _ => h.1.1, fun hr => absurd hr hrel, ?_⟩)
      ⟨⟨⟨hrow, hown, hdue'⟩, rfl⟩, hrec⟩
    rintro ack lease' hack hgranted
    obtain rfl := Option.some.inj hack
    obtain rfl := Option.some.inj (h.1.2.symm.trans hgranted)
    exact ⟨⟨subnet, rfl⟩, h.2⟩

/-- Carrying out a plan that is ready. -/
theorem carryOut_settled {plan : RequestPlan} (hrel : ¬ IsRelease packet mac₀)
    (h : Promised config ip₀ mac₀ expiry s ∧ s.granted = none)
    (hready : Ready calm (requestMac packet) plan s) :
    (calm.setting ord).Holds (Settled config packet ip₀ mac₀ expiry)
      (plan.carryOut packet config) s := by
  cases plan with
  | refuse => exact stable_promised.done (fun s h => settled_of_none hrel h) h
  | confirm ip subnet => exact stable_promised.done (fun s h => settled_of_none hrel h) h
  | grant ip range subnet old =>
    cases old with
    | none =>
      exact grantLease_settled hrel h.1.1 (hready.vacant rfl) (hready.subnet trivial) h.1.2.2
        (.inl h.1.2.1)
    | some id =>
      have hstable : (calm.setting ord).Stable fun s =>
          (Promised config ip₀ mac₀ expiry s ∧ s.granted = none) ∧
          Ready calm (requestMac packet) (.grant ip range subnet (some id)) s :=
        stable_promised.and fun h hs => h.elapses hs
      refine hstable.request ?_ ⟨h, hready⟩
      intro s hs reply s' hstep
      obtain ⟨⟨⟨horderly, hbacked, hdue⟩, -⟩, hready⟩ := hs
      rcases step_expireLease hstep with ⟨hfail, -⟩ | rfl
      · exact hfail.elim
      · refine grantLease_settled hrel (horderly.expireLease id)
          (hready.only calm_expires id rfl).vacant_filter (hready.subnet trivial) hdue ?_
        -- an expired row either backs the promise, and is replaced at once, or has no part in it
        by_cases hown : ip = ip₀ ∧ requestMac packet = mac₀
        · exact .inr hown
        · refine .inl (hbacked.expireLease fun l hl hid hip hmac => hown ?_)
          obtain ⟨hip', hmac'⟩ := hready.own l hl (by rw [hid])
          exact ⟨hip'.symm.trans hip, hmac'.symm.trans hmac⟩

/-- **Handling a packet** keeps a promise unless the packet is the client's RELEASE, and
records no lease against it. -/
theorem handlePacket_settled {ifaceIps : List Ipv4Addr}
    (h : Promised config ip₀ mac₀ expiry s ∧ s.granted = none) :
    (calm.setting ord).Holds (Settled config packet ip₀ mac₀ expiry)
      (handlePacket packet ifaceIps config) s := by
  have hrequest : packet.getMessageType ≠ some .release → ¬ IsRelease packet mac₀ :=
    fun hne hr => hne hr.1
  unfold handlePacket
  split
  case h_1 htype =>
    exact (reads_hold stable_promised handleDiscover_reads h).mono fun _ s hs =>
      settled_of_none (hrequest (by simp [htype])) hs
  case h_2 htype =>
    rw [handleRequest_eq]
    refine Setting.Holds.bind ((planRequest_holds stable_promised h).mono fun plan s hs => ?_)
    exact carryOut_settled (hrequest (by simp [htype])) hs.1 hs.2
  case h_3 htype =>
    by_cases hmac : packet.chaddr.toString = mac₀
    · -- the client gives the address up
      refine Setting.Holds.bind ((handleRelease_holds stable_orderly
        (fun s id hs _ => hs.expireLease id) h.1.1).mono fun _ s hs => ?_)
      exact stable_orderly.done (fun s h => ⟨h, fun hr => absurd ⟨htype, hmac⟩ hr, fun _ => rfl,
        by simp⟩) hs
    · refine Setting.Holds.bind ((handleRelease_holds stable_promised (fun s id hs hrows => ?_)
        h).mono fun _ s hs => ?_)
      · refine ⟨⟨hs.1.1.expireLease id, hs.1.2.1.expireLease fun l hl hid _ => ?_, hs.1.2.2⟩, hs.2⟩
        rw [hrows l hl hid]
        exact hmac
      · exact stable_promised.done (fun s h => settled_of_none (fun hr => hmac hr.2) h) hs
  case h_4 hne =>
    exact stable_promised.done (fun s h => settled_of_none (hrequest fun hr => hne hr) h) h

end Packet

/-! ### Runs of the daemon -/

/-- The event is an ACK of the dynamic branch: it acknowledges `ip` to `m` for `leaseTime`
seconds, and it recorded a lease that starts at `t`, the reading of the clock in
`handle_request`. -/
def DynamicAck (ev : DaemonEvent SqliteDb) (ip : Ipv4Addr) (m : MacAddress) (t : ℤ)
    (leaseTime : UInt32) : Prop :=
  ∃ d ack s lease, ev = .handled d (some ack) s ∧ d.packet.chaddr = m ∧
    ack.getMessageType = some .ack ∧ ack.yiaddr = ip ∧ .leaseTime leaseTime ∈ ack.options ∧
    s.granted = some lease ∧ lease.leaseStart = t

/-- The event is the end of handling a RELEASE of the client. -/
def Releases (m : MacAddress) (ev : DaemonEvent SqliteDb) : Prop :=
  ∃ d reply s, ev = .handled d reply s ∧ d.packet.getMessageType = some .release ∧
    d.packet.chaddr = m

/-- The lease time an ACK announces is the configured one. -/
theorem leaseTime_of_mem_createAck {packet : DhcpPacket} {ip : Ipv4Addr} {subnet : Subnet}
    {config : DhcpConfig} {leaseTime : UInt32}
    (h : .leaseTime leaseTime ∈ (createAck packet ip subnet config).options) :
    leaseTime = config.defaultLeaseTime := by
  cases hdomain : subnet.domainName <;> simpa [createAck, domainOption, hdomain] using h

section Run

variable {ord : ScanOrder} {config : DhcpConfig} {w : World SqliteDb}
  {acts : List DaemonAction}

/-- A run without failures of the listener's calls and without deletions of subnets. -/
theorem along_calm {st : DaemonState SqliteDb}
    (hmoves : ∀ a ∈ acts, a.movesWithin (fun m => m.fromApi && m.keepsSubnets) = true)
    (hcalls : ∀ a ∈ acts, a.callsWithin (!·) = true) :
    (daemon (SqliteDb.exec ord) config).Along
      ((daemon (SqliteDb.exec ord) config).Permits (calm.setting ord)) st acts := by
  refine Run.along_of_forall fun a ha st => permits_daemon (fun m hm => ?_) ?_
  · have hmove := hmoves a ha
    simp only [hm, Loop.Action.movesWithin, Bool.and_eq_true] at hmove
    exact ⟨hmove.1, fun _ => hmove.2⟩
  · rintro q c next - rfl
    simpa [Loop.Action.callsWithin] using hcalls _ ha

/-- Accepting a packet leaves the lease table alone. -/
theorem Promised.accept {ip : Ipv4Addr} {mac : String} {expiry : ℤ} {s : Scene SqliteDb}
    (h : Promised config ip mac expiry s) :
    Promised config ip mac expiry { s with granted := none } :=
  ⟨⟨h.1.tidy, h.1.exclusive, h.1.single⟩, h.2⟩

/-- In an orderly table a promise that is already over costs nothing. -/
theorem Orderly.promised {s : Scene SqliteDb} (h : Orderly calm s) (ip : Ipv4Addr)
    (mac : String) : Promised config ip mac s.clock s :=
  ⟨h, .inl le_rfl, by simp [DhcpConfig.seconds]⟩

/-- **After an ACK of the dynamic branch** the address is promised to the client. -/
theorem promised_of_handled (hempty : w.db.leases = []) {a : DaemonAction}
    (hacts : (daemon (SqliteDb.exec ord) config).Along
      ((daemon (SqliteDb.exec ord) config).Permits (calm.setting ord)) (idle w) (acts ++ [a]))
    {d : Datagram} {ack : DhcpPacket} {s : Scene SqliteDb} {lease : Lease}
    (hev : ((daemon (SqliteDb.exec ord) config).step
      ((daemon (SqliteDb.exec ord) config).after (idle w) acts) a).1 =
        some (.handled d (some ack) s))
    (hgranted : s.granted = some lease) :
    (∃ subnet, ack = createAck d.packet lease.ipAddress subnet config) ∧
      lease.macAddress = d.packet.chaddr.toString ∧
      Promised config lease.ipAddress lease.macAddress
        (lease.leaseStart + config.seconds) s := by
  obtain ⟨hbefore, hlast⟩ := Loop.along_append.mp hacts
  -- every packet is settled with respect to some promise that is over
  let post : Datagram → Option DhcpPacket → Scene SqliteDb → Prop := fun q reply s =>
    ∃ expiry, Settled config q.packet .unspecified "" expiry reply s
  have hhandle : ∀ q s, Orderly calm s → (calm.setting ord).Holds (post q)
      ((daemon (SqliteDb.exec ord) config).handler q)
      ((daemon (SqliteDb.exec ord) config).accept q s) := fun q s hs =>
    (handlePacket_settled ⟨(hs.promised _ _).accept, rfl⟩).mono fun _ _ h => ⟨_, h⟩
  have hinit : Loop.Good (calm.setting ord) (Orderly calm) post (idle w) :=
    orderly_of_empty hempty
  have hgood := hinit.after stable_orderly hhandle (fun _ _ _ h => h.choose_spec.orderly) hbefore
  obtain ⟨expiry, hsettled⟩ := (hgood.step stable_orderly hhandle hlast.1).1 d (some ack) s hev
  obtain ⟨hack, hrec⟩ := hsettled.recorded ack lease rfl hgranted
  have hstarted := hrec.started
  refine ⟨hack, hrec.mac.trans (requestMac_eq d.packet), hsettled.orderly, ?_, by omega⟩
  rw [← hrec.leaseEnd]
  exact hrec.backed

end Run

/-- **No duplicate assignment on the wire.** Start the daemon on any database without leases,
let no call of the listener fail and no subnet be deleted. If the dynamic branch acknowledges
an address to `m` at the time `t`, and later to another client `m'`, and no RELEASE of `m` has
been handled in between, then the second lease starts when the first one is over. -/
theorem dynamic_acks_exclusive (ord : ScanOrder) (config : DhcpConfig) (w : World SqliteDb)
    (hempty : w.db.leases = []) (acts : List DaemonAction)
    (hmoves : ∀ a ∈ acts, a.movesWithin (fun m => m.fromApi && m.keepsSubnets) = true)
    (hcalls : ∀ a ∈ acts, a.callsWithin (!·) = true)
    (pre mid rest : List (DaemonEvent SqliteDb)) (ev ev' : DaemonEvent SqliteDb)
    (hevents : (daemon (SqliteDb.exec ord) config).events (idle w) acts =
      pre ++ ev :: (mid ++ ev' :: rest))
    (ip : Ipv4Addr) (m m' : MacAddress) (t t' : ℤ) (leaseTime leaseTime' : UInt32)
    (hack : DynamicAck ev ip m t leaseTime) (hack' : DynamicAck ev' ip m' t' leaseTime')
    (hne : m' ≠ m) (hrelease : ∀ e ∈ mid, ¬ Releases m e) :
    t + leaseTime.toNat ≤ t' := by
  obtain ⟨d, ack, s, lease, rfl, rfl, -, rfl, htime, hgranted, rfl⟩ := hack
  obtain ⟨d', ack', s', lease', rfl, rfl, -, hyiaddr, -, hgranted', rfl⟩ := hack'
  have halong := @along_calm ord config acts (idle w) hmoves hcalls
  obtain ⟨before, a, after, rfl, hstep, hafter⟩ := Loop.events_eq_append_cons hevents
  rw [List.append_cons] at halong
  obtain ⟨hfirst, hrest⟩ := Loop.along_append.mp halong
  -- the promise made by the first ACK
  obtain ⟨⟨subnet, rfl⟩, hmac, hpromised⟩ := promised_of_handled hempty hfirst hstep hgranted
  obtain rfl := leaseTime_of_mem_createAck htime
  -- it is followed up to the second ACK
  rw [Loop.step_handled hstep] at hafter
  have hidle : (daemon (SqliteDb.exec ord) config).after (idle w) (before ++ [a]) =
      ⟨s, none⟩ :=
    Run.after_append.trans (Loop.step_handled hstep)
  rw [hidle] at hrest
  let promised := Promised config lease.ipAddress lease.macAddress
    (lease.leaseStart + config.seconds)
  have hstable : (calm.setting ord).Stable promised :=
    ⟨fun h => h.1, fun h hs => h.elapses hs⟩
  have hgood : Loop.Good (calm.setting ord) promised (fun (q : Datagram) =>
      Settled config q.packet lease.ipAddress lease.macAddress
        (lease.leaseStart + config.seconds)) ⟨s, none⟩ := hpromised
  have hsettled := hgood.handled hstable
    (fun q s hs => handlePacket_settled ⟨hs.accept, rfl⟩)
    (K := fun q _ => ¬ IsRelease q.packet lease.macAddress)
    (fun q r s h hk => h.promised hk) hrest hafter fun q r s hmem hrel => ?_
  · obtain ⟨⟨subnet', rfl⟩, hrec⟩ := hsettled.recorded ack' lease' rfl hgranted'
    refine hrec.after hyiaddr ?_
    rw [hrec.mac, requestMac_eq, hmac]
    exact fun heq => hne (MacAddress.toString_injective heq)
  · rw [hmac] at hrel
    exact hrelease _ hmem ⟨q, r, s, rfl, hrel.1, MacAddress.toString_injective hrel.2⟩

/-- Alice gets an address, and when her lease is over, Bob gets it. -/
def Sample.turnover : List DaemonAction :=
  .receive ⟨request alice (.new 10 0 0 10), iface⟩ :: List.replicate 7 (.call false) ++
    .move (.tick 60) :: .receive ⟨request bob (.new 10 0 0 10), iface⟩ ::
      List.replicate 7 (.call false)

/-- The second ACK comes at the first possible moment. -/
theorem dynamic_acks_exclusive_turnover :
    ∃ pre ev mid ev' rest,
      (daemon (SqliteDb.exec .rowid) Sample.config).events (idle Sample.world) Sample.turnover =
        pre ++ ev :: (mid ++ ev' :: rest) ∧
      DynamicAck ev (.new 10 0 0 10) Sample.alice 0 60 ∧
      DynamicAck ev' (.new 10 0 0 10) Sample.bob 60 60 ∧
      (0 : ℤ) + (60 : UInt32).toNat ≤ 60 := by
  let events :=
    (daemon (SqliteDb.exec .rowid) Sample.config).events (idle Sample.world) Sample.turnover
  have hack : ∀ mac t s lease ack, s.granted = some lease → ack.getMessageType = some .ack →
      ack.yiaddr = .new 10 0 0 10 → .leaseTime 60 ∈ ack.options → lease.leaseStart = t →
      DynamicAck (.handled ⟨Sample.request mac (.new 10 0 0 10), Sample.iface⟩ (some ack) s)
        (.new 10 0 0 10) mac t 60 :=
    fun mac t s lease ack hg ht hy hl hs =>
      ⟨_, ack, s, lease, rfl, rfl, ht, hy, hl, hg, hs⟩
  have hfirst : DynamicAck (events.get ⟨6, by decide +kernel⟩) (.new 10 0 0 10) Sample.alice 0 60 :=
    hack _ _ _ _ _ rfl rfl rfl (by decide +kernel) rfl
  have hsecond : DynamicAck (events.get ⟨14, by decide +kernel⟩) (.new 10 0 0 10) Sample.bob 60 60 :=
    hack _ _ _ _ _ rfl rfl rfl (by decide +kernel) rfl
  have hnone : ((events.drop 7).take 7).all (fun
      | .handled _ _ _ => false
      | _ => true) = true := by decide +kernel
  refine ⟨events.take 6, _, (events.drop 7).take 7, _, events.drop 15, rfl, hfirst, hsecond, ?_⟩
  refine dynamic_acks_exclusive .rowid Sample.config Sample.world rfl Sample.turnover
    (by decide) (by decide) (events.take 6) ((events.drop 7).take 7) (events.drop 15) _ _ rfl
    _ _ _ _ _ _ _ hfirst hsecond (by decide) ?_
  rintro e he ⟨d, reply, s, rfl, -⟩
  exact absurd (List.all_eq_true.mp hnone _ he) Bool.false_ne_true

end Ndhcpd
