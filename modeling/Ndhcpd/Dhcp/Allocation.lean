import Ndhcpd.Dhcp.DiscoverSpec

/-!
# Allocation over whole conversations

One DISCOVER and one REQUEST are a conversation: the client asks for the address it was offered.
The two handlers do not share any state but the lease table; an OFFER reserves nothing. Still, when
new clients come one after the other, the pool is handed out in order: the first client gets the
first free address, the next one the next, and so on until nothing is left. `clients_served` says
so for any number of clients, any ranges, overlapping or not, and any leases that exist already.

The argument is one about lists. The free addresses of a pool are its distinct elements that are
not leased (`freeAddresses`); a conversation takes the first of them and leaves the rest
(`converse_spec`).
-/

namespace Ndhcpd

/-! ### Conversations -/

/-- A client that asks for the address it is offered. The packets may carry anything else. -/
structure Client where
  mac : MacAddress
  discover : DhcpPacket
  request : Ipv4Addr → DhcpPacket
  discover_type : discover.getMessageType = some .discover
  discover_mac : discover.chaddr = mac
  request_type : ∀ ip, (request ip).getMessageType = some .request
  request_mac : ∀ ip, (request ip).chaddr = mac
  request_ip : ∀ ip, requestedIp (request ip) = some ip

/-- DISCOVER, and if there is an OFFER, REQUEST for the address offered. Returned is the address
that is acknowledged. -/
def converse (ord : ScanOrder) (config : DhcpConfig) (ifaceIps : List Ipv4Addr) (client : Client)
    (w : World SqliteDb) : Option Ipv4Addr × World SqliteDb :=
  let out := (handlePacket client.discover ifaceIps config).run (serve (SqliteDb.exec ord)) calmly w
  match out.value with
  | none => (none, out.state)
  | some offer =>
    let out' := (handlePacket (client.request offer.yiaddr) ifaceIps config).run
      (serve (SqliteDb.exec ord)) calmly out.state
    (out'.value.map (·.yiaddr), out'.state)

/-- The conversations of several clients, one after the other. -/
def converseAll (ord : ScanOrder) (config : DhcpConfig) (ifaceIps : List Ipv4Addr) :
    List Client → World SqliteDb → List (Option Ipv4Addr) × World SqliteDb
  | [], w => ([], w)
  | client :: rest, w =>
    let out := converse ord config ifaceIps client w
    let outs := converseAll ord config ifaceIps rest out.2
    (out.1 :: outs.1, outs.2)

/-- The client has no static assignment and no active lease. -/
structure NewClient (db : SqliteDb) (now : ℤ) (mac : MacAddress) : Prop where
  unreserved : ∀ s ∈ db.staticIps, s.macAddress.toLower ≠ mac.toString
  unleased : ∀ l ∈ db.leases, l.macAddress.toLower = mac.toString → l.leaseEnd ≤ now

/-- The addresses of the pool that are not leased, without repetitions, in the order in which the
pool is searched. -/
def freeAddresses (ord : ScanOrder) (db : SqliteDb) (now : ℤ) (ifaceIps : List Ipv4Addr) :
    List Ipv4Addr :=
  (((candidates ord db ifaceIps).map Prod.fst).filter fun ip =>
    decide (Vacant db.leases now ip)).eraseDups

/-! ### Free addresses -/

section Free

variable {ord : ScanOrder} {db : SqliteDb} {now : ℤ} {ifaceIps : List Ipv4Addr} {lease : Lease}

/-- Distinct elements are distinct. -/
theorem nodup_eraseDups {α : Type} [DecidableEq α] (l : List α) : l.eraseDups.Nodup := by
  induction hn : l.length using Nat.strongRecOn generalizing l with
  | ind n ih =>
    cases l with
    | nil => simp
    | cons a l =>
      rw [List.eraseDups_cons, List.nodup_cons]
      refine ⟨fun hmem => ?_, ih _ ?_ _ rfl⟩
      · have hne := (List.mem_filter.mp (List.mem_eraseDups.mp hmem)).2
        simp at hne
      · have hle := List.length_filter_le (fun b => !b == a) l
        rw [List.length_cons] at hn
        omega

/-- The pool search finds the first free address. -/
theorem poolChoice_eq_head (hmasks : ∀ s ∈ db.subnets, s.netmask ≤ 32) :
    (poolChoice ord db now ifaceIps).map Prod.fst = (freeAddresses ord db now ifaceIps).head? := by
  have hhead : ∀ l : List Ipv4Addr, l.eraseDups.head? = l.head? := by
    intro l
    cases l with
    | nil => rfl
    | cons a l => rw [List.eraseDups_cons, List.head?_cons, List.head?_cons]
  rw [poolChoice_eq hmasks, freeAddresses, hhead, List.head?_filter, List.find?_map, Option.map_map]
  rfl

/-- An address is vacant after a further lease if it was so before and the lease is on another
address or has already ended. -/
theorem vacant_append {rows : List LeaseRow} {row : LeaseRow} (hact : now < row.leaseEnd)
    (ip : Ipv4Addr) : Vacant (rows ++ [row]) now ip ↔ Vacant rows now ip ∧ ip ≠ row.ipAddress := by
  constructor
  · intro h
    refine ⟨fun l hl => h l (List.mem_append_left _ hl), ?_⟩
    rintro rfl
    have hend := h row (List.mem_append_right _ List.mem_cons_self) rfl
    omega
  · rintro ⟨h, hne⟩ l hl hip
    rcases List.mem_append.mp hl with hl | hl
    · exact h l hl hip
    · rw [List.mem_singleton.mp hl] at hip
      exact absurd hip.symm hne

/-- Leasing the first free address leaves the others. -/
theorem freeAddresses_insertLease {ip : Ipv4Addr} {rest : List Ipv4Addr}
    (hfree : freeAddresses ord db now ifaceIps = ip :: rest) (hip : lease.ipAddress = ip)
    (hact : now < lease.leaseEnd) :
    freeAddresses ord (db.insertLease lease) now ifaceIps = rest := by
  have hsame : candidates ord (db.insertLease lease) ifaceIps = candidates ord db ifaceIps := rfl
  have hvacant : (fun a => decide (Vacant (db.insertLease lease).leases now a)) =
      fun a => (!a == ip) && decide (Vacant db.leases now a) := by
    funext a
    have hiff := @vacant_append now db.leases (lease.toRow (db.leaseSeq + 1)) hact a
    have hrow : (lease.toRow (db.leaseSeq + 1)).ipAddress = ip := hip
    rw [hrow] at hiff
    rw [Bool.eq_iff_iff, decide_eq_true_eq, Bool.and_eq_true, decide_eq_true_eq, Bool.not_eq_true',
      beq_eq_false_iff_ne, and_comm]
    exact hiff
  rw [freeAddresses] at hfree ⊢
  rw [hsame, hvacant, ← List.filter_filter]
  cases hlist : ((candidates ord db ifaceIps).map Prod.fst).filter fun a =>
      decide (Vacant db.leases now a) with
  | nil =>
    rw [hlist] at hfree
    cases hfree
  | cons a l =>
    rw [hlist, List.eraseDups_cons, List.cons.injEq] at hfree
    obtain ⟨rfl, rfl⟩ := hfree
    rw [List.filter_cons_of_neg (by simp)]

end Free

/-! ### One conversation -/

section Conversation

variable {ord : ScanOrder} {config : DhcpConfig} {ifaceIps : List Ipv4Addr} {w : World SqliteDb}
  {client : Client}

/-- A program that only reads leaves the world as it is when it runs calmly. -/
theorem run_reads_calmly {α : Type} {p : ServerProgram α} (hp : Reads p) :
    (p.run (serve (SqliteDb.exec ord)) calmly w).state = w := by
  induction p generalizing w with
  | done a => rfl
  | request c next ih =>
    have hserve : (serve (SqliteDb.exec ord) (calmly 0) c w).2 = w := by
      rw [serve_of_isRead hp.1]
      simp [calmly, Fate.calm]
    rw [Program.run_request, hserve]
    exact ih _ (hp.2 _)

/-- A new client is offered the first free address, if there is one. -/
theorem NewClient.discover (hnew : NewClient w.db w.clock client.mac)
    (hmasks : ∀ s ∈ w.db.subnets, s.netmask ≤ 32) :
    (((handlePacket client.discover ifaceIps config).run (serve (SqliteDb.exec ord)) calmly
        w).value).map (·.yiaddr) = (freeAddresses ord w.db w.clock ifaceIps).head? ∧
      ((handlePacket client.discover ifaceIps config).run (serve (SqliteDb.exec ord)) calmly
        w).state = w := by
  have hpacket : handlePacket client.discover ifaceIps config =
      handleDiscover client.discover ifaceIps config := by
    rw [handlePacket, client.discover_type]
  have hstatic : w.db.getStaticIpByMac ord client.mac.toString = none :=
    getStaticIpByMac_eq_none_iff.mpr hnew.unreserved
  have hlease : w.db.getActiveLease ord client.mac.toString w.clock = none := by
    refine Option.eq_none_iff_forall_ne_some.mpr fun l hl => ?_
    obtain ⟨r, hr, hact, hmac, -⟩ := SqliteDb.of_getActiveLease hl
    rw [MacAddress.toLower_toString] at hmac
    have hend := hnew.unleased r hr hmac
    omega
  have hchoice : discoverChoice ord w.db w.clock ifaceIps client.mac.toString =
      poolChoice ord w.db w.clock ifaceIps := by
    rw [discoverChoice, hstatic]
    simp only [dynamicChoice, hlease]
  rw [hpacket]
  refine ⟨?_, run_reads_calmly handleDiscover_reads⟩
  rw [handleDiscover_calmly, client.discover_mac, hchoice, Option.map_map, ← poolChoice_eq_head hmasks]
  rfl

/-- A free address of the pool is served by a range. -/
theorem servingRange_of_mem_freeAddresses (hkeys : (w.db.subnets.map (·.id)).Nodup)
    (hmasks : ∀ s ∈ w.db.subnets, s.netmask ≤ 32) {ip : Ipv4Addr}
    (hip : ip ∈ freeAddresses ord w.db w.clock ifaceIps) :
    Vacant w.db.leases w.clock ip ∧ ∃ range subnet, servingRange ord w.db ifaceIps ip = some range ∧
      w.db.getSubnet range.subnetId = some subnet := by
  obtain ⟨hmem, hvacant⟩ := List.mem_filter.mp (List.mem_eraseDups.mp hip)
  obtain ⟨⟨ip', subnet⟩, hcandidate, rfl⟩ := List.mem_map.mp hmem
  obtain ⟨hsubnet, hreach, r, hr, hid, henabled, hstart, hend⟩ := mem_candidates.mp hcandidate
  refine ⟨of_decide_eq_true hvacant, ?_⟩
  have hget : w.db.getSubnet r.toRange.subnetId = some subnet.toSubnet := by
    have hrange : r.toRange.subnetId = subnet.id := hid
    rw [hrange]
    exact getSubnet_of_mem hkeys hsubnet
  have hreachable : reachable ifaceIps w.db r.toRange = true := by
    rw [reachable, hget]
    exact (SubnetRow.ifaceInSubnet_iff (hmasks subnet hsubnet)).mpr hreach
  have hcovers : r.toRange.covers ip' = true := by
    rw [DynamicRange.covers, Bool.and_eq_true, decide_eq_true_eq, decide_eq_true_eq]
    exact ⟨hstart, hend⟩
  have hlisted : r.toRange ∈ w.db.listRanges ord none :=
    SqliteDb.mem_listRanges.mpr ⟨r, ⟨hr, by simp⟩, rfl⟩
  have hserves : (r.toRange.enabled && r.toRange.covers ip' && reachable ifaceIps w.db r.toRange) =
      true := by
    have hon : r.toRange.enabled = true := henabled
    rw [hcovers, hreachable, hon]
    rfl
  have hsome : (servingRange ord w.db ifaceIps ip').isSome = true := by
    rw [servingRange, List.find?_isSome]
    exact ⟨r.toRange, hlisted, hserves⟩
  obtain ⟨range, hrange⟩ := Option.isSome_iff_exists.mp hsome
  -- the range that is found may be another one, but its subnet is stored as well
  have hfound := List.find?_some hrange
  rw [Bool.and_eq_true, reachable, Option.any_eq_true] at hfound
  obtain ⟨subnet', hsubnet', -⟩ := hfound.2
  exact ⟨range, subnet', hrange, hsubnet'⟩

/-- A new client that asks for a free address gets it. -/
theorem NewClient.request (hnew : NewClient w.db w.clock client.mac)
    (hkeys : (w.db.subnets.map (·.id)).Nodup) (hmasks : ∀ s ∈ w.db.subnets, s.netmask ≤ 32)
    {ip : Ipv4Addr} (hip : ip ∈ freeAddresses ord w.db w.clock ifaceIps) :
    ∃ ack lease, (handlePacket (client.request ip) ifaceIps config).run (serve (SqliteDb.exec ord))
        calmly w = ⟨some ack, ⟨w.db.insertLease lease, w.clock⟩, calmly⟩ ∧
      ack.yiaddr = ip ∧ lease.ipAddress = ip ∧ lease.macAddress = client.mac.toString ∧
      lease.leaseEnd = w.clock + config.defaultLeaseTime.toNat := by
  have hpacket : handlePacket (client.request ip) ifaceIps config =
      handleRequest (client.request ip) ifaceIps config := by
    rw [handlePacket, client.request_type]
  have hmac : requestMac (client.request ip) = client.mac.toString := by
    rw [requestMac_eq, client.request_mac]
  have hstatic : w.db.getStaticIpByMac ord client.mac.toString = none :=
    getStaticIpByMac_eq_none_iff.mpr hnew.unreserved
  obtain ⟨hvacant, range, subnet, hrange, hsubnet⟩ :=
    servingRange_of_mem_freeAddresses hkeys hmasks hip
  have hplan : planLease client.mac.toString ip range subnet (w.db.listActiveLeases ord w.clock) =
      .grant ip range subnet none := by
    obtain ⟨-, hplan⟩ | ⟨r, hr, hact, hrip, -⟩ :=
      @planLease_listActiveLeases ord w.db client.mac.toString ip range subnet w.clock
    · exact hplan
    · have hend := hvacant r hr hrip
      omega
  have hdecision : requestDecision ord w.db w.clock (client.request ip) ifaceIps =
      .grant ip range subnet none := by
    rw [requestDecision, client.request_ip, hmac]
    simp only [hstatic, dynamicDecision, hrange, hsubnet, hmac, hplan]
  refine ⟨createAck (client.request ip) ip subnet config,
    newLease (client.request ip) config ip range w.clock, ?_, rfl, rfl, hmac, rfl⟩
  rw [hpacket, handleRequest_calmly_eq, hdecision]
  rfl

/-- **A conversation** takes the first free address, or there is none and nothing happens. -/
theorem converse_spec (hnew : NewClient w.db w.clock client.mac)
    (hkeys : (w.db.subnets.map (·.id)).Nodup) (hmasks : ∀ s ∈ w.db.subnets, s.netmask ≤ 32) :
    (freeAddresses ord w.db w.clock ifaceIps = [] ∧
      converse ord config ifaceIps client w = (none, w)) ∨
    ∃ ip rest lease, freeAddresses ord w.db w.clock ifaceIps = ip :: rest ∧
      converse ord config ifaceIps client w = (some ip, ⟨w.db.insertLease lease, w.clock⟩) ∧
      lease.ipAddress = ip ∧ lease.macAddress = client.mac.toString ∧
      lease.leaseEnd = w.clock + config.defaultLeaseTime.toNat := by
  obtain ⟨hoffer, hstate⟩ := @NewClient.discover ord config ifaceIps w client hnew hmasks
  cases hfree : freeAddresses ord w.db w.clock ifaceIps with
  | nil =>
    rw [hfree, List.head?_nil, Option.map_eq_none_iff] at hoffer
    refine .inl ⟨rfl, ?_⟩
    simp only [converse, hoffer, hstate]
  | cons ip rest =>
    rw [hfree, List.head?_cons, Option.map_eq_some_iff] at hoffer
    obtain ⟨offer, hvalue, rfl⟩ := hoffer
    obtain ⟨ack, lease, hrun, hyiaddr, hip, hmac, hend⟩ := @NewClient.request ord config ifaceIps w
      client hnew hkeys hmasks offer.yiaddr (hfree ▸ List.mem_cons_self)
    refine .inr ⟨offer.yiaddr, rest, lease, rfl, ?_, hip, hmac, hend⟩
    simp only [converse, hvalue, hstate, hrun, Option.map_some, hyiaddr]

/-- Other clients stay new. -/
theorem NewClient.insertLease {db : SqliteDb} {now : ℤ} {mac mac' : MacAddress} {lease : Lease}
    (h : NewClient db now mac) (hmac : lease.macAddress = mac'.toString) (hne : mac ≠ mac') :
    NewClient (db.insertLease lease) now mac where
  unreserved := h.unreserved
  unleased l hl hl' := by
    rcases List.mem_append.mp hl with hl | hl
    · exact h.unleased l hl hl'
    · rw [List.mem_singleton.mp hl] at hl'
      have hname : (lease.toRow (db.leaseSeq + 1)).macAddress = mac'.toString := hmac
      rw [hname, MacAddress.toLower_toString] at hl'
      exact absurd (MacAddress.toString_injective hl').symm hne

/-- The `k`-th client is acknowledged the `k`-th free address. -/
theorem converseAll_eq {clients : List Client} (hlease : 0 < config.defaultLeaseTime)
    (hkeys : (w.db.subnets.map (·.id)).Nodup) (hmasks : ∀ s ∈ w.db.subnets, s.netmask ≤ 32)
    (hclients : (clients.map (·.mac)).Nodup)
    (hnew : ∀ client ∈ clients, NewClient w.db w.clock client.mac) :
    (converseAll ord config ifaceIps clients w).1 = (List.range clients.length).map
      ((freeAddresses ord w.db w.clock ifaceIps)[·]?) := by
  induction clients generalizing w with
  | nil => rfl
  | cons client rest ih =>
    rw [List.map_cons, List.nodup_cons] at hclients
    rw [converseAll, List.length_cons, List.range_succ_eq_map, List.map_cons, List.map_map,
      List.cons.injEq]
    have hothers : ∀ other ∈ rest, NewClient w.db w.clock other.mac :=
      fun other hother => hnew other (List.mem_cons_of_mem _ hother)
    obtain ⟨hfree, hconverse⟩ | ⟨ip, free, lease, hfree, hconverse, hip, hmac, hend⟩ :=
      @converse_spec ord config ifaceIps w client (hnew client List.mem_cons_self) hkeys hmasks
    · rw [hconverse, ih hkeys hmasks hclients.2 hothers, hfree]
      exact ⟨rfl, rfl⟩
    · have hact : w.clock < lease.leaseEnd := by
        have hpos : 0 < config.defaultLeaseTime.toNat := UInt32.lt_iff_toNat_lt.mp hlease
        omega
      have hstill : ∀ other ∈ rest, NewClient (w.db.insertLease lease) w.clock other.mac := by
        intro other hother
        refine (hothers other hother).insertLease hmac ?_
        exact fun hsame => hclients.1 (List.mem_map.mpr ⟨other, hother, hsame⟩)
      have hrest := @ih ⟨w.db.insertLease lease, w.clock⟩ hkeys hmasks hclients.2 hstill
      rw [freeAddresses_insertLease hfree hip hact] at hrest
      rw [hconverse, hrest, hfree]
      exact ⟨rfl, rfl⟩

end Conversation

/-- Looking up the first `n` positions of a list gives its first elements. -/
theorem filterMap_getElem? {α : Type} (l : List α) (n : ℕ) :
    ((List.range n).map (l[·]?)).filterMap id = l.take n := by
  induction n generalizing l with
  | zero => rfl
  | succ n ih =>
    rw [List.range_succ_eq_map, List.map_cons, List.map_map]
    cases l with
    | nil =>
      rw [List.filterMap_cons_none rfl, List.take_nil]
      exact (ih []).trans List.take_nil
    | cons a l =>
      have hhead : id (a :: l)[0]? = some a := rfl
      rw [List.filterMap_cons_some hhead, List.take_succ_cons]
      exact congrArg (a :: ·) (ih l)

/-- **The pool is handed out in order.** Let any number of new clients with different hardware
addresses come one after the other, at one time and with no call failing, on any database with unique
subnet ids and netmasks of at most 32 bits. If leases last, the `k`-th client is acknowledged the
`k`-th free address of the pool, counted without repetitions in the order of the search, as long as
there is one, and nothing after that. So no address is given to two of them, and the number of
clients served is the smaller one of the numbers of clients and of free addresses. -/
theorem clients_served (ord : ScanOrder) (config : DhcpConfig) (ifaceIps : List Ipv4Addr)
    (w : World SqliteDb) (clients : List Client) (hlease : 0 < config.defaultLeaseTime)
    (hkeys : (w.db.subnets.map (·.id)).Nodup) (hmasks : ∀ s ∈ w.db.subnets, s.netmask ≤ 32)
    (hclients : (clients.map (·.mac)).Nodup)
    (hnew : ∀ client ∈ clients, NewClient w.db w.clock client.mac) :
    (converseAll ord config ifaceIps clients w).1 = (List.range clients.length).map
        ((freeAddresses ord w.db w.clock ifaceIps)[·]?) ∧
      ((converseAll ord config ifaceIps clients w).1.filterMap id).Nodup ∧
      ((converseAll ord config ifaceIps clients w).1.filterMap id).length =
        min clients.length (freeAddresses ord w.db w.clock ifaceIps).length := by
  have heq := @converseAll_eq ord config ifaceIps w clients hlease hkeys hmasks hclients hnew
  refine ⟨heq, ?_, ?_⟩
  · rw [heq, filterMap_getElem?]
    exact (nodup_eraseDups _).sublist (List.take_sublist _ _)
  · rw [heq, filterMap_getElem?, List.length_take]

/-- A client that sends nothing but the options it needs. -/
def Sample.client (mac : MacAddress) : Client where
  mac := mac
  discover := discover mac
  request := request mac
  discover_type := rfl
  discover_mac := rfl
  request_type _ := rfl
  request_mac _ := rfl
  request_ip _ := rfl

/-- Alice and Bob get the first two addresses of the range. -/
theorem clients_served_alice_bob :
    (converseAll .rowid Sample.config Sample.iface [Sample.client Sample.alice,
      Sample.client Sample.bob] Sample.world).1 =
      [some (.new 10 0 0 10), some (.new 10 0 0 11)] := by
  rw [(clients_served .rowid Sample.config Sample.iface Sample.world
    [Sample.client Sample.alice, Sample.client Sample.bob] (by decide) (by decide) (by decide)
    (by decide) ?_).1]
  · decide
  · intro client _
    exact ⟨fun s hs => absurd hs List.not_mem_nil, fun l hl => absurd hl List.not_mem_nil⟩

end Ndhcpd
