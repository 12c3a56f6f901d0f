import Ndhcpd.Dhcp.Exclusivity
import Ndhcpd.Dhcp.Outcome

/-!
# Offers that are honoured

An OFFER invites the client to ask for the address, and the REQUEST that follows should be
acknowledged, with the same network parameters. The two handlers decide by different routes.
`handleDiscover` passes over a static assignment on a subnet that the interface does not
reach, offers the address of an existing lease without looking for a range, and names the
parameters of the subnet it was scanning; `handleRequest` never gives a client with a static
assignment anything else, insists on an enabled range around the address, and names the
parameters of the subnet of the first such range.

Here the handlers run calmly: no call fails and the clock stands still. What they answer is
then a function of the database (`discoverChoice`, `handleRequest_outcome`), and
`offers_honoured_iff` compares the two answers in every state the daemon can reach.
-/

namespace Ndhcpd

/-! ### Calm runs -/

/-- Every call is executed at once and none fails. -/
def calmly : ℕ → Fate := fun _ => .calm

section Calm

variable {ord : ScanOrder} {w : World SqliteDb} {α : Type}

@[simp] theorem clockAfter_calmly (clock : ℤ) (n : ℕ) : clockAfter calmly clock n = clock := by
  induction n with
  | zero => rfl
  | succ n ih => simp [clockAfter, ih, calmly, Fate.calm]

/-- A calm call of any store. -/
theorem run_call_calmly {σ : Type} {store : Store σ} {w : World σ} {c : DbCall} {r : c.Result}
    {db' : σ} (h : store w.clock w.db c = (r, db')) (k : c.Result → ServerProgram α) :
    (dbCall c >>= k).run (serve store) calmly w = (k r).run (serve store) calmly ⟨db', w.clock⟩ := by
  have hserve : serve store .calm (.db c) w = (r, ⟨db', w.clock⟩) := by
    rw [serve_calm, h]
  rw [dbCall_bind, Program.run_request]
  show (k (serve store .calm (.db c) w).1).run _ calmly (serve store .calm (.db c) w).2 = _
  rw [hserve]

/-- A calm reading of the clock. -/
theorem run_utcNow_calmly {σ : Type} {store : Store σ} {w : World σ} (k : ℤ → ServerProgram α) :
    (utcNow >>= k).run (serve store) calmly w = (k w.clock).run (serve store) calmly w := by
  have hserve : serve store .calm .utcNow w = (w.clock, w) := by
    simp [serve, Fate.calm]
  show (k (serve store .calm .utcNow w).1).run _ calmly (serve store .calm .utcNow w).2 = _
  rw [hserve]

/-- A calm read returns what the database holds, and nothing changes. -/
theorem run_read_calmly {c : DbCall} (hc : c.isRead = true) (k : c.Result → ServerProgram α) :
    (dbCall c >>= k).run (serve (SqliteDb.exec ord)) calmly w =
      (k (SqliteDb.exec ord w.clock w.db c).1).run (serve (SqliteDb.exec ord)) calmly w :=
  run_call_calmly (Prod.ext rfl (SqliteDb.exec_of_isRead hc)) k

end Calm

/-! ### What a DISCOVER is answered -/

section Discover

variable (ord : ScanOrder) (db : SqliteDb) (now : ℤ) (ifaceIps : List Ipv4Addr)

/-- The first free address of the enabled ranges of a subnet. -/
def freeIn (subnet : Subnet) : Option (Ipv4Addr × Subnet) :=
  subnet.id.bind fun id =>
    (((db.listRanges ord (some id)).filter (·.enabled)).findSome?
      (firstFreeInRange ((db.listActiveLeases ord now).map (·.ipAddress)))).map (·, subnet)

/-- The address that the pool scan picks, with its subnet. -/
def poolChoice : Option (Ipv4Addr × Subnet) :=
  ((db.listSubnets ord).filter (ifaceInSubnet ifaceIps)).findSome? (freeIn ord db now)

/-- The address of the client's active lease if it is on a reachable subnet, else the choice
of the pool scan. -/
def dynamicChoice (mac : String) : Option (Ipv4Addr × Subnet) :=
  match db.getActiveLease ord mac now with
  | some lease =>
    match db.getSubnet lease.subnetId with
    | some subnet =>
      if ifaceInSubnet ifaceIps subnet then some (lease.ipAddress, subnet)
      else poolChoice ord db now ifaceIps
    | none => none
  | none => poolChoice ord db now ifaceIps

/-- The address reserved for the client if it is on a reachable subnet, else the dynamic
choice. -/
def discoverChoice (mac : String) : Option (Ipv4Addr × Subnet) :=
  match db.getStaticIpByMac ord mac with
  | some staticIp =>
    match db.getSubnet staticIp.subnetId with
    | some subnet =>
      if ifaceInSubnet ifaceIps subnet then some (staticIp.ipAddress, subnet)
      else dynamicChoice ord db now ifaceIps mac
    | none => none
  | none => dynamicChoice ord db now ifaceIps mac

variable {ord ifaceIps} {w : World SqliteDb} {packet : DhcpPacket} {config : DhcpConfig}

private theorem discoverSubnets_calmly (subnets : List Subnet) :
    ((discoverSubnets packet config ((w.db.listActiveLeases ord w.clock).map (·.ipAddress))
      subnets).run (serve (SqliteDb.exec ord)) calmly w).value =
      (subnets.findSome? (freeIn ord w.db w.clock)).map fun (ip, subnet) =>
        createOffer packet ip subnet config := by
  induction subnets with
  | nil => rfl
  | cons subnet rest ih =>
    rw [List.findSome?_cons]
    unfold discoverSubnets freeIn
    cases subnet.id with
    | none => exact ih
    | some id =>
      rw [run_read_calmly rfl]
      simp only [SqliteDb.exec, Option.bind_some]
      cases ((w.db.listRanges ord (some id)).filter (·.enabled)).findSome?
          (firstFreeInRange ((w.db.listActiveLeases ord w.clock).map (·.ipAddress))) with
      | none => exact ih
      | some candidate => rfl

private theorem discoverPool_calmly :
    ((discoverPool packet ifaceIps config).run (serve (SqliteDb.exec ord)) calmly w).value =
      (poolChoice ord w.db w.clock ifaceIps).map fun (ip, subnet) =>
        createOffer packet ip subnet config := by
  rw [discoverPool, run_read_calmly rfl]
  simp only [SqliteDb.exec]
  rw [run_read_calmly rfl]
  exact discoverSubnets_calmly _

private theorem discoverLease_calmly :
    ((discoverLease packet ifaceIps config).run (serve (SqliteDb.exec ord)) calmly w).value =
      (dynamicChoice ord w.db w.clock ifaceIps packet.chaddr.toString).map fun (ip, subnet) =>
        createOffer packet ip subnet config := by
  rw [discoverLease, run_read_calmly rfl, dynamicChoice]
  simp only [SqliteDb.exec]
  cases w.db.getActiveLease ord packet.chaddr.toString w.clock with
  | none => exact discoverPool_calmly
  | some lease =>
    simp only
    rw [run_read_calmly rfl]
    simp only [SqliteDb.exec]
    cases w.db.getSubnet lease.subnetId with
    | none => rfl
    | some subnet =>
      simp only
      split
      · rfl
      · exact discoverPool_calmly

/-- **What a DISCOVER is answered** in a calm run. -/
theorem handleDiscover_calmly :
    ((handleDiscover packet ifaceIps config).run (serve (SqliteDb.exec ord)) calmly w).value =
      (discoverChoice ord w.db w.clock ifaceIps packet.chaddr.toString).map fun (ip, subnet) =>
        createOffer packet ip subnet config := by
  rw [handleDiscover, run_read_calmly rfl, discoverChoice]
  simp only [SqliteDb.exec]
  cases w.db.getStaticIpByMac ord packet.chaddr.toString with
  | none => exact discoverLease_calmly
  | some staticIp =>
    simp only
    rw [run_read_calmly rfl]
    simp only [SqliteDb.exec]
    cases w.db.getSubnet staticIp.subnetId with
    | none => rfl
    | some subnet =>
      simp only
      split
      · rfl
      · exact discoverLease_calmly

end Discover

/-! ### What a REQUEST is answered -/

section Request

variable (ord : ScanOrder) (db : SqliteDb) (ifaceIps : List Ipv4Addr)

/-- The first enabled range that covers the address and is reachable via the interface. -/
def servingRange (ip : Ipv4Addr) : Option DynamicRange :=
  (db.listRanges ord none).find? fun r =>
    r.enabled && r.covers ip && reachable ifaceIps db r

variable {ord db ifaceIps} {w : World SqliteDb} {packet : DhcpPacket} {config : DhcpConfig}
  {ip : Ipv4Addr}

/-- In a calm run the range that is found is the serving range. -/
theorem matchFrom_calmly (n : ℕ) :
    (matchFrom w ifaceIps calmly n ip (w.db.listRanges ord none)).map Prod.fst =
      servingRange ord w.db ifaceIps ip := by
  have hcalm : (fun x : DynamicRange × ℕ => !(calmly x.2).fails && reachable ifaceIps w.db x.1) =
      (fun r => reachable ifaceIps w.db r) ∘ Prod.fst := by
    funext x
    simp [calmly, Fate.calm]
  have hfst : ∀ ranges : List DynamicRange, (ranges.zipIdx n).map Prod.fst = ranges :=
    fun ranges => List.zipIdx_map_fst n ranges
  show ((((w.db.listRanges ord none).filter fun r => r.enabled && r.covers ip).zipIdx n).find?
    fun x : DynamicRange × ℕ => !(calmly x.2).fails && reachable ifaceIps w.db x.1).map Prod.fst = _
  rw [hcalm, ← List.find?_map, hfst, List.find?_filter, servingRange]
  congr 1
  funext r
  rw [Bool.decide_and, Bool.decide_eq_true, Bool.decide_eq_true]

/-- The assigned address on a reachable subnet is acknowledged. -/
theorem handleRequest_calmly_static {staticIp : StaticIP} {subnet : Subnet}
    (hip : requestedIp packet = some staticIp.ipAddress)
    (hstatic : w.db.getStaticIpByMac ord (requestMac packet) = some staticIp)
    (hsubnet : w.db.getSubnet staticIp.subnetId = some subnet)
    (hiface : ifaceInSubnet ifaceIps subnet = true) :
    ((handleRequest packet ifaceIps config).run (serve (SqliteDb.exec ord)) calmly w).value =
      some (createAck packet staticIp.ipAddress subnet config) := by
  simp only [handleRequest, hip]
  rw [run_read_calmly rfl]
  simp only [SqliteDb.exec, hstatic, requestStatic, if_true]
  rw [run_read_calmly rfl]
  simp [SqliteDb.exec, hsubnet, hiface]

/-- A serving range and nobody else on the address: the REQUEST is acknowledged. -/
theorem handleRequest_calmly {range : DynamicRange} {subnet : Subnet}
    (hip : requestedIp packet = some ip)
    (hstatic : w.db.getStaticIpByMac ord (requestMac packet) = none)
    (hrange : servingRange ord w.db ifaceIps ip = some range)
    (hsubnet : w.db.getSubnet range.subnetId = some subnet)
    (hheld : HeldBy w.db.leases w.clock ip (requestMac packet)) :
    ((handleRequest packet ifaceIps config).run (serve (SqliteDb.exec ord)) calmly w).value =
      some (createAck packet ip subnet config) := by
  have hmatch := @matchFrom_calmly ord ifaceIps w ip 2
  rw [hrange, Option.map_eq_some_iff] at hmatch
  obtain ⟨⟨range', i⟩, hmatched, rfl⟩ := hmatch
  have hreach : Reaches ord w packet ifaceIps calmly ip range' subnet i :=
    ⟨hip, .inr hstatic, rfl, hmatched, hsubnet, rfl⟩
  obtain ⟨-, hplan⟩ | ⟨r, hr, hact, rfl, hplan⟩ := @planLease_listActiveLeases ord w.db
    (requestMac packet) ip range' subnet (clockAfter calmly w.clock (i + 2))
  · rw [handleRequest_run hreach hplan, carryOut_grant hreach rfl]
  · rw [clockAfter_calmly] at hact
    rw [if_pos (hheld r hr rfl hact)] at hplan
    rw [handleRequest_run hreach hplan, carryOut_renewal hreach r.id rfl]

/-- An acknowledgement comes from a static assignment or from the serving range. -/
theorem of_handleRequest_calmly {ack : DhcpPacket}
    (h : ((handleRequest packet ifaceIps config).run (serve (SqliteDb.exec ord)) calmly w).value =
      some ack) :
    (∃ staticIp subnet, w.db.getStaticIpByMac ord (requestMac packet) = some staticIp ∧
      w.db.getSubnet staticIp.subnetId = some subnet ∧ ifaceInSubnet ifaceIps subnet = true) ∨
    (w.db.getStaticIpByMac ord (requestMac packet) = none ∧
      ∃ ip range subnet, requestedIp packet = some ip ∧
        servingRange ord w.db ifaceIps ip = some range ∧
        w.db.getSubnet range.subnetId = some subnet ∧ ack = createAck packet ip subnet config) := by
  have hdynamic : ∀ {ip range subnet i}, Reaches ord w packet ifaceIps calmly ip range subnet i →
      w.db.getStaticIpByMac ord (requestMac packet) = none ∧
        servingRange ord w.db ifaceIps ip = some range := by
    intro ip range subnet i hreach
    refine ⟨hreach.dynamic.resolve_left (by simp [calmly, Fate.calm]), ?_⟩
    rw [← matchFrom_calmly 2, hreach.matched, Option.map_some]
  have hout := @handleRequest_outcome ord config packet ifaceIps calmly w
  generalize ((handleRequest packet ifaceIps config).run (serve (SqliteDb.exec ord)) calmly w).state
    = w' at hout
  rw [h] at hout
  generalize hreply : some ack = reply at hout
  cases hout with
  | refused ht => cases hreply
  | lost ht id => cases hreply
  | confirmed ht hstatic hsubnet hiface => exact .inl ⟨_, _, hstatic, hsubnet, hiface⟩
  | granted hreach hplan =>
    obtain ⟨hstatic, hrange⟩ := hdynamic hreach
    exact .inr ⟨hstatic, _, _, _, hreach.requested, hrange, hreach.subnet, Option.some.inj hreply⟩
  | renewed hreach hplan =>
    obtain ⟨hstatic, hrange⟩ := hdynamic hreach
    exact .inr ⟨hstatic, _, _, _, hreach.requested, hrange, hreach.subnet, Option.some.inj hreply⟩

end Request

/-! ### Comparing the two -/

/-- The options that describe the network. -/
def isNetworkOption : DhcpOption → Bool
  | .subnetMask _ | .router _ | .dnsServer _ | .domainName _ | .serverIdentifier _ => true
  | _ => false

/-- The network parameters of a reply. -/
def networkOptions (packet : DhcpPacket) : List DhcpOption :=
  packet.options.filter isNetworkOption

/-- The subnets have the same mask, gateway, DNS servers and domain. -/
structure SameNetwork (s s' : Subnet) : Prop where
  netmask : netmaskFromPrefix s.netmask = netmaskFromPrefix s'.netmask
  gateway : s.gateway = s'.gateway
  dnsServers : s.dnsServers = s'.dnsServers
  domainName : s.domainName = s'.domainName

private theorem filter_domainOption (subnet : Subnet) :
    (domainOption subnet).filter isNetworkOption = domainOption subnet := by
  unfold domainOption
  cases subnet.domainName <;> rfl

private theorem domainOption_injective {s s' : Subnet} (h : domainOption s = domainOption s') :
    s.domainName = s'.domainName := by
  unfold domainOption at h
  cases hs : s.domainName <;> cases hs' : s'.domainName <;> simp_all

theorem networkOptions_createOffer {packet : DhcpPacket} {ip : Ipv4Addr} {subnet : Subnet}
    {config : DhcpConfig} :
    networkOptions (createOffer packet ip subnet config) =
      [.serverIdentifier subnet.gateway, .subnetMask (netmaskFromPrefix subnet.netmask),
        .router [subnet.gateway], .dnsServer subnet.dnsServers] ++ domainOption subnet := by
  simp only [networkOptions, createOffer, List.filter_append, filter_domainOption]
  rfl

theorem networkOptions_createAck {packet : DhcpPacket} {ip : Ipv4Addr} {subnet : Subnet}
    {config : DhcpConfig} :
    networkOptions (createAck packet ip subnet config) =
      [.serverIdentifier subnet.gateway, .subnetMask (netmaskFromPrefix subnet.netmask),
        .router [subnet.gateway], .dnsServer subnet.dnsServers] ++ domainOption subnet := by
  simp only [networkOptions, createAck, List.filter_append, filter_domainOption]
  rfl

/-- The ACK repeats the parameters of the OFFER exactly if the two subnets agree. -/
theorem networkOptions_eq_iff {req disc : DhcpPacket} {ip ip' : Ipv4Addr} {s s' : Subnet}
    {config : DhcpConfig} :
    networkOptions (createAck req ip s config) = networkOptions (createOffer disc ip' s' config) ↔
      SameNetwork s s' := by
  rw [networkOptions_createAck, networkOptions_createOffer]
  constructor
  · intro h
    simp only [List.cons_append, List.nil_append, List.cons.injEq, DhcpOption.serverIdentifier.injEq,
      DhcpOption.subnetMask.injEq, DhcpOption.dnsServer.injEq] at h
    obtain ⟨hgateway, hmask, -, hdns, hdomain⟩ := h
    exact ⟨hmask, hgateway, hdns, domainOption_injective hdomain⟩
  · rintro ⟨hmask, hgateway, hdns, hdomain⟩
    rw [hmask, hgateway, hdns, domainOption, domainOption, hdomain]

section Honoured

variable (ord : ScanOrder) (config : DhcpConfig) (w : World SqliteDb) (ifaceIps : List Ipv4Addr)

/-- A REQUEST of the client for the address is acknowledged, with the parameters of the
OFFER. -/
def Honours (offer req : DhcpPacket) : Prop :=
  ∃ ack, ((handleRequest req ifaceIps config).run (serve (SqliteDb.exec ord)) calmly w).value =
      some ack ∧
    ack.getMessageType = some .ack ∧ ack.yiaddr = offer.yiaddr ∧
    networkOptions ack = networkOptions offer

/-- What the database must look like for a client and an interface. A static assignment is on
a reachable subnet, unless the client has no lease and there is no free address anyway. For a
client without one, the address of its lease or of the pool is in a serving range, on a subnet
with the parameters of the one it is offered from. -/
def OffersBacked (mac : String) : Prop :=
  match w.db.getStaticIpByMac ord mac with
  | some staticIp => ∀ subnet, w.db.getSubnet staticIp.subnetId = some subnet →
      ifaceInSubnet ifaceIps subnet = true ∨ dynamicChoice ord w.db w.clock ifaceIps mac = none
  | none => ∀ ip subnet, dynamicChoice ord w.db w.clock ifaceIps mac = some (ip, subnet) →
      ∃ range subnet', servingRange ord w.db ifaceIps ip = some range ∧
        w.db.getSubnet range.subnetId = some subnet' ∧ SameNetwork subnet' subnet

variable {ord config w ifaceIps}

/-- The pool scan picks an address that nobody has on lease. -/
theorem vacant_of_poolChoice {db : SqliteDb} {now : ℤ} {ip : Ipv4Addr} {subnet : Subnet}
    (h : poolChoice ord db now ifaceIps = some (ip, subnet)) : Vacant db.leases now ip := by
  obtain ⟨s, -, hs⟩ := List.exists_of_findSome?_eq_some h
  obtain ⟨id, -, hid⟩ := Option.bind_eq_some_iff.mp hs
  obtain ⟨candidate, hfree, heq⟩ := Option.map_eq_some_iff.mp hid
  obtain ⟨rfl, rfl⟩ := Prod.mk.inj heq
  obtain ⟨range, -, hrange⟩ := List.exists_of_findSome?_eq_some hfree
  exact vacant_of_not_mem (of_firstFreeInRange hrange).1

/-- What a client is offered dynamically, nobody else has on lease. -/
theorem heldBy_of_dynamicChoice {mac : MacAddress} {ip : Ipv4Addr} {subnet : Subnet}
    (htidy : Tidy w.db.leases w.db.leaseSeq) (hexclusive : Exclusive w.db.leases w.clock)
    (h : dynamicChoice ord w.db w.clock ifaceIps mac.toString = some (ip, subnet)) :
    HeldBy w.db.leases w.clock ip mac.toString := by
  have hpool : poolChoice ord w.db w.clock ifaceIps = some (ip, subnet) →
      HeldBy w.db.leases w.clock ip mac.toString := fun hchoice =>
    (vacant_of_poolChoice hchoice).heldBy
  unfold dynamicChoice at h
  split at h
  · next lease hlease =>
    obtain ⟨r, hr, hact, hmac, rfl⟩ := SqliteDb.of_getActiveLease hlease
    split at h
    · split at h
      · obtain ⟨rfl, rfl⟩ := Prod.mk.inj (Option.some.inj h)
        rw [← htidy.eq_toString hr hmac]
        exact hexclusive.heldBy hr hact
      · exact hpool h
    · cases h
  · exact hpool h

/-- A REQUEST of the sender of a DISCOVER. -/
private def follow (disc : DhcpPacket) (ip : Ipv4Addr) : DhcpPacket :=
  { DhcpPacket.new with
    chaddr := disc.chaddr
    options := [.messageType .request, .requestedIpAddress ip] }

/-- If the offers are honoured, the database backs them. -/
private theorem offersBacked_of_honours {disc : DhcpPacket}
    (h : ∀ ip subnet, discoverChoice ord w.db w.clock ifaceIps disc.chaddr.toString =
      some (ip, subnet) → Honours ord config w ifaceIps (createOffer disc ip subnet config)
        (follow disc ip)) :
    OffersBacked ord w ifaceIps disc.chaddr.toString := by
  have hmac : requestMac (follow disc .unspecified) = disc.chaddr.toString := requestMac_eq _
  unfold OffersBacked
  cases hstatic : w.db.getStaticIpByMac ord disc.chaddr.toString with
  | some staticIp =>
    intro subnet hsubnet
    by_contra hnot
    obtain ⟨hiface, hchoice⟩ := not_or.mp hnot
    -- the DISCOVER falls through to the pool, where the REQUEST does not follow it
    obtain ⟨⟨ip, s⟩, hdynamic⟩ := Option.ne_none_iff_exists'.mp hchoice
    have hdiscover : discoverChoice ord w.db w.clock ifaceIps disc.chaddr.toString =
        some (ip, s) := by
      simp [discoverChoice, hstatic, hsubnet, hiface, hdynamic]
    obtain ⟨ack, hack, -⟩ := h ip s hdiscover
    obtain ⟨staticIp', subnet', hstatic', hsubnet', hiface'⟩ | ⟨hnone, -⟩ :=
      of_handleRequest_calmly hack
    · obtain rfl := Option.some.inj (hstatic.symm.trans (hmac ▸ hstatic'))
      obtain rfl := Option.some.inj (hsubnet.symm.trans hsubnet')
      exact hiface hiface'
    · cases hstatic.symm.trans (hmac ▸ hnone)
  | none =>
    intro ip subnet hdynamic
    have hdiscover : discoverChoice ord w.db w.clock ifaceIps disc.chaddr.toString =
        some (ip, subnet) := by
      simp [discoverChoice, hstatic, hdynamic]
    obtain ⟨ack, hack, -, -, hoptions⟩ := h ip subnet hdiscover
    obtain ⟨staticIp, -, hstatic', -⟩ | ⟨-, ip', range, subnet', hip, hrange, hsubnet, rfl⟩ :=
      of_handleRequest_calmly hack
    · cases hstatic.symm.trans (hmac ▸ hstatic')
    · obtain rfl : ip = ip' := by simpa [requestedIp, follow] using hip
      exact ⟨range, subnet', hrange, hsubnet, networkOptions_eq_iff.mp hoptions⟩

/-- If the database backs the offers, they are honoured. -/
private theorem honours_of_offersBacked {disc req : DhcpPacket}
    (htidy : Tidy w.db.leases w.db.leaseSeq) (hexclusive : Exclusive w.db.leases w.clock)
    (h : OffersBacked ord w ifaceIps disc.chaddr.toString) (hreq : req.chaddr = disc.chaddr)
    {ip : Ipv4Addr} {subnet : Subnet}
    (hchoice : discoverChoice ord w.db w.clock ifaceIps disc.chaddr.toString = some (ip, subnet))
    (hip : requestedIp req = some ip) :
    Honours ord config w ifaceIps (createOffer disc ip subnet config) req := by
  have hmac : requestMac req = disc.chaddr.toString := by rw [requestMac_eq, hreq]
  unfold OffersBacked at h
  unfold discoverChoice at hchoice
  cases hstatic : w.db.getStaticIpByMac ord disc.chaddr.toString with
  | some staticIp =>
    rw [hstatic] at h hchoice
    cases hsubnet : w.db.getSubnet staticIp.subnetId with
    | none => simp [hsubnet] at hchoice
    | some s =>
      cases hiface : ifaceInSubnet ifaceIps s with
      | true =>
        obtain ⟨rfl, rfl⟩ : staticIp.ipAddress = ip ∧ s = subnet := by
          simpa [hsubnet, hiface] using hchoice
        rw [← hmac] at hstatic
        exact ⟨_, handleRequest_calmly_static hip hstatic hsubnet hiface, rfl, rfl,
          networkOptions_eq_iff.mpr ⟨rfl, rfl, rfl, rfl⟩⟩
      | false =>
        -- there is nothing else to offer
        have hnone := (h s hsubnet).resolve_left (by simp [hiface])
        simp [hsubnet, hiface, hnone] at hchoice
  | none =>
    rw [hstatic] at h hchoice
    have hheld := heldBy_of_dynamicChoice htidy hexclusive hchoice
    obtain ⟨range, subnet', hrange, hsubnet, hsame⟩ := h ip subnet hchoice
    rw [← hmac] at hstatic hheld
    exact ⟨_, handleRequest_calmly hip hstatic hrange hsubnet hheld, rfl, rfl,
      networkOptions_eq_iff.mpr hsame⟩

end Honoured

/-- **When offers are honoured.** In every state that the daemon reaches from a database
without leases, for every client and every interface: each OFFER that a DISCOVER of the client
is answered with is honoured, by an ACK for the same address with the same network parameters,
if and only if the database backs the offers to this client. -/
theorem offers_honoured_iff (ord : ScanOrder) (config : DhcpConfig) (w₀ : World SqliteDb)
    (hempty : w₀.db.leases = []) (acts : List DaemonAction)
    (hacts : ∀ a ∈ acts, a.movesWithin Move.fromApi = true) (disc : DhcpPacket)
    (ifaceIps : List Ipv4Addr) :
    let w := ((daemon (SqliteDb.exec ord) config).after (idle w₀) acts).world.toWorld
    (∀ offer, ((handleDiscover disc ifaceIps config).run (serve (SqliteDb.exec ord)) calmly
        w).value = some offer →
      ∀ req : DhcpPacket, req.chaddr = disc.chaddr → requestedIp req = some offer.yiaddr →
        Honours ord config w ifaceIps offer req) ↔
    OffersBacked ord w ifaceIps disc.chaddr.toString := by
  intro w
  have horderly := @orderly_of_fromApi ord config w₀ hempty acts hacts
  rw [handleDiscover_calmly]
  constructor
  · intro h
    refine @offersBacked_of_honours ord config w ifaceIps disc fun ip subnet hchoice => ?_
    refine h (createOffer disc ip subnet config) ?_ (follow disc ip) rfl rfl
    rw [hchoice]
    rfl
  · intro h offer hoffer req hreq hip
    obtain ⟨⟨ip, subnet⟩, hchoice, rfl⟩ := Option.map_eq_some_iff.mp hoffer
    exact honours_of_offersBacked horderly.tidy horderly.exclusive h hreq hchoice hip

/-- A new client on the sample network is offered the first address of the range, and gets
it. -/
theorem offers_honoured_iff_fresh :
    dynamicChoice .rowid Sample.db 0 Sample.iface Sample.alice.toString =
      some (.new 10 0 0 10, Sample.subnet.toSubnet) ∧
    ∀ offer, ((handleDiscover (Sample.discover Sample.alice) Sample.iface Sample.config).run
        (serve (SqliteDb.exec .rowid)) calmly Sample.world).value = some offer →
      ∀ req : DhcpPacket, req.chaddr = Sample.alice → requestedIp req = some offer.yiaddr →
        Honours .rowid Sample.config Sample.world Sample.iface offer req := by
  have hchoice : dynamicChoice .rowid Sample.db 0 Sample.iface Sample.alice.toString =
      some (.new 10 0 0 10, Sample.subnet.toSubnet) := by decide +kernel
  refine ⟨hchoice, (offers_honoured_iff .rowid Sample.config Sample.world rfl [] (by simp)
    (Sample.discover Sample.alice) Sample.iface).mpr ?_⟩
  intro ip subnet h
  obtain ⟨rfl, rfl⟩ := Prod.mk.inj (Option.some.inj (hchoice.symm.trans h))
  exact ⟨Sample.range.toRange, Sample.subnet.toSubnet, by decide +kernel, by decide +kernel,
    rfl, rfl, rfl, rfl⟩

/-- Alice gets a lease, and the administrator deletes the range it came from. -/
def Sample.rangeDeleted : World SqliteDb :=
  ((daemon (SqliteDb.exec .rowid) config).after (idle world)
    (.receive ⟨request alice (.new 10 0 0 10), iface⟩ :: List.replicate 7 (.call false) ++
      [.move (.request (.deleteRange 1) false)])).world.toWorld

/-- Alice is then offered the address of her lease again, but her REQUEST is not answered. -/
theorem offer_not_honoured :
    ¬ ∀ offer, ((handleDiscover (Sample.discover Sample.alice) Sample.iface Sample.config).run
        (serve (SqliteDb.exec .rowid)) calmly Sample.rangeDeleted).value = some offer →
      ∀ req : DhcpPacket, req.chaddr = Sample.alice → requestedIp req = some offer.yiaddr →
        Honours .rowid Sample.config Sample.rangeDeleted Sample.iface offer req := by
  -- the lease is all that is left of the range
  let lapsed : World SqliteDb := ⟨{ Sample.leased with dynamicRanges := [] }, 0⟩
  have hworld : Sample.rangeDeleted = lapsed :=
    congrArg₂ World.mk (by decide +kernel) (by decide +kernel)
  rw [hworld]
  intro h
  have hoffer : ((handleDiscover (Sample.discover Sample.alice) Sample.iface Sample.config).run
      (serve (SqliteDb.exec .rowid)) calmly lapsed).value =
      some (createOffer (Sample.discover Sample.alice) (.new 10 0 0 10) Sample.subnet.toSubnet
        Sample.config) := by decide +kernel
  have hsilent : ((handleRequest (Sample.request Sample.alice (.new 10 0 0 10)) Sample.iface
      Sample.config).run (serve (SqliteDb.exec .rowid)) calmly lapsed).value =
      none := by decide +kernel
  obtain ⟨ack, hack, -⟩ := h _ hoffer (Sample.request Sample.alice (.new 10 0 0 10)) rfl rfl
  rw [hsilent] at hack
  cases hack

end Ndhcpd
