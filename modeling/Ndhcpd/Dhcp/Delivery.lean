import Ndhcpd.Dhcp.Listener
import Ndhcpd.Dhcp.Replies

/-!
# Responses at the other end

What a client makes of the transmissions of the listener. A raw frame is decoded layer by layer,
and what a UDP socket sends arrives as it is; `Transmission.received` is the UDP datagram that
comes out at the other end, with the address and the port it is for.

The responses are made from subnets of the database (`within_handlePacket`), whatever the other
tasks do to it meanwhile. As long as all subnets that are ever stored fit the options of a packet,
every response arrives at the destination of RFC 2131, on whichever path it is sent, and its bytes
are decoded into the packet that the handlers made. `responses_delivered` says so for whole runs.
-/

namespace Ndhcpd

/-! ### What is received -/

/-- The datagram that arrives, with its destination. -/
def Transmission.received : Transmission → Option (SocketAddr × List UInt8)
  | .rawFrame _ frame => do
    let eth ← decodeEthernet frame
    guard (eth.etherType = 0x0800)
    let ip ← decodeIpv4 eth.payload
    guard (ip.protocol = 17)
    let udp ← decodeUdp ip.payload
    return (⟨ip.dst, udp.dstPort⟩, udp.payload)
  | .listenSocket dest payload => some (dest, payload)
  | .broadcastSocket _ dest payload => some (dest, payload)

/-- A raw frame arrives as the datagram it was made from. -/
theorem received_rawFrame (iface : String) (ifaceMac : Option MacAddress) (srcIp dstIp : Ipv4Addr)
    {payload : List UInt8} (h : payload.length ≤ 65507) :
    (Transmission.rawFrame iface (dhcpRawL2Broadcast ifaceMac srcIp dstIp payload)).received =
      some (⟨dstIp, dhcpClientPort⟩, payload) := by
  obtain ⟨hudpLen, htotal⟩ := toNat_lengths h
  let udp := beBytes 2 dhcpServerPort.toNat ++ beBytes 2 dhcpClientPort.toNat ++
    beBytes 2 (8 + UInt16.ofNat payload.length).toNat ++ beBytes 2 0 ++ payload
  have hudp : udp.length = 8 + payload.length := by
    simp only [udp, List.length_append, length_beBytes]
  have hip := @decodeIpv4_append udp (20 + (8 + UInt16.ofNat payload.length)) srcIp dstIp
    (ipHeaderStart payload) rfl (by omega)
  have heth := decodeEthernet_append ⟨0xff, 0xff, 0xff, 0xff, 0xff, 0xff⟩
    (ifaceMac.getD ⟨0, 0, 0, 0, 0, 0⟩) 0x0800 (ipHeaderStart payload ++ beBytes 2 (ipChecksum
      (ipHeaderStart payload ++ [0, 0] ++ (srcIp.octets ++ dstIp.octets))).toNat ++
        (srcIp.octets ++ dstIp.octets) ++ udp)
  rw [← List.append_assoc] at heth
  rw [Transmission.received, dhcpRawL2Broadcast, buildL2UdpFrame_eq]
  simp only [Option.bind_eq_bind, Option.pure_def]
  rw [show beBytes 2 0x0800 = beBytes 2 (0x0800 : UInt16).toNat from rfl, heth]
  simp only [Option.bind_some, hip, decodeUdp_append hudpLen, udp, guard_true]
  rfl

/-! ### Responses are made from stored subnets -/

section Provenance

/-- The subnets in an answer of the database satisfy `P`. -/
def SubnetReply (P : Subnet → Prop) : (c : ServerCall) → c.Reply → Prop
  | .db (.getSubnet _), .ok (some subnet) => P subnet
  | .db .listSubnets, .ok subnets => ∀ s ∈ subnets, P s
  | _, _ => True

/-- A subnet that the call stores satisfies `P`. -/
def StoresSubnet (P : Subnet → Prop) : ServerCall → Prop
  | .db (.createSubnet subnet) => P subnet
  | .db (.updateSubnet _ subnet) => P subnet
  | _ => True

/-- A response is an OFFER or an ACK made from a subnet that satisfies `P`. -/
def MadeFrom (P : Subnet → Prop) (packet : DhcpPacket) (config : DhcpConfig)
    (reply : Option DhcpPacket) : Prop :=
  ∀ r ∈ reply, ∃ ip subnet, P subnet ∧
    (r = createOffer packet ip subnet config ∨ r = createAck packet ip subnet config)

variable {P : Subnet → Prop} {packet : DhcpPacket} {ifaceIps : List Ipv4Addr} {config : DhcpConfig}
  {subnet : Subnet}

/-- As long as the subnets that are read satisfy `P`, the response is made from one of them. -/
abbrev Responds (P : Subnet → Prop) (packet : DhcpPacket) (config : DhcpConfig)
    (p : ServerProgram (Option DhcpPacket)) : Prop :=
  p.Within (StoresSubnet P) (SubnetReply P) (MadeFrom P packet config)

theorem within_dbCall {α : Type} {post : α → Prop} {c : DbCall} (hc : StoresSubnet P (.db c))
    {k : c.Result → ServerProgram α}
    (hk : ∀ r, SubnetReply P (.db c) r → (k r).Within (StoresSubnet P) (SubnetReply P) post) :
    (dbCall c >>= k).Within (StoresSubnet P) (SubnetReply P) post :=
  ⟨hc, hk⟩

theorem madeFrom_none : MadeFrom P packet config none := by simp [MadeFrom]

theorem madeFrom_offer (h : P subnet) (ip : Ipv4Addr) :
    MadeFrom P packet config (some (createOffer packet ip subnet config)) := by
  intro r hr
  obtain rfl := Option.mem_some_iff.mp hr
  exact ⟨ip, subnet, h, .inl rfl⟩

theorem madeFrom_ack (h : P subnet) (ip : Ipv4Addr) :
    MadeFrom P packet config (some (createAck packet ip subnet config)) := by
  intro r hr
  obtain rfl := Option.mem_some_iff.mp hr
  exact ⟨ip, subnet, h, .inr rfl⟩

theorem within_discoverSubnets {leasedIps : List Ipv4Addr} {subnets : List Subnet}
    (h : ∀ s ∈ subnets, P s) :
    Responds P packet config (discoverSubnets packet config leasedIps subnets) := by
  induction subnets with
  | nil => exact madeFrom_none
  | cons subnet rest ih =>
    obtain ⟨hsubnet, hrest⟩ := List.forall_mem_cons.mp h
    rw [discoverSubnets]
    cases subnet.id with
    | none => exact ih hrest
    | some subnetId =>
      refine within_dbCall (by trivial) fun r _ => ?_
      rcases r with e | ranges
      · exact ih hrest
      · simp only
        cases (ranges.filter (·.enabled)).findSome? (firstFreeInRange leasedIps) with
        | none => exact ih hrest
        | some candidate => exact madeFrom_offer hsubnet candidate

theorem within_discoverPool : Responds P packet config (discoverPool packet ifaceIps config) := by
  rw [discoverPool]
  refine within_dbCall (by trivial) fun r hr => ?_
  rcases r with e | subnets
  · exact madeFrom_none
  · refine within_dbCall (by trivial) fun r _ => ?_
    rcases r with e | leases
    · exact madeFrom_none
    · exact within_discoverSubnets fun s hs => hr s (List.mem_filter.mp hs).1

theorem within_discoverLease :
    Responds P packet config (discoverLease packet ifaceIps config) := by
  rw [discoverLease]
  refine within_dbCall (by trivial) fun r _ => ?_
  rcases r with e | _ | lease
  · exact within_discoverPool
  · exact within_discoverPool
  · refine within_dbCall (by trivial) fun r hr => ?_
    rcases r with e | _ | subnet
    · exact madeFrom_none
    · exact madeFrom_none
    · simp only
      split
      · exact madeFrom_offer hr lease.ipAddress
      · exact within_discoverPool

theorem within_handleDiscover :
    Responds P packet config (handleDiscover packet ifaceIps config) := by
  rw [handleDiscover]
  refine within_dbCall (by trivial) fun r _ => ?_
  rcases r with e | _ | staticIp
  · exact within_discoverLease
  · exact within_discoverLease
  · refine within_dbCall (by trivial) fun r hr => ?_
    rcases r with e | _ | subnet
    · exact madeFrom_none
    · exact madeFrom_none
    · simp only
      split
      · exact madeFrom_offer hr staticIp.ipAddress
      · exact within_discoverLease

theorem within_findMatchingRange (ip : Ipv4Addr) (ranges : List DynamicRange) :
    (findMatchingRange ifaceIps ip ranges).Within (StoresSubnet P) (SubnetReply P) fun found =>
      ∀ m ∈ found, P m.2 := by
  have hnone : ∀ m ∈ (none : Option (DynamicRange × Subnet)), P m.2 := by simp
  induction ranges with
  | nil => exact hnone
  | cons r rest ih =>
    rw [findMatchingRange]
    split
    · refine within_dbCall (by trivial) fun reply hr => ?_
      rcases reply with e | _ | subnet
      · exact ih
      · exact ih
      · simp only
        split
        · intro m hm
          obtain rfl := Option.mem_some_iff.mp hm
          exact hr
        · exact ih
    · exact ih

theorem within_grantLease (h : P subnet) (ip : Ipv4Addr) (range : DynamicRange) :
    Responds P packet config (grantLease packet config ip range subnet) := by
  refine ⟨trivial, fun now _ => within_dbCall (by trivial) fun r _ => ?_⟩
  rcases r with e | id
  · exact madeFrom_none
  · exact madeFrom_ack h ip

theorem within_settleRequest (h : P subnet) (ip : Ipv4Addr) (range : DynamicRange)
    (activeLeases : List Lease) :
    Responds P packet config (settleRequest packet config ip range subnet activeLeases) := by
  rw [settleRequest]
  cases activeLeases.find? (·.ipAddress == ip) with
  | none => exact within_grantLease h ip range
  | some existing =>
    simp only
    split
    · exact madeFrom_none
    · cases existing.id with
      | none => exact within_grantLease h ip range
      | some id => exact within_dbCall (by trivial) fun _ _ => within_grantLease h ip range

theorem within_requestDynamic (ip : Ipv4Addr) :
    Responds P packet config (requestDynamic packet ifaceIps config ip) := by
  rw [requestDynamic]
  refine within_dbCall (by trivial) fun r _ => ?_
  rcases r with e | ranges
  · exact madeFrom_none
  · refine (within_findMatchingRange ip ranges).bind fun found hfound => ?_
    rcases found with _ | ⟨range, subnet⟩
    · exact madeFrom_none
    · refine within_dbCall (by trivial) fun r _ => ?_
      rcases r with e | activeLeases
      · exact madeFrom_none
      · exact within_settleRequest (hfound _ rfl) ip range activeLeases

theorem within_requestStatic (ip : Ipv4Addr) (staticIp : StaticIP) :
    Responds P packet config (requestStatic packet ifaceIps config ip staticIp) := by
  rw [requestStatic]
  split
  · refine within_dbCall (by trivial) fun r hr => ?_
    rcases r with e | _ | subnet
    · exact madeFrom_none
    · exact madeFrom_none
    · simp only
      split
      · exact madeFrom_ack hr ip
      · exact madeFrom_none
  · exact madeFrom_none

theorem within_handleRequest :
    Responds P packet config (handleRequest packet ifaceIps config) := by
  rw [handleRequest]
  cases requestedIp packet with
  | none => exact madeFrom_none
  | some ip =>
    refine within_dbCall (by trivial) fun r _ => ?_
    rcases r with e | _ | staticIp
    · exact within_requestDynamic ip
    · exact within_requestDynamic ip
    · exact within_requestStatic ip staticIp

theorem only_handleRelease_storesSubnet : (handleRelease packet).Only (StoresSubnet P) := by
  rw [handleRelease, dbCall_bind, Program.only_request]
  refine ⟨trivial, fun r => ?_⟩
  rcases r with e | _ | lease
  · trivial
  · trivial
  · simp only
    cases lease.id with
    | none => trivial
    | some id => exact ⟨trivial, fun _ => trivial⟩

/-- **Every response** is made from a subnet that the database returned while the packet was
handled. -/
theorem within_handlePacket :
    Responds P packet config (handlePacket packet ifaceIps config) := by
  unfold handlePacket
  split
  · exact within_handleDiscover
  · exact within_handleRequest
  · exact only_handleRelease_storesSubnet.within.bind fun _ _ => madeFrom_none
  · exact madeFrom_none

/-! ### The subnets of a run -/

/-- All stored subnets satisfy `P`. -/
def SqliteDb.SubnetsIn (P : Subnet → Prop) (db : SqliteDb) : Prop :=
  ∀ r ∈ db.subnets, P r.toSubnet

/-- A subnet that the move stores satisfies `P`. -/
def Move.StoresSubnet (P : Subnet → Prop) : Move → Prop
  | .tick _ => True
  | .request c _ => Ndhcpd.StoresSubnet P (.db c)

variable {ord : ScanOrder} {now : ℤ} {db : SqliteDb}

/-- **Inversion for the subnets.** A row after a call is a row before it, or the subnet that the
call creates or updates, under some id. -/
theorem exec_subnetsIn (hP : ∀ subnet id, P subnet → P (subnet.toRow id).toSubnet)
    (h : db.SubnetsIn P) {c : DbCall} (hc : StoresSubnet P (.db c)) :
    (SqliteDb.exec ord now db c).2.SubnetsIn P := by
  cases hwrite : SqliteDb.mayWrite c .subnets with
  | false =>
    have hsame := (@SqliteDb.exec_sameTable ord now db c .subnets hwrite).1
    rw [SqliteDb.SubnetsIn, hsame]
    exact h
  | true =>
    cases c with
    | createSubnet subnet =>
      simp only [SqliteDb.exec, SqliteDb.createSubnet]
      split
      · exact h
      · intro r hr
        rcases List.mem_append.mp hr with hr | hr
        · exact h r hr
        · obtain rfl := List.mem_singleton.mp hr
          exact hP subnet _ hc
    | updateSubnet id subnet =>
      simp only [SqliteDb.exec, SqliteDb.updateSubnet]
      split
      · exact h
      · intro r hr
        obtain ⟨old, hold, rfl⟩ := List.mem_map.mp hr
        split
        · exact hP subnet _ hc
        · exact h old hold
    | deleteSubnet id => exact fun r hr => h r (List.mem_filter.mp hr).1
    | _ => cases hwrite

theorem exec_subnetReply (h : db.SubnetsIn P) (c : DbCall) :
    SubnetReply P (.db c) (SqliteDb.exec ord now db c).1 := by
  cases c with
  | getSubnet id =>
    change SubnetReply P (.db (.getSubnet id)) (.ok (db.getSubnet id))
    cases hget : db.getSubnet id with
    | none => trivial
    | some subnet =>
      obtain ⟨r, hr, rfl⟩ := Option.map_eq_some_iff.mp hget
      exact h r (List.mem_of_find?_eq_some hr)
  | listSubnets =>
    intro subnet hmem
    obtain ⟨r, hr, rfl⟩ := List.mem_map.mp hmem
    exact h r ((ord.subnets.mem_arrange).mp hr)
  | _ => trivial

/-- One call of the listener. -/
theorem Scene.serve_subnetsIn (hP : ∀ subnet id, P subnet → P (subnet.toRow id).toSubnet)
    {s : Scene SqliteDb} (h : s.db.SubnetsIn P) {c : ServerCall} (hc : StoresSubnet P c)
    (fails : Bool) :
    SubnetReply P c (s.serve (SqliteDb.exec ord) fails c).1 ∧
      (s.serve (SqliteDb.exec ord) fails c).2.db.SubnetsIn P := by
  cases c with
  | utcNow => exact ⟨trivial, h⟩
  | db c =>
    cases fails with
    | true =>
      rw [Scene.serve_fails]
      refine ⟨?_, h⟩
      cases c <;> trivial
    | false =>
      rw [Scene.serve_succeeds]
      exact ⟨exec_subnetReply h c, exec_subnetsIn hP h hc⟩

/-- One move of another task. -/
theorem Scene.move_subnetsIn (hP : ∀ subnet id, P subnet → P (subnet.toRow id).toSubnet)
    {s : Scene SqliteDb} (h : s.db.SubnetsIn P) {m : Move} (hm : m.StoresSubnet P) :
    (s.move (SqliteDb.exec ord) m).2.db.SubnetsIn P := by
  cases m with
  | tick seconds => exact h
  | request c fails =>
    cases fails with
    | true =>
      rw [Scene.move_fails]
      exact h
    | false =>
      rw [Scene.move_succeeds]
      exact exec_subnetsIn hP h hm

/-- **Runs of the daemon.** If all subnets that are ever stored satisfy `P`, every response is made
from such a subnet. -/
theorem answers_madeFrom (hP : ∀ subnet id, P subnet → P (subnet.toRow id).toSubnet)
    {w : World SqliteDb} (h : w.db.SubnetsIn P) {acts : List DaemonAction}
    (hacts : ∀ m, .move m ∈ acts → m.StoresSubnet P) :
    ∀ x ∈ (daemon (SqliteDb.exec ord) config).answers (idle w) acts,
      MadeFrom P x.1.packet config x.2 := by
  let post : Datagram → Option DhcpPacket → Prop := fun d reply => MadeFrom P d.packet config reply
  have hidle : Loop.Working (StoresSubnet P) (SubnetReply P) post
      (fun s : Scene SqliteDb => s.db.SubnetsIn P) (idle w) := h
  refine Loop.answers_within (fun _ _ hs => hs)
    (fun fails c s hs hc => s.serve_subnetsIn hP hs hc fails) (fun d => within_handlePacket) hidle ?_
  exact fun m hm s hs => Scene.move_subnetsIn hP hs (hacts m hm)

end Provenance

/-! ### Delivery -/

section Delivery

variable {packet : DhcpPacket} {ip : Ipv4Addr} {subnet : Subnet} {config : DhcpConfig}

/-- The bytes of a response whose options are of fixed size but for the DNS servers and the domain
name. -/
theorem length_toBytes_le {p : DhcpPacket} {fixed : List DhcpOption}
    (hp : p.options = fixed ++ .dnsServer subnet.dnsServers :: domainOption subnet)
    (hfixed : (fixed.flatMap DhcpOption.toBytes).length ≤ 39) (h : subnet.FitsOptions) :
    p.toBytes.length ≤ 791 := by
  have hdns : (DhcpOption.dnsServer subnet.dnsServers).toBytes.length ≤ 254 := by
    have hle := h.1
    simp only [DhcpOption.toBytes, List.length_append, DhcpOption.length_flatMap_octets,
      List.length_cons, List.length_nil]
    omega
  have hdomain : ((domainOption subnet).flatMap DhcpOption.toBytes).length ≤ 257 := by
    unfold domainOption
    split
    · next name hname =>
      have hle := h.2 name hname
      simp only [List.flatMap_singleton, DhcpOption.toBytes, List.length_append, List.length_cons,
        List.length_nil]
      omega
    · simp
  rw [DhcpPacket.length_toBytes, hp, List.flatMap_append, List.length_append, List.flatMap_cons,
    List.length_append]
  omega

/-- What the handlers make from a subnet that fits answers the packet, and makes the round
trip. -/
theorem MadeFrom.spec {response : DhcpPacket}
    (h : MadeFrom Subnet.FitsOptions packet config (some response)) :
    response.op = 2 ∧ response.xid = packet.xid ∧ response.chaddr = packet.chaddr ∧
      response.RoundTrips ∧ response.toBytes.length ≤ 791 := by
  obtain ⟨ip, subnet, hfits, rfl | rfl⟩ := h response rfl
  · refine ⟨rfl, rfl, rfl, createOffer_roundTrips_iff.mpr hfits, ?_⟩
    refine @length_toBytes_le subnet _ [.messageType .offer, .serverIdentifier subnet.gateway,
      .leaseTime config.defaultLeaseTime, .subnetMask (netmaskFromPrefix subnet.netmask),
      .router [subnet.gateway]] rfl ?_ hfits
    simp [DhcpOption.toBytes]
  · refine ⟨rfl, rfl, rfl, createAck_roundTrips_iff.mpr hfits, ?_⟩
    refine @length_toBytes_le subnet _ [.messageType .ack, .serverIdentifier subnet.gateway,
      .leaseTime config.defaultLeaseTime, .renewalTime (config.defaultLeaseTime / 2),
      .rebindingTime (config.defaultLeaseTime * 7 / 8),
      .subnetMask (netmaskFromPrefix subnet.netmask), .router [subnet.gateway]] rfl ?_ hfits
    simp [DhcpOption.toBytes]

/-- **Both paths lead to the same place.** Whether a response is sent as a raw frame or through a
socket, it arrives at the destination of RFC 2131. -/
theorem received_sendResponse (a : Received) (packet response : DhcpPacket) (created : Bool)
    (sockets : BcastSockets) (h : response.toBytes.length ≤ 65507) :
    (sendResponse a packet response created sockets).1.received =
      some (responseDest packet response, response.toBytes) := by
  simp only [sendResponse]
  split
  · next hraw =>
    rw [received_rawFrame _ _ _ _ h]
    -- without a relay agent and an address of the client, two cases of the destination are left
    simp only [responseDest, hraw.1, hraw.2, ne_eq, not_true_eq_false, if_false]
    split
    · simp
    · simpa using Eq.symm
  · split
    · rcases sockets.entryOrInsert a.ifaceName created with ⟨_ | _, sockets'⟩ <;> rfl
    · rfl

end Delivery

/-- **Responses are delivered.** Let all subnets that are stored at the start or by the other tasks
have at most 63 DNS servers and a domain name of at most 255 bytes. In every run of the listener, on
any datagrams and with any calls failing, what is sent for a packet arrives at the relay agent on
port 67 if there is one, else at the address of the client on port 68 if it has one, else at
255.255.255.255 or at the new address on port 68, depending on the broadcast flag; it is decoded
into the response of the handlers, followed by the end mark; it carries the transaction id and the
hardware address of the packet; and it fits a single Ethernet frame. -/
theorem responses_delivered (ord : ScanOrder) (config : Config) (w : World SqliteDb)
    (acts : List ListenAction) (hstored : ∀ r ∈ w.db.subnets, r.toSubnet.FitsOptions)
    (hmoves : ∀ m, .move m ∈ acts → m.StoresSubnet Subnet.FitsOptions) :
    ∀ x ∈ Listener.handled (SqliteDb.exec ord) config (.start w) acts, ∀ sent, x.sent = some sent →
      ∃ response bytes, x.response = some response ∧
        sent.received = some (
          (if x.packet.giaddr ≠ .unspecified then ⟨x.packet.giaddr, 67⟩
          else if x.packet.ciaddr ≠ .unspecified then ⟨x.packet.ciaddr, 68⟩
          else if x.packet.flags &&& 0x8000 ≠ 0 then ⟨.new 255 255 255 255, 68⟩
          else ⟨response.yiaddr, 68⟩), bytes) ∧
        DhcpPacket.parse bytes = .ok { response with options := response.options ++ [.endMark] } ∧
        response.op = 2 ∧ response.xid = x.packet.xid ∧ response.chaddr = x.packet.chaddr ∧
        28 + bytes.length ≤ 1500 := by
  intro x hx sent hsent
  -- the response is one of the daemon inside
  have hmade : MadeFrom Subnet.FitsOptions x.packet config.dhcp x.response := by
    have hshown : x.shown ∈ (daemon (SqliteDb.exec ord) config.dhcp).answers (idle w)
        (acts.filterMap (ListenAction.view config)) := by
      rw [← Listener.map_shown_handled]
      exact List.mem_map_of_mem hx
    refine answers_madeFrom (fun _ _ h => h) hstored (fun m hm => ?_) x.shown hshown
    obtain ⟨a, ha, hview⟩ := List.mem_filterMap.mp hm
    cases a with
    | move m' =>
      obtain rfl := Loop.Action.move.inj (Option.some.inj hview)
      exact hmoves m' ha
    | call fails created => cases Option.some.inj hview
    | recv a =>
      rcases a with _ | a
      · cases hview
      · obtain ⟨packet, -, heq⟩ := Option.map_eq_some_iff.mp hview
        cases heq
  obtain ⟨-, sockets, created, heq⟩ := Listener.of_mem_handled hx
  cases hresponse : x.response with
  | none =>
    rw [heq, hresponse] at hsent
    cases hsent
  | some response =>
    rw [hresponse] at hmade
    obtain ⟨hop, hxid, hchaddr, hround, hlen⟩ := hmade.spec
    rw [heq, hresponse] at hsent
    obtain rfl := Option.some.inj hsent
    refine ⟨response, response.toBytes, rfl, ?_, hround, hop, hxid, hchaddr, by omega⟩
    exact received_sendResponse _ _ _ _ _ (by omega)

/-- A DISCOVER of Alice on the wire, and the run that answers it. -/
def Sample.discovery : List ListenAction :=
  .recv (some ⟨(discover alice).toBytes, some "eth0", iface, none⟩) ::
    List.replicate 6 (.call false true)

/-- Alice reads the OFFER off a frame to the address she is offered. -/
theorem responses_delivered_offer :
    (∀ r ∈ Sample.world.db.subnets, r.toSubnet.FitsOptions) ∧
    ∃ x ∈ Listener.handled (SqliteDb.exec .rowid) ⟨["eth0"], Sample.config⟩ (.start Sample.world)
        Sample.discovery, ∃ sent bytes, x.sent = some sent ∧
      sent.received = some (⟨.new 10 0 0 10, 68⟩, bytes) := by
  let config : Config := ⟨["eth0"], Sample.config⟩
  let arrival : Received := ⟨(Sample.discover Sample.alice).toBytes, some "eth0", Sample.iface, none⟩
  let packet : DhcpPacket := { Sample.discover Sample.alice with
    options := [.messageType .discover, .endMark] }
  have hfits : ∀ r ∈ Sample.world.db.subnets, r.toSubnet.FitsOptions := by
    intro r hr
    obtain rfl := List.mem_singleton.mp hr
    exact ⟨by decide, by decide⟩
  -- the datagram is decoded by the round trip of the codec
  have hdecode : arrival.decode config = some packet := by
    have hlen : (Sample.discover Sample.alice).toBytes.length ≤ 1500 := by
      rw [DhcpPacket.length_toBytes]
      decide
    have hparse : DhcpPacket.parse (Sample.discover Sample.alice).toBytes = .ok packet :=
      DhcpPacket.parse_toBytes_of_sendable fun o ho => by
        obtain rfl := List.mem_singleton.mp ho
        exact ⟨by decide, by decide, by simp⟩
    change (if _ then (DhcpPacket.parse (List.take 1500 (Sample.discover Sample.alice).toBytes)).toOption
      else none) = _
    rw [List.take_of_length_le hlen, hparse]
    rfl
  -- from then on the run can be evaluated
  have hrun : (Listener.handled (SqliteDb.exec .rowid) config (.start Sample.world)
      Sample.discovery).map (fun x => (x.packet, x.response)) = [(packet,
        some (createOffer packet (.new 10 0 0 10) Sample.subnet.toSubnet Sample.config))] := by
    have hreceive := @Listener.receive_eq _ config (.start Sample.world) List.length_replicate arrival
    rw [hdecode] at hreceive
    have hstep : (Listener.step (SqliteDb.exec .rowid) config (.start Sample.world)
        (.recv (some arrival))) = (none, (Listener.start Sample.world).receive config arrival) := rfl
    rw [Listener.handled, Sample.discovery, Run.outputs]
    change (Option.toList (Listener.step _ config _ (.recv (some arrival))).1 ++ _).map _ = _
    rw [hstep, hreceive]
    decide +kernel
  obtain ⟨x, hx, hxeq⟩ := List.mem_map.mp (hrun ▸ List.mem_singleton_self _)
  obtain ⟨hpacket, hresponse⟩ := Prod.mk.inj hxeq
  obtain ⟨-, sockets, created, hsent⟩ := Listener.of_mem_handled hx
  rw [hresponse] at hsent
  obtain ⟨response, bytes, hresponse', hreceived, -⟩ := responses_delivered .rowid config Sample.world
    Sample.discovery hfits (by simp [Sample.discovery]) x hx _ hsent
  obtain rfl : response = createOffer packet (.new 10 0 0 10) Sample.subnet.toSubnet Sample.config :=
    Option.some.inj (hresponse'.symm.trans hresponse)
  refine ⟨hfits, x, hx, _, bytes, hsent, hreceived.trans ?_⟩
  rw [hpacket]
  exact congrArg (fun dest => some (dest, bytes)) (by decide)

end Ndhcpd
