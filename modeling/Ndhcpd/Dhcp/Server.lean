import Ndhcpd.Db.Call
import Ndhcpd.Proto.Packet

/-!
# The DHCP server

The packet handlers of `DhcpServer`, as programs over the database interface. They are
written in the order of the source: the same calls in the same sequence, the same exits
after each of them, and the loops as recursions over the rows they visit.

Arithmetic on machine integers is that of a release build: `32 - prefix` wraps in `u8`, a
shift amount counts modulo 32, and the timers of `createAck` wrap in `u32`.
-/

namespace Ndhcpd

/-! ### Masks -/

/-- `!0u32 << (32 - prefix)`, and zero for the empty prefix. -/
def prefixMask (pfx : UInt8) : UInt32 :=
  if pfx = 0 then 0 else 0xFFFFFFFF <<< (32 - pfx).toUInt32

/-- The netmask of a prefix length. -/
def netmaskFromPrefix (pfx : UInt8) : Ipv4Addr := ⟨prefixMask pfx⟩

/-- Does any address of the interface belong to the subnet? -/
def ifaceInSubnet (ifaceIps : List Ipv4Addr) (subnet : Subnet) : Bool :=
  let mask := prefixMask subnet.netmask
  let net := subnet.network.toUInt32 &&& mask
  ifaceIps.any fun ip => ip.toUInt32 &&& mask == net

/-! ### Replies -/

/-- The option that names the domain, when the subnet has one. -/
def domainOption (subnet : Subnet) : List DhcpOption :=
  match subnet.domainName with
  | some domain => [.domainName domain]
  | none => []

/-- The DHCPOFFER for an address of a subnet. -/
def createOffer (request : DhcpPacket) (offeredIp : Ipv4Addr) (subnet : Subnet)
    (config : DhcpConfig) : DhcpPacket :=
  { DhcpPacket.new with
    op := 2
    xid := request.xid
    yiaddr := offeredIp
    chaddr := request.chaddr
    siaddr := subnet.gateway
    options := [
      .messageType .offer,
      .serverIdentifier subnet.gateway,
      .leaseTime config.defaultLeaseTime,
      .subnetMask (netmaskFromPrefix subnet.netmask),
      .router [subnet.gateway],
      .dnsServer subnet.dnsServers] ++ domainOption subnet }

/-- The DHCPACK for an address of a subnet. -/
def createAck (request : DhcpPacket) (assignedIp : Ipv4Addr) (subnet : Subnet)
    (config : DhcpConfig) : DhcpPacket :=
  { DhcpPacket.new with
    op := 2
    xid := request.xid
    yiaddr := assignedIp
    chaddr := request.chaddr
    siaddr := subnet.gateway
    options := [
      .messageType .ack,
      .serverIdentifier subnet.gateway,
      .leaseTime config.defaultLeaseTime,
      .renewalTime (config.defaultLeaseTime / 2),
      .rebindingTime (config.defaultLeaseTime * 7 / 8),
      .subnetMask (netmaskFromPrefix subnet.netmask),
      .router [subnet.gateway],
      .dnsServer subnet.dnsServers] ++ domainOption subnet }

/-! ### DISCOVER -/

/-- The first of the `n` addresses from `ip` on that is not leased. -/
def firstFree (leasedIps : List Ipv4Addr) : ℕ → ℕ → Option Ipv4Addr
  | _, 0 => none
  | ip, n + 1 =>
    let candidate : Ipv4Addr := ⟨UInt32.ofNat ip⟩
    if candidate ∈ leasedIps then firstFree leasedIps (ip + 1) n else some candidate

/-- The first free address of a range, both ends included. -/
def firstFreeInRange (leasedIps : List Ipv4Addr) (range : DynamicRange) : Option Ipv4Addr :=
  firstFree leasedIps range.rangeStart.toUInt32.toNat
    (range.rangeEnd.toUInt32.toNat + 1 - range.rangeStart.toUInt32.toNat)

/-- The pool scan: subnet by subnet, the first free address of the enabled ranges. -/
def discoverSubnets (packet : DhcpPacket) (config : DhcpConfig) (leasedIps : List Ipv4Addr) :
    List Subnet → ServerProgram (Option DhcpPacket)
  | [] => return none
  | subnet :: rest =>
    match subnet.id with
    | none => discoverSubnets packet config leasedIps rest
    | some subnetId => do
      match ← dbCall (.listRanges (some subnetId)) with
      | .error _ => discoverSubnets packet config leasedIps rest
      | .ok ranges =>
        match (ranges.filter (·.enabled)).findSome? (firstFreeInRange leasedIps) with
        | some candidate => return some (createOffer packet candidate subnet config)
        | none => discoverSubnets packet config leasedIps rest

/-- Allocation of a new address, on the subnets reachable via the interface. -/
def discoverPool (packet : DhcpPacket) (ifaceIps : List Ipv4Addr) (config : DhcpConfig) :
    ServerProgram (Option DhcpPacket) := do
  match ← dbCall .listSubnets with
  | .error _ => return none
  | .ok subnets =>
    match ← dbCall .listActiveLeases with
    | .error _ => return none
    | .ok leases =>
      discoverSubnets packet config (leases.map (·.ipAddress))
        (subnets.filter (ifaceInSubnet ifaceIps))

/-- The client's existing lease, if it is on a subnet reachable via the interface; otherwise
a new address. -/
def discoverLease (packet : DhcpPacket) (ifaceIps : List Ipv4Addr) (config : DhcpConfig) :
    ServerProgram (Option DhcpPacket) := do
  match ← dbCall (.getActiveLease packet.chaddr.toString) with
  | .ok (some lease) =>
    match ← dbCall (.getSubnet lease.subnetId) with
    | .ok (some subnet) =>
      if ifaceInSubnet ifaceIps subnet then
        return some (createOffer packet lease.ipAddress subnet config)
      else discoverPool packet ifaceIps config
    | _ => return none
  | _ => discoverPool packet ifaceIps config

/-- Answer a DISCOVER: the static assignment if it is reachable, else the existing lease,
else the pool. -/
def handleDiscover (packet : DhcpPacket) (ifaceIps : List Ipv4Addr) (config : DhcpConfig) :
    ServerProgram (Option DhcpPacket) := do
  match ← dbCall (.getStaticIpByMac packet.chaddr.toString) with
  | .ok (some staticIp) =>
    match ← dbCall (.getSubnet staticIp.subnetId) with
    | .ok (some subnet) =>
      if ifaceInSubnet ifaceIps subnet then
        return some (createOffer packet staticIp.ipAddress subnet config)
      else discoverLease packet ifaceIps config
    | _ => return none
  | _ => discoverLease packet ifaceIps config

/-! ### REQUEST -/

/-- The requested address: option 50 of a new request, or `ciaddr` of a renewal. -/
def requestedIp (packet : DhcpPacket) : Option Ipv4Addr :=
  (packet.options.findSome? fun
    | .requestedIpAddress ip => some ip
    | _ => none).or
    (if packet.ciaddr ≠ .unspecified then some packet.ciaddr else none)

/-- The hostname the client sent, if any. -/
def requestHostname (packet : DhcpPacket) : Option String :=
  packet.options.findSome? fun
    | .hostname h => some h
    | _ => none

/-- The client name under which `handleRequest` files leases. -/
def requestMac (packet : DhcpPacket) : String := packet.chaddr.toString.toLower

/-- Does the range cover the address? -/
def DynamicRange.covers (r : DynamicRange) (ip : Ipv4Addr) : Bool :=
  r.rangeStart.toUInt32 ≤ ip.toUInt32 && ip.toUInt32 ≤ r.rangeEnd.toUInt32

/-- The first enabled range that covers the address and whose subnet matches the interface.
A subnet that is missing or cannot be read is passed over. -/
def findMatchingRange (ifaceIps : List Ipv4Addr) (ip : Ipv4Addr) :
    List DynamicRange → ServerProgram (Option (DynamicRange × Subnet))
  | [] => return none
  | r :: rest =>
    if r.enabled && r.covers ip then do
      match ← dbCall (.getSubnet r.subnetId) with
      | .ok (some subnet) =>
        if ifaceInSubnet ifaceIps subnet then return some (r, subnet)
        else findMatchingRange ifaceIps ip rest
      | _ => findMatchingRange ifaceIps ip rest
    else findMatchingRange ifaceIps ip rest

/-- The lease that a granted request records. -/
def newLease (packet : DhcpPacket) (config : DhcpConfig) (ip : Ipv4Addr) (range : DynamicRange)
    (now : ℤ) : Lease where
  id := none
  subnetId := range.subnetId
  macAddress := requestMac packet
  ipAddress := ip
  leaseStart := now
  leaseEnd := now + config.defaultLeaseTime.toNat
  hostname := requestHostname packet

/-- Create the lease and acknowledge. -/
def grantLease (packet : DhcpPacket) (config : DhcpConfig) (ip : Ipv4Addr)
    (range : DynamicRange) (subnet : Subnet) : ServerProgram (Option DhcpPacket) := do
  let now ← utcNow
  match ← dbCall (.createLease (newLease packet config ip range now)) with
  | .error _ => return none
  | .ok _ => return some (createAck packet ip subnet config)

/-- Settle a request for an address whose range was found: refuse it when another client
holds the address, drop the client's own old lease, and grant. -/
def settleRequest (packet : DhcpPacket) (config : DhcpConfig) (ip : Ipv4Addr)
    (range : DynamicRange) (subnet : Subnet) (activeLeases : List Lease) :
    ServerProgram (Option DhcpPacket) :=
  match activeLeases.find? (·.ipAddress == ip) with
  | none => grantLease packet config ip range subnet
  | some existing =>
    if existing.macAddress ≠ requestMac packet then return none
    else
      match existing.id with
      | none => grantLease packet config ip range subnet
      | some id => do
        -- the result of `expire_lease` is ignored
        let _ ← dbCall (.expireLease id)
        grantLease packet config ip range subnet

/-- The dynamic branch of `handleRequest`. -/
def requestDynamic (packet : DhcpPacket) (ifaceIps : List Ipv4Addr) (config : DhcpConfig)
    (ip : Ipv4Addr) : ServerProgram (Option DhcpPacket) := do
  match ← dbCall (.listRanges none) with
  | .error _ => return none
  | .ok ranges =>
    match ← findMatchingRange ifaceIps ip ranges with
    | none => return none
    | some (range, subnet) =>
      match ← dbCall .listActiveLeases with
      | .error _ => return none
      | .ok activeLeases => settleRequest packet config ip range subnet activeLeases

/-- The static branch of `handleRequest`: the assigned address and no other. -/
def requestStatic (packet : DhcpPacket) (ifaceIps : List Ipv4Addr) (config : DhcpConfig)
    (ip : Ipv4Addr) (staticIp : StaticIP) : ServerProgram (Option DhcpPacket) := do
  if staticIp.ipAddress = ip then
    match ← dbCall (.getSubnet staticIp.subnetId) with
    | .ok (some subnet) =>
      if ifaceInSubnet ifaceIps subnet then return some (createAck packet ip subnet config)
      else return none
    | _ => return none
  else return none

/-- Answer a REQUEST. -/
def handleRequest (packet : DhcpPacket) (ifaceIps : List Ipv4Addr) (config : DhcpConfig) :
    ServerProgram (Option DhcpPacket) :=
  match requestedIp packet with
  | none => return none
  | some ip => do
    match ← dbCall (.getStaticIpByMac (requestMac packet)) with
    | .ok (some staticIp) => requestStatic packet ifaceIps config ip staticIp
    | _ => requestDynamic packet ifaceIps config ip

/-! ### RELEASE and dispatch -/

/-- Handle a RELEASE: drop the client's active lease. -/
def handleRelease (packet : DhcpPacket) : ServerProgram Unit := do
  match ← dbCall (.getActiveLease packet.chaddr.toString) with
  | .ok (some lease) =>
    match lease.id with
    | some id =>
      let _ ← dbCall (.expireLease id)
      return ()
    | none => return ()
  | _ => return ()

/-- Dispatch a packet on its message type. -/
def handlePacket (packet : DhcpPacket) (ifaceIps : List Ipv4Addr) (config : DhcpConfig) :
    ServerProgram (Option DhcpPacket) :=
  match packet.getMessageType with
  | some .discover => handleDiscover packet ifaceIps config
  | some .request => handleRequest packet ifaceIps config
  | some .release => do
    handleRelease packet
    return none
  | _ => return none

end Ndhcpd
