import Ndhcpd.Dhcp.Server

/-!
# The shape of the packet handlers

`handleRequest` reads first and writes last: everything up to and including
`list_active_leases` only decides what to do, and what is done then are at most two writes
and a reading of the clock. `planRequest` is the reading part and `RequestPlan.carryOut` the
rest; `handleRequest_eq` says that the handler is the one followed by the other. Statements
about the handler are proved along this cut.

`handleDiscover` only reads.
-/

namespace Ndhcpd

variable (packet : DhcpPacket) (ifaceIps : List Ipv4Addr) (config : DhcpConfig)

/-! ### Deciding a REQUEST -/

/-- What the reads of `handleRequest` lead to: refuse, confirm a static assignment, or grant
a lease in place of the client's old one, if it has one on the address. -/
inductive RequestPlan
  | refuse
  | confirm (ip : Ipv4Addr) (subnet : Subnet)
  | grant (ip : Ipv4Addr) (range : DynamicRange) (subnet : Subnet) (old : Option ℤ)
deriving DecidableEq, Repr

/-- The decision on a list of active leases. -/
def planLease (mac : String) (ip : Ipv4Addr) (range : DynamicRange) (subnet : Subnet)
    (activeLeases : List Lease) : RequestPlan :=
  match activeLeases.find? (·.ipAddress == ip) with
  | none => .grant ip range subnet none
  | some existing =>
    if existing.macAddress ≠ mac then .refuse else .grant ip range subnet existing.id

/-- The range and subnet from which the address would be leased. -/
def planRange (ip : Ipv4Addr) : ServerProgram (Option (DynamicRange × Subnet)) := do
  match ← dbCall (.listRanges none) with
  | .error _ => return none
  | .ok ranges => findMatchingRange ifaceIps ip ranges

/-- The reads of the dynamic branch. -/
def planDynamic (ip : Ipv4Addr) : ServerProgram RequestPlan := do
  match ← planRange ifaceIps ip with
  | none => return .refuse
  | some (range, subnet) =>
    match ← dbCall .listActiveLeases with
    | .error _ => return .refuse
    | .ok activeLeases => return planLease (requestMac packet) ip range subnet activeLeases

/-- The reads of the static branch. -/
def planStatic (ip : Ipv4Addr) (staticIp : StaticIP) : ServerProgram RequestPlan := do
  if staticIp.ipAddress = ip then
    match ← dbCall (.getSubnet staticIp.subnetId) with
    | .ok (some subnet) =>
      if ifaceInSubnet ifaceIps subnet then return .confirm ip subnet else return .refuse
    | _ => return .refuse
  else return .refuse

/-- The reading part of `handleRequest`. -/
def planRequest : ServerProgram RequestPlan :=
  match requestedIp packet with
  | none => return .refuse
  | some ip => do
    match ← dbCall (.getStaticIpByMac (requestMac packet)) with
    | .ok (some staticIp) => planStatic ifaceIps ip staticIp
    | _ => planDynamic packet ifaceIps ip

/-- The writing part of `handleRequest`. -/
def RequestPlan.carryOut : RequestPlan → ServerProgram (Option DhcpPacket)
  | .refuse => return none
  | .confirm ip subnet => return some (createAck packet ip subnet config)
  | .grant ip range subnet none => grantLease packet config ip range subnet
  | .grant ip range subnet (some id) => do
    let _ ← dbCall (.expireLease id)
    grantLease packet config ip range subnet

variable {packet ifaceIps config}

/-- MAC addresses are written in lower case, so a client's name is its address. -/
theorem requestMac_eq (packet : DhcpPacket) : requestMac packet = packet.chaddr.toString :=
  packet.chaddr.toLower_toString

theorem settleRequest_eq {ip : Ipv4Addr} {range : DynamicRange} {subnet : Subnet}
    {activeLeases : List Lease} :
    settleRequest packet config ip range subnet activeLeases =
      (planLease (requestMac packet) ip range subnet activeLeases).carryOut packet config := by
  unfold settleRequest planLease
  cases activeLeases.find? (·.ipAddress == ip) with
  | none => rfl
  | some existing =>
    by_cases hmac : existing.macAddress = requestMac packet
    · simp only [hmac, ne_eq, not_true_eq_false, if_false]
      cases existing.id <;> rfl
    · simp only [ne_eq, hmac, not_false_eq_true, if_true]
      rfl

private theorem requestDynamic_eq (ip : Ipv4Addr) :
    requestDynamic packet ifaceIps config ip =
      planDynamic packet ifaceIps ip >>= RequestPlan.carryOut packet config := by
  unfold requestDynamic planDynamic planRange
  simp only [Program.bind_assoc]
  refine bind_congr ?_
  rintro (e | ranges)
  · rfl
  · refine bind_congr ?_
    rintro (_ | ⟨range, subnet⟩)
    · rfl
    · refine bind_congr ?_
      rintro (e | activeLeases)
      · rfl
      · exact settleRequest_eq

private theorem requestStatic_eq (ip : Ipv4Addr) (staticIp : StaticIP) :
    requestStatic packet ifaceIps config ip staticIp =
      planStatic ifaceIps ip staticIp >>= RequestPlan.carryOut packet config := by
  unfold requestStatic planStatic
  by_cases hip : staticIp.ipAddress = ip
  · simp only [hip, if_true, Program.bind_assoc]
    refine bind_congr ?_
    rintro (e | _ | subnet)
    · rfl
    · rfl
    · show (if ifaceInSubnet ifaceIps subnet = true then _ else _) =
        (if ifaceInSubnet ifaceIps subnet = true then _ else _) >>= _
      split <;> rfl
  · simp [hip, RequestPlan.carryOut]

/-- **The cut.** `handleRequest` decides by reading and then carries the decision out. -/
theorem handleRequest_eq :
    handleRequest packet ifaceIps config =
      planRequest packet ifaceIps >>= RequestPlan.carryOut packet config := by
  unfold handleRequest planRequest
  cases requestedIp packet with
  | none => rfl
  | some ip =>
    rw [Program.bind_assoc]
    refine bind_congr ?_
    rintro (e | _ | staticIp)
    · exact requestDynamic_eq ip
    · exact requestDynamic_eq ip
    · exact requestStatic_eq ip staticIp

/-! ### Programs that only read -/

/-- The program only reads the database and the clock. -/
abbrev Reads {α : Type} (p : ServerProgram α) : Prop := p.Only fun c => c.isRead = true

theorem reads_dbCall {α : Type} {c : DbCall} {k : c.Result → ServerProgram α}
    (hc : c.isRead = true) (hk : ∀ r, Reads (k r)) : Reads (dbCall c >>= k) :=
  ⟨hc, hk⟩

theorem findMatchingRange_reads (ip : Ipv4Addr) (ranges : List DynamicRange) :
    Reads (findMatchingRange ifaceIps ip ranges) := by
  induction ranges with
  | nil => trivial
  | cons r rest ih =>
    unfold findMatchingRange
    split
    · refine reads_dbCall rfl ?_
      rintro (e | _ | subnet)
      · exact ih
      · exact ih
      · show Reads (if ifaceInSubnet ifaceIps subnet = true then _ else _)
        split
        · trivial
        · exact ih
    · exact ih

theorem planRange_reads (ip : Ipv4Addr) : Reads (planRange ifaceIps ip) := by
  refine reads_dbCall rfl ?_
  rintro (e | ranges)
  · trivial
  · exact findMatchingRange_reads ip ranges

theorem planStatic_reads (ip : Ipv4Addr) (staticIp : StaticIP) :
    Reads (planStatic ifaceIps ip staticIp) := by
  unfold planStatic
  split
  · refine reads_dbCall rfl ?_
    rintro (e | _ | subnet)
    · trivial
    · trivial
    · show Reads (if ifaceInSubnet ifaceIps subnet = true then _ else _)
      split <;> trivial
  · trivial

theorem planDynamic_reads (ip : Ipv4Addr) : Reads (planDynamic packet ifaceIps ip) := by
  refine (planRange_reads ip).bind fun found => ?_
  rcases found with _ | ⟨range, subnet⟩
  · trivial
  · refine reads_dbCall rfl ?_
    rintro (e | activeLeases) <;> trivial

/-- Deciding a REQUEST changes nothing. -/
theorem planRequest_reads : Reads (planRequest packet ifaceIps) := by
  unfold planRequest
  cases requestedIp packet with
  | none => trivial
  | some ip =>
    refine reads_dbCall rfl ?_
    rintro (e | _ | staticIp)
    · exact planDynamic_reads ip
    · exact planDynamic_reads ip
    · exact planStatic_reads ip staticIp

private theorem discoverSubnets_reads (leasedIps : List Ipv4Addr) (subnets : List Subnet) :
    Reads (discoverSubnets packet config leasedIps subnets) := by
  induction subnets with
  | nil => trivial
  | cons subnet rest ih =>
    unfold discoverSubnets
    cases subnet.id with
    | none => exact ih
    | some subnetId =>
      refine reads_dbCall rfl ?_
      rintro (e | ranges)
      · exact ih
      · dsimp only
        split
        · trivial
        · exact ih

private theorem discoverPool_reads : Reads (discoverPool packet ifaceIps config) := by
  refine reads_dbCall rfl ?_
  rintro (e | subnets)
  · trivial
  · refine reads_dbCall rfl ?_
    rintro (e | leases)
    · trivial
    · exact discoverSubnets_reads _ _

private theorem discoverLease_reads : Reads (discoverLease packet ifaceIps config) := by
  refine reads_dbCall rfl ?_
  rintro (e | _ | lease)
  · exact discoverPool_reads
  · exact discoverPool_reads
  · refine reads_dbCall rfl ?_
    rintro (e | _ | subnet)
    · trivial
    · trivial
    · show Reads (if ifaceInSubnet ifaceIps subnet = true then _ else _)
      split
      · trivial
      · exact discoverPool_reads

/-- A DISCOVER changes nothing. -/
theorem handleDiscover_reads : Reads (handleDiscover packet ifaceIps config) := by
  refine reads_dbCall rfl ?_
  rintro (e | _ | staticIp)
  · exact discoverLease_reads
  · exact discoverLease_reads
  · refine reads_dbCall rfl ?_
    rintro (e | _ | subnet)
    · trivial
    · trivial
    · show Reads (if ifaceInSubnet ifaceIps subnet = true then _ else _)
      split
      · trivial
      · exact discoverLease_reads

end Ndhcpd
