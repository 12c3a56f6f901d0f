import Ndhcpd.Interaction.Notes
import Ndhcpd.Api.Subnets

/-!
# The operands of mask arithmetic

Three functions compute `!0u32 << (32 - prefix)`: `iface_in_subnet`, `netmask_from_prefix` and
`subnets_overlap`. The subtraction is in `u8`. For a prefix beyond 32 it underflows: a build with
overflow checks panics there, and any other goes on with a wrapped mask.

The handlers that reach one of the three are written here a second time, as programs that note the
operand of every such subtraction. Without the notes they are the handlers (`erase_handlePacket`,
`erase_createSubnet`).
-/

namespace Ndhcpd

/-- A program of the server that notes the operands of mask arithmetic. -/
abbrev MaskProgram (α : Type) : Type := Noting UInt8 ServerCall ServerCall.Reply α

/-- The subtraction does not underflow, and the shift is one within 32 bits. -/
def MaskInRange (pfx : UInt8) : Prop := pfx ≤ 32 ∧ 32 - pfx < 32

namespace Masks

open Noting (noting lift)

/-- The operand of `32 - prefix`; for the empty prefix nothing is evaluated. -/
def operands (pfx : UInt8) : List UInt8 := if pfx = 0 then [] else [pfx]

/-- A database call. -/
def ask (c : DbCall) : MaskProgram c.Result := lift (dbCall c)

/-- `iface_in_subnet`. -/
def ifaceInSubnet (ifaceIps : List Ipv4Addr) (subnet : Subnet) : MaskProgram Bool :=
  noting (operands subnet.netmask) (Ndhcpd.ifaceInSubnet ifaceIps subnet)

/-- `create_offer`, with `netmask_from_prefix`. -/
def createOffer (packet : DhcpPacket) (ip : Ipv4Addr) (subnet : Subnet) (config : DhcpConfig) :
    MaskProgram DhcpPacket :=
  noting (operands subnet.netmask) (Ndhcpd.createOffer packet ip subnet config)

/-- `create_ack`, with `netmask_from_prefix`. -/
def createAck (packet : DhcpPacket) (ip : Ipv4Addr) (subnet : Subnet) (config : DhcpConfig) :
    MaskProgram DhcpPacket :=
  noting (operands subnet.netmask) (Ndhcpd.createAck packet ip subnet config)

/-- `subnets_overlap`. -/
def subnetsOverlap (netA : Ipv4Addr) (prefixA : UInt8) (netB : Ipv4Addr) (prefixB : UInt8) :
    MaskProgram Bool :=
  noting (operands prefixA ++ operands prefixB) (Ndhcpd.subnetsOverlap netA prefixA netB prefixB)

/-! ### The handlers with notes -/

section Handlers

variable (packet : DhcpPacket) (ifaceIps : List Ipv4Addr) (config : DhcpConfig)

/-- The pool scan. The subnets are filtered as they are visited. -/
def discoverSubnets (leasedIps : List Ipv4Addr) : List Subnet → MaskProgram (Option DhcpPacket)
  | [] => return none
  | subnet :: rest => do
    -- the filter is lazy: a subnet behind the one that is offered is never tested
    if ← ifaceInSubnet ifaceIps subnet then
      match subnet.id with
      | none => discoverSubnets leasedIps rest
      | some subnetId =>
        match ← ask (.listRanges (some subnetId)) with
        | .error _ => discoverSubnets leasedIps rest
        | .ok ranges =>
          match (ranges.filter (·.enabled)).findSome? (firstFreeInRange leasedIps) with
          | some candidate => return some (← createOffer packet candidate subnet config)
          | none => discoverSubnets leasedIps rest
    else discoverSubnets leasedIps rest

/-- Allocation of a new address. -/
def discoverPool : MaskProgram (Option DhcpPacket) := do
  match ← ask .listSubnets with
  | .error _ => return none
  | .ok subnets =>
    match ← ask .listActiveLeases with
    | .error _ => return none
    | .ok leases =>
      discoverSubnets packet ifaceIps config (leases.map (·.ipAddress)) subnets

/-- The client's existing lease, else a new address. -/
def discoverLease : MaskProgram (Option DhcpPacket) := do
  match ← ask (.getActiveLease packet.chaddr.toString) with
  | .ok (some lease) =>
    match ← ask (.getSubnet lease.subnetId) with
    | .ok (some subnet) =>
      if ← ifaceInSubnet ifaceIps subnet then
        return some (← createOffer packet lease.ipAddress subnet config)
      else discoverPool packet ifaceIps config
    | _ => return none
  | _ => discoverPool packet ifaceIps config

/-- `handle_discover`. -/
def handleDiscover : MaskProgram (Option DhcpPacket) := do
  match ← ask (.getStaticIpByMac packet.chaddr.toString) with
  | .ok (some staticIp) =>
    match ← ask (.getSubnet staticIp.subnetId) with
    | .ok (some subnet) =>
      if ← ifaceInSubnet ifaceIps subnet then
        return some (← createOffer packet staticIp.ipAddress subnet config)
      else discoverLease packet ifaceIps config
    | _ => return none
  | _ => discoverLease packet ifaceIps config

/-- The search for a range. -/
def findMatchingRange (ip : Ipv4Addr) :
    List DynamicRange → MaskProgram (Option (DynamicRange × Subnet))
  | [] => return none
  | r :: rest =>
    if r.enabled && r.covers ip then do
      match ← ask (.getSubnet r.subnetId) with
      | .ok (some subnet) =>
        if ← ifaceInSubnet ifaceIps subnet then return some (r, subnet)
        else findMatchingRange ip rest
      | _ => findMatchingRange ip rest
    else findMatchingRange ip rest

/-- Create the lease and acknowledge. -/
def grantLease (ip : Ipv4Addr) (range : DynamicRange) (subnet : Subnet) :
    MaskProgram (Option DhcpPacket) := do
  let now ← lift utcNow
  match ← ask (.createLease (newLease packet config ip range now)) with
  | .error _ => return none
  | .ok _ => return some (← createAck packet ip subnet config)

/-- Settle a request for an address whose range was found. -/
def settleRequest (ip : Ipv4Addr) (range : DynamicRange) (subnet : Subnet)
    (activeLeases : List Lease) : MaskProgram (Option DhcpPacket) :=
  match activeLeases.find? (·.ipAddress == ip) with
  | none => grantLease packet config ip range subnet
  | some existing =>
    if existing.macAddress ≠ requestMac packet then return none
    else
      match existing.id with
      | none => grantLease packet config ip range subnet
      | some id => do
        -- the answer is ignored
        let _ ← ask (.expireLease id)
        grantLease packet config ip range subnet

/-- The dynamic branch of `handle_request`. -/
def requestDynamic (ip : Ipv4Addr) : MaskProgram (Option DhcpPacket) := do
  match ← ask (.listRanges none) with
  | .error _ => return none
  | .ok ranges =>
    match ← findMatchingRange ifaceIps ip ranges with
    | none => return none
    | some (range, subnet) =>
      match ← ask .listActiveLeases with
      | .error _ => return none
      | .ok activeLeases => settleRequest packet config ip range subnet activeLeases

/-- The static branch of `handle_request`. -/
def requestStatic (ip : Ipv4Addr) (staticIp : StaticIP) : MaskProgram (Option DhcpPacket) := do
  if staticIp.ipAddress = ip then
    match ← ask (.getSubnet staticIp.subnetId) with
    | .ok (some subnet) =>
      if ← ifaceInSubnet ifaceIps subnet then
        return some (← createAck packet ip subnet config)
      else return none
    | _ => return none
  else return none

/-- `handle_request`. -/
def handleRequest : MaskProgram (Option DhcpPacket) :=
  match requestedIp packet with
  | none => return none
  | some ip => do
    match ← ask (.getStaticIpByMac (requestMac packet)) with
    | .ok (some staticIp) => requestStatic packet ifaceIps config ip staticIp
    | _ => requestDynamic packet ifaceIps config ip

/-- Dispatch a packet on its message type. A RELEASE evaluates no mask. -/
def handlePacket : MaskProgram (Option DhcpPacket) :=
  match packet.getMessageType with
  | some .discover => handleDiscover packet ifaceIps config
  | some .request => handleRequest packet ifaceIps config
  | some .release => do
    lift (handleRelease packet)
    return none
  | _ => return none

end Handlers

/-- The overlap test of `create_subnet`, which stops at the first overlap. -/
def anyOverlap (subnet : Subnet) : List Subnet → MaskProgram Bool
  | [] => return false
  | e :: rest => do
    if ← subnetsOverlap subnet.network subnet.netmask e.network e.netmask then return true
    else anyOverlap subnet rest

/-- `POST /api/subnets`. -/
def createSubnet (subnet : Subnet) : MaskProgram (Except StatusCode (StatusCode × ℤ)) := do
  match ← ask .listSubnets with
  | .error _ => return .error .internalServerError
  | .ok existing =>
    if ← anyOverlap subnet existing then return .error .conflict
    else
      match ← ask (.createSubnet subnet) with
      | .ok id => return .ok (.created, id)
      | .error e =>
        return .error (if isUniqueViolation e then .conflict else .internalServerError)

/-! ### Without the notes -/

section Erase

open Noting

variable {packet : DhcpPacket} {ifaceIps : List Ipv4Addr} {config : DhcpConfig} {α : Type}

/-- A call is a call, and what follows is erased. -/
theorem erase_ask_bind (c : DbCall) (k : c.Result → MaskProgram α) :
    erase (ask c >>= k) = dbCall c >>= fun r => erase (k r) := by
  rw [ask, erase_bind, erase_lift]

/-- A mask test is a test. -/
theorem erase_ite_noting {notes : List UInt8} {b : Bool} {p q : MaskProgram α} :
    erase (noting notes b >>= fun b => if b then p else q) = if b then erase p else erase q := by
  rw [erase_bind, erase_noting, Program.pure_eq_done, Program.done_bind]
  split <;> rfl

theorem erase_discoverSubnets (leasedIps : List Ipv4Addr) (subnets : List Subnet) :
    erase (discoverSubnets packet ifaceIps config leasedIps subnets) =
      Ndhcpd.discoverSubnets packet config leasedIps
        (subnets.filter (Ndhcpd.ifaceInSubnet ifaceIps)) := by
  induction subnets with
  | nil => rfl
  | cons subnet rest ih =>
    rw [discoverSubnets, ifaceInSubnet, erase_ite_noting]
    cases hiface : Ndhcpd.ifaceInSubnet ifaceIps subnet with
    | false =>
      -- a subnet that the filter drops is tested and skipped
      rw [if_neg Bool.false_ne_true, List.filter_cons_of_neg (by simp [hiface])]
      exact ih
    | true =>
      rw [if_pos rfl, List.filter_cons_of_pos hiface, Ndhcpd.discoverSubnets]
      cases subnet.id with
      | none => exact ih
      | some subnetId =>
        refine (erase_ask_bind _ _).trans (bind_congr fun r => ?_)
        rcases r with e | ranges
        · exact ih
        · simp only
          cases (ranges.filter (·.enabled)).findSome? (firstFreeInRange leasedIps) with
          | none => exact ih
          | some candidate => rfl

theorem erase_discoverPool :
    erase (discoverPool packet ifaceIps config) = Ndhcpd.discoverPool packet ifaceIps config := by
  refine (erase_ask_bind _ _).trans (bind_congr fun r => ?_)
  rcases r with e | subnets
  · rfl
  · refine (erase_ask_bind _ _).trans (bind_congr fun r => ?_)
    rcases r with e | leases
    · rfl
    · exact erase_discoverSubnets _ subnets

theorem erase_discoverLease :
    erase (discoverLease packet ifaceIps config) = Ndhcpd.discoverLease packet ifaceIps config := by
  refine (erase_ask_bind _ _).trans (bind_congr fun r => ?_)
  rcases r with e | _ | lease
  · exact erase_discoverPool
  · exact erase_discoverPool
  · refine (erase_ask_bind _ _).trans (bind_congr fun r => ?_)
    rcases r with e | _ | subnet
    · rfl
    · rfl
    · refine erase_ite_noting.trans ?_
      rw [erase_discoverPool]
      rfl

theorem erase_handleDiscover :
    erase (handleDiscover packet ifaceIps config) =
      Ndhcpd.handleDiscover packet ifaceIps config := by
  refine (erase_ask_bind _ _).trans (bind_congr fun r => ?_)
  rcases r with e | _ | staticIp
  · exact erase_discoverLease
  · exact erase_discoverLease
  · refine (erase_ask_bind _ _).trans (bind_congr fun r => ?_)
    rcases r with e | _ | subnet
    · rfl
    · rfl
    · refine erase_ite_noting.trans ?_
      rw [erase_discoverLease]
      rfl

theorem erase_findMatchingRange (ip : Ipv4Addr) (ranges : List DynamicRange) :
    erase (findMatchingRange ifaceIps ip ranges) =
      Ndhcpd.findMatchingRange ifaceIps ip ranges := by
  induction ranges with
  | nil => rfl
  | cons r rest ih =>
    rw [findMatchingRange, Ndhcpd.findMatchingRange]
    split
    · refine (erase_ask_bind _ _).trans (bind_congr fun r => ?_)
      rcases r with e | _ | subnet
      · exact ih
      · exact ih
      · refine erase_ite_noting.trans ?_
        rw [ih]
        rfl
    · exact ih

theorem erase_grantLease (ip : Ipv4Addr) (range : DynamicRange) (subnet : Subnet) :
    erase (grantLease packet config ip range subnet) =
      Ndhcpd.grantLease packet config ip range subnet := by
  rw [grantLease, erase_bind, erase_lift]
  refine bind_congr fun now => (erase_ask_bind _ _).trans (bind_congr fun r => ?_)
  rcases r with e | id <;> rfl

theorem erase_settleRequest (ip : Ipv4Addr) (range : DynamicRange) (subnet : Subnet)
    (activeLeases : List Lease) :
    erase (settleRequest packet config ip range subnet activeLeases) =
      Ndhcpd.settleRequest packet config ip range subnet activeLeases := by
  rw [settleRequest, Ndhcpd.settleRequest]
  cases activeLeases.find? (·.ipAddress == ip) with
  | none => exact erase_grantLease ip range subnet
  | some existing =>
    by_cases hmac : existing.macAddress ≠ requestMac packet
    · simp only [if_pos hmac]
      rfl
    · simp only [if_neg hmac]
      cases existing.id with
      | none => exact erase_grantLease ip range subnet
      | some id =>
        exact (erase_ask_bind _ _).trans (bind_congr fun _ => erase_grantLease ip range subnet)

theorem erase_requestDynamic (ip : Ipv4Addr) :
    erase (requestDynamic packet ifaceIps config ip) =
      Ndhcpd.requestDynamic packet ifaceIps config ip := by
  refine (erase_ask_bind _ _).trans (bind_congr fun r => ?_)
  rcases r with e | ranges
  · rfl
  · simp only [erase_bind, erase_findMatchingRange]
    refine bind_congr fun found => ?_
    rcases found with _ | ⟨range, subnet⟩
    · rfl
    · refine (erase_ask_bind _ _).trans (bind_congr fun r => ?_)
      rcases r with e | activeLeases
      · rfl
      · exact erase_settleRequest ip range subnet activeLeases

theorem erase_requestStatic (ip : Ipv4Addr) (staticIp : StaticIP) :
    erase (requestStatic packet ifaceIps config ip staticIp) =
      Ndhcpd.requestStatic packet ifaceIps config ip staticIp := by
  rw [requestStatic, Ndhcpd.requestStatic]
  split
  · refine (erase_ask_bind _ _).trans (bind_congr fun r => ?_)
    rcases r with e | _ | subnet
    · rfl
    · rfl
    · exact erase_ite_noting
  · rfl

theorem erase_handleRequest :
    erase (handleRequest packet ifaceIps config) =
      Ndhcpd.handleRequest packet ifaceIps config := by
  rw [handleRequest, Ndhcpd.handleRequest]
  cases requestedIp packet with
  | none => rfl
  | some ip =>
    refine (erase_ask_bind _ _).trans (bind_congr fun r => ?_)
    rcases r with e | _ | staticIp
    · exact erase_requestDynamic ip
    · exact erase_requestDynamic ip
    · exact erase_requestStatic ip staticIp

/-- **The packet handler**, without its notes. -/
theorem erase_handlePacket :
    erase (handlePacket packet ifaceIps config) = Ndhcpd.handlePacket packet ifaceIps config := by
  rw [handlePacket, Ndhcpd.handlePacket]
  rcases packet.getMessageType with _ | type
  · rfl
  · cases type with
    | discover => exact erase_handleDiscover
    | request => exact erase_handleRequest
    | release =>
      simp only [erase_bind, erase_lift]
      rfl
    | _ => rfl

theorem erase_anyOverlap (subnet : Subnet) (existing : List Subnet) :
    erase (anyOverlap subnet existing) = pure (existing.any fun e =>
      Ndhcpd.subnetsOverlap subnet.network subnet.netmask e.network e.netmask) := by
  induction existing with
  | nil => rfl
  | cons e rest ih =>
    rw [anyOverlap, subnetsOverlap, erase_ite_noting, ih, List.any_cons]
    cases Ndhcpd.subnetsOverlap subnet.network subnet.netmask e.network e.netmask <;> rfl

/-- **The creation of subnets**, without its notes. -/
theorem erase_createSubnet (subnet : Subnet) :
    erase (createSubnet subnet) = Api.createSubnet subnet := by
  refine (erase_ask_bind _ _).trans (bind_congr fun r => ?_)
  rcases r with e | existing
  · rfl
  · simp only [erase_bind, erase_anyOverlap, Program.pure_eq_done, Program.done_bind]
    split
    · rfl
    · refine (erase_ask_bind _ _).trans (bind_congr fun r => ?_)
      rcases r with e | id <;> rfl

end Erase

end Masks

end Ndhcpd
