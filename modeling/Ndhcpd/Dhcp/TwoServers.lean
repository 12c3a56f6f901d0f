import Ndhcpd.Dhcp.RequestSpec
import Mathlib.Logic.Function.Basic

/-!
# Two servers on one link

Two instances of the server, each with a database of its own, receive the broadcasts of the same
clients. A client that was offered addresses by both names the server of its choice in the server
identifier of its REQUEST. The servers put the identifier into their replies, but none of them
looks at the one in a REQUEST: `handleRequest_withoutServerIdentifier` says that the option has no
part in how a REQUEST is handled. Which of the servers answer is decided by their databases, each
for itself.

`answers_by_own_database` is about every interleaving of what the two instances do.
-/

namespace Ndhcpd

/-! ### The server identifier of a packet -/

/-- Is the option a server identifier? -/
def DhcpOption.isServerIdentifier : DhcpOption → Bool
  | serverIdentifier _ => true
  | _ => false

/-- The packet without its server identifier. -/
def DhcpPacket.withoutServerIdentifier (packet : DhcpPacket) : DhcpPacket :=
  { packet with options := packet.options.filter fun o => !o.isServerIdentifier }

section Unread

/-- A search that passes over some elements may as well do without them. -/
theorem findSome?_filter {α β : Type} {p : α → Bool} {f : α → Option β}
    (h : ∀ a, p a = false → f a = none) (l : List α) :
    (l.filter p).findSome? f = l.findSome? f := by
  induction l with
  | nil => rfl
  | cons a l ih =>
    cases hp : p a with
    | true => rw [List.filter_cons_of_pos hp, List.findSome?_cons, List.findSome?_cons, ih]
    | false =>
      rw [List.filter_cons_of_neg (by simp [hp]), List.findSome?_cons, h a hp, ih]

variable (packet : DhcpPacket)

theorem findSome?_withoutServerIdentifier {α : Type} {f : DhcpOption → Option α}
    (h : ∀ addr, f (.serverIdentifier addr) = none) :
    packet.withoutServerIdentifier.options.findSome? f = packet.options.findSome? f := by
  refine findSome?_filter (fun o ho => ?_) packet.options
  cases o with
  | serverIdentifier addr => exact h addr
  | _ => cases ho

/-- The message type, the requested address and the hostname are found without it. -/
theorem getMessageType_withoutServerIdentifier :
    packet.withoutServerIdentifier.getMessageType = packet.getMessageType :=
  findSome?_withoutServerIdentifier packet fun _ => rfl

theorem requestedIp_withoutServerIdentifier :
    requestedIp packet.withoutServerIdentifier = requestedIp packet :=
  congrArg (Option.or · _) (findSome?_withoutServerIdentifier packet fun _ => rfl)

theorem requestHostname_withoutServerIdentifier :
    requestHostname packet.withoutServerIdentifier = requestHostname packet :=
  findSome?_withoutServerIdentifier packet fun _ => rfl

variable (ifaceIps : List Ipv4Addr) (config : DhcpConfig)

/-- A grant depends on the packet through the lease and the acknowledgement only. -/
private def grantWith (lease : ℤ → Lease) (ack : DhcpPacket) :
    ServerProgram (Option DhcpPacket) := do
  let now ← utcNow
  match ← dbCall (.createLease (lease now)) with
  | .error _ => return none
  | .ok _ => return some ack

private theorem grantLease_eq_grantWith (ip : Ipv4Addr) (range : DynamicRange) (subnet : Subnet) :
    grantLease packet config ip range subnet =
      grantWith (newLease packet config ip range) (createAck packet ip subnet config) := by
  refine bind_congr fun now => bind_congr fun r => ?_
  cases r <;> rfl

/-- **The server identifier is not read.** -/
theorem handleRequest_withoutServerIdentifier :
    handleRequest packet.withoutServerIdentifier ifaceIps config =
      handleRequest packet ifaceIps config := by
  have hplan : planRequest packet.withoutServerIdentifier ifaceIps =
      planRequest packet ifaceIps := by
    rw [planRequest, planRequest, requestedIp_withoutServerIdentifier]
    cases requestedIp packet with
    | none => rfl
    | some ip =>
      refine bind_congr fun r => ?_
      rcases r with e | _ | staticIp <;> rfl
  have hnew : ∀ ip range, newLease packet.withoutServerIdentifier config ip range =
      newLease packet config ip range := by
    intro ip range
    funext now
    rw [newLease, requestHostname_withoutServerIdentifier]
    rfl
  have hcarry : RequestPlan.carryOut packet.withoutServerIdentifier config =
      RequestPlan.carryOut packet config := by
    funext plan
    cases plan with
    | refuse => rfl
    | confirm ip subnet => rfl
    | grant ip range subnet old =>
      cases old with
      | none =>
        rw [RequestPlan.carryOut, RequestPlan.carryOut, grantLease_eq_grantWith,
          grantLease_eq_grantWith, hnew]
        rfl
      | some id =>
        rw [RequestPlan.carryOut, RequestPlan.carryOut, grantLease_eq_grantWith,
          grantLease_eq_grantWith, hnew]
        rfl
  rw [handleRequest_eq, handleRequest_eq, hplan, hcarry]

end Unread

/-! ### What a REQUEST can lead to -/

/-- The REQUEST had an effect: it was answered, or a lease was recorded for it. -/
def TakesEffect (leases : List LeaseRow)
    (out : Program.Outcome (Option DhcpPacket) (World SqliteDb) Fate) : Prop :=
  out.value ≠ none ∨ ∃ l ∈ out.state.db.leases, l ∉ leases

/-- The database serves the address to the client via the interface: by the static assignment of
the client, or by an enabled range. -/
def InService (db : SqliteDb) (ifaceIps : List Ipv4Addr) (mac : MacAddress) (ip : Ipv4Addr) :
    Prop :=
  (∃ s ∈ db.staticIps, s.macAddress.toLower = mac.toString ∧ s.ipAddress = ip ∧
    (db.getSubnet s.subnetId).any (ifaceInSubnet ifaceIps) = true) ∨
  ∃ r ∈ db.dynamicRanges, r.enabled = true ∧ r.toRange.covers ip = true ∧
    (db.getSubnet r.subnetId).any (ifaceInSubnet ifaceIps) = true

section Effect

variable {ord : ScanOrder} {config : DhcpConfig} {w : World SqliteDb} {packet : DhcpPacket}
  {ifaceIps : List Ipv4Addr} {fates : ℕ → Fate}

/-- **Only served addresses.** Whatever calls fail, a REQUEST has an effect only if the database
serves the address that is asked for. -/
theorem inService_of_takesEffect
    (h : TakesEffect w.db.leases ((handleRequest packet ifaceIps config).run
      (serve (SqliteDb.exec ord)) fates w)) :
    ∃ ip, requestedIp packet = some ip ∧ InService w.db ifaceIps packet.chaddr ip := by
  rw [handleRequest_eq, Program.run_bind] at h
  cases hplan : ((planRequest packet ifaceIps).run (serve (SqliteDb.exec ord)) fates w).value with
  | refuse =>
    have hdb := (@planRequest_run_state ord w packet ifaceIps fates).1
    rw [hplan, RequestPlan.carryOut, Program.pure_eq_done, Program.run_done] at h
    rcases h with hreply | ⟨l, hl, hnew⟩
    · exact absurd rfl hreply
    · rw [hdb] at hl
      exact absurd hl hnew
  | confirm ip subnet =>
    obtain ⟨staticIp, hip, hstatic, haddress, hsubnet, hiface⟩ := static_of_confirm hplan
    obtain ⟨hmem, hmac⟩ := SqliteDb.of_getStaticIpByMac hstatic
    rw [requestMac_eq, MacAddress.toLower_toString] at hmac
    exact ⟨ip, hip, .inl ⟨staticIp, hmem, hmac, haddress, by rw [hsubnet]; exact hiface⟩⟩
  | grant ip range subnet old =>
    obtain ⟨i, hreach⟩ := reaches_of_grant hplan
    obtain ⟨row, hrow, rfl, henabled, hcovers⟩ := hreach.covered
    have hsubnet : w.db.getSubnet row.subnetId = some subnet := hreach.subnet
    refine ⟨ip, hreach.requested, .inr ⟨row, hrow, henabled, hcovers, ?_⟩⟩
    rw [hsubnet]
    exact hreach.reachable

end Effect

/-! ### The two servers -/

/-- The two instances. -/
inductive Instance
  | first | second
deriving DecidableEq, Repr

/-- What an instance was started with. -/
structure Setup where
  ord : ScanOrder
  config : DhcpConfig

/-- Something happens at one instance: it handles a packet, another of its tasks calls its
database, or time passes. -/
def linkStep (setups : Instance → Setup) (worlds : Instance → World SqliteDb)
    (event : Instance × Op) : Instance → World SqliteDb :=
  Function.update worlds event.1
    (event.2.step (setups event.1).ord (setups event.1).config (worlds event.1))

/-- **Each server answers by its own database.** After any interleaving of what happens at the
two instances, let one of them handle a REQUEST, whichever server it names.

* It handles it like the same REQUEST without the server identifier.
* The REQUEST has an effect only if the database of the instance serves the address.
* If the database is well kept and no call fails, it is acknowledged exactly if the address is
  reserved for the client or leasable there. -/
theorem answers_by_own_database (setups : Instance → Setup) (worlds : Instance → World SqliteDb)
    (events : List (Instance × Op)) (i : Instance) (packet : DhcpPacket)
    (hrequest : packet.getMessageType = some .request) (ifaceIps : List Ipv4Addr)
    (fates : ℕ → Fate) :
    let w := Run.after (linkStep setups) worlds events i
    let handle := fun (p : DhcpPacket) (fates : ℕ → Fate) =>
      (handlePacket p ifaceIps (setups i).config).run (serve (SqliteDb.exec (setups i).ord)) fates w
    handle packet fates = handle packet.withoutServerIdentifier fates ∧
    (TakesEffect w.db.leases (handle packet fates) →
      ∃ ip, requestedIp packet = some ip ∧ InService w.db ifaceIps packet.chaddr ip) ∧
    (WellKept w.db w.clock → ∀ ip, (∃ ack, (handle packet calmly).value = some ack ∧
        ack.getMessageType = some .ack ∧ ack.yiaddr = ip) ↔
      requestedIp packet = some ip ∧ (Reserved w.db ifaceIps packet.chaddr ip ∨
        Leasable w.db w.clock ifaceIps packet.chaddr ip)) := by
  intro w handle
  have hhandle : ∀ fates, handle packet fates = (handleRequest packet ifaceIps (setups i).config).run
      (serve (SqliteDb.exec (setups i).ord)) fates w := by
    intro fates
    simp only [handle, handlePacket, hrequest]
  refine ⟨?_, ?_, ?_⟩
  · simp only [handle, handlePacket, getMessageType_withoutServerIdentifier, hrequest,
      handleRequest_withoutServerIdentifier]
  · intro heffect
    rw [hhandle] at heffect
    exact inService_of_takesEffect heffect
  · intro hkept ip
    rw [hhandle, handleRequest_calmly_eq]
    exact hkept.acknowledges_iff (setups i).config

namespace Sample

/-- A second server on the link of the sample network: the same range behind another gateway. -/
def sharing : SqliteDb :=
  { db with subnets := [⟨1, .new 10 0 0 0, 24, .new 10 0 0 2, [.new 10 0 0 2], none⟩] }

/-- A second server with a range of its own. -/
def dividing : SqliteDb :=
  { sharing with dynamicRanges := [⟨1, 1, .new 10 0 0 30, .new 10 0 0 40, true⟩] }

/-- Two servers, of which the first one has the sample network. -/
def link (other : SqliteDb) : Instance → World SqliteDb
  | .first => world
  | .second => ⟨other, 0⟩

/-- Both are started in the same way. -/
def setups (_ : Instance) : Setup := ⟨.rowid, config⟩

/-- Alice asks for an address and names the first server. -/
def selection : DhcpPacket :=
  message .request alice [.requestedIpAddress (.new 10 0 0 10), .serverIdentifier (.new 10 0 0 1)]

/-- Both servers get the DISCOVER, and the first one gets the REQUEST. -/
def conversation : List (Instance × Op) :=
  [(.first, .packet ⟨discover alice, iface⟩ calmly),
    (.second, .packet ⟨discover alice, [.new 10 0 0 2]⟩ calmly),
    (.first, .packet ⟨selection, iface⟩ calmly)]

end Sample

/-- A second server with a range of its own does nothing when it gets the REQUEST. -/
theorem answers_by_own_database_dividing :
    Sample.selection.getMessageType = some .request ∧
    ¬ TakesEffect [] ((handlePacket Sample.selection [.new 10 0 0 2] Sample.config).run
      (serve (SqliteDb.exec .rowid)) calmly
      (Run.after (linkStep Sample.setups) (Sample.link Sample.dividing) Sample.conversation
        .second)) := by
  refine ⟨rfl, fun heffect => ?_⟩
  obtain ⟨ip, hip, hstatic | ⟨r, hr, -, hcovers, -⟩⟩ := (answers_by_own_database Sample.setups
    (Sample.link Sample.dividing) Sample.conversation .second Sample.selection rfl
    [.new 10 0 0 2] calmly).2.1 heffect
  · obtain ⟨s, hs, -⟩ := hstatic
    cases hs
  · obtain rfl := Option.some.inj hip
    obtain rfl := List.mem_singleton.mp hr
    exact absurd hcovers (by decide)

/-- The first server offers an address and Alice asks for it, naming that server; the second one,
which has the address in a range as well, leases it and acknowledges. -/
theorem other_server_acknowledges :
    let offer := ((handlePacket (Sample.discover Sample.alice) Sample.iface Sample.config).run
      (serve (SqliteDb.exec .rowid)) calmly Sample.world).value
    let w := Run.after (linkStep Sample.setups) (Sample.link Sample.sharing) Sample.conversation
      .second
    let out := (handlePacket Sample.selection [.new 10 0 0 2] Sample.config).run
      (serve (SqliteDb.exec .rowid)) calmly w
    offer = some (createOffer (Sample.discover Sample.alice) (.new 10 0 0 10)
      Sample.subnet.toSubnet Sample.config) ∧
    .serverIdentifier Sample.subnet.gateway ∈ Sample.selection.options ∧
    ¬ out.value = none ∧ ¬ out.state.db.leases = w.db.leases := by
  exact ⟨by decide +kernel, by decide, by decide +kernel, by decide +kernel⟩

end Ndhcpd
