import Ndhcpd.Db.Call

/-!
# The in-memory store

`InMemoryDatabase`, the implementation of the `Database` trait on vectors. It has no
constraints: nothing is unique, nothing refers to anything, and no call fails. Every record
keeps the id it is given from a counter; the counters start at one and only grow. A query
lists the records in the order in which they were added, and an update touches the first
record that matches.

Client names are compared after `str::to_lowercase`, the Unicode mapping of the standard
library. Nothing about it matters here, so it is a parameter of the store.
-/

namespace Ndhcpd

/-- A token of the in-memory store: id, name, hash and the flag. -/
structure MemoryToken where
  id : ℤ
  name : String
  tokenHash : String
  enabled : ℤ
deriving DecidableEq, Repr

/-- The in-memory database. The `next` fields are the ids to be given out next. -/
structure MemoryDb where
  subnets : List Subnet
  ranges : List DynamicRange
  staticIps : List StaticIP
  leases : List Lease
  iaPrefixes : List IAPrefix
  tokens : List MemoryToken
  nextSubnetId : ℤ
  nextRangeId : ℤ
  nextLeaseId : ℤ
  nextIaPrefixId : ℤ
  nextTokenId : ℤ
deriving DecidableEq, Repr

/-- Change the first element that satisfies `p`. -/
def updateFirst {α : Type} (p : α → Bool) (f : α → α) : List α → List α
  | [] => []
  | a :: rest => if p a then f a :: rest else a :: updateFirst p f rest

namespace MemoryDb

/-- `InMemoryDatabase::new`. -/
def new : MemoryDb := ⟨[], [], [], [], [], [], 1, 1, 1, 1, 1⟩

/-! ### Subnets -/

/-- Append the subnet under the next id. Nothing is checked. -/
def createSubnet (db : MemoryDb) (subnet : Subnet) : ℤ × MemoryDb :=
  let newId := db.nextSubnetId
  (newId, { db with
    subnets := db.subnets ++ [{ subnet with id := some newId }]
    nextSubnetId := newId + 1 })

/-- The first subnet with the id. -/
def getSubnet (db : MemoryDb) (id : ℤ) : Option Subnet := db.subnets.find? (·.id == some id)

/-- Replace the first subnet with the id, which it keeps. -/
def updateSubnet (db : MemoryDb) (id : ℤ) (subnet : Subnet) : MemoryDb :=
  { db with
    subnets := updateFirst (·.id == some id) (fun _ => { subnet with id := some id }) db.subnets }

/-- Remove the subnets with the id; what refers to them stays. -/
def deleteSubnet (db : MemoryDb) (id : ℤ) : MemoryDb :=
  { db with subnets := db.subnets.filter (·.id != some id) }

/-! ### Dynamic ranges -/

/-- Append the range under the next id. -/
def createRange (db : MemoryDb) (range : DynamicRange) : ℤ × MemoryDb :=
  let newId := db.nextRangeId
  (newId, { db with
    ranges := db.ranges ++ [{ range with id := some newId }]
    nextRangeId := newId + 1 })

/-- The ranges of a subnet, or all of them. -/
def listRanges (db : MemoryDb) : Option ℤ → List DynamicRange
  | some sid => db.ranges.filter (·.subnetId == sid)
  | none => db.ranges

/-- Remove the ranges with the id. -/
def deleteRange (db : MemoryDb) (id : ℤ) : MemoryDb :=
  { db with ranges := db.ranges.filter (·.id != some id) }

/-! ### Static assignments -/

/-- Append the assignment, whether or not there is one like it. -/
def createStaticIp (db : MemoryDb) (staticIp : StaticIP) : MemoryDb :=
  { db with staticIps := db.staticIps ++ [staticIp] }

/-- The assignments of a subnet, or all of them. -/
def listStaticIps (db : MemoryDb) : Option ℤ → List StaticIP
  | some sid => db.staticIps.filter (·.subnetId == sid)
  | none => db.staticIps

/-- The first assignment of the hardware address, up to case. -/
def getStaticIpByMac (toLowercase : String → String) (db : MemoryDb) (mac : String) :
    Option StaticIP :=
  db.staticIps.find? fun s => toLowercase s.macAddress == toLowercase mac

/-- Set the host name in the first assignment of the address. -/
def updateStaticIpHostname (db : MemoryDb) (ipAddress : String) (hostname : Option String) :
    MemoryDb :=
  { db with
    staticIps := updateFirst (fun s => s.ipAddress.toString == ipAddress)
      (fun s => { s with hostname := hostname }) db.staticIps }

/-- Remove the assignments of the address. -/
def deleteStaticIp (db : MemoryDb) (ipAddress : String) : MemoryDb :=
  { db with staticIps := db.staticIps.filter fun s => s.ipAddress.toString != ipAddress }

/-! ### Leases -/

/-- Append the lease under the next id. -/
def createLease (db : MemoryDb) (lease : Lease) : ℤ × MemoryDb :=
  let newId := db.nextLeaseId
  (newId, { db with
    leases := db.leases ++ [{ lease with id := some newId }]
    nextLeaseId := newId + 1 })

/-- The first lease of the hardware address, up to case, that has not ended. -/
def getActiveLease (toLowercase : String → String) (db : MemoryDb) (mac : String) (now : ℤ) :
    Option Lease :=
  db.leases.find? fun l =>
    toLowercase l.macAddress == toLowercase mac && decide (now < l.leaseEnd)

/-- The leases that have not ended. -/
def listActiveLeases (db : MemoryDb) (now : ℤ) : List Lease :=
  db.leases.filter fun l => decide (now < l.leaseEnd)

/-- Remove the leases with the id. -/
def expireLease (db : MemoryDb) (id : ℤ) : MemoryDb :=
  { db with leases := db.leases.filter (·.id != some id) }

/-- Remove the leases that ended before now, and count them. -/
def deleteExpiredLeases (db : MemoryDb) (now : ℤ) : ℕ × MemoryDb :=
  let kept := db.leases.filter fun l => decide (now ≤ l.leaseEnd)
  (db.leases.length - kept.length, { db with leases := kept })

/-! ### IPv6 prefixes -/

/-- Append the prefix under the next id. -/
def createIaPrefix (db : MemoryDb) (pfx : IAPrefix) : ℤ × MemoryDb :=
  let newId := db.nextIaPrefixId
  (newId, { db with
    iaPrefixes := db.iaPrefixes ++ [{ pfx with id := some newId }]
    nextIaPrefixId := newId + 1 })

/-- The first prefix with the id. -/
def getIaPrefix (db : MemoryDb) (id : ℤ) : Option IAPrefix :=
  db.iaPrefixes.find? (·.id == some id)

/-- The prefixes of an interface, or all of them. -/
def listIaPrefixes (db : MemoryDb) : Option String → List IAPrefix
  | some interface => db.iaPrefixes.filter (·.interface == interface)
  | none => db.iaPrefixes

/-- Replace the first prefix with the id, which it keeps. -/
def updateIaPrefix (db : MemoryDb) (id : ℤ) (pfx : IAPrefix) : MemoryDb :=
  { db with iaPrefixes :=
      updateFirst (·.id == some id) (fun _ => { pfx with id := some id }) db.iaPrefixes }

/-- Remove the prefixes with the id. -/
def deleteIaPrefix (db : MemoryDb) (id : ℤ) : MemoryDb :=
  { db with iaPrefixes := db.iaPrefixes.filter (·.id != some id) }

/-! ### API tokens -/

/-- The hashes of the enabled tokens. -/
def listTokens (db : MemoryDb) : List (String × ℤ) :=
  (db.tokens.filter (·.enabled == 1)).map fun t => (t.tokenHash, t.enabled)

/-- The tokens without their hashes; no times are kept. -/
def listApiTokens (db : MemoryDb) : List ApiToken :=
  db.tokens.map fun t => ⟨some t.id, t.name, none, none, t.enabled == 1⟩

/-- Append a token under the next id, enabled. The salt is not kept. -/
def createToken (db : MemoryDb) (name tokenHash : String) : ℤ × MemoryDb :=
  let newId := db.nextTokenId
  (newId, { db with
    tokens := db.tokens ++ [⟨newId, name, tokenHash, 1⟩]
    nextTokenId := newId + 1 })

/-- Remove the tokens with the id. -/
def deleteToken (db : MemoryDb) (id : ℤ) : MemoryDb :=
  { db with tokens := db.tokens.filter (·.id != id) }

/-- Enable or disable the first token with the id. -/
def toggleToken (db : MemoryDb) (id : ℤ) (enabled : Bool) : MemoryDb :=
  { db with
    tokens := updateFirst (·.id == id)
      (fun t => { t with enabled := if enabled then 1 else 0 }) db.tokens }

/-! ### All calls -/

/-- Answer a call of the `Database` trait at the clock reading `now`. -/
def exec (toLowercase : String → String) (now : ℤ) (db : MemoryDb) :
    (c : DbCall) → c.Result × MemoryDb
  | .createSubnet subnet => (.ok (db.createSubnet subnet).1, (db.createSubnet subnet).2)
  | .getSubnet id => (.ok (db.getSubnet id), db)
  | .listSubnets => (.ok db.subnets, db)
  | .updateSubnet id subnet => (.ok (), db.updateSubnet id subnet)
  | .deleteSubnet id => (.ok (), db.deleteSubnet id)
  | .createRange range => (.ok (db.createRange range).1, (db.createRange range).2)
  | .listRanges subnetId => (.ok (db.listRanges subnetId), db)
  | .deleteRange id => (.ok (), db.deleteRange id)
  | .createStaticIp staticIp => (.ok (), db.createStaticIp staticIp)
  | .listStaticIps subnetId => (.ok (db.listStaticIps subnetId), db)
  | .getStaticIpByMac mac => (.ok (db.getStaticIpByMac toLowercase mac), db)
  | .updateStaticIpHostname ip hostname => (.ok (), db.updateStaticIpHostname ip hostname)
  | .deleteStaticIp ip => (.ok (), db.deleteStaticIp ip)
  | .createLease lease => (.ok (db.createLease lease).1, (db.createLease lease).2)
  | .getActiveLease mac => (.ok (db.getActiveLease toLowercase mac now), db)
  | .listActiveLeases => (.ok (db.listActiveLeases now), db)
  | .expireLease id => (.ok (), db.expireLease id)
  | .deleteExpiredLeases =>
    (.ok (db.deleteExpiredLeases now).1, (db.deleteExpiredLeases now).2)
  | .createIaPrefix pfx => (.ok (db.createIaPrefix pfx).1, (db.createIaPrefix pfx).2)
  | .getIaPrefix id => (.ok (db.getIaPrefix id), db)
  | .listIaPrefixes interface => (.ok (db.listIaPrefixes interface), db)
  | .updateIaPrefix id pfx => (.ok (), db.updateIaPrefix id pfx)
  | .deleteIaPrefix id => (.ok (), db.deleteIaPrefix id)
  | .listTokens => (.ok db.listTokens, db)
  | .listApiTokens => (.ok db.listApiTokens, db)
  | .createToken name tokenHash _ =>
    (.ok (db.createToken name tokenHash).1, (db.createToken name tokenHash).2)
  | .deleteToken id => (.ok (), db.deleteToken id)
  | .toggleToken id enabled => (.ok (), db.toggleToken id enabled)
  | .updateTokenLastUsed _ => (.ok (), db)

end MemoryDb

end Ndhcpd
