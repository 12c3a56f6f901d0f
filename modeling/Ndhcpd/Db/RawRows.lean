import Ndhcpd.Db.Keys
import Ndhcpd.Proto.AddressText
import Mathlib.Logic.Function.Basic

/-!
# What SQLite stores

The store of `Db/Sqlite.lean` keeps rows of addresses and machine integers. The columns of the
real tables hold text and 64-bit integers: an address is bound as the text that `Display` writes
and read back with `parse().unwrap()`, a list of DNS servers goes through
`dns_servers_to_string` and `dns_servers_from_string`, and numbers are cast to `i64` and back.

Here are the tables with these columns, the same statements on them, and the reads as the source
has them: a read returns `none` if one of its `unwrap` calls fails. How IPv6 addresses are written
and parsed is a parameter.
-/

namespace Ndhcpd

/-! ### Columns -/

/-- A row of `subnets`, as stored. -/
structure RawSubnet where
  id : ℤ
  network : String
  netmask : ℤ
  gateway : String
  dnsServers : String
  domainName : Option String
deriving DecidableEq, Repr

/-- A row of `dynamic_ranges`, as stored. -/
structure RawRange where
  id : ℤ
  subnetId : ℤ
  rangeStart : String
  rangeEnd : String
  enabled : ℤ
deriving DecidableEq, Repr

/-- A row of `static_ips`, as stored. -/
structure RawStaticIp where
  ipAddress : String
  subnetId : ℤ
  macAddress : String
  hostname : Option String
deriving DecidableEq, Repr

/-- A row of `leases`, as stored. -/
structure RawLease where
  id : ℤ
  subnetId : ℤ
  macAddress : String
  ipAddress : String
  leaseStart : ℤ
  leaseEnd : ℤ
  hostname : Option String
deriving DecidableEq, Repr

/-- A row of `ia_prefixes`, as stored. -/
structure RawIaPrefix where
  id : ℤ
  interface : String
  pfx : String
  prefixLen : ℤ
  preferredLifetime : ℤ
  validLifetime : ℤ
  dnsServers : String
  dnsLifetime : ℤ
deriving DecidableEq, Repr

/-! ### Writing and reading a row -/

/-- The DNS servers of a subnet as one text. -/
def Subnet.dnsServersToString (s : Subnet) : String := joinTexts ipv4Text s.dnsServers

/-- The DNS servers in a text; what cannot be parsed is left out. -/
def Subnet.dnsServersFromString (text : String) : List Ipv4Addr := splitTexts ipv4Text text

/-- The values that an insertion or an update of a subnet binds. -/
def Subnet.toRaw (s : Subnet) (id : ℤ) : RawSubnet where
  id := id
  network := s.network.toString
  netmask := s.netmask.toNat
  gateway := s.gateway.toString
  dnsServers := s.dnsServersToString
  domainName := s.domainName

/-- The subnet in a row. -/
def RawSubnet.read (r : RawSubnet) : Option Subnet := do
  let network ← Ipv4Addr.fromStr r.network
  let gateway ← Ipv4Addr.fromStr r.gateway
  return ⟨some r.id, network, UInt8.ofInt r.netmask, gateway,
    Subnet.dnsServersFromString r.dnsServers, r.domainName⟩

/-- The values that an insertion of a range binds. -/
def DynamicRange.toRaw (r : DynamicRange) (id : ℤ) : RawRange where
  id := id
  subnetId := r.subnetId
  rangeStart := r.rangeStart.toString
  rangeEnd := r.rangeEnd.toString
  enabled := if r.enabled then 1 else 0

/-- The range in a row. -/
def RawRange.read (r : RawRange) : Option DynamicRange := do
  let rangeStart ← Ipv4Addr.fromStr r.rangeStart
  let rangeEnd ← Ipv4Addr.fromStr r.rangeEnd
  return ⟨some r.id, r.subnetId, rangeStart, rangeEnd, r.enabled != 0⟩

/-- The values that an insertion of a static assignment binds. -/
def StaticIP.toRaw (s : StaticIP) : RawStaticIp :=
  ⟨s.ipAddress.toString, s.subnetId, s.macAddress, s.hostname⟩

/-- The static assignment in a row. -/
def RawStaticIp.read (r : RawStaticIp) : Option StaticIP := do
  let ipAddress ← Ipv4Addr.fromStr r.ipAddress
  return ⟨r.subnetId, r.macAddress, ipAddress, r.hostname⟩

/-- The values that an insertion of a lease binds. -/
def Lease.toRaw (l : Lease) (id : ℤ) : RawLease :=
  ⟨id, l.subnetId, l.macAddress, l.ipAddress.toString, l.leaseStart, l.leaseEnd, l.hostname⟩

/-- The lease in a row. -/
def RawLease.read (r : RawLease) : Option Lease := do
  let ipAddress ← Ipv4Addr.fromStr r.ipAddress
  return ⟨some r.id, r.subnetId, r.macAddress, ipAddress, r.leaseStart, r.leaseEnd, r.hostname⟩

section Ipv6

variable (v6 : TextForm Ipv6Addr)

/-- The DNS servers of a prefix as one text. -/
def IAPrefix.dnsServersToString (p : IAPrefix) : String := joinTexts v6 p.dnsServers

/-- The DNS servers in a text; what cannot be parsed is left out. -/
def IAPrefix.dnsServersFromString (text : String) : List Ipv6Addr := splitTexts v6 text

/-- The values that an insertion or an update of a prefix binds. -/
def IAPrefix.toRaw (p : IAPrefix) (id : ℤ) : RawIaPrefix where
  id := id
  interface := p.interface
  pfx := v6.display p.pfx
  prefixLen := p.prefixLen.toNat
  preferredLifetime := p.preferredLifetime.toNat
  validLifetime := p.validLifetime.toNat
  dnsServers := p.dnsServersToString v6
  dnsLifetime := p.dnsLifetime.toNat

/-- The prefix in a row. -/
def RawIaPrefix.read (r : RawIaPrefix) : Option IAPrefix := do
  let pfx ← v6.fromStr r.pfx
  return ⟨some r.id, r.interface, pfx, UInt8.ofInt r.prefixLen, UInt32.ofInt r.preferredLifetime,
    UInt32.ofInt r.validLifetime, IAPrefix.dnsServersFromString v6 r.dnsServers,
    UInt32.ofInt r.dnsLifetime⟩

end Ipv6

/-! ### Statements -/

/-- The database as stored. Tokens have no addresses; their rows are those of the typed store. -/
structure RawDb where
  subnets : List RawSubnet
  dynamicRanges : List RawRange
  staticIps : List RawStaticIp
  leases : List RawLease
  iaPrefixes : List RawIaPrefix
  apiTokens : List TokenRow
  subnetSeq : ℤ
  rangeSeq : ℤ
  leaseSeq : ℤ
  iaPrefixSeq : ℤ
  tokenSeq : ℤ
deriving DecidableEq, Repr

/-- The orders in which the rows of each table are listed, and in which `get_active_lease` meets the
leases. -/
structure RawOrder where
  subnets : RowOrder RawSubnet
  ranges : RowOrder RawRange
  staticIps : RowOrder RawStaticIp
  leases : RowOrder RawLease
  activeLease : RowOrder RawLease
  iaPrefixes : RowOrder RawIaPrefix
  tokens : RowOrder TokenRow

namespace RawDb

/-- The database as the migrations leave it. -/
def empty : RawDb := ⟨[], [], [], [], [], [], 0, 0, 0, 0, 0⟩

variable (v6 : TextForm Ipv6Addr) (ord : RawOrder) (now : ℤ) (db : RawDb)

/-- There is a row for the subnet. -/
def hasSubnet (id : ℤ) : Bool := db.subnets.any (·.id == id)

/-- `INSERT INTO subnets`, under `UNIQUE(network, netmask)`. -/
def createSubnet (subnet : Subnet) : Except DbError ℤ × RawDb :=
  if db.subnets.any fun r =>
      r.network == subnet.network.toString && r.netmask == subnet.netmask.toNat then
    (.error .uniqueViolation, db)
  else
    let id := db.subnetSeq + 1
    (.ok id, { db with subnets := db.subnets ++ [subnet.toRaw id], subnetSeq := id })

/-- `SELECT … FROM subnets WHERE id = ?`. -/
def getSubnet (id : ℤ) : Option (Option Subnet) :=
  (db.subnets.find? (·.id == id)).mapM RawSubnet.read

/-- `SELECT … FROM subnets`. -/
def listSubnets : Option (List Subnet) := (ord.subnets.arrange db.subnets).mapM RawSubnet.read

/-- `UPDATE subnets SET … WHERE id = ?`. -/
def updateSubnet (id : ℤ) (subnet : Subnet) : Except DbError Unit × RawDb :=
  if db.hasSubnet id && db.subnets.any fun r =>
      r.id != id && r.network == subnet.network.toString && r.netmask == subnet.netmask.toNat then
    (.error .uniqueViolation, db)
  else
    (.ok (), { db with
      subnets := db.subnets.map fun r => if r.id == id then subnet.toRaw id else r })

/-- `DELETE FROM subnets WHERE id = ?`, with what refers to the subnet. -/
def deleteSubnet (id : ℤ) : RawDb :=
  { db with
    subnets := db.subnets.filter (·.id != id)
    dynamicRanges := db.dynamicRanges.filter (·.subnetId != id)
    staticIps := db.staticIps.filter (·.subnetId != id)
    leases := db.leases.filter (·.subnetId != id) }

/-- `INSERT INTO dynamic_ranges`. -/
def createRange (range : DynamicRange) : Except DbError ℤ × RawDb :=
  if db.hasSubnet range.subnetId then
    let id := db.rangeSeq + 1
    (.ok id, { db with dynamicRanges := db.dynamicRanges ++ [range.toRaw id], rangeSeq := id })
  else (.error .foreignKeyViolation, db)

/-- `SELECT … FROM dynamic_ranges`, for one subnet when one is given. -/
def listRanges (subnetId : Option ℤ) : Option (List DynamicRange) :=
  (ord.ranges.arrange (match subnetId with
    | some sid => db.dynamicRanges.filter (·.subnetId == sid)
    | none => db.dynamicRanges)).mapM RawRange.read

/-- `DELETE FROM dynamic_ranges WHERE id = ?`. -/
def deleteRange (id : ℤ) : RawDb :=
  { db with dynamicRanges := db.dynamicRanges.filter (·.id != id) }

/-- `INSERT INTO static_ips`, under the two uniqueness constraints. -/
def createStaticIp (staticIp : StaticIP) : Except DbError Unit × RawDb :=
  if db.staticIps.any fun s =>
      s.ipAddress == staticIp.ipAddress.toString || s.macAddress == staticIp.macAddress then
    (.error .uniqueViolation, db)
  else if db.hasSubnet staticIp.subnetId then
    (.ok (), { db with staticIps := db.staticIps ++ [staticIp.toRaw] })
  else (.error .foreignKeyViolation, db)

/-- `SELECT … FROM static_ips`, for one subnet when one is given. -/
def listStaticIps (subnetId : Option ℤ) : Option (List StaticIP) :=
  (ord.staticIps.arrange (match subnetId with
    | some sid => db.staticIps.filter (·.subnetId == sid)
    | none => db.staticIps)).mapM RawStaticIp.read

/-- `SELECT … FROM static_ips WHERE LOWER(mac_address) = LOWER(?)`. -/
def getStaticIpByMac (mac : String) : Option (Option StaticIP) :=
  (ord.staticIps.arrange
    (db.staticIps.filter fun s => s.macAddress.toLower == mac.toLower)).head?.mapM RawStaticIp.read

/-- `UPDATE static_ips SET hostname = ? WHERE ip_address = ?`. -/
def updateStaticIpHostname (ipAddress : String) (hostname : Option String) : RawDb :=
  { db with staticIps := db.staticIps.map fun s =>
      if s.ipAddress == ipAddress then { s with hostname := hostname } else s }

/-- `DELETE FROM static_ips WHERE ip_address = ?`. -/
def deleteStaticIp (ipAddress : String) : RawDb :=
  { db with staticIps := db.staticIps.filter fun s => s.ipAddress != ipAddress }

/-- `INSERT INTO leases`. -/
def createLease (lease : Lease) : Except DbError ℤ × RawDb :=
  if db.hasSubnet lease.subnetId then
    let id := db.leaseSeq + 1
    (.ok id, { db with leases := db.leases ++ [lease.toRaw id], leaseSeq := id })
  else (.error .foreignKeyViolation, db)

/-- The lease of the hardware address that has not ended, the one that ends last. -/
def getActiveLease (mac : String) : Option (Option Lease) :=
  ((ord.activeLease.arrange (db.leases.filter fun l =>
      l.macAddress.toLower == mac.toLower && decide (now < l.leaseEnd))).maxOn?
    (·.leaseEnd)).mapM RawLease.read

/-- The leases that have not ended. -/
def listActiveLeases : Option (List Lease) :=
  (ord.leases.arrange (db.leases.filter fun l => decide (now < l.leaseEnd))).mapM RawLease.read

/-- `DELETE FROM leases WHERE id = ?`. -/
def expireLease (id : ℤ) : RawDb := { db with leases := db.leases.filter (·.id != id) }

/-- `DELETE FROM leases WHERE lease_end < ?`, and how many there were. -/
def deleteExpiredLeases : ℕ × RawDb :=
  (db.leases.countP fun l => decide (l.leaseEnd < now),
    { db with leases := db.leases.filter fun l => decide (now ≤ l.leaseEnd) })

/-- `INSERT INTO ia_prefixes`. -/
def createIaPrefix (pfx : IAPrefix) : ℤ × RawDb :=
  let id := db.iaPrefixSeq + 1
  (id, { db with iaPrefixes := db.iaPrefixes ++ [pfx.toRaw v6 id], iaPrefixSeq := id })

/-- `SELECT … FROM ia_prefixes WHERE id = ?`. -/
def getIaPrefix (id : ℤ) : Option (Option IAPrefix) :=
  (db.iaPrefixes.find? (·.id == id)).mapM (RawIaPrefix.read v6)

/-- `SELECT … FROM ia_prefixes`, for one interface when one is given. -/
def listIaPrefixes (interface : Option String) : Option (List IAPrefix) :=
  (ord.iaPrefixes.arrange (match interface with
    | some i => db.iaPrefixes.filter (·.interface == i)
    | none => db.iaPrefixes)).mapM (RawIaPrefix.read v6)

/-- `UPDATE ia_prefixes SET … WHERE id = ?`. -/
def updateIaPrefix (id : ℤ) (pfx : IAPrefix) : RawDb :=
  { db with iaPrefixes := db.iaPrefixes.map fun r => if r.id == id then pfx.toRaw v6 id else r }

/-- `DELETE FROM ia_prefixes WHERE id = ?`. -/
def deleteIaPrefix (id : ℤ) : RawDb :=
  { db with iaPrefixes := db.iaPrefixes.filter (·.id != id) }

/-- The tokens, as a database of their own. -/
def tokens : SqliteDb := { SqliteDb.empty with apiTokens := db.apiTokens, tokenSeq := db.tokenSeq }

/-- The database with other tokens. -/
def withTokens (tokens : SqliteDb) : RawDb :=
  { db with apiTokens := tokens.apiTokens, tokenSeq := tokens.tokenSeq }

/-- A statement on the tokens. -/
def execTokens (c : DbCall) : Option c.Result × RawDb :=
  let out := SqliteDb.exec { ScanOrder.rowid with tokens := ord.tokens } now db.tokens c
  (some out.1, db.withTokens out.2)

/-- Answer a call of the `Database` trait at the clock reading `now`: `none` if an `unwrap`
fails. -/
def exec : (c : DbCall) → Option c.Result × RawDb
  | .createSubnet subnet => ((db.createSubnet subnet).map some id)
  | .getSubnet id => ((db.getSubnet id).map .ok, db)
  | .listSubnets => ((db.listSubnets ord).map .ok, db)
  | .updateSubnet sid subnet => ((db.updateSubnet sid subnet).map some id)
  | .deleteSubnet id => (some (.ok ()), db.deleteSubnet id)
  | .createRange range => ((db.createRange range).map some id)
  | .listRanges subnetId => ((db.listRanges ord subnetId).map .ok, db)
  | .deleteRange id => (some (.ok ()), db.deleteRange id)
  | .createStaticIp staticIp => ((db.createStaticIp staticIp).map some id)
  | .listStaticIps subnetId => ((db.listStaticIps ord subnetId).map .ok, db)
  | .getStaticIpByMac mac => ((db.getStaticIpByMac ord mac).map .ok, db)
  | .updateStaticIpHostname ip hostname =>
    (some (.ok ()), db.updateStaticIpHostname ip hostname)
  | .deleteStaticIp ip => (some (.ok ()), db.deleteStaticIp ip)
  | .createLease lease => ((db.createLease lease).map some id)
  | .getActiveLease mac => ((db.getActiveLease ord now mac).map .ok, db)
  | .listActiveLeases => ((db.listActiveLeases ord now).map .ok, db)
  | .expireLease id => (some (.ok ()), db.expireLease id)
  | .deleteExpiredLeases =>
    (some (.ok (db.deleteExpiredLeases now).1), (db.deleteExpiredLeases now).2)
  | .createIaPrefix pfx => (some (.ok (db.createIaPrefix v6 pfx).1), (db.createIaPrefix v6 pfx).2)
  | .getIaPrefix id => ((db.getIaPrefix v6 id).map .ok, db)
  | .listIaPrefixes interface => ((db.listIaPrefixes v6 ord interface).map .ok, db)
  | .updateIaPrefix id pfx => (some (.ok ()), db.updateIaPrefix v6 id pfx)
  | .deleteIaPrefix id => (some (.ok ()), db.deleteIaPrefix id)
  | .listTokens => db.execTokens ord now .listTokens
  | .listApiTokens => db.execTokens ord now .listApiTokens
  | .createToken name tokenHash salt => db.execTokens ord now (.createToken name tokenHash salt)
  | .deleteToken id => db.execTokens ord now (.deleteToken id)
  | .toggleToken id enabled => db.execTokens ord now (.toggleToken id enabled)
  | .updateTokenLastUsed tokenHash => db.execTokens ord now (.updateTokenLastUsed tokenHash)

end RawDb

/-! ### Rows and their encoding -/

theorem uInt8_ofInt_toNat (x : UInt8) : UInt8.ofInt (x.toNat : ℤ) = x := by
  have hx := x.toNat_lt
  have hmod : ((x.toNat : ℤ) % 2 ^ 8).toNat = x.toNat := by omega
  rw [UInt8.ofInt, hmod, UInt8.ofNat_toNat]

theorem uInt32_ofInt_toNat (x : UInt32) : UInt32.ofInt (x.toNat : ℤ) = x := by
  have hx := x.toNat_lt
  have hmod : ((x.toNat : ℤ) % 2 ^ 32).toNat = x.toNat := by omega
  rw [UInt32.ofInt, hmod, UInt32.ofNat_toNat]

/-- A subnet is read as it was written, under the id of the row. -/
theorem Subnet.read_toRaw (s : Subnet) (id : ℤ) :
    (s.toRaw id).read = some { s with id := some id } := by
  simp only [RawSubnet.read, Subnet.toRaw, Ipv4Addr.fromStr_toString, uInt8_ofInt_toNat,
    Subnet.dnsServersFromString, Subnet.dnsServersToString, splitTexts_joinTexts]
  rfl

theorem DynamicRange.read_toRaw (r : DynamicRange) (id : ℤ) :
    (r.toRaw id).read = some { r with id := some id } := by
  have henabled : ((if r.enabled then (1 : ℤ) else 0) != 0) = r.enabled := by
    cases r.enabled <;> rfl
  simp only [RawRange.read, DynamicRange.toRaw, Ipv4Addr.fromStr_toString, henabled]
  rfl

theorem StaticIP.read_toRaw (s : StaticIP) : s.toRaw.read = some s := by
  simp only [RawStaticIp.read, StaticIP.toRaw, Ipv4Addr.fromStr_toString]
  rfl

theorem Lease.read_toRaw (l : Lease) (id : ℤ) :
    (l.toRaw id).read = some { l with id := some id } := by
  simp only [RawLease.read, Lease.toRaw, Ipv4Addr.fromStr_toString]
  rfl

/-- A prefix is read as it was written, under the id of the row. -/
theorem IAPrefix.read_toRaw (v6 : TextForm Ipv6Addr) (p : IAPrefix) (id : ℤ) :
    (p.toRaw v6 id).read v6 = some { p with id := some id } := by
  simp only [RawIaPrefix.read, IAPrefix.toRaw, v6.fromStr_display, uInt8_ofInt_toNat,
    uInt32_ofInt_toNat, IAPrefix.dnsServersFromString, IAPrefix.dnsServersToString,
    splitTexts_joinTexts]
  rfl

/-- The encoding of a row of subnets. -/
def SubnetRow.toRaw (r : SubnetRow) : RawSubnet := r.toSubnet.toRaw r.id

/-- The encoding of a row of ranges. -/
def RangeRow.toRaw (r : RangeRow) : RawRange := r.toRange.toRaw r.id

/-- The encoding of a row of leases. -/
def LeaseRow.toRaw (r : LeaseRow) : RawLease := r.toLease.toRaw r.id

/-- The encoding of a row of prefixes. -/
def IaPrefixRow.toRaw (v6 : TextForm Ipv6Addr) (r : IaPrefixRow) : RawIaPrefix :=
  r.toIaPrefix.toRaw v6 r.id

/-- The encoding of a database. -/
def SqliteDb.toRaw (v6 : TextForm Ipv6Addr) (db : SqliteDb) : RawDb where
  subnets := db.subnets.map SubnetRow.toRaw
  dynamicRanges := db.dynamicRanges.map RangeRow.toRaw
  staticIps := db.staticIps.map StaticIP.toRaw
  leases := db.leases.map LeaseRow.toRaw
  iaPrefixes := db.iaPrefixes.map (IaPrefixRow.toRaw v6)
  apiTokens := db.apiTokens
  subnetSeq := db.subnetSeq
  rangeSeq := db.rangeSeq
  leaseSeq := db.leaseSeq
  iaPrefixSeq := db.iaPrefixSeq
  tokenSeq := db.tokenSeq

end Ndhcpd
