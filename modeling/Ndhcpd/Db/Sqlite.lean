import Ndhcpd.Db.Call
import Mathlib.Data.List.Perm.Basic

/-!
# The SQLite store

The tables the migrations create and the statements `SqliteDatabase` issues against them.
A table is the list of its rows in the order of their row ids; each `AUTOINCREMENT` counter
(`sqlite_sequence`) is a field of its own, so that an id is never given out twice. The
constraints of the schema are part of the statements: `UNIQUE(network, netmask)` on subnets,
the primary key and `UNIQUE(mac_address)` on static assignments (compared byte by byte),
and the foreign keys to `subnets` with their cascade.
Addresses, and lists of them, are written as text and parsed back when a row is read; a row here
holds the addresses themselves.

SQL leaves the order of a result without `ORDER BY` open, and so does the model: a
`ScanOrder` says for each table how the rows of a result are arranged, as an arbitrary
permutation. `ORDER BY lease_end DESC LIMIT 1` then picks the first row of maximal end in
the arranged result, which makes the choice between ties arbitrary too. `LOWER` folds ASCII
letters only, like `String.toLower`.

`exec_sameTable` is the frame rule of the store: a statement leaves the tables alone that it
does not write. `exec_leases` is the inversion lemma with respect to the lease table: it lists
everything a statement can do to it; ranges and static assignments have one of their own.
-/

namespace Ndhcpd

/-! ### Tables -/

/-- A row of `subnets`. -/
structure SubnetRow where
  id : ℤ
  network : Ipv4Addr
  netmask : UInt8
  gateway : Ipv4Addr
  dnsServers : List Ipv4Addr
  domainName : Option String
deriving DecidableEq, Repr

/-- A row of `dynamic_ranges`. -/
structure RangeRow where
  id : ℤ
  subnetId : ℤ
  rangeStart : Ipv4Addr
  rangeEnd : Ipv4Addr
  enabled : Bool
deriving DecidableEq, Repr

/-- A row of `leases`. -/
structure LeaseRow where
  id : ℤ
  subnetId : ℤ
  macAddress : String
  ipAddress : Ipv4Addr
  leaseStart : ℤ
  leaseEnd : ℤ
  hostname : Option String
deriving DecidableEq, Repr

/-- A row of `ia_prefixes`. -/
structure IaPrefixRow where
  id : ℤ
  interface : String
  pfx : Ipv6Addr
  prefixLen : UInt8
  preferredLifetime : UInt32
  validLifetime : UInt32
  dnsServers : List Ipv6Addr
  dnsLifetime : UInt32
deriving DecidableEq, Repr

/-- A row of `api_tokens`. -/
structure TokenRow where
  id : ℤ
  name : String
  tokenHash : String
  salt : String
  createdAt : ℤ
  lastUsedAt : Option ℤ
  enabled : ℤ
deriving DecidableEq, Repr

/-- The subnet a row is read as. -/
def SubnetRow.toSubnet (r : SubnetRow) : Subnet :=
  ⟨some r.id, r.network, r.netmask, r.gateway, r.dnsServers, r.domainName⟩

/-- The row a subnet is written as. -/
def Subnet.toRow (s : Subnet) (id : ℤ) : SubnetRow :=
  ⟨id, s.network, s.netmask, s.gateway, s.dnsServers, s.domainName⟩

/-- The range a row is read as. -/
def RangeRow.toRange (r : RangeRow) : DynamicRange :=
  ⟨some r.id, r.subnetId, r.rangeStart, r.rangeEnd, r.enabled⟩

/-- The row a range is written as. -/
def DynamicRange.toRow (r : DynamicRange) (id : ℤ) : RangeRow :=
  ⟨id, r.subnetId, r.rangeStart, r.rangeEnd, r.enabled⟩

/-- The lease a row is read as. -/
def LeaseRow.toLease (r : LeaseRow) : Lease :=
  ⟨some r.id, r.subnetId, r.macAddress, r.ipAddress, r.leaseStart, r.leaseEnd, r.hostname⟩

/-- The row a lease is written as. -/
def Lease.toRow (l : Lease) (id : ℤ) : LeaseRow :=
  ⟨id, l.subnetId, l.macAddress, l.ipAddress, l.leaseStart, l.leaseEnd, l.hostname⟩

/-- The prefix a row is read as. -/
def IaPrefixRow.toIaPrefix (r : IaPrefixRow) : IAPrefix :=
  ⟨some r.id, r.interface, r.pfx, r.prefixLen, r.preferredLifetime, r.validLifetime,
    r.dnsServers, r.dnsLifetime⟩

/-- The row a prefix is written as. -/
def IAPrefix.toRow (p : IAPrefix) (id : ℤ) : IaPrefixRow :=
  ⟨id, p.interface, p.pfx, p.prefixLen, p.preferredLifetime, p.validLifetime, p.dnsServers,
    p.dnsLifetime⟩

/-- The token a row is listed as. -/
def TokenRow.toApiToken (r : TokenRow) : ApiToken :=
  ⟨some r.id, r.name, some r.createdAt, r.lastUsedAt, r.enabled != 0⟩

/-- The whole database. The `Seq` fields are the largest ids ever given out. -/
structure SqliteDb where
  subnets : List SubnetRow
  dynamicRanges : List RangeRow
  staticIps : List StaticIP
  leases : List LeaseRow
  iaPrefixes : List IaPrefixRow
  apiTokens : List TokenRow
  subnetSeq : ℤ
  rangeSeq : ℤ
  leaseSeq : ℤ
  iaPrefixSeq : ℤ
  tokenSeq : ℤ
deriving DecidableEq, Repr

/-- The database as the migrations leave it. -/
def SqliteDb.empty : SqliteDb := ⟨[], [], [], [], [], [], 0, 0, 0, 0, 0⟩

/-! ### The order of results -/

/-- An order in which a query lists its rows: some permutation of them. -/
structure RowOrder (α : Type) where
  arrange : List α → List α
  perm : ∀ rows, (arrange rows).Perm rows

namespace RowOrder

variable {α : Type} (o : RowOrder α)

/-- The order of the row ids. -/
protected def id : RowOrder α := ⟨fun rows => rows, fun _ => List.Perm.refl _⟩

/-- The opposite order. -/
protected def reverse : RowOrder α := ⟨List.reverse, List.reverse_perm⟩

@[simp] theorem mem_arrange {rows : List α} {a : α} : a ∈ o.arrange rows ↔ a ∈ rows :=
  (o.perm rows).mem_iff

end RowOrder

/-- The orders in which the queries of the store list the rows of each table. `activeLease` is the
order in which `get_active_lease` comes upon leases; it takes the first of those that end last. -/
structure ScanOrder where
  subnets : RowOrder SubnetRow
  ranges : RowOrder RangeRow
  staticIps : RowOrder StaticIP
  leases : RowOrder LeaseRow
  activeLease : RowOrder LeaseRow
  iaPrefixes : RowOrder IaPrefixRow
  tokens : RowOrder TokenRow

/-- Every table is scanned by row id, and the index on the ends of leases backwards. -/
def ScanOrder.rowid : ScanOrder := ⟨.id, .id, .id, .id, .reverse, .id, .id⟩

namespace SqliteDb

/-! ### Subnets -/

/-- Does a subnet with this id exist? The foreign keys refer to this. -/
def hasSubnet (db : SqliteDb) (id : ℤ) : Bool := db.subnets.any (·.id == id)

/-- `INSERT INTO subnets`, under `UNIQUE(network, netmask)`. -/
def createSubnet (db : SqliteDb) (subnet : Subnet) : Except DbError ℤ × SqliteDb :=
  if db.subnets.any fun r => r.network == subnet.network && r.netmask == subnet.netmask then
    (.error .uniqueViolation, db)
  else
    let id := db.subnetSeq + 1
    (.ok id, { db with subnets := db.subnets ++ [subnet.toRow id], subnetSeq := id })

/-- `SELECT … FROM subnets WHERE id = ?`. -/
def getSubnet (db : SqliteDb) (id : ℤ) : Option Subnet :=
  (db.subnets.find? (·.id == id)).map SubnetRow.toSubnet

/-- `SELECT … FROM subnets`. -/
def listSubnets (ord : ScanOrder) (db : SqliteDb) : List Subnet :=
  (ord.subnets.arrange db.subnets).map SubnetRow.toSubnet

/-- `UPDATE subnets SET … WHERE id = ?`, under `UNIQUE(network, netmask)`. No row with the
id is not an error. -/
def updateSubnet (db : SqliteDb) (id : ℤ) (subnet : Subnet) : Except DbError Unit × SqliteDb :=
  if db.hasSubnet id && db.subnets.any fun r =>
      r.id != id && r.network == subnet.network && r.netmask == subnet.netmask then
    (.error .uniqueViolation, db)
  else
    (.ok (), { db with
      subnets := db.subnets.map fun r => if r.id == id then subnet.toRow id else r })

/-- `DELETE FROM subnets WHERE id = ?`, with the cascade to ranges, static assignments and
leases. -/
def deleteSubnet (db : SqliteDb) (id : ℤ) : SqliteDb :=
  { db with
    subnets := db.subnets.filter (·.id != id)
    dynamicRanges := db.dynamicRanges.filter (·.subnetId != id)
    staticIps := db.staticIps.filter (·.subnetId != id)
    leases := db.leases.filter (·.subnetId != id) }

/-! ### Dynamic ranges -/

/-- `INSERT INTO dynamic_ranges`. -/
def createRange (db : SqliteDb) (range : DynamicRange) : Except DbError ℤ × SqliteDb :=
  if db.hasSubnet range.subnetId then
    let id := db.rangeSeq + 1
    (.ok id, { db with dynamicRanges := db.dynamicRanges ++ [range.toRow id], rangeSeq := id })
  else (.error .foreignKeyViolation, db)

/-- `SELECT … FROM dynamic_ranges`, for one subnet when one is given. -/
def listRanges (ord : ScanOrder) (db : SqliteDb) (subnetId : Option ℤ) : List DynamicRange :=
  (ord.ranges.arrange (match subnetId with
    | some sid => db.dynamicRanges.filter (·.subnetId == sid)
    | none => db.dynamicRanges)).map RangeRow.toRange

/-- `DELETE FROM dynamic_ranges WHERE id = ?`. -/
def deleteRange (db : SqliteDb) (id : ℤ) : SqliteDb :=
  { db with dynamicRanges := db.dynamicRanges.filter (·.id != id) }

/-! ### Static assignments -/

/-- `INSERT INTO static_ips`: the address is the primary key and the MAC text is unique. -/
def createStaticIp (db : SqliteDb) (staticIp : StaticIP) : Except DbError Unit × SqliteDb :=
  if db.staticIps.any fun s =>
      s.ipAddress == staticIp.ipAddress || s.macAddress == staticIp.macAddress then
    (.error .uniqueViolation, db)
  else if db.hasSubnet staticIp.subnetId then
    (.ok (), { db with staticIps := db.staticIps ++ [staticIp] })
  else (.error .foreignKeyViolation, db)

/-- `SELECT … FROM static_ips`, for one subnet when one is given. -/
def listStaticIps (ord : ScanOrder) (db : SqliteDb) (subnetId : Option ℤ) : List StaticIP :=
  ord.staticIps.arrange (match subnetId with
    | some sid => db.staticIps.filter (·.subnetId == sid)
    | none => db.staticIps)

/-- `SELECT … FROM static_ips WHERE LOWER(mac_address) = LOWER(?)`, first row. -/
def getStaticIpByMac (ord : ScanOrder) (db : SqliteDb) (mac : String) : Option StaticIP :=
  (ord.staticIps.arrange
    (db.staticIps.filter fun s => s.macAddress.toLower == mac.toLower)).head?

/-- `UPDATE static_ips SET hostname = ? WHERE ip_address = ?`. -/
def updateStaticIpHostname (db : SqliteDb) (ipAddress : String) (hostname : Option String) :
    SqliteDb :=
  { db with staticIps := db.staticIps.map fun s =>
      if s.ipAddress.toString == ipAddress then { s with hostname := hostname } else s }

/-- `DELETE FROM static_ips WHERE ip_address = ?`. -/
def deleteStaticIp (db : SqliteDb) (ipAddress : String) : SqliteDb :=
  { db with staticIps := db.staticIps.filter fun s => s.ipAddress.toString != ipAddress }

/-! ### Leases -/

/-- `INSERT INTO leases`. -/
def createLease (db : SqliteDb) (lease : Lease) : Except DbError ℤ × SqliteDb :=
  if db.hasSubnet lease.subnetId then
    let id := db.leaseSeq + 1
    (.ok id, { db with leases := db.leases ++ [lease.toRow id], leaseSeq := id })
  else (.error .foreignKeyViolation, db)

/-- `SELECT … FROM leases WHERE LOWER(mac_address) = LOWER(?) AND lease_end > ? ORDER BY
lease_end DESC LIMIT 1`. -/
def getActiveLease (ord : ScanOrder) (db : SqliteDb) (mac : String) (now : ℤ) : Option Lease :=
  ((ord.activeLease.arrange (db.leases.filter fun l =>
      l.macAddress.toLower == mac.toLower && decide (now < l.leaseEnd))).maxOn?
    (·.leaseEnd)).map LeaseRow.toLease

/-- `SELECT … FROM leases WHERE lease_end > ?`. -/
def listActiveLeases (ord : ScanOrder) (db : SqliteDb) (now : ℤ) : List Lease :=
  (ord.leases.arrange (db.leases.filter fun l => decide (now < l.leaseEnd))).map
    LeaseRow.toLease

/-- `DELETE FROM leases WHERE id = ?`. -/
def expireLease (db : SqliteDb) (id : ℤ) : SqliteDb :=
  { db with leases := db.leases.filter (·.id != id) }

/-- `DELETE FROM leases WHERE lease_end < ?`, with the number of rows deleted. -/
def deleteExpiredLeases (db : SqliteDb) (now : ℤ) : ℕ × SqliteDb :=
  (db.leases.countP fun l => decide (l.leaseEnd < now),
    { db with leases := db.leases.filter fun l => decide (now ≤ l.leaseEnd) })

/-! ### IPv6 prefixes -/

/-- `INSERT INTO ia_prefixes`. -/
def createIaPrefix (db : SqliteDb) (pfx : IAPrefix) : ℤ × SqliteDb :=
  let id := db.iaPrefixSeq + 1
  (id, { db with iaPrefixes := db.iaPrefixes ++ [pfx.toRow id], iaPrefixSeq := id })

/-- `SELECT … FROM ia_prefixes WHERE id = ?`. -/
def getIaPrefix (db : SqliteDb) (id : ℤ) : Option IAPrefix :=
  (db.iaPrefixes.find? (·.id == id)).map IaPrefixRow.toIaPrefix

/-- `SELECT … FROM ia_prefixes`, for one interface when one is given. -/
def listIaPrefixes (ord : ScanOrder) (db : SqliteDb) (interface : Option String) :
    List IAPrefix :=
  (ord.iaPrefixes.arrange (match interface with
    | some i => db.iaPrefixes.filter (·.interface == i)
    | none => db.iaPrefixes)).map IaPrefixRow.toIaPrefix

/-- `UPDATE ia_prefixes SET … WHERE id = ?`. -/
def updateIaPrefix (db : SqliteDb) (id : ℤ) (pfx : IAPrefix) : SqliteDb :=
  { db with iaPrefixes := db.iaPrefixes.map fun r => if r.id == id then pfx.toRow id else r }

/-- `DELETE FROM ia_prefixes WHERE id = ?`. -/
def deleteIaPrefix (db : SqliteDb) (id : ℤ) : SqliteDb :=
  { db with iaPrefixes := db.iaPrefixes.filter (·.id != id) }

/-! ### API tokens -/

/-- `SELECT token_hash, enabled FROM api_tokens WHERE enabled = 1`. -/
def listTokens (ord : ScanOrder) (db : SqliteDb) : List (String × ℤ) :=
  (ord.tokens.arrange (db.apiTokens.filter (·.enabled == 1))).map fun r =>
    (r.tokenHash, r.enabled)

/-- `SELECT … FROM api_tokens ORDER BY created_at DESC`. -/
def listApiTokens (ord : ScanOrder) (db : SqliteDb) : List ApiToken :=
  ((ord.tokens.arrange db.apiTokens).mergeSort fun a b =>
    decide (b.createdAt ≤ a.createdAt)).map TokenRow.toApiToken

/-- `INSERT INTO api_tokens`, with a unique name. -/
def createToken (db : SqliteDb) (name tokenHash salt : String) (now : ℤ) :
    Except DbError ℤ × SqliteDb :=
  if db.apiTokens.any (·.name == name) then (.error .uniqueViolation, db)
  else
    let id := db.tokenSeq + 1
    (.ok id, { db with
      apiTokens := db.apiTokens ++ [⟨id, name, tokenHash, salt, now, none, 1⟩]
      tokenSeq := id })

/-- `DELETE FROM api_tokens WHERE id = ?`. -/
def deleteToken (db : SqliteDb) (id : ℤ) : SqliteDb :=
  { db with apiTokens := db.apiTokens.filter (·.id != id) }

/-- `UPDATE api_tokens SET enabled = ? WHERE id = ?`. -/
def toggleToken (db : SqliteDb) (id : ℤ) (enabled : Bool) : SqliteDb :=
  { db with apiTokens := db.apiTokens.map fun r =>
      if r.id == id then { r with enabled := if enabled then 1 else 0 } else r }

/-- `UPDATE api_tokens SET last_used_at = … WHERE token_hash = ?`. -/
def updateTokenLastUsed (db : SqliteDb) (tokenHash : String) (now : ℤ) : SqliteDb :=
  { db with apiTokens := db.apiTokens.map fun r =>
      if r.tokenHash == tokenHash then { r with lastUsedAt := some now } else r }

/-! ### All calls -/

/-- Answer a call of the `Database` trait at the clock reading `now`. -/
def exec (ord : ScanOrder) (now : ℤ) (db : SqliteDb) : (c : DbCall) → c.Result × SqliteDb
  | .createSubnet subnet => db.createSubnet subnet
  | .getSubnet id => (.ok (db.getSubnet id), db)
  | .listSubnets => (.ok (db.listSubnets ord), db)
  | .updateSubnet id subnet => db.updateSubnet id subnet
  | .deleteSubnet id => (.ok (), db.deleteSubnet id)
  | .createRange range => db.createRange range
  | .listRanges subnetId => (.ok (db.listRanges ord subnetId), db)
  | .deleteRange id => (.ok (), db.deleteRange id)
  | .createStaticIp staticIp => db.createStaticIp staticIp
  | .listStaticIps subnetId => (.ok (db.listStaticIps ord subnetId), db)
  | .getStaticIpByMac mac => (.ok (db.getStaticIpByMac ord mac), db)
  | .updateStaticIpHostname ip hostname => (.ok (), db.updateStaticIpHostname ip hostname)
  | .deleteStaticIp ip => (.ok (), db.deleteStaticIp ip)
  | .createLease lease => db.createLease lease
  | .getActiveLease mac => (.ok (db.getActiveLease ord mac now), db)
  | .listActiveLeases => (.ok (db.listActiveLeases ord now), db)
  | .expireLease id => (.ok (), db.expireLease id)
  | .deleteExpiredLeases =>
    (.ok (db.deleteExpiredLeases now).1, (db.deleteExpiredLeases now).2)
  | .createIaPrefix pfx => (.ok (db.createIaPrefix pfx).1, (db.createIaPrefix pfx).2)
  | .getIaPrefix id => (.ok (db.getIaPrefix id), db)
  | .listIaPrefixes interface => (.ok (db.listIaPrefixes ord interface), db)
  | .updateIaPrefix id pfx => (.ok (), db.updateIaPrefix id pfx)
  | .deleteIaPrefix id => (.ok (), db.deleteIaPrefix id)
  | .listTokens => (.ok (db.listTokens ord), db)
  | .listApiTokens => (.ok (db.listApiTokens ord), db)
  | .createToken name tokenHash salt => db.createToken name tokenHash salt now
  | .deleteToken id => (.ok (), db.deleteToken id)
  | .toggleToken id enabled => (.ok (), db.toggleToken id enabled)
  | .updateTokenLastUsed tokenHash => (.ok (), db.updateTokenLastUsed tokenHash now)

/-! ### Which tables a call writes -/

/-- The tables of the database. -/
inductive Table
  | subnets | dynamicRanges | staticIps | leases | iaPrefixes | apiTokens
deriving DecidableEq, Repr

/-- Can the call change the table? Deleting a subnet cascades. -/
def mayWrite : DbCall → Table → Bool
  | .createSubnet _, t | .updateSubnet _ _, t => t == .subnets
  | .deleteSubnet _, t => t != .iaPrefixes && t != .apiTokens
  | .createRange _, t | .deleteRange _, t => t == .dynamicRanges
  | .createStaticIp _, t | .updateStaticIpHostname _ _, t | .deleteStaticIp _, t => t == .staticIps
  | .createLease _, t | .expireLease _, t | .deleteExpiredLeases, t => t == .leases
  | .createIaPrefix _, t | .updateIaPrefix _ _, t | .deleteIaPrefix _, t => t == .iaPrefixes
  | .createToken _ _ _, t | .deleteToken _, t | .toggleToken _ _, t => t == .apiTokens
  | .updateTokenLastUsed _, t => t == .apiTokens
  | _, _ => false

/-- The two databases hold the same rows in a table, and will number the next one alike. -/
def SameTable (db db' : SqliteDb) : Table → Prop
  | .subnets => db'.subnets = db.subnets ∧ db'.subnetSeq = db.subnetSeq
  | .dynamicRanges => db'.dynamicRanges = db.dynamicRanges ∧ db'.rangeSeq = db.rangeSeq
  | .staticIps => db'.staticIps = db.staticIps
  | .leases => db'.leases = db.leases ∧ db'.leaseSeq = db.leaseSeq
  | .iaPrefixes => db'.iaPrefixes = db.iaPrefixes ∧ db'.iaPrefixSeq = db.iaPrefixSeq
  | .apiTokens => db'.apiTokens = db.apiTokens ∧ db'.tokenSeq = db.tokenSeq

variable {ord : ScanOrder} {now : ℤ} {db : SqliteDb}

/-- **Frame.** A call leaves the tables alone that it does not write. -/
theorem exec_sameTable {c : DbCall} {t : Table} (h : mayWrite c t = false) :
    SameTable db (exec ord now db c).2 t := by
  have hrefl : ∀ db : SqliteDb, SameTable db db t := by
    intro db
    cases t <;> first | exact rfl | exact ⟨rfl, rfl⟩
  cases c with
  -- the statements that a constraint may refuse
  | createSubnet subnet =>
    simp only [exec, createSubnet]
    split
    · exact hrefl db
    · cases t <;> first | exact rfl | exact ⟨rfl, rfl⟩ | cases h
  | updateSubnet id subnet =>
    simp only [exec, updateSubnet]
    split
    · exact hrefl db
    · cases t <;> first | exact rfl | exact ⟨rfl, rfl⟩ | cases h
  | createRange range =>
    simp only [exec, createRange]
    split
    · cases t <;> first | exact rfl | exact ⟨rfl, rfl⟩ | cases h
    · exact hrefl db
  | createStaticIp staticIp =>
    simp only [exec, createStaticIp]
    split
    · exact hrefl db
    · split
      · cases t <;> first | exact rfl | exact ⟨rfl, rfl⟩ | cases h
      · exact hrefl db
  | createLease lease =>
    simp only [exec, createLease]
    split
    · cases t <;> first | exact rfl | exact ⟨rfl, rfl⟩ | cases h
    · exact hrefl db
  | createToken name tokenHash salt =>
    simp only [exec, createToken]
    split
    · exact hrefl db
    · cases t <;> first | exact rfl | exact ⟨rfl, rfl⟩ | cases h
  | _ => cases t <;> first | exact rfl | exact ⟨rfl, rfl⟩ | cases h

/-! ### What a call can do to the lease table -/

/-- The rows of the lease table that a call leaves in place at a clock reading. -/
def keepsLease (now : ℤ) : DbCall → LeaseRow → Bool
  | .deleteSubnet id => fun l => l.subnetId != id
  | .expireLease id => fun l => l.id != id
  | .deleteExpiredLeases => fun l => decide (now ≤ l.leaseEnd)
  | _ => fun _ => true

/-- The database with a further lease, under the next id. -/
def insertLease (db : SqliteDb) (lease : Lease) : SqliteDb :=
  { db with
    leases := db.leases ++ [lease.toRow (db.leaseSeq + 1)]
    leaseSeq := db.leaseSeq + 1 }

theorem createLease_of_hasSubnet {lease : Lease} (h : db.hasSubnet lease.subnetId = true) :
    db.createLease lease = (.ok (db.leaseSeq + 1), db.insertLease lease) := by
  simp [createLease, insertLease, h]

theorem createLease_of_not_hasSubnet {lease : Lease}
    (h : db.hasSubnet lease.subnetId = false) :
    db.createLease lease = (.error .foreignKeyViolation, db) := by
  simp [createLease, h]

/-- A call that does not write the lease table keeps all its rows. -/
theorem filter_keepsLease_of_not_mayWrite {c : DbCall} (h : mayWrite c .leases = false) :
    db.leases.filter (keepsLease now c) = db.leases := by
  refine List.filter_eq_self.mpr fun l _ => ?_
  cases c <;> first | rfl | cases h

/-- **Inversion for the lease table.** A call either is a successful `createLease`, which
appends one row under the next id, or only removes rows and gives out no id. -/
theorem exec_leases (c : DbCall) :
    (∃ lease, c = .createLease lease ∧ db.hasSubnet lease.subnetId = true ∧
      (exec ord now db c).2 = db.insertLease lease) ∨
    ((exec ord now db c).2.leases = db.leases.filter (keepsLease now c) ∧
      (exec ord now db c).2.leaseSeq = db.leaseSeq) := by
  cases hwrite : mayWrite c .leases with
  | false =>
    refine .inr ?_
    rw [filter_keepsLease_of_not_mayWrite hwrite]
    exact exec_sameTable hwrite
  | true =>
    cases c with
    | createLease lease =>
      cases h : db.hasSubnet lease.subnetId with
      | true =>
        exact .inl ⟨lease, rfl, h, congrArg Prod.snd (createLease_of_hasSubnet h)⟩
      | false => exact .inr (by simp [exec, createLease, h, keepsLease])
    | deleteSubnet id => exact .inr ⟨rfl, rfl⟩
    | expireLease id => exact .inr ⟨rfl, rfl⟩
    | deleteExpiredLeases => exact .inr ⟨rfl, rfl⟩
    | _ => cases hwrite

/-- A call that is not on behalf of a client only removes leases. -/
theorem exec_leases_sublist {c : DbCall} (hc : c.writesLease = false) :
    (exec ord now db c).2.leases.Sublist db.leases ∧
      (exec ord now db c).2.leaseSeq = db.leaseSeq := by
  obtain ⟨lease, rfl, -⟩ | ⟨hleases, hseq⟩ := @exec_leases ord now db c
  · simp [DbCall.writesLease] at hc
  · exact ⟨hleases ▸ List.filter_sublist, hseq⟩

/-- Apart from a deletion of its subnet, a lease stays until it has ended. -/
theorem mem_exec_leases {c : DbCall} {l : LeaseRow} (hc : c.writesLease = false)
    (hdelete : ∀ id, c ≠ .deleteSubnet id) (hl : l ∈ db.leases) (hend : now ≤ l.leaseEnd) :
    l ∈ (exec ord now db c).2.leases := by
  obtain ⟨lease, rfl, -⟩ | ⟨hleases, -⟩ := @exec_leases ord now db c
  · simp [DbCall.writesLease] at hc
  · rw [hleases]
    refine List.mem_filter.mpr ⟨hl, ?_⟩
    cases c with
    | deleteSubnet id => exact absurd rfl (hdelete id)
    | expireLease id => simp [DbCall.writesLease] at hc
    | deleteExpiredLeases => simpa [keepsLease] using hend
    | _ => rfl

/-- A read changes nothing. -/
theorem exec_of_isRead {c : DbCall} (hc : c.isRead = true) : (exec ord now db c).2 = db := by
  cases c <;> first | rfl | simp [DbCall.isRead] at hc

/-- A subnet stays unless it is deleted. -/
theorem hasSubnet_exec {c : DbCall} {id : ℤ} (hc : ∀ id, c ≠ .deleteSubnet id)
    (h : db.hasSubnet id = true) : (exec ord now db c).2.hasSubnet id = true := by
  cases hwrite : mayWrite c .subnets with
  | false =>
    have hsame := (@exec_sameTable ord now db c .subnets hwrite).1
    rw [hasSubnet, hsame]
    exact h
  | true =>
    cases c with
    | deleteSubnet id' => exact absurd rfl (hc id')
    | createSubnet subnet =>
      simp only [exec, createSubnet]
      split
      · exact h
      · simpa [hasSubnet] using .inl (by simpa [hasSubnet] using h)
    | updateSubnet id' subnet =>
      simp only [exec, updateSubnet]
      split
      · exact h
      · obtain ⟨r, hr, hid⟩ : ∃ r ∈ db.subnets, r.id = id := by simpa [hasSubnet] using h
        -- an updated row keeps its id
        simp only [hasSubnet, List.any_map, List.any_eq_true]
        refine ⟨r, hr, ?_⟩
        by_cases hr' : r.id = id' <;> simp [hr', Subnet.toRow, ← hid]
    | _ => cases hwrite

/-! ### What a call can do to ranges and static assignments -/

/-- **Inversion for the ranges.** A call either is a successful `createRange`, or no range is
new after it. -/
theorem exec_dynamicRanges (c : DbCall) :
    (∃ range, c = .createRange range ∧ db.hasSubnet range.subnetId = true ∧
      (exec ord now db c).2 = { db with
        dynamicRanges := db.dynamicRanges ++ [range.toRow (db.rangeSeq + 1)]
        rangeSeq := db.rangeSeq + 1 }) ∨
    (exec ord now db c).2.dynamicRanges ⊆ db.dynamicRanges := by
  cases hwrite : mayWrite c .dynamicRanges with
  | false =>
    have hsame := (@exec_sameTable ord now db c .dynamicRanges hwrite).1
    rw [hsame]
    exact .inr (List.Subset.refl _)
  | true =>
    cases c with
    | createRange range =>
      cases h : db.hasSubnet range.subnetId with
      | true => exact .inl ⟨range, rfl, h, by simp [exec, createRange, h]⟩
      | false => exact .inr (by simp [exec, createRange, h])
    | deleteRange id => exact .inr (List.filter_subset_self _)
    | deleteSubnet id => exact .inr (List.filter_subset_self _)
    | _ => cases hwrite

/-- A static assignment is accepted if neither its address nor its MAC text is taken and its
subnet exists. -/
def acceptsStaticIp (db : SqliteDb) (staticIp : StaticIP) : Bool :=
  (db.staticIps.all fun s =>
    s.ipAddress != staticIp.ipAddress && s.macAddress != staticIp.macAddress) &&
  db.hasSubnet staticIp.subnetId

/-- **Inversion for static assignments.** A call either is an accepted `createStaticIp`, or
every assignment after it has the address and the client of one before it. -/
theorem exec_staticIps (c : DbCall) :
    (∃ staticIp, c = .createStaticIp staticIp ∧ db.acceptsStaticIp staticIp = true ∧
      (exec ord now db c).2 = { db with staticIps := db.staticIps ++ [staticIp] }) ∨
    ∀ s ∈ (exec ord now db c).2.staticIps, ∃ s' ∈ db.staticIps,
      s.ipAddress = s'.ipAddress ∧ s.macAddress = s'.macAddress := by
  have hself : ∀ s ∈ db.staticIps, ∃ s' ∈ db.staticIps,
      s.ipAddress = s'.ipAddress ∧ s.macAddress = s'.macAddress :=
    fun s hs => ⟨s, hs, rfl, rfl⟩
  cases hwrite : mayWrite c .staticIps with
  | false =>
    have hsame : (exec ord now db c).2.staticIps = db.staticIps :=
      @exec_sameTable ord now db c .staticIps hwrite
    rw [hsame]
    exact .inr hself
  | true =>
    cases c with
    | createStaticIp staticIp =>
      simp only [exec, createStaticIp]
      split
      · exact .inr hself
      · next hfree =>
        split
        · next hsub =>
          refine .inl ⟨staticIp, rfl, ?_, rfl⟩
          simpa [acceptsStaticIp, hsub] using hfree
        · exact .inr hself
    | deleteStaticIp ip => exact .inr fun s hs => hself s (List.mem_filter.mp hs).1
    | deleteSubnet id => exact .inr fun s hs => hself s (List.mem_filter.mp hs).1
    | updateStaticIpHostname ip hostname =>
      refine .inr fun s hs => ?_
      obtain ⟨s', hs', rfl⟩ := List.mem_map.mp hs
      refine ⟨s', hs', ?_⟩
      split <;> exact ⟨rfl, rfl⟩
    | _ => cases hwrite

/-! ### What the queries return -/

/-- The assignment `getStaticIpByMac` returns belongs to the client. -/
theorem of_getStaticIpByMac {mac : String} {staticIp : StaticIP}
    (h : db.getStaticIpByMac ord mac = some staticIp) :
    staticIp ∈ db.staticIps ∧ staticIp.macAddress.toLower = mac.toLower := by
  have hmem := List.mem_of_head? h
  simpa using hmem

theorem hasSubnet_of_getSubnet {id : ℤ} {subnet : Subnet} (h : db.getSubnet id = some subnet) :
    db.hasSubnet id = true := by
  obtain ⟨r, hr, -⟩ := Option.map_eq_some_iff.mp h
  exact List.any_eq_true.mpr ⟨r, List.mem_of_find?_eq_some hr, by simpa using List.find?_some hr⟩

theorem exec_getSubnet {id : ℤ} {subnet : Option Subnet} (h : db.getSubnet id = subnet) :
    (exec ord now db (.getSubnet id)).1 = .ok subnet := congrArg Except.ok h

theorem exec_getStaticIpByMac {mac : String} {staticIp : Option StaticIP}
    (h : db.getStaticIpByMac ord mac = staticIp) :
    (exec ord now db (.getStaticIpByMac mac)).1 = .ok staticIp := congrArg Except.ok h

theorem mem_listRanges {subnetId : Option ℤ} {r : DynamicRange} :
    r ∈ db.listRanges ord subnetId ↔
      ∃ row, (row ∈ db.dynamicRanges ∧ ∀ id ∈ subnetId, row.subnetId = id) ∧ row.toRange = r := by
  cases subnetId <;> simp [listRanges]

theorem mem_listStaticIps {subnetId : Option ℤ} {s : StaticIP} :
    s ∈ db.listStaticIps ord subnetId ↔
      s ∈ db.staticIps ∧ ∀ id ∈ subnetId, s.subnetId = id := by
  cases subnetId <;> simp [listStaticIps]

theorem mem_listActiveLeases {l : Lease} :
    l ∈ db.listActiveLeases ord now ↔ ∃ r ∈ db.leases, now < r.leaseEnd ∧ r.toLease = l := by
  simp [listActiveLeases, and_assoc]

/-- The first active lease on an address is the lease of some active row, and if there is
none, no row on the address is active. -/
theorem find?_listActiveLeases (ip : Ipv4Addr) :
    ((db.listActiveLeases ord now).find? (·.ipAddress == ip) = none ∧
      ∀ r ∈ db.leases, r.ipAddress = ip → r.leaseEnd ≤ now) ∨
    ∃ r ∈ db.leases, now < r.leaseEnd ∧ r.ipAddress = ip ∧
      (db.listActiveLeases ord now).find? (·.ipAddress == ip) = some r.toLease := by
  cases hfind : (db.listActiveLeases ord now).find? (·.ipAddress == ip) with
  | none =>
    refine .inl ⟨rfl, fun r hr hip => ?_⟩
    by_contra hlt
    have hne := List.find?_eq_none.mp hfind r.toLease
      (mem_listActiveLeases.mpr ⟨r, hr, by omega, rfl⟩)
    exact hne (by simpa [LeaseRow.toLease] using hip)
  | some existing =>
    obtain ⟨r, hr, hact, rfl⟩ := mem_listActiveLeases.mp (List.mem_of_find?_eq_some hfind)
    have hip := List.find?_some hfind
    exact .inr ⟨r, hr, hact, by simpa [LeaseRow.toLease] using hip, rfl⟩

/-- The lease `getActiveLease` returns belongs to an active row of the client. -/
theorem of_getActiveLease {mac : String} {l : Lease}
    (h : db.getActiveLease ord mac now = some l) :
    ∃ r ∈ db.leases, now < r.leaseEnd ∧ r.macAddress.toLower = mac.toLower ∧ r.toLease = l := by
  obtain ⟨r, hr, rfl⟩ := Option.map_eq_some_iff.mp h
  have hmem := List.maxOn?_mem hr
  simp only [RowOrder.mem_arrange, List.mem_filter, Bool.and_eq_true, beq_iff_eq,
    decide_eq_true_eq] at hmem
  exact ⟨r, hmem.1, hmem.2.2, hmem.2.1, rfl⟩

end SqliteDb

end Ndhcpd
