import Ndhcpd.Db.Agreement
import Ndhcpd.Db.RawRows
import Ndhcpd.Proto.MacText
import Ndhcpd.Ra.Packet

/-!
# What is written is read back

`RawDb.exec_encode` relates the two models of the SQLite store: on the encoding of a database, every
call answers what the typed store answers and leaves the encoding of what the typed store leaves.
Every database that can be reached from the empty one is such an encoding, so no `unwrap` fails,
and what is written is what is read back (`rows_read_back`).
-/

namespace Ndhcpd

/-! ### Encoded tables -/

section Tables

variable {α β γ : Type} {f : α → β} {g : α → γ} {read : β → Option γ}

/-- An order of encoded rows is the encoding of an order. -/
theorem RowOrder.exists_comap (o : RowOrder β) (f : α → β) :
    ∃ o' : RowOrder α, ∀ rows, o.arrange (rows.map f) = (o'.arrange rows).map f := by
  have hrows : ∀ rows : List α, ∃ rows' : List α,
      o.arrange (rows.map f) = rows'.map f ∧ rows'.Perm rows := by
    intro rows
    have hcomp := congrFun (congrFun (List.eq_map_comp_perm f) (o.arrange (rows.map f))) rows
    exact hcomp.mpr (o.perm (rows.map f))
  choose arrange harrange hperm using hrows
  exact ⟨⟨arrange, hperm⟩, harrange⟩

/-- If every row is read, so are all rows of a list. -/
theorem mapM_read_map (h : ∀ a, read (f a) = some (g a)) (rows : List α) :
    (rows.map f).mapM read = some (rows.map g) := by
  induction rows with
  | nil => rfl
  | cons row rows ih =>
    rw [List.map_cons, List.mapM_cons, h, ih]
    rfl

theorem mapM_read_option (h : ∀ a, read (f a) = some (g a)) (row : Option α) :
    (row.map f).mapM read = some (row.map g) := by
  cases row with
  | none => rfl
  | some row =>
    rw [Option.map_some, Option.mapM_some, h]
    rfl

/-- Rewriting the rows under a key. -/
theorem map_ite_view {κ : Type} [BEq κ] {key : α → κ} {key' : β → κ} {k : κ} {rewrite : α → α}
    {rewrite' : β → β} {rows : List α} (hkey : ∀ r, key' (f r) = key r)
    (hrow : ∀ r, rewrite' (f r) = f (rewrite r)) :
    ((rows.map f).map fun r => if key' r == k then rewrite' r else r) =
      (rows.map fun r => if key r == k then rewrite r else r).map f := by
  rw [List.map_map, List.map_map]
  refine List.map_congr_left fun r _ => ?_
  simp only [Function.comp, hkey, hrow]
  split <;> rfl

theorem maxOn?_map (key : β → ℤ) (rows : List α) :
    (rows.map f).maxOn? key = (rows.maxOn? fun a => key (f a)).map f := by
  induction rows with
  | nil => rfl
  | cons row rows ih =>
    rw [List.map_cons, List.maxOn?_cons, List.maxOn?_cons, ih]
    cases rows.maxOn? fun a => key (f a) with
    | none => rfl
    | some last =>
      simp only [Option.map_some, Option.elim_some, maxOn_eq_if]
      split <;> rfl

end Tables

/-! ### The two stores -/

/-- The typed store lists its rows as the raw store lists their encodings. -/
structure SameOrder (v6 : TextForm Ipv6Addr) (raw : RawOrder) (ord : ScanOrder) : Prop where
  subnets : ∀ rows, raw.subnets.arrange (rows.map SubnetRow.toRaw) =
    (ord.subnets.arrange rows).map SubnetRow.toRaw
  ranges : ∀ rows, raw.ranges.arrange (rows.map RangeRow.toRaw) =
    (ord.ranges.arrange rows).map RangeRow.toRaw
  staticIps : ∀ rows, raw.staticIps.arrange (rows.map StaticIP.toRaw) =
    (ord.staticIps.arrange rows).map StaticIP.toRaw
  leases : ∀ rows, raw.leases.arrange (rows.map LeaseRow.toRaw) =
    (ord.leases.arrange rows).map LeaseRow.toRaw
  activeLease : ∀ rows, raw.activeLease.arrange (rows.map LeaseRow.toRaw) =
    (ord.activeLease.arrange rows).map LeaseRow.toRaw
  iaPrefixes : ∀ rows, raw.iaPrefixes.arrange (rows.map (IaPrefixRow.toRaw v6)) =
    (ord.iaPrefixes.arrange rows).map (IaPrefixRow.toRaw v6)
  tokens : raw.tokens = ord.tokens

theorem exists_sameOrder (v6 : TextForm Ipv6Addr) (raw : RawOrder) :
    ∃ ord, SameOrder v6 raw ord := by
  obtain ⟨subnets, hsubnets⟩ := raw.subnets.exists_comap SubnetRow.toRaw
  obtain ⟨ranges, hranges⟩ := raw.ranges.exists_comap RangeRow.toRaw
  obtain ⟨staticIps, hstaticIps⟩ := raw.staticIps.exists_comap StaticIP.toRaw
  obtain ⟨leases, hleases⟩ := raw.leases.exists_comap LeaseRow.toRaw
  obtain ⟨activeLease, hactiveLease⟩ := raw.activeLease.exists_comap LeaseRow.toRaw
  obtain ⟨iaPrefixes, hiaPrefixes⟩ := raw.iaPrefixes.exists_comap (IaPrefixRow.toRaw v6)
  exact ⟨⟨subnets, ranges, staticIps, leases, activeLease, iaPrefixes, raw.tokens⟩,
    hsubnets, hranges, hstaticIps, hleases, hactiveLease, hiaPrefixes, rfl⟩

theorem SubnetRow.read_toRaw (r : SubnetRow) : r.toRaw.read = some r.toSubnet :=
  Subnet.read_toRaw r.toSubnet r.id

theorem RangeRow.read_toRaw (r : RangeRow) : r.toRaw.read = some r.toRange :=
  DynamicRange.read_toRaw r.toRange r.id

theorem LeaseRow.read_toRaw (r : LeaseRow) : r.toRaw.read = some r.toLease :=
  Lease.read_toRaw r.toLease r.id

theorem IaPrefixRow.read_toRaw (v6 : TextForm Ipv6Addr) (r : IaPrefixRow) :
    (r.toRaw v6).read v6 = some r.toIaPrefix :=
  IAPrefix.read_toRaw v6 r.toIaPrefix r.id

namespace RawDb

variable {v6 : TextForm Ipv6Addr} {raw : RawOrder} {ord : ScanOrder} {now : ℤ} {db : SqliteDb}

/-- The call does on the encoding of the database what it does on the database. -/
def Refines (v6 : TextForm Ipv6Addr) (raw : RawOrder) (ord : ScanOrder) (now : ℤ) (db : SqliteDb)
    (c : DbCall) : Prop :=
  exec v6 raw now (db.toRaw v6) c =
    (some (SqliteDb.exec ord now db c).1, (SqliteDb.exec ord now db c).2.toRaw v6)

theorem hasSubnet_toRaw (id : ℤ) : (db.toRaw v6).hasSubnet id = db.hasSubnet id := by
  simp only [hasSubnet, SqliteDb.toRaw, List.any_map, SqliteDb.hasSubnet]
  rfl

/-- The texts of two networks agree exactly if the networks do. -/
private theorem sameNetwork_toRaw (r : SubnetRow) (subnet : Subnet) :
    (r.toRaw.network == subnet.network.toString && r.toRaw.netmask == subnet.netmask.toNat) =
      (r.network == subnet.network && r.netmask == subnet.netmask) := by
  rw [Bool.eq_iff_iff]
  simp [SubnetRow.toRaw, Subnet.toRaw, SubnetRow.toSubnet, Ipv4Addr.toString_injective.eq_iff,
    UInt8.toNat_inj]

theorem refines_createSubnet (subnet : Subnet) :
    Refines v6 raw ord now db (.createSubnet subnet) := by
  have htaken : ((db.toRaw v6).subnets.any fun r =>
      r.network == subnet.network.toString && r.netmask == subnet.netmask.toNat) =
      db.subnets.any fun r => r.network == subnet.network && r.netmask == subnet.netmask := by
    simp only [SqliteDb.toRaw, List.any_map]
    exact congrArg (db.subnets.any ·) (funext fun r => sameNetwork_toRaw r subnet)
  simp only [Refines, exec, createSubnet, SqliteDb.exec, SqliteDb.createSubnet, htaken]
  split
  · rfl
  · simp only [SqliteDb.toRaw, List.map_append]
    rfl

theorem getSubnet_toRaw (id : ℤ) : (db.toRaw v6).getSubnet id = some (db.getSubnet id) := by
  have hfind : (db.toRaw v6).subnets.find? (·.id == id) =
      (db.subnets.find? (·.id == id)).map SubnetRow.toRaw :=
    find?_map_view fun _ => rfl
  rw [getSubnet, hfind, mapM_read_option SubnetRow.read_toRaw]
  rfl

theorem refines_getSubnet (id : ℤ) : Refines v6 raw ord now db (.getSubnet id) := by
  simp only [Refines, exec, getSubnet_toRaw]
  rfl

theorem listSubnets_toRaw (h : SameOrder v6 raw ord) :
    (db.toRaw v6).listSubnets raw = some (db.listSubnets ord) := by
  have hrows : raw.subnets.arrange (db.toRaw v6).subnets =
      (ord.subnets.arrange db.subnets).map SubnetRow.toRaw := h.subnets db.subnets
  rw [listSubnets, hrows, mapM_read_map SubnetRow.read_toRaw]
  rfl

theorem refines_listSubnets (h : SameOrder v6 raw ord) :
    Refines v6 raw ord now db .listSubnets := by
  simp only [Refines, exec, listSubnets_toRaw h]
  rfl

theorem refines_updateSubnet (id : ℤ) (subnet : Subnet) :
    Refines v6 raw ord now db (.updateSubnet id subnet) := by
  have htaken : ((db.toRaw v6).subnets.any fun r =>
      r.id != id && r.network == subnet.network.toString && r.netmask == subnet.netmask.toNat) =
      db.subnets.any fun r =>
        r.id != id && r.network == subnet.network && r.netmask == subnet.netmask := by
    simp only [SqliteDb.toRaw, List.any_map]
    refine congrArg (db.subnets.any ·) (funext fun r => ?_)
    have hsame := sameNetwork_toRaw r subnet
    simp only [Function.comp, Bool.and_assoc, hsame]
    rfl
  have hrows : ((db.toRaw v6).subnets.map fun r => if r.id == id then subnet.toRaw id else r) =
      (db.subnets.map fun r => if r.id == id then subnet.toRow id else r).map SubnetRow.toRaw :=
    map_ite_view (fun _ => rfl) fun _ => rfl
  simp only [Refines, exec, updateSubnet, SqliteDb.exec, SqliteDb.updateSubnet, htaken,
    hasSubnet_toRaw, hrows]
  split <;> rfl

theorem refines_deleteSubnet (id : ℤ) : Refines v6 raw ord now db (.deleteSubnet id) := by
  simp only [Refines, exec, deleteSubnet, SqliteDb.exec, SqliteDb.deleteSubnet, SqliteDb.toRaw]
  refine congrArg (Prod.mk _) ?_
  congr 1
  · exact filter_map_view fun _ => rfl
  · exact filter_map_view fun _ => rfl
  · exact filter_map_view fun _ => rfl
  · exact filter_map_view fun _ => rfl

/-! Ranges and static assignments. -/

theorem refines_createRange (range : DynamicRange) :
    Refines v6 raw ord now db (.createRange range) := by
  simp only [Refines, exec, createRange, SqliteDb.exec, SqliteDb.createRange, hasSubnet_toRaw]
  split
  · simp only [SqliteDb.toRaw, List.map_append]
    rfl
  · rfl

theorem refines_listRanges (h : SameOrder v6 raw ord) (subnetId : Option ℤ) :
    Refines v6 raw ord now db (.listRanges subnetId) := by
  cases subnetId with
  | none =>
    have hrows : raw.ranges.arrange (db.toRaw v6).dynamicRanges =
        (ord.ranges.arrange db.dynamicRanges).map RangeRow.toRaw := h.ranges db.dynamicRanges
    simp only [Refines, exec, listRanges, hrows, mapM_read_map RangeRow.read_toRaw]
    rfl
  | some sid =>
    have hfilter : (db.toRaw v6).dynamicRanges.filter (·.subnetId == sid) =
        (db.dynamicRanges.filter (·.subnetId == sid)).map RangeRow.toRaw :=
      filter_map_view fun _ => rfl
    simp only [Refines, exec, listRanges, hfilter, h.ranges, mapM_read_map RangeRow.read_toRaw]
    rfl

theorem refines_deleteRange (id : ℤ) : Refines v6 raw ord now db (.deleteRange id) := by
  have hfilter : (db.toRaw v6).dynamicRanges.filter (·.id != id) =
      (db.dynamicRanges.filter (·.id != id)).map RangeRow.toRaw := filter_map_view fun _ => rfl
  simp only [Refines, exec, deleteRange, hfilter]
  rfl

theorem refines_createStaticIp (staticIp : StaticIP) :
    Refines v6 raw ord now db (.createStaticIp staticIp) := by
  have htaken : ((db.toRaw v6).staticIps.any fun s =>
      s.ipAddress == staticIp.ipAddress.toString || s.macAddress == staticIp.macAddress) =
      db.staticIps.any fun s =>
        s.ipAddress == staticIp.ipAddress || s.macAddress == staticIp.macAddress := by
    simp only [SqliteDb.toRaw, List.any_map]
    refine congrArg (db.staticIps.any ·) (funext fun s => ?_)
    rw [Bool.eq_iff_iff]
    simp [StaticIP.toRaw, Ipv4Addr.toString_injective.eq_iff]
  simp only [Refines, exec, createStaticIp, SqliteDb.exec, SqliteDb.createStaticIp, htaken,
    hasSubnet_toRaw]
  split
  · rfl
  · split
    · simp only [SqliteDb.toRaw, List.map_append]
      rfl
    · rfl

theorem refines_listStaticIps (h : SameOrder v6 raw ord) (subnetId : Option ℤ) :
    Refines v6 raw ord now db (.listStaticIps subnetId) := by
  cases subnetId with
  | none =>
    have hrows : raw.staticIps.arrange (db.toRaw v6).staticIps =
        (ord.staticIps.arrange db.staticIps).map StaticIP.toRaw := h.staticIps db.staticIps
    simp only [Refines, exec, listStaticIps, hrows, mapM_read_map StaticIP.read_toRaw, List.map_id']
    rfl
  | some sid =>
    have hfilter : (db.toRaw v6).staticIps.filter (·.subnetId == sid) =
        (db.staticIps.filter (·.subnetId == sid)).map StaticIP.toRaw :=
      filter_map_view fun _ => rfl
    simp only [Refines, exec, listStaticIps, hfilter, h.staticIps,
      mapM_read_map StaticIP.read_toRaw, List.map_id']
    rfl

theorem refines_getStaticIpByMac (h : SameOrder v6 raw ord) (mac : String) :
    Refines v6 raw ord now db (.getStaticIpByMac mac) := by
  have hfilter : ((db.toRaw v6).staticIps.filter fun s => s.macAddress.toLower == mac.toLower) =
      (db.staticIps.filter fun s => s.macAddress.toLower == mac.toLower).map StaticIP.toRaw :=
    filter_map_view fun _ => rfl
  simp only [Refines, exec, getStaticIpByMac, hfilter, h.staticIps, List.head?_map,
    mapM_read_option StaticIP.read_toRaw, Option.map_id']
  rfl

theorem refines_updateStaticIpHostname (ip : String) (hostname : Option String) :
    Refines v6 raw ord now db (.updateStaticIpHostname ip hostname) := by
  have hrows : ((db.toRaw v6).staticIps.map fun s =>
        if s.ipAddress == ip then { s with hostname := hostname } else s) =
      (db.staticIps.map fun s => if s.ipAddress.toString == ip then { s with hostname := hostname }
        else s).map StaticIP.toRaw :=
    map_ite_view (fun _ => rfl) fun _ => rfl
  simp only [Refines, exec, updateStaticIpHostname, hrows]
  rfl

theorem refines_deleteStaticIp (ip : String) :
    Refines v6 raw ord now db (.deleteStaticIp ip) := by
  have hfilter : ((db.toRaw v6).staticIps.filter fun s => s.ipAddress != ip) =
      (db.staticIps.filter fun s => s.ipAddress.toString != ip).map StaticIP.toRaw :=
    filter_map_view fun _ => rfl
  simp only [Refines, exec, deleteStaticIp, hfilter]
  rfl

/-! Leases. -/

theorem refines_createLease (lease : Lease) : Refines v6 raw ord now db (.createLease lease) := by
  simp only [Refines, exec, createLease, SqliteDb.exec, SqliteDb.createLease, hasSubnet_toRaw]
  split
  · simp only [SqliteDb.toRaw, List.map_append]
    rfl
  · rfl

theorem refines_getActiveLease (h : SameOrder v6 raw ord) (mac : String) :
    Refines v6 raw ord now db (.getActiveLease mac) := by
  have hfilter : ((db.toRaw v6).leases.filter fun l =>
        l.macAddress.toLower == mac.toLower && decide (now < l.leaseEnd)) =
      (db.leases.filter fun l =>
        l.macAddress.toLower == mac.toLower && decide (now < l.leaseEnd)).map LeaseRow.toRaw :=
    filter_map_view fun _ => rfl
  simp only [Refines, exec, getActiveLease, hfilter, h.activeLease, maxOn?_map,
    mapM_read_option LeaseRow.read_toRaw]
  rfl

theorem refines_listActiveLeases (h : SameOrder v6 raw ord) :
    Refines v6 raw ord now db .listActiveLeases := by
  have hfilter : ((db.toRaw v6).leases.filter fun l => decide (now < l.leaseEnd)) =
      (db.leases.filter fun l => decide (now < l.leaseEnd)).map LeaseRow.toRaw :=
    filter_map_view fun _ => rfl
  simp only [Refines, exec, listActiveLeases, hfilter, h.leases,
    mapM_read_map LeaseRow.read_toRaw]
  rfl

theorem refines_expireLease (id : ℤ) : Refines v6 raw ord now db (.expireLease id) := by
  have hfilter : (db.toRaw v6).leases.filter (·.id != id) =
      (db.leases.filter (·.id != id)).map LeaseRow.toRaw := filter_map_view fun _ => rfl
  simp only [Refines, exec, expireLease, hfilter]
  rfl

theorem refines_deleteExpiredLeases : Refines v6 raw ord now db .deleteExpiredLeases := by
  have hcount : ((db.toRaw v6).leases.countP fun l => decide (l.leaseEnd < now)) =
      db.leases.countP fun l => decide (l.leaseEnd < now) := by
    simp only [SqliteDb.toRaw, List.countP_map]
    rfl
  have hfilter : ((db.toRaw v6).leases.filter fun l => decide (now ≤ l.leaseEnd)) =
      (db.leases.filter fun l => decide (now ≤ l.leaseEnd)).map LeaseRow.toRaw :=
    filter_map_view fun _ => rfl
  simp only [Refines, exec, deleteExpiredLeases, hcount, hfilter]
  rfl

/-! Prefixes. -/

theorem refines_createIaPrefix (pfx : IAPrefix) :
    Refines v6 raw ord now db (.createIaPrefix pfx) := by
  simp only [Refines, exec, createIaPrefix, SqliteDb.exec, SqliteDb.createIaPrefix, SqliteDb.toRaw,
    List.map_append]
  rfl

theorem getIaPrefix_toRaw (id : ℤ) :
    (db.toRaw v6).getIaPrefix v6 id = some (db.getIaPrefix id) := by
  have hfind : (db.toRaw v6).iaPrefixes.find? (·.id == id) =
      (db.iaPrefixes.find? (·.id == id)).map (IaPrefixRow.toRaw v6) :=
    find?_map_view fun _ => rfl
  rw [getIaPrefix, hfind, mapM_read_option (IaPrefixRow.read_toRaw v6)]
  rfl

theorem refines_getIaPrefix (id : ℤ) : Refines v6 raw ord now db (.getIaPrefix id) := by
  simp only [Refines, exec, getIaPrefix_toRaw]
  rfl

theorem listIaPrefixes_toRaw (h : SameOrder v6 raw ord) (interface : Option String) :
    (db.toRaw v6).listIaPrefixes v6 raw interface = some (db.listIaPrefixes ord interface) := by
  cases interface with
  | none =>
    have hrows : raw.iaPrefixes.arrange (db.toRaw v6).iaPrefixes =
        (ord.iaPrefixes.arrange db.iaPrefixes).map (IaPrefixRow.toRaw v6) :=
      h.iaPrefixes db.iaPrefixes
    simp only [listIaPrefixes, hrows, mapM_read_map (IaPrefixRow.read_toRaw v6)]
    rfl
  | some i =>
    have hfilter : (db.toRaw v6).iaPrefixes.filter (·.interface == i) =
        (db.iaPrefixes.filter (·.interface == i)).map (IaPrefixRow.toRaw v6) :=
      filter_map_view fun _ => rfl
    simp only [listIaPrefixes, hfilter, h.iaPrefixes, mapM_read_map (IaPrefixRow.read_toRaw v6)]
    rfl

theorem refines_listIaPrefixes (h : SameOrder v6 raw ord) (interface : Option String) :
    Refines v6 raw ord now db (.listIaPrefixes interface) := by
  simp only [Refines, exec, listIaPrefixes_toRaw h]
  rfl

theorem refines_updateIaPrefix (id : ℤ) (pfx : IAPrefix) :
    Refines v6 raw ord now db (.updateIaPrefix id pfx) := by
  have hrows : ((db.toRaw v6).iaPrefixes.map fun r => if r.id == id then pfx.toRaw v6 id else r) =
      (db.iaPrefixes.map fun r => if r.id == id then pfx.toRow id else r).map
        (IaPrefixRow.toRaw v6) :=
    map_ite_view (fun _ => rfl) fun _ => rfl
  simp only [Refines, exec, updateIaPrefix, hrows]
  rfl

theorem refines_deleteIaPrefix (id : ℤ) : Refines v6 raw ord now db (.deleteIaPrefix id) := by
  have hfilter : (db.toRaw v6).iaPrefixes.filter (·.id != id) =
      (db.iaPrefixes.filter (·.id != id)).map (IaPrefixRow.toRaw v6) :=
    filter_map_view fun _ => rfl
  simp only [Refines, exec, deleteIaPrefix, hfilter]
  rfl

theorem refines_createToken (name tokenHash salt : String) :
    Refines v6 raw ord now db (.createToken name tokenHash salt) := by
  simp only [Refines, exec, execTokens, SqliteDb.exec, SqliteDb.createToken]
  have htokens : (db.toRaw v6).tokens.apiTokens = db.apiTokens := rfl
  rw [htokens]
  split <;> rfl

/-- **The refinement.** -/
theorem exec_encode (h : SameOrder v6 raw ord) (c : DbCall) : Refines v6 raw ord now db c := by
  cases c with
  | createSubnet subnet => exact refines_createSubnet subnet
  | getSubnet id => exact refines_getSubnet id
  | listSubnets => exact refines_listSubnets h
  | updateSubnet id subnet => exact refines_updateSubnet id subnet
  | deleteSubnet id => exact refines_deleteSubnet id
  | createRange range => exact refines_createRange range
  | listRanges subnetId => exact refines_listRanges h subnetId
  | deleteRange id => exact refines_deleteRange id
  | createStaticIp staticIp => exact refines_createStaticIp staticIp
  | listStaticIps subnetId => exact refines_listStaticIps h subnetId
  | getStaticIpByMac mac => exact refines_getStaticIpByMac h mac
  | updateStaticIpHostname ip hostname => exact refines_updateStaticIpHostname ip hostname
  | deleteStaticIp ip => exact refines_deleteStaticIp ip
  | createLease lease => exact refines_createLease lease
  | getActiveLease mac => exact refines_getActiveLease h mac
  | listActiveLeases => exact refines_listActiveLeases h
  | expireLease id => exact refines_expireLease id
  | deleteExpiredLeases => exact refines_deleteExpiredLeases
  | createIaPrefix pfx => exact refines_createIaPrefix pfx
  | getIaPrefix id => exact refines_getIaPrefix id
  | listIaPrefixes interface => exact refines_listIaPrefixes h interface
  | updateIaPrefix id pfx => exact refines_updateIaPrefix id pfx
  | deleteIaPrefix id => exact refines_deleteIaPrefix id
  -- the rows of tokens are the same in both stores
  | listTokens =>
    simp only [Refines, exec, execTokens, h.tokens]
    rfl
  | listApiTokens =>
    simp only [Refines, exec, execTokens, h.tokens]
    rfl
  | createToken name tokenHash salt => exact refines_createToken name tokenHash salt
  | deleteToken id => rfl
  | toggleToken id enabled => rfl
  | updateTokenLastUsed tokenHash => rfl

end RawDb

/-! ### Reachable databases -/

/-- A call as it is issued: at a clock reading, with the orders in which rows are listed. -/
structure IssuedCall where
  order : RawOrder
  now : ℤ
  call : DbCall

/-- The database after a call. -/
def RawDb.step (v6 : TextForm Ipv6Addr) (db : RawDb) (c : IssuedCall) : RawDb :=
  (db.exec v6 c.order c.now c.call).2

/-- Every database that can be reached encodes one with its keys in order. -/
theorem RawDb.exists_toRaw (v6 : TextForm Ipv6Addr) (calls : List IssuedCall) :
    ∃ db : SqliteDb, db.Keyed ∧ Run.after (RawDb.step v6) RawDb.empty calls = db.toRaw v6 := by
  have hany : Run.Along (RawDb.step v6) (fun _ _ => True) RawDb.empty calls :=
    Run.along_of_forall fun _ _ _ => trivial
  refine hany.invariant (I := fun raw => ∃ db : SqliteDb, db.Keyed ∧ raw = db.toRaw v6) ?_
    ⟨SqliteDb.empty, SqliteDb.keyed_empty, rfl⟩
  rintro raw c ⟨db, hkeyed, rfl⟩ -
  obtain ⟨ord, hord⟩ := exists_sameOrder v6 c.order
  have hexec : RawDb.Refines v6 c.order ord c.now db c.call := RawDb.exec_encode hord c.call
  exact ⟨_, hkeyed.exec c.call, by rw [RawDb.step, hexec]⟩

/-! ### Reading back -/

/-- How the rows of a table are read: one by its id, or all that pass a filter. -/
structure Reading (α : Type) where
  Filter : Type
  id : α → Option ℤ
  get : RawDb → ℤ → Option (Option α)
  list : Filter → RawOrder → RawDb → Option (List α)
  shown : Filter → α → Bool
  /-- What the table is not about. -/
  others : RawDb → RawDb

/-- `get_subnet` and `list_subnets`. -/
def subnetReading : Reading Subnet where
  Filter := Unit
  id := Subnet.id
  get := RawDb.getSubnet
  list _ order db := db.listSubnets order
  shown _ _ := true
  others db := { db with subnets := [], subnetSeq := 0 }

/-- `get_ia_prefix` and `list_ia_prefixes`, for one interface or for all. -/
def iaPrefixReading (v6 : TextForm Ipv6Addr) : Reading IAPrefix where
  Filter := Option String
  id := IAPrefix.id
  get := RawDb.getIaPrefix v6
  list interface order db := db.listIaPrefixes v6 order interface
  shown interface p := interface.all (p.interface == ·)
  others db := { db with iaPrefixes := [], iaPrefixSeq := 0 }

/-- After the value is written under the id, it is read under the id and every list has it that
shows it; all else is read as before. -/
structure ReadsBack {α : Type} (t : Reading α) (db db' : RawDb) (id : ℤ) (value : α) : Prop where
  get_self : t.get db' id = some (some value)
  get_other : ∀ id' ≠ id, t.get db' id' = t.get db id'
  list : ∀ filter order order', ∃ before after,
    t.list filter order db = some before ∧ t.list filter order' db' = some after ∧
    after.Perm ([value].filter (t.shown filter) ++ before.filter fun v => t.id v != some id)
  others : t.others db' = t.others db

section Shows

variable {α ρ : Type} {t : Reading α} {key : ρ → ℤ} {view : ρ → α} {rows rows' : List ρ}
  {row : ρ} {db db' : RawDb}

/-- The rows that the table is read as. -/
structure Shows (t : Reading α) (key : ρ → ℤ) (view : ρ → α) (rows : List ρ) (db : RawDb) :
    Prop where
  id_view : ∀ r, t.id (view r) = some (key r)
  get : ∀ id, t.get db id = some ((rows.find? (key · == id)).map view)
  list : ∀ filter order, ∃ o : RowOrder ρ, t.list filter order db =
    some ((o.arrange (rows.filter fun r => t.shown filter (view r))).map view)
  nodup : (rows.map key).Nodup

/-- **Writing a row.** -/
theorem Puts.readsBack (hputs : Puts key rows rows' row) (h : Shows t key view rows db)
    (h' : Shows t key view rows' db') (hothers : t.others db' = t.others db) :
    ReadsBack t db db' (key row) (view row) where
  get_self := by
    rw [h'.get, hputs.find?_self h'.nodup]
    rfl
  get_other id' hid' := by
    rw [h'.get, h.get, hputs.find?_other h.nodup h'.nodup hid']
  list filter order order' := by
    obtain ⟨o, ho⟩ := h.list filter order
    obtain ⟨o', ho'⟩ := h'.list filter order'
    refine ⟨_, _, ho, ho', ?_⟩
    have hshown : ((rows.filter fun r => t.shown filter (view r)).map view).filter
        (fun v => t.id v != some (key row)) =
        ((rows.filter fun r => key r != key row).filter fun r => t.shown filter (view r)).map
          view := by
      rw [List.filter_filter, List.filter_map, List.filter_filter]
      refine congrArg (List.map view) (List.filter_congr fun r _ => ?_)
      simp [h.id_view, bne, Bool.and_comm]
    have hvalue : [view row].filter (t.shown filter) =
        ([row].filter fun r => t.shown filter (view r)).map view :=
      (List.filter_map : ([row].map view).filter (t.shown filter) = _)
    have hafter : ((o'.arrange (rows'.filter fun r => t.shown filter (view r))).map view).Perm
        (((row :: rows.filter fun r => key r != key row).filter
          fun r => t.shown filter (view r)).map view) :=
      ((o'.perm _).trans (hputs.filter _)).map view
    have hbefore : (((o.arrange (rows.filter fun r => t.shown filter (view r))).map view).filter
        fun v => t.id v != some (key row)).Perm
        (((rows.filter fun r => t.shown filter (view r)).map view).filter
          fun v => t.id v != some (key row)) :=
      ((o.perm _).map view).filter _
    refine hafter.trans (.trans ?_ (hbefore.append_left _).symm)
    rw [hshown, hvalue, ← List.map_append, ← List.filter_append]
    rfl
  others := hothers

end Shows

namespace SqliteDb

variable {v6 : TextForm Ipv6Addr} {ord : ScanOrder} {now : ℤ} {db : SqliteDb}

theorem Keyed.shows_subnets (h : db.Keyed) :
    Shows subnetReading SubnetRow.id SubnetRow.toSubnet db.subnets (db.toRaw v6) where
  id_view _ := rfl
  get id := RawDb.getSubnet_toRaw id
  list filter order := by
    obtain ⟨ord, hord⟩ := exists_sameOrder v6 order
    refine ⟨ord.subnets, ?_⟩
    have hall : (db.subnets.filter fun r => subnetReading.shown filter r.toSubnet) = db.subnets :=
      List.filter_eq_self.mpr fun _ _ => rfl
    rw [hall]
    exact RawDb.listSubnets_toRaw hord
  nodup := h.subnets.nodup

theorem Keyed.shows_iaPrefixes (h : db.Keyed) :
    Shows (iaPrefixReading v6) IaPrefixRow.id IaPrefixRow.toIaPrefix db.iaPrefixes
      (db.toRaw v6) where
  id_view _ := rfl
  get id := RawDb.getIaPrefix_toRaw id
  list interface order := by
    obtain ⟨ord, hord⟩ := exists_sameOrder v6 order
    refine ⟨ord.iaPrefixes, (RawDb.listIaPrefixes_toRaw hord interface).trans ?_⟩
    cases interface with
    | none =>
      have hall : (db.iaPrefixes.filter fun r =>
          (iaPrefixReading v6).shown none r.toIaPrefix) = db.iaPrefixes :=
        List.filter_eq_self.mpr fun _ _ => rfl
      rw [hall]
      rfl
    | some i => rfl
  nodup := h.iaPrefixes.nodup

theorem getSubnet_eq_none_iff {id : ℤ} :
    db.getSubnet id = none ↔ ∀ r ∈ db.subnets, r.id ≠ id := by
  rw [getSubnet, Option.map_eq_none_iff, List.find?_eq_none]
  simp

theorem getIaPrefix_eq_none_iff {id : ℤ} :
    db.getIaPrefix id = none ↔ ∀ r ∈ db.iaPrefixes, r.id ≠ id := by
  rw [getIaPrefix, Option.map_eq_none_iff, List.find?_eq_none]
  simp

/-- A subnet that is accepted is written under a new id. -/
theorem Keyed.createSubnet_readsBack (v6 : TextForm Ipv6Addr) (h : db.Keyed)
    {subnet : Subnet} {id : ℤ} {db' : SqliteDb}
    (hcreate : db.createSubnet subnet = (.ok id, db')) :
    db.getSubnet id = none ∧
      ReadsBack subnetReading (db.toRaw v6) (db'.toRaw v6) id { subnet with id := some id } := by
  have hkeyed : db'.Keyed := by
    have hexec := @Keyed.exec .rowid 0 db h (.createSubnet subnet)
    rwa [SqliteDb.exec, hcreate] at hexec
  rw [createSubnet] at hcreate
  split at hcreate
  · cases hcreate
  · cases hcreate
    have hfresh : ∀ r ∈ db.subnets, r.id ≠ db.subnetSeq + 1 := by
      intro r hr
      have hle := h.subnets.fresh r hr
      omega
    have hputs := puts_append (subnet.toRow (db.subnetSeq + 1)) hfresh
    exact ⟨getSubnet_eq_none_iff.mpr hfresh, hputs.readsBack h.shows_subnets
      hkeyed.shows_subnets rfl⟩

/-- An update rewrites the row under the id, if there is one. -/
theorem Keyed.updateSubnet_readsBack (v6 : TextForm Ipv6Addr) (h : db.Keyed)
    {id : ℤ} {subnet : Subnet} {db' : SqliteDb}
    (hupdate : db.updateSubnet id subnet = (.ok (), db')) :
    (db.getSubnet id = none → db' = db) ∧ (db.getSubnet id ≠ none →
      ReadsBack subnetReading (db.toRaw v6) (db'.toRaw v6) id { subnet with id := some id }) := by
  have hkeyed : db'.Keyed := by
    have hexec := @Keyed.exec .rowid 0 db h (.updateSubnet id subnet)
    rwa [SqliteDb.exec, hupdate] at hexec
  rw [updateSubnet] at hupdate
  split at hupdate
  · cases hupdate
  · cases hupdate
    constructor
    · intro hnone
      rw [map_ite_of_forall_ne (getSubnet_eq_none_iff.mp hnone)]
    · intro hsome
      have hmem : ∃ r ∈ db.subnets, r.id = id := by
        by_contra hno
        exact hsome (getSubnet_eq_none_iff.mpr fun r hr hid => hno ⟨r, hr, hid⟩)
      have hputs := puts_map_ite (subnet.toRow id) h.subnets.nodup hmem
      exact hputs.readsBack h.shows_subnets hkeyed.shows_subnets rfl

/-- A prefix is written under a new id. -/
theorem Keyed.createIaPrefix_readsBack (v6 : TextForm Ipv6Addr) (h : db.Keyed)
    (pfx : IAPrefix) :
    db.getIaPrefix (db.createIaPrefix pfx).1 = none ∧
      ReadsBack (iaPrefixReading v6) (db.toRaw v6) ((db.createIaPrefix pfx).2.toRaw v6)
        (db.createIaPrefix pfx).1 { pfx with id := some (db.createIaPrefix pfx).1 } := by
  have hkeyed : (db.createIaPrefix pfx).2.Keyed :=
    @Keyed.exec .rowid 0 db h (.createIaPrefix pfx)
  have hfresh : ∀ r ∈ db.iaPrefixes, r.id ≠ db.iaPrefixSeq + 1 := by
    intro r hr
    have hle := h.iaPrefixes.fresh r hr
    omega
  have hputs := puts_append (pfx.toRow (db.iaPrefixSeq + 1)) hfresh
  exact ⟨getIaPrefix_eq_none_iff.mpr hfresh, hputs.readsBack h.shows_iaPrefixes
    hkeyed.shows_iaPrefixes rfl⟩

/-- An update rewrites the row under the id, if there is one. -/
theorem Keyed.updateIaPrefix_readsBack (v6 : TextForm Ipv6Addr) (h : db.Keyed)
    (id : ℤ) (pfx : IAPrefix) :
    (db.getIaPrefix id = none → db.updateIaPrefix id pfx = db) ∧ (db.getIaPrefix id ≠ none →
      ReadsBack (iaPrefixReading v6) (db.toRaw v6) ((db.updateIaPrefix id pfx).toRaw v6) id
        { pfx with id := some id }) := by
  have hkeyed : (db.updateIaPrefix id pfx).Keyed :=
    @Keyed.exec .rowid 0 db h (.updateIaPrefix id pfx)
  constructor
  · intro hnone
    rw [updateIaPrefix, map_ite_of_forall_ne (getIaPrefix_eq_none_iff.mp hnone)]
  · intro hsome
    have hmem : ∃ r ∈ db.iaPrefixes, r.id = id := by
      by_contra hno
      exact hsome (getIaPrefix_eq_none_iff.mpr fun r hr hid => hno ⟨r, hr, hid⟩)
    have hputs := puts_map_ite (pfx.toRow id) h.iaPrefixes.nodup hmem
    exact hputs.readsBack h.shows_iaPrefixes hkeyed.shows_iaPrefixes rfl

end SqliteDb

/-- **Rows are read back.** Take any database that calls of the trait can lead to. No call fails to
parse what it reads. A subnet that is created is new, and from then on it is read under its id as it
was written; an update of a subnet that exists has the same effect, and an update of one that does
not exist changes nothing. The same holds for prefixes. -/
theorem rows_read_back (v6 : TextForm Ipv6Addr) (calls : List IssuedCall) (db : RawDb)
    (hdb : Run.after (RawDb.step v6) RawDb.empty calls = db) :
    (∀ order now c, (db.exec v6 order now c).1 ≠ none) ∧
    (∀ order now subnet id db',
      db.exec v6 order now (.createSubnet subnet) = (some (.ok id), db') →
        db.getSubnet id = some none ∧
          ReadsBack subnetReading db db' id { subnet with id := some id }) ∧
    (∀ order now id subnet db',
      db.exec v6 order now (.updateSubnet id subnet) = (some (.ok ()), db') →
        (db.getSubnet id = some none → db' = db) ∧ (db.getSubnet id ≠ some none →
          ReadsBack subnetReading db db' id { subnet with id := some id })) ∧
    (∀ order now pfx id db',
      db.exec v6 order now (.createIaPrefix pfx) = (some (.ok id), db') →
        db.getIaPrefix v6 id = some none ∧
          ReadsBack (iaPrefixReading v6) db db' id { pfx with id := some id }) ∧
    ∀ order now id pfx db',
      db.exec v6 order now (.updateIaPrefix id pfx) = (some (.ok ()), db') →
        (db.getIaPrefix v6 id = some none → db' = db) ∧ (db.getIaPrefix v6 id ≠ some none →
          ReadsBack (iaPrefixReading v6) db db' id { pfx with id := some id }) := by
  obtain ⟨typed, hkeyed, htyped⟩ := RawDb.exists_toRaw v6 calls
  obtain rfl := hdb.symm.trans htyped
  -- every call is a call of the typed store
  have hrefines : ∀ order now c, ∃ ord, RawDb.Refines v6 order ord now typed c := by
    intro order now c
    obtain ⟨ord, hord⟩ := exists_sameOrder v6 order
    exact ⟨ord, RawDb.exec_encode hord c⟩
  refine ⟨fun order now c => ?_, fun order now subnet id db' h => ?_,
    fun order now id subnet db' h => ?_, fun order now pfx id db' h => ?_,
    fun order now id pfx db' h => ?_⟩
  · obtain ⟨ord, hexec⟩ := hrefines order now c
    rw [hexec]
    exact Option.some_ne_none _
  · obtain ⟨ord, hexec⟩ := hrefines order now (.createSubnet subnet)
    obtain ⟨hresult, rfl⟩ := Prod.ext_iff.mp (hexec.symm.trans h)
    obtain ⟨hnew, hreads⟩ :=
      hkeyed.createSubnet_readsBack v6 (Prod.ext (Option.some.inj hresult) rfl)
    exact ⟨by rw [RawDb.getSubnet_toRaw, hnew], hreads⟩
  · obtain ⟨ord, hexec⟩ := hrefines order now (.updateSubnet id subnet)
    obtain ⟨hresult, rfl⟩ := Prod.ext_iff.mp (hexec.symm.trans h)
    obtain ⟨hnone, hsome⟩ :=
      hkeyed.updateSubnet_readsBack v6 (Prod.ext (Option.some.inj hresult) rfl)
    rw [RawDb.getSubnet_toRaw]
    exact ⟨fun hget => congrArg (SqliteDb.toRaw v6) (hnone (Option.some.inj hget)),
      fun hget => hsome fun hno => hget (congrArg some hno)⟩
  · obtain ⟨ord, hexec⟩ := hrefines order now (.createIaPrefix pfx)
    obtain ⟨hresult, rfl⟩ := Prod.ext_iff.mp (hexec.symm.trans h)
    obtain rfl := Except.ok.inj (Option.some.inj hresult)
    obtain ⟨hnew, hreads⟩ := hkeyed.createIaPrefix_readsBack v6 pfx
    exact ⟨by rw [RawDb.getIaPrefix_toRaw]; exact congrArg some hnew, hreads⟩
  · obtain ⟨ord, hexec⟩ := hrefines order now (.updateIaPrefix id pfx)
    obtain ⟨-, rfl⟩ := Prod.ext_iff.mp (hexec.symm.trans h)
    obtain ⟨hnone, hsome⟩ := hkeyed.updateIaPrefix_readsBack v6 id pfx
    rw [RawDb.getIaPrefix_toRaw]
    exact ⟨fun hget => congrArg (SqliteDb.toRaw v6) (hnone (Option.some.inj hget)),
      fun hget => hsome fun hno => hget (congrArg some hno)⟩

/-! ### Addresses written in full -/

/-- Two octets as a group of four digits. -/
def hexGroups : List UInt8 → List (List Char)
  | a :: b :: octets => (hexByte a ++ hexByte b) :: hexGroups octets
  | _ => []

/-- A group of four digits as two octets. -/
def readHexGroup : List Char → Option (List UInt8)
  | [a, b, c, d] => do
    let high ← fromStrRadix16 [a, b]
    let low ← fromStrRadix16 [c, d]
    return [high, low]
  | _ => none

theorem readHexGroup_hexByte (a b : UInt8) :
    readHexGroup (hexByte a ++ hexByte b) = some [a, b] := by
  have hread : ∀ b, fromStrRadix16 (hexByte b) = some b := fun b =>
    (fromStrRadix16_octet_iff (isOctetText_hexByte b)).mpr (map_toLower_hexByte b)
  have ha := hread a
  have hb := hread b
  rw [hexByte] at ha hb
  simp only [hexByte, List.cons_append, List.nil_append, readHexGroup, ha, hb]
  rfl

theorem mapM_readHexGroup {octets : List UInt8} (h : 2 ∣ octets.length) :
    ((hexGroups octets).mapM readHexGroup).map List.flatten = some octets := by
  induction octets using hexGroups.induct with
  | case1 a b octets ih =>
    have hrest : 2 ∣ octets.length := by
      rw [List.length_cons, List.length_cons] at h
      omega
    obtain ⟨groups, hgroups, hflat⟩ := Option.map_eq_some_iff.mp (ih hrest)
    rw [hexGroups, List.mapM_cons, readHexGroup_hexByte, hgroups, ← hflat]
    rfl
  | case2 octets hshort =>
    have hnil : octets = [] := by
      match octets, hshort, h with
      | [], _, _ => rfl
      | [_], _, h => simp at h
      | a :: b :: octets, hshort, _ => exact absurd rfl (hshort a b octets)
    rw [hnil]
    rfl

theorem plain_of_mem_hexGroups {octets : List UInt8} {group : List Char}
    (h : group ∈ hexGroups octets) : ∀ c ∈ group, IsHexDigit c := by
  induction octets using hexGroups.induct with
  | case1 a b octets ih =>
    rw [hexGroups] at h
    rcases List.mem_cons.mp h with rfl | h
    · intro c hc
      rcases List.mem_append.mp hc with hc | hc
      · exact (isOctetText_hexByte a).2 c hc
      · exact (isOctetText_hexByte b).2 c hc
    · exact ih h
  | case2 octets hshort =>
    rw [hexGroups] at h
    · cases h
    · exact hshort

theorem length_hexGroups (octets : List UInt8) :
    (hexGroups octets).length = octets.length / 2 := by
  induction octets using hexGroups.induct with
  | case1 a b octets ih =>
    rw [hexGroups, List.length_cons, ih, List.length_cons, List.length_cons]
    omega
  | case2 octets hshort =>
    match octets, hshort with
    | [], _ => rfl
    | [_], _ => simp [hexGroups]
    | a :: b :: octets, hshort => exact absurd rfl (hshort a b octets)

/-- IPv6 addresses with all their digits. `Display` leaves out leading zeros and the longest run of
zero groups, so this is how it writes an address none of whose groups begins with a zero. -/
def fullIpv6Text : TextForm Ipv6Addr where
  display ip := String.ofList ([':'].intercalate (hexGroups ip.octets))
  fromStr text :=
    let groups := text.toList.splitOn ':'
    if groups.length = 8 then
      ((groups.mapM readHexGroup).map List.flatten).map Ipv6Addr.ofOctets
    else none
  fromStr_display ip := by
    have hlen : (hexGroups ip.octets).length = 8 := by
      rw [length_hexGroups, Ipv6Addr.length_octets]
    have hne : hexGroups ip.octets ≠ [] := by
      intro hnil
      rw [hnil] at hlen
      cases hlen
    have hsplit : ([':'].intercalate (hexGroups ip.octets)).splitOn ':' = hexGroups ip.octets :=
      List.splitOn_intercalate ':'
        (fun group hgroup hcolon =>
          not_isHexDigit_colon (plain_of_mem_hexGroups hgroup ':' hcolon)) hne
    rw [String.toList_ofList, hsplit]
    simp only [hlen, if_true]
    rw [mapM_readHexGroup (by simp), Option.map_some, Ipv6Addr.ofOctets_octets]
  plain ip c hc := by
    have hdigit : ∀ c, IsHexDigit c → c ≠ ',' ∧ isWhiteSpace c = false := by
      intro c hc
      obtain ⟨d, hd⟩ := Option.isSome_iff_exists.mp hc
      have hascii : c.toNat < 128 := by
        by_contra hbeyond
        rw [toHexDigit_eq_none (by omega)] at hd
        cases hd
      have hall : ∀ n < 128, IsHexDigit (Char.ofNat n) →
          Char.ofNat n ≠ ',' ∧ isWhiteSpace (Char.ofNat n) = false := by decide +kernel
      have hc' := hall c.toNat hascii
      rw [Char.ofNat_toNat] at hc'
      exact hc' hc
    rw [String.toList_ofList] at hc
    rcases mem_of_mem_intercalate hc with hc | ⟨group, hgroup, hc⟩
    · obtain rfl := List.mem_singleton.mp hc
      decide
    · exact hdigit c (plain_of_mem_hexGroups hgroup c hc)
  fromStr_empty := rfl

/-- A prefix with a DNS server is created, and updated to have two lifetimes of an hour and no
server. -/
theorem rows_read_back_prefix :
    ∃ (order : RawOrder) (created updated : IAPrefix) (db db' : RawDb),
      RawDb.empty.exec fullIpv6Text order 0 (.createIaPrefix created) = (some (.ok 1), db) ∧
      db.exec fullIpv6Text order 0 (.updateIaPrefix 1 updated) = (some (.ok ()), db') ∧
      created.dnsServers ≠ [] ∧ updated.dnsServers = [] ∧
      db.getIaPrefix fullIpv6Text 1 = some (some { created with id := some 1 }) ∧
      db'.getIaPrefix fullIpv6Text 1 = some (some { updated with id := some 1 }) := by
  let order : RawOrder := ⟨.id, .id, .id, .id, .id, .id, .id⟩
  let created : IAPrefix := ⟨none, "eth0", ⟨0x20014db8111122223333444455556666⟩, 64, 0xFFFFFFFF,
    0xFFFFFFFF, [⟨0x20014860486048604860486048608888⟩], 0⟩
  let updated : IAPrefix :=
    ⟨none, "eth0", ⟨0x20014db8111122223333444455556666⟩, 64, 3600, 3600, [], 0⟩
  let call : IssuedCall := ⟨order, 0, .createIaPrefix created⟩
  obtain ⟨-, -, -, hcreate, -⟩ := rows_read_back fullIpv6Text [] RawDb.empty rfl
  obtain ⟨-, -, -, -, hupdate⟩ := rows_read_back fullIpv6Text [call] _ rfl
  have hcreated := (hcreate order 0 created 1 _ rfl).2.get_self
  have hexists : (RawDb.empty.exec fullIpv6Text order 0 (.createIaPrefix created)).2.getIaPrefix
      fullIpv6Text 1 ≠ some none := by
    intro hnone
    cases hcreated.symm.trans hnone
  have hupdated := ((hupdate order 0 1 updated _ rfl).2 hexists).get_self
  exact ⟨order, created, updated, _, _, rfl, rfl, List.cons_ne_nil _ _, rfl, hcreated, hupdated⟩

end Ndhcpd
