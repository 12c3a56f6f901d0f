import Ndhcpd.Interaction.Run
import Ndhcpd.Db.Keys
import Ndhcpd.Db.Memory

/-!
# Two stores behind one trait

The daemon runs on SQLite and its tests run on the in-memory store. The two hold the same records:
`SqliteDb.inMemory` is the in-memory database that corresponds to the tables. They differ in what
they refuse and in what they choose. SQLite has a schema, and a call that violates a constraint
fails there and succeeds in memory; deleting a subnet takes along what refers to it; a lookup by
MAC address folds ASCII letters only, and of several leases returns the one that ends last.

`Conforms` names the calls for which none of this matters. Such a call gets the same answer from
both stores and leaves them in corresponding states (`corresponds_of_conforms`), so two stores that
start empty agree on every run of such calls (`backends_agree`). Apart from lookups, only such a
call does (`corresponds_iff_conforms`).
-/

namespace Ndhcpd

/-! ### The same answer -/

/-- A listed token without its timestamps. -/
def ApiToken.timeless (t : ApiToken) : ApiToken :=
  { t with createdAt := none, lastUsedAt := none }

/-- The two calls returned the same: lists as multisets, tokens without their timestamps. -/
def SameValue : (c : DbCall) → c.Ret → c.Ret → Prop
  | .listSubnets, a, b => a.Perm b
  | .listRanges _, a, b => a.Perm b
  | .listStaticIps _, a, b => a.Perm b
  | .listActiveLeases, a, b => a.Perm b
  | .listIaPrefixes _, a, b => a.Perm b
  | .listTokens, a, b => a.Perm b
  | .listApiTokens, a, b => (a.map ApiToken.timeless).Perm (b.map ApiToken.timeless)
  | _, a, b => a = b

/-- The two calls both succeed, with the same value, or both fail. -/
def Agree (c : DbCall) : c.Result → c.Result → Prop
  | .ok a, .ok b => SameValue c a b
  | .error _, .error _ => True
  | _, _ => False

/-! ### Corresponding states -/

/-- The token a row is kept as in memory. -/
def TokenRow.toMemoryToken (r : TokenRow) : MemoryToken := ⟨r.id, r.name, r.tokenHash, r.enabled⟩

/-- The in-memory database with the same records. -/
def SqliteDb.inMemory (db : SqliteDb) : MemoryDb where
  subnets := db.subnets.map SubnetRow.toSubnet
  ranges := db.dynamicRanges.map RangeRow.toRange
  staticIps := db.staticIps
  leases := db.leases.map LeaseRow.toLease
  iaPrefixes := db.iaPrefixes.map IaPrefixRow.toIaPrefix
  tokens := db.apiTokens.map TokenRow.toMemoryToken
  nextSubnetId := db.subnetSeq + 1
  nextRangeId := db.rangeSeq + 1
  nextLeaseId := db.leaseSeq + 1
  nextIaPrefixId := db.iaPrefixSeq + 1
  nextTokenId := db.tokenSeq + 1

@[simp] theorem SqliteDb.inMemory_empty : SqliteDb.empty.inMemory = MemoryDb.new := rfl

/-! ### Calls on which the stores agree -/

section Conforms

variable (toLowercase : String → String)

/-- The two foldings of letters find the same MAC texts among the given ones. -/
def FoldAlike (macs : List String) (mac : String) : Prop :=
  ∀ m ∈ macs, toLowercase m = toLowercase mac ↔ m.toLower = mac.toLower

/-- The active leases of a client, in the order in which they were created. -/
def SqliteDb.activeLeases (db : SqliteDb) (mac : String) (now : ℤ) : List LeaseRow :=
  db.leases.filter fun l => l.macAddress.toLower == mac.toLower && decide (now < l.leaseEnd)

/-- The call violates no constraint of the schema, deletes no subnet that something refers to,
and, if it looks up a MAC address, letters do not matter and there is only one possible answer:
at most one static assignment matches, or the oldest active lease ends after the others. -/
def Conforms (now : ℤ) (db : SqliteDb) : DbCall → Prop
  | .createSubnet subnet =>
    ∀ r ∈ db.subnets, ¬(r.network = subnet.network ∧ r.netmask = subnet.netmask)
  | .updateSubnet id subnet => db.hasSubnet id = true →
    ∀ r ∈ db.subnets, r.id ≠ id → ¬(r.network = subnet.network ∧ r.netmask = subnet.netmask)
  | .deleteSubnet id => (∀ r ∈ db.dynamicRanges, r.subnetId ≠ id) ∧
    (∀ s ∈ db.staticIps, s.subnetId ≠ id) ∧ ∀ l ∈ db.leases, l.subnetId ≠ id
  | .createRange range => db.hasSubnet range.subnetId = true
  | .createStaticIp staticIp => db.acceptsStaticIp staticIp = true
  | .getStaticIpByMac mac => FoldAlike toLowercase (db.staticIps.map (·.macAddress)) mac ∧
    (db.staticIps.filter fun s => s.macAddress.toLower == mac.toLower).length ≤ 1
  | .createLease lease => db.hasSubnet lease.subnetId = true
  | .getActiveLease mac => FoldAlike toLowercase (db.leases.map (·.macAddress)) mac ∧
    ∀ l rest, db.activeLeases mac now = l :: rest → ∀ l' ∈ rest, l'.leaseEnd < l.leaseEnd
  | .createToken name _ _ => ∀ r ∈ db.apiTokens, r.name ≠ name
  | _ => True

end Conforms

/-! ### Operations on corresponding tables -/

section Tables

variable {α β κ : Type} [DecidableEq κ] {view : α → β} {k : κ} {p : β → Bool} {f : β → β}
  {rows : List α}

/-- Where keys are unique, changing the first record under a key is updating the row under it. -/
theorem updateFirst_map_view (key : α → κ) (g : α → α) (hkeys : (rows.map key).Nodup)
    (hp : ∀ r, p (view r) = (key r == k)) (hf : ∀ r, key r = k → f (view r) = view (g r)) :
    updateFirst p f (rows.map view) = (rows.map fun r => if key r == k then g r else r).map view := by
  induction rows with
  | nil => rfl
  | cons row rows ih =>
    by_cases hrow : key row = k
    · rw [map_ite_of_first hkeys hrow, List.map_cons, updateFirst, hp row,
        if_pos (by simpa using hrow), hf row hrow, List.map_cons]
    · have hbeq : (key row == k) = false := by simpa using hrow
      have hrest := ih (List.nodup_cons.mp (List.map_cons ▸ hkeys)).2
      rw [List.map_cons, updateFirst, hp row, hbeq, hrest]
      simp [hrow]

/-- Rows and records are selected alike. -/
theorem filter_map_view {q : α → Bool} (hp : ∀ r, p (view r) = q r) :
    (rows.map view).filter p = (rows.filter q).map view := by
  rw [List.filter_map]
  exact congrArg (List.map view) (List.filter_congr fun r _ => hp r)

theorem find?_map_view {q : α → Bool} (hp : ∀ r, p (view r) = q r) :
    (rows.map view).find? p = (rows.find? q).map view := by
  rw [List.find?_map]
  exact congrArg (Option.map view) (congrArg (rows.find? ·) (funext hp))

/-- A query may list the records in any order. -/
theorem perm_arrange (o : RowOrder α) : (rows.map view).Perm ((o.arrange rows).map view) :=
  ((o.perm rows).map view).symm

end Tables

section Exec

variable {toLowercase : String → String} {ord : ScanOrder} {now : ℤ} {db : SqliteDb}

/-- The call has the same effect on both stores. -/
def Corresponds (toLowercase : String → String) (ord : ScanOrder) (now : ℤ) (db : SqliteDb)
    (c : DbCall) : Prop :=
  Agree c (MemoryDb.exec toLowercase now db.inMemory c).1 (SqliteDb.exec ord now db c).1 ∧
    (MemoryDb.exec toLowercase now db.inMemory c).2 = (SqliteDb.exec ord now db c).2.inMemory

/-! ### Subnets and ranges -/

theorem corresponds_createSubnet {subnet : Subnet}
    (h : Conforms toLowercase now db (.createSubnet subnet)) :
    Corresponds toLowercase ord now db (.createSubnet subnet) := by
  have hfree : (db.subnets.any fun r =>
      r.network == subnet.network && r.netmask == subnet.netmask) = false := by
    simpa [Conforms] using h
  have hexec : SqliteDb.exec ord now db (.createSubnet subnet) = (.ok (db.subnetSeq + 1),
      { db with
        subnets := db.subnets ++ [subnet.toRow (db.subnetSeq + 1)]
        subnetSeq := db.subnetSeq + 1 }) := if_neg (by simp [hfree])
  rw [Corresponds, hexec]
  refine ⟨rfl, ?_⟩
  simp only [MemoryDb.exec, MemoryDb.createSubnet, SqliteDb.inMemory, List.map_append]
  rfl

theorem corresponds_updateSubnet (hkeys : db.Keyed) {id : ℤ} {subnet : Subnet}
    (h : Conforms toLowercase now db (.updateSubnet id subnet)) :
    Corresponds toLowercase ord now db (.updateSubnet id subnet) := by
  have hfree : (db.hasSubnet id && db.subnets.any fun r =>
      r.id != id && r.network == subnet.network && r.netmask == subnet.netmask) = false := by
    cases hsub : db.hasSubnet id with
    | false => rfl
    | true => simpa [and_assoc] using h hsub
  have hexec : SqliteDb.exec ord now db (.updateSubnet id subnet) = (.ok (),
      { db with subnets := db.subnets.map fun r => if r.id == id then subnet.toRow id else r }) :=
    if_neg (by simp [hfree])
  have hrows : (db.inMemory.updateSubnet id subnet).subnets =
      (db.subnets.map fun r => if r.id == id then subnet.toRow id else r).map
        SubnetRow.toSubnet := by
    refine updateFirst_map_view SubnetRow.id (fun _ => subnet.toRow id) hkeys.subnets.nodup
      (fun r => ?_) fun r _ => rfl
    simp [SubnetRow.toSubnet]
  rw [Corresponds, hexec]
  exact ⟨rfl, congrArg (fun rows => { db.inMemory with subnets := rows }) hrows⟩

/-- Where nothing refers to the subnet there is nothing to cascade to. -/
theorem corresponds_deleteSubnet {id : ℤ} (h : Conforms toLowercase now db (.deleteSubnet id)) :
    Corresponds toLowercase ord now db (.deleteSubnet id) := by
  obtain ⟨hranges, hstatics, hleases⟩ := h
  have hsubnets : (db.subnets.map SubnetRow.toSubnet).filter (·.id != some id) =
      (db.subnets.filter (·.id != id)).map SubnetRow.toSubnet := by
    refine filter_map_view fun r => ?_
    simp [SubnetRow.toSubnet, bne]
  have hkeep : db.deleteSubnet id = { db with subnets := db.subnets.filter (·.id != id) } := by
    have hranges' : db.dynamicRanges.filter (·.subnetId != id) = db.dynamicRanges :=
      List.filter_eq_self.mpr (by simpa using hranges)
    have hstatics' : db.staticIps.filter (·.subnetId != id) = db.staticIps :=
      List.filter_eq_self.mpr (by simpa using hstatics)
    have hleases' : db.leases.filter (·.subnetId != id) = db.leases :=
      List.filter_eq_self.mpr (by simpa using hleases)
    rw [SqliteDb.deleteSubnet, hranges', hstatics', hleases']
  refine ⟨rfl, ?_⟩
  change _ = (db.deleteSubnet id).inMemory
  rw [hkeep]
  exact congrArg (fun rows => { db.inMemory with subnets := rows }) hsubnets

theorem corresponds_createRange {range : DynamicRange}
    (h : Conforms toLowercase now db (.createRange range)) :
    Corresponds toLowercase ord now db (.createRange range) := by
  have hexec : SqliteDb.exec ord now db (.createRange range) = (.ok (db.rangeSeq + 1),
      { db with
        dynamicRanges := db.dynamicRanges ++ [range.toRow (db.rangeSeq + 1)]
        rangeSeq := db.rangeSeq + 1 }) := if_pos h
  rw [Corresponds, hexec]
  refine ⟨rfl, ?_⟩
  simp only [MemoryDb.exec, MemoryDb.createRange, SqliteDb.inMemory, List.map_append]
  rfl

theorem corresponds_listRanges (subnetId : Option ℤ) :
    Corresponds toLowercase ord now db (.listRanges subnetId) := by
  refine ⟨?_, rfl⟩
  cases subnetId with
  | none => exact perm_arrange ord.ranges
  | some sid =>
    have hrows : (db.dynamicRanges.map RangeRow.toRange).filter (·.subnetId == sid) =
        (db.dynamicRanges.filter (·.subnetId == sid)).map RangeRow.toRange :=
      filter_map_view fun r => rfl
    change (List.filter _ (List.map _ _)).Perm _
    rw [hrows]
    exact perm_arrange ord.ranges

theorem corresponds_deleteRange (id : ℤ) :
    Corresponds toLowercase ord now db (.deleteRange id) := by
  have hrows : (db.dynamicRanges.map RangeRow.toRange).filter (·.id != some id) =
      (db.dynamicRanges.filter (·.id != id)).map RangeRow.toRange := by
    refine filter_map_view fun r => ?_
    simp [RangeRow.toRange, bne]
  exact ⟨rfl, congrArg (fun rows => { db.inMemory with ranges := rows }) hrows⟩

/-! ### Static assignments -/

theorem corresponds_createStaticIp {staticIp : StaticIP}
    (h : Conforms toLowercase now db (.createStaticIp staticIp)) :
    Corresponds toLowercase ord now db (.createStaticIp staticIp) := by
  obtain ⟨hfree, hsub⟩ := Bool.and_eq_true_iff.mp h
  have htaken : (db.staticIps.any fun s =>
      s.ipAddress == staticIp.ipAddress || s.macAddress == staticIp.macAddress) = false := by
    simpa using hfree
  have hexec : SqliteDb.exec ord now db (.createStaticIp staticIp) =
      (.ok (), { db with staticIps := db.staticIps ++ [staticIp] }) := by
    simp only [SqliteDb.exec, SqliteDb.createStaticIp, htaken, hsub]
    rfl
  rw [Corresponds, hexec]
  exact ⟨rfl, rfl⟩

theorem corresponds_listStaticIps (subnetId : Option ℤ) :
    Corresponds toLowercase ord now db (.listStaticIps subnetId) := by
  refine ⟨?_, rfl⟩
  cases subnetId <;> exact (ord.staticIps.perm _).symm

/-- A list of at most one row is the same in any order. -/
theorem arrange_of_length_le_one {α : Type} (o : RowOrder α) {rows : List α}
    (h : rows.length ≤ 1) : o.arrange rows = rows := by
  have hperm := o.perm rows
  match rows, h with
  | [], _ => exact hperm.eq_nil
  | [row], _ => exact List.perm_singleton.mp hperm

/-- Where letters do not matter the two stores select the same records. -/
theorem FoldAlike.filter_eq {α : Type} {rows : List α} {macOf : α → String} {mac : String}
    (h : FoldAlike toLowercase (rows.map macOf) mac) (q : α → Bool) :
    (rows.filter fun r => toLowercase (macOf r) == toLowercase mac && q r) =
      rows.filter fun r => (macOf r).toLower == mac.toLower && q r := by
  refine List.filter_congr fun r hr => ?_
  have hiff := h (macOf r) (List.mem_map_of_mem hr)
  rw [Bool.eq_iff_iff]
  simp [hiff]

theorem corresponds_getStaticIpByMac {mac : String}
    (h : Conforms toLowercase now db (.getStaticIpByMac mac)) :
    Corresponds toLowercase ord now db (.getStaticIpByMac mac) := by
  obtain ⟨hfold, hone⟩ := h
  have hsame : (db.staticIps.filter fun s => toLowercase s.macAddress == toLowercase mac) =
      db.staticIps.filter fun s => s.macAddress.toLower == mac.toLower := by
    simpa using hfold.filter_eq fun _ => true
  refine ⟨?_, rfl⟩
  change db.staticIps.find? _ = db.getStaticIpByMac ord mac
  rw [← List.head?_filter, hsame, SqliteDb.getStaticIpByMac, arrange_of_length_le_one _ hone]

/-- Addresses are unique, and so are their texts. -/
theorem corresponds_updateStaticIpHostname (hkeys : db.Keyed) (ip : String)
    (hostname : Option String) :
    Corresponds toLowercase ord now db (.updateStaticIpHostname ip hostname) := by
  have htexts : (db.staticIps.map (·.ipAddress.toString)).Nodup := by
    -- rows are found by the text of the address, which determines it
    have hnodup := hkeys.staticIps.map Ipv4Addr.toString_injective
    rwa [List.map_map] at hnodup
  have hrows : updateFirst (fun s => s.ipAddress.toString == ip)
      (fun s => { s with hostname := hostname }) (db.staticIps.map id) =
      (db.staticIps.map fun s =>
        if s.ipAddress.toString == ip then { s with hostname := hostname } else s).map id :=
    updateFirst_map_view (fun s : StaticIP => s.ipAddress.toString)
      (fun s => { s with hostname := hostname }) htexts (fun _ => rfl) fun _ _ => rfl
  rw [List.map_id, List.map_id] at hrows
  exact ⟨rfl, congrArg (fun rows => { db.inMemory with staticIps := rows }) hrows⟩

/-! ### Leases -/

theorem corresponds_createLease {lease : Lease}
    (h : Conforms toLowercase now db (.createLease lease)) :
    Corresponds toLowercase ord now db (.createLease lease) := by
  have hexec : SqliteDb.exec ord now db (.createLease lease) =
      (.ok (db.leaseSeq + 1), db.insertLease lease) := SqliteDb.createLease_of_hasSubnet h
  rw [Corresponds, hexec]
  refine ⟨rfl, ?_⟩
  simp only [MemoryDb.exec, MemoryDb.createLease, SqliteDb.insertLease, SqliteDb.inMemory,
    List.map_append]
  rfl

/-- The maximum of a list whose first element is above all others. -/
theorem maxOn?_arrange {α : Type} (o : RowOrder α) {f : α → ℤ} {rows : List α}
    (h : ∀ r rest, rows = r :: rest → ∀ r' ∈ rest, f r' < f r) :
    (o.arrange rows).maxOn? f = rows.head? := by
  cases rows with
  | nil =>
    rw [(o.perm []).eq_nil]
    rfl
  | cons r rest =>
    have hmem : r ∈ o.arrange (r :: rest) := o.mem_arrange.mpr List.mem_cons_self
    have hle := List.le_apply_get_maxOn?_of_mem (f := f) hmem
    obtain ⟨best, hbest⟩ := Option.isSome_iff_exists.mp (List.isSome_maxOn?_of_mem (f := f) hmem)
    simp only [hbest, Option.get_some] at hle
    rw [hbest]
    -- any other row would have to end earlier than the oldest, and later
    rcases List.mem_cons.mp (o.mem_arrange.mp (List.maxOn?_mem hbest)) with rfl | hrest
    · rfl
    · have hlt := h r rest rfl best hrest
      omega

theorem corresponds_getActiveLease {mac : String}
    (h : Conforms toLowercase now db (.getActiveLease mac)) :
    Corresponds toLowercase ord now db (.getActiveLease mac) := by
  obtain ⟨hfold, hlast⟩ := h
  refine ⟨?_, rfl⟩
  have hfind : (db.leases.map LeaseRow.toLease).find? (fun l =>
      toLowercase l.macAddress == toLowercase mac && decide (now < l.leaseEnd)) =
      (db.leases.find? fun l =>
        toLowercase l.macAddress == toLowercase mac && decide (now < l.leaseEnd)).map
        LeaseRow.toLease := find?_map_view fun r => rfl
  change (db.leases.map LeaseRow.toLease).find? _ = db.getActiveLease ord mac now
  rw [hfind, ← List.head?_filter, hfold.filter_eq fun l => decide (now < l.leaseEnd)]
  exact congrArg (Option.map LeaseRow.toLease) (maxOn?_arrange ord.activeLease hlast).symm

theorem corresponds_listActiveLeases :
    Corresponds toLowercase ord now db .listActiveLeases := by
  refine ⟨?_, rfl⟩
  have hrows : (db.leases.map LeaseRow.toLease).filter (fun l => decide (now < l.leaseEnd)) =
      (db.leases.filter fun l => decide (now < l.leaseEnd)).map LeaseRow.toLease :=
    filter_map_view fun r => rfl
  change (List.filter _ (List.map _ _)).Perm _
  rw [hrows]
  exact perm_arrange ord.leases

theorem inMemory_expireLease (id : ℤ) :
    db.inMemory.expireLease id = (db.expireLease id).inMemory := by
  have hrows : (db.leases.map LeaseRow.toLease).filter (·.id != some id) =
      (db.leases.filter (·.id != id)).map LeaseRow.toLease := by
    refine filter_map_view fun r => ?_
    simp [LeaseRow.toLease, bne]
  exact congrArg (fun rows => { db.inMemory with leases := rows }) hrows

theorem corresponds_expireLease (id : ℤ) : Corresponds toLowercase ord now db (.expireLease id) :=
  ⟨rfl, inMemory_expireLease id⟩

/-- Counting what is deleted is counting what is missing afterwards. -/
theorem corresponds_deleteExpiredLeases :
    Corresponds toLowercase ord now db .deleteExpiredLeases := by
  have hrows : (db.leases.map LeaseRow.toLease).filter (fun l => decide (now ≤ l.leaseEnd)) =
      (db.leases.filter fun l => decide (now ≤ l.leaseEnd)).map LeaseRow.toLease :=
    filter_map_view fun r => rfl
  have hcount : (db.leases.map LeaseRow.toLease).length -
      ((db.leases.map LeaseRow.toLease).filter fun l => decide (now ≤ l.leaseEnd)).length =
      db.leases.countP fun l => decide (l.leaseEnd < now) := by
    -- a row is kept or counted
    have hsplit := List.length_eq_countP_add_countP (l := db.leases)
      fun l => decide (now ≤ l.leaseEnd)
    have hrest : (db.leases.countP fun l => ¬decide (now ≤ l.leaseEnd) = true) =
        db.leases.countP fun l => decide (l.leaseEnd < now) :=
      List.countP_congr fun l _ => by simp
    rw [hrows, List.length_map, List.length_map, ← List.countP_eq_length_filter]
    omega
  exact ⟨hcount, congrArg (fun rows => { db.inMemory with leases := rows }) hrows⟩

/-! ### Prefixes and tokens -/

theorem corresponds_createIaPrefix (pfx : IAPrefix) :
    Corresponds toLowercase ord now db (.createIaPrefix pfx) := by
  refine ⟨rfl, ?_⟩
  simp only [MemoryDb.exec, MemoryDb.createIaPrefix, SqliteDb.exec, SqliteDb.createIaPrefix,
    SqliteDb.inMemory, List.map_append]
  rfl

theorem corresponds_listIaPrefixes (interface : Option String) :
    Corresponds toLowercase ord now db (.listIaPrefixes interface) := by
  refine ⟨?_, rfl⟩
  cases interface with
  | none => exact perm_arrange ord.iaPrefixes
  | some i =>
    have hrows : (db.iaPrefixes.map IaPrefixRow.toIaPrefix).filter (·.interface == i) =
        (db.iaPrefixes.filter (·.interface == i)).map IaPrefixRow.toIaPrefix :=
      filter_map_view fun r => rfl
    change (List.filter _ (List.map _ _)).Perm _
    rw [hrows]
    exact perm_arrange ord.iaPrefixes

theorem corresponds_updateIaPrefix (hkeys : db.Keyed) (id : ℤ) (pfx : IAPrefix) :
    Corresponds toLowercase ord now db (.updateIaPrefix id pfx) := by
  have hrows : (db.inMemory.updateIaPrefix id pfx).iaPrefixes =
      (db.iaPrefixes.map fun r => if r.id == id then pfx.toRow id else r).map
        IaPrefixRow.toIaPrefix := by
    refine updateFirst_map_view IaPrefixRow.id (fun _ => pfx.toRow id) hkeys.iaPrefixes.nodup
      (fun r => ?_) fun r _ => rfl
    simp [IaPrefixRow.toIaPrefix]
  exact ⟨rfl, congrArg (fun rows => { db.inMemory with iaPrefixes := rows }) hrows⟩

theorem corresponds_deleteIaPrefix (id : ℤ) :
    Corresponds toLowercase ord now db (.deleteIaPrefix id) := by
  have hrows : (db.iaPrefixes.map IaPrefixRow.toIaPrefix).filter (·.id != some id) =
      (db.iaPrefixes.filter (·.id != id)).map IaPrefixRow.toIaPrefix := by
    refine filter_map_view fun r => ?_
    simp [IaPrefixRow.toIaPrefix, bne]
  exact ⟨rfl, congrArg (fun rows => { db.inMemory with iaPrefixes := rows }) hrows⟩

theorem corresponds_listTokens : Corresponds toLowercase ord now db .listTokens := by
  have hrows : (db.apiTokens.map TokenRow.toMemoryToken).filter (·.enabled == 1) =
      (db.apiTokens.filter (·.enabled == 1)).map TokenRow.toMemoryToken :=
    filter_map_view fun r => rfl
  refine ⟨?_, rfl⟩
  change (List.map _ (List.filter _ (List.map _ _))).Perm _
  rw [hrows, List.map_map]
  exact perm_arrange ord.tokens

/-- The flags are zero or one, so that it does not matter what they are compared with. -/
theorem corresponds_listApiTokens (hkeys : db.Keyed) :
    Corresponds toLowercase ord now db .listApiTokens := by
  have hflags : db.inMemory.listApiTokens.map ApiToken.timeless =
      (db.apiTokens.map TokenRow.toApiToken).map ApiToken.timeless := by
    simp only [MemoryDb.listApiTokens, SqliteDb.inMemory, List.map_map]
    refine List.map_congr_left fun r hr => ?_
    rcases hkeys.flags r hr with hflag | hflag <;>
      simp [TokenRow.toMemoryToken, TokenRow.toApiToken, ApiToken.timeless, hflag]
  have hsorted := ((List.mergeSort_perm (ord.tokens.arrange db.apiTokens)
    fun a b => decide (b.createdAt ≤ a.createdAt)).trans (ord.tokens.perm _)).map
      (fun r => r.toApiToken.timeless)
  refine ⟨?_, rfl⟩
  change (db.inMemory.listApiTokens.map ApiToken.timeless).Perm
    ((db.listApiTokens ord).map ApiToken.timeless)
  rw [hflags, SqliteDb.listApiTokens, List.map_map, List.map_map]
  exact hsorted.symm

theorem corresponds_createToken {name tokenHash salt : String}
    (h : Conforms toLowercase now db (.createToken name tokenHash salt)) :
    Corresponds toLowercase ord now db (.createToken name tokenHash salt) := by
  have hfree : db.apiTokens.any (·.name == name) = false := by
    simpa [Conforms] using h
  have hexec : SqliteDb.exec ord now db (.createToken name tokenHash salt) =
      (.ok (db.tokenSeq + 1), { db with
        apiTokens := db.apiTokens ++ [⟨db.tokenSeq + 1, name, tokenHash, salt, now, none, 1⟩]
        tokenSeq := db.tokenSeq + 1 }) := if_neg (by simp [hfree])
  rw [Corresponds, hexec]
  refine ⟨rfl, ?_⟩
  simp only [MemoryDb.exec, MemoryDb.createToken, SqliteDb.inMemory, List.map_append]
  rfl

theorem corresponds_deleteToken (id : ℤ) :
    Corresponds toLowercase ord now db (.deleteToken id) := by
  have hrows : (db.apiTokens.map TokenRow.toMemoryToken).filter (·.id != id) =
      (db.apiTokens.filter (·.id != id)).map TokenRow.toMemoryToken :=
    filter_map_view fun r => rfl
  exact ⟨rfl, congrArg (fun rows => { db.inMemory with tokens := rows }) hrows⟩

theorem corresponds_toggleToken (hkeys : db.Keyed) (id : ℤ) (enabled : Bool) :
    Corresponds toLowercase ord now db (.toggleToken id enabled) := by
  have hrows : (db.inMemory.toggleToken id enabled).tokens =
      (db.apiTokens.map fun r => if r.id == id then
        { r with enabled := if enabled then 1 else 0 } else r).map TokenRow.toMemoryToken :=
    updateFirst_map_view TokenRow.id (fun r => { r with enabled := if enabled then 1 else 0 })
      hkeys.apiTokens.nodup (fun _ => rfl) fun _ _ => rfl
  exact ⟨rfl, congrArg (fun rows => { db.inMemory with tokens := rows }) hrows⟩

/-- Timestamps are not kept in memory. -/
theorem corresponds_updateTokenLastUsed (tokenHash : String) :
    Corresponds toLowercase ord now db (.updateTokenLastUsed tokenHash) := by
  have hrows : db.apiTokens.map TokenRow.toMemoryToken = (db.apiTokens.map fun r =>
      if r.tokenHash == tokenHash then { r with lastUsedAt := some now } else r).map
        TokenRow.toMemoryToken := by
    rw [List.map_map]
    refine List.map_congr_left fun r _ => ?_
    rw [Function.comp_apply]
    split <;> rfl
  exact ⟨rfl, congrArg (fun rows => { db.inMemory with tokens := rows }) hrows⟩

/-! ### All calls -/

/-- **One call.** A call that conforms gets the same answer from both stores and leaves them in
corresponding states. -/
theorem corresponds_of_conforms (hkeys : db.Keyed) {c : DbCall} (h : Conforms toLowercase now db c) :
    Corresponds toLowercase ord now db c := by
  cases c with
  | createSubnet subnet => exact corresponds_createSubnet h
  | getSubnet id =>
    refine ⟨find?_map_view fun r => ?_, rfl⟩
    simp [SubnetRow.toSubnet]
  | listSubnets => exact ⟨perm_arrange ord.subnets, rfl⟩
  | updateSubnet id subnet => exact corresponds_updateSubnet hkeys h
  | deleteSubnet id => exact corresponds_deleteSubnet h
  | createRange range => exact corresponds_createRange h
  | listRanges subnetId => exact corresponds_listRanges subnetId
  | deleteRange id => exact corresponds_deleteRange id
  | createStaticIp staticIp => exact corresponds_createStaticIp h
  | listStaticIps subnetId => exact corresponds_listStaticIps subnetId
  | getStaticIpByMac mac => exact corresponds_getStaticIpByMac h
  | updateStaticIpHostname ip hostname =>
    exact corresponds_updateStaticIpHostname hkeys ip hostname
  | deleteStaticIp ip => exact ⟨rfl, rfl⟩
  | createLease lease => exact corresponds_createLease h
  | getActiveLease mac => exact corresponds_getActiveLease h
  | listActiveLeases => exact corresponds_listActiveLeases
  | expireLease id => exact corresponds_expireLease id
  | deleteExpiredLeases => exact corresponds_deleteExpiredLeases
  | createIaPrefix pfx => exact corresponds_createIaPrefix pfx
  | getIaPrefix id =>
    refine ⟨find?_map_view fun r => ?_, rfl⟩
    simp [IaPrefixRow.toIaPrefix]
  | listIaPrefixes interface => exact corresponds_listIaPrefixes interface
  | updateIaPrefix id pfx => exact corresponds_updateIaPrefix hkeys id pfx
  | deleteIaPrefix id => exact corresponds_deleteIaPrefix id
  | listTokens => exact corresponds_listTokens
  | listApiTokens => exact corresponds_listApiTokens hkeys
  | createToken name tokenHash salt => exact corresponds_createToken h
  | deleteToken id => exact corresponds_deleteToken id
  | toggleToken id enabled => exact corresponds_toggleToken hkeys id enabled
  | updateTokenLastUsed tokenHash => exact corresponds_updateTokenLastUsed tokenHash

/-- The calls that look a client up by its MAC text. -/
def DbCall.looksUpMac : DbCall → Bool
  | getStaticIpByMac _ | getActiveLease _ => true
  | _ => false

/-- Two answers of which one is an error. -/
theorem not_agree_error {c : DbCall} {a : c.Ret} {e : DbError} : ¬ Agree c (.ok a) (.error e) :=
  fun h => h

/-- A table that is the same after a deletion had nothing to delete. -/
theorem forall_ne_of_map_filter {α β : Type} {view : α → β} {key : α → ℤ} {id : ℤ} {rows : List α}
    (h : rows.map view = (rows.filter (key · != id)).map view) : ∀ r ∈ rows, key r ≠ id := by
  have hlen : (rows.filter (key · != id)).length = rows.length := by
    simpa using (congrArg List.length h).symm
  intro r hr
  simpa using List.length_filter_eq_length_iff.mp hlen r hr

/-- Apart from lookups, a call that does not conform gets different answers or leaves the stores in
states that do not correspond. -/
theorem conforms_of_corresponds {c : DbCall} (hlookup : c.looksUpMac = false)
    (h : Corresponds toLowercase ord now db c) : Conforms toLowercase now db c := by
  obtain ⟨hagree, hstate⟩ := h
  cases c with
  | createSubnet subnet =>
    intro r hr hsame
    have htaken : SqliteDb.exec ord now db (.createSubnet subnet) = (.error .uniqueViolation, db) :=
      if_pos (List.any_eq_true.mpr ⟨r, hr, by simpa using hsame⟩)
    rw [htaken] at hagree
    exact not_agree_error hagree
  | updateSubnet id subnet =>
    intro hsub r hr hid hsame
    have htaken : SqliteDb.exec ord now db (.updateSubnet id subnet) =
        (.error .uniqueViolation, db) := by
      refine if_pos (Bool.and_eq_true_iff.mpr ⟨hsub, List.any_eq_true.mpr ⟨r, hr, ?_⟩⟩)
      simpa [hid] using hsame
    rw [htaken] at hagree
    exact not_agree_error hagree
  | deleteSubnet id =>
    -- the in-memory store keeps what refers to the subnet
    have hranges := congrArg MemoryDb.ranges hstate
    have hstatics := congrArg (fun m : MemoryDb => m.staticIps.map fun s => s) hstate
    have hleases := congrArg MemoryDb.leases hstate
    exact ⟨forall_ne_of_map_filter hranges, forall_ne_of_map_filter hstatics,
      forall_ne_of_map_filter hleases⟩
  | createRange range =>
    by_contra hsub
    have hrefused : SqliteDb.exec ord now db (.createRange range) =
        (.error .foreignKeyViolation, db) := if_neg hsub
    rw [hrefused] at hagree
    exact not_agree_error hagree
  | createStaticIp staticIp =>
    by_contra hrefuse
    simp only [SqliteDb.exec, SqliteDb.createStaticIp] at hagree
    split at hagree
    · exact not_agree_error hagree
    · next hfree =>
      split at hagree
      · next hsub =>
        refine hrefuse (Bool.and_eq_true_iff.mpr ⟨?_, hsub⟩)
        simpa using hfree
      · exact not_agree_error hagree
  | createLease lease =>
    by_contra hsub
    have hrefused : SqliteDb.exec ord now db (.createLease lease) =
        (.error .foreignKeyViolation, db) := if_neg hsub
    rw [hrefused] at hagree
    exact not_agree_error hagree
  | createToken name tokenHash salt =>
    intro r hr hname
    have htaken : SqliteDb.exec ord now db (.createToken name tokenHash salt) =
        (.error .uniqueViolation, db) :=
      if_pos (List.any_eq_true.mpr ⟨r, hr, by simpa using hname⟩)
    rw [htaken] at hagree
    exact not_agree_error hagree
  | getStaticIpByMac mac => cases hlookup
  | getActiveLease mac => cases hlookup
  | _ => trivial

/-- **Nothing else would do.** Apart from lookups, the calls that conform are exactly those that
have the same effect on both stores. -/
theorem corresponds_iff_conforms (hkeys : db.Keyed) {c : DbCall} (hlookup : c.looksUpMac = false) :
    Corresponds toLowercase ord now db c ↔ Conforms toLowercase now db c :=
  ⟨conforms_of_corresponds hlookup, corresponds_of_conforms hkeys⟩

end Exec

/-! ### Runs -/

/-- The store after a call that is made at a clock reading. -/
def SqliteDb.step (ord : ScanOrder) (db : SqliteDb) (call : ℤ × DbCall) : SqliteDb :=
  (SqliteDb.exec ord call.1 db call.2).2

/-- The store after a call that is made at a clock reading. -/
def MemoryDb.step (toLowercase : String → String) (db : MemoryDb) (call : ℤ × DbCall) : MemoryDb :=
  (MemoryDb.exec toLowercase call.1 db call.2).2

/-- Starting empty, the two stores give the same answer to each of the calls. -/
def AgreeOn (toLowercase : String → String) (ord : ScanOrder) (calls : List (ℤ × DbCall)) : Prop :=
  ∀ done call, done ++ [call] <+: calls → Agree call.2
    (MemoryDb.exec toLowercase call.1 (Run.after (MemoryDb.step toLowercase) .new done) call.2).1
    (SqliteDb.exec ord call.1 (Run.after (SqliteDb.step ord) .empty done) call.2).1

/-- **When the stores are interchangeable.** Make any calls of the `Database` trait, with any clock
readings, on an empty in-memory database and on the database as the migrations leave it. If each of
the calls conforms in the state in which it is made, then each of them succeeds on both stores or
on neither and returns the same value: lists as multisets, tokens without their timestamps. -/
theorem backends_agree (toLowercase : String → String) (ord : ScanOrder)
    (calls : List (ℤ × DbCall))
    (h : Run.Along (SqliteDb.step ord) (fun db call => Conforms toLowercase call.1 db call.2)
      .empty calls) :
    AgreeOn toLowercase ord calls := by
  rintro done call ⟨rest, rfl⟩
  rw [List.append_assoc, Run.along_append] at h
  -- the calls made so far keep the states in correspondence
  obtain ⟨hdone, hcall, -⟩ := h
  obtain ⟨hkeys, hmemory⟩ := hdone.simulation (MemoryDb.step toLowercase) id
    (R := fun db memory => db.Keyed ∧ memory = db.inMemory) (fun db memory call hR hconforms => by
      obtain ⟨hkeys, rfl⟩ := hR
      exact ⟨hkeys.exec call.2, (corresponds_of_conforms hkeys hconforms).2⟩)
    ⟨SqliteDb.keyed_empty, SqliteDb.inMemory_empty.symm⟩
  rw [List.map_id] at hmemory
  rw [hmemory]
  exact (corresponds_of_conforms hkeys hcall).1

namespace Sample

/-- A subnet of the test network, without a name server. -/
def plainSubnet : Subnet := ⟨none, .new 10 0 0 0, 24, .new 10 0 0 1, [], none⟩

/-- A lease of a client, up to a point in time. -/
def plainLease (leaseEnd : ℤ) : Lease := ⟨none, 1, "02", .new 10 0 0 10, 0, leaseEnd, none⟩

/-- A subnet gets a range, a static assignment and a lease, and the client is looked up. -/
def lookups : List (ℤ × DbCall) :=
  [(0, .createSubnet plainSubnet),
    (0, .createRange ⟨none, 1, .new 10 0 0 10, .new 10 0 0 20, true⟩),
    (0, .createStaticIp ⟨1, "02", .new 10 0 0 50, none⟩), (0, .createLease (plainLease 60)),
    (30, .getStaticIpByMac "02"), (30, .getActiveLease "02"), (90, .deleteExpiredLeases),
    (90, .createToken "admin" "hash" "salt"), (90, .listApiTokens)]

end Sample

/-- The stores agree on lookups of a client with one static assignment and one lease. -/
theorem backends_agree_lookups : AgreeOn String.toLower .rowid Sample.lookups := by
  refine backends_agree String.toLower .rowid Sample.lookups
    ⟨fun r hr => absurd hr List.not_mem_nil, rfl, rfl, rfl, ⟨fun _ _ => Iff.rfl, ?_⟩,
      ⟨fun _ _ => Iff.rfl, fun l rest hrows l' hl' => ?_⟩, trivial,
      fun r hr => absurd hr List.not_mem_nil, trivial, trivial⟩
  · exact List.length_filter_le _ _
  · have hlen : (l :: rest).length ≤ 1 := by
      rw [← hrows]
      exact List.length_filter_le _ _
    obtain rfl : rest = [] := List.eq_nil_of_length_eq_zero (by simpa using hlen)
    exact absurd hl' List.not_mem_nil

namespace Sample

/-- The same subnet is created twice. -/
def createdTwice : List (ℤ × DbCall) :=
  [(0, .createSubnet plainSubnet), (0, .createSubnet plainSubnet)]

/-- A subnet is deleted while it has a range. -/
def cascade : List (ℤ × DbCall) :=
  [(0, .createSubnet plainSubnet),
    (0, .createRange ⟨none, 1, .new 10 0 0 10, .new 10 0 0 20, true⟩),
    (0, .deleteSubnet 1), (0, .listRanges none)]

/-- A client with two active leases is looked up. -/
def twoLeases : List (ℤ × DbCall) :=
  [(0, .createSubnet plainSubnet), (0, .createLease (plainLease 60)),
    (0, .createLease (plainLease 120)), (0, .getActiveLease "02")]

end Sample

/-- The stores differ where the schema refuses a call, where it cascades, and where there is a
choice. -/
theorem backends_disagree :
    ¬ AgreeOn String.toLower .rowid Sample.createdTwice ∧
      ¬ AgreeOn String.toLower .rowid Sample.cascade ∧
      ¬ AgreeOn String.toLower .rowid Sample.twoLeases := by
  refine ⟨fun h => ?_, fun h => ?_, fun h => ?_⟩
  · exact h (Sample.createdTwice.take 1) _ (List.prefix_refl _)
  · have hperm := h (Sample.cascade.take 3) _ (List.prefix_refl _)
    exact absurd hperm.length_eq (by decide)
  · have hsame := h (Sample.twoLeases.take 3) _ (List.prefix_refl _)
    exact absurd (congrArg (Option.map Lease.leaseEnd) hsame) (by decide +kernel)

end Ndhcpd
