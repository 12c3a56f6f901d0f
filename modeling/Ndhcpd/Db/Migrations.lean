import Ndhcpd.Db.Integrity
import Ndhcpd.Table.Versions

/-!
# The migrations of the database

`SqliteDatabase::new` runs the migrations that a database does not have behind it. The schema has
had seven of them: the first creates the tables for DHCPv4, two more create those of the tokens and
of the IPv6 prefixes, and the last four drop columns. `static_ips` has lost its number and its
flag `enabled`, each time by copying the rows to a new table under the constraints; `leases` has
lost its flag `active`, `subnets` and `ia_prefixes` have lost their flags `enabled`.

A version is the number of migrations applied. `contents` is what is kept of a database of any
version: its rows without the columns that are dropped. `migrations_keep_data` is the result: from
every version, if the constraints of the schema hold, the migrations succeed, the database they
leave is these contents up to the order of `static_ips`, and the constraints go on to hold in every
run.

Columns that nothing reads (`created_at` of subnets, ranges and static assignments) are left out,
here as in `SqliteDb`, and so are the indexes.
-/

namespace Ndhcpd

/-! ### Rows of earlier versions -/

/-- A row of `subnets` with the flag that `20240107000000_drop_enabled_columns.sql` drops. -/
structure EnabledSubnetRow extends SubnetRow where
  enabled : ℤ
deriving DecidableEq, Repr

/-- A row of `static_ips` with the flag that `20240105000000_static_ips_drop_enabled.sql` drops. -/
structure EnabledStaticIp extends StaticIP where
  enabled : ℤ
deriving DecidableEq, Repr

/-- A row of `static_ips` with the number that `20240104000000_static_ips_ip_pk.sql` drops. -/
structure NumberedStaticIp extends EnabledStaticIp where
  id : ℤ
deriving DecidableEq, Repr

/-- A row of `leases` with the flag that `20240106000000_leases_drop_active.sql` drops. -/
structure ActiveLeaseRow extends LeaseRow where
  active : ℤ
deriving DecidableEq, Repr

/-- A row of `ia_prefixes` with the flag that `20240107000000_drop_enabled_columns.sql` drops. -/
structure EnabledIaPrefixRow extends IaPrefixRow where
  enabled : ℤ
deriving DecidableEq, Repr

/-! ### Layouts -/

/-- The tables of `20240101000000_init.sql`, with the rows of a version. -/
structure InitTables (Subnet StaticIp Lease : Type) where
  subnets : List Subnet
  dynamicRanges : List RangeRow
  staticIps : List StaticIp
  leases : List Lease
  subnetSeq : ℤ
  rangeSeq : ℤ
  leaseSeq : ℤ

/-- With the table of `20240102000000_api_tokens.sql`. -/
structure TokenTables (Subnet StaticIp Lease : Type) extends InitTables Subnet StaticIp Lease where
  apiTokens : List TokenRow
  tokenSeq : ℤ

/-- With the table of `20240103000000_ia_prefixes.sql`. -/
structure AllTables (Subnet StaticIp Lease IaPrefix : Type) extends
    TokenTables Subnet StaticIp Lease where
  iaPrefixes : List IaPrefix
  iaPrefixSeq : ℤ

/-- The layout of a version. -/
abbrev SqliteLayout : ℕ → Type
  | 0 => Unit
  | 1 => InitTables EnabledSubnetRow NumberedStaticIp ActiveLeaseRow
  | 2 => TokenTables EnabledSubnetRow NumberedStaticIp ActiveLeaseRow
  | 3 => AllTables EnabledSubnetRow NumberedStaticIp ActiveLeaseRow EnabledIaPrefixRow
  | 4 => AllTables EnabledSubnetRow EnabledStaticIp ActiveLeaseRow EnabledIaPrefixRow
  | 5 => AllTables EnabledSubnetRow StaticIP ActiveLeaseRow EnabledIaPrefixRow
  | 6 => AllTables EnabledSubnetRow StaticIP LeaseRow EnabledIaPrefixRow
  | _ => SqliteDb

/-- The orders in which the two migrations that copy `static_ips` scan the old table. -/
structure CopyOrder where
  numbered : RowOrder NumberedStaticIp
  enabled : RowOrder EnabledStaticIp

namespace Migration

/-- `20240101000000_init.sql`. -/
def init : SqliteLayout 1 := ⟨[], [], [], [], 0, 0, 0⟩

/-- `20240102000000_api_tokens.sql`. -/
def apiTokens (db : SqliteLayout 1) : SqliteLayout 2 := { db with apiTokens := [], tokenSeq := 0 }

/-- `20240103000000_ia_prefixes.sql`. -/
def iaPrefixes (db : SqliteLayout 2) : SqliteLayout 3 :=
  { db with iaPrefixes := [], iaPrefixSeq := 0 }

/-- The primary key `ip_address` and `UNIQUE(mac_address)` exclude one of the two rows. -/
def clash {α : Type} (assignment : α → StaticIP) (r row : α) : Bool :=
  (assignment r).ipAddress == (assignment row).ipAddress ||
    (assignment r).macAddress == (assignment row).macAddress

/-- `INSERT INTO static_ips_new … SELECT … FROM static_ips`. The foreign key to `subnets` is checked
at the end. -/
def copyStaticIps {α : Type} (assignment : α → StaticIP) (hasSubnet : ℤ → Bool) (rows : List α) :
    Except DbError (List α) := do
  let table ← insertRows (clash assignment) .uniqueViolation [] rows
  if table.all fun r => hasSubnet (assignment r).subnetId then return table
  else throw .foreignKeyViolation

/-- `20240104000000_static_ips_ip_pk.sql`. -/
def staticIpsIpPk (order : RowOrder NumberedStaticIp) (db : SqliteLayout 3) :
    Except DbError (SqliteLayout 4) := do
  let staticIps ← copyStaticIps (·.toStaticIP) (fun id => db.subnets.any (·.id == id))
    ((order.arrange db.staticIps).map (·.toEnabledStaticIp))
  return { db with staticIps }

/-- `20240105000000_static_ips_drop_enabled.sql`. -/
def staticIpsDropEnabled (order : RowOrder EnabledStaticIp) (db : SqliteLayout 4) :
    Except DbError (SqliteLayout 5) := do
  let staticIps ← copyStaticIps id (fun id => db.subnets.any (·.id == id))
    ((order.arrange db.staticIps).map (·.toStaticIP))
  return { db with staticIps }

/-- `20240106000000_leases_drop_active.sql`. -/
def leasesDropActive (db : SqliteLayout 5) : SqliteLayout 6 :=
  { db with leases := db.leases.map (·.toLeaseRow) }

/-- `20240107000000_drop_enabled_columns.sql`. -/
def dropEnabledColumns (db : SqliteLayout 6) : SqliteDb :=
  { db with
    subnets := db.subnets.map (·.toSubnetRow)
    iaPrefixes := db.iaPrefixes.map (·.toIaPrefixRow) }

end Migration

/-- The versions of the schema. -/
def sqliteVersions (order : CopyOrder) : Versions DbError where
  Layout := SqliteLayout
  migrate
    | 0, _ => .ok Migration.init
    | 1, db => .ok (Migration.apiTokens db)
    | 2, db => .ok (Migration.iaPrefixes db)
    | 3, db => Migration.staticIpsIpPk order.numbered db
    | 4, db => Migration.staticIpsDropEnabled order.enabled db
    | 5, db => .ok (Migration.leasesDropActive db)
    | 6, db => .ok (Migration.dropEnabledColumns db)
    -- there are no more
    | _ + 7, db => .ok db

/-- A database file, with the version it is in. -/
abbrev StoredDb : Type := Σ v, SqliteLayout v

/-- `SqliteDatabase::new`: run the migrations, with `sqlx::migrate!` for the migrator. -/
def SqliteDb.new (migrator : StoredDb → Except DbError StoredDb) (stored : StoredDb) :
    Except DbError SqliteDb :=
  match migrator stored with
  | .ok ⟨7, db⟩ => .ok db
  | .ok _ => .error .unavailable
  | .error e => .error e

/-! ### What is kept -/

section Contents

variable {Subnet StaticIp Lease IaPrefix : Type} (subnet : Subnet → SubnetRow)
  (staticIp : StaticIp → StaticIP) (lease : Lease → LeaseRow) (pfx : IaPrefix → IaPrefixRow)

/-- What the first schema holds, as a database of the last one. -/
def InitTables.contents (db : InitTables Subnet StaticIp Lease) : SqliteDb :=
  { SqliteDb.empty with
    subnets := db.subnets.map subnet
    dynamicRanges := db.dynamicRanges
    staticIps := db.staticIps.map staticIp
    leases := db.leases.map lease
    subnetSeq := db.subnetSeq
    rangeSeq := db.rangeSeq
    leaseSeq := db.leaseSeq }

/-- What the schemas with tokens hold. -/
def TokenTables.contents (db : TokenTables Subnet StaticIp Lease) : SqliteDb :=
  { db.toInitTables.contents subnet staticIp lease with
    apiTokens := db.apiTokens
    tokenSeq := db.tokenSeq }

/-- What the schemas with prefixes hold. -/
def AllTables.contents (db : AllTables Subnet StaticIp Lease IaPrefix) : SqliteDb :=
  { db.toTokenTables.contents subnet staticIp lease with
    iaPrefixes := db.iaPrefixes.map pfx
    iaPrefixSeq := db.iaPrefixSeq }

end Contents

/-- What is kept of a database: the rows of the current version without the columns that are
dropped. -/
def SqliteLayout.contents : (v : ℕ) → SqliteLayout v → SqliteDb
  | 0, _ => .empty
  | 1, db => InitTables.contents (·.toSubnetRow) (·.toStaticIP) (·.toLeaseRow) db
  | 2, db => TokenTables.contents (·.toSubnetRow) (·.toStaticIP) (·.toLeaseRow) db
  | 3, db => AllTables.contents (·.toSubnetRow) (·.toStaticIP) (·.toLeaseRow) (·.toIaPrefixRow) db
  | 4, db => AllTables.contents (·.toSubnetRow) (·.toStaticIP) (·.toLeaseRow) (·.toIaPrefixRow) db
  | 5, db => AllTables.contents (·.toSubnetRow) id (·.toLeaseRow) (·.toIaPrefixRow) db
  | 6, db => AllTables.contents (·.toSubnetRow) id id (·.toIaPrefixRow) db
  | _ + 7, db => db

/-- What is kept of a database file. -/
abbrev StoredDb.contents (stored : StoredDb) : SqliteDb := SqliteLayout.contents stored.1 stored.2

/-- The same rows and counters, up to the order of `static_ips`. -/
structure SqliteDb.SameRows (db db' : SqliteDb) : Prop where
  staticIps : db'.staticIps.Perm db.staticIps
  rest : db' = { db with staticIps := db'.staticIps }

namespace SqliteDb

variable {db db' db'' : SqliteDb}

theorem SameRows.of_eq (h : db' = db) : db.SameRows db' := by
  subst h
  exact ⟨List.Perm.refl _, rfl⟩

theorem SameRows.trans (h : db.SameRows db') (h' : db'.SameRows db'') : db.SameRows db'' where
  staticIps := h'.staticIps.trans h.staticIps
  rest := by rw [h'.rest, h.rest]

theorem SameRows.leases (h : db.SameRows db') : db'.leases = db.leases := by rw [h.rest]

theorem SameRows.leaseSeq (h : db.SameRows db') : db'.leaseSeq = db.leaseSeq := by rw [h.rest]

/-- The constraints do not depend on the order of rows. -/
theorem SameRows.sound (h : db.SameRows db') (hsound : db.Sound) : db'.Sound := by
  have hperm := h.staticIps
  have hrest := h.rest
  generalize db'.staticIps = rows at hperm hrest
  subst hrest
  exact {
    hsound with
    staticIps := (hperm.map _).nodup_iff.mpr hsound.staticIps
    macs := (hperm.map _).nodup_iff.mpr hsound.macs
    staticRefs := fun s hs => hsound.staticRefs s (hperm.mem_iff.mp hs) }

end SqliteDb

/-! ### The steps -/

/-- **The copies** succeed exactly if the rows meet the constraints, and then they are the rows. -/
theorem copyStaticIps_eq_ok_iff {α : Type} {assignment : α → StaticIP} {hasSubnet : ℤ → Bool}
    {rows table : List α} :
    Migration.copyStaticIps assignment hasSubnet rows = .ok table ↔
      table = rows ∧ (rows.map fun r => (assignment r).ipAddress).Nodup ∧
        (rows.map fun r => (assignment r).macAddress).Nodup ∧
          ∀ r ∈ rows, hasSubnet (assignment r).subnetId = true := by
  have hpairs : (rows.Pairwise fun r row => Migration.clash assignment r row = false) ↔
      (rows.map fun r => (assignment r).ipAddress).Nodup ∧
        (rows.map fun r => (assignment r).macAddress).Nodup := by
    rw [List.Nodup, List.Nodup, List.pairwise_map, List.pairwise_map, ← List.pairwise_and_iff]
    simp only [Migration.clash, Bool.or_eq_false_iff, beq_eq_false_iff_ne]
  constructor
  · intro h
    cases hcopy : insertRows (Migration.clash assignment) DbError.uniqueViolation [] rows with
    | error e =>
      simp only [Migration.copyStaticIps, hcopy] at h
      cases h
    | ok copied =>
      obtain ⟨rfl, -, hunique⟩ := insertRows_eq_ok_iff.mp hcopy
      obtain ⟨hips, hmacs⟩ := hpairs.mp hunique
      simp only [Migration.copyStaticIps, hcopy] at h
      change (if copied.all _ then _ else _) = _ at h
      split at h
      · next hrefs => exact ⟨(Except.ok.inj h).symm, hips, hmacs, by simpa using hrefs⟩
      · cases h
  · rintro ⟨rfl, hips, hmacs, hrefs⟩
    have hcopy : insertRows (Migration.clash assignment) DbError.uniqueViolation [] table =
        .ok table := insertRows_eq_ok_iff.mpr ⟨rfl, by simp, hpairs.mpr ⟨hips, hmacs⟩⟩
    rw [Migration.copyStaticIps, hcopy]
    exact if_pos (by simpa using hrefs)

/-- The rows of a table that meets the constraints are copied, in any order. -/
theorem copyStaticIps_of_perm {α : Type} {assignment : α → StaticIP} {hasSubnet : ℤ → Bool}
    {rows : List α} {assignments : List StaticIP} (hperm : (rows.map assignment).Perm assignments)
    (hips : (assignments.map (·.ipAddress)).Nodup) (hmacs : (assignments.map (·.macAddress)).Nodup)
    (hrefs : ∀ s ∈ assignments, hasSubnet s.subnetId = true) :
    Migration.copyStaticIps assignment hasSubnet rows = .ok rows := by
  refine copyStaticIps_eq_ok_iff.mpr ⟨rfl, ?_, ?_, fun r hr => ?_⟩
  · have hrows := ((hperm.map (·.ipAddress)).nodup_iff.mpr hips)
    rwa [List.map_map] at hrows
  · have hrows := ((hperm.map (·.macAddress)).nodup_iff.mpr hmacs)
    rwa [List.map_map] at hrows
  · exact hrefs _ (hperm.subset (List.mem_map_of_mem hr))

theorem staticIpsIpPk_eq_ok {order : RowOrder NumberedStaticIp} {db : SqliteLayout 3}
    (h : (SqliteLayout.contents 3 db).Sound) :
    Migration.staticIpsIpPk order db = .ok { db with
      staticIps := (order.arrange db.staticIps).map (·.toEnabledStaticIp) } := by
  have hperm : (((order.arrange db.staticIps).map (·.toEnabledStaticIp)).map
      EnabledStaticIp.toStaticIP).Perm (db.staticIps.map (·.toStaticIP)) := by
    rw [List.map_map]
    exact (order.perm _).map _
  rw [Migration.staticIpsIpPk, copyStaticIps_of_perm hperm h.staticIps h.macs fun s hs =>
    List.any_map.symm.trans (h.staticRefs s hs)]
  rfl

theorem staticIpsDropEnabled_eq_ok {order : RowOrder EnabledStaticIp} {db : SqliteLayout 4}
    (h : (SqliteLayout.contents 4 db).Sound) :
    Migration.staticIpsDropEnabled order db = .ok { db with
      staticIps := (order.arrange db.staticIps).map (·.toStaticIP) } := by
  have hperm : (((order.arrange db.staticIps).map (·.toStaticIP)).map id).Perm
      (db.staticIps.map (·.toStaticIP)) := by
    rw [List.map_id]
    exact (order.perm _).map _
  rw [Migration.staticIpsDropEnabled, copyStaticIps_of_perm hperm h.staticIps h.macs fun s hs =>
    List.any_map.symm.trans (h.staticRefs s hs)]
  rfl

/-- Without the flag of the leases. -/
theorem contents_leasesDropActive (db : SqliteLayout 5) :
    SqliteLayout.contents 6 (Migration.leasesDropActive db) = SqliteLayout.contents 5 db := by
  simp [SqliteLayout.contents, AllTables.contents, TokenTables.contents, InitTables.contents,
    Migration.leasesDropActive]

/-- Without the flags of the subnets and prefixes. -/
theorem contents_dropEnabledColumns (db : SqliteLayout 6) :
    SqliteLayout.contents 7 (Migration.dropEnabledColumns db) = SqliteLayout.contents 6 db := by
  simp [SqliteLayout.contents, AllTables.contents, TokenTables.contents, InitTables.contents,
    Migration.dropEnabledColumns]

/-- **One migration** succeeds on a database that meets the constraints, and keeps its rows. -/
theorem migrate_sameRows (order : CopyOrder) {v : ℕ} (hv : v < 7) (db : SqliteLayout v)
    (hsound : (SqliteLayout.contents v db).Sound) :
    ∃ db', (sqliteVersions order).migrate v db = .ok db' ∧
      (SqliteLayout.contents v db).SameRows (SqliteLayout.contents (v + 1) db') := by
  rcases v with _ | _ | _ | _ | _ | _ | _ | v
  -- the first three create tables
  · exact ⟨_, rfl, .of_eq rfl⟩
  · exact ⟨_, rfl, .of_eq rfl⟩
  · exact ⟨_, rfl, .of_eq rfl⟩
  -- two copy the static assignments
  · refine ⟨_, staticIpsIpPk_eq_ok hsound, ?_, rfl⟩
    show (List.map _ (List.map _ _)).Perm _
    rw [List.map_map]
    exact (order.numbered.perm _).map _
  · refine ⟨_, staticIpsDropEnabled_eq_ok hsound, ?_, rfl⟩
    show (List.map _ (List.map _ _)).Perm _
    rw [List.map_map]
    exact (order.enabled.perm _).map _
  -- two drop columns
  · exact ⟨_, rfl, .of_eq (contents_leasesDropActive db)⟩
  · exact ⟨_, rfl, .of_eq (contents_dropEnabledColumns db)⟩
  · omega

/-- **All pending migrations** succeed, and keep the rows. -/
theorem new_eq_ok {order : CopyOrder} {migrator : StoredDb → Except DbError StoredDb}
    (hmigrator : (sqliteVersions order).Opens 7 migrator) {stored : StoredDb}
    (hversion : stored.1 ≤ 7) (hsound : stored.contents.Sound) :
    ∃ db, SqliteDb.new migrator stored = .ok db ∧ stored.contents.SameRows db := by
  obtain ⟨db, hdb, hrows⟩ := hmigrator.eq_ok
    (I := fun v db => stored.contents.SameRows (SqliteLayout.contents v db))
    (fun v hv db h => by
      obtain ⟨db', hmigrate, hnext⟩ := migrate_sameRows order hv db (h.sound hsound)
      exact ⟨db', hmigrate, h.trans hnext⟩)
    hversion (.of_eq rfl)
  refine ⟨db, ?_, hrows⟩
  rw [SqliteDb.new, hdb]
  rfl

/-- **The migrations keep the data.** Open a database file of any version that meets the constraints
of the schema, with a migrator that runs the pending migrations in order, whatever the flags of the
rows and in whichever order the migrations scan them. All pending migrations succeed; the database
has the rows and the counters of the file, up to the order of the static assignments; and in every
state of every run on it, with any calls failing, the constraints of the schema hold. -/
theorem migrations_keep_data (order : CopyOrder) (migrator : StoredDb → Except DbError StoredDb)
    (hmigrator : (sqliteVersions order).Opens 7 migrator) (stored : StoredDb)
    (hversion : stored.1 ≤ 7) (hsound : stored.contents.Sound) :
    ∃ db, SqliteDb.new migrator stored = .ok db ∧ stored.contents.SameRows db ∧
      ∀ ord clock (calls : List (Fate × ServerCall)),
        (Run.after (fun w a => (serve (SqliteDb.exec ord) a.1 a.2 w).2)
          ⟨db, clock⟩ calls).db.Sound := by
  obtain ⟨db, hdb, hrows⟩ := new_eq_ok hmigrator hversion hsound
  exact ⟨db, hdb, hrows, fun ord clock calls => (hrows.sound hsound).after calls⟩

namespace Sample

/-- Alice had the address, and has released it; now Bob has it. -/
def bobsLease : LeaseRow := { lease with
  id := 2
  macAddress := bob.toString
  leaseStart := 30
  leaseEnd := 90 }

/-- A database of the first version, with a subnet that is disabled and a lease that is over. -/
def stored : StoredDb := ⟨1, {
  subnets := [⟨subnet, 0⟩]
  dynamicRanges := [range]
  staticIps := [⟨⟨⟨1, alice.toString, .new 10 0 0 99, none⟩, 1⟩, 7⟩]
  leases := [⟨lease, 0⟩, ⟨bobsLease, 1⟩]
  subnetSeq := 1
  rangeSeq := 1
  leaseSeq := 2 }⟩

/-- A migrator; the tables are copied by row id. -/
def migrator : StoredDb → Except DbError StoredDb := (sqliteVersions ⟨.id, .id⟩).upgrade 7

theorem sound_stored : stored.contents.Sound := by
  have hrun : (Run.after (fun w (a : Fate × ServerCall) =>
      (serve (SqliteDb.exec .rowid) a.1 a.2 w).2) ⟨.empty, 0⟩
      [(.calm, .db (.createSubnet subnet.toSubnet)), (.calm, .db (.createRange range.toRange)),
        (.calm, .db (.createStaticIp ⟨1, alice.toString, .new 10 0 0 99, none⟩)),
        (.calm, .db (.createLease lease.toLease)),
        (.calm, .db (.createLease bobsLease.toLease))]).db = stored.contents := by
    decide +kernel
  rw [← hrun]
  exact SqliteDb.Sound.after SqliteDb.sound_empty _

end Sample

/-- The database of the first version is opened. -/
theorem migrations_keep_data_stored :
    ∃ db, SqliteDb.new Sample.migrator Sample.stored = .ok db ∧
      Sample.stored.contents.SameRows db ∧
      ∀ ord clock (calls : List (Fate × ServerCall)),
        (Run.after (fun w a => (serve (SqliteDb.exec ord) a.1 a.2 w).2)
          ⟨db, clock⟩ calls).db.Sound :=
  migrations_keep_data _ Sample.migrator (Versions.opens_upgrade _ 7) Sample.stored (by decide)
    Sample.sound_stored

end Ndhcpd
