import Ndhcpd.Db.Keys
import Ndhcpd.Table.Serial
import Ndhcpd.Dhcp.System

/-!
# The integrity of the database

What the schema promises, over whole runs: any calls, from any task, at any times, with any of
them failing.

* Ids are never reused (`ids_never_reused`). The counters of the five numbered tables only go up,
  so an id that a program has read names that row or none, however long the program waits before
  it uses the id: a late `expire_lease` cannot hit the lease of another client.
* The constraints hold in every state (`schema_holds`): keys and the unique columns have no
  duplicates, and no range, assignment or lease refers to a subnet that is gone.
-/

namespace Ndhcpd

namespace SqliteDb

/-! ### Ids -/

/-- The tables whose rows are numbered by an `AUTOINCREMENT` counter. -/
inductive SerialTable
  | subnets | dynamicRanges | leases | iaPrefixes | apiTokens
deriving DecidableEq, Repr

/-- The table in the database. -/
def SerialTable.toTable : SerialTable → Table
  | subnets => .subnets
  | dynamicRanges => .dynamicRanges
  | leases => .leases
  | iaPrefixes => .iaPrefixes
  | apiTokens => .apiTokens

/-- The ids of the rows of a table. -/
def rowIds (db : SqliteDb) : SerialTable → List ℤ
  | .subnets => db.subnets.map (·.id)
  | .dynamicRanges => db.dynamicRanges.map (·.id)
  | .leases => db.leases.map (·.id)
  | .iaPrefixes => db.iaPrefixes.map (·.id)
  | .apiTokens => db.apiTokens.map (·.id)

/-- The counter of a table. -/
def lastId (db : SqliteDb) : SerialTable → ℤ
  | .subnets => db.subnetSeq
  | .dynamicRanges => db.rangeSeq
  | .leases => db.leaseSeq
  | .iaPrefixes => db.iaPrefixSeq
  | .apiTokens => db.tokenSeq

/-- The id that a call returns for a row it has inserted into the table. -/
def issuedId : SerialTable → (c : DbCall) → c.Result → Option ℤ
  | .subnets, .createSubnet _, .ok id => some id
  | .dynamicRanges, .createRange _, .ok id => some id
  | .leases, .createLease _, .ok id => some id
  | .iaPrefixes, .createIaPrefix _, .ok id => some id
  | .apiTokens, .createToken _ _ _, .ok id => some id
  | _, _, _ => none

variable {ord : ScanOrder} {now : ℤ} {db : SqliteDb}

theorem issuedId_error (t : SerialTable) (c : DbCall) (e : DbError) :
    issuedId t c (.error e) = none := by
  cases t <;> cases c <;> rfl

theorem issuedId_of_not_mayWrite {t : SerialTable} {c : DbCall}
    (h : mayWrite c t.toTable = false) (r : c.Result) : issuedId t c r = none := by
  cases t <;> cases c <;> first | rfl | cases h

/-- **Inversion for the ids.** A call adds one row, under the next id, and returns that id, or it
adds none and returns none. -/
theorem exec_rowIds (t : SerialTable) (c : DbCall) :
    (issuedId t c (exec ord now db c).1 = some (db.lastId t + 1) ∧
      (exec ord now db c).2.rowIds t = db.rowIds t ++ [db.lastId t + 1] ∧
      (exec ord now db c).2.lastId t = db.lastId t + 1) ∨
    (issuedId t c (exec ord now db c).1 = none ∧
      ((exec ord now db c).2.rowIds t).Sublist (db.rowIds t) ∧
      (exec ord now db c).2.lastId t = db.lastId t) := by
  cases hwrite : mayWrite c t.toTable with
  | false =>
    have hsame := @exec_sameTable ord now db c _ hwrite
    refine .inr ⟨issuedId_of_not_mayWrite hwrite _, ?_⟩
    cases t <;> simp [SerialTable.toTable, SameTable] at hsame <;>
      simp [rowIds, lastId, hsame.1, hsame.2]
  | true =>
    cases c with
    | createSubnet subnet =>
      cases t <;> cases hwrite
      simp only [exec, createSubnet]
      split
      · exact .inr ⟨rfl, List.Sublist.refl _, rfl⟩
      · exact .inl ⟨rfl, by simp [rowIds, lastId, Subnet.toRow], rfl⟩
    | updateSubnet id subnet =>
      cases t <;> cases hwrite
      simp only [exec, updateSubnet]
      split
      · exact .inr ⟨rfl, List.Sublist.refl _, rfl⟩
      · refine .inr ⟨rfl, ?_, rfl⟩
        simp only [rowIds]
        rw [map_key_map fun r _ => ?_]
        split
        · next hid => exact (beq_iff_eq.mp hid).symm
        · rfl
    | createRange range =>
      cases t <;> cases hwrite
      simp only [exec, createRange]
      split
      · exact .inl ⟨rfl, by simp [rowIds, lastId, DynamicRange.toRow], rfl⟩
      · exact .inr ⟨rfl, List.Sublist.refl _, rfl⟩
    | createLease lease =>
      cases t <;> cases hwrite
      simp only [exec, createLease]
      split
      · exact .inl ⟨rfl, by simp [rowIds, lastId, Lease.toRow], rfl⟩
      · exact .inr ⟨rfl, List.Sublist.refl _, rfl⟩
    | createIaPrefix pfx =>
      cases t <;> cases hwrite
      exact .inl ⟨rfl, by simp [exec, createIaPrefix, rowIds, lastId, IAPrefix.toRow], rfl⟩
    | updateIaPrefix id pfx =>
      cases t <;> cases hwrite
      refine .inr ⟨rfl, ?_, rfl⟩
      simp only [exec, updateIaPrefix, rowIds]
      rw [map_key_map fun r _ => ?_]
      split
      · next hid => exact (beq_iff_eq.mp hid).symm
      · rfl
    | createToken name tokenHash salt =>
      cases t <;> cases hwrite
      simp only [exec, createToken]
      split
      · exact .inr ⟨rfl, List.Sublist.refl _, rfl⟩
      · exact .inl ⟨rfl, by simp [rowIds, lastId], rfl⟩
    | toggleToken id enabled =>
      cases t <;> cases hwrite
      refine .inr ⟨rfl, ?_, rfl⟩
      simp only [exec, toggleToken, rowIds]
      rw [map_key_map fun r _ => by split <;> rfl]
    | updateTokenLastUsed tokenHash =>
      cases t <;> cases hwrite
      refine .inr ⟨rfl, ?_, rfl⟩
      simp only [exec, updateTokenLastUsed, rowIds]
      rw [map_key_map fun r _ => by split <;> rfl]
    -- what is left removes rows, or does not write the table
    | _ =>
      cases t <;> first
        | exact .inr ⟨rfl, List.filter_sublist.map _, rfl⟩
        | cases hwrite

/-- The id that a call of a program gets back for a row it has inserted. -/
def issued (t : SerialTable) : (c : ServerCall) → c.Reply → Option ℤ
  | .db c, r => issuedId t c r
  | .utcNow, _ => none

/-- Execute a call, and show the id it is given. -/
def numbering (ord : ScanOrder) (t : SerialTable) (w : World SqliteDb) (a : Fate × ServerCall) :
    Option ℤ × World SqliteDb :=
  let out := serve (exec ord) a.1 a.2 w
  (issued t a.2 out.1, out.2)

/-- **Ids are serial numbers**, whatever is called and whichever calls fail. -/
theorem serial_numbering (ord : ScanOrder) (t : SerialTable) :
    Serial (numbering ord t) (fun w => w.db.rowIds t) fun w => w.db.lastId t := by
  rintro w ⟨fate, _ | _⟩
  · rename_i c
    rcases serve_cases (exec ord) fate c w with ⟨-, hserve⟩ | ⟨-, hserve⟩
    · simp only [numbering, hserve]
      exact .inr ⟨issuedId_error t c _, List.Sublist.refl _, trivial⟩
    · simp only [numbering, hserve]
      exact exec_rowIds t c
  · exact .inr ⟨rfl, List.Sublist.refl _, rfl⟩

/-- Rows of the lease table never change: a row with an id that was already given out is a row
that was there. -/
theorem mem_leases_of_id_le {w : World SqliteDb} (calls : List (Fate × ServerCall)) {r : LeaseRow}
    (hr : r ∈ (Run.after (fun w a => (serve (exec ord) a.1 a.2 w).2) w calls).db.leases)
    (hid : r.id ≤ w.db.leaseSeq) : r ∈ w.db.leases := by
  induction calls generalizing w with
  | nil => exact hr
  | cons a calls ih =>
    obtain ⟨fate, c⟩ := a
    cases c with
    | utcNow => exact @ih ⟨w.db, w.clock + fate.wait⟩ hr hid
    | db c =>
      rcases serve_cases (exec ord) fate c w with ⟨-, hserve⟩ | ⟨-, hserve⟩
      · simp only [Run.after_cons, hserve] at hr
        exact @ih ⟨w.db, w.clock + fate.wait⟩ hr hid
      · simp only [Run.after_cons, hserve] at hr
        obtain ⟨lease, rfl, -, hdb⟩ | ⟨hleases, hseq⟩ :=
          @exec_leases ord (w.clock + fate.wait) w.db c
        · rw [hdb] at hr
          have hmem := ih hr (hid.trans (by simp [insertLease]))
          rcases List.mem_append.mp hmem with hmem | hmem
          · exact hmem
          · rw [List.mem_singleton.mp hmem] at hid
            simp [Lease.toRow] at hid
        · have hmem := ih hr (hid.trans hseq.ge)
          rw [hleases] at hmem
          exact (List.mem_filter.mp hmem).1

end SqliteDb

/-- **Ids are never reused.** Start from the empty database and make any calls, of which any may
fail, at any times. The ids that a table hands out ascend over the whole run; at every moment
distinct rows have distinct ids, each of them handed out in the run; and once the row of an id is
gone, no later row ever gets it. -/
theorem ids_never_reused (ord : ScanOrder) (t : SqliteDb.SerialTable) (clock : ℤ)
    (calls more : List (Fate × ServerCall)) :
    let step := SqliteDb.numbering ord t
    let w := Run.after (fun w a => (step w a).2) ⟨.empty, clock⟩ calls
    let w' := Run.after (fun w a => (step w a).2) w more
    (Run.outputs step ⟨.empty, clock⟩ (calls ++ more)).Pairwise (· < ·) ∧
    (w.db.rowIds t).Nodup ∧
    (∀ id ∈ w.db.rowIds t, id ∈ Run.outputs step ⟨.empty, clock⟩ calls) ∧
    ∀ id ∈ Run.outputs step ⟨.empty, clock⟩ calls, id ∉ w.db.rowIds t → id ∉ w'.db.rowIds t := by
  intro step w w'
  have hserial := SqliteDb.serial_numbering ord t
  have hempty : SqliteDb.empty.rowIds t = [] := by cases t <;> rfl
  refine ⟨hserial.pairwise_outputs _ _, ?_, fun id hid => ?_, fun id hid hgone => ?_⟩
  · refine hserial.nodup_after ?_ ?_ calls <;> simp [hempty]
  · rcases hserial.mem_after hid with hid | hid
    · rw [hempty] at hid
      cases hid
    · exact hid
  · exact hserial.not_mem_after (hserial.lt_of_mem_outputs hid).2 hgone more

/-- **A late `expire_lease` hits nobody else.** Let a program have read a lease in some state of a
run from the empty database. However many calls others make before it expires the lease by its id,
the call removes this very lease, if it is still there, and no other. -/
theorem late_expire_lease (ord : ScanOrder) (clock : ℤ) (calls more : List (Fate × ServerCall)) :
    let after := Run.after fun w (a : Fate × ServerCall) => (serve (SqliteDb.exec ord) a.1 a.2 w).2
    let w := after ⟨.empty, clock⟩ calls
    let w' := after w more
    ∀ r ∈ w.db.leases, (w'.db.expireLease r.id).leases = w'.db.leases.filter (· ≠ r) := by
  intro after w w' r hr
  have hserial := SqliteDb.serial_numbering ord .leases
  have hinitial : SqliteDb.empty.rowIds .leases = [] := rfl
  have hnodup : (w.db.leases.map LeaseRow.id).Nodup := by
    refine hserial.nodup_after (s := ⟨.empty, clock⟩) ?_ ?_ calls <;> simp [hinitial]
  have hle : r.id ≤ w.db.leaseSeq := by
    have hmem : r.id ∈ w.db.rowIds .leases := List.mem_map_of_mem hr
    rcases hserial.mem_after (s := ⟨.empty, clock⟩) hmem with hmem | hmem
    · cases hmem
    · exact (hserial.lt_of_mem_outputs hmem).2
  refine List.filter_congr fun r' hr' => ?_
  rw [bne, Bool.eq_iff_iff, Bool.not_eq_true', beq_eq_false_iff_ne, decide_eq_true_eq, ne_eq, ne_eq,
    not_iff_not]
  constructor
  · intro hid
    have hold : r' ∈ w.db.leases :=
      SqliteDb.mem_leases_of_id_le more hr' (by rw [hid]; exact hle)
    exact List.inj_on_of_nodup_map hnodup hold hr hid
  · rintro rfl
    rfl

/-- Alice's lease is expired late, after Bob has got one. -/
theorem late_expire_lease_alice :
    let after := Run.after fun w (a : Fate × ServerCall) => (serve (SqliteDb.exec .rowid) a.1 a.2 w).2
    let w := after ⟨.empty, 0⟩ [(.calm, .db (.createSubnet Sample.subnet.toSubnet)),
      (.calm, .db (.createLease Sample.lease.toLease))]
    let w' := after w [(.calm, .db (.createLease { Sample.lease.toLease with
      macAddress := Sample.bob.toString
      ipAddress := .new 10 0 0 11 }))]
    Sample.lease ∈ w.db.leases ∧
      (w'.db.expireLease Sample.lease.id).leases = w'.db.leases.filter (· ≠ Sample.lease) ∧
      (w'.db.expireLease Sample.lease.id).leases.length = 1 := by
  intro after w w'
  have hmem : Sample.lease ∈ w.db.leases := by decide +kernel
  exact ⟨hmem, late_expire_lease .rowid 0 _ _ Sample.lease hmem, by decide +kernel⟩

/-! ### The constraints of the schema -/

namespace SqliteDb

variable {ord : ScanOrder} {now : ℤ} {db : SqliteDb}

/-- The constraints of the schema. -/
structure Sound (db : SqliteDb) : Prop extends Keyed db where
  /-- `PRIMARY KEY AUTOINCREMENT` of the other two numbered tables. -/
  rangeKeys : Numbered RangeRow.id db.dynamicRanges db.rangeSeq
  leaseKeys : Numbered LeaseRow.id db.leases db.leaseSeq
  /-- The `UNIQUE` columns. -/
  networks : (db.subnets.map fun r => (r.network, r.netmask)).Nodup
  macs : (db.staticIps.map (·.macAddress)).Nodup
  tokenNames : (db.apiTokens.map (·.name)).Nodup
  /-- The `FOREIGN KEY`s to the subnets. -/
  rangeRefs : ∀ r ∈ db.dynamicRanges, db.hasSubnet r.subnetId = true
  staticRefs : ∀ s ∈ db.staticIps, db.hasSubnet s.subnetId = true
  leaseRefs : ∀ l ∈ db.leases, db.hasSubnet l.subnetId = true

theorem sound_empty : empty.Sound where
  toKeyed := keyed_empty
  rangeKeys := .nil
  leaseKeys := .nil
  networks := List.nodup_nil
  macs := List.nodup_nil
  tokenNames := List.nodup_nil
  rangeRefs := by simp [empty]
  staticRefs := by simp [empty]
  leaseRefs := by simp [empty]

/-- Ids are numbered as long as the inversion for them applies. -/
theorem numbered_exec {α : Type} {key : α → ℤ} {rows rows' : List α} {seq seq' : ℤ}
    (h : Numbered key rows seq)
    (hexec : (rows'.map key = rows.map key ++ [seq + 1] ∧ seq' = seq + 1) ∨
      ((rows'.map key).Sublist (rows.map key) ∧ seq' = seq)) : Numbered key rows' seq' := by
  have hle : ∀ n ∈ rows.map key, n ≤ seq := by
    intro n hn
    obtain ⟨r, hr, rfl⟩ := List.mem_map.mp hn
    exact h.fresh r hr
  rcases hexec with ⟨hkeys, rfl⟩ | ⟨hkeys, rfl⟩
  · refine ⟨?_, fun r hr => ?_⟩
    · rw [hkeys]
      refine List.nodup_append.mpr ⟨h.nodup, by simp, fun n hn m hm => ?_⟩
      have hold := hle n hn
      rw [List.mem_singleton.mp hm]
      omega
    · have hmem : key r ∈ rows.map key ++ [seq + 1] := hkeys ▸ List.mem_map_of_mem hr
      rcases List.mem_append.mp hmem with hmem | hmem
      · have hold := hle _ hmem
        omega
      · exact (List.mem_singleton.mp hmem).le
  · exact ⟨h.nodup.sublist hkeys, fun r hr => hle _ (hkeys.subset (List.mem_map_of_mem hr))⟩

/-- `UNIQUE(network, netmask)`. An update writes a row whose network no other row has. -/
theorem networks_exec (hkeys : (db.subnets.map (·.id)).Nodup)
    (h : (db.subnets.map fun r => (r.network, r.netmask)).Nodup) (c : DbCall) :
    ((exec ord now db c).2.subnets.map fun r => (r.network, r.netmask)).Nodup := by
  cases hwrite : mayWrite c .subnets with
  | false =>
    rw [(@exec_sameTable ord now db c .subnets hwrite).1]
    exact h
  | true =>
    cases c with
    | createSubnet subnet =>
      simp only [exec, createSubnet]
      split
      · exact h
      · next hfree =>
        refine (nodup_map_append h).mpr fun r hr heq => hfree ?_
        obtain ⟨hnetwork, hmask⟩ := Prod.mk.inj heq
        exact List.any_eq_true.mpr ⟨r, hr, by simp [hnetwork, hmask, Subnet.toRow]⟩
    | updateSubnet id subnet =>
      simp only [exec, updateSubnet]
      split
      · exact h
      · next hfree =>
        have hinj := List.inj_on_of_nodup_map hkeys
        -- the row that is written has the network to itself
        have hown : ∀ x ∈ db.subnets, x.id = id → ∀ y ∈ db.subnets, y.id ≠ id →
            (y.network, y.netmask) ≠ (subnet.network, subnet.netmask) := by
          intro x hx hxid y hy hyid heq
          obtain ⟨hnetwork, hmask⟩ := Prod.mk.inj heq
          refine hfree ?_
          rw [Bool.and_eq_true]
          exact ⟨List.any_eq_true.mpr ⟨x, hx, by simp [hxid]⟩,
            List.any_eq_true.mpr ⟨y, hy, by simp [hyid, hnetwork, hmask]⟩⟩
        rw [List.map_map]
        refine (List.Nodup.of_map _ hkeys).map_on fun x hx y hy heq => ?_
        simp only [Function.comp] at heq
        by_cases hxid : x.id = id
        · by_cases hyid : y.id = id
          · exact hinj hx hy (hxid.trans hyid.symm)
          · refine absurd ?_ (hown x hx hxid y hy hyid)
            simpa [hxid, hyid, Subnet.toRow] using heq.symm
        · by_cases hyid : y.id = id
          · refine absurd ?_ (hown y hy hyid x hx hxid)
            simpa [hxid, hyid, Subnet.toRow] using heq
          · refine List.inj_on_of_nodup_map h hx hy ?_
            simpa [hxid, hyid] using heq
    | deleteSubnet id => exact h.sublist (List.filter_sublist.map _)
    | _ => cases hwrite

/-- `UNIQUE(mac_address)`. -/
theorem macs_exec (h : (db.staticIps.map (·.macAddress)).Nodup) (c : DbCall) :
    ((exec ord now db c).2.staticIps.map (·.macAddress)).Nodup := by
  cases hwrite : mayWrite c .staticIps with
  | false =>
    have hrows : (exec ord now db c).2.staticIps = db.staticIps :=
      @exec_sameTable ord now db c .staticIps hwrite
    rw [hrows]
    exact h
  | true =>
    cases c with
    | createStaticIp staticIp =>
      simp only [exec, createStaticIp]
      split
      · exact h
      · next hfree =>
        split
        · refine (nodup_map_append h).mpr fun s hs hmac => hfree ?_
          exact List.any_eq_true.mpr ⟨s, hs, by simp [hmac]⟩
        · exact h
    | updateStaticIpHostname ip hostname =>
      simp only [exec, updateStaticIpHostname]
      rw [map_key_map fun s _ => by split <;> rfl]
      exact h
    | deleteStaticIp ip => exact h.sublist (List.filter_sublist.map _)
    | deleteSubnet id => exact h.sublist (List.filter_sublist.map _)
    | _ => cases hwrite

/-- Names of tokens are unique. -/
theorem tokenNames_exec (h : (db.apiTokens.map (·.name)).Nodup) (c : DbCall) :
    ((exec ord now db c).2.apiTokens.map (·.name)).Nodup := by
  cases hwrite : mayWrite c .apiTokens with
  | false =>
    rw [(@exec_sameTable ord now db c .apiTokens hwrite).1]
    exact h
  | true =>
    cases c with
    | createToken name tokenHash salt =>
      simp only [exec, createToken]
      split
      · exact h
      · next hfree =>
        refine (nodup_map_append h).mpr fun r hr hname => hfree ?_
        exact List.any_eq_true.mpr ⟨r, hr, by simpa using hname⟩
    | deleteToken id => exact h.sublist (List.filter_sublist.map _)
    | toggleToken id enabled =>
      simp only [exec, toggleToken]
      rw [map_key_map fun r _ => by split <;> rfl]
      exact h
    | updateTokenLastUsed tokenHash =>
      simp only [exec, updateTokenLastUsed]
      rw [map_key_map fun r _ => by split <;> rfl]
      exact h
    | _ => cases hwrite

/-- The rows of a table that refer to subnets: as many of the old ones as are left, and perhaps one
that refers to a stored subnet. -/
theorem refs_of_cases {α : Type} {ref : α → ℤ} {rows rows' : List α} {db' : SqliteDb}
    (h : ∀ r ∈ rows, db.hasSubnet (ref r) = true)
    (hkeep : ∀ id, db.hasSubnet id = true → db'.hasSubnet id = true)
    (hrows : ∀ r ∈ rows', (∃ old ∈ rows, ref old = ref r) ∨ db.hasSubnet (ref r) = true) :
    ∀ r ∈ rows', db'.hasSubnet (ref r) = true := by
  intro r hr
  rcases hrows r hr with ⟨old, hold, href⟩ | hnew
  · rw [← href]
    exact hkeep _ (h old hold)
  · exact hkeep _ hnew

/-- What refers to another subnet survives the deletion of a subnet. -/
theorem refs_deleteSubnet {α : Type} {ref : α → ℤ} {rows : List α} {id : ℤ}
    (h : ∀ r ∈ rows, db.hasSubnet (ref r) = true) :
    ∀ r ∈ rows.filter (ref · != id), (db.deleteSubnet id).hasSubnet (ref r) = true := by
  intro r hr
  obtain ⟨hr, hne⟩ := List.mem_filter.mp hr
  obtain ⟨s, hs, hid⟩ := List.any_eq_true.mp (h r hr)
  rw [beq_iff_eq] at hid
  refine List.any_eq_true.mpr ⟨s, List.mem_filter.mpr ⟨hs, ?_⟩, by simpa using hid⟩
  rw [hid]
  exact hne

/-- A static assignment after a call is one before it, up to its hostname, or one that is accepted. -/
theorem exec_staticIps_subnetId (c : DbCall) :
    ∀ s ∈ (exec ord now db c).2.staticIps,
      (∃ old ∈ db.staticIps, old.subnetId = s.subnetId) ∨ db.hasSubnet s.subnetId = true := by
  intro s hs
  cases hwrite : mayWrite c .staticIps with
  | false =>
    have hrows : (exec ord now db c).2.staticIps = db.staticIps :=
      @exec_sameTable ord now db c .staticIps hwrite
    exact .inl ⟨s, hrows ▸ hs, rfl⟩
  | true =>
    cases c with
    | createStaticIp staticIp =>
      simp only [exec, createStaticIp] at hs
      split at hs
      · exact .inl ⟨s, hs, rfl⟩
      · split at hs
        · next hsubnet =>
          rcases List.mem_append.mp hs with hs | hs
          · exact .inl ⟨s, hs, rfl⟩
          · rw [List.mem_singleton.mp hs]
            exact .inr hsubnet
        · exact .inl ⟨s, hs, rfl⟩
    | updateStaticIpHostname ip hostname =>
      obtain ⟨old, hold, rfl⟩ := List.mem_map.mp hs
      refine .inl ⟨old, hold, ?_⟩
      split <;> rfl
    | deleteStaticIp ip => exact .inl ⟨s, (List.mem_filter.mp hs).1, rfl⟩
    | deleteSubnet id => exact .inl ⟨s, (List.mem_filter.mp hs).1, rfl⟩
    | _ => cases hwrite

/-- The `FOREIGN KEY`s. Deleting a subnet takes with it what refers to it. -/
theorem refs_exec (h : db.Sound) (c : DbCall) :
    (∀ r ∈ (exec ord now db c).2.dynamicRanges,
      (exec ord now db c).2.hasSubnet r.subnetId = true) ∧
    (∀ s ∈ (exec ord now db c).2.staticIps, (exec ord now db c).2.hasSubnet s.subnetId = true) ∧
    ∀ l ∈ (exec ord now db c).2.leases, (exec ord now db c).2.hasSubnet l.subnetId = true := by
  by_cases hdelete : ∃ id, c = .deleteSubnet id
  · obtain ⟨id, rfl⟩ := hdelete
    exact ⟨refs_deleteSubnet h.rangeRefs, refs_deleteSubnet h.staticRefs,
      refs_deleteSubnet h.leaseRefs⟩
  · have hkeep : ∀ id, db.hasSubnet id = true → (exec ord now db c).2.hasSubnet id = true :=
      fun id hid => hasSubnet_exec (fun id' hc => hdelete ⟨id', hc⟩) hid
    refine ⟨refs_of_cases h.rangeRefs hkeep fun r hr => ?_,
      refs_of_cases h.staticRefs hkeep (exec_staticIps_subnetId c),
      refs_of_cases h.leaseRefs hkeep fun l hl => ?_⟩
    · obtain ⟨range, -, hsubnet, hdb⟩ | hsubset := @exec_dynamicRanges ord now db c
      · rw [hdb] at hr
        rcases List.mem_append.mp hr with hr | hr
        · exact .inl ⟨r, hr, rfl⟩
        · rw [List.mem_singleton.mp hr]
          exact .inr hsubnet
      · exact .inl ⟨r, hsubset hr, rfl⟩
    · obtain ⟨lease, -, hsubnet, hdb⟩ | ⟨hleases, -⟩ := @exec_leases ord now db c
      · rw [hdb] at hl
        rcases List.mem_append.mp hl with hl | hl
        · exact .inl ⟨l, hl, rfl⟩
        · rw [List.mem_singleton.mp hl]
          exact .inr hsubnet
      · rw [hleases] at hl
        exact .inl ⟨l, (List.mem_filter.mp hl).1, rfl⟩

/-- **Every call** keeps the constraints. -/
theorem Sound.exec (h : db.Sound) (c : DbCall) : (exec ord now db c).2.Sound where
  toKeyed := h.toKeyed.exec c
  rangeKeys := numbered_exec h.rangeKeys ((@exec_rowIds ord now db .dynamicRanges c).imp
    (fun h => h.2) fun h => h.2)
  leaseKeys := numbered_exec h.leaseKeys ((@exec_rowIds ord now db .leases c).imp
    (fun h => h.2) fun h => h.2)
  networks := networks_exec h.subnets.nodup h.networks c
  macs := macs_exec h.macs c
  tokenNames := tokenNames_exec h.tokenNames c
  rangeRefs := (refs_exec h c).1
  staticRefs := (refs_exec h c).2.1
  leaseRefs := (refs_exec h c).2.2

/-- The constraints hold at the end of every run. -/
theorem Sound.after {w : World SqliteDb} (h : w.db.Sound) (calls : List (Fate × ServerCall)) :
    (Run.after (fun w a => (serve (SqliteDb.exec ord) a.1 a.2 w).2) w calls).db.Sound := by
  refine Run.Along.invariant (I := fun w : World SqliteDb => w.db.Sound) (Q := fun _ _ => True) ?_
    (Run.along_of_forall fun _ _ _ => trivial) h
  rintro w ⟨fate, _ | _⟩ hw -
  · rename_i c
    rcases serve_cases (SqliteDb.exec ord) fate c w with ⟨-, hserve⟩ | ⟨-, hserve⟩
    · simp only [hserve]
      exact hw
    · simp only [hserve]
      exact hw.exec c
  · exact hw

/-- What refers to a subnet finds it. -/
theorem exists_getSubnet {id : ℤ} (h : db.hasSubnet id = true) :
    ∃ subnet, db.getSubnet id = some subnet := by
  cases hfind : db.subnets.find? (·.id == id) with
  | none =>
    obtain ⟨r, hr, hid⟩ := List.any_eq_true.mp h
    exact absurd hid (List.find?_eq_none.mp hfind r hr)
  | some r =>
    rw [getSubnet, hfind]
    exact ⟨r.toSubnet, rfl⟩

end SqliteDb

/-- **The constraints of the schema hold in every state.** Start from the empty database and make
any calls, of which any may fail, at any times. Then no two subnets have the same network and
netmask, no two static assignments the same address or the same MAC text, no two tokens the same
name; and every range, every static assignment and every active lease that a query returns, alone or
in a list, refers to a subnet that `get_subnet` finds. -/
theorem schema_holds (ord : ScanOrder) (clock : ℤ) (calls : List (Fate × ServerCall)) :
    let w := Run.after (fun w (a : Fate × ServerCall) => (serve (SqliteDb.exec ord) a.1 a.2 w).2)
      ⟨.empty, clock⟩ calls
    (w.db.subnets.map fun r => (r.network, r.netmask)).Nodup ∧
    (w.db.staticIps.map (·.ipAddress)).Nodup ∧ (w.db.staticIps.map (·.macAddress)).Nodup ∧
    (w.db.apiTokens.map (·.name)).Nodup ∧
    (∀ sid, ∀ r ∈ w.db.listRanges ord sid, ∃ subnet, w.db.getSubnet r.subnetId = some subnet) ∧
    (∀ sid, ∀ s ∈ w.db.listStaticIps ord sid, ∃ subnet, w.db.getSubnet s.subnetId = some subnet) ∧
    (∀ mac s, w.db.getStaticIpByMac ord mac = some s →
      ∃ subnet, w.db.getSubnet s.subnetId = some subnet) ∧
    (∀ now, ∀ l ∈ w.db.listActiveLeases ord now,
      ∃ subnet, w.db.getSubnet l.subnetId = some subnet) ∧
    ∀ now mac l, w.db.getActiveLease ord mac now = some l →
      ∃ subnet, w.db.getSubnet l.subnetId = some subnet := by
  intro w
  have hsound : w.db.Sound := SqliteDb.Sound.after SqliteDb.sound_empty calls
  refine ⟨hsound.networks, hsound.staticIps, hsound.macs, hsound.tokenNames, ?_, ?_, ?_, ?_, ?_⟩
  · intro sid r hr
    obtain ⟨row, ⟨hrow, -⟩, rfl⟩ := SqliteDb.mem_listRanges.mp hr
    exact SqliteDb.exists_getSubnet (hsound.rangeRefs row hrow)
  · intro sid s hs
    exact SqliteDb.exists_getSubnet (hsound.staticRefs s (SqliteDb.mem_listStaticIps.mp hs).1)
  · intro mac s hs
    exact SqliteDb.exists_getSubnet (hsound.staticRefs s (SqliteDb.of_getStaticIpByMac hs).1)
  · intro now l hl
    obtain ⟨row, hrow, -, rfl⟩ := SqliteDb.mem_listActiveLeases.mp hl
    exact SqliteDb.exists_getSubnet (hsound.leaseRefs row hrow)
  · intro now mac l hl
    obtain ⟨row, hrow, -, -, rfl⟩ := SqliteDb.of_getActiveLease hl
    exact SqliteDb.exists_getSubnet (hsound.leaseRefs row hrow)

end Ndhcpd
