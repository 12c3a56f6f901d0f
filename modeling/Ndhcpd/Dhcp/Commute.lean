import Ndhcpd.Db.Agreement
import Ndhcpd.Dhcp.RequestSpec

/-!
# Requests for different addresses

Two REQUESTs for different addresses do not interfere: handled in either order they get the same
replies and leave the same leases, up to the ids and the order of the rows. What a REQUEST decides
depends on the leases on its own address only, and these are the only ones it deletes or inserts.

The argument is about an abstract table of leases (`LeaseBook`). A `LeaseStore` is a store that
keeps such a table: SQLite does, provided that it lists rows in a stable order, and so does the
in-memory store. `requests_commute` is the result for both.
-/

namespace Ndhcpd

/-! ### A table of leases -/

/-- The leases of a store, and the id of the next one. -/
structure LeaseBook where
  leases : List Lease
  next : ℤ

namespace RequestPlan

/-- The leases that stay when the decision is carried out: all but the one it deletes. -/
def keeps : RequestPlan → Lease → Bool
  | .grant _ _ _ (some id), l => l.id != some id
  | _, _ => true

/-- The lease that comes, if any. -/
def adds (now : ℤ) (packet : DhcpPacket) (config : DhcpConfig) : RequestPlan → List Lease
  | .grant ip range _ _ => [newLease packet config ip range now]
  | _ => []

/-- The decision is about the address that the packet asks for, and the lease that it deletes is one
of the given leases on that address. -/
structure Backed (packet : DhcpPacket) (leases : List Lease) (plan : RequestPlan) : Prop where
  added : ∀ now config, ∀ l ∈ plan.adds now packet config, requestedIp packet = some l.ipAddress
  deleted : ∀ l, plan.keeps l = false → ∃ l' ∈ leases, l'.id = l.id ∧
    requestedIp packet = some l'.ipAddress

/-- A decision that changes nothing is backed by any leases. -/
theorem Backed.of_idle {packet : DhcpPacket} {leases : List Lease} {plan : RequestPlan}
    (hadds : ∀ now config, plan.adds now packet config = [])
    (hkeeps : ∀ l, plan.keeps l = true) : plan.Backed packet leases := by
  constructor
  · intro now config l hl
    rw [hadds] at hl
    exact absurd hl List.not_mem_nil
  · intro l hl
    rw [hkeeps] at hl
    exact Bool.noConfusion hl

end RequestPlan

namespace LeaseBook

variable (b : LeaseBook)

/-- The lease is recorded under the next id. -/
def insert (lease : Lease) : LeaseBook :=
  ⟨b.leases ++ [{ lease with id := some b.next }], b.next + 1⟩

/-- The lease with the id is deleted. -/
def expire (id : ℤ) : LeaseBook := { b with leases := b.leases.filter (·.id != some id) }

/-- The active leases on an address. -/
def on (now : ℤ) (ip : Ipv4Addr) : List Lease :=
  b.leases.filter fun l => l.ipAddress == ip && decide (now < l.leaseEnd)

/-- What carrying out a decision does to the table. -/
def settle (now : ℤ) (packet : DhcpPacket) (config : DhcpConfig) (plan : RequestPlan) : LeaseBook :=
  ⟨b.leases.filter plan.keeps ++
      (plan.adds now packet config).map fun l => { l with id := some b.next },
    b.next + (plan.adds now packet config).length⟩

/-- Ids are distinct, and have been given out before. -/
structure Valid : Prop where
  nodup : (b.leases.map (·.id)).Nodup
  fresh : ∀ l ∈ b.leases, ∃ id < b.next, l.id = some id

/-- The leases without their ids. -/
def contents : List Lease := b.leases.map fun l => { l with id := none }

variable {b} {now : ℤ} {packet : DhcpPacket} {config : DhcpConfig} {plan : RequestPlan}

/-- A lease under the next id. -/
theorem Valid.insert (hb : b.Valid) (lease : Lease) : (b.insert lease).Valid where
  nodup := by
    refine (nodup_map_append hb.nodup).mpr fun l hl heq => ?_
    obtain ⟨id, hlt, hid⟩ := hb.fresh l hl
    have hnext : id = b.next := Option.some.inj (hid.symm.trans heq)
    omega
  fresh l hl := by
    rcases List.mem_append.mp hl with hl | hl
    · obtain ⟨id, hlt, hid⟩ := hb.fresh l hl
      exact ⟨id, hlt.trans (Int.lt_succ b.next), hid⟩
    · obtain rfl := List.mem_singleton.mp hl
      exact ⟨b.next, Int.lt_succ b.next, rfl⟩

/-- Fewer leases. -/
theorem Valid.sublist (hb : b.Valid) {leases : List Lease} (h : leases.Sublist b.leases) :
    Valid ⟨leases, b.next⟩ where
  nodup := hb.nodup.sublist (h.map _)
  fresh l hl := hb.fresh l (h.subset hl)

/-- A decision that grants nothing changes nothing. -/
theorem settle_eq_self (hkeeps : ∀ l, plan.keeps l = true)
    (hadds : plan.adds now packet config = []) : b.settle now packet config plan = b := by
  have hall : b.leases.filter plan.keeps = b.leases :=
    List.filter_eq_self.mpr fun l _ => hkeeps l
  simp [settle, hall, hadds]

theorem settle_grant_none (ip : Ipv4Addr) (range : DynamicRange) (subnet : Subnet) :
    b.settle now packet config (.grant ip range subnet none) =
      b.insert (newLease packet config ip range now) := by
  have hall : b.leases.filter (RequestPlan.grant ip range subnet none).keeps = b.leases :=
    List.filter_eq_self.mpr fun _ _ => rfl
  rw [settle, hall]
  rfl

theorem settle_grant_some (ip : Ipv4Addr) (range : DynamicRange) (subnet : Subnet) (id : ℤ) :
    b.settle now packet config (.grant ip range subnet (some id)) =
      (b.expire id).insert (newLease packet config ip range now) := rfl

/-- **The footprint** of a REQUEST: the active leases on other addresses stay. -/
theorem Valid.on_settle (hb : b.Valid) (hplan : plan.Backed packet b.leases) {ip : Ipv4Addr}
    (hip : requestedIp packet ≠ some ip) :
    (b.settle now packet config plan).on now ip = b.on now ip := by
  have hadded : (((plan.adds now packet config).map fun l => { l with id := some b.next }).filter
      fun l => l.ipAddress == ip && decide (now < l.leaseEnd)) = [] := by
    refine List.filter_eq_nil_iff.mpr fun l hl => ?_
    obtain ⟨l', hl', rfl⟩ := List.mem_map.mp hl
    have hne : l'.ipAddress ≠ ip := fun heq => hip (heq ▸ hplan.added now config l' hl')
    simp [hne]
  have hkept : (b.leases.filter plan.keeps).filter
      (fun l => l.ipAddress == ip && decide (now < l.leaseEnd)) = b.on now ip := by
    rw [List.filter_filter, on]
    refine List.filter_congr fun l hl => ?_
    cases hkeeps : plan.keeps l with
    | true => simp
    | false =>
      -- the deleted lease is on the address that was asked for
      obtain ⟨l', hl', hid, haddr⟩ := hplan.deleted l hkeeps
      obtain rfl := List.inj_on_of_nodup_map hb.nodup hl' hl hid
      have hne : l'.ipAddress ≠ ip := fun heq => hip (heq ▸ haddr)
      simp [hne]
  rw [on, settle, List.filter_append, hadded, List.append_nil, hkept]

/-- What comes is not what another decision deletes. -/
theorem Valid.keeps_added (hb : b.Valid) (hplan : plan.Backed packet b.leases) {l : Lease}
    (hl : l.id = some b.next) : plan.keeps l = true := by
  by_contra hkeeps
  obtain ⟨l', hl', hid, -⟩ := hplan.deleted l (by simpa using hkeeps)
  obtain ⟨id, hlt, hid'⟩ := hb.fresh l' hl'
  have heq : id = b.next := Option.some.inj (hid'.symm.trans (hid.trans hl))
  omega

/-- The table after two decisions, one after the other. -/
theorem Valid.contents_settle_settle {p q : DhcpPacket} {plan plan' : RequestPlan} (hb : b.Valid)
    (hplan' : plan'.Backed q b.leases) :
    ((b.settle now p config plan).settle now q config plan').contents =
      ((b.leases.filter plan.keeps).filter plan'.keeps).map (fun l => { l with id := none }) ++
        (plan.adds now p config).map (fun l => { l with id := none }) ++
        (plan'.adds now q config).map (fun l => { l with id := none }) := by
  have hstays : ((plan.adds now p config).map fun l => { l with id := some b.next }).filter
      plan'.keeps = (plan.adds now p config).map fun l => { l with id := some b.next } := by
    refine List.filter_eq_self.mpr fun l hl => ?_
    obtain ⟨l, -, rfl⟩ := List.mem_map.mp hl
    exact hb.keeps_added hplan' rfl
  simp only [contents, settle, List.filter_append, hstays, List.map_append, List.map_map]
  rfl

/-- **Decisions commute** up to the ids and the order of the leases. -/
theorem Valid.settle_comm {p q : DhcpPacket} {plan plan' : RequestPlan} (hb : b.Valid)
    (hplan : plan.Backed p b.leases) (hplan' : plan'.Backed q b.leases) :
    ((b.settle now p config plan).settle now q config plan').contents.Perm
      ((b.settle now q config plan').settle now p config plan).contents := by
  rw [hb.contents_settle_settle hplan', hb.contents_settle_settle hplan, List.filter_filter,
    List.filter_filter, List.append_assoc, List.append_assoc]
  have hboth : (fun l => plan'.keeps l && plan.keeps l) = fun l => plan.keeps l && plan'.keeps l :=
    funext fun l => Bool.and_comm _ _
  rw [hboth]
  exact List.perm_append_comm.append_left _

end LeaseBook

/-! ### Two requests -/

section Outcome

variable {σ : Type} (store : Store σ) (book : σ → LeaseBook) (config : DhcpConfig)

/-- The outcome of a REQUEST in a calm run. -/
def requestOutcome (packet : DhcpPacket) (ifaceIps : List Ipv4Addr) (w : World σ) :
    Program.Outcome (Option DhcpPacket) (World σ) Fate :=
  (handleRequest packet ifaceIps config).run (serve store) calmly w

/-- Handled in either order, `p` and `q` get the same replies, and the leases afterwards are the
same up to their ids and their order. -/
structure RequestsCommute (p q : DhcpPacket) (ips ips' : List Ipv4Addr) (w : World σ) : Prop where
  reply_left : (requestOutcome store config p ips w).value =
    (requestOutcome store config p ips (requestOutcome store config q ips' w).state).value
  reply_right : (requestOutcome store config q ips' w).value =
    (requestOutcome store config q ips' (requestOutcome store config p ips w).state).value
  leases : (book (requestOutcome store config q ips'
      (requestOutcome store config p ips w).state).state.db).contents.Perm
    (book (requestOutcome store config p ips
      (requestOutcome store config q ips' w).state).state.db).contents

end Outcome

/-! ### Stores that keep such a table -/

/-- The part of a database that a REQUEST only reads. -/
structure Settings where
  staticOf : String → Option StaticIP
  subnet : ℤ → Option Subnet
  ranges : List DynamicRange

/-- A store that keeps a table of leases. Of the active leases on an address, `pick` is the one that
is listed first. -/
structure LeaseStore (σ : Type) where
  store : Store σ
  book : σ → LeaseBook
  settings : σ → Settings
  pick : List Lease → Option Lease
  mem_of_pick : ∀ {db now ip l}, pick ((book db).on now ip) = some l → l ∈ (book db).on now ip
  reads : ∀ w : World σ, ReadsAs store w ⟨(settings w.db).staticOf, (settings w.db).subnet,
    (settings w.db).ranges, fun ip => pick ((book w.db).on w.clock ip)⟩
  expire : ∀ now db id, ∃ db', store now db (.expireLease id) = (.ok (), db') ∧
    book db' = (book db).expire id ∧ settings db' = settings db
  create : ∀ now db lease subnet, (settings db).subnet lease.subnetId = some subnet →
    ∃ id db', store now db (.createLease lease) = (.ok id, db') ∧
      book db' = (book db).insert lease ∧ settings db' = settings db

namespace LeaseStore

variable {σ : Type} (L : LeaseStore σ) (config : DhcpConfig) (packet : DhcpPacket)
  (ifaceIps : List Ipv4Addr)

/-- What a REQUEST is decided to. -/
def plan (w : World σ) : RequestPlan :=
  RequestReads.plan ⟨(L.settings w.db).staticOf, (L.settings w.db).subnet,
    (L.settings w.db).ranges, fun ip => L.pick ((L.book w.db).on w.clock ip)⟩ packet ifaceIps

variable {L config packet ifaceIps} {w : World σ}

/-- Granting a lease. -/
private theorem grantLease_run {ip : Ipv4Addr} {range : DynamicRange} {subnet subnet' : Subnet}
    (h : (L.settings w.db).subnet range.subnetId = some subnet') :
    ∃ db', (grantLease packet config ip range subnet).run (serve L.store) calmly w =
        ⟨some (createAck packet ip subnet config), ⟨db', w.clock⟩, calmly⟩ ∧
      L.book db' = (L.book w.db).insert (newLease packet config ip range w.clock) ∧
      L.settings db' = L.settings w.db := by
  obtain ⟨id, db', hcreate, hbook, hsettings⟩ :=
    L.create w.clock w.db (newLease packet config ip range w.clock) subnet' h
  refine ⟨db', ?_, hbook, hsettings⟩
  rw [grantLease, run_utcNow_calmly, run_call_calmly hcreate]
  rfl

/-- **The whole run.** The reads decide, and the decision is carried out on the table. -/
theorem requestOutcome_eq (L : LeaseStore σ) (config : DhcpConfig) (packet : DhcpPacket)
    (ifaceIps : List Ipv4Addr) (w : World σ) :
    (requestOutcome L.store config packet ifaceIps w).value =
        (L.plan packet ifaceIps w).reply packet config ∧
      (requestOutcome L.store config packet ifaceIps w).state.clock = w.clock ∧
      L.book (requestOutcome L.store config packet ifaceIps w).state.db =
        (L.book w.db).settle w.clock packet config (L.plan packet ifaceIps w) ∧
      L.settings (requestOutcome L.store config packet ifaceIps w).state.db =
        L.settings w.db := by
  have hrun : requestOutcome L.store config packet ifaceIps w =
      ((L.plan packet ifaceIps w).carryOut packet config).run (serve L.store) calmly w := by
    rw [requestOutcome, handleRequest_eq, Program.run_bind, planRequest_calmly_of (L.reads w)]
    rfl
  rw [hrun]
  cases hplan : L.plan packet ifaceIps w with
  | refuse => exact ⟨rfl, rfl, (LeaseBook.settle_eq_self (fun _ => rfl) rfl).symm, rfl⟩
  | confirm ip subnet => exact ⟨rfl, rfl, (LeaseBook.settle_eq_self (fun _ => rfl) rfl).symm, rfl⟩
  | grant ip range subnet old =>
    obtain ⟨-, hsubnet, -⟩ := RequestReads.of_plan_eq_grant hplan
    cases old with
    | none =>
      obtain ⟨db', hgrant, hbook, hsettings⟩ := grantLease_run hsubnet
      rw [RequestPlan.carryOut, hgrant]
      exact ⟨rfl, rfl, hbook.trans (LeaseBook.settle_grant_none ip range subnet).symm, hsettings⟩
    | some id =>
      obtain ⟨db₁, hexpire, hbook₁, hsettings₁⟩ := L.expire w.clock w.db id
      have hsubnet₁ : (L.settings db₁).subnet range.subnetId = some subnet := by
        rw [hsettings₁]
        exact hsubnet
      obtain ⟨db', hgrant, hbook, hsettings⟩ := @grantLease_run σ L config packet ⟨db₁, w.clock⟩ ip
        range subnet subnet hsubnet₁
      rw [RequestPlan.carryOut, run_call_calmly hexpire, hgrant]
      refine ⟨rfl, rfl, ?_, hsettings.trans hsettings₁⟩
      rw [LeaseBook.settle_grant_some, hbook, hbook₁]

/-- A decision is backed by the table. -/
theorem backed_plan (L : LeaseStore σ) (packet : DhcpPacket) (ifaceIps : List Ipv4Addr)
    (w : World σ) : (L.plan packet ifaceIps w).Backed packet (L.book w.db).leases := by
  cases hplan : L.plan packet ifaceIps w with
  | refuse => exact .of_idle (fun _ _ => rfl) fun _ => rfl
  | confirm ip subnet => exact .of_idle (fun _ _ => rfl) fun _ => rfl
  | grant ip range subnet old =>
    obtain ⟨hip, -, hold⟩ := RequestReads.of_plan_eq_grant hplan
    refine ⟨fun now config l hl => ?_, fun l hl => ?_⟩
    · rw [List.mem_singleton.mp hl]
      exact hip
    · cases old with
      | none => cases hl
      | some id =>
        have hid : l.id = some id := by simpa [RequestPlan.keeps] using hl
        obtain ⟨l', hpick, hid'⟩ := hold id rfl
        obtain ⟨hmem, hon⟩ := List.mem_filter.mp (L.mem_of_pick hpick)
        have haddr : l'.ipAddress = ip := by
          simp only [Bool.and_eq_true, beq_iff_eq] at hon
          exact hon.1
        exact ⟨l', hmem, hid'.trans hid.symm, haddr ▸ hip⟩

/-- A REQUEST for another address changes nothing for a decision. -/
theorem plan_after (hvalid : (L.book w.db).Valid) {p q : DhcpPacket} {ifaceIps' : List Ipv4Addr}
    (hne : requestedIp p ≠ requestedIp q) :
    L.plan p ifaceIps (requestOutcome L.store config q ifaceIps' w).state =
      L.plan p ifaceIps w := by
  obtain ⟨-, hclock, hbook, hsettings⟩ := L.requestOutcome_eq config q ifaceIps' w
  have hbacked := L.backed_plan q ifaceIps' w
  rw [plan, plan, hclock, hbook, hsettings]
  -- the decision looks at the requested address only
  have hon : ∀ ip, requestedIp p = some ip →
      ((L.book w.db).settle w.clock q config (L.plan q ifaceIps' w)).on w.clock ip =
        (L.book w.db).on w.clock ip := by
    intro ip hip
    exact hvalid.on_settle hbacked fun hq => hne (hip.trans hq.symm)
  unfold RequestReads.plan
  cases hip : requestedIp p with
  | none => rfl
  | some ip =>
    simp only [RequestReads.planDynamic, hon ip hip]
    rfl

/-- **Requests commute**, on any store that keeps a table of leases. -/
theorem requestsCommute (L : LeaseStore σ) (hvalid : (L.book w.db).Valid) {p q : DhcpPacket}
    (hne : requestedIp p ≠ requestedIp q) (ips ips' : List Ipv4Addr) :
    RequestsCommute L.store L.book config p q ips ips' w := by
  obtain ⟨hp, hpclock, hpbook, -⟩ := L.requestOutcome_eq config p ips w
  obtain ⟨hq, hqclock, hqbook, -⟩ := L.requestOutcome_eq config q ips' w
  obtain ⟨hpq, -, hpqbook, -⟩ :=
    L.requestOutcome_eq config q ips' (requestOutcome L.store config p ips w).state
  obtain ⟨hqp, -, hqpbook, -⟩ :=
    L.requestOutcome_eq config p ips (requestOutcome L.store config q ips' w).state
  rw [plan_after hvalid hne] at hqp hqpbook
  rw [plan_after hvalid hne.symm] at hpq hpqbook
  refine ⟨hp.trans hqp.symm, hq.trans hpq.symm, ?_⟩
  rw [hpqbook, hqpbook, hpbook, hqbook, hpclock, hqclock]
  exact hvalid.settle_comm (L.backed_plan p ips w) (L.backed_plan q ips' w)

end LeaseStore

/-! ### The two stores -/

/-- Two rows are listed in an order that does not depend on the other rows: leaving rows out before
or after listing them is the same. The order of the row ids is of this kind, and so is the order of
an index. -/
def RowOrder.Stable {α : Type} (o : RowOrder α) : Prop :=
  ∀ (rows : List α) (p : α → Bool), (o.arrange rows).filter p = o.arrange (rows.filter p)

theorem RowOrder.stable_id {α : Type} : (RowOrder.id : RowOrder α).Stable := fun _ _ => rfl

/-- The leases of the in-memory store. -/
def MemoryDb.leaseBook (db : MemoryDb) : LeaseBook := ⟨db.leases, db.nextLeaseId⟩

/-- The leases of the SQLite store. -/
def SqliteDb.leaseBook (db : SqliteDb) : LeaseBook := db.inMemory.leaseBook

/-- The in-memory store keeps a table of leases. -/
def memoryLeases (toLowercase : String → String) : LeaseStore MemoryDb where
  store := MemoryDb.exec toLowercase
  book := MemoryDb.leaseBook
  settings db := ⟨db.getStaticIpByMac toLowercase, db.getSubnet, db.ranges⟩
  pick := List.head?
  mem_of_pick h := List.mem_of_mem_head? h
  reads w :=
    { staticOf := fun _ => rfl
      subnet := fun _ => rfl
      ranges := rfl
      active := by
        refine ⟨w.db.listActiveLeases w.clock, rfl, fun ip => ?_⟩
        rw [← List.head?_filter, MemoryDb.listActiveLeases, List.filter_filter]
        rfl }
  expire _ db id := ⟨db.expireLease id, rfl, rfl, rfl⟩
  create _ db lease _ _ := ⟨db.nextLeaseId, (db.createLease lease).2, rfl, rfl, rfl⟩

/-- The row that a lease was read from. -/
def Lease.readFrom (l : Lease) : LeaseRow := l.toRow (l.id.getD 0)

namespace SqliteDb

variable {db : SqliteDb} {now : ℤ} {ip : Ipv4Addr}

/-- The active rows on an address. -/
def rowsOn (db : SqliteDb) (now : ℤ) (ip : Ipv4Addr) : List LeaseRow :=
  db.leases.filter fun l => l.ipAddress == ip && decide (now < l.leaseEnd)

theorem leaseBook_on : db.leaseBook.on now ip = (db.rowsOn now ip).map LeaseRow.toLease :=
  filter_map_view fun _ => rfl

theorem readFrom_leaseBook_on : (db.leaseBook.on now ip).map Lease.readFrom = db.rowsOn now ip := by
  rw [leaseBook_on, List.map_map]
  exact List.map_id _

/-- In a stable order, the first active lease on an address is the first one of the active rows on
that address. -/
theorem find?_listActiveLeases_of_stable {ord : ScanOrder} (hord : ord.leases.Stable) :
    (db.listActiveLeases ord now).find? (·.ipAddress == ip) =
      (ord.leases.arrange (db.rowsOn now ip)).head?.map LeaseRow.toLease := by
  rw [listActiveLeases, List.find?_map, ← List.head?_filter, hord, List.filter_filter]
  rfl

theorem leaseBook_expireLease (id : ℤ) :
    (db.expireLease id).leaseBook = db.leaseBook.expire id :=
  congrArg MemoryDb.leaseBook (inMemory_expireLease id).symm

theorem leaseBook_insertLease (lease : Lease) :
    (db.insertLease lease).leaseBook = db.leaseBook.insert lease :=
  congrArg (LeaseBook.mk · (db.leaseSeq + 1 + 1)) List.map_append

end SqliteDb

/-- The SQLite store keeps a table of leases, if it lists them in a stable order. -/
def sqliteLeases (ord : ScanOrder) (hord : ord.leases.Stable) : LeaseStore SqliteDb where
  store := SqliteDb.exec ord
  book := SqliteDb.leaseBook
  settings db := ⟨db.getStaticIpByMac ord, db.getSubnet, db.listRanges ord none⟩
  pick leases := (ord.leases.arrange (leases.map Lease.readFrom)).head?.map LeaseRow.toLease
  mem_of_pick := by
    intro db now ip l h
    rw [SqliteDb.readFrom_leaseBook_on] at h
    obtain ⟨r, hr, rfl⟩ := Option.map_eq_some_iff.mp h
    rw [SqliteDb.leaseBook_on]
    exact List.mem_map_of_mem (ord.leases.mem_arrange.mp (List.mem_of_mem_head? hr))
  reads w :=
    { staticOf := fun _ => rfl
      subnet := fun _ => rfl
      ranges := rfl
      active := by
        refine ⟨w.db.listActiveLeases ord w.clock, rfl, fun ip => ?_⟩
        rw [SqliteDb.find?_listActiveLeases_of_stable hord, ← SqliteDb.readFrom_leaseBook_on] }
  expire _ db id := ⟨db.expireLease id, rfl, db.leaseBook_expireLease id, rfl⟩
  create _ db lease _ hsubnet :=
    ⟨db.leaseSeq + 1, db.insertLease lease,
      SqliteDb.createLease_of_hasSubnet (SqliteDb.hasSubnet_of_getSubnet hsubnet),
      db.leaseBook_insertLease lease, rfl⟩

/-! ### The result -/

/-- Every call on the in-memory store keeps the ids of the leases in order. -/
theorem MemoryDb.valid_leaseBook_exec {toLowercase : String → String} {now : ℤ} {db : MemoryDb}
    (h : db.leaseBook.Valid) (c : DbCall) :
    (MemoryDb.exec toLowercase now db c).2.leaseBook.Valid := by
  cases c with
  | createLease lease => exact h.insert lease
  | expireLease id => exact h.sublist List.filter_sublist
  | deleteExpiredLeases => exact h.sublist List.filter_sublist
  | _ => exact h

/-- Every call on the SQLite store keeps the ids of the leases in order. -/
theorem SqliteDb.valid_leaseBook_exec {ord : ScanOrder} {now : ℤ} {db : SqliteDb}
    (h : db.leaseBook.Valid) (c : DbCall) : (SqliteDb.exec ord now db c).2.leaseBook.Valid := by
  rcases @SqliteDb.exec_leases ord now db c with ⟨lease, -, -, hinsert⟩ | ⟨hleases, hseq⟩
  · rw [hinsert, leaseBook_insertLease]
    exact h.insert lease
  · have hbook : (SqliteDb.exec ord now db c).2.leaseBook =
        ⟨(db.leases.filter (SqliteDb.keepsLease now c)).map LeaseRow.toLease, db.leaseSeq + 1⟩ := by
      rw [← hleases, ← hseq]
      rfl
    rw [hbook]
    exact h.sublist (List.filter_sublist.map _)

/-- **Requests for different addresses commute**, on the in-memory store and on SQLite. The ids of
the leases are distinct and were given out before, which every call preserves. -/
theorem requests_commute (config : DhcpConfig) (p q : DhcpPacket) (ips ips' : List Ipv4Addr)
    (hne : requestedIp p ≠ requestedIp q) :
    (∀ (toLowercase : String → String) (w : World MemoryDb), w.db.leaseBook.Valid →
      RequestsCommute (MemoryDb.exec toLowercase) MemoryDb.leaseBook config p q ips ips' w) ∧
    ∀ (ord : ScanOrder) (w : World SqliteDb), ord.leases.Stable → w.db.leaseBook.Valid →
      RequestsCommute (SqliteDb.exec ord) SqliteDb.leaseBook config p q ips ips' w := by
  constructor
  · intro toLowercase w hvalid
    exact (memoryLeases toLowercase).requestsCommute hvalid hne ips ips'
  · intro ord w hord hvalid
    exact (sqliteLeases ord hord).requestsCommute hvalid hne ips ips'

namespace Sample

theorem valid_leaseBook_leased : leased.leaseBook.Valid where
  nodup := by decide
  fresh l hl := by
    obtain rfl := List.mem_singleton.mp hl
    exact ⟨1, by decide, rfl⟩

end Sample

/-- Alice renews her lease while Bob gets a new one. -/
theorem requests_commute_renewal :
    requestedIp (Sample.request Sample.alice (.new 10 0 0 10)) ≠
      requestedIp (Sample.request Sample.bob (.new 10 0 0 11)) ∧
    Sample.leased.leaseBook.Valid ∧ ScanOrder.rowid.leases.Stable ∧
    RequestsCommute (MemoryDb.exec String.toLower) MemoryDb.leaseBook Sample.config
      (Sample.request Sample.alice (.new 10 0 0 10)) (Sample.request Sample.bob (.new 10 0 0 11))
      Sample.iface Sample.iface ⟨Sample.leased.inMemory, 0⟩ ∧
    RequestsCommute (SqliteDb.exec .rowid) SqliteDb.leaseBook Sample.config
      (Sample.request Sample.alice (.new 10 0 0 10)) (Sample.request Sample.bob (.new 10 0 0 11))
      Sample.iface Sample.iface ⟨Sample.leased, 0⟩ := by
  have hne : requestedIp (Sample.request Sample.alice (.new 10 0 0 10)) ≠
      requestedIp (Sample.request Sample.bob (.new 10 0 0 11)) := by decide
  have hcommute := requests_commute Sample.config _ _ Sample.iface Sample.iface hne
  exact ⟨hne, Sample.valid_leaseBook_leased, RowOrder.stable_id,
    hcommute.1 String.toLower ⟨Sample.leased.inMemory, 0⟩ Sample.valid_leaseBook_leased,
    hcommute.2 .rowid ⟨Sample.leased, 0⟩ RowOrder.stable_id Sample.valid_leaseBook_leased⟩

end Ndhcpd
