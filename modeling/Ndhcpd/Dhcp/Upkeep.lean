import Ndhcpd.Dhcp.LeaseTable
import Ndhcpd.Dhcp.Request
import Ndhcpd.Dhcp.System

/-!
# The setting of the listener

What the packet handlers may rely on while they run, and what they have to keep up, on the
SQLite store. The other tasks can only remove leases and let time pass (`Elapses`); the
lease table has to stay `Orderly` at every moment.

How rough the surroundings are is a parameter, the `Regime`: which calls of the listener may
fail, and whether the other tasks leave the subnets alone. The reads of a REQUEST are
treated once for all regimes (`planRequest_holds`): they end with a plan that is still
`Ready` to be carried out, whatever happened meanwhile.
-/

namespace Ndhcpd

/-- What can go wrong around the listener. -/
structure Regime where
  /-- The calls of the listener that may fail. -/
  mayFail : ServerCall → Prop
  /-- The other tasks delete no subnet. -/
  subnetsStay : Prop

/-- What happens between two calls of the listener: time passes and leases disappear. While
the subnets stay, only leases that have ended disappear. -/
structure Elapses (reg : Regime) (s s' : Scene SqliteDb) : Prop where
  clock : s.clock ≤ s'.clock
  leases : s'.db.leases.Sublist s.db.leases
  leaseSeq : s'.db.leaseSeq = s.db.leaseSeq
  granted : s'.granted = s.granted
  subnets : reg.subnetsStay → ∀ id, s.db.hasSubnet id = true → s'.db.hasSubnet id = true
  kept : reg.subnetsStay → ∀ l ∈ s.db.leases, s'.clock ≤ l.leaseEnd → l ∈ s'.db.leases

/-- In the regime `expire_lease` never fails. -/
def Regime.Expires (reg : Regime) : Prop := ∀ id, ¬ reg.mayFail (.db (.expireLease id))

/-- The lease table at a moment: tidy, exclusive, and, where `expire_lease` never fails, with
at most one active lease on each address. -/
structure Orderly (reg : Regime) (s : Scene SqliteDb) : Prop where
  tidy : Tidy s.db.leases s.db.leaseSeq
  exclusive : Exclusive s.db.leases s.clock
  single : reg.Expires → Single s.db.leases s.clock

/-- The setting in which the packet handlers run. -/
def Regime.setting (reg : Regime) (ord : ScanOrder) :
    Setting ServerCall ServerCall.Reply (Scene SqliteDb) where
  rely := Elapses reg
  rely_refl _ := ⟨le_rfl, List.Sublist.refl _, rfl, rfl, fun _ _ h => h, fun _ _ h _ => h⟩
  rely_trans h h' := ⟨h.clock.trans h'.clock, h'.leases.trans h.leases,
    h'.leaseSeq.trans h.leaseSeq, h'.granted.trans h.granted,
    fun hstay id hid => h'.subnets hstay id (h.subnets hstay id hid),
    fun hstay l hl hend => h'.kept hstay l (h.kept hstay l hl (h'.clock.trans hend)) hend⟩
  inv := Orderly reg
  step c s r s' := ∃ fails, (fails = true → reg.mayFail c) ∧
    s.serve (SqliteDb.exec ord) fails c = (r, s')

variable {reg : Regime} {ord : ScanOrder} {s s' : Scene SqliteDb}

/-! ### Orderly tables -/

theorem Orderly.elapses (h : Orderly reg s) (hs : Elapses reg s s') : Orderly reg s' where
  tidy := hs.leaseSeq ▸ h.tidy.mono hs.leases
  exclusive := h.exclusive.mono hs.leases.subset hs.clock
  single hexp := (h.single hexp).mono hs.leases.subset hs.clock

theorem stable_orderly : (reg.setting ord).Stable (Orderly reg) :=
  ⟨fun h => h, fun h hs => h.elapses hs⟩

/-! ### What a call of the listener does -/

theorem step_isRead {c : ServerCall} (hc : c.isRead = true) {r : c.Reply}
    (h : (reg.setting ord).step c s r s') : s' = s := by
  obtain ⟨fails, -, h⟩ := h
  exact (congrArg Prod.snd h).symm.trans (Scene.serve_of_isRead hc fails s)

theorem step_utcNow {now : ℤ} (h : (reg.setting ord).step .utcNow s now s') :
    now = s.clock ∧ s' = s := by
  have hs := step_isRead rfl h
  obtain ⟨fails, -, h⟩ := h
  have hnow : now = s.clock + (0 : ℕ) := (congrArg Prod.fst h).symm
  exact ⟨by simpa using hnow, hs⟩

/-- **Inversion.** A database call of the listener fails, where it may, and changes nothing,
or it is answered by the store. -/
theorem step_db {c : DbCall} {r : c.Result} (h : (reg.setting ord).step (.db c) s r s') :
    (reg.mayFail (.db c) ∧ r = .error .unavailable ∧ s' = s) ∨
    (r = (SqliteDb.exec ord s.clock s.db c).1 ∧
      s' = ⟨⟨(SqliteDb.exec ord s.clock s.db c).2, s.clock⟩,
        Scene.noteGrant (.db c) (SqliteDb.exec ord s.clock s.db c).1 s.granted⟩) := by
  obtain ⟨fails, hfails, h⟩ := h
  cases fails with
  | true =>
    rw [Scene.serve_fails] at h
    exact .inl ⟨hfails rfl, (congrArg Prod.fst h).symm, (congrArg Prod.snd h).symm⟩
  | false =>
    rw [Scene.serve_succeeds] at h
    exact .inr ⟨(congrArg Prod.fst h).symm, (congrArg Prod.snd h).symm⟩

theorem step_getSubnet {id : ℤ} {subnet : Subnet}
    (h : (reg.setting ord).step (.db (.getSubnet id)) s (.ok (some subnet)) s') :
    s.db.getSubnet id = some subnet := by
  obtain ⟨-, hr, -⟩ | ⟨hr, -⟩ := step_db h
  · cases hr
  · exact (Except.ok.inj hr).symm

theorem step_listActiveLeases {leases : List Lease}
    (h : (reg.setting ord).step (.db .listActiveLeases) s (.ok leases) s') :
    leases = s.db.listActiveLeases ord s.clock := by
  obtain ⟨-, hr, -⟩ | ⟨hr, -⟩ := step_db h
  · cases hr
  · exact Except.ok.inj hr

theorem step_getActiveLease {mac : String} {lease : Option Lease}
    (h : (reg.setting ord).step (.db (.getActiveLease mac)) s (.ok lease) s') :
    lease = s.db.getActiveLease ord mac s.clock := by
  obtain ⟨-, hr, -⟩ | ⟨hr, -⟩ := step_db h
  · cases hr
  · exact Except.ok.inj hr

/-- The scene after `expire_lease`. -/
def Scene.expireLease (s : Scene SqliteDb) (id : ℤ) : Scene SqliteDb :=
  { s with db := s.db.expireLease id }

/-- The scene after a successful `create_lease`. -/
def Scene.insertLease (s : Scene SqliteDb) (lease : Lease) : Scene SqliteDb :=
  ⟨⟨s.db.insertLease lease, s.clock⟩, some lease⟩

/-- `expire_lease` fails, where it may, or deletes the row. -/
theorem step_expireLease {id : ℤ} {r : (DbCall.expireLease id).Result}
    (h : (reg.setting ord).step (.db (.expireLease id)) s r s') :
    (reg.mayFail (.db (.expireLease id)) ∧ s' = s) ∨
      s' = s.expireLease id := by
  obtain ⟨hfail, -, hs⟩ | ⟨-, hs⟩ := step_db h
  · exact .inl ⟨hfail, hs⟩
  · exact .inr hs

/-- `create_lease` fails, where it may or when the subnet is gone, or inserts the row. -/
theorem step_createLease {lease : Lease} {r : (DbCall.createLease lease).Result}
    (h : (reg.setting ord).step (.db (.createLease lease)) s r s') :
    ((∃ e, r = .error e) ∧ s' = s ∧
      (reg.mayFail (.db (.createLease lease)) ∨ s.db.hasSubnet lease.subnetId = false)) ∨
    r = .ok (s.db.leaseSeq + 1) ∧ s' = s.insertLease lease := by
  obtain ⟨hfail, hr, hs⟩ | ⟨hr, hs⟩ := step_db h
  · exact .inl ⟨⟨_, hr⟩, hs, .inl hfail⟩
  · simp only [SqliteDb.exec] at hr hs
    cases hsub : s.db.hasSubnet lease.subnetId with
    | false =>
      rw [SqliteDb.createLease_of_not_hasSubnet hsub] at hr hs
      exact .inl ⟨⟨_, hr⟩, hs, .inr rfl⟩
    | true =>
      rw [SqliteDb.createLease_of_hasSubnet hsub] at hr hs
      exact .inr ⟨hr, hs⟩

/-- A program that starts with a read under a stable condition: the scene is the same before
and after the read. -/
theorem holds_read {α : Type} {A : Scene SqliteDb → Prop} {post : α → Scene SqliteDb → Prop}
    (hA : (reg.setting ord).Stable A) {c : ServerCall} (hc : c.isRead = true)
    {next : c.Reply → ServerProgram α}
    (hnext : ∀ s r, A s → (reg.setting ord).step c s r s → (reg.setting ord).Holds post (next r) s)
    (hs : A s) : (reg.setting ord).Holds post (.request c next) s := by
  refine hA.request ?_ hs
  intro s hs r s' hstep
  obtain rfl := step_isRead hc hstep
  exact hnext s' r hs hstep

/-- A program that only reads keeps every stable condition. -/
theorem reads_hold {α : Type} {A : Scene SqliteDb → Prop} (hA : (reg.setting ord).Stable A)
    {p : ServerProgram α} (hp : Reads p) (hs : A s) :
    (reg.setting ord).Holds (fun _ => A) p s :=
  hA.only (fun _ hc _ h _ _ hstep => step_isRead hc hstep ▸ h) hp hs

/-- Deleting a lease keeps the table orderly. -/
theorem Orderly.expireLease (h : Orderly reg s) (id : ℤ) :
    Orderly reg (s.expireLease id) where
  tidy := h.tidy.mono List.filter_sublist
  exclusive := h.exclusive.mono (List.filter_subset_self _) le_rfl
  single hexp := (h.single hexp).mono (List.filter_subset_self _) le_rfl

/-- The other tasks stay within the rely condition. -/
theorem elapses_move {m : Move} (hapi : m.fromApi = true)
    (hstay : reg.subnetsStay → m.keepsSubnets = true) :
    Elapses reg s (s.move (SqliteDb.exec ord) m).2 := by
  cases m with
  | tick seconds =>
    exact ⟨by simp [Scene.move], List.Sublist.refl _, rfl, rfl, fun _ _ h => h, fun _ _ h _ => h⟩
  | request c fails =>
    have hc : c.writesLease = false := by simpa [Move.fromApi] using hapi
    have hdelete : reg.subnetsStay → ∀ id, c ≠ .deleteSubnet id := by
      rintro hs id rfl
      simpa [Move.keepsSubnets] using hstay hs
    cases fails with
    | true =>
      rw [Scene.move_fails]
      exact (reg.setting ord).rely_refl s
    | false =>
      rw [Scene.move_succeeds]
      obtain ⟨hleases, hseq⟩ := @SqliteDb.exec_leases_sublist ord s.clock s.db c hc
      exact ⟨le_rfl, hleases, hseq, rfl,
        fun hs id hid => SqliteDb.hasSubnet_exec (hdelete hs) hid,
        fun hs l hl hend => SqliteDb.mem_exec_leases hc (hdelete hs) hl hend⟩

/-! ### The reads of a REQUEST -/

/-- A lease on the address can be granted to the client in place of the row `old`. -/
structure Grantable (reg : Regime) (mac : String) (ip : Ipv4Addr) (range : DynamicRange)
    (old : Option ℤ) (s : Scene SqliteDb) : Prop where
  /-- Nobody else holds the address. -/
  held : HeldBy s.db.leases s.clock ip mac
  /-- Without an old row the address is vacant. -/
  vacant : old = none → Vacant s.db.leases s.clock ip
  /-- The old row is the only active one on the address. -/
  only : reg.Expires → ∀ id, old = some id → OnlyRow s.db.leases s.clock ip id
  /-- The old row, if it is still there, is a lease of the client on the address. -/
  own : ∀ l ∈ s.db.leases, old = some l.id → l.ipAddress = ip ∧ l.macAddress = mac
  /-- The subnet exists. -/
  subnet : reg.subnetsStay → s.db.hasSubnet range.subnetId = true

/-- The plan can be carried out for the client. -/
def Ready (reg : Regime) (mac : String) : RequestPlan → Scene SqliteDb → Prop
  | .grant ip range _ old, s => Grantable reg mac ip range old s
  | _, _ => True

theorem Ready.elapses {mac : String} {plan : RequestPlan} (h : Ready reg mac plan s)
    (hs : Elapses reg s s') : Ready reg mac plan s' := by
  cases plan with
  | refuse => trivial
  | confirm ip subnet => trivial
  | grant ip range subnet old =>
    exact {
      held := h.held.mono hs.leases.subset hs.clock
      vacant := fun hold => (h.vacant hold).mono hs.leases.subset hs.clock
      only := fun hexp id hid => (h.only hexp id hid).mono hs.leases.subset hs.clock
      own := fun l hl => h.own l (hs.leases.subset hl)
      subnet := fun hstay => hs.subnets hstay _ (h.subnet hstay) }

/-- The decision taken on the list of active leases is ready. -/
theorem ready_planLease (h : Orderly reg s) {mac : String} {ip : Ipv4Addr}
    {range : DynamicRange} {subnet : Subnet}
    (hsub : reg.subnetsStay → s.db.hasSubnet range.subnetId = true) :
    Ready reg mac (planLease mac ip range subnet (s.db.listActiveLeases ord s.clock)) s := by
  obtain ⟨hvacant, hplan⟩ | ⟨row, hrow, hact, rfl, hplan⟩ :=
    @planLease_listActiveLeases ord s.db mac ip range subnet s.clock
  · rw [hplan]
    exact ⟨Vacant.heldBy hvacant, fun _ => hvacant, by simp, by simp, hsub⟩
  · rw [hplan]
    split
    · next hmac =>
      subst hmac
      refine ⟨h.exclusive.heldBy hrow hact, by simp, fun hexp id hid => ?_, fun l hl hid => ?_,
        hsub⟩
      · obtain rfl := Option.some.inj hid
        exact (h.single hexp).onlyRow hrow hact
      · obtain rfl := h.tidy.eq_of_id hrow hl (Option.some.inj hid)
        exact ⟨rfl, rfl⟩
    · trivial

section Plan

variable {A : Scene SqliteDb → Prop} (hA : (reg.setting ord).Stable A)
include hA

/-- The range that `findMatchingRange` returns is on a subnet that exists. -/
theorem findMatchingRange_holds {ifaceIps : List Ipv4Addr} {ip : Ipv4Addr}
    (ranges : List DynamicRange) (hs : A s) :
    (reg.setting ord).Holds (fun found s => A s ∧ ∀ range subnet, found = some (range, subnet) →
      reg.subnetsStay → s.db.hasSubnet range.subnetId = true)
      (findMatchingRange ifaceIps ip ranges) s := by
  induction ranges generalizing s with
  | nil => exact hA.done (fun s h => ⟨h, by simp⟩) hs
  | cons r rest ih =>
    unfold findMatchingRange
    split
    · refine holds_read hA rfl ?_ hs
      rintro s (e | _ | subnet) hs hstep
      · exact ih hs
      · exact ih hs
      · show Setting.Holds _ _ (if ifaceInSubnet ifaceIps subnet = true then _ else _) _
        split
        · have hsub := SqliteDb.hasSubnet_of_getSubnet (step_getSubnet hstep)
          have hstable : (reg.setting ord).Stable fun s => A s ∧
              (reg.subnetsStay → s.db.hasSubnet r.subnetId = true) :=
            hA.and fun h hs hstay => hs.subnets hstay _ (h hstay)
          refine hstable.done (fun s h => ⟨h.1, fun range subnet' hfound => ?_⟩)
            ⟨hs, fun _ => hsub⟩
          obtain ⟨rfl, rfl⟩ : r = range ∧ subnet = subnet' := by simpa using hfound
          exact h.2
        · exact ih hs
    · exact ih hs

private theorem planDynamic_holds {packet : DhcpPacket} {ifaceIps : List Ipv4Addr}
    {ip : Ipv4Addr} (hs : A s) :
    (reg.setting ord).Holds (fun plan s => A s ∧ Ready reg (requestMac packet) plan s)
      (planDynamic packet ifaceIps ip) s := by
  have hrange : (reg.setting ord).Holds (fun found s => A s ∧ ∀ range subnet,
      found = some (range, subnet) → reg.subnetsStay → s.db.hasSubnet range.subnetId = true)
      (planRange ifaceIps ip) s := by
    refine holds_read hA rfl ?_ hs
    rintro s (e | ranges) hs hstep
    · exact hA.done (fun s h => ⟨h, by simp⟩) hs
    · exact findMatchingRange_holds hA ranges hs
  refine (hrange.mono fun found s hfound => ?_).bind
  rcases found with _ | ⟨range, subnet⟩
  · exact hA.done (fun s h => ⟨h, trivial⟩) hfound.1
  · have hstable : (reg.setting ord).Stable fun s => A s ∧
        (reg.subnetsStay → s.db.hasSubnet range.subnetId = true) :=
      hA.and fun h hs hstay => hs.subnets hstay _ (h hstay)
    refine holds_read hstable rfl ?_ ⟨hfound.1, hfound.2 _ _ rfl⟩
    rintro s (e | leases) hs hstep
    · exact hA.done (fun s h => ⟨h, trivial⟩) hs.1
    · obtain rfl := step_listActiveLeases hstep
      -- the plan is fixed by what was read, and stays ready as time passes
      have hready : (reg.setting ord).Stable fun s' => A s' ∧ Ready reg (requestMac packet)
          (planLease (requestMac packet) ip range subnet
            (s.db.listActiveLeases ord s.clock)) s' :=
        hA.and fun h hs => h.elapses hs
      exact hready.done (fun s h => h) ⟨hs.1, ready_planLease (hA.inv hs.1) hs.2⟩

private theorem planStatic_holds {mac : String} {ifaceIps : List Ipv4Addr} {ip : Ipv4Addr}
    {staticIp : StaticIP} (hs : A s) :
    (reg.setting ord).Holds (fun plan s => A s ∧ Ready reg mac plan s)
      (planStatic ifaceIps ip staticIp) s := by
  unfold planStatic
  split
  · refine holds_read hA rfl ?_ hs
    rintro s (e | _ | subnet) hs hstep
    · exact hA.done (fun s h => ⟨h, trivial⟩) hs
    · exact hA.done (fun s h => ⟨h, trivial⟩) hs
    · show Setting.Holds _ _ (if ifaceInSubnet ifaceIps subnet = true then _ else _) _
      split <;> exact hA.done (fun s h => ⟨h, trivial⟩) hs
  · exact hA.done (fun s h => ⟨h, trivial⟩) hs

/-- **The reads of a REQUEST** end with a plan that is ready to be carried out. -/
theorem planRequest_holds {packet : DhcpPacket} {ifaceIps : List Ipv4Addr} (hs : A s) :
    (reg.setting ord).Holds (fun plan s => A s ∧ Ready reg (requestMac packet) plan s)
      (planRequest packet ifaceIps) s := by
  unfold planRequest
  cases requestedIp packet with
  | none => exact hA.done (fun s h => ⟨h, trivial⟩) hs
  | some ip =>
    refine holds_read hA rfl ?_ hs
    rintro s (e | _ | staticIp) hs hstep
    · exact planDynamic_holds hA hs
    · exact planDynamic_holds hA hs
    · exact planStatic_holds hA hs

end Plan

/-! ### A RELEASE -/

/-- **A RELEASE** deletes at most one row, and that row is the client's. -/
theorem handleRelease_holds {A : Scene SqliteDb → Prop} (hA : (reg.setting ord).Stable A)
    {packet : DhcpPacket}
    (hexpire : ∀ s id, A s →
      (∀ l ∈ s.db.leases, l.id = id → l.macAddress = packet.chaddr.toString) →
        A (s.expireLease id))
    (hs : A s) : (reg.setting ord).Holds (fun _ => A) (handleRelease packet) s := by
  refine holds_read hA rfl ?_ hs
  rintro s (e | _ | lease) hs hstep
  · exact hA.done (fun s h => h) hs
  · exact hA.done (fun s h => h) hs
  · obtain ⟨row, hrow, -, hmac, rfl⟩ := SqliteDb.of_getActiveLease (step_getActiveLease hstep).symm
    have htidy := (hA.inv hs).tidy
    have hown : ∀ l ∈ s.db.leases, l.id = row.id → l.macAddress = packet.chaddr.toString := by
      intro l hl hid
      obtain rfl := htidy.eq_of_id hl hrow hid
      exact htidy.eq_toString hl hmac
    have hstable : (reg.setting ord).Stable fun s => A s ∧
        ∀ l ∈ s.db.leases, l.id = row.id → l.macAddress = packet.chaddr.toString :=
      hA.and fun h hs l hl => h l (hs.leases.subset hl)
    refine hstable.request ?_ ⟨hs, hown⟩
    intro s hs reply s' hstep
    refine hA.done (fun s h => h) ?_
    rcases step_expireLease hstep with ⟨-, rfl⟩ | rfl
    · exact hs.1
    · exact hexpire s row.id hs.1 hs.2

end Ndhcpd
