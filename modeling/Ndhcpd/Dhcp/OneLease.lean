import Ndhcpd.Dhcp.LeaseTable
import Ndhcpd.Dhcp.Outcome

/-!
# One lease per client and subnet

`get_active_lease` and `handle_release` treat the lease of a client as unique, but a granted
REQUEST only replaces the client's lease on the address it asks for. A client that asks for
another address of a subnet on which it has a lease gets a second one.

This module is about servers on which nothing happens but packets and the passing of time,
and no call fails (`Arrival`). `one_lease_per_subnet_iff` says exactly which runs of such a
server keep every client at one active lease per subnet: those in which no REQUEST is a
`SecondLease` in the state it finds.
-/

namespace Ndhcpd

/-! ### The condition on the table -/

section Table

variable {rows rows' : List LeaseRow} {now now' : ℤ} {row : LeaseRow} {seq : ℤ}

/-- Active leases of the same client on the same subnet are the same row. -/
def OnePerSubnet (rows : List LeaseRow) (now : ℤ) : Prop :=
  ∀ l ∈ rows, ∀ l' ∈ rows, now < l.leaseEnd → now < l'.leaseEnd →
    l.macAddress = l'.macAddress → l.subnetId = l'.subnetId → l.id = l'.id

theorem OnePerSubnet.mono (h : OnePerSubnet rows now) (hrows : rows' ⊆ rows)
    (hnow : now ≤ now') : OnePerSubnet rows' now' :=
  fun l hl l' hl' hact hact' => h l (hrows hl) l' (hrows hl') (by omega) (by omega)

/-- A new row breaks the condition exactly if it and another lease of the client on the
subnet are active. -/
theorem OnePerSubnet.append_iff (h : OnePerSubnet rows now) (htidy : Tidy rows seq)
    (hid : row.id = seq + 1) :
    OnePerSubnet (rows ++ [row]) now ↔
      ¬ (now < row.leaseEnd ∧ ∃ l ∈ rows, now < l.leaseEnd ∧ l.macAddress = row.macAddress ∧
        l.subnetId = row.subnetId) := by
  constructor
  · rintro hone ⟨hact, l, hl, hactl, hmac, hsub⟩
    have hsame := hone l (List.mem_append_left _ hl) row (by simp) hactl hact hmac hsub
    have hfresh := htidy.fresh l hl
    omega
  · intro hnone l hl l' hl' hact hact' hmac hsub
    rw [List.mem_append, List.mem_singleton] at hl hl'
    rcases hl with hl | rfl <;> rcases hl' with hl' | rfl
    · exact h l hl l' hl' hact hact' hmac hsub
    · exact absurd ⟨hact', l, hl, hact, hmac, hsub⟩ hnone
    · exact absurd ⟨hact, l', hl', hact', hmac.symm, hsub.symm⟩ hnone
    · rfl

/-- The active leases of a client on a subnet. -/
def leasesOf (w : World SqliteDb) (mac : String) (subnetId : ℤ) : List LeaseRow :=
  w.db.leases.filter fun l =>
    l.macAddress == mac && l.subnetId == subnetId && decide (w.clock < l.leaseEnd)

/-- In a tidy table the condition is a count. -/
theorem onePerSubnet_iff {w : World SqliteDb} (htidy : Tidy w.db.leases seq) :
    OnePerSubnet w.db.leases w.clock ↔
      ∀ mac subnetId, (leasesOf w mac subnetId).length ≤ 1 := by
  constructor
  · intro h mac subnetId
    refine htidy.length_filter_le_one fun l hl l' hl' hpl hpl' => ?_
    simp only [Bool.and_eq_true, beq_iff_eq, decide_eq_true_eq] at hpl hpl'
    exact h l hl l' hl' hpl.2 hpl'.2 (hpl.1.1.trans hpl'.1.1.symm) (hpl.1.2.trans hpl'.1.2.symm)
  · intro h l hl l' hl' hact hact' hmac hsub
    have hmem : l ∈ leasesOf w l.macAddress l.subnetId := by simp [leasesOf, hl, hact]
    have hmem' : l' ∈ leasesOf w l.macAddress l.subnetId := by
      simp [leasesOf, hl', hact', hmac, hsub]
    have hcount := h l.macAddress l.subnetId
    match hlist : leasesOf w l.macAddress l.subnetId with
    | [] => simp [hlist] at hmem
    | [only] =>
      rw [hlist, List.mem_singleton] at hmem hmem'
      rw [hmem, hmem']
    | first :: second :: rest => simp [hlist] at hcount

end Table

/-! ### One packet -/

section Packet

variable (ord : ScanOrder) (config : DhcpConfig) (w : World SqliteDb) (packet : DhcpPacket)
  (ifaceIps : List Ipv4Addr) (fates : ℕ → Fate)

/-- The number of the call by which a granted REQUEST inserts its lease. If there is an old
lease on the address, its deletion comes before. -/
def insertCall (w : World SqliteDb) (fates : ℕ → Fate) (ip : Ipv4Addr) (i : ℕ) : ℕ :=
  if Vacant w.db.leases (clockAfter fates w.clock (i + 2)) ip then i + 3 else i + 4

/-- The REQUEST gets to the list of active leases, and no other client has an active lease on
the address. -/
structure Grants (ip : Ipv4Addr) (range : DynamicRange) (subnet : Subnet) (i : ℕ) : Prop
  extends Reaches ord w packet ifaceIps fates ip range subnet i where
  held : HeldBy w.db.leases (clockAfter fates w.clock (i + 2)) ip (requestMac packet)

/-- The REQUEST is granted while the client has a lease on another address of the same subnet;
when the new lease is inserted, the other one is still active, and the new one has not run out
already. -/
def SecondLease : Prop :=
  ∃ ip range subnet i l, Grants ord w packet ifaceIps fates ip range subnet i ∧
    l ∈ w.db.leases ∧ l.macAddress = requestMac packet ∧ l.subnetId = range.subnetId ∧
    l.ipAddress ≠ ip ∧ clockAfter fates w.clock (insertCall w fates ip i + 1) < l.leaseEnd ∧
    (fates (insertCall w fates ip i)).wait < config.defaultLeaseTime.toNat

variable {ord config w packet ifaceIps fates}

/-- What is carried along a run: the table is tidy, and there is at most one active row for
each address, and for each client and subnet. -/
structure Frugal (w : World SqliteDb) : Prop where
  tidy : Tidy w.db.leases w.db.leaseSeq
  single : Single w.db.leases w.clock
  one : OnePerSubnet w.db.leases w.clock

/-- **A granted REQUEST.** The rows that were active on the address make way for the new one. -/
theorem Grants.run_state {ip : Ipv4Addr} {range : DynamicRange} {subnet : Subnet} {i : ℕ}
    (h : Grants ord w packet ifaceIps fates ip range subnet i) (hw : Frugal w)
    (hcalm : ∀ n, (fates n).fails = false) :
    ((handleRequest packet ifaceIps config).run (serve (SqliteDb.exec ord)) fates w).state =
      ⟨{ w.db with
          leases := w.db.leases.filter (fun l => !(l.ipAddress == ip &&
              decide (clockAfter fates w.clock (i + 2) < l.leaseEnd))) ++
            [(newLease packet config ip range
              (clockAfter fates w.clock (insertCall w fates ip i))).toRow (w.db.leaseSeq + 1)]
          leaseSeq := w.db.leaseSeq + 1 },
        clockAfter fates w.clock (insertCall w fates ip i + 1)⟩ := by
  obtain ⟨hvacant, hplan⟩ | ⟨r, hr, hact, rfl, hplan⟩ := @planLease_listActiveLeases ord w.db
    (requestMac packet) ip range subnet (clockAfter fates w.clock (i + 2))
  · -- nobody holds the address: nothing is expired before the insertion
    rw [handleRequest_run h.toReaches hplan, carryOut_grant h.toReaches (hcalm _), insertCall,
      if_pos hvacant]
    have hrows : w.db.leases.filter (fun l => !(l.ipAddress == ip &&
        decide (clockAfter fates w.clock (i + 2) < l.leaseEnd))) = w.db.leases := by
      refine List.filter_eq_self.mpr fun l hl => ?_
      by_cases hip : l.ipAddress = ip
      · simp [hvacant l hl hip]
      · simp [hip]
    rw [hrows]
    rfl
  · have hnot : ¬ Vacant w.db.leases (clockAfter fates w.clock (i + 2)) r.ipAddress := by
      intro hvacant
      have hend := hvacant r hr rfl
      omega
    -- the client holds it: its row is the only active one on the address, and goes
    rw [if_pos (h.held r hr rfl hact)] at hplan
    rw [handleRequest_run h.toReaches hplan, carryOut_renewal h.toReaches r.id (hcalm _), hcalm,
      insertCall, if_neg hnot]
    have hrows : w.db.leases.filter (fun l => !(l.ipAddress == r.ipAddress &&
        decide (clockAfter fates w.clock (i + 2) < l.leaseEnd))) =
        w.db.leases.filter (·.id != r.id) := by
      refine List.filter_congr fun l hl => ?_
      have hle := le_clockAfter fates w.clock (i + 2)
      by_cases hid : l.id = r.id
      · obtain rfl := hw.tidy.eq_of_id hl hr hid
        simp [hact]
      · have hother : l.ipAddress = r.ipAddress →
            l.leaseEnd ≤ clockAfter fates w.clock (i + 2) := by
          intro hip
          by_contra hlt
          exact hid (hw.single l hl r hr (by omega) (by omega) hip)
        rw [bne_iff_ne.mpr hid]
        by_cases hip : l.ipAddress = r.ipAddress
        · simp [hip, hother hip]
        · simp [hip]
    rw [hrows]
    rfl

/-- The lease is inserted after the active leases have been listed. -/
theorem clockAfter_le_insertCall (ip : Ipv4Addr) (i : ℕ) :
    clockAfter fates w.clock (i + 2) ≤ clockAfter fates w.clock (insertCall w fates ip i + 1) := by
  refine clockAfter_mono fates w.clock ?_
  unfold insertCall
  split <;> omega

section Granted

variable {ip : Ipv4Addr} {range : DynamicRange} {subnet : Subnet} {i : ℕ}
  (h : Grants ord w packet ifaceIps fates ip range subnet i) (hw : Frugal w)
  (hcalm : ∀ n, (fates n).fails = false)
include h hw hcalm

/-- A granted REQUEST leaves more than one lease exactly if it asked for a second one. -/
theorem Grants.onePerSubnet_iff :
    OnePerSubnet
        ((handleRequest packet ifaceIps config).run (serve (SqliteDb.exec ord)) fates w).state.db.leases
        ((handleRequest packet ifaceIps config).run (serve (SqliteDb.exec ord)) fates w).state.clock ↔
      ¬ SecondLease ord config w packet ifaceIps fates := by
  have hlisted := @clockAfter_le_insertCall w fates ip i
  have hle := (le_clockAfter fates w.clock (i + 2)).trans hlisted
  have hbegun : clockAfter fates w.clock (insertCall w fates ip i + 1) <
      clockAfter fates w.clock (insertCall w fates ip i) + config.defaultLeaseTime.toNat ↔
      (fates (insertCall w fates ip i)).wait < config.defaultLeaseTime.toNat := by
    rw [clockAfter]
    omega
  rw [h.run_state hw hcalm, OnePerSubnet.append_iff
    (hw.one.mono (List.filter_subset_self _) hle) (hw.tidy.mono List.filter_sublist) rfl]
  refine not_congr ?_
  constructor
  · rintro ⟨hact, l, hl, hactl, hmac, hsub⟩
    obtain ⟨hmem, hstays⟩ := List.mem_filter.mp hl
    refine ⟨ip, range, subnet, i, l, h, hmem, hmac, hsub, ?_, hactl, hbegun.mp hact⟩
    rintro rfl
    have hended : l.leaseEnd ≤ clockAfter fates w.clock (i + 2) := by simpa using hstays
    omega
  · rintro ⟨ip', range', subnet', i', l, h', hl, hmac, hsub, hip, hactl, hwait⟩
    obtain ⟨rfl, rfl, rfl, rfl⟩ := h.toReaches.unique h'.toReaches
    refine ⟨hbegun.mpr hwait, l, List.mem_filter.mpr ⟨hl, ?_⟩, hactl, hmac, hsub⟩
    simp [hip]

/-- In any case the table stays tidy, with one active row for each address. -/
theorem Grants.tidy_single :
    Tidy
        ((handleRequest packet ifaceIps config).run (serve (SqliteDb.exec ord)) fates w).state.db.leases
        ((handleRequest packet ifaceIps config).run (serve (SqliteDb.exec ord)) fates w).state.db.leaseSeq ∧
      Single
        ((handleRequest packet ifaceIps config).run (serve (SqliteDb.exec ord)) fates w).state.db.leases
        ((handleRequest packet ifaceIps config).run (serve (SqliteDb.exec ord)) fates w).state.clock := by
  have hlisted := @clockAfter_le_insertCall w fates ip i
  have hle := (le_clockAfter fates w.clock (i + 2)).trans hlisted
  rw [h.run_state hw hcalm]
  refine ⟨(hw.tidy.mono List.filter_sublist).append rfl ⟨_, requestMac_eq packet⟩,
    (hw.single.mono (List.filter_subset_self _) hle).append fun l hl hip => ?_⟩
  -- what is left on the address was not active when the leases were listed
  obtain ⟨-, hstays⟩ := List.mem_filter.mp hl
  have hip' : l.ipAddress = ip := hip
  have hended : l.leaseEnd ≤ clockAfter fates w.clock (i + 2) := by simpa [hip'] using hstays
  omega

end Granted

/-- A REQUEST that inserts a lease is granted in the sense of `Grants`. -/
theorem Reaches.grants {ip : Ipv4Addr} {range : DynamicRange} {subnet : Subnet} {i : ℕ}
    (h : Reaches ord w packet ifaceIps fates ip range subnet i) (hw : Frugal w) {old : Option ℤ}
    (hplan : planLease (requestMac packet) ip range subnet
      (w.db.listActiveLeases ord (clockAfter fates w.clock (i + 2))) =
        .grant ip range subnet old) : Grants ord w packet ifaceIps fates ip range subnet i := by
  have hexclusive := (hw.single.exclusive hw.tidy).mono (List.Subset.refl _)
    (le_clockAfter fates w.clock (i + 2))
  exact ⟨h, heldBy_of_planLease hexclusive hplan⟩

/-- A packet that is not a granted REQUEST inserts nothing. -/
theorem PacketOutcome.leases (hw : Frugal w)
    (h : packet.getMessageType = some .request → ∀ ip range subnet i,
      ¬ Grants ord w packet ifaceIps fates ip range subnet i)
    {reply : Option DhcpPacket} {w' : World SqliteDb}
    (hout : PacketOutcome ord config packet ifaceIps fates w reply w') :
    w'.db.leases.Sublist w.db.leases ∧ w'.db.leaseSeq = w.db.leaseSeq ∧ w.clock ≤ w'.clock := by
  cases hout with
  | offered ht _ => exact ⟨List.Sublist.refl _, rfl, ht⟩
  | ignored ht => exact ⟨List.Sublist.refl _, rfl, ht⟩
  | released ht id => exact ⟨List.filter_sublist, rfl, ht⟩
  | requested htype hreq =>
    cases hreq with
    | refused ht => exact ⟨List.Sublist.refl _, rfl, ht⟩
    | confirmed ht hstatic _ _ => exact ⟨List.Sublist.refl _, rfl, ht⟩
    | lost ht id => exact ⟨List.filter_sublist, rfl, ht⟩
    | granted hreach hplan => exact absurd (hreach.grants hw hplan) (h htype _ _ _ _)
    | renewed hreach hplan => exact absurd (hreach.grants hw hplan) (h htype _ _ _ _)

/-- A table from which rows are only removed stays frugal. -/
theorem Frugal.mono {w' : World SqliteDb} (hw : Frugal w)
    (hrows : w'.db.leases.Sublist w.db.leases) (hseq : w'.db.leaseSeq = w.db.leaseSeq)
    (hclock : w.clock ≤ w'.clock) : Frugal w' where
  tidy := by
    rw [hseq]
    exact hw.tidy.mono hrows
  single := hw.single.mono hrows.subset hclock
  one := hw.one.mono hrows.subset hclock

end Packet

/-! ### Runs without failures -/

/-- What happens when no call fails and only packets arrive: a packet is handled, with the
seconds that pass before each of the calls made for it, or time passes. -/
inductive Arrival
  | packet (d : Datagram) (waits : ℕ → ℕ)
  | tick (seconds : ℕ)

/-- The fates of calls that do not fail. -/
def punctual (waits : ℕ → ℕ) : ℕ → Fate := fun n => ⟨waits n, false⟩

namespace Arrival

/-- An arrival as an operation. -/
def toOp : Arrival → Op
  | packet d waits => .packet d (punctual waits)
  | tick seconds => .tick seconds

/-- The world after an arrival. -/
def step (ord : ScanOrder) (config : DhcpConfig) (w : World SqliteDb) (a : Arrival) :
    World SqliteDb :=
  a.toOp.step ord config w

/-- The arrival is a REQUEST for a second lease on a subnet. -/
def AsksForSecond (ord : ScanOrder) (config : DhcpConfig) (w : World SqliteDb) : Arrival → Prop
  | packet d waits => d.packet.getMessageType = some .request ∧
      SecondLease ord config w d.packet d.ifaceIps (punctual waits)
  | tick _ => False

end Arrival

section Run

variable {ord : ScanOrder} {config : DhcpConfig} {w : World SqliteDb}

/-- **One arrival.** From a frugal table, a client ends up with more than one lease on a
subnet exactly if the arrival asks for a second one; the rest of the condition stays. -/
theorem Arrival.step_frugal (hw : Frugal w) (a : Arrival) :
    Tidy (a.step ord config w).db.leases (a.step ord config w).db.leaseSeq ∧
      Single (a.step ord config w).db.leases (a.step ord config w).clock ∧
      (OnePerSubnet (a.step ord config w).db.leases (a.step ord config w).clock ↔
        ¬ a.AsksForSecond ord config w) := by
  cases a with
  | tick seconds =>
    have hstep : Frugal ((Arrival.tick seconds).step ord config w) :=
      hw.mono (List.Sublist.refl _) rfl (by simp [Arrival.step, Arrival.toOp, Op.step])
    exact ⟨hstep.tidy, hstep.single, iff_of_true hstep.one not_false⟩
  | packet d waits =>
    by_cases h : d.packet.getMessageType = some .request ∧ ∃ ip range subnet i,
        Grants ord w d.packet d.ifaceIps (punctual waits) ip range subnet i
    · -- the only packet that creates a lease is a REQUEST that is granted
      obtain ⟨htype, ip, range, subnet, i, hgrants⟩ := h
      have hstep : (Arrival.packet d waits).step ord config w =
          ((handleRequest d.packet d.ifaceIps config).run (serve (SqliteDb.exec ord))
            (punctual waits) w).state := by
        simp only [Arrival.step, Arrival.toOp, Op.step, handlePacket, htype]
      obtain ⟨htidy, hsingle⟩ := @Grants.tidy_single ord config w d.packet d.ifaceIps
        (punctual waits) ip range subnet i hgrants hw fun _ => rfl
      rw [hstep, Arrival.AsksForSecond]
      simp only [htype, true_and]
      exact ⟨htidy, hsingle, hgrants.onePerSubnet_iff hw fun _ => rfl⟩
    · have hnot : d.packet.getMessageType = some .request → ∀ ip range subnet i,
          ¬ Grants ord w d.packet d.ifaceIps (punctual waits) ip range subnet i :=
        fun htype ip range subnet i hg => h ⟨htype, ip, range, subnet, i, hg⟩
      obtain ⟨hrows, hseq, hclock⟩ := PacketOutcome.leases hw hnot
        (@handlePacket_outcome ord config d.packet d.ifaceIps (punctual waits) w)
      have hstep : Frugal ((Arrival.packet d waits).step ord config w) := hw.mono hrows hseq hclock
      refine ⟨hstep.tidy, hstep.single, iff_of_true hstep.one ?_⟩
      rintro ⟨htype, ip, range, subnet, i, l, hg, -⟩
      exact hnot htype ip range subnet i hg

theorem frugal_of_empty (hempty : w.db.leases = []) : Frugal w := by
  refine ⟨⟨?_, ?_, ?_⟩, ?_, ?_⟩ <;> simp [hempty, Single, OnePerSubnet]

end Run

/-- **One lease per client and subnet.** Start on any database without leases, and let packets
arrive and time pass, with no call failing. Every client has at most one active lease on each
subnet in every state reached if and only if no REQUEST on the way asked for a second one. -/
theorem one_lease_per_subnet_iff (ord : ScanOrder) (config : DhcpConfig) (w : World SqliteDb)
    (hempty : w.db.leases = []) (arrivals : List Arrival) :
    (∀ pre, pre <+: arrivals → ∀ mac subnetId,
      (leasesOf (Run.after (fun w a => a.step ord config w) w pre) mac subnetId).length ≤ 1) ↔
    Run.Along (fun w a => a.step ord config w) (fun w a => ¬ a.AsksForSecond ord config w) w
      arrivals := by
  refine Run.forall_prefix_iff (I := Frugal)
    (P := fun w => ∀ mac subnetId, (leasesOf w mac subnetId).length ≤ 1) ?_ ?_ ?_
    (frugal_of_empty hempty)
  · intro w hw
    exact (onePerSubnet_iff hw.tidy).mp hw.one
  · intro w a hw
    obtain ⟨htidy, -, hiff⟩ := @Arrival.step_frugal ord config w hw a
    exact (onePerSubnet_iff htidy).symm.trans hiff
  · intro w a hw hnot
    obtain ⟨htidy, hsingle, hiff⟩ := @Arrival.step_frugal ord config w hw a
    exact ⟨htidy, hsingle, hiff.mpr hnot⟩

namespace Sample

/-- A packet that arrives on the interface of the sample network and is handled at once. -/
def arrives (packet : DhcpPacket) : Arrival := .packet ⟨packet, iface⟩ fun _ => 0

/-- Alice discovers the server, gets a lease and keeps it for a while. -/
def modest : List Arrival :=
  [arrives (discover alice), arrives (request alice (.new 10 0 0 10)), .tick 30]

/-- Alice gets a lease and then asks for another address. -/
def greedy : List Arrival :=
  [arrives (request alice (.new 10 0 0 10)), arrives (request alice (.new 10 0 0 11))]

end Sample

/-- Alice asks for one address only and never has more than one lease. -/
theorem one_lease_per_subnet_iff_modest :
    Sample.world.db.leases = [] ∧ ∀ pre, pre <+: Sample.modest → ∀ mac subnetId,
      (leasesOf (Run.after (fun w a => a.step .rowid Sample.config w) Sample.world pre)
        mac subnetId).length ≤ 1 := by
  refine ⟨rfl, (one_lease_per_subnet_iff .rowid Sample.config Sample.world rfl
    Sample.modest).mpr ⟨?_, ?_, not_false, trivial⟩⟩
  · rintro ⟨htype, -⟩
    exact absurd htype (by decide)
  · rintro ⟨-, ip, range, subnet, i, l, -, hl, -⟩
    have hnone : ((Sample.arrives (Sample.discover Sample.alice)).step .rowid Sample.config
        Sample.world).db.leases = [] := by decide +kernel
    rw [hnone] at hl
    cases hl

/-- Alice asks for a second address and ends up with two active leases on the subnet. -/
theorem second_lease_granted :
    ¬ ∀ pre, pre <+: Sample.greedy → ∀ mac subnetId,
      (leasesOf (Run.after (fun w a => a.step .rowid Sample.config w) Sample.world pre)
        mac subnetId).length ≤ 1 := by
  intro h
  have hcount := h Sample.greedy (List.prefix_refl _) Sample.alice.toString 1
  exact absurd hcount (by decide +kernel)

end Ndhcpd
