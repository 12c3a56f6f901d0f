import Ndhcpd.Db.Agreement
import Ndhcpd.Dhcp.OneLease
import Ndhcpd.Dhcp.RequestSpec

/-!
# The leases of a client

A client may have several active leases: on the subnets of different links, and on different
addresses of one subnet. `get_active_lease` returns only one of them, the one that ends last, and
two handlers go by it. `handle_release` deletes that lease and no other, so it ends the tenancy of
the client exactly if there is no further one (`release_ends_tenancy_iff`). `handle_discover` offers
its address if it is on a subnet that the interface reaches; a lease on a reachable subnet that ends
earlier is overlooked, and the client is offered a new address (`keeps_address_iff`).
-/

namespace Ndhcpd

/-! ### The lease that is found -/

section Found

variable {ord : ScanOrder} {db : SqliteDb} {mac : String} {now now' : ℤ}

theorem mem_activeLeases {l : LeaseRow} :
    l ∈ db.activeLeases mac now ↔
      l ∈ db.leases ∧ l.macAddress.toLower = mac.toLower ∧ now < l.leaseEnd := by
  simp [SqliteDb.activeLeases]

/-- Leases run out. -/
theorem activeLeases_mono (hnow : now ≤ now') {l : LeaseRow}
    (hl : l ∈ db.activeLeases mac now') : l ∈ db.activeLeases mac now := by
  obtain ⟨hmem, hmac, hact⟩ := mem_activeLeases.mp hl
  exact mem_activeLeases.mpr ⟨hmem, hmac, by omega⟩

theorem activeLeases_eq_nil_mono (hnow : now ≤ now') (h : db.activeLeases mac now = []) :
    db.activeLeases mac now' = [] := by
  refine List.eq_nil_iff_forall_not_mem.mpr fun l hl => ?_
  have hl' := activeLeases_mono hnow hl
  rw [h] at hl'
  exact List.not_mem_nil hl'

theorem getActiveLease_eq_none_iff :
    db.getActiveLease ord mac now = none ↔ db.activeLeases mac now = [] := by
  have hnil : ord.activeLease.arrange (db.activeLeases mac now) = [] ↔
      db.activeLeases mac now = [] := by
    rw [← List.length_eq_zero_iff, ← List.length_eq_zero_iff, (ord.activeLease.perm _).length_eq]
  have hnone : (ord.activeLease.arrange (db.activeLeases mac now)).maxOn? (·.leaseEnd) = none ↔
      ord.activeLease.arrange (db.activeLeases mac now) = [] := by
    rw [← Option.not_isSome_iff_eq_none, List.isSome_maxOn?_iff, not_not]
  rw [← hnil, ← hnone]
  exact Option.map_eq_none_iff

/-- The lease that is found ends last. -/
theorem exists_of_getActiveLease {lease : Lease} (h : db.getActiveLease ord mac now = some lease) :
    ∃ r ∈ db.activeLeases mac now, r.toLease = lease ∧
      ∀ l ∈ db.activeLeases mac now, l.leaseEnd ≤ r.leaseEnd := by
  obtain ⟨r, hr, rfl⟩ := Option.map_eq_some_iff.mp h
  have hmem := List.maxOn?_mem hr
  refine ⟨r, ord.activeLease.mem_arrange.mp hmem, rfl, fun l hl => ?_⟩
  have hl' : l ∈ ord.activeLease.arrange (db.activeLeases mac now) :=
    ord.activeLease.mem_arrange.mpr hl
  have hle := List.le_apply_get_maxOn?_of_mem hl' (f := (·.leaseEnd))
  have hget : ((ord.activeLease.arrange (db.activeLeases mac now)).maxOn? (·.leaseEnd)).get
      (List.isSome_maxOn?_of_mem hl') = r := Option.get_of_eq_some _ hr
  rwa [hget] at hle

private theorem eq_of_length_le_one {α : Type} {l : List α} {a b : α} (h : l.length ≤ 1)
    (ha : a ∈ l) (hb : b ∈ l) : a = b := by
  obtain ⟨c, rfl⟩ := List.length_eq_one_iff.mp (le_antisymm h (List.length_pos_of_mem ha))
  rw [List.mem_singleton.mp ha, List.mem_singleton.mp hb]

/-- Deleting the lease that ends last leaves none exactly if there was no other. -/
theorem activeLeases_expireLease_eq_nil_iff (htidy : Tidy db.leases db.leaseSeq)
    (hnow : now ≤ now') {r : LeaseRow} (hr : r ∈ db.activeLeases mac now)
    (hlast : ∀ l ∈ db.activeLeases mac now, l.leaseEnd ≤ r.leaseEnd) :
    (db.expireLease r.id).activeLeases mac now' = [] ↔ (db.activeLeases mac now').length ≤ 1 := by
  obtain ⟨hmem, hmac, -⟩ := mem_activeLeases.mp hr
  constructor
  · -- a lease that is still active is the one that was deleted
    intro hnil
    have hdeleted : ∀ l ∈ db.leases, (l.macAddress.toLower == mac.toLower &&
        decide (now' < l.leaseEnd)) = true → l.id = r.id := by
      intro l hl hsel
      by_contra hne
      simp only [Bool.and_eq_true, beq_iff_eq, decide_eq_true_eq] at hsel
      have hleft : l ∈ (db.expireLease r.id).activeLeases mac now' :=
        mem_activeLeases.mpr ⟨List.mem_filter.mpr ⟨hl, by simpa using hne⟩, hsel⟩
      rw [hnil] at hleft
      exact List.not_mem_nil hleft
    exact htidy.length_filter_le_one fun l hl l' hl' hsel hsel' =>
      (hdeleted l hl hsel).trans (hdeleted l' hl' hsel').symm
  · intro hone
    refine List.eq_nil_iff_forall_not_mem.mpr fun l hl => ?_
    obtain ⟨hleft, hmac', hact'⟩ := mem_activeLeases.mp hl
    obtain ⟨hl', hne⟩ := List.mem_filter.mp hleft
    -- the deleted lease ended no earlier, so the two would both be active
    have hboth : l ∈ db.activeLeases mac now' := mem_activeLeases.mpr ⟨hl', hmac', hact'⟩
    have hends := hlast l (activeLeases_mono hnow hboth)
    have hboth' : r ∈ db.activeLeases mac now' := mem_activeLeases.mpr ⟨hmem, hmac, by omega⟩
    have hsame := eq_of_length_le_one hone hboth hboth'
    rw [hsame] at hne
    simp at hne

end Found

/-! ### RELEASE -/

section Release

variable {ord : ScanOrder} {w : World SqliteDb} {packet : DhcpPacket} {waits : ℕ → ℕ}

/-- The world after a RELEASE, where no call fails. -/
def released (ord : ScanOrder) (packet : DhcpPacket) (waits : ℕ → ℕ) (w : World SqliteDb) :
    World SqliteDb :=
  ((handleRelease packet).run (serve (SqliteDb.exec ord)) (punctual waits) w).state

/-- Nothing is found, and nothing is done. -/
theorem released_of_none
    (h : w.db.getActiveLease ord packet.chaddr.toString (w.clock + waits 0) = none) :
    released ord packet waits w = ⟨w.db, w.clock + waits 0⟩ := by
  have hfind : serve (SqliteDb.exec ord) (punctual waits 0)
      (.db (.getActiveLease packet.chaddr.toString)) w =
      (.ok none, ⟨w.db, w.clock + waits 0⟩) := by
    simp [serve, punctual, SqliteDb.exec, h]
  rw [released, handleRelease, dbCall_bind, Program.run_request, hfind]
  rfl

/-- The lease that is found is deleted. -/
theorem released_of_some {r : LeaseRow}
    (h : w.db.getActiveLease ord packet.chaddr.toString (w.clock + waits 0) = some r.toLease) :
    released ord packet waits w = ⟨w.db.expireLease r.id, w.clock + waits 0 + waits 1⟩ := by
  have hfind : serve (SqliteDb.exec ord) (punctual waits 0)
      (.db (.getActiveLease packet.chaddr.toString)) w =
      (.ok (some r.toLease), ⟨w.db, w.clock + waits 0⟩) := by
    simp [serve, punctual, SqliteDb.exec, h]
  rw [released, handleRelease, dbCall_bind, Program.run_request, hfind]
  rfl

/-- The RELEASE ends the tenancy of the client and nothing else: no lease of the client is active
any more, the leases of others and the other tables are as before, and a second RELEASE of the
client changes nothing. -/
structure EndsTenancy (ord : ScanOrder) (packet : DhcpPacket) (w w' : World SqliteDb) : Prop where
  ended : w'.db.getActiveLease ord packet.chaddr.toString w'.clock = none
  others : (w'.db.leases.filter fun l => l.macAddress.toLower != packet.chaddr.toString) =
    w.db.leases.filter fun l => l.macAddress.toLower != packet.chaddr.toString
  tables : { w'.db with leases := w.db.leases } = w.db
  again : ∀ waits, (released ord packet waits w').db = w'.db

/-- Without active leases a RELEASE changes nothing. -/
theorem released_db_of_nil (h : w.db.activeLeases packet.chaddr.toString w.clock = []) :
    (released ord packet waits w).db = w.db := by
  have hnil : w.db.activeLeases packet.chaddr.toString (w.clock + waits 0) = [] :=
    activeLeases_eq_nil_mono (by omega) h
  rw [released_of_none (getActiveLease_eq_none_iff.mpr hnil)]

/-- **One RELEASE.** -/
theorem endsTenancy_iff (htidy : Tidy w.db.leases w.db.leaseSeq) :
    EndsTenancy ord packet w (released ord packet waits w) ↔
      (w.db.activeLeases packet.chaddr.toString (w.clock + waits 0 + waits 1)).length ≤ 1 := by
  have hlater : w.clock + waits 0 ≤ w.clock + waits 0 + waits 1 := by omega
  cases hfound : w.db.getActiveLease ord packet.chaddr.toString (w.clock + waits 0) with
  | none =>
    have hnil := getActiveLease_eq_none_iff.mp hfound
    have hnil' : w.db.activeLeases packet.chaddr.toString (w.clock + waits 0 + waits 1) = [] :=
      activeLeases_eq_nil_mono hlater hnil
    rw [released_of_none hfound, hnil']
    refine iff_of_true ⟨hfound, rfl, rfl, fun waits' => ?_⟩ (by simp)
    exact released_db_of_nil hnil
  | some lease =>
    obtain ⟨r, hr, rfl, hlast⟩ := exists_of_getActiveLease hfound
    obtain ⟨hmem, hmac, -⟩ := mem_activeLeases.mp hr
    have hnil_iff := activeLeases_expireLease_eq_nil_iff htidy hlater hr hlast
    rw [released_of_some hfound]
    constructor
    · intro h
      exact hnil_iff.mp (getActiveLease_eq_none_iff.mp h.ended)
    · intro hone
      have hnil := hnil_iff.mpr hone
      refine ⟨getActiveLease_eq_none_iff.mpr hnil, ?_, rfl, fun waits' => released_db_of_nil hnil⟩
      rw [SqliteDb.expireLease, List.filter_filter]
      refine List.filter_congr fun l hl => ?_
      by_cases hid : l.id = r.id
      · obtain rfl := htidy.eq_of_id hl hmem hid
        rw [MacAddress.toLower_toString] at hmac
        simp [hmac]
      · simp [hid]

end Release

/-- **When RELEASE ends the tenancy.** In every state that the daemon reaches from a database without
leases, for every RELEASE that is handled without a failure: it ends the tenancy of its sender and
nothing else if and only if at most one lease of the sender is active up to the end. -/
theorem release_ends_tenancy_iff (ord : ScanOrder) (config : DhcpConfig) (w₀ : World SqliteDb)
    (hempty : w₀.db.leases = []) (acts : List DaemonAction)
    (hacts : ∀ a ∈ acts, a.movesWithin Move.fromApi = true) (packet : DhcpPacket)
    (waits : ℕ → ℕ) :
    let w := ((daemon (SqliteDb.exec ord) config).after (idle w₀) acts).world.toWorld
    EndsTenancy ord packet w (released ord packet waits w) ↔
      (w.db.activeLeases packet.chaddr.toString (w.clock + waits 0 + waits 1)).length ≤ 1 := by
  intro w
  have horderly := @orderly_of_fromApi ord config w₀ hempty acts hacts
  exact endsTenancy_iff horderly.tidy

namespace Sample

/-- A RELEASE. -/
def release (mac : MacAddress) : DhcpPacket := message .release mac []

/-- What the daemon does on a REQUEST for an address that nobody holds. -/
def granting (mac : MacAddress) (ip : Ipv4Addr) (iface : List Ipv4Addr) : List DaemonAction :=
  .receive ⟨request mac ip, iface⟩ :: List.replicate 7 (.call false)

/-- Alice gets a lease. -/
def oneLease : World SqliteDb :=
  ((daemon (SqliteDb.exec .rowid) config).after (idle world)
    (granting alice (.new 10 0 0 10) iface)).world.toWorld

/-- Alice gets a lease, and then another one on the same subnet. -/
def bothLeases : World SqliteDb :=
  ((daemon (SqliteDb.exec .rowid) config).after (idle world)
    (granting alice (.new 10 0 0 10) iface ++ granting alice (.new 10 0 0 11) iface)).world.toWorld

end Sample

/-- Alice releases her lease. -/
theorem release_ends_tenancy_iff_one :
    (Sample.oneLease.db.activeLeases Sample.alice.toString 0).length = 1 ∧
      EndsTenancy .rowid (Sample.release Sample.alice) Sample.oneLease
        (released .rowid (Sample.release Sample.alice) (fun _ => 0) Sample.oneLease) := by
  have hworld : Sample.oneLease = ⟨Sample.leased, 0⟩ :=
    congrArg₂ World.mk (by decide +kernel) (by decide +kernel)
  have hcount : (Sample.oneLease.db.activeLeases Sample.alice.toString 0).length = 1 := by
    rw [hworld]
    decide +kernel
  refine ⟨hcount, (release_ends_tenancy_iff .rowid Sample.config Sample.world rfl
    (Sample.granting Sample.alice (.new 10 0 0 10) Sample.iface) (by decide) _ _).mpr ?_⟩
  change (Sample.oneLease.db.activeLeases Sample.alice.toString
    (Sample.oneLease.clock + 0 + 0)).length ≤ 1
  rw [hworld] at hcount ⊢
  exact hcount.le

/-- Alice has two leases and releases one of them. -/
theorem release_keeps_other_lease :
    ¬ EndsTenancy .rowid (Sample.release Sample.alice) Sample.bothLeases
        (released .rowid (Sample.release Sample.alice) (fun _ => 0) Sample.bothLeases) := by
  let second : LeaseRow := ⟨2, 1, Sample.alice.toString, .new 10 0 0 11, 0, 60, none⟩
  let both : SqliteDb := { Sample.db with leases := [Sample.lease, second], leaseSeq := 2 }
  have hworld : Sample.bothLeases = ⟨both, 0⟩ :=
    congrArg₂ World.mk (by decide +kernel) (by decide +kernel)
  -- the leases end together, and the scan of the index meets the newer one first
  have hfound : both.getActiveLease .rowid Sample.alice.toString 0 = some second.toLease := by
    decide +kernel
  have hreleased := @released_of_some .rowid ⟨both, 0⟩ (Sample.release Sample.alice) (fun _ => 0)
    second
  simp only [Nat.cast_zero, add_zero] at hreleased
  have hleft : ((both.expireLease 2).getActiveLease .rowid Sample.alice.toString 0).isSome =
      true := by
    decide +kernel
  rw [hworld, hreleased hfound]
  intro h
  have hended : (both.expireLease 2).getActiveLease .rowid Sample.alice.toString 0 = none := h.ended
  rw [hended] at hleft
  cases hleft

/-! ### DISCOVER -/

section Discover

variable (ord : ScanOrder) (config : DhcpConfig) (w : World SqliteDb) (packet : DhcpPacket)
  (ifaceIps : List Ipv4Addr)

/-- The subnet exists, and the interface reaches it. -/
def OnLink (db : SqliteDb) (ifaceIps : List Ipv4Addr) (subnetId : ℤ) : Prop :=
  ∃ subnet, db.getSubnet subnetId = some subnet ∧ ifaceInSubnet ifaceIps subnet = true

/-- If the client has an active lease on a subnet that the interface reaches, it is offered the
address of such a lease. -/
def KeepsAddress : Prop :=
  (∃ l ∈ w.db.activeLeases packet.chaddr.toString w.clock, OnLink w.db ifaceIps l.subnetId) →
  ∃ offer, ((handleDiscover packet ifaceIps config).run (serve (SqliteDb.exec ord)) calmly
      w).value = some offer ∧
    offer.getMessageType = some .offer ∧
    ∃ l ∈ w.db.activeLeases packet.chaddr.toString w.clock, OnLink w.db ifaceIps l.subnetId ∧
      offer.yiaddr = l.ipAddress

/-- If the client has an active lease on a subnet that the interface reaches, the lease that
`get_active_lease` returns is on one. -/
def FindsOnLink : Prop :=
  (∃ l ∈ w.db.activeLeases packet.chaddr.toString w.clock, OnLink w.db ifaceIps l.subnetId) →
  ∃ lease, w.db.getActiveLease ord packet.chaddr.toString w.clock = some lease ∧
    OnLink w.db ifaceIps lease.subnetId

variable {ord config w packet ifaceIps}

/-- **One DISCOVER** of a client without a static assignment. -/
theorem keepsAddress_iff
    (hstatic : ∀ s ∈ w.db.staticIps, s.macAddress.toLower ≠ packet.chaddr.toString) :
    KeepsAddress ord config w packet ifaceIps ↔ FindsOnLink ord w packet ifaceIps := by
  have hnone : w.db.getStaticIpByMac ord packet.chaddr.toString = none :=
    getStaticIpByMac_eq_none_iff.mpr hstatic
  have hvalue : ((handleDiscover packet ifaceIps config).run (serve (SqliteDb.exec ord)) calmly
      w).value = (dynamicChoice ord w.db w.clock ifaceIps packet.chaddr.toString).map
        fun choice => createOffer packet choice.1 choice.2 config := by
    rw [handleDiscover_calmly, discoverChoice, hnone]
  rw [KeepsAddress, FindsOnLink, hvalue]
  refine imp_congr_right fun _ => ⟨?_, ?_⟩
  · rintro ⟨offer, hoffer, -, l, hl, -, hip⟩
    obtain ⟨⟨ip, subnet⟩, hchoice, rfl⟩ := Option.map_eq_some_iff.mp hoffer
    obtain ⟨hmem, -, hact⟩ := mem_activeLeases.mp hl
    -- a new address is nobody's, and so not the client's
    have hpool : poolChoice ord w.db w.clock ifaceIps ≠ some (ip, subnet) := by
      intro hnew
      have hend := vacant_of_poolChoice hnew l hmem hip.symm
      omega
    unfold dynamicChoice at hchoice
    split at hchoice
    · next lease hlease =>
      split at hchoice
      · next s hs =>
        split at hchoice
        · next hiface => exact ⟨lease, hlease, s, hs, hiface⟩
        · exact absurd hchoice hpool
      · cases hchoice
    · exact absurd hchoice hpool
  · rintro ⟨lease, hlease, subnet, hsubnet, hiface⟩
    obtain ⟨r, hr, rfl, -⟩ := exists_of_getActiveLease hlease
    refine ⟨createOffer packet r.ipAddress subnet config, ?_, rfl, r, hr,
      ⟨subnet, hsubnet, hiface⟩, rfl⟩
    rw [dynamicChoice, hlease]
    simp only [hsubnet, hiface, if_true]
    rfl

end Discover

/-- **When a client keeps its address.** In every state that the daemon reaches, for every client
without a static assignment and every interface: a client with an active lease on a subnet that the
interface reaches is offered the address of such a lease if and only if `get_active_lease` returns
one that is on such a subnet. -/
theorem keeps_address_iff (ord : ScanOrder) (config : DhcpConfig) (w₀ : World SqliteDb)
    (acts : List DaemonAction) (packet : DhcpPacket) (ifaceIps : List Ipv4Addr) :
    let w := ((daemon (SqliteDb.exec ord) config).after (idle w₀) acts).world.toWorld
    (∀ s ∈ w.db.staticIps, s.macAddress.toLower ≠ packet.chaddr.toString) →
      (KeepsAddress ord config w packet ifaceIps ↔ FindsOnLink ord w packet ifaceIps) :=
  fun hstatic => keepsAddress_iff hstatic

namespace Sample

/-- A second subnet, on another link. -/
def otherSubnet : SubnetRow := ⟨2, .new 10 0 1 0, 24, .new 10 0 1 1, [.new 10 0 1 1], none⟩

/-- A range of the other subnet. -/
def otherRange : RangeRow := ⟨2, 2, .new 10 0 1 10, .new 10 0 1 20, true⟩

/-- The interface on the other network. -/
def otherIface : List Ipv4Addr := [.new 10 0 1 1]

/-- The network with both links. -/
def twoLinks : SqliteDb :=
  { db with
    subnets := [subnet, otherSubnet]
    dynamicRanges := [range, otherRange]
    subnetSeq := 2
    rangeSeq := 2 }

/-- Alice gets a lease on one link, and ten seconds later one on the other link. -/
def roaming : List DaemonAction :=
  granting alice (.new 10 0 0 10) iface ++ .move (.tick 10) ::
    granting alice (.new 10 0 1 10) otherIface

/-- Alice's second lease. -/
def otherLease : LeaseRow := ⟨2, 2, alice.toString, .new 10 0 1 10, 10, 70, none⟩

/-- The network with both leases. -/
def roamed : World SqliteDb :=
  ⟨{ twoLinks with leases := [lease, otherLease], leaseSeq := 2 }, 10⟩

theorem after_roaming :
    ((daemon (SqliteDb.exec .rowid) config).after (idle ⟨twoLinks, 0⟩) roaming).world.toWorld =
      roamed :=
  congrArg₂ World.mk (by decide +kernel) (by decide +kernel)

theorem getActiveLease_roamed :
    roamed.db.getActiveLease .rowid alice.toString roamed.clock = some otherLease.toLease := by
  decide +kernel

end Sample

/-- On the second link Alice is offered the address she has there. -/
theorem keeps_address_iff_later_lease :
    let w := ((daemon (SqliteDb.exec .rowid) Sample.config).after (idle ⟨Sample.twoLinks, 0⟩)
      Sample.roaming).world.toWorld
    (∀ s ∈ w.db.staticIps, s.macAddress.toLower ≠ Sample.alice.toString) ∧
      KeepsAddress .rowid Sample.config w (Sample.discover Sample.alice) Sample.otherIface := by
  intro w
  have hworld : w = Sample.roamed := Sample.after_roaming
  have hstatic : ∀ s ∈ w.db.staticIps, s.macAddress.toLower ≠ Sample.alice.toString := by
    rw [hworld]
    intro s hs
    cases hs
  refine ⟨hstatic, (keeps_address_iff .rowid Sample.config ⟨Sample.twoLinks, 0⟩ Sample.roaming
    (Sample.discover Sample.alice) Sample.otherIface hstatic).mpr ?_⟩
  change FindsOnLink .rowid w _ _
  rw [hworld]
  exact fun _ => ⟨_, Sample.getActiveLease_roamed, Sample.otherSubnet.toSubnet, by decide,
    by decide⟩

/-- On the first link she is offered another address than the one she has there. -/
theorem address_not_kept :
    let w := ((daemon (SqliteDb.exec .rowid) Sample.config).after (idle ⟨Sample.twoLinks, 0⟩)
      Sample.roaming).world.toWorld
    (∀ s ∈ w.db.staticIps, s.macAddress.toLower ≠ Sample.alice.toString) ∧
      ¬ KeepsAddress .rowid Sample.config w (Sample.discover Sample.alice) Sample.iface := by
  intro w
  have hworld : w = Sample.roamed := Sample.after_roaming
  rw [hworld]
  refine ⟨fun s hs => absurd hs List.not_mem_nil, fun hkeeps => ?_⟩
  have hown : Sample.lease ∈ Sample.roamed.db.activeLeases Sample.alice.toString
      Sample.roamed.clock := mem_activeLeases.mpr ⟨by decide +kernel, rfl, by decide⟩
  obtain ⟨offer, hoffer, -, l, hl, -, hip⟩ :=
    hkeeps ⟨Sample.lease, hown, Sample.subnet.toSubnet, by decide, by decide⟩
  have hnew : ((handleDiscover (Sample.discover Sample.alice) Sample.iface Sample.config).run
      (serve (SqliteDb.exec .rowid)) calmly Sample.roamed).value.map (·.yiaddr) =
      some (.new 10 0 0 11) := by decide +kernel
  rw [hoffer, Option.map_some, hip, Option.some.injEq] at hnew
  obtain ⟨hmem, -, -⟩ := mem_activeLeases.mp hl
  have hother : ∀ l ∈ Sample.roamed.db.leases, l.ipAddress ≠ .new 10 0 0 11 := by decide
  exact hother l hmem hnew

end Ndhcpd
