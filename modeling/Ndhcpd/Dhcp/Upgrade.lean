import Ndhcpd.Db.Migrations
import Ndhcpd.Dhcp.Exclusivity

/-!
# Leases across an upgrade

Before `20240106000000_leases_drop_active.sql`, expiring a lease cleared its flag `active`; since
then it deletes the row, and a lease counts as long as it has not ended. The migration drops the
flag and keeps all rows, so a lease that was released early counts again until its end, while its
address may have been given to somebody else.

`upgrade_exclusive_iff` says exactly when this does harm: the leases of the daemon stay exclusive in
every run after the upgrade if and only if no lease that was released and has not ended is on an
address on which another client has a lease that has not ended.
-/

namespace Ndhcpd

/-- The leases of a database with their flags. Where there is no flag, every lease counts. -/
def SqliteLayout.flaggedLeases : (v : ℕ) → SqliteLayout v → List ActiveLeaseRow
  | 0, _ => []
  | 1, db => db.leases
  | 2, db => db.leases
  | 3, db => db.leases
  | 4, db => db.leases
  | 5, db => db.leases
  | 6, db => db.leases.map (⟨·, 1⟩)
  | _ + 7, db => db.leases.map (⟨·, 1⟩)

namespace StoredDb

variable (stored : StoredDb)

/-- The leases that are in force until they end. -/
def inForce : List LeaseRow :=
  ((SqliteLayout.flaggedLeases stored.1 stored.2).filter (·.active != 0)).map (·.toLeaseRow)

/-- The leases that have been released. -/
def released : List LeaseRow :=
  ((SqliteLayout.flaggedLeases stored.1 stored.2).filter (·.active == 0)).map (·.toLeaseRow)

theorem contents_leases :
    stored.contents.leases =
      (SqliteLayout.flaggedLeases stored.1 stored.2).map (·.toLeaseRow) := by
  obtain ⟨v, db⟩ := stored
  have hmap : ∀ rows : List LeaseRow,
      (rows.map fun l => (⟨l, 1⟩ : ActiveLeaseRow)).map (·.toLeaseRow) = rows := fun rows => by
    rw [List.map_map]
    exact List.map_id rows
  rcases v with _ | _ | _ | _ | _ | _ | _ | v
  case succ.succ.succ.succ.succ.succ.zero => exact (List.map_id _).trans (hmap _).symm
  case succ.succ.succ.succ.succ.succ.succ => exact (hmap _).symm
  all_goals rfl

/-- Both kinds are kept. -/
theorem mem_contents_leases {l : LeaseRow} :
    l ∈ stored.contents.leases ↔ l ∈ stored.inForce ∨ l ∈ stored.released := by
  simp only [contents_leases, inForce, released, List.mem_map, List.mem_filter]
  constructor
  · rintro ⟨row, hrow, rfl⟩
    by_cases hactive : row.active = 0
    · exact .inr ⟨row, ⟨hrow, by simpa using hactive⟩, rfl⟩
    · exact .inl ⟨row, ⟨hrow, by simpa using hactive⟩, rfl⟩
  · rintro (⟨row, ⟨hrow, -⟩, rfl⟩ | ⟨row, ⟨hrow, -⟩, rfl⟩)
    · exact ⟨row, hrow, rfl⟩
    · exact ⟨row, hrow, rfl⟩

end StoredDb

/-- If the leases in force are exclusive, then all leases are, flags ignored, exactly if each
released lease is on an address that its client has to itself. -/
theorem exclusive_contents_iff {stored : StoredDb} {now : ℤ}
    (hforce : Exclusive stored.inForce now) :
    Exclusive stored.contents.leases now ↔ ∀ l ∈ stored.released, now < l.leaseEnd →
      HeldBy stored.contents.leases now l.ipAddress l.macAddress := by
  constructor
  · exact fun h l hl hact => h.heldBy (stored.mem_contents_leases.mpr (.inr hl)) hact
  · intro h l hl l' hl' hact hact' hip
    rcases stored.mem_contents_leases.mp hl with hin | hout
    · rcases stored.mem_contents_leases.mp hl' with hin' | hout'
      · exact hforce l hin l' hin' hact hact' hip
      · exact h l' hout' hact' l hl hip hact
    · exact (h l hout hact l' hl' hip.symm hact').symm

/-- **Leases across an upgrade.** Open a database file of any version that meets the constraints of
the schema, with leases that were written for hardware addresses, and let the leases in force be
exclusive, as the daemon keeps them. Then in every state of every run of the daemon on the database,
whatever packets arrive, whatever the other tasks do within the API and whichever calls fail, two
active leases on an address belong to the same client, exactly if no released lease that has not
ended is on an address on which another client has a lease that has not ended. -/
theorem upgrade_exclusive_iff (order : CopyOrder) (migrator : StoredDb → Except DbError StoredDb)
    (hmigrator : (sqliteVersions order).Opens 7 migrator) (ord : ScanOrder) (config : DhcpConfig)
    (stored : StoredDb) (clock : ℤ) (hsound : stored.contents.Sound)
    (hnamed : ∀ l ∈ stored.contents.leases, ∃ m : MacAddress, l.macAddress = m.toString)
    (hforce : Exclusive stored.inForce clock) (hversion : stored.1 ≤ 7) :
    ∃ db, SqliteDb.new migrator stored = .ok db ∧
      ((∀ acts : List DaemonAction, (∀ a ∈ acts, a.movesWithin Move.fromApi = true) →
          let s := ((daemon (SqliteDb.exec ord) config).after (idle ⟨db, clock⟩) acts).world
          Exclusive s.db.leases s.clock) ↔
        ∀ l ∈ stored.released, clock < l.leaseEnd →
          ∀ l' ∈ stored.contents.leases, clock < l'.leaseEnd → l'.ipAddress = l.ipAddress →
            l'.macAddress = l.macAddress) := by
  obtain ⟨db, hdb, hrows⟩ := new_eq_ok hmigrator hversion hsound
  have hleases := hrows.leases
  have hiff := exclusive_contents_iff hforce
  refine ⟨db, hdb, ?_⟩
  constructor
  · intro h l hl hact l' hl' hact' hip
    -- the run of no steps
    have hexclusive : Exclusive stored.contents.leases clock := hleases ▸ h [] (by simp)
    exact hiff.mp hexclusive l hl hact l' hl' hip hact'
  · intro h acts hacts
    have hexclusive : Exclusive db.leases clock := by
      rw [hleases]
      exact hiff.mpr fun l hl hact l' hl' hip hact' => h l hl hact l' hl' hact' hip
    have hstart : Orderly ⟨fun _ => True, False⟩ (idle ⟨db, clock⟩).world := by
      refine ⟨⟨?_, ?_, ?_⟩, hexclusive, fun hexp => absurd trivial (hexp 0)⟩
      · exact hleases ▸ hsound.leaseKeys.nodup
      · exact hleases ▸ hrows.leaseSeq ▸ hsound.leaseKeys.fresh
      · exact hleases ▸ hnamed
    exact (hstart.after_of_fromApi hacts).exclusive

/-- Alice has released her address, and Bob has got it. An upgrade before the end of the released
lease makes both leases active; one after it does no harm. -/
theorem upgrade_exclusive_iff_released :
    (∃ db, SqliteDb.new Sample.migrator Sample.stored = .ok db ∧
      ¬ ∀ acts : List DaemonAction, (∀ a ∈ acts, a.movesWithin Move.fromApi = true) →
        let s := ((daemon (SqliteDb.exec .rowid) Sample.config).after (idle ⟨db, 40⟩) acts).world
        Exclusive s.db.leases s.clock) ∧
    ∃ db, SqliteDb.new Sample.migrator Sample.stored = .ok db ∧
      ∀ acts : List DaemonAction, (∀ a ∈ acts, a.movesWithin Move.fromApi = true) →
        let s := ((daemon (SqliteDb.exec .rowid) Sample.config).after (idle ⟨db, 60⟩) acts).world
        Exclusive s.db.leases s.clock := by
  have hleases : Sample.stored.contents.leases = [Sample.lease, Sample.bobsLease] := rfl
  have hforce : Sample.stored.inForce = [Sample.bobsLease] := rfl
  have hreleased : Sample.stored.released = [Sample.lease] := rfl
  have hnamed : ∀ l ∈ Sample.stored.contents.leases,
      ∃ m : MacAddress, l.macAddress = m.toString := by
    rw [hleases]
    simp only [List.forall_mem_cons, List.not_mem_nil, false_imp_iff, implies_true, and_true]
    exact ⟨⟨Sample.alice, rfl⟩, ⟨Sample.bob, rfl⟩⟩
  have hexclusive : ∀ now, Exclusive Sample.stored.inForce now := by
    intro now
    simp [hforce, Exclusive]
  refine ⟨?_, ?_⟩
  · obtain ⟨db, hdb, hiff⟩ := upgrade_exclusive_iff _ Sample.migrator
      (Versions.opens_upgrade _ 7) .rowid Sample.config Sample.stored 40 Sample.sound_stored hnamed
      (hexclusive 40) (by decide)
    refine ⟨db, hdb, fun h => ?_⟩
    have hsame := hiff.mp h Sample.lease (by rw [hreleased]; simp) (by decide) Sample.bobsLease
      (by rw [hleases]; simp) (by decide) rfl
    exact absurd hsame (by decide +kernel)
  · obtain ⟨db, hdb, hiff⟩ := upgrade_exclusive_iff _ Sample.migrator
      (Versions.opens_upgrade _ 7) .rowid Sample.config Sample.stored 60 Sample.sound_stored hnamed
      (hexclusive 60) (by decide)
    refine ⟨db, hdb, hiff.mpr fun l hl hact => ?_⟩
    rw [hreleased, List.mem_singleton] at hl
    subst hl
    exact absurd hact (by decide)

end Ndhcpd
