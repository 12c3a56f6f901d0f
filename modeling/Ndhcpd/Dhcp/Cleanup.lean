import Ndhcpd.Db.Memory
import Ndhcpd.Dhcp.Request
import Ndhcpd.Dhcp.System

/-!
# Clean-up is unobservable

The clean-up task deletes the leases with `lease_end < now`, and every query for leases asks
for `lease_end > now`. So the task removes nothing that a query could still return, at this
or at any later clock reading, and since ids come from counters, not even the ids of later
leases change. This is a relation between two databases, equal up to leases that are no
longer active, that no call but the clean-up itself can see through (`CleanupBlind`). It is
shown for the SQLite store, whatever the order of its results, and for the in-memory store;
the rest is `Loop.Unobservable`.
-/

namespace Ndhcpd

/-- Is the move a run of the clean-up? -/
def Move.isCleanup : Move → Bool
  | .request .deleteExpiredLeases _ => true
  | _ => false

/-- The relation, which may depend on the clock, cannot be seen through by any call but the
clean-up, and the clean-up stays within it. -/
structure CleanupBlind {σ : Type} (store : Store σ) (R : ℤ → σ → σ → Prop) : Prop where
  refl : ∀ now db, R now db db
  later : ∀ {now now' db db'}, now ≤ now' → R now db db' → R now' db db'
  exec : ∀ {now db db'} c, c ≠ .deleteExpiredLeases → R now db db' →
    (store now db c).1 = (store now db' c).1 ∧ R now (store now db c).2 (store now db' c).2
  clean : ∀ {now db db'}, R now db db' → R now (store now db .deleteExpiredLeases).2 db'

/-! ### The handlers never clean up -/

theorem Reads.never_cleans {α : Type} {p : ServerProgram α} (h : Reads p) :
    p.Only (· ≠ .db .deleteExpiredLeases) :=
  Program.Only.mono (fun c hc heq => by simp [heq, ServerCall.isRead, DbCall.isRead] at hc) h

theorem handlePacket_never_cleans {packet : DhcpPacket} {ifaceIps : List Ipv4Addr}
    {config : DhcpConfig} :
    (handlePacket packet ifaceIps config).Only (· ≠ .db .deleteExpiredLeases) := by
  have hgrant : ∀ ip range subnet, (grantLease packet config ip range subnet).Only
      (· ≠ .db .deleteExpiredLeases) := by
    refine fun ip range subnet => ⟨by simp, fun now => ⟨by simp, fun reply => ?_⟩⟩
    cases reply <;> trivial
  unfold handlePacket
  split
  · exact handleDiscover_reads.never_cleans
  · rw [handleRequest_eq]
    refine planRequest_reads.never_cleans.bind fun plan => ?_
    cases plan with
    | refuse => trivial
    | confirm ip subnet => trivial
    | grant ip range subnet old =>
      cases old with
      | none => exact hgrant ip range subnet
      | some id => exact ⟨by simp, fun _ => hgrant ip range subnet⟩
  · refine Program.Only.bind ⟨by simp, fun reply => ?_⟩ fun _ => trivial
    rcases reply with e | _ | ⟨_ | id, _⟩
    · trivial
    · trivial
    · trivial
    · exact ⟨by simp, fun _ => trivial⟩
  · trivial

/-! ### From the store to the daemon -/

/-- Two scenes at the same time whose databases are related. -/
def AlikeScenes {σ : Type} (R : ℤ → σ → σ → Prop) (s s' : Scene σ) : Prop :=
  s.clock = s'.clock ∧ s.granted = s'.granted ∧ R s.clock s.db s'.db

/-- What the store cannot see, the daemon cannot see. -/
theorem CleanupBlind.unobservable {σ : Type} {store : Store σ} {R : ℤ → σ → σ → Prop}
    (h : CleanupBlind store R) (config : DhcpConfig) :
    (daemon store config).Unobservable Move.isCleanup (· ≠ .db .deleteExpiredLeases)
      (AlikeScenes R) where
  refl s := ⟨rfl, rfl, h.refl _ _⟩
  accept q hs := ⟨hs.1, rfl, hs.2.2⟩
  exec {s s'} fails c hc hs := by
    obtain ⟨⟨db, clock⟩, granted⟩ := s
    obtain ⟨⟨db', clock'⟩, granted'⟩ := s'
    obtain ⟨rfl, rfl, hdb⟩ := hs
    cases c with
    -- the clock runs alike on both sides; only the database can tell them apart
    | utcNow => exact ⟨rfl, rfl, rfl, h.later (by simp [daemon, Scene.serve, serve]) hdb⟩
    | db c =>
      cases fails with
      | true =>
        simp only [daemon, Scene.serve_fails]
        exact ⟨trivial, rfl, rfl, hdb⟩
      | false =>
        obtain ⟨hreply, hdb'⟩ := h.exec c (fun heq => hc (by rw [heq])) hdb
        simp only [daemon, Scene.serve_succeeds]
        exact ⟨hreply, rfl, by rw [hreply], hdb'⟩
  move {s s'} m hm hs := by
    obtain ⟨⟨db, clock⟩, granted⟩ := s
    obtain ⟨⟨db', clock'⟩, granted'⟩ := s'
    obtain ⟨rfl, rfl, hdb⟩ := hs
    cases m with
    | tick seconds => exact ⟨rfl, rfl, rfl, h.later (by simp [daemon, Scene.move]) hdb⟩
    | request c fails =>
      cases fails with
      | true =>
        simp only [daemon, Scene.move_fails]
        exact ⟨rfl, rfl, rfl, hdb⟩
      | false =>
        have hc : c ≠ .deleteExpiredLeases := fun heq => by simp [heq, Move.isCleanup] at hm
        obtain ⟨hreply, hdb'⟩ := h.exec c hc hdb
        simp only [daemon, Scene.move_succeeds]
        exact ⟨hreply, rfl, rfl, hdb'⟩
  hide {s s'} m hm hs := by
    -- a hidden move is a clean-up, made on one side only
    obtain ⟨hclock, hgranted, hdb⟩ := hs
    cases m with
    | tick seconds => simp [Move.isCleanup] at hm
    | request c fails =>
      obtain rfl : c = .deleteExpiredLeases := by
        cases c <;> first | rfl | simp [Move.isCleanup] at hm
      cases fails with
      | true =>
        simp only [daemon, Scene.move_fails]
        exact ⟨hclock, hgranted, hdb⟩
      | false =>
        simp only [daemon, Scene.move_succeeds]
        exact ⟨hclock, hgranted, h.clean hdb⟩

/-! ### The stores -/

section Rows

variable {α : Type} {rows rows' : List α} (leaseEnd : α → ℤ)

/-- The rows that are still active. -/
def activeRows (now : ℤ) (rows : List α) : List α := rows.filter fun l => decide (now < leaseEnd l)

theorem activeRows_later {now now' : ℤ} (hnow : now ≤ now') :
    activeRows leaseEnd now' (activeRows leaseEnd now rows) = activeRows leaseEnd now' rows := by
  rw [activeRows, activeRows, List.filter_filter, activeRows]
  refine List.filter_congr fun l _ => ?_
  have hand : now' < leaseEnd l → now < leaseEnd l := by omega
  simpa using hand

/-- Tables with the same active rows keep having the same. -/
theorem activeRows_eq_later {now now' : ℤ} (hnow : now ≤ now')
    (h : activeRows leaseEnd now rows = activeRows leaseEnd now rows') :
    activeRows leaseEnd now' rows = activeRows leaseEnd now' rows' := by
  rw [← activeRows_later _ hnow, h, activeRows_later _ hnow]

theorem activeRows_append (now : ℤ) :
    activeRows leaseEnd now (rows ++ rows') =
      activeRows leaseEnd now rows ++ activeRows leaseEnd now rows' :=
  List.filter_append rows rows'

/-- A query among the active rows sees the active rows only. -/
theorem filter_activeRows (now : ℤ) (p : α → Bool) :
    rows.filter (fun l => p l && decide (now < leaseEnd l)) =
      (activeRows leaseEnd now rows).filter p := by
  rw [activeRows, List.filter_filter]

/-- Deletions commute with looking at the active rows. -/
theorem activeRows_filter (now : ℤ) (p : α → Bool) :
    activeRows leaseEnd now (rows.filter p) = (activeRows leaseEnd now rows).filter p := by
  rw [activeRows, activeRows, List.filter_filter, List.filter_filter]
  exact List.filter_congr fun l _ => Bool.and_comm _ _

/-- The clean-up deletes no active row. -/
theorem activeRows_clean (now : ℤ) :
    activeRows leaseEnd now (rows.filter fun l => decide (now ≤ leaseEnd l)) =
      activeRows leaseEnd now rows := by
  rw [activeRows, activeRows, List.filter_filter]
  refine List.filter_congr fun l _ => ?_
  have hle : now < leaseEnd l → now ≤ leaseEnd l := le_of_lt
  simpa using hle

end Rows

/-- The databases agree in everything but leases that are no longer active. -/
structure SqliteDb.SameActive (now : ℤ) (db db' : SqliteDb) : Prop where
  rest : db' = { db with leases := db'.leases }
  active : activeRows (·.leaseEnd) now db.leases = activeRows (·.leaseEnd) now db'.leases

/-- The databases agree in everything but leases that are no longer active. -/
structure MemoryDb.SameActive (now : ℤ) (db db' : MemoryDb) : Prop where
  rest : db' = { db with leases := db'.leases }
  active : activeRows (·.leaseEnd) now db.leases = activeRows (·.leaseEnd) now db'.leases

/-- **SQLite.** No call but the clean-up can see leases that are no longer active. -/
theorem sqlite_cleanupBlind (ord : ScanOrder) :
    CleanupBlind (SqliteDb.exec ord) SqliteDb.SameActive where
  refl _ _ := ⟨rfl, rfl⟩
  later hnow h := ⟨h.rest, activeRows_eq_later _ hnow h.active⟩
  exec {now db db'} c hc h := by
    obtain ⟨rows, rfl⟩ : ∃ rows, db' = { db with leases := rows } := ⟨_, h.rest⟩
    have hact : activeRows (·.leaseEnd) now db.leases = activeRows (·.leaseEnd) now rows :=
      h.active
    have hsub : ∀ id, SqliteDb.hasSubnet { db with leases := rows } id = db.hasSubnet id :=
      fun _ => rfl
    cases c with
    | deleteExpiredLeases => exact absurd rfl hc
    -- the calls that read or write leases: ended ones do not matter to them
    | createLease lease =>
      simp only [SqliteDb.exec, SqliteDb.createLease, hsub]
      split
      · refine ⟨rfl, rfl, ?_⟩
        simp only [activeRows_append, hact]
      · exact ⟨rfl, rfl, hact⟩
    | getActiveLease mac =>
      refine ⟨?_, rfl, hact⟩
      simp only [SqliteDb.exec, SqliteDb.getActiveLease, filter_activeRows, hact]
    | listActiveLeases =>
      refine ⟨?_, rfl, hact⟩
      simp only [activeRows] at hact
      simp only [SqliteDb.exec, SqliteDb.listActiveLeases, hact]
    | expireLease id =>
      refine ⟨rfl, rfl, ?_⟩
      simp only [SqliteDb.exec, SqliteDb.expireLease, activeRows_filter, hact]
    | deleteSubnet id =>
      refine ⟨rfl, rfl, ?_⟩
      simp only [SqliteDb.exec, SqliteDb.deleteSubnet, activeRows_filter, hact]
    -- the calls on other tables, which a constraint may refuse alike on both sides
    | createSubnet subnet =>
      simp only [SqliteDb.exec, SqliteDb.createSubnet]
      split <;> exact ⟨rfl, rfl, hact⟩
    | updateSubnet id subnet =>
      simp only [SqliteDb.exec, SqliteDb.updateSubnet, hsub]
      split <;> exact ⟨rfl, rfl, hact⟩
    | createRange range =>
      simp only [SqliteDb.exec, SqliteDb.createRange, hsub]
      split <;> exact ⟨rfl, rfl, hact⟩
    | createStaticIp staticIp =>
      simp only [SqliteDb.exec, SqliteDb.createStaticIp, hsub]
      split
      · exact ⟨rfl, rfl, hact⟩
      · split <;> exact ⟨rfl, rfl, hact⟩
    | createToken name tokenHash salt =>
      simp only [SqliteDb.exec, SqliteDb.createToken]
      split <;> exact ⟨rfl, rfl, hact⟩
    | _ => exact ⟨rfl, rfl, hact⟩
  clean h := ⟨h.rest, (activeRows_clean _ _).trans h.active⟩

/-- **In memory.** No call but the clean-up can see leases that are no longer active. -/
theorem memory_cleanupBlind (toLowercase : String → String) :
    CleanupBlind (MemoryDb.exec toLowercase) MemoryDb.SameActive where
  refl _ _ := ⟨rfl, rfl⟩
  later hnow h := ⟨h.rest, activeRows_eq_later _ hnow h.active⟩
  exec {now db db'} c hc h := by
    obtain ⟨rows, rfl⟩ : ∃ rows, db' = { db with leases := rows } := ⟨_, h.rest⟩
    have hact : activeRows (·.leaseEnd) now db.leases = activeRows (·.leaseEnd) now rows :=
      h.active
    cases c with
    | deleteExpiredLeases => exact absurd rfl hc
    | createLease lease =>
      refine ⟨rfl, rfl, ?_⟩
      simp only [MemoryDb.exec, MemoryDb.createLease, activeRows_append, hact]
    | getActiveLease mac =>
      refine ⟨?_, rfl, hact⟩
      simp only [MemoryDb.exec, MemoryDb.getActiveLease, ← List.head?_filter, filter_activeRows,
        hact]
    | listActiveLeases => exact ⟨congrArg Except.ok hact, rfl, hact⟩
    | expireLease id =>
      refine ⟨rfl, rfl, ?_⟩
      simp only [MemoryDb.exec, MemoryDb.expireLease, activeRows_filter, hact]
    | _ => exact ⟨rfl, rfl, hact⟩
  clean h := ⟨h.rest, (activeRows_clean _ _).trans h.active⟩

/-! ### Runs of the daemon -/

/-- **Clean-up is unobservable.** Take two runs of the daemon from the same database that
differ in calls of `delete_expired_leases` only, inserted anywhere, also between two calls of
the listener. They show the same: all replies, all results of the database calls of the
listener and of the other tasks, among them the lists of active leases and the ids of new
leases. This holds on either store. -/
theorem cleanup_unobservable (ord : ScanOrder) (toLowercase : String → String)
    (config : DhcpConfig) (acts acts' : List DaemonAction)
    (h : acts.filter (fun a => !a.isHidden Move.isCleanup) =
      acts'.filter fun a => !a.isHidden Move.isCleanup) :
    (∀ w, (daemon (SqliteDb.exec ord) config).sights Move.isCleanup (idle w) acts =
      (daemon (SqliteDb.exec ord) config).sights Move.isCleanup (idle w) acts') ∧
    (∀ w, (daemon (MemoryDb.exec toLowercase) config).sights Move.isCleanup (idle w) acts =
      (daemon (MemoryDb.exec toLowercase) config).sights Move.isCleanup (idle w) acts') := by
  refine ⟨fun w => ?_, fun w => ?_⟩
  · exact ((sqlite_cleanupBlind ord).unobservable config).sights_eq
      (fun q => handlePacket_never_cleans) _ h
  · exact ((memory_cleanupBlind toLowercase).unobservable config).sights_eq
      (fun q => handlePacket_never_cleans) _ h

/-- Alice's lease ends, something happens, and Bob gets the address. -/
def Sample.lapse (between : List DaemonAction) : List DaemonAction :=
  .receive ⟨request alice (.new 10 0 0 10), iface⟩ :: List.replicate 7 (.call false) ++
    .move (.tick 90) :: between ++
      .receive ⟨request bob (.new 10 0 0 10), iface⟩ :: List.replicate 7 (.call false)

/-- Whether Alice's row has been deleted by then cannot be seen. -/
theorem cleanup_unobservable_lapse :
    ((daemon (SqliteDb.exec .rowid) Sample.config).after (idle Sample.world)
      (Sample.lapse [])).world.db.leases.length = 2 ∧
    ((daemon (SqliteDb.exec .rowid) Sample.config).after (idle Sample.world)
      (Sample.lapse [.move (.request .deleteExpiredLeases false)])).world.db.leases.length = 1 ∧
    (daemon (SqliteDb.exec .rowid) Sample.config).sights Move.isCleanup (idle Sample.world)
        (Sample.lapse []) =
      (daemon (SqliteDb.exec .rowid) Sample.config).sights Move.isCleanup (idle Sample.world)
        (Sample.lapse [.move (.request .deleteExpiredLeases false)]) := by
  refine ⟨by decide +kernel, by decide +kernel, ?_⟩
  exact (cleanup_unobservable .rowid String.toLower Sample.config (Sample.lapse [])
    (Sample.lapse [.move (.request .deleteExpiredLeases false)]) rfl).1 Sample.world

end Ndhcpd
