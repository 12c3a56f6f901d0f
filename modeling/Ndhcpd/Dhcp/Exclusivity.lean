import Ndhcpd.Dhcp.Upkeep

/-!
# Exclusive leases

The lease table stays exclusive in every run of the daemon: whatever packets arrive, however
the clean-up task and the REST API interleave with the database calls of the listener, and
whichever calls fail, two active leases on one address belong to the same client. As long as
no `expire_lease` has failed, there is moreover at most one active lease on an address.

The argument is about the moment a lease is inserted. `handleRequest` has looked at the table
before, and since then other tasks can only have removed rows and time can only have made
leases inactive; so what the look showed about the requested address is still true
(`Ready`), and it is what the insertion needs.
-/

namespace Ndhcpd

variable {reg : Regime} {ord : ScanOrder} {s s' : Scene SqliteDb}

/-- Inserting a lease for the client that holds the address keeps the table orderly. -/
theorem Orderly.insertLease (h : Orderly reg s) {lease : Lease}
    (hname : ∃ m : MacAddress, lease.macAddress = m.toString)
    (hheld : HeldBy s.db.leases s.clock lease.ipAddress lease.macAddress)
    (hvacant : reg.Expires → Vacant s.db.leases s.clock lease.ipAddress) :
    Orderly reg (s.insertLease lease) where
  tidy := h.tidy.append rfl hname
  exclusive := h.exclusive.append hheld
  single hexp := (h.single hexp).append (hvacant hexp)

/-- Granting a lease on an address that nobody else holds. -/
theorem grantLease_orderly {packet : DhcpPacket} {config : DhcpConfig} {ip : Ipv4Addr}
    {range : DynamicRange} {subnet : Subnet} (h : Orderly reg s)
    (hheld : HeldBy s.db.leases s.clock ip (requestMac packet))
    (hvacant : reg.Expires → Vacant s.db.leases s.clock ip) :
    (reg.setting ord).Holds (fun _ => Orderly reg) (grantLease packet config ip range subnet) s := by
  have hstable : (reg.setting ord).Stable fun s => Orderly reg s ∧
      HeldBy s.db.leases s.clock ip (requestMac packet) ∧
      (reg.Expires → Vacant s.db.leases s.clock ip) :=
    stable_orderly.and fun h hs => ⟨h.1.mono hs.leases.subset hs.clock,
      fun hexp => (h.2 hexp).mono hs.leases.subset hs.clock⟩
  refine holds_read hstable rfl ?_ ⟨h, hheld, hvacant⟩
  intro s now hs _
  refine hstable.request ?_ hs
  intro s hs reply s' hstep
  rcases step_createLease hstep with ⟨⟨e, rfl⟩, rfl, -⟩ | ⟨rfl, rfl⟩
  · exact stable_orderly.done (fun s h => h) hs.1
  · refine stable_orderly.done (fun s h => h) (hs.1.insertLease ?_ hs.2.1 hs.2.2)
    exact ⟨packet.chaddr, requestMac_eq packet⟩

/-- Carrying out a plan that is ready. -/
theorem carryOut_orderly {packet : DhcpPacket} {config : DhcpConfig} {plan : RequestPlan}
    (h : Orderly reg s) (hready : Ready reg (requestMac packet) plan s) :
    (reg.setting ord).Holds (fun _ => Orderly reg) (plan.carryOut packet config) s := by
  cases plan with
  | refuse => exact stable_orderly.done (fun s h => h) h
  | confirm ip subnet => exact stable_orderly.done (fun s h => h) h
  | grant ip range subnet old =>
    cases old with
    | none => exact grantLease_orderly h hready.held fun _ => hready.vacant rfl
    | some id =>
      have hstable : (reg.setting ord).Stable fun s => Orderly reg s ∧
          Ready reg (requestMac packet) (.grant ip range subnet (some id)) s :=
        stable_orderly.and fun h hs => h.elapses hs
      refine hstable.request ?_ ⟨h, hready⟩
      intro s hs reply s' hstep
      obtain ⟨h, hready⟩ := hs
      rcases step_expireLease hstep with ⟨hfail, rfl⟩ | rfl
      · -- the old lease is still there, which the regime admits
        exact grantLease_orderly h hready.held fun hexp => absurd hfail (hexp id)
      · refine grantLease_orderly (h.expireLease id)
          (hready.held.mono (List.filter_subset_self _) le_rfl) fun hexp => ?_
        exact (hready.only hexp id rfl).vacant_filter

/-- **Handling a packet** keeps the lease table orderly at every moment. -/
theorem handlePacket_orderly {packet : DhcpPacket} {ifaceIps : List Ipv4Addr}
    {config : DhcpConfig} (h : Orderly reg s) :
    (reg.setting ord).Holds (fun _ => Orderly reg) (handlePacket packet ifaceIps config) s := by
  unfold handlePacket
  split
  · exact reads_hold stable_orderly handleDiscover_reads h
  · rw [handleRequest_eq]
    refine Setting.Holds.bind ((planRequest_holds stable_orderly h).mono fun plan s hs => ?_)
    exact carryOut_orderly hs.1 hs.2
  · refine Setting.Holds.bind
      ((handleRelease_holds stable_orderly (fun s id hs _ => ?_) h).mono fun _ s hs => ?_)
    · exact hs.expireLease id
    · exact stable_orderly.done (fun s h => h) hs
  · exact stable_orderly.done (fun s h => h) h

/-! ### Runs of the daemon -/

/-- A step of the daemon is permitted in a regime if the other tasks stay within the API and
the call of the listener does not fail unless it may. -/
theorem permits_daemon {config : DhcpConfig} {st : DaemonState SqliteDb} {a : DaemonAction}
    (hmove : ∀ m, a = .move m → m.fromApi = true ∧ (reg.subnetsStay → m.keepsSubnets = true))
    (hcall : ∀ q c next, st.job = some (q, .request c next) → a = .call true → reg.mayFail c) :
    (daemon (SqliteDb.exec ord) config).Permits (reg.setting ord) st a := by
  rcases st with ⟨s, _ | ⟨q, _ | ⟨c, next⟩⟩⟩ <;> cases a with
  | receive q' => trivial
  | move m => exact elapses_move (hmove m rfl).1 (hmove m rfl).2
  | call fails =>
    first
    | trivial
    | exact ⟨fails, fun hf => hcall q c next rfl (by rw [hf]), rfl⟩

/-- A table without leases is orderly. -/
theorem orderly_of_empty {w : World SqliteDb} (h : w.db.leases = []) :
    Orderly reg (idle w).world := by
  refine ⟨⟨?_, ?_, ?_⟩, ?_, fun _ => ?_⟩ <;> simp [idle, h, Exclusive, Single]

/-- **The lease table stays orderly in every state of every permitted run.** -/
theorem Orderly.after {config : DhcpConfig} {w : World SqliteDb} (h : Orderly reg (idle w).world)
    {acts : List DaemonAction}
    (hacts : (daemon (SqliteDb.exec ord) config).Along
      ((daemon (SqliteDb.exec ord) config).Permits (reg.setting ord)) (idle w) acts) :
    Orderly reg ((daemon (SqliteDb.exec ord) config).after (idle w) acts).world := by
  have hgood : Loop.Good (reg.setting ord) (Orderly reg)
      (fun (_ : Datagram) (_ : Option DhcpPacket) => Orderly reg) (idle w) := h
  refine Loop.Good.inv stable_orderly (hgood.after stable_orderly (fun q s hs => ?_)
    (fun _ _ _ h => h) hacts)
  -- accepting a packet does not touch the database
  exact handlePacket_orderly ⟨hs.tidy, hs.exclusive, hs.single⟩

/-- The table stays orderly whichever calls fail and whatever the other tasks do within the API. -/
theorem Orderly.after_of_fromApi {config : DhcpConfig} {w : World SqliteDb}
    (h : Orderly ⟨fun _ => True, False⟩ (idle w).world) {acts : List DaemonAction}
    (hacts : ∀ a ∈ acts, a.movesWithin Move.fromApi = true) :
    Orderly ⟨fun _ => True, False⟩
      ((daemon (SqliteDb.exec ord) config).after (idle w) acts).world := by
  refine h.after (Run.along_of_forall fun a ha st =>
    permits_daemon (fun m hm => ⟨?_, False.elim⟩) fun _ _ _ _ _ => trivial)
  simpa [hm, Loop.Action.movesWithin] using hacts a ha

/-- Without leases at the start, the lease table is orderly in every state of every permitted
run. -/
theorem orderly_after {config : DhcpConfig} {w : World SqliteDb} (hempty : w.db.leases = [])
    {acts : List DaemonAction}
    (hacts : (daemon (SqliteDb.exec ord) config).Along
      ((daemon (SqliteDb.exec ord) config).Permits (reg.setting ord)) (idle w) acts) :
    Orderly reg ((daemon (SqliteDb.exec ord) config).after (idle w) acts).world :=
  (orderly_of_empty hempty).after hacts

/-- Without leases at the start, the table is orderly whichever calls fail and whatever the other
tasks do within the API. -/
theorem orderly_of_fromApi {config : DhcpConfig} {w : World SqliteDb} (hempty : w.db.leases = [])
    {acts : List DaemonAction} (hacts : ∀ a ∈ acts, a.movesWithin Move.fromApi = true) :
    Orderly ⟨fun _ => True, False⟩
      ((daemon (SqliteDb.exec ord) config).after (idle w) acts).world :=
  (orderly_of_empty hempty).after_of_fromApi hacts

/-- **Exclusivity of leases.** Start the daemon on any database without leases and let it run:
packets arrive, the clean-up task and the API make any calls they like between the calls of
the listener, any call may fail, and time passes. In every state reached, two active leases
on the same address belong to the same MAC address; and if no `expire_lease` has failed so
far, there is at most one active lease on each address. -/
theorem active_leases_exclusive (ord : ScanOrder) (config : DhcpConfig) (w : World SqliteDb)
    (hempty : w.db.leases = []) (acts : List DaemonAction)
    (hacts : ∀ a ∈ acts, a.movesWithin Move.fromApi = true) :
    let d := daemon (SqliteDb.exec ord) config
    let s := (d.after (idle w) acts).world
    (∀ l ∈ s.db.leases, ∀ l' ∈ s.db.leases, s.clock < l.leaseEnd → s.clock < l'.leaseEnd →
      l.ipAddress = l'.ipAddress → l.macAddress = l'.macAddress) ∧
    ((∀ q id e, .called q (.db (.expireLease id)) (.error e) ∉ d.events (idle w) acts) →
      ∀ ip, (s.db.leases.filter fun l =>
        l.ipAddress == ip && decide (s.clock < l.leaseEnd)).length ≤ 1) := by
  intro d s
  refine ⟨(orderly_of_fromApi hempty hacts).exclusive, fun hexpire ip => ?_⟩
  have hmoves : ∀ a ∈ acts, ∀ m, a = .move m → m.fromApi = true := fun a ha m hm => by
    simpa [hm, Loop.Action.movesWithin] using hacts a ha
  -- every call but `expire_lease` may fail
  have horderly : Orderly ⟨fun c => ∀ id, c ≠ .db (.expireLease id), False⟩ s := by
    refine orderly_after hempty (Loop.along_of_events (fun a ha st hev => ?_)
      fun e he => (?_ : ∀ q id err, e ≠ .called q (.db (.expireLease id)) (.error err)))
    · refine permits_daemon (fun m hm => ⟨hmoves a ha m hm, False.elim⟩) ?_
      rintro q c next hjob rfl id rfl
      obtain ⟨sc, job⟩ := st
      obtain rfl : job = _ := hjob
      exact hev _ rfl q id .unavailable
        (congrArg (Loop.Event.called q _) (congrArg Prod.fst (Scene.serve_fails _)))
    · rintro q id err rfl
      exact hexpire q id err he
  exact (horderly.single fun id hfail => hfail id rfl).length_le_one horderly.tidy ip

/-- Alice gets a lease and renews it while the clean-up task is running; Bob asks for the
same address, and one of the calls made for him fails. -/
def Sample.renewal : List DaemonAction :=
  .receive ⟨request alice (.new 10 0 0 10), iface⟩ :: List.replicate 7 (.call false) ++
    .move (.tick 30) :: .receive ⟨request alice (.new 10 0 0 10), iface⟩ ::
      List.replicate 5 (.call false) ++ .move (.request .deleteExpiredLeases false) ::
        List.replicate 3 (.call false) ++
    .receive ⟨request bob (.new 10 0 0 10), iface⟩ :: .call true :: List.replicate 6 (.call false)

/-- The database after that. -/
def Sample.renewed : Scene SqliteDb :=
  ((daemon (SqliteDb.exec .rowid) config).after (idle world) renewal).world

/-- The event is not an `expire_lease` that failed. -/
def Sample.expiresOk : DaemonEvent SqliteDb → Bool
  | .called _ (.db (.expireLease _)) r => r.isOk
  | _ => true

/-- After the renewal the address is leased once. -/
theorem active_leases_exclusive_renewal :
    Sample.renewed.db.leases.length = 1 ∧
    Exclusive Sample.renewed.db.leases Sample.renewed.clock ∧
    ∀ ip, (Sample.renewed.db.leases.filter fun l =>
      l.ipAddress == ip && decide (Sample.renewed.clock < l.leaseEnd)).length ≤ 1 := by
  have hmain := active_leases_exclusive .rowid Sample.config Sample.world rfl
    Sample.renewal (by decide)
  have hok : ((daemon (SqliteDb.exec .rowid) Sample.config).events (idle Sample.world)
      Sample.renewal).all Sample.expiresOk = true := by decide +kernel
  refine ⟨by decide +kernel, hmain.1, hmain.2 fun q id e hmem => ?_⟩
  exact absurd (List.all_eq_true.mp hok _ hmem) Bool.false_ne_true

end Ndhcpd
