import Ndhcpd.Dhcp.Request
import Ndhcpd.Dhcp.System

/-!
# A REQUEST handled alone

The exact runs of `handleRequest` on the SQLite store when no other task comes between its
calls. Calls are counted from zero: call `n` has the fate `fates n` and is executed at the
clock reading `clockAfter fates clock (n + 1)`. `Reaches` says, in terms of the database, the
packet and the fates, that the reads get as far as the list of active leases and from which
range the address would be leased; `planRequest_run` and `reaches_of_grant` say that this is
how the handler comes to grant a lease.
-/

namespace Ndhcpd

/-! ### Counting calls -/

/-- The clock after the first `n` calls. -/
def clockAfter (fates : ℕ → Fate) (clock : ℤ) : ℕ → ℤ
  | 0 => clock
  | n + 1 => clockAfter fates clock n + (fates n).wait

/-- The fates of the calls from the `n`-th on. -/
def later (fates : ℕ → Fate) (n : ℕ) : ℕ → Fate := fun i => fates (n + i)

/-- The world after `n` calls that only read. -/
def World.after (w : World SqliteDb) (fates : ℕ → Fate) (n : ℕ) : World SqliteDb :=
  ⟨w.db, clockAfter fates w.clock n⟩

section Counting

variable {ord : ScanOrder} {fates : ℕ → Fate} {w : World SqliteDb} {α : Type}

theorem clockAfter_mono (fates : ℕ → Fate) (clock : ℤ) {m n : ℕ} (h : m ≤ n) :
    clockAfter fates clock m ≤ clockAfter fates clock n := by
  induction n, h using Nat.le_induction with
  | base => exact le_rfl
  | succ n _ ih =>
    rw [clockAfter]
    omega

theorem le_clockAfter (fates : ℕ → Fate) (clock : ℤ) (n : ℕ) :
    clock ≤ clockAfter fates clock n :=
  clockAfter_mono fates clock (Nat.zero_le n)

theorem later_zero : later fates 0 = fates := by
  funext i
  simp [later]

theorem later_succ (n : ℕ) : (fun i => later fates n (i + 1)) = later fates (n + 1) := by
  funext i
  simp only [later]
  congr 1
  omega

private theorem serve_read {c : DbCall} (hc : c.isRead = true) (n : ℕ) :
    (serve (SqliteDb.exec ord) (fates n) (.db c) (w.after fates n)).2 = w.after fates (n + 1) :=
  @serve_of_isRead ord (.db c) hc (fates n) (w.after fates n)

/-- Call `n` is a read and fails. -/
theorem run_read_fails {c : DbCall} (hc : c.isRead = true) {k : c.Result → ServerProgram α}
    {n : ℕ} (hfails : (fates n).fails = true) :
    (dbCall c >>= k).run (serve (SqliteDb.exec ord)) (later fates n) (w.after fates n) =
      (k (.error .unavailable)).run (serve (SqliteDb.exec ord)) (later fates (n + 1))
        (w.after fates (n + 1)) := by
  rw [dbCall_bind, Program.run_request, later_succ, later, add_zero, serve_read hc]
  simp [serve, hfails]

/-- Call `n` is a read and returns `a`. -/
theorem run_read_ok {c : DbCall} (hc : c.isRead = true) {k : c.Result → ServerProgram α}
    {n : ℕ} (hfails : (fates n).fails = false) {a : c.Ret}
    (ha : (SqliteDb.exec ord (clockAfter fates w.clock (n + 1)) w.db c).1 = .ok a) :
    (dbCall c >>= k).run (serve (SqliteDb.exec ord)) (later fates n) (w.after fates n) =
      (k (.ok a)).run (serve (SqliteDb.exec ord)) (later fates (n + 1))
        (w.after fates (n + 1)) := by
  have hreply : (serve (SqliteDb.exec ord) (fates n) (.db c) (w.after fates n)).1 = .ok a := by
    simp only [serve, hfails]
    exact ha
  rw [dbCall_bind, Program.run_request, later_succ, later, add_zero, serve_read hc, hreply]

/-- A program that only reads changes nothing but the time. -/
theorem run_reads {p : ServerProgram α} (hp : Reads p) (fates : ℕ → Fate) (w : World SqliteDb) :
    (p.run (serve (SqliteDb.exec ord)) fates w).state.db = w.db ∧
      w.clock ≤ (p.run (serve (SqliteDb.exec ord)) fates w).state.clock := by
  refine Program.run_preserves (R := fun w w' : World SqliteDb => w'.db = w.db ∧ w.clock ≤ w'.clock)
    _ (fun _ => ⟨rfl, le_rfl⟩) (fun _ _ _ h h' => ⟨h'.1.trans h.1, h.2.trans h'.2⟩)
    (fun fate c w hc => ?_) hp fates w
  rw [serve_of_isRead hc]
  exact ⟨rfl, by simp⟩

end Counting

/-! ### The reads of a REQUEST -/

section Reads

variable (ord : ScanOrder) (w : World SqliteDb) (packet : DhcpPacket)
  (ifaceIps : List Ipv4Addr) (fates : ℕ → Fate)

/-- Does the subnet of the range exist, and is it reachable via the interface? -/
def reachable (db : SqliteDb) (r : DynamicRange) : Bool :=
  (db.getSubnet r.subnetId).any (ifaceInSubnet ifaceIps)

/-- Of the given ranges, the first enabled one that covers the address and whose subnet is
read without failure and is reachable, with the number of the call that reads it. The first
of these calls is call `n`. -/
def matchFrom (n : ℕ) (ip : Ipv4Addr) (ranges : List DynamicRange) : Option (DynamicRange × ℕ) :=
  ((ranges.filter fun r => r.enabled && r.covers ip).zipIdx n).find? fun (r, i) =>
    !(fates i).fails && reachable ifaceIps w.db r

/-- The reads of `handleRequest` get to the list of active leases, which is call `i + 1`, with
the intention to lease `ip` from `range`. -/
structure Reaches (ip : Ipv4Addr) (range : DynamicRange) (subnet : Subnet) (i : ℕ) : Prop where
  requested : requestedIp packet = some ip
  dynamic : (fates 0).fails = true ∨ w.db.getStaticIpByMac ord (requestMac packet) = none
  listed : (fates 1).fails = false
  matched : matchFrom w ifaceIps fates 2 ip (w.db.listRanges ord none) = some (range, i)
  subnet : w.db.getSubnet range.subnetId = some subnet
  leases : (fates (i + 1)).fails = false

variable {ord w packet ifaceIps fates}

/-- The address, the range, the subnet and the number of the call are determined. -/
theorem Reaches.unique {ip ip' : Ipv4Addr} {range range' : DynamicRange}
    {subnet subnet' : Subnet} {i i' : ℕ}
    (h : Reaches ord w packet ifaceIps fates ip range subnet i)
    (h' : Reaches ord w packet ifaceIps fates ip' range' subnet' i') :
    ip' = ip ∧ range' = range ∧ subnet' = subnet ∧ i' = i := by
  obtain rfl := Option.some.inj (h.requested.symm.trans h'.requested)
  obtain ⟨rfl, rfl⟩ := Prod.mk.inj (Option.some.inj (h.matched.symm.trans h'.matched))
  obtain rfl := Option.some.inj (h.subnet.symm.trans h'.subnet)
  exact ⟨rfl, rfl, rfl, rfl⟩

/-- The range is enabled and covers the address. -/
theorem Reaches.covered {ip : Ipv4Addr} {range : DynamicRange} {subnet : Subnet} {i : ℕ}
    (h : Reaches ord w packet ifaceIps fates ip range subnet i) :
    ∃ row ∈ w.db.dynamicRanges, row.toRange = range ∧ row.enabled = true ∧
      row.toRange.covers ip = true := by
  have hmem := List.fst_mem_of_mem_zipIdx (List.mem_of_find?_eq_some h.matched)
  obtain ⟨hlisted, hcovers⟩ := List.mem_filter.mp hmem
  obtain ⟨row, ⟨hrow, -⟩, rfl⟩ := SqliteDb.mem_listRanges.mp hlisted
  rw [Bool.and_eq_true] at hcovers
  exact ⟨row, hrow, rfl, hcovers⟩

/-- The subnet of the range is reachable. -/
theorem Reaches.reachable {ip : Ipv4Addr} {range : DynamicRange} {subnet : Subnet} {i : ℕ}
    (h : Reaches ord w packet ifaceIps fates ip range subnet i) :
    ifaceInSubnet ifaceIps subnet = true := by
  have hfound := List.find?_some h.matched
  rw [Bool.and_eq_true, Ndhcpd.reachable, h.subnet] at hfound
  exact hfound.2

/-- `findMatchingRange` finds what `matchFrom` finds. -/
theorem findMatchingRange_run (n : ℕ) (ip : Ipv4Addr) (ranges : List DynamicRange) :
    (∀ r i, matchFrom w ifaceIps fates n ip ranges = some (r, i) →
      ∃ subnet, w.db.getSubnet r.subnetId = some subnet ∧
        (findMatchingRange ifaceIps ip ranges).run (serve (SqliteDb.exec ord)) (later fates n)
          (w.after fates n) = ⟨some (r, subnet), w.after fates (i + 1), later fates (i + 1)⟩) ∧
    (matchFrom w ifaceIps fates n ip ranges = none →
      ((findMatchingRange ifaceIps ip ranges).run (serve (SqliteDb.exec ord)) (later fates n)
        (w.after fates n)).value = none) := by
  induction ranges generalizing n with
  | nil => simp [matchFrom, findMatchingRange]
  | cons r rest ih =>
    unfold findMatchingRange
    cases hcov : r.enabled && r.covers ip with
    | false =>
      -- a range that does not qualify costs no call
      have hskip : matchFrom w ifaceIps fates n ip (r :: rest) =
          matchFrom w ifaceIps fates n ip rest := by
        simp [matchFrom, hcov]
      rw [hskip]
      exact ih n
    | true =>
      -- a range that qualifies costs call `n`, whether or not it is found reachable
      have hhead : matchFrom w ifaceIps fates n ip (r :: rest) =
          if !(fates n).fails && reachable ifaceIps w.db r then some (r, n)
          else matchFrom w ifaceIps fates (n + 1) ip rest := by
        simp only [matchFrom, List.filter_cons, hcov, if_true, List.zipIdx_cons, List.find?_cons]
        cases !(fates n).fails && reachable ifaceIps w.db r <;> rfl
      rw [hhead, if_pos rfl]
      cases hfails : (fates n).fails with
      | true =>
        rw [run_read_fails rfl hfails]
        exact ih (n + 1)
      | false =>
        cases hsub : w.db.getSubnet r.subnetId with
        | none =>
          rw [run_read_ok rfl hfails (SqliteDb.exec_getSubnet hsub), reachable, hsub]
          exact ih (n + 1)
        | some subnet =>
          rw [run_read_ok rfl hfails (SqliteDb.exec_getSubnet hsub), reachable, hsub, Option.any_some]
          cases hiface : ifaceInSubnet ifaceIps subnet with
          | false =>
            simp only [hiface]
            exact ih (n + 1)
          | true =>
            simp only [hiface]
            refine ⟨fun r' i h => ?_, by simp⟩
            obtain ⟨rfl, rfl⟩ : r = r' ∧ n = i := by simpa using h
            exact ⟨subnet, hsub, rfl⟩

/-- The first read of a REQUEST: the branch that is taken. -/
private theorem planRequest_run_branch {ip : Ipv4Addr} (hip : requestedIp packet = some ip) :
    (planRequest packet ifaceIps).run (serve (SqliteDb.exec ord)) fates w =
      if (fates 0).fails = true ∨ w.db.getStaticIpByMac ord (requestMac packet) = none then
        (planDynamic packet ifaceIps ip).run (serve (SqliteDb.exec ord)) (later fates 1)
          (w.after fates 1)
      else
        match w.db.getStaticIpByMac ord (requestMac packet) with
        | some staticIp => (planStatic ifaceIps ip staticIp).run (serve (SqliteDb.exec ord))
            (later fates 1) (w.after fates 1)
        | none => ⟨.refuse, w, fates⟩ := by
  have hplan : (planRequest packet ifaceIps).run (serve (SqliteDb.exec ord)) fates w =
      (planRequest packet ifaceIps).run (serve (SqliteDb.exec ord)) (later fates 0)
        (w.after fates 0) := by
    rw [later_zero]
    rfl
  rw [hplan]
  simp only [planRequest, hip]
  cases hfails : (fates 0).fails with
  | true =>
    rw [run_read_fails rfl hfails]
    rfl
  | false =>
    cases hstatic : w.db.getStaticIpByMac ord (requestMac packet) with
    | none =>
      rw [run_read_ok rfl hfails (SqliteDb.exec_getStaticIpByMac hstatic)]
      rfl
    | some staticIp =>
      rw [run_read_ok rfl hfails (SqliteDb.exec_getStaticIpByMac hstatic)]
      rfl

/-- The dynamic branch up to the list of active leases. -/
private theorem planDynamic_run {ip : Ipv4Addr} (hlisted : (fates 1).fails = false)
    {range : DynamicRange} {i : ℕ}
    (hmatch : matchFrom w ifaceIps fates 2 ip (w.db.listRanges ord none) = some (range, i)) :
    ∃ subnet, w.db.getSubnet range.subnetId = some subnet ∧
      (planDynamic packet ifaceIps ip).run (serve (SqliteDb.exec ord)) (later fates 1)
        (w.after fates 1) =
      if (fates (i + 1)).fails = true then ⟨.refuse, w.after fates (i + 2), later fates (i + 2)⟩
      else ⟨planLease (requestMac packet) ip range subnet
          (w.db.listActiveLeases ord (clockAfter fates w.clock (i + 2))),
        w.after fates (i + 2), later fates (i + 2)⟩ := by
  obtain ⟨subnet, hsub, hrun⟩ := (@findMatchingRange_run ord w ifaceIps fates 2 ip _).1 range i hmatch
  refine ⟨subnet, hsub, ?_⟩
  have hrange : (planRange ifaceIps ip).run (serve (SqliteDb.exec ord)) (later fates 1)
      (w.after fates 1) = ⟨some (range, subnet), w.after fates (i + 1), later fates (i + 1)⟩ := by
    rw [planRange, run_read_ok rfl hlisted rfl]
    exact hrun
  rw [planDynamic, Program.run_bind, hrange]
  cases hleases : (fates (i + 1)).fails with
  | true =>
    rw [run_read_fails rfl hleases]
    rfl
  | false =>
    rw [run_read_ok rfl hleases rfl]
    rfl

/-- The dynamic branch refuses unless it gets to the list of active leases. -/
private theorem planDynamic_value {ip : Ipv4Addr} :
    ((planDynamic packet ifaceIps ip).run (serve (SqliteDb.exec ord)) (later fates 1)
        (w.after fates 1)).value = .refuse ∨
    ∃ range i subnet, (fates 1).fails = false ∧
      matchFrom w ifaceIps fates 2 ip (w.db.listRanges ord none) = some (range, i) ∧
      w.db.getSubnet range.subnetId = some subnet ∧ (fates (i + 1)).fails = false ∧
      ((planDynamic packet ifaceIps ip).run (serve (SqliteDb.exec ord)) (later fates 1)
        (w.after fates 1)).value = planLease (requestMac packet) ip range subnet
          (w.db.listActiveLeases ord (clockAfter fates w.clock (i + 2))) := by
  cases hlisted : (fates 1).fails with
  | true =>
    refine .inl ?_
    rw [planDynamic, Program.run_bind, planRange, run_read_fails rfl hlisted]
    rfl
  | false =>
    cases hmatch : matchFrom w ifaceIps fates 2 ip (w.db.listRanges ord none) with
    | none =>
      have hnone := (@findMatchingRange_run ord w ifaceIps fates 2 ip _).2 hmatch
      refine .inl ?_
      rw [planDynamic, Program.run_bind, planRange, run_read_ok rfl hlisted rfl, hnone]
      rfl
    | some found =>
      obtain ⟨range, i⟩ := found
      obtain ⟨subnet, hsub, hrun⟩ :=
        @planDynamic_run ord w packet ifaceIps fates ip hlisted range i hmatch
      rw [hrun]
      cases hleases : (fates (i + 1)).fails with
      | true => exact .inl rfl
      | false => exact .inr ⟨range, i, subnet, rfl, rfl, hsub, hleases, rfl⟩

/-- The static branch refuses or confirms the assigned address. -/
private theorem planStatic_value {ip : Ipv4Addr} {staticIp : StaticIP} :
    ((planStatic ifaceIps ip staticIp).run (serve (SqliteDb.exec ord)) (later fates 1)
        (w.after fates 1)).value = .refuse ∨
    ∃ subnet, staticIp.ipAddress = ip ∧ w.db.getSubnet staticIp.subnetId = some subnet ∧
      ifaceInSubnet ifaceIps subnet = true ∧
      ((planStatic ifaceIps ip staticIp).run (serve (SqliteDb.exec ord)) (later fates 1)
        (w.after fates 1)).value = .confirm ip subnet := by
  by_cases hip : staticIp.ipAddress = ip
  · simp only [planStatic, hip, if_true]
    cases hfails : (fates 1).fails with
    | true =>
      rw [run_read_fails rfl hfails]
      exact .inl rfl
    | false =>
      cases hsub : w.db.getSubnet staticIp.subnetId with
      | none =>
        rw [run_read_ok rfl hfails (SqliteDb.exec_getSubnet hsub)]
        exact .inl rfl
      | some subnet =>
        rw [run_read_ok rfl hfails (SqliteDb.exec_getSubnet hsub)]
        cases hiface : ifaceInSubnet ifaceIps subnet with
        | true => exact .inr ⟨subnet, trivial, rfl, hiface, by simp [hiface]⟩
        | false => exact .inl (by simp [hiface])
  · exact .inl (by simp [planStatic, hip])

/-- The decision on the active leases is a refusal or a grant of what was asked for. -/
theorem planLease_cases (mac : String) (ip : Ipv4Addr) (range : DynamicRange)
    (subnet : Subnet) (activeLeases : List Lease) :
    planLease mac ip range subnet activeLeases = .refuse ∨
      ∃ old, planLease mac ip range subnet activeLeases = .grant ip range subnet old := by
  unfold planLease
  split
  · exact .inr ⟨none, rfl⟩
  · split
    · exact .inl rfl
    · exact .inr ⟨_, rfl⟩

/-- **The reads of a REQUEST in the dynamic branch.** -/
theorem planRequest_run {ip : Ipv4Addr} {range : DynamicRange} {subnet : Subnet} {i : ℕ}
    (h : Reaches ord w packet ifaceIps fates ip range subnet i) :
    (planRequest packet ifaceIps).run (serve (SqliteDb.exec ord)) fates w =
      ⟨planLease (requestMac packet) ip range subnet
          (w.db.listActiveLeases ord (clockAfter fates w.clock (i + 2))),
        w.after fates (i + 2), later fates (i + 2)⟩ := by
  obtain ⟨subnet', hsub, hrun⟩ := @planDynamic_run ord w packet ifaceIps fates ip h.listed range i
    h.matched
  obtain rfl : subnet' = subnet := Option.some.inj (hsub.symm.trans h.subnet)
  rw [planRequest_run_branch h.requested, if_pos h.dynamic, hrun, h.leases]
  rfl

/-- **Where the plan of a REQUEST comes from**: a lease is granted by the dynamic branch once
the reads have got to the list of active leases, and an address is confirmed by the static
branch. -/
private theorem planRequest_value :
    let plan := ((planRequest packet ifaceIps).run (serve (SqliteDb.exec ord)) fates w).value
    plan = .refuse ∨
    (∃ ip range subnet i old, Reaches ord w packet ifaceIps fates ip range subnet i ∧
      plan = .grant ip range subnet old) ∨
    ∃ staticIp subnet, requestedIp packet = some staticIp.ipAddress ∧
      w.db.getStaticIpByMac ord (requestMac packet) = some staticIp ∧
      w.db.getSubnet staticIp.subnetId = some subnet ∧ ifaceInSubnet ifaceIps subnet = true ∧
      plan = .confirm staticIp.ipAddress subnet := by
  intro plan
  cases hip : requestedIp packet with
  | none =>
    refine .inl ?_
    simp [plan, planRequest, hip]
  | some ip =>
    have hplan := congrArg Program.Outcome.value
      (@planRequest_run_branch ord w packet ifaceIps fates ip hip)
    by_cases hdynamic : (fates 0).fails = true ∨
        w.db.getStaticIpByMac ord (requestMac packet) = none
    · -- a failing lookup counts as no static assignment
      rw [if_pos hdynamic] at hplan
      obtain hrefuse | ⟨range, i, subnet, hlisted, hmatch, hsub, hleases, hvalue⟩ :=
        @planDynamic_value ord w packet ifaceIps fates ip
      · exact .inl (hplan.trans hrefuse)
      · obtain hlease | ⟨old, hlease⟩ := planLease_cases (requestMac packet) ip range subnet
          (w.db.listActiveLeases ord (clockAfter fates w.clock (i + 2)))
        · exact .inl ((hplan.trans hvalue).trans hlease)
        · have hreach : Reaches ord w packet ifaceIps fates ip range subnet i :=
            ⟨hip, hdynamic, hlisted, hmatch, hsub, hleases⟩
          exact .inr (.inl ⟨ip, range, subnet, i, old, hreach, (hplan.trans hvalue).trans hlease⟩)
    · obtain ⟨staticIp, hstatic⟩ := Option.ne_none_iff_exists'.mp (not_or.mp hdynamic).2
      rw [if_neg hdynamic, hstatic] at hplan
      obtain hrefuse | ⟨subnet, rfl, hsub, hiface, hconfirm⟩ :=
        @planStatic_value ord w ifaceIps fates ip staticIp
      · exact .inl (hplan.trans hrefuse)
      · exact .inr (.inr ⟨staticIp, subnet, rfl, hstatic, hsub, hiface, hplan.trans hconfirm⟩)

/-- A plan to grant a lease comes from the dynamic branch. -/
theorem reaches_of_grant {ip : Ipv4Addr} {range : DynamicRange} {subnet : Subnet}
    {old : Option ℤ}
    (h : ((planRequest packet ifaceIps).run (serve (SqliteDb.exec ord)) fates w).value =
      .grant ip range subnet old) :
    ∃ i, Reaches ord w packet ifaceIps fates ip range subnet i := by
  obtain hrefuse | ⟨ip', range', subnet', i, old', hreach, hgrant⟩ |
      ⟨staticIp, subnet', -, -, -, -, hconfirm⟩ :=
    @planRequest_value ord w packet ifaceIps fates
  · cases hrefuse.symm.trans h
  · obtain ⟨rfl, rfl, rfl, -⟩ := RequestPlan.grant.inj (hgrant.symm.trans h)
    exact ⟨i, hreach⟩
  · cases hconfirm.symm.trans h

/-- A plan to confirm comes from the static branch. -/
theorem static_of_confirm {ip : Ipv4Addr} {subnet : Subnet}
    (h : ((planRequest packet ifaceIps).run (serve (SqliteDb.exec ord)) fates w).value =
      .confirm ip subnet) :
    ∃ staticIp, requestedIp packet = some ip ∧
      w.db.getStaticIpByMac ord (requestMac packet) = some staticIp ∧
      staticIp.ipAddress = ip ∧ w.db.getSubnet staticIp.subnetId = some subnet ∧
      ifaceInSubnet ifaceIps subnet = true := by
  obtain hrefuse | ⟨ip', range', subnet', i, old', -, hgrant⟩ |
      ⟨staticIp, subnet', hip, hstatic, hsub, hiface, hconfirm⟩ :=
    @planRequest_value ord w packet ifaceIps fates
  · cases hrefuse.symm.trans h
  · cases hgrant.symm.trans h
  · obtain ⟨rfl, rfl⟩ := RequestPlan.confirm.inj (hconfirm.symm.trans h)
    exact ⟨staticIp, hip, hstatic, rfl, hsub, hiface⟩

/-- Deciding a REQUEST changes nothing but the time. -/
theorem planRequest_run_state :
    ((planRequest packet ifaceIps).run (serve (SqliteDb.exec ord)) fates w).state.db = w.db ∧
      w.clock ≤ ((planRequest packet ifaceIps).run (serve (SqliteDb.exec ord)) fates w).state.clock :=
  run_reads planRequest_reads fates w

end Reads

/-! ### The writes of a REQUEST -/

section Writes

variable {ord : ScanOrder} {w : World SqliteDb} {packet : DhcpPacket} {config : DhcpConfig}
  {fates : ℕ → Fate} {ip : Ipv4Addr} {range : DynamicRange} {subnet : Subnet}

/-- The run comes down to its last call. -/
private theorem grantLease_run (reply : Except DbError ℤ) (w' : World SqliteDb)
    (h : serve (SqliteDb.exec ord) (fates 1)
      (.db (.createLease (newLease packet config ip range (w.clock + (fates 0).wait))))
      ⟨w.db, w.clock + (fates 0).wait⟩ = (reply, w')) :
    (grantLease packet config ip range subnet).run (serve (SqliteDb.exec ord)) fates w =
      ⟨reply.toOption.map fun _ => createAck packet ip subnet config, w',
        fun i => fates (i + 2)⟩ := by
  have h' : serve (SqliteDb.exec ord) (fates (0 + 1)) (.db (.createLease (newLease packet config
      ip range (serve (SqliteDb.exec ord) (fates 0) .utcNow w).1)))
      (serve (SqliteDb.exec ord) (fates 0) .utcNow w).2 = (reply, w') := h
  rw [grantLease, utcNow, Program.call_bind, Program.run_request, dbCall_bind,
    Program.run_request, h']
  cases reply <;> rfl

/-- The lease is recorded and acknowledged. -/
theorem grantLease_run_ok (hfails : (fates 1).fails = false)
    (hsub : w.db.hasSubnet range.subnetId = true) :
    (grantLease packet config ip range subnet).run (serve (SqliteDb.exec ord)) fates w =
      ⟨some (createAck packet ip subnet config),
        ⟨w.db.insertLease (newLease packet config ip range (w.clock + (fates 0).wait)),
          w.clock + (fates 0).wait + (fates 1).wait⟩, fun i => fates (i + 2)⟩ := by
  have hcreate := @SqliteDb.createLease_of_hasSubnet w.db
    (newLease packet config ip range (w.clock + (fates 0).wait)) hsub
  refine grantLease_run (.ok (w.db.leaseSeq + 1)) _ ?_
  simp only [serve, hfails, SqliteDb.exec, hcreate]
  rfl

/-- The lease cannot be recorded; nothing changes and nothing is acknowledged. -/
theorem grantLease_run_fails
    (hfails : (fates 1).fails = true ∨ w.db.hasSubnet range.subnetId = false) :
    ∃ t, w.clock ≤ t ∧
      (grantLease packet config ip range subnet).run (serve (SqliteDb.exec ord)) fates w =
        ⟨none, ⟨w.db, t⟩, fun i => fates (i + 2)⟩ := by
  refine ⟨w.clock + (fates 0).wait + (fates 1).wait, by omega, ?_⟩
  cases hf : (fates 1).fails with
  | true =>
    refine grantLease_run (.error .unavailable) _ ?_
    simp only [serve, hf]
    rfl
  | false =>
    have hcreate := @SqliteDb.createLease_of_not_hasSubnet w.db
      (newLease packet config ip range (w.clock + (fates 0).wait)) (hfails.resolve_left (by simp [hf]))
    refine grantLease_run (.error .foreignKeyViolation) _ ?_
    simp only [serve, hf, SqliteDb.exec, hcreate]
    rfl

end Writes

end Ndhcpd
