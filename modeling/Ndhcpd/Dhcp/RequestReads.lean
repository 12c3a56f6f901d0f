import Ndhcpd.Dhcp.Offers

/-!
# REQUEST on any store

What the reads of a REQUEST decide does not depend on how the store keeps its rows, but only on what
it answers. `RequestReads` are these answers, `RequestReads.plan` is the decision on them, and
`planRequest_calmly_of` says that a calm run on a store with these answers comes to this decision and
changes nothing.
-/

namespace Ndhcpd

/-- What the reads of a REQUEST answer: the static assignment of a client, the subnet with an id,
the ranges, and the first active lease on an address. -/
structure RequestReads where
  staticOf : String → Option StaticIP
  subnet : ℤ → Option Subnet
  ranges : List DynamicRange
  holder : Ipv4Addr → Option Lease

namespace RequestReads

variable (v : RequestReads) (packet : DhcpPacket) (ifaceIps : List Ipv4Addr)

/-- The first enabled range that covers the address and is reachable via the interface. -/
def serving (ip : Ipv4Addr) : Option DynamicRange :=
  v.ranges.find? fun r =>
    r.enabled && r.covers ip && (v.subnet r.subnetId).any (ifaceInSubnet ifaceIps)

/-- The decision on a client with a static assignment. -/
def planStatic (ip : Ipv4Addr) (staticIp : StaticIP) : RequestPlan :=
  if staticIp.ipAddress = ip then
    match v.subnet staticIp.subnetId with
    | some subnet => if ifaceInSubnet ifaceIps subnet then .confirm ip subnet else .refuse
    | none => .refuse
  else .refuse

/-- The decision on a client without one. -/
def planDynamic (ip : Ipv4Addr) : RequestPlan :=
  match v.serving ifaceIps ip with
  | none => .refuse
  | some range =>
    match v.subnet range.subnetId with
    | none => .refuse
    | some subnet =>
      match v.holder ip with
      | none => .grant ip range subnet none
      | some existing =>
        if existing.macAddress ≠ requestMac packet then .refuse
        else .grant ip range subnet existing.id

/-- What the reads decide. -/
def plan : RequestPlan :=
  match requestedIp packet with
  | none => .refuse
  | some ip =>
    match v.staticOf (requestMac packet) with
    | some staticIp => v.planStatic ifaceIps ip staticIp
    | none => v.planDynamic packet ifaceIps ip

variable {v packet ifaceIps}

/-- A grant is for the requested address, from a range whose subnet exists, and an old lease is the
first active one on the address. -/
theorem of_plan_eq_grant {ip : Ipv4Addr} {range : DynamicRange} {subnet : Subnet}
    {old : Option ℤ} (h : v.plan packet ifaceIps = .grant ip range subnet old) :
    requestedIp packet = some ip ∧ v.subnet range.subnetId = some subnet ∧
      ∀ id, old = some id → ∃ l, v.holder ip = some l ∧ l.id = some id := by
  unfold plan at h
  split at h
  · cases h
  · next ip' hip =>
    split at h
    · -- a static assignment is confirmed or refused
      unfold planStatic at h
      split at h
      · split at h
        · split at h <;> cases h
        · cases h
      · cases h
    · unfold planDynamic at h
      split at h
      · cases h
      · split at h
        · cases h
        · next hsubnet =>
          split at h
          · cases h
            exact ⟨hip, hsubnet, by simp⟩
          · next existing hholder =>
            split at h
            · cases h
            · cases h
              exact ⟨hip, hsubnet, fun id hid => ⟨existing, hholder, hid⟩⟩

end RequestReads

/-- The store gives these answers, and reading changes nothing. -/
structure ReadsAs {σ : Type} (store : Store σ) (w : World σ) (v : RequestReads) : Prop where
  staticOf : ∀ mac, store w.clock w.db (.getStaticIpByMac mac) = (.ok (v.staticOf mac), w.db)
  subnet : ∀ id, store w.clock w.db (.getSubnet id) = (.ok (v.subnet id), w.db)
  ranges : store w.clock w.db (.listRanges none) = (.ok v.ranges, w.db)
  active : ∃ active, store w.clock w.db .listActiveLeases = (.ok active, w.db) ∧
    ∀ ip, active.find? (·.ipAddress == ip) = v.holder ip

section Run

variable {σ : Type} {store : Store σ} {w : World σ} {v : RequestReads} {packet : DhcpPacket}
  {ifaceIps : List Ipv4Addr} {ip : Ipv4Addr} (h : ReadsAs store w v)
include h

/-- The loop over the ranges finds the first one that serves the address. -/
theorem ReadsAs.findMatchingRange (ranges : List DynamicRange) :
    (findMatchingRange ifaceIps ip ranges).run (serve store) calmly w =
      ⟨(ranges.find? fun r => r.enabled && r.covers ip &&
          (v.subnet r.subnetId).any (ifaceInSubnet ifaceIps)).bind fun r =>
        (v.subnet r.subnetId).map (r, ·), w, calmly⟩ := by
  induction ranges with
  | nil => rfl
  | cons r rest ih =>
    rw [Ndhcpd.findMatchingRange, List.find?_cons]
    cases hcovers : r.enabled && r.covers ip with
    | false =>
      rw [if_neg Bool.false_ne_true, Bool.false_and]
      exact ih
    | true =>
      rw [if_pos rfl, run_call_calmly (h.subnet r.subnetId), Bool.true_and]
      cases hsubnet : v.subnet r.subnetId with
      | none => exact ih
      | some subnet =>
        simp only [Option.any_some]
        cases hiface : ifaceInSubnet ifaceIps subnet with
        | false =>
          rw [if_neg Bool.false_ne_true]
          exact ih
        | true => simp [hsubnet]

private theorem ReadsAs.planStatic (staticIp : StaticIP) :
    (Ndhcpd.planStatic ifaceIps ip staticIp).run (serve store) calmly w =
      ⟨v.planStatic ifaceIps ip staticIp, w, calmly⟩ := by
  simp only [Ndhcpd.planStatic, RequestReads.planStatic]
  split
  · rw [run_call_calmly (h.subnet staticIp.subnetId)]
    cases v.subnet staticIp.subnetId with
    | none => rfl
    | some subnet =>
      simp only
      split <;> rfl
  · rfl

private theorem ReadsAs.planDynamic :
    (Ndhcpd.planDynamic packet ifaceIps ip).run (serve store) calmly w =
      ⟨v.planDynamic packet ifaceIps ip, w, calmly⟩ := by
  obtain ⟨active, hactive, hholder⟩ := h.active
  have hserving : (v.ranges.find? fun r => r.enabled && r.covers ip &&
      (v.subnet r.subnetId).any (ifaceInSubnet ifaceIps)) = v.serving ifaceIps ip := rfl
  simp only [Ndhcpd.planDynamic, planRange, RequestReads.planDynamic, Program.bind_assoc]
  rw [run_call_calmly h.ranges]
  simp only
  rw [Program.run_bind, h.findMatchingRange, hserving]
  rcases v.serving ifaceIps ip with _ | range
  · rfl
  · simp only [Option.bind_some]
    rcases v.subnet range.subnetId with _ | subnet
    · rfl
    · simp only [Option.map_some]
      rw [run_call_calmly hactive]
      simp only [planLease, hholder ip]
      rfl

/-- **The reads** of a REQUEST in a calm run. -/
theorem planRequest_calmly_of :
    (planRequest packet ifaceIps).run (serve store) calmly w =
      ⟨v.plan packet ifaceIps, w, calmly⟩ := by
  rw [planRequest, RequestReads.plan]
  cases requestedIp packet with
  | none => rfl
  | some ip =>
    simp only
    rw [run_call_calmly (h.staticOf (requestMac packet))]
    cases v.staticOf (requestMac packet) with
    | some staticIp => exact h.planStatic staticIp
    | none => exact h.planDynamic

end Run

end Ndhcpd
