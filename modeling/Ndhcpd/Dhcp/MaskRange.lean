import Ndhcpd.Dhcp.Masks

/-!
# Masks in range

What the handlers note about mask arithmetic comes from the database or from the body of a
request, and the API stores bodies without looking at the prefix. As long as all stored prefixes
are at most 32, every mask that a packet needs is in range (`ranged_handlePacket`); and as soon as
one is longer there is a packet that needs it (`mem_masks_probe`).

`masks_in_range_iff` says exactly when nothing out of range is ever evaluated.
-/

namespace Ndhcpd

namespace Masks

/-! ### Prefixes that come from the database -/

/-- The prefix of every stored subnet is at most 32. -/
def ShortPrefixes (db : SqliteDb) : Prop := ∀ r ∈ db.subnets, r.netmask ≤ 32

/-- The call stores no prefix beyond 32. -/
def StoresShort : ServerCall → Prop
  | .db (.createSubnet subnet) => subnet.netmask ≤ 32
  | .db (.updateSubnet _ subnet) => subnet.netmask ≤ 32
  | _ => True

/-- No subnet in the answer has a prefix beyond 32. -/
def ShortReply : (c : ServerCall) → c.Reply → Prop
  | .db (.getSubnet _), .ok (some subnet) => subnet.netmask ≤ 32
  | .db .listSubnets, .ok subnets => ∀ s ∈ subnets, s.netmask ≤ 32
  | _, _ => True

section Stored

variable {ord : ScanOrder} {db : SqliteDb} {now : ℤ}

/-- **Inversion for the prefixes.** A row after a call has the prefix of a row before it, or the
prefix of the subnet that the call creates or updates. -/
theorem exec_shortPrefixes (h : ShortPrefixes db) {c : DbCall} (hc : StoresShort (.db c)) :
    ShortPrefixes (SqliteDb.exec ord now db c).2 := by
  cases hwrite : SqliteDb.mayWrite c .subnets with
  | false =>
    have hsame := (@SqliteDb.exec_sameTable ord now db c .subnets hwrite).1
    rw [ShortPrefixes, hsame]
    exact h
  | true =>
    cases c with
    | createSubnet subnet =>
      simp only [SqliteDb.exec, SqliteDb.createSubnet]
      split
      · exact h
      · intro r hr
        rcases List.mem_append.mp hr with hr | hr
        · exact h r hr
        · obtain rfl := List.mem_singleton.mp hr
          exact hc
    | updateSubnet id subnet =>
      simp only [SqliteDb.exec, SqliteDb.updateSubnet]
      split
      · exact h
      · intro r hr
        obtain ⟨old, hold, rfl⟩ := List.mem_map.mp hr
        split
        · exact hc
        · exact h old hold
    | deleteSubnet id => exact fun r hr => h r (List.mem_filter.mp hr).1
    | _ => cases hwrite

/-- What is read from short prefixes is short. -/
theorem exec_shortReply (h : ShortPrefixes db) (c : DbCall) :
    ShortReply (.db c) (SqliteDb.exec ord now db c).1 := by
  cases c with
  | getSubnet id =>
    change ShortReply (.db (.getSubnet id)) (.ok (db.getSubnet id))
    cases hget : db.getSubnet id with
    | none => trivial
    | some subnet =>
      obtain ⟨r, hr, rfl⟩ := Option.map_eq_some_iff.mp hget
      exact h r (List.mem_of_find?_eq_some hr)
  | listSubnets =>
    intro subnet hmem
    obtain ⟨r, hr, rfl⟩ := List.mem_map.mp hmem
    exact h r ((ord.subnets.mem_arrange).mp hr)
  | _ => trivial

/-- **One call.** -/
theorem serve_short (fate : Fate) (c : ServerCall) (w : World SqliteDb) (h : ShortPrefixes w.db)
    (hc : StoresShort c) :
    ShortReply c (serve (SqliteDb.exec ord) fate c w).1 ∧
      ShortPrefixes (serve (SqliteDb.exec ord) fate c w).2.db := by
  cases c with
  | utcNow => exact ⟨trivial, h⟩
  | db c =>
    cases hfails : fate.fails with
    | true =>
      simp only [serve, hfails, if_true]
      refine ⟨?_, h⟩
      cases c <;> trivial
    | false =>
      simp only [serve, hfails, Bool.false_eq_true, if_false]
      exact ⟨exec_shortReply h c, exec_shortPrefixes h hc⟩

end Stored

/-! ### All masks of a handler -/

theorem maskInRange_of_mem_operands {pfx n : UInt8} (h : pfx ≤ 32) (hn : n ∈ operands pfx) :
    MaskInRange n := by
  rw [operands] at hn
  split at hn
  · exact absurd hn List.not_mem_nil
  · next hzero =>
    obtain rfl := List.mem_singleton.mp hn
    -- the operand is positive, so that the shift is by less than 32
    have hle : n.toNat ≤ 32 := UInt8.le_iff_toNat_le.mp h
    have hpos : n.toNat ≠ 0 := fun hnat => hzero (UInt8.toNat_inj.mp hnat)
    have hsub : (32 - n).toNat = 32 - n.toNat := UInt8.toNat_sub_of_le 32 n h
    refine ⟨h, UInt8.lt_iff_toNat_lt.mpr ?_⟩
    have hwidth : (32 : UInt8).toNat = 32 := rfl
    omega

/-- All masks that the program evaluates are in range, as long as the database answers with short
prefixes and the program stores no other. -/
abbrev Ranged {α : Type} (post : α → Prop) (p : MaskProgram α) : Prop :=
  Noting.NotesWithin StoresShort ShortReply MaskInRange post p

section Ranged

open Noting

variable {packet : DhcpPacket} {ifaceIps : List Ipv4Addr} {config : DhcpConfig} {subnet : Subnet}
  {α : Type} {post : α → Prop}

theorem ranged_ask_bind {c : DbCall} (hc : StoresShort (.db c)) {k : c.Result → MaskProgram α}
    (hk : ∀ r, ShortReply (.db c) r → Ranged post (k r)) : Ranged post (ask c >>= k) :=
  notesWithin_call_bind hc hk

/-- A test of the interface against a short prefix. -/
theorem ranged_ite (h : subnet.netmask ≤ 32) {p q : MaskProgram α} (hp : Ranged post p)
    (hq : Ranged post q) :
    Ranged post (ifaceInSubnet ifaceIps subnet >>= fun b => if b then p else q) := by
  refine notesWithin_noting_bind (fun n hn => maskInRange_of_mem_operands h hn) ?_
  split
  · exact hp
  · exact hq

theorem ranged_createOffer (h : subnet.netmask ≤ 32) (ip : Ipv4Addr) :
    Ranged (fun _ => True) (do return some (← createOffer packet ip subnet config)) :=
  notesWithin_noting_bind (fun _ hn => maskInRange_of_mem_operands h hn) (notesWithin_pure trivial)

theorem ranged_createAck (h : subnet.netmask ≤ 32) (ip : Ipv4Addr) :
    Ranged (fun _ => True) (do return some (← createAck packet ip subnet config)) :=
  notesWithin_noting_bind (fun _ hn => maskInRange_of_mem_operands h hn) (notesWithin_pure trivial)

theorem ranged_discoverSubnets {leasedIps : List Ipv4Addr} {subnets : List Subnet}
    (h : ∀ s ∈ subnets, s.netmask ≤ 32) :
    Ranged (fun _ => True) (discoverSubnets packet ifaceIps config leasedIps subnets) := by
  induction subnets with
  | nil => exact notesWithin_pure trivial
  | cons subnet rest ih =>
    obtain ⟨hsubnet, hrest⟩ := List.forall_mem_cons.mp h
    rw [discoverSubnets]
    refine ranged_ite hsubnet ?_ (ih hrest)
    cases subnet.id with
    | none => exact ih hrest
    | some subnetId =>
      refine ranged_ask_bind (by trivial) fun r _ => ?_
      rcases r with e | ranges
      · exact ih hrest
      · simp only
        cases (ranges.filter (·.enabled)).findSome? (firstFreeInRange leasedIps) with
        | none => exact ih hrest
        | some candidate => exact ranged_createOffer hsubnet candidate

theorem ranged_discoverPool :
    Ranged (fun _ => True) (discoverPool packet ifaceIps config) := by
  rw [discoverPool]
  refine ranged_ask_bind (by trivial) fun r hr => ?_
  rcases r with e | subnets
  · exact notesWithin_pure trivial
  · refine ranged_ask_bind (by trivial) fun r _ => ?_
    rcases r with e | leases
    · exact notesWithin_pure trivial
    · exact ranged_discoverSubnets hr

theorem ranged_discoverLease :
    Ranged (fun _ => True) (discoverLease packet ifaceIps config) := by
  rw [discoverLease]
  refine ranged_ask_bind (by trivial) fun r _ => ?_
  rcases r with e | _ | lease
  · exact ranged_discoverPool
  · exact ranged_discoverPool
  · refine ranged_ask_bind (by trivial) fun r hr => ?_
    rcases r with e | _ | subnet
    · exact notesWithin_pure trivial
    · exact notesWithin_pure trivial
    · exact ranged_ite hr (ranged_createOffer hr lease.ipAddress) ranged_discoverPool

theorem ranged_handleDiscover :
    Ranged (fun _ => True) (handleDiscover packet ifaceIps config) := by
  rw [handleDiscover]
  refine ranged_ask_bind (by trivial) fun r _ => ?_
  rcases r with e | _ | staticIp
  · exact ranged_discoverLease
  · exact ranged_discoverLease
  · refine ranged_ask_bind (by trivial) fun r hr => ?_
    rcases r with e | _ | subnet
    · exact notesWithin_pure trivial
    · exact notesWithin_pure trivial
    · exact ranged_ite hr (ranged_createOffer hr staticIp.ipAddress) ranged_discoverLease

/-- The subnet of the range that is found has a short prefix too: the acknowledgement is made
from it. -/
theorem ranged_findMatchingRange (ip : Ipv4Addr) (ranges : List DynamicRange) :
    Ranged (fun found => ∀ m ∈ found, m.2.netmask ≤ 32)
      (findMatchingRange ifaceIps ip ranges) := by
  have hnone : ∀ m ∈ (none : Option (DynamicRange × Subnet)), m.2.netmask ≤ 32 := by simp
  induction ranges with
  | nil => exact notesWithin_pure hnone
  | cons r rest ih =>
    rw [findMatchingRange]
    split
    · refine ranged_ask_bind (by trivial) fun r hr => ?_
      rcases r with e | _ | subnet
      · exact ih
      · exact ih
      · refine ranged_ite hr (notesWithin_pure fun m hm => ?_) ih
        obtain rfl := Option.mem_some_iff.mp hm
        exact hr
    · exact ih

theorem ranged_grantLease (h : subnet.netmask ≤ 32) (ip : Ipv4Addr) (range : DynamicRange) :
    Ranged (fun _ => True) (grantLease packet config ip range subnet) := by
  refine notesWithin_call_bind trivial fun now _ => ranged_ask_bind (by trivial) fun r _ => ?_
  rcases r with e | id
  · exact notesWithin_pure trivial
  · exact ranged_createAck h ip

theorem ranged_settleRequest (h : subnet.netmask ≤ 32) (ip : Ipv4Addr) (range : DynamicRange)
    (activeLeases : List Lease) :
    Ranged (fun _ => True) (settleRequest packet config ip range subnet activeLeases) := by
  rw [settleRequest]
  cases activeLeases.find? (·.ipAddress == ip) with
  | none => exact ranged_grantLease h ip range
  | some existing =>
    simp only
    split
    · exact notesWithin_pure trivial
    · cases existing.id with
      | none => exact ranged_grantLease h ip range
      | some id => exact ranged_ask_bind (by trivial) fun _ _ => ranged_grantLease h ip range

theorem ranged_requestDynamic (ip : Ipv4Addr) :
    Ranged (fun _ => True) (requestDynamic packet ifaceIps config ip) := by
  rw [requestDynamic]
  refine ranged_ask_bind (by trivial) fun r _ => ?_
  rcases r with e | ranges
  · exact notesWithin_pure trivial
  · -- the subnet goes from the search into the acknowledgement
    refine notesWithin_bind (ranged_findMatchingRange ip ranges) fun found hfound => ?_
    rcases found with _ | ⟨range, subnet⟩
    · exact notesWithin_pure trivial
    · have hsubnet : subnet.netmask ≤ 32 := hfound (range, subnet) rfl
      refine ranged_ask_bind (by trivial) fun r _ => ?_
      rcases r with e | activeLeases
      · exact notesWithin_pure trivial
      · exact ranged_settleRequest hsubnet ip range activeLeases

theorem ranged_requestStatic (ip : Ipv4Addr) (staticIp : StaticIP) :
    Ranged (fun _ => True) (requestStatic packet ifaceIps config ip staticIp) := by
  rw [requestStatic]
  split
  · refine ranged_ask_bind (by trivial) fun r hr => ?_
    rcases r with e | _ | subnet
    · exact notesWithin_pure trivial
    · exact notesWithin_pure trivial
    · exact ranged_ite hr (ranged_createAck hr ip) (notesWithin_pure trivial)
  · exact notesWithin_pure trivial

theorem ranged_handleRequest :
    Ranged (fun _ => True) (handleRequest packet ifaceIps config) := by
  rw [handleRequest]
  cases requestedIp packet with
  | none => exact notesWithin_pure trivial
  | some ip =>
    refine ranged_ask_bind (by trivial) fun r _ => ?_
    rcases r with e | _ | staticIp
    · exact ranged_requestDynamic ip
    · exact ranged_requestDynamic ip
    · exact ranged_requestStatic ip staticIp

/-- A RELEASE stores no subnet. -/
theorem only_handleRelease : (handleRelease packet).Only StoresShort := by
  rw [handleRelease, dbCall_bind]
  refine ⟨trivial, fun r => ?_⟩
  rcases r with e | _ | lease
  · trivial
  · trivial
  · simp only
    cases lease.id with
    | none => trivial
    | some id => exact ⟨trivial, fun _ => trivial⟩

/-- **The packet handler.** -/
theorem ranged_handlePacket :
    Ranged (fun _ => True) (handlePacket packet ifaceIps config) := by
  rw [handlePacket]
  rcases packet.getMessageType with _ | type
  · exact notesWithin_pure trivial
  · cases type with
    | discover => exact ranged_handleDiscover
    | request => exact ranged_handleRequest
    | release => exact notesWithin_lift_bind only_handleRelease fun _ => notesWithin_pure trivial
    | _ => exact notesWithin_pure trivial

theorem ranged_anyOverlap (h : subnet.netmask ≤ 32) {existing : List Subnet}
    (hexisting : ∀ s ∈ existing, s.netmask ≤ 32) :
    Ranged (fun _ => True) (anyOverlap subnet existing) := by
  induction existing with
  | nil => exact notesWithin_pure trivial
  | cons e rest ih =>
    obtain ⟨he, hrest⟩ := List.forall_mem_cons.mp hexisting
    rw [anyOverlap]
    refine notesWithin_noting_bind (fun n hn => ?_) ?_
    · rcases List.mem_append.mp hn with hn | hn
      · exact maskInRange_of_mem_operands h hn
      · exact maskInRange_of_mem_operands he hn
    · split
      · exact notesWithin_pure trivial
      · exact ih hrest

/-- **The creation of subnets**, with a short prefix. -/
theorem ranged_createSubnet (h : subnet.netmask ≤ 32) :
    Ranged (fun _ => True) (createSubnet subnet) := by
  rw [createSubnet]
  refine ranged_ask_bind (by trivial) fun r hr => ?_
  rcases r with e | existing
  · exact notesWithin_pure trivial
  · refine notesWithin_bind (ranged_anyOverlap h hr) fun overlap _ => ?_
    split
    · exact notesWithin_pure trivial
    · refine ranged_ask_bind (by exact h) fun r _ => ?_
      rcases r with e | id <;> exact notesWithin_pure trivial

end Ranged

end Masks

/-! ### What the daemon is asked to do -/

/-- Something the daemon is asked to do. The last case is for all other endpoints and tasks: a
database call that leaves the subnets alone. -/
inductive Activity
  | create (body : Subnet)
  | update (id : ℤ) (body : Subnet)
  | delete (id : ℤ)
  | packet (d : Datagram)
  | other (c : DbCall) (hc : SqliteDb.mayWrite c .subnets = false)

/-- The world, with the operands of all masks evaluated so far. -/
structure Audited where
  world : World SqliteDb
  evaluated : List UInt8

namespace Activity

open Noting (lift erase)

variable (ord : ScanOrder) (config : DhcpConfig)

/-- The program that handles the activity. -/
def handler : Activity → ServerProgram Unit
  | create body => Api.createSubnet body >>= fun _ => pure ()
  | update id body => Api.updateSubnet id body >>= fun _ => pure ()
  | delete id => Api.deleteSubnet id >>= fun _ => pure ()
  | packet d => handlePacket d.packet d.ifaceIps config >>= fun _ => pure ()
  | other c _ => dbCall c >>= fun _ => pure ()

/-- The same program, with the operands noted. -/
def program : Activity → MaskProgram Unit
  | create body => Masks.createSubnet body >>= fun _ => pure ()
  | update id body => lift (Api.updateSubnet id body) >>= fun _ => pure ()
  | delete id => lift (Api.deleteSubnet id) >>= fun _ => pure ()
  | packet d => Masks.handlePacket d.packet d.ifaceIps config >>= fun _ => pure ()
  | other c _ => Masks.ask c >>= fun _ => pure ()

theorem erase_program (a : Activity) : erase (a.program config) = a.handler config := by
  cases a with
  | create body => rw [program, Noting.erase_bind, Masks.erase_createSubnet]; rfl
  | packet d => rw [program, Noting.erase_bind, Masks.erase_handlePacket]; rfl
  | other c hc => exact Masks.erase_ask_bind c _
  | update id body => rw [program, Noting.erase_bind, Noting.erase_lift]; rfl
  | delete id => rw [program, Noting.erase_bind, Noting.erase_lift]; rfl

/-- The masks that are evaluated in the course of an activity. -/
def masks (w : World SqliteDb) (a : Activity × (ℕ → Fate)) : List UInt8 :=
  (Program.run (serve (SqliteDb.exec ord)) (a.1.program config) a.2 w).value.2

/-- The world after an activity, and the masks evaluated until then. -/
def step (s : Audited) (a : Activity × (ℕ → Fate)) : Audited :=
  ⟨(Program.run (serve (SqliteDb.exec ord)) (a.1.program config) a.2 s.world).state,
    s.evaluated ++ masks ord config s.world a⟩

end Activity

/-- All masks evaluated so far are in range, and so are those that any packet will need that
comes in now. -/
def Audited.InRange (ord : ScanOrder) (config : DhcpConfig) (s : Audited) : Prop :=
  (∀ n ∈ s.evaluated, MaskInRange n) ∧
    ∀ d fates, ∀ n ∈ Activity.masks ord config s.world (.packet d, fates), MaskInRange n

section Audit

open Noting

variable {ord : ScanOrder} {config : DhcpConfig} {s : Audited} {w : World SqliteDb}

/-- The world changes as the handler makes it change. -/
theorem Activity.step_world (s : Audited) (a : Activity × (ℕ → Fate)) :
    (Activity.step ord config s a).world =
      ((a.1.handler config).run (serve (SqliteDb.exec ord)) a.2 s.world).state := by
  rw [← Activity.erase_program, Noting.run_erase]
  rfl

/-! ### Short prefixes stay in range -/

/-- The body of the request, if there is one, has a prefix of at most 32. -/
def Activity.BodyShort : Activity → Prop
  | create body => body.netmask ≤ 32
  | update _ body => body.netmask ≤ 32
  | _ => True

theorem Activity.ranged_program {a : Activity} (h : a.BodyShort) :
    Masks.Ranged (fun _ => True) (a.program config) := by
  cases a with
  | create body =>
    exact notesWithin_bind (Masks.ranged_createSubnet h) fun _ _ => notesWithin_pure trivial
  | update id body =>
    have honly : (Api.updateSubnet id body).Only Masks.StoresShort := by
      refine ⟨h, fun r => ?_⟩
      rcases r with e | u <;> trivial
    exact notesWithin_lift_bind honly fun _ => notesWithin_pure trivial
  | delete id =>
    have honly : (Api.deleteSubnet id).Only Masks.StoresShort := by
      refine ⟨trivial, fun r => ?_⟩
      rcases r with e | u <;> trivial
    exact notesWithin_lift_bind honly fun _ => notesWithin_pure trivial
  | packet d => exact notesWithin_bind Masks.ranged_handlePacket fun _ _ => notesWithin_pure trivial
  | other c hc =>
    have hshort : Masks.StoresShort (.db c) := by
      cases c <;> trivial
    exact Masks.ranged_ask_bind hshort fun _ _ => notesWithin_pure trivial

/-- **From short prefixes to short prefixes.** -/
theorem Activity.step_of_bodyShort (h : Masks.ShortPrefixes w.db) (a : Activity × (ℕ → Fate))
    (ha : a.1.BodyShort) (evaluated : List UInt8) :
    (∀ n ∈ Activity.masks ord config w a, MaskInRange n) ∧
      Masks.ShortPrefixes (Activity.step ord config ⟨w, evaluated⟩ a).world.db := by
  obtain ⟨hvalue, hstate⟩ := Program.Within.run (I := fun w => Masks.ShortPrefixes w.db)
    (fun i c w hw hc => Masks.serve_short i c w hw hc) (Activity.ranged_program ha) a.2 h
  exact ⟨hvalue.2, hstate⟩

/-! ### A packet that needs every mask -/

namespace Masks

/-- On an interface without addresses the pool scan tests every subnet. -/
theorem notes_discoverSubnets (packet : DhcpPacket) (leasedIps : List Ipv4Addr)
    (subnets : List Subnet) (fates : ℕ → Fate) (w : World SqliteDb) :
    (Program.run (serve (SqliteDb.exec ord))
        (discoverSubnets packet [] config leasedIps subnets) fates w).value.2 =
      subnets.flatMap fun s => operands s.netmask := by
  induction subnets with
  | nil => rfl
  | cons subnet rest ih =>
    rw [discoverSubnets, ifaceInSubnet, notes_bind, List.flatMap_cons]
    exact congrArg (operands subnet.netmask ++ ·) ih

/-- A failing call. -/
theorem run_ask_fails {α : Type} {c : DbCall} {k : c.Result → MaskProgram α} {fates : ℕ → Fate}
    (h : (fates 0).fails = true) :
    Program.run (serve (SqliteDb.exec ord)) (ask c >>= k : MaskProgram α) fates w =
      Program.run (serve (SqliteDb.exec ord)) (k (.error .unavailable)) (fun i => fates (i + 1))
        ⟨w.db, w.clock + (fates 0).wait⟩ := by
  rw [ask, dbCall, run_call_bind]
  simp only [serve, h, if_true]

/-- A call that succeeds. -/
theorem run_ask_succeeds {α : Type} {c : DbCall} {k : c.Result → MaskProgram α}
    {fates : ℕ → Fate} (h : (fates 0).fails = false) :
    Program.run (serve (SqliteDb.exec ord)) (ask c >>= k : MaskProgram α) fates w =
      Program.run (serve (SqliteDb.exec ord))
        (k (SqliteDb.exec ord (w.clock + (fates 0).wait) w.db c).1) (fun i => fates (i + 1))
        ⟨(SqliteDb.exec ord (w.clock + (fates 0).wait) w.db c).2, w.clock + (fates 0).wait⟩ := by
  rw [ask, dbCall, run_call_bind]
  simp only [serve, h, Bool.false_eq_true, if_false]

/-- So does a DISCOVER whose sender is found neither among the static assignments nor among the
leases. -/
theorem notes_handleDiscover (packet : DhcpPacket) {fates : ℕ → Fate}
    (hstatic : (fates 0).fails = true) (hlease : (fates 1).fails = true)
    (hsubnets : (fates 2).fails = false) (hleases : (fates 3).fails = false) :
    (Program.run (serve (SqliteDb.exec ord)) (handleDiscover packet [] config) fates w).value.2 =
      (w.db.listSubnets ord).flatMap fun s => operands s.netmask := by
  rw [handleDiscover, run_ask_fails hstatic]
  simp only
  rw [discoverLease, run_ask_fails hlease]
  simp only
  rw [discoverPool, run_ask_succeeds hsubnets]
  simp only [SqliteDb.exec]
  rw [run_ask_succeeds hleases]
  exact notes_discoverSubnets _ _ _ _ _

end Masks

/-- A DISCOVER that comes in on an interface without addresses. -/
def Activity.probe : Activity :=
  .packet ⟨{ DhcpPacket.new with options := [.messageType .discover] }, []⟩

/-- The first two calls fail. -/
def Activity.probeFates (i : ℕ) : Fate := ⟨0, i < 2⟩

/-- The prefix of every stored subnet is evaluated for the probe. -/
theorem Activity.mem_masks_probe {r : SubnetRow} (hr : r ∈ w.db.subnets) (hzero : r.netmask ≠ 0) :
    r.netmask ∈ Activity.masks ord config w (.probe, Activity.probeFates) := by
  have hmasks : Activity.masks ord config w (.probe, Activity.probeFates) =
      (w.db.listSubnets ord).flatMap fun s => Masks.operands s.netmask :=
    (notes_bind_pure _ (Masks.handleDiscover _ [] config) _ _ _).trans
      (Masks.notes_handleDiscover _ rfl rfl rfl rfl)
  rw [hmasks, List.mem_flatMap]
  refine ⟨r.toSubnet, List.mem_map.mpr ⟨r, ord.subnets.mem_arrange.mpr hr, rfl⟩, ?_⟩
  simp [Masks.operands, SubnetRow.toSubnet, hzero]

/-- **In range means short prefixes.** What packets evaluate is in range exactly if all stored
prefixes are short. -/
theorem Audited.inRange_iff :
    s.InRange ord config ↔
      (∀ n ∈ s.evaluated, MaskInRange n) ∧ Masks.ShortPrefixes s.world.db := by
  refine and_congr_right fun _ => ⟨fun h r hr => ?_, fun h d fates => ?_⟩
  · -- the probe needs the mask of every stored subnet but a /0
    by_cases hzero : r.netmask = 0
    · rw [hzero]
      decide
    · exact (h _ _ r.netmask (Activity.mem_masks_probe hr hzero)).1
  · exact (Activity.step_of_bodyShort h (.packet d, fates) trivial []).1

/-! ### Long prefixes -/

/-- The activity stores no prefix beyond 32, and compares none with a stored subnet. -/
def Activity.Harmless (s : Audited) : Activity × (ℕ → Fate) → Prop
  | (.create body, fates) => body.netmask ≤ 32 ∨ (fates 0).fails = true ∨
      s.world.db.subnets = [] ∧ (fates 1).fails = true
  | (.update id body, fates) => body.netmask ≤ 32 ∨ (fates 0).fails = true ∨
      s.world.db.acceptsUpdate id body = false
  | _ => True

theorem Activity.harmless_of_bodyShort {a : Activity × (ℕ → Fate)} (h : a.1.BodyShort) :
    Activity.Harmless s a := by
  obtain ⟨a, fates⟩ := a
  cases a with
  | create body => exact .inl h
  | update id body => exact .inl h
  | _ => trivial

/-- A request with a long prefix that changes no table is harmless if it evaluates nothing. -/
theorem Audited.inRange_step_iff {a : Activity × (ℕ → Fate)} (h : s.InRange ord config)
    (hmasks : Activity.masks ord config s.world a = []) :
    (Activity.step ord config s a).InRange ord config ↔
      Masks.ShortPrefixes (Activity.step ord config s a).world.db := by
  rw [Audited.inRange_iff, Activity.step, hmasks, List.append_nil]
  exact and_iff_right h.1

/-- **An update with a long prefix** is harmless exactly if it is not carried out. -/
theorem Activity.update_inRange_iff (h : s.InRange ord config) {id : ℤ} {body : Subnet}
    (hlong : ¬ body.netmask ≤ 32) (fates : ℕ → Fate) :
    (Activity.step ord config s (.update id body, fates)).InRange ord config ↔
      (fates 0).fails = true ∨ s.world.db.acceptsUpdate id body = false := by
  have hshort := (Audited.inRange_iff.mp h).2
  have hmasks : Activity.masks ord config s.world (.update id body, fates) = [] :=
    (notes_bind_pure _ (lift (Api.updateSubnet id body)) _ _ _).trans (notes_lift _ _ _ _)
  have hdb : (Activity.step ord config s (.update id body, fates)).world.db =
      if (fates 0).fails then s.world.db else (s.world.db.updateSubnet id body).2 := by
    rw [Activity.step_world, Activity.handler, Program.run_bind_pure_state]
    exact Api.updateSubnet_run id body
  rw [Audited.inRange_step_iff h hmasks, hdb]
  cases hfails : (fates 0).fails with
  | true => exact iff_of_true hshort (.inl rfl)
  | false =>
    rw [if_neg Bool.false_ne_true]
    cases haccept : s.world.db.acceptsUpdate id body with
    | false =>
      rw [SqliteDb.updateSubnet_of_not_accepts haccept]
      exact iff_of_true hshort (.inr rfl)
    | true =>
      rw [SqliteDb.updateSubnet_of_accepts haccept]
      refine iff_of_false (fun hall => hlong ?_) (by simp)
      -- the updated row is among the new ones
      obtain ⟨r, hr, hid⟩ := SqliteDb.exists_of_acceptsUpdate haccept
      have hrow : updatedRow id body r = body.toRow id := by simp [updatedRow, hid]
      exact hall (body.toRow id) (List.mem_map.mpr ⟨r, hr, hrow⟩)

/-- A creation that cannot read the subnets ends there. -/
theorem Activity.create_of_fails {body : Subnet} {fates : ℕ → Fate} (h : (fates 0).fails = true) :
    Activity.masks ord config s.world (.create body, fates) = [] ∧
      (Activity.step ord config s (.create body, fates)).world.db = s.world.db := by
  constructor
  · refine (notes_bind_pure _ (Masks.createSubnet body) _ _ _).trans ?_
    rw [Masks.createSubnet, Masks.run_ask_fails h]
    rfl
  · rw [Activity.step_world, Activity.handler, Program.run_bind_pure_state, Api.createSubnet,
      dbCall_bind, Program.run_request]
    simp only [serve, h, if_true]
    rfl

/-- The first subnet is compared with nothing, and stored if the statement does not fail. -/
theorem Activity.create_of_empty {body : Subnet} {fates : ℕ → Fate}
    (hread : (fates 0).fails = false) (hempty : s.world.db.subnets = []) :
    Activity.masks ord config s.world (.create body, fates) = [] ∧
      (Activity.step ord config s (.create body, fates)).world.db =
        if (fates 1).fails then s.world.db else (s.world.db.createSubnet body).2 := by
  have hlist : s.world.db.listSubnets ord = [] := by
    rw [SqliteDb.listSubnets, hempty, (ord.subnets.perm []).eq_nil]
    rfl
  constructor
  · refine (notes_bind_pure _ (Masks.createSubnet body) _ _ _).trans ?_
    rw [Masks.createSubnet, Masks.run_ask_succeeds hread]
    simp only [SqliteDb.exec, hlist]
    rw [notes_bind, Masks.ask, dbCall]
    change (Program.run _ (lift (Program.call (ServerCall.db (.createSubnet body))) >>= _ :
      MaskProgram _) _ _).value.2 = []
    rw [run_call_bind]
    generalize (serve (SqliteDb.exec ord) _ (ServerCall.db (.createSubnet body)) _).1 = reply
    rcases reply with e | id <;> rfl
  · rw [Activity.step_world, Activity.handler, Program.run_bind_pure_state, Api.createSubnet,
      dbCall_bind, Program.run_request]
    simp only [serve, hread, Bool.false_eq_true, if_false, SqliteDb.exec, hlist]
    exact run_statement (by rintro (e | u) <;> exact ⟨_, rfl⟩)

/-- Any later subnet is compared with a stored one. -/
theorem Activity.mem_masks_create {body : Subnet} {fates : ℕ → Fate}
    (hread : (fates 0).fails = false) (hne : s.world.db.subnets ≠ []) (hzero : body.netmask ≠ 0) :
    body.netmask ∈ Activity.masks ord config s.world (.create body, fates) := by
  obtain ⟨e, rest, hlist⟩ : ∃ e rest, s.world.db.listSubnets ord = e :: rest := by
    refine List.exists_cons_of_ne_nil fun hnil => hne ?_
    have hperm := ord.subnets.perm s.world.db.subnets
    rw [List.map_eq_nil_iff.mp hnil] at hperm
    exact hperm.nil_eq.symm
  have hoperand : body.netmask ∈ Masks.operands body.netmask := by simp [Masks.operands, hzero]
  have hmasks := notes_bind_pure (serve (SqliteDb.exec ord)) (Masks.createSubnet body)
    (fun _ => ()) fates s.world
  refine (congrArg (body.netmask ∈ ·) hmasks).mpr ?_
  rw [Masks.createSubnet, Masks.run_ask_succeeds hread]
  simp only [SqliteDb.exec, hlist]
  rw [notes_bind, Masks.anyOverlap, notes_bind]
  exact List.mem_append_left _ (List.mem_append_left _ (List.mem_append_left _ hoperand))

/-- **A creation with a long prefix** is harmless exactly if it ends before the prefix is
compared or stored. -/
theorem Activity.create_inRange_iff (h : s.InRange ord config) {body : Subnet}
    (hlong : ¬ body.netmask ≤ 32) (fates : ℕ → Fate) :
    (Activity.step ord config s (.create body, fates)).InRange ord config ↔
      (fates 0).fails = true ∨ s.world.db.subnets = [] ∧ (fates 1).fails = true := by
  have hshort := (Audited.inRange_iff.mp h).2
  cases hread : (fates 0).fails with
  | true =>
    obtain ⟨hmasks, hdb⟩ := @Activity.create_of_fails ord config s body fates hread
    rw [Audited.inRange_step_iff h hmasks, hdb]
    exact iff_of_true hshort (.inl rfl)
  | false =>
    by_cases hempty : s.world.db.subnets = []
    · -- the first subnet: nothing is compared, so only the insertion counts
      obtain ⟨hmasks, hdb⟩ := @Activity.create_of_empty ord config s body fates hread hempty
      rw [Audited.inRange_step_iff h hmasks, hdb]
      cases hinsert : (fates 1).fails with
      | true => exact iff_of_true hshort (.inr ⟨hempty, rfl⟩)
      | false =>
        refine iff_of_false (fun hall => hlong ?_) (by simp)
        rw [if_neg Bool.false_ne_true] at hall
        refine hall (body.toRow (s.world.db.subnetSeq + 1)) ?_
        simp [SqliteDb.createSubnet, hempty]
    · refine iff_of_false (fun hall => hlong ?_) (by simp [hempty])
      -- a later one: its own prefix is an operand of the overlap test
      have hzero : body.netmask ≠ 0 := by
        intro hzero
        exact hlong (hzero ▸ by decide)
      have hmem := @Activity.mem_masks_create ord config s body fates hread hempty hzero
      exact (hall.1 body.netmask (List.mem_append_right _ hmem)).1

/-- **One activity.** Where everything has been in range, it stays so exactly if the activity is
harmless. -/
theorem Activity.step_inRange_iff (h : s.InRange ord config) (a : Activity × (ℕ → Fate)) :
    (Activity.step ord config s a).InRange ord config ↔ Activity.Harmless s a := by
  have hshort := (Audited.inRange_iff.mp h).2
  by_cases hbody : a.1.BodyShort
  · refine iff_of_true (Audited.inRange_iff.mpr ?_) (Activity.harmless_of_bodyShort hbody)
    obtain ⟨hmasks, hstep⟩ :=
      @Activity.step_of_bodyShort ord config s.world hshort a hbody s.evaluated
    refine ⟨fun n hn => ?_, hstep⟩
    rcases List.mem_append.mp hn with hn | hn
    · exact h.1 n hn
    · exact hmasks n hn
  · obtain ⟨a, fates⟩ := a
    cases a with
    | create body =>
      exact (Activity.create_inRange_iff h hbody fates).trans (or_iff_right hbody).symm
    | update id body =>
      exact (Activity.update_inRange_iff h hbody fates).trans (or_iff_right hbody).symm
    | _ => exact absurd trivial hbody

end Audit

/-- **When no mask is out of range.** Start on the database as the migrations leave it, and let the
daemon do anything it can be asked to do, one thing after the other: create, update and delete
subnets with any prefixes, handle packets, work on the other tables, with any calls failing. In
every state reached, all masks evaluated so far and all masks that a packet can need there are in
range, if and only if no request on the way brings in a prefix beyond 32: it is not stored, and
not compared with a stored subnet. -/
theorem masks_in_range_iff (ord : ScanOrder) (config : DhcpConfig) (clock : ℤ)
    (activities : List (Activity × (ℕ → Fate))) :
    (∀ done, done <+: activities →
      (Run.after (Activity.step ord config) ⟨⟨.empty, clock⟩, []⟩ done).InRange ord config) ↔
    Run.Along (Activity.step ord config) Activity.Harmless ⟨⟨.empty, clock⟩, []⟩ activities := by
  have hempty : (⟨⟨.empty, clock⟩, []⟩ : Audited).InRange ord config := by
    rw [Audited.inRange_iff]
    exact ⟨fun n hn => absurd hn List.not_mem_nil, fun r hr => absurd hr List.not_mem_nil⟩
  exact @Run.forall_prefix_iff _ _ (Activity.step ord config) Activity.Harmless
    ⟨⟨.empty, clock⟩, []⟩ activities (fun s => s.InRange ord config)
    (fun s => s.InRange ord config) (fun _ h => h) (fun _ a h => Activity.step_inRange_iff h a)
    (fun _ a h => (Activity.step_inRange_iff h a).mpr) hempty

namespace Sample

/-- A subnet with a prefix of 33 is created, and a client looks for an address. -/
def tooLong : List (Activity × (ℕ → Fate)) :=
  [(.create ⟨none, .new 10 0 0 0, 33, .new 10 0 0 1, [], none⟩, fun _ => .calm),
    (.packet ⟨discover alice, iface⟩, fun _ => .calm)]

end Sample

/-- The mask of the client's network is `!0 << (32 - 33)`. -/
theorem prefix_33_evaluated : ¬ ∀ done, done <+: Sample.tooLong →
    (Run.after (Activity.step .rowid Sample.config) ⟨⟨.empty, 0⟩, []⟩ done).InRange .rowid
      Sample.config := by
  intro h
  have hmem : 33 ∈ (Run.after (Activity.step .rowid Sample.config) ⟨⟨.empty, 0⟩, []⟩
      Sample.tooLong).evaluated := by decide
  have hrange := (h Sample.tooLong (List.prefix_refl _)).1 33 hmem
  exact absurd hrange.1 (by decide)

end Ndhcpd
