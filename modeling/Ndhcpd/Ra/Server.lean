import Ndhcpd.Ra.Packet
import Ndhcpd.Api.IaPrefixes

/-!
# The Router Advertisement server

`send_ra` lists the prefixes of an interface and sends one advertisement for all of them, if
there are any. Hosts drop a prefix whose preferred lifetime is zero or exceeds the valid one, and
stop using DNS servers whose lifetime is zero: an option is *usable* if this does not happen.

`lifetimes_usable` follows the lifetimes from the requests that write them, through the table,
to the options that are sent. The invariant is `Serviceable`, of every row on its own; the RDNSS
option takes the longest lifetime of an interface, so a row without servers may have any. What it
asks of preferred and valid lifetimes is also necessary (`along_givesPrefixLifetimes`).
-/

namespace Ndhcpd

/-- `send_ra`: the advertisement that is sent on an interface, if any. What goes to the socket is
its `toBytes`, that is, the result of `buildRouterAdvertisement`. -/
def sendRa (order : RowOrder Ipv6Addr) (raConfig : RaConfig) (iface : String) :
    ServerProgram (Option RouterAdvertisement) := do
  match ← dbCall (.listIaPrefixes (some iface)) with
  | .error _ => return none
  | .ok prefixes =>
    if prefixes.isEmpty then return none
    else return some (routerAdvertisement order prefixes 64
      (min raConfig.defaultPreferredLifetime 65535).toUInt16 false false)

/-- The lifetimes of an option can be used by a host. -/
def RaOption.Usable : RaOption → Prop
  | prefixInformation _ _ validLifetime preferredLifetime _ =>
    0 < preferredLifetime ∧ preferredLifetime ≤ validLifetime
  | rdnss lifetime _ => 0 < lifetime

/-- The defaults can be used. -/
structure RaConfig.Usable (raConfig : RaConfig) : Prop where
  preferred : 0 < raConfig.defaultPreferredLifetime
  valid : raConfig.defaultPreferredLifetime ≤ raConfig.defaultValidLifetime
  dns : 0 < raConfig.defaultDnsLifetime

/-- A prefix can be advertised as it is. -/
structure IAPrefix.Serviceable (p : IAPrefix) : Prop where
  preferred : 0 < p.preferredLifetime
  valid : p.preferredLifetime ≤ p.validLifetime
  dns : p.dnsServers ≠ [] → 0 < p.dnsLifetime

/-- The request stores lifetimes that can be used. A creation does if the preferred lifetime is
at most the valid one after the defaults were put in, an update of a stored prefix if it gives no
zeros, save for the DNS lifetime of a prefix without servers. -/
def IaPrefixRequest.GivesLifetimes (raConfig : RaConfig) (w : World SqliteDb) :
    IaPrefixRequest × (ℕ → Fate) → Prop
  | (.create body, fates) => (fates 0).fails = false →
      (body.withDefaults raConfig).preferredLifetime ≤ (body.withDefaults raConfig).validLifetime
  | (.update id body, fates) => (fates 0).fails = false →
      (∃ r ∈ w.db.iaPrefixes, r.id = id) → body.Serviceable
  | (.delete _, _) => True

section Defaults

variable {raConfig : RaConfig}

/-- With usable defaults a created prefix has no zeros. -/
theorem IAPrefix.serviceable_withDefaults (hconfig : raConfig.Usable) {p : IAPrefix}
    (h : (p.withDefaults raConfig).preferredLifetime ≤ (p.withDefaults raConfig).validLifetime) :
    (p.withDefaults raConfig).Serviceable := by
  have hdefault : ∀ {a b : UInt32}, 0 < b → 0 < if a = 0 then b else a := by
    intro a b hb
    split
    · exact hb
    · next hne => exact UInt32.pos_iff_ne_zero.mpr hne
  exact ⟨hdefault hconfig.preferred, h, fun _ => hdefault hconfig.dns⟩

end Defaults

/-! ### The table -/

/-- Every stored prefix can be advertised. -/
def Advertisable (db : SqliteDb) : Prop := ∀ r ∈ db.iaPrefixes, r.toIaPrefix.Serviceable

section Step

variable {ord : ScanOrder} {raConfig : RaConfig} {w : World SqliteDb}

/-- **One request** that gives lifetimes keeps the table advertisable. -/
theorem Advertisable.step (hconfig : raConfig.Usable) (h : Advertisable w.db)
    {req : IaPrefixRequest × (ℕ → Fate)} (hreq : IaPrefixRequest.GivesLifetimes raConfig w req) :
    Advertisable (IaPrefixRequest.step ord raConfig w req).db := by
  obtain ⟨req, fates⟩ := req
  rw [IaPrefixRequest.step_db]
  split
  · exact h
  · next hcalm =>
    rw [Bool.not_eq_true] at hcalm
    cases req with
    | create body =>
      intro r hr
      rcases List.mem_append.mp hr with hr | hr
      · exact h r hr
      · -- `create_ia_prefix` puts in the defaults before it stores the prefix
        rw [List.mem_singleton.mp hr]
        have hnew := IAPrefix.serviceable_withDefaults hconfig (hreq hcalm)
        exact ⟨hnew.preferred, hnew.valid, hnew.dns⟩
    | update id body =>
      intro r hr
      obtain ⟨r', hr', rfl⟩ := List.mem_map.mp hr
      split
      · next hid =>
        -- `update_ia_prefix` stores the body as it is
        have hbody := hreq hcalm ⟨r', hr', by simpa using hid⟩
        exact ⟨hbody.preferred, hbody.valid, hbody.dns⟩
      · exact h r' hr'
    | delete id =>
      intro r hr
      exact h r (List.mem_filter.mp hr).1

/-! ### The advertisement -/

/-- **Advertisements of serviceable prefixes** have usable options. -/
theorem usable_of_serviceable {order : RowOrder Ipv6Addr} {prefixes : List IAPrefix}
    (h : ∀ p ∈ prefixes, p.Serviceable) (curHopLimit : UInt8) (routerLifetimeSecs : UInt16)
    (managed other : Bool) :
    ∀ o ∈ (routerAdvertisement order prefixes curHopLimit routerLifetimeSecs managed
      other).options, o.Usable := by
  intro o ho
  rcases List.mem_append.mp ho with ho | ho
  · obtain ⟨p, hp, rfl⟩ := List.mem_map.mp ho
    exact ⟨(h p hp).preferred, (h p hp).valid⟩
  · rw [rdnssOptions] at ho
    split at ho
    · cases ho
    · next hne =>
      rw [List.mem_singleton.mp ho]
      -- Some prefix has a server, and its own lifetime bounds the longest one from below.
      obtain ⟨ip, hip⟩ := List.exists_mem_of_ne_nil _ (by simpa using hne)
      obtain ⟨p, hp, hserver⟩ := mem_advertisedServers.mp hip
      have hpos : 0 < p.dnsLifetime := (h p hp).dns (List.ne_nil_of_mem hserver)
      have hle := (max_dnsLifetime (List.ne_nil_of_mem hp)).2 p hp
      exact UInt32.lt_of_lt_of_le hpos hle

/-- What `send_ra` sends comes from the rows of the table. -/
theorem sendRa_usable {order : RowOrder Ipv6Addr} (h : Advertisable w.db) {iface : String}
    {fates : ℕ → Fate} {ra : RouterAdvertisement}
    (hsent : ((sendRa order raConfig iface).run (serve (SqliteDb.exec ord)) fates w).value =
      some ra) : ∀ o ∈ ra.options, o.Usable := by
  revert hsent
  let P : Program.Outcome (Option RouterAdvertisement) (World SqliteDb) Fate → Prop :=
    fun out => out.value = some ra → ∀ o ∈ ra.options, o.Usable
  show P _
  refine run_read rfl (fun _ _ _ hsent => by cases hsent) (fun t _ fates => ?_) fates
  intro hsent
  have hlisted : ∀ p ∈ w.db.listIaPrefixes ord (some iface), p.Serviceable := by
    intro p hp
    obtain ⟨r, hr, rfl⟩ := List.mem_map.mp hp
    exact h r (List.mem_filter.mp (ord.iaPrefixes.mem_arrange.mp hr)).1
  simp only [SqliteDb.exec] at hsent
  split at hsent
  · cases hsent
  · cases hsent
    exact usable_of_serviceable hlisted _ _ _ _

/-! ### What a usable advertisement requires -/

/-- The request gives a positive preferred lifetime that is at most the valid one: a creation after
the defaults were put in, an update of a stored prefix as it is. -/
def IaPrefixRequest.GivesPrefixLifetimes (raConfig : RaConfig) (w : World SqliteDb) :
    IaPrefixRequest × (ℕ → Fate) → Prop
  | (.create body, fates) => (fates 0).fails = false →
      (body.withDefaults raConfig).information.Usable
  | (.update id body, fates) => (fates 0).fails = false →
      (∃ r ∈ w.db.iaPrefixes, r.id = id) → body.information.Usable
  | (.delete _, _) => True

/-- Whatever `send_ra` sends without a failure has only usable options. -/
def SendsUsable (ord : ScanOrder) (order : RowOrder Ipv6Addr) (raConfig : RaConfig)
    (w : World SqliteDb) : Prop :=
  ∀ iface ra, ((sendRa order raConfig iface).run (serve (SqliteDb.exec ord)) (fun _ => .calm)
    w).value = some ra → ∀ o ∈ ra.options, o.Usable

variable {order : RowOrder Ipv6Addr}

/-- Every stored prefix is advertised on its interface. -/
theorem SendsUsable.information (h : SendsUsable ord order raConfig w) {r : IaPrefixRow}
    (hr : r ∈ w.db.iaPrefixes) : r.toIaPrefix.information.Usable := by
  have hlisted : r.toIaPrefix ∈ w.db.listIaPrefixes ord (some r.interface) := by
    refine List.mem_map_of_mem (ord.iaPrefixes.mem_arrange.mpr ?_)
    exact List.mem_filter.mpr ⟨hr, beq_self_eq_true _⟩
  have hsent : ((sendRa order raConfig r.interface).run (serve (SqliteDb.exec ord))
      (fun _ => .calm) w).value = some (routerAdvertisement order
        (w.db.listIaPrefixes ord (some r.interface)) 64
        (min raConfig.defaultPreferredLifetime 65535).toUInt16 false false) := by
    have hne : (w.db.listIaPrefixes ord (some r.interface)).isEmpty = false :=
      List.isEmpty_eq_false_iff.mpr (List.ne_nil_of_mem hlisted)
    rw [sendRa, dbCall_bind, Program.run_request]
    simp [serve, Fate.calm, SqliteDb.exec, hne]
  exact h r.interface _ hsent _ (List.mem_append_left _ (List.mem_map_of_mem hlisted))

/-- **One request** after which only usable options are sent has given the lifetimes of its
prefix. -/
theorem givesPrefixLifetimes_of_sendsUsable {req : IaPrefixRequest × (ℕ → Fate)}
    (h : SendsUsable ord order raConfig (IaPrefixRequest.step ord raConfig w req)) :
    IaPrefixRequest.GivesPrefixLifetimes raConfig w req := by
  obtain ⟨req, fates⟩ := req
  have hdb := IaPrefixRequest.step_db ord raConfig w req fates
  cases req with
  | create body =>
    intro hcalm
    rw [hcalm] at hdb
    refine h.information (r := (body.withDefaults raConfig).toRow (w.db.iaPrefixSeq + 1)) ?_
    rw [hdb]
    exact List.mem_append_right _ (List.mem_singleton_self _)
  | update id body =>
    rintro hcalm ⟨r, hr, rfl⟩
    rw [hcalm] at hdb
    refine h.information (r := body.toRow r.id) ?_
    rw [hdb]
    exact List.mem_map.mpr ⟨r, hr, if_pos (beq_self_eq_true _)⟩
  | delete id => trivial

/-- **Preferred and valid lifetimes are given** by every request of a run in which `send_ra`, called
in whichever state without a failure, would send usable options only. -/
theorem along_givesPrefixLifetimes {requests : List (IaPrefixRequest × (ℕ → Fate))}
    (h : ∀ served, served <+: requests →
      SendsUsable ord order raConfig (Run.after (IaPrefixRequest.step ord raConfig) w served)) :
    Run.Along (IaPrefixRequest.step ord raConfig)
      (IaPrefixRequest.GivesPrefixLifetimes raConfig) w requests :=
  Run.along_of_forall_prefix (fun _ _ => givesPrefixLifetimes_of_sendsUsable) h

end Step

/-- **When advertised lifetimes are usable.** Let the defaults be usable, and start without
prefixes. If every creation and every update of the run gives lifetimes, then whatever `send_ra`
sends in whichever state of the run, on whichever interface, has only usable options. -/
theorem lifetimes_usable (ord : ScanOrder) (order : RowOrder Ipv6Addr) (raConfig : RaConfig)
    (hconfig : raConfig.Usable) (w : World SqliteDb) (hempty : w.db.iaPrefixes = [])
    (requests : List (IaPrefixRequest × (ℕ → Fate)))
    (hgives : Run.Along (IaPrefixRequest.step ord raConfig)
      (IaPrefixRequest.GivesLifetimes raConfig) w requests) :
    ∀ served, served <+: requests → ∀ iface fates ra,
      ((sendRa order raConfig iface).run (serve (SqliteDb.exec ord)) fates
        (Run.after (IaPrefixRequest.step ord raConfig) w served)).value = some ra →
      ∀ o ∈ ra.options, o.Usable := by
  rintro served ⟨later, rfl⟩ iface fates ra hsent
  have hstart : Advertisable w.db := by
    intro r hr
    rw [hempty] at hr
    cases hr
  have hserved := (Run.along_append.mp hgives).1
  have hadvertisable := hserved.invariant (I := fun w : World SqliteDb => Advertisable w.db)
    (fun w req h hreq => h.step hconfig hreq) hstart
  exact sendRa_usable hadvertisable hsent

namespace Sample

/-- A prefix of the sample network with the given lifetimes and one DNS server. -/
def iaPrefix (preferred valid dns : UInt32) : IAPrefix :=
  ⟨none, "eth0", ⟨0x20010db8000000000000000000000000#128⟩, 64, preferred, valid, [⟨1⟩], dns⟩

/-- What is sent on `eth0` after the requests, without a failure. -/
def advertised (requests : List IaPrefixRequest) : Option RouterAdvertisement :=
  ((sendRa .id .default "eth0").run (serve (SqliteDb.exec .rowid)) (fun _ => .calm)
    (Run.after (IaPrefixRequest.step .rowid .default) ⟨.empty, 0⟩
      (requests.map fun req => (req, fun _ => .calm)))).value

theorem default_usable : RaConfig.default.Usable := ⟨by decide, by decide, by decide⟩

end Sample

/-- A prefix created with zeros and updated without is advertised with usable lifetimes. -/
theorem lifetimes_usable_updated :
    RaConfig.default.Usable ∧
    ∀ ra, Sample.advertised [.create (Sample.iaPrefix 0 0 0),
      .update 1 (Sample.iaPrefix 600 1200 600)] = some ra → ∀ o ∈ ra.options, o.Usable := by
  refine ⟨Sample.default_usable, fun ra hsent => ?_⟩
  refine lifetimes_usable .rowid .id .default Sample.default_usable ⟨.empty, 0⟩ rfl
    [(.create (Sample.iaPrefix 0 0 0), fun _ => .calm),
      (.update 1 (Sample.iaPrefix 600 1200 600), fun _ => .calm)] ⟨?_, ?_, trivial⟩ _
    (List.prefix_refl _) "eth0" (fun _ => .calm) ra hsent
  · exact fun _ => by decide
  · exact fun _ _ => ⟨by decide, by decide, fun _ => by decide⟩

/-- Zeros in an update are stored and advertised, and so is a default next to a shorter valid
lifetime. -/
theorem unusable_lifetimes_advertised :
    (¬ ∀ ra, Sample.advertised [.create (Sample.iaPrefix 600 1200 600),
      .update 1 (Sample.iaPrefix 0 0 0)] = some ra → ∀ o ∈ ra.options, o.Usable) ∧
    ¬ ∀ ra, Sample.advertised [.create (Sample.iaPrefix 0 1200 600)] = some ra →
      ∀ o ∈ ra.options, o.Usable := by
  constructor
  · intro h
    have hfirst := h _ rfl (Sample.iaPrefix 0 0 0).information (by decide +kernel)
    exact absurd hfirst.1 (by decide)
  · intro h
    have hfirst := h _ rfl (Sample.iaPrefix 86400 1200 600).information (by decide +kernel)
    exact absurd hfirst.2 (by decide)

end Ndhcpd
