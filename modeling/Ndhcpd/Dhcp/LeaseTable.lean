import Ndhcpd.Table.Keyed
import Ndhcpd.Db.Sqlite
import Ndhcpd.Dhcp.Request

/-!
# Conditions on the lease table

What the lease table of a running server looks like. `Tidy` collects what does not depend on
the time: row ids are distinct and have been given out before, and client names are MAC
addresses in canonical spelling. The other conditions are about the leases that are active
at a moment: `HeldBy` (every active lease on an address belongs to one client), `Vacant` (no
active lease on an address), `Exclusive` (active leases on the same address belong to the
same client) and `Single` (there is at most one active lease on an address).

All of them survive the removal of rows and the passing of time; this is `.mono` for each.
The insertion of a row is the one step that can break them, and the `.append` lemmas say
when it does not.
-/

namespace Ndhcpd

variable {rows rows' : List LeaseRow} {now now' : ℤ} {ip : Ipv4Addr} {mac : String}

/-- Every active lease on the address belongs to the client. -/
def HeldBy (rows : List LeaseRow) (now : ℤ) (ip : Ipv4Addr) (mac : String) : Prop :=
  ∀ l ∈ rows, l.ipAddress = ip → now < l.leaseEnd → l.macAddress = mac

/-- No lease on the address is active. -/
def Vacant (rows : List LeaseRow) (now : ℤ) (ip : Ipv4Addr) : Prop :=
  ∀ l ∈ rows, l.ipAddress = ip → l.leaseEnd ≤ now

instance (rows : List LeaseRow) (now : ℤ) (ip : Ipv4Addr) : Decidable (Vacant rows now ip) :=
  inferInstanceAs (Decidable (∀ l ∈ rows, l.ipAddress = ip → l.leaseEnd ≤ now))

/-- The row with the given id is the only active one on the address. -/
def OnlyRow (rows : List LeaseRow) (now : ℤ) (ip : Ipv4Addr) (id : ℤ) : Prop :=
  ∀ l ∈ rows, l.ipAddress = ip → now < l.leaseEnd → l.id = id

/-- Active leases on the same address belong to the same client. -/
def Exclusive (rows : List LeaseRow) (now : ℤ) : Prop :=
  ∀ l ∈ rows, ∀ l' ∈ rows, now < l.leaseEnd → now < l'.leaseEnd →
    l.ipAddress = l'.ipAddress → l.macAddress = l'.macAddress

/-- Active leases on the same address are the same row. -/
def Single (rows : List LeaseRow) (now : ℤ) : Prop :=
  ∀ l ∈ rows, ∀ l' ∈ rows, now < l.leaseEnd → now < l'.leaseEnd →
    l.ipAddress = l'.ipAddress → l.id = l'.id

/-- Row ids are distinct and at most `seq`, and clients are named by their MAC address. -/
structure Tidy (rows : List LeaseRow) (seq : ℤ) : Prop where
  nodup : (rows.map (·.id)).Nodup
  fresh : ∀ l ∈ rows, l.id ≤ seq
  named : ∀ l ∈ rows, ∃ m : MacAddress, l.macAddress = m.toString

/-! ### Removing rows and letting time pass -/

theorem HeldBy.mono (h : HeldBy rows now ip mac) (hrows : rows' ⊆ rows) (hnow : now ≤ now') :
    HeldBy rows' now' ip mac :=
  fun l hl hip hact => h l (hrows hl) hip (by omega)

theorem Vacant.mono (h : Vacant rows now ip) (hrows : rows' ⊆ rows) (hnow : now ≤ now') :
    Vacant rows' now' ip :=
  fun l hl hip => (h l (hrows hl) hip).trans hnow

theorem OnlyRow.mono {id : ℤ} (h : OnlyRow rows now ip id) (hrows : rows' ⊆ rows)
    (hnow : now ≤ now') : OnlyRow rows' now' ip id :=
  fun l hl hip hact => h l (hrows hl) hip (by omega)

theorem Exclusive.mono (h : Exclusive rows now) (hrows : rows' ⊆ rows) (hnow : now ≤ now') :
    Exclusive rows' now' :=
  fun l hl l' hl' hact hact' => h l (hrows hl) l' (hrows hl') (by omega) (by omega)

theorem Single.mono (h : Single rows now) (hrows : rows' ⊆ rows) (hnow : now ≤ now') :
    Single rows' now' :=
  fun l hl l' hl' hact hact' => h l (hrows hl) l' (hrows hl') (by omega) (by omega)

theorem Tidy.mono {seq : ℤ} (h : Tidy rows seq) (hrows : rows'.Sublist rows) :
    Tidy rows' seq where
  nodup := h.nodup.sublist (hrows.map _)
  fresh l hl := h.fresh l (hrows.subset hl)
  named l hl := h.named l (hrows.subset hl)

/-! ### From one condition to another -/

theorem Vacant.heldBy (h : Vacant rows now ip) : HeldBy rows now ip mac :=
  fun l hl hip hact => absurd (h l hl hip) (by omega)

/-- In an exclusive table the holder of one active row holds the address. -/
theorem Exclusive.heldBy (h : Exclusive rows now) {l : LeaseRow} (hl : l ∈ rows)
    (hact : now < l.leaseEnd) : HeldBy rows now l.ipAddress l.macAddress :=
  fun l' hl' hip hact' => h l' hl' l hl hact' hact hip

theorem Single.onlyRow (h : Single rows now) {l : LeaseRow} (hl : l ∈ rows)
    (hact : now < l.leaseEnd) : OnlyRow rows now l.ipAddress l.id :=
  fun l' hl' hip hact' => h l' hl' l hl hact' hact hip

/-- Deleting the only active row on an address vacates it. -/
theorem OnlyRow.vacant_filter {id : ℤ} (h : OnlyRow rows now ip id) :
    Vacant (rows.filter (·.id != id)) now ip := by
  intro l hl hip
  obtain ⟨hmem, hne⟩ := List.mem_filter.mp hl
  by_contra hact
  exact absurd (h l hmem hip (by omega)) (by simpa using hne)

/-- In a tidy table rows with the same id are the same row. -/
theorem Tidy.eq_of_id {seq : ℤ} (h : Tidy rows seq) {l l' : LeaseRow} (hl : l ∈ rows)
    (hl' : l' ∈ rows) (hid : l.id = l'.id) : l = l' :=
  List.inj_on_of_nodup_map h.nodup hl hl' hid

/-- Leases of a client are found under its name, whatever the spelling. -/
theorem Tidy.eq_toString {seq : ℤ} (h : Tidy rows seq) {l : LeaseRow}
    (hl : l ∈ rows) {mac : MacAddress} (hmac : l.macAddress.toLower = mac.toString.toLower) :
    l.macAddress = mac.toString := by
  obtain ⟨m, hm⟩ := h.named l hl
  rw [hm, MacAddress.toLower_toString, MacAddress.toLower_toString] at hmac
  rw [hm, hmac]

/-- In a tidy table `Single` is stronger than `Exclusive`. -/
theorem Single.exclusive {seq : ℤ} (h : Single rows now) (htidy : Tidy rows seq) :
    Exclusive rows now := by
  intro l hl l' hl' hact hact' hip
  have hid := h l hl l' hl' hact hact' hip
  rw [htidy.eq_of_id hl hl' hid]

/-! ### Inserting a row -/

section Append

variable {row : LeaseRow}

theorem Exclusive.append (h : Exclusive rows now)
    (hheld : HeldBy rows now row.ipAddress row.macAddress) : Exclusive (rows ++ [row]) now := by
  intro l hl l' hl' hact hact' hip
  simp only [List.mem_append, List.mem_singleton] at hl hl'
  rcases hl with hl | rfl <;> rcases hl' with hl' | rfl
  · exact h l hl l' hl' hact hact' hip
  · exact hheld l hl hip hact
  · exact (hheld l' hl' hip.symm hact').symm
  · rfl

theorem Single.append (h : Single rows now) (hvacant : Vacant rows now row.ipAddress) :
    Single (rows ++ [row]) now := by
  intro l hl l' hl' hact hact' hip
  simp only [List.mem_append, List.mem_singleton] at hl hl'
  rcases hl with hl | rfl <;> rcases hl' with hl' | rfl
  · exact h l hl l' hl' hact hact' hip
  · exact absurd (hvacant l hl hip) (by omega)
  · exact absurd (hvacant l' hl' hip.symm) (by omega)
  · rfl

theorem Tidy.append {seq : ℤ} (h : Tidy rows seq) (hid : row.id = seq + 1)
    (hname : ∃ m : MacAddress, row.macAddress = m.toString) :
    Tidy (rows ++ [row]) (seq + 1) := by
  have hnumbered : Numbered LeaseRow.id rows seq := ⟨h.nodup, h.fresh⟩
  refine ⟨(hnumbered.append hid).nodup, (hnumbered.append hid).fresh, fun l hl => ?_⟩
  rcases List.mem_append.mp hl with hl | hl
  · exact h.named l hl
  · obtain rfl := List.mem_singleton.mp hl
    exact hname

end Append

/-- In a tidy table, a property that determines the id holds of at most one row. -/
theorem Tidy.length_filter_le_one {seq : ℤ} (htidy : Tidy rows seq) {p : LeaseRow → Bool}
    (hp : ∀ l ∈ rows, ∀ l' ∈ rows, p l = true → p l' = true → l.id = l'.id) :
    (rows.filter p).length ≤ 1 := by
  have hids : ((rows.filter p).map (·.id)).Nodup :=
    htidy.nodup.sublist (List.filter_sublist.map _)
  have hmem : ∀ l ∈ rows.filter p, l ∈ rows ∧ p l = true := fun l hl => List.mem_filter.mp hl
  generalize rows.filter p = found at hids hmem ⊢
  match found with
  | [] => simp
  | [_] => simp
  | l :: l' :: rest =>
    obtain ⟨hl, hpl⟩ := hmem l (by simp)
    obtain ⟨hl', hpl'⟩ := hmem l' (by simp)
    simp [hp l hl l' hl' hpl hpl'] at hids

/-- In a tidy table `Single` is a count: at most one active row on each address. -/
theorem Single.length_le_one {seq : ℤ} (h : Single rows now) (htidy : Tidy rows seq)
    (ip : Ipv4Addr) :
    (rows.filter fun l => l.ipAddress == ip && decide (now < l.leaseEnd)).length ≤ 1 := by
  refine htidy.length_filter_le_one fun l hl l' hl' hpl hpl' => ?_
  simp only [Bool.and_eq_true, beq_iff_eq, decide_eq_true_eq] at hpl hpl'
  exact h l hl l' hl' hpl.2 hpl'.2 (hpl.1.trans hpl'.1.symm)

/-! ### The decision on a REQUEST -/

/-- What `planLease` decides on the active leases, in terms of the table. -/
theorem planLease_listActiveLeases {ord : ScanOrder} {db : SqliteDb} (mac : String)
    (ip : Ipv4Addr) (range : DynamicRange) (subnet : Subnet) (now : ℤ) :
    (Vacant db.leases now ip ∧
      planLease mac ip range subnet (db.listActiveLeases ord now) = .grant ip range subnet none) ∨
    ∃ r ∈ db.leases, now < r.leaseEnd ∧ r.ipAddress = ip ∧
      planLease mac ip range subnet (db.listActiveLeases ord now) =
        if r.macAddress = mac then .grant ip range subnet (some r.id) else .refuse := by
  rcases @SqliteDb.find?_listActiveLeases ord now db ip with
    ⟨hfind, hvacant⟩ | ⟨r, hr, hact, hip, hfind⟩
  · exact .inl ⟨hvacant, by rw [planLease, hfind]⟩
  · refine .inr ⟨r, hr, hact, hip, ?_⟩
    rw [planLease, hfind]
    by_cases hmac : r.macAddress = mac <;> simp [hmac, LeaseRow.toLease]

/-- An address that is not on the list of active leases is vacant. -/
theorem vacant_of_not_mem {ord : ScanOrder} {db : SqliteDb}
    (h : ip ∉ (db.listActiveLeases ord now).map (·.ipAddress)) : Vacant db.leases now ip := by
  intro l hl hip
  by_contra hact
  refine h (List.mem_map.mpr ⟨l.toLease, ?_, hip⟩)
  exact SqliteDb.mem_listActiveLeases.mpr ⟨l, hl, by omega, rfl⟩

/-- The decision is to grant only if nobody else holds the address. -/
theorem heldBy_of_planLease {ord : ScanOrder} {db : SqliteDb} (hexclusive : Exclusive db.leases now)
    {range range' : DynamicRange} {subnet subnet' : Subnet} {ip' : Ipv4Addr} {old : Option ℤ}
    (h : planLease mac ip range subnet (db.listActiveLeases ord now) =
      .grant ip' range' subnet' old) : HeldBy db.leases now ip mac := by
  obtain ⟨hvacant, -⟩ | ⟨r, hr, hact, rfl, hplan⟩ :=
    @planLease_listActiveLeases ord db mac ip range subnet now
  · exact hvacant.heldBy
  · rw [hplan] at h
    split at h
    · next hmac =>
      rw [← hmac]
      exact hexclusive.heldBy hr hact
    · cases h

end Ndhcpd
