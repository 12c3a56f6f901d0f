import Ndhcpd.Table.Keyed
import Ndhcpd.Db.Sqlite

/-!
# The keys of the SQLite tables

Whatever calls are made, the rows of a table keep distinct keys: ids are given out by the
`AUTOINCREMENT` counter of the table, and the address of a static assignment is its primary key.
-/

namespace Ndhcpd

namespace SqliteDb

variable {ord : ScanOrder} {now : ℤ} {db : SqliteDb}

/-- Ids of subnets. -/
theorem numbered_subnets_exec (h : Numbered SubnetRow.id db.subnets db.subnetSeq) (c : DbCall) :
    Numbered SubnetRow.id (exec ord now db c).2.subnets (exec ord now db c).2.subnetSeq := by
  cases hwrite : mayWrite c .subnets with
  | false =>
    obtain ⟨hrows, hseq⟩ := @exec_sameTable ord now db c .subnets hwrite
    rw [hrows, hseq]
    exact h
  | true =>
    cases c with
    | createSubnet subnet =>
      simp only [exec, createSubnet]
      split
      · exact h
      · exact h.append rfl
    -- an updated row is written under the id that named it
    | updateSubnet id subnet =>
      simp only [exec, updateSubnet]
      split
      · exact h
      · refine h.map fun r _ => ?_
        split
        · next hid => exact (beq_iff_eq.mp hid).symm
        · rfl
    | deleteSubnet id => exact h.sublist List.filter_sublist
    | _ => cases hwrite

/-- Ids of prefixes. -/
theorem numbered_iaPrefixes_exec (h : Numbered IaPrefixRow.id db.iaPrefixes db.iaPrefixSeq)
    (c : DbCall) :
    Numbered IaPrefixRow.id (exec ord now db c).2.iaPrefixes
      (exec ord now db c).2.iaPrefixSeq := by
  cases hwrite : mayWrite c .iaPrefixes with
  | false =>
    obtain ⟨hrows, hseq⟩ := @exec_sameTable ord now db c .iaPrefixes hwrite
    rw [hrows, hseq]
    exact h
  | true =>
    cases c with
    | createIaPrefix pfx => exact h.append rfl
    | updateIaPrefix id pfx =>
      refine h.map fun r _ => ?_
      split
      · next hid => exact (beq_iff_eq.mp hid).symm
      · rfl
    | deleteIaPrefix id => exact h.sublist List.filter_sublist
    | _ => cases hwrite

/-- Ids of tokens. -/
theorem numbered_apiTokens_exec (h : Numbered TokenRow.id db.apiTokens db.tokenSeq) (c : DbCall) :
    Numbered TokenRow.id (exec ord now db c).2.apiTokens (exec ord now db c).2.tokenSeq := by
  cases hwrite : mayWrite c .apiTokens with
  | false =>
    obtain ⟨hrows, hseq⟩ := @exec_sameTable ord now db c .apiTokens hwrite
    rw [hrows, hseq]
    exact h
  | true =>
    cases c with
    | createToken name tokenHash salt =>
      simp only [exec, createToken]
      split
      · exact h
      · exact h.append rfl
    | deleteToken id => exact h.sublist List.filter_sublist
    | toggleToken id enabled => exact h.map fun r _ => by split <;> rfl
    | updateTokenLastUsed tokenHash => exact h.map fun r _ => by split <;> rfl
    | _ => cases hwrite

/-- Addresses of static assignments. -/
theorem nodup_staticIps_exec (h : (db.staticIps.map (·.ipAddress)).Nodup) (c : DbCall) :
    ((exec ord now db c).2.staticIps.map (·.ipAddress)).Nodup := by
  cases hwrite : mayWrite c .staticIps with
  | false =>
    have hrows : (exec ord now db c).2.staticIps = db.staticIps :=
      @exec_sameTable ord now db c .staticIps hwrite
    rw [hrows]
    exact h
  | true =>
    cases c with
    | createStaticIp staticIp =>
      simp only [exec, createStaticIp]
      split
      · exact h
      · next hfree =>
        split
        · refine (nodup_map_append h).mpr fun s hs hip => hfree ?_
          exact List.any_eq_true.mpr ⟨s, hs, by simp [hip]⟩
        · exact h
    | updateStaticIpHostname ip hostname =>
      simp only [exec, updateStaticIpHostname]
      rw [map_key_map fun s _ => by split <;> rfl]
      exact h
    | deleteStaticIp ip => exact h.sublist (List.filter_sublist.map _)
    | deleteSubnet id => exact h.sublist (List.filter_sublist.map _)
    | _ => cases hwrite

/-- The flags of tokens are zero or one. -/
theorem flags_exec (h : ∀ r ∈ db.apiTokens, r.enabled = 0 ∨ r.enabled = 1) (c : DbCall) :
    ∀ r ∈ (exec ord now db c).2.apiTokens, r.enabled = 0 ∨ r.enabled = 1 := by
  cases hwrite : mayWrite c .apiTokens with
  | false =>
    obtain ⟨hrows, -⟩ := @exec_sameTable ord now db c .apiTokens hwrite
    rw [hrows]
    exact h
  | true =>
    cases c with
    | createToken name tokenHash salt =>
      simp only [exec, createToken]
      split
      · exact h
      · intro r hr
        rcases List.mem_append.mp hr with hr | hr
        · exact h r hr
        · obtain rfl := List.mem_singleton.mp hr
          exact .inr rfl
    | deleteToken id => exact fun r hr => h r (List.mem_filter.mp hr).1
    | toggleToken id enabled =>
      intro r hr
      obtain ⟨r', hr', rfl⟩ := List.mem_map.mp hr
      by_cases hid : r'.id = id
      · cases enabled <;> simp [hid]
      · simpa [hid] using h r' hr'
    | updateTokenLastUsed tokenHash =>
      intro r hr
      obtain ⟨r', hr', rfl⟩ := List.mem_map.mp hr
      split
      · exact h r' hr'
      · exact h r' hr'
    | _ => cases hwrite

/-- The keys of the tables are in order. -/
structure Keyed (db : SqliteDb) : Prop where
  subnets : Numbered SubnetRow.id db.subnets db.subnetSeq
  iaPrefixes : Numbered IaPrefixRow.id db.iaPrefixes db.iaPrefixSeq
  apiTokens : Numbered TokenRow.id db.apiTokens db.tokenSeq
  staticIps : (db.staticIps.map (·.ipAddress)).Nodup
  flags : ∀ r ∈ db.apiTokens, r.enabled = 0 ∨ r.enabled = 1

theorem keyed_empty : empty.Keyed :=
  ⟨.nil, .nil, .nil, List.nodup_nil, fun _ hr => absurd hr List.not_mem_nil⟩

/-- **Every call** keeps the keys in order. -/
theorem Keyed.exec (h : db.Keyed) (c : DbCall) : (exec ord now db c).2.Keyed where
  subnets := numbered_subnets_exec h.subnets c
  iaPrefixes := numbered_iaPrefixes_exec h.iaPrefixes c
  apiTokens := numbered_apiTokens_exec h.apiTokens c
  staticIps := nodup_staticIps_exec h.staticIps c
  flags := flags_exec h.flags c

end SqliteDb

end Ndhcpd
