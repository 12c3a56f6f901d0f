import Ndhcpd.Interaction.Run
import Ndhcpd.Table.Keyed
import Ndhcpd.Dhcp.System
import Ndhcpd.Utils.Network

/-!
# The subnet endpoints of the API

The handlers of `/api/subnets` as programs over the database interface. `create_subnet` tests
the new subnet against every stored one before it inserts, and by `subnetsOverlap_iff` the
test is exact, so a subnet that is created is disjoint from the others. `update_subnet` makes
no test: it may move or widen a subnet so that it covers addresses of another.

`stored_subnets_disjoint_iff` says exactly which sequences of requests keep the blocks of the
stored subnets disjoint.
-/

namespace Ndhcpd

/-- The HTTP status codes the handlers answer with. -/
inductive StatusCode
  | ok | created | noContent | unauthorized | notFound | conflict | internalServerError
deriving DecidableEq, Repr

namespace Api

/-! ### Handlers -/

/-- `GET /api/subnets`. -/
def listSubnets : ServerProgram (Except StatusCode (List Subnet)) := do
  match ← dbCall .listSubnets with
  | .ok subnets => return .ok subnets
  | .error _ => return .error .internalServerError

/-- `POST /api/subnets`. -/
def createSubnet (subnet : Subnet) : ServerProgram (Except StatusCode (StatusCode × ℤ)) := do
  match ← dbCall .listSubnets with
  | .error _ => return .error .internalServerError
  | .ok existing =>
    if existing.any fun e => subnetsOverlap subnet.network subnet.netmask e.network e.netmask then
      return .error .conflict
    else
      match ← dbCall (.createSubnet subnet) with
      | .ok id => return .ok (.created, id)
      | .error e =>
        return .error (if isUniqueViolation e then .conflict else .internalServerError)

/-- `GET /api/subnets/{id}`. -/
def getSubnet (id : ℤ) : ServerProgram (Except StatusCode Subnet) := do
  match ← dbCall (.getSubnet id) with
  | .ok (some subnet) => return .ok subnet
  | .ok none => return .error .notFound
  | .error _ => return .error .internalServerError

/-- `PUT /api/subnets/{id}`. -/
def updateSubnet (id : ℤ) (subnet : Subnet) : ServerProgram (Except StatusCode StatusCode) := do
  match ← dbCall (.updateSubnet id subnet) with
  | .ok _ => return .ok .ok
  | .error _ => return .error .internalServerError

/-- `DELETE /api/subnets/{id}`. -/
def deleteSubnet (id : ℤ) : ServerProgram (Except StatusCode StatusCode) := do
  match ← dbCall (.deleteSubnet id) with
  | .ok _ => return .ok .noContent
  | .error _ => return .error .internalServerError

end Api

/-! ### Requests -/

/-- A request body with a prefix length of at most 32. -/
abbrev SubnetBody : Type := { s : Subnet // s.netmask ≤ 32 }

/-- A request that changes the stored subnets. -/
inductive SubnetRequest
  | create (body : SubnetBody)
  | update (id : ℤ) (body : SubnetBody)
  | delete (id : ℤ)

namespace SubnetRequest

variable (ord : ScanOrder)

/-- The world after a request, with the fates of the calls made for it. -/
def step (w : World SqliteDb) : SubnetRequest × (ℕ → Fate) → World SqliteDb
  | (create body, fates) =>
    ((Api.createSubnet body.val).run (serve (SqliteDb.exec ord)) fates w).state
  | (update id body, fates) =>
    ((Api.updateSubnet id body.val).run (serve (SqliteDb.exec ord)) fates w).state
  | (delete id, fates) => ((Api.deleteSubnet id).run (serve (SqliteDb.exec ord)) fates w).state

end SubnetRequest

/-- The addresses of a stored subnet. -/
def SubnetRow.block (r : SubnetRow) : Set Ipv4Addr := addressBlock r.network r.netmask

/-- The addresses of a subnet. -/
def Subnet.block (s : Subnet) : Set Ipv4Addr := addressBlock s.network s.netmask

@[simp] theorem Subnet.block_toRow (s : Subnet) (id : ℤ) : (s.toRow id).block = s.block := rfl

/-- The blocks of distinct rows are disjoint. -/
def DisjointBlocks (rows : List SubnetRow) : Prop :=
  ∀ r ∈ rows, ∀ r' ∈ rows, r ≠ r' → Disjoint r.block r'.block

/-- The table of subnets between two requests. -/
structure Separate (db : SqliteDb) : Prop where
  nodup : (db.subnets.map (·.id)).Nodup
  fresh : ∀ r ∈ db.subnets, r.id ≤ db.subnetSeq
  bounded : ∀ r ∈ db.subnets, r.netmask ≤ 32
  disjoint : DisjointBlocks db.subnets

section Step

variable {ord : ScanOrder} {w : World SqliteDb} {fates : ℕ → Fate}

/-- What a creation can do: nothing, or insert a subnet that overlaps with no stored one. -/
theorem Api.createSubnet_run (subnet : Subnet) :
    ((Api.createSubnet subnet).run (serve (SqliteDb.exec ord)) fates w).state.db = w.db ∨
    ((∀ r ∈ w.db.subnets,
        subnetsOverlap subnet.network subnet.netmask r.network r.netmask = false) ∧
      ((Api.createSubnet subnet).run (serve (SqliteDb.exec ord)) fates w).state.db =
        { w.db with
          subnets := w.db.subnets ++ [subnet.toRow (w.db.subnetSeq + 1)]
          subnetSeq := w.db.subnetSeq + 1 }) := by
  let P : Program.Outcome (Except StatusCode (StatusCode × ℤ)) (World SqliteDb) Fate → Prop :=
    fun out => out.state.db = w.db ∨
      ((∀ r ∈ w.db.subnets,
          subnetsOverlap subnet.network subnet.netmask r.network r.netmask = false) ∧
        out.state.db = { w.db with
          subnets := w.db.subnets ++ [subnet.toRow (w.db.subnetSeq + 1)]
          subnetSeq := w.db.subnetSeq + 1 })
  show P _
  refine run_read rfl (fun _ _ _ => .inl rfl) (fun t _ fates => ?_) fates
  simp only [SqliteDb.exec]
  split
  · exact .inl rfl
  · next hclear =>
    refine run_call (fun _ _ _ => .inl rfl) (fun t _ fates => ?_) fates
    by_cases htaken : (w.db.subnets.any fun r =>
        r.network == subnet.network && r.netmask == subnet.netmask) = true
    · have hexec : SqliteDb.exec ord t w.db (.createSubnet subnet) =
          (.error .uniqueViolation, w.db) := if_pos htaken
      rw [hexec]
      exact .inl rfl
    · have hexec : SqliteDb.exec ord t w.db (.createSubnet subnet) =
          (.ok (w.db.subnetSeq + 1), { w.db with
            subnets := w.db.subnets ++ [subnet.toRow (w.db.subnetSeq + 1)]
            subnetSeq := w.db.subnetSeq + 1 }) := if_neg htaken
      rw [hexec]
      refine .inr ⟨fun r hr => ?_, rfl⟩
      simp only [List.any_eq_true, not_exists, not_and, Bool.not_eq_true] at hclear
      refine hclear r.toSubnet ?_
      simpa [SqliteDb.listSubnets] using ⟨r, hr, rfl⟩

/-- An update is one statement, which may fail. -/
theorem Api.updateSubnet_run (id : ℤ) (subnet : Subnet) :
    ((Api.updateSubnet id subnet).run (serve (SqliteDb.exec ord)) fates w).state.db =
      if (fates 0).fails then w.db else (w.db.updateSubnet id subnet).2 := by
  exact run_statement (by rintro (e | u) <;> exact ⟨_, rfl⟩)

/-- A deletion is one statement, which may fail. -/
theorem Api.deleteSubnet_run (id : ℤ) :
    ((Api.deleteSubnet id).run (serve (SqliteDb.exec ord)) fates w).state.db =
      if (fates 0).fails then w.db else w.db.deleteSubnet id := by
  exact run_statement (by rintro (e | u) <;> exact ⟨_, rfl⟩)

end Step

/-! ### One request -/

section Table

variable {db : SqliteDb} {id : ℤ} {subnet : Subnet}

/-- An insertion that passes the overlap test. -/
theorem Separate.createSubnet (h : Separate db) (hmask : subnet.netmask ≤ 32)
    (hclear : ∀ r ∈ db.subnets,
      subnetsOverlap subnet.network subnet.netmask r.network r.netmask = false) :
    Separate { db with
      subnets := db.subnets ++ [subnet.toRow (db.subnetSeq + 1)]
      subnetSeq := db.subnetSeq + 1 } := by
  have hdisjoint : ∀ r ∈ db.subnets, Disjoint subnet.block r.block := by
    intro r hr
    by_contra hmeet
    have hoverlap := (subnetsOverlap_iff hmask (h.bounded r hr)).mpr hmeet
    rw [hclear r hr] at hoverlap
    cases hoverlap
  have hnumbered : Numbered SubnetRow.id db.subnets db.subnetSeq := ⟨h.nodup, h.fresh⟩
  have hnew := hnumbered.append (show (subnet.toRow (db.subnetSeq + 1)).id = _ from rfl)
  refine ⟨hnew.nodup, hnew.fresh, fun r hr => ?_, fun r hr r' hr' hne => ?_⟩
  · rcases List.mem_append.mp hr with hr | hr
    · exact h.bounded r hr
    · obtain rfl := List.mem_singleton.mp hr
      exact hmask
  · rw [List.mem_append, List.mem_singleton] at hr hr'
    rcases hr with hr | rfl <;> rcases hr' with hr' | rfl
    · exact h.disjoint r hr r' hr' hne
    · exact (hdisjoint r hr).symm
    · exact hdisjoint r' hr'
    · exact absurd rfl hne

theorem Separate.deleteSubnet (h : Separate db) (id : ℤ) : Separate (db.deleteSubnet id) where
  nodup := h.nodup.sublist (List.filter_sublist.map _)
  fresh r hr := h.fresh r (List.mem_filter.mp hr).1
  bounded r hr := h.bounded r (List.mem_filter.mp hr).1
  disjoint r hr r' hr' := h.disjoint r (List.mem_filter.mp hr).1 r' (List.mem_filter.mp hr').1

/-- The update is of a stored subnet, and no other row has the new network and prefix. -/
def SqliteDb.acceptsUpdate (db : SqliteDb) (id : ℤ) (subnet : Subnet) : Bool :=
  db.hasSubnet id && !db.subnets.any fun r =>
    r.id != id && r.network == subnet.network && r.netmask == subnet.netmask

theorem SqliteDb.exists_of_acceptsUpdate (h : db.acceptsUpdate id subnet = true) :
    ∃ r ∈ db.subnets, r.id = id := by
  rw [acceptsUpdate, Bool.and_eq_true] at h
  simpa [hasSubnet] using h.1

/-- A row after an accepted update. -/
def updatedRow (id : ℤ) (subnet : Subnet) (r : SubnetRow) : SubnetRow :=
  if r.id == id then subnet.toRow id else r

theorem updatedRow_id (r : SubnetRow) : (updatedRow id subnet r).id = r.id := by
  unfold updatedRow
  split
  · next hid => exact (beq_iff_eq.mp hid).symm
  · rfl

theorem SqliteDb.updateSubnet_of_accepts (h : db.acceptsUpdate id subnet = true) :
    (db.updateSubnet id subnet).2 = { db with subnets := db.subnets.map (updatedRow id subnet) } := by
  rw [acceptsUpdate, Bool.and_eq_true, Bool.not_eq_true'] at h
  simp [updateSubnet, h.2, updatedRow]

theorem SqliteDb.updateSubnet_of_not_accepts (h : db.acceptsUpdate id subnet = false) :
    (db.updateSubnet id subnet).2 = db := by
  cases hsub : db.hasSubnet id with
  | true =>
    have htaken : (db.subnets.any fun r =>
        r.id != id && r.network == subnet.network && r.netmask == subnet.netmask) = true := by
      simpa only [acceptsUpdate, hsub, Bool.true_and, Bool.not_eq_false'] using h
    rw [updateSubnet, hsub, htaken]
    rfl
  | false =>
    -- no row has the id, so none is rewritten
    have hsame : db.subnets.map (fun r => if r.id == id then subnet.toRow id else r) =
        db.subnets := map_ite_of_forall_ne (by simpa [hasSubnet] using hsub)
    rw [updateSubnet, hsub, hsame]
    rfl

/-- **An accepted update** leaves the blocks disjoint exactly if the new block is disjoint from
those of the other rows. -/
theorem Separate.updateSubnet_iff (h : Separate db) (haccept : db.acceptsUpdate id subnet = true) :
    DisjointBlocks (db.subnets.map (updatedRow id subnet)) ↔
      ∀ r ∈ db.subnets, r.id ≠ id → Disjoint subnet.block r.block := by
  constructor
  · intro hdisjoint r hr hid
    obtain ⟨old, hold, hoid⟩ := SqliteDb.exists_of_acceptsUpdate haccept
    have hnew : subnet.toRow id ∈ db.subnets.map (updatedRow id subnet) :=
      List.mem_map.mpr ⟨old, hold, by simp [updatedRow, hoid]⟩
    have hkept : r ∈ db.subnets.map (updatedRow id subnet) :=
      List.mem_map.mpr ⟨r, hr, by simp [updatedRow, hid]⟩
    refine hdisjoint _ hnew r hkept ?_
    rintro rfl
    exact hid rfl
  · intro hclear r hr r' hr' hne
    obtain ⟨a, ha, rfl⟩ := List.mem_map.mp hr
    obtain ⟨b, hb, rfl⟩ := List.mem_map.mp hr'
    by_cases hida : a.id = id <;> by_cases hidb : b.id = id
    · exact absurd (by simp [updatedRow, hida, hidb]) hne
    · simpa [updatedRow, hida, hidb] using hclear b hb hidb
    · simpa [updatedRow, hida, hidb] using (hclear a ha hida).symm
    · have hne' : a ≠ b := by
        rintro rfl
        exact hne rfl
      simpa [updatedRow, hida, hidb] using h.disjoint a ha b hb hne'

/-- The rest of the condition survives an update. -/
theorem Separate.updateSubnet (h : Separate db) (hmask : subnet.netmask ≤ 32)
    (hdisjoint : DisjointBlocks (db.subnets.map (updatedRow id subnet))) :
    Separate { db with subnets := db.subnets.map (updatedRow id subnet) } where
  nodup := by
    rw [map_key_map fun r _ => updatedRow_id r]
    exact h.nodup
  fresh r hr := by
    obtain ⟨a, ha, rfl⟩ := List.mem_map.mp hr
    rw [updatedRow_id]
    exact h.fresh a ha
  bounded r hr := by
    obtain ⟨a, ha, rfl⟩ := List.mem_map.mp hr
    unfold updatedRow
    split
    · exact hmask
    · exact h.bounded a ha
  disjoint := hdisjoint

end Table

/-- The request is not an update that moves a stored subnet onto addresses of another one. -/
def SubnetRequest.StaysClear (w : World SqliteDb) : SubnetRequest × (ℕ → Fate) → Prop
  | (.update id body, fates) => (fates 0).fails = false → w.db.acceptsUpdate id body.val = true →
      ∀ r ∈ w.db.subnets, r.id ≠ id → Disjoint body.val.block r.block
  | _ => True

/-- **One request.** From separate subnets, the blocks are disjoint after a request exactly if
it stays clear of the others, and then the subnets are separate again. -/
theorem SubnetRequest.step_separate {ord : ScanOrder} {w : World SqliteDb} (h : Separate w.db)
    (req : SubnetRequest × (ℕ → Fate)) :
    (DisjointBlocks (SubnetRequest.step ord w req).db.subnets ↔ SubnetRequest.StaysClear w req) ∧
      (SubnetRequest.StaysClear w req → Separate (SubnetRequest.step ord w req).db) := by
  obtain ⟨req, fates⟩ := req
  cases req with
  | create body =>
    have hstep : Separate (SubnetRequest.step ord w (.create body, fates)).db := by
      rcases @Api.createSubnet_run ord w fates body.val with hsame | ⟨hclear, hnew⟩
      · rw [SubnetRequest.step, hsame]
        exact h
      · rw [SubnetRequest.step, hnew]
        exact h.createSubnet body.property hclear
    exact ⟨iff_of_true hstep.disjoint trivial, fun _ => hstep⟩
  | delete id =>
    have hstep : Separate (SubnetRequest.step ord w (.delete id, fates)).db := by
      rw [SubnetRequest.step, Api.deleteSubnet_run]
      split
      · exact h
      · exact h.deleteSubnet id
    exact ⟨iff_of_true hstep.disjoint trivial, fun _ => hstep⟩
  | update id body =>
    rw [SubnetRequest.step, Api.updateSubnet_run, SubnetRequest.StaysClear]
    cases hfails : (fates 0).fails with
    | true =>
      simp only [if_true]
      exact ⟨iff_of_true h.disjoint (by simp), fun _ => h⟩
    | false =>
      simp only [Bool.false_eq_true, if_false, true_implies]
      cases haccept : w.db.acceptsUpdate id body.val with
      | false =>
        rw [SqliteDb.updateSubnet_of_not_accepts haccept]
        exact ⟨iff_of_true h.disjoint (by simp), fun _ => h⟩
      | true =>
        rw [SqliteDb.updateSubnet_of_accepts haccept]
        have hiff := h.updateSubnet_iff haccept
        exact ⟨hiff.trans (by simp), fun hclear =>
          h.updateSubnet body.property (hiff.mpr (hclear rfl))⟩

/-- **When stored subnets are disjoint.** Start on any database without subnets, and let the
API serve any requests that create, update and delete subnets, one at a time, with prefix
lengths of at most 32 and any calls failing. The blocks of distinct stored subnets are disjoint
in every state reached if and only if no update on the way moves a stored subnet onto addresses
of another one. -/
theorem stored_subnets_disjoint_iff (ord : ScanOrder) (w : World SqliteDb)
    (hempty : w.db.subnets = []) (requests : List (SubnetRequest × (ℕ → Fate))) :
    (∀ served, served <+: requests →
      DisjointBlocks (Run.after (SubnetRequest.step ord) w served).db.subnets) ↔
    Run.Along (SubnetRequest.step ord) SubnetRequest.StaysClear w requests := by
  have hseparate : Separate w.db := by
    refine ⟨?_, ?_, ?_, ?_⟩ <;> simp [hempty, DisjointBlocks]
  exact @Run.forall_prefix_iff _ _ (SubnetRequest.step ord) SubnetRequest.StaysClear w requests
    (fun w => Separate w.db) (fun w => DisjointBlocks w.db.subnets) (fun _ h => h.disjoint)
    (fun _ req h => (SubnetRequest.step_separate h req).1)
    (fun _ req h => (SubnetRequest.step_separate h req).2) hseparate

namespace Sample

/-- A subnet of the test network 10.0.0.0/8. -/
def body (b : UInt8) (netmask : UInt8) (h : netmask ≤ 32) : SubnetBody :=
  ⟨⟨none, .new 10 0 b 0, netmask, .new 10 0 b 1, [], none⟩, h⟩

/-- Two adjacent subnets are created, and the second one is halved. -/
def halved : List (SubnetRequest × (ℕ → Fate)) :=
  [(.create (body 0 24 (by decide)), fun _ => .calm),
    (.create (body 1 24 (by decide)), fun _ => .calm),
    (.update 2 (body 1 25 (by decide)), fun _ => .calm)]

/-- Two adjacent subnets are created, and the second one is moved into the first. -/
def moved : List (SubnetRequest × (ℕ → Fate)) :=
  [(.create (body 0 24 (by decide)), fun _ => .calm),
    (.create (body 1 24 (by decide)), fun _ => .calm),
    (.update 2 (body 0 25 (by decide)), fun _ => .calm)]

end Sample

/-- Halving a subnet keeps the blocks disjoint. -/
theorem stored_subnets_disjoint_iff_halved :
    SqliteDb.empty.subnets = [] ∧ ∀ served, served <+: Sample.halved →
      DisjointBlocks (Run.after (SubnetRequest.step .rowid) ⟨.empty, 0⟩ served).db.subnets := by
  refine ⟨rfl, (stored_subnets_disjoint_iff .rowid ⟨.empty, 0⟩ rfl Sample.halved).mpr
    ⟨trivial, trivial, fun _ _ r hr hid => ?_, trivial⟩⟩
  have hother : ∀ r ∈ (Run.after (SubnetRequest.step .rowid) ⟨.empty, 0⟩
      (Sample.halved.take 2)).db.subnets, r.id ≠ 2 →
      subnetsOverlap (.new 10 0 1 0) 25 r.network r.netmask = false ∧ r.netmask ≤ 32 := by
    decide +kernel
  obtain ⟨hclear, hmask⟩ := hother r hr hid
  by_contra hmeet
  have hoverlap : subnetsOverlap (.new 10 0 1 0) 25 r.network r.netmask = true :=
    (subnetsOverlap_iff (by decide) hmask).mpr hmeet
  rw [hclear] at hoverlap
  cases hoverlap

/-- The update is carried out, and the address 10.0.0.0 is then in both blocks. -/
theorem update_moves_onto_other :
    ¬ ∀ served, served <+: Sample.moved →
      DisjointBlocks (Run.after (SubnetRequest.step .rowid) ⟨.empty, 0⟩ served).db.subnets := by
  intro h
  have hrows : (Run.after (SubnetRequest.step .rowid) ⟨.empty, 0⟩ Sample.moved).db.subnets =
      [(Sample.body 0 24 (by decide)).val.toRow 1, (Sample.body 0 25 (by decide)).val.toRow 2] := by
    decide +kernel
  have hdisjoint := h Sample.moved (List.prefix_refl _)
  rw [hrows] at hdisjoint
  have hblocks := hdisjoint ((Sample.body 0 24 (by decide)).val.toRow 1) (by simp)
    ((Sample.body 0 25 (by decide)).val.toRow 2) (by simp) (by decide)
  exact Set.disjoint_left.mp hblocks (rfl : (.new 10 0 0 0 : Ipv4Addr) ∈ _) rfl

end Ndhcpd
