import Ndhcpd.Interaction.Pool
import Ndhcpd.Api.Subnets

/-!
# Subnets that are created at the same time

The overlap test of `create_subnet` and its `INSERT` are two statements, and the server answers
its requests concurrently. A request that has passed the test may therefore insert next to
subnets that were inserted since; the database itself only refuses a second subnet with the same
network and prefix length.

`concurrent_creation_disjoint_iff` says for which sets of requests this is harmless: among those
that overlap with nothing stored, any two must be disjoint or equal.
-/

namespace Ndhcpd

/-- The subnet overlaps with none of the stored ones. -/
def SqliteDb.ClearOf (db : SqliteDb) (subnet : Subnet) : Prop :=
  ∀ r ∈ db.subnets, subnetsOverlap subnet.network subnet.netmask r.network r.netmask = false

/-- The two subnets have the same network and prefix length, or no address in common. -/
def Subnet.Compatible (s s' : Subnet) : Prop :=
  (s.network = s'.network ∧ s.netmask = s'.netmask) ∨ Disjoint s.block s'.block

/-- Requests to create subnets, all of them in progress. -/
def creations (bodies : List SubnetBody) (w : World SqliteDb) :
    Pool ServerCall ServerCall.Reply (World SqliteDb) (Except StatusCode (StatusCode × ℤ)) :=
  ⟨bodies.map fun body => Api.createSubnet body.val, w⟩

theorem mem_addressBlock_self (net : Ipv4Addr) (pfx : UInt8) : net ∈ addressBlock net pfx := rfl

/-! ### Harmless requests -/

section Harmless

variable (db₀ : SqliteDb) (bodies : List SubnetBody)

/-- What a store can have become when all that was done is to create some of the subnets. -/
structure Grown (db : SqliteDb) : Prop where
  kept : db₀.subnets ⊆ db.subnets
  rows : ∀ r ∈ db.subnets, r ∈ db₀.subnets ∨
    ∃ body ∈ bodies, db₀.ClearOf body.val ∧ r.network = body.val.network ∧
      r.netmask = body.val.netmask
  unique : ∀ r ∈ db.subnets, ∀ r' ∈ db.subnets,
    r.network = r'.network → r.netmask = r'.netmask → r = r'

/-- The requests are executed next to each other, and nothing else happens. -/
def creationSetting (ord : ScanOrder) : Setting ServerCall ServerCall.Reply (World SqliteDb) where
  rely w w' := Grown db₀ bodies w.db → Grown db₀ bodies w'.db
  rely_refl _ h := h
  rely_trans h h' hw := h' (h hw)
  inv w := Grown db₀ bodies w.db
  step c w r w' := ∃ fate, serve (SqliteDb.exec ord) fate c w = (r, w')

variable {db₀ bodies} {ord : ScanOrder} {db : SqliteDb}

/-- A subnet that passed the test is inserted, or refused for its network. -/
theorem Grown.createSubnet (h : Grown db₀ bodies db) {body : SubnetBody} (hbody : body ∈ bodies)
    (hclear : db₀.ClearOf body.val) : Grown db₀ bodies (db.createSubnet body.val).2 := by
  unfold SqliteDb.createSubnet
  split
  · exact h
  · next hnew =>
    have hfresh : ∀ r ∈ db.subnets, r.network = body.val.network →
        r.netmask ≠ body.val.netmask := by
      simpa using hnew
    constructor
    · exact fun r hr => List.mem_append.mpr (.inl (h.kept hr))
    · intro r hr
      rcases List.mem_append.mp hr with hold | hlast
      · exact h.rows r hold
      · obtain rfl := List.mem_singleton.mp hlast
        exact .inr ⟨body, hbody, hclear, rfl, rfl⟩
    · intro r hr r' hr' hnet hmask
      rw [List.mem_append, List.mem_singleton] at hr hr'
      rcases hr with hr | rfl <;> rcases hr' with hr' | rfl
      · exact h.unique r hr r' hr' hnet hmask
      · exact absurd hmask (hfresh r hr hnet)
      · exact absurd hmask.symm (hfresh r' hr' hnet.symm)
      · rfl

theorem stable_grown :
    (creationSetting db₀ bodies ord).Stable fun w => Grown db₀ bodies w.db :=
  ⟨fun h => h, fun h hw => hw h⟩

/-- A request keeps to this, whatever the others do in the meantime. -/
theorem Api.createSubnet_holds {body : SubnetBody} (hbody : body ∈ bodies) {w : World SqliteDb}
    (hw : Grown db₀ bodies w.db) :
    (creationSetting db₀ bodies ord).Holds (fun _ _ => True) (Api.createSubnet body.val) w := by
  have hdone : ∀ (a : Except StatusCode (StatusCode × ℤ)) {w : World SqliteDb},
      Grown db₀ bodies w.db →
      (creationSetting db₀ bodies ord).Holds (fun _ _ => True) (.done a) w :=
    fun _ _ h => stable_grown.done (fun _ _ => trivial) h
  refine stable_grown.request (fun w hw reply w' hstep => ?_) hw
  obtain ⟨fate, hserve⟩ := hstep
  rcases serve_cases (SqliteDb.exec ord) fate .listSubnets w with ⟨-, hlist⟩ | ⟨-, hlist⟩
  · obtain ⟨rfl, rfl⟩ := Prod.mk.inj (hlist.symm.trans hserve)
    exact hdone _ hw
  · obtain ⟨rfl, rfl⟩ := Prod.mk.inj (hlist.symm.trans hserve)
    show Setting.Holds _ _ (if _ then _ else _) _
    split
    · exact hdone _ hw
    · next htest =>
      -- the list shows at least what was there in the beginning
      have hclear : db₀.ClearOf body.val := by
        intro r hr
        rw [Bool.not_eq_true, List.any_eq_false] at htest
        have hlisted : r.toSubnet ∈ w.db.listSubnets ord := by
          simpa [SqliteDb.listSubnets] using ⟨r, hw.kept hr, rfl⟩
        simpa [SubnetRow.toSubnet] using htest r.toSubnet hlisted
      refine stable_grown.request (fun w hw reply w' hstep => ?_) hw
      obtain ⟨fate, hserve⟩ := hstep
      have hgrown : Grown db₀ bodies w'.db := by
        rcases serve_cases (SqliteDb.exec ord) fate (.createSubnet body.val) w with
          ⟨-, hinsert⟩ | ⟨-, hinsert⟩
        · obtain ⟨-, rfl⟩ := Prod.mk.inj (hinsert.symm.trans hserve)
          exact hw
        · obtain ⟨-, rfl⟩ := Prod.mk.inj (hinsert.symm.trans hserve)
          exact hw.createSubnet hbody hclear
      rcases reply with e | id
      · exact hdone _ hgrown
      · exact hdone _ hgrown

/-- Compatible requests leave the blocks disjoint. -/
theorem Grown.disjointBlocks (h : Grown db₀ bodies db) (hmask : ∀ r ∈ db₀.subnets, r.netmask ≤ 32)
    (hdisjoint : DisjointBlocks db₀.subnets)
    (hcompatible : ∀ a ∈ bodies, ∀ b ∈ bodies, db₀.ClearOf a.val → db₀.ClearOf b.val →
      a.val.Compatible b.val) : DisjointBlocks db.subnets := by
  -- a new row is disjoint from those of the beginning
  have hnew : ∀ r ∈ db₀.subnets, ∀ body : SubnetBody, db₀.ClearOf body.val →
      Disjoint body.val.block r.block := by
    intro r hr body hclear
    by_contra hmeet
    have hoverlap := (subnetsOverlap_iff body.property (hmask r hr)).mpr hmeet
    rw [hclear r hr] at hoverlap
    cases hoverlap
  have hblock : ∀ (r : SubnetRow) (s : Subnet), r.network = s.network → r.netmask = s.netmask →
      r.block = s.block := fun r s hn hm => by rw [SubnetRow.block, Subnet.block, hn, hm]
  intro r hr r' hr' hne
  rcases h.rows r hr with hold | ⟨a, ha, haclear, han, ham⟩ <;>
    rcases h.rows r' hr' with hold' | ⟨b, hb, hbclear, hbn, hbm⟩
  · exact hdisjoint r hold r' hold' hne
  · rw [hblock r' b.val hbn hbm]
    exact (hnew r hold b hbclear).symm
  · rw [hblock r a.val han ham]
    exact hnew r' hold' a haclear
  · rcases hcompatible a ha b hb haclear hbclear with ⟨hnet, hlen⟩ | hapart
    · exact absurd (h.unique r hr r' hr' (by rw [han, hbn, hnet]) (by rw [ham, hbm, hlen])) hne
    · rw [hblock r a.val han ham, hblock r' b.val hbn hbm]
      exact hapart

end Harmless

/-! ### The race -/

/-- What is left of a creation when the overlap test has been passed. -/
def insertSubnet (subnet : Subnet) : ServerProgram (Except StatusCode (StatusCode × ℤ)) := do
  match ← dbCall (.createSubnet subnet) with
  | .ok id => return .ok (.created, id)
  | .error e => return .error (if isUniqueViolation e then .conflict else .internalServerError)

/-- The database with a further subnet, under the next id. -/
def SqliteDb.withSubnet (db : SqliteDb) (subnet : Subnet) : SqliteDb :=
  { db with
    subnets := db.subnets ++ [subnet.toRow (db.subnetSeq + 1)]
    subnetSeq := db.subnetSeq + 1 }

section Race

variable {ord : ScanOrder} {subnet : Subnet} {i : ℕ}
  {p : Pool ServerCall ServerCall.Reply (World SqliteDb) (Except StatusCode (StatusCode × ℤ))}

/-- The test of a request that overlaps with nothing. -/
theorem step_createSubnet (hjob : p.jobs[i]? = some (Api.createSubnet subnet))
    (hclear : p.world.db.ClearOf subnet) :
    Pool.step (serve (SqliteDb.exec ord)) p (i, .calm) =
      ⟨p.jobs.set i (insertSubnet subnet), p.world⟩ := by
  have htest : ((p.world.db.listSubnets ord).any fun e =>
      subnetsOverlap subnet.network subnet.netmask e.network e.netmask) = false := by
    rw [List.any_eq_false]
    intro e he
    obtain ⟨r, hr, rfl⟩ : ∃ r ∈ p.world.db.subnets, r.toSubnet = e := by
      simpa [SqliteDb.listSubnets] using he
    simpa [SubnetRow.toSubnet] using hclear r hr
  rw [Api.createSubnet, dbCall_bind] at hjob
  rw [Pool.step_request hjob, serve_calm]
  simp only [SqliteDb.exec, htest]
  rfl

/-- The insertion of a subnet whose network is new. -/
theorem step_insertSubnet (hjob : p.jobs[i]? = some (insertSubnet subnet))
    (hnew : ∀ r ∈ p.world.db.subnets,
      ¬ (r.network = subnet.network ∧ r.netmask = subnet.netmask)) :
    Pool.step (serve (SqliteDb.exec ord)) p (i, .calm) =
      ⟨p.jobs.set i (.done (.ok (.created, p.world.db.subnetSeq + 1))),
        ⟨p.world.db.withSubnet subnet, p.world.clock⟩⟩ := by
  have hfree : (p.world.db.subnets.any fun r =>
      r.network == subnet.network && r.netmask == subnet.netmask) = false := by
    simpa using hnew
  rw [insertSubnet, dbCall_bind] at hjob
  rw [Pool.step_request hjob, serve_calm]
  simp [SqliteDb.exec, SqliteDb.createSubnet, hfree, SqliteDb.withSubnet]

/-- A subnet that overlaps with nothing has a network of its own. -/
theorem SqliteDb.ClearOf.new {db : SqliteDb} (hclear : db.ClearOf subnet)
    (hmask : subnet.netmask ≤ 32) :
    ∀ r ∈ db.subnets, ¬ (r.network = subnet.network ∧ r.netmask = subnet.netmask) := by
  rintro r hr ⟨hnet, hlen⟩
  have hself : subnetsOverlap subnet.network subnet.netmask r.network r.netmask = true := by
    rw [hnet, hlen]
    refine (subnetsOverlap_iff hmask hmask).mpr (Set.not_disjoint_iff.mpr ?_)
    exact ⟨subnet.network, mem_addressBlock_self _ _, mem_addressBlock_self _ _⟩
  rw [hclear r hr] at hself
  cases hself

/-- **The race.** Two requests that overlap with nothing stored, and have different networks,
both pass the test before either inserts, and both are inserted. -/
theorem after_race {w : World SqliteDb} {bodies : List SubnetBody} {a b : SubnetBody} {j : ℕ}
    (hi : bodies[i]? = some a) (hj : bodies[j]? = some b) (haclear : w.db.ClearOf a.val)
    (hbclear : w.db.ClearOf b.val)
    (hother : ¬ (a.val.network = b.val.network ∧ a.val.netmask = b.val.netmask)) :
    (Run.after (Pool.step (serve (SqliteDb.exec ord))) (creations bodies w)
      [(i, .calm), (j, .calm), (i, .calm), (j, .calm)]).world.db =
        (w.db.withSubnet a.val).withSubnet b.val := by
  have hij : i ≠ j := by
    rintro rfl
    obtain rfl : a = b := Option.some.inj (hi.symm.trans hj)
    exact hother ⟨rfl, rfl⟩
  let jobs := bodies.map fun body => Api.createSubnet body.val
  have hjobi : jobs[i]? = some (Api.createSubnet a.val) := by simp [jobs, hi]
  have hjobj : jobs[j]? = some (Api.createSubnet b.val) := by simp [jobs, hj]
  have hilt : i < jobs.length := (List.getElem?_eq_some_iff.mp hjobi).1
  have hjlt : j < jobs.length := (List.getElem?_eq_some_iff.mp hjobj).1
  -- both requests test before either of them inserts
  let tested := (jobs.set i (insertSubnet a.val)).set j (insertSubnet b.val)
  have htest : Pool.step (serve (SqliteDb.exec ord)) (creations bodies w) (i, .calm) =
      ⟨jobs.set i (insertSubnet a.val), w⟩ :=
    step_createSubnet hjobi haclear
  have htest' : Pool.step (serve (SqliteDb.exec ord)) ⟨jobs.set i (insertSubnet a.val), w⟩
      (j, .calm) = ⟨tested, w⟩ :=
    step_createSubnet (by simpa [hij] using hjobj) hbclear
  have hinsert : Pool.step (serve (SqliteDb.exec ord)) ⟨tested, w⟩ (i, .calm) =
      ⟨tested.set i (.done (.ok (.created, w.db.subnetSeq + 1))),
        ⟨w.db.withSubnet a.val, w.clock⟩⟩ :=
    step_insertSubnet (by simp [tested, hij.symm, hilt]) (haclear.new a.property)
  -- the unique constraint does not help: it compares network and prefix, not addresses
  have hnew : ∀ r ∈ (w.db.withSubnet a.val).subnets,
      ¬ (r.network = b.val.network ∧ r.netmask = b.val.netmask) := by
    intro r hr
    rcases List.mem_append.mp hr with hold | hlast
    · exact hbclear.new b.property r hold
    · obtain rfl := List.mem_singleton.mp hlast
      exact hother
  have hinsert' := @step_insertSubnet ord b.val j
    ⟨tested.set i (.done (.ok (.created, w.db.subnetSeq + 1))), ⟨w.db.withSubnet a.val, w.clock⟩⟩
    (by simp [tested, hij, hjlt]) hnew
  simp only [Run.after_cons, Run.after_nil, htest, htest', hinsert, hinsert']

end Race

/-- **When subnets may be created concurrently.** Start on a store of disjoint subnets, and let
any number of requests to create subnets be in progress, their calls interleaved in any way and
any of them failing. The store stays disjoint in every run if and only if any two of the
subnets that overlap with nothing stored have the same network and prefix length, or no address
in common. -/
theorem concurrent_creation_disjoint_iff (ord : ScanOrder) (w : World SqliteDb)
    (hmask : ∀ r ∈ w.db.subnets, r.netmask ≤ 32) (hdisjoint : DisjointBlocks w.db.subnets)
    (bodies : List SubnetBody) :
    (∀ schedule, DisjointBlocks (Run.after (Pool.step (serve (SqliteDb.exec ord)))
      (creations bodies w) schedule).world.db.subnets) ↔
    ∀ a ∈ bodies, ∀ b ∈ bodies, w.db.ClearOf a.val → w.db.ClearOf b.val →
      a.val.Compatible b.val := by
  constructor
  · intro h a ha b hb haclear hbclear
    by_contra hnot
    obtain ⟨hother, hmeet⟩ := not_or.mp hnot
    -- let the two incompatible requests race
    obtain ⟨i, hi⟩ := List.getElem?_of_mem ha
    obtain ⟨j, hj⟩ := List.getElem?_of_mem hb
    have hrows := h [(i, .calm), (j, .calm), (i, .calm), (j, .calm)]
    rw [after_race hi hj haclear hbclear hother] at hrows
    exact hmeet (hrows (a.val.toRow (w.db.subnetSeq + 1)) (by simp [SqliteDb.withSubnet])
      (b.val.toRow (w.db.subnetSeq + 1 + 1)) (by simp [SqliteDb.withSubnet])
      (by simp [Subnet.toRow]))
  · intro hcompatible schedule
    -- whatever the schedule, every stored subnet was there before or was clear at the start
    have hgrown : Grown w.db bodies w.db := by
      refine ⟨List.Subset.refl _, fun r hr => .inl hr, fun r hr r' hr' hnet hlen => ?_⟩
      by_contra hne
      have hapart := hdisjoint r hr r' hr' hne
      rw [SubnetRow.block, SubnetRow.block, hnet, hlen] at hapart
      exact Set.disjoint_left.mp hapart (mem_addressBlock_self _ _) (mem_addressBlock_self _ _)
    have hjobs : ∀ job ∈ (creations bodies w).jobs,
        (creationSetting w.db bodies ord).Holds (fun _ _ => True) job w := by
      intro job hjob
      obtain ⟨body, hbody, rfl⟩ := List.mem_map.mp hjob
      exact Api.createSubnet_holds hbody hgrown
    have hafter : Grown w.db bodies (Run.after (Pool.step (serve (SqliteDb.exec ord)))
        (creations bodies w) schedule).world.db :=
      Pool.after_inv (p := creations bodies w) (S := creationSetting w.db bodies ord)
        (fun fate c w => ⟨fate, rfl⟩) (fun _ h _ => h) hgrown hjobs schedule
    exact hafter.disjointBlocks hmask hdisjoint hcompatible

/-- Two adjacent subnets may be created at the same time. -/
theorem concurrent_creation_disjoint_iff_adjacent :
    DisjointBlocks SqliteDb.empty.subnets ∧
    ∀ schedule, DisjointBlocks (Run.after (Pool.step (serve (SqliteDb.exec .rowid)))
      (creations [Sample.body 0 24 (by decide), Sample.body 1 24 (by decide)] ⟨.empty, 0⟩)
        schedule).world.db.subnets := by
  have hapart : Disjoint (Sample.body 0 24 (by decide)).val.block
      (Sample.body 1 24 (by decide)).val.block := by
    by_contra hmeet
    have hoverlap := (subnetsOverlap_iff (by decide) (by decide)).mpr hmeet
    exact absurd hoverlap (by decide)
  have hempty : DisjointBlocks SqliteDb.empty.subnets := by simp [DisjointBlocks, SqliteDb.empty]
  refine ⟨hempty, (concurrent_creation_disjoint_iff .rowid ⟨.empty, 0⟩ (by simp [SqliteDb.empty])
    hempty _).mpr ?_⟩
  intro a ha b hb _ _
  simp only [List.mem_cons, List.not_mem_nil, or_false] at ha hb
  rcases ha with rfl | rfl <;> rcases hb with rfl | rfl
  · exact .inl ⟨rfl, rfl⟩
  · exact .inr hapart
  · exact .inr hapart.symm
  · exact .inl ⟨rfl, rfl⟩

/-- On an empty store, 10.0.0.0/24 and 10.0.0.0/25 are created at the same time: both requests
list the subnets, and then both insert. -/
theorem concurrent_creation_overlaps :
    ¬ ∀ schedule, DisjointBlocks (Run.after (Pool.step (serve (SqliteDb.exec .rowid)))
      (creations [Sample.body 0 24 (by decide), Sample.body 0 25 (by decide)] ⟨.empty, 0⟩)
        schedule).world.db.subnets := by
  intro h
  have hrows : (Run.after (Pool.step (serve (SqliteDb.exec .rowid)))
      (creations [Sample.body 0 24 (by decide), Sample.body 0 25 (by decide)] ⟨.empty, 0⟩)
        [(0, .calm), (1, .calm), (0, .calm), (1, .calm)]).world.db.subnets =
      [(Sample.body 0 24 (by decide)).val.toRow 1, (Sample.body 0 25 (by decide)).val.toRow 2] := by
    decide +kernel
  have hdisjoint := h [(0, .calm), (1, .calm), (0, .calm), (1, .calm)]
  rw [hrows] at hdisjoint
  have hblocks := hdisjoint ((Sample.body 0 24 (by decide)).val.toRow 1) (by simp)
    ((Sample.body 0 25 (by decide)).val.toRow 2) (by simp) (by decide)
  exact Set.disjoint_left.mp hblocks (rfl : (.new 10 0 0 0 : Ipv4Addr) ∈ _) rfl

end Ndhcpd
