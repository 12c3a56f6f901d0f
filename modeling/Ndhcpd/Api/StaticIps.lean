import Ndhcpd.Api.Subnets

/-!
# The static-assignment endpoints of the API

The handlers of `/api/static-ips` as programs over the database interface, each of them one
statement. The table has the address as its primary key and a unique MAC text; the MAC text is
what the client of the API sent, and it is compared byte by byte. The lookup of an assignment
ignores the case of letters, so that two assignments whose MAC texts differ in case only belong
to the same client.

`static_ips_unique_iff` says exactly which sequences of requests keep assignments unique in the
sense of the lookup.
-/

namespace Ndhcpd

namespace Api

/-- `GET /api/static-ips`. -/
def listStaticIps (subnetId : Option ℤ) : ServerProgram (Except StatusCode (List StaticIP)) := do
  match ← dbCall (.listStaticIps subnetId) with
  | .ok staticIps => return .ok staticIps
  | .error _ => return .error .internalServerError

/-- `POST /api/static-ips`. -/
def createStaticIp (staticIp : StaticIP) : ServerProgram (Except StatusCode StatusCode) := do
  match ← dbCall (.createStaticIp staticIp) with
  | .ok _ => return .ok .created
  | .error e => return .error (if isUniqueViolation e then .conflict else .internalServerError)

/-- `DELETE /api/static-ips/{ip}`. -/
def deleteStaticIp (ip : String) : ServerProgram (Except StatusCode StatusCode) := do
  match ← dbCall (.deleteStaticIp ip) with
  | .ok _ => return .ok .noContent
  | .error _ => return .error .internalServerError

/-- `PATCH /api/static-ips/{ip}/hostname`. -/
def updateStaticIpHostname (ip : String) (hostname : Option String) :
    ServerProgram (Except StatusCode StatusCode) := do
  match ← dbCall (.updateStaticIpHostname ip hostname) with
  | .ok _ => return .ok .noContent
  | .error _ => return .error .internalServerError

end Api

/-! ### Requests -/

/-- A request that changes the static assignments. -/
inductive StaticIpRequest
  | create (body : StaticIP)
  | delete (ip : String)
  | updateHostname (ip : String) (hostname : Option String)
  | deleteSubnet (id : ℤ)
deriving DecidableEq, Repr

namespace StaticIpRequest

/-- The handler of a request. -/
def handler : StaticIpRequest → ServerProgram (Except StatusCode StatusCode)
  | create body => Api.createStaticIp body
  | delete ip => Api.deleteStaticIp ip
  | updateHostname ip hostname => Api.updateStaticIpHostname ip hostname
  | deleteSubnet id => Api.deleteSubnet id

/-- The statement that a request comes to. -/
def statement : StaticIpRequest → DbCall
  | create body => .createStaticIp body
  | delete ip => .deleteStaticIp ip
  | updateHostname ip hostname => .updateStaticIpHostname ip hostname
  | deleteSubnet id => .deleteSubnet id

/-- The world after a request, with the fates of the calls made for it. -/
def step (ord : ScanOrder) (w : World SqliteDb) (req : StaticIpRequest × (ℕ → Fate)) :
    World SqliteDb :=
  (req.1.handler.run (serve (SqliteDb.exec ord)) req.2 w).state

/-- The request is one statement, which may fail. -/
theorem step_db (ord : ScanOrder) (w : World SqliteDb) (req : StaticIpRequest)
    (fates : ℕ → Fate) :
    (step ord w (req, fates)).db = if (fates 0).fails then w.db
      else (SqliteDb.exec ord (w.clock + (fates 0).wait) w.db req.statement).2 := by
  cases req <;> exact run_statement (by rintro (e | u) <;> exact ⟨_, rfl⟩)

end StaticIpRequest

/-! ### Unique assignments -/

/-- No address is assigned twice, no client has two assignments, whatever the case of the
letters in its MAC text, and so a lookup matches at most one assignment. -/
structure UniqueStaticIps (rows : List StaticIP) : Prop where
  ips : (rows.map (·.ipAddress)).Nodup
  macs : (rows.map (·.macAddress.toLower)).Nodup
  lookup : ∀ mac : String, (rows.filter fun s => s.macAddress.toLower == mac.toLower).length ≤ 1

section Unique

variable {rows : List StaticIP}

/-- Where clients are unique, a lookup matches at most one row. -/
theorem length_lookup_le_one (h : (rows.map (·.macAddress.toLower)).Nodup) (mac : String) :
    (rows.filter fun s => s.macAddress.toLower == mac.toLower).length ≤ 1 := by
  have hfound : ∀ s ∈ rows.filter fun s => s.macAddress.toLower == mac.toLower,
      s.macAddress.toLower = mac.toLower := fun s hs => by simpa using (List.mem_filter.mp hs).2
  have hnodup := h.sublist ((List.filter_sublist (p := fun s : StaticIP =>
    s.macAddress.toLower == mac.toLower)).map _)
  generalize rows.filter (fun s => s.macAddress.toLower == mac.toLower) = found at hfound hnodup ⊢
  match found with
  | [] => simp
  | [_] => simp
  | s :: s' :: rest =>
    have heq := (hfound s (by simp)).trans (hfound s' (by simp)).symm
    simp [heq] at hnodup

/-- Two of the three conditions are enough. -/
theorem uniqueStaticIps_iff :
    UniqueStaticIps rows ↔
      (rows.map (·.ipAddress)).Nodup ∧ (rows.map (·.macAddress.toLower)).Nodup :=
  ⟨fun h => ⟨h.ips, h.macs⟩, fun ⟨hips, hmacs⟩ => ⟨hips, hmacs, length_lookup_le_one hmacs⟩⟩

theorem UniqueStaticIps.sublist (h : UniqueStaticIps rows) {rows' : List StaticIP}
    (hrows : rows'.Sublist rows) : UniqueStaticIps rows' :=
  uniqueStaticIps_iff.mpr ⟨h.ips.sublist (hrows.map _), h.macs.sublist (hrows.map _)⟩

/-- Changing hostnames keeps what is unique. -/
theorem UniqueStaticIps.map (h : UniqueStaticIps rows) {f : StaticIP → StaticIP}
    (hip : ∀ s, (f s).ipAddress = s.ipAddress) (hmac : ∀ s, (f s).macAddress = s.macAddress) :
    UniqueStaticIps (rows.map f) := by
  have hips : (rows.map f).map (·.ipAddress) = rows.map (·.ipAddress) :=
    map_key_map fun s _ => hip s
  have hmacs : (rows.map f).map (·.macAddress.toLower) = rows.map (·.macAddress.toLower) :=
    map_key_map fun s _ => congrArg String.toLower (hmac s)
  exact uniqueStaticIps_iff.mpr ⟨hips ▸ h.ips, hmacs ▸ h.macs⟩

/-- **A further assignment** that the table accepts leaves the assignments unique exactly if its
client has none yet. -/
theorem UniqueStaticIps.append_iff (h : UniqueStaticIps rows) {staticIp : StaticIP}
    (hfree : ∀ s ∈ rows, s.ipAddress ≠ staticIp.ipAddress) :
    UniqueStaticIps (rows ++ [staticIp]) ↔
      ∀ s ∈ rows, s.macAddress.toLower ≠ staticIp.macAddress.toLower := by
  rw [uniqueStaticIps_iff, nodup_map_append h.ips, nodup_map_append h.macs]
  exact and_iff_right hfree

end Unique

/-- The request does not have an assignment accepted whose MAC text differs from a stored one in
the case of letters only. -/
def StaticIpRequest.NewClient (w : World SqliteDb) : StaticIpRequest × (ℕ → Fate) → Prop
  | (.create body, fates) => (fates 0).fails = false → w.db.acceptsStaticIp body = true →
      ∀ s ∈ w.db.staticIps, s.macAddress.toLower ≠ body.macAddress.toLower
  | _ => True

section Step

variable {ord : ScanOrder} {w : World SqliteDb}

/-- What the table holds after an assignment was offered to it. -/
theorem SqliteDb.createStaticIp_staticIps (db : SqliteDb) (staticIp : StaticIP) :
    (db.createStaticIp staticIp).2.staticIps =
      if db.acceptsStaticIp staticIp then db.staticIps ++ [staticIp] else db.staticIps := by
  cases htaken : db.staticIps.any fun s =>
      s.ipAddress == staticIp.ipAddress || s.macAddress == staticIp.macAddress with
  | true =>
    have hreject : db.acceptsStaticIp staticIp = false := by
      obtain ⟨s, hs, hsame⟩ := List.any_eq_true.mp htaken
      simp only [SqliteDb.acceptsStaticIp, Bool.and_eq_false_iff, List.all_eq_false]
      exact .inl ⟨s, hs, by simpa [or_iff_not_imp_left] using hsame⟩
    simp [SqliteDb.createStaticIp, htaken, hreject]
  | false =>
    have haccept : db.acceptsStaticIp staticIp = db.hasSubnet staticIp.subnetId := by
      simpa [SqliteDb.acceptsStaticIp] using fun _ => List.any_eq_false.mp htaken
    rw [haccept]
    cases hsub : db.hasSubnet staticIp.subnetId <;>
      simp [SqliteDb.createStaticIp, htaken, hsub]

/-- **One request.** From unique assignments, they are unique after a request exactly if it
keeps to new clients. -/
theorem StaticIpRequest.step_unique (h : UniqueStaticIps w.db.staticIps)
    (req : StaticIpRequest × (ℕ → Fate)) :
    UniqueStaticIps (step ord w req).db.staticIps ↔ NewClient w req := by
  obtain ⟨req, fates⟩ := req
  rw [step_db]
  cases hf : (fates 0).fails with
  | true =>
    rw [if_pos rfl]
    refine iff_of_true h ?_
    cases req with
    | create body => exact fun hcalm => absurd hcalm (by simp [hf])
    | _ => trivial
  | false =>
    rw [if_neg (by simp)]
    cases req with
    | create body =>
      cases haccept : w.db.acceptsStaticIp body with
      | true =>
        -- the table compares MAC texts byte by byte, a lookup does not
        obtain ⟨hfree, hsub⟩ : (∀ s ∈ w.db.staticIps, s.ipAddress ≠ body.ipAddress ∧
            s.macAddress ≠ body.macAddress) ∧ w.db.hasSubnet body.subnetId = true := by
          simpa [SqliteDb.acceptsStaticIp] using haccept
        have hrows : (w.db.createStaticIp body).2.staticIps = w.db.staticIps ++ [body] := by
          rw [SqliteDb.createStaticIp_staticIps, if_pos haccept]
        change UniqueStaticIps (w.db.createStaticIp body).2.staticIps ↔ _
        rw [hrows, h.append_iff fun s hs => (hfree s hs).1]
        simp [NewClient, hf, haccept]
      | false =>
        have hrows : (w.db.createStaticIp body).2.staticIps = w.db.staticIps := by
          rw [SqliteDb.createStaticIp_staticIps, if_neg (by simp [haccept])]
        change UniqueStaticIps (w.db.createStaticIp body).2.staticIps ↔ _
        rw [hrows]
        exact iff_of_true h (by simp [NewClient, haccept])
    | delete ip => exact iff_of_true (h.sublist List.filter_sublist) trivial
    | deleteSubnet id => exact iff_of_true (h.sublist List.filter_sublist) trivial
    | updateHostname ip hostname =>
      refine iff_of_true (h.map (fun s => ?_) (fun s => ?_)) trivial
      · split <;> rfl
      · split <;> rfl

end Step

/-- **When static assignments are unique.** Starting without assignments, no address and no
client, up to the case of letters, has two of them in any state of a run if and only if no
request of the run gets an assignment accepted whose MAC text differs from a stored one in the
case of letters only. -/
theorem static_ips_unique_iff (ord : ScanOrder) (w : World SqliteDb) (hempty : w.db.staticIps = [])
    (requests : List (StaticIpRequest × (ℕ → Fate))) :
    (∀ served, served <+: requests →
      UniqueStaticIps (Run.after (StaticIpRequest.step ord) w served).db.staticIps) ↔
      Run.Along (StaticIpRequest.step ord) StaticIpRequest.NewClient w requests := by
  have hstart : UniqueStaticIps w.db.staticIps := by
    rw [hempty]
    exact ⟨List.nodup_nil, List.nodup_nil, fun mac => Nat.zero_le 1⟩
  refine Run.forall_prefix_iff (I := fun w : World SqliteDb => UniqueStaticIps w.db.staticIps)
    (fun w h => h) ?_ ?_ hstart
  · intro w req h
    exact StaticIpRequest.step_unique h req
  · intro w req h hnew
    exact (StaticIpRequest.step_unique h req).mpr hnew

namespace Sample

/-- Requests of the administrator for two clients with fixed addresses. -/
def assigns (mac mac' : String) : List (StaticIpRequest × (ℕ → Fate)) :=
  [(.create ⟨1, mac, .new 10 0 0 5, none⟩, fun _ => .calm),
    (.create ⟨1, mac', .new 10 0 0 6, none⟩, fun _ => .calm)]

end Sample

/-- Assignments for two clients are unique. -/
theorem static_ips_unique_iff_two :
    Sample.world.db.staticIps = [] ∧
    ∀ served, served <+: Sample.assigns "02:00:00:00:00:0a" "02:00:00:00:00:0b" →
      UniqueStaticIps (Run.after (StaticIpRequest.step .rowid) Sample.world served).db.staticIps := by
  refine ⟨rfl, (static_ips_unique_iff .rowid Sample.world rfl _).mpr ⟨?_, ?_, trivial⟩⟩
  · intro _ _ s hs
    cases hs
  · intro _ _
    decide +kernel

/-- One client gets two assignments, its MAC address written in two ways. -/
theorem client_assigned_twice :
    ¬ ∀ served, served <+: Sample.assigns "02:00:00:00:00:0a" "02:00:00:00:00:0A" →
      UniqueStaticIps (Run.after (StaticIpRequest.step .rowid) Sample.world served).db.staticIps := by
  intro h
  have hrows : (Run.after (StaticIpRequest.step .rowid) Sample.world
      (Sample.assigns "02:00:00:00:00:0a" "02:00:00:00:00:0A")).db.staticIps =
        [⟨1, "02:00:00:00:00:0a", .new 10 0 0 5, none⟩,
          ⟨1, "02:00:00:00:00:0A", .new 10 0 0 6, none⟩] := by decide +kernel
  have hsame : "02:00:00:00:00:0a".toLower = "02:00:00:00:00:0A".toLower := by
    apply String.ext
    change (String.map Char.toLower _).toList = (String.map Char.toLower _).toList
    rw [String.toList_map, String.toList_map]
    decide
  have hmacs := (h _ (List.prefix_refl _)).macs
  rw [hrows] at hmacs
  simp [hsame] at hmacs

end Ndhcpd
