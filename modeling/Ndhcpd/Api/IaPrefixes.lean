import Ndhcpd.Api.Subnets

/-!
# The IPv6-prefix endpoints of the API

The handlers of `/api/ia-prefixes` as programs over the database interface, each of them one
statement. A lifetime of zero stands for the default of the configuration: `create_ia_prefix`
puts the default in, `update_ia_prefix` stores the body as it is.
-/

namespace Ndhcpd

/-- The lifetimes that the configuration of Router Advertisements provides, in seconds. -/
structure RaConfig where
  defaultPreferredLifetime : UInt32
  defaultValidLifetime : UInt32
  defaultDnsLifetime : UInt32
deriving DecidableEq, Repr

/-- `impl Default for RaConfig`: a day, thirty days, a day. -/
def RaConfig.default : RaConfig := ⟨86400, 2592000, 86400⟩

/-- The body of a creation with the defaults of the configuration put in for zeros. -/
def IAPrefix.withDefaults (raConfig : RaConfig) (p : IAPrefix) : IAPrefix :=
  { p with
    preferredLifetime :=
      if p.preferredLifetime = 0 then raConfig.defaultPreferredLifetime else p.preferredLifetime
    validLifetime := if p.validLifetime = 0 then raConfig.defaultValidLifetime else p.validLifetime
    dnsLifetime := if p.dnsLifetime = 0 then raConfig.defaultDnsLifetime else p.dnsLifetime }

namespace Api

/-- `GET /api/ia-prefixes`. -/
def listIaPrefixes (interface : Option String) :
    ServerProgram (Except StatusCode (List IAPrefix)) := do
  match ← dbCall (.listIaPrefixes interface) with
  | .ok prefixes => return .ok prefixes
  | .error _ => return .error .internalServerError

/-- `POST /api/ia-prefixes`. -/
def createIaPrefix (raConfig : RaConfig) (pfx : IAPrefix) :
    ServerProgram (Except StatusCode (StatusCode × ℤ)) := do
  match ← dbCall (.createIaPrefix (pfx.withDefaults raConfig)) with
  | .ok id => return .ok (.created, id)
  | .error _ => return .error .internalServerError

/-- `GET /api/ia-prefixes/{id}`. -/
def getIaPrefix (id : ℤ) : ServerProgram (Except StatusCode IAPrefix) := do
  match ← dbCall (.getIaPrefix id) with
  | .ok (some pfx) => return .ok pfx
  | .ok none => return .error .notFound
  | .error _ => return .error .internalServerError

/-- `PUT /api/ia-prefixes/{id}`. -/
def updateIaPrefix (id : ℤ) (pfx : IAPrefix) : ServerProgram (Except StatusCode StatusCode) := do
  match ← dbCall (.updateIaPrefix id pfx) with
  | .ok _ => return .ok .ok
  | .error _ => return .error .internalServerError

/-- `DELETE /api/ia-prefixes/{id}`. -/
def deleteIaPrefix (id : ℤ) : ServerProgram (Except StatusCode StatusCode) := do
  match ← dbCall (.deleteIaPrefix id) with
  | .ok _ => return .ok .noContent
  | .error _ => return .error .internalServerError

end Api

/-! ### Requests -/

/-- A request that changes the stored prefixes. -/
inductive IaPrefixRequest
  | create (body : IAPrefix)
  | update (id : ℤ) (body : IAPrefix)
  | delete (id : ℤ)
deriving DecidableEq, Repr

namespace IaPrefixRequest

/-- The world after a request, with the fates of the calls made for it. -/
def step (ord : ScanOrder) (raConfig : RaConfig) (w : World SqliteDb) :
    IaPrefixRequest × (ℕ → Fate) → World SqliteDb
  | (create body, fates) =>
    ((Api.createIaPrefix raConfig body).run (serve (SqliteDb.exec ord)) fates w).state
  | (update id body, fates) =>
    ((Api.updateIaPrefix id body).run (serve (SqliteDb.exec ord)) fates w).state
  | (delete id, fates) => ((Api.deleteIaPrefix id).run (serve (SqliteDb.exec ord)) fates w).state

/-- The statement that a request comes to. -/
def statement (raConfig : RaConfig) : IaPrefixRequest → DbCall
  | create body => .createIaPrefix (body.withDefaults raConfig)
  | update id body => .updateIaPrefix id body
  | delete id => .deleteIaPrefix id

/-- The request is one statement, which may fail. -/
theorem step_db (ord : ScanOrder) (raConfig : RaConfig) (w : World SqliteDb)
    (req : IaPrefixRequest) (fates : ℕ → Fate) :
    (step ord raConfig w (req, fates)).db = if (fates 0).fails then w.db
      else (SqliteDb.exec ord (w.clock + (fates 0).wait) w.db (req.statement raConfig)).2 := by
  cases req <;> exact run_statement (by rintro (e | u) <;> exact ⟨_, rfl⟩)

end IaPrefixRequest

end Ndhcpd
