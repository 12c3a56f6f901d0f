import Ndhcpd.Interaction.Commit
import Ndhcpd.Auth.Middleware
import Ndhcpd.Api.StaticIps
import Ndhcpd.Api.IaPrefixes

/-!
# The router of the API

`create_router_with_auth` puts the handlers behind their paths and methods, all of them but the
health check behind `auth_middleware` if authentication is required. Requests are answered
concurrently: they are the jobs of a `Pool`, and their database calls interleave in any way.

Two results hold of all requests to all endpoints in every interleaving. `changes_reported`: when a
request changes the database, apart from the time a token was last used, this is its last call, and
its answer is a success; so a request whose answer is an error has changed nothing, and none changes
the database twice. `intruders_excluded`: a request that needs a token and has none that works
changes nothing at all, and if it is answered, then with 401.

How bodies and query strings are decoded is a parameter; a rejected one is answered with a status
before anything is called.
-/

namespace Ndhcpd

/-! ### Responses -/

/-- The number of a status. -/
def StatusCode.code : StatusCode → ℕ
  | .ok => 200
  | .created => 201
  | .noContent => 204
  | .unauthorized => 401
  | .notFound => 404
  | .conflict => 409
  | .internalServerError => 500

/-- The body of a response: nothing, a text that the framework writes (`rejection`), a text, or the
JSON document of a value. -/
inductive ResponseBody
  | empty
  | rejection
  | null
  | text (s : String)
  | id (id : ℤ)
  | subnet (subnet : Subnet)
  | subnets (subnets : List Subnet)
  | ranges (ranges : List DynamicRange)
  | staticIps (staticIps : List StaticIP)
  | leases (leases : List Lease)
  | tokens (tokens : List ApiToken)
  | createdToken (response : CreateTokenResponse)
  | iaPrefix (pfx : IAPrefix)
  | iaPrefixes (prefixes : List IAPrefix)
  | health (status : String)
deriving DecidableEq, Repr

/-- An answer: its status and its body. -/
structure Response where
  status : ℕ
  body : ResponseBody
deriving DecidableEq, Repr

/-- The status is one of success. -/
def Response.Succeeded (response : Response) : Prop :=
  200 ≤ response.status ∧ response.status < 300

/-- An answer that is a status only. -/
def respondStatus (status : StatusCode) : Response := ⟨status.code, .empty⟩

/-- An error answer with a text. -/
def respondError (e : ApiError) : Response := ⟨e.1.code, .text e.2⟩

/-- The answer to a row that was created. -/
def respondId (created : StatusCode × ℤ) : Response := ⟨created.1.code, .id created.2⟩

/-- The response to a `Result`. -/
def respond {ε α : Type} (error : ε → Response) (ok : α → Response) : Except ε α → Response
  | .ok a => ok a
  | .error e => error e

/-! ### Requests -/

/-- The methods of HTTP. -/
inductive HttpMethod
  | get | head | post | put | delete | patch | other
deriving DecidableEq, Repr

/-- The JSON documents that a client of the API sends. -/
inductive RequestDocument
  | subnet (subnet : Subnet)
  | range (range : DynamicRange)
  | staticIp (staticIp : StaticIP)
  | hostname (hostname : Option String)
  | iaPrefix (pfx : IAPrefix)
deriving DecidableEq, Repr

/-- The body of a request: the JSON text that is written for a value, or any other bytes with their
content type. -/
inductive RequestBody
  | json (doc : RequestDocument)
  | other (contentType : Option String) (bytes : List UInt8)
deriving DecidableEq, Repr

/-- A request: what the middleware looks at, the method, the decoded segments of the path, the query
string and the body. The last two fields are what is drawn while it is handled. -/
structure ApiRequest where
  http : HttpRequest
  method : HttpMethod
  path : List String
  query : String
  body : RequestBody
  rng : Token.RandomBytes
  salt : String

/-- The extractors of the framework, with the status of a rejection. -/
structure Extractors where
  subnet : RequestBody → Except ℕ Subnet
  range : RequestBody → Except ℕ DynamicRange
  staticIp : RequestBody → Except ℕ StaticIP
  hostname : RequestBody → Except ℕ (Option String)
  tokenName : RequestBody → Except ℕ String
  iaPrefix : RequestBody → Except ℕ IAPrefix
  subnetId : String → Except ℕ (Option ℤ)
  interface : String → Except ℕ (Option String)

/-- `i64::from_str`: digits after an optional sign, within the range. -/
def parseI64 (s : String) : Option ℤ :=
  let digits : List Char → Option ℕ := fun ds =>
    if ds.isEmpty || !ds.all Char.isDigit then none
    else some (ds.foldl (fun n c => 10 * n + (c.toNat - '0'.toNat)) 0)
  let value : Option ℤ :=
    match s.toList with
    | '-' :: ds => (digits ds).map fun n => -(n : ℤ)
    | '+' :: ds => (digits ds).map fun n => (n : ℤ)
    | ds => (digits ds).map fun n => (n : ℤ)
  value.filter fun n => decide (-2 ^ 63 ≤ n ∧ n < 2 ^ 63)

example : (parseI64 "-42", parseI64 "+7", parseI64 "", parseI64 "1.5") =
    (some (-42), some 7, none, none) := by decide +kernel

/-- `Path<i64>`. -/
def pathId (segment : String) : Except ℕ ℤ :=
  match parseI64 segment with
  | some id => .ok id
  | none => .error 400

/-! ### The remaining handlers -/

namespace Api

/-- `GET /api/ranges`. -/
def listRanges (subnetId : Option ℤ) : ServerProgram (Except StatusCode (List DynamicRange)) := do
  match ← dbCall (.listRanges subnetId) with
  | .ok ranges => return .ok ranges
  | .error _ => return .error .internalServerError

/-- `POST /api/ranges`. -/
def createRange (range : DynamicRange) : ServerProgram (Except StatusCode (StatusCode × ℤ)) := do
  match ← dbCall (.createRange range) with
  | .ok id => return .ok (.created, id)
  | .error _ => return .error .internalServerError

/-- `DELETE /api/ranges/{id}`. -/
def deleteRange (id : ℤ) : ServerProgram (Except StatusCode StatusCode) := do
  match ← dbCall (.deleteRange id) with
  | .ok _ => return .ok .noContent
  | .error _ => return .error .internalServerError

/-- `GET /api/leases`. -/
def listLeases : ServerProgram (Except StatusCode (List Lease)) := do
  match ← dbCall .listActiveLeases with
  | .ok leases => return .ok leases
  | .error _ => return .error .internalServerError

/-- `GET /health`. -/
def healthCheck : Response := ⟨200, .health "healthy"⟩

end Api

/-! ### Routes -/

/-- The paths behind the middleware. -/
inductive Route
  | subnets
  | subnet (id : String)
  | ranges
  | range (id : String)
  | staticIps
  | staticIp (ip : String)
  | staticIpHostname (ip : String)
  | leases
  | tokens
  | token (id : String)
  | tokenToggle (id : String)
  | iaPrefixes
  | iaPrefix (id : String)
deriving DecidableEq, Repr

/-- The route of a path. A parameter of a path is a segment that is not empty. -/
def Route.ofPath : List String → Option Route
  | ["api", "subnets"] => some subnets
  | ["api", "subnets", id] => if id.isEmpty then none else some (subnet id)
  | ["api", "ranges"] => some ranges
  | ["api", "ranges", id] => if id.isEmpty then none else some (range id)
  | ["api", "static-ips"] => some staticIps
  | ["api", "static-ips", ip] => if ip.isEmpty then none else some (staticIp ip)
  | ["api", "static-ips", ip, "hostname"] => if ip.isEmpty then none else some (staticIpHostname ip)
  | ["api", "leases"] => some leases
  | ["api", "tokens"] => some tokens
  | ["api", "tokens", id] => if id.isEmpty then none else some (token id)
  | ["api", "tokens", id, "toggle"] => if id.isEmpty then none else some (tokenToggle id)
  | ["api", "ia-prefixes"] => some iaPrefixes
  | ["api", "ia-prefixes", id] => if id.isEmpty then none else some (iaPrefix id)
  | _ => none

/-- Go on with what was extracted, or answer with the rejection. -/
def extracted {α : Type} (result : Except ℕ α) (k : α → ServerProgram Response) :
    ServerProgram Response :=
  match result with
  | .ok a => k a
  | .error status => .done ⟨status, .rejection⟩

/-- Answer with what is made of the result of a handler. -/
def answering {ε α : Type} (error : ε → Response) (ok : α → Response)
    (handler : ServerProgram (Except ε α)) : ServerProgram Response :=
  handler >>= fun result => .done (respond error ok result)

/-- Answer with a JSON body. -/
def json {α : Type} (body : α → ResponseBody) (handler : ServerProgram (Except StatusCode α)) :
    ServerProgram Response := answering respondStatus (fun a => ⟨200, body a⟩) handler

section Router

variable (crates : TokenCrates) (extract : Extractors) (raConfig : RaConfig)

/-- The handler of a route. `GET` routes answer `HEAD` requests too; a method that a path does not
have is answered with 405. -/
def Route.handle (req : ApiRequest) (route : Route) : ServerProgram Response :=
  match route, req.method with
  | subnets, .get | subnets, .head => json .subnets Api.listSubnets
  | subnets, .post => extracted (extract.subnet req.body) fun subnet =>
      answering respondStatus respondId (Api.createSubnet subnet)
  | subnet id, .get | subnet id, .head => extracted (pathId id) fun id =>
      json .subnet (Api.getSubnet id)
  | subnet id, .put => extracted (pathId id) fun id =>
      extracted (extract.subnet req.body) fun subnet =>
        answering respondStatus respondStatus (Api.updateSubnet id subnet)
  | subnet id, .delete => extracted (pathId id) fun id =>
      answering respondStatus respondStatus (Api.deleteSubnet id)
  | ranges, .get | ranges, .head => extracted (extract.subnetId req.query) fun subnetId =>
      json .ranges (Api.listRanges subnetId)
  | ranges, .post => extracted (extract.range req.body) fun range =>
      answering respondStatus respondId (Api.createRange range)
  | range id, .delete => extracted (pathId id) fun id =>
      answering respondStatus respondStatus (Api.deleteRange id)
  | staticIps, .get | staticIps, .head => extracted (extract.subnetId req.query) fun subnetId =>
      json .staticIps (Api.listStaticIps subnetId)
  | staticIps, .post => extracted (extract.staticIp req.body) fun staticIp =>
      answering respondStatus respondStatus (Api.createStaticIp staticIp)
  | staticIp ip, .delete => answering respondStatus respondStatus (Api.deleteStaticIp ip)
  | staticIpHostname ip, .patch => extracted (extract.hostname req.body) fun hostname =>
      answering respondStatus respondStatus (Api.updateStaticIpHostname ip hostname)
  | leases, .get | leases, .head => json .leases Api.listLeases
  | tokens, .get | tokens, .head =>
      answering respondError (fun tokens => ⟨200, .tokens tokens⟩) Api.listTokens
  | tokens, .post => extracted (extract.tokenName req.body) fun name =>
      answering respondError (fun created => ⟨created.1.code, .createdToken created.2⟩)
        (Api.createToken crates req.rng req.salt name)
  | token id, .delete => extracted (pathId id) fun id =>
      answering respondError respondStatus (Api.deleteToken id)
  | tokenToggle id, .patch => extracted (pathId id) fun id =>
      answering respondError respondStatus (Api.toggleToken id)
  | iaPrefixes, .get | iaPrefixes, .head => extracted (extract.interface req.query) fun interface =>
      json .iaPrefixes (Api.listIaPrefixes interface)
  | iaPrefixes, .post => extracted (extract.iaPrefix req.body) fun pfx =>
      answering respondStatus respondId (Api.createIaPrefix raConfig pfx)
  | iaPrefix id, .get | iaPrefix id, .head => extracted (pathId id) fun id =>
      json .iaPrefix (Api.getIaPrefix id)
  | iaPrefix id, .put => extracted (pathId id) fun id =>
      extracted (extract.iaPrefix req.body) fun pfx =>
        answering respondStatus respondStatus (Api.updateIaPrefix id pfx)
  | iaPrefix id, .delete => extracted (pathId id) fun id =>
      answering respondStatus respondStatus (Api.deleteIaPrefix id)
  | _, _ => .done ⟨405, .empty⟩

/-- Let a request pass, or answer it with the error of the middleware. -/
def guarded (requireAuth : Bool) (req : ApiRequest) (k : ServerProgram Response) :
    ServerProgram Response :=
  if requireAuth then
    authMiddleware crates req.http >>= fun
      | .ok _ => k
      | .error e => .done (respondError e)
  else k

/-- `create_router_with_auth`: the answer to a request. Whether the middleware also looks at paths
without a route is up to the framework (`guardsFallback`). -/
def createRouterWithAuth (guardsFallback requireAuth : Bool) (req : ApiRequest) :
    ServerProgram Response :=
  match Route.ofPath req.path with
  | some route => guarded crates requireAuth req (route.handle crates extract raConfig req)
  | none =>
    if req.path = ["health"] then
      if req.method = .get ∨ req.method = .head then .done Api.healthCheck
      else .done ⟨405, .empty⟩
    else guarded crates (guardsFallback && requireAuth) req (.done ⟨404, .empty⟩)

end Router

/-! ### Requests commit last -/

/-- The calls that leave everything as it is but for the time a token was last used. -/
def QuietCall (c : ServerCall) : Prop :=
  c.isRead = true ∨ ∃ tokenHash, c = .db (.updateTokenLastUsed tokenHash)

/-- The call was executed, and no constraint was violated. -/
def Executed : (c : ServerCall) → c.Reply → Prop
  | .db _, .ok _ => True
  | .db _, .error _ => False
  | .utcNow, _ => False

/-- The program commits last, and answers with a success when it has committed. -/
abbrev Commits (p : ServerProgram Response) : Prop :=
  p.CommitsLast QuietCall Executed Response.Succeeded

theorem commits_done (response : Response) : Commits (.done response) := trivial

/-- A handler that makes one call and answers with a success if it was executed. -/
theorem commits_single {ε α : Type} {error : ε → Response} {ok : α → Response} {c : DbCall}
    {k : c.Result → ServerProgram (Except ε α)}
    (hk : ∀ r, ∃ result, k r = .done result ∧
      ∀ x, r = .ok x → (respond error ok result).Succeeded) :
    Commits (answering error ok (dbCall c >>= k)) := by
  refine ⟨.inr fun r hr => ?_, fun r => ?_⟩
  · obtain ⟨result, hresult, hsuccess⟩ := hk r
    refine ⟨respond error ok result, ?_, ?_⟩
    · show (k r >>= fun result => .done (respond error ok result)) = _
      rw [hresult, Program.done_bind]
    · cases r with
      | ok x => exact hsuccess x rfl
      | error e => cases hr
  · obtain ⟨result, hresult, -⟩ := hk r
    show Commits (k r >>= fun result => .done (respond error ok result))
    rw [hresult, Program.done_bind]
    exact commits_done _

/-- A handler that only reads. -/
theorem commits_reads {ε α : Type} {error : ε → Response} {ok : α → Response}
    {handler : ServerProgram (Except ε α)} (h : handler.Only QuietCall) :
    Commits (answering error ok handler) :=
  h.commitsLast_bind fun _ => commits_done _

theorem commits_extracted {α : Type} {result : Except ℕ α} {k : α → ServerProgram Response}
    (hk : ∀ a, Commits (k a)) : Commits (extracted result k) := by
  cases result with
  | ok a => exact hk a
  | error status => exact commits_done _

section Commits

variable {crates : TokenCrates} {extract : Extractors} {raConfig : RaConfig}

/-- `create_subnet` lists the subnets before it inserts one. -/
theorem Api.createSubnet_commits (subnet : Subnet) :
    Commits (answering respondStatus respondId (Api.createSubnet subnet)) := by
  refine ⟨.inl (.inl rfl), ?_⟩
  rintro (e | existing)
  · exact commits_done _
  · show Commits (answering respondStatus respondId (if _ then _ else _))
    split
    · exact commits_done _
    · refine commits_single ?_
      rintro (e | id)
      · exact ⟨_, rfl, by simp⟩
      · exact ⟨_, rfl, by simp [Response.Succeeded, respond, respondId, StatusCode.code]⟩

/-- `create_token` hashes the token before. -/
theorem Api.createToken_commits (rng : Token.RandomBytes) (salt name : String) :
    Commits (answering respondError (fun created => ⟨created.1.code, .createdToken created.2⟩)
      (Api.createToken crates rng salt name)) := by
  simp only [Api.createToken]
  cases hhash : Token.hash crates salt (Token.generate crates rng) with
  | error e => exact commits_done _
  | ok hashed =>
    refine commits_single ?_
    rintro (e | id)
    · cases he : isUniqueViolation e with
      | true => exact ⟨_, by simp only [he]; rfl, by simp⟩
      | false => exact ⟨_, by simp only [he]; rfl, by simp⟩
    · exact ⟨_, rfl, by simp [Response.Succeeded, respond, StatusCode.code]⟩

/-- `toggle_token` lists the tokens before it sets a flag. -/
theorem Api.toggleToken_commits (id : ℤ) :
    Commits (answering respondError respondStatus (Api.toggleToken id)) := by
  simp only [Api.toggleToken]
  refine ⟨.inl (.inl rfl), ?_⟩
  rintro (e | tokens)
  · exact commits_done _
  · change Commits (answering respondError respondStatus _)
    simp only [Program.bind]
    cases tokens.find? (·.id == some id) with
    | none => exact commits_done _
    | some token =>
      refine commits_single ?_
      rintro (e | u)
      · exact ⟨_, rfl, by simp⟩
      · exact ⟨_, rfl, by simp [Response.Succeeded, respond, respondStatus, StatusCode.code]⟩

/-- **Every handler commits last.** All but three make one call. -/
theorem Route.handle_commits (route : Route) (req : ApiRequest) :
    Commits (route.handle crates extract raConfig req) := by
  unfold Route.handle
  split
  all_goals
    repeat refine commits_extracted fun _ => ?_
  all_goals first
    | exact commits_done _
    | exact Api.createSubnet_commits _
    | exact Api.createToken_commits _ _ _
    | exact Api.toggleToken_commits _
    | exact commits_reads ⟨.inl rfl, by rintro (e | _ | x) <;> trivial⟩
    | exact commits_reads ⟨.inl rfl, by rintro (e | x) <;> trivial⟩
    | refine commits_single ?_
      rintro (e | x)
      · exact ⟨_, rfl, by simp⟩
      · exact ⟨_, rfl, by simp [Response.Succeeded, respond, respondId, respondStatus, StatusCode.code]⟩

/-- The middleware before a program changes nothing about that. -/
theorem guarded_commits {requireAuth : Bool} {req : ApiRequest} {k : ServerProgram Response}
    (hk : Commits k) : Commits (guarded crates requireAuth req k) := by
  unfold guarded
  split
  · have hquiet : (authMiddleware crates req.http).Only QuietCall := by
      refine (authMiddleware_only req.http).mono ?_
      rintro c (rfl | ⟨tokenHash, rfl⟩)
      · exact .inl rfl
      · exact .inr ⟨tokenHash, rfl⟩
    refine hquiet.commitsLast_bind ?_
    rintro (e | u)
    · exact commits_done _
    · exact hk
  · exact hk

theorem createRouterWithAuth_commits (guardsFallback requireAuth : Bool) (req : ApiRequest) :
    Commits (createRouterWithAuth crates extract raConfig guardsFallback requireAuth req) := by
  unfold createRouterWithAuth
  split
  · exact guarded_commits (Route.handle_commits _ req)
  · split
    · split <;> exact commits_done _
    · exact guarded_commits (commits_done _)

end Commits

/-! ### What a call changes -/

/-- The database without the times at which tokens were last used. -/
def SqliteDb.unstamped (db : SqliteDb) : SqliteDb :=
  { db with apiTokens := db.apiTokens.map fun r => { r with lastUsedAt := none } }

section Changes

variable {ord : ScanOrder} {w : World SqliteDb} {fate : Fate} {c : ServerCall}

/-- A statement that a constraint refuses changes nothing. -/
theorem SqliteDb.exec_error {now : ℤ} {db : SqliteDb} {c : DbCall} {e : DbError}
    (h : (SqliteDb.exec ord now db c).1 = .error e) : (SqliteDb.exec ord now db c).2 = db := by
  cases c with
  | createSubnet subnet =>
    simp only [exec, createSubnet] at h ⊢
    split at h
    · rw [if_pos ‹_›]
    · cases h
  | updateSubnet id subnet =>
    simp only [exec, updateSubnet] at h ⊢
    split at h
    · rw [if_pos ‹_›]
    · cases h
  | createRange range =>
    simp only [exec, createRange] at h ⊢
    split at h
    · cases h
    · rw [if_neg ‹_›]
  | createStaticIp staticIp =>
    simp only [exec, createStaticIp] at h ⊢
    split at h
    · rw [if_pos ‹_›]
    · split at h
      · cases h
      · rw [if_neg ‹_›, if_neg ‹_›]
  | createLease lease =>
    simp only [exec, createLease] at h ⊢
    split at h
    · cases h
    · rw [if_neg ‹_›]
  | createToken name tokenHash salt =>
    simp only [exec, createToken] at h ⊢
    split at h
    · rw [if_pos ‹_›]
    · cases h
  | _ => cases h

/-- Quiet calls change no more than they say. -/
theorem unstamped_serve_of_quiet (h : QuietCall c) :
    (serve (SqliteDb.exec ord) fate c w).2.db.unstamped = w.db.unstamped := by
  rcases h with hread | ⟨tokenHash, rfl⟩
  · rw [serve_of_isRead hread]
  · rcases serve_cases (SqliteDb.exec ord) fate (.updateTokenLastUsed tokenHash) w with
      ⟨-, hserve⟩ | ⟨-, hserve⟩
    · rw [hserve]
    · rw [hserve]
      simp only [SqliteDb.exec, SqliteDb.updateTokenLastUsed, SqliteDb.unstamped, List.map_map]
      congr 1
      refine List.map_congr_left fun r _ => ?_
      rw [Function.comp_apply]
      split <;> rfl

/-- A call that was not executed changes nothing. -/
theorem serve_of_not_executed (h : ¬ Executed c (serve (SqliteDb.exec ord) fate c w).1) :
    (serve (SqliteDb.exec ord) fate c w).2.db = w.db := by
  cases c with
  | utcNow => rfl
  | db c =>
    rcases serve_cases (SqliteDb.exec ord) fate c w with ⟨-, hserve⟩ | ⟨-, hserve⟩
    · rw [hserve]
    · rw [hserve] at h ⊢
      cases hresult : (SqliteDb.exec ord (w.clock + fate.wait) w.db c).1 with
      | error e => exact SqliteDb.exec_error hresult
      | ok a =>
        rw [hresult] at h
        exact absurd trivial h

end Changes

/-! ### Requests in flight -/

section InFlight

variable (crates : TokenCrates) (extract : Extractors) (raConfig : RaConfig) (guardsFallback : Bool)
  (ord : ScanOrder)

/-- The state of the server. -/
abbrev ApiPool : Type := Pool ServerCall ServerCall.Reply (World SqliteDb) Response

/-- Requests that have come in, each of them through a router that requires authentication or
through one that does not, and the other tasks of the daemon. -/
def inFlight (requests : List (Bool × ApiRequest)) (others : List (ServerProgram Response))
    (w : World SqliteDb) : ApiPool :=
  ⟨(requests.map fun r => createRouterWithAuth crates extract raConfig guardsFallback r.1 r.2) ++
    others, w⟩

/-- The state after a run: who makes the next call, and how it goes. -/
abbrev ApiPool.after (p : ApiPool) (schedule : List (ℕ × Fate)) : ApiPool :=
  Run.after (Pool.step (serve (SqliteDb.exec ord))) p schedule

variable {crates extract raConfig guardsFallback}

theorem jobs_inFlight {requests : List (Bool × ApiRequest)} {others : List (ServerProgram Response)}
    {w : World SqliteDb} {k : ℕ} {request : Bool × ApiRequest} (h : requests[k]? = some request) :
    (inFlight crates extract raConfig guardsFallback requests others w).jobs[k]? =
      some (createRouterWithAuth crates extract raConfig guardsFallback request.1 request.2) := by
  have hlt : k < (requests.map fun r =>
      createRouterWithAuth crates extract raConfig guardsFallback r.1 r.2).length := by
    rw [List.length_map]
    exact (List.getElem?_eq_some_iff.mp h).1
  rw [inFlight, List.getElem?_append_left hlt, List.getElem?_map, h]
  rfl

variable (crates extract raConfig guardsFallback)

/-- **Changes are reported.** Let requests come in, any number of them to any paths, through routers
with and without authentication, and let their calls and those of the other tasks interleave and
fail in any way. Whenever a request makes a call, either nothing is changed but the time a token was
last used, or the request is finished with this call, and its answer is a success. So an error means
that nothing was changed, and no request changes the database twice. -/
theorem changes_reported (w : World SqliteDb) (requests : List (Bool × ApiRequest))
    (others : List (ServerProgram Response)) (schedule : List (ℕ × Fate))
    (k : Fin requests.length) (fate : Fate) :
    let pool := inFlight crates extract raConfig guardsFallback requests others w
    (pool.after ord (schedule ++ [(k.val, fate)])).world.db.unstamped =
        (pool.after ord schedule).world.db.unstamped ∨
      ∃ response : Response, response.Succeeded ∧ ∀ later,
        (pool.after ord (schedule ++ (k.val, fate) :: later)).jobs[k.val]? =
          some (.done response) := by
  intro pool
  have hjob : pool.jobs[k.val]? = some (createRouterWithAuth crates extract raConfig guardsFallback
      (requests.get k).1 (requests.get k).2) :=
    jobs_inFlight (List.getElem?_eq_getElem k.isLt)
  obtain ⟨job, hjob', hcommits⟩ := @Pool.after_commitsLast _ _ Response _ _
    (serve (SqliteDb.exec ord)) pool _ _ _ k.val _ hjob
    (createRouterWithAuth_commits guardsFallback _ _) schedule
  have hnext : pool.after ord (schedule ++ [(k.val, fate)]) =
      Pool.step (serve (SqliteDb.exec ord)) (pool.after ord schedule) (k.val, fate) := by
    rw [ApiPool.after, Run.after_append]
    rfl
  obtain hworld | ⟨c, hquiet, hworld⟩ | ⟨response, hdone, hsuccess⟩ :=
    @Pool.step_commits _ _ Response _ _ (serve (SqliteDb.exec ord)) _ k.val fate _ _ _ _ hjob'
      hcommits
  · exact .inl (by rw [hnext, hworld])
  · refine .inl ?_
    rw [hnext, hworld]
    rcases hquiet with hquiet | hnot
    · exact unstamped_serve_of_quiet hquiet
    · rw [serve_of_not_executed hnot]
  · refine .inr ⟨response, hsuccess, fun later => ?_⟩
    rw [ApiPool.after, Run.after_append, Run.after_cons]
    exact Pool.after_done hdone later

end InFlight

/-! ### Requests without a token that works -/

/-- The token that a request presents. -/
def HttpRequest.bearer (request : HttpRequest) (crates : TokenCrates) : Option String :=
  (request.authorization.bind crates.toStr).bind stripBearer

/-- No enabled token of the database is the one that the request presents, if it presents any. -/
def HttpRequest.LockedOut (crates : TokenCrates) (request : HttpRequest) (db : SqliteDb) : Prop :=
  ∀ token, request.bearer crates = some token → ∀ r ∈ db.apiTokens, r.enabled = 1 →
    Token.verify crates token r.tokenHash ≠ .ok true

/-- The answers that the middleware gets for a request that is locked out. -/
def RefusedBy (crates : TokenCrates) (request : HttpRequest) : (c : ServerCall) → c.Reply → Prop
  | .db .listTokens, .ok tokens => ∀ token, request.bearer crates = some token →
      ∀ t ∈ tokens, Token.verify crates token t.1 ≠ .ok true
  | _, _ => True

section LockedOut

variable {crates : TokenCrates} {request : HttpRequest}

/-- A scan that finds no token makes no call. -/
theorem scanTokens_refused {token : String} {tokens : List (String × ℤ)}
    (h : ∀ t ∈ tokens, Token.verify crates token t.1 ≠ .ok true) :
    ∃ result, scanTokens crates token tokens = .done result ∧ result ≠ .ok true := by
  induction tokens with
  | nil => exact ⟨.ok false, rfl, by simp⟩
  | cons t rest ih =>
    have hfirst := h t List.mem_cons_self
    unfold scanTokens
    cases hverify : Token.verify crates token t.1 with
    | error e => exact ⟨.error (.inr e), by simp, by simp⟩
    | ok verified =>
      cases verified with
      | true => exact absurd hverify hfirst
      | false => exact ih fun t ht => h t (List.mem_cons_of_mem _ ht)

/-- **The middleware refuses** a request that is locked out, and only lists the tokens. -/
theorem authMiddleware_refuses (hconn : request.connection ≠ some .unixSocket) :
    (authMiddleware crates request).Within (· = .db .listTokens) (RefusedBy crates request)
      fun result => ∃ text, result = .error (.unauthorized, text) := by
  unfold authMiddleware
  rw [if_neg hconn]
  cases hheader : request.authorization.bind crates.toStr with
  | none => exact ⟨_, rfl⟩
  | some header =>
    simp only
    cases hbearer : stripBearer header with
    | none => exact ⟨_, rfl⟩
    | some token =>
      have htoken : request.bearer crates = some token := by
        rw [HttpRequest.bearer, hheader, Option.bind_some, hbearer]
      refine ⟨rfl, ?_⟩
      rintro (e | tokens) hreply
      · exact ⟨_, rfl⟩
      · obtain ⟨result, hscan, hresult⟩ := scanTokens_refused (hreply token htoken)
        show Program.Within _ _ _ (scanTokens crates token tokens >>= _)
        rw [hscan, Program.done_bind]
        rcases result with e | _ | _
        · exact ⟨_, rfl⟩
        · exact ⟨_, rfl⟩
        · exact absurd rfl hresult

variable {extract : Extractors} {raConfig : RaConfig} {req : ApiRequest}

/-- What comes after the middleware is not reached. -/
theorem guarded_refuses {post : Response → Prop} (hconn : req.http.connection ≠ some .unixSocket)
    (hpost : ∀ text, post (respondError (.unauthorized, text))) (k : ServerProgram Response) :
    (guarded crates true req k).Within (· = .db .listTokens) (RefusedBy crates req.http) post := by
  refine (authMiddleware_refuses hconn).bind ?_
  rintro result ⟨text, rfl⟩
  exact hpost text

/-- A request that is locked out and its router: nothing but the middleware runs. -/
theorem createRouterWithAuth_refuses (guardsFallback : Bool)
    (hconn : req.http.connection ≠ some .unixSocket) :
    (createRouterWithAuth crates extract raConfig guardsFallback true req).Within
      (· = .db .listTokens) (RefusedBy crates req.http)
      fun response => (Route.ofPath req.path).isSome = true → response.status = 401 := by
  unfold createRouterWithAuth
  cases hroute : Route.ofPath req.path with
  | some route => exact guarded_refuses hconn (fun _ _ => rfl) _
  | none =>
    have hno : ∀ response : Response, (none : Option Route).isSome = true → response.status = 401 :=
      fun _ h => by cases h
    simp only
    split
    · split <;> exact hno _
    · cases guardsFallback with
      | true => exact guarded_refuses hconn (fun _ => hno _) _
      | false => exact hno _

/-- A request that is locked out gets the answers that refuse it. -/
theorem refusedBy_serve {ord : ScanOrder} {fate : Fate} {c : ServerCall} {w : World SqliteDb}
    (h : request.LockedOut crates w.db) (hc : c = .db .listTokens) :
    RefusedBy crates request c (serve (SqliteDb.exec ord) fate c w).1 := by
  subst hc
  rcases serve_cases (SqliteDb.exec ord) fate .listTokens w with ⟨-, hserve⟩ | ⟨-, hserve⟩
  · rw [hserve]
    trivial
  · rw [hserve]
    -- the statement lists the enabled tokens only
    intro token htoken t ht
    obtain ⟨r, hr, rfl⟩ := List.mem_map.mp ht
    obtain ⟨hr, henabled⟩ := List.mem_filter.mp (ord.tokens.mem_arrange.mp hr)
    exact h token htoken r hr (by simpa using henabled)

/-- **Intruders are kept out.** Take a request through the router that requires authentication,
over TCP, and let other requests and tasks run next to it in any way. As long as the token that it
presents, if it presents one, is not among the enabled ones, none of its calls changes anything, the
time at which a token was last used included, and if it is answered on a path of the API, then with
401. -/
theorem intruders_excluded (crates : TokenCrates) (extract : Extractors) (raConfig : RaConfig)
    (guardsFallback : Bool) (ord : ScanOrder) (w : World SqliteDb)
    (requests : List (Bool × ApiRequest)) (others : List (ServerProgram Response))
    (schedule : List (ℕ × Fate)) (k : ℕ) (req : ApiRequest)
    (hreq : requests[k]? = some (true, req)) (hconn : req.http.connection ≠ some .unixSocket)
    (hlocked : ∀ pre, pre <+: schedule → req.http.LockedOut crates
      ((inFlight crates extract raConfig guardsFallback requests others w).after ord
        pre).world.db) :
    let pool := inFlight crates extract raConfig guardsFallback requests others w
    (∀ pre fate, pre ++ [(k, fate)] <+: schedule →
      (pool.after ord (pre ++ [(k, fate)])).world.db = (pool.after ord pre).world.db) ∧
    ∀ response, (pool.after ord schedule).jobs[k]? = some (.done response) →
      (Route.ofPath req.path).isSome = true → response.status = 401 := by
  intro pool
  have hwithin : ∀ pre, pre <+: schedule → ∃ job, (pool.after ord pre).jobs[k]? = some job ∧
      job.Within (· = .db .listTokens) (RefusedBy crates req.http)
        fun response => (Route.ofPath req.path).isSome = true → response.status = 401 := by
    intro pre hpre
    exact @Pool.after_within _ _ Response _ _ (serve (SqliteDb.exec ord)) pool _ _ _
      (fun w => req.http.LockedOut crates w.db) k _ (fun fate c w hw hc => refusedBy_serve hw hc)
      (jobs_inFlight hreq) (createRouterWithAuth_refuses guardsFallback hconn) pre
      fun pre' hpre' => hlocked pre' (hpre'.trans hpre)
  constructor
  · intro pre fate hpre
    obtain ⟨job, hjob, hjob'⟩ := hwithin pre ((List.prefix_append _ _).trans hpre)
    have hnext : pool.after ord (pre ++ [(k, fate)]) =
        Pool.step (serve (SqliteDb.exec ord)) (pool.after ord pre) (k, fate) := by
      rw [ApiPool.after, Run.after_append]
      rfl
    rw [hnext]
    obtain hworld | ⟨c, rfl, hworld⟩ := @Pool.world_step_within _ _ Response _ _
      (serve (SqliteDb.exec ord)) _ k fate _ _ _ _ hjob hjob'
    · rw [hworld]
    · rw [hworld, serve_of_isRead rfl]
  · intro response hresponse hroute
    obtain ⟨job, hjob, hjob'⟩ := hwithin schedule (List.prefix_refl _)
    obtain rfl := Option.some.inj (hresponse.symm.trans hjob)
    exact hjob' hroute

end LockedOut

namespace Sample

/-- Extractors that take nothing. -/
def extractors : Extractors where
  subnet _ := .error 415
  range _ := .error 415
  staticIp _ := .error 415
  hostname _ := .error 415
  tokenName _ := .error 415
  iaPrefix _ := .error 415
  subnetId _ := .ok none
  interface _ := .ok none

/-- A request to delete the subnet, without any header. -/
def deleteRequest : ApiRequest where
  http := ⟨none, none⟩
  method := .delete
  path := ["api", "subnets", "1"]
  query := ""
  body := .other none []
  rng := zeros
  salt := ""

end Sample

/-- The request comes in over TCP and over the Unix socket. -/
theorem intruders_excluded_delete :
    let pool := inFlight Sample.crates Sample.extractors .default false
      [(true, Sample.deleteRequest), (false, Sample.deleteRequest)] [] Sample.world
    (pool.after .rowid ([(1, .calm)] ++ [(0, .calm)])).world.db =
        (pool.after .rowid [(1, .calm)]).world.db ∧
      ∀ response, (pool.after .rowid [(1, .calm), (0, .calm)]).jobs[0]? = some (.done response) →
        response.status = 401 := by
  intro pool
  have hnone : ∀ db, Sample.deleteRequest.http.LockedOut Sample.crates db :=
    fun _ _ htoken => by cases htoken
  obtain ⟨hunchanged, hanswer⟩ := intruders_excluded Sample.crates Sample.extractors .default false
    .rowid Sample.world [(true, Sample.deleteRequest), (false, Sample.deleteRequest)] []
    [(1, .calm), (0, .calm)] 0 Sample.deleteRequest rfl (by decide) fun _ _ => hnone _
  exact ⟨hunchanged [(1, .calm)] .calm (List.prefix_refl _), fun response h => hanswer response h rfl⟩

end Ndhcpd
