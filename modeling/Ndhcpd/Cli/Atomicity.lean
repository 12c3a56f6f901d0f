import Ndhcpd.Cli.Commands
import Ndhcpd.Db.RoundTrip

/-!
# Commands are atomic

A request of the client is a program of the API server, and its calls interleave with those of all
other requests and tasks. Nevertheless each command is one statement that is executed at one moment,
or nothing at all, and its output tells which, unless the connection fails before the client has
read the answer (`commands_take_effect`).

The server's side is `Served`: behind the router, the request of a command is a pointed program. It
makes reads until the statement of the command decides what the answer is, and the client reads from
the answer what there is to show.
-/

namespace Ndhcpd

/-! ### What the client makes of an answer -/

section Finish

variable {α β : Type} {read : ResponseBody → Option α} {path : String} {doc : RequestDocument}
  {response : Response} {a : α}

theorem Exchange.map_ok {ex : Exchange α} (h : ex.answered response = .ok a) (f : α → β) :
    (ex.map f).answered response = .ok (f a) :=
  congrArg (Except.map f) h

theorem Exchange.mapErr_ok {ex : Exchange α} (h : ex.answered response = .ok a)
    (f : CliError → CliError) : (ex.mapErr f).answered response = .ok a :=
  congrArg (Except.mapError f) h

theorem ApiClient.readBody_some {body : ResponseBody} (h : read body = some a) :
    readBody read body = .ok a := by
  rw [readBody, h]

theorem ApiClient.get_ok (hstatus : response.status = 200) (h : read response.body = some a) :
    (ApiClient.get read path).answered response = .ok a :=
  (if_neg (not_not_intro hstatus)).trans (readBody_some h)

theorem ApiClient.post_ok (hsuccess : response.Succeeded)
    (h : read (orNull response.body) = some a) :
    (ApiClient.post read path doc).answered response = .ok a := by
  have hconflict : response.status ≠ 409 := by
    obtain ⟨-, hlt⟩ := hsuccess
    omega
  exact (if_neg hconflict).trans ((if_neg (not_not_intro hsuccess)).trans (readBody_some h))

/-- The answer to a creation. -/
theorem ApiClient.post_id (json : JsonReader) (path : String) (doc : RequestDocument) (id : ℤ) :
    (ApiClient.post json.id path doc).answered ⟨201, .id id⟩ = .ok id :=
  ApiClient.post_ok ⟨by simp, by simp⟩ (json.id_id id)

theorem ApiClient.patch_ok (hsuccess : response.Succeeded)
    (h : read (orNull response.body) = some a) :
    (ApiClient.patch read path doc).answered response = .ok a :=
  (if_neg (not_not_intro hsuccess)).trans (readBody_some h)

theorem ApiClient.delete_ok (hsuccess : response.Succeeded) :
    (ApiClient.delete path).answered response = .ok () :=
  if_neg (not_not_intro hsuccess)

end Finish

/-! ### What a request comes to -/

/-- The reply that decides an answer: the statement `q` was executed, and the client shows its
result; or the client fails, and the call was refused or a read. -/
def Reported (finish : Response → Except CliError CliOutput) (q : DbCall) :
    (c : ServerCall) → c.Reply → Response → Prop
  | .db c, .ok x, response =>
    (c = q ∧ ∃ out, finish response = .ok out ∧ c.shown x = some out) ∨
      (c.isRead = true ∧ ∃ e, finish response = .error e)
  | .db _, .error _, response => ∃ e, finish response = .error e
  | .utcNow, _, _ => False

/-- The program answers as `Reported` says; if it makes no call, the client fails. -/
abbrev Answers (ex : Exchange CliOutput) (q : DbCall) (p : ServerProgram Response) : Prop :=
  p.Pointed (·.isRead = true) (Reported ex.answered q)
    fun response => ∃ e, ex.answered response = .error e

section Answers

variable {ex : Exchange CliOutput} {q : DbCall}

theorem answers_statement {ε α : Type} {error : ε → Response} {ok : α → Response} {c : DbCall}
    {k : c.Result → ServerProgram (Except ε α)} (hrejects : ex.Rejects)
    (herror : ∀ e, ∃ result, k (.error e) = .done result ∧
      ¬ (respond error ok result).Succeeded)
    (hok : ∀ x, ∃ result, k (.ok x) = .done result ∧
      Reported ex.answered q (.db c) (.ok x) (respond error ok result)) :
    Answers ex q (answering error ok (dbCall c >>= k)) := by
  intro r
  left
  cases r with
  | error e =>
    obtain ⟨result, hresult, hfails⟩ := herror e
    refine ⟨respond error ok result, ?_, hrejects _ hfails⟩
    show (k (.error e) >>= fun result => .done (respond error ok result)) = _
    rw [hresult, Program.done_bind]
  | ok x =>
    obtain ⟨result, hresult, hreported⟩ := hok x
    refine ⟨respond error ok result, ?_, hreported⟩
    show (k (.ok x) >>= fun result => .done (respond error ok result)) = _
    rw [hresult, Program.done_bind]

/-- A request without an `Authorization` header passes the middleware, or fails. -/
theorem guarded_answers {crates : TokenCrates} {requireAuth : Bool} {req : ApiRequest}
    {p : ServerProgram Response} (hrejects : ex.Rejects) (hauth : req.http.authorization = none)
    (hp : Answers ex q p) : Answers ex q (guarded crates requireAuth req p) := by
  unfold guarded authMiddleware
  rw [hauth]
  split
  · split
    · exact hp
    · exact hrejects _ (by simp [Response.Succeeded, respondError, StatusCode.code])
  · exact hp

/-- A handler that answers with what it has read. -/
theorem answers_listing {c : DbCall} {k : c.Result → ServerProgram (Except StatusCode c.Ret)}
    {read : ResponseBody → Option c.Ret} {body : c.Ret → ResponseBody} {show' : c.Ret → CliOutput}
    (path : String) (hk : ∀ r, k r = .done (r.mapError fun _ => .internalServerError))
    (hread : ∀ x, read (body x) = some x) (hshown : ∀ x, c.shown x = some (show' x)) :
    Answers ((ApiClient.get read path).map show') c (json body (dbCall c >>= k)) := by
  refine answers_statement (ApiClient.get_rejects.map _) (fun e => ⟨_, hk _, ?_⟩)
    fun x => ⟨_, hk _, .inl ⟨rfl, show' x, ?_, hshown x⟩⟩
  · simp [Except.mapError, respond, respondStatus, StatusCode.code, Response.Succeeded]
  · exact Exchange.map_ok (ApiClient.get_ok rfl (hread x)) _

/-- A handler that answers with no content. -/
theorem answers_deletion {c : DbCall} {k : c.Result → ServerProgram (Except StatusCode StatusCode)}
    (path text : String)
    (hk : ∀ r, k r = .done ((r.map fun _ => .noContent).mapError fun _ => .internalServerError))
    (hshown : ∀ x, c.shown x = some (.line text)) :
    Answers ((ApiClient.delete path).map fun _ => .line text) c
      (answering respondStatus respondStatus (dbCall c >>= k)) := by
  refine answers_statement (ApiClient.delete_rejects.map _) (fun e => ⟨_, hk _, ?_⟩)
    fun x => ⟨_, hk _, .inl ⟨rfl, .line text, ?_, hshown x⟩⟩
  · simp [Except.map, Except.mapError, respond, respondStatus, StatusCode.code, Response.Succeeded]
  · refine Exchange.map_ok (ApiClient.delete_ok ?_) _
    simp [Except.map, Except.mapError, respond, respondStatus, StatusCode.code, Response.Succeeded]

end Answers

section Served

variable (crates : TokenCrates) (extract : Extractors) (raConfig : RaConfig)
  (target : String → Option (List String × String))

/-- A request of the exchange is answered as `Answers` says, by every router. -/
def Served (ex : Exchange CliOutput) (q : DbCall) : Prop :=
  ∀ guardsFallback requireAuth req, ex.Arrives target req →
    Answers ex q (createRouterWithAuth crates extract raConfig guardsFallback requireAuth req)

variable {crates extract raConfig target} {ex : Exchange CliOutput} {q : DbCall}

/-- The route and its handler. -/
theorem served_of_route {segments : List String} {query : String} {route : Route}
    (hrejects : ex.Rejects) (htarget : target ex.path = some (segments, query))
    (hroute : Route.ofPath segments = some route)
    (hhandle : ∀ http rng salt, Answers ex q (route.handle crates extract raConfig
      ⟨http, ex.method, segments, query, ex.body, rng, salt⟩)) :
    Served crates extract raConfig target ex q := by
  rintro guardsFallback requireAuth ⟨http, method, path, query', body, rng, salt⟩
    ⟨hauth, hmethod, htarget', hbody⟩
  obtain ⟨rfl, rfl⟩ := Prod.mk.inj (Option.some.inj (htarget'.symm.trans htarget))
  subst hmethod hbody
  rw [createRouterWithAuth, hroute]
  exact guarded_answers hrejects hauth (hhandle http rng salt)

end Served

/-! ### Paths of the API -/

section Paths

variable {target : String → Option (List String × String)} (htarget : ReadsTargets target)
include htarget

/-- The path of a collection. -/
theorem target_collection {path : String} (name : String) (hname : PlainText name)
    (hpath : path = "/api/" ++ name) : target path = some (["api", name], "") := by
  have hjoin : path = joinPath ["api", name] := by
    rw [hpath]
    simp [joinPath, String.join, String.ext_iff]
  rw [hjoin]
  refine htarget.path _ (List.cons_ne_nil _ _) ?_
  have hapi : PlainText "api" := by decide
  simp [hapi, hname]

/-- The path of an element of a collection. -/
theorem target_element {path element : String} (name : String) (hname : PlainText name)
    (helement : PlainText element) (hpath : path = "/api/" ++ name ++ "/" ++ element) :
    target path = some (["api", name, element], "") := by
  have hjoin : path = joinPath ["api", name, element] := by
    rw [hpath]
    simp [joinPath, String.join, String.ext_iff]
  rw [hjoin]
  refine htarget.path _ (List.cons_ne_nil _ _) ?_
  have hapi : PlainText "api" := by decide
  simp [hapi, hname, helement]

/-- The path of a collection, with a filter or without. -/
theorem target_filtered {path key : String} {value : Option String} (name : String)
    (hname : PlainText name) (hkey : PlainText key) (hvalue : ∀ v ∈ value, PlainText v)
    (hpath : path = "/api/" ++ name) :
    target (Cli.filtered path key value) =
      some (["api", name], (value.map fun v => key ++ "=" ++ v).getD "") := by
  rcases value with _ | v
  · exact target_collection htarget name hname hpath
  · have hjoin : path = joinPath ["api", name] := by
      rw [hpath]
      simp [joinPath, String.join, String.ext_iff]
    rw [Cli.filtered, hjoin]
    refine htarget.query _ key v (List.cons_ne_nil _ _) ?_ hkey (hvalue v rfl)
    have hapi : PlainText "api" := by decide
    simp [hapi, hname]

end Paths

/-! ### The commands -/

section Commands

variable {crates : TokenCrates} {extract : Extractors} {raConfig : RaConfig}
  {target : String → Option (List String × String)} {v6 : TextForm Ipv6Addr} {json : JsonReader}

theorem extracted_pathId (id : Int64) (k : ℤ → ServerProgram Response) :
    extracted (pathId (toString id.toInt)) k = k id.toInt := by
  rw [pathId, parseI64_toString]
  rfl

/-- The query of a list is read as the filter it was written for. -/
theorem Extractors.ReadsClient.subnetId (hextract : extract.ReadsClient) (subnetId : Option Int64) :
    extract.subnetId (((subnetId.map (toString ·.toInt)).map
      fun v => "subnet_id" ++ "=" ++ v).getD "") = .ok (subnetId.map (·.toInt)) := by
  cases subnetId with
  | none => exact hextract.subnetId_none
  | some id => exact hextract.subnetId_some id

section Route

variable (htarget : ReadsTargets target)
include htarget

/-- A command for an element of a collection that is given by its identifier. -/
theorem served_element {ex : Exchange CliOutput} {q : DbCall} (name : String) (id : Int64)
    {route : String → Route} (hname : PlainText name) (hrejects : ex.Rejects)
    (hpath : ex.path = "/api/" ++ name ++ "/" ++ toString id.toInt)
    (hroute : ∀ s, Route.ofPath ["api", name, s] = if s.isEmpty then none else some (route s))
    (hhandle : ∀ http rng salt, Answers ex q ((route (toString id.toInt)).handle crates extract
      raConfig ⟨http, ex.method, ["api", name, toString id.toInt], "", ex.body, rng, salt⟩)) :
    Served crates extract raConfig target ex q := by
  have hid := plainText_toString id
  refine served_of_route hrejects (target_element htarget name hname hid hpath) ?_ hhandle
  rw [hroute, if_neg (by simpa using hid.1)]

theorem served_subnetList :
    Served crates extract raConfig target (Cli.Subnet.list json) .listSubnets := by
  refine served_of_route (ApiClient.get_rejects.map _)
    (target_collection htarget "subnets" (by decide) rfl) rfl fun http rng salt => ?_
  exact answers_listing _ (by rintro (e | x) <;> rfl) json.subnets_subnets fun x => rfl

theorem served_leases :
    Served crates extract raConfig target (Cli.Lease.list json) .listActiveLeases := by
  refine served_of_route (ApiClient.get_rejects.map _)
    (target_collection htarget "leases" (by decide) rfl) rfl fun http rng salt => ?_
  exact answers_listing _ (by rintro (e | x) <;> rfl) json.leases_leases fun x => rfl

theorem served_subnetGet (id : Int64) :
    Served crates extract raConfig target (Cli.Subnet.get json id) (.getSubnet id.toInt) := by
  refine served_element htarget "subnets" id (by decide) (ApiClient.get_rejects.map _) rfl
    (fun s => rfl) fun http rng salt => ?_
  show Answers _ _ (extracted (pathId _) _)
  rw [extracted_pathId]
  refine answers_statement (ApiClient.get_rejects.map _) (fun e => ⟨_, rfl, by decide⟩) ?_
  rintro (_ | subnet)
  · exact ⟨_, rfl, .inr ⟨rfl, _, rfl⟩⟩
  · refine ⟨_, rfl, .inl ⟨rfl, _, ?_, rfl⟩⟩
    exact Exchange.map_ok (ApiClient.get_ok rfl (json.subnet_subnet subnet)) _

theorem served_ip6SubnetGet (id : Int64) :
    Served crates extract raConfig target (Cli.Ip6Subnet.get json id) (.getIaPrefix id.toInt) := by
  refine served_element htarget "ia-prefixes" id (by decide)
    (ApiClient.get_rejects.map _) rfl (fun s => rfl) fun http rng salt => ?_
  show Answers _ _ (extracted (pathId _) _)
  rw [extracted_pathId]
  refine answers_statement (ApiClient.get_rejects.map _) (fun e => ⟨_, rfl, by decide⟩) ?_
  rintro (_ | pfx)
  · exact ⟨_, rfl, .inr ⟨rfl, _, rfl⟩⟩
  · refine ⟨_, rfl, .inl ⟨rfl, _, ?_, rfl⟩⟩
    exact Exchange.map_ok (ApiClient.get_ok rfl (json.iaPrefix_iaPrefix pfx)) _

theorem served_subnetDelete (id : Int64) :
    Served crates extract raConfig target (Cli.Subnet.delete id) (.deleteSubnet id.toInt) := by
  refine served_element htarget "subnets" id (by decide)
    (ApiClient.delete_rejects.map _) rfl (fun s => rfl) fun http rng salt => ?_
  show Answers _ _ (extracted (pathId _) _)
  rw [extracted_pathId]
  exact answers_deletion _ _ (by rintro (e | x) <;> rfl) fun x => rfl

theorem served_rangeDelete (id : Int64) :
    Served crates extract raConfig target (Cli.Range.delete id) (.deleteRange id.toInt) := by
  refine served_element htarget "ranges" id (by decide) (ApiClient.delete_rejects.map _) rfl
    (fun s => rfl) fun http rng salt => ?_
  show Answers _ _ (extracted (pathId _) _)
  rw [extracted_pathId]
  exact answers_deletion _ _ (by rintro (e | x) <;> rfl) fun x => rfl

theorem served_ip6SubnetDelete (id : Int64) :
    Served crates extract raConfig target (Cli.Ip6Subnet.delete id) (.deleteIaPrefix id.toInt) := by
  refine served_element htarget "ia-prefixes" id (by decide)
    (ApiClient.delete_rejects.map _) rfl (fun s => rfl) fun http rng salt => ?_
  show Answers _ _ (extracted (pathId _) _)
  rw [extracted_pathId]
  exact answers_deletion _ _ (by rintro (e | x) <;> rfl) fun x => rfl

theorem served_staticDelete {ip : String} (hip : PlainText ip) :
    Served crates extract raConfig target (Cli.Static.delete ip) (.deleteStaticIp ip) := by
  have hroute : Route.ofPath ["api", "static-ips", ip] = some (.staticIp ip) :=
    if_neg (by simpa using hip.1)
  refine served_of_route (ApiClient.delete_rejects.map _)
    (target_element htarget "static-ips" (by decide) hip rfl) hroute fun http rng salt => ?_
  exact answers_deletion _ _ (by rintro (e | x) <;> rfl) fun x => rfl

variable (hextract : extract.ReadsClient)
include hextract

theorem served_rangeList (subnetId : Option Int64) :
    Served crates extract raConfig target (Cli.Range.list json subnetId)
      (.listRanges (subnetId.map (·.toInt))) := by
  refine served_of_route (ApiClient.get_rejects.map _)
    (target_filtered htarget "ranges" (by decide) (by decide) ?_ rfl) rfl
    fun http rng salt => ?_
  · intro v hv
    obtain ⟨id, -, rfl⟩ := Option.map_eq_some_iff.mp hv
    exact plainText_toString id
  · show Answers _ _ (extracted (extract.subnetId _) _)
    rw [hextract.subnetId]
    exact answers_listing _ (by rintro (e | x) <;> rfl) json.ranges_ranges fun x => rfl

theorem served_staticList (subnetId : Option Int64) :
    Served crates extract raConfig target (Cli.Static.list json subnetId)
      (.listStaticIps (subnetId.map (·.toInt))) := by
  refine served_of_route (ApiClient.get_rejects.map _)
    (target_filtered htarget "static-ips" (by decide) (by decide) ?_ rfl) rfl
    fun http rng salt => ?_
  · intro v hv
    obtain ⟨id, -, rfl⟩ := Option.map_eq_some_iff.mp hv
    exact plainText_toString id
  · show Answers _ _ (extracted (extract.subnetId _) _)
    rw [hextract.subnetId]
    exact answers_listing _ (by rintro (e | x) <;> rfl) json.staticIps_staticIps fun x => rfl

theorem served_ip6SubnetList {interface : Option String}
    (hplain : ∀ name ∈ interface, PlainText name) :
    Served crates extract raConfig target (Cli.Ip6Subnet.list json interface)
      (.listIaPrefixes interface) := by
  refine served_of_route (ApiClient.get_rejects.map _)
    (target_filtered htarget "ia-prefixes" (by decide) (by decide) hplain rfl) rfl
    fun http rng salt => ?_
  have hread : extract.interface ((interface.map fun v => "interface" ++ "=" ++ v).getD "") =
      .ok interface := by
    cases interface with
    | none => exact hextract.interface_none
    | some name => exact hextract.interface_some name (hplain name rfl)
  show Answers _ _ (extracted (extract.interface _) _)
  rw [hread]
  exact answers_listing _ (by rintro (e | x) <;> rfl) json.iaPrefixes_iaPrefixes fun x => rfl

theorem served_staticSetHostname {ip : String} (hip : PlainText ip) (hostname : Option String) :
    Served crates extract raConfig target (Cli.Static.setHostname json ip hostname)
      (.updateStaticIpHostname ip hostname) := by
  have hpath : "/api/static-ips/" ++ ip ++ "/hostname" =
      joinPath ["api", "static-ips", ip, "hostname"] := by
    simp [joinPath, String.join, String.ext_iff]
  have hplain : ∀ s ∈ ["api", "static-ips", ip, "hostname"], PlainText s := by
    have hwords : PlainText "api" ∧ PlainText "static-ips" ∧ PlainText "hostname" := by decide
    simp [hip, hwords]
  have htarget' : target ("/api/static-ips/" ++ ip ++ "/hostname") =
      some (["api", "static-ips", ip, "hostname"], "") := by
    rw [hpath]
    exact htarget.path _ (List.cons_ne_nil _ _) hplain
  have hroute : Route.ofPath ["api", "static-ips", ip, "hostname"] = some (.staticIpHostname ip) :=
    if_neg (by simpa using hip.1)
  refine served_of_route (ApiClient.patch_rejects.map _) htarget' hroute fun http rng salt => ?_
  show Answers _ _ (extracted (extract.hostname (.json (.hostname hostname))) _)
  rw [hextract.hostname]
  have hfinish : (ApiClient.patch json.unit ("/api/static-ips/" ++ ip ++ "/hostname")
      (.hostname hostname)).answered ⟨204, .empty⟩ = .ok () :=
    ApiClient.patch_ok ⟨by simp, by simp⟩ json.unit_null
  refine answers_statement (ApiClient.patch_rejects.map _) (fun e => ⟨_, rfl, by decide⟩)
    fun x => ⟨_, rfl, .inl ⟨rfl, _, Exchange.map_ok hfinish _, ?_⟩⟩
  cases hostname <;> rfl

/-! The commands that create something; the request body is what the arguments describe. -/

theorem served_subnetCreate (subnet : Subnet) (conflict : String) :
    Served crates extract raConfig target
      (((ApiClient.post json.id "/api/subnets" (.subnet subnet)).mapErr (.explain conflict)).map
        fun id => .line ("Created subnet with ID: " ++ toString id)) (.createSubnet subnet) := by
  have hrejects := ((@ApiClient.post_rejects _ json.id "/api/subnets" (.subnet subnet)).mapErr
    (.explain conflict)).map fun id => CliOutput.line ("Created subnet with ID: " ++ toString id)
  refine served_of_route hrejects (target_collection htarget "subnets" (by decide) rfl) rfl
    fun http rng salt => ?_
  show Answers _ _ (extracted (extract.subnet (.json (.subnet subnet))) _)
  rw [hextract.subnet]
  -- the subnets are listed first, and the request may be refused already
  rintro (e | existing)
  · exact .inl ⟨_, rfl, hrejects ⟨500, .empty⟩ (by decide)⟩
  · show (∃ response, answering respondStatus respondId (@ite _ _ _ _ _) = .done response ∧ _) ∨
      (_ ∧ Answers _ _ (answering respondStatus respondId (@ite _ _ _ _ _)))
    split
    · have hconflict := hrejects ⟨409, .empty⟩ (by decide)
      exact .inl ⟨⟨409, .empty⟩, rfl, .inr ⟨rfl, hconflict⟩⟩
    · refine .inr ⟨rfl, answers_statement hrejects ?_ fun id =>
        ⟨_, rfl, .inl ⟨rfl, _, Exchange.map_ok (Exchange.mapErr_ok (ApiClient.post_id ..) _) _, rfl⟩⟩⟩
      intro e
      cases e with
      | uniqueViolation => exact ⟨_, rfl, by decide⟩
      | foreignKeyViolation => exact ⟨_, rfl, by decide⟩
      | unavailable => exact ⟨_, rfl, by decide⟩

theorem served_rangeCreate (range : DynamicRange) (conflict : String) :
    Served crates extract raConfig target
      (((ApiClient.post json.id "/api/ranges" (.range range)).mapErr (.explain conflict)).map
        fun id => .line ("Created dynamic range with ID: " ++ toString id)) (.createRange range) := by
  have hrejects := ((@ApiClient.post_rejects _ json.id "/api/ranges" (.range range)).mapErr
    (.explain conflict)).map
      fun id => CliOutput.line ("Created dynamic range with ID: " ++ toString id)
  refine served_of_route hrejects (target_collection htarget "ranges" (by decide) rfl) rfl
    fun http rng salt => ?_
  show Answers _ _ (extracted (extract.range (.json (.range range))) _)
  rw [hextract.range]
  exact answers_statement hrejects (fun e => ⟨_, rfl, by decide⟩) fun id =>
    ⟨_, rfl, .inl ⟨rfl, _, Exchange.map_ok (Exchange.mapErr_ok (ApiClient.post_id ..) _) _, rfl⟩⟩

theorem served_ip6SubnetCreate (pfx : IAPrefix) :
    Served crates extract raConfig target
      ((ApiClient.post json.id "/api/ia-prefixes" (.iaPrefix pfx)).map
        fun id => .line ("Created IPv6 subnet with ID: " ++ toString id))
      (.createIaPrefix (pfx.withDefaults raConfig)) := by
  have hrejects := (@ApiClient.post_rejects _ json.id "/api/ia-prefixes" (.iaPrefix pfx)).map
    fun id => CliOutput.line ("Created IPv6 subnet with ID: " ++ toString id)
  refine served_of_route hrejects
    (target_collection htarget "ia-prefixes" (by decide) rfl) rfl fun http rng salt => ?_
  show Answers _ _ (extracted (extract.iaPrefix (.json (.iaPrefix pfx))) _)
  rw [hextract.iaPrefix]
  exact answers_statement hrejects (fun e => ⟨_, rfl, by decide⟩) fun id =>
    ⟨_, rfl, .inl ⟨rfl, _, Exchange.map_ok (ApiClient.post_id ..) _, rfl⟩⟩

theorem served_staticCreate (staticIp : StaticIP) (conflict : String) :
    Served crates extract raConfig target
      (((ApiClient.post json.unit "/api/static-ips" (.staticIp staticIp)).mapErr
        (.explain conflict)).map fun _ => .line ("Created static IP " ++ staticIp.ipAddress.toString))
      (.createStaticIp staticIp) := by
  have hrejects := ((@ApiClient.post_rejects _ json.unit "/api/static-ips"
    (.staticIp staticIp)).mapErr (.explain conflict)).map
      fun _ => CliOutput.line ("Created static IP " ++ staticIp.ipAddress.toString)
  refine served_of_route hrejects
    (target_collection htarget "static-ips" (by decide) rfl) rfl fun http rng salt => ?_
  show Answers _ _ (extracted (extract.staticIp (.json (.staticIp staticIp))) _)
  rw [hextract.staticIp]
  have hfinish : (ApiClient.post json.unit "/api/static-ips" (.staticIp staticIp)).answered
      ⟨201, .empty⟩ = .ok () := ApiClient.post_ok (by decide) json.unit_null
  refine answers_statement hrejects ?_ fun x =>
    ⟨_, rfl, .inl ⟨rfl, _, Exchange.map_ok (Exchange.mapErr_ok hfinish _) _, rfl⟩⟩
  intro e
  cases e with
  | uniqueViolation => exact ⟨_, rfl, by decide⟩
  | foreignKeyViolation => exact ⟨_, rfl, by decide⟩
  | unavailable => exact ⟨_, rfl, by decide⟩

/-- **Every command** has a statement, and the server answers its request with the result. -/
theorem Command.served {cmd : Command} (hplain : cmd.Plain) {ex : Exchange CliOutput}
    (hex : cmd.handle v6 json = .ok ex) :
    ∃ q, cmd.call v6 raConfig = .ok q ∧ Served crates extract raConfig target ex q := by
  cases cmd with
  | subnetList =>
    obtain rfl := Except.ok.inj hex
    exact ⟨_, rfl, served_subnetList htarget⟩
  | subnetCreate network netmask gateway dnsServers domainName =>
    simp only [handle, Cli.Subnet.create] at hex
    simp only [call]
    cases hargs : Cli.Subnet.fromArgs network netmask gateway dnsServers domainName with
    | error e => rw [hargs] at hex; cases hex
    | ok subnet =>
      rw [hargs] at hex
      obtain rfl := Except.ok.inj hex
      exact ⟨_, rfl, served_subnetCreate htarget hextract subnet _⟩
  | subnetGet id =>
    obtain rfl := Except.ok.inj hex
    exact ⟨_, rfl, served_subnetGet htarget id⟩
  | subnetDelete id =>
    obtain rfl := Except.ok.inj hex
    exact ⟨_, rfl, served_subnetDelete htarget id⟩
  | rangeList subnetId =>
    obtain rfl := Except.ok.inj hex
    exact ⟨_, rfl, served_rangeList htarget hextract subnetId⟩
  | rangeCreate subnetId start stop =>
    simp only [handle, Cli.Range.create] at hex
    simp only [call]
    cases hargs : Cli.Range.fromArgs subnetId start stop with
    | error e => rw [hargs] at hex; cases hex
    | ok range =>
      rw [hargs] at hex
      obtain rfl := Except.ok.inj hex
      exact ⟨_, rfl, served_rangeCreate htarget hextract range _⟩
  | rangeDelete id =>
    obtain rfl := Except.ok.inj hex
    exact ⟨_, rfl, served_rangeDelete htarget id⟩
  | staticList subnetId =>
    obtain rfl := Except.ok.inj hex
    exact ⟨_, rfl, served_staticList htarget hextract subnetId⟩
  | staticCreate subnetId mac ip hostname =>
    simp only [handle, Cli.Static.create] at hex
    simp only [call]
    cases hargs : Cli.Static.fromArgs subnetId mac ip hostname with
    | error e => rw [hargs] at hex; cases hex
    | ok staticIp =>
      rw [hargs] at hex
      obtain rfl := Except.ok.inj hex
      exact ⟨_, rfl, served_staticCreate htarget hextract staticIp _⟩
  | staticDelete ip =>
    obtain rfl := Except.ok.inj hex
    exact ⟨_, rfl, served_staticDelete htarget hplain⟩
  | staticSetHostname ip hostname =>
    obtain rfl := Except.ok.inj hex
    exact ⟨_, rfl, served_staticSetHostname htarget hextract hplain hostname⟩
  | ip6SubnetList interface =>
    obtain rfl := Except.ok.inj hex
    exact ⟨_, rfl, served_ip6SubnetList htarget hextract hplain⟩
  | ip6SubnetCreate interface pfx prefixLen preferredLifetime validLifetime dnsServers dnsLifetime =>
    simp only [handle, Cli.Ip6Subnet.create] at hex
    simp only [call]
    cases hargs : Cli.Ip6Subnet.fromArgs v6 interface pfx prefixLen preferredLifetime validLifetime
        dnsServers dnsLifetime with
    | error e => rw [hargs] at hex; cases hex
    | ok iaPrefix =>
      rw [hargs] at hex
      obtain rfl := Except.ok.inj hex
      exact ⟨_, rfl, served_ip6SubnetCreate htarget hextract iaPrefix⟩
  | ip6SubnetGet id =>
    obtain rfl := Except.ok.inj hex
    exact ⟨_, rfl, served_ip6SubnetGet htarget id⟩
  | ip6SubnetDelete id =>
    obtain rfl := Except.ok.inj hex
    exact ⟨_, rfl, served_ip6SubnetDelete htarget id⟩
  | leases =>
    obtain rfl := Except.ok.inj hex
    exact ⟨_, rfl, served_leases htarget⟩

end Route

private theorem of_bind_eq_ok {ε α β : Type} {x : Except ε α} {f : α → Except ε β} {b : β}
    (h : (x >>= f) = .ok b) : ∃ a, x = .ok a ∧ f a = .ok b := by
  cases x with
  | error e => cases h
  | ok a => exact ⟨a, rfl, h⟩

/-- **Every command** takes no answer that is missing for a success. -/
theorem Command.handle_careful {cmd : Command} {ex : Exchange CliOutput}
    (hex : cmd.handle v6 json = .ok ex) : ex.Careful := by
  have hpost : ∀ {α : Type} {read : ResponseBody → Option α} {path text : String}
      {doc : RequestDocument} {f : α → CliOutput},
      (((ApiClient.post read path doc).mapErr (.explain text)).map f).Careful :=
    (ApiClient.post_careful.explain _).map _
  cases cmd with
  | subnetList => exact Except.ok.inj hex ▸ ApiClient.get_careful.map _
  | subnetCreate network netmask gateway dnsServers domainName =>
    obtain ⟨subnet, -, hmade⟩ := of_bind_eq_ok hex
    exact Except.ok.inj hmade ▸ hpost
  | subnetGet id => exact Except.ok.inj hex ▸ ApiClient.get_careful.map _
  | subnetDelete id => exact Except.ok.inj hex ▸ ApiClient.delete_careful.map _
  | rangeList subnetId => exact Except.ok.inj hex ▸ ApiClient.get_careful.map _
  | rangeCreate subnetId start stop =>
    obtain ⟨range, -, hmade⟩ := of_bind_eq_ok hex
    exact Except.ok.inj hmade ▸ hpost
  | rangeDelete id => exact Except.ok.inj hex ▸ ApiClient.delete_careful.map _
  | staticList subnetId => exact Except.ok.inj hex ▸ ApiClient.get_careful.map _
  | staticCreate subnetId mac ip hostname =>
    obtain ⟨staticIp, -, hmade⟩ := of_bind_eq_ok hex
    exact Except.ok.inj hmade ▸ hpost
  | staticDelete ip => exact Except.ok.inj hex ▸ ApiClient.delete_careful.map _
  | staticSetHostname ip hostname => exact Except.ok.inj hex ▸ ApiClient.patch_careful.map _
  | ip6SubnetList interface => exact Except.ok.inj hex ▸ ApiClient.get_careful.map _
  | ip6SubnetCreate interface pfx prefixLen preferredLifetime validLifetime dnsServers dnsLifetime =>
    obtain ⟨iaPrefix, -, hmade⟩ := of_bind_eq_ok hex
    exact Except.ok.inj hmade ▸ ApiClient.post_careful.map _
  | ip6SubnetGet id => exact Except.ok.inj hex ▸ ApiClient.get_careful.map _
  | ip6SubnetDelete id => exact Except.ok.inj hex ▸ ApiClient.delete_careful.map _
  | leases => exact Except.ok.inj hex ▸ ApiClient.get_careful.map _

end Commands

/-! ### Commands among the other tasks -/

section InFlight

variable (ord : ScanOrder)

/-- The job `k` does not change the database in a run. -/
abbrev ApiPool.LeavesAlone (k : ℕ) (p : ApiPool) (schedule : List (ℕ × Fate)) : Prop :=
  Run.Along (Pool.step (serve (SqliteDb.exec ord)))
    (fun p act => act.1 = k → (Pool.step (serve (SqliteDb.exec ord)) p act).world.db = p.world.db)
    p schedule

/-- Reads change nothing. -/
theorem leavesAlone_of_quiet {k : ℕ} {p : ApiPool} {schedule : List (ℕ × Fate)}
    (h : Pool.QuietAlong (serve (SqliteDb.exec ord)) (·.isRead = true) k p schedule) :
    p.LeavesAlone ord k schedule := by
  induction schedule generalizing p with
  | nil => trivial
  | cons act schedule ih =>
    refine ⟨fun hact => ?_, ih h.2⟩
    rcases h.1 hact with hworld | ⟨c, hread, hworld⟩
    · exact congrArg World.db hworld
    · rw [hworld, serve_of_isRead hread]

/-- The deciding call of a command that fails changes nothing. -/
theorem db_of_reported_error {finish : Response → Except CliError CliOutput} {q : DbCall}
    {fate : Fate} {c : ServerCall} {w : World SqliteDb} {response : Response} {e : CliError}
    (h : Reported finish q c (serve (SqliteDb.exec ord) fate c w).1 response)
    (herror : finish response = .error e) :
    (serve (SqliteDb.exec ord) fate c w).2.db = w.db := by
  by_cases hexecuted : Executed c (serve (SqliteDb.exec ord) fate c w).1
  · rcases c with c | _
    · cases hreply : (serve (SqliteDb.exec ord) fate (.db c) w).1 with
      | error e' =>
        rw [hreply] at hexecuted
        exact hexecuted.elim
      | ok x =>
        rw [hreply] at h
        rcases h with ⟨-, out, hout, -⟩ | ⟨hread, -⟩
        · rw [hout] at herror
          cases herror
        · have hcall : (ServerCall.db c).isRead = true := hread
          rw [serve_of_isRead hcall]
    · exact hexecuted.elim
  · exact serve_of_not_executed hexecuted

/-- The deciding call of a command that succeeds is its statement. -/
theorem serve_of_reported_ok {finish : Response → Except CliError CliOutput} {q : DbCall}
    {fate : Fate} {c : ServerCall} {w : World SqliteDb} {response : Response} {out : CliOutput}
    (h : Reported finish q c (serve (SqliteDb.exec ord) fate c w).1 response)
    (hout : finish response = .ok out) :
    c = .db q ∧ ∃ x, (serve (SqliteDb.exec ord) fate (.db q) w).1 = .ok x ∧
      q.shown x = some out := by
  rcases c with c | _
  · cases hreply : (serve (SqliteDb.exec ord) fate (.db c) w).1 with
    | error e =>
      rw [hreply] at h
      obtain ⟨e', he'⟩ := h
      rw [hout] at he'
      cases he'
    | ok x =>
      rw [hreply] at h
      rcases h with ⟨rfl, out', hout', hshown⟩ | ⟨-, e, he⟩
      · obtain rfl := Except.ok.inj (hout'.symm.trans hout)
        exact ⟨rfl, x, hreply, hshown⟩
      · rw [hout] at he
        cases he
  · exact h.elim

/-- At one step of the job `k` in a run the statement `q` is executed, with the result `x`, and at
its other steps the job does not change the database. -/
def ApiPool.Executes (k : ℕ) (q : DbCall) (x : q.Ret) (p : ApiPool) (schedule : List (ℕ × Fate)) :
    Prop :=
  ∃ pre fate post, schedule = pre ++ (k, fate) :: post ∧ p.LeavesAlone ord k pre ∧
    serve (SqliteDb.exec ord) fate (.db q) (p.after ord pre).world =
      (.ok x, (p.after ord (pre ++ [(k, fate)])).world) ∧
    (p.after ord (pre ++ [(k, fate)])).LeavesAlone ord k post

/-- What the result of a command says about its job in a run. If the command succeeds, its statement
was executed, and the result is printed; if it fails, the job has changed nothing, or the connection
has failed and the statement was executed once. -/
def ApiPool.Reflects (k : ℕ) (q : DbCall) (p : ApiPool) (schedule : List (ℕ × Fate)) :
    Except CliError CliOutput → Prop
  | .ok out => ∃ x, p.Executes ord k q x schedule ∧ q.shown x = some out
  | .error e => p.LeavesAlone ord k schedule ∨
      e = .transport ∧ ∃ x, p.Executes ord k q x schedule

/-- What may be received of the answer to the job `k`: the connection may fail at any time, and
where it does not, the answer is that of the job. -/
def HttpReply.Of (p : ApiPool) (k : ℕ) : HttpReply → Prop
  | .nothing => True
  | .head status => ∃ response, p.jobs[k]? = some (.done response) ∧ response.status = status
  | .whole response => p.jobs[k]? = some (.done response)

/-- **What an answer says.** A command that succeeds with the answer has executed its statement and
shows the result; otherwise its request has changed nothing. -/
theorem effect_of_settled {p : ApiPool} {k : ℕ} {schedule : List (ℕ × Fate)} {response : Response}
    {ex : Exchange CliOutput} {q : DbCall}
    (h : Pool.Settled (serve (SqliteDb.exec ord)) (·.isRead = true) (Reported ex.answered q)
      (fun response => ∃ e, ex.answered response = .error e) k p schedule response) :
    ((∃ e, ex.answered response = .error e) ∧ p.LeavesAlone ord k schedule) ∨
      ∃ x out, p.Executes ord k q x schedule ∧ ex.answered response = .ok out ∧
        q.shown x = some out := by
  rcases h with ⟨herror, hquiet⟩ | ⟨pre, fate, post, c, next, rfl, hjob, hpoint, hpre, hpost⟩
  · exact .inl ⟨herror, leavesAlone_of_quiet ord hquiet⟩
  · have hworld : (p.after ord (pre ++ [(k, fate)])).world =
        (serve (SqliteDb.exec ord) fate c (p.after ord pre).world).2 := by
      rw [ApiPool.after, Run.after_append, Run.after_cons, Run.after_nil, Pool.step_request hjob]
    cases hfinish : ex.answered response with
    | error e =>
      refine .inl ⟨⟨e, rfl⟩, Run.along_append.mpr ⟨leavesAlone_of_quiet ord hpre, fun _ => ?_, ?_⟩⟩
      · show (Pool.step _ (p.after ord pre) (k, fate)).world.db = (p.after ord pre).world.db
        rw [Pool.step_request hjob]
        exact db_of_reported_error ord hpoint hfinish
      · have hafter := leavesAlone_of_quiet ord hpost
        rw [Run.after_append] at hafter
        exact hafter
    | ok out =>
      obtain ⟨rfl, x, hreply, hshown⟩ := serve_of_reported_ok ord hpoint hfinish
      refine .inr ⟨x, out, ⟨pre, fate, post, rfl, leavesAlone_of_quiet ord hpre, ?_,
        leavesAlone_of_quiet ord hpost⟩, rfl, hshown⟩
      rw [hworld]
      exact Prod.ext hreply rfl

/-- **Commands take effect at one moment.** Let a command of the client run next to any other
requests and tasks, in any interleaving of their calls, some of which may fail, and let the
connection fail at any time or not at all. At any point of the run, if the command succeeds, then at
one step its statement was executed, with the result that the command prints, and at no other step
did its request change the database. If the command fails, its request has not changed the database
at all; only where the command fails because of the connection may the statement have been executed,
and then once. -/
theorem commands_take_effect (crates : TokenCrates) (extract : Extractors) (raConfig : RaConfig)
    (guardsFallback : Bool) (ord : ScanOrder) (v6 : TextForm Ipv6Addr) (json : JsonReader)
    (target : String → Option (List String × String)) (hextract : extract.ReadsClient)
    (htarget : ReadsTargets target) (w : World SqliteDb) (requests : List (Bool × ApiRequest))
    (others : List (ServerProgram Response)) (schedule : List (ℕ × Fate)) (k : ℕ)
    (requireAuth : Bool) (req : ApiRequest) (hreq : requests[k]? = some (requireAuth, req))
    (cmd : Command) (hplain : cmd.Plain) (ex : Exchange CliOutput)
    (hex : cmd.handle v6 json = .ok ex) (harrives : ex.Arrives target req) (received : HttpReply)
    (hreceived : received.Of
      ((inFlight crates extract raConfig guardsFallback requests others w).after ord schedule) k) :
    let pool := inFlight crates extract raConfig guardsFallback requests others w
    ∃ q, cmd.call v6 raConfig = .ok q ∧ pool.Reflects ord k q schedule (ex.finish received) := by
  intro pool
  obtain ⟨q, hcall, hserved⟩ := Command.served htarget hextract hplain hex
  refine ⟨q, hcall, ?_⟩
  have hjob := @jobs_inFlight crates extract raConfig guardsFallback requests others w k _ hreq
  have hpointed := hserved guardsFallback requireAuth req harrives
  have hdone : ∀ response, (pool.after ord schedule).jobs[k]? = some (.done response) →
      ((∃ e, ex.answered response = .error e) ∧ pool.LeavesAlone ord k schedule) ∨
        ∃ x out, pool.Executes ord k q x schedule ∧ ex.answered response = .ok out ∧
          q.shown x = some out :=
    fun response hresponse => effect_of_settled ord (Pool.after_pointed hjob hpointed hresponse)
  -- the answer was received, as far as the command looks at it
  have hanswered : ∀ response, (pool.after ord schedule).jobs[k]? = some (.done response) →
      pool.Reflects ord k q schedule (ex.answered response) := by
    intro response hresponse
    rcases hdone response hresponse with ⟨⟨e, he⟩, halone⟩ | ⟨x, out, hexecutes, hout, hshown⟩
    · rw [he]
      exact .inl halone
    · rw [hout]
      exact ⟨x, hexecutes, hshown⟩
  -- the connection has failed
  have hlost : pool.Reflects ord k q schedule (.error .transport) := by
    by_cases hrunning : ∃ response, (pool.after ord schedule).jobs[k]? = some (.done response)
    · obtain ⟨response, hresponse⟩ := hrunning
      rcases hdone response hresponse with ⟨-, halone⟩ | ⟨x, -, hexecutes, -⟩
      · exact .inl halone
      · exact .inr ⟨rfl, x, hexecutes⟩
    · exact .inl (leavesAlone_of_quiet ord (Pool.quietAlong_running hjob hpointed
        fun response hresponse => hrunning ⟨response, hresponse⟩))
  have hcareful := Command.handle_careful hex
  cases received with
  | nothing =>
    rw [hcareful.nothing]
    exact hlost
  | head status =>
    obtain ⟨response, hresponse, rfl⟩ := hreceived
    rcases hcareful.head response.status with htransport | hsame
    · rw [htransport]
      exact hlost
    · rw [hsame response.body]
      exact hanswered response hresponse
  | whole response => exact hanswered response hreceived

end InFlight

/-! ### A sample -/

namespace Sample

/-- A reader that takes each document for what it is. -/
def jsonReader : JsonReader where
  unit | .null => some () | _ => none
  id | .id n => some n | _ => none
  subnet | .subnet s => some s | _ => none
  subnets | .subnets l => some l | _ => none
  ranges | .ranges l => some l | _ => none
  staticIps | .staticIps l => some l | _ => none
  leases | .leases l => some l | _ => none
  iaPrefix | .iaPrefix p => some p | _ => none
  iaPrefixes | .iaPrefixes l => some l | _ => none
  unit_null := rfl
  id_id _ := rfl
  subnet_subnet _ := rfl
  subnets_subnets _ := rfl
  ranges_ranges _ := rfl
  staticIps_staticIps _ := rfl
  leases_leases _ := rfl
  iaPrefix_iaPrefix _ := rfl
  iaPrefixes_iaPrefixes _ := rfl

/-- A query with one parameter. -/
def readQuery {α : Type} (key : String) (read : String → Option α) (query : String) :
    Except ℕ (Option α) :=
  if query = "" then .ok none
  else
    match (query.toList.dropPrefix? (key ++ "=").toList).bind (read ∘ String.ofList) with
    | some a => .ok (some a)
    | none => .error 400

/-- Extractors that take JSON documents. -/
def clientExtractors : Extractors where
  subnet | .json (.subnet s) => .ok s | .json _ => .error 422 | _ => .error 415
  range | .json (.range r) => .ok r | .json _ => .error 422 | _ => .error 415
  staticIp | .json (.staticIp s) => .ok s | .json _ => .error 422 | _ => .error 415
  hostname | .json (.hostname h) => .ok h | .json _ => .error 422 | _ => .error 415
  tokenName _ := .error 415
  iaPrefix | .json (.iaPrefix p) => .ok p | .json _ => .error 422 | _ => .error 415
  subnetId := readQuery "subnet_id" parseI64
  interface := readQuery "interface" some

theorem readQuery_append {α : Type} {key value : String} {read : String → Option α} {a : α}
    (hread : read value = some a) : readQuery key read (key ++ "=" ++ value) = .ok (some a) := by
  have hne : key ++ "=" ++ value ≠ "" := by
    simp
  have hdrop : ((key ++ "=") ++ value).toList.dropPrefix? (key ++ "=").toList =
      some value.toList :=
    List.dropPrefix?_eq_some_iff.mpr ⟨(key ++ "=").toList, by simp, by simp⟩
  rw [readQuery, if_neg hne, hdrop, Option.bind_some, Function.comp_apply, String.ofList_toList,
    hread]

theorem clientExtractors_readsClient : clientExtractors.ReadsClient where
  subnet _ := rfl
  range _ := rfl
  staticIp _ := rfl
  hostname _ := rfl
  iaPrefix _ := rfl
  subnetId_none := rfl
  subnetId_some id := @readQuery_append ℤ "subnet_id" _ parseI64 _ (parseI64_toString id)
  interface_none := rfl
  interface_some name _ := @readQuery_append String "interface" name some name rfl

/-- Targets without escapes: the path before the question mark, at its slashes. -/
def readTarget (text : String) : Option (List String × String) :=
  let segments (path : List Char) : List String := ((path.splitOn '/').drop 1).map String.ofList
  match text.toList.splitOn '?' with
  | [path] => some (segments path, "")
  | [path, query] => some (segments path, String.ofList query)
  | _ => none

theorem toList_joinPath (segments : List String) :
    (joinPath segments).toList = segments.flatMap fun s => '/' :: s.toList := by
  rw [joinPath, String.toList_join, List.flatMap_map]
  refine List.flatMap_congr fun s _ => ?_
  simp

theorem intercalate_cons_flatMap (sep : Char) (first : List Char) (parts : List (List Char)) :
    [sep].intercalate (first :: parts) = first ++ parts.flatMap (sep :: ·) := by
  induction parts generalizing first with
  | nil => simp
  | cons part parts ih => rw [List.intercalate_cons_cons, ih, List.flatMap_cons]; simp

/-- The segments of a path. -/
theorem splitOn_joinPath {segments : List String} (h : ∀ s ∈ segments, '/' ∉ s.toList) :
    (joinPath segments).toList.splitOn '/' = [] :: segments.map String.toList := by
  have hjoin : (joinPath segments).toList =
      ['/'].intercalate ([] :: segments.map String.toList) := by
    rw [toList_joinPath, intercalate_cons_flatMap, List.flatMap_map, List.nil_append]
  rw [hjoin]
  refine List.splitOn_intercalate '/' ?_ (List.cons_ne_nil _ _)
  intro part hpart hslash
  rcases List.mem_cons.mp hpart with rfl | hpart
  · cases hslash
  · obtain ⟨s, hs, rfl⟩ := List.mem_map.mp hpart
    exact h s hs hslash

/-- Neither separator occurs in a plain text. -/
theorem plainText_separators {s : String} (h : PlainText s) :
    '/' ∉ s.toList ∧ '?' ∉ s.toList := by
  have hall := List.all_eq_true.mp h.2
  exact ⟨fun hmem => absurd (hall _ hmem) (by decide), fun hmem => absurd (hall _ hmem) (by decide)⟩

theorem question_notMem_joinPath {segments : List String} (h : ∀ s ∈ segments, PlainText s) :
    '?' ∉ (joinPath segments).toList := by
  rw [toList_joinPath]
  intro hmem
  obtain ⟨s, hs, hmem⟩ := List.mem_flatMap.mp hmem
  rcases List.mem_cons.mp hmem with heq | hmem
  · exact absurd heq (by decide)
  · exact (plainText_separators (h s hs)).2 hmem

/-- A text is split at its question marks. -/
theorem splitOn_question {parts : List (List Char)} (hne : parts ≠ [])
    (h : ∀ part ∈ parts, '?' ∉ part) : (['?'].intercalate parts).splitOn '?' = parts :=
  List.splitOn_intercalate '?' h hne

theorem readTarget_readsTargets : ReadsTargets readTarget where
  path segments hne h := by
    have hquestion : (joinPath segments).toList.splitOn '?' = [(joinPath segments).toList] := by
      have hsplit := splitOn_question (List.cons_ne_nil (joinPath segments).toList [])
        (List.forall_mem_singleton.mpr (question_notMem_joinPath h))
      rwa [List.intercalate_singleton] at hsplit
    have hslash := splitOn_joinPath fun s hs => (plainText_separators (h s hs)).1
    rw [readTarget, hquestion]
    simp [hslash]
  query segments name value hne h hname hvalue := by
    have htext : (joinPath segments ++ "?" ++ name ++ "=" ++ value).toList =
        ['?'].intercalate [(joinPath segments).toList, (name ++ "=" ++ value).toList] := by
      simp [List.intercalate_cons_cons]
    have hquery : '?' ∉ (name ++ "=" ++ value).toList := by
      have hequals : '?' ∉ "=".toList := by decide
      simp only [String.toList_append, List.mem_append, not_or]
      exact ⟨⟨(plainText_separators hname).2, hequals⟩, (plainText_separators hvalue).2⟩
    have hquestion : (joinPath segments ++ "?" ++ name ++ "=" ++ value).toList.splitOn '?' =
        [(joinPath segments).toList, (name ++ "=" ++ value).toList] := by
      rw [htext]
      refine splitOn_question (List.cons_ne_nil _ _) (List.forall_mem_cons.mpr ⟨?_, ?_⟩)
      · exact question_notMem_joinPath h
      · exact List.forall_mem_singleton.mpr hquery
    have hslash := splitOn_joinPath fun s hs => (plainText_separators (h s hs)).1
    rw [readTarget, hquestion]
    simp [hslash, String.append_assoc]

end Sample

/-- A client deletes the subnet over the Unix socket, and another one over TCP is turned away. -/
theorem commands_take_effect_delete :
    let pool := inFlight Sample.crates Sample.clientExtractors .default false
      [(true, Sample.deleteRequest), (false, Sample.deleteRequest)] [] Sample.world
    ∃ q, (Command.subnetDelete 1).call fullIpv6Text .default = .ok q ∧
      ∃ x, pool.Executes .rowid 1 q x [(0, .calm), (1, .calm)] ∧
        q.shown x = some (.line "Deleted subnet 1") := by
  intro pool
  have harrives : (Cli.Subnet.delete 1).Arrives Sample.readTarget Sample.deleteRequest :=
    ⟨rfl, rfl, rfl, rfl⟩
  obtain ⟨q, hcall, hreflects⟩ := commands_take_effect Sample.crates Sample.clientExtractors
    .default false .rowid fullIpv6Text Sample.jsonReader Sample.readTarget
    Sample.clientExtractors_readsClient Sample.readTarget_readsTargets Sample.world
    [(true, Sample.deleteRequest), (false, Sample.deleteRequest)] []
    [(0, .calm), (1, .calm)] 1 false Sample.deleteRequest rfl (Command.subnetDelete 1) trivial
    (Cli.Subnet.delete 1) rfl harrives (.head 204) ⟨⟨204, .empty⟩, rfl, rfl⟩
  exact ⟨q, hcall, hreflects⟩

end Ndhcpd
