import Ndhcpd.Api.Tokens
import Mathlib.Data.List.Forall2

/-!
# Authentication

`auth_middleware` lets a request pass if it came in over the Unix socket, or if the token in its
`Authorization` header verifies against the hash of an enabled token.

A history is what the token endpoints have answered so far: tokens handed out, toggles and
deletions that succeeded. Every history has a `ledger`, the tokens that are left with their
flags, and along every run the table of tokens is the ledger with each token replaced by a hash
(`Booked`). `authenticates_iff` says what this comes to for a request: it passes exactly if
its token was handed out, has not been deleted, and has been toggled an even number of times.
-/

namespace Ndhcpd

/-! ### The middleware -/

/-- How a request came in. -/
inductive ConnectionType
  | unixSocket | tcp
deriving DecidableEq, Repr

/-- What the middleware looks at: the kind of connection, if the router has set it, and the
value of the `Authorization` header. -/
structure HttpRequest where
  connection : Option ConnectionType
  authorization : Option (List UInt8)
deriving DecidableEq, Repr

/-- `strip_prefix("Bearer ")`. -/
def stripBearer (header : String) : Option String :=
  (header.toList.dropPrefix? "Bearer ".toList).map String.ofList

section Middleware

variable (crates : TokenCrates)

/-- The scan over the enabled tokens: the first hash that the token verifies against decides. -/
def scanTokens (token : String) : List (String × ℤ) → ServerProgram (Except (DbError ⊕ String) Bool)
  | [] => return .ok false
  | (tokenHash, enabled) :: rest =>
    match Token.verify crates token tokenHash with
    | .error e => return .error (.inr e)
    | .ok true => do
      -- the result of `update_token_last_used` is ignored
      let _ ← dbCall (.updateTokenLastUsed tokenHash)
      return .ok (enabled == 1)
    | .ok false => scanTokens token rest

/-- Does the token exist in the database, enabled? -/
def verifyTokenInDb (token : String) : ServerProgram (Except (DbError ⊕ String) Bool) := do
  match ← dbCall .listTokens with
  | .error e => return .error (.inl e)
  | .ok tokens => scanTokens crates token tokens

/-- Check a request; `ok` is to pass it on. -/
def authMiddleware (request : HttpRequest) : ServerProgram (Except ApiError Unit) :=
  if request.connection = some .unixSocket then return .ok ()
  else
    match request.authorization.bind crates.toStr with
    | none => return .error (.unauthorized, "Missing Authorization header")
    | some header =>
      match stripBearer header with
      | none =>
        return .error (.unauthorized,
          "Invalid Authorization header format. Expected: Bearer <token>")
      | some token => do
        match ← verifyTokenInDb crates token with
        | .error _ => return .error (.unauthorized, "Invalid token")
        | .ok false => return .error (.unauthorized, "Invalid or disabled token")
        | .ok true => return .ok ()

end Middleware

/-! ### Histories -/

/-- What a token endpoint has done. -/
inductive TokenEvent
  | created (id : ℤ) (token : String)
  | toggled (id : ℤ)
  | deleted (id : ℤ)
deriving DecidableEq, Repr

/-- A request that has to do with tokens. -/
inductive TokenRequest
  | create (name : String) (rng : Token.RandomBytes) (salt : String)
  | toggle (id : ℤ)
  | delete (id : ℤ)
  | authenticate (request : HttpRequest)

/-- The world, with what has been done so far. -/
structure TokenHistory where
  world : World SqliteDb
  events : List TokenEvent

/-- The event that a creation shows in its answer. -/
def createdBy : Except ApiError (StatusCode × CreateTokenResponse) → List TokenEvent
  | .ok (_, response) => [.created response.id response.token]
  | .error _ => []

/-- The event of an endpoint that has succeeded. -/
def ifOk (event : TokenEvent) : Except ApiError StatusCode → List TokenEvent
  | .ok _ => [event]
  | .error _ => []

/-- The history after a request, with the fates of the calls made for it. -/
def TokenRequest.step (crates : TokenCrates) (ord : ScanOrder) (h : TokenHistory) :
    TokenRequest × (ℕ → Fate) → TokenHistory
  | (.create name rng salt, fates) =>
    let out := (Api.createToken crates rng salt name).run (serve (SqliteDb.exec ord)) fates h.world
    ⟨out.state, h.events ++ createdBy out.value⟩
  | (.toggle id, fates) =>
    let out := (Api.toggleToken id).run (serve (SqliteDb.exec ord)) fates h.world
    ⟨out.state, h.events ++ ifOk (.toggled id) out.value⟩
  | (.delete id, fates) =>
    let out := (Api.deleteToken id).run (serve (SqliteDb.exec ord)) fates h.world
    ⟨out.state, h.events ++ ifOk (.deleted id) out.value⟩
  | (.authenticate request, fates) =>
    ⟨((authMiddleware crates request).run (serve (SqliteDb.exec ord)) fates h.world).state,
      h.events⟩

/-! ### The ledger -/

/-- A token that has been handed out. -/
structure IssuedToken where
  id : ℤ
  token : String
  enabled : Bool
deriving DecidableEq, Repr

/-- What an event does to the tokens that are out. -/
def TokenEvent.apply (issued : List IssuedToken) : TokenEvent → List IssuedToken
  | created id token => issued ++ [⟨id, token, true⟩]
  | toggled id => issued.map fun t => if t.id == id then { t with enabled := !t.enabled } else t
  | deleted id => issued.filter (·.id != id)

/-- The tokens that are out after the events. -/
def ledger (events : List TokenEvent) : List IssuedToken := Run.after TokenEvent.apply [] events

theorem ledger_append (events : List TokenEvent) (e : TokenEvent) :
    ledger (events ++ [e]) = e.apply (ledger events) := by
  rw [ledger, Run.after_append]
  rfl

/-- The token is out: it was handed out under this id, has not been deleted since, and its flag
is that of an even or odd number of toggles. -/
def IsOut (events : List TokenEvent) (t : IssuedToken) : Prop :=
  ∃ earlier later, events = earlier ++ .created t.id t.token :: later ∧
    .deleted t.id ∉ later ∧ t.enabled = (later.count (.toggled t.id) % 2 == 0)

/-- The last event either hands out the token, or the token was out before and stays. -/
theorem isOut_append {events : List TokenEvent} {e : TokenEvent} {t : IssuedToken} :
    IsOut (events ++ [e]) t ↔
      (e = .created t.id t.token ∧ t.enabled = true) ∨
      (e ≠ .deleted t.id ∧
        IsOut events { t with enabled := if e = .toggled t.id then !t.enabled else t.enabled }) := by
  -- one event more is a toggle or it is not
  have hcount : ∀ later : List TokenEvent,
      (t.enabled = ((later ++ [e]).count (.toggled t.id) % 2 == 0)) ↔
        ((if e = .toggled t.id then !t.enabled else t.enabled) =
          (later.count (.toggled t.id) % 2 == 0)) := by
    intro later
    rw [List.count_append, List.count_singleton]
    by_cases he : e = .toggled t.id
    · rcases Nat.mod_two_eq_zero_or_one (later.count (.toggled t.id)) with hm | hm
      · have hm' : (later.count (.toggled t.id) + 1) % 2 = 1 := by omega
        simp [he, hm, hm']
      · have hm' : (later.count (.toggled t.id) + 1) % 2 = 0 := by omega
        simp [he, hm, hm']
    · simp [he]
  constructor
  · rintro ⟨earlier, later, hevents, hdeleted, hflag⟩
    rcases List.eq_nil_or_concat later with rfl | ⟨before, last, rfl⟩
    · obtain ⟨-, he⟩ := List.append_inj' hevents rfl
      exact .inl ⟨(List.cons.inj he).1, by simpa using hflag⟩
    · rw [List.concat_eq_append] at hevents hdeleted hflag
      rw [← List.cons_append, ← List.append_assoc] at hevents
      obtain ⟨hbefore, he⟩ := List.append_inj' hevents rfl
      obtain rfl := (List.cons.inj he).1
      rw [List.mem_append, not_or, List.mem_singleton] at hdeleted
      exact .inr ⟨fun h => hdeleted.2 h.symm, earlier, before, hbefore, hdeleted.1,
        (hcount before).mp hflag⟩
  · rintro (⟨rfl, hflag⟩ | ⟨hne, earlier, later, rfl, hdeleted, hflag⟩)
    · exact ⟨events, [], rfl, by simp, by simpa using hflag⟩
    · refine ⟨earlier, later ++ [e], by simp, ?_, (hcount later).mpr hflag⟩
      rw [List.mem_append, not_or, List.mem_singleton]
      exact ⟨hdeleted, Ne.symm hne⟩

/-- **The ledger lists the tokens that are out.** -/
theorem mem_ledger_iff {events : List TokenEvent} {t : IssuedToken} :
    t ∈ ledger events ↔ IsOut events t := by
  induction events using List.reverseRecOn generalizing t with
  | nil => simp [ledger, IsOut]
  | append_singleton events e ih =>
    rw [ledger_append, isOut_append, ← ih]
    obtain ⟨id, token, enabled⟩ := t
    cases e with
    | created id' token' =>
      simp only [TokenEvent.apply, List.mem_append, List.mem_singleton, IssuedToken.mk.injEq,
        TokenEvent.created.injEq, reduceCtorEq, ne_eq, not_false_eq_true, true_and, if_false]
      rw [or_comm]
      simp only [eq_comm, and_assoc]
    | toggled id' =>
      simp only [TokenEvent.apply, List.mem_map, TokenEvent.toggled.injEq, reduceCtorEq, ne_eq,
        not_false_eq_true, true_and, false_and, false_or]
      constructor
      · rintro ⟨⟨tid, ttoken, tenabled⟩, ht, hflip⟩
        by_cases hid : tid = id'
        · subst hid
          rw [if_pos (by simp)] at hflip
          obtain ⟨rfl, rfl, rfl⟩ := IssuedToken.mk.inj hflip
          simpa using ht
        · rw [if_neg (by simpa using hid)] at hflip
          obtain ⟨rfl, rfl, rfl⟩ := IssuedToken.mk.inj hflip
          rw [if_neg (Ne.symm hid)]
          exact ht
      · intro ht
        refine ⟨_, ht, ?_⟩
        by_cases hid : id' = id
        · simp [hid]
        · simp [hid, Ne.symm hid]
    | deleted id' =>
      simp only [TokenEvent.apply, List.mem_filter, bne_iff_ne, TokenEvent.deleted.injEq,
        reduceCtorEq, ne_eq, false_and, false_or, if_false]
      rw [and_comm, eq_comm]

/-! ### The table is the ledger -/

section Booked

variable (crates : TokenCrates)

/-- The row holds a hash of the token, and its flag. -/
structure Records (r : TokenRow) (t : IssuedToken) : Prop where
  id : r.id = t.id
  generated : ∃ rng, t.token = Token.generate crates rng
  hashed : ∃ salt, crates.hashPassword t.token salt = .ok r.tokenHash
  flag : r.enabled = if t.enabled then 1 else 0

/-- The rows are the tokens of the ledger. -/
structure Booked (h : TokenHistory) : Prop where
  numbered : TokensNumbered h.world.db
  rows : List.Forall₂ (Records crates) h.world.db.apiTokens (ledger h.events)

variable {crates} {ord : ScanOrder} {w : World SqliteDb} {fates : ℕ → Fate}
  {issued : List IssuedToken} {id : ℤ}

/-- No program gives out an id twice. -/
theorem TokensNumbered.run {α : Type} (h : TokensNumbered w.db) (p : ServerProgram α)
    (fates : ℕ → Fate) : TokensNumbered (p.run (serve (SqliteDb.exec ord)) fates w).state.db := by
  have hall : ∀ p : ServerProgram α, p.Only fun _ => True := by
    intro p
    induction p with
    | done a => trivial
    | request c next ih => exact ⟨trivial, ih⟩
  refine Program.run_preserves (serve (SqliteDb.exec ord))
    (R := fun w w' => TokensNumbered w.db → TokensNumbered w'.db) (fun _ h => h)
    (fun _ _ _ h₁ h₂ h => h₂ (h₁ h)) (fun fate c w _ h => ?_) (hall p) fates w h
  cases c with
  | utcNow => exact h
  | db c =>
    rcases serve_cases (SqliteDb.exec ord) fate c w with ⟨-, hserve⟩ | ⟨-, hserve⟩
    · rw [hserve]
      exact h
    · rw [hserve]
      exact h.exec c

/-- The middleware writes nothing but the time of use. -/
theorem authMiddleware_only (request : HttpRequest) :
    (authMiddleware crates request).Only fun c =>
      c = .db .listTokens ∨ ∃ tokenHash, c = .db (.updateTokenLastUsed tokenHash) := by
  have hscan : ∀ token tokens, (scanTokens crates token tokens).Only fun c =>
      c = .db .listTokens ∨ ∃ tokenHash, c = .db (.updateTokenLastUsed tokenHash) := by
    intro token tokens
    induction tokens with
    | nil => trivial
    | cons p rest ih =>
      unfold scanTokens
      rcases Token.verify crates token p.1 with e | _ | _
      · trivial
      · exact ih
      · exact ⟨.inr ⟨p.1, rfl⟩, fun _ => trivial⟩
  have hverify : ∀ token, (verifyTokenInDb crates token).Only fun c =>
      c = .db .listTokens ∨ ∃ tokenHash, c = .db (.updateTokenLastUsed tokenHash) := by
    refine fun token => ⟨.inl rfl, ?_⟩
    rintro (e | tokens)
    · trivial
    · exact hscan token tokens
  unfold authMiddleware
  split
  · trivial
  · split
    · trivial
    · split
      · trivial
      · refine (hverify _).bind ?_
        rintro (e | _ | _) <;> trivial

private theorem rows_lastUsed {rows : List TokenRow} (tokenHash : String) (now : ℤ)
    (h : List.Forall₂ (Records crates) rows issued) :
    List.Forall₂ (Records crates) (rows.map fun r =>
      if r.tokenHash == tokenHash then { r with lastUsedAt := some now } else r) issued := by
  rw [List.forall₂_map_left_iff]
  refine h.imp fun r t hrt => ?_
  split
  · exact ⟨hrt.id, hrt.generated, hrt.hashed, hrt.flag⟩
  · exact hrt

/-- A request that is authenticated leaves the rows as they are recorded. -/
theorem rows_authMiddleware (h : List.Forall₂ (Records crates) w.db.apiTokens issued)
    (request : HttpRequest) :
    List.Forall₂ (Records crates) ((authMiddleware crates request).run (serve (SqliteDb.exec ord))
      fates w).state.db.apiTokens issued := by
  refine Program.run_preserves (serve (SqliteDb.exec ord))
    (R := fun w w' => List.Forall₂ (Records crates) w.db.apiTokens issued →
      List.Forall₂ (Records crates) w'.db.apiTokens issued) (fun _ h => h)
    (fun _ _ _ h₁ h₂ h => h₂ (h₁ h)) (fun fate c w hc h => ?_)
    (authMiddleware_only request) fates w h
  rcases hc with rfl | ⟨tokenHash, rfl⟩
  · rw [serve_of_isRead rfl]
    exact h
  · rcases serve_cases (SqliteDb.exec ord) fate (.updateTokenLastUsed tokenHash) w with
      ⟨-, hserve⟩ | ⟨-, hserve⟩
    · rw [hserve]
      exact h
    · rw [hserve]
      exact rows_lastUsed tokenHash _ h

/-- A toggle in the table is a toggle in the ledger. -/
private theorem rows_toggleToken {db : SqliteDb} (hnumbered : TokensNumbered db)
    (h : List.Forall₂ (Records crates) db.apiTokens issued) {r : TokenRow}
    (hr : r ∈ db.apiTokens) (hid : r.id = id) :
    List.Forall₂ (Records crates) (db.toggleToken id (r.enabled == 0)).apiTokens
      (TokenEvent.apply issued (.toggled id)) := by
  -- the only row with the id is the one whose flag was read
  have hmap : (db.toggleToken id (r.enabled == 0)).apiTokens = db.apiTokens.map fun r' =>
      if r'.id == id then { r' with enabled := if r'.enabled == 0 then 1 else 0 } else r' := by
    refine List.map_congr_left fun r' hr' => ?_
    by_cases hid' : r'.id = id
    · rw [hnumbered.eq_of_id hr' hr (hid'.trans hid.symm)]
    · simp [hid']
  rw [hmap]
  refine List.rel_map (fun r' t hrt => ?_) h
  by_cases hid' : r'.id = id
  · have hrow : (r'.id == id) = true := by simpa using hid'
    have htoken : (t.id == id) = true := by simpa [← hrt.id] using hid'
    rw [if_pos hrow, if_pos htoken]
    refine ⟨hrt.id, hrt.generated, hrt.hashed, ?_⟩
    have hflag := hrt.flag
    cases henabled : t.enabled <;> rw [henabled] at hflag <;> simp [hflag]
  · have ht : t.id ≠ id := fun ht => hid' (hrt.id.trans ht)
    simpa [hid', ht] using hrt

private theorem rows_deleteToken {db : SqliteDb} (id : ℤ)
    (h : List.Forall₂ (Records crates) db.apiTokens issued) :
    List.Forall₂ (Records crates) (db.deleteToken id).apiTokens
      (TokenEvent.apply issued (.deleted id)) := by
  refine List.rel_filter (fun r t hrt => ?_) h
  simp [hrt.id]

/-- **One request** keeps the table and the ledger together. -/
theorem Booked.step {h : TokenHistory} (hrec : Booked crates h)
    (req : TokenRequest × (ℕ → Fate)) : Booked crates (TokenRequest.step crates ord h req) := by
  obtain ⟨req, fates⟩ := req
  cases req with
  | create name rng salt =>
    refine ⟨hrec.numbered.run _ fates, ?_⟩
    rcases @Api.createToken_run ord h.world fates crates rng salt name with
      ⟨e, hvalue, hdb⟩ | ⟨tokenHash, now, hhash, hvalue, hdb⟩
    · simp only [TokenRequest.step, hvalue, hdb, createdBy, List.append_nil]
      exact hrec.rows
    · simp only [TokenRequest.step, hvalue, hdb, createdBy, ledger_append]
      have hnew : Records crates ⟨h.world.db.tokenSeq + 1, name, tokenHash, salt, now, none, 1⟩
          ⟨h.world.db.tokenSeq + 1, Token.generate crates rng, true⟩ :=
        ⟨rfl, ⟨rng, rfl⟩, ⟨salt, hhash⟩, rfl⟩
      exact List.rel_append hrec.rows (.cons hnew .nil)
  | toggle id =>
    refine ⟨hrec.numbered.run _ fates, ?_⟩
    rcases @Api.toggleToken_run ord h.world fates id with
      ⟨e, hvalue, hdb⟩ | ⟨r, hr, hid, hvalue, hdb⟩
    · simp only [TokenRequest.step, hvalue, hdb, ifOk, List.append_nil]
      exact hrec.rows
    · simp only [TokenRequest.step, hvalue, hdb, ifOk, ledger_append]
      exact rows_toggleToken hrec.numbered hrec.rows hr hid
  | delete id =>
    refine ⟨hrec.numbered.run _ fates, ?_⟩
    rcases @Api.deleteToken_run ord h.world fates id with ⟨e, hvalue, hdb⟩ | ⟨hvalue, hdb⟩
    · simp only [TokenRequest.step, hvalue, hdb, ifOk, List.append_nil]
      exact hrec.rows
    · simp only [TokenRequest.step, hvalue, hdb, ifOk, ledger_append]
      exact rows_deleteToken id hrec.rows
  | authenticate request =>
    exact ⟨hrec.numbered.run _ fates, rows_authMiddleware hrec.rows request⟩

/-- The table and the ledger stay together in every run. -/
theorem booked_after (hempty : w.db.apiTokens = [])
    (requests : List (TokenRequest × (ℕ → Fate))) :
    Booked crates (Run.after (TokenRequest.step crates ord) ⟨w, []⟩ requests) := by
  have hstart : Booked crates ⟨w, []⟩ := by
    refine ⟨⟨?_, ?_⟩, ?_⟩
    · simp [hempty]
    · simp [hempty]
    · rw [hempty]
      exact .nil
  have halong : Run.Along (TokenRequest.step crates ord) (fun _ _ => True) ⟨w, []⟩ requests :=
    Run.along_of_forall fun _ _ _ => trivial
  exact halong.invariant (fun h req hrec _ => hrec.step req) hstart

end Booked

/-! ### What a request is answered -/

section Header

theorem stripBearer_append (token : String) : stripBearer ("Bearer " ++ token) = some token := by
  rw [stripBearer, String.toList_append]
  have hdrop : ("Bearer ".toList ++ token.toList).dropPrefix? "Bearer ".toList =
      some token.toList :=
    List.dropPrefix?_eq_some_iff.mpr ⟨"Bearer ".toList, rfl, by simp⟩
  rw [hdrop, Option.map_some, String.ofList_toList]

end Header

section Answer

private theorem exists_of_forall₂ {α β : Type} {R : α → β → Prop} {l : List α} {l' : List β}
    (h : List.Forall₂ R l l') {a : α} (ha : a ∈ l) : ∃ b ∈ l', R a b := by
  induction h with
  | nil => cases ha
  | cons hab _ ih =>
    rcases List.mem_cons.mp ha with rfl | ha
    · exact ⟨_, List.mem_cons_self, hab⟩
    · obtain ⟨b, hb, hR⟩ := ih ha
      exact ⟨b, List.mem_cons_of_mem _ hb, hR⟩

variable {crates : TokenCrates} {ord : ScanOrder} {w : World SqliteDb} {fates : ℕ → Fate}
  {token : String}

/-- **The scan.** Where no hash is unreadable, the token is found exactly if it verifies against
one of them, in whatever order they come. -/
theorem scanTokens_run {tokens : List (String × ℤ)}
    (hread : ∀ p ∈ tokens, p.2 = 1 ∧ ∃ valid, Token.verify crates token p.1 = .ok valid) :
    ((scanTokens crates token tokens).run (serve (SqliteDb.exec ord)) fates w).value = .ok true ↔
      ∃ p ∈ tokens, Token.verify crates token p.1 = .ok true := by
  induction tokens with
  | nil => simp [scanTokens]
  | cons p rest ih =>
    obtain ⟨⟨henabled, valid, hvalid⟩, hrest⟩ := List.forall_mem_cons.mp hread
    unfold scanTokens
    rw [hvalid, List.exists_mem_cons_iff, hvalid]
    cases valid with
    | true =>
      -- the listed tokens are enabled
      simp only [henabled, beq_self_eq_true, true_or, iff_true]
      rfl
    | false => simpa using ih hrest

/-- The token is found exactly if it is that of an enabled row. -/
theorem verifyTokenInDb_run (hfate : (fates 0).fails = false)
    (hread : ∀ r ∈ w.db.apiTokens, ∃ valid, Token.verify crates token r.tokenHash = .ok valid) :
    ((verifyTokenInDb crates token).run (serve (SqliteDb.exec ord)) fates w).value = .ok true ↔
      ∃ r ∈ w.db.apiTokens, r.enabled = 1 ∧
        Token.verify crates token r.tokenHash = .ok true := by
  rw [verifyTokenInDb, dbCall_bind, Program.run_request]
  rcases serve_cases (SqliteDb.exec ord) (fates 0) .listTokens w with ⟨hfails, -⟩ | ⟨-, hserve⟩
  · rw [hfate] at hfails
    cases hfails
  · rw [hserve]
    have hmem : ∀ p : String × ℤ, p ∈ w.db.listTokens ord ↔
        ∃ r ∈ w.db.apiTokens, r.enabled = 1 ∧ (r.tokenHash, r.enabled) = p := by
      simp [SqliteDb.listTokens, and_assoc]
    refine (scanTokens_run fun p hp => ?_).trans ?_
    · obtain ⟨r, hr, henabled, rfl⟩ := (hmem p).mp hp
      exact ⟨henabled, hread r hr⟩
    · constructor
      · rintro ⟨p, hp, hvalid⟩
        obtain ⟨r, hr, henabled, rfl⟩ := (hmem p).mp hp
        exact ⟨r, hr, henabled, hvalid⟩
      · rintro ⟨r, hr, henabled, hvalid⟩
        exact ⟨_, (hmem _).mpr ⟨r, hr, henabled, rfl⟩, hvalid⟩

/-- The token is good exactly if it is out and enabled. -/
theorem verifyTokenInDb_ledger (hideal : crates.Ideal) {h : TokenHistory}
    (hrec : Booked crates h) (hfate : (fates 0).fails = false) :
    ((verifyTokenInDb crates token).run (serve (SqliteDb.exec ord)) fates h.world).value =
        .ok true ↔ ∃ t ∈ ledger h.events, t.enabled = true ∧ t.token = token := by
  have hread : ∀ r ∈ h.world.db.apiTokens,
      ∃ valid, Token.verify crates token r.tokenHash = .ok valid := by
    intro r hr
    obtain ⟨t, -, hrt⟩ := exists_of_forall₂ hrec.rows hr
    obtain ⟨salt, hhash⟩ := hrt.hashed
    exact ⟨_, hideal.verify_eq hhash⟩
  have hrow : ∀ r t, Records crates r t → (r.enabled = 1 ∧
      Token.verify crates token r.tokenHash = .ok true ↔ t.enabled = true ∧ t.token = token) := by
    intro r t hrt
    obtain ⟨salt, hhash⟩ := hrt.hashed
    have hflag : r.enabled = 1 ↔ t.enabled = true := by
      have hflag := hrt.flag
      cases henabled : t.enabled <;> rw [henabled] at hflag <;> simp [hflag]
    rw [hflag, hideal.verify_eq hhash, Except.ok.injEq, decide_eq_true_eq, @eq_comm _ token]
  rw [verifyTokenInDb_run hfate hread]
  constructor
  · rintro ⟨r, hr, hgood⟩
    obtain ⟨t, ht, hrt⟩ := exists_of_forall₂ hrec.rows hr
    exact ⟨t, ht, (hrow r t hrt).mp hgood⟩
  · rintro ⟨t, ht, hgood⟩
    obtain ⟨r, hr, hrt⟩ := exists_of_forall₂ hrec.rows.flip ht
    exact ⟨r, hr, (hrow r t hrt).mpr hgood⟩

end Answer

/-- **Tokens authenticate as long as they are out and enabled.** Start without tokens, and let
the API serve any requests that create, toggle, delete and present tokens, one at a time and with
any of their calls failing. A request over TCP that presents the token `t`, and for which the
tokens can be listed, is then passed on if and only if `t` was handed out, has not been deleted
since, and has been toggled an even number of times since. -/
theorem authenticates_iff (ord : ScanOrder) (crates : TokenCrates) (hideal : crates.Ideal)
    (hdocumented : crates.Documented) (w : World SqliteDb) (hempty : w.db.apiTokens = [])
    (requests : List (TokenRequest × (ℕ → Fate))) (t : String)
    (connection : Option ConnectionType) (hconnection : connection ≠ some .unixSocket)
    (fates : ℕ → Fate) (hfate : (fates 0).fails = false) :
    let h := Run.after (TokenRequest.step crates ord) ⟨w, []⟩ requests
    ((authMiddleware crates ⟨connection, some (utf8Bytes ("Bearer " ++ t))⟩).run
        (serve (SqliteDb.exec ord)) fates h.world).value = .ok () ↔
      ∃ id earlier later, h.events = earlier ++ .created id t :: later ∧
        .deleted id ∉ later ∧ later.count (.toggled id) % 2 = 0 := by
  intro h
  have hrec : Booked crates h := booked_after hempty requests
  have hout : (∃ id earlier later, h.events = earlier ++ .created id t :: later ∧
      .deleted id ∉ later ∧ later.count (.toggled id) % 2 = 0) ↔
      ∃ e ∈ ledger h.events, e.enabled = true ∧ e.token = t := by
    constructor
    · rintro ⟨id, earlier, later, hevents, hdeleted, hcount⟩
      refine ⟨⟨id, t, true⟩, mem_ledger_iff.mpr ⟨earlier, later, hevents, hdeleted, ?_⟩, rfl, rfl⟩
      simp [hcount]
    · rintro ⟨⟨id, token, enabled⟩, he, rfl, rfl⟩
      obtain ⟨earlier, later, hevents, hdeleted, hflag⟩ := mem_ledger_iff.mp he
      exact ⟨id, earlier, later, hevents, hdeleted, by simpa using hflag⟩
  rw [hout, authMiddleware, if_neg hconnection, Option.bind_some]
  cases hheader : crates.toStr (utf8Bytes ("Bearer " ++ t)) with
  | none =>
    -- a token that was handed out can be read
    refine iff_of_false (by simp) ?_
    rintro ⟨e, he, -, rfl⟩
    obtain ⟨r, -, hrt⟩ := exists_of_forall₂ hrec.rows.flip he
    obtain ⟨rng, hrng⟩ := hrt.generated
    have hvisible : ("Bearer " ++ e.token).toList.all isVisibleAscii = true := by
      have hbearer : "Bearer ".toList.all isVisibleAscii = true := by decide
      rw [String.toList_append, List.all_append, hbearer, hrng, Token.generate,
        hdocumented.encode]
      rfl
    rw [hdocumented.toStr_utf8Bytes _ hvisible] at hheader
    cases hheader
  | some header =>
    obtain rfl := utf8Bytes_injective (hdocumented.utf8Bytes_toStr _ _ hheader)
    simp only [stripBearer_append, Program.run_bind]
    rw [← verifyTokenInDb_ledger hideal hrec hfate]
    rcases ((verifyTokenInDb crates t).run (serve (SqliteDb.exec ord)) fates h.world).value
      with e | _ | _ <;> simp

namespace Sample

/-- The base64 alphabet. -/
def base64Alphabet : List Char :=
  "ABCDEFGHIJKLMNOPQRSTUVWXYZabcdefghijklmnopqrstuvwxyz0123456789+/".toList

/-- The character for six bits. -/
def base64Char (n : ℕ) : Char := base64Alphabet.getD n '='

/-- Base64 with padding: four characters for every three bytes. -/
def base64Encode : List UInt8 → List Char
  | [] => []
  | [a] => [base64Char (a.toNat / 4), base64Char (a.toNat % 4 * 16), '=', '=']
  | [a, b] =>
    [base64Char (a.toNat / 4), base64Char (a.toNat % 4 * 16 + b.toNat / 16),
      base64Char (b.toNat % 16 * 4), '=']
  | a :: b :: c :: rest =>
    base64Char (a.toNat / 4) :: base64Char (a.toNat % 4 * 16 + b.toNat / 16) ::
      base64Char (b.toNat % 16 * 4 + c.toNat / 64) :: base64Char (c.toNat % 64) ::
        base64Encode rest

example : base64Encode [0x66, 0x6F, 0x6F, 0x62] = "Zm9vYg==".toList := by decide

theorem isVisibleAscii_base64Char (n : ℕ) : isVisibleAscii (base64Char n) = true := by
  have hall : base64Alphabet.all isVisibleAscii = true := by decide +kernel
  rw [base64Char, List.getD_eq_getElem?_getD]
  cases h : base64Alphabet[n]? with
  | none => decide
  | some c => exact List.all_eq_true.mp hall c (List.mem_of_getElem? h)

theorem all_isVisibleAscii_base64Encode (bytes : List UInt8) :
    (base64Encode bytes).all isVisibleAscii = true := by
  have hpad : isVisibleAscii '=' = true := by decide
  induction bytes using base64Encode.induct with
  | case1 => rfl
  | case2 a => simp [base64Encode, isVisibleAscii_base64Char, hpad]
  | case3 a b => simp [base64Encode, isVisibleAscii_base64Char, hpad]
  | case4 a b c rest ih => simp [base64Encode, isVisibleAscii_base64Char, ih]

/-- The text of a header value that is visible ASCII. -/
def headerToStr (value : List UInt8) : Option String :=
  if value.all fun b => isVisibleAscii (Char.ofNat b.toNat) && b.toNat < 128 then
    some (String.ofList (value.map fun b => Char.ofNat b.toNat))
  else none

theorem utf8Bytes_of_headerToStr {value : List UInt8} {s : String}
    (h : headerToStr value = some s) : utf8Bytes s = value := by
  unfold headerToStr at h
  split at h
  · next hvisible =>
    rw [← Option.some.inj h]
    refine utf8Bytes_map_ofNat fun b hb => ?_
    have hb' := List.all_eq_true.mp hvisible b hb
    simp only [Bool.and_eq_true, decide_eq_true_eq] at hb'
    exact hb'.2
  · cases h

theorem headerToStr_utf8Bytes {s : String} (h : s.toList.all isVisibleAscii = true) :
    headerToStr (utf8Bytes s) = some s := by
  have hvisible : ((utf8Bytes s).all fun b =>
      isVisibleAscii (Char.ofNat b.toNat) && b.toNat < 128) = true := by
    rw [utf8Bytes_eq, List.all_eq_true]
    intro b hb
    obtain ⟨c, hc, hbc⟩ := List.mem_flatMap.mp hb
    have hascii := List.all_eq_true.mp h c hc
    have hlt : c.toNat < 128 := by
      simp only [isVisibleAscii, Bool.or_eq_true, Bool.and_eq_true, decide_eq_true_eq,
        beq_iff_eq] at hascii
      rcases hascii with ⟨-, hlt⟩ | rfl
      · omega
      · decide
    rw [utf8EncodeChar_of_lt hlt, List.mem_singleton] at hbc
    have htoNat : b.toNat = c.toNat := by
      rw [hbc, UInt8.toNat_ofNat', Nat.mod_eq_of_lt (by omega)]
    rw [htoNat, Char.ofNat_toNat, hascii]
    simpa using hlt
  obtain ⟨s', hs'⟩ : ∃ s', headerToStr (utf8Bytes s) = some s' := ⟨_, if_pos hvisible⟩
  rw [hs', utf8Bytes_injective (utf8Bytes_of_headerToStr hs')]

/-- Base64 and the header values as they are, and a stand-in for Argon2 that keeps the password in
the hash. -/
def crates : TokenCrates where
  hashPassword password _ := .ok ("$argon2id$" ++ password)
  parse _ := .ok ()
  verifyPassword password hash := hash == "$argon2id$" ++ password
  encode bytes := String.ofList (base64Encode bytes)
  toStr := headerToStr

theorem crates_documented : crates.Documented where
  encode bytes := by
    show (String.ofList (base64Encode bytes)).toList.all isVisibleAscii = true
    rw [String.toList_ofList, all_isVisibleAscii_base64Encode]
  toStr_utf8Bytes _ := headerToStr_utf8Bytes
  utf8Bytes_toStr _ _ := utf8Bytes_of_headerToStr

theorem crates_ideal : crates.Ideal := by
  intro token token' salt passwordHash hhash
  obtain rfl := Except.ok.inj hhash
  have happend : "$argon2id$" ++ token' = "$argon2id$" ++ token ↔ token' = token := by
    rw [← String.toList_inj, String.toList_append, String.toList_append, List.append_cancel_left_eq,
      String.toList_inj]
  simp only [Token.verify, crates, Except.ok.injEq, beq_iff_eq, happend]
  exact eq_comm

/-- Thirty-two zeros. -/
def zeros : Token.RandomBytes := ⟨List.replicate 32 0, rfl⟩

end Sample

/-- A token that has just been handed out authenticates. -/
theorem authenticates_iff_new :
    Sample.crates.Ideal ∧ Sample.crates.Documented ∧
    ((authMiddleware Sample.crates
        ⟨some .tcp, some (utf8Bytes ("Bearer " ++ Token.generate Sample.crates Sample.zeros))⟩).run
      (serve (SqliteDb.exec .rowid)) (fun _ => .calm)
      (Run.after (TokenRequest.step Sample.crates .rowid) ⟨⟨.empty, 0⟩, []⟩
        [(.create "backup" Sample.zeros "salt", fun _ => .calm)]).world).value = .ok () := by
  refine ⟨Sample.crates_ideal, Sample.crates_documented,
    (authenticates_iff .rowid Sample.crates Sample.crates_ideal Sample.crates_documented
      ⟨.empty, 0⟩ rfl _ _ (some .tcp) (by decide) (fun _ => .calm) rfl).mpr ?_⟩
  exact ⟨1, [], [], rfl, by decide, by decide⟩

end Ndhcpd
