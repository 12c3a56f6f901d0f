import Ndhcpd.Auth.Token
import Ndhcpd.Db.Keys
import Ndhcpd.Api.Subnets

/-!
# The token endpoints of the API

The handlers of `/api/tokens` as programs over the database interface, with the texts of their
errors. `create_token` draws a token and a salt, stores the hash and hands out the token, once.
`toggle_token` reads the flag and writes its opposite, in two statements.

Run alone, each handler comes to one of a few results, and the spec lemmas say what each result
means for the table of tokens.
-/

namespace Ndhcpd

/-- The answer to the creation of a token. -/
structure CreateTokenResponse where
  id : ℤ
  name : String
  token : String
deriving DecidableEq, Repr

/-- An error answer: the status and its text. -/
abbrev ApiError : Type := StatusCode × String

namespace Api

/-- `GET /api/tokens`. -/
def listTokens : ServerProgram (Except ApiError (List ApiToken)) := do
  match ← dbCall .listApiTokens with
  | .ok tokens => return .ok tokens
  | .error _ => return .error (.internalServerError, "Failed to list tokens")

/-- `POST /api/tokens`, with the random bytes and the salt that are drawn for it. -/
def createToken (crates : TokenCrates) (rng : Token.RandomBytes) (salt name : String) :
    ServerProgram (Except ApiError (StatusCode × CreateTokenResponse)) :=
  let token := Token.generate crates rng
  match Token.hash crates salt token with
  | .error _ => return .error (.internalServerError, "Failed to hash token")
  | .ok (tokenHash, salt) => do
    match ← dbCall (.createToken name tokenHash salt) with
    | .ok id => return .ok (.created, ⟨id, name, token⟩)
    | .error e =>
      if isUniqueViolation e then return .error (.conflict, "Token name already exists")
      else return .error (.internalServerError, "Failed to create token")

/-- `DELETE /api/tokens/{id}`. -/
def deleteToken (id : ℤ) : ServerProgram (Except ApiError StatusCode) := do
  match ← dbCall (.deleteToken id) with
  | .ok _ => return .ok .noContent
  | .error _ => return .error (.internalServerError, "Failed to delete token")

/-- `PATCH /api/tokens/{id}/toggle`. -/
def toggleToken (id : ℤ) : ServerProgram (Except ApiError StatusCode) := do
  match ← dbCall .listApiTokens with
  | .error _ => return .error (.internalServerError, "Failed to toggle token")
  | .ok tokens =>
    match tokens.find? (·.id == some id) with
    | none => return .error (.notFound, "Token not found")
    | some token =>
      match ← dbCall (.toggleToken id (!token.enabled)) with
      | .ok _ => return .ok .ok
      | .error _ => return .error (.internalServerError, "Failed to toggle token")

end Api

/-! ### The table of tokens -/

/-- The table of tokens between two statements: ids are unique and were given out in order. -/
structure TokensNumbered (db : SqliteDb) : Prop where
  nodup : (db.apiTokens.map (·.id)).Nodup
  fresh : ∀ r ∈ db.apiTokens, r.id ≤ db.tokenSeq

/-- Is the token enabled? -/
def SqliteDb.tokenEnabled (db : SqliteDb) (id : ℤ) : Option Bool :=
  (db.apiTokens.find? (·.id == id)).map (·.enabled != 0)

/-- The calls that delete a token or set its flag. -/
def setsToken (id : ℤ) : ServerCall → Bool
  | .db (.toggleToken id' _) | .db (.deleteToken id') => id' == id
  | _ => false

section Table

variable {db : SqliteDb} {ord : ScanOrder} {now : ℤ}

/-- The row that an id names. -/
theorem TokensNumbered.eq_of_id (h : TokensNumbered db) {r r' : TokenRow} (hr : r ∈ db.apiTokens)
    (hr' : r' ∈ db.apiTokens) (hid : r.id = r'.id) : r = r' :=
  List.inj_on_of_nodup_map h.nodup hr hr' hid

theorem mem_listApiTokens {t : ApiToken} :
    t ∈ db.listApiTokens ord ↔ ∃ r ∈ db.apiTokens, r.toApiToken = t := by
  simp [SqliteDb.listApiTokens]

/-- Looking up an id in the list of tokens finds its row, if there is one. -/
theorem TokensNumbered.find_listApiTokens (h : TokensNumbered db) {r : TokenRow}
    (hr : r ∈ db.apiTokens) :
    (db.listApiTokens ord).find? (·.id == some r.id) = some r.toApiToken := by
  cases hfind : (db.listApiTokens ord).find? (·.id == some r.id) with
  | none =>
    have hne := List.find?_eq_none.mp hfind r.toApiToken (mem_listApiTokens.mpr ⟨r, hr, rfl⟩)
    simp [TokenRow.toApiToken] at hne
  | some t =>
    obtain ⟨r', hr', rfl⟩ := mem_listApiTokens.mp (List.mem_of_find?_eq_some hfind)
    have hid : r'.id = r.id := by simpa [TokenRow.toApiToken] using List.find?_some hfind
    rw [h.eq_of_id hr' hr hid]

/-- The flag of a token, as its handler reads it. -/
theorem TokensNumbered.find_of_tokenEnabled (h : TokensNumbered db) {id : ℤ} {enabled : Bool}
    (henabled : db.tokenEnabled id = some enabled) :
    ∃ t, (db.listApiTokens ord).find? (·.id == some id) = some t ∧ t.enabled = enabled := by
  obtain ⟨r, hr, hflag⟩ := Option.map_eq_some_iff.mp henabled
  have hid : r.id = id := by simpa using List.find?_some hr
  subst hid
  exact ⟨r.toApiToken, h.find_listApiTokens (List.mem_of_find?_eq_some hr), hflag⟩

/-- Ids stay unique, and are given out in order. -/
theorem TokensNumbered.exec (h : TokensNumbered db) (c : DbCall) :
    TokensNumbered (SqliteDb.exec ord now db c).2 := by
  have hnumbered := @SqliteDb.numbered_apiTokens_exec ord now db ⟨h.nodup, h.fresh⟩ c
  exact ⟨hnumbered.nodup, hnumbered.fresh⟩

/-- An update that keeps the ids changes the row that an id names. -/
private theorem find_map_of_id {rows : List TokenRow} {f : TokenRow → TokenRow}
    (hf : ∀ r, (f r).id = r.id) (id : ℤ) :
    (rows.map f).find? (·.id == id) = (rows.find? (·.id == id)).map f := by
  have hsame : (fun r : TokenRow => r.id == id) ∘ f = fun r => r.id == id := by
    funext r
    simp [hf]
  rw [List.find?_map, hsame]

/-- Setting the flag of a token. -/
theorem tokenEnabled_toggleToken {id : ℤ} {old : Bool} (h : db.tokenEnabled id = some old)
    (enabled : Bool) : (db.toggleToken id enabled).tokenEnabled id = some enabled := by
  obtain ⟨r, hr, -⟩ := Option.map_eq_some_iff.mp h
  have hid : r.id = id := by simpa using List.find?_some hr
  rw [SqliteDb.tokenEnabled, SqliteDb.toggleToken, find_map_of_id (fun r => by split <;> rfl), hr]
  cases enabled <;> simp [hid]

/-- The other calls leave the flag as it is. -/
theorem tokenEnabled_exec {c : DbCall} {id : ℤ} {enabled : Bool}
    (hc : setsToken id (.db c) = false) (h : db.tokenEnabled id = some enabled) :
    (SqliteDb.exec ord now db c).2.tokenEnabled id = some enabled := by
  obtain ⟨r, hr, hflag⟩ := Option.map_eq_some_iff.mp h
  have hid : r.id = id := by simpa using List.find?_some hr
  cases hwrite : SqliteDb.mayWrite c .apiTokens with
  | false =>
    obtain ⟨hrows, -⟩ := @SqliteDb.exec_sameTable ord now db c .apiTokens hwrite
    rw [SqliteDb.tokenEnabled, hrows]
    exact h
  | true =>
    cases c with
    | createToken name tokenHash salt =>
      simp only [SqliteDb.exec, SqliteDb.createToken]
      split
      · exact h
      · rw [SqliteDb.tokenEnabled, List.find?_append, hr]
        exact congrArg some hflag
    | deleteToken id' =>
      have hne : id' ≠ id := by simpa [setsToken] using hc
      -- the search skips the deleted row anyway
      have hkept : (fun r : TokenRow => decide ((r.id != id') = true ∧ (r.id == id) = true)) =
          fun r => r.id == id := by
        funext r
        by_cases hr : r.id = id
        · simp [hr, hne.symm]
        · simp [hr]
      simp only [SqliteDb.exec, SqliteDb.deleteToken, SqliteDb.tokenEnabled, List.find?_filter]
      rw [hkept]
      exact h
    | toggleToken id' enabled' =>
      have hne : id' ≠ id := by simpa [setsToken] using hc
      simp only [SqliteDb.exec, SqliteDb.toggleToken, SqliteDb.tokenEnabled]
      rw [find_map_of_id (fun r => by split <;> rfl), hr]
      simpa [hid, hne.symm] using hflag
    | updateTokenLastUsed tokenHash =>
      simp only [SqliteDb.exec, SqliteDb.updateTokenLastUsed, SqliteDb.tokenEnabled]
      rw [find_map_of_id (fun r => by split <;> rfl), hr]
      simp only [Option.map_some, Option.some.injEq]
      split <;> exact hflag
    | _ => cases hwrite

end Table

/-! ### What the handlers come to -/

/-- The database with a further token, under the next id and enabled. -/
def SqliteDb.withToken (db : SqliteDb) (name tokenHash salt : String) (now : ℤ) : SqliteDb :=
  { db with
    apiTokens := db.apiTokens ++ [⟨db.tokenSeq + 1, name, tokenHash, salt, now, none, 1⟩]
    tokenSeq := db.tokenSeq + 1 }

section Handlers

variable {ord : ScanOrder} {w : World SqliteDb} {fates : ℕ → Fate}

/-- **Creation.** An error changes nothing; on success the hash of the token that is handed out
is stored under the id that is handed out. -/
theorem Api.createToken_run (crates : TokenCrates) (rng : Token.RandomBytes) (salt name : String) :
    let out := (Api.createToken crates rng salt name).run (serve (SqliteDb.exec ord)) fates w
    (∃ e, out.value = .error e ∧ out.state.db = w.db) ∨
    ∃ tokenHash now, crates.hashPassword (Token.generate crates rng) salt = .ok tokenHash ∧
      out.value = .ok (.created, ⟨w.db.tokenSeq + 1, name, Token.generate crates rng⟩) ∧
      out.state.db = w.db.withToken name tokenHash salt now := by
  intro out
  cases hhash : crates.hashPassword (Token.generate crates rng) salt with
  | error e =>
    refine .inl ⟨(.internalServerError, "Failed to hash token"), ?_⟩
    simp [out, Api.createToken, Token.hash, hhash]
  | ok tokenHash =>
    let P : Program.Outcome (Except ApiError (StatusCode × CreateTokenResponse)) (World SqliteDb)
        Fate → Prop := fun out =>
      (∃ e, out.value = .error e ∧ out.state.db = w.db) ∨
      ∃ now, out.value = .ok (.created, ⟨w.db.tokenSeq + 1, name, Token.generate crates rng⟩) ∧
        out.state.db = w.db.withToken name tokenHash salt now
    -- the hash is known from here on, and the rest is one statement
    suffices hP : P out by
      rcases hP with herror | ⟨now, hvalue, hdb⟩
      · exact .inl herror
      · exact .inr ⟨tokenHash, now, rfl, hvalue, hdb⟩
    simp only [out, Api.createToken, Token.hash, hhash]
    refine run_call (fun _ _ _ => .inl ⟨_, rfl, rfl⟩) (fun t _ fates => ?_) fates
    by_cases htaken : (w.db.apiTokens.any (·.name == name)) = true
    · have hexec : SqliteDb.exec ord t w.db (.createToken name tokenHash salt) =
          (.error .uniqueViolation, w.db) := if_pos htaken
      rw [hexec]
      exact .inl ⟨_, rfl, rfl⟩
    · have hexec : SqliteDb.exec ord t w.db (.createToken name tokenHash salt) =
          (.ok (w.db.tokenSeq + 1), w.db.withToken name tokenHash salt t) := if_neg htaken
      rw [hexec]
      exact .inr ⟨t, rfl, rfl⟩

/-- **Deletion.** -/
theorem Api.deleteToken_run (id : ℤ) :
    let out := (Api.deleteToken id).run (serve (SqliteDb.exec ord)) fates w
    (∃ e, out.value = .error e ∧ out.state.db = w.db) ∨
    out.value = .ok .noContent ∧ out.state.db = w.db.deleteToken id := by
  let P : Program.Outcome (Except ApiError StatusCode) (World SqliteDb) Fate → Prop := fun out =>
    (∃ e, out.value = .error e ∧ out.state.db = w.db) ∨
      out.value = .ok .noContent ∧ out.state.db = w.db.deleteToken id
  show P _
  exact run_call (fun _ _ _ => .inl ⟨_, rfl, rfl⟩) (fun _ _ _ => .inr ⟨rfl, rfl⟩) fates

/-- **Toggle.** An error changes nothing; on success the flag of the row is the opposite of what
it was. -/
theorem Api.toggleToken_run (id : ℤ) :
    let out := (Api.toggleToken id).run (serve (SqliteDb.exec ord)) fates w
    (∃ e, out.value = .error e ∧ out.state.db = w.db) ∨
    ∃ r ∈ w.db.apiTokens, r.id = id ∧ out.value = .ok .ok ∧
      out.state.db = w.db.toggleToken id (r.enabled == 0) := by
  let P : Program.Outcome (Except ApiError StatusCode) (World SqliteDb) Fate → Prop := fun out =>
    (∃ e, out.value = .error e ∧ out.state.db = w.db) ∨
    ∃ r ∈ w.db.apiTokens, r.id = id ∧ out.value = .ok .ok ∧
      out.state.db = w.db.toggleToken id (r.enabled == 0)
  show P _
  refine run_read rfl (fun _ _ _ => .inl ⟨_, rfl, rfl⟩) (fun t _ fates => ?_) fates
  simp only [SqliteDb.exec]
  cases hfind : (w.db.listApiTokens ord).find? (·.id == some id) with
  | none => exact .inl ⟨_, rfl, rfl⟩
  | some token =>
    obtain ⟨r, hr, rfl⟩ := mem_listApiTokens.mp (List.mem_of_find?_eq_some hfind)
    have hid : r.id = id := by simpa [TokenRow.toApiToken] using List.find?_some hfind
    have hflag : (!r.toApiToken.enabled) = (r.enabled == 0) := by
      simp [TokenRow.toApiToken, bne]
    exact run_call (fun _ _ _ => .inl ⟨_, rfl, rfl⟩)
      (fun _ _ _ => .inr ⟨r, hr, hid, rfl, congrArg (w.db.toggleToken id) hflag⟩) fates

end Handlers

end Ndhcpd
