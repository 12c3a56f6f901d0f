import Ndhcpd.Interaction.Pool
import Ndhcpd.Api.Tokens
import Mathlib.Data.Finset.Card

/-!
# Toggles at the same time

`toggle_token` lists the tokens and then writes the opposite of the flag it has seen. Between
the two statements another request may have written, and its toggle is lost then: the flag that
is written builds on what was read.

Which toggles count can be read off the order of the statements alone. A request that lists the
tokens sees the toggles that led to the last `UPDATE` before it, and when it writes, it adds
itself to these; toggles that were written in between are forgotten. `ToggleChain` follows a
schedule in this way, and `toggles_counted_iff` says that the flag comes out right exactly if
the number of toggles that count has the right parity. It does where no request writes between
the two statements of another one (`depthAfter_of_undisturbed`).
-/

namespace Ndhcpd

/-! ### Which toggles count -/

/-- How far a request has got: it has not begun, it has listed the tokens and seen so many
toggles, or it is finished. -/
inductive ToggleStage
  | waiting
  | listed (seen : ℕ)
  | finished
deriving DecidableEq, Repr

/-- The toggles that led to the flag as it is now, and where the requests are. -/
structure ToggleChain where
  depth : ℕ
  stage : ℕ → ToggleStage

namespace ToggleChain

/-- Nothing has happened. -/
def start : ToggleChain := ⟨0, fun _ => .waiting⟩

/-- The next statement of the request `i`, out of `k` requests. -/
def step (k : ℕ) (chain : ToggleChain) (i : ℕ) : ToggleChain :=
  if i < k then
    match chain.stage i with
    | .waiting => { chain with stage := Function.update chain.stage i (.listed chain.depth) }
    | .listed seen => ⟨seen + 1, Function.update chain.stage i .finished⟩
    | .finished => chain
  else chain

/-- The number of toggles that count at the end of a schedule. -/
def depthAfter (k : ℕ) (order : List ℕ) : ℕ := (Run.after (step k) start order).depth

/-! ### Toggles that are left in peace -/

/-- The requests, out of `k`, that have written in a schedule. -/
def written (k : ℕ) (order : List ℕ) : Finset ℕ :=
  (Finset.range k).filter fun i => 2 ≤ order.count i

/-- Between a request's list and its `UPDATE` no other request writes. -/
def Undisturbed (k : ℕ) (order : List ℕ) : Prop :=
  ∀ i < k, ∀ before between after, order = before ++ i :: (between ++ i :: after) →
    i ∉ before → i ∉ between → written k (before ++ i :: between) = written k before

/-- Where a schedule has brought the request `i`. What it has seen is what had been written when
it listed the tokens. -/
def StageAfter (k : ℕ) (order : List ℕ) (i : ℕ) : ToggleStage → Prop
  | .waiting => i ∉ order
  | .listed seen => ∃ before between, order = before ++ i :: between ∧ i ∉ before ∧
      i ∉ between ∧ seen = (written k before).card
  | .finished => 2 ≤ order.count i

/-- No toggle is lost in the schedule: all that have been written count. -/
structure Lossless (k : ℕ) (order : List ℕ) (chain : ToggleChain) : Prop where
  depth : chain.depth = (written k order).card
  stage : ∀ i < k, StageAfter k order i (chain.stage i)

section Undisturbed

variable {k i : ℕ} {order more : List ℕ} {chain : ToggleChain}

theorem Undisturbed.of_append (h : Undisturbed k (order ++ more)) : Undisturbed k order := by
  intro i hi before between after horder
  refine h i hi before between (after ++ more) ?_
  rw [horder, List.append_assoc, List.cons_append, List.append_assoc, List.cons_append]

/-- A statement of a request writes if it is its second one. -/
theorem written_append_singleton (hi : i < k) (hcount : order.count i = 1) :
    (written k (order ++ [i])).card = (written k order).card + 1 := by
  have hinsert : written k (order ++ [i]) = insert i (written k order) := by
    ext j
    by_cases hij : j = i
    · subst hij
      simp [written, hi, hcount]
    · simp [written, List.count_singleton, hij, Ne.symm hij]
  have hfresh : i ∉ written k order := by simp [written, hcount]
  rw [hinsert, Finset.card_insert_of_notMem hfresh]

/-- Otherwise nothing is written. -/
theorem written_append_singleton_of_ne (h : i < k → order.count i ≠ 1) :
    written k (order ++ [i]) = written k order := by
  refine Finset.filter_congr fun j hj => ?_
  rw [List.count_append, List.count_singleton]
  by_cases hij : i = j
  · subst hij
    have hne := h (Finset.mem_range.mp hj)
    simp only [beq_self_eq_true, if_true]
    omega
  · simp [hij]

/-- The requests that do not move stay where they are. -/
theorem StageAfter.append_singleton {stage : ToggleStage} {j : ℕ}
    (h : StageAfter k order j stage) (hij : j ≠ i) : StageAfter k (order ++ [i]) j stage := by
  cases stage with
  | waiting =>
    intro hmem
    rcases List.mem_append.mp hmem with hmem | hmem
    · exact h hmem
    · exact hij (List.mem_singleton.mp hmem)
  | listed seen =>
    obtain ⟨before, between, rfl, hbefore, hbetween, hseen⟩ := h
    refine ⟨before, between ++ [i], ?_, hbefore, ?_, hseen⟩
    · rw [List.append_assoc, List.cons_append]
    · simp [hbetween, hij]
  | finished => exact h.trans ((List.sublist_append_left order [i]).count_le j)

theorem Lossless.depth_append_singleton (h : Lossless k order chain)
    (hcount : i < k → order.count i ≠ 1) : chain.depth = (written k (order ++ [i])).card := by
  rw [written_append_singleton_of_ne hcount]
  exact h.depth

/-- **One statement** of a schedule in which no request is disturbed. -/
theorem Lossless.step (h : Lossless k order chain) (hpeace : Undisturbed k (order ++ [i])) :
    Lossless k (order ++ [i]) (chain.step k i) := by
  rw [ToggleChain.step]
  by_cases hi : i < k
  · have hstage := h.stage i hi
    have hmoved : ∀ stage, StageAfter k (order ++ [i]) i stage →
        ∀ j < k, StageAfter k (order ++ [i]) j (Function.update chain.stage i stage j) := by
      intro stage hnext j hj
      by_cases hij : j = i
      · rw [hij, Function.update_self]
        exact hnext
      · rw [Function.update_of_ne hij]
        exact (h.stage j hj).append_singleton hij
    rw [if_pos hi]
    cases hwas : chain.stage i with
    | waiting =>
      rw [hwas] at hstage
      have hcount : order.count i = 0 := List.count_eq_zero.mpr hstage
      refine ⟨h.depth_append_singleton fun _ => by omega, hmoved _ ?_⟩
      exact ⟨order, [], rfl, hstage, List.not_mem_nil, h.depth⟩
    | listed seen =>
      rw [hwas] at hstage
      obtain ⟨before, between, rfl, hbefore, hbetween, rfl⟩ := hstage
      have hcount : (before ++ i :: between).count i = 1 := by
        rw [List.count_append, List.count_cons_self, List.count_eq_zero.mpr hbefore,
          List.count_eq_zero.mpr hbetween]
      have hsame := hpeace i hi before between [] (by simp) hbefore hbetween
      refine ⟨?_, hmoved _ ?_⟩
      · rw [written_append_singleton hi hcount, hsame]
      · show 2 ≤ (before ++ i :: between ++ [i]).count i
        rw [List.count_append, hcount, List.count_singleton_self]
    | finished =>
      rw [hwas] at hstage
      have hcount : 2 ≤ order.count i := hstage
      refine ⟨h.depth_append_singleton fun _ => by omega, fun j hj => ?_⟩
      by_cases hij : j = i
      · rw [hij, hwas]
        exact hcount.trans ((List.sublist_append_left order [i]).count_le i)
      · exact (h.stage j hj).append_singleton hij
  · rw [if_neg hi]
    exact ⟨h.depth_append_singleton fun hlt => absurd hlt hi,
      fun j hj => (h.stage j hj).append_singleton (by omega)⟩

/-- **Toggles that are left in peace count**: in a schedule that serves all of them to the end, and
in which no request writes between the two statements of another, none is lost. -/
theorem depthAfter_of_undisturbed (hpeace : Undisturbed k order)
    (hserved : ∀ i < k, 2 ≤ order.count i) : depthAfter k order = k := by
  have hlossless : Lossless k order (Run.after (ToggleChain.step k) start order) := by
    clear hserved
    induction order using List.reverseRecOn with
    | nil => exact ⟨by simp [start, written], fun i _ => List.not_mem_nil⟩
    | append_singleton order i ih =>
      rw [Run.after_append]
      exact (ih hpeace.of_append).step hpeace
  have hall : written k order = Finset.range k :=
    Finset.filter_true_of_mem fun i hi => hserved i (Finset.mem_range.mp hi)
  rw [depthAfter, hlossless.depth, hall, Finset.card_range]

end Undisturbed

end ToggleChain

/-! ### The requests -/

/-- What is left of a toggle when the tokens have been listed. -/
def setToken (id : ℤ) (enabled : Bool) : ServerProgram (Except ApiError StatusCode) := do
  match ← dbCall (.toggleToken id enabled) with
  | .ok _ => return .ok .ok
  | .error _ => return .error (.internalServerError, "Failed to toggle token")

/-- Requests to toggle one token, next to other programs, all of them in progress. -/
def toggles (id : ℤ) (k : ℕ) (others : List (ServerProgram (Except ApiError StatusCode)))
    (w : World SqliteDb) :
    Pool ServerCall ServerCall.Reply (World SqliteDb) (Except ApiError StatusCode) :=
  ⟨List.replicate k (Api.toggleToken id) ++ others, w⟩

/-- The flag after `n` toggles. -/
def flagAfter (before : Bool) (n : ℕ) : Bool := before ^^ (n % 2 == 1)

theorem flagAfter_succ (before : Bool) (n : ℕ) :
    flagAfter before (n + 1) = !flagAfter before n := by
  rcases Nat.mod_two_eq_zero_or_one n with h | h
  · have h' : (n + 1) % 2 = 1 := by omega
    simp [flagAfter, h, h']
  · have h' : (n + 1) % 2 = 0 := by omega
    simp [flagAfter, h, h']

theorem flagAfter_eq_iff {before : Bool} {m n : ℕ} :
    flagAfter before m = flagAfter before n ↔ m % 2 = n % 2 := by
  rcases Nat.mod_two_eq_zero_or_one m with hm | hm <;>
    rcases Nat.mod_two_eq_zero_or_one n with hn | hn <;> simp [flagAfter, hm, hn]

section Simulation

variable (id : ℤ) (before : Bool) (k : ℕ)

/-- The job of a request, by the stage it is in. -/
def StandsAt : ToggleStage → Option (ServerProgram (Except ApiError StatusCode)) → Prop
  | .waiting, job => job = some (Api.toggleToken id)
  | .listed seen, job => job = some (setToken id (flagAfter before (seen + 1)))
  | .finished, job => ∃ a, job = some (.done a)

/-- The pool is where the chain says: the flag is what the chain has made of it, and every
request is in its stage. -/
structure FollowsChain
    (p : Pool ServerCall ServerCall.Reply (World SqliteDb) (Except ApiError StatusCode))
    (chain : ToggleChain) : Prop where
  numbered : TokensNumbered p.world.db
  flag : p.world.db.tokenEnabled id = some (flagAfter before chain.depth)
  requests : ∀ i < k, StandsAt id before (chain.stage i) p.jobs[i]?
  others : ∀ i, k ≤ i → ∀ job, p.jobs[i]? = some job →
    job.Only fun c => setsToken id c = false

variable {id before k} {ord : ScanOrder} {chain : ToggleChain} {i : ℕ} {fate : Fate}
  {p : Pool ServerCall ServerCall.Reply (World SqliteDb) (Except ApiError StatusCode)}

/-- The list of tokens is read. -/
theorem step_toggleToken {enabled : Bool} (hjob : p.jobs[i]? = some (Api.toggleToken id))
    (hnumbered : TokensNumbered p.world.db) (hflag : p.world.db.tokenEnabled id = some enabled)
    (hfate : fate.fails = false) :
    Pool.step (serve (SqliteDb.exec ord)) p (i, fate) =
      ⟨p.jobs.set i (setToken id (!enabled)), ⟨p.world.db, p.world.clock + fate.wait⟩⟩ := by
  obtain ⟨t, hfind, rfl⟩ := @TokensNumbered.find_of_tokenEnabled _ ord hnumbered id enabled hflag
  rw [Api.toggleToken, dbCall_bind] at hjob
  rw [Pool.step_request hjob]
  rcases serve_cases (SqliteDb.exec ord) fate .listApiTokens p.world with
    ⟨hfails, -⟩ | ⟨-, hserve⟩
  · rw [hfate] at hfails
    cases hfails
  · rw [hserve]
    simp only [SqliteDb.exec, hfind]
    congr 2
    exact bind_congr fun reply => by cases reply <;> rfl

/-- The flag is written. -/
theorem step_setToken {enabled : Bool} (hjob : p.jobs[i]? = some (setToken id enabled))
    (hfate : fate.fails = false) :
    Pool.step (serve (SqliteDb.exec ord)) p (i, fate) =
      ⟨p.jobs.set i (.done (.ok .ok)),
        ⟨p.world.db.toggleToken id enabled, p.world.clock + fate.wait⟩⟩ := by
  rw [setToken, dbCall_bind] at hjob
  rw [Pool.step_request hjob]
  rcases serve_cases (SqliteDb.exec ord) fate (.toggleToken id enabled) p.world with
    ⟨hfails, -⟩ | ⟨-, hserve⟩
  · rw [hfate] at hfails
    cases hfails
  · rw [hserve]
    rfl

/-- The jobs after a step of the request `i`, which ends in its new stage. -/
private theorem FollowsChain.set (h : FollowsChain id before k p chain) (hi : i < k)
    (stage : ToggleStage) {job : ServerProgram (Except ApiError StatusCode)}
    (hlt : i < p.jobs.length) (hstage : StandsAt id before stage (some job)) :
    (∀ j < k, StandsAt id before (Function.update chain.stage i stage j)
        (p.jobs.set i job)[j]?) ∧
      ∀ j, k ≤ j → ∀ job', (p.jobs.set i job)[j]? = some job' →
        job'.Only fun c => setsToken id c = false := by
  constructor
  · intro j hj
    by_cases hij : i = j
    · subst hij
      rw [Function.update_self, List.getElem?_set_self hlt]
      exact hstage
    · rw [Function.update_of_ne (Ne.symm hij), List.getElem?_set_ne hij]
      exact h.requests j hj
  · intro j hj job' hjob'
    rw [List.getElem?_set_ne (by omega)] at hjob'
    exact h.others j hj job' hjob'

/-- A statement of one of the requests. -/
private theorem FollowsChain.step_request (h : FollowsChain id before k p chain) (hi : i < k)
    (hfate : fate.fails = false) :
    FollowsChain id before k (Pool.step (serve (SqliteDb.exec ord)) p (i, fate))
      (chain.step k i) := by
  have hstands := h.requests i hi
  rw [ToggleChain.step, if_pos hi]
  cases hstage : chain.stage i with
  | waiting =>
    rw [hstage] at hstands
    have hlt : i < p.jobs.length := (List.getElem?_eq_some_iff.mp hstands).1
    rw [step_toggleToken hstands h.numbered h.flag hfate, ← flagAfter_succ]
    obtain ⟨hrequests, hothers⟩ := h.set hi (.listed chain.depth) hlt rfl
    exact ⟨h.numbered, h.flag, hrequests, hothers⟩
  | listed seen =>
    rw [hstage] at hstands
    have hlt : i < p.jobs.length := (List.getElem?_eq_some_iff.mp hstands).1
    rw [step_setToken hstands hfate]
    obtain ⟨hrequests, hothers⟩ := h.set hi .finished hlt ⟨_, rfl⟩
    have hnumbered := @TokensNumbered.exec p.world.db ord 0 h.numbered
      (.toggleToken id (flagAfter before (seen + 1)))
    exact ⟨hnumbered, tokenEnabled_toggleToken h.flag _, hrequests, hothers⟩
  | finished =>
    rw [hstage] at hstands
    obtain ⟨a, hdone⟩ := hstands
    rw [Pool.step_done hdone]
    exact h

/-- A call of another program. -/
private theorem FollowsChain.step_other (h : FollowsChain id before k p chain) (hi : k ≤ i) :
    FollowsChain id before k (Pool.step (serve (SqliteDb.exec ord)) p (i, fate))
      (chain.step k i) := by
  rw [ToggleChain.step, if_neg (by omega)]
  cases hjob : p.jobs[i]? with
  | none =>
    rw [Pool.step_none hjob]
    exact h
  | some job =>
    cases job with
    | done a =>
      rw [Pool.step_done hjob]
      exact h
    | request c next =>
      obtain ⟨hc, hnext⟩ := h.others i hi _ hjob
      have hlt : i < p.jobs.length := (List.getElem?_eq_some_iff.mp hjob).1
      rw [Pool.step_request hjob]
      -- the toggles stand where they stood, as another request moved
      have hrequests : ∀ (job : ServerProgram (Except ApiError StatusCode)), ∀ j < k,
          StandsAt id before (chain.stage j) (p.jobs.set i job)[j]? := by
        intro job j hj
        rw [List.getElem?_set_ne (by omega)]
        exact h.requests j hj
      -- what is left of a request that leaves the flag alone leaves it alone
      have hothers : ∀ r j, k ≤ j → ∀ job', (p.jobs.set i (next r))[j]? = some job' →
          job'.Only fun c => setsToken id c = false := by
        intro r j hj job' hjob'
        by_cases hij : i = j
        · subst hij
          rw [List.getElem?_set_self hlt] at hjob'
          exact Option.some.inj hjob' ▸ hnext r
        · rw [List.getElem?_set_ne hij] at hjob'
          exact h.others j hj job' hjob'
      cases c with
      | utcNow => exact ⟨h.numbered, h.flag, hrequests _, hothers _⟩
      | db c =>
        rcases serve_cases (SqliteDb.exec ord) fate c p.world with ⟨-, hserve⟩ | ⟨-, hserve⟩
        · rw [hserve]
          exact ⟨h.numbered, h.flag, hrequests _, hothers _⟩
        · rw [hserve]
          exact ⟨h.numbered.exec c, tokenEnabled_exec hc h.flag, hrequests _, hothers _⟩

end Simulation

section Run

variable {ord : ScanOrder} {w : World SqliteDb} {id : ℤ} {before : Bool} {k : ℕ}
  {others : List (ServerProgram (Except ApiError StatusCode))} {schedule : List (ℕ × Fate)}

/-- **The flag follows the chain**, in every run. -/
theorem tokenEnabled_after_toggles (hnumbered : TokensNumbered w.db)
    (htoken : w.db.tokenEnabled id = some before)
    (hothers : ∀ job ∈ others, job.Only fun c => setsToken id c = false)
    (hcalm : ∀ a ∈ schedule, a.1 < k → a.2.fails = false) :
    (Run.after (Pool.step (serve (SqliteDb.exec ord))) (toggles id k others w)
        schedule).world.db.tokenEnabled id =
      some (flagAfter before (ToggleChain.depthAfter k (schedule.map Prod.fst))) := by
  have hstart : FollowsChain id before k (toggles id k others w) .start := by
    -- no toggle has been served yet
    constructor
    · exact hnumbered
    · have hzero : flagAfter before 0 = before := by simp [flagAfter]
      exact htoken.trans (congrArg some hzero.symm)
    · intro i hi
      show (List.replicate k (Api.toggleToken id) ++ others)[i]? = _
      rw [List.getElem?_append_left (by simpa using hi)]
      simp [hi]
    · intro i hi job hjob
      have hjob' : (List.replicate k (Api.toggleToken id) ++ others)[i]? = some job := hjob
      rw [List.getElem?_append_right (by simpa using hi)] at hjob'
      exact hothers job (List.mem_of_getElem? hjob')
  have halong : Run.Along (Pool.step (serve (SqliteDb.exec ord)))
      (fun _ a => a.1 < k → a.2.fails = false) (toggles id k others w) schedule :=
    Run.along_of_forall fun a ha _ => hcalm a ha
  have hstep : ∀ p chain (a : ℕ × Fate), FollowsChain id before k p chain →
      (a.1 < k → a.2.fails = false) → FollowsChain id before k
        (Pool.step (serve (SqliteDb.exec ord)) p a) (chain.step k a.1) := by
    intro p chain a h hfate
    rcases Nat.lt_or_ge a.1 k with hi | hi
    · exact h.step_request hi (hfate hi)
    · exact h.step_other hi
  exact (halong.simulation (ToggleChain.step k) Prod.fst hstep hstart).flag

/-- **Toggles that are left in peace come out right.** If all the requests are served to the end,
and no request writes between the two statements of another, the token ends as after `k` toggles one
after another. -/
theorem tokenEnabled_of_undisturbed (hnumbered : TokensNumbered w.db)
    (htoken : w.db.tokenEnabled id = some before)
    (hothers : ∀ job ∈ others, job.Only fun c => setsToken id c = false)
    (hcalm : ∀ a ∈ schedule, a.1 < k → a.2.fails = false)
    (hserved : ∀ i < k, 2 ≤ (schedule.map Prod.fst).count i)
    (hpeace : ToggleChain.Undisturbed k (schedule.map Prod.fst)) :
    (Run.after (Pool.step (serve (SqliteDb.exec ord))) (toggles id k others w)
        schedule).world.db.tokenEnabled id = some (before ^^ (k % 2 == 1)) := by
  rw [tokenEnabled_after_toggles hnumbered htoken hothers hcalm,
    ToggleChain.depthAfter_of_undisturbed hpeace hserved, flagAfter]

end Run

/-- **When concurrent toggles come out right.** Let `k` requests toggle one token at the same
time, next to other programs that neither delete it nor set its flag, with the calls interleaved
in any way and none of the requests' calls failing. At the end the token is enabled as after `k`
toggles one after another if and only if the number of toggles that count in this schedule is
odd or even as `k` is. -/
theorem toggles_counted_iff (ord : ScanOrder) (w : World SqliteDb) (hnumbered : TokensNumbered w.db)
    (id : ℤ) (before : Bool) (htoken : w.db.tokenEnabled id = some before) (k : ℕ)
    (others : List (ServerProgram (Except ApiError StatusCode)))
    (hothers : ∀ job ∈ others, job.Only fun c => setsToken id c = false)
    (schedule : List (ℕ × Fate)) (hcalm : ∀ a ∈ schedule, a.1 < k → a.2.fails = false) :
    (Run.after (Pool.step (serve (SqliteDb.exec ord))) (toggles id k others w)
        schedule).world.db.tokenEnabled id = some (before ^^ (k % 2 == 1)) ↔
      ToggleChain.depthAfter k (schedule.map Prod.fst) % 2 = k % 2 := by
  rw [tokenEnabled_after_toggles hnumbered htoken hothers hcalm, Option.some.injEq]
  exact flagAfter_eq_iff

namespace Sample

/-- A database with one token, which is enabled. -/
def withToken : SqliteDb :=
  { SqliteDb.empty with apiTokens := [⟨1, "backup", "hash", "salt", 0, none, 1⟩], tokenSeq := 1 }

theorem withToken_numbered : TokensNumbered withToken :=
  ⟨by decide, by decide⟩

end Sample

/-- Two toggles one after the other leave the token enabled. -/
theorem toggles_counted_iff_serial :
    Sample.withToken.tokenEnabled 1 = some true ∧
    (Run.after (Pool.step (serve (SqliteDb.exec .rowid))) (toggles 1 2 [] ⟨Sample.withToken, 0⟩)
      [(0, .calm), (0, .calm), (1, .calm), (1, .calm)]).world.db.tokenEnabled 1 =
        some (true ^^ (2 % 2 == 1)) :=
  ⟨by decide, (toggles_counted_iff .rowid ⟨Sample.withToken, 0⟩ Sample.withToken_numbered 1 true
    (by decide) 2 [] (by simp) [(0, .calm), (0, .calm), (1, .calm), (1, .calm)]
    (by decide)).mpr (by decide)⟩

/-- Two toggles at the same time: both list the tokens, and both write the same flag. -/
theorem toggle_lost :
    Sample.withToken.tokenEnabled 1 = some true ∧
    (Run.after (Pool.step (serve (SqliteDb.exec .rowid))) (toggles 1 2 [] ⟨Sample.withToken, 0⟩)
      [(0, .calm), (1, .calm), (0, .calm), (1, .calm)]).world.db.tokenEnabled 1 ≠
        some (true ^^ (2 % 2 == 1)) := by
  refine ⟨by decide, ?_⟩
  have henabled : Sample.withToken.tokenEnabled 1 = some true := by decide
  rw [tokenEnabled_after_toggles Sample.withToken_numbered henabled (by simp) (by decide)]
  decide

end Ndhcpd
