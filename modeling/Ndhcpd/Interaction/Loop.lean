import Ndhcpd.Interaction.Guarantee
import Ndhcpd.Interaction.Run
import Mathlib.Data.List.Basic

/-!
# A server loop next to other tasks

A `Loop` is a server that takes one request at a time and answers it by running a program,
call by call, while other tasks act on the same world between any two of its calls. A run is
a list of `Action`s, in the order in which they happened: the server receives a request, the
server makes its next call (or sends its answer, once the program has finished), or another
task makes a move. Everything is a function of the actions, so a run can be computed; what
it shows is the list of its `Event`s.

Two rules about all runs are proved here.

* `Good.after` and `Good.handled`: if handling a request satisfies an assertion in the sense
  of `Setting.Holds`, in a setting whose `rely` covers the moves of the others, then the
  invariant of the setting holds in every state reached and every answer satisfies the
  postcondition. `Good.handled` follows a condition only up to the first answer that gives
  it up, which is what statements of the form "from then on, unless" need.
* `Unobservable.sights_eq`: moves that preserve a relation between worlds which no call and
  no other move can see through may be inserted into a run or dropped from it without
  changing what the run shows.
-/

namespace Ndhcpd

/-- A server with its surroundings: the program that handles a request, what accepting a
request notes down in the world, what a call does, and what a move of another task does. -/
structure Loop (Call : Type) (Reply : Call → Type) (W Req Resp ι ε : Type) (Obs : ε → Type) where
  handler : Req → Program Call Reply Resp
  accept : Req → W → W
  exec : ι → (c : Call) → W → Reply c × W
  move : (e : ε) → W → Obs e × W

namespace Loop

variable {Call : Type} {Reply : Call → Type} {W Req Resp ι ε : Type} {Obs : ε → Type}

/-- What can happen next. -/
inductive Action (Req ι ε : Type) : Type
  | receive (q : Req)
  | call (i : ι)
  | move (e : ε)

/-- If the action is a move of another task, the move is in `P`. -/
def Action.movesWithin (P : ε → Bool) : Action Req ι ε → Bool
  | .move e => P e
  | _ => true

/-- If the action is a call of the server, its fate is in `P`. -/
def Action.callsWithin (P : ι → Bool) : Action Req ι ε → Bool
  | .call i => P i
  | _ => true

/-- The world, and the request in progress with what is left to do for it. -/
structure State (Call : Type) (Reply : Call → Type) (W Req Resp : Type) where
  world : W
  job : Option (Req × Program Call Reply Resp)

/-- What a step shows: a call of the server with its answer, an answered request with the
world at that moment, or a move of another task with its outcome. -/
inductive Event (Call : Type) (Reply : Call → Type) (W Req Resp ε : Type) (Obs : ε → Type) : Type
  | called (q : Req) (c : Call) (r : Reply c)
  | handled (q : Req) (a : Resp) (w : W)
  | moved (e : ε) (o : Obs e)

variable (L : Loop Call Reply W Req Resp ι ε Obs)

/-- One step. A request that arrives while another one is in progress waits outside, and a
server without a request has nothing to call. -/
def step : State Call Reply W Req Resp → Action Req ι ε →
    Option (Event Call Reply W Req Resp ε Obs) × State Call Reply W Req Resp
  | ⟨w, job⟩, .move e => (some (.moved e (L.move e w).1), ⟨(L.move e w).2, job⟩)
  | ⟨w, none⟩, .receive q => (none, ⟨L.accept q w, some (q, L.handler q)⟩)
  | ⟨w, some job⟩, .receive _ => (none, ⟨w, some job⟩)
  | ⟨w, none⟩, .call _ => (none, ⟨w, none⟩)
  | ⟨w, some (q, .done a)⟩, .call _ => (some (.handled q a w), ⟨w, none⟩)
  | ⟨w, some (q, .request c next)⟩, .call i =>
    (some (.called q c (L.exec i c w).1), ⟨(L.exec i c w).2, some (q, next (L.exec i c w).1)⟩)

/-- The state a run ends in. -/
abbrev after (s : State Call Reply W Req Resp) (acts : List (Action Req ι ε)) :
    State Call Reply W Req Resp :=
  Run.after (fun s a => (L.step s a).2) s acts

/-- What a run shows. -/
def events (s : State Call Reply W Req Resp) :
    List (Action Req ι ε) → List (Event Call Reply W Req Resp ε Obs)
  | [] => []
  | a :: acts => (L.step s a).1.toList ++ events (L.step s a).2 acts

/-- Every step of the run satisfies `Q` in the state it starts from. -/
abbrev Along (Q : State Call Reply W Req Resp → Action Req ι ε → Prop)
    (s : State Call Reply W Req Resp) (acts : List (Action Req ι ε)) : Prop :=
  Run.Along (fun s a => (L.step s a).2) Q s acts

variable {L} {s : State Call Reply W Req Resp} {acts acts' : List (Action Req ι ε)}

theorem along_append {Q : State Call Reply W Req Resp → Action Req ι ε → Prop} :
    L.Along Q s (acts ++ acts') ↔ L.Along Q s acts ∧ L.Along Q (L.after s acts) acts' :=
  Run.along_append

/-- A condition on steps may be read off the events they show. -/
theorem along_of_events {Q : State Call Reply W Req Resp → Action Req ι ε → Prop}
    {E : Event Call Reply W Req Resp ε Obs → Prop}
    (h : ∀ a ∈ acts, ∀ s, (∀ e, (L.step s a).1 = some e → E e) → Q s a)
    (hE : ∀ e ∈ L.events s acts, E e) : L.Along Q s acts := by
  induction acts generalizing s with
  | nil => trivial
  | cons a acts ih =>
    have hhead : ∀ e, (L.step s a).1 = some e → E e := fun e he =>
      hE e (List.mem_append_left _ (by simp [he]))
    exact ⟨h a List.mem_cons_self s hhead,
      ih (fun b hb => h b (List.mem_cons_of_mem a hb))
        fun e he => hE e (List.mem_append_right _ he)⟩

/-- Cutting a run at one of its events. -/
theorem events_eq_append_cons {pre post : List (Event Call Reply W Req Resp ε Obs)}
    {e : Event Call Reply W Req Resp ε Obs} (h : L.events s acts = pre ++ e :: post) :
    ∃ before a rest, acts = before ++ a :: rest ∧ (L.step (L.after s before) a).1 = some e ∧
      L.events (L.step (L.after s before) a).2 rest = post := by
  induction acts generalizing s pre with
  | nil => simp [events] at h
  | cons a acts ih =>
    rw [events] at h
    cases hs : (L.step s a).1 with
    | none =>
      rw [hs, Option.toList_none, List.nil_append] at h
      obtain ⟨before, b, rest, rfl, hb, hrest⟩ := ih h
      exact ⟨a :: before, b, rest, rfl, hb, hrest⟩
    | some e' =>
      rw [hs, Option.toList_some, List.cons_append, List.nil_append] at h
      cases pre with
      | nil =>
        obtain ⟨rfl, hrest⟩ := List.cons_eq_cons.mp h
        exact ⟨[], a, acts, rfl, hs, hrest⟩
      | cons e'' pre =>
        obtain ⟨-, hrest⟩ := List.cons_eq_cons.mp h
        obtain ⟨before, b, rest, rfl, hb, hrest⟩ := ih hrest
        exact ⟨a :: before, b, rest, rfl, hb, hrest⟩

/-- After an answer the server is idle, in the world of the answer. -/
theorem step_handled {a : Action Req ι ε} {q : Req} {r : Resp} {w : W}
    (h : (L.step s a).1 = some (.handled q r w)) : (L.step s a).2 = ⟨w, none⟩ := by
  rcases s with ⟨w', _ | ⟨q', _ | ⟨c, next⟩⟩⟩ <;> cases a <;> simp_all [step]

/-! ### Assertions about runs -/

section Guarantee

variable (L) (S : Setting Call Reply W) (A : W → Prop) (post : Req → Resp → W → Prop)

/-- The step is one the setting knows: a call that can turn out this way, or a move of the
others within the rely condition. -/
def Permits : State Call Reply W Req Resp → Action Req ι ε → Prop
  | s, .move e => S.rely s.world (L.move e s.world).2
  | ⟨w, some (_, .request c _)⟩, .call i => S.step c w (L.exec i c w).1 (L.exec i c w).2
  | _, _ => True

/-- The assertion that is carried along a run: between requests the condition `A`, during a
request what is left to prove about the rest of its program. -/
def Good : State Call Reply W Req Resp → Prop
  | ⟨w, none⟩ => A w
  | ⟨w, some (q, p)⟩ => S.Holds (post q) p w

variable {L S A post} (hA : S.Stable A)
  (hhandle : ∀ q w, A w → S.Holds (post q) (L.handler q) (L.accept q w))
include hA

theorem Good.inv (h : Good S A post s) : S.inv s.world := by
  rcases s with ⟨w, _ | ⟨q, p⟩⟩
  · exact hA.inv h
  · exact Setting.Holds.inv h

include hhandle

/-- **One step** shows an answer only under its postcondition, and keeps the assertion unless
it shows an answer that gives `A` up. -/
theorem Good.step {a : Action Req ι ε} (h : Good S A post s) (ha : L.Permits S s a) :
    (∀ q r w, (L.step s a).1 = some (.handled q r w) → post q r w) ∧
      ((∀ q r w, (L.step s a).1 = some (.handled q r w) → A w) →
        Good S A post (L.step s a).2) := by
  rcases s with ⟨w, _ | ⟨q, p⟩⟩
  · -- the server is idle
    cases a with
    | receive q => exact ⟨by simp [Loop.step], fun _ => hhandle q w h⟩
    | call i => exact ⟨by simp [Loop.step], fun _ => h⟩
    | move e => exact ⟨by simp [Loop.step], fun _ => hA.interfere h ha⟩
  · -- a request is in progress
    cases a with
    | receive q' => exact ⟨by simp [Loop.step], fun _ => h⟩
    | move e => exact ⟨by simp [Loop.step], fun _ => Setting.Holds.interfere h ha⟩
    | call i =>
      cases p with
      | done r =>
        refine ⟨fun q' r' w' he => ?_, fun hkeep => hkeep q r w rfl⟩
        simp only [Loop.step, Option.some.injEq, Event.handled.injEq] at he
        obtain ⟨rfl, rfl, rfl⟩ := he
        exact Setting.Holds.post_done h
      | request c next => exact ⟨by simp [Loop.step], fun _ => Setting.Holds.step h ha⟩

/-- **Invariance.** If every answer gives back the condition the loop started with, the
assertion holds in every state of every permitted run. -/
theorem Good.after (hpost : ∀ q r w, post q r w → A w) (h : Good S A post s)
    (hacts : L.Along (L.Permits S) s acts) : Good S A post (L.after s acts) := by
  induction acts generalizing s with
  | nil => exact h
  | cons a acts ih =>
    obtain ⟨hev, hgood⟩ := h.step hA hhandle hacts.1
    exact ih (hgood fun q r w he => hpost q r w (hev q r w he)) hacts.2

/-- **From then on, unless.** If `A` can only be given up by an answer outside `K`, then an
answer satisfies its postcondition as long as all answers before it were in `K`. -/
theorem Good.handled {K : Req → Resp → Prop} (hpost : ∀ q r w, post q r w → K q r → A w)
    (h : Good S A post s) (hacts : L.Along (L.Permits S) s acts)
    {mid rest : List (Event Call Reply W Req Resp ε Obs)} {q : Req} {r : Resp} {w : W}
    (hev : L.events s acts = mid ++ .handled q r w :: rest)
    (hmid : ∀ q r w, .handled q r w ∈ mid → K q r) : post q r w := by
  induction acts generalizing s mid with
  | nil => simp [events] at hev
  | cons a acts ih =>
    obtain ⟨hfst, hgood⟩ := h.step hA hhandle hacts.1
    rw [events] at hev
    cases hs : (L.step s a).1 with
    | none =>
      rw [hs, Option.toList_none, List.nil_append] at hev
      exact ih (hgood (by simp [hs])) hacts.2 hev hmid
    | some e =>
      rw [hs, Option.toList_some, List.cons_append, List.nil_append] at hev
      cases mid with
      | nil =>
        obtain ⟨rfl, -⟩ := List.cons_eq_cons.mp hev
        exact hfst q r w hs
      | cons e' mid =>
        obtain ⟨rfl, hrest⟩ := List.cons_eq_cons.mp hev
        refine ih (hgood fun q' r' w' he => ?_) hacts.2 hrest
          fun q r w hmem => hmid q r w (List.mem_cons_of_mem _ hmem)
        rw [hs] at he
        obtain rfl := Option.some.inj he
        exact hpost q' r' w' (hfst q' r' w' hs) (hmid q' r' w' List.mem_cons_self)

end Guarantee

/-! ### Moves that cannot be seen -/

section Unobservable

/-- What the clients and the other tasks get to see of an event. -/
inductive Sight (Call : Type) (Reply : Call → Type) (Req Resp ε : Type) (Obs : ε → Type) : Type
  | called (q : Req) (c : Call) (r : Reply c)
  | handled (q : Req) (a : Resp)
  | moved (e : ε) (o : Obs e)

/-- The visible part of an event; the moves in `hidden` show nothing. -/
def Event.sight (hidden : ε → Bool) :
    Event Call Reply W Req Resp ε Obs → Option (Sight Call Reply Req Resp ε Obs)
  | .called q c r => some (.called q c r)
  | .handled q a _ => some (.handled q a)
  | .moved e o => if hidden e then none else some (.moved e o)

/-- Everything that is visible of a run. -/
def sights (L : Loop Call Reply W Req Resp ι ε Obs) (hidden : ε → Bool)
    (s : State Call Reply W Req Resp) (acts : List (Action Req ι ε)) :
    List (Sight Call Reply Req Resp ε Obs) :=
  (L.events s acts).filterMap (Event.sight hidden)

/-- Is the action one of the hidden moves? -/
def Action.isHidden (hidden : ε → Bool) : Action Req ι ε → Bool
  | .move e => hidden e
  | _ => false

/-- The relation `R` cannot be seen through by the calls in `P` nor by the visible moves,
and hidden moves on one side stay within it. -/
structure Unobservable (L : Loop Call Reply W Req Resp ι ε Obs) (hidden : ε → Bool)
    (P : Call → Prop) (R : W → W → Prop) : Prop where
  refl : ∀ w, R w w
  accept : ∀ {w w'} q, R w w' → R (L.accept q w) (L.accept q w')
  exec : ∀ {w w'} i c, P c → R w w' →
    (L.exec i c w).1 = (L.exec i c w').1 ∧ R (L.exec i c w).2 (L.exec i c w').2
  move : ∀ {w w'} e, hidden e = false → R w w' →
    (L.move e w).1 = (L.move e w').1 ∧ R (L.move e w).2 (L.move e w').2
  hide : ∀ {w w'} e, hidden e = true → R w w' → R (L.move e w).2 w'

namespace Unobservable

variable {hidden : ε → Bool} {P : Call → Prop} {R : W → W → Prop}

/-- Two states that differ within `R` only, and go on with a program of visible calls. -/
inductive Alike (P : Call → Prop) (R : W → W → Prop) :
    State Call Reply W Req Resp → State Call Reply W Req Resp → Prop
  | idle {w w' : W} (hw : R w w') : Alike P R ⟨w, none⟩ ⟨w', none⟩
  | busy {w w' : W} {q : Req} {p : Program Call Reply Resp} (hw : R w w') (hp : p.Only P) :
    Alike P R ⟨w, some (q, p)⟩ ⟨w', some (q, p)⟩

variable {s' : State Call Reply W Req Resp}

/-- A hidden move on one side. -/
theorem alike_hide (hL : L.Unobservable hidden P R) (h : Alike P R s s') {e : ε}
    (he : hidden e = true) : Alike P R (L.step s (.move e)).2 s' := by
  cases h with
  | idle hw => exact .idle (hL.hide e he hw)
  | busy hw hp => exact .busy (hL.hide e he hw) hp

/-- A visible step on both sides shows the same. -/
theorem alike_step (hL : L.Unobservable hidden P R) (hP : ∀ q, (L.handler q).Only P)
    (h : Alike P R s s') {a : Action Req ι ε} (ha : a.isHidden hidden = false) :
    (L.step s a).1.toList.filterMap (Event.sight hidden) =
        (L.step s' a).1.toList.filterMap (Event.sight hidden) ∧
      Alike P R (L.step s a).2 (L.step s' a).2 := by
  cases h with
  | idle hw =>
    cases a with
    | receive q => exact ⟨rfl, .busy (hL.accept q hw) (hP q)⟩
    | call i => exact ⟨rfl, .idle hw⟩
    | move e =>
      obtain ⟨hobs, hw'⟩ := hL.move e ha hw
      exact ⟨by simp [Loop.step, Event.sight, hobs], .idle hw'⟩
  | @busy w w' q p hw hp =>
    cases a with
    | receive q => exact ⟨rfl, .busy hw hp⟩
    | move e =>
      obtain ⟨hobs, hw'⟩ := hL.move e ha hw
      exact ⟨by simp [Loop.step, Event.sight, hobs], .busy hw' hp⟩
    | call i =>
      cases p with
      | done r => exact ⟨rfl, .idle hw⟩
      | request c next =>
        obtain ⟨hreply, hw'⟩ := hL.exec i c hp.1 hw
        refine ⟨by simp [Loop.step, Event.sight, hreply], ?_⟩
        simp only [Loop.step, hreply]
        exact .busy hw' (hp.2 _)

/-- Dropping all hidden moves of a run changes nothing visible. -/
theorem sights_filter (hL : L.Unobservable hidden P R) (hP : ∀ q, (L.handler q).Only P)
    (h : Alike P R s s') :
    L.sights hidden s acts = L.sights hidden s' (acts.filter fun a => !a.isHidden hidden) := by
  induction acts generalizing s s' with
  | nil => rfl
  | cons a acts ih =>
    cases ha : a.isHidden hidden with
    | true =>
      cases a with
      | receive q => simp [Action.isHidden] at ha
      | call i => simp [Action.isHidden] at ha
      | move e =>
        have hnone : (L.step s (.move e)).1.toList.filterMap (Event.sight hidden) = [] := by
          have he : hidden e = true := ha
          rcases s with ⟨w, _ | ⟨q, _ | ⟨c, next⟩⟩⟩ <;> simp [Loop.step, Event.sight, he]
        rw [List.filter_cons_of_neg (by simp [ha]), ← ih (hL.alike_hide h ha)]
        simp only [sights, events, List.filterMap_append, hnone, List.nil_append]
    | false =>
      obtain ⟨hsight, hnext⟩ := hL.alike_step hP h ha
      rw [List.filter_cons_of_pos (by simp [ha])]
      simp only [sights, events, List.filterMap_append, hsight]
      congr 1
      exact ih hnext

/-- **Hidden moves are unobservable.** Two runs from one idle state that differ in hidden
moves only show the same. -/
theorem sights_eq (hL : L.Unobservable hidden P R) (hP : ∀ q, (L.handler q).Only P) (w : W)
    (h : acts.filter (fun a => !a.isHidden hidden) =
      acts'.filter fun a => !a.isHidden hidden) :
    L.sights hidden ⟨w, none⟩ acts = L.sights hidden ⟨w, none⟩ acts' := by
  have halike : Alike P R (⟨w, none⟩ : State Call Reply W Req Resp) ⟨w, none⟩ :=
    .idle (hL.refl w)
  rw [hL.sights_filter hP halike, h, ← hL.sights_filter hP halike]

end Unobservable

end Unobservable

end Loop

end Ndhcpd
