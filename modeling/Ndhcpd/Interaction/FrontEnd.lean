import Ndhcpd.Interaction.Loop
import Ndhcpd.Interaction.Notes

/-!
# In front of a server loop

A server loop is fed by a **front end**: a machine that takes what arrives from outside, throws
away what is no request, hands the rest to the loop, and does something with the answers. The
front end has a state of its own (buffers, caches) and produces outputs of its own.

`Loop.Fronts` says when a machine is a front end of a loop: what it keeps inside is a state of the
loop, an action it passes on makes the loop take one step, and an action it drops leaves the loop
where it is. `Fronts.inside_after` and `Fronts.outputs_eq` then hold for whole runs: seen from
inside, a run of the front end is a run of the loop on the actions that were passed on, and the
outputs belong to the answers of that run one by one.

`Loop.answers_within` is the rule for what all answers of a run have in common when the service
is in good order: it lifts `Program.Within` from one handler to the loop.
-/

namespace Ndhcpd

namespace Loop

variable {Call : Type} {Reply : Call → Type} {W Req Resp ι ε : Type} {Obs : ε → Type}

/-- The request and the answer of an event that shows one. -/
def Event.answer : Event Call Reply W Req Resp ε Obs → Option (Req × Resp)
  | .called _ _ _ => none
  | .handled q a _ => some (q, a)
  | .moved _ _ => none

/-- The requests that were answered in a run, with their answers. -/
def answers (L : Loop Call Reply W Req Resp ι ε Obs) (s : State Call Reply W Req Resp)
    (acts : List (Action Req ι ε)) : List (Req × Resp) :=
  (L.events s acts).filterMap Event.answer

variable {L : Loop Call Reply W Req Resp ι ε Obs} {s : State Call Reply W Req Resp}
  {acts : List (Action Req ι ε)}

theorem answers_cons {a : Action Req ι ε} :
    L.answers s (a :: acts) =
      ((L.step s a).1.bind Event.answer).toList ++ L.answers (L.step s a).2 acts := by
  rw [answers, events, List.filterMap_append]
  congr 1
  rcases (L.step s a).1 with _ | e
  · rfl
  · cases e <;> rfl

/-! ### Front ends -/

/-- The machine `step` is a front end of the loop. Of its actions the loop gets to see `view`, of
its states `inside`, and of its outputs `shown`. -/
structure Fronts (L : Loop Call Reply W Req Resp ι ε Obs) {τ α ω : Type}
    (step : τ → α → Option ω × τ) (view : α → Option (Action Req ι ε))
    (inside : τ → State Call Reply W Req Resp) (shown : ω → Req × Resp) (I : τ → Prop) : Prop where
  inv : ∀ t a, I t → I (step t a).2
  pass : ∀ t a b, I t → view a = some b → inside (step t a).2 = (L.step (inside t) b).2 ∧
    (step t a).1.map shown = (L.step (inside t) b).1.bind Event.answer
  drop : ∀ t a, I t → view a = none → inside (step t a).2 = inside t ∧ (step t a).1 = none

namespace Fronts

variable {τ α ω : Type} {step : τ → α → Option ω × τ} {view : α → Option (Action Req ι ε)}
  {inside : τ → State Call Reply W Req Resp} {shown : ω → Req × Resp} {I : τ → Prop} {t : τ}

/-- Inside, a run of the front end is a run of the loop. -/
theorem inside_after (h : L.Fronts step view inside shown I) (ht : I t) (acts : List α) :
    inside (Run.after (fun t a => (step t a).2) t acts) =
      L.after (inside t) (acts.filterMap view) := by
  induction acts generalizing t with
  | nil => rfl
  | cons a acts ih =>
    rw [Run.after_cons, ih (h.inv t a ht)]
    cases ha : view a with
    | none => rw [List.filterMap_cons_none ha, (h.drop t a ht ha).1]
    | some b =>
      rw [List.filterMap_cons_some ha, (h.pass t a b ht ha).1]
      rfl

/-- The outputs of a run of the front end belong to the answers of the loop. -/
theorem outputs_eq (h : L.Fronts step view inside shown I) (ht : I t) (acts : List α) :
    (Run.outputs step t acts).map shown = L.answers (inside t) (acts.filterMap view) := by
  induction acts generalizing t with
  | nil => rfl
  | cons a acts ih =>
    rw [Run.outputs, List.map_append, ih (h.inv t a ht)]
    cases ha : view a with
    | none =>
      obtain ⟨hinside, hout⟩ := h.drop t a ht ha
      rw [List.filterMap_cons_none ha, hinside, hout]
      rfl
    | some b =>
      obtain ⟨hinside, hout⟩ := h.pass t a b ht ha
      rw [List.filterMap_cons_some ha, answers_cons, ← hout, hinside]
      congr 1
      cases (step t a).1 <;> rfl

end Fronts

/-! ### Answers of a service in good order -/

section Within

variable {C : Call → Prop} {ok : (c : Call) → Reply c → Prop} {post : Req → Resp → Prop}
  {I : W → Prop}

/-- The service is in good order, and so is what is left of the program in progress. -/
def Working (C : Call → Prop) (ok : (c : Call) → Reply c → Prop) (post : Req → Resp → Prop)
    (I : W → Prop) : State Call Reply W Req Resp → Prop
  | ⟨w, none⟩ => I w
  | ⟨w, some (q, p)⟩ => I w ∧ p.Within C ok (post q)

variable (haccept : ∀ q w, I w → I (L.accept q w))
  (hexec : ∀ i c w, I w → C c → ok c (L.exec i c w).1 ∧ I (L.exec i c w).2)
  (hhandler : ∀ q, (L.handler q).Within C ok (post q))
include haccept hexec hhandler

/-- One step: the service stays in good order as long as the other tasks leave it so, and an
answer satisfies its postcondition. -/
theorem Working.step (h : Working C ok post I s) {a : Action Req ι ε}
    (ha : ∀ e, a = .move e → ∀ w, I w → I (L.move e w).2) :
    (∀ q r, (L.step s a).1.bind Event.answer = some (q, r) → post q r) ∧
      Working C ok post I (L.step s a).2 := by
  rcases s with ⟨w, _ | ⟨q, _ | ⟨c, next⟩⟩⟩ <;> cases a with
  | move e =>
    refine ⟨by simp [Loop.step, Event.answer], ?_⟩
    first
    | exact ha e rfl w h
    | exact ⟨ha e rfl w h.1, h.2⟩
  | receive q' =>
    refine ⟨by simp [Loop.step], ?_⟩
    first
    | exact ⟨haccept q' w h, hhandler q'⟩
    | exact h
  | call i =>
    first
    | exact ⟨by simp [Loop.step], h⟩
    | refine ⟨fun q' r' he => ?_, h.1⟩
      simp only [Loop.step, Option.bind_some, Event.answer, Option.some.injEq, Prod.mk.injEq] at he
      obtain ⟨rfl, rfl⟩ := he
      exact h.2
    | obtain ⟨hreply, hstate⟩ := hexec i c w h.1 h.2.1
      exact ⟨by simp [Loop.step, Event.answer], hstate, h.2.2 _ hreply⟩

/-- **Answers.** Every answer of a run satisfies its postcondition. -/
theorem answers_within (h : Working C ok post I s)
    (hmoves : ∀ e, .move e ∈ acts → ∀ w, I w → I (L.move e w).2) :
    ∀ x ∈ L.answers s acts, post x.1 x.2 := by
  induction acts generalizing s with
  | nil => simp [answers, events]
  | cons a acts ih =>
    obtain ⟨hout, hnext⟩ := h.step haccept hexec hhandler (a := a) fun e he =>
      hmoves e (by rw [he]; exact List.mem_cons_self)
    rintro ⟨q, r⟩ hx
    rw [answers_cons] at hx
    rcases List.mem_append.mp hx with hx | hx
    · exact hout q r (Option.mem_toList.mp hx)
    · exact ih hnext (fun e he => hmoves e (List.mem_cons_of_mem a he)) (q, r) hx

end Within

end Loop

end Ndhcpd
