import Mathlib.Data.List.Infix

/-!
# Runs of a state machine

A deterministic machine is a function `step : σ → α → σ`: the state it is in after an
action. `Run.after` is the state after a list of actions, and `Run.Along Q` says that every
action of the list satisfies `Q` in the state in which it is taken, which is how a condition
on the steps of a run is stated.

`Along.invariant` is the rule for invariants, and `Along.simulation` the one for two machines.
`forall_prefix_iff` is for conditions that are exact: where the condition decides, step by step,
whether a property survives, the property holds in all states of a run if and only if the condition
holds along the run.

A machine may also show something at each step; `Run.outputs` is what a whole run shows, and
`outputs_forall` the rule for what all outputs have in common. `outputs_conserved` is for machines
that pass on what comes in: nothing is lost, doubled or overtaken. `filterMap_outputs_eq_iff` says
when all outputs of a run are what they should be.
-/

namespace Ndhcpd.Run

variable {σ α : Type} (step : σ → α → σ)

/-- The state a run ends in. -/
def after (s : σ) : List α → σ
  | [] => s
  | a :: acts => after (step s a) acts

/-- Every step of the run satisfies `Q` in the state it starts from. -/
def Along (Q : σ → α → Prop) (s : σ) : List α → Prop
  | [] => True
  | a :: acts => Q s a ∧ Along Q (step s a) acts

variable {step} {Q : σ → α → Prop} {s : σ} {acts acts' : List α}

@[simp] theorem after_nil : after step s [] = s := rfl

@[simp] theorem after_cons {a : α} : after step s (a :: acts) = after step (step s a) acts := rfl

theorem after_append : after step s (acts ++ acts') = after step (after step s acts) acts' := by
  induction acts generalizing s with
  | nil => rfl
  | cons a acts ih => exact ih

theorem along_append :
    Along step Q s (acts ++ acts') ↔
      Along step Q s acts ∧ Along step Q (after step s acts) acts' := by
  induction acts generalizing s with
  | nil => simp [Along, after]
  | cons a acts ih => simp [Along, after, ih, and_assoc]

theorem along_of_forall (h : ∀ a ∈ acts, ∀ s, Q s a) : Along step Q s acts := by
  induction acts generalizing s with
  | nil => trivial
  | cons a acts ih =>
    exact ⟨h a List.mem_cons_self s, ih fun b hb => h b (List.mem_cons_of_mem a hb)⟩

/-- What an invariant implies of every action of a kind holds along a run of such actions. -/
theorem along_of_invariant {I : σ → Prop} {P : α → Prop}
    (hstep : ∀ s a, I s → P a → Q s a ∧ I (step s a)) (hI : I s) (hP : ∀ a ∈ acts, P a) :
    Along step Q s acts := by
  induction acts generalizing s with
  | nil => trivial
  | cons a acts ih =>
    obtain ⟨ha, hrest⟩ := List.forall_mem_cons.mp hP
    exact ⟨(hstep s a hI ha).1, ih (hstep s a hI ha).2 hrest⟩

theorem along_congr {P : σ → α → Prop} (h : ∀ s a, P s a ↔ Q s a) :
    Along step P s acts ↔ Along step Q s acts := by
  induction acts generalizing s with
  | nil => exact Iff.rfl
  | cons a acts ih => exact and_congr (h s a) ih

/-- A condition on the actions alone may be added. -/
theorem Along.and_forall (h : Along step Q s acts) {P : α → Prop} (hP : ∀ a ∈ acts, P a) :
    Along step (fun s a => Q s a ∧ P a) s acts := by
  induction acts generalizing s with
  | nil => trivial
  | cons a acts ih =>
    obtain ⟨ha, hrest⟩ := List.forall_mem_cons.mp hP
    exact ⟨⟨h.1, ha⟩, ih h.2 hrest⟩

/-- **Invariants.** What every step within the condition keeps holds at the end of the run. -/
theorem Along.invariant {I : σ → Prop} (hstep : ∀ s a, I s → Q s a → I (step s a))
    (hQ : Along step Q s acts) (hI : I s) : I (after step s acts) := by
  induction acts generalizing s with
  | nil => exact hI
  | cons a acts ih => exact ih hQ.2 (hstep s a hI hQ.1)

/-- **Simulation.** Let a second machine follow the first one, seeing of each action only what
`view` shows. A relation between the states that every step within the condition keeps holds at
the end of the run. -/
theorem Along.simulation {τ β : Type} (step' : τ → β → τ) (view : α → β) {R : σ → τ → Prop}
    (hstep : ∀ s t a, R s t → Q s a → R (step s a) (step' t (view a))) {t : τ}
    (hQ : Along step Q s acts) (hR : R s t) :
    R (after step s acts) (after step' t (acts.map view)) := by
  induction acts generalizing s t with
  | nil => exact hR
  | cons a acts ih => exact ih hQ.2 (hstep s t a hR hQ.1)

/-- **Exact conditions.** Under an invariant, let the condition on a step decide whether the
property holds after it, and let the two together keep the invariant. Then the property holds
in every state of a run exactly if the condition holds along the run. -/
theorem forall_prefix_iff {I P : σ → Prop} (hIP : ∀ s, I s → P s)
    (hstep : ∀ s a, I s → (P (step s a) ↔ Q s a))
    (hkeep : ∀ s a, I s → Q s a → I (step s a)) (hI : I s) :
    (∀ pre, pre <+: acts → P (after step s pre)) ↔ Along step Q s acts := by
  induction acts generalizing s with
  | nil => simpa [Along] using hIP s hI
  | cons a acts ih =>
    constructor
    · intro h
      have hQ : Q s a := (hstep s a hI).mp (h [a] ⟨acts, rfl⟩)
      refine ⟨hQ, (ih (hkeep s a hI hQ)).mp fun pre hpre => ?_⟩
      exact h (a :: pre) ((List.prefix_cons_inj a).mpr hpre)
    · rintro ⟨hQ, hrest⟩ pre hpre
      cases pre with
      | nil => exact hIP s hI
      | cons b pre =>
        obtain ⟨rfl, htail⟩ := List.cons_prefix_cons.mp hpre
        exact (ih (hkeep s b hI hQ)).mpr hrest pre htail

/-- **Necessary conditions.** What a property after a step requires of the step holds along every
run that has the property in all its states. -/
theorem along_of_forall_prefix {P : σ → Prop} (hstep : ∀ s a, P (step s a) → Q s a)
    (h : ∀ pre, pre <+: acts → P (after step s pre)) : Along step Q s acts := by
  induction acts generalizing s with
  | nil => trivial
  | cons a acts ih =>
    refine ⟨hstep s a (h [a] ⟨acts, rfl⟩), ih fun pre hpre => ?_⟩
    exact h (a :: pre) ((List.prefix_cons_inj a).mpr hpre)

/-! ### Machines with outputs -/

section Outputs

variable {ω : Type} (step : σ → α → Option ω × σ)

/-- The outputs of a run. -/
def outputs (s : σ) : List α → List ω
  | [] => []
  | a :: acts => (step s a).1.toList ++ outputs (step s a).2 acts

variable {step}

/-- **Outputs.** What every output of a step satisfies under an invariant is satisfied by all
outputs of a run. -/
theorem outputs_forall {I : σ → Prop} {P : ω → Prop} {Q : σ → α → Prop}
    (hstep : ∀ s a, I s → Q s a → (∀ o, (step s a).1 = some o → P o) ∧ I (step s a).2)
    (hQ : Along (fun s a => (step s a).2) Q s acts) (hI : I s) :
    ∀ o ∈ outputs step s acts, P o := by
  induction acts generalizing s with
  | nil => simp [outputs]
  | cons a acts ih =>
    obtain ⟨hout, hnext⟩ := hstep s a hI hQ.1
    intro o ho
    rcases List.mem_append.mp ho with ho | ho
    · exact hout o (Option.mem_toList.mp ho)
    · exact ih hQ.2 hnext o ho

/-- **Conservation.** Let `held` be what a state holds back, `into` what an action brings in and
`out` what an output hands on. If every step before which the machine was still `I` keeps the
books, in order, then so does a run that ends with `I`. -/
theorem outputs_conserved {μ : Type} {I : σ → Prop} {held : σ → List μ} {into : α → List μ}
    {out : ω → Option μ} (hback : ∀ s a, I (step s a).2 → I s)
    (hstep : ∀ s a, I (step s a).2 →
      held s ++ into a = ((step s a).1.bind out).toList ++ held (step s a).2)
    (hI : I (after (fun s a => (step s a).2) s acts)) :
    held s ++ acts.flatMap into =
      (outputs step s acts).filterMap out ++ held (after (fun s a => (step s a).2) s acts) := by
  have hstart : ∀ acts : List α, ∀ s, I (after (fun s a => (step s a).2) s acts) → I s := by
    intro acts
    induction acts with
    | nil => exact fun _ h => h
    | cons a acts ih => exact fun s h => hback s a (ih _ h)
  induction acts generalizing s with
  | nil => simp [outputs]
  | cons a acts ih =>
    have hnext := hstart acts _ hI
    have hfirst : (step s a).1.toList.filterMap out = ((step s a).1.bind out).toList := by
      cases (step s a).1 with
      | none => rfl
      | some o =>
        rw [Option.toList_some, Option.bind_some, List.filterMap_cons]
        cases out o <;> rfl
    rw [List.flatMap_cons, ← List.append_assoc, hstep s a hnext, List.append_assoc, ih hI, outputs,
      List.filterMap_append, hfirst, List.append_assoc]
    rfl

/-- What all outputs of a run satisfy is satisfied along the run. -/
theorem forall_outputs_iff {P : ω → Prop} :
    (∀ o ∈ outputs step s acts, P o) ↔
      Along (fun s a => (step s a).2) (fun s a => ∀ o, (step s a).1 = some o → P o) s acts := by
  induction acts generalizing s with
  | nil => simp [outputs, Along]
  | cons a acts ih =>
    rw [outputs, Along, List.forall_mem_append, ih]
    simp only [Option.mem_toList]

/-- **Outputs that are what they should be.** Let `f` be a part of `g`. In a run `f` is all of `g`
exactly if it is at each step. -/
theorem filterMap_outputs_eq_iff {μ : Type} {f g : ω → Option μ}
    (hfg : ∀ o, f o = none ∨ f o = g o) :
    (outputs step s acts).filterMap f = (outputs step s acts).filterMap g ↔
      Along (fun s a => (step s a).2) (fun s a => ∀ o, (step s a).1 = some o → f o = g o) s
        acts := by
  rw [← forall_outputs_iff]
  constructor
  · generalize outputs step s acts = outs
    intro heq
    induction outs with
    | nil => exact fun o ho => by cases ho
    | cons o outs ih =>
      rcases hfg o with hnone | hsame
      · cases hg : g o with
        | none =>
          rw [List.filterMap_cons_none hnone, List.filterMap_cons_none hg] at heq
          exact List.forall_mem_cons.mpr ⟨hnone.trans hg.symm, ih heq⟩
        | some m =>
          -- `f` has missed an output, and cannot make up for it later
          have hle : (outs.filterMap f).length ≤ (outs.filterMap g).length := by
            rw [List.length_filterMap_eq_countP, List.length_filterMap_eq_countP]
            refine List.countP_mono_left fun o' _ hsome => ?_
            rcases hfg o' with hnone' | hsame'
            · rw [hnone'] at hsome
              cases hsome
            · rwa [hsame'] at hsome
          rw [List.filterMap_cons_none hnone, List.filterMap_cons_some hg] at heq
          rw [heq, List.length_cons] at hle
          omega
      · refine List.forall_mem_cons.mpr ⟨hsame, ih ?_⟩
        cases hg : g o with
        | none =>
          rwa [List.filterMap_cons_none (hsame.trans hg), List.filterMap_cons_none hg] at heq
        | some m =>
          rw [List.filterMap_cons_some (hsame.trans hg), List.filterMap_cons_some hg] at heq
          exact (List.cons.inj heq).2
  · exact List.filterMap_congr

end Outputs

end Ndhcpd.Run
