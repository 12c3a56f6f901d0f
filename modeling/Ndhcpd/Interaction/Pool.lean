import Ndhcpd.Interaction.Guarantee
import Ndhcpd.Interaction.Run

/-!
# Pools of programs

Several programs that are executed at the same time against one service. A `Pool` is the state
of the service together with what is left of each program, and a step picks a program and
executes its next call; which program it is, and how the call goes, is up to the scheduler. A
run over all lists of such choices (`Run.after`) is every interleaving of the calls.

`step_holds` is the rule for parallel composition: where the programs have to fear nothing from
each other but that the invariant is kept, programs that keep it one by one keep it together.
-/

namespace Ndhcpd

/-- Programs in progress, with the service they share. -/
structure Pool (Call : Type) (Reply : Call → Type) (σ α : Type) where
  jobs : List (Program Call Reply α)
  world : σ

namespace Pool

variable {Call : Type} {Reply : Call → Type} {σ α ι : Type}
  (exec : ι → (c : Call) → σ → Reply c × σ)

/-- Execute the next call of the job `i`. A job that is finished or does not exist changes
nothing. -/
def step (p : Pool Call Reply σ α) : ℕ × ι → Pool Call Reply σ α
  | (i, fate) =>
    match p.jobs[i]? with
    | some (.request c next) =>
      ⟨p.jobs.set i (next (exec fate c p.world).1), (exec fate c p.world).2⟩
    | _ => p

variable {exec} {p : Pool Call Reply σ α} {i : ℕ} {fate : ι}

theorem step_request {c : Call} {next : Reply c → Program Call Reply α}
    (h : p.jobs[i]? = some (.request c next)) :
    step exec p (i, fate) =
      ⟨p.jobs.set i (next (exec fate c p.world).1), (exec fate c p.world).2⟩ := by
  rw [step, h]

theorem step_done {a : α} (h : p.jobs[i]? = some (.done a)) : step exec p (i, fate) = p := by
  rw [step, h]

theorem step_none (h : p.jobs[i]? = none) : step exec p (i, fate) = p := by
  rw [step, h]

section Holds

variable {S : Setting Call Reply σ} {post : α → σ → Prop}
  (hexec : ∀ fate c w, S.step c w (exec fate c w).1 (exec fate c w).2)
  (hrely : ∀ {w w'}, S.inv w → S.inv w' → S.rely w w')
include hexec hrely

/-- **Parallel composition.** Let the others be allowed to do whatever keeps the invariant. If
all jobs hold, they still do so after a step of any one of them. -/
theorem step_holds (hinv : S.inv p.world) (h : ∀ job ∈ p.jobs, S.Holds post job p.world)
    (a : ℕ × ι) :
    S.inv (step exec p a).world ∧
      ∀ job ∈ (step exec p a).jobs, S.Holds post job (step exec p a).world := by
  obtain ⟨i, fate⟩ := a
  cases hjob : p.jobs[i]? with
  | none =>
    rw [step_none hjob]
    exact ⟨hinv, h⟩
  | some job =>
    cases job with
    | done a =>
      rw [step_done hjob]
      exact ⟨hinv, h⟩
    | request c next =>
      have hnext := (h _ (List.mem_of_getElem? hjob)).step (hexec fate c p.world)
      rw [step_request hjob]
      refine ⟨hnext.inv, fun job hmem => ?_⟩
      rcases List.mem_or_eq_of_mem_set hmem with hother | rfl
      · -- to the other jobs the call is interference
        exact (h job hother).interfere (hrely hinv hnext.inv)
      · exact hnext

/-- The invariant of the jobs holds after every run of the pool. -/
theorem after_inv (hinv : S.inv p.world) (h : ∀ job ∈ p.jobs, S.Holds post job p.world)
    (acts : List (ℕ × ι)) : S.inv (Run.after (step exec) p acts).world := by
  induction acts generalizing p with
  | nil => exact hinv
  | cons a acts ih =>
    obtain ⟨hinv', h'⟩ := step_holds hexec hrely hinv h a
    exact ih hinv' h'

end Holds

end Pool

end Ndhcpd
