import Ndhcpd.Interaction.Commit

/-!
# Linearization points

A program is *pointed* if each of its runs makes quiet calls only, until one call settles it: that
call is the last one, and its reply decides what the value is. Executed next to others, such a
program takes effect at one step of the run, its **linearization point**, and at all its other
steps it does no more than its quiet calls do (`Pool.after_pointed`). A program that finishes
without a call has no such point; its value is then `idle`. As long as it has not finished, it has
been quiet (`Pool.quietAlong_running`).
-/

namespace Ndhcpd

variable {Call : Type} {Reply : Call → Type} {α : Type}

/-- Quiet calls, until a last call, whose reply and the value are related by `point`. -/
def Program.Pointed (quiet : Call → Prop) (point : (c : Call) → Reply c → α → Prop)
    (idle : α → Prop) : Program Call Reply α → Prop
  | .done a => idle a
  | .request c next => ∀ r, (∃ a, next r = .done a ∧ point c r a) ∨
      (quiet c ∧ (next r).Pointed quiet point idle)

namespace Pool

variable {σ ι : Type} (exec : ι → (c : Call) → σ → Reply c × σ)

/-- If it is a step of the job `k`, it leaves the world alone or is a quiet call. -/
def QuietStep (quiet : Call → Prop) (k : ℕ) (p : Pool Call Reply σ α) (act : ℕ × ι) : Prop :=
  act.1 = k → (step exec p act).world = p.world ∨
    ∃ c, quiet c ∧ (step exec p act).world = (exec act.2 c p.world).2

/-- All steps of the job `k` in a run are quiet. -/
abbrev QuietAlong (quiet : Call → Prop) (k : ℕ) (p : Pool Call Reply σ α) (acts : List (ℕ × ι)) :
    Prop :=
  Run.Along (step exec) (QuietStep exec quiet k) p acts

section

variable {exec} {quiet : Call → Prop} {p : Pool Call Reply σ α} {k : ℕ} {acts : List (ℕ × ι)}
  {a : α}

/-- A finished job is quiet. -/
theorem quietAlong_done (hjob : p.jobs[k]? = some (.done a)) : QuietAlong exec quiet k p acts := by
  induction acts generalizing p with
  | nil => trivial
  | cons act acts ih =>
    refine ⟨?_, ih (@after_done Call Reply α σ ι exec p k a hjob [act])⟩
    obtain ⟨i, fate⟩ := act
    rintro rfl
    left
    rw [step_done hjob]

end

/-- How the job `k` has come to the value `a` in a run: without doing anything, or at one step, and
apart from that it was quiet. -/
def Settled (quiet : Call → Prop) (point : (c : Call) → Reply c → α → Prop) (idle : α → Prop)
    (k : ℕ) (p : Pool Call Reply σ α) (acts : List (ℕ × ι)) (a : α) : Prop :=
  (idle a ∧ QuietAlong exec quiet k p acts) ∨
  ∃ pre fate post c next, acts = pre ++ (k, fate) :: post ∧
    (Run.after (step exec) p pre).jobs[k]? = some (.request c next) ∧
    point c (exec fate c (Run.after (step exec) p pre).world).1 a ∧
    QuietAlong exec quiet k p pre ∧
    QuietAlong exec quiet k (Run.after (step exec) p (pre ++ [(k, fate)])) post

variable {exec} {quiet : Call → Prop} {point : (c : Call) → Reply c → α → Prop} {idle : α → Prop}
  {p : Pool Call Reply σ α} {k : ℕ} {acts : List (ℕ × ι)} {a : α}

/-- A quiet step may go before. -/
theorem Settled.cons {act : ℕ × ι} (hquiet : QuietStep exec quiet k p act)
    (h : Settled exec quiet point idle k (step exec p act) acts a) :
    Settled exec quiet point idle k p (act :: acts) a := by
  rcases h with ⟨hidle, hrest⟩ | ⟨pre, fate, post, c, next, rfl, hnext, hpoint, hpre, hpost⟩
  · exact .inl ⟨hidle, hquiet, hrest⟩
  · exact .inr ⟨act :: pre, fate, post, c, next, rfl, hnext, hpoint, ⟨hquiet, hpre⟩, hpost⟩

/-- **Linearization points.** A pointed job that has finished in a run was quiet at all its steps,
but for one that decided its value, if there is one. -/
theorem after_pointed {job : Program Call Reply α} (hjob : p.jobs[k]? = some job)
    (h : job.Pointed quiet point idle)
    (hdone : (Run.after (step exec) p acts).jobs[k]? = some (.done a)) :
    Settled exec quiet point idle k p acts a := by
  induction acts generalizing p job with
  | nil =>
    obtain rfl : job = .done a := Option.some.inj (hjob.symm.trans hdone)
    exact .inl ⟨h, trivial⟩
  | cons act acts ih =>
    obtain ⟨i, fate⟩ := act
    obtain ⟨hne, hsame⟩ | ⟨-, ⟨-, -⟩, hsame⟩ | ⟨rfl, c, next, rfl, hnext, hworld⟩ :=
      @step_job Call Reply α σ ι exec p i fate k _ hjob
    · have hquiet : QuietStep exec quiet k p (i, fate) := fun heq => absurd heq hne
      exact (ih hsame h hdone).cons hquiet
    · have hquiet : QuietStep exec quiet k p (i, fate) := fun _ => .inl (by rw [hsame])
      exact (ih (by rw [hsame, hjob]) h hdone).cons hquiet
    · rcases h (exec fate c p.world).1 with ⟨b, hb, hpoint⟩ | ⟨hc, h'⟩
      · -- from here on the job is finished
        rw [hb] at hnext
        have hlast : (Run.after (step exec) (step exec p (i, fate)) acts).jobs[i]? =
            some (.done b) := after_done hnext acts
        obtain rfl : b = a := Program.done.inj (Option.some.inj (hlast.symm.trans hdone))
        exact .inr ⟨[], fate, acts, c, next, rfl, hjob, hpoint, trivial, quietAlong_done hnext⟩
      · have hquiet : QuietStep exec quiet i p (i, fate) := fun _ => .inr ⟨c, hc, hworld⟩
        exact (ih hnext h' hdone).cons hquiet

/-- A pointed job that has not finished in a run was quiet. -/
theorem quietAlong_running {job : Program Call Reply α} (hjob : p.jobs[k]? = some job)
    (h : job.Pointed quiet point idle)
    (hrunning : ∀ a, (Run.after (step exec) p acts).jobs[k]? ≠ some (.done a)) :
    QuietAlong exec quiet k p acts := by
  induction acts generalizing p job with
  | nil => trivial
  | cons act acts ih =>
    obtain ⟨i, fate⟩ := act
    obtain ⟨hne, hsame⟩ | ⟨-, ⟨-, -⟩, hsame⟩ | ⟨rfl, c, next, rfl, hnext, hworld⟩ :=
      @step_job Call Reply α σ ι exec p i fate k _ hjob
    · exact ⟨fun heq => absurd heq hne, ih hsame h hrunning⟩
    · exact ⟨fun _ => .inl (by rw [hsame]), ih (by rw [hsame, hjob]) h hrunning⟩
    · rcases h (exec fate c p.world).1 with ⟨b, hb, -⟩ | ⟨hc, h'⟩
      · -- the call would have been the last one
        rw [hb] at hnext
        exact absurd (after_done hnext acts) (hrunning b)
      · exact ⟨fun _ => .inr ⟨c, hc, hworld⟩, ih hnext h' hrunning⟩

end Pool

end Ndhcpd
