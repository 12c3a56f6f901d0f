import Ndhcpd.Interaction.Notes
import Ndhcpd.Interaction.Pool

/-!
# Commits

A program *commits last* if every call it makes is quiet, but for one kind of call after which it
has nothing left to do: where such a call was executed, the program is finished, and with a
success. What it has done is then in one piece and is reported. `CommitsLast` is about the program
on its own; `Pool.step_commits` says what it comes to when programs are executed next to each
other.

`Pool.after_within` is the rule for one program of a pool of which something is known as long as
the service gives the answers expected of it.
-/

namespace Ndhcpd

variable {Call : Type} {Reply : Call → Type} {α β : Type}

namespace Program

/-- Every call is quiet, or the program is finished once it was executed, with a success. -/
def CommitsLast (quiet : Call → Prop) (executed : (c : Call) → Reply c → Prop)
    (success : α → Prop) : Program Call Reply α → Prop
  | done _ => True
  | request c next => (quiet c ∨ ∀ r, executed c r → ∃ a, next r = done a ∧ success a) ∧
      ∀ r, (next r).CommitsLast quiet executed success

variable {quiet : Call → Prop} {executed : (c : Call) → Reply c → Prop} {success : α → Prop}
  {success' : β → Prop}

/-- Quiet calls may go before. -/
theorem Only.commitsLast_bind {p : Program Call Reply α} {k : α → Program Call Reply β}
    (hp : p.Only quiet) (hk : ∀ a, (k a).CommitsLast quiet executed success') :
    (p >>= k).CommitsLast quiet executed success' := by
  induction p with
  | done a => exact hk a
  | request c next ih => exact ⟨.inl hp.1, fun r => ih r (hp.2 r)⟩

end Program

namespace Pool

variable {σ ι : Type} {exec : ι → (c : Call) → σ → Reply c × σ} {p : Pool Call Reply σ α} {i : ℕ}
  {fate : ι}

/-- **What a step does to a job**: nothing, if it is a step of another one or the job is finished;
else it is the next call of the job. -/
theorem step_job {k : ℕ} {job : Program Call Reply α} (hjob : p.jobs[k]? = some job) :
    (i ≠ k ∧ (step exec p (i, fate)).jobs[k]? = some job) ∨
    (i = k ∧ (∃ a, job = .done a) ∧ step exec p (i, fate) = p) ∨
    (i = k ∧ ∃ c next, job = .request c next ∧
      (step exec p (i, fate)).jobs[k]? = some (next (exec fate c p.world).1) ∧
      (step exec p (i, fate)).world = (exec fate c p.world).2) := by
  by_cases hik : i = k
  · subst hik
    cases job with
    | done a => exact .inr (.inl ⟨rfl, ⟨a, rfl⟩, step_done hjob⟩)
    | request c next =>
      have hlt : i < p.jobs.length := (List.getElem?_eq_some_iff.mp hjob).1
      rw [step_request hjob]
      exact .inr (.inr ⟨rfl, c, next, rfl, List.getElem?_set_self hlt, rfl⟩)
  · refine .inl ⟨hik, ?_⟩
    cases hi : p.jobs[i]? with
    | none => rw [step_none hi, hjob]
    | some job' =>
      cases job' with
      | done a => rw [step_done hi, hjob]
      | request c next =>
        rw [step_request hi, List.getElem?_set_ne hik]
        exact hjob

/-- A finished job stays as it is. -/
theorem after_done {k : ℕ} {a : α} (hjob : p.jobs[k]? = some (.done a)) (acts : List (ℕ × ι)) :
    (Run.after (step exec) p acts).jobs[k]? = some (.done a) := by
  induction acts generalizing p with
  | nil => exact hjob
  | cons act acts ih =>
    obtain ⟨i, fate⟩ := act
    refine ih ?_
    obtain ⟨-, hsame⟩ | ⟨-, -, hsame⟩ | ⟨-, c, next, hrequest, -⟩ :=
      @step_job Call Reply α σ ι exec p i fate k _ hjob
    · exact hsame
    · rw [hsame, hjob]
    · cases hrequest

section Commits

variable {quiet : Call → Prop} {executed : (c : Call) → Reply c → Prop} {success : α → Prop}

/-- A job that commits last does so all along. -/
theorem after_commitsLast {k : ℕ} {job : Program Call Reply α} (hjob : p.jobs[k]? = some job)
    (h : job.CommitsLast quiet executed success) (acts : List (ℕ × ι)) :
    ∃ job', (Run.after (step exec) p acts).jobs[k]? = some job' ∧
      job'.CommitsLast quiet executed success := by
  induction acts generalizing p job with
  | nil => exact ⟨job, hjob, h⟩
  | cons act acts ih =>
    obtain ⟨i, fate⟩ := act
    obtain ⟨-, hsame⟩ | ⟨-, -, hsame⟩ | ⟨-, c, next, rfl, hnext, -⟩ :=
      @step_job Call Reply α σ ι exec p i fate k _ hjob
    · exact ih hsame h
    · exact ih (by rw [hsame, hjob]) h
    · exact ih hnext (h.2 _)

/-- **A step of a job that commits last.** It changes nothing, or the call was quiet or was not
executed, or the job is finished, with a success. -/
theorem step_commits {job : Program Call Reply α} (hjob : p.jobs[i]? = some job)
    (h : job.CommitsLast quiet executed success) :
    (step exec p (i, fate)).world = p.world ∨
    (∃ c, (quiet c ∨ ¬ executed c (exec fate c p.world).1) ∧
      (step exec p (i, fate)).world = (exec fate c p.world).2) ∨
    ∃ a, (step exec p (i, fate)).jobs[i]? = some (.done a) ∧ success a := by
  obtain ⟨hne, -⟩ | ⟨-, -, hsame⟩ | ⟨-, c, next, rfl, hnext, hworld⟩ :=
    @step_job Call Reply α σ ι exec p i fate i _ hjob
  · exact absurd rfl hne
  · exact .inl (by rw [hsame])
  · by_cases hexecuted : executed c (exec fate c p.world).1
    · rcases h.1 with hquiet | hlast
      · exact .inr (.inl ⟨c, .inl hquiet, hworld⟩)
      · obtain ⟨a, ha, hsuccess⟩ := hlast _ hexecuted
        rw [ha] at hnext
        exact .inr (.inr ⟨a, hnext, hsuccess⟩)
    · exact .inr (.inl ⟨c, .inr hexecuted, hworld⟩)

end Commits

section Within

variable {C : Call → Prop} {ok : (c : Call) → Reply c → Prop} {post : α → Prop}

/-- **A job that is given the expected answers** stays within its calls. -/
theorem step_within {k : ℕ} {job : Program Call Reply α} (hjob : p.jobs[k]? = some job)
    (hwithin : job.Within C ok post) (hok : ∀ c, C c → ok c (exec fate c p.world).1) :
    ∃ job', (step exec p (i, fate)).jobs[k]? = some job' ∧ job'.Within C ok post := by
  obtain ⟨-, hsame⟩ | ⟨-, -, hsame⟩ | ⟨-, c, next, rfl, hnext, -⟩ :=
    @step_job Call Reply α σ ι exec p i fate k _ hjob
  · exact ⟨job, hsame, hwithin⟩
  · exact ⟨job, by rw [hsame, hjob], hwithin⟩
  · exact ⟨_, hnext, hwithin.2 _ (hok c hwithin.1)⟩

/-- Where it makes a call itself, this is one of them. -/
theorem world_step_within {job : Program Call Reply α} (hjob : p.jobs[i]? = some job)
    (hwithin : job.Within C ok post) :
    (step exec p (i, fate)).world = p.world ∨
      ∃ c, C c ∧ (step exec p (i, fate)).world = (exec fate c p.world).2 := by
  obtain ⟨hne, -⟩ | ⟨-, -, hsame⟩ | ⟨-, c, next, rfl, -, hworld⟩ :=
    @step_job Call Reply α σ ι exec p i fate i _ hjob
  · exact absurd rfl hne
  · exact .inl (by rw [hsame])
  · exact .inr ⟨c, hwithin.1, hworld⟩

/-- The rule for runs: `I` is what makes the answers as expected. -/
theorem after_within {I : σ → Prop} {k : ℕ} {job : Program Call Reply α}
    (hok : ∀ fate c w, I w → C c → ok c (exec fate c w).1) (hjob : p.jobs[k]? = some job)
    (hwithin : job.Within C ok post) {acts : List (ℕ × ι)}
    (hI : ∀ pre, pre <+: acts → I (Run.after (step exec) p pre).world) :
    ∃ job', (Run.after (step exec) p acts).jobs[k]? = some job' ∧ job'.Within C ok post := by
  induction acts generalizing p job with
  | nil => exact ⟨job, hjob, hwithin⟩
  | cons act acts ih =>
    obtain ⟨i, fate⟩ := act
    obtain ⟨job', hjob', hwithin'⟩ := @step_within Call Reply α σ ι exec p i fate C ok post k job hjob
      hwithin fun c hc => hok fate c p.world (hI [] List.nil_prefix) hc
    exact ih hjob' hwithin' fun pre hpre => hI ((i, fate) :: pre) ((List.prefix_cons_inj _).mpr hpre)

end Within

end Pool

end Ndhcpd
