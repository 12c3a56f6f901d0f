import Mathlib.Tactic.Common

/-!
# Programs that talk to a service

A `Program Call Reply α` is a computation that interacts with the outside world through
**calls** only: it either has finished with a value, or issues a call `c : Call` and
continues with whatever answer of type `Reply c` comes back. The tree keeps every call and
every possible answer, so one definition of a program can be executed in several ways: to
completion by a deterministic service (`Program.run`), or call by call next to other
clients of the same service (`Ndhcpd.Interaction.Guarantee`).

`Program.run exec p fates s` threads the service state `s` through the program. How a call
goes (whether it fails, how long it takes) is decided by its **fate**; `fates i` is the
fate of the `i`-th call, and the fates that were not used are handed back, so that
`run_bind` splits a run at any point.

Nothing here depends on what the calls are.
-/

namespace Ndhcpd

/-- A program over a signature of calls: finished with a value, or waiting for the answer
to a call. -/
inductive Program (Call : Type) (Reply : Call → Type) (α : Type) : Type
  | done (value : α)
  | request (c : Call) (next : Reply c → Program Call Reply α)

namespace Program

variable {Call : Type} {Reply : Call → Type} {α β γ : Type}

/-! ### Sequencing -/

/-- Run the first program and continue with its value. -/
protected def bind : Program Call Reply α → (α → Program Call Reply β) →
    Program Call Reply β
  | done a, k => k a
  | request c next, k => request c fun r => (next r).bind k

instance : Monad (Program Call Reply) where
  pure := done
  bind := Program.bind

/-- Issue one call and return its answer. -/
def call (c : Call) : Program Call Reply (Reply c) := request c done

@[simp] theorem pure_eq_done (a : α) : (pure a : Program Call Reply α) = done a := rfl

@[simp] theorem done_bind (a : α) (k : α → Program Call Reply β) : done a >>= k = k a := rfl

@[simp] theorem request_bind (c : Call) (next : Reply c → Program Call Reply α)
    (k : α → Program Call Reply β) :
    request c next >>= k = request c fun r => next r >>= k := rfl

@[simp] theorem call_bind (c : Call) (k : Reply c → Program Call Reply β) :
    call c >>= k = request c k := rfl

theorem bind_assoc (p : Program Call Reply α) (k : α → Program Call Reply β)
    (k' : β → Program Call Reply γ) : p >>= k >>= k' = p >>= fun a => k a >>= k' := by
  induction p with
  | done a => rfl
  | request c next ih =>
    simp only [request_bind]
    congr 1
    funext r
    exact ih r

/-! ### Which calls a program can make -/

/-- Every call the program can make, whatever answers it gets, satisfies `P`. -/
def Only (P : Call → Prop) : Program Call Reply α → Prop
  | done _ => True
  | request c next => P c ∧ ∀ r, (next r).Only P

@[simp] theorem only_done (P : Call → Prop) (a : α) :
    (done a : Program Call Reply α).Only P :=
  trivial

@[simp] theorem only_request {P : Call → Prop} {c : Call}
    {next : Reply c → Program Call Reply α} :
    (request c next).Only P ↔ P c ∧ ∀ r, (next r).Only P :=
  Iff.rfl

theorem Only.bind {P : Call → Prop} {p : Program Call Reply α}
    {k : α → Program Call Reply β} (hp : p.Only P) (hk : ∀ a, (k a).Only P) :
    (p >>= k).Only P := by
  induction p with
  | done a => exact hk a
  | request c next ih => exact ⟨hp.1, fun r => ih r (hp.2 r)⟩

theorem Only.mono {P Q : Call → Prop} (hPQ : ∀ c, P c → Q c) {p : Program Call Reply α}
    (hp : p.Only P) : p.Only Q := by
  induction p with
  | done a => trivial
  | request c next ih => exact ⟨hPQ c hp.1, fun r => ih r (hp.2 r)⟩

/-! ### Running a program alone -/

/-- What a finished run leaves behind: the value returned, the state of the service, and
the fates of the calls still to come. -/
structure Outcome (α σ ι : Type) where
  value : α
  state : σ
  rest : ℕ → ι

section Run

variable {σ ι : Type} (exec : ι → (c : Call) → σ → Reply c × σ)

/-- Run a program to its end against a service: `exec` answers one call, and `fates i` is
the fate of the `i`-th call made. -/
def run : Program Call Reply α → (ℕ → ι) → σ → Outcome α σ ι
  | done a, fates, s => ⟨a, s, fates⟩
  | request c next, fates, s =>
    let out := exec (fates 0) c s
    (next out.1).run (fun i => fates (i + 1)) out.2

@[simp] theorem run_done (a : α) (fates : ℕ → ι) (s : σ) :
    (done a : Program Call Reply α).run exec fates s = ⟨a, s, fates⟩ := rfl

theorem run_request (c : Call) (next : Reply c → Program Call Reply α) (fates : ℕ → ι)
    (s : σ) :
    (request c next).run exec fates s =
      (next (exec (fates 0) c s).1).run exec (fun i => fates (i + 1))
        (exec (fates 0) c s).2 := rfl

/-- A run of a sequence is a run of its first part followed by a run of the second on what
the first left behind. -/
theorem run_bind (p : Program Call Reply α) (k : α → Program Call Reply β) (fates : ℕ → ι)
    (s : σ) :
    (p >>= k).run exec fates s =
      (k (p.run exec fates s).value).run exec (p.run exec fates s).rest
        (p.run exec fates s).state := by
  induction p generalizing fates s with
  | done a => rfl
  | request c next ih => exact ih _ _ _

/-- What is made of the value does not matter to the service. -/
theorem run_bind_pure_state (p : Program Call Reply α) (f : α → β) (fates : ℕ → ι) (s : σ) :
    ((p >>= fun a => pure (f a)).run exec fates s).state = (p.run exec fates s).state := by
  rw [run_bind]
  rfl

/-- **Preservation.** A relation that is reflexive, transitive and kept by every call the
program makes relates the states before and after a run. -/
theorem run_preserves {R : σ → σ → Prop} (hrefl : ∀ s, R s s)
    (htrans : ∀ s₁ s₂ s₃, R s₁ s₂ → R s₂ s₃ → R s₁ s₃) {P : Call → Prop}
    (hcall : ∀ i c s, P c → R s (exec i c s).2) {p : Program Call Reply α} (hp : p.Only P)
    (fates : ℕ → ι) (s : σ) : R s (p.run exec fates s).state := by
  induction p generalizing fates s with
  | done a => exact hrefl s
  | request c next ih =>
    exact htrans _ _ _ (hcall _ c s hp.1) (ih _ (hp.2 _) _ _)

end Run

end Program

end Ndhcpd
