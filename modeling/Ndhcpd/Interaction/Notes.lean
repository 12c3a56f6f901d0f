import Ndhcpd.Interaction.Program

/-!
# Programs that take notes

A program may be written a second time so that it notes on the way what is of interest about
its own computation: the operands of an operation, say. `Noting ν Call Reply α` is a program that
returns the notes next to its value. `Noting.erase` forgets them, and a noting program is faithful
to a plain one if erasing it gives that program.

`Program.Within` is the rule for what all runs have in common in which the answers to the calls
are as expected: it is built up along the program, and `Within.run` applies it to a run against a
service whose states satisfy an invariant that makes the answers so.
-/

namespace Ndhcpd

variable {Call : Type} {Reply : Call → Type} {ν α β : Type}

/-! ### Expected answers -/

namespace Program

/-- The program makes only calls in `C`, and ends with `post` as long as the answers it gets are
within `ok`. -/
def Within (C : Call → Prop) (ok : (c : Call) → Reply c → Prop) (post : α → Prop) :
    Program Call Reply α → Prop
  | done a => post a
  | request c next => C c ∧ ∀ r, ok c r → (next r).Within C ok post

variable {C : Call → Prop} {ok : (c : Call) → Reply c → Prop} {post : α → Prop} {post' : β → Prop}

/-- **Sequencing.** -/
theorem Within.bind {p : Program Call Reply α} {k : α → Program Call Reply β}
    (hp : p.Within C ok post) (hk : ∀ a, post a → (k a).Within C ok post') :
    (p >>= k).Within C ok post' := by
  induction p with
  | done a => exact hk a hp
  | request c next ih => exact ⟨hp.1, fun r hr => ih r (hp.2 r hr)⟩

/-- A program that makes only calls in `C` may be followed by anything. -/
theorem Only.within {p : Program Call Reply α} (hp : p.Only C) :
    p.Within C ok fun _ => True := by
  induction p with
  | done a => trivial
  | request c next ih => exact ⟨hp.1, fun r _ => ih r (hp.2 r)⟩

/-- **Runs.** An invariant that makes the answers as expected, and that the calls keep, holds at
the end of every run, with the assertion. -/
theorem Within.run {σ ι : Type} {exec : ι → (c : Call) → σ → Reply c × σ} {I : σ → Prop}
    (hexec : ∀ i c s, I s → C c → ok c (exec i c s).1 ∧ I (exec i c s).2)
    {p : Program Call Reply α} (hp : p.Within C ok post) (fates : ℕ → ι) {s : σ} (hs : I s) :
    post (p.run exec fates s).value ∧ I (p.run exec fates s).state := by
  induction p generalizing fates s with
  | done a => exact ⟨hp, hs⟩
  | request c next ih =>
    obtain ⟨hreply, hstate⟩ := hexec (fates 0) c s hs hp.1
    exact ih _ (hp.2 _ hreply) _ hstate

end Program

/-! ### Notes -/

/-- A program that returns its notes next to its value. -/
def Noting (ν Call : Type) (Reply : Call → Type) (α : Type) : Type :=
  Program Call Reply (α × List ν)

namespace Noting

/-- Compute a value, which takes the given notes. -/
def noting (notes : List ν) (a : α) : Noting ν Call Reply α := Program.done (a, notes)

/-- The notes of a sequence are those of its first part, then those of the second. -/
protected def bind (p : Noting ν Call Reply α) (k : α → Noting ν Call Reply β) :
    Noting ν Call Reply β :=
  Program.bind p fun x => Program.bind (k x.1) fun y => Program.done (y.1, x.2 ++ y.2)

instance : Monad (Noting ν Call Reply) where
  pure := noting []
  bind := Noting.bind

/-- A plain program takes no notes. -/
def lift (p : Program Call Reply α) : Noting ν Call Reply α :=
  Program.bind p fun a => Program.done (a, [])

/-- The program without its notes. -/
def erase (p : Noting ν Call Reply α) : Program Call Reply α :=
  Program.bind p fun x => Program.done x.1

@[simp] theorem erase_pure (a : α) : erase (pure a : Noting ν Call Reply α) = pure a := rfl

@[simp] theorem erase_noting (notes : List ν) (a : α) :
    erase (noting notes a : Noting ν Call Reply α) = pure a := rfl

@[simp] theorem erase_lift (p : Program Call Reply α) :
    erase (lift p : Noting ν Call Reply α) = p := by
  induction p with
  | done a => rfl
  | request c next ih =>
    change Program.request c (fun r => erase (lift (next r) : Noting ν Call Reply α)) = _
    congr 1
    funext r
    exact ih r

/-- Erasing goes through sequences. -/
@[simp] theorem erase_bind (p : Noting ν Call Reply α) (k : α → Noting ν Call Reply β) :
    erase (p >>= k) = erase p >>= fun a => erase (k a) := by
  induction p with
  | done x =>
    change Program.bind (Program.bind (k x.1) fun y => Program.done (y.1, x.2 ++ y.2)) _ =
      Program.bind (k x.1) _
    exact Program.bind_assoc (k x.1) _ _
  | request c next ih =>
    change Program.request c (fun r => erase (Noting.bind (next r) k)) =
      Program.request c fun r => erase (next r) >>= fun a => erase (k a)
    congr 1
    funext r
    exact ih r

section Run

variable {σ ι : Type} (exec : ι → (c : Call) → σ → Reply c × σ)

/-- A run of the program without its notes is a run of the program, without the notes. -/
theorem run_erase (p : Noting ν Call Reply α) (fates : ℕ → ι) (s : σ) :
    (erase p).run exec fates s = ⟨(Program.run exec p fates s).value.1,
      (Program.run exec p fates s).state, (Program.run exec p fates s).rest⟩ :=
  Program.run_bind exec p _ fates s

/-- A call takes no note. -/
theorem run_call_bind (c : Call) (k : Reply c → Noting ν Call Reply β) (fates : ℕ → ι) (s : σ) :
    Program.run exec (lift (Program.call c) >>= k : Noting ν Call Reply β) fates s =
      Program.run exec (k (exec (fates 0) c s).1) (fun i => fates (i + 1))
        (exec (fates 0) c s).2 :=
  Program.run_bind exec (k _) _ _ _

/-- Nor does a plain program. -/
theorem notes_lift (p : Program Call Reply α) (fates : ℕ → ι) (s : σ) :
    (Program.run exec (lift p : Noting ν Call Reply α) fates s).value.2 = [] := by
  have hrun := Program.run_bind exec p (fun a => Program.done (a, ([] : List ν))) fates s
  exact congrArg (fun out : Program.Outcome (α × List ν) σ ι => out.value.2) hrun

/-- The notes of a sequence. -/
theorem notes_bind (p : Noting ν Call Reply α) (k : α → Noting ν Call Reply β) (fates : ℕ → ι)
    (s : σ) :
    (Program.run exec (p >>= k : Noting ν Call Reply β) fates s).value.2 =
      (Program.run exec p fates s).value.2 ++
        (Program.run exec (k (Program.run exec p fates s).value.1)
          (Program.run exec p fates s).rest (Program.run exec p fates s).state).value.2 := by
  have hrun := (Program.run_bind exec p (fun x => Program.bind (k x.1) fun y =>
    Program.done (y.1, x.2 ++ y.2)) fates s).trans (Program.run_bind exec (k _) _ _ _)
  exact congrArg (fun out : Program.Outcome (β × List ν) σ ι => out.value.2) hrun

/-- What is made of the value takes no note. -/
theorem notes_bind_pure (p : Noting ν Call Reply α) (f : α → β) (fates : ℕ → ι) (s : σ) :
    (Program.run exec (p >>= fun a => pure (f a) : Noting ν Call Reply β) fates s).value.2 =
      (Program.run exec p fates s).value.2 := by
  rw [notes_bind]
  exact List.append_nil _

end Run

/-! ### All notes of a program -/

/-- As long as the answers are within `ok`, everything that is noted satisfies `P`, and the value
satisfies `post`. -/
def NotesWithin (C : Call → Prop) (ok : (c : Call) → Reply c → Prop) (P : ν → Prop)
    (post : α → Prop) (p : Noting ν Call Reply α) : Prop :=
  Program.Within C ok (fun x => post x.1 ∧ ∀ n ∈ x.2, P n) p

section Within

variable {C : Call → Prop} {ok : (c : Call) → Reply c → Prop} {P : ν → Prop} {post : α → Prop}
  {post' : β → Prop}

theorem notesWithin_pure {a : α} (ha : post a) : NotesWithin C ok P post (pure a) :=
  ⟨ha, fun _ hn => absurd hn List.not_mem_nil⟩

theorem notesWithin_noting {notes : List ν} (h : ∀ n ∈ notes, P n) {a : α} (ha : post a) :
    NotesWithin C ok P post (noting notes a) := ⟨ha, h⟩

/-- **Sequencing**, with notes. -/
theorem notesWithin_bind {p : Noting ν Call Reply α} (hp : NotesWithin C ok P post p)
    {k : α → Noting ν Call Reply β} (hk : ∀ a, post a → NotesWithin C ok P post' (k a)) :
    NotesWithin C ok P post' (p >>= k) := by
  refine Program.Within.bind hp fun x hx => ?_
  refine Program.Within.bind (hk x.1 hx.1) fun y hy => ⟨hy.1, fun n hn => ?_⟩
  rcases List.mem_append.mp hn with hn | hn
  · exact hx.2 n hn
  · exact hy.2 n hn

/-- What follows a note. -/
theorem notesWithin_noting_bind {notes : List ν} (h : ∀ n ∈ notes, P n) {a : α}
    {k : α → Noting ν Call Reply β} (hk : NotesWithin C ok P post' (k a)) :
    NotesWithin C ok P post' (noting notes a >>= k) := by
  refine notesWithin_bind (notesWithin_noting h (rfl : a = a)) fun b hb => ?_
  rw [← hb]
  exact hk

/-- What follows a call. -/
theorem notesWithin_call_bind {c : Call} (hc : C c) {k : Reply c → Noting ν Call Reply β}
    (hk : ∀ r, ok c r → NotesWithin C ok P post' (k r)) :
    NotesWithin C ok P post' (lift (Program.call c) >>= k) := by
  have hcall : NotesWithin C ok P (ok c) (lift (Program.call c)) :=
    ⟨hc, fun r hr => ⟨hr, fun _ hn => absurd hn List.not_mem_nil⟩⟩
  exact notesWithin_bind hcall hk

/-- What follows a plain program. -/
theorem notesWithin_lift_bind {p : Program Call Reply α} (hp : p.Only C)
    {k : α → Noting ν Call Reply β} (hk : ∀ a, NotesWithin C ok P post' (k a)) :
    NotesWithin C ok P post' (lift p >>= k) := by
  have hlift : NotesWithin C ok P (fun _ : α => True) (lift p) :=
    Program.Within.bind hp.within fun _ _ => ⟨trivial, fun _ hn => absurd hn List.not_mem_nil⟩
  exact notesWithin_bind hlift fun a _ => hk a

end Within

end Noting

end Ndhcpd
