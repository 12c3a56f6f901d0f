import Ndhcpd.Interaction.Program

/-!
# Assertions about programs in an interfering environment

A `Setting` says where a program runs: which changes of the shared world the other parties
may make between two of its calls (`rely`, a preorder), which condition must hold of the
world at all times (`inv`), and what one call can answer and do (`step`, a relation, so that
failures and the passing of time are just further possible outcomes).

`Setting.Holds S post p w` says that `p`, about to be executed from the world `w`, keeps
`inv` at every moment, however the others interfere and however its calls turn out, and
ends in a world satisfying `post`. It is a recursion over the program tree, so it is at the
same time the assertion that travels with a half-executed program: `Holds.interfere` and
`Holds.step` say that it survives a move of the environment and a call of the program. The
rules below build it up compositionally.
-/

namespace Ndhcpd

/-- The conditions under which a program is executed. -/
structure Setting (Call : Type) (Reply : Call → Type) (W : Type) where
  /-- What the other parties may do to the world between two calls. -/
  rely : W → W → Prop
  rely_refl : ∀ w, rely w w
  rely_trans : ∀ {w₁ w₂ w₃}, rely w₁ w₂ → rely w₂ w₃ → rely w₁ w₃
  /-- What has to be true of the world at every moment. -/
  inv : W → Prop
  /-- What one call of the program can answer and do. -/
  step : (c : Call) → W → Reply c → W → Prop

namespace Setting

variable {Call : Type} {Reply : Call → Type} {W α β : Type} (S : Setting Call Reply W)

/-- From the world `w` on, the program keeps the invariant and ends in `post`. -/
def Holds (post : α → W → Prop) : Program Call Reply α → W → Prop
  | .done a, w => ∀ w', S.rely w w' → S.inv w' ∧ post a w'
  | .request c next, w => ∀ w', S.rely w w' →
      S.inv w' ∧ ∀ r w'', S.step c w' r w'' → Holds post (next r) w''

variable {S}

namespace Holds

variable {post : α → W → Prop} {p : Program Call Reply α} {w : W}

/-- The invariant holds now. -/
theorem inv (h : S.Holds post p w) : S.inv w := by
  cases p with
  | done a => exact (h w (S.rely_refl w)).1
  | request c next => exact (h w (S.rely_refl w)).1

/-- The assertion survives interference. -/
theorem interfere (h : S.Holds post p w) {w' : W} (hw : S.rely w w') :
    S.Holds post p w' := by
  cases p with
  | done a => exact fun w'' hw' => h w'' (S.rely_trans hw hw')
  | request c next => exact fun w'' hw' => h w'' (S.rely_trans hw hw')

/-- The assertion is passed on by a call. -/
theorem step {c : Call} {next : Reply c → Program Call Reply α}
    (h : S.Holds post (.request c next) w) {r : Reply c} {w' : W} (hw : S.step c w r w') :
    S.Holds post (next r) w' :=
  (h w (S.rely_refl w)).2 r w' hw

/-- A finished program satisfies its postcondition. -/
theorem post_done {a : α} (h : S.Holds post (.done a) w) : post a w :=
  (h w (S.rely_refl w)).2

/-- Weakening of the postcondition. -/
theorem mono {post' : α → W → Prop} (hpost : ∀ a w, post a w → post' a w)
    (h : S.Holds post p w) : S.Holds post' p w := by
  induction p generalizing w with
  | done a => exact fun w' hw' => ⟨(h w' hw').1, hpost a w' (h w' hw').2⟩
  | request c next ih =>
    exact fun w' hw' => ⟨(h w' hw').1, fun r w'' hw'' => ih r ((h w' hw').2 r w'' hw'')⟩

/-- **Sequencing.** -/
theorem bind {k : α → Program Call Reply β} {post' : β → W → Prop}
    (h : S.Holds (fun a => S.Holds post' (k a)) p w) : S.Holds post' (p >>= k) w := by
  induction p generalizing w with
  | done a => exact h.post_done
  | request c next ih =>
    exact fun w' hw' => ⟨(h w' hw').1, fun r w'' hw'' => ih r ((h w' hw').2 r w'' hw'')⟩

end Holds

/-! ### Stable conditions -/

variable (S) in
/-- A condition on the world that implies the invariant and that interference cannot
break. -/
structure Stable (A : W → Prop) : Prop where
  inv : ∀ {w}, A w → S.inv w
  interfere : ∀ {w w'}, A w → S.rely w w' → A w'

namespace Stable

variable {A : W → Prop} {post : α → W → Prop} {w : W}

/-- A further condition that interference cannot break may be added. -/
theorem and (hA : S.Stable A) {B : W → Prop} (hB : ∀ {w w'}, B w → S.rely w w' → B w') :
    S.Stable fun w => A w ∧ B w :=
  ⟨fun h => hA.inv h.1, fun h hw => ⟨hA.interfere h.1 hw, hB h.2 hw⟩⟩

/-- Finishing under a stable condition that gives the postcondition. -/
theorem done (hA : S.Stable A) {a : α} (hpost : ∀ w, A w → post a w) (hw : A w) :
    S.Holds post (.done a) w :=
  fun w' hw' => ⟨hA.inv (hA.interfere hw hw'), hpost w' (hA.interfere hw hw')⟩

/-- Calling under a stable condition: it is enough to treat the call from every world that
satisfies the condition. -/
theorem request (hA : S.Stable A) {c : Call} {next : Reply c → Program Call Reply α}
    (hcall : ∀ w, A w → ∀ r w', S.step c w r w' → S.Holds post (next r) w') (hw : A w) :
    S.Holds post (.request c next) w :=
  fun w' hw' => ⟨hA.inv (hA.interfere hw hw'), hcall w' (hA.interfere hw hw')⟩

/-- **Frame.** A program all of whose calls keep a stable condition keeps it to its end. -/
theorem only (hA : S.Stable A) {P : Call → Prop}
    (hcall : ∀ c, P c → ∀ w, A w → ∀ r w', S.step c w r w' → A w')
    {p : Program Call Reply α} (hp : p.Only P) (hw : A w) :
    S.Holds (fun _ => A) p w := by
  induction p generalizing w with
  | done a => exact hA.done (fun _ h => h) hw
  | request c next ih =>
    exact hA.request (fun w hw r w' hw' => ih r (hp.2 r) (hcall c hp.1 w hw r w' hw')) hw

end Stable

end Setting

end Ndhcpd
