import Mathlib.Tactic.Common

/-!
# Readiness

A task that waits for data does not watch where it comes in. It registers the source with a driver
and waits until the source is said to be readable; then it holds a **guard**. It reads until nothing
is left, and hands the guard in to clear the readiness. Data that comes in meanwhile, between the
last read and the clearing in particular, must not be forgotten.

`Readiness` is any mechanism of this kind, and `Readiness.Lawful` what is promised of one. A wake-up
is `Due` if the source is readable once the driver has had its turn, whatever else the operating
system reports to it. The promise is that a wake-up is due when data has come in, and that clearing
concerns only what happened before the guard was made: `Since` is what may have happened after that.

`edgeTriggered` is a mechanism with a flag, which forgets nothing although it hears of each arrival
only once (`edgeTriggered_lawful`).
-/

namespace Ndhcpd

/-- A readiness mechanism, for one source of data. -/
structure Readiness where
  State : Type
  Guard : Type
  /-- What the operating system reports to the driver. -/
  Report : Type
  /-- The source is registered; there may be data in it. -/
  register : (pending : Bool) → State
  /-- Data comes in. -/
  arrive : State → State
  /-- The driver has its turn. -/
  turn : Report → State → State
  /-- The source is readable. -/
  readable : State → Option Guard
  /-- The readiness is cleared. -/
  clearReady : Guard → State → State

namespace Readiness

section Due

variable (R : Readiness)

/-- A wake-up is due: after the turn of the driver the source is readable. -/
def Due (s : R.State) : Prop := ∀ report, ∃ guard, R.readable (R.turn report s) = some guard

/-- What may have happened since `s`, with data coming in or not. -/
inductive Since (s : R.State) : Bool → R.State → Prop
  | now : Since s false s
  | arrive {arrived : Bool} {s' : R.State} (h : Since s arrived s') : Since s true (R.arrive s')
  | turn {arrived : Bool} {s' : R.State} (report : R.Report) (h : Since s arrived s') :
      Since s arrived (R.turn report s')

/-- What a readiness mechanism promises. -/
structure Lawful : Prop where
  register : R.Due (R.register true)
  arrive : ∀ s, R.Due (R.arrive s)
  turn : ∀ report s, R.Due s → R.Due (R.turn report s)
  /-- Only the readiness from before the guard was made is cleared. -/
  clearReady : ∀ s guard s', R.readable s = some guard → R.Since s true s' →
    R.Due (R.clearReady guard s')

end Due

/-! ### Edge-triggered readiness -/

/-- An edge that the driver has not seen, the flag, and how often the flag was set. -/
structure EdgeState where
  edge : Bool
  ready : Bool
  events : ℕ
deriving DecidableEq, Repr

/-- An arrival leaves an edge behind, and the driver turns edges into settings of the flag; it may
also set the flag for nothing. A guard is the number of settings when it was made: the flag is
cleared only if there was no other one since. -/
def edgeTriggered : Readiness where
  State := EdgeState
  Guard := ℕ
  Report := Bool
  register pending := ⟨pending, false, 0⟩
  arrive s := { s with edge := true }
  turn spurious s := if s.edge || spurious then ⟨false, true, s.events + 1⟩ else s
  readable s := if s.ready then some s.events else none
  clearReady guard s := if s.events = guard then { s with ready := false } else s

section EdgeTriggered

variable {s s' : edgeTriggered.State} {spurious arrived : Bool}

theorem turn_cases (spurious : Bool) (s : edgeTriggered.State) :
    edgeTriggered.turn spurious s = ⟨false, true, s.events + 1⟩ ∨
      s.edge = false ∧ edgeTriggered.turn spurious s = s := by
  by_cases h : (s.edge || spurious) = true
  · exact .inl (if_pos h)
  · have hedge : s.edge = false := (Bool.or_eq_false_iff.mp (Bool.not_eq_true _ ▸ h)).1
    exact .inr ⟨hedge, if_neg h⟩

/-- The flag is up, or an edge will raise it. -/
theorem edgeTriggered_due (h : s.ready = true ∨ s.edge = true) : edgeTriggered.Due s := by
  intro spurious
  refine ⟨(edgeTriggered.turn spurious s).events, if_pos ?_⟩
  rcases turn_cases spurious s with hset | ⟨hedge, hsame⟩
  · rw [hset]
  · rw [hsame]
    rcases h with hready | hup
    · exact hready
    · rw [hedge] at hup
      cases hup

/-- The flag stays up until it is cleared, and what came in has left an edge, or the flag was set
again. -/
theorem since_ready (h : edgeTriggered.Since s arrived s') (hready : s.ready = true) :
    s'.ready = true ∧ s.events ≤ s'.events ∧
      (arrived = true → s'.edge = true ∨ s.events < s'.events) := by
  induction h with
  | now => exact ⟨hready, Nat.le_refl _, fun h => by cases h⟩
  | arrive _ ih => exact ⟨ih.1, ih.2.1, fun _ => .inl rfl⟩
  | @turn arrived s' spurious _ ih =>
    obtain ⟨hup, hle, harrived⟩ := ih
    rcases turn_cases spurious s' with hset | ⟨hedge, hsame⟩
    · rw [hset]
      exact ⟨rfl, Nat.le_succ_of_le hle, fun _ => .inr (Nat.lt_succ_of_le hle)⟩
    · rw [hsame]
      exact ⟨hup, hle, harrived⟩

end EdgeTriggered

theorem edgeTriggered_lawful : edgeTriggered.Lawful where
  register := edgeTriggered_due (.inr rfl)
  arrive s := edgeTriggered_due (.inr rfl)
  turn spurious s h := by
    rcases turn_cases spurious s with hset | ⟨-, hsame⟩
    · rw [hset]
      exact edgeTriggered_due (.inl rfl)
    · rw [hsame]
      exact h
  clearReady s guard s' hguard hsince := by
    have hready : s.ready = true := by
      by_contra hdown
      have hnone : edgeTriggered.readable s = none := if_neg hdown
      rw [hnone] at hguard
      cases hguard
    obtain rfl : s.events = guard := by
      have hevents : edgeTriggered.readable s = some s.events := if_pos hready
      exact Option.some.inj (hevents.symm.trans hguard)
    obtain ⟨hup, hle, harrived⟩ := since_ready hsince hready
    by_cases hsame : s'.events = s.events
    · -- no other setting, so the edge is still to be seen
      have hedge : s'.edge = true := (harrived rfl).resolve_right fun hlt => by omega
      have hclear : edgeTriggered.clearReady s.events s' = { s' with ready := false } :=
        if_pos hsame
      rw [hclear]
      exact edgeTriggered_due (.inr hedge)
    · have hkept : edgeTriggered.clearReady s.events s' = s' := if_neg hsame
      rw [hkept]
      exact edgeTriggered_due (.inl hup)

end Readiness

end Ndhcpd
