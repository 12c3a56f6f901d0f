import Mathlib.Tactic.Common

/-!
# Checked access

Indexing and slicing as a program does them that stops when it reaches out of bounds, and loops
that are given a number of turns. A computation is an `Except Fault`: it returns a value, or it
ends in one of two faults. Code that never faults is code whose every access is in bounds, and
whose loops end within the turns they are given.
-/

namespace Ndhcpd.Checked

variable {α β : Type}

/-- How a computation can go wrong. -/
inductive Fault
  | outOfBounds
  | outOfTurns
deriving DecidableEq, Repr

/-- `data[i]`. -/
def index (data : List α) (i : ℕ) : Except Fault α :=
  match data[i]? with
  | some a => .ok a
  | none => .error .outOfBounds

/-- `&data[start..stop]`. -/
def slice (data : List α) (start stop : ℕ) : Except Fault (List α) :=
  if start ≤ stop ∧ stop ≤ data.length then .ok ((data.drop start).take (stop - start))
  else .error .outOfBounds

/-- An access in bounds succeeds. -/
theorem index_of_lt {data : List α} {i : ℕ} (h : i < data.length) :
    index data i = .ok data[i] := by
  rw [index, List.getElem?_eq_getElem h]

theorem slice_of_le {data : List α} {start stop : ℕ} (hstart : start ≤ stop)
    (hstop : stop ≤ data.length) :
    slice data start stop = .ok ((data.drop start).take (stop - start)) :=
  if_pos ⟨hstart, hstop⟩

/-- A value that is computed is used. -/
@[simp] theorem ok_bind (a : α) (k : α → Except Fault β) : (Except.ok a >>= k) = k a := rfl

@[simp] theorem pure_eq_ok (a : α) : (pure a : Except Fault α) = .ok a := rfl

end Ndhcpd.Checked
