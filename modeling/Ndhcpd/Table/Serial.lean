import Ndhcpd.Interaction.Run
import Mathlib.Data.List.Nodup
import Mathlib.Tactic.Ring

/-!
# Serial numbers

A machine that numbers its rows with a counter of its own: a step either hands out the number
after the counter, under which a row is added, or hands out nothing, and rows may disappear. The
counter never goes back, not even when the row with the largest number disappears.

Over a whole run, the numbers handed out ascend (`pairwise_outputs`), every row carries a number
that was handed out or was there before (`mem_after`), and a number whose row is gone never names
a row again (`not_mem_after`).
-/

namespace Ndhcpd

/-- The step function hands out numbers in order. -/
def Serial {σ α : Type} (step : σ → α → Option ℤ × σ) (ids : σ → List ℤ) (seq : σ → ℤ) : Prop :=
  ∀ s a, ((step s a).1 = some (seq s + 1) ∧ ids (step s a).2 = ids s ++ [seq s + 1] ∧
      seq (step s a).2 = seq s + 1) ∨
    ((step s a).1 = none ∧ (ids (step s a).2).Sublist (ids s) ∧ seq (step s a).2 = seq s)

namespace Serial

variable {σ α : Type} {step : σ → α → Option ℤ × σ} {ids : σ → List ℤ} {seq : σ → ℤ}
  (h : Serial step ids seq)
include h

theorem seq_le (s : σ) (a : α) : seq s ≤ seq (step s a).2 := by
  obtain ⟨-, -, hseq⟩ | ⟨-, -, hseq⟩ := h s a <;> omega

theorem seq_le_after (s : σ) (acts : List α) :
    seq s ≤ seq (Run.after (fun s a => (step s a).2) s acts) := by
  induction acts generalizing s with
  | nil => exact le_rfl
  | cons a acts ih => exact (h.seq_le s a).trans (ih _)

/-- Numbers handed out in a run are new. -/
theorem lt_of_mem_outputs {s : σ} {acts : List α} {n : ℤ} (hn : n ∈ Run.outputs step s acts) :
    seq s < n ∧ n ≤ seq (Run.after (fun s a => (step s a).2) s acts) := by
  induction acts generalizing s with
  | nil => cases hn
  | cons a acts ih =>
    have hle := h.seq_le s a
    have hafter := h.seq_le_after (step s a).2 acts
    rcases List.mem_append.mp hn with hn | hn
    · rw [Option.mem_toList] at hn
      obtain ⟨hout, -, hseq⟩ | ⟨hout, -⟩ := h s a
      · obtain rfl : seq s + 1 = n := Option.some.inj (hout.symm.trans hn)
        rw [Run.after_cons]
        omega
      · cases hout.symm.trans hn
    · obtain ⟨hlt, hle'⟩ := ih hn
      exact ⟨by omega, hle'⟩

/-- **The numbers of a run ascend**, whatever rows disappear meanwhile. -/
theorem pairwise_outputs (s : σ) (acts : List α) : (Run.outputs step s acts).Pairwise (· < ·) := by
  induction acts generalizing s with
  | nil => exact List.Pairwise.nil
  | cons a acts ih =>
    refine List.pairwise_append.mpr ⟨?_, ih _, fun m hm n hn => ?_⟩
    · cases (step s a).1 <;> simp
    · have hlt := (h.lt_of_mem_outputs hn).1
      rw [Option.mem_toList] at hm
      obtain ⟨hout, -, hseq⟩ | ⟨hout, -⟩ := h s a
      · obtain rfl : seq s + 1 = m := Option.some.inj (hout.symm.trans hm)
        omega
      · cases hout.symm.trans hm

/-- A row was there before the run, or carries a number that was handed out in it. -/
theorem mem_after {s : σ} {acts : List α} {n : ℤ}
    (hn : n ∈ ids (Run.after (fun s a => (step s a).2) s acts)) :
    n ∈ ids s ∨ n ∈ Run.outputs step s acts := by
  induction acts generalizing s with
  | nil => exact .inl hn
  | cons a acts ih =>
    rcases ih hn with hn | hn
    · obtain ⟨hout, hids, -⟩ | ⟨-, hids, -⟩ := h s a
      · rw [hids, List.mem_append, List.mem_singleton] at hn
        rcases hn with hn | rfl
        · exact .inl hn
        · exact .inr (List.mem_append_left _ (by simp [hout]))
      · exact .inl (hids.subset hn)
    · exact .inr (List.mem_append_right _ hn)

/-- **Gone for good.** A number at most the counter that names no row names none at the end of
any run. -/
theorem not_mem_after {s : σ} {n : ℤ} (hle : n ≤ seq s) (hn : n ∉ ids s) (acts : List α) :
    n ∉ ids (Run.after (fun s a => (step s a).2) s acts) := by
  intro hmem
  rcases h.mem_after hmem with hmem | hmem
  · exact hn hmem
  · have hlt := (h.lt_of_mem_outputs hmem).1
    omega

/-- Distinct numbers stay distinct. -/
theorem nodup_after {s : σ} (hnodup : (ids s).Nodup) (hle : ∀ n ∈ ids s, n ≤ seq s)
    (acts : List α) : (ids (Run.after (fun s a => (step s a).2) s acts)).Nodup := by
  induction acts generalizing s with
  | nil => exact hnodup
  | cons a acts ih =>
    obtain ⟨-, hids, hseq⟩ | ⟨-, hids, hseq⟩ := h s a
    · refine ih ?_ fun n hn => ?_
      · rw [hids]
        refine List.nodup_append.mpr ⟨hnodup, by simp, fun n hn m hm => ?_⟩
        have hold := hle n hn
        rw [List.mem_singleton.mp hm]
        omega
      · rw [hids, List.mem_append, List.mem_singleton] at hn
        rcases hn with hn | rfl
        · have hold := hle n hn
          exact hold.trans (h.seq_le s a)
        · exact hseq.ge
    · refine ih (hnodup.sublist hids) fun n hn => ?_
      rw [hseq]
      exact hle n (hids.subset hn)

end Serial

end Ndhcpd
