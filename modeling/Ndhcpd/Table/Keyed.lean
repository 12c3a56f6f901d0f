import Mathlib.Data.List.Nodup
import Mathlib.Tactic.Ring

/-!
# Tables with keys

A table is a list of rows, and `key` reads the key of a row. The rows of a table with unique keys
have distinct keys; a table is `Numbered` if in addition its keys are integers given out in
order, none of them larger than the counter `seq`.

A table changes by three operations, and each keeps the keys in order: a row is appended under the
next number, rows are removed, or rows are rewritten under their old keys. Where keys are unique, a
row is determined by its key (`List.inj_on_of_nodup_map`), and changing the first row under a key
is changing all rows under it (`map_ite_of_first`). Appending a row and rewriting the row under a
key both write a row (`Puts`): it is found under its key afterwards, and nothing else changes.
-/

namespace Ndhcpd

section Unique

variable {α κ : Type} {key : α → κ} {rows : List α}

/-- A further row keeps the keys unique exactly if its key is new. -/
theorem nodup_map_append {row : α} (h : (rows.map key).Nodup) :
    ((rows ++ [row]).map key).Nodup ↔ ∀ r ∈ rows, key r ≠ key row := by
  rw [List.map_append, List.nodup_append]
  simp [h]

/-- Rewriting rows under their old keys. -/
theorem map_key_map {f : α → α} (hf : ∀ r ∈ rows, key (f r) = key r) :
    (rows.map f).map key = rows.map key := by
  rw [List.map_map]
  exact List.map_congr_left hf

/-- Where no row has the key, rewriting the rows under it changes nothing. -/
theorem map_ite_of_forall_ne [DecidableEq κ] {k : κ} {f : α → α} (h : ∀ r ∈ rows, key r ≠ k) :
    (rows.map fun r => if key r == k then f r else r) = rows := by
  refine (List.map_congr_left fun r hr => ?_).trans (List.map_id rows)
  rw [if_neg (by simpa using h r hr)]
  rfl

/-- Where keys are unique, rewriting the rows under a key is rewriting the first of them. -/
theorem map_ite_of_first [DecidableEq κ] {row : α} {k : κ} {f : α → α}
    (h : ((row :: rows).map key).Nodup) (hk : key row = k) :
    ((row :: rows).map fun r => if key r == k then f r else r) = f row :: rows := by
  rw [List.map_cons, List.nodup_cons] at h
  rw [List.map_cons, if_pos (by simpa using hk)]
  congr 1
  refine map_ite_of_forall_ne fun r hr hkey => h.1 ?_
  exact List.mem_map.mpr ⟨r, hr, hkey.trans hk.symm⟩

/-! ### Writing a row -/

/-- The table `rows'` is `rows` with `row` written under its key: in the place of what was there, or
in addition. -/
def Puts [DecidableEq κ] (key : α → κ) (rows rows' : List α) (row : α) : Prop :=
  rows'.Perm (row :: rows.filter fun r => key r != key row)

variable [DecidableEq κ] {rows' : List α}

theorem puts_append (row : α) (h : ∀ r ∈ rows, key r ≠ key row) : Puts key rows (rows ++ [row]) row := by
  have hfilter : (rows.filter fun r => key r != key row) = rows :=
    List.filter_eq_self.mpr fun r hr => by simpa using h r hr
  rw [Puts, hfilter]
  exact List.perm_append_singleton row rows

/-- Where keys are unique, rewriting the row under a key writes it. -/
theorem puts_map_ite (row : α) (h : (rows.map key).Nodup) (hmem : ∃ r ∈ rows, key r = key row) :
    Puts key rows (rows.map fun r => if key r == key row then row else r) row := by
  induction rows with
  | nil => simp at hmem
  | cons r rows ih =>
    by_cases hr : key r = key row
    · have hrest : ∀ r' ∈ rows, key r' ≠ key row := by
        intro r' hr' hkey
        exact (List.nodup_cons.mp h).1 (List.mem_map.mpr ⟨r', hr', hkey.trans hr.symm⟩)
      have hfilter : (rows.filter fun r => key r != key row) = rows :=
        List.filter_eq_self.mpr fun r' hr' => by simpa using hrest r' hr'
      rw [map_ite_of_first h hr, Puts, List.filter_cons_of_neg (by simp [hr]), hfilter]
    · obtain ⟨r', hr', hkey⟩ := hmem
      have hr'' : r' ∈ rows := by
        rcases List.mem_cons.mp hr' with rfl | hr''
        · exact absurd hkey hr
        · exact hr''
      have hrest := ih (List.nodup_cons.mp h).2 ⟨r', hr'', hkey⟩
      rw [List.map_cons, if_neg (by simpa using hr), Puts,
        List.filter_cons_of_pos (by simpa using hr)]
      exact (hrest.cons r).trans (List.Perm.swap row r _)

variable {row : α}

/-- Where keys are unique, the row under a key is found. -/
theorem find?_key_eq_some_iff (h : (rows.map key).Nodup) {k : κ} {r : α} :
    rows.find? (key · == k) = some r ↔ r ∈ rows ∧ key r = k := by
  constructor
  · intro hfind
    exact ⟨List.mem_of_find?_eq_some hfind, by simpa using List.find?_some hfind⟩
  · rintro ⟨hr, hkey⟩
    cases hfind : rows.find? (key · == k) with
    | none => exact absurd (List.find?_eq_none.mp hfind r hr) (by simpa using hkey)
    | some r' =>
      have hkey' : key r' = k := by simpa using List.find?_some hfind
      have hsame := List.inj_on_of_nodup_map h (List.mem_of_find?_eq_some hfind) hr
      rw [hsame (hkey'.trans hkey.symm)]

/-- What was written is found under its key. -/
theorem Puts.find?_self (h : Puts key rows rows' row) (hnodup : (rows'.map key).Nodup) :
    rows'.find? (key · == key row) = some row :=
  (find?_key_eq_some_iff hnodup).mpr ⟨h.mem_iff.mpr List.mem_cons_self, rfl⟩

/-- Under other keys nothing changes. -/
theorem Puts.find?_other (h : Puts key rows rows' row) (hnodup : (rows.map key).Nodup)
    (hnodup' : (rows'.map key).Nodup) {k : κ} (hk : k ≠ key row) :
    rows'.find? (key · == k) = rows.find? (key · == k) := by
  refine Option.ext fun r => ?_
  rw [find?_key_eq_some_iff hnodup, find?_key_eq_some_iff hnodup', h.mem_iff, List.mem_cons,
    List.mem_filter]
  constructor
  · rintro ⟨rfl | ⟨hr, -⟩, hkey⟩
    · exact absurd hkey.symm hk
    · exact ⟨hr, hkey⟩
  · rintro ⟨hr, hkey⟩
    exact ⟨.inr ⟨hr, by simpa [hkey] using hk⟩, hkey⟩

end Unique

/-! ### Numbered rows -/

/-- The numbers of the rows are distinct, and at most `seq`. -/
structure Numbered {α : Type} (key : α → ℤ) (rows : List α) (seq : ℤ) : Prop where
  nodup : (rows.map key).Nodup
  fresh : ∀ r ∈ rows, key r ≤ seq

namespace Numbered

variable {α : Type} {key : α → ℤ} {rows rows' : List α} {seq : ℤ}

protected theorem nil : Numbered key [] seq := ⟨List.nodup_nil, by simp⟩

/-- A row is appended under the next number. -/
theorem append (h : Numbered key rows seq) {row : α} (hrow : key row = seq + 1) :
    Numbered key (rows ++ [row]) (seq + 1) where
  nodup := by
    refine (nodup_map_append h.nodup).mpr fun r hr => ?_
    have hfresh := h.fresh r hr
    omega
  fresh r hr := by
    rcases List.mem_append.mp hr with hr | hr
    · exact (h.fresh r hr).trans (by omega)
    · obtain rfl := List.mem_singleton.mp hr
      exact hrow.le

/-- Rows are removed. -/
theorem sublist (h : Numbered key rows seq) (hrows : rows'.Sublist rows) :
    Numbered key rows' seq where
  nodup := h.nodup.sublist (hrows.map _)
  fresh r hr := h.fresh r (hrows.subset hr)

/-- Rows are rewritten under their old numbers. -/
theorem map (h : Numbered key rows seq) {f : α → α} (hf : ∀ r ∈ rows, key (f r) = key r) :
    Numbered key (rows.map f) seq where
  nodup := by
    rw [map_key_map hf]
    exact h.nodup
  fresh r hr := by
    obtain ⟨r', hr', rfl⟩ := List.mem_map.mp hr
    rw [hf r' hr']
    exact h.fresh r' hr'

end Numbered

end Ndhcpd
