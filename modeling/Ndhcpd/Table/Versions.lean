import Mathlib.Data.List.Basic

/-!
# Versions of a database

The layout of a database changes from version to version. `Versions` has a layout for each number of
migrations applied so far, and the migration that comes next, which may fail. Whoever opens a
database that was stored in some version runs the pending migrations in order: `Opens` says so of a
migrator, and `upgrade` is one.

`Opens.eq_ok` is the rule for upgrades: if every migration succeeds on a database in good order and
leaves one in good order, then the upgrade succeeds from every version, and ends in the last one in
good order. What is good order depends on the version, and may speak of the database at the start.

Migrations that rebuild a table copy it row by row, and each row has to meet the constraints next to
the rows already copied. `insertRows_eq_ok_iff` says when this succeeds.
-/

namespace Ndhcpd

/-- The layouts of a database, and the migrations between them. -/
structure Versions (ε : Type) where
  Layout : ℕ → Type
  migrate : (v : ℕ) → Layout v → Except ε (Layout (v + 1))

namespace Versions

variable {ε : Type} (V : Versions ε)

/-- A database, with the version it is stored in. -/
abbrev Stored : Type := Σ v, V.Layout v

/-- A migrator runs the pending migrations in order, and fails with the first of them that does. -/
structure Opens (last : ℕ) (migrator : V.Stored → Except ε V.Stored) : Prop where
  done : ∀ db, migrator ⟨last, db⟩ = .ok ⟨last, db⟩
  pending : ∀ v < last, ∀ db,
    migrator ⟨v, db⟩ = V.migrate v db >>= fun db' => migrator ⟨v + 1, db'⟩

/-- Run the migrations up to the version `last`. -/
def upgrade (last : ℕ) (s : V.Stored) : Except ε V.Stored :=
  if s.1 < last then V.migrate s.1 s.2 >>= fun db => upgrade last ⟨s.1 + 1, db⟩ else .ok s
termination_by last - s.1

theorem opens_upgrade (last : ℕ) : V.Opens last (V.upgrade last) where
  done db := by
    rw [upgrade]
    exact if_neg (Nat.lt_irrefl last)
  pending v hv db := by
    rw [upgrade]
    exact if_pos hv

variable {V}

/-- **Upgrades.** From every version the upgrade succeeds if each migration does, and it ends in the
last version. -/
theorem Opens.eq_ok {last : ℕ} {migrator : V.Stored → Except ε V.Stored}
    (h : V.Opens last migrator) {I : (v : ℕ) → V.Layout v → Prop}
    (hstep : ∀ v < last, ∀ db, I v db → ∃ db', V.migrate v db = .ok db' ∧ I (v + 1) db')
    {s : V.Stored} (hversion : s.1 ≤ last) (hI : I s.1 s.2) :
    ∃ db, migrator s = .ok ⟨last, db⟩ ∧ I last db := by
  obtain ⟨v, db⟩ := s
  -- by induction on the number of pending migrations
  obtain ⟨pending, hpending⟩ : ∃ pending, v + pending = last :=
    ⟨last - v, Nat.add_sub_of_le hversion⟩
  clear hversion
  induction pending generalizing v with
  | zero =>
    obtain rfl : v = last := hpending
    exact ⟨db, h.done db, hI⟩
  | succ pending ih =>
    have hv : v < last := by omega
    obtain ⟨db', hmigrate, hnext⟩ := hstep v hv db hI
    obtain ⟨db'', hrest, hlast⟩ := ih (v + 1) db' hnext (by omega)
    refine ⟨db'', ?_, hlast⟩
    rw [h.pending v hv db, hmigrate]
    exact hrest

end Versions

/-! ### Copying a table -/

section Copy

variable {α ε : Type} {conflict : α → α → Bool} {e : ε} {table table' rows : List α}

/-- Insert a row, unless it is in conflict with a row that is there. -/
def insertRow (conflict : α → α → Bool) (e : ε) (table : List α) (row : α) : Except ε (List α) :=
  if table.any (conflict · row) then .error e else .ok (table ++ [row])

/-- Insert rows one by one. -/
def insertRows (conflict : α → α → Bool) (e : ε) (table rows : List α) : Except ε (List α) :=
  rows.foldlM (insertRow conflict e) table

/-- **Copying** succeeds exactly if no row is in conflict with one before it, and then the table has
the rows in their order. -/
theorem insertRows_eq_ok_iff :
    insertRows conflict e table rows = .ok table' ↔
      table' = table ++ rows ∧ (∀ r ∈ table, ∀ row ∈ rows, conflict r row = false) ∧
        rows.Pairwise fun r row => conflict r row = false := by
  induction rows generalizing table with
  | nil =>
    simp only [insertRows, List.foldlM_nil, List.append_nil, List.not_mem_nil, false_imp_iff,
      implies_true, List.Pairwise.nil, and_true]
    exact ⟨fun h => (Except.ok.inj h).symm, fun h => h ▸ rfl⟩
  | cons row rows ih =>
    have hcons : insertRows conflict e table (row :: rows) =
        insertRow conflict e table row >>= fun table => insertRows conflict e table rows :=
      List.foldlM_cons
    rw [hcons, insertRow]
    by_cases hrow : table.any (conflict · row) = true
    · rw [if_pos hrow]
      obtain ⟨r, hr, hconflict⟩ := List.any_eq_true.mp hrow
      constructor
      · intro h
        cases h
      · rintro ⟨-, hfree, -⟩
        exact absurd (hfree r hr row List.mem_cons_self) (by simp [hconflict])
    · rw [if_neg hrow]
      have hfree : ∀ r ∈ table, conflict r row = false := by simpa using hrow
      show insertRows conflict e (table ++ [row]) rows = .ok table' ↔ _
      rw [ih, List.append_assoc, List.singleton_append]
      simp only [List.mem_append, List.mem_cons, List.not_mem_nil, or_false, List.pairwise_cons]
      constructor
      · rintro ⟨htable, hrest, hpairs⟩
        refine ⟨htable, fun r hr row' hrow' => ?_,
          fun row' hrow' => hrest row (.inr rfl) row' hrow', hpairs⟩
        rcases hrow' with rfl | hrow'
        · exact hfree r hr
        · exact hrest r (.inl hr) row' hrow'
      · rintro ⟨htable, hrest, hfirst, hpairs⟩
        refine ⟨htable, fun r hr row' hrow' => ?_, hpairs⟩
        rcases hr with hr | rfl
        · exact hrest r hr row' (.inr hrow')
        · exact hfirst row' hrow'

end Copy

end Ndhcpd
