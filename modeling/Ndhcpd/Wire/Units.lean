import Ndhcpd.Wire.Bytes
import Mathlib.Data.List.Basic

/-!
# Options counted in units of eight octets

The option format of Neighbor Discovery messages: a type octet, a length octet that counts the
whole option in units of eight octets, and the rest of the option. `walkOptions` reads a sequence
of such options to the end of the buffer and fails where the buffer does not end with an option,
or where a length is zero. It is what a receiver does, and it knows nothing of how the buffer was
built.

* `walkOptions_append` reads one option off the front, if its length octet is right.
* `length_body_le` bounds what any option of a walk can hold: the length is one octet.

`readWords` cuts the body of an option into words of the same size.
-/

namespace Ndhcpd

/-- An option as a walk sees it: its type and what follows the length octet. -/
structure NdOption where
  type : UInt8
  body : List UInt8
deriving DecidableEq, Repr

/-- The options of a buffer, which have to fill it exactly. -/
def walkOptions : List UInt8 → Option (List NdOption)
  | [] => some []
  | [_] => none
  | type :: len :: rest =>
    if len = 0 ∨ rest.length + 2 < 8 * len.toNat then none
    else (walkOptions (rest.drop (8 * len.toNat - 2))).map
      (⟨type, rest.take (8 * len.toNat - 2)⟩ :: ·)
termination_by bytes => bytes.length

section Walk

variable {type len : UInt8} {body rest : List UInt8}

@[simp] theorem walkOptions_nil : walkOptions [] = some [] := by
  rw [walkOptions]

/-- **One option.** An option whose length octet counts its units is read, and the walk goes on
behind it. -/
theorem walkOptions_append (h : body.length + 2 = 8 * len.toNat) :
    walkOptions (type :: len :: (body ++ rest)) =
      (walkOptions rest).map (⟨type, body⟩ :: ·) := by
  have hlen : len ≠ 0 := by
    rintro rfl
    simp at h
  have hbody : 8 * len.toNat - 2 = body.length := by omega
  rw [walkOptions, if_neg (by simp [hlen]; omega), hbody, List.drop_left, List.take_left]

/-- No option of a walk is longer than 255 units. -/
theorem length_body_le {bytes : List UInt8} {options : List NdOption}
    (h : walkOptions bytes = some options) : ∀ o ∈ options, o.body.length + 2 ≤ 8 * 255 := by
  -- The induction follows the walk: behind the first option the rest of the buffer is walked.
  induction bytes using walkOptions.induct generalizing options with
  | case1 =>
    rw [walkOptions_nil, Option.some.injEq] at h
    subst h
    exact List.forall_mem_nil _
  | case2 => simp [walkOptions] at h
  | case3 type len rest hbad => simp [walkOptions, hbad] at h
  | case4 type len rest hgood ih =>
    rw [walkOptions, if_neg hgood] at h
    obtain ⟨tail, htail, rfl⟩ := Option.map_eq_some_iff.mp h
    have hlen : len.toNat < 256 := len.toNat_lt
    refine List.forall_mem_cons.mpr ⟨?_, ih htail⟩
    simp only [List.length_take]
    omega

end Walk

/-- Every element of a list that was read stems from one it was read from. -/
theorem exists_of_mem_mapM {α β : Type} {read : α → Option β} {as : List α} {bs : List β}
    (h : as.mapM read = some bs) {b : β} (hb : b ∈ bs) : ∃ a ∈ as, read a = some b := by
  induction as generalizing bs with
  | nil =>
    cases h
    cases hb
  | cons a as ih =>
    simp only [List.mapM_cons, Option.bind_eq_bind, Option.bind_eq_some_iff] at h
    obtain ⟨b', hb', bs', hbs', hcons⟩ := h
    cases hcons
    rcases List.mem_cons.mp hb with rfl | hb
    · exact ⟨a, List.mem_cons_self, hb'⟩
    · obtain ⟨c, hc, hread⟩ := ih hbs' hb
      exact ⟨c, List.mem_cons_of_mem a hc, hread⟩

/-! ### Words of a fixed size -/

/-- The first `n` words of `k` octets. -/
def readWords (k : ℕ) : ℕ → List UInt8 → List (List UInt8)
  | 0, _ => []
  | n + 1, bytes => bytes.take k :: readWords k n (bytes.drop k)

@[simp] theorem length_readWords (k n : ℕ) (bytes : List UInt8) :
    (readWords k n bytes).length = n := by
  induction n generalizing bytes with
  | zero => rfl
  | succ n ih => simp [readWords, ih]

/-- Words written one after another are read back. -/
theorem readWords_flatMap {α : Type} {k : ℕ} {write : α → List UInt8}
    (hwrite : ∀ a, (write a).length = k) (words : List α) :
    readWords k words.length (words.flatMap write) = words.map write := by
  induction words with
  | nil => rfl
  | cons a words ih =>
    rw [List.length_cons, readWords, List.flatMap_cons, List.take_left' (hwrite a),
      List.drop_left' (hwrite a), ih, List.map_cons]

end Ndhcpd
