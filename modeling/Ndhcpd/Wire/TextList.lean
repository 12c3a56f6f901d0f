import Mathlib.Tactic.Common
import Mathlib.Tactic.Ring

/-!
# Lists as text

A list of values is stored in one text column by writing the values one after the other with
commas between them, and read back by splitting at the commas, trimming white space and parsing
each item; an item that cannot be parsed is passed over without notice. `splitTexts_joinTexts`
says that nothing is lost, whatever the list: a `TextForm` writes values without commas and white
space and parses what it has written, and it does not take the empty string for a value, which is
what the empty list is written as.
-/

namespace Ndhcpd

/-! ### Trimming -/

/-- `char::is_whitespace`: the Unicode property `White_Space`. -/
def isWhiteSpace (c : Char) : Bool :=
  let n := c.toNat
  (9 ≤ n && n ≤ 13) || n == 0x20 || n == 0x85 || n == 0xA0 || n == 0x1680 ||
    (0x2000 ≤ n && n ≤ 0x200A) || n == 0x2028 || n == 0x2029 || n == 0x202F || n == 0x205F ||
    n == 0x3000

/-- `str::trim`. -/
def trim (text : List Char) : List Char :=
  ((text.dropWhile isWhiteSpace).reverse.dropWhile isWhiteSpace).reverse

private theorem dropWhile_eq_self {text : List Char} (h : ∀ c ∈ text, isWhiteSpace c = false) :
    text.dropWhile isWhiteSpace = text := by
  cases text with
  | nil => rfl
  | cons c cs => rw [List.dropWhile_cons_of_neg (by simp [h c List.mem_cons_self])]

/-- There is nothing to trim in a text without white space. -/
theorem trim_eq_self {text : List Char} (h : ∀ c ∈ text, isWhiteSpace c = false) :
    trim text = text := by
  have hreverse : ∀ c ∈ text.reverse, isWhiteSpace c = false :=
    fun c hc => h c (List.mem_reverse.mp hc)
  rw [trim, dropWhile_eq_self h, dropWhile_eq_self hreverse, List.reverse_reverse]

/-- The characters of a joined text are those of the parts and of the separator. -/
theorem mem_of_mem_intercalate {α : Type} {sep : List α} {parts : List (List α)} {a : α}
    (h : a ∈ sep.intercalate parts) : a ∈ sep ∨ ∃ part ∈ parts, a ∈ part := by
  induction parts with
  | nil => simp at h
  | cons part parts ih =>
    by_cases hne : parts = []
    · subst hne
      rw [List.intercalate_singleton] at h
      exact .inr ⟨part, List.mem_cons_self, h⟩
    · rw [List.intercalate_cons_of_ne_nil hne, List.mem_append, List.mem_append] at h
      rcases h with (h | h) | h
      · exact .inr ⟨part, List.mem_cons_self, h⟩
      · exact .inl h
      · rcases ih h with h | ⟨part', hpart', h⟩
        · exact .inl h
        · exact .inr ⟨part', List.mem_cons_of_mem part hpart', h⟩

/-! ### Values as text -/

/-- How values are written and parsed: `Display` and `FromStr`. -/
structure TextForm (α : Type) where
  display : α → String
  fromStr : String → Option α
  fromStr_display : ∀ a, fromStr (display a) = some a
  plain : ∀ a, ∀ c ∈ (display a).toList, c ≠ ',' ∧ isWhiteSpace c = false
  fromStr_empty : fromStr "" = none

section

variable {α : Type} (form : TextForm α)

/-- `iter().map(to_string).join(",")`. -/
def joinTexts (values : List α) : String := ",".intercalate (values.map form.display)

/-- `split(',').filter_map(|item| item.trim().parse().ok())`. -/
def splitTexts (text : String) : List α :=
  (text.toList.splitOn ',').filterMap fun item => form.fromStr (String.ofList (trim item))

private theorem fromStr_trim_display (a : α) :
    form.fromStr (String.ofList (trim (form.display a).toList)) = some a := by
  rw [trim_eq_self fun c hc => (form.plain a c hc).2, String.ofList_toList, form.fromStr_display]

/-- The items of a list that is not empty. -/
private theorem splitOn_joinTexts {values : List α} (hne : values ≠ []) :
    (joinTexts form values).toList.splitOn ',' = values.map fun a => (form.display a).toList := by
  have hcomma : ",".toList = [','] := rfl
  rw [joinTexts, String.toList_intercalate, hcomma, List.map_map]
  refine List.splitOn_intercalate ',' (fun item hitem hmem => ?_) (by simpa using hne)
  obtain ⟨a, -, rfl⟩ := List.mem_map.mp hitem
  exact (form.plain a ',' hmem).1 rfl

/-- **Nothing is lost.** -/
theorem splitTexts_joinTexts (values : List α) :
    splitTexts form (joinTexts form values) = values := by
  by_cases hne : values = []
  · -- the empty text is one item, and the item is not a value
    have hitems : (joinTexts form values).toList.splitOn ',' = [[]] := by
      rw [hne]
      rfl
    have hempty : String.ofList (trim []) = "" := rfl
    rw [splitTexts, hitems, List.filterMap_cons, hempty, form.fromStr_empty, hne]
    rfl
  · have hread : ((fun item => form.fromStr (String.ofList (trim item))) ∘
        fun a => (form.display a).toList) = some := by
      funext a
      exact fromStr_trim_display form a
    rw [splitTexts, splitOn_joinTexts form hne, List.filterMap_map, hread, List.filterMap_some]

end

end Ndhcpd
