import Ventilation.Text.Blank
import Mathlib.Data.List.DropRight

namespace Ventilation
namespace Text

/-!
# The ends of a text

What is taken away at the end of a text does not depend on how much of it there
is.  Text without the white space at both of its ends is told by what is around
it and by where it begins and ends itself.
-/

/-- More of what is taken away at the end changes nothing. -/
theorem rdropWhile_append_of_pos {α : Type} {unwanted : α → Bool} {back : List α}
    (after : ∀ last ∈ back, unwanted last = true) (text : List α) :
    (text ++ back).rdropWhile unwanted = text.rdropWhile unwanted := by
  have turned : ∀ last ∈ back.reverse, unwanted last = true := by
    intro last among
    exact after last (List.mem_reverse.mp among)
  rw [List.rdropWhile, List.reverse_append, List.dropWhile_append_of_pos turned, List.rdropWhile]

/-! ## White space -/

variable {text word front back : List Char}

/-- Some text without the white space at both of its ends. -/
structure Trimmed (text word : List Char) : Prop where
  within : ∃ front back, text = front ++ word ++ back ∧
    (∀ c ∈ front, isBlank c = true) ∧ ∀ c ∈ back, isBlank c = true
  first : ∀ c ∈ word.head?, isBlank c = false
  last : ∀ c ∈ word.getLast?, isBlank c = false

theorem trim_eq (text : List Char) :
    trim text = (text.dropWhile isBlank).rdropWhile isBlank := rfl

/-- White space around some text is not part of what is left of it. -/
theorem trim_around (before : ∀ c ∈ front, isBlank c = true)
    (after : ∀ c ∈ back, isBlank c = true) : trim (front ++ text ++ back) = trim text := by
  rw [trim_eq, trim_eq, List.append_assoc, List.dropWhile_append_of_pos before,
    List.dropWhile_append]
  split
  · next empty =>
    rw [List.dropWhile_eq_nil_iff.mpr after, List.isEmpty_iff.mp empty]
  · exact rdropWhile_append_of_pos after _

theorem trimmed_trim (text : List Char) : Trimmed text (trim text) := by
  rw [trim_eq]
  refine ⟨⟨text.takeWhile isBlank, (text.dropWhile isBlank).rtakeWhile isBlank, ?_, ?_, ?_⟩, ?_, ?_⟩
  · rw [List.append_assoc, List.rdropWhile_append_rtakeWhile, List.takeWhile_append_dropWhile]
  · intro c among
    exact List.mem_takeWhile_imp among
  · intro c among
    exact List.mem_rtakeWhile_imp among
  · -- What is left begins where the text without its beginning does.
    intro c first
    rcases List.rdropWhile_prefix isBlank (text.dropWhile isBlank) with ⟨rest, whole⟩
    have head : (text.dropWhile isBlank).head? = some c := by
      rw [← whole, List.head?_append, first]
      rfl
    have clear := List.head?_dropWhile_not isBlank text
    rw [head] at clear
    exact clear
  · intro c last
    rcases List.mem_getLast?_eq_getLast last with ⟨filled, rfl⟩
    exact Bool.eq_false_iff.mpr (List.rdropWhile_last_not isBlank _ filled)

theorem Trimmed.trim_eq_self (trimmed : Trimmed text word) : trim word = word := by
  rcases trimmed with ⟨-, first, last⟩
  cases word with
  | nil => rfl
  | cons c rest =>
    have clear : ¬ isBlank c = true := Bool.eq_false_iff.mp (first c rfl)
    rw [trim_eq, List.dropWhile_cons_of_neg clear, List.rdropWhile_eq_self_iff]
    intro filled
    exact Bool.eq_false_iff.mp (last _ (List.getLast_mem_getLast? filled))

theorem trim_eq_iff : trim text = word ↔ Trimmed text word := by
  constructor
  · rintro rfl
    exact trimmed_trim text
  · intro trimmed
    rcases trimmed.within with ⟨front, back, rfl, before, after⟩
    rw [trim_around before after, trimmed.trim_eq_self]

theorem trim_eq_nil_iff : trim text = [] ↔ ∀ c ∈ text, isBlank c = true := by
  rw [trim_eq_iff]
  constructor
  · rintro ⟨⟨front, back, rfl, before, after⟩, -, -⟩
    intro c among
    rw [List.append_nil] at among
    rcases List.mem_append.mp among with early | late
    · exact before c early
    · exact after c late
  · intro blank
    exact ⟨⟨text, [], by simp, blank, by simp⟩, by simp, by simp⟩

end Text
end Ventilation
