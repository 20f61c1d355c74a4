import Mathlib.Data.List.TakeWhile
import Mathlib.Tactic.Common

/-!
# The words of a text

What stands between the separators of a text, as a reader finds it that skips separators
and then reads up to the next one.

* `words_dropWhile`, `words_next`: the text after a word has the words after it.
* `words_join`: words that are written with separators are the words of the text.
-/

namespace Lib

variable {α : Type} {sep : α → Bool} {text word rest : List α} {a : α}

/-- The words of a text: its pieces between separators that are not empty. -/
def words (sep : α → Bool) (text : List α) : List (List α) := (text.splitOnP sep).filter fun piece => !piece.isEmpty

theorem words_sep (h : sep a = true) : words sep (a :: text) = words sep text := by
  unfold words
  rw [List.splitOnP_cons_eq_if_modifyHead, if_pos h]
  rfl

/-- Separators at the beginning are skipped. -/
theorem words_dropWhile : words sep (text.dropWhile sep) = words sep text := by
  induction text with
  | nil => rfl
  | cons a text ih =>
    by_cases h : sep a = true
    · rw [List.dropWhile_cons_of_pos h, ih, words_sep h]
    · rw [List.dropWhile_cons_of_neg h]

/-- A word that ends with the text, or before a separator. -/
theorem words_append (hne : word ≠ []) (hword : ∀ a ∈ word, sep a = false) (hrest : ∀ a ∈ rest.head?, sep a = true) :
    words sep (word ++ rest) = word :: words sep rest := by
  cases rest with
  | nil => simp [words, List.splitOnP_eq_singleton hword, hne]
  | cons b rest =>
    have hb : sep b = true := hrest b rfl
    rw [words_sep hb]
    simp [words, List.splitOnP_append_cons_of_forall_mem hword b hb, hne]

/-- The first word of a text that begins with one. -/
theorem words_next (h : sep a = false) : words sep (a :: text) =
    (a :: text).takeWhile (fun b => !sep b) :: words sep ((a :: text).dropWhile fun b => !sep b) := by
  have hhead : (fun b => !sep b) a = true := by simpa using h
  conv_lhs => rw [← List.takeWhile_append_dropWhile (p := fun b => !sep b) (l := a :: text)]
  refine words_append ?_ ?_ ?_
  · rw [List.takeWhile_cons_of_pos (p := fun b => !sep b) hhead]
    exact List.cons_ne_nil _ _
  · intro b hb
    simpa using List.mem_takeWhile_imp hb
  · intro b hb
    have hstop := List.head?_dropWhile_not (fun b => !sep b) (a :: text)
    rw [Option.mem_def.1 hb] at hstop
    simpa using hstop

/-- **Words that are written one after the other**, each behind a separator. -/
theorem words_join {l : List (List α)} (hsep : sep a = true) (hl : ∀ word ∈ l, word ≠ [] ∧ ∀ b ∈ word, sep b = false) :
    words sep (l.flatMap (a :: ·)) = l := by
  induction l with
  | nil => rfl
  | cons word l ih =>
    obtain ⟨hne, hword⟩ := hl word List.mem_cons_self
    have hrest : ∀ b ∈ (l.flatMap (a :: ·)).head?, sep b = true := by
      cases l with
      | nil => simp
      | cons word' l => simpa using hsep
    rw [List.flatMap_cons, List.cons_append, words_sep hsep, words_append hne hword hrest,
      ih fun word' h => hl word' (List.mem_cons_of_mem _ h)]

end Lib
