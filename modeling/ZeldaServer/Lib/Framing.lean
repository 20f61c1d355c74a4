import ZeldaServer.Lib.Outcome
import Mathlib.Data.List.Basic
import Mathlib.Data.List.Infix

/-!
# Length-prefixed streams

A `Format` says how long a frame is from its first `header` symbols. `Cut p xs fs
rest` says that cutting complete frames off the front of `xs` gives `fs` and stops
at `rest`.

* `Cut.append`: a stream can be cut piece by piece, what is left of one piece going
  in front of the next. So the frames do not depend on where the pieces end.
* `cut_initial`: of a prefix of a stream of frames, exactly the frames it contains
  are cut off.
-/

namespace Lib

variable {α : Type}

/-- A frame format: the size of a frame is read off its first `header` symbols. -/
structure Format (α : Type) where
  header : ℕ
  size : List α → ℕ
  size_append : ∀ xs ys, header ≤ xs.length → size (xs ++ ys) = size xs

variable (p : Format α)

/-- Not enough symbols for a header, or for the frame its header announces. -/
def Format.Short (xs : List α) : Prop := xs.length < p.header ∨ xs.length < p.size xs

instance (xs : List α) : Decidable (p.Short xs) :=
  inferInstanceAs (Decidable (xs.length < p.header ∨ xs.length < p.size xs))

/-- Cutting frames off the front of a list until it is too short. -/
inductive Cut : List α → List (List α) → List α → Prop
  | stop {xs : List α} : p.Short xs → Cut xs [] xs
  | next {xs : List α} {fs : List (List α)} {rest : List α} : ¬ p.Short xs →
      Cut (xs.drop (p.size xs)) fs rest → Cut xs (xs.take (p.size xs) :: fs) rest

/-- A list that is exactly one frame. -/
structure Format.IsFrame (f : List α) : Prop where
  header_le : p.header ≤ f.length
  size_eq : p.size f = f.length
  pos : 0 < f.length

/-- The frames of `fs` that lie wholly within the first `n` symbols of the stream. -/
def contained : List (List α) → ℕ → List (List α)
  | [], _ => []
  | f :: fs, n => if f.length ≤ n then f :: contained fs (n - f.length) else []

variable {p} {xs ys rest rest' f : List α} {fs gs : List (List α)}

theorem Cut.join (h : Cut p xs fs rest) : xs = fs.flatten ++ rest := by
  induction h with
  | stop _ => simp
  | next _ _ ih => rw [List.flatten_cons, List.append_assoc, ← ih, List.take_append_drop]

theorem Cut.short (h : Cut p xs fs rest) : p.Short rest := by
  induction h with
  | stop hs => exact hs
  | next _ _ ih => exact ih

theorem Cut.rest_le (h : Cut p xs fs rest) : rest.length ≤ xs.length := by
  rw [h.join, List.length_append]; omega

/-- A list is cut in one way only. -/
theorem Cut.unique (h : Cut p xs fs rest) (h' : Cut p xs gs rest') : fs = gs ∧ rest = rest' := by
  induction h generalizing gs with
  | stop hs =>
    cases h' with
    | stop _ => exact ⟨rfl, rfl⟩
    | next hn _ => exact absurd hs hn
  | next hn _ ih =>
    cases h' with
    | stop hs => exact absurd hs hn
    | next _ h2 =>
      obtain ⟨h3, h4⟩ := ih h2
      exact ⟨by rw [h3], h4⟩

/-- A list that is long enough for its first frame still is when more follows. -/
theorem Format.not_short_append (ys : List α) (h : ¬ p.Short xs) :
    ¬ p.Short (xs ++ ys) ∧ p.size (xs ++ ys) = p.size xs ∧ p.size xs ≤ xs.length := by
  simp only [Format.Short, not_or, not_lt] at h ⊢
  rw [p.size_append xs ys h.1, List.length_append]
  exact ⟨⟨by omega, by omega⟩, rfl, h.2⟩

/-- **Cutting piece by piece.** What is left of the first piece goes in front of the
second. -/
theorem Cut.append (h : Cut p xs fs rest) (h' : Cut p (rest ++ ys) gs rest') :
    Cut p (xs ++ ys) (fs ++ gs) rest' := by
  induction h with
  | stop _ => exact h'
  | next hn _ ih =>
    obtain ⟨h1, h2, h3⟩ := Format.not_short_append ys hn
    have hd := ih h'
    rw [← List.drop_append_of_le_length h3, ← h2] at hd
    have hc := Cut.next h1 hd
    rw [h2, List.take_append_of_le_length h3] at hc
    exact hc

/-- The converse of `Cut.append`: the cut of a whole stream continues the cut of its
first piece. -/
theorem Cut.append_inv (h : Cut p xs fs rest) (h' : Cut p (xs ++ ys) gs rest') :
    ∃ hs, gs = fs ++ hs ∧ Cut p (rest ++ ys) hs rest' := by
  induction h generalizing gs with
  | stop _ => exact ⟨gs, rfl, h'⟩
  | next hn _ ih =>
    obtain ⟨h1, h2, h3⟩ := Format.not_short_append ys hn
    cases h' with
    | stop hs => exact absurd hs h1
    | next _ h4 =>
      rw [h2, List.drop_append_of_le_length h3] at h4
      obtain ⟨hs, rfl, h5⟩ := ih h4
      exact ⟨hs, by rw [h2, List.take_append_of_le_length h3]; rfl, h5⟩

/-- A frame at the front is cut off. -/
theorem Cut.frame (hf : p.IsFrame f) (h : Cut p ys gs rest) : Cut p (f ++ ys) (f :: gs) rest := by
  have hs : p.size (f ++ ys) = f.length := (p.size_append f ys hf.header_le).trans hf.size_eq
  have hn : ¬ p.Short (f ++ ys) := by
    have := hf.header_le
    simp only [Format.Short, hs, List.length_append]; omega
  have hc := Cut.next hn (show Cut p ((f ++ ys).drop (p.size (f ++ ys))) gs rest by
    rw [hs]; simpa using h)
  rw [hs, List.take_left' rfl] at hc
  exact hc

/-- A proper prefix of a frame is too short. -/
theorem Format.short_initial (hf : p.IsFrame f) (h : xs <+: f) (hlt : xs.length < f.length) :
    p.Short xs := by
  obtain ⟨ys, rfl⟩ := h
  by_cases hh : p.header ≤ xs.length
  · right; rw [← p.size_append xs ys hh, hf.size_eq]; exact hlt
  · left; omega

/-- **Prefixes of a stream of frames.** Exactly the frames contained in the prefix are
cut off, and the rest of the prefix is left. -/
theorem cut_initial (hfs : ∀ f ∈ fs, p.IsFrame f) (hpos : 0 < p.header) (h : xs <+: fs.flatten) :
    Cut p xs (contained fs xs.length) (xs.drop (contained fs xs.length).flatten.length) := by
  induction fs generalizing xs with
  | nil =>
    have hx : xs = [] := by simpa using h
    subst hx
    exact .stop (Or.inl hpos)
  | cons f fs ih =>
    have hf := hfs f List.mem_cons_self
    have hfs' := fun g hg => hfs g (List.mem_cons_of_mem f hg)
    rw [List.flatten_cons] at h
    unfold contained
    split
    · rename_i hle
      obtain ⟨ys, rfl⟩ : f <+: xs := List.prefix_of_prefix_length_le (List.prefix_append _ _) h hle
      have hys : ys <+: fs.flatten := (List.prefix_append_right_inj f).1 h
      rw [List.length_append, Nat.add_sub_cancel_left, List.flatten_cons, List.length_append,
        List.drop_append, List.drop_eq_nil_of_le (by omega), List.nil_append, Nat.add_sub_cancel_left]
      exact (ih hfs' hys).frame hf
    · rename_i hlt
      have hpre : xs <+: f := List.prefix_of_prefix_length_le h (List.prefix_append _ _) (by omega)
      exact .stop (Format.short_initial hf hpre (by omega))

theorem contained_subset (fs : List (List α)) (n : ℕ) : contained fs n ⊆ fs := by
  induction fs generalizing n with
  | nil => simp [contained]
  | cons f fs ih =>
    unfold contained
    split
    · exact List.cons_subset_cons f (ih _)
    · exact List.nil_subset _

/-- Nonempty frames are no more than their symbols. -/
theorem length_le_flatten (h : ∀ f ∈ fs, 0 < f.length) : fs.length ≤ fs.flatten.length := by
  induction fs with
  | nil => simp
  | cons f fs ih =>
    have h1 := h f List.mem_cons_self
    have h2 := ih fun g hg => h g (List.mem_cons_of_mem f hg)
    rw [List.flatten_cons, List.length_append, List.length_cons]
    omega

/-- All the frames are contained in the whole stream. -/
theorem contained_all (fs : List (List α)) : contained fs fs.flatten.length = fs := by
  induction fs with
  | nil => rfl
  | cons f fs ih =>
    rw [contained, List.flatten_cons, List.length_append, if_pos (by omega), Nat.add_sub_cancel_left, ih]

end Lib
