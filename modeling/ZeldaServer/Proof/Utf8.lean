import ZeldaServer.Lib.Utf8
import ZeldaServer.Spec.Parse
import Mathlib.Data.List.Induction

/-!
# Names in UTF-8

The names of objects are read byte by byte (`utf8Step`). What is accepted is UTF-8: the bytes
encode a text.

* `utf8_run`: the bytes are read up to the end of a character.
* `valid_iff`: `IsStructurallyValidUTF8`.
-/

namespace ZeldaServer

open Lib

/-! ## Reading byte by byte -/

/-- Between two characters. -/
abbrev between : Option (ℕ × UInt8 × UInt8) := some (0, 0x80, 0xBF)

variable {l l' : List UInt8} {a b c : UInt8} {n : ℕ} {lo hi : UInt8}

theorem utf8_none (l : List UInt8) : l.foldl utf8Step none = none := by
  induction l with
  | nil => rfl
  | cons b l ih => exact ih

theorem utf8_follow (hlo : lo ≤ b) (hhi : b ≤ hi) : utf8Step (some (n + 1, lo, hi)) b = some (n, 0x80, 0xBF) := by
  unfold utf8Step
  exact if_pos ⟨hlo, hhi⟩

/-- What follows a byte inside a character. -/
theorem utf8_inside (h : l.foldl utf8Step (some (n + 1, lo, hi)) = between) :
    ∃ b l', l = b :: l' ∧ lo ≤ b ∧ b ≤ hi ∧ l'.foldl utf8Step (some (n, 0x80, 0xBF)) = between := by
  cases l with
  | nil => simp [between] at h
  | cons b l =>
    rw [List.foldl_cons] at h
    by_cases hb : lo ≤ b ∧ b ≤ hi
    · rw [utf8_follow hb.1 hb.2] at h
      exact ⟨b, l, rfl, hb.1, hb.2, h⟩
    · have hnone : utf8Step (some (n + 1, lo, hi)) b = none := if_neg hb
      rw [hnone, utf8_none] at h
      cases h

/-- A character is read. -/
theorem utf8_char (h : CharBytes l) : l.foldl utf8Step between = between := by
  cases h with
  | one ha =>
    simp [utf8Step, ha]
  | @two a b ha hb =>
    have hlead : utf8Step between a = some (1, 0x80, 0xBF) := by
      simp only [utf8Step, UInt8.lt_iff_toNat_lt, UInt8.le_iff_toNat_le, UInt8.reduceToNat] at ha ⊢
      rw [if_neg (by omega), if_neg (by omega), if_pos (by omega)]
    rw [List.foldl_cons, hlead, List.foldl_cons, utf8_follow hb.1 hb.2]
    rfl
  | @three a b c ha hb hc hlong hsurrogate =>
    have hlead : ∃ lo hi, utf8Step between a = some (2, lo, hi) ∧ lo ≤ b ∧ b ≤ hi := by
      simp only [utf8Step, Continues, ← UInt8.toNat_inj, UInt8.lt_iff_toNat_lt, UInt8.le_iff_toNat_le,
        UInt8.reduceToNat] at ha hb hlong hsurrogate ⊢
      rw [if_neg (by omega), if_neg (by omega), if_neg (by omega)]
      split_ifs
      · exact ⟨_, _, rfl, hlong ‹_›, hb.2⟩
      · exact ⟨_, _, rfl, hb.1, Nat.le_of_lt_succ (hsurrogate ‹_›)⟩
      · exact ⟨_, _, rfl, hb.1, hb.2⟩
      all_goals omega
    obtain ⟨lo, hi, hlead, hlo, hhi⟩ := hlead
    rw [List.foldl_cons, hlead, List.foldl_cons, utf8_follow hlo hhi, List.foldl_cons, utf8_follow hc.1 hc.2]
    rfl
  | @four a b c d ha hb hc hd hlong hlarge =>
    have hlead : ∃ lo hi, utf8Step between a = some (3, lo, hi) ∧ lo ≤ b ∧ b ≤ hi := by
      simp only [utf8Step, Continues, ← UInt8.toNat_inj, UInt8.lt_iff_toNat_lt, UInt8.le_iff_toNat_le,
        UInt8.reduceToNat] at ha hb hlong hlarge ⊢
      rw [if_neg (by omega), if_neg (by omega), if_neg (by omega), if_neg (by omega), if_neg (by omega), if_neg (by omega)]
      split_ifs
      · exact ⟨_, _, rfl, hlong ‹_›, hb.2⟩
      · exact ⟨_, _, rfl, hb.1, hb.2⟩
      · exact ⟨_, _, rfl, hb.1, Nat.le_of_lt_succ (hlarge ‹_›)⟩
      all_goals omega
    obtain ⟨lo, hi, hlead, hlo, hhi⟩ := hlead
    rw [List.foldl_cons, hlead, List.foldl_cons, utf8_follow hlo hhi, List.foldl_cons, utf8_follow hc.1 hc.2, List.foldl_cons,
      utf8_follow hd.1 hd.2]
    rfl

/-- Two bytes behind the first one. -/
theorem utf8_three (hinside : l.foldl utf8Step (some (2, lo, hi)) = between) (ha : 0xE0 ≤ a ∧ a < 0xF0)
    (hrange : ∀ b, lo ≤ b → b ≤ hi → Continues b ∧ (a = 0xE0 → 0xA0 ≤ b) ∧ (a = 0xED → b < 0xA0)) :
    ∃ front back, a :: l = front ++ back ∧ CharBytes front ∧ back.foldl utf8Step between = between := by
  obtain ⟨b, l, rfl, hlo, hhi, h⟩ := utf8_inside hinside
  obtain ⟨c, l, rfl, hc, hc', h⟩ := utf8_inside h
  obtain ⟨hb, hlong, hsurrogate⟩ := hrange b hlo hhi
  exact ⟨[a, b, c], l, rfl, .three ha hb ⟨hc, hc'⟩ hlong hsurrogate, h⟩

/-- Three bytes behind the first one. -/
theorem utf8_four (hinside : l.foldl utf8Step (some (3, lo, hi)) = between) (ha : 0xF0 ≤ a ∧ a < 0xF5)
    (hrange : ∀ b, lo ≤ b → b ≤ hi → Continues b ∧ (a = 0xF0 → 0x90 ≤ b) ∧ (a = 0xF4 → b < 0x90)) :
    ∃ front back, a :: l = front ++ back ∧ CharBytes front ∧ back.foldl utf8Step between = between := by
  obtain ⟨b, l, rfl, hlo, hhi, h⟩ := utf8_inside hinside
  obtain ⟨c, l, rfl, hc, hc', h⟩ := utf8_inside h
  obtain ⟨d, l, rfl, hd, hd', h⟩ := utf8_inside h
  obtain ⟨hb, hlong, hlarge⟩ := hrange b hlo hhi
  exact ⟨[a, b, c, d], l, rfl, .four ha hb ⟨hc, hc'⟩ ⟨hd, hd'⟩ hlong hlarge, h⟩

/-- What is read up to the end of a character begins with one. -/
theorem utf8_first (h : (a :: l).foldl utf8Step between = between) :
    ∃ front back, a :: l = front ++ back ∧ CharBytes front ∧ back.foldl utf8Step between = between := by
  rw [List.foldl_cons] at h
  generalize hlead : utf8Step between a = q at h
  unfold utf8Step between at hlead
  simp only [UInt8.lt_iff_toNat_lt, ← UInt8.toNat_inj, UInt8.reduceToNat] at hlead
  split_ifs at hlead
  · rw [← hlead] at h
    exact ⟨[a], l, rfl, .one ‹_›, h⟩
  · rw [← hlead, utf8_none] at h
    cases h
  · rw [← hlead] at h
    obtain ⟨b, l, rfl, hb, hb', h⟩ := utf8_inside h
    refine ⟨[a, b], l, rfl, .two ?_ ⟨hb, hb'⟩, h⟩
    simp only [UInt8.lt_iff_toNat_lt, UInt8.le_iff_toNat_le, UInt8.reduceToNat]
    omega
  iterate 3
    rw [← hlead] at h
    refine utf8_three h ?_ fun b hlo hhi => ?_
    · simp only [UInt8.lt_iff_toNat_lt, UInt8.le_iff_toNat_le, UInt8.reduceToNat]
      omega
    · simp only [Continues, ← UInt8.toNat_inj, UInt8.lt_iff_toNat_lt, UInt8.le_iff_toNat_le, UInt8.reduceToNat] at hlo hhi ⊢
      omega
  iterate 3
    rw [← hlead] at h
    refine utf8_four h ?_ fun b hlo hhi => ?_
    · simp only [UInt8.lt_iff_toNat_lt, UInt8.le_iff_toNat_le, UInt8.reduceToNat]
      omega
    · simp only [Continues, ← UInt8.toNat_inj, UInt8.lt_iff_toNat_lt, UInt8.le_iff_toNat_le, UInt8.reduceToNat] at hlo hhi ⊢
      omega
  · rw [← hlead, utf8_none] at h
    cases h

/-- What is read up to the end of a character is a text. -/
theorem utf8_run : l.foldl utf8Step between = between ↔ Utf8 l := by
  constructor
  · induction hn : l.length using Nat.strongRecOn generalizing l with
    | ind n ih =>
      intro h
      cases l with
      | nil => exact utf8_nil
      | cons a l =>
        obtain ⟨front, back, heq, hfront, hback⟩ := utf8_first h
        have hshorter : back.length < n := by
          have hlength := congrArg List.length heq
          rw [List.length_append] at hlength
          have hpos : 0 < front.length := List.length_pos_iff.2 hfront.ne_nil
          omega
        rw [heq]
        exact hfront.append (ih back.length hshorter rfl hback)
  · intro h
    refine h.induct (P := fun l => l.foldl utf8Step between = between) rfl fun l l' hl _ ih => ?_
    rw [List.foldl_append, utf8_char hl, ih]

/-- Behind a character, any one may follow. -/
theorem utf8Step_zero {q : Option (ℕ × UInt8 × UInt8)} {x : UInt8 × UInt8} (h : utf8Step q b = some (0, x)) :
    utf8Step q b = between := by
  rw [h]
  rcases q with _ | ⟨_ | n, lo, hi⟩
  · cases h
  · simp only [utf8Step] at h
    split_ifs at h <;> simp_all
  · simp only [utf8Step] at h
    split_ifs at h
    simp_all

theorem utf8_zero {x : UInt8 × UInt8} (h : l.foldl utf8Step between = some (0, x)) : l.foldl utf8Step between = between := by
  induction l using List.reverseRecOn with
  | nil => rfl
  | append_singleton l b _ =>
    rw [List.foldl_append, List.foldl_cons, List.foldl_nil] at h ⊢
    exact utf8Step_zero h

/-- **What is accepted byte by byte is UTF-8.** -/
theorem valid_iff (l : List UInt8) : isStructurallyValidUTF8 l = true ↔ Utf8 l := by
  rw [← utf8_run]
  unfold isStructurallyValidUTF8
  constructor
  · intro h
    split at h
    · rename_i x hx
      exact utf8_zero hx
    · cases h
  · intro h
    rw [show l.foldl utf8Step (some (0, 0x80, 0xBF)) = between from h]
    rfl

end ZeldaServer
