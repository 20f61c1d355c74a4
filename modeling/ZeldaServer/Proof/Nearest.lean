import ZeldaServer.Proof.FindPath

/-!
# The cell to walk to

When `dest` was not found, the scan of `best` picks a cell of least score, of these one
nearest to `src`, and of these the first in the order of the map. The scores are compared
as `float`s, which are exact for small scores.

* `nearest_preferred`: the cell that is picked, whatever the scores.
* `nearest_beats`: for small scores.
-/

namespace ZeldaServer

open Std

/-- The scored cell `a` outranks `b`, when `score` reads the scores. -/
def Outranks (score : Int32 → ℤ) (src : VectorInt) (a b : VectorInt × Int32) : Prop :=
  score a.2 < score b.2 ∨ score a.2 = score b.2 ∧
    ((a.1.sub src).taxicab.toInt < (b.1.sub src).taxicab.toInt ∨
      (a.1.sub src).taxicab.toInt = (b.1.sub src).taxicab.toInt ∧ (a = b ∨ compare a.1 b.1 = .lt))

/-- The scored cell `a` goes before `b`. -/
def Beats : VectorInt → VectorInt × Int32 → VectorInt × Int32 → Prop := Outranks Int32.toInt

/-- A score as the scan compares it. -/
def asFloat (v : Int32) : ℤ := toFloat v.toInt

/-- The scan prefers the scored cell `a` to `b`. -/
def Preferred : VectorInt → VectorInt × Int32 → VectorInt × Int32 → Prop := Outranks asFloat

variable {src dest : VectorInt}

theorem Outranks.refl {score : Int32 → ℤ} (a : VectorInt × Int32) : Outranks score src a a := .inr ⟨rfl, .inr ⟨rfl, .inl rfl⟩⟩

theorem Outranks.antisymm {score : Int32 → ℤ} {a b : VectorInt × Int32} (h : Outranks score src a b) (h' : Outranks score src b a) :
    a = b := by
  unfold Outranks at h h'
  rcases h with h | ⟨h1, h | ⟨h2, heq | hlt⟩⟩
  · omega
  · omega
  · exact heq
  · rcases h' with h' | ⟨h1', h' | ⟨h2', heq | hlt'⟩⟩
    · omega
    · omega
    · exact heq.symm
    · have hswap : compare b.1 a.1 = (compare a.1 b.1).swap := OrientedCmp.eq_swap
      rw [hlt, hlt'] at hswap
      exact absurd hswap (by decide)

theorem toFloat_small {n : ℤ} (h : n.natAbs < 2 ^ 24) : toFloat n = n := by
  unfold toFloat
  exact if_pos h

/-- Small scores are exact. -/
theorem preferred_iff {a b : VectorInt × Int32} (ha : a.2.toInt.natAbs < 2 ^ 24) (hb : b.2.toInt.natAbs < 2 ^ 24) :
    Preferred src a b ↔ Beats src a b := by
  unfold Preferred Beats Outranks asFloat
  rw [toFloat_small ha, toFloat_small hb]

/-- The body of the scan, at the scored cell `p`. -/
def scan (src : VectorInt) (acc : ℤ × VectorInt) (p : VectorInt × Int32) : ℤ × VectorInt :=
  if acc.1 = toFloat p.2.toInt then
    if (acc.2.sub src).taxicab > (p.1.sub src).taxicab then (acc.1, p.1) else acc
  else if acc.1 > toFloat p.2.toInt then (toFloat p.2.toInt, p.1) else acc

theorem nearest_eq (best : TreeMap VectorInt Int32) :
    nearest src dest best = (best.toList.foldl (scan src) (FLT_MAX, dest)).2 := rfl

/-- The scan, when the cells `before` have been passed and `t` is the best of them. -/
theorem scan_preferred {before l : List (VectorInt × Int32)} {t : VectorInt × Int32}
    (hsorted : (before ++ l).Pairwise fun a b => compare a.1 b.1 = .lt)
    (ht : t ∈ before) (hbest : ∀ p ∈ before, Preferred src t p) :
    ∃ t' ∈ before ++ l, (l.foldl (scan src) (asFloat t.2, t.1)).2 = t'.1 ∧ ∀ p ∈ before ++ l, Preferred src t' p := by
  induction l generalizing before t with
  | nil =>
    rw [List.append_nil]
    exact ⟨t, ht, rfl, hbest⟩
  | cons q l ih =>
    have hsplit : before ++ q :: l = (before ++ [q]) ++ l := by rw [List.append_assoc]; rfl
    have hlt : compare t.1 q.1 = .lt := by
      rw [List.pairwise_append] at hsorted
      exact hsorted.2.2 t ht q List.mem_cons_self
    rw [hsplit] at hsorted ⊢
    -- what is kept, or put in its place, is the best so far
    have hkeep : Preferred src t q → ∀ p ∈ before ++ [q], Preferred src t p := by
      intro htq p hp
      rw [List.mem_append, List.mem_singleton] at hp
      rcases hp with hp | heq
      · exact hbest p hp
      · rw [heq]
        exact htq
    have htake : asFloat q.2 < asFloat t.2 ∨
        asFloat q.2 = asFloat t.2 ∧ (q.1.sub src).taxicab.toInt < (t.1.sub src).taxicab.toInt →
        ∀ p ∈ before ++ [q], Preferred src q p := by
      intro hqt p hp
      rw [List.mem_append, List.mem_singleton] at hp
      rcases hp with hp | heq
      · rcases hbest p hp with h | ⟨h, h' | ⟨h', -⟩⟩
        · exact .inl (by omega)
        · rcases hqt with hqt | ⟨hqt, hd⟩
          · exact .inl (by omega)
          · exact .inr ⟨by omega, .inl (by omega)⟩
        · rcases hqt with hqt | ⟨hqt, hd⟩
          · exact .inl (by omega)
          · exact .inr ⟨by omega, .inl (by omega)⟩
      · rw [heq]
        exact .refl q
    have hkept : Preferred src t q → ∃ t' ∈ (before ++ [q]) ++ l,
        (l.foldl (scan src) (asFloat t.2, t.1)).2 = t'.1 ∧ ∀ p ∈ (before ++ [q]) ++ l, Preferred src t' p := by
      intro htq
      exact ih hsorted (List.mem_append_left _ ht) (hkeep htq)
    have hnew := ih (t := q) hsorted (by simp)
    rw [List.foldl_cons]
    have hstep : scan src (asFloat t.2, t.1) q = (if asFloat t.2 = asFloat q.2 then
        if (t.1.sub src).taxicab > (q.1.sub src).taxicab then (asFloat t.2, q.1) else (asFloat t.2, t.1)
      else if asFloat t.2 > asFloat q.2 then (asFloat q.2, q.1) else (asFloat t.2, t.1)) := rfl
    rw [hstep]
    split
    · rename_i hscore
      split
      · rename_i hnear
        rw [hscore]
        exact hnew (htake (.inr ⟨hscore.symm, Int32.lt_iff_toInt_lt.1 hnear⟩))
      · rename_i hnear
        have hle : (t.1.sub src).taxicab.toInt ≤ (q.1.sub src).taxicab.toInt := by
          rw [← Int32.le_iff_toInt_le]
          exact Int32.not_lt.1 hnear
        apply hkept
        rcases Int.lt_or_eq_of_le hle with hd | hd
        · exact .inr ⟨hscore, .inl hd⟩
        · exact .inr ⟨hscore, .inr ⟨hd, .inr hlt⟩⟩
    · rename_i hscore
      split
      · rename_i hless
        exact hnew (htake (.inl hless))
      · rename_i hless
        apply hkept
        left
        omega

/-- **The nearest cell is preferred to every scored cell.** -/
theorem nearest_preferred {best : TreeMap VectorInt Int32} (hsome : ∃ c, best[src]? = some c) :
    ∃ v, best[nearest src dest best]? = some v ∧
      ∀ (c : VectorInt) (u : Int32), best[c]? = some u → Preferred src (nearest src dest best, v) (c, u) := by
  have hmem : ∀ p : VectorInt × Int32, p ∈ best.toList ↔ best[p.1]? = some p.2 := fun p =>
    TreeMap.mem_toList_iff_getElem?_eq_some
  have hsorted : best.toList.Pairwise fun a b => compare a.1 b.1 = .lt := best.ordered_keys_toList
  obtain ⟨c, hc⟩ := hsome
  have hne := List.ne_nil_of_mem ((hmem (src, c)).2 hc)
  rw [nearest_eq]
  cases hlist : best.toList with
  | nil => exact absurd hlist hne
  | cons p l =>
    rw [hlist] at hsorted
    -- the first cell is taken
    have hlt := toFloat_lt p.2
    have hfirst : scan src (FLT_MAX, dest) p = (asFloat p.2, p.1) := by
      unfold scan
      rw [if_neg (Int.ne_of_gt hlt), if_pos hlt]
      rfl
    rw [List.foldl_cons, hfirst]
    have hself : ∀ q ∈ [p], Preferred src p q := by
      intro q hq
      rw [List.mem_singleton.1 hq]
      exact .refl _
    obtain ⟨t, ht, heq, hbest⟩ := scan_preferred hsorted List.mem_cons_self hself
    rw [heq]
    rw [List.singleton_append, ← hlist] at ht hbest
    refine ⟨t.2, (hmem t).1 ht, ?_⟩
    intro c u hu
    exact hbest (c, u) ((hmem (c, u)).2 hu)

/-- Where the scores are exact, it beats every scored cell. -/
theorem nearest_beats {best : TreeMap VectorInt Int32}
    (hsmall : ∀ (c : VectorInt) (v : Int32), best[c]? = some v → v.toInt.natAbs < 2 ^ 24)
    (hsome : ∃ c, best[src]? = some c) :
    ∃ v, best[nearest src dest best]? = some v ∧
      ∀ (c : VectorInt) (u : Int32), best[c]? = some u → Beats src (nearest src dest best, v) (c, u) := by
  obtain ⟨v, hv, hbest⟩ : ∃ v, best[nearest src dest best]? = some v ∧ _ := nearest_preferred hsome
  refine ⟨v, hv, ?_⟩
  intro c u hu
  exact (preferred_iff (hsmall _ v hv) (hsmall c u hu)).1 (hbest c u hu)

end ZeldaServer
