import ZeldaServer.Lib.RangeFor
import Mathlib.Data.List.Induction
import Mathlib.Order.WithBot

/-!
# The first least element of an ordered map

A scan that keeps a value when it is strictly less than the best so far ends with the least
value of the map, and of these with the one of the least key.

* `FirstLeast`: what is found.
* `scan_firstLeast`: the scan finds it.
-/

namespace Lib

open Std (TreeMap TransOrd LawfulEqOrd LawfulEqCmp OrientedCmp compare_self)

variable {κ α β : Type} [Ord κ] [LinearOrder β] {m : TreeMap κ α} {f g : α → β} {k k' : κ} {a a' : α}
  {top : β}

/-- The element `a` at key `k` has the least value, and of these the least key. -/
structure FirstLeast (m : TreeMap κ α) (f : α → β) (k : κ) (a : α) : Prop where
  mem : m[k]? = some a
  least : ∀ (k' : κ) (a' : α), m[k']? = some a' → f a < f a' ∨ f a = f a' ∧ (compare k k').isLE

/-- It depends on the values at the elements of the map. -/
theorem FirstLeast.congr (hfg : ∀ (k : κ) (a : α), m[k]? = some a → f a = g a) (h : FirstLeast m f k a) : FirstLeast m g k a := by
  refine ⟨h.mem, ?_⟩
  intro k' a' hmem
  rw [← hfg k a h.mem, ← hfg k' a' hmem]
  exact h.least k' a' hmem

/-- One step of the scan: what has been found so far, with its value. -/
def keepLess (f : α → β) (acc : β × Option α) (a : α) : β × Option α := if f a < acc.1 then (f a, some a) else acc

variable [TransOrd κ] [LawfulEqOrd κ]

/-- There is one first least element. -/
theorem FirstLeast.unique (h : FirstLeast m f k a) (h' : FirstLeast m f k' a') : k = k' ∧ a = a' := by
  have hkey : k = k' := by
    rcases h.least k' a' h'.mem with hlt | ⟨heq, hle⟩
    · rcases h'.least k a h.mem with hlt' | ⟨heq', -⟩
      · exact absurd hlt (lt_asymm hlt')
      · exact absurd heq'.symm hlt.ne
    · rcases h'.least k a h.mem with hlt' | ⟨-, hle'⟩
      · exact absurd heq.symm hlt'.ne
      · exact LawfulEqCmp.eq_of_compare (OrientedCmp.isLE_antisymm hle hle')
  refine ⟨hkey, ?_⟩
  have hmem := h.mem
  rw [hkey, h'.mem] at hmem
  exact (Option.some.inj hmem).symm

omit [TransOrd κ] in
/-- The scan of a list with ascending keys. -/
theorem scan_list (l : List (κ × α)) (hne : l ≠ []) (hsorted : l.Pairwise fun p q => compare p.1 q.1 = .lt)
    (htop : ∀ p ∈ l, f p.2 < top) : ∃ p ∈ l, (l.map Prod.snd).foldl (keepLess f) (top, none) = (f p.2, some p.2) ∧
      ∀ q ∈ l, f p.2 < f q.2 ∨ f p.2 = f q.2 ∧ (compare p.1 q.1).isLE := by
  induction l using List.reverseRecOn with
  | nil => exact absurd rfl hne
  | append_singleton l q ih =>
    have hself : f q.2 < f q.2 ∨ f q.2 = f q.2 ∧ (compare q.1 q.1).isLE := .inr ⟨rfl, by rw [compare_self]; rfl⟩
    rw [List.map_append, List.foldl_append]
    by_cases hl : l = []
    · -- the first element is less than the bound
      subst hl
      refine ⟨q, List.mem_singleton_self q, if_pos (htop q (List.mem_singleton_self q)), ?_⟩
      intro q' hq'
      rw [List.mem_singleton.1 hq']
      exact hself
    obtain ⟨hbefore, -, hlater⟩ := List.pairwise_append.1 hsorted
    obtain ⟨p, hp, hscan, hleast⟩ := ih hl hbefore fun p hp => htop p (List.mem_append_left _ hp)
    rw [hscan]
    by_cases hless : f q.2 < f p.2
    · refine ⟨q, List.mem_append_right _ (List.mem_singleton_self q), if_pos hless, ?_⟩
      intro q' hq'
      rcases List.mem_append.1 hq' with hq' | hq'
      · left
        rcases hleast q' hq' with hlt | ⟨heq, -⟩
        · exact hless.trans hlt
        · exact heq ▸ hless
      · rw [List.mem_singleton.1 hq']
        exact hself
    · refine ⟨p, List.mem_append_left _ hp, if_neg hless, ?_⟩
      intro q' hq'
      rcases List.mem_append.1 hq' with hq' | hq'
      · exact hleast q' hq'
      · have hlt := hlater p hp q (List.mem_singleton_self q)
        rw [List.mem_singleton.1 hq']
        rcases lt_or_eq_of_le (not_lt.1 hless) with hf | hf
        · exact .inl hf
        · exact .inr ⟨hf, by rw [hlt]; rfl⟩

/-- **The scan** of a map that is not empty finds its first least element. -/
theorem scan_firstLeast (hmem : m[k]? = some a) (htop : ∀ a ∈ elements m, f a < top) :
    ∃ k a, FirstLeast m f k a ∧ (elements m).foldl (keepLess f) (top, none) = (f a, some a) := by
  have hlist : ∀ p : κ × α, p ∈ m.toList ↔ m[p.1]? = some p.2 := fun p => TreeMap.mem_toList_iff_getElem?_eq_some
  have hne : m.toList ≠ [] := List.ne_nil_of_mem ((hlist (k, a)).2 hmem)
  obtain ⟨p, hp, hscan, hleast⟩ := scan_list m.toList hne m.ordered_keys_toList fun p hp => htop p.2 (List.mem_map_of_mem hp)
  refine ⟨p.1, p.2, ⟨(hlist p).1 hp, ?_⟩, hscan⟩
  intro k' a' hmem'
  exact hleast (k', a') ((hlist (k', a')).2 hmem')

/-- A map that is not empty has a first least element. -/
theorem firstLeast_exists (hmem : m[k]? = some a) : ∃ k a, FirstLeast m f k a := by
  obtain ⟨k', a', h, -⟩ := scan_firstLeast (f := fun a => (f a : WithTop β)) hmem fun a _ => WithTop.coe_lt_top (f a)
  refine ⟨k', a', h.mem, ?_⟩
  intro k'' a'' hmem''
  simpa only [WithTop.coe_lt_coe, WithTop.coe_inj] using h.least k'' a'' hmem''

end Lib
