import ZeldaServer.Lib.Outcome
import Mathlib.Tactic.Translate.GuessName

/-!
# Range-for over an ordered map

`for (auto& item : map) body(item.second)` where the body may change the map. The
iterator moves from an element to the least greater key of the map as it is then; on an
element that the body has erased the move is undefined.

* `Post.rangeFor`: the loop rule. The body keeps the map whenever it keeps the current
  element, and then the loop visits the elements of the map in order.
* `Post.rangeFor_total`: the rule for a loop that returns.
-/

namespace Lib

open Std

variable {σ κ α : Type} [Ord κ]

/-- `begin()` -/
def firstKey (m : TreeMap κ α) : Option κ := m.toList.head?.map Prod.fst

/-- `++it` at key `k` -/
def nextKey (m : TreeMap κ α) (k : κ) : Option κ :=
  (m.toList.find? fun p => compare k p.1 = .lt).map Prod.fst

/-- The loop from key `k` on, over the map `get s` of the state. -/
def rangeFor (get : σ → TreeMap κ α) (body : α → σ → Outcome σ) : ℕ → Option κ → σ → Outcome σ
  | 0, _, _ => .error .running
  | _ + 1, none, s => .ok s
  | fuel + 1, some k, s =>
    match (get s)[k]? with
    | none => .error .undefined
    | some a => do
      let s ← body a s
      if (get s)[k]?.isNone then .error .undefined
      else rangeFor get body fuel (nextKey (get s) k) s

/-- `item.second` of every element, in order: what a loop that changes no map reads. -/
def elements (m : TreeMap κ α) : List α := m.toList.map Prod.snd

variable [TransOrd κ] {m : TreeMap κ α}

theorem mem_elements [LawfulEqOrd κ] {a : α} : a ∈ elements m ↔ ∃ k : κ, m[k]? = some a := by
  unfold elements
  rw [List.mem_map]
  constructor
  · rintro ⟨⟨k, a'⟩, hmem, rfl⟩
    exact ⟨k, TreeMap.mem_toList_iff_getElem?_eq_some.1 hmem⟩
  · rintro ⟨k, hk⟩
    exact ⟨(k, a), TreeMap.mem_toList_iff_getElem?_eq_some.2 hk, rfl⟩

/-- An element that the loop is at. -/
theorem getElem?_of_toList [LawfulEqOrd κ] {before after : List (κ × α)} {k : κ} {a : α}
    (h : m.toList = before ++ (k, a) :: after) : m[k]? = some a := by
  rw [← TreeMap.mem_toList_iff_getElem?_eq_some, h]
  exact List.mem_append_right _ List.mem_cons_self

/-- After an element comes the next one of the list. -/
theorem nextKey_of_toList {before after : List (κ × α)} {k : κ} {a : α}
    (h : m.toList = before ++ (k, a) :: after) : nextKey m k = after.head?.map Prod.fst := by
  have hsorted := m.ordered_keys_toList
  rw [h, List.pairwise_append, List.pairwise_cons] at hsorted
  obtain ⟨-, ⟨hafter, -⟩, hbefore⟩ := hsorted
  have hnone : before.find? (fun p => compare k p.1 = .lt) = none := by
    rw [List.find?_eq_none]
    intro p hp
    have hlt := hbefore p hp _ List.mem_cons_self
    simp [OrientedCmp.gt_of_lt hlt]
  unfold nextKey
  rw [h, List.find?_append, hnone, Option.none_or, List.find?_cons_of_neg (by simp)]
  cases after with
  | nil => rfl
  | cons p after =>
    rw [List.find?_cons_of_pos (by simpa using hafter p List.mem_cons_self)]
    rfl

section

variable [LawfulEqOrd κ] {F : Fault → Prop} {get : σ → TreeMap κ α} {body : α → σ → Outcome σ}
  {I : List (κ × α) → σ → Prop} {fuel : ℕ} {s : σ}

/-- The loop from any element on. `I before s` says what holds when the elements `before`
have been visited. -/
theorem Post.rangeFor_from
    (hbody : ∀ before k a after s, m.toList = before ++ (k, a) :: after → get s = m → I before s →
      Post F (body a s) fun s' => (get s' = m ∧ I (before ++ [(k, a)]) s') ∨ (get s')[k]? = none ∧ F .undefined)
    {before after : List (κ × α)} (hlist : m.toList = before ++ after) (hfuel : after.length < fuel ∨ F .running)
    (hs : get s = m) (hI : I before s) :
    Post F (Lib.rangeFor get body fuel (after.head?.map Prod.fst) s) fun s' => get s' = m ∧ I m.toList s' := by
  induction fuel generalizing before after s with
  | zero =>
    rcases hfuel with hfuel | hrun
    · exact absurd hfuel (Nat.not_lt_zero _)
    · exact .error hrun
  | succ fuel ih =>
    cases after with
    | nil =>
      rw [List.append_nil] at hlist
      exact .ok ⟨hs, hlist ▸ hI⟩
    | cons p after =>
      obtain ⟨k, a⟩ := p
      have hk : m[k]? = some a := getElem?_of_toList hlist
      unfold Lib.rangeFor
      simp only [List.head?_cons, Option.map_some, hs, hk]
      refine Post.bind (hbody before k a after s hlist hs hI) fun s' hs' => ?_
      rcases hs' with ⟨hget, hI'⟩ | ⟨hnone, hF⟩
      · rw [if_neg (by rw [hget, hk]; simp), hget, nextKey_of_toList hlist]
        exact ih (by rw [hlist, List.append_assoc]; rfl) (hfuel.imp_left Nat.lt_of_succ_lt_succ) hget hI'
      · rw [if_pos (by rw [hnone]; rfl)]
        exact .error hF

/-- **The loop rule.** The loop returns if the body always keeps the map, and the fuel is
enough. -/
theorem Post.rangeFor_total
    (hbody : ∀ before k a after s, m.toList = before ++ (k, a) :: after → get s = m → I before s →
      Post F (body a s) fun s' => get s' = m ∧ I (before ++ [(k, a)]) s')
    (hfuel : m.toList.length < fuel) (hs : get s = m) (h0 : I [] s) :
    Post F (Lib.rangeFor get body fuel (firstKey m) s) fun s' => get s' = m ∧ I m.toList s' :=
  Post.rangeFor_from (fun before k a after s hlist hget hI => (hbody before k a after s hlist hget hI).imp fun _ h => .inl h)
    rfl (.inl hfuel) hs h0

/-- **The loop rule**, for a loop that need not return. -/
theorem Post.rangeFor (hF : F .running ∧ F .undefined)
    (hbody : ∀ before k a after s, m.toList = before ++ (k, a) :: after → get s = m → I before s →
      Post F (body a s) fun s' => (get s')[k]? ≠ none → get s' = m ∧ I (before ++ [(k, a)]) s')
    (hs : get s = m) (h0 : I [] s) :
    Post F (Lib.rangeFor get body fuel (firstKey m) s) fun s' => get s' = m ∧ I m.toList s' := by
  refine Post.rangeFor_from (fun before k a after s hlist hget hI => ?_) rfl (.inr hF.1) hs h0
  refine (hbody before k a after s hlist hget hI).imp fun s' h => ?_
  by_cases hnone : (get s')[k]? = none
  · exact .inr ⟨hnone, hF.2⟩
  · exact .inl (h hnone)

end

end Lib
