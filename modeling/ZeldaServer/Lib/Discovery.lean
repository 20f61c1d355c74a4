import Mathlib.Data.List.Chain
import Mathlib.Data.List.Nodup
import Mathlib.Logic.Relation
import Mathlib.Tactic.Common

/-!
# Search trees

A search finds the nodes of a graph one after another, each by a step from a node it
found before, and keeps for each node the one it was found from.

* `Tree`: the nodes found so far, and their parents.
* `Lineage`: the parents from a node to the root.
* `Tree.lineage`: in a tree every lineage ends, and meets no node twice.
* `Tree.complete`: a tree that no step leaves holds every node in reach.
-/

namespace Lib

open Relation

variable {α : Type} {step : α → α → Prop} {root c d p : α} {parent parent' : α → Option α} {seen l : List α}

/-- The nodes `seen`, the newest first, found from `root`. -/
inductive Tree (step : α → α → Prop) (root : α) (parent : α → Option α) : List α → Prop
  | root : parent root = some root → Tree step root parent [root]
  | found {seen : List α} {p c : α} : Tree step root parent seen → p ∈ seen → c ∉ seen → step p c →
      parent c = some p → Tree step root parent (c :: seen)

/-- The parents from `c` to `root`, which is its own parent. -/
inductive Lineage (root : α) (parent : α → Option α) : α → List α → Prop
  | root : parent root = some root → Lineage root parent root [root]
  | parent {c p : α} {l : List α} : parent c = some p → c ≠ p → Lineage root parent p l →
      Lineage root parent c (c :: l)

namespace Tree

theorem root_mem (h : Tree step root parent seen) : root ∈ seen := by
  induction h with
  | root _ => exact List.mem_singleton_self _
  | found _ _ _ _ _ ih => exact List.mem_cons_of_mem _ ih

theorem nodup (h : Tree step root parent seen) : seen.Nodup := by
  induction h with
  | root _ => exact List.nodup_singleton _
  | found _ _ hc _ _ ih => exact List.nodup_cons.2 ⟨hc, ih⟩

/-- Every node was found from another one, the root apart. -/
theorem parent_mem (h : Tree step root parent seen) (hc : c ∈ seen) :
    (c = root ∧ parent c = some root) ∨ ∃ p ∈ seen, parent c = some p ∧ c ≠ p ∧ step p c := by
  induction h with
  | root hroot =>
    rw [List.mem_singleton] at hc
    left
    rw [hc]
    exact ⟨rfl, hroot⟩
  | @found seen p c' _ hp hnew hstep hparent ih =>
    rcases List.mem_cons.1 hc with heq | hc
    · right
      rw [heq]
      refine ⟨p, List.mem_cons_of_mem _ hp, hparent, ?_, hstep⟩
      intro hcp
      rw [hcp] at hnew
      exact hnew hp
    · rcases ih hc with hroot | ⟨q, hq, hparent, hne, hstep⟩
      · exact .inl hroot
      · exact .inr ⟨q, List.mem_cons_of_mem _ hq, hparent, hne, hstep⟩

theorem reached (h : Tree step root parent seen) (hc : c ∈ seen) : ReflTransGen step root c := by
  induction h generalizing c with
  | root _ =>
    rw [List.mem_singleton] at hc
    rw [hc]
  | found _ hp _ hstep _ ih =>
    rcases List.mem_cons.1 hc with heq | hc
    · rw [heq]
      exact (ih hp).tail hstep
    · exact ih hc

/-- The parents of other nodes do not matter. -/
theorem congr (h : Tree step root parent seen) (heq : ∀ c ∈ seen, parent' c = parent c) :
    Tree step root parent' seen := by
  induction h with
  | root hroot =>
    refine .root ?_
    rw [heq _ (List.mem_singleton_self _), hroot]
  | found _ hp hc hstep hparent ih =>
    refine .found (ih fun d hd => heq d (List.mem_cons_of_mem _ hd)) hp hc hstep ?_
    rw [heq _ List.mem_cons_self, hparent]

/-- **In a tree every lineage ends, and meets no node twice.** -/
theorem lineage (h : Tree step root parent seen) (hc : c ∈ seen) :
    ∃ l, Lineage root parent c l ∧ l.Nodup ∧ ∀ d ∈ l, d ∈ seen := by
  induction h generalizing c with
  | root hroot =>
    rw [List.mem_singleton] at hc
    rw [hc]
    exact ⟨[root], .root hroot, List.nodup_singleton _, fun d hd => hd⟩
  | @found seen p c' _ hp hnew _ hparent ih =>
    rcases List.mem_cons.1 hc with heq | hc
    · rw [heq]
      obtain ⟨l, hl, hnodup, hmem⟩ := ih hp
      refine ⟨c' :: l, .parent hparent ?_ hl, ?_, ?_⟩
      · intro hcp
        rw [hcp] at hnew
        exact hnew hp
      · refine List.nodup_cons.2 ⟨?_, hnodup⟩
        intro hmem'
        exact hnew (hmem c' hmem')
      · intro d hd
        rcases List.mem_cons.1 hd with hd | hd
        · rw [hd]
          exact List.mem_cons_self
        · exact List.mem_cons_of_mem _ (hmem d hd)
    · obtain ⟨l, hl, hnodup, hmem⟩ := ih hc
      exact ⟨l, hl, hnodup, fun d hd => List.mem_cons_of_mem _ (hmem d hd)⟩

/-- **A tree that no step leaves holds every node in reach.** -/
theorem complete (h : Tree step root parent seen) (hclosed : ∀ c ∈ seen, ∀ d, step c d → d ∈ seen)
    (hd : ReflTransGen step root d) : d ∈ seen := by
  induction hd with
  | refl => exact h.root_mem
  | tail _ hstep ih => exact hclosed _ ih _ hstep

end Tree

namespace Lineage

theorem head?_eq (h : Lineage root parent c l) : l.head? = some c := by
  cases h <;> rfl

theorem eq_cons (h : Lineage root parent c l) : l = c :: l.tail := by
  cases h <;> rfl

theorem getLast?_eq (h : Lineage root parent c l) : l.getLast? = some root := by
  induction h with
  | root _ => rfl
  | parent _ _ _ ih =>
    rw [List.getLast?_cons, ih]
    rfl

/-- The lineage of a node goes on with that of its parent. -/
theorem tail (h : Lineage root parent c l) (hparent : parent c = some p) (hne : c ≠ p) :
    ∃ l', l = c :: l' ∧ Lineage root parent p l' := by
  cases h with
  | root hroot =>
    rw [hroot] at hparent
    exact absurd (Option.some.inj hparent) hne
  | parent hparent' _ hl =>
    rw [hparent'] at hparent
    rw [← Option.some.inj hparent]
    exact ⟨_, rfl, hl⟩

/-- The parents of other nodes do not matter. -/
theorem congr (h : Lineage root parent c l) (heq : ∀ d ∈ l, parent' d = parent d) : Lineage root parent' c l := by
  induction h with
  | root hroot =>
    refine .root ?_
    rw [heq _ (List.mem_singleton_self _), hroot]
  | parent hparent hne _ ih =>
    refine .parent ?_ hne (ih fun d hd => heq d (List.mem_cons_of_mem _ hd))
    rw [heq _ List.mem_cons_self, hparent]

/-- A node has one lineage. -/
theorem unique {l' : List α} (h : Lineage root parent c l) (h' : Lineage root parent c l') : l = l' := by
  induction h generalizing l' with
  | root hroot =>
    cases h' with
    | root _ => rfl
    | parent hparent hne _ =>
      rw [hroot] at hparent
      exact absurd (Option.some.inj hparent) hne
  | parent hparent hne _ ih =>
    obtain ⟨rest, rfl, hrest⟩ := h'.tail hparent hne
    rw [ih hrest]

theorem root_parent (h : Lineage root parent c l) : parent root = some root := by
  induction h with
  | root hroot => exact hroot
  | parent _ _ _ ih => exact ih

/-- Read backwards, a lineage is a walk when its parents were linked by steps. -/
theorem walk (h : Lineage root parent c l) (hlink : ∀ c ∈ l, ∀ p, parent c = some p → c ≠ p → step p c) :
    l.reverse.IsChain step := by
  rw [List.isChain_reverse]
  induction h with
  | root _ => exact List.isChain_singleton _
  | @parent c p l hparent hne hl ih =>
    rw [List.isChain_cons]
    refine ⟨?_, ih fun d hd => hlink d (List.mem_cons_of_mem _ hd)⟩
    intro q hq
    rw [hl.head?_eq] at hq
    rw [← Option.some.inj hq]
    exact hlink c List.mem_cons_self p hparent hne

/-- What the parents keep, up to the root, all of a lineage has. -/
theorem forall_mem {P : α → Prop} (h : Lineage root parent c l) (hc : P c)
    (hparent : ∀ c p, parent c = some p → c ≠ p → P c → P p) : ∀ d ∈ l, P d := by
  induction h with
  | root _ =>
    intro d hd
    rw [List.mem_singleton.1 hd]
    exact hc
  | @parent c p l hcp hne _ ih =>
    intro d hd
    rcases List.mem_cons.1 hd with heq | hd
    · rw [heq]
      exact hc
    · exact ih (hparent c p hcp hne hc) d hd

/-- The lineage of a node of a tree is a part of the tree. -/
theorem mem_tree (h : Lineage root parent c l) (htree : Tree step root parent seen) (hc : c ∈ seen) :
    ∀ d ∈ l, d ∈ seen := by
  refine h.forall_mem hc ?_
  intro c p hparent hne hc
  rcases htree.parent_mem hc with ⟨heq, hroot⟩ | ⟨q, hq, hparent', -, -⟩
  · rw [hroot] at hparent
    rw [heq] at hne
    exact absurd (Option.some.inj hparent) hne
  · rw [hparent'] at hparent
    rw [← Option.some.inj hparent]
    exact hq

end Lineage

/-- Every node of a walk but the first is reached by a step. -/
theorem chain_tail (h : l.IsChain step) : ∀ c ∈ l.tail, ∃ p ∈ l, step p c := by
  induction l with
  | nil =>
    intro c hc
    exact absurd hc List.not_mem_nil
  | cons a l ih =>
    intro c hc
    rw [List.tail_cons] at hc
    rw [List.isChain_cons] at h
    cases l with
    | nil => exact absurd hc List.not_mem_nil
    | cons b l =>
      rcases List.mem_cons.1 hc with heq | hc
      · rw [heq]
        exact ⟨a, List.mem_cons_self, h.1 b rfl⟩
      · obtain ⟨p, hp, hstep⟩ := ih h.2 c hc
        exact ⟨p, List.mem_cons_of_mem _ hp, hstep⟩

end Lib
