import ZeldaServer.Lib.Discovery
import Mathlib.Order.Lattice

/-!
# Best-first search

From the root, a best-first search again and again takes a node of least cost among those
it has found but not expanded, and finds its successors. It stops before it expands the
goal. How ties are broken, and in which order successors are found, is left open.

* `Explored`: what can have been found and expanded, with the parents.
* `Explored.tree`: the parents are a search tree.
* `Explored.complete`: when all is expanded, every node in reach has been found.
* `Explored.flood`: the search stays below a level as long as something below it is left.
* `Explored.congr_step`, `Explored.coarsen`: the search by other steps and by a coarser cost.
-/

namespace Lib

open Relation

variable {α κ : Type} [LinearOrder κ] (step : α → α → Prop) (cost : α → κ) (root goal : α)

/-- The search may have found the nodes `seen`, with these parents, and have expanded the
nodes `closed`, each list with the newest first. -/
inductive Explored : (α → Option α) → List α → List α → Prop
  | start {parent : α → Option α} : parent root = some root → Explored parent [root] []
  | expand {parent parent' : α → Option α} {seen closed found : List α} {p : α} :
      Explored parent seen closed → p ∈ seen → p ∉ closed → p ≠ goal →
      (∀ d ∈ seen, d ∉ closed → cost p ≤ cost d) →
      found.Nodup → (∀ c ∈ found, step p c ∧ c ∉ seen ∧ parent' c = some p) →
      (∀ c, step p c → c ∈ found ∨ c ∈ seen) → (∀ c ∈ seen, parent' c = parent c) →
      Explored parent' (found ++ seen) (p :: closed)

variable {step cost root goal} {parent : α → Option α} {seen closed : List α} {c d p : α}

namespace Explored

theorem closed_seen (h : Explored step cost root goal parent seen closed) : ∀ c ∈ closed, c ∈ seen := by
  induction h with
  | start _ =>
    intro c hc
    exact absurd hc List.not_mem_nil
  | expand _ hp _ _ _ _ _ _ _ ih =>
    intro c hc
    rw [List.mem_append]
    rcases List.mem_cons.1 hc with heq | hc
    · rw [heq]
      exact .inr hp
    · exact .inr (ih c hc)

theorem closed_nodup (h : Explored step cost root goal parent seen closed) : closed.Nodup := by
  induction h with
  | start _ => exact List.nodup_nil
  | expand _ _ hp _ _ _ _ _ _ ih => exact List.nodup_cons.2 ⟨hp, ih⟩

theorem goal_open (h : Explored step cost root goal parent seen closed) : goal ∉ closed := by
  induction h with
  | start _ => exact List.not_mem_nil
  | expand _ _ _ hp _ _ _ _ _ ih =>
    intro hgoal
    rcases List.mem_cons.1 hgoal with heq | hgoal
    · exact hp heq.symm
    · exact ih hgoal

/-- A node other than the root was found when its parent was expanded. -/
theorem found_from (h : Explored step cost root goal parent seen closed) (hc : c ∈ seen) :
    c = root ∨ ∃ p ∈ closed, parent c = some p ∧ step p c := by
  induction h generalizing c with
  | start _ => exact .inl (List.mem_singleton.1 hc)
  | @expand parent parent' seen closed found p _ _ _ _ _ _ hfound _ hkeep ih =>
    rw [List.mem_append] at hc
    rcases hc with hc | hc
    · obtain ⟨hstep, -, hparent⟩ := hfound c hc
      exact .inr ⟨p, List.mem_cons_self, hparent, hstep⟩
    · rcases ih hc with heq | ⟨q, hq, hparent, hstep⟩
      · exact .inl heq
      · exact .inr ⟨q, List.mem_cons_of_mem _ hq, (hkeep c hc).trans hparent, hstep⟩

/-- The successors of an expanded node have been found. -/
theorem closed_step (h : Explored step cost root goal parent seen closed) (hp : p ∈ closed) (hstep : step p c) :
    c ∈ seen := by
  induction h with
  | start _ => exact absurd hp List.not_mem_nil
  | expand _ _ _ _ _ _ _ hall _ ih =>
    rw [List.mem_append]
    rcases List.mem_cons.1 hp with heq | hp
    · rw [heq] at hstep
      exact hall c hstep
    · exact .inr (ih hp)

/-- A search tree grows by the nodes found from one of its own. -/
theorem grow {parent' : α → Option α} {found : List α} (h : Tree step root parent' seen) (hp : p ∈ seen)
    (hnodup : found.Nodup) (hfound : ∀ c ∈ found, step p c ∧ c ∉ seen ∧ parent' c = some p) :
    Tree step root parent' (found ++ seen) := by
  induction found with
  | nil => exact h
  | cons c found ih =>
    rw [List.nodup_cons] at hnodup
    obtain ⟨hc, hnodup⟩ := hnodup
    obtain ⟨hstep, hnew, hparent⟩ := hfound c List.mem_cons_self
    have htree := ih hnodup fun d hd => hfound d (List.mem_cons_of_mem _ hd)
    have hfresh : c ∉ found ++ seen := by
      rw [List.mem_append]
      intro hmem
      rcases hmem with hmem | hmem
      · exact hc hmem
      · exact hnew hmem
    exact .found htree (List.mem_append_right _ hp) hfresh hstep hparent

/-- **The parents are a search tree.** -/
theorem tree (h : Explored step cost root goal parent seen closed) : Tree step root parent seen := by
  induction h with
  | start hroot => exact .root hroot
  | expand _ hp _ _ _ hnodup hfound _ hkeep ih => exact grow (ih.congr hkeep) hp hnodup hfound

theorem root_parent (h : Explored step cost root goal parent seen closed) : parent root = some root := by
  obtain ⟨l, hl, -, -⟩ := h.tree.lineage h.tree.root_mem
  exact hl.root_parent

/-- **When all is expanded, the nodes found are those in reach.** -/
theorem complete (h : Explored step cost root goal parent seen closed) (hall : ∀ c ∈ seen, c ∈ closed) :
    d ∈ seen ↔ ReflTransGen step root d := by
  constructor
  · intro hd
    exact h.tree.reached hd
  · intro hd
    exact h.tree.complete (fun c hc e hstep => h.closed_step (hall c hc) hstep) hd

/-! ## Levels -/

/-- What is reached from the root through nodes of cost at most `level`. -/
def Flood (step : α → α → Prop) (cost : α → κ) (root : α) (level : κ) : α → Prop :=
  ReflTransGen (fun p c => step p c ∧ cost c ≤ level) root

variable {level : κ}

/-- A flooded node that has not been found lies behind one that is not expanded. -/
theorem flood_open (h : Explored step cost root goal parent seen closed) (hroot : cost root ≤ level)
    (hc : Flood step cost root level c) (hnew : c ∉ seen) : ∃ d ∈ seen, d ∉ closed ∧ cost d ≤ level := by
  have hbelow : ∀ d, Flood step cost root level d → cost d ≤ level := by
    intro d hd
    rcases ReflTransGen.cases_tail hd with heq | ⟨_, _, hle⟩
    · rw [heq]
      exact hroot
    · exact hle.2
  induction hc with
  | refl => exact absurd h.tree.root_mem hnew
  | @tail b c hb hstep ih =>
    by_cases hseen : b ∈ seen
    · refine ⟨b, hseen, ?_, hbelow b hb⟩
      intro hclosed
      exact hnew (h.closed_step hclosed hstep.1)
    · exact ih hseen

/-- While a flooded node is left to find, the next node to be expanded is flooded. -/
theorem flood_next (h : Explored step cost root goal parent seen closed) (hroot : cost root ≤ level)
    (hclosed : ∀ c ∈ closed, Flood step cost root level c) (hp : p ∈ seen)
    (hmin : ∀ d ∈ seen, d ∉ closed → cost p ≤ cost d) (hc : Flood step cost root level c) (hnew : c ∉ seen) :
    Flood step cost root level p := by
  obtain ⟨d, hd, hopen, hle⟩ := h.flood_open hroot hc hnew
  have hpl : cost p ≤ level := (hmin d hd hopen).trans hle
  rcases h.found_from hp with hpr | ⟨q, hq, -, hstep⟩
  · rw [hpr]
    exact .refl
  · exact (hclosed q hq).tail ⟨hstep, hpl⟩

theorem flood_closed (h : Explored step cost root goal parent seen closed) (hroot : cost root ≤ level) :
    (∀ c ∈ closed, Flood step cost root level c) ∨ ∀ c, Flood step cost root level c → c ∈ seen := by
  induction h with
  | start _ =>
    left
    intro c hc
    exact absurd hc List.not_mem_nil
  | @expand parent parent' seen closed found p hex hp _ _ hmin _ _ _ _ ih =>
    by_cases hleft : ∀ c, Flood step cost root level c → c ∈ seen
    · right
      intro c hc
      exact List.mem_append_right _ (hleft c hc)
    · left
      obtain ⟨c, hc⟩ := Classical.not_forall.1 hleft
      obtain ⟨hflood, hnew⟩ := Classical.not_imp.1 hc
      have hclosed : ∀ c ∈ closed, Flood step cost root level c := by
        rcases ih with hclosed | hseen
        · exact hclosed
        · exact absurd (hseen c hflood) hnew
      intro e he
      rcases List.mem_cons.1 he with heq | he
      · rw [heq]
        exact hex.flood_next hroot hclosed hp hmin hflood hnew
      · exact hclosed e he

/-- **A flooded node was found from a flooded node.** -/
theorem flood (h : Explored step cost root goal parent seen closed) (hroot : cost root ≤ level)
    (hc : c ∈ seen) (hflood : Flood step cost root level c) (hparent : parent c = some p) :
    Flood step cost root level p := by
  induction h generalizing c p with
  | start hown =>
    rw [List.mem_singleton] at hc
    rw [hc, hown] at hparent
    rw [← Option.some.inj hparent]
    exact .refl
  | @expand parent parent' seen closed found q hex hq _ _ hmin _ hfound _ hkeep ih =>
    rw [List.mem_append] at hc
    rcases hc with hc | hc
    · obtain ⟨_, hnew, hq'⟩ := hfound c hc
      rw [hq'] at hparent
      rw [← Option.some.inj hparent]
      rcases hex.flood_closed hroot with hclosed | hseen
      · exact hex.flood_next hroot hclosed hq hmin hflood hnew
      · exact absurd (hseen c hflood) hnew
    · rw [hkeep c hc] at hparent
      exact ih hc hflood hparent

/-! ## Other steps and costs -/

/-- From the nodes in reach the steps are the same. -/
theorem congr_step {step' : α → α → Prop} (h : Explored step cost root goal parent seen closed)
    (hsame : ∀ p c, ReflTransGen step root p → (step p c ↔ step' p c)) :
    Explored step' cost root goal parent seen closed := by
  induction h with
  | start hroot => exact .start hroot
  | @expand _ _ seen closed found p hex hp hopen hgoal hmin hnodup hfound hall hkeep ih =>
    have hreach := hex.tree.reached hp
    refine .expand ih hp hopen hgoal hmin hnodup ?_ ?_ hkeep
    · intro c hc
      obtain ⟨hstep, hrest⟩ := hfound c hc
      exact ⟨(hsame p c hreach).1 hstep, hrest⟩
    · intro c hstep
      exact hall c ((hsame p c hreach).2 hstep)

/-- A search by a finer cost is one by the coarser cost. -/
theorem coarsen {κ' : Type} [LinearOrder κ'] {cost' : α → κ'} (h : Explored step cost root goal parent seen closed)
    (hcoarse : ∀ p d, cost p ≤ cost d → cost' p ≤ cost' d) : Explored step cost' root goal parent seen closed := by
  induction h with
  | start hroot => exact .start hroot
  | expand _ hp hopen hgoal hmin hnodup hfound hall hkeep ih =>
    exact .expand ih hp hopen hgoal (fun d hd hdopen => hcoarse _ d (hmin d hd hdopen)) hnodup hfound hall hkeep

end Explored

end Lib
