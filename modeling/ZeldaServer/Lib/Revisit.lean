import ZeldaServer.Lib.Discovery
import Mathlib.Order.Lattice

/-!
# Searches that find one node again

A best-first search that does not mark the node `again` as found: each time a neighbour of
it is expanded it is found anew, and gets that neighbour as its parent. If `again` is dearer
than every other node, the nodes that are reached without it are all expanded before it.
Those keep their lineages. If there is a node behind `again`, one that was found from it
becomes its parent, and from there the parents lead round in circles.

* `Revisited`: what can have been found and expanded, with the parents.
* `Revisited.lineage`: what is reached without `again` has a lineage.
* `Revisited.endless`: behind `again` the parents never come to the root.
-/

namespace Lib

open Relation

variable {α κ : Type} [LinearOrder κ]

/-- The parents from `c` on never end. -/
def Endless (parent : α → Option α) (c : α) : Prop :=
  ∃ S : Set α, c ∈ S ∧ ∀ d ∈ S, ∃ p ∈ S, parent d = some p ∧ d ≠ p

variable (step : α → α → Prop) (cost : α → κ) (root again : α)

/-- The search may have found the nodes `seen`, with these parents, and have expanded the
nodes `closed`. -/
inductive Revisited : (α → Option α) → List α → List α → Prop
  | start {parent : α → Option α} : parent root = some root → Revisited parent [root] []
  | expand {parent parent' : α → Option α} {seen seen' closed closed' : List α} {p : α} :
      Revisited parent seen closed → p ∈ seen → (p ∈ closed → p = again) →
      (∀ d ∈ seen, d ∉ closed → cost p ≤ cost d) →
      (∀ c, c ∈ seen' ↔ step p c ∨ c ∈ seen) → (∀ c, c ∈ closed' ↔ c = p ∨ c ∈ closed) →
      (∀ c, step p c → (c ∈ seen → c = again) → parent' c = some p) →
      (∀ c, ¬ (step p c ∧ (c ∈ seen → c = again)) → parent' c = parent c) →
      Revisited parent' seen' closed'

/-- `c` is reached without `again`. -/
def Avoids (c : α) : Prop := root ≠ again ∧ ReflTransGen (fun p c => step p c ∧ c ≠ again) root c

variable {step cost root again} {parent : α → Option α} {seen closed : List α} {c p : α}

namespace Avoids

theorem ne (h : Avoids step root again c) : c ≠ again := by
  rcases ReflTransGen.cases_tail h.2 with heq | ⟨_, _, hstep⟩
  · rw [heq]
    exact h.1
  · exact hstep.2

theorem onward (h : Avoids step root again p) (hstep : step p c) (hne : c ≠ again) : Avoids step root again c :=
  ⟨h.1, h.2.tail ⟨hstep, hne⟩⟩

end Avoids

/-- What is reached in spite of that lies behind a neighbour of `again`. -/
theorem exists_behind (hc : ReflTransGen step root c) (hne : c ≠ again) (hbehind : ¬ Avoids step root again c) :
    ∃ n, ReflTransGen step root n ∧ step again n ∧ n ≠ again ∧ ¬ Avoids step root again n := by
  induction hc with
  | refl => exact absurd ⟨hne, .refl⟩ hbehind
  | @tail b c hb hstep ih =>
    by_cases heq : b = again
    · rw [heq] at hstep
      exact ⟨c, hb.tail (heq ▸ hstep), hstep, hne, hbehind⟩
    · by_cases havoids : Avoids step root again b
      · exact absurd (havoids.onward hstep hne) hbehind
      · exact ih heq havoids

namespace Revisited

theorem root_mem (h : Revisited step cost root again parent seen closed) : root ∈ seen := by
  induction h with
  | start _ => exact List.mem_singleton_self _
  | expand _ _ _ _ hseen _ _ _ ih => exact (hseen _).2 (.inr ih)

theorem reached (h : Revisited step cost root again parent seen closed) : ∀ c ∈ seen, ReflTransGen step root c := by
  induction h with
  | start _ =>
    intro c hc
    rw [List.mem_singleton.1 hc]
  | expand _ hp _ _ hseen _ _ _ ih =>
    intro c hc
    rcases (hseen c).1 hc with hstep | hc
    · exact (ih _ hp).tail hstep
    · exact ih c hc

theorem closed_seen (h : Revisited step cost root again parent seen closed) : ∀ c ∈ closed, c ∈ seen := by
  induction h with
  | start _ =>
    intro c hc
    exact absurd hc List.not_mem_nil
  | expand _ hp _ _ hseen hclosed _ _ ih =>
    intro c hc
    rw [hseen]
    rcases (hclosed c).1 hc with heq | hc
    · rw [heq]
      exact .inr hp
    · exact .inr (ih c hc)

/-- The successors of an expanded node have been found. -/
theorem closed_step (h : Revisited step cost root again parent seen closed) (hp : p ∈ closed) (hstep : step p c) :
    c ∈ seen := by
  induction h with
  | start _ => exact absurd hp List.not_mem_nil
  | expand _ _ _ _ hseen hclosed _ _ ih =>
    rw [hseen]
    rcases (hclosed p).1 hp with heq | hp
    · rw [← heq]
      exact .inl hstep
    · exact .inr (ih hp)

/-- When all is expanded, every node in reach has been found. -/
theorem complete (h : Revisited step cost root again parent seen closed) (hall : ∀ c ∈ seen, c ∈ closed)
    (hc : ReflTransGen step root c) : c ∈ seen := by
  induction hc with
  | refl => exact h.root_mem
  | tail _ hstep ih => exact h.closed_step (hall _ ih) hstep

/-- What lies behind `again` was found from there. -/
theorem behind (h : Revisited step cost root again parent seen closed) : ∀ c ∈ seen, c ≠ again →
    ¬ Avoids step root again c → ∃ p ∈ seen, parent c = some p ∧ c ≠ p ∧ ¬ Avoids step root again p := by
  induction h with
  | start _ =>
    intro c hc hne hbehind
    rw [List.mem_singleton.1 hc] at hne hbehind
    exact absurd ⟨hne, .refl⟩ hbehind
  | @expand parent parent' seen seen' closed closed' p _ hp _ _ hseen _ hlink hkeep ih =>
    intro c hc hne hbehind
    by_cases hcseen : c ∈ seen
    · obtain ⟨q, hq, hparent, hcq, hqbehind⟩ := ih c hcseen hne hbehind
      refine ⟨q, (hseen q).2 (.inr hq), ?_, hcq, hqbehind⟩
      rw [hkeep c fun hlinked => hne (hlinked.2 hcseen), hparent]
    · have hstep : step p c := ((hseen c).1 hc).resolve_right hcseen
      refine ⟨p, (hseen p).2 (.inr hp), hlink c hstep fun hin => absurd hin hcseen, ?_, ?_⟩
      · intro heq
        rw [heq] at hcseen
        exact hcseen hp
      · intro havoids
        exact hbehind (havoids.onward hstep hne)

section

variable (hdear : ∀ c, ReflTransGen step root c → c ≠ again → cost c < cost again)

include hdear

/-- When `again` is expanded, all that is reached without it has been expanded. -/
theorem settled (h : Revisited step cost root again parent seen closed)
    (hmin : ∀ d ∈ seen, d ∉ closed → cost again ≤ cost d) (hc : Avoids step root again c) : c ∈ closed := by
  have hclosed : ∀ d ∈ seen, d ≠ again → d ∈ closed := by
    intro d hd hne
    by_contra hopen
    exact absurd (hdear d (h.reached d hd) hne) (not_lt_of_ge (hmin d hd hopen))
  obtain ⟨hne, hc⟩ := hc
  induction hc with
  | refl => exact hclosed root h.root_mem hne
  | tail _ hstep ih => exact hclosed _ (h.closed_step ih hstep.1) hstep.2

/-- Before `again` is expanded nothing else is, and afterwards all of it has been. -/
theorem phases (h : Revisited step cost root again parent seen closed) :
    (again ∉ closed → ∀ c ∈ seen, c ≠ again → Avoids step root again c) ∧
      (again ∈ closed → ∀ c, Avoids step root again c → c ∈ closed) := by
  induction h with
  | start _ =>
    refine ⟨?_, fun hmem => absurd hmem List.not_mem_nil⟩
    intro _ c hc hne
    rw [List.mem_singleton.1 hc] at hne ⊢
    exact ⟨hne, .refl⟩
  | @expand parent parent' seen seen' closed closed' p hex hp _ hmin hseen hclosed _ _ ih =>
    obtain ⟨hbefore, hafter⟩ := ih
    constructor
    · intro hopen c hc hne
      rw [hclosed, not_or] at hopen
      rcases (hseen c).1 hc with hstep | hc
      · exact (hbefore hopen.2 p hp (Ne.symm hopen.1)).onward hstep hne
      · exact hbefore hopen.2 c hc hne
    · intro hmem c hc
      rw [hclosed]
      rcases (hclosed again).1 hmem with heq | hmem
      · rw [← heq] at hmin
        exact .inr (hex.settled hdear hmin hc)
      · exact .inr (hafter hmem c hc)

/-- **What is reached without `again` has a lineage.** -/
theorem lineage (h : Revisited step cost root again parent seen closed) : ∀ c ∈ seen, Avoids step root again c →
    ∃ l, Lineage root parent c l ∧ l.Nodup ∧ ∀ d ∈ l, d ∈ seen ∧ d ≠ again := by
  induction h with
  | start hroot =>
    intro c hc havoids
    rw [List.mem_singleton.1 hc] at havoids ⊢
    refine ⟨[root], .root hroot, List.nodup_singleton _, ?_⟩
    intro d hd
    rw [List.mem_singleton.1 hd]
    exact ⟨List.mem_singleton_self _, havoids.ne⟩
  | @expand parent parent' seen seen' closed closed' p hex hp honce hmin hseen hclosed hlink hkeep ih =>
    -- the lineages of old nodes are kept
    have hold : ∀ c ∈ seen, Avoids step root again c →
        ∃ l, Lineage root parent' c l ∧ l.Nodup ∧ ∀ d ∈ l, d ∈ seen ∧ d ≠ again := by
      intro c hc havoids
      obtain ⟨l, hl, hnodup, hmem⟩ := ih c hc havoids
      refine ⟨l, hl.congr fun d hd => hkeep d ?_, hnodup, hmem⟩
      rintro ⟨-, hown⟩
      exact (hmem d hd).2 (hown (hmem d hd).1)
    have hgrow : ∀ {l : List α}, (∀ d ∈ l, d ∈ seen ∧ d ≠ again) → ∀ d ∈ l, d ∈ seen' ∧ d ≠ again :=
      fun hl d hd => ⟨(hseen d).2 (.inr (hl d hd).1), (hl d hd).2⟩
    intro c hc havoids
    by_cases hcseen : c ∈ seen
    · obtain ⟨l, hl, hnodup, hmem⟩ := hold c hcseen havoids
      exact ⟨l, hl, hnodup, hgrow hmem⟩
    have hstep : step p c := ((hseen c).1 hc).resolve_right hcseen
    have hclosed' : c ∉ closed := fun hmem => hcseen (hex.closed_seen c hmem)
    obtain ⟨hbefore, hafter⟩ := hex.phases hdear
    -- `again` has not been expanded, nor is it now
    have hopen : again ∉ closed := fun hmem => hclosed' (hafter hmem c havoids)
    have hpa : p ≠ again := by
      intro heq
      rw [heq] at hmin
      exact hclosed' (hex.settled hdear hmin havoids)
    obtain ⟨l, hl, hnodup, hmem⟩ := hold p hp (hbefore hopen p hp hpa)
    have hcp : c ≠ p := by
      intro heq
      rw [heq] at hcseen
      exact hcseen hp
    refine ⟨c :: l, .parent (hlink c hstep fun hin => absurd hin hcseen) hcp hl, ?_, ?_⟩
    · rw [List.nodup_cons]
      exact ⟨fun hcl => hcseen (hmem c hcl).1, hnodup⟩
    · intro d hd
      rcases List.mem_cons.1 hd with heq | hd
      · rw [heq]
        exact ⟨hc, havoids.ne⟩
      · exact hgrow hmem d hd

/-- When a neighbour behind `again` has been expanded, such a one is the parent of `again`. -/
theorem turned (hown : ¬ step again again) (h : Revisited step cost root again parent seen closed) {n : α}
    (hn : n ∈ closed) (hstep : step n again) (hbehind : ¬ Avoids step root again n) :
    ∃ p ∈ seen, parent again = some p ∧ again ≠ p ∧ ¬ Avoids step root again p := by
  have hne : ∀ {n}, step n again → again ≠ n := by
    intro n hn heq
    rw [← heq] at hn
    exact hown hn
  induction h with
  | start _ => exact absurd hn List.not_mem_nil
  | @expand parent parent' seen seen' closed closed' p hex hp honce _ hseen hclosed hlink hkeep ih =>
    by_cases hpa : step p again
    · refine ⟨p, (hseen p).2 (.inr hp), hlink again hpa fun _ => rfl, hne hpa, ?_⟩
      intro havoids
      rcases (hclosed n).1 hn with heq | hn
      · rw [heq] at hbehind
        exact hbehind havoids
      obtain ⟨hbefore, hafter⟩ := hex.phases hdear
      by_cases hopen : again ∈ closed
      · exact havoids.ne (honce (hafter hopen p havoids))
      · exact hbehind (hbefore hopen n (hex.closed_seen n hn) (hne hstep).symm)
    · have hn : n ∈ closed := by
        rcases (hclosed n).1 hn with heq | hn
        · rw [heq] at hstep
          exact absurd hstep hpa
        · exact hn
      obtain ⟨q, hq, hparent, haq, hqbehind⟩ := ih hn
      refine ⟨q, (hseen q).2 (.inr hq), ?_, haq, hqbehind⟩
      rw [hkeep again fun hlinked => hpa hlinked.1, hparent]

/-- **Behind `again` the parents never come to the root.** -/
theorem endless (hown : ¬ step again again) (hback : ∀ n, step again n → step n again)
    (h : Revisited step cost root again parent seen closed) (hall : ∀ c ∈ seen, c ∈ closed)
    (hc : ReflTransGen step root c) (hne : c ≠ again) (hbehind : ¬ Avoids step root again c) : Endless parent c := by
  obtain ⟨n, hn, hstep, hna, hnbehind⟩ := exists_behind hc hne hbehind
  have hturned := h.turned hdear hown (hall n (h.complete hall hn)) (hback n hstep) hnbehind
  refine ⟨{d | d ∈ seen ∧ ¬ Avoids step root again d}, ⟨h.complete hall hc, hbehind⟩, ?_⟩
  rintro d ⟨hd, hdbehind⟩
  by_cases hda : d = again
  · rw [hda]
    obtain ⟨p, hp, hparent, hap, hpbehind⟩ := hturned
    exact ⟨p, ⟨hp, hpbehind⟩, hparent, hap⟩
  · obtain ⟨p, hp, hparent, hdp, hpbehind⟩ := h.behind d hd hda hdbehind
    exact ⟨p, ⟨hp, hpbehind⟩, hparent, hdp⟩

end

end Revisited

end Lib
