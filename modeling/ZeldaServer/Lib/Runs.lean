import ZeldaServer.Lib.Outcome
import Mathlib.Data.List.Induction

/-!
# Runs of a transition relation

`Runs R s es t`: from `s`, steps of `R` labelled `es` in order lead to `t`. The
list grows at its end, so induction on a run passes through every state reached.

* `Runs.invariant`: what every step preserves holds in every state reached.
* `Runs.split`: every prefix of the labels is itself a run.
* `Runs.ofFold`: the run that a step function computes.
-/

namespace Lib

variable {σ ε : Type}

/-- The runs of `R` from `s`. -/
inductive Runs (R : σ → ε → σ → Prop) (s : σ) : List ε → σ → Prop
  | nil : Runs R s [] s
  | snoc {es : List ε} {t : σ} {e : ε} {u : σ} : Runs R s es t → R t e u → Runs R s (es ++ [e]) u

variable {R R' : σ → ε → σ → Prop} {s t u : σ} {es fs : List ε} {e : ε}

/-- **The invariant rule.** -/
theorem Runs.invariant {P : σ → Prop} (h0 : P s) (hstep : ∀ t e u, P t → R t e u → P u)
    (h : Runs R s es t) : P t := by
  induction h with
  | nil => exact h0
  | snoc _ hR ih => exact hstep _ _ _ ih hR

theorem Runs.single (h : R s e t) : Runs R s [e] t := by
  simpa using Runs.snoc Runs.nil h

theorem Runs.append (h1 : Runs R s es t) (h2 : Runs R t fs u) : Runs R s (es ++ fs) u := by
  induction h2 with
  | nil => simpa using h1
  | snoc _ hR ih => rw [← List.append_assoc]; exact .snoc ih hR

theorem Runs.cons (h1 : R s e t) (h2 : Runs R t es u) : Runs R s (e :: es) u :=
  (Runs.single h1).append h2

/-- A run with a last label ends with a step. -/
theorem Runs.last (h : Runs R s (es ++ [e]) u) : ∃ t, Runs R s es t ∧ R t e u := by
  generalize hes : es ++ [e] = l at h
  cases h with
  | nil => simp at hes
  | snoc h1 hR =>
    obtain ⟨rfl, h2⟩ := List.append_inj' hes rfl
    cases h2
    exact ⟨_, h1, hR⟩

/-- A run is cut at any point of its labels. -/
theorem Runs.split (h : Runs R s (es ++ fs) u) : ∃ t, Runs R s es t ∧ Runs R t fs u := by
  induction fs using List.reverseRecOn generalizing u with
  | nil => exact ⟨u, by simpa using h, .nil⟩
  | append_singleton fs f ih =>
    rw [← List.append_assoc] at h
    obtain ⟨v, h1, hR⟩ := h.last
    obtain ⟨t, h2, h3⟩ := ih h1
    exact ⟨t, h2, .snoc h3 hR⟩

theorem Runs.eq_of_nil (h : Runs R s [] t) : s = t := by
  generalize hl : ([] : List ε) = l at h
  cases h with
  | nil => rfl
  | snoc => simp at hl

theorem Runs.of_single (h : Runs R s [e] t) : R s e t := by
  obtain ⟨s', hnil, hR⟩ := Runs.last (show Runs R s ([] ++ [e]) t from h)
  exact hnil.eq_of_nil ▸ hR

/-- A run with a first label begins with a step. -/
theorem Runs.first (h : Runs R s (e :: es) u) : ∃ t, R s e t ∧ Runs R t es u := by
  obtain ⟨t, h1, h2⟩ := Runs.split (show Runs R s ([e] ++ es) u from h)
  exact ⟨t, h1.of_single, h2⟩

/-- Every label of a run is that of a step. -/
theorem Runs.step_of_mem (h : Runs R s es t) (he : e ∈ es) : ∃ u v, R u e v := by
  obtain ⟨before, after, rfl⟩ := List.append_of_mem he
  obtain ⟨u, -, hrest⟩ := h.split
  obtain ⟨v, hR, -⟩ := hrest.first
  exact ⟨u, v, hR⟩

/-- Folding a step function over the labels is a run of it. -/
theorem Runs.ofFold (step : σ → ε → Option σ) (s : σ) (es : List ε) (h : es.foldlM step s = some t) :
    Runs (fun s e t => step s e = some t) s es t := by
  induction es generalizing s with
  | nil =>
    obtain rfl : s = t := by simpa using h
    exact .nil
  | cons e es ih =>
    obtain ⟨u, hu, h⟩ := Option.bind_eq_some_iff.1 (by simpa using h)
    exact .cons hu (ih _ h)

/-- A run of `R` is a run of every weaker relation. -/
theorem Runs.mono (hRR : ∀ t e u, R t e u → R' t e u) (h : Runs R s es t) : Runs R' s es t := by
  induction h with
  | nil => exact .nil
  | snoc _ hR ih => exact .snoc ih (hRR _ _ _ hR)

end Lib
