import ZeldaServer.Lib.Runs

/-!
# Countdowns

Runs along a list of events, of which every step counts down by one, until something happens
that lasts.

* `Runs.countdown`: it has happened when the events are as many as the count, and not before.
* `Runs.total`: a run along all events, when a step follows every run along the first ones.
-/

namespace Lib

variable {σ ε : Type} {R : σ → ε → σ → Prop} {s t : σ} {es rest : List ε}

/-- **The countdown.** `P rest t n` says that `n` steps are left at `t`, where the events `rest`
are to come. -/
theorem Runs.countdown {P : List ε → σ → ℕ → Prop} {Q : σ → Prop} {n : ℕ}
    (hdone : ∀ t e u, Q t → R t e u → Q u)
    (hstep : ∀ e rest t u k, P (e :: rest) t (k + 1) → R t e u → k = 0 ∧ Q u ∨ 0 < k ∧ P rest u k)
    (hn : 0 < n) (h : Runs R s es t) (h0 : P (es ++ rest) s n) :
    n ≤ es.length ∧ Q t ∨ es.length < n ∧ P rest t (n - es.length) := by
  induction h generalizing rest with
  | nil => exact .inr ⟨hn, h0⟩
  | @snoc es t e u _ hR ih =>
    rw [List.append_assoc] at h0
    rw [List.length_append, List.length_singleton]
    rcases ih h0 with ⟨hle, hend⟩ | ⟨hlt, hP⟩
    · exact .inl ⟨Nat.le_succ_of_le hle, hdone t e u hend hR⟩
    · rw [show n - es.length = n - (es.length + 1) + 1 by omega] at hP
      rcases hstep e rest t u _ hP hR with ⟨hzero, hend⟩ | ⟨hpos, hP'⟩
      · exact .inl ⟨by omega, hend⟩
      · exact .inr ⟨by omega, hP'⟩

theorem Runs.total (es : List ε)
    (hstep : ∀ before e after t, es = before ++ e :: after → Runs R s before t → ∃ u, R t e u) : ∃ t, Runs R s es t := by
  induction es using List.reverseRecOn with
  | nil => exact ⟨s, .nil⟩
  | append_singleton es e ih =>
    obtain ⟨t, ht⟩ := ih fun before e' after t heq => hstep before e' (after ++ [e]) t (by rw [heq]; simp)
    obtain ⟨u, hu⟩ := hstep es e [] t rfl ht
    exact ⟨u, ht.snoc hu⟩

end Lib
