import ZeldaServer.Lib.RangeFor
import ZeldaServer.Lib.Runs
import Mathlib.Data.List.Forall2

/-!
# One call simulates another

`Matches R x y`: if the call `x` returns, then the call `y` returns a related result. The
rules follow the structure of the two calls, which is the same, down to what they call and
to their fuel.

* `Matches.bind`, `Matches.same`: the rules of sequence.
* `Matches.rangeFor`: the rule of the loop over an ordered map.
* `Runs.simulate`: a simulation of steps is one of runs.
-/

namespace Lib

open Std

variable {α β α' β' : Type} {R : α → β → Prop} {S : α' → β' → Prop} {x : Outcome α} {y : Outcome β}

/-- If `x` returns, then `y` returns a related result. -/
def Matches (R : α → β → Prop) (x : Outcome α) (y : Outcome β) : Prop := ∀ a, x = .ok a → ∃ b, y = .ok b ∧ R a b

theorem Matches.ok {a : α} {b : β} (h : R a b) : Matches R (.ok a) (.ok b) := by
  intro a' ha'
  cases ha'
  exact ⟨b, rfl, h⟩

theorem Matches.error {e : Fault} : Matches R (.error e) y := fun _ h => nomatch h

/-- The rule of sequence. -/
theorem Matches.bind {f : α → Outcome α'} {g : β → Outcome β'} (h : Matches R x y)
    (hfg : ∀ a b, R a b → Matches S (f a) (g b)) : Matches S (x >>= f) (y >>= g) := by
  intro a' ha'
  obtain ⟨a, ha, hf⟩ := bind_eq_ok.1 ha'
  obtain ⟨b, hb, hR⟩ := h a ha
  obtain ⟨b', hb', hS⟩ := hfg a b hR a' hf
  exact ⟨b', bind_eq_ok.2 ⟨b, hb, hb'⟩, hS⟩

/-- The rule of sequence, after a call that is the same. -/
theorem Matches.same {γ : Type} {z : Outcome γ} {f : γ → Outcome α'} {g : γ → Outcome β'}
    (hfg : ∀ c, z = .ok c → Matches S (f c) (g c)) : Matches S (z >>= f) (z >>= g) := by
  intro a' ha'
  obtain ⟨c, hc, hf⟩ := bind_eq_ok.1 ha'
  obtain ⟨b', hb', hS⟩ := hfg c hc a' hf
  exact ⟨b', bind_eq_ok.2 ⟨c, hc, hb'⟩, hS⟩

theorem Matches.imp {R' : α → β → Prop} (h : Matches R x y) (himp : ∀ a b, R a b → R' a b) : Matches R' x y := by
  intro a ha
  obtain ⟨b, hb, hR⟩ := h a ha
  exact ⟨b, hb, himp a b hR⟩

/-- A branch on the same condition. -/
theorem Matches.ite {c : Prop} [Decidable c] {x' : Outcome α} {y' : Outcome β} (h : c → Matches R x y)
    (h' : ¬ c → Matches R x' y') : Matches R (if c then x else x') (if c then y else y') := by
  split
  · next hc => exact h hc
  · next hc => exact h' hc

/-- **The loop rule.** The loops go over the same map if related states have the same one. -/
theorem Matches.rangeFor {σ τ κ γ : Type} [Ord κ] {R : σ → τ → Prop} {get : σ → TreeMap κ γ} {get' : τ → TreeMap κ γ}
    {body : γ → σ → Outcome σ} {body' : γ → τ → Outcome τ} (hget : ∀ s t, R s t → get s = get' t)
    (hbody : ∀ a s t, R s t → Matches R (body a s) (body' a t)) {fuel fuel' : ℕ} (hfuel : fuel ≤ fuel') {k : Option κ} {s : σ} {t : τ}
    (h : R s t) : Matches R (Lib.rangeFor get body fuel k s) (Lib.rangeFor get' body' fuel' k t) := by
  induction fuel generalizing fuel' k s t with
  | zero => exact .error
  | succ fuel ih =>
    obtain ⟨n, rfl⟩ : ∃ n, fuel' = n + 1 := ⟨fuel' - 1, by omega⟩
    cases k with
    | none => exact .ok h
    | some k =>
      rw [Lib.rangeFor, Lib.rangeFor, hget s t h]
      split
      · exact .error
      · next a _ =>
        refine (hbody a s t h).bind fun s' t' h' => ?_
        rw [hget s' t' h']
        exact .ite (fun _ => .error) fun _ => ih (by omega) h'

/-! ## Runs -/

/-- **The simulation rule.** A step of the one relation is a step of the other, whose label
has the meaning of the first; so it is with runs. -/
theorem Runs.simulate {σ τ ε η : Type} {step : σ → ε → σ → Prop} {step' : τ → η → τ → Prop} (rel : σ → τ → Prop)
    (means : ε → η → Prop) {P : ε → Prop}
    (hstep : ∀ s e s' t, P e → step s e s' → rel s t → ∃ e' t', means e e' ∧ step' t e' t' ∧ rel s' t')
    {s s' : σ} {t : τ} {es : List ε} (h : Runs step s es s') (hP : ∀ e ∈ es, P e) (hrel : rel s t) :
    ∃ es' t', List.Forall₂ means es es' ∧ Runs step' t es' t' ∧ rel s' t' := by
  induction h with
  | nil => exact ⟨[], t, .nil, .nil, hrel⟩
  | snoc _ hs ih =>
    obtain ⟨es', t', hmeans, hruns, hrel'⟩ := ih fun e he => hP e (List.mem_append_left _ he)
    obtain ⟨e', t'', hmean, ht, hrel''⟩ := hstep _ _ _ t' (hP _ (List.mem_append_right _ List.mem_cons_self)) hs hrel'
    exact ⟨es' ++ [e'], t'', List.rel_append hmeans (.cons hmean .nil), hruns.snoc ht, hrel''⟩

end Lib
