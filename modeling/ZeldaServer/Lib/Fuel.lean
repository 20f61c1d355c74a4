import ZeldaServer.Lib.RangeFor

/-!
# Calls with enough fuel

A program that loops is a call for each amount of fuel. `Halts f Q`: from some amount on, the
calls return, all of them the same result, and it has `Q`. The rules follow those of `Post`;
the amounts that the parts of a program need are found by the rules.

* `Halts.bind`: the rule for a sequence of calls.
* `Halts.rangeFor`: the rule of the loop over an ordered map.
* `Halts.of_mono`: more fuel does not change the result.
-/

namespace Lib

open Std

variable {α β σ κ : Type} {f : ℕ → Outcome α} {P Q : α → Prop} {R : β → Prop}

/-- With enough fuel, `f` returns a result with `Q`. -/
def Halts (f : ℕ → Outcome α) (Q : α → Prop) : Prop := ∃ a, Q a ∧ ∃ n, ∀ fuel, n ≤ fuel → f fuel = .ok a

theorem Halts.ok {a : α} (h : Q a) : Halts (fun _ => .ok a) Q := ⟨a, h, 0, fun _ _ => rfl⟩

/-- The rule of consequence. -/
theorem Halts.imp (h : Halts f P) (himp : ∀ a, P a → Q a) : Halts f Q := by
  obtain ⟨a, ha, n, hn⟩ := h
  exact ⟨a, himp a ha, n, hn⟩

/-- What the calls are for small amounts of fuel does not matter. -/
theorem Halts.congr {g : ℕ → Outcome α} (h : Halts f Q) (least : ℕ) (heq : ∀ fuel, least ≤ fuel → g fuel = f fuel) : Halts g Q := by
  obtain ⟨a, ha, n, hn⟩ := h
  refine ⟨a, ha, max n least, fun fuel hfuel => ?_⟩
  rw [heq fuel (by omega)]
  exact hn fuel (by omega)

/-- The rule of sequence. -/
theorem Halts.bind {g : ℕ → α → Outcome β} (hf : Halts f P) (hg : ∀ a, P a → Halts (fun fuel => g fuel a) R) :
    Halts (fun fuel => f fuel >>= g fuel) R := by
  obtain ⟨a, ha, n, hn⟩ := hf
  obtain ⟨b, hb, k, hk⟩ := hg a ha
  refine ⟨b, hb, max n k, fun fuel hfuel => ?_⟩
  dsimp only
  rw [hn fuel (by omega), ok_bind]
  exact hk fuel (by omega)

/-- More fuel does not change the result, so it is enough that one amount is enough. -/
theorem Halts.of_mono (hmono : ∀ fuel fuel' a, fuel ≤ fuel' → f fuel = .ok a → f fuel' = .ok a) {fuel : ℕ}
    (h : ∃ a, f fuel = .ok a ∧ Q a) : Halts f Q := by
  obtain ⟨a, ha, hQ⟩ := h
  exact ⟨a, hQ, fuel, fun fuel' hfuel' => hmono fuel fuel' a hfuel' ha⟩

/-- What halts, and what is known if it returns. -/
theorem Halts.and (h : Halts f P) (hQ : ∀ fuel, IfReturns (f fuel) Q) : Halts f fun a => P a ∧ Q a := by
  obtain ⟨a, ha, n, hn⟩ := h
  exact ⟨a, ⟨ha, (hQ n).result (hn n (Nat.le_refl n))⟩, n, hn⟩

variable [Ord κ] [TransOrd κ] [LawfulEqOrd κ] {m : TreeMap κ α} {get : σ → TreeMap κ α} {body : ℕ → α → σ → Outcome σ}
  {I : List (κ × α) → σ → Prop} {s : σ}

/-- The loop from any element on; the fuel of the loop goes down, that of the body does not. -/
theorem Halts.rangeFor_from
    (hbody : ∀ before k a after s, m.toList = before ++ (k, a) :: after → get s = m → I before s →
      Halts (fun fuel => body fuel a s) fun s' => get s' = m ∧ I (before ++ [(k, a)]) s')
    {before after : List (κ × α)} (hlist : m.toList = before ++ after) (hs : get s = m) (hI : I before s) :
    ∃ s', (get s' = m ∧ I m.toList s') ∧ ∃ n, ∀ fuel rounds, n ≤ fuel → n ≤ rounds →
      Lib.rangeFor get (body fuel) rounds (after.head?.map Prod.fst) s = .ok s' := by
  induction after generalizing before s with
  | nil =>
    rw [List.append_nil] at hlist
    refine ⟨s, ⟨hs, hlist ▸ hI⟩, 1, fun fuel rounds _ hrounds => ?_⟩
    obtain ⟨rounds, rfl⟩ : ∃ n, rounds = n + 1 := ⟨rounds - 1, by omega⟩
    rfl
  | cons p after ih =>
    obtain ⟨k, a⟩ := p
    have hk : m[k]? = some a := getElem?_of_toList hlist
    obtain ⟨s', ⟨hget, hI'⟩, n, hn⟩ := hbody before k a after s hlist hs hI
    obtain ⟨s'', hs'', n', hn'⟩ := ih (by rw [hlist, List.append_assoc]; rfl) hget hI'
    refine ⟨s'', hs'', max n n' + 1, fun fuel rounds hfuel hrounds => ?_⟩
    obtain ⟨rounds, rfl⟩ : ∃ n, rounds = n + 1 := ⟨rounds - 1, by omega⟩
    have hround : body fuel a s = .ok s' := hn fuel (by omega)
    unfold Lib.rangeFor
    simp only [List.head?_cons, Option.map_some, hs, hk]
    rw [hround, ok_bind, if_neg (by rw [hget, hk]; simp), hget, nextKey_of_toList hlist]
    exact hn' fuel rounds (by omega) (by omega)

/-- **The loop rule.** The loop halts if the body does, and keeps the map. -/
theorem Halts.rangeFor
    (hbody : ∀ before k a after s, m.toList = before ++ (k, a) :: after → get s = m → I before s →
      Halts (fun fuel => body fuel a s) fun s' => get s' = m ∧ I (before ++ [(k, a)]) s')
    (hs : get s = m) (h0 : I [] s) :
    Halts (fun fuel => Lib.rangeFor get (body fuel) fuel (firstKey m) s) fun s' => get s' = m ∧ I m.toList s' := by
  obtain ⟨s', hs', n, hn⟩ := Halts.rangeFor_from hbody rfl hs h0
  exact ⟨s', hs', n, fun fuel hfuel => hn fuel fuel hfuel hfuel⟩

end Lib
