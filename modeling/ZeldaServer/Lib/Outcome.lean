import Mathlib.Logic.Basic
import Mathlib.Data.Nat.Notation
import Mathlib.Tactic.Common

/-!
# Outcomes of calls

A call of a program that loops, asserts and holds raw pointers either returns or
has one of three faults: it has not returned within the fuel it was given, an
`assert` failed, or it did something with undefined behaviour. `Outcome` is the
monad of such calls; the lemmas here take a sequence of calls apart.

* `Post F x Q`: the call `x` returns with `Q`, or has a fault that `F` allows.
* `IfReturns x Q`: the same with every fault allowed, that is partial correctness.
* `Returns x Q`: the same with no fault allowed, that is total correctness.
* `Post.bind`, `Post.foldlM`, `Post.forRange`: the rules for a sequence of calls and for a loop.
-/

namespace Lib

/-- Why a call has no result. -/
inductive Fault
  /-- the fuel ran out before the call returned -/
  | running
  /-- an `assert` failed -/
  | assertion
  /-- null dereference, access out of bounds, use of an erased iterator -/
  | undefined
  deriving DecidableEq, Repr

/-- The outcome of a call that returns an `α`. -/
abbrev Outcome (α : Type) := Except Fault α

variable {α β : Type}

@[simp] theorem ok_bind (a : α) (f : α → Outcome β) : ((Except.ok a : Outcome α) >>= f) = f a := rfl

@[simp] theorem error_bind (e : Fault) (f : α → Outcome β) :
    ((Except.error e : Outcome α) >>= f) = .error e := rfl

/-- A sequence of two calls returns exactly when both do. -/
theorem bind_eq_ok {x : Outcome α} {f : α → Outcome β} {b : β} :
    (x >>= f) = .ok b ↔ ∃ a, x = .ok a ∧ f a = .ok b := by
  cases x with
  | error e => simp
  | ok a => simp

/-- The result of a call that returned. -/
theorem toOption_eq_some {x : Outcome α} {a : α} : x.toOption = some a ↔ x = .ok a := by
  cases x with
  | ok b => simp [Except.toOption]
  | error e => simp [Except.toOption]

/-! ## Postconditions -/

/-- `x` returns a result with `Q`, or has a fault that `F` allows. -/
def Post (F : Fault → Prop) (x : Outcome α) (Q : α → Prop) : Prop :=
  match x with
  | .ok a => Q a
  | .error e => F e

variable {F : Fault → Prop} {x : Outcome α} {f : α → Outcome β} {P Q : α → Prop} {R : β → Prop}

@[simp] theorem post_ok {a : α} : Post F (.ok a) Q ↔ Q a := Iff.rfl

@[simp] theorem post_error {e : Fault} : Post F (.error e) Q ↔ F e := Iff.rfl

theorem Post.ok {a : α} (h : Q a) : Post F (.ok a) Q := h

theorem Post.error {e : Fault} (h : F e) : Post F (.error e) Q := h

/-- The rule of sequence. -/
theorem Post.bind (hx : Post F x P) (hf : ∀ a, P a → Post F (f a) R) : Post F (x >>= f) R := by
  cases x with
  | error e => exact hx
  | ok a => exact hf a hx

/-- The rule of consequence. -/
theorem Post.imp (hx : Post F x P) (h : ∀ a, P a → Q a) : Post F x Q := by
  cases x with
  | error e => exact hx
  | ok a => exact h a hx

theorem Post.weaken {F' : Fault → Prop} (hx : Post F x Q) (h : ∀ e, F e → F' e) : Post F' x Q := by
  cases x with
  | error e => exact h e hx
  | ok a => exact hx

theorem Post.result (hx : Post F x Q) {a : α} (h : x = .ok a) : Q a := by
  rw [h] at hx
  exact hx

theorem Post.fault (hx : Post F x Q) {e : Fault} (h : x = .error e) : F e := by
  rw [h] at hx
  exact hx

/-- If `x` returns, then with `Q`. -/
abbrev IfReturns (x : Outcome α) (Q : α → Prop) : Prop := Post (fun _ => True) x Q

theorem ifReturns_iff : IfReturns x Q ↔ ∀ a, x = .ok a → Q a := by
  cases x with
  | error e => simp
  | ok a => simp

/-- `x` returns, with `Q`. -/
abbrev Returns (x : Outcome α) (Q : α → Prop) : Prop := Post (fun _ => False) x Q

theorem returns_iff : Returns x Q ↔ ∃ a, x = .ok a ∧ Q a := by
  cases x with
  | error e => simp
  | ok a => simp

/-- What returns has none of the faults. -/
theorem Returns.post (h : Returns x Q) : Post F x Q := by
  obtain ⟨a, hx, ha⟩ := returns_iff.1 h
  rw [hx]
  exact ha

/-- What returns is all that can be returned. -/
theorem Returns.ifReturns (h : Returns x Q) : IfReturns x Q := h.post

/-- What is known of a call, and what is known of it if it returns. -/
theorem Post.and (h : Post F x P) (hQ : IfReturns x Q) : Post F x fun a => P a ∧ Q a := by
  cases x with
  | error e => exact .error (h.fault rfl)
  | ok a => exact .ok ⟨h.result rfl, hQ.result rfl⟩

/-- The rule of a loop over a list. -/
theorem Post.foldlM {σ : Type} {step : σ → α → Outcome σ} {I : σ → Prop} (l : List α)
    (hstep : ∀ s, ∀ a ∈ l, I s → Post F (step s a) I) {s : σ} (hs : I s) :
    Post F (l.foldlM step s) I := by
  induction l generalizing s with
  | nil => exact hs
  | cons a l ih =>
    rw [List.foldlM_cons]
    refine Post.bind (hstep s a List.mem_cons_self hs) fun s' hs' => ?_
    exact ih (fun t b hb => hstep t b (List.mem_cons_of_mem _ hb)) hs'

/-- The rule of a loop over a list, with what holds after the elements `before`. -/
theorem Post.foldlM_before {σ : Type} {step : σ → α → Outcome σ} {I : List α → σ → Prop} {l : List α}
    (hstep : ∀ before a after s, l = before ++ a :: after → I before s → Post F (step s a) (I (before ++ [a])))
    {before after : List α} (hl : l = before ++ after) {s : σ} (hs : I before s) :
    Post F (after.foldlM step s) (I l) := by
  induction after generalizing before s with
  | nil =>
    rw [List.append_nil] at hl
    rw [hl]
    exact hs
  | cons a after ih =>
    rw [List.foldlM_cons]
    refine Post.bind (hstep before a after s hl hs) fun s' hs' => ?_
    apply ih ?_ hs'
    rw [hl, List.append_assoc]
    rfl

/-- The rule of a loop that counts to `n`. -/
theorem Post.forRange {σ : Type} {step : σ → ℕ → Outcome σ} {I : ℕ → σ → Prop} (n : ℕ)
    (hstep : ∀ i < n, ∀ s, I i s → Post F (step s i) (I (i + 1))) {s : σ} (hs : I 0 s) :
    Post F ((List.range n).foldlM step s) (I n) := by
  induction n with
  | zero => exact hs
  | succ n ih =>
    rw [List.range_succ, List.foldlM_append]
    refine Post.bind (ih fun i hi => hstep i (Nat.lt_succ_of_lt hi)) fun s' hs' => ?_
    rw [List.foldlM_cons]
    exact Post.bind (hstep n (Nat.lt_succ_self n) s' hs') fun s'' hs'' => hs''

/-- The rule of a loop that makes a list of results, each determined by its element. -/
theorem Post.mapM {f : α → Outcome β} {g : α → Option β} (l : List α)
    (hf : ∀ a ∈ l, Post F (f a) fun b => g a = some b) : Post F (l.mapM f) fun bs => l.map g = bs.map some := by
  induction l with
  | nil => exact .ok rfl
  | cons a l ih =>
    rw [List.mapM_cons]
    refine Post.bind (hf a List.mem_cons_self) fun b hb => ?_
    refine Post.bind (ih fun c hc => hf c (List.mem_cons_of_mem _ hc)) fun bs hbs => ?_
    refine .ok ?_
    rw [List.map_cons, List.map_cons, hb, hbs]

-- the calls are taken apart by the rules only
attribute [irreducible] Post

end Lib
