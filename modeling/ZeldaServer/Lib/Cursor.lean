import ZeldaServer.Lib.Outcome

/-!
# Checked and unchecked operations at a cursor

A cursor stands in a buffer of `size` bytes. An operation asks for bytes from the cursor on:
a checked operation is refused if they are not there, an unchecked one goes on. `Fit` is a
cursor in ℕ, which is never beyond the buffer.

* `safeRun_iff`: a sequence of operations is safe exactly when the bytes that its unchecked
  operations ask for are there.
-/

namespace Lib

/-- What an operation asks for. -/
structure Request where
  /-- the bytes from the cursor on -/
  len : ℕ
  /-- how far the cursor goes then -/
  step : ℕ
  checked : Bool
  deriving DecidableEq, Repr

/-- The cursor after an operation. -/
def Request.next (size pos : ℕ) (request : Request) : ℕ := if pos + request.len ≤ size then pos + request.step else pos

/-- The bytes that unchecked operations ask for are there. -/
def Fit (size : ℕ) : ℕ → List Request → Prop
  | _, [] => True
  | pos, request :: requests =>
    (request.checked = false → pos + request.len ≤ size) ∧ Fit size (request.next size pos) requests

instance decidableFit (size : ℕ) : (pos : ℕ) → (requests : List Request) → Decidable (Fit size pos requests)
  | _, [] => inferInstanceAs (Decidable True)
  | pos, request :: requests =>
    haveI := decidableFit size (request.next size pos) requests
    inferInstanceAs (Decidable (_ ∧ _))

variable {σ ω α : Type}

/-- Operations on a state with a cursor. -/
structure Cursored (σ ω α : Type) where
  pos : σ → ℕ
  request : ω → Request
  exec : σ → ω → Outcome (α × σ)

namespace Cursored

variable (M : Cursored σ ω α) (Safe : σ → ω → α → σ → Prop) (Good : σ → Prop) (size : ℕ)

/-- Every operation returns, and is safe. -/
def SafeRun : σ → List ω → Prop
  | _, [] => True
  | s, op :: ops => ∃ ret s', M.exec s op = .ok (ret, s') ∧ Safe s op ret s' ∧ SafeRun s' ops

/-- An operation is done if its bytes are there; if not it is refused, or it is not safe. -/
structure Sound : Prop where
  done : ∀ s op, Good s → M.pos s + (M.request op).len ≤ size →
    Returns (M.exec s op) fun r => Good r.2 ∧ M.pos r.2 = M.pos s + (M.request op).step ∧ Safe s op r.1 r.2
  refused : ∀ s op, Good s → size < M.pos s + (M.request op).len → (M.request op).checked = true →
    Returns (M.exec s op) fun r => Good r.2 ∧ M.pos r.2 = M.pos s ∧ Safe s op r.1 r.2
  overrun : ∀ s op, Good s → size < M.pos s + (M.request op).len → (M.request op).checked = false →
    IfReturns (M.exec s op) fun r => ¬ Safe s op r.1 r.2

variable {M Safe Good size} {s : σ} {op : ω}

/-- One operation that fits or is checked. -/
theorem Sound.step (h : M.Sound Safe Good size) (hs : Good s)
    (hfit : (M.request op).checked = false → M.pos s + (M.request op).len ≤ size) :
    Returns (M.exec s op) fun r => Good r.2 ∧ M.pos r.2 = (M.request op).next size (M.pos s) ∧ Safe s op r.1 r.2 := by
  unfold Request.next
  by_cases hin : M.pos s + (M.request op).len ≤ size
  · rw [if_pos hin]
    exact h.done s op hs hin
  · rw [if_neg hin]
    refine h.refused s op hs (Nat.lt_of_not_le hin) ?_
    by_contra hunchecked
    exact hin (hfit (Bool.eq_false_iff.2 hunchecked))

/-- **When a sequence of operations is safe**, by induction on the operations: up to the
first one that overruns, the cursor is the one of `Fit`. -/
theorem safeRun_iff (h : M.Sound Safe Good size) (hs : Good s) (ops : List ω) :
    M.SafeRun Safe s ops ↔ Fit size (M.pos s) (ops.map M.request) := by
  induction ops generalizing s with
  | nil => exact Iff.rfl
  | cons op ops ih =>
    constructor
    · rintro ⟨ret, s', hexec, hsafe, hrest⟩
      have hfit : (M.request op).checked = false → M.pos s + (M.request op).len ≤ size := by
        intro hunchecked
        by_contra hout
        exact (h.overrun s op hs (Nat.lt_of_not_le hout) hunchecked).result hexec hsafe
      obtain ⟨hgood, hpos, -⟩ := (h.step hs hfit).result hexec
      refine ⟨hfit, ?_⟩
      rw [← hpos]
      exact (ih hgood).1 hrest
    · rintro ⟨hfit, hrest⟩
      obtain ⟨⟨ret, s'⟩, hexec, hgood, hpos, hsafe⟩ := returns_iff.1 (h.step hs hfit)
      rw [← hpos] at hrest
      exact ⟨ret, s', hexec, hsafe, (ih hgood).2 hrest⟩

end Cursored

end Lib
