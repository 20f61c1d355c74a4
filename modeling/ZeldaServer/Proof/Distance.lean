import ZeldaServer.Proof.Search

/-!
# Manhattan distances

The `int32` distances of the search are the Manhattan distances while these are below
`2 ^ 31`. A cell that can be entered lies in the map, so the search makes steps to
4-neighbours only, and its ball is the Manhattan ball.
-/

namespace ZeldaServer

open Lib Std

/-- The Manhattan distance of two cells. -/
def VectorInt.dist (a b : VectorInt) : ℕ := (a.x.toInt - b.x.toInt).natAbs + (a.y.toInt - b.y.toInt).natAbs

/-- A cell with coordinates of absolute value at most `n`. -/
def VectorInt.Within (n : ℤ) (c : VectorInt) : Prop :=
  -n ≤ c.x.toInt ∧ c.x.toInt ≤ n ∧ -n ≤ c.y.toInt ∧ c.y.toInt ≤ n

theorem toInt_add {a b : Int32} (h : -2 ^ 31 ≤ a.toInt + b.toInt) (h' : a.toInt + b.toInt < 2 ^ 31) :
    (a + b).toInt = a.toInt + b.toInt := by
  rw [Int32.toInt_add]
  exact Int.bmod_eq_of_le (by omega) (by omega)

theorem toInt_sub {a b : Int32} (h : -2 ^ 31 ≤ a.toInt - b.toInt) (h' : a.toInt - b.toInt < 2 ^ 31) :
    (a - b).toInt = a.toInt - b.toInt := by
  rw [Int32.toInt_sub]
  exact Int.bmod_eq_of_le (by omega) (by omega)

theorem abs32_toInt {n : Int32} (h : -2 ^ 31 < n.toInt) : (abs32 n).toInt = n.toInt.natAbs := by
  have hlt := n.toInt_lt
  unfold abs32
  split
  · rename_i hneg
    rw [Int32.lt_iff_toInt_lt] at hneg
    have hneg : n.toInt < 0 := hneg
    have hn : (-n).toInt = -n.toInt := by
      rw [Int32.toInt_neg]
      exact Int.bmod_eq_of_le (by omega) (by omega)
    omega
  · rename_i hpos
    rw [Int32.lt_iff_toInt_lt] at hpos
    have hpos : ¬ n.toInt < 0 := hpos
    omega

/-- The `int32` distance is the Manhattan distance while that is an `int32`. -/
theorem taxicab_toInt {a b : VectorInt} (h : a.dist b < 2 ^ 31) : (a.sub b).taxicab.toInt = a.dist b := by
  unfold VectorInt.dist at h ⊢
  have hx : (a.sub b).x.toInt = a.x.toInt - b.x.toInt := toInt_sub (by omega) (by omega)
  have hy : (a.sub b).y.toInt = a.y.toInt - b.y.toInt := toInt_sub (by omega) (by omega)
  have hax := abs32_toInt (n := (a.sub b).x) (by omega)
  have hay := abs32_toInt (n := (a.sub b).y) (by omega)
  unfold VectorInt.taxicab
  rw [toInt_add (by omega) (by omega)]
  omega

namespace VectorInt

variable {a b c : VectorInt}

theorem dist_comm (a b : VectorInt) : a.dist b = b.dist a := by
  unfold dist
  omega

theorem dist_triangle (a b c : VectorInt) : a.dist c ≤ a.dist b + b.dist c := by
  unfold dist
  omega

theorem dist_self (a : VectorInt) : a.dist a = 0 := by
  unfold dist
  omega

theorem ext_toInt (hx : a.x.toInt = b.x.toInt) (hy : a.y.toInt = b.y.toInt) : a = b := by
  obtain ⟨ax, ay⟩ := a
  obtain ⟨bx, bly⟩ := b
  rw [Int32.toInt_inj] at hx hy
  obtain rfl : ax = bx := hx
  obtain rfl : ay = bly := hy
  rfl

theorem eq_of_dist (h : a.dist b = 0) : a = b := by
  unfold dist at h
  exact ext_toInt (by omega) (by omega)

/-- A cost that is the distance is 0 at the cell only. -/
theorem eq_of_cost {cost : Int32} (hcost : cost.toInt = a.dist b) (hzero : cost = 0) : b = a := by
  rw [hzero, Int32.toInt_zero] at hcost
  exact (eq_of_dist (by omega)).symm

theorem Within.dist {n m : ℤ} (ha : a.Within n) (hb : b.Within m) : (a.dist b : ℤ) ≤ 2 * (n + m) := by
  obtain ⟨ha1, ha2, ha3, ha4⟩ := ha
  obtain ⟨hb1, hb2, hb3, hb4⟩ := hb
  unfold VectorInt.dist
  omega

end VectorInt

theorem front_unit : ∀ dir ∈ front, -1 ≤ dir.x.toInt ∧ dir.x.toInt ≤ 1 ∧ -1 ≤ dir.y.toInt ∧ dir.y.toInt ≤ 1 ∧
    dir.x.toInt.natAbs + dir.y.toInt.natAbs = 1 := by
  decide

/-- A step in one of the four directions into the map does not overflow. -/
theorem dist_of_front {p dir : VectorInt} (hdir : dir ∈ front)
    (hx : 0 ≤ (p.add dir).x.toInt ∧ (p.add dir).x.toInt < 2 ^ 31 - 1)
    (hy : 0 ≤ (p.add dir).y.toInt ∧ (p.add dir).y.toInt < 2 ^ 31 - 1) : p.dist (p.add dir) = 1 := by
  have hd := front_unit dir hdir
  -- the step back stays within `int32`
  have hpx : p.x = (p.add dir).x - dir.x := by
    unfold VectorInt.add
    grind
  have hpy : p.y = (p.add dir).y - dir.y := by
    unfold VectorInt.add
    grind
  have hx' := congrArg Int32.toInt hpx
  have hy' := congrArg Int32.toInt hpy
  rw [toInt_sub (by omega) (by omega)] at hx' hy'
  unfold VectorInt.dist
  omega

/-- A cell at distance 1 is one of the four neighbours. -/
theorem front_of_dist {p c : VectorInt} (h : p.dist c = 1) : ∃ dir ∈ front, c = p.add dir := by
  unfold VectorInt.dist at h
  have hc : ∀ dir : VectorInt, c.x.toInt = p.x.toInt + dir.x.toInt → c.y.toInt = p.y.toInt + dir.y.toInt →
      c = p.add dir := by
    intro dir hx hy
    have hcx := c.x.toInt_lt
    have hcy := c.y.toInt_lt
    have hcx' := c.x.le_toInt
    have hcy' := c.y.le_toInt
    apply VectorInt.ext_toInt
    · exact hx.trans (toInt_add (by omega) (by omega)).symm
    · exact hy.trans (toInt_add (by omega) (by omega)).symm
  have hcases : (c.x.toInt = p.x.toInt + 0 ∧ c.y.toInt = p.y.toInt + -1) ∨
      (c.x.toInt = p.x.toInt + 0 ∧ c.y.toInt = p.y.toInt + 1) ∨
      (c.x.toInt = p.x.toInt + -1 ∧ c.y.toInt = p.y.toInt + 0) ∨
      (c.x.toInt = p.x.toInt + 1 ∧ c.y.toInt = p.y.toInt + 0) := by
    omega
  rcases hcases with ⟨hx, hy⟩ | ⟨hx, hy⟩ | ⟨hx, hy⟩ | ⟨hx, hy⟩
  · exact ⟨⟨0, -1⟩, by decide, hc ⟨0, -1⟩ hx hy⟩
  · exact ⟨⟨0, 1⟩, by decide, hc ⟨0, 1⟩ hx hy⟩
  · exact ⟨⟨-1, 0⟩, by decide, hc ⟨-1, 0⟩ hx hy⟩
  · exact ⟨⟨1, 0⟩, by decide, hc ⟨1, 0⟩ hx hy⟩

/-! ## Walks -/

section

variable (canGo : VectorInt → Outcome Bool) (src : VectorInt) (maxDepth : Int32)

/-- A cell that can be walked on, at Manhattan distance less than `maxDepth` from `src`. -/
def Walkable (c : VectorInt) : Prop := canGo c = .ok true ∧ (src.dist c : ℤ) < maxDepth.toInt

instance (c : VectorInt) : Decidable (Walkable canGo src maxDepth c) :=
  inferInstanceAs (Decidable (canGo c = .ok true ∧ (src.dist c : ℤ) < maxDepth.toInt))

/-- A step to a 4-neighbour that is walkable. -/
def Step (p c : VectorInt) : Prop := p.dist c = 1 ∧ Walkable canGo src maxDepth c

/-- What is reached from `src` by such steps. -/
def Reachable : VectorInt → Prop := Relation.ReflTransGen (Step canGo src maxDepth) src

/-- `CanGo` holds of cells of a map only. -/
def Mapped : Prop :=
  ∀ c, canGo c = .ok true → 0 ≤ c.x.toInt ∧ c.x.toInt < 2 ^ 31 - 1 ∧ 0 ≤ c.y.toInt ∧ c.y.toInt < 2 ^ 31 - 1

end

variable {canGo : VectorInt → Outcome Bool} {src dest p c : VectorInt} {maxDepth : Int32}

/-- Every walkable step is one of the search. -/
theorem Step.enters (h : Step canGo src maxDepth p c) : Enters canGo src maxDepth p c := by
  obtain ⟨hdist, hgo, hball⟩ := h
  refine ⟨front_of_dist hdist, hgo, ?_⟩
  have hmax := maxDepth.toInt_lt
  rw [Int32.lt_iff_toInt_lt, taxicab_toInt (by omega)]
  exact hball

theorem Reachable.walkable (h : Reachable canGo src maxDepth c) : c = src ∨ Walkable canGo src maxDepth c := by
  rcases Relation.ReflTransGen.cases_tail h with heq | ⟨p, -, hstep⟩
  · exact .inl heq
  · exact .inr hstep.2

/-- From a reachable cell the search makes no other steps. -/
theorem Enters.step (hmap : Mapped canGo) (hp : Reachable canGo src maxDepth p)
    (h : Enters canGo src maxDepth p c) : Step canGo src maxDepth p c := by
  obtain ⟨⟨dir, hdir, heq⟩, hgo, hball⟩ := h
  have hdist : p.dist c = 1 := by
    obtain ⟨hx, hx', hy, hy'⟩ := hmap c hgo
    rw [heq] at hx hx' hy hy' ⊢
    exact dist_of_front hdir ⟨hx, hx'⟩ ⟨hy, hy'⟩
  refine ⟨hdist, hgo, ?_⟩
  -- one step beyond the ball at most, where the distance is still an `int32`
  have hsmall : src.dist c < 2 ^ 31 := by
    have htri := src.dist_triangle p c
    have hmax := maxDepth.toInt_lt
    rcases hp.walkable with heq | hw
    · rw [heq, src.dist_self] at htri
      rw [heq] at hdist
      omega
    · have := hw.2
      omega
  rw [Int32.lt_iff_toInt_lt, taxicab_toInt hsmall] at hball
  exact hball

/-- **The search reaches what can be walked to.** -/
theorem reaches_iff (hmap : Mapped canGo) :
    Reaches canGo src maxDepth c ↔ Reachable canGo src maxDepth c := by
  constructor
  · intro h
    induction h with
    | refl => exact .refl
    | tail _ henters ih => exact ih.tail (henters.step hmap ih)
  · intro h
    induction h with
    | refl => exact .refl
    | tail _ hstep ih => exact ih.tail hstep.enters

theorem Reachable.dist_le (h : Reachable canGo src maxDepth c) : c = src ∨ (src.dist c : ℤ) < maxDepth.toInt :=
  h.walkable.imp_right And.right

end ZeldaServer
