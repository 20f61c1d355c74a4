import ZeldaServer.Lib.FirstLeast
import ZeldaServer.Proof.Strides

/-!
# The closest player

`FindClosestPlayer` scans `_players` for the least `LengthSquared`. A squared length is an
`int32` that wraps, compared as a `float` of 24 bits, so that it may put the players in
another order than their distances do.

* `lengthSquared_eq`: what `LengthSquared` makes of a squared distance.
* `findClosestPlayer_first`: the player found has the first least `LengthSquared`.
* `findsNearest_iff`: when this is the nearest player.
-/

namespace ZeldaServer

open Lib Std

variable {room : Room} {cellPos : VectorInt} {k : UInt64} {t : Ref}

/-! ## Squared distances -/

/-- The squared distance. -/
def VectorInt.square (v w : VectorInt) : ℤ := (v.x.toInt - w.x.toInt) ^ 2 + (v.y.toInt - w.y.toInt) ^ 2

/-- What `LengthSquared` makes of a squared distance: the `int32` that it wraps to, as a `float`. -/
def measured (d : ℤ) : ℤ := toFloat (d.bmod (2 ^ 32))

theorem lengthSquared_eq (v w : VectorInt) : (v.sub w).lengthSquared = measured (v.square w) := by
  unfold VectorInt.lengthSquared measured VectorInt.square VectorInt.sub
  rw [pow_two, pow_two]
  simp only [Int32.toInt_add, Int32.toInt_mul, Int32.toInt_sub, Int.bmod_add_bmod, Int.add_bmod_bmod, Int.bmod_mul_bmod,
    Int.mul_bmod_bmod]

theorem measured_small {d : ℤ} (h : 0 ≤ d) (h' : d < 2 ^ 24) : measured d = d := by
  unfold measured
  rw [Int.bmod_eq_of_le (by omega) (by omega)]
  apply toFloat_small
  omega

theorem measured_lt (d : ℤ) : measured d < FLT_MAX := by
  have hwrap : d.bmod (2 ^ 32) = (Int32.ofInt d).toInt := Int32.toInt_ofInt.symm
  unfold measured
  rw [hwrap]
  exact toFloat_lt _

/-- The squared distance of an object from `cellPos`. -/
def Scene.apart (sc : Scene) (cellPos : VectorInt) (r : Ref) : ℤ := ((sc.cell r).map cellPos.square).getD 0

theorem apart_nonneg {sc : Scene} (cellPos : VectorInt) (r : Ref) : 0 ≤ sc.apart cellPos r := by
  unfold Scene.apart
  cases sc.cell r with
  | none => exact Int.le_refl 0
  | some c => exact Int.add_nonneg (Int.sq_nonneg _) (Int.sq_nonneg _)

/-- `LengthSquared` of the way to an object. -/
def Scene.sighted (sc : Scene) (cellPos : VectorInt) (r : Ref) : ℤ := measured (sc.apart cellPos r)

/-! ## The scan -/

/-- The scan over players that are alive. -/
theorem findClosestPlayer_eq (hlive : ∀ r ∈ elements room.players, ∃ p, room.deref r = .ok p) :
    room.findClosestPlayer cellPos = .ok ((elements room.players).foldl (keepLess (room.sighted cellPos)) (FLT_MAX, none)).2 := by
  have hfold : ∀ (l : List Ref) (acc : ℤ × Option Ref), (∀ r ∈ l, ∃ p, room.deref r = .ok p) →
      l.foldlM (room.nearer cellPos) acc = .ok (l.foldl (keepLess (room.sighted cellPos)) acc) := by
    intro l
    induction l with
    | nil => exact fun _ _ => rfl
    | cons r l ih =>
      intro acc hl
      obtain ⟨p, hp⟩ := hl r List.mem_cons_self
      have hsighted : (cellPos.sub p.getCellPos).lengthSquared = room.sighted cellPos r := by
        rw [lengthSquared_eq]
        unfold Scene.sighted Scene.apart Scene.cell
        rw [(deref_spec.result hp).1]
        rfl
      have hround : room.nearer cellPos acc r = .ok (keepLess (room.sighted cellPos) acc r) := by
        unfold Room.nearer keepLess
        rw [hp, ok_bind, hsighted]
      rw [List.foldlM_cons, List.foldl_cons, hround, ok_bind]
      exact ih _ fun r' hr' => hl r' (List.mem_cons_of_mem _ hr')
  rw [findClosestPlayer_fold, hfold _ _ hlive, ok_bind]

/-- **The player found** has the first least `LengthSquared`. -/
theorem findClosestPlayer_first (hlive : ∀ r ∈ elements room.players, ∃ p, room.deref r = .ok p) (hplayer : room.players[k]? = some t)
    (cellPos : VectorInt) :
    ∃ k t, FirstLeast room.players (room.sighted cellPos) k t ∧ room.findClosestPlayer cellPos = .ok (some t) := by
  obtain ⟨k', t', hfirst, hscan⟩ := scan_firstLeast hplayer fun r _ => measured_lt (room.apart cellPos r)
  refine ⟨k', t', hfirst, ?_⟩
  rw [findClosestPlayer_eq hlive]
  unfold Scene.sighted
  rw [hscan]

/-- `FindClosestPlayer` returns a player at the least distance, of these the one with the smallest id. -/
def Room.FindsNearest (room : Room) (cellPos : VectorInt) : Prop :=
  ∃ k t, room.findClosestPlayer cellPos = .ok (some t) ∧ FirstLeast room.players (room.apart cellPos) k t

/-- **The nearest player is found** if and only if it comes first by `LengthSquared` too. -/
theorem findsNearest_iff (hlive : ∀ r ∈ elements room.players, ∃ p, room.deref r = .ok p) (hplayer : room.players[k]? = some t) :
    room.FindsNearest cellPos ↔
      ∀ k t, FirstLeast room.players (room.apart cellPos) k t → FirstLeast room.players (room.sighted cellPos) k t := by
  obtain ⟨k₁, t₁, hsighted, hfound⟩ := findClosestPlayer_first hlive hplayer cellPos
  constructor
  · rintro ⟨k₂, t₂, hfound', hnear⟩ k' t' hnear'
    obtain ⟨rfl, rfl⟩ := hnear.unique hnear'
    obtain rfl : t₁ = t₂ := Option.some.inj (Except.ok.inj (hfound.symm.trans hfound'))
    -- the player may stand under two keys
    have hkey : k₁ = k₂ := by
      rcases hnear.least k₁ t₁ hsighted.mem with hlt | ⟨-, hle⟩
      · exact absurd hlt (Int.lt_irrefl _)
      · rcases hsighted.least k₂ t₁ hnear.mem with hlt | ⟨-, hle'⟩
        · exact absurd hlt (Int.lt_irrefl _)
        · exact LawfulEqCmp.eq_of_compare (OrientedCmp.isLE_antisymm hle' hle)
    exact hkey ▸ hsighted
  · intro hkept
    obtain ⟨k₂, t₂, hnear⟩ := firstLeast_exists hplayer (f := room.apart cellPos)
    obtain ⟨rfl, rfl⟩ := hsighted.unique (hkept k₂ t₂ hnear)
    exact ⟨k₁, t₁, hfound, hnear⟩

/-- Distances below 4096 are kept. -/
theorem kept_near (hnear : ∀ r ∈ elements room.players, room.apart cellPos r < 2 ^ 24) {k : UInt64} {t : Ref}
    (h : FirstLeast room.players (room.apart cellPos) k t) : FirstLeast room.players (room.sighted cellPos) k t := by
  refine h.congr fun k' t' hmem => ?_
  exact (measured_small (apart_nonneg cellPos t') (hnear t' (mem_elements.2 ⟨k', hmem⟩))).symm

/-! ## Two rooms -/

/-- The players of a room, their cells, and the player found from `cellPos`, after some operations. -/
def closestExec (ops : List RoomOp) (cellPos : VectorInt) : Option (List Ref × Option VectorInt × Option VectorInt × Option Ref) := do
  let st ← ops.foldlM roomExec roomStart
  let ret ← (st.game.findClosestPlayer cellPos).toOption
  some (elements st.game.players, st.game.cell 1, st.game.cell 2, ret)

theorem closestExec_runs {ops : List RoomOp} {players : List Ref} {c c' : Option VectorInt} {ret : Option Ref}
    (h : closestExec ops cellPos = some (players, c, c', ret)) : ∃ st, Runs RoomStep roomStart ops st ∧
      elements st.game.players = players ∧ st.game.cell 1 = c ∧ st.game.cell 2 = c' ∧
        st.game.findClosestPlayer cellPos = .ok ret := by
  obtain ⟨st, hst, h⟩ := Option.bind_eq_some_iff.1 h
  obtain ⟨ret', hret, h⟩ := Option.bind_eq_some_iff.1 h
  obtain ⟨hplayers, h⟩ := Prod.mk.inj (Option.some.inj h)
  obtain ⟨hcell, h⟩ := Prod.mk.inj h
  obtain ⟨hcell', rfl⟩ := Prod.mk.inj h
  exact ⟨st, roomExec_runs hst, hplayers, hcell, hcell', toOption_eq_some.1 hret⟩

/-- The players in the room are alive. -/
theorem Good.alive {st : Game Outboxes} {pins : List Ref} (h : Good Anyone st pins) {r : Ref} (hr : r ∈ elements st.game.players) :
    ∃ p, st.game.deref r = .ok p := by
  have hin : st.game.Inside r := .inl (h.core.elements_players hr)
  obtain ⟨p, hp, -⟩ := h.core.inside_room hin
  exact ⟨p, h.deref hp (.inl hin)⟩

/-- Two players. -/
def two (x y : Int32) : List RoomOp :=
  [.init meadow, .enterRoom 0, .enterRoom 1, .handleCMove (placed 2 1 0), .handleCMove (placed 3 x y)]

/-- The player at `(1, 0)` is nearer than the one at `(4, 4)`. -/
theorem findsNearest_example : ∃ st, Runs RoomStep roomStart (two 4 4) st ∧ elements st.game.players = [1, 2] ∧
    st.game.FindsNearest ⟨0, 0⟩ := by
  have hrun : closestExec (two 4 4) ⟨0, 0⟩ = some ([1, 2], some ⟨1, 0⟩, some ⟨4, 4⟩, some 1) := by decide +kernel
  obtain ⟨st, hst, hplayers, hcell, hcell', -⟩ := closestExec_runs hrun
  have hgood := (run_good hst).1
  obtain ⟨k, hk⟩ := mem_elements.1 (show 1 ∈ elements st.game.players by rw [hplayers]; simp)
  refine ⟨st, hst, hplayers, (findsNearest_iff (fun r hr => hgood.alive hr) hk).2 fun _ _ => kept_near ?_⟩
  intro r hr
  unfold Scene.apart
  rw [hplayers] at hr
  rcases List.mem_cons.1 hr with rfl | hr
  · rw [hcell]
    decide
  · rw [List.mem_singleton.1 hr, hcell']
    decide

/-- The square of 65536 wraps to 0, so that the player at `(65536, 0)` is found, not the one at `(1, 0)`. -/
theorem finds_farthest : ∃ st, Runs RoomStep roomStart (two 65536 0) st ∧ elements st.game.players = [1, 2] ∧
    st.game.cell 1 = some ⟨1, 0⟩ ∧ st.game.cell 2 = some ⟨65536, 0⟩ ∧ st.game.findClosestPlayer ⟨0, 0⟩ = .ok (some 2) ∧
    ¬ st.game.FindsNearest ⟨0, 0⟩ := by
  have hrun : closestExec (two 65536 0) ⟨0, 0⟩ = some ([1, 2], some ⟨1, 0⟩, some ⟨65536, 0⟩, some 2) := by decide +kernel
  obtain ⟨st, hst, hplayers, hcell, hcell', hfound⟩ := closestExec_runs hrun
  refine ⟨st, hst, hplayers, hcell, hcell', hfound, ?_⟩
  rintro ⟨k, t, hfound', hnear⟩
  obtain rfl : 2 = t := Option.some.inj (Except.ok.inj (hfound.symm.trans hfound'))
  obtain ⟨k', hk'⟩ := mem_elements.1 (show 1 ∈ elements st.game.players by rw [hplayers]; simp)
  have hleast := hnear.least k' 1 hk'
  unfold Scene.apart at hleast
  rw [hcell, hcell'] at hleast
  rcases hleast with hlt | ⟨heq, -⟩
  · exact absurd hlt (by decide)
  · exact absurd heq (by decide)

end ZeldaServer
