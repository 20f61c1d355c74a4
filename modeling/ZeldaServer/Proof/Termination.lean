import ZeldaServer.Proof.Opposite

/-!
# When FindPath ends

A client sets any position, so `dest` may be so far from `src` that the distance wraps
around. The search loop always ends. If the search enters the cell opposite to `dest`, the
path is traced back to `src` only from the cells that are reached without it. From the
others the parents lead round in circles, and the tracing never ends.

* `PathEnds`: the condition; `pathEnds_of_ok` and `PathEnds.returns`, its two directions.
* `findPath_ends_iff`: when `FindPath` ends, with a path without repetition.
-/

namespace ZeldaServer

open Lib Std

variable {canGo : VectorInt → Outcome Bool} {pick : Pick} {src dest c p last : VectorInt} {maxDepth : Int32}
  {fuel : ℕ}

/-- Where the parents never end, the loop does not either. -/
theorem traceLoop_endless {parent : TreeMap VectorInt VectorInt} {path out : List VectorInt} {pos : VectorInt}
    (h : Endless (fun c => parent[c]?) pos) : traceLoop fuel parent path pos ≠ .ok out := by
  obtain ⟨S, hpos, hS⟩ := h
  induction fuel generalizing path pos with
  | zero =>
    unfold traceLoop
    simp
  | succ fuel ih =>
    obtain ⟨p, hp, hparent, hne⟩ := hS pos hpos
    unfold traceLoop
    rw [index_eq hparent]
    dsimp only
    rw [if_neg hne]
    exact ih hp

/-! ## The last cell -/

/-- The cell that comes first among those that the search reaches: by the distance to
`dest`, then by that to `src`, then in the order of the map. -/
structure Least (canGo : VectorInt → Outcome Bool) (src : VectorInt) (maxDepth : Int32) (dest last : VectorInt) : Prop where
  reached : Reaches canGo src maxDepth last
  least : ∀ c, Reaches canGo src maxDepth c →
    Beats src (last, (dest.sub last).taxicab) (c, (dest.sub c).taxicab)

theorem Least.unique {last' : VectorInt} (h : Least canGo src maxDepth dest last)
    (h' : Least canGo src maxDepth dest last') : last = last' :=
  congrArg Prod.fst ((h.least last' h'.reached).antisymm (h'.least last h.reached))

/-! ## Around the opposite cell -/

section

variable (hmap : Mapped canGo) (hmax : maxDepth.toInt ≤ 2 ^ 20) (hp : Reaches canGo src maxDepth p)
  (henters : Enters canGo src maxDepth p dest.opposite)

include hmap hmax hp henters

/-- All cells of the search are near to the opposite one, which it enters. -/
theorem near_opposite (hc : Reaches canGo src maxDepth c) :
    dest.opposite.dist c < 2 ^ 22 ∧ (dest.sub c).taxicab.toInt = -(dest.opposite.dist c : ℤ) := by
  have hball : ∀ {c}, Reaches canGo src maxDepth c → src.dist c < 2 ^ 20 := by
    intro c hc
    rcases ((reaches_iff hmap).1 hc).dist_le with heq | hlt
    · rw [heq, src.dist_self]
      decide
    · omega
  have hopp := hball (hp.tail henters)
  have hcball := hball hc
  have htri := dest.opposite.dist_triangle src c
  rw [dest.opposite.dist_comm src] at htri
  exact ⟨by omega, taxicab_opposite (by omega)⟩

theorem opposite_zero (hc : Reaches canGo src maxDepth c) (h : (dest.sub c).taxicab = 0) : c = dest.opposite := by
  have hcost := (near_opposite hmap hmax hp henters hc).2
  rw [h, Int32.toInt_zero] at hcost
  exact (VectorInt.eq_of_dist (by omega)).symm

theorem opposite_scored : (dest.sub dest.opposite).taxicab = 0 := by
  have hcost := (near_opposite hmap hmax hp henters (hp.tail henters)).2
  rw [VectorInt.dist_self] at hcost
  exact Int32.toInt_inj.1 hcost

theorem dest_far : ¬ Reaches canGo src maxDepth dest := by
  intro h
  exact opposite_ne dest (opposite_zero hmap hmax hp henters h (taxicab_self dest)).symm

/-- The opposite cell is the dearest. -/
theorem opposite_dear (hc : Reaches canGo src maxDepth c) (hne : c ≠ dest.opposite) :
    costTo dest c < costTo dest dest.opposite := by
  unfold costTo
  rw [opposite_scored hmap hmax hp henters, Int32.toInt_zero, (near_opposite hmap hmax hp henters hc).2]
  have hpos : dest.opposite.dist c ≠ 0 := fun h0 => hne (VectorInt.eq_of_dist h0).symm
  omega

variable (pick) in
/-- **What `FindPath` does then**: it traces a path from the last cell. -/
theorem findPath_turns (hgo : ∀ c, ∃ b, canGo c = .ok b) (hdepth : ¬ maxDepth ≤ (dest.sub src).taxicab) :
    ∃ n s seen closed last, Exhausted canGo src maxDepth dest dest.opposite s seen closed ∧
      Least canGo src maxDepth dest last ∧ ∀ fuel, n ≤ fuel → findPath canGo pick src maxDepth fuel dest =
        (traceLoop fuel s.parent [] last).bind fun path => .ok (some path.reverse) := by
  obtain ⟨n, hn⟩ := cells_finite
  have hrev : Revisited (Enters canGo src maxDepth) (costTo dest) src dest.opposite
      (fun c => ((∅ : TreeMap VectorInt VectorInt).insert src src)[c]?) [src] [] :=
    .start (insert_empty.2 ⟨rfl, rfl⟩)
  have hs : Requeued dest dest.opposite {
      pq := [⟨(dest.sub src).taxicab, src⟩]
      best := (∅ : TreeMap VectorInt Int32).insert src (dest.sub src).taxicab
      parent := (∅ : TreeMap VectorInt VectorInt).insert src src } [src] [] := by
    refine ⟨start_scored, ?_, ?_, ?_⟩
    · intro node hnode
      rw [List.mem_singleton.1 hnode]
      exact ⟨rfl, List.mem_singleton_self _, fun hin => absurd hin List.not_mem_nil⟩
    · intro c hc _
      rw [List.mem_singleton.1 hc]
      exact List.mem_singleton_self _
    · intro c _
      exact List.countP_le_length
  have hone : copies dest.opposite [⟨(dest.sub src).taxicab, src⟩] ≤ 1 := List.countP_le_length
  have hreturns : Returns (searchLoop canGo pick src maxDepth dest (2 * n + 2) _) _ :=
    searchLoop_revisits hgo (fun c hc => opposite_zero hmap hmax hp henters hc) (opposite_scored hmap hmax hp henters)
      (dest_far hmap hmax hp henters) hn hrev hs List.nodup_nil (by simp only [List.length_nil]; omega)
  obtain ⟨⟨found, s⟩, hloop, hfound, seen, closed, hex⟩ := returns_iff.1 hreturns
  obtain rfl : found = false := hfound
  refine ⟨2 * n + 2, s, seen, closed, nearest src dest s.best, hex, ?_, ?_⟩
  · -- all reachable cells are scored
    have hseen : ∀ c, Reaches canGo src maxDepth c ↔ c ∈ seen := fun c =>
      ⟨hex.revisited.complete hex.all, hex.revisited.reached c⟩
    have hsmall : ∀ (c : VectorInt) (v : Int32), s.best[c]? = some v → v.toInt.natAbs < 2 ^ 24 := by
      intro c v hv
      obtain ⟨hmem, heq⟩ := (hex.best c v).1 hv
      have := near_opposite hmap hmax hp henters ((hseen c).2 hmem)
      rw [heq]
      omega
    have hroot := (hex.best src _).2 ⟨hex.revisited.root_mem, rfl⟩
    obtain ⟨v, hv, hbeats⟩ : ∃ v, s.best[nearest src dest s.best]? = some v ∧ _ := nearest_beats hsmall ⟨_, hroot⟩
    obtain ⟨hmem, hv⟩ := (hex.best _ v).1 hv
    refine ⟨(hseen _).2 hmem, ?_⟩
    intro c hc
    rw [← hv]
    exact hbeats c _ ((hex.best c _).2 ⟨(hseen c).1 hc, rfl⟩)
  · intro fuel hfuel
    exact findPath_traces hdepth hloop hfuel

/-- A last cell that is reached without the opposite one is traced back to `src`. -/
theorem findPath_avoids (hgo : ∀ c, ∃ b, canGo c = .ok b) (hdepth : ¬ maxDepth ≤ (dest.sub src).taxicab)
    (hlast : Least canGo src maxDepth dest last) (havoids : Avoids (Enters canGo src maxDepth) src dest.opposite last) :
    ∃ n path, (∀ fuel, n ≤ fuel → findPath canGo pick src maxDepth fuel dest = .ok (some path)) ∧ path.Nodup := by
  obtain ⟨n, s, seen, closed, last', hex, hlast', hpath⟩ :=
    findPath_turns pick hmap hmax hp henters hgo hdepth
  obtain rfl := hlast.unique hlast'
  obtain ⟨l, hl, hnodup, -⟩ := hex.revisited.lineage (fun c hc => opposite_dear hmap hmax hp henters hc) last
    (hex.revisited.complete hex.all hlast.reached) havoids
  refine ⟨max n l.length, l.reverse, ?_, List.nodup_reverse.2 hnodup⟩
  intro fuel hfuel
  rw [hpath fuel (by omega), traceLoop_lineage hl (by omega)]
  rfl

/-- The last cell is not the opposite one, as its neighbour `p` is cheaper. -/
theorem Least.ne_opposite (hlast : Least canGo src maxDepth dest last) : last ≠ dest.opposite := by
  intro heq
  have hdear := opposite_dear hmap hmax hp henters hp (Ne.symm henters.ne)
  have hbeats := hlast.least p hp
  rw [heq] at hbeats
  unfold Beats Outranks at hbeats
  unfold costTo at hdear
  dsimp only at hbeats
  omega

/-- A last cell behind the opposite one is not, however long the tracing goes on. -/
theorem findPath_behind (hgo : ∀ c, ∃ b, canGo c = .ok b) (hdepth : ¬ maxDepth ≤ (dest.sub src).taxicab)
    (hlast : Least canGo src maxDepth dest last) (hbehind : ¬ Avoids (Enters canGo src maxDepth) src dest.opposite last)
    (ret : Option (List VectorInt)) : findPath canGo pick src maxDepth fuel dest ≠ .ok ret := by
  intro h
  obtain ⟨n, s, seen, closed, last', hex, hlast', hpath⟩ :=
    findPath_turns pick hmap hmax hp henters hgo hdepth
  obtain rfl := hlast.unique hlast'
  have hendless := hex.revisited.endless (fun c hc => opposite_dear hmap hmax hp henters hc) (fun hown => hown.ne rfl)
    (fun c hc => henters.back hc) hex.all hlast.reached (hlast.ne_opposite hmap hmax hp henters) hbehind
  have hmore := findPath_mono h (Nat.le_max_left fuel n)
  rw [hpath _ (Nat.le_max_right fuel n)] at hmore
  obtain ⟨path, htrace, -⟩ := bind_eq_ok.1 hmore
  exact traceLoop_endless hendless htrace

end

/-! ## When FindPath ends -/

/-- `dest` is not nearer than the depth of the search, or the search does not enter the cell
opposite to `dest`, or the least of the reachable cells is reached without that cell. -/
def PathEnds (canGo : VectorInt → Outcome Bool) (src dest : VectorInt) : Prop :=
  10 ≤ (dest.sub src).taxicab ∨ (∀ p, Reaches canGo src 10 p → ¬ Enters canGo src 10 p dest.opposite) ∨
    ∃ last, Least canGo src 10 dest last ∧ Avoids (Enters canGo src 10) src dest.opposite last

section

variable (hmap : Mapped canGo) (hgo : ∀ c, ∃ b, canGo c = .ok b)

include hmap hgo

/-- What has returned has ended. -/
theorem pathEnds_of_ok {ret : Option (List VectorInt)} (h : findPath canGo pick src 10 fuel dest = .ok ret) :
    PathEnds canGo src dest := by
  have hmax : (10 : Int32).toInt ≤ 2 ^ 20 := by decide
  by_contra hno
  unfold PathEnds at hno
  rw [not_or, not_or] at hno
  obtain ⟨hdepth, henters, hlast⟩ := hno
  obtain ⟨p, hp⟩ := Classical.not_forall.1 henters
  obtain ⟨hp, henters⟩ := Classical.not_imp.1 hp
  rw [Classical.not_not] at henters
  obtain ⟨_, _, _, _, last, -, hleast, -⟩ := findPath_turns pick hmap hmax hp henters hgo hdepth
  have hbehind : ¬ Avoids (Enters canGo src 10) src dest.opposite last := fun h => hlast ⟨last, hleast, h⟩
  exact findPath_behind hmap hmax hp henters hgo hdepth hleast hbehind ret h

/-- ... and what ends returns, with enough fuel. -/
theorem PathEnds.returns (h : PathEnds canGo src dest) (pick : Pick) :
    ∃ n ret, (∀ fuel, n ≤ fuel → findPath canGo pick src 10 fuel dest = .ok ret) ∧ ∀ path, ret = some path → path.Nodup := by
  have hmax : (10 : Int32).toInt ≤ 2 ^ 20 := by decide
  by_cases hdepth : 10 ≤ (dest.sub src).taxicab
  · refine ⟨0, none, fun fuel _ => findPath_far hdepth, ?_⟩
    intro path hpath
    exact absurd hpath.symm (Option.some_ne_none path)
  -- a path is traced
  have hpath : ∃ n path, (∀ fuel, n ≤ fuel → findPath canGo pick src 10 fuel dest = .ok (some path)) ∧ path.Nodup := by
    by_cases hno : ∀ p, Reaches canGo src 10 p → ¬ Enters canGo src 10 p dest.opposite
    · have hsole : SoleZero canGo src 10 dest := by
        intro parent seen closed hex p hp c _ henters hzero
        rcases taxicab_zero hzero with heq | heq
        · exact heq
        · rw [heq] at henters
          exact absurd henters (hno p (hex.tree.reached hp))
      obtain ⟨n, path, hpath, _, _, _, _, _, hfound⟩ := findPath_found hgo hsole hdepth
      exact ⟨n, path, hpath, hfound.nodup⟩
    · obtain ⟨p, hp⟩ := Classical.not_forall.1 hno
      obtain ⟨hp, henters⟩ := Classical.not_imp.1 hp
      rw [Classical.not_not] at henters
      obtain ⟨last, hlast, havoids⟩ := (h.resolve_left hdepth).resolve_left hno
      exact findPath_avoids hmap hmax hp henters hgo hdepth hlast havoids
  obtain ⟨n, path, hpath, hnodup⟩ := hpath
  refine ⟨n, some path, hpath, ?_⟩
  intro path' heq
  rw [← Option.some.inj heq]
  exact hnodup

end

theorem canGo_outside {room : Room} (h : room.tilemap.getTileAt c = none) : room.canGo c ≠ .ok true := by
  unfold Room.canGo
  rw [h]
  intro hgo
  exact absurd (Except.ok.inj hgo) Bool.false_ne_true

/-- The search does not get to a cell outside of the map. -/
theorem PathEnds.of_outside {room : Room} (h : room.tilemap.getTileAt dest.opposite = none) : PathEnds room.canGo src dest := by
  unfold PathEnds
  right
  left
  intro p _ henters
  obtain ⟨-, hgo, -⟩ := henters
  exact canGo_outside h hgo

/-- **When `FindPath` ends.** For every room whose objects are alive and all positions, it
returns, with no path or with one without repetition, if and only if `dest` is not nearer
than the depth of the search, or the search does not enter the cell opposite to `dest`, or
the last cell, the least of the reachable ones, is reached without that cell. -/
theorem findPath_ends_iff {room : Room} (hlive : room.Live) (pick : Pick) (src dest : VectorInt) :
    (∃ n ret, (∀ fuel, n ≤ fuel → findPath room.canGo pick src 10 fuel dest = .ok ret) ∧
      ∀ path, ret = some path → path.Nodup) ↔
    10 ≤ (dest.sub src).taxicab ∨
      (∀ p, Reaches room.canGo src 10 p → ¬ Enters room.canGo src 10 p dest.opposite) ∨
      ∃ last, Least room.canGo src 10 dest last ∧ Avoids (Enters room.canGo src 10) src dest.opposite last := by
  constructor
  · rintro ⟨n, ret, hret, -⟩
    exact pathEnds_of_ok room.mapped hlive.canGo (hret n (Nat.le_refl n))
  · intro h
    exact PathEnds.returns room.mapped hlive.canGo h pick

/-- In the hall a path is found. -/
theorem findPath_ends_example : ∃ n ret,
    (∀ fuel, n ≤ fuel → findPath hall.canGo (fun _ => 0) ⟨0, 0⟩ 10 fuel ⟨4, 0⟩ = .ok ret) ∧
      ∀ path, ret = some path → path.Nodup := by
  have hlive : hall.Live := by decide +kernel
  refine (findPath_ends_iff hlive (fun _ => 0) ⟨0, 0⟩ ⟨4, 0⟩).2 (.inr (.inl ?_))
  intro p _ henters
  -- the opposite cell is not in the map
  have hrange := (hall.mapped _ henters.2.1).1
  exact absurd hrange (by decide)

/-- An alley of four tiles with a monster at `(0, 0)`, and a player far away. -/
def alley : Room where
  objects := [
    { info := { Monster.info with objectid := 1, objecttype := .monster }, room := true, kind := .monster {} },
    { info := { objectid := 2, objecttype := .player, posx := -2147483647, posy := -2147483648 }, room := true,
      kind := .player (some 0) }]
  monsters := (∅ : TreeMap UInt64 Ref).insert 1 0
  players := (∅ : TreeMap UInt64 Ref).insert 2 1
  useCount := fun _ => 1
  tilemap := { mapSize := ⟨4, 1⟩, tiles := [[0, 0, 0, 0]] }

/-- The cells that a search in the alley enters. -/
theorem alley_cells (h : alley.canGo c = .ok true) : 0 ≤ c.x.toInt ∧ c.x.toInt < 4 ∧ c.y.toInt = 0 := by
  unfold Room.canGo at h
  cases htile : alley.tilemap.getTileAt c with
  | none =>
    rw [htile] at h
    exact absurd h (by simp)
  | some value =>
    have hrange := getTileAt_range htile
    have hx : alley.tilemap.mapSize.x.toInt = 4 := rfl
    have hy : alley.tilemap.mapSize.y.toInt = 1 := rfl
    omega

/-- What is reached without `(1, 0)` is `(0, 0)` alone. -/
theorem alley_near (h : Relation.ReflTransGen (fun p c => Enters alley.canGo ⟨0, 0⟩ 10 p c ∧ c ≠ ⟨1, 0⟩) ⟨0, 0⟩ c) :
    c.x.toInt = 0 := by
  induction h with
  | refl => rfl
  | @tail b c hb hstep ih =>
    obtain ⟨henters, hne⟩ := hstep
    have hreach : Reaches alley.canGo ⟨0, 0⟩ 10 b := Relation.ReflTransGen.mono (fun _ _ h => h.1) _ _ hb
    have hone := (henters.step alley.mapped ((reaches_iff alley.mapped).1 hreach)).1
    obtain ⟨hx, hx', hy⟩ := alley_cells henters.2.1
    unfold VectorInt.dist at hone
    have hcases : c.x.toInt = 0 ∨ c.x.toInt = (1 : Int32).toInt := by
      have h1 : (1 : Int32).toInt = 1 := rfl
      omega
    rcases hcases with h0 | h1
    · exact h0
    · exact absurd (VectorInt.ext_toInt (b := ⟨1, 0⟩) h1 hy) hne

theorem alley_least : Least alley.canGo ⟨0, 0⟩ 10 ⟨-2147483647, -2147483648⟩ ⟨3, 0⟩ := by
  have hsteps : Step alley.canGo ⟨0, 0⟩ 10 ⟨0, 0⟩ ⟨1, 0⟩ ∧ Step alley.canGo ⟨0, 0⟩ 10 ⟨1, 0⟩ ⟨2, 0⟩ ∧
      Step alley.canGo ⟨0, 0⟩ 10 ⟨2, 0⟩ ⟨3, 0⟩ := by
    unfold Step
    decide +kernel
  obtain ⟨h1, h2, h3⟩ := hsteps
  refine ⟨((Relation.ReflTransGen.refl.tail h1.enters).tail h2.enters).tail h3.enters, ?_⟩
  intro c hc
  have hcell : 0 ≤ c.x.toInt ∧ c.x.toInt < 4 ∧ c.y.toInt = (0 : Int32).toInt := by
    rcases Relation.ReflTransGen.cases_tail hc with heq | ⟨_, _, henters⟩
    · rw [heq]
      decide
    · exact alley_cells henters.2.1
  have hcases : c.x.toInt = (0 : Int32).toInt ∨ c.x.toInt = (1 : Int32).toInt ∨ c.x.toInt = (2 : Int32).toInt ∨
      c.x.toInt = (3 : Int32).toInt := by
    have h0 : (0 : Int32).toInt = 0 := rfl
    have h1 : (1 : Int32).toInt = 1 := rfl
    have h2 : (2 : Int32).toInt = 2 := rfl
    have h3 : (3 : Int32).toInt = 3 := rfl
    omega
  unfold Beats Outranks
  rcases hcases with hx | hx | hx | hx
  · rw [VectorInt.ext_toInt (b := ⟨0, 0⟩) hx hcell.2.2]
    decide
  · rw [VectorInt.ext_toInt (b := ⟨1, 0⟩) hx hcell.2.2]
    decide
  · rw [VectorInt.ext_toInt (b := ⟨2, 0⟩) hx hcell.2.2]
    decide
  · rw [VectorInt.ext_toInt (b := ⟨3, 0⟩) hx hcell.2.2]
    decide

/-- In the alley the tracing never ends, whatever the queue gives out. -/
theorem alley_endless : alley.Live ∧ ∀ (pick : Pick) (fuel : ℕ) (ret : Option (List VectorInt)),
    findPath alley.canGo pick ⟨0, 0⟩ 10 fuel ⟨-2147483647, -2147483648⟩ ≠ .ok ret := by
  have hlive : alley.Live := by decide +kernel
  refine ⟨hlive, ?_⟩
  intro pick fuel ret
  have hopp : VectorInt.opposite ⟨-2147483647, -2147483648⟩ = ⟨1, 0⟩ := by decide
  have hstep : Step alley.canGo ⟨0, 0⟩ 10 ⟨0, 0⟩ (VectorInt.opposite ⟨-2147483647, -2147483648⟩) := by
    unfold Step
    decide +kernel
  have hbehind : ¬ Avoids (Enters alley.canGo ⟨0, 0⟩ 10) ⟨0, 0⟩
      (VectorInt.opposite ⟨-2147483647, -2147483648⟩) ⟨3, 0⟩ := by
    rw [hopp]
    rintro ⟨-, h⟩
    exact absurd (alley_near h) (by decide)
  exact findPath_behind alley.mapped (by decide) .refl hstep.enters hlive.canGo (by decide) alley_least hbehind ret

end ZeldaServer
