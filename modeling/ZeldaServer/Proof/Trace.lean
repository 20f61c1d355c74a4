import ZeldaServer.Proof.Search

/-!
# The traced path

More fuel does not change what the loops return. The parents that the search leaves are
a tree, so the path that is traced back ends, and has no cell twice.
-/

namespace ZeldaServer

open Lib Std

variable {canGo : VectorInt → Outcome Bool} {pick : Pick} {src dest : VectorInt} {maxDepth : Int32}
  {fuel fuel' : ℕ}

theorem searchLoop_mono {s : Search} {r : Bool × Search} (h : searchLoop canGo pick src maxDepth dest fuel s = .ok r)
    (hle : fuel ≤ fuel') : searchLoop canGo pick src maxDepth dest fuel' s = .ok r := by
  induction fuel generalizing fuel' s with
  | zero =>
    unfold searchLoop at h
    exact absurd h (by simp)
  | succ fuel ih =>
    obtain ⟨fuel', rfl⟩ : ∃ n, fuel' = n + 1 := ⟨fuel' - 1, by omega⟩
    have hle : fuel ≤ fuel' := by omega
    unfold searchLoop at h ⊢
    split at h
    · exact h
    dsimp only at h ⊢
    split at h
    · rename_i hlt
      rw [if_pos hlt]
      exact ih h hle
    rename_i hlt
    rw [if_neg hlt]
    split at h
    · rename_i hdest
      rw [if_pos hdest]
      exact h
    rename_i hdest
    rw [if_neg hdest]
    obtain ⟨s', hs', h⟩ := bind_eq_ok.1 h
    rw [hs', ok_bind]
    exact ih h hle

theorem traceLoop_mono {parent : TreeMap VectorInt VectorInt} {path out : List VectorInt} {pos : VectorInt}
    (h : traceLoop fuel parent path pos = .ok out) (hle : fuel ≤ fuel') : traceLoop fuel' parent path pos = .ok out := by
  induction fuel generalizing fuel' parent path pos with
  | zero =>
    unfold traceLoop at h
    exact absurd h (by simp)
  | succ fuel ih =>
    obtain ⟨fuel', rfl⟩ : ∃ n, fuel' = n + 1 := ⟨fuel' - 1, by omega⟩
    unfold traceLoop at h ⊢
    dsimp only at h ⊢
    split at h
    · rename_i heq
      rw [if_pos heq]
      exact h
    · rename_i hne
      rw [if_neg hne]
      exact ih h (by omega)

/-- More fuel does not change what `FindPath` returns. -/
theorem findPath_mono {ret : Option (List VectorInt)} (h : findPath canGo pick src maxDepth fuel dest = .ok ret)
    (hle : fuel ≤ fuel') : findPath canGo pick src maxDepth fuel' dest = .ok ret := by
  unfold findPath at h ⊢
  dsimp only at h ⊢
  split at h
  · rename_i hdepth
    rw [if_pos hdepth]
    exact h
  rename_i hdepth
  rw [if_neg hdepth]
  obtain ⟨r, hr, h⟩ := bind_eq_ok.1 h
  obtain ⟨path, hpath, h⟩ := bind_eq_ok.1 h
  rw [searchLoop_mono hr hle, ok_bind, traceLoop_mono hpath hle]
  exact h

/-- The loop follows the lineage of `pos`. -/
theorem traceLoop_lineage {parent : TreeMap VectorInt VectorInt} {path l : List VectorInt} {pos : VectorInt}
    (h : Lineage src (fun c => parent[c]?) pos l) (hle : l.length ≤ fuel) :
    traceLoop fuel parent path pos = .ok (path ++ l) := by
  induction h generalizing fuel path with
  | root hroot =>
    obtain ⟨fuel, rfl⟩ : ∃ n, fuel = n + 1 := ⟨fuel - 1, by simp at hle; omega⟩
    unfold traceLoop
    rw [index_eq hroot]
    exact if_pos rfl
  | @parent c p l hparent hne _ ih =>
    rw [List.length_cons] at hle
    obtain ⟨fuel, rfl⟩ : ∃ n, fuel = n + 1 := ⟨fuel - 1, by omega⟩
    unfold traceLoop
    rw [index_eq hparent]
    dsimp only
    rw [if_neg hne, ih (by omega), List.append_assoc]
    rfl

/-- `FindPath` traces the path from the last cell of its search. -/
theorem findPath_traces {r : Bool × Search} (hdepth : ¬ maxDepth ≤ (dest.sub src).taxicab)
    (hloop : searchLoop canGo pick src maxDepth dest fuel {
      pq := [⟨(dest.sub src).taxicab, src⟩]
      best := (∅ : TreeMap VectorInt Int32).insert src (dest.sub src).taxicab
      parent := (∅ : TreeMap VectorInt VectorInt).insert src src } = .ok r) (hle : fuel ≤ fuel') :
    findPath canGo pick src maxDepth fuel' dest =
      (traceLoop fuel' r.2.parent [] (if r.1 then dest else nearest src dest r.2.best)).bind
        fun path => .ok (some path.reverse) := by
  unfold findPath
  dsimp only
  rw [if_neg hdepth, searchLoop_mono hloop hle, ok_bind]
  rfl

/-- What a search has found when `FindPath` traces `path` from its last cell. -/
structure Found (canGo : VectorInt → Outcome Bool) (src : VectorInt) (maxDepth : Int32) (dest : VectorInt)
    (found : Bool) (s : Search) (seen closed path : List VectorInt) (last : VectorInt) : Prop where
  searched : Searched canGo src maxDepth dest found s seen closed
  last_eq : last = if found then dest else nearest src dest s.best
  last_seen : last ∈ seen
  lineage : Lineage src (fun c => s.parent[c]?) last path.reverse
  nodup : path.Nodup

/-- At the start the source is scored. -/
theorem start_scored (c : VectorInt) (v : Int32) :
    ((∅ : TreeMap VectorInt Int32).insert src (dest.sub src).taxicab)[c]? = some v ↔
      c ∈ [src] ∧ v = (dest.sub c).taxicab := by
  rw [insert_empty, List.mem_singleton]
  constructor
  · rintro ⟨rfl, hv⟩
    exact ⟨rfl, hv⟩
  · rintro ⟨rfl, hv⟩
    exact ⟨rfl, hv⟩

/-- **`FindPath` ends, when `dest` alone is scored 0**, and traces a path to the last cell. -/
theorem findPath_ranked {κ : Type} [LinearOrder κ] {cost : VectorInt → κ} (hgo : ∀ c, ∃ b, canGo c = .ok b)
    (hsole : SoleZero canGo src maxDepth dest) (hdepth : ¬ maxDepth ≤ (dest.sub src).taxicab)
    (hrank : Ranks pick dest cost) :
    ∃ n path, (∀ fuel, n ≤ fuel → findPath canGo pick src maxDepth fuel dest = .ok (some path)) ∧
      ∃ found s seen closed last, Found canGo src maxDepth dest found s seen closed path last ∧
        Explored (Enters canGo src maxDepth) cost src dest (fun c => s.parent[c]?) seen closed := by
  obtain ⟨n, hn⟩ := cells_finite
  have hex : Explored (Enters canGo src maxDepth) cost src dest
      (fun c => ((∅ : TreeMap VectorInt VectorInt).insert src src)[c]?) [src] [] :=
    .start (insert_empty.2 ⟨rfl, rfl⟩)
  have hs : Scored dest {
      pq := [⟨(dest.sub src).taxicab, src⟩]
      best := (∅ : TreeMap VectorInt Int32).insert src (dest.sub src).taxicab
      parent := (∅ : TreeMap VectorInt VectorInt).insert src src } [src] [] := by
    refine ⟨start_scored, ?_, List.nodup_cons.2 ⟨List.not_mem_nil, List.nodup_nil⟩⟩
    · intro node
      obtain ⟨cost, pos⟩ := node
      rw [List.mem_singleton, List.mem_singleton, PQNode.mk.injEq]
      constructor
      · rintro ⟨hcost, rfl⟩
        exact ⟨hcost, rfl, List.not_mem_nil⟩
      · rintro ⟨hcost, hpos, -⟩
        obtain rfl : pos = src := hpos
        exact ⟨hcost, rfl⟩
  have hreturns : Returns (searchLoop canGo pick src maxDepth dest (n + 1) _) _ :=
    searchLoop_explores hgo hsole hrank hn hex hs (by simp)
  obtain ⟨⟨found, s⟩, hloop, seen, closed, hranked, hsearched⟩ := returns_iff.1 hreturns
  -- the cell that the path is traced from
  have hlast : (if found then dest else nearest src dest s.best) ∈ seen := by
    cases found with
    | true => exact (hsearched.stopped rfl).1
    | false =>
      have hsrc := (hsearched.best src _).2 ⟨hsearched.explored.tree.root_mem, rfl⟩
      obtain ⟨c, hc⟩ : ∃ c, s.best[nearest src dest s.best]? = some c := nearest_mem ⟨_, hsrc⟩
      exact ((hsearched.best _ _).1 hc).1
  obtain ⟨l, hl, hnodup, -⟩ := hsearched.explored.tree.lineage hlast
  refine ⟨n + 1, l.reverse, ?_, found, s, seen, closed, _, ⟨hsearched, rfl, hlast, ?_, ?_⟩, hranked⟩
  · intro fuel hfuel
    rw [findPath_traces hdepth hloop hfuel, traceLoop_lineage hl (Nat.le_trans (hn l hnodup) (by omega))]
    rfl
  · rw [List.reverse_reverse]
    exact hl
  · exact List.nodup_reverse.2 hnodup

theorem findPath_found (hgo : ∀ c, ∃ b, canGo c = .ok b) (hsole : SoleZero canGo src maxDepth dest)
    (hdepth : ¬ maxDepth ≤ (dest.sub src).taxicab) :
    ∃ n path, (∀ fuel, n ≤ fuel → findPath canGo pick src maxDepth fuel dest = .ok (some path)) ∧
      ∃ found s seen closed last, Found canGo src maxDepth dest found s seen closed path last := by
  obtain ⟨n, path, hpath, found, s, seen, closed, last, hfound, -⟩ :=
    findPath_ranked hgo hsole hdepth (ranks_costTo pick dest)
  exact ⟨n, path, hpath, found, s, seen, closed, last, hfound⟩

/-- At once `FindPath` finds nothing when `dest` is too far. -/
theorem findPath_far (hdepth : maxDepth ≤ (dest.sub src).taxicab) :
    findPath canGo pick src maxDepth fuel dest = .ok none := by
  unfold findPath
  exact if_pos hdepth

/-- A path is returned only when `dest` is not too far. -/
theorem findPath_near {path : List VectorInt} (h : findPath canGo pick src maxDepth fuel dest = .ok (some path)) :
    ¬ maxDepth ≤ (dest.sub src).taxicab := by
  intro hfar
  rw [findPath_far hfar] at h
  exact absurd (Except.ok.inj h).symm (Option.some_ne_none path)

/-- What has been found when a path is returned. -/
theorem findPath_found_of (hgo : ∀ c, ∃ b, canGo c = .ok b) (hsole : SoleZero canGo src maxDepth dest)
    {path : List VectorInt} (h : findPath canGo pick src maxDepth fuel dest = .ok (some path)) :
    ∃ found s seen closed last, Found canGo src maxDepth dest found s seen closed path last := by
  obtain ⟨n, path', hpath', hfound⟩ := findPath_found hgo hsole (findPath_near h)
  have hsame := findPath_mono h (Nat.le_max_left fuel n)
  rw [hpath' _ (Nat.le_max_right fuel n)] at hsame
  obtain rfl : path' = path := Option.some.inj (Except.ok.inj hsame)
  exact hfound

end ZeldaServer
