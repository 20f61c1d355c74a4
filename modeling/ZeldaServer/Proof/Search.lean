import ZeldaServer.Lib.BestFirst
import ZeldaServer.Proof.FindPath
import Mathlib.Data.FinEnum

/-!
# The search loop is a best-first search

A score of 0 in `best` stands for a cell that was not visited. As long as no cell but
`dest` is at distance 0 of `dest`, every cell is visited once: no neighbour of `dest` is
expanded while `dest` is in the queue. The loop then is the best-first search of the
library, whatever the queue gives out among nodes of equal cost, and it ends because a
cell is not expanded twice.

* `Ranks`: an order of the nodes that the queue keeps, by their costs at least.
* `searchLoop_explores`: the loop is a best-first search in that order.
-/

namespace ZeldaServer

open Lib Std

theorem front_nodup : front.Nodup := by decide

theorem VectorInt.add_sub_self (p dir : VectorInt) : (p.add dir).sub p = dir := by
  unfold VectorInt.add VectorInt.sub
  have hx : p.x + dir.x - p.x = dir.x := by grind
  have hy : p.y + dir.y - p.y = dir.y := by grind
  rw [hx, hy]

/-- The four neighbours are different cells. -/
theorem add_inj {p dir dir' : VectorInt} (h : p.add dir = p.add dir') : dir = dir' := by
  rw [← p.add_sub_self dir, h, p.add_sub_self]

/-- A neighbour is at distance 1. -/
theorem taxicab_add {p dir : VectorInt} (h : dir ∈ front) : ((p.add dir).sub p).taxicab = 1 := by
  rw [VectorInt.add_sub_self]
  revert dir
  decide

theorem taxicab_self (p : VectorInt) : (p.sub p).taxicab = 0 := by
  have hp : p.sub p = {} := by
    unfold VectorInt.sub
    rw [Int32.sub_self, Int32.sub_self]
  rw [hp]
  decide

/-- There are finitely many cells. -/
theorem cells_finite : ∃ n : ℕ, ∀ l : List VectorInt, l.Nodup → l.length ≤ n := by
  let code : VectorInt → Int32 × Int32 := fun c => (c.x, c.y)
  have hcode : Function.Injective code := by
    intro a b h
    obtain ⟨hx, hy⟩ := Prod.mk.inj h
    exact VectorInt.mk.injEq .. ▸ ⟨hx, hy⟩
  refine ⟨Fintype.card (Int32 × Int32), ?_⟩
  intro l hl
  have := (hl.map hcode).length_le_card
  rwa [List.length_map] at this

section

variable (canGo : VectorInt → Outcome Bool) (src : VectorInt) (maxDepth : Int32) (dest : VectorInt)

/-- A step of the search: from `p` to its neighbour `c`. -/
def Enters (p c : VectorInt) : Prop :=
  (∃ dir ∈ front, c = p.add dir) ∧ canGo c = .ok true ∧ (src.sub c).taxicab < maxDepth

/-- What the search may reach. -/
def Reaches : VectorInt → Prop := Relation.ReflTransGen (Enters canGo src maxDepth) src

/-- The cost of a node at `c`. -/
def costTo (c : VectorInt) : ℤ := (dest.sub c).taxicab.toInt

/-- Best-first searches to `dest`. -/
abbrev Explores : (VectorInt → Option VectorInt) → List VectorInt → List VectorInt → Prop :=
  Explored (Enters canGo src maxDepth) (costTo dest) src dest

/-- No cell but `dest` that a search enters is at distance 0 of `dest`. -/
def SoleZero : Prop :=
  ∀ parent seen closed, Explores canGo src maxDepth dest parent seen closed →
    ∀ p ∈ seen, ∀ c ∈ seen, Enters canGo src maxDepth p c → (dest.sub c).taxicab = 0 → c = dest

/-- The cells `seen` are scored, and those that are not `closed` are queued. -/
structure Scored (s : Search) (seen closed : List VectorInt) : Prop where
  best : ∀ (c : VectorInt) (v : Int32), s.best[c]? = some v ↔ c ∈ seen ∧ v = (dest.sub c).taxicab
  queue : ∀ node, node ∈ s.pq ↔
    node.cost = (dest.sub node.pos).taxicab ∧ node.pos ∈ seen ∧ node.pos ∉ closed
  once : s.pq.Nodup

/-- The expansion of `p`, where the cells `seen` are scored, has tried the directions
`before` and pushed the cells `pushed`: those that were not scored, or with 0. -/
structure Expands (s₀ : Search) (seen : List VectorInt) (p : VectorInt) (before pushed : List VectorInt)
    (s : Search) : Prop where
  nodup : pushed.Nodup
  mem : ∀ c, c ∈ pushed ↔ (∃ dir ∈ before, c = p.add dir) ∧ Enters canGo src maxDepth p c ∧
    (c ∈ seen → (dest.sub c).taxicab = 0)
  best : ∀ (c : VectorInt) (v : Int32), s.best[c]? = some v ↔ (c ∈ pushed ∨ c ∈ seen) ∧ v = (dest.sub c).taxicab
  queue : s.pq = s₀.pq ++ pushed.map fun c => ⟨(dest.sub c).taxicab, c⟩
  linked : ∀ c ∈ pushed, s.parent[c]? = some p
  kept : ∀ c, c ∉ pushed → s.parent[c]? = s₀.parent[c]?

end

variable {canGo : VectorInt → Outcome Bool} {pick : Pick} {src dest p : VectorInt} {maxDepth : Int32}
  {seen closed : List VectorInt} {s s₀ : Search}

section

variable {node : PQNode} {dir : VectorInt} {before pushed : List VectorInt}
  (h : Expands canGo src maxDepth dest s₀ seen p before pushed s)

include h

/-- The direction `dir` leads to no cell to push. -/
theorem Expands.skip (hno : Enters canGo src maxDepth p (p.add dir) →
      p.add dir ∈ seen ∧ (dest.sub (p.add dir)).taxicab ≠ 0) :
    Expands canGo src maxDepth dest s₀ seen p (before ++ [dir]) pushed s := by
  refine ⟨h.nodup, ?_, h.best, h.queue, h.linked, h.kept⟩
  intro c
  rw [h.mem]
  constructor
  · rintro ⟨⟨d, hd, heq⟩, hrest⟩
    exact ⟨⟨d, List.mem_append_left _ hd, heq⟩, hrest⟩
  · rintro ⟨⟨d, hd, heq⟩, henters, hzero⟩
    refine ⟨?_, henters, hzero⟩
    rw [List.mem_append, List.mem_singleton] at hd
    rcases hd with hd | hd
    · exact ⟨d, hd, heq⟩
    · rw [heq, hd] at henters hzero
      obtain ⟨hseen, hne⟩ := hno henters
      exact absurd (hzero hseen) hne

theorem Expands.not_pushed (hnew : dir ∉ before) : p.add dir ∉ pushed := by
  intro hmem
  obtain ⟨⟨d, hd, heq⟩, -⟩ := (h.mem _).1 hmem
  rw [add_inj heq] at hnew
  exact hnew hd

/-- The direction `dir` leads to a cell to push. -/
theorem Expands.push (henters : Enters canGo src maxDepth p (p.add dir)) (hnew : dir ∉ before)
    (hzero : p.add dir ∈ seen → (dest.sub (p.add dir)).taxicab = 0) {best : TreeMap VectorInt Int32}
    (hbest : ∀ d : VectorInt, d ≠ p.add dir → best[d]? = s.best[d]?) :
    Expands canGo src maxDepth dest s₀ seen p (before ++ [dir]) (pushed ++ [p.add dir]) {
      best := best.insert (p.add dir) (dest.sub (p.add dir)).taxicab
      pq := s.pq ++ [⟨(dest.sub (p.add dir)).taxicab, p.add dir⟩]
      parent := s.parent.insert (p.add dir) p } := by
  have hnot := h.not_pushed hnew
  refine ⟨?_, ?_, ?_, ?_, ?_, ?_⟩
  · rw [List.nodup_append]
    refine ⟨h.nodup, List.nodup_singleton _, ?_⟩
    intro a ha b hb heq
    rw [List.mem_singleton.1 hb] at heq
    rw [heq] at ha
    exact hnot ha
  · intro c
    rw [List.mem_append, List.mem_singleton, h.mem]
    constructor
    · rintro (⟨⟨d, hd, heq⟩, hrest⟩ | heq)
      · exact ⟨⟨d, List.mem_append_left _ hd, heq⟩, hrest⟩
      · rw [heq]
        exact ⟨⟨dir, by simp, rfl⟩, henters, hzero⟩
    · rintro ⟨⟨d, hd, heq⟩, hrest⟩
      rw [List.mem_append, List.mem_singleton] at hd
      rcases hd with hd | hd
      · exact .inl ⟨⟨d, hd, heq⟩, hrest⟩
      · right
        rw [heq, hd]
  · intro c v
    rw [TreeMap.getElem?_insert, List.mem_append, List.mem_singleton]
    split
    · rename_i hkey
      rw [Std.compare_eq_iff_eq.1 hkey, Option.some.injEq]
      constructor
      · intro hv
        exact ⟨.inl (.inr rfl), hv.symm⟩
      · intro hv
        exact hv.2.symm
    · rename_i hkey
      have hne : c ≠ p.add dir := by
        intro heq
        exact hkey (Std.compare_eq_iff_eq.2 heq.symm)
      rw [hbest c hne, h.best]
      simp [hne]
  · rw [h.queue, List.map_append, List.append_assoc]
    rfl
  · intro c hc
    rw [TreeMap.getElem?_insert]
    split
    · rfl
    · rename_i hkey
      rcases List.mem_append.1 hc with hc | hc
      · exact h.linked c hc
      · exact absurd (Std.compare_eq_iff_eq.2 (List.mem_singleton.1 hc).symm) hkey
  · intro c hc
    rw [List.mem_append, List.mem_singleton, not_or] at hc
    rw [TreeMap.getElem?_insert, if_neg, h.kept c hc.1]
    intro hkey
    exact hc.2 (Std.compare_eq_iff_eq.1 hkey).symm

end

/-- One pass of the loop over `front`. -/
theorem visit_expands {node : PQNode} {dir : VectorInt} {before pushed : List VectorInt}
    (hgo : ∀ c, ∃ b, canGo c = .ok b)
    (h : Expands canGo src maxDepth dest s₀ seen node.pos before pushed s)
    (hdir : dir ∈ front) (hnew : dir ∉ before) :
    Returns (visit canGo src maxDepth dest node s dir) fun s' =>
      ∃ pushed, Expands canGo src maxDepth dest s₀ seen node.pos (before ++ [dir]) pushed s' := by
  unfold visit
  dsimp only
  obtain ⟨b, hb⟩ := hgo (node.pos.add dir)
  rw [hb, ok_bind]
  split
  · rename_i hfalse
    refine .ok ⟨pushed, h.skip ?_⟩
    intro henters
    rw [henters.2.1, Except.ok.injEq] at hb
    rw [← hb] at hfalse
    exact absurd hfalse (by decide)
  rename_i htrue
  rw [Bool.not_eq_false] at htrue
  split
  · rename_i hdepth
    refine .ok ⟨pushed, h.skip ?_⟩
    intro henters
    exact absurd hdepth (Int32.not_le.2 henters.2.2)
  rename_i hdepth
  have henters : Enters canGo src maxDepth node.pos (node.pos.add dir) :=
    ⟨⟨dir, hdir, rfl⟩, by rw [hb, htrue], Int32.not_le.1 hdepth⟩
  cases hbest : s.best[node.pos.add dir]? with
  | some v =>
    -- scored before
    obtain ⟨hmem, hv⟩ := (h.best _ _).1 hbest
    have hseen : node.pos.add dir ∈ seen := by
      rcases hmem with hpushed | hseen
      · exact absurd hpushed (h.not_pushed hnew)
      · exact hseen
    rw [index_eq hbest]
    dsimp only
    split
    · rename_i hscore
      refine .ok ⟨pushed, h.skip fun _ => ⟨hseen, ?_⟩⟩
      rw [← hv]
      exact hscore.1
    · rename_i hscore
      refine .ok ⟨_, h.push henters hnew ?_ fun _ _ => rfl⟩
      intro _
      by_contra hne
      rw [← hv] at hne
      exact hscore ⟨hne, hv ▸ Int32.le_refl _⟩
  | none =>
    rw [index_none hbest]
    simp only
    rw [if_neg (by simp)]
    refine .ok ⟨_, h.push henters hnew ?_ ?_⟩
    · intro hseen
      have := (h.best _ _).2 ⟨.inr hseen, rfl⟩
      rw [hbest] at this
      exact absurd this.symm (Option.some_ne_none _)
    · intro d hd
      rw [TreeMap.getElem?_insert, if_neg]
      intro hkey
      exact hd (Std.compare_eq_iff_eq.1 hkey).symm

/-- **The loop over `front`** pushes the neighbours that were not scored, or with 0. -/
theorem front_expands {node : PQNode} (hgo : ∀ c, ∃ b, canGo c = .ok b)
    (hbest : ∀ (c : VectorInt) (v : Int32), s.best[c]? = some v ↔ c ∈ seen ∧ v = (dest.sub c).taxicab) :
    Returns (front.foldlM (visit canGo src maxDepth dest node) s) fun s' =>
      ∃ pushed, Expands canGo src maxDepth dest s seen node.pos front pushed s' := by
  have hstart : ∃ pushed, Expands canGo src maxDepth dest s seen node.pos [] pushed s := by
    refine ⟨[], List.nodup_nil, ?_, ?_, ?_, ?_, fun _ _ => rfl⟩
    · intro c
      simp
    · intro c v
      rw [hbest]
      simp
    · rw [List.map_nil, List.append_nil]
    · intro c hc
      exact absurd hc List.not_mem_nil
  refine Post.foldlM_before (I := fun before s' => ∃ pushed,
    Expands canGo src maxDepth dest s seen node.pos before pushed s') ?_ (List.nil_append front).symm hstart
  intro before dir after s' hsplit hI
  obtain ⟨pushed, hI⟩ := hI
  have hnodup := front_nodup
  rw [hsplit, List.nodup_append] at hnodup
  refine visit_expands hgo hI ?_ ?_
  · rw [hsplit]
    simp
  · intro hmem
    exact hnodup.2.2 dir hmem dir List.mem_cons_self rfl

/-- All neighbours that the search enters have been found. -/
theorem Expands.all {pushed : List VectorInt} (h : Expands canGo src maxDepth dest s₀ seen p front pushed s) {c : VectorInt}
    (henters : Enters canGo src maxDepth p c) : c ∈ pushed ∨ c ∈ seen := by
  by_cases hseen : c ∈ seen
  · exact .inr hseen
  · exact .inl ((h.mem c).2 ⟨henters.1, henters, fun hmem => absurd hmem hseen⟩)

/-- When no neighbour was scored 0, new cells have been pushed only. -/
theorem Scored.expanded {pushed : List VectorInt} (hs : Scored dest s₀ seen closed)
    (h : Expands canGo src maxDepth dest s₀ seen p front pushed s) (hclosed : ∀ d ∈ closed, d ∈ seen)
    (hnew : ∀ c ∈ pushed, c ∉ seen) : Scored dest s (pushed ++ seen) closed := by
  refine ⟨?_, ?_, ?_⟩
  · intro c v
    rw [h.best, List.mem_append]
  · intro node
    rw [h.queue, List.mem_append, List.mem_map, hs.queue, List.mem_append]
    constructor
    · rintro (⟨hcost, hseen, hopen⟩ | ⟨c, hc, heq⟩)
      · exact ⟨hcost, .inr hseen, hopen⟩
      · rw [← heq]
        exact ⟨rfl, .inl hc, fun hmem => hnew c hc (hclosed c hmem)⟩
    · rintro ⟨hcost, hpushed | hseen, hopen⟩
      · right
        obtain ⟨cost, pos⟩ := node
        refine ⟨pos, hpushed, ?_⟩
        rw [show cost = _ from hcost]
      · exact .inl ⟨hcost, hseen, hopen⟩
  · rw [h.queue, List.nodup_append]
    refine ⟨hs.once, ?_, ?_⟩
    · refine h.nodup.map ?_
      intro c d heq
      exact congrArg PQNode.pos heq
    · intro node hnode other hother heq
      obtain ⟨c, hc, hc'⟩ := List.mem_map.1 hother
      rw [heq, ← hc', hs.queue] at hnode
      exact hnew c hc hnode.2.1

/-! ## The queue -/

theorem exists_top {pq : List PQNode} (hne : pq ≠ []) : ∃ node ∈ pq, ∀ other ∈ pq, node.cost ≤ other.cost := by
  induction pq with
  | nil => exact absurd rfl hne
  | cons node pq ih =>
    by_cases hnil : pq = []
    · rw [hnil]
      refine ⟨node, List.mem_cons_self, ?_⟩
      intro other hother
      rw [List.mem_singleton.1 hother]
      exact Int32.le_refl _
    · obtain ⟨top, hmem, hmin⟩ := ih hnil
      rcases Int32.le_total node.cost top.cost with hle | hle
      · refine ⟨node, List.mem_cons_self, ?_⟩
        intro other hother
        rcases List.mem_cons.1 hother with heq | hother
        · rw [heq]
          exact Int32.le_refl _
        · exact Int32.le_trans hle (hmin other hother)
      · refine ⟨top, List.mem_cons_of_mem _ hmem, ?_⟩
        intro other hother
        rcases List.mem_cons.1 hother with heq | hother
        · rw [heq]
          exact hle
        · exact hmin other hother

/-- The queue gives out a node as long as it has one. -/
theorem popTop_none {pq : List PQNode} (h : popTop pick pq = none) : pq = [] := by
  by_contra hne
  obtain ⟨node, hmem, hmin⟩ := exists_top hne
  unfold popTop at h
  rw [Option.map_eq_none_iff, List.getElem?_eq_none_iff] at h
  have htop : node ∈ pq.filter fun node => pq.all fun other => node.cost ≤ other.cost := by
    rw [List.mem_filter]
    exact ⟨hmem, by simpa using hmin⟩
  exact absurd (Nat.mod_lt _ (List.length_pos_of_mem htop)) (Nat.not_lt.2 h)

/-- The queue gives out a node of least cost. -/
theorem popTop_min {pq pq' : List PQNode} {node : PQNode} (h : popTop pick pq = some (node, pq')) :
    ∀ other ∈ pq, node.cost ≤ other.cost := by
  unfold popTop at h
  obtain ⟨node', hnode, heq⟩ := Option.map_eq_some_iff.1 h
  rw [← (Prod.mk.inj heq).1]
  simpa using (List.mem_filter.1 (List.mem_of_getElem? hnode)).2

/-! ## The loop -/

/-- What the search loop returns: it stopped at `dest`, or it expanded all that it found. -/
structure Searched (canGo : VectorInt → Outcome Bool) (src : VectorInt) (maxDepth : Int32) (dest : VectorInt)
    (found : Bool) (s : Search) (seen closed : List VectorInt) : Prop where
  explored : Explores canGo src maxDepth dest (fun c => s.parent[c]?) seen closed
  best : ∀ (c : VectorInt) (v : Int32), s.best[c]? = some v ↔ c ∈ seen ∧ v = (dest.sub c).taxicab
  stopped : found = true → dest ∈ seen ∧ ∀ d ∈ seen, d ∉ closed → costTo dest dest ≤ costTo dest d
  emptied : found = false → ∀ c ∈ seen, c ∈ closed

/-- The queue gives out the nodes in the order of `cost`, which refines that of the distances. -/
structure Ranks {κ : Type} [LinearOrder κ] (pick : Pick) (dest : VectorInt) (cost : VectorInt → κ) : Prop where
  coarse : ∀ p d, cost p ≤ cost d → costTo dest p ≤ costTo dest d
  least : ∀ pq node pq', popTop pick pq = some (node, pq') → (∀ other ∈ pq, other.cost = (dest.sub other.pos).taxicab) →
    ∀ other ∈ pq, cost node.pos ≤ cost other.pos

/-- Every queue gives them out by their distances. -/
theorem ranks_costTo (pick : Pick) (dest : VectorInt) : Ranks pick dest (costTo dest) := by
  refine ⟨fun p d hle => hle, ?_⟩
  intro pq node pq' hpop hcost other hother
  unfold costTo
  rw [← hcost node (popTop_mem hpop).1, ← hcost other hother, ← Int32.le_iff_toInt_le]
  exact popTop_min hpop other hother

variable {κ : Type} [LinearOrder κ] {cost : VectorInt → κ}

/-- The node that the queue gives out was seen, is not closed and costs the least. -/
theorem Scored.popped (hs : Scored dest s seen closed) (hrank : Ranks pick dest cost) {node : PQNode} {pq : List PQNode}
    (hpop : popTop pick s.pq = some (node, pq)) :
    s.best[node.pos]? = some node.cost ∧ node.pos ∈ seen ∧ node.pos ∉ closed ∧
      (∀ d ∈ seen, d ∉ closed → cost node.pos ≤ cost d) ∧
      Scored dest { s with pq := pq } seen (node.pos :: closed) := by
  obtain ⟨hmem, hpq⟩ := popTop_mem hpop
  obtain ⟨hcost, hseen, hopen⟩ := (hs.queue node).1 hmem
  refine ⟨(hs.best _ _).2 ⟨hseen, hcost⟩, hseen, hopen, ?_, hs.best, ?_, ?_⟩
  · intro d hd hdopen
    have hqueued := (hs.queue ⟨(dest.sub d).taxicab, d⟩).2 ⟨rfl, hd, hdopen⟩
    exact hrank.least s.pq node pq hpop (fun other hother => ((hs.queue other).1 hother).1) _ hqueued
  · intro other
    rw [hpq, hs.once.mem_erase_iff, hs.queue, List.mem_cons, not_or]
    constructor
    · rintro ⟨hne, hc, hs, hopen⟩
      refine ⟨hc, hs, ?_, hopen⟩
      intro hpos
      apply hne
      obtain ⟨cost, pos⟩ := node
      obtain ⟨cost', pos'⟩ := other
      obtain rfl : pos' = pos := hpos
      rw [show cost' = _ from hc, show cost = _ from hcost]
    · rintro ⟨hc, hs, hpos, hopen⟩
      refine ⟨?_, hc, hs, hopen⟩
      intro heq
      exact hpos (by rw [heq])
  · rw [hpq]
    exact hs.once.erase _

/-- No neighbour of `dest` is expanded while `dest` is open: a cell seen before has no score 0. -/
theorem SoleZero.scored (hsole : SoleZero canGo src maxDepth dest) {parent : VectorInt → Option VectorInt}
    (hex : Explores canGo src maxDepth dest parent seen closed) (hp : p ∈ seen)
    (hmin : ∀ d ∈ seen, d ∉ closed → costTo dest p ≤ costTo dest d) :
    ∀ c ∈ seen, Enters canGo src maxDepth p c → (dest.sub c).taxicab ≠ 0 := by
  intro c hc henters hzero
  have hdest := hsole parent seen closed hex p hp c hc henters hzero
  rw [hdest] at hc henters
  obtain ⟨dir, hdir, heq⟩ := henters.1
  have hle := hmin dest hc hex.goal_open
  unfold costTo at hle
  rw [taxicab_self, ← Int32.le_iff_toInt_le] at hle
  rw [show dest.sub p = (p.add dir).sub p by rw [← heq], taxicab_add hdir] at hle
  exact absurd hle (by decide)

/-- **The search loop ends, and is a best-first search.** -/
theorem searchLoop_explores {n fuel : ℕ} (hgo : ∀ c, ∃ b, canGo c = .ok b)
    (hsole : SoleZero canGo src maxDepth dest) (hrank : Ranks pick dest cost)
    (hn : ∀ l : List VectorInt, l.Nodup → l.length ≤ n)
    (hex : Explored (Enters canGo src maxDepth) cost src dest (fun c => s.parent[c]?) seen closed)
    (hs : Scored dest s seen closed) (hfuel : n < fuel + closed.length) :
    Returns (searchLoop canGo pick src maxDepth dest fuel s) fun r =>
      ∃ seen closed, Explored (Enters canGo src maxDepth) cost src dest (fun c => r.2.parent[c]?) seen closed ∧
        Searched canGo src maxDepth dest r.1 r.2 seen closed := by
  induction fuel generalizing s seen closed with
  | zero =>
    -- a cell is not expanded twice
    have := hn closed hex.closed_nodup
    omega
  | succ fuel ih =>
    unfold searchLoop
    have hdists := hex.coarsen hrank.coarse
    cases hpop : popTop pick s.pq with
    | none =>
      refine .ok ⟨seen, closed, hex, hdists, hs.best, ?_, ?_⟩
      · intro h
        exact absurd h Bool.false_ne_true
      · intro _ c hc
        by_contra hopen
        have hmem := (hs.queue ⟨(dest.sub c).taxicab, c⟩).2 ⟨rfl, hc, hopen⟩
        rw [popTop_none hpop] at hmem
        exact absurd hmem List.not_mem_nil
    | some top =>
      obtain ⟨node, pq⟩ := top
      obtain ⟨hbest, hseen, hopen, hmin, hs'⟩ := hs.popped hrank hpop
      have hnear : ∀ d ∈ seen, d ∉ closed → costTo dest node.pos ≤ costTo dest d := fun d hd hdopen =>
        hrank.coarse _ d (hmin d hd hdopen)
      dsimp only
      rw [index_eq hbest, if_neg (Int32.not_lt.2 (Int32.le_refl _))]
      split
      · rename_i hdest
        rw [hdest] at hnear hseen
        refine .ok ⟨seen, closed, hex, hdists, hs.best, ?_, ?_⟩
        · intro _
          exact ⟨hseen, hnear⟩
        · intro h
          exact absurd h.symm Bool.false_ne_true
      rename_i hdest
      have hzero := hsole.scored hdists hseen hnear
      have hclosed : ∀ d ∈ node.pos :: closed, d ∈ seen := by
        intro d hd
        rcases List.mem_cons.1 hd with heq | hd
        · rw [heq]
          exact hseen
        · exact hex.closed_seen d hd
      refine (front_expands hgo hs'.best).bind fun s' hexp => ?_
      obtain ⟨pushed, hexp⟩ := hexp
      have hnew : ∀ c ∈ pushed, c ∉ seen := by
        intro c hc hmem
        obtain ⟨-, henters, hscore⟩ := (hexp.mem c).1 hc
        exact hzero c hmem henters (hscore hmem)
      have hex' : Explored (Enters canGo src maxDepth) cost src dest (fun c => s'.parent[c]?)
          (pushed ++ seen) (node.pos :: closed) := by
        refine .expand hex hseen hopen hdest hmin hexp.nodup ?_ ?_ ?_
        · intro c hc
          exact ⟨((hexp.mem c).1 hc).2.1, hnew c hc, hexp.linked c hc⟩
        · intro c henters
          exact hexp.all henters
        · intro c hc
          apply hexp.kept
          intro hpushed
          exact hnew c hpushed hc
      apply ih hex' (hs'.expanded hexp hclosed hnew)
      rw [List.length_cons]
      omega

end ZeldaServer
