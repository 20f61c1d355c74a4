import ZeldaServer.Lib.Revisit
import ZeldaServer.Proof.Contract

/-!
# The cell opposite to dest

The wrapping distance to `dest` is 0 at one other cell, the one that is `2 ^ 31` away from
`dest` in both directions. Its score of 0 stands for a cell that was not visited, so it is
pushed again by every neighbour that is expanded, and that neighbour becomes its parent.
Near to it the distance to `dest` is negative, and the lower the farther a cell is from it.
So it is expanded after all that is reached without it.

* `taxicab_zero`: the two cells at distance 0.
* `Requeued`: what the search loop keeps when one cell is pushed again and again.
* `searchLoop_revisits`: the search loop ends, and is a search of the library's kind.
-/

namespace ZeldaServer

open Lib Std

/-- The cell that is `2 ^ 31` away in both directions. -/
def VectorInt.opposite (dest : VectorInt) : VectorInt := dest.add ⟨Int32.minValue, Int32.minValue⟩

variable {canGo : VectorInt → Outcome Bool} {pick : Pick} {src dest c p : VectorInt} {maxDepth : Int32}

/-! ## Distances across the seam -/

/-- A wrapped number is the number up to a multiple of `2 ^ 32`. -/
theorem bmod_wrap (n : ℤ) : ∃ k : ℤ, n.bmod (2 ^ 32) = n + k * 2 ^ 32 := by
  refine ⟨-n.bdiv (2 ^ 32), ?_⟩
  rw [Int.bmod_eq_self_sub_bdiv_mul]
  rw [Int.neg_mul, Int.sub_eq_add_neg]
  rfl

/-- Sums wrap around. -/
theorem toInt_add_wrap (a b : Int32) : ∃ k : ℤ, (a + b).toInt = a.toInt + b.toInt + k * 2 ^ 32 := by
  rw [Int32.toInt_add]
  exact bmod_wrap _

theorem toInt_sub_wrap (a b : Int32) : ∃ k : ℤ, (a - b).toInt = a.toInt - b.toInt + k * 2 ^ 32 := by
  rw [Int32.toInt_sub]
  exact bmod_wrap _

/-- The least `int32` is its own absolute value. -/
theorem abs32_cases (n : Int32) : (abs32 n).toInt = n.toInt.natAbs ∨ n.toInt = -2 ^ 31 ∧ (abs32 n).toInt = -2 ^ 31 := by
  have hle := n.le_toInt
  by_cases hmin : n.toInt = -2 ^ 31
  · right
    have hn : n = Int32.minValue := by
      rw [← Int32.toInt_inj, hmin]
      rfl
    rw [hn]
    exact ⟨rfl, rfl⟩
  · left
    exact abs32_toInt (by omega)

/-- Absolute values sum to 0 in two cases. -/
theorem abs32_add {a b : Int32} (h : abs32 a + abs32 b = 0) :
    a.toInt = 0 ∧ b.toInt = 0 ∨ a.toInt = -2 ^ 31 ∧ b.toInt = -2 ^ 31 := by
  obtain ⟨k, hk⟩ := toInt_add_wrap (abs32 a) (abs32 b)
  rw [h, Int32.toInt_zero] at hk
  have halt := (abs32 a).toInt_lt
  have hblt := (abs32 b).toInt_lt
  rcases abs32_cases a with ha | ⟨ha, ha'⟩
  · rcases abs32_cases b with hb | ⟨hb, hb'⟩
    · omega
    · omega
  · rcases abs32_cases b with hb | ⟨hb, hb'⟩
    · omega
    · omega

/-- A coordinate of the opposite cell. -/
theorem toInt_opposite (a : Int32) : ∃ k : ℤ, (a + Int32.minValue).toInt = a.toInt - 2 ^ 31 + k * 2 ^ 32 := by
  obtain ⟨k, hk⟩ := toInt_add_wrap a Int32.minValue
  rw [Int32.toInt_minValue] at hk
  exact ⟨k, by omega⟩

/-- The distance to `a`, by that to the coordinate opposite to `a`. -/
theorem abs32_opposite {a b : Int32} (h : ((a + Int32.minValue).toInt - b.toInt).natAbs < 2 ^ 31) : ∃ k : ℤ,
    (abs32 (a - b)).toInt = 2 ^ 31 - ((a + Int32.minValue).toInt - b.toInt).natAbs + k * 2 ^ 32 := by
  obtain ⟨k, hk⟩ := toInt_opposite a
  obtain ⟨l, hl⟩ := toInt_sub_wrap a b
  have hlt := (a - b).toInt_lt
  have hle := (a - b).le_toInt
  rcases abs32_cases (a - b) with habs | ⟨hmin, habs⟩
  · exact ⟨0, by omega⟩
  · exact ⟨-1, by omega⟩

/-- Near to the opposite cell the distance to `dest` is negative. -/
theorem taxicab_opposite (h : dest.opposite.dist c < 2 ^ 31) :
    (dest.sub c).taxicab.toInt = -(dest.opposite.dist c : ℤ) := by
  unfold VectorInt.dist VectorInt.opposite VectorInt.add at h ⊢
  dsimp only at h ⊢
  obtain ⟨k, hk⟩ := abs32_opposite (a := dest.x) (b := c.x) (by omega)
  obtain ⟨l, hl⟩ := abs32_opposite (a := dest.y) (b := c.y) (by omega)
  obtain ⟨j, hj⟩ := toInt_add_wrap (abs32 (dest.y - c.y)) (abs32 (dest.x - c.x))
  have hlt := (abs32 (dest.y - c.y) + abs32 (dest.x - c.x)).toInt_lt
  have hle := (abs32 (dest.y - c.y) + abs32 (dest.x - c.x)).le_toInt
  unfold VectorInt.taxicab VectorInt.sub
  dsimp only
  rw [hj, hk, hl] at hlt hle ⊢
  generalize ((dest.x + Int32.minValue).toInt - c.x.toInt).natAbs = m at h hlt hle ⊢
  generalize ((dest.y + Int32.minValue).toInt - c.y.toInt).natAbs = n at h hlt hle ⊢
  omega

/-- **Two cells are at distance 0 of `dest`.** -/
theorem taxicab_zero (h : (dest.sub c).taxicab = 0) : c = dest ∨ c = dest.opposite := by
  have hmin : Int32.minValue = -Int32.minValue := by decide
  have hc : ∀ {a b : Int32}, (a - b).toInt = (0 : Int32).toInt → b = a := by
    intro a b hab
    have := Int32.toInt_inj.1 hab
    grind
  have hopp : ∀ {a b : Int32}, (a - b).toInt = Int32.minValue.toInt → b = a + Int32.minValue := by
    intro a b hab
    have := Int32.toInt_inj.1 hab
    grind
  rcases abs32_add h with ⟨hy, hx⟩ | ⟨hy, hx⟩
  · left
    obtain ⟨x, y⟩ := c
    rw [hc (a := dest.x) (b := x) hx, hc (a := dest.y) (b := y) hy]
  · right
    obtain ⟨x, y⟩ := c
    rw [hopp (a := dest.x) (b := x) hx, hopp (a := dest.y) (b := y) hy]
    rfl

theorem opposite_ne (dest : VectorInt) : dest.opposite ≠ dest := by
  intro h
  have hx := congrArg VectorInt.x h
  unfold VectorInt.opposite VectorInt.add at hx
  have hmin : Int32.minValue = 0 := by
    dsimp only at hx
    grind
  exact absurd hmin (by decide)

/-! ## The search -/

/-- A cell is not its own neighbour. -/
theorem Enters.ne (h : Enters canGo src maxDepth p c) : c ≠ p := by
  obtain ⟨⟨dir, hdir, heq⟩, -⟩ := h
  rw [heq]
  exact add_ne hdir

theorem front_neg : ∀ dir ∈ front, (⟨-dir.x, -dir.y⟩ : VectorInt) ∈ front := by decide

/-- The neighbours of a cell that can be entered enter it. -/
theorem Enters.back {q : VectorInt} (h : Enters canGo src maxDepth p c) (hq : Enters canGo src maxDepth c q) :
    Enters canGo src maxDepth q c := by
  obtain ⟨⟨dir, hdir, heq⟩, -⟩ := hq
  refine ⟨⟨⟨-dir.x, -dir.y⟩, front_neg dir hdir, ?_⟩, h.2⟩
  rw [heq]
  unfold VectorInt.add
  obtain ⟨x, y⟩ := c
  rw [VectorInt.mk.injEq]
  dsimp only
  constructor
  · grind
  · grind

/-- How many nodes are queued for a cell. -/
def copies (c : VectorInt) (pq : List PQNode) : ℕ := pq.countP fun node => node.pos = c

/-- The cells `seen` are scored. Those that are not `closed` are queued, each once, and so
may be `again`. -/
structure Requeued (dest again : VectorInt) (s : Search) (seen closed : List VectorInt) : Prop where
  best : ∀ (c : VectorInt) (v : Int32), s.best[c]? = some v ↔ c ∈ seen ∧ v = (dest.sub c).taxicab
  queued : ∀ node ∈ s.pq, node.cost = (dest.sub node.pos).taxicab ∧ node.pos ∈ seen ∧
    (node.pos ∈ closed → node.pos = again)
  opened : ∀ c ∈ seen, c ∉ closed → ⟨(dest.sub c).taxicab, c⟩ ∈ s.pq
  once : ∀ c, c ≠ again → copies c s.pq ≤ 1

variable {again : VectorInt} {seen closed : List VectorInt} {s s₀ : Search}

theorem copies_append {c : VectorInt} {pq pq' : List PQNode} : copies c (pq ++ pq') = copies c pq + copies c pq' :=
  List.countP_append

theorem copies_pushed {c : VectorInt} {pushed : List VectorInt} (hnodup : pushed.Nodup) :
    copies c (pushed.map fun d => ⟨(dest.sub d).taxicab, d⟩) = if c ∈ pushed then 1 else 0 := by
  unfold copies
  rw [List.countP_map, ← hnodup.count, List.count]
  rfl

theorem copies_pos {c : VectorInt} {pq : List PQNode} {node : PQNode} (h : node ∈ pq) (hpos : node.pos = c) :
    0 < copies c pq := by
  unfold copies
  rw [List.countP_pos_iff]
  exact ⟨node, h, by simpa using hpos⟩

theorem copies_erase {node : PQNode} {pq : List PQNode} (h : node ∈ pq) (c : VectorInt) :
    copies c (pq.erase node) + (if node.pos = c then 1 else 0) = copies c pq := by
  unfold copies
  rw [(List.perm_cons_erase h).countP_eq, List.countP_cons]
  simp

/-- The node that the queue gives out. -/
theorem Requeued.popped (hs : Requeued dest again s seen closed) {node : PQNode} {pq : List PQNode}
    (hpop : popTop pick s.pq = some (node, pq)) :
    s.best[node.pos]? = some node.cost ∧ node.pos ∈ seen ∧ (node.pos ∈ closed → node.pos = again) ∧
      (∀ d ∈ seen, d ∉ closed → costTo dest node.pos ≤ costTo dest d) ∧
      Requeued dest again { s with pq := pq } seen (closed.insert node.pos) ∧
      copies again pq + (if node.pos = again then 1 else 0) = copies again s.pq := by
  obtain ⟨hmem, hpq⟩ := popTop_mem hpop
  obtain ⟨hcost, hseen, honce⟩ := hs.queued node hmem
  have hperm := List.perm_cons_erase hmem
  have hcount := copies_erase hmem
  rw [← hpq] at hperm hcount
  refine ⟨(hs.best _ _).2 ⟨hseen, hcost⟩, hseen, honce, ?_, ⟨hs.best, ?_, ?_, ?_⟩, hcount again⟩
  · intro d hd hdopen
    unfold costTo
    rw [← Int32.le_iff_toInt_le, ← hcost]
    exact popTop_min hpop ⟨_, d⟩ (hs.opened d hd hdopen)
  · intro other hother
    rw [hpq] at hother
    obtain ⟨hc, ho, hclosed⟩ := hs.queued other (List.mem_of_mem_erase hother)
    refine ⟨hc, ho, ?_⟩
    intro hin
    rw [List.mem_insert_iff] at hin
    rcases hin with heq | hin
    · -- no second node for the same cell
      by_contra hne
      have hone := hs.once node.pos (heq ▸ hne)
      rw [← hcount node.pos, if_pos rfl] at hone
      have hpos : 0 < copies node.pos pq := copies_pos (hpq ▸ hother) heq
      omega
    · exact hclosed hin
  · intro d hd hopen
    rw [List.mem_insert_iff, not_or] at hopen
    have hmem := hperm.mem_iff.1 (hs.opened d hd hopen.2)
    rcases List.mem_cons.1 hmem with heq | hmem
    · exact absurd (congrArg PQNode.pos heq) hopen.1
    · exact hmem
  · intro c hne
    have hone := hs.once c hne
    rw [← hcount c] at hone
    exact Nat.le_of_add_right_le hone

/-- What an expansion pushes. -/
theorem Requeued.expanded {pushed : List VectorInt} (hs : Requeued dest again s₀ seen closed)
    (h : Expands canGo src maxDepth dest s₀ seen p front pushed s) (hclosed : ∀ d ∈ closed, d ∈ seen)
    (hnew : ∀ c ∈ pushed, c ∈ seen → c = again) : Requeued dest again s (pushed ++ seen) closed := by
  refine ⟨?_, ?_, ?_, ?_⟩
  · intro c v
    rw [h.best, List.mem_append]
  · intro node hnode
    rw [h.queue, List.mem_append, List.mem_map] at hnode
    rw [List.mem_append]
    rcases hnode with hnode | ⟨c, hc, heq⟩
    · obtain ⟨hcost, hseen, honce⟩ := hs.queued node hnode
      exact ⟨hcost, .inr hseen, honce⟩
    · rw [← heq]
      exact ⟨rfl, .inl hc, fun hin => hnew c hc (hclosed c hin)⟩
  · intro c hc hopen
    rw [h.queue, List.mem_append, List.mem_map]
    rcases List.mem_append.1 hc with hpushed | hseen
    · exact .inr ⟨c, hpushed, rfl⟩
    · exact .inl (hs.opened c hseen hopen)
  · intro c hne
    rw [h.queue, copies_append, copies_pushed h.nodup]
    split
    · rename_i hpushed
      -- a new cell was not queued
      have hzero : copies c s₀.pq = 0 := by
        unfold copies
        rw [List.countP_eq_zero]
        intro node hnode
        have hseen := (hs.queued node hnode).2.1
        rw [decide_eq_true_eq]
        intro heq
        rw [heq] at hseen
        exact hne (hnew c hpushed hseen)
      omega
    · exact hs.once c hne

/-- What the search loop returns when `dest` is out of reach. -/
structure Exhausted (canGo : VectorInt → Outcome Bool) (src : VectorInt) (maxDepth : Int32) (dest again : VectorInt)
    (s : Search) (seen closed : List VectorInt) : Prop where
  revisited : Revisited (Enters canGo src maxDepth) (costTo dest) src again (fun c => s.parent[c]?) seen closed
  best : ∀ (c : VectorInt) (v : Int32), s.best[c]? = some v ↔ c ∈ seen ∧ v = (dest.sub c).taxicab
  all : ∀ c ∈ seen, c ∈ closed

section

variable (hgo : ∀ c, ∃ b, canGo c = .ok b)
  (hzero : ∀ c, Reaches canGo src maxDepth c → (dest.sub c).taxicab = 0 → c = again)
  (hagain : (dest.sub again).taxicab = 0) (hdest : ¬ Reaches canGo src maxDepth dest)

include hgo hzero hagain hdest

/-- **The search loop ends**, though it pushes `again` anew: a cell is expanded once, and
each expansion pushes `again` once at most. -/
theorem searchLoop_revisits {n fuel : ℕ} (hn : ∀ l : List VectorInt, l.Nodup → l.length ≤ n)
    (hrev : Revisited (Enters canGo src maxDepth) (costTo dest) src again (fun c => s.parent[c]?) seen closed)
    (hs : Requeued dest again s seen closed) (hnodup : closed.Nodup)
    (hfuel : 2 * n + copies again s.pq < fuel + 2 * closed.length) :
    Returns (searchLoop canGo pick src maxDepth dest fuel s) fun r =>
      r.1 = false ∧ ∃ seen closed, Exhausted canGo src maxDepth dest again r.2 seen closed := by
  induction fuel generalizing s seen closed with
  | zero =>
    have := hn closed hnodup
    omega
  | succ fuel ih =>
    unfold searchLoop
    cases hpop : popTop pick s.pq with
    | none =>
      refine .ok ⟨rfl, seen, closed, hrev, hs.best, ?_⟩
      intro c hc
      by_contra hopen
      have hmem := hs.opened c hc hopen
      rw [popTop_none hpop] at hmem
      exact absurd hmem List.not_mem_nil
    | some top =>
      obtain ⟨node, pq⟩ := top
      obtain ⟨hbest, hseen, honce, hmin, hs', hcopies⟩ := hs.popped hpop
      dsimp only
      rw [index_eq hbest, if_neg (Int32.not_lt.2 (Int32.le_refl _))]
      have hne : node.pos ≠ dest := by
        intro heq
        rw [heq] at hseen
        exact hdest (hrev.reached dest hseen)
      rw [if_neg hne]
      refine (front_expands hgo hs'.best).bind fun s' hexp => ?_
      obtain ⟨pushed, hexp⟩ := hexp
      have hold : ∀ c ∈ pushed, c ∈ seen → c = again := by
        intro c hc hmem
        exact hzero c (hrev.reached c hmem) (((hexp.mem c).1 hc).2.2 hmem)
      have hrev' : Revisited (Enters canGo src maxDepth) (costTo dest) src again (fun c => s'.parent[c]?)
          (pushed ++ seen) (closed.insert node.pos) := by
        refine .expand hrev hseen honce hmin ?_ (fun c => List.mem_insert_iff) ?_ ?_
        · intro c
          rw [List.mem_append]
          constructor
          · exact Or.imp_left fun hc => ((hexp.mem c).1 hc).2.1
          · rintro (henters | hc)
            · exact hexp.all henters
            · exact .inr hc
        · intro c henters hown
          refine hexp.linked c ((hexp.mem c).2 ⟨henters.1, henters, ?_⟩)
          intro hmem
          rw [hown hmem]
          exact hagain
        · intro c hno
          apply hexp.kept
          intro hc
          exact hno ⟨((hexp.mem c).1 hc).2.1, hold c hc⟩
      have hclosed : ∀ d ∈ closed.insert node.pos, d ∈ seen := by
        intro d hd
        rw [List.mem_insert_iff] at hd
        rcases hd with heq | hd
        · rw [heq]
          exact hseen
        · exact hrev.closed_seen d hd
      refine ih hrev' (hs'.expanded hexp hclosed hold) hnodup.insert ?_
      have hpushed : copies again s'.pq = copies again pq + if again ∈ pushed then 1 else 0 := by
        rw [hexp.queue, copies_append, copies_pushed hexp.nodup]
      by_cases hin : node.pos ∈ closed
      · -- `again` is expanded once more, and not pushed
        have heq := honce hin
        have hnot : again ∉ pushed := by
          intro hc
          exact ((hexp.mem again).1 hc).2.1.ne heq.symm
        rw [if_pos heq] at hcopies
        rw [if_neg hnot] at hpushed
        rw [List.insert_of_mem hin]
        omega
      · rw [List.length_insert_of_not_mem hin]
        have hone : (if again ∈ pushed then 1 else 0) ≤ 1 := by
          split
          · exact Nat.le_refl 1
          · exact Nat.zero_le 1
        omega

end

end ZeldaServer
