import ZeldaServer.Spec.FindPath

/-!
# What FindPath returns

Every cell that the search has scored or queued has a parent, and only the source is
its own parent. The path that is traced back from one of these cells is therefore not
empty, and it is a single cell only if that is the source.
-/

namespace ZeldaServer

open Lib Std

instance : TransOrd VectorInt :=
  inferInstanceAs (TransCmp (compareLex (compareOn VectorInt.x) (compareOn VectorInt.y)))

instance : LawfulEqOrd VectorInt where
  compare_self := ReflCmp.compare_self
  eq_of_compare {a b} h := by
    have h : compareLex (compareOn VectorInt.x) (compareOn VectorInt.y) a b = .eq := h
    rw [compareLex_eq_eq] at h
    obtain ⟨hx, hy⟩ := h
    have hx := Std.compare_eq_iff_eq.1 hx
    have hy := Std.compare_eq_iff_eq.1 hy
    cases a
    cases b
    cases hx
    cases hy
    rfl

/-- A step to a neighbour leaves the cell. -/
theorem add_ne {pos dir : VectorInt} (h : dir ∈ front) : pos.add dir ≠ pos := by
  intro heq
  have hx : dir.x = 0 := by simpa [VectorInt.add] using congrArg VectorInt.x heq
  have hy : dir.y = 0 := by simpa [VectorInt.add] using congrArg VectorInt.y heq
  clear heq
  revert hx hy dir
  decide

/-- What the search knows about the cells it has reached. -/
structure Traced (src : VectorInt) (s : Search) : Prop where
  own : ∀ k, s.parent[k]? = some k → k = src
  queued : ∀ node ∈ s.pq, ∃ p, s.parent[node.pos]? = some p
  scored : ∀ (k : VectorInt) (c : Int32), s.best[k]? = some c → ∃ p, s.parent[k]? = some p
  start : ∃ c, s.best[src]? = some c

variable {canGo : VectorInt → Outcome Bool} {pick : Pick} {src dest : VectorInt} {maxDepth : Int32}

/-- `map::operator[]` at a key that is there. -/
theorem index_eq {α : Type} {m : TreeMap VectorInt α} {k : VectorInt} {a d : α} (h : m[k]? = some a) :
    index m k d = (a, m) := by
  unfold index
  rw [h]

theorem index_none {α : Type} {m : TreeMap VectorInt α} {k : VectorInt} {d : α} (h : m[k]? = none) :
    index m k d = (d, m.insert k d) := by
  unfold index
  rw [h]

/-- The neighbour `nextPos` is queued with `node.pos` as its parent. -/
theorem Traced.reach {s : Search} (h : Traced src s) {best : TreeMap VectorInt Int32}
    {nextPos : VectorInt}
    (hbest : ∀ (k : VectorInt) (c : Int32), best[k]? = some c → (∃ c', s.best[k]? = some c') ∨ k = nextPos)
    (hstart : ∃ c, best[src]? = some c) {cost : Int32} {pos : VectorInt} (hne : nextPos ≠ pos) :
    Traced src {
      best := best.insert nextPos cost
      pq := s.pq ++ [⟨cost, nextPos⟩]
      parent := s.parent.insert nextPos pos } := by
  have hparent : ∀ k, (∃ p, s.parent[k]? = some p) ∨ k = nextPos → ∃ p, (s.parent.insert nextPos pos)[k]? = some p := by
    intro k hk
    rw [TreeMap.getElem?_insert]
    split
    · exact ⟨pos, rfl⟩
    · rename_i hkey
      rcases hk with hk | rfl
      · exact hk
      · exact absurd (Std.compare_eq_iff_eq.2 rfl) hkey
  refine ⟨?_, ?_, ?_, ?_⟩
  · intro k hk
    rw [TreeMap.getElem?_insert] at hk
    split at hk
    · rename_i hkey
      rw [Std.compare_eq_iff_eq.1 hkey] at hne
      exact absurd (Option.some.inj hk).symm hne
    · exact h.own k hk
  · intro node hnode
    rw [List.mem_append, List.mem_singleton] at hnode
    rcases hnode with hnode | rfl
    · exact hparent _ (.inl (h.queued node hnode))
    · exact hparent _ (.inr rfl)
  · intro k c hk
    rw [TreeMap.getElem?_insert] at hk
    split at hk
    · rename_i hkey
      exact hparent k (.inr (Std.compare_eq_iff_eq.1 hkey).symm)
    · rcases hbest k c hk with ⟨c', hc'⟩ | rfl
      · exact hparent k (.inl (h.scored k c' hc'))
      · exact hparent _ (.inr rfl)
  · rw [TreeMap.getElem?_insert]
    split
    · exact ⟨cost, rfl⟩
    · exact hstart

theorem visit_spec {node : PQNode} {s : Search} {dir : VectorInt} (hdir : dir ∈ front) (h : Traced src s) :
    IfReturns (visit canGo src maxDepth dest node s dir) (Traced src) := by
  unfold visit
  have hgo : IfReturns (canGo (node.pos.add dir)) fun _ => True := ifReturns_iff.2 fun _ _ => trivial
  refine hgo.bind fun go _ => ?_
  dsimp only
  split
  · exact .ok h
  split
  · exact .ok h
  have hne : node.pos.add dir ≠ node.pos := add_ne hdir
  generalize node.pos.add dir = nextPos at hne
  cases hb : s.best[nextPos]? with
  | none =>
    -- the cell is scored 0 for a moment
    rw [index_none hb]
    simp only
    rw [if_neg (by simp)]
    refine .ok (h.reach (fun k c hk => ?_) ?_ hne)
    · rw [TreeMap.getElem?_insert] at hk
      split at hk
      · rename_i hkey
        exact .inr (Std.compare_eq_iff_eq.1 hkey).symm
      · exact .inl ⟨c, hk⟩
    · obtain ⟨c, hc⟩ := h.start
      rw [TreeMap.getElem?_insert]
      split
      · exact ⟨0, rfl⟩
      · exact ⟨c, hc⟩
  | some bestCost =>
    rw [index_eq hb]
    split
    · exact .ok h
    · exact .ok (h.reach (fun k c hk => .inl ⟨c, hk⟩) h.start hne)

/-- A node that is popped was queued. -/
theorem popTop_mem {pq pq' : List PQNode} {node : PQNode} (h : popTop pick pq = some (node, pq')) :
    node ∈ pq ∧ pq' = pq.erase node := by
  unfold popTop at h
  obtain ⟨node', hnode, heq⟩ := Option.map_eq_some_iff.1 h
  cases heq
  exact ⟨(List.mem_filter.1 (List.mem_of_getElem? hnode)).1, rfl⟩

theorem searchLoop_spec {fuel : ℕ} {s : Search} (h : Traced src s) :
    IfReturns (searchLoop canGo pick src maxDepth dest fuel s) fun r =>
      Traced src r.2 ∧ (r.1 = true → ∃ p, r.2.parent[dest]? = some p) := by
  induction fuel generalizing s with
  | zero => exact .error trivial
  | succ fuel ih =>
    unfold searchLoop
    cases hpop : popTop pick s.pq with
    | none => exact .ok ⟨h, nofun⟩
    | some top =>
      obtain ⟨node, pq⟩ := top
      obtain ⟨hmem, hpq⟩ := popTop_mem hpop
      obtain ⟨p, hp⟩ := h.queued node hmem
      dsimp only
      -- the queue lost a node, and the node may have been scored 0
      have hs : Traced src { s with pq := pq, best := (index s.best node.pos 0).2 } := by
        have hqueued : ∀ node' ∈ pq, ∃ p, s.parent[node'.pos]? = some p := by
          intro node' hnode'
          rw [hpq] at hnode'
          exact h.queued node' (List.mem_of_mem_erase hnode')
        cases hb : s.best[node.pos]? with
        | some c =>
          rw [index_eq hb]
          exact ⟨h.own, hqueued, h.scored, h.start⟩
        | none =>
          rw [index_none hb]
          refine ⟨h.own, hqueued, fun k c hk => ?_, ?_⟩
          · rw [TreeMap.getElem?_insert] at hk
            split at hk
            · rename_i hkey
              rw [← Std.compare_eq_iff_eq.1 hkey]
              exact ⟨p, hp⟩
            · exact h.scored k c hk
          · obtain ⟨c, hc⟩ := h.start
            rw [TreeMap.getElem?_insert]
            split
            · exact ⟨0, rfl⟩
            · exact ⟨c, hc⟩
      split
      · exact ih hs
      split
      · rename_i hdest
        exact .ok ⟨hs, fun _ => ⟨p, hdest ▸ hp⟩⟩
      · refine Post.bind (Post.foldlM (I := Traced src) front (fun s' dir hdir hs' => visit_spec hdir hs') hs) ?_
        intro s' hs'
        exact ih hs'

/-- An `int32` is far below `FLT_MAX` as a `float`. -/
theorem toFloat_lt (n : Int32) : toFloat n.toInt < FLT_MAX := by
  have hn : n.toInt.natAbs ≤ 2 ^ 31 := by
    have h1 := n.toInt_lt
    have h2 := n.le_toInt
    omega
  have hmax : (2 : ℤ) ^ 33 < FLT_MAX := by unfold FLT_MAX; decide
  unfold toFloat
  generalize n.toInt = i at hn
  dsimp only
  split
  · omega
  rename_i hbig
  -- at most twice the number
  have hpow : 2 ^ (i.natAbs.log2 - 23) ≤ i.natAbs :=
    Nat.le_trans (Nat.pow_le_pow_right (by omega) (Nat.sub_le _ _)) (Nat.log2_self_le (by omega))
  generalize 2 ^ (i.natAbs.log2 - 23) = e at hpow
  have hdiv : i.natAbs / e * e ≤ i.natAbs := Nat.div_mul_le_self _ _
  have hq : ∀ q : ℕ, q ≤ i.natAbs / e + 1 → i.sign * ((q * e : ℕ) : ℤ) < FLT_MAX := by
    intro q hq
    have hle : q * e ≤ i.natAbs / e * e + e := by
      have := Nat.mul_le_mul_right e hq
      rwa [Nat.add_mul, Nat.one_mul] at this
    have hsign : i.sign * ((q * e : ℕ) : ℤ) ≤ ((q * e : ℕ) : ℤ) := by
      rcases Int.lt_trichotomy i 0 with h | h | h
      · rw [Int.sign_eq_neg_one_of_neg h]; omega
      · rw [h, Int.sign_zero, Int.zero_mul]; exact Int.natCast_nonneg _
      · rw [Int.sign_eq_one_of_pos h]; omega
    omega
  split
  · exact hq _ (Nat.le_refl _)
  · exact hq _ (Nat.le_succ _)

/-- The nearest cell is a scored one. -/
theorem nearest_mem {best : TreeMap VectorInt Int32} (h : ∃ c, best[src]? = some c) :
    ∃ c, best[nearest src dest best]? = some c := by
  unfold nearest
  obtain ⟨c, hc⟩ := h
  have hmem : ∀ p ∈ best.toList, ∃ c, best[p.1]? = some c := fun p hp =>
    ⟨p.2, TreeMap.mem_toList_iff_getElem?_eq_some.1 hp⟩
  have hsrc := TreeMap.mem_toList_iff_getElem?_eq_some.2 hc
  revert hmem hsrc
  generalize best.toList = l
  intro hmem hsrc
  cases l with
  | nil => cases hsrc
  | cons p l =>
    obtain ⟨pos, score⟩ := p
    have hlt := toFloat_lt score
    -- the first cell is taken
    rw [List.foldl_cons]
    simp only [if_neg (Int.ne_of_gt hlt), gt_iff_lt, if_pos hlt]
    have hrest : ∀ q ∈ l, ∃ c, best[q.1]? = some c := fun q hq => hmem q (List.mem_cons_of_mem _ hq)
    have hpos : ∃ c, best[pos]? = some c := hmem _ List.mem_cons_self
    clear hmem hsrc hlt hc
    generalize toFloat score.toInt = s₀
    induction l generalizing pos s₀ with
    | nil => exact hpos
    | cons q l ih =>
      rw [List.foldl_cons]
      have hl : ∀ q ∈ l, ∃ c, best[q.1]? = some c := fun q' hq' => hrest q' (List.mem_cons_of_mem _ hq')
      have hq := hrest q List.mem_cons_self
      split
      · split
        · exact ih _ hl hq _
        · exact ih _ hl hpos _
      · split
        · exact ih _ hl hq _
        · exact ih _ hl hpos _

/-- The traced path starts at `pos`, and ends there only if `pos` is its own parent. -/
theorem traceLoop_spec {fuel : ℕ} {parent : TreeMap VectorInt VectorInt} {path : List VectorInt} {pos : VectorInt} :
    IfReturns (traceLoop fuel parent path pos) fun out =>
      ∃ rest, out = path ++ pos :: rest ∧ (rest = [] → (index parent pos {}).1 = pos) := by
  induction fuel generalizing parent path pos with
  | zero => exact .error trivial
  | succ fuel ih =>
    unfold traceLoop
    dsimp only
    split
    · rename_i heq
      exact .ok ⟨[], rfl, fun _ => heq.symm⟩
    · refine ih.imp fun out hout => ?_
      obtain ⟨rest, hout, -⟩ := hout
      exact ⟨_ :: rest, by rw [hout, List.append_assoc]; rfl, nofun⟩

/-- A map with one entry. -/
theorem insert_empty {α : Type} {c : VectorInt} {a v : α} :
    ((∅ : TreeMap VectorInt α).insert src a)[c]? = some v ↔ c = src ∧ v = a := by
  rw [TreeMap.getElem?_insert]
  split
  · rename_i hkey
    rw [Option.some.injEq, Std.compare_eq_iff_eq.1 hkey]
    simp [eq_comm]
  · rename_i hkey
    rw [Std.compare_eq_iff_eq] at hkey
    simp [Ne.symm hkey]

/-- The state in which the search starts. -/
theorem traced_start {cost : Int32} : Traced src {
    pq := [⟨cost, src⟩]
    best := (∅ : TreeMap VectorInt Int32).insert src cost
    parent := (∅ : TreeMap VectorInt VectorInt).insert src src } := by
  refine ⟨fun k hk => (insert_empty.1 hk).1, ?_, ?_, ⟨cost, insert_empty.2 ⟨rfl, rfl⟩⟩⟩
  · intro node hnode
    rw [List.mem_singleton] at hnode
    rw [hnode]
    exact ⟨src, insert_empty.2 ⟨rfl, rfl⟩⟩
  · intro k c hk
    rw [(insert_empty.1 hk).1]
    exact ⟨src, insert_empty.2 ⟨rfl, rfl⟩⟩

/-- The cell from which the path is traced has a parent. -/
theorem Traced.last {r : Bool × Search} (h : Traced src r.2) (hfound : r.1 = true → ∃ p, r.2.parent[dest]? = some p) :
    ∃ p, r.2.parent[if r.1 then dest else nearest src dest r.2.best]? = some p := by
  cases hr : r.1 with
  | true => exact hfound hr
  | false =>
    obtain ⟨c, hc⟩ : ∃ c, r.2.best[nearest src dest r.2.best]? = some c := nearest_mem h.start
    exact h.scored _ c hc

/-- **A path is not empty, and a path of one cell stays at the source.** -/
theorem findPath_spec {fuel : ℕ} : IfReturns (findPath canGo pick src maxDepth fuel dest) fun ret =>
    ∀ path, ret = some path → path ≠ [] ∧ ∀ pos, path = [pos] → pos = src := by
  unfold findPath
  dsimp only
  split
  · exact .ok nofun
  refine (searchLoop_spec traced_start).bind fun r hr => ?_
  obtain ⟨htraced, hfound⟩ := hr
  obtain ⟨p, hp⟩ := htraced.last hfound
  refine traceLoop_spec.bind fun path hpath => .ok ?_
  obtain ⟨rest, hpath, hown⟩ := hpath
  intro path' hpath'
  obtain rfl := Option.some.inj hpath'
  rw [List.nil_append] at hpath
  constructor
  · rw [hpath]
    simp
  · intro pos hpos
    have hone : rest = [] := by
      have hlen := congrArg List.length hpos
      rw [hpath] at hlen
      simpa using hlen
    have hself := hown hone
    rw [index_eq hp] at hself
    rw [hpath, hone] at hpos
    obtain rfl : _ = pos := by simpa using hpos
    have hself : p = _ := hself
    rw [hself] at hp
    exact htraced.own _ hp

end ZeldaServer
