import ZeldaServer.Lib.Overtaking
import ZeldaServer.Proof.Opposite

/-!
# Shortest paths

The search prefers the cells that are near to `dest`, however long the way to them is, and
keeps the first way that it finds to a cell. What it returns is a walk that is not
overtaken, and every such walk to the last cell is what it returns for some order of the
nodes of equal cost. So its paths are shortest exactly where all longer walks are overtaken.

* `findPath_walk`: every path that is returned is a walk.
* `findPath_returns_iff`: the paths that can be returned.
* `OpenBetween.sloping`: open ground slopes down to the last cell, even if `dest` is taken.
* `overtaken_of_sloping`: there all longer walks are overtaken.
* `findPath_shortest_iff`: when the paths are shortest.
-/

namespace ZeldaServer

open Lib Std

variable {canGo : VectorInt → Outcome Bool} {pick : Pick} {src dest p c last : VectorInt} {maxDepth : Int32}
  {fuel : ℕ} {path l : List VectorInt}

/-! ## The links of the parents -/

/-- The parents are linked by steps of the search, from every queued node to the source. -/
structure Linked (canGo : VectorInt → Outcome Bool) (src : VectorInt) (maxDepth : Int32) (s : Search) : Prop where
  link : ∀ c p : VectorInt, s.parent[c]? = some p → (c = src ∧ p = src) ∨ Enters canGo src maxDepth p c
  keyed : ∀ c p : VectorInt, s.parent[c]? = some p → ∃ q, s.parent[p]? = some q
  queued : ∀ node ∈ s.pq, ∃ p, s.parent[node.pos]? = some p

/-- `c` is queued with `p` as its parent. -/
theorem Linked.push {s : Search} (h : Linked canGo src maxDepth s) (henters : Enters canGo src maxDepth p c)
    (hp : ∃ q, s.parent[p]? = some q) {best : TreeMap VectorInt Int32} {cost : Int32} :
    Linked canGo src maxDepth { best := best, pq := s.pq ++ [⟨cost, c⟩], parent := s.parent.insert c p } := by
  have hkey : ∀ d : VectorInt, (∃ q, s.parent[d]? = some q) ∨ d = c → ∃ q, (s.parent.insert c p)[d]? = some q := by
    intro d hd
    rw [TreeMap.getElem?_insert]
    split
    · exact ⟨p, rfl⟩
    · rename_i hne
      rcases hd with hd | heq
      · exact hd
      · exact absurd (Std.compare_eq_iff_eq.2 heq.symm) hne
  refine ⟨?_, ?_, ?_⟩
  · intro d q hd
    rw [TreeMap.getElem?_insert] at hd
    split at hd
    · rename_i heq
      rw [← Std.compare_eq_iff_eq.1 heq, ← Option.some.inj hd]
      exact .inr henters
    · exact h.link d q hd
  · intro d q hd
    apply hkey
    left
    rw [TreeMap.getElem?_insert] at hd
    split at hd
    · rw [← Option.some.inj hd]
      exact hp
    · exact h.keyed d q hd
  · intro node hnode
    rw [List.mem_append, List.mem_singleton] at hnode
    apply hkey
    rcases hnode with hnode | heq
    · exact .inl (h.queued node hnode)
    · rw [heq]
      exact .inr rfl

theorem visit_linked {node : PQNode} {s : Search} {dir : VectorInt} (hdir : dir ∈ front)
    (h : Linked canGo src maxDepth s ∧ ∃ q, s.parent[node.pos]? = some q) :
    IfReturns (visit canGo src maxDepth dest node s dir) fun s' =>
      Linked canGo src maxDepth s' ∧ ∃ q, s'.parent[node.pos]? = some q := by
  unfold visit
  dsimp only
  have hgo : IfReturns (canGo (node.pos.add dir)) fun go => canGo (node.pos.add dir) = .ok go :=
    ifReturns_iff.2 fun _ hgo => hgo
  refine hgo.bind fun go hgo => ?_
  split
  · exact .ok h
  rename_i htrue
  rw [Bool.not_eq_false] at htrue
  rw [htrue] at hgo
  split
  · exact .ok h
  rename_i hdepth
  split
  · exact .ok ⟨⟨h.1.link, h.1.keyed, h.1.queued⟩, h.2⟩
  · refine .ok ⟨h.1.push ⟨⟨dir, hdir, rfl⟩, hgo, Int32.not_le.1 hdepth⟩ h.2, ?_⟩
    rw [TreeMap.getElem?_insert]
    split
    · exact ⟨_, rfl⟩
    · exact h.2

theorem searchLoop_linked {s : Search} (h : Linked canGo src maxDepth s) :
    IfReturns (searchLoop canGo pick src maxDepth dest fuel s) fun r => Linked canGo src maxDepth r.2 := by
  induction fuel generalizing s with
  | zero => exact .error trivial
  | succ fuel ih =>
    unfold searchLoop
    cases hpop : popTop pick s.pq with
    | none => exact .ok h
    | some top =>
      obtain ⟨node, pq⟩ := top
      obtain ⟨hmem, hpq⟩ := popTop_mem hpop
      have hs : Linked canGo src maxDepth { s with pq := pq, best := (index s.best node.pos 0).2 } := by
        refine ⟨h.link, h.keyed, ?_⟩
        intro node' hnode'
        rw [hpq] at hnode'
        exact h.queued node' (List.mem_of_mem_erase hnode')
      dsimp only
      split
      · exact ih hs
      split
      · exact .ok hs
      · refine Post.bind (Post.foldlM (I := fun s => Linked canGo src maxDepth s ∧ ∃ q, s.parent[node.pos]? = some q)
          front (fun s' dir hdir hs' => visit_linked hdir hs') ⟨hs, h.queued node hmem⟩) ?_
        intro s' hs'
        exact ih hs'.1

/-- The traced path is a lineage. -/
theorem traceLoop_linked {parent : TreeMap VectorInt VectorInt} {pos : VectorInt}
    (hlink : ∀ c p : VectorInt, parent[c]? = some p → (c = src ∧ p = src) ∨ Enters canGo src maxDepth p c)
    (hkeyed : ∀ c p : VectorInt, parent[c]? = some p → ∃ q, parent[p]? = some q)
    (hpos : ∃ q, parent[pos]? = some q) :
    IfReturns (traceLoop fuel parent path pos) fun out =>
      ∃ l, out = path ++ l ∧ Lineage src (fun c => parent[c]?) pos l := by
  induction fuel generalizing path pos with
  | zero => exact .error trivial
  | succ fuel ih =>
    obtain ⟨q, hq⟩ := hpos
    unfold traceLoop
    rw [index_eq hq]
    dsimp only
    split
    · rename_i hown
      rw [← hown] at hq
      refine .ok ⟨[pos], rfl, ?_⟩
      rcases hlink pos pos hq with ⟨heq, -⟩ | ⟨⟨dir, hdir, heq⟩, -⟩
      · rw [heq] at hq ⊢
        exact .root hq
      · exact absurd heq.symm (add_ne hdir)
    · rename_i hne
      refine (ih (hkeyed pos q hq)).imp fun out hout => ?_
      obtain ⟨l, hout, hl⟩ := hout
      refine ⟨pos :: l, ?_, .parent hq hne hl⟩
      rw [hout, List.append_assoc]
      rfl

/-- A linked lineage is a walk from the source. -/
theorem lineage_steps {parent : VectorInt → Option VectorInt} (hmap : Mapped canGo)
    (hlink : ∀ c p : VectorInt, parent c = some p → (c = src ∧ p = src) ∨ Enters canGo src maxDepth p c)
    (h : Lineage src parent c l) :
    Reachable canGo src maxDepth c ∧ l.IsChain fun c p => Step canGo src maxDepth p c := by
  induction h with
  | root _ => exact ⟨.refl, List.isChain_singleton _⟩
  | @parent c p l hparent hne hl ih =>
    obtain ⟨hreach, hchain⟩ := ih
    have hstep : Step canGo src maxDepth p c := by
      rcases hlink c p hparent with ⟨hc, hp⟩ | henters
      · rw [hc, hp] at hne
        exact absurd rfl hne
      · exact henters.step hmap hreach
    refine ⟨hreach.tail hstep, ?_⟩
    rw [List.isChain_cons]
    refine ⟨?_, hchain⟩
    intro q hq
    rw [hl.head?_eq] at hq
    rw [← Option.some.inj hq]
    exact hstep

theorem linked_start {cost : Int32} : Linked canGo src maxDepth {
    pq := [⟨cost, src⟩]
    best := (∅ : TreeMap VectorInt Int32).insert src cost
    parent := (∅ : TreeMap VectorInt VectorInt).insert src src } := by
  refine ⟨fun c p hc => .inl (insert_empty.1 hc), ?_, traced_start.queued⟩
  intro c p hc
  rw [(insert_empty.1 hc).2]
  exact ⟨src, insert_empty.2 ⟨rfl, rfl⟩⟩

/-- **Every path that is returned is a walk.** -/
theorem findPath_walk (hmap : Mapped canGo) (h : findPath canGo pick src maxDepth fuel dest = .ok (some path)) :
    ∃ last, Walk canGo src maxDepth path last := by
  unfold findPath at h
  dsimp only at h
  split at h
  · exact absurd (Except.ok.inj h).symm (Option.some_ne_none path)
  obtain ⟨r, hr, h⟩ := bind_eq_ok.1 h
  obtain ⟨out, hout, h⟩ := bind_eq_ok.1 h
  obtain rfl : out.reverse = path := Option.some.inj (Except.ok.inj h)
  obtain ⟨htraced, hfound⟩ := (searchLoop_spec traced_start).result hr
  have hlinked := (searchLoop_linked linked_start).result hr
  obtain ⟨l, hl, hlineage⟩ := (traceLoop_linked hlinked.link hlinked.keyed (htraced.last hfound)).result hout
  rw [List.nil_append] at hl
  obtain ⟨-, hsteps⟩ := lineage_steps hmap hlinked.link hlineage
  rw [hl]
  exact ⟨_, .of_lineage hlineage (List.isChain_reverse.2 hsteps)⟩

/-! ## Distances -/

/-- No walk is shorter than the distance. -/
theorem dist_le_length {a b : VectorInt} (hhead : path.head? = some a) (hlast : path.getLast? = some b)
    (hsteps : path.IsChain fun p c => p.dist c = 1) : a.dist b + 1 ≤ path.length := by
  induction path generalizing a with
  | nil => exact absurd hhead.symm (Option.some_ne_none a)
  | cons p path ih =>
    obtain rfl : p = a := Option.some.inj hhead
    cases path with
    | nil =>
      obtain rfl : p = b := Option.some.inj hlast
      rw [p.dist_self]
      exact Nat.le_refl 1
    | cons c path =>
      rw [List.isChain_cons_cons] at hsteps
      rw [List.getLast?_cons_cons] at hlast
      have hrest := ih rfl hlast hsteps.2
      have htri := p.dist_triangle c b
      rw [List.length_cons]
      omega

theorem exists_cell {x y : ℤ} (hx : -2 ^ 31 ≤ x ∧ x < 2 ^ 31) (hy : -2 ^ 31 ≤ y ∧ y < 2 ^ 31) :
    ∃ d : VectorInt, d.x.toInt = x ∧ d.y.toInt = y :=
  ⟨⟨Int32.ofInt x, Int32.ofInt y⟩, Int32.toInt_ofInt_of_le hx.1 hx.2, Int32.toInt_ofInt_of_le hy.1 hy.2⟩

/-- There is a neighbour nearer to `dest`. -/
theorem exists_nearer (h : c ≠ dest) : ∃ d, c.dist d = 1 ∧ dest.dist d + 1 = dest.dist c := by
  have hx := dest.x.toInt_lt
  have hx' := dest.x.le_toInt
  have hy := dest.y.toInt_lt
  have hy' := dest.y.le_toInt
  have hcx := c.x.toInt_lt
  have hcx' := c.x.le_toInt
  have hcy := c.y.toInt_lt
  have hcy' := c.y.le_toInt
  have hne : ¬ (c.x.toInt = dest.x.toInt ∧ c.y.toInt = dest.y.toInt) := fun heq => h (VectorInt.ext_toInt heq.1 heq.2)
  have hcell : ∃ x y : ℤ, (-2 ^ 31 ≤ x ∧ x < 2 ^ 31) ∧ (-2 ^ 31 ≤ y ∧ y < 2 ^ 31) ∧
      (c.x.toInt - x).natAbs + (c.y.toInt - y).natAbs = 1 ∧
      (dest.x.toInt - x).natAbs + (dest.y.toInt - y).natAbs + 1 = dest.dist c := by
    unfold VectorInt.dist
    rcases Int.lt_trichotomy c.x.toInt dest.x.toInt with hlt | heq | hlt
    · exact ⟨c.x.toInt + 1, c.y.toInt, by omega, by omega, by omega, by omega⟩
    · rcases Int.lt_trichotomy c.y.toInt dest.y.toInt with hlt | heq' | hlt
      · exact ⟨c.x.toInt, c.y.toInt + 1, by omega, by omega, by omega, by omega⟩
      · exact absurd ⟨heq, heq'⟩ hne
      · exact ⟨c.x.toInt, c.y.toInt - 1, by omega, by omega, by omega, by omega⟩
    · exact ⟨c.x.toInt - 1, c.y.toInt, by omega, by omega, by omega, by omega⟩
  obtain ⟨x, y, hxr, hyr, hone, hless⟩ := hcell
  obtain ⟨d, rfl, rfl⟩ := exists_cell hxr hyr
  exact ⟨d, hone, hless⟩

/-! ## The paths that can be returned -/

/-- The steps of a walk. -/
theorem Walk.chain (h : Walk canGo src maxDepth path last) : path.IsChain (Step canGo src maxDepth) := by
  obtain ⟨-, -, hsteps, hwalkable⟩ := h
  induction path with
  | nil => exact List.isChain_nil
  | cons p path ih =>
    rw [List.isChain_cons] at hsteps ⊢
    refine ⟨?_, ih hsteps.2 fun c hc => hwalkable c (List.mem_of_mem_tail hc)⟩
    intro c hc
    exact ⟨hsteps.1 c hc, hwalkable c (List.mem_of_mem_head? hc)⟩

/-- A queue that gives out the cells of `path` first among those of least cost. -/
def following (path : List VectorInt) : Pick := fun pq =>
  (pq.filter fun node => pq.all fun other => node.cost ≤ other.cost).findIdx fun node => node.pos ∈ path

theorem popTop_following {pq pq' : List PQNode} {node other : PQNode}
    (h : popTop (following path) pq = some (node, pq')) (hother : other ∈ pq) (hcost : other.cost ≤ node.cost)
    (hmem : other.pos ∈ path) : node.pos ∈ path := by
  have hmin := popTop_min h
  unfold popTop at h
  obtain ⟨node', hnode, heq⟩ := Option.map_eq_some_iff.1 h
  obtain rfl : node' = node := (Prod.mk.inj heq).1
  clear h heq
  unfold following at hnode
  generalize htops : (pq.filter fun node => pq.all fun other => node.cost ≤ other.cost) = tops at hnode
  have htop : other ∈ tops := by
    rw [← htops, List.mem_filter]
    refine ⟨hother, ?_⟩
    rw [List.all_eq_true]
    intro n hn
    exact decide_eq_true (Int32.le_trans hcost (hmin n hn))
  have hlt : (tops.findIdx fun node => node.pos ∈ path) < tops.length :=
    List.findIdx_lt_length_of_exists ⟨other, htop, decide_eq_true hmem⟩
  rw [Nat.mod_eq_of_lt hlt, List.getElem?_eq_getElem hlt] at hnode
  have hpath := List.findIdx_getElem (w := hlt)
  rw [Option.some.inj hnode] at hpath
  exact of_decide_eq_true hpath

theorem following_ranks (path : List VectorInt) (dest : VectorInt) :
    Ranks (following path) dest (prefers (costTo dest) path) := by
  constructor
  · intro p d hle
    unfold prefers at hle
    rw [Prod.Lex.toLex_le_toLex] at hle
    rcases hle with hlt | ⟨heq, -⟩
    · exact hlt.le
    · exact heq.le
  · intro pq node pq' hpop hcost other hother
    have hle := (ranks_costTo (following path) dest).least pq node pq' hpop hcost other hother
    unfold prefers
    rw [Prod.Lex.toLex_le_toLex]
    rcases Int.lt_or_eq_of_le hle with hlt | heq
    · exact .inl hlt
    · right
      refine ⟨heq, ?_⟩
      by_cases hmem : other.pos ∈ path
      · have hsame : other.cost ≤ node.cost := by
          rw [Int32.le_iff_toInt_le, hcost other hother, hcost node (popTop_mem hpop).1]
          exact heq.ge
        rw [if_pos (popTop_following hpop hother hsame hmem)]
        exact Nat.zero_le _
      · rw [if_neg hmem]
        split
        · exact Nat.zero_le 1
        · exact Nat.le_refl 1

section

variable (hmap : Mapped canGo) (hgo : ∀ c, ∃ b, canGo c = .ok b) (hsole : SoleZero canGo src maxDepth dest)

include hmap hgo hsole

/-- **What `FindPath` can return**: the walks to the last cell that are not overtaken. -/
theorem findPath_returns_iff (path : List VectorInt) : (∃ pick fuel, findPath canGo pick src maxDepth fuel dest = .ok (some path)) ↔
    ¬ maxDepth ≤ (dest.sub src).taxicab ∧ ∃ last, LeadsTo canGo src maxDepth dest last ∧
      Walk canGo src maxDepth path last ∧ path.Nodup ∧ ¬ Overtaken (Step canGo src maxDepth) (costTo dest) path := by
  have hsame : ∀ p c, Reaches canGo src maxDepth p → (Enters canGo src maxDepth p c ↔ Step canGo src maxDepth p c) :=
    fun p c hp => ⟨fun henters => henters.step hmap ((reaches_iff hmap).1 hp), Step.enters⟩
  constructor
  · rintro ⟨pick, fuel, h⟩
    obtain ⟨found, s, seen, closed, last, hfound⟩ := findPath_found_of hgo hsole h
    refine ⟨findPath_near h, last, hfound.leadsTo hmap, hfound.walk hmap, hfound.nodup, ?_⟩
    have hex := hfound.searched.explored.congr_step hsame
    rw [← path.reverse_reverse]
    exact hex.not_overtaken hfound.last_seen hfound.lineage
  · rintro ⟨hdepth, last, hlast, hwalk, hnodup, hover⟩
    obtain ⟨n, path', hpath', found, s, seen, closed, last', hfound, hranked⟩ :=
      findPath_ranked hgo hsole hdepth (following_ranks path dest)
    obtain rfl := hlast.unique (hfound.leadsTo hmap)
    have hlineage := (hranked.congr_step hsame).follows hwalk.head hwalk.chain hnodup hover hwalk.last hfound.last_seen
    have hpath := hpath' n (Nat.le_refl n)
    rw [← List.reverse_injective (hlineage.unique hfound.lineage)] at hpath
    exact ⟨following path, n, hpath⟩

end

/-! ## Open ground -/

/-- Neighbours are not at the same distance. -/
theorem dist_ne {p c : VectorInt} (h : p.dist c = 1) : dest.dist c ≠ dest.dist p := by
  unfold VectorInt.dist at h ⊢
  omega

section

variable (hmax : maxDepth.toInt ≤ 2 ^ 20) (hnear : (dest.dist src : ℤ) < maxDepth.toInt)

include hmax hnear

theorem costTo_eq (hc : Reachable canGo src maxDepth c) : costTo dest c = dest.dist c := (cost_eq hmax hnear hc).2

/-- Where the ground slopes down to the last cell, only the shortest walks are not overtaken. -/
theorem overtaken_of_sloping {other : List VectorInt} (hlast : LeadsTo canGo src maxDepth dest last)
    (hslope : Sloping (Step canGo src maxDepth) (costTo dest) src last) (hwalk : Walk canGo src maxDepth path last)
    (hnodup : path.Nodup) (hother : Walk canGo src maxDepth other last) (hlt : other.length < path.length) :
    Overtaken (Step canGo src maxDepth) (costTo dest) path := by
  have hreach : ∀ c, Descends (Step canGo src maxDepth) (costTo dest) src c → Reachable canGo src maxDepth c := by
    intro c hc
    refine Relation.ReflTransGen.mono ?_ src c hc
    intro p d hstep
    exact hstep.1
  have hbottom : ∀ c, Descends (Step canGo src maxDepth) (costTo dest) src c → 0 ≤ costTo dest c := by
    intro c hc
    rw [costTo_eq hmax hnear (hreach c hc)]
    exact Int.natCast_nonneg _
  have hdrop : ∀ c, Descends (Step canGo src maxDepth) (costTo dest) src c → Step canGo src maxDepth c last →
      costTo dest last < costTo dest c := by
    intro c hc hstep
    rw [costTo_eq hmax hnear (hreach c hc), costTo_eq hmax hnear hlast.reached]
    have hle := hlast.rank_le hmax hnear (hreach c hc)
    rw [rank_le] at hle
    have hne : dest.dist last ≠ dest.dist c := dist_ne hstep.1
    omega
  by_contra hover
  obtain ⟨after, hpath⟩ := List.head?_eq_some_iff.1 hwalk.head
  have hlen := length_of_sloping hslope hbottom hdrop hwalk.chain hnodup hwalk.last hover
    (hpath.trans (List.nil_append _).symm) .refl
  have hstart : Reachable canGo src maxDepth src := .refl
  rw [costTo_eq hmax hnear hlast.reached, costTo_eq hmax hnear hstart] at hlen
  have hge := dist_le_length hother.head hother.last hother.steps
  have htri := dest.dist_triangle last src
  rw [last.dist_comm src] at htri
  rw [hpath, List.length_cons] at hlt
  omega

end

/-- The rectangle between `src` and `dest` is free, these two apart. -/
def OpenBetween (canGo : VectorInt → Outcome Bool) (src dest : VectorInt) : Prop :=
  ∀ c, src.dist c + c.dist dest = src.dist dest → c ≠ src → c ≠ dest → canGo c = .ok true

/-- In the column of `src` and `dest` a cell between them has its own distance to `src`. -/
theorem eq_of_column {a b : VectorInt} (hline : src.x = dest.x) (ha : src.dist a + a.dist dest = src.dist dest)
    (hb : src.dist b + b.dist dest = src.dist dest) (hsame : src.dist a = src.dist b) : a = b := by
  have hx := congrArg Int32.toInt hline
  have hcolumn : ∀ {c}, src.dist c + c.dist dest = src.dist dest → c.x.toInt = src.x.toInt := by
    intro c hc
    unfold VectorInt.dist at hc
    omega
  have hax := hcolumn ha
  have hbx := hcolumn hb
  refine VectorInt.ext_toInt (hax.trans hbx.symm) ?_
  unfold VectorInt.dist at ha hb hsame
  rw [hax, ← hx] at ha
  rw [hbx, ← hx] at hb
  rw [hax, hbx] at hsame
  omega

/-- ... and likewise in their row. -/
theorem eq_of_row {a b : VectorInt} (hline : src.y = dest.y) (ha : src.dist a + a.dist dest = src.dist dest)
    (hb : src.dist b + b.dist dest = src.dist dest) (hsame : src.dist a = src.dist b) : a = b := by
  have hy := congrArg Int32.toInt hline
  have hrow : ∀ {c}, src.dist c + c.dist dest = src.dist dest → c.y.toInt = src.y.toInt := by
    intro c hc
    unfold VectorInt.dist at hc
    omega
  have hay := hrow ha
  have hby := hrow hb
  refine VectorInt.ext_toInt ?_ (hay.trans hby.symm)
  unfold VectorInt.dist at ha hb hsame
  rw [hay, ← hy] at ha
  rw [hby, ← hy] at hb
  rw [hay, hby] at hsame
  omega

/-- Next to a cell that is taken, the one between `src` and it is the last cell. -/
theorem LeadsTo.in_line (h : LeadsTo canGo src maxDepth dest last) (hmax : maxDepth.toInt ≤ 2 ^ 20)
    (hnear : (dest.dist src : ℤ) < maxDepth.toInt) (hgo : canGo dest ≠ .ok true)
    (hline : src.x = dest.x ∨ src.y = dest.y) (hc : Reachable canGo src maxDepth c) (hone : c.dist dest = 1)
    (hbetween : src.dist c + c.dist dest = src.dist dest) : last = c := by
  have hne : last.dist dest ≠ 0 := by
    intro h0
    have hreach := h.reached
    rw [VectorInt.eq_of_dist h0] at hreach
    rcases hreach.walkable with heq | hwalkable
    · rw [heq, src.dist_self] at hbetween
      rw [heq] at hone
      omega
    · exact hgo hwalkable.1
  have hle := h.rank_le hmax hnear hc
  rw [ZeldaServer.rank_le, dest.dist_comm c, dest.dist_comm last, hone] at hle
  have htri := src.dist_triangle last dest
  have hlast : src.dist last + last.dist dest = src.dist dest := by omega
  have hsame : src.dist last = src.dist c := by omega
  rcases hline with heq | heq
  · exact eq_of_column heq hlast hbetween hsame
  · exact eq_of_row heq hlast hbetween hsame

/-- **Open ground slopes down to the last cell**, if `dest` is free or in line with `src`. -/
theorem OpenBetween.sloping (h : OpenBetween canGo src dest)
    (hline : canGo dest = .ok true ∨ src.x = dest.x ∨ src.y = dest.y) (hmax : maxDepth.toInt ≤ 2 ^ 20)
    (hnear : (dest.dist src : ℤ) < maxDepth.toInt) (hlast : LeadsTo canGo src maxDepth dest last) :
    Sloping (Step canGo src maxDepth) (costTo dest) src last := by
  intro c hc hne
  -- downhill is towards `dest`, within the rectangle
  have hbetween : Reachable canGo src maxDepth c ∧ src.dist c + c.dist dest = src.dist dest := by
    clear hne
    induction hc with
    | refl =>
      refine ⟨.refl, ?_⟩
      rw [src.dist_self]
      omega
    | @tail b c _ hstep ih =>
      obtain ⟨hb, ih⟩ := ih
      obtain ⟨hstep, hlt⟩ := hstep
      have hc := hb.tail hstep
      rw [costTo_eq hmax hnear hb, costTo_eq hmax hnear hc] at hlt
      refine ⟨hc, ?_⟩
      have hone := hstep.1
      have h1 := src.dist_triangle b c
      have h2 := src.dist_triangle c dest
      rw [b.dist_comm dest] at ih
      rw [c.dist_comm dest] at h2 ⊢
      omega
  obtain ⟨hreach, hbetween⟩ := hbetween
  by_cases hcd : c = dest
  · -- only the last cell can be `dest`
    rcases hlast.chosen with heq | ⟨hno, -⟩
    · exact absurd (hcd.trans heq.symm) hne
    · rw [hcd] at hreach
      exact absurd hreach hno
  obtain ⟨d, hone, hless⟩ := exists_nearer hcd
  have h1 := src.dist_triangle c d
  have h2 := src.dist_triangle d dest
  rw [d.dist_comm dest] at h2
  rw [c.dist_comm dest] at hbetween
  have hstep : canGo d = .ok true → Step canGo src maxDepth c d := by
    intro hgo
    refine ⟨hone, hgo, ?_⟩
    rw [dest.dist_comm src] at hnear
    omega
  have hlower : canGo d = .ok true → ∃ d, Step canGo src maxDepth c d ∧ costTo dest d < costTo dest c := by
    intro hgo
    refine ⟨d, hstep hgo, ?_⟩
    rw [costTo_eq hmax hnear (hreach.tail (hstep hgo)), costTo_eq hmax hnear hreach]
    omega
  right
  by_cases hd : d = dest
  · rw [hd] at hlower hone
    by_cases hgo : canGo dest = .ok true
    · exact hlower hgo
    -- `dest` is taken: its neighbour on the line is the last cell
    exfalso
    apply hne
    exact (hlast.in_line hmax hnear hgo (hline.resolve_left hgo) hreach hone ((c.dist_comm dest).symm ▸ hbetween)).symm
  · apply hlower
    apply h d
    · rw [d.dist_comm dest]
      omega
    · intro heq
      rw [heq, dest.dist_comm src] at hless
      omega
    · exact hd

/-! ## The paths of the room -/

/-- Between such cells `dest` alone is scored 0. -/
theorem soleZero_within (hmap : Mapped canGo) (hsrc : src.Within (2 ^ 28)) (hdest : dest.Within (2 ^ 28)) :
    SoleZero canGo src maxDepth dest := by
  intro parent seen closed hex p _ c hc _ hzero
  rcases taxicab_zero hzero with heq | heq
  · exact heq
  -- the opposite cell is too far away
  exfalso
  have hreach := (reaches_iff hmap).1 (hex.tree.reached hc)
  have hmax := maxDepth.toInt_lt
  obtain ⟨k, hk⟩ := toInt_opposite dest.x
  obtain ⟨l, hl⟩ := toInt_opposite dest.y
  have hx : c.x.toInt = dest.x.toInt - 2 ^ 31 + k * 2 ^ 32 := by
    rw [heq]
    exact hk
  have hy : c.y.toInt = dest.y.toInt - 2 ^ 31 + l * 2 ^ 32 := by
    rw [heq]
    exact hl
  obtain ⟨hs1, hs2, hs3, hs4⟩ := hsrc
  obtain ⟨hd1, hd2, hd3, hd4⟩ := hdest
  have hdist : src.dist c < 2 ^ 31 := by
    rcases hreach.dist_le with heq | hlt
    · rw [heq, src.dist_self]
      decide
    · omega
  unfold VectorInt.dist at hdist
  omega

/-- **When the paths of `FindPath` are shortest.** For every room whose objects are alive,
all positions near to the origin and every `maxDepth`, every path that can be returned is a
walk that is as short as any to its last cell, if and only if `dest` is too far to search
for, or every walk to the last cell that is longer than another is overtaken. -/
theorem findPath_shortest_iff {room : Room} (hlive : room.Live) (hsrc : src.Within (2 ^ 28))
    (hdest : dest.Within (2 ^ 28)) (maxDepth : Int32) :
    (∀ pick fuel path, findPath room.canGo pick src maxDepth fuel dest = .ok (some path) →
      ∃ last, Walk room.canGo src maxDepth path last ∧
        ∀ other, Walk room.canGo src maxDepth other last → path.length ≤ other.length) ↔
    maxDepth.toInt ≤ src.dist dest ∨ ∀ last path other, LeadsTo room.canGo src maxDepth dest last →
      Walk room.canGo src maxDepth path last → path.Nodup → Walk room.canGo src maxDepth other last →
      other.length < path.length → Overtaken (Step room.canGo src maxDepth) (costTo dest) path := by
  have hsole : SoleZero room.canGo src maxDepth dest := soleZero_within room.mapped hsrc hdest
  have hways := findPath_returns_iff room.mapped hlive.canGo hsole
  have hdepth : maxDepth ≤ (dest.sub src).taxicab ↔ maxDepth.toInt ≤ src.dist dest := by
    have hrange := hdest.dist hsrc
    rw [Int32.le_iff_toInt_le, taxicab_toInt (by omega), src.dist_comm]
  constructor
  · intro hshort
    by_cases hfar : maxDepth.toInt ≤ src.dist dest
    · exact .inl hfar
    right
    intro last path other hlast hwalk hnodup hother hlt
    by_contra hover
    obtain ⟨pick, fuel, h⟩ := (hways path).2 ⟨mt hdepth.1 hfar, last, hlast, hwalk, hnodup, hover⟩
    obtain ⟨last', hwalk', hleast⟩ := hshort pick fuel path h
    obtain rfl := Option.some.inj (hwalk.last.symm.trans hwalk'.last)
    exact absurd hlt (Nat.not_lt.2 (hleast other hother))
  · intro hover pick fuel path h
    obtain ⟨hnear, last, hlast, hwalk, hnodup, hnot⟩ := (hways path).1 ⟨pick, fuel, h⟩
    refine ⟨last, hwalk, ?_⟩
    intro other hother
    by_contra hlt
    rcases hover with hfar | hover
    · exact hnear (hdepth.2 hfar)
    · exact hnot (hover last path other hlast hwalk hnodup hother (Nat.not_le.1 hlt))

/-- A lawn with a monster at `(0, 0)` and a player at `(3, 0)`. -/
def lawn : Room where
  objects := [
    { info := { Monster.info with objectid := 1, objecttype := .monster }, room := true, kind := .monster {} },
    { info := { objectid := 2, objecttype := .player, posx := 3 }, room := true, kind := .player (some 0) }]
  monsters := (∅ : TreeMap UInt64 Ref).insert 1 0
  players := (∅ : TreeMap UInt64 Ref).insert 2 1
  useCount := fun _ => 1
  tilemap := { mapSize := ⟨4, 2⟩, tiles := [[0, 0, 0, 0], [0, 0, 0, 0]] }

theorem lawn_open : OpenBetween lawn.canGo ⟨0, 0⟩ ⟨3, 0⟩ := by
  intro c hc hne hne'
  have h0 : (0 : Int32).toInt = 0 := rfl
  have h1 : (1 : Int32).toInt = 1 := rfl
  have h2 : (2 : Int32).toInt = 2 := rfl
  have h3 : (3 : Int32).toInt = 3 := rfl
  unfold VectorInt.dist at hc
  dsimp only at hc
  have hcases : (c.x.toInt = (0 : Int32).toInt ∨ c.x.toInt = (1 : Int32).toInt ∨ c.x.toInt = (2 : Int32).toInt ∨
      c.x.toInt = (3 : Int32).toInt) ∧ c.y.toInt = (0 : Int32).toInt := by
    omega
  obtain ⟨hx | hx | hx | hx, hy⟩ := hcases
  · exact absurd (VectorInt.ext_toInt (b := ⟨0, 0⟩) hx hy) hne
  · rw [VectorInt.ext_toInt (b := ⟨1, 0⟩) hx hy]
    decide +kernel
  · rw [VectorInt.ext_toInt (b := ⟨2, 0⟩) hx hy]
    decide +kernel
  · exact absurd (VectorInt.ext_toInt (b := ⟨3, 0⟩) hx hy) hne'

theorem findPath_shortest_example :
    findPath lawn.canGo (fun _ => 0) ⟨0, 0⟩ 10 20 ⟨3, 0⟩ = .ok (some [⟨0, 0⟩, ⟨1, 0⟩, ⟨2, 0⟩]) ∧
    ∃ last, Walk lawn.canGo ⟨0, 0⟩ 10 [⟨0, 0⟩, ⟨1, 0⟩, ⟨2, 0⟩] last ∧
      ∀ other, Walk lawn.canGo ⟨0, 0⟩ 10 other last → 3 ≤ other.length := by
  have hlive : lawn.Live := by decide +kernel
  have hsrc : (⟨0, 0⟩ : VectorInt).Within (2 ^ 28) := ⟨by decide, by decide, by decide, by decide⟩
  have hdest : (⟨3, 0⟩ : VectorInt).Within (2 ^ 28) := ⟨by decide, by decide, by decide, by decide⟩
  have hpath : findPath lawn.canGo (fun _ => 0) ⟨0, 0⟩ 10 20 ⟨3, 0⟩ = .ok (some [⟨0, 0⟩, ⟨1, 0⟩, ⟨2, 0⟩]) := by
    decide +kernel
  refine ⟨hpath, (findPath_shortest_iff hlive hsrc hdest 10).2 (.inr ?_) _ _ _ hpath⟩
  intro last path other hlast hwalk hnodup hother hlt
  have hslope := lawn_open.sloping (.inr (.inr rfl)) (by decide) (by decide) hlast
  exact overtaken_of_sloping (by decide) (by decide) hlast hslope hwalk hnodup hother hlt

/-- A room with two pillars at `(1, 1)` and `(1, 2)`, a monster at `(0, 2)` and a player at `(2, 2)`. -/
def pillars : Room where
  objects := [
    { info := { Monster.info with objectid := 1, objecttype := .monster, posy := 2 }, room := true, kind := .monster {} },
    { info := { objectid := 2, objecttype := .player, posx := 2, posy := 2 }, room := true, kind := .player (some 0) }]
  monsters := (∅ : TreeMap UInt64 Ref).insert 1 0
  players := (∅ : TreeMap UInt64 Ref).insert 2 1
  useCount := fun _ => 1
  tilemap := { mapSize := ⟨4, 4⟩, tiles := [[0, 0, 0, 0], [0, 1, 0, 0], [0, 1, 0, 0], [0, 0, 0, 0]] }

theorem longer_way :
    findPath pillars.canGo (fun _ => 0) ⟨0, 2⟩ 10 40 ⟨2, 2⟩ =
      .ok (some [⟨0, 2⟩, ⟨0, 3⟩, ⟨1, 3⟩, ⟨2, 3⟩, ⟨3, 3⟩, ⟨3, 2⟩, ⟨3, 1⟩, ⟨2, 1⟩]) ∧
    Walk pillars.canGo ⟨0, 2⟩ 10 [⟨0, 2⟩, ⟨0, 1⟩, ⟨0, 0⟩, ⟨1, 0⟩, ⟨2, 0⟩, ⟨2, 1⟩] ⟨2, 1⟩ := by
  constructor
  · decide +kernel
  · refine ⟨rfl, rfl, ?_, ?_⟩
    · decide +kernel
    · decide +kernel

end ZeldaServer
