import ZeldaServer.Lib.BestFirst
import Mathlib.Data.List.Infix
import Mathlib.Data.Prod.Lex

/-!
# The ways of a best-first search

A best-first search finds a node from the first of its neighbours that is expanded. Before
it expands a node `b`, it expands all that an expanded node `a` leads to through nodes
cheaper than `b`. So no node of a lineage is next to one that is expanded before its parent
in this way: the walk is not overtaken. Conversely a walk that is not overtaken is the
lineage of its last node, when the search prefers the nodes of the walk among those of
equal cost.

* `Overtaken`: some node of a walk is found before the walk comes to it.
* `Explored.not_overtaken`: lineages are not overtaken.
* `Explored.follows`: a search that prefers a walk that is not overtaken follows it.
* `length_of_sloping`: where every node has a cheaper successor or leads to the last one,
  such a walk goes straight down.
-/

namespace Lib

open Relation

variable {α κ : Type} [LinearOrder κ] (step : α → α → Prop) (cost : α → κ)

/-- What a node leads to through nodes cheaper than `level`. -/
def Below (level : κ) : α → α → Prop := ReflTransGen fun p c => step p c ∧ cost c < level

/-- A node `a` of the walk leads to `u` through nodes cheaper than a later node `b`. A search
along the walk expands `u` before `b`. -/
def Undercut (walk : List α) (u : α) : Prop :=
  ∃ a b, [a, b].Sublist walk ∧ Below step cost (cost b) a u

/-- Some node `c` of the walk is next to a node that undercuts the walk before `c`. -/
def Overtaken (walk : List α) : Prop :=
  ∃ before c u, before ++ [c] <+: walk ∧ Undercut step cost before u ∧ step u c

variable {step cost} {root goal last a b c p u v : α} {parent : α → Option α} {seen closed walk before l : List α}

theorem Below.mono {level level' : κ} (h : Below step cost level a u) (hle : level ≤ level') :
    Below step cost level' a u := by
  refine ReflTransGen.mono ?_ a u h
  intro p c hstep
  exact ⟨hstep.1, hstep.2.trans_le hle⟩

theorem Undercut.mono (h : Undercut step cost before u) (hsub : before.Sublist walk) :
    Undercut step cost walk u := by
  obtain ⟨a, b, hab, hbelow⟩ := h
  exact ⟨a, b, hab.trans hsub, hbelow⟩

/-- Two nodes of a walk in their order, the last of which may be the new one. -/
theorem pair_concat : [a, b].Sublist (walk ++ [c]) ↔ [a, b].Sublist walk ∨ a ∈ walk ∧ b = c := by
  rw [← List.reverse_sublist, ← @List.reverse_sublist α [a, b] walk]
  simp only [List.reverse_append, List.reverse_cons, List.reverse_nil, List.nil_append, List.singleton_append]
  rw [List.sublist_cons_iff]
  constructor
  · rintro (hsub | ⟨r, heq, hsub⟩)
    · exact .inl hsub
    · obtain ⟨hb, rfl⟩ := List.cons.inj heq
      rw [List.singleton_sublist, List.mem_reverse] at hsub
      exact .inr ⟨hsub, hb⟩
  · rintro (hsub | ⟨ha, hb⟩)
    · exact .inl hsub
    · rw [hb]
      exact .inr ⟨[a], rfl, List.singleton_sublist.2 (List.mem_reverse.2 ha)⟩

theorem overtaken_concat :
    Overtaken step cost (walk ++ [c]) ↔ Overtaken step cost walk ∨ ∃ u, Undercut step cost walk u ∧ step u c := by
  unfold Overtaken
  constructor
  · rintro ⟨before, d, u, hprefix, hcut, hstep⟩
    rcases List.prefix_concat_iff.1 hprefix with heq | hprefix
    · obtain ⟨rfl, hd⟩ := List.append_inj' heq rfl
      rw [List.singleton_inj.1 hd] at hstep
      exact .inr ⟨u, hcut, hstep⟩
    · exact .inl ⟨before, d, u, hprefix, hcut, hstep⟩
  · rintro (⟨before, d, u, hprefix, hrest⟩ | ⟨u, hcut, hstep⟩)
    · exact ⟨before, d, u, hprefix.trans (List.prefix_append _ _), hrest⟩
    · exact ⟨walk, c, u, List.prefix_rfl, hcut, hstep⟩

theorem not_overtaken_single : ¬ Overtaken step cost [a] := by
  rw [← List.nil_append [a], overtaken_concat]
  rintro (⟨before, c, u, hprefix, -⟩ | ⟨u, ⟨a, b, hsub, -⟩, -⟩)
  · have := hprefix.length_le
    simp at this
  · have := hsub.length_le
    simp at this

namespace Explored

/-- Before the next node, all is expanded that lies below it. -/
theorem below_closed (h : Explored step cost root goal parent seen closed)
    (hmin : ∀ d ∈ seen, d ∉ closed → cost p ≤ cost d) (ha : a ∈ closed) (hbelow : Below step cost (cost p) a u) :
    u ∈ closed := by
  induction hbelow with
  | refl => exact ha
  | @tail u c _ hstep ih =>
    by_contra hopen
    have hle := hmin c (h.closed_step ih hstep.1) hopen
    exact absurd hstep.2 (not_lt.2 hle)

theorem pair_closed (h : Explored step cost root goal parent seen closed) (hsub : [b, a].Sublist closed)
    (hbelow : Below step cost (cost b) a u) : u ∈ closed := by
  induction h with
  | start _ => exact absurd hsub.length_le (by simp)
  | expand hex _ _ _ hmin _ _ _ _ ih =>
    rcases List.sublist_cons_iff.1 hsub with hsub | ⟨r, heq, hsub⟩
    · exact List.mem_cons_of_mem _ (ih hsub)
    · obtain ⟨rfl, rfl⟩ := List.cons.inj heq
      exact List.mem_cons_of_mem _ (hex.below_closed hmin (List.singleton_sublist.1 hsub) hbelow)

/-- The lineage of a node is the one that it had when it was found. -/
theorem lineage_before {parent' : α → Option α} (h : Explored step cost root goal parent seen closed)
    (hkeep : ∀ c ∈ seen, parent' c = parent c) (hc : c ∈ seen) (hl : Lineage root parent' c l) :
    Lineage root parent c l := by
  refine hl.congr fun d hd => (hkeep d ?_).symm
  exact hl.mem_tree (h.tree.congr hkeep) hc d hd

/-- The lineage of a node that is found goes on from the node that is expanded. -/
theorem lineage_found {parent' : α → Option α} (h : Explored step cost root goal parent seen closed)
    (hkeep : ∀ c ∈ seen, parent' c = parent c) (hp : p ∈ seen) (hnew : c ∉ seen) (hparent : parent' c = some p)
    (hl : Lineage root parent' c l) : ∃ q, l = c :: p :: q ∧ Lineage root parent p (p :: q) := by
  have hne : c ≠ p := by
    intro heq
    rw [heq] at hnew
    exact hnew hp
  obtain ⟨l', hcons, hl'⟩ := hl.tail hparent hne
  rw [hl'.eq_cons] at hcons hl'
  exact ⟨l'.tail, hcons, h.lineage_before hkeep hp hl'⟩

/-- The ancestors of a node have been expanded one after another. -/
theorem lineage_closed (h : Explored step cost root goal parent seen closed) (hc : c ∈ seen)
    (hl : Lineage root parent c l) : l.tail.Sublist closed := by
  induction h generalizing c l with
  | start hroot =>
    rw [List.mem_singleton] at hc
    rw [hc] at hl
    rw [hl.unique (.root hroot)]
    exact List.Sublist.refl _
  | expand hex hp _ _ _ _ hfound _ hkeep ih =>
    rw [List.mem_append] at hc
    rcases hc with hc | hc
    · obtain ⟨-, hnew, hparent⟩ := hfound c hc
      obtain ⟨q, rfl, hq⟩ := hex.lineage_found hkeep hp hnew hparent hl
      exact (ih hp hq).cons_cons _
    · exact (ih hc (hex.lineage_before hkeep hc hl)).cons _

/-- What undercuts the lineage of the next node has been expanded. -/
theorem undercut_closed (h : Explored step cost root goal parent seen closed) (hp : p ∈ seen)
    (hmin : ∀ d ∈ seen, d ∉ closed → cost p ≤ cost d) (hl : Lineage root parent p l)
    (hcut : Undercut step cost l.reverse u) : u ∈ closed := by
  obtain ⟨a, b, hsub, hbelow⟩ := hcut
  have hclosed := h.lineage_closed hp hl
  rw [hl.eq_cons, List.reverse_cons, pair_concat] at hsub
  rcases hsub with hsub | ⟨ha, rfl⟩
  · have hpair : [b, a].Sublist l.tail := by
      rw [← List.reverse_sublist]
      exact hsub
    exact h.pair_closed (hpair.trans hclosed) hbelow
  · exact h.below_closed hmin (hclosed.subset (List.mem_reverse.1 ha)) hbelow

/-- **Lineages are not overtaken**: a node is found from the first of its neighbours that is
expanded. -/
theorem not_overtaken (h : Explored step cost root goal parent seen closed) (hc : c ∈ seen)
    (hl : Lineage root parent c l) : ¬ Overtaken step cost l.reverse := by
  induction h generalizing c l with
  | start hroot =>
    rw [List.mem_singleton] at hc
    rw [hc] at hl
    rw [hl.unique (.root hroot)]
    exact not_overtaken_single
  | expand hex hp _ _ hmin _ hfound _ hkeep ih =>
    rw [List.mem_append] at hc
    rcases hc with hc | hc
    · obtain ⟨-, hnew, hparent⟩ := hfound c hc
      obtain ⟨q, rfl, hq⟩ := hex.lineage_found hkeep hp hnew hparent hl
      rw [List.reverse_cons, overtaken_concat]
      rintro (hover | ⟨u, hcut, hstep⟩)
      · exact ih hp hq hover
      · -- the successors of what was expanded had been found
        exact hnew (hex.closed_step (hex.undercut_closed hp hmin hq hcut) hstep)
    · exact ih hc (hex.lineage_before hkeep hc hl)

end Explored

/-! ## Preferred walks -/

/-- The nodes of the walk come first among those of equal cost. -/
def prefers [DecidableEq α] (cost : α → κ) (walk : List α) (c : α) : κ ×ₗ ℕ :=
  toLex (cost c, if c ∈ walk then 0 else 1)

/-- A search has come to the node `v` of the walk and is going to expand it, or it has found
the last node of the walk. -/
inductive OnWalk (step : α → α → Prop) (cost : α → κ) (root : α) (walk : List α) (parent : α → Option α)
    (seen closed : List α) : Prop
  | under {before after : List α} {v : α} : walk = before ++ v :: after → v ∈ seen → v ∉ closed →
      (∀ a ∈ before, a ∈ closed) → (∀ u ∈ closed, Undercut step cost (before ++ [v]) u) →
      Lineage root parent v (before ++ [v]).reverse → OnWalk step cost root walk parent seen closed
  | done {last : α} : walk.getLast? = some last → last ∈ seen → Lineage root parent last walk.reverse →
      OnWalk step cost root walk parent seen closed

/-- What undercuts the walk leads to nodes that do, while they are cheaper than the next one. -/
theorem Undercut.onward (h : Undercut step cost (before ++ [v]) u) (hstep : step u p) (hlt : cost p < cost v) :
    Undercut step cost (before ++ [v]) p := by
  obtain ⟨a, b, hsub, hbelow⟩ := h
  by_cases hpb : cost p < cost b
  · exact ⟨a, b, hsub, hbelow.tail ⟨hstep, hpb⟩⟩
  · have hbv : cost b < cost v := (not_lt.1 hpb).trans_lt hlt
    have ha : a ∈ before := by
      rcases pair_concat.1 hsub with hsub | ⟨ha, -⟩
      · exact hsub.subset List.mem_cons_self
      · exact ha
    exact ⟨a, v, pair_concat.2 (.inr ⟨ha, rfl⟩), (hbelow.mono hbv.le).tail ⟨hstep, hlt⟩⟩

section

variable [DecidableEq α] (hhead : walk.head? = some root) (hchain : walk.IsChain step) (hnodup : walk.Nodup)
  (hover : ¬ Overtaken step cost walk)

include hhead hnodup hover in
/-- The nodes to which the walk has not come are not found. -/
theorem walk_not_seen {after : List α} (h : Explored step (prefers cost walk) root goal parent seen closed)
    (hwalk : walk = before ++ v :: after) (hcut : ∀ u ∈ closed, Undercut step cost (before ++ [v]) u)
    (hc : c ∈ after) : c ∉ seen := by
  intro hseen
  rcases h.found_from hseen with heq | ⟨u, hu, -, hstep⟩
  · -- the root comes first
    rw [hwalk] at hhead hnodup
    have hroot : root ∈ before ++ [v] := by
      cases before with
      | nil => simpa using hhead.symm
      | cons a before => simp_all
    rw [heq] at hc
    rw [← List.singleton_append, ← List.append_assoc, List.nodup_append] at hnodup
    exact hnodup.2.2 root hroot root hc rfl
  · obtain ⟨mid, after, rfl⟩ := List.append_of_mem hc
    refine hover ⟨before ++ v :: mid, c, u, ⟨after, ?_⟩, (hcut u hu).mono ?_, hstep⟩
    · rw [hwalk]
      simp
    · exact (List.Sublist.refl before).append ((List.nil_sublist mid).cons_cons v)

include hhead hnodup hover in
/-- Another node than the next one of the walk is expanded only below it. -/
theorem walk_aside {after : List α} (h : Explored step (prefers cost walk) root goal parent seen closed)
    (hwalk : walk = before ++ v :: after) (hv : v ∈ seen) (hopen : v ∉ closed) (hbefore : ∀ a ∈ before, a ∈ closed)
    (hcut : ∀ u ∈ closed, Undercut step cost (before ++ [v]) u) (hp : p ∈ seen) (hpopen : p ∉ closed)
    (hmin : ∀ d ∈ seen, d ∉ closed → prefers cost walk p ≤ prefers cost walk d) (hne : p ≠ v) :
    Undercut step cost (before ++ [v]) p := by
  have hvwalk : v ∈ walk := by
    rw [hwalk]
    simp
  have hpwalk : p ∉ walk := by
    intro hmem
    rw [hwalk, List.mem_append, List.mem_cons] at hmem
    rcases hmem with hmem | heq | hmem
    · exact hpopen (hbefore p hmem)
    · exact hne heq
    · exact walk_not_seen hhead hnodup hover h hwalk hcut hmem hp
  -- so it is no node of the walk, and cheaper than the next one
  have hlt : cost p < cost v := by
    have hle := hmin v hv hopen
    unfold prefers at hle
    rw [Prod.Lex.toLex_le_toLex, if_neg hpwalk, if_pos hvwalk] at hle
    rcases hle with hlt | ⟨-, hle⟩
    · exact hlt
    · exact absurd hle (by simp)
  rcases h.found_from hp with heq | ⟨u, hu, -, hstep⟩
  · rw [heq] at hpwalk
    exact absurd (List.mem_of_mem_head? hhead) hpwalk
  · exact (hcut u hu).onward hstep hlt

include hhead hchain hnodup hover in
/-- When the next node is expanded, the search comes to the one behind it. -/
theorem walk_advance {parent' : α → Option α} {after found : List α}
    (h : Explored step (prefers cost walk) root goal parent seen closed) (hwalk : walk = before ++ v :: after)
    (hv : v ∈ seen) (hbefore : ∀ a ∈ before, a ∈ closed) (hcut : ∀ u ∈ closed, Undercut step cost (before ++ [v]) u)
    (hfound : ∀ c ∈ found, step v c ∧ c ∉ seen ∧ parent' c = some v) (hall : ∀ c, step v c → c ∈ found ∨ c ∈ seen)
    (hl : Lineage root parent' v (before ++ [v]).reverse) :
    OnWalk step cost root walk parent' (found ++ seen) (v :: closed) := by
  cases after with
  | nil =>
    have hlast : walk.getLast? = some v := by
      rw [hwalk, List.getLast?_concat]
    refine .done hlast (List.mem_append_right _ hv) ?_
    rw [hwalk]
    exact hl
  | cons w after =>
    have hnew : w ∉ seen := walk_not_seen hhead hnodup hover h hwalk hcut List.mem_cons_self
    have hstep : step v w := by
      rw [hwalk, List.isChain_append] at hchain
      exact (List.isChain_cons_cons.1 hchain.2.1).1
    have hw : w ∈ found := (hall w hstep).resolve_right hnew
    have hne : w ≠ v := by
      intro heq
      rw [heq] at hnew
      exact hnew hv
    have hnext : walk = (before ++ [v]) ++ w :: after := by
      rw [hwalk]
      simp
    refine .under hnext (List.mem_append_left _ hw) ?_ ?_ ?_ ?_
    · intro hmem
      rcases List.mem_cons.1 hmem with heq | hmem
      · exact hne heq
      · exact hnew (h.closed_seen w hmem)
    · intro a ha
      rcases List.mem_append.1 ha with ha | ha
      · exact List.mem_cons_of_mem _ (hbefore a ha)
      · rw [List.mem_singleton.1 ha]
        exact List.mem_cons_self
    · intro u hu
      rcases List.mem_cons.1 hu with heq | hu
      · rw [heq]
        exact ⟨v, w, pair_concat.2 (.inr ⟨by simp, rfl⟩), .refl⟩
      · exact (hcut u hu).mono (List.sublist_append_left _ _)
    · rw [List.reverse_append]
      exact .parent (hfound w hw).2.2 hne hl

include hhead hchain hnodup hover in
/-- **A search that prefers the nodes of a walk that is not overtaken follows the walk.** -/
theorem Explored.follow (h : Explored step (prefers cost walk) root goal parent seen closed) :
    OnWalk step cost root walk parent seen closed := by
  induction h with
  | start hroot =>
    obtain ⟨after, rfl⟩ : ∃ after, walk = root :: after := List.head?_eq_some_iff.1 hhead
    exact .under (List.nil_append _).symm List.mem_cons_self List.not_mem_nil (fun a ha => absurd ha List.not_mem_nil)
      (fun u hu => absurd hu List.not_mem_nil) (.root hroot)
  | @expand parent parent' seen closed found p hex hp hpopen _ hmin _ hfound hall hkeep ih =>
    have hlater : ∀ {c l}, c ∈ seen → Lineage root parent c l → Lineage root parent' c l := fun hc hl =>
      hl.congr fun d hd => hkeep d (hl.mem_tree hex.tree hc d hd)
    cases ih with
    | done hlast hseen hl => exact .done hlast (List.mem_append_right _ hseen) (hlater hseen hl)
    | @under before after v hwalk hv hopen hbefore hcut hl =>
      by_cases hpv : p = v
      · rw [hpv] at hfound hall ⊢
        exact walk_advance hhead hchain hnodup hover hex hwalk hv hbefore hcut hfound hall (hlater hv hl)
      · -- the search goes on below `v`
        have hside := walk_aside hhead hnodup hover hex hwalk hv hopen hbefore hcut hp hpopen hmin hpv
        refine .under hwalk (List.mem_append_right _ hv) ?_ (fun a ha => List.mem_cons_of_mem _ (hbefore a ha)) ?_
          (hlater hv hl)
        · intro hmem
          rcases List.mem_cons.1 hmem with heq | hmem
          · exact hpv heq.symm
          · exact hopen hmem
        · intro u hu
          rcases List.mem_cons.1 hu with heq | hu
          · rw [heq]
            exact hside
          · exact hcut u hu

include hhead hchain hnodup hover in
/-- **The walk is the lineage of its last node**, when that has been found. -/
theorem Explored.follows (h : Explored step (prefers cost walk) root goal parent seen closed)
    (hlast : walk.getLast? = some last) (hseen : last ∈ seen) : Lineage root parent last walk.reverse := by
  cases h.follow hhead hchain hnodup hover with
  | done hlast' _ hl =>
    rw [hlast] at hlast'
    rw [Option.some.inj hlast']
    exact hl
  | @under before after v hwalk _ _ _ hcut hl =>
    cases after with
    | nil =>
      rw [hwalk] at hlast ⊢
      rw [List.getLast?_concat] at hlast
      rw [← Option.some.inj hlast]
      exact hl
    | cons w after =>
      have hmem : last ∈ w :: after := by
        rw [hwalk, List.getLast?_append, List.getLast?_cons_cons] at hlast
        exact List.mem_of_getLast? (by simpa using hlast)
      exact absurd hseen (walk_not_seen hhead hnodup hover h hwalk hcut hmem)

end

/-! ## Descents -/

/-- What is reached from the root by steps that lower the cost. -/
def Descends (step : α → α → Prop) (cost : α → κ) (root : α) : α → Prop :=
  ReflTransGen (fun p c => step p c ∧ cost c < cost p) root

section

variable {cost : α → ℤ} {bottom : ℤ}

/-- Every node of a descent has a cheaper successor, or `last` for one. -/
def Sloping (step : α → α → Prop) (cost : α → ℤ) (root last : α) : Prop :=
  ∀ c, Descends step cost root c → c ≠ last → step c last ∨ ∃ d, step c d ∧ cost d < cost c

/-- Down from a node there is a neighbour of `last`. -/
theorem Sloping.leads (h : Sloping step cost root last) (hbottom : ∀ c, Descends step cost root c → bottom ≤ cost c)
    {level : ℤ} (hc : Descends step cost root c) (hne : c ≠ last) (hlevel : cost c ≤ level) :
    ∃ u, Below step cost level c u ∧ step u last := by
  have hc0 := hbottom c hc
  obtain ⟨n, hn⟩ : ∃ n : ℕ, cost c = bottom + n := ⟨(cost c - bottom).toNat, by omega⟩
  induction n using Nat.strong_induction_on generalizing c with
  | _ n ih =>
    rcases h c hc hne with hstep | ⟨d, hstep, hlt⟩
    · exact ⟨c, .refl, hstep⟩
    · by_cases hd : d = last
      · rw [hd] at hstep
        exact ⟨c, .refl, hstep⟩
      · have hdown : Descends step cost root d := hc.tail ⟨hstep, hlt⟩
        have hd0 := hbottom d hdown
        obtain ⟨u, hbelow, hu⟩ := ih (cost d - bottom).toNat (by omega) hdown hd (by omega) hd0 (by omega)
        exact ⟨u, .head ⟨hstep, by omega⟩ hbelow, hu⟩

variable (hslope : Sloping step cost root last) (hbottom : ∀ c, Descends step cost root c → bottom ≤ cost c)
  (hdrop : ∀ c, Descends step cost root c → step c last → cost last < cost c) (hchain : walk.IsChain step)
  (hnodup : walk.Nodup) (hlast : walk.getLast? = some last) (hover : ¬ Overtaken step cost walk)

include hslope hbottom hdrop hchain hnodup hlast hover

/-- A walk that is not overtaken goes down with each step. -/
theorem lower_of_sloping {after : List α} (hwalk : walk = before ++ v :: c :: after) (hv : Descends step cost root v) :
    step v c ∧ cost c < cost v := by
  have hstep : step v c := by
    rw [hwalk, List.isChain_append] at hchain
    exact (List.isChain_cons_cons.1 hchain.2.1).1
  refine ⟨hstep, ?_⟩
  by_cases hc : c = last
  · rw [hc] at hstep ⊢
    exact hdrop v hv hstep
  have hmem : last ∈ c :: after := by
    rw [hwalk, List.getLast?_append, List.getLast?_cons_cons] at hlast
    exact List.mem_of_getLast? (by simpa using hlast)
  have hne : v ≠ last := by
    intro heq
    rw [hwalk, List.nodup_append, List.nodup_cons, heq] at hnodup
    exact hnodup.2.1.1 hmem
  by_contra hle
  -- `last` is found from below `v` before the walk comes to it
  obtain ⟨u, hbelow, hu⟩ := hslope.leads hbottom hv hne (Int.not_lt.1 hle)
  obtain ⟨mid, rest, rfl⟩ := List.append_of_mem ((List.mem_cons.1 hmem).resolve_left (Ne.symm hc))
  refine hover ⟨before ++ v :: c :: mid, last, u, ⟨rest, ?_⟩, ⟨v, c, ?_, hbelow⟩, hu⟩
  · rw [hwalk]
    simp
  · exact List.Sublist.trans (((List.nil_sublist mid).cons_cons c).cons_cons v) (List.sublist_append_right _ _)

/-- **Where the nodes slope down to `last`**, a walk that is not overtaken is as long as the
descent. -/
theorem length_of_sloping {after : List α} (hwalk : walk = before ++ v :: after) (hv : Descends step cost root v) :
    (after.length : ℤ) ≤ cost v - cost last := by
  induction after generalizing before v with
  | nil =>
    rw [hwalk, List.getLast?_concat] at hlast
    rw [Option.some.inj hlast]
    simp
  | cons c after ih =>
    obtain ⟨hstep, hlt⟩ := lower_of_sloping hslope hbottom hdrop hchain hnodup hlast hover hwalk hv
    have hnext : walk = (before ++ [v]) ++ c :: after := by
      rw [hwalk]
      simp
    have hrest := ih hnext (hv.tail ⟨hstep, hlt⟩)
    rw [List.length_cons]
    omega

end

end Lib
