import ZeldaServer.Proof.Cells
import ZeldaServer.Proof.Distance
import ZeldaServer.Proof.Nearest
import ZeldaServer.Proof.Trace
import Mathlib.Data.Prod.Lex

/-!
# The contract of FindPath

Where no distance overflows, `FindPath` walks to the cell that is nearest to `dest` among
all that can be reached within `maxDepth`, on a path without repetition.
-/

namespace ZeldaServer

open Lib Std

/-! ## The room -/

/-- The objects of the two maps are alive. -/
def Room.Live (room : Room) : Prop :=
  ∀ r ∈ elements room.players ++ elements room.monsters, (room.deref r).isOk = true

instance (room : Room) : Decidable room.Live :=
  inferInstanceAs (Decidable (∀ r ∈ elements room.players ++ elements room.monsters, (room.deref r).isOk = true))

theorem Room.Live.getGameObjectAt {room : Room} (h : room.Live) (cellPos : VectorInt) :
    Returns (room.getGameObjectAt cellPos) fun _ => True := by
  have halive : ∀ r ∈ elements room.players ++ elements room.monsters,
      ∃ o, room.deref r = .ok o ∧ room.objects[r]? = some o := by
    intro r hr
    have hok := h r hr
    cases ho : room.deref r with
    | error e =>
      rw [ho] at hok
      exact absurd hok Bool.false_ne_true
    | ok o => exact ⟨o, rfl, (deref_spec.result ho).1⟩
  unfold Room.getGameObjectAt
  refine (findAt_returns _ fun r hr => halive r (List.mem_append_left _ hr)).bind fun ret _ => ?_
  cases ret with
  | some r => exact .ok trivial
  | none => exact (findAt_returns _ fun r hr => halive r (List.mem_append_right _ hr)).imp fun _ _ => trivial

/-- `CanGo` returns when the objects are alive. -/
theorem Room.Live.canGo {room : Room} (h : room.Live) (c : VectorInt) : ∃ b, room.canGo c = .ok b := by
  unfold Room.canGo
  cases room.tilemap.getTileAt c with
  | none => exact ⟨false, rfl⟩
  | some value =>
    obtain ⟨ret, hret, -⟩ := returns_iff.1 (h.getGameObjectAt c)
    refine ⟨ret.isNone && value != 1, ?_⟩
    dsimp only
    rw [hret, ok_bind]

/-- A tile that is there lies in the map. -/
theorem getTileAt_range {tilemap : TileMap} {c : VectorInt} {value : Int32} (h : tilemap.getTileAt c = some value) :
    0 ≤ c.x.toInt ∧ c.x.toInt < tilemap.mapSize.x.toInt ∧ 0 ≤ c.y.toInt ∧ c.y.toInt < tilemap.mapSize.y.toInt := by
  unfold TileMap.getTileAt at h
  split at h
  · exact absurd h.symm (Option.some_ne_none value)
  rename_i hin
  rw [not_or, not_or, not_or, Int32.lt_iff_toInt_lt, Int32.lt_iff_toInt_lt, Int32.le_iff_toInt_le,
    Int32.le_iff_toInt_le] at hin
  have h0 : (0 : Int32).toInt = 0 := rfl
  omega

/-- `CanGo` holds of cells of the map only. -/
theorem Room.mapped (room : Room) : Mapped room.canGo := by
  intro c hc
  unfold Room.canGo at hc
  cases htile : room.tilemap.getTileAt c with
  | none =>
    rw [htile] at hc
    exact absurd hc (by simp)
  | some value =>
    have hrange := getTileAt_range htile
    have hx := room.tilemap.mapSize.x.toInt_lt
    have hy := room.tilemap.mapSize.y.toInt_lt
    omega

/-- The objects of a room that the operations have made are alive. -/
theorem Good.live {W : SessionId → Outboxes → Prop} {st : Game Outboxes} {pins : List Ref} (h : Good W st pins) :
    st.game.Live := by
  intro r hr
  have hin : st.game.Inside r := h.core.elements_inside.1 hr
  obtain ⟨o, ho, -⟩ := h.core.inside_room hin
  rw [h.deref ho (.inl hin)]
  rfl

/-! ## Paths -/

/-- A walk from `src` to `last` in which every cell after the first is walkable. -/
structure Walk (canGo : VectorInt → Outcome Bool) (src : VectorInt) (maxDepth : Int32) (path : List VectorInt)
    (last : VectorInt) : Prop where
  head : path.head? = some src
  last : path.getLast? = some last
  steps : path.IsChain fun p c => p.dist c = 1
  walkable : ∀ c ∈ path.tail, Walkable canGo src maxDepth c

/-- A walk without repetition is `src` alone exactly when it ends there. -/
theorem Walk.length_le {canGo : VectorInt → Outcome Bool} {src last : VectorInt} {maxDepth : Int32} {path : List VectorInt}
    (h : Walk canGo src maxDepth path last) (hnodup : path.Nodup) : path.length ≤ 1 ↔ last = src := by
  obtain ⟨hhead, hlast, -, -⟩ := h
  cases path with
  | nil => exact absurd hhead.symm (Option.some_ne_none src)
  | cons a rest =>
    obtain rfl : a = src := Option.some.inj hhead
    constructor
    · intro hlen
      obtain rfl : rest = [] := by
        apply List.eq_nil_of_length_eq_zero
        rw [List.length_cons] at hlen
        omega
      exact (Option.some.inj hlast).symm
    · intro heq
      cases rest with
      | nil => exact Nat.le_refl 1
      | cons b rest =>
        rw [List.getLast?_cons_cons] at hlast
        have hmem := List.mem_of_getLast? hlast
        rw [heq] at hmem
        exact absurd hmem (List.nodup_cons.1 hnodup).1

/-- Cells in the order in which `FindPath` prefers them. -/
def rank (src dest c : VectorInt) : ℕ ×ₗ ℕ ×ₗ ℤ ×ₗ ℤ :=
  toLex (dest.dist c, toLex (src.dist c, toLex (c.x.toInt, c.y.toInt)))

variable {canGo : VectorInt → Outcome Bool} {pick : Pick} {src dest : VectorInt} {maxDepth : Int32}

theorem rank_le {a b : VectorInt} : rank src dest a ≤ rank src dest b ↔
    dest.dist a < dest.dist b ∨ dest.dist a = dest.dist b ∧ (src.dist a < src.dist b ∨ src.dist a = src.dist b ∧
      (a.x.toInt < b.x.toInt ∨ a.x.toInt = b.x.toInt ∧ a.y.toInt ≤ b.y.toInt)) := by
  unfold rank
  rw [Prod.Lex.toLex_le_toLex, Prod.Lex.toLex_le_toLex, Prod.Lex.toLex_le_toLex]

/-- The order of the keys of the maps. -/
theorem compare_lt {a b : VectorInt} (h : compare a b = .lt) :
    a.x.toInt < b.x.toInt ∨ a.x.toInt = b.x.toInt ∧ a.y.toInt ≤ b.y.toInt := by
  have h : compareLex (compareOn VectorInt.x) (compareOn VectorInt.y) a b = .lt := h
  unfold compareLex at h
  rw [Ordering.then_eq_lt] at h
  rcases h with hx | ⟨hx, hy⟩
  · left
    rw [← Int32.lt_iff_toInt_lt]
    exact Std.compare_eq_lt.1 hx
  · right
    rw [← Int32.le_iff_toInt_le, Int32.toInt_inj]
    exact ⟨Std.compare_eq_iff_eq.1 hx, Int32.le_of_lt (Std.compare_eq_lt.1 hy)⟩

/-- A lineage of walkable steps, read backwards. -/
theorem Walk.of_lineage {parent : VectorInt → Option VectorInt} {last : VectorInt} {l : List VectorInt}
    (h : Lineage src parent last l) (hsteps : l.reverse.IsChain (Step canGo src maxDepth)) :
    Walk canGo src maxDepth l.reverse last := by
  refine ⟨?_, ?_, hsteps.imp fun _ _ hstep => hstep.1, ?_⟩
  · rw [List.head?_reverse]
    exact h.getLast?_eq
  · rw [List.getLast?_reverse]
    exact h.head?_eq
  · intro c hc
    obtain ⟨p, -, hstep⟩ := chain_tail hsteps c hc
    exact hstep.2

/-- What is traced back is a walk. -/
theorem Found.walk (hmap : Mapped canGo) {found : Bool} {s : Search} {seen closed path : List VectorInt}
    {last : VectorInt} (h : Found canGo src maxDepth dest found s seen closed path last) :
    Walk canGo src maxDepth path last := by
  have htree := h.searched.explored.tree
  have hmem := h.lineage.mem_tree htree h.last_seen
  have hreach : ∀ c ∈ seen, Reachable canGo src maxDepth c := fun c hc => (reaches_iff hmap).1 (htree.reached hc)
  have hsteps : path.reverse.reverse.IsChain (Step canGo src maxDepth) := by
    refine h.lineage.walk fun c hc p hparent hne => ?_
    rcases htree.parent_mem (hmem c hc) with ⟨heq, hroot⟩ | ⟨q, hq, hparent', -, henters⟩
    · rw [hroot] at hparent
      rw [heq] at hne
      exact absurd (Option.some.inj hparent) hne
    · rw [hparent'] at hparent
      rw [← Option.some.inj hparent]
      exact henters.step hmap (hreach q hq)
  rw [← path.reverse_reverse]
  exact .of_lineage h.lineage hsteps

/-! ## The last cell -/

/-- The cell to which `FindPath` leads: `dest` if that can be reached, and else the reachable
cell that the scan prefers. -/
structure LeadsTo (canGo : VectorInt → Outcome Bool) (src : VectorInt) (maxDepth : Int32) (dest last : VectorInt) :
    Prop where
  reached : Reachable canGo src maxDepth last
  chosen : last = dest ∨ ¬ Reachable canGo src maxDepth dest ∧ ∀ c, Reachable canGo src maxDepth c →
    Preferred src (last, (dest.sub last).taxicab) (c, (dest.sub c).taxicab)

theorem LeadsTo.unique {last last' : VectorInt} (h : LeadsTo canGo src maxDepth dest last)
    (h' : LeadsTo canGo src maxDepth dest last') : last = last' := by
  rcases h.chosen with heq | ⟨hno, hbest⟩
  · rcases h'.chosen with heq' | ⟨hno, -⟩
    · rw [heq, heq']
    · have hreached := h.reached
      rw [heq] at hreached
      exact absurd hreached hno
  · rcases h'.chosen with heq' | ⟨-, hbest'⟩
    · have hreached := h'.reached
      rw [heq'] at hreached
      exact absurd hreached hno
    · exact congrArg Prod.fst ((hbest last' h'.reached).antisymm (hbest' last h.reached))

theorem Found.leadsTo (hmap : Mapped canGo) {found : Bool} {s : Search} {seen closed path : List VectorInt}
    {last : VectorInt} (h : Found canGo src maxDepth dest found s seen closed path last) :
    LeadsTo canGo src maxDepth dest last := by
  have hex := h.searched.explored
  have hlast := h.last_eq
  refine ⟨(reaches_iff hmap).1 (hex.tree.reached h.last_seen), ?_⟩
  cases found with
  | true => exact .inl hlast
  | false =>
    rw [if_neg Bool.false_ne_true] at hlast
    have hall := h.searched.emptied rfl
    have hseen : ∀ c, Reachable canGo src maxDepth c → c ∈ seen := fun c hc =>
      (hex.complete hall).2 ((reaches_iff hmap).2 hc)
    right
    constructor
    · intro hdest
      exact hex.goal_open (hall dest (hseen dest hdest))
    · have hroot := (h.searched.best src _).2 ⟨hex.tree.root_mem, rfl⟩
      obtain ⟨v, hv, hbest⟩ : ∃ v, s.best[nearest src dest s.best]? = some v ∧ _ := nearest_preferred ⟨_, hroot⟩
      rw [← hlast] at hv hbest
      intro c hc
      rw [← ((h.searched.best last v).1 hv).2]
      exact hbest c _ ((h.searched.best c _).2 ⟨hseen c hc, rfl⟩)

section

variable (hmax : maxDepth.toInt ≤ 2 ^ 20) (hdepth : (dest.dist src : ℤ) < maxDepth.toInt)

include hmax hdepth

/-- In a small ball the costs are the Manhattan distances. -/
theorem cost_eq {c : VectorInt} (hc : Reachable canGo src maxDepth c) :
    dest.dist c < 2 ^ 21 ∧ (dest.sub c).taxicab.toInt = dest.dist c := by
  have hlt : dest.dist c < 2 ^ 21 := by
    have htri := dest.dist_triangle src c
    rcases hc.dist_le with heq | hball
    · rw [heq]
      omega
    · omega
  exact ⟨hlt, taxicab_toInt (by omega)⟩

/-- The last cell is the least of the reachable ones. -/
theorem LeadsTo.rank_le {last c : VectorInt} (h : LeadsTo canGo src maxDepth dest last)
    (hc : Reachable canGo src maxDepth c) : rank src dest last ≤ rank src dest c := by
  rw [ZeldaServer.rank_le]
  rcases h.chosen with heq | ⟨-, hbest⟩
  · -- `dest` itself, and no other cell is at distance 0
    rw [heq, dest.dist_self]
    by_cases heq : dest = c
    · rw [← heq, dest.dist_self]
      exact .inr ⟨rfl, .inr ⟨rfl, .inr ⟨rfl, Int.le_refl _⟩⟩⟩
    · left
      apply Nat.pos_of_ne_zero
      intro h0
      exact heq (VectorInt.eq_of_dist h0)
  · have hball : ∀ {c}, Reachable canGo src maxDepth c → (c.sub src).taxicab.toInt = src.dist c := by
      intro c hc
      have hdist : src.dist c < 2 ^ 31 := by
        rcases hc.dist_le with heq | hlt
        · rw [heq, src.dist_self]
          omega
        · omega
      rw [src.dist_comm] at hdist ⊢
      exact taxicab_toInt hdist
    obtain ⟨hlow, hcost⟩ := cost_eq hmax hdepth h.reached
    obtain ⟨hclow, hccost⟩ := cost_eq hmax hdepth hc
    have hb := (preferred_iff (by dsimp only; omega) (by dsimp only; omega)).1 (hbest c hc)
    unfold Beats Outranks at hb
    rw [hccost, hcost, hball hc, hball h.reached] at hb
    rcases hb with hlt | ⟨heq, hlt | ⟨heq', hsame | hcmp⟩⟩
    · left
      omega
    · right
      refine ⟨by omega, ?_⟩
      left
      omega
    · rw [(Prod.mk.inj hsame).1]
      exact .inr ⟨rfl, .inr ⟨rfl, .inr ⟨rfl, Int.le_refl _⟩⟩⟩
    · right
      exact ⟨by omega, .inr ⟨by omega, compare_lt hcmp⟩⟩

variable (hmap : Mapped canGo)

include hmap

theorem sole_zero : SoleZero canGo src maxDepth dest := by
  intro parent seen closed hex p _ c hc _ hzero
  have hc := (reaches_iff hmap).1 (hex.tree.reached hc)
  exact VectorInt.eq_of_cost (cost_eq hmax hdepth hc).2 hzero

end

/-- **The contract of `FindPath`.** It returns false if and only if `dest` is at distance
`maxDepth` or more. Otherwise it returns a path without repetition, through cells that can
be walked on, to the reachable cell that comes first in the order of `rank`; and it stays at
`src` only if no reachable cell is nearer to `dest`. -/
theorem findPath_contract {room : Room} (hlive : room.Live) (hsrc : src.Within (2 ^ 28)) (hdest : dest.Within (2 ^ 28))
    (hmax : maxDepth.toInt ≤ 2 ^ 20) (pick : Pick) :
    (maxDepth.toInt ≤ src.dist dest → ∀ fuel, findPath room.canGo pick src maxDepth fuel dest = .ok none) ∧
    ((src.dist dest : ℤ) < maxDepth.toInt → ∃ n path last,
      (∀ fuel, n ≤ fuel → findPath room.canGo pick src maxDepth fuel dest = .ok (some path)) ∧
      Walk room.canGo src maxDepth path last ∧ path.Nodup ∧ Reachable room.canGo src maxDepth last ∧
      (∀ c, Reachable room.canGo src maxDepth c → rank src dest last ≤ rank src dest c) ∧
      (1 < path.length ↔ ∃ c, Reachable room.canGo src maxDepth c ∧ dest.dist c < dest.dist src)) := by
  have hrange : dest.dist src < 2 ^ 31 := by
    have := hdest.dist hsrc
    omega
  have hdepth : maxDepth ≤ (dest.sub src).taxicab ↔ maxDepth.toInt ≤ dest.dist src := by
    rw [Int32.le_iff_toInt_le, taxicab_toInt hrange]
  rw [src.dist_comm dest]
  constructor
  · intro hfar fuel
    exact findPath_far (hdepth.2 hfar)
  · intro hnear
    have hsole := sole_zero hmax hnear room.mapped
    obtain ⟨n, path, hpath, found, s, seen, closed, last, hfound⟩ :=
      findPath_found hlive.canGo hsole (mt hdepth.1 (Int.not_le.2 hnear))
    have hleast : ∀ c, Reachable room.canGo src maxDepth c → _ := fun c hc =>
      (hfound.leadsTo room.mapped).rank_le hmax hnear hc
    have hwalk := hfound.walk room.mapped
    have hreach : Reachable room.canGo src maxDepth last :=
      (reaches_iff room.mapped).1 (hfound.searched.explored.tree.reached hfound.last_seen)
    refine ⟨n, path, last, hpath, hwalk, hfound.nodup, hreach, hleast, ?_⟩
    have hone := hwalk.length_le hfound.nodup
    have hsrc' := hleast src .refl
    rw [rank_le] at hsrc'
    constructor
    · intro hlen
      refine ⟨last, hreach, ?_⟩
      have hne : last ≠ src := by
        intro heq
        have := hone.2 heq
        omega
      rcases hsrc' with hlt | ⟨-, hlt | ⟨heq, -⟩⟩
      · exact hlt
      · rw [src.dist_self] at hlt
        exact absurd hlt (Nat.not_lt_zero _)
      · rw [src.dist_self] at heq
        exact absurd (VectorInt.eq_of_dist heq).symm hne
    · rintro ⟨c, hc, hlt⟩
      by_contra hlen
      have hle := hleast c hc
      rw [hone.1 (Nat.not_lt.1 hlen), rank_le] at hle
      omega

/-- A hall with a pillar at `(2, 0)`, a monster at `(0, 0)` and a player at `(4, 0)`. -/
def hall : Room where
  objects := [
    { info := { Monster.info with objectid := 1, objecttype := .monster }, room := true, kind := .monster {} },
    { info := { objectid := 2, objecttype := .player, posx := 4 }, room := true, kind := .player (some 0) }]
  monsters := (∅ : TreeMap UInt64 Ref).insert 1 0
  players := (∅ : TreeMap UInt64 Ref).insert 2 1
  useCount := fun _ => 1
  tilemap := { mapSize := ⟨5, 2⟩, tiles := [[0, 0, 1, 0, 0], [0, 0, 0, 0, 0]] }

theorem findPath_contract_example : ∃ n path last,
    (∀ fuel, n ≤ fuel → findPath hall.canGo (fun _ => 0) ⟨0, 0⟩ 10 fuel ⟨4, 0⟩ = .ok (some path)) ∧
    Walk hall.canGo ⟨0, 0⟩ 10 path last ∧ path.Nodup ∧ Reachable hall.canGo ⟨0, 0⟩ 10 last ∧
    (∀ c, Reachable hall.canGo ⟨0, 0⟩ 10 c → rank ⟨0, 0⟩ ⟨4, 0⟩ last ≤ rank ⟨0, 0⟩ ⟨4, 0⟩ c) ∧
    (1 < path.length ↔ ∃ c, Reachable hall.canGo ⟨0, 0⟩ 10 c ∧
      (⟨4, 0⟩ : VectorInt).dist c < (⟨4, 0⟩ : VectorInt).dist ⟨0, 0⟩) := by
  have hlive : hall.Live := by decide +kernel
  have hsrc : (⟨0, 0⟩ : VectorInt).Within (2 ^ 28) := ⟨by decide, by decide, by decide, by decide⟩
  have hdest : (⟨4, 0⟩ : VectorInt).Within (2 ^ 28) := ⟨by decide, by decide, by decide, by decide⟩
  exact (findPath_contract hlive hsrc hdest (by decide) fun _ => 0).2 (by decide)

end ZeldaServer
