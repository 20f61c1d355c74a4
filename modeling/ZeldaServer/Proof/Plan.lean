import ZeldaServer.Proof.Shortest

/-!
# Plans of a chase

A monster plans a path to the player anew at each step, and makes the first step of it.
The cell where the path ends need not be nearer by each step: the way there may lead around
an obstacle, away from the player. Where no such detour is needed, the search expands no
cell farther from the player than the monster before it has found all the others, so the
first step leads nearer to the player.

* `plan_nearer`: without detours the first step of a plan leads nearer to the player.
* `open_noDetour`: a map without blocked tiles has no detours.
-/

namespace ZeldaServer

open Lib

/-- The tile is there, and is not blocked. -/
def TileMap.Free (tilemap : TileMap) (c : VectorInt) : Prop := ∃ value, tilemap.getTileAt c = some value ∧ value ≠ 1

instance (tilemap : TileMap) (c : VectorInt) : Decidable (tilemap.Free c) :=
  match h : tilemap.getTileAt c with
  | none => .isFalse (by
      rintro ⟨value, hvalue, -⟩
      rw [h] at hvalue
      exact absurd hvalue.symm (Option.some_ne_none value))
  | some value => decidable_of_iff (value ≠ 1) (by simp [TileMap.Free, h])

/-- `CanGo` in a room with a monster and a player only. -/
def ground (tilemap : TileMap) (monster player c : VectorInt) : Outcome Bool :=
  .ok (decide (tilemap.Free c ∧ c ≠ monster ∧ c ≠ player))

variable {tilemap : TileMap} {src player c next last : VectorInt} {pick : Pick} {fuel : ℕ} {rest : List VectorInt}

theorem ground_iff : ground tilemap src player c = .ok true ↔ tilemap.Free c ∧ c ≠ src ∧ c ≠ player := by
  unfold ground
  rw [Except.ok.injEq, decide_eq_true_iff]

theorem ground_returns (c : VectorInt) : ∃ b, ground tilemap src player c = .ok b := ⟨_, rfl⟩

theorem ground_mapped : Mapped (ground tilemap src player) := by
  intro c hc
  obtain ⟨⟨value, hvalue, -⟩, -⟩ := ground_iff.1 hc
  have hrange := getTileAt_range hvalue
  have hx := tilemap.mapSize.x.toInt_lt
  have hy := tilemap.mapSize.y.toInt_lt
  omega

/-- What the monster reaches without moving farther from the player than it is. -/
def Level (tilemap : TileMap) (src player : VectorInt) : VectorInt → Prop :=
  Explored.Flood (Step (ground tilemap src player) src 10) (fun c => (player.dist c : ℤ)) src (player.dist src)

/-- The cell where a plan from `src` ends. -/
def Ends (tilemap : TileMap) (src player last : VectorInt) : Prop :=
  Reachable (ground tilemap src player) src 10 last ∧
    ∀ c, Reachable (ground tilemap src player) src 10 c → rank src player last ≤ rank src player c

/-- No plan leads farther away from the player. -/
def NoDetour (tilemap : TileMap) (player : VectorInt) : Prop :=
  ∀ src last, tilemap.Free src → player.dist src < 10 → Ends tilemap src player last → Level tilemap src player last

theorem Level.reachable (h : Level tilemap src player c) :
    Reachable (ground tilemap src player) src 10 c ∧ player.dist c ≤ player.dist src := by
  induction h with
  | refl => exact ⟨.refl, Nat.le_refl _⟩
  | tail _ hstep ih =>
    obtain ⟨hstep, hle⟩ := hstep
    rw [Int.ofNat_le] at hle
    exact ⟨ih.1.tail hstep, hle⟩

section

variable (hnear : (player.dist src : ℤ) < (10 : Int32).toInt)

include hnear

/-- On the way the costs are the distances. -/
theorem ground_cost (hc : Reachable (ground tilemap src player) src 10 c) : costTo player c = player.dist c :=
  (cost_eq (by decide) hnear hc).2

/-- The level is what the search floods before it expands any cell farther away. -/
theorem Level.flood (h : Level tilemap src player c) :
    Explored.Flood (Enters (ground tilemap src player) src 10) (costTo player) src (player.dist src) c := by
  induction h with
  | refl => exact .refl
  | @tail b c hb hstep ih =>
    obtain ⟨hstep, hle⟩ := hstep
    refine ih.tail ⟨hstep.enters, ?_⟩
    rw [ground_cost hnear ((Level.reachable hb).1.tail hstep)]
    exact hle

end

/-- A step changes the distance to every cell. -/
theorem dist_step_ne {a b : VectorInt} (h : a.dist b = 1) (d : VectorInt) : d.dist b ≠ d.dist a := by
  unfold VectorInt.dist at h ⊢
  omega

/-- **Without detours the first step of a plan leads nearer to the player.** -/
theorem plan_nearer (hmap : NoDetour tilemap player) (hfree : tilemap.Free src) (hrange : player.dist src < 2 ^ 31)
    {pos : VectorInt}
    (h : findPath (ground tilemap src player) pick src 10 fuel player = .ok (some (pos :: next :: rest))) :
    tilemap.Free next ∧ player.dist next < player.dist src := by
  have hnear : (player.dist src : ℤ) < (10 : Int32).toInt := by
    rw [← taxicab_toInt hrange, ← Int32.lt_iff_toInt_lt, ← Int32.not_le]
    exact findPath_near h
  have hgmap : Mapped (ground tilemap src player) := ground_mapped
  obtain ⟨found, s, seen, closed, last, hfound⟩ :=
    findPath_found_of ground_returns (sole_zero (by decide) hnear hgmap) h
  have hex := hfound.searched.explored
  have hreach : Reachable (ground tilemap src player) src 10 last :=
    (reaches_iff hgmap).1 (hex.tree.reached hfound.last_seen)
  have hten : player.dist src < 10 := by
    have h10 : (10 : Int32).toInt = 10 := rfl
    omega
  have hlevel := hmap src last hfree hten ⟨hreach, fun c hc => (hfound.leadsTo hgmap).rank_le (by decide) hnear hc⟩
  have hstart : Reachable (ground tilemap src player) src 10 src := .refl
  have hroot : costTo player src ≤ player.dist src := Int.le_of_eq (ground_cost hnear hstart)
  -- the whole path stays on the level
  have hflood : ∀ c ∈ (pos :: next :: rest).reverse, c ∈ seen ∧
      Explored.Flood (Enters (ground tilemap src player) src 10) (costTo player) src (player.dist src) c := by
    refine hfound.lineage.forall_mem ⟨hfound.last_seen, hlevel.flood hnear⟩ fun c p hparent hne hc => ?_
    refine ⟨?_, hex.flood hroot hc.1 hc.2 hparent⟩
    rcases hex.tree.parent_mem hc.1 with ⟨heq, hown⟩ | ⟨q, hq, hparent', -, -⟩
    · rw [hown] at hparent
      rw [heq] at hne
      exact absurd (Option.some.inj hparent) hne
    · rw [hparent'] at hparent
      rw [← Option.some.inj hparent]
      exact hq
  have hwalk := hfound.walk hgmap
  obtain rfl : pos = src := Option.some.inj hwalk.head
  have hfirst : pos.dist next = 1 := (List.isChain_cons_cons.1 hwalk.steps).1
  have hgo := (hwalk.walkable next List.mem_cons_self).1
  refine ⟨(ground_iff.1 hgo).1, ?_⟩
  obtain ⟨hseen, hnext⟩ := hflood next (by simp)
  have hcost : costTo player next ≤ player.dist pos := by
    rcases Relation.ReflTransGen.cases_tail hnext with heq | ⟨_, _, hle⟩
    · rw [heq]
      exact hroot
    · exact hle.2
  rw [ground_cost hnear ((reaches_iff hgmap).1 (hex.tree.reached hseen)), Int.ofNat_le] at hcost
  have hne := dist_step_ne hfirst player
  omega

/-! ## Open maps -/

/-- The cell lies in the map. -/
def TileMap.Has (tilemap : TileMap) (c : VectorInt) : Prop :=
  0 ≤ c.x.toInt ∧ c.x.toInt < tilemap.mapSize.x.toInt ∧ 0 ≤ c.y.toInt ∧ c.y.toInt < tilemap.mapSize.y.toInt

/-- No tile of the map is blocked. -/
def TileMap.Open (tilemap : TileMap) : Prop := ∀ c, tilemap.Has c → tilemap.Free c

theorem TileMap.Free.has (h : tilemap.Free c) : tilemap.Has c := by
  obtain ⟨value, hvalue, -⟩ := h
  exact getTileAt_range hvalue

/-- Between a cell of the map and one beside a cell of the map, there is no border. -/
theorem TileMap.Has.nearer {t d : VectorInt} (hsrc : tilemap.Has src) (ht : tilemap.Has t) (hone : t.dist d = 1)
    (hless : src.dist d + 1 = src.dist t) : tilemap.Has d := by
  obtain ⟨hx, hx', hy, hy'⟩ := hsrc
  obtain ⟨htx, htx', hty, hty'⟩ := ht
  unfold VectorInt.dist at hone hless
  exact ⟨by omega, by omega, by omega, by omega⟩

/-- The way to a number from `0` to `n - 1` leads through the nearest of these. -/
theorem clamp_between {n c p q : ℤ} (hq : q = max 0 (min p (n - 1))) (hc : 0 ≤ c) (hc' : c < n) :
    (p - c).natAbs = (p - q).natAbs + (q - c).natAbs := by
  omega

/-- The cell of the map that is nearest to `player`. -/
theorem exists_clamp (hsrc : tilemap.Has src) (player : VectorInt) :
    ∃ q, tilemap.Has q ∧ ∀ c, tilemap.Has c → player.dist c = player.dist q + q.dist c := by
  obtain ⟨hx, hx', hy, hy'⟩ := hsrc
  have hmx := tilemap.mapSize.x.toInt_lt
  have hmy := tilemap.mapSize.y.toInt_lt
  obtain ⟨q, hqx, hqy⟩ := exists_cell (x := max 0 (min player.x.toInt (tilemap.mapSize.x.toInt - 1)))
    (y := max 0 (min player.y.toInt (tilemap.mapSize.y.toInt - 1))) (by omega) (by omega)
  refine ⟨q, ⟨by omega, by omega, by omega, by omega⟩, ?_⟩
  rintro c ⟨hcx, hcx', hcy, hcy'⟩
  unfold VectorInt.dist
  rw [clamp_between hqx hcx hcx', clamp_between hqy hcy hcy']
  exact Nat.add_add_add_comm _ _ _ _

/-- On open ground the monster gets straight to a cell between it and the player. -/
theorem level_between (hopen : tilemap.Open) (hsrc : tilemap.Has src) (n : ℕ) : ∀ t, src.dist t = n → n < 10 →
    tilemap.Has t → player.dist t + src.dist t = player.dist src → (t ≠ src → t ≠ player) →
    Level tilemap src player t := by
  induction n with
  | zero =>
    intro t hdist _ _ _ _
    rw [← VectorInt.eq_of_dist hdist]
    exact .refl
  | succ n ih =>
    intro t hdist hten hhas hbetween hplayer
    have hne : t ≠ src := by
      intro heq
      rw [heq, src.dist_self] at hdist
      omega
    -- the cell before `t`
    obtain ⟨d, hone, hless⟩ := exists_nearer hne
    have h1 := player.dist_triangle d src
    have h2 := player.dist_triangle t d
    rw [d.dist_comm src] at h1
    have hd : tilemap.Has d := hsrc.nearer hhas hone hless
    have hdplayer : d ≠ player := by
      have hpos : 0 < player.dist d := by omega
      intro heq
      rw [heq, player.dist_self] at hpos
      exact absurd hpos (Nat.lt_irrefl 0)
    have hlevel := ih d (by omega) (by omega) hd (by omega) fun _ => hdplayer
    refine hlevel.tail ⟨⟨?_, ground_iff.2 ⟨hopen t hhas, hne, hplayer hne⟩, ?_⟩, ?_⟩
    · rw [d.dist_comm t]
      exact hone
    · have h10 : (10 : Int32).toInt = 10 := rfl
      omega
    · rw [Int.ofNat_le]
      omega

/-- On open ground a plan ends between the monster and the player. -/
theorem Ends.between (hopen : tilemap.Open) (hsrc : tilemap.Has src) (hten : player.dist src < 10)
    (h : Ends tilemap src player last) :
    tilemap.Has last ∧ player.dist last + src.dist last = player.dist src ∧ (last ≠ src → last ≠ player) := by
  obtain ⟨hreach, hleast⟩ := h
  by_cases heq : last = src
  · rw [heq, src.dist_self]
    exact ⟨hsrc, rfl, fun hne => absurd rfl hne⟩
  have hgo : tilemap.Free last ∧ last ≠ src ∧ last ≠ player := by
    rcases hreach.walkable with hsame | hw
    · exact absurd hsame heq
    · exact ground_iff.1 hw.1
  refine ⟨hgo.1.has, ?_, fun _ => hgo.2.2⟩
  -- a cell between the two is reached, so that the end is no worse
  have hworse : ∀ t, tilemap.Has t → player.dist t + src.dist t = player.dist src → (t ≠ src → t ≠ player) →
      player.dist last < player.dist t ∨ player.dist last = player.dist t ∧ src.dist last ≤ src.dist t := by
    intro t hhas hbetween hplayer
    have hlevel := level_between hopen hsrc _ t rfl (by omega) hhas hbetween hplayer
    rcases rank_le.1 (hleast t hlevel.reachable.1) with hlt | ⟨heq, hlt | ⟨heq', -⟩⟩
    · exact .inl hlt
    · exact .inr ⟨heq, Nat.le_of_lt hlt⟩
    · exact .inr ⟨heq, Nat.le_of_eq heq'⟩
  have htri := player.dist_triangle last src
  rw [last.dist_comm src] at htri
  by_cases hin : tilemap.Has player
  · by_cases hat : player = src
    · -- the monster stands where the player is
      rcases hworse src hsrc (by rw [src.dist_self]; rfl) (fun hne => absurd rfl hne) with hlt | ⟨heq', -⟩
      · rw [hat, src.dist_self] at hlt
        exact absurd hlt (Nat.not_lt_zero _)
      · rw [hat, src.dist_self] at heq'
        exact absurd (VectorInt.eq_of_dist heq').symm heq
    · obtain ⟨t, hone, hless⟩ := exists_nearer hat
      have hhas : tilemap.Has t := hsrc.nearer hin hone hless
      rw [src.dist_comm player] at hless
      have htplayer : t ≠ player := by
        intro heq
        rw [heq, player.dist_self] at hone
        exact absurd hone (by decide)
      have hpos : player.dist last ≠ 0 := fun h0 => hgo.2.2 (VectorInt.eq_of_dist h0).symm
      rcases hworse t hhas (by omega) (fun _ => htplayer) with hlt | ⟨heq', hle⟩
      · omega
      · omega
  · obtain ⟨q, hq, hclamp⟩ := exists_clamp hsrc player
    have hqsrc := hclamp src hsrc
    have hqlast := hclamp last hgo.1.has
    rw [q.dist_comm src] at hqsrc
    have hqplayer : q ≠ player := by
      intro heq
      rw [heq] at hq
      exact hin hq
    have hsame : q = last := by
      apply VectorInt.eq_of_dist
      rcases hworse q hq hqsrc.symm (fun _ => hqplayer) with hlt | ⟨heq', -⟩
      · omega
      · omega
    rw [← hsame]
    exact hqsrc.symm

/-- **An open map has no detours.** -/
theorem open_noDetour (hopen : tilemap.Open) (player : VectorInt) : NoDetour tilemap player := by
  intro src last hfree hten hends
  obtain ⟨hhas, hbetween, hplayer⟩ := hends.between hopen hfree.has hten
  exact level_between hopen hfree.has _ last rfl (by omega) hhas hbetween hplayer

end ZeldaServer
