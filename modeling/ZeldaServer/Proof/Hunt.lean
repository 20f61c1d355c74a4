import ZeldaServer.Lib.Countdown
import ZeldaServer.Proof.Combat
import ZeldaServer.Proof.Pacing
import ZeldaServer.Proof.Quarry
import ZeldaServer.Proof.Strides

/-!
# The end of a hunt

A monster on open ground that is alone with a player who stands still comes up to it, a step
in every other update, and attacks it in every other update from then on.

* `updateIdle_stirs`: an idle monster that sees its target, and need not wait, does something.
* `hunt_ends`: the updates until the player is dead.
-/

namespace ZeldaServer

open Lib Std

variable {st st' : Game Outboxes} {pins : List Ref} {m p t : Ref} {o q : GameObject} {fields : Monster} {pick : Pick} {fuel : ℕ}
  {player next : VectorInt} {tilemap : TileMap}

/-! ## Plans on open ground -/

/-- A player who is near enough is planned for. -/
theorem findPath_some {canGo : VectorInt → Outcome Bool} {src dest : VectorInt} {maxDepth : Int32} {ret : Option (List VectorInt)}
    (hnear : ¬ maxDepth ≤ (dest.sub src).taxicab) (h : findPath canGo pick src maxDepth fuel dest = .ok ret) :
    ∃ path, ret = some path := by
  unfold findPath at h
  dsimp only at h
  rw [if_neg hnear] at h
  obtain ⟨r, -, h⟩ := bind_eq_ok.1 h
  obtain ⟨out, -, h⟩ := bind_eq_ok.1 h
  exact ⟨out.reverse, (Except.ok.inj h).symm⟩

/-- On open ground a plan to a player that is not beside the monster has a first step. -/
theorem plan_steps {src : VectorInt} {path : List VectorInt} (hopen : tilemap.Open) (hsrc : tilemap.Free src)
    (hfar : 1 < player.dist src) (hten : player.dist src < 10)
    (h : findPath (ground tilemap src player) pick src 10 fuel player = .ok (some path)) (hhas : tilemap.Has player) :
    ∃ next rest, path = src :: next :: rest := by
  have h10 : (10 : Int32).toInt = 10 := rfl
  have hnear : (player.dist src : ℤ) < (10 : Int32).toInt := by omega
  obtain ⟨found, s, seen, closed, last, hfound⟩ :=
    findPath_found_of ground_returns (sole_zero (by decide) hnear ground_mapped) h
  -- the cell before `src` on the way from the player is no worse an end
  have hne : src ≠ player := by
    rintro rfl
    rw [VectorInt.dist_self] at hfar
    omega
  obtain ⟨d, hone, hless⟩ := exists_nearer hne
  have hd : tilemap.Has d := by
    have hs := hsrc.has
    unfold TileMap.Has at hs hhas ⊢
    unfold VectorInt.dist at hone hless
    omega
  have hdplayer : d ≠ player := by
    rintro rfl
    rw [VectorInt.dist_self] at hless
    omega
  have hlevel := level_between hopen hsrc.has 1 d hone (by decide) hd (by omega) fun _ => hdplayer
  have hlast : last ≠ src := by
    rintro rfl
    rcases rank_le.1 ((hfound.leadsTo ground_mapped).rank_le (by decide) hnear hlevel.reachable.1) with hlt | ⟨heq, -⟩
    · omega
    · omega
  have hwalk := hfound.walk ground_mapped
  cases path with
  | nil => cases hwalk.head
  | cons pos path =>
    obtain rfl : pos = src := Option.some.inj hwalk.head
    cases path with
    | nil => exact absurd (Option.some.inj hwalk.last).symm hlast
    | cons next rest => exact ⟨next, rest, rfl⟩

/-- ... which can be made. -/
theorem ground_steps {src : VectorInt} {ret : Option (List VectorInt)} (hopen : tilemap.Open) (hsrc : tilemap.Free src)
    (hhas : tilemap.Has player) (hfar : (player.sub src).taxicab ≠ 1) (haway : 0 < player.dist src) (hten : player.dist src < 10)
    (h : findPath (ground tilemap src player) pick src 10 fuel player = .ok ret) :
    ∃ pos next rest, ret = some (pos :: next :: rest) ∧ ground tilemap src player next = .ok true := by
  have hone : player.dist src ≠ 1 := by
    intro hone
    apply hfar
    apply Int32.toInt_inj.1
    rw [taxicab_toInt (by omega), hone]
    rfl
  have hclose : ¬ (10 : Int32) ≤ (player.sub src).taxicab := by
    have h10 : (10 : Int32).toInt = 10 := rfl
    rw [Int32.le_iff_toInt_le, taxicab_toInt (by omega)]
    omega
  obtain ⟨path, rfl⟩ := findPath_some hclose h
  obtain ⟨next, rest, rfl⟩ := plan_steps hopen hsrc (by omega) hten h hhas
  obtain ⟨last, hwalk⟩ := findPath_walk ground_mapped h
  exact ⟨_, next, rest, rfl, (hwalk.walkable next List.mem_cons_self).1⟩

/-! ## A monster that need not wait -/

/-- The player stands where it is hunted. -/
theorem Chase.stands (h : Chase m p player st) (hq : st.game.objects[p]? = some q) : q.getCellPos = player := by
  have hcell : st.game.cell p = some q.getCellPos := congrArg (Option.map GameObject.getCellPos) hq
  exact Option.some.inj (hcell.symm.trans h.player)

/-- What keeps the state of every object. -/
theorem modify_state {sc : Scene} {r : Ref} {f : GameObject → GameObject} (hf : ∀ o, (f o).info.state = o.info.state) :
    (sc.modify r f).state m = sc.state m := by
  unfold Scene.state
  by_cases hm : m = r
  · rw [hm]
    cases ho : sc.objects[r]? with
    | none => simp [Scene.modify, ho]
    | some o =>
      rw [modify_self ho]
      exact congrArg some (hf o)
  · rw [modify_ne hm]

/-- A target beside the monster is attacked when the pause is over, and a plan with a step is followed. -/
theorem pursue_stirs {t : Ref} {q : GameObject} (h : Good Anyone st pins) (hm : Monstrous st m o fields) (hidle : o.info.state = .idle)
    (hq : st.game.objects[t]? = some q) (hready : fields.waitAttackUntil ≤ clockNow st.game.ticks)
    (hplan : (q.getCellPos.sub o.getCellPos).taxicab ≠ 1 → ∀ ret,
      findPath st.game.canGo pick o.getCellPos 10 fuel q.getCellPos = .ok ret →
        ∃ pos next rest, ret = some (pos :: next :: rest) ∧ st.game.canGo next = .ok true) :
    IfReturns (Game.pursue post pick fuel m t st) fun st' => st'.game.toScene.state m ≠ some .idle := by
  obtain ⟨hin, ho, hk⟩ := id hm
  -- the state after `SetState`
  have hstate : ∀ {st₁ st₂ : Game Outboxes} {o₁ : GameObject} {state : ObjectState}, st₁.game.objects[m]? = some o₁ →
      st₂.game = st₁.game.modifyInfo m (fun info => { info with state := state }) → state ≠ .idle →
        st₂.game.toScene.state m ≠ some .idle := by
    intro st₁ st₂ o₁ state ho₁ hgame hne heq
    unfold Scene.state at heq
    rw [hgame] at heq
    rw [show (st₁.game.modifyInfo m _).objects[m]? = some _ from modify_self ho₁] at heq
    exact hne (Option.some.inj heq)
  unfold Game.pursue
  refine (deref_eq ho).bind fun o' ho' => ?_
  refine (deref_eq hq).bind fun q' hq' => ?_
  rw [ho', hq']
  split
  · rw [getTickCount64_eq]
    dsimp only
    refine (monster_eq (show (tick st).game.objects[m]? = some o from ho) hk).bind fun fields' hfields => ?_
    rw [hfields, if_neg (UInt64.not_lt.2 hready)]
    have ho₁ : (Game.setDir m (o.getLookAtDir q.getCellPos) (tick st)).game.objects[m]? =
        some { o with info := { o.info with dir := o.getLookAtDir q.getCellPos } } := modify_self ho
    have hne : ({ o.info with dir := o.getLookAtDir q.getCellPos } : ObjectInfo).state ≠ .skill := by
      rw [show ({ o.info with dir := o.getLookAtDir q.getCellPos } : ObjectInfo).state = .idle from hidle]
      decide
    refine (setState_told h.tick.setDir hin ho₁ hne).bind fun st₂ h₂ => ?_
    obtain ⟨-, hgame₂, -⟩ := h₂
    rw [getTickCount64_eq]
    refine .ok fun heq => hstate ho₁ hgame₂ (by decide) ?_
    rw [← heq]
    exact (modify_state fun o => congrArg ObjectInfo.state (onFields_info (o := o))).symm
  · rename_i hfar
    refine (ifReturns_self (x := Game.findPath pick fuel o.getCellPos q.getCellPos st)).bind fun ret hret => ?_
    obtain ⟨pos, next, rest, rfl, hgo⟩ := hplan hfar ret hret
    dsimp only
    rw [hgo, ok_bind, if_pos rfl, getTickCount64_eq]
    dsimp only
    obtain ⟨hmoved, hscene⟩ := stepped_good h ho hk next
    have ho₁ : (st.game.toScene.set m (o.become { o.info with dir := o.getLookAtDir next, posx := next.x, posy := next.y }
        { fields with waitMoveUntil := clockNow st.game.ticks + 1000 })).objects[m]? = some _ := set_self ho
    rw [← hscene] at ho₁
    have hne : o.info.state ≠ .move := by rw [hidle]; decide
    refine (setState_told hmoved hin ho₁ hne).imp fun st₂ h₂ => ?_
    exact hstate ho₁ h₂.2.1 (by decide)

/-- The choice of a target leaves the ground as it is. -/
theorem Chase.chosen {closest : Option Ref} (h : Chase m p q.getCellPos st) (hm : Monstrous st m o fields) (hne : p ≠ m)
    (hplayer : st.game.players[key p]? = some p) (hq : st.game.objects[p]? = some q)
    (hgood : Good Anyone (Game.modifyMonster m (fun fields => { fields with target := closest }) (st.update (·.retain p))) pins) :
    ∃ st₁ : Game Outboxes, st₁ = Game.modifyMonster m (fun fields => { fields with target := closest }) (st.update (·.retain p)) ∧
      Monstrous st₁ m (o.become o.info { fields with target := closest }) { fields with target := closest } ∧
      st₁.game.objects[p]? = some q ∧ st₁.game.ticks = st.game.ticks ∧
      st₁.game.canGo = ground st.game.tilemap o.getCellPos q.getCellPos := by
  obtain ⟨st₁, hst₁⟩ : ∃ st₁ : Game Outboxes,
      st₁ = Game.modifyMonster m (fun fields => { fields with target := closest }) (st.update (·.retain p)) := ⟨_, rfl⟩
  rw [← hst₁] at hgood ⊢
  have hscene : st₁.game.toScene = st.game.toScene.set m (o.become o.info { fields with target := closest }) := by
    rw [hst₁]
    show st.game.toScene.modify m (GameObject.onFields _) = _
    rw [modify_eq_set hm.object, onFields_become hm.kind]
  have ho₁ : st₁.game.objects[m]? = some (o.become o.info { fields with target := closest }) := by
    rw [hscene]
    exact set_self hm.object
  have hq₁ : st₁.game.objects[p]? = some q := by
    rw [hscene]
    exact (set_ne hne).trans hq
  have hmonsters : st₁.game.monsters = st.game.monsters := (congrArg Scene.monsters hscene).trans rfl
  have hplayers : st₁.game.players = st.game.players := (congrArg Scene.players hscene).trans rfl
  have htilemap : st₁.game.tilemap = st.game.tilemap := by
    rw [hst₁]
    rfl
  have hin₁ : st₁.game.Inside m := by
    unfold Scene.Inside
    rw [hmonsters, hplayers]
    exact hm.inside
  have hinp₁ : st₁.game.Inside p := by
    left
    rw [hplayers]
    exact hplayer
  refine ⟨st₁, rfl, ⟨hin₁, ho₁, rfl⟩, hq₁, by rw [hst₁]; rfl, ?_⟩
  rw [← htilemap]
  refine canGo_ground hgood ?_ ?_ hin₁ hinp₁ (congrArg (Option.map GameObject.getCellPos) ho₁)
    (congrArg (Option.map GameObject.getCellPos) hq₁)
  · rw [hmonsters]
    exact h.monsters
  · rw [hplayers]
    exact h.players

/-- **An idle monster that sees its target stirs**, when the pause is over: it attacks, or makes a step. -/
theorem updateIdle_stirs (h : Chase m p player st) (hm : Monstrous st m o fields) (hidle : o.info.state = .idle)
    (hlock : st.game.lock fields.target = some p) (hready : fields.waitAttackUntil ≤ clockNow st.game.ticks)
    (hopen : st.game.tilemap.Open) (hfree : st.game.tilemap.Free o.getCellPos) (hhas : st.game.tilemap.Has player)
    (hnear : 0 < player.dist o.getCellPos) (hten : player.dist o.getCellPos < 10) :
    IfReturns (Game.updateIdle post pick fuel m st) fun st' => st'.game.toScene.state m ≠ some .idle := by
  obtain ⟨hin, ho, hk⟩ := id hm
  have hroom : o.room = true := h.good.core.room_of hin ho
  obtain ⟨hne, hplayer, q, hq, -⟩ := hm.prey h.good hlock
  obtain rfl : q.getCellPos = player := h.stands hq
  unfold Game.updateIdle
  refine (deref_eq ho).bind fun o' ho' => ?_
  rw [ho', if_neg (by rw [hroom]; decide)]
  refine (monster_eq ho hk).bind fun fields' hfields => ?_
  rw [hfields]
  dsimp only
  rw [hlock]
  refine ifReturns_self.bind fun closest hclosest => ?_
  obtain ⟨hgood, -⟩ := (h.good.retain (r := p)).choose (B := Told) (U := Whisper) (r := m) (findClosestPlayer_spec.result hclosest)
  obtain ⟨st₁, hst₁, hm₁, hq₁, hticks, hground⟩ := h.chosen hm hne hplayer hq hgood
  dsimp only
  rw [← hst₁] at hgood ⊢
  refine (pursue_stirs hgood hm₁ hidle hq₁ (by rw [hticks]; exact hready) fun hfar ret hret => ?_).bind fun st₂ h₂ => .ok h₂
  change findPath st₁.game.canGo pick o.getCellPos 10 fuel q.getCellPos = _ at hret
  rw [hground] at hret ⊢
  exact ground_steps hopen hfree hhas hfar hnear hten hret

/-! ## What is left to do -/

/-- How many attacks it takes to bring a hp to zero. -/
def blows (hp attack : Int32) : ℕ := (hp.toInt.toNat + attack.toInt.toNat - 1) / attack.toInt.toNat

/-- How many updates the monster `o` needs to kill the player `p`, the object `q`. -/
def updatesLeft (p : Ref) (o : GameObject) (fields : Monster) (q : GameObject) : ℕ :=
  let steps := q.getCellPos.dist o.getCellPos - 1
  let seek := if fields.target = some p then 0 else 1
  match o.info.state with
  | .idle => 2 * steps + 2 * blows q.info.hp o.info.attack + seek
  | .move => 2 * steps + 2 * blows q.info.hp o.info.attack + seek + 1
  | .skill => 2 * blows q.info.hp o.info.attack - 1
  | .other _ => 0

section Blows

variable {hp attack : Int32}

theorem blows_pos (hhp : 0 < hp) (hattack : 0 < attack) : 0 < blows hp attack := by
  rw [Int32.lt_iff_toInt_lt, Int32.toInt_zero] at hhp hattack
  unfold blows
  exact Nat.div_pos (by omega) (by omega)

theorem toInt_hurt (hhp : 0 < hp) (hattack : 0 < attack) : (hp - attack).toInt = hp.toInt - attack.toInt := by
  rw [Int32.lt_iff_toInt_lt, Int32.toInt_zero] at hhp hattack
  have hlt := hp.toInt_lt
  have hlt' := attack.toInt_lt
  exact toInt_sub (by omega) (by omega)

/-- An attack that is survived. -/
theorem blows_hurt (hhp : 0 < hp) (hattack : 0 < attack) (halive : 0 < hp - attack) :
    blows hp attack = blows (hp - attack) attack + 1 := by
  have hsub := toInt_hurt hhp hattack
  rw [Int32.lt_iff_toInt_lt, Int32.toInt_zero] at hhp hattack halive
  unfold blows
  rw [← Nat.add_div_right _ (by omega)]
  congr 1
  omega

/-- An attack that kills. -/
theorem blows_last (hhp : 0 < hp) (hattack : 0 < attack) (hdead : hp - attack ≤ 0) : blows hp attack = 1 := by
  have hsub := toInt_hurt hhp hattack
  rw [Int32.lt_iff_toInt_lt, Int32.toInt_zero] at hhp hattack
  rw [Int32.le_iff_toInt_le, Int32.toInt_zero] at hdead
  unfold blows
  exact Nat.div_eq_of_lt_le (by omega) (by omega)

end Blows

/-- The updates are a second apart. -/
def Apart (es : List (List UInt64 × Pick)) : Prop :=
  es.Pairwise fun e e' => ∀ now ∈ readings e.1, ∀ later ∈ readings e'.1, now.toNat + 1000 ≤ later.toNat

/-- The monster is awake, and need not wait in the updates `es`; the player is alive and within its reach. -/
structure Combatants (tilemap : TileMap) (p : Ref) (es : List (List UInt64 × Pick)) (o : GameObject) (fields : Monster)
    (q : GameObject) : Prop where
  attack : 0 < o.info.attack
  hp : 0 < q.info.hp
  free : tilemap.Free o.getCellPos
  away : 0 < q.getCellPos.dist o.getCellPos
  near : q.getCellPos.dist o.getCellPos < 10
  awake : o.info.state = .idle ∨ o.info.state = .move ∨
    o.info.state = .skill ∧ fields.target = some p ∧ q.getCellPos.dist o.getCellPos = 1
  ready : ∀ e ∈ es, ∀ now ∈ readings e.1, fields.waitMoveUntil ≤ now ∧ fields.waitAttackUntil ≤ now

/-- A pause of a second is over in the next update. -/
theorem Apart.over {e : List UInt64 × Pick} {es : List (List UInt64 × Pick)} (h : Apart (e :: es)) {now : UInt64}
    (hnow : now ∈ readings e.1) : ∀ e' ∈ es, ∀ later ∈ readings e'.1, now + 1000 ≤ later := by
  intro e' he' later hlater
  have hle := (List.pairwise_cons.1 h).1 e' he' now hnow later hlater
  rw [UInt64.le_iff_toNat_le, UInt64.toNat_add, Nat.mod_eq_of_lt]
  · exact hle
  · exact Nat.lt_of_le_of_lt hle later.toNat_lt

namespace Combatants

variable {e : List UInt64 × Pick} {es : List (List UInt64 × Pick)}

theorem later (h : Combatants tilemap p (e :: es) o fields q) :
    ∀ e' ∈ es, ∀ now ∈ readings e'.1, fields.waitMoveUntil ≤ now ∧ fields.waitAttackUntil ≤ now :=
  fun e' he' => h.ready e' (List.mem_cons_of_mem _ he')

theorem seek (h : Combatants tilemap p (e :: es) o fields q) (hidle : o.info.state = .idle) (hno : fields.target ≠ some p) :
    Combatants tilemap p es (o.become o.info { fields with target := some p }) { fields with target := some p } q ∧
      updatesLeft p o fields q = updatesLeft p (o.become o.info { fields with target := some p }) { fields with target := some p } q + 1 := by
  refine ⟨⟨h.attack, h.hp, h.free, h.away, h.near, .inl hidle, h.later⟩, ?_⟩
  unfold updatesLeft
  rw [show (o.become o.info { fields with target := some p }).info.state = .idle from hidle, hidle, if_neg hno, if_pos rfl]
  rfl

theorem face (h : Combatants tilemap p (e :: es) o fields q) (hclock : Apart (e :: es)) (hidle : o.info.state = .idle)
    (htarget : fields.target = some p) (hone : q.getCellPos.dist o.getCellPos = 1) {now : UInt64} (hnow : now ∈ readings e.1) :
    Combatants tilemap p es (o.become (o.facing q.getCellPos) { fields with target := some p, waitAttackUntil := now + 1000 })
        { fields with target := some p, waitAttackUntil := now + 1000 } q ∧
      updatesLeft p o fields q = updatesLeft p (o.become (o.facing q.getCellPos) { fields with target := some p, waitAttackUntil := now + 1000 })
        { fields with target := some p, waitAttackUntil := now + 1000 } q + 1 := by
  refine ⟨⟨h.attack, h.hp, h.free, h.away, h.near, .inr (.inr ⟨rfl, rfl, hone⟩), ?_⟩, ?_⟩
  · exact fun e' he' later hlater => ⟨(h.later e' he' later hlater).1, hclock.over hnow e' he' later hlater⟩
  · have hpos := blows_pos h.hp h.attack
    unfold updatesLeft
    rw [hidle, if_pos htarget]
    show 2 * (q.getCellPos.dist o.getCellPos - 1) + _ + 0 = 2 * blows q.info.hp o.info.attack - 1 + 1
    omega

theorem step (h : Combatants tilemap p (e :: es) o fields q) (hclock : Apart (e :: es)) (hidle : o.info.state = .idle)
    (htarget : fields.target = some p) (hfree : tilemap.Free next) (hless : q.getCellPos.dist next + 1 = q.getCellPos.dist o.getCellPos)
    (haway : 0 < q.getCellPos.dist next) {now : UInt64} (hnow : now ∈ readings e.1) :
    Combatants tilemap p es (o.become (o.stepping next) { fields with target := some p, waitMoveUntil := now + 1000 })
        { fields with target := some p, waitMoveUntil := now + 1000 } q ∧
      updatesLeft p o fields q = updatesLeft p (o.become (o.stepping next) { fields with target := some p, waitMoveUntil := now + 1000 })
        { fields with target := some p, waitMoveUntil := now + 1000 } q + 1 := by
  have hnear := h.near
  refine ⟨⟨h.attack, h.hp, hfree, haway, show q.getCellPos.dist next < 10 by omega, .inr (.inl rfl), ?_⟩, ?_⟩
  · exact fun e' he' later hlater => ⟨hclock.over hnow e' he' later hlater, (h.later e' he' later hlater).2⟩
  · unfold updatesLeft
    rw [hidle, if_pos htarget]
    show 2 * (q.getCellPos.dist o.getCellPos - 1) + _ + 0 = 2 * (q.getCellPos.dist next - 1) +
      2 * blows q.info.hp o.info.attack + (if some p = some p then 0 else 1) + 1 + 1
    rw [if_pos rfl]
    omega

theorem halt (h : Combatants tilemap p (e :: es) o fields q) (hmove : o.info.state = .move) :
    Combatants tilemap p es (o.become { o.info with state := .idle } fields) fields q ∧
      updatesLeft p o fields q = updatesLeft p (o.become { o.info with state := .idle } fields) fields q + 1 := by
  refine ⟨⟨h.attack, h.hp, h.free, h.away, h.near, .inl rfl, h.later⟩, ?_⟩
  unfold updatesLeft
  rw [hmove]
  rfl

theorem hit (h : Combatants tilemap p (e :: es) o fields q) (hskill : o.info.state = .skill) (halive : 0 < q.info.hp - o.info.attack) :
    Combatants tilemap p es (o.become { o.info with state := .idle } fields) fields { q with info := q.info.hurt o.info.attack } ∧
      updatesLeft p o fields q =
        updatesLeft p (o.become { o.info with state := .idle } fields) fields { q with info := q.info.hurt o.info.attack } + 1 := by
  obtain ⟨htarget, hone⟩ : fields.target = some p ∧ q.getCellPos.dist o.getCellPos = 1 := by
    rcases h.awake with hs | hs | ⟨-, htarget, hone⟩
    · exact absurd (hs.symm.trans hskill) (by decide)
    · exact absurd (hs.symm.trans hskill) (by decide)
    · exact ⟨htarget, hone⟩
  refine ⟨⟨h.attack, halive, h.free, h.away, h.near, .inl rfl, h.later⟩, ?_⟩
  have hpos := blows_pos halive h.attack
  have hblows := blows_hurt h.hp h.attack halive
  unfold updatesLeft
  rw [hskill]
  show 2 * blows q.info.hp o.info.attack - 1 = 2 * (q.getCellPos.dist o.getCellPos - 1) +
    2 * blows (q.info.hp - o.info.attack) o.info.attack + (if fields.target = some p then 0 else 1) + 1
  rw [if_pos htarget]
  omega

theorem kill (h : Combatants tilemap p (e :: es) o fields q) (hskill : o.info.state = .skill) (hdead : q.info.hp - o.info.attack ≤ 0) :
    updatesLeft p o fields q = 1 := by
  unfold updatesLeft
  rw [hskill, blows_last h.hp h.attack hdead]

theorem left_pos (h : Combatants tilemap p es o fields q) : 0 < updatesLeft p o fields q := by
  have hpos := blows_pos h.hp h.attack
  unfold updatesLeft
  rcases h.awake with hs | hs | ⟨hs, -⟩
  · rw [hs]
    dsimp only
    omega
  · rw [hs]
    exact Nat.succ_pos _
  · rw [hs]
    dsimp only
    omega

end Combatants

/-! ## A turn -/

/-- The monster `m` hunts the player `p`; the updates `es` are to come, and `n` of them are needed. -/
structure Hunting (tilemap : TileMap) (m p : Ref) (player : VectorInt) (es : List (List UInt64 × Pick)) (st : Game Outboxes) (n : ℕ) :
    Prop where
  chase : Chase m p player st
  map : st.game.tilemap = tilemap
  monsters : elements st.game.monsters = [m]
  prey : st.game.players[key p]? = some p
  clock : Apart es
  combatants : ∃ o fields q, Monstrous st m o fields ∧ st.game.objects[p]? = some q ∧ Combatants tilemap p es o fields q ∧
    updatesLeft p o fields q = n

/-- The player is not in the room any more. -/
structure Over (m p : Ref) (player : VectorInt) (st : Game Outboxes) : Prop where
  chase : Chase m p player st
  players : elements st.game.players = []

/-- The only player is the closest one. -/
theorem Chase.closest (h : Chase m p player st) (hprey : st.game.players[key p]? = some p) {cellPos : VectorInt} {closest : Option Ref}
    (hclosest : st.game.findClosestPlayer cellPos = .ok closest) : closest = some p := by
  obtain ⟨k, t, hfirst, hfound⟩ := findClosestPlayer_first (fun r hr => h.good.alive hr) hprey cellPos
  rw [hfound] at hclosest
  rw [← Except.ok.inj hclosest, h.players k t hfirst.mem]

theorem Chase.ne (h : Chase m p player st) (hprey : st.game.players[key p]? = some p) (hm : Monstrous st m o fields) : p ≠ m := by
  obtain ⟨-, q, s, hq, hplays, -⟩ := h.good.core.players _ p hprey
  exact hm.ne h.good hq hplays.type

/-- A monster that has chosen the player finds it. -/
theorem Chase.sees (h : Chase m p player st) (hprey : st.game.players[key p]? = some p) (htarget : fields.target = some p) :
    st.game.lock fields.target = some p := by
  obtain ⟨-, q, s, hq, hplays, -⟩ := h.good.core.players _ p hprey
  rw [htarget]
  exact (lock_iff h.good hq hplays.type).2 hprey

/-- Without its only player the room has none. -/
theorem Chase.nobody (h : Chase m p player st) (hplayers : st'.game.players = st.game.players.erase (key p)) :
    elements st'.game.players = [] := by
  rw [List.eq_nil_iff_forall_not_mem]
  intro r hr
  obtain ⟨k, hk⟩ := mem_elements.1 hr
  rw [hplayers, TreeMap.getElem?_erase] at hk
  split at hk
  · cases hk
  · rename_i hne
    obtain rfl := h.players k r hk
    exact hne (compare_eq_iff_eq.2 (h.good.core.players k r hk).1.symm)

/-- A monster that has made a step is one step nearer. -/
theorem Moves.nearer {c : VectorInt} (hmoves : Moves pick m player st.game st'.game) (hopen : st.game.tilemap.Open)
    (hfree : st.game.tilemap.Free c) (hten : player.dist c < 10) (hcell : st.game.cell m = some c) (hcell' : st'.game.cell m = some next)
    (hone : c.dist next = 1) : player.dist next + 1 = player.dist c := by
  have hless : player.dist next < player.dist c := by
    rcases hmoves with hstill | ⟨fuel, c', pos, next', rest, hc', hplan, hstrides⟩
    · have hsame := hstill.cells m
      rw [hcell', hcell] at hsame
      rw [Option.some.inj hsame, VectorInt.dist_self] at hone
      exact absurd hone (by decide)
    · obtain rfl : c = c' := Option.some.inj (hcell.symm.trans hc')
      obtain rfl : next = next' := Option.some.inj (hcell'.symm.trans hstrides.cell)
      exact (plan_nearer (open_noDetour hopen _) hfree (by omega) hplan).2
  have htri := player.dist_triangle next c
  rw [next.dist_comm] at htri
  omega

/-- **A turn of the hunter** is one update less, or the last one. -/
theorem hunt_turn {e : List UInt64 × Pick} {es : List (List UInt64 × Pick)} {n : ℕ} (h : Hunting tilemap m p player (e :: es) st (n + 1))
    (hopen : tilemap.Open) (hhas : tilemap.Has player) (hticks : st.game.ticks = e.1)
    (hstep : Game.updateMonster post e.2 fuel m st = .ok st') :
    n = 0 ∧ Over m p player st' ∨ 0 < n ∧ Hunting tilemap m p player es st' n := by
  obtain ⟨hchase, rfl, hmonsters, hprey, hclock, o, fields, q, hm, hq, hc, hleft⟩ := h
  have hgood := hchase.good
  have hturn := (updateMonster_turn hgood hm).result hstep
  have hpm := hchase.ne hprey hm
  obtain ⟨hgood', hmonsters', hmap'⟩ := hturn.kept hgood
  have hmoves := (updateMonster_moves hchase hm.inside).result hstep
  have hchase' := (hchase.after hpm.symm hgood' hmonsters' hmoves).1
  have hin' : st'.game.Inside m := .inr (by rw [hmonsters']; exact hm.member hgood)
  have hnow : clockNow st.game.ticks ∈ readings e.1 := hticks ▸ clockNow_mem _
  obtain rfl : q.getCellPos = player := hchase.stands hq
  -- the player is alive after the turn
  have hon : ∀ {o' q' : GameObject} {fields' : Monster}, st'.game.objects[m]? = some o' → o'.kind = .monster fields' →
      st'.game.objects[p]? = some q' → st'.game.players = st.game.players →
      Combatants st.game.tilemap p es o' fields' q' ∧ updatesLeft p o fields q = updatesLeft p o' fields' q' + 1 →
      n = 0 ∧ Over m p q.getCellPos st' ∨ 0 < n ∧ Hunting st.game.tilemap m p q.getCellPos es st' n := by
    rintro o' q' fields' ho' hk' hq' hplayers ⟨hc', hone⟩
    have hn : updatesLeft p o' fields' q' = n := by omega
    refine .inr ⟨hn ▸ hc'.left_pos, hchase', hmap', ?_, ?_, hclock.of_cons, o', fields', q', ⟨hin', ho', hk'⟩, hq', hc', hn⟩
    · rw [hmonsters', hmonsters]
    · rw [hplayers]
      exact hprey
  have hset : ∀ {o' : GameObject} {ticks : List UInt64}, Yields [] st (st.game.toScene.set m o') ticks st' →
      st'.game.objects[m]? = some o' ∧ st'.game.objects[p]? = some q ∧ st'.game.players = st.game.players := by
    intro o' ticks hy
    refine ⟨hy.self hm.object, ?_, hy.players⟩
    rw [hy.scene, set_ne hpm]
    exact hq
  cases hturn with
  | seeks hidle hlock hclosest hy =>
    obtain rfl := hchase.closest hprey hclosest
    obtain ⟨ho', hq', hplayers⟩ := hset hy
    have hno : fields.target ≠ some p := by
      intro htarget
      rw [hchase.sees hprey htarget] at hlock
      exact absurd hlock (Option.some_ne_none p)
    exact hon ho' rfl hq' hplayers (hc.seek hidle hno)
  | @pursues t p' closest hidle hlock hp hclosest hpursues =>
    obtain rfl : p = t := (hchase.players _ t (hm.prey hgood hlock).2.1).symm
    obtain rfl : q = p' := Option.some.inj (hq.symm.trans hp)
    obtain rfl := hchase.closest hprey hclosest
    have htarget := (lock_spec hlock).1
    obtain ⟨-, hattack⟩ := hc.ready e List.mem_cons_self _ hnow
    have hupdate : Game.updateIdle post e.2 fuel m st = .ok st' := by
      have hreturns := hstep
      unfold Game.updateMonster at hreturns
      rwa [hgood.deref hm.object (.inl hm.inside), ok_bind, hidle] at hreturns
    have hrange : q.getCellPos.dist o.getCellPos < 2 ^ 31 := hc.near.trans (by decide)
    cases hpursues with
    | waits hy =>
      -- it would stay idle
      have hstirs := (updateIdle_stirs hchase hm hidle hlock hattack hopen hc.free hhas hc.away hc.near).result hupdate
      exfalso
      apply hstirs
      unfold Scene.state
      rw [(hset hy).1]
      exact congrArg some hidle
    | faces hnear _ hy =>
      obtain ⟨ho', hq', hplayers⟩ := hset hy
      have hone : q.getCellPos.dist o.getCellPos = 1 := by
        have hdist := taxicab_toInt hrange
        rw [show (q.getCellPos.sub o.getCellPos).taxicab = 1 from hnear] at hdist
        exact Int.ofNat_inj.1 hdist.symm
      have hlater : clockNow (clockLater st.game.ticks) ∈ readings e.1 :=
        hticks ▸ (readings_later _).subset (clockNow_mem _)
      exact hon ho' rfl hq' hplayers (hc.face hclock hidle htarget hone hlater)
    | @steps next hfar hbeside hfree hvacant hy =>
      obtain ⟨ho', hq', hplayers⟩ := hset hy
      have hless := hmoves.nearer hopen hc.free hc.near (congrArg (Option.map GameObject.getCellPos) hm.object)
        (congrArg (Option.map GameObject.getCellPos) ho') hbeside
      have haway : 0 < q.getCellPos.dist next := by
        refine Nat.pos_of_ne_zero fun hzero => ?_
        exact hvacant p q (.inl hprey) hq (VectorInt.eq_of_dist hzero)
      exact hon ho' rfl hq' hplayers (hc.step hclock hidle htarget hfree hless haway hnow)
  | walks hmove hearly => exact absurd hearly (UInt64.not_lt.2 (hc.ready e List.mem_cons_self _ hnow).1)
  | halts hmove _ hy =>
    obtain ⟨ho', hq', hplayers⟩ := hset hy
    exact hon ho' rfl hq' hplayers (hc.halt hmove)
  | misses hskill hlock =>
    rcases hc.awake with hs | hs | ⟨-, htarget, -⟩
    · exact absurd (hs.symm.trans hskill) (by decide)
    · exact absurd (hs.symm.trans hskill) (by decide)
    · rw [hchase.sees hprey htarget] at hlock
      exact absurd hlock (Option.some_ne_none p)
  | @hits t p' hskill hlock hp halive hy =>
    obtain rfl : p = t := (hchase.players _ t (hm.prey hgood hlock).2.1).symm
    obtain rfl : q = p' := Option.some.inj (hq.symm.trans hp)
    have hq' : st'.game.objects[p]? = some { q with info := q.info.hurt o.info.attack } := by
      rw [hy.scene, set_ne hpm]
      exact modify_self hq
    exact hon (hy.self (hm.unhurt hgood hlock)) rfl hq' hy.players (hc.hit hskill halive)
  | @kills t p' _ hskill hlock hp hdead hy =>
    obtain rfl : p = t := (hchase.players _ t (hm.prey hgood hlock).2.1).symm
    obtain rfl : q = p' := Option.some.inj (hq.symm.trans hp)
    have hone := hc.kill hskill hdead
    exact .inl ⟨by omega, hchase', hchase.nobody hy.players⟩
  | rests hother =>
    rcases hc.awake with hs | hs | ⟨hs, -⟩
    · cases hs.symm.trans hother
    · cases hs.symm.trans hother
    · cases hs.symm.trans hother

/-! ## Updates of the room -/

theorem Chase.clocked (h : Chase m p player st) (ticks : List UInt64) : Chase m p player (clocked ticks st) :=
  ⟨h.good.clocked ticks, h.monsters, h.players, h.player⟩

theorem Hunting.update {e : List UInt64 × Pick} {es : List (List UInt64 × Pick)} {n : ℕ} (h : Hunting tilemap m p player (e :: es) st (n + 1))
    (hopen : tilemap.Open) (hhas : tilemap.Has player) (hstep : UpdateStep st e st') :
    n = 0 ∧ Over m p player st' ∨ 0 < n ∧ Hunting tilemap m p player es st' n := by
  obtain ⟨-, fuel, hrun⟩ := hstep
  obtain ⟨-, -, hturns⟩ := (updateRoom_turns (h.chase.good.clocked e.1)).result hrun
  have hmonsters : elements (clocked e.1 st).game.monsters = [m] := h.monsters
  rw [hmonsters] at hturns
  obtain ⟨fuel, hstep⟩ := hturns.of_single
  obtain ⟨o, fields, q, hm, hq, hc, hleft⟩ := h.combatants
  have hclocked : Hunting tilemap m p player (e :: es) (clocked e.1 st) (n + 1) :=
    ⟨h.chase.clocked e.1, h.map, h.monsters, h.prey, h.clock, o, fields, q, ⟨hm.inside, hm.object, hm.kind⟩, hq, hc, hleft⟩
  exact hunt_turn hclocked hopen hhas rfl hstep

theorem Over.update {e : List UInt64 × Pick} (h : Over m p player st) (hne : m ≠ p) (hstep : UpdateStep st e st') :
    Over m p player st' := by
  obtain ⟨-, fuel, hrun⟩ := hstep
  obtain ⟨hgood, hmonsters, hmoves⟩ := (updateRoom_moves (h.chase.clocked e.1)).result hrun
  have hplayers : ∀ (k : UInt64) (r : Ref), st'.game.players[k]? = some r → st.game.players[k]? = some r := by
    rcases hmoves with hstill | ⟨_, _, _, _, _, -, -, hstrides⟩
    · exact hstill.players
    · exact hstrides.players
  refine ⟨((h.chase.clocked e.1).after hne hgood hmonsters hmoves).1, ?_⟩
  rw [List.eq_nil_iff_forall_not_mem]
  intro r hr
  obtain ⟨k, hk⟩ := mem_elements.1 hr
  have hmem := mem_elements.2 ⟨k, hplayers k r hk⟩
  rw [h.players] at hmem
  cases hmem

/-- The loop of an update is at the only monster at once. -/
theorem Chase.lone {before after : List (UInt64 × Ref)} {k : UInt64} {r : Ref} (h : Chase m p player st)
    (hlist : st.game.monsters.toList = before ++ (k, r) :: after) : r = m ∧ before = [] := by
  have hmem : st.game.monsters[k]? = some r := getElem?_of_toList hlist
  refine ⟨h.monsters k r hmem, ?_⟩
  rw [List.eq_nil_iff_forall_not_mem]
  rintro ⟨k', r'⟩ hin
  have hmem' : st.game.monsters[k']? = some r' := by
    rw [← TreeMap.mem_toList_iff_getElem?_eq_some, hlist]
    exact List.mem_append_left _ hin
  have hkey := (h.good.core.monsters k r hmem).1
  have hkey' := (h.good.core.monsters k' r' hmem').1
  rw [hkey', h.monsters k' r' hmem', ← h.monsters k r hmem, ← hkey] at hin
  exact not_mem_before hlist hin

/-- The update returns, on a map that is not too large. -/
theorem update_returns {c : VectorInt} (h : Chasing tilemap m p player c st) (hmem : st.game.monsters[key m]? = some m) (hshort : st.game.toScene.Short) (hfree : tilemap.Free c)
    (hhas : tilemap.Has player) (hsize : tilemap.mapSize.x.toInt ≤ 2 ^ 28 ∧ tilemap.mapSize.y.toInt ≤ 2 ^ 28) (e : List UInt64 × Pick) :
    ∃ st', UpdateStep st e st' := by
  have hwithin : ∀ d : VectorInt, tilemap.Has d → d.Within (2 ^ 28) := by
    rintro d ⟨hx, hx', hy, hy'⟩
    exact ⟨by omega, by omega, by omega, by omega⟩
  have hchase := h.chase.clocked e.1
  obtain ⟨c', hc', -, honward⟩ := h.onward
  have hnear : (clocked e.1 st).game.toScene.Near := by
    intro r o hin ho
    have hcell : st.game.cell r = some o.getCellPos := congrArg (Option.map GameObject.getCellPos) ho
    rcases hin with hin | hin
    · rw [hchase.players _ r hin, h.chase.player] at hcell
      exact Option.some.inj hcell ▸ hwithin _ hhas
    · rw [hchase.monsters _ r hin, hc'] at hcell
      rw [← Option.some.inj hcell]
      rcases honward with heq | ⟨hfree', -⟩
      · exact heq ▸ hwithin _ hfree.has
      · exact hwithin _ hfree'.has
  obtain ⟨-, o, fields, hm⟩ := hchase.good.monstrous (k := key m) hmem
  obtain ⟨n, hn⟩ := updateMonster_returns hchase.good hm (hnear.planEnds hchase.good hm) hshort e.2
  have hupdate : Returns (Game.updateRoom post e.2 (max n (st.game.monsters.toList.length + 1)) (clocked e.1 st)) fun _ => True := by
    refine (Post.rangeFor_total (m := st.game.monsters) (I := fun before (st' : Game Outboxes) => before = [] → st' = clocked e.1 st)
      ?_ (by omega) rfl fun _ => rfl).imp fun _ _ => trivial
    intro before k r after st₁ hlist hmonsters hstart
    obtain ⟨rfl, rfl⟩ := h.chase.lone hlist
    obtain rfl := hstart rfl
    obtain ⟨st', hst'⟩ := hn _ (le_max_left _ _)
    obtain ⟨-, hmonsters', -⟩ := ((updateMonster_turn hchase.good hm).result hst').kept hchase.good
    exact returns_iff.2 ⟨st', hst', hmonsters'.trans hmonsters, fun hnil => absurd hnil (by simp)⟩
  obtain ⟨st', hst', -⟩ := returns_iff.1 hupdate
  exact ⟨st', trivial, _, hst'⟩

/-! ## The hunt -/

theorem updates_run {ops : List RoomOp} {es : List (List UInt64 × Pick)} (hrun : Runs RoomStep roomStart ops st)
    (h : Runs UpdateStep st es st') : Runs RoomStep roomStart (ops ++ es.map fun e => .update e.1 e.2) st' := by
  induction h with
  | nil => rwa [List.map_nil, List.append_nil]
  | @snoc es st₁ e st₂ _ hstep ih =>
    rw [List.map_append, ← List.append_assoc]
    exact ih.snoc hstep

/-- **A monster on open ground kills the player that stands still**: after any run of operations,
with at most `2 ^ 64` creations, that leaves them alone in the room, on different cells of an
open map of at most `2 ^ 28` cells each way, with the player within reach of the monster, which
stands or has just moved, the updates that are a second apart, and come when the monster's own
waits are over, return, and the player leaves the room in the last of the updates that are
needed: two for each step that the monster is away, two for each of its attacks, one to find the
player if it has not found it yet, and one if it has just moved. -/
theorem hunt_ends {ops : List RoomOp} (hrun : Runs RoomStep roomStart ops st) (hb : ops.countP RoomOp.creates ≤ 2 ^ 64)
    (hmonsters : elements st.game.monsters = [m]) (hplayers : elements st.game.players = [p])
    (ho : st.game.objects[m]? = some o) (hk : o.kind = .monster fields) (hawake : o.info.state = .idle ∨ o.info.state = .move)
    (hq : st.game.objects[p]? = some q) (hopen : st.game.tilemap.Open)
    (hsize : st.game.tilemap.mapSize.x.toInt ≤ 2 ^ 28 ∧ st.game.tilemap.mapSize.y.toInt ≤ 2 ^ 28)
    (hmonster : st.game.tilemap.Has o.getCellPos) (hplayer : st.game.tilemap.Has q.getCellPos)
    (haway : q.getCellPos ≠ o.getCellPos) (hnear : q.getCellPos.dist o.getCellPos < 10)
    {es : List (List UInt64 × Pick)} (hclock : Apart es)
    (hready : ∀ e ∈ es, ∀ now ∈ readings e.1, fields.waitMoveUntil ≤ now ∧ fields.waitAttackUntil ≤ now) :
    (∃ st', Runs UpdateStep st es st') ∧ ∀ st', Runs UpdateStep st es st' →
      (elements st'.game.players = [] ↔ updatesLeft p o fields q ≤ es.length) := by
  have hgood := (run_good hrun).1
  have hhealthy := run_healthy hrun hb
  have hm : ∀ (k : UInt64) (r : Ref), st.game.monsters[k]? = some r → r = m := by
    intro k r hr
    have hmem : r ∈ elements st.game.monsters := mem_elements.2 ⟨k, hr⟩
    rw [hmonsters] at hmem
    exact List.mem_singleton.1 hmem
  have hpl : ∀ (k : UInt64) (r : Ref), st.game.players[k]? = some r → r = p := by
    intro k r hr
    have hmem : r ∈ elements st.game.players := mem_elements.2 ⟨k, hr⟩
    rw [hplayers] at hmem
    exact List.mem_singleton.1 hmem
  have hmem : st.game.monsters[key m]? = some m :=
    hgood.core.elements_monsters (show m ∈ elements st.game.monsters by rw [hmonsters]; exact List.mem_singleton_self m)
  have hprey : st.game.players[key p]? = some p :=
    hgood.core.elements_players (show p ∈ elements st.game.players by rw [hplayers]; exact List.mem_singleton_self p)
  have hchase : Chase m p q.getCellPos st := ⟨hgood, hm, hpl, congrArg (Option.map GameObject.getCellPos) hq⟩
  have hmonstrous : Monstrous st m o fields := ⟨.inr hmem, ho, hk⟩
  have hne : m ≠ p := (hchase.ne hprey hmonstrous).symm
  have hfree := hopen _ hmonster
  have hcombatants : Combatants st.game.tilemap p es o fields q :=
    ⟨Stats.attack_pos (hhealthy.stats m o ho).1, hhealthy.alive p q hq (.inl hprey), hfree,
      Nat.pos_of_ne_zero fun hzero => haway (VectorInt.eq_of_dist hzero), hnear, hawake.imp_right .inl, hready⟩
  have hhunting : Hunting st.game.tilemap m p q.getCellPos (es ++ []) st (updatesLeft p o fields q) := by
    rw [List.append_nil]
    exact ⟨hchase, rfl, hmonsters, hprey, hclock, o, fields, q, hmonstrous, hq, hcombatants, rfl⟩
  constructor
  · have hstart : Chasing st.game.tilemap m p q.getCellPos o.getCellPos st :=
      ⟨hchase, rfl, o.getCellPos, congrArg (Option.map GameObject.getCellPos) ho, hnear.trans (by decide), .inl rfl⟩
    refine Runs.total es fun before e after st₁ _ hruns => ?_
    obtain ⟨hchasing, hmem₁⟩ := hruns.invariant (P := fun st₁ => Chasing st.game.tilemap m p q.getCellPos o.getCellPos st₁ ∧
      st₁.game.monsters[key m]? = some m) ⟨hstart, hmem⟩ fun _ _ _ ht hstep => by
        obtain ⟨hchasing, hmem⟩ := ht
        refine ⟨updateStep_chasing (open_noDetour hopen _) hne hchasing hstep, ?_⟩
        obtain ⟨-, fuel, hupdate⟩ := hstep
        rw [((updateRoom_moves (hchasing.chase.clocked _)).result hupdate).2.1]
        exact hmem
    exact update_returns hchasing hmem₁ (run_short (updates_run hrun hruns)) hfree hplayer hsize e
  · intro st' hruns
    rcases hruns.countdown (P := Hunting st.game.tilemap m p q.getCellPos) (Q := Over m p q.getCellPos)
      (fun _ _ _ hover hstep => hover.update hne hstep) (fun _ _ _ _ _ hh hstep => hh.update hopen hplayer hstep)
      hcombatants.left_pos hhunting with ⟨hle, hover⟩ | ⟨hlt, hh⟩
    · exact ⟨fun _ => hle, fun _ => hover.players⟩
    · refine ⟨fun hnone => ?_, fun hle => absurd hle (Nat.not_le.2 hlt)⟩
      have hin := mem_elements.2 ⟨_, hh.prey⟩
      rw [hnone] at hin
      cases hin

theorem seconds_apart {n : ℕ} (hn : n < 2 ^ 32) : Apart (seconds 0 n) := by
  unfold Apart seconds
  rw [List.pairwise_map]
  refine List.pairwise_lt_range.imp_of_mem fun {i j} hi hj hlt => ?_
  rw [List.mem_range] at hi hj
  intro now hnow later hlater
  rw [List.mem_singleton.1 hnow, List.mem_singleton.1 hlater, UInt64.toNat_ofNat_of_lt' (show _ < 2 ^ 64 by omega),
    UInt64.toNat_ofNat_of_lt' (show _ < 2 ^ 64 by omega)]
  omega

/-- The monster on the meadow. -/
def hunter : GameObject where
  info := { Monster.info with objectid := 1, objecttype := .monster, posx := 8, posy := 8 }
  room := true
  kind := .monster {}

/-- The player that it hunts. -/
def hunted : GameObject where
  info := { objectid := 2, objecttype := .player, posx := 5, posy := 5, maxhp := 100, hp := 100, attack := 30 }
  room := true
  kind := .player (some 0)

/-- On the meadow the monster is five steps and twenty attacks away from the end. -/
theorem hunt_ends_example : ∃ st st₁ st₂, Runs RoomStep roomStart [.init meadow, .enterRoom 0] st ∧
    Runs UpdateStep st (seconds 0 50) st₁ ∧ elements st₁.game.players ≠ [] ∧
    Runs UpdateStep st (seconds 0 51) st₂ ∧ elements st₂.game.players = [] := by
  have hrun : (([.init meadow, .enterRoom 0] : List RoomOp).foldlM roomExec roomStart).map (fun st =>
      (elements st.game.monsters, elements st.game.players, st.game.tilemap, st.game.objects)) =
      some ([0], [1], meadow, [hunter, hunted]) := by
    decide +kernel
  obtain ⟨st, hst, heq⟩ := Option.map_eq_some_iff.1 hrun
  obtain ⟨hmonsters, heq⟩ := Prod.mk.inj heq
  obtain ⟨hplayers, heq⟩ := Prod.mk.inj heq
  obtain ⟨hmap, hobjects⟩ := Prod.mk.inj heq
  have hruns := roomExec_runs hst
  have hends : ∀ n, n < 2 ^ 32 → (∃ st', Runs UpdateStep st (seconds 0 n) st') ∧ ∀ st', Runs UpdateStep st (seconds 0 n) st' →
      (elements st'.game.players = [] ↔ updatesLeft 1 hunter {} hunted ≤ (seconds 0 n).length) := by
    intro n hn
    refine hunt_ends hruns (by decide) hmonsters hplayers (by rw [hobjects]; rfl) rfl (.inl rfl) (by rw [hobjects]; rfl) ?_ ?_ ?_ ?_ (by decide)
      (by decide) (seconds_apart hn) fun e _ now _ => ⟨UInt64.zero_le, UInt64.zero_le⟩
    · rw [hmap]
      exact meadow_open
    · rw [hmap]
      decide
    · rw [hmap]
      unfold TileMap.Has
      decide
    · rw [hmap]
      unfold TileMap.Has
      decide
  obtain ⟨⟨st₁, h₁⟩, hearly⟩ := hends 50 (by decide)
  obtain ⟨⟨st₂, h₂⟩, hlate⟩ := hends 51 (by decide)
  exact ⟨st, st₁, st₂, hruns, h₁, fun hnone => absurd ((hearly st₁ h₁).1 hnone) (by decide), h₂, (hlate st₂ h₂).2 (by decide)⟩

end ZeldaServer
