import ZeldaServer.Proof.Combat
import ZeldaServer.Proof.Pursuit
import ZeldaServer.Proof.Returns

/-!
# What stands in front of a player

`Player::Attack` looks up the cell in front of the player with `GetGameObjectAt`, which
looks among the players first and then among the monsters, and hits what it finds if that
is a monster.

* `attack_resolved_iff`: when the handler returns and a monster in front is hit.
-/

namespace ZeldaServer

open Lib Std

variable {st st' st₁ : Game Outboxes} {pins : List Ref} {m r t x : Ref} {o p : GameObject} {sc : Scene} {op : RoomOp} {ops : List RoomOp}
  {c : VectorInt} {pkt : CMove}

/-! ## The lookup of a cell -/

theorem firstAt_some (h : sc.firstAt c = some x) : x ∈ elements sc.players ++ elements sc.monsters ∧ sc.cell x = some c := by
  unfold Scene.firstAt at h
  exact ⟨List.mem_of_find?_eq_some h, by simpa using List.find?_some h⟩

/-- A player on the cell is found before any monster. -/
theorem firstAt_player (hx : x ∈ elements sc.players) (hc : sc.cell x = some c) :
    ∃ y ∈ elements sc.players, sc.firstAt c = some y := by
  have hfound : ((elements sc.players).find? fun r => sc.cell r = some c).isSome := by
    rw [List.find?_isSome]
    exact ⟨x, hx, decide_eq_true hc⟩
  obtain ⟨y, hy⟩ := Option.isSome_iff_exists.1 hfound
  refine ⟨y, List.mem_of_find?_eq_some hy, ?_⟩
  unfold Scene.firstAt
  rw [List.find?_append, hy, Option.some_or]

/-- Where no player stands, the first monster is found. -/
theorem firstAt_monster (hno : ∀ x ∈ elements sc.players, sc.cell x ≠ some c) :
    sc.firstAt c = (elements sc.monsters).find? fun r => sc.cell r = some c := by
  have hnone : ((elements sc.players).find? fun r => sc.cell r = some c) = none := by
    rw [List.find?_eq_none]
    intro x hx
    simpa using hno x hx
  unfold Scene.firstAt
  rw [List.find?_append, hnone, Option.none_or]

/-! ## The cell in front -/

/-- The cell in front of an object; it has none when its direction is none of the four. -/
def GameObject.ahead (o : GameObject) : Option VectorInt :=
  match o.info.dir with
  | .up => some (o.getCellPos.add ⟨0, -1⟩)
  | .down => some (o.getCellPos.add ⟨0, 1⟩)
  | .left => some (o.getCellPos.add ⟨-1, 0⟩)
  | .right => some (o.getCellPos.add ⟨1, 0⟩)
  | .other _ => none

/-- `GetFrontCellPos` gives the cell in front, or the cell of the object. -/
theorem getFrontCellPos_eq (o : GameObject) : o.getFrontCellPos = o.ahead.getD o.getCellPos := by
  unfold GameObject.getFrontCellPos GameObject.ahead
  cases o.info.dir <;> rfl

/-- The object `x` stands in front of `o`. -/
def Scene.InFront (sc : Scene) (o : GameObject) (x : Ref) : Prop := ∃ c, o.ahead = some c ∧ sc.cell x = some c

instance {sc : Scene} {o : GameObject} {x : Ref} : Decidable (sc.InFront o x) :=
  decidable_of_iff (o.ahead.isSome ∧ sc.cell x = o.ahead) <| by
    unfold Scene.InFront
    cases o.ahead with
    | none => simp
    | some c => simp

/-! ## One attack, and none -/

/-- The hp of an object. -/
def Scene.hpOf (sc : Scene) (x : Ref) : Option Int32 := (sc.objects[x]?).map (·.info.hp)

/-- The object `m` alone loses `attack` of its hp, and one `S_Attack` is sent to everyone in the room. -/
structure Lands (m : Ref) (attack : Int32) (v v' : Stage Outboxes) : Prop where
  target : ∃ hp, v.game.hpOf m = some hp ∧ v'.game.hpOf m = some (hp - attack)
  others : ∀ x, x ≠ m → v'.game.hpOf x = v.game.hpOf x
  told : ∃ b : Blow, ∀ s, (v.game.Audience s → attacks (v'.net s) = attacks (v.net s) ++ [b]) ∧
    (¬ v.game.Audience s → attacks (v'.net s) = attacks (v.net s))

/-- No hp changes, and no `S_Attack` is sent. -/
structure NoBlow (v v' : Stage Outboxes) : Prop where
  hp : ∀ x, v'.game.hpOf x = v.game.hpOf x
  told : ∀ s, attacks (v'.net s) = attacks (v.net s)

variable {v v' v'' : Stage Outboxes} {attack : Int32}

theorem NoBlow.refl : NoBlow v v := ⟨fun _ => rfl, fun _ => rfl⟩

theorem NoBlow.trans (h : NoBlow v v') (h' : NoBlow v' v'') : NoBlow v v'' :=
  ⟨fun x => (h'.hp x).trans (h.hp x), fun s => (h'.told s).trans (h.told s)⟩

theorem Lands.before (h : NoBlow v v') (haudience : v'.game.Audience = v.game.Audience) (h' : Lands m attack v' v'') :
    Lands m attack v v'' := by
  obtain ⟨⟨hp, hhp, hhp'⟩, hothers, b, htold⟩ := h'
  refine ⟨⟨hp, (h.hp m).symm.trans hhp, hhp'⟩, fun x hx => (hothers x hx).trans (h.hp x), b, fun s => ?_⟩
  rw [← haudience, ← h.told s]
  exact htold s

theorem Lands.after (h : Lands m attack v v') (h' : NoBlow v' v'') : Lands m attack v v'' := by
  obtain ⟨⟨hp, hhp, hhp'⟩, hothers, b, htold⟩ := h
  refine ⟨⟨hp, hhp, (h'.hp m).trans hhp'⟩, fun x hx => (h'.hp x).trans (hothers x hx), b, fun s => ?_⟩
  rw [h'.told s]
  exact htold s

/-- Whoever hears a blow knows that there was one. -/
theorem Lands.heard {s : SessionId} (h : Lands m attack v v') (hs : v.game.Audience s) : ¬ NoBlow v v' := by
  intro hno
  obtain ⟨b, htold⟩ := h.told
  have hheard := (htold s).1 hs
  rw [hno.told s] at hheard
  exact absurd hheard.symm (by simp)

theorem hpOf_modify {f : GameObject → GameObject} (hf : ∀ o, (f o).info.hp = o.info.hp) : (sc.modify r f).hpOf x = sc.hpOf x := by
  unfold Scene.hpOf
  by_cases hx : x = r
  · rw [hx]
    cases ho : sc.objects[r]? with
    | none => simp [Scene.modify, ho]
    | some o => rw [modify_self ho, Option.map_some, Option.map_some, hf]
  · rw [modify_ne hx]

/-- A message that is no `S_Attack`. -/
theorem told_quiet {msg : Msg} {net net' : Outboxes} (hmsg : attacks [msg] = []) (h : Told sc msg net net') (s : SessionId) :
    attacks (net' s) = attacks (net s) := by
  by_cases hs : sc.Audience s
  · rw [(h s).1 hs, attacks_append, hmsg, List.append_nil]
  · rw [(h s).2 hs]

theorem Musing.noBlow {f : GameObject → GameObject} (h : Musing v.game f) : NoBlow v ⟨v.net, v.game.modify r f⟩ := by
  refine ⟨fun x => hpOf_modify fun o => ?_, fun _ => rfl⟩
  obtain ⟨state, heq⟩ := h.info o
  rw [heq]

theorem Removes.noBlow {id : UInt64} (h : Removes Told v id v') : NoBlow v v' := by
  cases h with
  | missing => exact .refl
  | @found r o which net _ _ _ htold =>
    refine ⟨fun x => ?_, told_quiet rfl htold⟩
    have hset : (v.game.setRoster which ((v.game.roster which).erase id)).hpOf x = v.game.hpOf x := by cases which <;> rfl
    have hroom : ∀ o : GameObject, ({ o with room := false } : GameObject).info.hp = o.info.hp := fun _ => rfl
    exact (hpOf_modify hroom).trans hset

theorem Strikes.lands {info : ObjectInfo} (h : Strikes Told v r m info v') (ho : v.game.objects[r]? = some o) :
    Lands m o.info.attack v v' := by
  cases h with
  | @mk a t net hne _ _ ha ht htold =>
    obtain rfl : o = a := Option.some.inj (ho.symm.trans ha)
    refine ⟨⟨t.info.hp, ?_, ?_⟩, fun x hx => ?_, ⟨t.info.hurt o.info.attack, o.info⟩, fun s => ⟨fun hs => ?_, fun hs => ?_⟩⟩
    · unfold Scene.hpOf
      rw [ht]
      rfl
    · unfold Scene.hpOf
      exact congrArg (Option.map (·.info.hp)) (modify_self ht)
    · unfold Scene.hpOf
      exact congrArg (Option.map (·.info.hp)) (modify_ne hx)
    · dsimp only
      rw [(htold s).1 hs, attacks_append]
      rfl
    · dsimp only
      rw [(htold s).2 hs]

/-- An attack that ends well or badly for the target. -/
theorem Act.lands {a : Label} (h : Act Told Whisper v a v') (ha : a = .hit r m ∨ a = .kill r m) (ho : v.game.objects[r]? = some o) :
    Lands m o.info.attack v v' := by
  cases h with
  | hit hs =>
    obtain ⟨rfl, rfl⟩ : _ ∧ _ := by simpa using ha
    exact hs.lands ho
  | kill hs _ hf hr =>
    obtain ⟨rfl, rfl⟩ : _ ∧ _ := by simpa using ha
    exact (hs.lands ho).after (hf.noBlow.trans hr.noBlow)
  | enter => simp at ha
  | spawn => simp at ha
  | think => simp at ha
  | walk => simp at ha
  | report => simp at ha
  | leave => simp at ha

/-! ## The packet -/

/-- The scene when the packet has moved the object `r`. -/
def Scene.moved (sc : Scene) (r : Ref) (pkt : CMove) : Scene := sc.modifyInfo r (·.follow pkt.info)

/-- The object when the packet has moved it. -/
def GameObject.moved (o : GameObject) (pkt : CMove) : GameObject := { o with info := o.info.follow pkt.info }

/-- **The attack of the player `o` is resolved**: a monster in front of it is hit, or nobody. -/
structure Resolved (o : GameObject) (sc : Scene) (v v' : Stage Outboxes) : Prop where
  hits : (∃ m ∈ elements sc.monsters, sc.InFront o m) → ∃ m ∈ elements sc.monsters, sc.InFront o m ∧ Lands m o.info.attack v v'
  misses : (¬ ∃ m ∈ elements sc.monsters, sc.InFront o m) → NoBlow v v'

theorem Reported.noBlow (h : Reported Anyone Told Whisper st pkt r o st₁) :
    NoBlow (Game.stage st) (Game.stage st₁) ∧ (Game.stage st₁).game.Audience = (Game.stage st).game.Audience := by
  have hscene : (Game.stage st₁).game = st.game.moved r pkt := h.scene
  refine ⟨⟨fun x => ?_, told_quiet rfl h.told⟩, ?_⟩
  · rw [hscene]
    exact hpOf_modify fun _ => rfl
  · rw [hscene]
    rfl

/-- An attack on what was found first resolves, unless it finds a player before a monster. -/
theorem resolved_iff {st : Game Outboxes} (h₀ : Good Anyone st pins) (h : Reported Anyone Told Whisper st pkt r o st₁)
    (hin : r ∈ elements st.game.players) {ret : Option Ref}
    (hret : st₁.game.getGameObjectAt (o.moved pkt).getFrontCellPos = .ok ret)
    (hlunges : Lunges Told Whisper r ret (Game.stage st₁) (Game.stage st')) :
    Resolved (o.moved pkt) (st.game.moved r pkt) (Game.stage st) (Game.stage st') ↔
      ¬ ((∃ m ∈ elements st.game.monsters, (st.game.moved r pkt).InFront (o.moved pkt) m) ∧
        ∃ x ∈ elements st.game.players, (st.game.moved r pkt).InFront (o.moved pkt) x) := by
  obtain ⟨pins₁, h₁⟩ := h.good
  obtain ⟨hquiet, haudience⟩ := h.noBlow
  have hscene : st₁.game.toScene = st.game.moved r pkt := h.scene
  have hplayers : elements st₁.game.players = elements st.game.players := by rw [hscene]; rfl
  have hmonsters : elements st₁.game.monsters = elements st.game.monsters := by rw [hscene]; rfl
  -- what is found is the first object
  obtain rfl : st₁.game.firstAt (o.moved pkt).getFrontCellPos = ret := Except.ok.inj ((h₁.firstAt _).symm.trans hret)
  have ho₁ : st₁.game.objects[r]? = some (o.moved pkt) := by
    rw [hscene]
    exact modify_self h.object
  have hspared : ∀ y ∈ elements st₁.game.players, st₁.game.firstAt (o.moved pkt).getFrontCellPos = some y →
      NoBlow (Game.stage st) (Game.stage st') := by
    intro y hy hfirst
    rw [hfirst] at hlunges
    rw [hlunges.spared h₁.core hy]
    exact hquiet
  by_cases hfront : ∃ x ∈ elements st.game.players, (st.game.moved r pkt).InFront (o.moved pkt) x
  · obtain ⟨x, hx, c, hahead, hcell⟩ := id hfront
    have hfc : (o.moved pkt).getFrontCellPos = c := by rw [getFrontCellPos_eq, hahead, Option.getD_some]
    rw [← hscene] at hcell
    obtain ⟨y, hy, hfirst⟩ := firstAt_player (hplayers.symm ▸ hx) hcell
    have hno := hspared y hy (hfc ▸ hfirst)
    constructor
    · rintro ⟨hhits, -⟩ ⟨hsome, -⟩
      obtain ⟨m, -, -, hlands⟩ := hhits hsome
      -- the player hears its own attack
      obtain ⟨-, _, session, -, -, -, hsession, -⟩ := h₀.core.players (key r) r (h₀.core.elements_players hin)
      exact hlands.heard ⟨r, hsession, h₀.core.elements_players hin⟩ hno
    · intro hnot
      exact ⟨fun hsome => absurd ⟨hsome, hfront⟩ hnot, fun _ => hno⟩
  · refine ⟨fun _ hboth => hfront hboth.2, fun _ => ⟨?_, ?_⟩⟩
    · rintro ⟨m, hm, c, hahead, hcell⟩
      have hfc : (o.moved pkt).getFrontCellPos = c := by rw [getFrontCellPos_eq, hahead, Option.getD_some]
      have hvacant : ∀ x ∈ elements st₁.game.players, st₁.game.cell x ≠ some c := by
        intro x hx hc
        rw [hscene] at hc
        exact hfront ⟨x, hplayers ▸ hx, c, hahead, hc⟩
      have hfound : ((elements st₁.game.monsters).find? fun r => st₁.game.cell r = some c).isSome := by
        rw [List.find?_isSome, hmonsters]
        exact ⟨m, hm, decide_eq_true (by rw [hscene]; exact hcell)⟩
      obtain ⟨y, hy⟩ := Option.isSome_iff_exists.1 hfound
      have hmem : y ∈ elements st₁.game.monsters := List.mem_of_find?_eq_some hy
      have hyc : st₁.game.cell y = some c := by simpa using List.find?_some hy
      rw [hfc, firstAt_monster hvacant, hy] at hlunges
      refine ⟨y, hmonsters ▸ hmem, ⟨c, hahead, by rw [← hscene]; exact hyc⟩, ?_⟩
      obtain ⟨p, hp, -⟩ := Option.map_eq_some_iff.1 hyc
      obtain ⟨a, ha, hact⟩ := hlunges.struck h₁.core hmem hp
      exact (hact.lands ha ho₁).before hquiet haudience
    · intro hnone
      rcases hlunges with ⟨heq, -⟩ | ⟨target, t, -, heq, ht, htype, -⟩
      · rw [heq]
        exact hquiet
      -- a monster was found: not in front, and not at the cell of the player
      obtain ⟨hmem, hcell⟩ := firstAt_some heq
      rcases List.mem_append.1 hmem with hmem | hmem
      · rw [h₁.core.player_type hmem ht] at htype
        cases htype
      · rw [hmonsters] at hmem
        cases hahead : (o.moved pkt).ahead with
        | some c =>
          rw [getFrontCellPos_eq, hahead, Option.getD_some, hscene] at hcell
          exact absurd ⟨target, hmem, c, hahead, hcell⟩ hnone
        | none =>
          have hself : st₁.game.cell r = some (o.moved pkt).getFrontCellPos := by
            rw [getFrontCellPos_eq, hahead, Option.getD_none]
            unfold Scene.cell
            rw [ho₁]
            rfl
          obtain ⟨y, hy, hfirst⟩ := firstAt_player (hplayers.symm ▸ hin) hself
          exact hspared y hy hfirst

/-- A handler that returns resolves the attack, unless a player stands in front with a monster. -/
theorem step_resolved_iff {fuel : ℕ} (hgood : Good Anyone st []) (hplayer : st.game.players[pkt.info.objectid]? = some r)
    (ho : st.game.objects[r]? = some o) (hskill : pkt.info.state = .skill) (hrun : Game.handleCMove post fuel pkt st = .ok st') :
    Resolved (o.moved pkt) (st.game.moved r pkt) (Game.stage st) (Game.stage st') ↔
      ¬ ((∃ m ∈ elements st.game.monsters, (st.game.moved r pkt).InFront (o.moved pkt) m) ∧
        ∃ x ∈ elements st.game.players, (st.game.moved r pkt).InFront (o.moved pkt) x) := by
  have hfound : st.game.findObject pkt.info.objectid = some r := by
    unfold Scene.findObject
    rw [hplayer]
  obtain ⟨-, hnone | ⟨r', o', st₁, hreported, hrest⟩⟩ := (handleCMove_lunges (U := Whisper) speaks_post hgood pkt).result hrun
  · rw [hfound] at hnone
    exact absurd hnone.1 (Option.some_ne_none r)
  obtain rfl : r = r' := Option.some.inj (hfound.symm.trans hreported.found)
  obtain rfl : o = o' := Option.some.inj (ho.symm.trans hreported.object)
  rcases hrest with ⟨-, hno⟩ | ⟨-, -, ret, hret, hlunges⟩
  · -- a player attacks
    obtain ⟨-, q, session, hq, hplays, -⟩ := hgood.core.players _ r hplayer
    obtain rfl : o = q := Option.some.inj (ho.symm.trans hq)
    exact absurd ⟨hskill, session, hplays.kind⟩ hno
  · exact resolved_iff hgood hreported (mem_elements.2 ⟨_, hplayer⟩) hret hlunges

/-- A handler that returns has made an `S_Move`. -/
theorem handleCMove_makes {fuel : ℕ} (hplayer : st.game.players[pkt.info.objectid]? = some r)
    (hrun : Game.handleCMove post fuel pkt st = .ok st') : ∃ p, ServerPacketHandler.makeSMove pkt.info = .ok p := by
  have hfound : st.game.findObject pkt.info.objectid = some r := by
    unfold Scene.findObject
    rw [hplayer]
  unfold Game.handleCMove Game.handleCMoveBy at hrun
  rw [hfound] at hrun
  obtain ⟨p, hp, -⟩ := bind_eq_ok.1 hrun
  exact ⟨p, hp⟩

/-- **Attack resolution.** A packet with the state SKILL names a player in the room. The
handler returns, and the attack has hit one monster in front, and nobody if there was none, if
and only if an `S_Move` of the packet's record can be made and no player stands in front with a
monster. -/
theorem attack_resolved_iff (h : Runs RoomStep roomStart ops st) (hplayer : st.game.players[pkt.info.objectid]? = some r)
    (ho : st.game.objects[r]? = some o) (hskill : pkt.info.state = .skill) :
    (∃ st' least, (∀ fuel, least ≤ fuel → Game.handleCMove post fuel pkt st = .ok st') ∧
      Resolved (o.moved pkt) (st.game.moved r pkt) (Game.stage st) (Game.stage st')) ↔
    (∃ p, ServerPacketHandler.makeSMove pkt.info = .ok p) ∧
      ¬ ((∃ m ∈ elements st.game.monsters, (st.game.moved r pkt).InFront (o.moved pkt) m) ∧
        ∃ x ∈ elements st.game.players, (st.game.moved r pkt).InFront (o.moved pkt) x) := by
  have hgood := (run_good h).1
  constructor
  · rintro ⟨st', least, hruns, hresolved⟩
    have hrun := hruns least (Nat.le_refl least)
    exact ⟨handleCMove_makes hplayer hrun, (step_resolved_iff hgood hplayer ho hskill hrun).1 hresolved⟩
  · rintro ⟨hmake, hfront⟩
    obtain ⟨st', hrun⟩ := handleCMove_returns hgood (run_short h) hmake (Nat.lt_succ_self _)
    have hmore : ∀ fuel, st.game.players.toList.length + 1 ≤ fuel → Game.handleCMove post fuel pkt st = .ok st' :=
      fun fuel hfuel => run_more hfuel (show (RoomOp.handleCMove pkt).run post _ st = .ok st' from hrun)
    exact ⟨st', _, hmore, (step_resolved_iff hgood hplayer ho hskill hrun).2 hfront⟩

/-! ## A monster in front, alone and behind a player -/

/-- When the player `1` attacks as `swing 2` says: its attack, who stands in front, of the players and of the monsters, and the
hp of the monster `0`, before and after. -/
structure Lunge where
  player : Option Ref
  attack : Int32
  players : List Ref
  monsters : List Ref
  hp : Option Int32
  hp' : Option Int32
  deriving DecidableEq, Repr

def lungeExec (ops : List RoomOp) : Option Lunge := do
  let st ← ops.foldlM roomExec roomStart
  let st' ← roomExec st (.handleCMove (swing 2))
  let o ← st.game.objects[1]?
  let ahead := fun x => decide ((st.game.moved 1 (swing 2)).InFront (o.moved (swing 2)) x)
  some ⟨st.game.players[(2 : UInt64)]?, o.info.attack, (elements st.game.players).filter ahead,
    (elements st.game.monsters).filter ahead, st.game.hpOf 0, st'.game.hpOf 0⟩

theorem lungeExec_runs {attack : Int32} {players monsters : List Ref} {hp hp' : Option Int32}
    (h : lungeExec ops = some ⟨some 1, attack, players, monsters, hp, hp'⟩) : ∃ st st' o, Runs RoomStep roomStart ops st ∧
      RoomStep st (.handleCMove (swing 2)) st' ∧ st.game.players[(2 : UInt64)]? = some 1 ∧ st.game.objects[1]? = some o ∧
      o.info.attack = attack ∧
      (∀ x, (x ∈ elements st.game.players ∧ (st.game.moved 1 (swing 2)).InFront (o.moved (swing 2)) x) ↔ x ∈ players) ∧
      (∀ x, (x ∈ elements st.game.monsters ∧ (st.game.moved 1 (swing 2)).InFront (o.moved (swing 2)) x) ↔ x ∈ monsters) ∧
      st.game.hpOf 0 = hp ∧ st'.game.hpOf 0 = hp' := by
  obtain ⟨st, hst, h⟩ := Option.bind_eq_some_iff.1 h
  obtain ⟨st', hst', h⟩ := Option.bind_eq_some_iff.1 h
  obtain ⟨o, ho, h⟩ := Option.bind_eq_some_iff.1 h
  obtain ⟨hplayer, hattack, hplayers, hmonsters, hhp, hhp'⟩ := Lunge.mk.inj (Option.some.inj h)
  refine ⟨st, st', o, roomExec_runs hst, roomExec_step hst', hplayer, ho, hattack, fun x => ?_, fun x => ?_, hhp, hhp'⟩
  · rw [← hplayers, List.mem_filter, decide_eq_true_eq]
  · rw [← hmonsters, List.mem_filter, decide_eq_true_eq]

/-- The monster in front is hit. -/
theorem attack_resolved_example : ∃ st o, Runs RoomStep roomStart [.init {}, .enterRoom 0] st ∧
    st.game.objects[1]? = some o ∧ (∃ m ∈ elements st.game.monsters, (st.game.moved 1 (swing 2)).InFront (o.moved (swing 2)) m) ∧
    ∃ st' least, (∀ fuel, least ≤ fuel → Game.handleCMove post fuel (swing 2) st = .ok st') ∧
      Resolved (o.moved (swing 2)) (st.game.moved 1 (swing 2)) (Game.stage st) (Game.stage st') := by
  have hrun : lungeExec [.init {}, .enterRoom 0] = some ⟨some 1, 30, [], [0], some 50, some 20⟩ := by decide +kernel
  obtain ⟨st, st', o, hst, -, hplayer, ho, -, hplayers, hmonsters, -⟩ := lungeExec_runs hrun
  refine ⟨st, o, hst, ho, ⟨0, (hmonsters 0).2 List.mem_cons_self⟩, ?_⟩
  have hnamed : st.game.players[(swing 2).info.objectid]? = some 1 := hplayer
  obtain ⟨p, hp, -⟩ := make_ok (.move (swing 2).info) (by decide)
  refine (attack_resolved_iff hst hnamed ho rfl).2 ⟨⟨p, hp⟩, ?_⟩
  rintro ⟨-, x, hx⟩
  exact absurd ((hplayers x).1 hx) List.not_mem_nil

/-- A player stands on the cell of the monster, and the monster is not hit. -/
theorem attack_shielded : ∃ st st' o, Runs RoomStep roomStart [.init {}, .enterRoom 0, .enterRoom 1, .handleCMove (placed 3 8 8)] st ∧
    RoomStep st (.handleCMove (swing 2)) st' ∧ st.game.players[(2 : UInt64)]? = some 1 ∧ st.game.objects[1]? = some o ∧
    (∃ m ∈ elements st.game.monsters, (st.game.moved 1 (swing 2)).InFront (o.moved (swing 2)) m) ∧
    st.game.hpOf 0 = some 50 ∧ st'.game.hpOf 0 = some 50 ∧
    ¬ Resolved (o.moved (swing 2)) (st.game.moved 1 (swing 2)) (Game.stage st) (Game.stage st') := by
  have hrun : lungeExec [.init {}, .enterRoom 0, .enterRoom 1, .handleCMove (placed 3 8 8)] =
      some ⟨some 1, 30, [2], [0], some 50, some 50⟩ := by decide +kernel
  obtain ⟨st, st', o, hst, hstep, hplayer, ho, hattack, -, hmonsters, hhp, hhp'⟩ := lungeExec_runs hrun
  have hfront := (hmonsters 0).2 List.mem_cons_self
  refine ⟨st, st', o, hst, hstep, hplayer, ho, ⟨0, hfront⟩, hhp, hhp', ?_⟩
  intro hresolved
  obtain ⟨m, hm, hahead, hlands⟩ := hresolved.hits ⟨0, hfront⟩
  obtain rfl := List.mem_singleton.1 ((hmonsters m).1 ⟨hm, hahead⟩)
  obtain ⟨hp, hbefore, hafter⟩ := hlands.target
  obtain rfl := Option.some.inj (hhp.symm.trans hbefore)
  rw [show (o.moved (swing 2)).info.attack = 30 from hattack] at hafter
  exact absurd (Option.some.inj (hhp'.symm.trans hafter)) (by decide)

end ZeldaServer
