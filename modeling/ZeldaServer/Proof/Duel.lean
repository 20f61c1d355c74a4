import ZeldaServer.Proof.Combat
import ZeldaServer.Proof.Wrap

/-!
# A monster with the id of a player

When the ids have run out, a monster may have the id of a player. `RemoveObject` looks
for the id in `_players` first: the player that kills the monster is removed in its
place, and the monster stays without hp.

* `Duel.swing`: one attack of the player.
* `combat_wraps`: two of them.
-/

namespace ZeldaServer

open Lib Std

variable {fuel : ℕ} {st : Game Outboxes} {pins : List Ref} {m : Ref} {hp : Int32}

/-- The player 0 and the monster `m` are alone in the room, and have one id. -/
structure Duel (m : Ref) (hp : Int32) (sc : Scene) : Prop where
  players : sc.players.toList = [(key 0, 0)]
  monsters : sc.monsters.toList = [(key 0, m)]
  player : ∃ o : GameObject, sc.objects[0]? = some o ∧ o.kind = .player (some 0) ∧ o.info.attack = 30 ∧ o.info.tail = 0
  monster : ∃ o : GameObject, sc.objects[m]? = some o ∧ o.info.objecttype = .monster ∧ o.info.posx = 8 ∧
    o.info.posy = 8 ∧ o.info.hp = hp ∧ o.info.tail = 13

/-- The player has moved to the monster. -/
def Duel.Faces (sc : Scene) : Prop :=
  ∃ o : GameObject, sc.objects[0]? = some o ∧ o.info.posx = 7 ∧ o.info.posy = 8 ∧ o.info.dir = .right

theorem Duel.player_inside {sc : Scene} (h : Duel m hp sc) : sc.players[key 0]? = some 0 := by
  rw [← TreeMap.mem_toList_iff_getElem?_eq_some, h.players]
  exact List.mem_cons_self

theorem Duel.monster_inside {sc : Scene} (h : Duel m hp sc) : sc.monsters[key 0]? = some m := by
  rw [← TreeMap.mem_toList_iff_getElem?_eq_some, h.monsters]
  exact List.mem_cons_self

/-- The monster has the id of the player. -/
theorem Duel.key (h : Duel m hp st.game.toScene) (hgood : Good Anyone st pins) : key 0 = key m :=
  (hgood.core.monsters _ _ h.monster_inside).1

/-- They are two objects. -/
theorem Duel.ne (h : Duel m hp st.game.toScene) (hgood : Good Anyone st pins) : 0 ≠ m := by
  intro heq
  obtain ⟨o, ho, hkind, -⟩ := h.player
  obtain ⟨t, ht, htype, -⟩ := h.monster
  rw [← heq, ho] at ht
  have htyped := hgood.core.typed 0 o ho
  unfold GameObject.Typed at htyped
  rw [hkind] at htyped
  dsimp only at htyped
  rw [← Option.some.inj ht, htyped] at htype
  cases htype

/-- What stands in front of the player. -/
theorem Duel.front (h : Duel m hp st.game.toScene) (hgood : Good Anyone st pins) (hf : Duel.Faces st.game.toScene) :
    st.game.getGameObjectAt ⟨8, 8⟩ = .ok (some m) := by
  obtain ⟨o, ho, hx, hy, -⟩ := hf
  obtain ⟨t, ht, -, htx, hty, -⟩ := h.monster
  have hp : elements st.game.players = [0] := congrArg (List.map Prod.snd) h.players
  have hm : elements st.game.monsters = [m] := congrArg (List.map Prod.snd) h.monsters
  have hpin : st.game.Inside 0 := .inl h.player_inside
  have hmin : st.game.Inside m := .inr (h.key hgood ▸ h.monster_inside)
  have hfar : o.getCellPos ≠ ⟨8, 8⟩ := by
    unfold GameObject.getCellPos
    rw [hx, hy]
    decide
  have hhere : t.getCellPos = ⟨8, 8⟩ := by
    unfold GameObject.getCellPos
    rw [htx, hty]
  unfold Room.getGameObjectAt
  rw [hp, hm]
  unfold Room.findAt
  rw [hgood.deref ho (.inl hpin), ok_bind, if_neg hfar]
  unfold Room.findAt
  rw [ok_bind]
  dsimp only
  rw [hgood.deref ht (.inl hmin), ok_bind, if_pos hhere]

theorem attack_length (info info' : ObjectInfo) (h : info.tail ≤ 64) (h' : info'.tail ≤ 64) :
    (Msg.attack info info').serialize.length < 65532 := by
  have h1 := field_length (k := 1) h
  have h2 := field_length (k := 2) h'
  change (bytesField 1 info.serialize ++ bytesField 2 info'.serialize).length < _
  rw [List.length_append]
  omega

theorem damage_returns (h : Good Anyone st pins) {attacker target : Ref} {a t : GameObject} (hne : attacker ≠ target)
    (hina : st.game.Inside attacker) (hint : st.game.Inside target) (ha : st.game.objects[attacker]? = some a)
    (ht : st.game.objects[target]? = some t) (hatail : a.info.tail ≤ 64) (httail : t.info.tail ≤ 64)
    (hfuel : st.game.players.toList.length < fuel) :
    ∃ st', Game.damage post fuel attacker target st = .ok st' ∧
      st'.game = st.game.modifyInfo target (·.hurt a.info.attack) := by
  obtain ⟨h₁, ht₁, ha₁⟩ := h.hurt a.info.attack hne ha ht
  have hroom : a.room = true := h.core.room_of hina ha
  obtain ⟨st', hst', hgame⟩ := say_returns h₁ hfuel (attack_length (t.info.hurt a.info.attack) _ httail hatail)
  refine ⟨st', ?_, hgame⟩
  unfold Game.damage Game.damageBy
  rw [h.deref ha (.inl hina), ok_bind]
  change ((st.update (·.modifyInfo target (·.hurt a.info.attack))).game.deref target >>= fun t =>
    (st.update (·.modifyInfo target (·.hurt a.info.attack))).game.deref attacker >>= fun a' =>
      Game.broadcastAttack post fuel attacker t.info a'.info
        (st.update (·.modifyInfo target (·.hurt a.info.attack)))) = _
  rw [h₁.deref ht₁ (.inl hint), ok_bind, h₁.deref ha₁ (.inl hina), ok_bind]
  unfold Game.broadcastAttack Game.broadcastAttackBy
  rw [h₁.deref ha₁ (.inl hina), ok_bind, if_pos hroom]
  exact hst'

/-- The objects that are not removed. -/
theorem Removes.objects {v v' : Stage Outboxes} {id : UInt64} {r r' : Ref} (h : Removes Told v id v')
    (hp : v.game.players[id]? = some r) (hne : r' ≠ r) : v'.game.objects[r']? = v.game.objects[r']? := by
  have hfound : v.game.findObject id = some r := by
    unfold Scene.findObject
    rw [hp]
  cases h with
  | missing => rfl
  | found hf ho ht hB =>
    rename_i which net
    obtain rfl := Option.some.inj (hfound.symm.trans hf)
    unfold Scene.drop
    rw [modify_ne hne]
    cases which <;> rfl

/-- **The player attacks the monster.** -/
theorem Duel.attack (h : Duel m hp st.game.toScene) (hgood : Good Anyone st pins) (hf : Duel.Faces st.game.toScene)
    (hfuel : 1 < fuel) : ∃ st', Game.attack post fuel 0 st = .ok st' ∧
      (0 < hp - 30 → Duel m (hp - 30) st'.game.toScene) ∧
      (hp - 30 ≤ 0 → st'.game.monsters[ZeldaServer.key 0]? = some m ∧ ∃ o : GameObject, st'.game.objects[m]? = some o ∧
        o.info.hp = hp - 30) := by
  obtain ⟨o, ho, hkind, hattack, hotail⟩ := h.player
  obtain ⟨t, ht, htype, htx, hty, hthp, httail⟩ := h.monster
  have hne := h.ne hgood
  have hpin : st.game.Inside 0 := .inl h.player_inside
  have hmin : st.game.Inside m := .inr (h.key hgood ▸ h.monster_inside)
  have hroom : o.room = true := hgood.core.room_of hpin ho
  have hfront : o.getFrontCellPos = ⟨8, 8⟩ := by
    obtain ⟨o', ho', hx, hy, hdir⟩ := hf
    rw [ho] at ho'
    obtain rfl := Option.some.inj ho'
    unfold GameObject.getFrontCellPos GameObject.getCellPos
    rw [hdir, hx, hy]
    decide
  have h₁ : Good Anyone (st.update (·.retain m)) (m :: pins) := hgood.retain
  have hfuel' : st.game.players.toList.length < fuel := by
    rw [h.players]
    exact hfuel
  obtain ⟨st₂, hst₂, hgame₂⟩ := damage_returns h₁ hne hpin hmin ho ht (by omega) (by omega) hfuel'
  have hgood₂ : Good Anyone st₂ (m :: pins) :=
    ((damage_spec speaks_post h₁ hne hpin hmin ho ht).result hst₂).1
  obtain ⟨ht₂, ho₂⟩ := hurt_objects hgame₂ hne ho ht
  have hhp : (t.info.hurt o.info.attack).hp = hp - 30 := by
    unfold ObjectInfo.hurt
    rw [hattack, hthp]
  have hmin₂ : st₂.game.Inside m := by
    rw [hgame₂]
    exact hmin
  unfold Game.attack Game.attackBy
  simp only [Game.damageBy_broadcast, Game.removeObjectBy_broadcast]
  rw [hgood.deref ho (.inl hpin), ok_bind, if_neg (by rw [hroom]; decide), hfront, h.front hgood hf, ok_bind]
  dsimp only
  rw [h₁.deref ht (.inl hmin), ok_bind, if_pos htype, hst₂, ok_bind, hgood₂.deref ht₂ (.inl hmin₂), ok_bind]
  dsimp only
  rw [hhp]
  by_cases hdead : hp - 30 ≤ 0
  · -- the player is found for the id of the monster
    have hid : (t.info.hurt o.info.attack).objectid = ZeldaServer.key 0 := by
      rw [h.key hgood]
      exact hgood.core.id m t ht
    have hmem₂ : st₂.game.players[ZeldaServer.key 0]? = some 0 := by
      rw [hgame₂]
      exact h.player_inside
    have hfuel₂ : st₂.game.players.toList.length < fuel := by
      rw [hgame₂]
      exact hfuel'
    obtain ⟨st₃, hst₃⟩ := removeObject_returns (ZeldaServer.key 0) hgood₂ hfuel₂
    obtain ⟨-, hremoves⟩ := (removeObject_spec speaks_post hgood₂).result hst₃
    rw [if_pos hdead, hgood₂.deref ho₂ (.inl (.inl hmem₂)), ok_bind, if_neg (by rw [hroom]; decide), hid, hst₃]
    refine ⟨_, rfl, fun halive => absurd hdead (Int32.not_le.2 halive),
      fun _ => ⟨?_, { t with info := t.info.hurt o.info.attack }, ?_, hhp⟩⟩
    · have hplayer : o.info.objecttype = .player := by
        have htyped := hgood.core.typed 0 o ho
        unfold GameObject.Typed at htyped
        rw [hkind] at htyped
        exact htyped
      have hsame := hremoves.monsters hmem₂ ho₂ hplayer
      change st₃.stage.game.monsters[ZeldaServer.key 0]? = some m
      rw [hsame]
      change st₂.game.monsters[ZeldaServer.key 0]? = some m
      rw [hgame₂]
      exact h.monster_inside
    · exact (hremoves.objects hmem₂ (Ne.symm hne)).trans ht₂
  · rw [if_neg hdead]
    refine ⟨_, rfl, fun _ => ?_, fun h => absurd h hdead⟩
    refine ⟨?_, ?_, ⟨o, ho₂, hkind, hattack, hotail⟩, ⟨_, ht₂, htype, htx, hty, hhp, httail⟩⟩
    · change st₂.game.players.toList = _
      rw [hgame₂]
      exact h.players
    · change st₂.game.monsters.toList = _
      rw [hgame₂]
      exact h.monsters

/-- **One swing.** -/
theorem Duel.swing (h : Duel m hp st.game.toScene) (hgood : Good Anyone st []) :
    ∃ st', RoomStep st (.handleCMove (swing 1)) st' ∧ (0 < hp - 30 → Duel m (hp - 30) st'.game.toScene) ∧
      (hp - 30 ≤ 0 → st'.game.monsters[ZeldaServer.key 0]? = some m ∧ ∃ o : GameObject, st'.game.objects[m]? = some o ∧
        o.info.hp = hp - 30) := by
  obtain ⟨o, ho, hkind, hattack, hotail⟩ := h.player
  have hne := h.ne hgood
  have hfound : st.game.findObject (ZeldaServer.swing 1).info.objectid = some 0 := by
    have hmem : st.game.players[(ZeldaServer.swing 1).info.objectid]? = some 0 := h.player_inside
    unfold Scene.findObject
    rw [hmem]
  have h₁ : Good Anyone ((st.update (·.retain 0)).update (·.modifyInfo 0 (·.follow (ZeldaServer.swing 1).info))) [0] :=
    hgood.retain.modifyInfo (fun _ => rfl) fun _ => rfl
  have hfuel : st.game.players.toList.length < 2 := by
    rw [h.players]
    decide
  have hsize : (Msg.move (ZeldaServer.swing 1).info).serialize.length < 65532 := by decide
  obtain ⟨st₂, hst₂, hgame₂⟩ := say_returns h₁ hfuel hsize
  have hgood₂ : Good Anyone st₂ [0] :=
    ⟨by unfold Game.stage; rw [hgame₂]; exact h₁.core.anyone, by rw [hgame₂]; exact h₁.counted⟩
  have ho₂ : st₂.game.objects[0]? = some { o with info := o.info.follow (ZeldaServer.swing 1).info } := by
    rw [hgame₂]
    exact modify_self ho
  have hduel : Duel m hp (st₂.update (·.retain 0)).game.toScene := by
    obtain ⟨t, ht, hrest⟩ := h.monster
    have ht₂ : st₂.game.objects[m]? = some t := by
      rw [hgame₂]
      exact (modify_ne (Ne.symm hne)).trans ht
    refine ⟨?_, ?_, ⟨_, ho₂, hkind, hattack, hotail⟩, ⟨t, ht₂, hrest⟩⟩
    · change st₂.game.players.toList = _
      rw [hgame₂]
      exact h.players
    · change st₂.game.monsters.toList = _
      rw [hgame₂]
      exact h.monsters
  have hfaces : Duel.Faces (st₂.update (·.retain 0)).game.toScene := ⟨_, ho₂, rfl, rfl, rfl⟩
  obtain ⟨st₄, hst₄, hlive, hdie⟩ := hduel.attack hgood₂.retain hfaces (Nat.lt_succ_self 1)
  refine ⟨((st₄.update (·.release 0)).update (·.release 0)), ⟨trivial, 2, ?_⟩, hlive, hdie⟩
  unfold RoomOp.run Game.handleCMove Game.handleCMoveBy
  dsimp only
  rw [hfound]
  dsimp only
  unfold ServerPacketHandler.makeSMove
  rw [← bind_assoc]
  change ((ServerPacketHandler.make (.move (ZeldaServer.swing 1).info) >>= fun p => Game.broadcast post 2 p
    ((st.update (·.retain 0)).update (·.modifyInfo 0 (·.follow (ZeldaServer.swing 1).info)))) >>= _) = _
  rw [hst₂, ok_bind, hgood₂.deref ho₂ (.inr List.mem_cons_self), ok_bind]
  dsimp only
  rw [if_pos (show (o.info.follow (ZeldaServer.swing 1).info).state = .skill from rfl), hkind]
  dsimp only
  rw [Game.attackBy_broadcast, hst₄]
  rfl

/-- A monster spawns when the ids have run out. -/
theorem Duel.spawn {sc : Scene} (h : Alike solo sc) (hlen : sc.objects.length = 2 ^ 64)
    (hnext : sc.idGenerator = ZeldaServer.key sc.objects.length) : Duel (2 ^ 64) 50 sc.spawn := by
  have hlast : sc.spawn.objects[2 ^ 64]? = some sc.newMonster := by
    rw [← hlen]
    exact List.getElem?_concat_length
  have hfirst : sc.spawn.objects[0]? = some (roomStart.game.toScene.newPlayer 0) := by
    refine (List.getElem?_append_left ?_).trans (h.objects 0 _ rfl)
    rw [hlen]
    decide
  refine ⟨?_, ?_, ⟨_, hfirst, rfl, rfl, rfl⟩, ⟨_, hlast, rfl, rfl, rfl, rfl, rfl⟩⟩
  · exact (toList_of_getElem? h.players).trans rfl
  · have hsame : ∀ id : UInt64, sc.spawn.monsters[id]? =
        ((∅ : TreeMap UInt64 Ref).insert (ZeldaServer.key 0) (2 ^ 64))[id]? := by
      intro id
      change (sc.monsters.insert sc.idGenerator sc.objects.length)[id]? = _
      rw [hnext, hlen, key_full, TreeMap.getElem?_insert, TreeMap.getElem?_insert, h.monsters]
      rfl
    exact (toList_of_getElem? hsame).trans rfl

/-- **The monster stays without hp.** -/
theorem combat_wraps : ∃ st, Runs RoomStep roomStart (.enterRoom 0 :: comings 1 (2 ^ 64 - 1) ++
    [.init {}] ++ [.handleCMove (swing 1)] ++ [.handleCMove (swing 1)]) st ∧
    ∃ (r : Ref) (o : GameObject), st.game.Contains r ∧ st.game.objects[r]? = some o ∧ o.info.hp = -10 := by
  obtain ⟨st, hrun, hgood, halike, hlen, -⟩ := full_run
  obtain ⟨st₁, hinit⟩ := init_returns hgood {} (Nat.lt_succ_self _)
  have hstep₁ : RoomStep st (.init {}) st₁ := ⟨trivial, _, hinit⟩
  obtain ⟨hgood₁, hact⟩ := (init_spec (U := Whisper) speaks_post hgood {}).result hinit
  have hscene₁ : st₁.game.toScene = st.game.toScene.spawn := by
    generalize hv : st₁.stage = v at hact
    cases hact with
    | spawn => exact congrArg (fun v : Stage Outboxes => v.game) hv
  have hduel₁ : Duel (2 ^ 64) 50 st₁.game.toScene := hscene₁ ▸ Duel.spawn halike hlen hgood.core.next
  obtain ⟨st₂, hstep₂, hlive, -⟩ := hduel₁.swing hgood₁
  have hgood₂ := (roomStep_acts hgood₁ hstep₂).1
  have hduel₂ : Duel (2 ^ 64) 20 st₂.game.toScene := hlive (by decide)
  obtain ⟨st₃, hstep₃, -, hdie⟩ := hduel₂.swing hgood₂
  obtain ⟨hmem, o, ho, hhp⟩ := hdie (by decide)
  exact ⟨st₃, ((hrun.snoc hstep₁).snoc hstep₂).snoc hstep₃, 2 ^ 64, o, ⟨key 0, .inr hmem⟩, ho, hhp⟩

end ZeldaServer
