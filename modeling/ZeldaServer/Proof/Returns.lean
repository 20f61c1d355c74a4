import ZeldaServer.Lib.Fuel
import ZeldaServer.Proof.Simulate
import ZeldaServer.Proof.Strides

/-!
# Every operation on the room returns

With sends that do not fail and enough fuel, every operation on a reachable room returns, if
what it sends fits into packets and, for `GameRoom::Update`, the searches of the monsters end: no loop
goes on for ever, nothing is asserted that does not hold, and nothing is used that has been
destroyed or erased.

* `run_more`: more fuel does not change what an operation does.
* `attack_returns`, `handleCMove_returns`
* `PlansEnd`: the searches of an update; they end when the coordinates are small
  (`Scene.Central.plansEnd`), and when no player is opposite to the map (`Scene.Facing.plansEnd`).
* `updateRoom_halts`, `turns_planned`: `GameRoom::Update` returns exactly then.
* `RoomOp.run_halts`: all operations.
-/

namespace ZeldaServer

open Lib Std

variable {st st' : Game Outboxes} {pins : List Ref} {m r : Ref} {o : GameObject} {fields : Monster} {pick : Pick}
  {fuel fuel' : ℕ} {op : RoomOp} {ops : List RoomOp} {pkt : CMove}

/-! ## More fuel -/

theorem post_alike : SendsAlike (· = ·) Whatever post post := by
  intro s p st st' h _ _
  refine .ok ⟨h.game, ?_, fun _ _ _ => trivial⟩
  rw [show st.net = st'.net from h.net]

/-- A state and itself. -/
theorem Twins.same (st : Game Outboxes) : Twins (· = ·) Whatever st st := ⟨rfl, rfl, fun _ _ _ => trivial⟩

theorem Twins.eq (h : Twins (· = ·) Whatever st st') : st = st' := by
  obtain ⟨net, game⟩ := st
  obtain ⟨net', game'⟩ := st'
  obtain rfl : net = net' := h.net
  obtain rfl : game = game' := h.game
  rfl

/-- A call that is matched by itself with more fuel. -/
theorem of_matches {x y : Outcome (Game Outboxes)} (h : Matches (Twins (· = ·) Whatever) x y) (hx : x = .ok st) : y = .ok st := by
  obtain ⟨st', hy, hsame⟩ := h st hx
  rw [hy, hsame.eq]

/-- **More fuel** does not change what an operation does. -/
theorem run_more (hfuel : fuel ≤ fuel') (h : op.run post fuel st = .ok st') : op.run post fuel' st = .ok st' :=
  of_matches (RoomOp.run_matches post_alike hfuel whatever_kindly (.same st) op fun _ _ => trivial) h

/-- An operation halts if it returns with one amount of fuel. -/
theorem step_halts (hfresh : op.Fresh st) (h : ∃ st', op.run post fuel st = .ok st') :
    Halts (fun fuel => op.run post fuel st) (RoomStep st op) := by
  obtain ⟨st', hst'⟩ := h
  exact .of_mono (fun _ _ _ => run_more) ⟨st', hst', hfresh, fuel, hst'⟩

/-! ## Attacks -/

/-- **`Player::Attack` returns.** -/
theorem attack_returns (h : Good Anyone st pins) (hin : st.game.Inside r) (ho : st.game.objects[r]? = some o)
    (hp : o.info.objecttype = .player) (hshort : st.game.toScene.Short) (hfuel : st.game.players.toList.length < fuel) :
    ∃ st', Game.attack post fuel r st = .ok st' := by
  have hroom : o.room = true := h.core.room_of hin ho
  obtain ⟨ret, hret, hfound, -⟩ := returns_iff.1 (h.getGameObjectAt o.getFrontCellPos)
  unfold Game.attack Game.attackBy
  simp only [Game.damageBy_broadcast, Game.removeObjectBy_broadcast]
  rw [h.deref ho (.inl hin), ok_bind, if_neg (by rw [hroom]; decide), hret, ok_bind]
  cases ret with
  | none => exact ⟨st, rfl⟩
  | some target =>
    obtain ⟨hint, t, ht, -⟩ := hfound target rfl
    have h₁ : Good Anyone (st.update (·.retain target)) (target :: pins) := h.retain
    dsimp only
    rw [h₁.deref ht (.inr List.mem_cons_self), ok_bind]
    split
    · rename_i hmonster
      -- a player attacks a monster
      have hne : r ≠ target := by
        intro heq
        rw [← heq, ho] at ht
        rw [← Option.some.inj ht, hp] at hmonster
        cases hmonster
      obtain ⟨st₂, hst₂, hgame₂⟩ := damage_returns h₁ hne hin hint ho ht (hshort r o ho) (hshort target t ht) hfuel
      obtain ⟨hgood₂, -⟩ := (damage_spec speaks_post h₁ hne hin hint ho ht).result hst₂
      obtain ⟨ht₂, ho₂⟩ := hurt_objects hgame₂ hne ho ht
      have hin₂ : st₂.game.Inside r := by
        rw [hgame₂]
        exact hin
      rw [hst₂, ok_bind, hgood₂.deref ht₂ (.inr List.mem_cons_self), ok_bind]
      dsimp only
      split
      · have hfuel₂ : st₂.game.players.toList.length < fuel := by
          rw [hgame₂]
          exact hfuel
        obtain ⟨st₃, hst₃⟩ := removeObject_returns (t.info.hurt o.info.attack).objectid hgood₂ hfuel₂
        rw [hgood₂.deref ho₂ (.inl hin₂), ok_bind, if_neg (by rw [hroom]; decide), hst₃]
        exact ⟨_, rfl⟩
      · exact ⟨_, rfl⟩
    · exact ⟨_, rfl⟩

/-- **`Handle_C_Move` returns**, if the record of the packet can be told. -/
theorem handleCMove_returns (h : Good Anyone st []) (hshort : st.game.toScene.Short)
    (hmake : ∃ p, ServerPacketHandler.makeSMove pkt.info = .ok p) (hfuel : st.game.players.toList.length < fuel) :
    ∃ st', Game.handleCMove post fuel pkt st = .ok st' := by
  unfold Game.handleCMove Game.handleCMoveBy
  cases hf : st.game.findObject pkt.info.objectid with
  | none => exact ⟨st, rfl⟩
  | some r =>
    obtain ⟨-, o, which, ho, -, -⟩ := h.core.found hf
    have hin := h.core.found_inside hf
    have h₁ : Good Anyone ((st.update (·.retain r)).update (·.modifyInfo r (·.follow pkt.info))) [r] :=
      h.retain.modifyInfo (fun _ => rfl) fun _ => rfl
    obtain ⟨st₂, hst₂, hgame₂⟩ := made_returns h₁ hfuel hmake
    obtain ⟨hgood₂, -, -⟩ := (say_spec speaks_post h₁).result hst₂
    have ho₂ : st₂.game.objects[r]? = some { o with info := o.info.follow pkt.info } := by
      rw [hgame₂]
      exact modify_self ho
    dsimp only
    rw [← bind_assoc]
    unfold ServerPacketHandler.makeSMove
    unfold ObjectInfo.follow at hst₂
    rw [hst₂, ok_bind, hgood₂.deref ho₂ (.inr List.mem_cons_self), ok_bind]
    dsimp only
    split
    · cases hkind : o.kind with
      | monster fields => exact ⟨_, rfl⟩
      | player session =>
        have htyped : o.info.objecttype = .player := by
          have htyped := h.core.typed r o ho
          unfold GameObject.Typed at htyped
          rwa [hkind] at htyped
        have hin₂ : st₂.game.Inside r := by
          rw [hgame₂]
          exact hin
        have hshort₂ : st₂.game.toScene.Short := by
          rw [hgame₂]
          exact hshort.modify fun _ => rfl
        have hfuel₂ : st₂.game.players.toList.length < fuel := by
          rw [hgame₂]
          exact hfuel
        have h₃ : Good Anyone (st₂.update (·.retain r)) [r, r] := hgood₂.retain
        obtain ⟨st₄, hst₄⟩ := attack_returns h₃ hin₂ ho₂ htyped hshort₂ hfuel₂
        dsimp only
        rw [Game.attackBy_broadcast, hst₄]
        exact ⟨_, rfl⟩
    · exact ⟨_, rfl⟩

/-! ## Monsters -/

/-- A turn puts nothing into the room. -/
theorem MonsterTurn.inside (hturn : MonsterTurn m o fields st st') (hin : st'.game.Inside r) : st.game.Inside r := by
  have hyields : ∀ {sc : Scene} {ticks : List UInt64}, Yields [] st sc ticks st' →
      (sc.Inside r → st.game.Inside r) → st.game.Inside r := by
    intro sc ticks hy hsc
    refine hsc ?_
    rw [← hy.scene]
    exact hin
  cases hturn with
  | seeks _ _ _ hy => exact hyields hy id
  | pursues _ _ _ _ hpursues =>
    cases hpursues with
    | waits hy => exact hyields hy id
    | faces _ _ hy => exact hyields hy id
    | steps _ _ _ _ hy => exact hyields hy id
  | walks _ _ hy => exact hyields hy id
  | halts _ _ hy => exact hyields hy id
  | misses _ _ heq =>
    rw [heq] at hin
    exact hin
  | hits _ _ _ _ hy => exact hyields hy id
  | kills _ _ _ _ hy => exact hyields hy fun hin => hin.imp_left inside_erase
  | rests _ heq =>
    rw [heq] at hin
    exact hin

/-- What the turn of `m` does to the room. -/
structure Turned (m : Ref) (st st' : Game Outboxes) : Prop where
  good : Good Anyone st' []
  monsters : st'.game.monsters = st.game.monsters
  short : st'.game.toScene.Short
  inside : ∀ r, st'.game.Inside r → st.game.Inside r
  others : ∀ r, r ≠ m → st'.game.cell r = st.game.cell r
  self : ∀ c', st'.game.cell m = some c' → ∃ c, st.game.cell m = some c ∧ (c' = c ∨ c.dist c' = 1)

theorem updateMonster_more (hfuel : fuel ≤ fuel') (h : Game.updateMonster post pick fuel m st = .ok st') :
    Game.updateMonster post pick fuel' m st = .ok st' :=
  of_matches (updateMonster_matches post_alike hfuel whatever_kindly (.same st)) h

theorem updateMonster_turned (h : Good Anyone st []) {k : UInt64} (hmem : st.game.monsters[k]? = some m)
    (hshort : st.game.toScene.Short) : IfReturns (Game.updateMonster post pick fuel m st) (Turned m st) := by
  obtain ⟨-, o, fields, hm⟩ := h.monstrous hmem
  refine ifReturns_iff.2 fun st' hst' => ?_
  have hturn := (updateMonster_turn h hm).result hst'
  obtain ⟨hgood, hmonsters, -⟩ := hturn.kept h
  obtain ⟨-, -, acts, hacts, -⟩ := (updateMonster_spec (U := Whisper) speaks_post h hm.inside).result hst'
  have hshort' : st'.game.toScene.Short := hacts.invariant (P := fun v => v.game.Short) hshort fun _ _ _ hs hact => hact.short hs
  rcases hturn.cells h hm with hsame | ⟨next, hsteps⟩
  · exact ⟨hgood, hmonsters, hshort', fun r => hturn.inside, fun r _ => hsame r, fun c' hc' => ⟨c', hsame m ▸ hc', .inl rfl⟩⟩
  · obtain ⟨closest, hscene⟩ := hsteps.scene
    refine ⟨hgood, hmonsters, hshort', fun r => hturn.inside, fun r hr => ?_, fun c' hc' => ?_⟩
    · unfold Scene.cell
      rw [hscene, set_ne hr]
    · unfold Scene.cell at hc' ⊢
      rw [hscene, set_self hm.object] at hc'
      obtain rfl : next = c' := Option.some.inj hc'
      exact ⟨o.getCellPos, by rw [hm.object]; rfl, .inr hsteps.beside⟩

/-- A monster has one turn only, whatever the fuel. -/
theorem TurnStep.unique {st₁ st₂ : Game Outboxes} (h₁ : TurnStep pick st m st₁) (h₂ : TurnStep pick st m st₂) : st₁ = st₂ := by
  obtain ⟨n₁, h₁⟩ := h₁
  obtain ⟨n₂, h₂⟩ := h₂
  have h₁ := updateMonster_more (le_max_left n₁ n₂) h₁
  have h₂ := updateMonster_more (le_max_right n₁ n₂) h₂
  exact Except.ok.inj (h₁.symm.trans h₂)

/-- **A monster's update halts** if its search ends. -/
theorem updateMonster_halts (h : Good Anyone st []) {k : UInt64} (hmem : st.game.monsters[k]? = some m) (hends : st.game.PlanEnds m)
    (hshort : st.game.toScene.Short) (pick : Pick) :
    Halts (fun fuel => Game.updateMonster post pick fuel m st) fun st' => TurnStep pick st m st' ∧ Turned m st st' := by
  obtain ⟨-, o, fields, hm⟩ := h.monstrous hmem
  obtain ⟨n, hn⟩ := updateMonster_returns h hm hends hshort pick
  obtain ⟨st', hst'⟩ := hn n (Nat.le_refl n)
  exact .of_mono (fun _ _ _ => updateMonster_more) ⟨st', hst', ⟨n, hst'⟩, (updateMonster_turned h hmem hshort).result hst'⟩

/-! ## All monsters -/

/-- The searches that the monsters `ms` make in their turns, one after the other, end. -/
def PlansEnd (pick : Pick) : List Ref → Game Outboxes → Prop
  | [], _ => True
  | m :: ms, st => st.game.PlanEnds m ∧ ∀ st', TurnStep pick st m st' → PlansEnd pick ms st'

/-- **`GameRoom::Update` halts** if the searches of the monsters end. -/
theorem updateRoom_halts (h : Good Anyone st []) (hshort : st.game.toScene.Short) (hends : PlansEnd pick (elements st.game.monsters) st) :
    Halts (fun fuel => Game.updateRoom post pick fuel st) fun st' => Good Anyone st' [] := by
  unfold Game.updateRoom
  refine (Halts.rangeFor (I := fun before (st' : Game Outboxes) => Good Anyone st' [] ∧ st'.game.toScene.Short ∧
    ∀ after, st.game.monsters.toList = before ++ after → PlansEnd pick (after.map Prod.snd) st') ?_ rfl ⟨h, hshort, ?_⟩).imp
    fun st' h' => h'.2.1
  · intro before k m after st₁ hlist hmonsters h₁
    obtain ⟨hgood, hshort₁, hends₁⟩ := h₁
    have hmem : st₁.game.monsters[k]? = some m := by
      rw [hmonsters]
      exact getElem?_of_toList hlist
    obtain ⟨hplan, hnext⟩ := hends₁ _ hlist
    refine (updateMonster_halts hgood hmem hplan hshort₁ pick).imp fun st' hst' => ?_
    obtain ⟨hturn, hturned⟩ := hst'
    refine ⟨hturned.monsters.trans hmonsters, hturned.good, hturned.short, fun after' hlist' => ?_⟩
    obtain rfl : after = after' := by
      rw [hlist, List.append_assoc] at hlist'
      exact (List.cons.inj (List.append_cancel_left hlist')).2
    exact hnext st' hturn
  · intro after hafter
    rw [List.nil_append] at hafter
    rw [← hafter]
    exact hends

/-- The searches of the turns that the monsters have had have ended. -/
theorem turns_planned {ms : List Ref} (h : Good Anyone st []) (hms : ∀ y ∈ ms, st.game.monsters[key y]? = some y)
    (hruns : Runs (TurnStep pick) st ms st') : PlansEnd pick ms st := by
  induction ms generalizing st with
  | nil => exact trivial
  | cons m ms ih =>
    obtain ⟨st₁, hturn, hrest⟩ := hruns.first
    obtain ⟨-, o, fields, hm⟩ := h.monstrous (hms m List.mem_cons_self)
    obtain ⟨fuel, hupdate⟩ := id hturn
    refine ⟨(updateMonster_planned h hm).result hupdate, fun st₂ hturn₂ => ?_⟩
    obtain rfl : st₁ = st₂ := hturn.unique hturn₂
    obtain ⟨hgood, hmonsters, -⟩ := ((updateMonster_turn h hm).result hupdate).kept h
    refine ih hgood (fun y hy => ?_) hrest
    rw [hmonsters]
    exact hms y (List.mem_cons_of_mem _ hy)

/-- No player in the room stands opposite to a cell of the map. -/
def Room.Facing (room : Room) : Prop :=
  ∀ (r : Ref) (c : VectorInt), room.players[key r]? = some r → room.cell r = some c → room.tilemap.getTileAt c.opposite = none

/-- ... then the searches end. -/
theorem Room.Facing.plansEnd {ms : List Ref} (hfacing : st.game.Facing) (h : Good Anyone st []) (hshort : st.game.toScene.Short)
    (hms : ∀ y ∈ ms, st.game.monsters[key y]? = some y) (pick : Pick) : PlansEnd pick ms st := by
  induction ms generalizing st with
  | nil => exact trivial
  | cons m ms ih =>
    have hmem := hms m List.mem_cons_self
    obtain ⟨-, o, fields, hm⟩ := h.monstrous hmem
    refine ⟨?_, fun st' hturn => ?_⟩
    · intro o' fields' t p ho' hk' _ hlock hp _
      obtain rfl : o = o' := Option.some.inj (hm.object.symm.trans ho')
      obtain rfl : fields = fields' := Kind.monster.inj (hm.kind.symm.trans hk')
      refine .of_outside (hfacing t p.getCellPos (hm.prey h hlock).2.1 ?_)
      unfold Scene.cell
      rw [hp]
      rfl
    · obtain ⟨fuel, hupdate⟩ := hturn
      have hturned := (updateMonster_turned h hmem hshort).result hupdate
      have hturn := (updateMonster_turn h hm).result hupdate
      refine ih (fun r c hr hc => ?_) hturned.good hturned.short fun y hy => ?_
      · -- the players stand where they stood
        have hplayer : st.game.players[key r]? = some r := by
          by_contra hout
          exact hturn.gone hout hr
        obtain ⟨-, p, s, hp, hplays, -⟩ := h.core.players _ r hplayer
        rw [hturned.others r (hm.ne h hp hplays.type)] at hc
        rw [(hturn.kept h).2.2]
        exact hfacing r c hplayer hc
      · rw [hturned.monsters]
        exact hms y (List.mem_cons_of_mem _ hy)

/-- All objects of the room are at least one step inside of the coordinates that are small. -/
def Scene.Central (sc : Scene) : Prop :=
  ∀ (r : Ref) (c : VectorInt), sc.Inside r → sc.cell r = some c → c.Within (2 ^ 28 - 1)

/-- The objects are where they are when the monsters `turned` have had their turns. -/
def Scene.Strayed (sc : Scene) (turned : List Ref) : Prop :=
  ∀ (r : Ref) (c : VectorInt), sc.Inside r → sc.cell r = some c → c.Within (2 ^ 28) ∧ (r ∉ turned → c.Within (2 ^ 28 - 1))

theorem Scene.Strayed.near {sc : Scene} {turned : List Ref} (h : sc.Strayed turned) : sc.Near := by
  intro r o hin ho
  refine (h r o.getCellPos hin ?_).1
  unfold Scene.cell
  rw [ho]
  rfl

theorem VectorInt.Within.beside {n : ℤ} {c c' : VectorInt} (h : c.Within (n - 1)) (hd : c.dist c' = 1) : c'.Within n := by
  unfold VectorInt.Within at h ⊢
  unfold VectorInt.dist at hd
  omega

/-- A turn takes the monster one step at most. -/
theorem Turned.strayed {turned : List Ref} (h : Turned m st st') (hstrayed : st.game.toScene.Strayed turned) (hnew : m ∉ turned) :
    st'.game.toScene.Strayed (turned ++ [m]) := by
  intro r c' hin hc'
  by_cases hr : r = m
  · subst hr
    obtain ⟨c, hc, hstep⟩ := h.self c' hc'
    obtain ⟨hsmall, hcentral⟩ := hstrayed r c (h.inside r hin) hc
    refine ⟨?_, fun hout => absurd (List.mem_append_right _ List.mem_cons_self) hout⟩
    rcases hstep with rfl | hbeside
    · exact hsmall
    · exact (hcentral hnew).beside hbeside
  · rw [h.others r hr] at hc'
    obtain ⟨hsmall, hcentral⟩ := hstrayed r c' (h.inside r hin) hc'
    exact ⟨hsmall, fun hout => hcentral fun hmem => hout (List.mem_append_left _ hmem)⟩

/-- ... so the searches of the monsters end when the coordinates are small. -/
theorem Scene.Strayed.plansEnd {turned ms : List Ref} (hstrayed : st.game.toScene.Strayed turned) (h : Good Anyone st [])
    (hshort : st.game.toScene.Short) (hms : ∀ y ∈ ms, st.game.monsters[key y]? = some y) (hnodup : (turned ++ ms).Nodup) (pick : Pick) :
    PlansEnd pick ms st := by
  induction ms generalizing st turned with
  | nil => exact trivial
  | cons m ms ih =>
    have hmem := hms m List.mem_cons_self
    obtain ⟨-, o, fields, hm⟩ := h.monstrous hmem
    refine ⟨hstrayed.near.planEnds h hm, fun st' hturn => ?_⟩
    obtain ⟨fuel, hupdate⟩ := hturn
    have hturned := (updateMonster_turned h hmem hshort).result hupdate
    have hnew : m ∉ turned := fun hin => (List.nodup_append.1 hnodup).2.2 m hin m List.mem_cons_self rfl
    refine ih (hturned.strayed hstrayed hnew) hturned.good hturned.short (fun y hy => ?_) ?_
    · rw [hturned.monsters]
      exact hms y (List.mem_cons_of_mem _ hy)
    · rw [List.append_assoc]
      exact hnodup

theorem Scene.Central.plansEnd (hcentral : st.game.toScene.Central) (h : Good Anyone st []) (hshort : st.game.toScene.Short) (pick : Pick) :
    PlansEnd pick (elements st.game.monsters) st := by
  have hstart : st.game.toScene.Strayed [] := by
    intro r c hin hc
    have hwithin := hcentral r c hin hc
    unfold VectorInt.Within at hwithin ⊢
    omega
  refine hstart.plansEnd h hshort (fun y hy => h.core.elements_monsters hy) ?_ pick
  exact .of_map _ (elements_nodup fun k r hk => (h.core.monsters k r hk).1)

/-! ## All operations -/

/-- What the operation sends fits into packets, and the searches of an update end: the coordinates
are small, or no player is opposite to the map. -/
def RoomOp.Fits (st : Game Outboxes) : RoomOp → Prop
  | .enterRoom _ => ∀ objects, st.game.Snapshot objects → (Msg.addObject objects).serialize.length < 65532
  | .handleCMove pkt => (Msg.move pkt.info).serialize.length < 65532
  | .update _ _ => st.game.toScene.Central ∨ st.game.Facing
  | .init _ | .leaveRoom _ => True

/-- **Every operation** on a reachable room halts, if it fits. -/
theorem RoomOp.run_halts (hrun : Runs RoomStep roomStart ops st) (hfresh : op.Fresh st) (hfits : op.Fits st) :
    Halts (fun fuel => op.run post fuel st) (RoomStep st op) := by
  obtain ⟨hgood, -⟩ := run_good hrun
  have hshort := run_short hrun
  have hfuel : st.game.players.toList.length + 1 < st.game.players.toList.length + 2 := Nat.lt_succ_self _
  cases op with
  | init tilemap => exact step_halts hfresh (init_returns hgood tilemap hfuel)
  | enterRoom session => exact step_halts hfresh (enterRoom_returns hgood hfresh hfits hfuel)
  | leaveRoom session => exact step_halts hfresh (leaveRoom_returns hgood (Nat.lt_of_succ_lt hfuel))
  | handleCMove pkt =>
    obtain ⟨p, hp, -⟩ := make_ok _ (show (Msg.move pkt.info).serialize.length < 65532 from hfits)
    exact step_halts hfresh (handleCMove_returns hgood hshort ⟨p, hp⟩ (Nat.lt_of_succ_lt hfuel))
  | update ticks pick =>
    have hgood₁ : Good Anyone (st.update fun room => { room with ticks := ticks }) [] :=
      ⟨hgood.core, hgood.counted.of_same rfl rfl rfl⟩
    have hends : PlansEnd pick (elements st.game.monsters) (st.update fun room => { room with ticks := ticks }) := by
      rcases hfits with hcentral | hfacing
      · have hcentral₁ : (st.update fun room => { room with ticks := ticks }).game.toScene.Central := hcentral
        exact hcentral₁.plansEnd hgood₁ hshort pick
      · have hfacing₁ : (st.update fun room => { room with ticks := ticks }).game.Facing := hfacing
        exact hfacing₁.plansEnd hgood₁ hshort (fun y hy => hgood.core.elements_monsters hy) pick
    obtain ⟨st', -, n, hn⟩ := updateRoom_halts hgood₁ hshort hends
    exact step_halts hfresh ⟨st', hn n (Nat.le_refl n)⟩

end ZeldaServer
