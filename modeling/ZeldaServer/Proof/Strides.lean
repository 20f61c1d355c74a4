import ZeldaServer.Proof.Duel
import ZeldaServer.Proof.Orderly
import ZeldaServer.Proof.Termination
import ZeldaServer.Proof.Turns

/-!
# The step of a monster

One `Monster::Update` moves no object but the monster, and the monster by one cell at most:
to a cell of the map that is free and vacant, in the direction that it looks in then, and this
is told once.

* `Room.PlanEnds`: the search that a monster makes in its turn ends; `Scene.Near.planEnds`,
  when the coordinates are small.
* `updateMonster_returns`, `updateMonster_planned`: the update returns exactly then.
* `monster_step`: what it does to the cells.
-/

namespace ZeldaServer

open Lib Std

variable {st st' : Game Outboxes} {pins : List Ref} {m r t : Ref} {o : GameObject} {fields : Monster}
  {pick : Pick} {fuel : ℕ} {sc : Scene}

/-! ## The update returns -/

/-- The objects of the room have small coordinates. -/
def Scene.Near (sc : Scene) : Prop :=
  ∀ (r : Ref) (o : GameObject), sc.Inside r → sc.objects[r]? = some o → o.getCellPos.Within (2 ^ 28)

/-- `FindPath` returns, between cells with small coordinates. -/
theorem findPath_returns (h : Good Anyone st pins) {src dest : VectorInt} (hsrc : src.Within (2 ^ 28)) (hdest : dest.Within (2 ^ 28))
    (pick : Pick) : ∃ n, ∀ fuel, n ≤ fuel → ∃ ret, findPath st.game.canGo pick src 10 fuel dest = .ok ret := by
  have hrange : dest.dist src < 2 ^ 31 := by
    have := hdest.dist hsrc
    omega
  have h10 : (10 : Int32).toInt = 10 := rfl
  by_cases hfar : (10 : Int32) ≤ (dest.sub src).taxicab
  · exact ⟨0, fun fuel _ => ⟨none, findPath_far hfar⟩⟩
  · have hnear : (dest.dist src : ℤ) < (10 : Int32).toInt := by
      rw [Int32.le_iff_toInt_le, taxicab_toInt hrange] at hfar
      omega
    have hsole := sole_zero (by rw [h10]; decide) hnear st.game.mapped
    obtain ⟨n, path, hpath, -⟩ : ∃ n path,
        (∀ fuel, n ≤ fuel → findPath st.game.canGo pick src 10 fuel dest = .ok (some path)) ∧ _ :=
      findPath_found h.live.canGo hsole hfar
    exact ⟨n, fun fuel hfuel => ⟨some path, hpath fuel hfuel⟩⟩

/-- ... so it ends. -/
theorem pathEnds_within (h : Good Anyone st pins) {src dest : VectorInt} (hsrc : src.Within (2 ^ 28)) (hdest : dest.Within (2 ^ 28)) :
    PathEnds st.game.canGo src dest := by
  obtain ⟨n, hn⟩ := findPath_returns h hsrc hdest fun _ => 0
  obtain ⟨ret, hret⟩ := hn n (Nat.le_refl n)
  exact pathEnds_of_ok st.game.mapped h.live.canGo hret

/-- The search that the monster `m` makes in its turn ends: that for the way to its target, when
it is idle and the target is not beside it. -/
def Room.PlanEnds (room : Room) (m : Ref) : Prop :=
  ∀ (o : GameObject) (fields : Monster) (t : Ref) (p : GameObject), room.objects[m]? = some o → o.kind = .monster fields →
    o.info.state = .idle → room.lock fields.target = some t → room.objects[t]? = some p →
    (p.getCellPos.sub o.getCellPos).taxicab ≠ 1 → PathEnds room.canGo o.getCellPos p.getCellPos

theorem Scene.Near.planEnds (hnear : st.game.toScene.Near) (h : Good Anyone st []) (hm : Monstrous st m o fields) : st.game.PlanEnds m := by
  intro o' fields' t p ho hk _ hlock hp _
  obtain rfl : o = o' := Option.some.inj (hm.object.symm.trans ho)
  obtain rfl : fields = fields' := Kind.monster.inj (hm.kind.symm.trans hk)
  obtain ⟨-, hplayer, -⟩ := hm.prey h hlock
  exact pathEnds_within h (hnear m o hm.inside ho) (hnear t p (.inl hplayer) hp)

theorem findClosestPlayer_returns (h : Good Anyone st pins) (cellPos : VectorInt) :
    ∃ ret, st.game.findClosestPlayer cellPos = .ok ret := by
  have hfold : Returns (st.game.findClosestPlayer cellPos) fun _ => True := by
    rw [findClosestPlayer_fold]
    refine Post.bind (P := fun _ => True) (Post.foldlM (I := fun _ => True) _ ?_ trivial) fun _ _ => .ok trivial
    intro p r hr _
    have hin : st.game.Inside r := .inl (h.core.elements_players hr)
    obtain ⟨o, ho, -⟩ := h.core.inside_room hin
    unfold Room.nearer
    rw [h.deref ho (.inl hin)]
    exact .ok trivial
  obtain ⟨ret, hret, -⟩ := returns_iff.1 hfold
  exact ⟨ret, hret⟩

theorem Monstrous.member (h : Good Anyone st pins) (hm : Monstrous st m o fields) : st.game.monsters[key m]? = some m := by
  have htyped := h.core.typed m o hm.object
  unfold GameObject.Typed at htyped
  rw [hm.kind] at htyped
  exact (h.core.inside_roster hm.object (show _ = some Roster.monsters by rw [htyped]; rfl)).1 hm.inside

/-- `SetState` without broadcast returns. -/
theorem quiet_returns (h : Good Anyone st pins) (hin : st.game.Inside m) (ho : st.game.objects[m]? = some o) (state : ObjectState) :
    ∃ st', Game.setState post fuel m state false st = .ok st' := by
  unfold Game.setState
  rw [h.deref ho (.inl hin), ok_bind]
  split
  · exact ⟨st, rfl⟩
  · exact ⟨_, rfl⟩

/-- `SetState` with broadcast returns. -/
theorem setState_returns (h : Good Anyone st pins) (hin : st.game.Inside m) (ho : st.game.objects[m]? = some o)
    (hshort : o.info.tail ≤ 64) (hfuel : st.game.players.toList.length < fuel) (state : ObjectState) :
    ∃ st', Game.setState post fuel m state true st = .ok st' := by
  unfold Game.setState
  rw [h.deref ho (.inl hin), ok_bind]
  split
  · exact ⟨st, rfl⟩
  have ho₁ : (st.update (·.modifyInfo m fun info => { info with state := state })).game.objects[m]? =
      some { o with info := { o.info with state := state } } := modify_self ho
  unfold Game.broadcastMove
  rw [if_pos rfl, h.inState.deref ho₁ (.inl hin), ok_bind]
  split
  · have hsize : (Msg.move { o.info with state := state }).serialize.length < 65532 := by
      have hinfo : ({ o.info with state := state } : ObjectInfo).tail ≤ 64 := hshort
      have hfield := field_length (k := 1) hinfo
      change (bytesField 1 _).length < _
      omega
    have hgood : Good Anyone (st.update (·.modifyInfo m fun info => { info with state := state })) pins := h.inState
    obtain ⟨st', hst', -⟩ := say_returns hgood hfuel hsize
    exact ⟨st', hst'⟩
  · exact ⟨_, rfl⟩

theorem monster_returns (h : Good Anyone st pins) (hm : Monstrous st m o fields) : Game.monster m st = .ok fields := by
  unfold Game.monster
  rw [h.deref hm.object (.inl hm.inside), ok_bind, hm.kind]

theorem pursue_returns {t : Ref} {p : GameObject} (h : Good Anyone st pins) (hm : Monstrous st m o fields)
    (hp : st.game.objects[t]? = some p) (hint : st.game.Inside t)
    (hends : (p.getCellPos.sub o.getCellPos).taxicab ≠ 1 → PathEnds st.game.canGo o.getCellPos p.getCellPos)
    (hshort : o.info.tail ≤ 64) (pick : Pick) :
    ∃ n, ∀ fuel, n ≤ fuel → st.game.players.toList.length < fuel → ∃ st', Game.pursue post pick fuel m t st = .ok st' := by
  have hsearch : ∃ n, (p.getCellPos.sub o.getCellPos).taxicab ≠ 1 → ∃ ret, ∀ fuel, n ≤ fuel →
      findPath st.game.canGo pick o.getCellPos 10 fuel p.getCellPos = .ok ret := by
    by_cases hbeside : (p.getCellPos.sub o.getCellPos).taxicab = 1
    · exact ⟨0, fun hfar => absurd hbeside hfar⟩
    · obtain ⟨n, ret, hret, -⟩ := (hends hbeside).returns st.game.mapped h.live.canGo pick
      exact ⟨n, fun _ => ⟨ret, hret⟩⟩
  obtain ⟨n, hn⟩ := hsearch
  refine ⟨n, fun fuel hfuel hplayers => ?_⟩
  obtain ⟨hin, ho, hk⟩ := id hm
  unfold Game.pursue
  rw [h.deref ho (.inl hin), ok_bind, h.deref hp (.inl hint), ok_bind]
  split
  · rw [getTickCount64_eq]
    dsimp only
    rw [monster_returns h.tick ⟨hin, ho, hk⟩, ok_bind]
    split
    · exact ⟨_, rfl⟩
    have ho₁ : (Game.setDir m (o.getLookAtDir p.getCellPos) (tick st)).game.objects[m]? =
        some { o with info := { o.info with dir := o.getLookAtDir p.getCellPos } } := modify_self ho
    obtain ⟨st₂, hst₂⟩ := setState_returns h.tick.setDir hin ho₁ hshort hplayers .skill
    rw [hst₂]
    exact ⟨_, rfl⟩
  · rename_i hfar
    obtain ⟨ret, hret⟩ := hn hfar
    rw [show Game.findPath pick fuel o.getCellPos p.getCellPos st = .ok ret from hret fuel hfuel, ok_bind]
    cases ret with
    | none => exact ⟨_, rfl⟩
    | some path =>
      obtain ⟨hne, -⟩ := findPath_spec.result (hret fuel hfuel) path rfl
      cases path with
      | nil => exact absurd rfl hne
      | cons pos path =>
        cases path with
        | nil => exact ⟨_, rfl⟩
        | cons next path =>
          obtain ⟨go, hgo⟩ := h.live.canGo next
          dsimp only
          rw [hgo, ok_bind]
          split
          · rw [getTickCount64_eq]
            dsimp only
            obtain ⟨hmoved, hscene⟩ := stepped_good h ho hk next
            have ho₁ : (st.game.toScene.set m (o.become { o.info with dir := o.getLookAtDir next, posx := next.x, posy := next.y }
                { fields with waitMoveUntil := clockNow st.game.ticks + 1000 })).objects[m]? = some _ := set_self ho
            rw [← hscene] at ho₁
            exact setState_returns hmoved hin ho₁ hshort hplayers .move
          · exact ⟨_, rfl⟩

/-- The choice of the next target does not change where one can go. -/
theorem Good.canGo_chosen (h : Good Anyone st []) (closest : Option Ref)
    (hgood : Good Anyone (Game.modifyMonster m (fun fields => { fields with target := closest }) (st.update (·.retain t))) pins) :
    (Game.modifyMonster m (fun fields => { fields with target := closest }) (st.update (·.retain t))).game.canGo = st.game.canGo := by
  refine h.canGo_same hgood rfl rfl rfl fun r => ?_
  exact modify_cell (t := m) (f := fun o => o.onFields fun fields => { fields with target := closest })
    fun _ => onFields_cell

theorem updateIdle_returns (h : Good Anyone st []) (hm : Monstrous st m o fields) (hstate : o.info.state = .idle)
    (hends : st.game.PlanEnds m) (hshort : st.game.toScene.Short) (pick : Pick) :
    ∃ n, ∀ fuel, n ≤ fuel → ∃ st', Game.updateIdle post pick fuel m st = .ok st' := by
  obtain ⟨hin, ho, hk⟩ := id hm
  have hroom : o.room = true := h.core.room_of hin ho
  obtain ⟨closest, hclosest⟩ := findClosestPlayer_returns h o.getCellPos
  cases hlock : st.game.lock fields.target with
  | none =>
    refine ⟨0, fun fuel _ => ?_⟩
    unfold Game.updateIdle
    rw [h.deref ho (.inl hin), ok_bind, if_neg (by rw [hroom]; decide), monster_returns h hm, ok_bind]
    simp only [hlock]
    rw [hclosest]
    exact ⟨_, rfl⟩
  | some t =>
    obtain ⟨hne, hplayer, p, hp, -⟩ := hm.prey h hlock
    obtain ⟨closest, hclosest⟩ := findClosestPlayer_returns (h.retain (r := t)) o.getCellPos
    obtain ⟨hgood, -⟩ := (h.retain (r := t)).choose (B := Told) (U := Whisper) (r := m) (findClosestPlayer_spec.result hclosest)
    have ho₁ : (Game.modifyMonster m (fun fields => { fields with target := closest }) (st.update (·.retain t))).game.objects[m]? =
        some (o.onFields fun fields => { fields with target := closest }) := modify_self ho
    rw [onFields_become hk] at ho₁
    have hp₁ : (Game.modifyMonster m (fun fields => { fields with target := closest }) (st.update (·.retain t))).game.objects[t]? =
        some p := (modify_ne hne).trans hp
    have hsearch : (p.getCellPos.sub o.getCellPos).taxicab ≠ 1 →
        PathEnds (Game.modifyMonster m (fun fields => { fields with target := closest }) (st.update (·.retain t))).game.canGo
          o.getCellPos p.getCellPos := by
      intro hfar
      rw [h.canGo_chosen closest hgood]
      exact hends o fields t p ho hk hstate hlock hp hfar
    obtain ⟨n, hn⟩ := pursue_returns hgood ⟨hin, ho₁, rfl⟩ hp₁ (.inl hplayer) hsearch (hshort m o ho) pick
    refine ⟨max n (st.game.players.toList.length + 1), fun fuel hfuel => ?_⟩
    obtain ⟨st₃, hst₃⟩ := hn fuel (le_of_max_le_left hfuel) (le_of_max_le_right hfuel)
    unfold Game.updateIdle
    rw [h.deref ho (.inl hin), ok_bind, if_neg (by rw [hroom]; decide), monster_returns h hm, ok_bind]
    simp only [hlock]
    rw [hclosest, ok_bind, hst₃]
    exact ⟨_, rfl⟩

theorem updateSkill_returns (h : Good Anyone st []) (hm : Monstrous st m o fields) (hshort : st.game.toScene.Short)
    (hfuel : st.game.players.toList.length < fuel) : ∃ st', Game.updateSkill post fuel m st = .ok st' := by
  obtain ⟨hin, ho, hk⟩ := id hm
  unfold Game.updateSkill
  rw [monster_returns h hm, ok_bind]
  cases hlock : st.game.lock fields.target with
  | none => exact ⟨_, rfl⟩
  | some t =>
    obtain ⟨hne, hplayer, p, hp, htype⟩ := hm.prey h hlock
    have h₁ : Good Anyone (st.update (·.retain t)) [t] := h.retain
    have hdamage : IfReturns (Game.damage post fuel m t (st.update (·.retain t))) fun st' => Good Anyone st' [t] ∧
        st'.game = (st.update (·.retain t)).game.modifyInfo t (·.hurt o.info.attack) ∧
        Strikes Told (st.update (·.retain t)).stage m t (p.info.hurt o.info.attack) st'.stage :=
      damage_spec speaks_post h₁ hne.symm hin (.inl hplayer) ho hp
    obtain ⟨st₂, hst₂, hgame₂⟩ := damage_returns h₁ hne.symm hin (.inl hplayer) ho hp (hshort m o ho) (hshort t p hp) hfuel
    obtain ⟨hgood₂, -, -⟩ := hdamage.result hst₂
    dsimp only
    rw [hst₂, ok_bind]
    obtain ⟨hp₂, ho₂⟩ := hurt_objects hgame₂ hne.symm ho hp
    have hplayers₂ : st₂.game.players = st.game.players := by
      rw [hgame₂]
      rfl
    have hin₂ : st₂.game.Inside m := by
      rw [hgame₂]
      exact hin
    rw [hgood₂.deref hp₂ (.inr List.mem_cons_self), ok_bind]
    dsimp only
    split
    · have hgood₃ := hgood₂.clear (m := m)
      have ho₃ : (Game.modifyMonster m (fun fields => { fields with target := none }) st₂).game.objects[m]? =
          some (o.onFields fun fields => { fields with target := none }) := modify_self ho₂
      rw [onFields_become hk] at ho₃
      have hp₃ : (Game.modifyMonster m (fun fields => { fields with target := none }) st₂).game.objects[t]? =
          some { p with info := p.info.hurt o.info.attack } := (modify_ne hne).trans hp₂
      have hplayer₃ : (Game.modifyMonster m (fun fields => { fields with target := none }) st₂).game.players[key t]? = some t := by
        show st₂.game.players[key t]? = some t
        rw [hplayers₂]
        exact hplayer
      obtain ⟨st₄, hst₄⟩ := removeObject_returns (p.info.hurt o.info.attack).objectid hgood₃
        (show st₂.game.players.toList.length < fuel by rw [hplayers₂]; exact hfuel)
      have hid : (p.info.hurt o.info.attack).objectid = key t := h.core.id t p hp
      have hroom : ¬ (o.become o.info { fields with target := none }).room = false := by
        have hroom : o.room = true := h.core.room_of hin ho
        show ¬ o.room = false
        rw [hroom]
        decide
      rw [hgood₃.deref ho₃ (.inl hin₂), ok_bind, if_neg hroom, hst₄, ok_bind]
      -- the monster is as before when the player has left
      rw [hid] at hst₄
      obtain ⟨hy, -⟩ := (removeObject_told hgood₃ hplayer₃ hp₃ htype).result hst₄
      have ho₄ : st₄.game.objects[m]? = some (o.become o.info { fields with target := none }) := by
        rw [hy.scene]
        exact (modify_ne hne.symm).trans ho₃
      have hmonster₄ : st₄.game.Inside m := by
        rw [hy.scene]
        right
        show st₂.game.monsters[key m]? = some m
        rw [hgame₂]
        show st.game.monsters[key m]? = some m
        exact hm.member h
      obtain ⟨st₅, hst₅⟩ := quiet_returns hy.good hmonster₄ ho₄ .idle
      rw [hst₅]
      exact ⟨_, rfl⟩
    · obtain ⟨st₃, hst₃⟩ := quiet_returns hgood₂ hin₂ ho₂ .idle
      rw [ok_bind, hst₃]
      exact ⟨_, rfl⟩

/-- **A monster's update returns** if its search ends. -/
theorem updateMonster_returns (h : Good Anyone st []) (hm : Monstrous st m o fields) (hends : st.game.PlanEnds m)
    (hshort : st.game.toScene.Short) (pick : Pick) :
    ∃ n, ∀ fuel, n ≤ fuel → ∃ st', Game.updateMonster post pick fuel m st = .ok st' := by
  cases hstate : o.info.state with
  | idle =>
    obtain ⟨n, hn⟩ := updateIdle_returns h hm hstate hends hshort pick
    refine ⟨n, fun fuel hfuel => ?_⟩
    unfold Game.updateMonster
    rw [h.deref hm.object (.inl hm.inside), ok_bind, hstate]
    exact hn fuel hfuel
  | move =>
    refine ⟨0, fun fuel _ => ?_⟩
    unfold Game.updateMonster
    rw [h.deref hm.object (.inl hm.inside), ok_bind, hstate]
    unfold Game.updateMove
    rw [getTickCount64_eq]
    dsimp only
    rw [monster_returns h.tick ⟨hm.inside, hm.object, hm.kind⟩, ok_bind]
    split
    · exact ⟨_, rfl⟩
    · exact quiet_returns h.tick hm.inside hm.object .idle
  | skill =>
    refine ⟨st.game.players.toList.length + 1, fun fuel hfuel => ?_⟩
    unfold Game.updateMonster
    rw [h.deref hm.object (.inl hm.inside), ok_bind, hstate]
    exact updateSkill_returns h hm hshort hfuel
  | other n =>
    refine ⟨0, fun fuel _ => ?_⟩
    unfold Game.updateMonster
    rw [h.deref hm.object (.inl hm.inside), ok_bind, hstate]
    exact ⟨st, rfl⟩

/-- What has been pursued has been searched for. -/
theorem pursue_planned {t : Ref} {p : GameObject} (h : Good Anyone st pins) (ho : st.game.objects[m]? = some o)
    (hp : st.game.objects[t]? = some p) (hfar : (p.getCellPos.sub o.getCellPos).taxicab ≠ 1) :
    IfReturns (Game.pursue post pick fuel m t st) fun _ => PathEnds st.game.canGo o.getCellPos p.getCellPos := by
  unfold Game.pursue
  refine (deref_eq ho).bind fun o' ho' => ?_
  refine (deref_eq hp).bind fun p' hp' => ?_
  rw [ho', hp', if_neg hfar]
  refine ifReturns_self.bind fun ret hret => ifReturns_iff.2 fun _ _ => ?_
  exact pathEnds_of_ok st.game.mapped h.live.canGo hret

/-- ... and **only if** its search ends. -/
theorem updateMonster_planned (h : Good Anyone st []) (hm : Monstrous st m o fields) :
    IfReturns (Game.updateMonster post pick fuel m st) fun _ => st.game.PlanEnds m := by
  refine ifReturns_iff.2 fun st' hst' o' fields' t p ho' hk' hidle hlock hp hfar => ?_
  obtain rfl : o = o' := Option.some.inj (hm.object.symm.trans ho')
  obtain rfl : fields = fields' := Kind.monster.inj (hm.kind.symm.trans hk')
  have hroom : o.room = true := h.core.room_of hm.inside ho'
  obtain ⟨hne, -⟩ := hm.prey h hlock
  have hplanned : IfReturns (Game.updateIdle post pick fuel m st) fun _ => PathEnds st.game.canGo o.getCellPos p.getCellPos := by
    unfold Game.updateIdle
    refine (deref_eq ho').bind fun o₁ ho₁ => ?_
    rw [ho₁, if_neg (by rw [hroom]; decide)]
    refine (monster_eq ho' hk').bind fun fields₁ hfields => ?_
    rw [hfields]
    simp only [hlock]
    refine ifReturns_self.bind fun closest hclosest => ?_
    obtain ⟨hgood, -⟩ := (h.retain (r := t)).choose (B := Told) (U := Whisper) (r := m) (findClosestPlayer_spec.result hclosest)
    have ho₂ : (Game.modifyMonster m (fun fields => { fields with target := closest }) (st.update (·.retain t))).game.objects[m]? =
        some (o.onFields fun fields => { fields with target := closest }) := modify_self ho'
    rw [onFields_become hk'] at ho₂
    have hp₂ : (Game.modifyMonster m (fun fields => { fields with target := closest }) (st.update (·.retain t))).game.objects[t]? =
        some p := (modify_ne hne).trans hp
    rw [← h.canGo_chosen closest hgood]
    exact (pursue_planned hgood ho₂ hp₂ hfar).bind fun _ hends => .ok hends
  unfold Game.updateMonster at hst'
  rw [h.deref ho' (.inl hm.inside), ok_bind, hidle] at hst'
  exact hplanned.result hst'

/-- The records of the objects are short in every run. -/
theorem run_short {ops : List RoomOp} (h : Runs RoomStep roomStart ops st) : st.game.toScene.Short := by
  induction h with
  | nil => intro r o ho; simp [roomStart] at ho
  | snoc hruns hstep ih =>
    obtain ⟨-, acts, hacts, -⟩ := roomStep_acts (run_good hruns).1 hstep
    exact hacts.invariant (P := fun v => v.game.Short) ih fun _ _ _ hshort hact => hact.short hshort

/-! ## The step -/

/-- What looks to a cell beside it has this cell in front of it. -/
theorem stepping_front {next : VectorInt} (h : o.getCellPos.dist next = 1) :
    { o with info := { o.info with dir := (o.stepping next).dir } }.getFrontCellPos = next := by
  have h0 : (0 : Int32).toInt = 0 := rfl
  have h1 : (1 : Int32).toInt = 1 := rfl
  have hneg : (-1 : Int32).toInt = -1 := rfl
  have hdist : (o.info.posx.toInt - next.x.toInt).natAbs + (o.info.posy.toInt - next.y.toInt).natAbs = 1 := h
  have hx' := next.x.toInt_lt
  have hx'' := next.x.le_toInt
  have hy' := next.y.toInt_lt
  have hy'' := next.y.le_toInt
  have hx : (next.sub o.getCellPos).x.toInt = next.x.toInt - o.info.posx.toInt :=
    toInt_sub (by show _ ≤ _ - o.info.posx.toInt; omega) (by show _ - o.info.posx.toInt < _; omega)
  have hy : (next.sub o.getCellPos).y.toInt = next.y.toInt - o.info.posy.toInt :=
    toInt_sub (by show _ ≤ _ - o.info.posy.toInt; omega) (by show _ - o.info.posy.toInt < _; omega)
  have hadd : ∀ (c d : VectorInt), c.x.toInt + d.x.toInt = next.x.toInt → c.y.toInt + d.y.toInt = next.y.toInt → c.add d = next := by
    intro c d hcx hcy
    have hsx : (c.add d).x.toInt = next.x.toInt := (toInt_add (by omega) (by omega)).trans hcx
    have hsy : (c.add d).y.toInt = next.y.toInt := (toInt_add (by omega) (by omega)).trans hcy
    exact VectorInt.ext_toInt hsx hsy
  unfold GameObject.getFrontCellPos GameObject.stepping GameObject.getLookAtDir
  simp only [gt_iff_lt, Int32.lt_iff_toInt_lt, hx, hy, h0]
  by_cases hright : 0 < next.x.toInt - o.info.posx.toInt
  · rw [if_pos hright]
    apply hadd
    · show o.info.posx.toInt + (1 : Int32).toInt = _
      omega
    · show o.info.posy.toInt + (0 : Int32).toInt = _
      omega
  rw [if_neg hright]
  by_cases hleft : next.x.toInt - o.info.posx.toInt < 0
  · rw [if_pos hleft]
    apply hadd
    · show o.info.posx.toInt + (-1 : Int32).toInt = _
      omega
    · show o.info.posy.toInt + (0 : Int32).toInt = _
      omega
  rw [if_neg hleft]
  by_cases hdown : 0 < next.y.toInt - o.info.posy.toInt
  · rw [if_pos hdown]
    apply hadd
    · show o.info.posx.toInt + (0 : Int32).toInt = _
      omega
    · show o.info.posy.toInt + (1 : Int32).toInt = _
      omega
  · rw [if_neg hdown]
    apply hadd
    · show o.info.posx.toInt + (0 : Int32).toInt = _
      omega
    · show o.info.posy.toInt + (-1 : Int32).toInt = _
      omega

/-- The cells when one object is replaced. -/
theorem set_cell {o' : GameObject} (ho : sc.objects[m]? = some o) (hcell : o'.getCellPos = o.getCellPos) :
    (sc.set m o').cell r = sc.cell r := by
  unfold Scene.cell
  by_cases hr : r = m
  · rw [hr, set_self ho, ho]
    exact congrArg some hcell
  · rw [set_ne hr]

theorem drop_cell {which : Roster} {k : UInt64} : (sc.drop which t k).cell r = sc.cell r := by
  unfold Scene.drop
  rw [modify_cell (by intro o; rfl)]
  cases which with
  | players => rfl
  | monsters => rfl

theorem hurt_cell {attack : Int32} : (sc.modifyInfo t (·.hurt attack)).cell r = sc.cell r :=
  modify_cell fun _ => rfl

/-- A turn that makes a step. -/
structure Steps (m : Ref) (o : GameObject) (fields : Monster) (next : VectorInt) (st st' : Game Outboxes) : Prop where
  idle : o.info.state = .idle
  target : ∃ t p, st.game.lock fields.target = some t ∧ st.game.objects[t]? = some p ∧ (p.getCellPos.sub o.getCellPos).taxicab ≠ 1
  beside : o.getCellPos.dist next = 1
  free : st.game.tilemap.Free next
  vacant : st.game.toScene.Vacant next
  scene : ∃ closest, st'.game.toScene = st.game.toScene.set m (o.become (o.stepping next)
    { fields with target := closest, waitMoveUntil := clockNow st.game.ticks + 1000 })
  ticks : st'.game.ticks = clockLater st.game.ticks
  told : Told st.game.toScene (.move (o.stepping next)) st.net st'.net

/-- A turn that makes no step leaves the cells as they are. -/
theorem MonsterTurn.cells (h : Good Anyone st []) (hm : Monstrous st m o fields) (hturn : MonsterTurn m o fields st st') :
    (∀ r, st'.game.cell r = st.game.cell r) ∨ ∃ next, Steps m o fields next st st' := by
  have ho := hm.object
  have hset : ∀ {o' : GameObject} {ticks : List UInt64}, Yields [] st (st.game.toScene.set m o') ticks st' →
      o'.getCellPos = o.getCellPos → ∀ r, st'.game.cell r = st.game.cell r := by
    intro o' ticks hy hcell r
    rw [hy.scene]
    exact set_cell ho hcell
  cases hturn with
  | seeks _ _ _ hy => exact .inl (hset hy rfl)
  | pursues hidle hlock hp _ hpursues =>
    cases hpursues with
    | waits hy => exact .inl (hset hy rfl)
    | faces _ _ hy => exact .inl (hset hy rfl)
    | steps hfar hbeside hfree hvacant hy htold =>
      exact .inr ⟨_, hidle, ⟨_, _, hlock, hp, hfar⟩, hbeside, hfree, hvacant, ⟨_, hy.scene⟩, hy.ticks, htold⟩
  | walks _ _ hy =>
    left
    intro r
    rw [hy.scene]
  | halts _ _ hy => exact .inl (hset hy rfl)
  | misses _ _ heq =>
    left
    intro r
    rw [heq]
  | hits _ hlock _ _ hy =>
    left
    intro r
    rw [hy.scene, set_cell (hm.unhurt h hlock) (by rfl), hurt_cell]
  | kills _ hlock _ _ hy =>
    left
    intro r
    rw [hy.scene, set_cell (hm.undropped h hlock) (by rfl), drop_cell, set_cell (hm.unhurt h hlock) (by rfl), hurt_cell]
  | rests _ heq =>
    left
    intro r
    rw [heq]

/-- **The step of a monster.** One `Monster::Update` returns; it moves no object but the monster,
and the monster only when it was idle and has a living target that is not beside it: to a
cell beside it that is free on the map and was vacant, which it then looks at in the state
MOVE; this record is told once to every player. -/
theorem monster_step {k : UInt64} (h : Good Anyone st []) (hmem : st.game.monsters[k]? = some m) (hnear : st.game.toScene.Near)
    (pick : Pick) :
    (st.game.toScene.Short → ∃ n, ∀ fuel, n ≤ fuel → ∃ st', Game.updateMonster post pick fuel m st = .ok st') ∧
    ∀ fuel st', Game.updateMonster post pick fuel m st = .ok st' →
      (∀ r, r ≠ m → st'.game.cell r = st.game.cell r) ∧
      (st'.game.cell m ≠ st.game.cell m → ∃ (o o' : GameObject) (fields : Monster) (t : Ref) (p : GameObject) (next : VectorInt),
        st.game.objects[m]? = some o ∧ o.kind = .monster fields ∧ o.info.state = .idle ∧
        st.game.lock fields.target = some t ∧ st.game.objects[t]? = some p ∧ o.getCellPos.dist p.getCellPos ≠ 1 ∧
        o.getCellPos.dist next = 1 ∧ st.game.tilemap.Has next ∧ st.game.tilemap.Free next ∧ st.game.toScene.Vacant next ∧
        st'.game.objects[m]? = some o' ∧ o'.getCellPos = next ∧ o'.info.state = .move ∧
        { o with info := { o.info with dir := o'.info.dir } }.getFrontCellPos = next ∧
        Told st.game.toScene (.move o'.info) st.net st'.net) := by
  obtain ⟨-, o, fields, hm⟩ := h.monstrous hmem
  refine ⟨fun hshort => updateMonster_returns h hm (hnear.planEnds h hm) hshort pick, ?_⟩
  intro fuel st' hst'
  have hturn := (updateMonster_turn h hm).result hst'
  rcases hturn.cells h hm with hsame | ⟨next, hsteps⟩
  · exact ⟨fun r _ => hsame r, fun hmoved => absurd (hsame m) hmoved⟩
  obtain ⟨t, p, hlock, hp, hfar⟩ := hsteps.target
  obtain ⟨closest, hscene⟩ := hsteps.scene
  refine ⟨?_, fun _ => ?_⟩
  · intro r hr
    unfold Scene.cell
    rw [hscene, set_ne hr]
  · refine ⟨o, _, fields, t, p, next, hm.object, hm.kind, hsteps.idle, hlock, hp, ?_, hsteps.beside, hsteps.free.has, hsteps.free,
      hsteps.vacant, hscene ▸ set_self hm.object, rfl, rfl, stepping_front hsteps.beside, hsteps.told⟩
    intro hone
    -- the distance is the one that was computed
    have hplayer := (hm.prey h hlock).2.1
    have hrange := (hnear m o hm.inside hm.object).dist (hnear t p (.inl hplayer) hp)
    apply hfar
    apply Int32.toInt_inj.1
    rw [taxicab_toInt (by rw [VectorInt.dist_comm]; omega), VectorInt.dist_comm, hone]
    rfl

/-- Where the objects are. -/
def Scene.survey (sc : Scene) : List VectorInt := sc.objects.map GameObject.getCellPos

theorem survey_near {l : List VectorInt} (h : sc.survey = l) (hl : ∀ c ∈ l, c.Within (2 ^ 28)) : sc.Near := by
  intro r o _ ho
  apply hl
  rw [← h]
  exact List.mem_map.2 ⟨o, List.mem_of_getElem? ho, rfl⟩

/-- On the meadow the monster at `(8, 8)` steps towards the player at `(5, 5)`. -/
theorem monster_step_example : ∃ st st' : Game Outboxes,
    Runs RoomStep roomStart [.init meadow, .enterRoom 0, .update [1000] fun _ => 0] st ∧
    (∃ n, ∀ fuel, n ≤ fuel → ∃ st', Game.updateMonster post (fun _ => 0) fuel 0 st = .ok st') ∧
    Game.updateMonster post (fun _ => 0) 100 0 st = .ok st' ∧ st.game.cell 0 = some ⟨8, 8⟩ ∧ st'.game.cell 0 = some ⟨8, 7⟩ ∧
    ∃ o' : GameObject, st'.game.objects[0]? = some o' ∧ Told st.game.toScene (.move o'.info) st.net st'.net := by
  have hrun : ((([.init meadow, .enterRoom 0, .update [1000] fun _ => 0] : List RoomOp).foldlM roomExec roomStart).bind fun st =>
      ((Game.updateMonster post (fun _ => 0) 100 0 st).toOption.map fun st' =>
        (st.game.monsters[(1 : UInt64)]?, st.game.survey, st.game.cell 0, st'.game.cell 0))) =
      some (some 0, [⟨8, 8⟩, ⟨5, 5⟩], some ⟨8, 8⟩, some ⟨8, 7⟩) := by
    decide +kernel
  obtain ⟨st, hst, hrun⟩ := Option.bind_eq_some_iff.1 hrun
  obtain ⟨st', hst', hrun⟩ := Option.map_eq_some_iff.1 hrun
  obtain ⟨hmem, hrun⟩ := Prod.mk.inj hrun
  obtain ⟨hsurvey, hrun⟩ := Prod.mk.inj hrun
  obtain ⟨hcell, hcell'⟩ := Prod.mk.inj hrun
  have hruns := roomExec_runs hst
  have hnear : st.game.toScene.Near := by
    refine survey_near hsurvey ?_
    unfold VectorInt.Within
    decide
  obtain ⟨hreturns, hstep⟩ := monster_step (run_good hruns).1 hmem hnear fun _ => 0
  have hst' := toOption_eq_some.1 hst'
  obtain ⟨o, o', fields, t, p, next, -, -, -, -, -, -, -, -, -, -, ho', -, -, -, htold⟩ :=
    (hstep 100 st' hst').2 (by rw [hcell, hcell']; decide)
  exact ⟨st, st', hruns, hreturns (run_short hruns), hst', hcell, hcell', o', ho', htold⟩

end ZeldaServer
