import ZeldaServer.Proof.Creatures

/-!
# What the monsters do

A monster thinks, walks and attacks, and `_monsters` stays as it is: the loop of
`GameRoom::Update` visits every element.
-/

namespace ZeldaServer

open Lib Std

variable {ν : Type} {send : SessionId → Packet → Game ν → Outcome (Game ν)} {W : SessionId → ν → Prop}
  {B : Scene → Msg → ν → ν → Prop} {U : SessionId → Msg → ν → ν → Prop} {fuel : ℕ} {pick : Pick}
  {st st₁ : Game ν} {v v' : Stage ν} {pins : List Ref} {r : Ref} {o : GameObject} {sc : Scene} {id : UInt64}

/-- What the monster `r` may do. -/
def Label.Lives (r : Ref) (a : Label) : Prop := a = .think r ∨ (∃ told, a = .walk r told) ∨ Label.Attacks r a

/-! ## Thinking -/

/-- The change that `modifyMonster` makes. -/
def GameObject.onFields (f : Monster → Monster) (o : GameObject) : GameObject :=
  match o.kind with
  | .monster fields => { o with kind := .monster (f fields) }
  | .player _ => o

theorem onFields_info {f : Monster → Monster} : (o.onFields f).info = o.info := by
  unfold GameObject.onFields
  split <;> rfl

theorem onFields_cell {f : Monster → Monster} : (o.onFields f).getCellPos = o.getCellPos := by
  unfold GameObject.getCellPos
  rw [onFields_info]

/-- A cell stays vacant when no object moves. -/
theorem Scene.Vacant.modify {cellPos : VectorInt} (h : sc.Vacant cellPos) {f : GameObject → GameObject}
    (hf : ∀ o, (f o).getCellPos = o.getCellPos) : (sc.modify r f).Vacant cellPos := by
  intro r' o' hin' ho'
  rcases of_modify ho' with ⟨rfl, o, ho, rfl⟩ | ⟨-, ho⟩
  · rw [hf]
    exact h r' o hin' ho
  · exact h r' o' hin' ho

theorem modifyMonster_stage {f : Monster → Monster} : (Game.modifyMonster r f st).stage =
    ⟨st.net, st.game.toScene.modify r (GameObject.onFields f)⟩ := rfl

/-- The fields of the class and the record change independently. -/
theorem onFields_comm {f : Monster → Monster} {g : ObjectInfo → ObjectInfo} :
    (sc.modifyInfo r g).modify r (GameObject.onFields f) = (sc.modify r (GameObject.onFields f)).modifyInfo r g := by
  unfold Scene.modifyInfo
  rw [modify_modify, modify_modify]
  have hcomm : ∀ o, (GameObject.onFields f ∘ fun o => { o with info := g o.info }) o =
      ((fun o => { o with info := g o.info }) ∘ GameObject.onFields f) o := by
    intro o
    obtain ⟨info, room, kind⟩ := o
    cases kind with
    | player s => rfl
    | monster m => rfl
  rw [funext hcomm]

theorem Musing.fields {f : Monster → Monster} (hf : ∀ m : Monster, (f m).target = m.target ∨ (f m).target = none ∨
    ∃ (k : UInt64) (t : Ref), sc.players[k]? = some t ∧ (f m).target = some t) :
    Musing sc (GameObject.onFields f) := by
  refine ⟨fun o => ⟨o.info.state, onFields_info⟩, fun o => ?_, fun o s hk => ?_, fun o m hk => ⟨f m, ?_, hf m⟩⟩
  · unfold GameObject.onFields
    split <;> rfl
  · unfold GameObject.onFields
    simp only [hk]
  · unfold GameObject.onFields
    simp only [hk]

theorem Musing.inState (state : ObjectState) :
    Musing sc fun o => { o with info := { o.info with state := state } } :=
  ⟨fun _ => ⟨state, rfl⟩, fun _ => rfl, fun _ _ h => h, fun _ m h => ⟨m, h, .inl rfl⟩⟩

/-- A silent change of a monster. -/
theorem Good.muse (h : Good W st pins) {f : GameObject → GameObject} (hf : Musing st.game.toScene f) :
    Good W (st.update (·.modify r f)) pins ∧
      Act B U st.stage (.think r) (st.update (·.modify r f)).stage :=
  ⟨⟨h.core.muse hf, h.counted.modify⟩, .think hf⟩

/-- A change of the clocks of a monster. -/
theorem Good.clock (h : Good W st pins) {f : Monster → Monster} (hf : ∀ m, (f m).target = m.target) :
    Good W (Game.modifyMonster r f st) pins ∧
      Act B U st.stage (.think r) (Game.modifyMonster r f st).stage :=
  h.muse (.fields fun m => .inl (hf m))

/-- A look at the clock. -/
theorem tick_spec (h : Good W st pins) :
    ∃ now st₁, st.getTickCount64 = (now, st₁) ∧ Good W st₁ pins ∧ st₁.stage = st.stage := by
  have hroom : st.game.getTickCount64.2.toScene = st.game.toScene ∧
      st.game.getTickCount64.2.useCount = st.game.useCount := by
    unfold Room.getTickCount64
    split <;> exact ⟨rfl, rfl⟩
  obtain ⟨hscene, hcount⟩ := hroom
  have hstage : st.getTickCount64.2.stage = st.stage := congrArg (State.mk st.net) hscene
  refine ⟨_, _, rfl, ⟨hstage ▸ h.core, h.counted.of_same hcount ?_ ?_⟩, hstage⟩
  · exact congrArg Scene.players hscene
  · exact congrArg Scene.monsters hscene

theorem monster_spec : IfReturns (Game.monster r st) fun fields =>
    ∃ o, st.game.objects[r]? = some o ∧ o.kind = .monster fields := by
  unfold Game.monster
  refine deref_spec.bind fun o ho => ?_
  split
  · rename_i fields hk
    exact .ok ⟨o, ho.1, hk⟩
  · exact .error trivial

theorem lock_spec {room : Room} {p : Option Ref} (h : room.lock p = some r) :
    p = some r ∧ 0 < room.useCount r := by
  unfold Room.lock at h
  obtain ⟨hp, hpos⟩ := Option.filter_eq_some_iff.1 h
  exact ⟨hp, by simpa using hpos⟩

/-! ## Moving -/

/-- A monster changes its direction and cell, and then its state: all is told. -/
theorem walk_spec (hs : Speaks send W B) (hcore : Core W v) (hin : v.game.Inside r)
    (ho : v.game.objects[r]? = some o) {f : ObjectInfo → ObjectInfo} (hf : ∀ info, info.follow (f info) = f info)
    (hst : st.stage = { v with game := v.game.modifyInfo r f }) (hc : Counted st.game pins)
    (hcell : o.getCellPos = ⟨(f o.info).posx, (f o.info).posy⟩ ∨ v.game.Vacant ⟨(f o.info).posx, (f o.info).posy⟩)
    {state : ObjectState} (hstate : (f o.info).state ≠ state) :
    IfReturns (Game.setState send fuel r state true st) fun st' => Good W st' pins ∧
      st'.game.monsters = v.game.monsters ∧ ∃ told, Act B U v (.walk r told) st'.stage := by
  have hscene : st.game.toScene = v.game.modifyInfo r f := congrArg State.game hst
  have hnet : st.net = v.net := congrArg State.net hst
  have hid : ∀ info, (f info).objectid = info.objectid ∧ (f info).objecttype = info.objecttype := by
    intro info
    rw [← hf info]
    exact ⟨rfl, rfl⟩
  have hgood : Good W st pins := by
    refine ⟨?_, hc⟩
    rw [hst]
    exact hcore.modifyInfo (fun info => (hid info).1) fun info => (hid info).2
  have ho₁ : st.game.objects[r]? = some { o with info := f o.info } := by
    rw [hscene]
    exact modify_self ho
  unfold Game.setState
  refine (deref_eq ho₁).bind fun o' ho' => ?_
  rw [ho']
  dsimp only
  rw [if_neg hstate, if_pos rfl]
  have h₂ : Good W (st.update (·.modifyInfo r fun info => { info with state := state })) pins :=
    hgood.modifyInfo (fun _ => rfl) fun _ => rfl
  have ho₂ : (st.update (·.modifyInfo r fun info => { info with state := state })).game.objects[r]? =
      some { o with info := { f o.info with state := state } } := modify_self ho₁
  unfold Game.broadcastMove
  refine (deref_eq ho₂).bind fun o₂ ho₂' => ?_
  have hroom : o.room = true := hcore.room_of hin ho
  rw [ho₂', if_pos hroom]
  refine (say_spec hs h₂).imp fun st' h' => ?_
  obtain ⟨hgood', hgame', hB⟩ := h'
  -- the record that is told is the new one
  have htold : ({ f o.info with state := state } : ObjectInfo) =
      o.info.follow { f o.info with state := state } := by
    rw [← hf o.info]
    rfl
  have hchange : (v.game.modifyInfo r f).modifyInfo r (fun info => { info with state := state }) =
      v.game.modifyInfo r (·.follow { f o.info with state := state }) := by
    unfold Scene.modifyInfo
    rw [modify_modify]
    exact modify_congr ho (congrArg (fun info => { o with info := info }) htold)
  have hscene₂ : (st.update (·.modifyInfo r fun info => { info with state := state })).game.toScene =
      v.game.modifyInfo r (·.follow { f o.info with state := state }) := by
    rw [← hchange, ← hscene]
    rfl
  rw [hscene₂] at hB
  have hgame'' : st'.game.toScene = v.game.modifyInfo r (·.follow { f o.info with state := state }) := by
    rw [hgame', hscene₂]
  refine ⟨hgood', by rw [hgame'']; rfl, { f o.info with state := state }, ?_⟩
  have hstage : st'.stage = ⟨st'.net, v.game.modifyInfo r (·.follow { f o.info with state := state })⟩ := by
    unfold Game.stage
    rw [hgame'']
  rw [hstage]
  refine .walk hin ho htold hcell ?_
  rw [← hnet]
  exact hB

/-! ## The states of a monster -/

/-- `SetState` without broadcast. -/
theorem quiet_spec (h : Good W st pins) {state : ObjectState} :
    IfReturns (Game.setState send fuel r state false st) fun st' => Good W st' pins ∧
      st'.game.monsters = st.game.monsters ∧ Does B U (Label.Lives r) st.stage st'.stage := by
  unfold Game.setState
  refine deref_spec.bind fun o _ => ?_
  split
  · exact .ok ⟨h, rfl, .refl⟩
  · obtain ⟨hgood, hact⟩ := h.muse (r := r) (.inState state)
    exact .ok ⟨hgood, rfl, .act hact (.inl rfl)⟩

theorem Good.setDir (h : Good W st pins) {dir : Dir} : Good W (Game.setDir r dir st) pins :=
  h.modifyInfo (f := fun info => { info with dir := dir }) (fun _ => rfl) fun _ => rfl

theorem Good.setCellPos (h : Good W st pins) {pos : VectorInt} : Good W (Game.setCellPos r pos st) pins :=
  h.modifyInfo (f := fun info => { info with posx := pos.x, posy := pos.y }) (fun _ => rfl) fun _ => rfl

/-- A step to `pos`, made before or after the clock is set. -/
theorem step_stage {wait : Monster → Monster} {dir : Dir} {pos : VectorInt}
    (hst : st₁.stage = (Game.setCellPos r pos (Game.setDir r dir st)).stage) :
    (Game.modifyMonster r wait st₁).stage = { (Game.modifyMonster r wait st).stage with
      game := (Game.modifyMonster r wait st).stage.game.modifyInfo r
        ((fun info => { info with posx := pos.x, posy := pos.y }) ∘ fun info => { info with dir := dir }) } := by
  have hscene : st₁.game.toScene = st.game.toScene.modifyInfo r
      ((fun info => { info with posx := pos.x, posy := pos.y }) ∘ fun info => { info with dir := dir }) := by
    rw [show st₁.game.toScene = st₁.stage.game from rfl, hst]
    exact modify_modify _ _
  have hnet : st₁.net = st.net := by
    rw [show st₁.net = st₁.stage.net from rfl, hst]
    rfl
  rw [modifyMonster_stage, modifyMonster_stage, hscene, hnet, onFields_comm]

theorem pursue_spec (hs : Speaks send W B) (h : Good W st pins) (hin : st.game.toScene.Inside r)
    (ho : st.game.objects[r]? = some o) (hstate : o.info.state = .idle) {target : Ref} :
    IfReturns (Game.pursue send pick fuel r target st) fun st' => Good W st' pins ∧
      st'.game.monsters = st.game.monsters ∧ Does B U (Label.Lives r) st.stage st'.stage := by
  unfold Game.pursue
  refine (deref_eq ho).bind fun o' ho' => ?_
  refine deref_spec.bind fun t _ => ?_
  rw [ho']
  split
  · -- next to the target
    obtain ⟨now, st₁, htick, hgood₁, hstage₁⟩ := tick_spec h
    rw [htick]
    dsimp only
    refine monster_spec.bind fun fields _ => ?_
    split
    · have hmonsters : st₁.game.monsters = st.game.monsters := congrArg (·.game.monsters) hstage₁
      exact .ok ⟨hgood₁, hmonsters, hstage₁ ▸ .refl⟩
    generalize o.getLookAtDir t.getCellPos = dir
    have hst : (Game.setDir r dir st₁).stage =
        { st.stage with game := st.stage.game.modifyInfo r fun info => { info with dir := dir } } := by
      rw [← hstage₁]
      rfl
    have hne : o.info.state ≠ .skill := by rw [hstate]; decide
    refine (walk_spec (U := U) hs h.core hin ho (fun _ => rfl) hst hgood₁.counted.modify (.inl rfl) hne).bind
      fun st₂ h₂ => ?_
    obtain ⟨hgood₂, hmonsters₂, told, hwalk⟩ := h₂
    obtain ⟨now', st₃, htick, hgood₃, hstage₃⟩ := tick_spec hgood₂
    rw [htick]
    dsimp only
    obtain ⟨hgood₄, hact⟩ := hgood₃.clock (B := B) (U := U) (r := r)
      (f := fun fields => { fields with waitAttackUntil := now' + 1000 }) fun _ => rfl
    have hmonsters : st₃.game.monsters = st.game.monsters :=
      (congrArg (·.game.monsters) hstage₃).trans hmonsters₂
    rw [hstage₃] at hact
    exact .ok ⟨hgood₄, hmonsters, .trans (.act hwalk (.inr (.inl ⟨told, rfl⟩))) (.act hact (.inl rfl))⟩
  · refine findPath_spec.bind fun ret hret => ?_
    cases ret with
    | none => exact .ok ⟨h, rfl, .refl⟩
    | some path =>
      obtain ⟨hne, hone⟩ := hret path rfl
      cases path with
      | nil => exact absurd rfl hne
      | cons pos path =>
        cases path with
        | nil =>
          -- a path of one cell: the monster stays where it is
          have hpos := hone pos rfl
          have hsame : (st.game.toScene.modifyInfo r fun info => { info with posx := pos.x, posy := pos.y }) =
              st.game.toScene := modify_id ho (by rw [hpos]; rfl)
          have hstage : (Game.setCellPos r pos st).stage = st.stage := congrArg (State.mk st.net) hsame
          refine .ok ⟨⟨hstage ▸ h.core, h.counted.modify⟩, rfl, ?_⟩
          rw [hstage]
          exact .refl
        | cons nextPos path =>
          dsimp only
          refine canGo_spec.bind fun go hgo => ?_
          split
          · rename_i htrue
            have hvacant := hgo htrue
            generalize o.getLookAtDir nextPos = dir
            have hmoved : Good W (Game.setCellPos r nextPos (Game.setDir r dir st)) pins := h.setDir.setCellPos
            obtain ⟨now, st₁, htick, hgood₁, hstage₁⟩ := tick_spec hmoved
            rw [htick]
            dsimp only
            -- the clock is set first, and then the monster moves
            generalize hwait : (fun fields : Monster => { fields with waitMoveUntil := now + 1000 }) = wait
            have hkeep : ∀ m, (wait m).target = m.target := by
              intro m
              rw [← hwait]
            obtain ⟨hgood₂, hact⟩ := h.clock (B := B) (U := U) (r := r) hkeep
            have ho₂ : (Game.modifyMonster r wait st).stage.game.objects[r]? = some (o.onFields wait) := modify_self ho
            have hne : (o.onFields wait).info.state ≠ .move := by rw [onFields_info, hstate]; decide
            -- nobody came to the cell meanwhile
            have hvacant₂ : (Game.modifyMonster r wait st).stage.game.Vacant nextPos :=
              Scene.Vacant.modify hvacant fun o => onFields_cell
            refine (walk_spec (U := U) hs hgood₂.core hin ho₂ (fun _ => rfl) (step_stage hstage₁)
              hgood₁.counted.modify (.inr hvacant₂) hne).imp fun st' h' => ?_
            obtain ⟨hgood', hmonsters, told, hwalk⟩ := h'
            exact ⟨hgood', hmonsters, .trans (.act hact (.inl rfl)) (.act hwalk (.inr (.inl ⟨told, rfl⟩)))⟩
          · exact .ok ⟨h, rfl, .refl⟩

/-- The closest player is the new target. -/
theorem Good.choose (h : Good W st pins) {closest : Option Ref} (hclosest : ∀ t, closest = some t → t ∈ elements st.game.players) :
    Good W (Game.modifyMonster r (fun fields => { fields with target := closest }) st) pins ∧
      Act B U st.stage (.think r) (Game.modifyMonster r (fun fields => { fields with target := closest }) st).stage := by
  refine h.muse (.fields fun m => .inr ?_)
  cases closest with
  | none => exact .inl rfl
  | some t => exact .inr ⟨key t, t, h.core.elements_players (hclosest t rfl), rfl⟩

theorem updateIdle_spec (hs : Speaks send W B) (h : Good W st []) (hin : st.game.toScene.Inside r)
    (ho : st.game.objects[r]? = some o) (hstate : o.info.state = .idle) :
    IfReturns (Game.updateIdle send pick fuel r st) fun st' => Good W st' [] ∧
      st'.game.monsters = st.game.monsters ∧ Does B U (Label.Lives r) st.stage st'.stage := by
  unfold Game.updateIdle
  refine (deref_eq ho).bind fun o' ho' => ?_
  rw [ho']
  split
  · exact .ok ⟨h, rfl, .refl⟩
  refine monster_spec.bind fun fields _ => ?_
  cases st.game.lock fields.target with
  | none =>
    refine findClosestPlayer_spec.bind fun closest hclosest => ?_
    obtain ⟨hgood, hact⟩ := h.choose (B := B) (U := U) (r := r) hclosest
    exact .ok ⟨hgood, rfl, .act hact (.inl rfl)⟩
  | some target =>
    refine findClosestPlayer_spec.bind fun closest hclosest => ?_
    obtain ⟨hgood, hact⟩ := (h.retain (r := target)).choose (B := B) (U := U) (r := r) hclosest
    dsimp only
    have ho₁ : (Game.modifyMonster r (fun fields => { fields with target := closest })
        (st.update (·.retain target))).game.objects[r]? =
        some (o.onFields fun fields => { fields with target := closest }) := modify_self ho
    have hstate₁ : (o.onFields fun fields => { fields with target := closest }).info.state = .idle := by
      rw [onFields_info, hstate]
    refine (pursue_spec (U := U) hs hgood hin ho₁ hstate₁).bind fun st₂ h₂ => ?_
    obtain ⟨hgood₂, hmonsters, hdoes⟩ := h₂
    exact .ok ⟨hgood₂.release, hmonsters, .trans (.act hact (.inl rfl)) hdoes⟩

theorem updateMove_spec (h : Good W st []) :
    IfReturns (Game.updateMove send fuel r st) fun st' => Good W st' [] ∧
      st'.game.monsters = st.game.monsters ∧ Does B U (Label.Lives r) st.stage st'.stage := by
  unfold Game.updateMove
  obtain ⟨now, st₁, htick, hgood₁, hstage₁⟩ := tick_spec h
  rw [htick]
  dsimp only
  have hmonsters : st₁.game.monsters = st.game.monsters := congrArg (·.game.monsters) hstage₁
  refine monster_spec.bind fun fields _ => ?_
  split
  · exact .ok ⟨hgood₁, hmonsters, hstage₁ ▸ .refl⟩
  · rw [← hstage₁, ← hmonsters]
    exact quiet_spec hgood₁

/-- An object that a local variable or a map holds, when no local variable does. -/
theorem Good.inside (h : Good W st []) (hpos : 0 < st.game.useCount r) : st.game.toScene.Inside r := by
  have hcount := h.counted r
  rw [List.count_nil, Nat.add_zero] at hcount
  by_cases hp : 0 < heldIn st.game.players r
  · exact .inl (heldIn_pos.1 hp)
  · refine .inr (heldIn_pos.1 ?_)
    omega

/-- The removal of a player leaves the monsters as they are. -/
theorem Removes.monsters (h : Removes B v id v') (hp : v.game.players[id]? = some r)
    (ho : v.game.objects[r]? = some o) (ht : o.info.objecttype = .player) : v'.game.monsters = v.game.monsters := by
  have hfound : v.game.findObject id = some r := by
    unfold Scene.findObject
    rw [hp]
  cases h with
  | missing => rfl
  | found hf ho' ht' =>
    rw [hfound] at hf
    obtain rfl := Option.some.inj hf
    rw [ho] at ho'
    obtain rfl := Option.some.inj ho'
    rw [ht] at ht'
    obtain rfl := Option.some.inj ht'
    rfl

theorem updateSkill_spec (hs : Speaks send W B) (h : Good W st []) (hin : st.game.toScene.Inside r) :
    IfReturns (Game.updateSkill send fuel r st) fun st' => Good W st' [] ∧
      st'.game.monsters = st.game.monsters ∧ Does B U (Label.Lives r) st.stage st'.stage := by
  unfold Game.updateSkill
  refine monster_spec.bind fun fields hfields => ?_
  obtain ⟨o, ho, hkind⟩ := hfields
  cases hlock : st.game.lock fields.target with
  | none => exact .ok ⟨h, rfl, .refl⟩
  | some target =>
    obtain ⟨htarget, hpos⟩ := lock_spec hlock
    have hint := h.inside hpos
    obtain ⟨t, ht, htype⟩ := h.core.target r o fields target ho hkind htarget
    -- a monster attacks a player
    have hne : r ≠ target := by
      intro heq
      have htyped := h.core.typed r o ho
      unfold GameObject.Typed at htyped
      rw [hkind] at htyped
      rw [← heq, show st.stage.game.objects[r]? = some o from ho] at ht
      rw [← Option.some.inj ht] at htype
      rw [htyped] at htype
      cases htype
    have h₁ : Good W (st.update (·.retain target)) [target] := h.retain
    dsimp only
    refine (damage_spec hs h₁ hne hin hint ho ht).bind fun st₂ h₂ => ?_
    obtain ⟨hgood₂, hgame₂, hstrikes⟩ := h₂
    obtain ⟨ht₂, -⟩ := hurt_objects hgame₂ hne ho ht
    refine (deref_eq ht₂).bind fun t' ht' => ?_
    rw [ht']
    dsimp only
    -- what is left when the attack is over
    have hrest : ∀ {st₃ : Game ν}, Good W st₃ [target] → st₃.game.monsters = st.game.monsters →
        Does B U (Label.Lives r) st.stage st₃.stage →
        IfReturns (Game.setState send fuel r .idle false st₃ >>= fun st => .ok (st.update (·.release target)))
          fun st' => Good W st' [] ∧ st'.game.monsters = st.game.monsters ∧
            Does B U (Label.Lives r) st.stage st'.stage := by
      intro st₃ hgood₃ hmonsters₃ hdoes
      refine (quiet_spec (B := B) (U := U) hgood₃).bind fun st₄ h₄ => ?_
      obtain ⟨hgood₄, hmonsters₄, hquiet⟩ := h₄
      exact .ok ⟨hgood₄.release, hmonsters₄.trans hmonsters₃, hdoes.trans hquiet⟩
    have hmonsters₂ : st₂.game.monsters = st.game.monsters := by rw [hgame₂]; rfl
    split
    · rename_i hdead
      have hmuse : Musing st₂.game.toScene (GameObject.onFields fun fields => { fields with target := none }) :=
        .fields fun _ => .inr (.inl rfl)
      obtain ⟨hgood₃, -⟩ := hgood₂.muse (B := B) (U := U) (r := r) hmuse
      refine deref_spec.bind fun o₃ _ => ?_
      split
      · exact .error trivial
      refine (removeObject_spec hs hgood₃).bind fun st₄ h₄ => ?_
      obtain ⟨hgood₄, hremoves⟩ := h₄
      refine hrest hgood₄ ?_ (.act (.kill hstrikes hdead hmuse hremoves) (.inr (.inr ⟨target, .inr rfl⟩)))
      -- the target is a player
      have hplayers : st₂.game.players[t.info.objectid]? = some target := by
        rw [hgame₂, h.core.id target t ht]
        exact (h.core.inside_roster ht (show _ = some Roster.players by rw [htype]; rfl)).1 hint
      have ht₃ := (modify_ne (f := GameObject.onFields fun fields => { fields with target := none }) hne.symm).trans ht₂
      exact (hremoves.monsters hplayers ht₃ htype).trans hmonsters₂
    · rename_i halive
      exact hrest hgood₂ hmonsters₂ (.act (.hit hstrikes (Int32.not_le.1 halive)) (.inr (.inr ⟨target, .inl rfl⟩)))

theorem updateMonster_spec (hs : Speaks send W B) (h : Good W st []) (hin : st.game.toScene.Inside r) :
    IfReturns (Game.updateMonster send pick fuel r st) fun st' => Good W st' [] ∧
      st'.game.monsters = st.game.monsters ∧ Does B U (Label.Lives r) st.stage st'.stage := by
  unfold Game.updateMonster
  refine deref_spec.bind fun o ho => ?_
  split
  · rename_i hstate
    exact updateIdle_spec hs h hin ho.1 hstate
  · exact updateMove_spec h
  · exact updateSkill_spec hs h hin
  · exact .ok ⟨h, rfl, .refl⟩

/-- **`GameRoom::Update`** -/
theorem updateRoom_spec (hs : Speaks send W B) (h : Good W st []) :
    IfReturns (Game.updateRoom send pick fuel st) fun st' => Good W st' [] ∧
      Does B U (fun a => ∃ r, Label.Lives r a) st.stage st'.stage := by
  unfold Game.updateRoom
  have hbody : ∀ (before : List (UInt64 × Ref)) (k : UInt64) (r : Ref) (after : List (UInt64 × Ref)) (st₁ : Game ν),
      st.game.monsters.toList = before ++ (k, r) :: after → st₁.game.monsters = st.game.monsters →
      (Good W st₁ [] ∧ Does B U (fun a => ∃ r, Label.Lives r a) st.stage st₁.stage) →
      IfReturns (Game.updateMonster send pick fuel r st₁) fun st' => st'.game.monsters[k]? ≠ none →
        st'.game.monsters = st.game.monsters ∧
          (Good W st' [] ∧ Does B U (fun a => ∃ r, Label.Lives r a) st.stage st'.stage) := by
    intro before k r after st₁ hlist hmonsters h₁
    obtain ⟨hgood₁, hdoes₁⟩ := h₁
    have hmem : r ∈ elements st₁.game.monsters := by
      unfold elements
      rw [hmonsters, hlist]
      simp
    have hin := hgood₁.core.elements_monsters hmem
    refine (updateMonster_spec (U := U) hs hgood₁ (.inr hin)).imp fun st' h' _ => ?_
    obtain ⟨hgood', hmonsters', hdoes'⟩ := h'
    exact ⟨hmonsters'.trans hmonsters, hgood', hdoes₁.trans (hdoes'.mono fun a ha => ⟨r, ha⟩)⟩
  refine (Post.rangeFor (I := fun _ st' => Good W st' [] ∧ Does B U (fun a => ∃ r, Label.Lives r a) st.stage st'.stage)
    ⟨trivial, trivial⟩ hbody rfl ⟨h, .refl⟩).imp fun st' h' => ?_
  exact h'.2

end ZeldaServer
