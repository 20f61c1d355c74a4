import ZeldaServer.Proof.Plan
import ZeldaServer.Proof.RoomRun

/-!
# A monster and a player

What an update does to the cells of the objects. A monster that is alone with a player
stays where it is, or makes the first step of a path that `FindPath` plans on the tiles
that neither of them stands on.

* `Still`: what leaves all cells as they are.
* `updateMonster_moves`: a monster that moves makes the first step of its plan.
* `never_returns`: on a map without detours it never returns to a cell that it left.
-/

namespace ZeldaServer

open Lib Std

variable {st st' st₁ st₂ st₃ : Game Outboxes} {room room' room'' : Room} {pins : List Ref} {m p r : Ref} {o : GameObject}
  {pick : Pick} {fuel : ℕ} {player c c' : VectorInt}

/-- The cell of an object. -/
def Scene.cell (sc : Scene) (r : Ref) : Option VectorInt := (sc.objects[r]?).map GameObject.getCellPos

theorem modify_cell {sc : Scene} {t : Ref} {f : GameObject → GameObject} (hf : ∀ o, (f o).getCellPos = o.getCellPos) :
    (sc.modify t f).cell r = sc.cell r := by
  unfold Scene.cell
  by_cases hr : r = t
  · rw [hr]
    cases ho : sc.objects[t]? with
    | none => simp [Scene.modify, ho]
    | some o =>
      rw [modify_self ho]
      exact congrArg some (hf o)
  · rw [modify_ne hr]

/-! ## What leaves the cells as they are -/

/-- Every object keeps its cell, and no player comes. -/
structure Still (room room' : Room) : Prop where
  tilemap : room'.tilemap = room.tilemap
  players : ∀ (k : UInt64) (r : Ref), room'.players[k]? = some r → room.players[k]? = some r
  cells : ∀ r, room'.cell r = room.cell r

namespace Still

theorem refl (room : Room) : Still room room := ⟨rfl, fun _ _ h => h, fun _ => rfl⟩

theorem trans (h : Still room room') (h' : Still room' room'') : Still room room'' :=
  ⟨h'.tilemap.trans h.tilemap, fun k r hr => h.players k r (h'.players k r hr), fun r => (h'.cells r).trans (h.cells r)⟩

/-- A change of an object that keeps its cell. -/
theorem modify (room : Room) (r : Ref) {f : GameObject → GameObject} (hf : ∀ o, (f o).getCellPos = o.getCellPos) :
    Still room (room.modify r f) :=
  ⟨rfl, fun _ _ h => h, fun _ => modify_cell hf⟩

theorem modifyInfo (room : Room) (r : Ref) {f : ObjectInfo → ObjectInfo}
    (hf : ∀ info, (f info).posx = info.posx ∧ (f info).posy = info.posy) : Still room (room.modifyInfo r f) := by
  refine .modify room r fun o => ?_
  unfold GameObject.getCellPos
  rw [(hf o.info).1, (hf o.info).2]

/-- The scene is all that matters. -/
theorem of_scene (hscene : room'.toScene = room.toScene) (htilemap : room'.tilemap = room.tilemap) :
    Still room room' := by
  refine ⟨htilemap, ?_, ?_⟩
  · intro k r hr
    rwa [hscene] at hr
  · intro r
    rw [hscene]

/-- An object leaves. -/
theorem erase (room : Room) (which : Roster) (id : UInt64) : Still room (room.erase which id) := by
  refine ⟨?_, ?_, ?_⟩
  · unfold Room.erase
    split <;> rfl
  · intro k r hr
    unfold Room.erase at hr
    cases which with
    | players =>
      have hr : (room.players.erase id)[k]? = some r := by
        split at hr <;> exact hr
      rw [TreeMap.getElem?_erase] at hr
      split at hr
      · exact absurd hr.symm (Option.some_ne_none r)
      · exact hr
    | monsters =>
      split at hr <;> exact hr
  · intro r
    unfold Room.erase Scene.cell
    cases which <;> split <;> rfl

end Still

theorem broadcast_game {packet : Packet} :
    IfReturns (Game.broadcast post fuel packet st) fun st' => st'.game = st.game := by
  unfold Game.broadcast
  refine (Post.rangeFor (I := fun _ (st' : Game Outboxes) => st'.game = st.game) ⟨trivial, trivial⟩ ?_ rfl rfl).imp
    fun _ h => h.2
  intro before k r after st₁ _ _ hgame
  refine deref_spec.bind fun o _ => ?_
  split
  · exact .ok fun _ => ⟨congrArg (·.players) hgame, hgame⟩
  · exact .error trivial

/-- An object changes what is not its cell, and this may be told. -/
theorem broadcastMove_game : IfReturns (Game.broadcastMove post fuel r st) fun st' => st'.game = st.game := by
  unfold Game.broadcastMove
  refine deref_spec.bind fun o _ => ?_
  split
  · exact make_spec.bind fun packet _ => broadcast_game
  · exact .ok rfl

theorem setState_still {state : ObjectState} {bcast : Bool} :
    IfReturns (Game.setState post fuel r state bcast st) fun st' => Still st.game st'.game := by
  unfold Game.setState
  have hset : Still st.game (st.update (·.modifyInfo r fun info => { info with state := state })).game :=
    .modifyInfo _ r (f := fun info => { info with state := state }) fun _ => ⟨rfl, rfl⟩
  refine deref_spec.bind fun o _ => ?_
  split
  · exact .ok (.refl _)
  split
  · refine broadcastMove_game.imp fun st' h' => ?_
    rw [h']
    exact hset
  · exact .ok hset

theorem modifyMonster_still {f : Monster → Monster} : Still st.game (Game.modifyMonster r f st).game :=
  .modify _ r fun _ => onFields_cell

theorem tick_still (st : Game Outboxes) : ∃ now st₁, st.getTickCount64 = (now, st₁) ∧ Still st.game st₁.game := by
  refine ⟨_, _, rfl, ?_⟩
  apply Still.of_scene
  · show st.game.getTickCount64.2.toScene = st.game.toScene
    unfold Room.getTickCount64
    split <;> rfl
  · show st.game.getTickCount64.2.tilemap = st.game.tilemap
    unfold Room.getTickCount64
    split <;> rfl

theorem damage_still {attacker target : Ref} :
    IfReturns (Game.damage post fuel attacker target st) fun st' => Still st.game st'.game := by
  unfold Game.damage Game.damageBy Game.broadcastAttackBy
  refine deref_spec.bind fun a _ => ?_
  have hhurt : Still st.game (st.update (·.modifyInfo target fun info => { info with hp := info.hp - a.info.attack })).game :=
    .modifyInfo _ target (f := fun info => { info with hp := info.hp - a.info.attack }) fun _ => ⟨rfl, rfl⟩
  refine deref_spec.bind fun t _ => ?_
  refine deref_spec.bind fun a' _ => ?_
  refine deref_spec.bind fun o _ => ?_
  split
  · refine make_spec.bind fun packet _ => broadcast_game.imp fun st' h' => ?_
    rw [h']
    exact hhurt
  · exact .ok hhurt

theorem removeObject_still {id : UInt64} :
    IfReturns (Game.removeObject post fuel id st) fun st' => Still st.game st'.game := by
  unfold Game.removeObject Game.removeObjectBy
  split
  · exact .ok (.refl _)
  rename_i gameObject _
  have hretain : Still st.game (st.update (·.retain gameObject)).game := .of_scene rfl rfl
  refine make_spec.bind fun packet _ => broadcast_game.bind fun st₁ h₁ => ?_
  rw [← h₁] at hretain
  refine deref_spec.bind fun o _ => ?_
  split
  · exact .ok (hretain.trans (.of_scene rfl rfl))
  · rename_i which _
    have herase : Still st₁.game (st₁.game.erase which id) := .erase _ which id
    have hleave := herase.trans (.modify _ gameObject (f := fun o => { o with room := false }) fun _ => rfl)
    exact .ok ((hretain.trans hleave).trans (.of_scene rfl rfl))

theorem updateMove_still : IfReturns (Game.updateMove post fuel r st) fun st' => Still st.game st'.game := by
  unfold Game.updateMove
  obtain ⟨now, st₁, hnow, htick⟩ := tick_still st
  rw [hnow]
  dsimp only
  refine monster_spec.bind fun fields _ => ?_
  split
  · exact .ok htick
  · exact setState_still.imp fun st' h' => htick.trans h'

theorem updateSkill_still : IfReturns (Game.updateSkill post fuel r st) fun st' => Still st.game st'.game := by
  unfold Game.updateSkill
  refine monster_spec.bind fun fields _ => ?_
  split
  · exact .ok (.refl _)
  rename_i target _
  have hretain : Still st.game (st.update (·.retain target)).game := .of_scene rfl rfl
  dsimp only
  refine damage_still.bind fun st₁ h₁ => ?_
  refine deref_spec.bind fun t _ => ?_
  -- what is left when the attack is over
  have hrest : ∀ {st₂ : Game Outboxes}, Still st.game st₂.game →
      IfReturns (Game.setState post fuel r .idle false st₂ >>= fun st => .ok (st.update (·.release target)))
        fun st' => Still st.game st'.game := by
    intro st₂ h₂
    refine setState_still.bind fun st₃ h₃ => ?_
    exact .ok ((h₂.trans h₃).trans (.of_scene rfl rfl))
  split
  · refine deref_spec.bind fun o _ => ?_
    split
    · exact .error trivial
    refine removeObject_still.bind fun st₂ h₂ => ?_
    exact hrest (((hretain.trans h₁).trans modifyMonster_still).trans h₂)
  · exact hrest (hretain.trans h₁)

/-! ## The moves of a monster -/

/-- The object `r` moves to the cell `next`. -/
structure Strides (r : Ref) (next : VectorInt) (room room' : Room) : Prop where
  tilemap : room'.tilemap = room.tilemap
  players : ∀ (k : UInt64) (r : Ref), room'.players[k]? = some r → room.players[k]? = some r
  cell : room'.cell r = some next
  others : ∀ r', r' ≠ r → room'.cell r' = room.cell r'

theorem Strides.still {next : VectorInt} (h : Strides r next room room') (h' : Still room' room'') :
    Strides r next room room'' :=
  ⟨h'.tilemap.trans h.tilemap, fun k r hr => h.players k r (h'.players k r hr), (h'.cells r).trans h.cell,
    fun r' hr' => (h'.cells r').trans (h.others r' hr')⟩

theorem Still.strides {next : VectorInt} (h : Still room room') (h' : Strides r next room' room'') :
    Strides r next room room'' :=
  ⟨h'.tilemap.trans h.tilemap, fun k r hr => h.players k r (h'.players k r hr), h'.cell,
    fun r' hr' => (h'.others r' hr').trans (h.cells r')⟩

theorem setCellPos_strides {next : VectorInt} (ho : st.game.objects[r]? = some o) :
    Strides r next st.game (Game.setCellPos r next st).game := by
  refine ⟨rfl, fun _ _ h => h, ?_, ?_⟩
  · show ((st.game.toScene.modify r _).objects[r]?).map GameObject.getCellPos = _
    rw [modify_self ho]
    rfl
  · intro r' hr'
    show ((st.game.toScene.modify r _).objects[r']?).map GameObject.getCellPos = _
    rw [modify_ne hr']
    rfl

/-- A move to the cell where the object is. -/
theorem Strides.same {next : VectorInt} (h : Strides r next room room') (hr : room.cell r = some next) : Still room room' := by
  refine ⟨h.tilemap, h.players, ?_⟩
  intro r'
  by_cases heq : r' = r
  · rw [heq, h.cell, hr]
  · exact h.others r' heq

theorem setDir_still {dir : Dir} : Still st.game (Game.setDir r dir st).game :=
  .modifyInfo _ r (f := fun info => { info with dir := dir }) fun _ => ⟨rfl, rfl⟩

/-- **A monster that pursues** stays, or makes the first step of the path it plans. -/
theorem pursue_moves {target : Ref} {t : GameObject} (ho : st.game.objects[r]? = some o)
    (ht : st.game.objects[target]? = some t) :
    IfReturns (Game.pursue post pick fuel r target st) fun st' => Still st.game st'.game ∨
      ∃ pos next rest, findPath st.game.canGo pick o.getCellPos 10 fuel t.getCellPos =
        .ok (some (pos :: next :: rest)) ∧ Strides r next st.game st'.game := by
  unfold Game.pursue
  refine (deref_eq ho).bind fun o' ho' => ?_
  refine (deref_eq ht).bind fun t' ht' => ?_
  rw [ho', ht']
  split
  · -- next to the target
    obtain ⟨now, st₁, hnow, htick⟩ := tick_still st
    rw [hnow]
    dsimp only
    refine monster_spec.bind fun fields _ => ?_
    split
    · exact .ok (.inl htick)
    refine setState_still.bind fun st₂ h₂ => ?_
    obtain ⟨now', st₃, hnow, htick₂⟩ := tick_still st₂
    rw [hnow]
    dsimp only
    exact .ok (.inl (((htick.trans (setDir_still.trans h₂)).trans htick₂).trans modifyMonster_still))
  · have hplan : IfReturns (Game.findPath pick fuel o.getCellPos t.getCellPos st) fun ret =>
        findPath st.game.canGo pick o.getCellPos 10 fuel t.getCellPos = .ok ret := ifReturns_iff.2 fun _ h => h
    refine hplan.bind fun ret hret => ?_
    cases ret with
    | none => exact .ok (.inl (.refl _))
    | some path =>
      obtain ⟨hne, hone⟩ := findPath_spec.result hret path rfl
      cases path with
      | nil => exact absurd rfl hne
      | cons pos path =>
        cases path with
        | nil =>
          -- a path of one cell: the monster stays where it is
          refine .ok (.inl ((setCellPos_strides ho).same ?_))
          rw [hone pos rfl]
          unfold Scene.cell
          rw [ho]
          rfl
        | cons next rest =>
          dsimp only
          have hgo : IfReturns (st.game.canGo next) fun _ => True := ifReturns_iff.2 fun _ _ => trivial
          refine hgo.bind fun go _ => ?_
          split
          · have ho₁ : (Game.setDir r (o.getLookAtDir next) st).game.objects[r]? =
                some { o with info := { o.info with dir := o.getLookAtDir next } } := modify_self ho
            have hmove : Strides r next st.game (Game.setCellPos r next (Game.setDir r (o.getLookAtDir next) st)).game :=
              setDir_still.strides (setCellPos_strides ho₁)
            generalize Game.setCellPos r next (Game.setDir r (o.getLookAtDir next) st) = st₁ at hmove
            obtain ⟨now, st₂, hnow, htick⟩ := tick_still st₁
            rw [hnow]
            dsimp only
            refine setState_still.imp fun st' h' => .inr ⟨pos, next, rest, hret, ?_⟩
            exact hmove.still ((htick.trans modifyMonster_still).trans h')
          · exact .ok (.inl (.refl _))

/-! ## Alone with a player -/

/-- The room holds the monster `m`, and no object but it and the player `p`. -/
structure Chase (m p : Ref) (player : VectorInt) (st : Game Outboxes) : Prop where
  good : Good Anyone st []
  monsters : ∀ (k : UInt64) (r : Ref), st.game.monsters[k]? = some r → r = m
  players : ∀ (k : UInt64) (r : Ref), st.game.players[k]? = some r → r = p
  player : st.game.cell p = some player

theorem cell_some {sc : Scene} (h : sc.cell r = some c) : ∃ o : GameObject, sc.objects[r]? = some o ∧ o.getCellPos = c :=
  Option.map_eq_some_iff.1 h

/-- `CanGo` sees the tiles, the monster and the player. -/
theorem canGo_ground (h : Good Anyone st pins) (hmonsters : ∀ (k : UInt64) (r : Ref), st.game.monsters[k]? = some r → r = m)
    (hplayers : ∀ (k : UInt64) (r : Ref), st.game.players[k]? = some r → r = p)
    (hm : st.game.Inside m) (hp : st.game.Inside p) (hc : st.game.cell m = some c) (hplayer : st.game.cell p = some player) :
    st.game.canGo = ground st.game.tilemap c player := by
  funext d
  unfold Room.canGo ground
  cases htile : st.game.tilemap.getTileAt d with
  | none =>
    have hfree : ¬ st.game.tilemap.Free d := by
      rintro ⟨value, hvalue, -⟩
      rw [htile] at hvalue
      exact absurd hvalue.symm (Option.some_ne_none value)
    simp [hfree]
  | some value =>
    have hfree : st.game.tilemap.Free d ↔ value ≠ 1 := by
      unfold TileMap.Free
      rw [htile]
      simp
    obtain ⟨ret, hret, hsome, hnone⟩ := returns_iff.1 (h.getGameObjectAt d)
    dsimp only
    rw [hret, ok_bind]
    cases ret with
    | some r =>
      -- the object at `d` is the monster or the player
      obtain ⟨hin, o, ho, hcell⟩ := hsome r rfl
      have hd : st.game.cell r = some d := by
        unfold Scene.cell
        rw [ho, ← hcell]
        rfl
      have hocc : d = c ∨ d = player := by
        rcases hin with hin | hin
        · rw [hplayers _ r hin, hplayer] at hd
          exact .inr (Option.some.inj hd).symm
        · rw [hmonsters _ r hin, hc] at hd
          exact .inl (Option.some.inj hd).symm
      have hno : ¬ (st.game.tilemap.Free d ∧ d ≠ c ∧ d ≠ player) := by
        rintro ⟨-, hdc, hdp⟩
        rcases hocc with heq | heq
        · exact hdc heq
        · exact hdp heq
      rw [decide_eq_false hno]
      rfl
    | none =>
      have hvacant := hnone rfl
      obtain ⟨o, ho, hoc⟩ := cell_some hc
      obtain ⟨q, hq, hqc⟩ := cell_some hplayer
      have hdc : d ≠ c := by
        intro heq
        exact hvacant m o hm ho (hoc.trans heq.symm)
      have hdp : d ≠ player := by
        intro heq
        exact hvacant p q hp hq (hqc.trans heq.symm)
      by_cases hv : value = 1
      · simp [hfree, hv]
      · simp [hfree, hdc, hdp, hv]

/-- The monster stays, or makes the first step of its plan. -/
def Moves (pick : Pick) (m : Ref) (player : VectorInt) (room room' : Room) : Prop :=
  Still room room' ∨ ∃ fuel c pos next rest, room.cell m = some c ∧
    findPath (ground room.tilemap c player) pick c 10 fuel player = .ok (some (pos :: next :: rest)) ∧
      Strides m next room room'

theorem updateIdle_moves (h : Chase m p player st) (hm : st.game.Inside m) :
    IfReturns (Game.updateIdle post pick fuel m st) fun st' => Moves pick m player st.game st'.game := by
  unfold Game.updateIdle
  refine deref_spec.bind fun o ho => ?_
  split
  · exact .ok (.inl (.refl _))
  refine monster_spec.bind fun fields hfields => ?_
  obtain ⟨o', ho', hkind⟩ := hfields
  cases hlock : st.game.lock fields.target with
  | none => exact findClosestPlayer_spec.bind fun closest _ => .ok (.inl modifyMonster_still)
  | some target =>
    refine findClosestPlayer_spec.bind fun closest hclosest => ?_
    dsimp only
    -- the target is the player
    obtain ⟨htarget, hpos⟩ := lock_spec hlock
    have hin := h.good.inside hpos
    obtain ⟨t, ht, htype⟩ := h.good.core.target m o' fields target ho' hkind htarget
    have hwhich : t.info.objecttype.roster = some .players := by
      rw [htype]
      rfl
    have hroster : st.stage.game.players[key target]? = some target := (h.good.core.inside_roster ht hwhich).1 hin
    obtain rfl : target = p := h.players _ _ hroster
    obtain ⟨hgood, -⟩ := (h.good.retain (r := target)).choose (B := Told) (U := Whisper) (r := m) hclosest
    have hretain : Still st.game (st.update (·.retain target)).game := .of_scene rfl rfl
    have hstill := hretain.trans (modifyMonster_still (r := m) (f := fun fields => { fields with target := closest }))
    have hmonsters : (Game.modifyMonster m (fun fields => { fields with target := closest })
        (st.update (·.retain target))).game.monsters = st.game.monsters := rfl
    have hplayers : (Game.modifyMonster m (fun fields => { fields with target := closest })
        (st.update (·.retain target))).game.players = st.game.players := rfl
    generalize Game.modifyMonster m (fun fields => { fields with target := closest })
      (st.update (·.retain target)) = st₁ at hgood hstill hmonsters hplayers ⊢
    have hinside : ∀ r, st₁.game.Inside r ↔ st.game.Inside r := by
      intro r
      unfold Scene.Inside
      rw [hmonsters, hplayers]
    -- both stand where they stood
    have hcell : st.game.cell m = some o.getCellPos := congrArg (Option.map GameObject.getCellPos) ho.1
    have hc₁ := (hstill.cells m).trans hcell
    have hp₁ := (hstill.cells target).trans h.player
    obtain ⟨o₁, ho₁, hoc₁⟩ := cell_some hc₁
    obtain ⟨t₁, ht₁, htc₁⟩ := cell_some hp₁
    have hground : st₁.game.canGo = ground st.game.tilemap o.getCellPos player := by
      rw [← hstill.tilemap]
      refine canGo_ground hgood ?_ ?_ ((hinside m).2 hm) ((hinside target).2 hin) hc₁ hp₁
      · rw [hmonsters]
        exact h.monsters
      · rw [hplayers]
        exact h.players
    refine (pursue_moves ho₁ ht₁).bind fun st₂ h₂ => .ok ?_
    have hrelease : Still st₂.game (st₂.update (·.release target)).game := .of_scene rfl rfl
    rcases h₂ with h₂ | ⟨pos, next, rest, hplan, h₂⟩
    · exact .inl ((hstill.trans h₂).trans hrelease)
    · right
      rw [hground, hoc₁, htc₁] at hplan
      exact ⟨fuel, o.getCellPos, pos, next, rest, hcell, hplan, (hstill.strides h₂).still hrelease⟩

theorem updateMonster_moves (h : Chase m p player st) (hm : st.game.Inside m) :
    IfReturns (Game.updateMonster post pick fuel m st) fun st' => Moves pick m player st.game st'.game := by
  unfold Game.updateMonster
  refine deref_spec.bind fun o _ => ?_
  split
  · exact updateIdle_moves h hm
  · exact updateMove_still.imp fun _ h' => .inl h'
  · exact updateSkill_still.imp fun _ h' => .inl h'
  · exact .ok (.inl (.refl _))

/-- What a player's cell and the maps are after a move of the monster. -/
theorem Chase.after (h : Chase m p player st) (hmp : m ≠ p) (hgood : Good Anyone st' [])
    (hmonsters : st'.game.monsters = st.game.monsters) (hmoves : Moves pick m player st.game st'.game) :
    Chase m p player st' ∧ st'.game.tilemap = st.game.tilemap := by
  have hm' : ∀ (k : UInt64) (r : Ref), st'.game.monsters[k]? = some r → r = m := by
    rw [hmonsters]
    exact h.monsters
  rcases hmoves with hstill | ⟨_, _, _, _, _, -, -, hstrides⟩
  · exact ⟨⟨hgood, hm', fun k r hr => h.players k r (hstill.players k r hr), (hstill.cells p).trans h.player⟩, hstill.tilemap⟩
  · exact ⟨⟨hgood, hm', fun k r hr => h.players k r (hstrides.players k r hr), (hstrides.others p hmp.symm).trans h.player⟩,
      hstrides.tilemap⟩

/-- **An update moves the monster once at most**, as it plans. -/
theorem updateRoom_moves (h : Chase m p player st) :
    IfReturns (Game.updateRoom post pick fuel st) fun st' => Good Anyone st' [] ∧
      st'.game.monsters = st.game.monsters ∧ Moves pick m player st.game st'.game := by
  unfold Game.updateRoom
  have hstart : Moves pick m player st.game st.game := .inl (.refl _)
  refine (Post.rangeFor (I := fun before (st' : Game Outboxes) => Good Anyone st' [] ∧
    Moves pick m player st.game st'.game ∧ (before = [] → st' = st)) ⟨trivial, trivial⟩ ?_ rfl
    ⟨h.good, hstart, fun _ => rfl⟩).imp fun st' h' => ⟨h'.2.1, h'.1, h'.2.2.1⟩
  intro before k r after st₁ hlist hmonsters h₁
  have hmem : st.game.monsters[k]? = some r := getElem?_of_toList hlist
  have hbefore : before = [] := by
    -- no two keys for one monster
    rw [List.eq_nil_iff_forall_not_mem]
    rintro ⟨k', r'⟩ hin
    have hmem' : st.game.monsters[k']? = some r' := by
      rw [← TreeMap.mem_toList_iff_getElem?_eq_some, hlist]
      exact List.mem_append_left _ hin
    have hkey := (h.good.core.monsters k r hmem).1
    have hkey' := (h.good.core.monsters k' r' hmem').1
    rw [hkey', h.monsters k' r' hmem', ← h.monsters k r hmem, ← hkey] at hin
    exact not_mem_before hlist hin
  obtain rfl := h₁.2.2 hbefore
  obtain rfl := h.monsters k r hmem
  have hin : st₁.game.Inside r := .inr ((h.good.core.monsters k r hmem).1 ▸ hmem)
  have hspec : IfReturns (Game.updateMonster post pick fuel r st₁) fun st' => Good Anyone st' [] ∧
      st'.game.monsters = st₁.game.monsters ∧ Does Told Whisper (Label.Lives r) st₁.stage st'.stage :=
    updateMonster_spec speaks_post h.good hin
  refine ifReturns_iff.2 fun st' hst' _ => ?_
  obtain ⟨hgood, hmonsters, -⟩ := hspec.result hst'
  refine ⟨hmonsters, hgood, (updateMonster_moves h hin).result hst', ?_⟩
  intro hnil
  exact absurd hnil (by simp)

/-! ## Runs of updates -/

/-- An update, with the ticks of the clock and the choices of the queue meanwhile. -/
def UpdateStep (st : Game Outboxes) (e : List UInt64 × Pick) (st' : Game Outboxes) : Prop :=
  RoomStep st (.update e.1 e.2) st'

/-- The monster is still on `c`, or on a free cell that is nearer to the player if `c` is free. -/
def Onward (tilemap : TileMap) (player c c' : VectorInt) : Prop :=
  c' = c ∨ tilemap.Free c' ∧ (tilemap.Free c → player.dist c' < player.dist c)

theorem Onward.trans {tilemap : TileMap} {c'' : VectorInt} (h : Onward tilemap player c c')
    (h' : Onward tilemap player c' c'') : Onward tilemap player c c'' := by
  rcases h with heq | ⟨hfree, hlt⟩
  · rwa [heq] at h'
  rcases h' with heq | ⟨hfree', hlt'⟩
  · rw [heq]
    exact .inr ⟨hfree, hlt⟩
  · exact .inr ⟨hfree', fun hc => (hlt' hfree).trans (hlt hc)⟩

/-- A cell that was left is not a cell of the way on. -/
theorem Onward.left {tilemap : TileMap} {c₁ c₂ c₃ : VectorInt} (h : Onward tilemap player c₁ c₂)
    (h' : Onward tilemap player c₂ c₃) (hleft : c₂ ≠ c₁) : c₃ ≠ c₁ := by
  intro heq
  rw [heq] at h'
  rcases h with hsame | ⟨hfree, hlt⟩
  · exact hleft hsame
  rcases h' with hsame | ⟨hfree', hlt'⟩
  · exact hleft hsame.symm
  · have h1 := hlt hfree'
    have h2 := hlt' hfree
    omega

/-- The step of a plan leads onward. -/
theorem plan_onward {tilemap : TileMap} (hmap : NoDetour tilemap player) {pos next : VectorInt} {rest : List VectorInt}
    (hrange : player.dist c < 2 ^ 31)
    (h : findPath (ground tilemap c player) pick c 10 fuel player = .ok (some (pos :: next :: rest))) :
    Onward tilemap player c next ∧ player.dist next < 2 ^ 31 := by
  obtain ⟨last, hwalk⟩ := findPath_walk ground_mapped h
  have hfree := (ground_iff.1 (hwalk.walkable next List.mem_cons_self).1).1
  refine ⟨.inr ⟨hfree, fun hc => (plan_nearer hmap hc hrange h).2⟩, ?_⟩
  -- the monster was within the ball of the search
  have hnear := findPath_near h
  rw [Int32.le_iff_toInt_le, taxicab_toInt hrange] at hnear
  have h10 : (10 : Int32).toInt = 10 := rfl
  have hstep := (List.isChain_cons_cons.1 hwalk.steps).1
  rw [show pos = c from Option.some.inj hwalk.head] at hstep
  have htri := player.dist_triangle c next
  omega

/-- What the updates keep, of a monster that was on `c`. -/
structure Chasing (tilemap : TileMap) (m p : Ref) (player c : VectorInt) (st : Game Outboxes) : Prop where
  chase : Chase m p player st
  map : st.game.tilemap = tilemap
  onward : ∃ c', st.game.cell m = some c' ∧ player.dist c' < 2 ^ 31 ∧ Onward tilemap player c c'

theorem updateStep_chasing {tilemap : TileMap} (hmap : NoDetour tilemap player) (hmp : m ≠ p)
    {e : List UInt64 × Pick} (h : Chasing tilemap m p player c st) (hstep : UpdateStep st e st') :
    Chasing tilemap m p player c st' := by
  obtain ⟨-, fuel, hrun⟩ := hstep
  -- the clock is set before
  have hchase : Chase m p player (st.update fun room => { room with ticks := e.1 }) :=
    ⟨⟨h.chase.good.core, h.chase.good.counted.of_same rfl rfl rfl⟩, h.chase.monsters, h.chase.players, h.chase.player⟩
  obtain ⟨hgood, hmonsters, hmoves⟩ := (updateRoom_moves hchase).result hrun
  obtain ⟨hafter, htilemap⟩ := hchase.after hmp hgood hmonsters hmoves
  obtain ⟨c', hc', hrange, honward⟩ := h.onward
  refine ⟨hafter, htilemap.trans h.map, ?_⟩
  rcases hmoves with hstill | ⟨fuel, d, pos, next, rest, hd, hplan, hstrides⟩
  · exact ⟨c', (hstill.cells m).trans hc', hrange, honward⟩
  · obtain rfl : c' = d := Option.some.inj (hc'.symm.trans hd)
    rw [show (st.update fun room => { room with ticks := e.1 }).game.tilemap = tilemap from h.map] at hplan
    obtain ⟨hnext, hnear⟩ := plan_onward hmap hrange hplan
    exact ⟨next, hstrides.cell, hnear, honward.trans hnext⟩

theorem updates_chasing {tilemap : TileMap} (hmap : NoDetour tilemap player) (hmp : m ≠ p) {es : List (List UInt64 × Pick)}
    (h : Chasing tilemap m p player c st) (hruns : Runs UpdateStep st es st') : Chasing tilemap m p player c st' :=
  hruns.invariant h fun _ _ _ ht hstep => updateStep_chasing hmap hmp ht hstep

/-- The monster starts anew from where it is. -/
theorem Chasing.restart {tilemap : TileMap} (h : Chasing tilemap m p player c st) :
    ∃ c', st.game.cell m = some c' ∧ Onward tilemap player c c' ∧ Chasing tilemap m p player c' st := by
  obtain ⟨c', hc', hrange, honward⟩ := h.onward
  exact ⟨c', hc', honward, h.chase, h.map, c', hc', hrange, .inl rfl⟩

/-- **A chase does not go round in circles**, on a map without detours: after any run of
operations that leaves a monster and a player alone in the room, the monster never returns
to a cell that it left, however often the room is updated. -/
theorem never_returns {ops : List RoomOp} (hrun : Runs RoomStep roomStart ops st)
    (hmonsters : elements st.game.monsters = [m]) (hplayers : elements st.game.players = [p])
    (hc : st.game.cell m = some c) (hcell : c.Within (2 ^ 28)) (hp : st.game.cell p = some player)
    (hplayer : player.Within (2 ^ 28)) (hmap : NoDetour st.game.tilemap player) {es₁ es₂ es₃ : List (List UInt64 × Pick)}
    (h₁ : Runs UpdateStep st es₁ st₁) (h₂ : Runs UpdateStep st₁ es₂ st₂) (h₃ : Runs UpdateStep st₂ es₃ st₃)
    (hleft : st₂.game.cell m ≠ st₁.game.cell m) : st₃.game.cell m ≠ st₁.game.cell m := by
  have hgood := (run_good hrun).1
  have hm : ∀ (k : UInt64) (r : Ref), st.game.monsters[k]? = some r → r = m := by
    intro k r hr
    have hmem : r ∈ elements st.game.monsters := mem_elements.2 ⟨k, hr⟩
    rw [hmonsters] at hmem
    exact List.mem_singleton.1 hmem
  have hpl : ∀ (k : UInt64) (r : Ref), st.game.players[k]? = some r → r = p := by
    intro k r hr
    have hmem : r ∈ elements st.game.players := mem_elements.2 ⟨k, hr⟩
    rw [hplayers] at hmem
    exact List.mem_singleton.1 hmem
  have hmp : m ≠ p := by
    intro heq
    obtain ⟨k, hk⟩ := mem_elements.1 (show m ∈ elements st.game.monsters by rw [hmonsters]; exact List.mem_singleton_self m)
    obtain ⟨k', hk'⟩ := mem_elements.1 (show p ∈ elements st.game.players by rw [hplayers]; exact List.mem_singleton_self p)
    obtain ⟨-, o, ho, htype, -⟩ := hgood.core.monsters k m hk
    obtain ⟨-, o', _, ho', hplays, -⟩ := hgood.core.players k' p hk'
    rw [heq, ho'] at ho
    rw [← Option.some.inj ho, hplays.type] at htype
    exact absurd htype (by decide)
  have hrange : player.dist c < 2 ^ 31 := by
    have := hplayer.dist hcell
    omega
  have hstart : Chasing st.game.tilemap m p player c st :=
    ⟨⟨hgood, hm, hpl, hp⟩, rfl, c, hc, hrange, .inl rfl⟩
  obtain ⟨c₁, hc₁, -, hs₁⟩ := (updates_chasing hmap hmp hstart h₁).restart
  obtain ⟨c₂, hc₂, honward₂, hs₂⟩ := (updates_chasing hmap hmp hs₁ h₂).restart
  obtain ⟨c₃, hc₃, honward₃, -⟩ := (updates_chasing hmap hmp hs₂ h₃).restart
  rw [hc₁, hc₂] at hleft
  rw [hc₁, hc₃]
  intro heq
  exact honward₂.left honward₃ (fun h => hleft (congrArg some h)) (Option.some.inj heq)

/-! ## Two chases -/

/-- An update, with fuel for a small map. -/
def updateExec (st : Game Outboxes) (e : List UInt64 × Pick) : Option (Game Outboxes) :=
  (RoomOp.run post 100 st (.update e.1 e.2)).toOption

theorem updateExec_runs {es : List (List UInt64 × Pick)} (h : es.foldlM updateExec st = some st') :
    Runs UpdateStep st es st' := by
  refine (Runs.ofFold updateExec st es h).mono fun st₁ e st₂ hstep => ⟨trivial, 100, ?_⟩
  unfold updateExec at hstep
  exact toOption_eq_some.1 hstep

/-- Updates at the seconds `start + 1` to `start + n`. -/
def seconds (start n : ℕ) : List (List UInt64 × Pick) :=
  (List.range n).map fun i => ([.ofNat (1000 * (start + i + 1))], fun _ => 0)

/-- What is known of a chase: who is in the room, the map, and where the two are. -/
structure Scenery where
  monsters : List Ref
  players : List Ref
  tilemap : TileMap
  monster : Option VectorInt
  player : Option VectorInt
  deriving DecidableEq

def Room.scenery (room : Room) (m p : Ref) : Scenery :=
  ⟨elements room.monsters, elements room.players, room.tilemap, room.cell m, room.cell p⟩

/-- A chase after the operations `ops`, and where the monster is after each of three runs of updates. -/
def chaseExec (ops : List RoomOp) (m p : Ref) (es₁ es₂ es₃ : List (List UInt64 × Pick)) :
    Option (Scenery × Option VectorInt × Option VectorInt × Option VectorInt) := do
  let st ← ops.foldlM roomExec roomStart
  let st₁ ← es₁.foldlM updateExec st
  let st₂ ← es₂.foldlM updateExec st₁
  let st₃ ← es₃.foldlM updateExec st₂
  some (st.game.scenery m p, st₁.game.cell m, st₂.game.cell m, st₃.game.cell m)

theorem chaseExec_runs {ops : List RoomOp} {es₁ es₂ es₃ : List (List UInt64 × Pick)} {scenery : Scenery}
    {c₁ c₂ c₃ : Option VectorInt} (h : chaseExec ops m p es₁ es₂ es₃ = some (scenery, c₁, c₂, c₃)) :
    ∃ st st₁ st₂ st₃, Runs RoomStep roomStart ops st ∧ st.game.scenery m p = scenery ∧
      Runs UpdateStep st es₁ st₁ ∧ Runs UpdateStep st₁ es₂ st₂ ∧ Runs UpdateStep st₂ es₃ st₃ ∧
      st₁.game.cell m = c₁ ∧ st₂.game.cell m = c₂ ∧ st₃.game.cell m = c₃ := by
  obtain ⟨st, hst, h⟩ := Option.bind_eq_some_iff.1 h
  obtain ⟨st₁, h₁, h⟩ := Option.bind_eq_some_iff.1 h
  obtain ⟨st₂, h₂, h⟩ := Option.bind_eq_some_iff.1 h
  obtain ⟨st₃, h₃, h⟩ := Option.bind_eq_some_iff.1 h
  obtain ⟨hscenery, h⟩ := Prod.mk.inj (Option.some.inj h)
  obtain ⟨hc₁, h⟩ := Prod.mk.inj h
  obtain ⟨hc₂, hc₃⟩ := Prod.mk.inj h
  exact ⟨st, st₁, st₂, st₃, roomExec_runs hst, hscenery, updateExec_runs h₁, updateExec_runs h₂, updateExec_runs h₃,
    hc₁, hc₂, hc₃⟩

/-- A meadow of nine by nine tiles. -/
def meadow : TileMap where
  mapSize := ⟨9, 9⟩
  tiles := List.replicate 9 (List.replicate 9 0)

theorem meadow_open : meadow.Open := by
  rintro c ⟨hx, hx', hy, hy'⟩
  have h9 : (9 : Int32).toInt = 9 := rfl
  have hsize : meadow.mapSize = ⟨9, 9⟩ := rfl
  rw [hsize] at hx' hy'
  dsimp only at hx' hy'
  have hin : ¬ (c.x < 0 ∨ meadow.mapSize.x ≤ c.x ∨ c.y < 0 ∨ meadow.mapSize.y ≤ c.y) := by
    rw [hsize]
    simp only [Int32.lt_iff_toInt_lt, Int32.le_iff_toInt_le, Int32.toInt_zero]
    omega
  refine ⟨0, ?_, by decide⟩
  unfold TileMap.getTileAt
  rw [if_neg hin]
  show ((List.replicate 9 (List.replicate 9 (0 : Int32)))[c.y.toInt.toNat]?).bind _ = _
  rw [List.getElem?_replicate, if_pos (by omega)]
  show (List.replicate 9 (0 : Int32))[c.x.toInt.toNat]? = _
  rw [List.getElem?_replicate, if_pos (by omega)]

/-- On the meadow the monster leaves `(8, 8)`, and does not return. -/
theorem never_returns_example : ∃ st st₁ st₂ st₃, Runs RoomStep roomStart [.init meadow, .enterRoom 0] st ∧
    Runs UpdateStep st (seconds 0 1) st₁ ∧ Runs UpdateStep st₁ (seconds 1 1) st₂ ∧ Runs UpdateStep st₂ (seconds 2 2) st₃ ∧
    st₂.game.cell 0 ≠ st₁.game.cell 0 ∧ st₃.game.cell 0 ≠ st₁.game.cell 0 := by
  have hrun : chaseExec [.init meadow, .enterRoom 0] 0 1 (seconds 0 1) (seconds 1 1) (seconds 2 2) =
      some (⟨[0], [1], meadow, some ⟨8, 8⟩, some ⟨5, 5⟩⟩, some ⟨8, 8⟩, some ⟨8, 7⟩, some ⟨8, 6⟩) := by
    decide +kernel
  obtain ⟨st, st₁, st₂, st₃, hst, hscenery, h₁, h₂, h₃, hc₁, hc₂, hc₃⟩ := chaseExec_runs hrun
  obtain ⟨hmonsters, hplayers, hmap, hm, hp⟩ := Scenery.mk.inj hscenery
  have hleft : st₂.game.cell 0 ≠ st₁.game.cell 0 := by
    rw [hc₁, hc₂]
    decide
  have hnodetour : NoDetour st.game.tilemap ⟨5, 5⟩ := by
    rw [hmap]
    exact open_noDetour meadow_open _
  have hcell : (⟨8, 8⟩ : VectorInt).Within (2 ^ 28) := ⟨by decide, by decide, by decide, by decide⟩
  have hplayer : (⟨5, 5⟩ : VectorInt).Within (2 ^ 28) := ⟨by decide, by decide, by decide, by decide⟩
  exact ⟨st, st₁, st₂, st₃, hst, h₁, h₂, h₃, hleft,
    never_returns hst hmonsters hplayers hm hcell hp hplayer hnodetour h₁ h₂ h₃ hleft⟩

/-- A map with walls. -/
def maze : TileMap where
  mapSize := ⟨7, 6⟩
  tiles := [
    [0, 0, 1, 0, 0, 0, 0],
    [1, 1, 0, 0, 1, 0, 1],
    [0, 0, 0, 1, 0, 0, 0],
    [0, 0, 0, 1, 0, 1, 1],
    [0, 1, 1, 0, 1, 0, 1],
    [0, 0, 1, 0, 1, 1, 0]]

/-- The object with the id moves to a cell. -/
def placed (id : UInt64) (x y : Int32) : CMove where
  info? := some { objectid := id, posx := x, posy := y }

/-- In the maze the monster goes from `(5, 1)` to `(5, 0)`, where it turns round. -/
theorem turns_round : ∃ st st₁ st₂ st₃, Runs RoomStep roomStart
      [.init maze, .enterRoom 0, .handleCMove (placed 2 3 5), .handleCMove (placed 1 6 2)] st ∧
    elements st.game.monsters = [0] ∧ elements st.game.players = [1] ∧
    st.game.cell 0 = some ⟨6, 2⟩ ∧ st.game.cell 1 = some ⟨3, 5⟩ ∧ st.game.tilemap = maze ∧
    Runs UpdateStep st (seconds 0 4) st₁ ∧ Runs UpdateStep st₁ (seconds 4 2) st₂ ∧ Runs UpdateStep st₂ (seconds 6 2) st₃ ∧
    st₁.game.cell 0 = some ⟨5, 1⟩ ∧ st₂.game.cell 0 = some ⟨5, 0⟩ ∧ st₃.game.cell 0 = some ⟨5, 1⟩ := by
  have hrun : chaseExec [.init maze, .enterRoom 0, .handleCMove (placed 2 3 5), .handleCMove (placed 1 6 2)] 0 1
      (seconds 0 4) (seconds 4 2) (seconds 6 2) =
      some (⟨[0], [1], maze, some ⟨6, 2⟩, some ⟨3, 5⟩⟩, some ⟨5, 1⟩, some ⟨5, 0⟩, some ⟨5, 1⟩) := by
    decide +kernel
  obtain ⟨st, st₁, st₂, st₃, hst, hscenery, h₁, h₂, h₃, hc₁, hc₂, hc₃⟩ := chaseExec_runs hrun
  obtain ⟨hmonsters, hplayers, hmap, hm, hp⟩ := Scenery.mk.inj hscenery
  exact ⟨st, st₁, st₂, st₃, hst, hmonsters, hplayers, hm, hp, hmap, h₁, h₂, h₃, hc₁, hc₂, hc₃⟩

end ZeldaServer
