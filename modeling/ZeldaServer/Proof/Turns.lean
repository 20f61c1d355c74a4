import ZeldaServer.Proof.Pursuit

/-!
# The turns of a monster

Everything that one `Monster::Update` can do: `MonsterTurn` lists the cases, each with what led
to it and with the monster afterwards. What is known of the monsters of the room is
derived from it.

* `Good.firstAt`: what `GetGameObjectAt` finds.
* `updateMonster_turn`: an update that returns is a turn.
* `updateRoom_turns`: `GameRoom::Update` gives every monster its turn, in the order of `_monsters`.
-/

namespace ZeldaServer

open Lib Std

variable {st st' st₁ : Game Outboxes} {room : Room} {pins : List Ref} {m r t : Ref} {o o' : GameObject} {fields : Monster}
  {pick : Pick} {fuel : ℕ} {sc : Scene}

/-! ## One object of a scene -/

/-- The state of an object. -/
def Scene.state (sc : Scene) (r : Ref) : Option ObjectState := (sc.objects[r]?).map (·.info.state)

/-- The scene with `o` in place of the object `r`. -/
def Scene.set (sc : Scene) (r : Ref) (o : GameObject) : Scene := sc.modify r fun _ => o

theorem set_self (ho : sc.objects[r]? = some o) : (sc.set r o').objects[r]? = some o' := modify_self ho

theorem set_ne (h : t ≠ r) : (sc.set r o').objects[t]? = sc.objects[t]? := modify_ne h

theorem modify_eq_set {f : GameObject → GameObject} (ho : sc.objects[r]? = some o) : sc.modify r f = sc.set r (f o) :=
  modify_congr ho rfl

theorem modify_set {f : GameObject → GameObject} : (sc.set r o).modify r f = sc.set r (f o) := modify_modify _ f

/-- A scene with the object that it has. -/
theorem set_eq (ho : sc.objects[r]? = some o) : sc.set r o = sc := modify_id ho rfl

theorem modifyInfo_ne {f : ObjectInfo → ObjectInfo} (h : t ≠ r) : (sc.modifyInfo r f).objects[t]? = sc.objects[t]? := modify_ne h

theorem drop_ne {which : Roster} {k : UInt64} (h : t ≠ r) : (sc.drop which r k).objects[t]? = sc.objects[t]? := by
  unfold Scene.drop
  rw [modify_ne h]
  cases which with
  | players => rfl
  | monsters => rfl

/-- A cell that is vacant when an object has changed but not moved. -/
theorem vacant_of_set {c : VectorInt} (ho : sc.objects[r]? = some o) (hcell : o'.getCellPos = o.getCellPos)
    (h : (sc.set r o').Vacant c) : sc.Vacant c := by
  intro x p hin hp
  by_cases hx : x = r
  · subst hx
    obtain rfl : o = p := Option.some.inj (ho.symm.trans hp)
    rw [← hcell]
    exact h x o' hin (set_self ho)
  · exact h x p hin ((set_ne hx).trans hp)

/-! ## The lookup of a cell -/

/-- The first object on a cell, the players before the monsters. -/
def Scene.firstAt (sc : Scene) (c : VectorInt) : Option Ref :=
  (elements sc.players ++ elements sc.monsters).find? fun r => sc.cell r = some c

theorem findAt_eq {room : Room} {l : List Ref} (hl : ∀ r ∈ l, ∃ o, room.deref r = .ok o) :
    room.findAt c l = .ok (l.find? fun r => room.cell r = some c) := by
  induction l with
  | nil => rfl
  | cons r l ih =>
    obtain ⟨o, ho⟩ := hl r List.mem_cons_self
    have hcell : room.cell r = some o.getCellPos := by
      unfold Scene.cell
      rw [(deref_spec.result ho).1]
      rfl
    unfold Room.findAt
    rw [ho, ok_bind, List.find?_cons, hcell]
    by_cases hc : o.getCellPos = c
    · rw [if_pos hc, hc]
      simp
    · rw [if_neg hc, ih fun r' hr' => hl r' (List.mem_cons_of_mem _ hr')]
      simp [hc]

/-- **`GetGameObjectAt`** finds the first object on the cell. -/
theorem Good.firstAt (h : Good Anyone st pins) (c : VectorInt) : st.game.getGameObjectAt c = .ok (st.game.firstAt c) := by
  have halive : ∀ r, st.game.Inside r → ∃ o, st.game.deref r = .ok o := by
    intro r hin
    obtain ⟨o, ho, -⟩ := h.core.inside_room hin
    exact ⟨o, h.deref ho (.inl hin)⟩
  have hplayers : ∀ r ∈ elements st.game.players, ∃ o, st.game.deref r = .ok o :=
    fun r hr => halive r (.inl (h.core.elements_players hr))
  have hmonsters : ∀ r ∈ elements st.game.monsters, ∃ o, st.game.deref r = .ok o :=
    fun r hr => halive r (.inr (h.core.elements_monsters hr))
  unfold Room.getGameObjectAt Scene.firstAt
  rw [findAt_eq hplayers, findAt_eq hmonsters, ok_bind, List.find?_append]
  cases (elements st.game.players).find? fun r => st.game.cell r = some c with
  | none => rfl
  | some r => rfl

/-- `CanGo` sees the map and what stands where. -/
theorem Good.canGo_same {pins' : List Ref} (h : Good Anyone st pins) (h' : Good Anyone st' pins') (htilemap : st'.game.tilemap = st.game.tilemap)
    (hplayers : st'.game.players = st.game.players) (hmonsters : st'.game.monsters = st.game.monsters)
    (hcells : ∀ r, st'.game.cell r = st.game.cell r) : st'.game.canGo = st.game.canGo := by
  funext c
  have hfirst : st'.game.firstAt c = st.game.firstAt c := by
    unfold Scene.firstAt
    rw [hplayers, hmonsters]
    exact congrArg (List.find? · _) (funext fun r => by rw [hcells])
  unfold Room.canGo
  rw [h.firstAt, h'.firstAt, htilemap, hfirst]

/-! ## The clock -/

/-- What `GetTickCount64` returns next. -/
def clockNow (ticks : List UInt64) : UInt64 := ticks.headD 0

/-- What it returns from then on. -/
def clockLater : List UInt64 → List UInt64
  | _ :: now :: ticks => now :: ticks
  | ticks => ticks

/-- The game when the clock was read. -/
def tick (st : Game Outboxes) : Game Outboxes := st.update fun room => { room with ticks := clockLater room.ticks }

theorem getTickCount64_eq (st : Game Outboxes) : st.getTickCount64 = (clockNow st.game.ticks, tick st) := by
  obtain ⟨net, scene, useCount, tilemap, ticks⟩ := st
  match ticks with
  | [] => rfl
  | [now] => rfl
  | now :: next :: ticks => rfl

theorem Good.tick (h : Good Anyone st pins) : Good Anyone (tick st) pins := ⟨h.core, h.counted.of_same rfl rfl rfl⟩

/-! ## Looking around -/

/-- What a call returned, when it returns. -/
theorem ifReturns_self {α : Type} {x : Outcome α} : IfReturns x fun a => x = .ok a := ifReturns_iff.2 fun _ h => h

/-- One round of the loop of `FindClosestPlayer`. -/
def Room.nearer (room : Room) (cellPos : VectorInt) (p : ℤ × Option Ref) (r : Ref) : Outcome (ℤ × Option Ref) := do
  let player ← room.deref r
  let dist := (cellPos.sub player.getCellPos).lengthSquared
  .ok (if dist < p.1 then (dist, some r) else p)

theorem findClosestPlayer_fold {cellPos : VectorInt} : room.findClosestPlayer cellPos =
    ((elements room.players).foldlM (room.nearer cellPos) (FLT_MAX, none) >>= fun p => .ok p.2) := rfl

/-- The closest player depends on the players only. -/
theorem findClosestPlayer_congr {room' : Room} {cellPos : VectorInt} (hplayers : room'.players = room.players)
    (hderef : ∀ r ∈ elements room.players, room'.deref r = room.deref r) :
    room'.findClosestPlayer cellPos = room.findClosestPlayer cellPos := by
  have hfold : ∀ (l : List Ref) (p : ℤ × Option Ref), (∀ r ∈ l, room'.deref r = room.deref r) →
      l.foldlM (room'.nearer cellPos) p = l.foldlM (room.nearer cellPos) p := by
    intro l
    induction l with
    | nil => exact fun _ _ => rfl
    | cons a l ih =>
      intro p hl
      have hround : room'.nearer cellPos p a = room.nearer cellPos p a := by
        unfold Room.nearer
        rw [hl a List.mem_cons_self]
      rw [List.foldlM_cons, List.foldlM_cons, hround]
      refine congrArg _ (funext fun p' => ?_)
      exact ih p' fun r hr => hl r (List.mem_cons_of_mem _ hr)
  rw [findClosestPlayer_fold, findClosestPlayer_fold, hplayers, hfold _ _ hderef]

/-! ## What a monster does to itself -/

/-- `m` is in the room, a monster with the fields `fields`. -/
structure Monstrous (st : Game Outboxes) (m : Ref) (o : GameObject) (fields : Monster) : Prop where
  inside : st.game.Inside m
  object : st.game.objects[m]? = some o
  kind : o.kind = .monster fields

/-- The monster with another record and other fields. -/
def GameObject.become (o : GameObject) (info : ObjectInfo) (fields : Monster) : GameObject :=
  { o with info := info, kind := .monster fields }

/-- A record that `SetState` broadcasts. -/
theorem setState_told (h : Good Anyone st pins) (hin : st.game.Inside m) (ho : st.game.objects[m]? = some o)
    {state : ObjectState} (hne : o.info.state ≠ state) :
    IfReturns (Game.setState post fuel m state true st) fun st' => Good Anyone st' pins ∧
      st'.game = st.game.modifyInfo m (fun info => { info with state := state }) ∧
      Told st'.game.toScene (.move { o.info with state := state }) st.net st'.net := by
  unfold Game.setState
  refine (deref_eq ho).bind fun o' ho' => ?_
  rw [ho', if_neg hne, if_pos rfl]
  have h₁ : Good Anyone (st.update (·.modifyInfo m fun info => { info with state := state })) pins :=
    h.modifyInfo (fun _ => rfl) fun _ => rfl
  have ho₁ : (st.update (·.modifyInfo m fun info => { info with state := state })).game.objects[m]? =
      some { o with info := { o.info with state := state } } := modify_self ho
  unfold Game.broadcastMove
  refine (deref_eq ho₁).bind fun o₁ ho₁' => ?_
  have hroom : o.room = true := h.core.room_of hin ho
  rw [ho₁', if_pos hroom]
  refine (say_spec speaks_post h₁).imp fun st' h' => ?_
  obtain ⟨hgood, hgame, htold⟩ := h'
  refine ⟨hgood, hgame, ?_⟩
  rw [hgame]
  exact htold

theorem Good.inState (h : Good Anyone st pins) {state : ObjectState} :
    Good Anyone (st.update (·.modifyInfo m fun info => { info with state := state })) pins :=
  h.modifyInfo (f := fun info => { info with state := state }) (fun _ => rfl) fun _ => rfl

/-- `SetState` without broadcast. -/
theorem setState_quiet (ho : st.game.objects[m]? = some o) {state : ObjectState} (hne : o.info.state ≠ state) :
    IfReturns (Game.setState post fuel m state false st) fun st' =>
      st' = st.update (·.modifyInfo m fun info => { info with state := state }) := by
  unfold Game.setState
  refine (deref_eq ho).bind fun o' ho' => ?_
  rw [ho', if_neg hne]
  exact .ok rfl

theorem monster_eq (ho : st.game.objects[m]? = some o) (hk : o.kind = .monster fields) :
    IfReturns (Game.monster m st) (· = fields) := by
  refine monster_spec.imp fun fields' h => ?_
  obtain ⟨o', ho', hk'⟩ := h
  obtain rfl : o = o' := Option.some.inj (ho.symm.trans ho')
  rw [hk] at hk'
  exact (Kind.monster.inj hk').symm

/-- A monster is what its record and its fields are. -/
theorem become_self (hk : o.kind = .monster fields) : o.become o.info fields = o := by
  unfold GameObject.become
  rw [← hk]

/-- The scene, the clock and the map of a state. -/
structure Yields (pins : List Ref) (st : Game Outboxes) (sc : Scene) (ticks : List UInt64) (st' : Game Outboxes) : Prop where
  good : Good Anyone st' pins
  scene : st'.game.toScene = sc
  ticks : st'.game.ticks = ticks
  tilemap : st'.game.tilemap = st.game.tilemap

theorem Yields.players {sc : Scene} {ticks : List UInt64} (h : Yields pins st sc ticks st') : st'.game.players = sc.players :=
  congrArg Scene.players h.scene

/-- The monster itself. -/
theorem Yields.self {q : GameObject} {ticks : List UInt64} (h : Yields pins st (sc.set m o') ticks st')
    (hq : sc.objects[m]? = some q) : st'.game.objects[m]? = some o' := by
  rw [h.scene]
  exact set_self hq

theorem onFields_become {f : Monster → Monster} (hk : o.kind = .monster fields) :
    o.onFields f = o.become o.info (f fields) := by
  unfold GameObject.onFields GameObject.become
  rw [hk]

/-- The record of the monster `o` that turns to `cellPos` and attacks. -/
def GameObject.facing (o : GameObject) (cellPos : VectorInt) : ObjectInfo :=
  { o.info with dir := o.getLookAtDir cellPos, state := .skill }

/-- The record of the monster `o` that turns to `cellPos` and goes there. -/
def GameObject.stepping (o : GameObject) (cellPos : VectorInt) : ObjectInfo :=
  { o.info with dir := o.getLookAtDir cellPos, posx := cellPos.x, posy := cellPos.y, state := .move }

/-- What a monster does about a target that is alive, the object `t`. -/
inductive Pursues (pins : List Ref) (m : Ref) (o : GameObject) (fields : Monster) (t : GameObject) (st st' : Game Outboxes) : Prop
  | waits {ticks : List UInt64} : Yields pins st (st.game.toScene.set m (o.become o.info fields)) ticks st' → st'.net = st.net →
      ticks = st.game.ticks ∨ ticks = clockLater st.game.ticks → Pursues pins m o fields t st st'
  | faces : (t.getCellPos.sub o.getCellPos).taxicab = 1 → ¬ clockNow st.game.ticks < fields.waitAttackUntil →
      Yields pins st (st.game.toScene.set m (o.become (o.facing t.getCellPos)
        { fields with waitAttackUntil := clockNow (clockLater st.game.ticks) + 1000 })) (clockLater (clockLater st.game.ticks)) st' →
      Told st.game.toScene (.move (o.facing t.getCellPos)) st.net st'.net → Pursues pins m o fields t st st'
  | steps {next : VectorInt} : (t.getCellPos.sub o.getCellPos).taxicab ≠ 1 → o.getCellPos.dist next = 1 →
      st.game.tilemap.Free next → st.game.toScene.Vacant next →
      Yields pins st (st.game.toScene.set m (o.become (o.stepping next)
        { fields with waitMoveUntil := clockNow st.game.ticks + 1000 })) (clockLater st.game.ticks) st' →
      Told st.game.toScene (.move (o.stepping next)) st.net st'.net → Pursues pins m o fields t st st'

/-- An object can go to a tile that is free. -/
theorem canGo_free {cellPos : VectorInt} : IfReturns (room.canGo cellPos) fun go => go = true → room.tilemap.Free cellPos := by
  unfold Room.canGo
  cases htile : room.tilemap.getTileAt cellPos with
  | none => exact .ok nofun
  | some value =>
    refine ifReturns_self.bind fun ret _ => .ok fun hgo => ⟨value, htile, ?_⟩
    simp only [Bool.and_eq_true, bne_iff_ne] at hgo
    exact hgo.2

/-- A step to `next`, before it is told. -/
theorem stepped_good (h : Good Anyone st pins) (ho : st.game.objects[m]? = some o) (hk : o.kind = .monster fields) (next : VectorInt) :
    Good Anyone (Game.modifyMonster m (fun fields => { fields with waitMoveUntil := clockNow st.game.ticks + 1000 })
      (tick (Game.setCellPos m next (Game.setDir m (o.getLookAtDir next) st)))) pins ∧
    (Game.modifyMonster m (fun fields => { fields with waitMoveUntil := clockNow st.game.ticks + 1000 })
      (tick (Game.setCellPos m next (Game.setDir m (o.getLookAtDir next) st)))).game.toScene =
      st.game.toScene.set m (o.become { o.info with dir := o.getLookAtDir next, posx := next.x, posy := next.y }
        { fields with waitMoveUntil := clockNow st.game.ticks + 1000 }) := by
  constructor
  · exact (h.setDir.setCellPos.tick.clock (B := Told) (U := Whisper) (r := m)
      (f := fun fields => { fields with waitMoveUntil := clockNow st.game.ticks + 1000 }) fun _ => rfl).1
  · show ((st.game.toScene.modify m _).modify m _).modify m (GameObject.onFields _) = _
    rw [modify_eq_set ho, modify_set, modify_set]
    refine congrArg (Scene.set _ m) ?_
    exact onFields_become (o := { o with info := { o.info with dir := o.getLookAtDir next, posx := next.x, posy := next.y } }) hk

theorem pursue_turn {t : Ref} {p : GameObject} (h : Good Anyone st pins) (hm : Monstrous st m o fields) (hstate : o.info.state = .idle)
    (ht : st.game.objects[t]? = some p) :
    IfReturns (Game.pursue post pick fuel m t st) (Pursues pins m o fields p st) := by
  obtain ⟨hin, ho, hk⟩ := hm
  have hsame : st.game.toScene = st.game.toScene.set m (o.become o.info fields) := by
    rw [become_self hk, set_eq ho]
  have hself : Yields pins st (st.game.toScene.set m (o.become o.info fields)) st.game.ticks st := ⟨h, hsame, rfl, rfl⟩
  unfold Game.pursue
  refine (deref_eq ho).bind fun o' ho' => ?_
  refine (deref_eq ht).bind fun p' hp' => ?_
  rw [ho', hp']
  split
  · -- next to the target
    rename_i hnear
    rw [getTickCount64_eq]
    dsimp only
    have ho₁ : (tick st).game.objects[m]? = some o := ho
    refine (monster_eq ho₁ hk).bind fun fields' hfields => ?_
    rw [hfields]
    split
    · exact .ok (.waits ⟨h.tick, hsame, rfl, rfl⟩ rfl (.inr rfl))
    rename_i hready
    have ho₁ : (Game.setDir m (o.getLookAtDir p.getCellPos) (tick st)).game.objects[m]? =
        some { o with info := { o.info with dir := o.getLookAtDir p.getCellPos } } := modify_self ho
    have hne : ({ o.info with dir := o.getLookAtDir p.getCellPos } : ObjectInfo).state ≠ .skill := by
      rw [show ({ o.info with dir := o.getLookAtDir p.getCellPos } : ObjectInfo).state = .idle from hstate]
      decide
    refine (setState_told h.tick.setDir hin ho₁ hne).bind fun st₂ h₂ => ?_
    obtain ⟨hgood₂, hgame₂, htold⟩ := h₂
    rw [getTickCount64_eq]
    have hticks : st₂.game.ticks = clockLater st.game.ticks := by rw [hgame₂]; rfl
    refine .ok (.faces hnear hready ⟨?_, ?_, ?_, ?_⟩ ?_)
    · exact (hgood₂.tick.clock (B := Told) (U := Whisper) (r := m)
        (f := fun fields => { fields with waitAttackUntil := clockNow st₂.game.ticks + 1000 }) fun _ => rfl).1
    · show st₂.game.toScene.modify m (GameObject.onFields fun fields =>
        { fields with waitAttackUntil := clockNow st₂.game.ticks + 1000 }) = _
      rw [hticks, hgame₂]
      show (((st.game.toScene.modify m _).modify m _).modify m _) = _
      rw [modify_eq_set ho, modify_set, modify_set]
      refine congrArg (Scene.set _ m) ?_
      exact onFields_become hk
    · show clockLater st₂.game.ticks = _
      rw [hticks]
    · show st₂.game.tilemap = _
      rw [hgame₂]
      rfl
    · rw [hgame₂] at htold
      exact htold
  · rename_i hfar
    refine (ifReturns_self (x := Game.findPath pick fuel o.getCellPos p.getCellPos st)).bind fun ret hret => ?_
    cases ret with
    | none => exact .ok (.waits hself rfl (.inl rfl))
    | some path =>
      obtain ⟨hne, hone⟩ := findPath_spec.result hret path rfl
      obtain ⟨last, hwalk⟩ := findPath_walk st.game.mapped hret
      cases path with
      | nil => exact absurd rfl hne
      | cons pos path =>
        cases path with
        | nil =>
          -- a path of one cell: the monster stays where it is
          have hstays : (st.game.toScene.modifyInfo m fun info => { info with posx := pos.x, posy := pos.y }) =
              st.game.toScene := modify_id ho (by rw [hone pos rfl]; rfl)
          exact .ok (.waits ⟨h.setCellPos, hstays.trans hsame, rfl, rfl⟩ rfl (.inl rfl))
        | cons next path =>
          dsimp only
          obtain rfl : pos = o.getCellPos := Option.some.inj hwalk.head
          have hstep := (List.isChain_cons_cons.1 hwalk.steps).1
          refine (canGo_spec.and canGo_free).bind fun go hgo => ?_
          obtain ⟨hvacant, hfree⟩ := hgo
          split
          · rename_i htrue
            rw [getTickCount64_eq]
            dsimp only
            obtain ⟨hmoved, hscene⟩ := stepped_good h ho hk next
            have ho₁ : (st.game.toScene.set m (o.become { o.info with dir := o.getLookAtDir next, posx := next.x, posy := next.y }
                { fields with waitMoveUntil := clockNow st.game.ticks + 1000 })).objects[m]? = some _ := set_self ho
            rw [← hscene] at ho₁
            have hne : o.info.state ≠ .move := by rw [hstate]; decide
            refine (setState_told hmoved hin ho₁ hne).imp fun st₂ h₂ => ?_
            obtain ⟨hgood₂, hgame₂, htold⟩ := h₂
            refine .steps hfar hstep (hfree htrue) (hvacant htrue) ⟨hgood₂, ?_, ?_, ?_⟩ ?_
            · rw [hgame₂]
              show Scene.modify _ m _ = _
              rw [hscene, modify_set]
              rfl
            · rw [hgame₂]
              rfl
            · rw [hgame₂]
              rfl
            · rw [hgame₂] at htold
              exact htold
          · exact .ok (.waits hself rfl (.inl rfl))

/-- **One `Monster::Update` of `m`**, the monster `o` with the fields `fields`. -/
inductive MonsterTurn (m : Ref) (o : GameObject) (fields : Monster) (st st' : Game Outboxes) : Prop
  | seeks {closest : Option Ref} : o.info.state = .idle → st.game.lock fields.target = none →
      st.game.findClosestPlayer o.getCellPos = .ok closest →
      Yields [] st (st.game.toScene.set m (o.become o.info { fields with target := closest })) st.game.ticks st' →
      st'.net = st.net → MonsterTurn m o fields st st'
  | pursues {t : Ref} {p : GameObject} {closest : Option Ref} : o.info.state = .idle → st.game.lock fields.target = some t →
      st.game.objects[t]? = some p → st.game.findClosestPlayer o.getCellPos = .ok closest →
      Pursues [] m o { fields with target := closest } p st st' → MonsterTurn m o fields st st'
  | walks : o.info.state = .move → clockNow st.game.ticks < fields.waitMoveUntil →
      Yields [] st st.game.toScene (clockLater st.game.ticks) st' → st'.net = st.net → MonsterTurn m o fields st st'
  | halts : o.info.state = .move → ¬ clockNow st.game.ticks < fields.waitMoveUntil →
      Yields [] st (st.game.toScene.set m (o.become { o.info with state := .idle } fields)) (clockLater st.game.ticks) st' →
      st'.net = st.net → MonsterTurn m o fields st st'
  | misses : o.info.state = .skill → st.game.lock fields.target = none → st' = st → MonsterTurn m o fields st st'
  | hits {t : Ref} {p : GameObject} : o.info.state = .skill → st.game.lock fields.target = some t →
      st.game.objects[t]? = some p → 0 < p.info.hp - o.info.attack →
      Yields [] st ((st.game.toScene.modifyInfo t (·.hurt o.info.attack)).set m
        (o.become { o.info with state := .idle } fields)) st.game.ticks st' →
      Told st.game.toScene (.attack (p.info.hurt o.info.attack) o.info) st.net st'.net → MonsterTurn m o fields st st'
  | kills {t : Ref} {p : GameObject} {net : Outboxes} : o.info.state = .skill → st.game.lock fields.target = some t →
      st.game.objects[t]? = some p → p.info.hp - o.info.attack ≤ 0 →
      Yields [] st ((((st.game.toScene.modifyInfo t (·.hurt o.info.attack)).set m (o.become o.info { fields with target := none })).drop
        .players t (key t)).set m (o.become { o.info with state := .idle } { fields with target := none })) st.game.ticks st' →
      Told st.game.toScene (.attack (p.info.hurt o.info.attack) o.info) st.net net →
      Told st.game.toScene (.removeObject [key t]) net st'.net → MonsterTurn m o fields st st'
  | rests {n : Int32} : o.info.state = .other n → st' = st → MonsterTurn m o fields st st'

theorem set_set : (sc.set r o).set r o' = sc.set r o' := modify_set

/-- What is done after the closest player was chosen. -/
theorem Pursues.chosen {t : Ref} {p : GameObject} {closest : Option Ref}
    (hscene : st₁.game.toScene = st.game.toScene.set m (o.become o.info { fields with target := closest }))
    (hnet : st₁.net = st.net) (hticks : st₁.game.ticks = st.game.ticks) (hmap : st₁.game.tilemap = st.game.tilemap)
    (hvacant : ∀ next, st₁.game.toScene.Vacant next → st.game.toScene.Vacant next)
    (h : Pursues [t] m (o.become o.info { fields with target := closest }) { fields with target := closest } p st₁ st') :
    Pursues [] m o { fields with target := closest } p st (st'.update (·.release t)) := by
  have haudience : ∀ {msg net net'}, Told st₁.game.toScene msg net net' → Told st.game.toScene msg net net' := by
    intro msg net net' htold
    rw [hscene] at htold
    exact htold
  cases h with
  | waits hy hn ht =>
    refine .waits ⟨hy.good.release, ?_, hy.ticks, hy.tilemap.trans hmap⟩ (hn.trans hnet) ?_
    · exact hy.scene.trans (by rw [hscene, set_set]; rfl)
    · rwa [hticks] at ht
  | faces hnear hready hy htold =>
    rw [hticks] at hready hy
    rw [hnet] at htold
    refine .faces hnear hready ⟨hy.good.release, ?_, hy.ticks, hy.tilemap.trans hmap⟩ (haudience htold)
    exact hy.scene.trans (by rw [hscene, set_set]; rfl)
  | steps hfar hdist hfree hvac hy htold =>
    rw [hticks] at hy
    rw [hnet] at htold
    rw [hmap] at hfree
    refine .steps hfar hdist hfree (hvacant _ hvac) ⟨hy.good.release, ?_, hy.ticks, hy.tilemap.trans hmap⟩ (haudience htold)
    exact hy.scene.trans (by rw [hscene, set_set]; rfl)

/-- A monster is no player. -/
theorem Monstrous.ne (h : Good Anyone st pins) (hm : Monstrous st m o fields) {p : GameObject} (hp : st.game.objects[t]? = some p)
    (htype : p.info.objecttype = .player) : t ≠ m := by
  intro heq
  have htyped := h.core.typed m o hm.object
  unfold GameObject.Typed at htyped
  rw [hm.kind] at htyped
  rw [heq, hm.object] at hp
  rw [← Option.some.inj hp, htyped] at htype
  exact absurd htype (by decide)

theorem updateIdle_turn (h : Good Anyone st []) (hm : Monstrous st m o fields) (hstate : o.info.state = .idle) :
    IfReturns (Game.updateIdle post pick fuel m st) (MonsterTurn m o fields st) := by
  obtain ⟨hin, ho, hk⟩ := id hm
  have hroom : o.room = true := h.core.room_of hin ho
  unfold Game.updateIdle
  refine (deref_eq ho).bind fun o' ho' => ?_
  rw [ho', if_neg (by rw [hroom]; decide)]
  refine (monster_eq ho hk).bind fun fields' hfields => ?_
  rw [hfields]
  cases hlock : st.game.lock fields.target with
  | none =>
    refine ifReturns_self.bind fun closest hclosest => ?_
    obtain ⟨hgood, -⟩ := h.choose (B := Told) (U := Whisper) (r := m) (findClosestPlayer_spec.result hclosest)
    refine .ok (.seeks hstate hlock hclosest ⟨hgood, ?_, rfl, rfl⟩ rfl)
    show st.game.toScene.modify m (GameObject.onFields _) = _
    rw [modify_eq_set ho, onFields_become hk]
  | some t =>
    obtain ⟨htarget, hpos⟩ := lock_spec hlock
    obtain ⟨p, hp, htype⟩ := h.core.target m o fields t ho hk htarget
    have hne : t ≠ m := hm.ne h hp htype
    refine ifReturns_self.bind fun closest hclosest => ?_
    obtain ⟨hgood, -⟩ := (h.retain (r := t)).choose (B := Told) (U := Whisper) (r := m) (findClosestPlayer_spec.result hclosest)
    have hscene : (Game.modifyMonster m (fun fields => { fields with target := closest }) (st.update (·.retain t))).game.toScene =
        st.game.toScene.set m (o.become o.info { fields with target := closest }) := by
      show st.game.toScene.modify m (GameObject.onFields _) = _
      rw [modify_eq_set ho, onFields_become hk]
    have hsame : (st.update (·.retain t)).game.findClosestPlayer o.getCellPos = st.game.findClosestPlayer o.getCellPos := by
      apply findClosestPlayer_congr
      · rfl
      · intro r hr
        obtain ⟨q, hq, -⟩ := h.core.inside_room (.inl (h.core.elements_players hr))
        have hr : st.game.Inside r := .inl (h.core.elements_players hr)
        rw [h.deref hq (.inl hr), (h.retain (r := t)).deref hq (.inl hr)]
    have ho₁ : (Game.modifyMonster m (fun fields => { fields with target := closest }) (st.update (·.retain t))).game.objects[m]? =
        some (o.become o.info { fields with target := closest }) := by
      rw [hscene]
      exact set_self ho
    have hp₁ : (Game.modifyMonster m (fun fields => { fields with target := closest }) (st.update (·.retain t))).game.objects[t]? =
        some p := by
      rw [hscene]
      exact (set_ne hne).trans hp
    dsimp only
    refine (pursue_turn hgood ⟨hin, ho₁, rfl⟩ hstate hp₁).bind fun st₂ h₂ => ?_
    refine .ok (.pursues hstate hlock hp (hsame ▸ hclosest) (h₂.chosen hscene rfl rfl rfl fun next hnext => ?_))
    rw [hscene] at hnext
    have hcell : (o.become o.info { fields with target := closest }).getCellPos = o.getCellPos := rfl
    exact vacant_of_set ho hcell hnext

theorem updateMove_turn (h : Good Anyone st []) (hm : Monstrous st m o fields) (hstate : o.info.state = .move) :
    IfReturns (Game.updateMove post fuel m st) (MonsterTurn m o fields st) := by
  obtain ⟨hin, ho, hk⟩ := hm
  unfold Game.updateMove
  rw [getTickCount64_eq]
  dsimp only
  have ho₁ : (tick st).game.objects[m]? = some o := ho
  refine (monster_eq ho₁ hk).bind fun fields' hfields => ?_
  rw [hfields]
  split
  · rename_i hearly
    exact .ok (.walks hstate hearly ⟨h.tick, rfl, rfl, rfl⟩ rfl)
  · rename_i hlate
    refine (setState_quiet ho₁ (by rw [hstate]; decide)).imp fun st' h' => ?_
    rw [h']
    refine .halts hstate hlate ⟨h.tick.inState, ?_, rfl, rfl⟩ rfl
    show st.game.toScene.modify m _ = _
    rw [modify_eq_set ho]
    unfold GameObject.become
    rw [← hk]

/-- The player that a monster attacks. -/
theorem Monstrous.prey (h : Good Anyone st []) (hm : Monstrous st m o fields) (hlock : st.game.lock fields.target = some t) :
    t ≠ m ∧ st.game.players[key t]? = some t ∧ ∃ p : GameObject, st.game.objects[t]? = some p ∧ p.info.objecttype = .player := by
  obtain ⟨htarget, hpos⟩ := lock_spec hlock
  obtain ⟨p, hp, htype⟩ := h.core.target m o fields t hm.object hm.kind htarget
  refine ⟨hm.ne h hp htype, ?_, p, hp, htype⟩
  exact (h.core.inside_roster hp (show _ = some Roster.players by rw [htype]; rfl)).1 (h.inside hpos)

/-- An attack leaves the monster itself alone ... -/
theorem Monstrous.unhurt {f : ObjectInfo → ObjectInfo} (h : Good Anyone st []) (hm : Monstrous st m o fields)
    (hlock : st.game.lock fields.target = some t) : (st.game.toScene.modifyInfo t f).objects[m]? = some o :=
  (modifyInfo_ne (hm.prey h hlock).1.symm).trans hm.object

/-- ... and so does a kill. -/
theorem Monstrous.undropped {f : ObjectInfo → ObjectInfo} {which : Roster} {k : UInt64} (h : Good Anyone st [])
    (hm : Monstrous st m o fields) (hlock : st.game.lock fields.target = some t) :
    (((st.game.toScene.modifyInfo t f).set m o').drop which t k).objects[m]? = some o' :=
  (drop_ne (hm.prey h hlock).1.symm).trans (set_self (hm.unhurt h hlock))

/-- The attack is told to all. -/
theorem Strikes.told {v v' : Stage Outboxes} {info : ObjectInfo} (hs : Strikes Told v m t info v')
    (ho : v.game.objects[m]? = some o) : Told v.game (.attack info o.info) v.net v'.net := by
  cases hs with
  | mk hne hina hint ha ht hB =>
    rw [ho] at ha
    rw [Option.some.inj ha]
    exact hB

/-- A monster forgets its target. -/
theorem Good.clear (h : Good Anyone st pins) :
    Good Anyone (Game.modifyMonster m (fun fields => { fields with target := none }) st) pins :=
  (h.muse (B := Told) (U := Whisper) (.fields fun _ => .inr (.inl rfl))).1

/-- A player leaves the room, and this is told to all. -/
theorem removeObject_told {p : GameObject} (h : Good Anyone st pins) (hplayer : st.game.players[key t]? = some t)
    (hp : st.game.objects[t]? = some p) (htype : p.info.objecttype = .player) :
    IfReturns (Game.removeObject post fuel (key t) st) fun st' =>
      Yields pins st (st.game.toScene.drop .players t (key t)) st.game.ticks st' ∧
      Told st.game.toScene (.removeObject [key t]) st.net st'.net := by
  have hfound : st.game.findObject (key t) = some t := by
    unfold Scene.findObject
    rw [hplayer]
  have hroster : p.info.objecttype.roster = some .players := by
    rw [htype]
    rfl
  unfold Game.removeObject Game.removeObjectBy
  rw [hfound]
  dsimp only
  rw [← bind_assoc]
  refine (say_spec speaks_post (h.retain (r := t))).bind fun st₂ h₂ => ?_
  obtain ⟨hgood₂, hgame₂, htold⟩ := h₂
  have hp₂ : st₂.game.objects[t]? = some p := by rw [hgame₂]; exact hp
  refine (deref_eq hp₂).bind fun p' hp' => ?_
  rw [hp']
  simp only [hroster]
  have hplayer₂ : (st₂.game.roster .players)[key t]? = some t := by rw [hgame₂]; exact hplayer
  refine .ok ⟨⟨hgood₂.discard hplayer₂ hp₂ hroster, ?_, ?_, ?_⟩, htold⟩
  · show (st₂.game.discard .players t (key t)).toScene = _
    rw [discard_scene, hgame₂]
    rfl
  · show (st₂.game.erase .players (key t)).ticks = _
    rw [hgame₂]
    unfold Room.erase
    split <;> rfl
  · show (st₂.game.erase .players (key t)).tilemap = _
    rw [hgame₂]
    unfold Room.erase
    split <;> rfl

theorem updateSkill_turn (h : Good Anyone st []) (hm : Monstrous st m o fields) (hstate : o.info.state = .skill) :
    IfReturns (Game.updateSkill post fuel m st) (MonsterTurn m o fields st) := by
  obtain ⟨hin, ho, hk⟩ := id hm
  have hidle : o.info.state ≠ .idle := by rw [hstate]; decide
  unfold Game.updateSkill
  refine (monster_eq ho hk).bind fun fields' hfields => ?_
  rw [hfields]
  cases hlock : st.game.lock fields.target with
  | none => exact .ok (.misses hstate hlock rfl)
  | some t =>
    obtain ⟨hne, hplayer, p, hp, htype⟩ := hm.prey h hlock
    have hint : st.game.Inside t := .inl hplayer
    have h₁ : Good Anyone (st.update (·.retain t)) [t] := h.retain
    dsimp only
    refine (damage_spec speaks_post h₁ hne.symm hin hint ho hp).bind fun st₂ h₂ => ?_
    obtain ⟨hgood₂, hgame₂, hstrikes⟩ := h₂
    obtain ⟨hp₂, ho₂⟩ := hurt_objects hgame₂ hne.symm ho hp
    have htold : Told st.game.toScene (.attack (p.info.hurt o.info.attack) o.info) st.net st₂.net := hstrikes.told ho
    refine (deref_eq hp₂).bind fun p' hp' => ?_
    rw [hp']
    dsimp only
    split
    · rename_i hdead
      have hid : p.info.objectid = key t := h.core.id t p hp
      have hgood₃ := hgood₂.clear (m := m)
      have hscene₃ : (Game.modifyMonster m (fun fields => { fields with target := none }) st₂).game.toScene =
          (st.game.toScene.modifyInfo t (·.hurt o.info.attack)).set m (o.become o.info { fields with target := none }) := by
        show st₂.game.toScene.modify m (GameObject.onFields _) = _
        rw [modify_eq_set ho₂, onFields_become hk, hgame₂]
        rfl
      have ho₃ : (Game.modifyMonster m (fun fields => { fields with target := none }) st₂).game.objects[m]? =
          some (o.become o.info { fields with target := none }) := by
        rw [hscene₃]
        exact set_self ((modify_ne hne.symm).trans ho)
      have hp₃ : (Game.modifyMonster m (fun fields => { fields with target := none }) st₂).game.objects[t]? =
          some { p with info := p.info.hurt o.info.attack } := (modify_ne hne).trans hp₂
      have hplayer₃ : (Game.modifyMonster m (fun fields => { fields with target := none }) st₂).game.players[key t]? = some t := by
        rw [hscene₃]
        exact hplayer
      refine (deref_eq ho₃).bind fun o₃ ho₃' => ?_
      rw [ho₃']
      split
      · exact .error trivial
      rw [show (p.info.hurt o.info.attack).objectid = key t from hid]
      refine (removeObject_told hgood₃ hplayer₃ hp₃ htype).bind fun st₄ h₄ => ?_
      obtain ⟨hy, hremoved⟩ := h₄
      have ho₄ : st₄.game.objects[m]? = some (o.become o.info { fields with target := none }) := by
        rw [hy.scene, hscene₃]
        exact (modify_ne hne.symm).trans (set_self ((modify_ne hne.symm).trans ho))
      refine (setState_quiet ho₄ hidle).bind fun st₅ h₅ => ?_
      rw [h₅]
      refine .ok (.kills hstate hlock hp hdead ⟨hy.good.inState.release, ?_, ?_, ?_⟩ htold ?_)
      · show st₄.game.toScene.modify m _ = _
        rw [modify_eq_set ho₄, hy.scene, hscene₃]
        rfl
      · show st₄.game.ticks = _
        rw [hy.ticks]
        show st₂.game.ticks = _
        rw [hgame₂]
        rfl
      · show st₄.game.tilemap = _
        rw [hy.tilemap]
        show st₂.game.tilemap = _
        rw [hgame₂]
        rfl
      · rw [hscene₃] at hremoved
        exact hremoved
    · rename_i halive
      refine (setState_quiet ho₂ hidle).bind fun st₃ h₃ => ?_
      rw [h₃]
      refine .ok (.hits hstate hlock hp (Int32.not_le.1 halive)
        ⟨hgood₂.inState.release, ?_, ?_, ?_⟩ htold)
      · show st₂.game.toScene.modify m _ = _
        rw [modify_eq_set ho₂, hgame₂]
        unfold GameObject.become
        rw [← hk]
        rfl
      · show st₂.game.ticks = _
        rw [hgame₂]
        rfl
      · show st₂.game.tilemap = _
        rw [hgame₂]
        rfl

/-- **A monster takes its turn.** -/
theorem updateMonster_turn (h : Good Anyone st []) (hm : Monstrous st m o fields) :
    IfReturns (Game.updateMonster post pick fuel m st) (MonsterTurn m o fields st) := by
  unfold Game.updateMonster
  refine (deref_eq hm.object).bind fun o' ho' => ?_
  rw [ho']
  cases hstate : o.info.state with
  | idle => exact updateIdle_turn h hm hstate
  | move => exact updateMove_turn h hm hstate
  | skill => exact updateSkill_turn h hm hstate
  | other n => exact .ok (.rests hstate rfl)

/-! ## All monsters, one after the other -/

/-- `m` is updated. -/
def TurnStep (pick : Pick) (st : Game Outboxes) (m : Ref) (st' : Game Outboxes) : Prop :=
  ∃ fuel, Game.updateMonster post pick fuel m st = .ok st'

theorem Good.monstrous (h : Good Anyone st pins) {k : UInt64} (hmem : st.game.monsters[k]? = some m) :
    k = key m ∧ ∃ o fields, Monstrous st m o fields := by
  obtain ⟨hkey, o, ho, htype, -⟩ := h.core.monsters k m hmem
  refine ⟨hkey, ?_⟩
  have htyped := h.core.typed m o ho
  unfold GameObject.Typed at htyped
  cases hk : o.kind with
  | monster fields => exact ⟨o, fields, .inr (hkey ▸ hmem), ho, hk⟩
  | player s =>
    rw [hk] at htyped
    dsimp only at htyped
    rw [htype] at htyped
    exact absurd htyped (by decide)

/-- What a turn keeps. -/
theorem MonsterTurn.kept (h : Good Anyone st []) (hturn : MonsterTurn m o fields st st') : Good Anyone st' [] ∧
    st'.game.monsters = st.game.monsters ∧ st'.game.tilemap = st.game.tilemap := by
  have hyields : ∀ {sc : Scene} {ticks : List UInt64}, Yields [] st sc ticks st' → sc.monsters = st.game.monsters →
      Good Anyone st' [] ∧ st'.game.monsters = st.game.monsters ∧ st'.game.tilemap = st.game.tilemap := by
    intro sc ticks hy hmonsters
    exact ⟨hy.good, (congrArg Scene.monsters hy.scene).trans hmonsters, hy.tilemap⟩
  cases hturn with
  | seeks _ _ _ hy => exact hyields hy rfl
  | pursues _ _ _ _ hp =>
    cases hp with
    | waits hy => exact hyields hy rfl
    | faces _ _ hy => exact hyields hy rfl
    | steps _ _ _ _ hy => exact hyields hy rfl
  | walks _ _ hy => exact hyields hy rfl
  | halts _ _ hy => exact hyields hy rfl
  | misses _ _ heq => rw [heq]; exact ⟨h, rfl, rfl⟩
  | hits _ _ _ _ hy => exact hyields hy rfl
  | kills _ _ _ _ hy => exact hyields hy rfl
  | rests _ heq => rw [heq]; exact ⟨h, rfl, rfl⟩

/-- **A turn of `m`** leaves every other object as it is, but for the one that it attacks. -/
theorem MonsterTurn.others (hturn : MonsterTurn m o fields st st') {x : Ref} (hx : x ≠ m)
    (hno : ∀ t, o.info.state = .skill → st.game.lock fields.target = some t → x ≠ t) :
    st'.game.objects[x]? = st.game.objects[x]? := by
  have hset : ∀ {o' : GameObject} {ticks : List UInt64}, Yields [] st (st.game.toScene.set m o') ticks st' →
      st'.game.objects[x]? = st.game.objects[x]? := by
    intro o' ticks hy
    rw [hy.scene, set_ne hx]
  cases hturn with
  | seeks _ _ _ hy => exact hset hy
  | pursues _ _ _ _ hpursues =>
    cases hpursues with
    | waits hy => exact hset hy
    | faces _ _ hy => exact hset hy
    | steps _ _ _ _ hy => exact hset hy
  | walks _ _ hy => rw [hy.scene]
  | halts _ _ hy => exact hset hy
  | misses _ _ heq => rw [heq]
  | hits hskill hlock _ _ hy => rw [hy.scene, set_ne hx, modifyInfo_ne (hno _ hskill hlock)]
  | kills hskill hlock _ _ hy =>
    have hne := hno _ hskill hlock
    rw [hy.scene, set_ne hx, drop_ne hne, set_ne hx, modifyInfo_ne hne]
  | rests _ heq => rw [heq]

/-- The players after a turn. -/
theorem MonsterTurn.players (hturn : MonsterTurn m o fields st st') : st'.game.players = st.game.players ∨
    ∃ t, o.info.state = .skill ∧ st.game.lock fields.target = some t ∧ st'.game.players = st.game.players.erase (key t) := by
  cases hturn with
  | seeks _ _ _ hy => exact .inl hy.players
  | pursues _ _ _ _ hpursues =>
    left
    cases hpursues with
    | waits hy => exact hy.players
    | faces _ _ hy => exact hy.players
    | steps _ _ _ _ hy => exact hy.players
  | walks _ _ hy => exact .inl hy.players
  | halts _ _ hy => exact .inl hy.players
  | misses _ _ heq => exact .inl (by rw [heq])
  | hits _ _ _ _ hy => exact .inl hy.players
  | kills hskill hlock _ _ hy => exact .inr ⟨_, hskill, hlock, hy.players⟩
  | rests _ heq => exact .inl (by rw [heq])

/-- Who is not in the room does not come back in a turn. -/
theorem MonsterTurn.gone (hturn : MonsterTurn m o fields st st') (hout : st.game.players[key t]? ≠ some t) :
    st'.game.players[key t]? ≠ some t := by
  rcases hturn.players with heq | ⟨t', -, -, heq⟩
  · rwa [heq]
  · rw [heq, TreeMap.getElem?_erase]
    split
    · exact (Option.some_ne_none t).symm
    · exact hout

/-- **`GameRoom::Update`** gives every monster its turn. -/
theorem updateRoom_turns (h : Good Anyone st []) : IfReturns (Game.updateRoom post pick fuel st) fun st' =>
    Good Anyone st' [] ∧ st'.game.monsters = st.game.monsters ∧ Runs (TurnStep pick) st (elements st.game.monsters) st' := by
  unfold Game.updateRoom
  refine (Post.rangeFor (I := fun before (st' : Game Outboxes) => Good Anyone st' [] ∧
    Runs (TurnStep pick) st (before.map Prod.snd) st') ⟨trivial, trivial⟩ ?_ rfl ⟨h, .nil⟩).imp
    fun st' h' => ⟨h'.2.1, h'.1, h'.2.2⟩
  intro before k m after st₁ hlist hmonsters h₁
  obtain ⟨hgood, hruns⟩ := h₁
  have hmem : st₁.game.monsters[k]? = some m := by
    rw [hmonsters, ← TreeMap.mem_toList_iff_getElem?_eq_some, hlist]
    simp
  obtain ⟨-, o, fields, hm⟩ := hgood.monstrous hmem
  refine ifReturns_iff.2 fun st' hst' _ => ?_
  obtain ⟨hgood', hmonsters', -⟩ := ((updateMonster_turn hgood hm).result hst').kept hgood
  refine ⟨hmonsters'.trans hmonsters, hgood', ?_⟩
  rw [List.map_append]
  exact .snoc hruns ⟨fuel, hst'⟩

end ZeldaServer
