import ZeldaServer.Proof.Assault
import ZeldaServer.Proof.Closest

/-!
# The player that a monster turned to

`UpdateIdle` tests and faces the player that `_target` was, and makes the closest player the
new `_target`, which `UpdateSkill` then hits.

* `Room.Loyal`: a monster that is about to attack stands beside the player that is the closest.
* `hits_the_faced`: then it hits the player that it turned to.
-/

namespace ZeldaServer

open Lib Std

variable {st st' : Game Outboxes} {m r t x : Ref} {o p p' : GameObject} {fields : Monster} {pick : Pick} {sc : Scene} {op : RoomOp}
  {ticks : List UInt64}

/-- The player whose distance `UpdateIdle` of `m` tests. -/
def Room.tested (room : Room) (m : Ref) : Option Ref :=
  (room.objects[m]?).bind fun o =>
    match o.kind with
    | .monster fields => room.lock fields.target
    | .player _ => none

/-- `t` was beside `m`, and `m` looks to its cell. -/
def Room.turnedTo (room room' : Room) (m t : Ref) : Bool :=
  match room.objects[m]?, room.objects[t]?, room'.objects[m]? with
  | some o, some p, some o' => decide ((p.getCellPos.sub o.getCellPos).taxicab = 1 ∧ o'.info.dir = o.getLookAtDir p.getCellPos)
  | _, _, _ => false

/-- The player that each monster turned to last. -/
abbrev Faced := Ref → Option Ref

/-- A monster that was idle and is in SKILL has turned to the player that it tested, if it stood beside it and looks to it. -/
def Faced.note (who : Option Ref) (st st' : Game Outboxes) (faced : Faced) : Faced :=
  match who with
  | none => faced
  | some m =>
    if st.game.state m = some .idle ∧ st'.game.state m = some .skill then
      Function.update faced m ((st.game.tested m).filter (st.game.turnedTo st'.game m))
    else faced

/-- If `m` is going to attack, the player that it tests comes first by `LengthSquared`. -/
def Room.Loyal (room : Room) (m : Ref) : Prop :=
  ∀ (o p : GameObject) (fields : Monster) (t : Ref), room.objects[m]? = some o → o.kind = .monster fields → o.info.state = .idle →
    room.lock fields.target = some t → room.objects[t]? = some p → (p.getCellPos.sub o.getCellPos).taxicab = 1 →
    ¬ clockNow room.ticks < fields.waitAttackUntil → FirstLeast room.players (room.sighted o.getCellPos) (key t) t

/-- A turn that begins in a loyal state. -/
def LoyalTurn (pick : Pick) (s : Game Outboxes × Faced) (m : Ref) (s' : Game Outboxes × Faced) : Prop :=
  NotedTurn Faced.note pick s m s' ∧ s.1.game.Loyal m

/-- An operation whose turns begin in loyal states. -/
def LoyalStep (s : Game Outboxes × Faced) (op : RoomOp) (s' : Game Outboxes × Faced) : Prop :=
  PlayersStep s.1 op s'.1 ∧
    match op with
    | .update ticks pick => Runs (LoyalTurn pick) (clocked ticks s.1, s.2) (elements s.1.game.monsters) s'
    | _ => s'.2 = Faced.note none s.1 s'.1 s.2

/-- Every monster in SKILL has as its target the player that it turned to. -/
structure Trusty (s : Game Outboxes × Faced) : Prop where
  good : Good Anyone s.1 []
  aims : ∀ (m : Ref) (o : GameObject) (fields : Monster), s.1.game.monsters[key m]? = some m → s.1.game.objects[m]? = some o →
    o.kind = .monster fields → o.info.state = .skill → fields.target = s.2 m

/-! ## One turn -/

theorem tested_eq (hm : Monstrous st m o fields) : st.game.tested m = st.game.lock fields.target := by
  unfold Room.tested
  rw [hm.object, Option.bind_some, hm.kind]

/-- A turn without an attack is not noted. -/
theorem note_other {faced : Faced} (h : ¬ (st.game.state m = some .idle ∧ st'.game.state m = some .skill)) :
    Faced.note (some m) st st' faced = faced := if_neg h

/-- **The turn of a monster that ends in SKILL.** -/
theorem Trusty.turn {s s' : Game Outboxes × Faced} {o' : GameObject} {fields' : Monster} (h : Trusty s)
    (hm : Monstrous s.1 m o fields) (hturn : MonsterTurn m o fields s.1 s'.1)
    (hnote : s'.2 = Faced.note (some m) s.1 s'.1 s.2) (hloyal : s.1.game.Loyal m) (ho' : s'.1.game.objects[m]? = some o')
    (hk' : o'.kind = .monster fields') (hskill : o'.info.state = .skill) : fields'.target = s'.2 m := by
  obtain ⟨hgood, haims⟩ := h
  have hstate : s.1.game.state m = some o.info.state := by
    unfold Scene.state
    rw [hm.object]
    rfl
  have hset : ∀ {sc : Scene} {q o₁ : GameObject} {ticks : List UInt64}, Yields [] s.1 (sc.set m o₁) ticks s'.1 →
      sc.objects[m]? = some q → o' = o₁ := by
    intro sc q o₁ ticks hy hq
    exact Option.some.inj (ho'.symm.trans (hy.self hq))
  have hidle : ∀ {sc : Scene} {q o₁ : GameObject} {ticks : List UInt64}, Yields [] s.1 (sc.set m o₁) ticks s'.1 →
      sc.objects[m]? = some q → o₁.info.state ≠ .skill → fields'.target = s'.2 m := by
    intro sc q o₁ ticks hy hq hne
    rw [← hset hy hq] at hne
    exact absurd hskill hne
  -- the monster was in SKILL before, and nothing has happened
  have hstays : s'.1 = s.1 → fields'.target = s'.2 m := by
    intro heq
    rw [heq, hm.object] at ho'
    obtain rfl := Option.some.inj ho'
    obtain rfl : fields = fields' := Kind.monster.inj (hm.kind.symm.trans hk')
    rw [hnote, note_other]
    · exact haims m o fields (hm.member hgood) hm.object hm.kind hskill
    · rw [hstate, hskill]
      rintro ⟨habsurd, -⟩
      exact absurd habsurd (by decide)
  cases hturn with
  | seeks hs _ _ hy => exact hidle hy hm.object (by show o.info.state ≠ _; rw [hs]; decide)
  | @pursues t p closest hs hlock hp hclosest hpursues =>
    cases hpursues with
    | waits hy => exact hidle hy hm.object (by show o.info.state ≠ _; rw [hs]; decide)
    | faces hnear hready hy =>
      obtain rfl := hset hy hm.object
      -- the closest player is the one beside the monster
      have hfirst := hloyal o p fields t hm.object hm.kind hs hlock hp hnear hready
      obtain ⟨k, t', hfirst', hfound⟩ := findClosestPlayer_first (fun r hr => hgood.alive hr) hfirst.mem o.getCellPos
      obtain ⟨-, rfl⟩ := hfirst.unique hfirst'
      obtain rfl : closest = some t := Except.ok.inj (hclosest.symm.trans hfound)
      have htarget : fields'.target = some t := by rw [← Kind.monster.inj hk']
      have hturned : s.1.game.turnedTo s'.1.game m t = true := by
        unfold Room.turnedTo
        rw [hm.object, hp, ho']
        exact decide_eq_true ⟨hnear, rfl⟩
      have hnow : s.1.game.state m = some .idle ∧ s'.1.game.state m = some .skill := by
        refine ⟨hstate.trans (congrArg some hs), ?_⟩
        unfold Scene.state
        rw [ho', Option.map_some, hskill]
      rw [htarget, hnote]
      unfold Faced.note
      dsimp only
      rw [if_pos hnow, Function.update_self, tested_eq hm, hlock, Option.filter_some, if_pos hturned]
    | steps _ _ _ _ hy => exact hidle hy hm.object (show ObjectState.move ≠ .skill by decide)
  | walks hs _ hy =>
    rw [hy.scene, hm.object] at ho'
    rw [← Option.some.inj ho', hs] at hskill
    exact absurd hskill (by decide)
  | halts _ _ hy => exact hidle hy hm.object (show ObjectState.idle ≠ .skill by decide)
  | misses _ _ heq => exact hstays heq
  | hits _ hlock _ _ hy =>
    exact hidle hy (hm.unhurt hgood hlock) (show ObjectState.idle ≠ .skill by decide)
  | kills _ hlock _ _ hy =>
    exact hidle hy (hm.undropped hgood hlock) (show ObjectState.idle ≠ .skill by decide)
  | rests _ heq => exact hstays heq

/-- A turn keeps the notes true. -/
theorem Trusty.next {s s' : Game Outboxes × Faced} (h : Trusty s) (hmem : s.1.game.monsters[key m]? = some m)
    (hstep : LoyalTurn pick s m s') : Trusty s' ∧ s'.1.game.monsters = s.1.game.monsters := by
  obtain ⟨⟨⟨fuel, hupdate⟩, hnote⟩, hloyal⟩ := hstep
  obtain ⟨-, o, fields, hm⟩ := h.good.monstrous hmem
  have hturn := (updateMonster_turn h.good hm).result hupdate
  obtain ⟨hgood', hmonsters, -⟩ := hturn.kept h.good
  refine ⟨⟨hgood', ?_⟩, hmonsters⟩
  intro x o' fields' hmem' ho' hk' hskill
  by_cases hx : x = m
  · subst hx
    exact h.turn hm hturn hnote hloyal ho' hk' hskill
  · -- another monster
    rw [hmonsters] at hmem'
    obtain ⟨-, q, mine, hq⟩ := h.good.monstrous hmem'
    have hsame := hturn.spares h.good hm hx hq.object hq.kind
    obtain rfl : o' = q := Option.some.inj (ho'.symm.trans hsame)
    rw [h.aims x o' fields' hmem' hq.object hk' hskill, hnote]
    unfold Faced.note
    dsimp only
    split
    · exact (Function.update_of_ne hx _ _).symm
    · rfl

theorem Trusty.turns {ms : List Ref} {s s' : Game Outboxes × Faced} (h : Trusty s) (hms : ∀ y ∈ ms, s.1.game.monsters[key y]? = some y)
    (hruns : Runs (LoyalTurn pick) s ms s') : Trusty s' ∧ s'.1.game.monsters = s.1.game.monsters := by
  induction hruns with
  | nil => exact ⟨h, rfl⟩
  | @snoc es s₁ m s₂ _ hstep ih =>
    obtain ⟨htrusty, hmonsters⟩ := ih fun y hy => hms y (List.mem_append_left _ hy)
    have hmem := hms m (List.mem_append_right _ List.mem_cons_self)
    rw [← hmonsters] at hmem
    obtain ⟨htrusty', hmonsters'⟩ := htrusty.next hmem hstep
    exact ⟨htrusty', hmonsters'.trans hmonsters⟩

/-! ## Runs -/

theorem Trusty.clocked {s : Game Outboxes × Faced} (h : Trusty s) (ticks : List UInt64) : Trusty (clocked ticks s.1, s.2) :=
  ⟨h.good.clocked ticks, h.aims⟩

theorem Trusty.step {s s' : Game Outboxes × Faced} (h : Trusty s) (hstep : LoyalStep s op s') : Trusty s' := by
  obtain ⟨hplayers, hnote⟩ := hstep
  have hgood' := (roomStep_acts h.good hplayers.1).1
  -- an operation that is no update leaves the monsters alone
  have hother : (∀ ticks pick, op ≠ .update ticks pick) → s'.2 = s.2 → Trusty s' := by
    intro hop hnote
    refine ⟨hgood', ?_⟩
    intro m o' fields' hmem' ho' hk' hskill
    obtain ⟨-, acts, hacts, -⟩ := roomStep_acts h.good hplayers.1
    have hidle : s.1.game.objects[m]? = none → False := by
      intro hnone
      rw [op_fresh h.good hplayers hop hnone ho'] at hskill
      exact absurd hskill (by decide)
    rcases acts_recruit hacts hmem' with hmem | hnone
    · obtain ⟨-, o, fields, hm⟩ := h.good.monstrous hmem
      obtain ⟨o₁, ho₁, hpose⟩ := op_pose h.good hplayers hop hm.object hm.kind o hm.object
      obtain rfl : o' = o₁ := Option.some.inj (ho'.symm.trans ho₁)
      obtain ⟨hkind, hpose⟩ := Prod.mk.inj hpose
      rw [hnote]
      exact h.aims m o fields' hmem hm.object (hkind.symm.trans hk') ((Prod.mk.inj hpose).1.symm.trans hskill)
    · exact (hidle hnone).elim
  cases op with
  | update ticks pick =>
    have hms : ∀ y ∈ elements s.1.game.monsters, (ZeldaServer.clocked ticks s.1).game.monsters[key y]? = some y :=
      fun y hy => h.good.core.elements_monsters hy
    exact ((h.clocked ticks).turns hms hnote).1
  | init _ => exact hother (fun _ _ => nofun) hnote
  | enterRoom _ => exact hother (fun _ _ => nofun) hnote
  | leaveRoom _ => exact hother (fun _ _ => nofun) hnote
  | handleCMove _ => exact hother (fun _ _ => nofun) hnote

theorem trusty_run {ops : List RoomOp} {s : Game Outboxes × Faced} (h : Runs LoyalStep (roomStart, fun _ => none) ops s) : Trusty s := by
  induction h with
  | nil =>
    refine ⟨good_start, ?_⟩
    intro m o fields hmem
    rw [show roomStart.game.monsters = ∅ from rfl] at hmem
    simp at hmem
  | snoc _ hstep ih => exact ih.step hstep

/-- A turn leaves the monster its hp. -/
theorem MonsterTurn.own_hp (h : Good Anyone st []) (hm : Monstrous st m o fields) (hturn : MonsterTurn m o fields st st') :
    ∃ o', st'.game.objects[m]? = some o' ∧ o'.info.hp = o.info.hp := by
  have ho := hm.object
  cases hturn with
  | seeks _ _ _ hy => exact ⟨_, hy.self ho, rfl⟩
  | pursues _ _ _ _ hpursues =>
    cases hpursues with
    | waits hy => exact ⟨_, hy.self ho, rfl⟩
    | faces _ _ hy => exact ⟨_, hy.self ho, rfl⟩
    | steps _ _ _ _ hy => exact ⟨_, hy.self ho, rfl⟩
  | walks _ _ hy => exact ⟨o, by rw [hy.scene]; exact ho, rfl⟩
  | halts _ _ hy => exact ⟨_, hy.self ho, rfl⟩
  | misses _ _ heq => exact ⟨o, by rw [heq]; exact ho, rfl⟩
  | hits _ hlock _ _ hy =>
    exact ⟨_, hy.self (hm.unhurt h hlock), rfl⟩
  | kills _ hlock _ _ hy =>
    exact ⟨_, hy.self (hm.undropped h hlock), rfl⟩
  | rests _ heq => exact ⟨o, by rw [heq]; exact ho, rfl⟩

/-- A turn takes hp from the target only, in SKILL. -/
theorem MonsterTurn.harms (h : Good Anyone st []) (hm : Monstrous st m o fields) (hturn : MonsterTurn m o fields st st')
    (hp : st.game.objects[x]? = some p) (hp' : st'.game.objects[x]? = some p') (hhurt : p'.info.hp ≠ p.info.hp) :
    o.info.state = .skill ∧ fields.target = some x := by
  by_contra hno
  by_cases hx : x = m
  · obtain ⟨o', ho', hhp⟩ := hturn.own_hp h hm
    rw [← hx] at ho'
    obtain rfl : o' = p' := Option.some.inj (ho'.symm.trans hp')
    obtain rfl : o = p := Option.some.inj (hm.object.symm.trans (hx ▸ hp))
    exact hhurt hhp
  · have hsame := hturn.others hx fun t hskill hlock heq => hno ⟨hskill, heq ▸ (lock_spec hlock).1⟩
    rw [hp, hp'] at hsame
    obtain rfl := Option.some.inj hsame
    exact hhurt rfl

/-- **A monster hits the player that it turned to**, in every run whose turns begin in loyal states. -/
theorem hits_the_faced {ops : List RoomOp} {s s₁ : Game Outboxes × Faced} {before after : List Ref}
    (h : Runs LoyalStep (roomStart, fun _ => none) ops s) (hsplit : elements s.1.game.monsters = before ++ m :: after)
    (hturns : Runs (LoyalTurn pick) (clocked ticks s.1, s.2) before s₁) (hturn : TurnStep pick s₁.1 m st')
    (hp : s₁.1.game.objects[x]? = some p) (hp' : st'.game.objects[x]? = some p') (hhurt : p'.info.hp ≠ p.info.hp) :
    s₁.1.game.state m = some .skill ∧ s₁.2 m = some x := by
  have htrusty := trusty_run h
  have hms : ∀ y ∈ before ++ m :: after, (clocked ticks s.1).game.monsters[key y]? = some y := by
    intro y hy
    rw [← hsplit] at hy
    exact htrusty.good.core.elements_monsters hy
  obtain ⟨htrusty₁, hmonsters⟩ := (htrusty.clocked ticks).turns (fun y hy => hms y (List.mem_append_left _ hy)) hturns
  have hmem := hms m (List.mem_append_right _ List.mem_cons_self)
  rw [← hmonsters] at hmem
  obtain ⟨-, o, fields, hm⟩ := htrusty₁.good.monstrous hmem
  obtain ⟨fuel, hupdate⟩ := hturn
  obtain ⟨hskill, htarget⟩ := ((updateMonster_turn htrusty₁.good hm).result hupdate).harms htrusty₁.good hm hp hp' hhurt
  rw [← htrusty₁.aims m o fields hmem hm.object hm.kind hskill]
  refine ⟨?_, htarget⟩
  unfold Scene.state
  rw [hm.object, Option.map_some, hskill]

/-! ## One player and two -/

/-- A monster alone with one player is loyal. -/
theorem loyal_alone (h : Good Anyone st []) (hm : st.game.monsters[key m]? = some m) (hone : (elements st.game.players).length ≤ 1) :
    st.game.Loyal m := by
  intro o p fields t ho hk _ hlock _ _ _
  have hmonstrous : Monstrous st m o fields := ⟨.inr hm, ho, hk⟩
  obtain ⟨-, hplayer, -⟩ := hmonstrous.prey h hlock
  refine ⟨hplayer, ?_⟩
  intro k' t' hplayer'
  have htt : t' = t := by
    have hin := mem_elements.2 ⟨_, hplayer⟩
    have hin' := mem_elements.2 ⟨_, hplayer'⟩
    obtain ⟨a, ha⟩ := List.length_eq_one_iff.1 (Nat.le_antisymm hone (List.length_pos_of_mem hin))
    rw [ha] at hin hin'
    rw [List.mem_singleton.1 hin, List.mem_singleton.1 hin']
  subst htt
  obtain rfl := (h.core.players k' t' hplayer').1
  exact .inr ⟨rfl, by rw [compare_self]; rfl⟩

/-- One operation of a run with the monster `0` and at most one player. -/
def loneExec (s : Game Outboxes × Faced) (op : RoomOp) : Option (Game Outboxes × Faced) :=
  if (elements s.1.game.players).length ≤ 1 then notedExec Faced.note 0 s op else none

theorem loneExec_step {s s' : Game Outboxes × Faced} (hgood : Good Anyone s.1 []) (h : loneExec s op = some s') : LoyalStep s op s' := by
  unfold loneExec at h
  split at h
  · rename_i hone
    have hnoted := notedExec_step hgood h
    refine ⟨hnoted.1, ?_⟩
    cases op with
    | update ticks pick =>
      have hmonsters := notedExec_alone h
      have hturn : Runs (NotedTurn Faced.note pick) (clocked ticks s.1, s.2) (elements s.1.game.monsters) s' := hnoted.2
      have hmem : (clocked ticks s.1).game.monsters[key 0]? = some 0 :=
        hgood.core.elements_monsters (show 0 ∈ elements s.1.game.monsters by rw [hmonsters]; simp)
      dsimp only
      rw [hmonsters] at hturn ⊢
      exact .single ⟨hturn.of_single, loyal_alone (hgood.clocked ticks) hmem hone⟩
    | init _ => exact hnoted.2
    | enterRoom _ => exact hnoted.2
    | leaveRoom _ => exact hnoted.2
    | handleCMove _ => exact hnoted.2
  · cases h

theorem loneExec_alone {s s' : Game Outboxes × Faced} (h : loneExec s (.update ticks pick) = some s') :
    elements s.1.game.monsters = [0] := by
  unfold loneExec at h
  split at h
  · exact notedExec_alone h
  · cases h

theorem loneExec_runs {s s' : Game Outboxes × Faced} {ops : List RoomOp} (hgood : Good Anyone s.1 [])
    (h : ops.foldlM loneExec s = some s') : Runs LoyalStep s ops s' ∧ Good Anyone s'.1 [] := by
  have hruns := Runs.ofFold loneExec s ops h
  clear h
  induction hruns with
  | nil => exact ⟨.nil, hgood⟩
  | snoc _ hstep ih =>
    obtain ⟨hruns, hgood₁⟩ := ih
    have hloyal := loneExec_step hgood₁ hstep
    exact ⟨hruns.snoc hloyal, (roomStep_acts hgood₁ hloyal.1.1).1⟩

/-- The state of the monster `0`, whom it turned to, and the hp of the player `1`, before and after an operation. -/
def hitExec (exec : Game Outboxes × Faced → RoomOp → Option (Game Outboxes × Faced)) (ops : List RoomOp) (op : RoomOp) :
    Option (Option ObjectState × Option Ref × Option Int32 × Option Int32) := do
  let s ← ops.foldlM exec (roomStart, fun _ => none)
  let s' ← exec s op
  some (s.1.game.state 0, s.2 0, (s.1.game.objects[1]?).map (·.info.hp), (s'.1.game.objects[1]?).map (·.info.hp))

theorem hitExec_runs {exec : Game Outboxes × Faced → RoomOp → Option (Game Outboxes × Faced)}
    {ops : List RoomOp} {state : ObjectState}
    {hp hp' : Int32} (h : hitExec exec ops op = some (some state, some r, some hp, some hp')) :
    ∃ s s' p p', ops.foldlM exec (roomStart, fun _ => none) = some s ∧ exec s op = some s' ∧ s.1.game.state 0 = some state ∧
      s.2 0 = some r ∧ s.1.game.objects[1]? = some p ∧ s'.1.game.objects[1]? = some p' ∧ p.info.hp = hp ∧ p'.info.hp = hp' := by
  obtain ⟨s, hs, h⟩ := Option.bind_eq_some_iff.1 h
  obtain ⟨s', hs', h⟩ := Option.bind_eq_some_iff.1 h
  obtain ⟨hstate, h⟩ := Prod.mk.inj (Option.some.inj h)
  obtain ⟨hfaced, h⟩ := Prod.mk.inj h
  obtain ⟨hhp, hhp'⟩ := Prod.mk.inj h
  obtain ⟨p, hp, heq⟩ := Option.map_eq_some_iff.1 hhp
  obtain ⟨p', hp', heq'⟩ := Option.map_eq_some_iff.1 hhp'
  exact ⟨s, s', p, p', hs, hs', hstate, hfaced, hp, hp', heq, heq'⟩

/-- A player beside the monster is tested, faced and hit. -/
theorem hits_the_faced_example : ∃ s st' p p', Runs LoyalStep (roomStart, fun _ => none) ambush s ∧
    TurnStep (fun _ => 0) (clocked [2000] s.1) 0 st' ∧ s.1.game.objects[1]? = some p ∧ st'.game.objects[1]? = some p' ∧
    p'.info.hp ≠ p.info.hp ∧ s.1.game.state 0 = some .skill ∧ s.2 0 = some 1 := by
  have hrun : hitExec loneExec ambush (.update [2000] fun _ => 0) = some (some .skill, some 1, some 100, some 95) := by decide +kernel
  obtain ⟨s, s', p, p', hs, hs', -, -, hp, hp', heq, heq'⟩ := hitExec_runs hrun
  obtain ⟨hruns, hgood⟩ := loneExec_runs good_start hs
  have hstep := loneExec_step hgood hs'
  have hmonsters : elements s.1.game.monsters = [0] := loneExec_alone hs'
  have hturns : Runs (LoyalTurn fun _ => 0) (clocked [2000] s.1, s.2) (elements s.1.game.monsters) s' := hstep.2
  rw [hmonsters] at hturns
  have hturn := hturns.of_single.1.1
  have hhurt : p'.info.hp ≠ p.info.hp := by
    rw [heq, heq']
    decide
  have hsplit : elements s.1.game.monsters = [] ++ 0 :: [] := hmonsters
  obtain ⟨hskill, hfaced⟩ := hits_the_faced hruns hsplit .nil hturn hp hp' hhurt
  exact ⟨s, s'.1, p, p', hruns, hturn, hp, hp', hhurt, hskill, hfaced⟩

/-- The player `2` is beside the monster, as its target, when the player `1`, whose id is
smaller, comes beside it too: the monster turns to `2` and hits `1`. -/
def decoy : List RoomOp :=
  [.init meadow, .enterRoom 0, .enterRoom 1, .handleCMove (placed 3 8 7), .update [0] fun _ => 0, .handleCMove (placed 2 7 8),
    .update [1000] fun _ => 0]

theorem hits_another : ∃ s st' p p', Runs (NotedStep Faced.note) (roomStart, fun _ => none) decoy s ∧
    elements s.1.game.monsters = [0] ∧ TurnStep (fun _ => 0) (clocked [2000] s.1) 0 st' ∧ s.1.game.state 0 = some .skill ∧
    s.1.game.objects[1]? = some p ∧ st'.game.objects[1]? = some p' ∧ p'.info.hp ≠ p.info.hp ∧ s.2 0 = some 2 := by
  have hrun : hitExec (notedExec Faced.note 0) decoy (.update [2000] fun _ => 0) = some (some .skill, some 2, some 100, some 95) := by
    decide +kernel
  obtain ⟨s, s', p, p', hs, hs', hskill, hfaced, hp, hp', heq, heq'⟩ := hitExec_runs hrun
  obtain ⟨hruns, hgood⟩ := notedExec_runs good_start hs
  have hstep := notedExec_step hgood hs'
  have hmonsters : elements s.1.game.monsters = [0] := notedExec_alone hs'
  have hturns : Runs (NotedTurn Faced.note fun _ => 0) (clocked [2000] s.1, s.2) (elements s.1.game.monsters) s' := hstep.2
  rw [hmonsters] at hturns
  refine ⟨s, s'.1, p, p', hruns, hmonsters, hturns.of_single.1, hskill, hp, hp', ?_, hfaced⟩
  rw [heq, heq']
  decide

end ZeldaServer
