import ZeldaServer.Proof.Chronicle
import ZeldaServer.Proof.Feed
import ZeldaServer.Proof.Returns

/-!
# Out of SKILL

A monster in SKILL attacks its target in its next turn, and is idle again; if the target is
not in the room, it stays as it is. Whether the target is there when its turn comes depends
on the monsters before it.

* `turns_assault`: the target under the attacks of the monsters before.
* `update_leaves`: when an update that returns ends the state SKILL.
* `leaves_skill`: when an update returns and ends the state SKILL.
-/

namespace ZeldaServer

open Lib Std

variable {st st' st₁ : Game Outboxes} {m r t x : Ref} {o p : GameObject} {fields : Monster} {pick : Pick} {sc : Scene}
  {hp attack : Int32} {ticks : List UInt64}

/-- A target with this hp is alive after these attacks, one after the other. -/
def outlives : Int32 → List Int32 → Bool
  | _, [] => true
  | hp, attack :: attacks => decide (0 < hp - attack) && outlives (hp - attack) attacks

/-- The hp after these attacks. -/
def hpAfter (hp : Int32) (attacks : List Int32) : Int32 := attacks.foldl (· - ·) hp

theorem outlives_snoc (hp attack : Int32) (attacks : List Int32) :
    outlives hp (attacks ++ [attack]) = (outlives hp attacks && decide (0 < hpAfter hp attacks - attack)) := by
  induction attacks generalizing hp with
  | nil =>
    rw [List.nil_append, outlives, outlives, outlives, Bool.and_true, Bool.true_and]
    rfl
  | cons a attacks ih =>
    rw [List.cons_append, outlives, outlives, ih, Bool.and_assoc]
    rfl

theorem hpAfter_snoc (hp attack : Int32) (attacks : List Int32) :
    hpAfter hp (attacks ++ [attack]) = hpAfter hp attacks - attack := by
  unfold hpAfter
  rw [List.foldl_append]
  rfl

/-- What a monster takes from the hp of `t` in its next turn. -/
def GameObject.attackOn (o : GameObject) (t : Ref) : Option Int32 :=
  match o.kind with
  | .monster fields => if o.info.state = .skill ∧ fields.target = some t then some o.info.attack else none
  | .player _ => none

/-- What the monsters `ms` take from the hp of `t`. -/
def Scene.attacksOn (sc : Scene) (t : Ref) (ms : List Ref) : List Int32 :=
  ms.filterMap fun x => (sc.objects[x]?).bind (·.attackOn t)

/-- The player `t` is in the room, with this hp. -/
structure Faces (sc : Scene) (t : Ref) (hp : Int32) : Prop where
  inside : sc.players[key t]? = some t
  object : ∃ p : GameObject, sc.objects[t]? = some p ∧ p.info.objecttype = .player ∧ p.info.hp = hp

/-! ## One turn -/

/-- Between two operations a weak pointer to a player resolves while the player is in the room. -/
theorem lock_iff (h : Good Anyone st []) (htarget : st.game.objects[t]? = some p) (htype : p.info.objecttype = .player) :
    st.game.lock (some t) = some t ↔ st.game.players[key t]? = some t := by
  constructor
  · intro hlock
    exact (h.core.inside_roster htarget (show _ = some Roster.players by rw [htype]; rfl)).1 (h.inside (lock_spec hlock).2)
  · intro hplayer
    have hpos : 0 < st.game.useCount t := h.useCount (.inl (.inl hplayer))
    unfold Room.lock
    exact Option.filter_eq_some_iff.2 ⟨rfl, by simpa using hpos⟩

/-- The attack of a monster in SKILL. -/
theorem MonsterTurn.attacks (h : Good Anyone st []) (hm : Monstrous st m o fields) (hturn : MonsterTurn m o fields st st')
    (hskill : o.info.state = .skill) (htarget : fields.target = some t) (hface : Faces st.game.toScene t hp) :
    if 0 < hp - o.info.attack then Faces st'.game.toScene t (hp - o.info.attack) else st'.game.players[key t]? ≠ some t := by
  obtain ⟨hinside, q, hq, htype, rfl⟩ := hface
  have hlock : st.game.lock fields.target = some t := by
    rw [htarget]
    exact (lock_iff h hq htype).2 hinside
  have hne : t ≠ m := hm.ne h hq htype
  have hstate : ∀ {state : ObjectState}, o.info.state = state → state ≠ .skill → False := by
    intro state hs hne
    exact hne (hs.symm.trans hskill)
  cases hturn with
  | seeks hs => exact (hstate hs (by decide)).elim
  | pursues hs => exact (hstate hs (by decide)).elim
  | walks hs => exact (hstate hs (by decide)).elim
  | halts hs => exact (hstate hs (by decide)).elim
  | misses _ hnone =>
    rw [hlock] at hnone
    exact absurd hnone (Option.some_ne_none t)
  | @hits t' p _ hlock' hp halive hy =>
    obtain rfl : t = t' := Option.some.inj (hlock.symm.trans hlock')
    obtain rfl : q = p := Option.some.inj (hq.symm.trans hp)
    rw [if_pos halive]
    refine ⟨?_, { q with info := q.info.hurt o.info.attack }, ?_, htype, rfl⟩
    · rw [hy.scene]
      exact hinside
    · rw [hy.scene, set_ne hne]
      exact modify_self hq
  | @kills t' p _ _ hlock' hp hdead hy =>
    obtain rfl : t = t' := Option.some.inj (hlock.symm.trans hlock')
    obtain rfl : q = p := Option.some.inj (hq.symm.trans hp)
    rw [if_neg (Int32.not_lt.2 hdead), hy.scene]
    show (st.game.players.erase (key t))[key t]? ≠ some t
    rw [TreeMap.getElem?_erase_self]
    exact (Option.some_ne_none t).symm
  | rests hs => exact (hstate hs (by simp)).elim

/-- A turn of a monster that does not attack `t`. -/
theorem MonsterTurn.unharmed (h : Good Anyone st []) (hm : Monstrous st m o fields) (hturn : MonsterTurn m o fields st st')
    (hno : ¬ (o.info.state = .skill ∧ fields.target = some t)) (hface : Faces st.game.toScene t hp) : Faces st'.game.toScene t hp := by
  obtain ⟨hinside, q, hq, htype, hhp⟩ := hface
  have hne : t ≠ m := hm.ne h hq htype
  -- another player that `m` attacks
  have hother : ∀ {t' : Ref}, o.info.state = .skill → st.game.lock fields.target = some t' → t ≠ t' ∧ key t' ≠ key t := by
    intro t' hskill hlock
    have hne : t ≠ t' := by
      rintro rfl
      exact hno ⟨hskill, (lock_spec hlock).1⟩
    refine ⟨hne, fun hkey => hne ?_⟩
    have hplayer := (hm.prey h hlock).2.1
    rw [hkey] at hplayer
    exact Option.some.inj (hinside.symm.trans hplayer)
  have hplayers : st'.game.players[key t]? = some t := by
    rcases hturn.players with heq | ⟨t', hskill, hlock, heq⟩
    · rwa [heq]
    · rw [heq, getElem?_erase_ne (hother hskill hlock).2]
      exact hinside
  have hsame := (hturn.others hne fun t' hskill hlock => (hother hskill hlock).1).trans hq
  exact ⟨hplayers, q, hsame, htype, hhp⟩

/-- The monsters that have not had their turn are as they were. -/
theorem turns_spare {ms : List Ref} (h : Good Anyone st []) (hms : ∀ y ∈ ms, st.game.monsters[key y]? = some y)
    (hruns : Runs (TurnStep pick) st ms st') : Good Anyone st' [] ∧ st'.game.monsters = st.game.monsters ∧
      ∀ (y : Ref) (p : GameObject) (mine : Monster), y ∉ ms → st.game.objects[y]? = some p → p.kind = .monster mine →
        st'.game.objects[y]? = some p := by
  induction hruns with
  | nil => exact ⟨h, rfl, fun _ _ _ _ hp _ => hp⟩
  | @snoc es st₁ m st₂ _ hstep ih =>
    obtain ⟨hgood, hmonsters, hspared⟩ := ih fun y hy => hms y (List.mem_append_left _ hy)
    have hmem := hms m (List.mem_append_right _ List.mem_cons_self)
    rw [← hmonsters] at hmem
    obtain ⟨-, o, fields, hm⟩ := hgood.monstrous hmem
    obtain ⟨fuel, hupdate⟩ := hstep
    have hturn := (updateMonster_turn hgood hm).result hupdate
    obtain ⟨hgood', hmonsters', -⟩ := hturn.kept hgood
    refine ⟨hgood', hmonsters'.trans hmonsters, ?_⟩
    intro y p mine hy hp hk
    have hne : y ≠ m := by
      rintro rfl
      exact hy (List.mem_append_right _ List.mem_cons_self)
    exact hturn.spares hgood hm hne (hspared y p mine (fun hin => hy (List.mem_append_left _ hin)) hp hk) hk

theorem attacksOn_snoc {ms : List Ref} (ho : sc.objects[m]? = some o) (hk : o.kind = .monster fields) :
    sc.attacksOn t (ms ++ [m]) =
      if o.info.state = .skill ∧ fields.target = some t then sc.attacksOn t ms ++ [o.info.attack] else sc.attacksOn t ms := by
  have hattack : (sc.objects[m]?).bind (·.attackOn t) =
      if o.info.state = .skill ∧ fields.target = some t then some o.info.attack else none := by
    rw [ho]
    show o.attackOn t = _
    unfold GameObject.attackOn
    rw [hk]
  unfold Scene.attacksOn
  rw [List.filterMap_append]
  split
  · rename_i hyes
    rw [if_pos hyes] at hattack
    simp [hattack]
  · rename_i hno
    rw [if_neg hno] at hattack
    simp [hattack]

/-- **The target under attack.** -/
theorem turns_assault {ms : List Ref} (h : Good Anyone st []) (hms : ∀ y ∈ ms, st.game.monsters[key y]? = some y) (hnodup : ms.Nodup)
    (hface : Faces st.game.toScene t hp) (hruns : Runs (TurnStep pick) st ms st') :
    if outlives hp (st.game.attacksOn t ms) = true then Faces st'.game.toScene t (hpAfter hp (st.game.attacksOn t ms))
    else st'.game.players[key t]? ≠ some t := by
  induction hruns with
  | nil => exact hface
  | @snoc es st₁ m st₂ hbefore hstep ih =>
    have hms₁ : ∀ y ∈ es, st.game.monsters[key y]? = some y := fun y hy => hms y (List.mem_append_left _ hy)
    obtain ⟨hgood, hmonsters, hspared⟩ := turns_spare h hms₁ hbefore
    have hassault := ih hms₁ (List.nodup_append.1 hnodup).1
    have hfresh : m ∉ es := fun hin => (List.nodup_append.1 hnodup).2.2 m hin m List.mem_cons_self rfl
    have hmem := hms m (List.mem_append_right _ List.mem_cons_self)
    -- the monster is the one that it was when the update began
    obtain ⟨-, o, fields, hm⟩ := h.monstrous hmem
    have hm₁ : Monstrous st₁ m o fields :=
      ⟨.inr (hmonsters ▸ hmem), hspared m o fields hfresh hm.object hm.kind, hm.kind⟩
    obtain ⟨fuel, hupdate⟩ := hstep
    have hturn := (updateMonster_turn hgood hm₁).result hupdate
    rw [attacksOn_snoc hm.object hm.kind]
    by_cases hattacks : o.info.state = .skill ∧ fields.target = some t
    · rw [if_pos hattacks, outlives_snoc, hpAfter_snoc]
      by_cases halive : outlives hp (st.game.attacksOn t es) = true
      · rw [if_pos halive] at hassault
        have hnext := hturn.attacks hgood hm₁ hattacks.1 hattacks.2 hassault
        rw [halive, Bool.true_and]
        simp only [decide_eq_true_eq]
        exact hnext
      · rw [if_neg halive] at hassault
        rw [Bool.not_eq_true] at halive
        rw [halive, Bool.false_and, if_neg Bool.false_ne_true]
        exact hturn.gone hassault
    · rw [if_neg hattacks]
      split
      · rename_i halive
        rw [if_pos halive] at hassault
        exact hturn.unharmed hgood hm₁ hattacks hassault
      · rename_i hdead
        rw [if_neg hdead] at hassault
        exact hturn.gone hassault

/-- A target that is not in the room stays away. -/
theorem turns_gone {ms : List Ref} (h : Good Anyone st []) (hms : ∀ y ∈ ms, st.game.monsters[key y]? = some y)
    (hout : st.game.players[key t]? ≠ some t) (hruns : Runs (TurnStep pick) st ms st') : st'.game.players[key t]? ≠ some t := by
  induction hruns with
  | nil => exact hout
  | @snoc es st₁ m st₂ hbefore hstep ih =>
    have hms₁ : ∀ y ∈ es, st.game.monsters[key y]? = some y := fun y hy => hms y (List.mem_append_left _ hy)
    obtain ⟨hgood, hmonsters, -⟩ := turns_spare h hms₁ hbefore
    have hmem := hms m (List.mem_append_right _ List.mem_cons_self)
    rw [← hmonsters] at hmem
    obtain ⟨-, o, fields, hm⟩ := hgood.monstrous hmem
    obtain ⟨fuel, hupdate⟩ := hstep
    exact ((updateMonster_turn hgood hm).result hupdate).gone (ih hms₁)

/-! ## Leaving SKILL -/

/-- A turn in SKILL: the monster is idle afterwards, or nothing has happened. -/
theorem MonsterTurn.ends (h : Good Anyone st []) (hm : Monstrous st m o fields) (hturn : MonsterTurn m o fields st st')
    (hskill : o.info.state = .skill) : (st.game.lock fields.target = none ∧ st'.game.state m = some .skill) ∨
      ((st.game.lock fields.target).isSome ∧ st'.game.state m = some .idle) := by
  have hstate : ∀ {state : ObjectState}, o.info.state = state → state ≠ .skill → False := by
    intro state hs hne
    exact hne (hs.symm.trans hskill)
  unfold Scene.state
  cases hturn with
  | seeks hs => exact (hstate hs (by decide)).elim
  | pursues hs => exact (hstate hs (by decide)).elim
  | walks hs => exact (hstate hs (by decide)).elim
  | halts hs => exact (hstate hs (by decide)).elim
  | misses _ hnone heq =>
    left
    rw [heq, hm.object, Option.map_some, hskill]
    exact ⟨hnone, rfl⟩
  | hits _ hlock _ _ hy =>
    right
    rw [hy.self (hm.unhurt h hlock), hlock]
    exact ⟨rfl, rfl⟩
  | kills _ hlock _ _ hy =>
    right
    rw [hy.self (hm.undropped h hlock), hlock]
    exact ⟨rfl, rfl⟩
  | rests hs => exact (hstate hs (by simp)).elim

/-- A list up to an element, and the rest. -/
theorem takeWhile_ne {l : List Ref} (h : m ∈ l) : ∃ after, l = l.takeWhile (· ≠ m) ++ m :: after := by
  induction l with
  | nil => exact absurd h List.not_mem_nil
  | cons y l ih =>
    by_cases hy : y = m
    · refine ⟨l, ?_⟩
      rw [hy, List.takeWhile_cons_of_neg (by simp)]
      rfl
    · obtain ⟨after, hafter⟩ := ih (List.mem_of_ne_of_mem (Ne.symm hy) h)
      refine ⟨after, ?_⟩
      rw [List.takeWhile_cons_of_pos (by simpa using hy), List.cons_append, ← hafter]

/-- The target of the monster `m` is in the room when its turn comes. -/
def Room.Caught (room : Room) (m : Ref) (fields : Monster) : Prop :=
  ∃ (t : Ref) (p : GameObject), fields.target = some t ∧ room.players[key t]? = some t ∧ room.objects[t]? = some p ∧
    outlives p.info.hp (room.attacksOn t ((elements room.monsters).takeWhile (· ≠ m))) = true

/-- When an update that returns ends the state SKILL: exactly when the target is in the room and
outlives the attacks of the monsters that have their turn before. -/
theorem update_leaves {ops : List RoomOp} {k : UInt64} {ticks : List UInt64} (hrun : Runs RoomStep roomStart ops st)
    (hmem : st.game.monsters[k]? = some m) (ho : st.game.objects[m]? = some o) (hk : o.kind = .monster fields)
    (hskill : o.info.state = .skill) (hstep : RoomStep st (.update ticks pick) st') :
    st'.game.state m ≠ some .skill ↔ st.game.Caught m fields := by
  have hgood := (run_good hrun).1
  have hclocked := hgood.clocked ticks
  obtain ⟨hkey, -⟩ := hgood.core.monsters k m hmem
  rw [hkey] at hmem
  obtain ⟨-, fuel, hupdate⟩ := hstep
  obtain ⟨-, -, hturns⟩ := (updateRoom_turns hclocked).result hupdate
  obtain ⟨after, hsplit⟩ := takeWhile_ne (mem_elements.2 ⟨_, hmem⟩ : m ∈ elements st.game.monsters)
  have hnodup : (elements st.game.monsters).Nodup := .of_map _ (elements_nodup fun k r hk => (hgood.core.monsters k r hk).1)
  have hms : ∀ y ∈ elements st.game.monsters, (clocked ticks st).game.monsters[key y]? = some y :=
    fun y hy => hgood.core.elements_monsters hy
  unfold Room.Caught
  generalize (elements st.game.monsters).takeWhile (· ≠ m) = before at hsplit ⊢
  have helements : elements (clocked ticks st).game.monsters = before ++ m :: after := hsplit
  rw [helements] at hturns
  rw [hsplit] at hms hnodup
  obtain ⟨st₁, hbefore, hrest⟩ := hturns.split
  obtain ⟨st₂, hturn, hafter⟩ := hrest.first
  have hms₁ : ∀ y ∈ before, (clocked ticks st).game.monsters[key y]? = some y := fun y hy => hms y (List.mem_append_left _ hy)
  obtain ⟨hgood₁, hmonsters₁, hspared₁⟩ := turns_spare hclocked hms₁ hbefore
  obtain ⟨hnodup₁, hnodup₂, hdisjoint⟩ := List.nodup_append.1 hnodup
  have hm₁ : Monstrous st₁ m o fields :=
    ⟨.inr (hmonsters₁ ▸ hmem), hspared₁ m o fields (fun hin => hdisjoint m hin m List.mem_cons_self rfl) ho hk, hk⟩
  obtain ⟨fuel', hturn⟩ := hturn
  have hturn := (updateMonster_turn hgood₁ hm₁).result hturn
  -- the turns after that of `m` leave it alone
  have hsame : st'.game.state m = st₂.game.state m := by
    obtain ⟨hgood₂, hmonsters₂, -⟩ := hturn.kept hgood₁
    have hmonsters : st₂.game.monsters = (clocked ticks st).game.monsters := hmonsters₂.trans hmonsters₁
    obtain ⟨-, o₂, fields₂, hm₂⟩ := hgood₂.monstrous (k := key m) (hmonsters ▸ hmem)
    have hms₂ : ∀ y ∈ after, st₂.game.monsters[key y]? = some y := by
      intro y hy
      rw [hmonsters]
      exact hms y (List.mem_append_right _ (List.mem_cons_of_mem _ hy))
    obtain ⟨-, -, hspared₂⟩ := turns_spare hgood₂ hms₂ hafter
    unfold Scene.state
    rw [hspared₂ m o₂ fields₂ (List.nodup_cons.1 hnodup₂).1 hm₂.object hm₂.kind, hm₂.object]
  rw [hsame]
  rcases hturn.ends hgood₁ hm₁ hskill with ⟨hnone, hskill₂⟩ | ⟨hsome, hidle⟩
  · -- the target is not there
    rw [hskill₂]
    refine ⟨fun hne => absurd rfl hne, ?_⟩
    rintro ⟨t, p, htarget, hplayer, hp, halive⟩
    obtain ⟨p', hp', htype⟩ := hgood.core.target m o fields t ho hk htarget
    obtain rfl : p = p' := Option.some.inj (hp.symm.trans hp')
    have hassault := turns_assault (t := t) hclocked hms₁ hnodup₁ ⟨hplayer, p, hp, htype, rfl⟩ hbefore
    rw [if_pos (show outlives p.info.hp ((clocked ticks st).game.attacksOn t before) = true from halive)] at hassault
    obtain ⟨q, hq, hqtype, -⟩ := hassault.object
    rw [htarget, (lock_iff hgood₁ hq hqtype).2 hassault.inside] at hnone
    exact absurd hnone (Option.some_ne_none t)
  · -- the target is attacked
    rw [hidle]
    refine ⟨fun _ => ?_, fun _ => by decide⟩
    obtain ⟨t, hlock⟩ := Option.isSome_iff_exists.1 hsome
    have htarget := (lock_spec hlock).1
    obtain ⟨-, hplayer₁, -⟩ := hm₁.prey hgood₁ hlock
    obtain ⟨p, hp, htype⟩ := hgood.core.target m o fields t ho hk htarget
    have hplayer : st.game.players[key t]? = some t := by
      by_contra hout
      exact turns_gone hclocked hms₁ hout hbefore hplayer₁
    refine ⟨t, p, htarget, hplayer, hp, ?_⟩
    by_contra hdead
    have hassault := turns_assault (t := t) hclocked hms₁ hnodup₁ ⟨hplayer, p, hp, htype, rfl⟩ hbefore
    rw [if_neg (show ¬ outlives p.info.hp ((clocked ticks st).game.attacksOn t before) = true from hdead)] at hassault
    exact hassault hplayer₁

/-- The update of a reachable room returns exactly when the searches of the monsters end. -/
theorem update_returns_iff {ops : List RoomOp} {ticks : List UInt64} (hrun : Runs RoomStep roomStart ops st) :
    (∃ st' least, ∀ fuel, least ≤ fuel → (RoomOp.update ticks pick).run post fuel st = .ok st') ↔
      PlansEnd pick (elements st.game.monsters) (clocked ticks st) := by
  have hclocked := (run_good hrun).1.clocked ticks
  have hms : ∀ y ∈ elements st.game.monsters, (clocked ticks st).game.monsters[key y]? = some y :=
    fun y hy => hclocked.core.elements_monsters hy
  constructor
  · rintro ⟨st', least, hst'⟩
    obtain ⟨-, -, hturns⟩ := (updateRoom_turns hclocked).result (hst' least (Nat.le_refl least))
    exact turns_planned hclocked hms hturns
  · intro hends
    have hshort : st.game.toScene.Short := run_short hrun
    obtain ⟨st', -, least, hst'⟩ := updateRoom_halts hclocked hshort hends
    exact ⟨st', least, hst'⟩

/-- **When an update ends the state SKILL** of a monster, in any reachable state: exactly when
its target is in the room and outlives the attacks of the monsters that have their turn before,
and no search of a monster for a path goes on for ever, so that the update returns. -/
theorem leaves_skill {ops : List RoomOp} {k : UInt64} {ticks : List UInt64} (hrun : Runs RoomStep roomStart ops st)
    (hmem : st.game.monsters[k]? = some m) (ho : st.game.objects[m]? = some o) (hk : o.kind = .monster fields)
    (hskill : o.info.state = .skill) :
    (∃ st' least, (∀ fuel, least ≤ fuel → (RoomOp.update ticks pick).run post fuel st = .ok st') ∧ st'.game.state m ≠ some .skill) ↔
      st.game.Caught m fields ∧ PlansEnd pick (elements st.game.monsters) (clocked ticks st) := by
  constructor
  · rintro ⟨st', least, hst', hleft⟩
    have hstep : RoomStep st (.update ticks pick) st' := ⟨trivial, least, hst' least (Nat.le_refl least)⟩
    exact ⟨(update_leaves hrun hmem ho hk hskill hstep).1 hleft, (update_returns_iff hrun).1 ⟨st', least, hst'⟩⟩
  · rintro ⟨hcaught, hends⟩
    obtain ⟨st', least, hst'⟩ := (update_returns_iff hrun).2 hends
    have hstep : RoomStep st (.update ticks pick) st' := ⟨trivial, least, hst' least (Nat.le_refl least)⟩
    exact ⟨st', least, hst', (update_leaves hrun hmem ho hk hskill hstep).2 hcaught⟩

/-- A player comes to the monster, which attacks. -/
def ambush : List RoomOp :=
  [.init meadow, .enterRoom 0, .handleCMove (placed 2 8 7), .update [0] fun _ => 0, .update [1000] fun _ => 0]

/-- The state of the monster `0` after some operations, and after one more. -/
def statesExec (ops : List RoomOp) (op : RoomOp) : Option (Option Ref × Option ObjectState × Option ObjectState) := do
  let st ← ops.foldlM roomExec roomStart
  let st' ← roomExec st op
  some (st.game.monsters[(1 : UInt64)]?, st.game.state 0, st'.game.state 0)

theorem statesExec_runs {ops : List RoomOp} {op : RoomOp} {r : Option Ref} {state state' : Option ObjectState}
    (h : statesExec ops op = some (r, state, state')) : ∃ st st', Runs RoomStep roomStart ops st ∧ RoomStep st op st' ∧
      st.game.monsters[(1 : UInt64)]? = r ∧ st.game.state 0 = state ∧ st'.game.state 0 = state' := by
  obtain ⟨st, hst, h⟩ := Option.bind_eq_some_iff.1 h
  obtain ⟨st', hst', h⟩ := Option.bind_eq_some_iff.1 h
  obtain ⟨hr, h⟩ := Prod.mk.inj (Option.some.inj h)
  obtain ⟨hstate, hstate'⟩ := Prod.mk.inj h
  exact ⟨st, st', roomExec_runs hst, roomExec_step hst', hr, hstate, hstate'⟩

/-- The monster hits the player, and is idle. -/
theorem leaves_skill_example : ∃ st fields, Runs RoomStep roomStart ambush st ∧ st.game.state 0 = some .skill ∧
    st.game.Caught 0 fields ∧ PlansEnd (fun _ => 0) (elements st.game.monsters) (clocked [1000] st) ∧
    ∃ st' least, (∀ fuel, least ≤ fuel → (RoomOp.update [1000] fun _ => 0).run post fuel st = .ok st') ∧
      st'.game.state 0 ≠ some .skill := by
  have hrun : statesExec ambush (.update [1000] fun _ => 0) = some (some 0, some .skill, some .idle) := by decide +kernel
  obtain ⟨st, st', hst, ⟨-, least, hupdate⟩, hmem, hskill, hidle⟩ := statesExec_runs hrun
  obtain ⟨-, o, fields, hm⟩ := (run_good hst).1.monstrous hmem
  have hstate : o.info.state = .skill := by
    unfold Scene.state at hskill
    rw [hm.object] at hskill
    exact Option.some.inj hskill
  have hleft : ∃ st' least, (∀ fuel, least ≤ fuel → (RoomOp.update [1000] fun _ => 0).run post fuel st = .ok st') ∧
      st'.game.state 0 ≠ some .skill :=
    ⟨st', least, fun fuel hfuel => run_more hfuel hupdate, by rw [hidle]; decide⟩
  obtain ⟨hcaught, hends⟩ := (leaves_skill hst hmem hm.object hm.kind hstate).1 hleft
  exact ⟨st, fields, hst, hskill, hcaught, hends, hleft⟩

/-- The player leaves, and the monster stays in SKILL. -/
theorem stuck_in_skill : ∃ st st', Runs RoomStep roomStart (ambush ++ [.leaveRoom 0]) st ∧ st.game.monsters[(1 : UInt64)]? = some 0 ∧
    st.game.state 0 = some .skill ∧ RoomStep st (.update [2000] fun _ => 0) st' ∧ st'.game.state 0 = some .skill := by
  have hrun : statesExec (ambush ++ [.leaveRoom 0]) (.update [2000] fun _ => 0) = some (some 0, some .skill, some .skill) := by
    decide +kernel
  obtain ⟨st, st', hst, hstep, hmem, hskill, hstuck⟩ := statesExec_runs hrun
  exact ⟨st, st', hst, hmem, hskill, hstep, hstuck⟩

end ZeldaServer
