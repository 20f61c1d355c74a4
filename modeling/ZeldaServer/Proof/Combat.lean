import ZeldaServer.Proof.Clients
import ZeldaServer.Spec.Combat

/-!
# Combat

An attack takes the attacker's attack from the hp of its target, tells the reduced hp,
and removes the target when nothing is left. Nothing else changes any hp.

* `Fight`: what a sequence of attacks does to the objects.
* `Act.fight`, `acts_brawl`: the attacks of one act, and of a run of acts.
* `combat`: every operation of a run.
-/

namespace ZeldaServer

open Lib Std

variable {v v' v'' : Stage Outboxes} {st st' : Game Outboxes} {op : RoomOp} {ops : List RoomOp} {r : Ref}
  {o : GameObject} {id : UInt64} {sc sc' sc'' : Scene} {session s : SessionId} {bs bs' : List Blow} {info : ObjectInfo}

/-! ## Lists of attacks -/

theorem damage_append : damage id (bs ++ bs') = damage id bs + damage id bs' := by
  induction bs with
  | nil => simp [damage]
  | cons b bs ih =>
    rw [List.cons_append, damage, damage, ih, Int.add_assoc]

theorem carries_append {hp : ℤ} : Carries id hp (bs ++ bs') ↔ Carries id hp bs ∧ Carries id (hp - damage id bs) bs' := by
  induction bs generalizing hp with
  | nil => simp [Carries, damage]
  | cons b bs ih =>
    rw [List.cons_append, Carries, Carries, damage]
    split
    · rw [ih, and_assoc, Int.sub_sub]
    · rw [ih, Int.zero_add]

/-- Nobody kills the object. -/
theorem heard_all (h : ∀ b ∈ bs, ¬ b.Kills id) : heard id bs = bs := by
  induction bs with
  | nil => rfl
  | cons b bs ih =>
    rw [heard, if_neg (h b List.mem_cons_self), ih fun b hb => h b (List.mem_cons_of_mem _ hb)]

theorem heard_append_of_alive (h : ∀ b ∈ bs, ¬ b.Kills id) : heard id (bs ++ bs') = bs ++ heard id bs' := by
  induction bs with
  | nil => rfl
  | cons b bs ih =>
    rw [List.cons_append, heard, if_neg (h b List.mem_cons_self), ih fun b hb => h b (List.mem_cons_of_mem _ hb)]
    rfl

theorem heard_append_of_dead {b : Blow} (hb : b ∈ bs) (h : b.Kills id) : heard id (bs ++ bs') = heard id bs := by
  induction bs with
  | nil => cases hb
  | cons c bs ih =>
    rw [List.cons_append, heard, heard]
    split
    · rfl
    · rename_i hc
      rcases List.mem_cons.1 hb with rfl | hb
      · exact absurd h hc
      · rw [ih hb]

theorem attacks_append (msgs msgs' : List Msg) : attacks (msgs ++ msgs') = attacks msgs ++ attacks msgs' :=
  List.filterMap_append

theorem ObjectInfo.SameKind.refl : info.SameKind info := ⟨rfl, rfl, rfl, rfl, rfl, rfl⟩

theorem ObjectInfo.SameKind.trans {info' info'' : ObjectInfo} (h : info.SameKind info') (h' : info'.SameKind info'') :
    info.SameKind info'' :=
  ⟨h.1.trans h'.1, h.2.trans h'.2, h.3.trans h'.3, h.4.trans h'.4, h.5.trans h'.5, h.6.trans h'.6⟩

/-! ## Health -/

/-- The values of the two kinds of objects. -/
def ObjectInfo.Stats (info : ObjectInfo) : Prop :=
  (info.maxhp = 100 ∧ info.attack = 30) ∨ (info.maxhp = 50 ∧ info.attack = 5)

/-- Everyone in the room is alive. -/
structure Healthy (sc : Scene) : Prop where
  stats : ∀ (r : Ref) (o : GameObject), sc.objects[r]? = some o → o.info.Stats ∧ o.info.hp ≤ o.info.maxhp
  alive : ∀ (r : Ref) (o : GameObject), sc.objects[r]? = some o → sc.Inside r → 0 < o.info.hp

/-- What the attacks `bs` take from the objects, in order. -/
structure Wounds (sc : Scene) (bs : List Blow) (sc' : Scene) : Prop where
  objects : ∀ (r : Ref) (o : GameObject), sc.objects[r]? = some o → ∃ o' : GameObject, sc'.objects[r]? = some o' ∧
    o'.info.SameKind o.info ∧ Carries o.info.objectid o.info.hp.toInt bs ∧
      o'.info.hp.toInt = o.info.hp.toInt - damage o.info.objectid bs
  attackers : ∀ b ∈ bs, ∃ (r : Ref) (a : GameObject), sc'.objects[r]? = some a ∧
    a.info.objectid = b.attacker.objectid ∧ a.info.attack = b.attacker.attack ∧ 0 < a.info.attack

/-- **The attacks `bs`**, which remove whom they kill. -/
structure Fight (sc : Scene) (bs : List Blow) (sc' : Scene) : Prop extends Wounds sc bs sc' where
  inside : ∀ (r : Ref) (o : GameObject), sc.objects[r]? = some o →
    (sc'.Inside r ↔ sc.Inside r ∧ ∀ b ∈ bs, ¬ b.Kills o.info.objectid)

theorem Wounds.trans (h : Wounds sc bs sc') (h' : Wounds sc' bs' sc'') : Wounds sc (bs ++ bs') sc'' := by
  refine ⟨fun r o ho => ?_, fun b hb => ?_⟩
  · obtain ⟨o', ho', hkind, hcarries, hhp⟩ := h.objects r o ho
    obtain ⟨o'', ho'', hkind', hcarries', hhp'⟩ := h'.objects r o' ho'
    rw [hkind.objectid] at hcarries' hhp'
    rw [hhp] at hcarries' hhp'
    refine ⟨o'', ho'', hkind'.trans hkind, carries_append.2 ⟨hcarries, hcarries'⟩, ?_⟩
    rw [hhp', damage_append, Int.sub_sub]
  · rcases List.mem_append.1 hb with hb | hb
    · obtain ⟨r, a, ha, hid, hattack, hpos⟩ := h.attackers b hb
      obtain ⟨a', ha', hkind, -⟩ := h'.objects r a ha
      exact ⟨r, a', ha', hkind.objectid.trans hid, hkind.attack.trans hattack, by rw [hkind.attack]; exact hpos⟩
    · exact h'.attackers b hb

theorem Fight.trans (h : Fight sc bs sc') (h' : Fight sc' bs' sc'') : Fight sc (bs ++ bs') sc'' := by
  refine ⟨h.toWounds.trans h'.toWounds, fun r o ho => ?_⟩
  obtain ⟨o', ho', hkind, -⟩ := h.objects r o ho
  rw [h'.inside r o' ho', h.inside r o ho, hkind.objectid, List.forall_mem_append, and_assoc]

/-- Changes that leave kind and hp alone. -/
theorem Wounds.of_same (h : ∀ (r : Ref) (o : GameObject), sc.objects[r]? = some o → ∃ o' : GameObject,
    sc'.objects[r]? = some o' ∧ o'.info.SameKind o.info ∧ o'.info.hp = o.info.hp) : Wounds sc [] sc' := by
  refine ⟨fun r o ho => ?_, List.forall_mem_nil _⟩
  obtain ⟨o', ho', hkind, hhp⟩ := h r o ho
  exact ⟨o', ho', hkind, trivial, by rw [hhp, damage, Int.sub_zero]⟩

theorem Wounds.modify {f : GameObject → GameObject} (hf : ∀ o, (f o).info.SameKind o.info ∧ (f o).info.hp = o.info.hp) :
    Wounds sc [] (sc.modify r f) := by
  refine .of_same fun r' o ho => ?_
  by_cases hr : r' = r
  · subst hr
    exact ⟨f o, modify_self ho, hf o⟩
  · exact ⟨o, by rw [modify_ne hr, ho], .refl, rfl⟩

theorem Musing.wounds {f : GameObject → GameObject} (hf : Musing sc f) : Wounds sc [] (sc.modify r f) := by
  refine .modify fun o => ?_
  obtain ⟨state, hstate⟩ := hf.info o
  rw [hstate]
  exact ⟨⟨rfl, rfl, rfl, rfl, rfl, rfl⟩, rfl⟩

theorem wounds_follow {told : ObjectInfo} : Wounds sc [] (sc.modifyInfo r (·.follow told)) := by
  refine Wounds.modify fun o => ?_
  exact ⟨⟨rfl, rfl, rfl, rfl, rfl, rfl⟩, rfl⟩

theorem wounds_drop {which : Roster} : Wounds sc [] (sc.drop which r id) := by
  refine .of_same fun r' o ho => ?_
  have hset : (sc.setRoster which ((sc.roster which).erase id)).objects = sc.objects := by
    cases which <;> rfl
  unfold Scene.drop
  by_cases hr : r' = r
  · subst hr
    exact ⟨_, modify_self (by rw [hset, ho]), .refl, rfl⟩
  · exact ⟨o, by rw [modify_ne hr, hset, ho], .refl, rfl⟩

/-- A change of one object that attacks nobody. -/
theorem Wounds.fight (h : Wounds sc [] sc') (hin : ∀ (r : Ref) (o : GameObject), sc.objects[r]? = some o →
    (sc'.Inside r ↔ sc.Inside r)) : Fight sc [] sc' := by
  refine ⟨h, fun r o ho => ?_⟩
  rw [hin r o ho]
  simp

/-! ## One attack -/

/-- Within these values the subtraction of `set_hp` does not wrap. -/
theorem hurt_toInt {t a : ObjectInfo} (ht : t.Stats) (ha : a.Stats) (h0 : 0 < t.hp) (hmax : t.hp ≤ t.maxhp) :
    (t.hurt a.attack).hp.toInt = t.hp.toInt - a.attack.toInt := by
  have h0 : 0 < t.hp.toInt := Int32.lt_iff_toInt_lt.1 h0
  have hmax : t.hp.toInt ≤ t.maxhp.toInt := Int32.le_iff_toInt_le.1 hmax
  have hm : t.maxhp.toInt ≤ 100 := by
    rcases ht with ⟨h, -⟩ | ⟨h, -⟩
    · rw [h]; decide
    · rw [h]; decide
  have ha' : 0 ≤ a.attack.toInt ∧ a.attack.toInt ≤ 30 := by
    rcases ha with ⟨-, h⟩ | ⟨-, h⟩
    · rw [h]; decide
    · rw [h]; decide
  unfold ObjectInfo.hurt
  rw [Int32.toInt_sub]
  exact Int.bmod_eq_of_le (by omega) (by omega)

theorem Stats.attack_pos {info : ObjectInfo} (h : info.Stats) : 0 < info.attack := by
  rcases h with ⟨-, h⟩ | ⟨-, h⟩
  · rw [h]; decide
  · rw [h]; decide

/-- The attack of `a` on `t`. -/
def blow (a t : GameObject) : Blow := { target := t.info.hurt a.info.attack, attacker := a.info }

/-- **`set_hp`** takes the attack from the target only. -/
theorem wounds_strike (hs : Sound v) (hh : Healthy v.game) (hb : v.game.objects.length ≤ 2 ^ 64)
    {attacker target : Ref} {a t : GameObject} (hne : attacker ≠ target) (hint : v.game.Inside target)
    (ha : v.game.objects[attacker]? = some a) (ht : v.game.objects[target]? = some t) :
    Wounds v.game [blow a t] (v.game.modifyInfo target (·.hurt a.info.attack)) := by
  obtain ⟨hta, hmaxt⟩ := hh.stats target t ht
  have haa := (hh.stats attacker a ha).1
  have hhurt := hurt_toInt hta haa (hh.alive target t ht hint) hmaxt
  refine ⟨fun r o ho => ?_, fun b hb => ?_⟩
  · by_cases hr : r = target
    · subst hr
      rw [ht] at ho
      obtain rfl := Option.some.inj ho
      refine ⟨_, modify_self ht, ⟨rfl, rfl, rfl, rfl, rfl, rfl⟩, ?_, ?_⟩
      · have hid : (blow a t).target.objectid = t.info.objectid := rfl
        rw [Carries, if_pos hid]
        exact ⟨hhurt, trivial⟩
      · have hid : (blow a t).target.objectid = t.info.objectid := rfl
        rw [damage, damage, if_pos hid, Int.add_zero]
        exact hhurt
    · have hid : (blow a t).target.objectid ≠ o.info.objectid := by
        rw [hs.core.id r o ho]
        have htid : (blow a t).target.objectid = key target := hs.core.id target t ht
        rw [htid]
        exact key_ne ht ho hb (Ne.symm hr)
      refine ⟨o, (modify_ne hr).trans ho, .refl, ?_, ?_⟩
      · rw [Carries, if_neg hid]
        trivial
      · rw [damage, damage, if_neg hid, Int.add_zero, Int.sub_zero]
  · rw [List.mem_singleton.1 hb]
    exact ⟨attacker, a, (modify_ne hne).trans ha, rfl, rfl, Stats.attack_pos haa⟩

/-! ## Acts -/

/-- What the clients hear of the attacks `bs`: all who are in the room, and no other
session that has entered. -/
structure Heard (v : Stage Outboxes) (bs : List Blow) (v' : Stage Outboxes) : Prop where
  audience : ∀ s, v.game.Audience s → attacks (v'.net s) = attacks (v.net s) ++ bs
  others : ∀ s r, (v.game.gameSessions s).player = some r → ¬ v.game.Audience s →
    attacks (v'.net s) = attacks (v.net s)

theorem Heard.told {msgs : List Msg} {net : Outboxes} (ht : ∀ s, (v.game.Audience s → net s = v.net s ++ msgs) ∧
    (¬ v.game.Audience s → net s = v.net s)) (hm : attacks msgs = bs) : Heard v bs ⟨net, sc⟩ := by
  refine ⟨fun s haud => ?_, fun s _ _ haud => ?_⟩
  · rw [show (⟨net, sc⟩ : Stage Outboxes).net s = net s from rfl, (ht s).1 haud, attacks_append, hm]
  · rw [show (⟨net, sc⟩ : Stage Outboxes).net s = net s from rfl, (ht s).2 haud]

/-- Objects that are new are healthy. -/
def Newcomers (sc sc' : Scene) : Prop := ∀ (r : Ref) (o : GameObject), sc'.objects[r]? = some o →
  (∃ o₀, sc.objects[r]? = some o₀) ∨ (o.info.Stats ∧ o.info.hp ≤ o.info.maxhp ∧ 0 < o.info.hp)

theorem Newcomers.of_length (h : sc'.objects.length = sc.objects.length) : Newcomers sc sc' := by
  intro r o ho
  have hlt := (List.getElem?_eq_some_iff.1 ho).1
  rw [h] at hlt
  exact .inl ⟨_, List.getElem?_eq_getElem hlt⟩

theorem Newcomers.of_last {new : GameObject} (h : sc'.objects = sc.objects ++ [new])
    (hnew : new.info.Stats ∧ new.info.hp ≤ new.info.maxhp ∧ 0 < new.info.hp) : Newcomers sc sc' := by
  intro r o ho
  rw [h] at ho
  rcases objects_last ho with ho | ⟨-, rfl⟩
  · exact .inl ⟨o, ho⟩
  · exact .inr hnew

theorem newPlayer_healthy : (sc.newPlayer session).info.Stats ∧
    (sc.newPlayer session).info.hp ≤ (sc.newPlayer session).info.maxhp ∧ 0 < (sc.newPlayer session).info.hp :=
  ⟨.inl ⟨rfl, rfl⟩, show (100 : Int32) ≤ 100 by decide, show (0 : Int32) < 100 by decide⟩

theorem newMonster_healthy : sc.newMonster.info.Stats ∧ sc.newMonster.info.hp ≤ sc.newMonster.info.maxhp ∧
    0 < sc.newMonster.info.hp :=
  ⟨.inr ⟨rfl, rfl⟩, show (50 : Int32) ≤ 50 by decide, show (0 : Int32) < 50 by decide⟩

theorem wounds_append {new : GameObject} (h : sc'.objects = sc.objects ++ [new]) : Wounds sc [] sc' := by
  refine .of_same fun r o ho => ⟨o, ?_, .refl, rfl⟩
  rw [h, List.getElem?_append_left (List.getElem?_eq_some_iff.1 ho).1, ho]

/-- The act removes nobody but whom it kills. -/
def Label.Stays : Label → Prop
  | .leave _ => False
  | _ => True

/-- Who is in the room is found. -/
theorem found_of_inside (hin : sc.Inside r) : sc.findObject (key r) ≠ none := by
  unfold Scene.findObject
  rcases hin with hin | hin
  · rw [hin]
    exact Option.some_ne_none r
  · split
    · exact Option.some_ne_none _
    · rw [hin]
      exact Option.some_ne_none r

/-- The removal of one who is in the room. -/
theorem Removes.leaves {target : Ref} (h : Removes Told v (key target) v') (hs : Sound v)
    (hb : v.game.objects.length ≤ 2 ^ 64) (hin : v.game.Inside target) : Wounds v.game [] v'.game ∧
      (∀ r, v'.game.Inside r ↔ v.game.Inside r ∧ r ≠ target) ∧ Heard v [] v' := by
  cases h with
  | missing hnone => exact absurd hnone (found_of_inside hin)
  | found hf ho ht hB =>
    rename_i r o which net
    -- the object that is found is the target
    obtain ⟨t, htarget, -⟩ := hs.core.inside_room hin
    have heq : r = target := by
      by_contra hne
      exact key_ne htarget ho hb (Ne.symm hne) (hs.core.found hf).1
    rw [← heq] at hf ⊢
    exact ⟨wounds_drop, hs.drop_inside hb hf ho ht, .told hB rfl⟩

/-- An attack, up to the removal. -/
theorem Strikes.wound {attacker target : Ref} (h : Strikes Told v attacker target info v')
    (hs : Sound v) (hh : Healthy v.game) (hb : v.game.objects.length ≤ 2 ^ 64) :
    ∃ b : Blow, b.target = info ∧ info.objectid = key target ∧ v.game.Inside target ∧
      Wounds v.game [b] v'.game ∧ Heard v [b] v' ∧ v'.game.players = v.game.players ∧
      v'.game.monsters = v.game.monsters ∧ v'.game.gameSessions = v.game.gameSessions := by
  cases h with
  | mk hne hina hint ha ht hB =>
    rename_i a t net
    have hid : (t.info.hurt a.info.attack).objectid = key target := hs.core.id target t ht
    exact ⟨blow a t, rfl, hid, hint, wounds_strike hs hh hb hne hint ha ht, .told hB rfl, rfl, rfl, rfl⟩

theorem Heard.trans (h : Heard v bs v') (h' : Heard v' bs' v'') (hp : v'.game.players = v.game.players)
    (hg : v'.game.gameSessions = v.game.gameSessions) : Heard v (bs ++ bs') v'' := by
  have haudience : ∀ s, v'.game.Audience s ↔ v.game.Audience s := by
    intro s
    unfold Scene.Audience
    rw [hp, hg]
  refine ⟨fun s haud => ?_, fun s r hr haud => ?_⟩
  · rw [h'.audience s ((haudience s).2 haud), h.audience s haud, List.append_assoc]
  · rw [h'.others s r (by rw [hg]; exact hr) fun haud' => haud ((haudience s).1 haud'), h.others s r hr haud]

/-- An attack that kills, with the removal of its target. -/
theorem Strikes.kill {attacker target : Ref} {v₁ : Stage Outboxes} (h : Strikes Told v attacker target info v₁)
    (hs : Sound v) (hh : Healthy v.game) (hb : v.game.objects.length ≤ 2 ^ 64) (hdead : info.hp ≤ 0)
    {f : GameObject → GameObject} (hf : Musing v₁.game f)
    (hr : Removes Told ⟨v₁.net, v₁.game.modify attacker f⟩ info.objectid v') :
    ∃ b, Fight v.game [b] v'.game ∧ Heard v [b] v' := by
  have hdel : Delivery (fun _ _ _ => True) v v₁ := h.delivery
  have hlen := h.length
  have hs₁ := hs.delivery hdel (by rw [hlen]; exact hb)
  have hlen₂ : (v₁.game.modify attacker f).objects.length = v.game.objects.length := (modify_length _ _).trans hlen
  have hsilent : Delivery (fun _ _ _ => True) v₁ ⟨v₁.net, v₁.game.modify attacker f⟩ := .silent (.muse hf)
  have hs₂ := hs₁.delivery hsilent (by rw [hlen₂]; exact hb)
  obtain ⟨b, hbt, hid, hint, hwounds, hheard, hp, hm, hg⟩ := h.wound hs hh hb
  have hinside : ∀ r, (v₁.game.modify attacker f).Inside r ↔ v.game.Inside r := by
    intro r
    unfold Scene.Inside
    rw [modify_players, modify_monsters, hp, hm]
  rw [hid] at hr
  obtain ⟨hwounds', hleft, hheard'⟩ := hr.leaves hs₂ (by rw [hlen₂]; exact hb) ((hinside target).2 hint)
  have hheard₂ : Heard v [b] ⟨v₁.net, v₁.game.modify attacker f⟩ := ⟨hheard.audience, hheard.others⟩
  refine ⟨b, ⟨(hwounds.trans hf.wounds).trans hwounds', fun r o ho => ?_⟩, hheard₂.trans hheard' hp hg⟩
  · rw [hleft r, hinside r]
    refine and_congr_right fun _ => ?_
    obtain ⟨t, ht, -⟩ := hs.core.inside_room hint
    have hkills : b.Kills o.info.objectid ↔ r = target := by
      unfold Blow.Kills
      rw [hbt, hid, hs.core.id r o ho]
      constructor
      · intro hk
        by_contra hne
        exact key_ne ht ho hb (Ne.symm hne) hk.1
      · intro heq
        exact ⟨by rw [heq], hdead⟩
    simp [hkills]

/-- **The attacks of an act.** -/
theorem Act.fight {a : Label} (h : Act Told Whisper v a v') (hs : Sound v) (hh : Healthy v.game)
    (hb : v'.game.objects.length ≤ 2 ^ 64) (ha : a.Stays) :
    Newcomers v.game v'.game ∧ ∃ bs, bs.length ≤ 1 ∧ Fight v.game bs v'.game ∧ Heard v bs v' := by
  cases h with
  | enter hfresh h₁ hsnap h₂ hB =>
    rename_i session objects net₁ net₂ net₃
    refine ⟨.of_last rfl newPlayer_healthy, [], Nat.zero_le _, (wounds_append rfl).fight fun r o ho => ?_, ?_⟩
    · rw [enter_length] at hb
      exact hs.core.enter_inside hb ho
    · rw [enter_length] at hb
      have hsame : ∀ s, s ≠ session → net₂ s = v.net s := by
        intro s hne
        rw [h₂, h₁, Function.update_of_ne hne, Function.update_of_ne hne]
      have hne : ∀ s r, (v.game.gameSessions s).player = some r → s ≠ session := by
        intro s r hr heq
        rw [heq, hfresh] at hr
        cases hr
      refine ⟨fun s haud => ?_, fun s r hr haud => ?_⟩
      · obtain ⟨r, hr, -⟩ := id haud
        have hnes := hne s r hr
        have hnet : net₃ s = _ := (hB s).1 ((hs.core.enter_audience hb hnes).2 haud)
        rw [show (⟨net₃, v.game.enter session⟩ : Stage Outboxes).net s = net₃ s from rfl, hnet, attacks_append,
          hsame s hnes]
        rfl
      · have hnes := hne s r hr
        have hnet : net₃ s = _ := (hB s).2 fun h => haud ((hs.core.enter_audience hb hnes).1 h)
        rw [show (⟨net₃, v.game.enter session⟩ : Stage Outboxes).net s = net₃ s from rfl, hnet, hsame s hnes]
  | spawn hB =>
    rw [spawn_length] at hb
    exact ⟨.of_last rfl newMonster_healthy, [], Nat.zero_le _,
      (wounds_append rfl).fight fun r o ho => hs.core.spawn_inside hb ho, .told hB rfl⟩
  | think hf =>
    exact ⟨.of_length (modify_length _ _), [], Nat.zero_le _, hf.wounds.fight fun _ _ _ => Iff.rfl,
      ⟨fun s _ => (List.append_nil _).symm, fun _ _ _ _ => rfl⟩⟩
  | walk hin ho htold _ hB =>
    exact ⟨.of_length (modify_length _ _), [], Nat.zero_le _, wounds_follow.fight fun _ _ _ => Iff.rfl, .told hB rfl⟩
  | report hin ho htold hB =>
    exact ⟨.of_length (modify_length _ _), [], Nat.zero_le _, wounds_follow.fight fun _ _ _ => Iff.rfl, .told hB rfl⟩
  | hit hstrikes halive =>
    have hb : v.game.objects.length ≤ 2 ^ 64 := by
      rw [← hstrikes.length]
      exact hb
    obtain ⟨b, hbt, -, -, hwounds, hheard, hp, hm, -⟩ := hstrikes.wound hs hh hb
    refine ⟨.of_length hstrikes.length, [b], Nat.le_refl _, ⟨hwounds, fun r o ho => ?_⟩, hheard⟩
    have halive : ¬ b.Kills o.info.objectid := by
      intro hk
      rw [← hbt] at halive
      exact absurd hk.2 (Int32.not_le.2 halive)
    unfold Scene.Inside
    rw [hp, hm]
    simp [halive]
  | kill hstrikes hdead hf hremoves =>
    have hlen' : v'.game.objects.length = v.game.objects.length :=
      hremoves.length.trans ((modify_length _ _).trans hstrikes.length)
    obtain ⟨b, hfight, hheard⟩ := hstrikes.kill hs hh (by rw [← hlen']; exact hb) hdead hf hremoves
    exact ⟨.of_length hlen', [b], Nat.le_refl _, hfight, hheard⟩
  | leave => exact ha.elim

/-! ## Runs of acts -/

theorem damage_nonneg (id : UInt64) (h : ∀ b ∈ bs, 0 < b.attacker.attack) : 0 ≤ damage id bs := by
  induction bs with
  | nil => exact Int.le_refl 0
  | cons b bs ih =>
    have hrest := ih fun c hc => h c (List.mem_cons_of_mem _ hc)
    have hb : 0 < b.attacker.attack.toInt := Int32.lt_iff_toInt_lt.1 (h b List.mem_cons_self)
    rw [damage]
    split
    · omega
    · omega

/-- Who is not killed has hp left. -/
theorem carries_alive {hp : ℤ} (h : Carries id hp bs) (h0 : 0 < hp) (hk : ∀ b ∈ bs, ¬ b.Kills id) :
    0 < hp - damage id bs := by
  induction bs generalizing hp with
  | nil =>
    rw [damage, Int.sub_zero]
    exact h0
  | cons b bs ih =>
    have hrest : ∀ c ∈ bs, ¬ c.Kills id := fun c hc => hk c (List.mem_cons_of_mem _ hc)
    rw [Carries] at h
    rw [damage]
    split at h
    · rename_i hid
      obtain ⟨hcarried, h⟩ := h
      have hpos : 0 < b.target.hp := Int32.not_le.1 fun hle => hk b List.mem_cons_self ⟨hid, hle⟩
      have hpos : 0 < b.target.hp.toInt := Int32.lt_iff_toInt_lt.1 hpos
      have := ih h (by omega) hrest
      rw [if_pos hid]
      omega
    · rename_i hid
      have := ih h h0 hrest
      rw [if_neg hid]
      omega

/-- Kind and hp after the attacks. -/
theorem Wounds.stats (h : Wounds sc bs sc') (hh : Healthy sc) (hn : Newcomers sc sc') (r : Ref) (o : GameObject)
    (ho : sc'.objects[r]? = some o) : o.info.Stats ∧ o.info.hp ≤ o.info.maxhp := by
  rcases hn r o ho with ⟨o₀, ho₀⟩ | ⟨hstats, hmax, -⟩
  · obtain ⟨o', ho', hkind, -, hhp⟩ := h.objects r o₀ ho₀
    rw [ho] at ho'
    obtain rfl := Option.some.inj ho'
    obtain ⟨hstats, hmax⟩ := hh.stats r o₀ ho₀
    refine ⟨?_, ?_⟩
    · unfold ObjectInfo.Stats at hstats ⊢
      rw [hkind.maxhp, hkind.attack]
      exact hstats
    · have hmax := Int32.le_iff_toInt_le.1 hmax
      have hnonneg : 0 ≤ damage o₀.info.objectid bs := damage_nonneg _ fun b hb => by
        obtain ⟨r', a, -, -, hattack, hpos⟩ := h.attackers b hb
        rw [← hattack]
        exact hpos
      rw [hkind.maxhp, Int32.le_iff_toInt_le, hhp]
      omega
  · exact ⟨hstats, hmax⟩

theorem Healthy.fight (hh : Healthy sc) (h : Fight sc bs sc') (hn : Newcomers sc sc') : Healthy sc' := by
  refine ⟨h.stats hh hn, fun r o ho hin => ?_⟩
  rcases hn r o ho with ⟨o₀, ho₀⟩ | ⟨-, -, halive⟩
  · obtain ⟨o', ho', hkind, hcarries, hhp⟩ := h.objects r o₀ ho₀
    rw [ho] at ho'
    obtain rfl := Option.some.inj ho'
    obtain ⟨hin₀, hkills⟩ := (h.inside r o₀ ho₀).1 hin
    have hpos := carries_alive hcarries (Int32.lt_iff_toInt_lt.1 (hh.alive r o₀ ho₀ hin₀)) hkills
    rw [Int32.lt_iff_toInt_lt, hhp]
    exact hpos
  · exact halive

theorem Healthy.shrink (hh : Healthy sc) (h : Wounds sc [] sc') (hn : Newcomers sc sc')
    (hin : ∀ r, sc'.Inside r → sc.Inside r) : Healthy sc' := by
  refine ⟨h.stats hh hn, fun r o ho hin' => ?_⟩
  rcases hn r o ho with ⟨o₀, ho₀⟩ | ⟨-, -, halive⟩
  · obtain ⟨o', ho', -, -, hhp⟩ := h.objects r o₀ ho₀
    rw [ho] at ho'
    obtain rfl := Option.some.inj ho'
    have hpos := Int32.lt_iff_toInt_lt.1 (hh.alive r o₀ ho₀ (hin r hin'))
    rw [damage, Int.sub_zero] at hhp
    rw [Int32.lt_iff_toInt_lt, hhp]
    exact hpos
  · exact halive

/-- A session keeps its player. -/
theorem Delivery.player {honest : Scene → ObjectInfo → ObjectInfo → Prop} (hd : Delivery honest v v')
    (hr : (v.game.gameSessions s).player = some r) : (v'.game.gameSessions s).player = some r := by
  cases hd with
  | beat hbeat _ =>
    dsimp only
    rw [hbeat.sessions]
    exact hr
  | enter hfresh =>
    have hne : s ≠ _ := fun heq => by
      rw [heq, hfresh] at hr
      cases hr
    unfold Scene.enter
    dsimp only
    rw [Function.update_of_ne hne]
    exact hr

theorem deliveries_player {honest : Scene → ObjectInfo → ObjectInfo → Prop}
    (h : Relation.ReflTransGen (Delivery honest) v v') (hr : (v.game.gameSessions s).player = some r) :
    (v'.game.gameSessions s).player = some r := by
  induction h with
  | refl => exact hr
  | tail _ hd ih => exact hd.player ih

theorem Core.audience_of_inside (h : Core Anyone v) (hr : (v.game.gameSessions s).player = some r)
    (hin : v.game.Inside r) : v.game.Audience s := by
  obtain ⟨o, ho, hplays⟩ := h.weak s r hr
  exact ⟨r, hr, (h.inside_roster ho (show _ = some Roster.players by rw [hplays.type]; rfl)).1 hin⟩

/-- What a run of acts does: its attacks, and what the sessions hear of them. -/
structure Brawl (v : Stage Outboxes) (bs : List Blow) (v' : Stage Outboxes) : Prop where
  fight : Fight v.game bs v'.game
  player : ∀ s r, (v.game.gameSessions s).player = some r → (v'.game.gameSessions s).player = some r
  told : ∀ s r, (v.game.gameSessions s).player = some r → v.game.Audience s →
    attacks (v'.net s) = attacks (v.net s) ++ heard (key r) bs

theorem Brawl.refl : Brawl v [] v := by
  have hwounds : Wounds v.game [] v.game := .of_same fun r o ho => ⟨o, ho, .refl, rfl⟩
  refine ⟨hwounds.fight ?_, ?_, ?_⟩
  · intro _ _ _
    rfl
  · intro _ _ hr
    exact hr
  · intro s r _ _
    rw [heard, List.append_nil]

theorem heard_short (h : bs.length ≤ 1) : heard id bs = bs := by
  cases bs with
  | nil => rfl
  | cons b bs =>
    have hnil : bs = [] := List.length_eq_zero_iff.1 (by simpa using h)
    rw [hnil, heard, heard]
    exact ite_self _

/-- **One more act.** -/
theorem Brawl.snoc (h : Brawl v bs v') (hs : Sound v) (hs' : Sound v') (hp : ∀ s r,
    (v'.game.gameSessions s).player = some r → (v''.game.gameSessions s).player = some r)
    (hf : Fight v'.game bs' v''.game) (hh : Heard v' bs' v'') (hlen : bs'.length ≤ 1) :
    Brawl v (bs ++ bs') v'' := by
  refine ⟨h.fight.trans hf, fun s r hr => hp s r (h.player s r hr), fun s r hr haud => ?_⟩
  have htold := h.told s r hr haud
  have hr' := h.player s r hr
  obtain ⟨o, ho, -⟩ := hs.core.weak s r hr
  have hinside := h.fight.inside r o ho
  rw [hs.core.id r o ho] at hinside
  have hin := audience_inside hr haud
  by_cases halive : ∀ b ∈ bs, ¬ b.Kills (key r)
  · have haud' := hs'.core.audience_of_inside hr' (hinside.2 ⟨hin, halive⟩)
    rw [hh.audience s haud', htold, heard_all halive, heard_append_of_alive halive, heard_short hlen,
      List.append_assoc]
  · -- it has left, and hears no more
    have hout : ¬ v'.game.Audience s := fun haud' => halive (hinside.1 (audience_inside hr' haud')).2
    push Not at halive
    obtain ⟨b, hb, hkills⟩ := halive
    rw [hh.others s r hr' hout, htold, heard_append_of_dead hb hkills]

/-- **The attacks of a run of acts.** -/
theorem acts_brawl {acts : List Label} (h : Runs (Act Told Whisper) v acts v') (hs : Sound v) (hh : Healthy v.game)
    (hb : v'.game.objects.length ≤ 2 ^ 64) (hstay : ∀ a ∈ acts, a.Stays) :
    Sound v' ∧ Healthy v'.game ∧ ∃ bs, Brawl v bs v' := by
  induction h with
  | nil => exact ⟨hs, hh, [], .refl⟩
  | snoc _ hact ih =>
    have hlen := hact.length
    obtain ⟨hs', hh', bs, hbrawl⟩ := ih (by omega) fun a ha => hstay a (List.mem_append_left _ ha)
    obtain ⟨hnew, bs', hshort, hfight, hheard⟩ := hact.fight hs' hh' hb (hstay _ (by simp))
    have hdel : Relation.ReflTransGen (Delivery fun _ _ _ => True) _ _ :=
      hact.deliveries hs'.core hb fun _ _ _ _ _ => trivial
    obtain ⟨hs'', -⟩ := deliveries_invariant (P := fun _ => True) (fun _ _ _ _ _ _ => trivial) hdel hb hs' trivial
    exact ⟨hs'', hh'.fight hfight hnew, bs ++ bs',
      hbrawl.snoc hs hs' (fun s r hr => deliveries_player hdel hr) hfight hheard hshort⟩

/-! ## Operations -/

theorem RoomOp.Performs.stays {acts : List Label} (h : op.Performs sc acts) (hop : ∀ s, op ≠ .leaveRoom s) :
    ∀ a ∈ acts, a.Stays := by
  intro a ha
  cases op with
  | init =>
    rw [show acts = [.spawn] from h] at ha
    rw [List.mem_singleton.1 ha]
    trivial
  | enterRoom s =>
    rw [show acts = [.enter s] from h] at ha
    rw [List.mem_singleton.1 ha]
    trivial
  | leaveRoom s => exact absurd rfl (hop s)
  | handleCMove pkt =>
    rcases h with rfl | ⟨r, rest, -, rfl, hrest⟩
    · cases ha
    · rcases List.mem_cons.1 ha with rfl | ha
      · trivial
      · obtain ⟨t, rfl | rfl⟩ := hrest a ha
        · trivial
        · trivial
  | update =>
    obtain ⟨r, rfl | ⟨told, rfl⟩ | ⟨t, rfl | rfl⟩⟩ := h a ha
    · trivial
    · trivial
    · trivial
    · trivial

theorem Wounds.battle (h : Wounds st.game.toScene bs st'.game.toScene) (hcore : Core Anyone st.stage)
    (htold : ∀ s r, (st.game.gameSessions s).player = some r → st.game.toScene.Audience s →
      attacks (st'.net s) = attacks (st.net s) ++ heard (key r) bs) : Battle st bs st' := by
  refine ⟨h.objects, h.attackers, fun id r o s hmem ho hk => ?_⟩
  obtain ⟨hweak, haud⟩ := hcore.owner hmem ho hk
  rw [hcore.id r o ho]
  exact htold s r hweak haud

/-- The removal of `LeaveRoom` attacks nobody. -/
theorem Removes.quiet (h : Removes Told v id v') (hs : Sound v) (hb : v.game.objects.length ≤ 2 ^ 64) :
    Wounds v.game [] v'.game ∧ (∀ r, v'.game.Inside r → v.game.Inside r) ∧
      ∀ s, attacks (v'.net s) = attacks (v.net s) := by
  cases h with
  | missing =>
    refine ⟨.of_same fun r o ho => ?_, fun _ hin => hin, fun _ => rfl⟩
    exact ⟨o, ho, .refl, rfl⟩
  | found hf ho ht hB =>
    refine ⟨wounds_drop, fun r hin => ((hs.drop_inside hb hf ho ht r).1 hin).1, fun s => ?_⟩
    dsimp only
    by_cases haud : v.game.Audience s
    · rw [(hB s).1 haud, attacks_append]
      exact List.append_nil _
    · rw [(hB s).2 haud]

/-- **The attacks of an operation.** -/
theorem roomStep_battle (hgood : Good Anyone st []) (hs : Sound st.stage) (hh : Healthy st.game.toScene)
    (hstep : RoomStep st op st') (hb : st'.game.objects.length ≤ 2 ^ 64) :
    Healthy st'.game.toScene ∧ ∃ bs, Battle st bs st' ∧
      ((∀ s, op ≠ .leaveRoom s) → Removed st.game bs st'.game) ∧ ∀ s, op = .leaveRoom s → bs = [] := by
  obtain ⟨hgood', acts, hruns, hperforms⟩ := roomStep_acts hgood hstep
  by_cases hop : ∀ s, op ≠ .leaveRoom s
  · obtain ⟨-, hh', bs, hbrawl⟩ := acts_brawl hruns hs hh hb (hperforms.stays hop)
    refine ⟨hh', bs, hbrawl.fight.toWounds.battle hgood.core hbrawl.told, fun _ => ?_, fun s hs => absurd hs (hop s)⟩
    intro r o ho
    rw [hgood.core.contains, hgood'.core.contains]
    exact hbrawl.fight.inside r o ho
  · obtain ⟨s, rfl⟩ : ∃ s, op = .leaveRoom s := by
      push Not at hop
      exact hop
    -- nobody is attacked
    have hquiet : Wounds st.game.toScene [] st'.game.toScene ∧
        (∀ r, st'.game.Inside r → st.game.Inside r) ∧ ∀ s, attacks (st'.net s) = attacks (st.net s) := by
      rcases hperforms with rfl | ⟨id, rfl⟩
      · have hsame := hruns.eq_of_nil
        have hgame : st'.game.toScene = st.game.toScene := congrArg (fun v : Stage Outboxes => v.game) hsame.symm
        have hnet : st'.net = st.net := congrArg (fun v : Stage Outboxes => v.net) hsame.symm
        rw [hgame, hnet]
        refine ⟨.of_same fun r o ho => ?_, fun _ hin => hin, fun _ => rfl⟩
        exact ⟨o, ho, .refl, rfl⟩
      · cases hruns.of_single with
        | leave hremoves =>
          exact hremoves.quiet hs (Nat.le_trans (Nat.le_of_eq hremoves.length.symm) hb)
    obtain ⟨hwounds, hin, hsame⟩ := hquiet
    have hlen := roomStep_length hgood hstep
    refine ⟨hh.shrink hwounds (.of_length hlen) hin, [], hwounds.battle hgood.core fun s r _ _ => ?_,
      fun hne => absurd rfl (hne s), fun _ _ => rfl⟩
    rw [hsame, heard, List.append_nil]

theorem healthy_start : Healthy roomStart.stage.game := by
  refine ⟨fun r o ho => ?_, fun r o ho => ?_⟩
  · simp [roomStart, Game.stage] at ho
  · simp [roomStart, Game.stage] at ho

theorem run_healthy (h : Runs RoomStep roomStart ops st) (hb : ops.countP RoomOp.creates ≤ 2 ^ 64) :
    Healthy st.game.toScene := by
  induction h with
  | nil => exact healthy_start
  | snoc hruns hstep ih =>
    have hlen := (run_good (hruns.snoc hstep)).2
    have hb' := hb
    rw [List.countP_append] at hb'
    have hb' := Nat.le_trans (Nat.le_add_right _ _) hb'
    exact (roomStep_battle (run_good hruns).1 (run_sound hruns hb') (ih hb') hstep (hlen ▸ hb)).1

/-- Nothing but hp changes, and that downwards. -/
theorem Battle.le (h : Battle st bs st') (ho : st.game.objects[r]? = some o) :
    ∃ o' : GameObject, st'.game.objects[r]? = some o' ∧ o'.info.SameKind o.info ∧ o'.info.hp ≤ o.info.hp := by
  obtain ⟨o', ho', hkind, -, hhp⟩ := h.objects r o ho
  have hnonneg : 0 ≤ damage o.info.objectid bs := damage_nonneg _ fun b hb => by
    obtain ⟨r', a, -, -, hattack, hpos⟩ := h.attackers b hb
    rw [← hattack]
    exact hpos
  refine ⟨o', ho', hkind, ?_⟩
  rw [Int32.le_iff_toInt_le, hhp]
  omega

/-- **Combat**, in every state and every operation of a run that creates at most `2 ^ 64`
objects: who is in the room is alive, and every operation is a list of attacks. -/
theorem combat (h : Runs RoomStep roomStart ops st) (hb : ops.countP RoomOp.creates ≤ 2 ^ 64) :
    (∀ (r : Ref) (o : GameObject), st.game.objects[r]? = some o → st.game.Contains r →
      0 < o.info.hp ∧ o.info.hp ≤ o.info.maxhp) ∧
    (∀ op st', RoomStep st op st' → (ops ++ [op]).countP RoomOp.creates ≤ 2 ^ 64 → ∃ bs, Battle st bs st' ∧
      ((∀ s, op ≠ .leaveRoom s) → Removed st.game bs st'.game) ∧ ∀ s, op = .leaveRoom s → bs = []) ∧
    ∀ ops' st', Runs RoomStep st ops' st' → (ops ++ ops').countP RoomOp.creates ≤ 2 ^ 64 →
      ∀ (r : Ref) (o : GameObject), st.game.objects[r]? = some o → ∃ o' : GameObject,
        st'.game.objects[r]? = some o' ∧ o'.info.SameKind o.info ∧ o'.info.hp ≤ o.info.hp := by
  -- one operation after any run
  have hstep : ∀ {ops st}, Runs RoomStep roomStart ops st → ∀ op st', RoomStep st op st' →
      (ops ++ [op]).countP RoomOp.creates ≤ 2 ^ 64 → ∃ bs, Battle st bs st' ∧
        ((∀ s, op ≠ .leaveRoom s) → Removed st.game bs st'.game) ∧ ∀ s, op = .leaveRoom s → bs = [] := by
    intro ops st h op st' hstep hb
    have hlen := (run_good (h.snoc hstep)).2
    have hb' := hb
    rw [List.countP_append] at hb'
    have hb' := Nat.le_trans (Nat.le_add_right _ _) hb'
    exact (roomStep_battle (run_good h).1 (run_sound h hb') (run_healthy h hb') hstep (hlen ▸ hb)).2
  refine ⟨fun r o ho hin => ?_, hstep h, fun ops' st' hruns => ?_⟩
  · have hh := run_healthy h hb
    exact ⟨hh.alive r o ho ((run_good h).1.core.contains.1 hin), (hh.stats r o ho).2⟩
  · induction hruns with
    | nil =>
      intro _ r o ho
      exact ⟨o, ho, .refl, Int32.le_refl _⟩
    | snoc hruns' hlast ih =>
      intro hb r o ho
      rw [← List.append_assoc] at hb
      have hb' := hb
      rw [List.countP_append] at hb'
      obtain ⟨o', ho', hkind, hle⟩ := ih (Nat.le_trans (Nat.le_add_right _ _) hb') r o ho
      obtain ⟨bs, hbattle, -⟩ := hstep (h.append hruns') _ _ hlast hb
      obtain ⟨o'', ho'', hkind', hle'⟩ := hbattle.le ho'
      exact ⟨o'', ho'', hkind'.trans hkind, Int32.le_trans hle' hle⟩

/-- The player kills the monster with its second attack. -/
theorem combat_example : ∃ st st' bs, Runs RoomStep roomStart [.init {}, .enterRoom 0, .handleCMove (swing 2)] st ∧
    RoomStep st (.handleCMove (swing 2)) st' ∧ (st.game.objects[0]?.map fun o => o.info.hp) = some 20 ∧
    Battle st bs st' ∧ Removed st.game bs st'.game := by
  have hrun : ([.init {}, .enterRoom 0, .handleCMove (swing 2)].foldlM roomExec roomStart).map (fun st =>
      (st.game.objects[0]?.map (fun o => o.info.hp), (roomExec st (.handleCMove (swing 2))).isSome)) =
      some (some 20, true) := by decide +kernel
  obtain ⟨st, hst, hfacts⟩ := Option.map_eq_some_iff.1 hrun
  rw [Prod.mk.injEq] at hfacts
  obtain ⟨hhp, hnext⟩ := hfacts
  obtain ⟨st', hst'⟩ := Option.isSome_iff_exists.1 hnext
  obtain ⟨bs, hbattle, hremoved, -⟩ :=
    (combat (roomExec_runs hst) (by decide)).2.1 _ st' (roomExec_step hst') (by decide)
  exact ⟨st, st', bs, roomExec_runs hst, roomExec_step hst', hhp, hbattle, hremoved nofun⟩

end ZeldaServer
