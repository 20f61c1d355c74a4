import ZeldaServer.Proof.FindPath
import ZeldaServer.Proof.RoomSpec

/-!
# What the players do

Packets move objects and attack. Each function that returns is a run of acts (`Does`), and
keeps what is known between calls.

* `getGameObjectAt_spec`, `canGo_spec`, `findClosestPlayer_spec`: looking around, also for monsters.
* `damage_spec`, `attack_lunges`: attacks.
* `handleCMove_lunges`, `handleCMove_spec`: the handler of `C_Move`.
-/

namespace ZeldaServer

open Lib Std

variable {ν : Type} {send : SessionId → Packet → Game ν → Outcome (Game ν)} {W : SessionId → ν → Prop}
  {B : Scene → Msg → ν → ν → Prop} {U : SessionId → Msg → ν → ν → Prop} {fuel : ℕ} {pick : Pick}
  {st : Game ν} {v v' v'' : Stage ν} {pins : List Ref} {r : Ref} {o : GameObject} {id : UInt64}

/-- Acts that may be done lead from one stage to the other. -/
def Does (B : Scene → Msg → ν → ν → Prop) (U : SessionId → Msg → ν → ν → Prop) (may : Label → Prop)
    (v v' : Stage ν) : Prop :=
  ∃ acts, Runs (Act B U) v acts v' ∧ ∀ a ∈ acts, may a

variable {may : Label → Prop}

theorem Does.refl : Does B U may v v := ⟨[], .nil, List.forall_mem_nil _⟩

theorem Does.act {a : Label} (h : Act B U v a v') (ha : may a) : Does B U may v v' := by
  refine ⟨[a], .single h, fun b hb => ?_⟩
  rw [List.mem_singleton.1 hb]
  exact ha

theorem Does.trans (h : Does B U may v v') (h' : Does B U may v' v'') : Does B U may v v'' := by
  obtain ⟨acts, hruns, hmay⟩ := h
  obtain ⟨acts', hruns', hmay'⟩ := h'
  refine ⟨acts ++ acts', hruns.append hruns', fun a ha => ?_⟩
  rcases List.mem_append.1 ha with ha | ha
  · exact hmay a ha
  · exact hmay' a ha

theorem Does.mono {may' : Label → Prop} (h : Does B U may v v') (hm : ∀ a, may a → may' a) :
    Does B U may' v v' := by
  obtain ⟨acts, hruns, hmay⟩ := h
  exact ⟨acts, hruns, fun a ha => hm a (hmay a ha)⟩

/-! ## Looking around -/

theorem Core.elements_players (h : Core W v) (hr : r ∈ elements v.game.players) :
    v.game.players[key r]? = some r := by
  obtain ⟨k, hk⟩ := mem_elements.1 hr
  obtain ⟨hkey, -⟩ := h.players k r hk
  rwa [hkey] at hk

theorem Core.elements_monsters (h : Core W v) (hr : r ∈ elements v.game.monsters) :
    v.game.monsters[key r]? = some r := by
  obtain ⟨k, hk⟩ := mem_elements.1 hr
  obtain ⟨hkey, -⟩ := h.monsters k r hk
  rwa [hkey] at hk

theorem Core.player_type (h : Core W v) (hr : r ∈ elements v.game.players) (ho : v.game.objects[r]? = some o) :
    o.info.objecttype = .player := by
  obtain ⟨-, o', session, ho', hplays, -⟩ := h.players (key r) r (h.elements_players hr)
  obtain rfl : o = o' := Option.some.inj (ho.symm.trans ho')
  exact hplays.type

theorem Core.monster_type (h : Core W v) (hr : r ∈ elements v.game.monsters) (ho : v.game.objects[r]? = some o) :
    o.info.objecttype = .monster := by
  obtain ⟨-, o', ho', htype, -⟩ := h.monsters (key r) r (h.elements_monsters hr)
  obtain rfl : o = o' := Option.some.inj (ho.symm.trans ho')
  exact htype

/-- What is in one of the maps is in the room. -/
theorem Core.elements_inside (h : Core W v) :
    r ∈ elements v.game.players ++ elements v.game.monsters ↔ v.game.Inside r := by
  rw [List.mem_append]
  constructor
  · intro hr
    rcases hr with hr | hr
    · exact .inl (h.elements_players hr)
    · exact .inr (h.elements_monsters hr)
  · intro hin
    rcases hin with hin | hin
    · exact .inl (mem_elements.2 ⟨_, hin⟩)
    · exact .inr (mem_elements.2 ⟨_, hin⟩)

theorem findAt_spec {room : Room} {cellPos : VectorInt} (l : List Ref) :
    IfReturns (room.findAt cellPos l) fun ret => ∀ r, ret = some r → r ∈ l := by
  induction l with
  | nil => exact .ok nofun
  | cons a l ih =>
    unfold Room.findAt
    refine deref_spec.bind fun o _ => ?_
    split
    · refine .ok fun r hr => ?_
      rw [← Option.some.inj hr]
      exact List.mem_cons_self
    · exact ih.imp fun ret hret r hr => List.mem_cons_of_mem _ (hret r hr)

/-- The object that is found at a cell is in the room. -/
theorem getGameObjectAt_spec {room : Room} (h : Core W v) (hv : v.game = room.toScene) {cellPos : VectorInt} :
    IfReturns (room.getGameObjectAt cellPos) fun ret => ∀ r, ret = some r → v.game.Inside r := by
  unfold Room.getGameObjectAt
  refine (findAt_spec _).bind fun ret hret => ?_
  cases ret with
  | some r =>
    refine .ok fun r' hr' => .inl ?_
    rw [← Option.some.inj hr']
    have hmem := hret r rfl
    rw [← hv] at hmem
    exact h.elements_players hmem
  | none =>
    refine (findAt_spec _).imp fun ret hret r hr => .inr ?_
    have hmem := hret r hr
    rw [← hv] at hmem
    exact h.elements_monsters hmem

/-- Where none was found, none stands. -/
theorem findAt_none {room : Room} {cellPos : VectorInt} (l : List Ref) :
    IfReturns (room.findAt cellPos l) fun ret => ret = none → ∀ r ∈ l, ∀ o : GameObject,
      room.objects[r]? = some o → o.getCellPos ≠ cellPos := by
  induction l with
  | nil => exact .ok fun _ => List.forall_mem_nil _
  | cons a l ih =>
    unfold Room.findAt
    refine deref_spec.bind fun o ho => ?_
    split
    · exact .ok nofun
    · rename_i hne
      refine ih.imp fun ret hret hnone r hr o' ho' => ?_
      rcases List.mem_cons.1 hr with rfl | hr
      · rw [ho.1] at ho'
        rw [← Option.some.inj ho']
        exact hne
      · exact hret hnone r hr o' ho'

/-- A cell on which an object can go is vacant. -/
theorem canGo_spec {room : Room} {cellPos : VectorInt} :
    IfReturns (room.canGo cellPos) fun go => go = true → room.toScene.Vacant cellPos := by
  unfold Room.canGo
  cases room.tilemap.getTileAt cellPos with
  | none => exact .ok nofun
  | some value =>
    dsimp only
    have hat : IfReturns (room.getGameObjectAt cellPos) fun ret => ret = none → room.toScene.Vacant cellPos := by
      unfold Room.getGameObjectAt
      refine (findAt_none _).bind fun ret hplayers => ?_
      cases ret with
      | some r => exact .ok nofun
      | none =>
        refine (findAt_none _).imp fun ret hmonsters hnone r o hin ho => ?_
        rcases hin with hp | hm
        · exact hplayers rfl r (mem_elements.2 ⟨_, hp⟩) o ho
        · exact hmonsters hnone r (mem_elements.2 ⟨_, hm⟩) o ho
    refine hat.bind fun ret hret => .ok fun hgo => hret ?_
    cases ret with
    | none => rfl
    | some r => cases hgo

/-- The closest player is in the room. -/
theorem findClosestPlayer_spec {room : Room} {cellPos : VectorInt} :
    IfReturns (room.findClosestPlayer cellPos) fun ret => ∀ r, ret = some r → r ∈ elements room.players := by
  unfold Room.findClosestPlayer
  refine Post.bind (Post.foldlM (I := fun p => ∀ r, p.2 = some r → r ∈ elements room.players) _ ?_ ?_)
    fun p hp => .ok hp
  case refine_2 =>
    intro r hr
    cases hr
  intro p a ha hp
  obtain ⟨best, ret⟩ := p
  refine deref_spec.bind fun o _ => .ok ?_
  split
  · intro r hr
    rw [← Option.some.inj hr]
    exact ha
  · exact hp

/-! ## Changes of one object -/

theorem modify_modify {sc : Scene} (f g : GameObject → GameObject) :
    (sc.modify r f).modify r g = sc.modify r (g ∘ f) := by
  unfold Scene.modify
  rw [List.modify_modify_eq]

/-- Only what a change does to the object itself matters. -/
theorem modify_congr {sc : Scene} {f g : GameObject → GameObject} (ho : sc.objects[r]? = some o) (h : f o = g o) :
    sc.modify r f = sc.modify r g := by
  have hobjects : sc.objects.modify r f = sc.objects.modify r g := by
    refine List.ext_getElem? fun i => ?_
    by_cases hi : i = r
    · rw [hi]
      simp [ho, h]
    · simp [Ne.symm hi]
  unfold Scene.modify
  rw [hobjects]

theorem modify_id {sc : Scene} {f : GameObject → GameObject} (ho : sc.objects[r]? = some o) (h : f o = o) :
    sc.modify r f = sc := by
  rw [modify_congr (g := id) ho h]
  unfold Scene.modify
  rw [List.modify_id]

theorem Good.modifyInfo (h : Good W st pins) {f : ObjectInfo → ObjectInfo}
    (h1 : ∀ info, (f info).objectid = info.objectid) (h2 : ∀ info, (f info).objecttype = info.objecttype) :
    Good W (st.update (·.modifyInfo r f)) pins :=
  ⟨h.core.modifyInfo h1 h2, h.counted.modify⟩

/-! ## Attacks -/

/-- The room with the hp of `target` reduced: the attacker is as it was. -/
theorem Good.hurt (h : Good W st pins) {attacker target : Ref} {a t : GameObject} (attack : Int32) (hne : attacker ≠ target)
    (ha : st.game.objects[attacker]? = some a) (ht : st.game.objects[target]? = some t) :
    Good W (st.update (·.modifyInfo target (·.hurt attack))) pins ∧
      (st.update (·.modifyInfo target (·.hurt attack))).game.objects[target]? =
        some { t with info := t.info.hurt attack } ∧
      (st.update (·.modifyInfo target (·.hurt attack))).game.objects[attacker]? = some a :=
  ⟨h.modifyInfo (fun _ => rfl) fun _ => rfl, modify_self ht, (modify_ne hne).trans ha⟩

/-- The two objects after an attack. -/
theorem hurt_objects {room room' : Room} {attacker target : Ref} {a t : GameObject} {attack : Int32}
    (hroom : room' = room.modifyInfo target (·.hurt attack)) (hne : attacker ≠ target)
    (ha : room.objects[attacker]? = some a) (ht : room.objects[target]? = some t) :
    room'.objects[target]? = some { t with info := t.info.hurt attack } ∧ room'.objects[attacker]? = some a := by
  rw [hroom]
  exact ⟨modify_self ht, (modify_ne hne).trans ha⟩

/-- The attack of `attacker` on `target`, up to the removal. -/
theorem damage_spec (hs : Speaks send W B) (h : Good W st pins) {attacker target : Ref} {a t : GameObject}
    (hne : attacker ≠ target) (hina : st.game.toScene.Inside attacker) (hint : st.game.toScene.Inside target)
    (ha : st.game.objects[attacker]? = some a) (ht : st.game.objects[target]? = some t) :
    IfReturns (Game.damage send fuel attacker target st) fun st' => Good W st' pins ∧
      st'.game = st.game.modifyInfo target (·.hurt a.info.attack) ∧
      Strikes B st.stage attacker target (t.info.hurt a.info.attack) st'.stage := by
  unfold Game.damage Game.damageBy
  refine (deref_eq ha).bind fun a' ha' => ?_
  rw [ha']
  obtain ⟨h₁, ht₁, ha₁⟩ := h.hurt a.info.attack hne ha ht
  refine (deref_eq ht₁).bind fun t' ht' => ?_
  refine (deref_eq ha₁).bind fun a'' ha'' => ?_
  rw [ht', ha'']
  unfold Game.broadcastAttackBy
  refine (deref_eq ha₁).bind fun a₁ ha₁' => ?_
  -- the attacker is in the room
  have hroom : a.room = true := h.core.room_of hina ha
  rw [ha₁', if_pos hroom]
  refine (say_spec hs h₁).imp fun st' h' => ?_
  obtain ⟨hgood, hgame, hB⟩ := h'
  refine ⟨hgood, hgame, ?_⟩
  have hstage : st'.stage = ⟨st'.net, st.game.toScene.modifyInfo target (·.hurt a.info.attack)⟩ := by
    unfold Game.stage
    rw [hgame]
    rfl
  rw [hstage]
  exact .mk hne hina hint ha ht hB

theorem Musing.same {sc : Scene} : Musing sc fun o => o :=
  ⟨fun o => ⟨o.info.state, rfl⟩, fun _ => rfl, fun _ _ h => h, fun _ m h => ⟨m, h, .inl rfl⟩⟩

/-- The attacks of `r`. -/
def Label.Attacks (r : Ref) (a : Label) : Prop := ∃ target, a = .hit r target ∨ a = .kill r target

/-- The player `r` attacks one monster, or nobody. -/
def Swings (B : Scene → Msg → ν → ν → Prop) (U : SessionId → Msg → ν → ν → Prop) (r : Ref) (v v' : Stage ν) : Prop :=
  v' = v ∨ ∃ (target : Ref) (t : GameObject) (a : Label), v.game.objects[target]? = some t ∧
    t.info.objecttype = .monster ∧ (a = .hit r target ∨ a = .kill r target) ∧ Act B U v a v'

theorem Swings.does (h : Swings B U r v v') : Does B U (Label.Attacks r) v v' := by
  rcases h with rfl | ⟨target, t, a, -, -, ha, hact⟩
  · exact .refl
  · exact .act hact ⟨target, ha⟩

/-- The player `r` attacks what it finds in front of it, `ret`, if that is a monster. -/
def Lunges (B : Scene → Msg → ν → ν → Prop) (U : SessionId → Msg → ν → ν → Prop)
    (r : Ref) (ret : Option Ref) (v v' : Stage ν) : Prop :=
  (v' = v ∧ ∀ (target : Ref) (t : GameObject), ret = some target → v.game.objects[target]? = some t →
      t.info.objecttype ≠ .monster) ∨
    ∃ (target : Ref) (t : GameObject) (a : Label), ret = some target ∧ v.game.objects[target]? = some t ∧
      t.info.objecttype = .monster ∧ (a = .hit r target ∨ a = .kill r target) ∧ Act B U v a v'

theorem Lunges.swings {ret : Option Ref} (h : Lunges B U r ret v v') : Swings B U r v v' := by
  rcases h with ⟨heq, -⟩ | ⟨target, t, a, -, ht, htype, ha, hact⟩
  · exact .inl heq
  · exact .inr ⟨target, t, a, ht, htype, ha, hact⟩

/-- A player that is found is not hit. -/
theorem Lunges.spared {x : Ref} (h : Lunges B U r (some x) v v') (hcore : Core W v) (hx : x ∈ elements v.game.players) :
    v' = v := by
  rcases h with ⟨heq, -⟩ | ⟨target, t, -, heq, ht, htype, -⟩
  · exact heq
  · obtain rfl := Option.some.inj heq
    rw [hcore.player_type hx ht] at htype
    cases htype

/-- A monster that is found is hit. -/
theorem Lunges.struck {x : Ref} (h : Lunges B U r (some x) v v') (hcore : Core W v) (hx : x ∈ elements v.game.monsters)
    (ho : v.game.objects[x]? = some o) : ∃ a : Label, (a = .hit r x ∨ a = .kill r x) ∧ Act B U v a v' := by
  rcases h with ⟨-, hother⟩ | ⟨target, t, a, heq, -, -, ha, hact⟩
  · exact absurd (hcore.monster_type hx ho) (hother x o rfl ho)
  · obtain rfl := Option.some.inj heq
    exact ⟨a, ha, hact⟩

theorem attack_lunges (hs : Speaks send W B) (h : Good W st pins) (hin : st.game.toScene.Inside r)
    (ho : st.game.objects[r]? = some o) (hp : o.info.objecttype = .player) :
    IfReturns (Game.attack send fuel r st) fun st' => Good W st' pins ∧
      ∃ ret, st.game.getGameObjectAt o.getFrontCellPos = .ok ret ∧ Lunges B U r ret st.stage st'.stage := by
  unfold Game.attack Game.attackBy
  refine (deref_eq ho).bind fun o' ho' => ?_
  rw [ho']
  split
  · exact .error trivial
  refine ((getGameObjectAt_spec h.core rfl).and (ifReturns_iff.2 fun _ h => h)).bind fun ret hret => ?_
  obtain ⟨hret, hfound⟩ := hret
  cases ret with
  | none => exact .ok ⟨h, none, hfound, .inl ⟨rfl, fun target _ heq => absurd heq.symm (Option.some_ne_none target)⟩⟩
  | some target =>
    have hint := hret target rfl
    have h₁ : Good W (st.update (·.retain target)) (target :: pins) := h.retain
    refine deref_spec.bind fun t ht => ?_
    have ht : st.game.objects[target]? = some t := ht.1
    split
    · rename_i hmonster
      -- a player attacks a monster
      have hne : r ≠ target := by
        intro heq
        rw [← heq, ho] at ht
        rw [← Option.some.inj ht, hp] at hmonster
        cases hmonster
      dsimp only
      refine (damage_spec hs h₁ hne hin hint ho ht).bind fun st₂ h₂ => ?_
      obtain ⟨hgood₂, hgame₂, hstrikes⟩ := h₂
      obtain ⟨ht₂, ho₂⟩ := hurt_objects hgame₂ hne ho ht
      refine (deref_eq ht₂).bind fun t' ht' => ?_
      rw [ht']
      dsimp only
      split
      · rename_i hdead
        refine (deref_eq ho₂).bind fun o₂ ho₂' => ?_
        rw [ho₂']
        split
        · exact .error trivial
        refine (removeObject_spec hs hgood₂).bind fun st₃ h₃ => ?_
        obtain ⟨hgood₃, hremoves⟩ := h₃
        refine .ok ⟨hgood₃.release, some target, hfound, .inr ⟨target, t, _, rfl, ht, hmonster, .inr rfl,
          .kill hstrikes hdead .same ?_⟩⟩
        rw [modify_id (show st₂.stage.game.objects[r]? = some o from ho₂) rfl]
        exact hremoves
      · rename_i halive
        have hhit := Act.hit (U := U) hstrikes (Int32.not_le.1 halive)
        exact .ok ⟨hgood₂.release, some target, hfound, .inr ⟨target, t, _, rfl, ht, hmonster, .inl rfl, hhit⟩⟩
    · rename_i hother
      refine .ok ⟨h₁.release, some target, hfound, .inl ⟨rfl, fun target' t' heq ht' => ?_⟩⟩
      obtain rfl := Option.some.inj heq
      obtain rfl : t = t' := Option.some.inj (ht.symm.trans ht')
      exact hother

/-- The packet moves the object `r`, the object `o`; the room is `st₁` then. -/
structure Reported (W : SessionId → ν → Prop) (B : Scene → Msg → ν → ν → Prop)
    (U : SessionId → Msg → ν → ν → Prop) (st : Game ν)
    (pkt : CMove) (r : Ref) (o : GameObject) (st₁ : Game ν) : Prop where
  found : st.game.findObject pkt.info.objectid = some r
  object : st.game.objects[r]? = some o
  good : ∃ pins, Good W st₁ pins
  act : Act B U st.stage (.report r pkt.info) st₁.stage
  told : B (st.game.toScene.modifyInfo r (·.follow pkt.info)) (.move pkt.info) st.net st₁.net
  scene : st₁.game.toScene = st.game.toScene.modifyInfo r (·.follow pkt.info)

/-- What a packet that names an object does: it is reported, and then a player may attack. -/
theorem handleCMove_lunges (hs : Speaks send W B) (h : Good W st pins) (pkt : CMove) :
    IfReturns (Game.handleCMove send fuel pkt st) fun st' => Good W st' pins ∧
      ((st.game.findObject pkt.info.objectid = none ∧ st' = st) ∨ ∃ r o st₁, Reported W B U st pkt r o st₁ ∧
        ((st'.stage = st₁.stage ∧ ¬ (pkt.info.state = .skill ∧ ∃ session, o.kind = .player session)) ∨
          (pkt.info.state = .skill ∧ (∃ session, o.kind = .player session) ∧
            ∃ ret, st₁.game.getGameObjectAt { o with info := o.info.follow pkt.info }.getFrontCellPos = .ok ret ∧
              Lunges B U r ret st₁.stage st'.stage))) := by
  unfold Game.handleCMove Game.handleCMoveBy
  cases hf : st.game.findObject pkt.info.objectid with
  | none => exact .ok ⟨h, .inl ⟨rfl, rfl⟩⟩
  | some r =>
    obtain ⟨hid, o, which, ho, ht, hmem⟩ := h.core.found hf
    have hin := h.core.found_inside hf
    dsimp only
    have h₁ : Good W ((st.update (·.retain r)).update (·.modifyInfo r (·.follow pkt.info))) (r :: pins) :=
      h.retain.modifyInfo (fun _ => rfl) fun _ => rfl
    rw [← bind_assoc]
    refine (say_spec hs h₁).bind fun st₂ h₂ => ?_
    obtain ⟨hgood₂, hgame₂, hB⟩ := h₂
    have hstage₂ : st₂.stage = ⟨st₂.net, st.game.toScene.modifyInfo r (·.follow pkt.info)⟩ := by
      unfold Game.stage
      rw [hgame₂]
      rfl
    have hreport : Act B U st.stage (.report r pkt.info) st₂.stage := by
      have hid : pkt.info.objectid = o.info.objectid := by rw [hid, h.core.id r o ho]
      rw [hstage₂]
      exact .report hin ho hid hB
    have hreported : Reported W B U st pkt r o st₂ := ⟨hf, ho, ⟨_, hgood₂⟩, hreport, hB, by rw [hgame₂]; rfl⟩
    have ho₂ : st₂.game.objects[r]? = some { o with info := o.info.follow pkt.info } := by
      rw [hgame₂]
      exact modify_self ho
    refine (deref_eq ho₂).bind fun o' ho' => ?_
    rw [ho']
    dsimp only
    split
    · rename_i hskill
      split
      · rename_i session hkind
        have htyped : o.info.objecttype = .player := by
          have := h.core.typed r o ho
          unfold GameObject.Typed at this
          rwa [hkind] at this
        have hin₂ : st₂.game.toScene.Inside r := by
          rw [hgame₂]
          exact hin
        have h₃ : Good W (st₂.update (·.retain r)) (r :: r :: pins) := hgood₂.retain
        have hstage₃ : (st₂.update (·.retain r)).stage = st₂.stage := rfl
        have hreported₃ : Reported W B U st pkt r o (st₂.update (·.retain r)) :=
          ⟨hf, ho, ⟨_, h₃⟩, by rw [hstage₃]; exact hreport, hB, hreported.scene⟩
        refine (attack_lunges (U := U) hs h₃ hin₂ ho₂ htyped).bind fun st₄ h₄ => ?_
        obtain ⟨hgood₄, ret, hret, hlunges⟩ := h₄
        exact .ok ⟨hgood₄.release.release, .inr ⟨r, o, _, hreported₃,
          .inr ⟨hskill, ⟨session, hkind⟩, ret, hret, hlunges⟩⟩⟩
      · rename_i fields hkind
        refine .ok ⟨hgood₂.release, .inr ⟨r, o, st₂, hreported, .inl ⟨rfl, ?_⟩⟩⟩
        rintro ⟨-, session, hplayer⟩
        rw [hkind] at hplayer
        cases hplayer
    · rename_i hskill
      exact .ok ⟨hgood₂.release, .inr ⟨r, o, st₂, hreported, .inl ⟨rfl, fun hboth => hskill hboth.1⟩⟩⟩

/-- A packet that names an object is reported, and then the object may attack. -/
theorem handleCMove_spec (hs : Speaks send W B) (h : Good W st pins) (pkt : CMove) :
    IfReturns (Game.handleCMove send fuel pkt st) fun st' => Good W st' pins ∧
      ((st.game.findObject pkt.info.objectid = none ∧ st' = st) ∨ ∃ r v, st.game.findObject pkt.info.objectid = some r ∧
        Act B U st.stage (.report r pkt.info) v ∧ Swings B U r v st'.stage) := by
  refine (handleCMove_lunges (U := U) hs h pkt).imp fun st' h' => ?_
  obtain ⟨hgood, hnone | ⟨r, o, st₁, hreported, hrest⟩⟩ := h'
  · exact ⟨hgood, .inl hnone⟩
  · refine ⟨hgood, .inr ⟨r, st₁.stage, hreported.found, hreported.act, ?_⟩⟩
    rcases hrest with ⟨heq, -⟩ | ⟨-, -, ret, -, hlunges⟩
    · exact .inl heq
    · exact hlunges.swings

end ZeldaServer
