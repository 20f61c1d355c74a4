import Mathlib.Logic.Relation
import ZeldaServer.Proof.Broadcasts

/-!
# Deliveries

While at most `2 ^ 64` objects are created no id is used twice, and every act is a
sequence of deliveries: a change of the scene, with the messages that it sends to
everyone who is in the room (`Beat`), or the entry of a session. What is said about the
messages of the clients is proved delivery by delivery.

* `key_inj`: ids do not repeat.
* `Act.deliveries`: acts are sequences of deliveries.
* `Sound.delivery`: what deliveries keep while no id is used twice.
-/

namespace ZeldaServer

open Lib Std

variable {v v' : Stage Outboxes} {st : Game Outboxes} {r : Ref} {o : GameObject} {id : UInt64} {sc sc' : Scene}
  {session : SessionId} {msgs : List Msg}

/-- The ids of the first `2 ^ 64` objects are different. -/
theorem key_inj {r r' : ℕ} (h : key r = key r') (hr : r < 2 ^ 64) (hr' : r' < 2 ^ 64) : r = r' := by
  unfold key at h
  have h := congrArg UInt64.toNat h
  rw [UInt64.toNat_ofNat', UInt64.toNat_ofNat'] at h
  omega

/-- A change of the scene, and what is broadcast with it. `honest` is what is known
about the record of a packet and that of the object it names. -/
inductive Beat (honest : Scene → ObjectInfo → ObjectInfo → Prop) (sc : Scene) : List Msg → Scene → Prop
  | spawn : Beat honest sc [.addObject [sc.newMonster.info]] sc.spawn
  | muse {r : Ref} {f : GameObject → GameObject} : Musing sc f → Beat honest sc [] (sc.modify r f)
  | move {r : Ref} {o : GameObject} {told : ObjectInfo} : sc.Inside r → sc.objects[r]? = some o →
      told.objectid = o.info.objectid → told = o.info.follow told ∨ honest sc o.info told →
      Beat honest sc [.move told] (sc.modifyInfo r (·.follow told))
  | strike {attacker target : Ref} {a t : GameObject} : attacker ≠ target → sc.Inside attacker → sc.Inside target →
      sc.objects[attacker]? = some a → sc.objects[target]? = some t →
      Beat honest sc [.attack (t.info.hurt a.info.attack) a.info] (sc.modifyInfo target (·.hurt a.info.attack))
  | remove {id : UInt64} {r : Ref} {o : GameObject} {which : Roster} : sc.findObject id = some r →
      sc.objects[r]? = some o → o.info.objecttype.roster = some which →
      Beat honest sc [.removeObject [id]] (sc.drop which r id)

/-- The records of the objects that `EnterRoom` finds. -/
def Scene.Snapshot (sc : Scene) (objects : List ObjectInfo) : Prop :=
  (elements sc.players ++ elements sc.monsters).map (fun r => (sc.objects[r]?).map (·.info)) = objects.map some

/-- A beat that everyone in the room is told, or an entry. -/
inductive Delivery (honest : Scene → ObjectInfo → ObjectInfo → Prop) (v : Stage Outboxes) : Stage Outboxes → Prop
  | beat {msgs : List Msg} {sc : Scene} {net : Outboxes} : Beat honest v.game msgs sc →
      (∀ s, (v.game.Audience s → net s = v.net s ++ msgs) ∧ (¬ v.game.Audience s → net s = v.net s)) →
      Delivery honest v ⟨net, sc⟩
  | enter {session : SessionId} {objects : List ObjectInfo} {net : Outboxes} :
      (v.game.gameSessions session).player = none → v.game.Snapshot objects →
      net session = v.net session ++ [.myPlayer (v.game.newPlayer session).info, .addObject objects,
        .addObject [(v.game.newPlayer session).info]] →
      (∀ s, s ≠ session → (v.game.Audience s → net s = v.net s ++ [.addObject [(v.game.newPlayer session).info]]) ∧
        (¬ v.game.Audience s → net s = v.net s)) →
      Delivery honest v ⟨net, v.game.enter session⟩

variable {honest : Scene → ObjectInfo → ObjectInfo → Prop}

/-! ## What deliveries keep -/

theorem Core.anyone {net net' : Outboxes} (h : Core Anyone ⟨net, sc⟩) : Core Anyone ⟨net', sc⟩ :=
  h.net fun _ _ => trivial

theorem Core.beat (h : Core Anyone v) (hb : Beat honest v.game msgs sc) : Core Anyone ⟨v.net, sc⟩ := by
  cases hb with
  | spawn => exact h.spawn
  | muse hf => exact h.muse hf
  | move => exact h.modifyInfo (fun _ => rfl) fun _ => rfl
  | strike => exact h.modifyInfo (fun _ => rfl) fun _ => rfl
  | remove hf ho ht =>
    obtain ⟨-, o', which, ho', ht', hmem⟩ := h.found hf
    rw [ho] at ho'
    obtain rfl := Option.some.inj ho'
    rw [ht] at ht'
    obtain rfl := Option.some.inj ht'
    exact h.drop hmem ho ht

theorem Core.delivery (h : Core Anyone v) (hd : Delivery honest v v') : Core Anyone v' := by
  cases hd with
  | beat hb _ => exact (h.beat hb).anyone
  | enter hfresh _ _ _ => exact (h.enter hfresh trivial).anyone

theorem enter_length : (sc.enter session).objects.length = sc.objects.length + 1 := by
  simp [Scene.enter]

theorem spawn_length : sc.spawn.objects.length = sc.objects.length + 1 := by
  simp [Scene.spawn]

theorem drop_length {which : Roster} : (sc.drop which r id).objects.length = sc.objects.length := by
  unfold Scene.drop
  rw [modify_length]
  cases which <;> rfl

/-- Objects are never taken out of the memory. -/
theorem Delivery.length_le (hd : Delivery honest v v') : v.game.objects.length ≤ v'.game.objects.length := by
  cases hd with
  | beat hb _ =>
    cases hb with
    | spawn => exact spawn_length ▸ Nat.le_succ _
    | muse => exact Nat.le_of_eq (modify_length _ _).symm
    | move => exact Nat.le_of_eq (modify_length _ _).symm
    | strike => exact Nat.le_of_eq (modify_length _ _).symm
    | remove => exact Nat.le_of_eq drop_length.symm
  | enter => exact enter_length ▸ Nat.le_succ _

/-! ## Acts -/

/-- Who is in the room when a session has entered. -/
theorem Core.enter_audience (h : Core Anyone v) (hb : v.game.objects.length < 2 ^ 64) {s : SessionId}
    (hs : s ≠ session) : (v.game.enter session).Audience s ↔ v.game.Audience s := by
  unfold Scene.Audience Scene.enter
  dsimp only
  rw [Function.update_of_ne hs]
  have hkey : ∀ r, (v.game.gameSessions s).player = some r →
      (v.game.players.insert v.game.idGenerator v.game.objects.length)[key r]? = v.game.players[key r]? := by
    intro r hr
    obtain ⟨o, ho, -⟩ := h.weak s r hr
    have hlt : r < v.game.objects.length := (List.getElem?_eq_some_iff.1 ho).1
    rw [TreeMap.getElem?_insert, if_neg]
    intro heq
    have heq := Std.compare_eq_iff_eq.1 heq
    rw [h.next] at heq
    exact absurd (key_inj heq hb (Nat.lt_trans hlt hb)) (Nat.ne_of_gt hlt)
  constructor
  · intro haud
    obtain ⟨r, hr, hmem⟩ := haud
    exact ⟨r, hr, by rw [← hkey r hr, hmem]⟩
  · intro haud
    obtain ⟨r, hr, hmem⟩ := haud
    exact ⟨r, hr, by rw [hkey r hr, hmem]⟩

theorem Core.enter_self (h : Core Anyone v) : (v.game.enter session).Audience session := by
  unfold Scene.Audience Scene.enter
  dsimp only
  refine ⟨v.game.objects.length, by rw [Function.update_self], ?_⟩
  rw [h.next]
  exact TreeMap.getElem?_insert_self

/-- A beat whose message everyone is told. -/
theorem Delivery.told {msg : Msg} {net : Outboxes} (hb : Beat honest v.game [msg] sc)
    (ht : ToldTo v.game.Audience msg v.net net) : Delivery honest v ⟨net, sc⟩ := .beat hb ht

theorem Delivery.silent (hb : Beat honest v.game [] sc) : Delivery honest v ⟨v.net, sc⟩ :=
  .beat hb fun _ => ⟨fun _ => (List.append_nil _).symm, fun _ => rfl⟩

theorem Strikes.delivery {attacker target : Ref} {info : ObjectInfo} (h : Strikes Told v attacker target info v') :
    Delivery honest v v' := by
  cases h with
  | mk hne hina hint ha ht hB => exact .told (.strike hne hina hint ha ht) hB

theorem Removes.deliveries (h : Removes Told v id v') : Relation.ReflTransGen (Delivery honest) v v' := by
  cases h with
  | missing => exact .refl
  | found hf ho ht hB => exact .single (.told (.remove hf ho ht) hB)

/-- **An act is a sequence of deliveries.** -/
theorem Act.deliveries {a : Label} (h : Act Told Whisper v a v') (hcore : Core Anyone v)
    (hb : v'.game.objects.length ≤ 2 ^ 64)
    (hreport : ∀ r told o, a = .report r told → v.game.objects[r]? = some o → honest v.game o.info told) :
    Relation.ReflTransGen (Delivery honest) v v' := by
  cases h with
  | enter hfresh h₁ hsnap h₂ hB =>
    rw [enter_length] at hb
    refine .single (.enter hfresh hsnap ?_ fun s hs => ?_)
    · rw [(hB _).1 hcore.enter_self, h₂, h₁]
      simp
    · have haud := hcore.enter_audience hb hs
      have hsame := hB s
      rw [h₂, h₁] at hsame
      simpa [hs, haud] using hsame
  | spawn hB => exact .single (.told .spawn hB)
  | think hf => exact .single (.silent (.muse hf))
  | walk hin ho htold _ hB =>
    have hid := congrArg ObjectInfo.objectid htold
    exact .single (.told (.move hin ho hid (.inl htold)) hB)
  | report hin ho hid hB => exact .single (.told (.move hin ho hid (.inr (hreport _ _ _ rfl ho))) hB)
  | hit hs _ => exact .single hs.delivery
  | kill hs _ hf hr => exact .trans (.single hs.delivery) (.trans (.single (.silent (.muse hf))) hr.deliveries)
  | leave hr => exact hr.deliveries

/-! ## The room without repeated ids -/

/-- An object that points to the room is in one of its maps. -/
structure Sound (v : Stage Outboxes) : Prop where
  core : Core Anyone v
  inside : ∀ (r : Ref) (o : GameObject), v.game.objects[r]? = some o → o.room = true → v.game.Inside r

theorem getElem?_insert_ne {m : TreeMap UInt64 Ref} {k k' : UInt64} {x : Ref} (h : k ≠ k') :
    (m.insert k x)[k']? = m[k']? := by
  rw [TreeMap.getElem?_insert, if_neg]
  exact fun heq => h (Std.compare_eq_iff_eq.1 heq)

theorem getElem?_erase_ne {m : TreeMap UInt64 Ref} {k k' : UInt64} (h : k ≠ k') : (m.erase k)[k']? = m[k']? := by
  rw [TreeMap.getElem?_erase, if_neg]
  exact fun heq => h (Std.compare_eq_iff_eq.1 heq)

/-- An object of the memory, and the place where the next one goes. -/
theorem key_ne_last (ho : sc.objects[r]? = some o) (hb : sc.objects.length < 2 ^ 64) :
    key sc.objects.length ≠ key r := by
  have hlt : r < sc.objects.length := (List.getElem?_eq_some_iff.1 ho).1
  intro heq
  exact absurd (key_inj heq hb (Nat.lt_trans hlt hb)) (Nat.ne_of_gt hlt)

theorem key_ne {r' : Ref} {o' : GameObject} (ho : sc.objects[r]? = some o) (ho' : sc.objects[r']? = some o')
    (hb : sc.objects.length ≤ 2 ^ 64) (hne : r ≠ r') : key r ≠ key r' := by
  have hlt : r < sc.objects.length := (List.getElem?_eq_some_iff.1 ho).1
  have hlt' : r' < sc.objects.length := (List.getElem?_eq_some_iff.1 ho').1
  exact fun heq => hne (key_inj heq (Nat.lt_of_lt_of_le hlt hb) (Nat.lt_of_lt_of_le hlt' hb))

/-- Who is in the room when a session has entered, or a monster has spawned. -/
theorem Core.enter_inside (h : Core Anyone v) (hb : v.game.objects.length < 2 ^ 64)
    (ho : v.game.objects[r]? = some o) : (v.game.enter session).Inside r ↔ v.game.Inside r := by
  unfold Scene.Inside Scene.enter
  dsimp only
  rw [h.next, getElem?_insert_ne (key_ne_last ho hb)]

theorem Core.spawn_inside (h : Core Anyone v) (hb : v.game.objects.length < 2 ^ 64)
    (ho : v.game.objects[r]? = some o) : v.game.spawn.Inside r ↔ v.game.Inside r := by
  unfold Scene.Inside Scene.spawn
  dsimp only
  rw [h.next, getElem?_insert_ne (key_ne_last ho hb)]

/-- Who is in the room when an object has left. -/
theorem drop_inside {which : Roster} {r' : Ref} (hne : key r ≠ key r') :
    (sc.drop which r (key r)).Inside r' ↔ sc.Inside r' := by
  cases which with
  | players =>
    unfold Scene.Inside Scene.drop Scene.setRoster Scene.roster
    dsimp only [modify_players, modify_monsters]
    rw [getElem?_erase_ne hne]
  | monsters =>
    unfold Scene.Inside Scene.drop Scene.setRoster Scene.roster
    dsimp only [modify_players, modify_monsters]
    rw [getElem?_erase_ne hne]

theorem drop_objects {which : Roster} {r' : Ref} (ho : (sc.drop which r id).objects[r']? = some o) :
    (r' = r ∧ o.room = false) ∨ (r' ≠ r ∧ sc.objects[r']? = some o) := by
  unfold Scene.drop at ho
  have hset : (sc.setRoster which ((sc.roster which).erase id)).objects = sc.objects := by
    cases which <;> rfl
  rcases of_modify ho with ⟨rfl, o', -, rfl⟩ | ⟨hne, ho'⟩
  · exact .inl ⟨rfl, rfl⟩
  · rw [hset] at ho'
    exact .inr ⟨hne, ho'⟩

/-- **A delivery keeps the room sound.** -/
theorem Sound.delivery (h : Sound v) (hd : Delivery honest v v') (hb : v'.game.objects.length ≤ 2 ^ 64) :
    Sound v' := by
  refine ⟨h.core.delivery hd, ?_⟩
  intro r o ho hroom
  cases hd with
  | enter =>
    rw [enter_length] at hb
    rcases objects_last ho with ho | ⟨rfl, rfl⟩
    · exact (h.core.enter_inside hb ho).2 (h.inside r o ho hroom)
    · left
      unfold Scene.enter
      dsimp only
      rw [h.core.next]
      exact TreeMap.getElem?_insert_self
  | beat hbeat _ =>
    have hkeep : ∀ {r' : Ref} {f : GameObject → GameObject}, (∀ o, (f o).room = o.room) →
        (v.game.modify r' f).objects[r]? = some o → v.game.Inside r := by
      intro r' f hf ho
      rcases of_modify ho with ⟨rfl, o', ho', rfl⟩ | ⟨-, ho'⟩
      · exact h.inside _ o' ho' (by rw [← hf]; exact hroom)
      · exact h.inside _ o ho' hroom
    cases hbeat with
    | spawn =>
      rw [spawn_length] at hb
      rcases objects_last ho with ho | ⟨rfl, rfl⟩
      · exact (h.core.spawn_inside hb ho).2 (h.inside r o ho hroom)
      · right
        unfold Scene.spawn
        dsimp only
        rw [h.core.next]
        exact TreeMap.getElem?_insert_self
    | muse hf => exact hkeep hf.room ho
    | move =>
      refine hkeep ?_ ho
      exact fun _ => rfl
    | strike =>
      refine hkeep ?_ ho
      exact fun _ => rfl
    | remove hf ho' _ =>
      rw [drop_length] at hb
      rcases drop_objects ho with ⟨-, hout⟩ | ⟨hne, ho⟩
      · rw [hout] at hroom
        cases hroom
      · have hid := (h.core.found hf).1
        have hkey := key_ne ho' ho hb (Ne.symm hne)
        rw [hid]
        exact (drop_inside hkey).2 (h.inside r o ho hroom)

end ZeldaServer
