import ZeldaServer.Proof.Clients

/-!
# The records of the clients

A client's records mirror the objects of the room (`Mirrors`) as long as the packets
carry the values that the server has: `Handle_C_Move` broadcasts the record of the
packet. All other messages carry the server's own records.

* `replicas_agree`: in a run of honest packets every replica agrees with the room.
-/

namespace ZeldaServer

open Lib Std

variable {v v' : Stage Outboxes} {st : Game Outboxes} {ops : List RoomOp} {r : Ref} {o : GameObject} {id : UInt64}
  {sc : Scene} {session s : SessionId} {msgs : List Msg} {m : Replica} {info : ObjectInfo}

theorem ObjectInfo.Agrees.refl : info.Agrees info := ⟨rfl, rfl, rfl, rfl, rfl, rfl, rfl, rfl, rfl, rfl⟩

/-- What is known about packets while somebody is in the room. -/
def SeenHonest (sc : Scene) (info told : ObjectInfo) : Prop := (∃ s, sc.Audience s) → told.SameStats info

/-- The records of the objects in the room. -/
def Replica.Mirrors (m : Replica) (sc : Scene) : Prop :=
  ∀ (r : Ref) (o : GameObject), sc.Inside r → sc.objects[r]? = some o →
    ∃ info, m (key r) = some info ∧ info.Agrees o.info

/-! ## Records -/

theorem put_self : (m.put info) info.objectid = some info := by
  unfold Replica.put
  rw [Function.update_self]

theorem put_ne (h : id ≠ info.objectid) : (m.put info) id = m id := by
  unfold Replica.put
  rw [Function.update_of_ne h]

/-- The record of each id that is listed once. -/
theorem putAll (objects : List ObjectInfo) (m : Replica) (hnodup : (objects.map (·.objectid)).Nodup) :
    (∀ info ∈ objects, (objects.foldl Replica.put m) info.objectid = some info) ∧
      ∀ id, id ∉ objects.map (·.objectid) → (objects.foldl Replica.put m) id = m id := by
  induction objects generalizing m with
  | nil => exact ⟨List.forall_mem_nil _, fun _ _ => rfl⟩
  | cons info objects ih =>
    rw [List.map_cons, List.nodup_cons] at hnodup
    obtain ⟨hin, hout⟩ := ih (m.put info) hnodup.2
    refine ⟨fun info' hinfo' => ?_, fun id hid => ?_⟩
    · rcases List.mem_cons.1 hinfo' with rfl | hinfo'
      · rw [List.foldl_cons, hout _ hnodup.1, put_self]
      · exact hin info' hinfo'
    · rw [List.map_cons, List.mem_cons, not_or] at hid
      rw [List.foldl_cons, hout id hid.2, put_ne hid.1]

theorem Replica.replay_append (msgs msgs' : List Msg) :
    Replica.replay (msgs ++ msgs') = msgs'.foldl Replica.step (Replica.replay msgs) := by
  unfold Replica.replay
  rw [List.foldl_append]

/-! ## Deliveries -/

/-- An object that is added, told with its own record. -/
theorem Replica.Mirrors.add (h : m.Mirrors v.game) (hb : v.game.objects.length < 2 ^ 64)
    {sc' : Scene} {new : GameObject} (hid : new.info.objectid = key v.game.objects.length)
    (hobjects : sc'.objects = v.game.objects ++ [new])
    (hin : ∀ r, sc'.Inside r ↔ v.game.Inside r ∨ r = v.game.objects.length) : (m.put new.info).Mirrors sc' := by
  intro r o hr ho
  rw [hobjects] at ho
  rcases objects_last ho with ho | ⟨rfl, rfl⟩
  · have hne : key r ≠ new.info.objectid := by
      rw [hid]
      exact (key_ne_last ho hb).symm
    rw [put_ne hne]
    rcases (hin r).1 hr with hr | rfl
    · exact h r o hr ho
    · exact absurd hid.symm hne
  · rw [← hid]
    exact ⟨_, put_self, .refl⟩

/-- A change of one object, told with a record that agrees with the new one. -/
theorem Replica.Mirrors.tell (h : m.Mirrors v.game) (hb : v.game.objects.length ≤ 2 ^ 64)
    {f : ObjectInfo → ObjectInfo} (ho : v.game.objects[r]? = some o) (hid : info.objectid = key r)
    (hagrees : info.Agrees (f o.info)) : (m.put info).Mirrors (v.game.modifyInfo r f) := by
  intro r' o' hr' ho'
  rcases of_modify ho' with ⟨rfl, o₁, ho₁, rfl⟩ | ⟨hne, ho'⟩
  · rw [ho] at ho₁
    obtain rfl := Option.some.inj ho₁
    rw [← hid]
    exact ⟨info, put_self, hagrees⟩
  · have hkey : key r' ≠ info.objectid := by
      rw [hid]
      exact key_ne ho' ho hb hne
    rw [put_ne hkey]
    exact h r' o' hr' ho'

/-- **A beat keeps the records of a client in step with the room.** -/
theorem Beat.mirrors (hbeat : Beat SeenHonest v.game msgs sc) (h : m.Mirrors v.game) (hs : Sound v)
    (hb : sc.objects.length ≤ 2 ^ 64) (haud : v.game.Audience s) : (msgs.foldl Replica.step m).Mirrors sc := by
  cases hbeat with
  | spawn =>
    rw [spawn_length] at hb
    exact h.add hb hs.core.next rfl (hs.spawn_inside hb)
  | muse hf =>
    intro r' o' hr' ho'
    rcases of_modify ho' with ⟨rfl, o₁, ho₁, rfl⟩ | ⟨hne, ho'⟩
    · -- only the state may have changed
      obtain ⟨info, hinfo, hagrees⟩ := h _ o₁ hr' ho₁
      obtain ⟨state, hstate⟩ := hf.info o₁
      refine ⟨info, hinfo, ?_⟩
      rw [hstate]
      exact ⟨hagrees.1, hagrees.2, hagrees.3, hagrees.4, hagrees.5, hagrees.6, hagrees.7, hagrees.8, hagrees.9,
        hagrees.10⟩
    · exact h r' o' hr' ho'
  | move hin ho htold hcase =>
    unfold Scene.modifyInfo at hb
    rw [modify_length] at hb
    refine h.tell hb ho (htold.trans (hs.core.id _ _ ho)) ?_
    rcases hcase with hcase | hhonest
    · rw [← hcase]
      exact .refl
    · have hstats := hhonest ⟨s, haud⟩
      exact ⟨htold, hstats.1, hstats.2, hstats.3, hstats.4, hstats.5, hstats.6, rfl, rfl, rfl⟩
  | strike hne hina hint ha ht =>
    rename_i attacker target a t
    unfold Scene.modifyInfo at hb
    rw [modify_length] at hb
    have hid : (t.info.hurt a.info.attack).objectid = key target := hs.core.id target t ht
    have htarget : (m.put (t.info.hurt a.info.attack)).Mirrors (v.game.modifyInfo target (·.hurt a.info.attack)) :=
      h.tell hb ht hid .refl
    -- the record of the attacker is told again
    intro r' o' hr' ho'
    by_cases hra : r' = attacker
    · have ho' : v.game.objects[attacker]? = some o' := by
        rw [hra] at ho'
        exact (modify_ne hne).symm.trans ho'
      rw [ha] at ho'
      obtain rfl := Option.some.inj ho'
      rw [hra, ← hs.core.id _ _ ha]
      exact ⟨_, put_self, .refl⟩
    · have hkey : key r' ≠ a.info.objectid := by
        rw [hs.core.id _ _ ha]
        obtain ⟨o₁, ho₁, -⟩ := hs.core.inside_room (show v.game.Inside r' from hr')
        exact key_ne ho₁ ha hb hra
      obtain ⟨info, hinfo, hagrees⟩ := htarget r' o' hr' ho'
      exact ⟨info, (put_ne hkey).trans hinfo, hagrees⟩
  | remove hf ho ht =>
    rw [drop_length] at hb
    intro r' o' hr' ho'
    obtain ⟨hr', hne⟩ := (hs.drop_inside hb hf ho ht r').1 hr'
    rcases drop_objects ho' with ⟨heq, -⟩ | ⟨-, ho'⟩
    · exact absurd heq hne
    · have hkey := key_ne ho' ho hb hne
      rw [← (hs.core.found hf).1] at hkey
      obtain ⟨info, hinfo, hagrees⟩ := h r' o' hr' ho'
      refine ⟨info, ?_, hagrees⟩
      rw [← hinfo]
      exact Function.update_of_ne hkey _ _

/-! ## Clients -/

/-- Every client in the room mirrors it. -/
def Mirrored (v : Stage Outboxes) : Prop := ∀ s, v.game.Audience s → (Replica.replay (v.net s)).Mirrors v.game

/-- The record of every object of the room is in a snapshot. -/
theorem snapshot_mem {objects : List ObjectInfo} (hsnap : v.game.Snapshot objects)
    (hin : v.game.Inside r) (ho : v.game.objects[r]? = some o) : o.info ∈ objects := by
  have hmem : r ∈ elements v.game.players ++ elements v.game.monsters := by
    refine List.mem_append.2 ?_
    rcases hin with hin | hin
    · exact .inl (mem_elements.2 ⟨_, hin⟩)
    · exact .inr (mem_elements.2 ⟨_, hin⟩)
  have hinfo := List.mem_map_of_mem (f := fun r => (v.game.objects[r]?).map (·.info)) hmem
  rw [hsnap, ho] at hinfo
  obtain ⟨info, hinfo, heq⟩ := List.mem_map.1 hinfo
  have heq : info = o.info := Option.some.inj heq
  rw [← heq]
  exact hinfo

/-- The records of a session that enters. -/
theorem Sound.welcome_mirrors (hs : Sound v) (hb : v.game.objects.length < 2 ^ 64)
    (hfresh : (v.game.gameSessions session).player = none) {objects : List ObjectInfo} (hsnap : v.game.Snapshot objects) :
    (Replica.replay [.myPlayer (v.game.newPlayer session).info, .addObject objects,
      .addObject [(v.game.newPlayer session).info]]).Mirrors (v.game.enter session) := by
  obtain ⟨hnodup, -⟩ := hs.snapshot (Nat.le_of_lt hb) hsnap
  obtain ⟨hput, -⟩ := putAll objects (fun _ => none) hnodup
  have hm : (objects.foldl Replica.put fun _ => none).Mirrors v.game := by
    intro r o hin ho
    rw [← hs.core.id r o ho]
    exact ⟨o.info, hput _ (snapshot_mem hsnap hin ho), .refl⟩
  exact hm.add hb hs.core.next rfl (hs.enter_inside hfresh hb)

theorem Mirrored.delivery (h : Mirrored v) (hfollows : Follows v) (hs : Sound v) (hd : Delivery SeenHonest v v')
    (hb : v'.game.objects.length ≤ 2 ^ 64) : Mirrored v' := by
  cases hd with
  | beat hbeat htold =>
    intro s haud
    have haud₀ := hbeat.audience haud
    dsimp only
    rw [(htold s).1 haud₀, Replica.replay_append]
    exact hbeat.mirrors (h s haud₀) hs hb haud₀
  | enter hfresh hsnap hself hothers =>
    rename_i session objects net
    rw [enter_length] at hb
    intro s haud
    dsimp only
    by_cases hne : s = session
    · rw [hne, hself, hfollows.fresh _ hfresh]
      exact hs.welcome_mirrors hb hfresh hsnap
    · have haud₀ := (hs.core.enter_audience hb hne).1 haud
      rw [(hothers s hne).1 haud₀, Replica.replay_append]
      exact (h s haud₀).add hb hs.core.next rfl (hs.enter_inside hfresh hb)

theorem HonestStep.reports {st st' : Game Outboxes} {op : RoomOp} (h : HonestStep st op st') :
    ReportStep SeenHonest st op st' := by
  obtain ⟨hstep, hhonest⟩ := h
  refine ⟨hstep, fun pkt r o hop hf ho hex => ?_⟩
  subst hop
  obtain ⟨s, r', hr', hmem⟩ := hex
  exact hhonest ⟨_, fun hnone => by cases hnone.symm.trans hmem⟩ r o hf ho

/-- **Every replica agrees with the room** in every state of a run of honest packets that
creates at most `2 ^ 64` objects. -/
theorem replicas_agree (h : Runs HonestStep roomStart ops st) (hb : ops.countP RoomOp.creates ≤ 2 ^ 64) :
    ∀ s, st.game.Hosts s → ∀ (r : Ref) (o : GameObject), st.game.Contains r → st.game.objects[r]? = some o →
      ∃ info, Replica.replay (st.net s) o.info.objectid = some info ∧ info.Agrees o.info := by
  have hreports : Runs (ReportStep SeenHonest) roomStart ops st := h.mono fun _ _ _ hstep => hstep.reports
  obtain ⟨hs, -, hm⟩ := run_invariant (P := fun v => Follows v ∧ Mirrored v)
    ⟨follows_start, fun s haud => by obtain ⟨r, hr, -⟩ := haud; cases hr⟩
    (fun v v' hs hd hb hp => ⟨hp.1.delivery hs hd hb, hp.2.delivery hp.1 hs hd hb⟩) hreports hb
  intro s hh r o hin ho
  rw [hs.core.id r o ho]
  refine hm s (hs.core.hosts hh) r o ?_ ho
  obtain ⟨id, hin | hin⟩ := hin
  · exact .inl ((hs.core.players id r hin).1 ▸ hin)
  · exact .inr ((hs.core.monsters id r hin).1 ▸ hin)

/-- A player attacks the monster, and its packet carries the server's values. -/
theorem replicas_agree_example : ∃ st, Runs HonestStep roomStart
    [.init {}, .enterRoom 0, .enterRoom 1, .handleCMove (swing 2)] st ∧ (st.net 1).length = 5 ∧
    ∀ s, st.game.Hosts s → ∀ (r : Ref) (o : GameObject), st.game.Contains r → st.game.objects[r]? = some o →
      ∃ info, Replica.replay (st.net s) o.info.objectid = some info ∧ info.Agrees o.info := by
  have hrun : ([.init {}, .enterRoom 0, .enterRoom 1, .handleCMove (swing 2)].foldlM honestExec roomStart).map
      (fun st => (st.net 1).length) = some 5 := by decide +kernel
  obtain ⟨st, hst, hlen⟩ := Option.map_eq_some_iff.1 hrun
  exact ⟨st, honestExec_runs hst, hlen, replicas_agree (honestExec_runs hst) (by decide)⟩

/-- The player 1 has one hp left, or so its client says. -/
def madeUp : CMove where
  info? := some {
    objectid := 1
    objecttype := .player
    hp := 1
    maxhp := 100
    attack := 30
    posx := 5
    posy := 5 }

/-- **All clients are told what a packet says** about the fields that the server does not
take from it. -/
theorem replicas_diverge : ∃ st, Runs RoomStep roomStart [.enterRoom 0, .handleCMove madeUp] st ∧
    st.game.Hosts 0 ∧ ∃ (o : GameObject) (info : ObjectInfo), st.game.Contains 0 ∧ st.game.objects[0]? = some o ∧
      Replica.replay (st.net 0) o.info.objectid = some info ∧ o.info.hp = 100 ∧ info.hp = 1 := by
  have hrun : ([.enterRoom 0, .handleCMove madeUp].foldlM roomExec roomStart).map (fun st =>
      (st.game.players[(1 : UInt64)]?, st.game.objects[0]?.map fun o => (o.kind, o.info.objectid, o.info.hp),
        (Replica.replay (st.net 0) 1).map (·.hp))) =
      some (some 0, some (.player (some 0), 1, 100), some 1) := by decide +kernel
  obtain ⟨st, hst, hfacts⟩ := Option.map_eq_some_iff.1 hrun
  rw [Prod.mk.injEq, Prod.mk.injEq] at hfacts
  obtain ⟨hmem, hobject, hreplica⟩ := hfacts
  obtain ⟨o, ho, hfields⟩ := Option.map_eq_some_iff.1 hobject
  obtain ⟨info, hinfo, hhp⟩ := Option.map_eq_some_iff.1 hreplica
  rw [Prod.mk.injEq, Prod.mk.injEq] at hfields
  obtain ⟨hkind, hid, hserver⟩ := hfields
  exact ⟨st, roomExec_runs hst, ⟨1, 0, o, hmem, ho, hkind⟩, o, info, ⟨1, .inl hmem⟩, ho, hid ▸ hinfo, hserver, hhp⟩

end ZeldaServer
