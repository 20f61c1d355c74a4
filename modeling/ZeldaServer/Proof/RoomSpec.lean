import ZeldaServer.Proof.Counted

/-!
# The functions of the room are acts

For any sessions on which a broadcast changes nothing but the sessions (`Speaks`), each
function of the room that returns is a sequence of acts, and keeps `Core` and the use
counts. What the theorems about the room need is then proved act by act.

* `addObject_spec`, `removeObject_spec`, `enterRoom_spec`, `leaveRoom_spec`, `init_spec`: one
  lemma per function.
-/

namespace ZeldaServer

open Lib Std

variable {ν : Type}

/-- What is known between the calls, while local variables hold `pins`. -/
structure Good (W : SessionId → ν → Prop) (st : Game ν) (pins : List Ref) : Prop where
  core : Core W st.stage
  counted : Counted st.game pins

/-- A broadcast that returns changes the sessions only, as `B` says, and keeps `W`. -/
structure Speaks (send : SessionId → Packet → Game ν → Outcome (Game ν)) (W : SessionId → ν → Prop)
    (B : Scene → Msg → ν → ν → Prop) : Prop where
  broadcast : ∀ fuel packet st pins, Good W st pins →
    IfReturns (Game.broadcast send fuel packet st) fun st' =>
      st'.game = st.game ∧ B st.game.toScene packet.msg st.net st'.net
  keeps : ∀ sc msg net net', B sc msg net net' → ∀ s, W s net → W s net'

variable {send : SessionId → Packet → Game ν → Outcome (Game ν)} {W : SessionId → ν → Prop}
  {B : Scene → Msg → ν → ν → Prop} {U : SessionId → Msg → ν → ν → Prop} {fuel : ℕ} {pick : Pick}
  {st : Game ν} {pins : List Ref} {r : Ref} {o : GameObject} {id : UInt64}

/-- There is nothing in an empty room. -/
theorem good_empty {net : ν} : Good W { net := net, game := {} } [] := by
  refine ⟨⟨rfl, ?_, ?_, ?_, ?_, ?_, ?_⟩, ?_⟩
  · intro r o ho
    simp [Game.stage] at ho
  · intro r o ho
    simp [Game.stage] at ho
  · intro k r hk
    simp [Game.stage] at hk
  · intro k r hk
    simp [Game.stage] at hk
  · intro r o m t ho
    simp [Game.stage] at ho
  · intro s r hs
    simp [Game.stage] at hs
  · intro r
    simp [heldIn]

/-- A local variable begins. -/
theorem Good.retain (h : Good W st pins) : Good W (st.update (·.retain r)) (r :: pins) :=
  ⟨h.core, h.counted.retain⟩

/-- A local variable ends. -/
theorem Good.release (h : Good W st (r :: pins)) : Good W (st.update (·.release r)) pins :=
  ⟨h.core, h.counted.release⟩

theorem deref_spec {room : Room} : IfReturns (room.deref r) fun o =>
    room.objects[r]? = some o ∧ 0 < room.useCount r := by
  unfold Room.deref
  split
  · rename_i o ho
    split
    · rename_i hpos
      exact .ok ⟨ho, hpos⟩
    · exact .error trivial
  · exact .error trivial

/-- An access to an object that is known. -/
theorem deref_eq {room : Room} (ho : room.objects[r]? = some o) : IfReturns (room.deref r) (· = o) := by
  refine deref_spec.imp fun o' h => ?_
  rw [ho] at h
  exact (Option.some.inj h.1).symm

theorem make_spec {msg : Msg} : IfReturns (ServerPacketHandler.make msg) fun p => p.msg = msg :=
  ifReturns_iff.2 fun _ h => ServerPacketHandler.make_msg h

/-- A change that a broadcast follows. -/
theorem say_spec (hs : Speaks send W B) (h : Good W st pins) {msg : Msg} :
    IfReturns (ServerPacketHandler.make msg >>= fun p => Game.broadcast send fuel p st) fun st' =>
      Good W st' pins ∧ st'.game = st.game ∧ B st.game.toScene msg st.net st'.net := by
  refine make_spec.bind fun p hp => ?_
  refine (hs.broadcast fuel p st pins h).imp fun st' h' => ?_
  obtain ⟨hgame, hB⟩ := h'
  rw [hp] at hB
  refine ⟨⟨?_, by rw [hgame]; exact h.counted⟩, hgame, hB⟩
  have hcore : Core W (⟨st'.net, st.game.toScene⟩ : Stage ν) := h.core.net fun s => hs.keeps _ _ _ _ hB s
  unfold Game.stage
  rw [hgame]
  exact hcore

/-! ## AddObject and RemoveObject -/

/-- The object `r` is put into the map `which`. -/
def Scene.insertAs (sc : Scene) (which : Roster) (r : Ref) : Scene :=
  (sc.setRoster which ((sc.roster which).insert (key r) r)).modify r fun o => { o with room := true }

theorem Core.insertAs {v : Stage ν} (h : Core W v) (ho : v.game.objects[r]? = some o) {which : Roster}
    (ht : o.info.objecttype.roster = some which)
    (hp : which = .players → ∃ s, o.Plays s ∧ (v.game.gameSessions s).player = some r ∧ W s v.net) :
    Core W { v with game := v.game.insertAs which r } := by
  have hroom : Core W { v with game := v.game.modify r fun o => { o with room := true } } :=
    h.modify (fun _ _ => .of_kind rfl rfl rfl) fun _ _ _ => rfl
  cases which with
  | players =>
    obtain ⟨s, hs, hweak, hW⟩ := hp rfl
    exact hroom.insert .players (modify_self ho) rfl ht fun _ => ⟨s, ⟨hs.type, hs.kind⟩, hweak, hW⟩
  | monsters => exact hroom.insert .monsters (modify_self ho) rfl ht nofun

theorem assign_scene {room : Room} {which : Roster} : (room.assign which id r).toScene =
    room.toScene.setRoster which ((room.roster which).insert id r) := rfl

theorem modify_scene {room : Room} {f : GameObject → GameObject} :
    (room.modify r f).toScene = room.toScene.modify r f := rfl

/-- The room when `r` was put into its map. -/
def Room.insertAs (room : Room) (which : Roster) (r : Ref) : Room :=
  (room.assign which (key r) r).modify r fun o => { o with room := true }

theorem Good.insertAs (h : Good W st pins) (ho : st.game.objects[r]? = some o) {which : Roster}
    (ht : o.info.objecttype.roster = some which)
    (hp : which = .players → ∃ s, o.Plays s ∧ (st.game.gameSessions s).player = some r ∧ W s st.net) :
    Good W { st with game := st.game.insertAs which r } pins := by
  refine ⟨h.core.insertAs ho ht hp, ?_⟩
  exact (h.counted.assign fun old hold => (h.core.roster_key hold).symm).modify

theorem insertAs_self {room : Room} {which : Roster} (ho : room.objects[r]? = some o) :
    (room.insertAs which r).objects[r]? = some { o with room := true } := by
  unfold Room.insertAs
  rw [modify_scene, assign_scene]
  refine modify_self ?_
  cases which with
  | players => exact ho
  | monsters => exact ho

theorem addObject_spec (which : Roster) (hs : Speaks send W B) (h : Good W st pins)
    (ho : st.game.objects[r]? = some o) (ht : o.info.objecttype.roster = some which)
    (hp : which = .players → ∃ s, o.Plays s ∧ (st.game.gameSessions s).player = some r ∧ W s st.net) :
    IfReturns (Game.addObject send fuel r st) fun st' => Good W st' pins ∧
      st'.game.toScene = st.game.toScene.insertAs which r ∧
      B (st.game.toScene.insertAs which r) (.addObject [o.info]) st.net st'.net := by
  unfold Game.addObject Game.addObjectBy
  refine (deref_eq ho).bind fun o' ho' => ?_
  have hid : o.info.objectid = key r := h.core.id r o ho
  simp only [ho', ht, hid]
  change IfReturns ((st.game.insertAs which r).deref r >>= fun o =>
    ServerPacketHandler.make (.addObject [o.info]) >>= fun p =>
      Game.broadcast send fuel p { st with game := st.game.insertAs which r }) _
  refine (deref_eq (insertAs_self ho)).bind fun o₁ ho₁ => ?_
  simp only [ho₁]
  refine (say_spec hs (h.insertAs ho ht hp)).imp fun st' h' => ?_
  obtain ⟨hgood, hgame, hB⟩ := h'
  exact ⟨hgood, by rw [hgame]; rfl, hB⟩

/-- The end of `RemoveObject`: the object is erased, and its variable ends. -/
def Room.discard (room : Room) (which : Roster) (r : Ref) (id : UInt64) : Room :=
  ((room.erase which id).modify r fun o => { o with room := false }).release r

theorem discard_scene {room : Room} {which : Roster} : (room.discard which r id).toScene = room.toScene.drop which r id := rfl

theorem Good.discard (h : Good W st (r :: pins)) {which : Roster} (hmem : (st.game.roster which)[id]? = some r)
    (ho : st.game.objects[r]? = some o) (ht : o.info.objecttype.roster = some which) :
    Good W (st.update (·.discard which r id)) pins := by
  have hold : ∀ old, (st.game.roster which)[id]? = some old → key old = id := by
    intro old hold
    exact (h.core.roster_key hold).symm
  exact ⟨h.core.drop hmem ho ht, ((h.counted.erase hold).modify).release⟩

theorem removeObject_spec (hs : Speaks send W B) (h : Good W st pins) :
    IfReturns (Game.removeObject send fuel id st) fun st' =>
      Good W st' pins ∧ Removes B st.stage id st'.stage := by
  unfold Game.removeObject Game.removeObjectBy
  cases hf : st.game.findObject id with
  | none => exact .ok ⟨h, .missing hf⟩
  | some r =>
    obtain ⟨hid, o, which, ho, ht, hmem⟩ := h.core.found hf
    have h₁ : Good W (st.update (·.retain r)) (r :: pins) := h.retain
    dsimp only
    rw [← bind_assoc]
    refine (say_spec hs h₁).bind fun st₂ h₂ => ?_
    obtain ⟨hgood₂, hgame, hB⟩ := h₂
    have hscene : st₂.game.toScene = st.game.toScene := by rw [hgame]; rfl
    have ho₂ : st₂.game.objects[r]? = some o := by rw [hscene]; exact ho
    have hmem₂ : (st₂.game.roster which)[id]? = some r := by rw [hscene]; exact hmem
    refine (deref_eq ho₂).bind fun o₂ ho₂' => ?_
    rw [ho₂']
    simp only [ht]
    refine .ok ⟨hgood₂.discard hmem₂ ho₂ ht, ?_⟩
    have hstage : (st₂.update (·.discard which r id)).stage = ⟨st₂.net, st.game.toScene.drop which r id⟩ := by
      rw [← hscene]
      rfl
    exact hstage ▸ .found hf ho ht hB

/-! ## EnterRoom, LeaveRoom and Init -/

theorem modify_last {α : Type} (l : List α) (a : α) (f : α → α) : (l ++ [a]).modify l.length f = l ++ [f a] := by
  rw [List.modify_eq_take_cons_drop (by simp)]
  simp

/-- A player that was created for a session and put into the room. -/
theorem enter_eq {sc : Scene} {session : SessionId} (hnext : sc.idGenerator = key sc.objects.length) :
    (sc.append { sc.newPlayer session with room := false } (Function.update sc.gameSessions session
      { gameRoom := true, player := some sc.objects.length })).insertAs .players sc.objects.length =
    sc.enter session := by
  unfold Scene.insertAs Scene.append Scene.enter Scene.setRoster Scene.modify Scene.roster
  simp only [modify_last, hnext]
  rfl

/-- A monster that was created and put into the room. -/
theorem spawn_eq {sc : Scene} (hnext : sc.idGenerator = key sc.objects.length) :
    (sc.append { sc.newMonster with room := false } sc.gameSessions).insertAs .monsters sc.objects.length =
    sc.spawn := by
  unfold Scene.insertAs Scene.append Scene.spawn Scene.setRoster Scene.modify Scene.roster
  simp only [modify_last, hnext]
  rfl

/-- The game sessions after `EnterRoom`. -/
def Scene.seat (sc : Scene) (session : SessionId) : SessionId → GameSession :=
  Function.update sc.gameSessions session { gameRoom := true, player := some sc.objects.length }

theorem usher_fst {room : Room} {session : SessionId} : (Game.usher session room).1 = room.objects.length := rfl

theorem usher_scene {room : Room} {session : SessionId} : (Game.usher session room).2.toScene =
    room.toScene.append { room.toScene.newPlayer session with room := false } (room.toScene.seat session) := by
  unfold Game.usher
  rw [modify_scene]
  unfold Scene.modify Room.createPlayer Room.create
  simp only [modify_last]
  rfl

/-- A player is created for a session that had none. -/
theorem Core.seat {v : Stage ν} (h : Core W v) {session : SessionId}
    (hfresh : (v.game.gameSessions session).player = none) :
    Core W { v with game := v.game.append { v.game.newPlayer session with room := false } (v.game.seat session) } := by
  refine Core.append (o := { v.game.newPlayer session with room := false }) h rfl ?_ nofun ?_ ?_
  · unfold GameObject.Typed Scene.newPlayer
    rfl
  · intro s r hs
    unfold Scene.seat at hs
    by_cases hse : s = session
    · right
      subst hse
      rw [Function.update_self] at hs
      exact ⟨(Option.some.inj hs).symm, rfl, rfl⟩
    · left
      rw [Function.update_of_ne hse] at hs
      exact hs
  · intro s r hs
    have hse : s ≠ session := by
      intro hse
      rw [hse] at hs
      exact absurd (hfresh.symm.trans hs) nofun
    unfold Scene.seat
    rw [Function.update_of_ne hse]
    exact hs

/-- A monster is created. -/
theorem Core.hatch {v : Stage ν} (h : Core W v) :
    Core W { v with game := v.game.append { v.game.newMonster with room := false } v.game.gameSessions } := by
  refine Core.append (o := { v.game.newMonster with room := false }) h rfl ?_ ?_ ?_ ?_
  · unfold GameObject.Typed Scene.newMonster
    rfl
  · intro m hm
    cases hm
    rfl
  · intro s r hsr
    exact .inl hsr
  · intro s r hsr
    exact hsr

theorem append_last {sessions : SessionId → GameSession} {sc : Scene} :
    (sc.append o sessions).objects[sc.objects.length]? = some o := by
  simp [Scene.append]

theorem seat_self {sc : Scene} {session : SessionId} : (sc.seat session session).player = some sc.objects.length := by
  unfold Scene.seat
  rw [Function.update_self]

/-- **A session enters.** -/
theorem Core.enter {v : Stage ν} (h : Core W v) {session : SessionId}
    (hfresh : (v.game.gameSessions session).player = none) (hW : W session v.net) :
    Core W { v with game := v.game.enter session } := by
  have hplays : GameObject.Plays { v.game.newPlayer session with room := false } session := ⟨rfl, rfl⟩
  have hins := (h.seat hfresh).insertAs append_last (show _ = some Roster.players from rfl) fun _ =>
    ⟨session, hplays, seat_self, hW⟩
  rw [← enter_eq h.next]
  exact hins

/-- **A monster spawns.** -/
theorem Core.spawn {v : Stage ν} (h : Core W v) : Core W { v with game := v.game.spawn } := by
  have hins := h.hatch.insertAs append_last (show _ = some Roster.monsters from rfl) nofun
  rw [← spawn_eq h.next]
  exact hins

/-- A player was created for a session that had none. -/
theorem Good.usher (h : Good W st []) {session : SessionId}
    (hfresh : (st.game.gameSessions session).player = none) :
    Good W { st with game := (Game.usher session st.game).2 } [st.game.objects.length] := by
  refine ⟨?_, ?_⟩
  · unfold Game.stage
    rw [usher_scene]
    exact h.core.seat hfresh
  · have hcreated := h.counted.create h.core rfl (st.game.toScene.newPlayer session)
    exact hcreated.of_same rfl rfl rfl

/-- The room `room₁` when a player was created for `session`. -/
structure Ushered (W : SessionId → ν → Prop) (session : SessionId) (st : Game ν) (room₁ : Room) : Prop where
  good : Good W { st with game := room₁ } [st.game.objects.length]
  scene : room₁.toScene = st.game.toScene.append
    { st.game.toScene.newPlayer session with room := false } (st.game.toScene.seat session)
  object : room₁.objects[st.game.objects.length]? = some { st.game.toScene.newPlayer session with room := false }

theorem Good.ushered (h : Good W st []) {session : SessionId} (hfresh : (st.game.gameSessions session).player = none) :
    Ushered W session st (Game.usher session st.game).2 := by
  refine ⟨h.usher hfresh, usher_scene, ?_⟩
  rw [usher_scene]
  exact append_last

/-- The records that `EnterRoom` collects. -/
theorem snapshot_spec {room : Room} : IfReturns (Game.snapshot room) fun objects =>
    (elements room.players ++ elements room.monsters).map (fun r => (room.objects[r]?).map (·.info)) =
      objects.map some := by
  unfold Game.snapshot
  refine Post.mapM _ fun r _ => ?_
  refine deref_spec.bind fun o ho => .ok ?_
  rw [ho.1]
  rfl

/-- What the sends of `EnterRoom` to the session itself do. With `Q i`, the next `i` of
them do not end the session. -/
structure Tells (send : SessionId → Packet → Game ν → Outcome (Game ν)) (W : SessionId → ν → Prop)
    (U : SessionId → Msg → ν → ν → Prop) (Q : ℕ → ν → Prop) (session : SessionId) : Prop where
  send : ∀ i packet st pins, Good W st pins → Q (i + 1) st.net → IfReturns (send session packet st) fun st' =>
    st'.game = st.game ∧ U session packet.msg st.net st'.net ∧ (∀ s, W s st.net → W s st'.net) ∧ Q i st'.net
  present : ∀ net, Q 0 net → W session net

/-- One of these sends. -/
theorem tell_spec {Q : ℕ → ν → Prop} {session : SessionId} (ht : Tells send W U Q session)
    (h : Good W st pins) {i : ℕ} (hQ : Q (i + 1) st.net) {msg : Msg} :
    IfReturns (ServerPacketHandler.make msg >>= fun p => send session p st) fun st' =>
      Good W st' pins ∧ st'.game = st.game ∧ U session msg st.net st'.net ∧ Q i st'.net := by
  refine make_spec.bind fun p hp => ?_
  refine (ht.send i p st pins h hQ).imp fun st' h' => ?_
  obtain ⟨hgame, hU, hW, hQ'⟩ := h'
  rw [hp] at hU
  refine ⟨⟨?_, by rw [hgame]; exact h.counted⟩, hgame, hU, hQ'⟩
  have hcore : Core W (⟨st'.net, st.game.toScene⟩ : Stage ν) := h.core.net hW
  unfold Game.stage
  rw [hgame]
  exact hcore

/-- A new object is not yet among the records. -/
theorem Core.records_append {v : Stage ν} (h : Core W v) {sessions : SessionId → GameSession} :
    (elements v.game.players ++ elements v.game.monsters).map
      (fun r => ((v.game.append o sessions).objects[r]?).map (·.info)) =
    (elements v.game.players ++ elements v.game.monsters).map (fun r => (v.game.objects[r]?).map (·.info)) := by
  refine List.map_congr_left fun r hr => ?_
  have hlt : r < v.game.objects.length := by
    rw [List.mem_append, mem_elements, mem_elements] at hr
    rcases hr with ⟨k, hk⟩ | ⟨k, hk⟩
    · obtain ⟨-, o, s, ho, -⟩ := h.players k r hk
      exact (List.getElem?_eq_some_iff.1 ho).1
    · obtain ⟨-, o, ho, -⟩ := h.monsters k r hk
      exact (List.getElem?_eq_some_iff.1 ho).1
  exact congrArg _ (List.getElem?_append_left hlt)

theorem enterRoom_spec (hs : Speaks send W B) {Q : ℕ → ν → Prop} {session : SessionId}
    (ht : Tells send W U Q session) (h : Good W st []) (hQ : Q 2 st.net)
    (hfresh : (st.game.gameSessions session).player = none) :
    IfReturns (Game.enterRoom send fuel session st) fun st' =>
      Good W st' [] ∧ Act B U st.stage (.enter session) st'.stage := by
  have hushered := h.ushered hfresh
  unfold Game.enterRoom Game.enterRoomBy
  simp only [usher_fst]
  generalize (Game.usher session st.game).2 = room₁ at hushered
  obtain ⟨hnew, hscene, ho⟩ := hushered
  refine (deref_eq ho).bind fun o ho' => ?_
  rw [ho', ← bind_assoc]
  -- S_MyPlayer
  refine (tell_spec ht hnew hQ).bind fun st₂ h₂ => ?_
  obtain ⟨hgood₂, hgame₂, hU₂, hQ₂⟩ := h₂
  -- the snapshot is taken of the room as it was
  refine snapshot_spec.bind fun objects hobjects => ?_
  have hsnap : (elements st.game.players ++ elements st.game.monsters).map
      (fun r => (st.game.objects[r]?).map (·.info)) = objects.map some := by
    rw [hgame₂, hscene] at hobjects
    rw [← hobjects]
    exact h.core.records_append.symm
  rw [← bind_assoc]
  -- S_AddObject
  refine (tell_spec ht hgood₂ hQ₂).bind fun st₃ h₃ => ?_
  obtain ⟨hgood₃, hgame₃, hU₃, hQ₃⟩ := h₃
  -- AddObject
  have hscene₃ : st₃.game.toScene = st.game.toScene.append { st.game.toScene.newPlayer session with room := false }
      (st.game.toScene.seat session) := by rw [hgame₃, hgame₂, hscene]
  have ho₃ : st₃.game.objects[st.game.objects.length]? =
      some { st.game.toScene.newPlayer session with room := false } := by rw [hgame₃, hgame₂, ho]
  have hplayer : (st₃.game.gameSessions session).player = some st.game.objects.length := by
    rw [hscene₃]
    exact seat_self
  have hplays : GameObject.Plays { st.game.toScene.newPlayer session with room := false } session := ⟨rfl, rfl⟩
  refine (addObject_spec .players hs hgood₃ ho₃ rfl fun _ =>
    ⟨session, hplays, hplayer, ht.present _ hQ₃⟩).bind fun st₄ h₄ => ?_
  obtain ⟨hgood₄, hgame₄, hB₄⟩ := h₄
  have henter : st₃.game.toScene.insertAs .players st.game.objects.length = st.game.toScene.enter session := by
    rw [hscene₃]
    exact enter_eq h.core.next
  rw [henter] at hgame₄ hB₄
  have hstage : (st₄.update (·.release st.game.objects.length)).stage = ⟨st₄.net, st.game.toScene.enter session⟩ := by
    rw [← hgame₄]
    rfl
  refine .ok ⟨hgood₄.release, ?_⟩
  rw [hstage]
  exact .enter hfresh hU₂ hsnap hU₃ hB₄

theorem leaveRoom_spec (hs : Speaks send W B) (h : Good W st pins) {session : SessionId} :
    IfReturns (Game.leaveRoom send fuel session st) fun st' =>
      Good W st' pins ∧ (st' = st ∨ ∃ id, Removes B st.stage id st'.stage) := by
  unfold Game.leaveRoom Game.leaveRoomBy
  cases st.game.lock (st.game.gameSessions session).player with
  | none => exact .ok ⟨h, .inl rfl⟩
  | some player =>
    refine deref_spec.bind fun o ho => ?_
    refine (removeObject_spec hs h).imp fun st' h' => ?_
    exact ⟨h'.1, .inr ⟨_, h'.2⟩⟩

/-- The room when the monster of `Init` was created. -/
def Room.hatch (room : Room) : Room :=
  room.createMonster.2.modifyInfo room.objects.length fun info => { info with posx := 8, posy := 8 }

theorem hatch_scene {room : Room} : room.hatch.toScene =
    room.toScene.append { room.toScene.newMonster with room := false } room.gameSessions := by
  unfold Room.hatch Room.modifyInfo
  rw [modify_scene]
  unfold Scene.modify Room.createMonster Room.create
  simp only [modify_last]
  rfl

theorem hatch_last {room : Room} :
    room.hatch.objects[room.objects.length]? = some { room.toScene.newMonster with room := false } := by
  rw [hatch_scene]
  exact append_last

theorem Good.hatch (h : Good W st []) : Good W { st with game := st.game.hatch } [st.game.objects.length] := by
  refine ⟨?_, (h.counted.create h.core rfl st.game.toScene.newMonster).of_same rfl rfl rfl⟩
  unfold Game.stage
  rw [hatch_scene]
  exact h.core.hatch

theorem init_eq {tilemap : TileMap} : Game.init send fuel tilemap st =
    (Game.addObject send fuel st.game.objects.length { st with game := st.game.hatch } >>= fun st' =>
      .ok (st'.update fun room => { room with tilemap := tilemap }.release st.game.objects.length)) := rfl

theorem init_spec (hs : Speaks send W B) (h : Good W st []) (tilemap : TileMap) :
    IfReturns (Game.init send fuel tilemap st) fun st' =>
      Good W st' [] ∧ Act B U st.stage .spawn st'.stage := by
  rw [init_eq]
  refine (addObject_spec .monsters hs h.hatch hatch_last rfl nofun).bind fun st₂ h₂ => ?_
  obtain ⟨hgood₂, hgame₂, hB₂⟩ := h₂
  have hspawn : st.game.hatch.toScene.insertAs .monsters st.game.objects.length = st.game.toScene.spawn := by
    rw [hatch_scene]
    exact spawn_eq h.core.next
  rw [hspawn] at hgame₂ hB₂
  have hstage : (st₂.update fun room => { room with tilemap := tilemap }.release st.game.objects.length).stage =
      ⟨st₂.net, st.game.toScene.spawn⟩ := by
    rw [← hgame₂]
    rfl
  refine .ok ⟨⟨?_, ?_⟩, ?_⟩
  · rw [hstage, ← hgame₂]
    exact hgood₂.core
  · exact (hgood₂.counted.of_same rfl rfl rfl).release
  · rw [hstage]
    exact .spawn hB₂

end ZeldaServer
