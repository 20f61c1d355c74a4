import ZeldaServer.Proof.Front
import ZeldaServer.Spec.GameServer
import ZeldaServer.Spec.Parse

/-!
# A packet that is malformed

`ServerPacketHandler::Handle_C_Move` does not look at what `ParseFromArray` returns: the
fields that were decoded before the error are used.

* `handleCMove_idle_iff`: when a `C_Move` has no effect.
* `malformed_ignored_iff`: when a malformed one has none.
-/

namespace ZeldaServer

open Lib Std

variable {st : Game Outboxes} {pins : List Ref} {r : Ref} {o : GameObject} {ops : List RoomOp} {session : SessionId}
  {buffer : List UInt8} {pkt : CMove}

/-- `buffer` is the frame of a `C_Move`. -/
structure CMoveFrame (buffer : List UInt8) : Prop where
  header : sizeofPacketHeader ≤ buffer.length
  size : (PacketHeader.read buffer).size.toNat = buffer.length
  id : (PacketHeader.read buffer).id = C_Move

/-- `HandlePacket` of `buffer` leaves the room as it is, and sends nothing. -/
def Ignores (session : SessionId) (buffer : List UInt8) (st : Game Outboxes) : Prop :=
  ∃ fuel, ServerPacketHandler.handlePacket (fun data => (CMove.parseFromArray data).2) post fuel session buffer st = .ok st

/-- Nobody is in the room to be told, and the packet says what is so already. -/
structure Idle (pkt : CMove) (st : Game Outboxes) : Prop where
  empty : elements st.game.players = []
  made : ∃ packet, ServerPacketHandler.makeSMove pkt.info = .ok packet
  same : ∀ r o, st.game.findObject pkt.info.objectid = some r → st.game.objects[r]? = some o → o.info.follow pkt.info = o.info

/-- A player in the room has a session that hears every broadcast. -/
theorem Good.audience (h : Good Anyone st pins) (hr : r ∈ elements st.game.players) : ∃ s, st.game.Audience s := by
  have hplayer := h.core.elements_players hr
  obtain ⟨-, o, session, -, -, -, hsession, -⟩ := h.core.players _ r hplayer
  exact ⟨session, r, hsession, hplayer⟩

/-- Whoever is told something has been sent something. -/
theorem told_heard {sc : Scene} {msg : Msg} {net : Outboxes} {s : SessionId} (hs : sc.Audience s) : ¬ Told sc msg net net := by
  intro htold
  have hsent := (htold s).1 hs
  exact absurd hsent (by simp)

/-- A packet that names an object has an effect if a player is in the room. -/
theorem Reported.heard {st₁ : Game Outboxes} (h : Reported Anyone Told Whisper st pkt r o st₁) {s : SessionId}
    (hs : st.game.Audience s) : Game.stage st ≠ Game.stage st₁ := by
  intro heq
  have hnet : st₁.net = st.net := congrArg (·.net) heq.symm
  have htold : Told (st.game.moved r pkt) (.move pkt.info) st.net st₁.net := h.told
  rw [hnet] at htold
  exact told_heard hs htold

theorem retain_release {room : Room} : (room.retain r).release r = room := by
  unfold Room.retain Room.release
  simp

/-- In a room without players it is a monster that is found. -/
theorem Good.found_monster (h : Good Anyone st pins) (hempty : elements st.game.players = []) {id : UInt64}
    (hf : st.game.findObject id = some r) (ho : st.game.objects[r]? = some o) : ∃ fields, o.kind = .monster fields := by
  have htype : o.info.objecttype = .monster := by
    rcases h.core.found_inside hf with hp | hm
    · have hmem : r ∈ elements st.game.players := mem_elements.2 ⟨_, hp⟩
      rw [hempty] at hmem
      cases hmem
    · obtain ⟨-, q, hq, htype, -⟩ := h.core.monsters _ r hm
      obtain rfl : o = q := Option.some.inj (ho.symm.trans hq)
      exact htype
  have htyped := h.core.typed r o ho
  unfold GameObject.Typed at htyped
  cases hkind : o.kind with
  | monster fields => exact ⟨fields, rfl⟩
  | player session =>
    rw [hkind] at htyped
    rw [htyped] at htype
    cases htype

/-- A packet that is idle returns, and changes nothing. -/
theorem Idle.handleCMove (h : Idle pkt st) (hgood : Good Anyone st []) : Game.handleCMove post 1 pkt st = .ok st := by
  unfold Game.handleCMove Game.handleCMoveBy
  cases hf : st.game.findObject pkt.info.objectid with
  | none => rfl
  | some r =>
    obtain ⟨hempty, ⟨packet, hmade⟩, hsame⟩ := h
    obtain ⟨-, o, -, ho, -⟩ := hgood.core.found hf
    have hretained : Good Anyone (Game.update st (·.retain r)) [r] := hgood.retain
    -- what is set is there already
    have hset : (Game.update st (·.retain r)).update (·.modifyInfo r (·.follow pkt.info)) = Game.update st (·.retain r) := by
      have hscene : st.game.toScene.modifyInfo r (·.follow pkt.info) = st.game.toScene :=
        modify_id ho (congrArg (fun info => { o with info := info }) (hsame r o hf ho))
      show (⟨st.net, { st.game.retain r with toScene := st.game.toScene.modifyInfo r (·.follow pkt.info) }⟩ : Game Outboxes) = _
      rw [hscene]
      rfl
    -- there is nobody to tell
    have hlist : (Game.update st (·.retain r)).game.players.toList.length < 1 := by
      have hlen := congrArg List.length hempty
      unfold elements at hlen
      rw [List.length_map] at hlen
      exact Nat.lt_one_iff.2 hlen
    have hnobody : ∀ s, ¬ st.game.Audience s := by
      rintro s ⟨x, -, hx⟩
      have hmem := mem_elements.2 ⟨_, hx⟩
      rw [hempty] at hmem
      cases hmem
    obtain ⟨st₂, hst₂, hgame₂, htold⟩ := returns_iff.1 (broadcast_post hretained packet hlist)
    obtain rfl : st₂ = Game.update st (·.retain r) := by
      have hnet : st₂.net = st.net := funext fun s => (htold s).2 (hnobody s)
      cases st₂
      cases hgame₂
      cases hnet
      rfl
    -- a monster does not attack
    obtain ⟨fields, hkind⟩ := hgood.found_monster hempty hf ho
    have hderef : (Game.update st (·.retain r)).game.deref r = .ok o := hretained.deref ho (.inr List.mem_cons_self)
    have hback : (Game.update st (·.retain r)).update (·.release r) = st := by
      show (⟨st.net, (st.game.retain r).release r⟩ : Game Outboxes) = st
      rw [retain_release]
    dsimp only
    change (ServerPacketHandler.makeSMove pkt.info >>= fun packet =>
      Game.broadcast post 1 packet ((Game.update st (·.retain r)).update (·.modifyInfo r (·.follow pkt.info))) >>= _) = _
    rw [hmade, ok_bind, hset, hst₂, ok_bind, hderef, ok_bind, hkind]
    dsimp only
    split
    · rw [ok_bind, hback]
    · rw [ok_bind, hback]

/-- **When a `C_Move` has no effect.** -/
theorem handleCMove_idle_iff (h : Good Anyone st []) : (∃ fuel, Game.handleCMove post fuel pkt st = .ok st) ↔
    st.game.findObject pkt.info.objectid = none ∨ Idle pkt st := by
  constructor
  · rintro ⟨fuel, hrun⟩
    obtain ⟨-, ⟨hnone, -⟩ | ⟨r, o, st₁, hreported, hrest⟩⟩ :=
      (handleCMove_lunges (U := Whisper) speaks_post h pkt).result hrun
    · exact .inl hnone
    refine .inr ?_
    have hempty : elements st.game.players = [] := by
      rw [List.eq_nil_iff_forall_not_mem]
      intro x hx
      obtain ⟨s, hs⟩ := h.audience hx
      rcases hrest with ⟨heq, -⟩ | ⟨-, -, ret, -, hlunges⟩
      · exact hreported.heard hs heq
      rcases hlunges with ⟨heq, -⟩ | ⟨target, t, a, -, -, -, ha, hact⟩
      · exact hreported.heard hs heq
      -- the blow is heard
      have ho₁ : st₁.game.objects[r]? = some (o.moved pkt) := by
        rw [hreported.scene]
        exact modify_self hreported.object
      obtain ⟨hquiet, haudience⟩ := hreported.noBlow
      exact ((hact.lands ha ho₁).before hquiet haudience).heard hs .refl
    obtain ⟨fields, hkind⟩ := h.found_monster hempty hreported.found hreported.object
    have hscene : st.game.toScene = st.game.moved r pkt := by
      rcases hrest with ⟨heq, -⟩ | ⟨-, ⟨session, hplayer⟩, -⟩
      · exact (congrArg (·.game) heq).trans hreported.scene
      · rw [hkind] at hplayer
        cases hplayer
    refine ⟨hempty, ?_, fun r' o' hf' ho' => ?_⟩
    · unfold Game.handleCMove Game.handleCMoveBy at hrun
      rw [hreported.found] at hrun
      obtain ⟨packet, hmade, -⟩ := bind_eq_ok.1 hrun
      exact ⟨packet, hmade⟩
    · obtain rfl : r = r' := Option.some.inj (hreported.found.symm.trans hf')
      have hmoved : (st.game.moved r pkt).objects[r]? = some (o'.moved pkt) := modify_self ho'
      rw [← hscene, ho'] at hmoved
      exact (congrArg (·.info) (Option.some.inj hmoved)).symm
  · rintro (hnone | hidle)
    · refine ⟨0, ?_⟩
      unfold Game.handleCMove Game.handleCMoveBy
      rw [hnone]
    · exact ⟨1, hidle.handleCMove h⟩

/-- When the frame of a `C_Move` has no effect. -/
theorem ignores_iff (h : Good Anyone st []) (hframe : CMoveFrame buffer)
    (hpkt : (CMove.parseFromArray (ServerPacketHandler.payload buffer)).2 = pkt) :
    Ignores session buffer st ↔
      (st.game.gameSessions session).gameRoom = false ∨ st.game.findObject pkt.info.objectid = none ∨ Idle pkt st := by
  have hhandles : ∀ fuel, ServerPacketHandler.handlePacket (fun data => (CMove.parseFromArray data).2) post fuel session buffer st =
      if (st.game.gameSessions session).gameRoom then Game.handleCMove post fuel pkt st else .ok st := by
    intro fuel
    unfold ServerPacketHandler.handlePacket ServerPacketHandler.handleCMove
    rw [if_neg (Nat.not_lt.2 hframe.header), if_pos hframe.id]
    dsimp only
    rw [hpkt]
  unfold Ignores
  simp only [hhandles]
  cases (st.game.gameSessions session).gameRoom with
  | false => simp
  | true => simpa using handleCMove_idle_iff h

/-- **A malformed `C_Move` is ignored** exactly when its session is in no room, or the id
decoded before the error names nothing, or what was decoded is idle. -/
theorem malformed_ignored_iff (h : Runs RoomStep roomStart ops st) (hframe : CMoveFrame buffer)
    (hparse : CMove.parseFromArray (ServerPacketHandler.payload buffer) = (false, pkt)) :
    Ignores session buffer st ↔
      (st.game.gameSessions session).gameRoom = false ∨ st.game.findObject pkt.info.objectid = none ∨ Idle pkt st :=
  ignores_iff (run_good h).1 hframe (congrArg Prod.snd hparse)

/-! ## Two packets that are cut off -/

/-- A frame that was cut off: its `info` goes on for two bytes. -/
def cutOff (id : UInt8) : List UInt8 := [10, 0, 10, 0, 10, 6, 8, id, 80, 1]

/-- What the session `0` does with `cutOff id`: its room, the object of the id, the players, the cell of the player `1` before and after,
and whether an `S_Move` is sent. -/
structure Slip where
  gameRoom : Bool
  found : Option Ref
  players : List Ref
  cell : Option VectorInt
  cell' : Option VectorInt
  told : Bool
  deriving DecidableEq, Repr

def slipExec (ops : List RoomOp) (id : UInt8) : Option Slip := do
  let st ← ops.foldlM roomExec roomStart
  let st' ← (ServerPacketHandler.handlePacket (fun data => (CMove.parseFromArray data).2) post 20 0 (cutOff id) st).toOption
  some ⟨(st.game.gameSessions 0).gameRoom, st.game.findObject id.toUInt64, elements st.game.players, st.game.cell 1, st'.game.cell 1,
    decide (st'.net 0 = st.net 0 ++ [.move (placed id.toUInt64 1 0).info])⟩

theorem slipExec_runs {id : UInt8} {slip : Slip} (h : slipExec ops id = some slip) : ∃ st st', Runs RoomStep roomStart ops st ∧
    ServerPacketHandler.handlePacket (fun data => (CMove.parseFromArray data).2) post 20 0 (cutOff id) st = .ok st' ∧
    slip = ⟨(st.game.gameSessions 0).gameRoom, st.game.findObject id.toUInt64, elements st.game.players, st.game.cell 1, st'.game.cell 1,
      decide (st'.net 0 = st.net 0 ++ [.move (placed id.toUInt64 1 0).info])⟩ := by
  obtain ⟨st, hst, h⟩ := Option.bind_eq_some_iff.1 h
  obtain ⟨st', hst', h⟩ := Option.bind_eq_some_iff.1 h
  exact ⟨st, st', roomExec_runs hst, toOption_eq_some.1 hst', (Option.some.inj h).symm⟩

/-- The packet names nothing in the room. -/
theorem malformed_ignored_example : ∃ st, Runs RoomStep roomStart [.init {}, .enterRoom 0] st ∧
    (st.game.gameSessions 0).gameRoom = true ∧ CMoveFrame (cutOff 9) ∧
    CMove.parseFromArray (ServerPacketHandler.payload (cutOff 9)) = (false, placed 9 1 0) ∧ Ignores 0 (cutOff 9) st := by
  have hrun : slipExec [.init {}, .enterRoom 0] 9 = some ⟨true, none, [1], some ⟨5, 5⟩, some ⟨5, 5⟩, false⟩ := by decide +kernel
  obtain ⟨st, st', hst, -, hslip⟩ := slipExec_runs hrun
  obtain ⟨hroom, hfound, -⟩ := Slip.mk.inj hslip
  have hframe : CMoveFrame (cutOff 9) := ⟨by decide, by decide, by decide⟩
  have hparse : CMove.parseFromArray (ServerPacketHandler.payload (cutOff 9)) = (false, placed 9 1 0) := by decide +kernel
  exact ⟨st, hst, hroom.symm, hframe, hparse, (malformed_ignored_iff hst hframe hparse).2 (.inr (.inl hfound.symm))⟩

/-- The packet moves the player that it names, and everyone is told. -/
theorem malformed_moves : ∃ st st', Runs RoomStep roomStart [.init {}, .enterRoom 0] st ∧ CMoveFrame (cutOff 2) ∧
    CMove.parseFromArray (ServerPacketHandler.payload (cutOff 2)) = (false, placed 2 1 0) ∧
    ServerPacketHandler.handlePacket (fun data => (CMove.parseFromArray data).2) post 20 0 (cutOff 2) st = .ok st' ∧
    st.game.cell 1 = some ⟨5, 5⟩ ∧ st'.game.cell 1 = some ⟨1, 0⟩ ∧ st'.net 0 = st.net 0 ++ [.move (placed 2 1 0).info] ∧
    ¬ Ignores 0 (cutOff 2) st := by
  have hrun : slipExec [.init {}, .enterRoom 0] 2 =
      some ⟨true, some 1, [1], some ⟨5, 5⟩, some ⟨1, 0⟩, true⟩ := by decide +kernel
  obtain ⟨st, st', hst, hst', hslip⟩ := slipExec_runs hrun
  obtain ⟨hroom, hfound, hplayers, hcell, hcell', htold⟩ := Slip.mk.inj hslip
  have hframe : CMoveFrame (cutOff 2) := ⟨by decide, by decide, by decide⟩
  have hparse : CMove.parseFromArray (ServerPacketHandler.payload (cutOff 2)) = (false, placed 2 1 0) := by decide +kernel
  refine ⟨st, st', hst, hframe, hparse, hst', hcell.symm, hcell'.symm, of_decide_eq_true htold.symm, ?_⟩
  rw [ignores_iff (run_good hst).1 hframe (congrArg Prod.snd hparse), ← hroom]
  rintro (habsent | hnone | hidle)
  · cases habsent
  · exact absurd (hfound.trans hnone) (by simp)
  · exact absurd (hplayers.trans hidle.empty) (by simp)

end ZeldaServer
