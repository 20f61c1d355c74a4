import ZeldaServer.Proof.Delivery

/-!
# Operations that return

With sends that do not fail, `EnterRoom`, `LeaveRoom` and `Init` return when the loops
have the fuel for the players of the room, and the records that `EnterRoom` collects
fit into one packet.

* `make_returns`: what `MakeSendBuffer` accepts.
* `enterRoom_returns`, `leaveRoom_returns`, `init_returns`
-/

namespace ZeldaServer

open Lib Std

variable {fuel : ℕ} {st : Game Outboxes} {pins : List Ref} {r : Ref} {o : GameObject} {id : UInt64}
  {session : SessionId} {info : ObjectInfo}

/-! ## The sizes of messages -/

theorem varint_length {n : UInt64} : (varint n).length ≤ 10 := by
  have hloop : ∀ fuel n, (varintLoop fuel n).length ≤ fuel := by
    intro fuel
    induction fuel with
    | zero => exact fun _ => Nat.le_refl _
    | succ fuel ih =>
      intro n
      unfold varintLoop
      split
      · exact Nat.succ_le_succ (Nat.zero_le _)
      · exact Nat.succ_le_succ (ih _)
  exact hloop 10 n.toNat

theorem uint64Field_length {k : ℕ} {n : UInt64} : (uint64Field k n).length ≤ 20 := by
  unfold uint64Field
  split
  · exact Nat.zero_le _
  · rw [List.length_append]
    exact Nat.add_le_add varint_length varint_length

theorem int32Field_length {k : ℕ} {n : Int32} : (int32Field k n).length ≤ 20 := uint64Field_length

theorem bytesField_length (k : ℕ) (bytes : List UInt8) : (bytesField k bytes).length ≤ 20 + bytes.length := by
  unfold bytesField
  rw [List.length_append, List.length_append]
  exact Nat.add_le_add_right (Nat.add_le_add varint_length varint_length) _

/-- How long the fields without a fixed size make a record. -/
def ObjectInfo.tail (info : ObjectInfo) : ℕ := info.name.length + info.unknownFields.length

theorem serialize_length (info : ObjectInfo) : info.serialize.length ≤ 220 + info.tail := by
  have hname : (if info.name = [] then [] else bytesField 5 info.name).length ≤ 20 + info.name.length := by
    split
    · exact Nat.zero_le _
    · exact bytesField_length _ _
  have h1 := uint64Field_length (k := 1) (n := info.objectid)
  have h2 := int32Field_length (k := 2) (n := info.objecttype.value)
  have h3 := int32Field_length (k := 3) (n := info.state.value)
  have h4 := int32Field_length (k := 4) (n := info.dir.value)
  have h6 := int32Field_length (k := 6) (n := info.hp)
  have h7 := int32Field_length (k := 7) (n := info.maxhp)
  have h8 := int32Field_length (k := 8) (n := info.attack)
  have h9 := int32Field_length (k := 9) (n := info.defence)
  have h10 := int32Field_length (k := 10) (n := info.posx)
  have h11 := int32Field_length (k := 11) (n := info.posy)
  unfold ObjectInfo.serialize ObjectInfo.tail
  simp only [List.length_append]
  omega

/-- Records that are not too long fit into one message. -/
theorem addObject_length (objects : List ObjectInfo) {n : ℕ} (h : ∀ info ∈ objects, info.tail ≤ n) :
    (Msg.addObject objects).serialize.length ≤ objects.length * (240 + n) := by
  change (objects.flatMap fun info => bytesField 1 info.serialize).length ≤ _
  induction objects with
  | nil => exact Nat.zero_le _
  | cons info objects ih =>
    have hrest := ih fun info' hmem => h info' (List.mem_cons_of_mem _ hmem)
    have hfirst := h info List.mem_cons_self
    have hfield := bytesField_length 1 info.serialize
    have hinfo := serialize_length info
    rw [List.flatMap_cons, List.length_append, List.length_cons, Nat.add_mul, Nat.one_mul]
    omega

/-- **`MakeSendBuffer`** returns for what fits behind a header. -/
theorem make_returns {msg : Msg} (h : msg.serialize.length < 65532) :
    Returns (ServerPacketHandler.make msg) fun p => p.msg = msg := by
  have hsize : (UInt16.ofNat msg.serialize.length + UInt16.ofNat sizeofPacketHeader).toNat =
      msg.serialize.length + 4 := by
    rw [UInt16.toNat_add, UInt16.toNat_ofNat', UInt16.toNat_ofNat']
    unfold sizeofPacketHeader
    omega
  have hdata : (UInt16.ofNat msg.serialize.length).toNat = msg.serialize.length := by
    rw [UInt16.toNat_ofNat']
    omega
  unfold ServerPacketHandler.make makeSendBuffer
  dsimp only
  rw [if_neg (by rw [hsize]; unfold sizeofPacketHeader; omega), hdata]
  unfold serializeToArray
  rw [if_neg (Nat.lt_irrefl _)]
  exact .ok rfl

theorem make_ok (msg : Msg) (h : msg.serialize.length < 65532) :
    ∃ p, ServerPacketHandler.make msg = .ok p ∧ p.msg = msg := returns_iff.1 (make_returns h)

/-- A message about one object. -/
theorem field_length {k : ℕ} (h : info.tail ≤ 64) : (bytesField k info.serialize).length ≤ 304 := by
  have hfield := bytesField_length k info.serialize
  have hinfo := serialize_length info
  omega

theorem removeObject_length (id : UInt64) : (Msg.removeObject [id]).serialize.length < 65532 := by
  have hfield := bytesField_length 1 ([id].flatMap varint)
  have hid := varint_length (n := id)
  have hvarint : ([id].flatMap varint).length = (varint id).length := by simp
  change (if [id] = [] then [] else bytesField 1 ([id].flatMap varint)).length < _
  rw [if_neg (List.cons_ne_nil _ _)]
  omega

/-! ## AddObject and RemoveObject -/

/-- A packet that can be made is broadcast. -/
theorem made_returns (h : Good Anyone st pins) (hfuel : st.game.players.toList.length < fuel) {msg : Msg}
    (hmake : ∃ p, ServerPacketHandler.make msg = .ok p) :
    ∃ st', (ServerPacketHandler.make msg >>= fun p => Game.broadcast post fuel p st) = .ok st' ∧
      st'.game = st.game := by
  obtain ⟨p, hp⟩ := hmake
  obtain ⟨st', hst', hgame, -⟩ := returns_iff.1 (broadcast_post h p hfuel)
  exact ⟨st', by rw [hp, ok_bind, hst'], hgame⟩

/-- A change that a broadcast follows. -/
theorem say_returns (h : Good Anyone st pins) (hfuel : st.game.players.toList.length < fuel) {msg : Msg}
    (hsize : msg.serialize.length < 65532) :
    ∃ st', (ServerPacketHandler.make msg >>= fun p => Game.broadcast post fuel p st) = .ok st' ∧
      st'.game = st.game := by
  obtain ⟨p, hp, -⟩ := make_ok msg hsize
  exact made_returns h hfuel ⟨p, hp⟩

theorem removeObject_returns (id : UInt64) (h : Good Anyone st pins) (hfuel : st.game.players.toList.length < fuel) :
    ∃ st', Game.removeObject post fuel id st = .ok st' := by
  unfold Game.removeObject Game.removeObjectBy
  cases hf : st.game.findObject id with
  | none => exact ⟨st, rfl⟩
  | some r =>
    obtain ⟨hid, o, which, ho, ht, hmem⟩ := h.core.found hf
    have h₁ : Good Anyone (st.update (·.retain r)) (r :: pins) := h.retain
    obtain ⟨st₂, hst₂, hgame⟩ := say_returns h₁ hfuel (removeObject_length id)
    have hderef : st₂.game.deref r = .ok o := by
      rw [hgame]
      exact h₁.deref ho (.inr List.mem_cons_self)
    dsimp only
    unfold ServerPacketHandler.makeSRemoveObject
    rw [← bind_assoc, hst₂, ok_bind, hderef, ok_bind]
    simp only [ht]
    exact ⟨_, rfl⟩

/-- The new object is held by the variable of the caller. -/
theorem addObject_returns (which : Roster) (h : Good Anyone st pins) (hr : r ∈ pins)
    (ho : st.game.objects[r]? = some o) (ht : o.info.objecttype.roster = some which)
    (hp : which = .players → ∃ s, o.Plays s ∧ (st.game.gameSessions s).player = some r)
    (htail : o.info.tail ≤ 64) (hfuel : st.game.players.toList.length + 1 < fuel) :
    ∃ st', Game.addObject post fuel r st = .ok st' := by
  unfold Game.addObject Game.addObjectBy
  rw [h.deref ho (.inr hr), ok_bind]
  have hid : o.info.objectid = key r := h.core.id r o ho
  simp only [ht, hid]
  have h₁ : Good Anyone { st with game := st.game.insertAs which r } pins := by
    refine h.insertAs ho ht fun hw => ?_
    obtain ⟨s, hs, hweak⟩ := hp hw
    exact ⟨s, hs, hweak, trivial⟩
  have hlen : (st.game.insertAs which r).players.toList.length < fuel := by
    cases which with
    | players =>
      have hins : (st.game.insertAs .players r).players = st.game.players.insert (key r) r := rfl
      have hsize : (st.game.players.insert (key r) r).size ≤ st.game.players.size + 1 := TreeMap.size_insert_le
      rw [hins, TreeMap.length_toList]
      rw [TreeMap.length_toList] at hfuel
      omega
    | monsters =>
      have hins : (st.game.insertAs .monsters r).players = st.game.players := rfl
      rw [hins]
      omega
  have hsize : (Msg.addObject [{ o with room := true }.info]).serialize.length < 65532 := by
    have hone := addObject_length [o.info] (n := 64) fun info hmem => by
      rw [List.mem_singleton.1 hmem]
      exact htail
    have hlen : [o.info].length = 1 := rfl
    rw [hlen] at hone
    exact Nat.lt_of_le_of_lt hone (by decide)
  obtain ⟨st', hst', -⟩ := say_returns h₁ hlen hsize
  refine ⟨st', ?_⟩
  have hderef : (st.game.insertAs which r).deref r = .ok { o with room := true } :=
    h₁.deref (insertAs_self ho) (.inr hr)
  change ((st.game.insertAs which r).deref r >>= fun o =>
    ServerPacketHandler.make (.addObject [o.info]) >>= fun p =>
      Game.broadcast post fuel p { st with game := st.game.insertAs which r }) = _
  rw [hderef, ok_bind, hst']

/-! ## EnterRoom, LeaveRoom and Init -/

/-- The objects in the maps are alive. -/
theorem snapshot_returns (h : Good Anyone st pins) : Returns (Game.snapshot st.game) st.game.Snapshot := by
  unfold Game.snapshot Scene.Snapshot
  refine Post.mapM _ fun r hr => ?_
  have hin : st.game.Inside r := h.core.elements_inside.1 hr
  obtain ⟨o, ho, -⟩ := h.core.inside_room hin
  rw [h.deref ho (.inl hin), ok_bind]
  refine .ok ?_
  rw [show st.game.objects[r]? = some o from ho]
  rfl

/-- **`EnterRoom` returns** if the records of the room fit into one packet. -/
theorem enterRoom_returns (h : Good Anyone st []) (hfresh : (st.game.gameSessions session).player = none)
    (hsize : ∀ objects, st.game.Snapshot objects → (Msg.addObject objects).serialize.length < 65532)
    (hfuel : st.game.players.toList.length + 1 < fuel) : ∃ st', Game.enterRoom post fuel session st = .ok st' := by
  have hushered := h.ushered hfresh
  unfold Game.enterRoom Game.enterRoomBy
  simp only [usher_fst]
  generalize (Game.usher session st.game).2 = room₁ at hushered
  obtain ⟨hnew, hscene, ho⟩ := hushered
  have hgood : ∀ net, Good Anyone ⟨net, room₁⟩ [st.game.objects.length] := fun _ => ⟨hnew.core.anyone, hnew.counted⟩
  have htail : (st.game.toScene.newPlayer session).info.tail = 0 := rfl
  obtain ⟨p, hp, -⟩ := make_ok (.myPlayer (st.game.toScene.newPlayer session).info)
    (Nat.lt_of_le_of_lt (field_length (k := 1) (Nat.le_of_eq htail |>.trans (Nat.zero_le _))) (by decide))
  obtain ⟨objects, hobjects, hsnap⟩ := returns_iff.1 (snapshot_returns (hgood st.net))
  have hsnap' : st.game.Snapshot objects := by
    unfold Scene.Snapshot at hsnap ⊢
    rw [← hsnap]
    dsimp only
    rw [hscene]
    exact h.core.records_append.symm
  obtain ⟨q, hq, -⟩ := make_ok _ (hsize objects hsnap')
  have hplayer : (room₁.gameSessions session).player = some st.game.objects.length := by
    rw [hscene]
    exact seat_self
  have hplayers : room₁.players = st.game.players := by
    rw [hscene]
    rfl
  have hpost : ∀ p st, post session p st =
      .ok { st with net := Function.update st.net session (st.net session ++ [p.msg]) } := fun _ _ => rfl
  have hplays : GameObject.Plays { st.game.toScene.newPlayer session with room := false } session := ⟨rfl, rfl⟩
  unfold ServerPacketHandler.makeSMyPlayer ServerPacketHandler.makeSAddObject
  rw [(hgood st.net).deref ho (.inr List.mem_cons_self), ok_bind, hp, ok_bind, hpost, ok_bind]
  dsimp only
  rw [hobjects, ok_bind, hq, ok_bind, hpost, ok_bind]
  obtain ⟨st₄, hst₄⟩ := addObject_returns .players (hgood _) List.mem_cons_self ho rfl
    (fun _ => ⟨session, hplays, hplayer⟩) (Nat.le_of_eq htail |>.trans (Nat.zero_le _)) (by rw [hplayers]; exact hfuel)
  rw [Game.addObjectBy_broadcast, hst₄]
  exact ⟨_, rfl⟩

/-- **`LeaveRoom` returns.** -/
theorem leaveRoom_returns (h : Good Anyone st []) (hfuel : st.game.players.toList.length < fuel) :
    ∃ st', Game.leaveRoom post fuel session st = .ok st' := by
  unfold Game.leaveRoom Game.leaveRoomBy
  cases hl : st.game.lock (st.game.gameSessions session).player with
  | none => exact ⟨st, rfl⟩
  | some player =>
    obtain ⟨hweak, hpos⟩ := lock_spec hl
    obtain ⟨o, ho, -⟩ := h.core.weak session player hweak
    dsimp only
    rw [h.deref ho (.inl (h.inside hpos)), ok_bind]
    exact removeObject_returns _ h hfuel

/-- **`Init` returns.** -/
theorem init_returns (h : Good Anyone st []) (tilemap : TileMap) (hfuel : st.game.players.toList.length + 1 < fuel) :
    ∃ st', Game.init post fuel tilemap st = .ok st' := by
  have htail : st.game.toScene.newMonster.info.tail = 13 := rfl
  have hplayers : st.game.hatch.players = st.game.players := by
    rw [hatch_scene]
    rfl
  obtain ⟨st₂, hst₂⟩ := addObject_returns .monsters h.hatch List.mem_cons_self hatch_last rfl nofun
    (Nat.le_of_eq htail |>.trans (by decide)) (by rw [hplayers]; exact hfuel)
  rw [init_eq, hst₂]
  exact ⟨_, rfl⟩

end ZeldaServer
