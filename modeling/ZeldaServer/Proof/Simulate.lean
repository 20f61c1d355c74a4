import ZeldaServer.Lib.Simulation
import ZeldaServer.Proof.Trace
import ZeldaServer.Spec.GameServer

/-!
# The room over two kinds of sessions

The functions of the room do to the sessions what `send` does, and nothing else. So if one
`send` simulates another, over related states of the sessions, then every function of the
room does too, with as much fuel or more: `handleCMove_matches`, `updateRoom_matches` and so on.
All records have a property `Q` that the code keeps (`Kindly`), and so have the records that are
sent.
-/

namespace ZeldaServer

open Lib Std

/-- The records in a message. -/
def Msg.infos : Msg → List ObjectInfo
  | .enterGame _ _ => []
  | .myPlayer info => [info]
  | .addObject objects => objects
  | .removeObject _ => []
  | .move info => [info]
  | .attack targetinfo attackerinfo => [targetinfo, attackerinfo]

/-- All records of the message have the property. -/
def Msg.Carries (Q : ObjectInfo → Prop) (msg : Msg) : Prop := ∀ info ∈ msg.infos, Q info

/-- The records of all objects have the property. -/
def Room.All (Q : ObjectInfo → Prop) (room : Room) : Prop :=
  ∀ (r : Ref) (o : GameObject), room.objects[r]? = some o → Q o.info

/-- What the code writes into records keeps the property. -/
structure Kindly (Q : ObjectInfo → Prop) : Prop where
  player : ∀ id, Q { objectid := id, objecttype := .player, posx := 5, posy := 5, maxhp := 100, hp := 100, attack := 30 }
  monster : ∀ id, Q { Monster.info with objectid := id, objecttype := .monster }
  state : ∀ info state, (∀ v, state ≠ .other v) → Q info → Q { info with state := state }
  dir : ∀ info dir, (∀ v, dir ≠ .other v) → Q info → Q { info with dir := dir }
  cell : ∀ info x y, Q info → Q { info with posx := x, posy := y }
  hp : ∀ info hp, Q info → Q { info with hp := hp }
  follow : ∀ info told, Q info → Q told →
    Q { info with state := told.state, dir := told.dir, posx := told.posx, posy := told.posy }

/-- The records may be any. -/
def Whatever (_ : ObjectInfo) : Prop := True

theorem whatever_kindly : Kindly Whatever :=
  ⟨fun _ => trivial, fun _ => trivial, fun _ _ _ _ => trivial, fun _ _ _ _ => trivial, fun _ _ _ _ => trivial,
    fun _ _ _ => trivial, fun _ _ _ _ => trivial⟩

variable {ν ν' : Type} {Q : ObjectInfo → Prop} {room : Room} {r : Ref} {o : GameObject}

/-! ## Records of a room -/

theorem Room.All.modify (h : room.All Q) (r : Ref) {f : GameObject → GameObject} (hf : ∀ o, Q o.info → Q (f o).info) :
    (room.modify r f).All Q := by
  intro r' o' ho'
  have ho' : (room.objects.modify r f)[r']? = some o' := ho'
  rw [List.getElem?_modify] at ho'
  obtain ⟨o, ho, rfl⟩ := Option.map_eq_some_iff.1 ho'
  split
  · exact hf o (h r' o ho)
  · exact h r' o ho

theorem Room.All.modifyInfo (h : room.All Q) (r : Ref) {f : ObjectInfo → ObjectInfo} (hf : ∀ info, Q info → Q (f info)) :
    (room.modifyInfo r f).All Q :=
  h.modify r fun o => hf o.info

theorem Room.All.retain (h : room.All Q) (r : Ref) : (room.retain r).All Q := h

theorem Room.All.release (h : room.All Q) (r : Ref) : (room.release r).All Q := h

theorem Room.All.assign (h : room.All Q) (which : Roster) (id : UInt64) (r : Ref) : (room.assign which id r).All Q := by
  cases which with
  | players => exact h
  | monsters => exact h

theorem Room.All.erase (h : room.All Q) (which : Roster) (id : UInt64) : (room.erase which id).All Q := by
  cases which with
  | players => exact h
  | monsters => exact h

theorem Room.All.create (h : room.All Q) (ho : Q o.info) : (room.create o).2.All Q := by
  intro r' o' ho'
  have ho' : (room.objects ++ [o])[r']? = some o' := ho'
  rw [List.getElem?_append] at ho'
  split at ho'
  · exact h r' o' ho'
  · have hmem := List.mem_of_getElem? ho'
    rw [List.mem_singleton.1 hmem]
    exact ho

theorem Room.All.deref (h : room.All Q) (ho : room.deref r = .ok o) : Q o.info := by
  unfold Room.deref at ho
  split at ho
  · next ho' =>
    split at ho
    · cases ho
      exact h r _ ho'
    · cases ho
  · cases ho

theorem lookAt_known (o : GameObject) (cellPos : VectorInt) (v : Int32) : o.getLookAtDir cellPos ≠ .other v := by
  unfold GameObject.getLookAtDir
  dsimp only
  split_ifs <;> exact Dir.noConfusion

/-! ## Related states -/

/-- The same room, whose records have the property, over related sessions. -/
structure Twins (N : ν → ν' → Prop) (Q : ObjectInfo → Prop) (st : Game ν) (st' : Game ν') : Prop where
  game : st.game = st'.game
  net : N st.net st'.net
  all : st.game.All Q

/-- The packet is the one that is made of its message. -/
def Packet.Made (p : Packet) : Prop := ServerPacketHandler.make p.msg = .ok p

/-- One `send` simulates the other. -/
def SendsAlike (N : ν → ν' → Prop) (Q : ObjectInfo → Prop) (send : SessionId → Packet → Game ν → Outcome (Game ν))
    (send' : SessionId → Packet → Game ν' → Outcome (Game ν')) : Prop :=
  ∀ (s : SessionId) (p : Packet) (st : Game ν) (st' : Game ν'), Twins N Q st st' → p.Made → p.msg.Carries Q →
    Matches (Twins N Q) (send s p st) (send' s p st')

variable {N : ν → ν' → Prop} {send : SessionId → Packet → Game ν → Outcome (Game ν)}
  {send' : SessionId → Packet → Game ν' → Outcome (Game ν')} {pick : Pick} {fuel fuel' : ℕ} {st : Game ν} {st' : Game ν'}

theorem Twins.update (h : Twins N Q st st') {f : Room → Room} (hf : ∀ room : Room, room.All Q → (f room).All Q) :
    Twins N Q (st.update f) (st'.update f) :=
  ⟨congrArg f h.game, h.net, hf _ h.all⟩

/-- A call that only reads the room. -/
theorem Twins.read {α : Type} {f : Room → Outcome α} {S : Game ν → Game ν' → Prop} {g : α → Outcome (Game ν)}
    {g' : α → Outcome (Game ν')} (h : Twins N Q st st')
    (hg : ∀ a, f st.game = .ok a → Matches S (g a) (g' a)) : Matches S (f st.game >>= g) (f st'.game >>= g') := by
  rw [← h.game]
  exact .same hg

/-- An object is read. -/
theorem Twins.deref {S : Game ν → Game ν' → Prop} {g : GameObject → Outcome (Game ν)} {g' : GameObject → Outcome (Game ν')}
    (h : Twins N Q st st') (hg : ∀ o, st.game.deref r = .ok o → Q o.info → Matches S (g o) (g' o)) :
    Matches S (st.game.deref r >>= g) (st'.game.deref r >>= g') := by
  rw [← h.game]
  exact .same fun o ho => hg o ho (h.all.deref ho)

/-- A packet is made, and the call goes on. -/
theorem made {S : Game ν → Game ν' → Prop} {g : Packet → Outcome (Game ν)} {g' : Packet → Outcome (Game ν')} {msg : Msg}
    (hg : ∀ p : Packet, p.msg = msg → p.Made → Matches S (g p) (g' p)) :
    Matches S (ServerPacketHandler.make msg >>= g) (ServerPacketHandler.make msg >>= g') := by
  refine .same fun p hp => ?_
  have hmsg := ServerPacketHandler.make_msg hp
  exact hg p hmsg (by rw [Packet.Made, hmsg, hp])

section

variable (hsend : SendsAlike N Q send send') (hfuel : fuel ≤ fuel')

/-! ## The room -/

include hsend hfuel

theorem broadcast_matches (h : Twins N Q st st') {p : Packet} (hmade : p.Made) (hp : p.msg.Carries Q) :
    Matches (Twins N Q) (Game.broadcast send fuel p st) (Game.broadcast send' fuel' p st') := by
  unfold Game.broadcast
  rw [h.game]
  refine Matches.rangeFor (fun s t hst => by rw [hst.game]) (fun r s t hst => ?_) hfuel h
  refine hst.deref fun o _ _ => ?_
  rcases o.kind with ⟨_ | session⟩ | m
  · exact .error
  · exact hsend session p s t hst hmade hp
  · exact .error

theorem addObject_matches (h : Twins N Q st st') : Matches (Twins N Q) (Game.addObject send fuel r st) (Game.addObject send' fuel' r st') := by
  unfold Game.addObject Game.addObjectBy
  refine h.deref fun o _ _ => ?_
  rcases o.info.objecttype.roster with _ | which
  · exact .ok h
  have h₁ := h.update (f := fun room => (room.assign which o.info.objectid r).modify r fun o => { o with room := true })
    fun room hroom => (hroom.assign which o.info.objectid r).modify r fun _ ho => ho
  refine h₁.deref fun o₁ ho₁ _ => ?_
  refine made fun p hp hmade => broadcast_matches hsend hfuel h₁ hmade ?_
  rw [hp]
  intro info hinfo
  rw [List.mem_singleton.1 hinfo]
  exact h₁.all.deref ho₁

theorem removeObject_matches (h : Twins N Q st st') (id : UInt64) :
    Matches (Twins N Q) (Game.removeObject send fuel id st) (Game.removeObject send' fuel' id st') := by
  unfold Game.removeObject Game.removeObjectBy
  rw [← h.game]
  split
  · exact .ok h
  · next gameObject _ =>
    have h₁ := h.update (f := fun room => room.retain gameObject) fun room hroom => hroom.retain gameObject
    refine made fun p hp hmade => (broadcast_matches hsend hfuel h₁ hmade ?_).bind fun st₂ st₂' h₂ => ?_
    · rw [hp]
      exact fun info hinfo => nomatch hinfo
    refine h₂.deref fun o _ _ => ?_
    rcases o.info.objecttype.roster with _ | which
    · exact .ok (h₂.update fun room hroom => hroom.release gameObject)
    · refine .ok (h₂.update fun room hroom => ?_)
      exact ((hroom.erase which id).modify gameObject (f := fun o => { o with room := false }) fun _ ho => ho).release gameObject

theorem leaveRoom_matches (h : Twins N Q st st') (session : SessionId) :
    Matches (Twins N Q) (Game.leaveRoom send fuel session st) (Game.leaveRoom send' fuel' session st') := by
  unfold Game.leaveRoom Game.leaveRoomBy
  rw [← h.game]
  split
  · exact .ok h
  · next player _ =>
    refine Matches.same fun o _ => ?_
    exact removeObject_matches hsend hfuel h o.info.objectid

omit hsend hfuel in
/-- The records of a snapshot are those of objects. -/
theorem snapshot_carries (h : room.All Q) {objects : List ObjectInfo} (hsnap : Game.snapshot room = .ok objects) :
    ∀ info ∈ objects, Q info := by
  unfold Game.snapshot at hsnap
  generalize elements room.players ++ elements room.monsters = refs at hsnap
  induction refs generalizing objects with
  | nil =>
    cases hsnap
    exact fun info hinfo => nomatch hinfo
  | cons r refs ih =>
    rw [List.mapM_cons] at hsnap
    obtain ⟨info, hinfo, hsnap⟩ := bind_eq_ok.1 hsnap
    obtain ⟨infos, hinfos, hsnap⟩ := bind_eq_ok.1 hsnap
    obtain ⟨o, ho, hinfo⟩ := bind_eq_ok.1 hinfo
    cases hinfo
    cases hsnap
    intro info hmem
    rcases List.mem_cons.1 hmem with rfl | hmem
    · exact h.deref ho
    · exact ih hinfos info hmem

theorem enterRoom_matches (hQ : Kindly Q) (h : Twins N Q st st') (session : SessionId) :
    Matches (Twins N Q) (Game.enterRoom send fuel session st) (Game.enterRoom send' fuel' session st') := by
  unfold Game.enterRoom Game.enterRoomBy
  have husher : ∀ room : Room, room.All Q → (Game.usher session room).2.All Q := by
    intro room hroom
    have hcreate : room.createPlayer.2.All Q := hroom.create (hQ.player room.idGenerator)
    have hgreeted : Room.All Q { room.createPlayer.2 with
        gameSessions := (Function.update room.createPlayer.2.gameSessions session
          { gameRoom := true, player := some room.createPlayer.1 }) } := hcreate
    exact hgreeted.modify room.createPlayer.1 fun _ ho => ho
  have h₁ : Twins N Q { st with game := (Game.usher session st.game).2 } { st' with game := (Game.usher session st'.game).2 } :=
    ⟨by rw [h.game], h.net, husher _ h.all⟩
  dsimp only
  rw [← h.game] at h₁ ⊢
  refine h₁.deref fun o ho _ => ?_
  refine made fun p hp hmade => (hsend session p _ _ h₁ hmade ?_).bind fun st₂ st₂' h₂ => ?_
  · rw [hp]
    intro info hinfo
    rw [List.mem_singleton.1 hinfo]
    exact h₁.all.deref ho
  refine h₂.read (f := Game.snapshot) fun objects hobjects => ?_
  refine made fun p hp hmade => (hsend session p _ _ h₂ hmade ?_).bind fun st₃ st₃' h₃ => ?_
  · rw [hp]
    exact snapshot_carries h₂.all hobjects
  refine (addObject_matches hsend hfuel h₃).bind fun st₄ st₄' h₄ => ?_
  exact .ok (h₄.update fun room hroom => hroom.release _)

theorem init_matches (hQ : Kindly Q) (h : Twins N Q st st') (tilemap : TileMap) :
    Matches (Twins N Q) (Game.init send fuel tilemap st) (Game.init send' fuel' tilemap st') := by
  unfold Game.init
  have hmonster : ∀ room : Room, room.All Q →
      (room.createMonster.2.modifyInfo room.createMonster.1 fun info => { info with posx := 8, posy := 8 }).All Q := by
    intro room hroom
    have hcreate : room.createMonster.2.All Q := hroom.create (hQ.monster room.idGenerator)
    exact hcreate.modifyInfo _ fun info hinfo => hQ.cell info 8 8 hinfo
  dsimp only
  rw [← h.game]
  have hroom := hmonster _ h.all
  generalize st.game.createMonster.2.modifyInfo st.game.createMonster.1 _ = room at hroom ⊢
  have h₂ : Twins N Q { st with game := room } { st' with game := room } := ⟨rfl, h.net, hroom⟩
  refine (addObject_matches hsend hfuel h₂).bind fun st₃ st₃' h₃ => ?_
  exact .ok (h₃.update fun room hroom => hroom)

/-! ## Objects -/

theorem broadcastMove_matches (h : Twins N Q st st') :
    Matches (Twins N Q) (Game.broadcastMove send fuel r st) (Game.broadcastMove send' fuel' r st') := by
  unfold Game.broadcastMove
  refine h.deref fun o ho _ => .ite (fun _ => ?_) fun _ => .ok h
  refine made fun p hp hmade => broadcast_matches hsend hfuel h hmade ?_
  rw [hp]
  intro info hinfo
  rw [List.mem_singleton.1 hinfo]
  exact h.all.deref ho

theorem setState_matches (hQ : Kindly Q) (h : Twins N Q st st') {state : ObjectState} (hstate : ∀ v, state ≠ .other v) (bcast : Bool) :
    Matches (Twins N Q) (Game.setState send fuel r state bcast st) (Game.setState send' fuel' r state bcast st') := by
  unfold Game.setState
  refine h.deref fun o _ _ => .ite (fun _ => .ok h) fun _ => ?_
  have h₁ := h.update (f := fun room => room.modifyInfo r fun info => { info with state := state })
    fun room hroom => hroom.modifyInfo r fun info => hQ.state info state hstate
  exact .ite (fun _ => broadcastMove_matches hsend hfuel h₁) fun _ => .ok h₁

theorem broadcastAttack_matches (h : Twins N Q st st') {targetInfo attackerInfo : ObjectInfo} (htarget : Q targetInfo)
    (hattacker : Q attackerInfo) :
    Matches (Twins N Q) (Game.broadcastAttack send fuel r targetInfo attackerInfo st)
      (Game.broadcastAttack send' fuel' r targetInfo attackerInfo st') := by
  unfold Game.broadcastAttack Game.broadcastAttackBy
  refine h.deref fun o _ _ => .ite (fun _ => ?_) fun _ => .ok h
  refine made fun p hp hmade => broadcast_matches hsend hfuel h hmade ?_
  rw [hp]
  intro info hinfo
  rcases List.mem_cons.1 hinfo with rfl | hinfo
  · exact htarget
  · rw [List.mem_singleton.1 hinfo]
    exact hattacker

theorem damage_matches (hQ : Kindly Q) (h : Twins N Q st st') {attacker target : Ref} :
    Matches (Twins N Q) (Game.damage send fuel attacker target st) (Game.damage send' fuel' attacker target st') := by
  unfold Game.damage Game.damageBy
  refine h.deref fun a _ _ => ?_
  have h₁ := h.update (f := fun room => room.modifyInfo target fun info => { info with hp := info.hp - a.info.attack })
    fun room hroom => hroom.modifyInfo target fun info => hQ.hp info _
  refine h₁.deref fun t _ htarget => h₁.deref fun a _ hattacker => ?_
  exact broadcastAttack_matches hsend hfuel h₁ htarget hattacker

theorem attack_matches (hQ : Kindly Q) (h : Twins N Q st st') :
    Matches (Twins N Q) (Game.attack send fuel r st) (Game.attack send' fuel' r st') := by
  unfold Game.attack Game.attackBy
  refine h.deref fun player _ _ => .ite (fun _ => .error) fun _ => ?_
  refine h.read (f := fun room => room.getGameObjectAt player.getFrontCellPos) fun found _ => ?_
  cases found with
  | none => exact .ok h
  | some gameObject =>
    have h₁ := h.update (f := fun room => room.retain gameObject) fun room hroom => hroom.retain gameObject
    refine h₁.deref fun o _ _ => .ite (fun _ => ?_) fun _ => ?_
    · refine (damage_matches hsend hfuel hQ h₁).bind fun st₂ st₂' h₂ => ?_
      refine h₂.deref fun o _ _ => .ite (fun _ => ?_) fun _ => ?_
      · refine h₂.deref fun player _ _ => .ite (fun _ => .error) fun _ => ?_
        refine (removeObject_matches hsend hfuel h₂ o.info.objectid).bind fun st₃ st₃' h₃ => ?_
        exact .ok (h₃.update fun room hroom => hroom.release gameObject)
      · exact .ok (h₂.update fun room hroom => hroom.release gameObject)
    · exact .ok (h₁.update fun room hroom => hroom.release gameObject)

theorem handleCMove_matches (hQ : Kindly Q) (h : Twins N Q st st') {pkt : CMove} (hpkt : Q pkt.info) :
    Matches (Twins N Q) (Game.handleCMove send fuel pkt st) (Game.handleCMove send' fuel' pkt st') := by
  unfold Game.handleCMove Game.handleCMoveBy
  rw [← h.game]
  split
  · exact .ok h
  next gameObject _ =>
  have h₁ := h.update (f := fun room => room.retain gameObject) fun room hroom => hroom.retain gameObject
  have h₂ := h₁.update (f := fun room => room.modifyInfo gameObject fun info => { info with
    state := pkt.info.state, dir := pkt.info.dir, posx := pkt.info.posx, posy := pkt.info.posy })
    fun room hroom => hroom.modifyInfo gameObject fun info hinfo => hQ.follow info pkt.info hinfo hpkt
  refine made fun p hp hmade => (broadcast_matches hsend hfuel h₂ hmade ?_).bind fun st₃ st₃' h₃ => ?_
  · rw [hp]
    intro info hinfo
    rw [List.mem_singleton.1 hinfo]
    exact hpkt
  refine h₃.deref fun o _ _ => .ite (fun _ => ?_) fun _ => ?_
  · rcases o.kind with session | m
    · have h₄ := h₃.update (f := fun room => room.retain gameObject) fun room hroom => hroom.retain gameObject
      refine (attack_matches hsend hfuel hQ h₄).bind fun st₅ st₅' h₅ => ?_
      exact .ok ((h₅.update fun room hroom => hroom.release gameObject).update fun room hroom => hroom.release gameObject)
    · exact .ok (h₃.update fun room hroom => hroom.release gameObject)
  · exact .ok (h₃.update fun room hroom => hroom.release gameObject)

/-! ## Monster -/

omit hsend hfuel in
theorem Twins.modifyMonster (h : Twins N Q st st') (r : Ref) (f : Monster → Monster) :
    Twins N Q (Game.modifyMonster r f st) (Game.modifyMonster r f st') := by
  refine h.update fun room hroom => hroom.modify r fun o ho => ?_
  split
  · exact ho
  · exact ho

omit hsend hfuel in
theorem Twins.tick (h : Twins N Q st st') :
    st.getTickCount64.1 = st'.getTickCount64.1 ∧ Twins N Q st.getTickCount64.2 st'.getTickCount64.2 := by
  have hall : st.game.getTickCount64.2.All Q := by
    unfold Room.getTickCount64
    split
    · exact h.all
    · exact h.all
    · exact h.all
  unfold Game.getTickCount64
  dsimp only
  rw [← h.game]
  exact ⟨rfl, rfl, h.net, hall⟩

omit hsend hfuel in
/-- The fields of a monster are read. -/
theorem Twins.monster {S : Game ν → Game ν' → Prop} {g : Monster → Outcome (Game ν)} {g' : Monster → Outcome (Game ν')}
    (h : Twins N Q st st') (hg : ∀ fields, Matches S (g fields) (g' fields)) :
    Matches S (Game.monster r st >>= g) (Game.monster r st' >>= g') := by
  have heq : Game.monster r st = Game.monster r st' := by
    unfold Game.monster
    rw [h.game]
  rw [heq]
  exact .same fun fields _ => hg fields

omit hsend hfuel in
theorem Twins.setDir (hQ : Kindly Q) (h : Twins N Q st st') (r : Ref) {dir : Dir} (hdir : ∀ v, dir ≠ .other v) :
    Twins N Q (Game.setDir r dir st) (Game.setDir r dir st') :=
  h.update fun _ hroom => hroom.modifyInfo r fun info => hQ.dir info dir hdir

omit hsend hfuel in
theorem Twins.setCellPos (hQ : Kindly Q) (h : Twins N Q st st') (r : Ref) (cellPos : VectorInt) :
    Twins N Q (Game.setCellPos r cellPos st) (Game.setCellPos r cellPos st') :=
  h.update fun _ hroom => hroom.modifyInfo r fun info => hQ.cell info cellPos.x cellPos.y

theorem pursue_matches (hQ : Kindly Q) (h : Twins N Q st st') {target : Ref} :
    Matches (Twins N Q) (Game.pursue send pick fuel r target st) (Game.pursue send' pick fuel' r target st') := by
  unfold Game.pursue
  refine h.deref fun o _ _ => h.deref fun t _ _ => .ite (fun _ => ?_) fun _ => ?_
  · obtain ⟨hnow, h₁⟩ := h.tick
    dsimp only
    rw [← hnow]
    refine h₁.monster fun fields => .ite (fun _ => .ok h₁) fun _ => ?_
    have h₂ := h₁.setDir hQ r (lookAt_known o t.getCellPos)
    refine (setState_matches hsend hfuel hQ h₂ (fun v => ObjectState.noConfusion) true).bind fun st₃ st₃' h₃ => ?_
    obtain ⟨hnow₃, h₄⟩ := h₃.tick
    rw [← hnow₃]
    exact .ok (h₄.modifyMonster r _)
  · have hpath : Matches (fun found found' => found = found') (Game.findPath pick fuel o.getCellPos t.getCellPos st)
        (Game.findPath pick fuel' o.getCellPos t.getCellPos st') := by
      intro found hfound
      unfold Game.findPath at hfound ⊢
      rw [← h.game]
      exact ⟨found, findPath_mono hfound hfuel, rfl⟩
    refine hpath.bind fun found _ heq => ?_
    rw [← heq]
    rcases found with _ | path
    · exact .ok h
    rcases path with _ | ⟨pos, _ | ⟨nextPos, rest⟩⟩
    · exact .error
    · exact .ok (h.setCellPos hQ r pos)
    refine h.read (f := fun room => room.canGo nextPos) fun free _ => .ite (fun _ => ?_) fun _ => .ok h
    have h₁ := (h.setDir hQ r (lookAt_known o nextPos)).setCellPos hQ r nextPos
    obtain ⟨hnow, h₂⟩ := h₁.tick
    dsimp only
    rw [← hnow]
    exact setState_matches hsend hfuel hQ (h₂.modifyMonster r _) (fun v => ObjectState.noConfusion) true

theorem updateIdle_matches (hQ : Kindly Q) (h : Twins N Q st st') :
    Matches (Twins N Q) (Game.updateIdle send pick fuel r st) (Game.updateIdle send' pick fuel' r st') := by
  unfold Game.updateIdle
  refine h.deref fun o _ _ => .ite (fun _ => .ok h) fun _ => ?_
  refine h.monster fun fields => ?_
  dsimp only
  rw [← h.game]
  rcases st.game.lock fields.target with _ | t
  · refine h.read (f := fun room => room.findClosestPlayer o.getCellPos) fun closest _ => ?_
    exact .ok (h.modifyMonster r _)
  · have h₁ := h.update (f := fun room => room.retain t) fun room hroom => hroom.retain t
    refine h₁.read (f := fun room => room.findClosestPlayer o.getCellPos) fun closest _ => ?_
    have h₂ := h₁.modifyMonster r fun fields => { fields with target := closest }
    refine (pursue_matches hsend hfuel hQ h₂).bind fun st₃ st₃' h₃ => ?_
    exact .ok (h₃.update fun room hroom => hroom.release t)

theorem updateMove_matches (hQ : Kindly Q) (h : Twins N Q st st') :
    Matches (Twins N Q) (Game.updateMove send fuel r st) (Game.updateMove send' fuel' r st') := by
  unfold Game.updateMove
  obtain ⟨hnow, h₁⟩ := h.tick
  dsimp only
  rw [← hnow]
  refine h₁.monster fun fields => .ite (fun _ => .ok h₁) fun _ => ?_
  exact setState_matches hsend hfuel hQ h₁ (fun v => ObjectState.noConfusion) false

theorem updateSkill_matches (hQ : Kindly Q) (h : Twins N Q st st') :
    Matches (Twins N Q) (Game.updateSkill send fuel r st) (Game.updateSkill send' fuel' r st') := by
  unfold Game.updateSkill
  refine h.monster fun fields => ?_
  rw [← h.game]
  rcases st.game.lock fields.target with _ | target
  · exact .ok h
  have h₁ := h.update (f := fun room => room.retain target) fun room hroom => hroom.retain target
  have hrelease : ∀ {st₂ : Game ν} {st₂' : Game ν'}, Twins N Q st₂ st₂' → Matches (Twins N Q)
      (Game.setState send fuel r .idle false st₂ >>= fun st => .ok (st.update (·.release target)))
      (Game.setState send' fuel' r .idle false st₂' >>= fun st => .ok (st.update (·.release target))) := by
    intro st₂ st₂' h₂
    refine (setState_matches hsend hfuel hQ h₂ (fun v => ObjectState.noConfusion) false).bind fun st₃ st₃' h₃ => ?_
    exact .ok (h₃.update fun room hroom => hroom.release target)
  refine (damage_matches hsend hfuel hQ h₁).bind fun st₂ st₂' h₂ => ?_
  refine h₂.deref fun t _ _ => .ite (fun _ => ?_) fun _ => hrelease h₂
  have h₃ := h₂.modifyMonster r fun fields => { fields with target := none }
  refine h₃.deref fun o _ _ => .ite (fun _ => .error) fun _ => ?_
  exact (removeObject_matches hsend hfuel h₃ t.info.objectid).bind fun st₄ st₄' h₄ => hrelease h₄

theorem updateMonster_matches (hQ : Kindly Q) (h : Twins N Q st st') :
    Matches (Twins N Q) (Game.updateMonster send pick fuel r st) (Game.updateMonster send' pick fuel' r st') := by
  unfold Game.updateMonster
  refine h.deref fun o _ _ => ?_
  rcases o.info.state with _ | _ | _ | v
  · exact updateIdle_matches hsend hfuel hQ h
  · exact updateMove_matches hsend hfuel hQ h
  · exact updateSkill_matches hsend hfuel hQ h
  · exact .ok h

theorem updateRoom_matches (hQ : Kindly Q) (h : Twins N Q st st') :
    Matches (Twins N Q) (Game.updateRoom send pick fuel st) (Game.updateRoom send' pick fuel' st') := by
  unfold Game.updateRoom
  rw [h.game]
  refine Matches.rangeFor (fun s t hst => by rw [hst.game]) (fun r s t hst => ?_) hfuel h
  exact updateMonster_matches hsend hfuel hQ hst

/-- **What is done to the room over one kind of sessions is done over the other.** -/
theorem RoomOp.run_matches (hQ : Kindly Q) (h : Twins N Q st st') (op : RoomOp) (hop : ∀ pkt, op = .handleCMove pkt → Q pkt.info) :
    Matches (Twins N Q) (op.run send fuel st) (op.run send' fuel' st') := by
  cases op with
  | init tilemap => exact init_matches hsend hfuel hQ h tilemap
  | enterRoom session => exact enterRoom_matches hsend hfuel hQ h session
  | leaveRoom session => exact leaveRoom_matches hsend hfuel h session
  | handleCMove pkt => exact handleCMove_matches hsend hfuel hQ h (hop pkt rfl)
  | update ticks pick => exact updateRoom_matches hsend hfuel hQ (h.update fun room hroom => hroom)

end

end ZeldaServer
