import ZeldaServer.Spec.GameObject

/-!
# GameRoom

The functions of `GameRoom`, `GameObject`, `Creature`, `Player` and `Monster` that send.
They take the function `send` that puts a packet on a session (`Session::Send`), and
work over any state `ν` of the sessions. Those that broadcast in the middle of what they do
are written over any `Broadcast` first. The pointers that local variables hold are
counted (`retain`, `release`); those of one expression are not.

`fuel` bounds the loops over the maps of the room and those of `FindPath`.
-/

namespace ZeldaServer

open Lib Std

variable {ν : Type}

namespace Game

def room (st : Game ν) : Room := st.game

/-- Run a function of the room. -/
def update (st : Game ν) (f : Room → Room) : Game ν := { st with game := f st.game }

/-! ## Functions that broadcast, with `Broadcast` as a parameter -/

section

variable (broadcast : Packet → Game ν → Outcome (Game ν)) (send : SessionId → Packet → Game ν → Outcome (Game ν))

/-- `GameRoom::AddObject` -/
def addObjectBy (r : Ref) (st : Game ν) : Outcome (Game ν) := do
  let o ← st.game.deref r
  match o.info.objecttype.roster with
  | none => .ok st
  | some which => do
    let st := st.update fun room =>
      (room.assign which o.info.objectid r).modify r fun o => { o with room := true }
    let o ← st.game.deref r
    let sendBuf ← ServerPacketHandler.makeSAddObject [o.info]
    broadcast sendBuf st

/-- `GameRoom::RemoveObject` -/
def removeObjectBy (id : UInt64) (st : Game ν) : Outcome (Game ν) :=
  match st.game.findObject id with
  | none => .ok st
  | some gameObject => do
    let st := st.update (·.retain gameObject)
    let sendBuf ← ServerPacketHandler.makeSRemoveObject [id]
    let st ← broadcast sendBuf st
    let o ← st.game.deref gameObject
    match o.info.objecttype.roster with
    | none => .ok (st.update (·.release gameObject))
    | some which =>
      .ok (st.update fun room =>
        (((room.erase which id).modify gameObject fun o => { o with room := false }).release gameObject))

/-- `GameRoom::EnterRoom`, up to its sends. -/
def usher (session : SessionId) (room : Room) : Ref × Room :=
  let (player, room) := room.createPlayer
  let room := { room with
    gameSessions := Function.update room.gameSessions session { gameRoom := true, player := some player } }
  (player, room.modify player fun o => { o with kind := .player (some session) })

/-- The loops of `EnterRoom` that fill `S_AddObject`. -/
def snapshot (room : Room) : Outcome (List ObjectInfo) :=
  (elements room.players ++ elements room.monsters).mapM fun r => do
    let o ← room.deref r
    .ok o.info

/-- `GameRoom::EnterRoom` -/
def enterRoomBy (session : SessionId) (st : Game ν) : Outcome (Game ν) := do
  let (player, room) := usher session st.game
  let st := { st with game := room }
  let o ← st.game.deref player
  let sendBuf ← ServerPacketHandler.makeSMyPlayer o.info
  let st ← send session sendBuf st
  let objects ← snapshot st.game
  let sendBuf ← ServerPacketHandler.makeSAddObject objects
  let st ← send session sendBuf st
  let st ← addObjectBy broadcast player st
  .ok (st.update (·.release player))

/-- `GameRoom::LeaveRoom`, of a session that is not null -/
def leaveRoomBy (session : SessionId) (st : Game ν) : Outcome (Game ν) :=
  match st.game.lock (st.game.gameSessions session).player with
  | none => .ok st
  | some player => do
    let o ← st.game.deref player
    removeObjectBy broadcast o.info.objectid st

/-- `Creature::BroadcastAttack` of the creature `r` -/
def broadcastAttackBy (r : Ref) (targetInfo attackerInfo : ObjectInfo) (st : Game ν) : Outcome (Game ν) := do
  let o ← st.game.deref r
  if o.room then do
    let sendBuffer ← ServerPacketHandler.makeSAttack targetInfo attackerInfo
    broadcast sendBuffer st
  else .ok st

/-- `target->info.set_hp(target->info.hp() - info.attack())` and `BroadcastAttack`, by `attacker` -/
def damageBy (attacker target : Ref) (st : Game ν) : Outcome (Game ν) := do
  let a ← st.game.deref attacker
  let st := st.update (·.modifyInfo target fun info => { info with hp := info.hp - a.info.attack })
  let t ← st.game.deref target
  let a ← st.game.deref attacker
  broadcastAttackBy broadcast attacker t.info a.info st

/-- `Player::Attack` -/
def attackBy (r : Ref) (st : Game ν) : Outcome (Game ν) := do
  let player ← st.game.deref r
  if player.room = false then .error .undefined
  else
    match ← st.game.getGameObjectAt player.getFrontCellPos with
    | none => .ok st
    | some gameObject => do
      let st := st.update (·.retain gameObject)
      let o ← st.game.deref gameObject
      let st ← if o.info.objecttype = .monster then do
          let st ← damageBy broadcast r gameObject st
          let o ← st.game.deref gameObject
          if o.info.hp ≤ 0 then do
            let player ← st.game.deref r
            if player.room = false then .error .undefined
            else removeObjectBy broadcast o.info.objectid st
          else .ok st
        else .ok st
      .ok (st.update (·.release gameObject))

/-- `GameRoom::Handle_C_Move` -/
def handleCMoveBy (pkt : CMove) (st : Game ν) : Outcome (Game ν) :=
  match st.game.findObject pkt.info.objectid with
  | none => .ok st
  | some gameObject => do
    let st := st.update (·.retain gameObject)
    let st := st.update (·.modifyInfo gameObject fun info => { info with
      state := pkt.info.state, dir := pkt.info.dir, posx := pkt.info.posx, posy := pkt.info.posy })
    let sendBuffer ← ServerPacketHandler.makeSMove pkt.info
    let st ← broadcast sendBuffer st
    let o ← st.game.deref gameObject
    let st ← if o.info.state = .skill then
        match o.kind with
        | .player _ => do
          let st := st.update (·.retain gameObject)
          let st ← attackBy broadcast gameObject st
          .ok (st.update (·.release gameObject))
        | .monster _ => .ok st
      else .ok st
    .ok (st.update (·.release gameObject))

end

/-! ## The room -/

variable (send : SessionId → Packet → Game ν → Outcome (Game ν)) (pick : Pick) (fuel : ℕ)

/-- `GameRoom::Broadcast` -/
def broadcast (sendBuffer : Packet) (st : Game ν) : Outcome (Game ν) :=
  rangeFor (fun st : Game ν => st.game.players) (fun r st => do
    let player ← st.game.deref r
    match player.kind with
    | .player (some session) => send session sendBuffer st
    | _ => .error .undefined) fuel (firstKey st.game.players) st

/-- `GameRoom::AddObject` -/
def addObject (r : Ref) (st : Game ν) : Outcome (Game ν) := addObjectBy (broadcast send fuel) r st

/-- `GameRoom::RemoveObject` -/
def removeObject (id : UInt64) (st : Game ν) : Outcome (Game ν) := removeObjectBy (broadcast send fuel) id st

/-- `GameRoom::EnterRoom` -/
def enterRoom (session : SessionId) (st : Game ν) : Outcome (Game ν) := enterRoomBy (broadcast send fuel) send session st

/-- `GameRoom::LeaveRoom`, of a session that is not null -/
def leaveRoom (session : SessionId) (st : Game ν) : Outcome (Game ν) := leaveRoomBy (broadcast send fuel) session st

/-- `GameRoom::Init`; `LoadFile` reads `tilemap`. -/
def init (tilemap : TileMap) (st : Game ν) : Outcome (Game ν) := do
  let (monster, room) := st.game.createMonster
  let st := { st with game := room.modifyInfo monster fun info => { info with posx := 8, posy := 8 } }
  let st ← addObject send fuel monster st
  .ok (st.update fun room => { room with tilemap := tilemap }.release monster)

/-! ## Objects -/

/-- `GameObject::BroadcastMove` -/
def broadcastMove (r : Ref) (st : Game ν) : Outcome (Game ν) := do
  let o ← st.game.deref r
  if o.room then do
    let sendBuffer ← ServerPacketHandler.makeSMove o.info
    broadcast send fuel sendBuffer st
  else .ok st

/-- `GameObject::SetState` -/
def setState (r : Ref) (state : ObjectState) (bcast : Bool) (st : Game ν) : Outcome (Game ν) := do
  let o ← st.game.deref r
  if o.info.state = state then .ok st
  else
    let st := st.update (·.modifyInfo r fun info => { info with state := state })
    if bcast then broadcastMove send fuel r st else .ok st

/-- `GameObject::SetDir`, without broadcast -/
def setDir (r : Ref) (dir : Dir) (st : Game ν) : Game ν :=
  st.update (·.modifyInfo r fun info => { info with dir := dir })

/-- `GameObject::SetCellPos`, without broadcast -/
def setCellPos (r : Ref) (cellPos : VectorInt) (st : Game ν) : Game ν :=
  st.update (·.modifyInfo r fun info => { info with posx := cellPos.x, posy := cellPos.y })

/-- `Creature::BroadcastAttack` of the creature `r` -/
def broadcastAttack (r : Ref) (targetInfo attackerInfo : ObjectInfo) (st : Game ν) : Outcome (Game ν) :=
  broadcastAttackBy (broadcast send fuel) r targetInfo attackerInfo st

/-- `target->info.set_hp(target->info.hp() - info.attack())` and `BroadcastAttack`, by `attacker` -/
def damage (attacker target : Ref) (st : Game ν) : Outcome (Game ν) := damageBy (broadcast send fuel) attacker target st

/-- `Player::Attack` -/
def attack (r : Ref) (st : Game ν) : Outcome (Game ν) := attackBy (broadcast send fuel) r st

/-- `GameRoom::Handle_C_Move` -/
def handleCMove (pkt : CMove) (st : Game ν) : Outcome (Game ν) := handleCMoveBy (broadcast send fuel) pkt st

section

variable {send fuel}

theorem addObjectBy_broadcast : addObjectBy (broadcast send fuel) = addObject send fuel := rfl

theorem removeObjectBy_broadcast : removeObjectBy (broadcast send fuel) = removeObject send fuel := rfl

theorem damageBy_broadcast : damageBy (broadcast send fuel) = damage send fuel := rfl

theorem attackBy_broadcast : attackBy (broadcast send fuel) = attack send fuel := rfl

end

/-! ## Monster -/

/-- The fields of `Monster` of the object `r`. -/
def monster (r : Ref) (st : Game ν) : Outcome Monster := do
  let o ← st.game.deref r
  match o.kind with
  | .monster fields => .ok fields
  | .player _ => .error .undefined

def modifyMonster (r : Ref) (f : Monster → Monster) (st : Game ν) : Game ν :=
  st.update (·.modify r fun o => match o.kind with
    | .monster fields => { o with kind := .monster (f fields) }
    | .player _ => o)

def getTickCount64 (st : Game ν) : UInt64 × Game ν :=
  let (now, room) := st.game.getTickCount64
  (now, { st with game := room })

/-- `FindPath` with its default depth -/
def findPath (src dest : VectorInt) (st : Game ν) : Outcome (Option (List VectorInt)) :=
  ZeldaServer.findPath st.game.canGo pick src 10 fuel dest

/-- `Monster::UpdateIdle` for a target that is alive -/
def pursue (r target : Ref) (st : Game ν) : Outcome (Game ν) := do
  let o ← st.game.deref r
  let t ← st.game.deref target
  if (t.getCellPos.sub o.getCellPos).taxicab = 1 then do
    let (now, st) := st.getTickCount64
    let fields ← monster r st
    if now < fields.waitAttackUntil then .ok st
    else do
      let st := setDir r (o.getLookAtDir t.getCellPos) st
      let st ← setState send fuel r .skill true st
      let (now, st) := st.getTickCount64
      .ok (modifyMonster r (fun fields => { fields with waitAttackUntil := now + 1000 }) st)
  else do
    match ← findPath pick fuel o.getCellPos t.getCellPos st with
    | none => .ok st
    | some path =>
      match path with
      | _ :: nextPos :: _ =>
        if ← st.game.canGo nextPos then do
          let st := setDir r (o.getLookAtDir nextPos) st
          let st := setCellPos r nextPos st
          let (now, st) := st.getTickCount64
          let st := modifyMonster r (fun fields => { fields with waitMoveUntil := now + 1000 }) st
          setState send fuel r .move true st
        else .ok st
      | [pos] => .ok (setCellPos r pos st)
      | [] => .error .undefined

/-- `Monster::UpdateIdle` -/
def updateIdle (r : Ref) (st : Game ν) : Outcome (Game ν) := do
  let o ← st.game.deref r
  if o.room = false then .ok st
  else do
    let fields ← monster r st
    let target := st.game.lock fields.target
    let st := match target with
      | some t => st.update (·.retain t)
      | none => st
    let closest ← st.game.findClosestPlayer o.getCellPos
    let st := modifyMonster r (fun fields => { fields with target := closest }) st
    match target with
    | none => .ok st
    | some t => do
      let st ← pursue send pick fuel r t st
      .ok (st.update (·.release t))

/-- `Monster::UpdateMove` -/
def updateMove (r : Ref) (st : Game ν) : Outcome (Game ν) := do
  let (now, st) := st.getTickCount64
  let fields ← monster r st
  if now < fields.waitMoveUntil then .ok st
  else setState send fuel r .idle false st

/-- `Monster::UpdateSkill` -/
def updateSkill (r : Ref) (st : Game ν) : Outcome (Game ν) := do
  let fields ← monster r st
  match st.game.lock fields.target with
  | none => .ok st
  | some target => do
    let st := st.update (·.retain target)
    let st ← damage send fuel r target st
    let t ← st.game.deref target
    let st ← if t.info.hp ≤ 0 then do
        let st := modifyMonster r (fun fields => { fields with target := none }) st
        let o ← st.game.deref r
        if o.room = false then .error .undefined
        else removeObject send fuel t.info.objectid st
      else .ok st
    let st ← setState send fuel r .idle false st
    .ok (st.update (·.release target))

/-- `Monster::Update` -/
def updateMonster (r : Ref) (st : Game ν) : Outcome (Game ν) := do
  let o ← st.game.deref r
  match o.info.state with
  | .idle => updateIdle send pick fuel r st
  | .move => updateMove send fuel r st
  | .skill => updateSkill send fuel r st
  | .other _ => .ok st

/-- `GameRoom::Update`; the `Update` of a player does nothing. -/
def updateRoom (st : Game ν) : Outcome (Game ν) :=
  rangeFor (fun st : Game ν => st.game.monsters) (updateMonster send pick fuel) fuel
    (firstKey st.game.monsters) st

end Game

/-! ## Operations -/

/-- What is done to the room. -/
inductive RoomOp
  | init (tilemap : TileMap)
  | enterRoom (session : SessionId)
  | leaveRoom (session : SessionId)
  | handleCMove (pkt : CMove)
  /-- with what `GetTickCount64` returns and what the queue of `FindPath` gives out meanwhile -/
  | update (ticks : List UInt64) (pick : Pick)

def RoomOp.run (send : SessionId → Packet → Game ν → Outcome (Game ν)) (fuel : ℕ) (st : Game ν) :
    RoomOp → Outcome (Game ν)
  | .init tilemap => Game.init send fuel tilemap st
  | .enterRoom session => Game.enterRoom send fuel session st
  | .leaveRoom session => Game.leaveRoom send fuel session st
  | .handleCMove pkt => Game.handleCMove send fuel pkt st
  | .update ticks pick => Game.updateRoom send pick fuel (st.update fun room => { room with ticks := ticks })

end ZeldaServer
