import ZeldaServer.Spec.GameServer

/-!
# Broadcasts over a copy of the players

`broadcastCopy` goes through a copy of `_players`. The functions of the room with this
`Broadcast` are those of a room in which a player may leave during a broadcast.
-/

namespace ZeldaServer

open Lib Std

variable {ν : Type}

/-- New `shared_ptr`s to the elements of the list. -/
def Room.retainAll (room : Room) (l : List Ref) : Room :=
  { room with useCount := fun r => room.useCount r + l.count r }

/-- The end of them. -/
def Room.releaseAll (room : Room) (l : List Ref) : Room :=
  { room with useCount := fun r => room.useCount r - l.count r }

namespace Game

variable (send : SessionId → Packet → Game ν → Outcome (Game ν))

/-- The body of the loop of `Broadcast`. -/
def broadcastTo (sendBuffer : Packet) (st : Game ν) (item : UInt64 × Ref) : Outcome (Game ν) := do
  let player ← st.game.deref item.2
  match player.kind with
  | .player (some session) => send session sendBuffer st
  | _ => .error .undefined

/-- `Broadcast` over a copy of `_players`. -/
def broadcastCopy (sendBuffer : Packet) (st : Game ν) : Outcome (Game ν) := do
  let players := st.game.players.toList
  let st := st.update (·.retainAll (players.map Prod.snd))
  let st ← players.foldlM (broadcastTo send sendBuffer) st
  .ok (st.update (·.releaseAll (players.map Prod.snd)))

end Game

/-- What `GameSession` calls in a game that broadcasts over copies. -/
def copyContent (parse : List UInt8 → CMove) : Content Room where
  enterRoom api := Game.enterRoomBy (Game.broadcastCopy api.send) api.send
  leaveRoom api := Game.leaveRoomBy (Game.broadcastCopy api.send)
  handlePacket api session buffer st :=
    if buffer.length < sizeofPacketHeader then .error .undefined
    else if (PacketHeader.read buffer).id = C_Move ∧ (st.game.gameSessions session).gameRoom then
      Game.handleCMoveBy (Game.broadcastCopy api.send) (parse (ServerPacketHandler.payload buffer)) st
    else .ok st

end ZeldaServer
