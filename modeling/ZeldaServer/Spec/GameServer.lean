import ZeldaServer.Spec.GameRoom

/-!
# The game server

`ServerPacketHandler::HandlePacket`, and the room as what `GameSession` calls
(`Content`). `C_Move::ParseFromArray` is a parameter: `parse payload` is what the message
holds after the call, whose result the handler does not look at.
-/

namespace ZeldaServer

open Lib

/-- The packet id of `C_Move`. -/
def C_Move : UInt16 := 10

section

variable {ν : Type} (parse : List UInt8 → CMove) (send : SessionId → Packet → Game ν → Outcome (Game ν)) (fuel : ℕ)

namespace ServerPacketHandler

/-- The message of a packet. -/
def payload (buffer : List UInt8) : List UInt8 :=
  (buffer.take (PacketHeader.read buffer).size.toNat).drop sizeofPacketHeader

/-- `ServerPacketHandler::Handle_C_Move` -/
def handleCMove (session : SessionId) (buffer : List UInt8) (st : Game ν) : Outcome (Game ν) :=
  let pkt := parse (payload buffer)
  if (st.game.gameSessions session).gameRoom then Game.handleCMove send fuel pkt st else .ok st

/-- `ServerPacketHandler::HandlePacket` -/
def handlePacket (session : SessionId) (buffer : List UInt8) (st : Game ν) : Outcome (Game ν) :=
  -- `Peek` leaves the header as it is when there is none: uninitialized
  if buffer.length < sizeofPacketHeader then .error .undefined
  else if (PacketHeader.read buffer).id = C_Move then handleCMove parse send fuel session buffer st
  else .ok st

end ServerPacketHandler

end

/-- What `GameSession` calls in the game: `GRoom` and the packet handler. -/
def gameContent (parse : List UInt8 → CMove) (fuel : ℕ) : Content Room where
  enterRoom api := Game.enterRoom api.send fuel
  leaveRoom api := Game.leaveRoom api.send fuel
  handlePacket api := ServerPacketHandler.handlePacket parse api.send fuel

/-! ## The main loop -/

/-- What the main loop does, one after the other: `Dispatch` of a completion, and
`GRoom->Update()`, with what `GetTickCount64` returns and what the queue of `FindPath`
gives out meanwhile. -/
inductive Turn
  | dispatch (event : Event)
  | update (ticks : List UInt64) (pick : Pick)

def Turn.Enabled (net : Net) : Turn → Prop
  | .dispatch event => event.Enabled net
  | .update _ _ => True

/-- `fuel` bounds the loops and how deep the calls of `Disconnect` nest. -/
def Turn.run (parse : List UInt8 → CMove) (fuel : ℕ) (st : Server Room) : Turn → Outcome (Server Room)
  | .dispatch event => ZeldaServer.dispatch (gameContent parse fuel) fuel st event
  | .update ticks pick => Game.updateRoom (api (gameContent parse fuel) fuel).send pick fuel
      (Game.update st fun room => { room with ticks := ticks })

end ZeldaServer
