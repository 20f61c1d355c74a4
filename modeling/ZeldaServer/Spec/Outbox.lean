import ZeldaServer.Lib.Runs
import ZeldaServer.Spec.GameRoom

/-!
# The room with sends that do not fail

`Send` taken as appending to the outbox of the session: the state of the sessions is
the list of messages sent to each.
-/

namespace ZeldaServer

open Lib

/-- The messages sent to each session, in order. -/
abbrev Outboxes := SessionId → List Msg

/-- `Session::Send` of a session that does not fail. -/
def post (session : SessionId) (sendBuffer : Packet) (st : Game Outboxes) : Outcome (Game Outboxes) :=
  .ok { st with net := Function.update st.net session (st.net session ++ [sendBuffer.msg]) }

/-- The server before `GRoom->Init()`. -/
def roomStart : Game Outboxes := { net := fun _ => [], game := {} }

/-- A session enters the room once: `EnterRoom` is called by `OnConnected` only. -/
def RoomOp.Fresh (st : Game Outboxes) : RoomOp → Prop
  | .enterRoom session => (st.game.gameSessions session).player = none
  | _ => True

instance (st : Game Outboxes) (op : RoomOp) : Decidable (op.Fresh st) :=
  match op with
  | .enterRoom session => inferInstanceAs (Decidable ((st.game.gameSessions session).player = none))
  | .init _ | .leaveRoom _ | .handleCMove _ | .update _ _ => inferInstanceAs (Decidable True)

/-- The operation creates an object. -/
def RoomOp.creates : RoomOp → Bool
  | .init _ => true
  | .enterRoom _ => true
  | _ => false

/-- One operation on the room, which returns. -/
def RoomStep (st : Game Outboxes) (op : RoomOp) (st' : Game Outboxes) : Prop :=
  op.Fresh st ∧ ∃ fuel, op.run post fuel st = .ok st'

/-- A new player moves to the cell `(7, 8)` and attacks the cell on its right. -/
def swing (id : UInt64) : CMove where
  info? := some {
    objectid := id
    objecttype := .player
    state := .skill
    dir := .right
    hp := 100
    maxhp := 100
    attack := 30
    posx := 7
    posy := 8 }

/-- One operation, with fuel for a small room. -/
def roomExec (st : Game Outboxes) (op : RoomOp) : Option (Game Outboxes) :=
  if op.Fresh st then (op.run post 20 st).toOption else none

theorem roomExec_step {st st' : Game Outboxes} {op : RoomOp} (h : roomExec st op = some st') : RoomStep st op st' := by
  unfold roomExec at h
  split at h
  · rename_i hfresh
    exact ⟨hfresh, 20, toOption_eq_some.1 h⟩
  · cases h

/-- The run that `roomExec` computes. -/
theorem roomExec_runs {st : Game Outboxes} {ops : List RoomOp} (h : ops.foldlM roomExec roomStart = some st) :
    Runs RoomStep roomStart ops st :=
  (Runs.ofFold roomExec roomStart ops h).mono fun _ _ _ => roomExec_step

/-- An element of one of the maps. -/
def Room.Contains (room : Room) (r : Ref) : Prop :=
  ∃ id : UInt64, room.players[id]? = some r ∨ room.monsters[id]? = some r

/-- The player of the session is in `_players`. -/
def Room.Hosts (room : Room) (session : SessionId) : Prop :=
  ∃ (id : UInt64) (r : Ref) (o : GameObject), room.players[id]? = some r ∧ room.objects[r]? = some o ∧
    o.kind = .player (some session)

end ZeldaServer
