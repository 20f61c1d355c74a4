import ZeldaServer.Lib.RangeFor
import ZeldaServer.Spec.FindPath
import ZeldaServer.Spec.Session

/-!
# Game objects

The objects of the room, the pointers to them, and the functions of `GameObject` that
send nothing. A pointer is a place in `objects`, which keeps an object when it has been
destroyed; `useCount` counts the `shared_ptr`s to it, those of local variables
included, and a `weak_ptr` resolves while it is positive.
-/

namespace ZeldaServer

open Lib Std

/-- A pointer to a game object. -/
abbrev Ref := ℕ

/-- The fields of `Monster`. -/
structure Monster where
  waitMoveUntil : UInt64 := 0
  waitAttackUntil : UInt64 := 0
  /-- `_target`, a `weak_ptr` -/
  target : Option Ref := none
  deriving DecidableEq, Repr

/-- The class of an object, with its own fields. -/
inductive Kind
  | player (session : Option SessionId)
  | monster (fields : Monster)
  deriving DecidableEq, Repr

structure GameObject where
  info : ObjectInfo := {}
  /-- `room` points to the room (there is one); otherwise it is null -/
  room : Bool := false
  kind : Kind
  deriving DecidableEq, Repr

def GameObject.getCellPos (o : GameObject) : VectorInt := ⟨o.info.posx, o.info.posy⟩

def GameObject.getLookAtDir (o : GameObject) (cellPos : VectorInt) : Dir :=
  let dir := cellPos.sub o.getCellPos
  if dir.x > 0 then .right else if dir.x < 0 then .left else if dir.y > 0 then .down else .up

def GameObject.getFrontCellPos (o : GameObject) : VectorInt :=
  match o.info.dir with
  | .up => o.getCellPos.add ⟨0, -1⟩
  | .down => o.getCellPos.add ⟨0, 1⟩
  | .left => o.getCellPos.add ⟨-1, 0⟩
  | .right => o.getCellPos.add ⟨1, 0⟩
  | .other _ => o.getCellPos

/-- The constructor of `Monster` sets these: `Monster_Snake`. -/
def Monster.info : ObjectInfo where
  name := [77, 111, 110, 115, 116, 101, 114, 95, 83, 110, 97, 107, 101]
  hp := 50
  maxhp := 50
  attack := 5
  defence := 0

/-- The fields of `GameSession`: weak pointers to the room and to the player. -/
structure GameSession where
  gameRoom : Bool := false
  player : Option Ref := none
  deriving DecidableEq, Repr

/-- What the clients can be told about: the objects, and which are in the room. -/
structure Scene where
  /-- every object that was created, in this order -/
  objects : List GameObject := []
  players : TreeMap UInt64 Ref := ∅
  monsters : TreeMap UInt64 Ref := ∅
  /-- `GameObject::s_idGenerator` -/
  idGenerator : UInt64 := 1
  gameSessions : SessionId → GameSession := fun _ => {}

/-- The room, and the rest of the memory. -/
structure Room extends Scene where
  useCount : Ref → ℕ := fun _ => 0
  tilemap : TileMap := {}
  /-- what the next calls of `GetTickCount64` return; the last one is repeated -/
  ticks : List UInt64 := []

abbrev Game (ν : Type) := State ν Room

/-- The two maps of the room. -/
inductive Roster
  | players
  | monsters
  deriving DecidableEq, Repr

/-- The map that the `switch`es on the type of an object select. -/
def ObjectType.roster : ObjectType → Option Roster
  | .player => some .players
  | .monster => some .monsters
  | .none => Option.none
  | .other _ => Option.none

namespace Scene

def roster (sc : Scene) : Roster → TreeMap UInt64 Ref
  | .players => sc.players
  | .monsters => sc.monsters

def setRoster (sc : Scene) (which : Roster) (m : TreeMap UInt64 Ref) : Scene :=
  match which with
  | .players => { sc with players := m }
  | .monsters => { sc with monsters := m }

def modify (sc : Scene) (r : Ref) (f : GameObject → GameObject) : Scene :=
  { sc with objects := sc.objects.modify r f }

/-- `GameRoom::FindObject` -/
def findObject (sc : Scene) (id : UInt64) : Option Ref :=
  match sc.players[id]? with
  | some r => some r
  | none => sc.monsters[id]?

end Scene

namespace Room

/-- Access through a pointer, to an object that has not been destroyed. -/
def deref (room : Room) (r : Ref) : Outcome GameObject :=
  match room.objects[r]? with
  | some o => if 0 < room.useCount r then .ok o else .error .undefined
  | none => .error .undefined

def modify (room : Room) (r : Ref) (f : GameObject → GameObject) : Room :=
  { room with toScene := room.toScene.modify r f }

def modifyInfo (room : Room) (r : Ref) (f : ObjectInfo → ObjectInfo) : Room :=
  room.modify r fun o => { o with info := f o.info }

/-- A new `shared_ptr` to `r`. -/
def retain (room : Room) (r : Ref) : Room :=
  { room with useCount := Function.update room.useCount r (room.useCount r + 1) }

/-- The end of a `shared_ptr` to `r`. -/
def release (room : Room) (r : Ref) : Room :=
  { room with useCount := Function.update room.useCount r (room.useCount r - 1) }

/-- `map[id] = r`: the pointer that was there ends. -/
def assign (room : Room) (which : Roster) (id : UInt64) (r : Ref) : Room :=
  let counted :=
    match (room.roster which)[id]? with
    | some old => (room.retain r).release old
    | none => room.retain r
  { counted with toScene := room.toScene.setRoster which ((room.roster which).insert id r) }

/-- `map.erase(id)` -/
def erase (room : Room) (which : Roster) (id : UInt64) : Room :=
  let counted :=
    match (room.roster which)[id]? with
    | some old => room.release old
    | none => room
  { counted with toScene := room.toScene.setRoster which ((room.roster which).erase id) }

/-- `weak_ptr::lock`, without the `shared_ptr`. -/
def lock (room : Room) (p : Option Ref) : Option Ref := p.filter fun r => 0 < room.useCount r

/-- `make_shared`, and the assignments to `s_idGenerator`. -/
def create (room : Room) (o : GameObject) : Ref × Room :=
  let r := room.objects.length
  (r, { room with
    objects := room.objects ++ [o]
    useCount := Function.update room.useCount r 1
    idGenerator := room.idGenerator + 1 })

/-- `GameObject::CreatePlayer` -/
def createPlayer (room : Room) : Ref × Room :=
  room.create {
    info := {
      objectid := room.idGenerator
      objecttype := .player
      posx := 5
      posy := 5
      maxhp := 100
      hp := 100
      attack := 30
      defence := 0 }
    kind := .player none }

/-- `GameObject::CreateMonster` -/
def createMonster (room : Room) : Ref × Room :=
  room.create {
    info := { Monster.info with objectid := room.idGenerator, objecttype := .monster }
    kind := .monster {} }

/-- `GetTickCount64` -/
def getTickCount64 (room : Room) : UInt64 × Room :=
  match room.ticks with
  | [] => (0, room)
  | [now] => (now, room)
  | now :: ticks => (now, { room with ticks := ticks })

/-! ## Looking around -/

/-- The loop of `GetGameObjectAt` over one of the maps. -/
def findAt (room : Room) (cellPos : VectorInt) : List Ref → Outcome (Option Ref)
  | [] => .ok none
  | r :: rs => do
    let o ← room.deref r
    if o.getCellPos = cellPos then .ok (some r) else findAt room cellPos rs

def getGameObjectAt (room : Room) (cellPos : VectorInt) : Outcome (Option Ref) := do
  match ← room.findAt cellPos (elements room.players) with
  | some r => .ok (some r)
  | none => room.findAt cellPos (elements room.monsters)

def canGo (room : Room) (cellPos : VectorInt) : Outcome Bool :=
  match room.tilemap.getTileAt cellPos with
  | none => .ok false
  | some value => do
    let gameObject ← room.getGameObjectAt cellPos
    .ok (gameObject.isNone && value != 1)

def findClosestPlayer (room : Room) (cellPos : VectorInt) : Outcome (Option Ref) := do
  let (_, ret) ← (elements room.players).foldlM (fun (best, ret) r => do
    let player ← room.deref r
    let dist := (cellPos.sub player.getCellPos).lengthSquared
    .ok (if dist < best then (dist, some r) else (best, ret))) (FLT_MAX, none)
  .ok ret

end Room

end ZeldaServer
