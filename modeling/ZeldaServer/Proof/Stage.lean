import ZeldaServer.Lib.Runs
import ZeldaServer.Spec.GameRoom

/-!
# The stage and its acts

A stage is a scene together with the sessions. Whatever the functions of the room do
is a sequence of acts on it: an object enters, a monster spawns or thinks, an object
moves or is hit, an object leaves, and each act says what is broadcast. `B` is the
effect of a broadcast on the sessions, and `U` the effect of a send to one of them.
-/

namespace ZeldaServer

open Lib Std

variable {ν : Type}

abbrev Stage (ν : Type) := State ν Scene

/-- The stage of a state: without use counts, map and clock. -/
def Game.stage (st : Game ν) : Stage ν := { net := st.net, game := st.game.toScene }

/-- The id of the object that was created as number `r`. -/
def key (r : Ref) : UInt64 := UInt64.ofNat (r + 1)

namespace Scene

/-- The object is in one of the maps. -/
def Inside (sc : Scene) (r : Ref) : Prop := sc.players[key r]? = some r ∨ sc.monsters[key r]? = some r

/-- No object in the room stands on the cell. -/
def Vacant (sc : Scene) (cellPos : VectorInt) : Prop :=
  ∀ (r : Ref) (o : GameObject), sc.Inside r → sc.objects[r]? = some o → o.getCellPos ≠ cellPos

/-- The player that `EnterRoom` makes, in the room. -/
def newPlayer (sc : Scene) (session : SessionId) : GameObject where
  info := {
    objectid := sc.idGenerator
    objecttype := .player
    posx := 5
    posy := 5
    maxhp := 100
    hp := 100
    attack := 30
    defence := 0 }
  room := true
  kind := .player (some session)

/-- The monster that `Init` makes, in the room. -/
def newMonster (sc : Scene) : GameObject where
  info := { Monster.info with objectid := sc.idGenerator, objecttype := .monster, posx := 8, posy := 8 }
  room := true
  kind := .monster {}

/-- The scene after `EnterRoom`. -/
def enter (sc : Scene) (session : SessionId) : Scene where
  objects := sc.objects ++ [sc.newPlayer session]
  players := sc.players.insert sc.idGenerator sc.objects.length
  monsters := sc.monsters
  idGenerator := sc.idGenerator + 1
  gameSessions := Function.update sc.gameSessions session { gameRoom := true, player := some sc.objects.length }

/-- The scene after the monster of `Init` was added. -/
def spawn (sc : Scene) : Scene :=
  { sc with
    objects := sc.objects ++ [sc.newMonster]
    monsters := sc.monsters.insert sc.idGenerator sc.objects.length
    idGenerator := sc.idGenerator + 1 }

def modifyInfo (sc : Scene) (r : Ref) (f : ObjectInfo → ObjectInfo) : Scene :=
  sc.modify r fun o => { o with info := f o.info }

/-- The object `r`, whose type selects the map `which`, is taken out of the room. -/
def drop (sc : Scene) (which : Roster) (r : Ref) (id : UInt64) : Scene :=
  (sc.setRoster which ((sc.roster which).erase id)).modify r fun o => { o with room := false }

end Scene

/-- The state, direction and cell that `told` carries. -/
def ObjectInfo.follow (info told : ObjectInfo) : ObjectInfo :=
  { info with state := told.state, dir := told.dir, posx := told.posx, posy := told.posy }

/-- The record after `attack` was taken from its hp. -/
def ObjectInfo.hurt (info : ObjectInfo) (attack : Int32) : ObjectInfo := { info with hp := info.hp - attack }

/-- What a monster changes without telling: its state, its clocks and its target. -/
structure Musing (sc : Scene) (f : GameObject → GameObject) : Prop where
  info : ∀ o, ∃ state, (f o).info = { o.info with state := state }
  room : ∀ o, (f o).room = o.room
  player : ∀ o session, o.kind = .player session → (f o).kind = .player session
  monster : ∀ o m, o.kind = .monster m → ∃ m', (f o).kind = .monster m' ∧
    (m'.target = m.target ∨ m'.target = none ∨ ∃ (k : UInt64) (t : Ref), sc.players[k]? = some t ∧ m'.target = some t)

inductive Label
  | enter (session : SessionId)
  | spawn
  /-- a monster changes what no client sees -/
  | think (r : Ref)
  /-- a monster moves, and tells its own record -/
  | walk (r : Ref) (told : ObjectInfo)
  /-- an object moves as a packet says, and the record of the packet is told -/
  | report (r : Ref) (told : ObjectInfo)
  /-- an attack that leaves its target alive -/
  | hit (attacker target : Ref)
  /-- an attack that does not -/
  | kill (attacker target : Ref)
  | leave (id : UInt64)
  deriving DecidableEq, Repr

section

variable (B : Scene → Msg → ν → ν → Prop) (U : SessionId → Msg → ν → ν → Prop)

/-- `RemoveObject(id)`: whatever object the id is found for leaves. -/
inductive Removes (v : Stage ν) (id : UInt64) : Stage ν → Prop
  | missing : v.game.findObject id = none → Removes v id v
  | found {r : Ref} {o : GameObject} {which : Roster} {net : ν} : v.game.findObject id = some r →
      v.game.objects[r]? = some o → o.info.objecttype.roster = some which →
      B v.game (.removeObject [id]) v.net net → Removes v id ⟨net, v.game.drop which r id⟩

/-- `attacker` takes its attack from the hp of `target`, and tells both records. -/
inductive Strikes (v : Stage ν) (attacker target : Ref) : ObjectInfo → Stage ν → Prop
  | mk {a t : GameObject} {net : ν} : attacker ≠ target → v.game.Inside attacker → v.game.Inside target →
      v.game.objects[attacker]? = some a → v.game.objects[target]? = some t →
      B (v.game.modifyInfo target (·.hurt a.info.attack)) (.attack (t.info.hurt a.info.attack) a.info)
        v.net net →
      Strikes v attacker target (t.info.hurt a.info.attack)
        ⟨net, v.game.modifyInfo target (·.hurt a.info.attack)⟩

inductive Act (v : Stage ν) : Label → Stage ν → Prop
  | enter {session : SessionId} {objects : List ObjectInfo} {net₁ net₂ net₃ : ν} :
      (v.game.gameSessions session).player = none →
      U session (.myPlayer (v.game.newPlayer session).info) v.net net₁ →
      (elements v.game.players ++ elements v.game.monsters).map (fun r => (v.game.objects[r]?).map (·.info)) =
        objects.map some →
      U session (.addObject objects) net₁ net₂ →
      B (v.game.enter session) (.addObject [(v.game.newPlayer session).info]) net₂ net₃ →
      Act v (.enter session) ⟨net₃, v.game.enter session⟩
  | spawn {net : ν} : B v.game.spawn (.addObject [v.game.newMonster.info]) v.net net →
      Act v .spawn ⟨net, v.game.spawn⟩
  | think {r : Ref} {f : GameObject → GameObject} : Musing v.game f →
      Act v (.think r) ⟨v.net, v.game.modify r f⟩
  | walk {r : Ref} {o : GameObject} {told : ObjectInfo} {net : ν} : v.game.Inside r →
      v.game.objects[r]? = some o → told = o.info.follow told →
      o.getCellPos = ⟨told.posx, told.posy⟩ ∨ v.game.Vacant ⟨told.posx, told.posy⟩ →
      B (v.game.modifyInfo r (·.follow told)) (.move told) v.net net →
      Act v (.walk r told) ⟨net, v.game.modifyInfo r (·.follow told)⟩
  | report {r : Ref} {o : GameObject} {told : ObjectInfo} {net : ν} : v.game.Inside r →
      v.game.objects[r]? = some o → told.objectid = o.info.objectid →
      B (v.game.modifyInfo r (·.follow told)) (.move told) v.net net →
      Act v (.report r told) ⟨net, v.game.modifyInfo r (·.follow told)⟩
  | hit {attacker target : Ref} {info : ObjectInfo} {v' : Stage ν} :
      Strikes B v attacker target info v' → 0 < info.hp → Act v (.hit attacker target) v'
  | kill {attacker target : Ref} {info : ObjectInfo} {f : GameObject → GameObject} {v' v'' : Stage ν} :
      Strikes B v attacker target info v' → info.hp ≤ 0 → Musing v'.game f →
      Removes B ⟨v'.net, v'.game.modify attacker f⟩ info.objectid v'' → Act v (.kill attacker target) v''
  | leave {id : UInt64} {v' : Stage ν} : Removes B v id v' → Act v (.leave id) v'

end

end ZeldaServer
