import Mathlib.Data.Finset.Insert
import ZeldaServer.Spec.Outbox

/-!
# What a client makes of its messages

A client that replays the messages of its session in order: the ids it knows
(`Feed`), and the records it holds (`Replica`).
-/

namespace ZeldaServer

open Lib

/-- The ids that have been added and not removed, and those that have been removed. -/
structure Feed where
  known : Finset UInt64 := ∅
  gone : Finset UInt64 := ∅

namespace Feed

/-- A new id, that was never removed. -/
def add (f : Feed) (id : UInt64) : Option Feed :=
  if id ∈ f.known ∨ id ∈ f.gone then none else some { f with known := insert id f.known }

/-- A known id goes. -/
def remove (f : Feed) (id : UInt64) : Option Feed :=
  if id ∈ f.known then some { known := f.known.erase id, gone := insert id f.gone } else none

/-- A message that names a known id. -/
def mention (f : Feed) (id : UInt64) : Option Feed := if id ∈ f.known then some f else none

/-- One message; none when it does not fit what was sent before. -/
def step (f : Feed) : Msg → Option Feed
  | .enterGame _ _ => some f
  | .myPlayer info => if info.objectid ∈ f.gone then none else some f
  | .addObject objects => objects.foldlM (fun f info => f.add info.objectid) f
  | .removeObject ids => ids.foldlM remove f
  | .move info => f.mention info.objectid
  | .attack targetinfo attackerinfo => (f.mention targetinfo.objectid).bind fun f => f.mention attackerinfo.objectid

def replay (msgs : List Msg) : Option Feed := msgs.foldlM step {}

end Feed

/-- The record that a client holds of each id. -/
abbrev Replica := UInt64 → Option ObjectInfo

namespace Replica

/-- A record overwrites that of its id. -/
def put (m : Replica) (info : ObjectInfo) : Replica := Function.update m info.objectid (some info)

def step (m : Replica) : Msg → Replica
  | .addObject objects => objects.foldl put m
  | .removeObject ids => ids.foldl (fun m id => Function.update m id none) m
  | .move info => m.put info
  | .attack targetinfo attackerinfo => (m.put targetinfo).put attackerinfo
  | .enterGame _ _ => m
  | .myPlayer _ => m

def replay (msgs : List Msg) : Replica := msgs.foldl step fun _ => none

end Replica

/-- The records agree on everything but the state. -/
structure ObjectInfo.Agrees (info info' : ObjectInfo) : Prop where
  objectid : info.objectid = info'.objectid
  objecttype : info.objecttype = info'.objecttype
  name : info.name = info'.name
  hp : info.hp = info'.hp
  maxhp : info.maxhp = info'.maxhp
  attack : info.attack = info'.attack
  defence : info.defence = info'.defence
  posx : info.posx = info'.posx
  posy : info.posy = info'.posy
  dir : info.dir = info'.dir

/-- The records agree on the fields that a move leaves alone. -/
structure ObjectInfo.SameStats (info info' : ObjectInfo) : Prop where
  objecttype : info.objecttype = info'.objecttype
  name : info.name = info'.name
  hp : info.hp = info'.hp
  maxhp : info.maxhp = info'.maxhp
  attack : info.attack = info'.attack
  defence : info.defence = info'.defence

/-- When there is a player to see it, the packet carries the server's values of the fields
that it does not change, for the object it names. -/
def CMove.Honest (room : Room) (pkt : CMove) : Prop :=
  (∃ id : UInt64, room.players[id]? ≠ none) → ∀ (r : Ref) (o : GameObject),
    room.toScene.findObject pkt.info.objectid = some r → room.objects[r]? = some o → pkt.info.SameStats o.info

instance (info info' : ObjectInfo) : Decidable (info.SameStats info') :=
  decidable_of_iff (info.objecttype = info'.objecttype ∧ info.name = info'.name ∧ info.hp = info'.hp ∧
      info.maxhp = info'.maxhp ∧ info.attack = info'.attack ∧ info.defence = info'.defence)
    ⟨fun ⟨h1, h2, h3, h4, h5, h6⟩ => ⟨h1, h2, h3, h4, h5, h6⟩, fun ⟨h1, h2, h3, h4, h5, h6⟩ => ⟨h1, h2, h3, h4, h5, h6⟩⟩

def RoomOp.Honest (room : Room) : RoomOp → Prop
  | .handleCMove pkt => pkt.Honest room
  | _ => True

/-- One operation, whose packet is honest. -/
def HonestStep (st : Game Outboxes) (op : RoomOp) (st' : Game Outboxes) : Prop :=
  RoomStep st op st' ∧ op.Honest st.game

/-- One operation, whose packet carries the server's values whoever sees it. -/
def honestExec (st : Game Outboxes) (op : RoomOp) : Option (Game Outboxes) :=
  match op with
  | .handleCMove pkt =>
    if ∀ r ∈ st.game.findObject pkt.info.objectid, ∀ o ∈ st.game.objects[r]?, pkt.info.SameStats o.info then
      roomExec st (.handleCMove pkt)
    else none
  | op => roomExec st op

theorem honestExec_runs {st : Game Outboxes} {ops : List RoomOp} (h : ops.foldlM honestExec roomStart = some st) :
    Runs HonestStep roomStart ops st := by
  refine (Runs.ofFold honestExec roomStart ops h).mono fun st op st' hstep => ?_
  unfold honestExec at hstep
  split at hstep
  · split at hstep
    · rename_i hsame
      exact ⟨roomExec_step hstep, fun _ r o hf ho => hsame r hf o ho⟩
    · cases hstep
  · rename_i hop
    refine ⟨roomExec_step hstep, ?_⟩
    cases op with
    | handleCMove pkt => exact absurd rfl (hop pkt)
    | init | enterRoom | leaveRoom | update => trivial

end ZeldaServer
