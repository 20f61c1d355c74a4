import ZeldaServer.Spec.SendBuffer

/-!
# The messages of the protocol

The messages of `Protocol.proto` that the server sends and receives, with the bytes
that the generated code serializes them to: fields in the order of their numbers,
fields with their default value left out, unknown fields last. `ServerPacketHandler`
puts a packet around each message.
-/

namespace ZeldaServer

open Lib

/-! ## Enums

Fields of enum type are open: they keep every `int32` that they are given. -/

/-- `Protocol::OBJECT_TYPE` -/
inductive ObjectType
  | none
  | player
  | monster
  | other (value : Int32)
  deriving DecidableEq, Repr

/-- `Protocol::OBJECT_STATE_TYPE` -/
inductive ObjectState
  | idle
  | move
  | skill
  | other (value : Int32)
  deriving DecidableEq, Repr

/-- `Protocol::DIR_TYPE` -/
inductive Dir
  | up
  | down
  | left
  | right
  | other (value : Int32)
  deriving DecidableEq, Repr

def ObjectType.value : ObjectType → Int32
  | .none => 0
  | .player => 1
  | .monster => 2
  | .other v => v

def ObjectState.value : ObjectState → Int32
  | .idle => 0
  | .move => 1
  | .skill => 2
  | .other v => v

def Dir.value : Dir → Int32
  | .up => 0
  | .down => 1
  | .left => 2
  | .right => 3
  | .other v => v

/-! ## Serialization -/

/-- A base 128 varint of at most ten bytes. -/
def varintLoop : ℕ → ℕ → List UInt8
  | 0, _ => []
  | fuel + 1, n => if n < 128 then [UInt8.ofNat n] else UInt8.ofNat (n % 128 + 128) :: varintLoop fuel (n / 128)

def varint (n : UInt64) : List UInt8 := varintLoop 10 n.toNat

/-- A varint field; the default value is left out. -/
def uint64Field (fieldNumber : ℕ) (n : UInt64) : List UInt8 :=
  if n = 0 then [] else varint (UInt64.ofNat (8 * fieldNumber)) ++ varint n

/-- An `int32` or enum field: the value is sign extended to 64 bits. -/
def int32Field (fieldNumber : ℕ) (n : Int32) : List UInt8 :=
  uint64Field fieldNumber n.toInt64.toUInt64

/-- A length-delimited field. -/
def bytesField (fieldNumber : ℕ) (bytes : List UInt8) : List UInt8 :=
  varint (UInt64.ofNat (8 * fieldNumber + 2)) ++ varint (UInt64.ofNat bytes.length) ++ bytes

/-- `Protocol::ObjectInfo` -/
structure ObjectInfo where
  objectid : UInt64 := 0
  objecttype : ObjectType := .none
  state : ObjectState := .idle
  dir : Dir := .up
  name : List UInt8 := []
  hp : Int32 := 0
  maxhp : Int32 := 0
  attack : Int32 := 0
  defence : Int32 := 0
  posx : Int32 := 0
  posy : Int32 := 0
  unknownFields : List UInt8 := []
  deriving DecidableEq, Repr

def ObjectInfo.serialize (info : ObjectInfo) : List UInt8 :=
  uint64Field 1 info.objectid ++ int32Field 2 info.objecttype.value ++ int32Field 3 info.state.value ++
    int32Field 4 info.dir.value ++ (if info.name = [] then [] else bytesField 5 info.name) ++
    int32Field 6 info.hp ++ int32Field 7 info.maxhp ++ int32Field 8 info.attack ++
    int32Field 9 info.defence ++ int32Field 10 info.posx ++ int32Field 11 info.posy ++ info.unknownFields

/-- `Protocol::C_Move`; `pkt.info()` of a message without one is the default instance. -/
structure CMove where
  info? : Option ObjectInfo := none
  unknownFields : List UInt8 := []
  deriving DecidableEq, Repr

def CMove.info (pkt : CMove) : ObjectInfo := pkt.info?.getD {}

def CMove.serialize (pkt : CMove) : List UInt8 :=
  (match pkt.info? with
    | none => []
    | some info => bytesField 1 info.serialize) ++ pkt.unknownFields

/-- The messages that the server sends. -/
inductive Msg
  | enterGame (success : Bool) (accountid : UInt64)
  | myPlayer (info : ObjectInfo)
  | addObject (objects : List ObjectInfo)
  | removeObject (id : List UInt64)
  | move (info : ObjectInfo)
  | attack (targetinfo attackerinfo : ObjectInfo)
  deriving DecidableEq, Repr

def Msg.serialize : Msg → List UInt8
  | .enterGame success accountid => uint64Field 1 (if success then 1 else 0) ++ uint64Field 2 accountid
  | .myPlayer info => bytesField 1 info.serialize
  | .addObject objects => objects.flatMap fun info => bytesField 1 info.serialize
  | .removeObject id => if id = [] then [] else bytesField 1 (id.flatMap varint)
  | .move info => bytesField 1 info.serialize
  | .attack targetinfo attackerinfo =>
    bytesField 1 targetinfo.serialize ++ bytesField 2 attackerinfo.serialize

/-- The packet ids of `ServerPacketHandler.h`. -/
def Msg.pktId : Msg → UInt16
  | .enterGame _ _ => 2
  | .myPlayer _ => 4
  | .addObject _ => 5
  | .removeObject _ => 6
  | .move _ => 11
  | .attack _ _ => 20

/-! ## Packets -/

/-- A send buffer, and the message it was made from. -/
structure Packet where
  msg : Msg
  sendBuffer : SendBuffer
  deriving DecidableEq, Repr

namespace ServerPacketHandler

/-- `MakeSendBuffer(pkt, id)` -/
def make (msg : Msg) : Outcome Packet := do
  let sendBuffer ← makeSendBuffer msg.serialize msg.pktId
  .ok { msg := msg, sendBuffer := sendBuffer }

def makeSEnterGame : Outcome Packet := make (.enterGame true 0)

def makeSMyPlayer (info : ObjectInfo) : Outcome Packet := make (.myPlayer info)

def makeSAddObject (objects : List ObjectInfo) : Outcome Packet := make (.addObject objects)

def makeSRemoveObject (id : List UInt64) : Outcome Packet := make (.removeObject id)

def makeSMove (info : ObjectInfo) : Outcome Packet := make (.move info)

def makeSAttack (targetInfo attackerInfo : ObjectInfo) : Outcome Packet :=
  make (.attack targetInfo attackerInfo)

/-- The packet that `make` returns carries the message it was given. -/
theorem make_msg {msg : Msg} {packet : Packet} (h : make msg = .ok packet) : packet.msg = msg := by
  obtain ⟨sendBuffer, -, h⟩ := bind_eq_ok.1 h
  cases h
  rfl

end ServerPacketHandler

end ZeldaServer
