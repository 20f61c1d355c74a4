import ZeldaServer.Spec.Parse

/-!
# Parsing the messages of the server

The parsers that were generated for the messages that the server sends, as a client runs
them, and `MergeFrom`. What is read of unknown fields of these messages is left out: nobody
reads it.
-/

namespace ZeldaServer

/-! ## Merging -/

/-- `ObjectInfo::MergeFrom`: fields with their default value are left alone. -/
def ObjectInfo.mergeFrom (info source : ObjectInfo) : ObjectInfo where
  objectid := if source.objectid ≠ 0 then source.objectid else info.objectid
  objecttype := if source.objecttype.value ≠ 0 then source.objecttype else info.objecttype
  state := if source.state.value ≠ 0 then source.state else info.state
  dir := if source.dir.value ≠ 0 then source.dir else info.dir
  name := if source.name ≠ [] then source.name else info.name
  hp := if source.hp ≠ 0 then source.hp else info.hp
  maxhp := if source.maxhp ≠ 0 then source.maxhp else info.maxhp
  attack := if source.attack ≠ 0 then source.attack else info.attack
  defence := if source.defence ≠ 0 then source.defence else info.defence
  posx := if source.posx ≠ 0 then source.posx else info.posx
  posy := if source.posy ≠ 0 then source.posy else info.posy
  unknownFields := info.unknownFields ++ source.unknownFields

/-- `C_Move::MergeFrom` -/
def CMove.mergeFrom (pkt source : CMove) : CMove where
  unknownFields := pkt.unknownFields ++ source.unknownFields
  info? :=
    match source.info? with
    | none => pkt.info?
    | some info => some (pkt.info.mergeFrom info)

/-! ## The stream -/

namespace ParseContext

variable (ctx : ParseContext) (ptr : ℕ)

def dataAvailable : Bool := ptr < min ctx.bufferEnd ctx.limit

/-- The loop of `ReadPackedVarint`; what has been added stays when it fails. -/
def packedVarints : ℕ → List UInt64 → ParseContext → ℕ → List UInt64 × Option (ℕ × ParseContext)
  | 0, values, _, _ => (values, none)
  | fuel + 1, values, ctx, ptr =>
    match ctx.done ptr with
    | none => (values, none)
    | some (true, ctx) => (values, some (ptr, ctx))
    | some (false, ctx) =>
      match ctx.readVarint ptr with
      | none => (values, none)
      | some (ptr, varint) => packedVarints fuel (values ++ [varint]) ctx ptr

/-- `PopLimit` -/
def popLimit (old : ℕ) : Option (ℕ × ParseContext) → Option (ℕ × ParseContext)
  | none => none
  | some (ptr, ctx) => if ctx.endedAtLimit then some (ptr, { ctx with limit := old }) else none

/-- `ReadPackedVarint` -/
def readPackedVarint (values : List UInt64) : List UInt64 × Option (ℕ × ParseContext) :=
  match ctx.readSize ptr with
  | none => (values, none)
  | some (ptr, size) =>
    if ctx.limit < ptr + size then (values, none)
    else
      let (values, res) := packedVarints ctx.rounds values { ctx with limit := ptr + size } ptr
      (values, popLimit ctx.limit res)

end ParseContext

open ParseContext

/-- `ParseContext::ParseMessage` of an `ObjectInfo` -/
def ObjectInfo.parseMessage (info : ObjectInfo) (ctx : ParseContext) (ptr : ℕ) : ObjectInfo × Option (ℕ × ParseContext) :=
  match ctx.readSize ptr with
  | none => (info, none)
  | some (ptr, size) =>
    if ctx.depth = 0 then (info, none)
    else
      let (info, res) := info.internalParse ctx.rounds { ctx with limit := ptr + size, depth := ctx.depth - 1 } ptr
      (info, popLimit ctx.limit (res.map fun (ptr, ctx) => (ptr, { ctx with depth := ctx.depth + 1 })))

/-! ## The generated parsers -/

/-- The cases of a `switch` over the tag: the message after a field, and where it ends;
`none` for `handle_unusual`. -/
abbrev Switch (μ : Type) := μ → ParseContext → ℕ → UInt32 → Option (μ × Option (ℕ × ParseContext))

/-- `_InternalParse` of a message with these cases. -/
def messageLoop {μ : Type} (switch : Switch μ) : ℕ → μ → ParseContext → ℕ → μ × Option (ℕ × ParseContext)
  | 0, msg, _, _ => (msg, none)
  | fuel + 1, msg, ctx, ptr =>
    match ctx.done ptr with
    | none => (msg, none)
    | some (true, ctx) => (msg, some (ptr, ctx))
    | some (false, ctx) =>
      match ctx.readTag ptr with
      | none => (msg, none)
      | some (ptr, tag) =>
        match switch msg ctx ptr tag with
        | some (msg, none) => (msg, none)
        | some (msg, some (ptr, ctx)) => messageLoop switch fuel msg ctx ptr
        | none =>
          if ends tag then (msg, some (ptr, ctx.setLastTag tag))
          else
            match (ctx.unknownFieldParse ptr tag).2 with
            | none => (msg, none)
            | some (ptr, ctx) => messageLoop switch fuel msg ctx ptr

/-- `ParseFromArray` of a new message: whether it succeeds, and the message. -/
def parseFromArray {μ : Type} (switch : Switch μ) (msg : μ) (data : List UInt8) : Bool × μ :=
  let ctx := ParseContext.initFrom data
  let (msg, res) := messageLoop switch ctx.rounds msg ctx 0
  (match res with
    | none => false
    | some (_, ctx) => ctx.endedAtLimit, msg)

/-- `Protocol::S_EnterGame` -/
structure SEnterGame where
  success : Bool := false
  accountid : UInt64 := 0
  deriving DecidableEq, Repr

/-- A varint that is too long is stored as 0. -/
def SEnterGame.switch : Switch SEnterGame := fun pkt ctx ptr tag =>
  if tag = 8 then
    some (match ctx.readVarint ptr with
      | none => ({ pkt with success := false }, none)
      | some (ptr, val) => ({ pkt with success := val ≠ 0 }, some (ptr, ctx)))
  else if tag = 16 then
    some (match ctx.readVarint ptr with
      | none => ({ pkt with accountid := 0 }, none)
      | some (ptr, val) => ({ pkt with accountid := val }, some (ptr, ctx)))
  else none

/-- `Protocol::S_MyPlayer` -/
structure SMyPlayer where
  info? : Option ObjectInfo := none
  deriving DecidableEq, Repr

def SMyPlayer.switch : Switch SMyPlayer := fun pkt ctx ptr tag =>
  if tag = 10 then
    let (info, res) := (pkt.info?.getD {}).parseMessage ctx ptr
    some ({ info? := some info }, res)
  else none

/-- `Protocol::S_AddObject` -/
structure SAddObject where
  objects : List ObjectInfo := []
  deriving DecidableEq, Repr

/-- The `do` loop over the objects, as long as the next tag is at hand, and is the same. -/
def SAddObject.addObjects : ℕ → SAddObject → ParseContext → ℕ → SAddObject × Option (ℕ × ParseContext)
  | 0, pkt, _, _ => (pkt, none)
  | fuel + 1, pkt, ctx, ptr =>
    let (info, res) := ObjectInfo.parseMessage {} ctx ptr
    let pkt : SAddObject := { objects := pkt.objects ++ [info] }
    match res with
    | none => (pkt, none)
    | some (ptr, ctx) =>
      if ctx.dataAvailable ptr ∧ ctx.byte ptr = 10 then addObjects fuel pkt ctx (ptr + 1) else (pkt, some (ptr, ctx))

def SAddObject.switch : Switch SAddObject := fun pkt ctx ptr tag =>
  if tag = 10 then some (addObjects ctx.rounds pkt ctx ptr) else none

/-- `Protocol::S_RemoveObject` -/
structure SRemoveObject where
  id : List UInt64 := []
  deriving DecidableEq, Repr

def SRemoveObject.switch : Switch SRemoveObject := fun pkt ctx ptr tag =>
  if tag = 10 then
    let (id, res) := ctx.readPackedVarint ptr pkt.id
    some ({ id := id }, res)
  else if tag = 8 then
    some (match ctx.readVarint ptr with
      | none => ({ id := pkt.id ++ [0] }, none)
      | some (ptr, val) => ({ id := pkt.id ++ [val] }, some (ptr, ctx)))
  else none

/-- `Protocol::S_Move` -/
structure SMove where
  info? : Option ObjectInfo := none
  deriving DecidableEq, Repr

def SMove.switch : Switch SMove := fun pkt ctx ptr tag =>
  if tag = 10 then
    let (info, res) := (pkt.info?.getD {}).parseMessage ctx ptr
    some ({ info? := some info }, res)
  else none

/-- `Protocol::S_Attack` -/
structure SAttack where
  targetinfo? : Option ObjectInfo := none
  attackerinfo? : Option ObjectInfo := none
  deriving DecidableEq, Repr

def SAttack.switch : Switch SAttack := fun pkt ctx ptr tag =>
  if tag = 10 then
    let (info, res) := (pkt.targetinfo?.getD {}).parseMessage ctx ptr
    some ({ pkt with targetinfo? := some info }, res)
  else if tag = 18 then
    let (info, res) := (pkt.attackerinfo?.getD {}).parseMessage ctx ptr
    some ({ pkt with attackerinfo? := some info }, res)
  else none

/-- The message that `ParseFromArray` leaves, if it succeeds. -/
def parsed {μ : Type} (switch : Switch μ) (msg : μ) (data : List UInt8) : Option μ :=
  match parseFromArray switch msg data with
  | (true, msg) => some msg
  | (false, _) => none

/-- The payload of a packet, parsed as the message that its id stands for; `none` if that
fails, or if the server sends no such message. -/
def Msg.parse (pktId : UInt16) (data : List UInt8) : Option Msg :=
  if pktId = 2 then (parsed SEnterGame.switch {} data).map fun pkt => .enterGame pkt.success pkt.accountid
  else if pktId = 4 then (parsed SMyPlayer.switch {} data).map fun pkt => .myPlayer (pkt.info?.getD {})
  else if pktId = 5 then (parsed SAddObject.switch {} data).map fun pkt => .addObject pkt.objects
  else if pktId = 6 then (parsed SRemoveObject.switch {} data).map fun pkt => .removeObject pkt.id
  else if pktId = 11 then (parsed SMove.switch {} data).map fun pkt => .move (pkt.info?.getD {})
  else if pktId = 20 then
    (parsed SAttack.switch {} data).map fun pkt => .attack (pkt.targetinfo?.getD {}) (pkt.attackerinfo?.getD {})
  else none

end ZeldaServer
