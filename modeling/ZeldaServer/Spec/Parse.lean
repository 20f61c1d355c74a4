import ZeldaServer.Spec.Protocol

/-!
# Parsing a message

`ParseFromArray` of `C_Move`: the parsers that were generated for `C_Move` and `ObjectInfo`,
and what they use of `google/protobuf`: the stream over an array, varints, strings, and
fields that are unknown. A pointer is a position in the array, and `nullptr` is `none`. The
stream reads up to 16 bytes behind the end, which are 0 (`buffer_`). A parse that fails
leaves in the message what it has stored.
-/

namespace ZeldaServer

/-! ## Values of enum fields -/

def ObjectType.ofValue (v : Int32) : ObjectType :=
  if v = 0 then .none else if v = 1 then .player else if v = 2 then .monster else .other v

def ObjectState.ofValue (v : Int32) : ObjectState :=
  if v = 0 then .idle else if v = 1 then .move else if v = 2 then .skill else .other v

def Dir.ofValue (v : Int32) : Dir :=
  if v = 0 then .up else if v = 1 then .down else if v = 2 then .left else if v = 3 then .right else .other v

/-! ## The stream -/

/-- `EpsCopyInputStream::kSlopBytes` -/
def kSlopBytes : ℕ := 16

/-- `ParseContext` over an array; `limit` is `limit_` as a position. -/
structure ParseContext where
  data : List UInt8
  /-- `buffer_end_` -/
  bufferEnd : ℕ
  /-- the end of the array has been copied: `next_chunk_` is null -/
  patched : Bool
  limit : ℕ
  lastTagMinus1 : UInt32 := 0
  depth : ℕ := 100
  deriving DecidableEq, Repr

namespace ParseContext

variable (ctx : ParseContext) (ptr : ℕ)

/-- `InitFrom` -/
def initFrom (flat : List UInt8) : ParseContext where
  data := flat
  bufferEnd := if flat.length > kSlopBytes then flat.length - kSlopBytes else flat.length
  patched := flat.length ≤ kSlopBytes
  limit := flat.length

/-- The byte at a position. -/
def byte : UInt8 := ctx.data.getD ptr 0

/-- `size` bytes. -/
def bytes (size : ℕ) : List UInt8 := (List.range size).map fun i => ctx.byte (ptr + i)

def endedAtLimit : Bool := ctx.lastTagMinus1 = 0

def setLastTag (tag : UInt32) : ParseContext := { ctx with lastTagMinus1 := tag - 1 }

/-- The part of `DoneFallback` at the end of the array. -/
def endOfStream : Option (Bool × ParseContext) :=
  if ptr ≠ ctx.bufferEnd then none else some (true, { ctx with lastTagMinus1 := 1 })

/-- `Done`; `none` if it makes the pointer null. -/
def done : Option (Bool × ParseContext) :=
  if ptr < min ctx.bufferEnd ctx.limit then some (false, ctx)
  else if ptr = ctx.limit then some (true, ctx)
  else if ptr > ctx.limit then none
  else if ctx.patched then ctx.endOfStream ptr
  else
    let ctx := { ctx with bufferEnd := ctx.data.length, patched := true }
    if ptr < ctx.bufferEnd then some (false, ctx) else ctx.endOfStream ptr

/-- The bytes of a varint from the second one on; `res` is what came before byte `i`. -/
def varintRest : ℕ → ℕ → UInt64 → Option (ℕ × UInt64)
  | 0, _, _ => none
  | fuel + 1, i, res =>
    let byte := (ctx.byte (ptr + i)).toUInt64
    let res := res + (byte - 1) <<< (UInt64.ofNat (7 * i))
    if byte < 128 then some (ptr + i + 1, res) else varintRest fuel (i + 1) res

/-- A varint of at most `n + 1` bytes. -/
def varintUpTo (n : ℕ) : Option (ℕ × UInt64) :=
  let res := (ctx.byte ptr).toUInt64
  if res < 128 then some (ptr + 1, res) else ctx.varintRest ptr n 1 res

/-- `ReadVarint` -/
def readVarint : Option (ℕ × UInt64) := ctx.varintUpTo ptr 9

/-- `ReadTag`, in 32 bits -/
def readTag : Option (ℕ × UInt32) := (ctx.varintUpTo ptr 4).map fun (ptr, res) => (ptr, res.toUInt32)

/-- `ReadSize` -/
def readSize : Option (ℕ × ℕ) :=
  match ctx.readTag ptr with
  | none => none
  | some (next, res) =>
    if next = ptr + 5 ∧ (ctx.byte (ptr + 4) ≥ 8 ∨ res.toNat > 2147483647 - kSlopBytes) then none else some (next, res.toNat)

/-- `ReadString`: the string, also when it fails. A string that goes on behind the bytes at hand comes to the end of the array. -/
def readString (size : ℕ) : List UInt8 × Option ℕ :=
  let chunkSize := ctx.bufferEnd + kSlopBytes - ptr
  if size ≤ chunkSize then (ctx.bytes ptr size, some (ptr + size)) else (ctx.bytes ptr chunkSize, none)

/-! ## Unknown fields

What is stored of them is written as the bytes that it is serialized to. -/

/-- `UnknownFieldParserHelper::ParseLengthDelimited` -/
def parseLengthDelimited (num : ℕ) : List UInt8 × Option (ℕ × ParseContext) :=
  match ctx.readSize ptr with
  | none => (bytesField num [], none)
  | some (ptr, size) =>
    let (s, next) := ctx.readString ptr size
    (bytesField num s, next.map fun ptr => (ptr, ctx))

/-- `ParseContext::ParseGroup` of the fields that `child` parses -/
def parseGroup (child : ParseContext → ℕ → List UInt8 × Option (ℕ × ParseContext)) (num : ℕ) :
    List UInt8 × Option (ℕ × ParseContext) :=
  let startTag := UInt64.ofNat (8 * num + 3)
  let endTag := UInt64.ofNat (8 * num + 4)
  if ctx.depth = 0 then (varint startTag ++ varint endTag, none)
  else
    let (fields, res) := child { ctx with depth := ctx.depth - 1 } ptr
    (varint startTag ++ fields ++ varint endTag,
      match res with
      | none => none
      | some (ptr, ctx) =>
        -- `ConsumeEndGroup`
        if ctx.lastTagMinus1 ≠ startTag.toUInt32 then none
        else some (ptr, { ctx with lastTagMinus1 := 0, depth := ctx.depth + 1 }))

/-- `FieldParser` -/
def fieldParser (child : ParseContext → ℕ → List UInt8 × Option (ℕ × ParseContext)) (tag : UInt32) :
    List UInt8 × Option (ℕ × ParseContext) :=
  let number := (tag >>> 3).toNat
  if number = 0 then ([], none)
  else if tag &&& 7 = 0 then
    match ctx.readVarint ptr with
    | none => ([], none)
    | some (ptr, value) => (varint (UInt64.ofNat (8 * number)) ++ varint value, some (ptr, ctx))
  else if tag &&& 7 = 1 then (varint (UInt64.ofNat (8 * number + 1)) ++ ctx.bytes ptr 8, some (ptr + 8, ctx))
  else if tag &&& 7 = 2 then ctx.parseLengthDelimited ptr number
  else if tag &&& 7 = 3 then ctx.parseGroup ptr child number
  else if tag &&& 7 = 5 then (varint (UInt64.ofNat (8 * number + 5)) ++ ctx.bytes ptr 4, some (ptr + 4, ctx))
  else ([], none)

/-- The tag ends the fields: 0, or the end of a group. -/
def ends (tag : UInt32) : Bool := tag &&& 7 = 4 || tag = 0

/-- `WireFormatParser`. Every round reads a byte at least, and no deeper call reads more than the array and the bytes behind it. -/
def wireFormatParser : ℕ → ParseContext → ℕ → List UInt8 × Option (ℕ × ParseContext)
  | 0, _, _ => ([], none)
  | fuel + 1, ctx, ptr =>
    match ctx.done ptr with
    | none => ([], none)
    | some (true, ctx) => ([], some (ptr, ctx))
    | some (false, ctx) =>
      match ctx.readTag ptr with
      | none => ([], none)
      | some (ptr, tag) =>
        if ends tag then ([], some (ptr, ctx.setLastTag tag))
        else
          match ctx.fieldParser ptr (wireFormatParser fuel) tag with
          | (field, none) => (field, none)
          | (field, some (ptr, ctx)) =>
            let (fields, res) := wireFormatParser fuel ctx ptr
            (field ++ fields, res)

/-- More rounds than there can be. -/
def rounds : ℕ := ctx.data.length + kSlopBytes + 1

/-- `UnknownFieldParse` -/
def unknownFieldParse (tag : UInt32) : List UInt8 × Option (ℕ × ParseContext) :=
  ctx.fieldParser ptr (wireFormatParser ctx.rounds) tag

end ParseContext

/-! ## UTF-8 -/

/-- One byte: how many bytes of the character are missing, and the range of the next one. -/
def utf8Step : Option (ℕ × UInt8 × UInt8) → UInt8 → Option (ℕ × UInt8 × UInt8)
  | none, _ => none
  | some (0, _), b =>
    if b < 0x80 then some (0, 0x80, 0xBF)
    else if b < 0xC2 then none
    else if b < 0xE0 then some (1, 0x80, 0xBF)
    else if b = 0xE0 then some (2, 0xA0, 0xBF)
    else if b = 0xED then some (2, 0x80, 0x9F)
    else if b < 0xF0 then some (2, 0x80, 0xBF)
    else if b = 0xF0 then some (3, 0x90, 0xBF)
    else if b < 0xF4 then some (3, 0x80, 0xBF)
    else if b = 0xF4 then some (3, 0x80, 0x8F)
    else none
  | some (n + 1, lo, hi), b => if lo ≤ b ∧ b ≤ hi then some (n, 0x80, 0xBF) else none

/-- `IsStructurallyValidUTF8` -/
def isStructurallyValidUTF8 (str : List UInt8) : Bool :=
  match str.foldl utf8Step (some (0, 0x80, 0xBF)) with
  | some (0, _) => true
  | _ => false

/-! ## The generated parsers -/

/-- The cases of the `switch` that store a varint: what the field `tag` becomes. -/
def ObjectInfo.setVarint (info : ObjectInfo) (tag : UInt32) (val : UInt64) : Option ObjectInfo :=
  let int32 := val.toUInt32.toInt32
  if tag = 8 then some { info with objectid := val }
  else if tag = 16 then some { info with objecttype := .ofValue int32 }
  else if tag = 24 then some { info with state := .ofValue int32 }
  else if tag = 32 then some { info with dir := .ofValue int32 }
  else if tag = 48 then some { info with hp := int32 }
  else if tag = 56 then some { info with maxhp := int32 }
  else if tag = 64 then some { info with attack := int32 }
  else if tag = 72 then some { info with defence := int32 }
  else if tag = 80 then some { info with posx := int32 }
  else if tag = 88 then some { info with posy := int32 }
  else none

/-- A varint that is too long is stored as 0, but not in an enum field. -/
def ObjectInfo.overlong (info : ObjectInfo) (tag : UInt32) : ObjectInfo :=
  if tag = 16 ∨ tag = 24 ∨ tag = 32 then info else (info.setVarint tag 0).getD info

/-- One field of an `ObjectInfo`. -/
def ObjectInfo.parseField (info : ObjectInfo) (ctx : ParseContext) (ptr : ℕ) (tag : UInt32) :
    ObjectInfo × Option (ℕ × ParseContext) :=
  if tag = 42 then
    match ctx.readSize ptr with
    | none => (info, none)
    | some (ptr, size) =>
      let (name, next) := ctx.readString ptr size
      ({ info with name := name },
        if isStructurallyValidUTF8 name then next.map fun ptr => (ptr, ctx) else none)
  else if (info.setVarint tag 0).isSome then
    match ctx.readVarint ptr with
    | none => (info.overlong tag, none)
    | some (ptr, val) => ((info.setVarint tag val).getD info, some (ptr, ctx))
  else
    let (fields, res) := ctx.unknownFieldParse ptr tag
    ({ info with unknownFields := info.unknownFields ++ fields }, res)

/-- `ObjectInfo::_InternalParse` -/
def ObjectInfo.internalParse : ℕ → ObjectInfo → ParseContext → ℕ → ObjectInfo × Option (ℕ × ParseContext)
  | 0, info, _, _ => (info, none)
  | fuel + 1, info, ctx, ptr =>
    match ctx.done ptr with
    | none => (info, none)
    | some (true, ctx) => (info, some (ptr, ctx))
    | some (false, ctx) =>
      match ctx.readTag ptr with
      | none => (info, none)
      | some (ptr, tag) =>
        if ParseContext.ends tag then (info, some (ptr, ctx.setLastTag tag))
        else
          match info.parseField ctx ptr tag with
          | (info, none) => (info, none)
          | (info, some (ptr, ctx)) => internalParse fuel info ctx ptr

/-- `ParseContext::ParseMessage` of the field `info` -/
def CMove.parseMessage (pkt : CMove) (ctx : ParseContext) (ptr : ℕ) : CMove × Option (ℕ × ParseContext) :=
  -- `_internal_mutable_info()` comes first
  let info := pkt.info
  match ctx.readSize ptr with
  | none => ({ pkt with info? := some info }, none)
  | some (ptr, size) =>
    if ctx.depth = 0 then ({ pkt with info? := some info }, none)
    else
      let old := ctx.limit
      let (info, res) := info.internalParse ctx.rounds { ctx with limit := ptr + size, depth := ctx.depth - 1 } ptr
      ({ pkt with info? := some info },
        match res with
        | none => none
        | some (ptr, ctx) => if ctx.endedAtLimit then some (ptr, { ctx with limit := old, depth := ctx.depth + 1 }) else none)

/-- `C_Move::_InternalParse` -/
def CMove.internalParse : ℕ → CMove → ParseContext → ℕ → CMove × Option (ℕ × ParseContext)
  | 0, pkt, _, _ => (pkt, none)
  | fuel + 1, pkt, ctx, ptr =>
    match ctx.done ptr with
    | none => (pkt, none)
    | some (true, ctx) => (pkt, some (ptr, ctx))
    | some (false, ctx) =>
      match ctx.readTag ptr with
      | none => (pkt, none)
      | some (ptr, tag) =>
        if tag = 10 then
          match pkt.parseMessage ctx ptr with
          | (pkt, none) => (pkt, none)
          | (pkt, some (ptr, ctx)) => internalParse fuel pkt ctx ptr
        else if ParseContext.ends tag then (pkt, some (ptr, ctx.setLastTag tag))
        else
          let (fields, res) := ctx.unknownFieldParse ptr tag
          let pkt := { pkt with unknownFields := pkt.unknownFields ++ fields }
          match res with
          | none => (pkt, none)
          | some (ptr, ctx) => internalParse fuel pkt ctx ptr

/-- `ParseFromArray` of a new `C_Move`: whether it succeeds, and the message. -/
def CMove.parseFromArray (data : List UInt8) : Bool × CMove :=
  let ctx := ParseContext.initFrom data
  let (pkt, res) := CMove.internalParse ctx.rounds {} ctx 0
  (match res with
    | none => false
    | some (_, ctx) => ctx.endedAtLimit, pkt)

end ZeldaServer
