import ZeldaServer.Spec.PacketSession

/-!
# SendBuffer and MakeSendBuffer

A message is known to `MakeSendBuffer` by its serialization: `ByteSizeLong` is its
length, `SerializeToArray` writes it. Lengths are narrowed to `uint16` where the
source narrows them, and the assert's argument is evaluated, as in the Debug build.
-/

namespace ZeldaServer

open Lib

structure SendBuffer where
  buffer : List UInt8
  writeSize : UInt32 := 0
  deriving DecidableEq, Repr

/-- `SendBuffer::SendBuffer` -/
def SendBuffer.new (bufferSize : ℕ) : SendBuffer := { buffer := List.replicate bufferSize 0 }

/-- `SendBuffer::Close` -/
def SendBuffer.close (b : SendBuffer) (writeSize : UInt32) : SendBuffer :=
  { b with writeSize := writeSize }

/-- The bytes that `RegisterSend` passes to `WSASend`. -/
def SendBuffer.frame (b : SendBuffer) : List UInt8 := b.buffer.take b.writeSize.toNat

/-- `MessageLite::SerializeToArray`: false when the array is too small. -/
def serializeToArray (pkt : List UInt8) (size : ℕ) : Option (List UInt8) :=
  if size < pkt.length then none else some pkt

/-- Writing bytes at an offset of a block that has room for them. -/
def writeAt (block : List UInt8) (at_ : ℕ) (bytes : List UInt8) : List UInt8 :=
  block.take at_ ++ bytes ++ block.drop (at_ + bytes.length)

/-- `ServerPacketHandler::MakeSendBuffer` -/
def makeSendBuffer (pkt : List UInt8) (pktId : UInt16) : Outcome SendBuffer :=
  let dataSize : UInt16 := UInt16.ofNat pkt.length
  let packetSize : UInt16 := dataSize + UInt16.ofNat sizeofPacketHeader
  let sendBuffer := SendBuffer.new packetSize.toNat
  -- the header is written through a pointer to the block, whatever its size
  if packetSize.toNat < sizeofPacketHeader then .error .undefined
  else
    let header : PacketHeader := { size := packetSize, id := pktId }
    let block := writeAt sendBuffer.buffer 0 header.bytes
    match serializeToArray pkt dataSize.toNat with
    | none => .error .assertion
    | some bytes =>
      let block := writeAt block sizeofPacketHeader bytes
      .ok ({ sendBuffer with buffer := block }.close packetSize.toUInt32)

end ZeldaServer
