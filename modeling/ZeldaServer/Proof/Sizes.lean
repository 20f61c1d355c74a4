import ZeldaServer.Proof.Stream
import ZeldaServer.Spec.Protocol

/-!
# MakeSendBuffer for every message size

`MakeSendBuffer` narrows the size of the payload and that of the packet to `uint16`.
From 65536 bytes on the assertion rejects the message. The four sizes below a multiple
of 65536 leave a buffer that is smaller than the header written into it.

* `makeSendBuffer_overflow`, `makeSendBuffer_rejects`, `makeSendBuffer_holds`: what becomes
  of a message, by its size.
* `makeSendBuffer_contract`: which sizes give a well-formed packet or are rejected.
* `longName_overflows`: a record that a client can send, and whose `S_Move` has one of
  the four sizes.
-/

namespace ZeldaServer

open Lib

/-- The buffer holds one packet with the complete payload `pkt`. -/
structure SendBuffer.Holds (b : SendBuffer) (pkt : List UInt8) : Prop where
  capacity : b.buffer.length = pkt.length + sizeofPacketHeader
  writeSize : b.writeSize.toNat = pkt.length + sizeofPacketHeader
  header : (PacketHeader.read b.buffer).size.toNat = pkt.length + sizeofPacketHeader
  payload : b.buffer.drop sizeofPacketHeader = pkt

/-- `MakeSendBuffer` rejects the message or returns its packet. A write outside the buffer
is neither. -/
def MakesPacket (pkt : List UInt8) (pktId : UInt16) : Prop :=
  makeSendBuffer pkt pktId = .error .assertion ∨ ∃ b, makeSendBuffer pkt pktId = .ok b ∧ b.Holds pkt

variable {pkt : List UInt8} {pktId : UInt16}

/-- `packetSize`, after both narrowings. -/
theorem packetSize_toNat (n : ℕ) :
    (UInt16.ofNat n + UInt16.ofNat sizeofPacketHeader).toNat = (n + 4) % 65536 := by
  rw [UInt16.toNat_add, UInt16.toNat_ofNat', UInt16.toNat_ofNat', sizeofPacketHeader]
  omega

/-- The header does not fit into the buffer. -/
theorem makeSendBuffer_overflow (h : 65532 ≤ pkt.length % 65536) :
    makeSendBuffer pkt pktId = .error .undefined := by
  have hsize := packetSize_toNat pkt.length
  unfold makeSendBuffer
  dsimp only
  rw [if_pos]
  rw [hsize, sizeofPacketHeader]
  omega

theorem not_makesPacket (h : 65532 ≤ pkt.length % 65536) : ¬ MakesPacket pkt pktId := by
  have hundef : makeSendBuffer pkt pktId = .error .undefined := makeSendBuffer_overflow h
  rintro (h | ⟨b, h, -⟩)
  · rw [hundef] at h
    cases h
  · rw [hundef] at h
    cases h

/-- The payload does not fit into the size that is left of it. -/
theorem makeSendBuffer_rejects (h : pkt.length % 65536 < 65532) (hbig : 65536 ≤ pkt.length) :
    makeSendBuffer pkt pktId = .error .assertion := by
  have hsize := packetSize_toNat pkt.length
  have hdata : (UInt16.ofNat pkt.length).toNat < pkt.length := by
    rw [UInt16.toNat_ofNat']
    omega
  unfold makeSendBuffer serializeToArray
  dsimp only
  rw [if_neg, if_pos hdata]
  rw [hsize, sizeofPacketHeader]
  omega

/-- The packet of a message that fits. -/
theorem makeSendBuffer_holds (h : pkt.length ≤ 65531) :
    ∃ b, makeSendBuffer pkt pktId = .ok b ∧ b.Holds pkt := by
  have hd : (UInt16.ofNat pkt.length).toNat = pkt.length := by
    rw [UInt16.toNat_ofNat']
    omega
  have hp : (UInt16.ofNat pkt.length + UInt16.ofNat sizeofPacketHeader).toNat = pkt.length + 4 := by
    rw [packetSize_toNat]
    omega
  unfold makeSendBuffer serializeToArray
  dsimp only
  rw [hd, if_neg (Nat.lt_irrefl _), if_neg (by rw [hp, sizeofPacketHeader]; omega)]
  -- the header and the payload fill the block
  have hblock : ∀ header : PacketHeader, writeAt (writeAt (SendBuffer.new
      (UInt16.ofNat pkt.length + UInt16.ofNat sizeofPacketHeader).toNat).buffer 0 header.bytes)
      sizeofPacketHeader pkt = header.bytes ++ pkt := by
    intro header
    rw [hp]
    exact writeAt_packet header pkt
  refine ⟨_, rfl, ?_, ?_, ?_, ?_⟩
  · change (writeAt _ _ _).length = _
    rw [hblock, List.length_append, bytes_length, Nat.add_comm]
  · change (UInt16.toUInt32 _).toNat = _
    rw [UInt16.toNat_toUInt32, hp, sizeofPacketHeader]
  · change (PacketHeader.read (writeAt _ _ _)).size.toNat = _
    rw [hblock, read_bytes, hp, sizeofPacketHeader]
  · change (writeAt _ _ _).drop _ = _
    rw [hblock, List.drop_left' (bytes_length _)]

/-- **`MakeSendBuffer` is well formed for every message size** but those up to four below a
multiple of 65536. -/
theorem makeSendBuffer_contract (msg : Msg) :
    MakesPacket msg.serialize msg.pktId ↔ msg.serialize.length % 65536 < 65532 := by
  constructor
  · intro h
    by_contra hover
    exact not_makesPacket (Nat.le_of_not_lt hover) h
  · intro h
    by_cases hbig : 65536 ≤ msg.serialize.length
    · exact .inl (makeSendBuffer_rejects h hbig)
    · exact .inr (makeSendBuffer_holds (by omega))

/-- A record with a name of 65511 bytes, and an `hp` that takes more bytes to write than it
took to read. -/
def longName : ObjectInfo where
  objectid := 1
  name := List.replicate 65511 65
  hp := -1

theorem longName_length : (Msg.move longName).serialize.length = 65532 := by
  have hname : longName.name.length = 65511 := List.length_replicate
  have hne : longName.name ≠ [] := by
    intro h
    rw [h] at hname
    cases hname
  have hinfo : longName.serialize.length = 65528 := by
    unfold ObjectInfo.serialize
    rw [if_neg hne]
    unfold bytesField
    simp only [List.length_append, hname]
    rfl
  unfold Msg.serialize bytesField
  simp only [List.length_append, hinfo]
  rfl

/-- The `S_Move` of this record is written outside its buffer. -/
theorem longName_overflows : ¬ MakesPacket (Msg.move longName).serialize (Msg.move longName).pktId := by
  apply not_makesPacket
  rw [longName_length]

end ZeldaServer
