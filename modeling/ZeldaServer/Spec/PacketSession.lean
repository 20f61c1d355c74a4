import ZeldaServer.Lib.Outcome
import ZeldaServer.Spec.RecvBuffer
import ZeldaServer.Spec.Socket

/-!
# The receive side of a session

`PacketSession::OnRecv` cuts packets off the unread bytes and hands each to
`OnRecvPacket`; `Session::ProcessRecv` runs it on every receive completion and
`Session::RegisterRecv` posts the next receive. Both work over any state `σ` of
the rest of the program, which they reach through a `RecvApi` only: `_recvBuffer`
is private to `Session`, so no packet handler touches it.
-/

namespace ZeldaServer

open Lib

/-- `Session::BUFFER_SIZE` -/
def BUFFER_SIZE : ℤ := 0x10000

structure PacketHeader where
  size : UInt16
  id : UInt16
  deriving DecidableEq, Repr

def sizeofPacketHeader : ℕ := 4

/-- `*reinterpret_cast<PacketHeader*>(buffer)`: two little-endian words. -/
def PacketHeader.read (buffer : List UInt8) : PacketHeader where
  size := UInt16.ofNat ((buffer.getD 0 0).toNat + 256 * (buffer.getD 1 0).toNat)
  id := UInt16.ofNat ((buffer.getD 2 0).toNat + 256 * (buffer.getD 3 0).toNat)

/-- The bytes of a header in memory. -/
def PacketHeader.bytes (h : PacketHeader) : List UInt8 :=
  [UInt8.ofNat h.size.toNat, UInt8.ofNat (h.size.toNat / 256),
    UInt8.ofNat h.id.toNat, UInt8.ofNat (h.id.toNat / 256)]

/-- What the receive side calls outside itself. -/
structure RecvApi (σ : Type) where
  onRecvPacket : List UInt8 → σ → Outcome σ
  disconnect : σ → Outcome σ
  isConnected : σ → Bool
  wsaRecv : σ → WsaResult × σ
  handleError : ℤ → σ → Outcome σ

/-- The receive side of a session in the state of the rest of the program. -/
structure RecvSide (σ : Type) where
  recvBuffer : RecvBuffer
  /-- `wsaBuf.len` of the `WSARecv` under way on `_recvEvent` -/
  posted : Option ℤ
  rest : σ

variable {σ : Type}

/-- The loop of `PacketSession::OnRecv` from `processLen` on. -/
def onRecvLoop (onRecvPacket : List UInt8 → σ → Outcome σ) (buffer : List UInt8) :
    ℕ → ℤ → σ → Outcome (ℤ × σ)
  | 0, _, _ => .error .running
  | fuel + 1, processLen, st =>
    let dataSize := buffer.length - processLen
    -- `dataSize < sizeof(PacketHeader)` is a comparison of `size_t`
    if 0 ≤ dataSize ∧ dataSize < sizeofPacketHeader then .ok (processLen, st)
    else
      let packet := buffer.drop processLen.toNat
      let header := PacketHeader.read packet
      if dataSize < header.size.toNat then .ok (processLen, st)
      else do
        let st ← onRecvPacket (packet.take header.size.toNat) st
        onRecvLoop onRecvPacket buffer fuel (processLen + header.size.toNat) st

/-- `PacketSession::OnRecv` -/
def onRecv (onRecvPacket : List UInt8 → σ → Outcome σ) (fuel : ℕ) (buffer : List UInt8) (st : σ) :
    Outcome (ℤ × σ) :=
  onRecvLoop onRecvPacket buffer fuel 0 st

/-- `Session::RegisterRecv` -/
def registerRecv (api : RecvApi σ) (s : RecvSide σ) : Outcome (RecvSide σ) :=
  if api.isConnected s.rest = false then .ok s
  else
    let len := s.recvBuffer.freeSize
    let (result, rest) := api.wsaRecv s.rest
    match result.failed with
    | none => .ok { s with posted := some len, rest := rest }
    | some errorCode => do
      let rest ← api.handleError errorCode rest
      .ok { s with rest := rest }

/-- `Session::ProcessRecv`, for a completion that wrote `received` at `WritePos()`. -/
def processRecv (api : RecvApi σ) (fuel : ℕ) (received : List UInt8) (s : RecvSide σ) :
    Outcome (RecvSide σ) :=
  let s := { s with posted := none }
  if received.length = 0 then do
    let rest ← api.disconnect s.rest
    .ok { s with rest := rest }
  else do
    let (fits, buf) := (s.recvBuffer.deliver received).onWrite received.length
    let rest ← if fits = false then api.disconnect s.rest else .ok s.rest
    let dataSize := buf.dataSize
    let (processLen, rest) ← onRecv api.onRecvPacket fuel buf.unread rest
    let (fits, buf') := buf.onRead processLen
    if processLen < 0 ∨ dataSize < processLen then do
      let rest ← api.disconnect rest
      .ok { s with recvBuffer := buf, rest := rest }
    else if fits = false then do
      let rest ← api.disconnect rest
      .ok { s with recvBuffer := buf', rest := rest }
    else registerRecv api { s with recvBuffer := buf'.clean, rest := rest }

end ZeldaServer
