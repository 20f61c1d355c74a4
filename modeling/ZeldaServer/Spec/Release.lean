import ZeldaServer.Spec.Session

/-!
# The Release build

With `NDEBUG` defined, `assert` does not evaluate its argument. Two functions do their
work in the argument: `MakeSendBuffer` serializes in it, and `ReleaseSession` erases.
-/

namespace ZeldaServer

open Lib

namespace NDebug

/-- `ServerPacketHandler::MakeSendBuffer` without the serialization -/
def makeSendBuffer (pkt : List UInt8) (pktId : UInt16) : Outcome SendBuffer :=
  let dataSize : UInt16 := UInt16.ofNat pkt.length
  let packetSize : UInt16 := dataSize + UInt16.ofNat sizeofPacketHeader
  let sendBuffer := SendBuffer.new packetSize.toNat
  if packetSize.toNat < sizeofPacketHeader then .error .undefined
  else
    let header : PacketHeader := { size := packetSize, id := pktId }
    let block := writeAt sendBuffer.buffer 0 header.bytes
    .ok ({ sendBuffer with buffer := block }.close packetSize.toUInt32)

/-- `Service::ReleaseSession` without the removal -/
def releaseSession (_s : SessionId) (net : Net) : Outcome Net :=
  .ok { net with sessionCount := net.sessionCount - 1 }

end NDebug

/-- A call of the registry of a `Service`. -/
inductive RegistryCall
  | addSession (s : SessionId)
  | releaseSession (s : SessionId)
  deriving DecidableEq, Repr

/-- The call, with the `ReleaseSession` of a build. -/
def RegistryCall.run (releaseSession : SessionId → Net → Outcome Net) (net : Net) : RegistryCall → Outcome Net
  | .addSession s => .ok (Service.addSession s net)
  | .releaseSession s => releaseSession s net

/-- A sequence of calls. -/
def runRegistry (releaseSession : SessionId → Net → Outcome Net) (calls : List RegistryCall) (net : Net) : Outcome Net :=
  calls.foldlM (RegistryCall.run releaseSession) net

/-- The calls about session `s`: true for `AddSession`. -/
def callsOf (s : SessionId) (calls : List RegistryCall) : List Bool :=
  calls.filterMap fun call => match call with
    | .addSession t => if t = s then some true else none
    | .releaseSession t => if t = s then some false else none

/-- Each session is released at most once, after being added. -/
def ReleasedOnce (calls : List RegistryCall) : Prop :=
  ∀ s, (callsOf s calls).count false ≤ 1 ∧ (callsOf s calls).head? ≠ some false

/-- Each session that is added is added last, and once more than it is released. -/
def AddedLast (calls : List RegistryCall) : Prop :=
  ∀ s, callsOf s calls ≠ [] →
    (callsOf s calls).getLast? = some true ∧ (callsOf s calls).count true = (callsOf s calls).count false + 1

end ZeldaServer
