import ZeldaServer.Spec.Session

/-!
# Completions, successful and failed

`IocpCore::Dispatch` and what it leads to in `Session` and `Listener`, for sessions of any
class. What the class overrides is a parameter (`Overrides`), with a state `γ` of its own.
The calls that make a session connected and the calls of the overrides are noted in the
order in which they come (`Notice`).
-/

namespace ZeldaServer

open Lib

/-- What `Session` does with a session that can be told outside of it. -/
inductive Notice
  /-- `_connected.store(true)` -/
  | connected (s : SessionId)
  | addSession (s : SessionId)
  | onConnected (s : SessionId)
  | onDisconnected (s : SessionId)
  | onRecvPacket (s : SessionId) (buffer : List UInt8)
  | onSend (s : SessionId) (len : ℤ)
  deriving DecidableEq, Repr

/-- The notices so far, and the state of the classes. -/
structure Diary (γ : Type) where
  notices : List Notice := []
  user : γ

variable {γ : Type}

def Server.note (notice : Notice) (st : Server (Diary γ)) : Server (Diary γ) :=
  { st with game := { st.game with notices := st.game.notices ++ [notice] } }

/-- What a class derived from `PacketSession` overrides. -/
structure Overrides (γ : Type) where
  onConnected : Api (Server (Diary γ)) → SessionId → Server (Diary γ) → Outcome (Server (Diary γ))
  onDisconnected : Api (Server (Diary γ)) → SessionId → Server (Diary γ) → Outcome (Server (Diary γ))
  onRecvPacket : Api (Server (Diary γ)) → SessionId → List UInt8 → Server (Diary γ) → Outcome (Server (Diary γ))
  onSend : Api (Server (Diary γ)) → SessionId → ℤ → Server (Diary γ) → Outcome (Server (Diary γ))

namespace Overrides

variable (overrides : Overrides γ) (fuel : ℕ)

/-- `Send` and `Disconnect` with at most `n` levels of `Disconnect` inside each other. -/
def api : ℕ → Api (Server (Diary γ))
  | 0 => { send := fun _ _ _ => .error .running, disconnect := fun _ _ => .error .running }
  | n + 1 =>
    let disconnect := Session.disconnect fun s st => overrides.onDisconnected (api n) s (st.note (.onDisconnected s))
    { send := Session.send disconnect, disconnect := disconnect }

def recvApi (s : SessionId) : RecvApi (Server (Diary γ)) where
  onRecvPacket buffer st := overrides.onRecvPacket (overrides.api fuel) s buffer (st.note (.onRecvPacket s buffer))
  disconnect := (overrides.api fuel).disconnect s
  isConnected st := (st.session s).connected
  wsaRecv st := st.wsa
  handleError errorCode st := Session.handleError (overrides.api fuel).disconnect errorCode s st

/-- `Session::ProcessConnect` -/
def processConnect (s : SessionId) (st : Server (Diary γ)) : Outcome (Server (Diary γ)) := do
  let st := (st.modify s fun x => { x with connecting := false, connected := true }).note (.connected s)
  let st := Server.note (.addSession s) { st with net := Service.addSession s st.net }
  let st ← overrides.onConnected (overrides.api fuel) s (st.note (.onConnected s))
  Session.onRecvSide s (registerRecv (overrides.recvApi fuel s)) st

/-- `Session::ProcessRecv` -/
def processRecv (s : SessionId) (received : List UInt8) (st : Server (Diary γ)) : Outcome (Server (Diary γ)) :=
  Session.onRecvSide s (ZeldaServer.processRecv (overrides.recvApi fuel s) fuel received) st

/-- `Session::ProcessSend` -/
def processSend (s : SessionId) (numOfBytes : ℤ) (st : Server (Diary γ)) : Outcome (Server (Diary γ)) :=
  let st := st.modify s fun x => { x with wire := x.wire.tail, side := x.side.clear }
  if numOfBytes = 0 then (overrides.api fuel).disconnect s st
  else do
    let st ← overrides.onSend (overrides.api fuel) s numOfBytes (st.note (.onSend s numOfBytes))
    let (register, side) := (st.session s).side.recheck
    let st := st.modify s fun x => { x with side := side }
    if register then Session.registerSend (overrides.api fuel).disconnect s st else .ok st

end Overrides

/-- An `IocpEvent` whose operation is complete, and what was transferred. -/
inductive IocpEvent
  | connect (s : SessionId)
  | disconnect (s : SessionId)
  /-- accept event `i` with its session; whether the calls of `SetUpdateAcceptSocket` and `getpeername` succeed, and how often
  `AcceptEx` then fails before it is under way again -/
  | accept (i : ℕ) (s : SessionId) (accepted : Bool) (retries : ℕ)
  | recv (s : SessionId) (received : List UInt8)
  | send (s : SessionId) (numOfBytes : ℤ)
  deriving DecidableEq, Repr

namespace IocpEvent

/-- The operation is under way. -/
def Enabled (net : Net) : IocpEvent → Prop
  | .connect s => (net.session s).connecting = true
  | .disconnect _ => True
  | .accept i s _ _ => net.acceptEvents[i]? = some s
  | .recv s received => ∃ len, (net.session s).posted = some len ∧ (received.length : ℤ) ≤ len
  | .send s _ => (net.session s).wire ≠ []

/-- A failed operation has transferred nothing, and a socket whose accept failed passes no check. -/
def Void : IocpEvent → Prop
  | .connect _ => True
  | .disconnect _ => True
  | .accept _ _ accepted _ => accepted = false
  | .recv _ received => received = []
  | .send _ numOfBytes => numOfBytes = 0

instance (iocpEvent : IocpEvent) : Decidable iocpEvent.Void :=
  match iocpEvent with
  | .connect _ | .disconnect _ => inferInstanceAs (Decidable True)
  | .accept _ _ accepted _ => inferInstanceAs (Decidable (accepted = false))
  | .recv _ received => inferInstanceAs (Decidable (received = []))
  | .send _ numOfBytes => inferInstanceAs (Decidable (numOfBytes = 0))

/-- `Session::Dispatch`, and `Listener::Dispatch` of an accept event -/
def dispatch (overrides : Overrides γ) (fuel : ℕ) (st : Server (Diary γ)) : IocpEvent → Outcome (Server (Diary γ))
  | .connect s => overrides.processConnect fuel s st
  -- `ProcessDisconnect`
  | .disconnect _ => .ok st
  -- `ProcessAccept`
  | .accept i s accepted retries => do
    let st ← if accepted then overrides.processConnect fuel s st else .ok st
    .ok { st with net := Listener.registerAccept i retries st.net }
  | .recv s received => overrides.processRecv fuel s received st
  | .send s numOfBytes => overrides.processSend fuel s numOfBytes st

end IocpEvent

def WAIT_TIMEOUT : ℤ := 258

/-- `IocpCore::Dispatch`. `status` is the error for which `GetQueuedCompletionStatus`
returned `FALSE`, if it did; with `WAIT_TIMEOUT` there is no completion. -/
def IocpCore.dispatch (overrides : Overrides γ) (fuel : ℕ) (status : Option ℤ) (iocpEvent : IocpEvent) (st : Server (Diary γ)) :
    Outcome (Bool × Server (Diary γ)) :=
  match status with
  | none => do
    let st ← iocpEvent.dispatch overrides fuel st
    .ok (true, st)
  | some errCode =>
    if errCode = WAIT_TIMEOUT then .ok (false, st)
    else do
      let st ← iocpEvent.dispatch overrides fuel st
      .ok (true, st)

end ZeldaServer
