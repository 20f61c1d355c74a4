import ZeldaServer.Spec.PacketSession
import ZeldaServer.Spec.Protocol
import ZeldaServer.Spec.SendSide
import Mathlib.Data.Finset.Card
import Mathlib.Logic.Function.Basic

/-!
# Sessions and their registries

The sessions of a server that handles one event at a time: `Session`, `Service`,
`GameSessionManager` and the parts of `GameSession` that are not about the room. The
room is a parameter (`Content`) with a state `γ` of its own; it may call `Send` and
`Disconnect` on any session (`Api`).

`Disconnect` runs `OnDisconnected`, which may send and disconnect again: the calls
nest, and `api content n` is `Send` and `Disconnect` for at most `n` nested levels.
-/

namespace ZeldaServer

open Lib

abbrev SessionId := ℕ

/-- A `Session` and its socket. -/
structure Session where
  connected : Bool := false
  /-- a `ConnectEx` is under way on `_connectEvent` -/
  connecting : Bool := false
  recvBuffer : RecvBuffer := .new BUFFER_SIZE
  /-- `wsaBuf.len` of the `WSARecv` under way on `_recvEvent` -/
  posted : Option ℤ := none
  side : SendSide Packet := {}
  /-- the `WSASend`s under way on `_sendEvent` -/
  wire : List (List Packet) := []

/-- The sessions, and where they are registered. -/
structure Net where
  session : SessionId → Session := fun _ => {}
  /-- the next session that `CreateSession` makes -/
  nextSession : SessionId := 0
  /-- the session of each accept event of the `Listener` -/
  acceptEvents : List SessionId := []
  /-- `Service::_sessions` -/
  sessions : Finset SessionId := ∅
  /-- an `int32`, of sessions that each own a handle of the process -/
  sessionCount : ℤ := 0
  /-- `GSessionManager` -/
  manager : Finset SessionId := ∅
  /-- what the next calls of `WSASend` and `WSARecv` answer; success after the last one -/
  answers : List WsaResult := []
  /-- history: how often `OnConnected` and `OnDisconnected` have been called -/
  onConnected : SessionId → ℕ := fun _ => 0
  onDisconnected : SessionId → ℕ := fun _ => 0

/-- The state of the program: the sessions, and the game. -/
structure State (ν γ : Type) where
  net : ν
  game : γ

abbrev Server (γ : Type) := State Net γ

/-- What the game may call on a session. -/
structure Api (σ : Type) where
  send : SessionId → Packet → σ → Outcome σ
  disconnect : SessionId → σ → Outcome σ

/-- What `GameSession` calls in the game. -/
structure Content (γ : Type) where
  enterRoom : Api (Server γ) → SessionId → Server γ → Outcome (Server γ)
  leaveRoom : Api (Server γ) → SessionId → Server γ → Outcome (Server γ)
  handlePacket : Api (Server γ) → SessionId → List UInt8 → Server γ → Outcome (Server γ)

def Net.modify (net : Net) (s : SessionId) (f : Session → Session) : Net :=
  { net with session := Function.update net.session s (f (net.session s)) }

variable {γ : Type}

namespace Server

def session (st : Server γ) (s : SessionId) : Session := st.net.session s

def modify (st : Server γ) (s : SessionId) (f : Session → Session) : Server γ :=
  { st with net := st.net.modify s f }

/-- The answer of the next socket call. -/
def wsa (st : Server γ) : WsaResult × Server γ :=
  match st.net.answers with
  | [] => (.success, st)
  | answer :: answers => (answer, { st with net := { st.net with answers := answers } })

end Server

/-! ## Service -/

namespace Service

/-- `CreateSession` -/
def createSession (net : Net) : SessionId × Net :=
  (net.nextSession, { net with nextSession := net.nextSession + 1 })

def addSession (s : SessionId) (net : Net) : Net :=
  { net with sessionCount := net.sessionCount + 1, sessions := insert s net.sessions }

/-- `ReleaseSession`, with the assert's argument evaluated. -/
def releaseSession (s : SessionId) (net : Net) : Outcome Net :=
  if s ∈ net.sessions then
    .ok { net with sessions := net.sessions.erase s, sessionCount := net.sessionCount - 1 }
  else .error .assertion

end Service

/-! ## Session -/

namespace Session

/-- `Disconnect`. `RegisterDisconnect` only asks the socket to close. -/
def disconnect (onDisconnected : SessionId → Server γ → Outcome (Server γ)) (s : SessionId)
    (st : Server γ) : Outcome (Server γ) :=
  if (st.session s).connected = false then .ok st
  else do
    let st := st.modify s fun x => { x with connected := false }
    let st ← onDisconnected s st
    let net ← Service.releaseSession s st.net
    .ok { st with net := net }

def handleError (disconnect : SessionId → Server γ → Outcome (Server γ)) (errorCode : ℤ) (s : SessionId)
    (st : Server γ) : Outcome (Server γ) :=
  if isReset errorCode then disconnect s st else .ok st

def registerSend (disconnect : SessionId → Server γ → Outcome (Server γ)) (s : SessionId)
    (st : Server γ) : Outcome (Server γ) :=
  if (st.session s).connected = false then .ok st
  else
    let st := st.modify s fun x => { x with side := x.side.clear.drain }
    let (result, st) := st.wsa
    match result.failed with
    | none => .ok (st.modify s fun x => { x with wire := x.wire ++ [x.side.sendBuffers] })
    | some errorCode => do
      let st ← handleError disconnect errorCode s st
      .ok (st.modify s fun x => { x with side := x.side.release })

def send (disconnect : SessionId → Server γ → Outcome (Server γ)) (s : SessionId) (sendBuffer : Packet)
    (st : Server γ) : Outcome (Server γ) :=
  let (register, side) := (st.session s).side.push sendBuffer
  let st := st.modify s fun x => { x with side := side }
  if register then registerSend disconnect s st else .ok st

end Session

/-! ## GameSession -/

namespace GameSession

def onConnected (content : Content γ) (api : Api (Server γ)) (s : SessionId) (st : Server γ) :
    Outcome (Server γ) := do
  let st := { st with net := { st.net with
    onConnected := Function.update st.net.onConnected s (st.net.onConnected s + 1)
    manager := insert s st.net.manager } }
  let sendBuffer ← ServerPacketHandler.makeSEnterGame
  let st ← api.send s sendBuffer st
  content.enterRoom api s st

def onDisconnected (content : Content γ) (api : Api (Server γ)) (s : SessionId) (st : Server γ) :
    Outcome (Server γ) :=
  let st := { st with net := { st.net with
    onDisconnected := Function.update st.net.onDisconnected s (st.net.onDisconnected s + 1)
    manager := st.net.manager.erase s } }
  content.leaveRoom api s st

end GameSession

/-- `Send` and `Disconnect` with at most `n` levels of `Disconnect` inside each other. -/
def api (content : Content γ) : ℕ → Api (Server γ)
  | 0 => { send := fun _ _ _ => .error .running, disconnect := fun _ _ => .error .running }
  | n + 1 =>
    let disconnect := Session.disconnect (GameSession.onDisconnected content (api content n))
    { send := Session.send disconnect, disconnect := disconnect }

/-! ## Events -/

namespace Session

variable (content : Content γ) (fuel : ℕ)

/-- The receive side of session `s`, on the state of the rest of the program. -/
def recvApi (s : SessionId) : RecvApi (Server γ) where
  onRecvPacket := content.handlePacket (api content fuel) s
  disconnect := (api content fuel).disconnect s
  isConnected st := (st.session s).connected
  wsaRecv st := st.wsa
  handleError errorCode st := handleError (api content fuel).disconnect errorCode s st

/-- Run a function of the receive side on session `s`. -/
def onRecvSide (s : SessionId) (f : RecvSide (Server γ) → Outcome (RecvSide (Server γ)))
    (st : Server γ) : Outcome (Server γ) := do
  let side ← f { recvBuffer := (st.session s).recvBuffer, posted := (st.session s).posted, rest := st }
  .ok (side.rest.modify s fun x => { x with recvBuffer := side.recvBuffer, posted := side.posted })

def processConnect (s : SessionId) (st : Server γ) : Outcome (Server γ) := do
  let st := st.modify s fun x => { x with connecting := false, connected := true }
  let st := { st with net := Service.addSession s st.net }
  let st ← GameSession.onConnected content (api content fuel) s st
  onRecvSide s (registerRecv (recvApi content fuel s)) st

def processRecv (s : SessionId) (received : List UInt8) (st : Server γ) : Outcome (Server γ) :=
  onRecvSide s (ZeldaServer.processRecv (recvApi content fuel s) fuel received) st

/-- `ProcessSend`; `GameSession::OnSend` does nothing. -/
def processSend (s : SessionId) (numOfBytes : ℤ) (st : Server γ) : Outcome (Server γ) :=
  let st := st.modify s fun x => { x with wire := x.wire.tail, side := x.side.clear }
  if numOfBytes = 0 then (api content fuel).disconnect s st
  else
    let (register, side) := (st.session s).side.recheck
    let st := st.modify s fun x => { x with side := side }
    if register then registerSend (api content fuel).disconnect s st else .ok st

end Session

/-- What `IocpCore::Dispatch` takes from the completion port, and `ClientService::Start`. -/
inductive Event
  /-- accept event `i` completes; whether the socket passed the checks of `ProcessAccept`,
  and how often `AcceptEx` then fails before it is under way again -/
  | accept (i : ℕ) (accepted : Bool) (retries : ℕ)
  /-- a session is created and `ConnectEx` is called on it -/
  | connect
  | connected (s : SessionId)
  | received (s : SessionId) (bytes : List UInt8)
  | sent (s : SessionId) (numOfBytes : ℤ)
  deriving DecidableEq, Repr

/-- `RegisterAccept`: a new session for the accept event, and another one each time that
`AcceptEx` fails. -/
def Listener.registerAccept (i : ℕ) : ℕ → Net → Net
  | 0, net =>
    let (s, net) := Service.createSession net
    { net with acceptEvents := net.acceptEvents.set i s }
  | retries + 1, net =>
    let (s, net) := Service.createSession net
    registerAccept i retries { net with acceptEvents := net.acceptEvents.set i s }

/-- The completion is one that can arrive. -/
def Event.Enabled (net : Net) : Event → Prop
  | .accept i _ _ => i < net.acceptEvents.length
  | .connect => True
  | .connected s => (net.session s).connecting = true
  | .received s bytes => ∃ len, (net.session s).posted = some len ∧ (bytes.length : ℤ) ≤ len
  | .sent s _ => (net.session s).wire ≠ []

/-- `Dispatch` of one completion. -/
def dispatch (content : Content γ) (fuel : ℕ) (st : Server γ) : Event → Outcome (Server γ)
  | .accept i accepted retries =>
    match st.net.acceptEvents[i]? with
    | none => .error .undefined
    | some s => do
      let st ← if accepted then Session.processConnect content fuel s st else .ok st
      .ok { st with net := Listener.registerAccept i retries st.net }
  | .connect =>
    let (s, net) := Service.createSession st.net
    .ok { st with net := net.modify s fun x => { x with connecting := true } }
  | .connected s => Session.processConnect content fuel s st
  | .received s bytes => Session.processRecv content fuel s bytes st
  | .sent s numOfBytes => Session.processSend content fuel s numOfBytes st

end ZeldaServer
