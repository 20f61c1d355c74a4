import ZeldaServer.Spec.SendSide
import ZeldaServer.Spec.Socket
import Mathlib.Data.Nat.Notation
import Mathlib.Logic.Function.Basic

/-!
# The send pipeline of one session, between threads

Any number of threads run `Send`, `RegisterSend`, `ProcessSend`, `Disconnect` and
`ProcessConnect` on one session. A step is one atomic section of one thread: the
locked section of `Send`, the `IsConnected` test and the drain of `RegisterSend`, the
answer of `WSASend`, `HandleError`, the cleanup after it, and a completion.
`ProcessSend` is one step up to the end of its locked section: what it does before
(clearing `_sendEvent`) only the thread that handles the completion can see.

Each thread has a stack of the calls it is in. User code that `Disconnect` runs
(`OnDisconnected`) may send on the session again, on top of the stack.
-/

namespace ZeldaServer

abbrev ThreadId := ℕ

/-- Where a call stands. -/
inductive Frame
  /-- `registerSend` was set: before the `IsConnected` test of `RegisterSend` -/
  | registerSend
  /-- the session was connected: before the locked section of `RegisterSend` -/
  | drain
  /-- before `WSASend` -/
  | wsaSend
  /-- `WSASend` failed: before `HandleError` -/
  | handleError (errorCode : ℤ)
  /-- after `HandleError`: before the cleanup -/
  | release
  /-- in `OnDisconnected`, called from `Disconnect` -/
  | onDisconnected
  deriving DecidableEq, Repr

/-- The session, the sends under way, the threads, and what has happened so far. -/
structure Pipe (β : Type) where
  connected : Bool := false
  side : SendSide β := {}
  /-- the `WSASend`s under way on `_sendEvent`, each with the buffers it was given -/
  wire : List (List β) := []
  stack : ThreadId → List Frame := fun _ => []
  /-- history: buffers pushed by `Send`, popped by `RegisterSend`, accepted by `WSASend` -/
  pushed : List β := []
  popped : List β := []
  accepted : List β := []
  /-- history: how often `_connected` went from true to false -/
  disconnects : ℕ := 0

inductive PipeAct (β : Type)
  | send (t : ThreadId) (sendBuffer : β)
  | isConnected (t : ThreadId)
  | drain (t : ThreadId)
  | wsaSend (t : ThreadId) (result : WsaResult)
  | handleError (t : ThreadId)
  | release (t : ThreadId)
  | returned (t : ThreadId)
  | completed (t : ThreadId) (i : ℕ) (numOfBytes : ℤ)
  | connect
  | disconnect (t : ThreadId)
  deriving DecidableEq, Repr

namespace Pipe

variable {β : Type}

/-- Thread `t` may call into the session: it is idle, or in user code. -/
def free (w : Pipe β) (t : ThreadId) : Bool :=
  match w.stack t with
  | [] => true
  | .onDisconnected :: _ => true
  | _ => false

def setStack (w : Pipe β) (t : ThreadId) (fs : List Frame) : Pipe β :=
  { w with stack := Function.update w.stack t fs }

/-- `Disconnect` up to `OnDisconnected`, on top of the calls `fs`. -/
def exchange (w : Pipe β) (t : ThreadId) (fs : List Frame) : Pipe β :=
  if w.connected then
    { w with connected := false, disconnects := w.disconnects + 1 }.setStack t (.onDisconnected :: fs)
  else w.setStack t fs

/-- One atomic step; `none` when it is not enabled. -/
def step (w : Pipe β) : PipeAct β → Option (Pipe β)
  | .send t sendBuffer =>
    if w.free t then
      let (registerSend, side) := w.side.push sendBuffer
      let w' := { w with side := side, pushed := w.pushed ++ [sendBuffer] }
      some (if registerSend then w'.setStack t (.registerSend :: w.stack t) else w')
    else none
  | .isConnected t =>
    match w.stack t with
    | .registerSend :: fs => some (if w.connected then w.setStack t (.drain :: fs) else w.setStack t fs)
    | _ => none
  | .drain t =>
    match w.stack t with
    | .drain :: fs =>
      some ({ w with side := w.side.clear.drain, popped := w.popped ++ w.side.sendQueue }.setStack t
        (.wsaSend :: fs))
    | _ => none
  | .wsaSend t result =>
    match w.stack t with
    | .wsaSend :: fs =>
      match result.failed with
      | none =>
        some ({ w with
          wire := w.wire ++ [w.side.sendBuffers]
          accepted := w.accepted ++ w.side.sendBuffers }.setStack t fs)
      | some errorCode => some (w.setStack t (.handleError errorCode :: fs))
    | _ => none
  | .handleError t =>
    match w.stack t with
    | .handleError errorCode :: fs =>
      some (if isReset errorCode then w.exchange t (.release :: fs) else w.setStack t (.release :: fs))
    | _ => none
  | .release t =>
    match w.stack t with
    | .release :: fs => some ({ w with side := w.side.release }.setStack t fs)
    | _ => none
  | .returned t =>
    match w.stack t with
    | .onDisconnected :: fs => some (w.setStack t fs)
    | _ => none
  | .completed t i numOfBytes =>
    match w.stack t, w.wire[i]? with
    | [], some _ =>
      let w' := { w with side := w.side.clear, wire := w.wire.eraseIdx i }
      if numOfBytes = 0 then some (w'.exchange t [])
      else
        let (registerSend, side) := w'.side.recheck
        let w' := { w' with side := side }
        some (if registerSend then w'.setStack t [.registerSend] else w')
    | _, _ => none
  | .connect => some { w with connected := true }
  | .disconnect t => if w.free t then some (w.exchange t (w.stack t)) else none

end Pipe

end ZeldaServer
