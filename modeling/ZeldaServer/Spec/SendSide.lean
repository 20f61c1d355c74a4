import Mathlib.Data.Int.Notation
import Mathlib.Tactic.Common

/-!
# The send side of a session

The fields of `Session` that `Send`, `RegisterSend` and `ProcessSend` share, and the
sections of those functions that touch them. The functions are put together from
these sections twice: one after the other for a server that handles one event at a
time (`Spec/Session.lean`), and interleaved between threads (`Spec/SendPipe.lean`).
-/

namespace ZeldaServer

structure SendSide (β : Type) where
  sendQueue : List β := []
  /-- `_sendResitered` -/
  sendResitered : Bool := false
  /-- `_sendEvent.sendBuffers` -/
  sendBuffers : List β := []
  deriving DecidableEq, Repr

namespace SendSide

variable {β : Type}

/-- The locked section of `Send`: push, and take the flag if it is free. -/
def push (s : SendSide β) (sendBuffer : β) : Bool × SendSide β :=
  (!s.sendResitered, { s with sendQueue := s.sendQueue ++ [sendBuffer], sendResitered := true })

/-- `RegisterSend` up to its locked section: `_sendEvent.sendBuffers.clear()`. -/
def clear (s : SendSide β) : SendSide β := { s with sendBuffers := [] }

/-- The locked section of `RegisterSend`: the queue moves to the event. -/
def drain (s : SendSide β) : SendSide β :=
  { s with sendBuffers := s.sendBuffers ++ s.sendQueue, sendQueue := [] }

/-- The error path of `RegisterSend`, after `HandleError`. -/
def release (s : SendSide β) : SendSide β := { s with sendBuffers := [], sendResitered := false }

/-- The locked section of `ProcessSend`: keep the flag if there is more to send. -/
def recheck (s : SendSide β) : Bool × SendSide β :=
  if s.sendQueue.isEmpty then (false, { s with sendResitered := false }) else (true, s)

end SendSide

end ZeldaServer
