import Mathlib.Data.Int.Notation
import Mathlib.Tactic.Common

/-!
# Socket calls

What `WSASend` and `WSARecv` answer: success, or `SOCKET_ERROR` with the code that
`WSAGetLastError` then returns. The answer is an input of the model.
-/

namespace ZeldaServer

/-- The answer of an overlapped socket call. -/
inductive WsaResult
  | success
  | socketError (code : ℤ)
  deriving DecidableEq, Repr

def WSA_IO_PENDING : ℤ := 997
def WSAECONNABORTED : ℤ := 10053
def WSAECONNRESET : ℤ := 10054

/-- The error code the callers act on: `SOCKET_ERROR` with a code other than
`WSA_IO_PENDING`. Any other answer means the operation is under way. -/
def WsaResult.failed : WsaResult → Option ℤ
  | .success => none
  | .socketError code => if code ≠ WSA_IO_PENDING then some code else none

/-- The two codes for which `HandleError` disconnects. -/
def isReset (errorCode : ℤ) : Bool := errorCode = WSAECONNRESET || errorCode = WSAECONNABORTED

end ZeldaServer
