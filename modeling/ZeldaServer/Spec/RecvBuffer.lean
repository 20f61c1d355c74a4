import Mathlib.Data.Int.Notation
import Mathlib.Tactic.Common

/-!
# RecvBuffer

The receive buffer of a session: a fixed block of memory with a read and a write
cursor. Memory is a function of the address; only addresses below `capacity`
belong to the buffer.
-/

namespace ZeldaServer

/-- `RecvBuffer::BUFFER_COUNT` -/
def BUFFER_COUNT : ℤ := 10

structure RecvBuffer where
  capacity : ℤ
  bufferSize : ℤ
  readPos : ℤ := 0
  writePos : ℤ := 0
  buffer : ℤ → UInt8 := fun _ => 0

/-- The `n` bytes of a block from address `a` on. -/
def slice (mem : ℤ → UInt8) (a : ℤ) (n : ℕ) : List UInt8 :=
  (List.range n).map fun i : ℕ => mem (a + i)

/-- `::memcpy` inside one block, for ranges that do not overlap. -/
def memcpy (mem : ℤ → UInt8) (dst src n : ℤ) : ℤ → UInt8 := fun a =>
  if dst ≤ a ∧ a < dst + n then mem (src + (a - dst)) else mem a

namespace RecvBuffer

/-- The constructor: `bufferSize * BUFFER_COUNT` zero bytes. -/
def new (bufferSize : ℤ) : RecvBuffer where
  capacity := bufferSize * BUFFER_COUNT
  bufferSize := bufferSize

def dataSize (b : RecvBuffer) : ℤ := b.writePos - b.readPos

def freeSize (b : RecvBuffer) : ℤ := b.capacity - b.writePos

/-- The bytes `[ReadPos(), WritePos())`. -/
def unread (b : RecvBuffer) : List UInt8 := slice b.buffer b.readPos b.dataSize.toNat

/-- The write of a completed `WSARecv`: the bytes received, at `WritePos()`. -/
def deliver (b : RecvBuffer) (received : List UInt8) : RecvBuffer :=
  { b with
    buffer := fun a =>
      if b.writePos ≤ a ∧ a < b.writePos + received.length then
        received.getD (a - b.writePos).toNat 0
      else b.buffer a }

def clean (b : RecvBuffer) : RecvBuffer :=
  let dataSize := b.dataSize
  if dataSize = 0 then { b with readPos := 0, writePos := 0 }
  else if b.freeSize < b.bufferSize then
    { b with buffer := memcpy b.buffer 0 b.readPos dataSize, readPos := 0, writePos := dataSize }
  else b

def onRead (b : RecvBuffer) (numOfBytes : ℤ) : Bool × RecvBuffer :=
  if numOfBytes > b.dataSize then (false, b)
  else (true, { b with readPos := b.readPos + numOfBytes })

def onWrite (b : RecvBuffer) (numOfBytes : ℤ) : Bool × RecvBuffer :=
  if numOfBytes > b.freeSize then (false, b)
  else (true, { b with writePos := b.writePos + numOfBytes })

end RecvBuffer

end ZeldaServer
