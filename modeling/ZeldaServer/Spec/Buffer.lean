import ZeldaServer.Spec.SendBuffer

/-!
# BufferReader and BufferWriter

Both are a pointer to memory, a size and a cursor. `Peek`, `Read`, `Write` and `Reserve`
compare what they are asked for with `FreeSize()`, a difference of `uint32`; `operator>>`
and `operator<<` do not. The memory may go on behind the `_size` bytes: a packet lies in the
buffer of its session.
-/

namespace ZeldaServer

open Lib

/-- An object in memory, as its bytes; a `uint32` counts them, as the compiler has no
larger types. -/
structure Datum where
  bytes : List UInt8
  counted : bytes.length < 4294967296
  deriving DecidableEq, Repr

/-- `sizeof(T)`, or the `len` of a pointer -/
def Datum.len (data : Datum) : UInt32 := UInt32.ofNat data.bytes.length

/-- A header as an object in memory. -/
def PacketHeader.datum (header : PacketHeader) : Datum := ⟨header.bytes, by simp [PacketHeader.bytes]⟩

/-- The fields of `BufferReader` and of `BufferWriter`. -/
structure BufferCursor where
  /-- the memory from `_buffer` to the end of its block -/
  buffer : List UInt8 := []
  size : UInt32 := 0
  pos : UInt32 := 0
  /-- history: the offsets and the numbers of the bytes that were accessed -/
  accessed : List (ℕ × ℕ) := []
  deriving DecidableEq, Repr

namespace BufferCursor

/-- `BufferReader::BufferReader` and `BufferWriter::BufferWriter` -/
def new (buffer : List UInt8) (size : UInt32) (pos : UInt32 := 0) : BufferCursor := { buffer, size, pos }

variable (len : UInt32) (c : BufferCursor)

def freeSize : UInt32 := c.size - c.pos

/-- `_pos += len` -/
def advance : BufferCursor := { c with pos := c.pos + len }

/-- A pointer to the `len` bytes at the cursor is used. -/
def touch : BufferCursor := { c with accessed := c.accessed ++ [(c.pos.toNat, len.toNat)] }

/-- The `len` bytes at the cursor. -/
def load : Outcome (List UInt8 × BufferCursor) :=
  if c.pos.toNat + len.toNat ≤ c.buffer.length then .ok ((c.buffer.drop c.pos.toNat).take len.toNat, c.touch len)
  else .error .undefined

/-- `src` becomes the bytes at the cursor. -/
def store (src : Datum) : Outcome BufferCursor :=
  if c.pos.toNat + src.len.toNat ≤ c.buffer.length then
    .ok { c.touch src.len with buffer := writeAt c.buffer c.pos.toNat src.bytes }
  else .error .undefined

end BufferCursor

abbrev BufferReader := BufferCursor

namespace BufferReader

/-- `BufferReader::Peek`, with what `dest` holds then -/
def peek (dest : Datum) (br : BufferReader) : Outcome ((Bool × List UInt8) × BufferReader) :=
  if br.freeSize < dest.len then .ok ((false, dest.bytes), br)
  else do
    let (bytes, br) ← br.load dest.len
    .ok ((true, bytes), br)

/-- `BufferReader::Read` -/
def read (dest : Datum) (br : BufferReader) : Outcome ((Bool × List UInt8) × BufferReader) := do
  let ((ok, bytes), br) ← peek dest br
  if ok then .ok ((true, bytes), br.advance dest.len) else .ok ((false, bytes), br)

/-- `BufferReader::operator>>` -/
def extract (dest : Datum) (br : BufferReader) : Outcome (List UInt8 × BufferReader) := do
  let (bytes, br) ← br.load dest.len
  .ok (bytes, br.advance dest.len)

end BufferReader

abbrev BufferWriter := BufferCursor

namespace BufferWriter

/-- `BufferWriter::Write` -/
def write (src : Datum) (bw : BufferWriter) : Outcome (Bool × BufferWriter) :=
  if bw.freeSize < src.len then .ok (false, bw)
  else do
    let bw ← bw.store src
    .ok (true, bw.advance src.len)

/-- `BufferWriter::Reserve` of `len` bytes, with the offset of the pointer that it returns -/
def reserve (len : UInt32) (bw : BufferWriter) : Option ℕ × BufferWriter :=
  if bw.freeSize < len then (none, bw) else (some bw.pos.toNat, (bw.touch len).advance len)

/-- `BufferWriter::operator<<` -/
def insert (src : Datum) (bw : BufferWriter) : Outcome BufferWriter := do
  let bw ← bw.store src
  .ok (bw.advance src.len)

end BufferWriter

/-! ## Sequences of operations -/

/-- What is done with a `BufferReader`; the argument is the destination before. -/
inductive ReaderOp
  | peek (dest : Datum)
  | read (dest : Datum)
  | extract (dest : Datum)
  deriving DecidableEq, Repr

/-- What is done with a `BufferWriter`. -/
inductive WriterOp
  | write (src : Datum)
  | reserve (len : UInt32)
  | insert (src : Datum)
  deriving DecidableEq, Repr

/-- The destination after an operation, and the reader. -/
def ReaderOp.exec (br : BufferReader) : ReaderOp → Outcome (List UInt8 × BufferReader)
  | .peek dest => do
    let ((_, bytes), br) ← br.peek dest
    .ok (bytes, br)
  | .read dest => do
    let ((_, bytes), br) ← br.read dest
    .ok (bytes, br)
  | .extract dest => br.extract dest

/-- Whether an operation was done, and the writer after it. -/
def WriterOp.exec (bw : BufferWriter) : WriterOp → Outcome (Bool × BufferWriter)
  | .write src => bw.write src
  | .reserve len =>
    let (ret, bw) := bw.reserve len
    .ok (ret.isSome, bw)
  | .insert src => do
    let bw ← bw.insert src
    .ok (true, bw)

end ZeldaServer
