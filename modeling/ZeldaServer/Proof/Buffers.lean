import ZeldaServer.Lib.Cursor
import ZeldaServer.Spec.Buffer
import ZeldaServer.Spec.GameServer

/-!
# The cursors of BufferReader and BufferWriter

`Peek`, `Read`, `Write` and `Reserve` keep the cursor inside the buffer because
`FreeSize()` does not wrap as long as it is there. `operator>>` and `operator<<` do not
look at `FreeSize()`, so they keep it inside exactly when their bytes are left.

* `cursors_in_bounds_iff`: a sequence of operations stays in bounds exactly when every
  `operator>>` (`operator<<`) of it is used where its bytes are left.
* `freeSize_wraps`: after an `operator>>` that overruns, the checked operations go on.
* `header_in_bounds_iff`: the dummy client reads the header of a packet in bounds exactly
  when the packet has one.
* `handlePacket_eq_peek`: the server peeks, and handles only packets that have one.
-/

namespace ZeldaServer

open Lib

@[simp] theorem Datum.len_toNat (data : Datum) : data.len.toNat = data.bytes.length :=
  UInt32.toNat_ofNat_of_lt' data.counted

namespace BufferCursor

/-- The cursor and the bytes that were accessed are inside the `_size` bytes, and
`FreeSize()` is what is left of them. -/
structure Within (c : BufferCursor) : Prop where
  pos_le : c.pos ≤ c.size
  freeSize_eq : c.pos.toNat + c.freeSize.toNat = c.size.toNat
  accessed_le : ∀ i n, (i, n) ∈ c.accessed → i + n ≤ c.size.toNat

/-- A cursor inside a buffer of `size` bytes. -/
structure Bounded (size : ℕ) (c : BufferCursor) : Prop where
  size_eq : c.size.toNat = size
  room : size ≤ c.buffer.length
  within : c.Within

variable {c : BufferCursor} {len : UInt32} {size : ℕ}

theorem freeSize_add (h : c.pos ≤ c.size) : c.pos.toNat + c.freeSize.toNat = c.size.toNat := by
  rw [freeSize, UInt32.toNat_sub_of_le _ _ h, Nat.add_sub_cancel' (UInt32.le_iff_toNat_le.1 h)]

/-- What the checked operations ask. -/
theorem Bounded.freeSize_lt (h : c.Bounded size) : c.freeSize < len ↔ size < c.pos.toNat + len.toNat := by
  rw [UInt32.lt_iff_toNat_lt, ← h.size_eq, ← h.within.freeSize_eq]
  omega

theorem new_bounded {buffer : List UInt8} {size pos : UInt32} (hroom : size.toNat ≤ buffer.length)
    (hpos : pos ≤ size) : (new buffer size pos).Bounded size.toNat where
  size_eq := rfl
  room := hroom
  within := ⟨hpos, freeSize_add hpos, by simp [new]⟩

/-! ## Bytes that are left -/

theorem Bounded.touch (h : c.Bounded size) (hfit : c.pos.toNat + len.toNat ≤ size) : (c.touch len).Bounded size where
  size_eq := h.size_eq
  room := h.room
  within := by
    refine ⟨h.within.pos_le, h.within.freeSize_eq, fun i n hin => ?_⟩
    obtain hin | hin := List.mem_append.1 hin
    · exact h.within.accessed_le i n hin
    · obtain ⟨rfl, rfl⟩ := Prod.mk.inj (List.mem_singleton.1 hin)
      exact hfit.trans h.size_eq.ge

theorem Bounded.pos_advance (h : c.Bounded size) (hfit : c.pos.toNat + len.toNat ≤ size) :
    (c.advance len).pos.toNat = c.pos.toNat + len.toNat := by
  have hsize : size < 4294967296 := by
    rw [← h.size_eq]
    exact c.size.toNat_lt
  exact (UInt32.toNat_add _ _).trans (Nat.mod_eq_of_lt (hfit.trans_lt hsize))

theorem Bounded.advance (h : c.Bounded size) (hfit : c.pos.toNat + len.toNat ≤ size) : (c.advance len).Bounded size where
  size_eq := h.size_eq
  room := h.room
  within := by
    have hpos : (c.advance len).pos ≤ (c.advance len).size := by
      rw [UInt32.le_iff_toNat_le, h.pos_advance hfit]
      exact hfit.trans h.size_eq.ge
    exact ⟨hpos, freeSize_add hpos, h.within.accessed_le⟩

/-- Bytes are used, and the cursor goes behind them. -/
theorem Bounded.consume (h : c.Bounded size) (hfit : c.pos.toNat + len.toNat ≤ size) :
    ((c.touch len).advance len).Bounded size ∧ ((c.touch len).advance len).pos.toNat = c.pos.toNat + len.toNat :=
  ⟨(h.touch hfit).advance hfit, (h.touch hfit).pos_advance hfit⟩

theorem Bounded.load (h : c.Bounded size) (hfit : c.pos.toNat + len.toNat ≤ size) :
    c.load len = .ok ((c.buffer.drop c.pos.toNat).take len.toNat, c.touch len) :=
  if_pos (hfit.trans h.room)

theorem Bounded.store (h : c.Bounded size) {src : Datum} (hfit : c.pos.toNat + src.len.toNat ≤ size) :
    c.store src = .ok { c.touch src.len with buffer := writeAt c.buffer c.pos.toNat src.bytes } ∧
      Bounded size { c.touch src.len with buffer := writeAt c.buffer c.pos.toNat src.bytes } := by
  refine ⟨if_pos (hfit.trans h.room), ?_⟩
  have htouch := h.touch hfit
  refine ⟨htouch.size_eq, ?_, htouch.within.pos_le, htouch.within.freeSize_eq, htouch.within.accessed_le⟩
  have hroom := hfit.trans h.room
  rw [Datum.len_toNat] at hroom
  simp only [writeAt, List.length_append, List.length_take, List.length_drop]
  have := h.room
  omega

theorem mem_touch (c : BufferCursor) (len : UInt32) : (c.pos.toNat, len.toNat) ∈ (c.touch len).accessed :=
  List.mem_append_right _ (List.mem_singleton_self _)

/-! ## Operations -/

section

variable {α ω : Type}

/-- An operation that asks for `len` bytes leaves the cursor in bounds; if they are not
there, it changes nothing and gives `refusal`. -/
structure Safe (c : BufferCursor) (len : ℕ) (refusal ret : α) (c' : BufferCursor) : Prop where
  within : c'.Within
  size_eq : c'.size = c.size
  unchanged : c.size.toNat < c.pos.toNat + len → c' = c ∧ ret = refusal

/-- A cursor and what is done with it. -/
def machine (request : ω → Request) (exec : BufferCursor → ω → Outcome (α × BufferCursor)) : Cursored BufferCursor ω α where
  pos c := c.pos.toNat
  request := request
  exec := exec

variable {request : ω → Request} {exec : BufferCursor → ω → Outcome (α × BufferCursor)} {refusal : ω → α}

/-- What is to be shown of the operations: what they do with bytes that are there, that the
checked ones refuse, and that the others use the bytes all the same. -/
theorem machine_sound
    (done : ∀ c op, Bounded size c → c.pos.toNat + (request op).len ≤ size →
      ∃ ret c', exec c op = .ok (ret, c') ∧ c'.Bounded size ∧ c'.size = c.size ∧
        c'.pos.toNat = c.pos.toNat + (request op).step)
    (refused : ∀ c op, Bounded size c → size < c.pos.toNat + (request op).len → (request op).checked = true →
      exec c op = .ok (refusal op, c))
    (overrun : ∀ c op, (request op).checked = false →
      IfReturns (exec c op) fun r => r.2.size = c.size ∧ (c.pos.toNat, (request op).len) ∈ r.2.accessed) :
    (machine request exec).Sound (fun c op ret c' => c.Safe (request op).len (refusal op) ret c') (Bounded size) size where
  done c op h hfit := by
    obtain ⟨ret, c', hexec, hgood, hsize, hpos⟩ := done c op h hfit
    refine returns_iff.2 ⟨_, hexec, hgood, hpos, hgood.within, hsize, fun hout => ?_⟩
    rw [h.size_eq] at hout
    exact absurd hfit hout.not_ge
  refused c op h hout hchecked :=
    returns_iff.2 ⟨_, refused c op h hout hchecked, h, rfl, h.within, rfl, fun _ => ⟨rfl, rfl⟩⟩
  overrun c op h hout hunchecked := by
    refine (overrun c op hunchecked).imp fun r ⟨hsize, hin⟩ hsafe => ?_
    have hle := hsafe.within.accessed_le _ _ hin
    rw [hsize, h.size_eq] at hle
    exact absurd hout hle.not_gt

end

end BufferCursor

/-! ## Readers -/

/-- What an operation of a reader asks for. -/
def ReaderOp.request : ReaderOp → Request
  | .peek dest => ⟨dest.bytes.length, 0, true⟩
  | .read dest => ⟨dest.bytes.length, dest.bytes.length, true⟩
  | .extract dest => ⟨dest.bytes.length, dest.bytes.length, false⟩

/-- The destination of an operation, before it. -/
def ReaderOp.dest : ReaderOp → List UInt8
  | .peek dest => dest.bytes
  | .read dest => dest.bytes
  | .extract dest => dest.bytes

/-- What `dest` holds and where the reader is, after an operation. -/
def ReaderOp.Safe (br : BufferReader) (op : ReaderOp) (dest : List UInt8) (br' : BufferReader) : Prop :=
  br.Safe op.request.len op.dest dest br'

/-- A `BufferReader` and what is done with it. -/
def readers : Cursored BufferReader ReaderOp (List UInt8) := BufferCursor.machine ReaderOp.request ReaderOp.exec

namespace BufferReader

variable {br : BufferReader} {dest : Datum} {size : ℕ}

theorem peek_done (h : br.Bounded size) (hfit : br.pos.toNat + dest.len.toNat ≤ size) :
    peek dest br = .ok ((true, (br.buffer.drop br.pos.toNat).take dest.len.toNat), br.touch dest.len) := by
  have hfree : ¬ br.freeSize < dest.len := mt h.freeSize_lt.1 hfit.not_gt
  rw [peek, if_neg hfree, h.load hfit]
  rfl

theorem peek_refused (h : br.Bounded size) (hout : size < br.pos.toNat + dest.len.toNat) :
    peek dest br = .ok ((false, dest.bytes), br) :=
  if_pos (h.freeSize_lt.2 hout)

theorem read_done (h : br.Bounded size) (hfit : br.pos.toNat + dest.len.toNat ≤ size) :
    read dest br = .ok ((true, (br.buffer.drop br.pos.toNat).take dest.len.toNat),
      (br.touch dest.len).advance dest.len) := by
  rw [read, peek_done h hfit]
  rfl

theorem read_refused (h : br.Bounded size) (hout : size < br.pos.toNat + dest.len.toNat) :
    read dest br = .ok ((false, dest.bytes), br) := by
  rw [read, peek_refused h hout]
  rfl

theorem extract_done (h : br.Bounded size) (hfit : br.pos.toNat + dest.len.toNat ≤ size) :
    extract dest br = .ok ((br.buffer.drop br.pos.toNat).take dest.len.toNat,
      (br.touch dest.len).advance dest.len) := by
  rw [extract, h.load hfit]
  rfl

end BufferReader

namespace ReaderOp

variable {br : BufferReader} {op : ReaderOp} {size : ℕ}

/-- An operation whose bytes are there reads them. -/
theorem exec_done (h : br.Bounded size) (hfit : br.pos.toNat + op.request.len ≤ size) :
    ∃ br', op.exec br = .ok ((br.buffer.drop br.pos.toNat).take op.request.len, br') ∧ br'.Bounded size ∧
      br'.size = br.size ∧ br'.pos.toNat = br.pos.toNat + op.request.step := by
  cases op with
  | peek dest =>
    have hlen : br.pos.toNat + dest.len.toNat ≤ size := by rwa [Datum.len_toNat]
    refine ⟨br.touch dest.len, ?_, h.touch hlen, rfl, rfl⟩
    rw [exec, BufferReader.peek_done h hlen, Datum.len_toNat]
    rfl
  | read dest =>
    have hlen : br.pos.toNat + dest.len.toNat ≤ size := by rwa [Datum.len_toNat]
    obtain ⟨hgood, hpos⟩ := h.consume hlen
    refine ⟨(br.touch dest.len).advance dest.len, ?_, hgood, rfl, ?_⟩
    · rw [exec, BufferReader.read_done h hlen, Datum.len_toNat]
      rfl
    · rw [hpos, Datum.len_toNat]
      rfl
  | extract dest =>
    have hlen : br.pos.toNat + dest.len.toNat ≤ size := by rwa [Datum.len_toNat]
    obtain ⟨hgood, hpos⟩ := h.consume hlen
    refine ⟨(br.touch dest.len).advance dest.len, ?_, hgood, rfl, ?_⟩
    · rw [exec, BufferReader.extract_done h hlen, Datum.len_toNat]
      rfl
    · rw [hpos, Datum.len_toNat]
      rfl

/-- A checked operation whose bytes are not there changes nothing. -/
theorem exec_refused (h : br.Bounded size) (hout : size < br.pos.toNat + op.request.len)
    (hchecked : op.request.checked = true) : op.exec br = .ok (op.dest, br) := by
  cases op with
  | peek dest =>
    rw [exec, BufferReader.peek_refused h (by rwa [Datum.len_toNat])]
    rfl
  | read dest =>
    rw [exec, BufferReader.read_refused h (by rwa [Datum.len_toNat])]
    rfl
  | extract dest => exact absurd hchecked Bool.false_ne_true

/-- An unchecked operation whose bytes are not there uses them. -/
theorem exec_overrun (hunchecked : op.request.checked = false) :
    IfReturns (op.exec br) fun r => r.2.size = br.size ∧ (br.pos.toNat, op.request.len) ∈ r.2.accessed := by
  cases op with
  | peek dest => exact absurd hunchecked Bool.false_ne_true.symm
  | read dest => exact absurd hunchecked Bool.false_ne_true.symm
  | extract dest =>
    rw [exec, BufferReader.extract, BufferCursor.load]
    split
    · refine .ok ⟨rfl, ?_⟩
      have hmem := br.mem_touch dest.len
      rwa [Datum.len_toNat] at hmem
    · exact .error trivial

end ReaderOp

/-- What a reader does is safe, except an `operator>>` that overruns. -/
theorem readers_sound (size : ℕ) : readers.Sound ReaderOp.Safe (BufferCursor.Bounded size) size :=
  BufferCursor.machine_sound (fun _ _ h hfit => ⟨_, ReaderOp.exec_done h hfit⟩)
    (fun _ _ => ReaderOp.exec_refused) (fun _ _ => ReaderOp.exec_overrun)

/-! ## Writers -/

/-- What an operation of a writer asks for. -/
def WriterOp.request : WriterOp → Request
  | .write src => ⟨src.bytes.length, src.bytes.length, true⟩
  | .reserve len => ⟨len.toNat, len.toNat, true⟩
  | .insert src => ⟨src.bytes.length, src.bytes.length, false⟩

/-- What an operation of a writer writes itself. -/
def WriterOp.src : WriterOp → List UInt8
  | .write src => src.bytes
  | .reserve _ => []
  | .insert src => src.bytes

/-- Whether an operation was done and where the writer is, after it. -/
def WriterOp.Safe (bw : BufferWriter) (op : WriterOp) (done : Bool) (bw' : BufferWriter) : Prop :=
  bw.Safe op.request.len false done bw'

/-- A `BufferWriter` and what is done with it. -/
def writers : Cursored BufferWriter WriterOp Bool := BufferCursor.machine WriterOp.request WriterOp.exec

theorem writeAt_nil (block : List UInt8) (i : ℕ) : writeAt block i [] = block := by
  rw [writeAt, List.append_nil, List.length_nil, Nat.add_zero, List.take_append_drop]

namespace WriterOp

variable {bw : BufferWriter} {op : WriterOp} {size : ℕ}

/-- An operation for which there is room writes there. -/
theorem exec_done (h : bw.Bounded size) (hfit : bw.pos.toNat + op.request.len ≤ size) :
    ∃ bw', op.exec bw = .ok (true, bw') ∧ bw'.buffer = writeAt bw.buffer bw.pos.toNat op.src ∧ bw'.Bounded size ∧
      bw'.size = bw.size ∧ bw'.pos.toNat = bw.pos.toNat + op.request.step := by
  cases op with
  | write src =>
    have hlen : bw.pos.toNat + src.len.toNat ≤ size := by rwa [Datum.len_toNat]
    have hfree : ¬ bw.freeSize < src.len := mt h.freeSize_lt.1 hlen.not_gt
    obtain ⟨hstore, hstored⟩ := h.store hlen
    refine ⟨_, ?_, rfl, hstored.advance hlen, rfl, ?_⟩
    · rw [exec, BufferWriter.write, if_neg hfree, hstore]
      rfl
    · rw [hstored.pos_advance hlen, Datum.len_toNat]
      rfl
  | reserve len =>
    have hfree : ¬ bw.freeSize < len := mt h.freeSize_lt.1 hfit.not_gt
    obtain ⟨hgood, hpos⟩ := h.consume hfit
    refine ⟨(bw.touch len).advance len, ?_, (writeAt_nil _ _).symm, hgood, rfl, hpos⟩
    rw [exec, BufferWriter.reserve, if_neg hfree]
    rfl
  | insert src =>
    have hlen : bw.pos.toNat + src.len.toNat ≤ size := by rwa [Datum.len_toNat]
    obtain ⟨hstore, hstored⟩ := h.store hlen
    refine ⟨_, ?_, rfl, hstored.advance hlen, rfl, ?_⟩
    · rw [exec, BufferWriter.insert, hstore]
      rfl
    · rw [hstored.pos_advance hlen, Datum.len_toNat]
      rfl

/-- A checked operation for which there is no room changes nothing. -/
theorem exec_refused (h : bw.Bounded size) (hout : size < bw.pos.toNat + op.request.len)
    (hchecked : op.request.checked = true) : op.exec bw = .ok (false, bw) := by
  cases op with
  | write src =>
    have hfree : bw.freeSize < src.len := h.freeSize_lt.2 (by rwa [Datum.len_toNat])
    rw [exec, BufferWriter.write, if_pos hfree]
  | reserve len =>
    rw [exec, BufferWriter.reserve, if_pos (h.freeSize_lt.2 hout)]
    rfl
  | insert src => exact absurd hchecked Bool.false_ne_true

/-- An unchecked operation for which there is no room writes all the same. -/
theorem exec_overrun (hunchecked : op.request.checked = false) :
    IfReturns (op.exec bw) fun r => r.2.size = bw.size ∧ (bw.pos.toNat, op.request.len) ∈ r.2.accessed := by
  cases op with
  | write src => exact absurd hunchecked Bool.false_ne_true.symm
  | reserve len => exact absurd hunchecked Bool.false_ne_true.symm
  | insert src =>
    rw [exec, BufferWriter.insert, BufferCursor.store]
    split
    · refine .ok ⟨rfl, ?_⟩
      have hmem := bw.mem_touch src.len
      rwa [Datum.len_toNat] at hmem
    · exact .error trivial

end WriterOp

/-- What a writer does is safe, except an `operator<<` that overruns. -/
theorem writers_sound (size : ℕ) : writers.Sound WriterOp.Safe (BufferCursor.Bounded size) size := by
  refine BufferCursor.machine_sound (fun bw op h hfit => ?_) (fun _ _ => WriterOp.exec_refused)
    (fun _ _ => WriterOp.exec_overrun)
  obtain ⟨bw', hexec, -, hdone⟩ := WriterOp.exec_done h hfit
  exact ⟨true, bw', hexec, hdone⟩

/-! ## Whole sequences -/

/-- **When cursors stay in bounds**: exactly when every `operator>>` (`operator<<`) of the
sequence is used where its bytes are left. -/
theorem cursors_in_bounds_iff (buffer : List UInt8) (size pos : UInt32) (hroom : size.toNat ≤ buffer.length)
    (hpos : pos ≤ size) :
    (∀ ops, readers.SafeRun ReaderOp.Safe (BufferCursor.new buffer size pos) ops ↔
      Fit size.toNat pos.toNat (ops.map ReaderOp.request)) ∧
    (∀ ops, writers.SafeRun WriterOp.Safe (BufferCursor.new buffer size pos) ops ↔
      Fit size.toNat pos.toNat (ops.map WriterOp.request)) := by
  have hnew := BufferCursor.new_bounded hroom hpos
  exact ⟨Cursored.safeRun_iff (readers_sound _) hnew, Cursored.safeRun_iff (writers_sound _) hnew⟩

/-- A header is peeked, skipped and another one read; room for a header is reserved, and two are written. -/
theorem cursors_in_bounds_headers :
    readers.SafeRun ReaderOp.Safe (BufferCursor.new [4, 0, 10, 0, 4, 0, 10, 0, 1] 8)
      [.peek (PacketHeader.datum ⟨0, 0⟩), .extract (PacketHeader.datum ⟨0, 0⟩), .read (PacketHeader.datum ⟨0, 0⟩),
        .read (PacketHeader.datum ⟨0, 0⟩)] ∧
    writers.SafeRun WriterOp.Safe (BufferCursor.new (List.replicate 12 0) 12)
      [.reserve 4, .insert (PacketHeader.datum ⟨4, 10⟩), .write (PacketHeader.datum ⟨4, 10⟩), .reserve 1] :=
  ⟨((cursors_in_bounds_iff _ _ _ (by decide) (by decide)).1 _).2 (by decide),
    ((cursors_in_bounds_iff _ _ _ (by decide) (by decide)).2 _).2 (by decide)⟩

/-- A packet of 2 bytes before one of 6: the header is read from both, `FreeSize()` is then
4294967294, and the checked `Read` goes on behind the buffer. -/
theorem freeSize_wraps :
    ¬ readers.SafeRun ReaderOp.Safe (BufferCursor.new [2, 0, 6, 0, 10, 0, 1, 1] 2)
      [.extract (PacketHeader.datum ⟨0, 0⟩), .read (PacketHeader.datum ⟨0, 0⟩)] ∧
    ∃ br br', BufferReader.extract (PacketHeader.datum ⟨0, 0⟩) (BufferCursor.new [2, 0, 6, 0, 10, 0, 1, 1] 2) =
        .ok ([2, 0, 6, 0], br) ∧ br.size < br.pos ∧ br.freeSize = 4294967294 ∧
      BufferReader.read (PacketHeader.datum ⟨0, 0⟩) br = .ok ((true, [10, 0, 1, 1]), br') ∧ br'.pos = 8 := by
  constructor
  · intro hsafe
    have hfit := (Cursored.safeRun_iff (readers_sound _) (BufferCursor.new_bounded (by decide) (by decide)) _).1 hsafe
    exact absurd hfit (by decide)
  · exact ⟨_, _, rfl, by decide, by decide, rfl, by decide⟩

/-! ## The header of a packet -/

section

variable {packet : List UInt8} (header : PacketHeader)

/-- `br >> header` of the dummy client, in a packet with other bytes behind it. -/
theorem header_in_bounds_iff (hlen : packet.length < 4294967296) (behind : List UInt8) :
    readers.SafeRun ReaderOp.Safe (BufferCursor.new (packet ++ behind) (UInt32.ofNat packet.length))
      [.extract header.datum] ↔ sizeofPacketHeader ≤ packet.length := by
  have hsize : (UInt32.ofNat packet.length).toNat = packet.length := UInt32.toNat_ofNat_of_lt' hlen
  have hroom : (UInt32.ofNat packet.length).toNat ≤ (packet ++ behind).length := by
    rw [hsize, List.length_append]
    exact Nat.le_add_right _ _
  have hnew := BufferCursor.new_bounded hroom UInt32.zero_le
  rw [Cursored.safeRun_iff (readers_sound _) hnew, hsize]
  constructor
  · rintro ⟨hfit, -⟩
    exact (Nat.zero_add _).ge.trans (hfit rfl)
  · intro hfit
    exact ⟨fun _ => (Nat.zero_add _).le.trans hfit, trivial⟩

theorem PacketHeader.read_take (buffer : List UInt8) :
    PacketHeader.read (buffer.take sizeofPacketHeader) = PacketHeader.read buffer := by
  obtain _ | ⟨a, _ | ⟨b, _ | ⟨c, _ | ⟨d, rest⟩⟩⟩⟩ := buffer <;> rfl

/-- What the server makes of a packet, with the `Peek` by which it reads the header. -/
theorem handlePacket_eq_peek {ν : Type} (parse : List UInt8 → CMove)
    (send : SessionId → Packet → Game ν → Outcome (Game ν)) (fuel : ℕ) (session : SessionId) (st : Game ν)
    (hlen : packet.length < 4294967296) :
    ServerPacketHandler.handlePacket parse send fuel session packet st =
      (BufferReader.peek header.datum (BufferCursor.new packet (UInt32.ofNat packet.length)) >>= fun r =>
        if r.1.1 = false then .error .undefined
        else if (PacketHeader.read r.1.2).id = C_Move then
          ServerPacketHandler.handleCMove parse send fuel session packet st
        else .ok st) := by
  have hsize : (UInt32.ofNat packet.length).toNat = packet.length := UInt32.toNat_ofNat_of_lt' hlen
  have hnew := BufferCursor.new_bounded hsize.le UInt32.zero_le
  rw [hsize] at hnew
  rw [ServerPacketHandler.handlePacket]
  by_cases hout : packet.length < sizeofPacketHeader
  · rw [if_pos hout, BufferReader.peek_refused hnew]
    · rfl
    · exact hout.trans_eq (Nat.zero_add _).symm
  · rw [if_neg hout, BufferReader.peek_done hnew]
    · rw [← PacketHeader.read_take packet]
      rfl
    · exact (Nat.zero_add _).le.trans (Nat.le_of_not_lt hout)

end

end ZeldaServer
