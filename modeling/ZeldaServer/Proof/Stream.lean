import ZeldaServer.Proof.Recv
import ZeldaServer.Spec.SendBuffer

/-!
# The packet stream survives any chunking

Messages are framed by `MakeSendBuffer`, the frames are sent as one stream of
bytes, and the stream arrives in receive completions that end anywhere.

* `makeSendBuffer_frame`: a message of at most 65531 bytes becomes its header and
  its payload.
* `framing_roundtrip`: after any completions that make up a prefix of the stream,
  `OnRecvPacket` has been called on exactly the frames contained in the prefix, in
  order, and the rest of the prefix is unread.
-/

namespace ZeldaServer

open Lib

/-! ## Frames -/

/-- The frame of a message: its size and id, then its payload. -/
def frameOf (m : UInt16 × List UInt8) : List UInt8 :=
  PacketHeader.bytes ⟨UInt16.ofNat (m.2.length + sizeofPacketHeader), m.1⟩ ++ m.2

@[simp] theorem bytes_length (h : PacketHeader) : h.bytes.length = sizeofPacketHeader := rfl

theorem frameOf_length (m : UInt16 × List UInt8) : (frameOf m).length = m.2.length + 4 := by
  rw [frameOf, List.length_append, bytes_length, sizeofPacketHeader, Nat.add_comm]

/-- Reading a header gives back the header written. -/
theorem read_bytes (h : PacketHeader) (xs : List UInt8) : PacketHeader.read (h.bytes ++ xs) = h := by
  obtain ⟨size, id⟩ := h
  have key : ∀ w : UInt16, UInt16.ofNat ((UInt8.ofNat w.toNat).toNat +
      256 * (UInt8.ofNat (w.toNat / 256)).toNat) = w := by
    intro w
    have hw := w.toNat_lt
    apply UInt16.toNat.inj
    rw [UInt16.toNat_ofNat', UInt8.toNat_ofNat', UInt8.toNat_ofNat']
    omega
  exact PacketHeader.mk.injEq _ _ _ _ ▸ ⟨key size, key id⟩

theorem isFrame_frameOf {m : UInt16 × List UInt8} (h : m.2.length ≤ 65531) :
    packetFormat.IsFrame (frameOf m) := by
  have hl := frameOf_length m
  refine ⟨by rw [hl]; exact Nat.le_add_left _ _, ?_, by omega⟩
  rw [packetFormat_size, frameOf, read_bytes, ← frameOf, hl, UInt16.toNat_ofNat', sizeofPacketHeader]
  omega

/-- A header and a payload fill a block of their size. -/
theorem writeAt_packet (header : PacketHeader) (pkt : List UInt8) :
    writeAt (writeAt (SendBuffer.new (pkt.length + 4)).buffer 0 header.bytes) sizeofPacketHeader pkt =
      header.bytes ++ pkt := by
  simp only [writeAt, SendBuffer.new, List.take_zero, List.nil_append, Nat.zero_add]
  rw [List.take_left' (bytes_length _), List.drop_append, bytes_length,
    List.drop_eq_nil_of_le (by rw [bytes_length]; omega), List.nil_append]
  simp [sizeofPacketHeader]

/-- **`MakeSendBuffer` frames** every message whose packet size fits a `uint16`. -/
theorem makeSendBuffer_frame {m : UInt16 × List UInt8} (h : m.2.length ≤ 65531) :
    ∃ b, makeSendBuffer m.2 m.1 = .ok b ∧ b.frame = frameOf m := by
  have hd : (UInt16.ofNat m.2.length).toNat = m.2.length := by
    rw [UInt16.toNat_ofNat']; omega
  have hp : UInt16.ofNat m.2.length + UInt16.ofNat sizeofPacketHeader =
      UInt16.ofNat (m.2.length + sizeofPacketHeader) := (UInt16.ofNat_add _ _).symm
  have hq : (UInt16.ofNat (m.2.length + sizeofPacketHeader)).toNat = m.2.length + 4 := by
    rw [UInt16.toNat_ofNat', sizeofPacketHeader]; omega
  unfold makeSendBuffer serializeToArray
  simp only [hp, hq, hd, lt_irrefl, if_false]
  rw [if_neg (by rw [sizeofPacketHeader]; omega)]
  refine ⟨_, rfl, ?_⟩
  have hw := writeAt_packet ⟨UInt16.ofNat (m.2.length + sizeofPacketHeader), m.1⟩ m.2
  simp only [SendBuffer.frame, SendBuffer.close, hw]
  rw [← frameOf]
  apply List.take_of_length_le
  rw [frameOf_length, UInt16.toNat_toUInt32, hq]

/-- The frames of a list of messages, as the sender makes them. -/
def encodeAll (msgs : List (UInt16 × List UInt8)) : Outcome (List (List UInt8)) :=
  msgs.mapM fun m => SendBuffer.frame <$> makeSendBuffer m.2 m.1

theorem encodeAll_ok {msgs : List (UInt16 × List UInt8)} (h : ∀ m ∈ msgs, m.2.length ≤ 65531) :
    encodeAll msgs = .ok (msgs.map frameOf) := by
  unfold encodeAll
  induction msgs with
  | nil => rfl
  | cons m ms ih =>
    obtain ⟨b, hb, hf⟩ := makeSendBuffer_frame (h m List.mem_cons_self)
    rw [List.mapM_cons, hb, ih fun n hn => h n (List.mem_cons_of_mem m hn)]
    simp [hf, pure, Except.pure]

/-! ## Receiving -/

/-- Handling receive completions one after the other. -/
def recvAll (fuel : ℕ) (completions : List (List UInt8)) (s : RecvSide (List (List UInt8))) :
    Outcome (RecvSide (List (List UInt8))) :=
  completions.foldlM (fun s received => processRecv recorder fuel received s) s

/-- Every completion has at least one byte and fits the receive posted before it. -/
def Deliverable (fuel : ℕ) : List (List UInt8) → RecvSide (List (List UInt8)) → Prop
  | [], _ => True
  | received :: more, s => Receivable s received ∧
      ∀ s', processRecv recorder fuel received s = .ok s' → Deliverable fuel more s'

/-- A session that has just connected and posted its first receive. -/
def connected : RecvSide (List (List UInt8)) :=
  ⟨RecvBuffer.new BUFFER_SIZE, some (RecvBuffer.new BUFFER_SIZE).freeSize, []⟩

/-- After receiving `xs`: the packets delivered and the unread bytes are the cut of `xs`. -/
structure Streamed (s : RecvSide (List (List UInt8))) (xs : List UInt8) : Prop where
  ok : RecvOK s
  posted : s.posted = some s.recvBuffer.freeSize
  cut : Cut packetFormat xs s.rest s.recvBuffer.unread

theorem streamed_connected : Streamed connected [] :=
  ⟨@start_ok _ recorder [] connected rfl, rfl, .stop (Or.inl (by decide))⟩

theorem deliverAll_recorder (packets st : List (List UInt8)) :
    deliverAll recorder.onRecvPacket packets st = .ok (st ++ packets) := by
  induction packets generalizing st with
  | nil => simp
  | cons p ps ih =>
    rw [deliverAll_cons, recorder, ok_bind]
    exact (ih _).trans (by simp)

variable {frames : List (List UInt8)} {fuel : ℕ}

/-- In an initial piece of a stream of frames, what follows a cut can be cut on. -/
theorem cut_more {s : RecvSide (List (List UInt8))} {xs received : List UInt8}
    (hs : Streamed s xs) (hframes : ∀ f ∈ frames, packetFormat.IsFrame f)
    (hpre : xs ++ received <+: frames.flatten) : ∃ packets left,
      Cut packetFormat (s.recvBuffer.unread ++ received) packets left ∧
        packets.length ≤ (s.recvBuffer.unread ++ received).length := by
  obtain ⟨packets, hp, hc⟩ := hs.cut.append_inv (cut_initial hframes (by decide) hpre)
  refine ⟨packets, _, hc, ?_⟩
  have h1 : ∀ g ∈ packets, 0 < g.length := fun g hg =>
    (hframes g (contained_subset frames _ (hp ▸ List.mem_append_right _ hg))).pos
  have h2 := length_le_flatten h1
  rw [congrArg List.length hc.join, List.length_append]
  omega

/-- One completion that continues a stream of frames. -/
theorem streamed_step {s : RecvSide (List (List UInt8))} {xs received : List UInt8}
    (hs : Streamed s xs) (hframes : ∀ f ∈ frames, packetFormat.IsFrame f)
    (hpre : xs ++ received <+: frames.flatten) (hr : Receivable s received) (hfuel : 655360 < fuel) :
    ∃ s', processRecv recorder fuel received s = .ok s' ∧ Streamed s' (xs ++ received) := by
  have hsafe : CompletionSafe recorder s received := hs.ok.safe hr
  obtain ⟨packets, left, hc, hlen⟩ := cut_more hs hframes hpre
  rw [← hs.ok.written_unread hr] at hc hlen
  -- there are no more packets than bytes in the buffer, so the fuel suffices
  have hf : packets.length < fuel := by
    have h1 := hsafe.written.unread_length
    have h2 := hsafe.written.capacity
    have h3 := hsafe.written.writePos
    have h4 := hsafe.written.readPos
    simp only [RecvBuffer.dataSize, BUFFER_SIZE, BUFFER_COUNT] at h1 h2
    omega
  have hon : onRecv recorder.onRecvPacket fuel (s.written received).unread s.rest = _ :=
    onRecvLoop_cut recorder.onRecvPacket fuel 0 (Nat.zero_le _) hc hf s.rest
  rw [deliverAll_recorder, ok_bind] at hon
  have hp : processRecv recorder fuel received s = .ok
      { recvBuffer := ((s.written received).onRead
          (((s.written received).unread.length : ℤ) - left.length)).2.clean,
        posted := some ((s.written received).onRead
          (((s.written received).unread.length : ℤ) - left.length)).2.clean.freeSize,
        rest := s.rest ++ packets } := by
    rw [processRecv_spec hs.ok hr, hon]
    rfl
  refine ⟨_, hp, completion_ok hs.ok ⟨hr, fuel, hp⟩, rfl, ?_⟩
  refine hs.cut.append ?_
  rw [left_unread hsafe.written hc, ← hs.ok.written_unread hr]
  exact hc

/-- Completions that continue a stream of frames are all handled. -/
theorem streamed_all {completions : List (List UInt8)} (hfuel : 655360 < fuel)
    (hframes : ∀ f ∈ frames, packetFormat.IsFrame f) {s : RecvSide (List (List UInt8))}
    {xs : List UInt8} (hs : Streamed s xs) (hpre : xs ++ completions.flatten <+: frames.flatten)
    (hd : Deliverable fuel completions s) :
    ∃ s', recvAll fuel completions s = .ok s' ∧ Streamed s' (xs ++ completions.flatten) := by
  induction completions generalizing s xs with
  | nil => exact ⟨s, rfl, by simpa using hs⟩
  | cons received more ih =>
    rw [List.flatten_cons, ← List.append_assoc] at hpre ⊢
    have hpre1 := (List.prefix_append (xs ++ received) more.flatten).trans hpre
    obtain ⟨s1, h1, hs1⟩ := streamed_step hs hframes hpre1 hd.1 hfuel
    obtain ⟨s2, h2, hs2⟩ := ih hs1 hpre (hd.2 s1 h1)
    exact ⟨s2, by rw [recvAll, List.foldlM_cons, h1, ok_bind]; exact h2, hs2⟩

/-- Every cut into pieces of 1 to `BUFFER_SIZE` bytes can be delivered. -/
theorem deliverable_of_le {completions : List (List UInt8)}
    (h : ∀ received ∈ completions, 1 ≤ received.length ∧ received.length ≤ 65536)
    {s : RecvSide (List (List UInt8))} (hs : RecvOK s)
    (hp : s.posted = some s.recvBuffer.freeSize) : Deliverable fuel completions s := by
  induction completions generalizing s with
  | nil => trivial
  | cons received more ih =>
    have hr : Receivable s received := by
      have h1 := h received List.mem_cons_self
      have h2 := hs.room
      rw [BUFFER_SIZE] at h2
      exact ⟨_, hp, h1.1, by omega⟩
    refine ⟨hr, fun s' hs' => ?_⟩
    refine ih (fun c hc => h c (List.mem_cons_of_mem _ hc)) (completion_ok hs ⟨hr, fuel, hs'⟩) ?_
    rw [processRecv_spec hs hr] at hs'
    obtain ⟨r, -, hreg⟩ := bind_eq_ok.1 hs'
    cases hreg
    rfl

/-- **Framing round trip, independent of chunking.** The messages are framed as
`frameOf` says. However the stream of frames is cut into receive completions, each of
1 to the posted number of bytes, after every completion (`completions` is any initial
piece of the cut) `OnRecvPacket` has been called on exactly the frames contained in
the bytes received, once each and in order, and the remaining bytes are unread. -/
theorem framing_roundtrip (msgs : List (UInt16 × List UInt8))
    (hlen : ∀ m ∈ msgs, m.2.length ≤ 65531) :
    ∃ frames, encodeAll msgs = .ok frames ∧ frames = msgs.map frameOf ∧
      ∀ (completions : List (List UInt8)) (fuel : ℕ), 655360 < fuel →
        completions.flatten <+: frames.flatten → Deliverable fuel completions connected →
        ∃ s, recvAll fuel completions connected = .ok s ∧
          s.rest = contained frames completions.flatten.length ∧
          s.recvBuffer.unread = completions.flatten.drop s.rest.flatten.length ∧
          (completions.flatten = frames.flatten → s.rest = frames ∧ s.recvBuffer.unread = []) := by
  have hframes : ∀ f ∈ msgs.map frameOf, packetFormat.IsFrame f := by
    intro f hf
    obtain ⟨m, hm, rfl⟩ := List.mem_map.1 hf
    exact isFrame_frameOf (hlen m hm)
  refine ⟨_, encodeAll_ok hlen, rfl, ?_⟩
  intro completions fuel hfuel hpre hd
  obtain ⟨s, hs, hst⟩ := streamed_all hfuel hframes streamed_connected hpre hd
  have hcut : Cut packetFormat completions.flatten s.rest s.recvBuffer.unread := hst.cut
  obtain ⟨h1, h2⟩ := hcut.unique (cut_initial hframes (by decide) hpre)
  refine ⟨s, hs, h1, by rw [h2, ← h1], ?_⟩
  intro hall
  rw [hall, contained_all] at h1 h2
  exact ⟨h1, by rw [h2]; exact List.drop_length⟩

/-- Two messages in three completions: the cuts are inside a header and inside a payload. -/
theorem framing_roundtrip_example : ∃ s,
    recvAll 655361 [[6, 0, 10], [0, 1], [2, 4, 0, 11, 0]] connected = .ok s ∧
      s.rest = [[6, 0, 10, 0, 1, 2], [4, 0, 11, 0]] ∧ s.recvBuffer.unread = [] := by
  obtain ⟨frames, -, rfl, h⟩ := framing_roundtrip [(10, [1, 2]), (11, [])] (by decide)
  have hd : Deliverable 655361 [[6, 0, 10], [0, 1], [2, 4, 0, 11, 0]] connected :=
    deliverable_of_le (by decide) streamed_connected.ok rfl
  obtain ⟨s, hs, -, -, hall⟩ := h _ 655361 (by decide) ⟨[], by decide⟩ hd
  exact ⟨s, hs, hall (by decide)⟩

end ZeldaServer
