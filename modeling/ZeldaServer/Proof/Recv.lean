import ZeldaServer.Proof.RecvBuffer

/-!
# Runs of receive completions

* `processRecv_spec`: on a completion that fits, `ProcessRecv` takes neither of its
  overflow branches: it writes, cuts packets off, reads, cleans and posts again.
* `recvBuffer_invariant`: in every run of receive completions `RecvOK` holds at every
  event boundary, and the next completion is handled without overflow.
-/

namespace ZeldaServer

open Lib

variable {σ : Type} {api : RecvApi σ}

/-- The receive buffer at an event boundary. -/
structure RecvOK (s : RecvSide σ) : Prop where
  buffer : s.recvBuffer.OK
  unread : s.recvBuffer.unread.length ≤ 65534
  room : BUFFER_SIZE ≤ s.recvBuffer.freeSize
  posted : ∀ len, s.posted = some len → len = s.recvBuffer.freeSize

/-- A completion that the outstanding `WSARecv` can deliver. -/
def Receivable (s : RecvSide σ) (received : List UInt8) : Prop :=
  ∃ len, s.posted = some len ∧ 1 ≤ received.length ∧ (received.length : ℤ) ≤ len

/-- A receive completion that has been handled. -/
def Completion (api : RecvApi σ) (s : RecvSide σ) (received : List UInt8) (s' : RecvSide σ) : Prop :=
  Receivable s received ∧ ∃ fuel, processRecv api fuel received s = .ok s'

/-- The buffer that `OnRecv` is called on. -/
def RecvSide.written (s : RecvSide σ) (received : List UInt8) : RecvBuffer :=
  ((s.recvBuffer.deliver received).onWrite received.length).2

/-- What `OnRead` and `Clean` do after `OnRecv` has returned `processLen` on `b`. -/
structure AfterOnRecv (b : RecvBuffer) (processLen : ℤ) : Prop where
  nonneg : 0 ≤ processLen
  le : processLen ≤ b.dataSize
  onRead : (b.onRead processLen).1 = true
  left : (b.onRead processLen).2.unread.length ≤ 65534
  disjoint : (b.onRead processLen).2.Compacts → ∀ p : ℤ,
    (b.onRead processLen).2.readPos ≤ p ∧ p < (b.onRead processLen).2.writePos →
      ¬ (0 ≤ p ∧ p < (b.onRead processLen).2.dataSize)
  cleanOK : (b.onRead processLen).2.clean.OK
  unread : (b.onRead processLen).2.clean.unread = (b.onRead processLen).2.unread
  room : BUFFER_SIZE ≤ (b.onRead processLen).2.clean.freeSize
  inside : (b.onRead processLen).2.clean.writePos < (b.onRead processLen).2.clean.capacity

/-- How the next completion is handled: `OnWrite` accepts it, and if the loop of
`OnRecv` returns then so do `OnRead` and `Clean`. -/
structure CompletionSafe (api : RecvApi σ) (s : RecvSide σ) (received : List UInt8) : Prop where
  onWrite : ((s.recvBuffer.deliver received).onWrite received.length).1 = true
  written : (s.written received).OK
  after : ∀ fuel processLen rest,
    onRecv api.onRecvPacket fuel (s.written received).unread s.rest = .ok (processLen, rest) →
      AfterOnRecv (s.written received) processLen

/-- `OnRecv` leaves an incomplete packet at most. -/
theorem afterOnRecv {b : RecvBuffer} (hb : b.OK) {fuel : ℕ} {st rest : σ} {n : ℤ}
    (h : onRecv api.onRecvPacket fuel b.unread st = .ok (n, rest)) : AfterOnRecv b n := by
  obtain ⟨fs, left, hc, -, hn⟩ := (onRecv_returns api.onRecvPacket).1 ⟨fuel, h⟩
  have hl := hc.rest_le
  have hs := short_length hc.short
  have hu := hb.unread_length
  obtain ⟨h1, h2, h3, h4⟩ := RecvBuffer.read_ok hb (n := n) (by omega) (by omega)
  have h5 : (b.onRead n).2.dataSize ≤ 65534 := by omega
  obtain ⟨h6, h7, h8, -⟩ := RecvBuffer.clean_ok h2 h5
  have h9 : (b.onRead n).2.unread.length ≤ 65534 := by
    rw [h3, List.length_drop]; omega
  refine ⟨by omega, by omega, h1, h9, fun hco => hco.disjoint h2 h5, h6, h8, h7, ?_⟩
  have hB : BUFFER_SIZE = 65536 := by decide
  simp only [RecvBuffer.freeSize] at h7
  omega

/-- What is left unread is what `OnRecv` could not cut. -/
theorem left_unread {b : RecvBuffer} (hb : b.OK) {packets : List (List UInt8)} {left : List UInt8}
    (hc : Cut packetFormat b.unread packets left) :
    (b.onRead ((b.unread.length : ℤ) - left.length)).2.clean.unread = left := by
  have hl := hc.rest_le
  have hs := short_length hc.short
  have hu := hb.unread_length
  obtain ⟨-, h2, h3, h4⟩ := RecvBuffer.read_ok hb
    (n := (b.unread.length : ℤ) - left.length) (by omega) (by omega)
  obtain ⟨-, -, h5, -⟩ := RecvBuffer.clean_ok h2 (by omega)
  have hj := hc.join
  have hn : ((b.unread.length : ℤ) - left.length).toNat = packets.flatten.length := by
    have := congrArg List.length hj
    rw [List.length_append] at this
    omega
  rw [h5, h3, hn, hj, List.drop_left' rfl]

/-- A completion that fits the posted length is accepted. -/
theorem RecvOK.safe {s : RecvSide σ} (hs : RecvOK s) {received : List UInt8}
    (hr : Receivable s received) : CompletionSafe api s received := by
  obtain ⟨len, hp, -, hle⟩ := hr
  have hfit : (received.length : ℤ) ≤ s.recvBuffer.freeSize := hs.posted len hp ▸ hle
  obtain ⟨h1, h2, -⟩ := RecvBuffer.write_ok hs.buffer hfit
  exact ⟨h1, h2, fun _ _ _ h => afterOnRecv h2 h⟩

/-- The unread bytes that `OnRecv` is called on. -/
theorem RecvOK.written_unread {s : RecvSide σ} (hs : RecvOK s) {received : List UInt8}
    (hr : Receivable s received) : (s.written received).unread = s.recvBuffer.unread ++ received := by
  obtain ⟨len, hp, -, hle⟩ := hr
  exact (RecvBuffer.write_ok hs.buffer (hs.posted len hp ▸ hle)).2.2

/-- **`ProcessRecv` without overflow**: write, cut packets off, read, clean, post. -/
theorem processRecv_spec {s : RecvSide σ} (hs : RecvOK s) {received : List UInt8}
    (hr : Receivable s received) (fuel : ℕ) : processRecv api fuel received s =
      onRecv api.onRecvPacket fuel (s.written received).unread s.rest >>= fun r =>
        registerRecv api
          { recvBuffer := ((s.written received).onRead r.1).2.clean, posted := none, rest := r.2 } := by
  have hsafe : CompletionSafe api s received := hs.safe hr
  have hpos : received.length ≠ 0 := by
    obtain ⟨_, _, h, _⟩ := hr; omega
  have hw : (s.recvBuffer.deliver received).onWrite received.length = (true, s.written received) :=
    Prod.ext hsafe.onWrite rfl
  unfold processRecv
  simp only [if_neg hpos, hw, Bool.true_eq_false, if_false, ok_bind]
  cases hon : onRecv api.onRecvPacket fuel (s.written received).unread s.rest with
  | error e => rfl
  | ok r =>
    obtain ⟨n, rest⟩ := r
    have ha := hsafe.after fuel n rest hon
    have hread : (s.written received).onRead n = (true, ((s.written received).onRead n).2) :=
      Prod.ext ha.onRead rfl
    have hn : ¬ (n < 0 ∨ (s.written received).dataSize < n) := by
      have := ha.nonneg; have := ha.le; omega
    simp only [ok_bind]
    rw [hread]
    simp only [if_neg hn, Bool.true_eq_false, if_false]

/-- `RegisterRecv` posts the free space, if anything, and leaves the buffer alone. -/
theorem registerRecv_spec {s s' : RecvSide σ} (h : registerRecv api s = .ok s')
    (hp : s.posted = none) : s'.recvBuffer = s.recvBuffer ∧
      ∀ len, s'.posted = some len → len = s.recvBuffer.freeSize := by
  unfold registerRecv at h
  split at h
  · cases h; exact ⟨rfl, by simp [hp]⟩
  · simp only at h
    split at h
    · cases h; exact ⟨rfl, by simp⟩
    · obtain ⟨rest, -, h⟩ := bind_eq_ok.1 h
      cases h; exact ⟨rfl, by simp [hp]⟩

/-- A handled completion keeps the buffer invariant. -/
theorem completion_ok {s s' : RecvSide σ} {received : List UInt8} (hs : RecvOK s)
    (h : Completion api s received s') : RecvOK s' := by
  obtain ⟨hr, fuel, h⟩ := h
  rw [processRecv_spec hs hr] at h
  obtain ⟨⟨n, rest⟩, hon, hreg⟩ := bind_eq_ok.1 h
  have ha := (hs.safe hr).after fuel n rest hon
  obtain ⟨hb, hp⟩ := registerRecv_spec hreg rfl
  refine ⟨by rw [hb]; exact ha.cleanOK, ?_, by rw [hb]; exact ha.room, by rw [hb]; exact hp⟩
  rw [hb, ha.unread]
  exact ha.left

/-- The first receive, posted on the fresh buffer when the session connects. -/
theorem start_ok {st : σ} {s : RecvSide σ}
    (h : registerRecv api ⟨RecvBuffer.new BUFFER_SIZE, none, st⟩ = .ok s) : RecvOK s := by
  obtain ⟨hb, hp⟩ := registerRecv_spec h rfl
  refine ⟨by rw [hb]; exact RecvBuffer.new_ok, ?_, ?_, by rw [hb]; exact hp⟩
  · rw [hb]
    exact show (RecvBuffer.new BUFFER_SIZE).unread.length ≤ 65534 by decide
  · rw [hb]
    exact show BUFFER_SIZE ≤ (RecvBuffer.new BUFFER_SIZE).freeSize by decide

/-- **The receive-buffer invariant.** From the first posted receive on, whatever the
packets do and whatever bytes arrive: at every event boundary the cursors are in
order and in bounds, at most 65534 bytes are unread and at least `BUFFER_SIZE` bytes
are free and posted; and the next completion neither overflows nor overlaps. -/
theorem recvBuffer_invariant {st : σ} {s0 s : RecvSide σ} {completions : List (List UInt8)}
    (h0 : registerRecv api ⟨RecvBuffer.new BUFFER_SIZE, none, st⟩ = .ok s0)
    (hrun : Runs (Completion api) s0 completions s) :
    RecvOK s ∧ ∀ received, Receivable s received → CompletionSafe api s received := by
  have hs : RecvOK s := hrun.invariant (start_ok h0) fun _ _ _ => completion_ok
  exact ⟨hs, fun _ hr => hs.safe hr⟩

/-- A session whose packets are recorded and whose socket calls succeed. -/
def recorder : RecvApi (List (List UInt8)) where
  onRecvPacket := fun packet packets => .ok (packets ++ [packet])
  disconnect := .ok
  isConnected := fun _ => true
  wsaRecv := fun packets => (.success, packets)
  handleError := fun _ => .ok

/-- A packet of four bytes and the first byte of the next. -/
theorem recvBuffer_invariant_example : ∃ s : RecvSide (List (List UInt8)),
    RecvOK s ∧ s.rest = [[4, 0, 1, 0]] ∧ s.recvBuffer.unread = [9] := by
  have h : ∃ s, processRecv recorder 2 [4, 0, 1, 0, 9]
      ⟨RecvBuffer.new BUFFER_SIZE, some 655360, []⟩ = .ok s ∧ s.rest = [[4, 0, 1, 0]] ∧
        s.recvBuffer.unread = [9] := ⟨_, rfl, rfl, rfl⟩
  obtain ⟨s, hs, h1, h2⟩ := h
  have hrun : Runs (Completion recorder) ⟨RecvBuffer.new BUFFER_SIZE, some 655360, []⟩
      [[4, 0, 1, 0, 9]] s := .single ⟨⟨_, rfl, by decide, by decide⟩, 2, hs⟩
  exact ⟨s, (@recvBuffer_invariant _ recorder [] _ s _ rfl hrun).1, h1, h2⟩

end ZeldaServer
