import ZeldaServer.Proof.OnRecv

/-!
# `OnRecv` on arbitrary bytes

The peer declares the size of every packet, and `OnRecv` adds the declared sizes up. A
position that this leads to is `Reached`. `OnRecv` returns, and every packet that it
hands on has a header, exactly when each packet that is there as a whole declares the
size of its header at least (`SizesCoverHeaders`).

* `onRecv_contract`: that condition is what it takes.
* `onRecv_stuck`: on four zero bytes the loop does not end.
-/

namespace ZeldaServer

open Lib

/-- `OnRecv` on `buffer` hands `packets` to `OnRecvPacket` in order and then returns
`processLen`, if no call of `OnRecvPacket` faults. -/
def OnRecvDoes (buffer : List UInt8) (packets : List (List UInt8)) (processLen : ℤ) : Prop :=
  ∀ (σ : Type) (onRecvPacket : List UInt8 → σ → Outcome σ) (st : σ), ∃ n, ∀ fuel, n ≤ fuel →
    onRecv onRecvPacket fuel buffer st =
      deliverAll onRecvPacket packets st >>= fun st => .ok (processLen, st)

/-- The first `processLen` bytes are partitioned into packets with a header, and the rest
is too short for another one. -/
structure Partitioned (buffer : List UInt8) (packets : List (List UInt8)) (processLen : ℤ) : Prop where
  nonneg : 0 ≤ processLen
  le_length : processLen ≤ buffer.length
  flatten : packets.flatten = buffer.take processLen.toNat
  header_le : ∀ packet ∈ packets, sizeofPacketHeader ≤ packet.length
  goes_on : ∀ (before after : List (List UInt8)) (packet : List UInt8), packets = before ++ packet :: after →
    ¬ packetFormat.Short (buffer.drop before.flatten.length) ∧
      packet = (buffer.drop before.flatten.length).take
        (PacketHeader.read (buffer.drop before.flatten.length)).size.toNat
  stops : packetFormat.Short (buffer.drop processLen.toNat)

/-- The positions that adding up the declared sizes leads to. -/
inductive Reached (buffer : List UInt8) : ℕ → Prop
  | start : Reached buffer 0
  | next {k : ℕ} : Reached buffer k → ¬ packetFormat.Short (buffer.drop k) →
      Reached buffer (k + (PacketHeader.read (buffer.drop k)).size.toNat)

/-- Each packet that is there as a whole declares the size of its header at least. -/
def SizesCoverHeaders (buffer : List UInt8) : Prop :=
  ∀ k, Reached buffer k → ¬ packetFormat.Short (buffer.drop k) →
    sizeofPacketHeader ≤ (PacketHeader.read (buffer.drop k)).size.toNat

variable {buffer : List UInt8} {packets fs : List (List UInt8)} {rest : List UInt8}

/-- The cut of a buffer passes through every position reached. -/
theorem Reached.cut {k : ℕ} (h : Reached buffer k) (hc : Cut packetFormat buffer fs rest) :
    ∃ before after, fs = before ++ after ∧ Cut packetFormat (buffer.drop k) after rest := by
  induction h with
  | start => exact ⟨[], fs, rfl, hc⟩
  | next _ hn ih =>
    obtain ⟨before, after, rfl, hcut⟩ := ih
    cases hcut with
    | stop hs => exact absurd hs hn
    | next _ hcut =>
      rw [List.drop_drop] at hcut
      exact ⟨_, _, List.append_cons .., hcut⟩

/-- If the sizes cover the headers, each packet is a step forward, and the buffer is cut. -/
theorem SizesCoverHeaders.cut (h : SizesCoverHeaders buffer) {k : ℕ} (hk : Reached buffer k) :
    ∃ fs rest, Cut packetFormat (buffer.drop k) fs rest ∧ ∀ f ∈ fs, sizeofPacketHeader ≤ f.length := by
  -- on the number of bytes left
  induction hn : buffer.length - k using Nat.strong_induction_on generalizing k with
  | _ n ih =>
    by_cases hs : packetFormat.Short (buffer.drop k)
    · exact ⟨[], _, .stop hs, by simp⟩
    have hsize := h k hk hs
    have hfits := not_or.1 hs
    rw [List.length_drop, packetFormat_size, sizeofPacketHeader] at *
    obtain ⟨fs, rest, hcut, hlen⟩ := ih _ (by omega) (hk.next hs) rfl
    rw [← List.drop_drop] at hcut
    refine ⟨_, rest, .next hs hcut, fun f hf => ?_⟩
    rcases List.mem_cons.1 hf with rfl | hf
    · rw [List.length_take, List.length_drop, packetFormat_size]
      omega
    · exact hlen f hf

/-- What is cut off is a partition. -/
theorem partitioned_of_cut (hc : Cut packetFormat buffer fs rest) (hlen : ∀ f ∈ fs, sizeofPacketHeader ≤ f.length) :
    Partitioned buffer fs ((buffer.length : ℤ) - rest.length) := by
  have hle := hc.rest_le
  have hjoin := hc.join
  have hpos : ((buffer.length : ℤ) - rest.length).toNat = fs.flatten.length := by
    have := congrArg List.length hjoin
    rw [List.length_append] at this
    omega
  refine ⟨by omega, by omega, ?_, hlen, ?_, ?_⟩
  · rw [hpos, hjoin]
    simp
  · intro before after packet hfs
    -- cut off what comes before the packet
    have hafter : Cut packetFormat (buffer.drop before.flatten.length) (packet :: after) rest := by
      clear hjoin hpos hle hlen
      induction before generalizing buffer fs with
      | nil =>
        subst hfs
        exact hc
      | cons f before ih =>
        subst hfs
        cases hc with
        | next hn hcut =>
          have hfits := not_or.1 hn
          rw [List.flatten_cons, List.length_append, List.length_take, Nat.min_eq_left (Nat.le_of_not_lt hfits.2),
            ← List.drop_drop]
          exact ih hcut rfl
    cases hafter with
    | next hn _ => exact ⟨hn, rfl⟩
  · rw [hpos, hjoin, List.drop_left]
    exact hc.short

/-- A handler that keeps the packets it is given. -/
def keep (packet : List UInt8) (kept : List (List UInt8)) : Outcome (List (List UInt8)) := .ok (kept ++ [packet])

theorem deliverAll_keep (packets kept : List (List UInt8)) : deliverAll keep packets kept = .ok (kept ++ packets) := by
  induction packets generalizing kept with
  | nil => simp
  | cons p ps ih =>
    rw [deliverAll_cons, keep, ok_bind, ih, List.append_assoc]
    rfl

/-- The packets that `OnRecv` hands on are those that it cuts off. -/
theorem OnRecvDoes.cut {processLen : ℤ} (h : OnRecvDoes buffer packets processLen) :
    ∃ rest, Cut packetFormat buffer packets rest := by
  obtain ⟨n, hn⟩ := h _ keep []
  have hrun := hn n (Nat.le_refl n)
  rw [deliverAll_keep, ok_bind] at hrun
  obtain ⟨fs, rest, hcut, hall, -⟩ := (onRecv_returns keep).1 ⟨n, hrun⟩
  rw [deliverAll_keep] at hall
  obtain rfl : fs = packets := by simpa using hall
  exact ⟨rest, hcut⟩

/-- If every packet handed on has a header, then the sizes cover the headers. -/
theorem Partitioned.sizes {processLen : ℤ} (hpart : Partitioned buffer packets processLen)
    (hdoes : OnRecvDoes buffer packets processLen) : SizesCoverHeaders buffer := by
  intro k hk hs
  obtain ⟨rest, hcut⟩ := hdoes.cut
  obtain ⟨before, after, rfl, hafter⟩ := hk.cut hcut
  cases hafter with
  | stop hshort => exact absurd hshort hs
  | next _ _ =>
    have hlen := hpart.header_le _ (List.mem_append_right _ List.mem_cons_self)
    rw [List.length_take] at hlen
    exact Nat.le_trans hlen (Nat.min_le_left _ _)

/-- **`OnRecv` on arbitrary bytes**: it returns, and hands on a partition of the processed
bytes into packets with a header, exactly when the declared sizes cover the headers. -/
theorem onRecv_contract (buffer : List UInt8) :
    (∃ packets processLen, OnRecvDoes buffer packets processLen ∧ Partitioned buffer packets processLen) ↔
      SizesCoverHeaders buffer := by
  constructor
  · rintro ⟨packets, processLen, hdoes, hpart⟩
    exact hpart.sizes hdoes
  · intro h
    obtain ⟨fs, rest, hcut, hlen⟩ := h.cut .start
    rw [List.drop_zero] at hcut
    refine ⟨fs, (buffer.length : ℤ) - rest.length, fun σ onRecvPacket st => ?_, partitioned_of_cut hcut hlen⟩
    exact ⟨fs.length + 1, fun fuel hfuel => onRecvLoop_cut onRecvPacket fuel 0 (Nat.zero_le _) hcut hfuel st⟩

/-- Four zero bytes declare a packet of size 0, on which the loop stays for ever. -/
theorem onRecv_stuck : ¬ ∃ packets processLen, OnRecvDoes [0, 0, 0, 0] packets processLen ∧
    Partitioned [0, 0, 0, 0] packets processLen := by
  rintro ⟨packets, processLen, hdoes, hpart⟩
  have hsize := hpart.sizes hdoes 0 .start
  revert hsize
  decide

end ZeldaServer
