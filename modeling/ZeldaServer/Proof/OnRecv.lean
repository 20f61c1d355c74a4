import ZeldaServer.Lib.Framing
import ZeldaServer.Spec.PacketSession

/-!
# `OnRecv` cuts packets

`onRecv_returns`: `OnRecv` returns exactly when the unread bytes can be cut into
packets (`Cut packetFormat`). It then has handed those packets to `OnRecvPacket`
in order, and `processLen` counts their bytes. A packet that declares size 0 is
never cut off, so on it the loop does not return.
-/

namespace ZeldaServer

open Lib

/-- Packets as length-prefixed frames: the size is the header's first word. -/
def packetFormat : Format UInt8 where
  header := sizeofPacketHeader
  size := fun buffer => (PacketHeader.read buffer).size.toNat
  size_append := by
    intro xs ys h
    match xs, h with
    | a :: b :: _ :: _ :: _, _ => rfl

theorem short_iff (xs : List UInt8) : packetFormat.Short xs ↔
    xs.length < sizeofPacketHeader ∨ xs.length < (PacketHeader.read xs).size.toNat := Iff.rfl

@[simp] theorem packetFormat_size (xs : List UInt8) :
    packetFormat.size xs = (PacketHeader.read xs).size.toNat := rfl

/-- The largest incomplete packet. -/
theorem short_length {xs : List UInt8} (h : packetFormat.Short xs) : xs.length ≤ 65534 := by
  have := (PacketHeader.read xs).size.toNat_lt
  rw [short_iff, sizeofPacketHeader] at h
  omega

variable {σ : Type} (onRecvPacket : List UInt8 → σ → Outcome σ)

/-- Handing packets to `OnRecvPacket` in order. -/
def deliverAll (packets : List (List UInt8)) (st : σ) : Outcome σ :=
  packets.foldlM (fun st packet => onRecvPacket packet st) st

@[simp] theorem deliverAll_nil (st : σ) : deliverAll onRecvPacket [] st = .ok st := rfl

@[simp] theorem deliverAll_cons (p : List UInt8) (ps : List (List UInt8)) (st : σ) :
    deliverAll onRecvPacket (p :: ps) st = onRecvPacket p st >>= deliverAll onRecvPacket ps := rfl

variable {buffer : List UInt8}

/-- One turn of the loop, at a position inside the buffer. -/
theorem onRecvLoop_succ (fuel k : ℕ) (hk : k ≤ buffer.length) (st : σ) :
    onRecvLoop onRecvPacket buffer (fuel + 1) k st =
      if packetFormat.Short (buffer.drop k) then .ok ((k : ℤ), st)
      else onRecvPacket ((buffer.drop k).take (packetFormat.size (buffer.drop k))) st >>=
        onRecvLoop onRecvPacket buffer fuel ((k + packetFormat.size (buffer.drop k) : ℕ) : ℤ) := by
  have hd : (buffer.drop k).length = buffer.length - k := List.length_drop
  simp only [onRecvLoop, Int.toNat_natCast, packetFormat_size]
  by_cases h1 : buffer.length - k < sizeofPacketHeader
  · rw [if_pos (by omega), if_pos ((short_iff _).2 (by omega))]
  rw [if_neg (by omega)]
  by_cases h2 : buffer.length - k < (PacketHeader.read (buffer.drop k)).size.toNat
  · rw [if_pos (by omega), if_pos ((short_iff _).2 (by omega))]
  · rw [if_neg (by omega), if_neg (by rw [short_iff, hd]; omega)]
    rfl

/-- **With fuel for every packet, the loop returns** what its handler makes of the
packets. -/
theorem onRecvLoop_cut {fs : List (List UInt8)} {rest : List UInt8} (fuel k : ℕ)
    (hk : k ≤ buffer.length) (hc : Cut packetFormat (buffer.drop k) fs rest) (hf : fs.length < fuel)
    (st : σ) : onRecvLoop onRecvPacket buffer fuel k st =
      deliverAll onRecvPacket fs st >>= fun st => .ok ((buffer.length : ℤ) - rest.length, st) := by
  induction fs generalizing fuel k st with
  | nil =>
    obtain ⟨fuel, rfl⟩ : ∃ n, fuel = n + 1 := ⟨fuel - 1, by omega⟩
    have hj := hc.join
    rw [onRecvLoop_succ onRecvPacket fuel k hk, if_pos (by simpa [hj] using hc.short)]
    have : (buffer.drop k).length = rest.length := by rw [hj]; rfl
    rw [List.length_drop] at this
    simp only [deliverAll_nil, ok_bind]
    congr 2
    omega
  | cons f fs ih =>
    obtain ⟨fuel, rfl⟩ : ∃ n, fuel = n + 1 := ⟨fuel - 1, by omega⟩
    rw [onRecvLoop_succ onRecvPacket fuel k hk]
    cases hc with
    | next hn hc =>
      rw [if_neg hn, deliverAll_cons, bind_assoc]
      simp only [List.length_cons] at hf
      have hle : packetFormat.size (buffer.drop k) ≤ buffer.length - k := by
        have := not_or.1 hn
        rw [List.length_drop] at this; omega
      rw [List.drop_drop] at hc
      congr 1
      funext st
      exact ih fuel _ (by omega) hc (by omega) st

/-- **A loop that returned has cut packets off** and handed them to its handler. -/
theorem cut_of_onRecvLoop {n : ℤ} {st st' : σ} (fuel k : ℕ) (hk : k ≤ buffer.length)
    (h : onRecvLoop onRecvPacket buffer fuel k st = .ok (n, st')) :
    ∃ fs rest, Cut packetFormat (buffer.drop k) fs rest ∧ deliverAll onRecvPacket fs st = .ok st' ∧
      n = (buffer.length : ℤ) - rest.length := by
  induction fuel generalizing k st with
  | zero => cases h
  | succ fuel ih =>
    rw [onRecvLoop_succ onRecvPacket fuel k hk] at h
    split at h
    · rename_i hs
      cases h
      refine ⟨[], _, .stop hs, rfl, ?_⟩
      rw [List.length_drop]; omega
    · rename_i hn
      obtain ⟨st1, h1, h2⟩ := bind_eq_ok.1 h
      have hle : packetFormat.size (buffer.drop k) ≤ buffer.length - k := by
        have := not_or.1 hn
        rw [List.length_drop] at this; omega
      obtain ⟨fs, rest, hc, hd, hr⟩ := ih _ (by omega) h2
      rw [← List.drop_drop] at hc
      exact ⟨_, rest, .next hn hc, by rw [deliverAll_cons, h1, ok_bind, hd], hr⟩

/-- **When `OnRecv` returns**, and what it then has done. -/
theorem onRecv_returns {n : ℤ} {st st' : σ} :
    (∃ fuel, onRecv onRecvPacket fuel buffer st = .ok (n, st')) ↔
      ∃ fs rest, Cut packetFormat buffer fs rest ∧ deliverAll onRecvPacket fs st = .ok st' ∧
        n = (buffer.length : ℤ) - rest.length := by
  constructor
  · rintro ⟨fuel, h⟩
    exact cut_of_onRecvLoop onRecvPacket fuel 0 (Nat.zero_le _) h
  · rintro ⟨fs, rest, hc, hd, rfl⟩
    refine ⟨fs.length + 1, ?_⟩
    have := onRecvLoop_cut onRecvPacket (fs.length + 1) 0 (Nat.zero_le _) hc (Nat.lt_succ_self _) st
    rw [hd] at this
    exact this

end ZeldaServer
