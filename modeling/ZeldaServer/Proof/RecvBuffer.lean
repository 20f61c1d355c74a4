import ZeldaServer.Lib.Runs
import ZeldaServer.Proof.OnRecv
import Mathlib.Data.List.GetD

/-!
# The receive buffer stays in bounds

`RecvOK` holds at every event boundary of a session, whatever the packets do:
the cursors are ordered and inside the buffer, at most 65534 bytes are unread, and
at least `BUFFER_SIZE` bytes are free, which is what `RegisterRecv` posts.

The numbers carry it (`clean_ok`): an incomplete packet has at most 65534 bytes, so
when fewer than 65536 bytes are free it starts above address 65534, and moving it
to the front neither overlaps nor leaves less than ten buffers minus one.
-/

namespace ZeldaServer

open Lib

/-! ## Blocks of memory -/

@[simp] theorem slice_length (mem : ℤ → UInt8) (a : ℤ) (n : ℕ) : (slice mem a n).length = n := by
  simp [slice]

theorem slice_add (mem : ℤ → UInt8) (a : ℤ) (m n : ℕ) :
    slice mem a (m + n) = slice mem a m ++ slice mem (a + m) n := by
  unfold slice
  rw [List.range_add, List.map_append, List.map_map]
  congr 1
  apply List.map_congr_left
  intro i _
  simp [Int.add_assoc]

theorem slice_congr {mem mem' : ℤ → UInt8} {a a' : ℤ} {n : ℕ}
    (h : ∀ i : ℕ, i < n → mem (a + i) = mem' (a' + i)) : slice mem a n = slice mem' a' n := by
  unfold slice
  apply List.map_congr_left
  intro i hi
  exact h i (List.mem_range.1 hi)

theorem slice_drop (mem : ℤ → UInt8) (a : ℤ) {k n : ℕ} (h : k ≤ n) :
    (slice mem a n).drop k = slice mem (a + k) (n - k) := by
  obtain ⟨m, rfl⟩ := Nat.exists_eq_add_of_le h
  rw [slice_add, List.drop_left' (slice_length _ _ _), Nat.add_sub_cancel_left]

/-! ## One operation -/

namespace RecvBuffer

/-- The cursors are ordered and inside the buffer of a session. -/
structure OK (b : RecvBuffer) : Prop where
  capacity : b.capacity = BUFFER_SIZE * BUFFER_COUNT
  bufferSize : b.bufferSize = BUFFER_SIZE
  readPos : 0 ≤ b.readPos
  ordered : b.readPos ≤ b.writePos
  writePos : b.writePos ≤ b.capacity

/-- `Clean` moves the unread bytes to the front. -/
def Compacts (b : RecvBuffer) : Prop := b.dataSize ≠ 0 ∧ b.freeSize < b.bufferSize

theorem new_ok : (new BUFFER_SIZE).OK := by
  constructor <;> decide

variable {b : RecvBuffer}

theorem OK.unread_length (h : b.OK) : (b.unread.length : ℤ) = b.dataSize := by
  have := h.ordered
  simp only [unread, slice_length, dataSize]
  omega

/-- **A receive that fits is accepted**, and its bytes follow the unread ones. -/
theorem write_ok (h : b.OK) {received : List UInt8} (hfit : (received.length : ℤ) ≤ b.freeSize) :
    ((b.deliver received).onWrite received.length).1 = true ∧
      ((b.deliver received).onWrite received.length).2.OK ∧
      ((b.deliver received).onWrite received.length).2.unread = b.unread ++ received := by
  obtain ⟨hc, hb, hr, ho, hw⟩ := h
  have hfit' : ¬ (received.length : ℤ) > (b.deliver received).freeSize := by
    simp only [deliver, freeSize] at hfit ⊢; omega
  rw [onWrite, if_neg hfit']
  refine ⟨rfl, ⟨hc, hb, hr, ?_, ?_⟩, ?_⟩
  · simp only [deliver]; omega
  · simp only [deliver, freeSize] at hfit ⊢; omega
  · have hn : (b.writePos + received.length - b.readPos).toNat =
        (b.writePos - b.readPos).toNat + received.length := by omega
    simp only [unread, dataSize, deliver]
    rw [hn, slice_add]
    congr 1
    · apply slice_congr
      intro i hi
      rw [if_neg (by omega)]
    · -- the new bytes start at `writePos`
      apply List.ext_getElem (slice_length _ _ _)
      intro i h1 h2
      rw [slice_length] at h1
      simp only [slice, List.getElem_map, List.getElem_range]
      rw [if_pos (by omega), List.getD_eq_getElem _ _ (by omega)]
      congr 1
      omega

/-- Reading `n` of the unread bytes drops them. -/
theorem read_ok (h : b.OK) {n : ℤ} (h0 : 0 ≤ n) (hn : n ≤ b.dataSize) :
    (b.onRead n).1 = true ∧ (b.onRead n).2.OK ∧ (b.onRead n).2.unread = b.unread.drop n.toNat ∧
      (b.onRead n).2.dataSize = b.dataSize - n := by
  obtain ⟨hc, hb, hr, ho, hw⟩ := h
  simp only [dataSize] at hn
  rw [onRead, if_neg (by simp only [dataSize]; omega)]
  refine ⟨rfl, ⟨hc, hb, ?_, ?_, hw⟩, ?_, ?_⟩
  · simp only; omega
  · simp only; omega
  · simp only [unread, dataSize]
    rw [slice_drop _ _ (by omega), Int.toNat_of_nonneg h0]
    congr 1
    omega
  · simp only [dataSize]; omega

/-- The three branches of `Clean`. -/
theorem clean_cases (b : RecvBuffer) :
    (b.dataSize = 0 ∧ b.clean = { b with readPos := 0, writePos := 0 }) ∨
    (b.Compacts ∧ b.clean = { b with
      buffer := memcpy b.buffer 0 b.readPos b.dataSize, readPos := 0, writePos := b.dataSize }) ∨
    (b.dataSize ≠ 0 ∧ b.bufferSize ≤ b.freeSize ∧ b.clean = b) := by
  unfold clean
  by_cases h0 : b.dataSize = 0
  · exact Or.inl ⟨h0, if_pos h0⟩
  by_cases hf : b.freeSize < b.bufferSize
  · exact Or.inr (Or.inl ⟨⟨h0, hf⟩, by simp only [if_neg h0, if_pos hf]⟩)
  · exact Or.inr (Or.inr ⟨h0, by omega, by simp only [if_neg h0, if_neg hf]⟩)

/-- With an incomplete packet at most unread, compaction starts above the packet. -/
theorem Compacts.above (hco : b.Compacts) (h : b.OK) (hleft : b.dataSize ≤ 65534) :
    b.dataSize ≤ b.readPos := by
  obtain ⟨hc, hb, -, -, -⟩ := h
  have hf := hco.2
  rw [hb] at hf
  simp only [freeSize, dataSize, hc, BUFFER_SIZE, BUFFER_COUNT] at hf hleft ⊢
  omega

/-- The ranges that `memcpy` reads and writes do not overlap. -/
theorem Compacts.disjoint (hco : b.Compacts) (h : b.OK) (hleft : b.dataSize ≤ 65534) (p : ℤ)
    (hsource : b.readPos ≤ p ∧ p < b.writePos) : ¬ (0 ≤ p ∧ p < b.dataSize) := by
  have habove := hco.above h hleft
  omega

/-- **`Clean` makes room** when an incomplete packet at most is unread, and leaves the
unread bytes as they are. -/
theorem clean_ok (h : b.OK) (hleft : b.dataSize ≤ 65534) :
    b.clean.OK ∧ BUFFER_SIZE ≤ b.clean.freeSize ∧ b.clean.unread = b.unread ∧
      b.clean.dataSize = b.dataSize := by
  have hC : b.capacity = 655360 := h.capacity.trans (by decide)
  have hB : BUFFER_SIZE = 65536 := by decide
  have ho := h.ordered
  rcases clean_cases b with ⟨h0, he⟩ | ⟨hco, he⟩ | ⟨-, hf, he⟩
  · -- everything has been read
    rw [he]
    refine ⟨⟨h.capacity, h.bufferSize, Int.le_refl _, Int.le_refl _, by simp only; omega⟩, ?_, ?_, ?_⟩
    · simp only [freeSize]; omega
    · simp only [unread, h0]; rfl
    · rw [h0]; rfl
  · -- the unread bytes are moved to the front
    rw [he]
    have hd : b.dataSize = b.writePos - b.readPos := rfl
    refine ⟨⟨h.capacity, h.bufferSize, Int.le_refl _, by simp only; omega, by simp only; omega⟩, ?_, ?_, ?_⟩
    · simp only [freeSize]; omega
    · simp only [unread]
      rw [show (RecvBuffer.mk b.capacity b.bufferSize 0 b.dataSize
        (memcpy b.buffer 0 b.readPos b.dataSize)).dataSize = b.dataSize from Int.sub_zero _]
      apply slice_congr
      intro i hi
      rw [memcpy, if_pos (by omega)]
      congr 1
      omega
    · simp only [dataSize]; omega
  · -- there is room already
    rw [he]
    exact ⟨h, by rw [← h.bufferSize]; exact hf, rfl, rfl⟩

end RecvBuffer

end ZeldaServer
