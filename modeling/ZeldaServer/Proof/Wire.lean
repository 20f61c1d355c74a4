import Mathlib.Data.UInt
import Mathlib.Tactic.Ring
import ZeldaServer.Lib.Base128
import ZeldaServer.Spec.Decode

/-!
# Reading from the stream

What each operation of the stream does where it reads bytes that are `Held`: `readVarint_held`,
`readTag_held`, `readSize_held` and `readString_within`; the end of the fields is found at the
limit (`done_before`, `done_limit`). Bytes that are read as a varint are one
(`continued_of_varintUpTo`), and an end that is no end of a group is the limit (`Kept`).
-/

namespace ZeldaServer

open Lib

/-! ## Varints are numbers in base 128 -/

theorem varintLoop_base128 : ∀ {fuel n : ℕ}, n < 128 ^ fuel → 0 < fuel → varintLoop fuel n = toBase128 n
  | 0, _, _, h => absurd h (Nat.lt_irrefl _)
  | 1, n, hn, _ => by
    have hn : n < 128 := hn
    rw [varintLoop, if_pos hn, toBase128_small hn]
  | fuel + 2, n, hn, _ => by
    rw [varintLoop]
    split
    · next h => rw [toBase128_small h]
    · next h =>
      have hdiv : n / 128 < 128 ^ (fuel + 1) := by
        rw [Nat.div_lt_iff_lt_mul (by decide), ← Nat.pow_succ]
        exact hn
      rw [toBase128_large h, varintLoop_base128 hdiv (Nat.succ_pos _)]

theorem varint_base128 (n : UInt64) : varint n = toBase128 n.toNat :=
  varintLoop_base128 (Nat.lt_trans n.toNat_lt (by decide)) (by decide)

theorem varint_ofNat {n : ℕ} (h : n < 2 ^ 64) : varint (UInt64.ofNat n) = toBase128 n := by
  rw [varint_base128, UInt64.toNat_ofNat_of_lt' h]

theorem bytesField_base128 {num : ℕ} {bytes : List UInt8} (hnum : num < 2 ^ 29) (hlen : bytes.length < 2 ^ 64) :
    bytesField num bytes = toBase128 (8 * num + 2) ++ toBase128 bytes.length ++ bytes := by
  rw [bytesField, varint_ofNat (by omega), varint_ofNat hlen]

namespace ParseContext

/-! ## Bytes at a position -/

/-- The bytes stand at the position. -/
def Held (ctx : ParseContext) (ptr : ℕ) (bs : List UInt8) : Prop := ctx.bytes ptr bs.length = bs

variable {ctx ctx' : ParseContext} {ptr : ℕ}

theorem bytes_length (size : ℕ) : (ctx.bytes ptr size).length = size := by
  rw [bytes, List.length_map, List.length_range]

theorem bytes_add (ptr a b : ℕ) : ctx.bytes ptr (a + b) = ctx.bytes ptr a ++ ctx.bytes (ptr + a) b := by
  simp only [bytes, List.range_add, List.map_append, List.map_map, Function.comp_def, Nat.add_assoc]

theorem held_nil : ctx.Held ptr [] := rfl

theorem held_append {a b : List UInt8} : ctx.Held ptr (a ++ b) ↔ ctx.Held ptr a ∧ ctx.Held (ptr + a.length) b := by
  rw [Held, List.length_append, bytes_add]
  exact ⟨fun h => List.append_inj h (bytes_length _), fun h => congrArg₂ _ h.1 h.2⟩

theorem held_cons {b : UInt8} {bs : List UInt8} : ctx.Held ptr (b :: bs) ↔ ctx.byte ptr = b ∧ ctx.Held (ptr + 1) bs := by
  rw [← List.singleton_append, held_append]
  exact and_congr (by simp [Held, bytes]) Iff.rfl

theorem Held.byte {bs : List UInt8} (h : ctx.Held ptr bs) {k : ℕ} (hk : k < bs.length) :
    ctx.byte (ptr + k) = bs.getD k 0 := by
  induction bs generalizing ptr k with
  | nil => exact absurd hk (Nat.not_lt_zero _)
  | cons b bs ih =>
    obtain ⟨hb, hbs⟩ := held_cons.1 h
    cases k with
    | zero => exact hb
    | succ k =>
      rw [List.getD_cons_succ, ← ih hbs (Nat.lt_of_succ_lt_succ hk), Nat.add_right_comm]
      rfl

/-- The whole array stands at its start. -/
theorem held_initFrom (data : List UInt8) : (initFrom data).Held 0 data := by
  refine List.ext_getElem (bytes_length _) fun i hi hi' => ?_
  simp only [bytes, List.getElem_map, List.getElem_range, ParseContext.byte, initFrom, Nat.zero_add]
  exact (List.getElem_eq_getD 0).symm

/-- Contexts with the same array hold the same bytes. -/
theorem Held.congr {bs : List UInt8} (h : ctx.Held ptr bs) (hdata : ctx'.data = ctx.data) : ctx'.Held ptr bs := by
  rw [Held, bytes] at *
  simp only [ParseContext.byte, hdata] at *
  exact h

/-! ## Varints -/

theorem toUInt64_eq_ofNat (b : UInt8) : b.toUInt64 = UInt64.ofNat b.toNat := by
  have hlt := b.toNat_lt
  rw [← UInt64.toNat_inj, UInt8.toNat_toUInt64, UInt64.toNat_ofNat_of_lt' (by rw [UInt64.size]; omega)]

theorem toUInt64_lt {b : UInt8} : b.toUInt64 < 128 ↔ b.toNat < 128 := by
  rw [UInt64.lt_iff_toNat_lt, UInt8.toNat_toUInt64]
  rfl

theorem shiftLeft_base128 (x : UInt64) {i : ℕ} (hi : i ≤ 9) : x <<< UInt64.ofNat (7 * i) = x * UInt64.ofNat (128 ^ i) := by
  have hlt : (128 : ℕ) ^ i < 2 ^ 64 :=
    Nat.lt_of_le_of_lt (Nat.pow_le_pow_right (by decide) hi) (by decide)
  have hshift : 7 * i % 2 ^ 64 % 64 = 7 * i := by omega
  rw [← UInt64.toNat_inj, UInt64.toNat_shiftLeft, UInt64.toNat_mul, UInt64.toNat_ofNat', UInt64.toNat_ofNat', hshift,
    Nat.shiftLeft_eq, Nat.mod_eq_of_lt hlt, Nat.pow_mul]

/-- What is read from byte `i` on is the value of the bytes that stand there, with the highest
bit of the byte before cancelled. -/
theorem varintRest_held {bs : List UInt8} (hbs : Continued bs) : ∀ {fuel i low : ℕ}, ctx.Held (ptr + i) bs →
    bs.length ≤ fuel → i + fuel ≤ 10 →
    ctx.varintRest ptr fuel i (UInt64.ofNat (low + 128 ^ i)) =
      some (ptr + i + bs.length, UInt64.ofNat (low + ofBase128 bs * 128 ^ i)) := by
  induction hbs with
  | @last b hb =>
    intro fuel i low hheld hfuel hi
    obtain ⟨fuel, rfl⟩ : ∃ n, fuel = n + 1 := ⟨fuel - 1, by simp only [List.length_singleton] at hfuel; omega⟩
    have hbyte : b.toUInt64 < 128 := toUInt64_lt.2 hb
    rw [varintRest, (held_cons.1 hheld).1, if_pos hbyte, shiftLeft_base128 _ (by omega)]
    have hvalue : ofBase128 [b] = b.toNat := by
      rw [ofBase128, ofBase128, Nat.mod_eq_of_lt hb]
      rfl
    rw [hvalue, toUInt64_eq_ofNat, UInt64.ofNat_add, UInt64.ofNat_add, UInt64.ofNat_mul]
    congr 2
    grind
  | @more b bs hb hbs ih =>
    intro fuel i low hheld hfuel hi
    obtain ⟨fuel, rfl⟩ : ∃ n, fuel = n + 1 := ⟨fuel - 1, by simp only [List.length_cons] at hfuel; omega⟩
    have hbyte : ¬ b.toUInt64 < 128 := toUInt64_lt.not.2 (Nat.not_lt.2 hb)
    obtain ⟨hb0, hrest⟩ := held_cons.1 hheld
    rw [varintRest, hb0, if_neg hbyte, shiftLeft_base128 _ (by omega)]
    -- the digit goes to the value so far, its highest bit to the next byte
    have hnext : UInt64.ofNat (low + 128 ^ i) + (b.toUInt64 - 1) * UInt64.ofNat (128 ^ i) =
        UInt64.ofNat (low + b.toNat % 128 * 128 ^ i + 128 ^ (i + 1)) := by
      have hsum : low + b.toNat % 128 * 128 ^ i + 128 ^ (i + 1) = low + b.toNat * 128 ^ i := by
        have hlt := b.toNat_lt
        have hdigit : b.toNat % 128 + 128 = b.toNat := by omega
        calc low + b.toNat % 128 * 128 ^ i + 128 ^ (i + 1)
            = low + (b.toNat % 128 + 128) * 128 ^ i := by ring
          _ = low + b.toNat * 128 ^ i := by rw [hdigit]
      rw [hsum, toUInt64_eq_ofNat, UInt64.ofNat_add, UInt64.ofNat_add, UInt64.ofNat_mul]
      grind
    rw [hnext, ih (by rw [← Nat.add_assoc]; exact hrest) (by simpa using hfuel) (by omega)]
    rw [List.length_cons, ofBase128]
    refine congrArg some (Prod.ext (by simp only; omega) (congrArg UInt64.ofNat ?_))
    ring

theorem varintUpTo_held {n : ℕ} {bs : List UInt8} (hbs : Continued bs) (hheld : ctx.Held ptr bs)
    (hlen : bs.length ≤ n + 1) (hn : n ≤ 9) :
    ctx.varintUpTo ptr n = some (ptr + bs.length, UInt64.ofNat (ofBase128 bs)) := by
  cases hbs with
  | @last b hb =>
    have hbyte : b.toUInt64 < 128 := toUInt64_lt.2 hb
    rw [varintUpTo, (held_cons.1 hheld).1, if_pos hbyte, toUInt64_eq_ofNat, ofBase128, ofBase128, Nat.mod_eq_of_lt hb]
    rfl
  | @more b bs hb hbs =>
    have hbyte : ¬ b.toUInt64 < 128 := toUInt64_lt.not.2 (Nat.not_lt.2 hb)
    obtain ⟨hb0, hrest⟩ := held_cons.1 hheld
    have hfirst : b.toUInt64 = UInt64.ofNat (b.toNat % 128 + 128 ^ 1) := by
      have hlt := b.toNat_lt
      have hdigit : b.toNat % 128 + 128 ^ 1 = b.toNat := by omega
      rw [hdigit, toUInt64_eq_ofNat]
    rw [varintUpTo, hb0, if_neg hbyte, hfirst, varintRest_held hbs hrest (by simpa using hlen) (by omega)]
    rw [List.length_cons, ofBase128]
    refine congrArg some (Prod.ext (by simp only; omega) (congrArg UInt64.ofNat ?_))
    ring

/-- Bytes that are read to their end are those of a number. -/
theorem continued_of_varintRest {fuel i : ℕ} {res : UInt64} {x : ℕ × UInt64} (h : ctx.varintRest ptr fuel i res = some x) :
    ∃ bs, Continued bs ∧ ctx.Held (ptr + i) bs ∧ bs.length ≤ fuel := by
  induction fuel generalizing i res with
  | zero => cases h
  | succ fuel ih =>
    rw [varintRest] at h
    split at h
    · next hb => exact ⟨[ctx.byte (ptr + i)], .last (toUInt64_lt.1 hb), held_cons.2 ⟨rfl, held_nil⟩, by simp⟩
    · next hb =>
      obtain ⟨bs, hbs, hheld, hlen⟩ := ih h
      have hb := Nat.not_lt.1 (toUInt64_lt.not.1 hb)
      exact ⟨ctx.byte (ptr + i) :: bs, .more hb hbs, held_cons.2 ⟨rfl, hheld⟩, by simpa using hlen⟩

theorem continued_of_varintUpTo {n : ℕ} {x : ℕ × UInt64} (h : ctx.varintUpTo ptr n = some x) :
    ∃ bs, Continued bs ∧ ctx.Held ptr bs ∧ bs.length ≤ n + 1 := by
  rw [varintUpTo] at h
  split at h
  · next hb => exact ⟨[ctx.byte ptr], .last (toUInt64_lt.1 hb), held_cons.2 ⟨rfl, held_nil⟩, by simp⟩
  · next hb =>
    obtain ⟨bs, hbs, hheld, hlen⟩ := continued_of_varintRest h
    have hb := Nat.not_lt.1 (toUInt64_lt.not.1 hb)
    exact ⟨ctx.byte ptr :: bs, .more hb hbs, held_cons.2 ⟨rfl, hheld⟩, by simpa using hlen⟩

/-! ## Numbers, tags and sizes -/

theorem readVarint_held {n : ℕ} (hn : n < 2 ^ 64) (hheld : ctx.Held ptr (toBase128 n)) :
    ctx.readVarint ptr = some (ptr + (toBase128 n).length, UInt64.ofNat n) := by
  have hlen : (toBase128 n).length ≤ 9 + 1 := toBase128_length (Nat.lt_trans hn (by decide))
  rw [readVarint, varintUpTo_held (continued_toBase128 n) hheld hlen (by decide), ofBase128_toBase128]

theorem readTag_held {n : ℕ} (hn : n < 2 ^ 32) (hheld : ctx.Held ptr (toBase128 n)) :
    ctx.readTag ptr = some (ptr + (toBase128 n).length, UInt32.ofNat n) := by
  have hlen : (toBase128 n).length ≤ 4 + 1 := toBase128_length (Nat.lt_trans hn (by decide))
  rw [readTag, varintUpTo_held (continued_toBase128 n) hheld hlen (by decide), ofBase128_toBase128, Option.map_some]
  refine congrArg some (Prod.ext rfl ?_)
  rw [← UInt32.toNat_inj, UInt64.toNat_toUInt32, UInt64.toNat_ofNat', UInt32.toNat_ofNat']
  omega

/-- The greatest size that is read. -/
def maxSize : ℕ := 2147483647 - kSlopBytes

theorem readSize_held {n : ℕ} (hn : n ≤ maxSize) (hheld : ctx.Held ptr (toBase128 n)) :
    ctx.readSize ptr = some (ptr + (toBase128 n).length, n) := by
  have hn' : n ≤ 2147483631 := hn
  rw [readSize, readTag_held (by omega) hheld]
  have htoNat : (UInt32.ofNat n).toNat = n := by
    rw [UInt32.toNat_ofNat']
    omega
  simp only [htoNat]
  refine if_neg ?_
  rintro ⟨hfive, hlast | hbig⟩
  · -- the fifth byte is what is left of the number above 28 bits
    have hlen : (toBase128 n).length = 4 + 1 := by omega
    rw [hheld.byte (by omega), ge_iff_le, UInt8.le_iff_toNat_le] at hlast
    have hlt := (continued_toBase128 n).last_lt hlen
    have hle := ofBase128_digit (toBase128 n) 4
    rw [ofBase128_toBase128, Nat.mod_eq_of_lt hlt] at hle
    have h8 : (8 : UInt8).toNat = 8 := rfl
    omega
  · exact absurd hbig (Nat.not_lt.2 hn)

/-! ## The limit -/

/-- The array is at hand up to the limit, and no end has been met. -/
structure Ready (ctx : ParseContext) : Prop where
  limit_le : ctx.limit ≤ ctx.data.length
  bufferEnd : ctx.bufferEnd + (if ctx.patched then 0 else kSlopBytes) = ctx.data.length
  lastTagMinus1 : ctx.lastTagMinus1 = 0

/-- The context of the same parse, ready for the next read. -/
structure Along (ctx ctx' : ParseContext) : Prop where
  data : ctx'.data = ctx.data
  limit : ctx'.limit = ctx.limit
  depth : ctx'.depth = ctx.depth
  ready : ctx'.Ready

theorem Ready.along (h : ctx.Ready) : ctx.Along ctx := ⟨rfl, rfl, rfl, h⟩

theorem Along.trans {ctx'' : ParseContext} (h : ctx.Along ctx') (h' : ctx'.Along ctx'') : ctx.Along ctx'' :=
  ⟨h'.data.trans h.data, h'.limit.trans h.limit, h'.depth.trans h.depth, h'.ready⟩

theorem Along.held {bs : List UInt8} (h : ctx.Along ctx') (hheld : ctx.Held ptr bs) : ctx'.Held ptr bs := hheld.congr h.data

theorem Along.rounds (h : ctx.Along ctx') : ctx'.rounds = ctx.rounds := by
  rw [ParseContext.rounds, ParseContext.rounds, h.data]

theorem ready_initFrom (data : List UInt8) : (initFrom data).Ready := by
  refine ⟨Nat.le_refl _, ?_, rfl⟩
  by_cases h : data.length > kSlopBytes
  · have hle : ¬ data.length ≤ kSlopBytes := Nat.not_le.2 h
    simp only [initFrom, if_pos h, hle, decide_false, Bool.false_eq_true, if_false]
    omega
  · have hle : data.length ≤ kSlopBytes := Nat.not_lt.1 h
    simp only [initFrom, if_neg h, hle, decide_true, if_true, Nat.add_zero]

/-- Before the limit the fields go on. -/
theorem done_before (h : ctx.Ready) (hptr : ptr < ctx.limit) : ∃ ctx', ctx.done ptr = some (false, ctx') ∧ ctx.Along ctx' := by
  have hlimit := h.limit_le
  by_cases hmin : ptr < min ctx.bufferEnd ctx.limit
  · exact ⟨ctx, by rw [done, if_pos hmin], h.along⟩
  · have hend := h.bufferEnd
    have hpatched : ctx.patched = false := by
      rw [Bool.eq_false_iff]
      intro hp
      rw [hp, if_pos rfl] at hend
      omega
    refine ⟨{ ctx with bufferEnd := ctx.data.length, patched := true }, ?_, rfl, rfl, rfl, hlimit, rfl, h.lastTagMinus1⟩
    have hlt : ptr < ctx.data.length := by omega
    rw [done, if_neg hmin, if_neg (by omega), if_neg (by omega), if_neg (by rw [hpatched]; exact Bool.false_ne_true)]
    exact if_pos hlt

/-- At the limit they end. -/
theorem done_limit (hptr : ptr = ctx.limit) : ctx.done ptr = some (true, ctx) := by
  rw [done, if_neg (by omega), if_pos hptr]

theorem readString_within (h : ctx.Ready) {size : ℕ} (hsize : ptr + size ≤ ctx.limit) :
    ctx.readString ptr size = (ctx.bytes ptr size, some (ptr + size)) := by
  have hlimit := h.limit_le
  have hend := h.bufferEnd
  have hfits : size ≤ ctx.bufferEnd + kSlopBytes - ptr := by
    split at hend <;> simp only [kSlopBytes] at * <;> omega
  rw [readString, if_pos hfits]

end ParseContext

end ZeldaServer
