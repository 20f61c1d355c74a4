import ZeldaServer.Lib.Outcome

/-!
# The UTF-8 scanner

What `VerifyUTF8` calls, in `stubs/structurally_valid.cc` of `google/protobuf`: a table of
states that is looked up byte by byte, behind loops that skip ASCII in groups of 8 bytes at
aligned addresses. A pointer into the string is a position in it, and `addr` is the address of
its first byte. Bytes and entries behind the end of an array are undefined.

`fuel` bounds each of the loops.
-/

namespace ZeldaServer

open Lib

namespace UTF8Scan

/-- `src[0]`, or an entry of a table. -/
def read (array : List UInt8) (i : ℕ) : Outcome UInt8 :=
  match array[i]? with
  | some b => .ok b
  | none => .error .undefined

/-- A `uint32` from memory. -/
def load (str : List UInt8) (src : ℕ) : Outcome UInt32 := do
  let b0 ← read str src
  let b1 ← read str (src + 1)
  let b2 ← read str (src + 2)
  let b3 ← read str (src + 3)
  .ok (b0.toUInt32 ||| b1.toUInt32 <<< 8 ||| b2.toUInt32 <<< 16 ||| b3.toUInt32 <<< 24)

/-! ## The tables -/

def kExitIllegalStructure : UInt8 := 240
def kExitOK : UInt8 := 241
def kExitReject : UInt8 := 242
def kExitDoAgain : UInt8 := 253

/-- Entries of a table that are the same. -/
def run (n : ℕ) (e : UInt8) : List UInt8 := List.replicate n e

/-- The block of a state inside a character, by its entries from `0x80` to `0xBF`. -/
def follow (entries : List UInt8) : List UInt8 := run 128 kExitIllegalStructure ++ entries ++ run 64 kExitIllegalStructure

/-- `utf8acceptnonsurrogates`: 9 blocks of 256 entries -/
def utf8acceptnonsurrogates : List UInt8 :=
  -- state[0] Byte 1
  (run 128 0 ++ run 66 kExitIllegalStructure ++ run 30 1 ++ [2] ++ run 12 3 ++ [7] ++ run 2 3 ++ [4] ++ run 3 5 ++ [6] ++
    run 11 kExitIllegalStructure) ++
  -- state[1] Byte 2 of 2
  follow (run 64 0) ++
  -- state[2], state[3] Byte 2 of 3
  follow (run 32 kExitIllegalStructure ++ run 32 1) ++
  follow (run 64 1) ++
  -- state[4], state[5], state[6] Byte 2 of 4
  follow (run 16 kExitIllegalStructure ++ run 48 3) ++
  follow (run 64 3) ++
  follow (run 16 3 ++ run 48 kExitIllegalStructure) ++
  -- state[7] 0x00d000 Byte 2 of 3
  follow (run 32 1 ++ run 32 8) ++
  -- state[8] 0x00d800 Byte 3 of 3
  follow (run 64 kExitReject)

/-- `utf8acceptnonsurrogates_fast` -/
def utf8acceptnonsurrogatesFast : List UInt8 := run 128 0 ++ run 128 1

end UTF8Scan

/-- `UTF8ScanObj`; the tables do not replace bytes. -/
structure UTF8ScanObj where
  state0 : UInt32
  state0Size : UInt32
  entryShift : ℕ
  losub : UInt32
  hiadd : UInt32
  stateTable : List UInt8
  fastState : List UInt8

namespace UTF8Scan

/-- `utf8acceptnonsurrogates_obj` -/
def utf8acceptnonsurrogatesObj : UTF8ScanObj where
  state0 := 0
  state0Size := 256
  entryShift := 8
  losub := 0x20202020
  hiadd := 0x00000000
  stateTable := utf8acceptnonsurrogates
  fastState := utf8acceptnonsurrogatesFast

/-! ## Loops over ASCII -/

section Loops

variable (st : UTF8ScanObj) (addr : ℕ) (str : List UInt8)

/-- `Tbl2[src[0]]` -/
def fastEntry (src : ℕ) : Outcome UInt8 := do
  let b ← read str src
  read st.fastState b.toNat

/-- Four of them. -/
def fastEntries (src : ℕ) : Outcome UInt8 := do
  let e0 ← fastEntry st str src
  let e1 ← fastEntry st str (src + 1)
  let e2 ← fastEntry st str (src + 2)
  let e3 ← fastEntry st str (src + 3)
  .ok ((e0 ||| e1) ||| (e2 ||| e3))

/-- `src[0] < 0x80` -/
def isAscii (src : ℕ) : Outcome Bool := do
  let b ← read str src
  .ok (b < 0x80)

/-- One byte at a time while it passes, until the pointer is aligned if `align`. -/
def skipBytes (align : Bool) (passes : ℕ → Outcome Bool) : ℕ → ℕ → Outcome ℕ
  | 0, _ => .error .running
  | fuel + 1, src =>
    if align = true ∧ (addr + src) % 8 = 0 then .ok src
    else if src < str.length then do
      if ← passes src then skipBytes align passes fuel (src + 1) else .ok src
    else .ok src

/-- The loop over groups, if the pointer is aligned. -/
def ifAligned (groups : ℕ → Outcome ℕ) (src : ℕ) : Outcome ℕ :=
  if (addr + src) % 8 = 0 then groups src else .ok src

/-- `srclimit8` -/
def srclimit8 : ℕ := if str.length < 7 then 0 else str.length - 7

/-- The groups of 8 bytes of `UTF8GenericScan`. -/
def skipGroups : ℕ → ℕ → Outcome ℕ
  | 0, _ => .error .running
  | fuel + 1, src =>
    if src < srclimit8 str then do
      let s0123 ← load str src
      let s4567 ← load str (src + 4)
      let temp := (s0123 - st.losub) ||| (s0123 + st.hiadd) ||| (s4567 - st.losub) ||| (s4567 + st.hiadd)
      if temp &&& 0x80808080 ≠ 0 then do
        if (← fastEntries st str src) ≠ 0 then .ok src
        else if (← fastEntries st str (src + 4)) ≠ 0 then .ok (src + 4)
        else skipGroups fuel (src + 8)
      else skipGroups fuel (src + 8)
    else .ok src

/-- The groups of 8 bytes of `UTF8GenericScanFastAscii`. -/
def skipAsciiGroups : ℕ → ℕ → Outcome ℕ
  | 0, _ => .error .running
  | fuel + 1, src =>
    if src < srclimit8 str then do
      let s0123 ← load str src
      let s4567 ← load str (src + 4)
      if (s0123 ||| s4567) &&& 0x80808080 = 0 then skipAsciiGroups fuel (src + 8) else .ok src
    else .ok src

/-! ## The scan of the table -/

/-- `InStateZero` -/
def inStateZero (tbl : ℕ) : Bool := UInt32.ofNat tbl - st.state0 < st.state0Size

/-- The scan, byte after byte, in the state `tbl`: what `src`, `Tbl` and `e` are behind it. -/
def scanTable : ℕ → ℕ → ℕ → UInt8 → Outcome (ℕ × ℕ × UInt8)
  | 0, _, _, _ => .error .running
  | fuel + 1, src, tbl, e =>
    if src < str.length then do
      let c ← read str src
      let e ← read st.stateTable (tbl + c.toNat)
      if e ≥ kExitIllegalStructure then .ok (src + 1, tbl, e)
      else scanTable fuel (src + 1) (st.state0.toNat + e.toNat <<< st.entryShift) e
    else .ok (src, tbl, e)

/-- The loop that backs up over a partial character. -/
def backUp : ℕ → Outcome ℕ
  | 0 => .error .undefined
  | src + 1 =>
    if 0 < src then do
      let b ← read str src
      if b &&& 0xC0 = 0x80 then backUp src else .ok src
    else .ok src

/-- The exit reason and `src`, behind the scan of the table. -/
def exitFrom (src tbl : ℕ) (e : UInt8) : Outcome (UInt8 × ℕ) :=
  if e ≥ kExitIllegalStructure then
    -- back up over exactly one byte, and more if needed
    let src := src - 1
    if inStateZero st tbl then .ok (e, src)
    else do
      let src ← backUp str src
      .ok (e, src)
  else if inStateZero st tbl then .ok (kExitOK, src)
  else do
    let src ← backUp str src
    .ok (kExitIllegalStructure, src)

/-- `UTF8GenericScan` from the label `DoAgain` on: why it exits, and where. -/
def doAgain (fuel : ℕ) : ℕ → ℕ → Outcome (UInt8 × ℕ)
  | 0, _ => .error .running
  | rounds + 1, src => do
    let src ← skipBytes addr str true (fun src => do .ok ((← fastEntry st str src) = 0)) fuel src
    let src ← ifAligned addr (skipGroups st str fuel) src
    let (src, tbl, e) ← scanTable st str fuel src st.state0.toNat 0
    let (e, src) ← exitFrom st str src tbl e
    if e = kExitDoAgain then doAgain fuel rounds src else .ok (e, src)

/-- `UTF8GenericScan`: the exit reason and `*bytes_consumed` -/
def utf8GenericScan (fuel : ℕ) : Outcome (UInt8 × ℕ) :=
  if str.length = 0 then .ok (kExitOK, 0) else doAgain st addr str fuel fuel 0

/-- The loop of `UTF8GenericScanFastAscii`. -/
def fastAscii (fuel : ℕ) : ℕ → ℕ → Outcome (UInt8 × ℕ)
  | 0, _ => .error .running
  | rounds + 1, src => do
    let src ← skipBytes addr str true (isAscii str) fuel src
    let src ← ifAligned addr (skipAsciiGroups str fuel) src
    let src ← skipBytes addr str false (isAscii str) fuel src
    let (exitReason, restConsumed) ← utf8GenericScan st (addr + src) (str.drop src) fuel
    let src := src + restConsumed
    if exitReason = kExitDoAgain then fastAscii fuel rounds src else .ok (exitReason, src)

/-- `UTF8GenericScanFastAscii` -/
def utf8GenericScanFastAscii (fuel : ℕ) : Outcome (UInt8 × ℕ) :=
  if str.length = 0 then .ok (kExitOK, 0) else fastAscii st addr str fuel fuel 0

end Loops

/-! ## What is called -/

/-- `UTF8SpnStructurallyValid` -/
def utf8SpnStructurallyValid (addr : ℕ) (str : List UInt8) (fuel : ℕ) : Outcome ℕ := do
  let (_, bytesConsumed) ← utf8GenericScanFastAscii utf8acceptnonsurrogatesObj addr str fuel
  .ok bytesConsumed

/-- `IsStructurallyValidUTF8` -/
def isStructurallyValidUTF8 (addr : ℕ) (buf : List UInt8) (fuel : ℕ) : Outcome Bool := do
  let (_, bytesConsumed) ← utf8GenericScanFastAscii utf8acceptnonsurrogatesObj addr buf fuel
  .ok (bytesConsumed = buf.length)

end UTF8Scan

end ZeldaServer
