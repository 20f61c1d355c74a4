import ZeldaServer.Lib.Outcome
import ZeldaServer.Spec.Grid

/-!
# Loading the tile map

`TileMap::LoadFile` and what it uses of `wifstream`: `operator>>` of an `int`, and of a
`wstring`. A file is the characters that the stream delivers. Both operators skip white
space first; where nothing is left they set `failbit` and leave their argument as it is.
-/

namespace ZeldaServer

open Lib

/-! ## The stream -/

/-- `wifstream`: what has not been read, and the state. -/
structure Wifstream where
  rest : List UInt16
  eofbit : Bool := false
  failbit : Bool := false
  deriving DecidableEq, Repr

/-- `iswspace` in the locale "C" -/
def iswspace (c : UInt16) : Bool := c = 32 || (9 ≤ c && c ≤ 13)

def iswdigit (c : UInt16) : Bool := 48 ≤ c && c ≤ 57

namespace Wifstream

/-- `ifs.open(path)`: the text of the file, if there is one. -/
def opened : Option (List UInt16) → Wifstream
  | none => { rest := [], failbit := true }
  | some text => { rest := text }

def good (ifs : Wifstream) : Bool := !ifs.eofbit && !ifs.failbit

/-- `sentry`: whether there is something to read behind the white space. -/
def sentry (ifs : Wifstream) : Bool × Wifstream :=
  if ifs.good then
    match ifs.rest.dropWhile iswspace with
    | [] => (false, { rest := [], eofbit := true, failbit := true })
    | c :: rest => (true, { ifs with rest := c :: rest })
  else (false, { ifs with failbit := true })

/-- The value of decimal digits. -/
def decimal (digits : List UInt16) : ℕ := digits.foldl (fun n c => 10 * n + (c.toNat - 48)) 0

/-- The sign of a number, and what comes after it. -/
def sign : List UInt16 → ℤ × List UInt16
  | [] => (1, [])
  | c :: rest => if c = 45 then (-1, rest) else if c = 43 then (1, rest) else (1, c :: rest)

/-- `ifs >> n` for an `int`, which has the value `n`: a number without digits is 0, and one
that is out of range is the nearest `int`. Both set `failbit`. -/
def readInt (n : Int32) (ifs : Wifstream) : Int32 × Wifstream :=
  let (ok, ifs) := ifs.sentry
  if ok then
    let (sgn, field) := sign ifs.rest
    let digits := field.takeWhile iswdigit
    let rest := field.dropWhile iswdigit
    let value := sgn * decimal digits
    if digits = [] then (0, { rest := rest, eofbit := rest.isEmpty, failbit := true })
    else if value < -2147483648 then (-2147483648, { rest := rest, eofbit := rest.isEmpty, failbit := true })
    else if 2147483647 < value then (2147483647, { rest := rest, eofbit := rest.isEmpty, failbit := true })
    else (Int32.ofInt value, { rest := rest, eofbit := rest.isEmpty })
  else (n, ifs)

/-- `ifs >> line` -/
def readWord (line : List UInt16) (ifs : Wifstream) : List UInt16 × Wifstream :=
  let (ok, ifs) := ifs.sentry
  if ok then
    let rest := ifs.rest.dropWhile fun c => !iswspace c
    (ifs.rest.takeWhile fun c => !iswspace c, { rest := rest, eofbit := rest.isEmpty })
  else (line, ifs)

end Wifstream

/-! ## The map -/

/-- `vector<T>(count, value)`. A negative count is a `size_type` beyond `max_size()`, and
`std::length_error` is thrown. -/
def vectorOf {α : Type} (count : Int32) (value : α) : Option (List α) :=
  if count < 0 then none else some (List.replicate count.toInt.toNat value)

/-- `line[x]`: behind the last character stands a null character, and then nothing. -/
def charAt (line : List UInt16) (x : ℕ) : Outcome UInt16 :=
  if x ≤ line.length then .ok (line.getD x 0) else .error .undefined

/-- `_tiles[y][x] = value` -/
def setTile (tiles : List (List Int32)) (y x : ℕ) (value : Int32) : Outcome (List (List Int32)) :=
  match tiles[y]? with
  | none => .error .undefined
  | some row => if x < row.length then .ok (tiles.set y (row.set x value)) else .error .undefined

/-- `for (int32 i = 0; i < n; i++)` -/
def indices (n : Int32) : List ℕ := List.range n.toInt.toNat

/-- How `LoadFile` ends. -/
inductive Loaded
  | returned (map : TileMap)
  /-- `std::length_error`, and the map as it is then -/
  | thrown (map : TileMap)
  deriving DecidableEq, Repr

namespace TileMap

/-- `TileMap::GetTileAt`, with the value of the tile; the indices into `_tiles` are not checked. -/
def tileAt (map : TileMap) (pos : VectorInt) : Outcome (Option Int32) :=
  if pos.x < 0 ∨ map.mapSize.x ≤ pos.x ∨ pos.y < 0 ∨ map.mapSize.y ≤ pos.y then .ok none
  else
    match (map.tiles[pos.y.toInt.toNat]?).bind fun row => row[pos.x.toInt.toNat]? with
    | none => .error .undefined
    | some value => .ok (some value)

/-- `TileMap::SetMapSize` -/
def setMapSize (size : VectorInt) (map : TileMap) : Outcome Loaded :=
  let map := { map with mapSize := size }
  match (vectorOf size.x 0).bind (vectorOf size.y) with
  | none => .ok (.thrown map)
  | some tiles => do
    let tiles ← (indices size.y).foldlM (fun tiles y =>
      (indices size.x).foldlM (fun tiles x => setTile tiles y x 0) tiles) tiles
    .ok (.returned { map with tiles := tiles })

/-- Row `y` of the map, from a line of the file. -/
def loadLine (size : VectorInt) (y : ℕ) (line : List UInt16) (tiles : List (List Int32)) : Outcome (List (List Int32)) :=
  (indices size.x).foldlM (fun tiles x => do
    let c ← charAt line x
    setTile tiles y x (Int32.ofNat c.toNat - 48)) tiles

/-- The loop over the rows. -/
def loadRow (size : VectorInt) (st : List (List Int32) × Wifstream) (y : ℕ) : Outcome (List (List Int32) × Wifstream) := do
  let (line, ifs) := st.2.readWord []
  let tiles ← loadLine size y line st.1
  .ok (tiles, ifs)

/-- `LoadFile` after `SetMapSize` -/
def loadTiles (ifs : Wifstream) : Loaded → Outcome Loaded
  | .thrown map => .ok (.thrown map)
  | .returned map => do
    let st ← (indices map.mapSize.y).foldlM (loadRow map.mapSize) (map.tiles, ifs)
    .ok (.returned { map with tiles := st.1 })

/-- `TileMap::LoadFile`, of a file if it can be opened -/
def loadFile (file : Option (List UInt16)) (map : TileMap) : Outcome Loaded := do
  let ifs := Wifstream.opened file
  let (x, ifs) := ifs.readInt map.mapSize.x
  let (y, ifs) := ifs.readInt map.mapSize.y
  let loaded ← setMapSize ⟨x, y⟩ map
  loadTiles ifs loaded

end TileMap

end ZeldaServer
