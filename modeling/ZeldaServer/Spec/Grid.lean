import Mathlib.Algebra.Group.Int.Defs
import Mathlib.Algebra.Group.Nat.Defs
import Mathlib.Data.Int.Notation
import Mathlib.Data.Nat.Notation
import Mathlib.Tactic.Common

/-!
# Cells and the tile map

`VectorInt` with the wrapping arithmetic of `int32`, the conversion of `int32` to
`float` (whose values are integers here), and `TileMap::GetTileAt`.
-/

namespace ZeldaServer

structure VectorInt where
  x : Int32 := 0
  y : Int32 := 0
  deriving DecidableEq, Repr

namespace VectorInt

def add (a b : VectorInt) : VectorInt := ⟨a.x + b.x, a.y + b.y⟩

def sub (a b : VectorInt) : VectorInt := ⟨a.x - b.x, a.y - b.y⟩

/-- `operator<`: by `x`, then by `y`. -/
instance : Ord VectorInt := ⟨compareLex (compareOn VectorInt.x) (compareOn VectorInt.y)⟩

end VectorInt

/-- `abs` of an `int32`, which keeps the least one. -/
def abs32 (n : Int32) : Int32 := if n < 0 then -n else n

/-- `abs(v.y) + abs(v.x)` -/
def VectorInt.taxicab (v : VectorInt) : Int32 := abs32 v.y + abs32 v.x

/-- `FLT_MAX` -/
def FLT_MAX : ℤ := (2 ^ 24 - 1) * 2 ^ 104

/-- The `float` nearest to an integer: 24 significant bits, ties to even. -/
def toFloat (n : ℤ) : ℤ :=
  let a := n.natAbs
  if a < 2 ^ 24 then n
  else
    let e := a.log2 - 23
    let q := a / 2 ^ e
    let r := a % 2 ^ e
    let q := if 2 ^ e < 2 * r ∨ (2 ^ e = 2 * r ∧ q % 2 = 1) then q + 1 else q
    n.sign * (q * 2 ^ e : ℕ)

/-- `VectorInt::LengthSquared` -/
def VectorInt.lengthSquared (v : VectorInt) : ℤ := toFloat (v.x * v.x + v.y * v.y).toInt

/-- `TileMap`; the tiles are rows of `Tile::value`. -/
structure TileMap where
  mapSize : VectorInt := {}
  tiles : List (List Int32) := []
  deriving DecidableEq, Repr

/-- `TileMap::GetTileAt`, with the value of the tile. -/
def TileMap.getTileAt (map : TileMap) (pos : VectorInt) : Option Int32 :=
  if pos.x < 0 ∨ map.mapSize.x ≤ pos.x ∨ pos.y < 0 ∨ map.mapSize.y ≤ pos.y then none
  else (map.tiles[pos.y.toInt.toNat]?).bind fun row => row[pos.x.toInt.toNat]?

end ZeldaServer
