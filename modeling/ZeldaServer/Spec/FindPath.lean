import ZeldaServer.Lib.Outcome
import ZeldaServer.Spec.Grid
import Mathlib.Tactic.Translate.GuessName

/-!
# GameRoom::FindPath

The search expands the cell nearest to the target first. Which of several nodes of
equal cost the priority queue gives out is left open (`pick`).
-/

namespace ZeldaServer

open Lib Std

structure PQNode where
  cost : Int32
  pos : VectorInt
  deriving DecidableEq, Repr

/-- Which of the nodes of least cost a priority queue gives out next. -/
abbrev Pick := List PQNode → ℕ

/-- `top()` and `pop()` of a queue of nodes. -/
def popTop (pick : Pick) (pq : List PQNode) : Option (PQNode × List PQNode) :=
  let tops := pq.filter fun node => pq.all fun other => node.cost ≤ other.cost
  (tops[pick pq % tops.length]?).map fun node => (node, pq.erase node)

/-- `map::operator[]`, which inserts a default value for a missing key. -/
def index {α : Type} (m : TreeMap VectorInt α) (key : VectorInt) (default : α) :
    α × TreeMap VectorInt α :=
  match m[key]? with
  | some value => (value, m)
  | none => (default, m.insert key default)

structure Search where
  pq : List PQNode := []
  best : TreeMap VectorInt Int32 := ∅
  parent : TreeMap VectorInt VectorInt := ∅

def front : List VectorInt := [⟨0, -1⟩, ⟨0, 1⟩, ⟨-1, 0⟩, ⟨1, 0⟩]

section

variable (canGo : VectorInt → Outcome Bool) (pick : Pick) (src : VectorInt) (maxDepth : Int32)

/-- The body of the loop over `front` at `node`. -/
def visit (dest : VectorInt) (node : PQNode) (s : Search) (dir : VectorInt) : Outcome Search := do
  let nextPos := node.pos.add dir
  if (← canGo nextPos) = false then .ok s
  else
    let depth := (src.sub nextPos).taxicab
    if maxDepth ≤ depth then .ok s
    else
      let cost := (dest.sub nextPos).taxicab
      let (bestCost, best) := index s.best nextPos 0
      if bestCost ≠ 0 ∧ bestCost ≤ cost then .ok { s with best := best }
      else .ok {
        best := best.insert nextPos cost
        pq := s.pq ++ [⟨cost, nextPos⟩]
        parent := s.parent.insert nextPos node.pos }

/-- The search loop; whether `dest` was found. -/
def searchLoop (dest : VectorInt) : ℕ → Search → Outcome (Bool × Search)
  | 0, _ => .error .running
  | fuel + 1, s =>
    match popTop pick s.pq with
    | none => .ok (false, s)
    | some (node, pq) =>
      let (best, bestMap) := index s.best node.pos 0
      let s := { s with pq := pq, best := bestMap }
      if best < node.cost then searchLoop dest fuel s
      else if node.pos = dest then .ok (true, s)
      else do
        let s ← front.foldlM (visit canGo src maxDepth dest node) s
        searchLoop dest fuel s

/-- The cell to walk to when `dest` was not found: one of least score, and the nearest to
`src` so far. -/
def nearest (dest : VectorInt) (best : TreeMap VectorInt Int32) : VectorInt :=
  (best.toList.foldl (fun (bestScore, dest) (pos, score) =>
    if bestScore = toFloat score.toInt then
      let dist1 := (dest.sub src).taxicab
      let dist2 := (pos.sub src).taxicab
      if dist1 > dist2 then (bestScore, pos) else (bestScore, dest)
    else if bestScore > toFloat score.toInt then (toFloat score.toInt, pos)
    else (bestScore, dest)) (FLT_MAX, dest)).2

/-- The loop that follows the parents from `pos`. -/
def traceLoop : ℕ → TreeMap VectorInt VectorInt → List VectorInt → VectorInt → Outcome (List VectorInt)
  | 0, _, _, _ => .error .running
  | fuel + 1, parent, path, pos =>
    let path := path ++ [pos]
    let (next, parent) := index parent pos {}
    if pos = next then .ok path else traceLoop fuel parent path next

/-- `GameRoom::FindPath`; no path when it returns false. -/
def findPath (fuel : ℕ) (dest : VectorInt) : Outcome (Option (List VectorInt)) := do
  let depth := (dest.sub src).taxicab
  if maxDepth ≤ depth then .ok none
  else
    let cost := (dest.sub src).taxicab
    let (found, s) ← searchLoop canGo pick src maxDepth dest fuel
      { pq := [⟨cost, src⟩], best := (∅ : TreeMap VectorInt Int32).insert src cost,
        parent := (∅ : TreeMap VectorInt VectorInt).insert src src }
    let dest := if found then dest else nearest src dest s.best
    let path ← traceLoop fuel s.parent [] dest
    .ok (some path.reverse)

end

end ZeldaServer
