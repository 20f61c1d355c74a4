import ZeldaServer.Proof.Core

/-!
# Use counts

The `shared_ptr`s to an object are the elements of the two maps and the local variables
of the calls in progress (`pins`). Between two operations there are no pins, so that a
weak pointer resolves exactly when its object is in a map.
-/

namespace ZeldaServer

open Lib Std

variable {ν : Type} {W : SessionId → ν → Prop}

/-- The elements of one map that point to `r`: it is looked up at its own key. -/
def heldIn (m : TreeMap UInt64 Ref) (r : Ref) : ℕ := if m[key r]? = some r then 1 else 0

/-- The use counts, while local variables hold `pins`. -/
def Counted (room : Room) (pins : List Ref) : Prop :=
  ∀ r, room.useCount r = heldIn room.players r + heldIn room.monsters r + pins.count r

variable {room : Room} {pins : List Ref} {r x : Ref} {m : TreeMap UInt64 Ref}

theorem heldIn_pos : 0 < heldIn m r ↔ m[key r]? = some r := by
  unfold heldIn
  split
  · rename_i h; simp [h]
  · rename_i h; simp [h]

/-- An element takes the place of the one that was there. -/
theorem heldIn_insert (hold : ∀ old, m[key r]? = some old → key old = key r) :
    heldIn (m.insert (key r) r) x + (if m[key r]? = some x then 1 else 0) =
      heldIn m x + (if x = r then 1 else 0) := by
  unfold heldIn
  rw [TreeMap.getElem?_insert]
  by_cases hk : key x = key r
  · have hc : compare (key r) (key r) = .eq := Std.compare_eq_iff_eq.2 rfl
    rw [hk]
    by_cases hxr : x = r
    · simp only [hc, hxr, if_true]
      omega
    · simp [hxr, Ne.symm hxr]
  · have hne : compare (key r) (key x) ≠ .eq := fun h => hk (Std.compare_eq_iff_eq.1 h).symm
    have hxr : x ≠ r := fun h => hk (by rw [h])
    have hno : m[key r]? ≠ some x := fun h => hk (hold x h)
    simp [hne, hxr, hno]

/-- The element at a key is taken out. -/
theorem heldIn_erase {k : UInt64} (hold : ∀ old, m[k]? = some old → key old = k) :
    heldIn (m.erase k) x + (if m[k]? = some x then 1 else 0) = heldIn m x := by
  unfold heldIn
  rw [TreeMap.getElem?_erase]
  by_cases hk : key x = k
  · simp [hk]
  · have hne : compare k (key x) ≠ .eq := fun h => hk (Std.compare_eq_iff_eq.1 h).symm
    have hno : m[k]? ≠ some x := fun h => hk (hold x h)
    simp [hne, hno]

theorem Counted.retain (h : Counted room pins) : Counted (room.retain r) (r :: pins) := by
  intro x
  have hx := h x
  by_cases hxr : x = r
  · subst hxr
    simp only [Room.retain, Function.update_self, List.count_cons_self]
    omega
  · simp only [Room.retain, Function.update_of_ne hxr, List.count_cons_of_ne (Ne.symm hxr)]
    exact hx

theorem Counted.release (h : Counted room (r :: pins)) : Counted (room.release r) pins := by
  intro x
  have hx := h x
  by_cases hxr : x = r
  · subst hxr
    rw [List.count_cons_self] at hx
    simp only [Room.release, Function.update_self]
    omega
  · rw [List.count_cons_of_ne (Ne.symm hxr)] at hx
    simp only [Room.release, Function.update_of_ne hxr]
    exact hx

/-- What does not touch the maps and the counts. -/
theorem Counted.of_same {room' : Room} (h : Counted room pins) (h1 : room'.useCount = room.useCount)
    (h2 : room'.players = room.players) (h3 : room'.monsters = room.monsters) : Counted room' pins := by
  intro x
  rw [h1, h2, h3]
  exact h x

theorem Counted.modify (h : Counted room pins) {f : GameObject → GameObject} :
    Counted (room.modify r f) pins := h.of_same rfl rfl rfl

theorem useCount_retain : (room.retain r).useCount x = room.useCount x + (if x = r then 1 else 0) := by
  by_cases hx : x = r
  · subst hx; simp [Room.retain]
  · simp [Room.retain, hx]

theorem useCount_release (h : 0 < room.useCount r) :
    (room.release r).useCount x + (if x = r then 1 else 0) = room.useCount x := by
  by_cases hx : x = r
  · subst hx
    simp only [Room.release, Function.update_self, if_true]
    omega
  · simp [Room.release, hx]

/-- `map[key r] = r` -/
theorem Counted.assign (h : Counted room pins) {which : Roster}
    (hold : ∀ old, (room.roster which)[key r]? = some old → key old = key r) :
    Counted (room.assign which (key r) r) pins := by
  intro x
  have hx := h x
  have hins := heldIn_insert (x := x) hold
  have hret : (room.retain r).useCount x = room.useCount x + (if x = r then 1 else 0) := useCount_retain
  have huse : (room.assign which (key r) r).useCount x +
      (if (room.roster which)[key r]? = some x then 1 else 0) = (room.retain r).useCount x := by
    unfold Room.assign
    cases hm : (room.roster which)[key r]? with
    | none => simp
    | some old =>
      have hpos : 0 < (room.retain r).useCount old := by
        have hheld : heldIn (room.roster which) old = 1 := by simp [heldIn, hold old hm, hm]
        have := h old
        rw [useCount_retain]
        cases which <;> simp only [Scene.roster] at hheld <;> omega
      have := useCount_release (x := x) hpos
      simpa [eq_comm] using this
  cases which with
  | players =>
    have hp : (room.assign .players (key r) r).players = room.players.insert (key r) r := rfl
    have hq : (room.assign .players (key r) r).monsters = room.monsters := rfl
    simp only [Scene.roster] at huse hins
    rw [hp, hq]
    omega
  | monsters =>
    have hp : (room.assign .monsters (key r) r).players = room.players := rfl
    have hq : (room.assign .monsters (key r) r).monsters = room.monsters.insert (key r) r := rfl
    simp only [Scene.roster] at huse hins
    rw [hp, hq]
    omega

/-- `map.erase(id)` -/
theorem Counted.erase (h : Counted room pins) {which : Roster} {id : UInt64}
    (hold : ∀ old, (room.roster which)[id]? = some old → key old = id) :
    Counted (room.erase which id) pins := by
  intro x
  have hx := h x
  have hera := heldIn_erase (x := x) hold
  have huse : (room.erase which id).useCount x +
      (if (room.roster which)[id]? = some x then 1 else 0) = room.useCount x := by
    unfold Room.erase
    cases hm : (room.roster which)[id]? with
    | none => simp
    | some old =>
      have hpos : 0 < room.useCount old := by
        have hheld : heldIn (room.roster which) old = 1 := by simp [heldIn, hold old hm, hm]
        have := h old
        cases which <;> simp only [Scene.roster] at hheld <;> omega
      have := useCount_release (x := x) hpos
      simpa [eq_comm] using this
  cases which with
  | players =>
    have hp : (room.erase .players id).players = room.players.erase id := rfl
    have hq : (room.erase .players id).monsters = room.monsters := rfl
    simp only [Scene.roster] at huse hera
    rw [hp, hq]
    omega
  | monsters =>
    have hp : (room.erase .monsters id).players = room.players := rfl
    have hq : (room.erase .monsters id).monsters = room.monsters.erase id := rfl
    simp only [Scene.roster] at huse hera
    rw [hp, hq]
    omega

/-- A new object is held by the variable it is assigned to. -/
theorem Counted.create {v : Stage ν} (h : Counted room []) (hcore : Core W v) (hv : v.game = room.toScene)
    (o : GameObject) : Counted (room.create o).2 [room.objects.length] := by
  have hnone : room.objects[room.objects.length]? = none := List.getElem?_eq_none (Nat.le_refl _)
  have hfree : ∀ m : TreeMap UInt64 Ref, (∀ (k : UInt64) (r : Ref), m[k]? = some r →
      ∃ o : GameObject, room.objects[r]? = some o) → heldIn m room.objects.length = 0 := by
    intro m hm
    unfold heldIn
    split
    · rename_i hk
      obtain ⟨o', ho'⟩ := hm _ _ hk
      rw [hnone] at ho'
      cases ho'
    · rfl
  have hp := hfree room.players fun k r hk => by
    obtain ⟨-, o', s, ho', -⟩ := hcore.players k r (by rw [hv]; exact hk)
    exact ⟨o', by rw [← ho', hv]⟩
  have hm := hfree room.monsters fun k r hk => by
    obtain ⟨-, o', ho', -⟩ := hcore.monsters k r (by rw [hv]; exact hk)
    exact ⟨o', by rw [← ho', hv]⟩
  intro x
  by_cases hx : x = room.objects.length
  · subst hx
    simp [Room.create, hp, hm]
  · have hx' := h x
    simpa [Room.create, hx, Ne.symm hx] using hx'

end ZeldaServer
