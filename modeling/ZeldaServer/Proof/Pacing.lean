import ZeldaServer.Lib.Cooldown
import ZeldaServer.Proof.Chronicle

/-!
# The pace of a monster

A monster attacks and steps at most once a second: `waitAttackUntil` is read before an
attack and set after it, `waitMoveUntil` is set by a step and read before the monster is
idle again.

* `InPace.faces`, `InPace.steps`, `InPace.halts`: what a turn does to the counts.
* `monster_pacing`: the counts in a stretch of a run.
-/

namespace ZeldaServer

open Lib Std

variable {st st' st₁ st₂ : Game Outboxes} {m r x : Ref} {o o' : GameObject} {fields : Monster} {pick : Pick} {sc : Scene} {op : RoomOp}
  {ticks : List UInt64} {seen : List UInt64} {a last n : ℕ} {c₀ : VectorInt}

/-! ## The readings of the clock -/

/-- What `GetTickCount64` returns, from a list of ticks. -/
def readings (ticks : List UInt64) : List UInt64 := if ticks = [] then [0] else ticks

/-- What `GetTickCount64` returns during an operation. -/
def RoomOp.clock : RoomOp → List UInt64
  | .update ticks _ => readings ticks
  | _ => []

/-- The clock does not go back from `last`, and a second can be added to it. -/
structure Ahead (last : ℕ) (ticks : List UInt64) : Prop where
  sorted : (readings ticks).Pairwise (· ≤ ·)
  later : ∀ t ∈ readings ticks, last ≤ t.toNat
  small : ∀ t ∈ readings ticks, t.toNat + 1000 < 2 ^ 64

theorem clockNow_mem (ticks : List UInt64) : clockNow ticks ∈ readings ticks := by
  unfold readings clockNow
  cases ticks with
  | nil => simp
  | cons now ticks => simp

theorem readings_later (ticks : List UInt64) : (readings (clockLater ticks)).Sublist (readings ticks) := by
  match ticks with
  | [] => exact List.Sublist.refl _
  | [now] => exact List.Sublist.refl _
  | now :: next :: ticks => exact List.sublist_cons_self now (next :: ticks)

theorem Ahead.sublist (h : Ahead last ticks) {ticks' : List UInt64} (hsub : (readings ticks').Sublist (readings ticks)) :
    Ahead last ticks' :=
  ⟨h.sorted.sublist hsub, fun t ht => h.later t (hsub.subset ht), fun t ht => h.small t (hsub.subset ht)⟩

theorem Ahead.tick (h : Ahead last ticks) : Ahead last (clockLater ticks) := h.sublist (readings_later ticks)

/-- After a look at the clock. -/
theorem Ahead.read (h : Ahead last ticks) : last ≤ (clockNow ticks).toNat ∧ Ahead (clockNow ticks).toNat (clockLater ticks) := by
  refine ⟨h.later _ (clockNow_mem ticks), h.tick.sorted, ?_, h.tick.small⟩
  intro t ht
  have hsorted := h.sorted
  match ticks with
  | [] =>
    obtain rfl : t = 0 := List.mem_singleton.1 ht
    exact Nat.le_refl _
  | [now] =>
    obtain rfl : t = now := List.mem_singleton.1 ht
    exact Nat.le_refl _
  | now :: next :: ticks =>
    exact UInt64.le_iff_toNat_le.1 ((List.pairwise_cons.1 hsorted).1 t ht)

/-- The sum that sets a timer. -/
theorem Ahead.timer (h : Ahead last ticks) : (clockNow ticks + 1000).toNat = (clockNow ticks).toNat + 1000 := by
  have hsmall := h.small _ (clockNow_mem ticks)
  rw [UInt64.toNat_add]
  exact Nat.mod_eq_of_lt hsmall

/-- A turn reads the clock, or does not. -/
theorem MonsterTurn.readings (hturn : MonsterTurn m o fields st st') :
    (readings st'.game.ticks).Sublist (readings st.game.ticks) := by
  have hone := readings_later st.game.ticks
  have htwo := (readings_later (clockLater st.game.ticks)).trans hone
  cases hturn with
  | seeks _ _ _ hy => rw [hy.ticks]
  | pursues _ _ _ _ hpursues =>
    cases hpursues with
    | waits hy _ ht =>
      rw [hy.ticks]
      rcases ht with ht | ht
      · rw [ht]
      · rw [ht]
        exact hone
    | faces _ _ hy => rwa [hy.ticks]
    | steps _ _ _ _ hy => rwa [hy.ticks]
  | walks _ _ hy => rwa [hy.ticks]
  | halts _ _ hy => rwa [hy.ticks]
  | misses _ _ heq => rw [heq]
  | hits _ _ _ _ hy => rw [hy.ticks]
  | kills _ _ _ _ hy => rw [hy.ticks]
  | rests _ heq => rw [heq]

/-! ## The counts -/

/-- How often a monster entered SKILL, and how far it moved. -/
structure Tally where
  entries : ℕ := 0
  moved : ℕ := 0
  deriving DecidableEq, Repr

/-- The counts of the monster `m`, after whatever was done. -/
def Tally.note (m : Ref) (_ : Option Ref) (st st' : Game Outboxes) (tally : Tally) : Tally where
  entries := tally.entries + if st.game.state m ≠ some .skill ∧ st'.game.state m = some .skill then 1 else 0
  moved := tally.moved + ((st.game.cell m).bind fun c => (st'.game.cell m).map c.dist).getD 0

variable {tally : Tally} {who : Option Ref}

theorem note_eq (ho : st.game.objects[m]? = some o) (ho' : st'.game.objects[m]? = some o') : Tally.note m who st st' tally =
    ⟨tally.entries + if o.info.state ≠ .skill ∧ o'.info.state = .skill then 1 else 0,
      tally.moved + o.getCellPos.dist o'.getCellPos⟩ := by
  unfold Tally.note Scene.state Scene.cell
  rw [ho, ho']
  simp

/-- A monster that stays on its cell and does not begin an attack. -/
theorem note_quiet (ho : st.game.objects[m]? = some o) (ho' : st'.game.objects[m]? = some o')
    (hquiet : o.info.state ≠ .skill → o'.info.state ≠ .skill) (hcell : o'.getCellPos = o.getCellPos) :
    Tally.note m who st st' tally = tally := by
  rw [note_eq ho ho', hcell, VectorInt.dist_self, if_neg fun h => hquiet h.1 h.2]
  rfl

/-- A monster that begins an attack. -/
theorem note_faces (ho : st.game.objects[m]? = some o) (ho' : st'.game.objects[m]? = some o') (hidle : o.info.state = .idle)
    (hskill : o'.info.state = .skill) (hcell : o'.getCellPos = o.getCellPos) :
    Tally.note m who st st' tally = ⟨tally.entries + 1, tally.moved⟩ := by
  rw [note_eq ho ho', if_pos ⟨by rw [hidle]; decide, hskill⟩, hcell, VectorInt.dist_self]
  rfl

/-- A monster that steps. -/
theorem note_steps (ho : st.game.objects[m]? = some o) (ho' : st'.game.objects[m]? = some o') (hmove : o'.info.state = .move)
    (hdist : o.getCellPos.dist o'.getCellPos = 1) : Tally.note m who st st' tally = ⟨tally.entries, tally.moved + 1⟩ := by
  rw [note_eq ho ho', hmove, if_neg fun h => absurd h.2 (by decide), hdist]
  rfl

theorem note_same (ho : st.game.objects[m]? = some o) (ho' : st'.game.objects[m]? = some o') (hstate : o'.info.state = o.info.state)
    (hcell : o'.getCellPos = o.getCellPos) : Tally.note m who st st' tally = tally :=
  note_quiet ho ho' (fun h => hstate ▸ h) hcell

/-- When the monster can move next. -/
def GameObject.nextMove (o : GameObject) (fields : Monster) (last : ℕ) : ℕ :=
  if o.info.state = .move then fields.waitMoveUntil.toNat else last

theorem nextMove_idle (h : o.info.state ≠ .move) : o.nextMove fields last = last := if_neg h

theorem nextMove_ends {fields' : Monster} (hskill : o.info.state = .skill) (hidle : o'.info.state = .idle) :
    o'.nextMove fields' last = o.nextMove fields last := by
  rw [nextMove_idle (by rw [hidle]; decide), nextMove_idle (by rw [hskill]; decide)]

/-- The monster is in pace, since the clock showed `a` and the monster stood on `c₀`; the clock showed `last` last. -/
structure InPace (a last : ℕ) (c₀ : VectorInt) (o : GameObject) (fields : Monster) (tally : Tally) : Prop where
  entries : Paced 1000 a last fields.waitAttackUntil.toNat tally.entries
  moved : Paced 1000 a last (o.nextMove fields last) tally.moved
  cell : c₀.dist o.getCellPos ≤ tally.moved

/-- The monster `m` is in pace. -/
def PacedAt (m : Ref) (a last : ℕ) (c₀ : VectorInt) (st : Game Outboxes) (tally : Tally) : Prop :=
  ∃ o fields, st.game.objects[m]? = some o ∧ o.kind = .monster fields ∧ InPace a last c₀ o fields tally

/-- Its timers and its count do not change. -/
theorem InPace.same {fields' : Monster} (h : InPace a last c₀ o fields tally) (hattack : fields'.waitAttackUntil = fields.waitAttackUntil)
    (hmove : o'.nextMove fields' last = o.nextMove fields last) (hcell : o'.getCellPos = o.getCellPos) :
    InPace a last c₀ o' fields' tally :=
  ⟨hattack ▸ h.entries, hmove ▸ h.moved, hcell ▸ h.cell⟩

section

variable {now set : ℕ} {fields' : Monster} (h : InPace a last c₀ o fields tally) (hnow : last ≤ now)
include h hnow

/-- It begins an attack: the clock had reached `waitAttackUntil`, and showed `set` when it was set again. -/
theorem InPace.faces (hidle : o.info.state = .idle) (hready : fields.waitAttackUntil.toNat ≤ now) (hset : now ≤ set)
    (hskill : o'.info.state = .skill) (hcell : o'.getCellPos = o.getCellPos)
    (hattack : fields'.waitAttackUntil.toNat = set + 1000) :
    InPace a set c₀ o' fields' ⟨tally.entries + 1, tally.moved⟩ := by
  refine ⟨?_, ?_, hcell ▸ h.cell⟩
  · rw [hattack]
    exact h.entries.fire hready hnow hset
  · have hmoved := h.moved
    rw [nextMove_idle (by rw [hidle]; decide)] at hmoved
    rw [nextMove_idle (by rw [hskill]; decide)]
    exact (hmoved.later (hnow.trans hset)).wait (hnow.trans hset)

/-- It steps on the next cell, and sets `waitMoveUntil`. -/
theorem InPace.steps (hidle : o.info.state = .idle) (hmove : o'.info.state = .move) (hdist : o.getCellPos.dist o'.getCellPos = 1)
    (hattack : fields'.waitAttackUntil = fields.waitAttackUntil) (hset : fields'.waitMoveUntil.toNat = now + 1000) :
    InPace a now c₀ o' fields' ⟨tally.entries, tally.moved + 1⟩ := by
  refine ⟨hattack ▸ h.entries.later hnow, ?_, ?_⟩
  · have hmoved := h.moved
    rw [nextMove_idle (by rw [hidle]; decide)] at hmoved
    unfold GameObject.nextMove
    rw [if_pos hmove, hset]
    exact hmoved.fire hnow hnow (Nat.le_refl _)
  · calc c₀.dist o'.getCellPos
      _ ≤ c₀.dist o.getCellPos + o.getCellPos.dist o'.getCellPos := VectorInt.dist_triangle _ _ _
      _ ≤ tally.moved + 1 := by rw [hdist]; exact Nat.add_le_add_right h.cell 1

/-- It is idle again: the clock has reached `waitMoveUntil`. -/
theorem InPace.halts (hmove : o.info.state = .move) (hlate : fields.waitMoveUntil.toNat ≤ now) (hidle : o'.info.state = .idle)
    (hcell : o'.getCellPos = o.getCellPos) (hattack : fields'.waitAttackUntil = fields.waitAttackUntil) :
    InPace a now c₀ o' fields' tally := by
  refine ⟨hattack ▸ h.entries.later hnow, ?_, hcell ▸ h.cell⟩
  have hmoved := h.moved
  unfold GameObject.nextMove at hmoved
  rw [if_pos hmove] at hmoved
  rw [nextMove_idle (by rw [hidle]; decide)]
  exact (hmoved.later hnow).wait hlate

end

/-- What is known of `m` while the clock goes on: the last reading is one of `seen`. -/
structure Stretch (m : Ref) (a : ℕ) (c₀ : VectorInt) (seen : List UInt64) (st : Game Outboxes) (tally : Tally) : Prop where
  good : Good Anyone st []
  paced : ∃ last, (last = a ∨ ∃ t ∈ seen, last = t.toNat) ∧ Ahead last st.game.ticks ∧ PacedAt m a last c₀ st tally

/-- A turn of another monster. -/
theorem Stretch.others (h : Stretch m a c₀ seen st tally) (hm : Monstrous st x o fields) (hx : m ≠ x)
    (hturn : MonsterTurn x o fields st st') : Stretch m a c₀ seen st' (Tally.note m who st st' tally) := by
  obtain ⟨hgood, last, hlast, hahead, p, mine, hp, hk, hpace⟩ := h
  have hp' := hturn.spares hgood hm hx hp hk
  refine ⟨(hturn.kept hgood).1, last, hlast, ?_, p, mine, hp', hk, ?_⟩
  · exact hahead.sublist hturn.readings
  · rw [note_same hp hp' rfl rfl]
    exact hpace

/-- A turn of the monster itself. -/
theorem Stretch.turn (h : Stretch m a c₀ seen st tally) (hm : Monstrous st m o fields) (hturn : MonsterTurn m o fields st st')
    (hseen : ∀ t ∈ readings st.game.ticks, t ∈ seen) : Stretch m a c₀ seen st' (Tally.note m who st st' tally) := by
  obtain ⟨hgood, last, hlast, hahead, o₁, fields₁, ho, hk, hpace⟩ := h
  obtain rfl : o = o₁ := Option.some.inj (hm.object.symm.trans ho)
  obtain rfl : fields = fields₁ := Kind.monster.inj (hm.kind.symm.trans hk)
  have hgood' := (hturn.kept hgood).1
  refine ⟨hgood', ?_⟩
  -- a turn that neither begins an attack nor steps
  have hquiet : ∀ {o' : GameObject} {fields' : Monster}, st'.game.objects[m]? = some o' → o'.kind = .monster fields' →
      (st'.game.ticks = st.game.ticks ∨ st'.game.ticks = clockLater st.game.ticks) →
      (o.info.state ≠ .skill → o'.info.state ≠ .skill) → o'.getCellPos = o.getCellPos →
      fields'.waitAttackUntil = fields.waitAttackUntil → o'.nextMove fields' last = o.nextMove fields last →
      ∃ last, (last = a ∨ ∃ t ∈ seen, last = t.toNat) ∧ Ahead last st'.game.ticks ∧
        PacedAt m a last c₀ st' (Tally.note m who st st' tally) := by
    intro o' fields' ho' hk' hticks hstate hcell hattack hmove
    refine ⟨last, hlast, ?_, o', fields', ho', hk', ?_⟩
    · rcases hticks with heq | heq
      · rw [heq]
        exact hahead
      · rw [heq]
        exact hahead.tick
    · rw [note_quiet ho ho' hstate hcell]
      exact hpace.same hattack hmove hcell
  have hidle : ObjectState.idle ≠ .skill := by decide
  obtain ⟨hnow, hahead₁⟩ := hahead.read
  obtain ⟨hset₁, hahead₂⟩ := hahead₁.read
  have hseen₁ := hseen _ (clockNow_mem _)
  cases hturn with
  | seeks _ _ _ hy => exact hquiet (hy.self ho) rfl (.inl hy.ticks) id rfl rfl rfl
  | pursues hstate _ _ _ hpursues =>
    cases hpursues with
    | waits hy _ ht => exact hquiet (hy.self ho) rfl (by rwa [hy.ticks]) id rfl rfl rfl
    | faces _ hready hy =>
      have ho' := hy.self ho
      refine ⟨_, .inr ⟨_, hseen _ ((readings_later _).subset (clockNow_mem _)), rfl⟩, by rw [hy.ticks]; exact hahead₂,
        _, _, ho', rfl, ?_⟩
      rw [note_faces ho ho' hstate rfl rfl]
      exact hpace.faces hnow hstate (UInt64.le_iff_toNat_le.1 (UInt64.not_lt.1 hready)) hset₁ rfl rfl hahead₁.timer
    | steps _ hbeside _ _ hy =>
      have ho' := hy.self ho
      refine ⟨_, .inr ⟨_, hseen₁, rfl⟩, by rw [hy.ticks]; exact hahead₁, _, _, ho', rfl, ?_⟩
      rw [note_steps ho ho' rfl hbeside]
      exact hpace.steps hnow hstate rfl hbeside rfl hahead.timer
  | walks _ _ hy => exact hquiet (by rw [hy.scene]; exact ho) hk (.inr hy.ticks) id rfl rfl rfl
  | halts hmove hlate hy =>
    have ho' := hy.self ho
    refine ⟨_, .inr ⟨_, hseen₁, rfl⟩, by rw [hy.ticks]; exact hahead₁, _, _, ho', rfl, ?_⟩
    rw [note_quiet ho ho' (fun _ => hidle) rfl]
    exact hpace.halts hnow hmove (UInt64.le_iff_toNat_le.1 (UInt64.not_lt.1 hlate)) rfl rfl rfl
  | misses _ _ heq => exact hquiet (by rw [heq]; exact ho) hk (.inl (by rw [heq])) id rfl rfl rfl
  | hits hskill hlock _ _ hy =>
    exact hquiet (hy.self (hm.unhurt hgood hlock)) rfl (.inl hy.ticks) (fun _ => hidle) rfl rfl (nextMove_ends hskill rfl)
  | kills hskill hlock _ _ hy =>
    exact hquiet (hy.self (hm.undropped hgood hlock)) rfl (.inl hy.ticks)
      (fun _ => hidle) rfl rfl (nextMove_ends hskill rfl)
  | rests _ heq => exact hquiet (by rw [heq]; exact ho) hk (.inl (by rw [heq])) id rfl rfl rfl

/-- The turns of an update. -/
theorem turns_stretch {ms : List Ref} {s s' : Game Outboxes × Tally} (h : Stretch m a c₀ seen s.1 s.2)
    (hms : ∀ x ∈ ms, s.1.game.monsters[key x]? = some x) (hseen : ∀ t ∈ readings s.1.game.ticks, t ∈ seen)
    (hruns : Runs (NotedTurn (Tally.note m) pick) s ms s') :
    Stretch m a c₀ seen s'.1 s'.2 ∧ s'.1.game.monsters = s.1.game.monsters ∧ ∀ t ∈ readings s'.1.game.ticks, t ∈ seen := by
  induction hruns with
  | nil => exact ⟨h, rfl, hseen⟩
  | @snoc es s₁ x s₂ _ hnoted ih =>
    obtain ⟨hstretch, hmonsters, hreadings⟩ := ih fun y hy => hms y (List.mem_append_left _ hy)
    obtain ⟨⟨fuel, hupdate⟩, hnote⟩ := hnoted
    have hmem := hms x (List.mem_append_right _ List.mem_cons_self)
    rw [← hmonsters] at hmem
    obtain ⟨-, o, fields, hx⟩ := hstretch.good.monstrous hmem
    have hturn := (updateMonster_turn hstretch.good hx).result hupdate
    refine ⟨?_, (hturn.kept hstretch.good).2.1.trans hmonsters, fun t ht => hreadings t (hturn.readings.subset ht)⟩
    rw [hnote]
    by_cases heq : m = x
    · subst heq
      exact hstretch.turn hx hturn hreadings
    · exact hstretch.others hx heq hturn

/-- What is known of `m` between two operations. -/
structure Between (m : Ref) (a : ℕ) (c₀ : VectorInt) (seen : List UInt64) (st : Game Outboxes) (tally : Tally) : Prop where
  good : Good Anyone st []
  paced : ∃ last, (last = a ∨ ∃ t ∈ seen, last = t.toNat) ∧ PacedAt m a last c₀ st tally

theorem Between.step {s s' : Game Outboxes × Tally} (h : Between m a c₀ seen s.1 s.2) (hstep : NotedStep (Tally.note m) s op s')
    (hsorted : (seen ++ op.clock).Pairwise (· ≤ ·)) (hsmall : ∀ t ∈ op.clock, t.toNat + 1000 < 2 ^ 64)
    (hfrom : ∀ t ∈ op.clock, a ≤ t.toNat) : Between m a c₀ (seen ++ op.clock) s'.1 s'.2 := by
  obtain ⟨hgood, last, hlast, hpaced⟩ := h
  obtain ⟨hplayers, hnote⟩ := hstep
  have hgood' := (roomStep_acts hgood hplayers.1).1
  have hlast' : last = a ∨ ∃ t ∈ seen ++ op.clock, last = t.toNat := by
    rcases hlast with heq | ⟨t, ht, heq⟩
    · exact .inl heq
    · exact .inr ⟨t, List.mem_append_left _ ht, heq⟩
  -- an operation that is no update leaves the monster alone
  have hother : (∀ ticks pick, op ≠ .update ticks pick) → s'.2 = Tally.note m none s.1 s'.1 s.2 →
      Between m a c₀ (seen ++ op.clock) s'.1 s'.2 := by
    intro hop hnote
    obtain ⟨o, fields, ho, hk, hpace⟩ := hpaced
    obtain ⟨o', ho', hpose⟩ := op_pose hgood hplayers hop ho hk o ho
    obtain ⟨hkind, hpose⟩ := Prod.mk.inj hpose
    obtain ⟨hstate, hcell⟩ := Prod.mk.inj hpose
    rw [hnote, note_same ho ho' hstate hcell]
    refine ⟨hgood', last, hlast', o', fields, ho', hkind.trans hk, hpace.same rfl ?_ hcell⟩
    unfold GameObject.nextMove
    rw [hstate]
  cases op with
  | update ticks pick =>
    have hahead : Ahead last (clocked ticks s.1).game.ticks := by
      refine ⟨(List.pairwise_append.1 hsorted).2.1, ?_, hsmall⟩
      intro t ht
      rcases hlast with heq | ⟨t', ht', heq⟩
      · rw [heq]
        exact hfrom t ht
      · rw [heq]
        exact UInt64.le_iff_toNat_le.1 ((List.pairwise_append.1 hsorted).2.2 t' ht' t ht)
    have hstretch : Stretch m a c₀ (seen ++ RoomOp.clock (.update ticks pick)) (clocked ticks s.1) s.2 :=
      ⟨hgood.clocked ticks, last, hlast', hahead, hpaced⟩
    have hms : ∀ x ∈ elements s.1.game.monsters, (clocked ticks s.1).game.monsters[key x]? = some x :=
      fun x hx => hgood.core.elements_monsters hx
    obtain ⟨hend, -, -⟩ := turns_stretch (s := (clocked ticks s.1, s.2)) hstretch hms (fun t ht => List.mem_append_right _ ht) hnote
    obtain ⟨-, last', hlast'', -, hpaced'⟩ := hend
    exact ⟨hgood', last', hlast'', hpaced'⟩
  | init _ => exact hother (fun _ _ => nofun) hnote
  | enterRoom _ => exact hother (fun _ _ => nofun) hnote
  | leaveRoom _ => exact hother (fun _ _ => nofun) hnote
  | handleCMove _ => exact hother (fun _ _ => nofun) hnote

/-- The operations of a stretch. -/
theorem Between.run {s s' : Game Outboxes × Tally} {ops : List RoomOp} (h : Between m a c₀ [] s.1 s.2)
    (hruns : Runs (NotedStep (Tally.note m)) s ops s') (hsorted : (ops.flatMap RoomOp.clock).Pairwise (· ≤ ·))
    (hsmall : ∀ t ∈ ops.flatMap RoomOp.clock, t.toNat + 1000 < 2 ^ 64) (hfrom : ∀ t ∈ ops.flatMap RoomOp.clock, a ≤ t.toNat) :
    Between m a c₀ (ops.flatMap RoomOp.clock) s'.1 s'.2 := by
  induction hruns with
  | nil => exact h
  | @snoc es s₁ op s₂ _ hstep ih =>
    rw [List.flatMap_append, List.flatMap_singleton] at hsorted hsmall hfrom ⊢
    have hbefore := ih (List.pairwise_append.1 hsorted).1 (fun t ht => hsmall t (List.mem_append_left _ ht))
      fun t ht => hfrom t (List.mem_append_left _ ht)
    exact hbefore.step hstep hsorted (fun t ht => hsmall t (List.mem_append_right _ ht))
      fun t ht => hfrom t (List.mem_append_right _ ht)

/-- **The pace of a monster.** In a stretch of a run in which the clock does not go back and
stays below `2 ^ 64 - 1000`, and shows times at most `T` apart, a monster enters SKILL at
most `T / 1000 + 1` times, and it goes a way of at most `T / 1000 + 1` cells. -/
theorem monster_pacing {ops₁ ops₂ : List RoomOp} {tally : Tally} {T : ℕ} (h₁ : Runs PlayersStep roomStart ops₁ st₁)
    (ho : st₁.game.objects[m]? = some o) (hk : o.kind = .monster fields)
    (h₂ : Runs (NotedStep (Tally.note m)) (st₁, {}) ops₂ (st₂, tally))
    (hsorted : (ops₂.flatMap RoomOp.clock).Pairwise (· ≤ ·)) (hsmall : ∀ t ∈ ops₂.flatMap RoomOp.clock, t.toNat + 1000 < 2 ^ 64)
    (hT : ∀ t ∈ ops₂.flatMap RoomOp.clock, ∀ t' ∈ ops₂.flatMap RoomOp.clock, t'.toNat ≤ t.toNat + T) :
    tally.entries ≤ T / 1000 + 1 ∧ tally.moved ≤ T / 1000 + 1 ∧
      ∀ c, st₂.game.cell m = some c → o.getCellPos.dist c ≤ T / 1000 + 1 := by
  have hgood := (run_good (h₁.mono fun _ _ _ h => h.1)).1
  -- the stretch begins with its first reading
  obtain ⟨a, hfrom, hwithin⟩ : ∃ a : ℕ, (∀ t ∈ ops₂.flatMap RoomOp.clock, a ≤ t.toNat) ∧
      ∀ t ∈ ops₂.flatMap RoomOp.clock, t.toNat ≤ a + T := by
    cases hclock : ops₂.flatMap RoomOp.clock with
    | nil => exact ⟨0, List.forall_mem_nil _, List.forall_mem_nil _⟩
    | cons first rest =>
      rw [hclock] at hsorted hT
      refine ⟨first.toNat, ?_, hT first List.mem_cons_self⟩
      intro t ht
      rcases List.mem_cons.1 ht with heq | ht
      · rw [heq]
      · exact UInt64.le_iff_toNat_le.1 ((List.pairwise_cons.1 hsorted).1 t ht)
  have hstart : Between m a o.getCellPos [] st₁ {} := by
    refine ⟨hgood, a, .inl rfl, o, fields, ho, hk, .zero a _, ?_, Nat.le_of_eq (VectorInt.dist_self _)⟩
    exact .zero a _
  obtain ⟨-, last, hlast, o', fields', ho', -, hpace⟩ := Between.run (s := (st₁, {})) hstart h₂ hsorted hsmall hfrom
  have hend : last ≤ a + T := by
    rcases hlast with heq | ⟨t, ht, heq⟩
    · rw [heq]
      exact Nat.le_add_right a T
    · rw [heq]
      exact hwithin t ht
  have hmoved := hpace.moved.count (by decide) hend
  refine ⟨hpace.entries.count (by decide) hend, hmoved, ?_⟩
  intro c hc
  unfold Scene.cell at hc
  rw [ho'] at hc
  rw [← Option.some.inj hc]
  exact hpace.cell.trans hmoved

/-! ## Two stretches -/

/-- A player beside the monster, as its target. -/
def beside : List RoomOp := [.init meadow, .enterRoom 0, .handleCMove (placed 2 8 7), .update [0] fun _ => 0]

/-- Two attacks, a second apart. -/
def twoAttacks (first second : UInt64) : List RoomOp :=
  [.update [first] fun _ => 0, .update [first] fun _ => 0, .update [second] fun _ => 0]

theorem twoAttacks_clock (first second : UInt64) : (twoAttacks first second).flatMap RoomOp.clock = [first, first, second] := by
  simp [twoAttacks, RoomOp.clock, readings]

/-- A stretch of a run with the monster `0` and the player `1`. -/
structure Excerpt (ops₁ ops₂ : List RoomOp) (st₁ st₂ : Game Outboxes) (tally : Tally) : Prop where
  before : Runs PlayersStep roomStart ops₁ st₁
  monster : ∃ o fields, st₁.game.objects[0]? = some o ∧ o.kind = .monster fields
  stretch : Runs (NotedStep (Tally.note 0)) (st₁, {}) ops₂ (st₂, tally)

/-- The counts of a stretch, and where the monster and the player are after it. -/
def excerptExec (ops₁ ops₂ : List RoomOp) : Option (Bool × Tally × Option VectorInt × Option VectorInt) := do
  let st₁ ← ops₁.foldlM playersExec roomStart
  let s ← ops₂.foldlM (notedExec (Tally.note 0) 0) (st₁, {})
  some ((st₁.game.objects[0]?).any (·.info.objecttype = .monster), s.2, s.1.game.cell 0, s.1.game.cell 1)

theorem excerptExec_runs {ops₁ ops₂ : List RoomOp} {tally : Tally} {c c' : Option VectorInt}
    (h : excerptExec ops₁ ops₂ = some (true, tally, c, c')) :
    ∃ st₁ st₂, Excerpt ops₁ ops₂ st₁ st₂ tally ∧ st₂.game.cell 0 = c ∧ st₂.game.cell 1 = c' := by
  obtain ⟨st₁, hst₁, h⟩ := Option.bind_eq_some_iff.1 h
  obtain ⟨s, hs, h⟩ := Option.bind_eq_some_iff.1 h
  obtain ⟨hmonster, h⟩ := Prod.mk.inj (Option.some.inj h)
  obtain ⟨htally, h⟩ := Prod.mk.inj h
  obtain ⟨hcell, hcell'⟩ := Prod.mk.inj h
  have hruns := playersExec_runs hst₁
  have hgood := (run_good (hruns.mono fun _ _ _ h => h.1)).1
  obtain ⟨hstretch, -⟩ := notedExec_runs hgood hs
  rw [← htally]
  refine ⟨st₁, s.1, ⟨hruns, ?_, hstretch⟩, hcell, hcell'⟩
  -- an object of the type of monsters is one
  cases ho : st₁.game.objects[0]? with
  | none =>
    rw [ho] at hmonster
    exact absurd hmonster (by decide)
  | some o =>
    rw [ho, Option.any_some] at hmonster
    have htyped := hgood.core.typed 0 o ho
    unfold GameObject.Typed at htyped
    cases hk : o.kind with
    | monster fields => exact ⟨o, fields, rfl, hk⟩
    | player s =>
      rw [hk] at htyped
      dsimp only at htyped
      rw [htyped] at hmonster
      exact absurd hmonster (by decide)

/-- A monster attacks, hits, and attacks again when a second has passed. -/
theorem monster_pacing_example : ∃ st₁ st₂ tally, Excerpt beside (twoAttacks 1000 2000) st₁ st₂ tally ∧
    tally.entries = 2 ∧ tally.entries ≤ 1000 / 1000 + 1 ∧ tally.moved ≤ 1000 / 1000 + 1 := by
  have hrun : excerptExec beside (twoAttacks 1000 2000) = some (true, ⟨2, 0⟩, some ⟨8, 8⟩, some ⟨8, 7⟩) := by
    decide +kernel
  obtain ⟨st₁, st₂, hexcerpt, -, -⟩ := excerptExec_runs hrun
  obtain ⟨o, fields, ho, hk⟩ := hexcerpt.monster
  have hclock := twoAttacks_clock 1000 2000
  obtain ⟨hentries, hmoved, -⟩ := monster_pacing (T := 1000) hexcerpt.before ho hk hexcerpt.stretch
    (by rw [hclock]; decide) (by rw [hclock]; simp) (by rw [hclock]; simp)
  exact ⟨st₁, st₂, _, hexcerpt, rfl, hentries, hmoved⟩

/-- When the clock shows `2 ^ 64 - 1` the timer is set to 999, and the monster attacks twice at once. -/
theorem pacing_wraps : ∃ st₁ st₂ tally, Excerpt beside (twoAttacks 18446744073709551615 18446744073709551615) st₁ st₂ tally ∧
    ((beside ++ twoAttacks 18446744073709551615 18446744073709551615).flatMap RoomOp.clock).Pairwise (· ≤ ·) ∧
    (∀ t ∈ (twoAttacks 18446744073709551615 18446744073709551615).flatMap RoomOp.clock,
      ∀ t' ∈ (twoAttacks 18446744073709551615 18446744073709551615).flatMap RoomOp.clock, t'.toNat ≤ t.toNat + 0) ∧
    st₂.game.cell 0 = some ⟨8, 8⟩ ∧ st₂.game.cell 1 = some ⟨8, 7⟩ ∧ ¬ tally.entries ≤ 0 / 1000 + 1 := by
  have hrun : excerptExec beside (twoAttacks 18446744073709551615 18446744073709551615) =
      some (true, ⟨2, 0⟩, some ⟨8, 8⟩, some ⟨8, 7⟩) := by
    decide +kernel
  obtain ⟨st₁, st₂, hexcerpt, hcell, hcell'⟩ := excerptExec_runs hrun
  have hclock := twoAttacks_clock 18446744073709551615 18446744073709551615
  refine ⟨st₁, st₂, _, hexcerpt, ?_, ?_, hcell, hcell', by decide⟩
  · rw [List.flatMap_append, hclock]
    simp [beside, RoomOp.clock, readings]
  · rw [hclock]
    simp

end ZeldaServer
