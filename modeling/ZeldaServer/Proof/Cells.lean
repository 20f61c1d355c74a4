import ZeldaServer.Proof.RoomRun

/-!
# Objects on distinct cells

Three operations put an object on a cell: `Init`, `EnterRoom` and `C_Move`. None of
them looks whether the cell is free; the monsters do. As long as the cell is free each
time, all objects in the room stand on distinct cells, and a lookup by cell has one
answer.

* `Act.exclusive`, `cells_exclusive`: the acts, and the runs of operations.
* `Good.getGameObjectAt`: the lookup finds the object.
-/

namespace ZeldaServer

open Lib Std

variable {W : SessionId → Outboxes → Prop} {st st' : Game Outboxes} {v v' : Stage Outboxes} {pins : List Ref} {r : Ref}
  {o : GameObject} {sc sc' : Scene} {cellPos : VectorInt} {ops : List RoomOp}

/-- No two objects in the room stand on one cell. -/
def Scene.Exclusive (sc : Scene) : Prop :=
  ∀ (r r' : Ref) (o o' : GameObject), sc.Inside r → sc.Inside r' → sc.objects[r]? = some o →
    sc.objects[r']? = some o' → o.getCellPos = o'.getCellPos → r = r'

/-- No object in the room but `r` stands on the cell. -/
def Scene.VacantFor (sc : Scene) (r : Ref) (cellPos : VectorInt) : Prop :=
  ∀ (r' : Ref) (o : GameObject), sc.Inside r' → r' ≠ r → sc.objects[r']? = some o → o.getCellPos ≠ cellPos

/-! ## The acts -/

/-- When objects leave and none moves. -/
theorem Scene.Exclusive.shrink (h : sc.Exclusive) (hin : ∀ r, sc'.Inside r → sc.Inside r)
    (hcell : ∀ (r : Ref) (o' : GameObject), sc'.objects[r]? = some o' →
      ∃ o : GameObject, sc.objects[r]? = some o ∧ o.getCellPos = o'.getCellPos) : sc'.Exclusive := by
  intro r₁ r₂ o₁ o₂ hin₁ hin₂ ho₁ ho₂ heq
  obtain ⟨o₁', ho₁', hc₁⟩ := hcell r₁ o₁ ho₁
  obtain ⟨o₂', ho₂', hc₂⟩ := hcell r₂ o₂ ho₂
  exact h r₁ r₂ o₁' o₂' (hin r₁ hin₁) (hin r₂ hin₂) ho₁' ho₂' (hc₁.trans (heq.trans hc₂.symm))

/-- A change of an object that leaves its cell alone. -/
theorem cell_modify {f : GameObject → GameObject} (hf : ∀ o, (f o).getCellPos = o.getCellPos) {r' : Ref} {o' : GameObject}
    (h : (sc.modify r f).objects[r']? = some o') :
    ∃ o : GameObject, sc.objects[r']? = some o ∧ o.getCellPos = o'.getCellPos := by
  rcases of_modify h with ⟨rfl, o, ho, rfl⟩ | ⟨-, ho⟩
  · exact ⟨o, ho, (hf o).symm⟩
  · exact ⟨o', ho, rfl⟩

theorem Musing.cell {f : GameObject → GameObject} (h : Musing sc f) (o : GameObject) : (f o).getCellPos = o.getCellPos := by
  obtain ⟨state, hinfo⟩ := h.info o
  unfold GameObject.getCellPos
  rw [hinfo]

/-- An object moves to a cell that is free. -/
theorem Scene.Exclusive.follow (h : sc.Exclusive) {told : ObjectInfo} (hfree : sc.VacantFor r ⟨told.posx, told.posy⟩) :
    (sc.modifyInfo r (·.follow told)).Exclusive := by
  intro r₁ r₂ o₁ o₂ hin₁ hin₂ ho₁ ho₂ heq
  rcases of_modify ho₁ with ⟨rfl, o, ho, rfl⟩ | ⟨hne₁, ho₁⟩
  · rcases of_modify ho₂ with ⟨rfl, -⟩ | ⟨hne₂, ho₂⟩
    · rfl
    · exact absurd heq.symm (hfree r₂ o₂ hin₂ hne₂ ho₂)
  · rcases of_modify ho₂ with ⟨hr₂, o, ho, rfl⟩ | ⟨hne₂, ho₂⟩
    · exact absurd heq (hfree r₁ o₁ hin₁ hne₁ ho₁)
    · exact h r₁ r₂ o₁ o₂ hin₁ hin₂ ho₁ ho₂ heq

/-- An object is added on a cell that is free. -/
theorem Scene.Exclusive.added (h : sc.Exclusive) {a : GameObject} (hfree : sc.Vacant a.getCellPos)
    (hobjects : sc'.objects = sc.objects ++ [a])
    (hin : ∀ r, sc'.Inside r → sc.Inside r ∨ r = sc.objects.length) : sc'.Exclusive := by
  have hnone : sc.objects[sc.objects.length]? = none := List.getElem?_eq_none (Nat.le_refl _)
  -- an object in the new room is the new one, or it was in the room
  have hold : ∀ (r : Ref) (o : GameObject), sc'.Inside r → sc'.objects[r]? = some o →
      (sc.Inside r ∧ sc.objects[r]? = some o) ∨ (r = sc.objects.length ∧ o = a) := by
    intro r o hr ho
    rw [hobjects] at ho
    rcases objects_last ho with ho | hlast
    · rcases hin r hr with hr | rfl
      · exact .inl ⟨hr, ho⟩
      · rw [hnone] at ho
        cases ho
    · exact .inr hlast
  intro r₁ r₂ o₁ o₂ hin₁ hin₂ ho₁ ho₂ heq
  rcases hold r₁ o₁ hin₁ ho₁ with ⟨hin₁, ho₁⟩ | ⟨hr₁, rfl⟩
  · rcases hold r₂ o₂ hin₂ ho₂ with ⟨hin₂, ho₂⟩ | ⟨hr₂, rfl⟩
    · exact h r₁ r₂ o₁ o₂ hin₁ hin₂ ho₁ ho₂ heq
    · exact absurd heq (hfree r₁ o₁ hin₁ ho₁)
  · rcases hold r₂ o₂ hin₂ ho₂ with ⟨hin₂, ho₂⟩ | ⟨hr₂, rfl⟩
    · exact absurd heq.symm (hfree r₂ o₂ hin₂ ho₂)
    · rw [hr₁, hr₂]

/-- The key of a map that has one more element. -/
theorem inside_insert {m : TreeMap UInt64 Ref} {k : UInt64} {last : Ref} (h : (m.insert k last)[key r]? = some r) :
    m[key r]? = some r ∨ r = last := by
  rw [TreeMap.getElem?_insert] at h
  split at h
  · exact .inr (Option.some.inj h).symm
  · exact .inl h

theorem inside_erase {m : TreeMap UInt64 Ref} {k : UInt64} (h : (m.erase k)[key r]? = some r) : m[key r]? = some r := by
  rw [TreeMap.getElem?_erase] at h
  split at h
  · cases h
  · exact h

theorem Scene.Exclusive.drop (h : sc.Exclusive) {which : Roster} {id : UInt64} : (sc.drop which r id).Exclusive := by
  refine h.shrink (fun r' hin => ?_) fun r' o ho => ?_
  · cases which with
    | players => exact hin.imp_left inside_erase
    | monsters => exact hin.imp_right inside_erase
  · obtain ⟨o', ho', hcell⟩ := cell_modify (f := fun o => { o with room := false }) (fun _ => rfl) ho
    cases which with
    | players => exact ⟨o', ho', hcell⟩
    | monsters => exact ⟨o', ho', hcell⟩

theorem Scene.Exclusive.removes (h : v.game.Exclusive) {B : Scene → Msg → Outboxes → Outboxes → Prop} {id : UInt64}
    (hremoves : Removes B v id v') : v'.game.Exclusive := by
  cases hremoves with
  | missing => exact h
  | found => exact h.drop

/-- What an act needs so that the objects stay on distinct cells. -/
def Label.Spaced (sc : Scene) : Label → Prop
  | .enter _ => sc.Vacant ⟨5, 5⟩
  | .spawn => sc.Vacant ⟨8, 8⟩
  | .report r told => sc.VacantFor r ⟨told.posx, told.posy⟩
  | .think _ | .walk _ _ | .hit _ _ | .kill _ _ | .leave _ => True

/-- **An act keeps the objects on distinct cells.** -/
theorem Act.exclusive {B : Scene → Msg → Outboxes → Outboxes → Prop} {U : SessionId → Msg → Outboxes → Outboxes → Prop}
    {a : Label} (hact : Act B U v a v') (h : v.game.Exclusive) (ha : a.Spaced v.game) : v'.game.Exclusive := by
  have hstrikes : ∀ {v₁ : Stage Outboxes} {attacker target : Ref} {info : ObjectInfo},
      Strikes B v attacker target info v₁ → v₁.game.Exclusive := by
    intro v₁ attacker target info hs
    cases hs with
    | mk hne hina hint hoa hot hB =>
      rename_i a t net
      refine h.shrink (fun _ hin => hin) fun _ _ ho => ?_
      exact cell_modify (f := fun o => { o with info := o.info.hurt a.info.attack }) (fun _ => rfl) ho
  cases hact with
  | enter =>
    refine h.added (a := v.game.newPlayer _) ha rfl fun r hin => ?_
    rcases hin with hp | hm
    · exact (inside_insert hp).imp_left .inl
    · exact .inl (.inr hm)
  | spawn =>
    refine h.added (a := v.game.newMonster) ha rfl fun r hin => ?_
    rcases hin with hp | hm
    · exact .inl (.inl hp)
    · exact (inside_insert hm).imp_left .inr
  | think hf => exact h.shrink (fun _ hin => hin) fun _ _ ho => cell_modify hf.cell ho
  | walk hin ho htold hcell _ =>
    refine h.follow fun r' o' hin' hne ho' => ?_
    rcases hcell with hsame | hvacant
    · rw [← hsame]
      exact fun heq => hne (h r' _ o' _ hin' hin ho' ho heq)
    · exact hvacant r' o' hin' ho'
  | report _ _ _ _ => exact h.follow ha
  | hit hs _ => exact hstrikes hs
  | kill hs _ hf hremoves =>
    refine Scene.Exclusive.removes ?_ hremoves
    exact (hstrikes hs).shrink (fun _ hin => hin) fun _ _ ho => cell_modify hf.cell ho
  | leave hremoves => exact h.removes hremoves

/-! ## Runs -/

/-- What an operation needs so that the objects stay on distinct cells. -/
def RoomOp.Spaced (sc : Scene) : RoomOp → Prop
  | .init _ => sc.Vacant ⟨8, 8⟩
  | .enterRoom _ => sc.Vacant ⟨5, 5⟩
  | .handleCMove pkt => ∀ r, sc.findObject pkt.info.objectid = some r → sc.VacantFor r ⟨pkt.info.posx, pkt.info.posy⟩
  | .leaveRoom _ | .update _ _ => True

/-- One operation, which puts no object on a cell that is taken. -/
def SpacedStep (st : Game Outboxes) (op : RoomOp) (st' : Game Outboxes) : Prop :=
  RoomStep st op st' ∧ op.Spaced st.game.toScene

/-- A property of all objects of a scene is looked up in the list. -/
theorem objects_forall {P : Ref → GameObject → Prop} : (∀ (r : Ref) (o : GameObject), sc.objects[r]? = some o → P r o) ↔
    ∀ r ∈ List.range sc.objects.length, ∀ o ∈ sc.objects[r]?, P r o := by
  constructor
  · exact fun h r _ o ho => h r o ho
  · intro h r o ho
    exact h r (List.mem_range.2 (List.getElem?_eq_some_iff.1 ho).1) o ho

instance (sc : Scene) (r : Ref) : Decidable (sc.Inside r) := inferInstanceAs (Decidable (_ ∨ _))

instance (sc : Scene) (cellPos : VectorInt) : Decidable (sc.Vacant cellPos) :=
  decidable_of_iff (∀ r ∈ List.range sc.objects.length, ∀ o ∈ sc.objects[r]?, sc.Inside r → o.getCellPos ≠ cellPos)
    (objects_forall.symm.trans ⟨fun h r o hin ho => h r o ho hin, fun h r o ho hin => h r o hin ho⟩)

instance (sc : Scene) (r : Ref) (cellPos : VectorInt) : Decidable (sc.VacantFor r cellPos) :=
  decidable_of_iff (∀ r' ∈ List.range sc.objects.length, ∀ o ∈ sc.objects[r']?, sc.Inside r' → r' ≠ r → o.getCellPos ≠ cellPos)
    (objects_forall.symm.trans ⟨fun h r' o hin hne ho => h r' o ho hin hne, fun h r' o ho hin hne => h r' o hin hne ho⟩)

instance (sc : Scene) (op : RoomOp) : Decidable (op.Spaced sc) :=
  match op with
  | .init _ => inferInstanceAs (Decidable (sc.Vacant _))
  | .enterRoom _ => inferInstanceAs (Decidable (sc.Vacant _))
  | .handleCMove pkt => inferInstanceAs (Decidable (∀ r ∈ sc.findObject pkt.info.objectid, sc.VacantFor r _))
  | .leaveRoom _ | .update _ _ => inferInstanceAs (Decidable True)

/-- One operation that is spaced, with fuel for a small room. -/
def spacedExec (st : Game Outboxes) (op : RoomOp) : Option (Game Outboxes) :=
  if op.Spaced st.game.toScene then roomExec st op else none

theorem spacedExec_step {op : RoomOp} (h : spacedExec st op = some st') : SpacedStep st op st' := by
  unfold spacedExec at h
  split at h
  · rename_i hspaced
    exact ⟨roomExec_step h, hspaced⟩
  · cases h

/-- Acts that need nothing keep the objects on distinct cells. -/
theorem acts_exclusive {acts : List Label} (hruns : Runs (Act Told Whisper) v acts v') (h : v.game.Exclusive)
    (hacts : ∀ a ∈ acts, ∀ sc, a.Spaced sc) : v'.game.Exclusive := by
  induction hruns with
  | nil => exact h
  | snoc _ hact ih =>
    refine hact.exclusive (ih fun a ha => hacts a (List.mem_append_left _ ha)) ?_
    exact hacts _ (List.mem_append_right _ List.mem_cons_self) _

theorem Label.Attacks.spaced {a : Label} (h : Label.Attacks r a) (sc : Scene) : a.Spaced sc := by
  obtain ⟨target, rfl | rfl⟩ := h
  · trivial
  · trivial

theorem spacedStep_exclusive {op : RoomOp} (hgood : Good Anyone st []) (h : st.game.Exclusive)
    (hstep : SpacedStep st op st') : st'.game.Exclusive := by
  obtain ⟨hroom, hspaced⟩ := hstep
  obtain ⟨-, acts, hruns, hperforms⟩ := roomStep_acts hgood hroom
  cases op with
  | init tilemap =>
    obtain rfl : acts = [.spawn] := hperforms
    exact hruns.of_single.exclusive h hspaced
  | enterRoom s =>
    obtain rfl : acts = [.enter s] := hperforms
    exact hruns.of_single.exclusive h hspaced
  | leaveRoom s =>
    refine acts_exclusive hruns h fun a ha sc => ?_
    rcases hperforms with rfl | ⟨id, rfl⟩
    · cases ha
    · rw [List.mem_singleton.1 ha]
      trivial
  | handleCMove pkt =>
    rcases hperforms with rfl | ⟨r, rest, hfound, rfl, hrest⟩
    · have hsame : st.game.toScene = st'.game.toScene := congrArg State.game hruns.eq_of_nil
      rw [← hsame]
      exact h
    · -- the move of the packet, and then the attacks
      obtain ⟨v, hreport, hruns⟩ := hruns.first
      exact acts_exclusive hruns (hreport.exclusive h (hspaced r hfound)) fun a ha => (hrest a ha).spaced
  | update ticks pick =>
    refine acts_exclusive hruns h fun a ha sc => ?_
    obtain ⟨r, rfl | ⟨told, rfl⟩ | hattacks⟩ := hperforms a ha
    · trivial
    · trivial
    · exact hattacks.spaced sc

/-! ## Looking up a cell -/

/-- The lookup in a list of objects that are alive. -/
theorem findAt_returns {room : Room} (l : List Ref) (hl : ∀ r ∈ l, ∃ o, room.deref r = .ok o ∧ room.objects[r]? = some o) :
    Returns (room.findAt cellPos l) fun ret =>
      (∀ r, ret = some r → r ∈ l ∧ ∃ o : GameObject, room.objects[r]? = some o ∧ o.getCellPos = cellPos) ∧
      (ret = none → ∀ r ∈ l, ∀ o : GameObject, room.objects[r]? = some o → o.getCellPos ≠ cellPos) := by
  induction l with
  | nil => exact .ok ⟨fun r hr => absurd hr.symm (Option.some_ne_none r), fun _ => List.forall_mem_nil _⟩
  | cons a l ih =>
    obtain ⟨o, hderef, ho⟩ := hl a List.mem_cons_self
    unfold Room.findAt
    rw [hderef, ok_bind]
    split
    · rename_i hcell
      refine .ok ⟨fun r hr => ?_, fun hnone => absurd hnone (Option.some_ne_none a)⟩
      rw [← Option.some.inj hr]
      exact ⟨List.mem_cons_self, o, ho, hcell⟩
    · rename_i hne
      refine (ih fun r hr => hl r (List.mem_cons_of_mem _ hr)).imp fun ret hret => ?_
      obtain ⟨hsome, hnone⟩ := hret
      refine ⟨fun r hr => ?_, fun hn r hr o' ho' => ?_⟩
      · obtain ⟨hmem, hcell⟩ := hsome r hr
        exact ⟨List.mem_cons_of_mem _ hmem, hcell⟩
      · rcases List.mem_cons.1 hr with rfl | hr
        · rw [ho] at ho'
          rw [← Option.some.inj ho']
          exact hne
        · exact hnone hn r hr o' ho'

/-- **`GetGameObjectAt`** finds an object on the cell if there is one. -/
theorem Good.getGameObjectAt {ν : Type} {W : SessionId → ν → Prop} {st : Game ν} (h : Good W st pins) (cellPos : VectorInt) :
    Returns (st.game.getGameObjectAt cellPos) fun ret =>
      (∀ r, ret = some r → st.game.Inside r ∧ ∃ o : GameObject, st.game.objects[r]? = some o ∧ o.getCellPos = cellPos) ∧
      (ret = none → st.game.toScene.Vacant cellPos) := by
  have halive : ∀ r, st.game.Inside r → ∃ o, st.game.deref r = .ok o ∧ st.game.objects[r]? = some o := by
    intro r hin
    obtain ⟨o, ho, -⟩ := h.core.inside_room hin
    exact ⟨o, h.deref ho (.inl hin), ho⟩
  have hplayers : ∀ r ∈ elements st.game.players, st.game.Inside r := fun r hr => .inl (h.core.elements_players hr)
  have hmonsters : ∀ r ∈ elements st.game.monsters, st.game.Inside r := fun r hr => .inr (h.core.elements_monsters hr)
  unfold Room.getGameObjectAt
  refine (findAt_returns _ fun r hr => halive r (hplayers r hr)).bind fun ret hret => ?_
  obtain ⟨hsome, hnone⟩ := hret
  cases ret with
  | some r =>
    refine .ok ⟨fun r' hr' => ?_, nofun⟩
    obtain ⟨hmem, hcell⟩ := hsome r' hr'
    exact ⟨hplayers r' hmem, hcell⟩
  | none =>
    refine (findAt_returns _ fun r hr => halive r (hmonsters r hr)).imp fun ret hret => ?_
    obtain ⟨hsome', hnone'⟩ := hret
    refine ⟨fun r hr => ?_, fun hn r o hin ho => ?_⟩
    · obtain ⟨hmem, hcell⟩ := hsome' r hr
      exact ⟨hmonsters r hmem, hcell⟩
    · rcases hin with hp | hm
      · exact hnone rfl r (mem_elements.2 ⟨_, hp⟩) o ho
      · exact hnone' hn r (mem_elements.2 ⟨_, hm⟩) o ho

/-- **Cell exclusivity.** In every run in which no player enters while `(5, 5)` is taken, no
monster is made while `(8, 8)` is taken, and no packet moves an object to a cell that is
taken by another one, the objects in the room stand on distinct cells, and the lookup of
the cell of each of them gives that object. -/
theorem cells_exclusive (h : Runs SpacedStep roomStart ops st) :
    (∀ (r r' : Ref) (o o' : GameObject), st.game.Contains r → st.game.Contains r' → r ≠ r' →
      st.game.objects[r]? = some o → st.game.objects[r']? = some o' → o.getCellPos ≠ o'.getCellPos) ∧
    ∀ (r : Ref) (o : GameObject), st.game.Contains r → st.game.objects[r]? = some o →
      st.game.getGameObjectAt o.getCellPos = .ok (some r) := by
  have hinv : Good Anyone st [] ∧ st.game.Exclusive := by
    refine Runs.invariant (P := fun st => Good Anyone st [] ∧ st.game.Exclusive) ⟨good_start, ?_⟩
      (fun st op st' hst hstep => ?_) h
    · intro r r' o o' _ _ ho
      simp [roomStart] at ho
    · exact ⟨(roomStep_acts hst.1 hstep.1).1, spacedStep_exclusive hst.1 hst.2 hstep⟩
  obtain ⟨hgood, hexcl⟩ := hinv
  refine ⟨fun r r' o o' hin hin' hne ho ho' heq => ?_, fun r o hin ho => ?_⟩
  · rw [hgood.core.contains] at hin hin'
    exact hne (hexcl r r' o o' hin hin' ho ho' heq)
  · rw [hgood.core.contains] at hin
    obtain ⟨ret, hret, hsome, hnone⟩ := returns_iff.1 (hgood.getGameObjectAt o.getCellPos)
    rw [hret]
    cases ret with
    | none => exact absurd rfl (hnone rfl r o hin ho)
    | some r' =>
      obtain ⟨hin', o', ho', hcell⟩ := hsome r' rfl
      rw [hexcl r' r o' o hin' hin ho' ho hcell]

/-- A monster is made, a player enters and walks next to it, and another player enters. -/
theorem cells_exclusive_example : ∃ st, Runs SpacedStep roomStart
      [.init {}, .enterRoom 0, .handleCMove (swing 2), .enterRoom 1, .update [1000] fun _ => 0] st ∧
    st.game.objects.length = 3 ∧
    (∀ (r r' : Ref) (o o' : GameObject), st.game.Contains r → st.game.Contains r' → r ≠ r' →
      st.game.objects[r]? = some o → st.game.objects[r']? = some o' → o.getCellPos ≠ o'.getCellPos) ∧
    ∀ (r : Ref) (o : GameObject), st.game.Contains r → st.game.objects[r]? = some o →
      st.game.getGameObjectAt o.getCellPos = .ok (some r) := by
  have hrun : (([.init {}, .enterRoom 0, .handleCMove (swing 2), .enterRoom 1, .update [1000] fun _ => 0] :
      List RoomOp).foldlM spacedExec roomStart).map (fun st => st.game.objects.length) = some 3 := by decide +kernel
  obtain ⟨st, hst, hlen⟩ := Option.map_eq_some_iff.1 hrun
  have h := (Runs.ofFold spacedExec _ _ hst).mono fun _ _ _ => spacedExec_step
  exact ⟨st, h, hlen, cells_exclusive h⟩

/-- Two players enter, and both stand on `(5, 5)`. -/
theorem players_collide : ∃ st, Runs RoomStep roomStart [.enterRoom 0, .enterRoom 1] st ∧
    ¬ ∀ (r r' : Ref) (o o' : GameObject), st.game.Contains r → st.game.Contains r' → r ≠ r' →
      st.game.objects[r]? = some o → st.game.objects[r']? = some o' → o.getCellPos ≠ o'.getCellPos := by
  have hrun : (([.enterRoom 0, .enterRoom 1] : List RoomOp).foldlM roomExec roomStart).map (fun st =>
      (st.game.players[(1 : UInt64)]?, st.game.players[(2 : UInt64)]?, st.game.objects.map GameObject.getCellPos)) =
      some (some 0, some 1, [⟨5, 5⟩, ⟨5, 5⟩]) := by decide +kernel
  obtain ⟨st, hst, hroom⟩ := Option.map_eq_some_iff.1 hrun
  obtain ⟨h0, hroom⟩ := Prod.mk.inj hroom
  obtain ⟨h1, hcells⟩ := Prod.mk.inj hroom
  refine ⟨st, roomExec_runs hst, fun hall => ?_⟩
  obtain ⟨o, l, hl, ho, hl'⟩ := List.map_eq_cons_iff.1 hcells
  obtain ⟨o', l', rfl, ho', -⟩ := List.map_eq_cons_iff.1 hl'
  exact hall 0 1 o o' ⟨1, .inl h0⟩ ⟨2, .inl h1⟩ Nat.zero_ne_one (by rw [hl]; rfl) (by rw [hl]; rfl) (ho.trans ho'.symm)

end ZeldaServer
