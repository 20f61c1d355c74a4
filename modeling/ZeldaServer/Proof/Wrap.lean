import ZeldaServer.Proof.Progress
import ZeldaServer.Proof.Clients

/-!
# When the ids run out

`s_idGenerator` is a `uint64`. Sessions that enter and leave use up the ids and change
nothing else in the room, and the object created after `2 ^ 64` others has the id of
the first one, which may still be there.

* `session_visits`, `comings_run`: sessions that come and go.
* `represents_wraps`, `clients_wrap`: what happens to the room and to its clients.
-/

namespace ZeldaServer

open Lib Std

variable {st st' : Game Outboxes} {r : Ref} {o : GameObject} {s : SessionId} {sc sc' sc'' : Scene} {k n : ℕ}

/-- The maps and the objects there were. -/
structure Alike (sc sc' : Scene) : Prop where
  players : ∀ id : UInt64, sc'.players[id]? = sc.players[id]?
  monsters : ∀ id : UInt64, sc'.monsters[id]? = sc.monsters[id]?
  objects : ∀ (r : Ref) (o : GameObject), sc.objects[r]? = some o → sc'.objects[r]? = some o

theorem Alike.refl : Alike sc sc := ⟨fun _ => rfl, fun _ => rfl, fun _ _ ho => ho⟩

theorem Alike.trans (h : Alike sc sc') (h' : Alike sc' sc'') : Alike sc sc'' :=
  ⟨fun id => (h'.players id).trans (h.players id), fun id => (h'.monsters id).trans (h.monsters id),
    fun r o ho => h'.objects r o (h.objects r o ho)⟩

/-- A map is listed in the order of its keys. -/
theorem toList_of_getElem? {m m' : TreeMap UInt64 Ref} (h : ∀ id : UInt64, m[id]? = m'[id]?) : m.toList = m'.toList :=
  (TreeMap.Equiv.of_forall_constGet?_eq h).toList_eq

/-- Who has entered and left is in the memory only. -/
theorem Core.visited {v : Stage Outboxes} (h : Core Anyone v) (hb : v.game.objects.length < 2 ^ 64) :
    Alike v.game ((v.game.enter s).drop .players v.game.objects.length (key v.game.objects.length)) := by
  have hnone : v.game.players[key v.game.objects.length]? = none := by
    cases hp : v.game.players[key v.game.objects.length]? with
    | none => rfl
    | some r =>
      obtain ⟨hkey, o, -, ho, -⟩ := h.players _ r hp
      exact absurd hkey (key_ne_last ho hb)
  refine ⟨fun id => ?_, fun id => rfl, fun r o ho => ?_⟩
  · change ((v.game.players.insert v.game.idGenerator v.game.objects.length).erase (key v.game.objects.length))[id]? = _
    rw [h.next]
    by_cases hid : key v.game.objects.length = id
    · rw [← hid, hnone, TreeMap.getElem?_erase_self]
    · rw [getElem?_erase_ne hid, getElem?_insert_ne hid]
  · have hlt := (List.getElem?_eq_some_iff.1 ho).1
    unfold Scene.drop
    rw [modify_ne (Nat.ne_of_lt hlt)]
    change (v.game.objects ++ [_])[r]? = _
    rw [List.getElem?_append_left hlt, ho]

/-- The records are the same. -/
theorem Alike.snapshot {v : Stage Outboxes} (h : Alike v.game sc) (hcore : Core Anyone v) {objects : List ObjectInfo}
    (hsnap : sc.Snapshot objects) : v.game.Snapshot objects := by
  unfold Scene.Snapshot at hsnap ⊢
  have hp : elements sc.players = elements v.game.players := congrArg (List.map Prod.snd) (toList_of_getElem? h.players)
  have hm : elements sc.monsters = elements v.game.monsters :=
    congrArg (List.map Prod.snd) (toList_of_getElem? h.monsters)
  rw [← hsnap, hp, hm]
  refine List.map_congr_left fun r hr => ?_
  rw [List.mem_append, mem_elements, mem_elements] at hr
  rcases hr with ⟨k, hk⟩ | ⟨k, hk⟩
  · obtain ⟨-, o, s, ho, -⟩ := hcore.players k r hk
    rw [ho, h.objects r o ho]
  · obtain ⟨-, o, ho, -⟩ := hcore.monsters k r hk
    rw [ho, h.objects r o ho]

/-- **A session enters and leaves.** -/
theorem session_visits (h : Good Anyone st []) (hfresh : (st.game.gameSessions s).player = none)
    (hsize : ∀ objects, st.game.Snapshot objects → (Msg.addObject objects).serialize.length < 65532)
    (hb : st.game.objects.length < 2 ^ 64) :
    ∃ st', Runs RoomStep st [.enterRoom s, .leaveRoom s] st' ∧ Good Anyone st' [] ∧
      Alike st.game.toScene st'.game.toScene ∧ st'.game.objects.length = st.game.objects.length + 1 ∧
      ∀ s', s' ≠ s → st'.game.gameSessions s' = st.game.gameSessions s' := by
  obtain ⟨st₁, henter⟩ := enterRoom_returns h hfresh hsize
    (Nat.lt_succ_self _)
  have hstep₁ : RoomStep st (.enterRoom s) st₁ := ⟨hfresh, _, henter⟩
  obtain ⟨hgood₁, hact⟩ := (enterRoom_spec speaks_post (tells_post s) h trivial hfresh).result henter
  have hscene₁ : st₁.game.toScene = st.game.toScene.enter s := by
    generalize hv : st₁.stage = v at hact
    cases hact with
    | enter => exact congrArg (fun v : Stage Outboxes => v.game) hv
  -- its player is in the room
  have hlast : st₁.game.objects[st.game.objects.length]? = some (st.game.toScene.newPlayer s) := by
    rw [hscene₁]
    exact List.getElem?_concat_length
  have hmem : st₁.game.players[key st.game.objects.length]? = some st.game.objects.length := by
    rw [hscene₁]
    change (st.game.players.insert st.game.idGenerator st.game.objects.length)[_]? = _
    rw [show st.game.idGenerator = key st.game.objects.length from h.core.next, TreeMap.getElem?_insert_self]
  have hweak : (st₁.game.gameSessions s).player = some st.game.objects.length := by
    rw [hscene₁]
    exact seat_self
  obtain ⟨st₂, hremove⟩ := removeObject_returns (key st.game.objects.length) hgood₁ (Nat.lt_succ_self _)
  have hleave : Game.leaveRoom post (st₁.game.players.toList.length + 1) s st₁ = .ok st₂ := by
    unfold Game.leaveRoom Game.leaveRoomBy
    rw [hweak, lock_some (hgood₁.useCount (.inl (.inl hmem)))]
    dsimp only
    rw [hgood₁.deref hlast (.inl (.inl hmem)), ok_bind]
    have hid : (st.game.toScene.newPlayer s).info.objectid = key st.game.objects.length := h.core.next
    rw [hid, Game.removeObjectBy_broadcast, hremove]
  have hstep₂ : RoomStep st₁ (.leaveRoom s) st₂ := ⟨trivial, _, hleave⟩
  obtain ⟨hgood₂, hremoves⟩ := (removeObject_spec speaks_post hgood₁).result hremove
  have hfound : st₁.game.findObject (key st.game.objects.length) = some st.game.objects.length := by
    unfold Scene.findObject
    rw [hmem]
  have hscene₂ : st₂.game.toScene =
      (st.game.toScene.enter s).drop .players st.game.objects.length (key st.game.objects.length) := by
    generalize hv : st₂.stage = v at hremoves
    cases hremoves with
    | missing hnone => cases hnone.symm.trans hfound
    | found hf ho ht =>
      obtain rfl := Option.some.inj (hf.symm.trans hfound)
      obtain rfl := Option.some.inj (ho.symm.trans hlast)
      obtain rfl := Option.some.inj (ht.symm.trans (show _ = some Roster.players from rfl))
      rw [← hscene₁]
      exact congrArg (fun v : Stage Outboxes => v.game) hv
  refine ⟨st₂, .cons hstep₁ (.single hstep₂), hgood₂, ?_, ?_, fun s' hs' => ?_⟩
  · rw [hscene₂]
    exact h.core.visited hb
  · rw [hscene₂, drop_length, enter_length]
  · rw [hscene₂]
    exact Function.update_of_ne hs' _ _

/-- Sessions that enter and leave, one after the other, from `k` on. -/
def comings (k n : ℕ) : List RoomOp := (List.range n).flatMap fun i => [.enterRoom (k + i), .leaveRoom (k + i)]

/-- **Sessions that come and go** use up the ids. -/
theorem comings_run (h : Good Anyone st []) (hfresh : ∀ s, k ≤ s → (st.game.gameSessions s).player = none)
    (hsize : ∀ objects, st.game.Snapshot objects → (Msg.addObject objects).serialize.length < 65532)
    (hb : st.game.objects.length + n ≤ 2 ^ 64) :
    ∃ st', Runs RoomStep st (comings k n) st' ∧ Good Anyone st' [] ∧ Alike st.game.toScene st'.game.toScene ∧
      st'.game.objects.length = st.game.objects.length + n ∧
      ∀ s, k + n ≤ s → (st'.game.gameSessions s).player = none := by
  induction n with
  | zero => exact ⟨st, .nil, h, .refl, rfl, hfresh⟩
  | succ n ih =>
    obtain ⟨st₁, hruns, hgood, halike, hlen, hfresh₁⟩ := ih (by omega)
    have hsize₁ : ∀ objects, st₁.game.Snapshot objects → (Msg.addObject objects).serialize.length < 65532 :=
      fun objects hsnap => hsize objects (halike.snapshot h.core hsnap)
    obtain ⟨st₂, hruns₂, hgood₂, halike₂, hlen₂, hother⟩ :=
      session_visits hgood (hfresh₁ (k + n) (Nat.le_refl _)) hsize₁ (by omega)
    refine ⟨st₂, ?_, hgood₂, halike.trans halike₂, by omega, fun s hs => ?_⟩
    · unfold comings
      rw [List.range_succ, List.flatMap_append, List.flatMap_singleton]
      exact hruns.append hruns₂
    · rw [hother s (Nat.ne_of_gt (Nat.lt_of_lt_of_le (Nat.lt_succ_self _) hs))]
      exact hfresh₁ s (Nat.le_of_succ_le hs)

/-! ## The room after `2 ^ 64` objects -/

/-- The records of a few objects fit into one packet. -/
theorem snapshot_small (hlen : st.game.players.size + st.game.monsters.size ≤ 100)
    (htail : ∀ (r : Ref) (o : GameObject), st.game.objects[r]? = some o → o.info.tail ≤ 64) (objects : List ObjectInfo)
    (hsnap : st.game.Snapshot objects) : (Msg.addObject objects).serialize.length < 65532 := by
  have hcount := congrArg List.length hsnap
  unfold elements at hcount
  simp only [List.length_map, List.length_append, TreeMap.length_toList] at hcount
  have hbound := addObject_length objects (n := 64) fun info hmem => by
    have hmem : some info ∈ objects.map some := List.mem_map_of_mem hmem
    rw [← hsnap] at hmem
    obtain ⟨r, -, ho⟩ := List.mem_map.1 hmem
    obtain ⟨o, ho', ho⟩ := Option.map_eq_some_iff.1 ho
    rw [← ho]
    exact htail r o ho'
  have hle : objects.length * (240 + 64) ≤ 100 * (240 + 64) := Nat.mul_le_mul_right _ (hcount ▸ hlen)
  omega

/-- The room with one player, of the session 0. -/
def solo : Scene := roomStart.game.toScene.enter 0

theorem solo_run : ∃ st, Runs RoomStep roomStart [.enterRoom 0] st ∧ Good Anyone st [] ∧ st.game.toScene = solo := by
  have hsize : ∀ objects, roomStart.game.Snapshot objects → (Msg.addObject objects).serialize.length < 65532 :=
    snapshot_small (by decide) fun r o ho => by simp [roomStart] at ho
  obtain ⟨st, hst⟩ := enterRoom_returns good_start rfl hsize (Nat.lt_succ_self _)
  have hstep : RoomStep roomStart (.enterRoom 0) st := ⟨rfl, _, hst⟩
  obtain ⟨hgood, hact⟩ := (enterRoom_spec speaks_post (tells_post 0) good_start trivial rfl).result hst
  refine ⟨st, .single hstep, hgood, ?_⟩
  generalize hv : st.stage = v at hact
  cases hact with
  | enter => exact congrArg (fun v : Stage Outboxes => v.game) hv

theorem solo_objects (ho : solo.objects[r]? = some o) : r = 0 ∧ o = roomStart.game.toScene.newPlayer 0 := by
  rcases objects_last ho with ho | ⟨rfl, rfl⟩
  · simp [roomStart] at ho
  · exact ⟨rfl, rfl⟩

/-- A room like that collects small records. -/
theorem Alike.small (h : Alike solo sc) (objects : List ObjectInfo) (hsnap : sc.Snapshot objects) :
    (Msg.addObject objects).serialize.length < 65532 := by
  obtain ⟨st, -, hgood, hsolo⟩ := solo_run
  have halike : Alike st.stage.game sc := by
    rw [← hsolo] at h
    exact h
  refine snapshot_small ?_ (fun r o ho => ?_) objects (halike.snapshot hgood.core hsnap)
  · rw [hsolo]
    decide
  · rw [hsolo] at ho
    obtain ⟨-, rfl⟩ := solo_objects ho
    exact Nat.zero_le _

/-- The room of the session 0, when all ids have been given out. -/
theorem full_run : ∃ st, Runs RoomStep roomStart (.enterRoom 0 :: comings 1 (2 ^ 64 - 1)) st ∧ Good Anyone st [] ∧
    Alike solo st.game.toScene ∧ st.game.objects.length = 2 ^ 64 ∧
    ∀ s, 2 ^ 64 ≤ s → (st.game.gameSessions s).player = none := by
  obtain ⟨st₀, hrun₀, hgood₀, hsolo⟩ := solo_run
  have hlen : st₀.game.objects.length = 1 := by
    rw [hsolo]
    rfl
  have hfresh : ∀ s, 1 ≤ s → (st₀.game.gameSessions s).player = none := by
    intro s hs
    rw [hsolo]
    unfold solo Scene.enter
    dsimp only
    rw [Function.update_of_ne (Nat.ne_of_gt hs)]
    trivial
  have hall : 1 + (2 ^ 64 - 1) = 2 ^ 64 := rfl
  have hb : st₀.game.objects.length + (2 ^ 64 - 1) = 2 ^ 64 := hlen.symm ▸ hall
  obtain ⟨st, hrun, hgood, halike, hlen', hfresh'⟩ := comings_run hgood₀ hfresh
    (hsolo ▸ Alike.refl : Alike solo st₀.game.toScene).small (Nat.le_of_eq hb)
  refine ⟨st, .cons hrun₀.of_single hrun, hgood, hsolo ▸ halike, hlen'.trans hb, fun s hs => hfresh' s ?_⟩
  rw [hall]
  exact hs

/-- The next object gets the id of the first one. -/
theorem key_full : key (2 ^ 64) = key 0 := by decide

/-- Another session enters. -/
theorem crowded_run : ∃ st st', Runs RoomStep roomStart (.enterRoom 0 :: comings 1 (2 ^ 64 - 1) ++ [.enterRoom (2 ^ 64)]) st' ∧
    Good Anyone st [] ∧ Alike solo st.game.toScene ∧ st.game.objects.length = 2 ^ 64 ∧
    Good Anyone st' [] ∧ Act Told Whisper st.stage (.enter (2 ^ 64)) st'.stage := by
  obtain ⟨st, hrun, hgood, halike, hlen, hfresh⟩ := full_run
  have hfresh := hfresh (2 ^ 64) (Nat.le_refl _)
  obtain ⟨st', hst'⟩ := enterRoom_returns hgood hfresh halike.small
    (Nat.lt_succ_self _)
  have hstep : RoomStep st (.enterRoom (2 ^ 64)) st' := ⟨hfresh, _, hst'⟩
  obtain ⟨hgood', hact⟩ := (enterRoom_spec speaks_post (tells_post (2 ^ 64)) hgood trivial hfresh).result hst'
  exact ⟨st, st', hrun.snoc hstep, hgood, halike, hlen, hgood', hact⟩

/-- **Two objects have one id.** -/
theorem represents_wraps : ∃ st, Runs RoomStep roomStart
    (.enterRoom 0 :: comings 1 (2 ^ 64 - 1) ++ [.enterRoom (2 ^ 64)]) st ∧ ¬ st.game.Represents := by
  obtain ⟨st, st', hrun, hgood, halike, hlen, hgood', hact⟩ := crowded_run
  have hlen' : st'.game.objects.length = 2 ^ 64 + 1 := by
    have := hact.length
    rw [show st.stage.game.objects.length = 2 ^ 64 from hlen] at this
    exact this
  have hfirst : 0 < st'.game.objects.length := by omega
  have hlast : 2 ^ 64 < st'.game.objects.length := by omega
  refine ⟨st', hrun, fun h => ?_⟩
  have ho := List.getElem?_eq_getElem hfirst
  have ho' := List.getElem?_eq_getElem hlast
  have hsame := h.unique 0 (2 ^ 64) _ _ ho ho' (by rw [h.ids _ _ ho, h.ids _ _ ho']; exact key_full.symm)
  exact absurd hsame (by decide)

/-- Whatever was added is known. -/
theorem Feed.added {objects : List ObjectInfo} {f f' : Feed} (h : f.step (.addObject objects) = some f') :
    (∀ id ∈ f.known, id ∈ f'.known) ∧ ∀ info ∈ objects, info.objectid ∈ f'.known := by
  unfold Feed.step at h
  dsimp only at h
  induction objects generalizing f with
  | nil =>
    cases h
    exact ⟨fun _ h => h, List.forall_mem_nil _⟩
  | cons info objects ih =>
    rw [List.foldlM_cons] at h
    obtain ⟨f₁, h₁, h⟩ := Option.bind_eq_some_iff.1 h
    obtain ⟨hknown, hadded⟩ := ih h
    unfold Feed.add at h₁
    split at h₁
    · cases h₁
    · cases h₁
      refine ⟨fun x hx => hknown x (Finset.mem_insert_of_mem hx), fun x hx => ?_⟩
      rcases List.mem_cons.1 hx with rfl | hx
      · exact hknown _ (Finset.mem_insert_self _ _)
      · exact hadded x hx

/-- A known id is not added. -/
theorem Feed.add_known {f : Feed} {info : ObjectInfo} (h : info.objectid ∈ f.known) : f.step (.addObject [info]) = none := by
  have hadd : f.add info.objectid = none := if_pos (.inl h)
  unfold Feed.step
  dsimp only
  rw [List.foldlM_cons, hadd]
  rfl

/-- An id that is in the snapshot, and that of the own player. -/
theorem Feed.twice {old : List Msg} {objects : List ObjectInfo} {first new : ObjectInfo} (hmem : first ∈ objects)
    (hid : new.objectid = first.objectid) :
    Feed.replay (old ++ [.myPlayer new, .addObject objects, .addObject [new]]) = none := by
  rw [Feed.replay_append]
  cases Feed.replay old with
  | none => rfl
  | some f =>
    rw [Option.bind_some, List.foldlM_cons]
    cases f.step (.myPlayer new) with
    | none => rfl
    | some f₁ =>
      cases hsnapshot : f₁.step (.addObject objects) with
      | none => simp [hsnapshot]
      | some f₂ =>
        have hknown : new.objectid ∈ f₂.known := hid ▸ (Feed.added hsnapshot).2 _ hmem
        simp [hsnapshot, Feed.add_known hknown]

/-- **A session is told of one id twice**: of the player that had it, and of its own. -/
theorem clients_wrap : ∃ st, Runs RoomStep roomStart
    (.enterRoom 0 :: comings 1 (2 ^ 64 - 1) ++ [.enterRoom (2 ^ 64)]) st ∧
    st.game.Hosts (2 ^ 64) ∧ Feed.replay (st.net (2 ^ 64)) = none := by
  obtain ⟨st, st', hrun, hgood, halike, hlen, hgood', hact⟩ := crowded_run
  refine ⟨st', hrun, ?_⟩
  generalize hv : st'.stage = v at hact
  cases hact with
  | enter hfresh h₁ hsnap h₂ hB =>
    rename_i objects net₁ net₂ net₃
    have hscene : st'.game.toScene = st.game.toScene.enter (2 ^ 64) := congrArg (fun v : Stage Outboxes => v.game) hv
    have hnet : st'.net = net₃ := congrArg (fun v : Stage Outboxes => v.net) hv
    have hnext : st.game.idGenerator = key st.game.objects.length := hgood.core.next
    refine ⟨⟨key (2 ^ 64), 2 ^ 64, st.game.toScene.newPlayer (2 ^ 64), ?_, ?_, rfl⟩, ?_⟩
    · rw [hscene]
      change (st.game.players.insert st.game.idGenerator st.game.objects.length)[_]? = _
      rw [hnext, hlen, TreeMap.getElem?_insert_self]
    · rw [hscene]
      change (st.game.objects ++ [_])[_]? = _
      rw [← hlen]
      exact List.getElem?_concat_length
    · rw [hnet, (hB _).1 hgood.core.enter_self, h₂, h₁]
      simp only [Function.update_self, List.append_assoc, List.cons_append, List.nil_append]
      -- the record of the player 0 is in the snapshot
      have ho : st.game.objects[0]? = some (roomStart.game.toScene.newPlayer 0) := halike.objects _ _ rfl
      have hmem : (roomStart.game.toScene.newPlayer 0).info ∈ objects := by
        have hfirst : (0 : Ref) ∈ elements st.game.players ++ elements st.game.monsters := by
          rw [List.mem_append, mem_elements]
          exact .inl ⟨key 0, (halike.players _).trans rfl⟩
        have hmem := List.mem_map_of_mem (f := fun r => (st.game.objects[r]?).map (·.info)) hfirst
        have hsnap : List.map (fun r => (st.game.objects[r]?).map (·.info))
          (elements st.game.players ++ elements st.game.monsters) = objects.map some := hsnap
        rw [ho, hsnap] at hmem
        obtain ⟨info, hmem, heq⟩ := List.mem_map.1 hmem
        obtain rfl : info = (roomStart.game.toScene.newPlayer 0).info := Option.some.inj heq
        exact hmem
      have hid : (st.game.toScene.newPlayer (2 ^ 64)).info.objectid = key 0 := by
        rw [← key_full, ← hlen]
        exact hnext
      exact Feed.twice hmem hid

end ZeldaServer
