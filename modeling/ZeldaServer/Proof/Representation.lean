import ZeldaServer.Proof.RoomRun

/-!
# The representation invariant of the room

In every state of a run that creates at most `2 ^ 64` objects, the maps, the objects,
the back pointers and the weak pointers agree (`room_represents`).
-/

namespace ZeldaServer

open Lib Std

variable {st st' : Game Outboxes} {ops : List RoomOp} {r : Ref} {o : GameObject}

/-- The representation invariant. -/
structure Room.Represents (room : Room) : Prop where
  players : ∀ (id : UInt64) (r : Ref), room.players[id]? = some r →
    ∃ o : GameObject, room.objects[r]? = some o ∧ o.info.objectid = id ∧ o.info.objecttype = .player
  monsters : ∀ (id : UInt64) (r : Ref), room.monsters[id]? = some r →
    ∃ o : GameObject, room.objects[r]? = some o ∧ o.info.objectid = id ∧ o.info.objecttype = .monster
  disjoint : ∀ id : UInt64, room.players[id]? = none ∨ room.monsters[id]? = none
  /-- every object ever created has the id that it was given, and no other object has it -/
  ids : ∀ (r : Ref) (o : GameObject), room.objects[r]? = some o → o.info.objectid = UInt64.ofNat (r + 1)
  unique : ∀ (r r' : Ref) (o o' : GameObject), room.objects[r]? = some o → room.objects[r']? = some o' →
    o.info.objectid = o'.info.objectid → r = r'
  /-- `room` points to the room in the objects of the maps, and is null in those that were removed -/
  back : ∀ (r : Ref) (o : GameObject), room.objects[r]? = some o → (o.room = true ↔ room.Contains r)
  session : ∀ (id : UInt64) (r : Ref), room.players[id]? = some r →
    ∃ (o : GameObject) (s : SessionId), room.objects[r]? = some o ∧ o.kind = .player (some s) ∧
      room.lock (room.gameSessions s).player = some r
  /-- what the weak pointers of the sessions resolve to -/
  player : ∀ (s : SessionId) (r : Ref), room.lock (room.gameSessions s).player = some r →
    ∃ id : UInt64, room.players[id]? = some r
  /-- what the weak pointers of the monsters resolve to -/
  target : ∀ (r : Ref) (o : GameObject) (m : Monster) (t : Ref), room.objects[r]? = some o → o.kind = .monster m →
    room.lock m.target = some t → ∃ id : UInt64, room.players[id]? = some t

theorem lock_some {room : Room} (hpos : 0 < room.useCount r) : room.lock (some r) = some r := by
  unfold Room.lock
  rw [Option.filter_some, if_pos (by simpa using hpos)]

/-- Whatever resolves to a player resolves to one in the room. -/
theorem Good.lock_player (h : Good Anyone st []) {p : Option Ref} (hl : st.game.lock p = some r)
    (ho : st.game.objects[r]? = some o) (ht : o.info.objecttype = .player) :
    ∃ id : UInt64, st.game.players[id]? = some r := by
  obtain ⟨-, hpos⟩ := lock_spec hl
  have hmem := (h.core.inside_roster ho (show _ = some Roster.players by rw [ht]; rfl)).1 (h.inside hpos)
  exact ⟨key r, hmem⟩

/-- **The representation invariant holds between the operations.** -/
theorem Sound.represents (hgood : Good Anyone st []) (h : Sound st.stage) (hb : st.game.objects.length ≤ 2 ^ 64) :
    st.game.Represents := by
  have hcore := hgood.core
  refine ⟨?_, ?_, ?_, hcore.id, ?_, ?_, ?_, ?_, ?_⟩
  · intro id r hk
    obtain ⟨hkey, o, s, ho, hplays, -⟩ := hcore.players id r hk
    exact ⟨o, ho, by rw [hcore.id r o ho, hkey], hplays.type⟩
  · intro id r hk
    obtain ⟨hkey, o, ho, ht, -⟩ := hcore.monsters id r hk
    exact ⟨o, ho, by rw [hcore.id r o ho, hkey], ht⟩
  · intro id
    cases hp : st.game.players[id]? with
    | none => exact .inl rfl
    | some r =>
      right
      cases hm : st.game.monsters[id]? with
      | none => rfl
      | some r' =>
        exfalso
        obtain ⟨hkey, o, s, ho, hplays, -⟩ := hcore.players id r hp
        obtain ⟨hkey', o', ho', ht', -⟩ := hcore.monsters id r' hm
        by_cases hne : r = r'
        · subst hne
          rw [ho] at ho'
          obtain rfl := Option.some.inj ho'
          rw [hplays.type] at ht'
          cases ht'
        · exact key_ne ho ho' hb hne (hkey.symm.trans hkey')
  · intro r r' o o' ho ho' hid
    rw [hcore.id r o ho, hcore.id r' o' ho'] at hid
    by_contra hne
    exact key_ne ho ho' hb hne hid
  · intro r o ho
    constructor
    · intro hroom
      rcases h.inside r o ho hroom with hin | hin
      · exact ⟨key r, .inl hin⟩
      · exact ⟨key r, .inr hin⟩
    · intro hin
      obtain ⟨id, hin | hin⟩ := hin
      · obtain ⟨-, o', s, ho', -, hroom, -⟩ := hcore.players id r hin
        rw [show st.stage.game.objects[r]? = some o from ho] at ho'
        obtain rfl := Option.some.inj ho'
        exact hroom
      · obtain ⟨-, o', ho', -, hroom⟩ := hcore.monsters id r hin
        rw [show st.stage.game.objects[r]? = some o from ho] at ho'
        obtain rfl := Option.some.inj ho'
        exact hroom
  · intro id r hk
    obtain ⟨hkey, o, s, ho, hplays, -, hweak, -⟩ := hcore.players id r hk
    refine ⟨o, s, ho, hplays.kind, ?_⟩
    rw [show (st.game.gameSessions s).player = some r from hweak]
    refine lock_some ?_
    have hheld : 0 < heldIn st.game.players r := heldIn_pos.2 (hkey ▸ hk)
    have hcount := hgood.counted r
    omega
  · intro s r hl
    obtain ⟨hp, -⟩ := lock_spec hl
    obtain ⟨o, ho, hplays⟩ := hcore.weak s r hp
    exact hgood.lock_player hl ho hplays.type
  · intro r o m t ho hk hl
    obtain ⟨ht, -⟩ := lock_spec hl
    obtain ⟨o', ho', htype⟩ := hcore.target r o m t ho hk ht
    exact hgood.lock_player hl ho' htype

theorem run_sound (h : Runs RoomStep roomStart ops st) (hb : ops.countP RoomOp.creates ≤ 2 ^ 64) :
    Sound st.stage := by
  have hreports : Runs (ReportStep fun _ _ _ => True) roomStart ops st :=
    h.mono fun _ _ _ hstep => ⟨hstep, fun _ _ _ _ _ _ => trivial⟩
  exact (run_invariant (P := fun _ => True) trivial (fun _ _ _ _ _ _ => trivial) hreports hb).1

/-- **The room is represented consistently** in every state of a run that creates at most
`2 ^ 64` objects. -/
theorem room_represents (h : Runs RoomStep roomStart ops st) (hb : ops.countP RoomOp.creates ≤ 2 ^ 64) :
    st.game.Represents := by
  obtain ⟨hgood, hlen⟩ := run_good h
  exact (run_sound h hb).represents hgood (by rw [hlen]; exact hb)

/-- A player kills the monster, another one leaves. -/
theorem room_represents_example : ∃ st, Runs RoomStep roomStart [.init {}, .enterRoom 0, .enterRoom 1,
    .handleCMove (swing 2), .handleCMove (swing 2), .leaveRoom 1] st ∧
    (st.game.players.size, st.game.monsters.size) = (1, 0) ∧ st.game.Represents := by
  have hrun : ([.init {}, .enterRoom 0, .enterRoom 1, .handleCMove (swing 2), .handleCMove (swing 2),
      .leaveRoom 1].foldlM roomExec roomStart).map (fun st => (st.game.players.size, st.game.monsters.size)) =
      some (1, 0) := by decide +kernel
  obtain ⟨st, hst, hsize⟩ := Option.map_eq_some_iff.1 hrun
  exact ⟨st, roomExec_runs hst, hsize, room_represents (roomExec_runs hst) (by decide)⟩

end ZeldaServer
