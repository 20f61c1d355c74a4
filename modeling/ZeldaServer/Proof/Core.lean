import ZeldaServer.Proof.Stage

/-!
# What every change of a scene keeps

`Core` says how the maps, the objects and the weak pointers fit together. It holds
between the acts and within them, and does not depend on ids being unique. `W` is a
property of the sessions of all players in the room.

* `Core.modify`, `Core.drop`, `Core.append`, `Core.insert`: the ways a scene changes.
-/

namespace ZeldaServer

open Lib Std

variable {ν : Type} {W : SessionId → ν → Prop}

/-- The type of an object is that of its class. -/
def GameObject.Typed (o : GameObject) : Prop :=
  match o.kind with
  | .player _ => o.info.objecttype = .player
  | .monster _ => o.info.objecttype = .monster

/-- `o` is the player of `session`. -/
structure GameObject.Plays (o : GameObject) (session : SessionId) : Prop where
  type : o.info.objecttype = .player
  kind : o.kind = .player (some session)

variable (W) in
/-- How the maps, the objects and the weak pointers fit together. -/
structure Core (v : Stage ν) : Prop where
  next : v.game.idGenerator = key v.game.objects.length
  id : ∀ (r : Ref) (o : GameObject), v.game.objects[r]? = some o → o.info.objectid = key r
  typed : ∀ (r : Ref) (o : GameObject), v.game.objects[r]? = some o → o.Typed
  players : ∀ (k : UInt64) (r : Ref), v.game.players[k]? = some r → k = key r ∧
    ∃ (o : GameObject) (session : SessionId), v.game.objects[r]? = some o ∧ o.Plays session ∧ o.room = true ∧
      (v.game.gameSessions session).player = some r ∧ W session v.net
  monsters : ∀ (k : UInt64) (r : Ref), v.game.monsters[k]? = some r → k = key r ∧
    ∃ o : GameObject, v.game.objects[r]? = some o ∧ o.info.objecttype = .monster ∧ o.room = true
  target : ∀ (r : Ref) (o : GameObject) (m : Monster) (t : Ref), v.game.objects[r]? = some o →
    o.kind = .monster m → m.target = some t →
    ∃ o' : GameObject, v.game.objects[t]? = some o' ∧ o'.info.objecttype = .player
  weak : ∀ (session : SessionId) (r : Ref), (v.game.gameSessions session).player = some r →
    ∃ o : GameObject, v.game.objects[r]? = some o ∧ o.Plays session

variable {v : Stage ν} {r : Ref} {o : GameObject} {id : UInt64}

theorem Core.net {net' : ν} (h : Core W v) (hW : ∀ s, W s v.net → W s net') :
    Core W { v with net := net' } := by
  refine ⟨h.next, h.id, h.typed, ?_, h.monsters, h.target, h.weak⟩
  intro k r hk
  obtain ⟨hkey, o, s, ho, hs, hroom, hweak, hw⟩ := h.players k r hk
  exact ⟨hkey, o, s, ho, hs, hroom, hweak, hW s hw⟩

/-- The object that an id is found for is in the map of its type. -/
theorem Core.found (h : Core W v) (hf : v.game.findObject id = some r) :
    id = key r ∧ ∃ (o : GameObject) (which : Roster), v.game.objects[r]? = some o ∧ o.info.objecttype.roster = some which ∧
      (v.game.roster which)[id]? = some r := by
  unfold Scene.findObject at hf
  split at hf
  · rename_i r' hp
    cases hf
    obtain ⟨hkey, o, s, ho, hs, -⟩ := h.players id r hp
    exact ⟨hkey, o, .players, ho, by rw [hs.type]; rfl, hp⟩
  · obtain ⟨hkey, o, ho, hm, -⟩ := h.monsters id r hf
    exact ⟨hkey, o, .monsters, ho, by rw [hm]; rfl, hf⟩

theorem Core.found_inside (h : Core W v) (hf : v.game.findObject id = some r) : v.game.Inside r := by
  obtain ⟨rfl, o, which, -, -, hmem⟩ := h.found hf
  cases which with
  | players => exact .inl hmem
  | monsters => exact .inr hmem

/-- An object in the room points to the room. -/
theorem Core.inside_room (h : Core W v) (hin : v.game.Inside r) :
    ∃ o : GameObject, v.game.objects[r]? = some o ∧ o.room = true := by
  rcases hin with hp | hm
  · obtain ⟨-, o, s, ho, -, hroom, -⟩ := h.players _ r hp
    exact ⟨o, ho, hroom⟩
  · obtain ⟨-, o, ho, -, hroom⟩ := h.monsters _ r hm
    exact ⟨o, ho, hroom⟩

theorem Core.room_of (h : Core W v) (hin : v.game.Inside r) (ho : v.game.objects[r]? = some o) : o.room = true := by
  obtain ⟨o', ho', hroom⟩ := h.inside_room hin
  rw [ho] at ho'
  rw [Option.some.inj ho']
  exact hroom

/-- An object of the type of `which` is in that map or not in the room. -/
theorem Core.inside_roster (h : Core W v) (ho : v.game.objects[r]? = some o) {which : Roster}
    (ht : o.info.objecttype.roster = some which) :
    v.game.Inside r ↔ (v.game.roster which)[key r]? = some r := by
  constructor
  · rintro (hp | hm)
    · obtain ⟨-, o', s, ho', hs, -⟩ := h.players _ r hp
      rw [ho] at ho'
      cases ho'
      rw [hs.type] at ht
      cases ht
      exact hp
    · obtain ⟨-, o', ho', hm', -⟩ := h.monsters _ r hm
      rw [ho] at ho'
      cases ho'
      rw [hm'] at ht
      cases ht
      exact hm
  · intro hmem
    cases which with
    | players => exact .inl hmem
    | monsters => exact .inr hmem

/-! ## Changes of an object -/

@[simp] theorem modify_players {sc : Scene} (r : Ref) (f : GameObject → GameObject) :
    (sc.modify r f).players = sc.players := rfl

@[simp] theorem modify_monsters {sc : Scene} (r : Ref) (f : GameObject → GameObject) :
    (sc.modify r f).monsters = sc.monsters := rfl

@[simp] theorem modify_gameSessions {sc : Scene} (r : Ref) (f : GameObject → GameObject) :
    (sc.modify r f).gameSessions = sc.gameSessions := rfl

@[simp] theorem modify_length {sc : Scene} (r : Ref) (f : GameObject → GameObject) :
    (sc.modify r f).objects.length = sc.objects.length := by
  simp [Scene.modify]

theorem modify_self {sc : Scene} {f : GameObject → GameObject} (h : sc.objects[r]? = some o) :
    (sc.modify r f).objects[r]? = some (f o) := by
  simp [Scene.modify, h]

theorem modify_ne {sc : Scene} {f : GameObject → GameObject} {r' : Ref} (h : r' ≠ r) :
    (sc.modify r f).objects[r']? = sc.objects[r']? := by
  simp [Scene.modify, h.symm]

/-- An object of the changed scene is the object of the scene, or that object changed. -/
theorem of_modify {sc : Scene} {f : GameObject → GameObject} {r' : Ref} {o' : GameObject}
    (h : (sc.modify r f).objects[r']? = some o') :
    (r' = r ∧ ∃ o, sc.objects[r]? = some o ∧ o' = f o) ∨ (r' ≠ r ∧ sc.objects[r']? = some o') := by
  by_cases hr : r' = r
  · left
    subst hr
    cases ho : sc.objects[r']? with
    | none => simp [Scene.modify, ho] at h
    | some o =>
      rw [modify_self ho] at h
      exact ⟨rfl, o, rfl, (Option.some.inj h).symm⟩
  · right
    rw [modify_ne hr] at h
    exact ⟨hr, h⟩

/-- A change of an object that keeps its place in the game. -/
structure Mild (sc : Scene) (o o' : GameObject) : Prop where
  id : o'.info.objectid = o.info.objectid
  type : o'.info.objecttype = o.info.objecttype
  player : ∀ session, o.kind = .player session → o'.kind = .player session
  monster : ∀ m, o.kind = .monster m → ∃ m', o'.kind = .monster m' ∧
    (m'.target = m.target ∨ m'.target = none ∨ ∃ (k : UInt64) (t : Ref), sc.players[k]? = some t ∧ m'.target = some t)

theorem Mild.of_kind {sc : Scene} {o' : GameObject} (h1 : o'.info.objectid = o.info.objectid)
    (h2 : o'.info.objecttype = o.info.objecttype) (h3 : o'.kind = o.kind) : Mild sc o o' :=
  ⟨h1, h2, fun _ h => h3.trans h, fun m h => ⟨m, h3.trans h, .inl rfl⟩⟩

theorem Musing.mild {sc : Scene} {f : GameObject → GameObject} (h : Musing sc f) (o : GameObject) :
    Mild sc o (f o) := by
  obtain ⟨st, hst⟩ := h.info o
  exact ⟨by rw [hst], by rw [hst], h.player o, h.monster o⟩

/-- An object that was found is found again, changed mildly. -/
theorem mild_at {sc : Scene} {f : GameObject → GameObject}
    (hf : ∀ o, sc.objects[r]? = some o → Mild sc o (f o)) {r' : Ref} {o' : GameObject}
    (h : sc.objects[r']? = some o') :
    ∃ o'', (sc.modify r f).objects[r']? = some o'' ∧ (o'' = o' ∨ Mild sc o' o'') := by
  by_cases hr : r' = r
  · subst hr
    exact ⟨f o', modify_self h, .inr (hf o' h)⟩
  · exact ⟨o', by rw [modify_ne hr, h], .inl rfl⟩

theorem GameObject.Plays.mild {sc : Scene} {o' : GameObject} {session : SessionId} (h : o.Plays session)
    (hm : o' = o ∨ Mild sc o o') : o'.Plays session := by
  rcases hm with rfl | hm
  · exact h
  · exact ⟨hm.type.trans h.type, hm.player _ h.kind⟩

theorem Mild.typed {sc : Scene} {o' : GameObject} (hm : Mild sc o o') (h : o.Typed) : o'.Typed := by
  unfold GameObject.Typed at h ⊢
  cases hk : o.kind with
  | player s =>
    rw [hk] at h
    rw [hm.player s hk]
    exact hm.type.trans h
  | monster m =>
    rw [hk] at h
    obtain ⟨m', hk', -⟩ := hm.monster m hk
    rw [hk']
    exact hm.type.trans h

/-- **A mild change of one object**, which stays in the room if it is in a map. -/
theorem Core.modify (h : Core W v) {f : GameObject → GameObject}
    (hf : ∀ o, v.game.objects[r]? = some o → Mild v.game o (f o))
    (hroom : v.game.Inside r → ∀ o, o.room = true → (f o).room = true) :
    Core W { v with game := v.game.modify r f } := by
  have hstay : ∀ r' o, v.game.Inside r' → v.game.objects[r']? = some o → o.room = true →
      ∃ o', (v.game.modify r f).objects[r']? = some o' ∧ (o' = o ∨ Mild v.game o o') ∧ o'.room = true := by
    intro r' o hin ho hr
    by_cases hrr : r' = r
    · subst hrr
      exact ⟨f o, modify_self ho, .inr (hf o ho), hroom hin o hr⟩
    · exact ⟨o, by rw [modify_ne hrr, ho], .inl rfl, hr⟩
  refine ⟨?_, ?_, ?_, ?_, ?_, ?_, ?_⟩
  · simpa [Scene.modify] using h.next
  · intro r' o' ho'
    rcases of_modify ho' with ⟨rfl, o, ho, rfl⟩ | ⟨-, ho⟩
    · rw [(hf o ho).id, h.id _ o ho]
    · exact h.id r' o' ho
  · intro r' o' ho'
    rcases of_modify ho' with ⟨rfl, o, ho, rfl⟩ | ⟨-, ho⟩
    · exact (hf o ho).typed (h.typed _ o ho)
    · exact h.typed r' o' ho
  · intro k r' hk
    obtain ⟨hkey, o, s, ho, hs, hr, hweak, hw⟩ := h.players k r' hk
    obtain ⟨o', ho', hm, hr'⟩ := hstay r' o (.inl (hkey ▸ hk)) ho hr
    exact ⟨hkey, o', s, ho', hs.mild hm, hr', hweak, hw⟩
  · intro k r' hk
    obtain ⟨hkey, o, ho, ht, hr⟩ := h.monsters k r' hk
    obtain ⟨o', ho', hm, hr'⟩ := hstay r' o (.inr (hkey ▸ hk)) ho hr
    refine ⟨hkey, o', ho', ?_, hr'⟩
    rcases hm with rfl | hm
    · exact ht
    · exact hm.type.trans ht
  · intro r' o' m' t ho' hk' ht
    -- the target is the old one, or a player in the room
    have htarget : ∃ o₁ : GameObject, v.game.objects[t]? = some o₁ ∧ o₁.info.objecttype = .player := by
      rcases of_modify ho' with ⟨rfl, o, ho, rfl⟩ | ⟨-, ho⟩
      · have hm := hf o ho
        cases hk : o.kind with
        | player s => rw [hm.player s hk] at hk'; cases hk'
        | monster m =>
          obtain ⟨m'', hk'', hcase⟩ := hm.monster m hk
          rw [hk''] at hk'
          cases hk'
          rcases hcase with hsame | hnone | ⟨k, t', hp, hsome⟩
          · exact h.target _ o m t ho hk (hsame ▸ ht)
          · rw [hnone] at ht; cases ht
          · rw [hsome] at ht
            cases ht
            obtain ⟨-, o₁, s, ho₁, hs, -⟩ := h.players k t hp
            exact ⟨o₁, ho₁, hs.type⟩
      · exact h.target r' o' m' t ho hk' ht
    obtain ⟨o₁, ho₁, ht₁⟩ := htarget
    obtain ⟨o₂, ho₂, hm⟩ := mild_at hf ho₁
    refine ⟨o₂, ho₂, ?_⟩
    rcases hm with rfl | hm
    · exact ht₁
    · exact hm.type.trans ht₁
  · intro s r' hs
    obtain ⟨o, ho, hplays⟩ := h.weak s r' hs
    obtain ⟨o', ho', hm⟩ := mild_at hf ho
    exact ⟨o', ho', hplays.mild hm⟩

theorem Core.modifyInfo (h : Core W v) {f : ObjectInfo → ObjectInfo}
    (h1 : ∀ info, (f info).objectid = info.objectid) (h2 : ∀ info, (f info).objecttype = info.objecttype) :
    Core W { v with game := v.game.modifyInfo r f } :=
  h.modify (fun _ _ => .of_kind (h1 _) (h2 _) rfl) fun _ _ hr => hr

theorem Core.muse (h : Core W v) {f : GameObject → GameObject} (hf : Musing v.game f) :
    Core W { v with game := v.game.modify r f } :=
  h.modify (fun o _ => hf.mild o) fun _ o hr => by rw [hf.room, hr]

/-! ## Leaving and entering -/

theorem Core.roster_key (h : Core W v) {which : Roster} (h1 : (v.game.roster which)[id]? = some r) :
    id = key r := by
  cases which with
  | players => exact (h.players id r h1).1
  | monsters => exact (h.monsters id r h1).1

/-- The maps may lose elements, and the players of the rest may have another property. -/
theorem Core.shrink {W' : SessionId → ν → Prop} (h : Core W v) {players monsters : TreeMap UInt64 Ref}
    (hp : ∀ (k : UInt64) (r : Ref), players[k]? = some r → v.game.players[k]? = some r ∧
      ∀ s, (v.game.gameSessions s).player = some r → W s v.net → W' s v.net)
    (hm : ∀ (k : UInt64) (r : Ref), monsters[k]? = some r → v.game.monsters[k]? = some r) :
    Core W' { v with game := { v.game with players := players, monsters := monsters } } := by
  refine ⟨h.next, h.id, h.typed, fun k r hk => ?_, fun k r hk => h.monsters k r (hm k r hk), h.target, h.weak⟩
  obtain ⟨hk', hw'⟩ := hp k r hk
  obtain ⟨hkey, o, s, ho, hs, hr, hweak, hw⟩ := h.players k r hk'
  exact ⟨hkey, o, s, ho, hs, hr, hweak, hw' s hweak hw⟩

/-- **An object leaves the room.** -/
theorem Core.drop (h : Core W v) {which : Roster} (hmem : (v.game.roster which)[id]? = some r)
    (ho : v.game.objects[r]? = some o) (ht : o.info.objecttype.roster = some which) :
    Core W { v with game := v.game.drop which r id } := by
  have hid : id = key r := h.roster_key hmem
  have herase : Core W { v with game := v.game.setRoster which ((v.game.roster which).erase id) } := by
    cases which with
    | players =>
      refine h.shrink (fun k r' hk => ⟨?_, fun _ _ hw => hw⟩) fun _ _ hk => hk
      rw [Scene.roster, TreeMap.getElem?_erase] at hk
      split at hk
      · cases hk
      · exact hk
    | monsters =>
      refine h.shrink (fun k r' hk => ⟨hk, fun _ _ hw => hw⟩) fun k r' hk => ?_
      rw [Scene.roster, TreeMap.getElem?_erase] at hk
      split at hk
      · cases hk
      · exact hk
  refine herase.modify (fun _ _ => .of_kind rfl rfl rfl) fun hin => ?_
  -- it is in no map any more
  exfalso
  have ho' : ({ v with game := v.game.setRoster which ((v.game.roster which).erase id) } : Stage ν).game.objects[r]? =
      some o := by cases which <;> exact ho
  have hmem' := (herase.inside_roster ho' ht).1 hin
  cases which with
  | players => simp [Scene.setRoster, Scene.roster, hid] at hmem'
  | monsters => simp [Scene.setRoster, Scene.roster, hid] at hmem'

/-- A new object, not yet in the room; a player is the one of a session that had none. -/
def Scene.append (sc : Scene) (o : GameObject) (sessions : SessionId → GameSession) : Scene :=
  { sc with objects := sc.objects ++ [o], idGenerator := sc.idGenerator + 1, gameSessions := sessions }

theorem key_succ (r : Ref) : key r + 1 = key (r + 1) := by
  unfold key
  rw [UInt64.ofNat_add (r + 1) 1]
  rfl

/-- An object of the longer list is the new one or was there before. -/
theorem objects_last {a : GameObject} {l : List GameObject} (ho : (l ++ [a])[r]? = some o) :
    l[r]? = some o ∨ (r = l.length ∧ o = a) := by
  rw [List.getElem?_append] at ho
  split at ho
  · exact .inl ho
  · rename_i hlt
    right
    have hlen : r - l.length = 0 := by
      by_contra hne
      rw [List.getElem?_singleton, if_neg hne] at ho
      cases ho
    rw [hlen] at ho
    exact ⟨Nat.le_antisymm (Nat.sub_eq_zero_iff_le.1 hlen) (Nat.not_lt.1 hlt), (Option.some.inj ho).symm⟩

/-- **An object is created.** -/
theorem Core.append (h : Core W v) (hid : o.info.objectid = v.game.idGenerator) (ht : o.Typed)
    (hm : ∀ m, o.kind = .monster m → m.target = none) {sessions : SessionId → GameSession}
    (hs : ∀ s r, (sessions s).player = some r → (v.game.gameSessions s).player = some r ∨
      (r = v.game.objects.length ∧ o.Plays s))
    (hs' : ∀ s r, (v.game.gameSessions s).player = some r → (sessions s).player = some r) :
    Core W { v with game := v.game.append o sessions } := by
  have hold : ∀ {r : Ref} {o' : GameObject}, v.game.objects[r]? = some o' →
      (v.game.append o sessions).objects[r]? = some o' := by
    intro r o' ho'
    exact List.getElem?_append_left (List.getElem?_eq_some_iff.1 ho').1 |>.trans ho'
  have hnew : ∀ {r : Ref} {o' : GameObject}, (v.game.append o sessions).objects[r]? = some o' →
      v.game.objects[r]? = some o' ∨ (r = v.game.objects.length ∧ o' = o) := by
    intro r o' ho'
    exact objects_last ho'
  refine ⟨?_, ?_, ?_, ?_, ?_, ?_, ?_⟩
  · simp only [Scene.append, List.length_append, List.length_singleton, h.next, key_succ]
  · intro r o' ho'
    rcases hnew ho' with ho' | ⟨rfl, rfl⟩
    · exact h.id r o' ho'
    · rw [hid, h.next]
  · intro r o' ho'
    rcases hnew ho' with ho' | ⟨rfl, rfl⟩
    · exact h.typed r o' ho'
    · exact ht
  · intro k r hk
    obtain ⟨hkey, o', s, ho', hp, hr, hweak, hw⟩ := h.players k r hk
    exact ⟨hkey, o', s, hold ho', hp, hr, hs' s r hweak, hw⟩
  · intro k r hk
    obtain ⟨hkey, o', ho', hrest⟩ := h.monsters k r hk
    exact ⟨hkey, o', hold ho', hrest⟩
  · intro r o' m t ho' hk hm'
    rcases hnew ho' with ho' | ⟨rfl, rfl⟩
    · obtain ⟨o₁, ho₁, ht₁⟩ := h.target r o' m t ho' hk hm'
      exact ⟨o₁, hold ho₁, ht₁⟩
    · rw [hm m hk] at hm'
      cases hm'
  · intro s r hsr
    rcases hs s r hsr with hsr | ⟨rfl, hp⟩
    · obtain ⟨o', ho', hp⟩ := h.weak s r hsr
      exact ⟨o', hold ho', hp⟩
    · exact ⟨o, by simp [Scene.append], hp⟩

/-- **An object is put into its map.** -/
theorem Core.insert (h : Core W v) (which : Roster) (ho : v.game.objects[r]? = some o) (hroom : o.room = true)
    (ht : o.info.objecttype.roster = some which)
    (hp : which = .players → ∃ s, o.Plays s ∧ (v.game.gameSessions s).player = some r ∧ W s v.net) :
    Core W { v with game := v.game.setRoster which ((v.game.roster which).insert (key r) r) } := by
  cases which with
  | players =>
    obtain ⟨s, hplays, hweak, hw⟩ := hp rfl
    refine ⟨h.next, h.id, h.typed, fun k r' hk => ?_, h.monsters, h.target, h.weak⟩
    rw [Scene.setRoster, Scene.roster, TreeMap.getElem?_insert] at hk
    split at hk
    · rename_i hkey
      cases hk
      exact ⟨(Std.compare_eq_iff_eq.1 hkey).symm, o, s, ho, hplays, hroom, hweak, hw⟩
    · exact h.players k r' hk
  | monsters =>
    refine ⟨h.next, h.id, h.typed, h.players, fun k r' hk => ?_, h.target, h.weak⟩
    rw [Scene.setRoster, Scene.roster, TreeMap.getElem?_insert] at hk
    split at hk
    · rename_i hkey
      cases hk
      refine ⟨(Std.compare_eq_iff_eq.1 hkey).symm, o, ho, ?_, hroom⟩
      cases hty : o.info.objecttype <;> rw [hty] at ht <;> simp [ObjectType.roster] at ht ⊢
    · exact h.monsters k r' hk

end ZeldaServer
