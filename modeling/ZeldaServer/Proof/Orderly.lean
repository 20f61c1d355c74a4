import ZeldaServer.Proof.Attendance
import ZeldaServer.Proof.Nested

/-!
# The server between two events

`Orderly` is what holds of the room and of the registries between any two turns of the main
loop, whatever the socket calls answer: also when a session is disconnected while it is
being welcomed, and its player enters the room afterwards.

* `disconnect_passed`, `send_passed`: what `Send` and `Disconnect` may do to a room.
* `run_orderly`: all runs.
-/

namespace ZeldaServer

open Lib Std

variable {net : Net} {st st' st'' : Server Room} {s : SessionId} {parse : List UInt8 → CMove} {fuel n : ℕ}
  {leaving : SessionId → Prop} {pins : List Ref} {r : Ref} {o : GameObject} {sc sc' sc'' : Scene}

/-- An object without its pointer to the room. -/
def GameObject.body (o : GameObject) : ObjectInfo × Kind := (o.info, o.kind)

/-- The objects are the same, up to their pointers to the room. -/
structure SameObjects (sc sc' : Scene) : Prop where
  gameSessions : sc'.gameSessions = sc.gameSessions
  objects : ∀ r : Ref, (sc'.objects[r]?).map GameObject.body = (sc.objects[r]?).map GameObject.body

theorem SameObjects.refl : SameObjects sc sc := ⟨rfl, fun _ => rfl⟩

theorem SameObjects.trans (h : SameObjects sc sc') (h' : SameObjects sc' sc'') : SameObjects sc sc'' :=
  ⟨h'.gameSessions.trans h.gameSessions, fun r => (h'.objects r).trans (h.objects r)⟩

theorem SameObjects.find (h : SameObjects sc sc') (ho : sc.objects[r]? = some o) :
    ∃ o', sc'.objects[r]? = some o' ∧ o'.info = o.info ∧ o'.kind = o.kind := by
  have hsame := h.objects r
  rw [ho, Option.map_some] at hsame
  obtain ⟨o', ho', heq⟩ := Option.map_eq_some_iff.1 hsame
  obtain ⟨hinfo, hkind⟩ := Prod.mk.inj heq
  exact ⟨o', ho', hinfo, hkind⟩

theorem drop_same {which : Roster} {id : UInt64} : SameObjects sc (sc.drop which r id) := by
  refine ⟨by cases which <;> rfl, fun x => ?_⟩
  have hset : (sc.setRoster which ((sc.roster which).erase id)).objects = sc.objects := by cases which <;> rfl
  unfold Scene.drop Scene.modify
  dsimp only
  rw [hset, List.getElem?_modify]
  cases sc.objects[x]? with
  | none => rfl
  | some o => by_cases hr : r = x <;> simp [hr, GameObject.body]

theorem Removes.same {ν : Type} {B : Scene → Msg → ν → ν → Prop} {v v' : Stage ν} {id : UInt64} (h : Removes B v id v') :
    SameObjects v.game v'.game := by
  cases h with
  | missing => exact .refl
  | found => exact drop_same

/-- What a call of `Send` or `Disconnect` does to a room in which local variables hold `pins`. -/
structure Passed (leaving : SessionId → Prop) (pins : List Ref) (st st' : Server Room) : Prop where
  good : Good Whoever st' pins
  registered : Registered st'.net leaving
  undisturbed : Undisturbed st.net st'.net
  same : SameObjects st.game.toScene st'.game.toScene

theorem Passed.trans (h : Passed leaving pins st st') (h' : Passed leaving pins st' st'') : Passed leaving pins st st'' :=
  ⟨h'.good, h'.registered, h.undisturbed.trans h'.undisturbed, h.same.trans h'.same⟩

theorem passed_neutral : Neutral (Passed leaving pins st) := by
  refine ⟨fun st₁ s g h1 h2 h => ?_, fun st₁ h => ?_⟩
  · exact ⟨h.good.resume rfl, h.registered.unchanged (.modify h1), h.undisturbed.trans (.modify h2), h.same⟩
  · refine ⟨h.good.resume (wsa_game st₁), h.registered.unchanged (.wsa st₁), h.undisturbed.trans (.wsa st₁), ?_⟩
    rw [wsa_game]
    exact h.same

/-- **`Disconnect`**, at every depth. -/
theorem disconnect_passed (h : Good Whoever st pins) (hreg : Registered st.net leaving) :
    IfReturns ((api (gameContent parse fuel) n).disconnect s st) (Passed leaving pins st) := by
  cases n with
  | zero => exact .error trivial
  | succ n =>
    have hpart : Good Whoever (Server.parting st s) pins := h.resume rfl
    have hkept : IfReturns (Session.disconnect (GameSession.onDisconnected (gameContent parse fuel) (api (gameContent parse fuel) n)) s st)
        fun st' => Registered st'.net leaving ∧ SameObjects st.game.toScene st'.game.toScene := by
      unfold Session.disconnect
      split
      · exact .ok ⟨hreg, .refl⟩
      rename_i hup
      have hup : (st.net.session s).connected = true := by simpa [Server.session] using hup
      have hreg₁ : Registered (Server.parting st s).net fun t => leaving t ∨ t = s := hreg.leave hup
      have hns : ¬ leaving s := fun hl => by simp [hreg.gone s hl] at hup
      refine (leaveRoom_spec (api_unchanged parse fuel n) hpart).bind fun st₂ h₂ => ?_
      obtain ⟨-, hremoves⟩ := h₂
      have hdone : Unchanged (Server.parting st s).net st₂.net ∧ SameObjects st.game.toScene st₂.game.toScene := by
        rcases hremoves with rfl | ⟨id, hremoves⟩
        · exact ⟨.refl, .refl⟩
        · exact ⟨hremoves.related fun _ => .refl, hremoves.same⟩
      have hrelease := (hreg₁.unchanged hdone.1).release hns
      unfold Service.releaseSession at hrelease ⊢
      split
      · rename_i hin
        rw [if_pos hin] at hrelease
        exact .ok ⟨(hrelease.result rfl).1, hdone.2⟩
      · exact .error trivial
    refine ((disconnect_spec parse fuel (api_speaks parse fuel n) h).and hkept).imp fun st' h' => ?_
    obtain ⟨⟨hgood, hu, -, -⟩, hreg', hsame⟩ := h'
    exact ⟨hgood, hreg', hu, hsame⟩

/-- **`Send`**, at every depth. -/
theorem send_passed (h : Good Whoever st pins) (hreg : Registered st.net leaving) (packet : Packet) :
    IfReturns ((api (gameContent parse fuel) n).send s packet st) (Passed leaving pins st) := by
  cases n with
  | zero => exact .error trivial
  | succ n =>
    refine Preserves.send passed_neutral (fun t st₁ h₁ => ?_) packet st ⟨h, hreg, .refl _, .refl⟩
    exact (disconnect_passed (n := n + 1) h₁.good h₁.registered).imp fun _ h₂ => h₁.trans h₂

/-! ## Between two events -/

/-- The records of the objects are short. -/
def Scene.Short (sc : Scene) : Prop := ∀ (r : Ref) (o : GameObject), sc.objects[r]? = some o → o.info.tail ≤ 64

/-- What is known between the turns of the main loop. -/
structure Orderly (st : Server Room) : Prop where
  good : Good Whoever st []
  registered : Registered st.net fun _ => False
  /-- only a session that has been connected has a player -/
  tied : ∀ s, (st.game.gameSessions s).player ≠ none → st.net.onConnected s ≠ 0
  short : st.game.toScene.Short

theorem Scene.Short.same (h : sc.Short) (hsame : SameObjects sc sc') : sc'.Short := by
  intro r o' ho'
  have heq := hsame.objects r
  rw [ho', Option.map_some] at heq
  obtain ⟨o, ho, hbody⟩ := Option.map_eq_some_iff.1 heq.symm
  rw [← (Prod.mk.inj hbody).1]
  exact h r o ho

/-- A change that keeps the name and the unknown fields of the records. -/
theorem Scene.Short.modify (h : sc.Short) {f : GameObject → GameObject} (hf : ∀ o, (f o).info.tail = o.info.tail) :
    (sc.modify r f).Short := by
  intro x o' ho'
  rcases of_modify ho' with ⟨rfl, o, ho, rfl⟩ | ⟨-, ho⟩
  · rw [hf]
    exact h _ o ho
  · exact h x o' ho

theorem Scene.Short.append (h : sc.Short) (ho : o.info.tail ≤ 64) (sessions : SessionId → GameSession) :
    (sc.append o sessions).Short := by
  intro x o' ho'
  rcases objects_last ho' with ho' | ⟨-, rfl⟩
  · exact h x o' ho'
  · exact ho

theorem Strikes.short {ν : Type} {B : Scene → Msg → ν → ν → Prop} {v v' : Stage ν} {attacker target : Ref} {info : ObjectInfo}
    (h : v.game.Short) (hs : Strikes B v attacker target info v') : v'.game.Short := by
  cases hs with
  | mk => exact h.modify fun _ => rfl

theorem Act.short {ν : Type} {B : Scene → Msg → ν → ν → Prop} {U : SessionId → Msg → ν → ν → Prop}
    {v v' : Stage ν} {a : Label}
    (h : v.game.Short) (hact : Act B U v a v') : v'.game.Short := by
  have hmuse : ∀ {sc : Scene} {r : Ref} {f : GameObject → GameObject}, sc.Short → Musing sc f → (sc.modify r f).Short := by
    intro sc r f hsc hf
    refine hsc.modify fun o => ?_
    obtain ⟨state, hinfo⟩ := hf.info o
    rw [hinfo]
    rfl
  cases hact with
  | enter => exact Scene.Short.append h (o := v.game.newPlayer _) (Nat.zero_le 64) fun _ => {}
  | spawn => exact Scene.Short.append h (o := v.game.newMonster) (show 13 ≤ 64 by decide) fun _ => {}
  | think hf => exact hmuse h hf
  | walk => exact h.modify fun _ => rfl
  | report => exact h.modify fun _ => rfl
  | hit hs _ => exact hs.short h
  | kill hs _ hf hr => exact (hmuse (hs.short h) hf).same hr.same
  | leave hr => exact h.same hr.same

/-! ## The functions of the room -/

/-- No session is connected, disconnected or registered. -/
structure Steady (net net' : Net) : Prop where
  unchanged : Unchanged net net'
  undisturbed : Undisturbed net net'

theorem Steady.refl (net : Net) : Steady net net := ⟨.refl, .refl _⟩

theorem Steady.trans (net net₁ net₂ : Net) (h : Steady net net₁) (h' : Steady net₁ net₂) : Steady net net₂ :=
  ⟨h.unchanged.trans h'.unchanged, h.undisturbed.trans h'.undisturbed⟩

variable (parse fuel n) in
/-- A broadcast that returns, at every depth. -/
theorem api_steady : Speaks (api (gameContent parse fuel) n).send Whoever fun _ _ => Steady := by
  refine ⟨fun fuel' packet st pins h => ?_, fun _ _ _ _ _ _ _ => .inr trivial⟩
  have hquiet := (api_speaks parse fuel n fun _ => True).broadcast fuel' packet st pins h
  refine (hquiet.and ((api_unchanged parse fuel n).broadcast fuel' packet st pins h)).imp fun st' h' => ?_
  obtain ⟨⟨hgame, hq⟩, -, hu⟩ := h'
  exact ⟨hgame, hu, hq.undisturbed⟩

/-- Acts of a function that gives no session a player. -/
theorem Orderly.does (h : Orderly st) (hgood : Good Whoever st' [])
    (hdoes : Does (fun _ _ => Steady) (fun _ _ => Steady) Label.Unentering (Game.stage st) (Game.stage st')) :
    Orderly st' ∧ Undisturbed st.net st'.net := by
  obtain ⟨hsteady, hsame⟩ := hdoes.related Steady.refl Steady.trans
  obtain ⟨acts, hruns, -⟩ := hdoes
  have hshort : (Game.stage st').game.Short :=
    Runs.invariant (P := fun v : Stage Net => v.game.Short) h.short (fun _ _ _ hv hact => Act.short hv hact) hruns
  refine ⟨⟨hgood, h.registered.unchanged hsteady.unchanged, ?_, hshort⟩, hsteady.undisturbed⟩
  have hcalls : st'.net.onConnected = st.net.onConnected := hsteady.undisturbed.onConnected
  rw [show st'.game.gameSessions = st.game.gameSessions from hsame, hcalls]
  exact h.tied

/-- A session that has just been connected enters the room, connected or not. -/
theorem enterRoom_orderly (h : Good Whoever st []) (hreg : Registered st.net fun _ => False) (hshort : st.game.toScene.Short)
    (hfresh : (st.game.gameSessions s).player = none) {fuel' : ℕ} :
    IfReturns (Game.enterRoom (api (gameContent parse fuel) n).send fuel' s st) fun st' =>
      Good Whoever st' [] ∧ Registered st'.net (fun _ => False) ∧ Undisturbed st.net st'.net ∧ st'.game.toScene.Short ∧
      ∀ t, t ≠ s → st'.game.gameSessions t = st.game.gameSessions t := by
  have hushered := h.ushered hfresh
  unfold Game.enterRoom Game.enterRoomBy
  simp only [usher_fst]
  generalize (Game.usher s st.game).2 = room₁ at hushered
  obtain ⟨hnew, hscene, ho⟩ := hushered
  have hseat : room₁.gameSessions = st.game.toScene.seat s := by
    rw [hscene]
    rfl
  have hshort₁ : room₁.toScene.Short := by
    rw [hscene]
    refine hshort.append ?_ _
    exact Nat.zero_le 64
  refine (deref_eq ho).bind fun o ho' => ?_
  rw [ho']
  -- S_MyPlayer and S_AddObject: the session may be disconnected
  refine make_spec.bind fun p _ => ?_
  refine (send_passed hnew hreg p).bind fun st₂ h₂ => ?_
  refine snapshot_spec.bind fun objects _ => ?_
  refine make_spec.bind fun q _ => ?_
  refine (send_passed h₂.good h₂.registered q).bind fun st₃ h₃ => ?_
  have hpassed := h₂.trans h₃
  -- AddObject: the player is the same
  obtain ⟨o₃, ho₃, hinfo₃, hkind₃⟩ := hpassed.same.find ho
  have hplayer : (st₃.game.gameSessions s).player = some st.game.objects.length := by
    rw [hpassed.same.gameSessions, hseat]
    exact seat_self
  have htype : o₃.info.objecttype = .player := by rw [hinfo₃]; rfl
  have hplays : o₃.Plays s := ⟨htype, hkind₃⟩
  refine (addObject_spec .players (api_steady parse fuel n) hpassed.good ho₃ (by rw [htype]; rfl) fun _ =>
    ⟨s, hplays, hplayer, .inr trivial⟩).bind fun st₄ h₄ => .ok ?_
  obtain ⟨hgood₄, hgame₄, hsteady⟩ := h₄
  refine ⟨hgood₄.release, hpassed.registered.unchanged hsteady.unchanged, hpassed.undisturbed.trans hsteady.undisturbed, ?_, ?_⟩
  · show st₄.game.toScene.Short
    rw [hgame₄]
    exact (hshort₁.same hpassed.same).modify fun _ => rfl
  · intro t hts
    show st₄.game.toScene.gameSessions t = _
    rw [hgame₄]
    show st₃.game.gameSessions t = _
    rw [hpassed.same.gameSessions, hseat]
    exact Function.update_of_ne hts _ _

/-! ## The turns of the main loop -/

/-- ... and no session was created or connected since. -/
def Kempt (net : Net) (st : Server Room) : Prop := Orderly st ∧ Undisturbed net st.net

theorem Orderly.resume (h : Orderly st) (hgame : st'.game = st.game) (hu : Unchanged st.net st'.net) : Orderly st' := by
  refine ⟨h.good.resume hgame, h.registered.unchanged hu, ?_, ?_⟩
  · rw [hgame, hu.onConnected]
    exact h.tied
  · rw [hgame]
    exact h.short

theorem kempt_neutral : Neutral (Kempt net) := by
  refine ⟨fun st s g h1 h2 h => ⟨h.1.resume rfl (.modify h1), h.2.trans (.modify h2)⟩, fun st h => ?_⟩
  exact ⟨h.1.resume (wsa_game st) (.wsa st), h.2.trans (.wsa st)⟩

/-- Whatever the next socket calls answer. -/
theorem Orderly.answering (h : Orderly st) (answers : List WsaResult) : Orderly (Server.answering st answers) :=
  h.resume rfl ⟨fun _ => rfl, rfl, rfl, rfl, rfl, rfl⟩

/-- A call of `Send` or `Disconnect` between two events. -/
theorem Orderly.passed (h : Orderly st) (hpassed : Passed (fun _ => False) [] st st') : Orderly st' := by
  refine ⟨hpassed.good, hpassed.registered, ?_, h.short.same hpassed.same⟩
  rw [hpassed.same.gameSessions, hpassed.undisturbed.onConnected]
  exact h.tied

theorem disconnect_kempt (s : SessionId) :
    Preserves (fun _ => True) (Kempt net) ((api (gameContent parse fuel) n).disconnect s) := by
  intro st h
  exact (disconnect_passed h.1.good h.1.registered).imp fun st' h' => ⟨h.1.passed h', h.2.trans h'.undisturbed⟩

theorem handlePacket_kempt (s : SessionId) (buffer : List UInt8) : Preserves (fun _ => True) (Kempt net)
    ((gameContent parse fuel).handlePacket (api (gameContent parse fuel) n) s buffer) := by
  intro st h
  refine (handlePacket_unentering (U := fun _ _ => Steady) (api_steady parse fuel n) h.1.good).imp fun st' h' => ?_
  obtain ⟨hgood, hdoes⟩ := h'
  obtain ⟨horderly, hu⟩ := h.1.does hgood hdoes
  exact ⟨horderly, h.2.trans hu⟩

variable (parse) in
theorem update_kempt {pick : Pick} : Preserves (fun _ => True) (Kempt net)
    (Game.updateRoom (api (gameContent parse fuel) n).send pick fuel) := by
  intro st h
  refine (updateRoom_unentering (U := fun _ _ => Steady) (api_steady parse fuel n) h.1.good).imp fun st' h' => ?_
  obtain ⟨hgood, hdoes⟩ := h'
  obtain ⟨horderly, hu⟩ := h.1.does hgood hdoes
  exact ⟨horderly, h.2.trans hu⟩

theorem processConnect_kempt (h : Orderly st) (hnew : st.net.onConnected s = 0) :
    IfReturns (Session.processConnect (gameContent parse fuel) fuel s st) (Kempt (st.net.enrol s)) := by
  obtain ⟨p, hp⟩ := makeSEnterGame_ok
  have hfresh : (st.game.gameSessions s).player = none := by
    by_contra hplayer
    exact h.tied s hplayer hnew
  have hgood : Good Whoever { st with net := st.net.enrol s } [] := h.good.resume rfl
  have henter : IfReturns ((api (gameContent parse fuel) fuel).send s p { st with net := st.net.enrol s } >>=
      (gameContent parse fuel).enterRoom (api (gameContent parse fuel) fuel) s) (Kempt (st.net.enrol s)) := by
    refine (send_passed hgood (h.registered.enrol hnew) p).bind fun st₁ h₁ => ?_
    have hfresh₁ : (st₁.game.gameSessions s).player = none := by
      rw [h₁.same.gameSessions]
      exact hfresh
    refine (enterRoom_orderly h₁.good h₁.registered (h.short.same h₁.same) hfresh₁).imp fun st' h' => ?_
    obtain ⟨hgood', hreg', hu', hshort', hsame⟩ := h'
    have hu : Undisturbed (st.net.enrol s) st'.net := h₁.undisturbed.trans hu'
    refine ⟨⟨hgood', hreg', fun t ht => ?_, hshort'⟩, hu⟩
    rw [hu.onConnected]
    by_cases hts : t = s
    · rw [hts]
      simp [Net.enrol, Service.addSession, Net.modify]
    · rw [hsame t hts, h₁.same.gameSessions] at ht
      rw [show (st.net.enrol s).onConnected t = st.net.onConnected t from Function.update_of_ne hts _ _]
      exact h.tied t ht
  unfold Session.processConnect GameSession.onConnected
  rw [hp]
  refine henter.bind fun st₁ h₁ => ?_
  exact preserves_onRecvSide kempt_neutral (fun side hside => preserves_registerRecv kempt_neutral disconnect_kempt hside) st₁ h₁

theorem boot_orderly {tilemap : TileMap} {acceptCount : ℕ} :
    IfReturns (boot parse fuel tilemap acceptCount) fun st => Orderly st ∧ AtRest st.net := by
  unfold boot
  refine (init_spec (U := fun _ _ => Steady) (api_steady parse fuel fuel) good_empty tilemap).bind fun st h => .ok ?_
  obtain ⟨hgood, hact⟩ := h
  obtain ⟨hsteady, hsame⟩ := hact.related Steady.refl Steady.trans
  have hrest := start_atRest acceptCount
  refine ⟨⟨hgood.resume rfl, hrest.registered, fun s hplayer => ?_, ?_⟩, hrest⟩
  · rw [show st.game.gameSessions s = {} from hsame s (by simp)] at hplayer
    exact absurd rfl hplayer
  · refine Act.short ?_ hact
    intro r o ho
    simp [Game.stage] at ho

/-- **One turn.** -/
theorem leads_orderly {e : Round} (h : Orderly st ∧ Awaited st.net fun _ => False) (hleads : Leads parse st e st') :
    Orderly st' ∧ Awaited st'.net fun _ => False := by
  obtain ⟨he, fuel, hrun⟩ := hleads
  obtain ⟨horderly, haw⟩ := h
  have hstart := horderly.answering e.answers
  have haw : Awaited { st.net with answers := e.answers } fun _ => False :=
    ⟨haw.nodup, haw.known, haw.accept, haw.connecting, haw.created⟩
  obtain ⟨turn, answers⟩ := e
  cases turn with
  | dispatch event =>
    refine Post.result (F := fun _ => True) (Q := fun st' => Orderly st' ∧ Awaited st'.net fun _ => False) ?_ hrun
    refine dispatch_spec (I := Orderly) (fun _ _ hu ho => ho.resume rfl hu) ?_ ?_ ?_ hstart haw he
    · exact fun _ s hnew => processConnect_kempt hstart hnew
    · exact fun s bytes => Preserves.processRecv trivial kempt_neutral disconnect_kempt handlePacket_kempt bytes _ ⟨hstart, .refl _⟩
    · exact fun s numOfBytes => Preserves.processSend kempt_neutral disconnect_kempt numOfBytes _ ⟨hstart, .refl _⟩
  | update ticks pick =>
    refine Post.result (F := fun _ => True) (Q := fun st' => Orderly st' ∧ Awaited st'.net fun _ => False) ?_ hrun
    have hticks : Orderly (Game.update { st with net := { st.net with answers := answers } }
        fun room => { room with ticks := ticks }) :=
      ⟨⟨hstart.good.core, hstart.good.counted.of_same rfl rfl rfl⟩, hstart.registered, hstart.tied, hstart.short⟩
    refine (update_kempt parse _ ⟨hticks, .refl _⟩).imp fun st' hst' => ?_
    exact ⟨hst'.1, haw.undisturbed hst'.2⟩

/-- **A run**: whatever the clients and the socket calls do, the room is in order between
two turns. -/
theorem run_orderly {tilemap : TileMap} {acceptCount : ℕ} {st₀ : Server Room} {rounds : List Round}
    (hboot : boot parse fuel tilemap acceptCount = .ok st₀) (hrun : Runs (Leads parse) st₀ rounds st) : Orderly st := by
  have hstart := boot_orderly.result hboot
  have hend := Runs.invariant (P := fun st : Server Room => Orderly st ∧ Awaited st.net fun _ => False)
    ⟨hstart.1, hstart.2.awaited⟩ (fun _ _ _ h hleads => leads_orderly h hleads) hrun
  exact hend.1

/-! ## Broadcasts of a running server -/

/-- Fuel for the loops and for the nested calls of a broadcast. -/
def Server.enough (st : Server Room) : ℕ := st.game.players.toList.length + st.net.manager.card + 1

theorem enough_le (h : Server.enough st ≤ fuel) :
    ∃ n, fuel = n + 1 ∧ st.net.manager.card ≤ n ∧ st.game.players.toList.length < fuel := by
  unfold Server.enough at h
  refine ⟨fuel - 1, ?_, ?_, ?_⟩ <;> omega

variable {packet : Packet}

/-- A send of the broadcast is reset. -/
theorem broadcast_undefined (h : Good Whoever st pins) (hreg : Registered st.net leaving) (hcut : ¬ Server.Spared st)
    (hfuel : Server.enough st ≤ fuel) :
    Game.broadcast (api (gameContent parse fuel) fuel).send fuel packet st = .error .undefined := by
  obtain ⟨n, hn, hcard, hlen⟩ := enough_le hfuel
  have hpost := broadcast_outcome parse n h hreg packet hcard hlen
  rw [← hn] at hpost
  cases hrun : Game.broadcast (api (gameContent parse fuel) fuel).send fuel packet st with
  | ok st' => exact absurd (hpost.result hrun).spared hcut
  | error e => rw [hpost.fault hrun]

theorem broadcast_returns (h : Good Whoever st pins) (hspared : Server.Spared st) (hfuel : Server.enough st ≤ fuel) :
    ∃ st', Game.broadcast (api (gameContent parse fuel) fuel).send fuel packet st = .ok st' ∧
      Server.Delivered packet st st' := by
  obtain ⟨n, hn, -, hlen⟩ := enough_le hfuel
  obtain ⟨st', hst', hgoing⟩ := returns_iff.1 (broadcast_spared parse n h packet hspared hlen)
  rw [← hn] at hst'
  exact ⟨st', hst', hgoing.delivered h⟩

/-- **Broadcasts and disconnects.** In a room whose maps, pointers and registries are in
order, whatever `WSASend` answers: a broadcast returns, having sent the packet once to every
player whose session is connected and does not fail, exactly when none of the calls of
`WSASend` for its players is reset. If one is, the broadcast goes on from an element that
was erased. -/
theorem broadcast_survives (h : Good Whoever st pins) (hreg : Registered st.net leaving) :
    ((∃ n, ∀ fuel, n ≤ fuel → ∃ st', Game.broadcast (api (gameContent parse fuel) fuel).send fuel packet st = .ok st' ∧
      Server.Delivered packet st st') ↔ Server.Spared st) ∧
    (¬ Server.Spared st → ∃ n, ∀ fuel, n ≤ fuel →
      Game.broadcast (api (gameContent parse fuel) fuel).send fuel packet st = .error .undefined) := by
  refine ⟨⟨fun hlives => ?_, fun hspared => ⟨_, fun _ => broadcast_returns h hspared⟩⟩,
    fun hcut => ⟨_, fun _ => broadcast_undefined h hreg hcut⟩⟩
  obtain ⟨m, hm⟩ := hlives
  by_contra hcut
  obtain ⟨st', hst', -⟩ := hm (m + Server.enough st) (Nat.le_add_right _ _)
  rw [broadcast_undefined h hreg hcut (Nat.le_add_left _ _)] at hst'
  exact absurd hst' (by simp)

/-- Two sessions are in the room, and nothing is under way to the first. -/
def pair : List Round := [{ turn := .dispatch (.accept 0 true 0) }, { turn := .dispatch (.accept 0 true 0) },
  { turn := .dispatch (.sent 0 1) }, { turn := .dispatch (.sent 0 1) }]

theorem pair_run : ∃ st₀ st, boot (fun _ => {}) 20 {} 1 = .ok st₀ ∧ Runs (Leads fun _ => {}) st₀ pair st ∧
    st.game.players[(2 : UInt64)]? = some 1 ∧ st.game.listener 1 = some 0 ∧
    Server.Spared (Server.answering st [.success, .socketError 10054]) ∧ ¬ Server.Spared (Server.answering st [.socketError 10054]) := by
  have hrun : (playExec pair).map (fun st => (st.game.players[(2 : UInt64)]?, st.game.listener 1,
      decide (Server.Spared (Server.answering st [.success, .socketError 10054])),
      decide (Server.Spared (Server.answering st [.socketError 10054])))) =
      some (some 1, some 0, true, false) := by decide +kernel
  obtain ⟨st, hst, heq⟩ := Option.map_eq_some_iff.1 hrun
  simp only [Prod.mk.injEq, decide_eq_true_eq, decide_eq_false_iff_not] at heq
  obtain ⟨st₀, hboot, hruns⟩ := playExec_runs hst
  exact ⟨st₀, st, hboot, hruns, heq⟩

/-- The call for the first player succeeds; to the second a send is under way. -/
theorem broadcast_survives_example : ∃ st₀ st, boot (fun _ => {}) 20 {} 1 = .ok st₀ ∧ Runs (Leads fun _ => {}) st₀ pair st ∧
    ∃ n, ∀ fuel, n ≤ fuel → ∃ st', Game.broadcast (api (gameContent (fun _ => {}) fuel) fuel).send fuel
      ⟨.removeObject [1], ⟨[], 0⟩⟩ (Server.answering st [.success, .socketError 10054]) = .ok st' ∧
      Server.Delivered ⟨.removeObject [1], ⟨[], 0⟩⟩ (Server.answering st [.success, .socketError 10054]) st' := by
  obtain ⟨st₀, st, hboot, hruns, -, -, hspared, -⟩ := pair_run
  have horderly : Orderly (Server.answering st [.success, .socketError 10054]) :=
    (run_orderly hboot hruns).answering _
  exact ⟨st₀, st, hboot, hruns, (broadcast_survives horderly.good horderly.registered).1.2 hspared⟩

/-- The first of two players is reset: the broadcast goes on from an erased element. -/
theorem broadcast_erased : ∃ st₀ st, boot (fun _ => {}) 20 {} 1 = .ok st₀ ∧ Runs (Leads fun _ => {}) st₀ pair st ∧
    st.game.players[(2 : UInt64)]? = some 1 ∧ st.game.listener 1 = some 0 ∧
    ∀ packet, (∃ n, ∀ fuel, n ≤ fuel → Game.broadcast (api (gameContent (fun _ => {}) fuel) fuel).send fuel packet
      (Server.answering st [.socketError 10054]) = .error .undefined) ∧
    ¬ ∃ n, ∀ fuel, n ≤ fuel → ∃ st', Game.broadcast (api (gameContent (fun _ => {}) fuel) fuel).send fuel packet
      (Server.answering st [.socketError 10054]) = .ok st' ∧
      Server.Delivered packet (Server.answering st [.socketError 10054]) st' := by
  obtain ⟨st₀, st, hboot, hruns, hplayer, hlistener, -, hcut⟩ := pair_run
  have horderly : Orderly (Server.answering st [.socketError 10054]) :=
    (run_orderly hboot hruns).answering _
  refine ⟨st₀, st, hboot, hruns, hplayer, hlistener, fun packet => ?_⟩
  have hdies : ∀ fuel, Server.enough (Server.answering st [.socketError 10054]) ≤ fuel →
      Game.broadcast (api (gameContent (fun _ => {}) fuel) fuel).send fuel packet
        (Server.answering st [.socketError 10054]) = .error .undefined :=
    fun fuel => broadcast_undefined horderly.good horderly.registered hcut
  refine ⟨⟨_, hdies⟩, fun hlives => ?_⟩
  obtain ⟨m, hm⟩ := hlives
  obtain ⟨st', hst', -⟩ := hm _ (Nat.le_add_right m (Server.enough (Server.answering st [.socketError 10054])))
  rw [hdies _ (Nat.le_add_left _ _)] at hst'
  exact absurd hst' (by simp)

end ZeldaServer
