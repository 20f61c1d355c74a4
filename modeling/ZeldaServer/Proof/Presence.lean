import ZeldaServer.Proof.Monsters
import ZeldaServer.Proof.Registry
import ZeldaServer.Spec.GameServer

/-!
# The players of connected sessions

A send that is reset disconnects its session, and the session's player leaves the room in
the middle of the call. In a broadcast it is the player that the loop is at, so the loop
does not go on from there. A broadcast that returns has therefore disconnected nobody,
however deep the calls nest, and all that the functions of the room do holds of the server.

* `disconnect_spec`: a session that disconnects leaves the room.
* `api_speaks`: a broadcast of the server that returns changes no session's connection.
-/

namespace ZeldaServer

open Lib Std

/-- The session is connected, or one of `P`, which are in `Disconnect`. -/
def Present (P : SessionId → Prop) (s : SessionId) (net : Net) : Prop := (net.session s).connected = true ∨ P s

/-- No session has been connected or disconnected. -/
structure Quiet (net net' : Net) : Prop where
  connected : ∀ s, (net'.session s).connected = (net.session s).connected
  undisturbed : Undisturbed net net'

/-- The effect of a broadcast. -/
def Hushed (_ : Scene) (_ : Msg) : Net → Net → Prop := Quiet

variable {P : SessionId → Prop} {net net' net₁ net₂ : Net} {st st' : Server Room} {pins : List Ref} {s : SessionId} {r : Ref}

namespace Quiet

theorem refl (net : Net) : Quiet net net := ⟨fun _ => rfl, .refl net⟩

theorem trans (h : Quiet net net₁) (h' : Quiet net₁ net₂) : Quiet net net₂ :=
  ⟨fun s => (h'.connected s).trans (h.connected s), h.undisturbed.trans h'.undisturbed⟩

/-- A change of what is to be sent. -/
theorem queue (st : Server Room) (s : SessionId) (g : Session → SendSide Packet) (w : Session → List (List Packet)) :
    Quiet st.net (Server.modify st s fun x => { x with side := g x, wire := w x }).net :=
  ⟨modify_field (f := fun x => { x with side := g x, wire := w x }) Session.connected fun _ => rfl,
    .modify (f := fun x => { x with side := g x, wire := w x }) fun _ => rfl⟩

theorem wsa (st : Server Room) : Quiet st.net st.wsa.2.net := by
  rw [wsa_snd]
  exact ⟨fun _ => rfl, rfl, rfl, rfl, fun _ => rfl⟩

theorem present (h : Quiet net net') (hs : Present P s net) : Present P s net' := by
  unfold Present
  rw [h.connected]
  exact hs

end Quiet

theorem wsa_game (st : Server Room) : st.wsa.2.game = st.game := by
  rw [wsa_snd]

/-- The sessions change, and those that play in the room have another property. -/
theorem Good.rewatch {W W' : SessionId → Net → Prop} (h : Good W st pins) (hgame : st'.game = st.game)
    (hW : ∀ (k : UInt64) (r : Ref) (s : SessionId), k = key r → st.game.players[k]? = some r →
      (st.game.gameSessions s).player = some r → W s st.net → W' s st'.net) : Good W' st' pins := by
  refine ⟨?_, by rw [hgame]; exact h.counted⟩
  unfold Game.stage
  rw [hgame]
  refine ⟨h.core.next, h.core.id, h.core.typed, ?_, h.core.monsters, h.core.target, h.core.weak⟩
  intro k r hk
  obtain ⟨hkey, o, s, ho, hs, hroom, hweak, hw⟩ := h.core.players k r hk
  exact ⟨hkey, o, s, ho, hs, hroom, hweak, hW k r s hkey hk hweak hw⟩

/-- The room does not notice. -/
theorem Good.quiet (h : Good (Present P) st pins) (hgame : st'.game = st.game) (hq : Quiet st.net st'.net) :
    Good (Present P) st' pins :=
  h.rewatch hgame fun _ _ _ _ _ _ hs => hq.present hs

/-! ## Sends and broadcasts -/

/-- The player of the session leaves the room, and nobody enters it. -/
structure Departs (s : SessionId) (sc sc' : Scene) : Prop where
  players : ∀ (k : UInt64) (r : Ref), sc'.players[k]? = some r → sc.players[k]? = some r
  gameSessions : sc'.gameSessions = sc.gameSessions
  gone : ∀ r, (sc.gameSessions s).player = some r → sc.players[key r]? = some r → sc'.players[key r]? = none

/-- Its player is in no place of the map. -/
theorem Departs.absent {sc sc' : Scene} (h : Departs s sc sc') {k : UInt64} (hkey : k = key r)
    (hweak : (sc'.gameSessions s).player = some r) : sc'.players[k]? ≠ some r := by
  intro hin
  rw [hkey] at hin
  rw [h.gameSessions] at hweak
  have hgone := h.gone r hweak (h.players _ r hin)
  exact Option.some_ne_none r (hin.symm.trans hgone)

/-- A send changes no connection, or the player of the session leaves. -/
def SendsTo (P : SessionId → Prop) (send : SessionId → Packet → Server Room → Outcome (Server Room)) : Prop :=
  ∀ s packet (st : Server Room) pins, Good (Present P) st pins → IfReturns (send s packet st) fun st' =>
    (st'.game = st.game ∧ Quiet st.net st'.net) ∨ Departs s st.game.toScene st'.game.toScene

/-- **A broadcast that returns has disconnected nobody.** -/
theorem SendsTo.speaks {send : SessionId → Packet → Server Room → Outcome (Server Room)} (hsend : SendsTo P send) :
    Speaks send (Present P) Hushed := by
  refine ⟨fun fuel packet st pins h => ?_, fun _ _ _ _ hq s hs => Quiet.present hq hs⟩
  unfold Game.broadcast
  refine (Post.rangeFor (I := fun _ (st' : Server Room) => st'.game = st.game ∧ Quiet st.net st'.net)
    ⟨trivial, trivial⟩ ?_ rfl ⟨rfl, .refl _⟩).imp fun _ h' => h'.2
  intro before k r after st₁ hlist _ h₁
  obtain ⟨hgame, hq⟩ := h₁
  have hmem : st.game.players[k]? = some r := getElem?_of_toList hlist
  obtain ⟨hkey, o, s₀, ho, hplays, -, hweak, -⟩ := h.core.players k r hmem
  have hgood₁ := h.quiet hgame hq
  have hweak : (st₁.game.gameSessions s₀).player = some r := by
    rw [hgame]
    exact hweak
  rw [← hgame] at hmem
  have ho₁ : st₁.game.objects[r]? = some o := by
    rw [hgame]
    exact ho
  refine (deref_eq ho₁).bind fun o' ho' => ?_
  rw [ho', hplays.kind]
  dsimp only
  refine (hsend s₀ packet st₁ pins hgood₁).imp fun st' h' hstays => ?_
  rcases h' with ⟨hgame', hq'⟩ | hdeparts
  · have hsame : st'.game = st.game := hgame'.trans hgame
    exact ⟨by rw [hsame], hsame, hq.trans hq'⟩
  · -- the loop is at the player that left
    rw [hkey] at hstays hmem
    exact absurd (hdeparts.gone r hweak hmem) hstays

/-- `Session::Send`, when `Disconnect` makes the session's player leave. -/
theorem send_spec {disconnect : SessionId → Server Room → Outcome (Server Room)}
    (hd : ∀ s (st : Server Room) pins, Good (Present P) st pins → (st.session s).connected = true →
      IfReturns (disconnect s st) fun st' => Departs s st.game.toScene st'.game.toScene) :
    SendsTo P (Session.send disconnect) := by
  intro s packet st pins h
  unfold Session.send
  dsimp only
  have hq₁ : Quiet st.net (st.modify s fun x => { x with side := ((st.session s).side.push packet).2 }).net :=
    .queue st s _ _
  have hgood₁ : Good (Present P) (st.modify s fun x => { x with side := ((st.session s).side.push packet).2 }) pins :=
    h.quiet rfl hq₁
  split
  · unfold Session.registerSend
    generalize hst₁ : (st.modify s fun x => { x with side := ((st.session s).side.push packet).2 }) = st₁ at hq₁ hgood₁
    have hgame₁ : st₁.game = st.game := by
      rw [← hst₁]
      rfl
    split
    · exact .ok (.inl ⟨hgame₁, hq₁⟩)
    rename_i hconnected
    rw [Bool.not_eq_false] at hconnected
    dsimp only
    have hq₂ : Quiet st₁.net (st₁.modify s fun x => { x with side := x.side.clear.drain }).wsa.2.net :=
      (Quiet.queue st₁ s _ _).trans (.wsa _)
    have hgame₂ := wsa_game (st₁.modify s fun x => { x with side := x.side.clear.drain })
    generalize (st₁.modify s fun x => { x with side := x.side.clear.drain }).wsa = answered at hq₂ hgame₂
    obtain ⟨result, st₂⟩ := answered
    dsimp only at hq₂ hgame₂ ⊢
    have hgame₂ : st₂.game = st₁.game := hgame₂
    split
    · refine .ok (.inl ⟨hgame₂.trans hgame₁, (hq₁.trans hq₂).trans (.queue _ s _ _)⟩)
    unfold Session.handleError
    split
    · -- the connection is reset
      have hconnected₂ : (st₂.session s).connected = true := (hq₂.connected s).trans hconnected
      refine (hd s st₂ pins (hgood₁.quiet hgame₂ hq₂) hconnected₂).bind fun st₃ h₃ => .ok (.inr ?_)
      rw [← hgame₁, ← hgame₂]
      exact h₃
    · refine .ok (.inl ⟨hgame₂.trans hgame₁, (hq₁.trans hq₂).trans (.queue _ s _ _)⟩)
  · exact .ok (.inl ⟨rfl, hq₁⟩)

/-! ## Disconnect -/

/-- A removal changes the sessions as its broadcast does. -/
theorem Removes.related {R : Net → Net → Prop} (hrefl : ∀ net, R net net) {v v' : Stage Net} {id : UInt64}
    (h : Removes (fun _ _ => R) v id v') : R v.net v'.net := by
  cases h with
  | missing => exact hrefl _
  | found _ _ _ hR => exact hR

/-- A removal changes no connection. -/
theorem Removes.hushed {v v' : Stage Net} {id : UInt64} (h : Removes Hushed v id v') : Quiet v.net v'.net :=
  h.related (R := Quiet) Quiet.refl

theorem Removes.gameSessions {B : Scene → Msg → Net → Net → Prop} {v v' : Stage Net} {id : UInt64} (h : Removes B v id v') :
    v'.game.gameSessions = v.game.gameSessions := by
  cases h with
  | missing => rfl
  | @found r o which => cases which <;> rfl

/-- A player that is in the room after a removal was there before. -/
theorem Removes.players {B : Scene → Msg → Net → Net → Prop} {v v' : Stage Net} {id k : UInt64} (h : Removes B v id v')
    (hin : v'.game.players[k]? = some r) : v.game.players[k]? = some r := by
  cases h with
  | missing => exact hin
  | @found r' o which =>
    cases which with
    | monsters => exact hin
    | players =>
      rw [show (v.game.drop .players r' id).players = v.game.players.erase id from rfl, TreeMap.getElem?_erase] at hin
      split at hin
      · exact absurd hin.symm (Option.some_ne_none r)
      · exact hin

/-- A player that is removed by its own id is gone. -/
theorem Removes.gone {B : Scene → Msg → Net → Net → Prop} {v v' : Stage Net} (hcore : Core (Present P) v)
    (h : Removes B v (key r) v') (hin : v.game.players[key r]? = some r) : v'.game.players[key r]? = none := by
  have hfound : v.game.findObject (key r) = some r := by
    unfold Scene.findObject
    rw [hin]
  cases h with
  | missing hf =>
    rw [hfound] at hf
    exact absurd hf (Option.some_ne_none r)
  | @found r' o which net hf ho ht hB =>
    rw [hfound] at hf
    obtain rfl := Option.some.inj hf
    obtain ⟨-, o', _, ho', hplays, -⟩ := hcore.players _ _ hin
    rw [ho] at ho'
    rw [Option.some.inj ho', hplays.type] at ht
    obtain rfl := Option.some.inj ht
    show (v.game.players.erase (key r))[key r]? = none
    rw [TreeMap.getElem?_erase]
    simp

/-- **`GameRoom::LeaveRoom`**: the player of the session is not in the room any more. -/
theorem leaveRoom_departs {send : SessionId → Packet → Server Room → Outcome (Server Room)} {fuel : ℕ}
    (hs : Speaks send (Present P) Hushed) (h : Good (Present P) st pins) :
    IfReturns (Game.leaveRoom send fuel s st) fun st' => Good (Present P) st' pins ∧ Quiet st.net st'.net ∧
      Departs s st.game.toScene st'.game.toScene := by
  unfold Game.leaveRoom Game.leaveRoomBy
  cases hlock : st.game.lock (st.game.gameSessions s).player with
  | none =>
    refine .ok ⟨h, .refl _, ⟨fun _ _ hk => hk, rfl, ?_⟩⟩
    intro r hr hin
    -- an element of the map is alive
    have hpos : 0 < st.game.useCount r := by
      have hcount := h.counted r
      have hheld := heldIn_pos.2 hin
      omega
    rw [hr] at hlock
    unfold Room.lock at hlock
    simp only [Option.filter_some, ite_eq_right_iff, reduceCtorEq, imp_false, decide_eq_true_eq] at hlock
    exact absurd hpos hlock
  | some player =>
    obtain ⟨hplayer, -⟩ := lock_spec hlock
    refine deref_spec.bind fun o ho => ?_
    rw [h.core.id player o ho.1]
    refine (removeObject_spec hs h).imp fun st' h' => ?_
    obtain ⟨hgood, hremoves⟩ := h'
    refine ⟨hgood, hremoves.hushed, ⟨fun _ _ hk => hremoves.players hk, hremoves.gameSessions, ?_⟩⟩
    intro r hr hin
    rw [hplayer] at hr
    obtain rfl := Option.some.inj hr
    exact hremoves.gone h.core hin

theorem releaseSession_quiet : IfReturns (Service.releaseSession s net) fun net' => Quiet net net' := by
  unfold Service.releaseSession
  split
  · exact .ok ⟨fun _ => rfl, rfl, rfl, rfl, fun _ => rfl⟩
  · exact .error trivial

/-- The server while `LeaveRoom` is called on `s`. -/
def Server.parting (st : Server Room) (s : SessionId) : Server Room :=
  { st with net := { st.net.modify s (fun x => { x with connected := false }) with
    onDisconnected := Function.update st.net.onDisconnected s (st.net.onDisconnected s + 1)
    manager := st.net.manager.erase s } }

theorem parting_other {t : SessionId} (hts : t ≠ s) : (Server.parting st s).net.session t = st.net.session t :=
  modify_other (fun x => { x with connected := false }) hts

theorem parting_undisturbed : Undisturbed st.net (Server.parting st s).net :=
  ⟨rfl, rfl, rfl, modify_field (f := fun x => { x with connected := false }) Session.connecting fun _ => rfl⟩

section

variable (parse : List UInt8 → CMove) (fuel : ℕ)

/-- **One level of `Disconnect`**: a session that was connected leaves the room. -/
theorem disconnect_spec {inner : Api (Server Room)} (hs : ∀ P, Speaks inner.send (Present P) Hushed)
    (h : Good (Present P) st pins) :
    IfReturns (Session.disconnect (GameSession.onDisconnected (gameContent parse fuel) inner) s st) fun st' =>
      Good (Present P) st' pins ∧ Undisturbed st.net st'.net ∧ st'.game.gameSessions = st.game.gameSessions ∧
      ((st.net.session s).connected = true → Departs s st.game.toScene st'.game.toScene) := by
  unfold Session.disconnect
  split
  · rename_i hdown
    refine .ok ⟨h, .refl _, rfl, fun hup => ?_⟩
    rw [show (st.net.session s).connected = false from hdown] at hup
    exact absurd hup Bool.false_ne_true
  -- the flag is cleared first: `s` is in `Disconnect`
  have hgood₁ : Good (Present fun t => P t ∨ t = s) (Server.parting st s) pins := by
    refine h.rewatch rfl fun _ _ t _ _ _ ht => ?_
    by_cases hts : t = s
    · exact .inr (.inr hts)
    · unfold Present
      rw [parting_other hts]
      exact ht.imp_right .inl
  refine (leaveRoom_departs (hs _) hgood₁).bind fun st₂ h₂ => ?_
  obtain ⟨hgood₂, hq₂, hdeparts⟩ := h₂
  refine releaseSession_quiet.bind fun net₃ hq₃ => .ok ?_
  refine ⟨?_, parting_undisturbed.trans (hq₂.undisturbed.trans hq₃.undisturbed), hdeparts.gameSessions, fun _ => hdeparts⟩
  -- its player is gone: the others are as present as before
  refine hgood₂.rewatch rfl fun k r t hkey hk hweak ht => ?_
  refine hq₃.present (ht.imp_right fun hP => hP.resolve_right fun hts => ?_)
  rw [hts] at hweak
  exact hdeparts.absent hkey hweak hk

/-- **Sends at every depth**: a broadcast that returns changes no session's connection. -/
theorem api_speaks (n : ℕ) : ∀ P, Speaks (api (gameContent parse fuel) n).send (Present P) Hushed := by
  induction n with
  | zero => exact fun P => SendsTo.speaks fun _ _ _ _ _ => .error trivial
  | succ n ih =>
    intro P
    refine SendsTo.speaks (send_spec fun s st pins h hup => ?_)
    refine (disconnect_spec parse fuel ih h).imp fun st' h' => ?_
    obtain ⟨-, -, -, hdeparts⟩ := h'
    exact hdeparts hup

end

/-! ## Between two events -/

/-- What is known between the calls of the main loop. -/
structure Peopled (st : Server Room) : Prop where
  good : Good (Present fun _ => False) st []
  /-- only a session that has been connected has a player -/
  tied : ∀ s, (st.game.gameSessions s).player ≠ none → st.net.onConnected s ≠ 0

/-- ... and no session was created or connected since. -/
def Settled (net : Net) (st : Server Room) : Prop := Peopled st ∧ Undisturbed net st.net

theorem Peopled.quiet (h : Peopled st) (hgame : st'.game = st.game) (hq : Quiet st.net st'.net) : Peopled st' := by
  refine ⟨h.good.quiet hgame hq, ?_⟩
  rw [hgame, hq.undisturbed.onConnected]
  exact h.tied

theorem settled_neutral : Neutral (Settled net) := by
  refine ⟨fun st s g h1 h2 h => ?_, fun st h => ?_⟩
  · have hq : Quiet st.net (Server.modify st s g).net := ⟨modify_field Session.connected h1, .modify h2⟩
    exact ⟨h.1.quiet rfl hq, h.2.trans hq.undisturbed⟩
  · exact ⟨h.1.quiet (wsa_game st) (.wsa st), h.2.trans (Quiet.wsa st).undisturbed⟩

/-! ## What the room does to the sessions -/

section

variable {R : Net → Net → Prop}

theorem Strikes.related {v v' : Stage Net} {attacker target : Ref} {info : ObjectInfo}
    (h : Strikes (fun _ _ => R) v attacker target info v') : R v.net v'.net ∧ v'.game.gameSessions = v.game.gameSessions := by
  cases h with
  | mk _ _ _ _ _ hR => exact ⟨hR, rfl⟩

/-- What every broadcast does to the sessions, every act does. Only `EnterRoom` gives a
session a player. -/
theorem Act.related (hrefl : ∀ net, R net net) (htrans : ∀ net net₁ net₂, R net net₁ → R net₁ net₂ → R net net₂)
    {v v' : Stage Net} {a : Label} (h : Act (fun _ _ => R) (fun _ _ => R) v a v') :
    R v.net v'.net ∧ ∀ s, a ≠ .enter s → v'.game.gameSessions s = v.game.gameSessions s := by
  cases h with
  | enter _ hR₁ _ hR₂ hR₃ =>
    refine ⟨htrans _ _ _ hR₁ (htrans _ _ _ hR₂ hR₃), fun s hs => Function.update_of_ne ?_ _ _⟩
    exact fun heq => hs (congrArg Label.enter heq.symm)
  | spawn hR => exact ⟨hR, fun _ _ => rfl⟩
  | think => exact ⟨hrefl _, fun _ _ => rfl⟩
  | walk _ _ _ _ hR => exact ⟨hR, fun _ _ => rfl⟩
  | report _ _ _ hR => exact ⟨hR, fun _ _ => rfl⟩
  | hit hs _ => exact ⟨hs.related.1, fun _ _ => by rw [hs.related.2]⟩
  | kill hs _ _ hr =>
    refine ⟨htrans _ _ _ hs.related.1 (hr.related hrefl), fun _ _ => ?_⟩
    rw [hr.gameSessions, ← hs.related.2]
    rfl
  | leave hr => exact ⟨hr.related hrefl, fun _ _ => by rw [hr.gameSessions]⟩

end

/-- Nobody enters. -/
def Label.Unentering (a : Label) : Prop := ∀ s, a ≠ .enter s

theorem Label.Attacks.unentering {a : Label} (h : Label.Attacks r a) : a.Unentering := by
  obtain ⟨target, rfl | rfl⟩ := h
  · simp [Label.Unentering]
  · simp [Label.Unentering]

theorem Label.Lives.unentering {a : Label} (h : Label.Lives r a) : a.Unentering := by
  rcases h with rfl | ⟨told, rfl⟩ | h
  · simp [Label.Unentering]
  · simp [Label.Unentering]
  · exact h.unentering

section

variable {ν : Type} {send : SessionId → Packet → Game ν → Outcome (Game ν)} {W : SessionId → ν → Prop}
  {B : Scene → Msg → ν → ν → Prop} {U : SessionId → Msg → ν → ν → Prop} {fuel : ℕ} {st : Game ν}

/-- A packet lets nobody enter. -/
theorem handlePacket_unentering {parse : List UInt8 → CMove} {buffer : List UInt8} (hs : Speaks send W B) (h : Good W st pins) :
    IfReturns (ServerPacketHandler.handlePacket parse send fuel s buffer st) fun st' =>
      Good W st' pins ∧ Does B U Label.Unentering st.stage st'.stage := by
  unfold ServerPacketHandler.handlePacket
  split
  · exact .error trivial
  split
  · unfold ServerPacketHandler.handleCMove
    dsimp only
    split
    · refine (handleCMove_spec (U := U) hs h _).imp fun st' h' => ?_
      obtain ⟨hgood, ⟨-, rfl⟩ | ⟨r, v, -, hreport, hswings⟩⟩ := h'
      · exact ⟨hgood, .refl⟩
      · have hreported : Does B U Label.Unentering st.stage v := .act hreport (by simp [Label.Unentering])
        exact ⟨hgood, hreported.trans (hswings.does.mono fun a ha => ha.unentering)⟩
    · exact .ok ⟨h, .refl⟩
  · exact .ok ⟨h, .refl⟩

/-- Nor does a monster. -/
theorem updateRoom_unentering {pick : Pick} (hs : Speaks send W B) (h : Good W st []) :
    IfReturns (Game.updateRoom send pick fuel st) fun st' =>
      Good W st' [] ∧ Does B U Label.Unentering st.stage st'.stage := by
  refine (updateRoom_spec (U := U) hs h).imp fun st' h' => ?_
  obtain ⟨hgood, hdoes⟩ := h'
  refine ⟨hgood, hdoes.mono fun a ha => ?_⟩
  obtain ⟨r, hlives⟩ := ha
  exact hlives.unentering

end

/-- What the creatures do. -/
theorem Does.related {R : Net → Net → Prop} (hrefl : ∀ net, R net net)
    (htrans : ∀ net net₁ net₂, R net net₁ → R net₁ net₂ → R net net₂) {v v' : Stage Net}
    (h : Does (fun _ _ => R) (fun _ _ => R) Label.Unentering v v') :
    R v.net v'.net ∧ v'.game.gameSessions = v.game.gameSessions := by
  obtain ⟨acts, hruns, hacts⟩ := h
  induction hruns with
  | nil => exact ⟨hrefl _, rfl⟩
  | @snoc acts v₁ a v₂ _ hact ih =>
    obtain ⟨hR, hsame⟩ := ih fun b hb => hacts b (List.mem_append_left _ hb)
    obtain ⟨hR', hsame'⟩ := hact.related hrefl htrans
    have ha : a.Unentering := hacts a (List.mem_append_right _ List.mem_cons_self)
    refine ⟨htrans _ _ _ hR hR', funext fun s => ?_⟩
    rw [hsame' s (ha s), hsame]

theorem Does.hushed {v v' : Stage Net} (h : Does Hushed (fun _ _ => Quiet) Label.Unentering v v') :
    Quiet v.net v'.net ∧ v'.game.gameSessions = v.game.gameSessions :=
  Does.related Quiet.refl (fun _ _ _ hq hq' => hq.trans hq') h

/-- A function of the room that returns, without `EnterRoom`. -/
theorem Peopled.acts (h : Peopled st) (hgood : Good (Present fun _ => False) st' [])
    (hdone : Quiet st.net st'.net ∧ st'.game.gameSessions = st.game.gameSessions) : Peopled st' := by
  obtain ⟨hq, hsame⟩ := hdone
  refine ⟨hgood, ?_⟩
  rw [hsame, hq.undisturbed.onConnected]
  exact h.tied

end ZeldaServer
