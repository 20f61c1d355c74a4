import ZeldaServer.Proof.Presence

/-!
# Every player plays a connected session

`Peopled` holds after every event unless a session is connected and one of its first
three sends is reset: `S_EnterGame`, `S_MyPlayer` and `S_AddObject` go out before
`AddObject` puts the player into the room, and a session that is disconnected then has
nothing to leave yet.

* `processConnect_settled`: a session that is welcomed enters.
* `players_connected`: all runs in which every new session is welcomed.
-/

namespace ZeldaServer

open Lib Std

variable {net : Net} {st st' : Server Room} {s : SessionId} {parse : List UInt8 → CMove} {fuel n : ℕ}

/-! ## Calls of the main loop -/

theorem disconnect_settled (s : SessionId) :
    Preserves (fun _ => True) (Settled net) ((api (gameContent parse fuel) n).disconnect s) := by
  cases n with
  | zero => exact fun _ _ => .error trivial
  | succ n =>
    intro st h
    obtain ⟨hpeople, hu⟩ := h
    refine (disconnect_spec parse fuel (api_speaks parse fuel n) hpeople.good).imp fun st' h' => ?_
    obtain ⟨hgood, hu', hsame, -⟩ := h'
    refine ⟨⟨hgood, ?_⟩, hu.trans hu'⟩
    rw [hsame, hu'.onConnected]
    exact hpeople.tied

theorem handlePacket_settled (s : SessionId) (buffer : List UInt8) : Preserves (fun _ => True) (Settled net)
    ((gameContent parse fuel).handlePacket (api (gameContent parse fuel) n) s buffer) := by
  intro st h
  obtain ⟨hpeople, hu⟩ := h
  refine (handlePacket_unentering (U := fun _ _ => Quiet) (api_speaks parse fuel n _) hpeople.good).imp fun st' h' => ?_
  obtain ⟨hgood, hdoes⟩ := h'
  have hquiet := hdoes.hushed
  exact ⟨hpeople.acts hgood hquiet, hu.trans hquiet.1.undisturbed⟩

variable (parse) in
theorem update_settled {pick : Pick} : Preserves (fun _ => True) (Settled net)
    (Game.updateRoom (api (gameContent parse fuel) n).send pick fuel) := by
  intro st h
  obtain ⟨hpeople, hu⟩ := h
  refine (updateRoom_unentering (U := fun _ _ => Quiet) (api_speaks parse fuel n _) hpeople.good).imp fun st' h' => ?_
  obtain ⟨hgood, hdoes⟩ := h'
  have hquiet := Does.hushed hdoes
  exact ⟨hpeople.acts hgood hquiet, hu.trans hquiet.1.undisturbed⟩

/-! ## A new session -/

/-- None of the next `i` sends of a session is reset. When one of them is under way, the
others wait in the queue. -/
def NoReset : ℕ → List WsaResult → Bool
  | 0, _ => true
  | _ + 1, [] => true
  | i + 1, answer :: answers =>
    match answer.failed with
    | none => true
    | some errorCode => !isReset errorCode && NoReset i answers

/-- The next `i` sends of the session do not disconnect it. -/
def Welcome (s : SessionId) (i : ℕ) (net : Net) : Prop :=
  (net.session s).connected = true ∧ ((net.session s).side.sendResitered = true ∨ NoReset i net.answers = true)

/-- What is to be sent after a change of it. -/
theorem queue_side (st : Server Room) (s : SessionId) (g : Session → SendSide Packet) (w : Session → List (List Packet)) :
    ((Server.modify st s fun x => { x with side := g x, wire := w x }).net.session s).side = g (st.net.session s) :=
  congrArg Session.side (modify_same s fun x => { x with side := g x, wire := w x })

theorem wsa_session (st : Server Room) (s : SessionId) : st.wsa.2.net.session s = st.net.session s := by
  rw [wsa_snd]

/-- A send that fails is not a reset, and neither are the next ones. -/
theorem wsa_calm {i : ℕ} (hcalm : NoReset (i + 1) st.net.answers = true) (code : ℤ) (hcode : st.wsa.1.failed = some code) :
    isReset code = false ∧ NoReset i st.wsa.2.net.answers = true := by
  unfold Server.wsa at hcode ⊢
  cases hanswers : st.net.answers with
  | nil =>
    rw [hanswers] at hcode
    exact absurd hcode.symm (Option.some_ne_none code)
  | cons answer answers =>
    rw [hanswers] at hcode hcalm
    unfold NoReset at hcalm
    dsimp only at hcode
    rw [hcode] at hcalm
    dsimp only at hcalm ⊢
    rw [Bool.and_eq_true, Bool.not_eq_true'] at hcalm
    exact hcalm

/-- `RegisterSend`, with the flag taken. -/
theorem registerSend_welcome {disconnect : SessionId → Server Room → Outcome (Server Room)} {i : ℕ}
    (hup : (st.net.session s).connected = true) (hflag : (st.net.session s).side.sendResitered = true)
    (hcalm : NoReset (i + 1) st.net.answers = true) :
    IfReturns (Session.registerSend disconnect s st) fun st' =>
      st'.game = st.game ∧ Quiet st.net st'.net ∧ Welcome s i st'.net := by
  unfold Session.registerSend
  split
  · rename_i hdown
    rw [show (st.net.session s).connected = false from hdown] at hup
    exact absurd hup Bool.false_ne_true
  dsimp only
  have hq₁ := Quiet.queue st s (fun x => x.side.clear.drain) (fun x => x.wire)
  have hflag₁ := (congrArg SendSide.sendResitered (queue_side st s (fun x => x.side.clear.drain) fun x => x.wire)).trans hflag
  generalize hst₁ : (Server.modify st s fun x => { x with side := x.side.clear.drain, wire := x.wire }) = st₁ at hq₁ hflag₁
  have hsame : st₁.game = st.game ∧ st₁.net.answers = st.net.answers := by
    rw [← hst₁]
    exact ⟨rfl, rfl⟩
  obtain ⟨hgame₁, hanswers₁⟩ := hsame
  -- the answer of `WSASend`
  have hq₂ := hq₁.trans (.wsa st₁)
  have hgame₂ := (wsa_game st₁).trans hgame₁
  have hflag₂ := (congrArg (fun x => x.side.sendResitered) (wsa_session st₁ s)).trans hflag₁
  rw [← hanswers₁] at hcalm
  have hcalm₂ := wsa_calm hcalm
  generalize st₁.wsa = answered at hq₂ hgame₂ hflag₂ hcalm₂
  obtain ⟨result, st₂⟩ := answered
  dsimp only at hq₂ hgame₂ hflag₂ hcalm₂ ⊢
  have hup₂ := (hq₂.connected s).trans hup
  split
  · -- the send is under way
    have hq₃ := Quiet.queue st₂ s (fun x => x.side) (fun x => x.wire ++ [x.side.sendBuffers])
    have hside₃ := queue_side st₂ s (fun x => x.side) (fun x => x.wire ++ [x.side.sendBuffers])
    refine .ok ⟨hgame₂, hq₂.trans hq₃, (hq₃.connected s).trans hup₂, .inl ?_⟩
    exact (congrArg SendSide.sendResitered hside₃).trans hflag₂
  · rename_i code hcode
    obtain ⟨hreset, hcalm₃⟩ := hcalm₂ code hcode
    have hq₃ := Quiet.queue st₂ s (fun x => x.side.release) (fun x => x.wire)
    unfold Session.handleError
    rw [if_neg (by rw [hreset]; exact Bool.false_ne_true)]
    exact .ok ⟨hgame₂, hq₂.trans hq₃, (hq₃.connected s).trans hup₂, .inr hcalm₃⟩

/-- What is sent to a session that is welcomed. -/
theorem welcome_tells (s : SessionId) : Tells (api (gameContent parse fuel) n).send (Present fun _ => False)
    (fun _ _ => Quiet) (Welcome s) s := by
  refine ⟨?_, fun net h => .inl h.1⟩
  intro i packet st pins h hw
  cases n with
  | zero => exact .error trivial
  | succ n =>
    show IfReturns (Session.send _ s packet st) _
    unfold Session.send
    dsimp only
    have hq₁ := Quiet.queue st s (fun _ => ((st.net.session s).side.push packet).2) (fun x => x.wire)
    have hside₁ := queue_side st s (fun _ => ((st.net.session s).side.push packet).2) (fun x => x.wire)
    have hup₁ := (hq₁.connected s).trans hw.1
    have hflag₁ := (congrArg SendSide.sendResitered hside₁).trans (show _ = true from rfl)
    split
    · rename_i hfree
      -- the flag was free: this send goes out
      have hcalm : NoReset (i + 1) st.net.answers = true := by
        refine hw.2.resolve_left fun hflag => ?_
        unfold SendSide.push at hfree
        dsimp only at hfree
        rw [show (Server.session st s).side.sendResitered = true from hflag] at hfree
        exact absurd hfree (by decide)
      refine (registerSend_welcome hup₁ hflag₁ hcalm).imp fun st' h' => ?_
      obtain ⟨hgame, hq, hw'⟩ := h'
      exact ⟨hgame, hq₁.trans hq, fun t ht => (hq₁.trans hq).present ht, hw'⟩
    · exact .ok ⟨rfl, hq₁, fun t ht => hq₁.present ht, hup₁, .inl hflag₁⟩

theorem enrol_connected {t : SessionId} (h : (net.session t).connected = true) :
    ((net.enrol s).session t).connected = true := by
  by_cases hts : t = s
  · rw [hts]
    simp [Net.enrol, Service.addSession, Net.modify]
  · rw [show (net.enrol s).session t = net.session t from modify_other (fun x => { x with connecting := false, connected := true }) hts]
    exact h

variable (parse fuel n) in
/-- A session that enters has a player, and has been connected. -/
theorem enter_settled (h : Peopled st) (hnew : st.net.onConnected s = 0) (hcalm : NoReset 3 st.net.answers = true)
    (p : Packet) : IfReturns ((api (gameContent parse fuel) n).send s p { st with net := st.net.enrol s } >>=
      (gameContent parse fuel).enterRoom (api (gameContent parse fuel) n) s) (Settled (st.net.enrol s)) := by
  have hfresh : (st.game.gameSessions s).player = none := by
    by_contra hplayer
    exact h.tied s hplayer hnew
  have hgood : Good (Present fun _ => False) { st with net := st.net.enrol s } [] :=
    h.good.rewatch rfl fun _ _ _ _ _ _ ht => ht.imp_left enrol_connected
  have hwelcome : Welcome s 3 (st.net.enrol s) := by
    refine ⟨?_, .inr hcalm⟩
    simp [Net.enrol, Service.addSession, Net.modify]
  -- S_EnterGame
  refine ((welcome_tells s).send 2 p _ [] hgood hwelcome).bind fun st₁ h₁ => ?_
  obtain ⟨hgame₁, hq₁, -, hwelcome₁⟩ := h₁
  have hgood₁ := hgood.quiet hgame₁ hq₁
  have hfresh₁ : (st₁.game.gameSessions s).player = none := by
    rw [hgame₁]
    exact hfresh
  refine (enterRoom_spec (api_speaks parse fuel n _) (welcome_tells s) hgood₁ hwelcome₁ hfresh₁).imp fun st' h' => ?_
  obtain ⟨hgood', hact⟩ := h'
  obtain ⟨hq, hsame⟩ := hact.related (R := Quiet) Quiet.refl fun _ _ _ hq hq' => hq.trans hq'
  have hu : Undisturbed (st.net.enrol s) st'.net := (hq₁.trans hq).undisturbed
  refine ⟨⟨hgood', fun t ht => ?_⟩, hu⟩
  rw [hu.onConnected]
  by_cases hts : t = s
  · rw [hts]
    simp [Net.enrol, Service.addSession, Net.modify]
  · have hplayer : (st.game.gameSessions t).player ≠ none := by
      have hsame := hsame t fun heq => hts (Label.enter.inj heq).symm
      rw [show st'.game.gameSessions t = st₁.game.gameSessions t from hsame, hgame₁] at ht
      exact ht
    rw [show (st.net.enrol s).onConnected t = st.net.onConnected t from Function.update_of_ne hts _ _]
    exact h.tied t hplayer

/-- **A session that is welcomed enters the room.** -/
theorem processConnect_settled (h : Peopled st) (hnew : st.net.onConnected s = 0)
    (hcalm : NoReset 3 st.net.answers = true) :
    IfReturns (Session.processConnect (gameContent parse fuel) fuel s st) (Settled (st.net.enrol s)) := by
  obtain ⟨p, hp⟩ := makeSEnterGame_ok
  unfold Session.processConnect GameSession.onConnected
  rw [hp]
  refine Post.bind (enter_settled parse fuel fuel h hnew hcalm p) fun st₁ h₁ => ?_
  exact preserves_onRecvSide settled_neutral
    (fun side hside => preserves_registerRecv settled_neutral disconnect_settled hside) st₁ h₁

/-! ## Runs -/

/-- A turn of the main loop, and what the socket calls answer meanwhile. -/
structure Round where
  turn : Turn
  answers : List WsaResult := []

namespace Round

/-- In a turn that connects a session, none of its first three sends is reset. -/
def Calm (e : Round) : Prop :=
  match e.turn with
  | .dispatch event => event.connects = true → NoReset 3 e.answers = true
  | .update _ _ => True

def run (parse : List UInt8 → CMove) (fuel : ℕ) (st : Server Room) (e : Round) : Outcome (Server Room) :=
  e.turn.run parse fuel { st with net := { st.net with answers := e.answers } }

end Round

/-- One turn, with any number of nested calls. -/
def Leads (parse : List UInt8 → CMove) (st : Server Room) (e : Round) (st' : Server Room) : Prop :=
  e.turn.Enabled st.net ∧ ∃ fuel, e.run parse fuel st = .ok st'

/-- The state after `GRoom->Init()` and `service->Start()`. -/
def boot (parse : List UInt8 → CMove) (fuel : ℕ) (tilemap : TileMap) (acceptCount : ℕ) : Outcome (Server Room) := do
  let st ← Game.init (api (gameContent parse fuel) fuel).send fuel tilemap { net := {}, game := {} }
  .ok { st with net := Net.start acceptCount }

/-- Between two turns. -/
structure Attended (st : Server Room) : Prop where
  people : Peopled st
  awaited : Awaited st.net fun _ => False

theorem Peopled.unchanged (h : Peopled st) (ha : Unchanged st.net net) : Peopled { st with net := net } := by
  refine ⟨h.good.rewatch rfl fun _ _ t _ _ _ ht => ht.imp_left fun hup => (ha.connected t).trans hup, ?_⟩
  show ∀ s, (st.game.gameSessions s).player ≠ none → net.onConnected s ≠ 0
  rw [ha.onConnected]
  exact h.tied

theorem boot_attended {tilemap : TileMap} {acceptCount : ℕ} :
    IfReturns (boot parse fuel tilemap acceptCount) Attended := by
  unfold boot
  refine (init_spec (U := fun _ _ => Quiet) (api_speaks parse fuel fuel fun _ => False) good_empty tilemap).bind
    fun st h => .ok ?_
  obtain ⟨hgood, hact⟩ := h
  obtain ⟨hq, hsame⟩ := hact.related (R := Quiet) Quiet.refl fun _ _ _ hq hq' => hq.trans hq'
  refine ⟨⟨hgood.rewatch rfl fun _ _ t _ _ _ ht => ht.imp_left fun hup => ?_, fun s hplayer => ?_⟩,
    (start_atRest acceptCount).awaited⟩
  · have hdown : (st.net.session t).connected = false := hq.connected t
    rw [hdown] at hup
    exact absurd hup Bool.false_ne_true
  · rw [show st.game.gameSessions s = {} from hsame s (by simp)] at hplayer
    exact absurd rfl hplayer

/-- Whatever the next socket calls answer. -/
theorem Attended.answering (h : Attended st) (answers : List WsaResult) : Attended (st.answering answers) := by
  have hunchanged : Unchanged st.net { st.net with answers := answers } := ⟨fun _ => rfl, rfl, rfl, rfl, rfl, rfl⟩
  obtain ⟨hpeople, haw⟩ := h
  exact ⟨hpeople.unchanged hunchanged, haw.nodup, haw.known, haw.accept, haw.connecting, haw.created⟩

/-- **One turn.** -/
theorem leads_attended {e : Round} (h : Attended st) (hcalm : e.Calm) (hleads : Leads parse st e st') : Attended st' := by
  obtain ⟨he, fuel, hrun⟩ := hleads
  obtain ⟨hpeople, haw⟩ := h.answering e.answers
  obtain ⟨turn, answers⟩ := e
  cases turn with
  | dispatch event =>
    refine Post.result (F := fun _ => True) (Q := Attended) ?_ hrun
    refine (dispatch_spec (I := Peopled) (fun _ _ ha hp => hp.unchanged ha) ?_ ?_ ?_ hpeople haw he).imp
      fun st' hst' => ⟨hst'.1, hst'.2⟩
    · exact fun hconnects s hnew => processConnect_settled hpeople hnew (hcalm hconnects)
    · exact fun s bytes => Preserves.processRecv trivial settled_neutral disconnect_settled handlePacket_settled bytes _
        ⟨hpeople, .refl _⟩
    · exact fun s numOfBytes => Preserves.processSend settled_neutral disconnect_settled numOfBytes _ ⟨hpeople, .refl _⟩
  | update ticks pick =>
    refine Post.result (F := fun _ => True) (Q := Attended) ?_ hrun
    have hticks : Peopled (Game.update { st with net := { st.net with answers := answers } }
        fun room => { room with ticks := ticks }) :=
      ⟨⟨hpeople.good.core, hpeople.good.counted.of_same rfl rfl rfl⟩, hpeople.tied⟩
    refine (update_settled parse _ ⟨hticks, .refl _⟩).imp fun st' hst' => ?_
    exact ⟨hst'.1, haw.undisturbed hst'.2⟩

/-- **A run**, by induction on its turns. -/
theorem run_attended {rounds : List Round} (h : Attended st) (hrun : Runs (Leads parse) st rounds st')
    (hcalm : ∀ e ∈ rounds, e.Calm) : Attended st' := by
  induction hrun with
  | nil => exact h
  | snoc _ hleads ih =>
    have hbefore := ih fun e he => hcalm e (List.mem_append_left _ he)
    exact leads_attended hbefore (hcalm _ (List.mem_append_right _ List.mem_cons_self)) hleads

/-- **The players of the room play connected sessions.** In every run of the main loop in
which the first three sends of a new session are not reset, in every state reached: every
player in `_players` belongs to a session that is connected. -/
theorem players_connected {tilemap : TileMap} {acceptCount : ℕ} {st₀ : Server Room} {rounds : List Round}
    (hboot : boot parse fuel tilemap acceptCount = .ok st₀) (hrun : Runs (Leads parse) st₀ rounds st)
    (hcalm : ∀ e ∈ rounds, e.Calm) (k : UInt64) (r : Ref) (hk : st.game.players[k]? = some r) :
    ∃ (o : GameObject) (session : SessionId), st.game.objects[r]? = some o ∧ o.kind = .player (some session) ∧
      (st.net.session session).connected = true := by
  have hattended := run_attended (boot_attended.result hboot) hrun hcalm
  obtain ⟨-, o, s, ho, hplays, -, -, hpresent⟩ := hattended.people.good.core.players k r hk
  exact ⟨o, s, ho, hplays.kind, hpresent.resolve_right id⟩

/-! ## Two runs -/

instance (net : Net) (turn : Turn) : Decidable (turn.Enabled net) :=
  match turn with
  | .dispatch event => inferInstanceAs (Decidable (event.Enabled net))
  | .update _ _ => inferInstanceAs (Decidable True)

/-- One turn, with fuel for a small server; no packet can be parsed. -/
def play (st : Server Room) (e : Round) : Option (Server Room) :=
  if e.turn.Enabled st.net then (e.run (fun _ => {}) 20 st).toOption else none

/-- A run of a server with one accept event. -/
def playExec (rounds : List Round) : Option (Server Room) := do
  let st₀ ← (boot (fun _ => {}) 20 {} 1).toOption
  rounds.foldlM play st₀

theorem playExec_runs {rounds : List Round} (h : playExec rounds = some st) :
    ∃ st₀, boot (fun _ => {}) 20 {} 1 = .ok st₀ ∧ Runs (Leads fun _ => {}) st₀ rounds st := by
  unfold playExec at h
  obtain ⟨st₀, hst₀, hst⟩ := Option.bind_eq_some_iff.1 h
  refine ⟨st₀, toOption_eq_some.1 hst₀, (Runs.ofFold play st₀ rounds hst).mono fun st₁ e st₂ hstep => ?_⟩
  unfold play at hstep
  split at hstep
  · rename_i he
    exact ⟨he, 20, toOption_eq_some.1 hstep⟩
  · exact absurd hstep.symm (Option.some_ne_none st₂)

/-- The first send fails, but is not reset; then the room is updated. -/
theorem players_connected_example : ∃ st₀ st, boot (fun _ => {}) 20 {} 1 = .ok st₀ ∧
    Runs (Leads fun _ => {}) st₀ [{ turn := .dispatch (.accept 0 true 0), answers := [.socketError 10055] },
      { turn := .update [0] fun _ => 0 }] st ∧
    st.game.players[(2 : UInt64)]? = some 1 ∧
    ∃ (o : GameObject) (session : SessionId), st.game.objects[1]? = some o ∧ o.kind = .player (some session) ∧
      (st.net.session session).connected = true := by
  have hrun : (playExec [{ turn := .dispatch (.accept 0 true 0), answers := [.socketError 10055] },
      { turn := .update [0] fun _ => 0 }]).map (fun st => st.game.players[(2 : UInt64)]?) = some (some 1) := by decide +kernel
  obtain ⟨st, hst, hplayer⟩ := Option.map_eq_some_iff.1 hrun
  obtain ⟨st₀, hboot, hruns⟩ := playExec_runs hst
  refine ⟨st₀, st, hboot, hruns, hplayer, players_connected hboot hruns ?_ 2 1 hplayer⟩
  intro e he
  rcases List.mem_cons.1 he with rfl | he
  · exact fun _ => by decide
  · rw [List.mem_singleton.1 he]
    trivial

/-- The first send of the first session is reset by its peer: its player enters the room,
and the session is not connected. -/
theorem zombie : ∃ st₀ st, boot (fun _ => {}) 20 {} 1 = .ok st₀ ∧
    Runs (Leads fun _ => {}) st₀ [{ turn := .dispatch (.accept 0 true 0), answers := [.socketError 10054] }] st ∧
    st.game.players[(2 : UInt64)]? = some 1 ∧
    ¬ ∃ (o : GameObject) (session : SessionId), st.game.objects[1]? = some o ∧ o.kind = .player (some session) ∧
      (st.net.session session).connected = true := by
  have hrun : (playExec [{ turn := .dispatch (.accept 0 true 0), answers := [.socketError 10054] }]).map
      (fun st => (st.game.players[(2 : UInt64)]?, (st.game.objects[1]?).map (·.kind), (st.net.session 0).connected)) =
      some (some 1, some (.player (some 0)), false) := by decide +kernel
  obtain ⟨st, hst, heq⟩ := Option.map_eq_some_iff.1 hrun
  obtain ⟨hplayer, heq⟩ := Prod.mk.inj heq
  obtain ⟨hkind, hdown⟩ := Prod.mk.inj heq
  obtain ⟨st₀, hboot, hruns⟩ := playExec_runs hst
  refine ⟨st₀, st, hboot, hruns, hplayer, ?_⟩
  rintro ⟨o, session, ho, hk, hup⟩
  rw [ho] at hkind
  have hsession : session = 0 := by
    have hkind := Option.some.inj hkind
    dsimp only at hkind
    rw [hk] at hkind
    exact Option.some.inj (Kind.player.inj hkind)
  rw [hsession, hdown] at hup
  exact absurd hup Bool.false_ne_true

end ZeldaServer
