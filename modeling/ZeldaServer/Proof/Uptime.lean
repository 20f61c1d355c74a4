import ZeldaServer.Proof.Refines
import ZeldaServer.Proof.Returns

/-!
# The server goes on

As long as no socket call fails, no turn of the main loop is the last one: whatever has
happened, every turn that can come returns, if what it sends fits into packets, what arrives
can be cut into packets, and the objects of the room have small coordinates. No assertion
fails then, nothing is read that is not there, and no loop goes on for ever.

The room halts over its outboxes (`RoomOp.run_halts`), and the server does what the room does.

* `Reflected.halts`: an operation of the room halts over the sessions of the server.
* `processConnect_halts`, `processRecv_halts`, `disconnect_halts`
* `server_goes_on`
-/

namespace ZeldaServer

open Lib Std

variable {st st' : Server Room} {g : Game Outboxes} {s : SessionId} {ledger : Ledger} {ledgers : SessionId → Ledger}
  {parse : List UInt8 → CMove} {fuel fuel' n n' : ℕ} {op : RoomOp} {ops : List RoomOp} {registered : Finset SessionId}

/-! ## The room over the sessions -/

/-- The same sessions, whose socket calls do not fail. -/
def Unfailing (net net' : Net) : Prop := net = net' ∧ Succeed net.answers

/-- More fuel does not change what a send does. -/
theorem api_alike (hn : n ≤ n') : SendsAlike Unfailing Whatever (api (gameContent parse fuel) n).send
    (api (gameContent parse fuel') n').send := by
  intro s p st st' h _ _
  obtain ⟨heq, hanswers⟩ := h.net
  cases n with
  | zero => exact .error
  | succ n =>
    obtain ⟨n', rfl⟩ : ∃ k, n' = k + 1 := ⟨n' - 1, by omega⟩
    show Matches _ (Session.send _ s p st) (Session.send _ s p st')
    rw [send_now hanswers, send_now (heq ▸ hanswers)]
    refine .ok ⟨h.game, ⟨?_, hanswers.unspent s⟩, fun _ _ _ => trivial⟩
    show ({ st.net.modify s (·.sent p) with answers := Server.unspent st s } : Net) =
      { st'.net.modify s (·.sent p) with answers := Server.unspent st' s }
    unfold Server.unspent
    rw [heq]

/-- More fuel does not change what an operation does, if no socket call fails. -/
theorem server_more (k : ℕ) (hanswers : Succeed st.net.answers) (hfuel : fuel ≤ fuel')
    (h : op.run (api (gameContent parse fuel) (fuel - k)).send fuel st = .ok st') :
    op.run (api (gameContent parse fuel') (fuel' - k)).send fuel' st = .ok st' := by
  have htwins : Twins Unfailing Whatever st st := ⟨rfl, ⟨rfl, hanswers⟩, fun _ _ _ => trivial⟩
  have hsend : SendsAlike Unfailing Whatever (api (gameContent parse fuel) (fuel - k)).send
      (api (gameContent parse fuel') (fuel' - k)).send := api_alike (by omega)
  obtain ⟨st'', hst'', hsame⟩ := RoomOp.run_matches hsend hfuel whatever_kindly htwins op (fun _ _ => trivial) st' h
  obtain ⟨net, game⟩ := st'
  obtain ⟨net', game'⟩ := st''
  obtain rfl : game = game' := hsame.game
  obtain rfl : net = net' := hsame.net.1
  exact hst''

/-- What goes into an outbox is sent, and no session is registered or released. -/
theorem post_mirrored : SendsAlike (fun out (net : Net) => Streams ledgers net out ∧ net.sessions = registered) Whatever post
    (api (gameContent parse fuel) (n + 1)).send := by
  intro s p g st h hp _
  show Matches _ _ (Session.send _ s p st)
  rw [send_now h.net.1.answers]
  exact .ok ⟨h.game, ⟨(h.net.1.send s hp).answering (h.net.1.answers.unspent s), h.net.2⟩, fun _ _ _ => trivial⟩

/-- **An operation of the room halts over the sessions** if it does over outboxes. -/
theorem Reflected.halts (k : ℕ) (h : Reflected ledgers st g) (hop : Halts (fun fuel => op.run post fuel g) (RoomStep g op)) :
    Halts (fun fuel => op.run (api (gameContent parse fuel) (fuel - k)).send fuel st) fun st' =>
      ∃ g', RoomStep g op g' ∧ Reflected ledgers st' g' ∧ st'.net.sessions = st.net.sessions := by
  obtain ⟨g', hstep, n, hn⟩ := hop
  have htwins : Twins (fun out (net : Net) => Streams ledgers net out ∧ net.sessions = st.net.sessions) Whatever g st :=
    ⟨h.game.symm, ⟨h.net, rfl⟩, fun _ _ _ => trivial⟩
  obtain ⟨st', hst', hend⟩ : ∃ st', op.run (api (gameContent parse (n + k + 1)) (n + 1)).send (n + k + 1) st = .ok st' ∧ _ :=
    RoomOp.run_matches post_mirrored (Nat.le_refl _) whatever_kindly htwins op (fun _ _ => trivial) g' (hn (n + k + 1) (by omega))
  have hlevel : n + k + 1 - k = n + 1 := by omega
  rw [← hlevel] at hst'
  refine .of_mono (fun fuel fuel' st' hfuel => server_more k h.net.answers hfuel) ⟨st', hst', g', hstep, ?_, hend.net.2⟩
  exact Reflected.of hend.game.symm hend.net.1

/-! ## Disconnect -/

/-- **`Disconnect` halts**: a session that is connected can be released. -/
theorem disconnect_halts (h : Reflected (Function.update ledgers s ledger) (st.modify s Session.close) g)
    (hroom : Runs RoomStep roomStart ops g) (hin : (st.net.session s).connected = true → s ∈ st.net.sessions) :
    Halts (fun fuel => (api (gameContent parse fuel) fuel).disconnect s st) fun st' =>
      ∃ g', HangsUp (st.net.session s).connected s g g' ∧ Reflected (Function.update ledgers s ledger) st' g' := by
  have hhalts : Halts (fun fuel => (api (gameContent parse fuel) fuel).disconnect s st) fun _ => True := by
    have hunfold : ∀ fuel, 1 ≤ fuel → (api (gameContent parse fuel) fuel).disconnect s st =
        Session.disconnect (GameSession.onDisconnected (gameContent parse fuel) (api (gameContent parse fuel) (fuel - 1))) s st := by
      intro fuel hfuel
      obtain ⟨n, rfl⟩ : ∃ n, fuel = n + 1 := ⟨fuel - 1, by omega⟩
      rfl
    refine Halts.congr ?_ 1 hunfold
    unfold Session.disconnect
    by_cases hdown : (st.session s).connected = false
    · simp only [if_pos hdown]
      exact .ok trivial
    simp only [if_neg hdown]
    have hparting : Reflected (Function.update ledgers s ledger) (st.parting s) g := h.change rfl (h.net.change rfl rfl rfl)
    have hleave : Halts (fun fuel => (RoomOp.leaveRoom s).run (api (gameContent parse fuel) (fuel - 1)).send fuel (st.parting s)) _ :=
      hparting.halts 1 (RoomOp.run_halts hroom trivial trivial)
    refine hleave.bind fun st₁ h₁ => ?_
    obtain ⟨-, -, -, hsessions⟩ := h₁
    have hmem : s ∈ st₁.net.sessions := by
      rw [hsessions]
      exact hin (Bool.not_eq_false _ ▸ hdown)
    unfold Service.releaseSession
    rw [if_pos hmem]
    exact .ok trivial
  exact (hhalts.and fun fuel => disconnect_reflected parse fuel fuel h).imp fun _ h' => h'.2

/-! ## Connections -/

/-- `RegisterRecv` does not look at the fuel, if its socket call does not fail. -/
theorem registerRecv_halts (hanswers : Succeed st.net.answers) (recvBuffer : RecvBuffer) (posted : Option ℤ) :
    Halts (fun fuel => registerRecv (Session.recvApi (gameContent parse fuel) fuel s) ⟨recvBuffer, posted, st⟩)
      fun side => Succeed side.rest.net.answers := by
  obtain ⟨answers, hleft, hposts⟩ := registerRecv_now hanswers s recvBuffer posted
  exact ⟨_, hleft, 0, fun fuel _ => hposts parse fuel⟩

/-- **`ProcessConnect` halts**, if the records of the room fit into one packet. -/
theorem processConnect_halts (h : Reflected ledgers st g) (hroom : Runs RoomStep roomStart ops g) (hnew : st.net.onConnected s = 0)
    (hfresh : (g.game.gameSessions s).player = none) (hempty : g.net s = []) (hfits : (RoomOp.enterRoom s).Fits g) :
    Halts (fun fuel => Session.processConnect (gameContent parse fuel) fuel s st) fun _ => True := by
  obtain ⟨p, hp⟩ := makeSEnterGame_ok
  have hmsg : p.msg = .enterGame true 0 := ServerPacketHandler.make_msg hp
  have hmade : p.Made := by
    rw [Packet.Made, hmsg]
    exact hp
  have hgreeted : Halts (fun fuel => (api (gameContent parse fuel) fuel).send s p { st with net := st.net.enrol s })
      fun st₁ => Reflected (Function.update ledgers s { ledgers s with connected := true }) st₁ g := by
    have hanswers : Succeed ({ st with net := st.net.enrol s } : Server Room).net.answers := h.net.answers
    refine ⟨(Server.modify { st with net := st.net.enrol s } s (·.sent p)).answering (Server.unspent { st with net := st.net.enrol s } s),
      Reflected.of h.game ((h.net.enrol hnew hempty hmade hmsg).answering (hanswers.unspent s)), 1, fun fuel hfuel => ?_⟩
    obtain ⟨n, rfl⟩ : ∃ n, fuel = n + 1 := ⟨fuel - 1, by omega⟩
    exact send_now hanswers
  have henters : ∀ st₁, Reflected (Function.update ledgers s { ledgers s with connected := true }) st₁ g →
      Halts (fun fuel => (RoomOp.enterRoom s).run (api (gameContent parse fuel) fuel).send fuel st₁)
        fun st' => Succeed st'.net.answers := by
    intro st₁ h₁
    have hop := RoomOp.run_halts hroom (show (RoomOp.enterRoom s).Fresh g from hfresh) hfits
    refine (h₁.halts 0 hop).imp fun st' h' => ?_
    obtain ⟨g', -, h', -⟩ := h'
    exact h'.net.answers
  unfold Session.processConnect GameSession.onConnected
  rw [hp]
  refine Halts.bind (hgreeted.bind henters) fun st₂ hanswers => ?_
  exact (registerRecv_halts hanswers _ _).bind fun side _ => .ok trivial

/-! ## What arrives -/

/-- The packet has a header, and if it moves an object then this can be told. -/
def Tellable (parse : List UInt8 → CMove) (packet : List UInt8) : Prop :=
  sizeofPacketHeader ≤ packet.length ∧
    (IsMove packet → (Msg.move (parse (ServerPacketHandler.payload packet)).info).serialize.length < 65532)

theorem deliver_halts (packets : List (List UInt8)) (h : Reflected ledgers st g) (hroom : Runs RoomStep roomStart ops g)
    (hentered : Entered g s) (hfits : ∀ packet ∈ packets, Tellable parse packet) :
    Halts (fun fuel => deliverAll ((gameContent parse fuel).handlePacket (api (gameContent parse fuel) fuel) s) packets st)
      fun st' => Succeed st'.net.answers := by
  induction packets generalizing st g ops with
  | nil => exact .ok h.net.answers
  | cons packet packets ih =>
    simp only [deliverAll_cons]
    obtain ⟨hheader, hmove⟩ := hfits packet List.mem_cons_self
    have hhandled : Halts (fun fuel => (gameContent parse fuel).handlePacket (api (gameContent parse fuel) fuel) s packet st)
        fun st' => ∃ g' ops', Runs RoomStep roomStart ops' g' ∧ Entered g' s ∧ Reflected ledgers st' g' := by
      show Halts (fun fuel => ServerPacketHandler.handlePacket parse _ fuel s packet st) _
      unfold ServerPacketHandler.handlePacket
      simp only [if_neg (Nat.not_lt.2 hheader)]
      by_cases his : IsMove packet
      · have hgame : (st.game.gameSessions s).gameRoom = true := by
          rw [h.game]
          exact hentered.1
        simp only [if_pos (show (PacketHeader.read packet).id = C_Move from his)]
        unfold ServerPacketHandler.handleCMove
        simp only [if_pos hgame]
        have hfresh : (RoomOp.handleCMove (parse (ServerPacketHandler.payload packet))).Fresh g := trivial
        refine (h.halts 0 (RoomOp.run_halts hroom hfresh (hmove his))).imp fun st' h' => ?_
        obtain ⟨g', hstep, h', -⟩ := h'
        exact ⟨g', _, hroom.snoc hstep, Entered.step (run_good hroom).1 hstep (.inl hentered), h'⟩
      · simp only [if_neg (show ¬ (PacketHeader.read packet).id = C_Move from his)]
        exact .ok ⟨g, ops, hroom, hentered, h⟩
    refine hhandled.bind fun st₁ h₁ => ?_
    obtain ⟨g₁, ops₁, hroom₁, hentered₁, h₁⟩ := h₁
    exact ih h₁ hroom₁ hentered₁ fun packet' hmem => hfits packet' (List.mem_cons_of_mem _ hmem)

/-- **A receive of some bytes halts**, if they can be cut into packets that can be handled. -/
theorem processRecv_halts (h : Reflected ledgers st g) (hroom : Runs RoomStep roomStart ops g) (hentered : Entered g s)
    (hok : RecvOK (⟨(ledgers s).recvBuffer, (ledgers s).posted, ()⟩ : RecvSide Unit)) {bytes : List UInt8}
    (hreceivable : Receivable (⟨(ledgers s).recvBuffer, (ledgers s).posted, ()⟩ : RecvSide Unit) bytes)
    {packets : List (List UInt8)} {rest : List UInt8} (hcut : Cut packetFormat ((ledgers s).recvBuffer.unread ++ bytes) packets rest)
    (hfits : ∀ packet ∈ packets, Tellable parse packet) :
    Halts (fun fuel => Session.processRecv (gameContent parse fuel) fuel s bytes st) fun _ => True := by
  have hok : RecvOK (⟨(ledgers s).recvBuffer, (ledgers s).posted, st⟩ : RecvSide (Server Room)) :=
    ⟨hok.buffer, hok.unread, hok.room, hok.posted⟩
  have hreceivable : Receivable (⟨(ledgers s).recvBuffer, (ledgers s).posted, st⟩ : RecvSide (Server Room)) bytes := hreceivable
  obtain ⟨written, hwritten⟩ : ∃ b, b = RecvSide.written ⟨(ledgers s).recvBuffer, (ledgers s).posted, st⟩ bytes := ⟨_, rfl⟩
  rw [← hok.written_unread hreceivable, ← hwritten] at hcut
  unfold Session.processRecv Session.onRecvSide
  rw [show (st.session s).recvBuffer = (ledgers s).recvBuffer from (h.net.keeps s).recvBuffer,
    show (st.session s).posted = (ledgers s).posted from (h.net.keeps s).posted]
  refine Halts.bind (P := fun side => Succeed side.rest.net.answers) ?_ fun side _ => .ok trivial
  -- `OnRecv` hands the packets on, whatever the fuel is, and the rest stays in the buffer
  have hdelivers : ∀ fuel, packets.length + 1 ≤ fuel → ZeldaServer.processRecv (Session.recvApi (gameContent parse fuel) fuel s) fuel
      bytes ⟨(ledgers s).recvBuffer, (ledgers s).posted, st⟩ =
        (deliverAll ((gameContent parse fuel).handlePacket (api (gameContent parse fuel) fuel) s) packets st >>= fun st' =>
          registerRecv (Session.recvApi (gameContent parse fuel) fuel s)
            ⟨(written.onRead ((written.unread.length : ℤ) - rest.length)).2.clean, none, st'⟩) := by
    intro fuel hfuel
    rw [processRecv_spec hok hreceivable, ← hwritten]
    have hloop : onRecv (Session.recvApi (gameContent parse fuel) fuel s).onRecvPacket fuel written.unread st = _ :=
      onRecvLoop_cut _ fuel 0 (Nat.zero_le _) hcut hfuel st
    rw [hloop, bind_assoc]
    rfl
  refine Halts.congr ?_ (packets.length + 1) hdelivers
  refine (deliver_halts packets h hroom hentered hfits).bind fun st₁ hanswers => ?_
  exact registerRecv_halts hanswers _ none

/-- A receive of no bytes halts. -/
theorem processRecv_nil_halts (h : Reflected ledgers st g) (hroom : Runs RoomStep roomStart ops g)
    (hin : (st.net.session s).connected = true → s ∈ st.net.sessions) :
    Halts (fun fuel => Session.processRecv (gameContent parse fuel) fuel s [] st) fun _ => True := by
  have hclosed := h.modify (f := Session.close) (h.net.keeps s).close
  unfold Session.processRecv Session.onRecvSide ZeldaServer.processRecv
  simp only [List.length_nil, if_true, bind_assoc]
  exact (disconnect_halts hclosed hroom hin).bind fun st₁ _ => .ok trivial

/-! ## Sends that complete -/

/-- **`ProcessSend` halts**. -/
theorem processSend_halts (h : Reflected ledgers st g) (hroom : Runs RoomStep roomStart ops g)
    (hin : (st.net.session s).connected = true → s ∈ st.net.sessions) (numOfBytes : ℤ) :
    Halts (fun fuel => Session.processSend (gameContent parse fuel) fuel s numOfBytes st) fun _ => True := by
  by_cases hbytes : numOfBytes = 0
  · have hclosed := h.modify (f := Session.close ∘ Session.complete) (h.net.keeps s).complete_close
    rw [← Server.modify_modify] at hclosed
    have hin' : ((st.modify s Session.complete).net.session s).connected = true → s ∈ (st.modify s Session.complete).net.sessions := by
      rw [show (st.modify s Session.complete).net.session s = (st.net.session s).complete from modify_same s Session.complete]
      exact hin
    unfold Session.processSend
    simp only [if_pos hbytes]
    exact (disconnect_halts hclosed hroom hin').imp fun _ _ => trivial
  · obtain ⟨answers, -, hprocess⟩ := processSend_now h.net.answers s hbytes
    exact ⟨_, trivial, 0, fun fuel _ => hprocess parse fuel⟩

/-! ## The next turn -/

/-- The records of the room fit into one packet, and what arrives can be cut into packets that
can be handled. -/
def Event.Fits (parse : List UInt8 → CMove) (st : Server Room) : Event → Prop
  | .accept _ true _ | .connected _ => ∀ objects, st.game.Snapshot objects → (Msg.addObject objects).serialize.length < 65532
  | .received s bytes => bytes ≠ [] → ∃ packets rest,
      Cut packetFormat ((st.net.session s).recvBuffer.unread ++ bytes) packets rest ∧ ∀ packet ∈ packets, Tellable parse packet
  | .accept _ false _ | .connect | .sent _ _ => True

/-- ... and the searches for paths end: the coordinates are small, or no player is opposite to the map. -/
def Turn.Fits (parse : List UInt8 → CMove) (st : Server Room) : Turn → Prop
  | .dispatch event => event.Fits parse st
  | .update _ _ => st.game.toScene.Central ∨ st.game.Facing

variable {v : Observed} {w : World} {turn : Turn} {event : Event}

/-- **`Dispatch` halts**, whatever completes. -/
theorem dispatch_halts (h : Shows v w ledgers) (hattended : Attended v.server) (horderly : Orderly v.server)
    (henabled : event.Enabled v.server.net) (hfits : event.Fits parse v.server) :
    Halts (fun fuel => dispatch (gameContent parse fuel) fuel v.server event) fun _ => True := by
  obtain ⟨hpeople, haw⟩ := hattended
  obtain ⟨ops, hops⟩ := h.room
  have hin : ∀ s, (v.server.net.session s).connected = true → s ∈ v.server.net.sessions :=
    fun s hup => (horderly.registered.sessions s).2 (.inl hup)
  have hconnects : ∀ s, v.server.net.onConnected s = 0 →
      (∀ objects, v.server.game.Snapshot objects → (Msg.addObject objects).serialize.length < 65532) →
      Halts (fun fuel => Session.processConnect (gameContent parse fuel) fuel s v.server) fun _ => True := by
    intro s hnew hsmall
    obtain ⟨hfresh, hempty, -⟩ := h.fresh hpeople hnew
    refine processConnect_halts h.reflected hops hnew hfresh hempty ?_
    unfold RoomOp.Fits
    rw [← h.reflected.game]
    exact hsmall
  cases event with
  | accept i accepted retries =>
    obtain ⟨s, hs⟩ : ∃ s, v.server.net.acceptEvents[i]? = some s := ⟨_, List.getElem?_eq_getElem henabled⟩
    unfold dispatch
    simp only [hs]
    cases accepted with
    | false => exact .ok trivial
    | true =>
      have hnew := (haw.accept s (List.mem_of_getElem? hs) id).1
      exact (hconnects s hnew hfits).bind fun st _ => .ok trivial
  | connect => exact .ok trivial
  | connected s => exact hconnects s (haw.connecting s henabled).2 hfits
  | received s bytes =>
    unfold dispatch
    by_cases hnil : bytes = []
    · simp only [hnil]
      exact processRecv_nil_halts h.reflected hops (hin s)
    · have hkeeps := h.reflected.net.keeps s
      obtain ⟨len, hposted, hlen⟩ := henabled
      rw [hkeeps.posted] at hposted
      obtain ⟨packets, rest, hcut, htellable⟩ := hfits hnil
      rw [hkeeps.recvBuffer] at hcut
      have hentered := h.entered s (.inr (by rw [hposted]; exact Option.some_ne_none len))
      exact processRecv_halts h.reflected hops hentered (h.reads s).ok ⟨len, hposted, List.length_pos_iff.2 hnil, hlen⟩ hcut htellable
  | sent s numOfBytes => exact processSend_halts h.reflected hops (hin s) numOfBytes

/-- **Any turn halts.** -/
theorem turn_halts (h : Shows v w ledgers) (hattended : Attended v.server) (horderly : Orderly v.server)
    (henabled : turn.Enabled v.server.net) (hfits : turn.Fits parse v.server) :
    Halts (fun fuel => turn.run parse fuel v.server) fun _ => True := by
  cases turn with
  | dispatch event => exact dispatch_halts h hattended horderly henabled hfits
  | update ticks pick =>
    obtain ⟨ops, hops⟩ := h.room
    have hends : (RoomOp.update ticks pick).Fits w.game := by
      unfold RoomOp.Fits
      rw [← h.reflected.game]
      exact hfits
    exact (h.reflected.halts 0 (RoomOp.run_halts hops (show (RoomOp.update ticks pick).Fresh w.game from trivial) hends)).imp
      fun _ _ => trivial

/-! ## Runs -/

/-- Every run can be observed. -/
theorem observed_of_leads {st₀ : Server Room} {rounds : List Round} (hrun : Runs (Leads parse) st₀ rounds st) :
    ∃ v : Observed, v.server = st ∧ Runs (Observes parse) { server := st₀ } rounds v := by
  induction hrun with
  | nil => exact ⟨_, rfl, .nil⟩
  | @snoc rounds st e st' _ hleads ih =>
    obtain ⟨v, rfl, hruns⟩ := ih
    refine ⟨⟨st', e.turn.completes v.server.net v.completed, e.turn.receives v.received⟩, rfl, ?_⟩
    exact hruns.snoc ⟨hleads, rfl, rfl⟩

/-- **The server goes on.** In every state that the main loop reaches while no socket call
fails, every turn that can come, and in which none fails, returns, and returns the same for all
amounts of fuel from some amount on, if its packets fit, what arrives can be cut into packets,
and, for an update, no object in the room is far away or no player is opposite to a cell of the
map. -/
theorem server_goes_on {tilemap : TileMap} {acceptCount : ℕ} {st₀ : Server Room} {rounds : List Round}
    (hboot : boot parse fuel tilemap acceptCount = .ok st₀) (hrun : Runs (Leads parse) st₀ rounds st)
    (hanswers : ∀ e ∈ rounds, Succeed e.answers) {next : Round} (hnext : Succeed next.answers)
    (henabled : next.turn.Enabled st.net) (hfits : next.turn.Fits parse st) :
    ∃ st' least, ∀ fuel, least ≤ fuel → next.run parse fuel st = .ok st' := by
  obtain ⟨v, rfl, hobserved⟩ := observed_of_leads hrun
  obtain ⟨g, happenings, w, ledgers, hinit, hmeans, hworld, hshows⟩ := run_shows hboot hobserved hanswers
  have hattended : Attended v.server := run_attended (boot_attended.result hboot) hrun fun e he => (hanswers e he).calm
  obtain ⟨st', -, least, hleast⟩ := turn_halts (hshows.answering hnext) (hattended.answering next.answers)
    ((run_orderly hboot hrun).answering next.answers) henabled hfits
  exact ⟨st', least, hleast⟩

/-- The second half of a packet arrives, which moves the player of the session; a send of it is
pending. -/
theorem server_goes_on_greeted : ∃ st₀ st, boot (fun _ => {}) 20 {} 1 = .ok st₀ ∧ Runs (Leads fun _ => {}) st₀ greeted st ∧
    ∃ st' least, ∀ fuel, least ≤ fuel →
      ({ turn := .dispatch (.received 0 [10, 0]), answers := [.socketError WSA_IO_PENDING] } : Round).run (fun _ => {}) fuel st =
        .ok st' := by
  have hrun : (playExec greeted).map (fun st => ((st.net.session 0).recvBuffer.unread, (st.net.session 0).posted)) =
      some ([4, 0], some 655358) := by decide +kernel
  obtain ⟨st, hst, heq⟩ := Option.map_eq_some_iff.1 hrun
  obtain ⟨hunread, hposted⟩ := Prod.mk.inj heq
  obtain ⟨st₀, hboot, hruns⟩ := playExec_runs hst
  refine ⟨st₀, st, hboot, hruns, server_goes_on hboot hruns (by decide) (by decide) ⟨655358, hposted, by decide⟩ fun _ => ?_⟩
  rw [hunread]
  refine ⟨_, _, .next (by decide) (.stop (by decide)), fun packet hpacket => ?_⟩
  rw [List.mem_singleton.1 hpacket]
  exact ⟨by decide, fun _ => by decide⟩

end ZeldaServer
