import ZeldaServer.Proof.Streams

/-!
# The server refines its world

Every run of the main loop in which no socket call fails is a run of `World.Step`: the
turns have a meaning (`Turn.Means`), the room of the server is the room of the world, a
session is connected exactly when it is online, and it has sent and will send `S_EnterGame`
and then its outbox. So what is proved of the outboxes of the room holds of the sessions.

* `accept_shows`, `received_shows`, `sent_shows`, `turn_shows`: the step of the simulation.
* `server_refines_world`: the run.
-/

namespace ZeldaServer

open Lib Std

/-- A server, and what its clients know: the packets whose sends have completed, and the bytes
that have arrived. -/
structure Observed where
  server : Server Room
  completed : SessionId → List Packet := fun _ => []
  received : SessionId → List UInt8 := fun _ => []

/-- The sends that are completed after the turn. -/
def Turn.completes (net : Net) (completed : SessionId → List Packet) : Turn → SessionId → List Packet
  | .dispatch (.sent s _) => Function.update completed s (completed s ++ (net.session s).oldest)
  | _ => completed

/-- The bytes that have arrived after the turn. -/
def Turn.receives (received : SessionId → List UInt8) : Turn → SessionId → List UInt8
  | .dispatch (.received s bytes) => Function.update received s (received s ++ bytes)
  | _ => received

/-- One turn of a server that is observed. -/
def Observes (parse : List UInt8 → CMove) (v : Observed) (e : Round) (v' : Observed) : Prop :=
  Leads parse v.server e v'.server ∧ v'.completed = e.turn.completes v.server.net v.completed ∧
    v'.received = e.turn.receives v.received

/-- What happens in a turn. -/
def Turn.Means : Turn → Happening → Prop
  | .dispatch (.accept _ accepted _), h => if accepted = true then ∃ s, h = .enter s else h = .idle
  | .dispatch .connect, h => h = .idle
  | .dispatch (.connected s), h => h = .enter s
  | .dispatch (.received s bytes), h => h = if bytes = [] then .hangUp s else .receive s bytes
  | .dispatch (.sent s numOfBytes), h => h = if numOfBytes = 0 then .hangUp s else .idle
  | .update ticks pick, h => h = .update ticks pick

variable {v v' : Observed} {w w' : World} {ledgers ledgers' : SessionId → Ledger} {ledger : Ledger} {st : Server Room}
  {g g' : Game Outboxes} {s : SessionId} {parse : List UInt8 → CMove} {fuel : ℕ} {ops : List RoomOp}

/-- The ledger of a session that has received `bytes`. -/
structure Ledger.Reads (ledger : Ledger) (bytes : List UInt8) : Prop where
  ok : RecvOK (⟨ledger.recvBuffer, ledger.posted, ()⟩ : RecvSide Unit)
  cut : ∃ packets, Cut packetFormat bytes packets ledger.recvBuffer.unread

/-- The world shows what the server is. -/
structure Shows (v : Observed) (w : World) (ledgers : SessionId → Ledger) : Prop where
  reflected : Reflected ledgers v.server w.game
  room : ∃ ops, Runs RoomStep roomStart ops w.game
  completed : ∀ s, (ledgers s).completed = v.completed s
  online : ∀ s, (ledgers s).connected = w.online s
  received : v.received = w.received
  reads : ∀ s, (ledgers s).Reads (w.received s)
  entered : ∀ s, (ledgers s).connected = true ∨ (ledgers s).posted ≠ none → Entered w.game s

/-- No ledger changes. -/
theorem Shows.keep (h : Shows v w ledgers) (hreflected : Reflected ledgers v'.server w'.game)
    (hruns : Runs RoomStep w.game ops w'.game) (hcompleted : v'.completed = v.completed) (hreceived : v'.received = v.received)
    (honline : w'.online = w.online) (hreceived' : w'.received = w.received) : Shows v' w' ledgers := by
  obtain ⟨before, hbefore⟩ := h.room
  refine ⟨hreflected, ⟨_, hbefore.append hruns⟩, ?_, ?_, ?_, ?_, fun t ht => ?_⟩
  · rw [hcompleted]
    exact h.completed
  · rw [honline]
    exact h.online
  · rw [hreceived, hreceived', h.received]
  · rw [hreceived']
    exact h.reads
  · exact ((h.entered t ht).run (run_good hbefore).1 hruns).1

/-- The ledger of one session changes. -/
theorem Shows.change (h : Shows v w ledgers) (hreflected : Reflected (Function.update ledgers s ledger) v'.server w'.game)
    (hruns : Runs RoomStep w.game ops w'.game)
    (hcompleted : v'.completed = Function.update v.completed s ledger.completed)
    (honline : w'.online = Function.update w.online s ledger.connected) (bytes : List UInt8)
    (hreceived : v'.received = Function.update v.received s bytes) (hreceived' : w'.received = Function.update w.received s bytes)
    (hreads : ledger.Reads bytes) (hentered : ledger.connected = true ∨ ledger.posted ≠ none → Entered w'.game s) :
    Shows v' w' (Function.update ledgers s ledger) := by
  obtain ⟨before, hbefore⟩ := h.room
  refine ⟨hreflected, ⟨_, hbefore.append hruns⟩, fun t => ?_, fun t => ?_, ?_, fun t => ?_, fun t ht => ?_⟩
  · rw [hcompleted]
    by_cases hts : t = s
    · rw [hts, Function.update_self, Function.update_self]
    · rw [Function.update_of_ne hts, Function.update_of_ne hts, h.completed]
  · rw [honline]
    by_cases hts : t = s
    · rw [hts, Function.update_self, Function.update_self]
    · rw [Function.update_of_ne hts, Function.update_of_ne hts, h.online]
  · rw [hreceived, hreceived', h.received]
  · rw [hreceived']
    by_cases hts : t = s
    · rw [hts, Function.update_self, Function.update_self]
      exact hreads
    · rw [Function.update_of_ne hts, Function.update_of_ne hts]
      exact h.reads t
  · by_cases hts : t = s
    · rw [hts, Function.update_self] at ht
      rw [hts]
      exact hentered ht
    · rw [Function.update_of_ne hts] at ht
      exact ((h.entered t ht).run (run_good hbefore).1 hruns).1

/-- A session that has not been connected is not in the room, and nothing is known of it. -/
theorem Shows.fresh (h : Shows v w ledgers) (hpeople : Peopled v.server) (hnew : v.server.net.onConnected s = 0) :
    (w.game.game.gameSessions s).player = none ∧ w.game.net s = [] ∧ w.online s = false := by
  have hnone : (w.game.game.gameSessions s).player = none := by
    rw [← h.reflected.game]
    by_contra hplayer
    exact hpeople.tied s hplayer hnew
  obtain ⟨before, hbefore⟩ := h.room
  refine ⟨hnone, run_silent hbefore hnone, ?_⟩
  rw [← h.online, ← Bool.not_eq_true]
  exact fun hup => (h.entered s (.inl hup)).2 hnone

/-! ## Turns -/

/-- `ProcessConnect` lets the session enter. -/
theorem connect_shows (h : Shows v w ledgers) (hpeople : Peopled v.server) (hnew : v.server.net.onConnected s = 0)
    (hcompleted : v'.completed = v.completed) (hreceived : v'.received = v.received)
    (hresult : Session.processConnect (gameContent parse fuel) fuel s v.server = .ok st)
    (hlater : ∀ {ledgers' : SessionId → Ledger} {g : Game Outboxes}, Reflected ledgers' st g → Reflected ledgers' v'.server g) :
    ∃ w', w.Step parse (.enter s) w' ∧ ∃ ledgers', Shows v' w' ledgers' := by
  obtain ⟨hfresh, hempty, hoff⟩ := h.fresh hpeople hnew
  obtain ⟨g', hstep, hreflected⟩ := (processConnect_reflected h.reflected hnew hfresh hempty).result hresult
  obtain ⟨before, hbefore⟩ := h.room
  refine ⟨_, .enter hoff hstep, _, h.change (hlater hreflected) (.single hstep) ?_ rfl (w.received s) ?_ ?_ ?_ ?_⟩
  · rw [hcompleted, h.completed, Function.update_eq_self]
  · rw [hreceived, h.received, Function.update_eq_self]
  · exact (Function.update_eq_self s w.received).symm
  · obtain ⟨hok, hcut⟩ := h.reads s
    exact ⟨⟨hok.buffer, hok.unread, hok.room, fun len hlen => (Option.some.inj hlen).symm⟩, hcut⟩
  · exact fun _ => Entered.step (run_good hbefore).1 hstep (.inr rfl)

/-- A session hangs up. -/
theorem hangUp_shows (h : Shows v w ledgers) (hup : HangsUp (v.server.net.session s).connected s w.game g') (hreflected : Reflected (Function.update ledgers s ledger) v'.server g')
    (hcompleted : v'.completed = Function.update v.completed s ledger.completed) (hreceived : v'.received = v.received)
    (hdown : ledger.connected = false) (hreads : ledger.Reads (w.received s)) (hposted : ledger.posted ≠ none → Entered w.game s) :
    ∃ w', w.Step parse (.hangUp s) w' ∧ ∃ ledgers', Shows v' w' ledgers' := by
  have hreceived₁ : v'.received = Function.update v.received s (w.received s) := by
    rw [hreceived, h.received, Function.update_eq_self]
  have hreceived₂ : w.received = Function.update w.received s (w.received s) := (Function.update_eq_self s w.received).symm
  obtain ⟨ops, hops⟩ := h.room
  rw [(h.reflected.net.keeps s).connected, h.online] at hup
  unfold HangsUp at hup
  cases honline : w.online s with
  | true =>
    rw [if_pos honline] at hup
    refine ⟨_, .hangUp honline hup, _, h.change hreflected (.single hup) hcompleted ?_ _ hreceived₁ hreceived₂ hreads ?_⟩
    · rw [hdown]
    · rintro (hconnected | hsome)
      · rw [hdown] at hconnected
        exact absurd hconnected Bool.false_ne_true
      · exact Entered.step (run_good hops).1 hup (.inl (hposted hsome))
  | false =>
    rw [if_neg (by rw [honline]; exact Bool.false_ne_true)] at hup
    rw [hup] at hreflected
    refine ⟨_, .gone honline, _, h.change hreflected .nil hcompleted ?_ _ hreceived₁ hreceived₂ hreads ?_⟩
    · rw [hdown, ← honline, Function.update_eq_self]
    · rintro (hconnected | hsome)
      · rw [hdown] at hconnected
        exact absurd hconnected Bool.false_ne_true
      · exact hposted hsome

/-- An accept event completes. -/
theorem accept_shows (h : Shows v w ledgers) (hattended : Attended v.server) {i retries : ℕ} {accepted : Bool}
    (henabled : i < v.server.net.acceptEvents.length) (hcompleted : v'.completed = v.completed) (hreceived : v'.received = v.received)
    (hresult : dispatch (gameContent parse fuel) fuel v.server (.accept i accepted retries) = .ok v'.server) :
    ∃ happening w', (Turn.dispatch (.accept i accepted retries)).Means happening ∧ w.Step parse happening w' ∧
      ∃ ledgers', Shows v' w' ledgers' := by
  obtain ⟨s, hs⟩ : ∃ s, v.server.net.acceptEvents[i]? = some s := ⟨_, List.getElem?_eq_getElem henabled⟩
  have hnew := (hattended.awaited.accept s (List.mem_of_getElem? hs) id).1
  have hlater : ∀ {st : Server Room} {ledgers' : SessionId → Ledger} {g : Game Outboxes}, Reflected ledgers' st g →
      Reflected ledgers' { st with net := Listener.registerAccept i retries st.net } g := by
    intro st ledgers' g h'
    refine h'.change rfl ?_
    rw [registerAccept_net]
    exact h'.net.change rfl rfl rfl
  unfold dispatch at hresult
  simp only [hs] at hresult
  cases accepted with
  | false =>
    have hserver : { v.server with net := Listener.registerAccept i retries v.server.net } = v'.server := Except.ok.inj hresult
    have hreflected := hlater h.reflected
    rw [hserver] at hreflected
    exact ⟨.idle, w, rfl, .idle, _, h.keep hreflected .nil hcompleted hreceived rfl rfl⟩
  | true =>
    obtain ⟨st, hst, hserver⟩ := bind_eq_ok.1 hresult
    have hserver : { st with net := Listener.registerAccept i retries st.net } = v'.server := Except.ok.inj hserver
    obtain ⟨w', hstep, hshows⟩ := connect_shows h hattended.people hnew hcompleted hreceived hst fun hreflected => by
      rw [← hserver]
      exact hlater hreflected
    exact ⟨_, w', ⟨s, rfl⟩, hstep, hshows⟩

/-- A session is created and connects. -/
theorem start_shows (h : Shows v w ledgers) (hcompleted : v'.completed = v.completed) (hreceived : v'.received = v.received)
    (hresult : dispatch (gameContent parse fuel) fuel v.server .connect = .ok v'.server) : Shows v' w ledgers := by
  have hnet : Streams ledgers (Service.createSession v.server.net).2 w.game.net := h.reflected.net.change rfl rfl rfl
  have hkeeps := hnet.keeps v.server.net.nextSession
  have hnet := hnet.modify (s := v.server.net.nextSession) (f := fun x => { x with connecting := true })
    ⟨hkeeps.stream, hkeeps.made, hkeeps.free, hkeeps.busy, hkeeps.unused, hkeeps.connected, hkeeps.recvBuffer, hkeeps.posted⟩
  rw [Function.update_eq_self] at hnet
  have hserver := Except.ok.inj hresult
  have hreflected : Reflected ledgers v'.server w.game := by
    rw [← hserver]
    exact h.reflected.change rfl hnet
  exact h.keep hreflected .nil hcompleted hreceived rfl rfl

/-- Bytes arrive. -/
theorem received_shows (h : Shows v w ledgers) {bytes : List UInt8} (henabled : (Event.received s bytes).Enabled v.server.net)
    (hcompleted : v'.completed = v.completed) (hreceived : v'.received = Function.update v.received s (v.received s ++ bytes))
    (hresult : Session.processRecv (gameContent parse fuel) fuel s bytes v.server = .ok v'.server) :
    ∃ happening w', (Turn.dispatch (.received s bytes)).Means happening ∧ w.Step parse happening w' ∧
      ∃ ledgers', Shows v' w' ledgers' := by
  obtain ⟨before, hbefore⟩ := h.room
  have hgood := (run_good hbefore).1
  have hreads := h.reads s
  obtain ⟨len, hposted, hlen⟩ := henabled
  rw [(h.reflected.net.keeps s).posted] at hposted
  have hentered := h.entered s (.inr (by rw [hposted]; exact Option.some_ne_none len))
  by_cases hnil : bytes = []
  · -- the peer has closed the connection
    have hreceived : v'.received = v.received := by
      rw [hreceived, hnil, List.append_nil, Function.update_eq_self]
    rw [hnil] at hresult
    obtain ⟨g', hup, hreflected⟩ := (processRecv_hangUp h.reflected).result hresult
    obtain ⟨w', hstep, hshows⟩ := hangUp_shows h hup hreflected (by
      rw [hcompleted, show ((ledgers s).close).completed = v.completed s from h.completed s, Function.update_eq_self]) hreceived rfl
      ⟨⟨hreads.ok.buffer, hreads.ok.unread, hreads.ok.room, fun len hlen => nomatch hlen⟩, hreads.cut⟩ fun _ => hentered
    exact ⟨_, w', (if_pos hnil).symm, hstep, hshows⟩
  · have hpos : 1 ≤ bytes.length := List.length_pos_iff.2 hnil
    obtain ⟨packets, rest, g', recvBuffer, posted, hcut, hruns, hunread, hok, hreflected⟩ :=
      (processRecv_receive h.reflected hgood hentered hreads.ok ⟨len, hposted, hpos, hlen⟩).result hresult
    obtain ⟨old, hold⟩ := hreads.cut
    refine ⟨_, _, (if_neg hnil).symm, .receive hold hcut hruns, _, h.change hreflected hruns ?_ ?_ _ ?_ rfl ⟨hok, ?_⟩ ?_⟩
    · rw [hcompleted, h.completed, Function.update_eq_self]
    · rw [h.online, Function.update_eq_self]
    · rw [hreceived, h.received]
    · exact ⟨_, by rw [hunread]; exact hold.append hcut⟩
    · exact fun _ => (hentered.run hgood hruns).1

/-- A send completes. -/
theorem sent_shows (h : Shows v w ledgers) {numOfBytes : ℤ}
    (hcompleted : v'.completed = Function.update v.completed s (v.completed s ++ (v.server.net.session s).oldest))
    (hreceived : v'.received = v.received)
    (hresult : Session.processSend (gameContent parse fuel) fuel s numOfBytes v.server = .ok v'.server) :
    ∃ happening w', (Turn.dispatch (.sent s numOfBytes)).Means happening ∧ w.Step parse happening w' ∧
      ∃ ledgers', Shows v' w' ledgers' := by
  have hreads := h.reads s
  have hposted : (ledgers s).posted ≠ none → Entered w.game s := fun hsome => h.entered s (.inr hsome)
  rw [← h.completed] at hcompleted
  by_cases hzero : numOfBytes = 0
  · rw [hzero] at hresult
    obtain ⟨g', hup, hreflected⟩ := (processSend_hangUp h.reflected).result hresult
    obtain ⟨w', hstep, hshows⟩ := hangUp_shows h hup hreflected hcompleted hreceived rfl ⟨hreads.ok, hreads.cut⟩ hposted
    exact ⟨_, w', (if_pos hzero).symm, hstep, hshows⟩
  · obtain ⟨answers, hanswers, hprocess⟩ := processSend_now h.reflected.net.answers s hzero
    have hserver := Except.ok.inj ((hprocess parse fuel).symm.trans hresult)
    have hreflected := (h.reflected.modify (h.reflected.net.keeps s).resend).answering hanswers
    rw [hserver] at hreflected
    refine ⟨_, w, (if_neg hzero).symm, .idle, _, h.change hreflected .nil hcompleted ?_ _ ?_
      (Function.update_eq_self s w.received).symm ⟨hreads.ok, hreads.cut⟩ (h.entered s)⟩
    · rw [show ((ledgers s).complete (v.server.net.session s).oldest).connected = w.online s from h.online s,
        Function.update_eq_self]
    · rw [hreceived, h.received, Function.update_eq_self]

/-- A completion is what it means. -/
theorem dispatch_shows (h : Shows v w ledgers) (hattended : Attended v.server) {event : Event} (henabled : event.Enabled v.server.net)
    (hcompleted : v'.completed = (Turn.dispatch event).completes v.server.net v.completed)
    (hreceived : v'.received = (Turn.dispatch event).receives v.received)
    (hresult : dispatch (gameContent parse fuel) fuel v.server event = .ok v'.server) :
    ∃ happening w', (Turn.dispatch event).Means happening ∧ w.Step parse happening w' ∧ ∃ ledgers', Shows v' w' ledgers' := by
  cases event with
  | accept i accepted retries => exact accept_shows h hattended henabled hcompleted hreceived hresult
  | connect => exact ⟨.idle, w, rfl, .idle, _, start_shows h hcompleted hreceived hresult⟩
  | connected s =>
    obtain ⟨-, hnew⟩ := hattended.awaited.connecting s henabled
    obtain ⟨w', hstep, hshows⟩ := connect_shows h hattended.people hnew hcompleted hreceived hresult id
    exact ⟨_, w', rfl, hstep, hshows⟩
  | received s bytes => exact received_shows h henabled hcompleted hreceived hresult
  | sent s numOfBytes => exact sent_shows h hcompleted hreceived hresult

/-- Whatever the next socket calls answer, if none of them fails. -/
theorem Shows.answering (h : Shows v w ledgers) {answers : List WsaResult} (hanswers : Succeed answers) :
    Shows { v with server := v.server.answering answers } w ledgers :=
  ⟨h.reflected.answering hanswers, h.room, h.completed, h.online, h.received, h.reads, h.entered⟩

/-- **One turn**, with no socket call that fails, is what it means. -/
theorem turn_shows (h : Shows v w ledgers) (hattended : Attended v.server) {e : Round} (hanswers : Succeed e.answers)
    (hobserves : Observes parse v e v') :
    ∃ happening w', e.turn.Means happening ∧ w.Step parse happening w' ∧ ∃ ledgers', Shows v' w' ledgers' := by
  obtain ⟨⟨hturn, fuel, hresult⟩, hcompleted, hreceived⟩ := hobserves
  have h := h.answering hanswers
  have hattended := hattended.answering e.answers
  obtain ⟨turn, answers⟩ := e
  cases turn with
  | update ticks pick =>
    obtain ⟨g', hstep, hreflected⟩ := (h.reflected.run parse fuel fuel (.update ticks pick) trivial).result hresult
    exact ⟨_, _, rfl, .update hstep, _, h.keep hreflected (.single hstep) hcompleted hreceived rfl rfl⟩
  | dispatch event => exact dispatch_shows h hattended hturn hcompleted hreceived hresult

/-! ## Runs -/

theorem boot_shows {tilemap : TileMap} {acceptCount : ℕ} (hboot : boot parse fuel tilemap acceptCount = .ok st) :
    ∃ g, RoomStep roomStart (.init tilemap) g ∧ Shows { server := st } { game := g } fun _ => {} := by
  have htied := (boot_attended.result hboot).people.tied
  have hnew : ∀ s, Session.Keeps {} {} ((Net.greeting {} s) ++ []) := fun s =>
    ⟨rfl, fun _ hp => (List.not_mem_nil hp).elim, fun _ => rfl, fun hup => absurd hup Bool.false_ne_true, fun _ => ⟨rfl, rfl⟩,
      rfl, rfl, rfl⟩
  have hstart : Reflected (fun _ => {}) { net := {}, game := {} } roomStart := Reflected.of rfl ⟨List.forall_mem_nil _, hnew⟩
  unfold boot at hboot
  obtain ⟨st₁, hinit, hst⟩ := bind_eq_ok.1 hboot
  obtain ⟨g, hstep, h⟩ := (hstart.run parse fuel fuel (.init tilemap) trivial).result hinit
  obtain rfl := Except.ok.inj hst
  have hempty : ∀ s, g.net s = [] := by
    intro s
    refine run_silent (.single hstep) ?_
    rw [← h.game]
    by_contra hplayer
    exact htied s hplayer rfl
  refine ⟨g, hstep, ⟨Reflected.of h.game ⟨List.forall_mem_nil _, fun s => ?_⟩, ⟨_, .single hstep⟩, fun _ => rfl, fun _ => rfl, rfl, fun s => ?_, ?_⟩⟩
  · rw [hempty s]
    exact hnew s
  · exact ⟨⟨RecvBuffer.new_ok, show (RecvBuffer.new BUFFER_SIZE).unread.length ≤ 65534 by decide,
      show BUFFER_SIZE ≤ (RecvBuffer.new BUFFER_SIZE).freeSize by decide, fun len hlen => nomatch hlen⟩,
      [], .stop (Or.inl (show ([] : List UInt8).length < packetFormat.header by decide))⟩
  · rintro s (hup | hposted)
    · exact absurd hup Bool.false_ne_true
    · exact absurd rfl hposted

/-- A run of the server is a run of the world. -/
theorem run_shows {tilemap : TileMap} {acceptCount : ℕ} {st₀ : Server Room} {rounds : List Round}
    (hboot : boot parse fuel tilemap acceptCount = .ok st₀) (hrun : Runs (Observes parse) { server := st₀ } rounds v)
    (hanswers : ∀ e ∈ rounds, Succeed e.answers) :
    ∃ g happenings w ledgers, RoomStep roomStart (.init tilemap) g ∧
      List.Forall₂ (fun (e : Round) happening => e.turn.Means happening) rounds happenings ∧
      Runs (World.Step parse) { game := g } happenings w ∧ Shows v w ledgers := by
  obtain ⟨g, hinit, hshows⟩ := boot_shows hboot
  obtain ⟨happenings, w, hmeans, hworld, -, ledgers, hshows'⟩ := Runs.simulate
    (fun (v : Observed) w => Attended v.server ∧ ∃ ledgers, Shows v w ledgers)
    (fun (e : Round) happening => e.turn.Means happening)
    (fun v e v' w hanswers hobserves hrel => by
      obtain ⟨hattended, ledgers, hshows⟩ := hrel
      obtain ⟨happening, w', hmean, hstep, hshows'⟩ := turn_shows hshows hattended hanswers hobserves
      exact ⟨happening, w', hmean, hstep, leads_attended hattended hanswers.calm hobserves.1, hshows'⟩)
    hrun hanswers ⟨boot_attended.result hboot, _, hshows⟩
  exact ⟨g, happenings, w, ledgers, hinit, hmeans, hworld, hshows'⟩

/-- The bytes that arrive from a session in a round. -/
def Round.bytes (e : Round) (s : SessionId) : List UInt8 :=
  match e.turn with
  | .dispatch (.received t bytes) => if t = s then bytes else []
  | _ => []

/-- What is observed of a session's bytes is what has arrived in the rounds. -/
theorem observed_received {v₀ : Observed} {rounds : List Round} (hrun : Runs (Observes parse) v₀ rounds v) (s : SessionId) :
    v.received s = v₀.received s ++ rounds.flatMap (·.bytes s) := by
  induction hrun with
  | nil => exact (List.append_nil _).symm
  | @snoc rounds v₁ e v₂ _ hobserves ih =>
    have hround : e.turn.receives v₁.received s = v₁.received s ++ e.bytes s := by
      obtain ⟨turn, answers⟩ := e
      rcases turn with ⟨⟨⟩ | _ | _ | ⟨t, bytes⟩ | _⟩ | _
      · exact (List.append_nil _).symm
      · exact (List.append_nil _).symm
      · exact (List.append_nil _).symm
      · unfold Turn.receives Round.bytes
        dsimp only
        by_cases hts : s = t
        · rw [hts, Function.update_self, if_pos rfl]
        · rw [Function.update_of_ne hts, if_neg (Ne.symm hts), List.append_nil]
      · exact (List.append_nil _).symm
      · exact (List.append_nil _).symm
    rw [hobserves.2.2, hround, ih, List.append_assoc, List.flatMap_append, List.flatMap_singleton]

/-- **The server refines its world.** In every run of the main loop in which no socket call
fails: what happened in the turns is a run of the world, the room of the server is the room of
the world, a session is connected exactly when it is online, and what each session has sent and
will send is `S_EnterGame`, once it has been connected, and then its outbox; a connected
session with no send under way has sent all of it. -/
theorem server_refines_world {tilemap : TileMap} {acceptCount : ℕ} {st₀ : Server Room} {rounds : List Round}
    (hboot : boot parse fuel tilemap acceptCount = .ok st₀) (hrun : Runs (Observes parse) { server := st₀ } rounds v)
    (hanswers : ∀ e ∈ rounds, Succeed e.answers) :
    ∃ g happenings w, RoomStep roomStart (.init tilemap) g ∧
      List.Forall₂ (fun (e : Round) happening => e.turn.Means happening) rounds happenings ∧
      Runs (World.Step parse) { game := g } happenings w ∧
      v.server.game = w.game.game ∧ v.received = w.received ∧
      ∀ s, (v.server.net.session s).connected = w.online s ∧
        (v.completed s ++ (v.server.net.session s).outgoing).map Packet.msg = v.server.net.greeting s ++ w.game.net s ∧
        ((v.server.net.session s).connected = true → (v.server.net.session s).wire = [] →
          (v.completed s).map Packet.msg = v.server.net.greeting s ++ w.game.net s) := by
  obtain ⟨g, happenings, w, ledgers, hinit, hmeans, hworld, hshows⟩ := run_shows hboot hrun hanswers
  refine ⟨g, happenings, w, hinit, hmeans, hworld, hshows.reflected.game, hshows.received, fun s => ?_⟩
  have hkeeps := hshows.reflected.net.keeps s
  have hstream := hkeeps.stream
  rw [hshows.completed] at hstream
  refine ⟨hkeeps.connected.trans (hshows.online s), hstream, fun hup hwire => ?_⟩
  rw [← hstream]
  unfold Session.outgoing
  rw [hwire, hkeeps.idle hup hwire, List.flatten_nil, List.append_nil, List.append_nil]

/-- One turn of a small server that is observed. -/
def observe (parse : List UInt8 → CMove) (v : Observed) (e : Round) : Option Observed :=
  if e.turn.Enabled v.server.net then
    (e.run parse 20 v.server).toOption.map fun st => {
      server := st
      completed := e.turn.completes v.server.net v.completed
      received := e.turn.receives v.received }
  else none

/-- A run of a server with one accept event, that is observed. -/
def watch (parse : List UInt8 → CMove) (rounds : List Round) : Option Observed := do
  let st₀ ← (boot parse 20 {} 1).toOption
  rounds.foldlM (observe parse) { server := st₀ }

theorem watch_runs {rounds : List Round} (h : watch parse rounds = some v) :
    ∃ st₀, boot parse 20 {} 1 = .ok st₀ ∧ Runs (Observes parse) { server := st₀ } rounds v := by
  unfold watch at h
  obtain ⟨st₀, hst₀, hv⟩ := Option.bind_eq_some_iff.1 h
  refine ⟨st₀, toOption_eq_some.1 hst₀, (Runs.ofFold (observe parse) _ rounds hv).mono fun v e v' hstep => ?_⟩
  unfold observe at hstep
  split at hstep
  · rename_i he
    obtain ⟨st, hst, rfl⟩ := Option.map_eq_some_iff.1 hstep
    exact ⟨⟨he, 20, toOption_eq_some.1 hst⟩, rfl, rfl⟩
  · exact absurd hstep.symm (Option.some_ne_none v')

/-- A session connects, its first send completes, the next one is pending, and the session sends
half a packet. -/
def greeted : List Round :=
  [{ turn := .dispatch (.accept 0 true 0) }, { turn := .dispatch (.sent 0 6), answers := [.socketError WSA_IO_PENDING] },
    { turn := .dispatch (.received 0 [4, 0]) }]

/-- The other sends of the session go out together, after the first. -/
theorem server_refines_world_example : ∃ st₀ v, boot (fun _ => {}) 20 {} 1 = .ok st₀ ∧
    Runs (Observes fun _ => {}) { server := st₀ } greeted v ∧
    (v.completed 0).map Packet.msg = [.enterGame true 0] ∧ v.received 0 = [4, 0] ∧
    ∃ g happenings w, RoomStep roomStart (.init {}) g ∧
      List.Forall₂ (fun (e : Round) happening => e.turn.Means happening) greeted happenings ∧
      Runs (World.Step fun _ => {}) { game := g } happenings w ∧
      v.server.game = w.game.game ∧ v.received = w.received ∧
      ∀ s, (v.server.net.session s).connected = w.online s ∧
        (v.completed s ++ (v.server.net.session s).outgoing).map Packet.msg = v.server.net.greeting s ++ w.game.net s ∧
        ((v.server.net.session s).connected = true → (v.server.net.session s).wire = [] →
          (v.completed s).map Packet.msg = v.server.net.greeting s ++ w.game.net s) := by
  have hrun : (watch (fun _ => {}) greeted).map (fun v => ((v.completed 0).map Packet.msg, v.received 0)) =
      some ([.enterGame true 0], [4, 0]) := by decide +kernel
  obtain ⟨v, hv, heq⟩ := Option.map_eq_some_iff.1 hrun
  obtain ⟨hcompleted, hreceived⟩ := Prod.mk.inj heq
  obtain ⟨st₀, hboot, hruns⟩ := watch_runs hv
  exact ⟨st₀, v, hboot, hruns, hcompleted, hreceived, server_refines_world hboot hruns (by decide)⟩

end ZeldaServer
