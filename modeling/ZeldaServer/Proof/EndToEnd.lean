import ZeldaServer.Proof.Accepted
import ZeldaServer.Proof.Refines
import ZeldaServer.Proof.Sizes

/-!
# What clients decode

As long as no socket call fails and every `C_Move` that arrives is accepted by the parser,
the generated code of a client understands every packet: whatever the pieces in which the
bytes of a session arrive, the `PacketSession` of the client cuts them into packets, which are
parsed as `S_EnterGame` and the outbox of the session, one after the other.

* `run_wellFormed`: what the room sends is well formed if what it handles is.
* `decode_frame`: a packet is parsed as the message that it was made of.
* `clients_decode`: both ends together.
-/

namespace ZeldaServer

open Lib Std

variable {g : Game Outboxes} {ops : List RoomOp} {p : Packet} {msg : Msg} {s : SessionId} {fuel : ℕ}

/-! ## What the room sends -/

theorem wellFormed_kindly : Kindly ObjectInfo.WellFormed where
  player _ := ⟨rfl, rfl, rfl, rfl, Nat.zero_le _, .nil⟩
  monster _ := ⟨rfl, rfl, rfl, rfl, show Monster.info.name.length ≤ ParseContext.maxSize by decide, .nil⟩
  state info state hstate h := by
    refine ⟨h.objecttype, ?_, h.dir, h.name, h.name_le, h.unknownFields⟩
    cases state with
    | idle => rfl
    | move => rfl
    | skill => rfl
    | other v => exact absurd rfl (hstate v)
  dir info dir hdir h := by
    refine ⟨h.objecttype, h.state, ?_, h.name, h.name_le, h.unknownFields⟩
    cases dir with
    | up => rfl
    | down => rfl
    | left => rfl
    | right => rfl
    | other v => exact absurd rfl (hdir v)
  cell info x y h := ⟨h.objecttype, h.state, h.dir, h.name, h.name_le, h.unknownFields⟩
  hp info hp h := ⟨h.objecttype, h.state, h.dir, h.name, h.name_le, h.unknownFields⟩
  follow info told h htold := ⟨h.objecttype, htold.state, htold.dir, h.name, h.name_le, h.unknownFields⟩

theorem Msg.Carries.wellFormed (h : msg.Carries ObjectInfo.WellFormed) : msg.WellFormed := by
  cases msg with
  | enterGame => trivial
  | myPlayer info => exact h info List.mem_cons_self
  | addObject objects => exact h
  | removeObject => trivial
  | move info => exact h info List.mem_cons_self
  | attack target attacker => exact ⟨h target List.mem_cons_self, h attacker (List.mem_cons_of_mem _ List.mem_cons_self)⟩

/-- The same outboxes, in which all records are well formed. -/
def Wholesome (net net' : Outboxes) : Prop := net = net' ∧ ∀ s, ∀ msg ∈ net s, msg.Carries ObjectInfo.WellFormed

theorem post_sendsAlike : SendsAlike Wholesome ObjectInfo.WellFormed post post := by
  intro s p st st' h _ hp
  obtain ⟨hsame, hcarries⟩ := h.net
  refine .ok ⟨h.game, ⟨?_, fun t msg hmsg => ?_⟩, h.all⟩
  · dsimp only
    rw [hsame]
  · dsimp only at hmsg
    by_cases hts : t = s
    · rw [hts, Function.update_self] at hmsg
      rcases List.mem_append.1 hmsg with hmsg | hmsg
      · exact hcarries s msg hmsg
      · rw [List.mem_singleton.1 hmsg]
        exact hp
    · rw [Function.update_of_ne hts] at hmsg
      exact hcarries t msg hmsg

/-- **What the room sends is well formed** if what it handles is. -/
theorem run_wellFormed (hrun : Runs RoomStep roomStart ops g) (hops : ∀ pkt, .handleCMove pkt ∈ ops → pkt.info.WellFormed) :
    Twins Wholesome ObjectInfo.WellFormed g g := by
  induction hrun with
  | nil =>
    refine ⟨rfl, ⟨rfl, fun s msg hmsg => (List.not_mem_nil hmsg).elim⟩, fun r o ho => ?_⟩
    rw [show roomStart.game.objects[r]? = none from List.getElem?_nil] at ho
    cases ho
  | @snoc ops g op g' _ hstep ih =>
    have halike := ih fun pkt hpkt => hops pkt (List.mem_append_left _ hpkt)
    obtain ⟨-, fuel, hresult⟩ := hstep
    have hop : ∀ pkt, op = .handleCMove pkt → pkt.info.WellFormed := by
      rintro pkt rfl
      exact hops pkt (List.mem_append_right _ List.mem_cons_self)
    obtain ⟨g'', hresult', halike'⟩ := RoomOp.run_matches post_sendsAlike (Nat.le_refl _) wellFormed_kindly halike op hop g' hresult
    rw [hresult] at hresult'
    obtain rfl := Except.ok.inj hresult'
    exact halike'

/-! ## Packets -/

/-- What the generated code of a client makes of a packet. -/
def decode (packet : List UInt8) : Option Msg := Msg.parse (PacketHeader.read packet).id (ServerPacketHandler.payload packet)

/-- The packet has the size of its header. -/
theorem Packet.Made.length (h : p.Made) : p.msg.serialize.length ≤ 65531 := by
  obtain ⟨b, hb, -⟩ := bind_eq_ok.1 (show (ServerPacketHandler.make p.msg) = .ok p from h)
  by_contra hlong
  by_cases hfits : p.msg.serialize.length % 65536 < 65532
  · rw [makeSendBuffer_rejects hfits (by omega)] at hb
    cases hb
  · rw [makeSendBuffer_overflow (by omega)] at hb
    cases hb

theorem Packet.Made.frame (h : p.Made) : p.sendBuffer.frame = frameOf (p.msg.pktId, p.msg.serialize) := by
  obtain ⟨b, hb, hp⟩ := bind_eq_ok.1 (show (ServerPacketHandler.make p.msg) = .ok p from h)
  obtain ⟨b', hb', hframe⟩ := makeSendBuffer_frame (m := (p.msg.pktId, p.msg.serialize)) h.length
  rw [show makeSendBuffer p.msg.serialize p.msg.pktId = .ok b' from hb'] at hb
  obtain rfl := Except.ok.inj hb
  rw [← hframe, ← Except.ok.inj hp]

/-- The payload of a frame. -/
theorem payload_frameOf {id : UInt16} {bs : List UInt8} (h : bs.length ≤ 65531) : ServerPacketHandler.payload (frameOf (id, bs)) = bs := by
  have hread := read_bytes ⟨UInt16.ofNat (bs.length + sizeofPacketHeader), id⟩ bs
  have htake : (frameOf (id, bs)).length ≤ (PacketHeader.read (frameOf (id, bs))).size.toNat := by
    rw [frameOf_length, frameOf, hread, UInt16.toNat_ofNat', sizeofPacketHeader]
    dsimp only
    omega
  unfold ServerPacketHandler.payload
  rw [List.take_of_length_le htake, frameOf, List.drop_left' (bytes_length _)]

/-- **A packet is parsed as the message that it was made of.** -/
theorem decode_frame (h : p.Made) (hwell : p.msg.WellFormed) : decode p.sendBuffer.frame = some p.msg := by
  have hsize : p.msg.serialize.length ≤ ParseContext.maxSize := h.length.trans (by decide)
  unfold decode
  rw [h.frame, payload_frameOf h.length, frameOf, read_bytes]
  exact Msg.parse_serialize p.msg hwell hsize

/-! ## Both ends -/

/-- The parser of the server. -/
def CMove.parse (data : List UInt8) : CMove := (CMove.parseFromArray data).2

/-- Every `C_Move` among the packets of the bytes is accepted by the parser. -/
def Accepted (bytes : List UInt8) : Prop :=
  ∀ (packets : List (List UInt8)) (rest : List UInt8), Cut packetFormat bytes packets rest → ∀ packet ∈ packets, IsMove packet →
    (CMove.parseFromArray (ServerPacketHandler.payload packet)).1 = true

theorem payload_length (packet : List UInt8) : (ServerPacketHandler.payload packet).length < 2 ^ 16 := by
  unfold ServerPacketHandler.payload
  rw [List.length_drop, List.length_take]
  have hsize := (PacketHeader.read packet).size.toNat_lt
  omega

/-- A message that is accepted has a well-formed record. -/
theorem accepted_info {data : List UInt8} (hsize : data.length < 2 ^ 16) (h : (CMove.parseFromArray data).1 = true) :
    (CMove.parse data).info.WellFormed := by
  have hwell := (CMove.accepted_wellFormed hsize h).info
  unfold CMove.info CMove.parse
  cases hinfo : (CMove.parseFromArray data).2.info? with
  | none => exact ObjectInfo.wellFormed_new
  | some info => exact (hwell info hinfo).1

/-- The frames in a piece of a stream are its first frames. -/
theorem contained_take {α : Type} (fs : List (List α)) (k : ℕ) : contained fs k = fs.take (contained fs k).length := by
  induction fs generalizing k with
  | nil => rfl
  | cons f fs ih =>
    unfold contained
    split
    · rw [List.length_cons, List.take_succ_cons, ← ih]
    · rfl

/-- A stream of packets, cut anywhere, is parsed as their messages. -/
theorem decode_stream {packets : List Packet} (hmade : ∀ p ∈ packets, p.Made) (hwell : ∀ p ∈ packets, p.msg.WellFormed)
    {completions : List (List UInt8)} (hfuel : 655360 < fuel)
    (hpre : completions.flatten <+: (packets.map fun p => p.sendBuffer.frame).flatten) (hd : Deliverable fuel completions connected) :
    ∃ side, recvAll fuel completions connected = .ok side ∧
      side.rest.map decode = ((packets.map Packet.msg).take side.rest.length).map some ∧
      (completions.flatten = (packets.map fun p => p.sendBuffer.frame).flatten → side.rest.length = packets.length) := by
  have hframes : ∀ f ∈ packets.map fun p => p.sendBuffer.frame, packetFormat.IsFrame f := by
    intro f hf
    obtain ⟨p, hp, rfl⟩ := List.mem_map.1 hf
    rw [(hmade p hp).frame]
    exact isFrame_frameOf (hmade p hp).length
  obtain ⟨side, hside, hstreamed⟩ := streamed_all hfuel hframes streamed_connected hpre hd
  have hcut : Cut packetFormat completions.flatten side.rest side.recvBuffer.unread := hstreamed.cut
  obtain ⟨hrest, -⟩ := hcut.unique (cut_initial hframes (by decide) hpre)
  refine ⟨side, hside, ?_, fun hall => ?_⟩
  · have htake := contained_take (packets.map fun p => p.sendBuffer.frame) completions.flatten.length
    rw [← hrest] at htake
    rw [← List.map_take, List.map_map]
    conv_lhs => rw [htake, ← List.map_take, List.map_map]
    refine List.map_congr_left fun p hp => ?_
    have hmem := List.mem_of_mem_take hp
    exact decode_frame (hmade p hmem) (hwell p hmem)
  · rw [hall, contained_all] at hrest
    rw [hrest, List.length_map]

/-- A run of the server is a run of the room, all of whose packets are well formed. -/
theorem run_handles {tilemap : TileMap} {acceptCount : ℕ} {st₀ : Server Room} {rounds : List Round} {v : Observed}
    (hboot : boot CMove.parse fuel tilemap acceptCount = .ok st₀)
    (hrun : Runs (Observes CMove.parse) { server := st₀ } rounds v) (hanswers : ∀ e ∈ rounds, Succeed e.answers)
    (haccepted : ∀ s, Accepted (v.received s)) :
    ∃ g happenings w ledgers ops, RoomStep roomStart (.init tilemap) g ∧
      List.Forall₂ (fun (e : Round) happening => e.turn.Means happening) rounds happenings ∧
      Runs (World.Step CMove.parse) { game := g } happenings w ∧ Shows v w ledgers ∧
      Runs RoomStep roomStart (.init tilemap :: ops) w.game ∧ ops.countP RoomOp.creates ≤ rounds.length ∧
      ∀ pkt, .handleCMove pkt ∈ RoomOp.init tilemap :: ops → pkt.info.WellFormed := by
  obtain ⟨g, happenings, w, ledgers, hinit, hmeans, hworld, hshows⟩ := run_shows hboot hrun hanswers
  obtain ⟨ops, hruns, hcount, hasked⟩ := World.run_room hworld
  refine ⟨g, happenings, w, ledgers, ops, hinit, hmeans, hworld, hshows, hruns.cons hinit, hmeans.length_eq ▸ hcount, fun pkt hpkt => ?_⟩
  rcases List.mem_cons.1 hpkt with hpkt | hpkt
  · cases hpkt
  · obtain ⟨t, packets, rest, packet, hcut, hmem, hmove, rfl⟩ := hasked pkt hpkt
    rw [← hshows.received] at hcut
    exact accepted_info (payload_length packet) (haccepted t packets rest hcut packet hmem hmove)

/-- What the client of a session makes of the bytes that it is sent. -/
theorem Shows.decodes {v : Observed} {w : World} {ledgers : SessionId → Ledger} (hshows : Shows v w ledgers)
    (hroom : Runs RoomStep roomStart ops w.game) (hops : ∀ pkt, .handleCMove pkt ∈ ops → pkt.info.WellFormed)
    {completions : List (List UInt8)} (hfuel : 655360 < fuel)
    (hpre : completions.flatten <+: ((v.completed s ++ (v.server.net.session s).outgoing).map fun p => p.sendBuffer.frame).flatten)
    (hd : Deliverable fuel completions connected) :
    ∃ side, recvAll fuel completions connected = .ok side ∧
      side.rest.map decode = ((v.server.net.greeting s ++ w.game.net s).take side.rest.length).map some ∧
      (completions.flatten = ((v.completed s ++ (v.server.net.session s).outgoing).map fun p => p.sendBuffer.frame).flatten →
        side.rest.map decode = (v.server.net.greeting s ++ w.game.net s).map some) := by
  have hwholesome := run_wellFormed hroom hops
  have hkeeps := hshows.reflected.net.keeps s
  have hstream := hkeeps.stream
  have hmade := hkeeps.made
  rw [hshows.completed] at hstream hmade
  have hwell : ∀ p ∈ v.completed s ++ (v.server.net.session s).outgoing, p.msg.WellFormed := by
    intro p hp
    have hmsg := List.mem_map_of_mem (f := Packet.msg) hp
    rw [hstream] at hmsg
    rcases List.mem_append.1 hmsg with hmsg | hmsg
    · unfold Net.greeting at hmsg
      split at hmsg
      · exact (List.not_mem_nil hmsg).elim
      · rw [List.mem_singleton.1 hmsg]
        trivial
    · exact (hwholesome.net.2 s p.msg hmsg).wellFormed
  obtain ⟨side, hside, hdecode, hall⟩ := decode_stream hmade hwell hfuel hpre hd
  rw [hstream] at hdecode
  refine ⟨side, hside, hdecode, fun hwhole => ?_⟩
  rw [hdecode, hall hwhole, ← List.length_map (f := Packet.msg), hstream, List.take_length]

/-- **Clients decode the outboxes of the room.** In every run of the main loop in which no
socket call fails and every `C_Move` that arrives is accepted by the parser: what happened is a
run of the world, and whatever the pieces in which the bytes of the sends of a session (as many
as have been handed to its socket or wait in its queue) arrive, its client parses the packets
as `S_EnterGame` and the outbox of the session: the first ones in order, and all if all bytes
have arrived. -/
theorem clients_decode {tilemap : TileMap} {acceptCount : ℕ} {st₀ : Server Room} {rounds : List Round} {v : Observed}
    (hboot : boot CMove.parse fuel tilemap acceptCount = .ok st₀)
    (hrun : Runs (Observes CMove.parse) { server := st₀ } rounds v) (hanswers : ∀ e ∈ rounds, Succeed e.answers)
    (haccepted : ∀ s, Accepted (v.received s)) :
    ∃ g happenings w, RoomStep roomStart (.init tilemap) g ∧
      List.Forall₂ (fun (e : Round) happening => e.turn.Means happening) rounds happenings ∧
      Runs (World.Step CMove.parse) { game := g } happenings w ∧ w.received = v.received ∧
      ∀ (s : SessionId) (completions : List (List UInt8)) (fuel : ℕ), 655360 < fuel →
        completions.flatten <+:
          ((v.completed s ++ (v.server.net.session s).outgoing).map fun p => p.sendBuffer.frame).flatten →
        Deliverable fuel completions connected →
        ∃ side, recvAll fuel completions connected = .ok side ∧
          side.rest.map decode = ((v.server.net.greeting s ++ w.game.net s).take side.rest.length).map some ∧
          (completions.flatten =
              ((v.completed s ++ (v.server.net.session s).outgoing).map fun p => p.sendBuffer.frame).flatten →
            side.rest.map decode = (v.server.net.greeting s ++ w.game.net s).map some) := by
  obtain ⟨g, happenings, w, ledgers, ops, hinit, hmeans, hworld, hshows, hroom, -, hops⟩ := run_handles hboot hrun hanswers haccepted
  exact ⟨g, happenings, w, hinit, hmeans, hworld, hshows.received.symm, fun s completions fuel hfuel hpre hd =>
    hshows.decodes hroom hops hfuel hpre hd⟩

/-- A session connects, and a `C_Move` that names its player arrives in two pieces. -/
def requested : List Round :=
  [{ turn := .dispatch (.accept 0 true 0) }, { turn := .dispatch (.received 0 [8, 0, 10]) },
    { turn := .dispatch (.received 0 [0, 10, 2, 8, 2]) }]

theorem requested_accepted {bytes : List UInt8} (h : bytes = [] ∨ bytes = [8, 0, 10, 0, 10, 2, 8, 2]) : Accepted bytes := by
  intro packets rest hcut packet hpacket _
  rcases h with rfl | rfl
  · obtain ⟨rfl, -⟩ := hcut.unique (.stop (Or.inl (by decide)))
    cases hpacket
  · have hone : Cut packetFormat [8, 0, 10, 0, 10, 2, 8, 2] [[8, 0, 10, 0, 10, 2, 8, 2]] [] :=
      .next (by decide) (.stop (Or.inl (by decide)))
    obtain ⟨rfl, -⟩ := hcut.unique hone
    rw [List.mem_singleton.1 hpacket]
    decide +kernel

/-- The move is told to the session itself. -/
theorem clients_decode_example : ∃ st₀ v, boot CMove.parse 20 {} 1 = .ok st₀ ∧
    Runs (Observes CMove.parse) { server := st₀ } requested v ∧ v.received 0 = [8, 0, 10, 0, 10, 2, 8, 2] ∧
    ∃ g happenings w, RoomStep roomStart (.init {}) g ∧
      List.Forall₂ (fun (e : Round) happening => e.turn.Means happening) requested happenings ∧
      Runs (World.Step CMove.parse) { game := g } happenings w ∧ w.received = v.received ∧
      ∀ (s : SessionId) (completions : List (List UInt8)) (fuel : ℕ), 655360 < fuel →
        completions.flatten <+:
          ((v.completed s ++ (v.server.net.session s).outgoing).map fun p => p.sendBuffer.frame).flatten →
        Deliverable fuel completions connected →
        ∃ side, recvAll fuel completions connected = .ok side ∧
          side.rest.map decode = ((v.server.net.greeting s ++ w.game.net s).take side.rest.length).map some ∧
          (completions.flatten =
              ((v.completed s ++ (v.server.net.session s).outgoing).map fun p => p.sendBuffer.frame).flatten →
            side.rest.map decode = (v.server.net.greeting s ++ w.game.net s).map some) := by
  have hrun : (watch CMove.parse requested).isSome = true := by decide +kernel
  obtain ⟨v, hv⟩ := Option.isSome_iff_exists.1 hrun
  obtain ⟨st₀, hboot, hruns⟩ := watch_runs hv
  have hreceived := observed_received hruns
  refine ⟨st₀, v, hboot, hruns, hreceived 0, clients_decode hboot hruns (by decide) fun s => requested_accepted ?_⟩
  rw [hreceived s]
  by_cases hs : s = 0
  · rw [hs]
    exact .inr rfl
  · simp [requested, Round.bytes, Ne.symm hs]

end ZeldaServer
