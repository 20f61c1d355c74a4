import ZeldaServer.Proof.OnRecv
import ZeldaServer.Proof.RoomRun
import ZeldaServer.Spec.GameServer

/-!
# What the server is for

The server seen from its clients: a room with an outbox for each session, who is online,
and all the bytes that each session has sent. Nothing is left of buffers, queues, completions
and nested calls. `World.Step` is what one happening does: the bytes of a session are cut into
packets wherever they end, and every `C_Move` among the packets is handled once, in order.

* `World.run_room`: what happens is a run of the room's operations, and every packet that is
  handled is in the bytes of a session.
* `run_silent`: nothing is sent to a session before it enters.
-/

namespace ZeldaServer

open Lib Std

structure World where
  game : Game Outboxes
  online : SessionId → Bool := fun _ => false
  received : SessionId → List UInt8 := fun _ => []

inductive Happening
  | idle
  | enter (session : SessionId)
  | hangUp (session : SessionId)
  | receive (session : SessionId) (bytes : List UInt8)
  | update (ticks : List UInt64) (pick : Pick)

/-- The packet is a `C_Move`. -/
def IsMove (packet : List UInt8) : Prop := (PacketHeader.read packet).id = C_Move

instance (packet : List UInt8) : Decidable (IsMove packet) := inferInstanceAs (Decidable (_ = C_Move))

/-- What packets ask of the room. -/
def requests (parse : List UInt8 → CMove) (packets : List (List UInt8)) : List RoomOp :=
  (packets.filter fun packet => IsMove packet).map fun packet => .handleCMove (parse (ServerPacketHandler.payload packet))

inductive World.Step (parse : List UInt8 → CMove) (w : World) : Happening → World → Prop
  | idle : Step parse w .idle w
  | enter {s : SessionId} {g : Game Outboxes} : w.online s = false → RoomStep w.game (.enterRoom s) g →
      Step parse w (.enter s) { w with game := g, online := Function.update w.online s true }
  | hangUp {s : SessionId} {g : Game Outboxes} : w.online s = true → RoomStep w.game (.leaveRoom s) g →
      Step parse w (.hangUp s) { w with game := g, online := Function.update w.online s false }
  | gone {s : SessionId} : w.online s = false → Step parse w (.hangUp s) w
  | receive {s : SessionId} {bytes rest rest' : List UInt8} {before packets : List (List UInt8)} {g : Game Outboxes} :
      Cut packetFormat (w.received s) before rest → Cut packetFormat (rest ++ bytes) packets rest' →
      Runs RoomStep w.game (requests parse packets) g →
      Step parse w (.receive s bytes)
        { w with game := g, received := Function.update w.received s (w.received s ++ bytes) }
  | update {ticks : List UInt64} {pick : Pick} {g : Game Outboxes} : RoomStep w.game (.update ticks pick) g →
      Step parse w (.update ticks pick) { w with game := g }

variable {parse : List UInt8 → CMove} {w w' : World} {g g' : Game Outboxes} {s : SessionId} {ops : List RoomOp}
  {happenings : List Happening} {h : Happening} {pkt : CMove}

/-! ## The packets that are handled -/

/-- The packet is a `C_Move` among the bytes of a session. -/
def World.Asked (parse : List UInt8 → CMove) (w : World) (pkt : CMove) : Prop :=
  ∃ (s : SessionId) (packets : List (List UInt8)) (rest packet : List UInt8),
    Cut packetFormat (w.received s) packets rest ∧ packet ∈ packets ∧ IsMove packet ∧
      pkt = parse (ServerPacketHandler.payload packet)

theorem mem_requests {packets : List (List UInt8)} (hpkt : RoomOp.handleCMove pkt ∈ requests parse packets) :
    ∃ packet ∈ packets, IsMove packet ∧ pkt = parse (ServerPacketHandler.payload packet) := by
  unfold requests at hpkt
  obtain ⟨packet, hpacket, heq⟩ := List.mem_map.1 hpkt
  obtain ⟨hmem, hmove⟩ := List.mem_filter.1 hpacket
  exact ⟨packet, hmem, of_decide_eq_true hmove, (RoomOp.handleCMove.inj heq).symm⟩

theorem requests_append (packets packets' : List (List UInt8)) :
    requests parse (packets ++ packets') = requests parse packets ++ requests parse packets' := by
  unfold requests
  rw [List.filter_append, List.map_append]

/-- What one packet asks. -/
theorem requests_single (packet : List UInt8) : requests parse [packet] =
    if IsMove packet then [.handleCMove (parse (ServerPacketHandler.payload packet))] else [] := by
  unfold requests
  split
  · rename_i hmove
    simp [hmove]
  · rename_i hother
    simp [hother]

theorem requests_creates (packets : List (List UInt8)) : (requests parse packets).countP RoomOp.creates = 0 := by
  unfold requests
  rw [List.countP_eq_zero]
  intro op hop
  obtain ⟨packet, -, rfl⟩ := List.mem_map.1 hop
  exact Bool.false_ne_true

/-- One happening. What was asked stays asked. -/
theorem World.Step.room (hstep : w.Step parse h w') : ∃ ops, Runs RoomStep w.game ops w'.game ∧ ops.countP RoomOp.creates ≤ 1 ∧
    (∀ pkt, .handleCMove pkt ∈ ops → w'.Asked parse pkt) ∧ ∀ pkt, w.Asked parse pkt → w'.Asked parse pkt := by
  cases hstep with
  | idle => exact ⟨[], .nil, Nat.zero_le _, fun _ hpkt => (List.not_mem_nil hpkt).elim, fun _ hasked => hasked⟩
  | enter _ hroom => exact ⟨_, .single hroom, List.countP_le_length, fun _ hpkt => (nomatch List.mem_singleton.1 hpkt), fun _ hasked => hasked⟩
  | hangUp _ hroom => exact ⟨_, .single hroom, List.countP_le_length, fun _ hpkt => (nomatch List.mem_singleton.1 hpkt), fun _ hasked => hasked⟩
  | gone _ => exact ⟨[], .nil, Nat.zero_le _, fun _ hpkt => (List.not_mem_nil hpkt).elim, fun _ hasked => hasked⟩
  | @receive s bytes rest rest' before packets g hbefore hpackets hroom =>
    have hall := hbefore.append hpackets
    have hmine : Function.update w.received s (w.received s ++ bytes) s = w.received s ++ bytes := Function.update_self _ _ _
    rw [← hmine] at hall
    refine ⟨_, hroom, (requests_creates packets).trans_le (Nat.zero_le 1), fun pkt hpkt => ?_, fun pkt hasked => ?_⟩
    · obtain ⟨packet, hmem, hmove, heq⟩ := mem_requests hpkt
      exact ⟨s, _, _, packet, hall, List.mem_append_right _ hmem, hmove, heq⟩
    · obtain ⟨t, packets', rest'', packet, hcut, hmem, hmove, heq⟩ := hasked
      by_cases hts : t = s
      · rw [hts] at hcut
        obtain ⟨rfl, -⟩ := hcut.unique hbefore
        exact ⟨s, _, _, packet, hall, List.mem_append_left _ hmem, hmove, heq⟩
      · refine ⟨t, packets', rest'', packet, ?_, hmem, hmove, heq⟩
        rw [← show Function.update w.received s (w.received s ++ bytes) t = w.received t from Function.update_of_ne hts _ _] at hcut
        exact hcut
  | update hroom => exact ⟨_, .single hroom, List.countP_le_length, fun _ hpkt => (nomatch List.mem_singleton.1 hpkt), fun _ hasked => hasked⟩

/-- **What happens is a run of the room.** -/
theorem World.run_room (hrun : Runs (World.Step parse) w happenings w') : ∃ ops, Runs RoomStep w.game ops w'.game ∧
    ops.countP RoomOp.creates ≤ happenings.length ∧ ∀ pkt, .handleCMove pkt ∈ ops → w'.Asked parse pkt := by
  induction hrun with
  | nil => exact ⟨[], .nil, Nat.zero_le _, fun _ hpkt => (List.not_mem_nil hpkt).elim⟩
  | snoc _ hstep ih =>
    obtain ⟨ops, hruns, hcount, hasked⟩ := ih
    obtain ⟨ops', hruns', hone, hasked', hstays⟩ := hstep.room
    refine ⟨ops ++ ops', hruns.append hruns', ?_, fun pkt hpkt => ?_⟩
    · rw [List.countP_append, List.length_append]
      exact Nat.add_le_add hcount hone
    rcases List.mem_append.1 hpkt with hpkt | hpkt
    · exact hstays pkt (hasked pkt hpkt)
    · exact hasked' pkt hpkt

/-! ## Entering -/

theorem Removes.scene {B : Scene → Msg → Outboxes → Outboxes → Prop} {v v' : Stage Outboxes} {id : UInt64}
    (h : Removes B v id v') : v'.game.gameSessions = v.game.gameSessions := by
  cases h with
  | missing => rfl
  | @found r o which =>
    cases which with
    | players => rfl
    | monsters => rfl

/-- An act tells the fields of a session only if the session enters. -/
theorem Act.gameSessions {B : Scene → Msg → Outboxes → Outboxes → Prop} {U : SessionId → Msg → Outboxes → Outboxes → Prop}
    {v v' : Stage Outboxes} {a : Label} (h : Act B U v a v') :
    v'.game.gameSessions s = v.game.gameSessions s ∨ (a = .enter s ∧ (v'.game.gameSessions s).gameRoom = true ∧
      (v'.game.gameSessions s).player ≠ none) := by
  have hstrikes : ∀ {v v' : Stage Outboxes} {attacker target : Ref} {info : ObjectInfo}, Strikes B v attacker target info v' →
      v'.game.gameSessions = v.game.gameSessions := by
    intro v v' attacker target info hstrike
    cases hstrike with
    | mk => rfl
  cases h with
  | @enter session =>
    by_cases hs : s = session
    · rw [hs]
      refine .inr ⟨rfl, ?_, ?_⟩
      · exact congrArg GameSession.gameRoom (Function.update_self session _ v.game.gameSessions)
      · rw [show (v.game.enter session).gameSessions session = _ from Function.update_self _ _ _]
        exact Option.some_ne_none _
    · exact .inl (Function.update_of_ne hs _ _)
  | spawn => exact .inl rfl
  | think => exact .inl rfl
  | walk => exact .inl rfl
  | report => exact .inl rfl
  | hit hstrike _ => exact .inl (by rw [hstrikes hstrike])
  | kill hstrike _ _ hr =>
    refine .inl ?_
    rw [hr.scene, ← hstrikes hstrike]
    rfl
  | leave hr => exact .inl (by rw [hr.scene])

/-- The session is in the room, or has been. -/
def Entered (g : Game Outboxes) (s : SessionId) : Prop :=
  (g.game.gameSessions s).gameRoom = true ∧ (g.game.gameSessions s).player ≠ none

theorem Entered.step {op : RoomOp} (hgood : Good Anyone g []) (hstep : RoomStep g op g')
    (h : Entered g s ∨ op = .enterRoom s) : Entered g' s := by
  obtain ⟨-, acts, hacts, hperforms⟩ := roomStep_acts hgood hstep
  rcases h with h | rfl
  · have hin : (g.stage.game.gameSessions s).gameRoom = true ∧ (g.stage.game.gameSessions s).player ≠ none := h
    refine Runs.invariant (P := fun v => (v.game.gameSessions s).gameRoom = true ∧ (v.game.gameSessions s).player ≠ none) hin
      (fun v a v' hv hact => ?_) hacts
    rcases hact.gameSessions (s := s) with hsame | ⟨-, hentered⟩
    · rw [hsame]
      exact hv
    · exact hentered
  · rw [show acts = [.enter s] from hperforms] at hacts
    have hact := hacts.of_single
    show (g'.stage.game.gameSessions s).gameRoom = true ∧ (g'.stage.game.gameSessions s).player ≠ none
    generalize g'.stage = v' at hact ⊢
    cases hact with
    | enter =>
      have hmine := Function.update_self s (GameSession.mk true (some g.game.objects.length)) g.game.gameSessions
      refine ⟨congrArg GameSession.gameRoom hmine, ?_⟩
      rw [show (g.stage.game.enter s).gameSessions s = _ from hmine]
      exact Option.some_ne_none _

theorem Entered.run (hgood : Good Anyone g []) (hrun : Runs RoomStep g ops g') (h : Entered g s) :
    Entered g' s ∧ Good Anyone g' [] := by
  induction hrun with
  | nil => exact ⟨h, hgood⟩
  | snoc _ hstep ih => exact ⟨Entered.step ih.2 hstep (.inl ih.1), (roomStep_acts ih.2 hstep).1⟩

/-! ## A session that has not entered -/

theorem Told.silent {sc : Scene} {msg : Msg} {net net' : Outboxes} (h : Told sc msg net net')
    (hs : (sc.gameSessions s).player = none) : net' s = net s := by
  refine (h s).2 ?_
  rintro ⟨r, hr, -⟩
  rw [hs] at hr
  cases hr

/-- An act sends nothing to a session that has no player after it. -/
theorem Act.silent {v v' : Stage Outboxes} {a : Label} (h : Act Told Whisper v a v')
    (hs : (v'.game.gameSessions s).player = none) : (v.game.gameSessions s).player = none ∧ v'.net s = v.net s := by
  have hbefore : (v.game.gameSessions s).player = none := by
    rcases h.gameSessions (s := s) with hsame | ⟨-, -, hplayer⟩
    · rw [← hsame]
      exact hs
    · exact absurd hs hplayer
  refine ⟨hbefore, ?_⟩
  have hremoves : ∀ {v v' : Stage Outboxes} {id : UInt64}, Removes Told v id v' → (v.game.gameSessions s).player = none →
      v'.net s = v.net s := by
    intro v v' id hr hs
    cases hr with
    | missing => rfl
    | found _ _ _ htold => exact htold.silent hs
  have hstrikes : ∀ {v v' : Stage Outboxes} {attacker target : Ref} {info : ObjectInfo}, Strikes Told v attacker target info v' →
      (v.game.gameSessions s).player = none → v'.net s = v.net s ∧ (v'.game.gameSessions s).player = none := by
    intro v v' attacker target info hstrike hs
    cases hstrike with
    | mk _ _ _ _ _ htold => exact ⟨htold.silent hs, hs⟩
  cases h with
  | @enter session objects net₁ net₂ net₃ _ hmine _ hothers htold =>
    have hne : s ≠ session := by
      rintro rfl
      rw [show (v.game.enter s).gameSessions s = _ from Function.update_self _ _ _] at hs
      cases hs
    show net₃ s = v.net s
    rw [htold.silent hs, hothers, Function.update_of_ne hne, hmine, Function.update_of_ne hne]
  | spawn htold => exact htold.silent hs
  | think => rfl
  | walk _ _ _ _ htold => exact htold.silent hs
  | report _ _ _ htold => exact htold.silent hs
  | hit hstrike _ => exact (hstrikes hstrike hbefore).1
  | kill hstrike _ _ hr =>
    obtain ⟨hnet, hs₁⟩ := hstrikes hstrike hbefore
    exact (hremoves hr hs₁).trans hnet
  | leave hr => exact hremoves hr hbefore

/-- **Nothing is sent to a session before it enters.** -/
theorem run_silent (h : Runs RoomStep roomStart ops g) (hs : (g.game.gameSessions s).player = none) : g.net s = [] := by
  induction h with
  | nil => rfl
  | snoc hruns hstep ih =>
    obtain ⟨-, acts, hacts, -⟩ := roomStep_acts (run_good hruns).1 hstep
    refine Runs.invariant (P := fun v => (v.game.gameSessions s).player = none → v.net s = []) ih ?_ hacts hs
    intro v a v' hv hact hs'
    obtain ⟨hs, hnet⟩ := hact.silent hs'
    rw [hnet]
    exact hv hs

end ZeldaServer
