import ZeldaServer.Proof.EndToEnd

/-!
# The moves of the clients

Every `C_Move` that the room handles comes from one session, and the room handles the moves of
each session in the order in which they were sent, each of them once, among the moves of the
others and the updates.

* `World.run_handled`: the operations of the room, with the sessions that asked for them.
* `moves_handled`: clients that send well-formed moves.
-/

namespace ZeldaServer

open Lib Std

variable {parse : List UInt8 → CMove} {w w' : World} {s : SessionId} {happenings : List Happening} {h : Happening} {fuel : ℕ}

/-- The operations that a session asked for. -/
def askedBy (s : SessionId) (ops : List (Option SessionId × RoomOp)) : List RoomOp :=
  (ops.filter fun e => e.1 = some s).map Prod.snd

theorem askedBy_append (s : SessionId) (ops ops' : List (Option SessionId × RoomOp)) :
    askedBy s (ops ++ ops') = askedBy s ops ++ askedBy s ops' := by
  unfold askedBy
  rw [List.filter_append, List.map_append]

theorem askedBy_none (s : SessionId) (op : RoomOp) : askedBy s [(none, op)] = [] := rfl

/-- What one session asked for. -/
theorem askedBy_some (s t : SessionId) (ops : List RoomOp) :
    askedBy s (ops.map fun op => (some t, op)) = if t = s then ops else [] := by
  unfold askedBy
  rw [List.filter_map, List.map_map]
  split
  · rename_i hts
    rw [List.filter_eq_self.2 fun op _ => by simp [hts]]
    exact List.map_id _
  · rename_i hts
    rw [List.filter_eq_nil_iff.2 fun op _ => by simp [hts]]
    rfl

/-- The operations that were asked for are those of the packets of the sessions. -/
structure Handled (parse : List UInt8 → CMove) (w : World) (ops : List (Option SessionId × RoomOp)) : Prop where
  asked : ∀ (s : SessionId) (packets : List (List UInt8)) (rest : List UInt8), Cut packetFormat (w.received s) packets rest →
    askedBy s ops = requests parse packets
  others : ∀ pkt, (none, RoomOp.handleCMove pkt) ∉ ops

/-- An operation that no session asked for. -/
theorem Handled.other {ops : List (Option SessionId × RoomOp)} {op : RoomOp} (hw : Handled parse w ops) (hsame : w'.received = w.received)
    (hop : ∀ pkt, op ≠ .handleCMove pkt) : Handled parse w' (ops ++ [(none, op)]) := by
  refine ⟨fun s packets rest hcut => ?_, fun pkt hmem => ?_⟩
  · rw [hsame] at hcut
    rw [askedBy_append, askedBy_none, List.append_nil]
    exact hw.asked s packets rest hcut
  · rcases List.mem_append.1 hmem with hmem | hmem
    · exact hw.others pkt hmem
    · exact hop pkt (Prod.mk.inj (List.mem_singleton.1 hmem)).2.symm

theorem Handled.step {ops : List (Option SessionId × RoomOp)} (hw : Handled parse w ops) (hstep : w.Step parse h w') :
    ∃ ops', Runs RoomStep w.game (ops'.map Prod.snd) w'.game ∧ Handled parse w' (ops ++ ops') := by
  cases hstep with
  | idle => exact ⟨[], .nil, by rwa [List.append_nil]⟩
  | enter _ hroom => exact ⟨[(none, _)], .single hroom, hw.other rfl nofun⟩
  | hangUp _ hroom => exact ⟨[(none, _)], .single hroom, hw.other rfl nofun⟩
  | gone _ => exact ⟨[], .nil, by rwa [List.append_nil]⟩
  | @receive s bytes rest rest' before packets g hbefore hpackets hroom =>
    refine ⟨(requests parse packets).map fun op => (some s, op), ?_, fun t packets' rest'' hcut => ?_, fun pkt hmem => ?_⟩
    · rw [List.map_map]
      exact (List.map_id (requests parse packets)).symm ▸ hroom
    · rw [askedBy_append, askedBy_some]
      by_cases hts : s = t
      · subst hts
        have hall := hbefore.append hpackets
        dsimp only at hcut
        rw [Function.update_self] at hcut
        obtain ⟨rfl, -⟩ := hcut.unique hall
        rw [if_pos rfl, hw.asked s before rest hbefore, requests_append]
      · dsimp only at hcut
        rw [Function.update_of_ne (Ne.symm hts)] at hcut
        rw [if_neg hts, List.append_nil]
        exact hw.asked t packets' rest'' hcut
    · rcases List.mem_append.1 hmem with hmem | hmem
      · exact hw.others pkt hmem
      · obtain ⟨op, -, hop⟩ := List.mem_map.1 hmem
        cases hop
  | update hroom => exact ⟨[(none, _)], .single hroom, hw.other rfl nofun⟩

/-- **What happens is a run of the room**, in which each session's moves come in the order of its bytes. -/
theorem World.run_handled (hrun : Runs (World.Step parse) w happenings w') (hstart : ∀ s, w.received s = []) :
    ∃ ops, Runs RoomStep w.game (ops.map Prod.snd) w'.game ∧ Handled parse w' ops := by
  induction hrun with
  | nil =>
    refine ⟨[], .nil, fun s packets rest hcut => ?_, fun pkt => List.not_mem_nil⟩
    rw [hstart s] at hcut
    obtain ⟨rfl, -⟩ := hcut.unique (.stop (Or.inl (by decide)))
    rfl
  | snoc _ hstep ih =>
    obtain ⟨ops, hruns, hhandled⟩ := ih
    obtain ⟨ops', hruns', hhandled'⟩ := hhandled.step hstep
    refine ⟨ops ++ ops', ?_, hhandled'⟩
    rw [List.map_append]
    exact hruns.append hruns'

/-! ## Clients that send moves -/

/-- A `C_Move` that a client can send. -/
structure CMove.Sendable (pkt : CMove) : Prop where
  wellFormed : pkt.WellFormed
  length : pkt.serialize.length ≤ 65531

theorem CMove.Sendable.isFrame {pkt : CMove} (h : pkt.Sendable) : packetFormat.IsFrame pkt.frame := isFrame_frameOf h.length

/-- What the packets of moves ask for. -/
theorem requests_frames {pkts : List CMove} (h : ∀ pkt ∈ pkts, pkt.Sendable) :
    requests CMove.parse (pkts.map CMove.frame) = pkts.map .handleCMove := by
  induction pkts with
  | nil => rfl
  | cons pkt pkts ih =>
    have hpkt := h pkt List.mem_cons_self
    have hread : PacketHeader.read pkt.frame = ⟨UInt16.ofNat (pkt.serialize.length + sizeofPacketHeader), C_Move⟩ := read_bytes _ _
    have hmove : IsMove pkt.frame := congrArg PacketHeader.id hread
    have hparse : CMove.parse (ServerPacketHandler.payload pkt.frame) = pkt := by
      unfold CMove.parse
      rw [CMove.frame, payload_frameOf hpkt.length, hpkt.wellFormed.parse]
    rw [List.map_cons, List.map_cons, ← List.singleton_append, requests_append, requests_single, if_pos hmove, hparse,
      ih fun pkt hpkt => h pkt (List.mem_cons_of_mem _ hpkt), List.singleton_append]

/-- **The moves of a client are handled in order, each of them once.** In every run of the main
loop in which no socket call fails, the room does a list of operations, of which each
`Handle_C_Move` is asked for by a session. Those of a session that sends well-formed moves, in
whatever pieces they arrive, are the moves whose last byte has arrived, in the order in which
they were sent. -/
theorem moves_handled {tilemap : TileMap} {acceptCount : ℕ} {st₀ : Server Room} {rounds : List Round} {v : Observed}
    (hboot : boot CMove.parse fuel tilemap acceptCount = .ok st₀)
    (hrun : Runs (Observes CMove.parse) { server := st₀ } rounds v) (hanswers : ∀ e ∈ rounds, Succeed e.answers) :
    ∃ g g' ops, RoomStep roomStart (.init tilemap) g ∧ Runs RoomStep g (ops.map Prod.snd) g' ∧ g'.game = v.server.game ∧
      (∀ pkt, (none, .handleCMove pkt) ∉ ops) ∧
      ∀ (s : SessionId) (pkts : List CMove), (∀ pkt ∈ pkts, pkt.Sendable) → v.received s <+: (pkts.map CMove.frame).flatten →
        askedBy s ops = (pkts.take (contained (pkts.map CMove.frame) (v.received s).length).length).map .handleCMove := by
  obtain ⟨g, happenings, w, ledgers, hinit, hmeans, hworld, hshows⟩ := run_shows hboot hrun hanswers
  obtain ⟨ops, hruns, hhandled⟩ := World.run_handled hworld fun s => rfl
  refine ⟨g, w.game, ops, hinit, hruns, hshows.reflected.game.symm, hhandled.others, fun s pkts hpkts hpre => ?_⟩
  have hframes : ∀ f ∈ pkts.map CMove.frame, packetFormat.IsFrame f := by
    intro f hf
    obtain ⟨pkt, hpkt, rfl⟩ := List.mem_map.1 hf
    exact (hpkts pkt hpkt).isFrame
  have hcut := cut_initial hframes (by decide) hpre
  rw [hshows.received] at hcut ⊢
  rw [hhandled.asked s _ _ hcut]
  conv_lhs => rw [contained_take, ← List.map_take]
  exact requests_frames fun pkt hpkt => hpkts pkt (List.mem_of_mem_take hpkt)

/-- The move that arrives in two pieces is handled. -/
theorem moves_handled_example : ∃ st₀ v, boot CMove.parse 20 {} 1 = .ok st₀ ∧
    Runs (Observes CMove.parse) { server := st₀ } requested v ∧
    ∃ g g' ops, RoomStep roomStart (.init {}) g ∧ Runs RoomStep g (ops.map Prod.snd) g' ∧ g'.game = v.server.game ∧
      (∀ pkt, (none, .handleCMove pkt) ∉ ops) ∧ askedBy 0 ops = [.handleCMove (({ info? := some { objectid := 2 } } : CMove))] := by
  have hrun : (watch CMove.parse requested).isSome = true := by decide +kernel
  obtain ⟨v, hv⟩ := Option.isSome_iff_exists.1 hrun
  obtain ⟨st₀, hboot, hruns⟩ := watch_runs hv
  obtain ⟨g, g', ops, hinit, hops, hgame, hnone, hasked⟩ := moves_handled hboot hruns (by decide)
  refine ⟨st₀, v, hboot, hruns, g, g', ops, hinit, hops, hgame, hnone, ?_⟩
  have hreceived : v.received 0 = [8, 0, 10, 0, 10, 2, 8, 2] := observed_received hruns 0
  have hsendable : ∀ pkt ∈ [({ info? := some { objectid := 2 } } : CMove)], pkt.Sendable := by
    intro pkt hpkt
    rw [List.mem_singleton.1 hpkt]
    refine ⟨⟨?_, .nil⟩, by decide⟩
    rintro info ⟨⟩
    exact ⟨⟨rfl, rfl, rfl, rfl, by decide, .nil⟩, by decide⟩
  have hone := hasked 0 [({ info? := some { objectid := 2 } } : CMove)] hsendable (by rw [hreceived]; decide)
  rw [hreceived] at hone
  exact hone

end ZeldaServer
