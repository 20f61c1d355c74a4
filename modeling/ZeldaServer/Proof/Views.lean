import ZeldaServer.Proof.Clients
import ZeldaServer.Proof.EndToEnd

/-!
# What the clients see

A client cuts the bytes of its session into packets, parses them, and replays the messages.
When everything that was sent to it has arrived, the ids that it knows are those of the room.

* `feed_follows`: the ids that the outboxes tell.
* `clients_see_room`: from the bytes to the ids.
-/

namespace ZeldaServer

open Lib Std

variable {g : Game Outboxes} {ops : List RoomOp} {s : SessionId} {fuel : ℕ}

/-- The ids that an outbox tells are those of the room. -/
theorem feed_follows (h : Runs RoomStep roomStart ops g) (hb : ops.countP RoomOp.creates ≤ 2 ^ 64) (hh : g.game.Hosts s) :
    ∃ f, Feed.replay (g.net s) = some f ∧ ∀ id : UInt64, id ∈ f.known ↔ g.game.players[id]? ≠ none ∨ g.game.monsters[id]? ≠ none := by
  have hreports : Runs (ReportStep fun _ _ _ => True) roomStart ops g :=
    h.mono fun _ _ _ hstep => ⟨hstep, fun _ _ _ _ _ _ => trivial⟩
  obtain ⟨hs, hfollows⟩ := run_invariant follows_start
    (fun v v' hs hd hb hp => Follows.delivery hp hs hd hb) hreports hb
  obtain ⟨f, hf, hm⟩ := hfollows.inRoom s (hs.core.hosts hh)
  refine ⟨f, hf, fun id => ?_⟩
  rw [hm.known id]
  constructor
  · rintro ⟨r, rfl, hin | hin⟩
    · exact .inl (Option.ne_none_iff_exists'.2 ⟨r, hin⟩)
    · exact .inr (Option.ne_none_iff_exists'.2 ⟨r, hin⟩)
  · rintro (hin | hin)
    · obtain ⟨r, hr⟩ := Option.ne_none_iff_exists'.1 hin
      obtain ⟨hkey, -⟩ := hs.core.players id r hr
      exact ⟨r, hkey, .inl (hkey ▸ hr)⟩
    · obtain ⟨r, hr⟩ := Option.ne_none_iff_exists'.1 hin
      obtain ⟨hkey, -⟩ := hs.core.monsters id r hr
      exact ⟨r, hkey, .inr (hkey ▸ hr)⟩

/-- `S_EnterGame` tells no id. -/
theorem replay_greeting (net : Net) (msgs : List Msg) : Feed.replay (net.greeting s ++ msgs) = Feed.replay msgs := by
  unfold Net.greeting
  split
  · rfl
  · rfl

/-- **Clients see the room.** In every run of the main loop with fewer than `2 ^ 64` turns, in
which no socket call fails and every `C_Move` that arrives is accepted by the parser: whenever
the session of a player in the room is connected with no send under way, and the bytes of its
completed sends have arrived, in whatever pieces, its client has parsed them as messages from
which it knows exactly the ids of the objects in the room. -/
theorem clients_see_room {tilemap : TileMap} {acceptCount : ℕ} {st₀ : Server Room} {rounds : List Round} {v : Observed}
    (hboot : boot CMove.parse fuel tilemap acceptCount = .ok st₀)
    (hrun : Runs (Observes CMove.parse) { server := st₀ } rounds v) (hanswers : ∀ e ∈ rounds, Succeed e.answers)
    (haccepted : ∀ s, Accepted (v.received s)) (hlength : rounds.length < 2 ^ 64) (hhosts : v.server.game.Hosts s)
    (hup : (v.server.net.session s).connected = true) (hwire : (v.server.net.session s).wire = [])
    {completions : List (List UInt8)} {fuel' : ℕ} (hfuel : 655360 < fuel')
    (hwhole : completions.flatten = ((v.completed s).map fun p => p.sendBuffer.frame).flatten)
    (hd : Deliverable fuel' completions connected) :
    ∃ side msgs f, recvAll fuel' completions connected = .ok side ∧ side.rest.map decode = msgs.map some ∧
      Feed.replay msgs = some f ∧
        ∀ id : UInt64, id ∈ f.known ↔ v.server.game.players[id]? ≠ none ∨ v.server.game.monsters[id]? ≠ none := by
  obtain ⟨g, happenings, w, ledgers, ops, hinit, hmeans, hworld, hshows, hroom, hcount, hops⟩ :=
    run_handles hboot hrun hanswers haccepted
  have hidle : (v.server.net.session s).outgoing = [] := by
    unfold Session.outgoing
    rw [hwire, (hshows.reflected.net.keeps s).idle hup hwire]
    rfl
  rw [← List.append_nil (v.completed s), ← hidle] at hwhole
  obtain ⟨side, hside, -, hall⟩ := hshows.decodes hroom hops hfuel (by rw [hwhole]) hd
  have hcreates : (RoomOp.init tilemap :: ops).countP RoomOp.creates ≤ 2 ^ 64 := by
    rw [List.countP_cons_of_pos rfl]
    omega
  rw [hshows.reflected.game] at hhosts ⊢
  obtain ⟨f, hf, hknown⟩ := feed_follows hroom hcreates hhosts
  exact ⟨side, _, f, hside, hall hwhole, (replay_greeting _ _).trans hf, hknown⟩

/-- A session connects, and its sends complete. -/
def settled : List Round :=
  [{ turn := .dispatch (.accept 0 true 0) }, { turn := .dispatch (.sent 0 6) }, { turn := .dispatch (.sent 0 100) }]

/-- A player sees itself and the monster. -/
theorem clients_see_room_example : ∃ st₀ v side msgs f, boot CMove.parse 20 {} 1 = .ok st₀ ∧
    Runs (Observes CMove.parse) { server := st₀ } settled v ∧
    recvAll 655361 [((v.completed 0).map fun p => p.sendBuffer.frame).flatten] connected = .ok side ∧
    side.rest.map decode = msgs.map some ∧ Feed.replay msgs = some f ∧ 1 ∈ f.known ∧ 2 ∈ f.known := by
  have hrun : (watch CMove.parse settled).map (fun v => decide (v.server.game.players[(2 : UInt64)]? = some 1 ∧
      v.server.game.monsters[(1 : UInt64)]? = some 0 ∧ (v.server.game.objects[1]?).map (·.kind) = some (.player (some 0)) ∧
      (v.server.net.session 0).connected = true ∧ (v.server.net.session 0).wire.isEmpty = true ∧
      ((v.completed 0).map fun p => p.sendBuffer.frame).flatten.length = 81)) = some true := by decide +kernel
  obtain ⟨v, hv, hall⟩ := Option.map_eq_some_iff.1 hrun
  obtain ⟨hplayer, hmonster, hkind, hup, hwire, hlength⟩ := of_decide_eq_true hall
  obtain ⟨st₀, hboot, hruns⟩ := watch_runs hv
  obtain ⟨o, ho, hk⟩ := Option.map_eq_some_iff.1 hkind
  have haccepted : ∀ s, Accepted (v.received s) := by
    intro s
    rw [observed_received hruns s]
    exact requested_accepted (.inl rfl)
  have hd : Deliverable 655361 [((v.completed 0).map fun p => p.sendBuffer.frame).flatten] connected :=
    ⟨⟨_, rfl, by rw [hlength]; decide, by rw [hlength]; decide⟩, fun _ _ => trivial⟩
  obtain ⟨side, msgs, f, hside, hmsgs, hf, hknown⟩ := clients_see_room hboot hruns (by decide) haccepted (by decide)
    ⟨2, 1, o, hplayer, ho, hk⟩ hup (List.isEmpty_iff.1 hwire) (by decide) (List.append_nil _) hd
  refine ⟨st₀, v, side, msgs, f, hboot, hruns, hside, hmsgs, hf, (hknown 1).2 (.inr ?_), (hknown 2).2 (.inl ?_)⟩
  · exact Option.ne_none_iff_exists'.2 ⟨_, hmonster⟩
  · exact Option.ne_none_iff_exists'.2 ⟨_, hplayer⟩

end ZeldaServer
