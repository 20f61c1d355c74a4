import ZeldaServer.Proof.Presence
import ZeldaServer.Proof.Progress
import ZeldaServer.Spec.Copied

/-!
# Broadcasts in which a send is reset

`Broadcast` sends to the elements of `_players` one after the other. A `WSASend` that is
reset disconnects its session in the middle of the loop: the player leaves the room, and
the broadcast of its removal may be reset at other sessions in turn. A broadcast in which
no send is reset reaches everyone; the others come back to an element that was erased.

* `send_calm`, `send_cut`: one send, by the answer of its `WSASend`.
* `broadcast_spared`, `broadcast_outcome`: the loop, without and with resets.
* `Going.delivered`: what a broadcast that has come to the end has delivered.
-/

namespace ZeldaServer

open Lib Std

/-- The call fails with one of the codes for which `HandleError` disconnects. -/
def WsaResult.reset (answer : WsaResult) : Bool := answer.failed.any isReset

/-- A send to the session calls `WSASend`. -/
def Session.ready (x : Session) : Bool := x.connected && !x.side.sendResitered

/-- What was sent to the session: on the wire or in its queue. -/
def Session.outgoing (x : Session) : List Packet := x.wire.flatten ++ x.side.sendQueue

/-- The session of a player. -/
def Scene.listener (sc : Scene) (r : Ref) : Option SessionId :=
  match sc.objects[r]? with
  | some o =>
    match o.kind with
    | .player session => session
    | .monster _ => none
  | none => none

namespace Server

/-- The sessions of these players whose `WSASend` is called when all are sent to. -/
def callsAt (st : Server Room) (l : List (UInt64 × Ref)) : List SessionId :=
  l.filterMap fun p => (st.game.listener p.2).filter fun s => (st.net.session s).ready

/-- The sessions whose `WSASend` is called in a broadcast, in this order. -/
def calls (st : Server Room) : List SessionId := callsAt st st.game.players.toList

/-- No send of a broadcast is reset. -/
def Spared (st : Server Room) : Prop := ∀ answer ∈ st.net.answers.take (calls st).length, answer.reset = false

instance (st : Server Room) : Decidable (Spared st) := inferInstanceAs (Decidable (∀ _ ∈ _, _))

/-- Every player in the room whose session is connected and does not fail is sent the
packet, once. -/
def Delivered (packet : Packet) (st st' : Server Room) : Prop :=
  ∀ (k : UInt64) (r : Ref) (s : SessionId), st.game.players[k]? = some r → st.game.listener r = some s →
    (st.net.session s).connected = true → (∀ answer, (s, answer) ∈ (calls st).zip st.net.answers → answer.failed = none) →
    (st'.net.session s).outgoing = (st.net.session s).outgoing ++ [packet]

end Server

open Server

variable {st st' : Server Room} {pins : List Ref} {s : SessionId} {r : Ref} {packet : Packet}
  {disconnect : SessionId → Server Room → Outcome (Server Room)} {leaving : SessionId → Prop} {F : Fault → Prop}

/-! ## One send -/

/-- The session while `WSASend` is called. -/
def Session.drained (packet : Packet) (x : Session) : Session :=
  { x with side := { sendQueue := [], sendResitered := true, sendBuffers := x.side.sendQueue ++ [packet] } }

/-- The session when the packet waits in its queue. -/
def Session.waiting (packet : Packet) (x : Session) : Session :=
  { x with side := { x.side with sendQueue := x.side.sendQueue ++ [packet], sendResitered := true } }

/-- What `WSASend` answers next. -/
def Server.answer (st : Server Room) : WsaResult := st.net.answers.head?.getD .success

/-- The state in which `WSASend` has answered. -/
def Server.called (st : Server Room) (s : SessionId) (packet : Packet) : Server Room :=
  { st with net := { st.net.modify s (·.drained packet) with answers := st.net.answers.tail } }

theorem server_same (f : Session → Session) : (Server.modify st s f).net.session s = f (st.net.session s) :=
  modify_same s f

theorem server_other (f : Session → Session) {t : SessionId} (h : t ≠ s) :
    (Server.modify st s f).net.session t = st.net.session t := modify_other f h

theorem server_unchanged {f : Session → Session} (hf : ∀ x, (f x).connected = x.connected) :
    Unchanged st.net (Server.modify st s f).net := .modify hf

theorem send_queued (h : (st.net.session s).ready = false) :
    Session.send disconnect s packet st = .ok (Server.modify st s (·.waiting packet)) := by
  unfold Session.ready at h
  unfold Session.send SendSide.push
  dsimp only
  split
  · rename_i hfree
    -- the flag was free, so the session is not connected
    rw [show (Server.session st s).side.sendResitered = (st.net.session s).side.sendResitered from rfl] at hfree
    rw [hfree, Bool.and_true] at h
    unfold Session.registerSend
    rw [if_pos]
    · unfold Server.modify Net.modify
      rfl
    · simpa [Server.session, Server.modify, Net.modify] using h
  · unfold Server.modify Net.modify
    rfl

/-- A send that calls `WSASend`. -/
theorem send_ready (h : (st.net.session s).ready = true) : Session.send disconnect s packet st =
    match (answer st).failed with
    | none => .ok (Server.modify (called st s packet) s fun x => { x with wire := x.wire ++ [x.side.sendBuffers] })
    | some code => Session.handleError disconnect code s (called st s packet) >>= fun st' =>
        .ok (Server.modify st' s fun x => { x with side := x.side.release }) := by
  unfold Session.ready at h
  rw [Bool.and_eq_true, Bool.not_eq_true'] at h
  obtain ⟨hup, hfree⟩ := h
  have hcalled : (Server.modify (Server.modify st s fun x => { x with side := ((st.net.session s).side.push packet).2 }) s
      fun x => { x with side := x.side.clear.drain }).wsa = (answer st, called st s packet) := by
    unfold Server.wsa answer called Server.modify Net.modify
    simp only [Function.update_self, Function.update_idem]
    cases st.net.answers <;> rfl
  unfold Session.send
  dsimp only
  rw [if_pos (by
    unfold SendSide.push
    rw [show (Server.session st s).side.sendResitered = false from hfree]
    rfl)]
  unfold Session.registerSend
  rw [if_neg]
  · dsimp only
    rewrite [show Server.session st s = st.net.session s from rfl, hcalled]
    rfl
  · simpa [Server.session, Server.modify, Net.modify] using hup

theorem called_self : (called st s packet).net.session s = (st.net.session s).drained packet := modify_same s _

theorem called_other {t : SessionId} (h : t ≠ s) : (called st s packet).net.session t = st.net.session t :=
  modify_other (·.drained packet) h

theorem called_unchanged : Unchanged st.net (called st s packet).net := by
  have hside : Unchanged st.net (st.net.modify s (·.drained packet)) := .modify fun _ => rfl
  exact ⟨hside.connected, rfl, rfl, rfl, rfl, rfl⟩

/-- A send that is not reset. -/
structure Sent (s : SessionId) (packet : Packet) (st st' : Server Room) : Prop where
  game : st'.game = st.game
  unchanged : Unchanged st.net st'.net
  other : ∀ t, t ≠ s → st'.net.session t = st.net.session t
  answers : st'.net.answers = if (st.net.session s).ready then st.net.answers.tail else st.net.answers
  outgoing : ((st.net.session s).ready = true → (answer st).failed = none) →
    (st'.net.session s).outgoing = (st.net.session s).outgoing ++ [packet]
  /-- the flag is kept, unless the call failed -/
  ready : (st'.net.session s).ready = true → (st.net.session s).ready = true ∧ (answer st).failed ≠ none

theorem waiting_sent (h : (st.net.session s).ready = false) : Sent s packet st (Server.modify st s (·.waiting packet)) := by
  refine ⟨rfl, server_unchanged fun _ => rfl, fun t ht => server_other _ ht,
    by simp [h, Server.modify, Net.modify], fun _ => ?_, fun hready => ?_⟩
  · rw [server_same]
    simp [Session.outgoing, Session.waiting]
  · rw [server_same] at hready
    simp [Session.ready, Session.waiting] at hready

/-- **A send that is not reset** returns. -/
theorem send_calm (hcalm : (st.net.session s).ready = true → (answer st).reset = false) :
    ∃ st', Session.send disconnect s packet st = .ok st' ∧ Sent s packet st st' := by
  cases hready : (st.net.session s).ready with
  | false => exact ⟨_, send_queued hready, waiting_sent hready⟩
  | true =>
    have hcalm := hcalm hready
    rw [send_ready hready]
    cases hfailed : (answer st).failed with
    | none =>
      refine ⟨_, rfl, rfl, called_unchanged.trans (server_unchanged fun _ => rfl), fun t ht => ?_, by rw [hready]; rfl,
        fun _ => ?_, fun h => ?_⟩
      · rw [server_other _ ht, called_other ht]
      · rw [server_same, called_self]
        simp [Session.outgoing, Session.drained]
      · rw [server_same, called_self] at h
        simp [Session.ready, Session.drained] at h
    | some code =>
      have hcode : isReset code = false := by
        unfold WsaResult.reset at hcalm
        rw [hfailed] at hcalm
        exact hcalm
      dsimp only
      unfold Session.handleError
      rw [hcode]
      refine ⟨_, rfl, rfl, called_unchanged.trans (server_unchanged fun _ => rfl), fun t ht => ?_, by rw [hready]; rfl,
        fun h => ?_, fun _ => ?_⟩
      · rw [server_other _ ht, called_other ht]
      · rw [hfailed] at h
        exact absurd (h hready) (Option.some_ne_none code)
      · rw [hfailed]
        exact ⟨hready, Option.some_ne_none code⟩

/-- **A send that is reset** disconnects the session. -/
theorem send_cut (hready : (st.net.session s).ready = true) (hreset : (answer st).reset = true) :
    Session.send disconnect s packet st = disconnect s (called st s packet) >>= fun st' =>
      .ok (Server.modify st' s fun x => { x with side := x.side.release }) := by
  unfold WsaResult.reset at hreset
  obtain ⟨code, hcode, hcut⟩ := (Option.any_eq_true _ _).1 hreset
  rw [send_ready hready, hcode]
  dsimp only
  unfold Session.handleError
  rw [if_pos hcut]

/-! ## The loop -/

/-- Whoever plays in the room. -/
abbrev Whoever : SessionId → Net → Prop := Present fun _ => True

/-- The room does not notice what happens to the sessions. -/
theorem Good.resume (h : Good Whoever st pins) (hgame : st'.game = st.game) : Good Whoever st' pins :=
  h.rewatch hgame fun _ _ _ _ _ _ _ => .inr trivial

/-- The broadcast has gone through the elements `before`, and no send was reset. -/
structure Going (st : Server Room) (packet : Packet) (before : List (UInt64 × Ref)) (st₁ : Server Room) : Prop where
  game : st₁.game = st.game
  unchanged : Unchanged st.net st₁.net
  answers : st₁.net.answers = st.net.answers.drop (callsAt st before).length
  spared : ∀ answer ∈ st.net.answers.take (callsAt st before).length, answer.reset = false
  rest : ∀ s, ¬ st.game.toScene.Heard before s → st₁.net.session s = st.net.session s
  heard : ∀ s, st.game.toScene.Heard before s → (st.net.session s).connected = true →
    (∀ answer, (s, answer) ∈ (callsAt st before).zip st.net.answers → answer.failed = none) →
    (st₁.net.session s).outgoing = (st.net.session s).outgoing ++ [packet]

theorem going_start : Going st packet [] st := by
  refine ⟨rfl, ⟨fun _ => rfl, rfl, rfl, rfl, rfl, rfl⟩, rfl, ?_, fun _ _ => rfl, fun s hheard => ?_⟩
  · simp [callsAt]
  · obtain ⟨r, -, hr⟩ := hheard
    exact absurd hr List.not_mem_nil

theorem callsAt_append (st : Server Room) (l l' : List (UInt64 × Ref)) : callsAt st (l ++ l') = callsAt st l ++ callsAt st l' :=
  List.filterMap_append

theorem callsAt_single {k : UInt64} (hl : st.game.listener r = some s) :
    callsAt st [(k, r)] = if (st.net.session s).ready then [s] else [] := by
  unfold callsAt
  rw [List.filterMap_cons, hl]
  cases hready : (st.net.session s).ready <;> simp [Option.filter, hready]

/-- The next call of `WSASend`, if there are `n` before it. -/
theorem answer_drop {n : ℕ} {st₁ : Server Room} (h : st₁.net.answers = st.net.answers.drop n) :
    answer st₁ = (st.net.answers[n]?).getD .success := by
  unfold answer
  rw [h, List.head?_drop]

/-- A call that was made is made in a longer loop. -/
theorem mem_zip_append {α β : Type} {l l' : List α} {as : List β} {p : α × β} (h : p ∈ l.zip as) : p ∈ (l ++ l').zip as := by
  obtain ⟨i, hi⟩ := List.getElem?_of_mem h
  rw [List.getElem?_zip_eq_some] at hi
  refine List.mem_of_getElem? (i := i) (List.getElem?_zip_eq_some.2 ⟨?_, hi.2⟩)
  rw [List.getElem?_append_left (List.getElem?_eq_some_iff.1 hi.1).1]
  exact hi.1

section

variable {before after : List (UInt64 × Ref)} {k : UInt64} {st₁ st₂ : Server Room} {fuel : ℕ}

/-- The sessions whose calls come first. -/
theorem calls_split (hlist : st.game.players.toList = before ++ (k, r) :: after) (hl : st.game.listener r = some s)
    (hready : (st.net.session s).ready = true) : calls st = callsAt st before ++ s :: callsAt st after := by
  unfold calls
  rw [hlist, ← List.singleton_append, callsAt_append, callsAt_append, callsAt_single hl, if_pos hready]
  rfl

/-- The loop goes on from an element whose send is not reset. -/
theorem Going.next (hg : Going st packet before st₁) (hl : st.game.listener r = some s)
    (hnew : ¬ st.game.toScene.Heard before s)
    (hheard : ∀ t, st.game.toScene.Heard (before ++ [(k, r)]) t ↔ st.game.toScene.Heard before t ∨ t = s)
    (hcalm : (st.net.session s).ready = true → (answer st₁).reset = false) (hsent : Sent s packet st₁ st₂) :
    Going st packet (before ++ [(k, r)]) st₂ := by
  have hsession : st₁.net.session s = st.net.session s := hg.rest s hnew
  have hcalls : callsAt st (before ++ [(k, r)]) = callsAt st before ++ if (st.net.session s).ready then [s] else [] := by
    rw [callsAt_append, callsAt_single hl]
  have hanswer := answer_drop hg.answers
  refine ⟨hsent.game.trans hg.game, hg.unchanged.trans hsent.unchanged, ?_, ?_, fun t ht => ?_, fun t ht hup hfate => ?_⟩
  · rw [hsent.answers, hg.answers, hcalls, hsession]
    cases (st.net.session s).ready <;> simp
  · rw [hcalls]
    cases hready : (st.net.session s).ready with
    | false => simpa using hg.spared
    | true =>
      intro a ha
      rw [if_pos rfl, List.length_append, List.length_singleton, List.take_add_one, List.mem_append] at ha
      rcases ha with ha | ha
      · exact hg.spared a ha
      · have hcalm := hcalm hready
        rw [Option.mem_toList] at ha
        rw [hanswer, ha] at hcalm
        exact hcalm
  · rw [hheard, not_or] at ht
    rw [hsent.other t ht.2, hg.rest t ht.1]
  · rw [hheard] at ht
    by_cases hts : t = s
    · rw [hts] at hup hfate ⊢
      rw [hsent.outgoing, hsession]
      intro hready
      rw [hsession] at hready
      rw [hanswer]
      cases ha : st.net.answers[(callsAt st before).length]? with
      | none => rfl
      | some a =>
        refine hfate a ?_
        rw [hcalls, if_pos hready]
        refine List.mem_of_getElem? (i := (callsAt st before).length) (List.getElem?_zip_eq_some.2 ⟨?_, ha⟩)
        rw [List.getElem?_concat_length]
    · rw [hsent.other t hts]
      refine hg.heard t (ht.resolve_right hts) hup fun a ha => hfate a ?_
      rw [callsAt_append]
      exact mem_zip_append ha

/-- A send of the loop that is reset is one of the broadcast. -/
theorem Going.not_spared (hg : Going st packet before st₁) (hlist : st.game.players.toList = before ++ (k, r) :: after)
    (hl : st.game.listener r = some s) (hready : (st.net.session s).ready = true) (hreset : (answer st₁).reset = true) :
    ¬ Spared st := by
  intro hspared
  rw [answer_drop hg.answers] at hreset
  cases ha : st.net.answers[(callsAt st before).length]? with
  | none =>
    rw [ha] at hreset
    exact absurd hreset Bool.false_ne_true
  | some a =>
    rw [ha] at hreset
    have hmem : a ∈ st.net.answers.take (calls st).length := by
      refine List.mem_of_getElem? (i := (callsAt st before).length) ?_
      rw [List.getElem?_take, if_pos, ha]
      rw [calls_split hlist hl hready, List.length_append, List.length_cons]
      omega
    have hcalm := hspared a hmem
    rw [show a.reset = true from hreset] at hcalm
    exact absurd hcalm.symm Bool.false_ne_true

/-- **The loop of a broadcast.** If a send is reset, what is needed is that its session's
player has left when `Disconnect` returns. -/
theorem broadcast_going (h : Good Whoever st pins) (hfuel : st.game.players.toList.length < fuel ∨ F .running)
    (hcut : ¬ Spared st → F .undefined ∧ ∀ before k r after s st₁, st.game.players.toList = before ++ (k, r) :: after →
      (st.game.gameSessions s).player = some r → Going st packet before st₁ → (st₁.net.session s).connected = true →
      Post F (disconnect s (called st₁ s packet)) fun st' => st'.game.players[k]? = none) :
    Post F (Game.broadcast (Session.send disconnect) fuel packet st) (Going st packet st.game.players.toList) := by
  unfold Game.broadcast
  refine (Post.rangeFor_from (I := fun before st₁ => Going st packet before st₁) (m := st.game.players)
    ?_ (List.nil_append _).symm hfuel rfl going_start).imp fun st' h' => h'.2
  intro before k r after st₁ hlist _ hg
  obtain ⟨o, s, ho, hkind, hnew, hheard⟩ := Core.heard (v := Game.stage st) h.core hlist
  have hmem : st.game.players[k]? = some r := getElem?_of_toList hlist
  have hin : st.game.Inside r := .inl ((h.core.players k r hmem).1 ▸ hmem)
  have hl : st.game.listener r = some s := by
    unfold Scene.listener
    rw [show st.game.objects[r]? = some o from ho]
    dsimp only
    rw [hkind]
  rw [hg.game, h.deref ho (.inl hin), ok_bind, hkind]
  dsimp only
  by_cases hreset : (st.net.session s).ready = true ∧ (answer st₁).reset = true
  · obtain ⟨hready, hreset⟩ := hreset
    obtain ⟨hF, hcut⟩ := hcut (hg.not_spared hlist hl hready hreset)
    obtain ⟨-, o', s', ho', hplays, -, hweak, -⟩ := h.core.players k r hmem
    have hs' : s' = s := by
      rw [ho] at ho'
      obtain rfl := Option.some.inj ho'
      exact Option.some.inj (Kind.player.inj (hplays.kind.symm.trans hkind))
    rw [hs'] at hweak
    rw [← hg.rest s hnew] at hready
    have hup : (st₁.net.session s).connected = true := by
      unfold Session.ready at hready
      exact (Bool.and_eq_true_iff.1 hready).1
    rw [send_cut hready hreset]
    refine (hcut before k r after s st₁ hlist hweak hg hup).bind fun st' h' => .ok (.inr ⟨h', hF⟩)
  · have hcalm : (st₁.net.session s).ready = true → (answer st₁).reset = false := by
      intro hready
      rw [hg.rest s hnew] at hready
      rw [← Bool.not_eq_true]
      exact fun h => hreset ⟨hready, h⟩
    obtain ⟨st₂, hst₂, hsent⟩ : ∃ st₂, Session.send disconnect s packet st₁ = .ok st₂ ∧ Sent s packet st₁ st₂ :=
      send_calm hcalm
    rw [hst₂]
    refine .ok (.inl ⟨?_, hg.next hl hnew hheard (fun hready => hcalm (by rwa [hg.rest s hnew])) hsent⟩)
    rw [hsent.game, hg.game]

end

/-! ## Disconnect -/

section

variable (parse : List UInt8 → CMove) (fuel : ℕ)

/-- **A broadcast that returns has reset nobody**, at every depth. -/
theorem broadcast_unhurt (n fuel' : ℕ) (h : Good Whoever st pins) (packet : Packet) :
    IfReturns (Game.broadcast (api (gameContent parse fuel) (n + 1)).send fuel' packet st)
      (Going st packet st.game.players.toList) := by
  refine broadcast_going h (.inr trivial) fun _ => ⟨trivial, ?_⟩
  intro before k r after s st₁ hlist hweak hg hup
  have hmem : st.game.players[k]? = some r := getElem?_of_toList hlist
  have hkey : k = key r := (h.core.players k r hmem).1
  have hgame : (called st₁ s packet).game = st.game := hg.game
  refine (disconnect_spec parse fuel (api_speaks parse fuel n) (h.resume hgame)).imp fun st' h' => ?_
  obtain ⟨-, -, -, hdeparts⟩ := h'
  rw [hkey] at hmem ⊢
  refine (hdeparts ?_).gone r ?_ ?_
  · exact (called_unchanged.connected s).trans hup
  · rw [hgame]
    exact hweak
  · rw [hgame]
    exact hmem

/-- ... so it leaves the registries alone. -/
theorem api_unchanged (n : ℕ) : Speaks (api (gameContent parse fuel) n).send Whoever fun _ _ => Unchanged := by
  refine ⟨fun fuel' packet st pins h => ?_, fun _ _ _ _ _ _ _ => .inr trivial⟩
  cases n with
  | zero =>
    unfold Game.broadcast
    refine (Post.rangeFor (I := fun _ (st' : Server Room) => st' = st) ⟨trivial, trivial⟩ ?_ rfl rfl).imp fun st' h' => ?_
    · intro before k r after st₁ _ _ _
      refine deref_spec.bind fun o _ => ?_
      split
      · exact .error trivial
      · exact .error trivial
    · rw [h'.2]
      exact ⟨rfl, fun _ => rfl, rfl, rfl, rfl, rfl, rfl⟩
  | succ n => exact (broadcast_unhurt parse fuel n fuel' h packet).imp fun st' h' => ⟨h'.game, h'.unchanged⟩

/-! ## Nested broadcasts -/

variable {parse fuel} (broadcast : Packet → Server Room → Outcome (Server Room)) {id : UInt64}

/-- `RemoveObject` faults only as its broadcast does. -/
theorem removeObject_post (h : Good Whoever st pins) (id : UInt64)
    (hb : ∀ packet st₁ pins, Good Whoever st₁ pins → st₁.net = st.net → st₁.game.toScene = st.game.toScene →
      Post F (broadcast packet st₁) fun st' => st'.game = st₁.game) :
    Post F (Game.removeObjectBy broadcast id st) fun _ => True := by
  unfold Game.removeObjectBy
  cases hf : st.game.findObject id with
  | none => exact .ok trivial
  | some r =>
    obtain ⟨-, o, which, ho, ht, -⟩ := h.core.found hf
    have h₁ : Good Whoever (Game.update st (·.retain r)) (r :: pins) := h.retain
    obtain ⟨p, hp, -⟩ := make_ok (.removeObject [id]) (removeObject_length id)
    dsimp only
    rw [show ServerPacketHandler.makeSRemoveObject [id] = .ok p from hp, ok_bind]
    refine (hb p _ _ h₁ rfl rfl).bind fun st₂ hgame => ?_
    have hderef : st₂.game.deref r = .ok o := by
      rw [hgame]
      exact h₁.deref ho (.inr List.mem_cons_self)
    rw [hderef, ok_bind]
    simp only [ht]
    exact .ok trivial

/-- `LeaveRoom` faults only as its broadcast does. -/
theorem leaveRoom_post (h : Good Whoever st pins)
    (hb : ∀ packet st₁ pins, Good Whoever st₁ pins → st₁.net = st.net → st₁.game.toScene = st.game.toScene →
      Post F (broadcast packet st₁) fun st' => st'.game = st₁.game) :
    Post F (Game.leaveRoomBy broadcast s st) fun _ => True := by
  unfold Game.leaveRoomBy
  cases hl : st.game.lock (st.game.gameSessions s).player with
  | none => exact .ok trivial
  | some player =>
    obtain ⟨hweak, hpos⟩ := lock_spec hl
    obtain ⟨o, ho, -⟩ := h.core.weak s player hweak
    have hderef : st.game.deref player = .ok o := by
      unfold Room.deref
      rw [show st.game.objects[player]? = some o from ho]
      exact if_pos hpos
    dsimp only
    rw [hderef, ok_bind]
    exact removeObject_post broadcast h _ hb

/-- `Disconnect` of a session whose player is in the room, if the broadcast in it returns
or is undefined. -/
theorem disconnect_outcome {n : ℕ} {k : UInt64} (h : Good Whoever st pins) (hreg : Registered st.net leaving)
    (hup : (st.net.session s).connected = true) (hweak : (st.game.gameSessions s).player = some r)
    (hmem : st.game.players[k]? = some r)
    (hb : ∀ packet st₁ pins, Good Whoever st₁ pins → st₁.net = (parting st s).net → st₁.game.toScene = st.game.toScene →
      Post (· = .undefined) (Game.broadcast (api (gameContent parse fuel) n).send fuel packet st₁) fun st' => st'.game = st₁.game) :
    Post (· = .undefined) (Session.disconnect (GameSession.onDisconnected (gameContent parse fuel) (api (gameContent parse fuel) n)) s st)
      fun st' => st'.game.players[k]? = none := by
  unfold Session.disconnect
  rw [if_neg (by rw [show (st.session s).connected = true from hup]; exact Bool.noConfusion)]
  have hpart : Good Whoever (parting st s) pins := h.resume rfl
  have hreg₁ : Registered (parting st s).net fun t => leaving t ∨ t = s := hreg.leave hup
  have hleave := (leaveRoom_post _ (s := s) hpart hb).and (leaveRoom_departs (api_speaks parse fuel n fun _ => True) hpart)
  refine (hleave.and (leaveRoom_spec (api_unchanged parse fuel n) hpart)).bind fun st₂ h₂ => ?_
  obtain ⟨⟨-, -, -, hdeparts⟩, -, hremoves⟩ := h₂
  have hu : Unchanged (parting st s).net st₂.net := by
    rcases hremoves with rfl | ⟨id, hremoves⟩
    · exact .refl
    · exact hremoves.related fun _ => .refl
  -- the assertion of `ReleaseSession` holds
  have hin : s ∈ st₂.net.sessions := ((hreg₁.unchanged hu).sessions s).2 (.inr (.inr rfl))
  have hkey : k = key r := (h.core.players k r hmem).1
  unfold Service.releaseSession
  rw [if_pos hin, ok_bind]
  rw [hkey] at hmem ⊢
  exact .ok (hdeparts.gone r hweak hmem)

variable (parse)

/-- **A broadcast either returns without a reset, or is undefined**: it comes back from the
first send that is reset to an element that was erased. By induction on the number of
connected sessions, each nested broadcast having one less. -/
theorem broadcast_outcome (n : ℕ) (h : Good Whoever st pins) (hreg : Registered st.net leaving) (packet : Packet)
    (hn : st.net.manager.card ≤ n) (hfuel : st.game.players.toList.length < fuel) :
    Post (· = .undefined) (Game.broadcast (api (gameContent parse fuel) (n + 1)).send fuel packet st)
      (Going st packet st.game.players.toList) := by
  induction n generalizing st pins leaving packet with
  | zero =>
    refine broadcast_going h (.inl hfuel) fun _ => ⟨rfl, ?_⟩
    intro before k r after s st₁ _ _ hg hup
    -- nobody is connected
    have hmem : s ∈ st₁.net.manager := ((hreg.unchanged hg.unchanged).manager s).2 hup
    rw [hg.unchanged.manager, Finset.card_eq_zero.1 (Nat.le_zero.1 hn)] at hmem
    exact absurd hmem (Finset.notMem_empty s)
  | succ n ih =>
    refine broadcast_going h (.inl hfuel) fun _ => ⟨rfl, ?_⟩
    intro before k r after s st₁ hlist hweak hg hup
    have hgame : (called st₁ s packet).game = st.game := hg.game
    have hu : Unchanged st.net (called st₁ s packet).net := hg.unchanged.trans called_unchanged
    have hup : ((called st₁ s packet).net.session s).connected = true := (called_unchanged.connected s).trans hup
    have hmem : st.game.players[k]? = some r := getElem?_of_toList hlist
    rw [← hgame] at hweak hmem
    have hreg₁ := hreg.unchanged hu
    refine disconnect_outcome (h.resume hgame) hreg₁ hup hweak hmem fun packet' st₂ pins' h₂ hnet hscene => ?_
    have hreg₂ : Registered st₂.net fun t => leaving t ∨ t = s := by
      rw [hnet]
      exact hreg₁.leave hup
    refine (ih h₂ hreg₂ packet' ?_ ?_).imp fun st' h' => h'.game
    · have hin : s ∈ (called st₁ s packet).net.manager := (hreg₁.manager s).2 hup
      have hcard := Finset.card_erase_add_one hin
      rw [hu.manager] at hcard
      rw [hnet]
      show ((called st₁ s packet).net.manager.erase s).card ≤ n
      rw [hu.manager]
      omega
    · rw [show st₂.game.players = (called st₁ s packet).game.players from congrArg Scene.players hscene, hgame]
      exact hfuel

/-- **A broadcast without a reset** returns, at every depth. -/
theorem broadcast_spared (n : ℕ) (h : Good Whoever st pins) (packet : Packet) (hspared : Spared st)
    (hfuel : st.game.players.toList.length < fuel) :
    Returns (Game.broadcast (api (gameContent parse fuel) (n + 1)).send fuel packet st)
      (Going st packet st.game.players.toList) :=
  broadcast_going h (.inl hfuel) fun hcut => absurd hspared hcut

/-- Everyone in the room was visited. -/
theorem Going.delivered (h : Good Whoever st pins) (hg : Going st packet st.game.players.toList st') : Delivered packet st st' := by
  intro k r s hk hl hup hfate
  obtain ⟨hkey, o, s', ho, hplays, -, hweak, -⟩ := h.core.players k r hk
  have hs : s' = s := by
    unfold Scene.listener at hl
    rw [show st.game.objects[r]? = some o from ho] at hl
    dsimp only at hl
    rw [hplays.kind] at hl
    exact Option.some.inj hl
  rw [hs] at hweak
  refine hg.heard s ⟨r, hweak, ?_⟩ hup hfate
  rw [← hkey]
  exact TreeMap.mem_toList_iff_getElem?_eq_some.2 hk

end

end ZeldaServer
