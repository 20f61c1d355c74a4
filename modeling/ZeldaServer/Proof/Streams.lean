import ZeldaServer.Proof.Attendance
import ZeldaServer.Proof.Nested
import ZeldaServer.Proof.Recv
import ZeldaServer.Proof.Simulate
import ZeldaServer.Proof.World

/-!
# What the sessions send and receive

As long as no socket call fails, a session is what its `Ledger` says: what it has sent, from
its first completed send to the end of its queue, is a given list of messages, and its receive
side is left alone by all that others do. The functions of the server then act on the room
just as they act on the room with outboxes.

* `Session.Keeps.sent`: a send adds its packet at the end, whatever is under way.
* `disconnect_reflected`, `deliver_reflected`, `processSend_now`, `processConnect_reflected`.
-/

namespace ZeldaServer

open Lib Std

/-- What is kept of a session: the packets whose sends have completed, whether it is connected,
and its receive side. -/
structure Ledger where
  completed : List Packet := []
  connected : Bool := false
  recvBuffer : RecvBuffer := .new BUFFER_SIZE
  posted : Option ℤ := none

variable {st st' : Server Room} {g : Game Outboxes} {net : Net} {out : Outboxes} {s : SessionId} {x : Session} {p : Packet}
  {ledger : Ledger} {ledgers : SessionId → Ledger} {msgs : List Msg} {parse : List UInt8 → CMove} {fuel n : ℕ}

/-! ## One session -/

/-- The session is as the ledger says, and has sent and will send `msgs`. -/
structure Session.Keeps (x : Session) (ledger : Ledger) (msgs : List Msg) : Prop where
  stream : (ledger.completed ++ x.outgoing).map Packet.msg = msgs
  made : ∀ p ∈ ledger.completed ++ x.outgoing, p.Made
  free : x.side.sendResitered = false → x.side.sendQueue = []
  busy : x.connected = true → x.side.sendResitered = true → x.wire ≠ []
  unused : msgs = [] → x.side.sendResitered = false ∧ x.wire = []
  connected : x.connected = ledger.connected
  recvBuffer : x.recvBuffer = ledger.recvBuffer
  posted : x.posted = ledger.posted

def Session.close (x : Session) : Session := { x with connected := false }

def Ledger.close (ledger : Ledger) : Ledger := { ledger with connected := false }

/-- What the receive side writes back. -/
def Session.receive (x : Session) (recvBuffer : RecvBuffer) (posted : Option ℤ) : Session :=
  { x with recvBuffer := recvBuffer, posted := posted }

namespace Session.Keeps

theorem close (h : x.Keeps ledger msgs) : x.close.Keeps ledger.close msgs :=
  ⟨h.stream, h.made, h.free, fun hup => absurd hup Bool.false_ne_true, h.unused, rfl, h.recvBuffer, h.posted⟩

/-- A session that has sent nothing is connected. -/
theorem connect (h : x.Keeps ledger []) :
    Session.Keeps { x with connecting := false, connected := true } { ledger with connected := true } [] := by
  have hfree := (h.unused rfl).1
  refine ⟨h.stream, h.made, h.free, fun _ hflag => ?_, h.unused, rfl, h.recvBuffer, h.posted⟩
  rw [show x.side.sendResitered = true from hflag] at hfree
  cases hfree

theorem receive (h : x.Keeps ledger msgs) (recvBuffer : RecvBuffer) (posted : Option ℤ) :
    (x.receive recvBuffer posted).Keeps { ledger with recvBuffer := recvBuffer, posted := posted } msgs :=
  ⟨h.stream, h.made, h.free, h.busy, h.unused, h.connected, rfl, rfl⟩

/-- Nothing is under way on a connected session: then nothing waits. -/
theorem idle (h : x.Keeps ledger msgs) (hup : x.connected = true) (hwire : x.wire = []) : x.side.sendQueue = [] := by
  cases hflag : x.side.sendResitered with
  | false => exact h.free hflag
  | true => exact absurd hwire (h.busy hup hflag)

end Session.Keeps

/-- A send of a session whose socket calls succeed. -/
def Session.sent (x : Session) (p : Packet) : Session :=
  if x.ready = true then { x.drained p with wire := x.wire ++ [(x.drained p).side.sendBuffers] } else x.waiting p

theorem Session.sent_outgoing (x : Session) (p : Packet) : (x.sent p).outgoing = x.outgoing ++ [p] := by
  unfold Session.sent Session.outgoing
  split
  · simp [Session.drained]
  · simp [Session.waiting]

/-- **A send adds its packet at the end**, whether it goes out at once or waits. -/
theorem Session.Keeps.sent (h : x.Keeps ledger msgs) {p : Packet} (hp : p.Made) :
    (x.sent p).Keeps ledger (msgs ++ [p.msg]) := by
  have hne : msgs ++ [p.msg] ≠ [] := List.append_ne_nil_of_right_ne_nil msgs (List.cons_ne_nil _ _)
  have hstream : (ledger.completed ++ (x.sent p).outgoing).map Packet.msg = msgs ++ [p.msg] := by
    rw [x.sent_outgoing, ← List.append_assoc, List.map_append, h.stream]
    rfl
  have hmade : ∀ q ∈ ledger.completed ++ (x.sent p).outgoing, q.Made := by
    rw [x.sent_outgoing, ← List.append_assoc]
    intro q hq
    rcases List.mem_append.1 hq with hq | hq
    · exact h.made q hq
    · rw [List.mem_singleton.1 hq]
      exact hp
  unfold Session.sent at hstream hmade ⊢
  split
  · rename_i hnow
    rw [if_pos hnow] at hstream hmade
    refine ⟨hstream, hmade, fun _ => rfl, fun _ _ => ?_, fun hnil => absurd hnil hne, h.connected, h.recvBuffer, h.posted⟩
    exact List.append_ne_nil_of_right_ne_nil x.wire (List.cons_ne_nil _ _)
  · rename_i hwait
    rw [if_neg hwait] at hstream hmade
    refine ⟨hstream, hmade, fun hflag => absurd hflag.symm Bool.false_ne_true, fun hup _ => ?_,
      fun hnil => absurd hnil hne, h.connected, h.recvBuffer, h.posted⟩
    refine h.busy hup ?_
    rw [← Bool.not_eq_false]
    refine fun hflag => hwait ?_
    unfold Session.ready
    rw [show x.connected = true from hup, hflag]
    rfl

/-! ## All sessions -/

/-- What `OnConnected` sends before the session enters. -/
def Net.greeting (net : Net) (s : SessionId) : List Msg := if net.onConnected s = 0 then [] else [.enterGame true 0]

/-- No socket call fails; one that is pending has not failed. -/
def Succeed (answers : List WsaResult) : Prop := ∀ answer ∈ answers, answer.failed = none

instance {answers : List WsaResult} : Decidable (Succeed answers) :=
  inferInstanceAs (Decidable (∀ answer ∈ answers, answer.failed = none))

theorem Succeed.tail {answers : List WsaResult} (h : Succeed answers) : Succeed answers.tail :=
  fun answer hanswer => h answer (List.mem_of_mem_tail hanswer)

/-- ... so none is a reset. -/
theorem Succeed.noReset {answers : List WsaResult} (h : Succeed answers) (i : ℕ) : NoReset i answers = true := by
  cases i with
  | zero => rfl
  | succ i =>
    cases answers with
    | nil => rfl
    | cons answer answers =>
      unfold NoReset
      rw [h answer List.mem_cons_self]

theorem Succeed.calm {e : Round} (h : Succeed e.answers) : e.Calm := by
  unfold Round.Calm
  cases e.turn with
  | dispatch event => exact fun _ => h.noReset 3
  | update ticks pick => trivial

/-- The sessions send what is in the outboxes. -/
structure Streams (ledgers : SessionId → Ledger) (net : Net) (out : Outboxes) : Prop where
  answers : Succeed net.answers
  keeps : ∀ s, (net.session s).Keeps (ledgers s) (net.greeting s ++ out s)

theorem Streams.change (h : Streams ledgers net out) {net' : Net} (hanswers : net'.answers = net.answers)
    (honConnected : net'.onConnected = net.onConnected) (hsession : net'.session = net.session) : Streams ledgers net' out := by
  refine ⟨hanswers ▸ h.answers, fun s => ?_⟩
  unfold Net.greeting
  rw [honConnected, hsession]
  exact h.keeps s

/-- Socket calls have been answered. -/
theorem Streams.answering (h : Streams ledgers net out) {answers : List WsaResult} (hanswers : Succeed answers) :
    Streams ledgers { net with answers := answers } out := ⟨hanswers, h.keeps⟩

/-- One session changes, and its ledger. -/
theorem Streams.modify (h : Streams ledgers net out) {f : Session → Session} {ledger : Ledger}
    (hf : (f (net.session s)).Keeps ledger (net.greeting s ++ out s)) :
    Streams (Function.update ledgers s ledger) (net.modify s f) out := by
  refine ⟨h.answers, fun t => ?_⟩
  show ((net.modify s f).session t).Keeps (Function.update ledgers s ledger t) (net.greeting t ++ out t)
  by_cases hts : t = s
  · rw [hts, modify_same, Function.update_self]
    exact hf
  · rw [modify_other f hts, Function.update_of_ne hts]
    exact h.keeps t

/-- One session changes, and its outbox. -/
theorem Streams.send (h : Streams ledgers net out) (s : SessionId) {p : Packet} (hp : p.Made) :
    Streams ledgers (net.modify s (·.sent p)) (Function.update out s (out s ++ [p.msg])) := by
  refine ⟨h.answers, fun t => ?_⟩
  show ((net.modify s (·.sent p)).session t).Keeps (ledgers t) (net.greeting t ++ _)
  by_cases hts : t = s
  · rw [hts, modify_same, Function.update_self, ← List.append_assoc]
    exact (h.keeps s).sent hp
  · rw [modify_other (·.sent p) hts, Function.update_of_ne hts]
    exact h.keeps t

/-! ## Socket calls that succeed -/

theorem answering_modify {answers : List WsaResult} (f : Session → Session) :
    (st.answering answers).modify s f = (st.modify s f).answering answers := rfl

/-- The answer of a socket call is no failure. -/
theorem wsa_now (hanswers : Succeed st.net.answers) :
    ∃ result, result.failed = none ∧ st.wsa = (result, st.answering st.net.answers.tail) := by
  refine ⟨st.wsa.1, ?_, Prod.ext rfl (wsa_snd st)⟩
  unfold Server.wsa
  cases hnext : st.net.answers with
  | nil => rfl
  | cons answer answers =>
    rw [hnext] at hanswers
    exact hanswers answer List.mem_cons_self

/-- Two changes of one session. -/
theorem Server.modify_modify (st : Server Room) (s : SessionId) (f f' : Session → Session) :
    (st.modify s f).modify s f' = st.modify s (f' ∘ f) := by
  unfold Server.modify Net.modify
  simp

/-- What is done to a session is a matter of what it is. -/
theorem Server.modify_congr {f f' : Session → Session} (h : f (st.net.session s) = f' (st.net.session s)) :
    st.modify s f = st.modify s f' := by
  unfold Server.modify Net.modify
  rw [h]

/-- `RegisterSend` on a connection that is up: the queue goes out. -/
theorem registerSend_now {disconnect : SessionId → Server Room → Outcome (Server Room)} (hanswers : Succeed st.net.answers)
    (hup : (st.net.session s).connected = true) : Session.registerSend disconnect s st =
      .ok ((st.modify s fun x => { x with
        side := x.side.clear.drain, wire := x.wire ++ [x.side.clear.drain.sendBuffers] }).answering st.net.answers.tail) := by
  have hanswers' : Succeed (st.modify s fun x => { x with side := x.side.clear.drain }).net.answers := hanswers
  obtain ⟨result, hresult, hwsa⟩ := wsa_now hanswers'
  unfold Session.registerSend
  rw [if_neg (by rw [show (st.session s).connected = true from hup]; decide)]
  dsimp only
  rw [hwsa]
  dsimp only
  rw [hresult]
  dsimp only
  rw [answering_modify, Server.modify_modify]
  rfl

/-- ... and on one that is not: the queue waits for ever. -/
theorem registerSend_down {disconnect : SessionId → Server Room → Outcome (Server Room)}
    (hdown : (st.net.session s).connected = false) : Session.registerSend disconnect s st = .ok st := by
  unfold Session.registerSend
  rw [if_pos (show (st.session s).connected = false from hdown)]

/-- The answers that are left after a send. -/
def Server.unspent (st : Server Room) (s : SessionId) : List WsaResult :=
  if (st.net.session s).ready = true then st.net.answers.tail else st.net.answers

theorem Succeed.unspent (h : Succeed st.net.answers) (s : SessionId) : Succeed (st.unspent s) := by
  unfold Server.unspent
  split
  · exact h.tail
  · exact h

/-- **`Session::Send`**, when no socket call fails. -/
theorem send_now {disconnect : SessionId → Server Room → Outcome (Server Room)} (hanswers : Succeed st.net.answers) :
    Session.send disconnect s p st = .ok ((st.modify s (·.sent p)).answering (st.unspent s)) := by
  unfold Server.unspent
  cases hready : (st.net.session s).ready with
  | false =>
    have hwaiting : st.modify s (·.waiting p) = st.modify s (·.sent p) := by
      refine Server.modify_congr ?_
      unfold Session.sent
      rw [if_neg (by rw [hready]; exact Bool.false_ne_true)]
    rw [send_queued hready, if_neg Bool.false_ne_true, hwaiting]
    rfl
  | true =>
    have hanswer : st.answer.failed = none := by
      unfold Server.answer
      cases hnext : st.net.answers with
      | nil => rfl
      | cons answer answers =>
        rw [hnext] at hanswers
        exact hanswers answer List.mem_cons_self
    have hmodify : (st.modify s (·.drained p)).modify s (fun x => { x with wire := x.wire ++ [x.side.sendBuffers] }) =
        st.modify s (·.sent p) := by
      rw [Server.modify_modify]
      refine Server.modify_congr ?_
      unfold Session.sent
      rw [if_pos hready]
      rfl
    rw [send_ready hready, hanswer, if_pos rfl, ← hmodify]
    rfl

/-- **`RegisterRecv`**, when no socket call fails. -/
theorem registerRecv_now (hanswers : Succeed st.net.answers) (s : SessionId) (recvBuffer : RecvBuffer) (posted : Option ℤ) :
    ∃ answers, Succeed answers ∧ ∀ parse fuel, registerRecv (Session.recvApi (gameContent parse fuel) fuel s) ⟨recvBuffer, posted, st⟩ =
      .ok ⟨recvBuffer, if (st.net.session s).connected = true then some recvBuffer.freeSize else posted, st.answering answers⟩ := by
  have hconnected : ∀ parse fuel, (Session.recvApi (gameContent parse fuel) fuel s).isConnected st = (st.net.session s).connected :=
    fun _ _ => rfl
  cases hup : (st.net.session s).connected with
  | false =>
    refine ⟨st.net.answers, hanswers, fun parse fuel => ?_⟩
    unfold ZeldaServer.registerRecv
    rw [if_pos (by rw [hconnected, hup])]
    rfl
  | true =>
    obtain ⟨result, hresult, hwsa⟩ := wsa_now hanswers
    refine ⟨st.net.answers.tail, hanswers.tail, fun parse fuel => ?_⟩
    unfold ZeldaServer.registerRecv
    rw [if_neg (by rw [hconnected, hup]; decide),
      show (Session.recvApi (gameContent parse fuel) fuel s).wsaRecv st = _ from hwsa]
    dsimp only
    rw [hresult]
    rfl

theorem registerRecv_result (hanswers : Succeed st.net.answers) {recvBuffer : RecvBuffer} {posted : Option ℤ}
    {side : RecvSide (Server Room)}
    (h : registerRecv (Session.recvApi (gameContent parse fuel) fuel s) ⟨recvBuffer, posted, st⟩ = .ok side) :
    ∃ answers, Succeed answers ∧
      side = ⟨recvBuffer, if (st.net.session s).connected = true then some recvBuffer.freeSize else posted, st.answering answers⟩ := by
  obtain ⟨answers, hanswers, hposts⟩ := registerRecv_now hanswers s recvBuffer posted
  exact ⟨answers, hanswers, Except.ok.inj (h.symm.trans (hposts parse fuel))⟩

/-! ## The room and its mirror -/

/-- The room of the server, and the room with the outboxes that its sessions send. -/
abbrev Reflected (ledgers : SessionId → Ledger) (st : Server Room) (g : Game Outboxes) : Prop :=
  Twins (Streams ledgers) Whatever st g

namespace Reflected

theorem of (hgame : st.game = g.game) (hnet : Streams ledgers st.net g.net) : Reflected ledgers st g :=
  ⟨hgame, hnet, fun _ _ _ => trivial⟩

theorem change (h : Reflected ledgers st g) {ledgers' : SessionId → Ledger} (hgame : st'.game = st.game)
    (hnet : Streams ledgers' st'.net g.net) : Reflected ledgers' st' g :=
  .of (hgame.trans h.game) hnet

theorem modify (h : Reflected ledgers st g) {f : Session → Session} {ledger : Ledger}
    (hf : (f (st.net.session s)).Keeps ledger (st.net.greeting s ++ g.net s)) :
    Reflected (Function.update ledgers s ledger) (st.modify s f) g :=
  h.change rfl (h.net.modify hf)

theorem answering (h : Reflected ledgers st g) {answers : List WsaResult} (hanswers : Succeed answers) :
    Reflected ledgers (st.answering answers) g :=
  h.change rfl (h.net.answering hanswers)

end Reflected

/-- The send of the server puts the message into the outbox. -/
theorem api_sendsAlike : SendsAlike (Streams ledgers) Whatever (api (gameContent parse fuel) n).send post := by
  intro s p st g h hp _
  cases n with
  | zero => exact .error
  | succ n =>
    show Matches _ (Session.send _ s p st) _
    rw [send_now h.net.answers]
    exact .ok (Reflected.of h.game ((h.net.send s hp).answering (h.net.answers.unspent s)))

variable (parse fuel n) in
/-- An operation of the room, mirrored. -/
theorem Reflected.run (h : Reflected ledgers st g) (op : RoomOp) (hfresh : op.Fresh g) :
    IfReturns (op.run (api (gameContent parse fuel) n).send fuel st) fun st' =>
      ∃ g', RoomStep g op g' ∧ Reflected ledgers st' g' := by
  refine ifReturns_iff.2 fun st' hst' => ?_
  obtain ⟨g', hg', hreflected⟩ := RoomOp.run_matches api_sendsAlike (Nat.le_refl _) whatever_kindly h op (fun _ _ => trivial) st' hst'
  exact ⟨g', ⟨hfresh, fuel, hg'⟩, hreflected⟩

/-! ## Disconnect -/

/-- The session leaves the room, if it is connected. -/
def HangsUp (up : Bool) (s : SessionId) (g g' : Game Outboxes) : Prop :=
  if up = true then RoomStep g (.leaveRoom s) g' else g' = g

variable (parse fuel n) in
/-- **`Disconnect`** is `LeaveRoom` of a session that is connected. -/
theorem disconnect_reflected (h : Reflected (Function.update ledgers s ledger) (st.modify s Session.close) g) :
    IfReturns ((api (gameContent parse fuel) n).disconnect s st) fun st' =>
      ∃ g', HangsUp (st.net.session s).connected s g g' ∧ Reflected (Function.update ledgers s ledger) st' g' := by
  cases n with
  | zero => exact .error trivial
  | succ n =>
    show IfReturns (Session.disconnect (GameSession.onDisconnected (gameContent parse fuel) (api (gameContent parse fuel) n)) s st) _
    unfold Session.disconnect
    split
    · rename_i hdown
      have hdown : (st.net.session s).connected = false := hdown
      -- it was closed before
      have hclose : Server.modify st s Session.close = st := by
        have hsame : (st.net.session s).close = st.net.session s := by
          unfold Session.close
          rw [← hdown]
        unfold Server.modify Net.modify
        rw [hsame, Function.update_eq_self]
      rw [hclose] at h
      rw [hdown]
      exact .ok ⟨g, rfl, h⟩
    rename_i hup
    have hup : (st.net.session s).connected = true := Bool.not_eq_false _ ▸ hup
    rw [hup]
    have hparting : Reflected (Function.update ledgers s ledger) (st.parting s) g := h.change rfl (h.net.change rfl rfl rfl)
    refine (hparting.run parse fuel n (.leaveRoom s) trivial).bind fun st₁ h₁ => ?_
    obtain ⟨g', hstep, h₁⟩ := h₁
    unfold Service.releaseSession
    split
    · exact .ok ⟨g', hstep, h₁.change rfl (h₁.net.change rfl rfl rfl)⟩
    · exact .error trivial

/-! ## What arrives -/

/-- What the receive side leaves, written back to the session. -/
theorem Reflected.receive (h : Reflected (Function.update ledgers s ledger) st g) (recvBuffer : RecvBuffer) (posted : Option ℤ) :
    Reflected (Function.update ledgers s { ledger with recvBuffer := recvBuffer, posted := posted })
      (st.modify s (·.receive recvBuffer posted)) g := by
  have hkeeps := h.net.keeps s
  rw [Function.update_self] at hkeeps
  have hmodify := h.modify (f := (·.receive recvBuffer posted)) (hkeeps.receive recvBuffer posted)
  rw [Function.update_idem] at hmodify
  exact hmodify

/-- A receive of no bytes. -/
theorem processRecv_hangUp (h : Reflected ledgers st g) :
    IfReturns (Session.processRecv (gameContent parse fuel) fuel s [] st) fun st' =>
      ∃ g', HangsUp (st.net.session s).connected s g g' ∧
        Reflected (Function.update ledgers s { (ledgers s).close with posted := none }) st' g' := by
  have hclosed := h.modify (f := Session.close) (h.net.keeps s).close
  unfold Session.processRecv Session.onRecvSide ZeldaServer.processRecv
  rw [if_pos List.length_nil, bind_assoc]
  refine (disconnect_reflected parse fuel fuel hclosed).bind fun st₁ h₁ => .ok ?_
  obtain ⟨g', hup, h₁⟩ := h₁
  refine ⟨g', hup, ?_⟩
  have hledger : ({ (ledgers s).close with posted := none } : Ledger) =
      { (ledgers s).close with recvBuffer := (st.net.session s).recvBuffer, posted := none } := by
    rw [(h.net.keeps s).recvBuffer]
    rfl
  rw [hledger]
  exact h₁.receive (st.net.session s).recvBuffer none

/-- **Packets that arrive** are handled once each, in their order. -/
theorem deliver_reflected (packets : List (List UInt8)) (h : Reflected ledgers st g) (hgood : Good Anyone g [])
    (hentered : Entered g s) :
    IfReturns (deliverAll ((gameContent parse fuel).handlePacket (api (gameContent parse fuel) n) s) packets st) fun st' =>
      ∃ g', Runs RoomStep g (requests parse packets) g' ∧ Reflected ledgers st' g' := by
  induction packets generalizing st g with
  | nil => exact .ok ⟨g, .nil, h⟩
  | cons packet packets ih =>
    rw [deliverAll_cons]
    have hhandled : IfReturns ((gameContent parse fuel).handlePacket (api (gameContent parse fuel) n) s packet st)
        fun st' => ∃ g', Runs RoomStep g (requests parse [packet]) g' ∧ Reflected ledgers st' g' := by
      show IfReturns (ServerPacketHandler.handlePacket parse _ fuel s packet st) _
      unfold ServerPacketHandler.handlePacket
      rw [requests_single]
      split
      · exact .error trivial
      split
      · rename_i hmove
        have hroom : (st.game.gameSessions s).gameRoom = true := by
          rw [h.game]
          exact hentered.1
        unfold ServerPacketHandler.handleCMove
        dsimp only
        rw [if_pos hroom, if_pos (show IsMove packet from hmove)]
        refine (h.run parse fuel n (.handleCMove (parse (ServerPacketHandler.payload packet))) trivial).imp fun st' h' => ?_
        obtain ⟨g', hstep, h'⟩ := h'
        exact ⟨g', .single hstep, h'⟩
      · rename_i hother
        rw [if_neg (show ¬ IsMove packet from hother)]
        exact .ok ⟨g, .nil, h⟩
    refine hhandled.bind fun st₁ h₁ => ?_
    obtain ⟨g₁, hruns, h₁⟩ := h₁
    obtain ⟨hentered₁, hgood₁⟩ := hentered.run hgood hruns
    refine (ih h₁ hgood₁ hentered₁).imp fun st₂ h₂ => ?_
    obtain ⟨g₂, hruns₂, h₂⟩ := h₂
    refine ⟨g₂, ?_, h₂⟩
    rw [← List.singleton_append, requests_append]
    exact hruns.append hruns₂

/-- **A receive of some bytes**: what was unread and the new bytes are cut into packets. -/
theorem processRecv_receive (h : Reflected ledgers st g) (hgood : Good Anyone g []) (hentered : Entered g s)
    (hok : RecvOK (⟨(ledgers s).recvBuffer, (ledgers s).posted, ()⟩ : RecvSide Unit)) {bytes : List UInt8}
    (hreceivable : Receivable (⟨(ledgers s).recvBuffer, (ledgers s).posted, ()⟩ : RecvSide Unit) bytes) :
    IfReturns (Session.processRecv (gameContent parse fuel) fuel s bytes st) fun st' =>
      ∃ packets rest g' recvBuffer posted, Cut packetFormat ((ledgers s).recvBuffer.unread ++ bytes) packets rest ∧
        Runs RoomStep g (requests parse packets) g' ∧ recvBuffer.unread = rest ∧
        RecvOK (⟨recvBuffer, posted, ()⟩ : RecvSide Unit) ∧
        Reflected (Function.update ledgers s { ledgers s with recvBuffer := recvBuffer, posted := posted }) st' g' := by
  refine ifReturns_iff.2 fun st' hst' => ?_
  unfold Session.processRecv Session.onRecvSide at hst'
  obtain ⟨side, hside, hst'⟩ := bind_eq_ok.1 hst'
  obtain rfl := Except.ok.inj hst'
  rw [show (st.session s).recvBuffer = (ledgers s).recvBuffer from (h.net.keeps s).recvBuffer,
    show (st.session s).posted = (ledgers s).posted from (h.net.keeps s).posted] at hside
  have hok : RecvOK (⟨(ledgers s).recvBuffer, (ledgers s).posted, st⟩ : RecvSide (Server Room)) :=
    ⟨hok.buffer, hok.unread, hok.room, hok.posted⟩
  have hreceivable : Receivable (⟨(ledgers s).recvBuffer, (ledgers s).posted, st⟩ : RecvSide (Server Room)) bytes := hreceivable
  have hafter := completion_ok hok ⟨hreceivable, fuel, hside⟩
  have hwritten := hok.written_unread hreceivable
  have hsafe : CompletionSafe (Session.recvApi (gameContent parse fuel) fuel s) _ bytes := hok.safe hreceivable
  rw [processRecv_spec hok hreceivable] at hside
  obtain ⟨⟨processLen, st₁⟩, honRecv, hregister⟩ := bind_eq_ok.1 hside
  obtain ⟨packets, rest, hcut, hdeliver, rfl⟩ := cut_of_onRecvLoop _ fuel 0 (Nat.zero_le _) honRecv
  rw [List.drop_zero] at hcut
  obtain ⟨g', hruns, h₁⟩ := (deliver_reflected packets h hgood hentered).result hdeliver
  have hunread := left_unread hsafe.written hcut
  obtain ⟨answers, hanswers, rfl⟩ := registerRecv_result h₁.net.answers hregister
  rw [hwritten] at hcut
  refine ⟨packets, rest, g', _, _, hcut, hruns, hunread, ⟨hafter.buffer, hafter.unread, hafter.room, hafter.posted⟩, ?_⟩
  have h₂ := h₁.answering hanswers
  exact h₂.modify ((h₂.net.keeps s).receive _ _)

/-! ## What has been sent -/

/-- The oldest send under way completes. -/
def Session.complete (x : Session) : Session := { x with wire := x.wire.tail, side := x.side.clear }

/-- The packets of the oldest send. -/
def Session.oldest (x : Session) : List Packet := (x.wire.take 1).flatten

theorem Session.complete_outgoing (x : Session) : x.oldest ++ x.complete.outgoing = x.outgoing := by
  unfold Session.oldest Session.outgoing Session.complete SendSide.clear
  cases x.wire with
  | nil => rfl
  | cons buffers wire => simp

def Ledger.complete (ledger : Ledger) (packets : List Packet) : Ledger :=
  { ledger with completed := ledger.completed ++ packets }

/-- A send that failed later on: the session is closed. -/
theorem Session.Keeps.complete_close (h : x.Keeps ledger msgs) :
    x.complete.close.Keeps (ledger.complete x.oldest).close msgs := by
  have hsame : (ledger.complete x.oldest).close.completed ++ x.complete.close.outgoing = ledger.completed ++ x.outgoing := by
    rw [← x.complete_outgoing, ← List.append_assoc]
    rfl
  refine ⟨?_, ?_, h.free, fun hup => absurd hup Bool.false_ne_true, fun hnil => ?_, rfl, h.recvBuffer, h.posted⟩
  · rw [hsame]
    exact h.stream
  · rw [hsame]
    exact h.made
  · obtain ⟨hflag, hwire⟩ := h.unused hnil
    exact ⟨hflag, by simp [Session.close, Session.complete, hwire]⟩

/-- The session after `ProcessSend`. -/
def Session.resend (x : Session) : Session :=
  let (register, side) := x.complete.side.recheck
  if register = true ∧ x.connected = true then
    { x.complete with side := side.clear.drain, wire := x.complete.wire ++ [side.clear.drain.sendBuffers] }
  else { x.complete with side := side }

theorem Session.resend_outgoing (x : Session) : x.resend.outgoing = x.complete.outgoing := by
  unfold Session.resend SendSide.recheck Session.outgoing
  cases hqueue : x.complete.side.sendQueue with
  | nil => rfl
  | cons p queue =>
    rw [if_neg (show (p :: queue).isEmpty ≠ true from Bool.false_ne_true)]
    dsimp only
    split
    · simp [SendSide.clear, SendSide.drain, hqueue]
    · rw [hqueue]

/-- **A send that completes** makes room for what waits. -/
theorem Session.Keeps.resend (h : x.Keeps ledger msgs) : x.resend.Keeps (ledger.complete x.oldest) msgs := by
  have hsame : (ledger.complete x.oldest).completed ++ x.resend.outgoing = ledger.completed ++ x.outgoing := by
    rw [x.resend_outgoing, ← x.complete_outgoing, ← List.append_assoc]
    rfl
  have hunused : msgs = [] → x.wire.tail = [] := fun hnil => by rw [(h.unused hnil).2]; rfl
  have hstream := h.stream
  have hmade := h.made
  rw [← hsame] at hstream hmade
  unfold Session.resend SendSide.recheck at hstream hmade ⊢
  cases hqueue : x.complete.side.sendQueue with
  | nil =>
    rw [hqueue] at hstream hmade
    rw [if_pos (show ([] : List Packet).isEmpty = true from rfl)] at hstream hmade ⊢
    exact ⟨hstream, hmade, fun _ => rfl, fun _ hflag => absurd hflag Bool.false_ne_true, fun hnil => ⟨rfl, hunused hnil⟩,
      h.connected, h.recvBuffer, h.posted⟩
  | cons p queue =>
    rw [hqueue] at hstream hmade
    rw [if_neg (show (p :: queue).isEmpty ≠ true from Bool.false_ne_true)] at hstream hmade ⊢
    dsimp only at hstream hmade ⊢
    have hflag : x.side.sendResitered = true := by
      rw [← Bool.not_eq_false]
      intro hflag
      rw [show x.complete.side.sendQueue = [] from h.free hflag] at hqueue
      cases hqueue
    have hne : msgs ≠ [] := fun hnil => by
      rw [(h.unused hnil).1] at hflag
      cases hflag
    split
    · rename_i hnow
      rw [if_pos hnow] at hstream hmade
      refine ⟨hstream, hmade, fun _ => rfl, fun _ _ => ?_, fun hnil => absurd hnil hne, h.connected, h.recvBuffer, h.posted⟩
      exact List.append_ne_nil_of_right_ne_nil x.wire.tail (List.cons_ne_nil _ _)
    · rename_i hdown
      rw [if_neg hdown] at hstream hmade
      exact ⟨hstream, hmade, h.free, fun hup => absurd ⟨rfl, hup⟩ hdown, fun hnil => absurd hnil hne, h.connected,
        h.recvBuffer, h.posted⟩

/-- A send that completes with no bytes. -/
theorem processSend_hangUp (h : Reflected ledgers st g) :
    IfReturns (Session.processSend (gameContent parse fuel) fuel s 0 st) fun st' =>
      ∃ g', HangsUp (st.net.session s).connected s g g' ∧
        Reflected (Function.update ledgers s ((ledgers s).complete (st.net.session s).oldest).close) st' g' := by
  have hclosed := h.modify (f := Session.close ∘ Session.complete) (h.net.keeps s).complete_close
  rw [← Server.modify_modify] at hclosed
  unfold Session.processSend
  rw [if_pos rfl]
  refine (disconnect_reflected parse fuel fuel hclosed).imp fun st' h' => ?_
  obtain ⟨g', hup, h'⟩ := h'
  rw [show (st.modify s Session.complete).net.session s = (st.net.session s).complete from modify_same s Session.complete] at hup
  exact ⟨g', hup, h'⟩

/-- **`ProcessSend`**, when no socket call fails. -/
theorem processSend_now (hanswers : Succeed st.net.answers) (s : SessionId) {numOfBytes : ℤ} (hbytes : numOfBytes ≠ 0) :
    ∃ answers, Succeed answers ∧ ∀ parse fuel,
      Session.processSend (gameContent parse fuel) fuel s numOfBytes st = .ok ((st.modify s Session.resend).answering answers) := by
  have hends : ∀ (f : Session → Session) (answers : List WsaResult), f (st.net.session s) = (st.net.session s).resend →
      .ok ((st.modify s f).answering answers) = (.ok ((st.modify s Session.resend).answering answers) : Outcome (Server Room)) :=
    fun f answers hf => congrArg (fun st : Server Room => Except.ok (st.answering answers)) (Server.modify_congr hf)
  have hsame : ((st.modify s fun x => { x with wire := x.wire.tail, side := x.side.clear }).session s).side =
      (st.net.session s).complete.side := congrArg Session.side (modify_same s Session.complete)
  unfold Session.processSend
  dsimp only
  simp only [if_neg hbytes, hsame]
  cases hrecheck : (st.net.session s).complete.side.recheck with
  | mk register side =>
    dsimp only
    simp only [Server.modify_modify]
    cases register with
    | false =>
      refine ⟨st.net.answers, hanswers, fun parse fuel => ?_⟩
      rw [if_neg Bool.false_ne_true]
      refine hends _ _ ?_
      unfold Session.resend
      rw [hrecheck]
      rfl
    | true =>
      cases hup : (st.net.session s).connected with
      | false =>
        refine ⟨st.net.answers, hanswers, fun parse fuel => ?_⟩
        rw [if_pos rfl, registerSend_down (by simp [Server.modify, Net.modify, hup])]
        refine hends _ _ ?_
        unfold Session.resend
        rw [hrecheck]
        dsimp only
        rw [if_neg (by simp [hup])]
        rfl
      | true =>
        refine ⟨st.net.answers.tail, hanswers.tail, fun parse fuel => ?_⟩
        rw [if_pos rfl, registerSend_now (by exact hanswers) (by simp [Server.modify, Net.modify, hup]), Server.modify_modify]
        refine hends _ _ ?_
        unfold Session.resend
        rw [hrecheck]
        dsimp only
        rw [if_pos ⟨rfl, hup⟩]
        rfl

/-! ## A new session -/

/-- `OnConnected` has sent `S_EnterGame`. -/
theorem Streams.enrol (h : Streams ledgers net out) (hnew : net.onConnected s = 0) (hempty : out s = []) {p : Packet}
    (hmade : p.Made) (hmsg : p.msg = .enterGame true 0) :
    Streams (Function.update ledgers s { ledgers s with connected := true }) ((net.enrol s).modify s (·.sent p)) out := by
  refine ⟨h.answers, fun t => ?_⟩
  show (((net.enrol s).modify s (·.sent p)).session t).Keeps (Function.update ledgers s _ t) ((net.enrol s).greeting t ++ out t)
  by_cases hts : t = s
  · have hbefore := h.keeps s
    rw [show net.greeting s = [] from if_pos hnew, hempty, List.append_nil] at hbefore
    have hcount : (net.enrol s).onConnected s ≠ 0 := by
      rw [show (net.enrol s).onConnected s = net.onConnected s + 1 from Function.update_self _ _ _]
      exact Nat.succ_ne_zero _
    have hsession : (net.enrol s).session s = { net.session s with connecting := false, connected := true } :=
      modify_same s fun x => { x with connecting := false, connected := true }
    rw [hts, modify_same, Function.update_self, hempty, show (net.enrol s).greeting s = [.enterGame true 0] from if_neg hcount,
      hsession, List.append_nil, ← hmsg]
    exact hbefore.connect.sent hmade
  · have hsession : (net.enrol s).session t = net.session t :=
      modify_other (fun x => { x with connecting := false, connected := true }) hts
    have hgreeting : (net.enrol s).greeting t = net.greeting t := by
      unfold Net.greeting
      rw [show (net.enrol s).onConnected t = net.onConnected t from Function.update_of_ne hts _ _]
    rw [modify_other (·.sent p) hts, Function.update_of_ne hts, hsession, hgreeting]
    exact h.keeps t

/-- **`ProcessConnect`** of a session that nothing was sent to. -/
theorem processConnect_reflected (h : Reflected ledgers st g) (hnew : st.net.onConnected s = 0)
    (hfresh : (g.game.gameSessions s).player = none) (hempty : g.net s = []) :
    IfReturns (Session.processConnect (gameContent parse fuel) fuel s st) fun st' =>
      ∃ g', RoomStep g (.enterRoom s) g' ∧ Reflected (Function.update ledgers s { ledgers s with
        connected := true, posted := some (ledgers s).recvBuffer.freeSize }) st' g' := by
  obtain ⟨p, hp⟩ := makeSEnterGame_ok
  have hmsg : p.msg = .enterGame true 0 := ServerPacketHandler.make_msg hp
  have hmade : p.Made := by
    rw [Packet.Made, hmsg]
    exact hp
  have hgreeted : IfReturns ((api (gameContent parse fuel) fuel).send s p { st with net := st.net.enrol s })
      fun st₁ => Reflected (Function.update ledgers s { ledgers s with connected := true }) st₁ g := by
    cases fuel with
    | zero => exact .error trivial
    | succ n =>
      show IfReturns (Session.send _ s p _) _
      have hanswers : Succeed ({ st with net := st.net.enrol s } : Server Room).net.answers := h.net.answers
      rw [send_now hanswers]
      exact .ok (Reflected.of h.game ((h.net.enrol hnew hempty hmade hmsg).answering (hanswers.unspent s)))
  have hentered := hgreeted.bind fun st₁ h₁ =>
    h₁.run parse fuel fuel (.enterRoom s) hfresh
  unfold Session.processConnect GameSession.onConnected
  rw [hp]
  refine Post.bind hentered fun st₂ h₂ => ?_
  obtain ⟨g', hstep, h₂⟩ := h₂
  have hkeeps := h₂.net.keeps s
  rw [Function.update_self] at hkeeps
  -- the first receive is posted
  unfold Session.onRecvSide
  obtain ⟨answers, hanswers, hposts⟩ := registerRecv_now h₂.net.answers s (st₂.session s).recvBuffer (st₂.session s).posted
  rw [hposts]
  refine .ok ⟨g', hstep, ?_⟩
  have hup : (st₂.net.session s).connected = true := hkeeps.connected
  dsimp only
  rw [if_pos hup, show (st₂.session s).recvBuffer = (ledgers s).recvBuffer from hkeeps.recvBuffer]
  exact (h₂.answering hanswers).receive (ledgers s).recvBuffer (some (ledgers s).recvBuffer.freeSize)

end ZeldaServer
