import ZeldaServer.Spec.Session

/-!
# What the functions of a session keep

A property of the server that is not about buffers, queues and answers (`Neutral`) is
kept by every function of `Session` if `Disconnect` and the packet handler keep it.

* `Preserves.send`, `Preserves.processRecv`, `Preserves.processSend`
-/

namespace ZeldaServer

open Lib

variable {γ : Type} {F : Fault → Prop} {J : Server γ → Prop} {f g : Server γ → Outcome (Server γ)}
  {disconnect : SessionId → Server γ → Outcome (Server γ)} {content : Content γ} {fuel : ℕ} {s : SessionId}

/-- The call keeps `J`. -/
def Preserves (F : Fault → Prop) (J : Server γ → Prop) (f : Server γ → Outcome (Server γ)) : Prop :=
  ∀ st, J st → Post F (f st) J

/-- `J` is not about buffers, queues and answers. -/
structure Neutral (J : Server γ → Prop) : Prop where
  modify : ∀ st s g, (∀ x, (g x).connected = x.connected) → (∀ x, (g x).connecting = x.connecting) →
    J st → J (st.modify s g)
  wsa : ∀ st, J st → J st.wsa.2

/-- A socket call takes its answer. -/
theorem wsa_snd (st : Server γ) : st.wsa.2 = { st with net := { st.net with answers := st.net.answers.tail } } := by
  obtain ⟨⟨session, next, accept, sessions, count, manager, answers, opened, closed⟩, game⟩ := st
  cases answers with
  | nil => rfl
  | cons answer answers => rfl

/-- Other answers of the socket calls to come. -/
def Server.answering (st : Server γ) (answers : List WsaResult) : Server γ := { st with net := { st.net with answers := answers } }

theorem Preserves.bind (hf : Preserves F J f) (hg : Preserves F J g) : Preserves F J fun st => f st >>= g :=
  fun st h => Post.bind (hf st h) hg

theorem Preserves.handleError (hd : ∀ s, Preserves F J (disconnect s)) (errorCode : ℤ) :
    Preserves F J (Session.handleError disconnect errorCode s) := by
  intro st h
  unfold Session.handleError
  split
  · exact hd s st h
  · exact .ok h

theorem Preserves.registerSend (hJ : Neutral J) (hd : ∀ s, Preserves F J (disconnect s)) :
    Preserves F J (Session.registerSend disconnect s) := by
  intro st h
  unfold Session.registerSend
  split
  · exact .ok h
  have hdrain := hJ.modify st s (fun x => { x with side := x.side.clear.drain }) (fun _ => rfl) (fun _ => rfl) h
  have hwsa := hJ.wsa _ hdrain
  dsimp only
  split
  · exact .ok (hJ.modify _ s _ (fun _ => rfl) (fun _ => rfl) hwsa)
  · rename_i code _
    refine Post.bind (Preserves.handleError hd code _ hwsa) fun st₁ h₁ => ?_
    exact .ok (hJ.modify _ s _ (fun _ => rfl) (fun _ => rfl) h₁)

theorem Preserves.send (hJ : Neutral J) (hd : ∀ s, Preserves F J (disconnect s)) (p : Packet) :
    Preserves F J (Session.send disconnect s p) := by
  intro st h
  unfold Session.send
  dsimp only
  have hpush : J (st.modify s fun x => { x with side := ((st.session s).side.push p).2 }) :=
    hJ.modify st s _ (fun _ => rfl) (fun _ => rfl) h
  split
  · exact Preserves.registerSend hJ hd _ hpush
  · exact .ok hpush

/-- What `Disconnect` does itself keeps `J`. -/
structure Leaves (F : Fault → Prop) (J : Server γ → Prop) : Prop where
  onDisconnected : ∀ st s, J st → J { st with net := { st.net.modify s (fun x => { x with connected := false }) with
    onDisconnected := Function.update st.net.onDisconnected s (st.net.onDisconnected s + 1)
    manager := st.net.manager.erase s } }
  release : ∀ st s, J st → Post F (Service.releaseSession s st.net) fun net => J { st with net := net }

theorem preserves_disconnect (hL : Leaves F J) {api : Api (Server γ)}
    (hleave : ∀ s, Preserves F J (content.leaveRoom api s)) (s : SessionId) :
    Preserves F J (Session.disconnect (GameSession.onDisconnected content api) s) := by
  intro st h
  unfold Session.disconnect
  split
  · exact .ok h
  refine Post.bind (hleave s _ (hL.onDisconnected st s h)) fun st₁ h₁ => ?_
  exact Post.bind (hL.release st₁ s h₁) fun net hnet => .ok hnet

/-- **`Send` and `Disconnect` keep `J`**, however deep they nest, if the game does. -/
theorem api_preserves (hrun : F .running) (hJ : Neutral J) (hL : Leaves F J)
    (hleave : ∀ api : Api (Server γ), (∀ s p, Preserves F J (api.send s p)) → (∀ s, Preserves F J (api.disconnect s)) →
      ∀ s, Preserves F J (content.leaveRoom api s)) (n : ℕ) :
    (∀ s p, Preserves F J ((api content n).send s p)) ∧ ∀ s, Preserves F J ((api content n).disconnect s) := by
  induction n with
  | zero => exact ⟨fun _ _ _ _ => .error hrun, fun _ _ _ => .error hrun⟩
  | succ n ih =>
    have hd := preserves_disconnect hL (hleave (api content n) ih.1 ih.2)
    exact ⟨fun s p => Preserves.send hJ hd p, hd⟩

/-! ## Completions -/

section

variable {σ : Type} {K : σ → Prop} {recv : RecvApi σ}

/-- What the receive side calls to register keeps `K`. -/
structure RecvApi.Registers (F : Fault → Prop) (K : σ → Prop) (recv : RecvApi σ) : Prop where
  wsaRecv : ∀ st, K st → K (recv.wsaRecv st).2
  handleError : ∀ code st, K st → Post F (recv.handleError code st) K

/-- What the receive side calls keeps `K`. -/
structure RecvApi.Keeps (F : Fault → Prop) (K : σ → Prop) (recv : RecvApi σ) : Prop extends recv.Registers F K where
  disconnect : ∀ st, K st → Post F (recv.disconnect st) K
  onRecvPacket : ∀ buffer st, K st → Post F (recv.onRecvPacket buffer st) K

theorem RecvApi.Registers.registerRecv (h : recv.Registers F K) {side : RecvSide σ} (hside : K side.rest) :
    Post F (registerRecv recv side) fun side' => K side'.rest := by
  unfold ZeldaServer.registerRecv
  split
  · exact .ok hside
  have hwsa := h.wsaRecv _ hside
  dsimp only
  split
  · exact .ok hwsa
  · rename_i code _
    exact Post.bind (h.handleError code _ hwsa) fun st hst => .ok hst

theorem RecvApi.Keeps.onRecvLoop (hrun : F .running) (h : recv.Keeps F K) (buffer : List UInt8) (n : ℕ) (processLen : ℤ) {st : σ}
    (hst : K st) : Post F (onRecvLoop recv.onRecvPacket buffer n processLen st) fun r => K r.2 := by
  induction n generalizing processLen st with
  | zero => exact .error hrun
  | succ n ih =>
    unfold ZeldaServer.onRecvLoop
    dsimp only
    split
    · exact .ok hst
    split
    · exact .ok hst
    exact Post.bind (h.onRecvPacket _ st hst) fun st₁ h₁ => ih _ h₁

theorem RecvApi.Keeps.processRecv (hrun : F .running) (h : recv.Keeps F K) (received : List UInt8) {side : RecvSide σ}
    (hside : K side.rest) : Post F (processRecv recv fuel received side) fun side' => K side'.rest := by
  unfold ZeldaServer.processRecv
  dsimp only
  split
  · exact Post.bind (h.disconnect _ hside) fun st hst => .ok hst
  -- from the call of `OnRecv` on
  have hrest : ∀ (b : RecvBuffer) (st : σ), K st → Post F
      (onRecv recv.onRecvPacket fuel b.unread st >>= fun r =>
        if r.1 < 0 ∨ b.dataSize < r.1 then
          recv.disconnect r.2 >>= fun rest => .ok ⟨b, none, rest⟩
        else if (b.onRead r.1).1 = false then
          recv.disconnect r.2 >>= fun rest => .ok ⟨(b.onRead r.1).2, none, rest⟩
        else ZeldaServer.registerRecv recv ⟨(b.onRead r.1).2.clean, none, r.2⟩)
      fun side' => K side'.rest := by
    intro b st hst
    refine Post.bind (h.onRecvLoop hrun _ fuel 0 hst) fun r hr => ?_
    split
    · exact Post.bind (h.disconnect _ hr) fun st' hst' => .ok hst'
    split
    · exact Post.bind (h.disconnect _ hr) fun st' hst' => .ok hst'
    · refine h.toRegisters.registerRecv ?_
      exact hr
  split
  · exact Post.bind (h.disconnect _ hside) fun st hst => hrest _ st hst
  · exact hrest _ _ hside

/-- A receive of no bytes only disconnects. -/
theorem processRecv_nil (hd : ∀ st, K st → Post F (recv.disconnect st) K) {side : RecvSide σ} (hside : K side.rest) :
    Post F (processRecv recv fuel [] side) fun side' => K side'.rest := by
  unfold ZeldaServer.processRecv
  exact Post.bind (hd _ hside) fun st hst => .ok hst

end

theorem recvApi_registers (hJ : Neutral J) (hd : ∀ s, Preserves F J ((api content fuel).disconnect s)) :
    (Session.recvApi content fuel s).Registers F J where
  wsaRecv := hJ.wsa
  handleError := Preserves.handleError hd

theorem preserves_registerRecv (hJ : Neutral J) (hd : ∀ s, Preserves F J ((api content fuel).disconnect s))
    {side : RecvSide (Server γ)} (h : J side.rest) :
    Post F (registerRecv (Session.recvApi content fuel s) side) fun side' => J side'.rest :=
  (recvApi_registers hJ hd).registerRecv h

/-- A function of the receive side, on the session. -/
theorem preserves_onRecvSide (hJ : Neutral J) {f : RecvSide (Server γ) → Outcome (RecvSide (Server γ))}
    (hf : ∀ side, J side.rest → Post F (f side) fun side' => J side'.rest) :
    Preserves F J (Session.onRecvSide s f) := by
  intro st h
  refine Post.bind (hf _ h) fun side hside => ?_
  exact .ok (hJ.modify _ s _ (fun _ => rfl) (fun _ => rfl) hside)

theorem Preserves.processRecv (hrun : F .running) (hJ : Neutral J)
    (hd : ∀ s, Preserves F J ((api content fuel).disconnect s))
    (hp : ∀ s buffer, Preserves F J (content.handlePacket (api content fuel) s buffer)) (received : List UInt8) :
    Preserves F J (Session.processRecv content fuel s received) := by
  have hkeeps : (Session.recvApi content fuel s).Keeps F J := ⟨recvApi_registers hJ hd, hd s, hp s⟩
  exact preserves_onRecvSide hJ fun _ h => hkeeps.processRecv hrun received h

theorem Preserves.processSend (hJ : Neutral J) (hd : ∀ s, Preserves F J ((api content fuel).disconnect s))
    (numOfBytes : ℤ) : Preserves F J (Session.processSend content fuel s numOfBytes) := by
  intro st h
  unfold Session.processSend
  dsimp only
  have hclear : J (st.modify s fun x => { x with wire := x.wire.tail, side := x.side.clear }) :=
    hJ.modify st s _ (fun _ => rfl) (fun _ => rfl) h
  split
  · exact hd s _ hclear
  -- the locked section may change the flag
  have hnext : ∀ (st₁ : Server γ) (r : Bool × SendSide Packet), J st₁ → Post F
      (if r.1 = true then Session.registerSend (api content fuel).disconnect s (st₁.modify s fun x => { x with side := r.2 })
        else .ok (st₁.modify s fun x => { x with side := r.2 })) J := by
    intro st₁ r h₁
    have hside : J (st₁.modify s fun x => { x with side := r.2 }) :=
      hJ.modify st₁ s _ (fun _ => rfl) (fun _ => rfl) h₁
    split
    · exact Preserves.registerSend hJ hd _ hside
    · exact .ok hside
  exact hnext _ _ hclear

end ZeldaServer
