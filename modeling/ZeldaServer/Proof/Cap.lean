import ZeldaServer.Proof.Registry

/-!
# The session count and its maximum

`GetMaxSessionCount()` is the number of accept events. An accept event is posted again
after every completion, so it does not bound `_sessionCount`, which grows by one with
every accept that passes its checks.

* `dispatch_sessions`: an event adds the session that it connects to `_sessions`, and no
  other one.
* `session_cap`: the bounds on `_sessionCount`.
-/

namespace ZeldaServer

open Lib

/-- The event connects a session: an accept that passes its checks, or a `ConnectEx`. -/
def Event.joins : Event → Bool
  | .accept _ accepted _ => accepted
  | .connected _ => true
  | .connect | .received _ _ | .sent _ _ => false

/-- One event of the server; it connects a session only while there are less than `max`. -/
def ServesBelow (max : ℕ) (net : Net) (e : Served) (net' : Net) : Prop :=
  Serves net e net' ∧ (e.event.joins = true → net.sessionCount < max)

variable {B : Finset SessionId} {st : Server Script} {fuel : ℕ} {s : SessionId}

/-- No session is added to `_sessions`. -/
def Within (B : Finset SessionId) (st : Server Script) : Prop := st.net.sessions ⊆ B

theorem within_neutral : Neutral (Within B) := by
  refine ⟨fun st s g _ _ h => h, fun st h => ?_⟩
  rw [wsa_snd]
  exact h

theorem within_leaves : Leaves (fun _ => True) (Within B) := by
  refine ⟨fun st s h => h, fun st s h => ?_⟩
  unfold Service.releaseSession
  split
  · exact .ok ((Finset.erase_subset _ _).trans h)
  · exact .error trivial

theorem react_within {api : Api (Server Script)} (hsend : ∀ s p, Preserves (fun _ => True) (Within B) (api.send s p))
    (hdisconnect : ∀ s, Preserves (fun _ => True) (Within B) (api.disconnect s)) :
    Preserves (fun _ => True) (Within B) (react api) := by
  intro st h
  unfold react
  split
  · exact .ok h
  · refine Post.foldlM _ (fun st₁ call _ h₁ => ?_) h
    cases call with
    | send s p => exact hsend s p st₁ h₁
    | disconnect s => exact hdisconnect s st₁ h₁

theorem api_within (B : Finset SessionId) (fuel : ℕ) : (∀ s p, Preserves (fun _ => True) (Within B) ((api scripted fuel).send s p)) ∧
    ∀ s, Preserves (fun _ => True) (Within B) ((api scripted fuel).disconnect s) :=
  api_preserves trivial within_neutral within_leaves (fun _ hs hd _ => react_within hs hd) fuel

theorem processConnect_within (h : st.net.sessions ⊆ B) :
    IfReturns (Session.processConnect scripted fuel s st) fun st' => st'.net.sessions ⊆ insert s B := by
  have hapi := api_within (insert s B) fuel
  obtain ⟨p, hp⟩ := makeSEnterGame_ok
  have henter := Preserves.bind (hapi.1 s p) (react_within hapi.1 hapi.2) { st with net := st.net.enrol s }
    (Finset.insert_subset_insert s h)
  unfold Session.processConnect GameSession.onConnected
  rw [hp]
  refine Post.bind henter fun st₁ h₁ => ?_
  exact preserves_onRecvSide within_neutral (fun _ h => preserves_registerRecv within_neutral hapi.2 h) st₁ h₁

/-- **What an event adds to `_sessions`**: at most one session, which it connects. -/
theorem dispatch_sessions (e : Event) : IfReturns (dispatch scripted fuel st e) fun st' =>
    st'.net.sessions.card ≤ st.net.sessions.card + if e.joins then 1 else 0 := by
  have hcard : ∀ {st' : Server Script} {s : SessionId}, st'.net.sessions ⊆ insert s st.net.sessions →
      st'.net.sessions.card ≤ st.net.sessions.card + 1 := fun h =>
    (Finset.card_le_card h).trans (Finset.card_insert_le _ _)
  have hapi := api_within st.net.sessions fuel
  cases e with
  | accept i accepted retries =>
    unfold dispatch
    dsimp only
    split
    · exact .error trivial
    rename_i s _
    cases accepted with
    | false =>
      refine .ok ?_
      rw [registerAccept_net]
      exact Nat.le_refl _
    | true =>
      refine Post.bind (processConnect_within (Finset.Subset.refl _)) fun st₁ h₁ => ?_
      refine .ok ?_
      rw [registerAccept_net]
      exact hcard h₁
  | connect => exact .ok (Nat.le_refl _)
  | connected s => exact (processConnect_within (Finset.Subset.refl _)).imp fun st₁ h₁ => hcard h₁
  | received s bytes =>
    refine Post.imp (Preserves.processRecv trivial within_neutral hapi.2 (fun _ _ => react_within hapi.1 hapi.2) bytes
      st (Finset.Subset.refl _)) fun st₁ h₁ => ?_
    exact Finset.card_le_card h₁
  | sent s numOfBytes =>
    refine Post.imp (Preserves.processSend within_neutral hapi.2 numOfBytes st (Finset.Subset.refl _)) fun st₁ h₁ => ?_
    exact Finset.card_le_card h₁

/-- The accept events are as many as before. -/
theorem dispatch_acceptEvents (h : AtRest st.net) {e : Event} (he : e.Enabled st.net) :
    IfReturns (dispatch scripted fuel st e) fun st' =>
    st'.net.acceptEvents.length = st.net.acceptEvents.length := by
  have hkeep : ∀ f : Server Script → Outcome (Server Script), Keeps f →
      IfReturns (f st) fun st' => st'.net.acceptEvents.length = st.net.acceptEvents.length := by
    intro f hf
    refine ifReturns_iff.2 fun st' hst' => ?_
    rw [((hf st _ h.registered).result hst').2.acceptEvents]
  have hconnect : ∀ s, st.net.onConnected s = 0 → IfReturns (Session.processConnect scripted fuel s st) fun st' =>
      st'.net.acceptEvents = st.net.acceptEvents := by
    intro s hnew
    refine ifReturns_iff.2 fun st' hst' => ?_
    exact ((processConnect_keeps scripted_polite h.registered hnew).result hst').2.acceptEvents
  cases e with
  | accept i accepted retries =>
    unfold dispatch
    dsimp only
    split
    · exact .error trivial
    rename_i s hs
    cases accepted with
    | false =>
      refine .ok ?_
      rw [registerAccept_net]
      exact List.length_set
    | true =>
      have hnew := (h.awaited.accept s (List.mem_of_getElem? hs) id).1
      refine Post.bind (hconnect s hnew) fun st₁ h₁ => .ok ?_
      rw [registerAccept_net, ← h₁]
      exact List.length_set
  | connect => exact .ok rfl
  | connected s => exact (hconnect s (h.awaited.connecting s he).2).imp fun st₁ h₁ => congrArg _ h₁
  | received s bytes => exact hkeep _ (processRecv_keeps scripted_polite s bytes)
  | sent s numOfBytes => exact hkeep _ (processSend_keeps scripted_polite s numOfBytes)

variable {net net' : Net} {e : Served} {max : ℕ} {events : List Served}

/-- One event connects at most one session, and posts again what it takes. -/
theorem serves_count (h : AtRest net) (hserves : Serves net e net') :
    net'.acceptEvents.length = net.acceptEvents.length ∧
      net'.sessionCount ≤ net.sessionCount + if e.event.joins then 1 else 0 := by
  have hcount := h.registered.count
  have hcount' := (serves_atRest h hserves).registered.count
  obtain ⟨he, fuel, st, hst, rfl⟩ := hserves
  have hcard := (dispatch_sessions e.event).result hst
  dsimp only at hcard
  refine ⟨(dispatch_acceptEvents (h.answer e.answers) he).result hst, ?_⟩
  rw [hcount, hcount']
  split
  · rename_i hjoins
    rw [if_pos hjoins] at hcard
    exact_mod_cast hcard
  · rename_i hjoins
    rw [if_neg hjoins] at hcard
    exact_mod_cast hcard

/-- **The session count**: in every run of a server with `max` accept events, there are
`max` accept events, an event adds at most the session that it connects, and as long as
sessions are connected only while there are less than `max`, there are at most `max`. -/
theorem session_cap (h : Runs Serves (Net.start max) events net) :
    net.acceptEvents.length = max ∧
    (∀ e net', Serves net e net' → net'.sessionCount ≤ net.sessionCount + if e.event.joins then 1 else 0) ∧
    (Runs (ServesBelow max) (Net.start max) events net → net.sessionCount ≤ max) := by
  have hrest : ∀ {es : List Served} {t : Net}, Runs Serves (Net.start max) es t →
      AtRest t ∧ t.acceptEvents.length = max := by
    intro es t ht
    refine Runs.invariant (P := fun t => AtRest t ∧ t.acceptEvents.length = max)
      ⟨start_atRest max, List.length_range⟩ (fun t e u ht hserves => ?_) ht
    exact ⟨serves_atRest ht.1 hserves, (serves_count ht.1 hserves).1.trans ht.2⟩
  refine ⟨(hrest h).2, fun e net' hserves => (serves_count (hrest h).1 hserves).2, fun hbelow => ?_⟩
  have hinv : AtRest net ∧ net.sessionCount ≤ max := by
    refine Runs.invariant (P := fun t => AtRest t ∧ t.sessionCount ≤ max)
      ⟨start_atRest max, Int.natCast_nonneg max⟩ (fun t e u ht hserves => ?_) hbelow
    obtain ⟨hserves, hroom⟩ := hserves
    refine ⟨serves_atRest ht.1 hserves, ?_⟩
    have hstep := (serves_count ht.1 hserves).2
    split at hstep
    · rename_i hjoins
      have := hroom hjoins
      omega
    · have := ht.2
      omega
  exact hinv.2

/-- One event that connects a session only below the maximum. -/
def serveBelow (max : ℕ) (net : Net) (e : Served) : Option Net :=
  if e.event.joins = true → net.sessionCount < max then serve net e else none

theorem serveBelow_serves (h : serveBelow max net e = some net') : ServesBelow max net e net' := by
  unfold serveBelow at h
  split at h
  · rename_i hroom
    exact ⟨serve_serves h, hroom⟩
  · cases h

/-- A session is accepted, disconnects, and then another one is accepted. -/
theorem session_cap_example : ∃ net, Runs (ServesBelow 1) (Net.start 1)
      [{ event := .accept 0 true 0 }, { event := .received 0 [] }, { event := .accept 0 true 0 }] net ∧
    net.acceptEvents.length = 1 ∧ net.sessionCount ≤ 1 := by
  have hrun : (([{ event := .accept 0 true 0 }, { event := .received 0 [] }, { event := .accept 0 true 0 }] :
      List Served).foldlM (serveBelow 1) (Net.start 1)).map Net.sessionCount = some 1 := by decide +kernel
  obtain ⟨net, hnet, -⟩ := Option.map_eq_some_iff.1 hrun
  have hbelow := (Runs.ofFold (serveBelow 1) _ _ hnet).mono fun _ _ _ => serveBelow_serves
  obtain ⟨hlen, -, hcap⟩ := session_cap (hbelow.mono fun _ _ _ hs => hs.1)
  exact ⟨net, hbelow, hlen, hcap hbelow⟩

/-- Two accepts of a server for one session. -/
theorem session_cap_exceeded : ∃ net, Runs Serves (Net.start 1)
    [{ event := .accept 0 true 0 }, { event := .accept 0 true 0 }] net ∧ ¬ net.sessionCount ≤ 1 := by
  have hrun : (([{ event := .accept 0 true 0 }, { event := .accept 0 true 0 }] :
      List Served).foldlM serve (Net.start 1)).map Net.sessionCount = some 2 := by decide +kernel
  obtain ⟨net, hnet, hcount⟩ := Option.map_eq_some_iff.1 hrun
  refine ⟨net, (Runs.ofFold serve _ _ hnet).mono fun _ _ _ => serve_serves, ?_⟩
  rw [hcount]
  decide

end ZeldaServer
