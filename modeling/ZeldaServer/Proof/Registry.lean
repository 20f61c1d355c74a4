import ZeldaServer.Lib.Runs
import ZeldaServer.Proof.Sessions

/-!
# The session registries agree

`Registered` holds at every point of every nested call: `GSessionManager` holds the
connected sessions, and `Service::_sessions` holds them and those whose `Disconnect`
is under way. Whatever the game does with `Send` and `Disconnect` keeps it (`Keeps`).

* `Keeps.disconnect`, `Keeps.send`: the two calls, at every depth.
* `registries_agree`: after every event the two registries are the connected sessions.
-/

namespace ZeldaServer

open Lib

/-- Where the sessions are registered while the sessions of `leaving` are in `Disconnect`. -/
structure Registered (net : Net) (leaving : SessionId → Prop) : Prop where
  manager : ∀ s, s ∈ net.manager ↔ (net.session s).connected = true
  sessions : ∀ s, s ∈ net.sessions ↔ (net.session s).connected = true ∨ leaving s
  gone : ∀ s, leaving s → (net.session s).connected = false
  count : net.sessionCount = net.sessions.card
  calls : ∀ s, net.onDisconnected s + (net.session s).connected.toNat = net.onConnected s

/-- What no call changes: which sessions are still to be connected. -/
structure Undisturbed (net net' : Net) : Prop where
  acceptEvents : net'.acceptEvents = net.acceptEvents
  nextSession : net'.nextSession = net.nextSession
  onConnected : net'.onConnected = net.onConnected
  connecting : ∀ s, (net'.session s).connecting = (net.session s).connecting

theorem Undisturbed.refl (net : Net) : Undisturbed net net := ⟨rfl, rfl, rfl, fun _ => rfl⟩

variable {net net₁ net₂ : Net} {leaving : SessionId → Prop}

theorem Undisturbed.trans (h₁ : Undisturbed net net₁) (h₂ : Undisturbed net₁ net₂) :
    Undisturbed net net₂ where
  acceptEvents := h₂.acceptEvents.trans h₁.acceptEvents
  nextSession := h₂.nextSession.trans h₁.nextSession
  onConnected := h₂.onConnected.trans h₁.onConnected
  connecting s := (h₂.connecting s).trans (h₁.connecting s)

/-! ## Changes of one session -/

theorem modify_same (s : SessionId) (f : Session → Session) :
    (net.modify s f).session s = f (net.session s) := by
  simp [Net.modify]

theorem modify_other {s t : SessionId} (f : Session → Session) (h : t ≠ s) :
    (net.modify s f).session t = net.session t := by
  simp [Net.modify, h]

/-- A field that `f` leaves alone stays the same in every session. -/
theorem modify_field {α : Type} (g : Session → α) {s : SessionId} {f : Session → Session}
    (hf : ∀ x, g (f x) = g x) (t : SessionId) : g ((net.modify s f).session t) = g (net.session t) := by
  by_cases h : t = s
  · rw [h, modify_same, hf]
  · rw [modify_other f h]

/-- No session has been connected or released in between. -/
structure Unchanged (net net' : Net) : Prop where
  connected : ∀ s, (net'.session s).connected = (net.session s).connected
  manager : net'.manager = net.manager
  sessions : net'.sessions = net.sessions
  sessionCount : net'.sessionCount = net.sessionCount
  onConnected : net'.onConnected = net.onConnected
  onDisconnected : net'.onDisconnected = net.onDisconnected

theorem Unchanged.refl : Unchanged net net := ⟨fun _ => rfl, rfl, rfl, rfl, rfl, rfl⟩

theorem Unchanged.trans (h : Unchanged net net₁) (h' : Unchanged net₁ net₂) : Unchanged net net₂ :=
  ⟨fun s => (h'.connected s).trans (h.connected s), h'.manager.trans h.manager, h'.sessions.trans h.sessions,
    h'.sessionCount.trans h.sessionCount, h'.onConnected.trans h.onConnected, h'.onDisconnected.trans h.onDisconnected⟩

theorem Unchanged.modify {s : SessionId} {f : Session → Session} (hf : ∀ x, (f x).connected = x.connected) :
    Unchanged net (net.modify s f) :=
  ⟨modify_field Session.connected hf, rfl, rfl, rfl, rfl, rfl⟩

theorem Registered.unchanged (h : Registered net leaving) (ha : Unchanged net net₁) : Registered net₁ leaving := by
  obtain ⟨hc, h1, h2, h3, h4, h5⟩ := ha
  refine ⟨fun t => ?_, fun t => ?_, fun t ht => ?_, ?_, fun t => ?_⟩
  · rw [h1, hc]; exact h.manager t
  · rw [h2, hc]; exact h.sessions t
  · rw [hc]; exact h.gone t ht
  · rw [h2, h3]; exact h.count
  · rw [h4, h5, hc]; exact h.calls t

theorem Undisturbed.modify {s : SessionId} {f : Session → Session}
    (hf : ∀ x, (f x).connecting = x.connecting) : Undisturbed net (net.modify s f) :=
  ⟨rfl, rfl, rfl, modify_field Session.connecting hf⟩

/-! ## Calls that keep the registries -/

variable {γ : Type}

theorem Unchanged.wsa (st : Server γ) : Unchanged st.net st.wsa.2.net := by
  rw [wsa_snd]
  exact ⟨fun _ => rfl, rfl, rfl, rfl, rfl, rfl⟩

theorem Undisturbed.wsa (st : Server γ) : Undisturbed st.net st.wsa.2.net := by
  rw [wsa_snd]
  exact ⟨rfl, rfl, rfl, fun _ => rfl⟩

/-- The call keeps the registries, and its assertions hold. -/
def Keeps (f : Server γ → Outcome (Server γ)) : Prop :=
  ∀ st leaving, Registered st.net leaving →
    Post (· ≠ .assertion) (f st) fun st' => Registered st'.net leaving ∧ Undisturbed st.net st'.net

/-- The registries agree, and nothing was disturbed since `net`. -/
def Kept (leaving : SessionId → Prop) (net : Net) (st : Server γ) : Prop :=
  Registered st.net leaving ∧ Undisturbed net st.net

theorem keeps_iff {f : Server γ → Outcome (Server γ)} :
    Keeps f ↔ ∀ leaving net, Preserves (· ≠ .assertion) (Kept leaving net) f := by
  constructor
  · intro h leaving net st hst
    obtain ⟨hr, hu⟩ := hst
    exact (h st leaving hr).imp fun st' hst' => ⟨hst'.1, hu.trans hst'.2⟩
  · intro h st leaving hr
    exact h leaving st.net st ⟨hr, Undisturbed.refl _⟩

theorem kept_neutral : Neutral (Kept leaving net : Server γ → Prop) := by
  refine ⟨fun st s g h1 h2 h => ?_, fun st h => ?_⟩
  · exact ⟨h.1.unchanged (.modify h1), h.2.trans (.modify h2)⟩
  · exact ⟨h.1.unchanged (.wsa st), h.2.trans (.wsa st)⟩

theorem Keeps.bind {f g : Server γ → Outcome (Server γ)} (hf : Keeps f) (hg : Keeps g) :
    Keeps fun st => f st >>= g :=
  keeps_iff.2 fun leaving net => (keeps_iff.1 hf leaving net).bind (keeps_iff.1 hg leaving net)

/-! ## Disconnect -/

/-- The game keeps the registries if `Send` and `Disconnect` do. -/
structure Content.Polite (content : Content γ) : Prop where
  enterRoom : ∀ api : Api (Server γ), (∀ s p, Keeps (api.send s p)) → (∀ s, Keeps (api.disconnect s)) →
    ∀ s, Keeps (content.enterRoom api s)
  leaveRoom : ∀ api : Api (Server γ), (∀ s p, Keeps (api.send s p)) → (∀ s, Keeps (api.disconnect s)) →
    ∀ s, Keeps (content.leaveRoom api s)
  handlePacket : ∀ api : Api (Server γ), (∀ s p, Keeps (api.send s p)) → (∀ s, Keeps (api.disconnect s)) →
    ∀ s buffer, Keeps (content.handlePacket api s buffer)

/-- The flag exchange and the removal from `GSessionManager`: `s` is leaving. -/
theorem Registered.leave {net : Net} (h : Registered net leaving) {s : SessionId}
    (hc : (net.session s).connected = true) :
    Registered { net.modify s (fun x => { x with connected := false }) with
      onDisconnected := Function.update net.onDisconnected s (net.onDisconnected s + 1)
      manager := net.manager.erase s } (fun t => leaving t ∨ t = s) := by
  have hs : ∀ t, t ≠ s → ((net.modify s fun x => { x with connected := false }).session t) = net.session t :=
    fun t ht => modify_other _ ht
  have hself : (net.modify s fun x => { x with connected := false }).session s =
      { net.session s with connected := false } := modify_same s _
  refine ⟨fun t => ?_, fun t => ?_, fun t ht => ?_, h.count, fun t => ?_⟩
  all_goals by_cases hts : t = s
  · subst hts; simp [hself]
  · simp only [Finset.mem_erase, hs t hts, ← h.manager]; simp [hts]
  · subst hts; simp [Net.modify, h.sessions, hc]
  · simp only [hs t hts]; simp [Net.modify, h.sessions, hts]
  · subst hts; simp [hself]
  · simp only [hs t hts]; exact h.gone t (by simpa [hts] using ht)
  · subst hts
    have hcalls := h.calls t
    rw [hc] at hcalls
    simpa [hself, Net.modify] using hcalls
  · simpa [hs t hts, hts, Net.modify] using h.calls t

/-- `ReleaseSession` of a session that is leaving: its assertion holds. -/
theorem Registered.release {net : Net} {s : SessionId}
    (h : Registered net fun t => leaving t ∨ t = s) (hs : ¬ leaving s) :
    Post (· ≠ .assertion) (Service.releaseSession s net) fun net' =>
      Registered net' leaving ∧ Undisturbed net net' := by
  have hmem : s ∈ net.sessions := (h.sessions s).2 (.inr (.inr rfl))
  have hc : (net.session s).connected = false := h.gone s (.inr rfl)
  have hcard := Finset.card_erase_add_one hmem
  have hcount := h.count
  rw [Service.releaseSession, if_pos hmem, post_ok]
  refine ⟨⟨h.manager, fun t => ?_, fun t ht => h.gone t (.inl ht), ?_, h.calls⟩, rfl, rfl, rfl, fun _ => rfl⟩
  · rw [Finset.mem_erase, h.sessions]
    by_cases hts : t = s
    · subst hts; simp [hc, hs]
    · simp [hts]
  · simp only [hcount]
    omega

variable {content : Content γ}

/-- One level of `Disconnect`. -/
theorem Keeps.disconnect {api : Api (Server γ)} (hleave : ∀ s, Keeps (content.leaveRoom api s))
    (s : SessionId) : Keeps (Session.disconnect (GameSession.onDisconnected content api) s) := by
  intro st leaving h
  unfold Session.disconnect
  split
  · exact .ok ⟨h, Undisturbed.refl _⟩
  rename_i hc
  have hc : (st.net.session s).connected = true := by simpa [Server.session] using hc
  have hns : ¬ leaving s := fun hl => by simp [h.gone s hl] at hc
  refine Post.bind (hleave s _ _ (h.leave hc)) ?_
  intro st₁ hst₁
  refine Post.bind (hst₁.1.release hns) ?_
  intro net hnet
  refine .ok ⟨hnet.1, Undisturbed.trans ?_ (hst₁.2.trans hnet.2)⟩
  refine ⟨rfl, rfl, rfl, fun t => ?_⟩
  exact modify_field (f := fun x => { x with connected := false }) Session.connecting (fun _ => rfl) t

theorem Keeps.send {disconnect : SessionId → Server γ → Outcome (Server γ)}
    (hd : ∀ s, Keeps (disconnect s)) (s : SessionId) (p : Packet) : Keeps (Session.send disconnect s p) :=
  keeps_iff.2 fun leaving net => Preserves.send kept_neutral (fun s => keeps_iff.1 (hd s) leaving net) p

/-- **`Send` and `Disconnect` keep the registries**, however deep they nest. -/
theorem api_keeps (hcontent : content.Polite) (n : ℕ) :
    (∀ s p, Keeps ((api content n).send s p)) ∧ ∀ s, Keeps ((api content n).disconnect s) := by
  induction n with
  | zero => exact ⟨fun _ _ _ _ _ => .error nofun, fun _ _ _ _ => .error nofun⟩
  | succ n ih =>
    have hd := Keeps.disconnect (hcontent.leaveRoom (api content n) ih.1 ih.2)
    exact ⟨Keeps.send hd, hd⟩

/-! ## Events -/

variable {fuel : ℕ}

theorem processRecv_keeps (hcontent : content.Polite) (s : SessionId) (received : List UInt8) :
    Keeps (Session.processRecv content fuel s received) := by
  have hapi := api_keeps hcontent fuel
  refine keeps_iff.2 fun leaving net => ?_
  exact Preserves.processRecv nofun kept_neutral (fun s => keeps_iff.1 (hapi.2 s) leaving net)
    (fun s buffer => keeps_iff.1 (hcontent.handlePacket _ hapi.1 hapi.2 s buffer) leaving net) received

theorem processSend_keeps (hcontent : content.Polite) (s : SessionId) (numOfBytes : ℤ) :
    Keeps (Session.processSend content fuel s numOfBytes) :=
  keeps_iff.2 fun leaving net =>
    Preserves.processSend kept_neutral (fun s => keeps_iff.1 ((api_keeps hcontent fuel).2 s) leaving net) numOfBytes

/-- `ProcessConnect` up to `OnConnected`, and its first call. -/
def Net.enrol (net : Net) (s : SessionId) : Net :=
  let net := Service.addSession s (net.modify s fun x => { x with connecting := false, connected := true })
  { net with
    onConnected := Function.update net.onConnected s (net.onConnected s + 1)
    manager := insert s net.manager }

/-- A session that has never been connected is registered everywhere. -/
theorem Registered.enrol (h : Registered net fun _ => False) {s : SessionId}
    (hnew : net.onConnected s = 0) : Registered (net.enrol s) fun _ => False := by
  have hcalls := h.calls s
  have hc : (net.session s).connected = false := by
    cases hcs : (net.session s).connected
    · rfl
    · rw [hcs, hnew] at hcalls
      simp at hcalls
  have hns : s ∉ net.sessions := by simp [h.sessions, hc]
  have hother : ∀ t, t ≠ s → (net.enrol s).session t = net.session t := by
    intro t ht
    simp [Net.enrol, Service.addSession, Net.modify, ht]
  have hself : ((net.enrol s).session s).connected = true := by
    simp [Net.enrol, Service.addSession, Net.modify]
  refine ⟨fun t => ?_, fun t => ?_, fun t ht => ht.elim, ?_, fun t => ?_⟩
  · by_cases hts : t = s
    · subst hts; rw [hself]; simp [Net.enrol]
    · rw [hother t hts, ← h.manager]
      simp [Net.enrol, Service.addSession, Net.modify, hts]
  · by_cases hts : t = s
    · subst hts; rw [hself]; simp [Net.enrol, Service.addSession]
    · rw [hother t hts, ← h.sessions]
      simp [Net.enrol, Service.addSession, Net.modify, hts]
  · have hcount := h.count
    simp only [Net.enrol, Service.addSession, Net.modify, Finset.card_insert_of_notMem hns]
    omega
  · by_cases hts : t = s
    · subst hts
      rw [hself]
      rw [hc, hnew] at hcalls
      simpa [Net.enrol, Service.addSession, Net.modify, hnew] using hcalls
    · rw [hother t hts]
      simpa [Net.enrol, Service.addSession, Net.modify, hts] using h.calls t

theorem makeSEnterGame_ok : ∃ packet, ServerPacketHandler.makeSEnterGame = .ok packet := ⟨_, rfl⟩

theorem processConnect_keeps (hcontent : content.Polite) {s : SessionId} {st : Server γ}
    (h : Registered st.net fun _ => False) (hnew : st.net.onConnected s = 0) :
    Post (· ≠ .assertion) (Session.processConnect content fuel s st) fun st' =>
      Registered st'.net (fun _ => False) ∧ Undisturbed (st.net.enrol s) st'.net := by
  have hapi := api_keeps hcontent fuel
  obtain ⟨p, hp⟩ := makeSEnterGame_ok
  have henter := (hapi.1 s p).bind (hcontent.enterRoom _ hapi.1 hapi.2 s) { st with net := st.net.enrol s } _
    (h.enrol hnew)
  unfold Session.processConnect GameSession.onConnected
  rw [hp]
  refine Post.bind henter fun st₁ hst₁ => ?_
  have hd := fun t => keeps_iff.1 (hapi.2 t) (fun _ => False) (st.net.enrol s)
  exact preserves_onRecvSide kept_neutral (fun side hside => preserves_registerRecv kept_neutral hd hside) st₁ hst₁

/-! ## Runs -/

/-- The sessions that are still to be connected have never been; those of `taken` have
just been taken from their accept event. -/
structure Awaited (net : Net) (taken : SessionId → Prop) : Prop where
  nodup : net.acceptEvents.Nodup
  known : ∀ s ∈ net.acceptEvents, s < net.nextSession
  accept : ∀ s ∈ net.acceptEvents, ¬ taken s → net.onConnected s = 0 ∧ (net.session s).connecting = false
  connecting : ∀ s, (net.session s).connecting = true → s < net.nextSession ∧ net.onConnected s = 0
  created : ∀ s, net.nextSession ≤ s → net.onConnected s = 0 ∧ (net.session s).connecting = false

variable {taken : SessionId → Prop}

theorem Awaited.undisturbed (h : Awaited net taken) (hu : Undisturbed net net₁) : Awaited net₁ taken := by
  obtain ⟨h1, h2, h3, h4⟩ := hu
  refine ⟨by rw [h1]; exact h.nodup, ?_, ?_, ?_, ?_⟩
  · simp only [h1, h2]; exact h.known
  · simp only [h1, h3, h4]; exact h.accept
  · simp only [h2, h3, h4]; exact h.connecting
  · simp only [h2, h3, h4]; exact h.created

/-- A session is connected that was created before. -/
theorem Awaited.enrol (h : Awaited net fun _ => False) {s : SessionId} (hs : s < net.nextSession) :
    Awaited (net.enrol s) (· = s) := by
  have hother : ∀ t, t ≠ s → (net.enrol s).session t = net.session t ∧
      (net.enrol s).onConnected t = net.onConnected t := by
    intro t ht
    simp [Net.enrol, Service.addSession, Net.modify, ht]
  have hself : ((net.enrol s).session s).connecting = false := by
    simp [Net.enrol, Service.addSession, Net.modify]
  refine ⟨h.nodup, h.known, fun t ht hts => ?_, fun t ht => ?_, fun t ht => ?_⟩
  · obtain ⟨h1, h2⟩ := hother t hts
    rw [h1, h2]
    exact h.accept t ht id
  · have hts : t ≠ s := by
      intro hts
      rw [hts, hself] at ht
      cases ht
    obtain ⟨h1, h2⟩ := hother t hts
    rw [h1] at ht
    rw [h2]
    exact h.connecting t ht
  · have hts : t ≠ s := fun hts => Nat.not_le.2 hs (hts ▸ ht)
    obtain ⟨h1, h2⟩ := hother t hts
    rw [h1, h2]
    exact h.created t ht

theorem registerAccept_net (i retries : ℕ) (net : Net) : Listener.registerAccept i retries net =
    { net with
      nextSession := net.nextSession + retries + 1
      acceptEvents := net.acceptEvents.set i (net.nextSession + retries) } := by
  induction retries generalizing net with
  | zero => rfl
  | succ retries ih =>
    have h1 : net.nextSession + 1 + retries = net.nextSession + (retries + 1) := Nat.succ_add_eq_add_succ _ _
    simp only [Listener.registerAccept, Service.createSession, ih, List.set_set, h1]

/-- A new session waits in the place of one that was taken. -/
theorem Awaited.registerAccept {s : SessionId} (h : Awaited net (· = s)) {i : ℕ}
    (hi : net.acceptEvents[i]? = some s) (retries : ℕ) :
    Awaited (Listener.registerAccept i retries net) fun _ => False := by
  obtain ⟨hlt, hget⟩ := List.getElem?_eq_some_iff.1 hi
  have hmem : ∀ t ∈ net.acceptEvents.set i (net.nextSession + retries),
      t = net.nextSession + retries ∨ (t ∈ net.acceptEvents ∧ t ≠ s) := by
    intro t ht
    obtain ⟨j, hj, rfl⟩ := List.getElem_of_mem ht
    rw [List.length_set] at hj
    by_cases hij : i = j
    · left; simp [hij]
    · right
      rw [List.getElem_set_ne hij]
      refine ⟨List.getElem_mem _, fun hts => hij ?_⟩
      exact (h.nodup.getElem_inj_iff.1 (hget.trans hts.symm))
  have hle : net.nextSession ≤ net.nextSession + retries := Nat.le_add_right _ _
  have hnew : net.nextSession + retries ∉ net.acceptEvents := fun hin => Nat.not_le.2 (h.known _ hin) hle
  rw [registerAccept_net]
  refine ⟨?_, fun t ht => ?_, fun t ht _ => ?_, fun t ht => ?_, fun t ht => h.created t ?_⟩
  · exact List.Nodup.set h.nodup hnew
  · rcases hmem t ht with rfl | ⟨hin, -⟩
    · exact Nat.lt_succ_self _
    · exact Nat.lt_succ_of_lt ((h.known t hin).trans_le hle)
  · rcases hmem t ht with rfl | ⟨hin, hts⟩
    · exact h.created _ hle
    · exact h.accept t hin hts
  · obtain ⟨hlt', hzero⟩ := h.connecting t ht
    exact ⟨Nat.lt_succ_of_lt (hlt'.trans_le hle), hzero⟩
  · exact (hle.trans (Nat.le_succ _)).trans ht

/-- `ConnectEx` is called on a new session. -/
theorem Awaited.connect (h : Awaited net fun _ => False) :
    Awaited ((Service.createSession net).2.modify net.nextSession fun x => { x with connecting := true })
      fun _ => False := by
  have hle : net.nextSession ≤ net.nextSession + 1 := Nat.le_succ _
  have hother : ∀ t, t ≠ net.nextSession → (((Service.createSession net).2.modify net.nextSession
      fun x => { x with connecting := true }).session t) = net.session t := fun t ht => modify_other _ ht
  refine ⟨h.nodup, fun t ht => (h.known t ht).trans_le hle, fun t ht _ => ?_, fun t ht => ?_, fun t ht => ?_⟩
  · rw [hother t (Nat.ne_of_lt (h.known t ht))]
    exact h.accept t ht id
  · by_cases hts : t = net.nextSession
    · rw [hts]
      exact ⟨Nat.lt_succ_self _, (h.created _ (Nat.le_refl _)).1⟩
    · rw [hother t hts] at ht
      obtain ⟨hlt, hzero⟩ := h.connecting t ht
      exact ⟨hlt.trans_le hle, hzero⟩
  · rw [hother t (Nat.ne_of_gt ht)]
    exact h.created t (hle.trans ht)

/-- The sessions between two events. -/
structure AtRest (net : Net) : Prop where
  registered : Registered net fun _ => False
  awaited : Awaited net fun _ => False

/-- A service that listens with `acceptCount` accept events. -/
def Net.start (acceptCount : ℕ) : Net where
  nextSession := acceptCount
  acceptEvents := List.range acceptCount

theorem start_atRest (acceptCount : ℕ) : AtRest (Net.start acceptCount) := by
  refine ⟨⟨?_, ?_, ?_, rfl, fun _ => rfl⟩, ⟨List.nodup_range, ?_, ?_, ?_, ?_⟩⟩
  · simp [Net.start]
  · simp [Net.start]
  · exact fun _ h => h.elim
  · simp [Net.start]
  · simp [Net.start]
  · simp [Net.start]
  · simp [Net.start]

/-- The completions after which `ProcessConnect` runs. -/
def Event.connects : Event → Bool
  | .accept _ accepted _ => accepted
  | .connected _ => true
  | _ => false

theorem registerAccept_unchanged {i retries : ℕ} : Unchanged net (Listener.registerAccept i retries net) := by
  rw [registerAccept_net]
  exact ⟨fun _ => rfl, rfl, rfl, rfl, rfl, rfl⟩

/-- **The rule of an event.** What `ProcessConnect` of a new session, `ProcessRecv` and
`ProcessSend` keep, whatever sessions are made, every event keeps. -/
theorem dispatch_spec {F : Fault → Prop} {I : Server γ → Prop} {st : Server γ} {e : Event}
    (hunchanged : ∀ (st : Server γ) (net : Net), Unchanged st.net net → I st → I { st with net := net })
    (hconnect : e.connects = true → ∀ s, st.net.onConnected s = 0 →
      Post F (Session.processConnect content fuel s st) fun st' => I st' ∧ Undisturbed (st.net.enrol s) st'.net)
    (hrecv : ∀ s bytes, Post F (Session.processRecv content fuel s bytes st) fun st' => I st' ∧ Undisturbed st.net st'.net)
    (hsent : ∀ s n, Post F (Session.processSend content fuel s n st) fun st' => I st' ∧ Undisturbed st.net st'.net)
    (h : I st) (haw : Awaited st.net fun _ => False) (he : e.Enabled st.net) :
    Post F (dispatch content fuel st e) fun st' => I st' ∧ Awaited st'.net fun _ => False := by
  cases e with
  | accept i accepted retries =>
    obtain ⟨s, hs⟩ : ∃ s, st.net.acceptEvents[i]? = some s := ⟨_, List.getElem?_eq_getElem he⟩
    have hmem : s ∈ st.net.acceptEvents := List.mem_of_getElem? hs
    unfold dispatch
    simp only [hs]
    cases accepted with
    | false =>
      have htaken : Awaited st.net (· = s) := { haw with accept := fun t ht _ => haw.accept t ht id }
      exact .ok ⟨hunchanged st _ registerAccept_unchanged h, htaken.registerAccept hs retries⟩
    | true =>
      refine Post.bind (hconnect rfl s (haw.accept s hmem id).1) fun st' hst' => ?_
      obtain ⟨hI, hu⟩ := hst'
      have htaken := (haw.enrol (haw.known s hmem)).undisturbed hu
      exact .ok ⟨hunchanged st' _ registerAccept_unchanged hI, htaken.registerAccept (by rw [hu.acceptEvents]; exact hs) retries⟩
  | connect =>
    refine .ok ⟨hunchanged st _ ?_ h, haw.connect⟩
    have hnew : Unchanged (Service.createSession st.net).2 ((Service.createSession st.net).2.modify st.net.nextSession
        fun x => { x with connecting := true }) := .modify fun _ => rfl
    exact ⟨hnew.connected, rfl, rfl, rfl, rfl, rfl⟩
  | connected s =>
    obtain ⟨hlt, hnew⟩ := haw.connecting s he
    refine (hconnect rfl s hnew).imp fun st' hst' => ?_
    obtain ⟨hI, hu⟩ := hst'
    have haw' := (haw.enrol hlt).undisturbed hu
    refine ⟨hI, { haw' with accept := fun t ht _ => haw'.accept t ht fun hts => ?_ }⟩
    -- a session that `ConnectEx` was called on is in no accept event
    rw [hu.acceptEvents, hts] at ht
    have hno := (haw.accept s ht id).2
    rw [he] at hno
    cases hno
  | received s bytes => exact (hrecv s bytes).imp fun st' hst' => ⟨hst'.1, haw.undisturbed hst'.2⟩
  | sent s numOfBytes => exact (hsent s numOfBytes).imp fun st' hst' => ⟨hst'.1, haw.undisturbed hst'.2⟩

/-- **Every event leaves the sessions at rest**, and no assertion fails. -/
theorem dispatch_atRest (hcontent : content.Polite) {st : Server γ} (h : AtRest st.net) {e : Event}
    (he : e.Enabled st.net) :
    Post (· ≠ .assertion) (dispatch content fuel st e) fun st' => AtRest st'.net := by
  refine (dispatch_spec (I := fun st' => Registered st'.net fun _ => False) ?_ ?_ ?_ ?_ h.registered h.awaited he).imp
    fun st' hst' => ⟨hst'.1, hst'.2⟩
  · exact fun _ _ ha hr => hr.unchanged ha
  · exact fun _ s hnew => processConnect_keeps hcontent h.registered hnew
  · exact fun s bytes => processRecv_keeps hcontent s bytes st _ h.registered
  · exact fun s n => processSend_keeps hcontent s n st _ h.registered

/-! ## Any reaction of the room -/

/-- A call of the room on a session. -/
inductive Call
  | send (s : SessionId) (sendBuffer : Packet)
  | disconnect (s : SessionId)
  deriving DecidableEq, Repr

/-- What the room will do: the calls it makes in each of its next reactions. -/
structure Script where
  reactions : List (List Call) := []

/-- The next reaction. -/
def react (api : Api (Server Script)) (st : Server Script) : Outcome (Server Script) :=
  match st.game.reactions with
  | [] => .ok st
  | calls :: reactions =>
    calls.foldlM (fun st call =>
      match call with
      | .send s sendBuffer => api.send s sendBuffer st
      | .disconnect s => api.disconnect s st) { st with game := { reactions := reactions } }

/-- A room that reacts to every callback with the next calls of its script. -/
def scripted : Content Script where
  enterRoom api _ := react api
  leaveRoom api _ := react api
  handlePacket api _ _ := react api

theorem react_keeps {api : Api (Server Script)} (hsend : ∀ s p, Keeps (api.send s p))
    (hdisconnect : ∀ s, Keeps (api.disconnect s)) : Keeps (react api) := by
  intro st leaving h
  unfold react
  split
  · exact .ok ⟨h, Undisturbed.refl _⟩
  · refine Post.foldlM _ (I := fun st' : Server Script => Registered st'.net leaving ∧ Undisturbed st.net st'.net) ?_
      ⟨h, Undisturbed.refl _⟩
    intro st₁ call _ h₁
    cases call with
    | send s p => exact (hsend s p st₁ leaving h₁.1).imp fun st₂ h₂ => ⟨h₂.1, h₁.2.trans h₂.2⟩
    | disconnect s => exact (hdisconnect s st₁ leaving h₁.1).imp fun st₂ h₂ => ⟨h₂.1, h₁.2.trans h₂.2⟩

theorem scripted_polite : scripted.Polite where
  enterRoom _ hs hd _ := react_keeps hs hd
  leaveRoom _ hs hd _ := react_keeps hs hd
  handlePacket _ hs hd _ _ := react_keeps hs hd

/-- An event, what the socket calls made while it is handled answer, and what the room does. -/
structure Served where
  event : Event
  answers : List WsaResult := []
  reactions : List (List Call) := []

/-- The handling of an event; it may use any number of nested calls. -/
def Served.handle (e : Served) (fuel : ℕ) (net : Net) : Outcome (Server Script) :=
  dispatch scripted fuel ⟨{ net with answers := e.answers }, { reactions := e.reactions }⟩ e.event

/-- One event of the server. -/
def Serves (net : Net) (e : Served) (net' : Net) : Prop :=
  e.event.Enabled net ∧ ∃ fuel st, e.handle fuel net = .ok st ∧ st.net = net'

instance (net : Net) (e : Event) : Decidable (e.Enabled net) :=
  match e with
  | .accept i _ _ => inferInstanceAs (Decidable (i < _))
  | .connect => inferInstanceAs (Decidable True)
  | .connected s => inferInstanceAs (Decidable ((net.session s).connecting = true))
  | .received s bytes => decidable_of_iff ((net.session s).posted.any fun len => (bytes.length : ℤ) ≤ len) (by
      rw [Option.any_eq_true]
      simp [Event.Enabled])
  | .sent s _ => inferInstanceAs (Decidable ((net.session s).wire ≠ []))

/-- One event, with fuel for a small server. -/
def serve (net : Net) (e : Served) : Option Net :=
  if e.event.Enabled net then (e.handle 8 net).toOption.map State.net else none

theorem serve_serves {net net' : Net} {e : Served} (h : serve net e = some net') : Serves net e net' := by
  unfold serve at h
  split at h
  · rename_i he
    obtain ⟨st, hst, rfl⟩ := Option.map_eq_some_iff.1 h
    exact ⟨he, 8, st, toOption_eq_some.1 hst, rfl⟩
  · cases h

theorem AtRest.answer {net : Net} (h : AtRest net) (answers : List WsaResult) : AtRest { net with answers := answers } := by
  obtain ⟨hr, haw⟩ := h
  exact ⟨hr.unchanged ⟨fun _ => rfl, rfl, rfl, rfl, rfl, rfl⟩, haw.nodup, haw.known, haw.accept, haw.connecting, haw.created⟩

theorem handle_atRest {net : Net} (h : AtRest net) {e : Served} (he : e.event.Enabled net) :
    Post (· ≠ .assertion) (e.handle fuel net) fun st => AtRest st.net :=
  dispatch_atRest scripted_polite (h.answer e.answers) he

/-- **A server at rest serves**, and is at rest again. -/
theorem serves_atRest {net net' : Net} {e : Served} (h : AtRest net) (hserves : Serves net e net') : AtRest net' := by
  obtain ⟨he, fuel, st, hst, rfl⟩ := hserves
  exact (handle_atRest h he).result hst

/-- **The session registries agree, and each session is released once.** In every run
of events, whatever the socket calls answer and whatever the room sends and disconnects
meanwhile: a session is in `Service::_sessions` exactly when it is in `GSessionManager`,
and exactly when it is connected; `_sessionCount` is the number of sessions;
`OnDisconnected` has been called at most as often as `OnConnected`; and however far the
handling of the next event is followed, the assertion of `ReleaseSession` holds. -/
theorem registries_agree {acceptCount : ℕ} {events : List Served} {net : Net}
    (h : Runs Serves (Net.start acceptCount) events net) :
    (∀ s, (s ∈ net.sessions ↔ (net.session s).connected = true) ∧
      (s ∈ net.manager ↔ (net.session s).connected = true)) ∧
    net.sessionCount = net.sessions.card ∧
    (∀ s, net.onDisconnected s ≤ net.onConnected s) ∧
    ∀ (e : Served) (fuel : ℕ), e.event.Enabled net → e.handle fuel net ≠ .error .assertion := by
  have hrest : AtRest net := by
    exact Runs.invariant (start_atRest acceptCount) (fun _ _ _ => serves_atRest) h
  have hr := hrest.registered
  refine ⟨fun s => ⟨?_, hr.manager s⟩, hr.count, fun s => ?_, fun e fuel he herr => ?_⟩
  · rw [hr.sessions]
    exact ⟨fun hs => hs.resolve_right id, .inl⟩
  · rw [← hr.calls s]
    exact Nat.le_add_right _ _
  · exact (handle_atRest hrest he).fault herr rfl

/-- The first send of a session is reset by its peer, and the room sends to it and
disconnects it once more while it is in `OnDisconnected`. -/
theorem registries_agree_example : ∃ net,
    Runs Serves (Net.start 1)
      [{ event := .accept 0 true 0, answers := [.socketError 10054],
         reactions := [[.send 0 ⟨.removeObject [1], ⟨[], 0⟩⟩, .disconnect 0]] }] net ∧
    net.onDisconnected 0 = 1 ∧
    (∀ s, (s ∈ net.sessions ↔ (net.session s).connected = true) ∧
      (s ∈ net.manager ↔ (net.session s).connected = true)) ∧
    net.sessionCount = net.sessions.card ∧
    (∀ s, net.onDisconnected s ≤ net.onConnected s) ∧
    ∀ (e : Served) (fuel : ℕ), e.event.Enabled net → e.handle fuel net ≠ .error .assertion := by
  have hserves : Serves (Net.start 1)
      { event := .accept 0 true 0, answers := [.socketError 10054],
        reactions := [[.send 0 ⟨.removeObject [1], ⟨[], 0⟩⟩, .disconnect 0]] } _ :=
    ⟨Nat.zero_lt_one, 3, _, rfl, rfl⟩
  exact ⟨_, Runs.single hserves, rfl, registries_agree (Runs.single hserves)⟩

end ZeldaServer
