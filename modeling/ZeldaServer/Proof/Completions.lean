import ZeldaServer.Proof.Registry
import ZeldaServer.Spec.Completion

/-!
# Failed completions

`IocpCore::Dispatch` hands a failed completion to the same functions as a successful one,
and does not hand on the error. `ProcessAccept` asks the socket, `ProcessRecv` and
`ProcessSend` look at the number of bytes; `ProcessConnect` does not ask.

* `Placid`: what only the opening of a session, a packet and `OnSend` can change.
* `completions_truthful`: failed completions count as failures exactly when no `ConnectEx` fails.
-/

namespace ZeldaServer

open Lib

/-- A call that returns keeps `J`. -/
abbrev Retains {γ : Type} (J : Server γ → Prop) : (Server γ → Outcome (Server γ)) → Prop := Preserves (fun _ => True) J

/-! ## Sessions of any class -/

/-- The calls that an override makes next. -/
def respond (api : Api (Server (Diary Script))) (st : Server (Diary Script)) : Outcome (Server (Diary Script)) :=
  match st.game.user.reactions with
  | [] => .ok st
  | calls :: reactions =>
    calls.foldlM (fun st call =>
      match call with
      | .send s sendBuffer => api.send s sendBuffer st
      | .disconnect s => api.disconnect s st) { st with game := { st.game with user := { reactions := reactions } } }

/-- A class whose overrides make the next calls of its script. -/
def scriptedClass : Overrides Script where
  onConnected api _ := respond api
  onDisconnected api _ := respond api
  onRecvPacket api _ _ := respond api
  onSend api _ _ := respond api

/-- The state when `ProcessConnect` calls `OnConnected`. -/
def Server.opened {γ : Type} (s : SessionId) (st : Server (Diary γ)) : Server (Diary γ) :=
  let st := (st.modify s fun x => { x with connecting := false, connected := true }).note (.connected s)
  let st := Server.note (.addSession s) { st with net := Service.addSession s st.net }
  st.note (.onConnected s)

/-- Only the opening of a session, a packet and `OnSend` change whether `J` holds. -/
structure Placid (J : Server (Diary Script) → Prop) : Prop where
  modify : ∀ st s g, (∀ x, (g x).connected = true → x.connected = true) → J st → J (st.modify s g)
  service : ∀ st net, net.session = st.net.session → J st → J { st with net := net }
  user : ∀ st user, J st → J { st with game := { st.game with user := user } }
  onDisconnected : ∀ st s, J st → J (st.note (.onDisconnected s))

variable {J : Server (Diary Script) → Prop} {fuel : ℕ} {s : SessionId} {st : Server (Diary Script)}

theorem Placid.neutral (h : Placid J) : Neutral J := by
  refine ⟨fun st s g hg _ hst => h.modify st s g (fun x hx => ?_) hst, fun st hst => ?_⟩
  · rwa [hg x] at hx
  · rw [wsa_snd]
    exact h.service st _ rfl hst

theorem Placid.disconnect (h : Placid J) {onDisconnected : SessionId → Server (Diary Script) → Outcome (Server (Diary Script))}
    (ho : ∀ s, Retains J (onDisconnected s)) (s : SessionId) :
    Retains J (Session.disconnect (fun s st => onDisconnected s (st.note (.onDisconnected s))) s) := by
  intro st hst
  unfold Session.disconnect
  split
  · exact .ok hst
  have hdown : J (st.modify s fun x => { x with connected := false }) := h.modify st s _ nofun hst
  refine Post.bind (ho s _ (h.onDisconnected _ s hdown)) fun st₁ h₁ => ?_
  unfold Service.releaseSession
  split
  · exact .ok (h.service st₁ _ rfl h₁)
  · exact .error trivial

/-- `Send` and `Disconnect` keep `J`. -/
structure Api.Retains (J : Server (Diary Script) → Prop) (api : Api (Server (Diary Script))) : Prop where
  send : ∀ s p, ZeldaServer.Retains J (api.send s p)
  disconnect : ∀ s, ZeldaServer.Retains J (api.disconnect s)

theorem Placid.respond (h : Placid J) {api : Api (Server (Diary Script))} (hapi : api.Retains J) : Retains J (respond api) := by
  intro st hst
  unfold ZeldaServer.respond
  split
  · exact .ok hst
  · refine Post.foldlM _ ?_ (h.user st _ hst)
    intro st₁ call _ h₁
    cases call with
    | send s p => exact hapi.send s p st₁ h₁
    | disconnect s => exact hapi.disconnect s st₁ h₁

/-- **What is placid is kept** by `Send` and `Disconnect`, however deep they nest. -/
theorem Placid.api (h : Placid J) (n : ℕ) : (scriptedClass.api n).Retains J := by
  induction n with
  | zero => exact ⟨fun _ _ _ _ => .error trivial, fun _ _ _ => .error trivial⟩
  | succ n ih =>
    have hd : ∀ s, ZeldaServer.Retains J ((scriptedClass.api (n + 1)).disconnect s) :=
      h.disconnect fun _ => h.respond ih
    exact ⟨fun s p => Preserves.send h.neutral hd p, hd⟩

theorem Placid.registers (h : Placid J) : (scriptedClass.recvApi fuel s).Registers (fun _ => True) J where
  wsaRecv := h.neutral.wsa
  handleError := Preserves.handleError (h.api fuel).disconnect

/-! ## The completions -/

theorem Placid.processConnect (h : Placid J) (hst : J (st.opened s)) :
    IfReturns (scriptedClass.processConnect fuel s st) J := by
  unfold Overrides.processConnect
  refine Post.bind (h.respond (h.api fuel) _ hst) fun st₁ h₁ => ?_
  exact preserves_onRecvSide h.neutral (fun side hside => h.registers.registerRecv hside) st₁ h₁

/-- A receive of no bytes delivers nothing. -/
theorem Placid.processRecv_nil (h : Placid J) : Retains J (scriptedClass.processRecv fuel s []) := by
  have hd : ∀ st, J st → IfReturns ((scriptedClass.recvApi fuel s).disconnect st) J := (h.api fuel).disconnect s
  exact preserves_onRecvSide h.neutral fun _ hside => ZeldaServer.processRecv_nil hd hside

theorem Placid.processRecv (h : Placid J) (hpacket : ∀ buffer st, J st → J (st.note (.onRecvPacket s buffer)))
    (received : List UInt8) : Retains J (scriptedClass.processRecv fuel s received) := by
  have hkeeps : (scriptedClass.recvApi fuel s).Keeps (fun _ => True) J :=
    ⟨h.registers, (h.api fuel).disconnect s, fun buffer st hst => h.respond (h.api fuel) _ (hpacket buffer st hst)⟩
  exact preserves_onRecvSide h.neutral fun _ hside => hkeeps.processRecv trivial received hside

theorem Placid.processSend (h : Placid J) {numOfBytes : ℤ}
    (hsent : numOfBytes ≠ 0 → ∀ st, J st → J (st.note (.onSend s numOfBytes))) :
    Retains J (scriptedClass.processSend fuel s numOfBytes) := by
  intro st hst
  unfold Overrides.processSend
  have hclear : J (st.modify s fun x => { x with wire := x.wire.tail, side := x.side.clear }) := h.modify st s _ (fun _ hx => hx) hst
  dsimp only
  split
  · exact (h.api fuel).disconnect s _ hclear
  rename_i hne
  refine Post.bind (h.respond (h.api fuel) _ (hsent hne _ hclear)) fun st₁ h₁ => ?_
  have hnext := h.modify st₁ s (fun x => { x with side := (st₁.session s).side.recheck.2 }) (fun _ hx => hx) h₁
  split
  · exact Preserves.registerSend h.neutral (h.api fuel).disconnect _ hnext
  · exact .ok hnext

/-- `ProcessConnect` runs, of the session `s`. -/
def IocpEvent.Connects (s : SessionId) : IocpEvent → Prop
  | .connect t => t = s
  | .accept _ t accepted _ => t = s ∧ accepted = true
  | _ => False

/-- **The rule of a completion.** -/
theorem Placid.dispatch (h : Placid J) (iocpEvent : IocpEvent) (hst : J st)
    (hopen : ∀ s, iocpEvent.Connects s → J (st.opened s))
    (hpacket : ∀ s received, iocpEvent = .recv s received → received ≠ [] →
      ∀ buffer st, J st → J (st.note (.onRecvPacket s buffer)))
    (hsent : ∀ s numOfBytes, iocpEvent = .send s numOfBytes → numOfBytes ≠ 0 →
      ∀ st, J st → J (st.note (.onSend s numOfBytes))) :
    IfReturns (iocpEvent.dispatch scriptedClass fuel st) J := by
  cases iocpEvent with
  | connect s => exact h.processConnect (hopen s rfl)
  | disconnect s => exact .ok hst
  | accept i s accepted retries =>
    have hnext : ∀ st : Server (Diary Script), J st → J { st with net := Listener.registerAccept i retries st.net } := by
      intro st hst
      refine h.service st _ ?_ hst
      rw [registerAccept_net]
    unfold IocpEvent.dispatch
    cases accepted with
    | false => exact .ok (hnext st hst)
    | true => exact Post.bind (h.processConnect (hopen s ⟨rfl, rfl⟩)) fun st₁ h₁ => .ok (hnext st₁ h₁)
  | recv s received =>
    by_cases hnil : received = []
    · rw [hnil]
      exact h.processRecv_nil st hst
    · exact h.processRecv (hpacket s received rfl hnil) received st hst
  | send s numOfBytes => exact h.processSend (hsent s numOfBytes rfl) st hst

/-! ## What a step notes -/

/-- Every notice is allowed, and every connected session may be connected. -/
structure Noting (allowed : Notice → Prop) (up : SessionId → Prop) (st : Server (Diary Script)) : Prop where
  notices : ∀ n ∈ st.game.notices, allowed n
  connected : ∀ s, (st.session s).connected = true → up s

variable {allowed : Notice → Prop} {up : SessionId → Prop}

theorem Noting.note (h : Noting allowed up st) {n : Notice} (hn : allowed n) : Noting allowed up (st.note n) := by
  refine ⟨fun n' hn' => ?_, h.connected⟩
  rcases List.mem_append.1 hn' with hn' | hn'
  · exact h.notices n' hn'
  · rw [List.mem_singleton.1 hn']
    exact hn

/-- A change of one session that may be connected. -/
theorem Noting.modify (h : Noting allowed up st) {g : Session → Session} (hs : (g (st.session s)).connected = true → up s) :
    Noting allowed up (st.modify s g) := by
  refine ⟨h.notices, fun t ht => ?_⟩
  by_cases hts : t = s
  · have hself : (st.modify s g).session t = g (st.session s) := by
      rw [hts]
      exact modify_same s g
    rw [hself] at ht
    rw [hts]
    exact hs ht
  · have hother : (st.modify s g).session t = st.session t := modify_other g hts
    rw [hother] at ht
    exact h.connected t ht

theorem noting_placid (hallowed : ∀ s, allowed (.onDisconnected s)) : Placid (Noting allowed up) where
  modify st s g hg hst := hst.modify fun hs => hst.connected s (hg _ hs)
  service st net hnet hst := by
    refine ⟨hst.notices, fun t ht => hst.connected t ?_⟩
    rwa [show (Server.session { st with net := net } t) = st.session t from congrFun hnet t] at ht
  user _ _ hst := ⟨hst.notices, hst.connected⟩
  onDisconnected _ s hst := hst.note (hallowed s)

/-- The session that a notice opens. -/
def Notice.opens : Notice → Option SessionId
  | .connected s | .addSession s | .onConnected s => some s
  | .onDisconnected _ | .onRecvPacket _ _ | .onSend _ _ => none

theorem Noting.opened (h : Noting allowed up st) (hs : up s) (hallowed : ∀ n : Notice, n.opens = some s → allowed n) :
    Noting allowed up (st.opened s) := by
  have hup : Noting allowed up (st.modify s fun x => { x with connecting := false, connected := true }) := h.modify fun _ => hs
  have hconnected := hup.note (hallowed (.connected s) rfl)
  have hservice : ∀ st₁ : Server (Diary Script), Noting allowed up st₁ →
      Noting allowed up { st₁ with net := Service.addSession s st₁.net } := fun _ h₁ => ⟨h₁.notices, h₁.connected⟩
  exact ((hservice _ hconnected).note (hallowed (.addSession s) rfl)).note (hallowed (.onConnected s) rfl)

/-- A notice stays. -/
theorem noted_placid {n : Notice} : Placid fun st => n ∈ st.game.notices where
  modify _ _ _ _ hst := hst
  service _ _ _ hst := hst
  user _ _ hst := hst
  onDisconnected _ _ hst := List.mem_append_left _ hst

/-! ## Runs -/

/-- What happens next: `ConnectEx` is called on a new session, the rest of the program calls
`Send` and `Disconnect`, or a completion is dequeued. What the socket calls answer meanwhile,
and what the overrides do. -/
inductive Deed
  | start
  | calls (answers : List WsaResult) (reactions : List (List Call))
  | dequeue (status : Option ℤ) (iocpEvent : IocpEvent) (answers : List WsaResult) (reactions : List (List Call))
  deriving DecidableEq

namespace Deed

/-- A completion that failed. -/
def Fails : Deed → Prop
  | .dequeue (some errCode) _ _ _ => errCode ≠ WAIT_TIMEOUT
  | _ => False

/-- A `ConnectEx` that failed. -/
def FailsToConnect : Deed → Prop
  | .dequeue (some errCode) (.connect _) _ _ => errCode ≠ WAIT_TIMEOUT
  | _ => False

/-- A `ConnectEx` or an `AcceptEx` that succeeded, of the session `s`. -/
def Opens (s : SessionId) : Deed → Prop
  | .dequeue none (.connect t) _ _ => t = s
  | .dequeue none (.accept _ t _ _) _ _ => t = s
  | _ => False

/-- Only an operation that is under way completes, and a failed one has transferred nothing. -/
def Enabled (net : Net) : Deed → Prop
  | .dequeue status iocpEvent _ _ => status = some WAIT_TIMEOUT ∨ (iocpEvent.Enabled net ∧ (status ≠ none → iocpEvent.Void))
  | _ => True

/-- The state in which a step begins. -/
def begin (answers : List WsaResult) (reactions : List (List Call)) (net : Net) : Server (Diary Script) :=
  ⟨{ net with answers := answers }, { user := { reactions := reactions } }⟩

def run (fuel : ℕ) (net : Net) : Deed → Outcome (Server (Diary Script))
  | .start =>
    let (s, net) := Service.createSession net
    .ok ⟨net.modify s fun x => { x with connecting := true }, { user := {} }⟩
  | .calls answers reactions =>
    respond (scriptedClass.api fuel) (begin answers reactions net)
  | .dequeue status iocpEvent answers reactions => do
    let (_, st) ← IocpCore.dispatch scriptedClass fuel status iocpEvent (begin answers reactions net)
    .ok st

end Deed

/-- One step, and its notices. -/
def Proceeds (net : Net) (step : Deed × List Notice) (net' : Net) : Prop :=
  step.1.Enabled net ∧ ∃ fuel st, step.1.run fuel net = .ok st ∧ st.game.notices = step.2 ∧ st.net = net'

/-- The notice is the delivery of a packet, or of what was sent. -/
def Notice.Delivers : Notice → Prop
  | .onRecvPacket _ _ => True
  | .onSend _ _ => True
  | _ => False

/-- **No failed completion counts as a success**, in the steps that lead to `net`. -/
structure Truthful (steps : List (Deed × List Notice)) (net : Net) : Prop where
  flag : ∀ s, (net.session s).connected = true → ∃ step ∈ steps, step.1.Opens s
  opens : ∀ step ∈ steps, ∀ n ∈ step.2, ∀ s, n.opens = some s → step.1.Opens s
  silent : ∀ step ∈ steps, step.1.Fails → ∀ n ∈ step.2, ¬ n.Delivers

/-- What a step may note. -/
def Deed.Allows (d : Deed) (n : Notice) : Prop := (∀ s, n.opens = some s → d.Opens s) ∧ (d.Fails → ¬ n.Delivers)

theorem allows_onDisconnected {d : Deed} : d.Allows (.onDisconnected s) := ⟨nofun, fun _ => id⟩

section

variable {status : Option ℤ} {iocpEvent : IocpEvent} {answers : List WsaResult} {reactions : List (List Call)} {net : Net}

/-- A failed completion leads to the same functions as a successful one. -/
theorem run_dequeue (hst : status = some WAIT_TIMEOUT → J (Deed.begin answers reactions net))
    (h : status ≠ some WAIT_TIMEOUT → IfReturns (iocpEvent.dispatch scriptedClass fuel (Deed.begin answers reactions net)) J) :
    IfReturns ((Deed.dequeue status iocpEvent answers reactions).run fuel net) J := by
  have hdispatch : IfReturns (IocpCore.dispatch scriptedClass fuel status iocpEvent (Deed.begin answers reactions net))
      fun r => J r.2 := by
    unfold IocpCore.dispatch
    cases status with
    | none => exact Post.bind (h nofun) fun st hst => .ok hst
    | some errCode =>
      dsimp only
      split
      · rename_i htimeout
        exact .ok (hst (congrArg some htimeout))
      · rename_i herr
        exact Post.bind (h fun heq => herr (Option.some.inj heq)) fun st hst => .ok hst
  exact Post.bind hdispatch fun r hr => .ok hr

end

/-- The notices of an opening are allowed if the session may be opened, and the step does not fail. -/
theorem allows_opens {d : Deed} (hopens : d.Opens s) {n : Notice} (hn : n.opens = some s) : d.Allows n := by
  refine ⟨fun t ht => ?_, fun _ hdelivers => ?_⟩
  · rwa [← Option.some.inj (hn.symm.trans ht)]
  · unfold Notice.Delivers at hdelivers
    split at hdelivers
    · cases hn
    · cases hn
    · exact hdelivers

/-- A delivery is allowed if the step does not fail. -/
theorem allows_delivers {d : Deed} (hd : ¬ d.Fails) {n : Notice} (hn : n.Delivers) : d.Allows n := by
  refine ⟨fun t ht => ?_, fun hfails => absurd hfails hd⟩
  cases n with
  | connected s => cases hn
  | addSession s => cases hn
  | onConnected s => cases hn
  | onDisconnected s => cases hn
  | onRecvPacket s buffer => cases ht
  | onSend s len => cases ht

/-- The completion of a step that is no failed `ConnectEx`. -/
theorem dispatch_noting {d : Deed} {iocpEvent : IocpEvent} (hst : Noting d.Allows up st)
    (hopens : ∀ s, iocpEvent.Connects s → d.Opens s ∧ up s) (hfails : d.Fails → iocpEvent.Void) :
    IfReturns (iocpEvent.dispatch scriptedClass fuel st) (Noting d.Allows up) := by
  refine (noting_placid fun _ => allows_onDisconnected).dispatch iocpEvent hst ?_ ?_ ?_
  · intro s hs
    obtain ⟨hopen, hup⟩ := hopens s hs
    exact hst.opened hup fun n hn => allows_opens hopen hn
  · rintro s received rfl hne buffer st₁ h₁
    exact h₁.note (allows_delivers (fun hf => hne (hfails hf)) trivial)
  · rintro s numOfBytes rfl hne st₁ h₁
    exact h₁.note (allows_delivers (fun hf => hne (hfails hf)) trivial)

/-- **One step.** -/
theorem run_noting {net : Net} {d : Deed} (hd : ¬ d.FailsToConnect) (henabled : d.Enabled net) (fuel : ℕ) :
    IfReturns (d.run fuel net) (Noting d.Allows fun s => (net.session s).connected = true ∨ d.Opens s) := by
  have hplacid : Placid (Noting d.Allows fun s => (net.session s).connected = true ∨ d.Opens s) :=
    noting_placid fun _ => allows_onDisconnected
  have hstart : ∀ answers reactions, Noting d.Allows (fun s => (net.session s).connected = true ∨ d.Opens s)
      (Deed.begin answers reactions net) := fun _ _ => ⟨List.forall_mem_nil _, fun _ => .inl⟩
  cases d with
  | start =>
    have hcreated := hplacid.service _ (Service.createSession net).2 rfl (hstart net.answers [])
    exact .ok (hplacid.modify _ net.nextSession (fun x => { x with connecting := true }) (fun _ hx => hx) hcreated)
  | calls answers reactions => exact hplacid.respond (hplacid.api fuel) _ (hstart answers _)
  | dequeue status iocpEvent answers reactions =>
    refine run_dequeue (fun _ => hstart answers _) fun hstatus => ?_
    have hvoid : status ≠ none → iocpEvent.Void := (henabled.resolve_left hstatus).2
    refine dispatch_noting (hstart answers _) ?_ ?_
    · intro s hs
      have hopens : (Deed.dequeue status iocpEvent answers reactions).Opens s := by
        cases status with
        | none =>
          cases iocpEvent with
          | connect t => exact hs
          | accept i t accepted retries => exact hs.1
          | disconnect t => cases hs
          | recv t received => cases hs
          | send t numOfBytes => cases hs
        | some errCode =>
          -- a failed `ConnectEx` is excluded, and a failed accept passes no check
          cases iocpEvent with
          | connect t => exact absurd (fun heq => hstatus (congrArg some heq)) hd
          | accept i t accepted retries => exact absurd ((hvoid nofun).symm.trans hs.2) Bool.false_ne_true
          | disconnect t => cases hs
          | recv t received => cases hs
          | send t numOfBytes => cases hs
      exact ⟨hopens, .inr hopens⟩
    · intro hfails
      cases status with
      | none => cases hfails
      | some errCode => exact hvoid nofun

/-- After a failed `ConnectEx` the session is connected. -/
theorem run_failed {net : Net} {errCode : ℤ} {answers : List WsaResult} {reactions : List (List Call)}
    (herr : errCode ≠ WAIT_TIMEOUT) (fuel : ℕ) :
    IfReturns ((Deed.dequeue (some errCode) (.connect s) answers reactions).run fuel net) fun st =>
      .connected s ∈ st.game.notices := by
  have hnoted : Notice.connected s ∈ ((Deed.begin answers reactions net).opened s).game.notices := by
    unfold Server.opened Server.note
    simp
  exact run_dequeue (fun htimeout => absurd (Option.some.inj htimeout) herr) fun _ => noted_placid.processConnect hnoted

variable {net net' : Net} {step : Deed × List Notice} {steps : List (Deed × List Notice)}

/-- A step with the truth on its side keeps it. -/
theorem Truthful.snoc (h : Truthful steps net) (hstep : Proceeds net step net') (hd : ¬ step.1.FailsToConnect) :
    Truthful (steps ++ [step]) net' := by
  obtain ⟨henabled, fuel, st, hrun, hnotices, rfl⟩ := hstep
  obtain ⟨hallowed, hup⟩ := (run_noting hd henabled fuel).result hrun
  rw [hnotices] at hallowed
  refine ⟨fun s hs => ?_, fun step' hmem n hn s hopens => ?_, fun step' hmem hfails n hn => ?_⟩
  · rcases hup s hs with hbefore | hopens
    · obtain ⟨step', hmem, hopens⟩ := h.flag s hbefore
      exact ⟨step', List.mem_append_left _ hmem, hopens⟩
    · exact ⟨step, List.mem_append_right _ List.mem_cons_self, hopens⟩
  · rcases List.mem_append.1 hmem with hmem | hmem
    · exact h.opens step' hmem n hn s hopens
    · obtain rfl := List.mem_singleton.1 hmem
      exact (hallowed n hn).1 s hopens
  · rcases List.mem_append.1 hmem with hmem | hmem
    · exact h.silent step' hmem hfails n hn
    · obtain rfl := List.mem_singleton.1 hmem
      exact (hallowed n hn).2 hfails

/-- A step that opens a session without having succeeded. -/
theorem failed_untruthful (hstep : Proceeds net step net') (hd : step.1.FailsToConnect) :
    ∃ s, .connected s ∈ step.2 ∧ ¬ step.1.Opens s := by
  obtain ⟨d, notices⟩ := step
  obtain ⟨-, fuel, st, hrun, rfl, -⟩ := hstep
  -- the only steps that fail to connect
  obtain ⟨errCode, s, answers, reactions, rfl, herr⟩ : ∃ errCode s answers reactions,
      d = .dequeue (some errCode) (.connect s) answers reactions ∧ errCode ≠ WAIT_TIMEOUT := by
    cases d with
    | start => cases hd
    | calls answers reactions => cases hd
    | dequeue status iocpEvent answers reactions =>
      cases status with
      | none => cases hd
      | some errCode =>
        cases iocpEvent with
        | connect s => exact ⟨errCode, s, answers, reactions, rfl, hd⟩
        | disconnect s => cases hd
        | accept i s accepted retries => cases hd
        | recv s received => cases hd
        | send s numOfBytes => cases hd
  exact ⟨s, (run_failed herr fuel).result hrun, id⟩

/-- A run without a failed `ConnectEx`. -/
theorem truthful_run {acceptCount : ℕ} (h : Runs Proceeds (Net.start acceptCount) steps net)
    (hall : ∀ step ∈ steps, ¬ step.1.FailsToConnect) : Truthful steps net := by
  induction h with
  | nil => exact ⟨fun _ hs => absurd hs Bool.false_ne_true, List.forall_mem_nil _, List.forall_mem_nil _⟩
  | snoc _ hstep ih =>
    have hbefore := ih fun step hmem => hall step (List.mem_append_left _ hmem)
    exact hbefore.snoc hstep (hall _ (List.mem_append_right _ List.mem_cons_self))

/-- **Failed completions.** In every run of completions, whatever the socket calls answer,
whatever the overrides and the rest of the program send and disconnect meanwhile: no failed
completion counts as a success exactly when no `ConnectEx` fails. -/
theorem completions_truthful {acceptCount : ℕ} (h : Runs Proceeds (Net.start acceptCount) steps net) :
    Truthful steps net ↔ ∀ step ∈ steps, ¬ step.1.FailsToConnect := by
  refine ⟨fun htruthful step hmem hfails => ?_, truthful_run h⟩
  obtain ⟨before, after, hstep⟩ := h.step_of_mem hmem
  obtain ⟨s, hnoted, hno⟩ := failed_untruthful hstep hfails
  exact hno (htruthful.opens step hmem _ hnoted s rfl)

/-! ## A connection that is reset, and one that is refused -/

instance instDecidableIocpEvent (net : Net) (iocpEvent : IocpEvent) : Decidable (iocpEvent.Enabled net) :=
  match iocpEvent with
  | .connect s => inferInstanceAs (Decidable ((net.session s).connecting = true))
  | .disconnect _ => inferInstanceAs (Decidable True)
  | .accept i s _ _ => inferInstanceAs (Decidable (net.acceptEvents[i]? = some s))
  | .recv s received => decidable_of_iff ((net.session s).posted.any fun len => (received.length : ℤ) ≤ len) (by
      rw [Option.any_eq_true]
      simp [IocpEvent.Enabled])
  | .send s _ => inferInstanceAs (Decidable ((net.session s).wire ≠ []))

instance instDecidableDeed (net : Net) (d : Deed) : Decidable (d.Enabled net) :=
  match d with
  | .start | .calls _ _ => inferInstanceAs (Decidable True)
  | .dequeue status iocpEvent _ _ =>
    inferInstanceAs (Decidable (status = some WAIT_TIMEOUT ∨ (iocpEvent.Enabled net ∧ (status ≠ none → iocpEvent.Void))))

instance (d : Deed) : Decidable d.FailsToConnect :=
  match d with
  | .dequeue (some errCode) (.connect _) _ _ => inferInstanceAs (Decidable (errCode ≠ WAIT_TIMEOUT))
  | .dequeue (some _) (.disconnect _) _ _ | .dequeue (some _) (.accept _ _ _ _) _ _ | .dequeue (some _) (.recv _ _) _ _
  | .dequeue (some _) (.send _ _) _ _ | .dequeue none _ _ _ | .start | .calls _ _ => inferInstanceAs (Decidable False)

/-- One step with these notices, with fuel for a small program. -/
def proceed (net : Net) (step : Deed × List Notice) : Option Net :=
  if step.1.Enabled net then
    ((step.1.run 4 net).toOption.filter fun st => st.game.notices = step.2).map State.net
  else none

theorem proceed_proceeds {net net' : Net} {step : Deed × List Notice} (h : proceed net step = some net') : Proceeds net step net' := by
  unfold proceed at h
  split at h
  · rename_i henabled
    obtain ⟨st, hst, rfl⟩ := Option.map_eq_some_iff.1 h
    obtain ⟨hrun, hnotices⟩ := Option.filter_eq_some_iff.1 hst
    exact ⟨henabled, 4, st, toOption_eq_some.1 hrun, of_decide_eq_true hnotices, rfl⟩
  · cases h

theorem proceed_runs {α : Type} {acceptCount : ℕ} {f : Net → α} {a : α}
    (h : (steps.foldlM proceed (Net.start acceptCount)).map f = some a) :
    ∃ net, Runs Proceeds (Net.start acceptCount) steps net ∧ f net = a := by
  obtain ⟨net, hnet, hf⟩ := Option.map_eq_some_iff.1 h
  exact ⟨net, (Runs.ofFold proceed _ steps hnet).mono fun _ _ _ => proceed_proceeds, hf⟩

/-- The session `1` is connected, an accept fails, and then the receive of the session fails. -/
def resetSteps : List (Deed × List Notice) :=
  [(.start, []),
    (.dequeue none (.connect 1) [] [], [.connected 1, .addSession 1, .onConnected 1]),
    (.dequeue (some 64) (.accept 0 0 false 0) [] [], []),
    (.dequeue (some 64) (.recv 1 []) [] [], [.onDisconnected 1])]

theorem completions_truthful_example : ∃ net, Runs Proceeds (Net.start 1) resetSteps net ∧ Truthful resetSteps net := by
  have hrun : (resetSteps.foldlM proceed (Net.start 1)).map (fun net => (net.session 1).connected) = some false := by decide +kernel
  obtain ⟨net, hruns, -⟩ := proceed_runs hrun
  exact ⟨net, hruns, (completions_truthful hruns).2 (by decide)⟩

/-- The connection of the session `0` is refused, and its first receive fails too. -/
def refusedSteps : List (Deed × List Notice) :=
  [(.start, []),
    (.dequeue (some 1225) (.connect 0) [.socketError 10057] [], [.connected 0, .addSession 0, .onConnected 0])]

/-- The session is connected, and `AddSession` and `OnConnected` have been called. -/
theorem refused_connected : ∃ net, Runs Proceeds (Net.start 0) refusedSteps net ∧ (net.session 0).connected = true ∧
    0 ∈ net.sessions ∧ (net.session 0).posted = none ∧ ¬ Truthful refusedSteps net := by
  have hrun : (refusedSteps.foldlM proceed (Net.start 0)).map (fun net =>
      ((net.session 0).connected, decide (0 ∈ net.sessions), (net.session 0).posted)) = some (true, true, none) := by decide +kernel
  obtain ⟨net, hruns, hnet⟩ := proceed_runs hrun
  obtain ⟨hconnected, hnet⟩ := Prod.mk.inj hnet
  obtain ⟨hsession, hposted⟩ := Prod.mk.inj hnet
  refine ⟨net, hruns, hconnected, of_decide_eq_true hsession, hposted, fun htruthful => ?_⟩
  exact htruthful.opens _ (List.mem_cons_of_mem _ List.mem_cons_self) _ List.mem_cons_self 0 rfl

end ZeldaServer
