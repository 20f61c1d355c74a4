import ZeldaServer.Lib.Runs
import ZeldaServer.Spec.SendPipe
import Mathlib.Logic.Function.Basic

/-!
# The send flag is a token

`_sendResitered` is a token that is free, lost, with the send on the wire, or with one
call of one thread. `TokenStep` is the pipeline with the token in place of the flag,
the wire and the threads; `step_token` shows that every interleaving of the threads is
a run of it. What the pipeline guarantees is proved on `TokenStep`.
-/

namespace ZeldaServer

open Lib

variable {β : Type}

/-- The calls that hold the flag: all but `OnDisconnected`. -/
def Frame.carries : Frame → Bool
  | .onDisconnected => false
  | _ => true

/-- Who holds the flag. -/
inductive Token
  | free
  /-- the flag is set and nobody will clear it -/
  | lost
  | held (t : ThreadId) (f : Frame)
  | wire
  deriving DecidableEq, Repr

/-- The session as its token holder sees it. -/
structure TokenState (β : Type) where
  token : Token
  connected : Bool
  queue : List β
  batch : List β
  pushed : List β
  popped : List β
  accepted : List β
  disconnects : ℕ

/-- `Disconnect` up to `OnDisconnected`. -/
def TokenState.exchange (s : TokenState β) : TokenState β :=
  if s.connected then { s with connected := false, disconnects := s.disconnects + 1 } else s

/-- The steps of the pipeline, by what happens to the token. -/
inductive TokenStep (s : TokenState β) : PipeAct β → TokenState β → Prop
  | take {t b} : s.token = .free → TokenStep s (.send t b)
      { s with token := .held t .registerSend, queue := s.queue ++ [b], pushed := s.pushed ++ [b] }
  | queue {t b} : s.token ≠ .free → TokenStep s (.send t b)
      { s with queue := s.queue ++ [b], pushed := s.pushed ++ [b] }
  | isConnected {t} : s.token = .held t .registerSend → s.connected = true →
      TokenStep s (.isConnected t) { s with token := .held t .drain }
  | notConnected {t} : s.token = .held t .registerSend → s.connected = false →
      TokenStep s (.isConnected t) { s with token := .lost }
  | drain {t} : s.token = .held t .drain → TokenStep s (.drain t)
      { s with token := .held t .wsaSend, batch := s.queue, queue := [], popped := s.popped ++ s.queue }
  | accepted {t r} : s.token = .held t .wsaSend → WsaResult.failed r = none →
      TokenStep s (.wsaSend t r) { s with token := .wire, accepted := s.accepted ++ s.batch }
  | failed {t r code} : s.token = .held t .wsaSend → WsaResult.failed r = some code →
      TokenStep s (.wsaSend t r) { s with token := .held t (.handleError code) }
  | reset {t code} : s.token = .held t (.handleError code) → isReset code = true →
      TokenStep s (.handleError t) { s with token := .held t .release }.exchange
  | logged {t code} : s.token = .held t (.handleError code) → isReset code = false →
      TokenStep s (.handleError t) { s with token := .held t .release }
  | release {t} : s.token = .held t .release →
      TokenStep s (.release t) { s with token := .free, batch := [] }
  | returned {t} : TokenStep s (.returned t) s
  | completedZero {t i} : s.token = .wire →
      TokenStep s (.completed t i 0) { s with token := .lost, batch := [] }.exchange
  | completedEmpty {t i n} : s.token = .wire → n ≠ 0 → s.queue = [] →
      TokenStep s (.completed t i n) { s with token := .free, batch := [] }
  | completedMore {t i n} : s.token = .wire → n ≠ 0 → s.queue ≠ [] →
      TokenStep s (.completed t i n) { s with token := .held t .registerSend, batch := [] }
  | connect : TokenStep s .connect { s with connected := true }
  | disconnect {t} : TokenStep s (.disconnect t) s.exchange

/-- The session `w` with its token. -/
def Pipe.view (w : Pipe β) (token : Token) : TokenState β where
  token := token
  connected := w.connected
  queue := w.side.sendQueue
  batch := w.side.sendBuffers
  pushed := w.pushed
  popped := w.popped
  accepted := w.accepted
  disconnects := w.disconnects

/-- The calls of thread `t` that hold the flag. -/
def Token.calls : Token → ThreadId → List Frame
  | .held t f, t' => if t' = t then [f] else []
  | _, _ => []

/-- `token` is where the flag of `w` is. -/
structure At (w : Pipe β) (token : Token) : Prop where
  calls : ∀ t, (w.stack t).filter Frame.carries = token.calls t
  flag : w.side.sendResitered = false ↔ token = .free
  wire : w.wire = if token = .wire then [w.side.sendBuffers] else []

theorem at_init : At ({} : Pipe β) .free := by
  constructor <;> simp [Token.calls]

variable {w w' : Pipe β} {token : Token} {t : ThreadId} {f : Frame} {fs : List Frame}

@[simp] theorem setStack_same : (w.setStack t fs).stack t = fs := by simp [Pipe.setStack]

@[simp] theorem setStack_side : (w.setStack t fs).side = w.side := rfl

@[simp] theorem setStack_wire : (w.setStack t fs).wire = w.wire := rfl

@[simp] theorem setStack_view : (w.setStack t fs).view token = w.view token := rfl

theorem setStack_other {t' : ThreadId} (h : t' ≠ t) : (w.setStack t fs).stack t' = w.stack t' := by
  simp [Pipe.setStack, h]

/-- A call that holds the flag is the only one, and nothing is on the wire. -/
theorem At.top (h : At w token) (hst : w.stack t = f :: fs) (hf : f.carries = true) :
    token = .held t f ∧ fs.filter Frame.carries = [] ∧ w.side.sendResitered = true ∧ w.wire = [] := by
  have hc := h.calls t
  rw [hst, List.filter_cons_of_pos hf] at hc
  cases token with
  | held t' f' =>
    simp only [Token.calls] at hc
    split at hc
    · rename_i ht
      injection hc with h1 h2
      exact ⟨by rw [h1, ht], h2, by simpa using h.flag, by simpa using h.wire⟩
    · cases hc
  | _ => simp [Token.calls] at hc

/-- A completion of a send: it is the only one on the wire, and nobody else holds the flag. -/
theorem At.wired (h : At w token) {i : ℕ} {bs : List β} (hbs : w.wire[i]? = some bs) :
    token = .wire ∧ w.side.sendResitered = true ∧ w.wire.eraseIdx i = [] := by
  have htok : token = .wire := by
    by_contra hne
    rw [h.wire, if_neg hne] at hbs
    simp at hbs
  subst htok
  have h0 : i = 0 := by
    rw [h.wire, if_pos rfl, List.getElem?_singleton] at hbs
    by_contra hne
    simp [hne] at hbs
  refine ⟨rfl, by simpa using h.flag, ?_⟩
  rw [h.wire, h0]
  rfl

theorem calls_held_other {t' : ThreadId} (h : t' ≠ t) : (Token.held t f).calls t' = [] :=
  if_neg h

/-- A call on top that holds the flag is the only one. -/
theorem filter_next (hfs : fs.filter Frame.carries = []) (hf : f.carries = true) :
    (f :: fs).filter Frame.carries = (Token.held t f).calls t := by
  rw [List.filter_cons_of_pos hf, hfs]
  exact (if_pos rfl).symm

section

variable {w₁ : Pipe β} {token' : Token} (h : At w token) (hstack : w₁.stack = w.stack)
  (hflag : w₁.side.sendResitered = false ↔ token' = .free)
  (hwire : w₁.wire = if token' = .wire then [w₁.side.sendBuffers] else [])
include h hstack hflag hwire

/-- Thread `t` goes on with the calls `fs`. -/
theorem At.setStack (hothers : ∀ t' ≠ t, token'.calls t' = token.calls t')
    (ht : fs.filter Frame.carries = token'.calls t) : At (w₁.setStack t fs) token' := by
  refine ⟨fun t' => ?_, hflag, hwire⟩
  by_cases htt : t' = t
  · rw [htt, setStack_same, ht]
  · rw [setStack_other htt, hstack, h.calls, hothers t' htt]

/-- `Disconnect` adds a call that does not hold the flag. -/
theorem At.exchange (hothers : ∀ t' ≠ t, token'.calls t' = token.calls t')
    (ht : fs.filter Frame.carries = token'.calls t) : At (w₁.exchange t fs) token' := by
  unfold Pipe.exchange
  split
  · have hcalls : (Frame.onDisconnected :: fs).filter Frame.carries = token'.calls t := by
      rw [List.filter_cons_of_neg (by decide), ht]
    refine h.setStack ?_ ?_ ?_ hothers hcalls
    · exact hstack
    · exact hflag
    · exact hwire
  · exact h.setStack hstack hflag hwire hothers ht

end

section

variable {w₁ : Pipe β} {token' : Token} {f' : Frame} (h : At w (.held t f)) (hfs : fs.filter Frame.carries = [])
  (hstack : w₁.stack = w.stack)
include h hfs hstack

/-- The call that holds the flag goes on as `f'`. -/
theorem At.next (hf : f'.carries = true) (hflag : w₁.side.sendResitered = true) (hwire : w₁.wire = []) :
    At (w₁.setStack t (f' :: fs)) (.held t f') := by
  refine h.setStack hstack (by simp [hflag]) (by simp [hwire]) (fun t' ht => ?_) (filter_next hfs hf)
  rw [calls_held_other ht, calls_held_other ht]

/-- It returns, and does not hold the flag any more. -/
theorem At.gives (hgone : ∀ t', token'.calls t' = []) (hflag : w₁.side.sendResitered = false ↔ token' = .free)
    (hwire : w₁.wire = if token' = .wire then [w₁.side.sendBuffers] else []) : At (w₁.setStack t fs) token' := by
  refine h.setStack hstack hflag hwire (fun t' ht => ?_) ?_
  · rw [hgone, calls_held_other ht]
  · rw [hfs, hgone]

end

@[simp] theorem exchange_side : (w.exchange t fs).side = w.side := by
  unfold Pipe.exchange; split <;> rfl

@[simp] theorem exchange_wire : (w.exchange t fs).wire = w.wire := by
  unfold Pipe.exchange; split <;> rfl

theorem exchange_view : (w.exchange t fs).view token = (w.view token).exchange := by
  unfold Pipe.exchange TokenState.exchange
  by_cases hc : w.connected = true
  · rw [if_pos hc, if_pos (show (w.view token).connected = true from hc)]
    rfl
  · rw [if_neg hc, if_neg (show ¬ (w.view token).connected = true from hc)]
    rfl

/-! ## The refinement -/

/-- **Every atomic step moves the token as `TokenStep` says.** -/
theorem step_token {a : PipeAct β} (h : At w token) (hs : w.step a = some w') :
    ∃ token', At w' token' ∧ TokenStep (w.view token) a (w'.view token') := by
  cases a with
  | send t b =>
    simp only [Pipe.step] at hs
    split at hs
    swap; · cases hs
    cases hr : w.side.sendResitered with
    | false =>
      -- the flag was free: this call takes it
      have htok := h.flag.1 hr
      subst htok
      simp only [SendSide.push, hr, Bool.not_false, if_true, Option.some.injEq] at hs
      subst hs
      refine ⟨.held t .registerSend, ?_, .take rfl⟩
      refine h.setStack rfl (by simp) (by simpa using h.wire) (fun t' ht => calls_held_other ht) ?_
      exact filter_next (h.calls t) rfl
    | true =>
      have htok : token ≠ .free := fun hf => by simp [h.flag.2 hf] at hr
      simp only [SendSide.push, hr, Bool.not_true, Bool.false_eq_true, if_false,
        Option.some.injEq] at hs
      subst hs
      exact ⟨token, ⟨h.calls, by simp [htok], h.wire⟩, .queue htok⟩
  | isConnected t =>
    simp only [Pipe.step] at hs
    split at hs
    swap; · cases hs
    rename_i fs hst
    obtain ⟨rfl, hfs, hflag, hwire⟩ := h.top hst rfl
    simp only [Option.some.injEq] at hs
    subst hs
    cases hc : w.connected with
    | true => exact ⟨.held t .drain, h.next hfs rfl rfl hflag hwire, .isConnected rfl hc⟩
    | false => exact ⟨.lost, h.gives hfs rfl (fun _ => rfl) (by simp [hflag]) hwire, .notConnected rfl hc⟩
  | drain t =>
    simp only [Pipe.step] at hs
    split at hs
    swap; · cases hs
    rename_i fs hst
    obtain ⟨rfl, hfs, hflag, hwire⟩ := h.top hst rfl
    simp only [Option.some.injEq] at hs
    subst hs
    exact ⟨.held t .wsaSend, h.next hfs rfl rfl hflag hwire, .drain rfl⟩
  | wsaSend t r =>
    simp only [Pipe.step] at hs
    split at hs
    swap; · cases hs
    rename_i fs hst
    obtain ⟨rfl, hfs, hflag, hwire⟩ := h.top hst rfl
    split at hs
    · rename_i hr
      simp only [Option.some.injEq] at hs
      subst hs
      exact ⟨.wire, h.gives hfs rfl (fun _ => rfl) (by simp [hflag]) (by simp [hwire]), .accepted rfl hr⟩
    · rename_i code hr
      simp only [Option.some.injEq] at hs
      subst hs
      exact ⟨.held t (.handleError code), h.next hfs rfl rfl hflag hwire, .failed rfl hr⟩
  | handleError t =>
    simp only [Pipe.step] at hs
    split at hs
    swap; · cases hs
    rename_i code fs hst
    obtain ⟨rfl, hfs, hflag, hwire⟩ := h.top hst rfl
    simp only [Option.some.injEq] at hs
    subst hs
    cases hc : isReset code with
    | true =>
      refine ⟨.held t .release, ?_, ?_⟩
      · refine h.exchange rfl (by simp [hflag]) (by simp [hwire]) (fun t' ht => ?_) (filter_next hfs rfl)
        rw [calls_held_other ht, calls_held_other ht]
      · rw [if_pos rfl, exchange_view]
        exact .reset rfl hc
    | false => exact ⟨.held t .release, h.next hfs rfl rfl hflag hwire, .logged rfl hc⟩
  | release t =>
    simp only [Pipe.step] at hs
    split at hs
    swap; · cases hs
    rename_i fs hst
    obtain ⟨rfl, hfs, -, hwire⟩ := h.top hst rfl
    simp only [Option.some.injEq] at hs
    subst hs
    exact ⟨.free, h.gives hfs rfl (fun _ => rfl) (by simp [SendSide.release]) hwire, .release rfl⟩
  | returned t =>
    simp only [Pipe.step] at hs
    split at hs
    swap; · cases hs
    rename_i fs hst
    simp only [Option.some.injEq] at hs
    subst hs
    refine ⟨token, h.setStack rfl h.flag h.wire (fun _ _ => rfl) ?_, .returned⟩
    rw [← h.calls, hst, List.filter_cons_of_neg (by decide)]
  | completed t i n =>
    simp only [Pipe.step] at hs
    split at hs
    swap; · cases hs
    rename_i bs hst hbs
    obtain ⟨rfl, hflag, hwire⟩ := h.wired hbs
    split at hs
    · rename_i hn
      simp only [Option.some.injEq] at hs
      subst hs hn
      refine ⟨.lost, h.exchange rfl (by simp [SendSide.clear, hflag]) hwire (fun _ _ => rfl) rfl, ?_⟩
      rw [exchange_view]
      exact .completedZero rfl
    · rename_i hn
      cases hq : w.side.sendQueue with
      | nil =>
        simp only [SendSide.clear, SendSide.recheck, hq, List.isEmpty_nil, if_true,
          Bool.false_eq_true, if_false, Option.some.injEq] at hs
        subst hs
        refine ⟨.free, ⟨h.calls, by simp, by simp [hwire]⟩, ?_⟩
        have hstep := TokenStep.completedEmpty (s := w.view .wire) (t := t) (i := i) rfl hn hq
        simpa [Pipe.view, hq] using hstep
      | cons b bs =>
        -- `ProcessSend` keeps the flag and goes on to `RegisterSend`
        simp only [SendSide.clear, SendSide.recheck, hq, List.isEmpty_cons, Bool.false_eq_true,
          if_false, if_true, Option.some.injEq] at hs
        subst hs
        refine ⟨.held t .registerSend, ?_, ?_⟩
        · exact h.setStack rfl (by simp [hflag]) (by simp [hwire]) (fun t' ht => calls_held_other ht) (filter_next rfl rfl)
        · have hstep := TokenStep.completedMore (s := w.view .wire) (t := t) (i := i) rfl hn
            (by simp [Pipe.view, hq])
          simpa [Pipe.view, Pipe.setStack, hq] using hstep
  | connect =>
    simp only [Pipe.step, Option.some.injEq] at hs
    subst hs
    exact ⟨token, ⟨h.calls, h.flag, h.wire⟩, .connect⟩
  | disconnect t =>
    simp only [Pipe.step] at hs
    split at hs
    swap; · cases hs
    simp only [Option.some.injEq] at hs
    subst hs
    refine ⟨token, h.exchange rfl h.flag h.wire (fun _ _ => rfl) (h.calls t), ?_⟩
    rw [exchange_view]
    exact .disconnect

end ZeldaServer
