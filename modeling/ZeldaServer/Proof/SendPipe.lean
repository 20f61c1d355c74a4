import ZeldaServer.Proof.SendToken

/-!
# What the send pipeline guarantees

* `sendPipe_fifo`: in every interleaving at most one `WSASend` is under way, on the
  buffers it was given, and the accepted buffers are a subsequence of the pushed ones.
* `sendPipe_live`: while the error paths of `RegisterSend` do not lose the flag, no
  buffer is stranded in the queue and none is dropped while the session is connected.
* `sendPipe_loses`: two runs in which they do.
-/

namespace ZeldaServer

open Lib

variable {β : Type}

/-- One step of one thread. -/
def Pipe.Step (w : Pipe β) (a : PipeAct β) (w' : Pipe β) : Prop := w.step a = some w'

/-- The run of the pipeline is a run of its token. -/
theorem runs_at {acts : List (PipeAct β)} {w : Pipe β} (h : Runs Pipe.Step {} acts w) :
    ∃ token, At w token := by
  refine Runs.invariant (P := fun w => ∃ token, At w token) ⟨.free, at_init⟩ ?_ h
  rintro w a w' ⟨token, hat⟩ hstep
  obtain ⟨token', hat', -⟩ := step_token hat hstep
  exact ⟨token', hat'⟩

/-! ## First in, first out -/

/-- The batch that the next `WSASend` is given. -/
def TokenState.next (s : TokenState β) : List β :=
  match s.token with
  | .held _ .wsaSend => s.batch
  | _ => []

/-- The accepted buffers, the batch and the queue are what is left of the pushes. -/
def TokenState.Fifo (s : TokenState β) : Prop :=
  ((s.accepted ++ s.next) ++ s.queue).Sublist s.pushed

theorem TokenState.Fifo.exchange_fifo {s : TokenState β} (h : s.Fifo) : s.exchange.Fifo := by
  unfold TokenState.exchange
  split <;> exact h

/-- A step that drops the batch, and a push, keep the order. -/
theorem TokenStep.fifo {s s' : TokenState β} {a : PipeAct β} (h : s.Fifo) (hs : TokenStep s a s') :
    s'.Fifo := by
  have hpush (b : β) : ((s.accepted ++ s.next) ++ (s.queue ++ [b])).Sublist (s.pushed ++ [b]) := by
    rw [← List.append_assoc]
    exact h.append (List.Sublist.refl [b])
  have hdrop : (s.accepted ++ s.queue).Sublist s.pushed :=
    ((List.sublist_append_left _ _).append (List.Sublist.refl _)).trans h
  cases hs with
  | take htok => simpa [TokenState.Fifo, TokenState.next, htok] using hpush _
  | queue => exact hpush _
  | drain htok => simpa [TokenState.Fifo, TokenState.next] using hdrop
  | accepted htok => simpa [TokenState.Fifo, TokenState.next, htok] using h
  | reset htok => exact TokenState.Fifo.exchange_fifo (by simpa [TokenState.Fifo, TokenState.next] using hdrop)
  | completedZero htok => exact TokenState.Fifo.exchange_fifo (by simpa [TokenState.Fifo, TokenState.next] using hdrop)
  | connect => exact h
  | disconnect => exact h.exchange_fifo
  | returned => exact h
  | isConnected | notConnected | failed | logged | release | completedEmpty | completedMore =>
    simpa [TokenState.Fifo, TokenState.next] using hdrop

/-- **The send pipeline is first in, first out.** In every interleaving of `Send`,
`RegisterSend`, `ProcessSend`, connects and disconnects: at most one `WSASend` is under
way; its buffers are still those of `_sendEvent`; and the buffers that `WSASend` has
accepted are, in order and without repetition, among those that `Send` has pushed. -/
theorem sendPipe_fifo {acts : List (PipeAct β)} {w : Pipe β} (h : Runs Pipe.Step {} acts w) :
    w.wire.length ≤ 1 ∧ (∀ bs ∈ w.wire, bs = w.side.sendBuffers) ∧
      w.accepted.Sublist w.pushed := by
  have hinv : ∃ token, At w token ∧ (w.view token).Fifo := by
    refine Runs.invariant (P := fun w => ∃ token, At w token ∧ (w.view token).Fifo) ?_ ?_ h
    · exact ⟨.free, at_init, List.Sublist.refl []⟩
    · rintro w a w' ⟨token, hat, hfifo⟩ hstep
      obtain ⟨token', hat', hs⟩ := step_token hat hstep
      exact ⟨token', hat', hs.fifo hfifo⟩
  obtain ⟨token, hat, hfifo⟩ := hinv
  refine ⟨?_, ?_, ?_⟩
  · rw [hat.wire]
    split <;> simp
  · intro bs hbs
    rw [hat.wire] at hbs
    split at hbs
    · simpa using hbs
    · simp at hbs
  · exact ((List.sublist_append_left _ _).trans (List.sublist_append_left _ _)).trans hfifo

/-- Two threads send at once; the first one's `WSASend` is under way. -/
theorem sendPipe_fifo_example : ∃ w : Pipe ℕ,
    Runs Pipe.Step {} [.connect, .send 0 7, .isConnected 0, .send 1 8, .drain 0, .send 1 9,
      .wsaSend 0 .success] w ∧ w.wire = [[7, 8]] ∧
    w.wire.length ≤ 1 ∧ (∀ bs ∈ w.wire, bs = w.side.sendBuffers) ∧ w.accepted.Sublist w.pushed := by
  have hrun := Runs.ofFold Pipe.step ({} : Pipe ℕ)
    [.connect, .send 0 7, .isConnected 0, .send 1 8, .drain 0, .send 1 9, .wsaSend 0 .success] rfl
  exact ⟨_, hrun, rfl, sendPipe_fifo hrun⟩

/-! ## Nothing stranded, nothing lost -/

/-- The calls between the drain of `RegisterSend` and its end. -/
def Frame.hasBatch : Frame → Bool
  | .wsaSend | .handleError _ | .release => true
  | _ => false

theorem Frame.hasBatch_carries {f : Frame} (hf : f.hasBatch = true) : f.carries = true := by
  cases f <;> first | rfl | cases hf

namespace Pipe

/-- Some call is on its way to `WSASend`: from the locked section of `Send` or
`ProcessSend` to the end of the `RegisterSend` that follows it. -/
def Busy (w : Pipe β) : Prop := ∃ t, ∃ f ∈ w.stack t, f.carries = true

/-- No buffer is stranded in the queue. -/
def Live (w : Pipe β) : Prop :=
  w.connected = true → w.side.sendQueue ≠ [] → ¬ w.Busy → w.wire ≠ []

/-- While the session has stayed connected, what was popped from the queue was accepted,
or is the batch of a `RegisterSend` in progress. -/
def NothingLost (w : Pipe β) : Prop :=
  w.connected = true → w.disconnects = 0 → w.popped = w.accepted ∨
    (∃ t, ∃ f ∈ w.stack t, f.hasBatch = true) ∧ w.popped = w.accepted ++ w.side.sendBuffers

/-- The two paths of `RegisterSend` that give up do no harm here: a session connects
with nothing queued, or with a send under way; and a failed `WSASend` is cleaned up on a
session that is no longer connected (or that has been reconnected with an empty queue). -/
def Harmless (w : Pipe β) : PipeAct β → Prop
  | .connect => (w.side.sendResitered = false ∧ w.side.sendQueue = []) ∨ w.wire ≠ [] ∨ w.Busy
  | .release _ => w.connected = true → w.side.sendQueue = [] ∧ 0 < w.disconnects
  | _ => True

end Pipe

namespace TokenState

/-- The batch, while a `RegisterSend` has one. -/
def pending (s : TokenState β) : List β :=
  match s.token with
  | .held _ f => if f.hasBatch then s.batch else []
  | _ => []

/-- What holds in every run: nobody drains an empty queue, only sessions that were
connected are sent on, and a buffer is accepted after it has been popped. -/
structure Sane (s : TokenState β) : Prop where
  queue : ∀ t f, s.token = .held t f → f.hasBatch = false → s.queue ≠ []
  batch : ∀ t f, s.token = .held t f → f.hasBatch = true → s.batch ≠ []
  tested : ∀ t f, s.token = .held t f → f ≠ .registerSend → s.connected = true ∨ 0 < s.disconnects
  popped : s.accepted.length + s.pending.length ≤ s.popped.length

/-- What holds in the runs whose steps are all harmless. -/
structure Kept (s : TokenState β) : Prop where
  lost : s.token = .lost → s.connected = false
  free : s.token = .free → s.connected = true → s.queue = []
  popped : s.disconnects = 0 → s.popped = s.accepted ++ s.pending

/-- `Pipe.Harmless` for the token. -/
def Harmless (s : TokenState β) : PipeAct β → Prop
  | .connect => s.token ≠ .lost ∧ (s.token = .free → s.queue = [])
  | .release _ => s.connected = true → s.queue = [] ∧ 0 < s.disconnects
  | _ => True

end TokenState

/-- A disconnect leaves everything but the connection as it is. -/
theorem TokenState.Sane.exchange {s : TokenState β} (h : s.Sane) : s.exchange.Sane := by
  unfold TokenState.exchange
  split
  · exact ⟨h.queue, h.batch, fun _ _ _ _ => .inr (Nat.succ_pos _), h.popped⟩
  · exact h

theorem TokenState.Kept.exchange {s : TokenState β} (h : s.Kept) : s.exchange.Kept := by
  unfold TokenState.exchange
  split
  · exact ⟨fun _ => rfl, fun _ hc => (Bool.false_ne_true hc).elim, fun hd => by simp at hd⟩
  · exact h

/-- A `RegisterSend` that has a batch goes on with it. -/
theorem TokenState.Sane.goOn {s : TokenState β} (h : s.Sane) {t : ThreadId} {f f' : Frame} (htok : s.token = .held t f)
    (hf : f.hasBatch = true) (hf' : f'.hasBatch = true) : TokenState.Sane { s with token := .held t f' } := by
  refine ⟨?_, ?_, ?_, ?_⟩
  · rintro t f ⟨⟩ hnone
    rw [hf'] at hnone
    cases hnone
  · rintro t f ⟨⟩ -
    exact h.batch _ _ htok hf
  · rintro t' g ⟨⟩ -
    refine h.tested _ _ htok ?_
    rintro rfl
    cases hf
  · simpa [TokenState.pending, htok, hf, hf'] using h.popped

theorem TokenStep.sane {s s' : TokenState β} {a : PipeAct β} (h : s.Sane) (hs : TokenStep s a s') :
    s'.Sane := by
  have hle : s.accepted.length ≤ s.popped.length := Nat.le_trans (Nat.le_add_right _ _) h.popped
  cases hs with
  | take htok =>
    refine ⟨fun t f ht hf => by simp, ?_, ?_, hle⟩
    · rintro t f ⟨⟩ hf
      cases hf
    · rintro t f ⟨⟩ hf
      exact (hf rfl).elim
  | queue => exact ⟨fun t f ht hf => by simp, h.batch, h.tested, h.popped⟩
  | isConnected htok hc =>
    refine ⟨?_, ?_, fun _ _ _ _ => .inl hc, hle⟩
    · rintro t f ⟨⟩ -
      exact h.queue _ _ htok rfl
    · rintro t f ⟨⟩ hf
      cases hf
  | drain htok =>
    refine ⟨?_, ?_, ?_, ?_⟩
    · rintro t f ⟨⟩ hf
      cases hf
    · rintro t f ⟨⟩ -
      exact h.queue _ _ htok rfl
    · rintro t f ⟨⟩ -
      exact h.tested _ _ htok (by simp)
    · simpa [TokenState.pending, Frame.hasBatch] using hle
  | accepted htok =>
    refine ⟨nofun, nofun, nofun, ?_⟩
    simpa [TokenState.pending, htok, Frame.hasBatch] using h.popped
  | failed htok => exact h.goOn htok rfl rfl
  | reset htok => exact (h.goOn htok rfl rfl).exchange
  | logged htok => exact h.goOn htok rfl rfl
  | notConnected | release | completedEmpty => exact ⟨nofun, nofun, nofun, hle⟩
  | completedZero => exact TokenState.Sane.exchange ⟨nofun, nofun, nofun, hle⟩
  | completedMore htok hn hq =>
    refine ⟨fun _ _ _ _ => hq, ?_, ?_, hle⟩
    · rintro t f ⟨⟩ hf
      cases hf
    · rintro t f ⟨⟩ hf
      exact (hf rfl).elim
  | connect => exact ⟨h.queue, h.batch, fun _ _ _ _ => .inl rfl, h.popped⟩
  | disconnect => exact h.exchange
  | returned => exact h

/-- **A harmless step keeps the buffers.** -/
theorem TokenStep.kept {s s' : TokenState β} {a : PipeAct β} (hsane : s.Sane) (h : s.Kept)
    (ha : s.Harmless a) (hs : TokenStep s a s') : s'.Kept := by
  cases hs with
  | take htok => exact ⟨nofun, nofun, by simpa [TokenState.pending, htok, Frame.hasBatch] using h.popped⟩
  | queue htok => exact ⟨h.lost, fun hf => (htok hf).elim, h.popped⟩
  | isConnected htok =>
    exact ⟨nofun, nofun, by simpa [TokenState.pending, htok, Frame.hasBatch] using h.popped⟩
  | notConnected htok hc =>
    exact ⟨fun _ => hc, nofun, by simpa [TokenState.pending, htok, Frame.hasBatch] using h.popped⟩
  | drain htok =>
    refine ⟨nofun, nofun, fun hd => ?_⟩
    have hpop : s.popped = s.accepted := by simpa [TokenState.pending, htok, Frame.hasBatch] using h.popped hd
    simp [TokenState.pending, Frame.hasBatch, hpop]
  | accepted htok =>
    exact ⟨nofun, nofun, by simpa [TokenState.pending, htok, Frame.hasBatch] using h.popped⟩
  | failed htok => exact ⟨nofun, nofun, by simpa [TokenState.pending, htok, Frame.hasBatch] using h.popped⟩
  | reset htok =>
    exact TokenState.Kept.exchange
      ⟨nofun, nofun, by simpa [TokenState.pending, htok, Frame.hasBatch] using h.popped⟩
  | logged htok => exact ⟨nofun, nofun, by simpa [TokenState.pending, htok, Frame.hasBatch] using h.popped⟩
  | release htok =>
    refine ⟨nofun, fun _ hc => (ha hc).1, fun hd => ?_⟩
    -- a session that was sent on and has never been disconnected is connected
    have hc : s.connected = true := (hsane.tested _ _ htok (by simp)).resolve_right (by simpa using hd)
    exact absurd hd (Nat.ne_of_gt (ha hc).2)
  | completedZero htok =>
    unfold TokenState.exchange
    split
    · exact ⟨fun _ => rfl, nofun, fun hd => by simp at hd⟩
    · rename_i hc
      exact ⟨fun _ => by simpa using hc, nofun, by simpa [TokenState.pending, htok] using h.popped⟩
  | completedEmpty htok hn hq =>
    exact ⟨nofun, fun _ _ => hq, by simpa [TokenState.pending, htok] using h.popped⟩
  | completedMore htok =>
    exact ⟨nofun, nofun, by simpa [TokenState.pending, htok, Frame.hasBatch] using h.popped⟩
  | connect => exact ⟨fun hl => (ha.1 hl).elim, fun hf _ => ha.2 hf, h.popped⟩
  | disconnect => exact h.exchange
  | returned => exact h

variable {w w' : Pipe β} {token : Token} {a : PipeAct β}

/-- The calls of the token are calls of the threads. -/
theorem At.mem (h : At w token) {t : ThreadId} {f : Frame} (htok : token = .held t f) :
    f ∈ w.stack t ∧ f.carries = true := by
  have hf : f ∈ (w.stack t).filter Frame.carries := by
    rw [h.calls, htok]
    simp [Token.calls]
  simpa using hf

theorem At.busy (h : At w token) : w.Busy ↔ ∃ t f, token = .held t f := by
  constructor
  · rintro ⟨t, f, hmem, hf⟩
    have hcalls : f ∈ token.calls t := by
      rw [← h.calls]
      exact List.mem_filter.2 ⟨hmem, hf⟩
    cases token with
    | held t' f' => exact ⟨t', f', rfl⟩
    | _ => cases hcalls
  · rintro ⟨t, f, htok⟩
    exact ⟨t, f, h.mem htok⟩

theorem At.harmless (h : At w token) : w.Harmless a ↔ (w.view token).Harmless a := by
  cases a with
  | connect =>
    have hflag := h.flag
    have hwire := h.wire
    have hbusy := h.busy
    simp only [Pipe.Harmless, TokenState.Harmless, Pipe.view, hflag, hwire, hbusy]
    cases token <;> simp
  | _ => exact Iff.rfl

/-- What the properties say about the token. -/
theorem At.live (h : At w token) (hlost : token = .lost → w.connected = false)
    (hfree : token = .free → w.connected = true → w.side.sendQueue = []) : w.Live := by
  intro hc hq hbusy
  cases htok : token with
  | free => exact (hq (hfree htok hc)).elim
  | lost => simp [hlost htok] at hc
  | held t f => exact (hbusy (h.busy.2 ⟨t, f, htok⟩)).elim
  | wire => simp [h.wire, htok]

theorem At.nothingLost (h : At w token)
    (hpop : w.disconnects = 0 → w.popped = w.accepted ++ (w.view token).pending) : w.NothingLost := by
  intro _ hd
  rw [hpop hd]
  cases htok : token with
  | held t f =>
    cases hf : f.hasBatch with
    | true =>
      right
      exact ⟨⟨t, f, (h.mem htok).1, hf⟩, by simp [TokenState.pending, Pipe.view, hf]⟩
    | false => left; simp [TokenState.pending, Pipe.view, hf]
  | _ => left; simp [TokenState.pending, Pipe.view]

/-- A harmless step. -/
def Pipe.HarmlessStep (w : Pipe β) (a : PipeAct β) (w' : Pipe β) : Prop :=
  w.Harmless a ∧ w.Step a w'

theorem runs_sane {acts : List (PipeAct β)} (h : Runs Pipe.Step {} acts w) :
    ∃ token, At w token ∧ (w.view token).Sane := by
  refine Runs.invariant (P := fun w => ∃ token, At w token ∧ (w.view token).Sane) ?_ ?_ h
  · exact ⟨.free, at_init, nofun, nofun, nofun, Nat.le_refl 0⟩
  · rintro w a w' ⟨token, hat, hsane⟩ hstep
    obtain ⟨token', hat', hs⟩ := step_token hat hstep
    exact ⟨token', hat', hs.sane hsane⟩

theorem runs_kept {acts : List (PipeAct β)} (h : Runs Pipe.HarmlessStep {} acts w) :
    ∃ token, At w token ∧ (w.view token).Sane ∧ (w.view token).Kept := by
  refine Runs.invariant
    (P := fun w => ∃ token, At w token ∧ (w.view token).Sane ∧ (w.view token).Kept) ?_ ?_ h
  · exact ⟨.free, at_init, ⟨nofun, nofun, nofun, Nat.le_refl 0⟩, nofun, fun _ _ => rfl, fun _ => rfl⟩
  · rintro w a w' ⟨token, hat, hsane, hkept⟩ ⟨ha, hstep⟩
    obtain ⟨token', hat', hs⟩ := step_token hat hstep
    exact ⟨token', hat', hs.sane hsane, hs.kept hsane hkept (hat.harmless.1 ha)⟩

/-- With the flag nowhere, a queue is stranded. -/
theorem At.not_live (h : At w token) (htok : token = .free ∨ token = .lost) (hc : w.connected = true)
    (hq : w.side.sendQueue ≠ []) : ¬ w.Live := by
  intro hlive
  refine hlive hc hq ?_ ?_
  · rw [h.busy]
    rintro ⟨t, f, hheld⟩
    rcases htok with rfl | rfl <;> cases hheld
  · rw [h.wire]
    rcases htok with rfl | rfl <;> rfl

/-- A thread whose calls do not hold the flag may call `Send`. -/
theorem free_of_calls {t : ThreadId} (h : (w.stack t).filter Frame.carries = []) : w.free t = true := by
  unfold Pipe.free
  cases hst : w.stack t with
  | nil => rfl
  | cons f fs =>
    rw [hst] at h
    cases f with
    | onDisconnected => rfl
    | _ => simp [Frame.carries] at h

/-- After a harmful connect the flag is nowhere. -/
theorem harmful_connect (h : At w token) (ha : ¬ w.Harmless .connect) :
    ¬ { w with connected := true }.Live ∨
    ∀ t b, ∃ w'', { w with connected := true }.Step (.send t b) w'' ∧ ¬ w''.Live := by
  have hat : At { w with connected := true } token := ⟨h.calls, h.flag, h.wire⟩
  rw [h.harmless] at ha
  by_cases hl : token = .lost
  · -- the session is dead: whatever is sent stays in the queue
    right
    intro t b
    have hset : w.side.sendResitered = true := by
      have hflag := h.flag
      simpa [hl] using hflag
    have hfree : w.free t = true := free_of_calls (by rw [h.calls, hl]; rfl)
    have hstep : { w with connected := true }.step (.send t b) =
        some { w with
          connected := true
          side := { w.side with sendQueue := w.side.sendQueue ++ [b], sendResitered := true }
          pushed := w.pushed ++ [b] } := by
      have hfree' : { w with connected := true }.free t = true := hfree
      simp [Pipe.step, SendSide.push, hset, hfree']
    have hat' : At { w with
        connected := true
        side := { w.side with sendQueue := w.side.sendQueue ++ [b], sendResitered := true }
        pushed := w.pushed ++ [b] } token := ⟨h.calls, by simp [hl], h.wire⟩
    exact ⟨_, hstep, hat'.not_live (.inr hl) rfl (by simp)⟩
  · left
    refine hat.not_live ?_ rfl ?_
    · by_contra hne
      exact ha ⟨hl, fun hf => (hne (.inl hf)).elim⟩
    · intro hq
      exact ha ⟨hl, fun _ => hq⟩

/-- A harmful cleanup strands the queue or drops the batch. -/
theorem harmful_release {t : ThreadId} (h : At w token) (hsane : (w.view token).Sane)
    (hs : w.Step (.release t) w') (ha : ¬ w.Harmless (.release t)) : ¬ (w'.Live ∧ w'.NothingLost) := by
  obtain ⟨token', hat', hstep⟩ := step_token h hs
  generalize hv : w'.view token' = v at hstep
  cases hstep with
  | release htok =>
    have hfree : token' = .free := congrArg TokenState.token hv
    have hconn : w'.connected = w.connected := congrArg TokenState.connected hv
    have hqueue : w'.side.sendQueue = w.side.sendQueue := congrArg TokenState.queue hv
    simp only [Pipe.Harmless, Classical.not_imp, not_and_or] at ha
    obtain ⟨hc, hq | hd⟩ := ha
    · exact fun hgood => hat'.not_live (.inl hfree) (hconn.trans hc) (hqueue ▸ hq) hgood.1
    · rintro ⟨-, hlost⟩
      have hbatch := hsane.batch _ _ htok rfl
      have hlen : w.accepted.length + (w.view token).pending.length ≤ w.popped.length := hsane.popped
      have hpopped : w'.popped = w.popped := congrArg TokenState.popped hv
      have haccepted : w'.accepted = w.accepted := congrArg TokenState.accepted hv
      have hdis : w'.disconnects = w.disconnects := congrArg TokenState.disconnects hv
      rcases hlost (hconn.trans hc) (by omega) with hpop | ⟨⟨t', f, hmem, hf⟩, -⟩
      · have hpos : 0 < w.side.sendBuffers.length := List.length_pos_iff.2 hbatch
        have hpend : (w.view token).pending = w.side.sendBuffers := by
          simp only [TokenState.pending, htok, Frame.hasBatch, if_true]
          rfl
        rw [hpopped, haccepted] at hpop
        rw [hpend, hpop] at hlen
        omega
      · have hbusy : w'.Busy := ⟨t', f, hmem, Frame.hasBatch_carries hf⟩
        obtain ⟨_, _, hheld⟩ := hat'.busy.1 hbusy
        rw [hfree] at hheld
        cases hheld

/-- **When the send pipeline strands and loses nothing.** In every run whose steps are
all harmless, no buffer is stranded and, while the session stays connected, none is
lost. Conversely, right after a step that is not harmless one of the two fails, or it
fails with the next `Send`, whoever makes it. -/
theorem sendPipe_live :
    (∀ (acts : List (PipeAct β)) (w : Pipe β), Runs Pipe.HarmlessStep {} acts w → w.Live ∧ w.NothingLost) ∧
    (∀ (acts : List (PipeAct β)) (w : Pipe β) (a : PipeAct β) (w' : Pipe β),
      Runs Pipe.Step {} acts w → w.Step a w' → ¬ w.Harmless a →
        ¬ (w'.Live ∧ w'.NothingLost) ∨ ∀ t b, ∃ w'', w'.Step (.send t b) w'' ∧ ¬ w''.Live) := by
  constructor
  · intro acts w h
    obtain ⟨token, hat, -, hkept⟩ := runs_kept h
    exact ⟨hat.live hkept.lost hkept.free, hat.nothingLost hkept.popped⟩
  · intro acts w a w' h hs ha
    obtain ⟨token, hat, hsane⟩ := runs_sane h
    cases a with
    | connect =>
      obtain rfl : { w with connected := true } = w' := by simpa [Pipe.Step, Pipe.step] using hs
      rcases harmful_connect hat ha with hlive | hnext
      · exact .inl fun hgood => hlive hgood.1
      · exact .inr hnext
    | release t => exact .inl (harmful_release hat hsane hs ha)
    | _ => exact (ha trivial).elim

/-- A batch is sent, and the completion finds more to send. -/
theorem sendPipe_live_example : ∃ w : Pipe ℕ,
    Runs Pipe.HarmlessStep {} [.connect, .send 0 7, .isConnected 0, .drain 0, .wsaSend 0 .success,
      .send 1 8, .completed 2 0 6] w ∧ w.side.sendQueue = [8] ∧ w.stack 2 = [.registerSend] ∧
    w.Live ∧ w.NothingLost := by
  -- only connects and cleanups can be harmful
  let quiet : Pipe ℕ → PipeAct ℕ → Option (Pipe ℕ) := fun w a =>
    match a with
    | .connect | .release _ => none
    | a => w.step a
  have hquiet : ∀ w a w', quiet w a = some w' → w.HarmlessStep a w' := by
    intro w a w' h
    cases a with
    | connect | release => cases h
    | _ => exact ⟨trivial, h⟩
  have hconnect : Pipe.HarmlessStep ({} : Pipe ℕ) .connect { connected := true } := ⟨.inl ⟨rfl, rfl⟩, rfl⟩
  have hrun := Runs.cons hconnect ((Runs.ofFold quiet { connected := true }
    [.send 0 7, .isConnected 0, .drain 0, .wsaSend 0 .success, .send 1 8, .completed 2 0 6] rfl).mono hquiet)
  exact ⟨_, hrun, rfl, rfl, sendPipe_live.1 _ _ hrun⟩

/-- Two runs in which the pipeline fails. In the first a buffer is sent before the
session connects: `RegisterSend` keeps the flag and nothing is ever sent. In the second
`WSASend` fails with `WSAENOBUFS` (10055): the session stays connected and the buffer is gone. -/
theorem sendPipe_loses :
    (∃ w : Pipe ℕ, Runs Pipe.Step {} [.send 0 7, .isConnected 0, .connect] w ∧ ¬ w.Live) ∧
    (∃ w : Pipe ℕ, Runs Pipe.Step {} [.connect, .send 0 7, .isConnected 0, .drain 0,
      .wsaSend 0 (.socketError 10055), .handleError 0, .release 0] w ∧ ¬ w.NothingLost) := by
  constructor
  · have hrun := Runs.ofFold Pipe.step ({} : Pipe ℕ) [.send 0 7, .isConnected 0, .connect] rfl
    refine ⟨_, hrun, fun hlive => ?_⟩
    refine hlive rfl (by decide) ?_ rfl
    rintro ⟨t, f, hf, -⟩
    by_cases ht : t = 0 <;> simp [Pipe.setStack, ht] at hf
  · have hrun := Runs.ofFold Pipe.step ({} : Pipe ℕ) [.connect, .send 0 7, .isConnected 0, .drain 0,
      .wsaSend 0 (.socketError 10055), .handleError 0, .release 0] rfl
    obtain ⟨token, hat⟩ := runs_at hrun
    have htok : token = .free := hat.flag.1 rfl
    refine ⟨_, hrun, fun hlost => ?_⟩
    rcases hlost rfl rfl with hpop | ⟨⟨t, f, hmem, hf⟩, -⟩
    · exact List.cons_ne_nil 7 [] hpop
    · obtain ⟨_, _, hheld⟩ := hat.busy.1 ⟨t, f, hmem, Frame.hasBatch_carries hf⟩
      rw [htok] at hheld
      cases hheld

end ZeldaServer
