import Mathlib.Algebra.BigOperators.Group.Finset.Basic
import Mathlib.Algebra.Order.BigOperators.Group.Finset
import ZeldaServer.Proof.Stream
import ZeldaServer.Spec.Release

/-!
# Debug and Release builds

The Release build sends a header and zeros, and never takes a session out of
`_sessions`. It agrees with the Debug build on the messages of zero bytes, and on the
histories of the registry in which each session is added last and once more than it is
released.

* `run_ran`: what the two registries hold after a history.
* `builds_agree`: when the builds agree.
-/

namespace ZeldaServer

open Lib

/-! ## Messages -/

variable {pkt : List UInt8} {pktId : UInt16} {b : SendBuffer}

/-- Only a message that fits becomes a packet. -/
theorem length_of_makeSendBuffer (h : makeSendBuffer pkt pktId = .ok b) : pkt.length ≤ 65531 := by
  unfold makeSendBuffer serializeToArray at h
  dsimp only at h
  split at h
  · cases h
  · rename_i hsize
    rw [UInt16.toNat_add, UInt16.toNat_ofNat', UInt16.toNat_ofNat', sizeofPacketHeader] at hsize
    split at h
    · cases h
    · rename_i hsome
      split at hsome
      · cases hsome
      · rename_i hfits
        rw [UInt16.toNat_ofNat'] at hfits
        omega

/-- The Release build sends zeros after the header. -/
theorem ndebug_frame (h : pkt.length ≤ 65531) :
    (NDebug.makeSendBuffer pkt pktId).map SendBuffer.frame = .ok (frameOf (pktId, List.replicate pkt.length 0)) := by
  have hp : UInt16.ofNat pkt.length + UInt16.ofNat sizeofPacketHeader =
      UInt16.ofNat (pkt.length + sizeofPacketHeader) := (UInt16.ofNat_add _ _).symm
  have hq : (UInt16.ofNat (pkt.length + sizeofPacketHeader)).toNat = pkt.length + 4 := by
    rw [UInt16.toNat_ofNat', sizeofPacketHeader]
    omega
  unfold NDebug.makeSendBuffer
  dsimp only
  rw [hp, hq, if_neg (by rw [sizeofPacketHeader]; omega)]
  refine congrArg Except.ok ?_
  have hblock : writeAt (SendBuffer.new (pkt.length + 4)).buffer 0
      (PacketHeader.bytes ⟨UInt16.ofNat (pkt.length + sizeofPacketHeader), pktId⟩) =
      frameOf (pktId, List.replicate pkt.length 0) := by
    unfold frameOf
    rw [List.length_replicate]
    simp only [writeAt, SendBuffer.new, List.take_zero, List.nil_append, Nat.zero_add]
    rw [bytes_length, List.drop_replicate]
    rfl
  simp only [SendBuffer.frame, SendBuffer.close, hblock]
  apply List.take_of_length_le
  rw [frameOf_length, UInt16.toNat_toUInt32, hq, List.length_replicate]

/-- **The two builds make the same frame of a message exactly when it has only zero
bytes.** -/
theorem frames_agree (h : makeSendBuffer pkt pktId = .ok b) :
    (NDebug.makeSendBuffer pkt pktId).map SendBuffer.frame = .ok b.frame ↔ ∀ byte ∈ pkt, byte = 0 := by
  have hlen := length_of_makeSendBuffer h
  obtain ⟨b', hb', hframe⟩ := makeSendBuffer_frame (m := (pktId, pkt)) hlen
  rw [h] at hb'
  obtain rfl : b = b' := Except.ok.inj hb'
  rw [ndebug_frame hlen, hframe, Except.ok.injEq]
  unfold frameOf
  rw [List.length_replicate, List.append_cancel_left_eq]
  constructor
  · intro heq byte hmem
    have heq : List.replicate pkt.length 0 = pkt := heq
    rw [← heq] at hmem
    exact List.eq_of_mem_replicate hmem
  · exact fun hzero => (List.eq_replicate_iff.2 ⟨rfl, hzero⟩).symm

/-! ## The registry -/

/-- The sessions of the calls of `AddSession`, and those of the calls of `ReleaseSession`. -/
def added (calls : List RegistryCall) : List SessionId :=
  calls.filterMap fun call => match call with
    | .addSession s => some s
    | .releaseSession _ => none

def released (calls : List RegistryCall) : List SessionId :=
  calls.filterMap fun call => match call with
    | .addSession _ => none
    | .releaseSession s => some s

variable {calls : List RegistryCall} {s : SessionId}

theorem callsOf_append (calls calls' : List RegistryCall) :
    callsOf s (calls ++ calls') = callsOf s calls ++ callsOf s calls' := List.filterMap_append

theorem callsOf_add (t : SessionId) : callsOf s [.addSession t] = if t = s then [true] else [] := by
  unfold callsOf
  rw [List.filterMap_cons]
  split <;> simp_all

theorem callsOf_release (t : SessionId) : callsOf s [.releaseSession t] = if t = s then [false] else [] := by
  unfold callsOf
  rw [List.filterMap_cons]
  split <;> simp_all

/-- Calls of one kind, counted call by call. -/
theorem count_calls {f : RegistryCall → Option SessionId} {b : Bool}
    (h : ∀ call, (f call).toList.count s = (callsOf s [call]).count b) :
    (calls.filterMap f).count s = (callsOf s calls).count b := by
  induction calls with
  | nil => rfl
  | cons call calls ih =>
    have hcall : [call].filterMap f = (f call).toList := by
      rw [List.filterMap_cons]
      cases f call <;> rfl
    rw [← List.singleton_append, callsOf_append, List.filterMap_append, List.count_append, List.count_append, ih, hcall, h call]

theorem count_added : (added calls).count s = (callsOf s calls).count true := by
  refine count_calls fun call => ?_
  cases call with
  | addSession t =>
    rw [callsOf_add]
    by_cases h : t = s <;> simp [h]
  | releaseSession t =>
    rw [callsOf_release]
    by_cases h : t = s <;> simp [h]

theorem count_released : (released calls).count s = (callsOf s calls).count false := by
  refine count_calls fun call => ?_
  cases call with
  | addSession t =>
    rw [callsOf_add]
    by_cases h : t = s <;> simp [h]
  | releaseSession t =>
    rw [callsOf_release]
    by_cases h : t = s <;> simp [h]

theorem mem_added : s ∈ added calls ↔ true ∈ callsOf s calls := by
  rw [← List.count_pos_iff, count_added, List.count_pos_iff]

/-- The registries of the two builds after the calls. -/
structure Ran (calls : List RegistryCall) (net net' : Net) : Prop where
  sessions : ∀ s, s ∈ net.sessions ↔ (callsOf s calls).getLast? = some true
  kept : ∀ s, s ∈ net'.sessions ↔ s ∈ added calls
  count : net.sessionCount = (added calls).length - (released calls).length
  same : net'.sessionCount = net.sessionCount

theorem ReleasedOnce.of_append {calls' : List RegistryCall} (h : ReleasedOnce (calls ++ calls')) : ReleasedOnce calls := by
  intro s
  obtain ⟨hcount, hhead⟩ := h s
  rw [callsOf_append] at hcount hhead
  rw [List.count_append] at hcount
  refine ⟨Nat.le_trans (Nat.le_add_right _ _) hcount, fun hfalse => hhead ?_⟩
  rw [List.head?_append, hfalse]
  rfl

/-- A session that has been added and not yet released was added last. -/
theorem last_of_no_release {l : List Bool} (hne : l ≠ []) (hno : l.count false = 0) : l.getLast? = some true := by
  rw [List.getLast?_eq_some_getLast hne]
  cases hl : l.getLast hne with
  | true => rfl
  | false => exact absurd (hl ▸ List.getLast_mem hne) (List.count_eq_zero.1 hno)

/-- **What the registries hold** after a history: the assertions of the Debug build hold. -/
theorem run_ran (h : ReleasedOnce calls) : ∃ net net', runRegistry Service.releaseSession calls {} = .ok net ∧
    runRegistry NDebug.releaseSession calls {} = .ok net' ∧ Ran calls net net' := by
  -- on the calls, from the last one
  induction calls using List.reverseRecOn with
  | nil =>
    exact ⟨{}, {}, rfl, rfl, by simp [callsOf], by simp [added], rfl, rfl⟩
  | append_singleton calls call ih =>
    obtain ⟨net, net', hnet, hnet', hran⟩ := ih h.of_append
    unfold runRegistry at hnet hnet' ⊢
    rw [List.foldlM_append, List.foldlM_append, hnet, hnet']
    cases call with
    | addSession t =>
      refine ⟨Service.addSession t net, Service.addSession t net', rfl, rfl, fun s => ?_, fun s => ?_, ?_, ?_⟩
      · rw [callsOf_append, callsOf_add]
        have hs := hran.sessions s
        by_cases hts : t = s
        · simp [Service.addSession, hts]
        · simpa [Service.addSession, hts, Ne.symm hts] using hs
      · have hs := hran.kept s
        simp only [Service.addSession, Finset.mem_insert, hs]
        simp [added, or_comm]
      · have hcount := hran.count
        simp only [Service.addSession, hcount]
        simp [added, released]
        omega
      · simp only [Service.addSession, hran.same]
    | releaseSession t =>
      -- the session is there, since it was added and not released
      have hmem : t ∈ net.sessions := by
        obtain ⟨hcount, hhead⟩ := h t
        rw [callsOf_append, callsOf_release, if_pos rfl] at hcount hhead
        rw [List.count_append, List.count_singleton_self] at hcount
        refine (hran.sessions t).2 (last_of_no_release (fun hnil => ?_) (Nat.le_zero.1 (Nat.le_of_succ_le_succ hcount)))
        rw [hnil] at hhead
        exact hhead rfl
      refine ⟨{ net with sessions := net.sessions.erase t, sessionCount := net.sessionCount - 1 },
        { net' with sessionCount := net'.sessionCount - 1 }, ?_, rfl, fun s => ?_, fun s => ?_, ?_, ?_⟩
      · simp [RegistryCall.run, Service.releaseSession, hmem, pure, Except.pure]
      · rw [callsOf_append, callsOf_release]
        have hs := hran.sessions s
        by_cases hts : t = s
        · simp [hts]
        · simpa [hts, Ne.symm hts] using hs
      · simpa [added] using hran.kept s
      · simp only [hran.count]
        simp [added, released]
        omega
      · simp only [hran.same]

/-- A session that is added first and last is added more often than it is released. -/
theorem count_lt {l : List Bool} (hlast : l.getLast? = some true) (hhead : l.head? ≠ some false)
    (honce : l.count false ≤ 1) : l.count false + 1 ≤ l.count true := by
  cases l with
  | nil => simp at hlast
  | cons b l =>
    obtain rfl : b = true := by
      cases b
      · exact absurd rfl hhead
      · rfl
    rcases List.eq_nil_or_concat l with rfl | ⟨l', b', rfl⟩
    · decide
    · rw [List.concat_eq_append] at hlast honce ⊢
      obtain rfl : b' = true := by
        rw [← List.cons_append, List.getLast?_concat] at hlast
        exact Option.some.inj hlast
      simp only [List.count_cons, List.count_append] at honce ⊢
      simp at honce ⊢
      omega

/-- **When the registries agree.** -/
theorem Ran.agree {net net' : Net} (hran : Ran calls net net') (h : ReleasedOnce calls) :
    (net'.sessions = net.sessions ∧ net'.sessionCount = net.sessionCount ∧ net.sessionCount = net.sessions.card) ↔
      AddedLast calls := by
  have hfirst : ∀ s, callsOf s calls ≠ [] → true ∈ callsOf s calls := by
    intro s hne
    obtain ⟨b, l, hl⟩ := List.exists_cons_of_ne_nil hne
    have hhead := (h s).2
    rw [hl] at hhead ⊢
    cases b
    · exact absurd rfl hhead
    · exact List.mem_cons_self
  -- the sets are equal when every session was added last
  have hsets : net'.sessions = net.sessions ↔ ∀ s, callsOf s calls ≠ [] → (callsOf s calls).getLast? = some true := by
    constructor
    · intro heq s hne
      rw [← hran.sessions s, ← heq, hran.kept s, mem_added]
      exact hfirst s hne
    · intro hall
      ext s
      rw [hran.kept s, hran.sessions s, mem_added]
      constructor
      · exact fun hmem => hall s (List.ne_nil_of_mem hmem)
      · exact fun hlast => List.mem_of_getLast? hlast
  -- and then the count is right when none was added in vain
  have hcount : (∀ s, callsOf s calls ≠ [] → (callsOf s calls).getLast? = some true) →
      (net.sessionCount = net.sessions.card ↔
        ∀ s, callsOf s calls ≠ [] → (callsOf s calls).count true = (callsOf s calls).count false + 1) := by
    intro hall
    have hset : net.sessions = (added calls).toFinset := by
      ext s
      rw [List.mem_toFinset, ← hran.kept s, hsets.2 hall]
    have hmem : ∀ s, s ∈ (added calls).toFinset ↔ callsOf s calls ≠ [] := by
      intro s
      rw [List.mem_toFinset, mem_added]
      exact ⟨List.ne_nil_of_mem, hfirst s⟩
    have hadds : ∑ s ∈ (added calls).toFinset, (added calls).count s = (added calls).length :=
      List.sum_toFinset_count_eq_length _
    have hrels : ∑ s ∈ (added calls).toFinset, (released calls).count s = (released calls).length := by
      rw [← List.sum_toFinset_count_eq_length (released calls)]
      refine (Finset.sum_subset (fun s hs => ?_) fun s _ hs => ?_).symm
      · rw [hmem]
        rw [List.mem_toFinset, ← List.count_pos_iff, count_released, List.count_pos_iff] at hs
        exact List.ne_nil_of_mem hs
      · rw [List.mem_toFinset] at hs
        exact List.count_eq_zero.2 hs
    have hle : ∀ s ∈ (added calls).toFinset, (released calls).count s + 1 ≤ (added calls).count s := by
      intro s hs
      rw [count_released, count_added]
      exact count_lt (hall s ((hmem s).1 hs)) (h s).2 (h s).1
    have hsum := Finset.sum_eq_sum_iff_of_le hle
    rw [Finset.sum_add_distrib, hadds, hrels, ← Finset.card_eq_sum_ones] at hsum
    rw [hran.count, hset]
    have hiff : ((added calls).length : ℤ) - (released calls).length = (added calls).toFinset.card ↔
        (released calls).length + (added calls).toFinset.card = (added calls).length := by omega
    rw [hiff, hsum]
    simp only [hmem, count_released, count_added, eq_comm]
  constructor
  · rintro ⟨heq, -, hcard⟩ s hne
    have hall := hsets.1 heq
    exact ⟨hall s hne, (hcount hall).1 hcard s hne⟩
  · intro hlast
    have hall := fun s hne => (hlast s hne).1
    exact ⟨hsets.2 hall, hran.same, (hcount hall).2 fun s hne => (hlast s hne).2⟩

/-- **Debug and Release builds agree** on a message exactly when it has only zero bytes, and
on a history of the registry exactly when each session is added last and once more than it
is released. -/
theorem builds_agree {pkt : List UInt8} {pktId : UInt16} {b : SendBuffer} {calls : List RegistryCall}
    (hmake : makeSendBuffer pkt pktId = .ok b) (hcalls : ReleasedOnce calls) :
    ((NDebug.makeSendBuffer pkt pktId).map SendBuffer.frame = .ok b.frame ↔ ∀ byte ∈ pkt, byte = 0) ∧
    ∃ net net', runRegistry Service.releaseSession calls {} = .ok net ∧
      runRegistry NDebug.releaseSession calls {} = .ok net' ∧
      ((net'.sessions = net.sessions ∧ net'.sessionCount = net.sessionCount ∧ net.sessionCount = net.sessions.card) ↔
        AddedLast calls) := by
  obtain ⟨net, net', hnet, hnet', hran⟩ := run_ran hcalls
  exact ⟨frames_agree hmake, net, net', hnet, hnet', hran.agree hcalls⟩

/-- An `S_AddObject` without objects, and a session that is released and added again. -/
theorem builds_agree_example :
    (NDebug.makeSendBuffer (Msg.addObject []).serialize 5).map SendBuffer.frame = .ok [4, 0, 5, 0] ∧
    ∃ net net', runRegistry Service.releaseSession [.addSession 0, .releaseSession 0, .addSession 1, .addSession 0] {} = .ok net ∧
      runRegistry NDebug.releaseSession [.addSession 0, .releaseSession 0, .addSession 1, .addSession 0] {} = .ok net' ∧
      net'.sessions = net.sessions ∧ net'.sessionCount = net.sessionCount ∧
      net.sessionCount = net.sessions.card := by
  have hcalls : ReleasedOnce [.addSession 0, .releaseSession 0, .addSession 1, .addSession 0]
    | 0 => by decide
    | 1 => by decide
    | _ + 2 => ⟨Nat.zero_le 1, nofun⟩
  have hlast : AddedLast [.addSession 0, .releaseSession 0, .addSession 1, .addSession 0]
    | 0 => fun _ => by decide
    | 1 => fun _ => by decide
    | _ + 2 => fun hne => absurd rfl hne
  have hmake : makeSendBuffer (Msg.addObject []).serialize 5 = .ok ⟨[4, 0, 5, 0], 4⟩ := rfl
  obtain ⟨hframe, net, net', hnet, hnet', hagree⟩ := builds_agree hmake hcalls
  exact ⟨hframe.2 nofun, net, net', hnet, hnet', hagree.2 hlast⟩

/-- The Release build sends `S_EnterGame` without its fields, and keeps a session that was
released. -/
theorem builds_differ :
    (makeSendBuffer (Msg.enterGame true 0).serialize 2).map SendBuffer.frame = .ok [6, 0, 2, 0, 8, 1] ∧
    (NDebug.makeSendBuffer (Msg.enterGame true 0).serialize 2).map SendBuffer.frame = .ok [6, 0, 2, 0, 0, 0] ∧
    ReleasedOnce [.addSession 0, .releaseSession 0] ∧
    (runRegistry Service.releaseSession [.addSession 0, .releaseSession 0] {}).map Net.sessions = .ok ∅ ∧
    (runRegistry NDebug.releaseSession [.addSession 0, .releaseSession 0] {}).map Net.sessions = .ok {0} := by
  have honce : ReleasedOnce [.addSession 0, .releaseSession 0]
    | 0 => by decide
    | _ + 1 => ⟨Nat.zero_le 1, nofun⟩
  exact ⟨by decide, by decide, honce, rfl, rfl⟩

end ZeldaServer
