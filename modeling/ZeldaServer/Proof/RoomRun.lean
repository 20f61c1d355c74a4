import ZeldaServer.Proof.Delivery
import Mathlib.Algebra.GroupWithZero.Nat

/-!
# Runs of the room

* `run_good`: what holds between the operations of any run, and how many objects there are.
* `run_invariant`: what every delivery keeps holds in every state of a run that creates
  at most `2 ^ 64` objects.
-/

namespace ZeldaServer

open Lib Std

variable {v v' : Stage Outboxes} {st st' : Game Outboxes} {op : RoomOp} {ops : List RoomOp} {r : Ref}
  {o : GameObject} {honest : Scene → ObjectInfo → ObjectInfo → Prop}

theorem good_start : Good Anyone roomStart [] := good_empty

/-! ## Acts and operations -/

/-- How many objects an act creates. -/
def Label.created : Label → ℕ
  | .enter _ => 1
  | .spawn => 1
  | _ => 0

theorem Removes.length {id : UInt64} (h : Removes Told v id v') : v'.game.objects.length = v.game.objects.length := by
  cases h with
  | missing => rfl
  | found => exact drop_length

theorem Strikes.length {attacker target : Ref} {info : ObjectInfo} (h : Strikes Told v attacker target info v') :
    v'.game.objects.length = v.game.objects.length := by
  cases h with
  | mk => exact modify_length _ _

theorem Act.length {a : Label} (h : Act Told Whisper v a v') :
    v'.game.objects.length = v.game.objects.length + a.created := by
  cases h with
  | enter => exact enter_length
  | spawn => exact spawn_length
  | think => exact modify_length _ _
  | walk => exact modify_length _ _
  | report => exact modify_length _ _
  | hit hs _ => exact hs.length
  | kill hs _ _ hr => exact hr.length.trans ((modify_length _ _).trans hs.length)
  | leave hr => exact hr.length

theorem Strikes.core {attacker target : Ref} {info : ObjectInfo} (h : Strikes Told v attacker target info v')
    (hcore : Core Anyone v) : Core Anyone v' := by
  cases h with
  | mk =>
    refine Core.anyone (hcore.modifyInfo ?_ ?_)
    · exact fun _ => rfl
    · exact fun _ => rfl

theorem Removes.core {id : UInt64} (h : Removes Told v id v') (hcore : Core Anyone v) : Core Anyone v' := by
  cases h with
  | missing => exact hcore
  | found hf ho ht _ =>
    have hbeat : Beat (fun _ _ _ => True) v.game [.removeObject [id]] (v.game.drop _ _ id) := .remove hf ho ht
    exact (hcore.beat hbeat).anyone

theorem Core.follow {net : Outboxes} {told : ObjectInfo} (h : Core Anyone v) :
    Core Anyone ⟨net, v.game.modifyInfo r (·.follow told)⟩ := by
  refine Core.anyone (h.modifyInfo ?_ ?_)
  · exact fun _ => rfl
  · exact fun _ => rfl

theorem Act.core {a : Label} (h : Act Told Whisper v a v') (hcore : Core Anyone v) : Core Anyone v' := by
  cases h with
  | enter hfresh => exact (hcore.enter hfresh trivial).anyone
  | spawn => exact hcore.spawn.anyone
  | think hf => exact hcore.muse hf
  | walk => exact hcore.follow
  | report => exact hcore.follow
  | hit hs _ => exact hs.core hcore
  | kill hs _ hf hr => exact hr.core ((hs.core hcore).muse hf)
  | leave hr => exact hr.core hcore

/-- A run of acts creates what its acts create. -/
theorem acts_length {acts : List Label} (h : Runs (Act Told Whisper) v acts v') :
    v'.game.objects.length = v.game.objects.length + (acts.map Label.created).sum := by
  induction h with
  | nil => rfl
  | snoc _ hact ih =>
    rw [hact.length, ih, List.map_append, List.sum_append]
    simp [Nat.add_assoc]

/-- A run of acts that report no packet is a sequence of deliveries. -/
theorem acts_deliveries {acts : List Label} (h : Runs (Act Told Whisper) v acts v') (hcore : Core Anyone v)
    (hb : v'.game.objects.length ≤ 2 ^ 64) (hno : ∀ r told, Label.report r told ∉ acts) :
    Core Anyone v' ∧ Relation.ReflTransGen (Delivery honest) v v' := by
  induction h with
  | nil => exact ⟨hcore, .refl⟩
  | snoc _ hact ih =>
    have hlen := hact.length
    obtain ⟨hcore', hdel⟩ := ih (by omega) fun r told hmem => hno r told (List.mem_append_left _ hmem)
    refine ⟨hact.core hcore', hdel.trans (hact.deliveries hcore' hb ?_)⟩
    intro r told o ha
    exact absurd (by rw [ha]; simp) (hno r told)

/-- What is known about the packets of a run. -/
def Reports (honest : Scene → ObjectInfo → ObjectInfo → Prop) (st : Game Outboxes) (op : RoomOp) : Prop :=
  ∀ pkt r o, op = .handleCMove pkt → st.game.findObject pkt.info.objectid = some r →
    st.game.objects[r]? = some o → honest st.game.toScene o.info pkt.info

theorem roomStep_length (h : Good Anyone st []) (hstep : RoomStep st op st') :
    st'.game.objects.length = st.game.objects.length + if op.creates then 1 else 0 := by
  obtain ⟨-, acts, hruns, hperforms⟩ := roomStep_acts h hstep
  have hlen := acts_length hruns
  have hsum : (acts.map Label.created).sum = if op.creates then 1 else 0 := by
    cases op with
    | init =>
      rw [show acts = [.spawn] from hperforms]
      rfl
    | enterRoom s =>
      rw [show acts = [.enter s] from hperforms]
      rfl
    | leaveRoom =>
      rcases hperforms with rfl | ⟨id, rfl⟩
      · rfl
      · rfl
    | handleCMove pkt =>
      rcases hperforms with rfl | ⟨r, rest, -, rfl, hrest⟩
      · rfl
      · refine List.sum_eq_zero_iff_forall_eq_nat.2 fun n hn => ?_
        obtain ⟨a, ha, rfl⟩ := List.mem_map.1 hn
        rcases List.mem_cons.1 ha with rfl | ha
        · rfl
        · obtain ⟨t, rfl | rfl⟩ := hrest a ha
          · rfl
          · rfl
    | update =>
      refine List.sum_eq_zero_iff_forall_eq_nat.2 fun n hn => ?_
      obtain ⟨a, ha, rfl⟩ := List.mem_map.1 hn
      obtain ⟨r, rfl | ⟨told, rfl⟩ | ⟨t, rfl | rfl⟩⟩ := hperforms a ha
      · rfl
      · rfl
      · rfl
      · rfl
  rw [← hsum]
  exact hlen

/-- **An operation is a sequence of deliveries.** -/
theorem roomStep_deliveries (h : Good Anyone st []) (hstep : RoomStep st op st')
    (hb : st'.game.objects.length ≤ 2 ^ 64) (hh : Reports honest st op) :
    Relation.ReflTransGen (Delivery honest) st.stage st'.stage := by
  obtain ⟨-, acts, hruns, hperforms⟩ := roomStep_acts h hstep
  have hplain : (∀ r told, Label.report r told ∉ acts) → Relation.ReflTransGen (Delivery honest) st.stage st'.stage :=
    fun hno => (acts_deliveries hruns h.core hb hno).2
  cases op with
  | init =>
    rw [show acts = [.spawn] from hperforms] at hplain
    exact hplain (by simp)
  | enterRoom s =>
    rw [show acts = [.enter s] from hperforms] at hplain
    exact hplain (by simp)
  | leaveRoom =>
    rcases hperforms with rfl | ⟨id, rfl⟩
    · exact hplain (by simp)
    · exact hplain (by simp)
  | handleCMove pkt =>
    rcases hperforms with rfl | ⟨r, rest, hf, rfl, hrest⟩
    · exact hplain (by simp)
    · -- the report, and then the attacks
      obtain ⟨v, hact, hruns'⟩ := hruns.first
      have hlen : v.game.objects.length ≤ st'.game.objects.length := Nat.le.intro (acts_length hruns').symm
      have hcore := hact.core h.core
      refine (hact.deliveries h.core (Nat.le_trans hlen hb) ?_).trans (acts_deliveries hruns' hcore hb ?_).2
      · intro r' told o ha ho
        cases ha
        exact hh pkt _ o rfl hf ho
      · intro r' told hmem
        obtain ⟨t, hcase⟩ := hrest _ hmem
        rcases hcase with hcase | hcase
        · cases hcase
        · cases hcase
  | update =>
    refine hplain fun r told hmem => ?_
    obtain ⟨r', hcase | ⟨told', hcase⟩ | ⟨t, hcase | hcase⟩⟩ := hperforms _ hmem
    · cases hcase
    · cases hcase
    · cases hcase
    · cases hcase

/-! ## Runs -/

/-- **Between the operations of a run.** -/
theorem run_good (h : Runs RoomStep roomStart ops st) :
    Good Anyone st [] ∧ st.game.objects.length = ops.countP RoomOp.creates := by
  induction h with
  | nil => exact ⟨good_start, rfl⟩
  | snoc _ hstep ih =>
    obtain ⟨hgood, hlen⟩ := ih
    refine ⟨(roomStep_acts hgood hstep).1, ?_⟩
    rw [roomStep_length hgood hstep, hlen, List.countP_append, List.countP_singleton]

theorem deliveries_invariant {P : Stage Outboxes → Prop}
    (hP : ∀ v v', Sound v → Delivery honest v v' → v'.game.objects.length ≤ 2 ^ 64 → P v → P v')
    (h : Relation.ReflTransGen (Delivery honest) v v') (hb : v'.game.objects.length ≤ 2 ^ 64) (hs : Sound v)
    (hp : P v) : Sound v' ∧ P v' := by
  induction h with
  | refl => exact ⟨hs, hp⟩
  | tail _ hd ih =>
    obtain ⟨hs', hp'⟩ := ih (Nat.le_trans hd.length_le hb)
    exact ⟨hs'.delivery hd hb, hP _ _ hs' hd hb hp'⟩

theorem sound_start : Sound roomStart.stage := by
  refine ⟨good_start.core, fun r o ho => ?_⟩
  simp [roomStart, Game.stage] at ho

/-- A step, with what is known about its packet. -/
def ReportStep (honest : Scene → ObjectInfo → ObjectInfo → Prop) (st : Game Outboxes) (op : RoomOp)
    (st' : Game Outboxes) : Prop :=
  RoomStep st op st' ∧ Reports honest st op

/-- **The invariant rule**, for runs that create at most `2 ^ 64` objects. -/
theorem run_invariant {P : Stage Outboxes → Prop} (h0 : P roomStart.stage)
    (hP : ∀ v v', Sound v → Delivery honest v v' → v'.game.objects.length ≤ 2 ^ 64 → P v → P v')
    (h : Runs (ReportStep honest) roomStart ops st) (hb : ops.countP RoomOp.creates ≤ 2 ^ 64) :
    Sound st.stage ∧ P st.stage := by
  induction h with
  | nil => exact ⟨sound_start, h0⟩
  | snoc hruns hstep ih =>
    obtain ⟨hgood, -⟩ := run_good (hruns.mono fun _ _ _ h => h.1)
    obtain ⟨-, hlen⟩ := run_good ((hruns.snoc hstep).mono fun _ _ _ h => h.1)
    rw [List.countP_append] at hb
    obtain ⟨hsound, hp⟩ := ih (Nat.le_trans (Nat.le_add_right _ _) hb)
    rw [← List.countP_append, ← hlen] at hb
    exact deliveries_invariant hP (roomStep_deliveries hgood hstep.1 hb hstep.2) hb hsound hp

end ZeldaServer
