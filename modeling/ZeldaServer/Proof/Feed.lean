import ZeldaServer.Proof.Representation
import ZeldaServer.Spec.Client

/-!
# The ids of a client follow the room

What a client knows matches the maps of the room (`Feed.Matches`) when its session has
entered, and every delivery keeps that (`Beat.matches`), whoever the client is.
-/

namespace ZeldaServer

open Lib Std

variable {v v' : Stage Outboxes} {st : Game Outboxes} {ops : List RoomOp} {r : Ref} {o : GameObject} {id : UInt64}
  {sc sc' : Scene} {session : SessionId} {msgs : List Msg} {f f' : Feed} {ids : List UInt64}
  {honest : Scene → ObjectInfo → ObjectInfo → Prop}

/-- The client knows who is in the room, and those it knows to be gone have left. -/
structure Feed.Matches (f : Feed) (sc : Scene) : Prop where
  known : ∀ id, id ∈ f.known ↔ ∃ r, id = key r ∧ sc.Inside r
  gone : ∀ id ∈ f.gone, ∃ r : Ref, r < sc.objects.length ∧ id = key r ∧ ¬ sc.Inside r

/-! ## Replaying -/

theorem Feed.add_eq (h1 : id ∉ f.known) (h2 : id ∉ f.gone) :
    f.add id = some { f with known := insert id f.known } := by
  unfold Feed.add
  rw [if_neg]
  rintro (h | h)
  · exact h1 h
  · exact h2 h

theorem Feed.mention_eq (h : id ∈ f.known) : f.mention id = some f := by
  unfold Feed.mention
  rw [if_pos h]

/-- Different new ids can all be added. -/
theorem Feed.addAll (objects : List ObjectInfo) (f : Feed) (hnew : ∀ info ∈ objects, info.objectid ∉ f.known ∧
    info.objectid ∉ f.gone) (hnodup : (objects.map (·.objectid)).Nodup) :
    ∃ f', f.step (.addObject objects) = some f' ∧ f'.gone = f.gone ∧
      ∀ id, id ∈ f'.known ↔ id ∈ f.known ∨ id ∈ objects.map (·.objectid) := by
  unfold Feed.step
  dsimp only
  induction objects generalizing f with
  | nil => exact ⟨f, rfl, rfl, by simp⟩
  | cons info objects ih =>
    obtain ⟨hk, hg⟩ := hnew info List.mem_cons_self
    rw [List.map_cons, List.nodup_cons] at hnodup
    have hrest : ∀ i ∈ objects, i.objectid ∉ insert info.objectid f.known ∧ i.objectid ∉ f.gone := by
      intro i hi
      obtain ⟨h1, h2⟩ := hnew i (List.mem_cons_of_mem _ hi)
      refine ⟨?_, h2⟩
      rw [Finset.mem_insert, not_or]
      refine ⟨fun heq => hnodup.1 ?_, h1⟩
      rw [← heq]
      exact List.mem_map_of_mem hi
    obtain ⟨f', hf', hgone, hknown⟩ := ih { f with known := insert info.objectid f.known } hrest hnodup.2
    refine ⟨f', ?_, hgone, fun id => ?_⟩
    · rw [List.foldlM_cons, Feed.add_eq hk hg]
      exact hf'
    · rw [hknown id, Finset.mem_insert, List.map_cons, List.mem_cons]
      tauto

theorem Feed.replay_append (msgs msgs' : List Msg) :
    Feed.replay (msgs ++ msgs') = (Feed.replay msgs).bind fun f => msgs'.foldlM Feed.step f := by
  unfold Feed.replay
  rw [List.foldlM_append]
  rfl

/-- What is gone stays gone. -/
theorem Feed.removeAll (ids : List UInt64) (f : Feed) (h : ids.foldlM Feed.remove f = some f') :
    (∀ id ∈ f.gone, id ∈ f'.gone) ∧ ∀ id ∈ ids, id ∈ f'.gone := by
  induction ids generalizing f with
  | nil =>
    cases h
    exact ⟨fun _ h => h, List.forall_mem_nil _⟩
  | cons id ids ih =>
    rw [List.foldlM_cons] at h
    obtain ⟨f₁, h₁, h⟩ := Option.bind_eq_some_iff.1 h
    obtain ⟨hgone, hids⟩ := ih f₁ h
    unfold Feed.remove at h₁
    split at h₁
    · cases h₁
      refine ⟨fun x hx => hgone x (Finset.mem_insert_of_mem hx), fun x hx => ?_⟩
      rcases List.mem_cons.1 hx with rfl | hx
      · exact hgone _ (Finset.mem_insert_self _ _)
      · exact hids x hx
    · cases h₁

theorem Feed.step_gone {msg : Msg} (h : f.step msg = some f') (hid : id ∈ f.gone) : id ∈ f'.gone := by
  cases msg with
  | enterGame =>
    cases h
    exact hid
  | myPlayer info =>
    unfold Feed.step at h
    dsimp only at h
    split at h
    · cases h
    · cases h
      exact hid
  | addObject objects =>
    unfold Feed.step at h
    dsimp only at h
    induction objects generalizing f with
    | nil =>
      cases h
      exact hid
    | cons info objects ih =>
      rw [List.foldlM_cons] at h
      obtain ⟨f₁, h₁, h⟩ := Option.bind_eq_some_iff.1 h
      refine ih ?_ h
      unfold Feed.add at h₁
      split at h₁
      · cases h₁
      · cases h₁
        exact hid
  | removeObject ids => exact (Feed.removeAll ids f h).1 id hid
  | move info =>
    unfold Feed.step Feed.mention at h
    dsimp only at h
    split at h
    · cases h
      exact hid
    · cases h
  | attack targetinfo attackerinfo =>
    unfold Feed.step at h
    obtain ⟨f₁, h₁, h⟩ := Option.bind_eq_some_iff.1 h
    unfold Feed.mention at h₁ h
    split at h₁
    · cases h₁
      split at h
      · cases h
        exact hid
      · cases h
    · cases h₁

/-- The ids of a removal that was replayed are gone. -/
theorem Feed.replay_gone (h : Feed.replay msgs = some f) (hmem : .removeObject ids ∈ msgs) (hid : id ∈ ids) :
    id ∈ f.gone := by
  induction msgs using List.reverseRecOn generalizing f with
  | nil => cases hmem
  | append_singleton msgs msg ih =>
    rw [Feed.replay_append] at h
    obtain ⟨f₁, h₁, h⟩ := Option.bind_eq_some_iff.1 h
    rw [List.foldlM_cons] at h
    obtain ⟨f₂, h₂, h⟩ := Option.bind_eq_some_iff.1 h
    cases h
    rcases List.mem_append.1 hmem with hmem | hmem
    · exact Feed.step_gone h₂ (ih h₁ hmem)
    · rw [← List.mem_singleton.1 hmem] at h₂
      exact (Feed.removeAll ids f₁ h₂).2 id hid

/-! ## Deliveries -/

/-- Who is not in the room is known to nobody. -/
theorem Feed.Matches.fresh (h : f.Matches v.game) (hs : Sound v) (hb : v.game.objects.length < 2 ^ 64) :
    key v.game.objects.length ∉ f.known ∧ key v.game.objects.length ∉ f.gone := by
  constructor
  · intro hmem
    obtain ⟨r, hkey, hin⟩ := (h.known _).1 hmem
    obtain ⟨o, ho, -⟩ := hs.core.inside_room hin
    exact key_ne_last ho hb hkey
  · intro hmem
    obtain ⟨r, hlt, hkey, -⟩ := h.gone _ hmem
    exact absurd (key_inj hkey hb (Nat.lt_trans hlt hb)) (Nat.ne_of_gt hlt)

/-- **A new object is added.** -/
theorem Feed.Matches.add (h : f.Matches v.game) (hs : Sound v) (hb : v.game.objects.length < 2 ^ 64)
    (hlen : sc'.objects.length = v.game.objects.length + 1)
    (hin : ∀ r, sc'.Inside r ↔ v.game.Inside r ∨ r = v.game.objects.length) :
    ∃ f', f.add (key v.game.objects.length) = some f' ∧ f'.Matches sc' := by
  obtain ⟨hk, hg⟩ := h.fresh hs hb
  refine ⟨_, Feed.add_eq hk hg, ⟨fun id => ?_, fun id hid => ?_⟩⟩
  · rw [Finset.mem_insert, h.known id]
    constructor
    · intro hcase
      rcases hcase with rfl | ⟨r, hkey, hr⟩
      · exact ⟨_, rfl, (hin _).2 (.inr rfl)⟩
      · exact ⟨r, hkey, (hin r).2 (.inl hr)⟩
    · intro hcase
      obtain ⟨r, hkey, hr⟩ := hcase
      rcases (hin r).1 hr with hr | rfl
      · exact .inr ⟨r, hkey, hr⟩
      · exact .inl hkey
  · obtain ⟨r, hlt, hkey, hout⟩ := h.gone id hid
    refine ⟨r, by rw [hlen]; exact Nat.lt_succ_of_lt hlt, hkey, fun hr => ?_⟩
    rcases (hin r).1 hr with hr | heq
    · exact hout hr
    · exact Nat.ne_of_lt hlt heq

theorem Sound.spawn_inside (h : Sound v) (hb : v.game.objects.length < 2 ^ 64) (r : Ref) :
    v.game.spawn.Inside r ↔ v.game.Inside r ∨ r = v.game.objects.length := by
  constructor
  · intro hin
    obtain ⟨o, ho, -⟩ := h.core.spawn.inside_room hin
    rcases objects_last ho with ho | ⟨rfl, -⟩
    · exact .inl ((h.core.spawn_inside hb ho).1 hin)
    · exact .inr rfl
  · intro hcase
    rcases hcase with hin | rfl
    · obtain ⟨o, ho, -⟩ := h.core.inside_room hin
      exact (h.core.spawn_inside hb ho).2 hin
    · right
      unfold Scene.spawn
      dsimp only
      rw [h.core.next]
      exact TreeMap.getElem?_insert_self

theorem Sound.enter_inside (h : Sound v) (hfresh : (v.game.gameSessions session).player = none)
    (hb : v.game.objects.length < 2 ^ 64) (r : Ref) :
    (v.game.enter session).Inside r ↔ v.game.Inside r ∨ r = v.game.objects.length := by
  constructor
  · intro hin
    obtain ⟨o, ho, -⟩ := (h.core.enter hfresh trivial).inside_room hin
    rcases objects_last ho with ho | ⟨rfl, -⟩
    · exact .inl ((h.core.enter_inside hb ho).1 hin)
    · exact .inr rfl
  · intro hcase
    rcases hcase with hin | rfl
    · obtain ⟨o, ho, -⟩ := h.core.inside_room hin
      exact (h.core.enter_inside hb ho).2 hin
    · left
      unfold Scene.enter
      dsimp only
      rw [h.core.next]
      exact TreeMap.getElem?_insert_self

/-- The one who left is not in the room, and the others are. -/
theorem Sound.drop_inside (h : Sound v) (hb : v.game.objects.length ≤ 2 ^ 64) {which : Roster}
    (hf : v.game.findObject id = some r) (ho : v.game.objects[r]? = some o)
    (ht : o.info.objecttype.roster = some which) (r' : Ref) :
    (v.game.drop which r id).Inside r' ↔ v.game.Inside r' ∧ r' ≠ r := by
  have hid := (h.core.found hf).1
  have hbeat : Beat (fun _ _ _ => True) v.game [.removeObject [id]] (v.game.drop which r id) := .remove hf ho ht
  constructor
  · intro hin
    obtain ⟨o', ho', hroom⟩ := (h.core.beat hbeat).inside_room hin
    rcases drop_objects ho' with ⟨-, hout⟩ | ⟨hne, ho'⟩
    · rw [hout] at hroom
      cases hroom
    · rw [hid] at hin
      exact ⟨(ZeldaServer.drop_inside (key_ne ho ho' hb (Ne.symm hne))).1 hin, hne⟩
  · intro hcase
    obtain ⟨hin, hne⟩ := hcase
    obtain ⟨o', ho', -⟩ := h.core.inside_room hin
    rw [hid]
    exact (ZeldaServer.drop_inside (key_ne ho ho' hb (Ne.symm hne))).2 hin

/-- **A beat keeps a client in step with the room.** -/
theorem Beat.matches (hbeat : Beat honest v.game msgs sc) (h : f.Matches v.game) (hs : Sound v)
    (hb : sc.objects.length ≤ 2 ^ 64) : ∃ f', msgs.foldlM Feed.step f = some f' ∧ f'.Matches sc := by
  have hid : ∀ {r : Ref} {o : GameObject}, v.game.Inside r → v.game.objects[r]? = some o → o.info.objectid ∈ f.known := by
    intro r o hin ho
    rw [hs.core.id r o ho]
    exact (h.known _).2 ⟨r, rfl, hin⟩
  cases hbeat with
  | spawn =>
    rw [spawn_length] at hb
    obtain ⟨f', hf', hm⟩ := h.add hs hb spawn_length (hs.spawn_inside hb)
    refine ⟨f', ?_, hm⟩
    have hnext : v.game.newMonster.info.objectid = key v.game.objects.length := hs.core.next
    simp only [List.foldlM_cons, List.foldlM_nil, Feed.step, hnext, hf']
    rfl
  | muse => exact ⟨f, rfl, ⟨h.known, fun id hid => by rw [modify_length]; exact h.gone id hid⟩⟩
  | move hin ho htold _ =>
    refine ⟨f, ?_, ⟨h.known, fun id hid => by unfold Scene.modifyInfo; rw [modify_length]; exact h.gone id hid⟩⟩
    have hmem := hid hin ho
    rw [← htold] at hmem
    simp only [List.foldlM_cons, List.foldlM_nil, Feed.step, Feed.mention_eq hmem]
    rfl
  | strike hne hina hint ha ht =>
    refine ⟨f, ?_, ⟨h.known, fun id hid => by unfold Scene.modifyInfo; rw [modify_length]; exact h.gone id hid⟩⟩
    have hmema := hid hina ha
    have hmemt := hid hint ht
    simp only [List.foldlM_cons, List.foldlM_nil, Feed.step, ObjectInfo.hurt, Feed.mention_eq hmema,
      Feed.mention_eq hmemt, Option.bind_some]
    rfl
  | remove hf ho ht =>
    rename_i id r o which
    rw [drop_length] at hb
    have hin := hs.drop_inside hb hf ho ht
    have hkey := (hs.core.found hf).1
    have hmem := (h.known _).2 ⟨_, hkey, hs.core.found_inside hf⟩
    refine ⟨{ known := f.known.erase id, gone := insert id f.gone }, ?_, ⟨fun id' => ?_, fun id' hid' => ?_⟩⟩
    · simp only [List.foldlM_cons, List.foldlM_nil, Feed.step, Feed.remove, if_pos hmem]
      rfl
    · rw [Finset.mem_erase, h.known id']
      constructor
      · intro hcase
        obtain ⟨hne, r', hkey', hr'⟩ := hcase
        refine ⟨r', hkey', (hin r').2 ⟨hr', fun heq => hne ?_⟩⟩
        rw [hkey', heq, hkey]
      · intro hcase
        obtain ⟨r', hkey', hr'⟩ := hcase
        obtain ⟨hr', hne⟩ := (hin r').1 hr'
        obtain ⟨o', ho', -⟩ := hs.core.inside_room hr'
        refine ⟨fun heq => ?_, r', hkey', hr'⟩
        rw [hkey', hkey] at heq
        exact key_ne ho' ho hb hne heq
    · rw [drop_length]
      rcases Finset.mem_insert.1 hid' with rfl | hid'
      · exact ⟨r, (List.getElem?_eq_some_iff.1 ho).1, hkey, fun hr => ((hin r).1 hr).2 rfl⟩
      · obtain ⟨r', hlt, hkey', hout⟩ := h.gone id' hid'
        exact ⟨r', hlt, hkey', fun hr => hout ((hin r').1 hr).1⟩

/-! ## Entering -/

/-- The keys of a map, in order, are the ids of its elements. -/
theorem elements_keys {m : TreeMap UInt64 Ref} (h : ∀ (k : UInt64) (r : Ref), m[k]? = some r → k = key r) :
    (elements m).map key = m.keys := by
  unfold elements
  rw [List.map_map, ← TreeMap.map_fst_toList_eq_keys]
  refine List.map_congr_left fun p hp => ?_
  have hmem : m[p.1]? = some p.2 := TreeMap.mem_toList_iff_getElem?_eq_some.1 hp
  exact (h p.1 p.2 hmem).symm

theorem elements_nodup {m : TreeMap UInt64 Ref} (h : ∀ (k : UInt64) (r : Ref), m[k]? = some r → k = key r) :
    ((elements m).map key).Nodup := by
  rw [elements_keys h]
  refine m.distinct_keys.imp fun hne heq => hne ?_
  exact Std.compare_eq_iff_eq.2 heq

/-- The ids of a snapshot are those of the room, each once. -/
theorem Sound.snapshot (h : Sound v) (hb : v.game.objects.length ≤ 2 ^ 64) {objects : List ObjectInfo}
    (hsnap : v.game.Snapshot objects) : (objects.map (·.objectid)).Nodup ∧
      ∀ id, id ∈ objects.map (·.objectid) ↔ ∃ r, id = key r ∧ v.game.Inside r := by
  have hp : ∀ (k : UInt64) (r : Ref), v.game.players[k]? = some r → k = key r := fun k r hk => (h.core.players k r hk).1
  have hm : ∀ (k : UInt64) (r : Ref), v.game.monsters[k]? = some r → k = key r := fun k r hk => (h.core.monsters k r hk).1
  -- the ids are the keys of the elements
  have hids : objects.map (·.objectid) = (elements v.game.players ++ elements v.game.monsters).map key := by
    have hmap := congrArg (List.filterMap fun info => info.map ObjectInfo.objectid) hsnap
    rw [List.filterMap_map, List.filterMap_map] at hmap
    have hright : List.filterMap ((fun info : Option ObjectInfo => info.map ObjectInfo.objectid) ∘ some) objects =
        objects.map (·.objectid) := by
      rw [← List.filterMap_eq_map]
      rfl
    rw [← hright, ← hmap, ← List.filterMap_eq_map]
    refine List.filterMap_congr fun r hr => ?_
    obtain ⟨o, ho, -⟩ := h.core.inside_room (h.core.elements_inside.1 hr)
    simp only [Function.comp_apply, ho, Option.map_some, h.core.id r o ho]
  rw [hids]
  constructor
  · rw [List.map_append, List.nodup_append]
    refine ⟨elements_nodup hp, elements_nodup hm, fun id hid id' hid' heq => ?_⟩
    -- an id of both maps
    obtain ⟨r, hr, hkey⟩ := List.mem_map.1 hid
    obtain ⟨r', hr', hkey'⟩ := List.mem_map.1 hid'
    obtain ⟨-, o, s, ho, hplays, -⟩ := h.core.players _ r (h.core.elements_players hr)
    obtain ⟨-, o', ho', ht', -⟩ := h.core.monsters _ r' (h.core.elements_monsters hr')
    by_cases hne : r = r'
    · rw [← hne, ho] at ho'
      rw [← Option.some.inj ho', hplays.type] at ht'
      cases ht'
    · exact key_ne ho ho' hb hne (hkey.trans (heq.trans hkey'.symm))
  · intro id
    constructor
    · intro hid
      obtain ⟨r, hr, hkey⟩ := List.mem_map.1 hid
      exact ⟨r, hkey.symm, h.core.elements_inside.1 hr⟩
    · intro hcase
      obtain ⟨r, rfl, hin⟩ := hcase
      exact List.mem_map_of_mem (h.core.elements_inside.2 hin)

end ZeldaServer
