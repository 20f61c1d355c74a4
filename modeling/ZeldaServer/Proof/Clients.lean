import ZeldaServer.Proof.Feed

/-!
# Every client follows the room

`Follows` is about all outboxes at once: those of the sessions in the room, of those
that have left it and of those that have not entered. Every delivery keeps it.

* `clients_follow`: replaying the outbox of a player in the room gives the ids of the
  room, and nothing is sent to a session after the removal of its own player.
-/

namespace ZeldaServer

open Lib Std

variable {v v' : Stage Outboxes} {st : Game Outboxes} {ops : List RoomOp} {r : Ref} {o : GameObject} {id : UInt64}
  {sc : Scene} {session s : SessionId} {msgs : List Msg} {f : Feed} {honest : Scene → ObjectInfo → ObjectInfo → Prop}

structure Follows (v : Stage Outboxes) : Prop where
  inRoom : ∀ s, v.game.Audience s → ∃ f, Feed.replay (v.net s) = some f ∧ f.Matches v.game
  fresh : ∀ s, (v.game.gameSessions s).player = none → v.net s = []
  left : ∀ s r, (v.game.gameSessions s).player = some r → ¬ v.game.Audience s →
    (∃ f, Feed.replay (v.net s) = some f) ∧
      ∀ pre ids post, v.net s = pre ++ .removeObject ids :: post → key r ∈ ids → post = []

/-! ## What beats do to the sessions -/

theorem Beat.sessions (hbeat : Beat honest v.game msgs sc) : sc.gameSessions = v.game.gameSessions := by
  cases hbeat with
  | spawn => rfl
  | muse => rfl
  | move => rfl
  | strike => rfl
  | remove =>
    rename_i which _ _ _
    cases which <;> rfl

/-- Nobody comes back. -/
theorem Beat.audience (hbeat : Beat honest v.game msgs sc) (haud : sc.Audience s) : v.game.Audience s := by
  obtain ⟨r, hr, hmem⟩ := haud
  rw [hbeat.sessions] at hr
  refine ⟨r, hr, ?_⟩
  cases hbeat with
  | spawn => exact hmem
  | muse => exact hmem
  | move => exact hmem
  | strike => exact hmem
  | remove =>
    rename_i which _ _ _
    cases which with
    | players =>
      have hmem : (v.game.players.erase _)[key r]? = some r := hmem
      rw [TreeMap.getElem?_erase] at hmem
      split at hmem
      · cases hmem
      · exact hmem
    | monsters => exact hmem

/-- A beat is one message at most. -/
theorem Beat.short (hbeat : Beat honest v.game msgs sc) : msgs.length ≤ 1 := by
  cases hbeat with
  | spawn => exact Nat.le_refl _
  | muse => exact Nat.zero_le _
  | move => exact Nat.le_refl _
  | strike => exact Nat.le_refl _
  | remove => exact Nat.le_refl _

theorem audience_inside (hr : (v.game.gameSessions s).player = some r)
    (haud : v.game.Audience s) : v.game.Inside r := by
  obtain ⟨r', hr', hmem⟩ := haud
  rw [hr] at hr'
  rw [Option.some.inj hr']
  exact .inl hmem

/-- The removal of the own player, if it was sent, was sent last. -/
theorem own_last (hs : Sound v) (hb : v.game.objects.length ≤ 2 ^ 64) (hr : (v.game.gameSessions s).player = some r)
    (haud : v.game.Audience s) {old : List Msg} (hf : Feed.replay old = some f) (hm : f.Matches v.game)
    (hshort : msgs.length ≤ 1) {pre post : List Msg} {ids : List UInt64}
    (hsplit : old ++ msgs = pre ++ .removeObject ids :: post) (hid : key r ∈ ids) : post = [] := by
  by_contra hne
  have hin : .removeObject ids ∈ old := by
    -- the removal is not in the last place
    have hlen := congrArg List.length hsplit
    have hpost : 0 < post.length := List.length_pos_iff.2 hne
    have hlt : pre.length < old.length := by
      simp only [List.length_append, List.length_cons] at hlen
      omega
    have hget : old[pre.length]? = some (.removeObject ids) := by
      rw [← List.getElem?_append_left hlt, hsplit]
      simp
    exact List.mem_of_getElem? hget
  obtain ⟨r', hlt', hkey, hout⟩ := hm.gone _ (Feed.replay_gone hf hin hid)
  obtain ⟨o, ho, -⟩ := hs.core.weak s r hr
  have hlt := (List.getElem?_eq_some_iff.1 ho).1
  have heq := key_inj hkey (Nat.lt_of_lt_of_le hlt hb) (Nat.lt_of_lt_of_le hlt' hb)
  rw [← heq] at hout
  exact hout (audience_inside hr haud)

/-! ## Deliveries -/

/-- The messages of a session that enters. -/
theorem Sound.welcome (hs : Sound v) (hb : v.game.objects.length < 2 ^ 64)
    (hfresh : (v.game.gameSessions session).player = none) {objects : List ObjectInfo} (hsnap : v.game.Snapshot objects) :
    ∃ f, Feed.replay [.myPlayer (v.game.newPlayer session).info, .addObject objects,
      .addObject [(v.game.newPlayer session).info]] = some f ∧ f.Matches (v.game.enter session) := by
  obtain ⟨hnodup, hids⟩ := hs.snapshot (Nat.le_of_lt hb) hsnap
  obtain ⟨f, hf, hgone, hknown⟩ := Feed.addAll objects {} (by simp) hnodup
  have hm : f.Matches v.game := by
    refine ⟨fun id => ?_, fun id hid => ?_⟩
    · rw [hknown id, ← hids id]
      simp
    · rw [hgone] at hid
      simp at hid
  obtain ⟨f', hf', hm'⟩ := hm.add hs hb enter_length (hs.enter_inside hfresh hb)
  refine ⟨f', ?_, hm'⟩
  have hnext : (v.game.newPlayer session).info.objectid = key v.game.objects.length := hs.core.next
  have hfirst : Feed.step {} (.myPlayer (v.game.newPlayer session).info) = some {} := by
    unfold Feed.step
    exact if_neg (by simp)
  have hlast : f.step (.addObject [(v.game.newPlayer session).info]) = some f' := by
    simp only [Feed.step, List.foldlM_cons, List.foldlM_nil, hnext, hf']
    rfl
  unfold Feed.replay
  simp only [List.foldlM_cons, List.foldlM_nil, hfirst, hf, hlast, Option.bind_eq_bind, Option.bind_some]
  rfl

theorem Follows.delivery (h : Follows v) (hs : Sound v) (hd : Delivery honest v v')
    (hb : v'.game.objects.length ≤ 2 ^ 64) : Follows v' := by
  have hlen := hd.length_le
  cases hd with
  | beat hbeat htold =>
    refine ⟨fun s haud => ?_, fun s hs' => ?_, fun s r hr hnot => ?_⟩
    · -- still in the room
      have haud₀ := hbeat.audience haud
      obtain ⟨f, hf, hm⟩ := h.inRoom s haud₀
      obtain ⟨f', hf', hm'⟩ := hbeat.matches hm hs hb
      refine ⟨f', ?_, hm'⟩
      dsimp only
      rw [(htold s).1 haud₀, Feed.replay_append, hf]
      exact hf'
    · rw [hbeat.sessions] at hs'
      dsimp only
      rw [(htold s).2 fun haud => ?_, h.fresh s hs']
      obtain ⟨r, hr, -⟩ := haud
      rw [hs'] at hr
      cases hr
    · rw [hbeat.sessions] at hr
      dsimp only
      by_cases haud : v.game.Audience s
      · -- it leaves with this beat
        obtain ⟨f, hf, hm⟩ := h.inRoom s haud
        obtain ⟨f', hf', -⟩ := hbeat.matches hm hs hb
        have hnet := (htold s).1 haud
        refine ⟨⟨f', ?_⟩, fun pre ids post hsplit hid => ?_⟩
        · rw [hnet, Feed.replay_append, hf]
          exact hf'
        · exact own_last hs (Nat.le_trans hlen hb) hr haud hf hm hbeat.short (hnet ▸ hsplit) hid
      · have hnet := (htold s).2 haud
        rw [hnet]
        exact h.left s r hr haud
  | enter hfresh hsnap hself hothers =>
    rename_i session objects net
    rw [enter_length] at hb
    have hsessions : ∀ s, s ≠ session → (v.game.enter session).gameSessions s = v.game.gameSessions s := by
      intro s hne
      unfold Scene.enter
      dsimp only
      rw [Function.update_of_ne hne]
    have hnew : ∃ r, ((v.game.enter session).gameSessions session).player = some r := by
      unfold Scene.enter
      dsimp only
      rw [Function.update_self]
      exact ⟨_, rfl⟩
    refine ⟨fun s haud => ?_, fun s hs' => ?_, fun s r hr hnot => ?_⟩
    · dsimp only
      by_cases hne : s = session
      · subst hne
        obtain ⟨f, hf, hm⟩ := hs.welcome hb hfresh hsnap
        rw [h.fresh _ hfresh, List.nil_append] at hself
        exact ⟨f, by rw [hself]; exact hf, hm⟩
      · have haud₀ := (hs.core.enter_audience hb hne).1 haud
        obtain ⟨f, hf, hm⟩ := h.inRoom s haud₀
        obtain ⟨f', hf', hm'⟩ := hm.add hs hb enter_length (hs.enter_inside hfresh hb)
        refine ⟨f', ?_, hm'⟩
        have hnext : (v.game.newPlayer session).info.objectid = key v.game.objects.length := hs.core.next
        rw [(hothers s hne).1 haud₀, Feed.replay_append, hf]
        simp only [Option.bind_some, List.foldlM_cons, List.foldlM_nil, Feed.step, hnext, hf']
        rfl
    · have hne : s ≠ session := by
        intro heq
        obtain ⟨r, hr⟩ := hnew
        rw [heq, hr] at hs'
        cases hs'
      rw [hsessions s hne] at hs'
      dsimp only
      rw [(hothers s hne).2 fun haud => ?_, h.fresh s hs']
      obtain ⟨r, hr, -⟩ := haud
      rw [hs'] at hr
      cases hr
    · have hne : s ≠ session := fun heq => hnot (heq ▸ hs.core.enter_self)
      have haud : ¬ v.game.Audience s := fun haud => hnot ((hs.core.enter_audience hb hne).2 haud)
      rw [hsessions s hne] at hr
      dsimp only
      rw [(hothers s hne).2 haud]
      exact h.left s r hr haud

theorem follows_start : Follows roomStart.stage := by
  refine ⟨fun s haud => ?_, fun s _ => rfl, fun s r hr => ?_⟩
  · obtain ⟨r, hr, -⟩ := haud
    cases hr
  · cases hr

/-- The session of a player in the room points to it. -/
theorem Core.owner (h : Core Anyone st.stage) (hmem : st.game.players[id]? = some r)
    (ho : st.game.objects[r]? = some o) (hk : o.kind = .player (some s)) :
    (st.game.gameSessions s).player = some r ∧ st.game.toScene.Audience s := by
  obtain ⟨hkey, o', s', ho', hplays, -, hweak, -⟩ := h.players id r hmem
  rw [show st.stage.game.objects[r]? = some o from ho] at ho'
  obtain rfl := Option.some.inj ho'
  have hss : s = s' := Option.some.inj (Kind.player.inj (hk.symm.trans hplays.kind))
  rw [hss]
  exact ⟨hweak, r, hweak, hkey ▸ hmem⟩

theorem Core.hosts (h : Core Anyone st.stage) (hh : st.game.Hosts s) : st.game.toScene.Audience s := by
  obtain ⟨id, r, o, hmem, ho, hk⟩ := hh
  exact (h.owner hmem ho hk).2

/-- **Every client's ids follow those of the room**, in every state of a run that creates
at most `2 ^ 64` objects. -/
theorem clients_follow (h : Runs RoomStep roomStart ops st) (hb : ops.countP RoomOp.creates ≤ 2 ^ 64) :
    (∀ s, st.game.Hosts s → ∃ f, Feed.replay (st.net s) = some f ∧
      ∀ id : UInt64, id ∈ f.known ↔ st.game.players[id]? ≠ none ∨ st.game.monsters[id]? ≠ none) ∧
    ∀ (s : SessionId) (r : Ref) (o : GameObject), (st.game.gameSessions s).player = some r →
      st.game.objects[r]? = some o → (∃ f, Feed.replay (st.net s) = some f) ∧
        ∀ pre ids post, st.net s = pre ++ .removeObject ids :: post → o.info.objectid ∈ ids → post = [] := by
  have hreports : Runs (ReportStep fun _ _ _ => True) roomStart ops st :=
    h.mono fun _ _ _ hstep => ⟨hstep, fun _ _ _ _ _ _ => trivial⟩
  obtain ⟨hs, hfollows⟩ := run_invariant follows_start
    (fun v v' hs hd hb hp => Follows.delivery hp hs hd hb) hreports hb
  have hb : st.game.objects.length ≤ 2 ^ 64 := by
    rw [(run_good h).2]
    exact hb
  refine ⟨fun s hh => ?_, fun s r o hr ho => ?_⟩
  · obtain ⟨f, hf, hm⟩ := hfollows.inRoom s (hs.core.hosts hh)
    refine ⟨f, hf, fun id => ?_⟩
    rw [hm.known id]
    constructor
    · intro hcase
      obtain ⟨r, rfl, hin | hin⟩ := hcase
      · exact .inl fun hnone => by cases hnone.symm.trans hin
      · exact .inr fun hnone => by cases hnone.symm.trans hin
    · intro hcase
      rcases hcase with hin | hin
      · obtain ⟨r, hr⟩ := Option.ne_none_iff_exists'.1 hin
        obtain ⟨hkey, -⟩ := hs.core.players id r hr
        exact ⟨r, hkey, .inl (hkey ▸ hr)⟩
      · obtain ⟨r, hr⟩ := Option.ne_none_iff_exists'.1 hin
        obtain ⟨hkey, -⟩ := hs.core.monsters id r hr
        exact ⟨r, hkey, .inr (hkey ▸ hr)⟩
  · rw [hs.core.id r o ho]
    by_cases haud : st.game.toScene.Audience s
    · obtain ⟨f, hf, hm⟩ := hfollows.inRoom s haud
      refine ⟨⟨f, hf⟩, fun pre ids post hsplit hid => ?_⟩
      have hsplit : st.net s ++ [] = pre ++ .removeObject ids :: post := by
        rw [List.append_nil]
        exact hsplit
      exact own_last hs hb hr haud hf hm (Nat.zero_le _) hsplit hid
    · exact hfollows.left s r hr haud

/-- Two sessions enter, and the first one leaves. -/
theorem clients_follow_example : ∃ st, Runs RoomStep roomStart [.init {}, .enterRoom 0, .enterRoom 1, .leaveRoom 0] st ∧
    st.net 1 ≠ [] ∧ ((∀ s, st.game.Hosts s → ∃ f, Feed.replay (st.net s) = some f ∧
      ∀ id : UInt64, id ∈ f.known ↔ st.game.players[id]? ≠ none ∨ st.game.monsters[id]? ≠ none) ∧
    ∀ (s : SessionId) (r : Ref) (o : GameObject), (st.game.gameSessions s).player = some r →
      st.game.objects[r]? = some o → (∃ f, Feed.replay (st.net s) = some f) ∧
        ∀ pre ids post, st.net s = pre ++ .removeObject ids :: post → o.info.objectid ∈ ids → post = []) := by
  have hrun : ([.init {}, .enterRoom 0, .enterRoom 1, .leaveRoom 0].foldlM roomExec roomStart).map
      (fun st => decide (st.net 1 ≠ [])) = some true := by decide +kernel
  obtain ⟨st, hst, hnet⟩ := Option.map_eq_some_iff.1 hrun
  exact ⟨st, roomExec_runs hst, of_decide_eq_true hnet, clients_follow (roomExec_runs hst) (by decide)⟩

end ZeldaServer
